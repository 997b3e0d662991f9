/-!
# Bytes as text, whatever they are

`ofBytes` reads bytes as UTF-8 and gives a text for any of them: what is not UTF-8 becomes the
replacement character, one for each longest run of bytes that begins a character and breaks off.

The machine takes one byte at a time. Within a character it knows how many bytes are still owed and
between which bounds the next one has to lie; a byte outside of them ends the run and is looked at
anew.
-/

namespace LayeredRights.Text.Replacement

/-- The character that stands for what cannot be read. -/
def mark : Char := '\ufffd'

/-- A character of which some bytes have been read. -/
structure Partial where
  /-- How many bytes are owed after the next one. -/
  owed : Nat
  low : Nat
  high : Nat
  /-- The bits read so far. -/
  bits : Nat
  deriving DecidableEq, Repr

/-- What has been read, newest first, and the character under way. -/
structure Machine where
  chars : List Char := []
  current : Option Partial := none
  deriving DecidableEq, Repr

namespace Machine

/-- A byte between characters. -/
def start (m : Machine) (b : Nat) : Machine :=
  let begin (owed low high bits : Nat) : Machine :=
    { m with current := some ⟨owed, low, high, bits⟩ }
  if b ≤ 0x7F then { m with chars := Char.ofNat b :: m.chars, current := none }
  else if 0xC2 ≤ b && b ≤ 0xDF then begin 0 0x80 0xBF (b - 0xC0)
  else if b = 0xE0 then begin 1 0xA0 0xBF 0
  else if b = 0xED then begin 1 0x80 0x9F 0xD
  else if 0xE1 ≤ b && b ≤ 0xEF then begin 1 0x80 0xBF (b - 0xE0)
  else if b = 0xF0 then begin 2 0x90 0xBF 0
  else if 0xF1 ≤ b && b ≤ 0xF3 then begin 2 0x80 0xBF (b - 0xF0)
  else if b = 0xF4 then begin 2 0x80 0x8F 4
  else { m with chars := mark :: m.chars, current := none }

/-- The machine after one more byte. -/
def feed (m : Machine) (b : Nat) : Machine :=
  match m.current with
  | none => m.start b
  | some p =>
    if p.low ≤ b && b ≤ p.high then
      let bits := p.bits * 0x40 + (b - 0x80)
      match p.owed with
      | 0 => { chars := Char.ofNat bits :: m.chars, current := none }
      | owed + 1 => { m with current := some ⟨owed, 0x80, 0xBF, bits⟩ }
    else { m with chars := mark :: m.chars }.start b

/-- The characters of bytes that end here. -/
def finish (m : Machine) : List Char :=
  match m.current with
  | none => m.chars.reverse
  | some _ => (mark :: m.chars).reverse

end Machine

/-- The text of bytes. -/
def ofBytes (bytes : ByteArray) : String :=
  String.ofList (bytes.toList.foldl (fun m b ↦ m.feed b.toNat) ({} : Machine)).finish

end LayeredRights.Text.Replacement
