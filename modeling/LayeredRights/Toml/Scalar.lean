import LayeredRights.Decimal.Shortest
import LayeredRights.Toml.Moment

/-!
# Single values of TOML

Integers have 64 bits. Numbers with a fraction or an exponent are kept as the binary number next to
them. `Scalar.text` is how a value reads where a text is wanted: integers in decimal, other numbers
with the fewest digits that tell them apart and without an exponent.
-/

namespace LayeredRights.Toml

open Text (isDigit digitValue? ofDigits)

/-- A number that is no integer by the way it is written. -/
inductive Number
  | finite (negative : Bool) (size : Binary)
  | infinite (negative : Bool)
  | nan
  deriving DecidableEq, Repr

/-- A value without parts. -/
inductive Scalar
  | text (s : String)
  | boolean (b : Bool)
  | integer (n : Int)
  | number (x : Number)
  | moment (m : Moment)
  deriving DecidableEq, Repr

/-! ### Digits -/

/-- The values of the digits in a run. Single underscores may stand between digits. -/
def digits? (base : Nat) : List Char → Option (List Nat)
  | [] => none
  | c :: cs => do
    let d ← digitValue? base c
    match cs with
    | [] => some [d]
    | '_' :: cs => return d :: (← digits? base cs)
    | cs => return d :: (← digits? base cs)

/-- The digits of a whole number, which has no nought in front. -/
def wholeDigits? (cs : List Char) : Option (List Nat) :=
  match digits? 10 cs with
  | some (0 :: _ :: _) => none
  | ds => ds

/-- Takes a sign off the front, and says whether it is a minus. -/
def splitSign : List Char → Bool × List Char
  | '-' :: cs => (true, cs)
  | '+' :: cs => (false, cs)
  | cs => (false, cs)

/-! ### Integers -/

/-- The integers from this one on are too great. -/
def integerBound : Nat := Nat.pow 2 63

/-- Reads an integer in the base that a letter stands for. -/
def basedInteger? (letter : Char) (cs : List Char) : Option Int := do
  let base ← match letter with
    | 'x' => some 16
    | 'o' => some 8
    | 'b' => some 2
    | _ => none
  let n := ofDigits base (← digits? base cs)
  if n < integerBound then some n else none

/-- Reads an integer. -/
def integer? (cs : List Char) : Option Int :=
  match cs with
  | '0' :: letter :: cs => basedInteger? letter cs
  | cs => do
    let (negative, cs) := splitSign cs
    let n := ofDigits 10 (← wholeDigits? cs)
    if negative then if n ≤ integerBound then some (-n) else none
    else if n < integerBound then some n
    else none

/-! ### Other numbers -/

/-- The characters of a run of digits. -/
def isRunChar (c : Char) : Bool := isDigit c || c = '_'

/-- Reads an exponent. -/
def exponent? : List Char → Option Int
  | e :: cs => do
    let (negative, cs) := splitSign cs
    let n : Int := ofDigits 10 (← digits? 10 cs)
    if e ≠ 'e' && e ≠ 'E' then none
    else if negative then some (-n)
    else some n
  | [] => none

/-- Reads a number without a sign that has a fraction, an exponent, or both. -/
def decimal? (cs : List Char) : Option Decimal := do
  let whole ← wholeDigits? (cs.takeWhile isRunChar)
  match cs.dropWhile isRunChar with
  | '.' :: cs =>
    let fraction ← digits? 10 (cs.takeWhile isRunChar)
    let exponent ← match cs.dropWhile isRunChar with
      | [] => some 0
      | cs => exponent? cs
    return ⟨ofDigits 10 (whole ++ fraction), exponent - fraction.length⟩
  | cs => return ⟨ofDigits 10 whole, ← exponent? cs⟩

/-- Reads a number that is no integer. One that is too great for a binary number is refused, unless
it is negative. -/
def Number.ofChars? (cs : List Char) : Option Number :=
  let (negative, cs) := splitSign cs
  if cs = "inf".toList then some (.infinite negative)
  else if cs = "nan".toList then some .nan
  else do
    match (← decimal? cs).nearest? with
    | some b => some (.finite negative b)
    | none => if negative then some (.infinite true) else none

/-- A number as text. -/
def Number.text : Number → String
  | finite negative b => (if negative then "-" else "") ++ b.shortest.positional
  | infinite negative => if negative then "-inf" else "inf"
  | nan => "NaN"

/-! ### Values -/

/-- The value of a word. -/
def Scalar.ofWord? (s : String) : Option Scalar :=
  let cs := s.toList
  if s = "true" then some (.boolean true)
  else if s = "false" then some (.boolean false)
  else ((integer? cs).map .integer).orElse fun () ↦
    ((Number.ofChars? cs).map .number).orElse fun () ↦ (Moment.ofChars? cs).map .moment

/-- A value as text. -/
def Scalar.toText : Scalar → String
  | text s => s
  | boolean b => if b then "true" else "false"
  | integer n => (if n < 0 then "-" else "") ++ String.ofList (Nat.toDigits 10 n.natAbs)
  | number x => x.text
  | moment m => m.text

end LayeredRights.Toml
