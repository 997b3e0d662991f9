import LayeredRights.Text.Digit

/-!
# Keys of settings

A key leads from the root of a settings tree to a setting: names joined by points, and in brackets
the places of elements in a list, such as `rights.edit_action` or `extra[0].name`. A text that is no
key in this sense is the name of a setting at the root.

Names are the same whatever their case.
-/

namespace LayeredRights

open Text (isDigit isLetter digitValue? ofDigits)

/-- One step of a key. A place may be counted from the end of a list, by a negative number. -/
inductive KeyStep
  | name (s : String)
  | place (index : Int)
  deriving DecidableEq, Repr

namespace KeyStep

/-- The small letter of a letter. Besides the ASCII capitals only the Kelvin sign has an ASCII
letter. -/
def foldChar (c : Char) : Char := if c = '\u212a' then 'k' else c.toLower

/-- A name without regard to case. -/
def foldCase (s : String) : String := String.ofList (s.toList.map foldChar)

/-- The characters of a name in a key. -/
def isNameChar (c : Char) : Bool := isLetter c || isDigit c || c = ' ' || c = '_' || c = '-'

/-- Takes a name off the front of a key. -/
def takeName? (cs : List Char) : Option (KeyStep × List Char) :=
  let n := cs.takeWhile isNameChar
  if n.isEmpty then none else some (.name (String.ofList n), cs.dropWhile isNameChar)

/-- The places that fit in 64 bits. -/
def placeBound : Nat := Nat.pow 2 63

/-- Takes the place of an element and the bracket behind it off the front of a key. -/
def takePlace? (cs : List Char) : Option (KeyStep × List Char) :=
  let isSpace (c : Char) : Bool := c = ' ' || c = '\t'
  let cs := cs.dropWhile isSpace
  let (negative, cs) : Bool × List Char := match cs with
    | '-' :: cs => (true, cs)
    | cs => (false, cs)
  let digits := cs.takeWhile isDigit
  let n := ofDigits 10 (digits.filterMap (digitValue? 10))
  match (cs.dropWhile isDigit).dropWhile isSpace with
  | ']' :: rest =>
    if digits.isEmpty || placeBound + (if negative then 1 else 0) ≤ n then none
    else some (.place (if negative then -n else n), rest)
  | _ => none

/-- Reads the steps behind the first one. Every step takes up characters, so the fuel that counts
them is never used up. -/
def more? : Nat → List Char → Option (List KeyStep)
  | _, [] => some []
  | 0, _ => none
  | fuel + 1, c :: cs => do
    let (step, rest) ←
      if c = '.' then takeName? cs else if c = '[' then takePlace? cs else none
    return step :: (← more? fuel rest)

/-- The steps of a key. -/
def ofKey (key : String) : List KeyStep :=
  let cs := key.toList
  let steps? : Option (List KeyStep) := do
    let (step, rest) ← takeName? cs
    return step :: (← more? rest.length rest)
  steps?.getD [.name key]

end KeyStep

end LayeredRights
