import LayeredRights.Kdl.Character
import LayeredRights.Text.Digit

/-!
# Bare words

A run of word characters is a number, a string or a mistake, and its first characters tell which: a
digit, or a sign and a digit, opens a number; a point before a digit is refused, also after a sign;
so are the names of the keywords, which have to be written with a `#`.

`isPlain` is the writer's side: the strings that are written without quotes. It is more careful than
the reader in one place (`-inf` is quoted although the reader takes it) and less careful in another:
a sign, a point and a digit in a row are written bare, and the reader refuses them.
-/

namespace LayeredRights.Kdl

open Text (isDigit digitValue? ofDigits)

/-- The values that have a name. -/
inductive Keyword
  | true
  | false
  | null
  | inf
  | negInf
  | nan
  deriving DecidableEq, Repr

/-- The name of a keyword, without the `#` in front of it. -/
def Keyword.name : Keyword → String
  | true => "true"
  | false => "false"
  | null => "null"
  | inf => "inf"
  | negInf => "-inf"
  | nan => "nan"

/-- All keywords. -/
def Keyword.all : List Keyword := [.true, .false, .null, .inf, .negInf, .nan]

/-- The keyword of a name. -/
def Keyword.ofName? (name : String) : Option Keyword := Keyword.all.find? (·.name = name)

/-! ### Numbers -/

/-- Each run of digits in a number has to stay below this. -/
def digitRunBound : Nat := Nat.pow 2 127

/-- Takes a run of digits off the front: a digit, then digits and underscores. -/
def afterDigitRun? (base : Nat) (cs : List Char) : Option (List Char) :=
  match cs with
  | [] => none
  | c :: _ =>
    if (digitValue? base c).isNone then none
    else
      let inRun (c : Char) : Bool := c == '_' || (digitValue? base c).isSome
      let value := ofDigits base ((cs.takeWhile inRun).filterMap (digitValue? base))
      if value < digitRunBound then some (cs.dropWhile inRun) else none

/-- Takes the sign off a number or an exponent. -/
def afterSign : List Char → List Char
  | '+' :: cs => cs
  | '-' :: cs => cs
  | cs => cs

/-- What may follow the whole part of a decimal number: a fraction, an exponent, or both. -/
def isDecimalTail (cs : List Char) : Bool :=
  let exponent : List Char → Bool
    | [] => true
    | c :: cs => (c == 'e' || c == 'E') && afterDigitRun? 10 (afterSign cs) == some []
  match cs with
  | '.' :: cs => (afterDigitRun? 10 cs).any exponent
  | cs => exponent cs

/-- Whether a run of word characters is the literal of a number. -/
def isNumber (cs : List Char) : Bool :=
  let decimal (cs : List Char) : Bool := (afterDigitRun? 10 cs).any isDecimalTail
  match afterSign cs with
  | '0' :: r :: cs =>
    if r == 'x' || r == 'X' then afterDigitRun? 16 cs == some []
    else if r == 'o' || r == 'O' then afterDigitRun? 8 cs == some []
    else if r == 'b' || r == 'B' then afterDigitRun? 2 cs == some []
    else decimal ('0' :: r :: cs)
  | cs => decimal cs

/-! ### Kinds of words -/

/-- A text that opens with an ASCII digit. -/
def opensWithDigit : List Char → Bool
  | c :: _ => isDigit c
  | [] => false

/-- A text that opens with a point and a digit. -/
def opensWithFraction : List Char → Bool
  | '.' :: cs => opensWithDigit cs
  | _ => false

/-- What a run of word characters stands for. -/
inductive Word
  | number
  | string
  deriving DecidableEq, Repr

/-- The names of keywords that may not stand bare. -/
def bareRefused : List (List Char) :=
  ["true".toList, "false".toList, "null".toList, "inf".toList, "nan".toList]

/-- Tells a number from a string; `none` when the run may be neither. -/
def Word.ofChars? (cs : List Char) : Option Word :=
  if opensWithDigit (afterSign cs) then
    if isNumber cs then some .number else none
  else if opensWithFraction (afterSign cs) then none
  else if cs ∈ bareRefused then none
  else some .string

/-- The names that the writer never leaves bare. -/
def writtenQuoted : List (List Char) := "-inf".toList :: bareRefused

/-- Whether a string is written without quotes. -/
def isPlain (cs : List Char) : Bool :=
  let signed : Bool :=
    match cs with
    | '.' :: r | '-' :: r | '+' :: r => opensWithDigit r
    | _ => false
  !cs.isEmpty && cs.all isWordChar && !opensWithDigit cs && !signed && cs ∉ writtenQuoted

end LayeredRights.Kdl
