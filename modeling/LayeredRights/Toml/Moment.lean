import LayeredRights.Toml.Token

/-!
# Dates and times of TOML

A moment is a date, a time of day, or both, and then perhaps with the distance from universal time.
Days are checked against the calendar; the second may be a leap second. Of a fraction of a second
nine digits count.
-/

namespace LayeredRights.Toml

open Text (isDigit digitValue? ofDigits)

/-- A day of the calendar. -/
structure Date where
  year : Nat
  month : Nat
  day : Nat
  deriving DecidableEq, Repr

/-- A time of day. The fraction holds the digits after the point, without noughts at its end. -/
structure Time where
  hour : Nat
  minute : Nat
  second : Nat
  fraction : List Char := []
  deriving DecidableEq, Repr

/-- The distance from universal time. -/
inductive Offset
  | universal
  | minutes (n : Int)
  deriving DecidableEq, Repr

/-- A date, a time of day, or both. -/
inductive Moment
  | date (d : Date)
  | time (t : Time)
  | dateTime (d : Date) (t : Time) (offset : Option Offset)
  deriving DecidableEq, Repr

/-! ### The calendar -/

/-- Whether a year has a twenty-ninth of February. -/
def isLeapYear (year : Nat) : Bool := (year % 4 = 0 && year % 100 ≠ 0) || year % 400 = 0

/-- How many days a month has. -/
def daysIn (year month : Nat) : Nat :=
  if month = 2 then if isLeapYear year then 29 else 28
  else if month ∈ [4, 6, 9, 11] then 30
  else 31

/-- Whether the calendar has a day. -/
def Date.isValid (d : Date) : Bool :=
  1 ≤ d.month && d.month ≤ 12 && 1 ≤ d.day && d.day ≤ daysIn d.year d.month

/-- Whether the clock shows a time. -/
def Time.isValid (t : Time) : Bool := t.hour ≤ 23 && t.minute ≤ 59 && t.second ≤ 60

/-! ### Reading -/

/-- The number that a run of decimal digits spells. -/
def number? (cs : List Char) : Option Nat :=
  (cs.mapM (digitValue? 10)).map (ofDigits 10)

/-- Takes a date off the front. -/
def Date.take? : List Char → Option (Date × List Char)
  | y₁ :: y₂ :: y₃ :: y₄ :: '-' :: m₁ :: m₂ :: '-' :: d₁ :: d₂ :: cs => do
    let d : Date := ⟨← number? [y₁, y₂, y₃, y₄], ← number? [m₁, m₂], ← number? [d₁, d₂]⟩
    if d.isValid then some (d, cs) else none
  | _ => none

/-- The digits of a fraction that count. -/
def significant (cs : List Char) : List Char := ((cs.take 9).reverse.dropWhile (· = '0')).reverse

/-- Takes a time of day off the front. -/
def Time.take? : List Char → Option (Time × List Char)
  | h₁ :: h₂ :: ':' :: m₁ :: m₂ :: ':' :: s₁ :: s₂ :: cs => do
    let t : Time := { hour := ← number? [h₁, h₂], minute := ← number? [m₁, m₂],
                      second := ← number? [s₁, s₂] }
    if !t.isValid then none
    else
      match cs with
      | '.' :: c :: cs =>
        if isDigit c then
          let digits := c :: cs.takeWhile isDigit
          some ({ t with fraction := significant digits }, cs.dropWhile isDigit)
        else none
      | cs => some (t, cs)
  | _ => none

/-- Reads a distance from universal time. -/
def Offset.ofChars? : List Char → Option Offset
  | ['Z'] | ['z'] => some .universal
  | [sign, h₁, h₂, ':', m₁, m₂] => do
    let t : Time := { hour := ← number? [h₁, h₂], minute := ← number? [m₁, m₂], second := 0 }
    let n : Int := t.hour * 60 + t.minute
    if !t.isValid then none
    else if sign = '+' then some (.minutes n)
    else if sign = '-' then some (.minutes (-n))
    else none
  | _ => none

/-- Reads a moment. -/
def Moment.ofChars? (cs : List Char) : Option Moment :=
  match Date.take? cs with
  | some (d, []) => some (.date d)
  | some (d, c :: cs) => do
    if c ≠ 'T' && c ≠ 't' && c ≠ ' ' then none
    else
      match ← Time.take? cs with
      | (t, []) => some (.dateTime d t none)
      | (t, cs) => return .dateTime d t (some (← Offset.ofChars? cs))
  | none =>
    match Time.take? cs with
    | some (t, []) => some (.time t)
    | _ => none

/-! ### Writing -/

/-- A number with noughts in front. -/
def padded (width n : Nat) : String :=
  let ds := Nat.toDigits 10 n
  String.ofList (List.replicate (width - ds.length) '0' ++ ds)

/-- A date as text. -/
def Date.text (d : Date) : String :=
  padded 4 d.year ++ "-" ++ padded 2 d.month ++ "-" ++ padded 2 d.day

/-- A time of day as text. -/
def Time.text (t : Time) : String :=
  padded 2 t.hour ++ ":" ++ padded 2 t.minute ++ ":" ++ padded 2 t.second ++
    if t.fraction.isEmpty then "" else "." ++ String.ofList t.fraction

/-- A distance from universal time as text. -/
def Offset.text : Offset → String
  | universal => "Z"
  | minutes n =>
    (if n < 0 then "-" else "+") ++ padded 2 (n.natAbs / 60) ++ ":" ++ padded 2 (n.natAbs % 60)

/-- A moment as text. Between date and time there is a `T`, whatever stood there. -/
def Moment.text : Moment → String
  | date d => d.text
  | time t => t.text
  | dateTime d t offset => d.text ++ "T" ++ t.text ++ (offset.map Offset.text).getD ""

end LayeredRights.Toml
