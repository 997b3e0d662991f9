import LayeredRights.Text.Digit

/-!
# Tokens of TOML

`Token.ofText?` cuts a text into tokens by a fold of `Scanner.feed`. Keys, numbers, dates and the
names of truth values are all runs of the same characters, so what a run stands for is not the
scanner's business: it is a `word`. A date that is followed by one space and a digit goes on with a
time of day, and the two are one word.

Comments leave no token. Of line ends there is one kind, the line feed, with or without a carriage
return in front of it (`unifyLineEnds`); a carriage return elsewhere is refused with the other
control characters.
-/

namespace LayeredRights.Toml

open Text (isDigit isLetter hexValue?)

/-! ### Characters -/

/-- The characters of a key without quotes. -/
def isBareChar (c : Char) : Bool := isDigit c || isLetter c || c = '-' || c = '_'

/-- The characters of words: those of keys, and those that numbers, dates and dotted keys add. -/
def isWordChar (c : Char) : Bool := isBareChar c || c = '+' || c = '.' || c = ':'

/-- Space within a line. -/
def isBlank (c : Char) : Bool := c = ' ' || c = '\t'

/-- The control characters, of which only the tab may stand in comments and strings. -/
def isControl (c : Char) : Bool := (c.toNat < 0x20 && c ≠ '\t') || c.toNat = 0x7F

/-- The text with a line feed for each carriage return and line feed. -/
def unifyLineEnds : List Char → List Char
  | '\r' :: '\n' :: cs => '\n' :: unifyLineEnds cs
  | c :: cs => c :: unifyLineEnds cs
  | [] => []

/-- The character that a one-letter escape stands for. -/
def escapedChar? : Char → Option Char
  | 'b' => some '\x08'
  | 't' => some '\t'
  | 'n' => some '\n'
  | 'f' => some '\x0c'
  | 'r' => some '\r'
  | '"' => some '"'
  | '\\' => some '\\'
  | _ => none

/-- Whether a run of characters has the shape of a date. -/
def isDateShaped (cs : List Char) : Bool :=
  match cs with
  | [y₁, y₂, y₃, y₄, '-', m₁, m₂, '-', d₁, d₂] => [y₁, y₂, y₃, y₄, m₁, m₂, d₁, d₂].all isDigit
  | _ => false

/-! ### Tokens -/

/-- A token of a TOML text. -/
inductive Token
  | blank
  | newline
  | word (s : String)
  /-- A string, and whether it may run over lines. Such a string is no key. -/
  | text (s : String) (block : Bool)
  | equals
  | comma
  | openBracket
  | closeBracket
  | openBrace
  | closeBrace
  deriving DecidableEq, Repr

/-! ### The scanner -/

/-- A string that is being read, newest character first. -/
structure Draft where
  quote : Char
  block : Bool
  chars : List Char := []
  deriving DecidableEq, Repr

/-- The draft with one more character. -/
def Draft.push (d : Draft) (c : Char) : Draft := { d with chars := c :: d.chars }

/-- The draft as a token. -/
def Draft.token (d : Draft) : Token := .text (String.ofList d.chars.reverse) d.block

/-- Where in the text a scanner is. Lists are newest first. -/
inductive Mode
  | between
  | word (cs : List Char)
  /-- After a date and one space. -/
  | afterDate (cs : List Char)
  | comment
  /-- After one or two quotes that may open a string. -/
  | opening (quote : Char) (count : Nat)
  /-- In a string, after a number of quotes in a row. -/
  | body (d : Draft) (quotes : Nat)
  | escape (d : Draft)
  | code (d : Draft) (missing value : Nat)
  /-- After a backslash at the end of a line, before or after the line feed. -/
  | continuation (d : Draft) (ended : Bool)
  deriving DecidableEq, Repr

/-- A scanner: its mode, and the tokens it has found, newest first. -/
structure Scanner where
  mode : Mode := .between
  tokens : List Token := []
  deriving DecidableEq, Repr

namespace Scanner

/-- Goes on in another mode. -/
def enter (s : Scanner) (m : Mode) : Option Scanner := some { s with mode := m }

/-- Adds a token. -/
def emit (s : Scanner) (t : Token) : Scanner := ⟨.between, t :: s.tokens⟩

/-- Adds a word. -/
def emitWord (s : Scanner) (cs : List Char) : Scanner := s.emit (.word (String.ofList cs.reverse))

/-- A character between tokens. -/
def feedBetween (s : Scanner) (c : Char) : Option Scanner :=
  if isBlank c then some (s.emit .blank)
  else if c = '\n' then some (s.emit .newline)
  else if c = '#' then s.enter .comment
  else if c = '=' then some (s.emit .equals)
  else if c = ',' then some (s.emit .comma)
  else if c = '[' then some (s.emit .openBracket)
  else if c = ']' then some (s.emit .closeBracket)
  else if c = '\x7b' then some (s.emit .openBrace)
  else if c = '\x7d' then some (s.emit .closeBrace)
  else if c = '"' || c = '\'' then s.enter (.opening c 1)
  else if isWordChar c then s.enter (.word [c])
  else none

/-- A character of a string on one line. -/
def feedLine (s : Scanner) (d : Draft) (c : Char) : Option Scanner :=
  if c = d.quote then some (s.emit d.token)
  else if c = '\\' && d.quote = '"' then s.enter (.escape d)
  else if isControl c then none
  else s.enter (.body (d.push c) 0)

/-- A character of a string over lines. Three quotes end it, and up to two more belong to it. -/
def feedBlock (s : Scanner) (d : Draft) (quotes : Nat) (c : Char) : Option Scanner :=
  if c = d.quote then if quotes = 5 then none else s.enter (.body d (quotes + 1))
  else if 3 ≤ quotes then
    (s.emit { d with chars := List.replicate (quotes - 3) d.quote ++ d.chars }.token).feedBetween c
  else
    let d := { d with chars := List.replicate quotes d.quote ++ d.chars }
    if c = '\\' && d.quote = '"' then s.enter (.escape d)
    else if isControl c && c ≠ '\n' then none
    else s.enter (.body (d.push c) 0)

/-- A character of a string. -/
def feedBody (s : Scanner) (d : Draft) (quotes : Nat) (c : Char) : Option Scanner :=
  if d.block then s.feedBlock d quotes c else s.feedLine d c

/-- A character after quotes that may open a string. A line feed that follows three quotes is no
part of the string. -/
def feedOpening (s : Scanner) (quote : Char) (count : Nat) (c : Char) : Option Scanner :=
  if count = 3 then
    if c = '\n' then s.enter (.body ⟨quote, true, []⟩ 0) else s.feedBlock ⟨quote, true, []⟩ 0 c
  else if c = quote then s.enter (.opening quote (count + 1))
  else if count = 2 then (s.emit (.text "" false)).feedBetween c
  else s.feedLine ⟨quote, false, []⟩ c

/-- A character after a backslash. In a string over lines it may end the line. -/
def feedEscape (s : Scanner) (d : Draft) (c : Char) : Option Scanner :=
  if c = 'u' then s.enter (.code d 4 0)
  else if c = 'U' then s.enter (.code d 8 0)
  else if d.block && (isBlank c || c = '\n') then s.enter (.continuation d (c = '\n'))
  else (escapedChar? c).bind fun e ↦ s.enter (.body (d.push e) 0)

/-- A digit of the code of a character. -/
def feedCode (s : Scanner) (d : Draft) (missing value : Nat) (c : Char) : Option Scanner :=
  (hexValue? c).bind fun h ↦
    let value := value * 16 + h
    if 1 < missing then s.enter (.code d (missing - 1) value)
    else if value.isValidChar then s.enter (.body (d.push (Char.ofNat value)) 0)
    else none

/-- The scanner after one more character, or `none` when no TOML text goes on that way. -/
def feed (s : Scanner) (c : Char) : Option Scanner :=
  match s.mode with
  | .between => s.feedBetween c
  | .word cs =>
    if isWordChar c then s.enter (.word (c :: cs))
    else if c = ' ' && isDateShaped cs.reverse then s.enter (.afterDate cs)
    else (s.emitWord cs).feedBetween c
  | .afterDate cs =>
    if isDigit c then s.enter (.word (c :: ' ' :: cs))
    else ((s.emitWord cs).emit .blank).feedBetween c
  | .comment =>
    if c = '\n' then some (s.emit .newline) else if isControl c then none else s.enter .comment
  | .opening quote count => s.feedOpening quote count c
  | .body d quotes => s.feedBody d quotes c
  | .escape d => s.feedEscape d c
  | .code d missing value => s.feedCode d missing value c
  | .continuation d ended =>
    if isBlank c then s.enter (.continuation d ended)
    else if c = '\n' then s.enter (.continuation d true)
    else if ended then s.feedBlock d 0 c
    else none

/-- The tokens of a text that ends here, or `none` when something is left open. -/
def finish (s : Scanner) : Option (List Token) :=
  let whole (s : Scanner) : Option (List Token) := some s.tokens.reverse
  match s.mode with
  | .between | .comment => whole s
  | .word cs | .afterDate cs => whole (s.emitWord cs)
  | .opening _ 2 => whole (s.emit (.text "" false))
  | .body d quotes =>
    if 3 ≤ quotes then
      whole (s.emit { d with chars := List.replicate (quotes - 3) d.quote ++ d.chars }.token)
    else none
  | _ => none

end Scanner

/-- The tokens of a text. A byte order mark in front is passed over. -/
def Token.ofText? (s : String) : Option (List Token) :=
  let cs := match s.toList with
    | '\ufeff' :: cs => cs
    | cs => cs
  ((unifyLineEnds cs).foldlM Scanner.feed {}).bind Scanner.finish

end LayeredRights.Toml
