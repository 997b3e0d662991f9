import LayeredRights.Text.Digit

/-!
# JSON tokens

`Token.ofText?` cuts a text into tokens by a fold of `Scanner.feed`. A run of letters, digits, signs
and points is one word, which has to be a literal name or a number; two of these never meet without
something between them in a JSON text.
-/

namespace LayeredRights.Json

open Text (isDigit isLetter hexValue?)

/-- The four characters that separate tokens. -/
def isSpace (c : Char) : Bool := c = ' ' || c = '\n' || c = '\t' || c = '\r'

/-- The characters of literal names and of numbers. -/
def isWordChar (c : Char) : Bool :=
  isDigit c || isLetter c || c = '+' || c = '-' || c = '.'

/-- A token of a JSON text. -/
inductive Token
  | openBrace
  | closeBrace
  | openBracket
  | closeBracket
  | colon
  | comma
  | null
  | bool (b : Bool)
  | number (literal : String)
  | text (s : Option String)
  deriving DecidableEq, Repr

/-! ### Numbers -/

/-- Takes at least one digit off the front. -/
def afterDigits? (cs : List Char) : Option (List Char) :=
  if (cs.takeWhile isDigit).isEmpty then none else some (cs.dropWhile isDigit)

/-- What may follow the whole part of a number. -/
def isNumberTail (cs : List Char) : Bool :=
  let exponent : List Char → Bool
    | [] => true
    | e :: cs =>
      (e = 'e' || e = 'E') &&
        match cs with
        | '+' :: cs | '-' :: cs => afterDigits? cs = some []
        | cs => afterDigits? cs = some []
  match cs with
  | '.' :: cs => (afterDigits? cs).any exponent
  | cs => exponent cs

/-- Whether a word is a number. The whole part has no leading zero. -/
def isNumber (cs : List Char) : Bool :=
  let unsigned : List Char → Bool
    | '0' :: cs => isNumberTail cs
    | cs => (afterDigits? cs).any isNumberTail
  match cs with
  | '-' :: cs => unsigned cs
  | cs => unsigned cs

/-- The token of a word. -/
def Token.ofWord? (cs : List Char) : Option Token :=
  if cs = "null".toList then some .null
  else if cs = "true".toList then some (.bool true)
  else if cs = "false".toList then some (.bool false)
  else if isNumber cs then some (.number (String.ofList cs))
  else none

/-! ### Strings -/

/-- The character that a one-letter escape stands for. -/
def escapedChar? : Char → Option Char
  | '"' => some '"'
  | '\\' => some '\\'
  | '/' => some '/'
  | 'b' => some '\x08'
  | 'f' => some '\x0c'
  | 'n' => some '\n'
  | 'r' => some '\r'
  | 't' => some '\t'
  | _ => none

/-- A unit of a string: a character, or a code of sixteen bits that an escape spells. -/
inductive Piece
  | char (c : Char)
  | code (n : Nat)
  deriving DecidableEq, Repr

/-- The first half of a surrogate pair. -/
def isHighSurrogate (n : Nat) : Bool := 0xD800 ≤ n && n ≤ 0xDBFF

/-- The second half of a surrogate pair. -/
def isLowSurrogate (n : Nat) : Bool := 0xDC00 ≤ n && n ≤ 0xDFFF

/-- The characters that pieces spell, unless half of a surrogate pair stands alone. -/
def decode? : List Piece → Option (List Char)
  | [] => some []
  | .char c :: ps => (decode? ps).map (c :: ·)
  | .code n :: .code m :: ps =>
    if isHighSurrogate n && isLowSurrogate m then
      (decode? ps).map (Char.ofNat (0x10000 + (n - 0xD800) * 0x400 + (m - 0xDC00)) :: ·)
    else if isHighSurrogate n || isLowSurrogate n then none
    else (decode? (.code m :: ps)).map (Char.ofNat n :: ·)
  | .code n :: ps =>
    if isHighSurrogate n || isLowSurrogate n then none
    else (decode? ps).map (Char.ofNat n :: ·)

/-! ### The scanner -/

/-- Where in the text a scanner is. Lists are newest first. -/
inductive Mode
  | between
  | word (cs : List Char)
  | text (body : List Piece)
  | escape (body : List Piece)
  | code (digits value : Nat) (body : List Piece)
  deriving DecidableEq, Repr

/-- A scanner: its mode, and the tokens it has found, newest first. -/
structure Scanner where
  mode : Mode := .between
  tokens : List Token := []
  deriving DecidableEq, Repr

namespace Scanner

/-- Goes on in another mode. -/
def enter (s : Scanner) (m : Mode) : Option Scanner := some { s with mode := m }

/-- Adds a token. -/
def emit (s : Scanner) (t : Token) : Option Scanner := some ⟨.between, t :: s.tokens⟩

/-- Adds the token of a word. -/
def emitWord (s : Scanner) (cs : List Char) : Option Scanner :=
  (Token.ofWord? cs.reverse).bind s.emit

/-- A character between tokens. -/
def feedBetween (s : Scanner) (c : Char) : Option Scanner :=
  if isSpace c then s.enter .between
  else if c = '{' then s.emit .openBrace
  else if c = '}' then s.emit .closeBrace
  else if c = '[' then s.emit .openBracket
  else if c = ']' then s.emit .closeBracket
  else if c = ':' then s.emit .colon
  else if c = ',' then s.emit .comma
  else if c = '"' then s.enter (.text [])
  else if isWordChar c then s.enter (.word [c])
  else none

/-- The scanner after one more character, or `none` when no JSON text goes on that way. -/
def feed (s : Scanner) (c : Char) : Option Scanner :=
  match s.mode with
  | .between => s.feedBetween c
  | .word cs =>
    if isWordChar c then s.enter (.word (c :: cs))
    else (s.emitWord cs).bind fun s' ↦ s'.feedBetween c
  | .text body =>
    if c = '"' then s.emit (.text ((decode? body.reverse).map String.ofList))
    else if c = '\\' then s.enter (.escape body)
    else if c.toNat < 0x20 then none
    else s.enter (.text (.char c :: body))
  | .escape body =>
    if c = 'u' then s.enter (.code 0 0 body)
    else (escapedChar? c).bind fun d ↦ s.enter (.text (.char d :: body))
  | .code digits value body =>
    (hexValue? c).bind fun d ↦
      if digits = 3 then s.enter (.text (.code (value * 16 + d) :: body))
      else s.enter (.code (digits + 1) (value * 16 + d) body)

/-- The tokens of a text that ends here, or `none` when something is left open. -/
def finish (s : Scanner) : Option (List Token) :=
  match s.mode with
  | .between => some s.tokens.reverse
  | .word cs => (s.emitWord cs).map fun s' ↦ s'.tokens.reverse
  | _ => none

end Scanner

/-- The tokens of a text. -/
def Token.ofText? (s : String) : Option (List Token) :=
  (s.toList.foldlM Scanner.feed {}).bind Scanner.finish

end LayeredRights.Json
