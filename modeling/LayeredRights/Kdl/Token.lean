import LayeredRights.Kdl.Word
import LayeredRights.Kdl.TextBlock

/-!
# Tokens

The lexical level of the document language. `Token.ofText?` cuts a text into tokens, or refuses it.
It is a fold of `Scanner.feed` over the characters: the scanner looks at each character once, and
all it remembers is its `Mode`, so what it makes of a concatenation is what it makes of the second
part from the mode in which the first part leaves it.

Strings and numbers need something after them that cannot belong to them; this is the `closed` flag
of `Mode.between`. Keywords do not: one is over with its last letter, since no name of a keyword
begins another.
-/

namespace LayeredRights.Kdl

open Text (hexValue?)

/-- A lexical element of a document. White space of any length and kind that stays within a logical
line is a run of `space`s. -/
inductive Token
  | space
  | newline
  /-- A comment to the end of its line, with the newline that ends it. -/
  | comment
  | semicolon
  /-- A slash and a dash, which drop what follows them. -/
  | slashdash
  | openBrace
  | closeBrace
  | openParen
  | closeParen
  | equals
  | text (s : String)
  | number (literal : String)
  | keyword (k : Keyword)
  deriving DecidableEq, Repr

/-! ### Modes of the scanner -/

/-- How far an escape in a string has been read. -/
inductive Escape
  | none
  /-- After the backslash. -/
  | opened
  /-- After `\u`, before the brace. -/
  | codeOpened
  /-- Within the braces of `\u`, after so many digits of this value. -/
  | code (digits value : Nat)
  /-- Within escaped white space. -/
  | gap
  deriving DecidableEq, Repr

/-- Where in the text a scanner is. Bodies of strings are held newest first. -/
inductive Mode
  /-- Between tokens. When `closed`, the last token was a string or a number. -/
  | between (closed : Bool)
  /-- After a slash between tokens. -/
  | slash (closed : Bool)
  /-- In a comment to the end of the line, which continues the logical line or ends it. -/
  | lineComment (continued : Bool)
  /-- In a comment of a nesting depth, after a character that may open or close a level. -/
  | blockComment (continued : Bool) (depth : Nat) (last : Option Char)
  /-- After a backslash that continues the line. -/
  | continuation
  /-- After a slash, after a backslash that continues the line. -/
  | continuationSlash
  | word (cs : List Char)
  /-- After an opening quote: what follows are pieces, an escape begun, and quotes not yet known to
  close the string. -/
  | quoted (lines : Bool) (escape : Escape) (quotes : Nat) (body : List Piece)
  /-- After two quotes, which are an empty string unless a third follows. -/
  | emptyQuoted
  /-- After three quotes. -/
  | tripleQuoted
  /-- After hashes and nothing else. -/
  | hashes (count : Nat)
  /-- After one hash and these letters. -/
  | named (cs : List Char)
  /-- In a string without escapes, with quotes and then hashes that may be closing it. -/
  | raw (count : Nat) (lines : Bool) (quotes closing : Nat) (body : List Char)
  deriving DecidableEq, Repr

/-- A scanner: its mode, and the tokens it has found, newest first. -/
structure Scanner where
  mode : Mode
  tokens : List Token
  deriving DecidableEq, Repr

namespace Scanner

/-- Goes on in another mode. -/
def enter (s : Scanner) (m : Mode) : Option Scanner := some { s with mode := m }

/-- Adds a token that may be followed by anything. -/
def emit (s : Scanner) (t : Token) : Option Scanner := some ⟨.between false, t :: s.tokens⟩

/-- Adds a string or a number, which something has to end. -/
def close (s : Scanner) (t : Token) : Option Scanner := some ⟨.between true, t :: s.tokens⟩

/-- The token of a bare word. -/
def closeWord (s : Scanner) (cs : List Char) : Option Scanner :=
  (Word.ofChars? cs.reverse).bind fun
    | .number => s.close (.number (String.ofList cs.reverse))
    | .string => s.close (.text (String.ofList cs.reverse))

/-- The keyword of a run of letters, newest first. -/
def keywordOf? (cs : List Char) : Option Keyword := Keyword.ofName? (String.ofList cs.reverse)

/-- The token of a string in quotes. -/
def closeQuoted (s : Scanner) (lines : Bool) (body : List Piece) : Option Scanner :=
  if lines then
    (Piece.blockText? body.reverse).bind fun cs ↦ s.close (.text (String.ofList cs))
  else s.close (.text (String.ofList (Piece.text body.reverse)))

/-- The token of a string in hashes. One quote alone cannot be written this way. -/
def closeRaw (s : Scanner) (lines : Bool) (body : List Char) : Option Scanner :=
  let text? : Option (List Char) :=
    if lines then Piece.blockText? (body.reverse.map .literal) else some body.reverse
  text?.bind fun cs ↦ if cs = ['"'] then none else s.close (.text (String.ofList cs))

/-! ### One character in each mode -/

/-- A character between tokens. -/
def feedBetween (s : Scanner) (closed : Bool) (c : Char) : Option Scanner :=
  if isSpace c then s.emit .space
  else if isNewline c then s.emit .newline
  else if c = '/' then s.enter (.slash closed)
  else if c = '\\' then s.enter .continuation
  else if c = ';' then s.emit .semicolon
  else if c = '{' then s.emit .openBrace
  else if c = '}' then s.emit .closeBrace
  else if c = ')' then s.emit .closeParen
  else if c = '=' then s.emit .equals
  else if closed then none
  else if c = '(' then s.emit .openParen
  else if c = '"' then s.enter (.quoted false .none 0 [])
  else if c = '#' then s.enter (.hashes 1)
  else if isWordChar c then s.enter (.word [c])
  else none

/-- A character after a slash between tokens. -/
def feedSlash (s : Scanner) (closed : Bool) (c : Char) : Option Scanner :=
  if c = '/' then s.enter (.lineComment false)
  else if c = '*' then s.enter (.blockComment false 1 none)
  else if c = '-' && !closed then s.emit .slashdash
  else none

/-- A character in a comment that may nest. -/
def feedBlockComment (s : Scanner) (continued : Bool) (depth : Nat) (last : Option Char)
    (c : Char) : Option Scanner :=
  if last = some '*' && c = '/' then
    if depth ≤ 1 then if continued then s.enter .continuation else s.emit .space
    else s.enter (.blockComment continued (depth - 1) none)
  else if last = some '/' && c = '*' then s.enter (.blockComment continued (depth + 1) none)
  else s.enter (.blockComment continued depth (some c))

/-- A character after a backslash that continues the line. -/
def feedContinuation (s : Scanner) (c : Char) : Option Scanner :=
  if isSpace c then s.enter .continuation
  else if isNewline c then s.emit .space
  else if c = '/' then s.enter .continuationSlash
  else none

/-- A character of a string in quotes outside any escape. -/
def feedQuotedPlain (s : Scanner) (lines : Bool) (quotes : Nat) (body : List Piece) (c : Char) :
    Option Scanner :=
  let body' := List.replicate quotes (.literal '"') ++ body
  if c = '"' then
    if lines then
      if quotes = 2 then s.closeQuoted true body else s.enter (.quoted true .none (quotes + 1) body)
    else if body.isEmpty then s.enter .emptyQuoted
    else s.closeQuoted false body
  else if c = '\\' then s.enter (.quoted lines .opened 0 body')
  else if isForbidden c || (isNewline c && !lines) then none
  else s.enter (.quoted lines .none 0 (.literal c :: body'))

/-- The character that a one-letter escape stands for. -/
def escapedChar? : Char → Option Char
  | '\\' => some '\\'
  | '"' => some '"'
  | 'b' => some '\x08'
  | 'f' => some '\x0c'
  | 'n' => some '\n'
  | 'r' => some '\r'
  | 't' => some '\t'
  | 's' => some ' '
  | _ => none

/-- A character of a string in quotes. -/
def feedQuoted (s : Scanner) (lines : Bool) (escape : Escape) (quotes : Nat) (body : List Piece)
    (c : Char) : Option Scanner :=
  match escape with
  | .none => s.feedQuotedPlain lines quotes body c
  | .gap =>
    if isSpace c || isNewline c then s.enter (.quoted lines .gap 0 body)
    else s.feedQuotedPlain lines 0 body c
  | .opened =>
    if isSpace c || isNewline c then s.enter (.quoted lines .gap 0 (.gap :: body))
    else if c = 'u' then s.enter (.quoted lines .codeOpened 0 body)
    else (escapedChar? c).bind fun d ↦ s.enter (.quoted lines .none 0 (.escaped d :: body))
  | .codeOpened => if c = '{' then s.enter (.quoted lines (.code 0 0) 0 body) else none
  | .code digits value =>
    if c = '}' then
      if h : 0 < digits ∧ value.isValidChar then
        s.enter (.quoted lines .none 0 (.escaped (Char.ofNatAux value h.2) :: body))
      else none
    else if digits < 6 then
      (hexValue? c).bind fun d ↦
        s.enter (.quoted lines (.code (digits + 1) (value * 16 + d)) 0 body)
    else none

/-- A character of a string in hashes. -/
def feedRaw (s : Scanner) (count : Nat) (lines : Bool) (quotes closing : Nat) (body : List Char)
    (c : Char) : Option Scanner :=
  let needed := if lines then 3 else 1
  let body' := List.replicate closing '#' ++ List.replicate quotes '"' ++ body
  if c = '"' then
    if closing = 0 then s.enter (.raw count lines (quotes + 1) 0 body)
    else s.enter (.raw count lines 1 0 body')
  else if c = '#' && needed ≤ quotes then
    if closing + 1 = count then
      s.closeRaw lines (List.replicate (quotes - needed) '"' ++ body)
    else s.enter (.raw count lines quotes (closing + 1) body)
  else if isForbidden c then none
  else if isNewline c && !lines then
    if body.isEmpty && quotes = 2 && closing = 0 then s.enter (.raw count true 0 0 []) else none
  else s.enter (.raw count lines 0 0 (c :: body'))

/-- The scanner after one more character, or `none` when no document goes on that way. -/
def feed (s : Scanner) (c : Char) : Option Scanner :=
  match s.mode with
  | .between closed => s.feedBetween closed c
  | .slash closed => s.feedSlash closed c
  | .lineComment continued =>
    if isNewline c then s.emit (if continued then .space else .comment)
    else s.enter (.lineComment continued)
  | .blockComment continued depth last => s.feedBlockComment continued depth last c
  | .continuation => s.feedContinuation c
  | .continuationSlash =>
    if c = '/' then s.enter (.lineComment true)
    else if c = '*' then s.enter (.blockComment true 1 none)
    else none
  | .word cs =>
    if isWordChar c then s.enter (.word (c :: cs))
    else (s.closeWord cs).bind fun s' ↦ s'.feedBetween true c
  | .quoted lines escape quotes body => s.feedQuoted lines escape quotes body c
  | .emptyQuoted =>
    if c = '"' then s.enter .tripleQuoted
    else (s.close (.text "")).bind fun s' ↦ s'.feedBetween true c
  | .tripleQuoted => if isNewline c then s.enter (.quoted true .none 0 []) else none
  | .hashes count =>
    if c = '#' then s.enter (.hashes (count + 1))
    else if c = '"' then s.enter (.raw count false 0 0 [])
    else if count = 1 && isWordChar c then s.enter (.named [c])
    else none
  | .named cs =>
    match keywordOf? cs with
    | some k => (s.emit (.keyword k)).bind fun s' ↦ s'.feedBetween false c
    | none => if isWordChar c then s.enter (.named (c :: cs)) else none
  | .raw count lines quotes closing body => s.feedRaw count lines quotes closing body c

/-- The tokens of a text that ends here, or `none` when something is left open. -/
def finish (s : Scanner) : Option (List Token) :=
  let ended? : Option Scanner :=
    match s.mode with
    | .between _ => some s
    | .lineComment continued => s.emit (if continued then .space else .comment)
    | .continuation => s.emit .space
    | .word cs => s.closeWord cs
    | .emptyQuoted => s.close (.text "")
    | .named cs => (keywordOf? cs).bind fun k ↦ s.emit (.keyword k)
    | _ => none
  ended?.map fun s' ↦ s'.tokens.reverse

end Scanner

/-! ### Texts -/

/-- A byte order mark may open a document and is no part of it. -/
def skipByteOrderMark : List Char → List Char
  | c :: cs => if c = '\uFEFF' then cs else c :: cs
  | [] => []

/-- The tokens of a sequence of characters. -/
def Token.ofChars? (cs : List Char) : Option (List Token) :=
  ((unifyNewlines (skipByteOrderMark cs)).foldlM Scanner.feed ⟨.between false, []⟩).bind
    Scanner.finish

/-- The tokens of a text. -/
def Token.ofText? (s : String) : Option (List Token) := Token.ofChars? s.toList

end LayeredRights.Kdl
