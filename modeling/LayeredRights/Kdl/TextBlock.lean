import LayeredRights.Kdl.Character
import LayeredRights.Text.Cut

/-!
# Multi-line strings

The body of a string is a list of `Piece`s: characters as they stand, characters that an escape
wrote, and *gaps*, which are escaped runs of white space and stand for nothing.

A multi-line string is laid out in lines. Its last line holds white space only and fixes the
indentation; every other line has to begin with exactly that indentation, which is taken away. Lines
of white space alone are empty whatever they hold.
-/

namespace LayeredRights.Kdl

/-- A piece of the body of a string. -/
inductive Piece
  | literal (c : Char)
  | escaped (c : Char)
  | gap
  deriving DecidableEq, Repr

namespace Piece

/-- The character that a piece stands for. -/
def char? : Piece → Option Char
  | literal c => some c
  | escaped c => some c
  | gap => none

/-- Layout is white space as it stands, or a gap. -/
def isLayout : Piece → Bool
  | literal c => isSpace c
  | escaped _ => false
  | gap => true

/-- Cuts a body at its line feeds. There is always at least one line. -/
def lines (ps : List Piece) : List (List Piece) := Text.cut (· = literal '\n') ps

/-- The text that pieces stand for. -/
def text (ps : List Piece) : List Char := ps.filterMap char?

/-- Takes the indentation off a line. -/
def dedent? : List Char → List Piece → Option (List Piece)
  | [], ps => some ps
  | c :: cs, literal d :: ps => if c = d then dedent? cs ps else none
  | _ :: _, _ => none

/-- The text of one line of a multi-line string. -/
def lineText? (indent : List Char) (line : List Piece) : Option (List Char) :=
  if line.all isLayout then some [] else (dedent? indent line).map text

/-- The text of a multi-line string, given what stands between the newline after its opening quotes
and its closing quotes. -/
def blockText? (body : List Piece) : Option (List Char) :=
  match (lines body).reverse with
  | [] => none
  | last :: earlier =>
    if last.all isLayout then
      (earlier.reverse.mapM (lineText? (text last))).map fun ls ↦ ['\n'].intercalate ls
    else none

end Piece

end LayeredRights.Kdl
