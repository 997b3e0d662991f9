import LayeredRights.Kdl.Node

/-!
# Writing nodes

The layout is fixed: one node a line, children indented by four more spaces, the brace of a block on
the line of its node. Strings are bare words where they can be (`isPlain`) and quoted otherwise.

Quoting escapes quotes, backslashes and five control characters and leaves every other character as
it is, also the few that a quoted string may not hold; a text with one of those does not read back.
-/

namespace LayeredRights.Kdl

/-- One character inside quotes. -/
def writeChar : Char → List Char
  | '\\' => ['\\', '\\']
  | '"' => ['\\', '"']
  | '\n' => ['\\', 'n']
  | '\r' => ['\\', 'r']
  | '\t' => ['\\', 't']
  | '\x08' => ['\\', 'b']
  | '\x0c' => ['\\', 'f']
  | c => [c]

/-- A string, bare or in quotes. -/
def writeString (s : String) : List Char :=
  let cs := s.toList
  if isPlain cs then cs else '"' :: cs.flatMap writeChar ++ ['"']

/-- A value. -/
def Value.write : Value → List Char
  | text s => writeString s
  | number l => l.toList
  | keyword k => '#' :: k.name.toList

/-- An entry. -/
def Entry.write : Entry → List Char
  | argument v => v.write
  | property k v => writeString k ++ '=' :: v.write

/-- The spaces in front of a node at a depth of nesting. -/
def indent (depth : Nat) : List Char := List.replicate (4 * depth) ' '

mutual

/-- The lines of a node. -/
def Node.write (depth : Nat) : Node → List Char
  | .mk name entries block =>
    indent depth ++ writeString name ++ entries.flatMap (fun e ↦ ' ' :: e.write) ++
      writeBlock depth block ++ ['\n']

/-- The block of a node, up to its closing brace. -/
def writeBlock (depth : Nat) : Option (List Node) → List Char
  | none => []
  | some ns => ' ' :: '{' :: '\n' :: (writeNodes (depth + 1) ns ++ indent depth ++ ['}'])

/-- The lines of a list of nodes. -/
def writeNodes (depth : Nat) : List Node → List Char
  | [] => []
  | n :: ns => n.write depth ++ writeNodes depth ns

end

/-- The text of a document. -/
def writeDocument (ns : List Node) : String := String.ofList (writeNodes 0 ns)

end LayeredRights.Kdl
