import LayeredRights.Kdl.Word

/-!
# Nodes

A KDL document is a list of nodes. A node has a name, entries (arguments and properties, in the
order in which they stand) and possibly a block of child nodes. Types in parentheses say nothing to
this library and are no part of a node.
-/

namespace LayeredRights.Kdl

/-- What an entry holds. -/
inductive Value
  | text (s : String)
  | number (literal : String)
  | keyword (k : Keyword)
  deriving DecidableEq, Repr

/-- The string that a value is, if it is one. -/
def Value.text? : Value → Option String
  | text s => some s
  | _ => none

/-- An entry of a node. -/
inductive Entry
  | argument (v : Value)
  | property (key : String) (v : Value)
  deriving DecidableEq, Repr

/-- The value of an argument. -/
def Entry.argument? : Entry → Option Value
  | argument v => some v
  | property _ _ => none

/-- A node of a document. A node without a block differs from one whose block is empty. -/
inductive Node
  | mk (name : String) (entries : List Entry) (block : Option (List Node))
  deriving Repr, Inhabited

namespace Node

/-- The name of a node. -/
def name : Node → String
  | mk n _ _ => n

/-- The entries of a node, in order. -/
def entries : Node → List Entry
  | mk _ es _ => es

/-- The block of a node. -/
def block : Node → Option (List Node)
  | mk _ _ b => b

/-- The nodes in the block; none when there is no block. -/
def children (n : Node) : List Node := n.block.getD []

/-- The first argument, properties left aside. -/
def firstArgument? (n : Node) : Option Value := n.entries.findSome? Entry.argument?

/-- The first argument, when it is a string. -/
def firstString? (n : Node) : Option String := n.firstArgument?.bind Value.text?

end Node

end LayeredRights.Kdl
