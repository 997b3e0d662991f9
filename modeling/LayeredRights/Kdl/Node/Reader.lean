import LayeredRights.Kdl.Node
import LayeredRights.Kdl.Token

/-!
# Reading nodes

`Node.ofTokens?` reads the nodes of a document off its tokens, or refuses them. Like the scanner it
is a fold: `Reader.feed` looks at one token, and what is still open is held in a `Reader`, namely
the `Level` of nodes read so far in the present block, the stack of blocks around it, and the
`Phase` within the present node.

A slash and a dash in front of a node, an entry or a block drop it; what is dropped is read like
everything else. A node is ended by a newline, a semicolon, a comment or the end of its block. A
node that is followed by a dropped node instead seals its level: nothing but dropped nodes may come
after it. A dropped node needs no end and allows no semicolon.
-/

namespace LayeredRights.Kdl

/-- The nodes read so far in a block, newest first. -/
structure Level where
  nodes : List Node := []
  /-- Whether only dropped nodes may follow. -/
  sealed : Bool := false
  deriving Repr

/-- The blocks a node may have had so far: none, a block of its own last, or a dropped
block last. -/
inductive Tail
  | entries
  | block
  | droppedBlock
  deriving DecidableEq, Repr

/-- A node that is being read. -/
structure Draft where
  dropped : Bool
  name : String
  /-- Newest first. -/
  entries : List Entry := []
  block : Option (List Node) := none
  tail : Tail := .entries
  deriving Repr

/-- Where a value goes: to an argument, or to the property of a key. -/
structure Slot where
  dropped : Bool
  key : Option String := none
  deriving DecidableEq, Repr

/-- What a type in parentheses stands in front of. -/
inductive Annotated
  | node (dropped : Bool)
  | value (d : Draft) (slot : Slot)
  deriving Repr

/-- Where in a block a reader is. -/
inductive Phase
  /-- Between nodes. -/
  | ready
  /-- After the mark that drops a node. -/
  | dropping
  /-- In a node, after its name, an entry or a block, and after white space if `spaced`. -/
  | body (d : Draft) (spaced : Bool)
  /-- After the mark that drops an entry or a block. -/
  | droppingEntry (d : Draft)
  /-- After the mark that drops a block, or the next node. -/
  | droppingBlock (d : Draft) (spaced : Bool)
  /-- After a string that is an argument unless an equals sign follows. -/
  | key (d : Draft) (dropped : Bool) (s : String) (spaced : Bool)
  /-- Before the value of a slot. -/
  | value (d : Draft) (slot : Slot) (annotated : Bool)
  /-- In parentheses, before or after the name of the type. -/
  | typeTag (of : Annotated) (named : Bool)
  /-- After the type of a node. -/
  | name (dropped : Bool)
  deriving Repr

/-- An open block: the level around it, the node that it belongs to, and whether it is dropped. -/
structure Frame where
  outer : Level
  owner : Draft
  dropped : Bool
  deriving Repr

/-- What has been read of a document. -/
structure Reader where
  level : Level := {}
  stack : List Frame := []
  phase : Phase := .ready
  deriving Repr

/-- The draft as a node. -/
def Draft.node (d : Draft) : Node := .mk d.name d.entries.reverse d.block

/-- The draft with a value put into a slot. -/
def Draft.put (d : Draft) (slot : Slot) (v : Value) : Draft :=
  if slot.dropped then d
  else
    match slot.key with
    | none => { d with entries := .argument v :: d.entries }
    | some k => { d with entries := .property k v :: d.entries }

/-- The draft after a block. -/
def Draft.closeBlock (d : Draft) (dropped : Bool) (nodes : List Node) : Draft :=
  if dropped then { d with tail := .droppedBlock }
  else { d with block := some nodes, tail := .block }

/-- The level with a finished node, which seals it unless something ended the node. -/
def Level.add (l : Level) (d : Draft) (ended : Bool) : Level :=
  if d.dropped then l else { nodes := d.node :: l.nodes, sealed := !ended }

namespace Reader

/-- Goes on in another phase. -/
def enter (r : Reader) (p : Phase) : Option Reader := some { r with phase := p }

/-- Finishes a node. -/
def settle (r : Reader) (d : Draft) (ended : Bool) : Reader :=
  { r with level := r.level.add d ended, phase := .ready }

/-- Opens a block of a node. -/
def openBlock (r : Reader) (d : Draft) (dropped : Bool) : Option Reader :=
  some { level := {}, stack := ⟨r.level, d, dropped⟩ :: r.stack, phase := .ready }

/-- Closes the innermost block. -/
def closeBlock (r : Reader) : Option Reader :=
  match r.stack with
  | [] => none
  | f :: fs =>
    let owner := f.owner.closeBlock f.dropped r.level.nodes.reverse
    some { level := f.outer, stack := fs, phase := .body owner false }

/-! ### One token in each phase -/

/-- A token between nodes. -/
def feedReady (r : Reader) : Token → Option Reader
  | .space | .newline | .comment => r.enter .ready
  | .slashdash => r.enter .dropping
  | .closeBrace => r.closeBlock
  | .text s =>
    if r.level.sealed then none else r.enter (.body { dropped := false, name := s } false)
  | .openParen =>
    if r.level.sealed then none else r.enter (.typeTag (.node false) false)
  | _ => none

/-- A token after the mark that drops a node. -/
def feedDropping (r : Reader) : Token → Option Reader
  | .space | .newline | .comment => r.enter .dropping
  | .text s => r.enter (.body { dropped := true, name := s } false)
  | .openParen => r.enter (.typeTag (.node true) false)
  | _ => none

/-- The start of an entry, in a slot without a key. -/
def feedEntry (r : Reader) (d : Draft) (dropped : Bool) : Token → Option Reader
  | .text s => r.enter (.key d dropped s false)
  | .number l => r.enter (.body (d.put ⟨dropped, none⟩ (.number l)) false)
  | .keyword k => r.enter (.body (d.put ⟨dropped, none⟩ (.keyword k)) false)
  | .openParen => r.enter (.typeTag (.value d ⟨dropped, none⟩) false)
  | _ => none

/-- A token in a node. -/
def feedBody (r : Reader) (d : Draft) (spaced : Bool) : Token → Option Reader
  | .space => r.enter (.body d true)
  | .newline | .comment => some (r.settle d true)
  | .semicolon => if d.dropped then none else some (r.settle d true)
  | .closeBrace => (r.settle d true).closeBlock
  | .openBrace => if d.block.isSome then none else r.openBlock d false
  | .slashdash =>
    if d.tail ≠ .entries then r.enter (.droppingBlock d spaced)
    else if spaced then r.enter (.droppingEntry d)
    else (r.settle d false).enter .dropping
  | t =>
    if spaced && d.tail = .entries then r.feedEntry d false t
    else if d.dropped then (r.settle d true).feedReady t
    else none

/-- A token after the mark that drops an entry or a block. -/
def feedDroppingEntry (r : Reader) (d : Draft) : Token → Option Reader
  | .space | .newline | .comment => r.enter (.droppingEntry d)
  | .openBrace => r.openBlock d true
  | t => r.feedEntry d true t

/-- A token after a block and the mark that drops another block or the next node. Two dropped blocks
need white space between them. -/
def feedDroppingBlock (r : Reader) (d : Draft) (spaced : Bool) : Token → Option Reader
  | .space | .newline | .comment => r.enter (.droppingBlock d spaced)
  | .openBrace => if d.tail = .droppedBlock && !spaced then none else r.openBlock d true
  | t => (r.settle d false).feedDropping t

/-- A token before a value. -/
def feedValue (r : Reader) (d : Draft) (slot : Slot) (annotated : Bool) : Token → Option Reader
  | .space => r.enter (.value d slot annotated)
  | .text s => r.enter (.body (d.put slot (.text s)) false)
  | .number l => r.enter (.body (d.put slot (.number l)) false)
  | .keyword k => r.enter (.body (d.put slot (.keyword k)) false)
  | .openParen => if annotated then none else r.enter (.typeTag (.value d slot) false)
  | _ => none

/-- A token in parentheses. -/
def feedTypeTag (r : Reader) (a : Annotated) (named : Bool) : Token → Option Reader
  | .space => r.enter (.typeTag a named)
  | .text _ => if named then none else r.enter (.typeTag a true)
  | .closeParen =>
    if named then
      match a with
      | .node dropped => r.enter (.name dropped)
      | .value d slot => r.enter (.value d slot true)
    else none
  | _ => none

/-- The reader after one more token, or `none` when no document goes on that way. -/
def feed (r : Reader) (t : Token) : Option Reader :=
  match r.phase with
  | .ready => r.feedReady t
  | .dropping => r.feedDropping t
  | .body d spaced => r.feedBody d spaced t
  | .droppingEntry d => r.feedDroppingEntry d t
  | .droppingBlock d spaced => r.feedDroppingBlock d spaced t
  | .key d dropped s spaced =>
    match t with
    | .space => r.enter (.key d dropped s true)
    | .equals => r.enter (.value d ⟨dropped, some s⟩ false)
    | t => r.feedBody (d.put ⟨dropped, none⟩ (.text s)) spaced t
  | .value d slot annotated => r.feedValue d slot annotated t
  | .typeTag a named => r.feedTypeTag a named t
  | .name dropped =>
    match t with
    | .space => r.enter (.name dropped)
    | .text s => r.enter (.body { dropped := dropped, name := s } false)
    | _ => none

/-- The nodes of a document that ends here, or `none` when something is left open. -/
def finish (r : Reader) : Option (List Node) :=
  let level? : Option Level :=
    match r.phase with
    | .ready => some r.level
    | .body d _ => some (r.level.add d true)
    | .key d dropped s _ => some (r.level.add (d.put ⟨dropped, none⟩ (.text s)) true)
    | _ => none
  if r.stack.isEmpty then level?.map fun l ↦ l.nodes.reverse else none

end Reader

/-- The nodes that a sequence of tokens spells. -/
def Node.ofTokens? (ts : List Token) : Option (List Node) :=
  (ts.foldlM Reader.feed {}).bind Reader.finish

/-- The nodes of a document. -/
def Node.ofText? (s : String) : Option (List Node) := (Token.ofText? s).bind Node.ofTokens?

end LayeredRights.Kdl
