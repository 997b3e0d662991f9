import LayeredRights.Text.Cut
import LayeredRights.Toml.Value

/-!
# Reading TOML

`Rows.ofText?` reads a whole text, or refuses it. The reader is a fold over tokens: `Reader.feed`
looks at one token, and a `Reader` holds the table read so far, the path of the header in force, the
arrays and tables in braces that are still open, and the `Phase` within the present statement.

A statement takes up a line. Within an array there may be line ends anywhere between the elements;
within braces there may be none except in arrays. An array may have a comma after its last element,
a table in braces may not.
-/

namespace LayeredRights.Toml

/-! ### Keys -/

/-- No key has so many parts, and arrays and tables in braces are not nested so deep. -/
def depthBound : Nat := 80

/-- A key that is being read: its parts, newest first, and whether a point was last. -/
structure KeyDraft where
  parts : List String := []
  pointed : Bool := true
  deriving DecidableEq, Repr

namespace KeyDraft

/-- A point between parts. -/
def addPoint (k : KeyDraft) : Option KeyDraft :=
  if k.pointed then none else some { k with pointed := true }

/-- A part, which has to be the first or to follow a point. -/
def addPart (k : KeyDraft) (s : String) : Option KeyDraft :=
  if k.pointed then some ⟨s :: k.parts, false⟩ else none

/-- A run between the points of a word. An empty one is where the word begins or ends with
a point. -/
def addRun (k : KeyDraft) (cs : List Char) : Option KeyDraft :=
  if cs.isEmpty then some k
  else if cs.all isBareChar then k.addPart (String.ofList cs)
  else none

/-- A word of bare parts and points. -/
def addWord (k : KeyDraft) (s : String) : Option KeyDraft :=
  match Text.cut (· = '.') s.toList with
  | [] => some k
  | r :: rs => do
    let k ← k.addRun r
    rs.foldlM (fun k r ↦ k.addPoint.bind fun k ↦ k.addRun r) k

/-- A token of a key. -/
def feed (k : KeyDraft) : Token → Option KeyDraft
  | .blank => some k
  | .word s => k.addWord s
  | .text s false => k.addPart s
  | _ => none

/-- The path to the table that a key belongs to, and its last part. -/
def finish (k : KeyDraft) : Option (List String × String) :=
  match k.parts with
  | [] => none
  | last :: earlier =>
    if k.pointed || depthBound ≤ k.parts.length then none else some (earlier.reverse, last)

end KeyDraft

/-! ### The reader -/

/-- What a value belongs to. -/
inductive Frame
  /-- The key of a line. -/
  | line (path : List String) (key : String)
  /-- An array, its elements newest first. -/
  | array (elements : List Value)
  /-- A key of a table in braces, with the rows before it. -/
  | braces (rows : Rows) (path : List String) (key : String)
  deriving Repr

/-- Where in a statement a reader is. -/
inductive Phase
  /-- At the start of a line. -/
  | start
  /-- After the first bracket of a header. -/
  | bracket
  /-- In the key of a header, in double brackets or not. -/
  | header (double : Bool) (k : KeyDraft)
  /-- After the first of the brackets that end a header. -/
  | closing (k : KeyDraft)
  /-- After all of a statement. -/
  | lineEnd
  /-- In the key of a line. -/
  | key (k : KeyDraft)
  /-- In the key of a table in braces, which may be closed instead if nothing stands in it yet. -/
  | inner (rows : Rows) (k : KeyDraft) (fresh : Bool)
  /-- Before a value. -/
  | value
  /-- After a value. -/
  | after (v : Value)
  deriving Repr

/-- What has been read of a text. -/
structure Reader where
  root : Rows := []
  /-- The path of the header in force. -/
  header : List String := []
  /-- Innermost first. -/
  stack : List Frame := []
  phase : Phase := .start
  deriving Repr

namespace Reader

/-- Goes on in another phase. -/
def enter (r : Reader) (p : Phase) : Option Reader := some { r with phase := p }

/-- Puts a header in force: that of a table, or that of one more table of a list. -/
def openHeader (r : Reader) (double : Bool) (k : KeyDraft) : Option Reader := do
  let (path, key) ← k.finish
  let add (_ : TableKind) (rows : Rows) : Option Rows :=
    if double then Rows.extend key rows else Rows.declare key rows
  let root ← Rows.alter .implied add .header path r.root
  return { r with root := root, header := path ++ [key], phase := .lineEnd }

/-- Gives a key below the header in force its value. -/
def settle (r : Reader) (path : List String) (key : String) (v : Value) : Option Reader := do
  let add (kind : TableKind) (rows : Rows) : Option Rows := Rows.define kind path key v rows
  let root ← Rows.alter .implied add .header r.header r.root
  return { r with root := root, stack := [], phase := .start }

/-- How many arrays and tables in braces are open. -/
def depth (r : Reader) : Nat :=
  r.stack.countP fun
    | .line _ _ => false
    | _ => true

/-- Whether the value that is read next belongs to an array. -/
def isInArray (r : Reader) : Bool :=
  match r.stack with
  | .array _ :: _ => true
  | _ => false

/-- Opens an array or a table in braces. -/
def descend (r : Reader) (stack : List Frame) (p : Phase) : Option Reader :=
  if depthBound ≤ r.depth + 1 then none else some { r with stack := stack, phase := p }

/-- Closes the innermost array. -/
def closeArray (r : Reader) (last : List Value) : Option Reader :=
  match r.stack with
  | .array vs :: fs => some { r with stack := fs, phase := .after (.array (last ++ vs).reverse) }
  | _ => none

/-! ### One token in each phase -/

/-- A token at the start of a line. -/
def feedStart (r : Reader) : Token → Option Reader
  | .blank | .newline => r.enter .start
  | .openBracket => r.enter .bracket
  | t => (KeyDraft.feed {} t).bind fun k ↦ r.enter (.key k)

/-- A token in the key of a header. -/
def feedHeader (r : Reader) (double : Bool) (k : KeyDraft) (t : Token) : Option Reader :=
  if t = .closeBracket then if double then r.enter (.closing k) else r.openHeader false k
  else (k.feed t).bind fun k ↦ r.enter (.header double k)

/-- A token in the key of a line. -/
def feedKey (r : Reader) (k : KeyDraft) (t : Token) : Option Reader :=
  if t = .equals then do
    let (path, key) ← k.finish
    return { r with stack := [.line path key], phase := .value }
  else (k.feed t).bind fun k ↦ r.enter (.key k)

/-- A token in the key of a table in braces. -/
def feedInner (r : Reader) (rows : Rows) (k : KeyDraft) (fresh : Bool) (t : Token) :
    Option Reader :=
  if t = .blank then r.enter (.inner rows k fresh)
  else if t = .closeBrace then if fresh then r.enter (.after (.table .braces [])) else none
  else if t = .equals then do
    let (path, key) ← k.finish
    return { r with stack := .braces rows path key :: r.stack, phase := .value }
  else (k.feed t).bind fun k ↦ r.enter (.inner rows k false)

/-- A token before a value. -/
def feedValue (r : Reader) : Token → Option Reader
  | .blank => r.enter .value
  | .newline => if r.isInArray then r.enter .value else none
  | .word s => (Scalar.ofWord? s).bind fun x ↦ r.enter (.after (.scalar x))
  | .text s _ => r.enter (.after (.scalar (.text s)))
  | .openBracket => r.descend (.array [] :: r.stack) .value
  | .openBrace => r.descend r.stack (.inner [] {} true)
  | .closeBracket => r.closeArray []
  | _ => none

/-- A token after a value. -/
def feedAfter (r : Reader) (v : Value) (t : Token) : Option Reader :=
  if t = .blank then r.enter (.after v)
  else
    match r.stack with
    | [.line path key] => if t = .newline then r.settle path key v else none
    | .array vs :: fs =>
      match t with
      | .newline => r.enter (.after v)
      | .comma => some { r with stack := .array (v :: vs) :: fs, phase := .value }
      | .closeBracket => r.closeArray [v]
      | _ => none
    | .braces rows path key :: fs => do
      let rows ← Rows.define .header path key v rows
      match t with
      | .comma => some { r with stack := fs, phase := .inner rows {} false }
      | .closeBrace => some { r with stack := fs, phase := .after (.table .braces rows) }
      | _ => none
    | _ => none

/-- The reader after one more token, or `none` when no TOML text goes on that way. -/
def feed (r : Reader) (t : Token) : Option Reader :=
  match r.phase with
  | .start => r.feedStart t
  | .bracket => if t = .openBracket then r.enter (.header true {}) else r.feedHeader false {} t
  | .header double k => r.feedHeader double k t
  | .closing k => if t = .closeBracket then r.openHeader true k else none
  | .lineEnd =>
    match t with
    | .blank => r.enter .lineEnd
    | .newline => r.enter .start
    | _ => none
  | .key k => r.feedKey k t
  | .inner rows k fresh => r.feedInner rows k fresh t
  | .value => r.feedValue t
  | .after v => r.feedAfter v t

/-- The table of a text that ends here. -/
def finish (r : Reader) : Option Rows :=
  match r.phase, r.stack with
  | .start, _ | .lineEnd, _ => some r.root
  | .after v, [.line path key] => (r.settle path key v).map (·.root)
  | _, _ => none

end Reader

/-- The table that tokens spell. -/
def Rows.ofTokens? (ts : List Token) : Option Rows := (ts.foldlM Reader.feed {}).bind Reader.finish

/-- The table that a text spells. -/
def Rows.ofText? (s : String) : Option Rows := (Token.ofText? s).bind Rows.ofTokens?

end LayeredRights.Toml
