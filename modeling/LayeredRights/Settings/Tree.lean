import LayeredRights.Settings.Key
import LayeredRights.Toml.Reader

/-!
# Trees of settings

Settings from all sources meet in one tree, whatever kinds of value a source has: a leaf is a text.
`Setting.put` lays a setting over what stands at a key. Texts and lists replace what was there;
tables are merged row by row, so that a source says no more than it has to.
-/

namespace LayeredRights

/-- A setting. -/
inductive Setting
  /-- A place in a list that nothing was put into. -/
  | absent
  | text (s : String)
  | list (elements : List Setting)
  | table (rows : List (String × Setting))
  deriving Repr, Inhabited

namespace Setting

/-! ### Rows -/

/-- The rows of a table. What is no table has none. -/
def rows : Setting → List (String × Setting)
  | table rs => rs
  | _ => []

/-- The setting of a name. -/
def find? (s : Setting) (name : String) : Option Setting :=
  (s.rows.find? (·.1 = name)).map (·.2)

/-- The table with the setting of a name replaced, or added at the end. -/
def withRow (s : Setting) (name : String) (new : Setting) : Setting :=
  if s.rows.any (·.1 = name) then
    .table (s.rows.map fun r ↦ if r.1 = name then (name, new) else r)
  else .table (s.rows ++ [(name, new)])

/-! ### Elements -/

/-- The elements of a list. What is no list has none. -/
def elements : Setting → List Setting
  | list ss => ss
  | _ => []

/-- The position that a place means in a list of a length. -/
def position (index : Int) (length : Nat) : Nat :=
  if index < 0 then length - index.natAbs else index.natAbs

/-- The list with the element at a position replaced. It is made long enough to have one. -/
def withElement (s : Setting) (i : Nat) (new : Setting) : Setting :=
  let ss := s.elements
  .list ((ss ++ List.replicate (i + 1 - ss.length) absent).set i new)

/-! ### Laying one setting over another -/

mutual

/-- Lays a setting over the row of a name. -/
def lay (name : String) (new old : Setting) : Setting :=
  match new with
  | .table rs =>
    let name := KeyStep.foldCase name
    old.withRow name (layAll rs ((old.find? name).getD (.table [])))
  | new => old.withRow (KeyStep.foldCase name) new

/-- Lays rows over those of a table, in their order. It matters for names alone that differ in
nothing but their case, of which the last one counts. A source that gives its rows no order may take
any of them; taking the last one of the file is a choice that is made here. -/
def layAll (new : List (String × Setting)) (old : Setting) : Setting :=
  match new with
  | [] => old
  | (name, s) :: rs => layAll rs (lay name s old)

end

/-- Lays a setting over what stands at the end of a path. Whatever else stands on the way gives way
to tables and lists. -/
def put (new : Setting) : List KeyStep → Setting → Setting
  | [], _ => new
  | [.name n], old => lay n new old
  | .name n :: path, old =>
    let n := KeyStep.foldCase n
    old.withRow n (put new path ((old.find? n).getD .absent))
  | .place index :: path, old =>
    let i := position index old.elements.length
    old.withElement i (put new path (old.elements[i]?.getD .absent))

/-- Lays the settings of one source, by their keys, over those of another. -/
def overlay (new : List (String × Setting)) (old : Setting) : Setting :=
  new.foldl (fun s (key, v) ↦ put v (KeyStep.ofKey key) s) old

/-! ### Sources -/

mutual

/-- A value of a settings file. -/
def ofToml : Toml.Value → Setting
  | .scalar s => .text s.toText
  | .array vs => .list (ofElements vs)
  | .tables vs => .list (ofElements vs).reverse
  | .table _ rs => .table (ofRows rs)

/-- The values of an array. -/
def ofElements : List Toml.Value → List Setting
  | [] => []
  | v :: vs => ofToml v :: ofElements vs

/-- The values of a table. -/
def ofRows : List (String × Toml.Value) → List (String × Setting)
  | [] => []
  | (k, v) :: rs => (k, ofToml v) :: ofRows rs

end

end Setting

end LayeredRights
