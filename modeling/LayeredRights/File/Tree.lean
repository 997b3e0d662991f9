import LayeredRights.File.Job
import LayeredRights.Text.Cut

/-!
# A file system in memory

A `FileTree` holds files and directories under their places, which are lists of names from the root.
`FileTree.run` runs a job on it.

Paths are texts. A path is walked name by name from the root, or from the working directory when it
does not begin with a slash; `.` and an empty name stay where they are and `..` goes up, and each of
them, like every further name, needs a directory to start from. Nothing but the last name may be
missing.
-/

namespace LayeredRights

/-- What stands at a place. -/
inductive FileNode
  | file (bytes : ByteArray)
  | directory

/-- The kind of a node. -/
def FileNode.kind : FileNode → FileKind
  | file _ => .file
  | directory => .directory

/-- Files and directories by their places. The root is a directory and has no entry. -/
structure FileTree where
  nodes : List (List String × FileNode) := []
  workingDirectory : List String := []

namespace FileTree

/-! ### Places -/

/-- What stands at a place. -/
def node? (t : FileTree) (place : List String) : Option FileNode :=
  if place = [] then some .directory else (t.nodes.find? (·.1 = place)).map (·.2)

/-- Puts a node at a place, over what stands there. -/
def put (t : FileTree) (place : List String) (n : FileNode) : FileTree :=
  { t with nodes := (place, n) :: t.nodes.filter (·.1 ≠ place) }

/-- Clears a place. -/
def clear (t : FileTree) (place : List String) : FileTree :=
  { t with nodes := t.nodes.filter (·.1 ≠ place) }

theorem node?_put_self {t : FileTree} {p : List String} (n : FileNode) (hp : p ≠ []) :
    (t.put p n).node? p = some n := by
  simp [node?, put, hp]

theorem node?_put_of_ne {t : FileTree} {p q : List String} (n : FileNode) (h : q ≠ p) :
    (t.put p n).node? q = t.node? q := by
  unfold node? put
  split
  · rfl
  · simp only [List.find?_cons, decide_eq_false (Ne.symm h), List.find?_filter]
    congr 2
    funext x
    by_cases hx : x.1 = q <;> simp [hx, h]

theorem node?_clear_self {t : FileTree} {p : List String} (hp : p ≠ []) :
    (t.clear p).node? p = none := by
  simp [node?, clear, hp, List.find?_filter]

theorem node?_clear_of_ne {t : FileTree} {p q : List String} (h : q ≠ p) :
    (t.clear p).node? q = t.node? q := by
  unfold node? clear
  split
  · rfl
  · rw [List.find?_filter]
    congr 2
    funext x
    by_cases hx : x.1 = q <;> simp [hx, h]

/-! ### Paths -/

/-- The names between the slashes of a path. -/
def names (path : List Char) : List (List Char) := Text.cut (· = '/') path

/-- Nothing when a directory stands at a place, and otherwise why one cannot go on from there. -/
def enter (t : FileTree) (place : List String) : Except IoError Unit :=
  match t.node? place with
  | some .directory => .ok ()
  | some (.file _) => .error .notADirectory
  | none => .error .notFound

/-- Walks names from a place. -/
def walk (t : FileTree) (place : List String) : List (List Char) → Except IoError (List String)
  | [] => .ok place
  | n :: ns =>
    match t.enter place with
    | .error e => .error e
    | .ok () =>
      if n = [] || n = ['.'] then t.walk place ns
      else if n = ['.', '.'] then t.walk place.dropLast ns
      else t.walk (place ++ [String.ofList n]) ns

/-- The place that a path leads to, where something may stand or not. -/
def locate (t : FileTree) (path : String) : Except IoError (List String) :=
  match path.toList with
  | [] => .error .notFound
  | '/' :: cs => t.walk [] (names cs)
  | cs => t.walk t.workingDirectory (names cs)

/-- What stands at the end of a path. -/
def lookup (t : FileTree) (path : String) : Except IoError FileNode :=
  match t.locate path with
  | .error e => .error e
  | .ok place =>
    match t.node? place with
    | none => .error .notFound
    | some n => .ok n

/-! ### Steps -/

/-- A path that ends with a slash means a directory, also where there is none. -/
def endsWithSlash (path : String) : Bool := path.toList.getLast? = some '/'

/-- The path without the slashes at its end. -/
def withoutSlash (path : String) : String :=
  String.ofList (path.toList.reverse.dropWhile (· = '/')).reverse

/-- The place of a file that is to be written. -/
def target (t : FileTree) (path : String) : Except IoError (List String) :=
  if endsWithSlash path then
    match t.locate (withoutSlash path) with
    | .error e => .error e
    | .ok _ => .error .isADirectory
  else
    match t.locate path with
    | .error e => .error e
    | .ok place =>
      match t.node? place with
      | some .directory => .error .isADirectory
      | _ => t.enter place.dropLast |>.map fun () ↦ place

/-- The outcome of one change, and the tree after it. A change that fails changes nothing. -/
def apply (t : FileTree) : Change → Except IoError Unit × FileTree
  | .create path =>
    match t.target path with
    | .error e => (.error e, t)
    | .ok place => (.ok (), t.put place (.file .empty))
  | .append path bytes =>
    match t.locate path with
    | .error e => (.error e, t)
    | .ok place =>
      match t.node? place with
      | none => (.error .notFound, t)
      | some .directory => (.error .isADirectory, t)
      | some (.file old) => (.ok (), t.put place (.file (old ++ bytes)))
  | .rename source target =>
    match t.locate source with
    | .error e => (.error e, t)
    | .ok here =>
      match t.node? here with
      | none => (.error .notFound, t)
      | some .directory => (.error .isADirectory, t)
      | some (.file bytes) =>
        match t.target target with
        | .error e => (.error e, t)
        | .ok there => (.ok (), (t.clear here).put there (.file bytes))
  | .remove path =>
    match t.locate path with
    | .error e => (.error e, t)
    | .ok place =>
      match t.node? place with
      | none => (.error .notFound, t)
      | some .directory => (.error .isADirectory, t)
      | some (.file _) => (.ok (), t.clear place)

/-- The kind of what stands at the end of a path. -/
def probe (t : FileTree) (path : String) : Option FileKind :=
  match t.lookup path with
  | .ok n => some n.kind
  | .error _ => none

/-- The bytes of the file at the end of a path. -/
def read (t : FileTree) (path : String) : Except IoError ByteArray :=
  match t.lookup path with
  | .error e => .error e
  | .ok .directory => .error .isADirectory
  | .ok (.file bytes) => .ok bytes

/-- Runs a job to its end. -/
def run {α : Type} (t : FileTree) : FileJob α → α × FileTree
  | .done a => (a, t)
  | .probe path next => t.run (next (t.probe path))
  | .read path next => t.run (next (t.read path))
  | .change c next => (t.apply c).2.run (next (t.apply c).1)

/-! ### Directories -/

/-- Makes a directory, and says whether it did. -/
def makeDirectory (t : FileTree) (path : String) : Bool × FileTree :=
  match t.locate (withoutSlash path) with
  | .error _ => (false, t)
  | .ok place =>
    match t.node? place, t.enter place.dropLast with
    | none, .ok () => (true, t.put place .directory)
    | _, _ => (false, t)

/-- The names in a directory, with what stands under them. -/
def contents (t : FileTree) (place : List String) : List (String × FileNode) :=
  t.nodes.filterMap fun (p, n) ↦
    match p.getLast? with
    | some name => if p.dropLast = place then some (name, n) else none
    | none => none

/-- Removes an empty directory, and says whether it did. -/
def removeDirectory (t : FileTree) (path : String) : Bool × FileTree :=
  match t.locate path with
  | .error _ => (false, t)
  | .ok place =>
    let isDirectory := (t.node? place).map FileNode.kind = some .directory
    if isDirectory && (t.contents place).isEmpty && place ≠ [] then (true, t.clear place)
    else (false, t)

end FileTree

end LayeredRights
