import LayeredRights.File.Error

/-!
# Jobs on files

A `FileJob` is a program over single steps of a file system. Its steps are those that the system
takes as a whole: looking at what stands at a path, reading a file, and the four `Change`s. A job
says which step comes next for every answer to the one before, and nothing else, so it can be run on
a file system of any kind, stopped between two steps, or met with failures at any of them.

Copying a file is no single step: the destination is emptied before anything is written to it
(`FileJob.copy`).
-/

namespace LayeredRights

/-- What can stand at a path. -/
inductive FileKind
  | file
  | directory
  deriving DecidableEq, Repr

/-- A step that changes the file system. -/
inductive Change
  /-- Makes the file empty, creating it if need be. -/
  | create (path : String)
  /-- Writes at the end of a file. -/
  | append (path : String) (bytes : ByteArray)
  /-- Moves a file over whatever file stands at the target. -/
  | rename (source target : String)
  /-- Deletes a file. -/
  | remove (path : String)

/-- A program over the steps of a file system. -/
inductive FileJob (α : Type) : Type
  | done (a : α)
  | probe (path : String) (next : Option FileKind → FileJob α)
  | read (path : String) (next : Except IoError ByteArray → FileJob α)
  | change (c : Change) (next : Except IoError Unit → FileJob α)

namespace FileJob

variable {α β : Type}

/-- Goes on with another job. -/
def andThen : FileJob α → (α → FileJob β) → FileJob β
  | done a, f => f a
  | probe p next, f => probe p fun k ↦ (next k).andThen f
  | read p next, f => read p fun r ↦ (next r).andThen f
  | change c next, f => change c fun r ↦ (next r).andThen f

instance : Monad FileJob where
  pure := done
  bind := andThen

/-! ### Single steps -/

/-- What stands at a path. -/
def kindAt (path : String) : FileJob (Option FileKind) := probe path done

/-- Whether a regular file stands at a path. -/
def isFile (path : String) : FileJob Bool := do
  return (← kindAt path) = some .file

/-- Whether anything stands at a path. -/
def exists? (path : String) : FileJob Bool := do
  return (← kindAt path).isSome

/-- The bytes of a file. -/
def bytesOf (path : String) : FileJob (Except IoError ByteArray) := read path done

/-- Makes one change. -/
def perform (c : Change) : FileJob (Except IoError Unit) := change c done

/-- Makes changes in order, up to the first that fails. -/
def performAll : List Change → FileJob (Except IoError Unit)
  | [] => done (.ok ())
  | c :: cs =>
    change c fun
      | .ok () => performAll cs
      | .error e => done (.error e)

/-! ### Whole files -/

/-- The text of a file, which has to be UTF-8. -/
def textOf (path : String) : FileJob (Except IoError String) := do
  match ← bytesOf path with
  | .error e => return .error e
  | .ok bytes =>
    match String.fromUTF8? bytes with
    | none => return .error .invalidData
    | some s => return .ok s

/-- Writes a whole file, which is emptied first. -/
def write (path : String) (bytes : ByteArray) : FileJob (Except IoError Unit) :=
  performAll [.create path, .append path bytes]

/-- Copies a file: the source is looked up, the destination emptied, and then the source is read and
written. A file copied onto itself ends up empty. -/
def copy (source target : String) : FileJob (Except IoError Unit) := do
  match ← kindAt source with
  | none => return .error .notFound
  | some .directory => return .error (.other "the source of a copy has to be a regular file")
  | some .file =>
    match ← perform (.create target) with
    | .error e => return .error e
    | .ok () =>
      match ← bytesOf source with
      | .error e => return .error e
      | .ok bytes => perform (.append target bytes)

end FileJob

end LayeredRights
