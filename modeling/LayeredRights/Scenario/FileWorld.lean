import LayeredRights.File.Tree
import LayeredRights.Rights.DocumentFiles

/-!
# Documents in a file system in memory

The documents of `DocumentFiles` over a `FileTree`, for playing scenarios. Writing the override can
be made to fail, and then leaves the beginning of a document at its place.
-/

namespace LayeredRights

/-- A file system, and whether writing the override fails. -/
structure FileWorld where
  tree : FileTree := {}
  failWrites : Bool := false

namespace FileWorld

/-- Runs a job on the file system. -/
def perform {α : Type} (job : FileJob α) : StateM FileWorld α := fun w ↦
  let (a, t) := w.tree.run job
  (a, { w with tree := t })

/-- What a write that fails leaves behind. -/
def torn : String := "profile \"half-writ"

/-- A write that fails half-way. -/
def tearOverride (f : DocumentFiles) : FileJob (Except RightsError Unit) := do
  match ← FileJob.write f.override torn.toUTF8 with
  | .ok () => return .error (.persist (.refused "simulated write failure") none)
  | .error e => return .error (.io e)

/-- The documents in the files. -/
def documents (f : DocumentFiles) : Documents (StateM FileWorld) where
  loadBase := perform f.documents.loadBase
  loadOverride := perform f.documents.loadOverride
  overrideExists := perform f.documents.overrideExists
  writeOverride := fun doc w ↦
    if w.failWrites then perform (tearOverride f) w
    else perform (f.documents.writeOverride doc) w
  backupOverride := perform f.documents.backupOverride
  restoreOverride := perform f.documents.restoreOverride

end FileWorld

end LayeredRights
