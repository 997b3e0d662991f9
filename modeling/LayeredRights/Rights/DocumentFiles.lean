import LayeredRights.File.Job
import LayeredRights.Rights.Document.Printer
import LayeredRights.Rights.Document.Reader
import LayeredRights.Rights.Documents

/-!
# Documents kept in files

The two documents are KDL files. The override is written beside its place and then moved over it, so
that what stands at its place is always a whole document. The copy kept before a write stands at the
override's path with a suffix; that there was no override is remembered by there being no copy.
-/

namespace LayeredRights

/-- The paths of the documents. -/
structure DocumentFiles where
  base : String
  override : String
  suffix : String := ".bak"
  deriving DecidableEq, Repr

namespace DocumentFiles

/-- Where the copy of the override is kept. -/
def backup (f : DocumentFiles) : String := f.override ++ f.suffix

/-- Where a new override is written before it is moved into place. -/
def temporary (f : DocumentFiles) : String := f.override ++ ".tmp"

/-- Reads a rights document from a file. -/
def load (path : String) : FileJob (Reported Document) := do
  match ← FileJob.textOf path with
  | .error e => return { result := .error (.documentLoad path e) }
  | .ok text => return Document.ofText text

/-- Reads the override document, which exists when a regular file stands at its path. -/
def loadOverride (f : DocumentFiles) : FileJob (Reported (Option Document)) := do
  if ← FileJob.isFile f.override then
    let r ← load f.override
    return { result := r.result.map some, notices := r.notices }
  else return { result := .ok none }

/-- The error of a step of saving, in case it fails. -/
def persisting (step : PersistStep) : Except IoError Unit → Except RightsError Unit :=
  Except.mapError fun e ↦ .persist step (some e)

/-- Writes the override document beside its place and moves it there. If that fails, what has been
written beside it is deleted, as far as it can be. -/
def writeOverride (f : DocumentFiles) (d : Document) : FileJob (Except RightsError Unit) := do
  let written ← FileJob.performAll
    [.create f.temporary, .append f.temporary d.text.toUTF8, .rename f.temporary f.override]
  match written with
  | .ok () => return .ok ()
  | .error e =>
    let _ ← FileJob.perform (.remove f.temporary)
    return .error (.persist (.writing f.override) (some e))

/-- Copies the override aside, or removes an earlier copy when there is no override. -/
def backupOverride (f : DocumentFiles) : FileJob (Except RightsError Unit) := do
  if ← FileJob.isFile f.override then
    return persisting (.backingUp f.override) (← FileJob.copy f.override f.backup)
  else if ← FileJob.exists? f.backup then
    return persisting (.removingStaleBackup f.backup) (← FileJob.perform (.remove f.backup))
  else return .ok ()

/-- Copies the copy back, or removes the override when there is no copy. -/
def restoreOverride (f : DocumentFiles) : FileJob (Except RightsError Unit) := do
  if ← FileJob.isFile f.backup then
    return (← FileJob.copy f.backup f.override).mapError .io
  else if ← FileJob.isFile f.override then
    return (← FileJob.perform (.remove f.override)).mapError .io
  else return .ok ()

/-- The documents in these files. -/
def documents (f : DocumentFiles) : Documents FileJob where
  loadBase := load f.base
  loadOverride := f.loadOverride
  overrideExists := FileJob.isFile f.override
  writeOverride := f.writeOverride
  backupOverride := f.backupOverride
  restoreOverride := f.restoreOverride

end DocumentFiles

end LayeredRights
