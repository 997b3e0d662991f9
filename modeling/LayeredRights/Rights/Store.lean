import LayeredRights.Rights.Documents

/-!
# The store of the configuration in force

A `Store` keeps the configuration that was loaded last, as a `Snapshot` whose serial number tells it
from every other load. Reading (`Store.current`) loads the documents only when nothing is resident.
Committing an edited configuration (`Store.commit`) writes its modifications as the new override
document; `Store.reload` reads both documents anew.

A commit has one order of steps: the candidate is checked, the base document has to load and agree
on the mode, the override is copied aside, the new one is written, and the store loads what it
wrote. The first step that fails decides the error and nothing after it is done, with two
exceptions: a failed write is followed by putting the copy back, and a failed load after a
successful write does not undo the commit but leaves nothing resident, so that the next reader meets
the error.

Telling listeners is not the store's work: `commit` and `reload` return the snapshot to announce.
-/

namespace LayeredRights

/-- A configuration as a store loaded it. -/
structure Snapshot where
  /-- Tells the loads of one store apart. -/
  serial : Nat
  configuration : Configuration
  deriving DecidableEq, Repr

/-- What a store remembers. -/
structure Store where
  /-- The action without which nobody can change the configuration anymore. -/
  editAction : String := "editprofile"
  resident : Option Snapshot := none
  /-- How many snapshots have been installed. -/
  loads : Nat := 0
  /-- Notices given so far, oldest first. -/
  journal : List Notice := []
  deriving DecidableEq, Repr

/-- An operation of a store over documents that live in a monad. -/
abbrev StoreM (m : Type → Type) := ExceptT RightsError (StateT Store m)

namespace Store

/-- The store with notices added to its journal. -/
def report (s : Store) (ns : List Notice) : Store := { s with journal := s.journal ++ ns }

variable {m : Type → Type} [Monad m] {α : Type}

/-- Gives a notice. -/
def note (n : Notice) : StoreM m Unit := modify (·.report [n])

/-- Reads a document, passing its notices on. -/
def obtain (op : m (Reported α)) : StoreM m α := do
  let r ← (op : StoreM m (Reported α))
  modify (·.report r.notices)
  match r.result with
  | .ok a => return a
  | .error e => throw e

/-- Loads both documents and combines them. -/
def load (d : Documents m) : StoreM m Configuration := do
  let base ← obtain d.loadBase
  let layer ← obtain d.loadOverride
  match merge base layer with
  | .ok c => return c
  | .error conflict =>
    note .mergeFailed
    throw (.modeConflict conflict)

/-- Makes a configuration resident, as a new snapshot. -/
def install (c : Configuration) : StoreM m Snapshot := do
  let s ← get
  let snapshot : Snapshot := ⟨s.loads, c⟩
  set { s with resident := some snapshot, loads := s.loads + 1 }
  return snapshot

/-- The configuration in force, loaded when nothing is resident. -/
def current (d : Documents m) : StoreM m Snapshot := do
  match (← get).resident with
  | some snapshot => return snapshot
  | none => install (← load d)

/-- Forgets the resident snapshot. -/
def evict : StoreM m Unit := modify fun s ↦ { s with resident := none }

/-- Reads both documents anew. Nothing is resident when that fails. -/
def reload (d : Documents m) : StoreM m Snapshot := do
  evict
  install (← load d)

/-- Loads what a commit has written. Returns the snapshot, or nothing when it cannot be loaded. -/
def adopt (d : Documents m) : StoreM m (Option Snapshot) := do
  try
    return some (← reload d)
  catch _ =>
    note .reloadFailed
    return none

/-- Refuses a configuration that breaks the rules for entries, and warns of one that leaves the
right to edit to nobody. -/
def check (candidate : Configuration) : StoreM m Unit := do
  match candidate.offence? with
  | some o => throw (.invalid (.offence o))
  | none =>
    let action := (← get).editAction
    if !candidate.grants action then note (.lockout action)

/-- Requires the base document to load and to have a mode. -/
def requireMode (d : Documents m) (mode : PolicyMode) : StoreM m Unit := do
  let base ← obtain d.loadBase
  if base.mode ≠ mode then throw (.modeConflict ⟨base.mode, mode⟩)

/-- Copies the override aside. -/
def backup (d : Documents m) : StoreM m Unit := do
  match ← (d.backupOverride : StoreM m _) with
  | .ok () => return
  | .error e =>
    note .backupFailed
    throw e

/-- Writes the override, and puts the copy back when that fails. The error is that of the write. -/
def write (d : Documents m) (document : Document) : StoreM m Unit := do
  match ← (d.writeOverride document : StoreM m _) with
  | .ok () => return
  | .error e =>
    note .writeFailed
    note .restoring
    match ← (d.restoreOverride : StoreM m _) with
    | .ok () => note .restored
    | .error _ => note .restoreFailed
    throw e

/-- Commits an edited configuration. Returns the snapshot to announce, which there is unless the
written configuration cannot be loaded. -/
def commit (d : Documents m) (candidate : Configuration) : StoreM m (Option Snapshot) := do
  check candidate
  requireMode d candidate.mode
  backup d
  write d candidate.modifications
  adopt d

end Store

end LayeredRights
