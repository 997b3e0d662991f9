import LayeredRights.Rights.Documents

/-!
# Documents in memory

Documents kept as values, for playing scenarios. Every operation can be made to fail. A write that
fails leaves something behind: an empty document of the mode that was to be written.
-/

namespace LayeredRights

/-- The documents, the copy of the override, and the operations that fail. -/
structure MemoryDocuments where
  base : Document
  override : Option Document := none
  backup : Option Document := none
  failing : List DocumentCall := []
  deriving DecidableEq, Repr

namespace MemoryDocuments

/-- An operation on documents in memory that fails when it is made to. -/
def attempt {α : Type} (c : DocumentCall)
    (failure : MemoryDocuments → RightsError × MemoryDocuments)
    (success : MemoryDocuments → α × MemoryDocuments) :
    StateM MemoryDocuments (Except RightsError α) := fun d ↦
  if c ∈ d.failing then
    let (e, d') := failure d
    (.error e, d')
  else
    let (a, d') := success d
    (.ok a, d')

/-- The failure of reading a document. -/
def refuseRead (text : String) (d : MemoryDocuments) : RightsError × MemoryDocuments :=
  (.invalid (.refused text), d)

/-- The failure of saving a document. -/
def refuseSave (text : String) (d : MemoryDocuments) : RightsError × MemoryDocuments :=
  (.persist (.refused text) none, d)

/-- The documents in memory. -/
def documents : Documents (StateM MemoryDocuments) where
  loadBase := do
    return { result := ← attempt .loadBase (refuseRead "base refused") fun d ↦ (d.base, d) }
  loadOverride := do
    return { result :=
      ← attempt .loadOverride (refuseRead "override refused") fun d ↦ (d.override, d) }
  overrideExists := fun d ↦ (d.override.isSome, d)
  writeOverride := fun doc ↦
    attempt .writeOverride
      (fun d ↦ refuseSave "write refused" { d with override := some { mode := doc.mode } })
      fun d ↦ ((), { d with override := some doc })
  backupOverride :=
    attempt .backupOverride (refuseSave "backup refused") fun d ↦
      ((), { d with backup := d.override })
  restoreOverride :=
    attempt .restoreOverride (refuseSave "restore refused") fun d ↦
      ((), { d with override := d.backup })

end MemoryDocuments

end LayeredRights
