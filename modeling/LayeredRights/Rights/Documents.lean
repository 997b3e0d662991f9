import LayeredRights.Rights.Document
import LayeredRights.Rights.Notice

/-!
# Where the documents are kept

A store of configurations does not know how its two documents are kept. All it uses is a
`Documents`: six operations in a monad, each of which may fail and may have effects of its own.
`Documents.traced` puts a record of the operations beside any such implementation.
-/

namespace LayeredRights

/-- The operations on the base document and the override document. -/
structure Documents (m : Type → Type) where
  /-- Reads the factory document, which has to be there. -/
  loadBase : m (Reported Document)
  /-- Reads the override document; there is none until the first update has been saved. -/
  loadOverride : m (Reported (Option Document))
  overrideExists : m Bool
  writeOverride : Document → m (Except RightsError Unit)
  /-- Keeps a copy of the override document, in place of any earlier one. -/
  backupOverride : m (Except RightsError Unit)
  /-- Puts the copy that was kept back in place. -/
  restoreOverride : m (Except RightsError Unit)

/-- The operations by name. -/
inductive DocumentCall
  | loadBase
  | loadOverride
  | overrideExists
  | writeOverride
  | backupOverride
  | restoreOverride
  deriving DecidableEq, Repr

/-- Records every operation, oldest first, before it is performed. -/
def Documents.traced {m : Type → Type} [Monad m] (d : Documents m) :
    Documents (StateT (List DocumentCall) m) :=
  let record {α : Type} (c : DocumentCall) (op : m α) : StateT (List DocumentCall) m α :=
    fun cs ↦ do
    return (← op, cs ++ [c])
  { loadBase := record .loadBase d.loadBase
    loadOverride := record .loadOverride d.loadOverride
    overrideExists := record .overrideExists d.overrideExists
    writeOverride := fun doc ↦ record .writeOverride (d.writeOverride doc)
    backupOverride := record .backupOverride d.backupOverride
    restoreOverride := record .restoreOverride d.restoreOverride }

end LayeredRights
