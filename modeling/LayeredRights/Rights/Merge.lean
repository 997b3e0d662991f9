import LayeredRights.Rights.Configuration

/-!
# Combining the two layers

The override layer wins key by key: an entry of the layer replaces the factory entry of the same
name or login as a whole. Entries of the layer come first, in document order, then the factory
entries that survive. The layers must agree on the policy mode.
-/

namespace LayeredRights

/-- Two layers of different policy modes. -/
structure ModeConflict where
  base : PolicyMode
  layer : PolicyMode
  deriving DecidableEq, Repr

/-- The entries of `base` whose key no entry of `layer` has. -/
def unshadowed {α : Type _} (key : α → String) (base layer : List α) : List α :=
  base.filter fun x ↦ key x ∉ layer.map key

/-- The base document alone, all of its entries factory defaults. -/
def Document.alone (base : Document) : Configuration where
  mode := base.mode
  profiles := base.profiles.map (·.tagged .factory)
  userProfiles := base.userProfiles.map (·.tagged .factory)

/-- The entries of `layer` as modifications, followed by the unshadowed entries of `base`. -/
def Document.overlaid (base layer : Document) : Configuration where
  mode := base.mode
  profiles :=
    layer.profiles.map (·.tagged .modification) ++
      (unshadowed (·.name) base.profiles layer.profiles).map (·.tagged .factory)
  userProfiles :=
    layer.userProfiles.map (·.tagged .modification) ++
      (unshadowed (·.login) base.userProfiles layer.userProfiles).map (·.tagged .factory)

/-- Combines the base document with the layer over it, if there is one. -/
def merge (base : Document) : Option Document → Except ModeConflict Configuration
  | none => .ok base.alone
  | some layer =>
    if layer.mode = base.mode then .ok (base.overlaid layer)
    else .error ⟨base.mode, layer.mode⟩

end LayeredRights
