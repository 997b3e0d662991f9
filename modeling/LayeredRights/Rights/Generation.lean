import LayeredRights.Rights.Store

/-!
# Generations of cached decisions

A `Generation` belongs to one snapshot and collects the action sets that were built from it, one for
each login. An action set stays what it was when it was first stored. A query sticks to the
generation it began with, whether or not that is still the one in use.
-/

namespace LayeredRights

/-- The action sets built from one snapshot. -/
structure Generation where
  snapshot : Snapshot
  actionSets : List (String × NameSet) := []
  deriving DecidableEq

namespace Generation

/-- The action set stored for a login. -/
def find? (g : Generation) (login : String) : Option NameSet :=
  (g.actionSets.find? (·.1 = login)).map (·.2)

/-- Stores an action set for a login that has none. -/
def remember (g : Generation) (login : String) (actions : NameSet) : Generation :=
  if (g.find? login).isSome then g
  else { g with actionSets := g.actionSets ++ [(login, actions)] }

/-- The number of logins with an action set. -/
def size (g : Generation) : Nat := g.actionSets.length

theorem find?_remember_self (g : Generation) (login : String) (actions : NameSet) :
    (g.remember login actions).find? login = some ((g.find? login).getD actions) := by
  unfold remember
  split
  · next h =>
    obtain ⟨s, hs⟩ := Option.isSome_iff_exists.1 h
    simp [hs]
  · next h =>
    have hn : g.find? login = none := by simpa using h
    have hf : g.actionSets.find? (·.1 = login) = none := by simpa [find?] using hn
    simp [find?, List.find?_append, hf]

end Generation

end LayeredRights
