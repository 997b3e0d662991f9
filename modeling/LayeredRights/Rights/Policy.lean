/-!
# Policy modes

A configuration lists actions for a user; its *policy mode* says what a listing means. In an
allow-listed configuration the listed actions are granted and all others denied, in a deny-listed
one it is the other way round.
-/

namespace LayeredRights

/-- How the action sets of a configuration are interpreted. -/
inductive PolicyMode
  | allowListed
  | denyListed
  deriving DecidableEq, Repr, Inhabited

namespace PolicyMode

/-- The word a rights document uses for the mode. -/
def name : PolicyMode → String
  | allowListed => "allow-listed"
  | denyListed => "deny-listed"

/-- The mode a word stands for. -/
def ofName? (word : String) : Option PolicyMode :=
  if word = allowListed.name then some allowListed
  else if word = denyListed.name then some denyListed
  else none

/-- Turns "the action is in the user's set" into a decision. -/
def decide : PolicyMode → Bool → Bool
  | allowListed, listed => listed
  | denyListed, listed => !listed

theorem ofName?_eq_some_iff {word : String} {m : PolicyMode} :
    ofName? word = some m ↔ word = m.name := by
  unfold ofName?
  split
  · next h => subst h; cases m <;> simp [name]
  · next h =>
    split
    · next h' => subst h'; cases m <;> simp [name]
    · next h' => cases m <;> simp [h, h']

end PolicyMode

end LayeredRights
