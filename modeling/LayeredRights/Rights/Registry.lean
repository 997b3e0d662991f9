/-!
# The registry of listeners

Whoever wants to hear of changes is registered under an id of its own, in order of registration. Ids
are handed out in ascending order and never twice. A registration does not keep its listener alive:
those whose listener is gone are pruned when the next delivery begins.

Ids are natural numbers and have no bound. A counter of 64 bits hands out the same ids as long as
fewer than `2 ^ 64` registrations have been made, as every id is below the number of registrations
made so far (`KeepsRoll.bounded`).
-/

namespace LayeredRights

/-- Who is registered: a listener, known by a key, or the resolver. -/
inductive Subscriber
  | listener (key : Nat)
  | resolver
  deriving DecidableEq, Repr

/-- A subscriber under its id. -/
structure Registration where
  id : Nat
  subscriber : Subscriber
  deriving DecidableEq, Repr

/-- The registrations, in order, and the id to hand out next. -/
structure Registry where
  registrations : List Registration := []
  nextId : Nat := 0
  deriving DecidableEq, Repr

namespace Registry

/-- The registry with one more registration, whose id is the next one. -/
def add (r : Registry) (s : Subscriber) : Registry :=
  { registrations := r.registrations ++ [⟨r.nextId, s⟩], nextId := r.nextId + 1 }

/-- Whether an id is registered. -/
def has (r : Registry) (id : Nat) : Bool := r.registrations.any (·.id = id)

/-- The registry without the registration of an id. -/
def remove (r : Registry) (id : Nat) : Registry :=
  { r with registrations := r.registrations.filter (·.id ≠ id) }

/-- The registry without the registrations that are not alive. -/
def prune (r : Registry) (alive : Registration → Bool) : Registry :=
  { r with registrations := r.registrations.filter alive }

/-- The number of registrations, those of listeners that are gone included. -/
def size (r : Registry) : Nat := r.registrations.length

end Registry

end LayeredRights
