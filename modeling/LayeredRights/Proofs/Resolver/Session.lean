import LayeredRights.Proofs.Store.Operations
import LayeredRights.Rights.Engine

/-!
# Sessions of an engine

A session is any finite sequence of moves: events of the engine in any order, and edits of the world
from outside. Nothing is assumed of what answers the engine. A directory may report any roles at any
time, and between a request and its reply there may be any number of calls, whose requests are
replied to first; so listeners and directories that call back, to any depth, are all there.

Beside the engine and the world, a session keeps what was to be seen of it. A `Moment` is what there
was to be seen of one move, and moments are numbered in the order of moves, from one: moment zero is
the beginning. An `Exchange` is a call with its answer, from the moment of the call to that of the
answer. Calls are answered innermost first, so those that wait for an answer are a stack, and each
of them waits because of exactly one frame of the engine.

A session keeps the engine of every moment, although the next move depends on the last one only. It
is there for what is said about a whole session: that a roll is as a history of it says, that an
answer rests on roles that were reported when it was begun, that somebody was alive when a turn
came. Where such a statement is about a moment that has been, it goes on holding in every longer
session, which comes down to `getElem?_of_begin`.
-/

namespace LayeredRights

/-- What stands at an index stands there in a longer list. -/
theorem getElem?_of_begin {α : Type} {l l' : List α} (h : l <+: l') {k : Nat} {a : α}
    (hk : l[k]? = some a) : l'[k]? = some a := by
  obtain ⟨rest, rfl⟩ := h
  exact (List.getElem?_append_left (List.getElem?_eq_some_iff.1 hk).1).trans hk

/-- One move of a session. -/
inductive Move (W : Type)
  | event (ev : Event)
  /-- Something outside changes the world. -/
  | outside (edit : W → W)

/-- What is to be seen of a move. -/
structure Moment where
  /-- The call that was made. -/
  call : Option Call := none
  /-- The roles that were reported, with the login they are for. -/
  report : Option (String × NameSet) := none
  /-- The engine after the move. -/
  engine : Engine

/-- A call and its answer, with the moments of both. -/
structure Exchange where
  call : Call
  first : Nat
  last : Nat
  answer : Answer

/-- A session up to some move. -/
structure Session (W : Type) where
  engine : Engine
  world : W
  /-- Oldest first. -/
  moments : List Moment
  /-- The calls not yet answered, with the moments at which they were made. Innermost first. -/
  pending : List (Call × Nat) := []
  /-- Oldest first. -/
  exchanges : List Exchange := []

/-- The call that an event is. -/
def Event.call? : Event → Option Call
  | .call c => some c
  | _ => none

theorem Event.call?_eq_some_iff {ev : Event} {c : Call} : ev.call? = some c ↔ ev = .call c := by
  cases ev <;> simp [Event.call?]

namespace Engine

/-- The index of the generation in use. -/
def inUse? (e : Engine) : Option Nat := e.resolver.bind (·.inUse)

/-- The roles that an event reports for the login that is being looked up. A look-up that fails
reports none. -/
def reported? (e : Engine) (ev : Event) : Option (String × NameSet) :=
  match ev, e.frames with
  | .rolesFound (.ok roles), .lookingUp q :: _ => some (q.login, roles)
  | .rolesFound (.error _), .lookingUp q :: _ => some (q.login, ∅)
  | _, _ => none

/-- An engine over a store that has loaded nothing, with a resolver. -/
def fresh (editAction : String) : Engine := attachResolver { store := { editAction := editAction } }

end Engine

namespace Session

variable {m : Type → Type} [Monad m] {W : Type}

/-- A session in which nothing has happened. -/
def fresh (editAction : String) (w : W) : Session W :=
  { engine := .fresh editAction, world := w, moments := [{ engine := .fresh editAction }] }

/-- The session after an event and what came of it. An answer is that to the innermost call. -/
def record (s : Session W) (ev : Event) (out : Output) (e : Engine) (w : W) : Session W :=
  let now := s.moments.length
  let moments := s.moments ++ [⟨ev.call?, s.engine.reported? ev, e⟩]
  let pending := (ev.call?.map fun c ↦ (c, now)).toList ++ s.pending
  match out, pending with
  | .answered a, (c, first) :: rest =>
    ⟨e, w, moments, rest, s.exchanges ++ [⟨c, first, now, a⟩]⟩
  | _, _ => ⟨e, w, moments, pending, s.exchanges⟩

section Record

variable {s : Session W} {ev : Event} {e : Engine} {w : W}

/-- What calls for nothing is a moment and no more. -/
theorem record_of_nothing (hcall : ev.call? = none) : s.record ev .nothing e w =
    ⟨e, w, s.moments ++ [⟨ev.call?, s.engine.reported? ev, e⟩], s.pending, s.exchanges⟩ := by
  simp [record, hcall]

variable {c : Call} {first : Nat} {rest : List (Call × Nat)}

/-- An answer is that to the innermost call. -/
theorem record_of_answered {a : Answer}
    (h : (ev.call?.map fun c ↦ (c, s.moments.length)).toList ++ s.pending = (c, first) :: rest) :
    s.record ev (.answered a) e w = ⟨e, w, s.moments ++ [⟨ev.call?, s.engine.reported? ev, e⟩],
      rest, s.exchanges ++ [⟨c, first, s.moments.length, a⟩]⟩ := by
  simp only [record, h]

/-- A request leaves the innermost call waiting. -/
theorem record_of_asked {r : Request}
    (h : (ev.call?.map fun c ↦ (c, s.moments.length)).toList ++ s.pending = (c, first) :: rest) :
    s.record ev (.asked r) e w = ⟨e, w, s.moments ++ [⟨ev.call?, s.engine.reported? ev, e⟩],
      (c, first) :: rest, s.exchanges⟩ := by
  simp only [record, h]

end Record

/-- The session after one more move. -/
def move (ρ : Runner m W) (d : Documents m) (s : Session W) : Move W → Session W
  | .outside edit =>
    { s with world := edit s.world, moments := s.moments ++ [{ engine := s.engine }] }
  | .event ev =>
    match ρ.run (s.engine.step d ev) s.world with
    | ((out, e), w) => s.record ev out e w

/-- The session after a sequence of moves. -/
def run (ρ : Runner m W) (d : Documents m) (s : Session W) (moves : List (Move W)) : Session W :=
  moves.foldl (Session.move ρ d) s

end Session

end LayeredRights
