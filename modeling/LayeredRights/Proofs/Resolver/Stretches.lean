import LayeredRights.Proofs.Resolver.Provenance
import Mathlib.Data.Finset.Card

/-!
# Stretches between invalidations

What has been cached is valid until action sets are discarded, the resolver is told of a change, or
a snapshot is installed. A stretch is what happens from one such event to the next (`IsStretch`),
and `Effective` says what a cache is good for within it: the directory is asked once about a login,
and not again before something is invalidated.

All of this is read off the turns of a session (`Session.turns`), each of which is what there is to
be seen of one move: the event that is taken, what comes of it, and the engine before and after.
Nothing depends on the generations of the resolver, or on which of them is in use. That a cache is
there at all is what has to be shown.

A session is gone through turn by turn, and `nextStretch` keeps the stretch that is under way: it is
taken up again from the turn that invalidates. Each stretch is the one under way after some number
of turns (`IsStretch.exists_take`), so it suffices to show that the stretch under way is always an
effective one.
-/

namespace LayeredRights

/-! ### What is to be seen of a move -/

/-- What happens in one move of a session. -/
structure Turn where
  /-- Nothing, if something outside changes the world. -/
  event : Option Event
  /-- The innermost of the calls that wait when the event has been taken. -/
  serves : Option Call
  output : Output
  before : Engine
  after : Engine

/-- The call that asks for the same, and is refused when the configuration cannot be had. -/
def Call.strict : Call → Call
  | .isAllowed login action => .tryIsAllowed login action
  | c => c

/-- The calls that leave the resolver without action sets. -/
def Call.empties : Call → Bool
  | .discard | .attachResolver => true
  | _ => false

/-- Whether a delivery comes to the resolver before the next listener is told. -/
def Engine.tellsResolver (e : Engine) : List Registration → Bool
  | [] => false
  | r :: rs =>
    if e.isAlive r then
      match r.subscriber with
      | .listener _ => false
      | .resolver => true
    else e.tellsResolver rs

namespace Turn

/-- The login whose roles the directory is asked for. -/
def lookUp? (t : Turn) : Option String :=
  match t.output with
  | .asked (.rolesOf login) => some login
  | _ => none

/-- The roles that the directory reports, with the login they are for. -/
def report? (t : Turn) : Option (String × NameSet) := t.event.bind t.before.reported?

/-- The logins that a query is made about, or that are to be warmed up. -/
def concerns (t : Turn) : List String :=
  match t.event, t.before.frames with
  | some (.call c), _ => c.strict.subject?.toList
  | some (.usersFound (.ok users)), .listing :: _ => users
  | _, _ => []

/-- The call that is answered, with its answer. -/
def answer? (t : Turn) : Option (Call × Answer) :=
  match t.output with
  | .answered a => t.serves.map (·, a)
  | _ => none

/-- A query or a warm-up succeeds. A denial for want of a configuration is none that succeeds, nor
is a warm-up for want of users. -/
inductive Succeeds (t : Turn) : Prop
  | decided {login action : String} {granted : Bool}
      (ht : t.answer? = some (.tryIsAllowed login action, .decision (.ok granted)))
  | allowed {login action : String} {granted : Bool}
      (ht : t.answer? = some (.isAllowed login action, .decision (.ok granted)))
      (hresident : t.after.store.resident.isSome = true)
  | listed {login : String} {actions : NameSet}
      (ht : t.answer? = some (.effectiveActions login, .actions (.ok actions)))
  | warmed {total : Nat} (ht : t.answer? = some (.warmUp, .warmed (.ok total)))
      (hlisted : ∀ err, t.event ≠ some (.usersFound (.error err)))

/-- Whether the resolver is told of a change. A commit or a reload that tells anyone installs a
snapshot before. -/
def tellsResolver (t : Turn) : Bool :=
  match t.event, t.before.frames with
  | some (.call (.announce _)), _ => t.before.tellsResolver t.before.registry.registrations
  | some (.told _), .telling _ round :: fs =>
    Engine.tellsResolver { t.before with frames := fs } round.rest
  | _, _ => false

/-- Whether what was cached before is no longer valid: action sets are discarded, the resolver is a
new one or is told of a change, or a snapshot is installed. -/
def invalidates (t : Turn) : Bool :=
  (t.event.bind Event.call?).any Call.empties || t.tellsResolver ||
    decide (t.after.store.loads ≠ t.before.store.loads)

/-- Whether a call is made while something else is under way. -/
def isReentrant (t : Turn) : Bool :=
  (t.event.bind Event.call?).isSome && !t.before.frames.isEmpty

end Turn

/-! ### Stretches -/

/-- The logins whose roles the directory is asked for, in order. -/
def lookUps (ts : List Turn) : List String := ts.filterMap Turn.lookUp?

/-- The logins that queries are made about, or that are to be warmed up. -/
def concerned (ts : List Turn) : List String := ts.flatMap Turn.concerns

/-- The roles that the directory reports. -/
def reports (ts : List Turn) : List (String × NameSet) := ts.filterMap Turn.report?

/-- Turns in a row that are all that happens from one that invalidates, or from the beginning, until
another one does or the turns end. -/
structure IsStretch (all ts : List Turn) : Prop where
  within : ∃ past rest, all = past ++ ts ++ rest ∧
    (past = [] ∨ ∃ t, ts.head? = some t ∧ t.invalidates = true)
  calm : ∀ t ∈ ts.tail, t.invalidates = false

/-- What an effective cache comes to in a stretch. -/
structure Effective (ts : List Turn) : Prop where
  /-- The directory is asked for the roles of a login once at most. -/
  once : (lookUps ts).Nodup
  /-- A login has the same actions whenever they are asked for. -/
  alike : ∀ t ∈ ts, ∀ t' ∈ ts, ∀ login actions actions',
    t.answer? = some (.effectiveActions login, .actions (.ok actions)) →
    t'.answer? = some (.effectiveActions login, .actions (.ok actions')) → actions = actions'
  /-- When a query has succeeded, all the logins that there have been so far are cached, and no
  others. -/
  counted : ∀ past t, past ++ [t] <+: ts → t.Succeeds →
    t.after.cachedLogins = (concerned (past ++ [t])).toFinset.card
  /-- A query that succeeds is answered as the configuration in force says for roles that were
  reported in the stretch. -/
  current : ∀ past t, past ++ [t] <+: ts → t.Succeeds → ∀ c a login, t.answer? = some (c, a) →
    c.strict.subject? = some login → ∃ S roles, t.after.store.resident = some S ∧
      (login, roles) ∈ reports (past ++ [t]) ∧ S.configuration.answer? roles c.strict = some a

/-- What is left of a stretch in a turn. -/
def leftOf (ts : List Turn) (t : Turn) : List Turn := if t.invalidates then [] else ts

/-- The stretch after one more turn. -/
def nextStretch (ts : List Turn) (t : Turn) : List Turn := leftOf ts t ++ [t]

section Lists

variable {ts ts' all : List Turn} {t : Turn}

theorem lookUps_concat : lookUps (ts ++ [t]) = lookUps ts ++ t.lookUp?.toList := by
  rw [lookUps, List.filterMap_append]
  cases h : t.lookUp? <;> simp [lookUps, h]

theorem concerned_concat : concerned (ts ++ [t]) = concerned ts ++ t.concerns := by
  simp [concerned]

theorem reports_concat : reports (ts ++ [t]) = reports ts ++ t.report?.toList := by
  rw [reports, List.filterMap_append]
  cases h : t.report? <;> simp [reports, h]

/-- As long as nothing is invalidated, the stretch only becomes longer. -/
theorem foldl_nextStretch (hcalm : ∀ t ∈ ts', t.invalidates = false) :
    ts'.foldl nextStretch ts = ts ++ ts' := by
  induction ts' generalizing ts with
  | nil => exact (List.append_nil ts).symm
  | cons t ts' ih =>
    obtain ⟨ht, hrest⟩ := List.forall_mem_cons.1 hcalm
    have hnext : nextStretch ts t = ts ++ [t] := by simp [nextStretch, leftOf, ht]
    rw [List.foldl_cons, hnext, ih hrest, List.append_assoc, List.singleton_append]

/-- A stretch is the one that is under way after some of the turns. -/
theorem IsStretch.exists_take (h : IsStretch all ts) :
    ∃ n, (all.take n).foldl nextStretch [] = ts := by
  obtain ⟨past, rest, rfl, hbegins⟩ := h.within
  refine ⟨(past ++ ts).length, ?_⟩
  rw [List.take_left, List.foldl_append]
  cases ts with
  | nil =>
    obtain rfl : past = [] := by simpa using hbegins
    rfl
  | cons t ts =>
    have hcalm : ∀ t' ∈ ts, t'.invalidates = false := h.calm
    have hfirst : nextStretch (past.foldl nextStretch []) t = [t] := by
      rcases hbegins with rfl | ⟨t', ht', hinvalidates⟩
      · simp [nextStretch, leftOf]
      · obtain rfl : t = t' := Option.some.inj ht'
        simp [nextStretch, leftOf, hinvalidates]
    rw [List.foldl_cons, hfirst, foldl_nextStretch hcalm, List.singleton_append]

/-- Nothing has to be seen to in a turn that asks for no roles and in which no query succeeds. -/
theorem Effective.concat_of_silent (h : Effective ts) (hlookUp : t.lookUp? = none)
    (hfails : ¬t.Succeeds) : Effective (ts ++ [t]) := by
  have hold : ∀ {past t'}, past ++ [t'] <+: ts ++ [t] → t'.Succeeds → past ++ [t'] <+: ts := by
    intro past t' hprefix hsucceeds
    rcases List.prefix_concat_iff.1 hprefix with heq | hprefix
    · obtain ⟨-, rfl⟩ := List.append_inj' heq rfl |>.imp_right List.singleton_inj.1
      exact absurd hsucceeds hfails
    · exact hprefix
  have hmem : ∀ {t' login actions}, t' ∈ ts ++ [t] →
      t'.answer? = some (.effectiveActions login, .actions (.ok actions)) → t' ∈ ts := by
    intro t' login actions ht' hanswer
    rcases List.mem_append.1 ht' with ht' | ht'
    · exact ht'
    · obtain rfl := List.mem_singleton.1 ht'
      exact absurd (.listed hanswer) hfails
  constructor
  · rw [lookUps_concat, hlookUp]
    simpa using h.once
  · intro t₁ ht₁ t₂ ht₂ login actions actions' h₁ h₂
    exact h.alike t₁ (hmem ht₁ h₁) t₂ (hmem ht₂ h₂) login actions actions' h₁ h₂
  · exact fun past t' hprefix hsucceeds ↦ h.counted past t' (hold hprefix hsucceeds) hsucceeds
  · exact fun past t' hprefix hsucceeds ↦ h.current past t' (hold hprefix hsucceeds) hsucceeds

/-- Nothing is asked for in a stretch that has not begun. -/
theorem effective_nil : Effective [] where
  once := List.nodup_nil
  alike _ ht := absurd ht List.not_mem_nil
  counted _ _ hprefix := by simpa using hprefix.length_le
  current _ _ hprefix := by simpa using hprefix.length_le

end Lists

/-! ### Sessions -/

namespace Session

variable {m : Type → Type} [Monad m] {W : Type} (ρ : Runner m W) (d : Documents m)

/-- What happens in a move. -/
def turn (s : Session W) : Move W → Turn
  | .outside _ => ⟨none, none, .nothing, s.engine, s.engine⟩
  | .event ev =>
    let o := (ρ.run (s.engine.step d ev) s.world).1
    ⟨some ev, (s.waiting ev).head?.map (·.1), o.1, s.engine, o.2⟩

/-- What happens in a sequence of moves. -/
def turns (s : Session W) : List (Move W) → List Turn
  | [] => []
  | mv :: moves => s.turn ρ d mv :: turns (s.move ρ d mv) moves

/-- The turns of the first few moves are the first few turns. -/
theorem turns_take (s : Session W) (moves : List (Move W)) (n : Nat) :
    s.turns ρ d (moves.take n) = (s.turns ρ d moves).take n := by
  induction moves generalizing s n with
  | nil => simp [turns]
  | cons mv moves ih =>
    cases n with
    | zero => rfl
    | succ n => exact congrArg (_ :: ·) (ih (s.move ρ d mv) n)

end Session

end LayeredRights
