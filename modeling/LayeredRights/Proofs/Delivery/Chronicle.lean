import LayeredRights.Proofs.Delivery.Turns
import LayeredRights.Proofs.Resolver.Session

/-!
# Chronicles of a session

What listeners are told is not to be seen of the moments of a session, and neither is what the world
was like at them. A `Chronicle` keeps both beside the session. A `Telling` is what one listener was
told; it belongs to the call that is innermost when the engine asks for it, and is known by the
moment at which that call was made. No frame of the engine is looked at for this.

With that, `Announced` says what a call may do to the listeners until it is answered. A commit that
succeeds and loads, a reload that succeeds, and a delivery of its own are told to the audience that
was there when the call was made, turn by turn, and to nobody else. Everything else is told to
nobody.

What is told belongs to a call and not to a move, because between two turns of one delivery there
may be any number of other deliveries, for calls that listeners make. They all tell listeners, and
only `Telling.first` says which of them a listener was told by. So the list of everything that was
told is never looked at as a whole. `tellingsFor` picks out one call, and a move adds to what was
told for one call at most (`tellingsFor_record`, `Chronicle.continues_record`).

`Announced` is about calls that have been answered. It is proved of each when it is answered and is
about moments that have been, so it goes on holding (`Announced.later`).
-/

namespace LayeredRights

/-! ### What listeners are told -/

/-- A listener was told of a snapshot, for the sake of the call made at moment `first`. -/
structure Telling where
  first : Nat
  moment : Nat
  key : Nat
  snapshot : Snapshot
  deriving DecidableEq, Repr

/-- Those that were told for the sake of the call made at moment `first`. -/
def tellingsFor (ts : List Telling) (first : Nat) : List Telling := ts.filter (·.first = first)

/-- A listener told of a snapshot `S`, from the moment and the key. -/
def tellingOf (first : Nat) (S : Snapshot) (t : Nat × Nat) : Telling := ⟨first, t.1, t.2, S⟩

section Tellings

variable {ts ts' : List Telling} {t : Telling} {first : Nat}

theorem tellingsFor_append : tellingsFor (ts ++ ts') first =
    tellingsFor ts first ++ tellingsFor ts' first :=
  List.filter_append ..

theorem tellingsFor_eq_nil (h : ∀ t ∈ ts, t.first ≠ first) : tellingsFor ts first = [] := by
  rw [tellingsFor, List.filter_eq_nil_iff]
  intro t ht
  simpa using h t ht

end Tellings

/-- What an output tells a listener, when it comes at a moment for the sake of a call. -/
def Output.telling? (first moment : Nat) : Output → Option Telling
  | .asked (.tell key S) => some ⟨first, moment, key, S⟩
  | _ => none

namespace Session

variable {W : Type}

/-- The calls that wait for an answer while an event is being taken, innermost first. -/
def waiting (s : Session W) (ev : Event) : List (Call × Nat) :=
  (ev.call?.map fun c ↦ (c, s.moments.length)).toList ++ s.pending

/-- All calls, those that wait and those that have been answered, with the moments at which they
were made. -/
def calls (s : Session W) : List (Call × Nat) :=
  s.pending ++ s.exchanges.map fun x ↦ (x.call, x.first)

/-- What a listener is told in a move, for the sake of the innermost call. -/
def telling? (s : Session W) (ev : Event) (out : Output) : Option Telling :=
  (s.waiting ev).head?.bind fun p ↦ out.telling? p.2 s.moments.length

section Record

variable {s : Session W} {ev : Event} {out : Output} {e : Engine} {w : W}

/-- An event adds one moment, with the engine after it. -/
@[simp] theorem moments_record : (s.record ev out e w).moments =
    s.moments ++ [⟨ev.call?, s.engine.reported? ev, e⟩] := by
  simp only [record]
  split <;> rfl

@[simp] theorem engine_record : (s.record ev out e w).engine = e := by
  simp only [record]
  split <;> rfl

@[simp] theorem world_record : (s.record ev out e w).world = w := by
  simp only [record]
  split <;> rfl

/-- A call that is made is the innermost while it is being taken. -/
theorem waiting_of_call {c : Call} (hcall : ev.call? = some c) :
    s.waiting ev = (c, s.moments.length) :: s.pending := by
  simp [waiting, hcall]

/-- A reply serves the innermost of the calls that wait. -/
theorem waiting_of_reply (hcall : ev.call? = none) : s.waiting ev = s.pending := by
  simp [waiting, hcall]

/-- An event answers the innermost call, or it answers none. -/
theorem record_cases (s : Session W) (ev : Event) (out : Output) (e : Engine) (w : W) :
    (s.record ev out e w).exchanges = s.exchanges ∧
        (s.record ev out e w).pending = s.waiting ev ∧
        (∀ a, out = .answered a → s.waiting ev = []) ∨
      ∃ c first rest a, out = .answered a ∧ s.waiting ev = (c, first) :: rest ∧
        (s.record ev out e w).exchanges = s.exchanges ++ [⟨c, first, s.moments.length, a⟩] ∧
        (s.record ev out e w).pending = rest := by
  cases out with
  | asked r => exact .inl ⟨rfl, rfl, nofun⟩
  | nothing => exact .inl ⟨rfl, rfl, nofun⟩
  | answered a =>
    cases h : s.waiting ev with
    | nil =>
      unfold waiting at h
      simp [record, h]
    | cons p rest =>
      refine .inr ⟨p.1, p.2, rest, a, rfl, rfl, ?_⟩
      rw [record_of_answered h]
      exact ⟨rfl, rfl⟩

theorem waiting_append : s.waiting ev ++ s.exchanges.map (fun x ↦ (x.call, x.first)) =
    (ev.call?.map fun c ↦ (c, s.moments.length)).toList ++ s.calls :=
  List.append_assoc ..

/-- No call is lost or made twice. -/
theorem calls_record_perm : (s.record ev out e w).calls.Perm
    (s.waiting ev ++ s.exchanges.map fun x ↦ (x.call, x.first)) := by
  cases out with
  | asked r => exact .refl _
  | nothing => exact .refl _
  | answered a =>
    cases h : s.waiting ev with
    | nil =>
      unfold waiting at h
      simp only [record, h, calls]
      exact .refl _
    | cons p rest =>
      rw [record_of_answered h, calls, List.map_append, ← List.append_assoc]
      exact List.perm_append_singleton p _

end Record

end Session

/-- A session, with what listeners were told and with the engine and the world after each moment,
both oldest first. -/
structure Chronicle (W : Type) where
  session : Session W
  states : List (Engine × W)
  tellings : List Telling := []

namespace Chronicle

variable {m : Type → Type} [Monad m] {W : Type}

/-- The chronicle of a session in which nothing has happened. -/
def fresh (editAction : String) (w : W) : Chronicle W :=
  { session := .fresh editAction w, states := [(.fresh editAction, w)] }

/-- The chronicle after an event and what came of it. -/
def record (b : Chronicle W) (ev : Event) (out : Output) (e : Engine) (w : W) : Chronicle W where
  session := b.session.record ev out e w
  states := b.states ++ [(e, w)]
  tellings := b.tellings ++ (b.session.telling? ev out).toList

/-- The chronicle after one more move. -/
def move (ρ : Runner m W) (d : Documents m) (b : Chronicle W) : Move W → Chronicle W
  | .outside edit =>
    { b with
      session := b.session.move ρ d (.outside edit)
      states := b.states ++ [(b.session.engine, edit b.session.world)] }
  | .event ev =>
    match ρ.run (b.session.engine.step d ev) b.session.world with
    | ((out, e), w) => b.record ev out e w

/-- The chronicle after a sequence of moves. -/
def run (ρ : Runner m W) (d : Documents m) (b : Chronicle W) (moves : List (Move W)) :
    Chronicle W :=
  moves.foldl (Chronicle.move ρ d) b

/-- A chronicle is about the session of the same moves. -/
theorem session_move (ρ : Runner m W) (d : Documents m) (b : Chronicle W) (mv : Move W) :
    (b.move ρ d mv).session = b.session.move ρ d mv := by
  cases mv with
  | outside edit => rfl
  | event ev => rfl

/-- The engine and the world before and after the call that was made at moment `first`. -/
def Around (b : Chronicle W) (first : Nat) (e : Engine) (w : W) (e' : Engine) (w' : W) : Prop :=
  ∃ k, first = k + 1 ∧ b.states[k]? = some (e, w) ∧ b.states[first]? = some (e', w')

end Chronicle

/-! ### What a call may tell -/

/-- Those to whom a delivery is due that begins now, in their order. -/
def Engine.audience (e : Engine) : List Registration := e.registry.registrations.filter e.isAlive

/-- The calls that can tell listeners anything. -/
def Call.announces : Call → Bool
  | .update _ | .reload | .announce _ => true
  | _ => false

/-- What was told for the sake of the call made at moment `first` is the snapshot `S`, to those
whose turn it was among the registrations `rs`, who have all had their turns at moment `last`. -/
def Chronicle.Delivered {W : Type} (b : Chronicle W) (first last : Nat) (S : Snapshot)
    (rs : List Registration) : Prop :=
  ∃ told, Turns b.session.moments first rs told last [] ∧
    tellingsFor b.tellings first = told.map (tellingOf first S)

section Announced

variable {m : Type → Type} [Monad m] {W : Type} (ρ : Runner m W) (d : Documents m)
  (b : Chronicle W)

/-- What a call has told until it is answered, and what it is answered then. Where nothing at all is
told, a commit or a reload is answered at once. -/
inductive Announced : Exchange → Prop
  | silent {x : Exchange} (hc : x.call.announces = false)
      (hnone : tellingsFor b.tellings x.first = []) : Announced x
  | updateFailed {c : Configuration} {first : Nat} {e e' : Engine} {w w' : W} {err : RightsError}
      (hat : b.Around first e w e' w') (hcommit : Commits ρ d c e.store w (.error err) e'.store w')
      (hnone : tellingsFor b.tellings first = []) :
      Announced ⟨.update c, first, first, .updated (.error err)⟩
  | updateUnloaded {c : Configuration} {first : Nat} {e e' : Engine} {w w' : W}
      (hat : b.Around first e w e' w') (hcommit : Commits ρ d c e.store w (.ok none) e'.store w')
      (hnone : tellingsFor b.tellings first = []) :
      Announced ⟨.update c, first, first, .updated (.ok ())⟩
  | updated {c : Configuration} {first last : Nat} {e e' : Engine} {w w' : W} {S : Snapshot}
      (hat : b.Around first e w e' w')
      (hcommit : Commits ρ d c e.store w (.ok (some S)) e'.store w')
      (hround : b.Delivered first last S e.audience) :
      Announced ⟨.update c, first, last, .updated (.ok ())⟩
  | reloadFailed {first : Nat} {e e' : Engine} {w w' : W} {err : RightsError}
      (hat : b.Around first e w e' w') (hreload : Reloads ρ d e.store w (.error err) e'.store w')
      (hnone : tellingsFor b.tellings first = []) :
      Announced ⟨.reload, first, first, .snapshot (.error err)⟩
  | reloaded {first last : Nat} {e e' : Engine} {w w' : W} {S : Snapshot}
      (hat : b.Around first e w e' w') (hreload : Reloads ρ d e.store w (.ok S) e'.store w')
      (hround : b.Delivered first last S e.audience) :
      Announced ⟨.reload, first, last, .snapshot (.ok S)⟩
  | announced {first last n : Nat} {e e' : Engine} {w w' : W} {S : Snapshot}
      (hat : b.Around first e w e' w') (hround : b.Delivered first last S e.audience) :
      Announced ⟨.announce S, first, last, .delivered n⟩

end Announced

/-! ### What has been stays so -/

/-- The chronicle `b'` goes on from `b`, with nothing more told for the sake of the call made at
moment `first`. -/
structure Chronicle.Continues {W : Type} (b b' : Chronicle W) (first : Nat) : Prop where
  moments : b.session.moments <+: b'.session.moments
  states : b.states <+: b'.states
  tellings : tellingsFor b'.tellings first = tellingsFor b.tellings first

/-- The calls made up to the next moment. -/
theorem exists_call_append {h : List Moment} {now : Moment} {c : Call} {first : Nat} :
    (∃ m, (h ++ [now])[first]? = some m ∧ m.call = some c) ↔
      (now.call = some c ∧ first = h.length) ∨ ∃ m, h[first]? = some m ∧ m.call = some c := by
  constructor
  · rintro ⟨m, hm, hcall⟩
    rcases Nat.lt_or_ge first h.length with hlt | hge
    · exact .inr ⟨m, (List.getElem?_append_left hlt).symm.trans hm, hcall⟩
    · rw [List.getElem?_append_right hge, List.getElem?_singleton] at hm
      obtain ⟨hzero, ⟨rfl⟩⟩ := (Option.ite_none_right_eq_some ..).1 hm
      exact .inl ⟨hcall, Nat.le_antisymm (Nat.sub_eq_zero_iff_le.1 hzero) hge⟩
  · rintro (⟨hcall, rfl⟩ | ⟨m, hm, hcall⟩)
    · exact ⟨now, List.getElem?_concat_length, hcall⟩
    · exact ⟨m, getElem?_of_begin ⟨_, rfl⟩ hm, hcall⟩

section Record

variable {W : Type} {b : Chronicle W} {ev : Event} {out : Output} {e : Engine} {w : W} {first : Nat}

/-- What an output tells, it tells for the call that it comes for. -/
theorem Output.first_of_mem_telling? {moment : Nat} {t : Telling}
    (ht : t ∈ out.telling? first moment) : t.first = first := by
  unfold Output.telling? at ht
  split at ht
  · exact (Option.some.inj ht) ▸ rfl
  · cases ht

/-- What a move tells is added to what was told for the call it serves. -/
theorem tellingsFor_record {c : Call} {rest : List (Call × Nat)}
    (h : b.session.waiting ev = (c, first) :: rest) :
    tellingsFor (b.record ev out e w).tellings first =
      tellingsFor b.tellings first ++ (out.telling? first b.session.moments.length).toList := by
  have htold : b.session.telling? ev out = out.telling? first b.session.moments.length := by
    rw [Session.telling?, h]
    rfl
  rw [Chronicle.record, tellingsFor_append, htold]
  congr 1
  refine List.filter_eq_self.2 fun t ht ↦ ?_
  exact decide_eq_true (Output.first_of_mem_telling? (Option.mem_toList.1 ht))

/-- What is told is told for the sake of the innermost call. -/
theorem Session.exists_of_mem_telling? {s : Session W} {t : Telling} (ht : t ∈ s.telling? ev out) :
    ∃ p ∈ (s.waiting ev).head?, t.first = p.2 := by
  obtain ⟨p, hp, ht⟩ := Option.mem_bind_iff.1 ht
  exact ⟨p, hp, Output.first_of_mem_telling? ht⟩

/-- A move tells nothing for the sake of a call that it does not serve. -/
theorem Chronicle.continues_record (h : ∀ t ∈ b.session.telling? ev out, t.first ≠ first) :
    b.Continues (b.record ev out e w) first where
  moments := ⟨_, Session.moments_record.symm⟩
  states := ⟨_, rfl⟩
  tellings := by
    have hnone : tellingsFor (b.session.telling? ev out).toList first = [] :=
      tellingsFor_eq_nil fun t ht ↦ h t (Option.mem_toList.1 ht)
    rw [Chronicle.record, tellingsFor_append, hnone, List.append_nil]

end Record

section Continues

variable {m : Type → Type} [Monad m] {W : Type} {ρ : Runner m W} {d : Documents m}
  {b b' : Chronicle W} {first : Nat}

theorem Chronicle.Around.later {e e' : Engine} {w w' : W} (h : b.Around first e w e' w')
    (hb : b.states <+: b'.states) : b'.Around first e w e' w' := by
  obtain ⟨k, hk, hbefore, hafter⟩ := h
  exact ⟨k, hk, getElem?_of_begin hb hbefore, getElem?_of_begin hb hafter⟩

theorem Chronicle.Delivered.later {last : Nat} {S : Snapshot} {rs : List Registration}
    (h : b.Delivered first last S rs) (hb : b.Continues b' first) :
    b'.Delivered first last S rs := by
  obtain ⟨told, hturns, htold⟩ := h
  obtain ⟨now, hnow⟩ := hb.moments
  exact ⟨told, hnow ▸ hturns.later now, hb.tellings.trans htold⟩

/-- **What a call has told is known for good** when nothing more is told for it. -/
theorem Announced.later {x : Exchange} (h : Announced ρ d b x) (hb : b.Continues b' x.first) :
    Announced ρ d b' x := by
  cases h with
  | silent hc hnone => exact .silent hc (hb.tellings.trans hnone)
  | updateFailed hat hcommit hnone =>
    exact .updateFailed (hat.later hb.states) hcommit (hb.tellings.trans hnone)
  | updateUnloaded hat hcommit hnone =>
    exact .updateUnloaded (hat.later hb.states) hcommit (hb.tellings.trans hnone)
  | updated hat hcommit hround =>
    exact .updated (hat.later hb.states) hcommit (hround.later hb)
  | reloadFailed hat hreload hnone =>
    exact .reloadFailed (hat.later hb.states) hreload (hb.tellings.trans hnone)
  | reloaded hat hreload hround =>
    exact .reloaded (hat.later hb.states) hreload (hround.later hb)
  | announced hat hround => exact .announced (hat.later hb.states) (hround.later hb)

end Continues

end LayeredRights
