import LayeredRights.Proofs.Delivery.Events

/-!
# Commits and reloads are announced

Over any session, each commit that succeeds and loads, and each reload that succeeds, is told once
to each listener that was registered and alive when the call was made and is still alive at its turn
(`Chronicle.orderly_run`). It makes no difference how listeners take it, and what they call
meanwhile: the calls of a listener are answered before it returns, and have rounds of their own.

The proof is an invariant of chronicles, `Chronicle.Kept`. What is known of a round between two
moves is known of the frame that waits for the listener told last (`Due`). One move serves one call.
Either it tells nobody and has nothing to do with a round (`settles_of_quiet`), or it goes on with
the round of that call, as far as the next listener or to the end (`settles_of_goes`).

The frames of the engine and the calls that wait are two stacks of one height, and `Kept.due`
relates them place by place. An event takes away what is on top of both or puts something on top.
Beneath that everything stays as it was, since nothing is told for the sake of a call that is not
served (`Due.later`), so that an event has to be looked at for the innermost call alone (`Served`).

How a listener takes what it is told (`Reaction`) goes into the number of those that have accepted
and into notices. Neither is part of the invariant, which is why the reactions make no difference to
it.
-/

namespace LayeredRights

/-! ### Rounds -/

section Rounds

variable {m : Type → Type} [Monad m] {W : Type} (ρ : Runner m W) (d : Documents m)

/-- The call, made in a state of engine and world that it has left as another, begins a round with a
snapshot on an occasion. -/
inductive Begins (e : Engine) (w : W) (e' : Engine) (w' : W) : Call → Occasion → Snapshot → Prop
  | updated {c : Configuration} {S : Snapshot}
      (hcommit : Commits ρ d c e.store w (.ok (some S)) e'.store w') :
      Begins e w e' w' (.update c) .updated S
  | reloaded {S : Snapshot} (hreload : Reloads ρ d e.store w (.ok S) e'.store w') :
      Begins e w e' w' .reload .reloaded S
  | announced {S : Snapshot} : Begins e w e' w' (.announce S) .announced S

/-- A frame is what a call waits for that has told what it should. For a listener that is being
told, the round of the call has come to its registration, and it was alive then. -/
inductive Due (b : Chronicle W) : Frame → Call × Nat → Prop
  | silent {f : Frame} {c : Call} {first : Nat} (hf : ∀ r round, f ≠ .telling r round)
      (hc : c.announces = false) (hnone : tellingsFor b.tellings first = []) : Due b f (c, first)
  | telling {r : Registration} {round : Round} {c : Call} {first k key : Nat} {e e' : Engine}
      {w w' : W} {told : List (Nat × Nat)} {now : Moment} (hat : b.Around first e w e' w')
      (hbegins : Begins ρ d e w e' w' c round.occasion round.snapshot)
      (hturns : Turns b.session.moments first e.audience told k (r :: round.rest))
      (htold : tellingsFor b.tellings first =
        (told ++ [(k, key)]).map (tellingOf first round.snapshot))
      (hnow : b.session.moments[k]? = some now) (halive : now.engine.isAlive r = true)
      (hsub : r.subscriber = .listener key) : Due b (.telling r round) (c, first)

/-- What a move comes to, at moment `last`, for the call it serves. The frames around that call
are `fs`. -/
def Settles (b : Chronicle W) (fs : List Frame) (c : Call) (first last : Nat)
    (o : Output × Engine) : Prop :=
  match o.1 with
  | .answered a => o.2.frames = fs ∧ Announced ρ d b ⟨c, first, last, a⟩
  | .asked _ => ∃ f, o.2.frames = f :: fs ∧ Due ρ d b f (c, first)
  | .nothing => False

variable {ρ d} {b b' : Chronicle W} {fs : List Frame} {c : Call} {first last : Nat}

/-- A frame goes on waiting for what it waits for, unless something is told for its call. -/
theorem Due.later {f : Frame} {p : Call × Nat} (h : Due ρ d b f p) (hb : b.Continues b' p.2) :
    Due ρ d b' f p := by
  cases h with
  | silent hf hc hnone => exact .silent hf hc (hb.tellings.trans hnone)
  | telling hat hbegins hturns htold hnow halive hsub =>
    have hturns' := hb.moments.choose_spec ▸ hturns.later hb.moments.choose
    exact .telling (hat.later hb.states) hbegins hturns' (hb.tellings.trans htold)
      (getElem?_of_begin hb.moments hnow) halive hsub

/-- So do all frames around the call that is served. -/
theorem Due.forall_later {rest : List (Call × Nat)} (h : List.Forall₂ (Due ρ d b) fs rest)
    (hb : ∀ p ∈ rest, b.Continues b' p.2) : List.Forall₂ (Due ρ d b') fs rest := by
  induction h with
  | nil => exact .nil
  | cons hdue _ ih =>
    obtain ⟨hp, hrest⟩ := List.forall_mem_cons.1 hb
    exact .cons (hdue.later hp) (ih hrest)

/-- The answer to a call whose round has ended, however many have accepted. -/
theorem Begins.announced_of_delivered {e e' : Engine} {w w' : W} {round : Round}
    (h : Begins ρ d e w e' w' c round.occasion round.snapshot) (hat : b.Around first e w e' w')
    (hround : b.Delivered first last round.snapshot e.audience) (n : Nat) :
    Announced ρ d b ⟨c, first, last, { round with accepted := n }.answer⟩ := by
  obtain ⟨S, occasion, rest, _⟩ := round
  cases h with
  | updated hcommit => exact .updated hat hcommit hround
  | reloaded hreload => exact .reloaded hat hreload hround
  | announced => exact .announced hat hround

/-- A call that cannot announce anything settles what it should by telling nobody. -/
theorem settles_of_quiet {o : Output × Engine} (h : Quiet fs o) (hc : c.announces = false)
    (hnone : tellingsFor b.tellings first = []) : Settles ρ d b fs c first last o := by
  cases h with
  | answered hframes => exact ⟨hframes, .silent hc hnone⟩
  | lookingUp hframes => exact ⟨_, hframes, .silent (fun _ _ ↦ nofun) hc hnone⟩
  | listing hframes => exact ⟨_, hframes, .silent (fun _ _ ↦ nofun) hc hnone⟩

/-- **Going on with a round** comes to its end, or to the next listener. The chronicle has what was
told before and what the move tells. -/
theorem settles_of_goes {e e' : Engine} {w w' : W} {round : Round} {rs : List Registration}
    {told : List (Nat × Nat)} {now : Moment} {out : Output} (hat : b.Around first e w e' w')
    (hbegins : Begins ρ d e w e' w' c round.occasion round.snapshot)
    (hnow : b.session.moments[last]? = some now)
    (hturns : Turns b.session.moments first e.audience told last rs)
    (htold : tellingsFor b.tellings first =
      told.map (tellingOf first round.snapshot) ++ (out.telling? first last).toList)
    (hgoes : now.engine.Goes fs round rs out) :
    Settles ρ d b fs c first last (out, now.engine) := by
  cases hgoes with
  | ended n hpass hframes =>
    have hpassed := Turns.of_passes hnow hpass []
    rw [List.append_nil] at hpassed
    have hround : b.Delivered first last round.snapshot e.audience :=
      ⟨told, by simpa using hturns.trans hpassed, htold.trans (List.append_nil _)⟩
    exact ⟨hframes, hbegins.announced_of_delivered hat hround n⟩
  | @told before after r key n hrs hpass halive hsub hframes =>
    have hpassed := hturns.trans (hrs ▸ Turns.of_passes hnow hpass (r :: after))
    rw [List.append_nil] at hpassed
    refine ⟨_, hframes, .telling hat hbegins hpassed ?_ hnow halive hsub⟩
    rw [htold, List.map_append]
    rfl

end Rounds

/-! ### The invariant of chronicles -/

namespace Chronicle

variable {m : Type → Type} [Monad m] {W : Type} {ρ : Runner m W} {d : Documents m} {b : Chronicle W}

/-- What is so of a chronicle at any time. -/
structure Kept (ρ : Runner m W) (d : Documents m) (b : Chronicle W) : Prop where
  sound : b.session.Sound
  /-- The state after the last moment is the present one. -/
  latest : ∃ past, b.states = past ++ [(b.session.engine, b.session.world)] ∧
    past.length + 1 = b.session.moments.length
  due : List.Forall₂ (Due ρ d b) b.session.engine.frames b.session.pending
  calls : ∀ c first, (c, first) ∈ b.session.calls ↔
    ∃ m, b.session.moments[first]? = some m ∧ m.call = some c
  distinct : (b.session.calls.map (·.2)).Nodup
  accounted : ∀ t ∈ b.tellings, t.first ∈ b.session.calls.map (·.2)
  announced : ∀ x ∈ b.session.exchanges, Announced ρ d b x

theorem kept_fresh (editAction : String) (w : W) : Kept ρ d (fresh editAction w) where
  sound := Session.sound_fresh editAction w
  latest := ⟨[], rfl, rfl⟩
  due := .nil
  calls c first := by
    cases first <;> simp [fresh, Session.fresh, Session.calls]
  distinct := List.nodup_nil
  accounted _ h := absurd h List.not_mem_nil
  announced _ h := absurd h List.not_mem_nil

/-- What an event comes to: it calls for nothing, or serves the innermost of the calls that wait
when it has been taken. -/
inductive Served (ρ : Runner m W) (d : Documents m) (b : Chronicle W) (ev : Event) (out : Output)
    (e : Engine) (w : W) : Prop
  | nothing (hcall : ev.call? = none) (hout : out = .nothing)
      (hframes : e.frames = b.session.engine.frames)
  | call (c : Call) (first : Nat) (rest : List (Call × Nat)) (fs : List Frame)
      (hwaiting : b.session.waiting ev = (c, first) :: rest)
      (hrest : List.Forall₂ (Due ρ d b) fs rest)
      (hsettles : Settles ρ d (b.record ev out e w) fs c first b.session.moments.length (out, e))

namespace Kept

variable {ev : Event} {out : Output} {e : Engine} {w : W}

/-- Calls belong to moments that have been. -/
theorem lt_of_mem_calls (hk : b.Kept ρ d) {first : Nat} (h : first ∈ b.session.calls.map (·.2)) :
    first < b.session.moments.length := by
  obtain ⟨⟨c, first⟩, hmem, rfl⟩ := List.mem_map.1 h
  obtain ⟨m, hm, -⟩ := (hk.calls c first).1 hmem
  exact (List.getElem?_eq_some_iff.1 hm).1

/-- Nothing has been told yet for the sake of a call that is only being made. -/
theorem tellingsFor_eq_nil (hk : b.Kept ρ d) :
    tellingsFor b.tellings b.session.moments.length = [] :=
  LayeredRights.tellingsFor_eq_nil fun t ht ↦ Nat.ne_of_lt (hk.lt_of_mem_calls (hk.accounted t ht))

/-- The state before a move is the one after the last. -/
theorem around (hk : b.Kept ρ d) : (b.record ev out e w).Around b.session.moments.length
    b.session.engine b.session.world e w := by
  obtain ⟨past, hpast, hlength⟩ := hk.latest
  refine ⟨past.length, hlength.symm, ?_, ?_⟩
  · simp [record, hpast]
  · simp [record, hpast, ← hlength]

/-- The move that is being made is the last moment. -/
theorem getElem?_record : (b.record ev out e w).session.moments[b.session.moments.length]? =
    some ⟨ev.call?, b.session.engine.reported? ev, e⟩ := by
  simp [record]

/-- A round begins with the move that is the call. -/
theorem settles_announce (hk : b.Kept ρ d) {c : Call} {S : Snapshot} {occasion : Occasion}
    {s : Store} {w : W}
    (hannounce : Engine.announce { b.session.engine with store := s } S occasion = (out, e))
    (hbegins : e.store = s → Begins ρ d b.session.engine b.session.world e w c occasion S) :
    Settles ρ d (b.record (.call c) out e w) b.session.engine.frames c b.session.moments.length
      b.session.moments.length (out, e) := by
  let e₁ : Engine := { b.session.engine with store := s }
  let round : Round := { snapshot := S, occasion := occasion, rest := [] }
  have hdeliver : Engine.deliver { e₁ with registry := e₁.registry.prune e₁.isAlive } round
      b.session.engine.audience = (out, e) := hannounce
  have hgoes := Engine.goes_deliver { e₁ with registry := e₁.registry.prune e₁.isAlive } round
    b.session.engine.audience
  have hstore := Engine.store_deliver (e := { e₁ with registry := e₁.registry.prune e₁.isAlive })
    round b.session.engine.audience
  rw [hdeliver] at hgoes hstore
  have hbegins' : Begins ρ d b.session.engine b.session.world e w c round.occasion round.snapshot :=
    hbegins hstore
  have hturns : Turns (b.record (.call c) out e w).session.moments b.session.moments.length
      b.session.engine.audience [] b.session.moments.length b.session.engine.audience := .stay _ _
  have htold : tellingsFor (b.record (.call c) out e w).tellings b.session.moments.length =
      [].map (tellingOf b.session.moments.length round.snapshot) ++
        (out.telling? b.session.moments.length b.session.moments.length).toList := by
    rw [tellingsFor_record rfl, hk.tellingsFor_eq_nil]
    rfl
  exact settles_of_goes hk.around hbegins' getElem?_record hturns htold hgoes

/-- **A call settles what it should with the move that it is**, or waits for a frame from then on.
-/
theorem settles_call (hk : b.Kept ρ d) (c : Call)
    (hrun : ρ.run (b.session.engine.call d c) b.session.world = ((out, e), w)) :
    Settles ρ d (b.record (.call c) out e w) b.session.engine.frames c b.session.moments.length
      b.session.moments.length (out, e) := by
  have hnone : out.telling? b.session.moments.length b.session.moments.length = none →
      tellingsFor (b.record (.call c) out e w).tellings b.session.moments.length = [] := by
    intro hout
    rw [tellingsFor_record rfl, hk.tellingsFor_eq_nil, hout]
    rfl
  cases hc : c.announces with
  | false =>
    have hquiet : Quiet b.session.engine.frames (out, e) := by
      have h := quiet_call (e := b.session.engine) ρ d hc b.session.world
      rwa [hrun] at h
    exact settles_of_quiet hquiet hc (hnone (by cases hquiet <;> rfl))
  | true =>
    cases c with
    | update candidate =>
      rw [Engine.call, ρ.run_bind, ρ.run_withStore] at hrun
      rcases hperform : ρ.perform (Store.commit d candidate) b.session.engine.store
        b.session.world with ⟨r, s, w'⟩
      have hcommit := ρ.commits_of_perform d hperform
      rw [hperform] at hrun
      rcases r with err | _ | S
      · simp only [ρ.run_pure] at hrun
        cases hrun
        exact ⟨rfl, .updateFailed hk.around hcommit (hnone rfl)⟩
      · simp only [ρ.run_pure] at hrun
        cases hrun
        exact ⟨rfl, .updateUnloaded hk.around hcommit (hnone rfl)⟩
      · simp only [ρ.run_pure, Prod.mk.injEq] at hrun
        obtain ⟨hannounce, rfl⟩ := hrun
        exact hk.settles_announce hannounce fun hstore ↦ .updated (hstore ▸ hcommit)
    | reload =>
      rw [Engine.call, ρ.run_bind, ρ.run_withStore] at hrun
      rcases hperform : ρ.perform (Store.reload d) b.session.engine.store b.session.world
        with ⟨r, s, w'⟩
      have hreload := ρ.reloads_of_perform d hperform
      rw [hperform] at hrun
      cases r with
      | error err =>
        simp only [ρ.run_pure] at hrun
        cases hrun
        exact ⟨rfl, .reloadFailed hk.around hreload (hnone rfl)⟩
      | ok S =>
        simp only [ρ.run_pure, Prod.mk.injEq] at hrun
        obtain ⟨hannounce, rfl⟩ := hrun
        exact hk.settles_announce hannounce fun hstore ↦ .reloaded (hstore ▸ hreload)
    | announce S =>
      rw [Engine.call, ρ.run_pure, Prod.mk.injEq] at hrun
      exact hk.settles_announce (s := b.session.engine.store) hrun.1 fun _ ↦ .announced
    | _ => cases hc

/-- The innermost frame is what the innermost call waits for. -/
theorem due_of_frames_eq (hk : b.Kept ρ d) {f : Frame} {fs : List Frame}
    (hframes : b.session.engine.frames = f :: fs) : ∃ p rest, Due ρ d b f p ∧
      List.Forall₂ (Due ρ d b) fs rest ∧ b.session.pending = p :: rest := by
  have hdue := hk.due
  rw [hframes, List.forall₂_cons_left_iff] at hdue
  obtain ⟨p, rest, hp, hrest, hpending⟩ := hdue
  exact ⟨p, rest, hp, hrest, hpending⟩

/-- A call that tells nobody goes on doing so when it is replied to. -/
theorem served_of_quiet {f : Frame} {fs : List Frame} {p : Call × Nat} {rest : List (Call × Nat)}
    (hcall : ev.call? = none) (hpending : b.session.pending = p :: rest)
    (hrest : List.Forall₂ (Due ρ d b) fs rest) (hdue : Due ρ d b f p)
    (hf : ∀ r round, f ≠ .telling r round) (hquiet : Quiet fs (out, e)) :
    Served ρ d b ev out e w := by
  cases hdue with
  | telling => exact absurd rfl (hf _ _)
  | @silent f c first _ hc hnone =>
    have hwaiting : b.session.waiting ev = (c, first) :: rest :=
      (Session.waiting_of_reply hcall).trans hpending
    have hsilent : out.telling? first b.session.moments.length = none := by
      cases hquiet <;> rfl
    refine .call c first rest fs hwaiting hrest (settles_of_quiet hquiet hc ?_)
    rw [tellingsFor_record hwaiting, hnone, hsilent]
    rfl

/-- A round goes on when the listener that is being told has returned. -/
theorem served_told (hk : b.Kept ρ d) {r : Registration} {round : Round} {fs : List Frame}
    (hframes : b.session.engine.frames = .telling r round :: fs) {reaction : Reaction} {n : Nat}
    {e₁ : Engine} (hfs : e₁.frames = fs)
    (hdeliver : e₁.deliver { round with accepted := n } round.rest = (out, e)) :
    Served ρ d b (.told reaction) out e w := by
  obtain ⟨p, rest, hdue, hrest, hpending⟩ := hk.due_of_frames_eq hframes
  have hgoes := e₁.goes_deliver { round with accepted := n } round.rest
  rw [hdeliver, hfs] at hgoes
  cases hdue with
  | silent hf => exact absurd rfl (hf r round)
  | @telling _ _ c first k key _ _ _ _ told now hat hbegins hturns htold hnow halive hsub =>
    have hwaiting : b.session.waiting (.told reaction) = (c, first) :: rest := hpending
    let b' := b.record (.told reaction) out e w
    have hmoments : b.session.moments <+: b'.session.moments := ⟨_, Session.moments_record.symm⟩
    have hlt : k < b.session.moments.length := (List.getElem?_eq_some_iff.1 hnow).1
    -- the turn of this listener ends at the present moment
    have hturns' : Turns b'.session.moments first _ (told ++ [(k, key)]) b.session.moments.length
        round.rest :=
      (hmoments.choose_spec ▸ hturns.later hmoments.choose).trans
        (.told (getElem?_of_begin hmoments hnow) halive hsub hlt (.stay _ _))
    have htold' : tellingsFor b'.tellings first =
        (told ++ [(k, key)]).map (tellingOf first round.snapshot) ++
          (out.telling? first b.session.moments.length).toList := by
      rw [tellingsFor_record hwaiting, htold]
    have hat' : b'.Around first _ _ _ _ := hat.later ⟨_, rfl⟩
    have hbegins' : Begins ρ d _ _ _ _ c { round with accepted := n }.occasion
        { round with accepted := n }.snapshot := hbegins
    exact .call c first rest fs hwaiting hrest
      (settles_of_goes hat' hbegins' getElem?_record hturns' htold' hgoes)

/-- **What one event comes to.** -/
theorem served (hk : b.Kept ρ d) (ev : Event)
    (hrun : ρ.run (b.session.engine.step d ev) b.session.world = ((out, e), w)) :
    Served ρ d b ev out e w := by
  have hcomes := hk.sound.comes (ρ := ρ) (d := d) ev b.session.world
  rw [hrun] at hcomes
  have hmade : ∀ {c}, ev.call? = some c → Served ρ d b ev out e w := by
    intro c hcall
    obtain rfl := Event.call?_eq_some_iff.1 hcall
    exact .call c b.session.moments.length b.session.pending b.session.engine.frames rfl hk.due
      (hk.settles_call c hrun)
  generalize ho : (out, e) = o at hcomes
  cases hcomes with
  | nothing hcall hframes =>
    obtain ⟨rfl, rfl⟩ := Prod.mk.inj ho
    exact .nothing hcall rfl hframes
  | called hcall => exact hmade hcall
  | begun _ hcall => exact hmade hcall
  | replied hcall hframes hf hquiet =>
    obtain ⟨p, rest, hdue, hrest, hpending⟩ := hk.due_of_frames_eq hframes
    exact served_of_quiet hcall hpending hrest hdue hf (ho ▸ hquiet)
  | resumed e₁ hev hframes hfs =>
    subst hev
    exact hk.served_told hframes hfs ho.symm

/-- The calls are still told apart by their moments. -/
theorem distinct_record (hk : b.Kept ρ d) :
    ((b.session.record ev out e w).calls.map (·.2)).Nodup := by
  rw [(Session.calls_record_perm.map _).nodup_iff, Session.waiting_append]
  cases hcall : ev.call? with
  | none => exact hk.distinct
  | some c =>
    have hnew : b.session.moments.length ∉ b.session.calls.map (·.2) := fun h ↦
      Nat.lt_irrefl _ (hk.lt_of_mem_calls h)
    exact List.nodup_cons.2 ⟨hnew, hk.distinct⟩

/-- The calls that have been answered or wait are those that were made, this one included. -/
theorem calls_record (hk : b.Kept ρ d) (c : Call) (first : Nat) :
    (c, first) ∈ (b.session.record ev out e w).calls ↔
      ∃ m, (b.session.record ev out e w).moments[first]? = some m ∧ m.call = some c := by
  rw [Session.calls_record_perm.mem_iff, Session.waiting_append, List.mem_append, hk.calls,
    Session.moments_record, exists_call_append]
  refine or_congr_left ?_
  cases ev.call? <;> simp [eq_comm]

/-- What this move tells is told for the sake of the call that it serves. -/
theorem accounted_record (hk : b.Kept ρ d) {t : Telling} (ht : t ∈ (b.record ev out e w).tellings) :
    t.first ∈ (b.session.record ev out e w).calls.map (·.2) := by
  rw [(Session.calls_record_perm.map _).mem_iff]
  rcases List.mem_append.1 ht with ht | ht
  · rw [Session.waiting_append, List.map_append]
    exact List.mem_append_right _ (hk.accounted t ht)
  · obtain ⟨p, hp, hfirst⟩ := Session.exists_of_mem_telling? (Option.mem_toList.1 ht)
    exact hfirst ▸ List.mem_map_of_mem (List.mem_append_left _ (List.mem_of_mem_head? hp))

theorem latest_record (hk : b.Kept ρ d) :
    ∃ past, (b.record ev out e w).states = past ++ [((b.record ev out e w).session.engine,
      (b.record ev out e w).session.world)] ∧
      past.length + 1 = (b.record ev out e w).session.moments.length := by
  obtain ⟨past, hpast, hlength⟩ := hk.latest
  exact ⟨b.states, by simp [record], by simp [record, hpast, hlength]⟩

/-- The call that a move serves has told what it should, and so have the calls around it and those
that have been answered, which the move does not touch. -/
theorem due_record (hk : b.Kept ρ d) (hserved : Served ρ d b ev out e w) :
    List.Forall₂ (Due ρ d (b.record ev out e w)) e.frames (b.session.record ev out e w).pending ∧
      ∀ x ∈ (b.session.record ev out e w).exchanges, Announced ρ d (b.record ev out e w) x := by
  cases hserved with
  | nothing hcall hout hframes =>
    subst hout
    have hsilent : b.session.telling? ev .nothing = none := by
      cases h : (b.session.waiting ev).head? <;> simp [Session.telling?, Output.telling?, h]
    have hb : ∀ first, b.Continues (b.record ev .nothing e w) first := fun first ↦
      continues_record fun t ht ↦ by simp [hsilent] at ht
    rw [Session.record_of_nothing hcall, hframes]
    exact ⟨Due.forall_later hk.due fun p _ ↦ hb p.2,
      fun x hx ↦ (hk.announced x hx).later (hb x.first)⟩
  | call c first rest fs hwaiting hrest hsettles =>
    -- nothing is told for the sake of any other call
    let others := rest ++ b.session.exchanges.map fun x ↦ (x.call, x.first)
    have hb : ∀ q ∈ others, b.Continues (b.record ev out e w) q.2 := by
      have hdistinct : (first :: others.map (·.2)).Nodup := by
        have h : ((b.session.record ev out e w).calls.map (·.2)).Nodup := hk.distinct_record
        rwa [(Session.calls_record_perm.map _).nodup_iff, hwaiting] at h
      intro q hq
      refine continues_record fun t ht ↦ ?_
      obtain ⟨p, hp, hfirst⟩ := Session.exists_of_mem_telling? ht
      rw [hwaiting] at hp
      obtain rfl : (c, first) = p := Option.some.inj hp
      intro heq
      have hfirst' : q.2 = first := heq.symm.trans hfirst
      exact (List.nodup_cons.1 hdistinct).1 (hfirst' ▸ List.mem_map_of_mem hq)
    have hrest' : List.Forall₂ (Due ρ d (b.record ev out e w)) fs rest :=
      Due.forall_later hrest fun p hp ↦ hb p (List.mem_append_left _ hp)
    have hold : ∀ x ∈ b.session.exchanges, Announced ρ d (b.record ev out e w) x := fun x hx ↦
      (hk.announced x hx).later
        (hb (x.call, x.first) (List.mem_append_right _ (List.mem_map.2 ⟨x, hx, rfl⟩)))
    cases out with
    | answered a =>
      obtain ⟨hframes, hannounced⟩ := hsettles
      rw [Session.record_of_answered hwaiting, show e.frames = fs from hframes]
      exact ⟨hrest', List.forall_mem_append.2 ⟨hold, List.forall_mem_singleton.2 hannounced⟩⟩
    | asked r =>
      obtain ⟨f, hframes, hdue⟩ := hsettles
      have hpending : (b.session.record ev (.asked r) e w).pending = (c, first) :: rest := hwaiting
      rw [hpending, show e.frames = f :: fs from hframes]
      exact ⟨.cons hdue hrest', hold⟩
    | nothing => exact hsettles.elim

end Kept

/-- **One move keeps a chronicle.** -/
theorem kept_move (hk : b.Kept ρ d) (mv : Move W) : (b.move ρ d mv).Kept ρ d := by
  have hsound : (b.move ρ d mv).session.Sound := by
    rw [session_move]
    exact Session.sound_move hk.sound mv
  cases mv with
  | outside edit =>
    obtain ⟨past, hpast, hlength⟩ := hk.latest
    have hb : ∀ first, b.Continues (b.move ρ d (.outside edit)) first := fun first ↦
      ⟨⟨_, rfl⟩, ⟨_, rfl⟩, rfl⟩
    refine ⟨hsound, ⟨b.states, rfl, ?_⟩, ?_, ?_, hk.distinct, hk.accounted, ?_⟩
    · simp [move, Session.move, hpast, hlength]
    · exact Due.forall_later hk.due fun p _ ↦ hb p.2
    · intro c first
      show (c, first) ∈ b.session.calls ↔ ∃ m, (b.session.moments ++ [_])[first]? = some m ∧ _
      rw [hk.calls, exists_call_append]
      simp
    · exact fun x hx ↦ (hk.announced x hx).later (hb x.first)
  | event ev =>
    rcases hrun : ρ.run (b.session.engine.step d ev) b.session.world with ⟨⟨out, e⟩, w⟩
    have hmove : b.move ρ d (.event ev) = b.record ev out e w := by rw [move, hrun]
    rw [hmove] at hsound ⊢
    obtain ⟨hdue, hannounced⟩ := hk.due_record (hk.served ev hrun)
    refine ⟨hsound, hk.latest_record, ?_, hk.calls_record, hk.distinct_record,
      fun _ ↦ hk.accounted_record, hannounced⟩
    show List.Forall₂ _ (b.session.record ev out e w).engine.frames _
    rw [Session.engine_record]
    exact hdue

/-- Any number of moves keeps it. -/
theorem kept_run (hk : b.Kept ρ d) (moves : List (Move W)) : (b.run ρ d moves).Kept ρ d := by
  induction moves generalizing b with
  | nil => exact hk
  | cons mv moves ih => exact ih (kept_move hk mv)

/-! ### Every session -/

/-- All deliveries of a session are as they should be: those of calls that have been answered, and
those of calls that wait, as far as they have come. A call has one delivery at most, and nobody is
told anything but in one of these. -/
structure Orderly (ρ : Runner m W) (d : Documents m) (b : Chronicle W) : Prop where
  answered : ∀ x ∈ b.session.exchanges, Announced ρ d b x
  waiting : List.Forall₂ (Due ρ d b) b.session.engine.frames b.session.pending
  /-- The calls that have been answered or wait are those that were made. -/
  calls : ∀ c first, (c, first) ∈ b.session.calls ↔
    ∃ m, b.session.moments[first]? = some m ∧ m.call = some c
  distinct : (b.session.calls.map (·.2)).Nodup
  accounted : ∀ t ∈ b.tellings, t.first ∈ b.session.calls.map (·.2)

/-- **Each commit is told once to each listener that is there**, and nothing else is told. -/
theorem orderly_run (ρ : Runner m W) (d : Documents m) (editAction : String) (w : W)
    (moves : List (Move W)) : ((fresh editAction w).run ρ d moves).Orderly ρ d := by
  have hk : ((fresh editAction w).run ρ d moves).Kept ρ d :=
    kept_run (kept_fresh editAction w) moves
  exact ⟨hk.announced, hk.due, hk.calls, hk.distinct, hk.accounted⟩

/-- The first of two listeners reloads while it is being told, so it is told again. The second is
told of both snapshots, of the newer one first. -/
example :
    let b := (fresh "edit" Session.office).run (.stateful _) MemoryDocuments.documents
      [.event (.call (.subscribe 0)), .event (.call (.subscribe 1)), .event (.call .reload),
        .event (.call .reload), .event (.told .accepted), .event (.told .failed),
        .event (.told .panicked), .event (.told .accepted)]
    b.tellings.map (fun t ↦ (t.first, t.moment, t.key, t.snapshot.serial)) =
      [(3, 3, 0, 0), (4, 4, 0, 1), (4, 5, 1, 1), (3, 7, 1, 0)] := by
  rfl

end Chronicle

end LayeredRights
