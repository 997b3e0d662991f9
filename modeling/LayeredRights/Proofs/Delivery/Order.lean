import LayeredRights.Proofs.Delivery.Changes

/-!
# The order in which snapshots are told

A listener is told of one snapshot after another in the order in which they were installed, unless
an update or a reload overtakes a delivery (`Overtakes`): it is made while that delivery is under
way and has still to come to the listener. Then the listener is told of the newer snapshot first
and of the older one when its turn comes, and nothing follows that sets it right.

Deliveries are nested, so which of two is the older is to be seen from the stack of frames. Each
frame lies on those that were there when its call was made (`MadeOver`), and what the rounds of
these have still to tell is overtaken from then on. That is all the invariant has to know
(`Layered`): an event tells nothing but what the innermost call had still to tell (`Advances`).

Two things are said to be in order, and they are measured alike. A snapshot is as old as the call
that installed it, and a telling as the call it is told for. As long as no listener calls, these two
agree with the order in which things are told. When one does, its call is younger than the round it
is told in, and everybody who has had no turn in that round is told the other way round. `Overtakes`
is exactly this: at the moment before the call some frame still owed the listener a snapshot.
-/

namespace LayeredRights

/-! ### What is still to be told -/

/-- Whether anyone in a list is the listener of a key. -/
def awaited (rs : List Registration) (key : Nat) : Bool := rs.any (·.subscriber = .listener key)

/-- What a frame has still to tell the listener of a key. -/
def Frame.owes? (key : Nat) : Frame → Option Snapshot
  | .telling _ round => if awaited round.rest key then some round.snapshot else none
  | _ => none

/-- At moment `k` a delivery of the snapshot is under way that has still to come to the listener of
the key. -/
def OwedAt (h : List Moment) (k key : Nat) (S : Snapshot) : Prop :=
  ∃ m, h[k]? = some m ∧ ∃ f ∈ m.engine.frames, f.owes? key = some S

/-- The call made at moment `first` comes between a listener and a snapshot of which it has still to
be told. -/
def Overtakes (h : List Moment) (first key : Nat) (S : Snapshot) : Prop :=
  ∃ k, first = k + 1 ∧ OwedAt h k key S

/-- The frames are those that were there when the call of moment `first` was made. -/
def MadeOver (h : List Moment) (first : Nat) (fs : List Frame) : Prop :=
  ∃ k m, first = k + 1 ∧ h[k]? = some m ∧ m.engine.frames = fs

/-- What the listener of a key was told. -/
def tellingsTo (ts : List Telling) (key : Nat) : List Telling := ts.filter (·.key = key)

section Still

variable {h h' : List Moment} {first key : Nat} {S : Snapshot} {fs : List Frame}

/-- Somebody in a list is the listener of a key. -/
theorem awaited_iff {rs : List Registration} :
    awaited rs key = true ↔ ∃ r ∈ rs, r.subscriber = .listener key := by
  simp [awaited]

/-- A frame owes a listener the snapshot of its round if the turn of the listener is still to come.
-/
theorem Frame.owes?_telling_iff {r : Registration} {round : Round} :
    (Frame.telling r round).owes? key = some S ↔
      (∃ r ∈ round.rest, r.subscriber = .listener key) ∧ round.snapshot = S := by
  rw [Frame.owes?, Option.ite_none_right_eq_some, awaited_iff, Option.some_inj]

theorem Overtakes.later (ho : Overtakes h first key S) (hh : h <+: h') :
    Overtakes h' first key S := by
  obtain ⟨k, hk, m, hm, hf⟩ := ho
  exact ⟨k, hk, m, getElem?_of_begin hh hm, hf⟩

theorem MadeOver.later (hmade : MadeOver h first fs) (hh : h <+: h') : MadeOver h' first fs := by
  obtain ⟨k, m, hk, hm, hframes⟩ := hmade
  exact ⟨k, m, hk, getElem?_of_begin hh hm, hframes⟩

/-- What the frames below a call have still to tell, the call overtakes. -/
theorem MadeOver.overtakes (hmade : MadeOver h first fs) {f : Frame} (hf : f ∈ fs)
    (howes : f.owes? key = some S) : Overtakes h first key S := by
  obtain ⟨k, m, hk, hm, rfl⟩ := hmade
  exact ⟨k, hk, m, hm, f, hf, howes⟩

end Still

/-! ### What an event tells -/

/-- What an event makes of the call it serves, which has still to tell what `may` says. The frames
around that call are `fs`. -/
inductive Advances (fs : List Frame) (may : Nat → Snapshot → Prop) : Output × Engine → Prop
  | answered {a : Answer} {e : Engine} (hframes : e.frames = fs) : Advances fs may (.answered a, e)
  | told {f : Frame} {key : Nat} {S : Snapshot} {e : Engine} (hmay : may key S)
      (hframes : e.frames = f :: fs) (howes : ∀ key S, f.owes? key = some S → may key S) :
      Advances fs may (.asked (.tell key S), e)
  | other {f : Frame} {r : Request} {e : Engine} (hother : ∀ key S, r ≠ .tell key S)
      (hframes : e.frames = f :: fs) (howes : ∀ key S, f.owes? key ≠ some S) :
      Advances fs may (.asked r, e)

section Advances

variable {fs : List Frame} {may : Nat → Snapshot → Prop} {o : Output × Engine} {e : Engine}

theorem advances_of_quiet (hquiet : Quiet fs o) : Advances fs may o := by
  cases hquiet with
  | answered hframes => exact .answered hframes
  | lookingUp hframes => exact .other (fun _ _ ↦ nofun) hframes (fun _ _ ↦ nofun)
  | listing hframes => exact .other (fun _ _ ↦ nofun) hframes (fun _ _ ↦ nofun)

/-- A round tells its snapshot to those that are still to have their turns. -/
theorem advances_of_goes {round : Round} {rs : List Registration} {out : Output}
    (hgoes : e.Goes fs round rs out)
    (hmay : ∀ key, (∃ r ∈ rs, r.subscriber = .listener key) → may key round.snapshot) :
    Advances fs may (out, e) := by
  cases hgoes with
  | ended n hpass hframes => exact .answered hframes
  | @told before after r key n hrs hpass halive hsub hframes =>
    subst hrs
    refine .told (hmay key ⟨r, by simp, hsub⟩) hframes fun key' S howes ↦ ?_
    obtain ⟨⟨r', hr', hsub'⟩, rfl⟩ := Frame.owes?_telling_iff.1 howes
    exact hmay key' ⟨r', by simp [hr'], hsub'⟩

end Advances

/-- What an event comes to: it calls for nothing, is a call, or goes on with the innermost one. -/
inductive Proceeds (e : Engine) (ev : Event) : Output × Engine → Prop
  | nothing {e' : Engine} (hcall : ev.call? = none) (hframes : e'.frames = e.frames) :
      Proceeds e ev (.nothing, e')
  | made {c : Call} {o : Output × Engine} (hcall : ev.call? = some c)
      (hadvances : Advances e.frames (fun _ _ ↦ True) o) : Proceeds e ev o
  | resumed {f : Frame} {fs : List Frame} {o : Output × Engine} (hcall : ev.call? = none)
      (hframes : e.frames = f :: fs)
      (hadvances : Advances fs (fun key S ↦ f.owes? key = some S) o) : Proceeds e ev o

/-! ### The invariant of frames -/

/-- Frames, with the calls that wait because of them. If a listener has been told of something newer
than what a frame has still to tell it, then that has been overtaken. -/
inductive Layered (h : List Moment) (ts : List Telling) : List Frame → List (Call × Nat) → Prop
  | nil : Layered h ts [] []
  | cons {f : Frame} {fs : List Frame} {c : Call} {first : Nat} {rest : List (Call × Nat)}
      (hmade : MadeOver h first fs)
      (howes : ∀ key S, f.owes? key = some S → ∀ t ∈ tellingsTo ts key,
        t.first ≤ first ∨ Overtakes h t.first key S)
      (hrest : Layered h ts fs rest) : Layered h ts (f :: fs) ((c, first) :: rest)

namespace Layered

variable {h h' : List Moment} {ts : List Telling} {fs : List Frame} {rest : List (Call × Nat)}

/-- A longer session makes no difference to frames that are as they were. -/
theorem later (hl : Layered h ts fs rest) (hh : h <+: h') : Layered h' ts fs rest := by
  induction hl with
  | nil => exact .nil
  | cons hmade howes _ ih =>
    exact .cons (hmade.later hh)
      (fun key S hS t ht ↦ (howes key S hS t ht).imp_right fun ho ↦ ho.later hh) ih

/-- What is told for the sake of a call overtakes whatever the frames around it have still to
tell. -/
theorem tell (hl : Layered h ts fs rest) {t : Telling} (hmade : MadeOver h t.first fs) :
    Layered h (ts ++ [t]) fs rest := by
  have hover : ∀ f ∈ fs, ∀ key S, f.owes? key = some S → Overtakes h t.first key S :=
    fun f hf key S howes ↦ hmade.overtakes hf howes
  clear hmade
  induction hl with
  | nil => exact .nil
  | cons hmade howes _ ih =>
    obtain ⟨hf, hfs⟩ := List.forall_mem_cons.1 hover
    refine .cons hmade (fun key S hS t' ht' ↦ ?_) (ih hfs)
    rw [tellingsTo, List.filter_append] at ht'
    rcases List.mem_append.1 ht' with hold | hnew
    · exact howes key S hS t' hold
    · obtain rfl : t' = t := List.mem_singleton.1 (List.mem_of_mem_filter hnew)
      exact .inr (hf key S hS)

end Layered

namespace Chronicle

variable {m : Type → Type} [Monad m] {W : Type} {ρ : Runner m W} {d : Documents m} {b : Chronicle W}

/-- What is told later has been installed later, or has been overtaken. -/
structure Ranked (b : Chronicle W) : Prop where
  layered : Layered b.session.moments b.tellings b.session.engine.frames b.session.pending
  ranked : ∀ key, (tellingsTo b.tellings key).Pairwise fun t t' ↦
    t.first ≤ t'.first ∨ Overtakes b.session.moments t.first key t'.snapshot

theorem ranked_fresh (editAction : String) (w : W) : (fresh editAction w).Ranked where
  layered := .nil
  ranked _ := .nil

section Record

variable {ev : Event} {out : Output} {e : Engine} {w : W}

/-- What each event comes to for the call that it serves. -/
theorem Kept.proceeds (hk : b.Kept ρ d) (ev : Event)
    (hrun : ρ.run (b.session.engine.step d ev) b.session.world = ((out, e), w)) :
    Proceeds b.session.engine ev (out, e) := by
  have hcomes := hk.sound.comes (ρ := ρ) (d := d) ev b.session.world
  rw [hrun] at hcomes
  generalize (out, e) = o at hcomes
  cases hcomes with
  | nothing hcall hframes => exact .nothing hcall hframes
  | called hcall _ hquiet => exact .made hcall (advances_of_quiet hquiet)
  | replied hcall hframes _ hquiet => exact .resumed hcall hframes (advances_of_quiet hquiet)
  | @begun c e₁ round hcall hframes =>
    have hgoes := e₁.goes_deliver round b.session.engine.audience
    rw [hframes] at hgoes
    exact .made hcall (advances_of_goes hgoes fun _ _ ↦ trivial)
  | @resumed r round fs reaction e₁ hev hframes hfs =>
    have hgoes := e₁.goes_deliver
      { round with accepted := round.accepted + reaction.credit } round.rest
    rw [hfs] at hgoes
    refine .resumed (hev ▸ rfl) hframes (advances_of_goes hgoes fun key hrest ↦ ?_)
    exact Frame.owes?_telling_iff.2 ⟨hrest, rfl⟩

theorem Ranked.later (hb : b.Ranked) {h : List Moment} (hh : b.session.moments <+: h) (key : Nat) :
    (tellingsTo b.tellings key).Pairwise fun t t' ↦
      t.first ≤ t'.first ∨ Overtakes h t.first key t'.snapshot :=
  (hb.ranked key).imp fun hle ↦ hle.imp_right fun ho ↦ ho.later hh

/-- A move that tells nobody. -/
theorem Ranked.record_of_silent (hb : b.Ranked) (hsilent : b.session.telling? ev out = none)
    (hlayered : Layered (b.record ev out e w).session.moments b.tellings e.frames
      (b.record ev out e w).session.pending) : (b.record ev out e w).Ranked := by
  have htellings : (b.record ev out e w).tellings = b.tellings := by
    rw [record, hsilent]
    exact List.append_nil _
  refine ⟨?_, fun key ↦ ?_⟩
  · rw [htellings]
    show Layered _ _ (b.session.record ev out e w).engine.frames _
    rw [Session.engine_record]
    exact hlayered
  · rw [htellings]
    exact hb.later ⟨_, Session.moments_record.symm⟩ key

/-- **The innermost call goes on.** What it tells is as late as what it had still to tell. -/
theorem Ranked.advance (hb : b.Ranked) {c : Call} {first : Nat} {rest : List (Call × Nat)}
    {fs : List Frame} {may : Nat → Snapshot → Prop}
    (hwaiting : b.session.waiting ev = (c, first) :: rest)
    (hmade : MadeOver b.session.moments first fs)
    (hrest : Layered b.session.moments b.tellings fs rest)
    (hmay : ∀ key S, may key S → ∀ t ∈ tellingsTo b.tellings key,
      t.first ≤ first ∨ Overtakes b.session.moments t.first key S)
    (hadvances : Advances fs may (out, e)) : (b.record ev out e w).Ranked := by
  have hh : b.session.moments <+: (b.record ev out e w).session.moments :=
    ⟨_, Session.moments_record.symm⟩
  have htelling : b.session.telling? ev out = out.telling? first b.session.moments.length := by
    rw [Session.telling?, hwaiting]
    rfl
  cases hadvances with
  | answered hframes =>
    refine hb.record_of_silent htelling ?_
    rw [hframes, record, Session.record_of_answered hwaiting]
    exact hrest.later ⟨_, rfl⟩
  | other hother hframes howes =>
    rename_i f r
    have hsilent : Output.telling? first b.session.moments.length (.asked r) = none := by
      cases r with
      | tell key S => exact absurd rfl (hother key S)
      | rolesOf | usernames => rfl
    refine hb.record_of_silent (htelling.trans hsilent) ?_
    have hpending : (b.record ev (.asked r) e w).session.pending = (c, first) :: rest := hwaiting
    rw [hframes, hpending]
    exact .cons (hmade.later hh) (fun key S hS ↦ absurd hS (howes key S)) (hrest.later hh)
  | @told f key S _ hnow hframes howes =>
    let t : Telling := ⟨first, b.session.moments.length, key, S⟩
    have htellings : (b.record ev (.asked (.tell key S)) e w).tellings = b.tellings ++ [t] := by
      rw [record, htelling]
      rfl
    have hpending : (b.record ev (.asked (.tell key S)) e w).session.pending =
        (c, first) :: rest := hwaiting
    refine ⟨?_, fun key' ↦ ?_⟩
    · rw [htellings, hpending]
      show Layered _ _ (b.session.record ev _ e w).engine.frames _
      rw [Session.engine_record, hframes]
      refine .cons (hmade.later hh) (fun key' S' hS' t' ht' ↦ ?_)
        ((hrest.later hh).tell (hmade.later hh))
      rw [tellingsTo, List.filter_append] at ht'
      rcases List.mem_append.1 ht' with hold | hnew
      · exact (hmay key' S' (howes key' S' hS') t' hold).imp_right fun ho ↦ ho.later hh
      · obtain rfl : t' = t := List.mem_singleton.1 (List.mem_of_mem_filter hnew)
        exact .inl (Nat.le_refl _)
    · rw [htellings, tellingsTo, List.filter_append, List.pairwise_append]
      refine ⟨hb.later hh key', (List.pairwise_singleton _ t).filter _, fun t₁ ht₁ t₂ ht₂ ↦ ?_⟩
      obtain ⟨hmem, hkey⟩ := List.mem_filter.1 ht₂
      obtain rfl : t₂ = t := List.mem_singleton.1 hmem
      obtain rfl : key = key' := of_decide_eq_true hkey
      exact (hmay key S hnow t₁ ht₁).imp_right fun ho ↦ ho.later hh

/-- **One move keeps the order.** -/
theorem ranked_move (hk : b.Kept ρ d) (hb : b.Steady) (hr : b.Ranked) (mv : Move W) :
    (b.move ρ d mv).Ranked := by
  cases mv with
  | outside edit =>
    have hh : b.session.moments <+: (b.move ρ d (.outside edit)).session.moments := ⟨_, rfl⟩
    exact ⟨hr.layered.later hh, hr.later hh⟩
  | event ev =>
    rcases hrun : ρ.run (b.session.engine.step d ev) b.session.world with ⟨⟨out, e⟩, w⟩
    rw [move, hrun]
    cases hk.proceeds ev hrun with
    | nothing hcall hframes =>
      have hpending : (b.record ev .nothing e w).session.pending = b.session.pending :=
        Session.waiting_of_reply hcall
      refine hr.record_of_silent ?_ ?_
      · cases h : (b.session.waiting ev).head? <;> simp [Session.telling?, Output.telling?, h]
      · rw [hframes, hpending]
        exact hr.layered.later ⟨_, Session.moments_record.symm⟩
    | @made c _ hcall hadvances =>
      have hwaiting := Session.waiting_of_call (s := b.session) hcall
      -- the call is made over the frames that are there, after all that has been told
      have hmade : MadeOver b.session.moments b.session.moments.length b.session.engine.frames := by
        obtain ⟨past, last, hpast, hlast⟩ := hb.latest
        refine ⟨past.length, last, ?_, ?_, by rw [hlast]⟩
        · rw [hpast, List.length_append]
          rfl
        · rw [hpast]
          exact List.getElem?_concat_length
      refine hr.advance hwaiting hmade hr.layered (fun key S _ t ht ↦ .inl ?_) hadvances
      exact Nat.le_of_lt (hk.lt_of_mem_calls (hk.accounted t (List.mem_of_mem_filter ht)))
    | @resumed f fs _ hcall hframes hadvances =>
      have hlayered := hr.layered
      rw [hframes] at hlayered
      generalize hpending : b.session.pending = ps at hlayered
      cases hlayered with
      | @cons _ _ c first rest hmade howes hrest =>
        have hwaiting : b.session.waiting ev = (c, first) :: rest :=
          (Session.waiting_of_reply hcall).trans hpending
        exact hr.advance hwaiting hmade hrest howes hadvances

/-- Any number of moves keeps the order. -/
theorem ranked_run (hk : b.Kept ρ d) (hb : b.Steady) (hr : b.Ranked) (moves : List (Move W)) :
    (b.run ρ d moves).Ranked := by
  induction moves generalizing b with
  | nil => exact hr
  | cons mv moves ih => exact ih (kept_move hk mv) (steady_move hb mv) (ranked_move hk hb hr mv)

end Record

/-! ### Every session -/

/-- The snapshot was installed at moment `first` by an update or a reload, and none has installed
anything since. -/
structure LastInstalled (h : List Moment) (first : Nat) (S : Snapshot) : Prop where
  installed : InstalledAt h first S
  renewed : RenewedAt h first
  le_first : ∀ first' S', InstalledAt h first' S' → RenewedAt h first' → first' ≤ first

/-- What is so of all that the listener of a key is told. -/
structure InOrder (b : Chronicle W) (key : Nat) : Prop where
  /-- It is told for the sake of an update or a reload of what that has installed. -/
  installed : ∀ t ∈ tellingsTo b.tellings key,
    InstalledAt b.session.moments t.first t.snapshot ∧ RenewedAt b.session.moments t.first
  /-- It is told in the order of installation, but for what has been overtaken. -/
  ordered : (tellingsTo b.tellings key).Pairwise fun t t' ↦
    t.first ≤ t'.first ∨ Overtakes b.session.moments t.first key t'.snapshot
  /-- If the listener is there from before the last installation, which overtakes nothing that it
  has still to be told, then it is told of that last of all. The store still has the snapshot, if it
  has not been emptied. -/
  last : ∀ (first : Nat) (S : Snapshot) (r : Registration),
    LastInstalled b.session.moments first S → r.subscriber = .listener key →
      (∀ m, b.session.moments[first - 1]? = some m → r ∈ m.engine.registry.registrations) →
      (∀ m ∈ b.session.moments.drop (first - 1), m.engine.isAlive r = true) →
      (∀ S', ¬Overtakes b.session.moments first key S') →
      (∀ m ∈ b.session.moments.drop first, m.engine.store.resident ≠ none) →
      b.session.engine.frames = [] →
      (tellingsTo b.tellings key).getLast?.map (·.snapshot) = some S ∧
        b.session.engine.store.resident = some S

section InOrder

variable {first key : Nat} {S : Snapshot}

/-- What was installed last is resident, if the store has not been emptied since. -/
theorem Steady.resident_of_lastInstalled (hb : b.Steady)
    (hlast : LastInstalled b.session.moments first S)
    (hloaded : ∀ m ∈ b.session.moments.drop first, m.engine.store.resident ≠ none) :
    b.session.engine.store.resident = some S := by
  obtain ⟨past, now, hpast, hnow⟩ := hb.latest
  obtain ⟨⟨k, m, m', rfl, hm, hm', hne, hS⟩, -, hle⟩ := hlast
  have hend : b.session.moments[past.length]? = some now := by
    rw [hpast]
    exact List.getElem?_concat_length
  have hfirst : k + 1 ≤ past.length := by
    have hlt := (List.getElem?_eq_some_iff.1 hm').1
    rw [hpast, List.length_append] at hlt
    exact Nat.le_of_lt_succ hlt
  have hsome : ∀ (j : Nat) (m : Moment), k + 1 ≤ j → b.session.moments[j]? = some m →
      m.engine.store.resident ≠ none := fun j m hj hm ↦ hloaded m (mem_drop_of_getElem? hj hm)
  rw [← hnow]
  obtain ⟨S', hS'⟩ := Option.ne_none_iff_exists'.1 (hsome _ _ hfirst hend)
  by_cases heq : S' = S
  · exact heq ▸ hS'
  -- another snapshot has been installed since, where there was one already
  have hother : m'.engine.store.resident ≠ some S' := by
    rw [hS]
    exact fun h ↦ heq (Option.some.inj h).symm
  obtain ⟨first', hgt, -, hinstalled⟩ := exists_installedAt hfirst hm' hend hother hS'
  by_cases hrenewed : RenewedAt b.session.moments first'
  · exact absurd (hle first' S' hinstalled hrenewed) (Nat.not_le.2 hgt)
  · obtain ⟨j, mj, rfl, hmj, hnone⟩ := hb.linked.resident_of_not_renewedAt hinstalled hrenewed
    exact absurd hnone (hsome j mj (Nat.le_of_lt_succ hgt) hmj)

/-- A listener is told last of what was installed last. -/
theorem Ranked.snapshot_of_getLast? (hr : b.Ranked)
    (hinstalled : ∀ t ∈ tellingsTo b.tellings key,
      InstalledAt b.session.moments t.first t.snapshot ∧ RenewedAt b.session.moments t.first)
    (hlast : LastInstalled b.session.moments first S)
    (hover : ∀ S', ¬Overtakes b.session.moments first key S')
    {t : Telling} (ht : t ∈ tellingsTo b.tellings key) (hfirst : t.first = first)
    (hS : t.snapshot = S) : (tellingsTo b.tellings key).getLast?.map (·.snapshot) = some S := by
  obtain ⟨init, final, hinit⟩ := (List.eq_nil_or_concat' _).resolve_left (List.ne_nil_of_mem ht)
  rw [hinit] at ht hinstalled ⊢
  have hranked := hr.ranked key
  rw [hinit, List.pairwise_append] at hranked
  obtain ⟨-, -, hfinal⟩ := hranked
  rw [List.getLast?_concat, Option.map_some, Option.some_inj]
  rcases List.mem_append.1 ht with hmem | hmem
  · obtain ⟨hagain, hrenewed⟩ := hinstalled final (by simp)
    have hle : first ≤ final.first := by
      rcases hfinal t hmem final (List.mem_singleton_self _) with hle | hovertakes
      · exact hfirst ▸ hle
      · exact absurd (hfirst ▸ hovertakes) (hover _)
    -- two snapshots installed at one moment are one
    obtain heq : final.first = first :=
      Nat.le_antisymm (hlast.le_first _ _ hagain hrenewed) hle
    obtain ⟨_, _, m, _, _, hm, _, hres⟩ := hlast.installed
    obtain ⟨_, _, m', _, _, hm', _, hres'⟩ := hagain
    rw [heq] at hm'
    obtain rfl : m = m' := Option.some.inj (hm.symm.trans hm')
    exact Option.some.inj (hres'.symm.trans hres)
  · obtain rfl : t = final := List.mem_singleton.1 hmem
    exact hS

/-- **A listener is told of snapshots in the order in which they were installed**, unless an update
or a reload is made while a delivery has still to come to it. -/
theorem inOrder_run (ρ : Runner m W) (d : Documents m) (editAction : String) (w : W)
    (moves : List (Move W)) (key : Nat) :
    let b := (fresh editAction w).run ρ d moves
    b.session.NeverAnnounces → b.InOrder key := by
  intro b hnever
  have hk : b.Kept ρ d := kept_run (kept_fresh editAction w) moves
  have hb : b.Steady := steady_run (steady_fresh editAction w) moves
  have hr : b.Ranked :=
    ranked_run (kept_fresh editAction w) (steady_fresh editAction w) (ranked_fresh editAction w)
      moves
  have hinstalled : ∀ t ∈ tellingsTo b.tellings key,
      InstalledAt b.session.moments t.first t.snapshot ∧ RenewedAt b.session.moments t.first :=
    fun t ht ↦ hk.installedAt_of_mem_tellings hb hnever (List.mem_of_mem_filter ht)
  refine ⟨hinstalled, hr.ranked key, ?_⟩
  intro first S r hlast hsub hregistered halive hover hloaded hidle
  have halive' : ∀ (j : Nat) (m : Moment), first ≤ j + 1 → b.session.moments[j]? = some m →
      m.engine.isAlive r = true :=
    fun j m hj hm ↦ halive m (mem_drop_of_getElem? (Nat.sub_le_of_le_add hj) hm)
  obtain ⟨t, ht, hfirst, -, -, hkey, hsnapshot⟩ :=
    hk.exists_telling_of_installedAt hb hidle hlast.installed hlast.renewed hsub hregistered halive'
  have ht' : t ∈ tellingsTo b.tellings key := List.mem_filter.2 ⟨ht, decide_eq_true hkey⟩
  exact ⟨hr.snapshot_of_getLast? hinstalled hlast hover ht' hfirst hsnapshot,
    hb.resident_of_lastInstalled hlast hloaded⟩

end InOrder

/-- Two listeners are registered with the office, and a reload is made of which they are told while
what is given happens. -/
def reloading (moves : List (Move MemoryDocuments)) : Chronicle MemoryDocuments :=
  (fresh "edit" Session.office).run (.stateful _) MemoryDocuments.documents
    ([.event (.call (.subscribe 0)), .event (.call (.subscribe 1)), .event (.call .reload)] ++
      moves)

/-- The first listener makes ann a clerk while it is being told of the reload. -/
def hiringFirst : List (Move MemoryDocuments) :=
  [.event (.call (.update hiring)), .event (.told .accepted), .event (.told .accepted),
    .event (.told .accepted), .event (.told .accepted)]

/-- The second listener does. -/
def hiringSecond : List (Move MemoryDocuments) :=
  [.event (.told .accepted), .event (.call (.update hiring)), .event (.told .accepted),
    .event (.told .accepted), .event (.told .accepted)]

/-- The update of the first listener overtakes the reload. Both succeed, and the second listener is
left with what was in force before ann was a clerk. -/
theorem overtaken_office :
    (reloading hiringFirst).session.engine.frames = [] ∧
      (reloading hiringFirst).session.exchanges.map (·.answer) =
        [.subscribed 1, .subscribed 2, .updated (.ok ()),
          .snapshot (.ok ⟨0, Session.office.base.alone⟩)] ∧
      (reloading hiringFirst).session.engine.store.resident =
        some ⟨1, Session.office.base.overlaid hiring.modifications⟩ ∧
      (tellingsTo (reloading hiringFirst).tellings 1).map (·.snapshot) =
        [⟨1, Session.office.base.overlaid hiring.modifications⟩, ⟨0, Session.office.base.alone⟩] :=
  ⟨rfl, rfl, rfl, rfl⟩

/-- The update of the second listener overtakes nothing, and the first is told of it last. -/
theorem inOrder_run_office : (reloading hiringSecond).InOrder 0 ∧
    (tellingsTo (reloading hiringSecond).tellings 0).getLast?.map (·.snapshot) =
      some ⟨1, Session.office.base.overlaid hiring.modifications⟩ := by
  have hcalls : (reloading hiringSecond).session.moments.map (·.call) =
      [none, some (.subscribe 0), some (.subscribe 1), some .reload, none, some (.update hiring),
        none, none, none] := rfl
  have hinOrder : (reloading hiringSecond).InOrder 0 := by
    refine inOrder_run (.stateful _) MemoryDocuments.documents "edit" Session.office _ 0 ?_
    intro S hS
    exact absurd (hcalls ▸ hS) (by simp)
  refine ⟨hinOrder, (hinOrder.last 5 _ ⟨1, .listener 0⟩ ⟨?_, ?_, ?_⟩ rfl ?_ ?_ ?_ ?_ rfl).1⟩
  · exact ⟨4, _, _, rfl, rfl, rfl, by decide, rfl⟩
  · exact ⟨_, _, rfl, rfl, rfl⟩
  · rintro first S - ⟨m, c, hm, hc, -⟩
    by_contra hlater
    -- no call is made after the update
    have hcall : m.call ∈ ((reloading hiringSecond).session.moments.map (·.call)).drop 6 := by
      refine mem_drop_of_getElem? (Nat.not_le.1 hlater) ?_
      rw [List.getElem?_map, hm]
      rfl
    rw [hcalls, hc] at hcall
    simp at hcall
  · intro m hm
    obtain rfl := Option.some.inj hm
    decide
  · decide
  · rintro S ⟨k, hk, m, hm, f, hf, howes⟩
    obtain rfl : 4 = k := Nat.succ.inj hk
    obtain rfl := Option.some.inj hm
    -- the second listener is the last in the round
    obtain rfl := List.mem_singleton.1 hf
    exact nomatch howes
  · decide

end Chronicle

end LayeredRights
