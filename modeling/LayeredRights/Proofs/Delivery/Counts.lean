import LayeredRights.Proofs.Delivery.Announcements
import LayeredRights.Proofs.Delivery.Registrations

/-!
# How many have accepted

A delivery is answered by the number of those that it has told and that have accepted the change.
Who is told, and when, is a matter of turns. When a listener returns is to be seen from what is
suspended: what lies under it has been there all the time, and what was put on top of it has gone
(`ReturnsAt`). A `Tally` goes over the registrations of a round in turn and adds up what each of
them returns. The round that is under way has the sum so far, and its last turn makes it the answer
(`Session.tallied_run`).

Together with the roll of those that are registered, this is all there is to know of the registry
(`Session.keepsRoll_run`). Nothing is assumed of what listeners do while they are being told.

Telling when a listener returns takes the frames, since a reply does not say what it replies to.
Between the moment at which the listener was told and the one at which it returns, its frame has
been on the stack throughout, and in the end it lies on top. Only one reply can belong to it
(`ReturnsAt.unique`), for once a reply is taken its frame does not come back (`RepliesPop`). That
makes counting a function of the session, although a `Tally` is a relation (`Tally.unique`).
-/

namespace LayeredRights

/-! ### Returning -/

section Tallies

variable {W : Type}

/-- The listener that is told at moment `k` returns at moment `k'`. Up to then all that was
suspended has stayed so, and in the end nothing else is. -/
def ReturnsAt (h : List Moment) (moves : List (Move W)) (k k' : Nat) (reaction : Reaction) : Prop :=
  ∃ l m m', k' = l + 1 ∧ k ≤ l ∧ h[k]? = some m ∧ h[l]? = some m' ∧
    (∀ j, k ≤ j → j ≤ l → ∃ mj, h[j]? = some mj ∧ m.engine.frames <:+ mj.engine.frames) ∧
    m'.engine.frames = m.engine.frames ∧ moves[l]? = some (.event (.told reaction))

/-- From moment `k`, with the registrations `rs` due in turn to be told of the snapshot, one has
come to moment `k'` with the registrations `rs'` still due, and so many have accepted. -/
inductive Tally (h : List Moment) (moves : List (Move W)) (S : Snapshot) :
    Nat → List Registration → Nat → Nat → List Registration → Prop
  | stay (k : Nat) (rs : List Registration) : Tally h moves S k rs 0 k rs
  /-- Who is gone when its turn comes is passed over. -/
  | gone {k k' n : Nat} {r : Registration} {rs rs' : List Registration} {m : Moment}
      (hm : h[k]? = some m) (hgone : m.engine.isAlive r = false)
      (next : Tally h moves S k rs n k' rs') : Tally h moves S k (r :: rs) n k' rs'
  /-- The resolver accepts the change at once. -/
  | resolved {k k' n : Nat} {r : Registration} {rs rs' : List Registration} {m : Moment}
      (hm : h[k]? = some m) (halive : m.engine.isAlive r = true) (hsub : r.subscriber = .resolver)
      (next : Tally h moves S k rs n k' rs') : Tally h moves S k (r :: rs) (1 + n) k' rs'
  /-- A listener that is alive when its turn comes is told. The next turn comes when it returns. -/
  | told {k k₁ k' n key : Nat} {r : Registration} {rs rs' : List Registration} {m : Moment}
      {round : Round} {fs : List Frame} {reaction : Reaction} (hm : h[k]? = some m)
      (halive : m.engine.isAlive r = true) (hsub : r.subscriber = .listener key)
      (hframes : m.engine.frames = .telling r round :: fs) (hround : round.snapshot = S)
      (hreturns : ReturnsAt h moves k k₁ reaction) (next : Tally h moves S k₁ rs n k' rs') :
      Tally h moves S k (r :: rs) (reaction.credit + n) k' rs'

variable {h h' : List Moment} {moves moves' : List (Move W)} {S : Snapshot} {k k' k'' n n' : Nat}
  {rs rs' rs'' : List Registration} {reaction : Reaction}

theorem ReturnsAt.later (hr : ReturnsAt h moves k k' reaction) (hh : h <+: h')
    (hmoves : moves <+: moves') : ReturnsAt h' moves' k k' reaction := by
  obtain ⟨l, m, m', hk', hle, hm, hm', hbetween, hframes, hmove⟩ := hr
  refine ⟨l, m, m', hk', hle, getElem?_of_begin hh hm, getElem?_of_begin hh hm', fun j hj hjl ↦ ?_,
    hframes, getElem?_of_begin hmoves hmove⟩
  obtain ⟨mj, hmj, hsuffix⟩ := hbetween j hj hjl
  exact ⟨mj, getElem?_of_begin hh hmj, hsuffix⟩

namespace Tally

theorem later (ht : Tally h moves S k rs n k' rs') (hh : h <+: h') (hmoves : moves <+: moves') :
    Tally h' moves' S k rs n k' rs' := by
  induction ht with
  | stay k rs => exact .stay k rs
  | gone hm hgone _ ih => exact .gone (getElem?_of_begin hh hm) hgone ih
  | resolved hm halive hsub _ ih => exact .resolved (getElem?_of_begin hh hm) halive hsub ih
  | told hm halive hsub hframes hround hreturns _ ih =>
    exact .told (getElem?_of_begin hh hm) halive hsub hframes hround (hreturns.later hh hmoves) ih

theorem trans (ht : Tally h moves S k rs n k' rs') (ht' : Tally h moves S k' rs' n' k'' rs'') :
    Tally h moves S k rs (n + n') k'' rs'' := by
  induction ht with
  | stay k rs => exact (Nat.zero_add n').symm ▸ ht'
  | gone hm hgone _ ih => exact .gone hm hgone (ih ht')
  | resolved hm halive hsub _ ih =>
    rw [Nat.add_assoc]
    exact .resolved hm halive hsub (ih ht')
  | told hm halive hsub hframes hround hreturns _ ih =>
    rw [Nat.add_assoc]
    exact .told hm halive hsub hframes hround hreturns (ih ht')

/-- **What one move makes of a delivery**, which leaves the engine of moment `k`. It comes to its
end, or to the next listener. -/
theorem of_deliver {m : Moment} (hm : h[k]? = some m) (moves : List (Move W)) (e : Engine)
    (round : Round) (rs : List Registration) (hengine : m.engine = (e.deliver round rs).2) :
    (∃ n, (e.deliver round rs).1 =
        .answered { round with accepted := round.accepted + n }.answer ∧
      m.engine.frames = e.frames ∧ Tally h moves round.snapshot k rs n k []) ∨
    ∃ n r key after, (e.deliver round rs).1 = .asked (.tell key round.snapshot) ∧
      m.engine.frames =
        .telling r { round with rest := after, accepted := round.accepted + n } :: e.frames ∧
      m.engine.isAlive r = true ∧ r.subscriber = .listener key ∧
      Tally h moves round.snapshot k rs n k (r :: after) := by
  induction rs generalizing e round with
  | nil => exact .inl ⟨0, rfl, congrArg Engine.frames hengine, .stay k []⟩
  | cons r rs ih =>
    have hsame : m.engine.isAlive r = e.isAlive r := by
      rw [hengine, Engine.isAlive_deliver]
    cases halive : e.isAlive r with
    | false =>
      have hdeliver : e.deliver round (r :: rs) = e.deliver round rs := by
        rw [Engine.deliver, halive]
        rfl
      rw [hdeliver] at hengine ⊢
      obtain ⟨n, hout, hframes, ht⟩ | ⟨n, r', key, after, hout, hframes, halive', hsub, ht⟩ :=
        ih e round hengine
      · exact .inl ⟨n, hout, hframes, .gone hm (hsame.trans halive) ht⟩
      · exact .inr ⟨n, r', key, after, hout, hframes, halive', hsub,
          .gone hm (hsame.trans halive) ht⟩
    | true =>
      cases hsub : r.subscriber with
      | listener key =>
        have hdeliver : e.deliver round (r :: rs) =
            e.ask (.telling r { round with rest := rs }) (.tell key round.snapshot) := by
          rw [Engine.deliver, if_pos halive, hsub]
        rw [hdeliver] at hengine ⊢
        exact .inr ⟨0, r, key, rs, rfl, congrArg Engine.frames hengine, hsame.trans halive, hsub,
          .stay k _⟩
      | resolver =>
        have hdeliver : e.deliver round (r :: rs) =
            e.discard.deliver { round with accepted := round.accepted + 1 } rs := by
          rw [Engine.deliver, if_pos halive, hsub]
        rw [hdeliver] at hengine ⊢
        obtain ⟨n, hout, hframes, ht⟩ | ⟨n, r', key, after, hout, hframes, halive', hsub', ht⟩ :=
          ih e.discard { round with accepted := round.accepted + 1 } hengine
        · refine .inl ⟨1 + n, ?_, hframes, .resolved hm (hsame.trans halive) hsub ht⟩
          rw [hout, Nat.add_assoc]
        · refine .inr ⟨1 + n, r', key, after, hout, ?_, halive', hsub',
            .resolved hm (hsame.trans halive) hsub ht⟩
          rw [hframes, Nat.add_assoc]
          rfl

end Tally

/-! ### Returning once -/

/-- The frame that a reply answers is gone after it, even where its round goes on. -/
def RepliesPop (h : List Moment) (moves : List (Move W)) : Prop :=
  ∀ (k : Nat) (m m' : Moment) (reaction : Reaction) (r : Registration) (round : Round)
    (fs : List Frame), h[k]? = some m → h[k + 1]? = some m' →
    moves[k]? = some (.event (.told reaction)) → m.engine.frames = .telling r round :: fs →
    ¬.telling r round :: fs <:+ m'.engine.frames

/-- A round that goes on has fewer to tell. -/
theorem not_suffix_deliver (e : Engine) (r : Registration) (round round' : Round) :
    ¬.telling r round :: e.frames <:+ (e.deliver round' round.rest).2.frames := by
  have hgoes := e.goes_deliver round' round.rest
  rcases hdeliver : e.deliver round' round.rest with ⟨out, e'⟩
  rw [hdeliver] at hgoes
  cases hgoes with
  | ended n hpass hframes =>
    rw [hframes]
    intro hsuffix
    exact absurd hsuffix.length_le (Nat.not_succ_le_self _)
  | @told before after r' key n hrs hpass halive hsub hframes =>
    rw [hframes]
    intro hsuffix
    have heq := hsuffix.eq_of_length (by simp)
    obtain ⟨-, rfl⟩ := Frame.telling.inj (List.cons.inj heq).1
    have hlength := congrArg List.length hrs
    simp only [List.length_append, List.length_cons] at hlength
    omega

/-- A reaction takes its frame away, and what comes in its place is another. -/
theorem not_suffix_resume (e : Engine) (r : Registration) (round : Round) (reaction : Reaction) :
    ¬.telling r round :: e.frames <:+ (e.resume r round reaction).2.frames := by
  cases reaction with
  | accepted => exact not_suffix_deliver e r round _
  | failed | panicked => exact not_suffix_deliver (e.report _) r round _

/-- A listener returns once. -/
theorem ReturnsAt.unique {k₁ k₂ : Nat} {x y : Reaction} {m : Moment} {r : Registration}
    {round : Round} {fs : List Frame} (hpop : RepliesPop h moves) (hm : h[k]? = some m)
    (hframes : m.engine.frames = .telling r round :: fs) (hx : ReturnsAt h moves k k₁ x)
    (hy : ReturnsAt h moves k k₂ y) : k₁ = k₂ ∧ x = y := by
  -- the frame would have to be there after the earlier of the two replies
  have hnot : ∀ {k₁ k₂ x y}, ReturnsAt h moves k k₁ x → ReturnsAt h moves k k₂ y → ¬k₁ < k₂ := by
    rintro _ _ x y ⟨l, m₁, m₁', rfl, hle, hm₁, hm₁', -, hframes₁, hmove⟩
      ⟨l', m₂, m₂', rfl, hle', hm₂, hm₂', hbetween, -, -⟩ hlt
    obtain rfl : m = m₁ := Option.some.inj (hm.symm.trans hm₁)
    obtain rfl : m = m₂ := Option.some.inj (hm.symm.trans hm₂)
    obtain ⟨mj, hmj, hsuffix⟩ :=
      hbetween (l + 1) (Nat.le_succ_of_le hle) (Nat.lt_of_succ_lt_succ hlt)
    exact hpop l m₁' mj x r round fs hm₁' hmj hmove (hframes₁.trans hframes) (hframes ▸ hsuffix)
  obtain rfl : k₁ = k₂ :=
    Nat.le_antisymm (Nat.le_of_not_lt (hnot hy hx)) (Nat.le_of_not_lt (hnot hx hy))
  obtain ⟨l, m₁, m₁', hk, -, -, -, -, -, hmove⟩ := hx
  obtain ⟨l', m₂, m₂', hk', -, -, -, -, -, hmove'⟩ := hy
  obtain rfl : l = l' := Nat.succ.inj (hk.symm.trans hk')
  have hsame := Option.some.inj (hmove.symm.trans hmove')
  exact ⟨rfl, Event.told.inj (Move.event.inj hsame)⟩

/-- **There is one way to count.** -/
theorem Tally.unique (hpop : RepliesPop h moves) (ht : Tally h moves S k rs n k' [])
    (ht' : Tally h moves S k rs n' k'' []) : n = n' ∧ k' = k'' := by
  generalize hend : ([] : List Registration) = due at ht
  induction ht generalizing n' with
  | stay k rs =>
    subst hend
    cases ht'
    exact ⟨rfl, rfl⟩
  | gone hm hgone _ ih =>
    cases ht' with
    | gone hm' hgone' next' => exact ih next' hend
    | resolved hm' halive' =>
      obtain rfl := Option.some.inj (hm.symm.trans hm')
      cases hgone.symm.trans halive'
    | told hm' halive' =>
      obtain rfl := Option.some.inj (hm.symm.trans hm')
      cases hgone.symm.trans halive'
  | resolved hm halive hsub _ ih =>
    cases ht' with
    | gone hm' hgone' =>
      obtain rfl := Option.some.inj (hm.symm.trans hm')
      cases hgone'.symm.trans halive
    | resolved hm' halive' hsub' next' =>
      obtain ⟨rfl, rfl⟩ := ih next' hend
      exact ⟨rfl, rfl⟩
    | told hm' halive' hsub' => cases hsub.symm.trans hsub'
  | told hm halive hsub hframes hround hreturns _ ih =>
    cases ht' with
    | gone hm' hgone' =>
      obtain rfl := Option.some.inj (hm.symm.trans hm')
      cases hgone'.symm.trans halive
    | resolved hm' halive' hsub' => cases hsub.symm.trans hsub'
    | told hm' halive' hsub' hframes' hround' hreturns' next' =>
      obtain ⟨rfl, rfl⟩ := hreturns.unique hpop hm hframes hreturns'
      obtain ⟨rfl, rfl⟩ := ih next' hend
      exact ⟨rfl, rfl⟩

end Tallies

/-! ### The invariant of rounds -/

section Counting

variable {W : Type}

/-- Those to whom a delivery is due that begins with the call made at moment `first`. -/
def AudienceAt (h : List Moment) (first : Nat) (rs : List Registration) : Prop :=
  ∃ k m, first = k + 1 ∧ h[k]? = some m ∧ m.engine.audience = rs

/-- Frames, with the calls that wait because of them. A round that is under way has counted those
that have accepted so far, and its frame has been there since the last listener was told. -/
inductive Counting (h : List Moment) (moves : List (Move W)) :
    List Frame → List (Call × Nat) → Prop
  | nil : Counting h moves [] []
  | silent {f : Frame} {fs : List Frame} {c : Call} {first : Nat} {rest : List (Call × Nat)}
      (hf : ∀ r round, f ≠ .telling r round) (hc : ∀ S, c ≠ .announce S)
      (hrest : Counting h moves fs rest) : Counting h moves (f :: fs) ((c, first) :: rest)
  | telling {r : Registration} {round : Round} {fs : List Frame} {c : Call} {first k key : Nat}
      {rest : List (Call × Nat)} {rs : List Registration} {m : Moment}
      (haudience : AudienceAt h first rs)
      (hc : ∀ S, c = .announce S → round.occasion = .announced ∧ round.snapshot = S)
      (htally : Tally h moves round.snapshot first rs round.accepted k (r :: round.rest))
      (hm : h[k]? = some m) (hframes : m.engine.frames = .telling r round :: fs)
      (halive : m.engine.isAlive r = true) (hsub : r.subscriber = .listener key)
      (hlasting : ∀ j, k ≤ j → ∀ mj, h[j]? = some mj →
        .telling r round :: fs <:+ mj.engine.frames)
      (hrest : Counting h moves fs rest) :
      Counting h moves (.telling r round :: fs) ((c, first) :: rest)

/-- A delivery that has been announced is answered by the number of those that have accepted. -/
def Exchange.Counted (h : List Moment) (moves : List (Move W)) (x : Exchange) : Prop :=
  ∀ S, x.call = .announce S → ∃ rs n, AudienceAt h x.first rs ∧ x.answer = .delivered n ∧
    Tally h moves S x.first rs n x.last []

variable {h h' : List Moment} {moves moves' : List (Move W)} {first : Nat} {rs : List Registration}

theorem AudienceAt.later (ha : AudienceAt h first rs) (hh : h <+: h') : AudienceAt h' first rs := by
  obtain ⟨k, m, hfirst, hm, hrs⟩ := ha
  exact ⟨k, m, hfirst, getElem?_of_begin hh hm, hrs⟩

theorem Exchange.Counted.later {x : Exchange} (hx : x.Counted h moves) (hh : h <+: h')
    (hmoves : moves <+: moves') : x.Counted h' moves' := by
  intro S hS
  obtain ⟨rs, n, haudience, hanswer, htally⟩ := hx S hS
  exact ⟨rs, n, haudience.later hh, hanswer, htally.later hh hmoves⟩

/-- Rounds go on waiting while what is suspended stays so. -/
theorem Counting.later {fs : List Frame} {rest : List (Call × Nat)} {now : Moment}
    (hc : Counting h moves fs rest) (hnow : fs <:+ now.engine.frames) (mv : Move W) :
    Counting (h ++ [now]) (moves ++ [mv]) fs rest := by
  induction hc with
  | nil => exact .nil
  | silent hf hc _ ih => exact .silent hf hc (ih ((List.suffix_cons _ _).trans hnow))
  | telling haudience hc htally hm hframes halive hsub hlasting _ ih =>
    refine .telling (haudience.later ⟨_, rfl⟩) hc (htally.later ⟨_, rfl⟩ ⟨_, rfl⟩)
      (getElem?_of_begin ⟨_, rfl⟩ hm) hframes halive hsub (fun j hj mj hmj ↦ ?_)
      (ih ((List.suffix_cons _ _).trans hnow))
    rcases Nat.lt_or_ge j h.length with hlt | hge
    · exact hlasting j hj mj ((List.getElem?_append_left hlt).symm.trans hmj)
    · rw [List.getElem?_append_right hge, List.getElem?_singleton] at hmj
      obtain ⟨-, ⟨rfl⟩⟩ := (Option.ite_none_right_eq_some ..).1 hmj
      exact hnow

/-- What a move comes to, at moment `last`, for the call it serves. The frames around that call are
`fs`, and the calls around it are `rest`. -/
inductive Settled (h : List Moment) (moves : List (Move W)) (fs : List Frame)
    (rest : List (Call × Nat)) (c : Call) (first last : Nat) : Output × Engine → Prop
  | answered {a : Answer} {e : Engine} (hframes : e.frames = fs)
      (hcounted : Exchange.Counted h moves ⟨c, first, last, a⟩) :
      Settled h moves fs rest c first last (.answered a, e)
  | asked {r : Request} {f : Frame} {e : Engine} (hframes : e.frames = f :: fs)
      (hcounting : Counting h moves fs rest → Counting h moves (f :: fs) ((c, first) :: rest)) :
      Settled h moves fs rest c first last (.asked r, e)

variable {fs : List Frame} {rest : List (Call × Nat)} {c : Call} {last : Nat}

/-- Where nobody is told there is nothing to count. -/
theorem settled_of_quiet {o : Output × Engine} (hquiet : Quiet fs o) (hc : ∀ S, c ≠ .announce S) :
    Settled h moves fs rest c first last o := by
  cases hquiet with
  | answered hframes => exact .answered hframes fun S hS ↦ absurd hS (hc S)
  | lookingUp hframes => exact .asked hframes fun hrest ↦ .silent (by simp) hc hrest
  | listing hframes => exact .asked hframes fun hrest ↦ .silent (by simp) hc hrest

/-- **A delivery goes on**, up to the last moment, with what it has counted before. -/
theorem settled_of_deliver {e₁ : Engine} {round : Round} {due : List Registration} {now : Moment}
    (hnow : h[last]? = some now) (hlength : h.length = last + 1)
    (hengine : now.engine = (e₁.deliver round due).2) (haudience : AudienceAt h first rs)
    (hc : ∀ S, c = .announce S → round.occasion = .announced ∧ round.snapshot = S)
    (htally : Tally h moves round.snapshot first rs round.accepted last due) :
    Settled h moves e₁.frames rest c first last (e₁.deliver round due) := by
  have hstep := Tally.of_deliver hnow moves e₁ round due hengine
  rcases hdeliver : e₁.deliver round due with ⟨out, e⟩
  rw [hdeliver] at hengine hstep
  have hsame : e.frames = now.engine.frames := congrArg Engine.frames hengine.symm
  obtain ⟨n, rfl, hframes, hend⟩ | ⟨n, r, key, after, rfl, hframes, halive, hsub, hnext⟩ := hstep
  · refine .answered (hsame.trans hframes) fun S hS ↦ ?_
    obtain ⟨hoccasion, rfl⟩ := hc S hS
    refine ⟨rs, round.accepted + n, haudience, ?_, htally.trans hend⟩
    simp only [Round.answer, hoccasion]
  · refine .asked (hsame.trans hframes) fun hrest ↦ ?_
    refine .telling haudience hc (htally.trans hnext) hnow hframes halive hsub
      (fun j hj mj hmj ↦ ?_) hrest
    obtain rfl : j = last := by
      have hlt := (List.getElem?_eq_some_iff.1 hmj).1
      omega
    obtain rfl : now = mj := Option.some.inj (hnow.symm.trans hmj)
    exact hframes ▸ List.suffix_rfl

end Counting

namespace Session

variable {m : Type → Type} [Monad m] {W : Type} {ρ : Runner m W} {d : Documents m} {s : Session W}
  {moves : List (Move W)}

/-- What is so of the rounds of a session at any time, given the moves that have been made. -/
structure Tallied (moves : List (Move W)) (s : Session W) : Prop where
  sound : s.Sound
  latest : ∃ past last, s.moments = past ++ [last] ∧ last.engine = s.engine ∧
    past.length = moves.length
  counting : Counting s.moments moves s.engine.frames s.pending
  counted : ∀ x ∈ s.exchanges, x.Counted s.moments moves

theorem sound_bare (editAction : String) (w : W) : (bare editAction w).Sound where
  latest := ⟨_, List.mem_singleton_self _, rfl⟩
  coherent := by
    have hc : Coherent [] [] (Engine.bare editAction) := by
      constructor <;> simp [Engine.bare, Engine.inUse?]
    exact (hc.report none).pass rfl (fun hcall ↦ absurd hcall.symm (Option.some_ne_none _))
  awaits := .nil
  cacheFree _ hx := absurd hx List.not_mem_nil

theorem tallied_bare (editAction : String) (w : W) : Tallied [] (bare editAction w) where
  sound := sound_bare editAction w
  latest := ⟨[], _, rfl, rfl, rfl⟩
  counting := .nil
  counted _ hx := absurd hx List.not_mem_nil

namespace Tallied

variable {ev : Event} {out : Output} {e : Engine} {c : Call} {first : Nat}
  {rest : List (Call × Nat)} {fs : List Frame}

/-- What has been counted stays so. -/
theorem counted_later (ht : Tallied moves s) (now : Moment) (mv : Move W) : ∀ x ∈ s.exchanges,
    x.Counted (s.moments ++ [now]) (moves ++ [mv]) := fun x hx ↦
  (ht.counted x hx).later ⟨_, rfl⟩ ⟨_, rfl⟩

/-- The call that a move serves has counted what it should, and so have the calls around it. -/
theorem record_of_settled (ht : Tallied moves s) (w : W)
    (hsound : (s.record ev out e w).Sound) (hwaiting : s.waiting ev = (c, first) :: rest)
    (hrest : Counting s.moments moves fs rest)
    (hsettled : Settled (s.moments ++ [⟨ev.call?, s.engine.reported? ev, e⟩])
      (moves ++ [.event ev]) fs rest c first s.moments.length (out, e)) :
    Tallied (moves ++ [.event ev]) (s.record ev out e w) := by
  obtain ⟨past, last, hpast, -, hlength⟩ := ht.latest
  let now : Moment := ⟨ev.call?, s.engine.reported? ev, e⟩
  have hlatest : ∃ past last, (s.record ev out e w).moments = past ++ [last] ∧
      last.engine = (s.record ev out e w).engine ∧
      past.length = (moves ++ [Move.event ev]).length :=
    ⟨s.moments, now, moments_record, engine_record.symm, by simp [hpast, hlength]⟩
  have hold := ht.counted_later now (.event ev)
  cases hsettled with
  | answered hframes hcounted =>
    have hlater : Counting (s.moments ++ [now]) (moves ++ [.event ev]) fs rest :=
      hrest.later (hframes ▸ List.suffix_rfl) _
    rw [record_of_answered hwaiting] at hsound hlatest ⊢
    refine ⟨hsound, hlatest, ?_, List.forall_mem_append.2 ⟨hold, ?_⟩⟩
    · rw [← hframes] at hlater
      exact hlater
    · exact List.forall_mem_singleton.2 hcounted
  | @asked r f _ hframes hcounting =>
    have hlater : Counting (s.moments ++ [now]) (moves ++ [.event ev]) fs rest :=
      hrest.later (hframes ▸ List.suffix_cons f fs) _
    have hpending : (s.record ev (.asked r) e w).pending = (c, first) :: rest := hwaiting
    refine ⟨hsound, hlatest, ?_, ?_⟩
    · rw [moments_record, engine_record, hpending, hframes]
      exact hcounting hlater
    · rw [moments_record]
      exact hold

/-- A delivery begins with a move, or goes on in it. -/
theorem record_of_deliver (ht : Tallied moves s) (w : W) {e₁ : Engine} {round : Round}
    {due rs : List Registration} (hsound : (s.record ev out e w).Sound)
    (hwaiting : s.waiting ev = (c, first) :: rest)
    (hrest : Counting s.moments moves e₁.frames rest) (ho : (out, e) = e₁.deliver round due)
    (haudience : AudienceAt (s.moments ++ [⟨ev.call?, s.engine.reported? ev, e⟩]) first rs)
    (hc : ∀ S, c = .announce S → round.occasion = .announced ∧ round.snapshot = S)
    (htally : Tally (s.moments ++ [⟨ev.call?, s.engine.reported? ev, e⟩]) (moves ++ [.event ev])
      round.snapshot first rs round.accepted s.moments.length due) :
    Tallied (moves ++ [.event ev]) (s.record ev out e w) := by
  let now : Moment := ⟨ev.call?, s.engine.reported? ev, e⟩
  have hcount : (s.moments ++ [now]).length = s.moments.length + 1 := by simp
  have hsettled : Settled (s.moments ++ [now]) (moves ++ [.event ev]) e₁.frames rest c first
      s.moments.length (e₁.deliver round due) :=
    settled_of_deliver List.getElem?_concat_length hcount (congrArg Prod.snd ho) haudience hc htally
  rw [← ho] at hsettled
  exact ht.record_of_settled w hsound hwaiting hrest hsettled

/-- Those that are alive before a move are told in the delivery that begins with it. -/
theorem audienceAt_append (ht : Tallied moves s) (now : Moment) :
    AudienceAt (s.moments ++ [now]) s.moments.length s.engine.audience := by
  obtain ⟨past, last, hpast, hlast, -⟩ := ht.latest
  refine ⟨past.length, last, by simp [hpast], ?_, by rw [hlast]⟩
  simp [hpast]

/-- The listener that was told last, at moment `k`, returns in a move. -/
theorem returnsAt_append (ht : Tallied moves s) {k : Nat} {told : Moment}
    (htold : s.moments[k]? = some told) (hframes : s.engine.frames = told.engine.frames)
    (hlasting : ∀ j, k ≤ j → ∀ mj, s.moments[j]? = some mj →
      told.engine.frames <:+ mj.engine.frames) (now : Moment) (reaction : Reaction) :
    ReturnsAt (s.moments ++ [now]) (moves ++ [.event (.told reaction)]) k s.moments.length
      reaction := by
  obtain ⟨past, last, hpast, hlast, hlength⟩ := ht.latest
  have hcount : s.moments.length = past.length + 1 := by simp [hpast]
  have hk : k < s.moments.length := (List.getElem?_eq_some_iff.1 htold).1
  refine ⟨past.length, told, last, hcount, by omega, getElem?_of_begin ⟨_, rfl⟩ htold,
    by simp [hpast], fun j hj hjl ↦ ?_, by rw [hlast, hframes], ?_⟩
  · have hlt : j < s.moments.length := by omega
    have hmj : s.moments[j]? = some s.moments[j] := List.getElem?_eq_getElem hlt
    exact ⟨_, getElem?_of_begin ⟨_, rfl⟩ hmj, hlasting j hj _ hmj⟩
  · rw [hlength]
    exact List.getElem?_concat_length

/-- **One event.** -/
theorem record (ht : Tallied moves s) {w : W}
    (hrun : ρ.run (s.engine.step d ev) s.world = ((out, e), w)) :
    Tallied (moves ++ [.event ev]) (s.record ev out e w) := by
  have hsound : (s.record ev out e w).Sound := by
    have hmove := sound_move (ρ := ρ) (d := d) ht.sound (.event ev)
    rwa [move, hrun] at hmove
  have hcomes := ht.sound.comes (ρ := ρ) (d := d) ev s.world
  rw [hrun] at hcomes
  let now : Moment := ⟨ev.call?, s.engine.reported? ev, e⟩
  have hcounting := ht.counting
  generalize ho : (out, e) = o at hcomes
  cases hcomes with
  | nothing hcall hframes =>
    obtain ⟨rfl, rfl⟩ := Prod.mk.inj ho
    obtain ⟨past, last, hpast, -, hlength⟩ := ht.latest
    have hlater : Counting (s.moments ++ [now]) (moves ++ [.event ev]) s.engine.frames s.pending :=
      hcounting.later (hframes ▸ List.suffix_rfl) _
    refine ⟨hsound, ⟨s.moments, now, moments_record, engine_record.symm, ?_⟩, ?_, ?_⟩
    · simp [hpast, hlength]
    · rw [record_of_nothing hcall, hframes]
      exact hlater
    · rw [moments_record]
      exact ht.counted_later now (.event ev)
  | called hcall hc hquiet =>
    subst ho
    exact ht.record_of_settled w hsound (waiting_of_call hcall) hcounting
      (settled_of_quiet hquiet hc)
  | replied hcall hframes hf hquiet =>
    subst ho
    rw [hframes] at hcounting
    generalize hpending : s.pending = ps at hcounting
    cases hcounting with
    | silent _ hc hrest =>
      exact ht.record_of_settled w hsound ((waiting_of_reply hcall).trans hpending) hrest
        (settled_of_quiet hquiet hc)
    | telling => exact absurd rfl (hf _ _)
  | @begun c e₁ round hcall hframes hround hc =>
    have htally : Tally (s.moments ++ [now]) (moves ++ [.event ev]) round.snapshot s.moments.length
        s.engine.audience round.accepted s.moments.length s.engine.audience := by
      rw [hround]
      exact .stay _ _
    exact ht.record_of_deliver w hsound (waiting_of_call hcall) (hframes ▸ hcounting) ho
      (ht.audienceAt_append now) hc htally
  | @resumed r round fs reaction e₁ hev hframes hfs =>
    subst hev
    rw [hframes] at hcounting
    generalize hpending : s.pending = ps at hcounting
    cases hcounting with
    | silent hf => exact absurd rfl (hf _ _)
    | @telling _ _ _ c first k key rest rs m haudience hc htally hm hframes' halive hsub hlasting
        hrest =>
      -- the listener has been told last at moment `k`, and returns in this very move
      have hreturns := ht.returnsAt_append hm (hframes.trans hframes'.symm)
        (fun j hj mj hmj ↦ hframes' ▸ hlasting j hj mj hmj) now reaction
      have htally' : Tally (s.moments ++ [now]) (moves ++ [.event (.told reaction)]) round.snapshot
          first rs (round.accepted + reaction.credit) s.moments.length round.rest :=
        (htally.later ⟨_, rfl⟩ ⟨_, rfl⟩).trans
          (.told (getElem?_of_begin ⟨_, rfl⟩ hm) halive hsub hframes' rfl hreturns (.stay _ _))
      exact ht.record_of_deliver w hsound ((waiting_of_reply rfl).trans hpending) (hfs ▸ hrest) ho
        (haudience.later ⟨_, rfl⟩) hc htally'

end Tallied

/-- **One move.** -/
theorem tallied_move (ht : Tallied moves s) (mv : Move W) :
    Tallied (moves ++ [mv]) (s.move ρ d mv) := by
  cases mv with
  | outside edit =>
    obtain ⟨past, last, hpast, -, hlength⟩ := ht.latest
    exact ⟨sound_move ht.sound (.outside edit), ⟨s.moments, _, rfl, rfl, by simp [hpast, hlength]⟩,
      ht.counting.later List.suffix_rfl _, ht.counted_later _ _⟩
  | event ev =>
    rcases hrun : ρ.run (s.engine.step d ev) s.world with ⟨⟨out, e⟩, w⟩
    have hmove : s.move ρ d (.event ev) = s.record ev out e w := by rw [move, hrun]
    rw [hmove]
    exact ht.record hrun

/-- **Counting goes on over any number of moves.** -/
theorem tallied_run (ht : Tallied moves s) (more : List (Move W)) :
    Tallied (moves ++ more) (s.run ρ d more) := by
  induction more generalizing moves s with
  | nil => exact (List.append_nil moves).symm ▸ ht
  | cons mv more ih =>
    have hrest := ih (tallied_move (ρ := ρ) (d := d) ht mv)
    rwa [List.append_assoc] at hrest

/-- **A reply is taken from the frame that it answers**, and that frame does not come back. -/
theorem repliesPop_move (ht : Tallied moves s) (hpop : RepliesPop s.moments moves) (mv : Move W) :
    RepliesPop (s.move ρ d mv).moments (moves ++ [mv]) := by
  obtain ⟨past, last, hpast, hlast, hlength⟩ := ht.latest
  have hcount : s.moments.length = moves.length + 1 := by simp [hpast, hlength]
  obtain ⟨now, hnow⟩ : ∃ now, (s.move ρ d mv).moments = s.moments ++ [now] := by
    cases mv with
    | outside edit => exact ⟨_, rfl⟩
    | event ev => exact ⟨_, moments_record⟩
  intro k m m' reaction r round fs hm hm' hmove hframes
  rcases Nat.lt_or_ge k moves.length with hlt | hge
  · rw [hnow, List.getElem?_append_left (by omega)] at hm hm'
    rw [List.getElem?_append_left hlt] at hmove
    exact hpop k m m' reaction r round fs hm hm' hmove hframes
  · -- the move that has just been made
    rw [List.getElem?_append_right hge, List.getElem?_singleton] at hmove
    obtain ⟨hzero, hmv⟩ := (Option.ite_none_right_eq_some ..).1 hmove
    obtain rfl : k = moves.length := by omega
    obtain rfl := Option.some.inj hmv
    rw [hnow, ← hcount, List.getElem?_concat_length] at hm'
    rw [hnow, List.getElem?_append_left (by omega), hpast, ← hlength,
      List.getElem?_concat_length] at hm
    obtain rfl := Option.some.inj hm
    obtain rfl := Option.some.inj hm'
    rw [hlast] at hframes
    have hstep : ρ.run (s.engine.step d (.told reaction)) s.world =
        ({ s.engine with frames := fs }.resume r round reaction, s.world) := by
      rw [Engine.step, hframes, ρ.run_pure]
    have hmoments : (s.move ρ d (.event (.told reaction))).moments = s.moments ++
        [⟨none, none, ({ s.engine with frames := fs }.resume r round reaction).2⟩] := by
      rw [move, hstep]
      exact moments_record
    obtain rfl := List.singleton_inj.1 (List.append_cancel_left (hnow.symm.trans hmoments))
    exact not_suffix_resume { s.engine with frames := fs } r round reaction

/-- Over a whole session no frame comes back. -/
theorem repliesPop_run (ht : Tallied moves s) (hpop : RepliesPop s.moments moves)
    (more : List (Move W)) : RepliesPop (s.run ρ d more).moments (moves ++ more) := by
  induction more generalizing moves s with
  | nil => exact (List.append_nil moves).symm ▸ hpop
  | cons mv more ih =>
    have hrest := ih (tallied_move (ρ := ρ) (d := d) ht mv) (repliesPop_move ht hpop mv)
    rwa [List.append_assoc] at hrest

/-! ### Every session -/

/-- All there is to know of the registrations of a session, given the moves that have been made. -/
structure KeepsRoll (moves : List (Move W)) (s : Session W) : Prop where
  /-- At each moment those are registered that have been added up to then, in order, without those
  that have gone since. -/
  rolled : Rolled s.moments
  /-- As long as less than `n` have been registered, no id has come to `n`. -/
  bounded : ∀ r ∈ s.engine.registry.registrations, r.id < (additions s.moments).length
  /-- No id is handed out twice. -/
  distinct : s.exchanges.Pairwise fun x y ↦ ∀ id, x.Adds id → ¬y.Adds id
  /-- The answers say what is added, and whether what is to be removed is there. -/
  answered : ∀ x ∈ s.exchanges, x.OnRoll s.moments
  /-- No id is removed twice. -/
  once : s.exchanges.Pairwise fun x y ↦ ∀ id, x.Removes id → ¬y.Removes id
  /-- What has been added or removed while a delivery was under way is not lost or undone when it
  ends. In between calls the registry does not change. -/
  undisturbed : ∀ k m m', s.moments[k]? = some m → s.moments[k + 1]? = some m' → m'.call = none →
    m'.engine.registry = m.engine.registry
  /-- A delivery is answered by the number of those that it has told and that have accepted. -/
  counted : ∀ x ∈ s.exchanges, x.Counted s.moments moves
  /-- There is one such number. -/
  determined : ∀ S k rs n n' k' k'', Tally s.moments moves S k rs n k' [] →
    Tally s.moments moves S k rs n' k'' [] → n = n' ∧ k' = k''

/-- **The registry keeps exactly the registrations that it should**, whatever listeners do while
they are being told. -/
theorem keepsRoll_run (ρ : Runner m W) (d : Documents m) (editAction : String) (w : W)
    (moves : List (Move W)) : ((bare editAction w).run ρ d moves).KeepsRoll moves := by
  have hs : ((bare editAction w).run ρ d moves).Enrolled :=
    enrolled_run (enrolled_bare editAction w) moves
  have ht : Tallied moves ((bare editAction w).run ρ d moves) :=
    tallied_run (tallied_bare editAction w) moves
  have hpop : RepliesPop ((bare editAction w).run ρ d moves).moments moves :=
    repliesPop_run (tallied_bare editAction w)
      (fun _ _ _ _ _ _ _ _ _ hmove ↦ nomatch hmove) moves
  refine ⟨hs.rolled, fun r hr ↦ ?_, hs.distinct, hs.answered, hs.once,
    fun k m m' hm hm' hcall ↦ hs.rolled.registry_eq hm hm' hcall, ht.counted,
    fun _ _ _ _ _ _ _ ↦ Tally.unique hpop⟩
  have hlt := hs.id_lt hr
  rwa [hs.registry_eq] at hlt

end Session

end LayeredRights
