import LayeredRights.Proofs.Resolver.Answering

/-!
# The turns of a delivery

A delivery goes over a copy of the registrations, and each of them has one turn, in order. Who is
gone by then is passed over. The resolver takes the change at once. A listener is told, and nobody
else has a turn before it has returned, however many calls are made and answered meanwhile.

`Turns` says so of the moments of a session, without looking into the engine beyond who is alive: it
relates the moment at which a registration is due, and those still due, to the moment that has come
once some of them have had their turns, and lists who was told at which moment. Nobody comes or goes
within one move (`Engine.isAlive_deliver`), so all turns within a move are judged by the engine
after it, and `Engine.goes_deliver` says what one move makes of a delivery. A delivery of any length
is then a chain of these (`Turns.trans`).

A turn that takes no time and the turn of a listener are kept apart in `Engine.Goes`, because only
the latter ends a move. The first listener that is alive is told, and the rest of the round waits in
a frame until it has returned. Where there is none, the delivery is over and the call it belongs to
is answered in the same move.
-/

namespace LayeredRights

/-! ### One move -/

namespace Engine

variable {e : Engine} {r r' : Registration} {round : Round} {key : Nat}

theorem isAlive_discard (e : Engine) (r : Registration) : e.discard.isAlive r = e.isAlive r := by
  cases hr : e.resolver <;> simp [isAlive, discard, isBeingTold, hr]

/-- A listener is alive as long as its registration is held, and while it is being told. -/
theorem isAlive_of_listener (e : Engine) (hr : r.subscriber = .listener key) :
    e.isAlive r = (decide (key ∉ e.released) || e.isBeingTold (.listener key)) := by
  rw [isAlive, hr]

/-- Telling a listener that is alive makes no difference to who is alive. -/
theorem isAlive_ask (halive : e.isAlive r' = true) (hsub : r'.subscriber = .listener key)
    (round : Round) (q : Request) (r : Registration) :
    (e.ask (.telling r' round) q).2.isAlive r = e.isAlive r := by
  cases hr : r.subscriber with
  | resolver => simp [isAlive, ask, hr]
  | listener key' =>
    have htold : (e.ask (.telling r' round) q).2.isBeingTold (.listener key') =
        (decide (r'.subscriber = .listener key') || e.isBeingTold (.listener key')) := rfl
    rw [isAlive_of_listener _ hr, isAlive_of_listener _ hr, htold, hsub]
    rw [isAlive_of_listener _ hsub] at halive
    by_cases heq : key = key'
    · subst heq
      rw [halive, decide_eq_true rfl, Bool.true_or, Bool.or_true]
    · rw [decide_eq_false fun h ↦ heq (Subscriber.listener.inj h), Bool.false_or]
      rfl

/-- Nobody comes or goes by a delivery. A listener that is told was alive before. -/
theorem isAlive_deliver (round : Round) (rs : List Registration) (r : Registration) :
    (e.deliver round rs).2.isAlive r = e.isAlive r := by
  induction rs generalizing e round with
  | nil => rfl
  | cons r' rs ih =>
    unfold deliver
    split
    · next halive =>
      cases hsub : r'.subscriber with
      | listener key => exact isAlive_ask halive hsub _ _ r
      | resolver => exact (ih _).trans (e.isAlive_discard r)
    · exact ih _

/-- A delivery is none of the business of the store. -/
theorem store_deliver (round : Round) (rs : List Registration) :
    (e.deliver round rs).2.store = e.store := by
  induction rs generalizing e round with
  | nil => rfl
  | cons r' rs ih =>
    unfold deliver
    split
    · cases r'.subscriber with
      | listener key => rfl
      | resolver => exact ih _
    · exact ih _

/-- A registration whose turn takes no time: its subscriber is gone, or it is the resolver, which
has no generation in use once it has been told. -/
def Passes (e : Engine) (r : Registration) : Prop :=
  e.isAlive r = false ∨ e.isAlive r = true ∧ r.subscriber = .resolver ∧ e.inUse? = none

/-- What going on with a delivery comes to. The engine is the one it leaves, and `fs` are the frames
around the delivery. -/
inductive Goes (e : Engine) (fs : List Frame) (round : Round) (rs : List Registration) :
    Output → Prop
  /-- Everyone has had a turn, and the call that the delivery belongs to is answered. -/
  | ended (n : Nat) (hpass : ∀ r ∈ rs, e.Passes r) (hframes : e.frames = fs) :
      Goes e fs round rs (.answered { round with accepted := n }.answer)
  /-- A listener is told. -/
  | told {before after : List Registration} {r : Registration} {key n : Nat}
      (hrs : rs = before ++ r :: after) (hpass : ∀ r ∈ before, e.Passes r)
      (halive : e.isAlive r = true) (hsub : r.subscriber = .listener key)
      (hframes : e.frames = .telling r { round with rest := after, accepted := n } :: fs) :
      Goes e fs round rs (.asked (.tell key round.snapshot))

/-- A turn that takes no time. -/
theorem Goes.pass {fs : List Frame} {rs : List Registration} {out : Output} {n : Nat}
    (h : Goes e fs { round with accepted := n } rs out) (hr : e.Passes r) :
    Goes e fs round (r :: rs) out := by
  cases h with
  | ended n hpass hframes => exact .ended n (List.forall_mem_cons.2 ⟨hr, hpass⟩) hframes
  | told hrs hpass halive hsub hframes =>
    exact .told (congrArg (r :: ·) hrs) (List.forall_mem_cons.2 ⟨hr, hpass⟩) halive hsub hframes

/-- **What one move makes of a delivery**: it ends, or the next listener is told. -/
theorem goes_deliver (e : Engine) (round : Round) (rs : List Registration) :
    Goes (e.deliver round rs).2 e.frames round rs (e.deliver round rs).1 := by
  induction rs generalizing e round with
  | nil => exact .ended round.accepted (fun r hr ↦ nomatch hr) rfl
  | cons r rs ih =>
    have hsame := e.isAlive_deliver round (r :: rs) r
    cases halive : e.isAlive r with
    | false =>
      have hdeliver : e.deliver round (r :: rs) = e.deliver round rs := by
        rw [deliver, halive]
        rfl
      rw [halive, hdeliver] at hsame
      rw [hdeliver]
      exact (ih e round).pass (n := round.accepted) (.inl hsame)
    | true =>
      cases hsub : r.subscriber with
      | resolver =>
        have hdeliver : e.deliver round (r :: rs) =
            e.discard.deliver { round with accepted := round.accepted + 1 } rs := by
          rw [deliver, if_pos halive, hsub]
        have hnobody : ∀ r' ∈ ([] : List Registration), e.isAlive r' = false := by simp
        have hnone : (e.deliver round (r :: rs)).2.inUse? = none :=
          inUse?_deliver round hnobody hsub halive
        rw [halive, hdeliver] at hsame
        rw [hdeliver] at hnone ⊢
        exact (ih e.discard _).pass (.inr ⟨hsame, hsub, hnone⟩)
      | listener key =>
        have hdeliver : e.deliver round (r :: rs) =
            e.ask (.telling r { round with rest := rs }) (.tell key round.snapshot) := by
          rw [deliver, if_pos halive, hsub]
        rw [halive, hdeliver] at hsame
        rw [hdeliver]
        have hnobody : ∀ r' ∈ ([] : List Registration),
            (e.ask (.telling r { round with rest := rs })
              (.tell key round.snapshot)).2.Passes r' := by
          simp
        exact .told rfl hnobody hsame hsub rfl

end Engine

/-! ### Any number of moves -/

/-- From moment `k`, with the registrations `rs` due in turn, one has come to moment `k'` with the
registrations `rs'` still due. Listed are those who were told meanwhile, by their keys, each with
the moment at which it was told. -/
inductive Turns (h : List Moment) :
    Nat → List Registration → List (Nat × Nat) → Nat → List Registration → Prop
  | stay (k : Nat) (rs : List Registration) : Turns h k rs [] k rs
  /-- Who is gone when its turn comes is passed over. -/
  | gone {k k' : Nat} {r : Registration} {rs rs' : List Registration} {ts : List (Nat × Nat)}
      {m : Moment} (hm : h[k]? = some m) (hgone : m.engine.isAlive r = false)
      (next : Turns h k rs ts k' rs') : Turns h k (r :: rs) ts k' rs'
  /-- The resolver takes the change at once. -/
  | resolved {k k' : Nat} {r : Registration} {rs rs' : List Registration} {ts : List (Nat × Nat)}
      {m : Moment} (hm : h[k]? = some m) (halive : m.engine.isAlive r = true)
      (hsub : r.subscriber = .resolver) (hdiscarded : m.engine.inUse? = none)
      (next : Turns h k rs ts k' rs') : Turns h k (r :: rs) ts k' rs'
  /-- A listener that is alive when its turn comes is told. The next turn comes when it returns. -/
  | told {k k₁ k' key : Nat} {r : Registration} {rs rs' : List Registration}
      {ts : List (Nat × Nat)} {m : Moment} (hm : h[k]? = some m)
      (halive : m.engine.isAlive r = true) (hsub : r.subscriber = .listener key) (hlt : k < k₁)
      (next : Turns h k₁ rs ts k' rs') : Turns h k (r :: rs) ((k, key) :: ts) k' rs'

namespace Turns

variable {h : List Moment} {k k' k'' : Nat} {rs rs' rs'' : List Registration}
  {ts ts' : List (Nat × Nat)}

theorem trans (ht : Turns h k rs ts k' rs') (ht' : Turns h k' rs' ts' k'' rs'') :
    Turns h k rs (ts ++ ts') k'' rs'' := by
  induction ht with
  | stay k rs => exact ht'
  | gone hm hgone _ ih => exact .gone hm hgone (ih ht')
  | resolved hm halive hsub hdiscarded _ ih => exact .resolved hm halive hsub hdiscarded (ih ht')
  | told hm halive hsub hlt _ ih => exact .told hm halive hsub hlt (ih ht')

/-- What has been stays so. -/
theorem later (ht : Turns h k rs ts k' rs') (now : List Moment) :
    Turns (h ++ now) k rs ts k' rs' := by
  have hkept : ∀ {k : Nat} {m : Moment}, h[k]? = some m → (h ++ now)[k]? = some m := fun hk ↦
    (List.getElem?_append_left (List.getElem?_eq_some_iff.1 hk).1).trans hk
  induction ht with
  | stay k rs => exact .stay k rs
  | gone hm hgone _ ih => exact .gone (hkept hm) hgone ih
  | resolved hm halive hsub hdiscarded _ ih =>
    exact .resolved (hkept hm) halive hsub hdiscarded ih
  | told hm halive hsub hlt _ ih => exact .told (hkept hm) halive hsub hlt ih

/-- Turns that take no time. -/
theorem of_passes {m : Moment} (hm : h[k]? = some m) {before : List Registration}
    (hpass : ∀ r ∈ before, m.engine.Passes r) (rs : List Registration) :
    Turns h k (before ++ rs) [] k rs := by
  induction before with
  | nil => exact .stay k rs
  | cons r before ih =>
    obtain ⟨hr, hrest⟩ := List.forall_mem_cons.1 hpass
    rcases hr with hgone | ⟨halive, hsub, hdiscarded⟩
    · exact .gone hm hgone (ih hrest)
    · exact .resolved hm halive hsub hdiscarded (ih hrest)

end Turns

end LayeredRights
