import LayeredRights.Proofs.Delivery.Chronicle
import LayeredRights.Proofs.Resolver.CacheFree

/-!
# What an event comes to

An event calls for nothing, or it serves one call: that which is made, or the innermost of those
that wait. Either the call tells nobody and has nothing to do with a round (`Quiet`), or it begins a
delivery or goes on with one (`Engine.Comes`). What is known of deliveries over whole sessions is
derived from this, event by event.

The engine is left behind here. `Engine.Comes` has one constructor for each way in which an event
can concern a delivery, with the frames before and after, and it does not say what a look-up or a
query comes to. Proofs about rounds go by its cases, of which the last two are the ones that matter:
a delivery begins with the audience of that moment and nobody has accepted, or it goes on where it
was left, with one more who has accepted or none.

Two calls can begin a delivery by succeeding, and one is a delivery by itself. What these have to do
with each other is left open in `Engine.Comes.begun`, where the call is any call.
-/

namespace LayeredRights

/-! ### Moves that tell nobody -/

/-- What a move comes to that answers the call it serves, or asks for anything but that a listener
be told. The frames around that call are `fs`. -/
inductive Quiet (fs : List Frame) : Output × Engine → Prop
  | answered {a : Answer} {e : Engine} (hframes : e.frames = fs) : Quiet fs (.answered a, e)
  | lookingUp {q : Query} {login : String} {e : Engine} (hframes : e.frames = .lookingUp q :: fs) :
      Quiet fs (.asked (.rolesOf login), e)
  | listing {e : Engine} (hframes : e.frames = .listing :: fs) : Quiet fs (.asked .usernames, e)

section Quiet

variable {e : Engine}

/-- Warming answers, or it looks up the next login. -/
theorem quiet_warm (i total : Nat) (ls : List String) : Quiet e.frames (e.warm i total ls) := by
  induction ls with
  | nil => exact .answered rfl
  | cons l ls ih =>
    unfold Engine.warm
    split
    · exact ih
    · exact .lookingUp rfl

theorem quiet_satisfy (q : Query) (actions : NameSet) : Quiet e.frames (e.satisfy q actions) := by
  obtain ⟨i, login, purpose⟩ := q
  cases purpose with
  | decide action => exact .answered rfl
  | list => exact .answered rfl
  | warmUp rest total => exact quiet_warm i total rest

/-- A query is answered, or it looks up its login. -/
theorem quiet_query (q : Query) : Quiet e.frames (e.query q) := by
  unfold Engine.query
  split
  · exact quiet_satisfy q _
  · exact .lookingUp rfl

theorem quiet_rolesFound {q : Query} {g : Generation} (hg : e.generations[q.generation]? = some g)
    (result : Except DirectoryError NameSet) : Quiet e.frames (e.rolesFound q result) := by
  have hbuild : ∀ {e : Engine} (roles : NameSet), e.generation? q.generation = some g →
      Quiet e.frames (e.build q roles) := by
    intro e roles hgen
    simp only [Engine.build, hgen]
    exact quiet_satisfy (e := { e.report _ with generations := _ }) q _
  cases result with
  | ok roles => exact hbuild roles hg
  | error _ => exact hbuild (e := e.report [.rolesUnavailable q.login]) ∅ hg

variable {m : Type → Type} [Monad m] {W : Type} (ρ : Runner m W) (d : Documents m)

theorem quiet_beginQuery {login : String} {purpose : Purpose}
    {failed : RightsError → Engine → Output × Engine}
    (hfailed : ∀ err e', e'.frames = e.frames → Quiet e.frames (failed err e')) (w : W) :
    Quiet e.frames (ρ.run (e.beginQuery d login purpose failed) w).1 := by
  rw [Engine.beginQuery, ρ.run_bind, ρ.run_withStore]
  rcases ρ.perform (Store.current d) e.store w with ⟨err | S, s, w'⟩
  · simp only [ρ.run_pure]
    exact hfailed err { e with store := s } rfl
  · rcases hgen : Engine.generationFor { e with store := s } S with ⟨i, e'⟩
    have hframes : e'.frames = e.frames := by
      rw [← Engine.frames_generationFor { e with store := s } S, hgen]
    simp only [hgen, ρ.run_pure]
    exact hframes ▸ quiet_query ⟨i, login, purpose⟩

theorem quiet_usersFound (result : Except DirectoryError (List String)) (w : W) :
    Quiet e.frames (ρ.run (e.usersFound d result) w).1 := by
  cases result with
  | error err =>
    rw [Engine.usersFound, ρ.run_pure]
    exact .answered rfl
  | ok users =>
    rw [Engine.usersFound, ρ.run_bind, ρ.run_withStore]
    rcases ρ.perform (Store.current d) e.store w with ⟨err | S, s, w'⟩
    · simp only [ρ.run_pure]
      exact .answered rfl
    · rcases hgen : Engine.generationFor { e with store := s } S with ⟨i, e'⟩
      have hframes : e'.frames = e.frames := by
        rw [← Engine.frames_generationFor { e with store := s } S, hgen]
      simp only [hgen, ρ.run_pure]
      exact hframes ▸ quiet_warm i users.length users

/-- **A call that cannot announce anything tells nobody.** -/
theorem quiet_call {c : Call} (hc : c.announces = false) (w : W) :
    Quiet e.frames (ρ.run (e.call d c) w).1 := by
  cases c with
  | update | reload | announce => exact nomatch hc
  | current =>
    rw [Engine.call, ρ.run_bind, ρ.run_withStore, ρ.run_pure]
    exact .answered rfl
  | subscribe | unsubscribe | attachResolver | discard =>
    rw [Engine.call, ρ.run_pure]
    exact .answered rfl
  | isAllowed | tryIsAllowed | effectiveActions =>
    rw [Engine.call]
    refine quiet_beginQuery ρ d ?_ w
    intro err e' hframes
    exact .answered hframes
  | warmUp =>
    rw [Engine.call, ρ.run_pure]
    exact .listing rfl

end Quiet

/-! ### What an event comes to -/

/-- How much a reaction adds to the number of those that have accepted. -/
def Reaction.credit : Reaction → Nat
  | .accepted => 1
  | .failed | .panicked => 0

/-- What an event comes to: it calls for nothing, it is a call or the reply to one that tells nobody
then, or a delivery begins or goes on. -/
inductive Engine.Comes (e : Engine) (ev : Event) : Output × Engine → Prop
  | nothing {e' : Engine} (hcall : ev.call? = none) (hframes : e'.frames = e.frames) :
      Comes e ev (.nothing, e')
  | called {c : Call} {o : Output × Engine} (hcall : ev.call? = some c)
      (hc : ∀ S, c ≠ .announce S) (hquiet : Quiet e.frames o) : Comes e ev o
  | replied {f : Frame} {fs : List Frame} {o : Output × Engine} (hcall : ev.call? = none)
      (hframes : e.frames = f :: fs) (hf : ∀ r round, f ≠ .telling r round)
      (hquiet : Quiet fs o) : Comes e ev o
  | begun {c : Call} (e₁ : Engine) {round : Round} (hcall : ev.call? = some c)
      (hframes : e₁.frames = e.frames) (hround : round.accepted = 0)
      (hc : ∀ S, c = .announce S → round.occasion = .announced ∧ round.snapshot = S) :
      Comes e ev (e₁.deliver round e.audience)
  | resumed {r : Registration} {round : Round} {fs : List Frame} {reaction : Reaction}
      (e₁ : Engine) (hev : ev = .told reaction) (hframes : e.frames = .telling r round :: fs)
      (hfs : e₁.frames = fs) :
      Comes e ev (e₁.deliver { round with accepted := round.accepted + reaction.credit } round.rest)

section Comes

variable {m : Type → Type} [Monad m] {W : Type} {ρ : Runner m W} {d : Documents m}

/-- Announcing begins a delivery to the audience of that moment. -/
theorem comes_announce {e : Engine} {c : Call} (s : Store) {S : Snapshot} {occasion : Occasion}
    (hc : ∀ S', c = .announce S' → occasion = .announced ∧ S = S') :
    e.Comes (.call c) (Engine.announce { e with store := s } S occasion) :=
  .begun { e with store := s, registry := e.registry.prune e.isAlive } rfl rfl rfl hc

/-- A call tells nobody, or it begins a delivery. -/
theorem comes_call (e : Engine) (c : Call) (w : W) :
    e.Comes (.call c) (ρ.run (e.call d c) w).1 := by
  cases hc : c.announces with
  | false =>
    refine .called rfl (fun S hS ↦ ?_) (quiet_call ρ d hc w)
    rw [hS] at hc
    cases hc
  | true =>
    cases c with
    | update candidate =>
      rw [Engine.call, ρ.run_bind, ρ.run_withStore]
      rcases ρ.perform (Store.commit d candidate) e.store w with ⟨err | _ | S, s, w'⟩
      all_goals simp only [ρ.run_pure]
      · exact .called rfl (by simp) (.answered rfl)
      · exact .called rfl (by simp) (.answered rfl)
      · exact comes_announce s (by simp)
    | reload =>
      rw [Engine.call, ρ.run_bind, ρ.run_withStore]
      rcases ρ.perform (Store.reload d) e.store w with ⟨err | S, s, w'⟩
      all_goals simp only [ρ.run_pure]
      · exact .called rfl (by simp) (.answered rfl)
      · exact comes_announce s (by simp)
    | announce S =>
      rw [Engine.call, ρ.run_pure]
      exact comes_announce e.store fun S' hS' ↦ ⟨rfl, Call.announce.inj hS'⟩
    | _ => cases hc

/-- A reaction lets the delivery go on, and counts if it accepts. -/
theorem comes_resume {e : Engine} {r : Registration} {round : Round} {fs : List Frame}
    (hframes : e.frames = .telling r round :: fs) (reaction : Reaction) :
    e.Comes (.told reaction) (Engine.resume { e with frames := fs } r round reaction) := by
  cases reaction with
  | accepted => exact .resumed { e with frames := fs } rfl hframes rfl
  | failed => exact .resumed (Engine.report { e with frames := fs } _) rfl hframes rfl
  | panicked => exact .resumed (Engine.report { e with frames := fs } _) rfl hframes rfl

/-- **What each event comes to.** -/
theorem Session.Sound.comes {s : Session W} (hs : s.Sound) (ev : Event) (w : W) :
    s.engine.Comes ev (ρ.run (s.engine.step d ev) w).1 := by
  cases ev with
  | call c => exact comes_call s.engine c w
  | released key =>
    rw [Engine.step, ρ.run_pure]
    exact .nothing rfl rfl
  | told reaction =>
    rw [Engine.step]
    split
    · rename_i r round fs hframes
      rw [ρ.run_pure]
      exact comes_resume hframes reaction
    · rw [ρ.run_pure]
      exact .nothing rfl rfl
  | rolesFound result =>
    rw [Engine.step]
    split
    · rename_i q fs hframes
      obtain ⟨-, -, ⟨-, -, g, hg, -⟩, -, -⟩ := hs.awaits_of_frames_eq hframes
      rw [ρ.run_pure]
      exact .replied rfl hframes (by simp)
        (quiet_rolesFound (e := { s.engine with frames := fs }) hg result)
    · rw [ρ.run_pure]
      exact .nothing rfl rfl
  | usersFound result =>
    rw [Engine.step]
    split
    · rename_i fs hframes
      exact .replied rfl hframes (by simp)
        (quiet_usersFound (e := { s.engine with frames := fs }) ρ d result w)
    · rw [ρ.run_pure]
      exact .nothing rfl rfl

end Comes

end LayeredRights
