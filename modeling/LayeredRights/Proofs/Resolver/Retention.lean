import LayeredRights.Proofs.Delivery.Chronicle
import LayeredRights.Proofs.Delivery.Residence
import LayeredRights.Proofs.Resolver.Answering

/-!
# What is cached stays cached

An action set that has been stored is never changed: whatever happens, each generation stays where
it is, and has at least the action sets that it had (`Engine.Grows`). What may change is which
generation is in use, and that only for a reason. As long as the same snapshot is resident, the
generation in use for it stays in use until none is (`Engine.Retains`).

Most of what the engine does takes up no generation (`Engine.Keeps`), and this can be said of one
operation after the other. A generation is taken up once in an event at most, right after the store
has been asked for the configuration in force, so one event retains what was in use before it
(`Engine.retains_step`), and a session does so from one moment to the next (`Session.Retaining`).

The three relations are of different strength. `Engine.Grows` and `Engine.Keeps` are transitive, so
they pass along a function of the engine from one operation to the next. `Engine.Retains` is not: it
says nothing of a generation while its snapshot is not resident, and by itself it does not exclude
that a snapshot comes back. It may be followed by any number of operations that take up no
generation (`Engine.Retains.trans_keeps`), and that is enough, since none is taken up before.
-/

namespace LayeredRights

/-! ### Generations -/

/-- A generation, later on. -/
structure Generation.Extends (g g' : Generation) : Prop where
  snapshot : g'.snapshot = g.snapshot
  stored : ∀ login actions, g.find? login = some actions → g'.find? login = some actions

namespace Generation.Extends

theorem refl (g : Generation) : g.Extends g := ⟨rfl, fun _ _ h ↦ h⟩

theorem trans {g g' g'' : Generation} (h : g.Extends g') (h' : g'.Extends g'') : g.Extends g'' :=
  ⟨h'.snapshot.trans h.snapshot, fun _ _ hfind ↦ h'.stored _ _ (h.stored _ _ hfind)⟩

end Generation.Extends

/-- An action set that is stored for a login already is kept. -/
theorem Generation.extends_remember (g : Generation) (login : String) (actions : NameSet) :
    g.Extends (g.remember login actions) where
  snapshot := g.snapshot_remember login actions
  stored other found hfind := by
    by_cases heq : other = login
    · subst heq
      rw [find?_remember_self, hfind]
      rfl
    · rw [g.find?_remember_of_ne actions heq, hfind]

namespace Engine

/-- No generation is lost, nor anything that is stored in it, and neither is the resolver. -/
structure Grows (e e' : Engine) : Prop where
  generations : ∀ (i : Nat) (g : Generation), e.generations[i]? = some g →
    ∃ g', e'.generations[i]? = some g' ∧ g.Extends g'
  resolver : e.resolver.isSome = true → e'.resolver.isSome = true

/-- No generation is taken up. -/
structure Keeps (e e' : Engine) : Prop extends Grows e e' where
  resident : e'.store.resident = e.store.resident
  inUse : e'.inUse? = e.inUse? ∨ e'.inUse? = none

/-- No generation is taken up in place of one whose snapshot is resident. -/
structure Retains (e e' : Engine) : Prop extends Grows e e' where
  inUse : ∀ (i : Nat) (g : Generation), e.inUse? = some i → e.generations[i]? = some g →
    e'.store.resident = some g.snapshot → e'.inUse? = some i ∨ e'.inUse? = none

section Relations

variable {e e' e'' : Engine}

theorem Grows.of_eq (hgenerations : e'.generations = e.generations)
    (hresolver : e'.resolver = e.resolver) : e.Grows e' where
  generations _ g hg := ⟨g, hgenerations ▸ hg, .refl g⟩
  resolver h := hresolver ▸ h

theorem Grows.trans (h : e.Grows e') (h' : e'.Grows e'') : e.Grows e'' where
  generations i g hg := by
    obtain ⟨g', hg', hext⟩ := h.generations i g hg
    obtain ⟨g'', hg'', hext'⟩ := h'.generations i g' hg'
    exact ⟨g'', hg'', hext.trans hext'⟩
  resolver hr := h'.resolver (h.resolver hr)

theorem Keeps.of_eq (hgenerations : e'.generations = e.generations)
    (hresolver : e'.resolver = e.resolver) (hresident : e'.store.resident = e.store.resident) :
    e.Keeps e' :=
  ⟨.of_eq hgenerations hresolver, hresident, .inl (congrArg (·.bind (·.inUse)) hresolver)⟩

theorem Keeps.refl (e : Engine) : e.Keeps e := .of_eq rfl rfl rfl

theorem Keeps.trans (h : e.Keeps e') (h' : e'.Keeps e'') : e.Keeps e'' where
  toGrows := h.toGrows.trans h'.toGrows
  resident := h'.resident.trans h.resident
  inUse := h'.inUse.elim (fun heq ↦ heq ▸ h.inUse) .inr

theorem Keeps.retains (h : e.Keeps e') : e.Retains e' where
  toGrows := h.toGrows
  inUse _ _ hi _ _ := h.inUse.imp_left fun heq ↦ heq.trans hi

/-- After a generation has been taken up, there may be operations that take up none. -/
theorem Retains.trans_keeps (h : e.Retains e') (h' : e'.Keeps e'') : e.Retains e'' where
  toGrows := h.toGrows.trans h'.toGrows
  inUse i g hi hg hS := by
    have huse := h.inUse i g hi hg (h'.resident.symm.trans hS)
    rcases h'.inUse with heq | hnone
    · rwa [heq]
    · exact .inr hnone

end Relations

/-! ### Operations that take up no generation -/

section Operations

variable {e : Engine}

theorem keeps_report (ns : List Notice) : e.Keeps (e.report ns) := .of_eq rfl rfl rfl

theorem keeps_discard : e.Keeps e.discard where
  toGrows := ⟨fun _ g hg ↦ ⟨g, hg, .refl g⟩, fun h ↦ by simpa [discard] using h⟩
  resident := rfl
  inUse := .inr e.inUse?_discard

theorem keeps_attachResolver : e.Keeps e.attachResolver where
  toGrows := ⟨fun _ g hg ↦ ⟨g, hg, .refl g⟩, fun _ ↦ rfl⟩
  resident := rfl
  inUse := .inr rfl

/-- In a delivery the resolver puts its generation out of use, and listeners touch nothing. -/
theorem keeps_deliver (round : Round) (rs : List Registration) :
    e.Keeps (e.deliver round rs).2 := by
  induction rs generalizing e round with
  | nil => exact .refl e
  | cons r rs ih =>
    unfold deliver
    split
    · cases r.subscriber with
      | listener key => exact .of_eq rfl rfl rfl
      | resolver => exact keeps_discard.trans (ih _)
    · exact ih _

theorem keeps_announce (S : Snapshot) (occasion : Occasion) :
    e.Keeps (e.announce S occasion).2 := by
  let pruned : Engine := { e with registry := e.registry.prune e.isAlive }
  have hpruned : e.Keeps pruned := .of_eq rfl rfl rfl
  exact hpruned.trans (keeps_deliver _ _)

theorem keeps_resume (r : Registration) (round : Round) (reaction : Reaction) :
    e.Keeps (e.resume r round reaction).2 := by
  cases reaction with
  | accepted => exact keeps_deliver _ _
  | failed => exact (keeps_report [.listenerFailed r.id]).trans (keeps_deliver _ _)
  | panicked => exact (keeps_report [.listenerPanicked r.id]).trans (keeps_deliver _ _)

theorem keeps_warm (i total : Nat) (ls : List String) : e.Keeps (e.warm i total ls).2 := by
  induction ls with
  | nil => exact .refl e
  | cons l ls ih =>
    unfold warm
    split
    · exact ih
    · exact .of_eq rfl rfl rfl

theorem keeps_satisfy (q : Query) (actions : NameSet) : e.Keeps (e.satisfy q actions).2 := by
  obtain ⟨i, login, purpose⟩ := q
  cases purpose with
  | warmUp rest total => exact keeps_warm i total rest
  | decide | list => exact .refl e

theorem keeps_query (q : Query) : e.Keeps (e.query q).2 := by
  unfold query
  split
  · exact keeps_satisfy q _
  · exact .of_eq rfl rfl rfl

/-- What is stored stays beside what is added to it. -/
theorem keeps_remember {i : Nat} {g : Generation} (hg : e.generations[i]? = some g)
    (login : String) (actions : NameSet) :
    e.Keeps { e with generations := e.generations.set i (g.remember login actions) } := by
  refine ⟨⟨fun j g' hg' ↦ ?_, id⟩, rfl, .inl rfl⟩
  by_cases hij : i = j
  · subst hij
    obtain rfl : g = g' := Option.some.inj (hg.symm.trans hg')
    have hlt : i < e.generations.length := (List.getElem?_eq_some_iff.1 hg).1
    exact ⟨_, List.getElem?_set_self hlt, g.extends_remember login actions⟩
  · exact ⟨g', (List.getElem?_set_ne hij).trans hg', .refl g'⟩

/-- An action set goes into the generation of its query, whether that is in use or not. -/
theorem keeps_build (q : Query) (roles : NameSet) : e.Keeps (e.build q roles).2 := by
  unfold build
  split
  · exact .refl e
  · next g hg =>
    refine Keeps.trans ?_ (keeps_satisfy q _)
    exact (keeps_report _).trans (keeps_remember (e := e.report _) hg q.login _)

theorem keeps_rolesFound (q : Query) (result : Except DirectoryError NameSet) :
    e.Keeps (e.rolesFound q result).2 := by
  cases result with
  | ok roles => exact keeps_build q roles
  | error err => exact (keeps_report [.rolesUnavailable q.login]).trans (keeps_build q ∅)

end Operations

/-! ### One event -/

section Events

variable {m : Type → Type} [Monad m] {W : Type} {ρ : Runner m W} {d : Documents m} {e : Engine}

/-- Operations of the store make no difference to the cache. -/
theorem retains_store (s : Store) : e.Retains { e with store := s } where
  toGrows := .of_eq rfl rfl
  inUse _ _ hi _ _ := .inl hi

/-- A generation for the resident snapshot is taken up if none is in use for it. -/
theorem retains_generationFor {s : Store} {S : Snapshot} (hS : s.resident = some S) :
    e.Retains (generationFor { e with store := s } S).2 := by
  unfold generationFor
  split
  · exact retains_store s
  · next hnone =>
    refine ⟨⟨fun i g hg ↦ ?_, fun h ↦ by simpa using h⟩, fun i g hi hg hg' ↦ ?_⟩
    · have hlt : i < e.generations.length := (List.getElem?_eq_some_iff.1 hg).1
      exact ⟨g, (List.getElem?_append_left hlt).trans hg, .refl g⟩
    · -- the generation in use would have been one for the snapshot
      obtain rfl : S = g.snapshot := Option.some.inj (hS.symm.trans hg')
      have hsome : ({ e with store := s } : Engine).inUseFor? g.snapshot = some i :=
        inUseFor?_of_inUse? hi hg
      exact absurd (hnone.symm.trans hsome) (Option.some_ne_none i).symm

/-- A query asks the store first, and takes up a generation for what it is given. -/
theorem retains_beginQuery {login : String} {purpose : Purpose}
    {failed : RightsError → Engine → Output × Engine}
    (hfailed : ∀ err e', e.Retains e' → e.Retains (failed err e').2) (w : W) :
    e.Retains (ρ.run (e.beginQuery d login purpose failed) w).1.2 := by
  rw [beginQuery, ρ.run_bind, ρ.run_withStore]
  rcases hperform : ρ.perform (Store.current d) e.store w with ⟨err | S, s, w'⟩
  · simp only [ρ.run_pure]
    exact hfailed err _ (retains_store s)
  · simp only [ρ.run_pure]
    have hS := (ρ.steps_current d hperform).2 S rfl
    exact (retains_generationFor hS).trans_keeps (keeps_query _)

theorem retains_usersFound (result : Except DirectoryError (List String)) (w : W) :
    e.Retains (ρ.run (e.usersFound d result) w).1.2 := by
  cases result with
  | error err =>
    rw [usersFound, ρ.run_pure]
    exact Keeps.retains (.of_eq rfl rfl rfl)
  | ok users =>
    rw [usersFound, ρ.run_bind, ρ.run_withStore]
    rcases hperform : ρ.perform (Store.current d) e.store w with ⟨err | S, s, w'⟩
    · simp only [ρ.run_pure]
      exact retains_store s
    · simp only [ρ.run_pure]
      have hS := (ρ.steps_current d hperform).2 S rfl
      exact (retains_generationFor hS).trans_keeps (keeps_warm _ _ _)

theorem retains_call (c : Call) (w : W) : e.Retains (ρ.run (e.call d c) w).1.2 := by
  cases c with
  | current =>
    rw [call, ρ.run_bind, ρ.run_withStore, ρ.run_pure]
    exact retains_store _
  | update candidate =>
    rw [call, ρ.run_bind, ρ.run_withStore]
    rcases ρ.perform (Store.commit d candidate) e.store w with ⟨err | _ | S, s, w'⟩
    · simp only [ρ.run_pure]
      exact retains_store s
    · simp only [ρ.run_pure]
      exact retains_store s
    · simp only [ρ.run_pure]
      exact (retains_store s).trans_keeps (keeps_announce S .updated)
  | reload =>
    rw [call, ρ.run_bind, ρ.run_withStore]
    rcases ρ.perform (Store.reload d) e.store w with ⟨err | S, s, w'⟩
    · simp only [ρ.run_pure]
      exact retains_store s
    · simp only [ρ.run_pure]
      exact (retains_store s).trans_keeps (keeps_announce S .reloaded)
  | announce S =>
    rw [call, ρ.run_pure]
    exact (keeps_announce S .announced).retains
  | attachResolver =>
    rw [call, ρ.run_pure]
    exact keeps_attachResolver.retains
  | discard =>
    rw [call, ρ.run_pure]
    exact keeps_discard.retains
  | subscribe | unsubscribe | warmUp =>
    rw [call, ρ.run_pure]
    exact Keeps.retains (.of_eq rfl rfl rfl)
  | isAllowed login action =>
    rw [call]
    exact retains_beginQuery (fun err e' h ↦ h.trans_keeps (.of_eq rfl rfl rfl)) w
  | tryIsAllowed | effectiveActions =>
    rw [call]
    exact retains_beginQuery (fun err e' h ↦ h) w

/-- **What one event leaves of the cache.** -/
theorem retains_step (ev : Event) (w : W) : e.Retains (ρ.run (e.step d ev) w).1.2 := by
  -- the frame that is replied to has no part in it
  have hframes : ∀ (fs : List Frame) {e' : Engine},
      ({ e with frames := fs } : Engine).Retains e' → e.Retains e' :=
    fun fs e' h ↦ ⟨⟨h.generations, h.resolver⟩, h.inUse⟩
  cases ev with
  | call c => exact retains_call c w
  | released key =>
    rw [step, ρ.run_pure]
    exact Keeps.retains (.of_eq rfl rfl rfl)
  | told reaction =>
    rw [step]
    split
    · rename_i r round fs _
      rw [ρ.run_pure]
      exact hframes fs (keeps_resume r round reaction).retains
    · rw [ρ.run_pure]
      exact (Keeps.refl e).retains
  | rolesFound result =>
    rw [step]
    split
    · rename_i q fs _
      rw [ρ.run_pure]
      exact hframes fs (keeps_rolesFound q result).retains
    · rw [ρ.run_pure]
      exact (Keeps.refl e).retains
  | usersFound result =>
    rw [step]
    split
    · rename_i fs _
      exact hframes fs (retains_usersFound result w)
    · rw [ρ.run_pure]
      exact (Keeps.refl e).retains

end Events

end Engine

/-! ### One moment after the other -/

/-- The generation of index `i` is in use, and its snapshot is resident. -/
structure Engine.Uses (e : Engine) (i : Nat) (S : Snapshot) : Prop where
  inUse : e.inUse? = some i
  generation : ∃ g, e.generations[i]? = some g ∧ g.snapshot = S
  resident : e.store.resident = some S

/-- What is in use at a moment. -/
def UsedAt (h : List Moment) (k i : Nat) (S : Snapshot) : Prop :=
  ∃ m, h[k]? = some m ∧ m.engine.Uses i S

/-- An action set is stored for a login at a moment, in the generation of index `i`. -/
def StoredAt (h : List Moment) (k i : Nat) (login : String) (actions : NameSet) : Prop :=
  ∃ m g, h[k]? = some m ∧ m.engine.generations[i]? = some g ∧ g.find? login = some actions

/-- Nothing from one moment to the other invalidates reports for the snapshot. -/
def Undisturbed (h : List Moment) (k k' : Nat) (S : Snapshot) : Prop :=
  ∀ j m, k ≤ j → j ≤ k' → h[j]? = some m → ¬m.Invalidates S

section Moments

variable {h : List Moment} {k k' i j : Nat} {S T : Snapshot} {login : String}
  {actions actions' : NameSet}

/-- There is one generation in use at a moment. -/
theorem UsedAt.unique (hS : UsedAt h k i S) (hT : UsedAt h k j T) : i = j ∧ S = T := by
  obtain ⟨m, hm, huses⟩ := hS
  obtain ⟨m', hm', huses'⟩ := hT
  obtain rfl : m = m' := Option.some.inj (hm.symm.trans hm')
  exact ⟨Option.some.inj (huses.inUse.symm.trans huses'.inUse),
    Option.some.inj (huses.resident.symm.trans huses'.resident)⟩

variable (hchain : h.IsChain fun m m' ↦ m.engine.Retains m'.engine)
include hchain

/-- From one moment to any later one the cache has only grown. -/
theorem grows_of_isChain (hle : k ≤ k') {m m' : Moment} (hm : h[k]? = some m)
    (hm' : h[k']? = some m') : m.engine.Grows m'.engine := by
  induction hle generalizing m' with
  | refl =>
    obtain rfl : m = m' := Option.some.inj (hm.symm.trans hm')
    exact .of_eq rfl rfl
  | @step k' hle ih =>
    have hlt : k' < h.length := Nat.lt_of_succ_lt (List.getElem?_eq_some_iff.1 hm').1
    have hbefore : h[k']? = some h[k'] := List.getElem?_eq_getElem hlt
    have hstep := rel_of_isChain hchain hbefore hm'
    exact (ih hbefore).trans hstep.toGrows

/-- **A stored action set stays what it is.** -/
theorem StoredAt.eq_of_le (hle : k ≤ k') (hs : StoredAt h k i login actions)
    (hs' : StoredAt h k' i login actions') : actions' = actions := by
  obtain ⟨m, g, hm, hg, hfind⟩ := hs
  obtain ⟨m', g', hm', hg', hfind'⟩ := hs'
  obtain ⟨g'', hg'', hext⟩ := (grows_of_isChain hchain hle hm hm').generations i g hg
  obtain rfl : g' = g'' := Option.some.inj (hg'.symm.trans hg'')
  exact Option.some.inj (hfind'.symm.trans (hext.stored _ _ hfind))

/-- **The generation in use for a snapshot stays in use**, unless something invalidates reports. -/
theorem UsedAt.of_le (hle : k ≤ k') (hk' : k' < h.length) (hu : UsedAt h k i S)
    (hcalm : Undisturbed h k k' S) : UsedAt h k' i S := by
  induction hle with
  | refl => exact hu
  | @step k' hle ih =>
    have hcalm' : Undisturbed h k k' S :=
      fun j m hj hj' ↦ hcalm j m hj (Nat.le_succ_of_le hj')
    obtain ⟨m, hm, hi, ⟨g, hg, rfl⟩, -⟩ := ih (Nat.lt_of_succ_lt hk') hcalm'
    have hm' : h[k' + 1]? = some h[k' + 1] := List.getElem?_eq_getElem hk'
    have hretains := rel_of_isChain hchain hm hm'
    have hvalid := hcalm _ _ (Nat.le_succ_of_le hle) (Nat.le_refl _) hm'
    simp only [Moment.Invalidates, not_or, not_not] at hvalid
    obtain ⟨g', hg', hext⟩ := hretains.generations i g hg
    have huse := (hretains.inUse i g hi hg hvalid.2.2).resolve_right hvalid.2.1
    exact ⟨_, hm', huse, ⟨g', hg', hext.snapshot⟩, hvalid.2.2⟩

end Moments

/-! ### Sessions -/

namespace Session

variable {m : Type → Type} [Monad m] {W : Type} {ρ : Runner m W} {d : Documents m} {s : Session W}

/-- From each moment to the next the cache is retained, and the last one is the present. -/
structure Retaining (s : Session W) : Prop where
  latest : ∃ past last, s.moments = past ++ [last] ∧ last.engine = s.engine
  chain : s.moments.IsChain fun m m' ↦ m.engine.Retains m'.engine
  resolver : s.engine.resolver.isSome = true

theorem retaining_fresh (editAction : String) (w : W) : (fresh editAction w).Retaining where
  latest := ⟨[], _, rfl, rfl⟩
  chain := .singleton _
  resolver := rfl

theorem Retaining.move (hs : s.Retaining) (mv : Move W) : (s.move ρ d mv).Retaining := by
  obtain ⟨past, last, hmoments, hlast⟩ := hs.latest
  have happend : ∀ now : Moment, s.engine.Retains now.engine →
      (s.moments ++ [now]).IsChain fun m m' ↦ m.engine.Retains m'.engine := by
    intro now hnow
    refine hs.chain.append (.singleton now) fun m hm m' hm' ↦ ?_
    obtain rfl : last = m := by simpa [hmoments] using hm
    obtain rfl : now = m' := by simpa using hm'
    exact hlast ▸ hnow
  cases mv with
  | event ev =>
    have hstep := Engine.retains_step (ρ := ρ) (d := d) (e := s.engine) ev s.world
    rw [Session.move]
    rcases hrun : ρ.run (s.engine.step d ev) s.world with ⟨⟨out, e⟩, w⟩
    rw [hrun] at hstep
    refine ⟨⟨s.moments, _, moments_record, engine_record.symm⟩, ?_, ?_⟩
    · rw [moments_record]
      exact happend _ hstep
    · rw [engine_record]
      exact hstep.resolver hs.resolver
  | outside edit =>
    exact ⟨⟨s.moments, _, rfl, rfl⟩, happend _ (Engine.Keeps.refl _).retains, hs.resolver⟩

/-- Sessions retain what is cached from each moment to the next. -/
theorem retaining_run (hs : s.Retaining) (moves : List (Move W)) :
    (s.run ρ d moves).Retaining := by
  induction moves generalizing s with
  | nil => exact hs
  | cons mv moves ih => exact ih (hs.move mv)

end Session

end LayeredRights
