import LayeredRights.Proofs.Resolver.Coherence

/-!
# What the engine answers while it is coherent

A call is taken, asks for what it needs, and is answered in the end. Between two of these moments
the only thing kept for it is a frame of the engine, so whatever an answer rests on has to be known
of the frame (`Waits`). For a look-up of roles this is that the generation the query began with
stands for the call (`Standing`): its snapshot was resident at some moment of the call, and the
generation came to be after everything before the call that invalidates earlier reports.

`Outcome` is what one move comes to for the call it serves. The engine stays coherent, and either an
answer is given that can be accounted for (`Justified`), or one more frame waits. That a query is
answered from a generation which has been detached meanwhile makes no difference here: it is the
generation the call began with.

An action set is stored as soon as roles arrive for it, and that is the only place where one comes
to be. There the report is the present one, so it is later than whatever the generation has come
after (`stored_of_report`). A query that finds an action set passes on what is known of it. Both
come together in `outcome_build`, where a set that has been stored during the look-up is preferred
to the one that has just been built.
-/

namespace LayeredRights

/-! ### What a call rests on -/

/-- The snapshots resident after each moment, that of the present one last. -/
def residents (h : List Moment) (e : Engine) : List (Option Snapshot) :=
  h.map (·.engine.store.resident) ++ [e.store.resident]

/-- The generation of an index, whose snapshot is `S`, may answer a call made at moment `first`. -/
structure Standing (h : List Moment) (present : List (Option Snapshot)) (first i : Nat)
    (S : Snapshot) : Prop where
  resident : ∃ k, first ≤ k ∧ present[k]? = some (some S)
  after : ∀ (k : Nat) (m : Moment), k < first → h[k]? = some m → m.Invalidates S →
    m.engine.generations.length ≤ i

/-- The calls whose answers come from the action set of a login. -/
def Call.wantsActions : Call → Bool
  | .tryIsAllowed _ _ | .effectiveActions _ => true
  | _ => false

/-- The query is the one that a call makes. -/
def Query.Serves (q : Query) : Call → Prop
  | .tryIsAllowed login action => q.login = login ∧ q.purpose = .decide action
  | .effectiveActions login => q.login = login ∧ q.purpose = .list
  | _ => True

/-- A frame is what a call made at moment `first` waits for. -/
def Waits (h : List Moment) (present : List (Option Snapshot)) (e : Engine) (c : Call)
    (first : Nat) : Frame → Prop
  | .lookingUp q => q.Serves c ∧
    ∃ g, e.generations[q.generation]? = some g ∧ Standing h present first q.generation g.snapshot
  | _ => c.wantsActions = false

/-- An answer to a call made at moment `first` is an error, or comes from an action set stored in a
generation that stands for the call. -/
def Justified (h : List Moment) (reports : List (Option (String × NameSet)))
    (present : List (Option Snapshot)) (first : Nat) (a : Answer) : Call → Prop
  | .tryIsAllowed login action => (∃ err, a = .decision (.error err)) ∨
    ∃ i S actions, a = .decision (.ok (S.configuration.mode.decide (action ∈ actions))) ∧
      Standing h present first i S ∧ Stored h reports i S login actions
  | .effectiveActions login => (∃ err, a = .actions (.error err)) ∨
    ∃ i S actions, a = .actions (.ok actions) ∧
      Standing h present first i S ∧ Stored h reports i S login actions
  | _ => True

/-- What a move comes to for the call it serves, with `fs` the frames around that call. -/
def Outcome (h : List Moment) (reports : List (Option (String × NameSet))) (fs : List Frame)
    (c : Call) (first : Nat) (o : Output × Engine) : Prop :=
  Coherent h reports o.2 ∧
    match o.1 with
    | .answered a => o.2.frames = fs ∧ Justified h reports (residents h o.2) first a c
    | .asked _ => ∃ f, o.2.frames = f :: fs ∧ Waits h (residents h o.2) o.2 c first f
    | .nothing => False

section Outcomes

variable {h : List Moment} {reports : List (Option (String × NameSet))} {e : Engine} {c : Call}
  {first : Nat}

/-- There is nothing to account for in an answer that does not come from an action set. -/
theorem justified_of_wantsActions_eq_false {present : List (Option Snapshot)} {a : Answer}
    (hc : c.wantsActions = false) : Justified h reports present first a c := by
  cases c with
  | tryIsAllowed | effectiveActions => exact nomatch hc
  | _ => trivial

theorem Query.serves_of_wantsActions_eq_false {q : Query} (hc : c.wantsActions = false) :
    q.Serves c := by
  cases c with
  | tryIsAllowed | effectiveActions => exact nomatch hc
  | _ => trivial

/-- A generation taken up at the present moment stands for any call that is under way. -/
theorem standing_of_resident {S : Snapshot} {i : Nat} (hS : e.store.resident = some S)
    (hfirst : first ≤ h.length)
    (hafter : ∀ m ∈ h, m.Invalidates S → m.engine.generations.length ≤ i) :
    Standing h (residents h e) first i S where
  resident := ⟨h.length, hfirst, by simp [residents, hS]⟩
  after _ m _ hm hinv := hafter m (List.mem_of_getElem? hm) hinv

/-- Suspending for a request changes nothing but the frames. -/
theorem Coherent.ask (hc : Coherent h reports e) (f : Frame) (r : Request) :
    Coherent h reports (e.ask f r).2 :=
  hc.of_agrees ⟨rfl, rfl, rfl, rfl⟩

/-! ### Deliveries -/

/-- A delivery goes on until a listener has to be told or nobody is left. -/
theorem outcome_deliver (hw : c.wantsActions = false) (rs : List Registration) (round : Round)
    (hc : Coherent h reports e) : Outcome h reports e.frames c first (e.deliver round rs) := by
  induction rs generalizing e round with
  | nil => exact ⟨hc, rfl, justified_of_wantsActions_eq_false hw⟩
  | cons r rs ih =>
    unfold Engine.deliver
    split
    · cases hsub : r.subscriber with
      | listener key => exact ⟨hc.ask _ _, _, rfl, hw⟩
      | resolver => exact ih _ hc.discard
    · exact ih _ hc

/-- Once a delivery has come to the resolver, no generation is in use at the end of the move. -/
theorem inUse?_deliver {before after : List Registration} {r : Registration} (round : Round)
    (hbefore : ∀ r' ∈ before, e.isAlive r' = false) (hr : r.subscriber = .resolver)
    (halive : e.isAlive r = true) :
    (e.deliver round (before ++ r :: after)).2.inUse? = none := by
  have hrest : ∀ (rs : List Registration) (e : Engine) (round : Round), e.inUse? = none →
      (e.deliver round rs).2.inUse? = none := by
    intro rs
    induction rs with
    | nil => exact fun _ _ hnone ↦ hnone
    | cons r' rs ih =>
      intro e round hnone
      unfold Engine.deliver
      split
      · cases r'.subscriber with
        | listener key => exact hnone
        | resolver => exact ih _ _ e.inUse?_discard
      · exact ih _ _ hnone
  induction before with
  | nil =>
    rw [List.nil_append, Engine.deliver, if_pos halive, hr]
    exact hrest after _ _ e.inUse?_discard
  | cons r' rs ih =>
    have hdead : ¬e.isAlive r' = true := by simp [hbefore r' List.mem_cons_self]
    rw [List.cons_append, Engine.deliver, if_neg hdead]
    exact ih fun r'' hr'' ↦ hbefore r'' (List.mem_cons_of_mem _ hr'')

/-- A snapshot is announced by a delivery to all who are registered. -/
theorem outcome_announce (hw : c.wantsActions = false) (S : Snapshot) (occasion : Occasion)
    (hc : Coherent h reports e) : Outcome h reports e.frames c first (e.announce S occasion) :=
  outcome_deliver (e := { e with registry := e.registry.prune e.isAlive }) hw _ _
    (hc.of_agrees ⟨rfl, rfl, rfl, rfl⟩)

/-- When a listener has returned, the delivery goes on with those after it. -/
theorem outcome_resume (hw : c.wantsActions = false) (r : Registration) (round : Round)
    (reaction : Reaction) (hc : Coherent h reports e) :
    Outcome h reports e.frames c first (e.resume r round reaction) := by
  cases reaction with
  | accepted => exact outcome_deliver hw _ _ hc
  | failed => exact outcome_deliver hw _ _ (hc.of_agrees (e.agrees_report _))
  | panicked => exact outcome_deliver hw _ _ (hc.of_agrees (e.agrees_report _))

/-! ### Queries -/

/-- Warming up goes on until a login has to be looked up or none is left. -/
theorem outcome_warm (hw : c.wantsActions = false) {i : Nat} {g : Generation}
    (hg : e.generations[i]? = some g) (hs : Standing h (residents h e) first i g.snapshot)
    (total : Nat) (ls : List String) (hc : Coherent h reports e) :
    Outcome h reports e.frames c first (e.warm i total ls) := by
  induction ls with
  | nil => exact ⟨hc, rfl, justified_of_wantsActions_eq_false hw⟩
  | cons l ls ih =>
    unfold Engine.warm
    split
    · exact ih
    · exact ⟨hc.ask _ _, _, rfl, Query.serves_of_wantsActions_eq_false hw, g, hg, hs⟩

/-- A stored action set answers a query in whose generation it is. -/
theorem outcome_satisfy {q : Query} (hq : q.Serves c) {g : Generation}
    (hg : e.generations[q.generation]? = some g)
    (hs : Standing h (residents h e) first q.generation g.snapshot) {actions : NameSet}
    (hfind : g.find? q.login = some actions) (hc : Coherent h reports e) :
    Outcome h reports e.frames c first (e.satisfy q actions) := by
  obtain ⟨i, login, purpose⟩ := q
  have hstored := hc.stored i g hg login actions hfind
  have hmode : e.modeOf i = g.snapshot.configuration.mode := Engine.modeOf_eq hg
  cases purpose with
  | decide action =>
    refine ⟨hc, rfl, ?_⟩
    cases c with
    | tryIsAllowed login' action' =>
      obtain ⟨rfl, haction⟩ := hq
      obtain rfl : action = action' := Purpose.decide.inj haction
      exact .inr ⟨i, g.snapshot, actions, by rw [hmode], hs, hstored⟩
    | effectiveActions login' => cases hq.2
    | _ => trivial
  | list =>
    refine ⟨hc, rfl, ?_⟩
    cases c with
    | tryIsAllowed login' action' => cases hq.2
    | effectiveActions login' =>
      obtain ⟨rfl, -⟩ := hq
      exact .inr ⟨i, g.snapshot, actions, rfl, hs, hstored⟩
    | _ => trivial
  | warmUp rest total =>
    have hw : c.wantsActions = false := by
      cases c with
      | tryIsAllowed login' action' => cases hq.2
      | effectiveActions login' => cases hq.2
      | _ => rfl
    exact outcome_warm hw hg hs total rest hc

/-- A query is answered from the cache, or waits for the roles of its login. -/
theorem outcome_query {q : Query} (hq : q.Serves c) {g : Generation}
    (hg : e.generations[q.generation]? = some g)
    (hs : Standing h (residents h e) first q.generation g.snapshot) (hc : Coherent h reports e) :
    Outcome h reports e.frames c first (e.query q) := by
  unfold Engine.query
  rw [Engine.cached?_eq hg]
  cases hfind : g.find? q.login with
  | some actions => exact outcome_satisfy hq hg hs hfind hc
  | none => exact ⟨hc.ask _ _, _, rfl, hq, g, hg, hs⟩

/-- Roles reported at the present moment build an action set that may be stored. -/
theorem stored_of_report {login : String} {roles : NameSet} {i : Nat} {S : Snapshot} {r : Nat}
    (hr : reports[r]? = some (some (login, roles))) (hlast : h.length ≤ r) :
    Stored h reports i S login (S.configuration.listedActions ⟨login, roles⟩) := by
  refine ⟨r, roles, hr, rfl, fun k m hm _ ↦ ?_⟩
  exact Nat.lt_of_lt_of_le (List.getElem?_eq_some_iff.1 hm).1 hlast

/-- The engine once an action set has been built for a query, from the roles of its login, and is
stored. -/
def Engine.built (e : Engine) (q : Query) (g : Generation) (roles : NameSet) : Engine :=
  let p : Principal := ⟨q.login, roles⟩
  let c := g.snapshot.configuration
  { e.report ((c.danglingReferences p).map fun r ↦ .danglingReference r q.login) with
    generations := e.generations.set q.generation (g.remember q.login (c.listedActions p)) }

theorem Engine.getElem?_built {q : Query} {g : Generation}
    (hg : e.generations[q.generation]? = some g) (roles : NameSet) :
    (e.built q g roles).generations[q.generation]? =
      some (g.remember q.login (g.snapshot.configuration.listedActions ⟨q.login, roles⟩)) :=
  List.getElem?_set_self (List.getElem?_eq_some_iff.1 hg).1

/-- A set that was stored during the look-up is kept and answers. -/
theorem Engine.build_eq {q : Query} {g : Generation} (hg : e.generations[q.generation]? = some g)
    (roles : NameSet) : e.build q roles = (e.built q g roles).satisfy q
      ((g.find? q.login).getD (g.snapshot.configuration.listedActions ⟨q.login, roles⟩)) := by
  have hgen : e.generation? q.generation = some g := hg
  simp only [Engine.build, hgen]
  rw [g.find?_remember_self]
  rfl

/-- If nothing has been stored during the look-up, the set that is built answers. -/
theorem Engine.build_of_find?_eq_none {q : Query} {g : Generation}
    (hg : e.generations[q.generation]? = some g) (hnone : g.find? q.login = none)
    (roles : NameSet) : e.build q roles = (e.built q g roles).satisfy q
      (g.snapshot.configuration.listedActions ⟨q.login, roles⟩) := by
  rw [Engine.build_eq hg, hnone]
  rfl

/-- **Roles that arrive complete a query.** What has been stored for the login in the meantime wins
over what is built from them. -/
theorem outcome_build {q : Query} (hq : q.Serves c) {g : Generation}
    (hg : e.generations[q.generation]? = some g)
    (hs : Standing h (residents h e) first q.generation g.snapshot) {roles : NameSet} {r : Nat}
    (hr : reports[r]? = some (some (q.login, roles))) (hlast : h.length ≤ r)
    (hc : Coherent h reports e) : Outcome h reports e.frames c first (e.build q roles) := by
  let built := g.snapshot.configuration.listedActions ⟨q.login, roles⟩
  have hc' : Coherent h reports (e.built q g roles) :=
    (hc.of_agrees (e.agrees_report _)).remember hg (stored_of_report hr hlast)
  have hs' : Standing h (residents h (e.built q g roles)) first q.generation
      (g.remember q.login built).snapshot := by
    rw [Generation.snapshot_remember]
    exact hs
  rw [Engine.build_eq hg]
  exact outcome_satisfy hq (Engine.getElem?_built hg roles) hs'
    (g.find?_remember_self q.login built) hc'

/-- A look-up that fails is a report of no roles. -/
theorem outcome_rolesFound {q : Query} (hq : q.Serves c) {g : Generation}
    (hg : e.generations[q.generation]? = some g)
    (hs : Standing h (residents h e) first q.generation g.snapshot)
    {result : Except DirectoryError NameSet} {r : Nat}
    (hr : reports[r]? = some (some (q.login, result.toOption.getD ∅))) (hlast : h.length ≤ r)
    (hc : Coherent h reports e) : Outcome h reports e.frames c first (e.rolesFound q result) := by
  cases result with
  | ok roles => exact outcome_build hq hg hs hr hlast hc
  | error _ =>
    exact outcome_build (e := e.report [.rolesUnavailable q.login]) hq hg hs hr hlast
      (hc.of_agrees (e.agrees_report _))

/-! ### Calls -/

variable {m : Type → Type} [Monad m] {W α : Type} (ρ : Runner m W) (d : Documents m)

/-- An operation of the store changes the engine in nothing but the store. -/
theorem Runner.run_withStore (op : StoreM m α) (e : Engine) (w : W) :
    ρ.run (e.withStore op) w =
      match ρ.perform op e.store w with
      | (r, s, w') => ((r, { e with store := s }), w') := by
  rw [Engine.withStore, ρ.run_bind, Runner.perform]
  exact ρ.run_pure _ _

/-- The snapshot in force is obtained, and the generation then taken up for it stands for a call
that is under way. -/
theorem exists_run_current (hfirst : first ≤ h.length) (hc : Coherent h reports e) (w : W) :
    ∃ (r : Except RightsError Snapshot) (s : Store) (w' : W),
      ρ.run (e.withStore (Store.current d)) w = ((r, { e with store := s }), w') ∧
      Coherent h reports { e with store := s } ∧
      ∀ S i e', r = .ok S → Engine.generationFor { e with store := s } S = (i, e') →
        Coherent h reports e' ∧ e'.frames = e.frames ∧
          ∃ g, e'.generations[i]? = some g ∧ Standing h (residents h e') first i g.snapshot := by
  rcases hperform : ρ.perform (Store.current d) e.store w with ⟨r, s, w'⟩
  obtain ⟨hsteps, hresident⟩ := ρ.steps_current d hperform
  have hc' : Coherent h reports { e with store := s } := hc.store hsteps
  refine ⟨r, s, w', by rw [ρ.run_withStore, hperform], hc', fun S i e' hr hgen ↦ ?_⟩
  have hS : s.resident = some S := hresident S hr
  obtain ⟨hc'', hstore, hframes, ⟨g, hg, rfl⟩, hafter⟩ := hc'.generationFor hS
  rw [hgen] at hc'' hstore hframes hg hafter
  have hS' : e'.store.resident = some g.snapshot := (congrArg Store.resident hstore).trans hS
  exact ⟨hc'', hframes, g, hg, standing_of_resident hS' hfirst hafter⟩

/-- A query begins with the generation for the snapshot that is in force then. -/
theorem outcome_beginQuery {login : String} {purpose : Purpose}
    {failed : RightsError → Engine → Output × Engine}
    (hfailed : ∀ err e', Coherent h reports e' → e'.frames = e.frames →
      Outcome h reports e.frames c first (failed err e'))
    (hserves : ∀ i, Query.Serves ⟨i, login, purpose⟩ c) (hfirst : first ≤ h.length)
    (hc : Coherent h reports e) (w : W) :
    Outcome h reports e.frames c first (ρ.run (e.beginQuery d login purpose failed) w).1 := by
  obtain ⟨r, s, w', hrun, hc', htaken⟩ := exists_run_current ρ d hfirst hc w
  rw [Engine.beginQuery, ρ.run_bind, hrun]
  cases r with
  | error err =>
    simp only [ρ.run_pure]
    exact hfailed err _ hc' rfl
  | ok S =>
    rcases hgen : Engine.generationFor { e with store := s } S with ⟨i, e'⟩
    obtain ⟨hc'', hframes, g, hg, hstanding⟩ := htaken S i e' rfl hgen
    simp only [hgen, ρ.run_pure]
    rw [← hframes]
    exact outcome_query (hserves i) hg hstanding hc''

/-- A warm-up begins with the generation for the snapshot that is in force by then. -/
theorem outcome_usersFound (hw : c.wantsActions = false) (hfirst : first ≤ h.length)
    (result : Except DirectoryError (List String)) (hc : Coherent h reports e) (w : W) :
    Outcome h reports e.frames c first (ρ.run (e.usersFound d result) w).1 := by
  cases result with
  | error err =>
    rw [Engine.usersFound, ρ.run_pure]
    exact ⟨hc.of_agrees (e.agrees_report _), rfl, justified_of_wantsActions_eq_false hw⟩
  | ok users =>
    obtain ⟨r, s, w', hrun, hc', htaken⟩ := exists_run_current ρ d hfirst hc w
    rw [Engine.usersFound, ρ.run_bind, hrun]
    cases r with
    | error err =>
      simp only [ρ.run_pure]
      exact ⟨hc', rfl, justified_of_wantsActions_eq_false hw⟩
    | ok S =>
      rcases hgen : Engine.generationFor { e with store := s } S with ⟨i, e'⟩
      obtain ⟨hc'', hframes, g, hg, hstanding⟩ := htaken S i e' rfl hgen
      simp only [hgen, ρ.run_pure]
      rw [← hframes]
      exact outcome_warm hw hg hstanding users.length users hc''

/-- **Every call** is answered, or waits. -/
theorem outcome_call (c : Call) (hfirst : first ≤ h.length) (hc : Coherent h reports e) (w : W) :
    Outcome h reports e.frames c first (ρ.run (e.call d c) w).1 := by
  cases c with
  | current =>
    obtain ⟨r, s, w', hrun, hc', -⟩ := exists_run_current ρ d hfirst hc w
    rw [Engine.call, ρ.run_bind, hrun, ρ.run_pure]
    exact ⟨hc', rfl, trivial⟩
  | update candidate =>
    rw [Engine.call, ρ.run_bind, ρ.run_withStore]
    rcases hperform : ρ.perform (Store.commit d candidate) e.store w with ⟨r, s, w'⟩
    have hc' : Coherent h reports { e with store := s } := hc.store (ρ.steps_commit d hperform)
    match r with
    | .error err =>
      simp only [ρ.run_pure]
      exact ⟨hc', rfl, trivial⟩
    | .ok none =>
      simp only [ρ.run_pure]
      exact ⟨hc', rfl, trivial⟩
    | .ok (some S) =>
      simp only [ρ.run_pure]
      exact outcome_announce rfl S .updated hc'
  | reload =>
    rw [Engine.call, ρ.run_bind, ρ.run_withStore]
    rcases hperform : ρ.perform (Store.reload d) e.store w with ⟨r, s, w'⟩
    have hc' : Coherent h reports { e with store := s } := hc.store (ρ.steps_reload d hperform)
    cases r with
    | error err =>
      simp only [ρ.run_pure]
      exact ⟨hc', rfl, trivial⟩
    | ok S =>
      simp only [ρ.run_pure]
      exact outcome_announce rfl S .reloaded hc'
  | announce S =>
    rw [Engine.call, ρ.run_pure]
    exact outcome_announce rfl S .announced hc
  | subscribe | unsubscribe =>
    rw [Engine.call, ρ.run_pure]
    exact ⟨hc.of_agrees ⟨rfl, rfl, rfl, rfl⟩, rfl, trivial⟩
  | attachResolver =>
    rw [Engine.call, ρ.run_pure]
    exact ⟨hc.attachResolver, rfl, trivial⟩
  | isAllowed login action =>
    rw [Engine.call]
    refine outcome_beginQuery ρ d (fun err e' hc' hframes ↦ ?_) (fun i ↦ ?_) hfirst hc w
    · exact ⟨hc'.of_agrees (e'.agrees_report _), hframes, trivial⟩
    · trivial
  | tryIsAllowed login action =>
    rw [Engine.call]
    refine outcome_beginQuery ρ d (fun err e' hc' hframes ↦ ?_) (fun i ↦ ?_) hfirst hc w
    · exact ⟨hc', hframes, .inl ⟨err, rfl⟩⟩
    · exact ⟨rfl, rfl⟩
  | effectiveActions login =>
    rw [Engine.call]
    refine outcome_beginQuery ρ d (fun err e' hc' hframes ↦ ?_) (fun i ↦ ?_) hfirst hc w
    · exact ⟨hc', hframes, .inl ⟨err, rfl⟩⟩
    · exact ⟨rfl, rfl⟩
  | warmUp =>
    rw [Engine.call, ρ.run_pure]
    exact ⟨hc.ask _ _, _, rfl, rfl⟩
  | discard =>
    rw [Engine.call, ρ.run_pure]
    exact ⟨hc.discard, rfl, trivial⟩

end Outcomes

end LayeredRights
