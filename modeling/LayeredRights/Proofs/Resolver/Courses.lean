import LayeredRights.Proofs.Resolver.Covering

/-!
# What becomes of the cache in a turn

As long as nobody calls while something else is under way, a turn does one of three things to the
cache (`Turn.course_step`). It leaves it alone or empties it, and concerns no login
(`Turn.Idle`); it takes up the generation of the snapshot in force for the logins that it concerns;
or it stores the action set of the login that was looked up.

The cache is emptied exactly when that is to be seen of the turn. A delivery that comes to the
resolver leaves no generation in use, and one that does not leaves the cache as it is
(`Engine.inUse?_deliver_eq`).

`Turn.Course` is the inversion of one turn. Each of its three cases holds all that the invariant of
the next module has to be shown from, so that the functions of the engine are gone through here and
nowhere else. What has to be seen of a turn is the same for all calls that concern no login, and
`Turn.idle_of_nothing`, `Turn.idle_of_answered`, `Turn.idle_of_emptied` and `Turn.idle_of_deliver`
are the ways in which such a turn goes.
-/

namespace LayeredRights

/-! ### Deliveries -/

namespace Engine

variable {e e' : Engine}

theorem tellsResolver_congr (h : ∀ r, e'.isAlive r = e.isAlive r) (rs : List Registration) :
    e'.tellsResolver rs = e.tellsResolver rs := by
  induction rs with
  | nil => rfl
  | cons r rs ih => simp only [tellsResolver, h r, ih]

/-- Those that are pruned would not have been told. -/
theorem tellsResolver_filter (e : Engine) (rs : List Registration) :
    e.tellsResolver (rs.filter e.isAlive) = e.tellsResolver rs := by
  induction rs with
  | nil => rfl
  | cons r rs ih =>
    cases halive : e.isAlive r with
    | true => simp [tellsResolver, halive]
    | false => simp [tellsResolver, halive, ih]

/-- **The resolver has no generation in use once it has been told**, and nothing else in a delivery
makes a difference to it. -/
theorem inUse?_deliver_eq (round : Round) (rs : List Registration) :
    (e.deliver round rs).2.inUse? = if e.tellsResolver rs then none else e.inUse? := by
  induction rs generalizing e round with
  | nil => rfl
  | cons r rs ih =>
    unfold deliver tellsResolver
    split
    · cases r.subscriber with
      | listener key => rfl
      | resolver => simp [ih, inUse?_discard]
    · exact ih _

/-- A delivery stores nothing and takes up nothing. -/
theorem generations_deliver (round : Round) (rs : List Registration) :
    (e.deliver round rs).2.generations = e.generations := by
  induction rs generalizing e round with
  | nil => rfl
  | cons r rs ih =>
    unfold deliver
    split
    · cases r.subscriber with
      | listener key => rfl
      | resolver => exact ih _
    · exact ih _

end Engine

/-! ### Turns that leave the cache alone -/

/-- The frame is what a call may wait for. -/
def Frame.Suits : Frame → Call → Prop
  | .lookingUp q, c => q.Serves c.strict
  | .listing, c => c.strict.wantsActions = false
  | .telling _ _, _ => True

/-- The answers of queries and warm-ups that succeed. -/
def Answer.isSuccess : Answer → Bool
  | .decision (.ok _) | .actions (.ok _) | .warmed (.ok _) => true
  | _ => false

@[simp] theorem Round.isSuccess_answer (r : Round) : r.answer.isSuccess = false := by
  unfold Round.answer
  split <;> rfl

namespace Turn

/-- The frames are as they were, and so are the calls, or the call that is served suits the frame
that it waits for. -/
def Suited (t : Turn) : Prop :=
  t.output = .nothing ∧ t.after.frames = t.before.frames ∨
    ∀ f ∈ t.after.frames, ∀ c, t.serves = some c → f.Suits c

/-- Nothing happens in the turn that concerns a login, and no generation is taken up. -/
structure Idle (t : Turn) : Prop where
  lookUp : t.lookUp? = none
  report : t.report? = none
  fails : ¬t.Succeeds
  concerns : t.concerns = [] ∨ t.after.store.resident = none
  generations : t.after.generations = t.before.generations
  calm : t.invalidates = false → t.after.inUse? = t.before.inUse?
  cleared : t.invalidates = true →
    t.after.inUse? = none ∨ t.after.store.loads ≠ t.before.store.loads
  queries : queries t.after.frames = queries t.before.frames
  waits : LayeredRights.queries t.before.frames ≠ [] →
    t.invalidates = false ∧ t.after.store.resident = t.before.store.resident
  suited : t.Suited

variable {t : Turn}

/-- A call is answered by the output, and it is the innermost one. -/
theorem answer?_eq_some_iff {c : Call} {a : Answer} :
    t.answer? = some (c, a) ↔ t.output = .answered a ∧ t.serves = some c := by
  unfold answer?
  split
  · next a' hout => simp [hout, and_comm]
  · next hnot => simpa using fun hout _ ↦ hnot a hout

/-- What succeeds is a query or a warm-up, and its answer shows it. -/
theorem Succeeds.exists_answer (h : t.Succeeds) : ∃ c a, t.answer? = some (c, a) ∧
    (c.strict.subject?.isSome = true ∨ c = .warmUp) ∧ a.isSuccess = true := by
  rcases h with ht | ⟨ht, -⟩ | ht | ⟨ht, -⟩
  · exact ⟨_, _, ht, .inl rfl, rfl⟩
  · exact ⟨_, _, ht, .inl rfl, rfl⟩
  · exact ⟨_, _, ht, .inl rfl, rfl⟩
  · exact ⟨_, _, ht, .inr rfl, rfl⟩

/-- No query succeeds by an answer that is none of a success. -/
theorem not_succeeds_of_output (h : ∀ a, t.output = .answered a → a.isSuccess = false) :
    ¬t.Succeeds := by
  intro hsucceeds
  obtain ⟨c, a, ha, -, hsuccess⟩ := hsucceeds.exists_answer
  simp [h a (answer?_eq_some_iff.1 ha).1] at hsuccess

theorem not_succeeds_of_serves {c : Call} (hserves : t.serves = some c)
    (hsub : c.strict.subject? = none) (hwarm : c ≠ .warmUp) : ¬t.Succeeds := by
  intro hsucceeds
  obtain ⟨c', a, ha, hcases, -⟩ := hsucceeds.exists_answer
  obtain rfl := Option.some.inj (hserves.symm.trans (answer?_eq_some_iff.1 ha).2)
  rcases hcases with hsome | hwarm'
  · simp [hsub] at hsome
  · exact hwarm hwarm'

/-- Nothing is called for. -/
theorem idle_of_nothing (hout : t.output = .nothing) (hcall : t.event.bind Event.call? = none)
    (htells : t.tellsResolver = false) (hreport : t.report? = none) (hconcerns : t.concerns = [])
    (hstore : t.after.store = t.before.store)
    (hgenerations : t.after.generations = t.before.generations)
    (hresolver : t.after.resolver = t.before.resolver)
    (hframes : t.after.frames = t.before.frames) : t.Idle := by
  have hcalm : t.invalidates = false := by simp [invalidates, hcall, htells, hstore]
  refine ⟨by rw [lookUp?, hout], hreport, not_succeeds_of_output (by simp [hout]), .inl hconcerns,
    hgenerations, fun _ ↦ ?_, fun h ↦ ?_, by rw [hframes], fun _ ↦ ⟨hcalm, by rw [hstore]⟩,
    .inl ⟨hout, hframes⟩⟩
  · rw [Engine.inUse?, hresolver]
    rfl
  · exact absurd h (by simp [hcalm])

/-- A call is answered, and the resolver is not touched. -/
theorem idle_of_answered {a : Answer} (hout : t.output = .answered a) (hfails : ¬t.Succeeds)
    (hreport : t.report? = none) (hconcerns : t.concerns = [] ∨ t.after.store.resident = none)
    (hgenerations : t.after.generations = t.before.generations)
    (hinUse : t.after.inUse? = t.before.inUse?)
    (hempties : (t.event.bind Event.call?).any Call.empties = false)
    (htells : t.tellsResolver = false) (hbefore : LayeredRights.queries t.before.frames = [])
    (hafter : t.after.frames = []) : t.Idle where
  lookUp := by rw [lookUp?, hout]
  report := hreport
  fails := hfails
  concerns := hconcerns
  generations := hgenerations
  calm _ := hinUse
  cleared h := .inr (by simpa [invalidates, hempties, htells] using h)
  queries := by rw [hafter, hbefore]; rfl
  waits h := absurd hbefore h
  suited := .inr (by simp [hafter])

/-- A call that concerns no login is answered at once. -/
theorem idle_of_unconcerned {c : Call} {a : Answer} {e e' : Engine}
    (hsub : c.strict.subject? = none) (hwarm : c ≠ .warmUp) (hempties : c.empties = false)
    (htells : tellsResolver ⟨some (.call c), some c, .answered a, e, e'⟩ = false)
    (hgenerations : e'.generations = e.generations) (hinUse : e'.inUse? = e.inUse?)
    (hbefore : e.frames = []) (hafter : e'.frames = []) :
    Idle ⟨some (.call c), some c, .answered a, e, e'⟩ :=
  idle_of_answered rfl (not_succeeds_of_serves rfl hsub hwarm) rfl (.inl (by simp [concerns, hsub]))
    hgenerations hinUse hempties htells (by simp [hbefore, LayeredRights.queries]) hafter

/-- A call leaves the resolver without action sets. -/
theorem idle_of_emptied {c : Call} (hevent : t.event = some (.call c)) (hempties : c.empties = true)
    (hserves : t.serves = some c) (hout : t.output = .answered .done)
    (hgenerations : t.after.generations = t.before.generations) (hinUse : t.after.inUse? = none)
    (hbefore : t.before.frames = []) (hafter : t.after.frames = []) : t.Idle := by
  have hinvalidates : t.invalidates = true := by
    simp [invalidates, hevent, Event.call?, hempties]
  have hsub : c.strict.subject? = none ∧ c ≠ .warmUp := by
    cases c with
    | discard | attachResolver => exact ⟨rfl, by simp⟩
    | _ => cases hempties
  refine ⟨by rw [lookUp?, hout], ?_, not_succeeds_of_serves hserves hsub.1 hsub.2, .inl ?_,
    hgenerations, fun h ↦ ?_, fun _ ↦ .inl hinUse, by rw [hbefore, hafter], fun h ↦ ?_,
    .inr (by simp [hafter])⟩
  · rw [report?, hevent]
    rfl
  · simp [concerns, hevent, hsub.1]
  · exact absurd hinvalidates (by simp [h])
  · rw [hbefore] at h
    exact absurd rfl h

/-- A delivery begins or goes on. -/
theorem idle_of_deliver {e : Engine} {round : Round} {rs : List Registration}
    (ho : (t.output, t.after) = e.deliver round rs)
    (hgenerations : e.generations = t.before.generations) (hinUse : e.inUse? = t.before.inUse?)
    (hframes : e.frames = []) (hbefore : LayeredRights.queries t.before.frames = [])
    (hreport : t.report? = none) (hconcerns : t.concerns = [])
    (hcalm : t.invalidates = false → e.tellsResolver rs = false)
    (hcleared : t.invalidates = true →
      e.tellsResolver rs = true ∨ t.after.store.loads ≠ t.before.store.loads) : t.Idle := by
  have hout : t.output = (e.deliver round rs).1 := congrArg Prod.fst ho
  have hafter : t.after = (e.deliver round rs).2 := congrArg Prod.snd ho
  have hinUse' := e.inUse?_deliver_eq round rs
  rw [← hafter] at hinUse'
  -- nobody is asked for roles, and an answer is that of a round
  obtain ⟨hlookUp, hfails, hqueries, hsuits⟩ : t.lookUp? = none ∧ ¬t.Succeeds ∧
      LayeredRights.queries t.after.frames = [] ∧
        ∀ f ∈ t.after.frames, ∀ c, t.serves = some c → f.Suits c := by
    have hgoes := e.goes_deliver round rs
    rw [← hout, ← hafter, hframes] at hgoes
    generalize hout' : t.output = out at hgoes
    cases hgoes with
    | ended n hpass hended =>
      exact ⟨by rw [lookUp?, hout'], not_succeeds_of_output (by simp [hout']),
        by rw [hended]; rfl, by simp [hended]⟩
    | told hrs hpass halive hsub htold =>
      refine ⟨by rw [lookUp?, hout'], not_succeeds_of_output (by simp [hout']),
        by rw [htold]; rfl, ?_⟩
      rw [htold]
      intro f hf c _
      obtain rfl := List.mem_singleton.1 hf
      trivial
  refine ⟨hlookUp, hreport, hfails, .inl hconcerns, ?_, fun h ↦ ?_,
    fun h ↦ ?_, hqueries.trans hbefore.symm, fun h ↦ absurd hbefore h, .inr hsuits⟩
  · rw [hafter, Engine.generations_deliver, hgenerations]
  · rw [hinUse', hcalm h, ← hinUse]
    rfl
  · refine (hcleared h).imp_left fun htells ↦ ?_
    rw [hinUse', htells]
    rfl

/-! ### What a turn comes to -/

/-- What becomes of the cache in a turn. -/
inductive Course (t : Turn) : Prop
  | idle (h : t.Idle)
  /-- The generation of the snapshot in force is taken up, for the logins that are concerned. -/
  | consults {e : Engine} {S : Snapshot} {c : Call} (hserves : t.serves = some c)
      (hS : t.after.store.resident = some S) (hgenerations : e.generations = t.before.generations)
      (hresolver : e.resolver = t.before.resolver) (hframes : e.frames = [])
      (hreport : t.report? = none)
      (hinvalidates : t.invalidates = decide (t.after.store.loads ≠ t.before.store.loads))
      (hbefore : LayeredRights.queries t.before.frames = [])
      (hadvances : (e.generationFor S).2.Advances (e.generationTo S) (e.generationFor S).1 c
        t.concerns (t.output, t.after))
  /-- Roles have been found for the query that waits. -/
  | builds {q : Query} {c : Call} {result : Except DirectoryError NameSet}
      (hserves : t.serves = some c) (hframes : t.before.frames = [.lookingUp q])
      (hreport : t.report? = some (q.login, result.toOption.getD ∅)) (hconcerns : t.concerns = [])
      (hinvalidates : t.invalidates = false)
      (hresident : t.after.store.resident = t.before.store.resident)
      (ho : (t.output, t.after) = Engine.rolesFound { t.before with frames := [] } q result)

section Courses

variable {m : Type → Type} [Monad m] {W : Type} {ρ : Runner m W} {d : Documents m} {e : Engine}
  {o : Output × Engine}

/-- A snapshot is announced. It has been installed just now, unless that is all that is
asked for. -/
theorem course_announce {c : Call} {S : Snapshot} {occasion : Occasion} {s : Store}
    (hframes : e.frames = []) (hsub : c.strict.subject? = none)
    (hc : c = .announce S ∨ s.loads ≠ e.store.loads)
    (ho : Engine.announce { e with store := s } S occasion = o) :
    Turn.Course ⟨some (.call c), some c, o.1, e, o.2⟩ := by
  let e₁ : Engine := { e with store := s, registry := e.registry.prune e.isAlive }
  have hpruned : e₁.tellsResolver e₁.registry.registrations =
      e.tellsResolver e.registry.registrations := by
    have halive : ∀ r, e₁.isAlive r = e.isAlive r := fun _ ↦ rfl
    exact (Engine.tellsResolver_congr halive _).trans (e.tellsResolver_filter _)
  have hdeliver : (o.1, o.2) = e₁.deliver { snapshot := S, occasion := occasion, rest := [] }
      e₁.registry.registrations := ho.symm
  have hstore : o.2.store = s := by
    rw [← ho, Engine.store_announce]
  refine .idle (idle_of_deliver hdeliver rfl rfl hframes (by simp [hframes, queries]) rfl
    (by simp [concerns, hsub]) (fun h ↦ ?_) fun h ↦ ?_)
  · rcases hc with rfl | hloads
    · simp only [invalidates, Bool.or_eq_false_iff] at h
      exact hpruned.trans h.1.2
    · simp [invalidates, hstore, hloads] at h
  · rcases hc with rfl | hloads
    · simp only [invalidates, Bool.or_eq_true, decide_eq_true_eq] at h
      refine h.imp_left fun h ↦ hpruned.trans (h.resolve_left ?_)
      simp [Event.call?, Call.empties]
    · exact .inr (hstore.symm ▸ hloads)

/-- A query takes up the generation for the snapshot in force. If there is none, it fails and
nothing has become of the cache. -/
theorem course_beginQuery {c : Call} {login : String} {purpose : Purpose}
    {failed : RightsError → Engine → Output × Engine} (hframes : e.frames = [])
    (hsub : c.strict.subject? = some login) (hempties : c.empties = false)
    (hserves : ∀ i, Query.Serves ⟨i, login, purpose⟩ c.strict)
    (hrest : Query.rest ⟨0, login, purpose⟩ = []) (hr : e.resolver.isSome = true)
    (htells : Turn.tellsResolver ⟨some (.call c), some c, o.1, e, o.2⟩ = false)
    (hfailed : ∀ err e', ∃ a ns, failed err e' = (.answered a, e'.report ns) ∧
      (e'.store.resident = none →
        ¬Turn.Succeeds ⟨some (.call c), some c, .answered a, e, e'.report ns⟩)) (w : W)
    (ho : (ρ.run (e.beginQuery d login purpose failed) w).1 = o) :
    Turn.Course ⟨some (.call c), some c, o.1, e, o.2⟩ := by
  have hbefore : queries e.frames = [] := by simp [hframes, queries]
  rw [Engine.beginQuery, ρ.run_bind, ρ.run_withStore] at ho
  rcases hperform : ρ.perform (Store.current d) e.store w with ⟨err | S, s, w'⟩
  · have hnone : s.resident = none := ρ.resident_of_current d hperform
    obtain ⟨a, ns, ha, hnot⟩ := hfailed err { e with store := s }
    simp only [hperform, ρ.run_pure, ha] at ho
    subst ho
    exact .idle (idle_of_answered rfl (hnot hnone) rfl (.inr hnone) rfl rfl hempties htells hbefore
      hframes)
  · have hS : s.resident = some S := ρ.resident_of_current d hperform
    let e₁ : Engine := { e with store := s }
    have hstore : ((e₁.generationFor S).2.query ⟨(e₁.generationFor S).1, login, purpose⟩).2.store =
        s := (Engine.store_query _).trans (Engine.store_generationFor S)
    have hadvances := Engine.advances_query (hserves _) (Engine.generationFor_spec (e := e₁) hr S).1
    rw [show Query.rest ⟨(e₁.generationFor S).1, login, purpose⟩ = [] from hrest] at hadvances
    simp only [hperform, ρ.run_pure] at ho
    subst ho
    refine .consults (e := e₁) rfl (hstore ▸ hS) rfl rfl hframes rfl ?_ hbefore ?_
    · simp [invalidates, Event.call?, hempties, htells]
    · simpa [concerns, hsub] using hadvances

/-- A warm-up asks who there is before it concerns anybody. -/
theorem idle_warmUp (hframes : e.frames = []) : Turn.Idle ⟨some (.call .warmUp), some .warmUp,
    .asked .usernames, e, (e.ask .listing .usernames).2⟩ := by
  have hbefore : queries e.frames = [] := by simp [hframes, queries]
  refine ⟨rfl, rfl, not_succeeds_of_output (by simp), .inl rfl, rfl, fun _ ↦ rfl, fun h ↦ ?_, ?_,
    fun h ↦ absurd hbefore h, .inr fun f hf c hserves ↦ ?_⟩
  · simp [invalidates, Event.call?, Call.empties, Turn.tellsResolver, Engine.ask] at h
  · rw [hbefore]
    simp [Engine.ask, hframes, queries, Frame.query?]
  · obtain rfl : f = .listing := by simpa [Engine.ask, hframes] using hf
    obtain rfl := Option.some.inj hserves
    rfl

/-- What comes of a call that is made while nothing is under way. -/
theorem course_call (c : Call) (hframes : e.frames = []) (hr : e.resolver.isSome = true) (w : W)
    (ho : (ρ.run (e.call d c) w).1 = o) : Turn.Course ⟨some (.call c), some c, o.1, e, o.2⟩ := by
  cases c with
  | current =>
    rw [Engine.call, ρ.run_bind, ρ.run_withStore, ρ.run_pure] at ho
    subst ho
    exact .idle (idle_of_unconcerned rfl (by simp) rfl rfl rfl rfl hframes hframes)
  | update candidate =>
    rw [Engine.call, ρ.run_bind, ρ.run_withStore] at ho
    rcases hperform : ρ.perform (Store.commit d candidate) e.store w with ⟨err | _ | S, s, w'⟩
    all_goals simp only [hperform, ρ.run_pure] at ho
    · subst ho
      exact .idle (idle_of_unconcerned rfl (by simp) rfl rfl rfl rfl hframes hframes)
    · subst ho
      exact .idle (idle_of_unconcerned rfl (by simp) rfl rfl rfl rfl hframes hframes)
    · have hloads : s.loads = e.store.loads + 1 := ρ.loads_of_commit d hperform
      exact course_announce hframes rfl (.inr (by omega)) ho
  | reload =>
    rw [Engine.call, ρ.run_bind, ρ.run_withStore] at ho
    rcases hperform : ρ.perform (Store.reload d) e.store w with ⟨err | S, s, w'⟩
    all_goals simp only [hperform, ρ.run_pure] at ho
    · subst ho
      exact .idle (idle_of_unconcerned rfl (by simp) rfl rfl rfl rfl hframes hframes)
    · have hloads : s.loads = e.store.loads + 1 := ρ.loads_of_reload d hperform
      exact course_announce hframes rfl (.inr (by omega)) ho
  | announce S =>
    rw [Engine.call, ρ.run_pure] at ho
    exact course_announce (s := e.store) hframes rfl (.inl rfl) ho
  | subscribe | unsubscribe =>
    rw [Engine.call, ρ.run_pure] at ho
    subst ho
    exact .idle (idle_of_unconcerned rfl (by simp) rfl rfl rfl rfl hframes hframes)
  | attachResolver =>
    rw [Engine.call, ρ.run_pure] at ho
    subst ho
    exact .idle (idle_of_emptied rfl rfl rfl rfl rfl rfl hframes hframes)
  | discard =>
    rw [Engine.call, ρ.run_pure] at ho
    subst ho
    exact .idle (idle_of_emptied rfl rfl rfl rfl rfl e.inUse?_discard hframes hframes)
  | isAllowed login action =>
    rw [Engine.call] at ho
    refine course_beginQuery hframes rfl rfl (fun i ↦ ⟨rfl, rfl⟩) rfl hr rfl (fun err e' ↦ ?_) w ho
    refine ⟨_, _, rfl, fun hnone ↦ ?_⟩
    rintro (ht | ⟨ht, hresident⟩ | ht | ⟨ht, -⟩)
    · cases ht
    · exact absurd hnone (Option.isSome_iff_ne_none.1 hresident)
    · cases ht
    · cases ht
  | tryIsAllowed login action =>
    rw [Engine.call] at ho
    refine course_beginQuery hframes rfl rfl (fun i ↦ ⟨rfl, rfl⟩) rfl hr rfl (fun err e' ↦ ?_) w ho
    refine ⟨_, [], by rw [Engine.report, Store.report_nil],
      fun _ ↦ not_succeeds_of_output (by simp [Answer.isSuccess])⟩
  | effectiveActions login =>
    rw [Engine.call] at ho
    refine course_beginQuery hframes rfl rfl (fun i ↦ ⟨rfl, rfl⟩) rfl hr rfl (fun err e' ↦ ?_) w ho
    refine ⟨_, [], by rw [Engine.report, Store.report_nil],
      fun _ ↦ not_succeeds_of_output (by simp [Answer.isSuccess])⟩
  | warmUp =>
    rw [Engine.call, ρ.run_pure] at ho
    subst ho
    exact .idle (idle_warmUp hframes)

/-- A delivery goes on when the listener has returned. -/
theorem course_resume {serves : Option Call} {r : Registration} {round : Round}
    {reaction : Reaction} (hframes : e.frames = [.telling r round])
    (ho : Engine.resume { e with frames := [] } r round reaction = o) :
    Turn.Course ⟨some (.told reaction), serves, o.1, e, o.2⟩ := by
  have hbefore : queries e.frames = [] := by simp [hframes, queries, Frame.query?]
  have hdeliver : ∀ (ns : List Notice) (round' : Round),
      (Engine.report { e with frames := [] } ns).deliver round' round.rest = o →
        Turn.Course ⟨some (.told reaction), serves, o.1, e, o.2⟩ := by
    intro ns round' ho
    let e₁ : Engine := Engine.report { e with frames := [] } ns
    have halive : ∀ r, e₁.isAlive r = Engine.isAlive { e with frames := [] } r := fun _ ↦ rfl
    have hstore : o.2.store = e.store.report ns := by
      rw [← ho, Engine.store_deliver]
      rfl
    have hinvalidates : Turn.invalidates ⟨some (.told reaction), serves, o.1, e, o.2⟩ =
        e₁.tellsResolver round.rest := by
      simp [invalidates, Event.call?, Turn.tellsResolver, hframes, hstore,
        Engine.tellsResolver_congr halive]
    exact .idle (idle_of_deliver ho.symm rfl rfl rfl hbefore rfl rfl hinvalidates.symm.trans
      fun h ↦ .inl (hinvalidates.symm.trans h))
  cases reaction with
  | accepted =>
    have hok := hdeliver [] { round with accepted := round.accepted + 1 }
    rw [Engine.report, Store.report_nil] at hok
    exact hok ho
  | failed => exact hdeliver [.listenerFailed r.id] round ho
  | panicked => exact hdeliver [.listenerPanicked r.id] round ho

/-- The users that are reported for a warm-up are the logins that it concerns. -/
theorem course_usersFound {c : Call} {result : Except DirectoryError (List String)}
    (hframes : e.frames = [.listing]) (hr : e.resolver.isSome = true)
    (hc : c.strict.wantsActions = false) (w : W)
    (ho : (ρ.run (Engine.usersFound d { e with frames := [] } result) w).1 = o) :
    Turn.Course ⟨some (.usersFound result), some c, o.1, e, o.2⟩ := by
  have hbefore : queries e.frames = [] := by simp [hframes, queries, Frame.query?]
  cases result with
  | error err =>
    rw [Engine.usersFound, ρ.run_pure] at ho
    subst ho
    refine .idle (idle_of_answered rfl ?_ rfl (.inl rfl) rfl rfl rfl rfl hbefore rfl)
    rintro (ht | ⟨ht, -⟩ | ht | ⟨-, hlisted⟩)
    · cases ht
    · cases ht
    · cases ht
    · exact hlisted err rfl
  | ok users =>
    rw [Engine.usersFound, ρ.run_bind, ρ.run_withStore] at ho
    rcases hperform : ρ.perform (Store.current d) e.store w with ⟨err | S, s, w'⟩
    · have hnone : s.resident = none := ρ.resident_of_current d hperform
      simp only [hperform, ρ.run_pure] at ho
      subst ho
      have hfails : ¬Turn.Succeeds ⟨some (.usersFound (.ok users)), some c,
          .answered (.warmed (.error err)), e, { e with store := s, frames := [] }⟩ :=
        not_succeeds_of_output (by simp [Answer.isSuccess])
      exact .idle (idle_of_answered rfl hfails rfl (.inr hnone) rfl rfl rfl rfl hbefore rfl)
    · have hS : s.resident = some S := ρ.resident_of_current d hperform
      let e₁ : Engine := { e with store := s, frames := [] }
      have hstore :
          ((e₁.generationFor S).2.warm (e₁.generationFor S).1 users.length users).2.store = s :=
        (Engine.store_warm _ _ _).trans (Engine.store_generationFor S)
      have hadvances := Engine.advances_warm hc (Engine.generationFor_spec (e := e₁) hr S).1
        users.length users
      simp only [hperform, ρ.run_pure] at ho
      subst ho
      refine .consults (e := e₁) rfl (hstore ▸ hS) rfl rfl rfl rfl ?_ hbefore ?_
      · simp [invalidates, Event.call?, Turn.tellsResolver]
      · simpa [concerns, hframes] using hadvances

/-- **What a turn comes to** if no call is made while something else is under way. -/
theorem course_step {ev : Event} {serves : Option Call} (hr : e.resolver.isSome = true)
    (hcall : ∀ c, ev.call? = some c → e.frames = [] ∧ serves = some c)
    (hreply : ev.call? = none → ∀ f fs, e.frames = f :: fs →
      fs = [] ∧ ∃ c, serves = some c ∧ f.Suits c) (w : W)
    (ho : (ρ.run (e.step d ev) w).1 = o) : Turn.Course ⟨some ev, serves, o.1, e, o.2⟩ := by
  cases ev with
  | call c =>
    obtain ⟨hframes, rfl⟩ := hcall c rfl
    exact course_call c hframes hr w ho
  | released key =>
    rw [Engine.step, ρ.run_pure] at ho
    subst ho
    exact .idle (idle_of_nothing rfl rfl rfl rfl rfl rfl rfl rfl rfl)
  | told reaction =>
    rw [Engine.step] at ho
    split at ho
    · rename_i r round fs hframes
      obtain ⟨rfl, -⟩ := hreply rfl _ _ hframes
      rw [ρ.run_pure] at ho
      exact course_resume hframes ho
    · rename_i hnot
      rw [ρ.run_pure] at ho
      subst ho
      refine .idle (idle_of_nothing rfl rfl ?_ rfl rfl rfl rfl rfl rfl)
      unfold Turn.tellsResolver
      split
      · next hannounce => cases hannounce
      · next r round fs _ hframes => exact (hnot r round fs hframes).elim
      · rfl
  | rolesFound result =>
    rw [Engine.step] at ho
    split at ho
    · rename_i q fs hframes
      obtain ⟨rfl, c, rfl, hserves⟩ := hreply rfl _ _ hframes
      rw [ρ.run_pure] at ho
      subst ho
      obtain ⟨ns, hstore⟩ := Engine.exists_store_rolesFound (e := { e with frames := [] }) q result
      have hresident := congrArg Store.resident hstore
      refine .builds rfl hframes ?_ rfl ?_ hresident rfl
      · cases result <;> simp [report?, Engine.reported?, hframes] <;> rfl
      · simp [invalidates, Event.call?, Turn.tellsResolver, hstore]
    · rename_i hnot
      rw [ρ.run_pure] at ho
      subst ho
      refine .idle (idle_of_nothing rfl rfl rfl ?_ rfl rfl rfl rfl rfl)
      show e.reported? (.rolesFound result) = none
      unfold Engine.reported?
      split
      · next q fs _ hframes => exact (hnot q fs hframes).elim
      · next q fs _ hframes => exact (hnot q fs hframes).elim
      · rfl
  | usersFound result =>
    rw [Engine.step] at ho
    split at ho
    · rename_i fs hframes
      obtain ⟨rfl, c, rfl, hc⟩ := hreply rfl _ _ hframes
      exact course_usersFound hframes hr hc w ho
    · rename_i hnot
      rw [ρ.run_pure] at ho
      subst ho
      refine .idle (idle_of_nothing rfl rfl rfl rfl ?_ rfl rfl rfl rfl)
      unfold concerns
      split
      · next hcall => cases hcall
      · next users fs _ hframes => exact (hnot fs hframes).elim
      · rfl

end Courses

end Turn

end LayeredRights
