import LayeredRights.Proofs.Resolver.Courses

/-!
# The decision cache is effective

Over any session in which nobody calls while something else is under way, the directory is asked for
the roles of a login once at most from one invalidation to the next, whatever it would report
meanwhile; queries about a login are answered alike; and all the logins that there have been are
cached (`Session.effective_of_isStretch`).

The invariant is that the generation for the snapshot in force covers the stretch that is under way
(`Engine.Covered`). It holds of a new generation and a stretch that has only begun, and each course
that a turn can take keeps it.

That nobody calls in between is used for two things. What waits is one call at most, so the logins
that are due are those of one query (`Covered.alone`). And a login that is being looked up is not
asked about again before its action set is stored: a query from within the look-up would find none
either, and be a second look-up of the same login.
-/

namespace LayeredRights

/-! ### One turn -/

section Advance

variable {e : Engine} {g : Generation} {i : Nat} {c : Call} {due L C : List String}
  {R : List (String × NameSet)} {ts : List Turn} {t : Turn}

/-- What is due is covered as far as the first look-up. -/
theorem Generation.Covers.advance (h : g.Covers [] due L C R)
    (hadvances : e.Advances g i c due (t.output, t.after)) (hframes : e.frames = []) :
    g.Covers ((queries t.after.frames).map (·.login))
      ((queries t.after.frames).flatMap fun q ↦ q.login :: q.rest) (L ++ t.lookUp?.toList) C R := by
  generalize ho : (t.output, t.after) = o at hadvances
  cases hadvances with
  | @asked done q hdone hnew hq hserves =>
    obtain ⟨hout, hafter⟩ := Prod.mk.inj ho
    have hqueries : queries t.after.frames = [q] := by
      simp [hafter, hframes, queries, Frame.query?]
    have hlookUp : t.lookUp? = some q.login := by rw [Turn.lookUp?, hout]
    rw [hqueries, hlookUp]
    simpa using h.ask hdone hnew
  | answered hdue hanswer =>
    obtain ⟨hout, hafter⟩ := Prod.mk.inj ho
    have hqueries : queries t.after.frames = [] := by
      rw [hafter, hframes]
      rfl
    have hlookUp : t.lookUp? = none := by rw [Turn.lookUp?, hout]
    rw [hqueries, hlookUp]
    simpa using h.settle hdue

/-- A turn that advances answers from the generation, if it answers a query at all. -/
theorem Generation.Answers.advance (h : g.Answers ts)
    (hadvances : e.Advances g i c due (t.output, t.after)) (hserves : t.serves = some c) :
    g.Answers (ts ++ [t]) := by
  intro t' ht' hsucceeds c' a login hanswer' hsub
  rcases List.mem_append.1 ht' with ht' | ht'
  · exact h t' ht' hsucceeds c' a login hanswer' hsub
  · obtain rfl := List.mem_singleton.1 ht'
    generalize ho : (t'.output, t'.after) = o at hadvances
    cases hadvances with
    | asked hdone hnew hq hserves' =>
      simp [Turn.answer?, (Prod.mk.inj ho).1] at hanswer'
    | answered hdue hanswer =>
      rw [Turn.answer?, (Prod.mk.inj ho).1, hserves] at hanswer'
      obtain ⟨rfl, rfl⟩ := Prod.mk.inj (Option.some.inj hanswer')
      exact hanswer login hsub

/-- A turn is effective by what the generation covers after it. -/
theorem Effective.concat {asked : List String} (h : Effective ts)
    (hcovers : g.Covers asked due (lookUps (ts ++ [t])) (concerned (ts ++ [t]))
      (reports (ts ++ [t]))) (hanswers : g.Answers (ts ++ [t]))
    (hlast : t.Succeeds → due = [] ∧ t.after.store.resident = some g.snapshot ∧
      t.after.cachedLogins = g.logins.length) : Effective (ts ++ [t]) := by
  have hcases : ∀ {past t'}, past ++ [t'] <+: ts ++ [t] →
      past ++ [t'] <+: ts ∨ past = ts ∧ t' = t := by
    intro past t' hprefix
    rcases List.prefix_concat_iff.1 hprefix with heq | hprefix
    · exact .inr ((List.append_inj' heq rfl).imp_right List.singleton_inj.1)
    · exact .inl hprefix
  refine ⟨hcovers.distinct, fun t₁ ht₁ t₂ ht₂ login actions actions' h₁ h₂ ↦ ?_,
    fun past t' hprefix hsucceeds ↦ ?_, fun past t' hprefix hsucceeds c a login ha hsub ↦ ?_⟩
  · obtain ⟨found, hfound, hanswer⟩ := hanswers t₁ ht₁ (.listed h₁) _ _ login h₁ rfl
    obtain ⟨found', hfound', hanswer'⟩ := hanswers t₂ ht₂ (.listed h₂) _ _ login h₂ rfl
    obtain rfl : found = found' := Option.some.inj (hfound.symm.trans hfound')
    exact Except.ok.inj (Answer.actions.inj (Option.some.inj (hanswer.symm.trans hanswer')))
  · rcases hcases hprefix with hold | ⟨rfl, rfl⟩
    · exact h.counted past t' hold hsucceeds
    · obtain ⟨rfl, -, hcached⟩ := hlast hsucceeds
      have hdistinct : g.logins.Nodup := by
        have hdistinct := hcovers.distinct
        rw [hcovers.lookUps_eq] at hdistinct
        exact hdistinct.of_append_left
      have hlogins : (concerned (past ++ [t'])).toFinset = g.logins.toFinset := by
        ext l
        simp [hcovers.mem_concerned]
      rw [hcached, hlogins, List.toFinset_card_of_nodup hdistinct]
  · rcases hcases hprefix with hold | ⟨rfl, rfl⟩
    · exact h.current past t' hold hsucceeds c a login ha hsub
    · obtain ⟨-, hresident, -⟩ := hlast hsucceeds
      obtain ⟨actions, hfind, hanswer⟩ :=
        hanswers t' (List.mem_append_right _ (List.mem_singleton_self _)) hsucceeds c a login ha
          hsub
      obtain ⟨roles, hroles, rfl⟩ := hcovers.built login actions hfind
      refine ⟨g.snapshot, roles, hresident, hroles, ?_⟩
      rw [Configuration.answer?_eq _ _ hsub, hanswer]

end Advance

/-! ### The invariant -/

/-- What is so of the resolver, given the stretch that is under way. -/
structure Engine.Covered (e : Engine) (ts : List Turn) : Prop where
  /-- Who waits does so for the generation of the snapshot in force. -/
  looking : ∀ q ∈ queries e.frames, ∃ S, e.store.resident = some S ∧
    e.inUseFor? S = some q.generation
  covers : ∀ S, e.store.resident = some S →
    (e.generationTo S).Covers ((queries e.frames).map (·.login))
      ((queries e.frames).flatMap fun q ↦ q.login :: q.rest) (lookUps ts) (concerned ts)
      (reports ts)
  answers : ∀ S, e.store.resident = some S → (e.generationTo S).Answers ts
  effective : Effective ts

section Courses

variable {e : Engine} {g : Generation} {i : Nat} {c : Call} {due : List String} {ts : List Turn}
  {t : Turn} {S : Snapshot} {call : Option Call} {h : List Moment}
  {reported : List (Option (String × NameSet))}

/-- What is left of a stretch is the whole of it or nothing. -/
theorem effective_leftOf (hts : Effective ts) (t : Turn) : Effective (leftOf ts t) := by
  unfold leftOf
  split
  · exact effective_nil
  · exact hts

/-- What is left of the stretch is covered by the generation for the snapshot in force. A generation
for a snapshot that has just been installed is a new one. -/
theorem Engine.Covered.covers_leftOf (hcovered : t.before.Covered ts)
    (hc : Coherent h reported t.before) (hbecomes : t.before.store.Becomes call t.after.store)
    (hbefore : t.invalidates = true → queries t.before.frames = [])
    (hgenerations : e.generations = t.before.generations)
    (hcalm : t.invalidates = false → e.inUse? = t.before.inUse?)
    (hcleared : t.invalidates = true →
      e.inUse? = none ∨ t.after.store.loads ≠ t.before.store.loads)
    (hS : t.after.store.resident = some S) :
    (e.generationTo S).snapshot = S ∧ (e.generationTo S).Answers (leftOf ts t) ∧
      (e.generationTo S).Covers ((queries t.before.frames).map (·.login))
        ((queries t.before.frames).flatMap fun q ↦ q.login :: q.rest) (lookUps (leftOf ts t))
        (concerned (leftOf ts t)) (reports (leftOf ts t)) := by
  cases hinvalidates : t.invalidates with
  | false =>
    have hleft : leftOf ts t = ts := by simp [leftOf, hinvalidates]
    have hloads : t.after.store.loads = t.before.store.loads := by
      simp only [Turn.invalidates, Bool.or_eq_false_iff] at hinvalidates
      simpa using hinvalidates.2
    have hresident : t.before.store.resident = some S := by
      cases hbecomes with
      | kept hresident _ => exact hresident.symm.trans hS
      | emptied _ hnone _ => exact absurd (hnone.symm.trans hS) (by simp)
      | filled _ _ _ hfilled => omega
    rw [hleft, generationTo_congr hgenerations (hcalm hinvalidates)]
    exact ⟨snapshot_generationTo hc hresident, hcovered.answers S hresident,
      hcovered.covers S hresident⟩
  | true =>
    have hleft : leftOf ts t = [] := by simp [leftOf, hinvalidates]
    have hnew : e.generationTo S = { snapshot := S } := by
      rcases hcleared hinvalidates with hnone | hloads
      · exact generationTo_of_inUse?_eq_none hnone
      · refine generationTo_of_new fun g hg ↦ ?_
        rw [hgenerations] at hg
        cases hbecomes with
        | kept _ hkept => exact absurd hkept hloads
        | emptied _ hnone _ => exact absurd (hnone.symm.trans hS) (by simp)
        | filled cfg _ hresident _ =>
          obtain rfl := Option.some.inj (hresident.symm.trans hS)
          exact Nat.ne_of_lt (hc.generation_lt g hg)
    rw [hleft, hnew, hbefore hinvalidates]
    exact ⟨rfl, fun t ht ↦ absurd ht List.not_mem_nil, Generation.covers_new S⟩

/-- A turn that concerns no login. -/
theorem Turn.Idle.covered (hidle : t.Idle) (hcovered : t.before.Covered ts)
    (hc : Coherent h reported t.before) (hbecomes : t.before.store.Becomes call t.after.store) :
    t.after.Covered (nextStretch ts t) := by
  have hbefore : t.invalidates = true → LayeredRights.queries t.before.frames = [] := by
    intro hinvalidates
    by_contra hne
    exact absurd (hinvalidates.symm.trans (hidle.waits hne).1) (by simp)
  have hleft : ∀ {S}, t.after.store.resident = some S → _ := fun {S} hS ↦
    hcovered.covers_leftOf hc hbecomes hbefore hidle.generations hidle.calm hidle.cleared hS
  refine ⟨fun q hq ↦ ?_, fun S hS ↦ ?_, fun S hS ↦ ?_,
    (effective_leftOf hcovered.effective t).concat_of_silent hidle.lookUp hidle.fails⟩
  · rw [hidle.queries] at hq
    obtain ⟨hcalm, hresident⟩ := hidle.waits (List.ne_nil_of_mem hq)
    obtain ⟨S, hS, hi⟩ := hcovered.looking q hq
    refine ⟨S, hresident.trans hS, ?_⟩
    rw [Engine.inUseFor?_congr hidle.generations (hidle.calm hcalm), hi]
  · have hconcerns : t.concerns = [] := by
      refine hidle.concerns.resolve_right fun hnone ↦ ?_
      exact absurd (hnone.symm.trans hS) (by simp)
    rw [hidle.queries, nextStretch, lookUps_concat, concerned_concat, reports_concat, hidle.lookUp,
      hidle.report, hconcerns]
    simpa using (hleft hS).2.2
  · intro t' ht' hsucceeds
    rcases List.mem_append.1 ht' with ht' | ht'
    · exact (hleft hS).2.1 t' ht' hsucceeds
    · obtain rfl := List.mem_singleton.1 ht'
      exact absurd hsucceeds hidle.fails

/-- A generation that covers the stretch up to what is due goes on to cover it, and the call that is
served waits for what it asks for. -/
theorem Engine.covered_of_advances (hg : e.generations[i]? = some g)
    (hi : e.inUseFor? g.snapshot = some i) (hframes : e.frames = [])
    (hresident : t.after.store.resident = some g.snapshot) (hserves : t.serves = some c)
    (hadvances : e.Advances g i c due (t.output, t.after)) (hanswers : g.Answers ts)
    (heffective : Effective ts) (hcovers : g.Covers [] due (lookUps ts) (concerned (ts ++ [t]))
      (reports (ts ++ [t]))) : t.after.Covered (ts ++ [t]) ∧ t.Suited := by
  obtain ⟨hgenerations, hinUse, hsuited, hqueries, hsettled⟩ :
      t.after.generations = e.generations ∧ t.after.inUse? = e.inUse? ∧
        (∀ f ∈ t.after.frames, f.Suits c) ∧ (∀ q ∈ queries t.after.frames, q.generation = i) ∧
          (t.Succeeds → queries t.after.frames = []) := by
    generalize ho : (t.output, t.after) = o at hadvances
    cases hadvances with
    | @asked done q hdone hnew hq hserves' =>
      obtain ⟨hout, hafter⟩ := Prod.mk.inj ho
      have hfails : ¬t.Succeeds := Turn.not_succeeds_of_output (by simp [hout])
      refine ⟨by rw [hafter], by rw [hafter]; rfl, ?_, ?_, fun hsucceeds ↦ absurd hsucceeds hfails⟩
      · rw [hafter]
        simpa [hframes, Frame.Suits] using hserves'
      · simp [hafter, hframes, queries, Frame.query?, hq]
    | answered hdue hanswer =>
      obtain ⟨-, rfl⟩ := Prod.mk.inj ho
      simp [hframes, queries]
  have hi' : t.after.inUseFor? g.snapshot = some i := by
    rw [inUseFor?_congr hgenerations hinUse, hi]
  have hg' : t.after.generations[i]? = some g := by rw [hgenerations, hg]
  have hto : ∀ S, t.after.store.resident = some S → t.after.generationTo S = g := by
    intro S hS
    obtain rfl := Option.some.inj (hresident.symm.trans hS)
    exact generationTo_of_inUseFor? hi' hg'
  have hafter := hcovers.advance hadvances hframes
  rw [← lookUps_concat] at hafter
  have hanswers' := hanswers.advance hadvances hserves
  refine ⟨⟨fun q hq ↦ ⟨g.snapshot, hresident, by rw [hi', hqueries q hq]⟩,
    fun S hS ↦ by rwa [hto S hS], fun S hS ↦ by rwa [hto S hS],
    heffective.concat hafter hanswers' fun hsucceeds ↦ ?_⟩, .inr fun f hf c' hc' ↦ ?_⟩
  · rw [hsettled hsucceeds]
    exact ⟨rfl, hresident, cachedLogins_eq hi' hg'⟩
  · obtain rfl := Option.some.inj (hserves.symm.trans hc')
    exact hsuited f hf

/-- **Whatever course a turn takes**, the stretch is covered again. -/
theorem Turn.Course.covered (hcourse : t.Course) (hcovered : t.before.Covered ts)
    (hc : Coherent h reported t.before) (hbecomes : t.before.store.Becomes call t.after.store)
    (hr : t.before.resolver.isSome = true)
    (hsuits : ∀ f ∈ t.before.frames, ∀ c, t.serves = some c → f.Suits c) :
    t.after.Covered (nextStretch ts t) ∧ t.Suited := by
  cases hcourse with
  | idle hidle => exact ⟨hidle.covered hcovered hc hbecomes, hidle.suited⟩
  | @consults e S c hserves hS hgenerations hresolver hframes hreport hinvalidates hbefore
      hadvances =>
    have hinUse : e.inUse? = t.before.inUse? := by
      rw [Engine.inUse?, hresolver]
      rfl
    obtain ⟨hsnapshot, hanswers, hcovers⟩ := hcovered.covers_leftOf hc hbecomes (fun _ ↦ hbefore)
      hgenerations (fun _ ↦ hinUse) (fun hinv ↦ .inr (by simpa [hinvalidates] using hinv)) hS
    obtain ⟨hg, hi⟩ := Engine.generationFor_spec (hresolver ▸ hr) S
    rw [hbefore] at hcovers
    have hdue := hcovers.concern t.concerns
    refine Engine.covered_of_advances hg (hsnapshot.symm ▸ hi)
      ((e.frames_generationFor S).trans hframes) (hsnapshot.symm ▸ hS) hserves hadvances hanswers
      (effective_leftOf hcovered.effective t) ?_
    rw [concerned_concat, reports_concat, hreport]
    simpa using hdue
  | @builds q c result hserves hframes hreport hconcerns hinvalidates hresident ho =>
    have hqueries : LayeredRights.queries t.before.frames = [q] := by
      simp [hframes, LayeredRights.queries, Frame.query?]
    have hleft : nextStretch ts t = ts ++ [t] := by simp [nextStretch, leftOf, hinvalidates]
    have hq : q.Serves c.strict := hsuits (.lookingUp q) (by simp [hframes]) c hserves
    obtain ⟨S, hS, hi⟩ := hcovered.looking q (by simp [hqueries])
    obtain ⟨huse, g, hg, rfl⟩ := hc.generation_of_inUseFor? hS hi
    have hto := Engine.generationTo_of_inUseFor? hi hg
    have hcovers := hcovered.covers g.snapshot hS
    have hanswers := hcovered.answers g.snapshot hS
    rw [hto, hqueries] at hcovers
    rw [hto] at hanswers
    obtain ⟨e, hgenerations, hinUse, hnone, hadvances⟩ := Engine.exists_advances_rolesFound
      (e := { t.before with frames := [] }) hq hg result
    rw [← ho] at hadvances
    let built := g.snapshot.configuration.listedActions ⟨q.login, result.toOption.getD ∅⟩
    have hg' : e.generations[q.generation]? = some (g.remember q.login built) := by
      rw [hgenerations]
      exact List.getElem?_set_self (List.getElem?_eq_some_iff.1 hg).1
    have hwaits : g.Covers [q.login] (q.login :: q.rest) (lookUps ts) (concerned ts)
        (reports ts) := by
      simpa using hcovers
    have hdue := hwaits.store (result.toOption.getD ∅)
    rw [hleft]
    have hanswers' := hanswers.extend (g.extends_remember q.login built)
    refine Engine.covered_of_advances hg' (Engine.inUseFor?_of_inUse? (hinUse.trans huse) hg') hnone
      ?_ hserves hadvances hanswers' hcovered.effective ?_
    · rw [hresident, g.snapshot_remember, hS]
    · rw [concerned_concat, reports_concat, hreport, hconcerns]
      simpa using hdue

end Courses

/-! ### Sessions -/

namespace Session

variable {m : Type → Type} [Monad m] {W : Type} {ρ : Runner m W} {d : Documents m} {s : Session W}
  {ts : List Turn}

/-- What is so of a session in which nobody calls while something else is under way, given the
stretch that is. -/
structure Covered (s : Session W) (ts : List Turn) : Prop where
  sound : s.Sound
  resolver : s.engine.resolver.isSome = true
  alone : s.pending.length ≤ 1
  suits : ∀ f ∈ s.engine.frames, ∀ p ∈ s.pending, f.Suits p.1
  cache : s.engine.Covered ts

/-- In the beginning there are no generations, and no turn has been taken. -/
theorem covered_fresh (editAction : String) (w : W) : (fresh editAction w).Covered [] where
  sound := sound_fresh editAction w
  resolver := rfl
  alone := Nat.zero_le 1
  suits _ hf := absurd hf List.not_mem_nil
  cache :=
    { looking := fun _ hq ↦ absurd hq List.not_mem_nil
      covers := fun _ hS ↦ nomatch hS
      answers := fun _ hS ↦ nomatch hS
      effective := effective_nil }

/-- The calls that go on waiting are of those that have waited. -/
theorem pending_record_suffix (s : Session W) (ev : Event) (out : Output) (e : Engine) (w : W) :
    (s.record ev out e w).pending <:+ s.waiting ev := by
  rcases s.record_cases ev out e w with ⟨-, hpending, -⟩ | ⟨c, first, rest, a, -, hw, -, hpending⟩
  · exact hpending ▸ List.suffix_rfl
  · rw [hpending, hw]
    exact List.suffix_cons _ _

section Events

variable {ev : Event}

/-- A call is made only if nothing waits. -/
theorem Covered.frames_of_call (hs : s.Covered ts)
    (hnot : (s.turn ρ d (.event ev)).isReentrant = false) {c : Call} (hc : ev.call? = some c) :
    s.engine.frames = [] ∧ s.pending = [] := by
  have hframes : s.engine.frames = [] := by simpa [turn, Turn.isReentrant, hc] using hnot
  have hlength := hs.sound.awaits.length_eq
  rw [hframes] at hlength
  exact ⟨hframes, List.eq_nil_of_length_eq_zero hlength.symm⟩

/-- While something waits, no call is made. -/
theorem Covered.waiting_eq (hs : s.Covered ts)
    (hnot : (s.turn ρ d (.event ev)).isReentrant = false) {f : Frame} (hf : f ∈ s.engine.frames) :
    s.waiting ev = s.pending := by
  cases hc : ev.call? with
  | none => exact waiting_of_reply hc
  | some c =>
    rw [(hs.frames_of_call hnot hc).1] at hf
    exact absurd hf List.not_mem_nil

/-- One call waits at most. -/
theorem Covered.length_waiting_le (hs : s.Covered ts)
    (hnot : (s.turn ρ d (.event ev)).isReentrant = false) : (s.waiting ev).length ≤ 1 := by
  cases hc : ev.call? with
  | none => exact waiting_of_reply hc ▸ hs.alone
  | some c => simp [waiting_of_call hc, (hs.frames_of_call hnot hc).2]

/-- It is the one that is served. -/
theorem Covered.serves_of_mem_waiting (hs : s.Covered ts)
    (hnot : (s.turn ρ d (.event ev)).isReentrant = false) {p : Call × Nat}
    (hp : p ∈ s.waiting ev) : (s.turn ρ d (.event ev)).serves = some p.1 := by
  obtain ⟨p', hp'⟩ := List.length_eq_one_iff.1
    (Nat.le_antisymm (hs.length_waiting_le hnot) (List.length_pos_of_mem hp))
  rw [hp'] at hp
  rw [turn, hp', List.mem_singleton.1 hp]
  rfl

/-- What waits is what the call that is served waits for. -/
theorem Covered.suits_of_serves (hs : s.Covered ts)
    (hnot : (s.turn ρ d (.event ev)).isReentrant = false) {f : Frame} (hf : f ∈ s.engine.frames)
    {c : Call} (hc : (s.turn ρ d (.event ev)).serves = some c) : f.Suits c := by
  obtain ⟨p, hp, rfl⟩ := Option.map_eq_some_iff.1 hc
  rw [hs.waiting_eq hnot hf] at hp
  exact hs.suits f hf p (List.mem_of_mem_head? hp)

/-- So each turn takes one of the courses. -/
theorem Covered.course (hs : s.Covered ts)
    (hnot : (s.turn ρ d (.event ev)).isReentrant = false) :
    (s.turn ρ d (.event ev)).Course := by
  refine Turn.course_step hs.resolver (fun c hc ↦ ?_) (fun hc f fs hframes ↦ ?_) s.world rfl
  · exact ⟨(hs.frames_of_call hnot hc).1, by rw [waiting_of_call hc]; rfl⟩
  · have hf : f ∈ s.engine.frames := hframes ▸ List.mem_cons_self
    obtain ⟨p, rest, -, hrest, hpending⟩ := hs.sound.awaits_of_frames_eq hframes
    have hp : p ∈ s.waiting ev := by
      rw [hs.waiting_eq hnot hf, hpending]
      exact List.mem_cons_self
    have hserves := hs.serves_of_mem_waiting hnot hp
    refine ⟨List.eq_nil_of_length_eq_zero ?_, p.1, hserves, hs.suits_of_serves hnot hf hserves⟩
    have hone := hs.alone
    rw [hpending, List.length_cons] at hone
    rw [hrest.length_eq]
    omega

end Events

/-- **One move.** -/
theorem covered_move (hs : s.Covered ts) (mv : Move W)
    (hnot : (s.turn ρ d mv).isReentrant = false) :
    (s.move ρ d mv).Covered (nextStretch ts (s.turn ρ d mv)) := by
  have hsound := sound_move (ρ := ρ) (d := d) hs.sound mv
  cases mv with
  | outside edit =>
    have hidle : (s.turn ρ d (.outside edit)).Idle :=
      Turn.idle_of_nothing rfl rfl rfl rfl rfl rfl rfl rfl rfl
    have hbecomes : s.engine.store.Becomes none s.engine.store := .kept rfl rfl
    exact ⟨hsound, hs.resolver, hs.alone, hs.suits,
      hidle.covered hs.cache hs.sound.coherent hbecomes⟩
  | event ev =>
    obtain ⟨hcache, hsuited⟩ := (hs.course hnot).covered hs.cache hs.sound.coherent
      (Engine.becomes_step ev s.world) hs.resolver fun f hf c ↦ hs.suits_of_serves hnot hf
    have hresolver := (Engine.retains_step (ρ := ρ) (d := d) ev s.world).resolver hs.resolver
    have hserves : ∀ p ∈ (s.move ρ d (.event ev)).pending,
        (s.turn ρ d (.event ev)).serves = some p.1 ∧ p ∈ s.waiting ev := by
      intro p hp
      have hwaiting := (s.pending_record_suffix ev _ _ _).subset hp
      exact ⟨hs.serves_of_mem_waiting hnot hwaiting, hwaiting⟩
    have hengine : (s.move ρ d (.event ev)).engine = (s.turn ρ d (.event ev)).after :=
      engine_record
    refine ⟨hsound, hengine ▸ hresolver,
      (s.pending_record_suffix ev _ _ _).length_le.trans (hs.length_waiting_le hnot),
      fun f hf p hp ↦ ?_, hengine ▸ hcache⟩
    rw [hengine] at hf
    obtain ⟨hserves, hwaiting⟩ := hserves p hp
    rcases hsuited with ⟨-, hframes⟩ | hsuited
    · rw [hframes] at hf
      exact hs.suits f hf p (hs.waiting_eq hnot hf ▸ hwaiting)
    · exact hsuited f hf p.1 hserves

/-- The stretch that is under way is covered throughout. -/
theorem covered_run (hs : s.Covered ts) (moves : List (Move W))
    (hnot : ∀ t ∈ s.turns ρ d moves, t.isReentrant = false) :
    (s.run ρ d moves).Covered ((s.turns ρ d moves).foldl nextStretch ts) := by
  induction moves generalizing s ts with
  | nil => exact hs
  | cons mv moves ih =>
    obtain ⟨hmv, hmoves⟩ := List.forall_mem_cons.1 hnot
    exact ih (covered_move hs mv hmv) hmoves

/-- **The decision cache is effective** in every stretch of a session, if nobody calls while
something else is under way. -/
theorem effective_of_isStretch (ρ : Runner m W) (d : Documents m) (editAction : String) (w : W)
    (moves : List (Move W))
    (hnot : ∀ t ∈ (fresh editAction w).turns ρ d moves, t.isReentrant = false)
    {ts : List Turn} (hts : IsStretch ((fresh editAction w).turns ρ d moves) ts) :
    Effective ts := by
  obtain ⟨n, rfl⟩ := hts.exists_take
  have htake : ∀ t ∈ (fresh editAction w).turns ρ d (moves.take n), t.isReentrant = false := by
    rw [turns_take]
    exact fun t ht ↦ hnot t (List.mem_of_mem_take ht)
  rw [← turns_take]
  exact (covered_run (covered_fresh editAction w) (moves.take n) htake).cache.effective

/-- A login is asked about, warmed up with another one, and asked about again. Then all action sets
are discarded, and the directory reports other roles. -/
def warmedAndDiscarded : List (Move MemoryDocuments) :=
  [.event (.call (.effectiveActions "ann")),
    .event (.rolesFound (.ok (NameSet.ofList ["staff"]))), .event (.call .warmUp),
    .event (.usersFound (.ok ["ann", "bob"])), .event (.rolesFound (.ok ∅)),
    .event (.call (.effectiveActions "ann")), .event (.call .discard),
    .event (.call (.effectiveActions "ann")), .event (.rolesFound (.ok ∅))]

/-- The cache is effective until the discard and from it on. Each login is looked up once before it,
and the one that is asked about once more after it. -/
theorem effective_warmedAndDiscarded :
    let ts := (fresh "edit" office).turns (.stateful _) MemoryDocuments.documents warmedAndDiscarded
    (lookUps (ts.take 6) = ["ann", "bob"] ∧ Effective (ts.take 6)) ∧
      lookUps (ts.drop 6) = ["ann"] ∧ Effective (ts.drop 6) := by
  intro ts
  have hnot : ∀ t ∈ ts, t.isReentrant = false := by
    have hall : ts.map (·.isReentrant) = List.replicate 9 false := rfl
    exact fun t ht ↦ List.eq_of_mem_replicate (hall ▸ List.mem_map_of_mem ht)
  have hbefore : ∀ t ∈ (ts.take 6).tail, t.invalidates = false := by
    have hall : (ts.take 6).tail.map (·.invalidates) = List.replicate 5 false := rfl
    exact fun t ht ↦ List.eq_of_mem_replicate (hall ▸ List.mem_map_of_mem ht)
  have hafter : ∀ t ∈ (ts.drop 6).tail, t.invalidates = false := by
    have hall : (ts.drop 6).tail.map (·.invalidates) = List.replicate 2 false := rfl
    exact fun t ht ↦ List.eq_of_mem_replicate (hall ▸ List.mem_map_of_mem ht)
  refine ⟨⟨rfl, ?_⟩, rfl, ?_⟩
  · exact effective_of_isStretch _ _ "edit" office warmedAndDiscarded hnot
      ⟨⟨[], ts.drop 6, rfl, .inl rfl⟩, hbefore⟩
  · exact effective_of_isStretch _ _ "edit" office warmedAndDiscarded hnot
      ⟨⟨ts.take 6, [], rfl, .inr ⟨_, rfl, rfl⟩⟩, hafter⟩

end Session

end LayeredRights
