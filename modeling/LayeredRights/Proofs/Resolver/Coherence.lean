import LayeredRights.Proofs.Resolver.Session

/-!
# Coherence of the cached action sets

Whether a cached action set may be used depends on when things happened: when the generation that
holds it came to be, when its snapshot was installed, and when the roles it was built from were
reported. The engine keeps no times. But all of them can be read off the moments of a session, since
generations are numbered in the order in which they come to be, and so are snapshots: the generation
of index `i` came to be after every moment that counted `i` generations or fewer.

`Coherent` is the invariant that links what the engine holds to the moments gone by. Its parts say

* that a generation stays where it is and keeps its snapshot (`kept`);
* that equal serial numbers mean equal snapshots (`generation_eq`), and that a snapshot that has
  gone never comes back (`resident_since`);
* that a generation came to be after its snapshot was installed (`born`), and the one in use after
  every moment at which none was (`used`);
* that an action set was built from its generation's snapshot and from roles reported after the
  generation came to be (`stored`).

Everything that the engine does is one of a few things, and each of them keeps it: nothing that
matters here (`Coherent.of_agrees`), a step of the store (`Coherent.store`), forgetting the
generation in use (`Coherent.discard`), taking up a generation for the resident snapshot
(`Coherent.generationFor`), and storing an action set (`Coherent.remember`).
-/

namespace LayeredRights

/-! ### What is read off the moments -/

/-- A moment after which earlier reports no longer count for answers from a snapshot: a discard, a
moment with no generation in use, as when the resolver has been told of a change, or one at which
another snapshot was resident or none. -/
def Moment.Invalidates (m : Moment) (S : Snapshot) : Prop :=
  m.call = some .discard ∨ m.engine.inUse? = none ∨ m.engine.store.resident ≠ some S

/-- The action set was built from the snapshot and from roles that were reported for the login after
the generation of the index came to be. -/
def Stored (h : List Moment) (reports : List (Option (String × NameSet))) (i : Nat) (S : Snapshot)
    (login : String) (actions : NameSet) : Prop :=
  ∃ r roles, reports[r]? = some (some (login, roles)) ∧
    actions = S.configuration.listedActions ⟨login, roles⟩ ∧
    ∀ (k : Nat) (m : Moment), h[k]? = some m → m.engine.generations.length ≤ i → k < r

/-- What the engine holds fits the moments gone by and the reports made, that of the present moment
included. -/
structure Coherent (h : List Moment) (reports : List (Option (String × NameSet))) (e : Engine) :
    Prop where
  kept : ∀ m ∈ h, ∀ (i : Nat) (g : Generation), m.engine.generations[i]? = some g →
    ∃ g' : Generation, e.generations[i]? = some g' ∧ g'.snapshot = g.snapshot
  loads_le : ∀ m ∈ h, m.engine.store.loads ≤ e.store.loads
  discarded : ∀ m ∈ h, m.call = some .discard → m.engine.inUse? = none
  resident_lt : ∀ S, e.store.resident = some S → S.serial < e.store.loads
  resident_since : ∀ S, e.store.resident = some S → ∀ m ∈ h,
    S.serial < m.engine.store.loads → m.engine.store.resident = some S
  generation_lt : ∀ g ∈ e.generations, g.snapshot.serial < e.store.loads
  generation_eq : ∀ g ∈ e.generations, ∀ S, e.store.resident = some S →
    g.snapshot.serial = S.serial → g.snapshot = S
  born : ∀ i g, e.generations[i]? = some g → ∀ m ∈ h,
    i < m.engine.generations.length → g.snapshot.serial < m.engine.store.loads
  used : ∀ i, e.inUse? = some i → i < e.generations.length ∧
    ∀ m ∈ h, m.engine.inUse? = none → m.engine.generations.length ≤ i
  stored : ∀ i g, e.generations[i]? = some g → ∀ login actions,
    g.find? login = some actions → Stored h reports i g.snapshot login actions

/-- Nothing differs in the second engine that answers to queries depend on. -/
structure Engine.Agrees (e e' : Engine) : Prop where
  resident : e'.store.resident = e.store.resident
  loads : e'.store.loads = e.store.loads
  generations : e'.generations = e.generations
  inUse : e'.inUse? = e.inUse?

theorem Engine.inUse?_discard (e : Engine) : e.discard.inUse? = none := by
  cases hr : e.resolver <;> simp [inUse?, discard, hr]

theorem Engine.agrees_report (e : Engine) (ns : List Notice) : e.Agrees (e.report ns) :=
  ⟨rfl, rfl, rfl, rfl⟩

theorem Engine.frames_generationFor (e : Engine) (S : Snapshot) :
    (e.generationFor S).2.frames = e.frames := by
  unfold Engine.generationFor
  split <;> rfl

/-! ### Reading a generation -/

namespace Engine

variable {e : Engine} {i : Nat} {g : Generation}

/-- A query is decided by the mode of the snapshot that its generation was taken up for. -/
theorem modeOf_eq (hg : e.generations[i]? = some g) :
    e.modeOf i = g.snapshot.configuration.mode := by
  simp [modeOf, generation?, hg]

/-- A login is looked up in the generation of the query, whichever is in use by now. -/
theorem cached?_eq (hg : e.generations[i]? = some g) (login : String) :
    e.cached? i login = g.find? login := by
  simp [cached?, generation?, hg]

theorem inUseFor?_of_inUse? (hi : e.inUse? = some i) (hg : e.generations[i]? = some g) :
    e.inUseFor? g.snapshot = some i :=
  Option.filter_eq_some_iff.2 ⟨hi, by simp [generation?, hg]⟩

end Engine

/-! ### What keeps it -/

namespace Coherent

variable {h : List Moment} {reports : List (Option (String × NameSet))} {e e' : Engine}

/-- Generations are never given up. -/
theorem length_le (hc : Coherent h reports e) {m : Moment} (hm : m ∈ h) :
    m.engine.generations.length ≤ e.generations.length := by
  refine Nat.le_of_not_lt fun hlt ↦ ?_
  obtain ⟨g, hg, -⟩ := hc.kept m hm _ _ (List.getElem?_eq_getElem hlt)
  exact absurd (List.getElem?_eq_some_iff.1 hg).1 (Nat.lt_irrefl _)

/-- What answers do not depend on makes no difference. -/
theorem of_agrees (hc : Coherent h reports e) (ha : e.Agrees e') : Coherent h reports e' := by
  obtain ⟨hresident, hloads, hgenerations, hinUse⟩ := ha
  constructor
  · rw [hgenerations]; exact hc.kept
  · rw [hloads]; exact hc.loads_le
  · exact hc.discarded
  · rw [hresident, hloads]; exact hc.resident_lt
  · rw [hresident]; exact hc.resident_since
  · rw [hgenerations, hloads]; exact hc.generation_lt
  · rw [hgenerations, hresident]; exact hc.generation_eq
  · rw [hgenerations]; exact hc.born
  · rw [hinUse, hgenerations]; exact hc.used
  · rw [hgenerations]; exact hc.stored

/-- A new snapshot has a serial number that nothing has had before. -/
theorem store (hc : Coherent h reports e) {s : Store} (hs : e.store.Steps s) :
    Coherent h reports { e with store := s } := by
  cases hs with
  | reported ns => exact hc.of_agrees (e.agrees_report ns)
  | evicted ns =>
    exact { hc with
      resident_lt := fun S hS ↦ nomatch hS
      resident_since := fun S hS ↦ nomatch hS
      generation_eq := fun g _ S hS ↦ nomatch hS }
  | installed ns c =>
    refine { hc with
      loads_le := fun m hm ↦ Nat.le_succ_of_le (hc.loads_le m hm)
      resident_lt := ?_
      resident_since := ?_
      generation_lt := fun g hg ↦ Nat.lt_succ_of_lt (hc.generation_lt g hg)
      generation_eq := ?_ }
    · rintro S ⟨⟩
      exact Nat.lt_succ_self _
    · -- no moment has made as many loads
      rintro S ⟨⟩ m hm hlt
      exact absurd (hc.loads_le m hm) (Nat.not_le_of_lt hlt)
    · rintro g hg S ⟨⟩ heq
      exact absurd heq (Nat.ne_of_lt (hc.generation_lt g hg))

/-- Once action sets are discarded, no generation is in use, and nothing has to be known of one. -/
theorem discard (hc : Coherent h reports e) : Coherent h reports e.discard :=
  { hc with used := fun _ hi ↦ nomatch e.inUse?_discard.symm.trans hi }

/-- Registering a new resolver leaves no generation in use. -/
theorem attachResolver (hc : Coherent h reports e) : Coherent h reports e.attachResolver :=
  { hc with used := fun _ hi ↦ nomatch hi }

/-! ### Taking up a generation -/

/-- The engine with a new generation, which is the one in use. -/
theorem addGeneration (hc : Coherent h reports e) {S : Snapshot} (hS : e.store.resident = some S) :
    Coherent h reports { e with
      generations := e.generations ++ [{ snapshot := S }]
      resolver := e.resolver.map fun r ↦ { r with inUse := some e.generations.length } } := by
  have hlength : ∀ m ∈ h, m.engine.generations.length ≤ e.generations.length :=
    fun m hm ↦ hc.length_le hm
  refine { hc with
    kept := fun m hm i g hg ↦ ?_
    generation_lt := fun g hg ↦ ?_
    generation_eq := fun g hg T hT heq ↦ ?_
    born := fun i g hg m hm hi ↦ ?_
    used := fun i hi ↦ ?_
    stored := fun i g hg login actions hfind ↦ ?_ }
  · obtain ⟨g', hg', hsnap⟩ := hc.kept m hm i g hg
    have hlt : i < e.generations.length := (List.getElem?_eq_some_iff.1 hg').1
    exact ⟨g', (List.getElem?_append_left hlt).trans hg', hsnap⟩
  · rcases List.mem_append.1 hg with hg | hg
    · exact hc.generation_lt g hg
    · rw [List.mem_singleton.1 hg]
      exact hc.resident_lt S hS
  · rcases List.mem_append.1 hg with hg | hg
    · exact hc.generation_eq g hg T hT heq
    · rw [List.mem_singleton.1 hg]
      exact Option.some.inj (hS.symm.trans hT)
  · rw [List.getElem?_append_left (Nat.lt_of_lt_of_le hi (hlength m hm))] at hg
    exact hc.born i g hg m hm hi
  · have hieq : i = e.generations.length := by
      cases hr : e.resolver with
      | none => simp [Engine.inUse?, hr] at hi
      | some r => simpa [Engine.inUse?, hr] using hi.symm
    subst hieq
    exact ⟨by simp, fun m hm _ ↦ hlength m hm⟩
  · rcases Nat.lt_or_ge i e.generations.length with hlt | hge
    · rw [List.getElem?_append_left hlt] at hg
      exact hc.stored i g hg login actions hfind
    · -- nothing is stored yet in the new one
      rw [List.getElem?_append_right hge] at hg
      obtain ⟨-, rfl⟩ : i - e.generations.length = 0 ∧ { snapshot := S } = g := by
        simpa [List.getElem?_singleton] using hg
      exact nomatch hfind

/-- The generation in use for the resident snapshot belongs to that very snapshot. -/
theorem generation_of_inUseFor? (hc : Coherent h reports e) {S : Snapshot}
    (hS : e.store.resident = some S) {i : Nat} (hi : e.inUseFor? S = some i) :
    e.inUse? = some i ∧ ∃ g, e.generations[i]? = some g ∧ g.snapshot = S := by
  obtain ⟨huse, hany⟩ := Option.filter_eq_some_iff.1 hi
  refine ⟨huse, ?_⟩
  cases hg : e.generations[i]? with
  | none => simp [Engine.generation?, hg] at hany
  | some g =>
    have hserial : g.snapshot.serial = S.serial := by simpa [Engine.generation?, hg] using hany
    exact ⟨g, rfl, hc.generation_eq g (List.mem_of_getElem? hg) S hS hserial⟩

/-- Nothing that invalidates reports for the resident snapshot happened after the generation in use
for it came to be. -/
theorem length_le_of_invalidates (hc : Coherent h reports e) {S : Snapshot}
    (hS : e.store.resident = some S) {i : Nat} (hi : e.inUseFor? S = some i) {m : Moment}
    (hm : m ∈ h) (hinv : m.Invalidates S) : m.engine.generations.length ≤ i := by
  obtain ⟨huse, g, hg, rfl⟩ := hc.generation_of_inUseFor? hS hi
  rcases hinv with hdiscard | hnone | hother
  · exact (hc.used i huse).2 m hm (hc.discarded m hm hdiscard)
  · exact (hc.used i huse).2 m hm hnone
  · -- had it been there already, the snapshot would have been resident ever since
    refine Nat.le_of_not_lt fun hlt ↦ hother ?_
    exact hc.resident_since g.snapshot hS m hm (hc.born i g hg m hm hlt)

/-- **Taking up a generation for the resident snapshot.** It belongs to that snapshot, and came to
be after everything that invalidates reports for it. -/
theorem generationFor (hc : Coherent h reports e) {S : Snapshot} (hS : e.store.resident = some S) :
    Coherent h reports (e.generationFor S).2 ∧
      (e.generationFor S).2.store = e.store ∧ (e.generationFor S).2.frames = e.frames ∧
      (∃ g, (e.generationFor S).2.generations[(e.generationFor S).1]? = some g ∧ g.snapshot = S) ∧
      ∀ m ∈ h, m.Invalidates S → m.engine.generations.length ≤ (e.generationFor S).1 := by
  cases hi : e.inUseFor? S with
  | some i =>
    rw [show e.generationFor S = (i, e) by simp [Engine.generationFor, hi]]
    exact ⟨hc, rfl, rfl, (hc.generation_of_inUseFor? hS hi).2,
      fun m hm hinv ↦ hc.length_le_of_invalidates hS hi hm hinv⟩
  | none =>
    rw [show e.generationFor S = (e.generations.length, { e with
      generations := e.generations ++ [{ snapshot := S }]
      resolver := e.resolver.map fun r ↦ { r with inUse := some e.generations.length } }) by
        simp [Engine.generationFor, hi]]
    exact ⟨hc.addGeneration hS, rfl, rfl, ⟨{ snapshot := S }, by simp⟩,
      fun m hm _ ↦ hc.length_le hm⟩

/-! ### Storing an action set -/

end Coherent

/-- The snapshot of a generation is never exchanged. -/
theorem Generation.snapshot_remember (g : Generation) (login : String) (actions : NameSet) :
    (g.remember login actions).snapshot = g.snapshot := by
  unfold Generation.remember
  split <;> rfl

/-- Storing an action set for one login leaves those of all others. -/
theorem Generation.find?_remember_of_ne (g : Generation) {login other : String} (actions : NameSet)
    (hne : other ≠ login) : (g.remember login actions).find? other = g.find? other := by
  unfold Generation.remember
  split
  · rfl
  · have hlast : List.find? (fun p : String × NameSet ↦ decide (p.1 = other))
        [(login, actions)] = none := by
      simp [hne.symm]
    simp [Generation.find?, List.find?_append, hlast]

/-- What is stored after storing an action set was stored before, or is that action set. -/
theorem Generation.find?_remember {g : Generation} {login other : String} {actions found : NameSet}
    (hfind : (g.remember login actions).find? other = some found) :
    g.find? other = some found ∨ other = login ∧ found = actions := by
  by_cases heq : other = login
  · subst heq
    rw [Generation.find?_remember_self] at hfind
    cases hg : g.find? other with
    | none =>
      rw [hg] at hfind
      exact .inr ⟨rfl, (Option.some.inj hfind).symm⟩
    | some before =>
      rw [hg] at hfind
      exact .inl hfind
  · rw [g.find?_remember_of_ne actions heq] at hfind
    exact .inl hfind

namespace Coherent

/-- An action set may be stored in a generation that it was built for from a report. -/
theorem remember (hc : Coherent h reports e) {i : Nat} {g : Generation}
    (hg : e.generations[i]? = some g) {login : String} {actions : NameSet}
    (hs : Stored h reports i g.snapshot login actions) :
    Coherent h reports
      { e with generations := e.generations.set i (g.remember login actions) } := by
  have hlt : i < e.generations.length := (List.getElem?_eq_some_iff.1 hg).1
  -- every generation is the one of its index before, but for the action set
  have hbefore : ∀ {j : Nat} {g' : Generation},
      (e.generations.set i (g.remember login actions))[j]? = some g' →
        ∃ g₀, e.generations[j]? = some g₀ ∧ g'.snapshot = g₀.snapshot ∧
          (g' = g₀ ∨ i = j ∧ g' = g.remember login actions) := by
    intro j g' hg'
    by_cases hij : i = j
    · subst hij
      rw [List.getElem?_set_self hlt] at hg'
      obtain rfl := Option.some.inj hg'
      exact ⟨g, hg, g.snapshot_remember login actions, .inr ⟨rfl, rfl⟩⟩
    · rw [List.getElem?_set_ne hij] at hg'
      exact ⟨g', hg', rfl, .inl rfl⟩
  refine { hc with
    kept := fun m hm j g₁ hg₁ ↦ ?_
    generation_lt := fun g' hg' ↦ ?_
    generation_eq := fun g' hg' S hS heq ↦ ?_
    born := fun j g' hg' m hm hj ↦ ?_
    used := fun j hj ↦ ?_
    stored := fun j g' hg' other found hfind ↦ ?_ }
  · obtain ⟨g₂, hg₂, hsnap⟩ := hc.kept m hm j g₁ hg₁
    by_cases hij : i = j
    · subst hij
      obtain rfl : g = g₂ := Option.some.inj (hg.symm.trans hg₂)
      exact ⟨_, List.getElem?_set_self hlt, (g.snapshot_remember login actions).trans hsnap⟩
    · exact ⟨g₂, (List.getElem?_set_ne hij).trans hg₂, hsnap⟩
  · obtain ⟨j, hj⟩ := List.mem_iff_getElem?.1 hg'
    obtain ⟨g₀, hg₀, hsnap, -⟩ := hbefore hj
    exact hsnap ▸ hc.generation_lt g₀ (List.mem_of_getElem? hg₀)
  · obtain ⟨j, hj⟩ := List.mem_iff_getElem?.1 hg'
    obtain ⟨g₀, hg₀, hsnap, -⟩ := hbefore hj
    rw [hsnap] at heq ⊢
    exact hc.generation_eq g₀ (List.mem_of_getElem? hg₀) S hS heq
  · obtain ⟨g₀, hg₀, hsnap, -⟩ := hbefore hg'
    exact hsnap ▸ hc.born j g₀ hg₀ m hm hj
  · rw [List.length_set]
    exact hc.used j hj
  · obtain ⟨g₀, hg₀, hsnap, rfl | ⟨rfl, rfl⟩⟩ := hbefore hg'
    · exact hc.stored j g' hg₀ other found hfind
    · obtain rfl : g = g₀ := Option.some.inj (hg.symm.trans hg₀)
      rw [hsnap]
      rcases Generation.find?_remember hfind with hold | ⟨rfl, rfl⟩
      · exact hc.stored i g hg other found hold
      · exact hs

/-! ### From one moment to the next -/

/-- A report more is made. -/
theorem report (hc : Coherent h reports e) (r : Option (String × NameSet)) :
    Coherent h (reports ++ [r]) e :=
  { hc with
    stored := fun i g hg login actions hfind ↦ by
      obtain ⟨k, roles, hk, hactions, hafter⟩ := hc.stored i g hg login actions hfind
      have hlt : k < reports.length := (List.getElem?_eq_some_iff.1 hk).1
      exact ⟨k, roles, (List.getElem?_append_left hlt).trans hk, hactions, hafter⟩ }

/-- The present moment is over. -/
theorem pass (hc : Coherent h reports e) {m : Moment} (hm : m.engine = e)
    (hdiscard : m.call = some .discard → e.inUse? = none) : Coherent (h ++ [m]) reports e := by
  subst hm
  -- what holds of all moments before has to be seen to at the present one
  have hcases : ∀ {P : Moment → Prop}, (∀ m' ∈ h, P m') → P m → ∀ m' ∈ h ++ [m], P m' := by
    intro P hold hnew
    rw [List.forall_mem_append]
    exact ⟨hold, List.forall_mem_singleton.2 hnew⟩
  exact { hc with
    kept := hcases hc.kept fun i g hg ↦ ⟨g, hg, rfl⟩
    loads_le := hcases hc.loads_le (Nat.le_refl _)
    discarded := hcases hc.discarded hdiscard
    resident_since := fun S hS ↦ hcases (hc.resident_since S hS) fun _ ↦ hS
    born := fun i g hg ↦
      hcases (hc.born i g hg) fun _ ↦ hc.generation_lt g (List.mem_of_getElem? hg)
    used := fun i hi ↦ ⟨(hc.used i hi).1,
      hcases (hc.used i hi).2 fun hnone ↦ nomatch hnone.symm.trans hi⟩
    stored := fun i g hg login actions hfind ↦ by
      obtain ⟨r, roles, hr, hactions, hafter⟩ := hc.stored i g hg login actions hfind
      refine ⟨r, roles, hr, hactions, fun k m' hk hle ↦ ?_⟩
      rcases Nat.lt_or_ge k h.length with hlt | hge
      · rw [List.getElem?_append_left hlt] at hk
        exact hafter k m' hk hle
      · -- the present moment has more generations than that
        rw [List.getElem?_append_right hge] at hk
        obtain rfl : m = m' := List.mem_singleton.1 (List.mem_of_getElem? hk) |>.symm
        exact absurd (List.getElem?_eq_some_iff.1 hg).1 (Nat.not_lt_of_le hle) }

end Coherent

end LayeredRights
