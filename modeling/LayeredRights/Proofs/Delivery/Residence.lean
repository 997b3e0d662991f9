import LayeredRights.Proofs.Delivery.Turns
import Mathlib.Data.List.Chain

/-!
# What is resident, one moment after the other

Over a session the store holds one snapshot after another, and none of them twice. A snapshot comes
to be resident at one moment only (`Linked.unique`), which is that of an update, of a reload, or of
a reader who finds nothing resident (`Linked.resident_of_not_renewedAt`). What is resident then
stays so until the next update or reload, and is lost only if the load of one of these fails
(`Linked.exists_emptied`).

Nothing of this depends on more than what one event makes of the store (`Store.Becomes`), so it is
read off the moments, one next to the other (`Linked`).

Snapshots are numbered as they are loaded, and the number of loads only grows (`Linked.loads_le`).
What is resident has a smaller number than the next load will give. So a snapshot that comes to be
resident is none that ever was, which is all the argument there is for `Linked.unique`.

The functions of the engine that have to do with listeners, roles and action sets are gone through
once, each with the statement that it leaves the store alone. A reader may load in any of the
functions that begin a query, so there the statement is about what a reader can do.
-/

namespace LayeredRights

/-! ### One event -/

/-- The calls that load the documents even if something is resident. -/
def Call.renews : Call → Bool
  | .update _ | .reload => true
  | _ => false

/-- What an event makes of what is resident. -/
inductive Store.Becomes (call : Option Call) (s s' : Store) : Prop
  | kept (hresident : s'.resident = s.resident) (hloads : s'.loads = s.loads)
  | emptied (hcall : call.any Call.renews = true) (hresident : s'.resident = none)
      (hloads : s'.loads = s.loads)
  /-- A new snapshot is resident. Unless the call renews, there was none. -/
  | filled (c : Configuration) (hcall : call.any Call.renews = true ∨ s.resident = none)
      (hresident : s'.resident = some ⟨s.loads, c⟩) (hloads : s'.loads = s.loads + 1)

namespace Store.Becomes

variable {call : Option Call} {s s' : Store}

/-- An update or a reload may make anything of the store that an operation can. -/
theorem of_steps (hcall : call.any Call.renews = true) (h : s.Steps s') : s.Becomes call s' := by
  cases h with
  | reported ns => exact .kept rfl rfl
  | evicted ns => exact .emptied hcall rfl rfl
  | installed ns c => exact .filled c (.inl hcall) rfl rfl

/-- Notices make no difference. -/
theorem report (h : s.Becomes call s') (ns : List Notice) : s.Becomes call (s'.report ns) := by
  cases h with
  | kept hresident hloads => exact .kept hresident hloads
  | emptied hcall hresident hloads => exact .emptied hcall hresident hloads
  | filled c hcall hresident hloads => exact .filled c hcall hresident hloads

theorem loads_le (h : s.Becomes call s') : s.loads ≤ s'.loads := by
  cases h with
  | kept _ hloads => omega
  | emptied _ _ hloads => omega
  | filled _ _ _ hloads => omega

/-- What is resident is older than the next load. -/
theorem serial_lt (h : s.Becomes call s') (hs : ∀ S, s.resident = some S → S.serial < s.loads)
    {S : Snapshot} (hS : s'.resident = some S) : S.serial < s'.loads := by
  cases h with
  | kept hresident hloads =>
    rw [hloads]
    exact hs S (hresident.symm.trans hS)
  | emptied _ hresident _ => exact nomatch hresident.symm.trans hS
  | filled c _ hresident hloads =>
    obtain rfl := Option.some.inj (hresident.symm.trans hS)
    rw [hloads]
    exact Nat.lt_succ_self s.loads

/-- What comes to be resident is a new snapshot. -/
theorem of_resident_ne (h : s.Becomes call s') {S : Snapshot} (hne : s.resident ≠ some S)
    (hS : s'.resident = some S) : S.serial = s.loads ∧ s'.loads = s.loads + 1 ∧
      (call.any Call.renews = true ∨ s.resident = none) := by
  cases h with
  | kept hresident _ => exact absurd (hresident.symm.trans hS) hne
  | emptied _ hresident _ => exact nomatch hresident.symm.trans hS
  | filled c hcall hresident hloads =>
    obtain rfl := Option.some.inj (hresident.symm.trans hS)
    exact ⟨rfl, hloads, hcall⟩

end Store.Becomes

section Events

variable {m : Type → Type} [Monad m] {W : Type} {ρ : Runner m W} {d : Documents m}
  {call : Option Call}

/-- A reader leaves alone what is resident. -/
theorem becomes_current {s s' : Store} {w w' : W} {r : Except RightsError Snapshot}
    (h : ρ.perform (Store.current d) s w = (r, s', w')) : s.Becomes call s' := by
  obtain ⟨S, -, -, rfl⟩ | ⟨hres, ns, ⟨e, -, rfl⟩ | ⟨c, -, rfl⟩⟩ := ρ.current_cases d h
  · exact .kept rfl rfl
  · exact .kept rfl rfl
  · exact .filled c (.inr hres) rfl rfl

namespace Engine

variable {e : Engine}

/-- Beginning a delivery is none of the business of the store. -/
theorem store_announce (S : Snapshot) (occasion : Occasion) :
    (e.announce S occasion).2.store = e.store :=
  store_deliver (e := { e with registry := e.registry.prune e.isAlive }) _ _

theorem store_generationFor (S : Snapshot) : (e.generationFor S).2.store = e.store := by
  unfold generationFor
  split <;> rfl

theorem store_warm (i total : Nat) (ls : List String) : (e.warm i total ls).2.store = e.store := by
  induction ls with
  | nil => rfl
  | cons l ls ih =>
    unfold warm
    split
    · exact ih
    · rfl

theorem store_satisfy (q : Query) (actions : NameSet) :
    (e.satisfy q actions).2.store = e.store := by
  obtain ⟨i, login, purpose⟩ := q
  cases purpose with
  | warmUp rest total => exact store_warm i total rest
  | decide | list => rfl

theorem store_query (q : Query) : (e.query q).2.store = e.store := by
  unfold query
  split
  · exact store_satisfy q _
  · rfl

theorem becomes_resume (r : Registration) (round : Round) (reaction : Reaction) :
    e.store.Becomes call (e.resume r round reaction).2.store := by
  cases reaction with
  | accepted => exact .kept (by rw [resume, store_deliver]) (by rw [resume, store_deliver])
  | failed | panicked =>
    rw [resume, store_deliver]
    exact .kept rfl rfl

/-- Roles that arrive leave nothing in the store but notices. -/
theorem exists_store_rolesFound (q : Query) (result : Except DirectoryError NameSet) :
    ∃ ns, (e.rolesFound q result).2.store = e.store.report ns := by
  have hbuild : ∀ (ns : List Notice) (roles : NameSet),
      ∃ ns', ((e.report ns).build q roles).2.store = e.store.report ns' := by
    intro ns roles
    unfold build
    split
    · exact ⟨ns, rfl⟩
    · dsimp only
      rw [store_satisfy]
      exact ⟨_, Store.report_report ..⟩
  cases result with
  | ok roles =>
    have h := hbuild [] roles
    rwa [report, Store.report_nil] at h
  | error err => exact hbuild [.rolesUnavailable q.login] ∅

theorem becomes_rolesFound (q : Query) (result : Except DirectoryError NameSet) :
    e.store.Becomes call (e.rolesFound q result).2.store := by
  obtain ⟨ns, hstore⟩ := e.exists_store_rolesFound q result
  rw [hstore]
  exact .kept rfl rfl

theorem becomes_beginQuery {login : String} {purpose : Purpose}
    {failed : RightsError → Engine → Output × Engine}
    (hfailed : ∀ err e', e.store.Becomes call e'.store →
      e.store.Becomes call (failed err e').2.store) (w : W) :
    e.store.Becomes call (ρ.run (e.beginQuery d login purpose failed) w).1.2.store := by
  rw [beginQuery, ρ.run_bind, ρ.run_withStore]
  rcases hperform : ρ.perform (Store.current d) e.store w with ⟨err | S, s, w'⟩
  · simp only [ρ.run_pure]
    exact hfailed err { e with store := s } (becomes_current hperform)
  · simp only [ρ.run_pure]
    rw [store_query, store_generationFor]
    exact becomes_current hperform

theorem becomes_usersFound (result : Except DirectoryError (List String)) (w : W) :
    e.store.Becomes call (ρ.run (e.usersFound d result) w).1.2.store := by
  cases result with
  | error err =>
    rw [usersFound, ρ.run_pure]
    exact .kept rfl rfl
  | ok users =>
    rw [usersFound, ρ.run_bind, ρ.run_withStore]
    rcases hperform : ρ.perform (Store.current d) e.store w with ⟨err | S, s, w'⟩
    · simp only [ρ.run_pure]
      exact becomes_current hperform
    · simp only [ρ.run_pure]
      rw [store_warm, store_generationFor]
      exact becomes_current hperform

/-- A call makes of the store what its operation does. -/
theorem becomes_call (c : Call) (w : W) :
    e.store.Becomes (some c) (ρ.run (e.call d c) w).1.2.store := by
  cases c with
  | current =>
    rw [call, ρ.run_bind, ρ.run_withStore, ρ.run_pure]
    exact becomes_current rfl
  | update candidate =>
    rw [call, ρ.run_bind, ρ.run_withStore]
    rcases hperform : ρ.perform (Store.commit d candidate) e.store w with ⟨err | _ | S, s, w'⟩
    all_goals
      simp only [ρ.run_pure, store_announce]
      exact .of_steps rfl (ρ.steps_commit d hperform)
  | reload =>
    rw [call, ρ.run_bind, ρ.run_withStore]
    rcases hperform : ρ.perform (Store.reload d) e.store w with ⟨err | S, s, w'⟩
    all_goals
      simp only [ρ.run_pure, store_announce]
      exact .of_steps rfl (ρ.steps_reload d hperform)
  | announce S =>
    rw [call, ρ.run_pure, store_announce]
    exact .kept rfl rfl
  | subscribe | unsubscribe | attachResolver | warmUp | discard =>
    rw [call, ρ.run_pure]
    exact .kept rfl rfl
  | isAllowed login action =>
    rw [call]
    exact becomes_beginQuery (fun err e' h ↦ h.report _) w
  | tryIsAllowed | effectiveActions =>
    rw [call]
    exact becomes_beginQuery (fun err e' h ↦ h) w

/-- **What one event makes of what is resident.** -/
theorem becomes_step (ev : Event) (w : W) :
    e.store.Becomes ev.call? (ρ.run (e.step d ev) w).1.2.store := by
  cases ev with
  | call c => exact becomes_call c w
  | released key =>
    rw [step, ρ.run_pure]
    exact .kept rfl rfl
  | told reaction =>
    rw [step]
    split
    · rename_i r round fs hframes
      rw [ρ.run_pure]
      exact becomes_resume (e := { e with frames := fs }) r round reaction
    · rw [ρ.run_pure]
      exact .kept rfl rfl
  | rolesFound result =>
    rw [step]
    split
    · rename_i q fs hframes
      rw [ρ.run_pure]
      exact becomes_rolesFound (e := { e with frames := fs }) q result
    · rw [ρ.run_pure]
      exact .kept rfl rfl
  | usersFound result =>
    rw [step]
    split
    · rename_i fs hframes
      exact becomes_usersFound (e := { e with frames := fs }) result w
    · rw [ρ.run_pure]
      exact .kept rfl rfl

end Engine

end Events

/-! ### One moment next to the other -/

section Indices

variable {α : Type} {R : α → α → Prop} {P : α → Prop} {l : List α} {k k' : Nat} {a a' : α}

/-- What holds of neighbours, by their indices. -/
theorem rel_of_isChain (h : l.IsChain R) (ha : l[k]? = some a) (ha' : l[k + 1]? = some a') :
    R a a' := by
  obtain ⟨hlt, rfl⟩ := List.getElem?_eq_some_iff.1 ha
  obtain ⟨hlt', rfl⟩ := List.getElem?_eq_some_iff.1 ha'
  exact List.isChain_iff_getElem.1 h k hlt'

/-- What holds at an index and did not at an earlier one came to hold in between. -/
theorem exists_comes_to_hold (hle : k ≤ k') (ha : l[k]? = some a) (ha' : l[k']? = some a')
    (hnot : ¬P a) (hholds : P a') : ∃ (j : Nat) (b b' : α), k ≤ j ∧ j < k' ∧
      l[j]? = some b ∧ l[j + 1]? = some b' ∧ ¬P b ∧ P b' := by
  induction hle generalizing a' with
  | refl =>
    obtain rfl : a = a' := Option.some.inj (ha.symm.trans ha')
    exact absurd hholds hnot
  | @step k' hle ih =>
    have hlt : k' < l.length := Nat.lt_of_succ_lt (List.getElem?_eq_some_iff.1 ha').1
    have hbefore : l[k']? = some l[k'] := List.getElem?_eq_getElem hlt
    by_cases hp : P l[k']
    · obtain ⟨j, b, b', hge, hlt', hrest⟩ := ih hbefore hp
      exact ⟨j, b, b', hge, Nat.lt_succ_of_lt hlt', hrest⟩
    · exact ⟨k', _, a', hle, Nat.lt_succ_self k', hbefore, ha', hp, hholds⟩

theorem mem_drop_of_getElem? (hle : k ≤ k') (ha : l[k']? = some a) : a ∈ l.drop k := by
  refine List.mem_of_getElem? (i := k' - k) ?_
  rw [List.getElem?_drop, Nat.add_sub_cancel' hle, ha]

end Indices

/-- The snapshot comes to be resident at moment `first`. -/
def InstalledAt (h : List Moment) (first : Nat) (S : Snapshot) : Prop :=
  ∃ k m m', first = k + 1 ∧ h[k]? = some m ∧ h[first]? = some m' ∧
    m.engine.store.resident ≠ some S ∧ m'.engine.store.resident = some S

/-- An update or a reload is made at moment `first`. -/
def RenewedAt (h : List Moment) (first : Nat) : Prop :=
  ∃ m c, h[first]? = some m ∧ m.call = some c ∧ c.renews = true

/-- A moment that has a call which renews is one at which an update or a reload is made. -/
theorem renewedAt_of_any {h : List Moment} {first : Nat} {m : Moment} (hm : h[first]? = some m)
    (hany : m.call.any Call.renews = true) : RenewedAt h first := by
  obtain ⟨c, hc, hrenews⟩ := (Option.any_eq_true _ _).1 hany
  exact ⟨m, c, hm, hc, hrenews⟩

/-- A snapshot that is resident at a moment and was not at an earlier one has been installed
in between. -/
theorem exists_installedAt {h : List Moment} {k k' : Nat} {m m' : Moment} {S : Snapshot}
    (hle : k ≤ k') (hm : h[k]? = some m) (hm' : h[k']? = some m')
    (hne : m.engine.store.resident ≠ some S) (hS : m'.engine.store.resident = some S) :
    ∃ first, k < first ∧ first ≤ k' ∧ InstalledAt h first S := by
  obtain ⟨j, mj, mj', hge, hlt, hmj, hmj', hne', hS'⟩ :=
    exists_comes_to_hold (P := fun m : Moment ↦ m.engine.store.resident = some S) hle hm hm' hne hS
  exact ⟨j + 1, Nat.lt_succ_of_le hge, hlt, j, mj, mj', rfl, hmj, hmj', hne', hS'⟩

/-- Each moment leaves of what was resident at the one before what its call can leave. -/
structure Linked (h : List Moment) : Prop where
  chain : h.IsChain fun m m' ↦ m.engine.store.Becomes m'.call m'.engine.store
  serial_lt : ∀ m ∈ h, ∀ S, m.engine.store.resident = some S →
    S.serial < m.engine.store.loads

namespace Linked

variable {h : List Moment} {first first' k k' : Nat} {m m' : Moment} {S S' : Snapshot}

/-- What one moment makes of what was resident at the one before. -/
theorem becomes (hl : Linked h) (hm : h[k]? = some m) (hm' : h[k + 1]? = some m') :
    m.engine.store.Becomes m'.call m'.engine.store := by
  have hrel := rel_of_isChain hl.chain hm hm'
  exact hrel

/-- Over any number of moments loads are only counted up. -/
theorem loads_le (hl : Linked h) (hle : k ≤ k') (hm : h[k]? = some m) (hm' : h[k']? = some m') :
    m.engine.store.loads ≤ m'.engine.store.loads := by
  induction hle generalizing m' with
  | refl =>
    obtain rfl : m = m' := Option.some.inj (hm.symm.trans hm')
    exact Nat.le_refl _
  | @step k' hle ih =>
    have hlt : k' < h.length := Nat.lt_of_succ_lt (List.getElem?_eq_some_iff.1 hm').1
    have hbefore : h[k']? = some h[k'] := List.getElem?_eq_getElem hlt
    exact Nat.le_trans (ih hbefore) (hl.becomes hbefore hm').loads_le

/-- Snapshots have their numbers in the order in which they come to be resident. -/
theorem serial_lt_of_lt (hl : Linked h) (hS : InstalledAt h first S)
    (hS' : InstalledAt h first' S') (hlt : first < first') : S.serial < S'.serial := by
  obtain ⟨k, m, m₁, rfl, hm, hm₁, hne, hres⟩ := hS
  obtain ⟨k', m', m₁', rfl, hm', hm₁', hne', hres'⟩ := hS'
  obtain ⟨hserial, hloads, -⟩ := (hl.becomes hm hm₁).of_resident_ne hne hres
  obtain ⟨hserial', -, -⟩ := (hl.becomes hm' hm₁').of_resident_ne hne' hres'
  have hbetween : m₁.engine.store.loads ≤ m'.engine.store.loads :=
    hl.loads_le (Nat.le_of_lt_succ hlt) hm₁ hm'
  omega

/-- **A snapshot comes to be resident once.** -/
theorem unique (hl : Linked h) (hS : InstalledAt h first S) (hS' : InstalledAt h first' S) :
    first = first' := by
  rcases Nat.lt_trichotomy first first' with hlt | heq | hlt
  · exact absurd (hl.serial_lt_of_lt hS hS' hlt) (Nat.lt_irrefl _)
  · exact heq
  · exact absurd (hl.serial_lt_of_lt hS' hS hlt) (Nat.lt_irrefl _)

/-- Unless it is by an update or a reload, a snapshot is installed where there was none. -/
theorem resident_of_not_renewedAt (hl : Linked h) (hS : InstalledAt h first S)
    (hnot : ¬RenewedAt h first) :
    ∃ k m, first = k + 1 ∧ h[k]? = some m ∧ m.engine.store.resident = none := by
  obtain ⟨k, m, m', rfl, hm, hm', hne, hres⟩ := hS
  obtain ⟨-, -, hcall⟩ := (hl.becomes hm hm').of_resident_ne hne hres
  exact ⟨k, m, rfl, hm, hcall.resolve_left fun hany ↦ hnot (renewedAt_of_any hm' hany)⟩

/-- Nothing is resident anymore only if the load of an update or a reload has failed. -/
theorem exists_emptied (hl : Linked h) (hle : k ≤ k') (hm : h[k]? = some m)
    (hm' : h[k']? = some m') (hsome : m.engine.store.resident ≠ none)
    (hnone : m'.engine.store.resident = none) :
    ∃ j mj, k < j ∧ j ≤ k' ∧ RenewedAt h j ∧ h[j]? = some mj ∧
      mj.engine.store.resident = none := by
  obtain ⟨j, mj, mj', hge, hlt, hmj, hmj', hsome', hnone'⟩ :=
    exists_comes_to_hold (P := fun m : Moment ↦ m.engine.store.resident = none) hle hm hm' hsome
      hnone
  refine ⟨j + 1, mj', Nat.lt_succ_of_le hge, hlt, ?_, hmj', hnone'⟩
  cases hl.becomes hmj hmj' with
  | kept hresident _ => exact absurd (hresident.symm.trans hnone') hsome'
  | emptied hany _ _ => exact renewedAt_of_any hmj' hany
  | filled c _ hresident _ => exact nomatch hresident.symm.trans hnone'

/-- The next moment. -/
theorem append {past : List Moment} {last now : Moment} (hl : Linked (past ++ [last]))
    (hbecomes : last.engine.store.Becomes now.call now.engine.store) :
    Linked (past ++ [last] ++ [now]) where
  chain := by
    refine hl.chain.append (.singleton now) fun m hm m' hm' ↦ ?_
    obtain rfl : last = m := by simpa using hm
    obtain rfl : now = m' := by simpa using hm'
    exact hbecomes
  serial_lt := by
    have hlast : ∀ S, last.engine.store.resident = some S →
        S.serial < last.engine.store.loads :=
      hl.serial_lt last (List.mem_append_right _ (List.mem_singleton_self _))
    rw [List.forall_mem_append]
    exact ⟨hl.serial_lt, List.forall_mem_singleton.2 fun S hS ↦ hbecomes.serial_lt hlast hS⟩

end Linked

end LayeredRights
