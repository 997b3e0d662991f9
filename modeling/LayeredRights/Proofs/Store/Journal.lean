import LayeredRights.Proofs.Store.Operations

/-!
# What a store gives notice of

The journal of a store only grows. `Runner.Spares` says of an operation that a notice is not among
those it adds, whatever store and world it meets with. What holds of the parts of an operation in
this respect holds of the whole (`spares_bind`), so each operation is gone through part by part.

A commit warns of a lock-out in one place only, which is the check of the candidate. The documents
have not even been read then. So whether the warning is in the journal depends on nothing but the
candidate, if the documents themselves do not give it (`journal_of_commit`).

What an operation adds is in general not known, since the documents give notices of their own. For
that reason the property is about one notice at a time and says that it is not added. Every step of
the operations after the check of a candidate has this property for the warning, and the check adds
the warning or nothing (`perform_check`).
-/

namespace LayeredRights

/-- What is said of a configuration that leaves an action to nobody, before it is committed. -/
def Configuration.warnings (c : Configuration) (action : String) : List Notice :=
  if c.grants action then [] else [.lockout action]

namespace Runner

variable {m : Type → Type} [Monad m] {W : Type} {α β : Type} (ρ : Runner m W) (d : Documents m)

/-- The operation adds to the journal, and never a certain notice. -/
def Spares (n : Notice) (op : StoreM m α) : Prop :=
  ∀ s w, ∃ ns, (ρ.perform op s w).2.1.journal = s.journal ++ ns ∧ n ∉ ns

variable {ρ d} {n : Notice}

/-! ### Parts -/

/-- An operation that leaves the journal alone. -/
theorem spares_of_journal_eq {op : StoreM m α}
    (h : ∀ s w, (ρ.perform op s w).2.1.journal = s.journal) : ρ.Spares n op := fun s w ↦
  ⟨[], by rw [h, List.append_nil], List.not_mem_nil⟩

theorem spares_pure (a : α) : ρ.Spares n (pure a) :=
  spares_of_journal_eq fun s w ↦ by rw [perform_pure]

theorem spares_throw (e : RightsError) : ρ.Spares n (throw e : StoreM m α) :=
  spares_of_journal_eq fun s w ↦ by rw [perform_throw]

/-- An operation on the documents does not reach the journal. -/
theorem spares_lift (op : m α) : ρ.Spares n (op : StoreM m α) :=
  spares_of_journal_eq fun s w ↦ by rw [perform_lift]

theorem spares_note {n' : Notice} (h : n ≠ n') : ρ.Spares n (Store.note n' : StoreM m Unit) :=
  fun s w ↦ ⟨[n'], by rw [perform_note]; rfl, by simpa using h⟩

/-- What is added by an operation and then by the next is added by both. -/
theorem spares_bind {x : StoreM m α} {f : α → StoreM m β} (hx : ρ.Spares n x)
    (hf : ∀ a, ρ.Spares n (f a)) : ρ.Spares n (x >>= f) := by
  intro s w
  obtain ⟨ns, hjournal, hn⟩ := hx s w
  rw [perform_bind]
  -- the second part is not reached if the first one fails
  rcases hperform : ρ.perform x s w with ⟨e | a, s', w'⟩
  · rw [hperform] at hjournal
    exact ⟨ns, hjournal, hn⟩
  · rw [hperform] at hjournal
    obtain ⟨ns', hjournal', hn'⟩ := hf a s' w'
    refine ⟨ns ++ ns', ?_, by simp [hn, hn']⟩
    show (ρ.perform (f a) s' w').2.1.journal = _
    rw [hjournal', hjournal, List.append_assoc]

/-! ### Operations -/

/-- Reading a document adds the notices given on the way. -/
theorem spares_obtain {op : m (Reported α)} (h : ∀ w, n ∉ (ρ.run op w).1.notices) :
    ρ.Spares n (Store.obtain op) := by
  intro s w
  refine ⟨(ρ.run op w).1.notices, ?_, h w⟩
  rw [perform_obtain]
  rfl

/-- A load adds what the documents notice, and that a merge has failed. -/
theorem spares_load (hbase : ∀ w, n ∉ (ρ.run d.loadBase w).1.notices)
    (hlayer : ∀ w, n ∉ (ρ.run d.loadOverride w).1.notices) (hn : n ≠ .mergeFailed) :
    ρ.Spares n (Store.load d) := by
  refine spares_bind (spares_obtain hbase) fun base ↦ ?_
  refine spares_bind (spares_obtain hlayer) fun layer ↦ ?_
  cases merge base layer with
  | ok c => exact spares_pure c
  | error conflict => exact spares_bind (spares_note hn) fun _ ↦ spares_throw _

theorem spares_reload (hload : ρ.Spares n (Store.load d)) : ρ.Spares n (Store.reload d) := by
  have hevict : ρ.Spares n (Store.evict : StoreM m Unit) :=
    spares_of_journal_eq fun s w ↦ by rw [perform_evict]; rfl
  have hinstall : ∀ c, ρ.Spares n (Store.install c : StoreM m Snapshot) := fun c ↦
    spares_of_journal_eq fun s w ↦ by rw [perform_install]; rfl
  exact spares_bind hevict fun _ ↦ spares_bind hload hinstall

/-- Taking up what was written adds that it could not be reloaded, if that is so. -/
theorem spares_adopt (hload : ρ.Spares n (Store.load d)) (hn : n ≠ .reloadFailed) :
    ρ.Spares n (Store.adopt d) := by
  intro s w
  obtain ⟨ns, hjournal, hmem⟩ := spares_reload hload s w
  rcases hperform : ρ.perform (Store.reload d) s w with ⟨e | S, s', w'⟩
  · rw [hperform] at hjournal
    refine ⟨ns ++ [.reloadFailed], ?_, by simp [hmem, hn]⟩
    simp only [Store.adopt, perform_tryCatch, perform_bind, hperform, perform_note, perform_return,
      perform_pure]
    show s'.journal ++ [Notice.reloadFailed] = _
    rw [show s'.journal = _ from hjournal, List.append_assoc]
  · rw [hperform] at hjournal
    refine ⟨ns, ?_, hmem⟩
    simp only [Store.adopt, perform_tryCatch, perform_bind, hperform, perform_return, perform_pure]
    exact hjournal

/-- Reading the mode adds what the base document notices. -/
theorem spares_requireMode (hbase : ∀ w, n ∉ (ρ.run d.loadBase w).1.notices) (mode : PolicyMode) :
    ρ.Spares n (Store.requireMode d mode) := by
  refine spares_bind (spares_obtain hbase) fun base ↦ ?_
  split
  · exact spares_throw _
  · exact spares_pure _

/-- Keeping a copy adds that it has failed, if it has. -/
theorem spares_backup (hn : n ≠ .backupFailed) : ρ.Spares n (Store.backup d) := by
  refine spares_bind (spares_lift _) fun r ↦ ?_
  cases r with
  | ok _ => exact spares_pure _
  | error e => exact spares_bind (spares_note hn) fun _ ↦ spares_throw _

/-- Writing adds what becomes of the way back, if it fails. -/
theorem spares_write (hn : ∀ n' ∈ [Notice.writeFailed, .restoring, .restored, .restoreFailed],
    n ≠ n') (document : Document) : ρ.Spares n (Store.write d document) := by
  refine spares_bind (spares_lift _) fun r ↦ ?_
  cases r with
  | ok _ => exact spares_pure _
  | error e =>
    refine spares_bind (spares_note (hn _ (by simp))) fun _ ↦ ?_
    refine spares_bind (spares_note (hn _ (by simp))) fun _ ↦ ?_
    refine spares_bind (spares_lift _) fun restored ↦ ?_
    cases restored with
    | ok _ => exact spares_bind (spares_note (hn _ (by simp))) fun _ ↦ spares_throw e
    | error _ => exact spares_bind (spares_note (hn _ (by simp))) fun _ ↦ spares_throw e

/-! ### Commits -/

variable {c : Configuration}

/-- The check of a candidate that breaks no rule. -/
theorem perform_check (h : c.offence? = none) (s : Store) (w : W) :
    ρ.perform (Store.check c : StoreM m Unit) s w =
      (.ok (), s.report (c.warnings s.editAction), w) := by
  by_cases hg : c.grants s.editAction
  · simp [Store.check, h, hg, perform_bind, Configuration.warnings, Store.report_nil]
  · simp [Store.check, h, hg, perform_bind, Configuration.warnings]

/-- **A commit warns as the check of its candidate does**, and what comes after the check adds no
such warning. -/
theorem journal_of_commit {action : String} (h : c.offence? = none)
    (hbase : ∀ w, .lockout action ∉ (ρ.run d.loadBase w).1.notices)
    (hlayer : ∀ w, .lockout action ∉ (ρ.run d.loadOverride w).1.notices) (s : Store) (w : W) :
    ∃ ns, (ρ.perform (Store.commit d c) s w).2.1.journal =
        s.journal ++ c.warnings s.editAction ++ ns ∧ .lockout action ∉ ns := by
  have hload : ρ.Spares (.lockout action) (Store.load d) := spares_load hbase hlayer nofun
  have hafter : ρ.Spares (.lockout action) (do
      Store.requireMode d c.mode
      Store.backup d
      Store.write d c.modifications
      Store.adopt d) :=
    spares_bind (spares_requireMode hbase c.mode) fun _ ↦
      spares_bind (spares_backup nofun) fun _ ↦
        spares_bind (spares_write (by simp) c.modifications) fun _ ↦ spares_adopt hload nofun
  obtain ⟨ns, hjournal, hn⟩ := hafter (s.report (c.warnings s.editAction)) w
  refine ⟨ns, ?_, hn⟩
  rw [Store.commit, perform_bind, perform_check h]
  exact hjournal

end Runner

end LayeredRights
