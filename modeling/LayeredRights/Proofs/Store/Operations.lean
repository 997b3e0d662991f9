import LayeredRights.Proofs.Runner

/-!
# What the operations of a store come to

One statement for each operation of a store, over arbitrary documents in an arbitrary world. What an
operation does to the documents is a relation between worlds, `Loads` for reading both of them and
`Saves` for putting an edited configuration in place of the override, with one constructor for each
step at which it can end. What it does to the store is one of three things: nothing but notices,
`Store.evicted`, or `Store.installed`. `Commits` and `Reloads` say both of the two operations that
others are told of. No proof beyond this module unfolds an operation.

The relations leave out the notices. They are what an operation adds to the journal, which no
operation reads, so that the lemmas here give away that there are some (`∃ ns`) and nothing else;
what they are is the business of `Proofs/Store/Journal`. What is left is small enough to be taken
apart by cases wherever an operation occurs, and to be stated twice: once as what performing an
operation gives (`exists_perform_…`), and once as what is known of a result that it has given
(`…_cases`).
-/

namespace LayeredRights

namespace Store

/-! ### What can become of a store -/

/-- The store with nothing resident. -/
def evicted (s : Store) : Store := { s with resident := none }

/-- The store with a configuration resident, as a new snapshot. -/
def installed (s : Store) (c : Configuration) : Store :=
  { s with resident := some ⟨s.loads, c⟩, loads := s.loads + 1 }

@[simp] theorem resident_report (s : Store) (ns : List Notice) :
    (s.report ns).resident = s.resident := rfl

@[simp] theorem loads_report (s : Store) (ns : List Notice) : (s.report ns).loads = s.loads := rfl

@[simp] theorem editAction_report (s : Store) (ns : List Notice) :
    (s.report ns).editAction = s.editAction := rfl

@[simp] theorem resident_evicted (s : Store) : s.evicted.resident = none := rfl

@[simp] theorem loads_evicted (s : Store) : s.evicted.loads = s.loads := rfl

@[simp] theorem resident_installed (s : Store) (c : Configuration) :
    (s.installed c).resident = some ⟨s.loads, c⟩ := rfl

@[simp] theorem loads_installed (s : Store) (c : Configuration) :
    (s.installed c).loads = s.loads + 1 := rfl

theorem report_report (s : Store) (ns ns' : List Notice) :
    (s.report ns).report ns' = s.report (ns ++ ns') := by
  simp [report]

theorem report_nil (s : Store) : s.report [] = s := by
  simp [report]

theorem report_evicted (s : Store) (ns : List Notice) :
    s.evicted.report ns = (s.report ns).evicted := rfl

/-- What is installed takes the place of what was there. -/
theorem installed_evicted (s : Store) (c : Configuration) : s.evicted.installed c = s.installed c :=
  rfl

/-- All that an operation can make of a store. -/
inductive Steps (s : Store) : Store → Prop
  | reported (ns : List Notice) : Steps s (s.report ns)
  | evicted (ns : List Notice) : Steps s (s.report ns).evicted
  | installed (ns : List Notice) (c : Configuration) : Steps s ((s.report ns).installed c)

end Store

/-! ### What becomes of the documents -/

section Relations

variable {m : Type → Type} [Monad m] {W : Type} (ρ : Runner m W) (d : Documents m)

/-- Reading both documents from a world comes to a configuration or an error, and leaves a world.
The override is read only when the base document has been. -/
inductive Loads (w : W) : Except RightsError Configuration → W → Prop
  | baseFailed {b : Reported Document} {e : RightsError} {w' : W}
      (hb : ρ.run d.loadBase w = (b, w')) (he : b.result = .error e) : Loads w (.error e) w'
  | overrideFailed {b : Reported Document} {base : Document} {w₁ : W}
      {l : Reported (Option Document)} {e : RightsError} {w' : W}
      (hb : ρ.run d.loadBase w = (b, w₁)) (hbase : b.result = .ok base)
      (hl : ρ.run d.loadOverride w₁ = (l, w')) (he : l.result = .error e) : Loads w (.error e) w'
  | conflict {b : Reported Document} {base : Document} {w₁ : W}
      {l : Reported (Option Document)} {layer : Option Document} {c : ModeConflict} {w' : W}
      (hb : ρ.run d.loadBase w = (b, w₁)) (hbase : b.result = .ok base)
      (hl : ρ.run d.loadOverride w₁ = (l, w')) (hlayer : l.result = .ok layer)
      (hm : merge base layer = .error c) : Loads w (.error (.modeConflict c)) w'
  | merged {b : Reported Document} {base : Document} {w₁ : W}
      {l : Reported (Option Document)} {layer : Option Document} {c : Configuration} {w' : W}
      (hb : ρ.run d.loadBase w = (b, w₁)) (hbase : b.result = .ok base)
      (hl : ρ.run d.loadOverride w₁ = (l, w')) (hlayer : l.result = .ok layer)
      (hm : merge base layer = .ok c) : Loads w (.ok c) w'

/-- Saving an edited configuration comes to an error, or to the base document that it agrees with on
the mode once its modifications are written. A write that fails is followed by a restore, whatever
that comes to. -/
inductive Saves (c : Configuration) (w : W) : Except RightsError Document → W → Prop
  | refused {o : Offence} (ho : c.offence? = some o) : Saves c w (.error (.invalid (.offence o))) w
  | baseFailed {b : Reported Document} {e : RightsError} {w' : W} (ho : c.offence? = none)
      (hb : ρ.run d.loadBase w = (b, w')) (he : b.result = .error e) : Saves c w (.error e) w'
  | conflict {b : Reported Document} {base : Document} {w' : W} (ho : c.offence? = none)
      (hb : ρ.run d.loadBase w = (b, w')) (hbase : b.result = .ok base) (hm : base.mode ≠ c.mode) :
      Saves c w (.error (.modeConflict ⟨base.mode, c.mode⟩)) w'
  | backupFailed {b : Reported Document} {base : Document} {w₁ : W} {e : RightsError} {w' : W}
      (ho : c.offence? = none) (hb : ρ.run d.loadBase w = (b, w₁)) (hbase : b.result = .ok base)
      (hm : base.mode = c.mode) (hk : ρ.run d.backupOverride w₁ = (.error e, w')) :
      Saves c w (.error e) w'
  | writeFailed {b : Reported Document} {base : Document} {w₁ w₂ w₃ : W} {e : RightsError}
      {r : Except RightsError Unit} {w' : W}
      (ho : c.offence? = none) (hb : ρ.run d.loadBase w = (b, w₁)) (hbase : b.result = .ok base)
      (hm : base.mode = c.mode) (hk : ρ.run d.backupOverride w₁ = (.ok (), w₂))
      (hw : ρ.run (d.writeOverride c.modifications) w₂ = (.error e, w₃))
      (hr : ρ.run d.restoreOverride w₃ = (r, w')) : Saves c w (.error e) w'
  | written {b : Reported Document} {base : Document} {w₁ w₂ w' : W}
      (ho : c.offence? = none) (hb : ρ.run d.loadBase w = (b, w₁)) (hbase : b.result = .ok base)
      (hm : base.mode = c.mode) (hk : ρ.run d.backupOverride w₁ = (.ok (), w₂))
      (hw : ρ.run (d.writeOverride c.modifications) w₂ = (.ok (), w')) : Saves c w (.ok base) w'

/-- A commit fails and what is resident stays so, or it writes the modifications. What the documents
come to then is resident as a new snapshot, and nothing is if they come to an error. -/
inductive Commits (c : Configuration) (s : Store) (w : W) :
    Except RightsError (Option Snapshot) → Store → W → Prop
  | failed {e : RightsError} {s' : Store} {w' : W} (hsaves : Saves ρ d c w (.error e) w')
      (hresident : s'.resident = s.resident) : Commits c s w (.error e) s' w'
  | unloaded {base : Document} {w₁ : W} {e : RightsError} {s' : Store} {w' : W}
      (hsaves : Saves ρ d c w (.ok base) w₁) (hload : Loads ρ d w₁ (.error e) w')
      (hresident : s'.resident = none) : Commits c s w (.ok none) s' w'
  | loaded {base : Document} {w₁ : W} {c' : Configuration} {s' : Store} {w' : W}
      (hsaves : Saves ρ d c w (.ok base) w₁) (hload : Loads ρ d w₁ (.ok c') w')
      (hresident : s'.resident = some ⟨s.loads, c'⟩) :
      Commits c s w (.ok (some ⟨s.loads, c'⟩)) s' w'

/-- A reload makes what the documents come to resident as a new snapshot, and fails with nothing
resident if they come to an error. -/
inductive Reloads (s : Store) (w : W) : Except RightsError Snapshot → Store → W → Prop
  | failed {e : RightsError} {s' : Store} {w' : W} (hload : Loads ρ d w (.error e) w')
      (hresident : s'.resident = none) : Reloads s w (.error e) s' w'
  | loaded {c : Configuration} {s' : Store} {w' : W} (hload : Loads ρ d w (.ok c) w')
      (hresident : s'.resident = some ⟨s.loads, c⟩) : Reloads s w (.ok ⟨s.loads, c⟩) s' w'

end Relations

namespace Runner

variable {m : Type → Type} [Monad m] {W : Type} {α : Type} (ρ : Runner m W) (d : Documents m)

/-! ### Reading -/

@[simp] theorem perform_note (n : Notice) (s : Store) (w : W) :
    ρ.perform (Store.note n : StoreM m Unit) s w = (.ok (), s.report [n], w) :=
  ρ.perform_modify _ s w

/-- Reading a document passes on its result and its notices. -/
theorem perform_obtain (op : m (Reported α)) (s : Store) (w : W) :
    ρ.perform (Store.obtain op) s w =
      ((ρ.run op w).1.result, s.report (ρ.run op w).1.notices, (ρ.run op w).2) := by
  simp only [Store.obtain, perform_bind, perform_lift, perform_modify]
  cases (ρ.run op w).1.result <;> simp

/-- A load leaves nothing in the store but notices. -/
theorem exists_perform_load (s : Store) (w : W) :
    ∃ r ns w', Loads ρ d w r w' ∧ ρ.perform (Store.load d) s w = (r, s.report ns, w') := by
  rcases hb : ρ.run d.loadBase w with ⟨b, w₁⟩
  cases hbase : b.result with
  | error e =>
    refine ⟨.error e, b.notices, w₁, .baseFailed hb hbase, ?_⟩
    simp only [Store.load, perform_bind, perform_obtain, hb, hbase]
  | ok base =>
    rcases hl : ρ.run d.loadOverride w₁ with ⟨l, w'⟩
    cases hlayer : l.result with
    | error e =>
      refine ⟨.error e, b.notices ++ l.notices, w', .overrideFailed hb hbase hl hlayer, ?_⟩
      simp only [Store.load, perform_bind, perform_obtain, hb, hbase, hl, hlayer,
        Store.report_report]
    | ok layer =>
      cases hm : merge base layer with
      | error c =>
        refine ⟨.error (.modeConflict c), b.notices ++ l.notices ++ [.mergeFailed], w',
          .conflict hb hbase hl hlayer hm, ?_⟩
        simp only [Store.load, perform_bind, perform_obtain, hb, hbase, hl, hlayer, hm,
          perform_note, perform_throw, Store.report_report]
      | ok c =>
        refine ⟨.ok c, b.notices ++ l.notices, w', .merged hb hbase hl hlayer hm, ?_⟩
        simp only [Store.load, perform_bind, perform_obtain, hb, hbase, hl, hlayer, hm,
          perform_pure, Store.report_report]

@[simp] theorem perform_install (c : Configuration) (s : Store) (w : W) :
    ρ.perform (Store.install c : StoreM m Snapshot) s w = (.ok ⟨s.loads, c⟩, s.installed c, w) := by
  simp [Store.install, perform_bind, Store.installed]

@[simp] theorem perform_evict (s : Store) (w : W) :
    ρ.perform (Store.evict : StoreM m PUnit) s w = (.ok ⟨⟩, s.evicted, w) :=
  ρ.perform_modify _ s w

/-- A resident snapshot is handed out as it is, and the documents are left alone. -/
theorem perform_current_of_resident {s : Store} {S : Snapshot} (h : s.resident = some S) (w : W) :
    ρ.perform (Store.current d) s w = (.ok S, s, w) := by
  simp [Store.current, perform_bind, h]

/-- With nothing resident the documents are loaded, and a configuration they come to
is installed. -/
theorem exists_perform_current {s : Store} (h : s.resident = none) (w : W) :
    ∃ r ns w', Loads ρ d w r w' ∧ ρ.perform (Store.current d) s w =
      match r with
      | .ok c => (.ok ⟨s.loads, c⟩, (s.report ns).installed c, w')
      | .error e => (.error e, s.report ns, w') := by
  obtain ⟨r, ns, w', hload, hperform⟩ := ρ.exists_perform_load d s w
  refine ⟨r, ns, w', hload, ?_⟩
  simp only [Store.current, perform_bind, perform_get, h, hperform]
  cases r <;> simp

/-- A reload evicts first, so that nothing is resident when it fails. -/
theorem exists_perform_reload (s : Store) (w : W) :
    ∃ r ns w', Loads ρ d w r w' ∧ ρ.perform (Store.reload d) s w =
      match r with
      | .ok c => (.ok ⟨s.loads, c⟩, (s.report ns).installed c, w')
      | .error e => (.error e, (s.report ns).evicted, w') := by
  obtain ⟨r, ns, w', hload, hperform⟩ := ρ.exists_perform_load d s.evicted w
  refine ⟨r, ns, w', hload, ?_⟩
  simp only [Store.reload, perform_bind, perform_evict, hperform]
  cases r <;> simp [Store.report_evicted, Store.installed_evicted]

/-! ### Saving -/

/-- Loading what was written is a reload whose error is only noticed. -/
theorem exists_perform_adopt (s : Store) (w : W) :
    ∃ r ns w', Loads ρ d w r w' ∧ ρ.perform (Store.adopt d) s w =
      match r with
      | .ok c => (.ok (some ⟨s.loads, c⟩), (s.report ns).installed c, w')
      | .error _ => (.ok none, (s.report ns).evicted, w') := by
  obtain ⟨r, ns, w', hload, hperform⟩ := ρ.exists_perform_reload d s w
  cases r with
  | ok c =>
    refine ⟨.ok c, ns, w', hload, ?_⟩
    simp only [Store.adopt, perform_tryCatch, perform_bind, hperform, perform_return, perform_pure]
  | error e =>
    refine ⟨.error e, ns ++ [.reloadFailed], w', hload, ?_⟩
    simp only [Store.adopt, perform_tryCatch, perform_bind, hperform, perform_note, perform_return,
      perform_pure, Store.report_evicted, Store.report_report]

/-- A configuration that breaks no rule passes, with a warning at most. -/
theorem exists_perform_check {c : Configuration} (h : c.offence? = none) (s : Store) (w : W) :
    ∃ ns, ρ.perform (Store.check c : StoreM m Unit) s w = (.ok (), s.report ns, w) := by
  by_cases hg : c.grants s.editAction
  · exact ⟨[], by simp [Store.check, h, hg, perform_bind, Store.report_nil]⟩
  · exact ⟨[.lockout s.editAction], by simp [Store.check, h, hg, perform_bind]⟩

/-- A configuration that breaks a rule is refused, without a notice. -/
theorem perform_check_of_offence {c : Configuration} {o : Offence} (h : c.offence? = some o)
    (s : Store) (w : W) :
    ρ.perform (Store.check c : StoreM m Unit) s w = (.error (.invalid (.offence o)), s, w) := by
  simp [Store.check, h]

/-- The base document is read for its mode, and its notices are given as in any load. -/
theorem perform_requireMode (mode : PolicyMode) (s : Store) (w : W) :
    ρ.perform (Store.requireMode d mode) s w =
      let (b, w') := ρ.run d.loadBase w
      match b.result with
      | .error e => (.error e, s.report b.notices, w')
      | .ok base =>
        if base.mode = mode then (.ok (), s.report b.notices, w')
        else (.error (.modeConflict ⟨base.mode, mode⟩), s.report b.notices, w') := by
  simp only [Store.requireMode, perform_bind, perform_obtain]
  cases (ρ.run d.loadBase w).1.result with
  | error e => rfl
  | ok base => by_cases hm : base.mode = mode <;> simp [hm]

/-- A copy that is kept is no occasion for a notice. -/
theorem perform_backup_of_ok {w w' : W} (h : ρ.run d.backupOverride w = (.ok (), w')) (s : Store) :
    ρ.perform (Store.backup d) s w = (.ok (), s, w') := by
  simp [Store.backup, perform_bind, h]

/-- A copy that could not be kept is, and its error ends the commit. -/
theorem perform_backup_of_error {w w' : W} {e : RightsError}
    (h : ρ.run d.backupOverride w = (.error e, w')) (s : Store) :
    ρ.perform (Store.backup d) s w = (.error e, s.report [.backupFailed], w') := by
  simp [Store.backup, perform_bind, h]

theorem perform_write_of_ok {doc : Document} {w w' : W}
    (h : ρ.run (d.writeOverride doc) w = (.ok (), w')) (s : Store) :
    ρ.perform (Store.write d doc) s w = (.ok (), s, w') := by
  simp [Store.write, perform_bind, h]

/-- The error of a write is not covered up by what the restore comes to. -/
theorem exists_perform_write_of_error {doc : Document} {w w₁ w' : W} {e : RightsError}
    {r : Except RightsError Unit} (h : ρ.run (d.writeOverride doc) w = (.error e, w₁))
    (hr : ρ.run d.restoreOverride w₁ = (r, w')) (s : Store) :
    ∃ ns, ρ.perform (Store.write d doc) s w = (.error e, s.report ns, w') := by
  cases r with
  | ok _ =>
    refine ⟨[.writeFailed, .restoring, .restored], ?_⟩
    simp [Store.write, perform_bind, h, hr, Store.report_report]
  | error _ =>
    refine ⟨[.writeFailed, .restoring, .restoreFailed], ?_⟩
    simp [Store.write, perform_bind, h, hr, Store.report_report]

/-- Saving comes to something, and stops at the first step that fails. -/
theorem exists_saves (c : Configuration) (w : W) : ∃ r w', Saves ρ d c w r w' := by
  cases ho : c.offence? with
  | some o => exact ⟨_, w, .refused ho⟩
  | none =>
    rcases hb : ρ.run d.loadBase w with ⟨b, w₁⟩
    cases hbase : b.result with
    | error e => exact ⟨_, w₁, .baseFailed ho hb hbase⟩
    | ok base =>
      by_cases hm : base.mode = c.mode
      · rcases hk : ρ.run d.backupOverride w₁ with ⟨e | _, w₂⟩
        · exact ⟨_, w₂, .backupFailed ho hb hbase hm hk⟩
        · rcases hw : ρ.run (d.writeOverride c.modifications) w₂ with ⟨e | _, w₃⟩
          · rcases hr : ρ.run d.restoreOverride w₃ with ⟨r, w₄⟩
            exact ⟨_, w₄, .writeFailed ho hb hbase hm hk hw hr⟩
          · exact ⟨_, w₃, .written ho hb hbase hm hk hw⟩
      · exact ⟨_, w₁, .conflict ho hb hbase hm⟩

/-- A commit whose saving fails leaves nothing in the store but notices. After one that succeeds the
store holds what the documents come to then, or nothing if they come to an error. -/
theorem exists_perform_commit {c : Configuration} {w w₁ : W}
    {r : Except RightsError Document} (h : Saves ρ d c w r w₁) (s : Store) :
    ∃ ns, match r with
      | .error e => ρ.perform (Store.commit d c) s w = (.error e, s.report ns, w₁)
      | .ok _ =>
        ∃ l w', Loads ρ d w₁ l w' ∧ ρ.perform (Store.commit d c) s w =
          match l with
          | .ok c' => (.ok (some ⟨s.loads, c'⟩), (s.report ns).installed c', w')
          | .error _ => (.ok none, (s.report ns).evicted, w') := by
  cases h with
  | refused ho =>
    refine ⟨[], ?_⟩
    simp only [Store.commit, perform_bind, perform_check_of_offence ρ ho, Store.report_nil]
  | @baseFailed b _ _ ho hb he =>
    obtain ⟨ns, hcheck⟩ := ρ.exists_perform_check ho s w
    refine ⟨ns ++ b.notices, ?_⟩
    simp only [Store.commit, perform_bind, hcheck, perform_requireMode, hb, he,
      Store.report_report]
  | @conflict b _ _ ho hb hbase hm =>
    obtain ⟨ns, hcheck⟩ := ρ.exists_perform_check ho s w
    refine ⟨ns ++ b.notices, ?_⟩
    simp only [Store.commit, perform_bind, hcheck, perform_requireMode, hb, hbase, if_neg hm,
      Store.report_report]
  | @backupFailed b _ _ _ _ ho hb hbase hm hk =>
    obtain ⟨ns, hcheck⟩ := ρ.exists_perform_check ho s w
    refine ⟨ns ++ b.notices ++ [.backupFailed], ?_⟩
    simp only [Store.commit, perform_bind, hcheck, perform_requireMode, hb, hbase, hm, if_true,
      perform_backup_of_error ρ d hk, Store.report_report]
  | @writeFailed b _ _ _ _ _ _ _ ho hb hbase hm hk hw hr =>
    obtain ⟨ns, hcheck⟩ := ρ.exists_perform_check ho s w
    obtain ⟨ns', hwrite⟩ := ρ.exists_perform_write_of_error d hw hr (s.report (ns ++ b.notices))
    refine ⟨ns ++ b.notices ++ ns', ?_⟩
    simp only [Store.commit, perform_bind, hcheck, perform_requireMode, hb, hbase, hm, if_true,
      perform_backup_of_ok ρ d hk, hwrite, Store.report_report]
  -- only here is there anything to adopt
  | @written b _ _ _ _ ho hb hbase hm hk hw =>
    obtain ⟨ns, hcheck⟩ := ρ.exists_perform_check ho s w
    obtain ⟨l, ns', w', hload, hadopt⟩ :=
      ρ.exists_perform_adopt d (s.report (ns ++ b.notices)) w₁
    refine ⟨ns ++ b.notices ++ ns', l, w', hload, ?_⟩
    simp only [Store.commit, perform_bind, hcheck, perform_requireMode, hb, hbase, hm, if_true,
      perform_backup_of_ok ρ d hk, perform_write_of_ok ρ d hw, hadopt, Store.report_report]
    cases l <;> rfl

/-! ### What becomes of the store

The same, said of any result that an operation has. -/

variable {s s' : Store} {w w' : W}

/-- A reader gets the resident snapshot, or loads one if there is none. -/
theorem current_cases {r : Except RightsError Snapshot}
    (h : ρ.perform (Store.current d) s w = (r, s', w')) :
    (∃ S, s.resident = some S ∧ r = .ok S ∧ s' = s) ∨ s.resident = none ∧ ∃ ns,
      (∃ e, r = .error e ∧ s' = s.report ns) ∨
      ∃ c, r = .ok ⟨s.loads, c⟩ ∧ s' = (s.report ns).installed c := by
  cases hres : s.resident with
  | some S =>
    rw [perform_current_of_resident ρ d hres] at h
    obtain ⟨rfl, rfl, -⟩ : .ok S = r ∧ s = s' ∧ w = w' := by simpa using h
    exact .inl ⟨S, rfl, rfl, rfl⟩
  | none =>
    obtain ⟨l, ns, w'', -, hperform⟩ := ρ.exists_perform_current d hres w
    rw [hperform] at h
    refine .inr ⟨rfl, ns, ?_⟩
    cases l with
    | ok c =>
      obtain ⟨rfl, rfl, -⟩ : .ok _ = r ∧ (s.report ns).installed c = s' ∧ w'' = w' := by
        simpa using h
      exact .inr ⟨c, rfl, rfl⟩
    | error e =>
      obtain ⟨rfl, rfl, -⟩ : .error e = r ∧ s.report ns = s' ∧ w'' = w' := by simpa using h
      exact .inl ⟨e, rfl, rfl⟩

/-- A reload installs what the documents come to, or leaves nothing resident. -/
theorem reload_cases {r : Except RightsError Snapshot}
    (h : ρ.perform (Store.reload d) s w = (r, s', w')) : ∃ ns,
      (∃ e, r = .error e ∧ s' = (s.report ns).evicted ∧ Loads ρ d w (.error e) w') ∨
      ∃ c, r = .ok ⟨s.loads, c⟩ ∧ s' = (s.report ns).installed c ∧ Loads ρ d w (.ok c) w' := by
  obtain ⟨l, ns, w'', hload, hperform⟩ := ρ.exists_perform_reload d s w
  rw [hperform] at h
  refine ⟨ns, ?_⟩
  cases l with
  | ok c =>
    obtain ⟨rfl, rfl, rfl⟩ : .ok ⟨s.loads, c⟩ = r ∧ (s.report ns).installed c = s' ∧ w'' = w' := by
      simpa using h
    exact .inr ⟨c, rfl, rfl, hload⟩
  | error e =>
    obtain ⟨rfl, rfl, rfl⟩ : .error e = r ∧ (s.report ns).evicted = s' ∧ w'' = w' := by
      simpa using h
    exact .inl ⟨e, rfl, rfl, hload⟩

/-- A commit fails, or it saves the modifications and goes on as a reload does. -/
theorem commit_cases {c : Configuration} {r : Except RightsError (Option Snapshot)}
    (h : ρ.perform (Store.commit d c) s w = (r, s', w')) : ∃ ns,
      (∃ e, r = .error e ∧ s' = s.report ns ∧ Saves ρ d c w (.error e) w') ∨
      ∃ base w₁, Saves ρ d c w (.ok base) w₁ ∧
        ((∃ e, r = .ok none ∧ s' = (s.report ns).evicted ∧ Loads ρ d w₁ (.error e) w') ∨
        ∃ c', r = .ok (some ⟨s.loads, c'⟩) ∧ s' = (s.report ns).installed c' ∧
          Loads ρ d w₁ (.ok c') w') := by
  obtain ⟨saved, w₁, hsaves⟩ := ρ.exists_saves d c w
  obtain ⟨ns, hcommit⟩ := ρ.exists_perform_commit d hsaves s
  refine ⟨ns, ?_⟩
  cases saved with
  | error e =>
    rw [hcommit] at h
    obtain ⟨rfl, rfl, rfl⟩ : .error e = r ∧ s.report ns = s' ∧ w₁ = w' := by simpa using h
    exact .inl ⟨e, rfl, rfl, hsaves⟩
  | ok base =>
    refine .inr ⟨base, w₁, hsaves, ?_⟩
    obtain ⟨l, w'', hload, hperform⟩ := hcommit
    rw [hperform] at h
    cases l with
    | ok c' =>
      obtain ⟨rfl, rfl, rfl⟩ : .ok (some ⟨s.loads, c'⟩) = r ∧ (s.report ns).installed c' = s' ∧
          w'' = w' := by
        simpa using h
      exact .inr ⟨c', rfl, rfl, hload⟩
    | error e =>
      obtain ⟨rfl, rfl, rfl⟩ : .ok none = r ∧ (s.report ns).evicted = s' ∧ w'' = w' := by
        simpa using h
      exact .inl ⟨e, rfl, rfl, hload⟩

/-- A reader leaves the store as it was or installs, and what it returns is resident. -/
theorem steps_current {r : Except RightsError Snapshot}
    (h : ρ.perform (Store.current d) s w = (r, s', w')) :
    s.Steps s' ∧ ∀ S, r = .ok S → s'.resident = some S := by
  obtain ⟨S, hres, rfl, rfl⟩ | ⟨-, ns, ⟨e, rfl, rfl⟩ | ⟨c, rfl, rfl⟩⟩ := ρ.current_cases d h
  · refine ⟨?_, fun S' hS' ↦ hres.trans (by simpa using hS')⟩
    simpa only [Store.report_nil] using Store.Steps.reported (s := s') []
  · exact ⟨.reported ns, by simp⟩
  · exact ⟨.installed ns c, fun S hS ↦ by simpa using hS⟩

/-- What a reader gets is resident then, and nothing is if there is an error. -/
theorem resident_of_current {r : Except RightsError Snapshot}
    (h : ρ.perform (Store.current d) s w = (r, s', w')) : s'.resident = r.toOption := by
  obtain ⟨S, hres, rfl, rfl⟩ | ⟨hres, ns, ⟨e, rfl, rfl⟩ | ⟨c, rfl, rfl⟩⟩ := ρ.current_cases d h
  · exact hres
  · exact hres
  · rfl

theorem steps_reload {r : Except RightsError Snapshot}
    (h : ρ.perform (Store.reload d) s w = (r, s', w')) : s.Steps s' := by
  obtain ⟨ns, ⟨e, -, rfl, -⟩ | ⟨c, -, rfl, -⟩⟩ := ρ.reload_cases d h
  · exact .evicted ns
  · exact .installed ns c

/-- A commit does any of the three. -/
theorem steps_commit {c : Configuration} {r : Except RightsError (Option Snapshot)}
    (h : ρ.perform (Store.commit d c) s w = (r, s', w')) : s.Steps s' := by
  obtain ⟨ns, ⟨e, -, rfl, -⟩ | ⟨base, w₁, -, ⟨e, -, rfl, -⟩ | ⟨c', -, rfl, -⟩⟩⟩ :=
    ρ.commit_cases d h
  · exact .reported ns
  · exact .evicted ns
  · exact .installed ns c'

/-- A reload installs a snapshot if it succeeds, and only then. -/
theorem loads_of_reload {r : Except RightsError Snapshot}
    (h : ρ.perform (Store.reload d) s w = (r, s', w')) :
    s'.loads = if r.isOk then s.loads + 1 else s.loads := by
  obtain ⟨ns, ⟨e, rfl, rfl, -⟩ | ⟨c, rfl, rfl, -⟩⟩ := ρ.reload_cases d h
  · rfl
  · rfl

/-- A commit installs a snapshot if it has one to announce, and only then. -/
theorem loads_of_commit {c : Configuration} {r : Except RightsError (Option Snapshot)}
    (h : ρ.perform (Store.commit d c) s w = (r, s', w')) :
    s'.loads = if r.toOption.join.isSome then s.loads + 1 else s.loads := by
  obtain ⟨ns, ⟨e, rfl, rfl, -⟩ | ⟨base, w₁, -, ⟨e, rfl, rfl, -⟩ | ⟨c', rfl, rfl, -⟩⟩⟩ :=
    ρ.commit_cases d h
  · rfl
  · rfl
  · rfl

/-- **What a commit comes to**, for the documents and for what is resident. -/
theorem commits_of_perform {c : Configuration} {r : Except RightsError (Option Snapshot)}
    (h : ρ.perform (Store.commit d c) s w = (r, s', w')) : Commits ρ d c s w r s' w' := by
  obtain ⟨ns, ⟨e, rfl, rfl, hsaves⟩ |
    ⟨base, w₁, hsaves, ⟨e, rfl, rfl, hload⟩ | ⟨c', rfl, rfl, hload⟩⟩⟩ := ρ.commit_cases d h
  · exact .failed hsaves rfl
  · exact .unloaded hsaves hload rfl
  · exact .loaded hsaves hload rfl

/-- What a reload comes to. -/
theorem reloads_of_perform {r : Except RightsError Snapshot}
    (h : ρ.perform (Store.reload d) s w = (r, s', w')) : Reloads ρ d s w r s' w' := by
  obtain ⟨ns, ⟨e, rfl, rfl, hload⟩ | ⟨c, rfl, rfl, hload⟩⟩ := ρ.reload_cases d h
  · exact .failed hload rfl
  · exact .loaded hload rfl

end Runner

end LayeredRights
