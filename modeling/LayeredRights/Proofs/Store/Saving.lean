import LayeredRights.Proofs.Entries
import LayeredRights.Proofs.Store.TwoLayers

/-!
# The steps of saving

Saving an edited configuration depends on five steps, which are tried in one order. The first that
fails decides the error (`firstFailure?`), and how far saving came decides which operations change
the override (`changesUpTo`): none before the copy is made, the copy, the write, and putting the
copy back after a write that failed. What putting it back comes to decides nothing.

The steps are described by what the documents answer when nobody records it. `Commits.traced` says
the same of the record: it has these operations in their order, and the document that was written is
that of the modifications, which follows the rules if the candidate does.

The function that finds the first failure does not look at the relation `Saves`. It asks each step
in turn what it comes to in the world that the steps before it leave, so that the condition for
success can be read off the steps (`savingResult_eq_ok_iff`). That saving fails in the way that the
function says is proved for each way of ending (`Saves.traced`).
-/

namespace LayeredRights

/-! ### The steps -/

/-- The steps on which saving depends, in their order. -/
inductive SavingStep
  | check
  | base
  | mode
  | backup
  | write
  deriving DecidableEq, Repr

section Steps

variable {m : Type → Type} [Monad m] {W : Type} (ρ : Runner m W) (d : Documents m)
  (c : Configuration) (w : W)

/-- What a step comes to in the world that the steps before it leave. Without a base document there
is no mode to disagree on. -/
def SavingStep.attempt : SavingStep → Except RightsError Unit
  | .check =>
    match c.offence? with
    | some o => .error (.invalid (.offence o))
    | none => .ok ()
  | .base =>
    match (ρ.run d.loadBase w).1.result with
    | .ok _ => .ok ()
    | .error e => .error e
  | .mode =>
    match (ρ.run d.loadBase w).1.result with
    | .ok b => if b.mode = c.mode then .ok () else .error (.modeConflict ⟨b.mode, c.mode⟩)
    | .error _ => .ok ()
  | .backup => (ρ.run d.backupOverride (ρ.run d.loadBase w).2).1
  | .write =>
    (ρ.run (d.writeOverride c.modifications) (ρ.run d.backupOverride (ρ.run d.loadBase w).2).2).1

/-- The first step that fails, with its error. -/
def firstFailure? : Option (SavingStep × RightsError) :=
  [SavingStep.check, .base, .mode, .backup, .write].findSome? fun step ↦
    match step.attempt ρ d c w with
    | .ok () => none
    | .error e => some (step, e)

/-- Saving succeeds, or fails with the error of the first step that does. -/
def savingResult : Except RightsError Unit :=
  match firstFailure? ρ d c w with
  | none => .ok ()
  | some (_, e) => .error e

/-- No step fails if there is no first that does. -/
theorem firstFailure?_eq_none_iff : firstFailure? ρ d c w = none ↔
    ∀ step : SavingStep, step.attempt ρ d c w = .ok () := by
  rw [firstFailure?, List.findSome?_eq_none_iff]
  constructor
  · intro h step
    have hstep := h step (by cases step <;> simp)
    cases hattempt : step.attempt ρ d c w with
    | ok _ => rfl
    | error e => simp [hattempt] at hstep
  · intro h step _
    rw [h step]

/-- **The one condition for a commit.** -/
theorem savingResult_eq_ok_iff : savingResult ρ d c w = .ok () ↔
    c.offence? = none ∧
      (∃ b, (ρ.run d.loadBase w).1.result = .ok b ∧ b.mode = c.mode) ∧
      (ρ.run d.backupOverride (ρ.run d.loadBase w).2).1 = .ok () ∧
      (ρ.run (d.writeOverride c.modifications)
        (ρ.run d.backupOverride (ρ.run d.loadBase w).2).2).1 = .ok () := by
  have hnone : savingResult ρ d c w = .ok () ↔ firstFailure? ρ d c w = none := by
    rw [savingResult]
    cases firstFailure? ρ d c w <;> simp
  rw [hnone, firstFailure?_eq_none_iff]
  constructor
  -- the step about the mode passes without a base document, but the step before it does not
  · intro h
    have hcheck := h .check
    have hbase := h .base
    have hmode := h .mode
    refine ⟨?_, ?_, h .backup, h .write⟩
    · cases ho : c.offence? with
      | none => rfl
      | some o => simp [SavingStep.attempt, ho] at hcheck
    · cases hb : (ρ.run d.loadBase w).1.result with
      | error e => simp [SavingStep.attempt, hb] at hbase
      | ok b => exact ⟨b, rfl, by simpa [SavingStep.attempt, hb] using hmode⟩
  · rintro ⟨ho, ⟨b, hb, hmode⟩, hbackup, hwrite⟩ step
    cases step with
    | check => simp [SavingStep.attempt, ho]
    | base => simp [SavingStep.attempt, hb]
    | mode => simp [SavingStep.attempt, hb, hmode]
    | backup => exact hbackup
    | write => exact hwrite

end Steps

/-- The operations that change the override or its copy, by the step at which saving fails. -/
def changesUpTo : Option SavingStep → List DocumentCall
  | some .check | some .base | some .mode => []
  | some .backup => [.backupOverride]
  | some .write => [.backupOverride, .writeOverride, .restoreOverride]
  | none => [.backupOverride, .writeOverride]

/-- The operation on record, if it is one that changes the override or its copy. -/
def Access.change? : Access → Option DocumentCall
  | .base _ | .layer _ | .existence _ => none
  | .write _ _ => some .writeOverride
  | .backup _ => some .backupOverride
  | .restore _ => some .restoreOverride

/-- All that is written are the modifications of a configuration, and they follow the rules. -/
def WritesOnly (c : Configuration) (new : List Access) : Prop :=
  ∀ document r, .write document r ∈ new → document = c.modifications ∧ document.offence? = none

/-! ### What is on record -/

section Record

variable {m : Type → Type} [Monad m] {W : Type} {ρ : Runner m W} {d : Documents m}
  {c : Configuration} {p p' : W × List Access}

/-- A load changes nothing. -/
theorem LoadsBy.filterMap_change? {new : List Access} {r : Except RightsError Configuration}
    (h : LoadsBy new r) : new.filterMap Access.change? = [] ∧ WritesOnly c new := by
  cases h <;> exact ⟨rfl, by simp [WritesOnly]⟩

/-- Saving that fails at a step has on record what is done up to that step. -/
theorem traced_of_firstFailure? {step : SavingStep} {e : RightsError} {new : List Access}
    (hfail : firstFailure? ρ d c p.1 = some (step, e)) (hlog : p'.2 = p.2 ++ new)
    (hchanges : new.filterMap Access.change? = changesUpTo (some step))
    (hwrites : WritesOnly c new) :
    ∃ new, p'.2 = p.2 ++ new ∧
      new.filterMap Access.change? = changesUpTo ((firstFailure? ρ d c p.1).map (·.1)) ∧
      WritesOnly c new ∧
      savingResult ρ d c p.1 = (.error e : Except RightsError Document).map fun _ ↦ () := by
  refine ⟨new, hlog, ?_, hwrites, ?_⟩
  · rw [hfail]
    exact hchanges
  · rw [savingResult, hfail]
    rfl

/-- **What saving comes to, and what it has on record.** -/
theorem Saves.traced {r : Except RightsError Document}
    (h : Saves (ρ.beside (List Access)) d.recorded c p r p') :
    ∃ new, p'.2 = p.2 ++ new ∧
      new.filterMap Access.change? = changesUpTo ((firstFailure? ρ d c p.1).map (·.1)) ∧
      WritesOnly c new ∧ savingResult ρ d c p.1 = r.map fun _ ↦ () := by
  cases h with
  | @refused o ho =>
    have hfail : firstFailure? ρ d c p.1 = some (.check, .invalid (.offence o)) := by
      simp [firstFailure?, SavingStep.attempt, ho]
    exact traced_of_firstFailure? hfail (List.append_nil _).symm rfl (by simp [WritesOnly])
  | @baseFailed b e _ ho hb he =>
    obtain ⟨hb, hlog⟩ := Runner.of_recorded_base hb
    have hfail : firstFailure? ρ d c p.1 = some (.base, e) := by
      simp [firstFailure?, SavingStep.attempt, ho, hb, he]
    exact traced_of_firstFailure? hfail hlog rfl (by simp [WritesOnly])
  | @conflict b base _ ho hb hbok hm =>
    obtain ⟨hb, hlog⟩ := Runner.of_recorded_base hb
    have hfail : firstFailure? ρ d c p.1 = some (.mode, .modeConflict ⟨base.mode, c.mode⟩) := by
      simp [firstFailure?, SavingStep.attempt, ho, hb, hbok, hm]
    exact traced_of_firstFailure? hfail hlog rfl (by simp [WritesOnly])
  | @backupFailed b base _ e _ ho hb hbok hm hk =>
    obtain ⟨hb, hlog₁⟩ := Runner.of_recorded_base hb
    obtain ⟨hk, hlog⟩ := Runner.of_recorded_backup hk
    have hfail : firstFailure? ρ d c p.1 = some (.backup, e) := by
      simp [firstFailure?, SavingStep.attempt, ho, hb, hbok, hm, hk]
    rw [hlog₁, List.append_assoc] at hlog
    exact traced_of_firstFailure? hfail hlog rfl (by simp [WritesOnly])
  | @writeFailed b base _ _ _ e _ _ ho hb hbok hm hk hw hr =>
    obtain ⟨hb, hlog₁⟩ := Runner.of_recorded_base hb
    obtain ⟨hk, hlog₂⟩ := Runner.of_recorded_backup hk
    obtain ⟨hw, hlog₃⟩ := Runner.of_recorded_write hw
    have hlog := (Runner.of_recorded_restore hr).2
    have hfail : firstFailure? ρ d c p.1 = some (.write, e) := by
      simp [firstFailure?, SavingStep.attempt, ho, hb, hbok, hm, hk, hw]
    rw [hlog₃, hlog₂, hlog₁, List.append_assoc, List.append_assoc, List.append_assoc] at hlog
    refine traced_of_firstFailure? hfail hlog rfl ?_
    simp [WritesOnly, Configuration.offence?_modifications ho]
  | @written b base _ _ _ ho hb hbok hm hk hw =>
    obtain ⟨hb, hlog₁⟩ := Runner.of_recorded_base hb
    obtain ⟨hk, hlog₂⟩ := Runner.of_recorded_backup hk
    obtain ⟨hw, hlog⟩ := Runner.of_recorded_write hw
    have hfail : firstFailure? ρ d c p.1 = none := by
      simp [firstFailure?, SavingStep.attempt, ho, hb, hbok, hm, hk, hw]
    rw [hlog₂, hlog₁, List.append_assoc, List.append_assoc] at hlog
    refine ⟨_, hlog, by rw [hfail]; rfl, ?_, by rw [savingResult, hfail]; rfl⟩
    simp [WritesOnly, Configuration.offence?_modifications ho]

/-- **What a commit comes to, and what it has on record.** The load after the write changes nothing
of either. -/
theorem Commits.traced {s s' : Store} {r : Except RightsError (Option Snapshot)}
    (h : Commits (ρ.beside (List Access)) d.recorded c s p r s' p') :
    ∃ new, p'.2 = p.2 ++ new ∧
      new.filterMap Access.change? = changesUpTo ((firstFailure? ρ d c p.1).map (·.1)) ∧
      WritesOnly c new ∧ savingResult ρ d c p.1 = r.map fun _ ↦ () := by
  -- the load at the end adds reads to the record, and nothing that changes or writes
  have hloads : ∀ {p₁ : W × List Access} {l : Except RightsError Configuration}
      {saved : List Access}, p₁.2 = p.2 ++ saved →
      Loads (ρ.beside (List Access)) d.recorded p₁ l p' → WritesOnly c saved →
      ∃ new, p'.2 = p.2 ++ new ∧ new.filterMap Access.change? = saved.filterMap Access.change? ∧
        WritesOnly c new := by
    intro p₁ l saved hsaved hload hwrites
    obtain ⟨loaded, hlog, hby⟩ := hload.exists_loadsBy
    obtain ⟨hnone, hnothing⟩ := hby.filterMap_change? (c := c)
    refine ⟨saved ++ loaded, by rw [hlog, hsaved, List.append_assoc], ?_, fun document r hmem ↦ ?_⟩
    · rw [List.filterMap_append, hnone, List.append_nil]
    · exact (List.mem_append.1 hmem).elim (hwrites document r) (hnothing document r)
  cases h with
  | failed hsaves hresident => exact hsaves.traced
  | unloaded hsaves hload hresident =>
    obtain ⟨saved, hsaved, hchanges, hwrites, hresult⟩ := hsaves.traced
    obtain ⟨new, hlog, hsame, hwrites'⟩ := hloads hsaved hload hwrites
    exact ⟨new, hlog, hsame.trans hchanges, hwrites', hresult⟩
  | loaded hsaves hload hresident =>
    obtain ⟨saved, hsaved, hchanges, hwrites, hresult⟩ := hsaves.traced
    obtain ⟨new, hlog, hsame, hwrites'⟩ := hloads hsaved hload hwrites
    exact ⟨new, hlog, hsame.trans hchanges, hwrites', hresult⟩

end Record

end LayeredRights
