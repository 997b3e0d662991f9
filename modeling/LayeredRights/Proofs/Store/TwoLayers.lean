import LayeredRights.Proofs.Merge
import LayeredRights.Proofs.Store.Operations
import LayeredRights.Scenario.MemoryDocuments

/-!
# A store keeps two layers of one load

Seen from its documents, a store is a machine of two layers. It may hold the base and the override
that one load has returned, and it holds nothing else, in particular no base of one load with the
override of another.

To say so, the operations on the documents are recorded with what they returned
(`Documents.recorded`). The record tells which loads succeeded (`successes`): a read of the override
follows the read of the base document of the same load at once, and nothing but a load reads the
override. `TwoLayered` is what holds of a store and the record of its operations at any time, and
`Watched.twoLayered_run` is that it does, whatever the documents are, whichever operations on them
fail, and whatever changes them from outside.

The record is kept beside the world that the documents live in, and no operation can read it. So a
recorded operation does what it would have done anyway (`Runner.of_record`), and all that is known
of the operations of a store is known of recorded ones.

The induction over a run carries `Watched.Merged`: what is resident was merged from what the last
load that succeeded has returned. Everything else in `TwoLayered` is about one operation and holds
in any store. It is part of the structure because it is what makes the store a machine, with a state
and with answers that depend on it.
-/

namespace LayeredRights

/-! ### The record of operations on the documents -/

/-- An operation on the documents with what it returned. -/
inductive Access
  | base (r : Except RightsError Document)
  | layer (r : Except RightsError (Option Document))
  | existence (found : Bool)
  | write (document : Document) (r : Except RightsError Unit)
  | backup (r : Except RightsError Unit)
  | restore (r : Except RightsError Unit)

/-- Records every operation with what it returned, oldest first. -/
def Documents.recorded {m : Type → Type} [Monad m] (d : Documents m) :
    Documents (StateT (List Access) m) :=
  let record {α : Type} (access : α → Access) (op : m α) : StateT (List Access) m α := fun log ↦ do
    let a ← op
    return (a, log ++ [access a])
  { loadBase := record (fun r ↦ .base r.result) d.loadBase
    loadOverride := record (fun r ↦ .layer r.result) d.loadOverride
    overrideExists := record .existence d.overrideExists
    writeOverride := fun document ↦ record (.write document) (d.writeOverride document)
    backupOverride := record .backup d.backupOverride
    restoreOverride := record .restore d.restoreOverride }

/-- The operations of one load, with what the load comes to. -/
inductive LoadsBy : List Access → Except RightsError Configuration → Prop
  | baseFailed (e : RightsError) : LoadsBy [.base (.error e)] (.error e)
  | layerFailed (b : Document) (e : RightsError) :
      LoadsBy [.base (.ok b), .layer (.error e)] (.error e)
  | conflict {b : Document} {l : Option Document} {c : ModeConflict} (hm : merge b l = .error c) :
      LoadsBy [.base (.ok b), .layer (.ok l)] (.error (.modeConflict c))
  | merged {b : Document} {l : Option Document} {c : Configuration} (hm : merge b l = .ok c) :
      LoadsBy [.base (.ok b), .layer (.ok l)] (.ok c)

/-- A load succeeds when all it reads is a base document and, up to origins, a layer of one mode. -/
theorem LoadsBy.eq_ok {new : List Access} {r : Except RightsError Configuration}
    {b layer : Document} (h : LoadsBy new r) (hb : ∀ r, .base r ∈ new → r = .ok b)
    (hl : ∀ r, .layer r ∈ new → ∃ document, r = .ok (some document) ∧
      document.tagged .factory = layer.tagged .factory) (hmode : layer.mode = b.mode) :
    r = .ok (b.overlaid layer) := by
  -- what the two reads return, whenever there are two
  have hread : ∀ {b' : Document} {l : Option Document}, new = [.base (.ok b'), .layer (.ok l)] →
      b' = b ∧ merge b l = .ok (b.overlaid layer) := by
    rintro b' l rfl
    obtain ⟨document, heq, htagged⟩ := hl (.ok l) (by simp)
    obtain rfl := Except.ok.inj heq
    refine ⟨Except.ok.inj (hb (.ok b') (by simp)), ?_⟩
    rw [merge_eq_of_tagged_eq htagged, merge_of_mode_eq hmode]
  cases h with
  | baseFailed e => exact nomatch hb (.error e) (by simp)
  | layerFailed b' e =>
    obtain ⟨_, heq, -⟩ := hl (.error e) (by simp)
    exact nomatch heq
  | conflict hm =>
    obtain ⟨rfl, hmerge⟩ := hread rfl
    exact nomatch hm.symm.trans hmerge
  | merged hm =>
    obtain ⟨rfl, hmerge⟩ := hread rfl
    exact congrArg Except.ok (Except.ok.inj (hm.symm.trans hmerge))

/-- The base documents and layers of the loads that succeeded, oldest first. -/
def successes : List Access → List (Document × Option Document)
  | .base (.ok b) :: .layer (.ok l) :: log =>
    if (merge b l).isOk then (b, l) :: successes log else successes log
  | _ :: log => successes log
  | [] => []

section Successes

/-- Loads do not stretch over a point at which no override is about to be read. -/
theorem successes_append {log new : List Access} (h : ∀ r new', new ≠ .layer r :: new') :
    successes (log ++ new) = successes log ++ successes new := by
  fun_induction successes log with
  | case1 b l log hm ih => simp [successes, hm, ih]
  | case2 b l log hm ih => simp [successes, hm, ih]
  | case3 a log hne ih =>
    rw [List.cons_append, successes, ih]
    -- only a base document at the very end could be taken up by what follows
    rintro b l log' ha happend
    cases log with
    | nil => exact h _ _ happend
    | cons a' log =>
      obtain ⟨rfl, -⟩ := List.cons.inj happend
      exact hne b l log ha rfl
  | case4 => rfl

/-- Where no override is read no load succeeds. -/
theorem successes_eq_nil {log : List Access} (h : ∀ r, .layer r ∉ log) : successes log = [] := by
  fun_induction successes log with
  | case1 b l log hm ih => exact absurd (List.mem_cons_of_mem _ List.mem_cons_self) (h (.ok l))
  | case2 b l log hm ih => exact absurd (List.mem_cons_of_mem _ List.mem_cons_self) (h (.ok l))
  | case3 a log hne ih => exact ih fun r hr ↦ h r (List.mem_cons_of_mem _ hr)
  | case4 => rfl

/-- A load adds to the loads that succeeded what it merged, if it succeeds. -/
theorem LoadsBy.successes_append {new : List Access} {r : Except RightsError Configuration}
    (h : LoadsBy new r) (log : List Access) :
    match r with
    | .error _ => successes (log ++ new) = successes log
    | .ok c => ∃ b l, successes (log ++ new) = successes log ++ [(b, l)] ∧ merge b l = .ok c := by
  have happend : successes (log ++ new) = successes log ++ successes new :=
    LayeredRights.successes_append fun _ _ heq ↦ by cases h <;> exact nomatch heq
  -- what the load adds, it adds by itself
  rw [happend]
  cases h with
  | baseFailed e => simp [successes]
  | layerFailed b e => simp [successes]
  | conflict hm => simp [successes, hm, Except.isOk, Except.toBool]
  | merged hm => exact ⟨_, _, by simp [successes, hm, Except.isOk, Except.toBool], hm⟩

end Successes

/-! ### What the operations of a store read and write -/

section Relations

variable {m : Type → Type} [Monad m] {W : Type} {ρ : Runner m W} {d : Documents m}

/-- An operation that is recorded does what it does anyway, and what it returns is added to the
record. -/
theorem Runner.run_record {α : Type} (access : α → Access) (op : m α) (p : W × List Access) :
    (ρ.beside (List Access)).run
      ((fun log ↦ do let a ← op; return (a, log ++ [access a])) : StateT (List Access) m α) p =
        ((ρ.run op p.1).1, (ρ.run op p.1).2, p.2 ++ [access (ρ.run op p.1).1]) := by
  show (match ρ.run (op >>= fun a ↦ pure (a, p.2 ++ [access a])) p.1 with
    | ((a, s), w') => (a, w', s)) = _
  rw [ρ.run_bind, ρ.run_pure]

/-- The same of an operation whose result is known. -/
theorem Runner.of_record {α : Type} (access : α → Access) (op : m α) {p p' : W × List Access}
    {a : α} (h : (ρ.beside (List Access)).run
      ((fun log ↦ do let a ← op; return (a, log ++ [access a])) : StateT (List Access) m α) p =
        (a, p')) : ρ.run op p.1 = (a, p'.1) ∧ p'.2 = p.2 ++ [access a] := by
  rw [Runner.run_record] at h
  obtain ⟨rfl, rfl⟩ := Prod.mk.inj h
  exact ⟨rfl, rfl⟩

section Recorded

variable {p p' : W × List Access} {r : Except RightsError Unit}

/-- The base document is recorded with what it was read as. -/
theorem Runner.of_recorded_base {b : Reported Document}
    (h : (ρ.beside (List Access)).run d.recorded.loadBase p = (b, p')) :
    ρ.run d.loadBase p.1 = (b, p'.1) ∧ p'.2 = p.2 ++ [.base b.result] :=
  Runner.of_record (fun r ↦ .base r.result) d.loadBase h

/-- So is the override. -/
theorem Runner.of_recorded_layer {l : Reported (Option Document)}
    (h : (ρ.beside (List Access)).run d.recorded.loadOverride p = (l, p')) :
    ρ.run d.loadOverride p.1 = (l, p'.1) ∧ p'.2 = p.2 ++ [.layer l.result] :=
  Runner.of_record (fun r ↦ .layer r.result) d.loadOverride h

/-- A document is recorded with whether it could be written. -/
theorem Runner.of_recorded_write {document : Document}
    (h : (ρ.beside (List Access)).run (d.recorded.writeOverride document) p = (r, p')) :
    ρ.run (d.writeOverride document) p.1 = (r, p'.1) ∧ p'.2 = p.2 ++ [.write document r] :=
  Runner.of_record (.write document) (d.writeOverride document) h

/-- Keeping a copy is recorded with whether there is one now. -/
theorem Runner.of_recorded_backup
    (h : (ρ.beside (List Access)).run d.recorded.backupOverride p = (r, p')) :
    ρ.run d.backupOverride p.1 = (r, p'.1) ∧ p'.2 = p.2 ++ [.backup r] :=
  Runner.of_record .backup d.backupOverride h

/-- Going back to the copy is recorded with whether that was possible. -/
theorem Runner.of_recorded_restore
    (h : (ρ.beside (List Access)).run d.recorded.restoreOverride p = (r, p')) :
    ρ.run d.restoreOverride p.1 = (r, p'.1) ∧ p'.2 = p.2 ++ [.restore r] :=
  Runner.of_record .restore d.restoreOverride h

end Recorded

/-- Reading both documents is one load. -/
theorem Loads.exists_loadsBy {p p' : W × List Access} {r : Except RightsError Configuration}
    (h : Loads (ρ.beside (List Access)) d.recorded p r p') :
    ∃ new, p'.2 = p.2 ++ new ∧ LoadsBy new r := by
  cases h with
  | baseFailed hb he => exact ⟨_, (Runner.of_recorded_base hb).2, he ▸ .baseFailed _⟩
  | overrideFailed hb hbok hl he =>
    refine ⟨_, by
      rw [(Runner.of_recorded_layer hl).2, (Runner.of_recorded_base hb).2, List.append_assoc], ?_⟩
    rw [hbok, he]
    exact .layerFailed _ _
  | conflict hb hbok hl hlok hm =>
    refine ⟨_, by
      rw [(Runner.of_recorded_layer hl).2, (Runner.of_recorded_base hb).2, List.append_assoc], ?_⟩
    rw [hbok, hlok]
    exact .conflict hm
  | merged hb hbok hl hlok hm =>
    refine ⟨_, by
      rw [(Runner.of_recorded_layer hl).2, (Runner.of_recorded_base hb).2, List.append_assoc], ?_⟩
    rw [hbok, hlok]
    exact .merged hm

/-- Saving never reads the override. If it succeeds it has read the base document it returns, and
written the modifications. -/
theorem Saves.exists_accesses {c : Configuration} {p p' : W × List Access}
    {r : Except RightsError Document}
    (h : Saves (ρ.beside (List Access)) d.recorded c p r p') :
    ∃ new, p'.2 = p.2 ++ new ∧ (∀ r, .layer r ∉ new) ∧
      ∀ b, r = .ok b →
        b.mode = c.mode ∧ .base (.ok b) ∈ new ∧ .write c.modifications (.ok ()) ∈ new := by
  cases h with
  | refused ho => exact ⟨[], by simp, by simp, by simp⟩
  | baseFailed ho hb he => exact ⟨_, (Runner.of_recorded_base hb).2, by simp, by simp⟩
  | conflict ho hb hbok hm => exact ⟨_, (Runner.of_recorded_base hb).2, by simp, by simp⟩
  | backupFailed ho hb hbok hm hk =>
    have hlog := (Runner.of_recorded_backup hk).2
    rw [(Runner.of_recorded_base hb).2, List.append_assoc] at hlog
    exact ⟨_, hlog, by simp, by simp⟩
  | writeFailed ho hb hbok hm hk hw hr =>
    have hlog := (Runner.of_recorded_restore hr).2
    rw [(Runner.of_recorded_write hw).2, (Runner.of_recorded_backup hk).2,
      (Runner.of_recorded_base hb).2] at hlog
    simp only [List.append_assoc] at hlog
    exact ⟨_, hlog, by simp, by simp⟩
  | written ho hb hbok hm hk hw =>
    have hlog := (Runner.of_recorded_write hw).2
    rw [(Runner.of_recorded_backup hk).2, (Runner.of_recorded_base hb).2] at hlog
    simp only [List.append_assoc] at hlog
    refine ⟨_, hlog, by simp, ?_⟩
    rintro b ⟨rfl⟩
    exact ⟨hm, by simp [hbok], by simp⟩

end Relations

/-! ### A store whose documents are watched -/

/-- A store, the world its documents live in, and the record of the operations on them. -/
structure Watched (W : Type) where
  store : Store
  world : W
  /-- Oldest first. -/
  log : List Access := []

/-- An operation of a store, or a change of the world from outside. -/
inductive StoreMove (W : Type)
  | current
  | update (candidate : Configuration)
  | reload
  | outside (edit : W → W)

namespace Watched

variable {m : Type → Type} [Monad m] {W : Type} (ρ : Runner m W) (d : Documents m)

/-- What an operation answers and leaves. -/
def perform {α : Type} (s : Watched W) (op : StoreM (StateT (List Access) m) α) :
    Except RightsError α × Watched W :=
  match (ρ.beside (List Access)).perform op s.store (s.world, s.log) with
  | (r, store, world, log) => (r, ⟨store, world, log⟩)

/-- Asks the store for its configuration. -/
def current (s : Watched W) : Except RightsError Snapshot × Watched W :=
  s.perform ρ (Store.current d.recorded)

/-- Has the store load its documents again. -/
def reload (s : Watched W) : Except RightsError Snapshot × Watched W :=
  s.perform ρ (Store.reload d.recorded)

/-- Commits a candidate to the store. -/
def update (s : Watched W) (candidate : Configuration) :
    Except RightsError (Option Snapshot) × Watched W :=
  s.perform ρ (Store.commit d.recorded candidate)

/-- The state after one more move. -/
def move (s : Watched W) : StoreMove W → Watched W
  | .current => (s.current ρ d).2
  | .update candidate => (s.update ρ d candidate).2
  | .reload => (s.reload ρ d).2
  | .outside edit => { s with world := edit s.world }

/-- The state after a sequence of moves. -/
def run (s : Watched W) (moves : List (StoreMove W)) : Watched W := moves.foldl (move ρ d) s

/-- What is resident was merged from what the last load that succeeded has returned. -/
def Merged (s : Watched W) : Prop :=
  ∀ S, s.store.resident = some S →
    ∃ b l, (successes s.log).getLast? = some (b, l) ∧ merge b l = .ok S.configuration

/-- The base document did not change and the override given back is the one written, as far as a
record shows: all reads of the base document return the same, and those of the override return, up
to origins, what has been written successfully. -/
structure GivesBack (new : List Access) : Prop where
  base : ∀ r r', .base r ∈ new → .base r' ∈ new → r = r'
  layer : ∀ document, .write document (.ok ()) ∈ new → ∀ r, .layer r ∈ new →
    ∃ document', r = .ok (some document') ∧ document'.tagged .factory = document.tagged .factory

variable {ρ d} {s : Watched W}

/-! ### One operation at a time -/

/-- One load has been made. Its result is installed and returned, or its error is returned and
nothing is resident. -/
def LoadsOnce (s : Watched W) (o : Except RightsError Snapshot × Watched W) : Prop :=
  ∃ new r, LoadsBy new r ∧ o.2.log = s.log ++ new ∧
    match r with
    | .ok c => ∃ S, S.configuration = c ∧ o.1 = .ok S ∧ o.2.store.resident = some S
    | .error e => o.1 = .error e ∧ o.2.store.resident = none

/-- What is resident is returned, without a look at the documents. -/
theorem current_of_resident {S : Snapshot} (h : s.store.resident = some S) :
    s.current ρ d = (.ok S, s) := by
  rw [current, perform, (ρ.beside (List Access)).perform_current_of_resident d.recorded h]

theorem loadsOnce_current (h : s.store.resident = none) : s.LoadsOnce (s.current ρ d) := by
  obtain ⟨r, ns, ⟨w', log'⟩, hload, hperform⟩ :=
    (ρ.beside (List Access)).exists_perform_current d.recorded h (s.world, s.log)
  obtain ⟨new, rfl, hby⟩ := hload.exists_loadsBy
  rw [current, perform, hperform]
  refine ⟨new, r, hby, ?_⟩
  cases r with
  | ok c => exact ⟨rfl, _, rfl, rfl, rfl⟩
  | error e => exact ⟨rfl, rfl, h⟩

variable (ρ d) in
theorem loadsOnce_reload (s : Watched W) : s.LoadsOnce (s.reload ρ d) := by
  obtain ⟨r, ns, ⟨w', log'⟩, hload, hperform⟩ :=
    (ρ.beside (List Access)).exists_perform_reload d.recorded s.store (s.world, s.log)
  obtain ⟨new, rfl, hby⟩ := hload.exists_loadsBy
  rw [reload, perform, hperform]
  refine ⟨new, r, hby, ?_⟩
  cases r with
  | ok c => exact ⟨rfl, _, rfl, rfl, rfl⟩
  | error e => exact ⟨rfl, rfl, rfl⟩

variable (ρ d) in
/-- An update that fails leaves what is resident. One that succeeds has read a base document of the
candidate's mode and written the modifications, and is followed by one load. -/
theorem exists_update (s : Watched W) (c : Configuration) :
    ∃ (new : List Access) (r : Except RightsError Document), (∀ r, .layer r ∉ new) ∧
      match r with
      | .error e => (s.update ρ d c).1 = .error e ∧ (s.update ρ d c).2.log = s.log ++ new ∧
          (s.update ρ d c).2.store.resident = s.store.resident
      | .ok b => b.mode = c.mode ∧ .base (.ok b) ∈ new ∧ .write c.modifications (.ok ()) ∈ new ∧
          ∃ loaded l, LoadsBy loaded l ∧ (s.update ρ d c).2.log = s.log ++ (new ++ loaded) ∧
            match l with
            | .ok c' => ∃ S, S.configuration = c' ∧ (s.update ρ d c).1 = .ok (some S) ∧
                (s.update ρ d c).2.store.resident = some S
            | .error _ => (s.update ρ d c).1 = .ok none ∧
                (s.update ρ d c).2.store.resident = none := by
  obtain ⟨r, ⟨w₁, log₁⟩, hsaves⟩ :=
    (ρ.beside (List Access)).exists_saves d.recorded c (s.world, s.log)
  obtain ⟨ns, hcommit⟩ :=
    (ρ.beside (List Access)).exists_perform_commit d.recorded hsaves s.store
  obtain ⟨new, rfl, hlayer, hok⟩ := hsaves.exists_accesses
  refine ⟨new, r, hlayer, ?_⟩
  cases r with
  | error e =>
    rw [update, perform, hcommit]
    exact ⟨rfl, rfl, rfl⟩
  | ok b =>
    obtain ⟨hmode, hbase, hwrite⟩ := hok b rfl
    obtain ⟨l, ⟨w', log'⟩, hload, hperform⟩ := hcommit
    obtain ⟨loaded, rfl, hby⟩ := hload.exists_loadsBy
    rw [update, perform, hperform]
    refine ⟨hmode, hbase, hwrite, loaded, l, hby, ?_⟩
    cases l with
    | ok c' => exact ⟨List.append_assoc _ _ _, _, rfl, rfl, rfl⟩
    | error e => exact ⟨List.append_assoc _ _ _, rfl, rfl⟩

/-- **What was saved is what is in force.** When the override given back after an update that
succeeds is the one written, and the base document has not changed, then the modifications are
combined with that base document. -/
theorem exists_resident_of_givesBack {c : Configuration} {o : Option Snapshot} {new : List Access}
    (hok : (s.update ρ d c).1 = .ok o) (hnew : (s.update ρ d c).2.log = s.log ++ new)
    (hback : GivesBack new) : ∃ b S, .base (.ok b) ∈ new ∧
      merge b (some c.modifications) = .ok S.configuration ∧
      (s.update ρ d c).2.store.resident = some S := by
  obtain ⟨saved, r, hlayer, h⟩ := exists_update ρ d s c
  cases r with
  | error e => exact nomatch hok.symm.trans h.1
  | ok b =>
    obtain ⟨hmode, hbase, hwrite, loaded, l, hby, hlog, h⟩ := h
    obtain rfl : new = saved ++ loaded := List.append_cancel_left (hnew.symm.trans hlog)
    -- the load after the save reads what the save has read and written
    have hb : ∀ r, .base r ∈ loaded → r = .ok b := fun r hr ↦
      hback.base _ _ (List.mem_append_right _ hr) (List.mem_append_left _ hbase)
    have hl : ∀ r, .layer r ∈ loaded → ∃ document, r = .ok (some document) ∧
        document.tagged .factory = c.modifications.tagged .factory := fun r hr ↦
      hback.layer _ (List.mem_append_left _ hwrite) r (List.mem_append_right _ hr)
    have hmerge : merge b (some c.modifications) = .ok (b.overlaid c.modifications) :=
      merge_of_mode_eq hmode.symm
    obtain rfl := hby.eq_ok hb hl hmode.symm
    obtain ⟨S, hS, -, hresident⟩ := h
    exact ⟨b, S, List.mem_append_left _ hbase, hS ▸ hmerge, hresident⟩

/-! ### Any sequence of operations -/

/-- After a load that was made once, what is resident was merged by it. -/
theorem merged_of_loadsOnce {o : Except RightsError Snapshot × Watched W} (h : s.LoadsOnce o) :
    o.2.Merged := by
  obtain ⟨new, r, hby, hlog, h⟩ := h
  have happend := hby.successes_append s.log
  intro S hS
  cases r with
  | error e => exact nomatch hS.symm.trans h.2
  | ok c =>
    obtain ⟨b, l, hsucc, hm⟩ := happend
    obtain ⟨S', rfl, -, hS'⟩ := h
    obtain rfl : S = S' := Option.some.inj (hS.symm.trans hS')
    exact ⟨b, l, by rw [hlog, hsucc, List.getLast?_concat], hm⟩

/-- An update keeps to it: saving adds no load, and one is made after it. -/
theorem Merged.update (hs : s.Merged) (c : Configuration) : (s.update ρ d c).2.Merged := by
  obtain ⟨new, r, hlayer, h⟩ := exists_update ρ d s c
  -- saving reads no override, so no load succeeds by it
  have hnew : successes (s.log ++ new) = successes s.log := by
    rw [successes_append, successes_eq_nil hlayer, List.append_nil]
    rintro r new' rfl
    exact hlayer r List.mem_cons_self
  cases r with
  | error e =>
    obtain ⟨-, hlog, hresident⟩ := h
    intro S hS
    rw [hlog, hnew]
    exact hs S (hresident ▸ hS)
  | ok b =>
    obtain ⟨-, -, -, loaded, l, hby, hlog, h⟩ := h
    have happend := hby.successes_append (s.log ++ new)
    rw [List.append_assoc, hnew] at happend
    intro S hS
    cases l with
    | error e => exact nomatch hS.symm.trans h.2
    | ok c' =>
      obtain ⟨b, l, hsucc, hm⟩ := happend
      obtain ⟨S', rfl, -, hS'⟩ := h
      obtain rfl : S = S' := Option.some.inj (hS.symm.trans hS')
      exact ⟨b, l, by rw [hlog, hsucc, List.getLast?_concat], hm⟩

/-- **One move.** Whatever was resident came from the last load that succeeded, and still does. -/
theorem Merged.move (hs : s.Merged) (mv : StoreMove W) : (s.move ρ d mv).Merged := by
  cases mv with
  | current =>
    cases hres : s.store.resident with
    | some S =>
      rw [Watched.move, current_of_resident hres]
      exact hs
    | none => exact merged_of_loadsOnce (loadsOnce_current hres)
  | update c => exact hs.update c
  | reload => exact merged_of_loadsOnce (loadsOnce_reload ρ d s)
  | outside edit => exact hs

/-- Any number of moves keeps to it. -/
theorem Merged.run (hs : s.Merged) (moves : List (StoreMove W)) : (s.run ρ d moves).Merged := by
  induction moves generalizing s with
  | nil => exact hs
  | cons mv moves ih => exact ih (hs.move mv)

variable (ρ d) in
/-- The store is a machine of two layers. -/
structure TwoLayered (s : Watched W) : Prop where
  /-- Never a mix of two loads. -/
  merged : s.Merged
  /-- A resident snapshot is returned as it is, and the documents are left alone. -/
  hit : ∀ S, s.store.resident = some S → s.current ρ d = (.ok S, s)
  /-- An error is returned again and again until a load succeeds. -/
  miss : s.store.resident = none → s.LoadsOnce (s.current ρ d)
  update_error : ∀ c e, (s.update ρ d c).1 = .error e →
    (s.update ρ d c).2.store.resident = s.store.resident
  reload_error : ∀ e, (s.reload ρ d).1 = .error e → (s.reload ρ d).2.store.resident = none
  /-- What was saved is what is in force, as far as it is given back. -/
  update_ok : ∀ c o, (s.update ρ d c).1 = .ok o →
    ∃ new, (s.update ρ d c).2.log = s.log ++ new ∧ .write c.modifications (.ok ()) ∈ new ∧
      (GivesBack new → ∃ b S, .base (.ok b) ∈ new ∧
        merge b (some c.modifications) = .ok S.configuration ∧
        (s.update ρ d c).2.current ρ d = (.ok S, (s.update ρ d c).2))

/-- From there on the store is a machine of two layers. -/
theorem Merged.twoLayered (hs : s.Merged) : s.TwoLayered ρ d where
  merged := hs
  hit _ hS := current_of_resident hS
  miss := loadsOnce_current
  update_error c e he := by
    obtain ⟨new, r, -, h⟩ := exists_update ρ d s c
    cases r with
    | error e' => exact h.2.2
    | ok b =>
      obtain ⟨-, -, -, loaded, l, -, -, h⟩ := h
      cases l with
      | ok c' =>
        obtain ⟨S, -, hok, -⟩ := h
        exact nomatch he.symm.trans hok
      | error e' => exact nomatch he.symm.trans h.1
  reload_error e he := by
    obtain ⟨new, r, -, -, h⟩ := loadsOnce_reload ρ d s
    cases r with
    | ok c =>
      obtain ⟨S, -, hok, -⟩ := h
      exact nomatch he.symm.trans hok
    | error e' => exact h.2
  update_ok c o hok := by
    obtain ⟨saved, r, -, h⟩ := exists_update ρ d s c
    cases r with
    | error e => exact nomatch hok.symm.trans h.1
    | ok b =>
      obtain ⟨-, -, hwrite, loaded, l, -, hlog, -⟩ := h
      refine ⟨saved ++ loaded, hlog, List.mem_append_left _ hwrite, fun hback ↦ ?_⟩
      obtain ⟨b', S, hb', hm, hS⟩ := exists_resident_of_givesBack hok hlog hback
      exact ⟨b', S, hb', hm, current_of_resident hS⟩

variable (ρ d) in
/-- **Every run.** Whatever the documents are, whatever fails and whatever changes them from
outside, a store that began with nothing loaded is a machine of two layers. -/
theorem twoLayered_run (editAction : String) (w : W) (moves : List (StoreMove W)) :
    (run ρ d ⟨{ editAction := editAction }, w, []⟩ moves).TwoLayered ρ d :=
  (Merged.run (s := ⟨{ editAction := editAction }, w, []⟩) (fun _ hS ↦ nomatch hS)
    moves).twoLayered

/-- Documents of which the base allows clerks to read. -/
def reading : MemoryDocuments where
  base := { mode := .allowListed, profiles := [{ name := "clerk", actions := ["read"] }] }

/-- An edit that allows clerks to write as well. -/
def writing : Configuration where
  mode := .allowListed
  profiles := [{ name := "clerk", actions := ["read", "write"], origin := .modification }]

/-- An update of a store that has been read before. The edit is in force then. -/
theorem twoLayered_writing :
    let s := run (.stateful _) MemoryDocuments.documents ⟨{}, reading, []⟩ [.current]
    let s' := (s.update (.stateful _) MemoryDocuments.documents writing).2
    ∃ S, merge reading.base (some writing.modifications) = .ok S.configuration ∧
      s'.current (.stateful _) MemoryDocuments.documents = (.ok S, s') := by
  intro s s'
  obtain ⟨new, hlog, -, hforce⟩ :=
    (twoLayered_run (.stateful _) MemoryDocuments.documents "editprofile" reading
      [.current]).update_ok writing (some ⟨1, writing⟩) rfl
  have hnew : [.base (.ok reading.base), .backup (.ok ()),
      .write writing.modifications (.ok ()), .base (.ok reading.base),
      .layer (.ok (some writing.modifications))] = new :=
    List.append_cancel_left (show s.log ++ _ = _ from hlog)
  subst hnew
  obtain ⟨b, S, hb, hm, hS⟩ := hforce ⟨by simp, by simp⟩
  obtain rfl : b = reading.base := by simpa using hb
  exact ⟨S, hm, hS⟩

end Watched

end LayeredRights
