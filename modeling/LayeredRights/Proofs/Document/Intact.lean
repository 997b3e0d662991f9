import LayeredRights.Proofs.Document.Durability
import LayeredRights.Proofs.File.Copying
import LayeredRights.Proofs.Store.Saving

/-!
# What a failed commit leaves in the files

A commit over files that fails leaves the base document and the override as they were, and whoever
loads them later gets what it would have got before. There is one exception. The copy that is kept
of the override may be the override itself, if the suffix of its path is empty for instance. Copying
a file onto itself empties it, and when the write fails after that there is nothing to put back
(`DocumentFiles.intact_of_commit_error`).

Two cases are apart. Where a file stands at the path of the override, it is copied aside, the only
step of a write that can fail is the first, and the copy is put back. Where no file stands there,
all that a failed commit can do is to make other files go: a copy that was kept earlier, and the
file written aside.

Both cases are about the place that the path of the override leads to. A file there has a name in a
directory (`FileTree.exists_located`), and the file written aside has a longer name in the same one,
so that a write has no reason to fail after its first step: what could keep it from moving its file
over the override is a directory in the way, and there is a file. The suffix of the copy is for the
caller to choose, and it may have anything in it. Nothing is assumed of where it leads but that it
is not the base document, and what it takes for the copy to be the override is said separately
(`not_copiesOntoItself`).
-/

namespace LayeredRights

namespace DocumentFiles

open FileTree

variable {f : DocumentFiles} {t t' : FileTree} {p q : List String} {n : List Char}
  {bytes : ByteArray} {d : Document} {e : RightsError}

/-! ### A write that fails -/

/-- After a write that fails the file written aside is removed. -/
theorem exists_of_writeOverride_error (h : t.run (f.writeOverride d) = (.error e, t')) :
    ∃ io t₁, t.run (FileJob.performAll [.create f.temporary, .append f.temporary d.text.toUTF8,
        .rename f.temporary f.override]) = (.error io, t₁) ∧
      t' = (t₁.run (FileJob.perform (.remove f.temporary))).2 := by
  rw [writeOverride, Runner.tree_run_bind] at h
  rcases hrun : t.run (FileJob.performAll [.create f.temporary, .append f.temporary d.text.toUTF8,
    .rename f.temporary f.override]) with ⟨io | _, t₁⟩
  · rw [hrun] at h
    dsimp only at h
    rw [Runner.tree_run_bind] at h
    exact ⟨io, t₁, rfl, (congrArg Prod.snd h).symm⟩
  · rw [hrun] at h
    cases congrArg Prod.fst h

/-- A write that fails can only make the file written aside go. -/
theorem cleared_of_writeOverride_error (h : t.run (f.writeOverride d) = (.error e, t')) :
    t.Cleared t' := by
  obtain ⟨io, t₁, hrun, rfl⟩ := exists_of_writeOverride_error h
  rcases run_replace_cases t f.temporary f.override d.text.toUTF8 with
    ⟨_, -, hfail⟩ | ⟨place, t₂, htarget, hreplaced, hrename⟩
  · obtain ⟨-, rfl⟩ := Prod.mk.inj (hrun.symm.trans hfail)
    exact cleared_run_remove t₁ f.temporary
  · obtain rfl : t₁ = t₂ := eq_of_apply_error (hrename.symm.trans hrun)
    obtain ⟨hlocate, -⟩ := locate_of_target_eq_ok htarget
    obtain ⟨hremove, hcleared⟩ :=
      run_remove_of_file (hreplaced.directories.locate_iff.2 hlocate) hreplaced.here
    rw [hremove]
    exact (hreplaced.trans hcleared).cleared

/-- **Over a file a write fails at its first step only**, which leaves everything as it is. -/
theorem eq_of_writeOverride_error (hl : t.Located f.override q n)
    (hfile : t.node? (q ++ [String.ofList n]) = some (.file bytes))
    (h : t.run (f.writeOverride d) = (.error e, t')) : t' = t := by
  have htemporary : t.Located f.temporary q (n ++ ".tmp".toList) := hl.append (by decide)
  obtain ⟨io, t₁, hrun, rfl⟩ := exists_of_writeOverride_error h
  rcases run_replace_cases t f.temporary f.override d.text.toUTF8 with
    ⟨_, htarget, hfail⟩ | ⟨place, t₂, htarget, hreplaced, hrename⟩
  · obtain ⟨-, rfl⟩ := Prod.mk.inj (hrun.symm.trans hfail)
    -- a directory is in the way, which is not removed
    have hdirectory : t₁.node? (q ++ [String.ofList (n ++ ".tmp".toList)]) = some .directory := by
      by_contra hfree
      cases (htemporary.target_eq hfree).symm.trans htarget
    have hprobe : t₁.probe f.temporary ≠ some .file := by
      rw [probe, lookup, htemporary.locate_self]
      simp only [hdirectory]
      decide
    obtain ⟨_, hremove⟩ := exists_run_remove hprobe
    rw [hremove]
  · have hl' := hl.of_sameDirectories hreplaced.directories
    have hfree : t₂.node? (q ++ [String.ofList n]) ≠ some .directory := by
      rw [ne_eq, hreplaced.directories.directory, hfile]
      simp
    obtain ⟨hlocate, -⟩ := locate_of_target_eq_ok htarget
    obtain ⟨t₃, hmoved⟩ := exists_apply_rename (hreplaced.directories.locate_iff.2 hlocate)
      hreplaced.here (hl'.target_eq hfree)
    cases hrun.symm.trans (hrename.trans hmoved)

/-! ### Copies over a file -/

/-- The override is copied aside, or nothing is done. -/
theorem run_backupOverride_of_file (hlocate : t.locate f.override = .ok p)
    (hfile : t.node? p = some (.file bytes)) :
    (∃ e, t.run f.backupOverride = (.error e, t)) ∨
    ∃ place t', t.locate f.backup = .ok place ∧ t.run f.backupOverride = (.ok (), t') ∧
      t.Replaced t' place (some (.file (if place = p then .empty else bytes))) := by
  rw [backupOverride, Runner.tree_run_bind, run_isFile, probe_eq_file hlocate hfile]
  simp only [decide_true, if_true]
  rw [Runner.tree_run_bind]
  cases htarget : t.target f.backup with
  | error io =>
    rw [run_copy_of_target_error (probe_eq_file hlocate hfile) htarget]
    exact .inl ⟨_, rfl⟩
  | ok place =>
    obtain ⟨t', hcopy, hreplaced⟩ := exists_run_copy hlocate hfile htarget
    rw [hcopy]
    exact .inr ⟨place, t', (locate_of_target_eq_ok htarget).1, rfl, hreplaced⟩

/-- The copy is put back over a file. -/
theorem exists_run_restoreOverride {place : List String} (hl : t.Located f.override q n)
    (hfree : t.node? (q ++ [String.ofList n]) ≠ some .directory)
    (hlocate : t.locate f.backup = .ok place) (hfile : t.node? place = some (.file bytes)) :
    ∃ t', t.run f.restoreOverride = (.ok (), t') ∧
      t.Replaced t' (q ++ [String.ofList n])
        (some (.file (if q ++ [String.ofList n] = place then .empty else bytes))) := by
  obtain ⟨t', hcopy, hreplaced⟩ := exists_run_copy hlocate hfile (hl.target_eq hfree)
  refine ⟨t', ?_, hreplaced⟩
  rw [restoreOverride, Runner.tree_run_bind, run_isFile, probe_eq_file hlocate hfile]
  simp only [decide_true, if_true]
  rw [Runner.tree_run_bind, hcopy]
  rfl

/-! ### Copies where there is no file -/

/-- An earlier copy is removed, so that there is none, or nothing is done. -/
theorem run_backupOverride_of_ne_file (h : t.probe f.override ≠ some .file) :
    (∃ e, t.run f.backupOverride = (.error e, t)) ∨
    ∃ t', t.run f.backupOverride = (.ok (), t') ∧ t.Cleared t' ∧
      t'.probe f.backup ≠ some .file := by
  have hexists : t.run (FileJob.exists? f.backup) = ((t.probe f.backup).isSome, t) := rfl
  rw [backupOverride, Runner.tree_run_bind, run_isFile, decide_eq_false h]
  simp only [Bool.false_eq_true, if_false]
  rw [Runner.tree_run_bind, hexists]
  cases hprobe : t.probe f.backup with
  | none => exact .inr ⟨t, rfl, .refl t, by simp [hprobe]⟩
  | some kind =>
    simp only [Option.isSome_some, if_true]
    rw [Runner.tree_run_bind]
    by_cases hfile : t.probe f.backup = some .file
    · obtain ⟨place, bytes, hlocate, hnode⟩ := probe_eq_file_iff.1 hfile
      obtain ⟨hremove, hreplaced⟩ := run_remove_of_file hlocate hnode
      rw [hremove]
      refine .inr ⟨_, rfl, hreplaced.cleared, ?_⟩
      rw [probe, lookup, hreplaced.directories.locate_iff.2 hlocate]
      simp [hreplaced.here]
    · obtain ⟨_, hremove⟩ := exists_run_remove hfile
      rw [hremove]
      exact .inl ⟨_, rfl⟩

/-- Where neither a copy nor an override is, nothing is put back. -/
theorem run_restoreOverride_of_ne_file (hb : t.probe f.backup ≠ some .file)
    (ho : t.probe f.override ≠ some .file) : (t.run f.restoreOverride).2 = t := by
  rw [restoreOverride, Runner.tree_run_bind, run_isFile, decide_eq_false hb]
  simp only [Bool.false_eq_true, if_false]
  rw [Runner.tree_run_bind, run_isFile, decide_eq_false ho]
  rfl

/-! ### What a copy is -/

/-- **After a copy has been kept** it is a file exactly when the override is, and the same one. -/
theorem standing?_backup_iff (hapart : t.Apart f.override f.backup)
    (h : t.run f.backupOverride = (.ok (), t')) :
    t'.standing? f.backup = some (.file bytes) ↔ t.standing? f.override = some (.file bytes) := by
  by_cases hfile : t.probe f.override = some .file
  · obtain ⟨p, old, hlocate, hnode⟩ := probe_eq_file_iff.1 hfile
    obtain ⟨_, hfail⟩ | ⟨place, t₂, hbackup, hcopied, hcopy⟩ :=
      run_backupOverride_of_file hlocate hnode
    · cases hfail.symm.trans h
    obtain rfl : t₂ = t' := congrArg Prod.snd (hcopied.symm.trans h)
    -- copied onto itself it would be empty
    have hne : place ≠ p := by
      rintro rfl
      exact hapart place hlocate hbackup
    have hkept : t₂.standing? f.backup = some (.file old) := by
      refine standing?_eq_some_iff.2 ⟨place, hcopy.directories.locate_iff.2 hbackup, ?_⟩
      rw [hcopy.here, if_neg hne]
    rw [hkept, standing?_eq_some_iff.2 ⟨p, hlocate, hnode⟩]
  · obtain ⟨_, hfail⟩ | ⟨t₂, hcleared, -, hnone⟩ := run_backupOverride_of_ne_file hfile
    · cases hfail.symm.trans h
    obtain rfl : t₂ = t' := congrArg Prod.snd (hcleared.symm.trans h)
    rw [probe_eq_map_standing?] at hfile hnone
    constructor <;> intro heq
    · rw [heq] at hnone
      exact absurd rfl hnone
    · rw [heq] at hfile
      exact absurd rfl hfile

/-! ### What is left of the override -/

/-- The copy that is kept of the override is the override itself. -/
def CopiesOntoItself (f : DocumentFiles) (t : FileTree) : Prop :=
  t.probe f.override = some .file ∧ ¬t.Apart f.override f.backup

/-- All that keeps a commit from succeeding is that the override cannot be written. -/
def FailsToWrite (f : DocumentFiles) (c : Configuration) (t : FileTree) : Prop :=
  ∃ e, firstFailure? Runner.tree f.documents c t = some (.write, e)

/-- A commit that gets as far as writing and fails there fails for no other reason. -/
theorem failsToWrite_of_error {c : Configuration} {b : Reported Document} {base : Document}
    {t₁ t₂ t₃ : FileTree} (ho : c.offence? = none)
    (hb : Runner.tree.run f.documents.loadBase t = (b, t₁)) (hbok : b.result = .ok base)
    (hm : base.mode = c.mode) (hk : Runner.tree.run f.documents.backupOverride t₁ = (.ok (), t₂))
    (hw : Runner.tree.run (f.documents.writeOverride c.modifications) t₂ = (.error e, t₃)) :
    f.FailsToWrite c t :=
  ⟨e, by simp [firstFailure?, SavingStep.attempt, ho, hb, hbok, hm, hk, hw]⟩

/-- A suffix with a character in it and without a slash does not lead back to the override. -/
theorem not_copiesOntoItself (ht : t.Rooted) (hne : f.suffix ≠ "")
    (hslash : '/' ∉ f.suffix.toList) : ¬f.CopiesOntoItself t := by
  rintro ⟨hfile, hsame⟩
  obtain ⟨p, bytes, hlocate, hnode⟩ := probe_eq_file_iff.1 hfile
  obtain ⟨q, n, hl, -⟩ := exists_located ht hlocate hnode
  exact hsame (hl.apart hne hslash)

/-- **Putting the copy back** after a write that failed makes the override what it was, unless the
copy was the override. -/
theorem standing?_of_restoreOverride {t₁ t₂ : FileTree} {r : Except RightsError Unit}
    (ht : t.Rooted) (hk : t.run f.backupOverride = (.ok (), t₁))
    (hw : t₁.run (f.writeOverride d) = (.error e, t₂)) (hr : t₂.run f.restoreOverride = (r, t')) :
    (¬f.CopiesOntoItself t → t'.standing? f.override = t.standing? f.override) ∧
      (f.CopiesOntoItself t → t'.standing? f.override = some (.file .empty)) := by
  by_cases hfile : t.probe f.override = some .file
  · obtain ⟨p, bytes, hlocate, hnode⟩ := probe_eq_file_iff.1 hfile
    obtain ⟨q, n, hl, rfl⟩ := exists_located ht hlocate hnode
    obtain ⟨_, hfail⟩ | ⟨place, t₁', hbackup, hcopied, hcopy⟩ :=
      run_backupOverride_of_file hlocate hnode
    · cases hfail.symm.trans hk
    obtain rfl : t₁' = t₁ := congrArg Prod.snd (hcopied.symm.trans hk)
    -- the override is a file still, empty or not
    have hnode' : ∃ bytes', t₁'.node? (q ++ [String.ofList n]) = some (.file bytes') := by
      by_cases hp : q ++ [String.ofList n] = place
      · rw [hp]
        exact ⟨_, hcopy.here⟩
      · exact ⟨bytes, (hcopy.elsewhere _ hp).trans hnode⟩
    obtain ⟨bytes', hnode'⟩ := hnode'
    have hl' := hl.of_sameDirectories hcopy.directories
    -- the write has failed and left all as it was, so it is the copy that is put back
    obtain rfl : t₂ = t₁' := eq_of_writeOverride_error hl' hnode' hw
    obtain ⟨t'', hrestored, hback⟩ := exists_run_restoreOverride hl' (by simp [hnode'])
      (hcopy.directories.locate_iff.2 hbackup) hcopy.here
    obtain rfl : t'' = t' := congrArg Prod.snd (hrestored.symm.trans hr)
    have hlocate' : t''.locate f.override = .ok (q ++ [String.ofList n]) :=
      hback.directories.locate_iff.2 hl'.locate_self
    have hstanding := standing?_eq_some_iff.2 ⟨_, hlocate', hback.here⟩
    constructor
    · intro hdifferent
      have hp : q ++ [String.ofList n] ≠ place := by
        rintro rfl
        refine hdifferent ⟨hfile, fun hapart ↦ hapart _ hlocate hbackup⟩
      rw [hstanding, if_neg hp, if_neg (Ne.symm hp)]
      exact (standing?_eq_some_iff.2 ⟨_, hlocate, hnode⟩).symm
    · rintro ⟨-, hsame⟩
      have hp : q ++ [String.ofList n] = place := by
        by_contra hp
        refine hsame fun place' hplace hplace' ↦ hp ?_
        exact Except.ok.inj ((hlocate.symm.trans hplace).trans (hplace'.symm.trans hbackup))
      rw [hstanding, if_pos hp]
  · obtain ⟨_, hfail⟩ | ⟨t₁', hcleared, hkept, hnone⟩ := run_backupOverride_of_ne_file hfile
    · cases hfail.symm.trans hk
    obtain rfl : t₁' = t₁ := congrArg Prod.snd (hcleared.symm.trans hk)
    -- all that has been done is that files went, and no override was among them
    have hwritten : t₁'.Cleared t₂ := cleared_of_writeOverride_error hw
    have hrestored : (t₂.run f.restoreOverride).2 = t₂ :=
      run_restoreOverride_of_ne_file (hwritten.probe_ne_file hnone)
        ((hkept.trans hwritten).probe_ne_file hfile)
    obtain rfl : t₂ = t' := hrestored.symm.trans (congrArg Prod.snd hr)
    exact ⟨fun _ ↦ (hkept.trans hwritten).standing?_eq hfile, fun h ↦ absurd h.1 hfile⟩

/-! ### What a failed commit leaves -/

/-- What both documents come to depends on what stands at the end of their paths. -/
theorem loaded_eq (hbase : t'.lookup f.base = t.lookup f.base)
    (hoverride : t'.standing? f.override = t.standing? f.override) : f.loaded t' = f.loaded t := by
  have hread : t'.read f.base = t.read f.base := by rw [FileTree.read, FileTree.read, hbase]
  have hlayer : (t'.run f.loadOverride).1 = (t.run f.loadOverride).1 := by
    rw [run_loadOverride, run_loadOverride, probe_eq_map_standing?, probe_eq_map_standing?,
      hoverride]
    by_cases hfile : (t.standing? f.override).map FileNode.kind = some .file
    · have hreads : ∀ t : FileTree, ∀ bytes, t.standing? f.override = some (.file bytes) →
          t.read f.override = .ok bytes := by
        intro t bytes hstanding
        obtain ⟨place, hlocate, hnode⟩ := standing?_eq_some_iff.1 hstanding
        exact read_eq_ok hlocate hnode
      obtain ⟨node, hnode, hkind⟩ := Option.map_eq_some_iff.1 hfile
      cases node with
      | directory => cases hkind
      | file bytes => rw [hreads t' bytes (hoverride.trans hnode), hreads t bytes hnode]
    · simp only [hfile, if_false]
  rw [loaded, loaded, run_load, run_load, hread, hlayer]

/-- A commit over files fails before it changes any, or at the write. -/
theorem eq_or_exists_of_saves {c : Configuration}
    (h : Saves Runner.tree f.documents c t (.error e) t') :
    t' = t ∧ ¬f.FailsToWrite c t ∨
      f.FailsToWrite c t ∧ ∃ base t₁ t₂ r, (t.run (load f.base)).1.result = .ok base ∧
        t.run f.backupOverride = (.ok (), t₁) ∧
        t₁.run (f.writeOverride c.modifications) = (.error e, t₂) ∧
        t₂.run f.restoreOverride = (r, t') := by
  cases h with
  | refused ho => exact .inl ⟨rfl, by simp [FailsToWrite, firstFailure?, SavingStep.attempt, ho]⟩
  | baseFailed ho hb he =>
    exact .inl ⟨(eq_of_run_loadBase hb).2, by
      simp [FailsToWrite, firstFailure?, SavingStep.attempt, ho, hb, he]⟩
  | conflict ho hb hbok hm =>
    exact .inl ⟨(eq_of_run_loadBase hb).2, by
      simp [FailsToWrite, firstFailure?, SavingStep.attempt, ho, hb, hbok, hm]⟩
  | @backupFailed b base t₁ _ _ ho hb hbok hm hk =>
    refine .inl ⟨?_, by
      simp [FailsToWrite, firstFailure?, SavingStep.attempt, ho, hb, hbok, hm, hk]⟩
    obtain ⟨-, rfl⟩ := eq_of_run_loadBase hb
    by_cases hfile : t₁.probe f.override = some .file
    · obtain ⟨p, bytes, hlocate, hnode⟩ := probe_eq_file_iff.1 hfile
      obtain ⟨_, hfail⟩ | ⟨_, _, -, hcopied, -⟩ := run_backupOverride_of_file hlocate hnode
      · exact congrArg Prod.snd (hk.symm.trans hfail)
      · cases hk.symm.trans hcopied
    · obtain ⟨_, hfail⟩ | ⟨_, hcleared, -⟩ := run_backupOverride_of_ne_file hfile
      · exact congrArg Prod.snd (hk.symm.trans hfail)
      · cases hk.symm.trans hcleared
  | @writeFailed b base t₁ t₂ t₃ _ r _ ho hb hbok hm hk hw hr =>
    have hfails : f.FailsToWrite c t := failsToWrite_of_error ho hb hbok hm hk hw
    obtain ⟨rfl, rfl⟩ := eq_of_run_loadBase hb
    exact .inr ⟨hfails, base, t₂, t₃, r, hbok, hk, hw, hr⟩

/-- A store that holds nothing takes up what the documents in the files come to. -/
theorem map_configuration_current {s : Store} (h : s.resident = none) (t : FileTree) :
    (Runner.tree.perform (Store.current f.documents) s t).1.map (·.configuration) = f.loaded t := by
  have hanswers : f.Answers s t := answers_of_not_resident h t
  unfold Answers at hanswers
  split at hanswers
  · next c hloaded =>
    obtain ⟨S, hS, rfl⟩ := hanswers
    rw [hS, hloaded]
    rfl
  · next err hloaded =>
    rw [hanswers, hloaded]
    rfl

/-- **A commit that fails leaves the files as they were**, unless it has copied the override onto
itself and then cannot write it. Then the override is empty. A suffix that has a character and no
slash keeps that from happening. -/
theorem intact_of_commit_error {c : Configuration} {s s' : Store} (ht : t.Rooted)
    (hapart : ∀ p ∈ [f.override, f.backup, f.temporary], t.Apart f.base p)
    (herr : Runner.tree.perform (Store.commit f.documents c) s t = (.error e, s', t')) :
    t'.lookup f.base = t.lookup f.base ∧
      (¬(f.CopiesOntoItself t ∧ f.FailsToWrite c t) →
        t'.standing? f.override = t.standing? f.override ∧
        ∀ s'' : Store, s''.resident = none →
          (Runner.tree.perform (Store.current f.documents) s'' t').1.map (·.configuration) =
            (Runner.tree.perform (Store.current f.documents) s'' t).1.map (·.configuration)) ∧
      (f.CopiesOntoItself t ∧ f.FailsToWrite c t →
        t'.standing? f.override = some (.file .empty)) ∧
      (f.suffix ≠ "" → '/' ∉ f.suffix.toList → ¬f.CopiesOntoItself t) := by
  have hsaves : Saves Runner.tree f.documents c t (.error e) t' := by
    cases Runner.tree.commits_of_perform f.documents herr with
    | failed hsaves hresident => exact hsaves
  have hsuffix : f.suffix ≠ "" → '/' ∉ f.suffix.toList → ¬f.CopiesOntoItself t :=
    not_copiesOntoItself ht
  rcases eq_or_exists_of_saves hsaves with
    ⟨rfl, hnot⟩ | ⟨hfails, base, t₁, t₂, r, hbase, hk, hw, hr⟩
  · exact ⟨rfl, fun _ ↦ ⟨rfl, fun _ _ ↦ rfl⟩, fun h ↦ absurd h.2 hnot, hsuffix⟩
  -- it has failed at the write, after a copy was kept and before it was put back
  · have hchanges : ChangesAt [f.override, f.backup, f.temporary] t t' := by
      have h₁ := changesAt_of_run f.within_backupOverride hk
      have h₂ := changesAt_of_run (f.within_writeOverride c.modifications) hw
      have h₃ := changesAt_of_run f.within_restoreOverride hr
      exact ((h₁.mono (by simp)).trans (h₂.mono (by simp))).trans (h₃.mono (by simp))
    have hlookup : t'.lookup f.base = t.lookup f.base :=
      lookup_eq_of_changesAt hchanges hapart hbase
    obtain ⟨hkept, hlost⟩ := standing?_of_restoreOverride ht hk hw hr
    refine ⟨hlookup, fun hnot ↦ ?_, fun h ↦ hlost h.1, hsuffix⟩
    have hstanding := hkept fun hcopies ↦ hnot ⟨hcopies, hfails⟩
    refine ⟨hstanding, fun s'' hs'' ↦ ?_⟩
    rw [map_configuration_current hs'', map_configuration_current hs'', loaded_eq hlookup hstanding]

/-- A file system with both documents in it, and with a directory where a new override would be
written aside. -/
def clutteredTree : FileTree where
  nodes := [(["base.kdl"], .file blank.text.toUTF8), (["override.kdl"], .file blank.text.toUTF8),
    (["override.kdl.tmp"], .directory)]

theorem rooted_clutteredTree : clutteredTree.Rooted := rooted_of_flat (by simp [clutteredTree])

/-- Its base document loads. -/
theorem run_load_clutteredTree :
    clutteredTree.run (load "base.kdl") = ({ result := .ok blank }, clutteredTree) := by
  have hbase : clutteredTree.locate "base.kdl" = .ok ["base.kdl"] := rfl
  have hnode : clutteredTree.node? ["base.kdl"] = some (.file blank.text.toUTF8) := rfl
  rw [run_load_of_node? hbase hnode, Document.ofText_text (by decide)]
  rfl

/-- The paths of the desk, with any suffix for the copy. -/
def deskWith (suffix : String) : DocumentFiles := { desk with suffix := suffix }

/-- No path that a commit writes leads to its base document, unless the suffix does. -/
theorem apart_deskWith {suffix : String}
    (hbackup : clutteredTree.locate (deskWith suffix).backup ≠ .ok ["base.kdl"]) :
    ∀ p ∈ [(deskWith suffix).override, (deskWith suffix).backup, (deskWith suffix).temporary],
      clutteredTree.Apart (deskWith suffix).base p := by
  have hbase : clutteredTree.locate "base.kdl" = .ok ["base.kdl"] := rfl
  have hoverride : clutteredTree.locate "override.kdl" = .ok ["override.kdl"] := rfl
  have htemporary : clutteredTree.locate desk.temporary = .ok ["override.kdl.tmp"] := rfl
  intro p hp place hplace
  obtain rfl : ["base.kdl"] = place := Except.ok.inj (hbase.symm.trans hplace)
  simp only [List.mem_cons, List.not_mem_nil, or_false] at hp
  rcases hp with rfl | rfl | rfl
  · exact fun h ↦ by simpa using hoverride.symm.trans h
  · exact hbackup
  · exact fun h ↦ by simpa using htemporary.symm.trans h

/-- An edit cannot be committed there even if the override can be copied aside. -/
theorem exists_commit_error_cluttered (suffix : String)
    (hk : (clutteredTree.run (deskWith suffix).backupOverride).1 = .ok ())
    (hw : ∃ e, ((clutteredTree.run (deskWith suffix).backupOverride).2.run
      ((deskWith suffix).writeOverride (adding "read").modifications)).1 = .error e) :
    (deskWith suffix).FailsToWrite (adding "read") clutteredTree ∧
      ∃ e s' t', Runner.tree.perform (Store.commit (deskWith suffix).documents (adding "read")) {}
        clutteredTree = (.error e, s', t') := by
  have ho : (adding "read").offence? = none := by decide
  have hb : Runner.tree.run (deskWith suffix).documents.loadBase clutteredTree =
      ({ result := .ok blank }, clutteredTree) := by
    have hload : (deskWith suffix).documents.loadBase = load "base.kdl" := rfl
    have hrun : Runner.tree.run (load "base.kdl") clutteredTree =
        clutteredTree.run (load "base.kdl") := rfl
    rw [hload, hrun, run_load_clutteredTree]
  rcases hk' : clutteredTree.run (deskWith suffix).backupOverride with ⟨r, t₁⟩
  rw [hk'] at hk hw
  obtain rfl : r = .ok () := hk
  obtain ⟨e, hw⟩ := hw
  rcases hw' : t₁.run ((deskWith suffix).writeOverride (adding "read").modifications)
    with ⟨r, t₂⟩
  rw [hw'] at hw
  obtain rfl : r = .error e := hw
  rcases hr : t₂.run (deskWith suffix).restoreOverride with ⟨r, t₃⟩
  have hsaves : Saves Runner.tree (deskWith suffix).documents (adding "read") clutteredTree
      (.error e) t₃ := .writeFailed ho hb rfl rfl hk' hw' hr
  obtain ⟨ns, hperform⟩ := Runner.tree.exists_perform_commit (deskWith suffix).documents hsaves {}
  exact ⟨failsToWrite_of_error ho hb rfl rfl hk' hw', e, _, _, hperform⟩

/-- The override is kept when it is copied to another path, and lost when it is copied
onto itself. -/
theorem intact_of_commit_error_cluttered :
    (∃ s' t', (∃ e, Runner.tree.perform (Store.commit (deskWith ".bak").documents (adding "read"))
        {} clutteredTree = (.error e, s', t')) ∧
      t'.standing? "override.kdl" = some (.file blank.text.toUTF8)) ∧
    ∃ s' t', (∃ e, Runner.tree.perform (Store.commit (deskWith "").documents (adding "read"))
        {} clutteredTree = (.error e, s', t')) ∧
      t'.standing? "override.kdl" = some (.file .empty) := by
  constructor
  · obtain ⟨-, e, s', t', herr⟩ := exists_commit_error_cluttered ".bak" rfl ⟨_, rfl⟩
    obtain ⟨-, hkept, -, hsuffix⟩ := intact_of_commit_error rooted_clutteredTree
      (apart_deskWith (by decide)) herr
    have hdifferent := hsuffix (by decide) (by decide)
    exact ⟨s', t', ⟨e, herr⟩, (hkept fun h ↦ hdifferent h.1).1⟩
  · obtain ⟨hfails, e, s', t', herr⟩ := exists_commit_error_cluttered "" rfl ⟨_, rfl⟩
    obtain ⟨-, -, hlost, -⟩ := intact_of_commit_error rooted_clutteredTree
      (apart_deskWith (by decide)) herr
    have hcopies : (deskWith "").CopiesOntoItself clutteredTree := by
      refine ⟨rfl, fun hapart ↦ ?_⟩
      exact hapart ["override.kdl"] rfl rfl
    exact ⟨s', t', ⟨e, herr⟩, hlost ⟨hcopies, hfails⟩⟩

end DocumentFiles

end LayeredRights
