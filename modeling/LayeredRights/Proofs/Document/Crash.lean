import LayeredRights.Proofs.Document.Intact
import LayeredRights.Proofs.File.Faults

/-!
# What a commit that is stopped leaves in the files

A commit may be stopped between any two of its steps, or in the midst of a write, and any of its
steps may fail before that (`DocumentFiles.stoppedCommit`). Loading changes nothing, keeping a copy
changes the file of the copy, and the write makes its file aside and moves it over the override in
one step. So up to the end of the write the override is what it was or the whole text of the
modifications.

Putting the copy back after a write that failed is another matter. It is a copy like the first: the
override is emptied and then written, with no file aside. Stopped there, it leaves the beginning of
a document (`DocumentFiles.whole_or_torn_of_stopped`), and this befalls every override that a commit
can get as far as writing over.

A look-up that fails is worse than a step that does. If the copy is not found the override is
removed, and if it is the override that was not found before the write, what is put back is a copy
that was kept earlier.
-/

namespace LayeredRights

/-! ### Where saving fails -/

section Steps

variable {m : Type → Type} [Monad m] {W : Type} {ρ : Runner m W} {d : Documents m}
  {c : Configuration} {w : W} {e : RightsError}

/-- All steps before the write have succeeded when the write is what fails. -/
theorem firstFailure?_eq_write_iff : firstFailure? ρ d c w = some (.write, e) ↔
    c.offence? = none ∧
      (∃ b, (ρ.run d.loadBase w).1.result = .ok b ∧ b.mode = c.mode) ∧
      (ρ.run d.backupOverride (ρ.run d.loadBase w).2).1 = .ok () ∧
      (ρ.run (d.writeOverride c.modifications)
        (ρ.run d.backupOverride (ρ.run d.loadBase w).2).2).1 = .error e := by
  simp only [firstFailure?, List.findSome?_cons, List.findSome?_nil, SavingStep.attempt]
  cases ho : c.offence? with
  | some o => simp
  | none =>
    cases hb : (ρ.run d.loadBase w).1.result with
    | error e' => simp
    | ok b =>
      by_cases hm : b.mode = c.mode
      · cases hk : (ρ.run d.backupOverride (ρ.run d.loadBase w).2).1 with
        | error e' => simp [hm]
        | ok _ =>
          cases hw : (ρ.run (d.writeOverride c.modifications)
              (ρ.run d.backupOverride (ρ.run d.loadBase w).2).2).1 with
          | error e' => simp [hm]
          | ok _ => simp [hm]
      · simp [hm]

end Steps

namespace DocumentFiles

open FileTree

variable {f : DocumentFiles} {c : Configuration} {d : Document} {t t' t₁ : FileTree}
  {xs : List Fate} {bytes : ByteArray}

/-- What a document comes to depends on what is read at its path and on whether reading it fails. -/
theorem endure_load (t : FileTree) (xs : List Fate) (path : String) :
    t.endure xs (load path) = (ofFile path (t.readAs path xs.head?), t, xs.tail) := by
  rw [load, FileJob.textOf, endure_bind, endure_bind]
  dsimp only [FileJob.bytesOf, endure]
  cases t.readAs path xs.head? with
  | error e => rfl
  | ok bytes =>
    dsimp only [ofFile]
    cases String.fromUTF8? bytes <;> rfl

/-- A document that is read in spite of all fates is the one that is there. -/
theorem result_load_of_endure {path : String}
    (h : (t.endure xs (load path)).1.result = .ok d) : (t.run (load path)).1.result = .ok d := by
  rw [endure_load] at h
  cases hread : t.readAs path xs.head? with
  | error e =>
    rw [hread] at h
    cases h
  | ok bytes =>
    rw [hread] at h
    rw [run_load, read_of_readAs hread]
    exact h

/-! ### What can be left of the override -/

/-- The override is what it was, or the whole text of a document. -/
def Whole (f : DocumentFiles) (d : Document) (t t' : FileTree) : Prop :=
  t'.standing? f.override = t.standing? f.override ∨
    t'.standing? f.override = some (.file d.text.toUTF8)

/-- The override holds the beginning of a file. -/
def Torn (f : DocumentFiles) (n : Option FileNode) (t' : FileTree) : Prop :=
  ∃ bytes k, n = some (.file bytes) ∧
    t'.standing? f.override = some (.file (bytes.extract 0 k))

/-! ### The write -/

/-- **A write leaves the override as it was, or writes it as a whole.** -/
theorem endure_writeOverride_cases (f : DocumentFiles) (d : Document) (t : FileTree)
    (xs : List Fate) :
    (∃ e, (t.endure xs (f.writeOverride d)).1 = .error e ∧
      ChangesAt [f.temporary] t (t.endure xs (f.writeOverride d)).2.1) ∨
    (t.endure xs (f.writeOverride d)).1 = .ok () ∧
      (t.endure xs (f.writeOverride d)).2.1.standing? f.override =
        some (.file d.text.toUTF8) := by
  rw [writeOverride, endure_bind]
  have hcases := endure_replace_cases t xs f.temporary f.override d.text.toUTF8
  rcases hrun : t.endure xs (FileJob.performAll [.create f.temporary,
    .append f.temporary d.text.toUTF8, .rename f.temporary f.override]) with ⟨r, t₁, ys⟩
  rw [hrun] at hcases
  obtain ⟨e, rfl, hchange⟩ | ⟨rfl, hwritten⟩ := hcases
  · dsimp only
    rw [endure_bind, endure_perform]
    exact .inl ⟨_, rfl, hchange.trans (changesAt_applyAs t₁ (.remove f.temporary) ys.head?)⟩
  · exact .inr ⟨rfl, hwritten⟩

/-! ### The copy -/

/-- A copy that is kept as long as the process goes on, with all look-ups made, is kept. -/
theorem run_backupOverride_of_endure {ys : List Fate} (hseen : Fate.unseen ∉ xs)
    (h : t.endure xs f.backupOverride = (.ok (), t', ys)) (hgoes : ys ≠ []) :
    t.run f.backupOverride = (.ok (), t') := by
  have hxs : xs ≠ [] := by
    rintro rfl
    exact hgoes ((congrArg (·.2.2) h).symm.trans (congrArg Prod.snd (t.endure_nil _)))
  rw [backupOverride, endure_bind, endure_isFile, probeAs_head? hseen hxs] at h
  rw [backupOverride, Runner.tree_run_bind, run_isFile]
  dsimp only at h ⊢
  by_cases hfile : t.probe f.override = some .file
  · rw [decide_eq_true hfile] at h ⊢
    simp only [if_true] at h ⊢
    have hcopies := copies_endure t f.override f.backup xs.tail
    rw [endure_bind] at h
    rcases hcopy : t.endure xs.tail (FileJob.copy f.override f.backup) with ⟨e | _, t₁, zs⟩
    · rw [hcopy] at h
      cases congrArg Prod.fst h
    · rw [hcopy] at h hcopies
      obtain rfl : t₁ = t' := congrArg (·.2.1) h
      rw [Runner.tree_run_bind, hcopies.run_eq]
      rfl
  -- no override, so a copy that was kept earlier is removed
  · rw [decide_eq_false hfile] at h ⊢
    simp only [Bool.false_eq_true, if_false] at h ⊢
    have htail : xs.tail ≠ [] := by
      intro htail
      rw [htail] at h
      exact hgoes ((congrArg (·.2.2) h).symm.trans (congrArg Prod.snd (t.endure_nil _)))
    have hseen' : Fate.unseen ∉ xs.tail := fun hmem ↦ hseen (List.mem_of_mem_tail hmem)
    have hexists : t.run (FileJob.exists? f.backup) = ((t.probe f.backup).isSome, t) := rfl
    rw [endure_bind, endure_exists?, probeAs_head? hseen' htail] at h
    rw [Runner.tree_run_bind, hexists]
    dsimp only at h ⊢
    cases hprobe : t.probe f.backup with
    | none =>
      rw [hprobe] at h
      obtain rfl : t = t' := congrArg (·.2.1) h
      rfl
    | some kind =>
      rw [hprobe] at h
      simp only [Option.isSome_some, if_true] at h ⊢
      rw [endure_bind, endure_perform] at h
      rcases hremove : t.applyAs (.remove f.backup) xs.tail.tail.head? with ⟨e | _, t₁⟩
      · rw [hremove] at h
        cases congrArg Prod.fst h
      · rw [hremove] at h
        obtain rfl : t₁ = t' := congrArg (·.2.1) h
        rw [Runner.tree_run_bind, run_perform, apply_of_applyAs hremove]
        rfl

/-- A file is copied aside exactly where one can be written. -/
theorem exists_run_backupOverride_iff (hfile : t.probe f.override = some .file) :
    (∃ t', t.run f.backupOverride = (.ok (), t')) ↔ ∃ place, t.target f.backup = .ok place := by
  rw [backupOverride, Runner.tree_run_bind, run_isFile, decide_eq_true hfile]
  simp only [if_true]
  rw [Runner.tree_run_bind]
  cases htarget : t.target f.backup with
  | error e =>
    rw [run_copy_of_target_error hfile htarget]
    refine iff_of_false ?_ ?_
    · rintro ⟨_, h⟩
      cases congrArg Prod.fst h
    · rintro ⟨_, h⟩
      cases h
  | ok place =>
    obtain ⟨p, bytes, hlocate, hnode⟩ := probe_eq_file_iff.1 hfile
    obtain ⟨t', hcopy, -⟩ := exists_run_copy hlocate hnode htarget
    rw [hcopy]
    exact iff_of_true ⟨t', rfl⟩ ⟨place, rfl⟩

/-- **Putting the copy back may end anywhere**: with the override as it is, with the beginning of
the copy in its place, or with an override gone that has no copy. -/
theorem endure_restoreOverride_cases (hapart : t.Apart f.backup f.override) (xs : List Fate) :
    let t' := (t.endure xs f.restoreOverride).2.1
    t'.standing? f.override = t.standing? f.override ∨
      f.Torn (t.standing? f.backup) t' ∨
      t'.standing? f.override = none ∧ t.probe f.override = some .file ∧
        (.unseen ∉ xs → t.probe f.backup ≠ some .file) := by
  rw [restoreOverride, endure_bind, endure_isFile]
  dsimp only
  by_cases hcopy : t.probeAs f.backup xs.head? = some .file
  · rw [decide_eq_true hcopy]
    simp only [if_true]
    rw [endure_bind]
    exact ((copies_endure t f.backup f.override xs.tail).standing? hapart).imp_right .inl
  · rw [decide_eq_false hcopy]
    simp only [Bool.false_eq_true, if_false]
    rw [endure_bind, endure_isFile]
    dsimp only
    by_cases hfile : t.probeAs f.override xs.tail.head? = some .file
    · rw [decide_eq_true hfile]
      simp only [if_true]
      rw [endure_bind, endure_perform]
      rcases hremove : t.applyAs (.remove f.override) xs.tail.tail.head? with ⟨e | _, t₁⟩
      · obtain rfl : t₁ = t := eq_of_applyAs_error (by simp) hremove
        exact .inl rfl
      · have hstanding := probe_of_probeAs hfile
        obtain ⟨place, bytes, hlocate, hnode⟩ := probe_eq_file_iff.1 hstanding
        obtain ⟨hrun, hreplaced⟩ := run_remove_of_file hlocate hnode
        obtain rfl : t.clear place = t₁ :=
          congrArg Prod.snd (hrun.symm.trans (apply_of_applyAs hremove))
        refine .inr (.inr ⟨?_, hstanding, fun hseen hbackup ↦ ?_⟩)
        · show (t.clear place).standing? f.override = none
          rw [standing?, lookup, hreplaced.directories.locate_iff.2 hlocate]
          simp only [hreplaced.here]
          rfl
        · have hxs : xs ≠ [] := by
            rintro rfl
            cases hfile
          exact hcopy ((probeAs_head? hseen hxs).trans hbackup)
    · rw [decide_eq_false hfile]
      exact .inl rfl

/-- When the copy is put back and its last write fails, a part of it is all there is. -/
theorem endure_restoreOverride_failed (hapart : t.Apart f.backup f.override)
    (hbackup : t.standing? f.backup = some (.file bytes))
    (hcreate : t.apply (.create f.override) = (.ok (), t₁)) (k : Nat) :
    (t.endure [.made, .made, .made, .made, .failed k .notFound] f.restoreOverride).2.1 =
      (t₁.apply (.append f.override (bytes.extract 0 k))).2 := by
  have hfile : t.probe f.backup = some .file := by
    rw [probe_eq_map_standing?, hbackup]
    rfl
  have hread := (read_of_apply_create hapart hcreate).2 hbackup
  rw [restoreOverride, endure_bind, endure_isFile]
  simp only [List.head?_cons, List.tail_cons, probeAs, hfile, decide_true, if_true]
  rw [endure_bind, FileJob.copy, endure_bind]
  dsimp only [FileJob.kindAt, endure, List.head?_cons, List.tail_cons, probeAs]
  rw [hfile]
  dsimp only
  rw [endure_bind, endure_perform]
  dsimp only [List.head?_cons, List.tail_cons, applyAs]
  rw [hcreate]
  dsimp only
  rw [endure_bind]
  dsimp only [FileJob.bytesOf, endure, List.head?_cons, List.tail_cons, readAs]
  rw [hread]
  rfl

/-! ### Commits that are stopped -/

/-- Saving loads the base document first, which is one step. -/
theorem snd_run_loadBase (f : DocumentFiles) (t : FileTree) (xs : List Fate) :
    (Runner.faulty.run f.documents.loadBase (t, xs)).2 = (t, xs.tail) :=
  congrArg Prod.snd (endure_load t xs f.base)

/-- That leaves all files alone. -/
theorem fst_eq_of_run_loadBase {b : Reported Document} {w w' : FileTree × List Fate}
    (h : Runner.faulty.run f.documents.loadBase w = (b, w')) : w'.1 = w.1 := by
  have hw : w' = (w.1, w.2.tail) :=
    (congrArg Prod.snd h).symm.trans (snd_run_loadBase f w.1 w.2)
  rw [hw]

/-- Whatever befalls a load, it leaves all files alone. -/
theorem fst_eq_of_loads {w w' : FileTree × List Fate} {r : Except RightsError Configuration}
    (h : Loads Runner.faulty f.documents w r w') : w'.1 = w.1 := by
  have hlayer : ∀ {w₁ l w₂}, Runner.faulty.run f.documents.loadOverride w₁ = (l, w₂) →
      w₂.1 = w₁.1 := by
    intro w₁ l w₂ hl
    rw [← endure_eq_of_within_nil f.within_loadOverride w₁.1 w₁.2]
    exact congrArg (·.2.1) hl.symm
  cases h with
  | baseFailed hb he => exact fst_eq_of_run_loadBase hb
  | overrideFailed hb hbok hl he => exact (hlayer hl).trans (fst_eq_of_run_loadBase hb)
  | conflict hb hbok hl hlok hm => exact (hlayer hl).trans (fst_eq_of_run_loadBase hb)
  | merged hb hbok hl hlok hm => exact (hlayer hl).trans (fst_eq_of_run_loadBase hb)

/-- The files when the write of a commit has come to its end, with the fates that are left. -/
def afterWrite (f : DocumentFiles) (c : Configuration) (w : FileTree × List Fate) :
    FileTree × List Fate :=
  let copied := Runner.faulty.run f.documents.backupOverride
    (Runner.faulty.run f.documents.loadBase w).2
  (Runner.faulty.run (f.documents.writeOverride c.modifications) copied.2).2

/-- The write of a commit fails, and the process goes on to put the copy back. -/
structure PutsBack (f : DocumentFiles) (c : Configuration) (t : FileTree) (xs : List Fate) :
    Prop where
  fails : ∃ e, firstFailure? Runner.faulty f.documents c (t, xs) = some (.write, e)
  goesOn : (f.afterWrite c (t, xs)).2 ≠ []

/-- A write that fails has changed nothing but the file aside. -/
theorem changesAt_afterWrite {e : RightsError}
    (h : firstFailure? Runner.faulty f.documents c (t, xs) = some (.write, e)) :
    ChangesAt [f.temporary] (t.endure xs.tail f.backupOverride).2.1 (f.afterWrite c (t, xs)).1 := by
  obtain ⟨-, -, -, herror⟩ := firstFailure?_eq_write_iff.1 h
  rw [snd_run_loadBase] at herror
  rw [afterWrite, snd_run_loadBase]
  obtain ⟨_, -, hchange⟩ | ⟨hok, -⟩ := endure_writeOverride_cases f c.modifications
    (t.endure xs.tail f.backupOverride).2.1 (t.endure xs.tail f.backupOverride).2.2
  · exact hchange
  · cases hok.symm.trans herror

/-- The fates that are left for the way back are the last ones. -/
theorem suffix_afterWrite (f : DocumentFiles) (c : Configuration) (t : FileTree)
    (xs : List Fate) : (f.afterWrite c (t, xs)).2 <:+ xs := by
  rw [afterWrite, snd_run_loadBase]
  exact (suffix_endure _ _ (f.writeOverride c.modifications)).trans
    ((suffix_endure t xs.tail f.backupOverride).trans (List.tail_suffix xs))

/-- The copy that is to be put back has been kept. -/
theorem PutsBack.run_backupOverride (h : f.PutsBack c t xs) (hseen : .unseen ∉ xs) :
    t.run f.backupOverride = (.ok (), (t.endure xs.tail f.backupOverride).2.1) := by
  obtain ⟨e, hfails⟩ := h.fails
  obtain ⟨-, -, hok, -⟩ := firstFailure?_eq_write_iff.1 hfails
  have hgoes := h.goesOn
  rw [snd_run_loadBase] at hok
  rw [afterWrite, snd_run_loadBase] at hgoes
  rcases hk : t.endure xs.tail f.backupOverride with ⟨r, t₁, ys⟩
  have hbackup : Runner.faulty.run f.documents.backupOverride (t, xs.tail) = (r, t₁, ys) := hk
  rw [hbackup] at hok hgoes
  obtain rfl : r = .ok () := hok
  refine run_backupOverride_of_endure (fun hmem ↦ hseen (List.mem_of_mem_tail hmem)) hk ?_
  rintro rfl
  exact hgoes (List.suffix_nil.1 (suffix_endure t₁ [] (f.writeOverride c.modifications)))

/-- A file at the override can be lost to a commit that gets as far as writing. -/
structure AtRisk (f : DocumentFiles) (c : Configuration) (t : FileTree) : Prop where
  lawful : c.offence? = none
  agrees : ∃ b, (t.run (load f.base)).1.result = .ok b ∧ b.mode = c.mode
  copied : ∃ place, t.target f.backup = .ok place
  written : ∃ bytes, bytes ≠ .empty ∧ t.standing? f.override = some (.file bytes)

/-- The three paths that saving writes to lead to different places. -/
structure PathsApart (f : DocumentFiles) (t : FileTree) : Prop where
  backup : t.Apart f.override f.backup
  temporary : t.Apart f.override f.temporary
  others : t.Apart f.backup f.temporary

/-- Saving makes and removes no directories, so it leaves them apart. -/
theorem PathsApart.of_changesAt {paths : List String} (h : f.PathsApart t)
    (hchange : ChangesAt paths t t') : f.PathsApart t' where
  backup := hchange.directories.apart h.backup
  temporary := hchange.directories.apart h.temporary
  others := hchange.directories.apart h.others

/-- The files as they are left by a commit that is stopped when its fates are used up. -/
def stoppedCommit (f : DocumentFiles) (c : Configuration) (s : Store) (t : FileTree)
    (xs : List Fate) : FileTree :=
  t.stopped xs ((Store.commit f.documents c).run.run s)

/-- What is in the files when a commit is stopped is what saving has left there. -/
theorem stoppedCommit_of_saves {r : Except RightsError Document} {w' : FileTree × List Fate}
    (h : Saves Runner.faulty f.documents c (t, xs) r w') (s : Store) :
    f.stoppedCommit c s t xs = w'.1 := by
  rw [stoppedCommit, ← Runner.snd_perform_faulty]
  obtain ⟨ns, hcommit⟩ := Runner.faulty.exists_perform_commit f.documents h s
  cases r with
  | error e => rw [hcommit]
  | ok base =>
    obtain ⟨l, w'', hloads, hperform⟩ := hcommit
    rw [hperform, ← fst_eq_of_loads hloads]
    cases l <;> rfl

/-- The text of a document is not empty. -/
theorem toUTF8_text_ne_empty (d : Document) : d.text.toUTF8 ≠ .empty := by
  intro hempty
  have htext : d.text = "" := String.toByteArray_inj.1 hempty
  have hline : d.text.toList ≠ [] := by
    simp [Document.text, Document.nodes, Kdl.writeDocument, Kdl.writeNodes, stringNode,
      Kdl.Node.write]
  exact hline (by rw [htext]; rfl)

/-- **Whatever is to befall the way back, a commit comes to it**: all goes well up to the write,
which fails at once. -/
theorem AtRisk.exists_stoppedCommit (h : f.AtRisk c t)
    (hk : t.run f.backupOverride = (.ok (), t₁)) (s : Store) (restoring : List Fate) :
    ∃ xs, (.unseen ∈ xs → .unseen ∈ restoring) ∧
      f.stoppedCommit c s t xs = (t₁.endure restoring f.restoreOverride).2.1 := by
  obtain ⟨b, hb, hm⟩ := h.agrees
  obtain ⟨m, hmade⟩ := exists_endure_made t f.backupOverride
  rw [hk] at hmade
  let writing : List Fate := .failed 0 .notFound :: .failed 0 .notFound :: restoring
  refine ⟨.made :: (List.replicate m .made ++ writing), by simp [writing], ?_⟩
  have hload : Runner.faulty.run f.documents.loadBase
      (t, .made :: (List.replicate m .made ++ writing)) =
        ((t.run (load f.base)).1, t, List.replicate m .made ++ writing) := by
    rw [run_load]
    exact endure_load t _ f.base
  have hwrite : Runner.faulty.run (f.documents.writeOverride c.modifications) (t₁, writing) =
      (.error (.persist (.writing f.override) (some .notFound)), t₁, restoring) := rfl
  rcases hr : Runner.faulty.run f.documents.restoreOverride (t₁, restoring) with ⟨r, t', ys⟩
  rw [stoppedCommit_of_saves (.writeFailed h.lawful hload hb hm (hmade writing) hwrite hr)]
  exact (congrArg (·.2.1) hr).symm

section Paths

variable (hpaths : f.PathsApart t)
include hpaths

/-- The override has not been touched when its write fails. -/
theorem standing?_override_afterWrite {e : RightsError}
    (h : firstFailure? Runner.faulty f.documents c (t, xs) = some (.write, e)) :
    (f.afterWrite c (t, xs)).1.standing? f.override = t.standing? f.override := by
  have hcopied := changesAt_endure f.within_backupOverride t xs.tail
  rw [(changesAt_afterWrite h).standing?_eq (hpaths.of_changesAt hcopied).temporary,
    hcopied.standing?_eq hpaths.backup]

/-- What is put back is the override, if nothing has been overlooked. -/
theorem PutsBack.standing?_copy_iff (h : f.PutsBack c t xs) (hseen : .unseen ∉ xs) :
    (f.afterWrite c (t, xs)).1.standing? f.backup = some (.file bytes) ↔
      t.standing? f.override = some (.file bytes) := by
  obtain ⟨e, hfails⟩ := h.fails
  have hcopied := changesAt_endure f.within_backupOverride t xs.tail
  rw [(changesAt_afterWrite hfails).standing?_eq (hpaths.of_changesAt hcopied).others]
  exact standing?_backup_iff hpaths.backup (h.run_backupOverride hseen)

/-- **What the way back leaves**, with the fates that are left for it. -/
theorem PutsBack.same_or_torn (h : f.PutsBack c t xs) :
    let t' := ((f.afterWrite c (t, xs)).1.endure (f.afterWrite c (t, xs)).2 f.restoreOverride).2.1
    t'.standing? f.override = t.standing? f.override ∨
      (t'.standing? f.override = none ∨
        f.Torn ((f.afterWrite c (t, xs)).1.standing? f.backup) t') ∧
      (.unseen ∉ xs → f.Torn (t.standing? f.override) t') := by
  obtain ⟨e, hfails⟩ := h.fails
  have hkept := standing?_override_afterWrite hpaths hfails
  have hpaths' := (hpaths.of_changesAt
    (changesAt_endure f.within_backupOverride t xs.tail)).of_changesAt (changesAt_afterWrite hfails)
  obtain hsame | htorn | ⟨hnone, hfile, hlost⟩ :=
    endure_restoreOverride_cases hpaths'.backup.symm (f.afterWrite c (t, xs)).2
  · exact .inl (hsame.trans hkept)
  · refine .inr ⟨.inr htorn, fun hseen ↦ ?_⟩
    obtain ⟨bytes, k, hbytes, htorn⟩ := htorn
    exact ⟨bytes, k, (h.standing?_copy_iff hpaths hseen).1 hbytes, htorn⟩
  · refine .inr ⟨.inl hnone, fun hseen ↦ ?_⟩
    -- without a look-up that fails there is a copy whenever there is an override
    obtain ⟨place, bytes, hlocate, hnode⟩ := probe_eq_file_iff.1 hfile
    have hbackup := (h.standing?_copy_iff hpaths hseen).2
      (hkept ▸ standing?_eq_some_iff.2 ⟨place, hlocate, hnode⟩)
    refine absurd ?_ (hlost fun hmem ↦ hseen ((suffix_afterWrite f c t xs).subset hmem))
    rw [probe_eq_map_standing?, hbackup]
    rfl

/-- **What saving leaves, whatever befalls it.** Only putting the copy back can leave the override
in pieces. -/
theorem whole_or_torn_of_saves {r : Except RightsError Document} {ys : List Fate}
    (h : Saves Runner.faulty f.documents c (t, xs) r (t', ys)) :
    f.Whole c.modifications t t' ∨ f.PutsBack c t xs ∧
      (t'.standing? f.override = none ∨
        f.Torn ((f.afterWrite c (t, xs)).1.standing? f.backup) t') ∧
      (.unseen ∉ xs → f.Torn (t.standing? f.override) t') := by
  cases h with
  | refused ho => exact .inl (.inl rfl)
  | baseFailed ho hb he =>
    obtain rfl : t' = t := fst_eq_of_run_loadBase hb
    exact .inl (.inl rfl)
  | conflict ho hb hbok hm =>
    obtain rfl : t' = t := fst_eq_of_run_loadBase hb
    exact .inl (.inl rfl)
  | @backupFailed b base w₁ e _ ho hb hbok hm hk =>
    obtain ⟨t₁, zs⟩ := w₁
    obtain rfl : t₁ = t := fst_eq_of_run_loadBase hb
    obtain rfl : (t₁.endure zs f.backupOverride).2.1 = t' := congrArg (·.2.1) hk
    have hcopied := changesAt_endure f.within_backupOverride t₁ zs
    exact .inl (.inl (hcopied.standing?_eq hpaths.backup))
  | @written b base w₁ w₂ _ ho hb hbok hm hk hw =>
    obtain ⟨e, herror, -⟩ | ⟨-, hwritten⟩ :=
      endure_writeOverride_cases f c.modifications w₂.1 w₂.2
    · cases herror.symm.trans (congrArg Prod.fst hw)
    · obtain rfl : (w₂.1.endure w₂.2 (f.writeOverride c.modifications)).2.1 = t' :=
        congrArg (·.2.1) hw
      exact .inl (.inr hwritten)
  | @writeFailed b base w₁ w₂ w₃ e r' _ ho hb hbok hm hk hw hr =>
    have hfails : firstFailure? Runner.faulty f.documents c (t, xs) = some (.write, e) := by
      refine firstFailure?_eq_write_iff.2 ⟨ho, ⟨base, ?_, hm⟩, ?_, ?_⟩
      · rw [hb, hbok]
      · rw [hb, hk]
      · rw [hb, hk, hw]
    obtain rfl : f.afterWrite c (t, xs) = w₃ := by simp only [afterWrite, hb, hk, hw]
    obtain rfl : ((f.afterWrite c (t, xs)).1.endure (f.afterWrite c (t, xs)).2
        f.restoreOverride).2.1 = t' := congrArg (·.2.1) hr
    -- if no fate is left, the process was stopped before the copy was put back
    by_cases hgoes : (f.afterWrite c (t, xs)).2 = []
    · rw [hgoes, endure_nil]
      exact .inl (.inl (standing?_override_afterWrite hpaths hfails))
    · have hputs : f.PutsBack c t xs := ⟨⟨e, hfails⟩, hgoes⟩
      exact (hputs.same_or_torn hpaths).imp .inl fun htorn ↦ ⟨hputs, htorn⟩

/-- Nothing is at risk but a file, and only where saving gets as far as writing. -/
theorem atRisk_of_not_whole (hseen : .unseen ∉ xs) {s : Store}
    (h : ¬f.Whole c.modifications t (f.stoppedCommit c s t xs)) : f.AtRisk c t := by
  obtain ⟨r, ⟨t', ys⟩, hsaves⟩ := Runner.faulty.exists_saves f.documents c (t, xs)
  rw [stoppedCommit_of_saves hsaves] at h
  obtain hwhole | ⟨hputs, -, htorn⟩ := whole_or_torn_of_saves hpaths hsaves
  · exact absurd hwhole h
  obtain ⟨bytes, k, hbytes, htorn⟩ := htorn hseen
  obtain ⟨e, hfails⟩ := hputs.fails
  obtain ⟨ho, ⟨b, hb, hm⟩, hk, -⟩ := firstFailure?_eq_write_iff.1 hfails
  refine ⟨ho, ⟨b, result_load_of_endure hb, hm⟩, ?_, ⟨bytes, ?_, hbytes⟩⟩
  · refine (exists_run_backupOverride_iff ?_).1 ⟨_, hputs.run_backupOverride hseen⟩
    rw [probe_eq_map_standing?, hbytes]
    rfl
  -- an empty override has no beginning but itself
  · rintro rfl
    refine h (.inl ?_)
    have hempty : ByteArray.empty.extract 0 k = .empty := by simp
    rw [htorn, hbytes, hempty]

/-- **A file at risk can be cut anywhere**: the write fails, and the process is stopped while the
copy is put back. -/
theorem AtRisk.exists_torn (h : f.AtRisk c t) (ht : t.Rooted)
    (hfile : t.standing? f.override = some (.file bytes)) (s : Store) (k : Nat) :
    ∃ xs, .unseen ∉ xs ∧ (f.stoppedCommit c s t xs).standing? f.override =
      some (.file (bytes.extract 0 k)) := by
  have hprobe : t.probe f.override = some .file := by
    rw [probe_eq_map_standing?, hfile]
    rfl
  obtain ⟨t₁, hk⟩ := (exists_run_backupOverride_iff hprobe).2 h.copied
  have hcopied := changesAt_of_run f.within_backupOverride hk
  have hcopy := (standing?_backup_iff hpaths.backup hk).2 hfile
  obtain ⟨t₂, hcreate⟩ := exists_apply_create_of_standing ht hcopied.directories hfile
  obtain ⟨xs, hseen, hstopped⟩ :=
    h.exists_stoppedCommit hk s [.made, .made, .made, .made, .failed k .notFound]
  refine ⟨xs, fun hmem ↦ by simpa using hseen hmem, ?_⟩
  rw [hstopped,
    endure_restoreOverride_failed (hpaths.of_changesAt hcopied).backup.symm hcopy hcreate]
  exact standing?_apply_append hcreate _

end Paths

/-- **Only the way back can tear the override.** At every moment of a commit, whatever steps of it
have failed, the override is what it was or the whole text of the modifications, unless the write
has failed and the copy is being put back. Then it can be gone, or be the beginning of what stands
at the copy's path; and if no look-up has failed it is the beginning of what it was. That it is not
whole happens to files that a commit gets as far as writing over, and to these it happens at each of
their bytes. -/
theorem whole_or_torn_of_stopped (ht : t.Rooted) (hpaths : f.PathsApart t) (c : Configuration)
    (s : Store) :
    (∀ xs, f.Whole c.modifications t (f.stoppedCommit c s t xs) ∨
      f.PutsBack c t xs ∧
        ((f.stoppedCommit c s t xs).standing? f.override = none ∨
          f.Torn ((f.afterWrite c (t, xs)).1.standing? f.backup) (f.stoppedCommit c s t xs)) ∧
        (.unseen ∉ xs → f.Torn (t.standing? f.override) (f.stoppedCommit c s t xs))) ∧
    ((∃ xs, .unseen ∉ xs ∧ ¬f.Whole c.modifications t (f.stoppedCommit c s t xs)) ↔
      f.AtRisk c t) ∧
    (f.AtRisk c t → ∀ bytes, t.standing? f.override = some (.file bytes) → ∀ k,
      ∃ xs, .unseen ∉ xs ∧ (f.stoppedCommit c s t xs).standing? f.override =
        some (.file (bytes.extract 0 k))) := by
  refine ⟨fun xs ↦ ?_, ⟨?_, fun h ↦ ?_⟩, fun h bytes hbytes k ↦ h.exists_torn hpaths ht hbytes s k⟩
  · obtain ⟨r, ⟨t', ys⟩, hsaves⟩ := Runner.faulty.exists_saves f.documents c (t, xs)
    rw [stoppedCommit_of_saves hsaves]
    exact whole_or_torn_of_saves hpaths hsaves
  · rintro ⟨xs, hseen, h⟩
    exact atRisk_of_not_whole hpaths hseen h
  · obtain ⟨bytes, hne, hbytes⟩ := h.written
    obtain ⟨xs, hseen, htorn⟩ := h.exists_torn hpaths ht hbytes s 0
    refine ⟨xs, hseen, ?_⟩
    rw [ByteArray.extract_same] at htorn
    rintro (hsame | hwhole)
    · rw [htorn, hbytes] at hsame
      cases hsame
      exact hne rfl
    · rw [htorn] at hwhole
      exact toUTF8_text_ne_empty c.modifications
        (FileNode.file.inj (Option.some.inj hwhole)).symm

/-- An override is cut down to its first word. -/
theorem whole_or_torn_of_stopped_cluttered : ∃ xs, .unseen ∉ xs ∧
    ((deskWith ".bak").stoppedCommit (adding "read") {} clutteredTree xs).standing?
      "override.kdl" = some (.file "mode".toUTF8) := by
  have hoverride : clutteredTree.locate "override.kdl" = .ok ["override.kdl"] := rfl
  have hbackup : clutteredTree.locate (deskWith ".bak").backup = .ok ["override.kdl.bak"] := rfl
  have htemporary :
    clutteredTree.locate (deskWith ".bak").temporary = .ok ["override.kdl.tmp"] := rfl
  have hpaths : (deskWith ".bak").PathsApart clutteredTree :=
    ⟨apart_of_locate hoverride hbackup (by decide),
      apart_of_locate hoverride htemporary (by decide),
      apart_of_locate hbackup htemporary (by decide)⟩
  have hload : (clutteredTree.run (load "base.kdl")).1.result = .ok blank := by
    rw [run_load_clutteredTree]
  have hrisk : (deskWith ".bak").AtRisk (adding "read") clutteredTree :=
    ⟨by decide, ⟨blank, hload, rfl⟩, ⟨_, rfl⟩, ⟨_, toUTF8_text_ne_empty blank, rfl⟩⟩
  exact (whole_or_torn_of_stopped rooted_clutteredTree hpaths (adding "read") {}).2.2 hrisk
    blank.text.toUTF8 rfl 4

end DocumentFiles

end LayeredRights
