import LayeredRights.Proofs.Document.Intact
import LayeredRights.Proofs.File.Faults

/-!
# Putting the override back after any damage

After the override has been copied aside, files may come and go and be written over, the override
among them, any number of times. As long as the copy is left alone, putting it back succeeds and
makes of the override what it was, be it a document, any other bytes or nothing at all
(`DocumentFiles.restoreOverride_undoes`). Doing it again makes no difference.

Whether there was an override is told from whether there is a copy. That is sound because a copy
that was kept earlier does not outlast `backupOverride`. It is written over or removed, so that what
it held does not matter.

Two assumptions are made. The paths have to be apart, since a copy that is the override would be
lost with it. And the damage may not touch directories or the copy. It need not be the work of a
program, so nothing is said of how the tree came about: it has the same directories as before, and
the same stands at the path of the copy.
-/

namespace LayeredRights

namespace DocumentFiles

open FileTree

variable {f : DocumentFiles} {t t₁ t₂ : FileTree} {q : List String} {n : List Char}
  {bytes : ByteArray}

/-! ### What is put back -/

/-- A copy that is another file is put back as a whole. -/
theorem exists_run_restoreOverride_of_copy (hl : t.Located f.override q n)
    (hfree : t.node? (q ++ [String.ofList n]) ≠ some .directory)
    (hapart : t.Apart f.override f.backup) (hcopy : t.standing? f.backup = some (.file bytes)) :
    ∃ t', t.run f.restoreOverride = (.ok (), t') ∧
      t.Replaced t' (q ++ [String.ofList n]) (some (.file bytes)) := by
  obtain ⟨place, hplace, hnode⟩ := standing?_eq_some_iff.1 hcopy
  obtain ⟨t', hrun, hreplaced⟩ := exists_run_restoreOverride hl hfree hplace hnode
  have hne : q ++ [String.ofList n] ≠ place := by
    rintro rfl
    exact hapart _ hl.locate_self hplace
  rw [if_neg hne] at hreplaced
  exact ⟨t', hrun, hreplaced⟩

/-- Where no copy is, an override is removed. -/
theorem exists_run_restoreOverride_of_no_copy (hcopy : t.probe f.backup ≠ some .file) :
    ∃ t', t.run f.restoreOverride = (.ok (), t') ∧ t.Cleared t' ∧
      t'.probe f.override ≠ some .file := by
  rw [restoreOverride, Runner.tree_run_bind, run_isFile, decide_eq_false hcopy]
  simp only [Bool.false_eq_true, if_false]
  rw [Runner.tree_run_bind, run_isFile]
  by_cases hfile : t.probe f.override = some .file
  · obtain ⟨place, bytes, hlocate, hnode⟩ := probe_eq_file_iff.1 hfile
    obtain ⟨hremove, hreplaced⟩ := run_remove_of_file hlocate hnode
    refine ⟨t.clear place, ?_, hreplaced.cleared, ?_⟩
    · simp only [hfile, decide_true, if_true]
      rw [Runner.tree_run_bind, hremove]
      rfl
    · rw [probe, lookup, hreplaced.directories.locate_iff.2 hlocate]
      simp [hreplaced.here]
  · refine ⟨t, ?_, .refl t, hfile⟩
    simp only [hfile, decide_false, Bool.false_eq_true, if_false]
    rfl

/-- What is put in one place twice might as well have been put there once. -/
theorem changesAt_nil_of_replaced {place : List String} {node : Option FileNode}
    (h : t.Replaced t₁ place node) (h' : t₁.Replaced t₂ place node) : ChangesAt [] t₁ t₂ where
  directories := h'.directories
  node? p _ := by
    by_cases hp : p = place
    · rw [hp, h.here, h'.here]
    · exact h'.elsewhere p hp

/-! ### There and back -/

/-- **Putting the override back undoes any damage** that has been done since it was copied aside,
whatever the override and an earlier copy were, and as often as one likes. Directories and the copy
have to be what they were, other files need not. -/
theorem restoreOverride_undoes (ht : t.Rooted) (hapart : t.Apart f.override f.backup)
    (hbackup : t.run f.backupOverride = (.ok (), t₁)) (hdirectories : t₁.SameDirectories t₂)
    (hcopy : t₂.standing? f.backup = t₁.standing? f.backup) :
    ∃ t₃, t₂.run f.restoreOverride = (.ok (), t₃) ∧
      t₃.standing? f.override = t.standing? f.override ∧
      ∃ t₄, t₃.run f.restoreOverride = (.ok (), t₄) ∧ ChangesAt [] t₃ t₄ := by
  by_cases hfile : t.probe f.override = some .file
  · obtain ⟨p, bytes, hlocate, hnode⟩ := probe_eq_file_iff.1 hfile
    obtain ⟨q, n, hl, rfl⟩ := exists_located ht hlocate hnode
    have hstanding := standing?_eq_some_iff.2 ⟨_, hlocate, hnode⟩
    have hkept := (standing?_backup_iff hapart hbackup).2 hstanding
    have h₂ : t.SameDirectories t₂ :=
      (changesAt_of_run f.within_backupOverride hbackup).directories.trans hdirectories
    have hfree : t₂.node? (q ++ [String.ofList n]) ≠ some .directory := by
      rw [ne_eq, h₂.directory, hnode]
      simp
    obtain ⟨t₃, hrestored, hback⟩ := exists_run_restoreOverride_of_copy
      (hl.of_sameDirectories h₂) hfree (h₂.apart hapart) (hcopy.trans hkept)
    -- the copy is another file, so it is there to be put back again
    have h₃ : t.SameDirectories t₃ := h₂.trans hback.directories
    have hcopy₃ : t₃.standing? f.backup = some (.file bytes) := by
      have hchange := changesAt_of_run f.within_restoreOverride hrestored
      rw [hchange.standing?_eq (h₂.apart hapart).symm, hcopy, hkept]
    obtain ⟨t₄, hagain, hback'⟩ := exists_run_restoreOverride_of_copy
      (hl.of_sameDirectories h₃) (by simp [hback.here]) (h₃.apart hapart) hcopy₃
    refine ⟨t₃, hrestored, ?_, t₄, hagain, changesAt_nil_of_replaced hback hback'⟩
    rw [hstanding, standing?_eq_some_iff]
    exact ⟨_, h₃.locate_iff.2 hlocate, hback.here⟩
  -- no override was there, so after the backup no copy is
  · obtain ⟨_, hfail⟩ | ⟨t₁', hcleared, hkept, hnone⟩ := run_backupOverride_of_ne_file hfile
    · cases hfail.symm.trans hbackup
    obtain rfl : t₁' = t₁ := congrArg Prod.snd (hcleared.symm.trans hbackup)
    have hnone₂ : t₂.probe f.backup ≠ some .file := by
      rwa [probe_eq_map_standing?, hcopy, ← probe_eq_map_standing?]
    obtain ⟨t₃, hrestored, hremoved, hgone⟩ := exists_run_restoreOverride_of_no_copy hnone₂
    obtain ⟨t₄, hagain, -, -⟩ :=
      exists_run_restoreOverride_of_no_copy (hremoved.probe_ne_file hnone₂)
    have hsame : t.SameDirectories t₃ :=
      (hkept.directories.trans hdirectories).trans hremoved.directories
    refine ⟨t₃, hrestored, hsame.standing?_eq hfile hgone, t₄, hagain, ?_⟩
    have hend := run_restoreOverride_of_ne_file (hremoved.probe_ne_file hnone₂) hgone
    rw [hagain] at hend
    obtain rfl : t₄ = t₃ := hend
    exact .refl [] t₄

/-- The desk with a copy of an earlier override, and with this at the place of the override. -/
def staleTree (node : Option FileNode) : FileTree where
  nodes := (node.map fun n ↦ (["override.kdl"], n)).toList ++
    [(["base.kdl"], .file blank.text.toUTF8), (["override.kdl.bak"], .file "stale".toUTF8)]

theorem rooted_staleTree (node : Option FileNode) : (staleTree node).Rooted :=
  rooted_of_flat (by cases node <;> simp [staleTree])

theorem apart_staleTree (node : Option FileNode) :
    (staleTree node).Apart desk.override desk.backup := by
  have hoverride : (staleTree node).locate desk.override = .ok ["override.kdl"] := rfl
  have hbackup : (staleTree node).locate desk.backup = .ok ["override.kdl.bak"] := rfl
  exact apart_of_locate hoverride hbackup (by decide)

/-- Writes over a file, removes it and leaves an empty one. -/
def havoc (path : String) : FileJob Unit := do
  let _ ← FileJob.write path "torn".toUTF8
  let _ ← FileJob.perform (.remove path)
  let _ ← FileJob.perform (.create path)

theorem within_havoc (path : String) : (havoc path).Within [path] :=
  FileJob.within_bind (FileJob.within_performAll (by simp [Change.paths])) fun _ ↦
    FileJob.within_bind (FileJob.within_perform (by simp [Change.paths])) fun _ ↦
      FileJob.within_bind (FileJob.within_perform (by simp [Change.paths])) fun _ ↦ trivial

/-- An override that is no document comes back, and where none was none is left. -/
theorem restoreOverride_undoes_havoc :
    (∃ t₁ t₃, (staleTree (some (.file "moed".toUTF8))).run desk.backupOverride = (.ok (), t₁) ∧
      (t₁.run (havoc desk.override)).2.run desk.restoreOverride = (.ok (), t₃) ∧
      t₃.standing? desk.override = some (.file "moed".toUTF8)) ∧
    ∃ t₁ t₃, (staleTree none).run desk.backupOverride = (.ok (), t₁) ∧
      (t₁.run (havoc desk.override)).2.run desk.restoreOverride = (.ok (), t₃) ∧
      t₃.standing? desk.override = none := by
  -- the damage is done to the override alone, and the copy is another file
  have hspared : ∀ node t₁, (staleTree node).run desk.backupOverride = (.ok (), t₁) →
      t₁.SameDirectories (t₁.run (havoc desk.override)).2 ∧
        (t₁.run (havoc desk.override)).2.standing? desk.backup = t₁.standing? desk.backup := by
    intro node t₁ hbackup
    have hchange := changesAt_run (within_havoc desk.override) t₁
    have hbefore := changesAt_of_run desk.within_backupOverride hbackup
    exact ⟨hchange.directories,
      hchange.standing?_eq (hbefore.directories.apart (apart_staleTree node)).symm⟩
  have hthere : (staleTree (some (.file "moed".toUTF8))).run desk.backupOverride = (.ok (), _) :=
    rfl
  have hnone : (staleTree none).run desk.backupOverride = (.ok (), _) := rfl
  obtain ⟨hdirs, hcopy⟩ := hspared _ _ hthere
  obtain ⟨hdirs', hcopy'⟩ := hspared _ _ hnone
  obtain ⟨t₃, hrestored, hback, -⟩ :=
    restoreOverride_undoes (rooted_staleTree _) (apart_staleTree _) hthere hdirs hcopy
  obtain ⟨t₃', hrestored', hback', -⟩ :=
    restoreOverride_undoes (rooted_staleTree _) (apart_staleTree _) hnone hdirs' hcopy'
  exact ⟨⟨_, t₃, hthere, hrestored, hback⟩, _, t₃', hnone, hrestored', hback'⟩

end DocumentFiles

end LayeredRights
