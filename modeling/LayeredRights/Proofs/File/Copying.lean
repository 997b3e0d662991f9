import LayeredRights.Proofs.File.Places

/-!
# What copying and removing files comes to

A copy empties its target before it reads its source, so a file that is copied onto itself is lost
(`FileTree.exists_run_copy`). A copy fails only before it has changed anything, at a target that
cannot be written.

Two relations between trees say what becomes of files. `Replaced` is a change at one place, and
`Cleared` says that files have gone and nothing else has happened, wherever they were. Where no file
was, what stands at the end of a path outlasts the latter (`FileTree.Cleared.standing?_eq`).

What stands at the end of a path (`FileTree.standing?`) is nothing where the path leads nowhere and
where it leads to a free place. That is as much as reading, copying and removing ask for. Two trees
of the same directories that have no file there agree about it, which is why an override that was
not there to begin with needs no argument about what the files around it have been through.
-/

namespace LayeredRights

namespace FileTree

variable {t t' t'' : FileTree} {path source goal : String} {place p : List String}
  {n : Option FileNode} {bytes : ByteArray}

/-! ### What stands at the end of a path -/

/-- What stands at the end of a path, if anything does. -/
def standing? (t : FileTree) (path : String) : Option FileNode := (t.lookup path).toOption

/-- Asking a path for a kind tells what stands there. -/
theorem probe_eq_map_standing? (t : FileTree) (path : String) :
    t.probe path = (t.standing? path).map FileNode.kind := by
  rw [probe, standing?]
  cases t.lookup path <;> rfl

/-- Something stands at the end of a path when the path leads to its place. -/
theorem standing?_eq_some_iff {n : FileNode} :
    t.standing? path = some n ↔ ∃ place, t.locate path = .ok place ∧ t.node? place = some n := by
  rw [standing?, lookup]
  cases hlocate : t.locate path with
  | error e => simp [Except.toOption]
  | ok place => cases hnode : t.node? place <;> simp [Except.toOption, hnode]

/-- A file at the end of a path. -/
theorem probe_eq_file_iff : t.probe path = some .file ↔
    ∃ place bytes, t.locate path = .ok place ∧ t.node? place = some (.file bytes) := by
  rw [probe_eq_map_standing?, Option.map_eq_some_iff]
  constructor
  · rintro ⟨node, hnode, hkind⟩
    cases node with
    | directory => exact nomatch hkind
    | file bytes =>
      obtain ⟨place, hlocate, hfile⟩ := standing?_eq_some_iff.1 hnode
      exact ⟨place, bytes, hlocate, hfile⟩
  · rintro ⟨place, bytes, hlocate, hfile⟩
    exact ⟨.file bytes, standing?_eq_some_iff.2 ⟨place, hlocate, hfile⟩, rfl⟩

/-! ### Single operations -/

theorem run_isFile (t : FileTree) (path : String) :
    t.run (FileJob.isFile path) = (decide (t.probe path = some .file), t) := rfl

theorem run_kindAt (t : FileTree) (path : String) :
    t.run (FileJob.kindAt path) = (t.probe path, t) := rfl

theorem run_perform (t : FileTree) (c : Change) : t.run (FileJob.perform c) = t.apply c := rfl

/-! ### Changes at one place -/

/-- The second tree has something else, or nothing, at one place where there was no directory. -/
structure Replaced (t t' : FileTree) (place : List String) (n : Option FileNode) : Prop where
  directories : t.SameDirectories t'
  here : t'.node? place = n
  elsewhere : ∀ q, q ≠ place → t'.node? q = t.node? q

/-- A file that is written replaces what was in its place. -/
theorem replaced_put (h : t.node? place ≠ some .directory) (bytes : ByteArray) :
    t.Replaced (t.put place (.file bytes)) place (some (.file bytes)) where
  directories := sameDirectories_put h (by simp)
  here := node?_put_self _ (ne_nil_of_node?_ne h)
  elsewhere _ hq := node?_put_of_ne _ hq

/-- A file that is removed leaves nothing there. -/
theorem replaced_clear (h : t.node? place ≠ some .directory) :
    t.Replaced (t.clear place) place none where
  directories := sameDirectories_clear h
  here := node?_clear_self (ne_nil_of_node?_ne h)
  elsewhere _ hq := node?_clear_of_ne hq

theorem Replaced.trans {n' : Option FileNode} (h : t.Replaced t' place n)
    (h' : t'.Replaced t'' place n') : t.Replaced t'' place n' where
  directories := h.directories.trans h'.directories
  here := h'.here
  elsewhere q hq := (h'.elsewhere q hq).trans (h.elsewhere q hq)

/-- A file that is created is empty. -/
theorem exists_apply_create (htarget : t.target goal = .ok place) :
    ∃ t', t.apply (.create goal) = (.ok (), t') ∧ t.Replaced t' place (some (.file .empty)) := by
  refine ⟨_, ?_, replaced_put (locate_of_target_eq_ok htarget).2 _⟩
  rw [apply, htarget]

/-- A file that stands can be written over as long as the directories are the same. -/
theorem exists_apply_create_of_standing (ht : t.Rooted) (hsame : SameDirectories t t')
    (hfile : t.standing? path = some (.file bytes)) :
    ∃ t₁, t'.apply (.create path) = (.ok (), t₁) := by
  obtain ⟨place, hlocate, hnode⟩ := standing?_eq_some_iff.1 hfile
  obtain ⟨q, n, hl, rfl⟩ := exists_located ht hlocate hnode
  have hfree : t'.node? (q ++ [String.ofList n]) ≠ some .directory := by
    rw [ne_eq, hsame.directory, hnode]
    simp
  obtain ⟨t₁, hcreate, -⟩ := exists_apply_create ((hl.of_sameDirectories hsame).target_eq hfree)
  exact ⟨t₁, hcreate⟩

theorem exists_apply_append (hlocate : t.locate goal = .ok place)
    (hfile : t.node? place = some (.file bytes)) (more : ByteArray) :
    ∃ t', t.apply (.append goal more) = (.ok (), t') ∧
      t.Replaced t' place (some (.file (bytes ++ more))) := by
  refine ⟨_, ?_, replaced_put (by simp [hfile]) _⟩
  rw [apply, hlocate]
  simp only [hfile]

/-- What is appended to a file that has just been created is all there is in it. -/
theorem Replaced.exists_apply_append (h : t.Replaced t' place (some (.file .empty)))
    (hlocate : t.locate goal = .ok place) (more : ByteArray) :
    ∃ t'', t'.apply (.append goal more) = (.ok (), t'') ∧
      t.Replaced t'' place (some (.file more)) := by
  obtain ⟨t'', happend, hput⟩ :=
    FileTree.exists_apply_append (h.directories.locate_iff.2 hlocate) h.here more
  rw [ByteArray.empty_append] at hput
  exact ⟨t'', happend, h.trans hput⟩

/-! ### Copies -/

/-- A copy to a target that cannot be written fails and changes nothing. -/
theorem run_copy_of_target_error {e : IoError} (hsource : t.probe source = some .file)
    (htarget : t.target goal = .error e) : t.run (FileJob.copy source goal) = (.error e, t) := by
  have hcreate : t.apply (.create goal) = (.error e, t) := by simp only [apply, htarget]
  rw [FileJob.copy, Runner.tree_run_bind, run_kindAt, hsource]
  dsimp only
  rw [Runner.tree_run_bind, run_perform, hcreate]
  rfl

/-- **A copy of a file to where one can be written.** Copied onto itself the file is empty. -/
theorem exists_run_copy (hlocate : t.locate source = .ok p) (hfile : t.node? p = some (.file bytes))
    (htarget : t.target goal = .ok place) : ∃ t', t.run (FileJob.copy source goal) = (.ok (), t') ∧
      t.Replaced t' place (some (.file (if place = p then .empty else bytes))) := by
  obtain ⟨t₁, hcreate, hcreated⟩ := exists_apply_create htarget
  -- the source is read after the target has been emptied
  have hread : t₁.read source = .ok (if place = p then .empty else bytes) := by
    refine read_eq_ok (hcreated.directories.locate_iff.2 hlocate) ?_
    by_cases hp : place = p
    · rw [if_pos hp, ← hp, hcreated.here]
    · rw [if_neg hp, hcreated.elsewhere p (Ne.symm hp), hfile]
  have hbytes : t₁.run (FileJob.bytesOf source) =
      (.ok (if place = p then .empty else bytes), t₁) := by
    rw [FileJob.bytesOf, run, hread]
    rfl
  obtain ⟨t₂, happend, hcopied⟩ := hcreated.exists_apply_append
    (locate_of_target_eq_ok htarget).1 (if place = p then .empty else bytes)
  refine ⟨t₂, ?_, hcopied⟩
  rw [FileJob.copy, Runner.tree_run_bind, run_kindAt, probe_eq_file hlocate hfile]
  dsimp only
  rw [Runner.tree_run_bind, run_perform, hcreate]
  dsimp only
  rw [Runner.tree_run_bind, hbytes]
  exact happend

/-! ### Files that go -/

/-- The second tree lacks some files of the first, and is the same otherwise. -/
structure Cleared (t t' : FileTree) : Prop where
  directories : t.SameDirectories t'
  node? : ∀ q, t'.node? q = t.node? q ∨ t'.node? q = none

theorem Cleared.refl (t : FileTree) : t.Cleared t := ⟨.refl t, fun _ ↦ .inl rfl⟩

theorem Cleared.trans (h : t.Cleared t') (h' : t'.Cleared t'') : t.Cleared t'' where
  directories := h.directories.trans h'.directories
  node? q := by
    rcases h'.node? q with heq | hnone
    · rw [heq]
      exact h.node? q
    · exact .inr hnone

theorem Replaced.cleared (h : t.Replaced t' place none) : t.Cleared t' where
  directories := h.directories
  node? q := by
    by_cases hq : q = place
    · exact .inr (hq ▸ h.here)
    · exact .inl (h.elsewhere q hq)

/-- Where there was no file there is none now. -/
theorem Cleared.probe_ne_file (h : t.Cleared t') (hpath : t.probe path ≠ some .file) :
    t'.probe path ≠ some .file := by
  intro hfile
  obtain ⟨place, bytes, hlocate, hnode⟩ := probe_eq_file_iff.1 hfile
  refine hpath (probe_eq_file_iff.2 ⟨place, bytes, h.directories.locate_iff.1 hlocate, ?_⟩)
  rcases h.node? place with heq | hnone
  · exact heq.symm.trans hnode
  · exact nomatch hnone.symm.trans hnode

/-- Where there is no file, only directories matter. -/
theorem SameDirectories.standing?_eq (h : t.SameDirectories t') (hpath : t.probe path ≠ some .file)
    (hpath' : t'.probe path ≠ some .file) : t'.standing? path = t.standing? path := by
  rw [probe_eq_map_standing?] at hpath hpath'
  have hdirectory : t'.standing? path = some .directory ↔ t.standing? path = some .directory := by
    rw [standing?_eq_some_iff, standing?_eq_some_iff]
    exact exists_congr fun place ↦ and_congr h.locate_iff (h.directory place)
  cases hn : t.standing? path with
  | none =>
    cases hn' : t'.standing? path with
    | none => rfl
    | some node =>
      cases node with
      | file bytes => exact absurd (by rw [hn']; rfl) hpath'
      | directory => exact nomatch (hdirectory.1 hn').symm.trans hn
  | some node =>
    cases node with
    | file bytes => exact absurd (by rw [hn]; rfl) hpath
    | directory => exact hdirectory.2 hn

/-- Where there was no file everything is as it was. -/
theorem Cleared.standing?_eq (h : t.Cleared t') (hpath : t.probe path ≠ some .file) :
    t'.standing? path = t.standing? path :=
  h.directories.standing?_eq hpath (h.probe_ne_file hpath)

/-- A file that is removed goes. -/
theorem run_remove_of_file (hlocate : t.locate path = .ok place)
    (hfile : t.node? place = some (.file bytes)) :
    t.run (FileJob.perform (.remove path)) = (.ok (), t.clear place) ∧
      t.Replaced (t.clear place) place none := by
  refine ⟨?_, replaced_clear (by simp [hfile])⟩
  rw [run_perform, apply, hlocate]
  simp only [hfile]

/-- Nothing but a file can be removed. -/
theorem exists_run_remove (hpath : t.probe path ≠ some .file) :
    ∃ e, t.run (FileJob.perform (.remove path)) = (.error e, t) := by
  rw [probe, lookup] at hpath
  rw [run_perform, apply]
  cases hlocate : t.locate path with
  | error e => exact ⟨e, rfl⟩
  | ok place =>
    rw [hlocate] at hpath
    dsimp only at hpath ⊢
    cases hnode : t.node? place with
    | none => exact ⟨_, rfl⟩
    | some node =>
      cases node with
      | directory => exact ⟨_, rfl⟩
      | file bytes => exact absurd (by simp [hnode, FileNode.kind]) hpath

/-- Removing a file or failing to makes no other difference. -/
theorem cleared_run_remove (t : FileTree) (path : String) :
    t.Cleared (t.run (FileJob.perform (.remove path))).2 := by
  by_cases hpath : t.probe path = some .file
  · obtain ⟨place, bytes, hlocate, hfile⟩ := probe_eq_file_iff.1 hpath
    obtain ⟨hrun, hreplaced⟩ := run_remove_of_file hlocate hfile
    rw [hrun]
    exact hreplaced.cleared
  · obtain ⟨e, hrun⟩ := exists_run_remove hpath
    rw [hrun]
    exact .refl t

/-! ### Files written aside -/

/-- A change that fails changes nothing. -/
theorem eq_of_apply_error {c : Change} {e : IoError} (h : t.apply c = (.error e, t')) : t' = t := by
  cases c <;> rw [apply] at h <;> repeat' split at h
  all_goals
    obtain ⟨hr, ht⟩ := Prod.mk.inj h
    first
    | exact ht.symm
    | cases hr

/-- A file is written aside as a whole, or there is no place for it. What is left to do then is to
move it. -/
theorem run_replace_cases (t : FileTree) (aside goal : String) (bytes : ByteArray) :
    (∃ e, t.target aside = .error e ∧ t.run (FileJob.performAll
        [.create aside, .append aside bytes, .rename aside goal]) = (.error e, t)) ∨
    ∃ place t', t.target aside = .ok place ∧ t.Replaced t' place (some (.file bytes)) ∧
      t.run (FileJob.performAll [.create aside, .append aside bytes, .rename aside goal]) =
        t'.apply (.rename aside goal) := by
  cases htarget : t.target aside with
  | error e =>
    refine .inl ⟨e, rfl, ?_⟩
    simp only [FileJob.performAll, run, apply, htarget]
  | ok place =>
    obtain ⟨t₁, hcreate, hcreated⟩ := exists_apply_create htarget
    obtain ⟨t₂, happend, hwritten⟩ :=
      hcreated.exists_apply_append (locate_of_target_eq_ok htarget).1 bytes
    refine .inr ⟨place, t₂, rfl, hwritten, ?_⟩
    simp only [FileJob.performAll, run, hcreate, happend]
    rcases t₂.apply (.rename aside goal) with ⟨_ | _, _⟩ <;> rfl

/-- A file is moved to any place that can be written. -/
theorem exists_apply_rename {there : List String} (hlocate : t.locate source = .ok place)
    (hfile : t.node? place = some (.file bytes)) (htarget : t.target goal = .ok there) :
    ∃ t', t.apply (.rename source goal) = (.ok (), t') := by
  rw [apply, hlocate]
  simp only [hfile, htarget]
  exact ⟨_, rfl⟩

end FileTree

end LayeredRights
