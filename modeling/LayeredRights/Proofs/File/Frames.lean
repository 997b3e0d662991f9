import LayeredRights.Proofs.Runner

/-!
# What a job on files leaves alone

A job changes what stands at the places that its changes lead to, and nothing else. In particular it
makes and removes no directories, so that every path that leads to a place goes on leading there,
however many other files come and go (`FileTree.SameDirectories.locate_iff`). A statement about one
file therefore outlasts every job that does not touch the file (`FileTree.changesAt_run`).

Two ways of saying that files are left alone are needed. `ChangesAt` compares two trees, at all
places that some paths do not lead to, and is what a run of a job has to show for itself.
`FileJob.Within` is about the job and knows of no tree. It is checked by looking at the program
once, with all the answers that it might get, and `changesAt_run` goes from the one to the other.

Errors are not preserved. They tell a file in the way from nothing at all, and files come and go.
For this reason the lemmas are about paths that lead somewhere.
-/

namespace LayeredRights

/-- The paths that a change is about. -/
def Change.paths : Change → List String
  | create p => [p]
  | append p _ => [p]
  | rename source target => [source, target]
  | remove p => [p]

/-- All changes that a job may make are about these paths. -/
def FileJob.Within (paths : List String) {α : Type} : FileJob α → Prop
  | done _ => True
  | probe _ next => ∀ k, (next k).Within paths
  | read _ next => ∀ r, (next r).Within paths
  | change c next => (∀ p ∈ c.paths, p ∈ paths) ∧ ∀ r, (next r).Within paths

namespace FileTree

variable {t t' t'' : FileTree} {path : String} {place : List String}

/-! ### Directories -/

/-- The trees have the same directories. -/
structure SameDirectories (t t' : FileTree) : Prop where
  workingDirectory : t'.workingDirectory = t.workingDirectory
  directory : ∀ p, t'.node? p = some .directory ↔ t.node? p = some .directory

theorem SameDirectories.refl (t : FileTree) : t.SameDirectories t := ⟨rfl, fun _ ↦ .rfl⟩

theorem SameDirectories.trans (h : t.SameDirectories t') (h' : t'.SameDirectories t'') :
    t.SameDirectories t'' :=
  ⟨h'.workingDirectory.trans h.workingDirectory, fun p ↦ (h'.directory p).trans (h.directory p)⟩

theorem enter_eq_ok_iff : t.enter place = .ok () ↔ t.node? place = some .directory := by
  unfold enter
  split <;> simp_all

/-- A walk that gets somewhere gets there in every tree of these directories. -/
theorem SameDirectories.walk_iff (h : t.SameDirectories t') (ns : List (List Char))
    (p : List String) : t'.walk p ns = .ok place ↔ t.walk p ns = .ok place := by
  induction ns generalizing p with
  | nil => rfl
  | cons n ns ih =>
    -- errors may differ, since they tell a file from nothing at all
    have henter : t'.enter p = .ok () ↔ t.enter p = .ok () := by
      rw [enter_eq_ok_iff, enter_eq_ok_iff, h.directory p]
    unfold walk
    cases hp : t.enter p with
    | ok _ =>
      rw [henter.2 hp]
      simp only
      split
      · exact ih p
      · split
        · exact ih _
        · exact ih _
    | error e =>
      cases hp' : t'.enter p with
      | ok _ => exact nomatch (henter.1 hp').symm.trans hp
      | error e' => simp

/-- A path that leads to a place leads there still. -/
theorem SameDirectories.locate_iff (h : t.SameDirectories t') :
    t'.locate path = .ok place ↔ t.locate path = .ok place := by
  unfold locate
  split
  · simp
  · exact h.walk_iff _ _
  · rw [h.workingDirectory]
    exact h.walk_iff _ _

/-- The place of a file to be written is that of its path, and no directory. -/
theorem locate_of_target_eq_ok (h : t.target path = .ok place) :
    t.locate path = .ok place ∧ t.node? place ≠ some .directory := by
  unfold target at h
  split at h
  · split at h <;> exact nomatch h
  · split at h
    · exact nomatch h
    · next here hlocate =>
      split at h
      · exact nomatch h
      · next hnode =>
        cases henter : t.enter here.dropLast with
        | error e => rw [henter] at h; exact nomatch h
        | ok _ =>
          rw [henter] at h
          obtain rfl : here = place := Except.ok.inj h
          exact ⟨hlocate, hnode⟩

/-- Writing and removing files makes no difference to directories. -/
theorem sameDirectories_put {n : FileNode} (h : t.node? place ≠ some .directory)
    (hn : n ≠ .directory) : t.SameDirectories (t.put place n) := by
  refine ⟨rfl, fun p ↦ ?_⟩
  by_cases hp : p = place
  · subst hp
    have hne : p ≠ [] := fun heq ↦ h (by simp [node?, heq])
    rw [node?_put_self n hne]
    simp [h, hn]
  · rw [node?_put_of_ne n hp]

/-- Removing a file makes no difference to directories. -/
theorem sameDirectories_clear (h : t.node? place ≠ some .directory) :
    t.SameDirectories (t.clear place) := by
  refine ⟨rfl, fun p ↦ ?_⟩
  by_cases hp : p = place
  · subst hp
    have hne : p ≠ [] := fun heq ↦ h (by simp [node?, heq])
    rw [node?_clear_self hne]
    simp [h]
  · rw [node?_clear_of_ne hp]

/-! ### Frames -/

/-- The second tree differs from the first at most at the places that the paths lead to, and has the
same directories. -/
structure ChangesAt (paths : List String) (t t' : FileTree) : Prop where
  directories : t.SameDirectories t'
  node? : ∀ place, (∀ p ∈ paths, t.locate p ≠ .ok place) → t'.node? place = t.node? place

theorem ChangesAt.refl (paths : List String) (t : FileTree) : ChangesAt paths t t :=
  ⟨.refl t, fun _ _ ↦ rfl⟩

/-- Changes at the same paths add up, because a path leads where it led before the first of them. -/
theorem ChangesAt.trans {paths : List String} (h : ChangesAt paths t t')
    (h' : ChangesAt paths t' t'') : ChangesAt paths t t'' where
  directories := h.directories.trans h'.directories
  node? place hplace := by
    rw [h'.node? place fun p hp heq ↦ hplace p hp (h.directories.locate_iff.1 heq),
      h.node? place hplace]

theorem ChangesAt.mono {paths paths' : List String} (h : ChangesAt paths t t')
    (hsub : ∀ p ∈ paths, p ∈ paths') : ChangesAt paths' t t' :=
  ⟨h.directories, fun place hplace ↦ h.node? place fun p hp ↦ hplace p (hsub p hp)⟩

/-- Writing a file changes what stands at its place. -/
theorem changesAt_put {paths : List String} (hpath : path ∈ paths)
    (hlocate : t.locate path = .ok place) (hnode : t.node? place ≠ some .directory)
    (bytes : ByteArray) : ChangesAt paths t (t.put place (.file bytes)) where
  directories := sameDirectories_put hnode (by simp)
  node? _ hother := node?_put_of_ne _ fun heq ↦ hother path hpath (heq ▸ hlocate)

theorem changesAt_clear {paths : List String} (hpath : path ∈ paths)
    (hlocate : t.locate path = .ok place) (hnode : t.node? place ≠ some .directory) :
    ChangesAt paths t (t.clear place) where
  directories := sameDirectories_clear hnode
  node? _ hother := node?_clear_of_ne fun heq ↦ hother path hpath (heq ▸ hlocate)

/-- **One change.** -/
theorem changesAt_apply (t : FileTree) (c : Change) : ChangesAt c.paths t (t.apply c).2 := by
  cases c with
  | create path =>
    rw [apply]
    split
    · exact .refl _ t
    · next place htarget =>
      obtain ⟨hlocate, hnode⟩ := locate_of_target_eq_ok htarget
      exact changesAt_put List.mem_cons_self hlocate hnode _
  | append path bytes =>
    rw [apply]
    split
    · exact .refl _ t
    · next place hlocate =>
      split
      · exact .refl _ t
      · exact .refl _ t
      · next old hnode =>
        exact changesAt_put List.mem_cons_self hlocate (by simp [hnode]) _
  | rename source target =>
    rw [apply]
    split
    · exact .refl _ t
    · next here hlocate =>
      split
      · exact .refl _ t
      · exact .refl _ t
      · next bytes hnode =>
        split
        · exact .refl _ t
        · next there htarget =>
          obtain ⟨hthere, hfree⟩ := locate_of_target_eq_ok htarget
          -- the source is cleared first, which leads no path astray
          have hclear : ChangesAt [source, target] t (t.clear here) :=
            changesAt_clear List.mem_cons_self hlocate (by simp [hnode])
          refine hclear.trans (changesAt_put (List.mem_cons_of_mem _ List.mem_cons_self)
            (hclear.directories.locate_iff.2 hthere) ?_ _)
          rwa [ne_eq, hclear.directories.directory]
  | remove path =>
    rw [apply]
    split
    · exact .refl _ t
    · next place hlocate =>
      split
      · exact .refl _ t
      · exact .refl _ t
      · next bytes hnode =>
        exact changesAt_clear List.mem_cons_self hlocate (by simp [hnode])

/-- The same of a change whose outcome is known. -/
theorem changesAt_of_apply {c : Change} {r : Except IoError Unit} (h : t.apply c = (r, t')) :
    ChangesAt c.paths t t' := by
  have hchange := changesAt_apply t c
  rwa [h] at hchange

/-- **A whole job.** -/
theorem changesAt_run {paths : List String} {α : Type} {job : FileJob α} (h : job.Within paths)
    (t : FileTree) : ChangesAt paths t (t.run job).2 := by
  induction job generalizing t with
  | done a => exact .refl paths t
  | probe p next ih => exact ih _ (h _) t
  | read p next ih => exact ih _ (h _) t
  | change c next ih =>
    exact ((changesAt_apply t c).mono h.1).trans (ih _ (h.2 _) _)

/-- The same of a job whose outcome is known. -/
theorem changesAt_of_run {paths : List String} {α : Type} {job : FileJob α} {a : α}
    (hjob : job.Within paths) (h : t.run job = (a, t')) : ChangesAt paths t t' := by
  have hchange := changesAt_run hjob t
  rwa [h] at hchange

/-- A change is about some path. -/
theorem not_within_change_nil {α : Type} {c : Change} {next : Except IoError Unit → FileJob α} :
    ¬(FileJob.change c next).Within [] := by
  rintro ⟨h, -⟩
  obtain ⟨p, hp⟩ : ∃ p, p ∈ c.paths := by
    cases c <;> exact ⟨_, List.mem_cons_self⟩
  exact absurd (h p hp) List.not_mem_nil

/-- A job that is about no path leaves all files alone. -/
theorem run_eq_of_within_nil {α : Type} {job : FileJob α} (h : job.Within []) (t : FileTree) :
    (t.run job).2 = t := by
  induction job generalizing t with
  | done a => rfl
  | probe path next ih => exact ih _ (h _) t
  | read path next ih => exact ih _ (h _) t
  | change c next => exact absurd h not_within_change_nil

/-- The paths do not lead to the same place. -/
def Apart (t : FileTree) (path path' : String) : Prop :=
  ∀ place, t.locate path = .ok place → t.locate path' ≠ .ok place

/-- What stands at the end of a path that leads somewhere outlasts changes elsewhere. -/
theorem ChangesAt.lookup_eq {paths : List String} (h : ChangesAt paths t t')
    (hlocate : t.locate path = .ok place) (hapart : ∀ p ∈ paths, t.Apart path p) :
    t'.lookup path = t.lookup path := by
  have hnode : t'.node? place = t.node? place :=
    h.node? place fun p hp ↦ hapart p hp place hlocate
  rw [lookup, lookup, hlocate, h.directories.locate_iff.2 hlocate]
  simp only [hnode]

/-- Only a path that leads somewhere can be read. -/
theorem exists_locate_of_read_eq_ok {bytes : ByteArray} (h : t.read path = .ok bytes) :
    ∃ place, t.locate path = .ok place := by
  cases hlocate : t.locate path with
  | ok place => exact ⟨place, rfl⟩
  | error e => simp [read, lookup, hlocate] at h

theorem probe_eq_file {bytes : ByteArray} (hlocate : t.locate path = .ok place)
    (hnode : t.node? place = some (.file bytes)) : t.probe path = some .file := by
  simp only [probe, lookup, hlocate, hnode]
  rfl

theorem read_eq_ok {bytes : ByteArray} (hlocate : t.locate path = .ok place)
    (hnode : t.node? place = some (.file bytes)) : t.read path = .ok bytes := by
  simp only [read, lookup, hlocate, hnode]

/-! ### Replacing a file -/

/-- No file stands at the root. -/
theorem ne_nil_of_node?_ne (h : t.node? place ≠ some .directory) : place ≠ [] := by
  rintro rfl
  exact h (by simp [node?])

/-- After a change every path leads where it led before. -/
theorem locate_of_apply {c : Change} {r : Except IoError Unit} (h : t.apply c = (r, t')) :
    t'.locate path = .ok place ↔ t.locate path = .ok place :=
  (changesAt_of_apply h).directories.locate_iff

/-- A file that has been created is there and empty. -/
theorem exists_of_apply_create {u : Unit} (h : t.apply (.create path) = (.ok u, t')) :
    ∃ place, t'.locate path = .ok place ∧ t'.node? place = some (.file .empty) := by
  have hlocate : ∀ place, t'.locate path = .ok place ↔ t.locate path = .ok place :=
    fun _ ↦ locate_of_apply h
  rw [apply] at h
  split at h
  · exact nomatch (Prod.mk.inj h).1
  · next place htarget =>
    obtain ⟨hplace, hnode⟩ := locate_of_target_eq_ok htarget
    refine ⟨place, (hlocate place).2 hplace, ?_⟩
    rw [← (Prod.mk.inj h).2]
    exact node?_put_self _ (ne_nil_of_node?_ne hnode)

theorem node?_of_apply_append {u : Unit} {old bytes : ByteArray}
    (hplace : t.locate path = .ok place) (hold : t.node? place = some (.file old))
    (h : t.apply (.append path bytes) = (.ok u, t')) :
    t'.locate path = .ok place ∧ t'.node? place = some (.file (old ++ bytes)) := by
  refine ⟨(locate_of_apply h).2 hplace, ?_⟩
  simp only [apply, hplace, hold] at h
  rw [← (Prod.mk.inj h).2]
  exact node?_put_self _ (ne_nil_of_node?_ne (t := t) (by simp [hold]))

/-- A file that has been moved stands where it was moved to. -/
theorem exists_of_apply_rename {u : Unit} {source goal : String} {bytes : ByteArray}
    (hplace : t.locate source = .ok place) (hnode : t.node? place = some (.file bytes))
    (h : t.apply (.rename source goal) = (.ok u, t')) :
    ∃ there, t'.locate goal = .ok there ∧ t'.node? there = some (.file bytes) := by
  have hlocate : ∀ there, t'.locate goal = .ok there ↔ t.locate goal = .ok there :=
    fun _ ↦ locate_of_apply h
  simp only [apply, hplace, hnode] at h
  -- the source is gone by then, and what is put in the place of the target is what it was
  split at h
  · exact nomatch (Prod.mk.inj h).1
  · next there htarget =>
    obtain ⟨hthere, hfree⟩ := locate_of_target_eq_ok htarget
    refine ⟨there, (hlocate there).2 hthere, ?_⟩
    rw [← (Prod.mk.inj h).2]
    exact node?_put_self _ (ne_nil_of_node?_ne hfree)

/-- Changes that are made in order succeed one by one, or some fails. -/
theorem exists_of_run_performAll {c : Change} {cs : List Change} {u : Unit}
    (h : t.run (FileJob.performAll (c :: cs)) = (.ok u, t')) :
    ∃ t₁, t.apply c = (.ok (), t₁) ∧ t₁.run (FileJob.performAll cs) = (.ok u, t') := by
  rcases hc : t.apply c with ⟨e | _, t₁⟩
  · have hrun : t.run (FileJob.performAll (c :: cs)) = (.error e, t₁) := by
      simp only [FileJob.performAll, run, hc]
    cases hrun.symm.trans h
  · have hrun : t.run (FileJob.performAll (c :: cs)) = t₁.run (FileJob.performAll cs) := by
      simp only [FileJob.performAll, run, hc]
    exact ⟨t₁, rfl, hrun.symm.trans h⟩

/-- **A file that has been written aside and moved into place holds what was written.** -/
theorem exists_node?_of_replace {aside goal : String} {bytes : ByteArray} {u : Unit}
    (h : t.run (FileJob.performAll [.create aside, .append aside bytes, .rename aside goal]) =
      (.ok u, t')) :
    ∃ place, t'.locate goal = .ok place ∧ t'.node? place = some (.file bytes) := by
  obtain ⟨t₁, hcreate, h⟩ := exists_of_run_performAll h
  obtain ⟨t₂, happend, h⟩ := exists_of_run_performAll h
  obtain ⟨t₃, hrename, h⟩ := exists_of_run_performAll h
  obtain rfl : t₃ = t' := (Prod.mk.inj h).2
  obtain ⟨here, hhere, hempty⟩ := exists_of_apply_create hcreate
  obtain ⟨hhere', hfull⟩ := node?_of_apply_append hhere hempty happend
  rw [ByteArray.empty_append] at hfull
  exact exists_of_apply_rename hhere' hfull hrename

end FileTree

end LayeredRights
