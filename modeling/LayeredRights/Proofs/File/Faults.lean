import LayeredRights.Proofs.File.Copying

/-!
# Jobs on files that are stopped, or meet with failures

Nothing says that every step of a job is made. A step may fail, a write may fail halfway, and the
process may be stopped between any two steps. All of this is one list of `Fate`s, one for each step:
`FileTree.stopped` makes a job's steps with their fates, and goes no further when there is no fate
left. As the list is arbitrary, what holds of `stopped` for every list holds at each moment of each
run, whatever fails in it.

A process that has been stopped might as well go on without any effect. Run in this way
(`FileTree.endure`), a job comes to its end under all circumstances, and the composition of jobs is
as it is for jobs that nothing befalls. So the operations of a store can be run with fates too
(`Runner.faulty`), and all that has been said of them holds (`Runner.snd_perform_faulty`).

Which fates a step can have is kept small. A write may end anywhere, since that is what it does to a
file that counts. For every other change failing means that nothing was done, and no step does
anything that was not asked for. A look-up that cannot be made finds nothing, as a program cannot
tell the two apart.

`Copies` is what is left to say of the one job that does not go by way of a file aside. Its four
cases are the places in which it can stop, and each of them keeps what was known when it came there.
-/

namespace LayeredRights

/-- What becomes of one step of a job. -/
inductive Fate
  /-- It is made. -/
  | made
  /-- It fails, unless it is a look-up. A write has put down so many bytes by then, and any other
  change has done nothing. -/
  | failed (written : Nat) (e : IoError)
  /-- A look-up finds nothing, whatever there is. Any other step is made. -/
  | unseen
  deriving DecidableEq, Repr

namespace FileTree

variable {α β : Type} {t t' : FileTree} {xs : List Fate} {paths : List String}

/-! ### Steps and their fates -/

/-- What a look-up finds. The process may have been stopped, and then it finds nothing. -/
def probeAs (t : FileTree) (path : String) : Option Fate → Option FileKind
  | none | some .unseen => none
  | some _ => t.probe path

/-- What reading a file comes to. -/
def readAs (t : FileTree) (path : String) : Option Fate → Except IoError ByteArray
  | none => .error .notFound
  | some (.failed _ e) => .error e
  | some _ => t.read path

/-- What a change comes to, and the tree after it. -/
def applyAs (t : FileTree) (c : Change) : Option Fate → Except IoError Unit × FileTree
  | none => (.error .notFound, t)
  | some (.failed n e) =>
    match c with
    | .append path bytes => (.error e, (t.apply (.append path (bytes.extract 0 n))).2)
    | _ => (.error e, t)
  | some _ => t.apply c

/-- The files as a process leaves them that makes one step of a job for each fate, and then is
stopped. -/
def stopped (t : FileTree) : List Fate → FileJob α → FileTree
  | [], _ => t
  | _, .done _ => t
  | x :: xs, .probe path next => t.stopped xs (next (t.probeAs path (some x)))
  | x :: xs, .read path next => t.stopped xs (next (t.readAs path (some x)))
  | x :: xs, .change c next =>
    (t.applyAs c (some x)).2.stopped xs (next (t.applyAs c (some x)).1)

/-- Runs a job to its end, with a fate for each step. When no fate is left nothing is done anymore.
The fates that have not been used are left over. -/
def endure (t : FileTree) (xs : List Fate) : FileJob α → α × FileTree × List Fate
  | .done a => (a, t, xs)
  | .probe path next => t.endure xs.tail (next (t.probeAs path xs.head?))
  | .read path next => t.endure xs.tail (next (t.readAs path xs.head?))
  | .change c next =>
    (t.applyAs c xs.head?).2.endure xs.tail (next (t.applyAs c xs.head?).1)

/-- A process that has been stopped does nothing. -/
theorem endure_nil (t : FileTree) (job : FileJob α) : (t.endure [] job).2 = (t, []) := by
  induction job with
  | done a => rfl
  | probe path next ih => exact ih _
  | read path next ih => exact ih _
  | change c next ih => exact ih _

/-- **Going on without any effect is being stopped.** -/
theorem endure_eq_stopped (t : FileTree) (xs : List Fate) (job : FileJob α) :
    (t.endure xs job).2.1 = t.stopped xs job := by
  induction job generalizing t xs with
  | done a => cases xs <;> rfl
  | probe path next ih =>
    cases xs with
    | nil => exact congrArg Prod.fst (t.endure_nil (.probe path next))
    | cons x xs => exact ih _ t xs
  | read path next ih =>
    cases xs with
    | nil => exact congrArg Prod.fst (t.endure_nil (.read path next))
    | cons x xs => exact ih _ t xs
  | change c next ih =>
    cases xs with
    | nil => exact congrArg Prod.fst (t.endure_nil (.change c next))
    | cons x xs => exact ih _ _ xs

/-- The fates are used up one after the other. -/
theorem suffix_endure (t : FileTree) (xs : List Fate) (job : FileJob α) :
    (t.endure xs job).2.2 <:+ xs := by
  induction job generalizing t xs with
  | done a => exact List.suffix_rfl
  | probe path next ih => exact (ih _ t xs.tail).trans xs.tail_suffix
  | read path next ih => exact (ih _ t xs.tail).trans xs.tail_suffix
  | change c next ih => exact (ih _ _ xs.tail).trans xs.tail_suffix

/-- A job that goes on with another is run with the fates that the first has left. -/
theorem endure_bind (t : FileTree) (xs : List Fate) (job : FileJob α) (f : α → FileJob β) :
    t.endure xs (job >>= f) =
      (t.endure xs job).2.1.endure (t.endure xs job).2.2 (f (t.endure xs job).1) := by
  show t.endure xs (job.andThen f) = _
  induction job generalizing t xs with
  | done a => rfl
  | probe path next ih => exact ih _ t _
  | read path next ih => exact ih _ t _
  | change c next ih => exact ih _ _ _

theorem endure_isFile (t : FileTree) (xs : List Fate) (path : String) :
    t.endure xs (FileJob.isFile path) =
      (decide (t.probeAs path xs.head? = some .file), t, xs.tail) := rfl

theorem endure_exists? (t : FileTree) (xs : List Fate) (path : String) :
    t.endure xs (FileJob.exists? path) = ((t.probeAs path xs.head?).isSome, t, xs.tail) := rfl

theorem endure_perform (t : FileTree) (xs : List Fate) (c : Change) :
    t.endure xs (FileJob.perform c) =
      ((t.applyAs c xs.head?).1, (t.applyAs c xs.head?).2, xs.tail) := rfl

/-- A job all of whose steps are made is run. -/
theorem exists_endure_made (t : FileTree) (job : FileJob α) : ∃ n, ∀ xs,
    t.endure (List.replicate n .made ++ xs) job = ((t.run job).1, (t.run job).2, xs) := by
  induction job generalizing t with
  | done a => exact ⟨0, fun xs ↦ rfl⟩
  | probe path next ih =>
    obtain ⟨n, hn⟩ := ih (t.probe path) t
    exact ⟨n + 1, fun xs ↦ hn xs⟩
  | read path next ih =>
    obtain ⟨n, hn⟩ := ih (t.read path) t
    exact ⟨n + 1, fun xs ↦ hn xs⟩
  | change c next ih =>
    obtain ⟨n, hn⟩ := ih (t.apply c).1 (t.apply c).2
    exact ⟨n + 1, fun xs ↦ hn xs⟩

/-! ### What fates do not change -/

/-- A failure changes no more than the step would have. -/
theorem changesAt_applyAs (t : FileTree) (c : Change) (x : Option Fate) :
    ChangesAt c.paths t (t.applyAs c x).2 := by
  cases x with
  | none => exact .refl _ t
  | some x =>
    cases x with
    | made => exact changesAt_apply t c
    | unseen => exact changesAt_apply t c
    | failed n e =>
      cases c with
      | create path => exact .refl _ t
      | append path bytes => exact changesAt_apply t (.append path (bytes.extract 0 n))
      | rename source target => exact .refl _ t
      | remove path => exact .refl _ t

theorem changesAt_of_applyAs {c : Change} {x : Option Fate} {r : Except IoError Unit}
    (h : t.applyAs c x = (r, t')) : ChangesAt c.paths t t' := by
  have hchange := changesAt_applyAs t c x
  rwa [h] at hchange

/-- **A job that is stopped stays within its paths**, and so does one whose steps fail. -/
theorem changesAt_endure {job : FileJob α} (h : job.Within paths) (t : FileTree)
    (xs : List Fate) : ChangesAt paths t (t.endure xs job).2.1 := by
  induction job generalizing t xs with
  | done a => exact .refl paths t
  | probe path next ih => exact ih _ (h _) t _
  | read path next ih => exact ih _ (h _) t _
  | change c next ih =>
    exact ((changesAt_applyAs t c _).mono h.1).trans (ih _ (h.2 _) _ _)

/-- Whatever befalls a job that is about no path, it leaves all files alone. -/
theorem endure_eq_of_within_nil {job : FileJob α} (h : job.Within []) (t : FileTree)
    (xs : List Fate) : (t.endure xs job).2.1 = t := by
  induction job generalizing t xs with
  | done a => rfl
  | probe path next ih => exact ih _ (h _) t _
  | read path next ih => exact ih _ (h _) t _
  | change c next => exact absurd h not_within_change_nil

/-- What stands at the end of a path outlasts changes elsewhere. -/
theorem ChangesAt.standing?_eq {path changed : String} (h : ChangesAt [changed] t t')
    (hapart : t.Apart path changed) : t'.standing? path = t.standing? path := by
  have hnode : ∀ place, t.locate path = .ok place → t'.node? place = t.node? place :=
    fun place hlocate ↦
      h.node? place fun _ hp ↦ List.mem_singleton.1 hp ▸ hapart place hlocate
  ext n
  rw [standing?_eq_some_iff, standing?_eq_some_iff]
  constructor
  · rintro ⟨place, hlocate, hn⟩
    have hlocate' := h.directories.locate_iff.1 hlocate
    exact ⟨place, hlocate', hnode place hlocate' ▸ hn⟩
  · rintro ⟨place, hlocate, hn⟩
    exact ⟨place, h.directories.locate_iff.2 hlocate, (hnode place hlocate).trans hn⟩

/-- Paths that lead to different places go on doing so. -/
theorem SameDirectories.apart {path path' : String} (h : t.SameDirectories t')
    (hapart : t.Apart path path') : t'.Apart path path' := fun place hplace hplace' ↦
  hapart place (h.locate_iff.1 hplace) (h.locate_iff.1 hplace')

theorem Apart.symm {path path' : String} (h : t.Apart path path') : t.Apart path' path :=
  fun place hplace hplace' ↦ h place hplace' hplace

/-- Paths whose places are known and differ are apart. -/
theorem apart_of_locate {path path' : String} {place place' : List String}
    (h : t.locate path = .ok place) (h' : t.locate path' = .ok place') (hne : place ≠ place') :
    t.Apart path path' := fun _ hsame hsame' ↦
  hne (Except.ok.inj ((h.symm.trans hsame).trans (hsame'.symm.trans h')))

/-! ### Steps that are made -/

/-- A look-up of a file finds a file only where there is one. -/
theorem probe_of_probeAs {path : String} {kind : FileKind} {x : Option Fate}
    (h : t.probeAs path x = some kind) : t.probe path = some kind := by
  unfold probeAs at h
  split at h
  · cases h
  · cases h
  · exact h

/-- As long as a process goes on and its look-ups do not fail, they find what there is. -/
theorem probeAs_head? {path : String} (hseen : Fate.unseen ∉ xs) (hxs : xs ≠ []) :
    t.probeAs path xs.head? = t.probe path := by
  obtain ⟨x, xs, rfl⟩ := List.exists_cons_of_ne_nil hxs
  cases x with
  | unseen => exact absurd List.mem_cons_self hseen
  | made => rfl
  | failed n e => rfl

theorem read_of_readAs {path : String} {bytes : ByteArray} {x : Option Fate}
    (h : t.readAs path x = .ok bytes) : t.read path = .ok bytes := by
  unfold readAs at h
  split at h
  · cases h
  · cases h
  · exact h

theorem apply_of_applyAs {c : Change} {x : Option Fate} {u : Unit}
    (h : t.applyAs c x = (.ok u, t')) : t.apply c = (.ok (), t') := by
  unfold applyAs at h
  split at h
  · cases h
  · split at h <;> cases h
  · exact h

/-- Only a write can fail with something done. -/
theorem eq_of_applyAs_error {c : Change} {x : Option Fate} {e : IoError}
    (hc : ∀ path bytes, c ≠ .append path bytes) (h : t.applyAs c x = (.error e, t')) : t' = t := by
  unfold applyAs at h
  split at h
  · exact (Prod.mk.inj h).2.symm
  · split at h
    · exact absurd rfl (hc _ _)
    · exact (Prod.mk.inj h).2.symm
  · exact eq_of_apply_error h

/-! ### Files written aside -/

/-- **A file that is written aside and moved into place is there as a whole**, or nothing but the
file aside has changed. -/
theorem endure_replace_cases (t : FileTree) (xs : List Fate) (aside goal : String)
    (bytes : ByteArray) :
    let (r, t', _) := t.endure xs
      (FileJob.performAll [.create aside, .append aside bytes, .rename aside goal])
    (∃ e, r = .error e ∧ ChangesAt [aside] t t') ∨
      r = .ok () ∧ t'.standing? goal = some (.file bytes) := by
  simp only [FileJob.performAll, endure]
  rcases hcreate : t.applyAs (.create aside) xs.head? with ⟨e | _, t₁⟩
  · exact .inl ⟨e, rfl, changesAt_of_applyAs hcreate⟩
  have hcreated : ChangesAt [aside] t t₁ := changesAt_of_applyAs hcreate
  dsimp only [endure]
  rcases happend : t₁.applyAs (.append aside bytes) xs.tail.head? with ⟨e | _, t₂⟩
  · exact .inl ⟨e, rfl, hcreated.trans (changesAt_of_applyAs happend)⟩
  have hwritten : ChangesAt [aside] t t₂ := hcreated.trans (changesAt_of_applyAs happend)
  dsimp only [endure]
  rcases hrename : t₂.applyAs (.rename aside goal) xs.tail.tail.head? with ⟨e | _, t₃⟩
  -- moving a file cannot fail halfway
  · obtain rfl : t₃ = t₂ := eq_of_applyAs_error (by simp) hrename
    exact .inl ⟨e, rfl, hwritten⟩
  · obtain ⟨here, hhere, hempty⟩ := exists_of_apply_create (apply_of_applyAs hcreate)
    obtain ⟨hhere', hfull⟩ := node?_of_apply_append hhere hempty (apply_of_applyAs happend)
    rw [ByteArray.empty_append] at hfull
    obtain ⟨there, hthere, hmoved⟩ :=
      exists_of_apply_rename hhere' hfull (apply_of_applyAs hrename)
    exact .inr ⟨rfl, standing?_eq_some_iff.2 ⟨there, hthere, hmoved⟩⟩

/-! ### Copies -/

/-- How a copy can end, and with what files. -/
inductive Copies (t : FileTree) (source goal : String) : Except IoError Unit → FileTree → Prop
  | refused (e : IoError) : Copies t source goal (.error e) t
  | emptied {t₁ : FileTree} (e : IoError) (hfile : t.probe source = some .file)
      (hcreate : t.apply (.create goal) = (.ok (), t₁)) : Copies t source goal (.error e) t₁
  | torn {t₁ : FileTree} {bytes : ByteArray} (n : Nat) (e : IoError)
      (hfile : t.probe source = some .file) (hcreate : t.apply (.create goal) = (.ok (), t₁))
      (hread : t₁.read source = .ok bytes) :
      Copies t source goal (.error e) (t₁.apply (.append goal (bytes.extract 0 n))).2
  | whole {t₁ t₂ : FileTree} {bytes : ByteArray} {r : Except IoError Unit}
      (hfile : t.probe source = some .file) (hcreate : t.apply (.create goal) = (.ok (), t₁))
      (hread : t₁.read source = .ok bytes)
      (happend : t₁.apply (.append goal bytes) = (r, t₂)) : Copies t source goal r t₂

/-- Whatever befalls a copy, it ends in one of these ways. -/
theorem copies_endure (t : FileTree) (source goal : String) (xs : List Fate) :
    Copies t source goal (t.endure xs (FileJob.copy source goal)).1
      (t.endure xs (FileJob.copy source goal)).2.1 := by
  rw [FileJob.copy, endure_bind]
  dsimp only [FileJob.kindAt, endure]
  cases hkind : t.probeAs source xs.head? with
  | none => exact .refused _
  | some kind =>
    cases kind with
    | directory => exact .refused _
    | file =>
      have hfile := probe_of_probeAs hkind
      dsimp only
      rw [endure_bind]
      dsimp only [FileJob.perform, endure]
      rcases hcreate : t.applyAs (.create goal) xs.tail.head? with ⟨e | _, t₁⟩
      · obtain rfl : t₁ = t := eq_of_applyAs_error (by simp) hcreate
        exact .refused e
      replace hcreate := apply_of_applyAs hcreate
      dsimp only
      rw [endure_bind]
      dsimp only [FileJob.bytesOf, endure]
      cases hbytes : t₁.readAs source xs.tail.tail.head? with
      | error e => exact .emptied e hfile hcreate
      | ok bytes =>
        have hread := read_of_readAs hbytes
        dsimp only [endure]
        -- what becomes of the last step, which is the write
        cases xs.tail.tail.tail.head? with
        | none => exact .emptied _ hfile hcreate
        | some x =>
          cases x with
          | failed n e => exact .torn n e hfile hcreate hread
          | made => exact .whole hfile hcreate hread rfl
          | unseen => exact .whole hfile hcreate hread rfl

/-- A copy that succeeds is one whose steps are all made. -/
theorem Copies.run_eq {source goal : String} {u : Unit} (h : Copies t source goal (.ok u) t') :
    t.run (FileJob.copy source goal) = (.ok (), t') := by
  cases h with
  | @whole t₁ _ bytes _ hfile hcreate hread happend =>
    have hbytes : t₁.run (FileJob.bytesOf source) = (.ok bytes, t₁) := by
      rw [FileJob.bytesOf, run, hread]
      rfl
    rw [FileJob.copy, Runner.tree_run_bind, run_kindAt, hfile]
    dsimp only
    rw [Runner.tree_run_bind, run_perform, hcreate]
    dsimp only
    rw [Runner.tree_run_bind, hbytes]
    exact happend

/-- A file that has just been created holds what is appended to it. -/
theorem standing?_apply_append {t₁ : FileTree} {goal : String}
    (hcreate : t.apply (.create goal) = (.ok (), t₁)) (bytes : ByteArray) :
    (t₁.apply (.append goal bytes)).2.standing? goal = some (.file bytes) := by
  obtain ⟨place, hplace, hempty⟩ := exists_of_apply_create hcreate
  obtain ⟨t₂, happend, hreplaced⟩ := exists_apply_append hplace hempty bytes
  rw [ByteArray.empty_append] at hreplaced
  rw [happend]
  exact standing?_eq_some_iff.2
    ⟨place, hreplaced.directories.locate_iff.2 hplace, hreplaced.here⟩

/-- A file is read as it is. -/
theorem read_eq_ok_iff {path : String} {bytes : ByteArray} :
    t.read path = .ok bytes ↔ t.standing? path = some (.file bytes) := by
  rw [FileTree.read, standing?]
  cases t.lookup path with
  | error e => simp [Except.toOption]
  | ok n => cases n <;> simp [Except.toOption]

/-- Emptying the target of a copy leaves the source as it was. -/
theorem read_of_apply_create {t₁ : FileTree} {source goal : String} {bytes : ByteArray}
    (hapart : t.Apart source goal) (hcreate : t.apply (.create goal) = (.ok (), t₁)) :
    t₁.read source = .ok bytes ↔ t.standing? source = some (.file bytes) := by
  rw [read_eq_ok_iff, (changesAt_of_apply hcreate).standing?_eq hapart]

/-- **A copy may end anywhere.** Its target is as it was, or holds the beginning of what was to be
copied. -/
theorem Copies.standing? {source goal : String} {r : Except IoError Unit}
    (h : Copies t source goal r t') (hapart : t.Apart source goal) :
    t'.standing? goal = t.standing? goal ∨
      ∃ bytes k, t.standing? source = some (.file bytes) ∧
        t'.standing? goal = some (.file (bytes.extract 0 k)) := by
  cases h with
  | refused e => exact .inl rfl
  | emptied e hfile hcreate =>
    obtain ⟨p, bytes, hlocate, hnode⟩ := probe_eq_file_iff.1 hfile
    obtain ⟨place, hplace, hempty⟩ := exists_of_apply_create hcreate
    refine .inr ⟨bytes, 0, standing?_eq_some_iff.2 ⟨p, hlocate, hnode⟩, ?_⟩
    rw [ByteArray.extract_same]
    exact standing?_eq_some_iff.2 ⟨place, hplace, hempty⟩
  | torn n e hfile hcreate hread =>
    exact .inr ⟨_, n, (read_of_apply_create hapart hcreate).1 hread,
      standing?_apply_append hcreate _⟩
  | @whole t₁ _ bytes _ hfile hcreate hread happend =>
    refine .inr ⟨bytes, bytes.size, (read_of_apply_create hapart hcreate).1 hread, ?_⟩
    rw [ByteArray.extract_zero_size, ← standing?_apply_append hcreate bytes, happend]

end FileTree

namespace Runner

/-- Jobs run with fates for their steps. -/
def faulty : Runner FileJob (FileTree × List Fate) where
  run job w := w.1.endure w.2 job
  run_pure _ _ := rfl
  run_bind job f w := w.1.endure_bind w.2 job f

/-- An operation of a store leaves the files as they are when it is stopped. -/
theorem snd_perform_faulty {α : Type} (op : StoreM FileJob α) (s : Store) (t : FileTree)
    (xs : List Fate) : (faulty.perform op s (t, xs)).2.2.1 = t.stopped xs (op.run.run s) :=
  t.endure_eq_stopped xs (op.run.run s)

end Runner

end LayeredRights
