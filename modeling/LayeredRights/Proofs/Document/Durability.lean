import LayeredRights.Proofs.Document.Files
import LayeredRights.Proofs.Document.RoundTrip
import LayeredRights.Proofs.Merge

/-!
# What a commit leaves in the files

A commit over files that succeeds has written its modifications, and whether they can be loaded
again depends on their strings. If all of them read back, then the override is the document that was
written, and it is in force, here and in every store that is opened later. If one of them does not
read back, the commit has succeeded all the same, and nobody can load the configuration anymore
(`DocumentFiles.durable_of_commit`).

No state of the other files matters, as long as the base document loads and its path leads to no
file that a commit writes.

The path to this goes over what is in the files after the commit (`written_of_saves`), and what the
text of the modifications reads back to is known since `Document.ofText_text`. A store does not have
to be asked what it holds: one that has just committed holds what the documents come to, any new one
holds nothing and loads, and both answer the same (`Answers`).
-/

namespace LayeredRights

namespace DocumentFiles

variable {f : DocumentFiles} {t t' : FileTree}

/-! ### Writing and reading again -/

/-- A file that holds the text of a document is loaded as what the text reads back to. -/
theorem run_load_of_node? {d : Document} {path : String} {place : List String}
    (hlocate : t.locate path = .ok place) (hnode : t.node? place = some (.file d.text.toUTF8)) :
    t.run (load path) = (Document.ofText d.text, t) := by
  rw [run_load, FileTree.read_eq_ok hlocate hnode, ofFile_toUTF8]

/-- An override that holds the text of a document is loaded as that one. -/
theorem run_loadOverride_of_node? {d : Document} {place : List String}
    (hlocate : t.locate f.override = .ok place)
    (hnode : t.node? place = some (.file d.text.toUTF8)) :
    (t.run f.loadOverride).1.result = (Document.ofText d.text).result.map some := by
  rw [run_loadOverride, if_pos (FileTree.probe_eq_file hlocate hnode),
    FileTree.read_eq_ok hlocate hnode, ofFile_toUTF8]

/-- A base document that loads stands where it stood, if its path leads to none of the changed
files. -/
theorem lookup_eq_of_changesAt {paths : List String} {base : Document}
    (h : FileTree.ChangesAt paths t t') (hapart : ∀ p ∈ paths, t.Apart f.base p)
    (hbase : (t.run (load f.base)).1.result = .ok base) : t'.lookup f.base = t.lookup f.base := by
  have hread : ∃ bytes, t.read f.base = .ok bytes := by
    rw [run_load] at hbase
    cases hr : t.read f.base with
    | ok bytes => exact ⟨bytes, rfl⟩
    | error e => rw [hr] at hbase; exact nomatch hbase
  obtain ⟨bytes, hread⟩ := hread
  obtain ⟨place, hlocate⟩ := FileTree.exists_locate_of_read_eq_ok hread
  exact h.lookup_eq hlocate hapart

/-- Such a base document is loaded as before. -/
theorem run_load_of_changesAt {paths : List String} {base : Document}
    (h : FileTree.ChangesAt paths t t') (hapart : ∀ p ∈ paths, t.Apart f.base p)
    (hbase : (t.run (load f.base)).1.result = .ok base) :
    (t'.run (load f.base)).1 = (t.run (load f.base)).1 := by
  rw [run_load, run_load, FileTree.read, FileTree.read, lookup_eq_of_changesAt h hapart hbase]

/-- The override has been written when the write succeeds. -/
theorem exists_node?_of_writeOverride {d : Document} {u : Unit}
    (h : t.run (f.writeOverride d) = (.ok u, t')) : ∃ place, t'.locate f.override = .ok place ∧
      t'.node? place = some (.file d.text.toUTF8) := by
  rw [writeOverride, Runner.tree_run_bind] at h
  rcases hrun : t.run (FileJob.performAll [.create f.temporary, .append f.temporary d.text.toUTF8,
    .rename f.temporary f.override]) with ⟨e | _, t₁⟩
  · -- removing the temporary file does not cover up the error
    rw [hrun] at h
    dsimp only at h
    rw [Runner.tree_run_bind] at h
    exact nomatch congrArg Prod.fst h
  · rw [hrun] at h
    obtain rfl : t₁ = t' := congrArg Prod.snd h
    exact FileTree.exists_node?_of_replace hrun

/-- Saving that succeeds writes the modifications and leaves the base document as it was. -/
theorem written_of_saves {c : Configuration} {base b : Document}
    (hapart : ∀ p ∈ [f.override, f.backup, f.temporary], t.Apart f.base p)
    (hbase : (t.run (load f.base)).1.result = .ok base)
    (h : Saves Runner.tree f.documents c t (.ok b) t') :
    c.offence? = none ∧ base.mode = c.mode ∧ (t'.run (load f.base)).1.result = .ok base ∧
      ∃ place, t'.locate f.override = .ok place ∧
        t'.node? place = some (.file c.modifications.text.toUTF8) := by
  cases h with
  | @written b' _ t₁ t₂ _ ho hb hbok hm hk hw =>
    obtain ⟨rfl, rfl⟩ := eq_of_run_loadBase hb
    -- what the commit has read is what is known to load
    obtain rfl : b = base := Except.ok.inj (hbok.symm.trans hbase)
    -- neither the backup nor the write comes near the base document
    have hbackup := FileTree.changesAt_of_run f.within_backupOverride hk
    have hwrite := FileTree.changesAt_of_run (f.within_writeOverride c.modifications) hw
    have hchanges : FileTree.ChangesAt [f.override, f.backup, f.temporary] t₁ t' :=
      (hbackup.mono (by simp)).trans (hwrite.mono (by simp))
    refine ⟨ho, hm, ?_, exists_node?_of_writeOverride hw⟩
    rw [run_load_of_changesAt hchanges hapart hbase, hbase]

/-! ### What a store holds of the files -/

/-- The store holds what the documents in the files come to, or nothing if they come to an error. -/
def Reflects (f : DocumentFiles) (s : Store) (t : FileTree) : Prop :=
  match f.loaded t with
  | .ok c => ∃ S, s.resident = some S ∧ S.configuration = c
  | .error _ => s.resident = none

/-- Asked for its configuration, the store answers what the documents in the files come to. -/
def Answers (f : DocumentFiles) (s : Store) (t : FileTree) : Prop :=
  match f.loaded t with
  | .ok c => ∃ S, (Runner.tree.perform (Store.current f.documents) s t).1 = .ok S ∧
      S.configuration = c
  | .error e => (Runner.tree.perform (Store.current f.documents) s t).1 = .error e

/-- A store that holds nothing loads what the documents in the files come to. -/
theorem answers_of_not_resident {s : Store} (h : s.resident = none) (t : FileTree) :
    f.Answers s t := by
  obtain ⟨r, ns, t', hloads, hperform⟩ := Runner.tree.exists_perform_current f.documents h t
  obtain ⟨rfl, rfl⟩ := loaded_of_loads hloads
  rw [Answers, hperform]
  cases f.loaded t' with
  | ok c => exact ⟨_, rfl, rfl⟩
  | error e => rfl

/-- A store that holds what the documents come to answers that, and if it holds nothing it loads. -/
theorem Reflects.answers {s : Store} (h : f.Reflects s t) : f.Answers s t := by
  cases hl : f.loaded t with
  | ok c =>
    rw [Reflects, hl] at h
    obtain ⟨S, hS, rfl⟩ := h
    rw [Answers, hl]
    exact ⟨S, by rw [Runner.tree.perform_current_of_resident _ hS], rfl⟩
  | error e =>
    rw [Reflects, hl] at h
    exact answers_of_not_resident h t

/-! ### What a commit leaves -/

/-- **A commit that succeeds** leaves the base document as it was and writes the modifications. The
store holds what they come to. -/
theorem exists_of_commit {s s' : Store} {c : Configuration} {o : Option Snapshot} {base : Document}
    (hapart : ∀ p ∈ [f.override, f.backup, f.temporary], t.Apart f.base p)
    (hbase : (t.run (load f.base)).1.result = .ok base)
    (hok : Runner.tree.perform (Store.commit f.documents c) s t = (.ok o, s', t')) :
    c.offence? = none ∧ base.mode = c.mode ∧
      (t'.run (load f.base)).1.result = .ok base ∧
      (∃ place, t'.locate f.override = .ok place ∧
        t'.node? place = some (.file c.modifications.text.toUTF8)) ∧
      f.Reflects s' t' := by
  obtain ⟨r, t₁, hsaves⟩ := Runner.tree.exists_saves f.documents c t
  obtain ⟨ns, hcommit⟩ := Runner.tree.exists_perform_commit f.documents hsaves s
  cases r with
  | error e => exact nomatch congrArg Prod.fst (hcommit.symm.trans hok)
  | ok b =>
    obtain ⟨l, t₂, hloads, hperform⟩ := hcommit
    obtain ⟨rfl, rfl⟩ := loaded_of_loads hloads
    rw [hperform] at hok
    obtain ⟨ho, hmode, hbase', hnode⟩ := written_of_saves hapart hbase hsaves
    cases hl : f.loaded t₂ with
    | ok effective =>
      rw [hl] at hok
      obtain ⟨-, rfl, rfl⟩ : _ ∧ (s.report ns).installed effective = s' ∧ t₂ = t' := by
        simpa using hok
      rw [Reflects, hl]
      exact ⟨ho, hmode, hbase', hnode, _, rfl, rfl⟩
    | error e =>
      rw [hl] at hok
      obtain ⟨-, rfl, rfl⟩ : _ ∧ (s.report ns).evicted = s' ∧ t₂ = t' := by simpa using hok
      rw [Reflects, hl]
      exact ⟨ho, hmode, hbase', hnode, rfl⟩

/-- **What has been committed can be loaded exactly when all its strings read back.** -/
theorem durable_of_commit {s s' : Store} {c : Configuration} {o : Option Snapshot}
    {base : Document} (hapart : ∀ p ∈ [f.override, f.backup, f.temporary], t.Apart f.base p)
    (hbase : (t.run (load f.base)).1.result = .ok base)
    (hok : Runner.tree.perform (Store.commit f.documents c) s t = (.ok o, s', t')) :
    (c.modifications.isReadable = true →
      (t'.run (load f.override)).1.result = .ok (c.modifications.tagged .factory) ∧
      ∃ effective, merge base (some c.modifications) = .ok effective ∧
        ∀ s'' : Store, s'' = s' ∨ s''.resident = none →
          ∃ S, (Runner.tree.perform (Store.current f.documents) s'' t').1 = .ok S ∧
            S.configuration = effective) ∧
    (c.modifications.isReadable = false →
      ∃ detail, (t'.run (load f.override)).1.result = .error (.malformed detail) ∧
        ∀ s'' : Store, s'' = s' ∨ s''.resident = none →
          (Runner.tree.perform (Store.current f.documents) s'' t').1 =
            .error (.malformed detail)) := by
  obtain ⟨ho, hmode, hbase', ⟨place, hlocate, hnode⟩, hreflects⟩ :=
    exists_of_commit hapart hbase hok
  have htext := Document.ofText_text (Configuration.offence?_modifications ho)
  have hoverride := run_load_of_node? hlocate hnode
  have hlayer := run_loadOverride_of_node? hlocate hnode
  have hanswers : ∀ s'' : Store, s'' = s' ∨ s''.resident = none → f.Answers s'' t' := by
    rintro s'' (rfl | hnone)
    · exact hreflects.answers
    · exact answers_of_not_resident hnone t'
  -- all that is left to know is what the documents in the files come to
  simp only [Answers] at hanswers
  constructor
  · intro hreadable
    rw [hreadable, if_pos rfl] at htext
    have hmerge : merge base (some c.modifications) = .ok (base.overlaid c.modifications) :=
      merge_of_mode_eq hmode.symm
    have hloaded : f.loaded t' = .ok (base.overlaid c.modifications) := by
      rw [htext] at hlayer
      simp only [loaded, hbase', hlayer, Except.map, merge_tagged, hmerge]
      rfl
    rw [hloaded] at hanswers
    exact ⟨by rw [hoverride, htext], _, hmerge, hanswers⟩
  · intro hreadable
    rw [hreadable] at htext
    have hloaded : f.loaded t' = .error (.malformed "Failed to parse KDL document") := by
      rw [htext] at hlayer
      simp only [loaded, hbase', hlayer, Except.map]
      rfl
    rw [hloaded] at hanswers
    exact ⟨_, by rw [hoverride, htext]; rfl, hanswers⟩

/-- Two paths in the working directory. -/
def desk : DocumentFiles := { base := "base.kdl", override := "override.kdl" }

/-- A base document without entries. -/
def blank : Document := { mode := .allowListed }

/-- A file system with a base document and nothing else. -/
def treeOf (base : Document) : FileTree := { nodes := [(["base.kdl"], .file base.text.toUTF8)] }

/-- Nothing that a commit writes stands where the base document does. -/
theorem apart_treeOf (base : Document) : ∀ p ∈ [desk.override, desk.backup, desk.temporary],
    (treeOf base).Apart desk.base p := by
  have hbase : (treeOf base).locate desk.base = .ok ["base.kdl"] := rfl
  have hothers : (treeOf base).locate desk.override = .ok ["override.kdl"] ∧
      (treeOf base).locate desk.backup = .ok ["override.kdl.bak"] ∧
      (treeOf base).locate desk.temporary = .ok ["override.kdl.tmp"] := ⟨rfl, rfl, rfl⟩
  simp [FileTree.Apart, hbase, hothers]

/-- The base document loads, if it follows the rules and reads back. -/
theorem run_load_treeOf {base : Document} (h : base.offence? = none)
    (hreadable : base.isReadable = true) : (treeOf base).run (load desk.base) =
      ({ result := .ok (base.tagged .factory) }, treeOf base) := by
  have hlocate : (treeOf base).locate desk.base = .ok ["base.kdl"] := rfl
  have hnode : (treeOf base).node? ["base.kdl"] = some (.file base.text.toUTF8) := rfl
  rw [run_load_of_node? hlocate hnode, Document.ofText_text h, if_pos hreadable]

/-- Nothing keeps a lawful candidate of the mode of the base document from being saved. -/
theorem exists_saves_treeOf {base : Document} {c : Configuration} (h : base.offence? = none)
    (hreadable : base.isReadable = true) (hm : base.mode = c.mode) (ho : c.offence? = none) :
    ∃ t₁, Saves Runner.tree desk.documents c (treeOf base) (.ok (base.tagged .factory)) t₁ := by
  have hrun : ∀ x : FileJob (Reported Document),
      Runner.tree.run x (treeOf base) = (treeOf base).run x := fun _ ↦ rfl
  have hload := (hrun _).trans (run_load_treeOf h hreadable)
  have hbackup : (treeOf base).run desk.backupOverride = (.ok (), treeOf base) := rfl
  rcases hwrite : (treeOf base).run (desk.writeOverride c.modifications) with ⟨r, t₁⟩
  obtain rfl : r = .ok () := (congrArg Prod.fst hwrite).symm
  exact ⟨t₁, .written ho hload rfl hm hbackup hwrite⟩

/-- The file system of the blank document. -/
def deskTree : FileTree := { nodes := [(["base.kdl"], .file blank.text.toUTF8)] }

/-- An edit that adds a profile with one action. -/
def adding (action : String) : Configuration where
  mode := .allowListed
  profiles := [{ name := "clerk", actions := [action], origin := .modification }]

/-- Nothing keeps such an edit from being committed. -/
theorem exists_commit_desk (action : String) : ∃ o s' t',
    Runner.tree.perform (Store.commit desk.documents (adding action)) {} deskTree =
      (.ok o, s', t') := by
  have ho : (adding action).offence? = none :=
    firstOffence?_eq_none_iff.2 ⟨by simp [adding]; decide, by simp [adding], by simp [adding],
      by simp [adding], by simp [adding]⟩
  have hblank : blank.offence? = none := by decide
  obtain ⟨t₁, hsaves⟩ := exists_saves_treeOf hblank (by decide) rfl ho
  obtain ⟨ns, l, t', -, hperform⟩ := Runner.tree.exists_perform_commit desk.documents hsaves {}
  cases l <;> exact ⟨_, _, _, hperform⟩

/-- A store that commits an action of two words is as good as new, and one that commits a fraction
without its first digit is not. -/
theorem durable_of_commit_desk :
    (∃ s' t', (∃ o, Runner.tree.perform (Store.commit desk.documents (adding "read all")) {}
        deskTree = (.ok o, s', t')) ∧
      ∃ S, (Runner.tree.perform (Store.current desk.documents) s' t').1 = .ok S ∧
        merge blank (some (adding "read all").modifications) = .ok S.configuration) ∧
    ∃ s' t', (∃ o, Runner.tree.perform (Store.commit desk.documents (adding "-.5")) {}
        deskTree = (.ok o, s', t')) ∧
      ∃ detail, (Runner.tree.perform (Store.current desk.documents) s' t').1 =
        .error (.malformed detail) := by
  have hapart := apart_treeOf blank
  have hbase : ((treeOf blank).run (load desk.base)).1.result = .ok blank := by
    rw [run_load_treeOf (by decide) (by decide)]
    rfl
  constructor
  · obtain ⟨o, s', t', hok⟩ := exists_commit_desk "read all"
    obtain ⟨-, effective, hmerge, hcurrent⟩ :=
      (durable_of_commit hapart hbase hok).1 (by decide)
    obtain ⟨S, hS, rfl⟩ := hcurrent s' (.inl rfl)
    exact ⟨s', t', ⟨o, hok⟩, S, hS, hmerge⟩
  · obtain ⟨o, s', t', hok⟩ := exists_commit_desk "-.5"
    obtain ⟨detail, -, hcurrent⟩ := (durable_of_commit hapart hbase hok).2 (by decide)
    exact ⟨s', t', ⟨o, hok⟩, detail, hcurrent s' (.inl rfl)⟩

end DocumentFiles

end LayeredRights
