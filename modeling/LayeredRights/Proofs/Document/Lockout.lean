import LayeredRights.Proofs.Document.Durability
import LayeredRights.Proofs.Document.Grammar
import LayeredRights.Proofs.Layers
import LayeredRights.Proofs.Store.Journal

/-!
# What the warning of a lock-out says

A commit over files warns of a lock-out exactly when the candidate, as it was handed in, does not
grant the action of editing (`DocumentFiles.warned_of_commit`). In an allow-listed candidate nobody
at all may edit then, and in a deny-listed one there is somebody who may not.

What comes into force is another configuration. The candidate's factory entries are not written, and
those of the base document come back. So the warning can be given although somebody may edit, and
can be missing although nobody may (`DocumentFiles.exists_commit_misleading`). It holds of the
configuration in force whenever the candidate has the entries of that one.

The journal does not say where a notice is from, so it has to be known that loading never gives this
one: all that is noticed in a document is nodes that are passed over
(`Document.exists_of_mem_notices_ofText`). The equivalence for what is in force needs one thing
more. Configurations of the same entries lock out alike if they repeat no name, and neither the
candidate nor anything loaded from files does.
-/

namespace LayeredRights

/-! ### Reading gives no warning -/

/-- All that is noticed in reading a document is nodes that are passed over. -/
theorem Document.exists_of_mem_notices_ofText {text : String} {n : Notice}
    (h : n ∈ (Document.ofText text).notices) : ∃ name, n = .unknownNode name := by
  have hcollected : ∀ c : Collected, n ∈ c.notices → ∃ name, n = .unknownNode name := by
    intro c hn
    obtain ⟨name, -, rfl⟩ := List.mem_map.1 hn
    exact ⟨name, rfl⟩
  unfold Document.ofText at h
  split at h
  · exact absurd h List.not_mem_nil
  · unfold Document.ofNodes at h
    split at h
    · exact hcollected _ h
    · exact hcollected _ h

/-- A document that is read follows the rules for entries. -/
theorem Document.offence?_of_ofText {text : String} {d : Document}
    (h : (Document.ofText text).result = .ok d) : d.offence? = none := by
  unfold Document.ofText at h
  split at h
  · cases h
  · exact (Document.result_ofNodes_eq_ok_iff.1 h).1

namespace DocumentFiles

variable {f : DocumentFiles} {t t' : FileTree} {c : Configuration} {s s' : Store} {S : Snapshot}

/-- Loading a document never warns of a lock-out. -/
theorem lockout_notMem_load (action path : String) (t : FileTree) :
    .lockout action ∉ (t.run (load path)).1.notices := by
  intro h
  rw [run_load] at h
  unfold ofFile at h
  split at h
  · exact absurd h List.not_mem_nil
  · split at h
    · exact absurd h List.not_mem_nil
    · obtain ⟨name, hname⟩ := Document.exists_of_mem_notices_ofText h
      exact nomatch hname

theorem lockout_notMem_loadOverride (f : DocumentFiles) (action : String) (t : FileTree) :
    .lockout action ∉ (t.run f.loadOverride).1.notices := by
  intro h
  rw [run_loadOverride] at h
  split at h
  · have hload := lockout_notMem_load action f.override t
    rw [run_load] at hload
    exact hload h
  · exact absurd h List.not_mem_nil

/-- What is loaded from a file follows the rules for entries. -/
theorem offence?_of_load {path : String} {d : Document}
    (h : (t.run (load path)).1.result = .ok d) : d.offence? = none := by
  rw [run_load] at h
  unfold ofFile at h
  split at h
  · exact nomatch h
  · split at h
    · exact nomatch h
    · exact Document.offence?_of_ofText h

/-- So does what is loaded as an override, if there is any. -/
theorem offence?_of_loadOverride {layer : Option Document}
    (h : (t.run f.loadOverride).1.result = .ok layer) : ∀ l ∈ layer, l.offence? = none := by
  rw [run_loadOverride] at h
  split at h
  · rintro l rfl
    have hload := run_load t f.override
    cases hr : (ofFile f.override (t.read f.override)).result with
    | error e =>
      simp only [hr] at h
      exact nomatch h
    | ok d =>
      simp only [hr] at h
      obtain rfl : d = l := Option.some.inj (Except.ok.inj h)
      exact offence?_of_load (by rw [hload, hr])
  · obtain rfl := Except.ok.inj h
    exact nofun

/-- What is loaded from files follows the rules for entries, as both documents do. -/
theorem offence?_of_loaded (h : f.loaded t = .ok c) : c.offence? = none := by
  unfold loaded at h
  split at h
  · cases h
  · cases h
  · next base layer hbase hlayer =>
    cases hm : merge base layer with
    | error conflict =>
      rw [hm] at h
      cases h
    | ok c' =>
      rw [hm] at h
      obtain rfl := Except.ok.inj h
      exact offence?_of_merge (offence?_of_load hbase) (offence?_of_loadOverride hlayer) hm

/-- What has been saved over a base document is loaded as its modifications over that document. -/
theorem loaded_of_saves {base b : Document}
    (hapart : ∀ p ∈ [f.override, f.backup, f.temporary], t.Apart f.base p)
    (hbase : (t.run (load f.base)).1.result = .ok base)
    (hsaves : Saves Runner.tree f.documents c t (.ok b) t')
    (hreadable : c.modifications.isReadable = true) :
    f.loaded t' = .ok (base.overlaid c.modifications) := by
  obtain ⟨ho, hmode, hagain, place, hlocate, hnode⟩ := written_of_saves hapart hbase hsaves
  have hlayer := run_loadOverride_of_node? hlocate hnode
  rw [Document.ofText_text (Configuration.offence?_modifications ho), if_pos hreadable] at hlayer
  have hmerge : merge base (some c.modifications) = .ok (base.overlaid c.modifications) :=
    merge_of_mode_eq hmode.symm
  simp only [loaded, hagain, hlayer, Except.map, merge_tagged, hmerge]
  rfl

/-! ### The warning -/

/-- A warning is in a list to which only other notices are added if it was given. -/
theorem lockout_mem_warnings_append {action : String} {ns : List Notice}
    (h : .lockout action ∉ ns) : .lockout action ∈ c.warnings action ++ ns ↔
      c.grants action = false := by
  rw [Configuration.warnings]
  cases c.grants action <;> simp [h]

/-- **A commit warns of a lock-out exactly when its candidate locks out.** So does what comes into
force if it has the entries of the candidate. -/
theorem warned_of_commit
    (hok : Runner.tree.perform (Store.commit f.documents c) s t = (.ok (some S), s', t')) :
    s'.resident = some S ∧ ∃ ns, s'.journal = s.journal ++ ns ∧
      (.lockout s.editAction ∈ ns ↔ c.LocksOut s.editAction) ∧
      (c.SameEntries S.configuration →
        (.lockout s.editAction ∈ ns ↔ S.configuration.LocksOut s.editAction)) := by
  cases Runner.tree.commits_of_perform f.documents hok with
  | @loaded base t₁ c' _ _ hsaves hload hresident =>
    have ho : c.offence? = none := by
      cases hsaves with
      | written ho => exact ho
    -- the warnings come first and then what loading adds, none of which is a warning
    obtain ⟨ns, hjournal, hn⟩ := Runner.tree.journal_of_commit (d := f.documents) ho
      (lockout_notMem_load s.editAction f.base) (f.lockout_notMem_loadOverride s.editAction) s t
    rw [hok, List.append_assoc] at hjournal
    have hwarned : .lockout s.editAction ∈ c.warnings s.editAction ++ ns ↔
        c.LocksOut s.editAction :=
      (lockout_mem_warnings_append hn).trans Configuration.grants_eq_false_iff
    refine ⟨hresident, _, hjournal, hwarned, fun hsame ↦ ?_⟩
    have hnames : (c.profiles.map (·.name)).Nodup := (firstOffence?_eq_none_iff.1 ho).names_nodup
    have hnames' : (c'.profiles.map (·.name)).Nodup :=
      (firstOffence?_eq_none_iff.1 (offence?_of_loaded (loaded_of_loads hload).1.symm)).names_nodup
    exact hwarned.trans (hsame.locksOut_iff hnames hnames')

/-! ### Commits at a desk -/

/-- A base document that lets ann edit. -/
def allowing : Document where
  mode := .allowListed
  profiles := [{ name := "admin", actions := ["editprofile"] }]
  userProfiles := [{ login := "ann", profiles := ["admin"] }]

/-- A base document that lets everybody edit but ann. -/
def denying : Document := { allowing with mode := .denyListed }

/-- An edit that lets ann edit. -/
def staffed : Configuration where
  mode := .allowListed
  profiles := [{ name := "admin", actions := ["editprofile"], origin := .modification }]
  userProfiles := [{ login := "ann", profiles := ["admin"], origin := .modification }]

/-- What a new store commits over such files comes into force. -/
theorem exists_commit_treeOf (base : Document) (h : base.offence? = none)
    (hreadable : base.isReadable = true) (hm : base.mode = c.mode) (ho : c.offence? = none)
    (hreadable' : c.modifications.isReadable = true) :
    ∃ S s' t', Runner.tree.perform (Store.commit desk.documents c) {} (treeOf base) =
        (.ok (some S), s', t') ∧
      S.configuration = (base.tagged .factory).overlaid c.modifications ∧
      (.lockout "editprofile" ∈ s'.journal ↔ c.grants "editprofile" = false) := by
  obtain ⟨t₁, hsaves⟩ := exists_saves_treeOf h hreadable hm ho
  have hloaded := loaded_of_saves (apart_treeOf base) (by rw [run_load_treeOf h hreadable]) hsaves
    hreadable'
  obtain ⟨_, l, t', hloads, hperform⟩ :=
    Runner.tree.exists_perform_commit desk.documents hsaves {}
  obtain ⟨rfl, rfl⟩ := loaded_of_loads hloads
  rw [hloaded] at hperform
  obtain ⟨ns, hjournal, hn⟩ := Runner.tree.journal_of_commit (d := desk.documents) ho
    (lockout_notMem_load "editprofile" desk.base)
    (desk.lockout_notMem_loadOverride "editprofile") {} (treeOf base)
  refine ⟨_, _, _, hperform, rfl, ?_⟩
  -- the journal of a new store is what this commit has written
  rw [hperform] at hjournal
  rw [hjournal]
  exact lockout_mem_warnings_append hn

/-- A candidate in which nobody may edit, and one in which a clerk may, with what comes of them. -/
theorem warned_of_commit_treeOf :
    (∃ S s' t', Runner.tree.perform (Store.commit desk.documents (adding "read")) {}
        (treeOf blank) = (.ok (some S), s', t') ∧
      .lockout "editprofile" ∈ s'.journal ∧ ∀ p, S.configuration.allows p "editprofile" = false) ∧
    ∃ S s' t', Runner.tree.perform (Store.commit desk.documents staffed) {} (treeOf blank) =
        (.ok (some S), s', t') ∧
      .lockout "editprofile" ∉ s'.journal ∧
      ∃ p, S.configuration.allows p "editprofile" = true := by
  constructor
  · obtain ⟨S, s', t', hok, hconf, -⟩ := exists_commit_treeOf blank (c := adding "read")
      (by decide) (by decide) rfl (by decide) (by decide)
    obtain ⟨-, ns, hjournal, hwarned, hsame⟩ := warned_of_commit hok
    have hlocks : (adding "read").LocksOut "editprofile" :=
      Configuration.grants_eq_false_iff.1 (by decide)
    have hentries : (adding "read").SameEntries S.configuration := by
      rw [hconf]
      exact ⟨rfl, fun _ ↦ .rfl, fun _ ↦ .rfl⟩
    have hforce := (hsame hentries).1 (hwarned.2 hlocks)
    rw [hconf] at hforce
    refine ⟨S, s', t', hok, ?_, ?_⟩
    · rw [hjournal]
      exact List.mem_append_right _ (hwarned.2 hlocks)
    · rw [hconf]
      exact hforce
  · obtain ⟨S, s', t', hok, hconf, -⟩ := exists_commit_treeOf blank (c := staffed)
      (by decide) (by decide) rfl (by decide) (by decide)
    obtain ⟨-, ns, hjournal, hwarned, -⟩ := warned_of_commit hok
    have hgrants : ¬staffed.LocksOut "editprofile" := by
      rw [← Configuration.grants_eq_false_iff]
      decide
    refine ⟨S, s', t', hok, ?_, ⟨"ann", ∅⟩, ?_⟩
    · rw [hjournal]
      exact fun h ↦ hgrants (hwarned.1 h)
    · rw [hconf]
      decide

/-- The warning is given of a deny-listed configuration in which bob may edit, and of an
allow-listed one in which the base document lets ann edit. It is not given of one in which
nobody may. -/
theorem exists_commit_misleading :
    (∃ S s' t', Runner.tree.perform (Store.commit desk.documents denying.alone) {}
        (treeOf denying) = (.ok (some S), s', t') ∧
      .lockout "editprofile" ∈ s'.journal ∧
      S.configuration.allows ⟨"bob", ∅⟩ "editprofile" = true) ∧
    (∃ S s' t', Runner.tree.perform (Store.commit desk.documents blank.alone) {}
        (treeOf allowing) = (.ok (some S), s', t') ∧
      .lockout "editprofile" ∈ s'.journal ∧
      S.configuration.allows ⟨"ann", ∅⟩ "editprofile" = true) ∧
    ∃ S s' t', Runner.tree.perform (Store.commit desk.documents allowing.alone) {}
        (treeOf blank) = (.ok (some S), s', t') ∧
      .lockout "editprofile" ∉ s'.journal ∧
      ∀ p, S.configuration.allows p "editprofile" = false := by
  refine ⟨?_, ?_, ?_⟩
  · obtain ⟨S, s', t', hok, hconf, hwarned⟩ := exists_commit_treeOf denying
      (c := denying.alone) (by decide) (by decide) rfl (by decide) (by decide)
    refine ⟨S, s', t', hok, hwarned.2 (by decide), ?_⟩
    rw [hconf]
    decide
  · obtain ⟨S, s', t', hok, hconf, hwarned⟩ := exists_commit_treeOf allowing
      (c := blank.alone) (by decide) (by decide) rfl (by decide) (by decide)
    refine ⟨S, s', t', hok, hwarned.2 (by decide), ?_⟩
    rw [hconf]
    decide
  · obtain ⟨S, s', t', hok, hconf, hwarned⟩ := exists_commit_treeOf blank
      (c := allowing.alone) (by decide) (by decide) rfl (by decide) (by decide)
    refine ⟨S, s', t', hok, fun h ↦ absurd (hwarned.1 h) (by decide), ?_⟩
    have hlocks : S.configuration.LocksOut "editprofile" := by
      rw [← Configuration.grants_eq_false_iff, hconf]
      decide
    rw [hconf] at hlocks ⊢
    exact hlocks

end DocumentFiles

end LayeredRights
