import LayeredRights.Proofs.Document.Lockout

/-!
# Configurations that are exported and read back

What two documents come to follows the rules for entries, because each of them does. So the text of
a configuration as a whole reads back to the same entries, unless it does not read back at all. In
the place of the base document, with no override over it, it decides as the configuration did
(`DocumentFiles.exists_loaded_of_export`).

Whether the text reads back is decided by its strings, which are those of the entries. That is left
as an assumption (`haccepted`) and not spelled out, because whoever exports has the text and can try
it. No assumption is made about the tree that it is read from, beyond what stands at the two paths.
-/

namespace LayeredRights

namespace DocumentFiles

variable {f : DocumentFiles} {t t' : FileTree} {c : Configuration}

/-- Two documents come to something unless there is something wrong with one or between them. -/
theorem exists_loaded_iff : (∃ c, f.loaded t = .ok c) ↔ ∃ base layer,
    (t.run (load f.base)).1.result = .ok base ∧ (t.run f.loadOverride).1.result = .ok layer ∧
      ∀ l ∈ layer, l.mode = base.mode := by
  unfold loaded
  cases (t.run (load f.base)).1.result with
  | error e => simp
  | ok base =>
    cases (t.run f.loadOverride).1.result with
    | error e => simp
    | ok layer =>
      cases layer with
      | none => exact iff_of_true ⟨_, rfl⟩ ⟨base, none, rfl, rfl, nofun⟩
      | some l =>
        by_cases hmode : l.mode = base.mode
        · refine iff_of_true ⟨base.overlaid l, ?_⟩ ⟨base, some l, rfl, rfl, ?_⟩
          · simp only [merge_of_mode_eq hmode]
            rfl
          · rintro _ ⟨rfl⟩
            exact hmode
        · simp [merge, hmode, Except.mapError]

/-- **A configuration that is exported and read back** decides as it did. -/
theorem exists_loaded_of_export (h : f.loaded t = .ok c) {d : Document}
    (haccepted : (Document.ofText c.toDocument.text).result = .ok d)
    (hbase : t'.read f.base = .ok c.toDocument.text.toUTF8)
    (hoverride : t'.probe f.override ≠ some .file) :
    ∃ c', f.loaded t' = .ok c' ∧ ∀ p action, c'.allows p action = c.allows p action := by
  have hlawful : c.toDocument.offence? = none := offence?_of_loaded h
  have hread : (Document.ofText c.toDocument.text).result = .ok (c.toDocument.tagged .factory) := by
    obtain hread | ⟨detail, hfault⟩ := (Document.ofText_text_eq_or_malformed hlawful).1
    · exact hread
    · cases haccepted.symm.trans hfault
  have hload : (t'.run (load f.base)).1.result = .ok (c.toDocument.tagged .factory) := by
    rw [run_load, hbase, ofFile_toUTF8, hread]
  have hlayer : (t'.run f.loadOverride).1.result = .ok none := by
    rw [run_loadOverride, if_neg hoverride]
  -- tags are put on twice, in reading and in merging
  refine ⟨(c.tagged .factory).tagged .factory, ?_, fun p action ↦ ?_⟩
  · simp only [loaded, hload, hlayer]
    rfl
  · rw [Configuration.allows_tagged, Configuration.allows_tagged]

end DocumentFiles

end LayeredRights
