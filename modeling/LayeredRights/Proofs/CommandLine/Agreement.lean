import LayeredRights.Proofs.CommandLine.Tasks
import LayeredRights.Proofs.Document.Export

/-!
# The commands agree

The commands that ask an engine give three views of one configuration: a decision, the set that is
listed for a login, and the configuration as a whole. They fail under the same circumstances
(`Unusable`), a decision is what the mode makes of the set that is listed, and what is shown decides
like the configuration in force once it is the base document (`agree_of_commands`). None of them
changes a file, and neither does checking a document.

There are five things that can be wrong with the files, and `not_unusable_iff` says that there is
something to go by if none of them is. Given that, the commands that ask an engine have one outcome
up to the text that each of them says (`outcome_of_basis`), and the views are compared by what they
say of one basis. What is shown is read back by the grammar of documents, and exporting a
configuration keeps its decisions.
-/

namespace LayeredRights

namespace CommandLine

variable {t : FileTree} {around : Surroundings} {path : String}

/-- How the program ends. -/
def outcome (around : Surroundings) (args : List String) (t : FileTree) : Outcome :=
  (t.run (run around args)).1

/-- The command asks an engine about what is in force. -/
def Command.Consults : Command → Prop
  | .check _ _ | .actions _ | .present => True
  | .validate _ | .apply _ => False

/-- Something is wrong with a file that an engine has to go by. -/
inductive Unusable (around : Surroundings) (path : String) (t : FileTree) : Prop
  | settings {e : SettingsError} (h : settingsAt around path t = .error e)
  | users {s : Settings} {e : DirectoryError} (hs : settingsAt around path t = .ok s)
      (h : directoryFor s t = .error e)
  | base {s : Settings} {e : RightsError} (hs : settingsAt around path t = .ok s)
      (h : (t.run (DocumentFiles.load s.files.base)).1.result = .error e)
  | layer {s : Settings} {e : RightsError} (hs : settingsAt around path t = .ok s)
      (h : (t.run s.files.loadOverride).1.result = .error e)
  | conflict {s : Settings} {base layer : Document} (hs : settingsAt around path t = .ok s)
      (hbase : (t.run (DocumentFiles.load s.files.base)).1.result = .ok base)
      (hlayer : (t.run s.files.loadOverride).1.result = .ok (some layer))
      (hm : layer.mode ≠ base.mode)

/-- What an engine goes by are the three things that are loaded. -/
theorem basis_eq_ok_iff {b : Basis} : basis around path t = .ok b ↔
    settingsAt around path t = .ok b.settings ∧ directoryFor b.settings t = .ok b.directory ∧
      b.settings.files.loaded t = .ok b.configuration := by
  constructor
  · intro h
    unfold basis at h
    cases hsettings : settingsAt around path t with
    | error e =>
      rw [hsettings] at h
      cases h
    | ok s =>
      rw [hsettings] at h
      dsimp only [Except.mapError, Except.bind] at h
      cases hdirectory : directoryFor s t with
      | error e =>
        rw [hdirectory] at h
        cases h
      | ok directory =>
        rw [hdirectory] at h
        dsimp only at h
        cases hloaded : s.files.loaded t with
        | error e =>
          rw [hloaded] at h
          cases h
        | ok c =>
          rw [hloaded] at h
          cases h
          exact ⟨rfl, hdirectory, hloaded⟩
  · rintro ⟨hsettings, hdirectory, hloaded⟩
    rw [basis, hsettings]
    dsimp only [Except.mapError, Except.bind]
    rw [hdirectory]
    dsimp only
    rw [hloaded]
    rfl

/-- **There is something to go by exactly when nothing is wrong.** -/
theorem not_unusable_iff : ¬Unusable around path t ↔ ∃ b, basis around path t = .ok b := by
  constructor
  · intro h
    cases hsettings : settingsAt around path t with
    | error e => exact absurd (.settings hsettings) h
    | ok s =>
      cases hdirectory : directoryFor s t with
      | error e => exact absurd (.users hsettings hdirectory) h
      | ok directory =>
        cases hbase : (t.run (DocumentFiles.load s.files.base)).1.result with
        | error e => exact absurd (.base hsettings hbase) h
        | ok base =>
          cases hlayer : (t.run s.files.loadOverride).1.result with
          | error e => exact absurd (.layer hsettings hlayer) h
          | ok layer =>
            have hmode : ∀ l ∈ layer, l.mode = base.mode := by
              rintro l rfl
              by_contra hm
              exact h (.conflict hsettings hbase hlayer hm)
            obtain ⟨c, hc⟩ := DocumentFiles.exists_loaded_iff.2 ⟨base, layer, hbase, hlayer, hmode⟩
            exact ⟨⟨s, directory, c⟩, basis_eq_ok_iff.2 ⟨hsettings, hdirectory, hc⟩⟩
  · rintro ⟨b, hb⟩ h
    obtain ⟨hsettings, hdirectory, hloaded⟩ := basis_eq_ok_iff.1 hb
    obtain ⟨base, layer, hbase, hlayer, hmode⟩ :=
      DocumentFiles.exists_loaded_iff.1 ⟨b.configuration, hloaded⟩
    have hsame : ∀ {s}, settingsAt around path t = .ok s → s = b.settings := fun hs ↦
      Except.ok.inj (hs.symm.trans hsettings)
    cases h with
    | settings h => cases h.symm.trans hsettings
    | users hs h =>
      obtain rfl := hsame hs
      cases h.symm.trans hdirectory
    | base hs h =>
      obtain rfl := hsame hs
      cases h.symm.trans hbase
    | layer hs h =>
      obtain rfl := hsame hs
      cases h.symm.trans hlayer
    | conflict hs hbase' hlayer' hm =>
      obtain rfl := hsame hs
      obtain rfl := Except.ok.inj (hbase.symm.trans hbase')
      obtain rfl := Except.ok.inj (hlayer.symm.trans hlayer')
      exact hm (hmode _ rfl)

/-- A question can be asked about any login and any action, with any settings file. -/
theorem exists_parse_eq (path : String) {c : Command} (hc : c.Consults) :
    ∃ args, parse args = .ok (.run path c) := by
  have hpath : Leading.ofWord ("--config=" ++ path) = .settings (some path) := by
    unfold Leading.ofWord
    rw [String.toList_append]
    simp
  have hname : ∀ v : Verb, Leading.ofWord v.name = .word ∧ Verb.ofName? v.name = some v := by
    rintro (_ | _ | _ | _ | _) <;> decide
  have hverb : ∀ (v : Verb) ws,
      parse (("--config=" ++ path) :: v.name :: ws) = ofVerb path v ws := by
    intro v ws
    obtain ⟨hword, hverb⟩ := hname v
    rw [parse, parseFrom.eq_def]
    simp only [hpath, Option.isSome_none, Bool.false_eq_true, if_false]
    rw [parseFrom.eq_def]
    simp only [hword, hverb, Option.getD_some]
  cases c with
  | check login action => exact ⟨_, hverb .check ["--", login, action]⟩
  | actions login => exact ⟨_, hverb .actions ["--", login]⟩
  | present => exact ⟨_, hverb .present []⟩
  | validate | apply => exact hc.elim

/-- Everything is as it was, but the text is the base document and there is no override. -/
structure Rebased (around : Surroundings) (path : String) (t t' : FileTree) (text : String) :
    Prop where
  settings : settingsAt around path t' = settingsAt around path t
  directory : ∀ s, settingsAt around path t = .ok s → directoryFor s t' = directoryFor s t
  base : ∀ s, settingsAt around path t = .ok s → t'.read s.files.base = .ok text.toUTF8
  override : ∀ s, settingsAt around path t = .ok s → t'.probe s.files.override ≠ some .file

/-- The commands that ask an engine say the same of a configuration in different ways. -/
structure Agree (around : Surroundings) (path : String) (t : FileTree) : Prop where
  /-- There are arguments for each of them. -/
  asked : ∀ c : Command, c.Consults → ∃ args, parse args = .ok (.run path c)
  /-- All of them fail where something is wrong with the files, and say nothing. -/
  fails : Unusable around path t → ∀ args c, parse args = .ok (.run path c) → c.Consults →
    (outcome around args t).status = 1 ∧ (outcome around args t).output = ""
  /-- They succeed otherwise. -/
  succeeds : ¬Unusable around path t → ∀ args c, parse args = .ok (.run path c) → c.Consults →
    (outcome around args t).status = 0
  /-- A decision is what the mode makes of the set that is listed. -/
  decides : ¬Unusable around path t → ∃ (mode : PolicyMode) (S : String → NameSet),
    (∀ args login, parse args = .ok (.run path (.actions login)) →
      (outcome around args t).output = listing login mode (S login)) ∧
    ∀ args login action, parse args = .ok (.run path (.check login action)) →
      (outcome around args t).output = verdict (mode.decide (action ∈ S login))
  /-- What is shown decides in the same way once it is the base document, if it can be read. -/
  shows : ¬Unusable around path t → ∀ args d, parse args = .ok (.run path .present) →
    (Document.ofText (outcome around args t).output).result = .ok d →
      ∀ t', Rebased around path t t' (outcome around args t).output →
        ∀ args' login action, parse args' = .ok (.run path (.check login action)) →
          (outcome around args' t').status = 0 ∧
            (outcome around args' t').output = (outcome around args' t).output

/-- Only applying a document changes files. -/
theorem run_eq_of_reading {args : List String}
    (h : ∀ path file, parse args ≠ .ok (.run path (.apply file))) :
    (t.run (run around args)).2 = t := by
  cases hargs : parse args with
  | error e =>
    rw [run, hargs]
    rfl
  | ok i =>
    cases i with
    | help =>
      rw [run, hargs]
      rfl
    | version =>
      rw [run, hargs]
      rfl
    | run path c =>
      obtain ⟨r, hgives⟩ : ∃ r, (runCommand around path c).Gives t r := by
        cases c with
        | check login action => exact ⟨_, gives_check around path login action t⟩
        | actions login => exact ⟨_, gives_actions around path login t⟩
        | present => exact ⟨_, gives_present around path t⟩
        | validate file => exact exists_gives_validate around path file t
        | apply file => exact absurd hargs (h path file)
      obtain ⟨remarks, hrun⟩ := exists_run hargs hgives
      rw [hrun]

/-- What a command that asks an engine ends with, given what there is to go by. -/
theorem outcome_of_basis {args : List String} {c : Command} {out : Basis → String}
    (hargs : parse args = .ok (.run path c))
    (h : (runCommand around path c).Gives t ((basis around path t).map out)) :
    (∀ e, basis around path t = .error e →
      (outcome around args t).status = 1 ∧ (outcome around args t).output = "") ∧
    ∀ b, basis around path t = .ok b →
      (outcome around args t).status = 0 ∧ (outcome around args t).output = out b := by
  obtain ⟨remarks, hrun⟩ := exists_run hargs h
  rw [outcome, hrun]
  refine ⟨fun e he ↦ ?_, fun b hb ↦ ?_⟩
  · rw [he]
    exact ⟨rfl, rfl⟩
  · rw [hb]
    exact ⟨rfl, rfl⟩

/-- What each command that asks an engine says. -/
theorem exists_gives_of_consults {c : Command} (hc : c.Consults) (around : Surroundings)
    (path : String) (t : FileTree) : ∃ out : Basis → String,
      (runCommand around path c).Gives t ((basis around path t).map out) := by
  cases c with
  | check login action => exact ⟨_, gives_check around path login action t⟩
  | actions login => exact ⟨_, gives_actions around path login t⟩
  | present => exact ⟨_, gives_present around path t⟩
  | validate | apply => exact hc.elim

/-- **The commands agree, and leave the files alone.** -/
theorem agree_of_commands (around : Surroundings) (t : FileTree) :
    (∀ args, (∀ path file, parse args ≠ .ok (.run path (.apply file))) →
      (t.run (run around args)).2 = t) ∧
    ∀ path, Agree around path t := by
  refine ⟨fun args ↦ run_eq_of_reading, fun path ↦ ⟨fun c ↦ exists_parse_eq path, ?_, ?_, ?_, ?_⟩⟩
  · intro h args c hargs hc
    obtain ⟨out, hgives⟩ := exists_gives_of_consults hc around path t
    cases hbasis : basis around path t with
    | error e => exact (outcome_of_basis hargs hgives).1 e hbasis
    | ok b => exact absurd h (not_unusable_iff.2 ⟨b, hbasis⟩)
  · intro h args c hargs hc
    obtain ⟨b, hbasis⟩ := not_unusable_iff.1 h
    obtain ⟨out, hgives⟩ := exists_gives_of_consults hc around path t
    exact ((outcome_of_basis hargs hgives).2 b hbasis).1
  · intro h
    obtain ⟨b, hbasis⟩ := not_unusable_iff.1 h
    refine ⟨b.configuration.mode,
      fun login ↦ b.configuration.listedActions ⟨login, b.directory.rolesOf login⟩, ?_, ?_⟩
    · intro args login hargs
      exact ((outcome_of_basis hargs (gives_actions around path login t)).2 b hbasis).2
    · intro args login action hargs
      exact ((outcome_of_basis hargs (gives_check around path login action t)).2 b hbasis).2
  · intro h args d hargs hd t' hrebased args' login action hargs'
    obtain ⟨b, hbasis⟩ := not_unusable_iff.1 h
    obtain ⟨hsettings, hdirectory, hloaded⟩ := basis_eq_ok_iff.1 hbasis
    obtain ⟨-, hshown⟩ := (outcome_of_basis hargs (gives_present around path t)).2 b hbasis
    rw [hshown] at hd hrebased
    obtain ⟨c', hloaded', hallows⟩ := DocumentFiles.exists_loaded_of_export hloaded hd
      (hrebased.base _ hsettings) (hrebased.override _ hsettings)
    have hbasis' : basis around path t' = .ok ⟨b.settings, b.directory, c'⟩ := by
      refine basis_eq_ok_iff.2 ⟨hrebased.settings.trans hsettings, ?_, hloaded'⟩
      exact (hrebased.directory _ hsettings).trans hdirectory
    obtain ⟨hstatus, hdecided⟩ :=
      (outcome_of_basis hargs' (gives_check around path login action t')).2 _ hbasis'
    obtain ⟨-, hdecided'⟩ :=
      (outcome_of_basis hargs' (gives_check around path login action t)).2 b hbasis
    refine ⟨hstatus, ?_⟩
    rw [hdecided, hdecided', hallows]

/-- A file system with a base document at its usual place, and with nothing else in it. -/
def bareTree : FileTree where
  nodes := [(["conf"], .directory),
    (["conf", "rights-default.kdl"], .file DocumentFiles.blank.text.toUTF8)]

theorem exists_basis_bareTree :
    ∃ b, basis { workingDirectory := "/" } defaultSettings bareTree = .ok b := by
  let s : Settings := {
    files := { base := "/conf/rights-default.kdl", override := "/conf/rights.kdl" }
    editAction := "editprofile" }
  have hsettings : settingsAt { workingDirectory := "/" } defaultSettings bareTree = .ok s := rfl
  have hbase : (bareTree.run (DocumentFiles.load s.files.base)).1.result =
      .ok (DocumentFiles.blank.tagged .factory) := by
    have hlocate : bareTree.locate "/conf/rights-default.kdl" =
        .ok ["conf", "rights-default.kdl"] := by decide
    rw [DocumentFiles.run_load_of_node? hlocate rfl, Document.ofText_text (by decide)]
    rfl
  have hlayer : (bareTree.run s.files.loadOverride).1.result = .ok none := by
    have hprobe : bareTree.probe "/conf/rights.kdl" = none := by decide
    rw [DocumentFiles.run_loadOverride, hprobe]
    rfl
  obtain ⟨c, hc⟩ := DocumentFiles.exists_loaded_iff.2 ⟨_, none, hbase, hlayer, nofun⟩
  exact ⟨⟨s, ∅, c⟩, basis_eq_ok_iff.2 ⟨hsettings, rfl, hc⟩⟩

/-- A decision is made there, and the files stay as they are. -/
theorem agree_of_commands_bareTree :
    parse ["check", "ann", "read"] = .ok (.run defaultSettings (.check "ann" "read")) ∧
      (outcome { workingDirectory := "/" } ["check", "ann", "read"] bareTree).status = 0 ∧
      (bareTree.run (run { workingDirectory := "/" } ["check", "ann", "read"])).2 = bareTree := by
  have hargs : parse ["check", "ann", "read"] =
      .ok (.run defaultSettings (.check "ann" "read")) := by decide
  obtain ⟨hspares, hagree⟩ := agree_of_commands { workingDirectory := "/" } bareTree
  refine ⟨hargs, ?_, hspares _ fun path file h ↦ ?_⟩
  · exact (hagree defaultSettings).succeeds (not_unusable_iff.2 exists_basis_bareTree) _ _ hargs
      trivial
  · cases hargs.symm.trans h

end CommandLine

end LayeredRights
