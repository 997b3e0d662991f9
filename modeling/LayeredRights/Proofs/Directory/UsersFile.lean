import LayeredRights.Proofs.Directory.Union
import LayeredRights.Proofs.Json.Records
import LayeredRights.Proofs.Json.Values
import Mathlib.Data.List.Forall2

/-!
# Directories in users files

`HoldsUsers` says which texts are users files and of which entries, by the grammar of JSON and the
shape of records. `Directory.load` reads one file, and what it comes to depends on the result of
that and on nothing else (`Directory.load_eq`). A users file whose users all have names becomes the
directory of its entries (`Directory.ofFile_eq_ok_iff`), and every other file is refused for the
reasons in `Directory.Refused` (`Directory.ofFile_eq_error_iff`).

The two halves are kept apart as far as possible. That a text is a users file of these entries is a
relation between the two, for which a text need not be read, and it is followed from records
(`IsUserEntry`) over files (`IsUsersFile`) to texts. What is made of the entries is the union of
them. In between stands the result of reading a file, which may also be an error or no text at all.

To show that the reasons for a refusal are all the reasons there are, it is enough that each of them
is one and that there is a directory or a reason in every case (`accepted_or_refused`). No two of
them can hold together, as reading a file comes to one thing.
-/

namespace LayeredRights

/-! ### The shape of a users file -/

/-- A value is the record of an entry. Its roles may be missing when there are none. -/
structure IsUserEntry (j : Json) (e : UserEntry) : Prop where
  record : j.IsRecord 2
  username : j.IsField "username" 0 (some (.text (some e.username)))
  roles : (j.IsField "roles" 1 none ∧ e.roles = []) ∨
    j.IsField "roles" 1 (some (.array (e.roles.map fun r ↦ .text (some r))))

/-- A value is the record of a users file with these entries. -/
structure IsUsersFile (j : Json) (es : List UserEntry) : Prop where
  record : j.IsRecord 1
  users : ∃ vs, j.IsField "users" 0 (some (.array vs)) ∧ List.Forall₂ IsUserEntry vs es

/-- A text is a users file with these entries. -/
def HoldsUsers (text : String) (es : List UserEntry) : Prop :=
  ∃ j : Json, Json.Spells j.tokens text.toList ∧ IsUsersFile j es

namespace Directory

variable {j : Json} {text path : String} {e : UserEntry} {es : List UserEntry}

theorem entryOfJson?_eq_some_iff : entryOfJson? j = some e ↔ IsUserEntry j e := by
  constructor
  -- slots are filled by the reader and fields are in the record, so the one gives the other
  · intro h
    unfold entryOfJson? at h
    split at h
    · next username roles hslots =>
      obtain ⟨hrecord, hfields⟩ := Json.fields?_eq_some_iff.1 hslots
      obtain ⟨husername, hfields⟩ := List.forall₂_cons.1 hfields
      obtain ⟨hroles, -⟩ := List.forall₂_cons.1 hfields
      obtain ⟨u, hu, h⟩ := Option.bind_eq_some_iff.1 h
      obtain ⟨rs, hrs, h⟩ := Option.bind_eq_some_iff.1 h
      obtain rfl := Option.some.inj h
      obtain ⟨v, hv, htext⟩ := Json.Slot.required?_eq_some_iff.1 hu
      rw [hv, Json.text?_eq_some_iff.1 htext] at husername
      refine ⟨hrecord, husername, ?_⟩
      rcases Json.Slot.optional?_eq_some_iff.1 hrs with ⟨hnone, rfl⟩ | ⟨w, hw, hlist⟩
      · exact .inl ⟨hnone ▸ hroles, rfl⟩
      · rw [hw, Json.listOf?_text?_eq_some_iff.1 hlist] at hroles
        exact .inr hroles
    · exact nomatch h
  · intro h
    obtain ⟨name, rs⟩ := e
    rcases h.roles with ⟨hnone, rfl⟩ | hroles
    · have hslots : j.fields? ["username", "roles"] = some [.present (.text name), .missing] :=
        Json.fields?_eq_some_iff.2 ⟨h.record, .cons h.username (.cons hnone .nil)⟩
      rw [entryOfJson?, hslots]
      rfl
    · have hslots : j.fields? ["username", "roles"] =
          some [.present (.text name), .present (.array (rs.map fun r ↦ .text (some r)))] :=
        Json.fields?_eq_some_iff.2 ⟨h.record, .cons h.username (.cons hroles .nil)⟩
      have hlist := Json.listOf?_text?_eq_some_iff.2 (rfl : Json.array (rs.map _) = _)
      simp [entryOfJson?, hslots, Json.Slot.required?, Json.Slot.optional?, Json.text?, hlist]

/-- A users file is read as the entries that it has. -/
theorem entriesOfJson?_eq_some_iff : entriesOfJson? j = some es ↔ IsUsersFile j es := by
  constructor
  · intro h
    unfold entriesOfJson? at h
    split at h
    · next users hslots =>
      obtain ⟨hrecord, hfields⟩ := Json.fields?_eq_some_iff.1 hslots
      obtain ⟨husers, -⟩ := List.forall₂_cons.1 hfields
      obtain ⟨v, hv, hlist⟩ := Json.Slot.required?_eq_some_iff.1 h
      obtain ⟨vs, rfl, hentries⟩ := Json.listOf?_eq_some_iff.1 hlist
      simp only [entryOfJson?_eq_some_iff] at hentries
      exact ⟨hrecord, vs, hv ▸ husers, hentries⟩
    · exact nomatch h
  · rintro ⟨hrecord, vs, husers, hentries⟩
    have hslots : j.fields? ["users"] = some [.present (.array vs)] :=
      Json.fields?_eq_some_iff.2 ⟨hrecord, .cons husers .nil⟩
    rw [entriesOfJson?, hslots]
    refine Json.listOf?_eq_some_iff.2 ⟨vs, rfl, ?_⟩
    simpa only [entryOfJson?_eq_some_iff] using hentries

/-- **Exactly the users files are read**, and each as its entries. -/
theorem entriesOfText?_eq_some_iff :
    (Json.ofText? text).bind entriesOfJson? = some es ↔ HoldsUsers text es := by
  simp only [Option.bind_eq_some_iff, Json.ofText?_eq_some_iff, entriesOfJson?_eq_some_iff,
    HoldsUsers]

/-! ### Reading the file -/

/-- What a directory comes to whose file is read with this result. -/
def ofFile (path : String) : Except IoError ByteArray → Except DirectoryError Directory
  | .error e => .error (.io e)
  | .ok bytes =>
    match String.fromUTF8? bytes with
    | none => .error (.io .invalidData)
    | some text => ofText path text

/-- Loading a directory is reading one file and making something of the result. -/
theorem load_eq (path : String) : load path = .read path fun r ↦ .done (ofFile path r) := by
  rw [load, FileJob.textOf]
  refine congrArg (FileJob.read path) (funext fun r ↦ ?_)
  cases r with
  | error e => rfl
  | ok bytes =>
    dsimp only [ofFile, FileJob.andThen]
    cases String.fromUTF8? bytes <;> rfl

/-- What a users file with entries comes to. -/
theorem ofText_of_holdsUsers (path : String) (h : HoldsUsers text es) : ofText path text =
    if es.any fun e ↦ Text.isBlank e.username then .error (.blankUsername path)
    else .ok (ofEntries es) := by
  rw [ofText, entriesOfText?_eq_some_iff.2 h]

/-- What is no users file has one fault, whatever it is instead. -/
theorem ofText_of_not_holdsUsers (path : String) (h : ∀ es, ¬ HoldsUsers text es) :
    ofText path text = .error (.malformed "the users file does not have the expected shape") := by
  have hnone : (Json.ofText? text).bind entriesOfJson? = none :=
    Option.eq_none_iff_forall_ne_some.2 fun es hes ↦ h es (entriesOfText?_eq_some_iff.1 hes)
  rw [ofText, hnone]

/-- A directory is made of the result of reading a file: the text of a users file in which every
user has a name that is not blank. -/
inductive Accepted : Except IoError ByteArray → Directory → Prop
  | intro {text : String} {es : List UserEntry} (h : HoldsUsers text es)
      (hnames : ∀ e ∈ es, ∃ c ∈ e.username.toList, Text.isWhiteSpace c = false) :
      Accepted (.ok text.toUTF8) (ofEntries es)

/-- The result of reading the file at a path is refused. -/
inductive Refused (path : String) : Except IoError ByteArray → DirectoryError → Prop
  | unreadable (e : IoError) : Refused path (.error e) (.io e)
  | notText {bytes : ByteArray} (h : ∀ text : String, text.toUTF8 ≠ bytes) :
      Refused path (.ok bytes) (.io .invalidData)
  | misshapen {text : String} (h : ∀ es, ¬ HoldsUsers text es) :
      Refused path (.ok text.toUTF8)
        (.malformed "the users file does not have the expected shape")
  | blank {text : String} {es : List UserEntry} {e : UserEntry} (h : HoldsUsers text es)
      (he : e ∈ es) (hblank : ∀ c ∈ e.username.toList, Text.isWhiteSpace c = true) :
      Refused path (.ok text.toUTF8) (.blankUsername path)

variable {r : Except IoError ByteArray} {d : Directory} {err : DirectoryError}

/-- Text is read as it was written. -/
theorem ofFile_toUTF8 (path text : String) : ofFile path (.ok text.toUTF8) = ofText path text := by
  have htext : String.fromUTF8? text.toUTF8 = some text := dif_pos text.isValidUTF8
  rw [ofFile, htext]

/-- What is accepted becomes the directory of its entries. -/
theorem Accepted.ofFile_eq (path : String) (h : Accepted r d) : ofFile path r = .ok d := by
  obtain ⟨h, hnames⟩ := h
  rw [ofFile_toUTF8, ofText_of_holdsUsers path h, if_neg]
  rw [Bool.not_eq_true, List.any_eq_false]
  intro e he
  rw [Text.isBlank_eq_false_iff.2 (hnames e he)]
  exact Bool.false_ne_true

theorem Refused.ofFile_eq (h : Refused path r err) : ofFile path r = .error err := by
  cases h with
  | unreadable e => rfl
  | @notText bytes h =>
    have hnone : String.fromUTF8? bytes = none := by
      refine dif_neg fun hvalid ↦ h ⟨bytes, hvalid⟩ rfl
    rw [ofFile, hnone]
  | misshapen h => rw [ofFile_toUTF8, ofText_of_not_holdsUsers path h]
  | @blank text es e h he hblank =>
    have hany : es.any (fun e ↦ Text.isBlank e.username) = true :=
      List.any_eq_true.2 ⟨e, he, List.all_eq_true.2 hblank⟩
    rw [ofFile_toUTF8, ofText_of_holdsUsers path h, if_pos hany]

/-- Whatever reading the file comes to, there is a directory or a reason why there is none. -/
theorem accepted_or_refused (path : String) (r : Except IoError ByteArray) :
    (∃ d, Accepted r d) ∨ ∃ err, Refused path r err := by
  cases r with
  | error e => exact .inr ⟨_, .unreadable e⟩
  | ok bytes =>
    by_cases htext : ∃ text : String, text.toUTF8 = bytes
    · obtain ⟨text, rfl⟩ := htext
      by_cases hes : ∃ es, HoldsUsers text es
      · obtain ⟨es, hes⟩ := hes
        by_cases hblank : ∃ e ∈ es, ∀ c ∈ e.username.toList, Text.isWhiteSpace c = true
        · obtain ⟨e, he, hblank⟩ := hblank
          exact .inr ⟨_, .blank hes he hblank⟩
        · push Not at hblank
          simp only [Bool.not_eq_true] at hblank
          exact .inl ⟨_, .intro hes hblank⟩
      · exact .inr ⟨_, .misshapen (not_exists.1 hes)⟩
    · exact .inr ⟨_, .notText (not_exists.1 htext)⟩

/-- **A directory is made of a users file whose users all have names**, and of nothing else. -/
theorem ofFile_eq_ok_iff : ofFile path r = .ok d ↔ Accepted r d := by
  refine ⟨fun h ↦ ?_, Accepted.ofFile_eq path⟩
  rcases accepted_or_refused path r with ⟨d', h'⟩ | ⟨err, h'⟩
  · rw [h'.ofFile_eq path] at h
    exact Except.ok.inj h ▸ h'
  · rw [h'.ofFile_eq] at h
    exact nomatch h

/-- **Everything else is refused**, each for its own reason. -/
theorem ofFile_eq_error_iff : ofFile path r = .error err ↔ Refused path r err := by
  refine ⟨fun h ↦ ?_, Refused.ofFile_eq⟩
  rcases accepted_or_refused path r with ⟨d', h'⟩ | ⟨err', h'⟩
  · rw [h'.ofFile_eq path] at h
    exact nomatch h
  · rw [h'.ofFile_eq] at h
    exact Except.error.inj h ▸ h'

/-! ### Directories of entries -/

/-- **A directory is the union of its entries**, whatever their order and however an entry is split.
A users file is loaded as the directory of its entries, and it is refused exactly when it cannot be
read, is not JSON of the expected shape, or has a user without a name. -/
theorem isUnion_and_load_iff (es : List UserEntry) :
    (ofEntries es).IsUnion es ∧
    (∀ es', es.Perm es' → ofEntries es' = ofEntries es) ∧
    (∀ before e after parts, es = before ++ e :: after → IsSplit e parts →
      ofEntries (before ++ parts ++ after) = ofEntries es) ∧
    ∀ path, load path = .read path (fun r ↦ .done (ofFile path r)) ∧
      ∀ r, (∀ d, ofFile path r = .ok d ↔ Accepted r d) ∧
        ∀ err, ofFile path r = .error err ↔ Refused path r err := by
  refine ⟨isUnion_ofEntries es, fun es' h ↦ (ofEntries_perm h).symm, ?_, fun path ↦ ?_⟩
  · rintro before e after parts rfl h
    exact ofEntries_split h before after
  · exact ⟨load_eq path, fun r ↦ ⟨fun d ↦ ofFile_eq_ok_iff, fun err ↦ ofFile_eq_error_iff⟩⟩

/-- Two users, one of them without roles. -/
def staff : List UserEntry := [⟨"bob", []⟩, ⟨"alice", ["clerk", "auditor"]⟩]

/-- A users file of the staff, in which one record is an array and the other has a member that means
nothing. -/
def staffText : String :=
  "\x7b\"users\": [[\"bob\"], \x7b\"username\": \"alice\", \"since\": 2019, " ++
    "\"roles\": [\"clerk\", \"auditor\"]\x7d]\x7d"

/-- The staff may be given in another order, in more entries and in a file. A blank name in a file
stands against all of it. -/
theorem isUnion_and_load_iff_staff :
    (ofEntries staff).usernames.Pairwise (· < ·) ∧ "bob" ∈ (ofEntries staff).usernames ∧
    ofEntries staff.reverse = ofEntries staff ∧
    ofEntries [⟨"bob", []⟩, ⟨"alice", ["auditor"]⟩, ⟨"alice", ["clerk", "auditor"]⟩] =
      ofEntries staff ∧
    Accepted (.ok staffText.toUTF8) (ofEntries staff) ∧
    Refused "users.json" (.ok "[[[\"bob\"], [\" \"]]]".toUTF8) (.blankUsername "users.json") := by
  obtain ⟨hunion, hperm, hsplit, hload⟩ := isUnion_and_load_iff staff
  have halice : IsSplit ⟨"alice", ["clerk", "auditor"]⟩
      [⟨"alice", ["auditor"]⟩, ⟨"alice", ["clerk", "auditor"]⟩] := {
    ne_nil := List.cons_ne_nil _ _
    username_eq := by decide
    mem_roles := fun r ↦ by simpa using Or.inr }
  refine ⟨hunion.usernames_ascending, (hunion.mem_usernames "bob").2 ⟨⟨"bob", []⟩, .head _, rfl⟩,
    hperm _ staff.reverse_perm.symm, hsplit [⟨"bob", []⟩] _ [] _ rfl halice, ?_, ?_⟩
  · refine (((hload "users.json").2 _).1 _).1 ?_
    rw [ofFile_toUTF8]
    decide +kernel
  · refine (((hload "users.json").2 _).2 _).1 ?_
    rw [ofFile_toUTF8]
    decide +kernel

end Directory

end LayeredRights
