import LayeredRights.Rights.Configuration
import Mathlib.Data.List.Nodup

/-!
# Lists of entries

Entries are looked up by a key, and the rules for entries make the key a name: it is not blank and
nothing else in the list has it. `Lawful` says the rules without the walk that looks for the first
break of them, and `firstOffence?_eq_none_iff` says that the walk finds nothing exactly when they
hold. What is left of lawful lists when entries are taken out is lawful (`Lawful.sublist`), and the
layer an entry comes from has no part in it (`firstOffence?_map_tagged`).

The walk keeps the names that it has met, so each lemma about it is stated for any names met before
(`seen`), and the induction generalizes over them. At the top there are none, and the clauses about
them go away in `firstOffence?_eq_none_iff`. Everything that comes later cites that one equivalence:
whether entries are accepted is asked of the walk, and what that is worth is taken from `Lawful`.

Which offence is found first does not matter here. It is said where it does, of every break of a
rule at once (`IsFirstBreak`).
-/

namespace LayeredRights

/-! ### Look-up by a key -/

section Keys

variable {α : Type} {key : α → String} {l : List α}

/-- Where no key is repeated, looking for the key of an element finds that element. -/
theorem find?_key_of_mem (h : (l.map key).Nodup) {a : α} (ha : a ∈ l) :
    l.find? (key · = key a) = some a := by
  induction l with
  | nil => exact absurd ha List.not_mem_nil
  | cons b l ih =>
    obtain ⟨hb, hl⟩ := List.nodup_cons.1 h
    rcases List.mem_cons.1 ha with rfl | hmem
    · exact List.find?_cons_of_pos (by simp)
    · have hne : key b ≠ key a := fun heq ↦ hb (heq ▸ List.mem_map_of_mem hmem)
      rw [List.find?_cons_of_neg (by simpa using hne), ih hl hmem]

/-- Where no key is repeated, looking for a key finds an element exactly when it is in the list and
has the key, wherever in the list it is. -/
theorem find?_key_eq_some_iff (h : (l.map key).Nodup) {k : String} {a : α} :
    l.find? (key · = k) = some a ↔ a ∈ l ∧ key a = k := by
  refine ⟨fun hfind ↦ ⟨List.mem_of_find?_eq_some hfind, ?_⟩, ?_⟩
  · exact of_decide_eq_true (List.find?_some (p := fun b ↦ decide (key b = k)) hfind)
  · rintro ⟨hmem, rfl⟩
    exact find?_key_of_mem h hmem

end Keys

/-! ### The rules -/

/-- The rules for the entries of a document or a configuration. -/
structure Lawful (profiles : List Profile) (userProfiles : List UserProfile) : Prop where
  name_not_blank : ∀ p ∈ profiles, Text.isBlank p.name = false
  names_nodup : (profiles.map (·.name)).Nodup
  actions_nodup : ∀ p ∈ profiles, p.actions.Nodup
  login_not_blank : ∀ u ∈ userProfiles, Text.isBlank u.login = false
  logins_nodup : (userProfiles.map (·.login)).Nodup

/-- No repetition is found in names that differ from each other and from all that were met before.
-/
theorem firstRepeat?_eq_none_iff {seen xs : List String} :
    firstRepeat? seen xs = none ↔ xs.Nodup ∧ ∀ x ∈ xs, x ∉ seen := by
  induction xs generalizing seen with
  | nil => simp [firstRepeat?]
  | cons x xs ih =>
    by_cases hx : x ∈ seen
    · simp [firstRepeat?, hx]
    -- the name is met from here on, and the rest is asked about it as well
    · simp only [firstRepeat?, if_neg hx, ih, List.nodup_cons, List.mem_cons]
      grind

/-- One profile is accepted after others of these names. Its actions are compared with each other
only, not with those of other profiles. -/
theorem Profile.offence?_eq_none_iff {seen : List String} {p : Profile} :
    p.offence? seen = none ↔
      Text.isBlank p.name = false ∧ p.name ∉ seen ∧ p.actions.Nodup := by
  unfold Profile.offence?
  split
  · next h => simp [h]
  · next hblank =>
    split
    · next h => simp [h]
    · next hseen => simp [hblank, hseen, firstRepeat?_eq_none_iff]

/-- One user profile is accepted after others of these logins. Its references are not looked at. -/
theorem UserProfile.offence?_eq_none_iff {seen : List String} {u : UserProfile} :
    u.offence? seen = none ↔ Text.isBlank u.login = false ∧ u.login ∉ seen := by
  unfold UserProfile.offence?
  split
  · next h => simp [h]
  · next hblank => simp [hblank]

/-- The walk over the profiles finds nothing. What is said of the names met before is what the
induction needs, and holds of none at the start. -/
theorem profilesOffence?_eq_none_iff {seen : List String} {ps : List Profile} :
    profilesOffence? seen ps = none ↔
      (∀ p ∈ ps, Text.isBlank p.name = false) ∧ (ps.map (·.name)).Nodup ∧
        (∀ p ∈ ps, p.name ∉ seen) ∧ ∀ p ∈ ps, p.actions.Nodup := by
  induction ps generalizing seen with
  | nil => simp [profilesOffence?]
  | cons p ps ih =>
    rw [profilesOffence?, Option.or_eq_none_iff, Profile.offence?_eq_none_iff, ih]
    simp only [List.map_cons, List.nodup_cons, List.mem_cons, List.mem_map]
    grind

/-- The walk over the user profiles finds nothing; as for profiles, without actions. -/
theorem userProfilesOffence?_eq_none_iff {seen : List String} {us : List UserProfile} :
    userProfilesOffence? seen us = none ↔
      (∀ u ∈ us, Text.isBlank u.login = false) ∧ (us.map (·.login)).Nodup ∧
        ∀ u ∈ us, u.login ∉ seen := by
  induction us generalizing seen with
  | nil => simp [userProfilesOffence?]
  | cons u us ih =>
    rw [userProfilesOffence?, Option.or_eq_none_iff, UserProfile.offence?_eq_none_iff, ih]
    simp only [List.map_cons, List.nodup_cons, List.mem_cons, List.mem_map]
    grind

/-- **The walk over the entries finds nothing exactly when they follow the rules.** -/
theorem firstOffence?_eq_none_iff {ps : List Profile} {us : List UserProfile} :
    firstOffence? ps us = none ↔ Lawful ps us := by
  rw [firstOffence?, Option.or_eq_none_iff, profilesOffence?_eq_none_iff,
    userProfilesOffence?_eq_none_iff]
  constructor
  · rintro ⟨⟨hname, hnames, -, hactions⟩, hlogin, hlogins, -⟩
    exact ⟨hname, hnames, hactions, hlogin, hlogins⟩
  · intro h
    exact ⟨⟨h.name_not_blank, h.names_nodup, by simp, h.actions_nodup⟩, h.login_not_blank,
      h.logins_nodup, by simp⟩

/-- Taking entries out breaks no rule. -/
theorem Lawful.sublist {ps ps' : List Profile} {us us' : List UserProfile} (h : Lawful ps us)
    (hp : ps'.Sublist ps) (hu : us'.Sublist us) : Lawful ps' us' where
  name_not_blank p hmem := h.name_not_blank p (hp.subset hmem)
  names_nodup := h.names_nodup.sublist (hp.map _)
  actions_nodup p hmem := h.actions_nodup p (hp.subset hmem)
  login_not_blank u hmem := h.login_not_blank u (hu.subset hmem)
  logins_nodup := h.logins_nodup.sublist (hu.map _)

/-- The walk over the profiles does not look at their layers, whatever it finds. -/
theorem profilesOffence?_map_tagged (o : Origin) (seen : List String) (ps : List Profile) :
    profilesOffence? seen (ps.map (·.tagged o)) = profilesOffence? seen ps := by
  induction ps generalizing seen with
  | nil => rfl
  | cons p ps ih =>
    rw [List.map_cons, profilesOffence?, profilesOffence?, ih]
    rfl

theorem userProfilesOffence?_map_tagged (o : Origin) (seen : List String) (us : List UserProfile) :
    userProfilesOffence? seen (us.map (·.tagged o)) = userProfilesOffence? seen us := by
  induction us generalizing seen with
  | nil => rfl
  | cons u us ih =>
    rw [List.map_cons, userProfilesOffence?, userProfilesOffence?, ih]
    rfl

/-- No rule asks for the layer of an entry. -/
theorem firstOffence?_map_tagged (o : Origin) (ps : List Profile) (us : List UserProfile) :
    firstOffence? (ps.map (·.tagged o)) (us.map (·.tagged o)) = firstOffence? ps us := by
  rw [firstOffence?, firstOffence?, profilesOffence?_map_tagged, userProfilesOffence?_map_tagged]

/-- A document is as acceptable when its entries are said to be from another layer. -/
@[simp] theorem Document.offence?_tagged (d : Document) (o : Origin) :
    (d.tagged o).offence? = d.offence? :=
  firstOffence?_map_tagged o d.profiles d.userProfiles

/-- An acceptable configuration has an acceptable document of modifications. -/
theorem Configuration.offence?_modifications {c : Configuration} (h : c.offence? = none) :
    c.modifications.offence? = none :=
  firstOffence?_eq_none_iff.2
    ((firstOffence?_eq_none_iff.1 h).sublist List.filter_sublist List.filter_sublist)

end LayeredRights
