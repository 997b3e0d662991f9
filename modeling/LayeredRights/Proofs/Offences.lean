import LayeredRights.Proofs.Entries

/-!
# The first offence

Entries can break the rules in many places at once, and one break is reported. Which one is said
here without the walk that finds it. `Breaks` says of every place whether a rule is broken there,
and with which offence, from the lists alone: a name is repeated if an earlier entry has it, whether
or not that entry breaks a rule itself. Places have the order in which they are written, profiles
before user profiles, and at one place a blank key comes before a repeated key, and that before the
actions in their order.

`IsFirstBreak` is the first of all breaks in this order. What is reported is the first break
(`exists_isFirstBreak`), and as there is only one it is nothing else (`firstOffence?_eq_some_iff`).
All that the proof takes from the walk is that it stops at an entry with lawful entries before it
(`exists_stop_of_walk`), and this is the same for profiles, for user profiles and for the actions of
a profile. That no earlier place is broken follows from those entries being lawful, since a break
has to do with no entry after it (`Breaks.take`).
-/

namespace LayeredRights

variable {ps ps' : List Profile} {us us' : List UserProfile} {o o' : Offence}

/-! ### Places and rules -/

/-- An entry, by its number in its list. -/
inductive Place
  | profile (i : Nat)
  | userProfile (i : Nat)
  deriving DecidableEq, Repr

/-- A rule for one entry, with the number of the action that is concerned. -/
inductive Rule
  | notBlank
  | unique
  | distinct (k : Nat)
  deriving DecidableEq, Repr

/-- One place comes before another: profiles come before user profiles, and otherwise the numbers
count. -/
inductive Place.Before : Place → Place → Prop
  | profiles {i j : Nat} (h : i < j) : Before (.profile i) (.profile j)
  | across (i j : Nat) : Before (.profile i) (.userProfile j)
  | userProfiles {i j : Nat} (h : i < j) : Before (.userProfile i) (.userProfile j)

/-- One rule for an entry is asked for before another. -/
inductive Rule.Before : Rule → Rule → Prop
  | notBlank_unique : Before .notBlank .unique
  | notBlank_distinct (k : Nat) : Before .notBlank (.distinct k)
  | unique_distinct (k : Nat) : Before .unique (.distinct k)
  | distinct {k l : Nat} (h : k < l) : Before (.distinct k) (.distinct l)

/-- The profiles before a place. -/
def Place.profilesBefore (ps : List Profile) : Place → List Profile
  | profile i => ps.take i
  | userProfile _ => ps

/-- The user profiles before a place. -/
def Place.userProfilesBefore (us : List UserProfile) : Place → List UserProfile
  | profile _ => []
  | userProfile i => us.take i

/-- The entry at a place breaks a rule, and the offence that this is. -/
inductive Breaks (ps : List Profile) (us : List UserProfile) : Place → Rule → Offence → Prop
  | blankName {i : Nat} {p : Profile} (hp : ps[i]? = some p)
      (h : ∀ c ∈ p.name.toList, Text.isWhiteSpace c = true) :
      Breaks ps us (.profile i) .notBlank .blankProfileName
  | repeatedName {i : Nat} {p : Profile} (hp : ps[i]? = some p)
      (h : p.name ∈ (ps.take i).map (·.name)) :
      Breaks ps us (.profile i) .unique (.duplicateProfile p.name)
  | repeatedAction {i k : Nat} {p : Profile} {a : String} (hp : ps[i]? = some p)
      (ha : p.actions[k]? = some a) (h : a ∈ p.actions.take k) :
      Breaks ps us (.profile i) (.distinct k) (.duplicateAction a p.name)
  | blankLogin {i : Nat} {u : UserProfile} (hu : us[i]? = some u)
      (h : ∀ c ∈ u.login.toList, Text.isWhiteSpace c = true) :
      Breaks ps us (.userProfile i) .notBlank .blankLogin
  | repeatedLogin {i : Nat} {u : UserProfile} (hu : us[i]? = some u)
      (h : u.login ∈ (us.take i).map (·.login)) :
      Breaks ps us (.userProfile i) .unique (.duplicateLogin u.login)

/-- The first break of a rule: no break comes before it, and the entries before it are lawful. -/
structure IsFirstBreak (ps : List Profile) (us : List UserProfile) (x : Place) (r : Rule)
    (o : Offence) : Prop where
  breaks : Breaks ps us x r o
  place_first : ∀ y r' o', Breaks ps us y r' o' → ¬ y.Before x
  rule_first : ∀ r' o', Breaks ps us x r' o' → ¬ r'.Before r
  lawful_before : Lawful (x.profilesBefore ps) (x.userProfilesBefore us)

/-- Numbered things in the order of their numbers are equal or one is before the other. -/
theorem eq_or_related {α : Type} {R : α → α → Prop} {f : Nat → α}
    (hR : ∀ {i j : Nat}, i < j → R (f i) (f j)) (i j : Nat) :
    f i = f j ∨ R (f i) (f j) ∨ R (f j) (f i) := by
  rcases Nat.lt_trichotomy i j with h | rfl | h
  · exact .inr (.inl (hR h))
  · exact .inl rfl
  · exact .inr (.inr (hR h))

/-- Of two places one comes before the other, so that there is at most one first break. -/
theorem Place.eq_or_before (x y : Place) : x = y ∨ x.Before y ∨ y.Before x := by
  cases x with
  | profile i =>
    cases y with
    | profile j => exact eq_or_related .profiles i j
    | userProfile j => exact .inr (.inl (.across i j))
  | userProfile i =>
    cases y with
    | profile j => exact .inr (.inr (.across j i))
    | userProfile j => exact eq_or_related .userProfiles i j

/-- Of two rules one comes before the other. -/
theorem Rule.eq_or_before (r r' : Rule) : r = r' ∨ r.Before r' ∨ r'.Before r := by
  cases r with
  | notBlank =>
    cases r' with
    | notBlank => exact .inl rfl
    | unique => exact .inr (.inl .notBlank_unique)
    | distinct l => exact .inr (.inl (.notBlank_distinct l))
  | unique =>
    cases r' with
    | notBlank => exact .inr (.inr .notBlank_unique)
    | unique => exact .inl rfl
    | distinct l => exact .inr (.inl (.unique_distinct l))
  | distinct k =>
    cases r' with
    | notBlank => exact .inr (.inr (.notBlank_distinct k))
    | unique => exact .inr (.inr (.unique_distinct k))
    | distinct l => exact eq_or_related .distinct k l

/-! ### Lawful entries break no rule -/

/-- What is in a list without repetitions is not there any earlier. -/
theorem notMem_take_of_nodup {α : Type} {l : List α} {i : Nat} {a : α} (h : l.Nodup)
    (ha : l[i]? = some a) : a ∉ l.take i := by
  obtain ⟨hi, rfl⟩ := List.getElem?_eq_some_iff.1 ha
  intro hmem
  obtain ⟨j, hj, heq⟩ := List.mem_take_iff_getElem.1 hmem
  have hji : j = i := (h.getElem_inj_iff).1 heq
  omega

/-- Nothing is broken in lawful entries, at any place. -/
theorem Lawful.not_breaks (h : Lawful ps us) {x : Place} {r : Rule} : ¬ Breaks ps us x r o := by
  have hblank : ∀ {s : String}, Text.isBlank s = false →
      ¬ ∀ c ∈ s.toList, Text.isWhiteSpace c = true := by
    intro s hs hall
    obtain ⟨c, hc, hnot⟩ := Text.isBlank_eq_false_iff.1 hs
    exact nomatch (hall c hc).symm.trans hnot
  rintro (⟨hp, hwhite⟩ | ⟨hp, hrepeated⟩ | ⟨hp, ha, hrepeated⟩ | ⟨hu, hwhite⟩ | ⟨hu, hrepeated⟩)
  · exact hblank (h.name_not_blank _ (List.mem_of_getElem? hp)) hwhite
  · rw [List.map_take] at hrepeated
    exact notMem_take_of_nodup h.names_nodup (by simp [hp]) hrepeated
  · exact notMem_take_of_nodup (h.actions_nodup _ (List.mem_of_getElem? hp)) ha hrepeated
  · exact hblank (h.login_not_blank _ (List.mem_of_getElem? hu)) hwhite
  · rw [List.map_take] at hrepeated
    exact notMem_take_of_nodup h.logins_nodup (by simp [hu]) hrepeated

/-! ### Only what comes before matters -/

/-- The place is among the first `m` profiles or the first `n` user profiles. -/
def Place.Within (m n : Nat) : Place → Prop
  | profile i => i < m
  | userProfile i => i < n

/-- A break is one as well when there is nothing after it. -/
theorem Breaks.take {x : Place} {r : Rule} {m n : Nat} (h : Breaks ps us x r o)
    (hx : x.Within m n) : Breaks (ps.take m) (us.take n) x r o := by
  cases h with
  | blankName hp h => exact .blankName ((List.getElem?_take_of_lt hx).trans hp) h
  | repeatedName hp h =>
    refine .repeatedName ((List.getElem?_take_of_lt hx).trans hp) ?_
    rwa [List.take_take, Nat.min_eq_left (Nat.le_of_lt hx)]
  | repeatedAction hp ha h =>
    exact .repeatedAction ((List.getElem?_take_of_lt hx).trans hp) ha h
  | blankLogin hu h => exact .blankLogin ((List.getElem?_take_of_lt hx).trans hu) h
  | repeatedLogin hu h =>
    refine .repeatedLogin ((List.getElem?_take_of_lt hx).trans hu) ?_
    rwa [List.take_take, Nat.min_eq_left (Nat.le_of_lt hx)]

/-- Nothing is broken before a place if all is lawful there. -/
theorem Breaks.not_before {x y : Place} {r : Rule} (h : Breaks ps us y r o)
    (hx : Lawful (x.profilesBefore ps) (x.userProfilesBefore us)) : ¬ y.Before x := by
  intro hbefore
  cases hbefore with
  | @profiles j i hlt =>
    -- the break is among the profiles before, which are lawful without any user profile
    have hwithin : (Place.profile j).Within i 0 := hlt
    exact hx.not_breaks (h.take hwithin)
  | across j i =>
    have hwithin : (Place.profile j).Within ps.length i := by
      cases h with
      | blankName hp | repeatedName hp | repeatedAction hp =>
        exact (List.getElem?_eq_some_iff.1 hp).1
    exact hx.not_breaks (List.take_length (l := ps) ▸ h.take hwithin)
  | @userProfiles j i hlt =>
    have hwithin : (Place.userProfile j).Within ps.length i := hlt
    exact hx.not_breaks (List.take_length (l := ps) ▸ h.take hwithin)

/-! ### Where a walk stops -/

/-- A walk that keeps the keys it has met stops at an element with nothing to report before it. -/
theorem exists_stop_of_walk {α β : Type} (key : α → String) (report : List String → α → Option β)
    (walk : List String → List α → Option β) (hnil : ∀ seen, walk seen [] = none)
    (hcons : ∀ seen a as, walk seen (a :: as) = (report seen a).or (walk (key a :: seen) as))
    {seen : List String} {as : List α} {b : β} (h : walk seen as = some b) :
    ∃ i a, as[i]? = some a ∧ walk seen (as.take i) = none ∧
      report (((as.take i).map key).reverse ++ seen) a = some b := by
  induction as generalizing seen with
  | nil => exact nomatch (hnil seen).symm.trans h
  | cons a as ih =>
    rw [hcons, Option.or_eq_some_iff] at h
    rcases h with hhere | ⟨hnone, hlater⟩
    · exact ⟨0, a, rfl, hnil seen, by simpa using hhere⟩
    · obtain ⟨i, a', ha', hbefore, hreport⟩ := ih hlater
      refine ⟨i + 1, a', by simpa using ha', ?_, by simpa using hreport⟩
      rw [List.take_succ_cons, hcons, hnone, hbefore]
      rfl

/-- The first repeated action is at a place before which no action is repeated. -/
theorem exists_of_firstRepeat? {xs : List String} {x : String}
    (h : firstRepeat? [] xs = some x) :
    ∃ k, xs[k]? = some x ∧ x ∈ xs.take k ∧ (xs.take k).Nodup := by
  obtain ⟨k, y, hy, hbefore, hreport⟩ := exists_stop_of_walk id
    (fun seen x ↦ if x ∈ seen then some x else none) firstRepeat? (fun _ ↦ rfl)
    (fun seen x xs ↦ by by_cases hx : x ∈ seen <;> simp [firstRepeat?, hx]) h
  rw [List.append_nil, List.map_id] at hreport
  obtain ⟨hmem, heq⟩ := Option.ite_none_right_eq_some.1 hreport
  obtain rfl := Option.some.inj heq
  exact ⟨k, hy, List.mem_reverse.1 hmem, (firstRepeat?_eq_none_iff.1 hbefore).1⟩

/-! ### The first break -/

/-- Blank is said of the characters, and computed. -/
theorem forall_isWhiteSpace_iff {s : String} :
    (∀ c ∈ s.toList, Text.isWhiteSpace c = true) ↔ Text.isBlank s = true :=
  List.all_eq_true.symm

/-- A profile whose name is not blank does not break the first rule. -/
theorem not_breaks_notBlank (us : List UserProfile) {i : Nat} {p : Profile}
    (hp : ps[i]? = some p) (h : ¬ Text.isBlank p.name = true) :
    ¬ Breaks ps us (.profile i) .notBlank o := by
  rintro ⟨hp', hwhite⟩
  obtain rfl := Option.some.inj (hp.symm.trans hp')
  exact h (forall_isWhiteSpace_iff.1 hwhite)

/-- What one profile reports is the first break at its place. -/
theorem exists_break_of_profile {i : Nat} {p : Profile} (hp : ps[i]? = some p)
    (h : p.offence? ((ps.take i).map (·.name)).reverse = some o) :
    ∃ r, Breaks ps us (.profile i) r o ∧
      ∀ r' o', Breaks ps us (.profile i) r' o' → ¬ r'.Before r := by
  unfold Profile.offence? at h
  split_ifs at h with hblank hname
  · obtain rfl := Option.some.inj h
    exact ⟨.notBlank, .blankName hp (forall_isWhiteSpace_iff.2 hblank), fun _ _ _ ↦ nofun⟩
  · obtain rfl := Option.some.inj h
    refine ⟨.unique, .repeatedName hp (List.mem_reverse.1 hname), fun r' o' h' ↦ ?_⟩
    rintro ⟨⟩
    exact not_breaks_notBlank us hp hblank h'
  · obtain ⟨a, ha, rfl⟩ := Option.map_eq_some_iff.1 h
    obtain ⟨k, hk, hmem, hnodup⟩ := exists_of_firstRepeat? ha
    refine ⟨.distinct k, .repeatedAction hp hk hmem, fun r' o' h' hbefore ↦ ?_⟩
    cases hbefore with
    | notBlank_distinct => exact not_breaks_notBlank us hp hblank h'
    | unique_distinct =>
      cases h' with
      | repeatedName hp' hrepeated =>
        obtain rfl := Option.some.inj (hp.symm.trans hp')
        exact hname (List.mem_reverse.2 hrepeated)
    | distinct hlt =>
      cases h' with
      | repeatedAction hp' ha' hmem' =>
        obtain rfl := Option.some.inj (hp.symm.trans hp')
        -- no action before the `k`th is repeated
        refine notMem_take_of_nodup hnodup ((List.getElem?_take_of_lt hlt).trans ha') ?_
        rwa [List.take_take, Nat.min_eq_left (Nat.le_of_lt hlt)]

/-- What one user profile reports is the first break at its place. -/
theorem exists_break_of_userProfile {i : Nat} {u : UserProfile} (hu : us[i]? = some u)
    (h : u.offence? ((us.take i).map (·.login)).reverse = some o) :
    ∃ r, Breaks ps us (.userProfile i) r o ∧
      ∀ r' o', Breaks ps us (.userProfile i) r' o' → ¬ r'.Before r := by
  unfold UserProfile.offence? at h
  split_ifs at h with hblank hlogin
  · obtain rfl := Option.some.inj h
    exact ⟨.notBlank, .blankLogin hu (forall_isWhiteSpace_iff.2 hblank), fun _ _ _ ↦ nofun⟩
  · obtain rfl := Option.some.inj h
    refine ⟨.unique, .repeatedLogin hu (List.mem_reverse.1 hlogin), fun r' o' h' ↦ ?_⟩
    rintro ⟨⟩
    cases h' with
    | blankLogin hu' hwhite =>
      obtain rfl := Option.some.inj (hu.symm.trans hu')
      exact hblank (forall_isWhiteSpace_iff.1 hwhite)

/-- A break is the first one if it is the first at its place, and the entries before are lawful. -/
theorem Breaks.isFirstBreak {x : Place} {r : Rule} (h : Breaks ps us x r o)
    (hrule : ∀ r' o', Breaks ps us x r' o' → ¬ r'.Before r)
    (hbefore : Lawful (x.profilesBefore ps) (x.userProfilesBefore us)) :
    IsFirstBreak ps us x r o where
  breaks := h
  place_first _ _ _ h' := h'.not_before hbefore
  rule_first := hrule
  lawful_before := hbefore

/-- **What is reported is the first break.** -/
theorem exists_isFirstBreak (h : firstOffence? ps us = some o) :
    ∃ x r, IsFirstBreak ps us x r o := by
  rw [firstOffence?, Option.or_eq_some_iff] at h
  rcases h with hprofiles | ⟨hnone, huserProfiles⟩
  · obtain ⟨i, p, hp, hbefore, hreport⟩ := exists_stop_of_walk Profile.name
      (fun seen p ↦ p.offence? seen) profilesOffence? (fun _ ↦ rfl) (fun _ _ _ ↦ rfl) hprofiles
    rw [List.append_nil] at hreport
    obtain ⟨r, hbreaks, hrule⟩ := exists_break_of_profile hp hreport
    refine ⟨.profile i, r, hbreaks.isFirstBreak hrule (firstOffence?_eq_none_iff.1 ?_)⟩
    exact Option.or_eq_none_iff.2 ⟨hbefore, rfl⟩
  · obtain ⟨i, u, hu, hbefore, hreport⟩ := exists_stop_of_walk UserProfile.login
      (fun seen u ↦ u.offence? seen) userProfilesOffence? (fun _ ↦ rfl) (fun _ _ _ ↦ rfl)
      huserProfiles
    rw [List.append_nil] at hreport
    obtain ⟨r, hbreaks, hrule⟩ := exists_break_of_userProfile hu hreport
    refine ⟨.userProfile i, r, hbreaks.isFirstBreak hrule (firstOffence?_eq_none_iff.1 ?_)⟩
    exact Option.or_eq_none_iff.2 ⟨hnone, hbefore⟩

/-- An entry breaks a rule in one way. -/
theorem Breaks.unique {x : Place} {r : Rule} (h : Breaks ps us x r o) (h' : Breaks ps us x r o') :
    o = o' := by
  cases h <;> cases h' <;> simp_all

theorem IsFirstBreak.unique {x x' : Place} {r r' : Rule} (h : IsFirstBreak ps us x r o)
    (h' : IsFirstBreak ps us x' r' o') : x = x' ∧ r = r' ∧ o = o' := by
  obtain rfl : x = x' := by
    rcases x.eq_or_before x' with heq | hlt | hlt
    · exact heq
    · exact absurd hlt (h'.place_first _ _ _ h.breaks)
    · exact absurd hlt (h.place_first _ _ _ h'.breaks)
  obtain rfl : r = r' := by
    rcases r.eq_or_before r' with heq | hlt | hlt
    · exact heq
    · exact absurd hlt (h'.rule_first _ _ h.breaks)
    · exact absurd hlt (h.rule_first _ _ h'.breaks)
  exact ⟨rfl, rfl, h.breaks.unique h'.breaks⟩

/-- What is reported is the first break and nothing else, as there is only one. -/
theorem firstOffence?_eq_some_iff :
    firstOffence? ps us = some o ↔ ∃ x r, IsFirstBreak ps us x r o := by
  refine ⟨exists_isFirstBreak, fun ⟨x, r, h⟩ ↦ ?_⟩
  cases hfirst : firstOffence? ps us with
  | none => exact absurd h.breaks (firstOffence?_eq_none_iff.1 hfirst).not_breaks
  | some o' =>
    obtain ⟨x', r', h'⟩ := exists_isFirstBreak hfirst
    rw [(h.unique h').2.2]

/-! ### The rules and the walk -/

/-- The order of the entries breaks no rule. -/
theorem Lawful.perm (h : Lawful ps us) (hp : ps'.Perm ps) (hu : us'.Perm us) :
    Lawful ps' us' where
  name_not_blank p hmem := h.name_not_blank p (hp.mem_iff.1 hmem)
  names_nodup := (hp.map _).nodup_iff.2 h.names_nodup
  actions_nodup p hmem := h.actions_nodup p (hp.mem_iff.1 hmem)
  login_not_blank u hmem := h.login_not_blank u (hu.mem_iff.1 hmem)
  logins_nodup := (hu.map _).nodup_iff.2 h.logins_nodup

/-- The rules, spelled out without any definition but that of white space. -/
theorem lawful_iff : Lawful ps us ↔
    (∀ p ∈ ps, ∃ c ∈ p.name.toList, Text.isWhiteSpace c = false) ∧
    (∀ u ∈ us, ∃ c ∈ u.login.toList, Text.isWhiteSpace c = false) ∧
    ps.Pairwise (·.name ≠ ·.name) ∧ us.Pairwise (·.login ≠ ·.login) ∧
    ∀ p ∈ ps, p.actions.Pairwise (· ≠ ·) := by
  simp only [← Text.isBlank_eq_false_iff]
  constructor
  · intro h
    exact ⟨h.name_not_blank, h.login_not_blank, List.pairwise_map.1 h.names_nodup,
      List.pairwise_map.1 h.logins_nodup, h.actions_nodup⟩
  · rintro ⟨hname, hlogin, hnames, hlogins, hactions⟩
    exact ⟨hname, List.pairwise_map.2 hnames, hactions, hlogin, List.pairwise_map.2 hlogins⟩

/-- **The walk over the entries decides whether they are well-formed**, and reports the first break
of a rule if they are not. Well-formed entries are so in any order, and if some are taken out. -/
theorem firstOffence?_reports_first (ps : List Profile) (us : List UserProfile) :
    (firstOffence? ps us = none ↔
      (∀ p ∈ ps, ∃ c ∈ p.name.toList, Text.isWhiteSpace c = false) ∧
      (∀ u ∈ us, ∃ c ∈ u.login.toList, Text.isWhiteSpace c = false) ∧
      ps.Pairwise (·.name ≠ ·.name) ∧ us.Pairwise (·.login ≠ ·.login) ∧
      ∀ p ∈ ps, p.actions.Pairwise (· ≠ ·)) ∧
    (∀ o, firstOffence? ps us = some o ↔ ∃ x r, IsFirstBreak ps us x r o) ∧
    (∀ ps' us', firstOffence? ps us = none → ps'.Sublist ps → us'.Sublist us →
      firstOffence? ps' us' = none) ∧
    ∀ ps' us', firstOffence? ps us = none → ps'.Perm ps → us'.Perm us →
      firstOffence? ps' us' = none := by
  refine ⟨firstOffence?_eq_none_iff.trans lawful_iff, fun o ↦ firstOffence?_eq_some_iff,
    fun ps' us' h hp hu ↦ ?_, fun ps' us' h hp hu ↦ ?_⟩
  · exact firstOffence?_eq_none_iff.2 ((firstOffence?_eq_none_iff.1 h).sublist hp hu)
  · exact firstOffence?_eq_none_iff.2 ((firstOffence?_eq_none_iff.1 h).perm hp hu)

/-- The first of three offences is the action that is listed again, before the name that was given
already and the blank login. Entries without any are well-formed in another order and in part. -/
theorem firstOffence?_reports_first_office :
    (∃ x r, IsFirstBreak
      [{ name := "clerk", actions := ["read", "read"] }, { name := "clerk", actions := [] }]
      [{ login := " ", profiles := [] }] x r (.duplicateAction "read" "clerk")) ∧
    firstOffence? [{ name := "clerk", actions := ["read"] }] [] = none ∧
    firstOffence? [{ name := "auditor", actions := [] }, { name := "clerk", actions := ["read"] }]
      [{ login := "alice", profiles := ["clerk"] }] = none := by
  obtain ⟨-, hfirst, -⟩ := firstOffence?_reports_first
    [{ name := "clerk", actions := ["read", "read"] }, { name := "clerk", actions := [] }]
    [{ login := " ", profiles := [] }]
  obtain ⟨-, -, hsublist, hperm⟩ := firstOffence?_reports_first
    [{ name := "clerk", actions := ["read"] }, { name := "auditor", actions := [] }]
    [{ login := "alice", profiles := ["clerk"] }]
  refine ⟨(hfirst _).1 (by decide), hsublist _ _ (by decide) ?_ ?_,
    hperm _ _ (by decide) (.swap _ _ _) (.refl _)⟩
  · exact .cons_cons _ (List.nil_sublist _)
  · exact List.nil_sublist _

end LayeredRights
