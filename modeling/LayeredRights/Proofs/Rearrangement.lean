import LayeredRights.Proofs.Decision
import Mathlib.Logic.Relation

/-!
# Keys of a principal, and the order of entries

A user profile applies to a principal by its key, which is the login or one of the roles. So what is
listed for a principal is what is listed for each of its keys alone (`lists_iff_exists_key`). A
login is one more role, and more roles add what they list.

A configuration is written as lists, and most of what a list can tell has no meaning. `Rearranges`
is one change of that kind: entries, references or actions in another order, a reference once more,
a reference to nothing. Where no name is repeated such a change leaves alone what is listed
(`Rearranges.lists_iff`) and repeats no name either, so any number of them do
(`lists_iff_of_rearranged`). Where a name is repeated the order of the profiles does have a meaning,
since a reference means the last one.

The changes are small on purpose. Each of them touches one list, so that each case of
`Rearranges.lists_iff` has to deal with one thing, and anything larger is a chain of them: a
configuration written anew from top to bottom differs from the old one by permutations and by
references that were added. Taking a reference out is adding it the other way round, and as the
conclusions are equalities they hold in that direction too.
-/

namespace LayeredRights

namespace Configuration

variable {c c' : Configuration} {p : Principal} {action login : String} {roles roles' : NameSet}

/-! ### Keys -/

/-- **What is listed for a principal** is what is listed for one of its keys, the login included. -/
theorem lists_iff_exists_key : c.Lists ⟨login, roles⟩ action ↔
    ∃ k ∈ roles.insert login, c.Lists ⟨k, ∅⟩ action := by
  constructor
  · rintro ⟨u, hu, hmatches, hlisted⟩
    exact ⟨u.login, NameSet.mem_insert.2 (hmatches.imp_left Eq.symm), u, hu, .inl rfl, hlisted⟩
  · rintro ⟨k, hk, u, hu, hkey | hnone, hlisted⟩
    · obtain rfl : k = u.login := hkey
      exact ⟨u, hu, (NameSet.mem_insert.1 hk).imp_left Eq.symm, hlisted⟩
    · exact absurd hnone (NameSet.not_mem_empty _)

/-- Principals of the same keys have the same actions listed. -/
theorem listedActions_eq_of_insert_eq {login' : String}
    (h : roles.insert login = roles'.insert login') :
    c.listedActions ⟨login, roles⟩ = c.listedActions ⟨login', roles'⟩ := by
  refine NameSet.ext fun action ↦ ?_
  rw [mem_listedActions, mem_listedActions, lists_iff_exists_key, h, ← lists_iff_exists_key]

/-- More roles add what they list. -/
theorem listedActions_union : c.listedActions ⟨login, roles ∪ roles'⟩ =
    c.listedActions ⟨login, roles⟩ ∪ c.listedActions ⟨login, roles'⟩ := by
  refine NameSet.ext fun action ↦ ?_
  rw [NameSet.mem_union, mem_listedActions, mem_listedActions, mem_listedActions,
    lists_iff_exists_key, lists_iff_exists_key, lists_iff_exists_key]
  simp only [NameSet.mem_insert, NameSet.mem_union]
  grind

/-! ### The order of entries -/

/-- One change in how a configuration is written: entries, actions or references in another order,
a reference that is there already once more, or one to a profile that does not exist. -/
inductive Rearranges (c : Configuration) : Configuration → Prop
  | profiles {ps : List Profile} (h : ps.Perm c.profiles) : Rearranges c { c with profiles := ps }
  | userProfiles {us : List UserProfile} (h : us.Perm c.userProfiles) :
      Rearranges c { c with userProfiles := us }
  | actions {before after : List Profile} {q : Profile} {as : List String}
      (hq : c.profiles = before ++ q :: after) (h : as.Perm q.actions) :
      Rearranges c { c with profiles := before ++ { q with actions := as } :: after }
  | references {before after : List UserProfile} {u : UserProfile} {ns : List String}
      (hu : c.userProfiles = before ++ u :: after) (h : ns.Perm u.profiles) :
      Rearranges c { c with userProfiles := before ++ { u with profiles := ns } :: after }
  | repeated {before after : List UserProfile} {u : UserProfile} {ns : List String} {n : String}
      (hu : c.userProfiles = before ++ u :: after) (hn : n ∈ u.profiles)
      (h : ns.Perm (n :: u.profiles)) :
      Rearranges c { c with userProfiles := before ++ { u with profiles := ns } :: after }
  | dangling {before after : List UserProfile} {u : UserProfile} {ns : List String} {n : String}
      (hu : c.userProfiles = before ++ u :: after) (hn : n ∉ c.profiles.map (·.name))
      (h : ns.Perm (n :: u.profiles)) :
      Rearranges c { c with userProfiles := before ++ { u with profiles := ns } :: after }

/-- What an element has in common with the one in its place. -/
theorem exists_mem_replaced {α : Type} {holds : α → Prop} {before after : List α} {a b : α}
    (h : holds b ↔ holds a) :
    (∃ x ∈ before ++ b :: after, holds x) ↔ ∃ x ∈ before ++ a :: after, holds x := by
  simp only [List.mem_append, List.mem_cons, or_and_right, exists_or, exists_eq_left, h]

/-- A name that no profile has resolves to nothing. -/
theorem resolve?_eq_none_of_notMem {n : String} (h : n ∉ c.profiles.map (·.name)) :
    c.resolve? n = none := by
  refine List.find?_eq_none.2 fun q hq ↦ ?_
  have hne : q.name ≠ n := fun heq ↦ h (heq ▸ List.mem_map_of_mem (List.mem_reverse.1 hq))
  simpa using hne

/-- Only what a user profile lists through its references counts. -/
theorem lists_iff_of_references {before after : List UserProfile} {u : UserProfile}
    {ns : List String} (hu : c.userProfiles = before ++ u :: after)
    (hns : (∃ n ∈ ns, ∃ q, c.resolve? n = some q ∧ action ∈ q.actions) ↔
      ∃ n ∈ u.profiles, ∃ q, c.resolve? n = some q ∧ action ∈ q.actions) :
    Lists { c with userProfiles := before ++ { u with profiles := ns } :: after } p action ↔
      c.Lists p action := by
  unfold Lists
  rw [hu]
  exact exists_mem_replaced (and_congr_right fun _ ↦ hns)

namespace Rearranges

/-- No such change touches the mode. -/
theorem mode_eq (h : c.Rearranges c') : c'.mode = c.mode := by
  cases h <;> rfl

/-- The names of the profiles are the same, in another order. -/
theorem names_perm (h : c.Rearranges c') :
    (c'.profiles.map (·.name)).Perm (c.profiles.map (·.name)) := by
  cases h with
  | profiles h => exact h.map _
  | actions hq h =>
    rw [hq, List.map_append, List.map_append]
    exact .refl _
  | userProfiles | references | repeated | dangling => exact .refl _

/-- **One change leaves alone what is listed.** -/
theorem lists_iff (h : c.Rearranges c') (hnames : (c.profiles.map (·.name)).Nodup) :
    c'.Lists p action ↔ c.Lists p action := by
  have hnames' : (c'.profiles.map (·.name)).Nodup := h.names_perm.nodup_iff.2 hnames
  cases h with
  | profiles h =>
    rw [lists_iff_of_nodup hnames', lists_iff_of_nodup hnames]
    simp only [h.mem_iff]
  | userProfiles h =>
    unfold Lists
    simp only [h.mem_iff]
    rfl
  | actions hq h =>
    rw [lists_iff_of_nodup hnames', lists_iff_of_nodup hnames, hq]
    refine exists_congr fun u ↦ and_congr_right fun _ ↦ and_congr_right fun _ ↦ ?_
    refine exists_congr fun n ↦ and_congr_right fun _ ↦ ?_
    exact exists_mem_replaced (and_congr_right fun _ ↦ h.mem_iff)
  | references hu h =>
    refine lists_iff_of_references hu ?_
    simp only [h.mem_iff]
  | repeated hu hn h =>
    refine lists_iff_of_references hu ?_
    simp only [h.mem_iff, List.exists_mem_cons_iff]
    exact or_iff_right_of_imp fun hq ↦ ⟨_, hn, hq⟩
  | dangling hu hn h =>
    refine lists_iff_of_references hu ?_
    simp only [h.mem_iff, List.exists_mem_cons_iff, resolve?_eq_none_of_notMem hn]
    exact or_iff_right fun ⟨_, hq, _⟩ ↦ nomatch hq

end Rearranges

/-- **However often a configuration is rearranged**, it lists the same in the same mode. -/
theorem lists_iff_of_rearranged (h : Relation.ReflTransGen Rearranges c c')
    (hnames : (c.profiles.map (·.name)).Nodup) :
    (c'.profiles.map (·.name)).Nodup ∧ c'.mode = c.mode ∧
      ∀ p action, c'.Lists p action ↔ c.Lists p action := by
  induction h with
  | refl => exact ⟨hnames, rfl, fun _ _ ↦ .rfl⟩
  | tail _ hstep ih =>
    obtain ⟨hnames', hmode, hlists⟩ := ih
    exact ⟨hstep.names_perm.nodup_iff.2 hnames', hstep.mode_eq.trans hmode,
      fun p action ↦ (hstep.lists_iff hnames').trans (hlists p action)⟩

/-- **What is listed for a principal** is the union of what is listed for its roles, taken in parts
or one by one, and the login is one more role. It does not depend on how the configuration is
written, and neither does any decision. -/
theorem listedActions_union_and_rearranged (hnames : (c.profiles.map (·.name)).Nodup)
    (login : String) (roles roles' : NameSet) :
    c.listedActions ⟨login, roles ∪ roles'⟩ =
      c.listedActions ⟨login, roles⟩ ∪ c.listedActions ⟨login, roles'⟩ ∧
    (∀ action, action ∈ c.listedActions ⟨login, roles⟩ ↔
      ∃ k ∈ roles.insert login, action ∈ c.listedActions ⟨k, ∅⟩) ∧
    (∀ k ∈ roles, c.listedActions ⟨k, roles.insert login⟩ = c.listedActions ⟨login, roles⟩) ∧
    ∀ c', Relation.ReflTransGen Rearranges c c' → ∀ p,
      c'.listedActions p = c.listedActions p ∧
        ∀ action, c'.allows p action = c.allows p action := by
  refine ⟨listedActions_union, fun action ↦ ?_, fun k hk ↦ ?_, fun c' h p ↦ ?_⟩
  · simp only [mem_listedActions]
    exact lists_iff_exists_key
  · refine listedActions_eq_of_insert_eq (NameSet.ext fun n ↦ ?_)
    simp only [NameSet.mem_insert]
    grind
  · obtain ⟨-, hmode, hlists⟩ := lists_iff_of_rearranged h hnames
    have hlisted : c'.listedActions p = c.listedActions p :=
      NameSet.ext fun action ↦ by rw [mem_listedActions, mem_listedActions, hlists]
    exact ⟨hlisted, fun action ↦ by rw [allows, allows, hlisted, hmode]⟩

/-- A library in which staff may lend and take back, and guests may read. -/
def library : Configuration where
  mode := .denyListed
  profiles :=
    [{ name := "desk", actions := ["lend", "return"] }, { name := "hall", actions := ["read"] }]
  userProfiles :=
    [{ login := "staff", profiles := ["desk", "hall"] }, { login := "ann", profiles := ["hall"] }]

/-- The library with its profiles the other way round, and with references that say nothing new. -/
def libraryRewritten : Configuration where
  mode := .denyListed
  profiles :=
    [{ name := "hall", actions := ["read"] }, { name := "desk", actions := ["return", "lend"] }]
  userProfiles :=
    [{ login := "staff", profiles := ["hall", "cellar", "desk", "hall"] },
      { login := "ann", profiles := ["hall"] }]

/-- The library is written anew: profiles and actions the other way round, one reference twice, one
to a cellar that is not there. Ann lists the same as before, and what she lists comes from her role.
-/
theorem listedActions_library : (library.profiles.map (·.name)).Nodup ∧
    libraryRewritten.listedActions ⟨"ann", NameSet.ofList ["staff"]⟩ =
      library.listedActions ⟨"ann", NameSet.ofList ["staff"]⟩ ∧
    "lend" ∈ library.listedActions ⟨"ann", NameSet.ofList ["staff"]⟩ := by
  have hnames : (library.profiles.map (·.name)).Nodup := by decide
  have hrewritten : Relation.ReflTransGen Rearranges library libraryRewritten := by
    refine .head (.profiles (.swap _ _ _)) ?_
    refine .head (@Rearranges.actions _ [_] [] _ _ rfl (.swap _ _ _)) ?_
    refine .head (@Rearranges.repeated _ [] _ _ _ "hall" rfl (by decide) (.refl _)) ?_
    refine .head (@Rearranges.dangling _ [] _ _ _ "cellar" rfl ?_ (.swap _ _ _)) .refl
    decide
  obtain ⟨-, hkeys, -, hrearranged⟩ :=
    listedActions_union_and_rearranged hnames "ann" (NameSet.ofList ["staff"]) ∅
  refine ⟨hnames, (hrearranged _ hrewritten _).1, (hkeys "lend").2 ⟨"staff", ?_⟩⟩
  decide

end Configuration

end LayeredRights
