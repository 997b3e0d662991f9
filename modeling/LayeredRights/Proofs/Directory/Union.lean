import LayeredRights.Proofs.Entries
import LayeredRights.Rights.Directory

/-!
# A directory is the union of its entries

A directory is built from entries one by one, and entries of one user may be scattered over the
list. `Directory.mem_rolesOf_withUser` and `Directory.mem_usernames_withUser` say what one entry
adds, and by induction a directory of many entries has what any of them has
(`Directory.isUnion_ofEntries`).

As the table of a directory is kept in order, a directory is nothing but what it answers
(`Directory.ext`). So lists of entries that say the same make equal directories
(`Directory.ofEntries_congr`), in whatever order and in however many parts they say it.

Roles and names of users are two questions, and neither follows from the other: a user without roles
is still a user. So everything here is said twice, once of what a user is granted and once of who
the users are. The groups are those that some user has, and need nothing said of their own.
-/

namespace LayeredRights

namespace Directory

variable {d d' : Directory} {es es' : List UserEntry} {l l' login r : String} {roles : List String}

/-! ### The table -/

/-- The users are the first column of the table. -/
theorem mem_usernames : l ∈ d.usernames ↔ ∃ s, (l, s) ∈ d.users := by
  simp [usernames]

/-- The table is ascending, so it has one row for a user. -/
theorem nodup_usernames (d : Directory) : d.usernames.Nodup :=
  d.ascending.imp fun h ↦ String.ne_of_lt h

/-- Where a user has a row, the roles are those in it. -/
theorem rolesOf_of_mem {s : NameSet} (h : (l, s) ∈ d.users) : d.rolesOf l = s := by
  have hfind : d.users.find? (·.1 = l) = some (l, s) := find?_key_of_mem d.nodup_usernames h
  rw [rolesOf, hfind]
  rfl

theorem rolesOf_of_notMem (h : l ∉ d.usernames) : d.rolesOf l = ∅ := by
  have hfind : d.users.find? (·.1 = l) = none := by
    refine List.find?_eq_none.2 fun u hu ↦ ?_
    have hne : u.1 ≠ l := fun heq ↦ h (heq ▸ List.mem_map_of_mem hu)
    simpa using hne
  rw [rolesOf, hfind]
  rfl

/-- The table has a row for each user, with the roles of the user. -/
theorem users_eq_map (d : Directory) : d.users = d.usernames.map fun l ↦ (l, d.rolesOf l) := by
  rw [usernames, List.map_map]
  refine (List.map_id _).symm.trans (List.map_congr_left fun u hu ↦ ?_)
  exact Prod.ext rfl (rolesOf_of_mem hu).symm

/-- A user has the roles that are in a row of the user. -/
theorem mem_rolesOf : r ∈ d.rolesOf l ↔ ∃ s, (l, s) ∈ d.users ∧ r ∈ s := by
  constructor
  · intro hr
    have hl : l ∈ d.usernames := by
      by_contra hl
      rw [rolesOf_of_notMem hl] at hr
      exact NameSet.not_mem_empty r hr
    obtain ⟨s, hs⟩ := mem_usernames.1 hl
    exact ⟨s, hs, rolesOf_of_mem hs ▸ hr⟩
  · rintro ⟨s, hs, hr⟩
    rwa [rolesOf_of_mem hs]

theorem mem_groupnames {g : String} :
    g ∈ d.groupnames ↔ ∃ l ∈ d.usernames, g ∈ d.rolesOf l := by
  rw [groupnames, ← NameSet.mem_def, NameSet.mem_ofList, users_eq_map]
  simp only [List.mem_flatMap, List.mem_map, exists_exists_and_eq_and, NameSet.mem_def]

/-- **A directory is what it answers.** -/
theorem ext (husers : ∀ l, l ∈ d.usernames ↔ l ∈ d'.usernames)
    (hroles : ∀ l r, r ∈ d.rolesOf l ↔ r ∈ d'.rolesOf l) : d = d' := by
  have hnames : d.usernames = d'.usernames :=
    congrArg NameSet.names (NameSet.ext (s := ⟨_, d.ascending⟩) (t := ⟨_, d'.ascending⟩) husers)
  -- the same rows in the same order
  have heq : d.users = d'.users := by
    rw [users_eq_map, users_eq_map, hnames]
    exact List.map_congr_left fun l _ ↦ Prod.ext rfl (NameSet.ext (hroles l))
  obtain ⟨_, _⟩ := d
  obtain ⟨_, _⟩ := d'
  obtain rfl := heq
  rfl

/-! ### One more entry -/

theorem mem_usernames_withUser :
    l ∈ (d.withUser login roles).usernames ↔ l = login ∨ l ∈ d.usernames := by
  rw [usernames, withUser, logins_grant]
  exact NameSet.mem_place

/-- What an entry adds to the rows of the table. -/
theorem exists_mem_grant {us : List (String × NameSet)} :
    (∃ s, (l, s) ∈ grant login roles us ∧ r ∈ s) ↔
      (l = login ∧ r ∈ roles) ∨ ∃ s, (l, s) ∈ us ∧ r ∈ s := by
  induction us with
  | nil => simp [grant, or_comm, and_assoc]
  | cons u us ih =>
    obtain ⟨l₀, s₀⟩ := u
    unfold grant
    split
    · simp [or_and_right, exists_or, and_assoc]
    · split
      -- the user has a row, to which the roles are added
      · next heq =>
        subst heq
        simp only [List.mem_cons, Prod.mk.injEq, or_and_right, exists_or, and_assoc,
          exists_and_left, exists_eq_left, NameSet.mem_insertAll, and_or_left, or_assoc]
      · simp only [List.mem_cons, Prod.mk.injEq, or_and_right, exists_or, ih,
          or_left_comm]

/-- An entry adds its roles to those of its user, and leaves the others alone. -/
theorem mem_rolesOf_withUser :
    r ∈ (d.withUser login roles).rolesOf l ↔ (l = login ∧ r ∈ roles) ∨ r ∈ d.rolesOf l := by
  rw [mem_rolesOf, mem_rolesOf]
  exact exists_mem_grant

/-! ### Many entries -/

/-- A directory is the union of entries. -/
structure IsUnion (d : Directory) (es : List UserEntry) : Prop where
  mem_rolesOf : ∀ l r, r ∈ d.rolesOf l ↔ ∃ e ∈ es, e.username = l ∧ r ∈ e.roles
  /-- A login without an entry is not known. -/
  rolesOf_eq_empty : ∀ l, (∀ e ∈ es, e.username ≠ l) → d.rolesOf l = ∅
  usernames_ascending : d.usernames.Pairwise (· < ·)
  mem_usernames : ∀ l, l ∈ d.usernames ↔ ∃ e ∈ es, e.username = l
  groupnames_ascending : d.groupnames.Pairwise (· < ·)
  mem_groupnames : ∀ g, g ∈ d.groupnames ↔ ∃ l ∈ d.usernames, g ∈ d.rolesOf l

/-- Entries one after the other add their users. -/
theorem mem_usernames_foldl :
    l ∈ (es.foldl (fun d e ↦ d.withUser e.username e.roles) d).usernames ↔
      (∃ e ∈ es, e.username = l) ∨ l ∈ d.usernames := by
  induction es generalizing d with
  | nil => simp
  | cons e es ih =>
    rw [List.foldl_cons, ih, mem_usernames_withUser, List.exists_mem_cons_iff, eq_comm (a := l),
      or_left_comm, or_assoc]

/-- Entries one after the other add their roles, each to those of its own user. -/
theorem mem_rolesOf_foldl :
    r ∈ (es.foldl (fun d e ↦ d.withUser e.username e.roles) d).rolesOf l ↔
      (∃ e ∈ es, e.username = l ∧ r ∈ e.roles) ∨ r ∈ d.rolesOf l := by
  induction es generalizing d with
  | nil => simp
  | cons e es ih =>
    rw [List.foldl_cons, ih, mem_rolesOf_withUser, List.exists_mem_cons_iff, eq_comm (a := l),
      or_left_comm, or_assoc]

/-- **A directory of entries is their union.** -/
theorem isUnion_ofEntries (es : List UserEntry) : (ofEntries es).IsUnion es := by
  have hnone : (∅ : Directory).usernames = [] := rfl
  have hroles : ∀ l r, r ∈ (ofEntries es).rolesOf l ↔
      ∃ e ∈ es, e.username = l ∧ r ∈ e.roles := by
    intro l r
    rw [ofEntries, mem_rolesOf_foldl, rolesOf_of_notMem (hnone ▸ List.not_mem_nil)]
    exact or_iff_left (NameSet.not_mem_empty r)
  have husers : ∀ l, l ∈ (ofEntries es).usernames ↔ ∃ e ∈ es, e.username = l := by
    intro l
    rw [ofEntries, mem_usernames_foldl, hnone]
    exact or_iff_left List.not_mem_nil
  exact {
    mem_rolesOf := hroles
    rolesOf_eq_empty := fun l hl ↦ rolesOf_of_notMem fun hmem ↦ by
      obtain ⟨e, he, heq⟩ := (husers l).1 hmem
      exact hl e he heq
    usernames_ascending := (ofEntries es).ascending
    mem_usernames := husers
    groupnames_ascending := NameSet.ascending _
    mem_groupnames := fun _ ↦ Directory.mem_groupnames }

/-- Entries that say the same make equal directories. -/
theorem ofEntries_congr
    (husers : ∀ l, (∃ e ∈ es, e.username = l) ↔ ∃ e ∈ es', e.username = l)
    (hroles : ∀ l r, (∃ e ∈ es, e.username = l ∧ r ∈ e.roles) ↔
      ∃ e ∈ es', e.username = l ∧ r ∈ e.roles) : ofEntries es = ofEntries es' := by
  have h := isUnion_ofEntries es
  have h' := isUnion_ofEntries es'
  refine ext (fun l ↦ ?_) fun l r ↦ ?_
  · rw [h.mem_usernames, h'.mem_usernames, husers]
  · rw [h.mem_rolesOf, h'.mem_rolesOf, hroles]

/-- The order of the entries has no meaning. -/
theorem ofEntries_perm (h : es.Perm es') : ofEntries es = ofEntries es' :=
  ofEntries_congr (fun _ ↦ by simp only [h.mem_iff]) fun _ _ ↦ by simp only [h.mem_iff]

/-- An entry has been split into several of the same user, each with some of the roles. -/
structure IsSplit (e : UserEntry) (parts : List UserEntry) : Prop where
  ne_nil : parts ≠ []
  username_eq : ∀ p ∈ parts, p.username = e.username
  mem_roles : ∀ r, r ∈ e.roles ↔ ∃ p ∈ parts, r ∈ p.roles

/-- The parts of an entry are as good as the entry. -/
theorem ofEntries_split {e : UserEntry} {parts : List UserEntry} (h : IsSplit e parts)
    (before after : List UserEntry) :
    ofEntries (before ++ parts ++ after) = ofEntries (before ++ e :: after) := by
  have huser : ∀ l, (∃ p ∈ parts, p.username = l) ↔ e.username = l := by
    intro l
    constructor
    · rintro ⟨p, hp, rfl⟩
      exact (h.username_eq p hp).symm
    · rintro rfl
      obtain ⟨p, hp⟩ := List.exists_mem_of_ne_nil parts h.ne_nil
      exact ⟨p, hp, h.username_eq p hp⟩
  have hroles : ∀ l r, (∃ p ∈ parts, p.username = l ∧ r ∈ p.roles) ↔
      e.username = l ∧ r ∈ e.roles := by
    intro l r
    rw [h.mem_roles]
    constructor
    · rintro ⟨p, hp, rfl, hr⟩
      exact ⟨(h.username_eq p hp).symm, p, hp, hr⟩
    · rintro ⟨rfl, p, hp, hr⟩
      exact ⟨p, hp, h.username_eq p hp, hr⟩
  refine ofEntries_congr (fun l ↦ ?_) fun l r ↦ ?_
  · simp only [List.mem_append, List.mem_cons, or_and_right, exists_or, exists_eq_left, huser,
      or_assoc]
  · simp only [List.mem_append, List.mem_cons, or_and_right, exists_or, exists_eq_left, hroles,
      or_assoc]

end Directory

end LayeredRights
