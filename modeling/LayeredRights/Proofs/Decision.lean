import LayeredRights.Proofs.Entries
import LayeredRights.Rights.Decision

/-!
# What it means for an action to be listed

`Configuration.Lists` says without any set, order or cache when an action is listed for a principal:
some user profile applies to the principal, refers to a name, and the profile of that name has the
action. The set that decisions are computed from has exactly these members (`mem_listedActions`).

The profile of a name is the one the name resolves to. In a configuration that repeats no name that
is any profile of the name (`lists_iff_of_nodup`), so the order of the entries and the layers they
are from make no difference there (`SameEntries.lists_iff`).

What is listed is what is allowed in one mode and what is denied in the other. `LocksOut` says what
it means in either of them that a configuration as a whole does not grant an action.

Proofs about decisions start from `Lists`, and sets of actions come in only where they are what is
stored or answered. That is why the equivalences here are stated for one action at a time: two sets
are equal as soon as they have the same members (`NameSet.ext`).
-/

namespace LayeredRights

namespace Configuration

variable {c : Configuration} {p : Principal} {action : String}

/-- An action is listed for a principal by a profile that one of its user profiles refers to. -/
def Lists (c : Configuration) (p : Principal) (action : String) : Prop :=
  ∃ u ∈ c.userProfiles, (p.login = u.login ∨ u.login ∈ p.roles) ∧
    ∃ n ∈ u.profiles, ∃ q, c.resolve? n = some q ∧ action ∈ q.actions

/-- One user profile lists an action through one of its references. A reference to a name that does
not resolve lists nothing. -/
theorem mem_actionsOf {u : UserProfile} :
    action ∈ c.actionsOf u ↔ ∃ n ∈ u.profiles, ∃ q, c.resolve? n = some q ∧ action ∈ q.actions := by
  simp only [actionsOf, List.mem_flatMap]
  refine exists_congr fun n ↦ and_congr_right fun _ ↦ ?_
  cases c.resolve? n <;> simp

/-- **The computed set has exactly the listed actions.** -/
theorem mem_listedActions : action ∈ c.listedActions p ↔ c.Lists p action := by
  simp only [listedActions, NameSet.mem_ofList, List.mem_flatMap, userProfilesOf, List.mem_filter,
    mem_actionsOf, Principal.matches, Lists, Bool.or_eq_true, decide_eq_true_eq, and_assoc]

/-- Where no name is repeated, a name resolves to any profile that has it. -/
theorem resolve?_eq_some_iff (h : (c.profiles.map (·.name)).Nodup) {n : String} {q : Profile} :
    c.resolve? n = some q ↔ q ∈ c.profiles ∧ q.name = n := by
  have hrev : (c.profiles.reverse.map (·.name)).Nodup := by
    rw [List.map_reverse]
    exact List.nodup_reverse.2 h
  rw [resolve?, find?_key_eq_some_iff hrev, List.mem_reverse]

/-- Where no name is repeated, resolving is finding a profile of the name among the profiles, so
that their order is gone from the statement. -/
theorem lists_iff_of_nodup (h : (c.profiles.map (·.name)).Nodup) :
    c.Lists p action ↔ ∃ u ∈ c.userProfiles, (p.login = u.login ∨ u.login ∈ p.roles) ∧
      ∃ n ∈ u.profiles, ∃ q ∈ c.profiles, q.name = n ∧ action ∈ q.actions := by
  simp only [Lists, resolve?_eq_some_iff h, and_assoc]

/-- A principal of more roles has at least as many actions listed. -/
theorem Lists.mono {login : String} {roles roles' : NameSet} (h : c.Lists ⟨login, roles⟩ action)
    (hroles : ∀ r ∈ roles, r ∈ roles') : c.Lists ⟨login, roles'⟩ action := by
  obtain ⟨u, hu, hmatches, hlisted⟩ := h
  exact ⟨u, hu, hmatches.imp_right (hroles u.login), hlisted⟩

/-! ### What the mode makes of it -/

/-- In an allow-listed configuration what is listed is allowed. -/
theorem allows_iff_of_allowListed (hm : c.mode = .allowListed) :
    c.allows p action = true ↔ c.Lists p action := by
  rw [allows, hm, ← mem_listedActions]
  exact decide_eq_true_iff

/-- In a deny-listed configuration what is not listed is allowed. -/
theorem allows_iff_of_denyListed (hm : c.mode = .denyListed) :
    c.allows p action = true ↔ ¬c.Lists p action := by
  rw [allows, hm, ← mem_listedActions]
  show (!decide (action ∈ c.listedActions p)) = true ↔ _
  rw [Bool.not_eq_true', decide_eq_false_iff_not]

/-- The referenced actions are those listed for anybody. -/
theorem mem_referencedActions : action ∈ c.referencedActions ↔ ∃ p, c.Lists p action := by
  simp only [referencedActions, NameSet.mem_ofList, List.mem_flatMap, mem_actionsOf]
  constructor
  · rintro ⟨u, hu, hlisted⟩
    -- the principal of that login and of no role will do
    exact ⟨⟨u.login, ∅⟩, u, hu, .inl rfl, hlisted⟩
  · rintro ⟨p, u, hu, -, hlisted⟩
    exact ⟨u, hu, hlisted⟩

/-- Nobody may perform the action, in an allow-listed configuration. In a deny-listed one it is that
somebody may not. -/
def LocksOut (c : Configuration) (action : String) : Prop :=
  match c.mode with
  | .allowListed => ∀ p, c.allows p action = false
  | .denyListed => ∃ p, c.allows p action = false

/-- **What it means that an action is not granted.** -/
theorem grants_eq_false_iff : c.grants action = false ↔ c.LocksOut action := by
  unfold LocksOut
  cases hm : c.mode with
  | allowListed =>
    have hgrants : c.grants action = decide (action ∈ c.referencedActions) := by
      rw [grants, hm]
      rfl
    rw [hgrants, decide_eq_false_iff_not, mem_referencedActions, not_exists]
    -- listed for nobody is allowed to nobody
    refine forall_congr' fun p ↦ ?_
    rw [← allows_iff_of_allowListed hm, Bool.not_eq_true]
  | denyListed =>
    have hgrants : c.grants action = !decide (action ∈ c.referencedActions) := by
      rw [grants, hm]
      rfl
    rw [hgrants, Bool.not_eq_false', decide_eq_true_iff, mem_referencedActions]
    -- listed for somebody is denied to that one
    refine exists_congr fun p ↦ ?_
    rw [← Bool.not_eq_true, allows_iff_of_denyListed hm, not_not]

/-! ### Entries in another order or from other layers -/

/-- Two configurations have the same mode and the same entries, whatever their order and the layers
they are from. -/
structure SameEntries (c c' : Configuration) : Prop where
  mode : c.mode = c'.mode
  profiles : ∀ q, q ∈ c.profiles.map (·.tagged .factory) ↔
    q ∈ c'.profiles.map (·.tagged .factory)
  userProfiles : ∀ u, u ∈ c.userProfiles.map (·.tagged .factory) ↔
    u ∈ c'.userProfiles.map (·.tagged .factory)

/-- What is listed can be read off the entries without their origins. -/
theorem lists_iff_exists_tagged (h : (c.profiles.map (·.name)).Nodup) :
    c.Lists p action ↔ ∃ u ∈ c.userProfiles.map (·.tagged .factory),
      (p.login = u.login ∨ u.login ∈ p.roles) ∧
        ∃ n ∈ u.profiles, ∃ q ∈ c.profiles.map (·.tagged .factory),
          q.name = n ∧ action ∈ q.actions := by
  rw [lists_iff_of_nodup h]
  simp only [List.mem_map, exists_exists_and_eq_and]
  rfl

namespace SameEntries

variable {c' : Configuration}

/-- Configurations of the same entries list the same for everybody. Without names that are used once
this fails, since a reference means the last profile of its name. -/
theorem lists_iff (hs : c.SameEntries c') (h : (c.profiles.map (·.name)).Nodup)
    (h' : (c'.profiles.map (·.name)).Nodup) : c.Lists p action ↔ c'.Lists p action := by
  rw [lists_iff_exists_tagged h, lists_iff_exists_tagged h']
  simp only [hs.profiles, hs.userProfiles]

/-- Configurations of the same entries decide alike. -/
theorem allows_eq (hs : c.SameEntries c') (h : (c.profiles.map (·.name)).Nodup)
    (h' : (c'.profiles.map (·.name)).Nodup) : c.allows p action = c'.allows p action := by
  have hlisted : action ∈ c.listedActions p ↔ action ∈ c'.listedActions p := by
    rw [mem_listedActions, mem_listedActions, hs.lists_iff h h']
  rw [allows, allows, hs.mode, decide_eq_decide.2 hlisted]

/-- Configurations of the same entries lock out from the same actions. -/
theorem locksOut_iff (hs : c.SameEntries c') (h : (c.profiles.map (·.name)).Nodup)
    (h' : (c'.profiles.map (·.name)).Nodup) : c.LocksOut action ↔ c'.LocksOut action := by
  simp only [LocksOut, hs.mode, hs.allows_eq h h']

end SameEntries

end Configuration

end LayeredRights
