import LayeredRights.Rights.Configuration

/-!
# Decisions

What a configuration says about a principal, computed without any cache. The *listed actions* of a
principal are the actions of all profiles that its user profiles refer to; the policy mode turns
membership in that set into a decision. References that no profile answers contribute nothing and
are reported by `danglingReferences`.
-/

namespace LayeredRights

/-- A reference to a profile that does not exist: its name and the key of the user profile that
holds it. -/
structure DanglingReference where
  profile : String
  userProfile : String
  deriving DecidableEq, Repr

/-- The actions that a user profile lists through the profiles it refers to. -/
def Configuration.actionsOf (c : Configuration) (u : UserProfile) : List String :=
  u.profiles.flatMap fun n ↦ ((c.resolve? n).map (·.actions)).getD []

namespace Configuration

/-- The actions listed for a principal. -/
def listedActions (c : Configuration) (p : Principal) : NameSet :=
  NameSet.ofList ((c.userProfilesOf p).flatMap c.actionsOf)

/-- The references that no profile answers, among the user profiles of a principal, in order. -/
def danglingReferences (c : Configuration) (p : Principal) : List DanglingReference :=
  (c.userProfilesOf p).flatMap fun u ↦
    (u.profiles.filter fun n ↦ (c.resolve? n).isNone).map fun n ↦ ⟨n, u.login⟩

/-- Whether a principal may perform an action. -/
def allows (c : Configuration) (p : Principal) (action : String) : Bool :=
  c.mode.decide (action ∈ c.listedActions p)

/-- Every action listed by some user profile. -/
def referencedActions (c : Configuration) : NameSet :=
  NameSet.ofList (c.userProfiles.flatMap c.actionsOf)

/-- Whether the configuration as a whole still leaves an action to somebody: in allow-listed mode
some user profile lists it, in deny-listed mode none does. -/
def grants (c : Configuration) (action : String) : Bool :=
  c.mode.decide (action ∈ c.referencedActions)

end Configuration

end LayeredRights
