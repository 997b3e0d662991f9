import LayeredRights.Rights.Document

/-!
# The effective configuration

A `Configuration` is what is in force once the layers are combined: every entry carries the layer it
came from. Administrators edit a copy with `Edit`s; `modifications` selects what is theirs.

There are two look-ups of a profile by name. `profile?` finds the first entry of a name, and is what
edits act on; `resolve?` finds the last one, and is what decisions use. They differ only on
configurations with a repeated name.
-/

namespace LayeredRights

/-- The configuration in force, each entry tagged with its layer. -/
structure Configuration where
  mode : PolicyMode
  profiles : List Profile := []
  userProfiles : List UserProfile := []
  deriving DecidableEq, Repr, Inhabited

namespace Configuration

/-! ### Look-up -/

/-- The first profile of a name. -/
def profile? (c : Configuration) (name : String) : Option Profile :=
  c.profiles.find? (·.name = name)

/-- The first user profile of a login. -/
def userProfile? (c : Configuration) (login : String) : Option UserProfile :=
  c.userProfiles.find? (·.login = login)

/-- The last profile of a name, which is the one that a reference means. -/
def resolve? (c : Configuration) (name : String) : Option Profile :=
  c.profiles.reverse.find? (·.name = name)

/-- Every name that resolves, in ascending order, with the profile it resolves to. -/
def resolved (c : Configuration) : List (String × Profile) :=
  (NameSet.ofList (c.profiles.map (·.name))).names.filterMap fun n ↦
    (c.resolve? n).map fun p ↦ (n, p)

/-- The user profiles that apply to a principal. -/
def userProfilesOf (c : Configuration) (p : Principal) : List UserProfile :=
  c.userProfiles.filter fun u ↦ p.matches u.login

/-! ### Edits -/

/-- Replaces the first element that satisfies `p` by `x`, or appends `x` when there is none. -/
def replaceFirst {α : Type _} (p : α → Bool) (x : α) : List α → List α
  | [] => [x]
  | y :: ys => if p y then x :: ys else y :: replaceFirst p x ys

/-- Takes the first element that satisfies `p` out of a list: what is taken out, if there is one,
and what is left. -/
def takeFirst {α : Type _} (p : α → Bool) (l : List α) : Option α × List α :=
  (l.find? p, l.eraseP p)

/-- Removes the first profile of a name, and hands it out. -/
def removeProfile (c : Configuration) (name : String) : Option Profile × Configuration :=
  let (removed, rest) := takeFirst (·.name = name) c.profiles
  (removed, { c with profiles := rest })

/-- Removes the first user profile of a login, and hands it out. -/
def removeUserProfile (c : Configuration) (login : String) : Option UserProfile × Configuration :=
  let (removed, rest) := takeFirst (·.login = login) c.userProfiles
  (removed, { c with userProfiles := rest })

/-- One edit of an administrator. -/
inductive Edit
  | upsertProfile (p : Profile)
  | upsertUserProfile (u : UserProfile)
  | removeProfile (name : String)
  | removeUserProfile (login : String)
  deriving DecidableEq, Repr

/-- The configuration after an edit. What is inserted or replaced becomes a modification, at the
place of the first entry of its key or at the end; what is removed is the first entry of its key. -/
def edit (c : Configuration) : Edit → Configuration
  | .upsertProfile p =>
    { c with profiles := replaceFirst (·.name = p.name) (p.tagged .modification) c.profiles }
  | .upsertUserProfile u =>
    { c with
      userProfiles := replaceFirst (·.login = u.login) (u.tagged .modification) c.userProfiles }
  | .removeProfile n => (c.removeProfile n).2
  | .removeUserProfile l => (c.removeUserProfile l).2

/-! ### Documents of a configuration -/

/-- The first break of the rules for entries. -/
def offence? (c : Configuration) : Option Offence := firstOffence? c.profiles c.userProfiles

/-- The administrator's entries, which are what the override document holds. -/
def modifications (c : Configuration) : Document where
  mode := c.mode
  profiles := c.profiles.filter (·.origin = .modification)
  userProfiles := c.userProfiles.filter (·.origin = .modification)

/-- The whole configuration as one document. -/
def toDocument (c : Configuration) : Document where
  mode := c.mode
  profiles := c.profiles
  userProfiles := c.userProfiles

end Configuration

end LayeredRights
