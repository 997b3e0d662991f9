import LayeredRights.Rights.Entry
import LayeredRights.Text.Blank

/-!
# Well-formedness of entries

Names of profiles and logins of user profiles are never blank and never repeated, and no profile
lists an action twice. `firstOffence?` walks profiles before user profiles, each in list order, and
reports the first break of these rules; within one profile a blank name comes before a repeated
name, and that before a repeated action.
-/

namespace LayeredRights

/-- A break of the rules for entries. -/
inductive Offence
  | blankProfileName
  | duplicateProfile (name : String)
  | duplicateAction (action profile : String)
  | blankLogin
  | duplicateLogin (login : String)
  deriving DecidableEq, Repr

/-- The first element of a list that occurs in `seen` or earlier in the list. -/
def firstRepeat? (seen : List String) : List String → Option String
  | [] => none
  | x :: xs => if x ∈ seen then some x else firstRepeat? (x :: seen) xs

/-- The first offence of one profile, given the names of the profiles before it. -/
def Profile.offence? (seen : List String) (p : Profile) : Option Offence :=
  if Text.isBlank p.name then some .blankProfileName
  else if p.name ∈ seen then some (.duplicateProfile p.name)
  else (firstRepeat? [] p.actions).map fun a ↦ .duplicateAction a p.name

/-- The offence of one user profile, given the logins of those before it. -/
def UserProfile.offence? (seen : List String) (u : UserProfile) : Option Offence :=
  if Text.isBlank u.login then some .blankLogin
  else if u.login ∈ seen then some (.duplicateLogin u.login)
  else none

/-- The first offence of a list of profiles. -/
def profilesOffence? (seen : List String) : List Profile → Option Offence
  | [] => none
  | p :: ps => (p.offence? seen).or (profilesOffence? (p.name :: seen) ps)

/-- The first offence of a list of user profiles. -/
def userProfilesOffence? (seen : List String) : List UserProfile → Option Offence
  | [] => none
  | u :: us => (u.offence? seen).or (userProfilesOffence? (u.login :: seen) us)

/-- The first break of the rules in a pair of lists of entries, profiles before user profiles. -/
def firstOffence? (profiles : List Profile) (userProfiles : List UserProfile) : Option Offence :=
  (profilesOffence? [] profiles).or (userProfilesOffence? [] userProfiles)

end LayeredRights
