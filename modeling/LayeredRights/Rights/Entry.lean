import LayeredRights.NameSet

/-!
# Profiles, user profiles and principals

A `Profile` is a named group of action ids. A `UserProfile` binds a key, a login or a role, to
profiles by name; the names are resolved when a decision is made, so they may dangle. A `Principal`
is the subject of a query: a login with the roles it has.
-/

namespace LayeredRights

/-- The layer an entry of the effective configuration came from. -/
inductive Origin
  /-- The factory document, which is never written back. -/
  | factory
  /-- An administrator's edit, kept in the override document. -/
  | modification
  deriving DecidableEq, Repr, Inhabited

/-- The word by which an origin is known outside the library. -/
def Origin.name : Origin → String
  | factory => "default"
  | modification => "modification"

/-- A named group of action ids. -/
structure Profile where
  name : String
  actions : List String
  origin : Origin := .factory
  deriving DecidableEq, Repr, Inhabited

/-- The profile with its origin replaced. -/
def Profile.tagged (p : Profile) (o : Origin) : Profile := { p with origin := o }

/-- Binds a key, which is either a login or a role, to profiles named in `profiles`. -/
structure UserProfile where
  login : String
  profiles : List String
  origin : Origin := .factory
  deriving DecidableEq, Repr, Inhabited

/-- The user profile with its origin replaced. -/
def UserProfile.tagged (u : UserProfile) (o : Origin) : UserProfile := { u with origin := o }

/-- The subject of a rights query: a login and the roles its directory reports. -/
structure Principal where
  login : String
  roles : NameSet
  deriving DecidableEq

/-- A user profile applies to a principal when its key is the login or one of the roles. -/
def Principal.matches (p : Principal) (key : String) : Bool := p.login = key || key ∈ p.roles

end LayeredRights
