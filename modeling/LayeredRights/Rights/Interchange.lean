import LayeredRights.Json.Reader
import LayeredRights.Json.Record
import LayeredRights.Rights.Entry
import LayeredRights.Rights.Policy

/-!
# Entries in JSON

The form in which modes, origins, profiles and user profiles are exchanged with other programs.
-/

namespace LayeredRights

/-- Reads a policy mode. -/
def PolicyMode.ofJson? (j : Json) : Option PolicyMode := j.choice?.bind PolicyMode.ofName?

/-- The JSON form of a policy mode. -/
def PolicyMode.toJson (m : PolicyMode) : Json := .text (some m.name)

/-- The origin that a word stands for. -/
def Origin.ofName? (word : String) : Option Origin :=
  if word = factory.name then some factory
  else if word = modification.name then some modification
  else none

/-- Reads an origin. -/
def Origin.ofJson? (j : Json) : Option Origin := j.choice?.bind Origin.ofName?

/-- The JSON form of an origin. -/
def Origin.toJson (o : Origin) : Json := .text (some o.name)

/-- Reads a reference to a profile, a record of one field. -/
def referenceOfJson? (j : Json) : Option String :=
  match j.fields? ["name"] with
  | some [name] => name.required? Json.text?
  | _ => none

/-- The JSON form of a reference to a profile. -/
def referenceToJson (name : String) : Json := .object [(some "name", .text (some name))]

/-- Reads a profile. -/
def Profile.ofJson? (j : Json) : Option Profile :=
  match j.fields? ["name", "actions", "origin"] with
  | some [name, actions, origin] => do
    return {
      name := ← name.required? Json.text?
      actions := ← actions.required? (Json.listOf? Json.text?)
      origin := ← origin.optional? Origin.factory Origin.ofJson? }
  | _ => none

/-- The JSON form of a profile. -/
def Profile.toJson (p : Profile) : Json :=
  .object [(some "name", .text (some p.name)),
    (some "actions", .array (p.actions.map fun a ↦ .text (some a))),
    (some "origin", p.origin.toJson)]

/-- Reads a user profile. -/
def UserProfile.ofJson? (j : Json) : Option UserProfile :=
  match j.fields? ["login", "profiles", "origin"] with
  | some [login, profiles, origin] => do
    return {
      login := ← login.required? Json.text?
      profiles := ← profiles.required? (Json.listOf? referenceOfJson?)
      origin := ← origin.optional? Origin.factory Origin.ofJson? }
  | _ => none

/-- The JSON form of a user profile. -/
def UserProfile.toJson (u : UserProfile) : Json :=
  .object [(some "login", .text (some u.login)),
    (some "profiles", .array (u.profiles.map referenceToJson)),
    (some "origin", u.origin.toJson)]

end LayeredRights
