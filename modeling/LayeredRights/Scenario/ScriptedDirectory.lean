import LayeredRights.Rights.Directory

/-!
# Scripted directories

Directories for playing scenarios. A *table* answers from a fixed `Directory`. A *changing*
directory can be given other roles and users on the way, can be made to fail, and can interfere with
the engine while it looks up the roles of a login.
-/

namespace LayeredRights

/-- What a directory does to the engine while it looks up roles. -/
inductive Interference
  | discard
  | reload
  deriving DecidableEq, Repr

/-- A directory whose answers change. -/
structure ChangingDirectory where
  /-- Roles by login; the first entry of a login counts. -/
  roles : List (String × NameSet) := []
  /-- The users, unless they cannot be listed. -/
  users : Option (List String) := some []
  /-- Whose roles cannot be looked up. -/
  failing : List String := []
  /-- Whether nobody's roles can be looked up. -/
  down : Bool := false
  interferences : List (String × Interference) := []

/-- A directory of a scenario. -/
inductive ScriptedDirectory
  /-- When not `listed`, the directory knows roles but cannot name its users. -/
  | table (d : Directory) (listed : Bool)
  | changing (d : ChangingDirectory)

namespace ChangingDirectory

/-- A directory of users with their roles. -/
def ofUsers (users : List (String × List String)) : ChangingDirectory where
  roles := (users.map fun (l, rs) ↦ (l, NameSet.ofList rs)).reverse
  users := some (NameSet.ofList (users.map (·.1))).names

/-- Replaces the roles of a login. -/
def assign (d : ChangingDirectory) (login : String) (roles : List String) : ChangingDirectory :=
  { d with roles := (login, .ofList roles) :: d.roles }

/-- Sets or removes what happens while the roles of a login are looked up. -/
def interfere (d : ChangingDirectory) (login : String) (act : Option Interference) :
    ChangingDirectory :=
  let others := d.interferences.filter (·.1 ≠ login)
  { d with interferences := (act.map fun a ↦ (login, a)).toList ++ others }

/-- The roles of a login. -/
def rolesOf (d : ChangingDirectory) (login : String) : Except DirectoryError NameSet :=
  if d.down || login ∈ d.failing then .error (.unavailable "directory offline")
  else .ok (((d.roles.find? (·.1 = login)).map (·.2)).getD ∅)

end ChangingDirectory

namespace ScriptedDirectory

/-- The roles of a login. -/
def rolesOf : ScriptedDirectory → String → Except DirectoryError NameSet
  | table d _, login => .ok (d.rolesOf login)
  | changing d, login => d.rolesOf login

/-- The users of the directory. -/
def usernames : ScriptedDirectory → Except DirectoryError (List String)
  | table d listed => .ok (if listed then d.usernames else [])
  | changing d =>
    match d.users with
    | some us => .ok us
    | none => .error (.unavailable "directory offline")

/-- What happens while the roles of a login are looked up. -/
def interference? : ScriptedDirectory → String → Option Interference
  | table _ _, _ => none
  | changing d, login => (d.interferences.find? (·.1 = login)).map (·.2)

end ScriptedDirectory

end LayeredRights
