import LayeredRights.Rights.Decision
import LayeredRights.Rights.Error

/-!
# Notices

What the library reports beside its answers: things that an operator should see and that no caller
is told in another way. `Reported` pairs an answer with the notices given on the way to it.
-/

namespace LayeredRights

/-- The severity of a notice. -/
inductive Severity
  | warning
  | error
  deriving DecidableEq, Repr

/-- Something that an operator should see. -/
inductive Notice
  | unknownNode (name : String)
  /-- A configuration leaves the right to edit to nobody. -/
  | lockout (action : String)
  | rolesUnavailable (login : String)
  | usersUnavailable
  | danglingReference (r : DanglingReference) (login : String)
  | denying (login action : String)
  | mergeFailed
  | backupFailed
  | writeFailed
  | restoring
  | restored
  | restoreFailed
  | reloadFailed
  | listenerFailed (id : Nat)
  | listenerPanicked (id : Nat)
  deriving DecidableEq, Repr

namespace Notice

/-- How severe a notice is. -/
def severity : Notice → Severity
  | unknownNode _ | lockout _ | rolesUnavailable _ | usersUnavailable => .warning
  | _ => .error

/-- The words of a notice. -/
def message : Notice → String
  | unknownNode n => s!"ignoring unknown top-level KDL node `{n}`"
  | lockout _ =>
    "Action is not granted to any userprofile; nobody will be able to change the rights " ++
      "configuration anymore"
  | rolesUnavailable _ => "Role lookup failed, using no roles"
  | usersUnavailable => "Could not list users of the directory"
  | danglingReference _ _ => "Could not find profile"
  | denying _ _ => "Rights configuration unavailable, denying"
  | mergeFailed => "Error while merging rights documents"
  | backupFailed => "Error while backing up rights configuration"
  | writeFailed => "Error while updating rights configuration"
  | restoring => "Trying to restore the rights configuration from backup"
  | restored => "Rights configuration restored from backup"
  | restoreFailed => "Error while restoring rights configuration"
  | reloadFailed => "Saved rights configuration could not be reloaded"
  | listenerFailed _ => "rights change listener failed"
  | listenerPanicked _ => "rights change listener panicked"

/-- What a notice is about, by name. -/
def fields : Notice → List (String × String)
  | lockout a => [("action", a)]
  | rolesUnavailable l => [("login", l)]
  | danglingReference r l =>
    [("profile", r.profile), ("userprofile", r.userProfile), ("login", l)]
  | denying l a => [("login", l), ("action", a)]
  | listenerFailed i | listenerPanicked i => [("listener", toString i)]
  | _ => []

end Notice

/-- An answer, with the notices given on the way to it. -/
structure Reported (α : Type _) where
  result : Except RightsError α
  notices : List Notice := []

end LayeredRights
