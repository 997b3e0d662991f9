import LayeredRights.File.Error
import LayeredRights.Rights.Merge

/-!
# Errors

Errors are causes. `message` words them for the administrator, `code` names their kind and `help?`
says what to do.
-/

namespace LayeredRights

/-- The words for an offence. -/
def Offence.message : Offence → String
  | blankProfileName => "profile name must not be empty"
  | duplicateProfile n => s!"duplicate profile `{n}`"
  | duplicateAction a p => s!"duplicate action `{a}` in profile `{p}`"
  | blankLogin => "userprofile login must not be empty"
  | duplicateLogin l => s!"duplicate userprofile `{l}`"

/-- Why a document that is well-formed KDL is no rights document. -/
inductive DocumentFault
  | modeWithoutArgument
  | unknownMode (word : String)
  | severalModes
  | missingMode
  | profileWithoutArgument
  | profileChild (child profile : String)
  | userProfileWithoutArgument
  | userProfileChild (child login : String)
  | offence (o : Offence)
  /-- A store of documents refuses to hand one out. -/
  | refused (text : String)
  deriving DecidableEq, Repr

/-- The words for a fault. -/
def DocumentFault.message : DocumentFault → String
  | modeWithoutArgument => "mode node requires a string argument (e.g. mode \"allow-listed\")"
  | unknownMode w => s!"unknown mode `{w}` (expected \"allow-listed\" or \"deny-listed\")"
  | severalModes => "a rights document declares exactly one mode"
  | missingMode => "missing `mode` node"
  | profileWithoutArgument => "profile node requires a string argument (e.g. profile \"editor\")"
  | profileChild c p => s!"unexpected child `{c}` in profile `{p}` (expected `actions`)"
  | userProfileWithoutArgument =>
    "userprofile node requires a login argument (e.g. userprofile \"alice\")"
  | userProfileChild c l => s!"unexpected child `{c}` in userprofile `{l}` (expected `profiles`)"
  | offence o => o.message
  | refused text => text

/-- Which step of saving the override document failed. -/
inductive PersistStep
  | writing (path : String)
  | backingUp (path : String)
  | removingStaleBackup (path : String)
  /-- A store of documents refuses the step. -/
  | refused (text : String)
  deriving DecidableEq, Repr

/-- The words for a step. -/
def PersistStep.message : PersistStep → String
  | writing p => s!"writing `{p}`"
  | backingUp p => s!"backing up `{p}`"
  | removingStaleBackup p => s!"removing stale backup `{p}`"
  | refused text => text

/-- Why the rights configuration cannot be had or changed. -/
inductive RightsError
  | documentLoad (path : String) (cause : IoError)
  /-- A document is not KDL. -/
  | malformed (detail : String)
  | invalid (fault : DocumentFault)
  | modeConflict (conflict : ModeConflict)
  | persist (step : PersistStep) (cause : Option IoError)
  | io (cause : IoError)
  deriving DecidableEq, Repr

namespace RightsError

/-- The words for an error. -/
def message : RightsError → String
  | documentLoad p _ => s!"Failed to load rights document `{p}`"
  | malformed d => s!"KDL parse error: {d}"
  | invalid f => s!"Invalid rights document: {f.message}"
  | modeConflict c =>
    s!"Policy mode conflict: default layer is `{c.base.name}`, override layer is `{c.layer.name}`"
  | persist s _ => s!"Failed to persist rights configuration: {s.message}"
  | io e => s!"I/O error: {e.message}"

/-- The failure of the operating system behind an error, if there is one. -/
def cause? : RightsError → Option IoError
  | documentLoad _ e => some e
  | persist _ e => e
  | io e => some e
  | _ => none

/-- The code under which an error is documented. -/
def code : RightsError → String
  | documentLoad _ _ => "rightsd::rights::document_load"
  | malformed _ => "rightsd::rights::kdl_parse"
  | invalid _ => "rightsd::rights::invalid_document"
  | modeConflict _ => "rightsd::rights::policy_mode_conflict"
  | persist _ _ => "rightsd::rights::persist"
  | io _ => "rightsd::rights::io"

/-- What to do about an error. -/
def help? : RightsError → Option String
  | documentLoad _ _ => some "Check that the file exists and contains valid KDL syntax"
  | malformed _ => some "Check your KDL file syntax, see https://kdl.dev for the specification"
  | invalid _ =>
    some ("A rights document has one `mode` node plus `profile` and `userprofile` nodes with " ++
      "unique names")
  | modeConflict _ => some "Both rights documents must declare the same `mode`"
  | persist _ _ =>
    some ("The previous configuration is still in effect; check permissions and free space of " ++
      "the override location")
  | io _ => none

end RightsError

/-- Why a directory of users cannot answer. -/
inductive DirectoryError
  | io (cause : IoError)
  /-- A users file is not JSON of the expected shape. -/
  | malformed (detail : String)
  /-- A users file names a user by a blank name. -/
  | blankUsername (path : String)
  | unavailable (text : String)
  deriving DecidableEq, Repr

namespace DirectoryError

/-- The words for an error. -/
def message : DirectoryError → String
  | io e => s!"I/O error: {e.message}"
  | malformed d => s!"Serialization error: {d}"
  | blankUsername p => s!"directory file `{p}` contains a user without username"
  | unavailable text => text

/-- The code under which an error is documented. -/
def code : DirectoryError → String
  | io _ => "rightsd::io"
  | malformed _ => "rightsd::serde"
  | blankUsername _ => "rightsd::other"
  | unavailable _ => "rightsd::other"

end DirectoryError

end LayeredRights
