import LayeredRights.File.Job
import LayeredRights.Rights.DocumentFiles
import LayeredRights.Rights.Store
import LayeredRights.Settings.Tree
import LayeredRights.Text.Replacement

/-!
# Settings

Where the documents are, and what little else there is to choose. Each setting has a default, which
a settings file may replace, and an environment variable may replace either.

Environment variables are those whose name begins with `RIGHTSD__`, in any case. Two underscores
within the rest of the name lead from a table to a setting in it. Settings of unknown names are
passed over. Paths that do not begin at the root begin at the working directory.
-/

namespace LayeredRights

/-- What an engine is to work with. -/
structure Settings where
  files : DocumentFiles
  /-- The action without which nobody can change the configuration anymore. -/
  editAction : String
  usersFile : Option String := none
  deriving DecidableEq, Repr

/-- Why there are no settings. -/
inductive SettingsError
  | unreadable (path : String) (e : IoError)
  /-- The name of the file does not say that it is TOML. -/
  | unknownFormat (path : String)
  | malformed (path : String)
  /-- Some setting is missing or is not of the kind it has to be. -/
  | misshapen
  deriving DecidableEq, Repr

/-- The surroundings of a run: its environment variables and its working directory. -/
structure Surroundings where
  environment : List (String × String) := []
  workingDirectory : String
  deriving DecidableEq, Repr

namespace SettingsError

/-- What is said about an error. -/
def message : SettingsError → String
  | unreadable path e => "the settings file " ++ path ++ " cannot be read: " ++ e.message
  | unknownFormat path => "the settings file " ++ path ++ " is not of a known format"
  | malformed path => "the settings file " ++ path ++ " is not TOML"
  | misshapen => "the settings do not have the expected shape"

end SettingsError

namespace Settings

/-! ### Sources -/

/-- The settings that hold when nothing else is said. -/
def defaults : Setting :=
  .table [("rights", .table [
    ("default_path", .text "conf/rights-default.kdl"),
    ("override_path", .text "conf/rights.kdl"),
    ("backup_suffix", .text ({ base := "", override := "" } : DocumentFiles).suffix),
    ("edit_action", .text ({} : Store).editAction)])]

/-- What the name of a variable begins with, in small letters. -/
def variableStart : List Char := "rightsd__".toList

/-- Writes a point for two underscores. -/
def pointed : List Char → List Char
  | '_' :: '_' :: cs => '.' :: pointed cs
  | c :: cs => c :: pointed cs
  | [] => []

/-- The key of a variable, if it is one of ours. -/
def variableKey? (name : String) : Option String :=
  let cs := (KeyStep.foldCase name).toList
  if variableStart.isPrefixOf cs then
    some (String.ofList (pointed (cs.drop variableStart.length)))
  else none

/-- The settings in environment variables. -/
def ofVariables (vs : List (String × String)) : List (String × Setting) :=
  vs.filterMap fun (name, v) ↦ (variableKey? name).map fun key ↦ (key, .text v)

/-- The bytes without a byte order mark in front. -/
def withoutMark (bytes : ByteArray) : ByteArray :=
  if (bytes.extract 0 3).data = #[0xEF, 0xBB, 0xBF] then bytes.extract 3 bytes.size else bytes

/-! ### The settings file -/

/-- The last name of a path. -/
def lastName (path : String) : List Char := (path.toList.reverse.takeWhile (· ≠ '/')).reverse

/-- What follows the last point of a file name, unless it has none but at its start. -/
def extension? (path : String) : Option (List Char) :=
  let name := lastName path
  let ext := (name.reverse.takeWhile (· ≠ '.')).reverse
  if ext.length + 1 < name.length then some ext else none

/-- Whether the name of a file says that it is TOML. -/
def isTomlPath (path : String) : Bool := extension? path = some "toml".toList

/-- The path with an extension added, slashes at its end left out. -/
def withTomlExtension (path : String) : String :=
  String.ofList ((path.toList.reverse.dropWhile (· = '/')).reverse ++ ".toml".toList)

/-- The file to read for a path at which something stands: that file if it is one, and for a
directory the TOML file named like it. -/
def locate (path : String) : FileJob (Except SettingsError String) := do
  if ← FileJob.isFile path then
    return if isTomlPath path then .ok path else .error (.unknownFormat path)
  else if ← FileJob.isFile (withTomlExtension path) then return .ok (withTomlExtension path)
  else return .error (.unknownFormat path)

/-- Reads the settings in a file. -/
def ofFile (path : String) : FileJob (Except SettingsError (List (String × Setting))) := do
  if !(← FileJob.exists? path) then return .ok []
  else
    match ← locate path with
    | .error e => return .error e
    | .ok path =>
      match ← FileJob.bytesOf path with
      | .error e => return .error (.unreadable path e)
      | .ok bytes =>
        match Toml.Rows.ofText? (Text.Replacement.ofBytes (withoutMark bytes)) with
        | none => return .error (.malformed path)
        | some rows => return .ok (Setting.ofRows rows)

/-! ### From a tree to settings -/

/-- The text of a setting that has to be there and to have no parts. -/
def text? : Option Setting → Option String
  | some (.text s) => some s
  | _ => none

/-- The fields of a table by their names, or of a list by their places. -/
def fields? (names : List String) : Setting → Option (List (Option Setting))
  | .table rs => some (names.map fun n ↦ (Setting.table rs).find? n)
  | .list ss => if ss.length < names.length then none else some ((ss.take names.length).map some)
  | _ => none

/-- The users file of a directory's settings. -/
def usersFile? (s : Option Setting) : Option (Option String) := do
  match s with
  | none => some none
  | some s =>
    match ← fields? ["users_file"] s with
    | [none] | [some .absent] => some none
    | [some s] => return some (← text? s)
    | _ => none

/-- The settings of a tree. -/
def ofTree? (s : Setting) : Option Settings := do
  match ← fields? ["default_path", "override_path", "backup_suffix", "edit_action"]
      (← s.find? "rights") with
  | [base, override, suffix, editAction] =>
    return {
      files := { base := ← text? base, override := ← text? override, suffix := ← text? suffix }
      editAction := ← text? editAction
      usersFile := ← usersFile? (s.find? "directory") }
  | _ => none

/-! ### Paths -/

/-- The path as seen from the root, given a working directory. -/
def absolute (workingDirectory path : String) : String :=
  match path.toList with
  | '/' :: _ => path
  | _ =>
    if workingDirectory.toList.getLast? = some '/' then workingDirectory ++ path
    else workingDirectory ++ "/" ++ path

/-- The settings with all of their paths as seen from the root. -/
def anchored (workingDirectory : String) (s : Settings) : Settings :=
  { s with
    files := { s.files with
      base := absolute workingDirectory s.files.base
      override := absolute workingDirectory s.files.override }
    usersFile := s.usersFile.map (absolute workingDirectory) }

/-! ### All together -/

/-- The settings that the file at a path, which there need not be, and the environment lead to. -/
def load (around : Surroundings) (path : String) : FileJob (Except SettingsError Settings) := do
  match ← ofFile path with
  | .error e => return .error e
  | .ok file =>
    let tree := Setting.overlay (ofVariables around.environment) (Setting.overlay file defaults)
    match ofTree? tree with
    | none => return .error .misshapen
    | some s => return .ok (s.anchored around.workingDirectory)

end Settings

end LayeredRights
