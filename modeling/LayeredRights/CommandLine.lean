import LayeredRights.CommandLine.Arguments
import LayeredRights.Rights.Service
import LayeredRights.Settings

/-!
# The command line

`CommandLine.run` is the program as a job on files: what its arguments ask for, in given
surroundings, with an exit status, the text for standard output, and remarks for the operator.

The settings are loaded before anything else, whatever the command. Only the commands that decide
something need an engine, and with it the users file. A run that fails prints nothing on standard
output.
-/

namespace LayeredRights.CommandLine

/-- Why a command fails. -/
inductive Failure
  | settings (e : SettingsError)
  | directory (e : DirectoryError)
  | rights (e : RightsError)
  /-- The engine has not answered what it was asked. -/
  | unanswered
  deriving DecidableEq, Repr

/-- The words for a failure. -/
def Failure.message : Failure → String
  | settings e => e.message
  | directory e => e.message
  | rights e => e.message
  | unanswered => "the rights engine gives no answer"

/-- How a run of the program ends. -/
structure Outcome where
  status : Nat
  output : String := ""
  /-- What an operator should see. -/
  remarks : List String := []
  deriving DecidableEq, Repr

/-- A part of a run. It can fail and give notices. -/
abbrev Task := ExceptT Failure (StateT (List Notice) FileJob)

namespace Task

/-- A job as a part of a run. -/
def ofJob {α : Type} (job : FileJob α) : Task α := ExceptT.lift (StateT.lift job)

/-- Fails as an answer does. -/
def ofResult {ε α : Type} (failure : ε → Failure) : Except ε α → Task α
  | .ok a => return a
  | .error e => throw (failure e)

end Task

/-! ### Parts -/

/-- Reads a document. -/
def document (path : String) : Task Document := do
  let r ← Task.ofJob (DocumentFiles.load path)
  modify (· ++ r.notices)
  Task.ofResult .rights r.result

/-- An engine as the settings want it. -/
def service (s : Settings) : Task (Service FileJob) := do
  let directory ← match s.usersFile with
    | none => pure ∅
    | some path => Task.ofResult .directory (← Task.ofJob (Directory.load path))
  return .fresh s.files.documents directory s.editAction

/-- Asks an engine. The answer has to be of the kind that `read?` knows. -/
def ask {α : Type} (v : Service FileJob) (c : Call)
    (read? : Answer → Option (Except RightsError α)) : Task (α × Service FileJob) := do
  let (answer, v') ← Task.ofJob (v.consult c)
  modify (· ++ v'.engine.store.journal.drop v.engine.store.journal.length)
  match answer.bind read? with
  | none => throw .unanswered
  | some r => return (← Task.ofResult .rights r, v')

/-- The configuration in force. -/
def current (v : Service FileJob) : Task (Configuration × Service FileJob) :=
  ask v .current fun
    | .snapshot r => some (r.map (·.configuration))
    | _ => none

/-! ### Commands -/

/-- A text as a line. -/
def line (s : String) : String := s ++ "\n"

/-- Does what a command says. The result is what goes to standard output. -/
def perform (s : Settings) : Command → Task String
  | .check login action => do
    let (allowed, _) ← ask (← service s) (.tryIsAllowed login action) fun
      | .decision r => some r
      | _ => none
    return line (if allowed then "allowed" else "denied")
  | .actions login => do
    let (c, v) ← current (← service s)
    let (actions, _) ← ask v (.effectiveActions login) fun
      | .actions r => some r
      | _ => none
    let heading := "# " ++ login ++ " (" ++ c.mode.name ++ ")"
    return String.join ((heading :: actions.names).map line)
  | .present => do
    let (c, _) ← current (← service s)
    return c.toDocument.text
  | .validate path => do
    let d ← document path
    return line (path ++ ": ok (" ++ d.mode.name ++ ", " ++ toString d.profiles.length ++
      " profiles, " ++ toString d.userProfiles.length ++ " userprofiles)")
  | .apply path => do
    let layer ← document path
    let base ← document s.files.base
    let candidate ← Task.ofResult (.rights ∘ .modeConflict) (merge base (some layer))
    let (_, _) ← ask (← service s) (.update candidate) fun
      | .updated r => some r
      | _ => none
    return line ("applied " ++ path ++ " to " ++ s.files.override)

/-- A notice as a remark. -/
def remark (n : Notice) : String :=
  let severity := match n.severity with
    | .warning => "WARN "
    | .error => "ERROR "
  severity ++ n.message ++ String.join (n.fields.map fun (k, v) ↦ " " ++ k ++ "=" ++ v)

/-- Runs a command with the settings in a file. -/
def runCommand (around : Surroundings) (path : String) (c : Command) : Task String := do
  let s ← Task.ofResult .settings (← Task.ofJob (Settings.load around path))
  perform s c

/-- Runs the program. -/
def run (around : Surroundings) (args : List String) : FileJob Outcome := do
  match parse args with
  | .error e => return { status := 2, remarks := [e.message] }
  | .ok .help => return { status := 0, output := helpText }
  | .ok .version => return { status := 0, output := line (programName ++ " " ++ programVersion) }
  | .ok (.run path c) =>
    let (r, notices) ← (runCommand around path c).run.run []
    match r with
    | .ok output => return { status := 0, output := output, remarks := notices.map remark }
    | .error e => return { status := 1, remarks := notices.map remark ++ [e.message] }

end LayeredRights.CommandLine
