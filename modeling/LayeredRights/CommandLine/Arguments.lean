/-!
# Arguments

What the arguments of the program ask for. They are read from left to right, and the first that
settles the matter does: a mistake, or the wish for help or for the version. Options stand before
the name of the command. Behind it a word that begins with a dash is a mistake too, unless two
dashes have ended the options; a single dash is a word like any other.
-/

namespace LayeredRights.CommandLine

/-- What the program can be told to do. -/
inductive Command
  /-- Decide whether a login may perform an action. -/
  | check (login action : String)
  /-- List the actions listed for a login. -/
  | actions (login : String)
  /-- Print the merged configuration. -/
  | present
  /-- Check a document without applying it. -/
  | validate (path : String)
  /-- Make a document the override document. -/
  | apply (path : String)
  deriving DecidableEq, Repr

/-- What the arguments ask for. -/
inductive Invocation
  | run (settings : String) (c : Command)
  | help
  | version
  deriving DecidableEq, Repr

/-- Why arguments make no sense. -/
inductive UsageError
  | missingCommand
  | unknownCommand (word : String)
  | unknownOption (word : String)
  | missingValue (option : String)
  | repeatedOption (option : String)
  | missingOperand (operand : String)
  | emptyOperand (operand : String)
  | unexpectedOperand (word : String)
  deriving DecidableEq, Repr

namespace UsageError

/-- The words for a mistake. -/
def message : UsageError → String
  | missingCommand => "a command is required"
  | unknownCommand w => "there is no command " ++ w
  | unknownOption w => "there is no option " ++ w ++ " here"
  | missingValue o => "the option " ++ o ++ " needs a value"
  | repeatedOption o => "the option " ++ o ++ " is given twice"
  | missingOperand o => "the operand " ++ o ++ " is missing"
  | emptyOperand o => "the operand " ++ o ++ " is empty"
  | unexpectedOperand w => "the word " ++ w ++ " is too much"

end UsageError

/-! ### Commands -/

/-- The names of commands. -/
inductive Verb
  | check
  | actions
  | present
  | validate
  | apply
  deriving DecidableEq, Repr

namespace Verb

/-- All names. -/
def all : List Verb := [check, actions, present, validate, apply]

/-- How a command is written. -/
def name : Verb → String
  | check => "check"
  | actions => "actions"
  | present => "show"
  | validate => "validate"
  | apply => "apply"

/-- What has to follow the name of a command. -/
def operands : Verb → List String
  | check => ["LOGIN", "ACTION"]
  | actions => ["LOGIN"]
  | present => []
  | validate => ["FILE"]
  | apply => ["FILE"]

/-- Whether the operands are paths, which are not empty. -/
def takesPath : Verb → Bool
  | validate | apply => true
  | _ => false

/-- What a command is about. -/
def purpose : Verb → String
  | check => "Decide whether a login may perform an action"
  | actions => "List the actions listed for a login"
  | present => "Print the merged configuration"
  | validate => "Check a rights document without applying it"
  | apply => "Make a rights document the override document"

/-- The command of a word. -/
def ofName? (word : String) : Option Verb := all.find? (·.name = word)

/-- The command with its operands, as many as it takes. -/
def command? : Verb → List String → Option Command
  | check, [login, action] => some (.check login action)
  | actions, [login] => some (.actions login)
  | present, [] => some .present
  | validate, [path] => some (.validate path)
  | apply, [path] => some (.apply path)
  | _, _ => none

end Verb

/-- The name of the program. -/
def programName : String := "rightsd"

/-- The version of the program. -/
def programVersion : String := "0.1.0"

/-- The settings file that is used when no other is named. -/
def defaultSettings : String := "config.toml"

/-- How the program is used. -/
def helpText : String :=
  "Layered authorization rights engine\n\nUsage: " ++ programName ++
    " [--config FILE] COMMAND\n\nCommands:\n" ++
    String.join (Verb.all.map fun v ↦
      "  " ++ " ".intercalate (v.name :: v.operands) ++ ": " ++ v.purpose ++ "\n") ++
    "\nOptions:\n  -c, --config FILE: The settings file [default: " ++ defaultSettings ++
    "]\n  -h, --help: Print help\n  -V, --version: Print version\n"

/-! ### Operands -/

/-- Whether a word is an option or something that looks like one. -/
def isDashed (word : String) : Bool :=
  match word.toList with
  | '-' :: _ :: _ => true
  | _ => false

/-- Whether a word asks for help. Short options may be written together, and the first of them
counts. -/
def asksHelp (word : String) : Bool :=
  word = "--help" ||
    match word.toList with
    | '-' :: 'h' :: _ => true
    | _ => false

/-- Takes a word as the next of the operands that a command still takes. -/
def takeOperand (v : Verb) (word : String) : List String → Except UsageError (List String)
  | [] => .error (.unexpectedOperand word)
  | o :: os => if v.takesPath && word = "" then .error (.emptyOperand o) else .ok os

/-- The operands of a command, or `none` when help is asked for. The operands still to come are
given by name. -/
def operandsOf (v : Verb) : (ended : Bool) → (missing : List String) → List String →
    Except UsageError (Option (List String))
  | _, [], [] => .ok (some [])
  | _, o :: _, [] => .error (.missingOperand o)
  | ended, missing, w :: ws =>
    if !ended && w = "--" then operandsOf v true missing ws
    else if !ended && asksHelp w then .ok none
    else if !ended && isDashed w then .error (.unknownOption w)
    else do
      let missing ← takeOperand v w missing
      let rest ← operandsOf v ended missing ws
      return rest.map (w :: ·)

/-- What follows the name of a command. -/
def ofVerb (settings : String) (v : Verb) (ws : List String) : Except UsageError Invocation := do
  match ← operandsOf v false v.operands ws with
  | none => return .help
  | some operands =>
    match v.command? operands with
    | some c => return .run settings c
    | none => throw .missingCommand

/-- What follows the wish for help: nothing, or the name of a command. -/
def ofHelp : List String → Except UsageError Invocation
  | [] => .ok .help
  | [w] => if w = "help" || (Verb.ofName? w).isSome then .ok .help else .error (.unknownCommand w)
  | w :: w' :: _ => .error (.unknownCommand (if (Verb.ofName? w).isSome then w' else w))

/-! ### Options -/

/-- A word before the name of the command. -/
inductive Leading
  /-- The option for the settings file, with the value when it is part of the word. -/
  | settings (value : Option String)
  | help
  | version
  | unknownOption
  | word
  deriving DecidableEq, Repr

/-- The value that is part of a short option: all behind the letter, an equals sign left out. -/
def attached : List Char → Option String
  | [] => none
  | '=' :: cs => some (String.ofList cs)
  | cs => some (String.ofList cs)

/-- The kind of a word before the name of the command. -/
def Leading.ofWord (w : String) : Leading :=
  match w.toList with
  | '-' :: '-' :: cs =>
    if cs = "config".toList then .settings none
    else if "config=".toList.isPrefixOf cs then .settings (some (String.ofList (cs.drop 7)))
    else if cs = "help".toList then .help
    else if cs = "version".toList then .version
    else .unknownOption
  | '-' :: 'c' :: cs => .settings (attached cs)
  | '-' :: 'h' :: _ => .help
  | '-' :: 'V' :: _ => .version
  | '-' :: _ :: _ => .unknownOption
  | _ => .word

/-- What arguments ask for, given the settings file that has been named before them. -/
def parseFrom (settings : Option String) : List String → Except UsageError Invocation
  | [] => .error .missingCommand
  | w :: ws =>
    match Leading.ofWord w with
    | .help => .ok .help
    | .version => .ok .version
    | .unknownOption => .error (.unknownOption w)
    | .settings (some value) =>
      if settings.isSome then .error (.repeatedOption w) else parseFrom (some value) ws
    | .settings none =>
      match ws with
      | [] => .error (.missingValue w)
      | value :: ws =>
        if isDashed value then .error (.missingValue w)
        else if settings.isSome then .error (.repeatedOption w)
        else parseFrom (some value) ws
    | .word =>
      match Verb.ofName? w with
      | some v => ofVerb (settings.getD defaultSettings) v ws
      | none => if w = "help" then ofHelp ws else .error (.unknownCommand w)

/-- What arguments ask for. -/
def parse (args : List String) : Except UsageError Invocation := parseFrom none args

end LayeredRights.CommandLine
