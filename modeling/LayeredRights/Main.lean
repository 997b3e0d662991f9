import LayeredRights.CommandLine

/-!
# The program

Runs the job of the command line on the files of the operating system. Nothing is decided here: each
step of a job is one operation on a file.
-/

namespace LayeredRights

/-- The library's word for a failure of the operating system. -/
def IoError.ofSystem : IO.Error → IoError
  | .noFileOrDirectory .. => .notFound
  | .inappropriateType _ code details =>
    if code = 20 then .notADirectory else if code = 21 then .isADirectory else .other details
  | e => .other (toString e)

/-- The result of an operation, failures included. -/
def attempt {α : Type} (operation : IO α) : IO (Except IoError α) := do
  match ← operation.toBaseIO with
  | .ok a => return .ok a
  | .error e => return .error (.ofSystem e)

/-- What stands at a path. A file that may not be read is there all the same. -/
def kindOf (path : String) : IO (Option FileKind) := do
  match ← (IO.FS.readBinFile path).toBaseIO with
  | .ok _ => return some .file
  | .error (.permissionDenied ..) => return some .file
  | .error e => return if IoError.ofSystem e = .isADirectory then some .directory else none

/-- Makes a change. -/
def Change.make : Change → IO Unit
  | .create path => IO.FS.writeBinFile path .empty
  | .append path bytes => do (← IO.FS.Handle.mk path .append).write bytes
  | .rename source target => IO.FS.rename source target
  | .remove path => IO.FS.removeFile path

/-- Runs a job to its end. -/
def FileJob.execute {α : Type} : FileJob α → IO α
  | done a => return a
  | probe path next => do (next (← kindOf path)).execute
  | read path next => do (next (← attempt (IO.FS.readBinFile path))).execute
  | change c next => do (next (← attempt c.make)).execute

/-- The name and the value of an environment variable, which an equals sign divides. -/
def splitVariable (cs : List Char) : Option (String × String) :=
  match cs.dropWhile (· ≠ '=') with
  | [] => none
  | _ :: v => some (String.ofList (cs.takeWhile (· ≠ '=')), String.ofList v)

/-- The environment variables, as the system keeps them: each ends with a null character. -/
def environment : IO (List (String × String)) := do
  match ← attempt (IO.FS.readBinFile "/proc/self/environ") with
  | .error _ => return []
  | .ok bytes =>
    return ((Text.Replacement.ofBytes bytes).splitOn "\x00").filterMap (splitVariable ·.toList)

end LayeredRights

open LayeredRights in
/-- Runs the program on its arguments. -/
def main (args : List String) : IO UInt32 := do
  let around : Surroundings :=
    { environment := ← environment, workingDirectory := toString (← IO.currentDir) }
  let outcome ← (CommandLine.run around args).execute
  IO.print outcome.output
  outcome.remarks.forM fun s ↦ IO.eprintln s
  return outcome.status.toUInt32
