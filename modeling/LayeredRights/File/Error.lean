/-!
# Failures of file operations
-/

namespace LayeredRights

/-- Why the operating system refused an operation on a file. -/
inductive IoError
  | notFound
  | isADirectory
  | notADirectory
  /-- A file that has to hold text is not UTF-8. -/
  | invalidData
  | other (text : String)
  deriving DecidableEq, Repr

namespace IoError

/-- The name of the kind of an error. -/
def kind : IoError → String
  | notFound => "NotFound"
  | isADirectory => "IsADirectory"
  | notADirectory => "NotADirectory"
  | invalidData => "InvalidData"
  | other _ => "Other"

/-- The operating system's words for an error. -/
def message : IoError → String
  | notFound => "No such file or directory (os error 2)"
  | isADirectory => "Is a directory (os error 21)"
  | notADirectory => "Not a directory (os error 20)"
  | invalidData => "stream did not contain valid UTF-8"
  | other text => text

end IoError

end LayeredRights
