/-!
# JSON values

A `Json` value keeps its numbers as they are spelled and the members of its objects in order,
repeated names included. The escapes of a string may spell half of a surrogate pair, which is no
character; such a string is `none`.
-/

namespace LayeredRights

/-- A JSON value. -/
inductive Json
  | null
  | bool (b : Bool)
  | number (literal : String)
  | text (s : Option String)
  | array (elements : List Json)
  | object (members : List (Option String × Json))
  deriving Repr, Inhabited

end LayeredRights
