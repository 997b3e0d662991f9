import LayeredRights.Json
import LayeredRights.Json.Token

/-!
# Reading JSON

`Json.ofText?` reads one value that takes up the whole text. The reader is a fold over tokens; the
arrays and objects still open are its stack.
-/

namespace LayeredRights.Json

/-- An array or object still open, its contents newest first. An object is waiting for the value of
`key`. -/
inductive Frame
  | array (elements : List Json)
  | object (members : List (Option String × Json)) (key : Option String)
  deriving Repr

/-- Where a reader is. -/
inductive Phase
  /-- Before a value; the array around it may be closed instead when nothing stands in it yet. -/
  | value (fresh : Bool)
  /-- Before the name of a member, given those before it. -/
  | name (members : List (Option String × Json))
  /-- After the name of a member. -/
  | colon (members : List (Option String × Json)) (key : Option String)
  /-- After a value. -/
  | after (v : Json)
  deriving Repr

/-- What has been read of a text. -/
structure Reader where
  stack : List Frame := []
  phase : Phase := .value false
  deriving Repr

namespace Reader

/-- Goes on in another phase. -/
def enter (r : Reader) (p : Phase) : Option Reader := some { r with phase := p }

/-- A token before a value. -/
def feedValue (r : Reader) (fresh : Bool) : Token → Option Reader
  | .null => r.enter (.after .null)
  | .bool b => r.enter (.after (.bool b))
  | .number l => r.enter (.after (.number l))
  | .text s => r.enter (.after (.text s))
  | .openBracket => some ⟨.array [] :: r.stack, .value true⟩
  | .openBrace => r.enter (.name [])
  | .closeBracket =>
    match fresh, r.stack with
    | true, .array vs :: fs => some ⟨fs, .after (.array vs.reverse)⟩
    | _, _ => none
  | _ => none

/-- A token after a value. -/
def feedAfter (r : Reader) (v : Json) : Token → Option Reader
  | .comma =>
    match r.stack with
    | .array vs :: fs => some ⟨.array (v :: vs) :: fs, .value false⟩
    | .object ms k :: fs => some ⟨fs, .name ((k, v) :: ms)⟩
    | [] => none
  | .closeBracket =>
    match r.stack with
    | .array vs :: fs => some ⟨fs, .after (.array (v :: vs).reverse)⟩
    | _ => none
  | .closeBrace =>
    match r.stack with
    | .object ms k :: fs => some ⟨fs, .after (.object ((k, v) :: ms).reverse)⟩
    | _ => none
  | _ => none

/-- The reader after one more token, or `none` when no JSON text goes on that way. -/
def feed (r : Reader) (t : Token) : Option Reader :=
  match r.phase with
  | .value fresh => r.feedValue fresh t
  | .name ms =>
    match t with
    | .text k => r.enter (.colon ms k)
    | .closeBrace => if ms.isEmpty then r.enter (.after (.object [])) else none
    | _ => none
  | .colon ms k => if t = .colon then some ⟨.object ms k :: r.stack, .value false⟩ else none
  | .after v => r.feedAfter v t

/-- The value of a text that ends here. -/
def finish (r : Reader) : Option Json :=
  match r.stack, r.phase with
  | [], .after v => some v
  | _, _ => none

end Reader

/-- The value that a text spells. -/
def ofText? (s : String) : Option Json :=
  (Token.ofText? s).bind fun ts ↦ (ts.foldlM Reader.feed {}).bind Reader.finish

end LayeredRights.Json
