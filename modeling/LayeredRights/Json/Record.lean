import LayeredRights.Json

/-!
# Records in JSON

A record of named fields is an object, or an array of the fields' values in order. In an object,
members of other names are passed over and a field may not occur twice; in an array only fields at
the end may be missing.
-/

namespace LayeredRights.Json

/-- The string that a value is. -/
def text? : Json → Option String
  | text s => s
  | _ => none

/-- The elements of an array, each read in the same way. -/
def listOf? {α : Type} (read : Json → Option α) : Json → Option (List α)
  | array vs => vs.mapM read
  | _ => none

/-- A field that may be missing or present at most once. -/
inductive Slot
  | missing
  | present (v : Json)
  deriving Repr, Inhabited

/-- Reads a field that has to be there. -/
def Slot.required? {α : Type} (read : Json → Option α) : Slot → Option α
  | missing => none
  | present v => read v

/-- Reads a field that has a value to fall back on. -/
def Slot.optional? {α : Type} (fallback : α) (read : Json → Option α) : Slot → Option α
  | missing => some fallback
  | present v => read v

/-- The member of a name, which may not be repeated. -/
def member? (name : String) (members : List (Option String × Json)) : Option Slot :=
  match members.filter (·.1 = some name) with
  | [] => some .missing
  | [m] => some (.present m.2)
  | _ => none

/-- The fields of a record, in the order of their names. -/
def fields? (names : List String) : Json → Option (List Slot)
  | object ms => if ms.all (·.1.isSome) then names.mapM fun n ↦ member? n ms else none
  | array vs =>
    if vs.length ≤ names.length then
      some (vs.map .present ++ List.replicate (names.length - vs.length) .missing)
    else none
  | _ => none

/-- The name of a choice without content: a string, or an object whose only member has that name and
no value. -/
def choice? : Json → Option String
  | text s => s
  | object [(name, null)] => name
  | _ => none

end LayeredRights.Json
