import LayeredRights.Toml.Scalar

/-!
# Tables of TOML

A `Value` is a scalar, an array, a table, or the list of tables that headers in double brackets
make. A table remembers how it came to be, because that decides what may be added to it:

* a table with a header gets its keys below the header, and cannot have a second one;
* a table that a longer header implies may still get a header of its own;
* a table that a dotted key made gets further keys from dotted keys only;
* a table in braces is complete.

`Rows.alter` goes down a path, making the tables that are missing, and the three kinds of statement
(`define`, `declare`, `extend`) are what is done at its end.
-/

namespace LayeredRights.Toml

/-- How a table came to be. -/
inductive TableKind
  | header
  | implied
  | dotted
  | braces
  deriving DecidableEq, Repr

/-- What a key can stand for. -/
inductive Value
  | scalar (s : Scalar)
  | array (elements : List Value)
  | table (kind : TableKind) (rows : List (String × Value))
  /-- Tables of double-bracketed headers, the last one first. -/
  | tables (elements : List Value)
  deriving Repr, Inhabited

/-- The keys of a table with their values. No key is repeated. -/
abbrev Rows := List (String × Value)

namespace Rows

/-- The value of a key. -/
def valueOf? (rows : Rows) (key : String) : Option Value :=
  (List.find? (·.1 = key) rows).map (·.2)

/-- The rows with the value of a key replaced, or added at the end. -/
def put (rows : Rows) (key : String) (v : Value) : Rows :=
  if List.any rows (·.1 = key) then List.map (fun r ↦ if r.1 = key then (key, v) else r) rows
  else rows ++ [(key, v)]

/-- Changes the rows of the table at the end of a path. Tables that are missing on the way are made,
with the kind `made`. A list of tables stands for its last one. A dotted key does not go through a
table that has a header. -/
def alter (made : TableKind) (f : TableKind → Rows → Option Rows) (kind : TableKind) :
    List String → Rows → Option Rows
  | [], rows => f kind rows
  | k :: ks, rows =>
    match valueOf? rows k with
    | none => (alter made f made ks []).map fun sub ↦ put rows k (.table made sub)
    | some (.table kind' sub) =>
      if kind' = .braces || (made = .dotted && kind' = .header) then none
      else (alter made f kind' ks sub).map fun sub ↦ put rows k (.table kind' sub)
    | some (.tables (.table kind' sub :: earlier)) =>
      (alter made f kind' ks sub).map fun sub ↦
        put rows k (.tables (.table kind' sub :: earlier))
    | some _ => none

/-- Gives a value to the key at the end of a path, in a table of some kind. A table that was made by
dotted keys takes no plain key, and no other table takes a dotted key that ends in it. -/
def define (kind : TableKind) (path : List String) (key : String) (v : Value) (rows : Rows) :
    Option Rows :=
  let add (kind : TableKind) (rows : Rows) : Option Rows :=
    if kind = .dotted ↔ path = [] then none
    else if (valueOf? rows key).isSome then none
    else some (put rows key v)
  alter .dotted add kind path rows

/-- Gives a header to the table of a key. -/
def declare (key : String) (rows : Rows) : Option Rows :=
  match valueOf? rows key with
  | none => some (put rows key (.table .header []))
  | some (.table .implied sub) => some (put rows key (.table .header sub))
  | some _ => none

/-- Adds a table to the list of tables of a key. -/
def extend (key : String) (rows : Rows) : Option Rows :=
  match valueOf? rows key with
  | none => some (put rows key (.tables [.table .header []]))
  | some (.tables ts) => some (put rows key (.tables (.table .header [] :: ts)))
  | some _ => none

end Rows

end LayeredRights.Toml
