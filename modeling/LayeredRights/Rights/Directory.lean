import LayeredRights.File.Job
import LayeredRights.Json.Reader
import LayeredRights.Json.Record
import LayeredRights.Rights.Error

/-!
# Directories of users

A `Directory` is a table from logins to sets of roles, kept in ascending order of logins so that
equal tables are equal values. Entries accumulate: what a directory reports for a login is the union
of all entries made for it.

The directory without users reports no roles for anybody; with it a login matches only itself.
-/

namespace LayeredRights

/-- One entry of a users file. -/
structure UserEntry where
  username : String
  roles : List String
  deriving DecidableEq, Repr

/-- A table from logins to roles, in strictly ascending order of logins. -/
structure Directory where
  users : List (String × NameSet)
  ascending : (users.map (·.1)).Pairwise (· < ·)
  deriving DecidableEq

namespace Directory

/-! ### Ascending tables -/

/-- Adds roles to the row of a login, which is put at its place if there is none. -/
def grant (login : String) (roles : List String) : List (String × NameSet) → List (String × NameSet)
  | [] => [(login, .ofList roles)]
  | (l, s) :: us =>
    if login < l then (login, .ofList roles) :: (l, s) :: us
    else if login = l then (l, s.insertAll roles) :: us
    else (l, s) :: grant login roles us

theorem logins_grant (login : String) (roles : List String) :
    ∀ us : List (String × NameSet),
      (grant login roles us).map (·.1) = NameSet.place login (us.map (·.1))
  | [] => rfl
  | (l, s) :: us => by
    simp only [grant, List.map_cons, NameSet.place]
    split
    · rfl
    · split
      · rfl
      · simp [logins_grant login roles us]

/-! ### Operations -/

/-- The directory without users. -/
def empty : Directory := ⟨[], NameSet.empty.ascending⟩

instance : EmptyCollection Directory := ⟨empty⟩
instance : Inhabited Directory := ⟨empty⟩

/-- The directory with one more entry. -/
def withUser (d : Directory) (login : String) (roles : List String) : Directory where
  users := grant login roles d.users
  ascending := by
    rw [logins_grant]
    exact NameSet.pairwise_place d.ascending

/-- The directory of a list of entries. -/
def ofEntries (es : List UserEntry) : Directory :=
  es.foldl (fun d e ↦ d.withUser e.username e.roles) ∅

/-- The roles of a login; none when the directory does not know it. -/
def rolesOf (d : Directory) (login : String) : NameSet :=
  ((d.users.find? (·.1 = login)).map (·.2)).getD ∅

/-- Every login, in ascending order. -/
def usernames (d : Directory) : List String := d.users.map (·.1)

/-- Every role of some login, in ascending order. -/
def groupnames (d : Directory) : List String :=
  (NameSet.ofList (d.users.flatMap (·.2.names))).names

/-! ### Users files -/

/-- Reads one user of a users file. -/
def entryOfJson? (j : Json) : Option UserEntry :=
  match j.fields? ["username", "roles"] with
  | some [username, roles] => do
    return {
      username := ← username.required? Json.text?
      roles := ← roles.optional? [] (Json.listOf? Json.text?) }
  | _ => none

/-- Reads the entries of a users file. -/
def entriesOfJson? (j : Json) : Option (List UserEntry) :=
  match j.fields? ["users"] with
  | some [users] => users.required? (Json.listOf? entryOfJson?)
  | _ => none

/-- Reads the text of the users file at a path. Every user has to have a name that is not blank. -/
def ofText (path text : String) : Except DirectoryError Directory :=
  match (Json.ofText? text).bind entriesOfJson? with
  | none => .error (.malformed "the users file does not have the expected shape")
  | some es =>
    if es.any fun e ↦ Text.isBlank e.username then .error (.blankUsername path)
    else .ok (ofEntries es)

/-- Reads the users file at a path. -/
def load (path : String) : FileJob (Except DirectoryError Directory) := do
  match ← FileJob.textOf path with
  | .error e => return .error (.io e)
  | .ok text => return ofText path text

end Directory

end LayeredRights
