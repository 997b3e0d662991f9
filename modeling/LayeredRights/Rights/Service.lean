import LayeredRights.Rights.DocumentFiles
import LayeredRights.Rights.Engine

/-!
# An engine at somebody's service

A `Service` is an engine with documents and a directory of users beside it that answers at once.
`Service.consult` makes a call and replies to whatever the engine asks until the call is answered.
Nobody listens to such an engine but its own resolver.
-/

namespace LayeredRights

/-- An engine with its documents and its directory. -/
structure Service (m : Type → Type) where
  documents : Documents m
  directory : Directory := ∅
  engine : Engine := {}

namespace Service

variable {m : Type → Type} [Monad m]

/-- A service that has not been consulted yet. -/
def fresh (documents : Documents m) (directory : Directory) (editAction : String) : Service m where
  documents := documents
  directory := directory
  engine := Engine.attachResolver { store := { editAction := editAction } }

/-- The reply to what an engine asks. -/
def reply (v : Service m) : Request → Event
  | .tell _ _ => .told .accepted
  | .rolesOf login => .rolesFound (.ok (v.directory.rolesOf login))
  | .usernames => .usersFound (.ok v.directory.usernames)

/-- How often a call asks at most: for the users, and for the roles of each. -/
def patience (v : Service m) : Nat := v.directory.users.length + 2

/-- Replies until there is an answer. -/
def converse (v : Service m) : Nat → Output → m (Option Answer × Service m)
  | n + 1, .asked r => do
    let (o, e) ← v.engine.step v.documents (v.reply r)
    converse { v with engine := e } n o
  | _, .answered a => return (some a, v)
  | _, _ => return (none, v)

/-- Makes a call and sees it through. -/
def consult (v : Service m) (c : Call) : m (Option Answer × Service m) := do
  let (o, e) ← v.engine.step v.documents (.call c)
  converse { v with engine := e } v.patience o

end Service

end LayeredRights
