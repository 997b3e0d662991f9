import LayeredRights.Rights.Engine
import LayeredRights.Scenario.ScriptedDirectory

/-!
# Stages

A `Stage` is an engine in surroundings that follow a script: documents in some world, a scripted
directory, and listeners that each do one thing when they are told of a change. `Stage.perform`
makes a call and plays everything that it sets off, to the end: whatever the engine asks is replied
to by the script, and listeners and directory may call the engine themselves before they reply.

The play is bounded by a count of replies (`Stage.patience`), far above what any script needs: what
a script does from within a call it does either once or without setting off anything of its kind.
-/

namespace LayeredRights

/-- What a scripted listener does when it is told of a change, beside noting it. -/
inductive Behaviour
  | record
  | fail
  | panic
  | remove (target : String)
  | drop (target : String)
  /-- The first time, adds a listener that only records. -/
  | add (target : String)
  /-- Asks for a decision, and notes it with the change. -/
  | ask (login action : String)
  /-- The first time, reloads the store. -/
  | reloadOnce
  /-- The first time, commits what it was told, with a user profile added. -/
  | updateOnce (login : String)
  deriving DecidableEq, Repr

/-- A scripted listener. Its key is its place among the actors. -/
structure Actor where
  name : String
  behaviour : Behaviour
  spent : Bool := false
  deriving DecidableEq, Repr

/-- What is known under a name: the id under which a listener was registered, and its key. -/
structure Known where
  id : Nat
  key : Nat
  deriving DecidableEq, Repr

/-- A note of a listener that it was told. -/
structure Happening where
  listener : String
  told : Configuration
  /-- Whether the snapshot was the resident one. -/
  current : Option (Except RightsError Bool) := none
  /-- The decision that the listener asked for. -/
  allowed : Option Bool := none

/-- An engine in scripted surroundings. -/
structure Stage (W : Type) where
  documents : Documents (StateM W)
  world : W
  engine : Engine := {}
  directory : ScriptedDirectory := .table ∅ true
  /-- Whether listeners look at the resident snapshot. -/
  watchful : Bool := true
  /-- Whether the directory is interfering at the moment. -/
  interfering : Bool := false
  actors : List Actor := []
  known : List (String × Known) := []
  held : List (String × Snapshot) := []
  /-- The operations on documents, oldest first. -/
  calls : List DocumentCall := []
  /-- The logins whose roles were looked up, oldest first. -/
  lookups : List String := []
  happenings : List Happening := []

namespace Stage

variable {W : Type}

/-! ### Single steps -/

/-- Performs an operation in the world of the documents, recording the operations on documents. -/
def inWorld {α : Type} (s : Stage W) (op : StateT (List DocumentCall) (StateM W) α) :
    α × Stage W :=
  let ((a, calls), w) := (op s.calls).run s.world
  (a, { s with calls := calls, world := w })

/-- One step of the engine. -/
def step (s : Stage W) (ev : Event) : Output × Stage W :=
  let ((out, e), s) := s.inWorld (s.engine.step s.documents.traced ev)
  (out, { s with engine := e })

/-- What is known under a name. -/
def known? (s : Stage W) (name : String) : Option Known :=
  (s.known.find? (·.1 = name)).map (·.2)

/-- Lets go of the listener known under a name. -/
def release (s : Stage W) (name : String) : Stage W :=
  match s.known? name with
  | none => s
  | some k => (s.step (.released k.key)).2

/-- Registers a new listener under a name. A listener known under it before is let go of. -/
def listen (s : Stage W) (name : String) (b : Behaviour) : Nat × Stage W :=
  let key := s.actors.length
  let id := s.engine.registry.nextId
  let s := (s.step (.call (.subscribe key))).2
  let s := s.release name
  (id, { s with
    actors := s.actors ++ [{ name := name, behaviour := b }]
    known := (name, ⟨id, key⟩) :: s.known })

/-- Removes the registration of the listener known under a name. -/
def unlisten (s : Stage W) (name : String) : Option Bool × Stage W :=
  match s.known? name with
  | none => (none, s)
  | some k =>
    match s.step (.call (.unsubscribe k.id)) with
    | (.answered (.unsubscribed found), s) => (some found, s)
    | (_, s) => (none, s)

/-- Marks a listener as having done what it does once. -/
def spend (s : Stage W) (key : Nat) (a : Actor) : Stage W :=
  { s with actors := s.actors.set key { a with spent := true } }

/-- Notes something that happened. -/
def noteHappening (s : Stage W) (h : Happening) : Stage W :=
  { s with happenings := s.happenings ++ [h] }

/-! ### Plays -/

mutual

/-- Makes a call and plays what it sets off. -/
def play (fuel : Nat) (c : Call) (s : Stage W) : Answer × Stage W :=
  match fuel with
  | 0 => (.done, s)
  | fuel + 1 =>
    let (out, s) := s.step (.call c)
    settle fuel out s
termination_by structural fuel

/-- Replies to what the engine asks until it answers. -/
def settle (fuel : Nat) (out : Output) (s : Stage W) : Answer × Stage W :=
  match fuel with
  | 0 => (.done, s)
  | fuel + 1 =>
    match out with
    | .answered a => (a, s)
    | .nothing => (.done, s)
    | .asked r =>
      let (ev, s) := reply fuel r s
      let (out, s) := s.step ev
      settle fuel out s
termination_by structural fuel

/-- The reply of the surroundings to a request. -/
def reply (fuel : Nat) (r : Request) (s : Stage W) : Event × Stage W :=
  match fuel with
  | 0 => (.told .accepted, s)
  | fuel + 1 =>
    match r with
    | .usernames => (.usersFound s.directory.usernames, s)
    | .rolesOf login =>
      let s := { s with lookups := s.lookups ++ [login] }
      let s :=
        match s.interfering, s.directory.interference? login with
        | false, some act =>
          let call : Call := match act with | .discard => .discard | .reload => .reload
          let (_, s) := play fuel call { s with interfering := true }
          { s with interfering := false }
        | _, _ => s
      (.rolesFound (s.directory.rolesOf login), s)
    | .tell key snapshot =>
      match s.actors[key]? with
      | none => (.told .accepted, s)
      | some a =>
        let (reaction, s) := act fuel key a snapshot s
        (.told reaction, s)
termination_by structural fuel

/-- What a listener does when it is told of a snapshot. -/
def act (fuel : Nat) (key : Nat) (a : Actor) (snapshot : Snapshot) (s : Stage W) :
    Reaction × Stage W :=
  match fuel with
  | 0 => (.accepted, s)
  | fuel + 1 =>
    let (current, s) :=
      if s.watchful then
        match play fuel .current s with
        | (.snapshot r, s) => (some (r.map fun x ↦ decide (x.serial = snapshot.serial)), s)
        | (_, s) => (none, s)
      else (none, s)
    let (allowed, s) :=
      match a.behaviour with
      | .ask login action =>
        match play fuel (.isAllowed login action) s with
        | (.decision (.ok b), s) => (some b, s)
        | (_, s) => (none, s)
      | _ => (none, s)
    let s := s.noteHappening
      { listener := a.name, told := snapshot.configuration, current := current, allowed := allowed }
    match a.behaviour with
    | .record | .ask _ _ => (.accepted, s)
    | .fail => (.failed, s)
    | .panic => (.panicked, s)
    | .remove target => (.accepted, (s.unlisten target).2)
    | .drop target => (.accepted, s.release target)
    | .add target =>
      if a.spent then (.accepted, s)
      else (.accepted, ((s.spend key a).listen target .record).2)
    | .reloadOnce =>
      if a.spent then (.accepted, s)
      else (.accepted, (play fuel .reload (s.spend key a)).2)
    | .updateOnce login =>
      if a.spent then (.accepted, s)
      else
        let u : UserProfile := { login := login, profiles := [] }
        let candidate := snapshot.configuration.edit (.upsertUserProfile u)
        (.accepted, (play fuel (.update candidate) (s.spend key a)).2)
termination_by structural fuel

end

/-- How many replies a play may take. -/
def patience : Nat := 1000000

/-- Makes a call and plays everything that it sets off. -/
def perform (s : Stage W) (c : Call) : Answer × Stage W := play patience c s

/-! ### Scenes -/

/-- The configuration in force. -/
def current (s : Stage W) : Except RightsError Snapshot × Stage W :=
  match s.perform .current with
  | (.snapshot r, s) => (r, s)
  | (_, s) => (.error (.invalid (.refused "no answer")), s)

/-- Keeps the configuration in force under a name. -/
def hold (s : Stage W) (name : String) : Except RightsError Unit × Stage W :=
  match s.current with
  | (.ok snapshot, s) => (.ok (), { s with held := (name, snapshot) :: s.held })
  | (.error e, s) => (.error e, s)

/-- The configuration kept under a name. -/
def held? (s : Stage W) (name : String) : Option Snapshot :=
  (s.held.find? (·.1 = name)).map (·.2)

/-- Opens a store anew over the same documents, with a resolver of its own. Listeners stay behind
with the store before. Serial numbers go on, so that no snapshot is taken for one of that store. -/
def reopen (s : Stage W) : Stage W :=
  let store : Store := { editAction := s.engine.store.editAction, loads := s.engine.store.loads }
  let engine : Engine := { store := store, released := s.engine.released }
  { s with engine := engine.attachResolver }

/-- Forgets what was noted of the last scene, before the next one begins. -/
def nextScene (s : Stage W) : Stage W :=
  { s with
    calls := []
    lookups := []
    happenings := []
    engine := { s.engine with store := { s.engine.store with journal := [] } } }

/-- The notices given in this scene, oldest first. -/
def notices (s : Stage W) : List Notice := s.engine.store.journal

/-- Performs an operation on the documents themselves, past the store. -/
def direct {α : Type} (s : Stage W) (op : Documents (StateT (List DocumentCall) (StateM W)) →
    StateT (List DocumentCall) (StateM W) α) : α × Stage W :=
  s.inWorld (op s.documents.traced)

/-- Reads a document past the store. Its notices are given all the same. -/
def directRead {α : Type} (s : Stage W) (op : Documents (StateT (List DocumentCall) (StateM W)) →
    StateT (List DocumentCall) (StateM W) (Reported α)) : Except RightsError α × Stage W :=
  let (r, s) := s.direct op
  (r.result, { s with engine := s.engine.report r.notices })

end Stage

end LayeredRights
