import LayeredRights.Rights.Directory
import LayeredRights.Rights.Generation
import LayeredRights.Rights.Registry

/-!
# The engine

An `Engine` is a store, the listeners registered with it, and a resolver that answers queries about
logins from cached action sets. What it cannot do itself it asks of its surroundings: to tell a
listener of a change, and to look up users and their roles in a directory.

It is a machine. `Engine.step` takes one `Event`, which is a call or the reply to something asked,
and gives one `Output`, which is the answer to a call or something to ask. While something is being
asked the surroundings may make further calls, which are answered first: listeners and directories
may call back, to any depth. What is suspended meanwhile is the stack of `Frame`s, one for each
thing asked and not yet replied to.

A delivery goes over a copy of the registrations made when it begins, so registrations added or
removed on the way make no difference to it; but a listener that has been released is passed over
when its turn comes. The listener that is just being told is not gone before it has replied.

A query holds on to the generation of action sets it began with. When a change or a discard detaches
that generation while roles are being looked up, the query still answers from it.
-/

namespace LayeredRights

/-! ### What goes in and out -/

/-- What can be asked of an engine. -/
inductive Call
  | current
  | update (candidate : Configuration)
  | reload
  /-- Delivers a snapshot to the listeners. -/
  | announce (s : Snapshot)
  | subscribe (key : Nat)
  | unsubscribe (id : Nat)
  /-- Registers a new resolver without any action sets, and drops the one before it. -/
  | attachResolver
  /-- A decision that is a denial when the configuration cannot be had. -/
  | isAllowed (login action : String)
  | tryIsAllowed (login action : String)
  | effectiveActions (login : String)
  /-- Builds the action sets of all users of the directory. -/
  | warmUp
  /-- Forgets all action sets. -/
  | discard
  deriving DecidableEq, Repr

/-- The answer to a call. -/
inductive Answer
  | snapshot (r : Except RightsError Snapshot)
  | updated (r : Except RightsError Unit)
  /-- How many listeners were told and had nothing to object. -/
  | delivered (count : Nat)
  | subscribed (id : Nat)
  | unsubscribed (found : Bool)
  | decision (r : Except RightsError Bool)
  | actions (r : Except RightsError NameSet)
  | warmed (r : Except RightsError Nat)
  | done

/-- What an engine asks of its surroundings. -/
inductive Request
  | tell (key : Nat) (s : Snapshot)
  | rolesOf (login : String)
  | usernames
  deriving DecidableEq, Repr

/-- How a listener took a change. -/
inductive Reaction
  | accepted
  | failed
  | panicked
  deriving DecidableEq, Repr

/-- What can happen to an engine. -/
inductive Event
  | call (c : Call)
  /-- The listener that was told has returned. -/
  | told (r : Reaction)
  | rolesFound (r : Except DirectoryError NameSet)
  | usersFound (r : Except DirectoryError (List String))
  /-- Nobody holds the listener of this key anymore. -/
  | released (key : Nat)

/-- What an engine gives for an event. -/
inductive Output
  | answered (a : Answer)
  | asked (r : Request)
  /-- The event called for nothing. -/
  | nothing

/-! ### What is suspended -/

/-- What a delivery was for. -/
inductive Occasion
  | announced
  | updated
  | reloaded
  deriving DecidableEq, Repr

/-- A delivery under way: what is told, on which occasion, to whom it is still to be told, and how
many have accepted it. -/
structure Round where
  snapshot : Snapshot
  occasion : Occasion
  rest : List Registration
  accepted : Nat := 0
  deriving DecidableEq, Repr

/-- The answer to the call that a delivery belongs to. -/
def Round.answer (r : Round) : Answer :=
  match r.occasion with
  | .announced => .delivered r.accepted
  | .updated => .updated (.ok ())
  | .reloaded => .snapshot (.ok r.snapshot)

/-- What an action set is wanted for. -/
inductive Purpose
  | decide (action : String)
  | list
  /-- One of `total` logins to build, of which `rest` are still to come. -/
  | warmUp (rest : List String) (total : Nat)
  deriving DecidableEq, Repr

/-- A query for the action set of a login, in the generation at an index. -/
structure Query where
  generation : Nat
  login : String
  purpose : Purpose
  deriving DecidableEq, Repr

/-- Something asked and not yet replied to. -/
inductive Frame
  | telling (r : Registration) (round : Round)
  | lookingUp (q : Query)
  | listing
  deriving DecidableEq, Repr

/-- The resolver: its registration, and the generation in use, by its index. -/
structure Resolver where
  id : Nat
  inUse : Option Nat := none
  deriving DecidableEq, Repr

/-- The state of an engine. -/
structure Engine where
  store : Store := {}
  registry : Registry := {}
  resolver : Option Resolver := none
  /-- All generations there have been, oldest first. -/
  generations : List Generation := []
  /-- The keys of listeners that nobody else holds. -/
  released : List Nat := []
  /-- Innermost first. -/
  frames : List Frame := []

namespace Engine

/-- The engine with notices added to the journal. -/
def report (e : Engine) (ns : List Notice) : Engine := { e with store := e.store.report ns }

/-- Suspends until a request is replied to. -/
def ask (e : Engine) (f : Frame) (r : Request) : Output × Engine :=
  (.asked r, { e with frames := f :: e.frames })

/-! ### Deliveries -/

/-- Whether a registration is being told at the moment. -/
def isBeingTold (e : Engine) (s : Subscriber) : Bool :=
  e.frames.any fun
    | .telling r _ => r.subscriber = s
    | _ => false

/-- Whether the subscriber of a registration is still there. -/
def isAlive (e : Engine) (r : Registration) : Bool :=
  match r.subscriber with
  | .listener key => key ∉ e.released || e.isBeingTold (.listener key)
  | .resolver => e.resolver.any (·.id = r.id)

/-- Forgets all action sets. -/
def discard (e : Engine) : Engine :=
  { e with resolver := e.resolver.map fun r ↦ { r with inUse := none } }

/-- Goes on with a delivery to the registrations in a list. The resolver takes the change
at once. -/
def deliver (e : Engine) (round : Round) : List Registration → Output × Engine
  | [] => (.answered round.answer, e)
  | r :: rs =>
    if e.isAlive r then
      match r.subscriber with
      | .listener key => e.ask (.telling r { round with rest := rs }) (.tell key round.snapshot)
      | .resolver => e.discard.deliver { round with accepted := round.accepted + 1 } rs
    else e.deliver round rs

/-- Begins a delivery. Registrations of listeners that are gone are pruned first. -/
def announce (e : Engine) (s : Snapshot) (occasion : Occasion) : Output × Engine :=
  let e := { e with registry := e.registry.prune e.isAlive }
  e.deliver { snapshot := s, occasion := occasion, rest := [] } e.registry.registrations

/-- Goes on after a listener has replied. -/
def resume (e : Engine) (r : Registration) (round : Round) (reaction : Reaction) :
    Output × Engine :=
  match reaction with
  | .accepted => e.deliver { round with accepted := round.accepted + 1 } round.rest
  | .failed => (e.report [.listenerFailed r.id]).deliver round round.rest
  | .panicked => (e.report [.listenerPanicked r.id]).deliver round round.rest

/-! ### Queries -/

/-- The generation at an index. -/
def generation? (e : Engine) (index : Nat) : Option Generation := e.generations[index]?

/-- The action set stored for a login in the generation at an index. -/
def cached? (e : Engine) (index : Nat) (login : String) : Option NameSet :=
  (e.generation? index).bind (·.find? login)

/-- The number of logins with an action set in the generation in use. -/
def cachedLogins (e : Engine) : Nat :=
  (((e.resolver.bind (·.inUse)).bind e.generation?).map (·.size)).getD 0

/-- The generation in use, when it belongs to a snapshot. -/
def inUseFor? (e : Engine) (s : Snapshot) : Option Nat :=
  (e.resolver.bind (·.inUse)).filter fun i ↦
    (e.generation? i).any fun g ↦ g.snapshot.serial = s.serial

/-- The index of a generation for a snapshot, which is a new one unless that in use belongs
to it. -/
def generationFor (e : Engine) (s : Snapshot) : Nat × Engine :=
  match e.inUseFor? s with
  | some i => (i, e)
  | none =>
    let i := e.generations.length
    (i, { e with
      generations := e.generations ++ [{ snapshot := s }]
      resolver := e.resolver.map fun r ↦ { r with inUse := some i } })

/-- Looks up the roles of the first login of a list that has no action set, for its sake. -/
def warm (e : Engine) (index total : Nat) : List String → Output × Engine
  | [] => (.answered (.warmed (.ok total)), e)
  | l :: ls =>
    if (e.cached? index l).isSome then e.warm index total ls
    else e.ask (.lookingUp ⟨index, l, .warmUp ls total⟩) (.rolesOf l)

/-- The policy mode of the generation at an index. -/
def modeOf (e : Engine) (index : Nat) : PolicyMode :=
  ((e.generation? index).map (·.snapshot.configuration.mode)).getD .allowListed

/-- Answers a query by its action set. -/
def satisfy (e : Engine) (q : Query) (actions : NameSet) : Output × Engine :=
  match q.purpose with
  | .decide action =>
    (.answered (.decision (.ok ((e.modeOf q.generation).decide (action ∈ actions)))), e)
  | .list => (.answered (.actions (.ok actions)), e)
  | .warmUp rest total => e.warm q.generation total rest

/-- Answers a query from the cache, or looks up the roles of its login. -/
def query (e : Engine) (q : Query) : Output × Engine :=
  match e.cached? q.generation q.login with
  | some actions => e.satisfy q actions
  | none => e.ask (.lookingUp q) (.rolesOf q.login)

/-- Builds the action set of a query for given roles and stores it, unless a set has been stored for
the login in the meantime. Answers by what is stored. -/
def build (e : Engine) (q : Query) (roles : NameSet) : Output × Engine :=
  match e.generation? q.generation with
  | none => (.nothing, e)
  | some g =>
    let p : Principal := ⟨q.login, roles⟩
    let c := g.snapshot.configuration
    let built := c.listedActions p
    let dangling := (c.danglingReferences p).map fun r ↦ Notice.danglingReference r q.login
    let g' := g.remember q.login built
    let e' := { e.report dangling with generations := e.generations.set q.generation g' }
    e'.satisfy q ((g'.find? q.login).getD built)

/-- Goes on after a look-up of roles. A look-up that fails counts as no roles. -/
def rolesFound (e : Engine) (q : Query) : Except DirectoryError NameSet → Output × Engine
  | .ok roles => e.build q roles
  | .error _ => (e.report [.rolesUnavailable q.login]).build q ∅

/-! ### Calls -/

variable {m : Type → Type} [Monad m] {α : Type}

/-- Performs an operation of the store. -/
def withStore (e : Engine) (op : StoreM m α) : m (Except RightsError α × Engine) := do
  let (r, s) ← op.run.run e.store
  return (r, { e with store := s })

/-- Begins a query for an action set in the generation of the configuration in force. -/
def beginQuery (d : Documents m) (e : Engine) (login : String) (purpose : Purpose)
    (failed : RightsError → Engine → Output × Engine) : m (Output × Engine) := do
  let (r, e) ← e.withStore (Store.current d)
  match r with
  | .error err => return failed err e
  | .ok s =>
    let (i, e) := e.generationFor s
    return e.query ⟨i, login, purpose⟩

/-- Begins to build the action sets of users. A directory that cannot list its users has none. -/
def usersFound (d : Documents m) (e : Engine) :
    Except DirectoryError (List String) → m (Output × Engine)
  | .error _ => return (.answered (.warmed (.ok 0)), e.report [.usersUnavailable])
  | .ok users => do
    let (r, e) ← e.withStore (Store.current d)
    match r with
    | .error err => return (.answered (.warmed (.error err)), e)
    | .ok s =>
      let (i, e) := e.generationFor s
      return e.warm i users.length users

/-- Registers a new resolver, and then drops the one before it. -/
def attachResolver (e : Engine) : Engine :=
  let registry := e.registry.add .resolver
  { e with
    registry := match e.resolver with
      | none => registry
      | some old => registry.remove old.id
    resolver := some { id := e.registry.nextId } }

/-- Takes a call. -/
def call (d : Documents m) (e : Engine) : Call → m (Output × Engine)
  | .current => do
    let (r, e) ← e.withStore (Store.current d)
    return (.answered (.snapshot r), e)
  | .update candidate => do
    let (r, e) ← e.withStore (Store.commit d candidate)
    match r with
    | .error err => return (.answered (.updated (.error err)), e)
    | .ok none => return (.answered (.updated (.ok ())), e)
    | .ok (some s) => return e.announce s .updated
  | .reload => do
    let (r, e) ← e.withStore (Store.reload d)
    match r with
    | .error err => return (.answered (.snapshot (.error err)), e)
    | .ok s => return e.announce s .reloaded
  | .announce s => return e.announce s .announced
  | .subscribe key =>
    return (.answered (.subscribed e.registry.nextId),
      { e with registry := e.registry.add (.listener key) })
  | .unsubscribe id =>
    return (.answered (.unsubscribed (e.registry.has id)),
      { e with registry := e.registry.remove id })
  | .attachResolver => return (.answered .done, e.attachResolver)
  | .isAllowed login action =>
    beginQuery d e login (.decide action) fun _ e ↦
      (.answered (.decision (.ok false)), e.report [.denying login action])
  | .tryIsAllowed login action =>
    beginQuery d e login (.decide action) fun err e ↦
      (.answered (.decision (.error err)), e)
  | .effectiveActions login =>
    beginQuery d e login .list fun err e ↦ (.answered (.actions (.error err)), e)
  | .warmUp => return e.ask .listing .usernames
  | .discard => return (.answered .done, e.discard)

/-- What an engine does on one event. A reply that nothing waits for is passed over. -/
def step (d : Documents m) (e : Engine) : Event → m (Output × Engine)
  | .call c => e.call d c
  | .released key => return (.nothing, { e with released := key :: e.released })
  | .told reaction =>
    match e.frames with
    | .telling r round :: fs => return { e with frames := fs }.resume r round reaction
    | _ => return (.nothing, e)
  | .rolesFound r =>
    match e.frames with
    | .lookingUp q :: fs => return { e with frames := fs }.rolesFound q r
    | _ => return (.nothing, e)
  | .usersFound r =>
    match e.frames with
    | .listing :: fs => { e with frames := fs }.usersFound d r
    | _ => return (.nothing, e)

end Engine

end LayeredRights
