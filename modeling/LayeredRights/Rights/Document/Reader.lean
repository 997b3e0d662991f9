import LayeredRights.Kdl.Node.Reader
import LayeredRights.Rights.Notice

/-!
# Reading rights documents

A rights document is a KDL document with one `mode` node and any number of `profile` and
`userprofile` nodes. Each of these carries its name as first argument, and lists actions or profiles
as nodes named `-` in a block of a child named `actions` or `profiles`. Nodes of other names are
passed over and reported.

The first faulty node in document order decides the error. A missing mode is found after the last
node, and the rules for entries are checked after that.
-/

namespace LayeredRights

open Kdl (Node)

/-- What a top-level node says. -/
inductive Item
  | mode (m : PolicyMode)
  | profile (p : Profile)
  | userProfile (u : UserProfile)
  | unknown (name : String)
  deriving DecidableEq, Repr

/-- The strings listed in the block of a node: the first arguments of its children named `-`, those
without a string there left out. -/
def dashList (n : Node) : List String :=
  (n.children.filter (·.name = "-")).filterMap Node.firstString?

/-- The strings listed under a node by its children, all of which have to be named `expected`. The
last of them counts. -/
def listedUnder (expected : String) (fault : String → DocumentFault) (n : Node) :
    Except DocumentFault (List String) :=
  match n.children.find? (·.name ≠ expected) with
  | some child => .error (fault child.name)
  | none => .ok ((n.children.getLast?.map dashList).getD [])

namespace Item

/-- Reads a `mode` node. -/
def ofModeNode (n : Node) : Except DocumentFault Item :=
  match n.firstString? with
  | none => .error .modeWithoutArgument
  | some word =>
    match PolicyMode.ofName? word with
    | none => .error (.unknownMode word)
    | some m => .ok (.mode m)

/-- Reads a `profile` node. -/
def ofProfileNode (n : Node) : Except DocumentFault Item :=
  match n.firstString? with
  | none => .error .profileWithoutArgument
  | some name =>
    (listedUnder "actions" (.profileChild · name) n).map fun as ↦
      .profile { name := name, actions := as }

/-- Reads a `userprofile` node. -/
def ofUserProfileNode (n : Node) : Except DocumentFault Item :=
  match n.firstString? with
  | none => .error .userProfileWithoutArgument
  | some login =>
    (listedUnder "profiles" (.userProfileChild · login) n).map fun ps ↦
      .userProfile { login := login, profiles := ps }

/-- Reads a top-level node. -/
def ofNode (n : Node) : Except DocumentFault Item :=
  if n.name = "mode" then ofModeNode n
  else if n.name = "profile" then ofProfileNode n
  else if n.name = "userprofile" then ofUserProfileNode n
  else .ok (.unknown n.name)

end Item

/-- What has been read of a document. All lists are newest first. -/
structure Collected where
  mode : Option PolicyMode := none
  profiles : List Profile := []
  userProfiles : List UserProfile := []
  unknown : List String := []
  deriving DecidableEq, Repr

namespace Collected

/-- Adds an item. A second mode is refused. -/
def add (c : Collected) : Item → Except DocumentFault Collected
  | .mode m => if c.mode.isSome then .error .severalModes else .ok { c with mode := some m }
  | .profile p => .ok { c with profiles := p :: c.profiles }
  | .userProfile u => .ok { c with userProfiles := u :: c.userProfiles }
  | .unknown n => .ok { c with unknown := n :: c.unknown }

/-- Adds nodes up to the first faulty one, which is reported by its fault. -/
def addNodes (c : Collected) : List Node → Collected × Option DocumentFault
  | [] => (c, none)
  | n :: ns =>
    match (Item.ofNode n).bind c.add with
    | .ok c' => c'.addNodes ns
    | .error f => (c, some f)

/-- The document that has been collected, if it follows the rules. -/
def document (c : Collected) : Except DocumentFault Document :=
  match c.mode with
  | none => .error .missingMode
  | some m =>
    let d : Document :=
      { mode := m, profiles := c.profiles.reverse, userProfiles := c.userProfiles.reverse }
    match d.offence? with
    | some o => .error (.offence o)
    | none => .ok d

/-- The notices about nodes passed over. -/
def notices (c : Collected) : List Notice := c.unknown.reverse.map .unknownNode

end Collected

/-- Reads a rights document off the nodes of its text. -/
def Document.ofNodes (ns : List Node) : Reported Document :=
  match ({} : Collected).addNodes ns with
  | (c, some f) => { result := .error (.invalid f), notices := c.notices }
  | (c, none) => { result := c.document.mapError .invalid, notices := c.notices }

/-- Reads a rights document. -/
def Document.ofText (s : String) : Reported Document :=
  match Node.ofText? s with
  | none => { result := .error (.malformed "Failed to parse KDL document") }
  | some ns => Document.ofNodes ns

end LayeredRights
