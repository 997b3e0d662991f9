import LayeredRights.Proofs.Entries
import LayeredRights.Proofs.Kdl.Nodes
import LayeredRights.Rights.Document.Printer
import LayeredRights.Rights.Document.Reader

/-!
# Reading written rights documents

A document that follows the rules for entries reads back to itself, its origins aside, or its text
is malformed (`Document.ofText_text`). Which of the two happens depends on the strings of the
document alone, one by one, and it is never anything else: no other document, and no complaint about
what a document says.

The two directions meet in the nodes. A document is written as nodes of strings only
(`nodesAreTextual_nodes`), which is what the format below needs, and these nodes say what the
document says (`ofNodes_nodes`), for which the document has to follow the rules. The format of nodes
does not know about profiles, and the format of documents does not know about quotes.

The origin of entries is not written. What is read back is therefore the document with the factory
layer on every entry, and `Document.offence?_tagged` and `merge_tagged` say that nothing depends on
it.
-/

namespace LayeredRights

open Kdl (Node isReadable)

/-! ### From nodes to the document -/

/-- The strings listed in a block are read back in order. -/
theorem dashList_dashNode (name : String) (items : List String) :
    dashList (dashNode name items) = items := by
  have hchildren : (dashNode name items).children = items.map fun s ↦ stringNode "-" s none := rfl
  rw [dashList, hchildren]
  induction items with
  | nil => rfl
  | cons item items ih =>
    rw [List.map_cons, List.filter_cons_of_pos (by rfl)]
    exact congrArg (item :: ·) (ih rfl)

/-- A node with one child of the expected name lists what the child lists. -/
theorem listedUnder_dashNode (name argument expected : String) (fault : String → DocumentFault)
    (items : List String) :
    listedUnder expected fault (stringNode name argument (some [dashNode expected items])) =
      .ok items := by
  have hchildren : (stringNode name argument (some [dashNode expected items])).children =
      [dashNode expected items] := rfl
  have hname : (dashNode expected items).name = expected := rfl
  simp [listedUnder, hchildren, hname, dashList_dashNode]

theorem Item.ofNode_profile (p : Profile) :
    Item.ofNode p.node = .ok (.profile (p.tagged .factory)) := by
  have hnode : Item.ofNode p.node = Item.ofProfileNode p.node := rfl
  have hfirst : p.node.firstString? = some p.name := rfl
  simp only [hnode, Item.ofProfileNode, hfirst]
  rw [Profile.node, listedUnder_dashNode]
  rfl

/-- The node of a user profile says the user profile. -/
theorem Item.ofNode_userProfile (u : UserProfile) :
    Item.ofNode u.node = .ok (.userProfile (u.tagged .factory)) := by
  have hnode : Item.ofNode u.node = Item.ofUserProfileNode u.node := rfl
  have hfirst : u.node.firstString? = some u.login := rfl
  simp only [hnode, Item.ofUserProfileNode, hfirst]
  rw [UserProfile.node, listedUnder_dashNode]
  rfl

/-- The node of a mode says the mode, as every mode is found by its name. -/
theorem Item.ofNode_mode (m : PolicyMode) :
    Item.ofNode (stringNode "mode" m.name none) = .ok (.mode m) := by
  have hmode : PolicyMode.ofName? m.name = some m := PolicyMode.ofName?_eq_some_iff.2 rfl
  have hnode : Item.ofNode (stringNode "mode" m.name none) =
      Item.ofModeNode (stringNode "mode" m.name none) := rfl
  have hfirst : (stringNode "mode" m.name none).firstString? = some m.name := rfl
  simp only [hnode, Item.ofModeNode, hfirst, hmode]

namespace Collected

/-- Nodes of profiles add the profiles and go on, newest first. -/
theorem addNodes_profiles (c : Collected) (ps : List Profile) (ns : List Node) :
    c.addNodes (ps.map Profile.node ++ ns) =
      { c with profiles := (ps.map (Profile.tagged · .factory)).reverse ++ c.profiles }.addNodes
        ns := by
  induction ps generalizing c with
  | nil => rfl
  | cons p ps ih =>
    rw [List.map_cons, List.cons_append, addNodes, Item.ofNode_profile]
    show addNodes { c with profiles := p.tagged .factory :: c.profiles } _ = _
    rw [ih]
    simp

/-- Nodes of user profiles add the user profiles, newest first, and nothing stops at them. -/
theorem addNodes_userProfiles (c : Collected) (us : List UserProfile) :
    c.addNodes (us.map UserProfile.node) =
      ({ c with
        userProfiles := (us.map (UserProfile.tagged · .factory)).reverse ++ c.userProfiles },
        none) := by
  induction us generalizing c with
  | nil => rfl
  | cons u us ih =>
    rw [List.map_cons, addNodes, Item.ofNode_userProfile]
    show addNodes { c with userProfiles := u.tagged .factory :: c.userProfiles } _ = _
    rw [ih]
    simp

end Collected

namespace Document

/-- The nodes of a document that follows the rules say what the document says. -/
theorem ofNodes_nodes {d : Document} (h : d.offence? = none) :
    ofNodes d.nodes = { result := .ok (d.tagged .factory) } := by
  -- entries are collected newest first, after the mode
  have hadd : ({} : Collected).addNodes d.nodes =
      ({ mode := some d.mode
         profiles := (d.profiles.map (·.tagged .factory)).reverse
         userProfiles := (d.userProfiles.map (·.tagged .factory)).reverse }, none) := by
    rw [nodes, Collected.addNodes, Item.ofNode_mode]
    show Collected.addNodes { mode := some d.mode } _ = _
    rw [Collected.addNodes_profiles, Collected.addNodes_userProfiles, List.append_nil,
      List.append_nil]
  have hoffence : (d.tagged .factory).offence? = none := (d.offence?_tagged .factory).trans h
  -- nothing is left to complain about: the mode was said, and the entries follow the rules
  rw [ofNodes, hadd]
  simp only [Collected.document, List.reverse_reverse]
  rw [show (⟨d.mode, d.profiles.map (·.tagged .factory), d.userProfiles.map (·.tagged .factory)⟩ :
    Document) = d.tagged .factory from rfl, hoffence]
  rfl

/-! ### From text to the document -/

/-- The strings of a document, in the order in which they are written. -/
def strings (d : Document) : List String :=
  d.profiles.flatMap (fun p ↦ p.name :: p.actions) ++
    d.userProfiles.flatMap fun u ↦ u.login :: u.profiles

/-- All strings of a document read back by themselves. -/
def isReadable (d : Document) : Bool := d.strings.all Kdl.isReadable

/-- The words of the format read back, so it is up to the strings that are listed. -/
theorem all_isReadable_dashNode {name : String} (hname : Kdl.isReadable name = true)
    (items : List String) :
    (dashNode name items).strings.all Kdl.isReadable = items.all Kdl.isReadable := by
  have hdash : Kdl.isReadable "-" = true := by decide
  have hstrings : (dashNode name items).strings = name :: items.flatMap fun s ↦ ["-", s] := by
    show name :: Kdl.nodesStrings (items.map fun s ↦ stringNode "-" s none) = _
    rw [Kdl.nodesStrings_eq_flatMap, List.flatMap_map]
    rfl
  rw [hstrings, List.all_cons, hname, Bool.true_and, List.all_flatMap]
  simp [hdash]

/-- The node of an entry reads back if its own string and those it lists do. -/
theorem all_isReadable_stringNode {name child : String} (hname : Kdl.isReadable name = true)
    (hchild : Kdl.isReadable child = true) (argument : String) (items : List String) :
    (stringNode name argument (some [dashNode child items])).strings.all Kdl.isReadable =
      (argument :: items).all Kdl.isReadable := by
  have hstrings : (stringNode name argument (some [dashNode child items])).strings =
      name :: argument :: ((dashNode child items).strings ++ []) := rfl
  rw [hstrings, List.append_nil, List.all_cons, List.all_cons, hname,
    all_isReadable_dashNode hchild, Bool.true_and, List.all_cons]

/-- The nodes of a document read back if its strings do, as all other words are those of the format.
-/
theorem all_isReadable_nodes (d : Document) :
    (Kdl.nodesStrings d.nodes).all Kdl.isReadable = d.isReadable := by
  have hprofile : ∀ p : Profile,
      p.node.strings.all Kdl.isReadable = (p.name :: p.actions).all Kdl.isReadable :=
    fun p ↦ all_isReadable_stringNode (by decide) (by decide) p.name p.actions
  have huser : ∀ u : UserProfile,
      u.node.strings.all Kdl.isReadable = (u.login :: u.profiles).all Kdl.isReadable :=
    fun u ↦ all_isReadable_stringNode (by decide) (by decide) u.login u.profiles
  have hmode : (stringNode "mode" d.mode.name none).strings.all Kdl.isReadable = true := by
    cases d.mode <;> decide
  rw [Kdl.nodesStrings_eq_flatMap, nodes, isReadable, strings]
  simp only [List.flatMap_cons, List.all_append, hmode, Bool.true_and, List.flatMap_append,
    List.all_flatMap, List.all_map, Function.comp_def, hprofile, huser]

/-- The nodes of a document have strings and nothing else. -/
theorem nodesAreTextual_nodes (d : Document) : Kdl.nodesAreTextual d.nodes = true := by
  have hdash : ∀ name items, (dashNode name items).isTextual = true := by
    intro name items
    show Kdl.nodesAreTextual (items.map fun s ↦ stringNode "-" s none) = true
    rw [Kdl.nodesAreTextual_eq_all, List.all_map]
    exact List.all_eq_true.2 fun _ _ ↦ rfl
  have hnode : ∀ name argument child items,
      (stringNode name argument (some [dashNode child items])).isTextual = true := by
    intro name argument child items
    show ((dashNode child items).isTextual && true) = true
    rw [hdash, Bool.true_and]
  rw [Kdl.nodesAreTextual_eq_all, nodes]
  simp only [List.all_cons, List.all_append, List.all_map, Bool.and_eq_true, List.all_eq_true]
  exact ⟨rfl, fun p _ ↦ hnode _ _ _ _, fun u _ ↦ hnode _ _ _ _⟩

/-- **A written document reads back to itself or is malformed**, as its strings decide. -/
theorem ofText_text {d : Document} (h : d.offence? = none) :
    ofText d.text =
      if d.isReadable then { result := .ok (d.tagged .factory) }
      else { result := .error (.malformed "Failed to parse KDL document") } := by
  rw [ofText, text, Node.ofText?_writeDocument d.nodesAreTextual_nodes, all_isReadable_nodes]
  cases d.isReadable with
  | false => rfl
  | true => exact ofNodes_nodes h

/-- **No written document silently changes.** It reads back to itself or is malformed, and it does
read back when its strings are ordinary text. -/
theorem ofText_text_eq_or_malformed {d : Document} (h : d.offence? = none) :
    ((ofText d.text).result = .ok (d.tagged .factory) ∨
      ∃ detail, (ofText d.text).result = .error (.malformed detail)) ∧
    ((∀ s ∈ d.strings, (∀ c ∈ s.toList, Kdl.isTroublesome c = false) ∧
        Kdl.opensWithFraction (Kdl.afterSign s.toList) = false) →
      (ofText d.text).result = .ok (d.tagged .factory)) := by
  rw [ofText_text h]
  constructor
  · cases d.isReadable with
    | true => exact .inl rfl
    | false => exact .inr ⟨_, rfl⟩
  · intro hordinary
    have hreadable : d.isReadable = true := List.all_eq_true.2 fun s hs ↦
      Kdl.isReadable_of_not_isTroublesome (hordinary s hs).1 (hordinary s hs).2
    rw [hreadable]
    rfl

/-- A document of strings that need care: keywords, numbers, dashes, quotes and an empty string. -/
def awkward : Document where
  mode := .denyListed
  profiles := [{ name := "true", actions := ["", "-", "--1", "1e5", "a \"b\"", "#null", "\t\n\r"] }]
  userProfiles :=
    [{ login := "-inf", profiles := ["\x7b", "true", "true"], origin := .modification }]

/-- It reads back, since nothing of it is outside ordinary text. -/
theorem ofText_text_awkward : awkward.offence? = none ∧
    (ofText awkward.text).result = .ok (awkward.tagged .factory) := by
  have h : awkward.offence? = none := by decide
  have hordinary : (awkward.strings.all fun s ↦ s.toList.all (Kdl.isTroublesome · == false) &&
      Kdl.opensWithFraction (Kdl.afterSign s.toList) == false) = true := by decide
  exact ⟨h, (ofText_text_eq_or_malformed h).2 (by simpa using hordinary)⟩

end Document

end LayeredRights
