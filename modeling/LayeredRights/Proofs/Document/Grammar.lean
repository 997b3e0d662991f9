import LayeredRights.Proofs.Entries
import LayeredRights.Rights.Document.Reader
import Mathlib.Data.List.Forall2

/-!
# The grammar of rights documents

Reading a document is a walk over its nodes that stops at the first fault, followed by a check of
what has been collected. What it accepts can be said without a walk. `Says` is the grammar of one
node, and the reader of nodes follows it (`Item.ofNode_eq_ok_iff`). Of a whole document it takes the
items that its nodes say, among which there has to be exactly one mode
(`Document.result_ofNodes_eq_ok_iff`).

`Grammatical` is the same as conditions on the nodes alone. Nodes of other names than those of the
grammar have no part in it, and leaving them out makes no difference to what is read, a fault
included (`Document.result_ofNodes_filter`).

The reader and the grammar are brought together in two steps. The first goes through the items:
nodes are read exactly when there are items that they say one by one, and what is collected is what
the items add up to (`Collected.Extended`). The second leaves the items out. A relation between
nodes and items falls apart by kind (`forall₂_of_items`), and so the rules for entries become
conditions on nodes of one name each (`Reads.lawful_iff`).

Which fault is found is not said here beyond that there is one. It is the first in the order of the
nodes, except that a rule for entries is looked at after all nodes have been collected.
-/

namespace LayeredRights

open Kdl (Node)

/-! ### What one node says -/

/-- The list under a node, which is that of its last child. -/
def lastList (n : Node) : List String := (n.children.getLast?.map dashList).getD []

/-- The node of an entry has a string as its first argument, the key, and children of one name. -/
structure IsEntry (child : String) (n : Node) (key : String) (listed : List String) : Prop where
  key : n.firstString? = some key
  children : ∀ c ∈ n.children, c.name = child
  listed : listed = lastList n

/-- What a `profile` node says. -/
structure IsProfile (n : Node) (p : Profile) : Prop where
  entry : IsEntry "actions" n p.name p.actions
  origin : p.origin = .factory

/-- What a `userprofile` node says. -/
structure IsUserProfile (n : Node) (u : UserProfile) : Prop where
  entry : IsEntry "profiles" n u.login u.profiles
  origin : u.origin = .factory

/-- The names of nodes that mean something at the top level. -/
def isKnown (n : Node) : Bool := n.name = "mode" || n.name = "profile" || n.name = "userprofile"

/-- What a top-level node says. -/
inductive Says (n : Node) : Item → Prop
  | mode {m : PolicyMode} (hname : n.name = "mode") (hword : n.firstString? = some m.name) :
      Says n (.mode m)
  | profile {p : Profile} (hname : n.name = "profile") (h : IsProfile n p) : Says n (.profile p)
  | userProfile {u : UserProfile} (hname : n.name = "userprofile") (h : IsUserProfile n u) :
      Says n (.userProfile u)
  | unknown (hname : isKnown n = false) : Says n (.unknown n.name)

/-- What comes of a result that is mapped is had from one that there was. -/
theorem map_eq_ok_iff {ε α β : Type} {f : α → β} {x : Except ε α} {b : β} :
    x.map f = .ok b ↔ ∃ a, x = .ok a ∧ b = f a := by
  cases x <;> simp [Except.map, eq_comm]

section Nodes

variable {n : Node} {i : Item}

/-- The children of a node are listed exactly when all have the expected name, and then the last one
is what is listed. -/
theorem listedUnder_eq_ok_iff {expected : String} {fault : String → DocumentFault}
    {xs : List String} : listedUnder expected fault n = .ok xs ↔
      (∀ c ∈ n.children, c.name = expected) ∧ xs = lastList n := by
  unfold listedUnder
  cases hfind : n.children.find? (·.name ≠ expected) with
  | some child =>
    have hmem := List.mem_of_find?_eq_some hfind
    have hne : child.name ≠ expected := by simpa using List.find?_some hfind
    simp only [reduceCtorEq, false_iff]
    exact fun h ↦ hne (h.1 child hmem)
  | none =>
    have hall : ∀ c ∈ n.children, c.name = expected := by simpa using hfind
    simp only [Except.ok.injEq]
    exact ⟨fun h ↦ ⟨hall, h.symm⟩, fun h ↦ h.2.symm⟩

/-- A `mode` node is read exactly when its first argument is the name of a mode. -/
theorem Item.ofModeNode_eq_ok_iff :
    ofModeNode n = .ok i ↔ ∃ m : PolicyMode, n.firstString? = some m.name ∧ i = .mode m := by
  constructor
  · intro h
    unfold ofModeNode at h
    cases hfirst : n.firstString? with
    | none => simp [hfirst] at h
    | some word =>
      cases hword : PolicyMode.ofName? word with
      | none => simp [hfirst, hword] at h
      | some m =>
        simp only [hfirst, hword, Except.ok.injEq] at h
        exact ⟨m, congrArg some (PolicyMode.ofName?_eq_some_iff.1 hword), h.symm⟩
  · rintro ⟨m, hfirst, rfl⟩
    have hword : PolicyMode.ofName? m.name = some m := PolicyMode.ofName?_eq_some_iff.2 rfl
    simp only [ofModeNode, hfirst, hword]

/-- The rest of the node of an entry, once its key is known. -/
theorem map_listedUnder_eq_ok_iff {child key : String} {fault : String → DocumentFault}
    {item : List String → Item} (hkey : n.firstString? = some key) :
    (listedUnder child fault n).map item = .ok i ↔
      ∃ listed, IsEntry child n key listed ∧ i = item listed := by
  simp only [map_eq_ok_iff, listedUnder_eq_ok_iff]
  constructor
  · rintro ⟨listed, ⟨hchildren, hlisted⟩, rfl⟩
    exact ⟨listed, ⟨hkey, hchildren, hlisted⟩, rfl⟩
  · rintro ⟨listed, h, rfl⟩
    exact ⟨listed, ⟨h.children, h.listed⟩, rfl⟩

/-- A `profile` node is read as the profile that it says. -/
theorem Item.ofProfileNode_eq_ok_iff :
    ofProfileNode n = .ok i ↔ ∃ p, IsProfile n p ∧ i = .profile p := by
  unfold ofProfileNode
  cases hfirst : n.firstString? with
  | none =>
    simp only [reduceCtorEq, false_iff]
    rintro ⟨p, hp, -⟩
    exact nomatch hfirst.symm.trans hp.entry.key
  | some name =>
    simp only [map_listedUnder_eq_ok_iff hfirst]
    constructor
    · rintro ⟨as, h, rfl⟩
      exact ⟨{ name := name, actions := as }, ⟨h, rfl⟩, rfl⟩
    · rintro ⟨p, ⟨h, horigin⟩, rfl⟩
      obtain rfl : name = p.name := Option.some.inj (hfirst.symm.trans h.key)
      exact ⟨p.actions, h, by rw [← horigin]⟩

/-- A `userprofile` node is read as the user profile that it says. -/
theorem Item.ofUserProfileNode_eq_ok_iff :
    ofUserProfileNode n = .ok i ↔ ∃ u, IsUserProfile n u ∧ i = .userProfile u := by
  unfold ofUserProfileNode
  cases hfirst : n.firstString? with
  | none =>
    simp only [reduceCtorEq, false_iff]
    rintro ⟨u, hu, -⟩
    exact nomatch hfirst.symm.trans hu.entry.key
  | some login =>
    simp only [map_listedUnder_eq_ok_iff hfirst]
    constructor
    · rintro ⟨ps, h, rfl⟩
      exact ⟨{ login := login, profiles := ps }, ⟨h, rfl⟩, rfl⟩
    · rintro ⟨u, ⟨h, horigin⟩, rfl⟩
      obtain rfl : login = u.login := Option.some.inj (hfirst.symm.trans h.key)
      exact ⟨u.profiles, h, by rw [← horigin]⟩

/-- **The reader of nodes follows the grammar.** -/
theorem Item.ofNode_eq_ok_iff : ofNode n = .ok i ↔ Says n i := by
  constructor
  · intro h
    unfold ofNode at h
    split_ifs at h with hmode hprofile huser
    · obtain ⟨m, hword, rfl⟩ := ofModeNode_eq_ok_iff.1 h
      exact .mode hmode hword
    · obtain ⟨p, hp, rfl⟩ := ofProfileNode_eq_ok_iff.1 h
      exact .profile hprofile hp
    · obtain ⟨u, hu, rfl⟩ := ofUserProfileNode_eq_ok_iff.1 h
      exact .userProfile huser hu
    · obtain rfl := Except.ok.inj h
      exact .unknown (by simp [isKnown, hmode, hprofile, huser])
  · rintro (⟨hname, hword⟩ | ⟨hname, hp⟩ | ⟨hname, hu⟩ | hname)
    · rw [ofNode, if_pos hname]
      exact ofModeNode_eq_ok_iff.2 ⟨_, hword, rfl⟩
    · simpa [ofNode, hname] using ofProfileNode_eq_ok_iff.2 ⟨_, hp, rfl⟩
    · simpa [ofNode, hname] using ofUserProfileNode_eq_ok_iff.2 ⟨_, hu, rfl⟩
    · simp only [isKnown, Bool.or_eq_false_iff, decide_eq_false_iff_not] at hname
      simp [ofNode, hname]

end Nodes

/-! ### What the nodes of a document say -/

namespace Item

/-- The mode that an item is. -/
@[simp] def mode? : Item → Option PolicyMode
  | mode m => some m
  | _ => none

/-- The profile that an item is. -/
@[simp] def profile? : Item → Option Profile
  | profile p => some p
  | _ => none

/-- The user profile that an item is. -/
@[simp] def userProfile? : Item → Option UserProfile
  | userProfile u => some u
  | _ => none

/-- The name of a node passed over. -/
@[simp] def unknown? : Item → Option String
  | unknown name => some name
  | _ => none

end Item

namespace Collected

/-- A collection with items added. As there is room for one mode, the items have one at most, and
none if there was a mode before. -/
@[mk_iff] structure Extended (c : Collected) (items : List Item) (c' : Collected) : Prop where
  mode : c'.mode.toList = c.mode.toList ++ items.filterMap Item.mode?
  profiles : c'.profiles = (items.filterMap Item.profile?).reverse ++ c.profiles
  userProfiles : c'.userProfiles = (items.filterMap Item.userProfile?).reverse ++ c.userProfiles
  unknown : c'.unknown = (items.filterMap Item.unknown?).reverse ++ c.unknown

variable {c c' : Collected} {i : Item} {items : List Item} {ns : List Node}

theorem extended_nil_iff : c.Extended [] c' ↔ c = c' := by
  constructor
  · rintro ⟨hmode, hprofiles, huserProfiles, hunknown⟩
    have hsame : c.mode = c'.mode := by
      cases hc : c.mode <;> cases hc' : c'.mode <;> simp_all
    obtain ⟨_, _, _, _⟩ := c
    obtain ⟨_, _, _, _⟩ := c'
    simp_all
  · rintro rfl
    exact ⟨by simp, rfl, rfl, rfl⟩

/-- Items are added one after another. A mode that finds one there is refused, so there is nothing
that the collection could be extended to. -/
theorem extended_cons_iff : c.Extended (i :: items) c' ↔
    ∃ c₁, c.add i = .ok c₁ ∧ c₁.Extended items c' := by
  cases i with
  | mode m =>
    cases hmode : c.mode with
    | some m₀ =>
      simp only [add, hmode, Option.isSome_some, if_true, reduceCtorEq, false_and, exists_false,
        iff_false]
      -- one mode before and another one now are two, and there is room for one
      intro h
      have hlength := congrArg List.length h.mode
      cases hc' : c'.mode <;> simp [hmode, hc'] at hlength
    | none => simp [add, extended_iff, hmode, List.filterMap_cons]
  | profile p => simp [add, extended_iff, List.filterMap_cons]
  | userProfile u => simp [add, extended_iff, List.filterMap_cons]
  | unknown name => simp [add, extended_iff, List.filterMap_cons]

/-- A first node is collected without a fault exactly when it says something that can be added, and
the rest without a fault after it. -/
theorem addNodes_cons_eq_none_iff {n : Node} : c.addNodes (n :: ns) = (c', none) ↔
    ∃ i c₁, Says n i ∧ c.add i = .ok c₁ ∧ c₁.addNodes ns = (c', none) := by
  simp only [← Item.ofNode_eq_ok_iff]
  rw [addNodes]
  cases hnode : Item.ofNode n with
  | error f => simp [Except.bind]
  | ok i =>
    cases hadd : c.add i with
    | error f => simp [Except.bind, hadd]
    | ok c₁ => simp [Except.bind, hadd]

/-- Nodes are collected without a fault exactly when each says something, with one mode at most. -/
theorem addNodes_eq_none_iff : c.addNodes ns = (c', none) ↔
    ∃ items, List.Forall₂ Says ns items ∧ c.Extended items c' := by
  induction ns generalizing c with
  | nil => simp [addNodes, extended_nil_iff]
  | cons n ns ih =>
    rw [addNodes_cons_eq_none_iff]
    constructor
    · rintro ⟨i, c₁, hsaid, hadd, hrest⟩
      obtain ⟨items, hall, hext⟩ := ih.1 hrest
      exact ⟨i :: items, .cons hsaid hall, extended_cons_iff.2 ⟨c₁, hadd, hext⟩⟩
    · rintro ⟨_, hsaid | ⟨hsaid, hall⟩, hext⟩
      obtain ⟨c₁, hadd, hext⟩ := extended_cons_iff.1 hext
      exact ⟨_, c₁, hsaid, hadd, ih.2 ⟨_, hall, hext⟩⟩

end Collected

/-- A collection is a document exactly when there is a mode and the entries follow the rules.
Entries have been collected newest first. -/
theorem Collected.document_eq_ok_iff {c : Collected} {d : Document} : c.document = .ok d ↔
    c.mode = some d.mode ∧ c.profiles.reverse = d.profiles ∧
      c.userProfiles.reverse = d.userProfiles ∧ d.offence? = none := by
  unfold document
  cases hmode : c.mode with
  | none => simp
  | some m =>
    dsimp only
    split
    · next o hoffence =>
      simp only [reduceCtorEq, Option.some.injEq, false_iff]
      rintro ⟨rfl, hprofiles, huserProfiles, hnone⟩
      rw [hprofiles, huserProfiles, hnone] at hoffence
      exact nomatch hoffence
    · next hoffence =>
      simp only [Except.ok.injEq, Option.some.injEq]
      constructor
      · rintro rfl
        exact ⟨rfl, rfl, rfl, hoffence⟩
      · rintro ⟨rfl, hprofiles, huserProfiles, -⟩
        rw [hprofiles, huserProfiles]

/-- **A document is read off nodes exactly when they say one mode and lawful entries**, and it has
what they say in the order of the nodes. -/
theorem Document.result_ofNodes_eq_ok_iff {ns : List Node} {d : Document} :
    (ofNodes ns).result = .ok d ↔ d.offence? = none ∧ ∃ items, List.Forall₂ Says ns items ∧
      items.filterMap Item.mode? = [d.mode] ∧ items.filterMap Item.profile? = d.profiles ∧
      items.filterMap Item.userProfile? = d.userProfiles := by
  have hresult : (ofNodes ns).result = .ok d ↔
      ∃ c, ({} : Collected).addNodes ns = (c, none) ∧ c.document = .ok d := by
    unfold ofNodes
    split
    · next c f hadd => simp [hadd]
    · next c hadd => cases hdoc : c.document <;> simp [hadd, hdoc, Except.mapError]
  simp only [hresult, Collected.addNodes_eq_none_iff, Collected.document_eq_ok_iff]
  constructor
  · rintro ⟨c, ⟨items, hall, hext⟩, hmode, hprofiles, huserProfiles, hoffence⟩
    refine ⟨hoffence, items, hall, ?_, ?_, ?_⟩
    · simpa [hmode] using hext.mode.symm
    · simpa [hprofiles] using (congrArg List.reverse hext.profiles).symm
    · simpa [huserProfiles] using (congrArg List.reverse hext.userProfiles).symm
  · rintro ⟨hoffence, items, hall, hmode, hprofiles, huserProfiles⟩
    refine ⟨⟨some d.mode, d.profiles.reverse, d.userProfiles.reverse,
      (items.filterMap Item.unknown?).reverse⟩, ⟨items, hall, ?_⟩, rfl, ?_, ?_, hoffence⟩
    · exact ⟨by simp [hmode], by simp [hprofiles], by simp [huserProfiles], by simp⟩
    · exact List.reverse_reverse _
    · exact List.reverse_reverse _

/-! ### The grammar of a document -/

/-- Nodes from which a document can be read. -/
structure Grammatical (ns : List Node) : Prop where
  mode : ∃ n, ns.filter (·.name = "mode") = [n] ∧
    (n.firstString? = some "allow-listed" ∨ n.firstString? = some "deny-listed")
  keys : ∀ n ∈ ns, n.name = "profile" ∨ n.name = "userprofile" →
    ∃ key, n.firstString? = some key ∧ Text.isBlank key = false
  actions : ∀ n ∈ ns, n.name = "profile" → ∀ c ∈ n.children, c.name = "actions"
  profiles : ∀ n ∈ ns, n.name = "userprofile" → ∀ c ∈ n.children, c.name = "profiles"
  names_nodup : ((ns.filter (·.name = "profile")).map Node.firstString?).Nodup
  logins_nodup : ((ns.filter (·.name = "userprofile")).map Node.firstString?).Nodup
  actions_nodup : ∀ n ∈ ns, n.name = "profile" → (lastList n).Nodup

/-- A document has the mode of the one `mode` node, and an entry for each node of an entry, in the
order of the nodes. -/
structure Reads (ns : List Node) (d : Document) : Prop where
  mode : ∃ n, ns.filter (·.name = "mode") = [n] ∧ n.firstString? = some d.mode.name
  profiles : List.Forall₂ IsProfile (ns.filter (·.name = "profile")) d.profiles
  userProfiles : List.Forall₂ IsUserProfile (ns.filter (·.name = "userprofile")) d.userProfiles

section Lists

variable {α β : Type} {R : α → β → Prop} {l : List α} {l' : List β}

/-- Elements that are related to something one by one are related to a list. -/
theorem exists_forall₂ (h : ∀ a ∈ l, ∃ b, R a b) : ∃ l', List.Forall₂ R l l' := by
  induction l with
  | nil => exact ⟨[], .nil⟩
  | cons a l ih =>
    obtain ⟨b, hb⟩ := h a List.mem_cons_self
    obtain ⟨l', hl⟩ := ih fun a ha ↦ h a (List.mem_cons_of_mem _ ha)
    exact ⟨b :: l', .cons hb hl⟩

/-- A condition on all elements of one side of a relation is one on all elements of the other. -/
theorem forall_mem_iff_of_forall₂ {p : α → Prop} {q : β → Prop} (h : List.Forall₂ R l l')
    (hpq : ∀ a b, R a b → (p a ↔ q b)) : (∀ a ∈ l, p a) ↔ ∀ b ∈ l', q b := by
  induction h with
  | nil => simp
  | cons hab _ ih => simp only [List.forall_mem_cons, hpq _ _ hab, ih]

/-- Elements picked out on both sides of a relation are related when the picking agrees. -/
theorem forall₂_filter_filterMap {γ : Type} {S : α → γ → Prop} {p : α → Bool} {f : β → Option γ}
    (hpick : ∀ a b, R a b → p a = false ∧ f b = none ∨ p a = true ∧ ∃ c, f b = some c ∧ S a c)
    (h : List.Forall₂ R l l') : List.Forall₂ S (l.filter p) (l'.filterMap f) := by
  rw [← List.filterMap_eq_filter]
  refine List.rel_filterMap (fun a b hab ↦ ?_) h
  rcases hpick a b hab with ⟨hp, hf⟩ | ⟨hp, c, hf, hc⟩
  · simp [Option.guard, hp, hf]
  · simpa [Option.guard, hp, hf] using hc

end Lists

section Documents

variable {ns : List Node} {d : Document}

/-- What nodes say item by item they say kind by kind. -/
theorem forall₂_of_items {items : List Item} (h : List.Forall₂ Says ns items) :
    List.Forall₂ (fun n m ↦ n.firstString? = some m.name) (ns.filter (·.name = "mode"))
        (items.filterMap Item.mode?) ∧
      List.Forall₂ IsProfile (ns.filter (·.name = "profile")) (items.filterMap Item.profile?) ∧
      List.Forall₂ IsUserProfile (ns.filter (·.name = "userprofile"))
        (items.filterMap Item.userProfile?) := by
  refine ⟨forall₂_filter_filterMap ?_ h, forall₂_filter_filterMap ?_ h,
    forall₂_filter_filterMap ?_ h⟩
  all_goals
    rintro n i (⟨hname, hn⟩ | ⟨hname, hn⟩ | ⟨hname, hn⟩ | hname) <;> simp_all [isKnown]

/-- The rules for entries, said of the nodes of the entries. -/
theorem Reads.lawful_iff (h : Reads ns d) : Lawful d.profiles d.userProfiles ↔
    (∀ n ∈ ns, n.name = "profile" ∨ n.name = "userprofile" →
      ∃ key, n.firstString? = some key ∧ Text.isBlank key = false) ∧
    ((ns.filter (·.name = "profile")).map Node.firstString?).Nodup ∧
    ((ns.filter (·.name = "userprofile")).map Node.firstString?).Nodup ∧
    ∀ n ∈ ns, n.name = "profile" → (lastList n).Nodup := by
  have hkey := forall_mem_iff_of_forall₂ h.profiles
    (p := fun n ↦ ∃ key, n.firstString? = some key ∧ Text.isBlank key = false)
    (q := fun p ↦ Text.isBlank p.name = false) fun n p hp ↦ by simp [hp.entry.key]
  have hlogin := forall_mem_iff_of_forall₂ h.userProfiles
    (p := fun n ↦ ∃ key, n.firstString? = some key ∧ Text.isBlank key = false)
    (q := fun u ↦ Text.isBlank u.login = false) fun n u hu ↦ by simp [hu.entry.key]
  have hactions := forall_mem_iff_of_forall₂ h.profiles (p := fun n ↦ (lastList n).Nodup)
    (q := fun p ↦ p.actions.Nodup) fun n p hp ↦ by rw [hp.entry.listed]
  -- the keys of the nodes are the keys of the entries in the same order
  have hnames : (ns.filter (·.name = "profile")).map Node.firstString? =
      (d.profiles.map (·.name)).map some := by
    rw [List.map_map, ← List.forall₂_eq_eq_eq]
    exact List.rel_map (fun _ _ hp ↦ hp.entry.key) h.profiles
  have hlogins : (ns.filter (·.name = "userprofile")).map Node.firstString? =
      (d.userProfiles.map (·.login)).map some := by
    rw [List.map_map, ← List.forall₂_eq_eq_eq]
    exact List.rel_map (fun _ _ hu ↦ hu.entry.key) h.userProfiles
  rw [hnames, hlogins, List.nodup_map_iff fun _ _ ↦ Option.some.inj,
    List.nodup_map_iff fun _ _ ↦ Option.some.inj]
  simp only [List.mem_filter, decide_eq_true_eq, and_imp] at hkey hlogin hactions
  constructor
  · rintro ⟨hname, hnames, hlisted, hlogin', hlogins⟩
    refine ⟨?_, hnames, hlogins, hactions.2 hlisted⟩
    rintro n hn (hp | hu)
    · exact hkey.2 hname n hn hp
    · exact hlogin.2 hlogin' n hn hu
  · rintro ⟨hkeys, hnames, hlogins, hlisted⟩
    exact ⟨hkey.1 fun n hn hp ↦ hkeys n hn (.inl hp), hnames, hactions.1 hlisted,
      hlogin.1 fun n hn hu ↦ hkeys n hn (.inr hu), hlogins⟩

/-- A document that is read off nodes has what they say. -/
theorem Document.reads_of_result_ofNodes (h : (ofNodes ns).result = .ok d) : Reads ns d := by
  obtain ⟨-, items, hall, hmode, hprofiles, huserProfiles⟩ := result_ofNodes_eq_ok_iff.1 h
  obtain ⟨hm, hp, hu⟩ := forall₂_of_items hall
  rw [hmode] at hm
  obtain ⟨n, ns', hword, hnil, hfilter⟩ := List.forall₂_cons_right_iff.1 hm
  obtain rfl := List.forall₂_nil_right_iff.1 hnil
  exact ⟨⟨n, hfilter, hword⟩, hprofiles ▸ hp, huserProfiles ▸ hu⟩

/-- Of grammatical nodes each says something, those of other names included. -/
theorem Grammatical.exists_item (h : Grammatical ns) : ∀ n ∈ ns, ∃ i, Says n i := by
  intro n hn
  by_cases hmode : n.name = "mode"
  · obtain ⟨n', hfilter, hword⟩ := h.mode
    have hmem : n ∈ ns.filter (·.name = "mode") := List.mem_filter.2 ⟨hn, by simpa using hmode⟩
    obtain rfl : n = n' := by simpa [hfilter] using hmem
    rcases hword with hword | hword
    · exact ⟨.mode .allowListed, .mode hmode hword⟩
    · exact ⟨.mode .denyListed, .mode hmode hword⟩
  by_cases hprofile : n.name = "profile"
  · obtain ⟨name, hname, -⟩ := h.keys n hn (.inl hprofile)
    exact ⟨.profile { name := name, actions := lastList n },
      .profile hprofile ⟨⟨hname, h.actions n hn hprofile, rfl⟩, rfl⟩⟩
  by_cases huser : n.name = "userprofile"
  · obtain ⟨login, hlogin, -⟩ := h.keys n hn (.inr huser)
    exact ⟨.userProfile { login := login, profiles := lastList n },
      .userProfile huser ⟨⟨hlogin, h.profiles n hn huser, rfl⟩, rfl⟩⟩
  · exact ⟨.unknown n.name, .unknown (by simp [isKnown, hmode, hprofile, huser])⟩

/-- **A document is read exactly off grammatical nodes.** -/
theorem Document.exists_result_ofNodes_eq_ok_iff :
    (∃ d, (ofNodes ns).result = .ok d) ↔ Grammatical ns := by
  constructor
  · rintro ⟨d, hd⟩
    have hreads := reads_of_result_ofNodes hd
    have hlawful := firstOffence?_eq_none_iff.1 (result_ofNodes_eq_ok_iff.1 hd).1
    obtain ⟨hkeys, hnames, hlogins, hlisted⟩ := hreads.lawful_iff.1 hlawful
    obtain ⟨n, hfilter, hword⟩ := hreads.mode
    have hactions := forall_mem_iff_of_forall₂ hreads.profiles (q := fun _ ↦ True)
      (p := fun n ↦ ∀ c ∈ n.children, c.name = "actions")
      fun n p hp ↦ by simpa using hp.entry.children
    have hprofiles := forall_mem_iff_of_forall₂ hreads.userProfiles (q := fun _ ↦ True)
      (p := fun n ↦ ∀ c ∈ n.children, c.name = "profiles")
      fun n u hu ↦ by simpa using hu.entry.children
    simp only [List.mem_filter, decide_eq_true_eq, and_imp, implies_true, iff_true]
      at hactions hprofiles
    refine ⟨⟨n, hfilter, ?_⟩, hkeys, hactions, hprofiles, hnames, hlogins, hlisted⟩
    cases hmode : d.mode with
    | allowListed => exact .inl (by rw [hword, hmode]; rfl)
    | denyListed => exact .inr (by rw [hword, hmode]; rfl)
  · intro h
    -- the items that the nodes say make up the document
    obtain ⟨items, hall⟩ := exists_forall₂ h.exists_item
    obtain ⟨hm, hp, hu⟩ := forall₂_of_items hall
    obtain ⟨n, hfilter, -⟩ := h.mode
    rw [hfilter] at hm
    obtain ⟨m, ms, hword, hnil, hmode⟩ := List.forall₂_cons_left_iff.1 hm
    obtain rfl := List.forall₂_nil_left_iff.1 hnil
    let d : Document :=
      ⟨m, items.filterMap Item.profile?, items.filterMap Item.userProfile?⟩
    have hreads : Reads ns d := ⟨⟨n, hfilter, hword⟩, hp, hu⟩
    have hlawful := hreads.lawful_iff.2 ⟨h.keys, h.names_nodup, h.logins_nodup, h.actions_nodup⟩
    exact ⟨d, result_ofNodes_eq_ok_iff.2
      ⟨firstOffence?_eq_none_iff.2 hlawful, items, hall, hmode, rfl, rfl⟩⟩

/-- Where no document is read off nodes, the fault is in what they say. -/
theorem Document.exists_fault (h : ¬Grammatical ns) :
    ∃ fault, (ofNodes ns).result = .error (.invalid fault) := by
  unfold ofNodes
  split
  · next c f hadd => exact ⟨f, rfl⟩
  · next c hadd =>
    cases hdocument : c.document with
    | error f => exact ⟨f, rfl⟩
    | ok d =>
      have hread : (ofNodes ns).result = .ok d := by
        simp [ofNodes, hadd, hdocument, Except.mapError]
      exact absurd (exists_result_ofNodes_eq_ok_iff.1 ⟨d, hread⟩) h

end Documents

/-! ### Other nodes -/

/-- What has been collected, nodes passed over aside. -/
def Collected.known (c : Collected) : Collected := { c with unknown := [] }

/-- What an item does to a collection does not depend on nodes passed over. -/
theorem Collected.known_add (c : Collected) (i : Item) :
    (c.add i).map known = (c.known.add i).map known := by
  cases i with
  | mode m => cases hmode : c.mode <;> simp [add, known, hmode, Except.map]
  | profile p => rfl
  | userProfile u => rfl
  | unknown name => rfl

/-- Nodes passed over have no part in the document. -/
theorem Collected.document_known (c : Collected) : c.known.document = c.document := rfl

/-- Collections that agree but for nodes passed over agree after any nodes, of which one side leaves
out those of other names. They stop at the same fault. -/
theorem Collected.addNodes_filter {c c' : Collected} (h : c.known = c'.known) (ns : List Node) :
    (c.addNodes (ns.filter isKnown)).1.known = (c'.addNodes ns).1.known ∧
      (c.addNodes (ns.filter isKnown)).2 = (c'.addNodes ns).2 := by
  induction ns generalizing c c' with
  | nil => exact ⟨h, rfl⟩
  | cons n ns ih =>
    cases hn : isKnown n with
    | false =>
      have hunknown : Item.ofNode n = .ok (.unknown n.name) :=
        Item.ofNode_eq_ok_iff.2 (.unknown hn)
      rw [List.filter_cons_of_neg (by simp [hn]), addNodes, hunknown]
      exact ih h
    | true =>
      rw [List.filter_cons_of_pos hn, addNodes, addNodes]
      cases Item.ofNode n with
      | error f => exact ⟨h, rfl⟩
      | ok i =>
        -- the two collections take the item alike
        have hadd : (c.add i).map known = (c'.add i).map known := by
          rw [known_add, h, ← known_add]
        simp only [Except.bind]
        cases hc : c.add i <;> cases hc' : c'.add i <;> simp only [hc, hc', Except.map] at hadd
        · exact ⟨h, congrArg some (Except.error.inj hadd)⟩
        · exact nomatch hadd
        · exact nomatch hadd
        · exact ih (Except.ok.inj hadd)

/-- **Nodes of other names have no part in what is read**, nor in the fault that is found. -/
theorem Document.result_ofNodes_filter (ns : List Node) :
    (ofNodes (ns.filter isKnown)).result = (ofNodes ns).result := by
  obtain ⟨hknown, hfault⟩ := Collected.addNodes_filter (rfl : ({} : Collected).known = _) ns
  have hdocument : (({} : Collected).addNodes (ns.filter isKnown)).1.document =
      (({} : Collected).addNodes ns).1.document := by
    rw [← Collected.document_known, hknown, Collected.document_known]
  unfold ofNodes
  cases hadd : ({} : Collected).addNodes ns with
  | mk c fault =>
    cases hadd' : ({} : Collected).addNodes (ns.filter isKnown) with
    | mk c' fault' =>
      simp only [hadd, hadd'] at hfault hdocument
      cases fault <;> simp [hfault, hdocument]

/-! ### Texts -/

/-- **Exactly the texts of the grammar are read.** A text is malformed when it is no KDL document.
Otherwise its nodes decide, and where they are not grammatical there is a fault in what they say. A
document that is read has the mode and the entries of the nodes in their order, and nodes of other
names may come and go anywhere. -/
theorem Document.ofText_grammar (s : String) :
    ((∃ detail, (ofText s).result = .error (.malformed detail)) ↔ Node.ofText? s = none) ∧
    ∀ ns, Node.ofText? s = some ns →
      ((∃ d, (ofText s).result = .ok d) ↔ Grammatical ns) ∧
      (¬Grammatical ns → ∃ fault, (ofText s).result = .error (.invalid fault)) ∧
      (∀ d, (ofText s).result = .ok d → Reads ns d) ∧
      ∀ s' ns', Node.ofText? s' = some ns' → ns'.filter isKnown = ns.filter isKnown →
        (ofText s').result = (ofText s).result := by
  have hnodes : ∀ {s ns}, Node.ofText? s = some ns → ofText s = ofNodes ns := by
    intro s ns h
    rw [ofText, h]
  refine ⟨?_, fun ns h ↦ ?_⟩
  · cases h : Node.ofText? s with
    | none => simp [ofText, h]
    | some ns =>
      simp only [hnodes h, reduceCtorEq, iff_false, not_exists]
      intro detail hmalformed
      by_cases hgrammar : Grammatical ns
      · obtain ⟨d, hd⟩ := exists_result_ofNodes_eq_ok_iff.2 hgrammar
        exact nomatch hd.symm.trans hmalformed
      · obtain ⟨f, hf⟩ := exists_fault hgrammar
        exact nomatch hf.symm.trans hmalformed
  · rw [hnodes h]
    refine ⟨exists_result_ofNodes_eq_ok_iff, exists_fault, fun d ↦ reads_of_result_ofNodes, ?_⟩
    intro s' ns' h' hfilter
    rw [hnodes h', ← result_ofNodes_filter ns', hfilter, result_ofNodes_filter]

/-- A text of one profile. -/
def plainText : String :=
  "mode deny-listed\nprofile clerk \x7b\n    actions \x7b - read; \x7d\n\x7d\n"

/-- The same text with notes between its nodes. -/
def annotatedText : String :=
  "note 1\nmode deny-listed\nnote\nprofile clerk \x7b\n    actions \x7b - read; \x7d\n\x7d\n"

/-- The annotated text reads as the plain one does. -/
theorem Document.ofText_grammar_annotated : ∃ ns ns', Node.ofText? plainText = some ns ∧
    Node.ofText? annotatedText = some ns' ∧ Grammatical ns ∧
    (ofText annotatedText).result = (ofText plainText).result := by
  let mode : Node := .mk "mode" [.argument (.text "deny-listed")] none
  let clerk : Node := .mk "profile" [.argument (.text "clerk")]
    (some [.mk "actions" [] (some [.mk "-" [.argument (.text "read")] none])])
  have hplain : Node.ofText? plainText = some [mode, clerk] := by rfl
  have hannotated : Node.ofText? annotatedText =
      some [.mk "note" [.argument (.number "1")] none, mode, .mk "note" [] none, clerk] := by rfl
  have hread : (ofText plainText).result =
      .ok ⟨.denyListed, [⟨"clerk", ["read"], .factory⟩], []⟩ := by
    rw [ofText, hplain]
    decide
  obtain ⟨hgrammar, -, -, hother⟩ := (ofText_grammar plainText).2 _ hplain
  exact ⟨_, _, hplain, hannotated, hgrammar.1 ⟨_, hread⟩, hother _ _ hannotated rfl⟩

end LayeredRights
