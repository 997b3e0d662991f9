import LayeredRights.Proofs.Document.Grammar

/-!
# What is read of an entry's blocks

The node of an entry may have several blocks of lists, and only the last of them is read. The blocks
before it are not faulty, so a document with such an entry is read, and what they list goes missing
from it. `Kept` says how much of the lists under a node is left, and `Document.kept_of_ofText` says
so of every entry of every text that is read: the order is kept and nothing is made up, and nothing
goes missing exactly when the last block repeats what the blocks before it list.

Everything listed is taken in the order of the text (`listings`), and what is read is the end of it
(`listings_eq_append`). Both questions that one may ask are answered by that. The lists are the same
exactly when nothing stands in the blocks before the last. For a set of actions the order does not
count, and then it is enough that the last block has all that they have.
-/

namespace LayeredRights

open Kdl (Node)

/-- Everything listed in the blocks under a node, in the order of the text. -/
def listings (n : Node) : List String := n.children.flatMap dashList

/-- What is left of the lists under a node. -/
structure Kept (n : Node) (items : List String) : Prop where
  suffix : items <:+ listings n
  eq_iff : items = listings n ↔ ∀ c ∈ n.children.dropLast, dashList c = []
  forall_mem_iff : (∀ x ∈ listings n, x ∈ items) ↔
    ∀ c ∈ n.children.dropLast, ∀ x ∈ dashList c, x ∈ items

/-- The list that is read stands after those that are not. -/
theorem listings_eq_append (n : Node) :
    listings n = n.children.dropLast.flatMap dashList ++ lastList n := by
  rcases List.eq_nil_or_concat n.children with hnil | ⟨blocks, last, hconcat⟩
  · simp [listings, lastList, hnil]
  · simp [listings, lastList, hconcat]

/-- What is read of a node is what the grammar says of it, and that is kept in this sense. -/
theorem kept_lastList (n : Node) : Kept n (lastList n) where
  suffix := ⟨_, (listings_eq_append n).symm⟩
  eq_iff := by
    rw [listings_eq_append, List.self_eq_append_left, List.flatMap_eq_nil_iff]
  forall_mem_iff := by
    simp only [listings_eq_append, List.mem_append, List.mem_flatMap]
    constructor
    · intro h c hc x hx
      exact h x (.inl ⟨c, hc, hx⟩)
    · rintro h x (⟨c, hc, hx⟩ | hx)
      · exact h c hc x hx
      · exact hx

/-- **Of every entry the last list is read**, and what the lists before it have goes missing unless
the last one repeats it. -/
theorem Document.kept_of_ofText {s : String} {ns : List Node} {d : Document}
    (htext : Node.ofText? s = some ns) (hread : (ofText s).result = .ok d) :
    List.Forall₂ (fun n p ↦ Kept n p.actions) (ns.filter (·.name = "profile")) d.profiles ∧
      List.Forall₂ (fun n u ↦ Kept n u.profiles) (ns.filter (·.name = "userprofile"))
        d.userProfiles := by
  rw [ofText, htext] at hread
  have hreads := reads_of_result_ofNodes hread
  constructor
  · refine hreads.profiles.imp fun n p hp ↦ ?_
    rw [hp.entry.listed]
    exact kept_lastList n
  · refine hreads.userProfiles.imp fun n u hu ↦ ?_
    rw [hu.entry.listed]
    exact kept_lastList n

/-- A text of a profile with two blocks of actions. -/
def repeatedText : String :=
  "mode deny-listed\nprofile clerk \x7b\n    actions \x7b - read; \x7d\n" ++
    "    actions \x7b - write; \x7d\n\x7d\n"

/-- The first of two blocks goes missing. -/
theorem Document.kept_of_ofText_repeated : ∃ n p,
    (ofText repeatedText).result = .ok ⟨.denyListed, [p], []⟩ ∧ Kept n p.actions ∧
      listings n = ["read", "write"] ∧ p.actions = ["write"] := by
  let block (action : String) : Node :=
    .mk "actions" [] (some [.mk "-" [.argument (.text action)] none])
  let clerk : Node :=
    .mk "profile" [.argument (.text "clerk")] (some [block "read", block "write"])
  have htext : Node.ofText? repeatedText =
      some [.mk "mode" [.argument (.text "deny-listed")] none, clerk] := by rfl
  have hread : (ofText repeatedText).result =
      .ok ⟨.denyListed, [⟨"clerk", ["write"], .factory⟩], []⟩ := by
    rw [ofText, htext]
    decide
  obtain ⟨hprofiles, -⟩ := kept_of_ofText htext hread
  obtain ⟨hkept, -⟩ := List.forall₂_cons.1 hprofiles
  exact ⟨clerk, _, hread, hkept, rfl, rfl⟩

end LayeredRights
