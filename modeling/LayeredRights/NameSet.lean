/-!
# Sets of names

A `NameSet` is a finite set of strings kept as its strictly ascending list, in code point order. Two
sets with the same members are therefore equal (`NameSet.ext`), and listing a set shows its order
without sorting.

The list is all there is, so a set can be printed and compared, and the union of two sets is had by
adding the members of one to the other. How long that takes is of no concern. What matters is that
nothing about a set depends on the order in which its members came.
-/

namespace LayeredRights

/-- A finite set of names, listed in strictly ascending order of code points. -/
structure NameSet where
  names : List String
  ascending : names.Pairwise (· < ·)
  deriving DecidableEq

namespace NameSet

/-! ### Ascending lists -/

/-- Puts `x` at its place in an ascending list, unless it is there already. -/
def place (x : String) : List String → List String
  | [] => [x]
  | y :: ys => if x < y then x :: y :: ys else if x = y then y :: ys else y :: place x ys

/-- Putting a name in its place adds it and nothing else. -/
theorem mem_place {x z : String} : ∀ {l : List String}, z ∈ place x l ↔ z = x ∨ z ∈ l
  | [] => by simp [place]
  | y :: ys => by
    unfold place
    split
    · simp
    · split
      · next h => subst h; simp
      · simp only [List.mem_cons, mem_place]
        grind

theorem pairwise_place {x : String} :
    ∀ {l : List String}, l.Pairwise (· < ·) → (place x l).Pairwise (· < ·)
  | [], _ => by simp [place]
  | y :: ys, h => by
    have hy : ∀ z ∈ ys, y < z := (List.pairwise_cons.1 h).1
    unfold place
    split
    · next hxy =>
      refine List.pairwise_cons.2 ⟨fun z hz ↦ ?_, h⟩
      rcases List.mem_cons.1 hz with rfl | hz
      · exact hxy
      · exact String.lt_trans hxy (hy z hz)
    · next hxy =>
      split
      · exact h
      · next hne =>
        refine List.pairwise_cons.2 ⟨fun z hz ↦ ?_, pairwise_place (List.pairwise_cons.1 h).2⟩
        rcases mem_place.1 hz with rfl | hz
        · have hle : y ≤ z := String.not_lt.1 hxy
          exact Decidable.byContradiction fun hlt ↦
            hne (String.le_antisymm (String.not_lt.1 hlt) hle)
        · exact hy z hz

/-! ### Operations -/

/-- The set without members. -/
def empty : NameSet := ⟨[], .nil⟩

instance : EmptyCollection NameSet := ⟨empty⟩
instance : Inhabited NameSet := ⟨empty⟩

instance : Membership String NameSet := ⟨fun s x ↦ x ∈ s.names⟩

instance (x : String) (s : NameSet) : Decidable (x ∈ s) :=
  inferInstanceAs (Decidable (x ∈ s.names))

/-- The set with `x` added. -/
def insert (x : String) (s : NameSet) : NameSet := ⟨place x s.names, pairwise_place s.ascending⟩

/-- The set with every element of a list added. -/
def insertAll (xs : List String) (s : NameSet) : NameSet := xs.foldl (fun t x ↦ t.insert x) s

/-- The members of a list, in any order and with any repetitions. -/
def ofList (xs : List String) : NameSet := (∅ : NameSet).insertAll xs

/-- The members of either set. -/
def union (s t : NameSet) : NameSet := s.insertAll t.names

instance : Union NameSet := ⟨union⟩

/-- The number of members. -/
def size (s : NameSet) : Nat := s.names.length

/-! ### Membership -/

theorem mem_def {x : String} {s : NameSet} : x ∈ s ↔ x ∈ s.names := Iff.rfl

@[simp] theorem not_mem_empty (x : String) : x ∉ (∅ : NameSet) := List.not_mem_nil

@[simp] theorem mem_insert {x y : String} {s : NameSet} : x ∈ s.insert y ↔ x = y ∨ x ∈ s :=
  mem_place

@[simp] theorem mem_insertAll {x : String} {xs : List String} {s : NameSet} :
    x ∈ s.insertAll xs ↔ x ∈ xs ∨ x ∈ s := by
  induction xs generalizing s with
  | nil => simp [insertAll]
  | cons y ys ih =>
    rw [insertAll, List.foldl_cons, ← insertAll, ih]
    simp only [mem_insert, List.mem_cons]
    grind

@[simp] theorem mem_ofList {x : String} {xs : List String} : x ∈ ofList xs ↔ x ∈ xs := by
  simp [ofList]

@[simp] theorem mem_union {x : String} {s t : NameSet} : x ∈ s ∪ t ↔ x ∈ s ∨ x ∈ t := by
  show x ∈ s.insertAll t.names ↔ _
  rw [mem_insertAll, ← mem_def, or_comm]

/-- Sets with the same members are equal. -/
theorem ext {s t : NameSet} (h : ∀ x, x ∈ s ↔ x ∈ t) : s = t := by
  obtain ⟨l, hl⟩ := s
  obtain ⟨m, hm⟩ := t
  congr
  induction l generalizing m with
  | nil =>
    cases m with
    | nil => rfl
    | cons b m => exact absurd ((h b).2 List.mem_cons_self) List.not_mem_nil
  | cons a l ih =>
    cases m with
    | nil => exact absurd ((h a).1 List.mem_cons_self) List.not_mem_nil
    | cons b m =>
      have hl' := List.pairwise_cons.1 hl
      have hm' := List.pairwise_cons.1 hm
      have hab : a = b := by
        rcases List.mem_cons.1 ((h a).1 List.mem_cons_self) with hab | ham
        · exact hab
        · rcases List.mem_cons.1 ((h b).2 List.mem_cons_self) with hba | hbl
          · exact hba.symm
          · exact absurd (String.lt_trans (hm'.1 a ham) (hl'.1 b hbl)) (String.lt_irrefl b)
      -- the least members agree, so what is left has the same members again
      subst hab
      congr 1
      refine ih hl'.2 m hm'.2 fun x ↦ ⟨fun hx ↦ ?_, fun hx ↦ ?_⟩
      · rcases List.mem_cons.1 ((h x).1 (List.mem_cons_of_mem _ hx)) with rfl | hx'
        · exact absurd (hl'.1 x hx) (String.lt_irrefl x)
        · exact hx'
      · rcases List.mem_cons.1 ((h x).2 (List.mem_cons_of_mem _ hx)) with rfl | hx'
        · exact absurd (hm'.1 x hx) (String.lt_irrefl x)
        · exact hx'

end NameSet

end LayeredRights
