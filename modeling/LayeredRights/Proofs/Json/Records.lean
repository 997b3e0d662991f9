import LayeredRights.Json.Record
import Mathlib.Data.List.Basic
import Mathlib.Data.List.Forall2

/-!
# Records in JSON

A record is an object or an array, and both have fields. `IsRecord` says which values are records,
and `IsField` what a record has for a field, without the slots into which a reader puts the fields.
The reader agrees with them (`Json.fields?_eq_some_iff`).

What a record has for a field does not say whether it should. A name that occurs twice is nothing
that a field could be, which is why the value of a field is given by the list of all members of that
name. An array has its fields by their places, and those that it does not reach are missing.
-/

namespace LayeredRights.Json

variable {j : Json} {names : List String} {slots : List Slot} {α β : Type}

/-! ### Records and their fields -/

/-- A record of at most `n` fields: an object whose members all have names, or an array with no more
elements than fields. -/
inductive IsRecord (n : Nat) : Json → Prop
  | object {ms : List (Option String × Json)} (h : ∀ m ∈ ms, m.1 ≠ none) : IsRecord n (.object ms)
  | array {vs : List Json} (h : vs.length ≤ n) : IsRecord n (.array vs)

/-- What a record has for a field, if anything: the value of the only member of that name in an
object, and the element at the place of the field in an array. -/
inductive IsField : Json → String → Nat → Option Json → Prop
  | object {ms : List (Option String × Json)} {name : String} {i : Nat} {v : Option Json}
      (h : (ms.filter (·.1 = some name)).map (·.2) = v.toList) : IsField (.object ms) name i v
  | array (vs : List Json) (name : String) (i : Nat) : IsField (.array vs) name i vs[i]?

/-- An object is a record if no member of it is without a name. -/
theorem isRecord_object_iff {n : Nat} {ms : List (Option String × Json)} :
    IsRecord n (.object ms) ↔ ∀ m ∈ ms, m.1 ≠ none :=
  ⟨fun | .object h => h, .object⟩

/-- An array is a record of as many fields as it has elements, and of more. -/
theorem isRecord_array_iff {n : Nat} {vs : List Json} :
    IsRecord n (.array vs) ↔ vs.length ≤ n :=
  ⟨fun | .array h => h, .array⟩

/-- An object has for a field what all members of the name have together, if that is one at most. -/
theorem isField_object_iff {ms : List (Option String × Json)} {name : String} {i : Nat}
    {v : Option Json} : IsField (.object ms) name i v ↔
      (ms.filter (·.1 = some name)).map (·.2) = v.toList :=
  ⟨fun | .object h => h, .object⟩

/-- An array has for a field the element at its place. -/
theorem isField_array_iff {vs : List Json} {name : String} {i : Nat} {v : Option Json} :
    IsField (.array vs) name i v ↔ v = vs[i]? :=
  ⟨fun | .array .. => rfl, fun h ↦ h ▸ .array vs name i⟩

/-! ### Slots -/

/-- What is in a slot. -/
def Slot.value? : Slot → Option Json
  | missing => none
  | present v => some v

theorem Slot.value?_injective {s s' : Slot} (h : s.value? = s'.value?) : s = s' := by
  cases s <;> cases s' <;> simp_all [value?]

/-- A field that is required is read from what is in its slot. -/
theorem Slot.required?_eq_some_iff {read : Json → Option α} {s : Slot} {a : α} :
    s.required? read = some a ↔ ∃ v, s.value? = some v ∧ read v = some a := by
  cases s <;> simp [required?, value?]

/-- One that is not is read as well, if there is something in the slot. -/
theorem Slot.optional?_eq_some_iff {fallback : α} {read : Json → Option α} {s : Slot} {a : α} :
    s.optional? fallback read = some a ↔
      s.value? = none ∧ a = fallback ∨ ∃ v, s.value? = some v ∧ read v = some a := by
  cases s <;> simp [optional?, value?, eq_comm]

/-! ### Reading records -/

/-- A string is read from a string that stands for something. -/
theorem text?_eq_some_iff {s : String} : j.text? = some s ↔ j = .text (some s) := by
  cases j <;> simp [text?]

/-- A list is read if its elements are, one by one. -/
theorem mapM_eq_some_iff {f : α → Option β} {as : List α} {bs : List β} :
    as.mapM f = some bs ↔ List.Forall₂ (fun a b ↦ f a = some b) as bs := by
  induction as generalizing bs with
  | nil => cases bs <;> simp
  | cons a as ih =>
    rw [List.mapM_cons]
    cases ha : f a with
    | none => cases bs <;> simp [ha]
    | some b =>
      cases hrest : as.mapM f with
      | none => cases bs <;> simp [← ih, ha, hrest]
      | some rest => cases bs <;> simp [← ih, ha, hrest]

/-- A list of values is read from an array of them. -/
theorem listOf?_eq_some_iff {read : Json → Option α} {as : List α} : listOf? read j = some as ↔
    ∃ vs, j = .array vs ∧ List.Forall₂ (fun v a ↦ read v = some a) vs as := by
  cases j <;> simp [listOf?, mapM_eq_some_iff]

/-- Strings are read from an array of exactly these strings. -/
theorem listOf?_text?_eq_some_iff {xs : List String} :
    listOf? text? j = some xs ↔ j = .array (xs.map fun x ↦ .text (some x)) := by
  have hall : ∀ vs : List Json, List.Forall₂ (fun v x ↦ v.text? = some x) vs xs ↔
      vs = xs.map fun x ↦ .text (some x) := by
    intro vs
    simp only [text?_eq_some_iff]
    rw [← List.forall₂_map_right_iff (f := fun x ↦ text (some x)), List.forall₂_eq_eq_eq]
  rw [listOf?_eq_some_iff]
  simp only [hall, exists_eq_right]

/-- The slot of a name has what the members of that name have, and two are too many. -/
theorem member?_eq_some_iff {name : String} {ms : List (Option String × Json)} {s : Slot} :
    member? name ms = some s ↔
      (ms.filter (·.1 = some name)).map (·.2) = s.value?.toList := by
  unfold member?
  split
  · next h => cases s <;> simp only [h] <;> simp [Slot.value?]
  · next h => cases s <;> simp only [h] <;> simp [Slot.value?]
  · next hnone hone =>
    refine iff_of_false nofun fun h ↦ ?_
    cases s with
    | missing => exact hnone (List.map_eq_nil_iff.1 h)
    | present v =>
      obtain ⟨m, hm, -⟩ := List.map_eq_singleton_iff.1 h
      exact hone m hm

/-- The slots of an array: its elements, and nothing after them. -/
theorem forall₂_slots {vs : List Json} (h : vs.length ≤ names.length) :
    List.Forall₂ (fun n (s : Slot) ↦ IsField (.array vs) n.1 n.2 s.value?) names.zipIdx
      (vs.map Slot.present ++ List.replicate (names.length - vs.length) Slot.missing) := by
  refine List.forall₂_iff_get.2 ⟨by simp; omega, fun i _ hi ↦ ?_⟩
  refine isField_array_iff.2 ?_
  rw [List.get_eq_getElem, List.get_eq_getElem, List.getElem_zipIdx, Nat.zero_add]
  rcases Nat.lt_or_ge i vs.length with hlt | hge
  · rw [List.getElem_append_left (by simpa using hlt), List.getElem_map, Slot.value?,
      List.getElem?_eq_getElem hlt]
  · rw [List.getElem_append_right (by simpa using hge), List.getElem_replicate, Slot.value?,
      List.getElem?_eq_none hge]

/-- **The reader of records finds the fields of a record.** -/
theorem fields?_eq_some_iff : j.fields? names = some slots ↔ IsRecord names.length j ∧
    List.Forall₂ (fun n s ↦ IsField j n.1 n.2 s.value?) names.zipIdx slots := by
  cases j with
  | object ms =>
    have hslots : names.mapM (fun n ↦ member? n ms) = some slots ↔
        List.Forall₂ (fun n s ↦ IsField (.object ms) n.1 n.2 s.value?) names.zipIdx slots := by
      have hnames : names = names.zipIdx.map (·.1) := by simp
      simp only [isField_object_iff]
      rw [mapM_eq_some_iff]
      conv_lhs => rw [hnames, List.forall₂_map_left_iff]
      simp only [member?_eq_some_iff]
    rw [fields?, ← hslots, isRecord_object_iff]
    simp [Option.isSome_iff_ne_none]
  | array vs =>
    -- the slots of an array are determined by its elements
    have hright : Relator.RightUnique fun (n : String × Nat) (s : Slot) ↦
        IsField (.array vs) n.1 n.2 s.value? := fun _ _ _ h h' ↦
      Slot.value?_injective ((isField_array_iff.1 h).trans (isField_array_iff.1 h').symm)
    rw [fields?, isRecord_array_iff, Option.ite_none_right_eq_some, Option.some.injEq]
    refine and_congr_right fun h ↦ ⟨fun heq ↦ heq ▸ forall₂_slots h, fun hslots ↦ ?_⟩
    exact hright.forall₂ (forall₂_slots h) hslots
  | null => exact iff_of_false nofun fun h ↦ nomatch h.1
  | bool => exact iff_of_false nofun fun h ↦ nomatch h.1
  | number => exact iff_of_false nofun fun h ↦ nomatch h.1
  | text => exact iff_of_false nofun fun h ↦ nomatch h.1

end LayeredRights.Json
