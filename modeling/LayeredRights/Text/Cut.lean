/-!
# Cutting

A list is cut at certain elements, which are left out: a path at its slashes, a text at the ends of
its lines. There is always one part more than there are cuts, so no part is lost by being empty.
-/

namespace LayeredRights.Text

variable {α : Type}

/-- The parts of a list between the elements at which it is cut. -/
def cut (isCut : α → Bool) : List α → List (List α)
  | [] => [[]]
  | a :: as =>
    if isCut a then [] :: cut isCut as
    else
      match cut isCut as with
      | p :: ps => (a :: p) :: ps
      | [] => [[a]]

/-- There is always a first part. -/
theorem cut_ne_nil (isCut : α → Bool) : ∀ as : List α, cut isCut as ≠ []
  | [] => by simp [cut]
  | a :: as => by
    unfold cut
    split
    · simp
    · split <;> simp

/-- A list without any element to cut at is one part. -/
theorem cut_eq_singleton {isCut : α → Bool} {as : List α} (h : ∀ a ∈ as, isCut a = false) :
    cut isCut as = [as] := by
  induction as with
  | nil => rfl
  | cons a as ih =>
    have ha : isCut a = false := h a (by simp)
    have has : cut isCut as = [as] := ih fun b hb ↦ h b (by simp [hb])
    simp [cut, ha, has]

end LayeredRights.Text
