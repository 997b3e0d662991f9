import LayeredRights.Json.Token
import Mathlib.Data.List.Basic
import Mathlib.Data.List.TakeWhile

/-!
# The grammar of JSON numbers

`IsNumeral` says which texts are numbers, part by part. Each check of the scanner stands for one
part and what may follow it, and a part that begins with digits takes all digits that there are. So
what follows digits does not begin with one (`NoDigit`), and with that the checks agree with the
grammar (`isNumber_iff`).

The grammar splits a text into parts and does not care how the split is found. The scanner goes from
left to right and never goes back, which is right because of what can follow digits: a point, the
letter of an exponent, or the end. Each of the checks is therefore stated with the rest of the text
that it leaves (`afterDigits?_eq_some_iff`), and the grammar comes in at the end of the text only.
-/

namespace LayeredRights.Json

open Text (isDigit)

variable {cs ds rest : List Char}

/-! ### The grammar -/

/-- At least one digit. -/
def IsDigits (cs : List Char) : Prop := cs ≠ [] ∧ ∀ c ∈ cs, isDigit c = true

/-- The whole part of a number, which has no leading zero. -/
inductive IsWhole : List Char → Prop
  | zero : IsWhole ['0']
  | positive {d : Char} {ds : List Char} (hne : d ≠ '0') (h : IsDigits (d :: ds)) :
      IsWhole (d :: ds)

/-- The fraction of a number, which may be missing. -/
inductive IsFraction : List Char → Prop
  | missing : IsFraction []
  | present {ds : List Char} (h : IsDigits ds) : IsFraction ('.' :: ds)

/-- The exponent of a number, which may be missing. -/
inductive IsExponent : List Char → Prop
  | missing : IsExponent []
  | present {e : Char} {sign ds : List Char} (he : e = 'e' ∨ e = 'E')
      (hsign : sign = [] ∨ sign = ['+'] ∨ sign = ['-']) (h : IsDigits ds) :
      IsExponent (e :: (sign ++ ds))

/-- A number: a sign or none, a whole part, a fraction and an exponent. -/
inductive IsNumeral : List Char → Prop
  | mk {sign whole fraction exponent : List Char} (hsign : sign = [] ∨ sign = ['-'])
      (hwhole : IsWhole whole) (hfraction : IsFraction fraction)
      (hexponent : IsExponent exponent) : IsNumeral (sign ++ (whole ++ (fraction ++ exponent)))

/-! ### Digits -/

/-- The text does not go on with a digit. -/
def NoDigit (cs : List Char) : Prop := ∀ c ∈ cs.head?, isDigit c = false

theorem afterDigits?_append (hds : IsDigits ds) (hrest : NoDigit rest) :
    afterDigits? (ds ++ rest) = some rest := by
  obtain ⟨hne, hall⟩ := hds
  have hstop : rest.takeWhile isDigit = [] ∧ rest.dropWhile isDigit = rest := by
    cases rest with
    | nil => exact ⟨rfl, rfl⟩
    | cons c cs => simp [hrest c rfl]
  rw [afterDigits?, List.takeWhile_append_of_pos hall, List.dropWhile_append_of_pos hall,
    hstop.1, hstop.2, List.append_nil, if_neg (by simpa using hne)]

/-- What is left after digits is what the digits before it leave. -/
theorem afterDigits?_eq_some_iff :
    afterDigits? cs = some rest ↔ ∃ ds, cs = ds ++ rest ∧ IsDigits ds ∧ NoDigit rest := by
  constructor
  · intro h
    unfold afterDigits? at h
    split_ifs at h with hempty
    obtain rfl := Option.some.inj h
    refine ⟨cs.takeWhile isDigit, List.takeWhile_append_dropWhile.symm,
      ⟨by simpa using hempty, fun c hc ↦ List.mem_takeWhile_imp hc⟩, fun c hc ↦ ?_⟩
    have hnot := List.head?_dropWhile_not isDigit cs
    rw [Option.mem_def.1 hc] at hnot
    exact hnot
  · rintro ⟨ds, rfl, hds, hrest⟩
    exact afterDigits?_append hds hrest

/-- Nothing is left when there are digits and nothing else. -/
theorem afterDigits?_eq_nil_iff : afterDigits? cs = some [] ↔ IsDigits cs := by
  rw [afterDigits?_eq_some_iff]
  constructor
  · rintro ⟨ds, rfl, hds, -⟩
    rwa [List.append_nil]
  · exact fun h ↦ ⟨cs, (List.append_nil cs).symm, h, fun c hc ↦ nomatch hc⟩

/-- Whether what is left after digits passes a check. -/
theorem any_afterDigits?_iff {p : List Char → Bool} :
    (afterDigits? cs).any p = true ↔
      ∃ ds rest, cs = ds ++ rest ∧ IsDigits ds ∧ NoDigit rest ∧ p rest = true := by
  simp only [Option.any_eq_true, afterDigits?_eq_some_iff]
  constructor
  · rintro ⟨rest, ⟨ds, rfl, hds, hrest⟩, hp⟩
    exact ⟨ds, rest, rfl, hds, hrest, hp⟩
  · rintro ⟨ds, rest, rfl, hds, hrest, hp⟩
    exact ⟨rest, ⟨ds, rfl, hds, hrest⟩, hp⟩

/-! ### Reading numbers -/

/-- Whether an exponent stands here, or nothing. -/
def isExponent : List Char → Bool
  | [] => true
  | e :: cs =>
    (e = 'e' || e = 'E') &&
      match cs with
      | '+' :: cs | '-' :: cs => afterDigits? cs = some []
      | cs => afterDigits? cs = some []

/-- What follows the whole part, with the check of an exponent named. -/
theorem isNumberTail_eq : isNumberTail cs =
    match cs with
    | '.' :: cs => (afterDigits? cs).any isExponent
    | cs => isExponent cs := rfl

/-- Whether a number without a sign stands here. -/
def isUnsigned : List Char → Bool
  | '0' :: cs => isNumberTail cs
  | cs => (afterDigits? cs).any isNumberTail

/-- A number, with the check of what follows the sign named. -/
theorem isNumber_eq : isNumber cs =
    match cs with
    | '-' :: cs => isUnsigned cs
    | cs => isUnsigned cs := rfl

/-- Nothing that begins otherwise is made of digits. -/
theorem not_isDigits_of_head {c : Char} (hc : isDigit c = false) : ¬ IsDigits (c :: cs) :=
  fun h ↦ nomatch hc.symm.trans (h.2 c List.mem_cons_self)

/-- The check of an exponent agrees with the grammar. -/
theorem isExponent_iff : isExponent cs = true ↔ IsExponent cs := by
  constructor
  · intro h
    unfold isExponent at h
    split at h
    · exact .missing
    · simp only [Bool.and_eq_true, Bool.or_eq_true, decide_eq_true_eq] at h
      obtain ⟨he, hrest⟩ := h
      split at hrest
      · exact .present he (.inr (.inl rfl)) (afterDigits?_eq_nil_iff.1 (of_decide_eq_true hrest))
      · exact .present he (.inr (.inr rfl)) (afterDigits?_eq_nil_iff.1 (of_decide_eq_true hrest))
      · exact .present he (.inl rfl) (afterDigits?_eq_nil_iff.1 (of_decide_eq_true hrest))
  · rintro (_ | ⟨he, hsign, h⟩)
    · rfl
    · have hds := afterDigits?_eq_nil_iff.2 h
      rcases hsign with rfl | rfl | rfl
      · simp only [isExponent, List.nil_append]
        split
        -- a sign that is not there is no digit either
        · exact absurd h (not_isDigits_of_head rfl)
        · exact absurd h (not_isDigits_of_head rfl)
        · simpa [hds] using he
      · simpa [isExponent, hds] using he
      · simpa [isExponent, hds] using he

/-- An exponent does not begin with a digit, so digits before it end where it begins. -/
theorem IsExponent.noDigit (h : IsExponent cs) : NoDigit cs := by
  rintro c hc
  obtain _ | ⟨rfl | rfl, -, -⟩ := h
  · exact nomatch hc
  all_goals
    obtain rfl := Option.some.inj hc
    rfl

/-- The check of a fraction with an exponent agrees with the grammar. -/
theorem isNumberTail_iff : isNumberTail cs = true ↔
    ∃ fraction exponent, cs = fraction ++ exponent ∧ IsFraction fraction ∧ IsExponent exponent := by
  rw [isNumberTail_eq]
  constructor
  · intro h
    split at h
    · obtain ⟨ds, rest, rfl, hds, -, hexponent⟩ := any_afterDigits?_iff.1 h
      exact ⟨_, rest, rfl, .present hds, isExponent_iff.1 hexponent⟩
    · exact ⟨[], _, rfl, .missing, isExponent_iff.1 h⟩
  · rintro ⟨_, exponent, rfl, _ | hds, hexponent⟩
    · split
      · next heq =>
        rw [List.nil_append] at heq
        obtain rfl | ⟨rfl | rfl, -, -⟩ := hexponent <;> simp at heq
      · exact isExponent_iff.2 hexponent
    · exact any_afterDigits?_iff.2
        ⟨_, exponent, rfl, hds, hexponent.noDigit, isExponent_iff.2 hexponent⟩

theorem noDigit_of_isNumberTail (h : isNumberTail cs = true) : NoDigit cs := by
  obtain ⟨_, exponent, rfl, _ | hds, hexponent⟩ := isNumberTail_iff.1 h
  · exact hexponent.noDigit
  · rintro c hc
    obtain rfl := Option.some.inj hc
    rfl

/-- A number without a sign is a whole part and what may follow one. A zero in front is all of the
whole part. -/
theorem isUnsigned_iff : isUnsigned cs = true ↔
    ∃ whole rest, cs = whole ++ rest ∧ IsWhole whole ∧ isNumberTail rest = true := by
  constructor
  · intro h
    unfold isUnsigned at h
    split at h
    · exact ⟨['0'], _, rfl, .zero, h⟩
    · next hne =>
      obtain ⟨_ | ⟨d, ds⟩, rest, rfl, hds, -, htail⟩ := any_afterDigits?_iff.1 h
      · exact absurd rfl hds.1
      · exact ⟨d :: ds, rest, rfl, .positive (fun hd ↦ hne _ (by rw [hd]; rfl)) hds, htail⟩
  · rintro ⟨_, rest, rfl, _ | ⟨hne, hds⟩, htail⟩
    · exact htail
    · unfold isUnsigned
      split
      · next heq => exact absurd (List.cons.inj heq).1 hne
      · exact any_afterDigits?_iff.2 ⟨_, rest, rfl, hds, noDigit_of_isNumberTail htail, htail⟩

/-- **Numbers are recognized.** -/
theorem isNumber_iff : isNumber cs = true ↔ IsNumeral cs := by
  rw [isNumber_eq]
  constructor
  · intro h
    split at h
    all_goals
      obtain ⟨whole, _, rfl, hwhole, htail⟩ := isUnsigned_iff.1 h
      obtain ⟨fraction, exponent, rfl, hfraction, hexponent⟩ := isNumberTail_iff.1 htail
    · exact .mk (.inr rfl) hwhole hfraction hexponent
    · exact .mk (.inl rfl) hwhole hfraction hexponent
  · rintro ⟨hsign, hwhole, hfraction, hexponent⟩
    have hunsigned := isUnsigned_iff.2 ⟨_, _, rfl, hwhole,
      isNumberTail_iff.2 ⟨_, _, rfl, hfraction, hexponent⟩⟩
    rcases hsign with rfl | rfl
    · split
      -- no whole part begins with a minus sign
      · next heq =>
        obtain _ | ⟨-, hds⟩ := hwhole
        · exact nomatch (List.cons.inj heq).1
        · obtain rfl := (List.cons.inj heq).1
          exact absurd hds (not_isDigits_of_head rfl)
      · exact hunsigned
    · exact hunsigned

end LayeredRights.Json
