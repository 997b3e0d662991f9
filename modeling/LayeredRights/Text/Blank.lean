/-!
# Blank text

A name is *blank* when every character of it is white space in the sense of the Unicode property
`White_Space`. Blank names are refused wherever a name is required.
-/

namespace LayeredRights.Text

/-- The characters with the Unicode property `White_Space`. -/
def isWhiteSpace (c : Char) : Bool :=
  let n := c.toNat
  (0x09 ≤ n && n ≤ 0x0D) || n == 0x20 || n == 0x85 || n == 0xA0 || n == 0x1680 ||
    (0x2000 ≤ n && n ≤ 0x200A) || n == 0x2028 || n == 0x2029 || n == 0x202F || n == 0x205F ||
    n == 0x3000

/-- A text without any character that is not white space, such as the empty one. -/
def isBlank (s : String) : Bool := s.toList.all isWhiteSpace

/-- A text is not blank exactly when some character of it is not white space. -/
theorem isBlank_eq_false_iff {s : String} :
    isBlank s = false ↔ ∃ c ∈ s.toList, isWhiteSpace c = false := by
  simp [isBlank]

end LayeredRights.Text
