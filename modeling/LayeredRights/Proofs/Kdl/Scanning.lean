import LayeredRights.Kdl.Node.Printer
import LayeredRights.Kdl.Token

/-!
# Scanning written strings

The writer chooses between bare words and quotes, and the scanner has rules of its own for both.
They disagree on a few strings: inside quotes the writer leaves characters that may not stand there,
and it leaves a sign, a point and a digit bare. `isReadable` is the strings on which they agree. One
that is followed by a space or a newline is scanned to itself, and any other is refused
(`Scanner.scan_writeString`); no string is ever scanned to a different one.

The scanner is a fold over the characters, with all newlines brought to one. `Scanner.scan` does
both at once, one character at a time, so that what it makes of a concatenation is had from the
parts.

Two things get in the way of reading a word off the scanner. A word is closed by the character after
it and not by its own last one, and two quotes in a row may still turn out to begin a block of
lines. Both are settled by what comes next, so the lemmas speak of a string together with the
character that ends it (`Ends`). In written nodes that is a space or a newline and nothing else.

What ordinary text is, is said by `isTroublesome` without mentioning the scanner. That ordinary text
reads back is then a lemma (`isReadable_of_not_isTroublesome`) and nothing that the definition
decides.
-/

namespace LayeredRights.Kdl

/-! ### Characters as they are scanned -/

/-- A character in the form in which it is scanned. -/
def unified (c : Char) : Char := if isNewline c then '\n' else c

/-- Without carriage returns, newlines are unified one by one. -/
theorem unifyNewlines_eq_map {cs : List Char} (h : '\r' ∉ cs) :
    unifyNewlines cs = cs.map unified := by
  fun_induction unifyNewlines cs with
  | case1 cs ih => exact absurd List.mem_cons_self h
  | case2 c cs hne ih =>
    rw [ih fun hmem ↦ h (List.mem_cons_of_mem _ hmem)]
    rfl
  | case3 => rfl

theorem unified_of_isWordChar {c : Char} (h : isWordChar c = true) : unified c = c := by
  have hnewline : isNewline c = false := by
    simp only [isWordChar, Bool.not_eq_true', Bool.or_eq_false_iff] at h
    exact h.1.1.2
  simp [unified, hnewline]

namespace Scanner

/-- What a scanner makes of characters, newlines unified. -/
def scan (s : Scanner) (cs : List Char) : Option Scanner := (cs.map unified).foldlM feed s

@[simp] theorem scan_nil (s : Scanner) : s.scan [] = some s := rfl

theorem scan_cons (s : Scanner) (c : Char) (cs : List Char) :
    s.scan (c :: cs) = (s.feed (unified c)).bind fun s' ↦ s'.scan cs := by
  simp [scan, List.foldlM_cons]

theorem scan_append (s : Scanner) (cs cs' : List Char) :
    s.scan (cs ++ cs') = (s.scan cs).bind fun s' ↦ s'.scan cs' := by
  simp [scan, List.foldlM_append]

/-- The characters that end a string, with the tokens they are. -/
inductive Ends : Char → Token → Prop
  | space : Ends ' ' .space
  | newline : Ends '\n' .newline

section Ends

variable {c : Char} {t : Token}

/-- Between tokens such a character is a token of its own, no matter whether one was just closed. -/
theorem Ends.feedBetween (h : Ends c t) (s : Scanner) (closed : Bool) :
    s.feedBetween closed (unified c) = some ⟨.between false, t :: s.tokens⟩ := by
  cases h <;> rfl

theorem Ends.isWordChar_eq_false (h : Ends c t) : isWordChar (unified c) = false := by
  cases h <;> rfl

theorem Ends.ne_quote (h : Ends c t) : unified c ≠ '"' := by
  cases h <;> decide

end Ends

/-! ### Bare words -/

/-- Between tokens a character of bare words begins one, as none of the marks is such a character.
-/
theorem feedBetween_of_isWordChar {c : Char} (h : isWordChar c = true) (ts : List Token) :
    feedBetween ⟨.between false, ts⟩ false c = some ⟨.word [c], ts⟩ := by
  have hc : ((isSpace c = false ∧ isNewline c = false) ∧ isForbidden c = false) ∧
      isReserved c = false := by
    simpa only [isWordChar, Bool.not_eq_true', Bool.or_eq_false_iff] using h
  obtain ⟨⟨⟨hspace, hnewline⟩, -⟩, hreserved⟩ := hc
  simp only [isReserved, List.mem_cons, List.not_mem_nil, or_false, decide_eq_false_iff_not,
    not_or] at hreserved
  simp [feedBetween, hspace, hnewline, hreserved, h, enter]

theorem feed_word_of_isWordChar {c : Char} (h : isWordChar c = true) (acc : List Char)
    (ts : List Token) : feed ⟨.word acc, ts⟩ c = some ⟨.word (c :: acc), ts⟩ :=
  if_pos h

/-- A bare word is scanned to its characters, newest first. What kind of token it is remains open
until it ends. -/
theorem scan_word {cs : List Char} (h : ∀ c ∈ cs, isWordChar c = true) (acc : List Char)
    (ts : List Token) (rest : List Char) :
    scan ⟨.word acc, ts⟩ (cs ++ rest) = scan ⟨.word (cs.reverse ++ acc), ts⟩ rest := by
  induction cs generalizing acc with
  | nil => rfl
  | cons c cs ih =>
    have hc : isWordChar c = true := h c List.mem_cons_self
    rw [List.cons_append, scan_cons, unified_of_isWordChar hc, feed_word_of_isWordChar hc,
      Option.bind_some, ih fun c' hc' ↦ h c' (List.mem_cons_of_mem _ hc')]
    simp

/-- A word is a token once a character ends it. -/
theorem scan_word_end {c : Char} {t : Token} (he : Ends c t) (acc : List Char) (ts : List Token)
    (rest : List Char) :
    scan ⟨.word acc, ts⟩ (c :: rest) =
      (Word.ofChars? acc.reverse).bind fun w ↦
        match w with
        | .number => scan ⟨.between false, t :: .number (String.ofList acc.reverse) :: ts⟩ rest
        | .string => scan ⟨.between false, t :: .text (String.ofList acc.reverse) :: ts⟩ rest := by
  have hfeed : feed ⟨.word acc, ts⟩ (unified c) =
      (closeWord ⟨.word acc, ts⟩ acc).bind fun s ↦ s.feedBetween true (unified c) :=
    if_neg (by simp [he.isWordChar_eq_false])
  rw [scan_cons, hfeed, closeWord]
  cases Word.ofChars? acc.reverse with
  | none => rfl
  | some w => cases w <;> simp [close, he.feedBetween]

end Scanner

/-- What the writer leaves bare consists of characters of bare words, so at least no such string is
taken apart. -/
theorem isWordChar_of_isPlain {cs : List Char} (h : isPlain cs = true) :
    ∀ c ∈ cs, isWordChar c = true := by
  simp only [isPlain, Bool.and_eq_true] at h
  exact List.all_eq_true.1 h.1.1.1.2

/-- What a bare word of the writer reads back as. -/
theorem Word.ofChars?_of_isPlain {cs : List Char} (h : isPlain cs = true) :
    Word.ofChars? cs = if opensWithFraction (afterSign cs) then none else some .string := by
  simp only [isPlain, Bool.and_eq_true, Bool.not_eq_true', decide_eq_true_eq] at h
  obtain ⟨⟨⟨⟨-, -⟩, hdigit⟩, hsigned⟩, hname⟩ := h
  have hbare : cs ∉ bareRefused := fun hmem ↦ hname (List.mem_cons_of_mem _ hmem)
  have hnumber : opensWithDigit (afterSign cs) = false := by
    unfold afterSign
    split
    · exact hsigned
    · exact hsigned
    · exact hdigit
  simp [Word.ofChars?, hnumber, hbare]

/-! ### Strings in quotes -/

/-- The characters that are escaped inside quotes. -/
def isEscaped (c : Char) : Bool := c ∈ ['\\', '"', '\n', '\r', '\t', '\x08', '\x0c']

/-- The characters that read back from inside quotes: those that are escaped and those that may
stand there. -/
def isQuotable (c : Char) : Bool := isEscaped c || !(isForbidden c || isNewline c)

/-- The piece of a string that a written character is scanned to. -/
def pieceOf (c : Char) : Piece := if isEscaped c then .escaped c else .literal c

/-- The pieces of a string make up the string, whichever of its characters were escaped. -/
theorem text_map_pieceOf (cs : List Char) : Piece.text (cs.map pieceOf) = cs := by
  induction cs with
  | nil => rfl
  | cons c cs ih =>
    have hchar : (pieceOf c).char? = some c := by
      unfold pieceOf
      split <;> rfl
    rw [Piece.text] at ih ⊢
    rw [List.map_cons, List.filterMap_cons_some hchar, ih]

theorem mem_escaped_of_isEscaped {c : Char} (h : isEscaped c = true) :
    c = '\\' ∨ c = '"' ∨ c = '\n' ∨ c = '\r' ∨ c = '\t' ∨ c = '\x08' ∨ c = '\x0c' := by
  simpa only [isEscaped, List.mem_cons, List.not_mem_nil, or_false, decide_eq_true_eq] using h

theorem writeChar_of_not_isEscaped {c : Char} (h : isEscaped c = false) : writeChar c = [c] := by
  unfold writeChar
  split <;> first | rfl | exact absurd h (by decide)

namespace Scanner

variable {body : List Piece} {ts : List Token}

/-- Inside quotes a character that is not escaped stands for itself, or it may not stand there. -/
theorem feed_quoted_of_not_isEscaped {c : Char} (h : isEscaped c = false) (body : List Piece)
    (ts : List Token) : feed ⟨.quoted false .none 0 body, ts⟩ c =
      if isForbidden c || isNewline c then none
      else some ⟨.quoted false .none 0 (.literal c :: body), ts⟩ := by
  have hne : c ≠ '\\' ∧ c ≠ '"' := by
    simp only [isEscaped, List.mem_cons, decide_eq_false_iff_not, not_or] at h
    exact ⟨h.1, h.2.1⟩
  show feedQuotedPlain ⟨.quoted false .none 0 body, ts⟩ false 0 body c = _
  simp [feedQuotedPlain, hne, enter]

/-- One character inside quotes. -/
theorem scan_writeChar (c : Char) (body : List Piece) (ts : List Token) :
    scan ⟨.quoted false .none 0 body, ts⟩ (writeChar c) =
      if isQuotable c then some ⟨.quoted false .none 0 (pieceOf c :: body), ts⟩ else none := by
  by_cases hesc : isEscaped c
  · -- a backslash and a letter
    obtain rfl | rfl | rfl | rfl | rfl | rfl | rfl := mem_escaped_of_isEscaped hesc <;> rfl
  · have hesc' : isEscaped c = false := Bool.eq_false_iff.2 hesc
    rw [writeChar_of_not_isEscaped hesc', scan_cons, unified]
    -- a newline that is not escaped may not stand inside quotes, and the others are not unified
    by_cases hnewline : isNewline c
    · rw [if_pos hnewline, show isQuotable c = false by simp [isQuotable, hesc', hnewline]]
      rfl
    · rw [if_neg hnewline, feed_quoted_of_not_isEscaped hesc']
      cases hforbidden : isForbidden c <;>
        simp [isQuotable, pieceOf, hesc', hnewline, hforbidden]

/-- The inside of a quoted string is scanned to its pieces, newest first, or one of its characters
is refused. -/
theorem scan_flatMap_writeChar (cs : List Char) (body : List Piece) (ts : List Token)
    (rest : List Char) :
    scan ⟨.quoted false .none 0 body, ts⟩ (cs.flatMap writeChar ++ rest) =
      if cs.all isQuotable then
        scan ⟨.quoted false .none 0 ((cs.map pieceOf).reverse ++ body), ts⟩ rest
      else none := by
  induction cs generalizing body with
  | nil => rfl
  | cons c cs ih =>
    rw [List.flatMap_cons, List.append_assoc, scan_append, scan_writeChar, List.all_cons]
    cases isQuotable c with
    | false => rfl
    | true =>
      rw [if_pos rfl, Option.bind_some, ih]
      simp

/-- A string is a token once a character ends it after the closing quote. Two quotes in a row are
known to be the empty string only then. -/
theorem scan_quoted_end {c : Char} {t : Token} (he : Ends c t) (body : List Piece)
    (ts : List Token) (rest : List Char) :
    scan ⟨.quoted false .none 0 body, ts⟩ ('"' :: c :: rest) =
      scan ⟨.between false, t :: .text (String.ofList (Piece.text body.reverse)) :: ts⟩ rest := by
  rw [scan_cons]
  cases body with
  | nil =>
    -- a third quote would begin a block of lines
    have hfeed : feed ⟨.emptyQuoted, ts⟩ (unified c) =
        feedBetween ⟨.between true, .text "" :: ts⟩ true (unified c) :=
      if_neg he.ne_quote
    show scan ⟨.emptyQuoted, ts⟩ (c :: rest) = _
    rw [scan_cons, hfeed, he.feedBetween]
    rfl
  | cons p body =>
    let closed : Scanner :=
      ⟨.between true, .text (String.ofList (Piece.text (p :: body).reverse)) :: ts⟩
    show closed.scan (c :: rest) = _
    rw [scan_cons]
    show (closed.feedBetween true (unified c)).bind _ = _
    rw [he.feedBetween]
    rfl

end Scanner

/-! ### Strings as they are written -/

/-- The strings that read back: bare words that do not look like a fraction without its first digit,
and strings in quotes all of whose characters may stand there. -/
def isReadable (s : String) : Bool :=
  if isPlain s.toList then !opensWithFraction (afterSign s.toList) else s.toList.all isQuotable

/-- The characters that are no part of ordinary text: control characters other than tab, line feed
and carriage return, marks of direction, separators of lines and paragraphs, and the byte order
mark. -/
def isTroublesome (c : Char) : Bool :=
  let n := c.toNat
  (n ≤ 0x1F && n != 0x09 && n != 0x0A && n != 0x0D) || (0x7F ≤ n && n ≤ 0x9F) ||
    (0x200E ≤ n && n ≤ 0x200F) || (0x2028 ≤ n && n ≤ 0x202E) || (0x2066 ≤ n && n ≤ 0x2069) ||
    n == 0xFEFF

/-- Ordinary characters read back from inside quotes. Of the three that are ordinary and yet
newlines or control characters, all are escaped. -/
theorem isQuotable_of_not_isTroublesome {c : Char} (h : isTroublesome c = false) :
    isQuotable c = true := by
  by_cases hescaped : c = '\t' ∨ c = '\n' ∨ c = '\r'
  · obtain rfl | rfl | rfl := hescaped <;> decide
  · have hne : c.toNat ≠ 0x09 ∧ c.toNat ≠ 0x0A ∧ c.toNat ≠ 0x0D := by
      show c.toNat ≠ '\t'.toNat ∧ c.toNat ≠ '\n'.toNat ∧ c.toNat ≠ '\r'.toNat
      simpa only [ne_eq, Char.toNat_inj, not_or] using hescaped
    have hplain : isForbidden c = false ∧ isNewline c = false := by
      simp [isTroublesome, isForbidden, isNewline] at h ⊢
      omega
    simp [isQuotable, hplain]

/-- Ordinary text reads back, unless it looks like a fraction without its first digit. -/
theorem isReadable_of_not_isTroublesome {s : String}
    (hchars : ∀ c ∈ s.toList, isTroublesome c = false)
    (hfraction : opensWithFraction (afterSign s.toList) = false) : isReadable s = true := by
  unfold isReadable
  split
  · rw [hfraction]
    rfl
  · exact List.all_eq_true.2 fun c hc ↦ isQuotable_of_not_isTroublesome (hchars c hc)

/-- **A written string is scanned to itself or refused.** -/
theorem Scanner.scan_writeString {c : Char} {t : Token} (he : Ends c t) (s : String)
    (ts : List Token) (rest : List Char) :
    scan ⟨.between false, ts⟩ (writeString s ++ c :: rest) =
      if isReadable s then scan ⟨.between false, t :: .text s :: ts⟩ rest else none := by
  by_cases hplain : isPlain s.toList
  -- a bare word: its first character begins it and the others go on with it
  · have hword := isWordChar_of_isPlain hplain
    have hkind := Word.ofChars?_of_isPlain hplain
    simp only [writeString, isReadable, if_pos hplain]
    cases hs : s.toList with
    | nil => rw [hs] at hplain; exact absurd hplain (by decide)
    | cons c₀ cs =>
      rw [hs] at hword hkind
      have hc₀ : isWordChar c₀ = true := hword c₀ List.mem_cons_self
      rw [List.cons_append, scan_cons, unified_of_isWordChar hc₀]
      show (feedBetween ⟨.between false, ts⟩ false c₀).bind _ = _
      rw [feedBetween_of_isWordChar hc₀, Option.bind_some,
        scan_word fun c hc ↦ hword c (List.mem_cons_of_mem _ hc), scan_word_end he]
      -- the scanner holds the word newest character first
      have hback : (cs.reverse ++ [c₀]).reverse = s.toList := by simp [hs]
      rw [hback, hs, hkind, ← hs, String.ofList_toList]
      cases opensWithFraction (afterSign s.toList) <;> rfl
  -- quotes: nothing of the string is left to chance but its characters
  · simp only [writeString, isReadable, if_neg hplain, List.cons_append, List.append_assoc]
    rw [scan_cons]
    show (scan ⟨.quoted false .none 0 [], ts⟩ (s.toList.flatMap writeChar ++ '"' :: c :: rest)) = _
    rw [scan_flatMap_writeChar, scan_quoted_end he, List.append_nil, List.reverse_reverse,
      text_map_pieceOf, String.ofList_toList]

end LayeredRights.Kdl
