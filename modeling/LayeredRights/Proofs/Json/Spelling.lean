import LayeredRights.Proofs.Json.Numeral
import Mathlib.Data.List.Chain
import Mathlib.Data.List.Forall2

/-!
# The spelling of JSON tokens

`Spells` says which texts are made of which tokens, by the grammar alone. It is ambiguous, as the
words of a text may stand side by side: `12` is one number, and it is also two.

A scanner in the middle of a text has complete tokens and an open one, and `Scanned` says which part
of the text is which. Each character extends one of the two (`Scanned.feed`), so in the end the
tokens are those of the text (`Token.spells_of_ofText?`). In return, a scanner between two tokens
goes over the text of the next (`Scanner.scan_token`). Only a word has to be followed by something
else, so tokens are found in all their texts if no two words meet (`Token.ofText?_of_spells`).

The grammar gives white space to the token after it. A scanner does not know of that token yet when
it comes over the space, and adds it to those that are complete, which `Spells.space` allows. Three
more lemmas of this kind (`spells_nil`, `SpelledBody.concat`, `Spells.concat`) let texts grow at
their end, where the grammar has them grow at the front.

A string that has half a surrogate pair in it is a token like any other, but stands for nothing. It
is the reader of values who may not like it.
-/

namespace LayeredRights.Json

open Text (hexValue?)

/-! ### The grammar of strings -/

/-- The text of a unit of a string. -/
inductive Piece.Spelled : Piece → List Char → Prop
  | char {c : Char} (hquote : c ≠ '"') (hbackslash : c ≠ '\\') (hcontrol : 0x20 ≤ c.toNat) :
      Spelled (.char c) [c]
  | escape {e c : Char} (h : escapedChar? e = some c) : Spelled (.char c) ['\\', e]
  | code {hs : List Char} {ds : List Nat} (h : List.Forall₂ (fun c d ↦ hexValue? c = some d) hs ds)
      (hlength : hs.length = 4) : Spelled (.code (Text.ofDigits 16 ds)) ('\\' :: 'u' :: hs)

/-- The text between the quotes of a string. -/
inductive SpelledBody : List Piece → List Char → Prop
  | nil : SpelledBody [] []
  | cons {p : Piece} {ps : List Piece} {cs rest : List Char} (hp : p.Spelled cs)
      (hps : SpelledBody ps rest) : SpelledBody (p :: ps) (cs ++ rest)

/-- The characters that the units of a string stand for. A character beyond the first 65536 is
spelled as the two halves of a surrogate pair, and half a pair stands for nothing. -/
inductive Denotes : List Piece → List Char → Prop
  | nil : Denotes [] []
  | char {c : Char} {ps : List Piece} {cs : List Char} (h : Denotes ps cs) :
      Denotes (.char c :: ps) (c :: cs)
  | code {n : Nat} {ps : List Piece} {cs : List Char} (hhigh : isHighSurrogate n = false)
      (hlow : isLowSurrogate n = false) (h : Denotes ps cs) :
      Denotes (.code n :: ps) (Char.ofNat n :: cs)
  | pair {n m : Nat} {ps : List Piece} {cs : List Char} (hhigh : isHighSurrogate n = true)
      (hlow : isLowSurrogate m = true) (h : Denotes ps cs) :
      Denotes (.code n :: .code m :: ps)
        (Char.ofNat (0x10000 + (n - 0xD800) * 0x400 + (m - 0xDC00)) :: cs)

/-! ### The grammar of tokens -/

/-- The text of a token. A string that stands for nothing is `none`. -/
inductive Token.Spelled : Token → List Char → Prop
  | openBrace : Spelled .openBrace ['{']
  | closeBrace : Spelled .closeBrace ['}']
  | openBracket : Spelled .openBracket ['[']
  | closeBracket : Spelled .closeBracket [']']
  | colon : Spelled .colon [':']
  | comma : Spelled .comma [',']
  | null : Spelled .null ['n', 'u', 'l', 'l']
  | affirmative : Spelled (.bool true) ['t', 'r', 'u', 'e']
  | negative : Spelled (.bool false) ['f', 'a', 'l', 's', 'e']
  | number {cs : List Char} (h : IsNumeral cs) : Spelled (.number (String.ofList cs)) cs
  | text {ps : List Piece} {cs : List Char} {s : Option String} (hbody : SpelledBody ps cs)
      (hs : ∀ t, s = some t ↔ Denotes ps t.toList) : Spelled (.text s) ('"' :: (cs ++ ['"']))

/-- The texts of a list of tokens, with white space anywhere between them and around them. -/
inductive Spells : List Token → List Char → Prop
  | nil {ws : List Char} (hws : ∀ c ∈ ws, isSpace c = true) : Spells [] ws
  | cons {t : Token} {ts : List Token} {ws cs rest : List Char}
      (hws : ∀ c ∈ ws, isSpace c = true) (ht : t.Spelled cs) (h : Spells ts rest) :
      Spells (t :: ts) (ws ++ (cs ++ rest))

variable {ts : List Token} {t : Token} {ps : List Piece} {p : Piece} {c : Char}
  {cs ds rest : List Char}

theorem spells_nil : Spells [] [] := .nil fun _ hc ↦ nomatch hc

theorem SpelledBody.concat (h : SpelledBody ps cs) (hp : p.Spelled ds) :
    SpelledBody (ps ++ [p]) (cs ++ ds) := by
  induction h with
  | nil => simpa using SpelledBody.cons hp .nil
  | cons hq _ ih => simpa using SpelledBody.cons hq ih

theorem Spells.concat (h : Spells ts cs) (ht : t.Spelled ds) : Spells (ts ++ [t]) (cs ++ ds) := by
  induction h with
  | nil hws => simpa using Spells.cons hws ht spells_nil
  | cons hws hu _ ih => simpa using Spells.cons hws hu ih

theorem Spells.space (h : Spells ts cs) (hc : isSpace c = true) : Spells ts (cs ++ [c]) := by
  induction h with
  | nil hws =>
    refine .nil fun d hd ↦ ?_
    rcases List.mem_append.1 hd with hd | hd
    · exact hws d hd
    · rwa [List.mem_singleton.1 hd]
  | cons hws hu _ ih => simpa using Spells.cons hws hu ih

/-! ### What strings stand for -/

/-- A code that is no half of a pair stands for its character, whatever follows. -/
theorem decode?_code {n : Nat} (hhigh : isHighSurrogate n = false)
    (hlow : isLowSurrogate n = false) (ps : List Piece) :
    decode? (.code n :: ps) = (decode? ps).map (Char.ofNat n :: ·) := by
  cases ps with
  | nil => simp [decode?, hhigh, hlow]
  | cons p ps => cases p <;> simp [decode?, hhigh, hlow]

/-- Units stand for the characters that they are decoded to. -/
theorem decode?_eq_some_iff : decode? ps = some cs ↔ Denotes ps cs := by
  constructor
  · intro h
    fun_induction decode? ps generalizing cs with
    | case1 =>
      obtain rfl := Option.some.inj h
      exact .nil
    | case2 c ps ih =>
      obtain ⟨cs', hcs, rfl⟩ := Option.map_eq_some_iff.1 h
      exact .char (ih hcs)
    | case3 n m ps hpair ih =>
      obtain ⟨cs', hcs, rfl⟩ := Option.map_eq_some_iff.1 h
      obtain ⟨hhigh, hlow⟩ := Bool.and_eq_true_iff.1 hpair
      exact .pair hhigh hlow (ih hcs)
    -- the first half of a pair, and what follows is not the second
    | case4 => exact nomatch h
    | case5 n m ps hpair hhalf ih =>
      obtain ⟨cs', hcs, rfl⟩ := Option.map_eq_some_iff.1 h
      simp only [Bool.or_eq_true, not_or, Bool.not_eq_true] at hhalf
      exact .code hhalf.1 hhalf.2 (ih hcs)
    | case6 => exact nomatch h
    | case7 n ps hnot hhalf ih =>
      obtain ⟨cs', hcs, rfl⟩ := Option.map_eq_some_iff.1 h
      simp only [Bool.or_eq_true, not_or, Bool.not_eq_true] at hhalf
      exact .code hhalf.1 hhalf.2 (ih hcs)
  · intro h
    induction h with
    | nil => rfl
    | char _ ih => simp [decode?, ih]
    | code hhigh hlow _ ih => rw [decode?_code hhigh hlow, ih, Option.map_some]
    | pair hhigh hlow _ ih => simp [decode?, hhigh, hlow, ih]

theorem map_ofList_decode?_eq_some_iff {t : String} :
    (decode? ps).map String.ofList = some t ↔ Denotes ps t.toList := by
  rw [← decode?_eq_some_iff, Option.map_eq_some_iff]
  constructor
  · rintro ⟨cs, hcs, rfl⟩
    rw [hcs, String.toList_ofList]
  · exact fun h ↦ ⟨_, h, String.ofList_toList⟩

/-! ### From a text to its tokens -/

/-- What the text has of a token that is not complete. -/
inductive Open : Mode → List Char → Prop
  | between : Open .between []
  | word (cs : List Char) : Open (.word cs) cs.reverse
  | text {body : List Piece} {cs : List Char} (h : SpelledBody body.reverse cs) :
      Open (.text body) ('"' :: cs)
  | escape {body : List Piece} {cs : List Char} (h : SpelledBody body.reverse cs) :
      Open (.escape body) ('"' :: (cs ++ ['\\']))
  | code {body : List Piece} {cs hs : List Char} {ds : List Nat} (h : SpelledBody body.reverse cs)
      (hds : List.Forall₂ (fun c d ↦ hexValue? c = some d) hs ds) :
      Open (.code hs.length (Text.ofDigits 16 ds) body) ('"' :: (cs ++ '\\' :: 'u' :: hs))

/-- A scanner has read a text: the texts of the tokens it has found, and what there is of the next
one. -/
inductive Scanned (s : Scanner) : List Char → Prop
  | mk {done opened : List Char} (hdone : Spells s.tokens.reverse done)
      (hopen : Open s.mode opened) : Scanned s (done ++ opened)

theorem Token.spelled_of_ofWord? (h : Token.ofWord? cs = some t) : t.Spelled cs := by
  unfold Token.ofWord? at h
  split_ifs at h with hnull htrue hfalse hnumber
  · obtain rfl := Option.some.inj h
    exact hnull ▸ .null
  · obtain rfl := Option.some.inj h
    exact htrue ▸ .affirmative
  · obtain rfl := Option.some.inj h
    exact hfalse ▸ .negative
  · obtain rfl := Option.some.inj h
    exact .number (isNumber_iff.1 hnumber)

namespace Scanner

variable {s s' : Scanner}

/-- A token that is complete leaves nothing open. -/
theorem scanned_emit (hdone : Spells s.tokens.reverse cs) (ht : t.Spelled ds)
    (h : s.emit t = some s') : Scanned s' (cs ++ ds) := by
  obtain rfl := Option.some.inj h
  have hdone' : Spells (t :: s.tokens).reverse (cs ++ ds) := by
    rw [List.reverse_cons]
    exact hdone.concat ht
  simpa using Scanned.mk (s := ⟨.between, t :: s.tokens⟩) hdone' .between

/-- Between tokens a character is white space, a token of its own or the beginning of one. -/
theorem scanned_feedBetween (hdone : Spells s.tokens.reverse cs)
    (h : s.feedBetween c = some s') : Scanned s' (cs ++ [c]) := by
  unfold feedBetween at h
  split_ifs at h with hspace hc hc hc hc hc hc hc hword
  · obtain rfl := Option.some.inj h
    simpa using Scanned.mk (s := { s with mode := .between }) (hdone.space hspace) .between
  · exact scanned_emit hdone (hc ▸ .openBrace) h
  · exact scanned_emit hdone (hc ▸ .closeBrace) h
  · exact scanned_emit hdone (hc ▸ .openBracket) h
  · exact scanned_emit hdone (hc ▸ .closeBracket) h
  · exact scanned_emit hdone (hc ▸ .colon) h
  · exact scanned_emit hdone (hc ▸ .comma) h
  · obtain rfl := Option.some.inj h
    exact hc ▸ .mk hdone (.text .nil)
  · obtain rfl := Option.some.inj h
    exact .mk hdone (.word [c])

/-- A word is complete when something else follows it. -/
theorem exists_emitWord {w : List Char} (hdone : Spells s.tokens.reverse cs)
    (h : s.emitWord w = some s') : s'.mode = .between ∧
      Spells s'.tokens.reverse (cs ++ w.reverse) := by
  obtain ⟨t, ht, hemit⟩ := Option.bind_eq_some_iff.1 h
  obtain rfl := Option.some.inj hemit
  refine ⟨rfl, ?_⟩
  rw [List.reverse_cons]
  exact hdone.concat (Token.spelled_of_ofWord? ht)

theorem Open.reassoc {m : Mode} {opened : List Char} {done : List Char}
    (hdone : Spells s.tokens.reverse done) (h : Open m (opened ++ [c])) :
    Scanned { s with mode := m } (done ++ opened ++ [c]) := by
  rw [List.append_assoc]
  exact .mk hdone h

/-- In a word a character goes on with it, or ends it and counts by itself. -/
theorem scanned_feed_word {w : List Char} (hdone : Spells s.tokens.reverse cs)
    (hmode : s.mode = .word w) (h : s.feed c = some s') :
    Scanned s' (cs ++ w.reverse ++ [c]) := by
  simp only [feed, hmode] at h
  split_ifs at h with hword
  · obtain rfl := Option.some.inj h
    refine Open.reassoc hdone ?_
    rw [← List.reverse_cons]
    exact .word (c :: w)
  · obtain ⟨s₁, hemit, hbetween⟩ := Option.bind_eq_some_iff.1 h
    exact scanned_feedBetween (exists_emitWord hdone hemit).2 hbetween

/-- In a string a character is a unit of it, begins one or is the closing quote. -/
theorem scanned_feed_text {body : List Piece} (hdone : Spells s.tokens.reverse cs)
    (hmode : s.mode = .text body) (hbody : SpelledBody body.reverse ds)
    (h : s.feed c = some s') : Scanned s' (cs ++ '"' :: ds ++ [c]) := by
  simp only [feed, hmode] at h
  split_ifs at h with hquote hbackslash hcontrol
  · rw [List.append_assoc]
    refine scanned_emit hdone ?_ h
    exact hquote ▸ .text hbody fun t ↦ map_ofList_decode?_eq_some_iff
  · obtain rfl := Option.some.inj h
    exact Open.reassoc hdone (hbackslash ▸ .escape hbody)
  · obtain rfl := Option.some.inj h
    refine Open.reassoc hdone (.text ?_)
    rw [List.reverse_cons]
    exact hbody.concat (.char hquote hbackslash (Nat.le_of_not_lt hcontrol))

/-- After a backslash it is a unit, or announces the digits of a code. -/
theorem scanned_feed_escape {body : List Piece} (hdone : Spells s.tokens.reverse cs)
    (hmode : s.mode = .escape body) (hbody : SpelledBody body.reverse ds)
    (h : s.feed c = some s') : Scanned s' (cs ++ '"' :: (ds ++ ['\\']) ++ [c]) := by
  simp only [feed, hmode] at h
  split_ifs at h with hcode
  · obtain rfl := Option.some.inj h
    refine Open.reassoc hdone ?_
    simpa [hcode, Text.ofDigits] using Open.code hbody .nil
  · obtain ⟨d, hd, henter⟩ := Option.bind_eq_some_iff.1 h
    obtain rfl := Option.some.inj henter
    refine Open.reassoc hdone ?_
    have hbody' : SpelledBody (.char d :: body).reverse (ds ++ ['\\', c]) := by
      rw [List.reverse_cons]
      exact hbody.concat (.escape hd)
    simpa using Open.text hbody'

/-- In a code it is one of four digits, the last of which makes a unit of them. -/
theorem scanned_feed_code {body : List Piece} {hs : List Char} {ns : List Nat}
    (hdone : Spells s.tokens.reverse cs)
    (hmode : s.mode = .code hs.length (Text.ofDigits 16 ns) body)
    (hbody : SpelledBody body.reverse ds)
    (hns : List.Forall₂ (fun c d ↦ hexValue? c = some d) hs ns)
    (h : s.feed c = some s') : Scanned s' (cs ++ '"' :: (ds ++ '\\' :: 'u' :: hs) ++ [c]) := by
  simp only [feed, hmode] at h
  obtain ⟨d, hd, hrest⟩ := Option.bind_eq_some_iff.1 h
  have hns' : List.Forall₂ (fun c d ↦ hexValue? c = some d) (hs ++ [c]) (ns ++ [d]) :=
    List.rel_append hns (.cons hd .nil)
  have hvalue : Text.ofDigits 16 ns * 16 + d = Text.ofDigits 16 (ns ++ [d]) := by
    simp [Text.ofDigits]
  rw [hvalue] at hrest
  split_ifs at hrest with hlength
  · obtain rfl := Option.some.inj hrest
    refine Open.reassoc hdone ?_
    have hbody' : SpelledBody (.code (Text.ofDigits 16 (ns ++ [d])) :: body).reverse
        (ds ++ '\\' :: 'u' :: (hs ++ [c])) := by
      rw [List.reverse_cons]
      exact hbody.concat (.code hns' (by simp [hlength]))
    simpa using Open.text hbody'
  · obtain rfl := Option.some.inj hrest
    refine Open.reassoc hdone ?_
    simpa using Open.code hbody hns'

end Scanner

/-- **One more character.** -/
theorem Scanned.feed {s s' : Scanner} (hs : Scanned s cs) (h : s.feed c = some s') :
    Scanned s' (cs ++ [c]) := by
  obtain ⟨hdone, hopen⟩ := hs
  generalize hmode : s.mode = m at hopen
  cases hopen with
  | between =>
    rw [List.append_nil]
    exact Scanner.scanned_feedBetween hdone (by simpa only [Scanner.feed, hmode] using h)
  | word w => exact Scanner.scanned_feed_word hdone hmode h
  | text hbody => exact Scanner.scanned_feed_text hdone hmode hbody h
  | escape hbody => exact Scanner.scanned_feed_escape hdone hmode hbody h
  | code hbody hns => exact Scanner.scanned_feed_code hdone hmode hbody hns h

/-- A scanner has read the characters that it has been given. -/
theorem Scanned.foldlM {s s' : Scanner} (hs : Scanned s cs)
    (h : ds.foldlM Scanner.feed s = some s') : Scanned s' (cs ++ ds) := by
  induction ds generalizing s cs with
  | nil =>
    obtain rfl := Option.some.inj h
    rwa [List.append_nil]
  | cons d ds ih =>
    rw [List.foldlM_cons] at h
    obtain ⟨s₁, hfeed, hrest⟩ := Option.bind_eq_some_iff.1 h
    simpa using ih (hs.feed hfeed) hrest

/-- The text ends here. -/
theorem Scanned.finish {s : Scanner} (hs : Scanned s cs) (h : s.finish = some ts) :
    Spells ts cs := by
  obtain ⟨hdone, hopen⟩ := hs
  unfold Scanner.finish at h
  generalize hmode : s.mode = m at h hopen
  cases hopen with
  | between =>
    obtain rfl := Option.some.inj h
    rwa [List.append_nil]
  | word w =>
    obtain ⟨s', hemit, rfl⟩ := Option.map_eq_some_iff.1 h
    exact (Scanner.exists_emitWord hdone hemit).2
  | text | escape | code => exact nomatch h

/-- **Tokens that are found are spelled by the text.** -/
theorem Token.spells_of_ofText? {s : String} (h : Token.ofText? s = some ts) :
    Spells ts s.toList := by
  obtain ⟨s', hscan, hfinish⟩ := Option.bind_eq_some_iff.1 h
  have hfresh : Scanned {} [] := by
    simpa using Scanned.mk (s := {}) spells_nil .between
  exact (hfresh.foldlM hscan).finish hfinish

/-! ### From tokens to a text -/

/-- The tokens that are written as words. -/
def Token.isWord : Token → Bool
  | null | bool _ | number _ => true
  | _ => false

/-- The text does not go on with a word. -/
def NoWord (cs : List Char) : Prop := ∀ c ∈ cs.head?, isWordChar c = false

namespace Scanner

/-- The tokens of a text, given what a scanner has read before it. -/
def scan (s : Scanner) (cs : List Char) : Option (List Token) := (cs.foldlM feed s).bind finish

theorem scan_cons (s : Scanner) (c : Char) (cs : List Char) :
    s.scan (c :: cs) = (s.feed c).bind fun s' ↦ s'.scan cs := by
  simp [scan, List.foldlM_cons, Option.bind_assoc]

theorem scan_space {ws : List Char} (h : ∀ c ∈ ws, isSpace c = true) (ts : List Token)
    (rest : List Char) : scan ⟨.between, ts⟩ (ws ++ rest) = scan ⟨.between, ts⟩ rest := by
  induction ws with
  | nil => rfl
  | cons c ws ih =>
    have hc : isSpace c = true := h c List.mem_cons_self
    rw [List.cons_append, scan_cons]
    simp only [feed, feedBetween, hc, if_true, enter, Option.bind_some]
    exact ih fun d hd ↦ h d (List.mem_cons_of_mem _ hd)

/-- Between tokens a character of words begins one, as it is no white space and no mark. -/
theorem feedBetween_of_isWordChar (h : isWordChar c = true) (s : Scanner) :
    s.feedBetween c = some { s with mode := .word [c] } := by
  have hne : ∀ d, isWordChar d = false → c ≠ d := by
    rintro d hd rfl
    exact nomatch h.symm.trans hd
  have hspace : isSpace c = false := by
    simp [isSpace, hne ' ' rfl, hne '\n' rfl, hne '\t' rfl, hne '\r' rfl]
  simp [feedBetween, hspace, hne '{' rfl, hne '}' rfl, hne '[' rfl, hne ']' rfl, hne ':' rfl,
    hne ',' rfl, hne '"' rfl, h, enter]

/-- A word is scanned to its characters, newest first. -/
theorem scan_word (h : ∀ c ∈ cs, isWordChar c = true) (w : List Char) (ts : List Token)
    (rest : List Char) :
    scan ⟨.word w, ts⟩ (cs ++ rest) = scan ⟨.word (cs.reverse ++ w), ts⟩ rest := by
  induction cs generalizing w with
  | nil => rfl
  | cons c cs ih =>
    have hc : isWordChar c = true := h c List.mem_cons_self
    rw [List.cons_append, scan_cons]
    simp only [feed, hc, if_true, enter, Option.bind_some]
    rw [ih fun d hd ↦ h d (List.mem_cons_of_mem _ hd)]
    simp

/-- A word is a token once something else follows it. -/
theorem scan_word_end {w : List Char} (hw : Token.ofWord? w.reverse = some t)
    (hrest : NoWord rest) (ts : List Token) :
    scan ⟨.word w, ts⟩ rest = scan ⟨.between, t :: ts⟩ rest := by
  have hemit : ∀ ts, emitWord ⟨.word w, ts⟩ w = some ⟨.between, t :: ts⟩ := fun ts ↦ by
    simp [emitWord, hw, emit]
  cases rest with
  | nil => simp [scan, finish, hemit]
  | cons c cs =>
    have hc : isWordChar c = false := hrest c rfl
    simp [scan_cons, feed, hc, hemit]

theorem scan_backslash (body : List Piece) (ts : List Token) (rest : List Char) :
    scan ⟨.text body, ts⟩ ('\\' :: rest) = scan ⟨.escape body, ts⟩ rest := scan_cons _ _ _

/-- A digit of a code is added to those before it, and the fourth is the last. -/
theorem scan_hex {n value d : Nat} (hd : hexValue? c = some d) (body : List Piece)
    (ts : List Token) (rest : List Char) :
    scan ⟨.code n value body, ts⟩ (c :: rest) =
      if n = 3 then scan ⟨.text (.code (value * 16 + d) :: body), ts⟩ rest
      else scan ⟨.code (n + 1) (value * 16 + d) body, ts⟩ rest := by
  rw [scan_cons]
  simp only [feed, hd, Option.bind_some]
  split <;> rfl

theorem scan_piece (h : p.Spelled cs) (body : List Piece) (ts : List Token) (rest : List Char) :
    scan ⟨.text body, ts⟩ (cs ++ rest) = scan ⟨.text (p :: body), ts⟩ rest := by
  cases h with
  | char hquote hbackslash hcontrol =>
    rw [List.singleton_append, scan_cons]
    simp [feed, hquote, hbackslash, Nat.not_lt.2 hcontrol, enter]
  | @escape e c h =>
    have hu : e ≠ 'u' := by
      rintro rfl
      exact nomatch h
    rw [List.cons_append, List.singleton_append, scan_backslash, scan_cons]
    simp [feed, hu, h, enter]
  | @code hs ds h hlength =>
    -- four digits one by one, so that the scanner is seen to count them
    obtain ⟨c₁, c₂, c₃, c₄, rfl⟩ := List.length_eq_four.1 hlength
    obtain _ | ⟨h₁, _ | ⟨h₂, _ | ⟨h₃, _ | ⟨h₄, _ | _⟩⟩⟩⟩ := h
    have hopen : scan ⟨.escape body, ts⟩ ('u' :: ([c₁, c₂, c₃, c₄] ++ rest)) =
        scan ⟨.code 0 0 body, ts⟩ (c₁ :: c₂ :: c₃ :: c₄ :: rest) := scan_cons _ _ _
    rw [List.cons_append, List.cons_append, scan_backslash, hopen, scan_hex h₁, if_neg (by decide),
      scan_hex h₂, if_neg (by decide), scan_hex h₃, if_neg (by decide), scan_hex h₄, if_pos rfl]
    rfl

/-- The text between quotes is scanned to its units, newest first. -/
theorem scan_body (h : SpelledBody ps cs) (body : List Piece) (ts : List Token)
    (rest : List Char) :
    scan ⟨.text body, ts⟩ (cs ++ rest) = scan ⟨.text (ps.reverse ++ body), ts⟩ rest := by
  induction h generalizing body with
  | nil => rfl
  | cons hp _ ih =>
    rw [List.append_assoc, scan_piece hp, ih]
    simp

end Scanner

theorem isWordChar_of_isDigit (h : Text.isDigit c = true) : isWordChar c = true := by
  simp [isWordChar, h]

/-- A number is one word, with its signs and its point. -/
theorem isWordChar_of_isNumeral (h : IsNumeral cs) : ∀ c ∈ cs, isWordChar c = true := by
  obtain ⟨hsign, hwhole, hfraction, hexponent⟩ := h
  have hdigits : ∀ {ds : List Char}, IsDigits ds → ∀ c ∈ ds, isWordChar c = true :=
    fun h c hc ↦ isWordChar_of_isDigit (h.2 c hc)
  intro c hc
  simp only [List.mem_append] at hc
  rcases hc with hc | hc | hc | hc
  · rcases hsign with rfl | rfl
    · exact nomatch hc
    · rw [List.mem_singleton.1 hc]
      rfl
  · obtain _ | ⟨-, hds⟩ := hwhole
    · rw [List.mem_singleton.1 hc]
      rfl
    · exact hdigits hds c hc
  · obtain _ | hds := hfraction
    · exact nomatch hc
    · rcases List.mem_cons.1 hc with rfl | hc
      · rfl
      · exact hdigits hds c hc
  · obtain _ | ⟨he, hsign, hds⟩ := hexponent
    · exact nomatch hc
    · simp only [List.mem_cons, List.mem_append] at hc
      rcases hc with rfl | hc | hc
      · rcases he with rfl | rfl <;> rfl
      · rcases hsign with rfl | rfl | rfl
        · exact nomatch hc
        · rw [List.mem_singleton.1 hc]
          rfl
        · rw [List.mem_singleton.1 hc]
          rfl
      · exact hdigits hds c hc

/-- The text of a word is read as that word. -/
theorem Token.Spelled.ofWord? (h : t.Spelled cs) (hword : t.isWord = true) :
    (∀ c ∈ cs, isWordChar c = true) ∧ Token.ofWord? cs = some t := by
  cases h with
  | null | affirmative | negative => exact ⟨List.all_eq_true.1 rfl, rfl⟩
  | number h =>
    have hnumber := isNumber_iff.2 h
    have hne : ∀ w, isNumber w = false → cs ≠ w := by
      rintro w hw rfl
      exact nomatch hnumber.symm.trans hw
    refine ⟨isWordChar_of_isNumeral h, ?_⟩
    rw [Token.ofWord?, if_neg (hne _ (by decide)), if_neg (hne _ (by decide)),
      if_neg (hne _ (by decide)), if_pos hnumber]
  | openBrace | closeBrace | openBracket | closeBracket | colon | comma | text =>
    exact nomatch hword

/-- A token is read, unless it is a word and the text goes on with another. -/
theorem Scanner.scan_token (h : t.Spelled cs) (hrest : t.isWord = true → NoWord rest)
    (ts : List Token) :
    scan ⟨.between, ts⟩ (cs ++ rest) = scan ⟨.between, t :: ts⟩ rest := by
  cases hword : t.isWord with
  | true =>
    obtain ⟨hall, hof⟩ := h.ofWord? hword
    cases cs with
    | nil => exact nomatch hof
    | cons c cs =>
      rw [List.cons_append, scan_cons]
      simp only [feed, feedBetween_of_isWordChar (hall c List.mem_cons_self), Option.bind_some]
      rw [scan_word fun d hd ↦ hall d (List.mem_cons_of_mem _ hd),
        scan_word_end (by simpa using hof) (hrest hword)]
  | false =>
    cases h with
    | openBrace | closeBrace | openBracket | closeBracket | colon | comma => exact scan_cons _ _ _
    | null | affirmative | negative | number => exact nomatch hword
    | @text ps cs s hbody hs =>
      have hopen : scan ⟨.between, ts⟩ ('"' :: (cs ++ ['"']) ++ rest) =
          scan ⟨.text [], ts⟩ (cs ++ '"' :: rest) := by
        rw [List.cons_append, List.append_assoc]
        exact scan_cons _ _ _
      have hdecode : (decode? ps).map String.ofList = s :=
        Option.ext fun t ↦ map_ofList_decode?_eq_some_iff.trans (hs t).symm
      rw [hopen, scan_body hbody, scan_cons]
      simp [feed, emit, hdecode]

/-- No two words meet. -/
def Separate (ts : List Token) : Prop :=
  ts.IsChain fun t u ↦ t.isWord = true → u.isWord = false

/-- What is not a word does not go on with one. -/
theorem Token.Spelled.noWord (h : t.Spelled cs) (hword : t.isWord = false) (rest : List Char) :
    NoWord (cs ++ rest) := by
  cases h with
  | openBrace | closeBrace | openBracket | closeBracket | colon | comma | text =>
    rintro c ⟨rfl⟩
    rfl
  | null | affirmative | negative | number => exact nomatch hword

/-- A text goes on with a word only if its first token is one. -/
theorem Spells.noWord (h : Spells ts cs) (hts : ∀ t ∈ ts.head?, t.isWord = false) :
    NoWord cs := by
  have hspace : ∀ {c : Char}, isSpace c = true → isWordChar c = false := by
    intro c hc
    simp only [isSpace, Bool.or_eq_true, decide_eq_true_eq] at hc
    rcases hc with ((rfl | rfl) | rfl) | rfl <;> rfl
  cases h with
  | nil hws => exact fun c hc ↦ hspace (hws c (List.mem_of_head? hc))
  | @cons t ts ws cs rest hws ht _ =>
    cases ws with
    | nil => exact ht.noWord (hts t rfl) rest
    | cons w ws =>
      rintro c ⟨rfl⟩
      exact hspace (hws _ List.mem_cons_self)

/-- The tokens of a text are found in it, after those found before. -/
theorem Scanner.scan_of_spells (h : Spells ts cs) (hts : Separate ts) (found : List Token) :
    scan ⟨.between, found⟩ cs = some (found.reverse ++ ts) := by
  induction h generalizing found with
  | @nil ws hws =>
    have hspace := scan_space hws found []
    rw [List.append_nil] at hspace
    rw [hspace, List.append_nil]
    rfl
  | @cons t ts ws cs rest hws ht hrest ih =>
    -- a word is not followed by one, so it ends where its text does
    have hfollow : t.isWord = true → NoWord rest := fun hword ↦
      hrest.noWord fun u hu ↦ (List.isChain_cons.1 hts).1 u hu hword
    rw [scan_space hws, scan_token ht hfollow, ih (List.isChain_cons.1 hts).2]
    simp

/-- **A text is cut into the tokens that it spells**, if no two words meet. -/
theorem Token.ofText?_of_spells {s : String} (h : Spells ts s.toList) (hts : Separate ts) :
    Token.ofText? s = some ts :=
  Scanner.scan_of_spells h hts []

end LayeredRights.Json
