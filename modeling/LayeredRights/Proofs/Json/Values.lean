import LayeredRights.Json.Reader
import LayeredRights.Proofs.Json.Spelling

/-!
# The grammar of JSON values

A value has one list of tokens (`Json.tokens`), and a text is a text of the value when it spells
these tokens. The reader finds a value in a text exactly when the text is one of it
(`ofText?_eq_some_iff`), and so a text has one value at most.

Between the two is what a reader stands for in the middle of a text, with arrays and objects still
open. `Reader.tokens` are the tokens that it has read, and each step adds the token that it is given
(`Reader.took_feed`), so in the end the tokens of the text are those of the value. That the
reader gets so far is an induction on the value (`Reader.read_tokens`).

The commas make the difference between the two directions. In the tokens of a value they stand
between elements, and a reader that is in the midst of an array has seen one after every element so
far. That is why open arrays have tokens of their own (`openElements`), and why closing one takes a
lemma (`elementTokens_concat`).
-/

namespace LayeredRights.Json

/-! ### The tokens of a value -/

mutual

/-- The tokens of a value. -/
def tokens : Json → List Token
  | null => [.null]
  | bool b => [.bool b]
  | number l => [.number l]
  | text s => [.text s]
  | array vs => .openBracket :: (elementTokens vs ++ [.closeBracket])
  | object ms => .openBrace :: (memberTokens ms ++ [.closeBrace])

/-- The tokens between the brackets of an array. -/
def elementTokens : List Json → List Token
  | [] => []
  | [v] => v.tokens
  | v :: vs => v.tokens ++ .comma :: elementTokens vs

/-- The tokens between the braces of an object. -/
def memberTokens : List (Option String × Json) → List Token
  | [] => []
  | [(k, v)] => .text k :: .colon :: v.tokens
  | (k, v) :: ms => .text k :: .colon :: (v.tokens ++ .comma :: memberTokens ms)

end

/-- The elements of an array that is still open, each with the comma after it. -/
def openElements (vs : List Json) : List Token := vs.flatMap fun v ↦ v.tokens ++ [.comma]

/-- The members of an object that is still open, each with the comma after it. -/
def openMembers (ms : List (Option String × Json)) : List Token :=
  ms.flatMap fun m ↦ .text m.1 :: .colon :: (m.2.tokens ++ [.comma])

/-- The last element of an array is the one without a comma after it. -/
theorem elementTokens_concat (vs : List Json) (v : Json) :
    elementTokens (vs ++ [v]) = openElements vs ++ v.tokens := by
  induction vs with
  | nil => simp [elementTokens, openElements]
  | cons u vs ih =>
    cases vs with
    | nil => simp [elementTokens, openElements]
    | cons w vs =>
      have hstep : elementTokens (u :: (w :: vs ++ [v])) =
          u.tokens ++ .comma :: elementTokens (w :: vs ++ [v]) := by simp [elementTokens]
      rw [List.cons_append, hstep, ih]
      simp [openElements]

theorem memberTokens_concat (ms : List (Option String × Json)) (k : Option String) (v : Json) :
    memberTokens (ms ++ [(k, v)]) = openMembers ms ++ .text k :: .colon :: v.tokens := by
  induction ms with
  | nil => simp [memberTokens, openMembers]
  | cons m ms ih =>
    cases ms with
    | nil => simp [memberTokens, openMembers]
    | cons w ms =>
      have hstep : memberTokens (m :: (w :: ms ++ [(k, v)])) =
          .text m.1 :: .colon :: (m.2.tokens ++ .comma :: memberTokens (w :: ms ++ [(k, v)])) := by
        simp [memberTokens]
      rw [List.cons_append, hstep, ih]
      simp [openMembers]

/-! ### What a reader has read -/

/-- The tokens of an array or object that is open. -/
def Frame.tokens : Frame → List Token
  | array vs => .openBracket :: openElements vs.reverse
  | object ms k => .openBrace :: (openMembers ms.reverse ++ [.text k, .colon])

/-- The tokens since the last value that was begun. -/
def Phase.tokens : Phase → List Token
  | value _ => []
  | name ms => .openBrace :: openMembers ms.reverse
  | colon ms k => .openBrace :: (openMembers ms.reverse ++ [.text k])
  | after v => v.tokens

namespace Reader

/-- The tokens that a reader has read. -/
def tokens (r : Reader) : List Token := r.stack.reverse.flatMap Frame.tokens ++ r.phase.tokens

/-- An array that may be closed instead of going on has nothing in it yet. -/
def Proper (r : Reader) : Prop := r.phase = .value true → ∃ fs, r.stack = .array [] :: fs

variable {r r' : Reader} {t : Token} {ts : List Token}

/-- A token has been read, and the reader is in order. -/
structure Took (r : Reader) (t : Token) (r' : Reader) : Prop where
  proper : r'.Proper
  tokens_eq : r'.tokens = r.tokens ++ [t]

/-- A step that stays among the same arrays and objects has read a token. -/
theorem took_enter {p : Phase} (h : r.enter p = some r') (hp : p ≠ .value true)
    (hphase : p.tokens = r.phase.tokens ++ [t]) : r.Took t r' := by
  obtain rfl := Option.some.inj h
  exact ⟨fun h ↦ absurd h hp, by simp [tokens, hphase]⟩

/-- A value, or an array or object that begins, or an empty array that ends. -/
theorem took_feedValue {fresh : Bool} (hr : r.Proper) (hphase : r.phase = .value fresh)
    (h : r.feedValue fresh t = some r') : r.Took t r' := by
  unfold feedValue at h
  split at h
  · exact took_enter h nofun (by simp [hphase, Phase.tokens, Json.tokens])
  · exact took_enter h nofun (by simp [hphase, Phase.tokens, Json.tokens])
  · exact took_enter h nofun (by simp [hphase, Phase.tokens, Json.tokens])
  · exact took_enter h nofun (by simp [hphase, Phase.tokens, Json.tokens])
  · obtain rfl := Option.some.inj h
    refine ⟨fun _ ↦ ⟨_, rfl⟩, ?_⟩
    simp [tokens, hphase, Phase.tokens, Frame.tokens, openElements]
  · exact took_enter h nofun (by simp [hphase, Phase.tokens, openMembers])
  · split at h
    · next vs fs hstack =>
      -- an array may be closed here because nothing has been read of it
      obtain ⟨fs', hstack'⟩ := hr hphase
      obtain ⟨hframe, rfl⟩ := List.cons.inj (hstack.symm.trans hstack')
      obtain rfl := Frame.array.inj hframe
      obtain rfl := Option.some.inj h
      refine ⟨nofun, ?_⟩
      simp [tokens, hphase, hstack, Phase.tokens, Frame.tokens, Json.tokens, openElements,
        elementTokens]
    · exact nomatch h
  · exact nomatch h

/-- The name of a member, or an empty object that ends. -/
theorem took_feedName {ms : List (Option String × Json)} (hphase : r.phase = .name ms)
    (h : r.feed t = some r') : r.Took t r' := by
  simp only [feed, hphase] at h
  split at h
  · exact took_enter h nofun (by simp [hphase, Phase.tokens])
  · split_ifs at h with hempty
    obtain rfl := List.isEmpty_iff.1 hempty
    exact took_enter h nofun
      (by simp [hphase, Phase.tokens, Json.tokens, openMembers, memberTokens])
  · exact nomatch h

theorem took_feedColon {ms : List (Option String × Json)} {k : Option String}
    (hphase : r.phase = .colon ms k) (h : r.feed t = some r') : r.Took t r' := by
  simp only [feed, hphase] at h
  split_ifs at h with ht
  obtain rfl := Option.some.inj h
  refine ⟨nofun, ?_⟩
  simp [tokens, hphase, ht, Phase.tokens, Frame.tokens]

/-- The comma after a value, or the end of what it stands in. -/
theorem took_feedAfter {v : Json} (hphase : r.phase = .after v)
    (h : r.feedAfter v t = some r') : r.Took t r' := by
  unfold feedAfter at h
  split at h
  all_goals try split at h
  · next hstack =>
    obtain rfl := Option.some.inj h
    refine ⟨nofun, ?_⟩
    simp [tokens, hphase, hstack, Phase.tokens, Frame.tokens, openElements]
  · next hstack =>
    obtain rfl := Option.some.inj h
    refine ⟨nofun, ?_⟩
    simp [tokens, hphase, hstack, Phase.tokens, Frame.tokens, openMembers]
  · exact nomatch h
  · next hstack =>
    obtain rfl := Option.some.inj h
    refine ⟨nofun, ?_⟩
    simp [tokens, hphase, hstack, Phase.tokens, Frame.tokens, Json.tokens, elementTokens_concat]
  · exact nomatch h
  · next hstack =>
    obtain rfl := Option.some.inj h
    refine ⟨nofun, ?_⟩
    simp [tokens, hphase, hstack, Phase.tokens, Frame.tokens, Json.tokens, memberTokens_concat]
  · exact nomatch h
  · exact nomatch h

/-- **One more token.** -/
theorem took_feed (hr : r.Proper) (h : r.feed t = some r') : r.Took t r' := by
  cases hphase : r.phase with
  | value fresh => exact took_feedValue hr hphase (by simpa only [feed, hphase] using h)
  | name ms => exact took_feedName hphase h
  | colon ms k => exact took_feedColon hphase h
  | after v => exact took_feedAfter hphase (by simpa only [feed, hphase] using h)

/-- A reader has read the tokens that it has been given. -/
theorem tokens_foldlM (hr : r.Proper) (h : ts.foldlM feed r = some r') :
    r'.tokens = r.tokens ++ ts := by
  induction ts generalizing r with
  | nil =>
    obtain rfl := Option.some.inj h
    exact (List.append_nil _).symm
  | cons t ts ih =>
    rw [List.foldlM_cons] at h
    obtain ⟨r₁, hfeed, hrest⟩ := Option.bind_eq_some_iff.1 h
    have htook := took_feed hr hfeed
    rw [ih htook.proper hrest, htook.tokens_eq, List.append_assoc]
    rfl

/-- The text ends here. -/
theorem tokens_eq_of_finish {v : Json} (h : r.finish = some v) : r.tokens = v.tokens := by
  unfold finish at h
  split at h
  · next hstack hphase =>
    obtain rfl := Option.some.inj h
    simp [tokens, hstack, hphase, Phase.tokens]
  · exact nomatch h

end Reader

/-- **A value that is read has the tokens of the text.** -/
theorem tokens_eq_of_read {ts : List Token} {v : Json}
    (h : (ts.foldlM Reader.feed {}).bind Reader.finish = some v) : ts = v.tokens := by
  obtain ⟨r, hread, hfinish⟩ := Option.bind_eq_some_iff.1 h
  have htokens := Reader.tokens_foldlM (r := {}) nofun hread
  rw [Reader.tokens_eq_of_finish hfinish] at htokens
  exact htokens.symm

/-! ### Reading the tokens of a value -/

namespace Reader

/-- What a reader makes of tokens. -/
def read (r : Reader) (ts : List Token) : Option Reader := ts.foldlM feed r

theorem read_cons (r : Reader) (t : Token) (ts : List Token) :
    r.read (t :: ts) = (r.feed t).bind fun r' ↦ r'.read ts := List.foldlM_cons

theorem read_append (r : Reader) (ts ts' : List Token) :
    r.read (ts ++ ts') = (r.read ts).bind fun r' ↦ r'.read ts' := List.foldlM_append

/-- The name of a member and the colon begin its value. -/
theorem read_key (fs : List Frame) (ms : List (Option String × Json)) (k : Option String)
    (ts : List Token) : read ⟨fs, .name ms⟩ (.text k :: .colon :: ts) =
      read ⟨.object ms k :: fs, .value false⟩ ts := rfl

mutual

/-- A value is read, whatever is open around it. -/
theorem read_tokens : ∀ (v : Json) (fs : List Frame) (fresh : Bool),
    read ⟨fs, .value fresh⟩ v.tokens = some ⟨fs, .after v⟩
  | null, _, _ | bool _, _, _ | number _, _, _ | text _, _, _ => rfl
  | array [], _, _ => rfl
  | array (v :: vs), fs, _ => read_elements (v :: vs) [] fs true (by simp)
  | object [], _, _ => rfl
  | object (m :: ms), fs, _ => read_members (m :: ms) [] fs (by simp)

/-- The rest of an array is read. -/
theorem read_elements : ∀ (vs us : List Json) (fs : List Frame) (fresh : Bool), vs ≠ [] →
    read ⟨.array us :: fs, .value fresh⟩ (elementTokens vs ++ [.closeBracket]) =
      some ⟨fs, .after (.array (us.reverse ++ vs))⟩
  | [], _, _, _, h => absurd rfl h
  | [v], us, fs, fresh, _ => by
    rw [elementTokens, read_append, read_tokens v, Option.bind_some]
    simp [read, feed, feedAfter]
  | v :: w :: vs, us, fs, fresh, _ => by
    have htokens : elementTokens (v :: w :: vs) =
        v.tokens ++ .comma :: elementTokens (w :: vs) := by
      simp [elementTokens]
    rw [htokens, List.append_assoc, read_append, read_tokens v, Option.bind_some, List.cons_append,
      read_cons]
    have hrest := read_elements (w :: vs) (v :: us) fs false (by simp)
    simpa [feed, feedAfter] using hrest

/-- The rest of an object is read. -/
theorem read_members : ∀ (ms us : List (Option String × Json)) (fs : List Frame), ms ≠ [] →
    read ⟨fs, .name us⟩ (memberTokens ms ++ [.closeBrace]) =
      some ⟨fs, .after (.object (us.reverse ++ ms))⟩
  | [], _, _, h => absurd rfl h
  | [(k, v)], us, fs, _ => by
    rw [memberTokens, List.cons_append, List.cons_append, read_key, read_append, read_tokens v,
      Option.bind_some]
    simp [read, feed, feedAfter]
  | (k, v) :: m :: ms, us, fs, _ => by
    have htokens : memberTokens ((k, v) :: m :: ms) =
        .text k :: .colon :: (v.tokens ++ .comma :: memberTokens (m :: ms)) := by
      simp [memberTokens]
    rw [htokens, List.cons_append, List.cons_append, read_key, List.append_assoc, read_append,
      read_tokens v, Option.bind_some, List.cons_append, read_cons]
    have hrest := read_members (m :: ms) ((k, v) :: us) fs (by simp)
    simpa [feed, feedAfter] using hrest

end

end Reader

/-! ### No two words meet in a value -/

/-- What is not a word keeps two lists of tokens apart. -/
theorem Separate.append_cons {t : Token} {ts ts' : List Token} (h : Separate ts)
    (ht : t.isWord = false) (h' : Separate ts') : Separate (ts ++ t :: ts') := by
  refine List.isChain_split.2 ⟨h.append (.singleton t) ?_, List.isChain_cons.2 ⟨?_, h'⟩⟩
  · rintro _ - _ ⟨rfl⟩ -
    exact ht
  · intro _ _ hword
    exact nomatch ht.symm.trans hword

theorem Separate.cons {t : Token} {ts : List Token} (ht : t.isWord = false) (h : Separate ts) :
    Separate (t :: ts) := Separate.append_cons .nil ht h

mutual

theorem separate_tokens : ∀ v : Json, Separate v.tokens
  | null | bool _ | number _ | text _ => .singleton _
  | array vs => .cons rfl ((separate_elementTokens vs).append_cons rfl .nil)
  | object ms => .cons rfl ((separate_memberTokens ms).append_cons rfl .nil)

/-- No two words meet between the brackets of an array, since commas stand between elements. -/
theorem separate_elementTokens : ∀ vs : List Json, Separate (elementTokens vs)
  | [] => .nil
  | [v] => separate_tokens v
  | v :: w :: vs => (separate_tokens v).append_cons rfl (separate_elementTokens (w :: vs))

theorem separate_memberTokens : ∀ ms : List (Option String × Json), Separate (memberTokens ms)
  | [] => .nil
  | [(_, v)] => .cons rfl (.cons rfl (separate_tokens v))
  | (_, v) :: m :: ms =>
    .cons rfl (.cons rfl ((separate_tokens v).append_cons rfl (separate_memberTokens (m :: ms))))

end

/-! ### The values of texts -/

/-- **A value is read from its texts**, and from no others. -/
theorem ofText?_eq_some_iff {s : String} {v : Json} :
    ofText? s = some v ↔ Spells v.tokens s.toList := by
  constructor
  · intro h
    obtain ⟨ts, hts, hread⟩ := Option.bind_eq_some_iff.1 h
    rw [← tokens_eq_of_read hread]
    exact Token.spells_of_ofText? hts
  · intro h
    have hread : v.tokens.foldlM Reader.feed {} = some ⟨[], .after v⟩ :=
      Reader.read_tokens v [] false
    rw [ofText?, Token.ofText?_of_spells h (separate_tokens v), Option.bind_some, hread]
    rfl

end LayeredRights.Json
