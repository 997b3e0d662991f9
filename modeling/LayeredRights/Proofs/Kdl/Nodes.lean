import LayeredRights.Kdl.Node.Reader
import LayeredRights.Proofs.Kdl.Scanning

/-!
# Reading written nodes

Between a list of nodes and its text stand the tokens of the text. They are read back to the nodes
whatever the nodes are (`Node.ofTokens?_tokens`). The text is scanned to them when all entries are
strings and every string reads back, and is refused when one does not
(`Scanner.scan_nodes`). Together they are `Node.ofText?_writeDocument`.

The tokens of nodes (`Node.tokens`) are written down here a second time, next to the characters of
nodes, because both halves need them: the reader is fed tokens and never sees characters. Nodes nest
through options and lists, so the definitions over them come in threes, one for a node, one for a
block and one for a list, and so do the inductions.

A reader inside a node may be in one of two phases, since a string at the end is an argument or a
key, as the next token decides. `InNode` takes the two together. The lemmas about it say that a
space, a newline, an opening brace and a value do the same in both of them, and nothing after them
looks at the phase again.
-/

namespace LayeredRights.Kdl

/-! ### The tokens of a written node -/

/-- The token of a value. -/
def Value.token : Value → Token
  | text s => .text s
  | number l => .number l
  | keyword k => .keyword k

/-- The tokens of an entry, with the space before it. -/
def Entry.tokens : Entry → List Token
  | argument v => [.space, v.token]
  | property k v => [.space, .text k, .equals, v.token]

/-- The tokens of the spaces in front of a node. -/
def indentTokens (depth : Nat) : List Token := List.replicate (4 * depth) .space

mutual

/-- The tokens of the lines of a node. -/
def Node.tokens (depth : Nat) : Node → List Token
  | .mk name entries block =>
    indentTokens depth ++ .text name :: (entries.flatMap Entry.tokens ++
      (blockTokens depth block ++ [.newline]))

/-- The tokens of a block. -/
def blockTokens (depth : Nat) : Option (List Node) → List Token
  | none => []
  | some ns =>
    .space :: .openBrace :: .newline ::
      (nodesTokens (depth + 1) ns ++ (indentTokens depth ++ [.closeBrace]))

/-- The tokens of the lines of a list of nodes. -/
def nodesTokens (depth : Nat) : List Node → List Token
  | [] => []
  | n :: ns => n.tokens depth ++ nodesTokens depth ns

end

/-! ### From tokens to nodes -/

namespace Reader

/-- What a reader makes of tokens. -/
def read (r : Reader) (ts : List Token) : Option Reader := ts.foldlM feed r

theorem read_append (r : Reader) (ts ts' : List Token) :
    r.read (ts ++ ts') = (r.read ts).bind fun r' ↦ r'.read ts' := by
  simp [read, List.foldlM_append]

theorem read_cons (r : Reader) (t : Token) (ts : List Token) :
    r.read (t :: ts) = (r.feed t).bind fun r' ↦ r'.read ts := by
  simp [read, List.foldlM_cons]

/-- The reader is in a node, after its name or after an entry. A string at the end is an argument
unless an equals sign follows, which is then put off. -/
inductive InNode (d : Draft) (spaced : Bool) : Phase → Prop
  | body : InNode d spaced (.body d spaced)
  | key (d₀ : Draft) (s : String) (h : d = d₀.put ⟨false, none⟩ (.text s)) :
      InNode d spaced (.key d₀ false s spaced)

section InNode

variable {d : Draft} {spaced : Bool} {p : Phase} (l : Level) (fs : List Frame)

/-- A space leaves the reader in the node, and a value may come next. -/
theorem InNode.exists_feed_space (h : InNode d spaced p) :
    ∃ p', feed ⟨l, fs, p⟩ .space = some ⟨l, fs, p'⟩ ∧ InNode d true p' := by
  cases h with
  | body => exact ⟨_, rfl, .body⟩
  | key d₀ s h => exact ⟨_, rfl, .key d₀ s h⟩

/-- A newline ends the node, and a string at the end of it was an argument. -/
theorem InNode.feed_newline (h : InNode d spaced p) :
    feed ⟨l, fs, p⟩ .newline = some ⟨l.add d true, fs, .ready⟩ := by
  cases h with
  | body => rfl
  | key d₀ s h => subst h; rfl

/-- A brace sets the node aside and begins a level of its own, unless the node had its block. -/
theorem InNode.feed_openBrace (h : InNode d spaced p) (hblock : d.block = none) :
    feed ⟨l, fs, p⟩ .openBrace = some ⟨{}, ⟨l, d, false⟩ :: fs, .ready⟩ := by
  cases h with
  | body => simp [feed, feedBody, hblock, openBlock]
  | key d₀ s h =>
    subst h
    simp [feed, feedBody, hblock, openBlock]

/-- A value after a space begins an entry. -/
theorem InNode.feed_value (h : InNode d true p) (htail : d.tail = .entries) (v : Value) :
    feed ⟨l, fs, p⟩ v.token = feedEntry ⟨l, fs, p⟩ d false v.token := by
  cases h with
  | body => cases v <;> simp [feed, feedBody, Value.token, htail]
  | key d₀ s h =>
    subst h
    cases v <;> simp [feed, feedBody, Value.token, htail]

/-- The tokens of an entry add the entry, whatever came before in the node. -/
theorem InNode.exists_read_entry (h : InNode d spaced p) (htail : d.tail = .entries) (e : Entry) :
    ∃ p', read ⟨l, fs, p⟩ e.tokens = some ⟨l, fs, p'⟩ ∧
      InNode { d with entries := e :: d.entries } false p' := by
  obtain ⟨p₁, hspace, h₁⟩ := h.exists_feed_space l fs
  have hvalue := h₁.feed_value l fs htail
  cases e with
  | argument v =>
    rw [Entry.tokens, read_cons, hspace, Option.bind_some, read_cons, hvalue]
    cases v with
    | text s => exact ⟨_, rfl, .key d s rfl⟩
    | number literal => exact ⟨_, rfl, .body⟩
    | keyword k => exact ⟨_, rfl, .body⟩
  | property k v =>
    -- the key is an argument until the equals sign comes
    have hkey : feed ⟨l, fs, p₁⟩ (.text k) = some ⟨l, fs, .key d false k false⟩ :=
      hvalue (.text k)
    rw [Entry.tokens, read_cons, hspace, Option.bind_some, read_cons, hkey]
    cases v <;> exact ⟨_, rfl, .body⟩

/-- The tokens of entries add the entries, which a node holds newest first. -/
theorem InNode.exists_read_entries (h : InNode d false p) (htail : d.tail = .entries)
    (entries : List Entry) : ∃ p', read ⟨l, fs, p⟩ (entries.flatMap Entry.tokens) =
      some ⟨l, fs, p'⟩ ∧ InNode { d with entries := entries.reverse ++ d.entries } false p' := by
  induction entries generalizing d p with
  | nil => exact ⟨p, rfl, h⟩
  | cons e entries ih =>
    obtain ⟨p₁, hentry, h₁⟩ := h.exists_read_entry l fs htail e
    obtain ⟨p₂, hrest, h₂⟩ := ih h₁ htail
    refine ⟨p₂, ?_, by simpa using h₂⟩
    rw [List.flatMap_cons, read_append, hentry, Option.bind_some, hrest]

end InNode

theorem read_indent (depth : Nat) (l : Level) (fs : List Frame) (ts : List Token) :
    read ⟨l, fs, .ready⟩ (indentTokens depth ++ ts) = read ⟨l, fs, .ready⟩ ts := by
  rw [indentTokens]
  induction 4 * depth with
  | zero => rfl
  | succ n ih =>
    rw [List.replicate_succ, List.cons_append, read_cons]
    exact ih

mutual

/-- The lines of a node add the node to its level. -/
theorem read_node (depth : Nat) (ns : List Node) (fs : List Frame) (ts : List Token) : (n : Node) →
    read ⟨⟨ns, false⟩, fs, .ready⟩ (n.tokens depth ++ ts) = read ⟨⟨n :: ns, false⟩, fs, .ready⟩ ts
  | .mk name entries block => by
    -- the name begins the node, to which first the entries are added and then the block
    have hname : InNode { dropped := false, name := name } false
        (.body { dropped := false, name := name } false) := .body
    obtain ⟨p₁, hentries, h₁⟩ := hname.exists_read_entries ⟨ns, false⟩ fs rfl entries
    obtain ⟨p₂, tail, hblock, h₂⟩ := exists_read_block depth ⟨ns, false⟩ fs h₁ rfl block
    rw [Node.tokens, List.append_assoc, read_indent, List.cons_append, read_cons]
    show read ⟨⟨ns, false⟩, fs, .body { dropped := false, name := name } false⟩ _ = _
    rw [List.append_assoc, read_append, hentries, Option.bind_some, List.append_assoc, read_append,
      hblock, Option.bind_some, List.cons_append, read_cons, h₂.feed_newline]
    simp [Level.add, Draft.node]

/-- A block becomes that of the node it stands in. -/
theorem exists_read_block (depth : Nat) (l : Level) (fs : List Frame) {d : Draft} {p : Phase}
    (h : InNode d false p) (hblock : d.block = none) : (block : Option (List Node)) →
    ∃ p' tail, read ⟨l, fs, p⟩ (blockTokens depth block) = some ⟨l, fs, p'⟩ ∧
      InNode { d with block := block, tail := tail } false p'
  | none => ⟨p, d.tail, rfl, by rw [← hblock]; exact h⟩
  | some ns => by
    -- inside the braces the node is a frame, and a level of its own is read
    obtain ⟨p₁, hspace, h₁⟩ := h.exists_feed_space l fs
    have hnodes := read_nodes (depth + 1) [] (⟨l, d, false⟩ :: fs)
      (indentTokens depth ++ [.closeBrace]) ns
    refine ⟨.body { d with block := some ns, tail := .block } false, .block, ?_, .body⟩
    rw [blockTokens, read_cons, hspace, Option.bind_some, read_cons, h₁.feed_openBrace l fs hblock,
      Option.bind_some, read_cons]
    show read ⟨⟨[], false⟩, ⟨l, d, false⟩ :: fs, .ready⟩ _ = _
    rw [hnodes, read_indent, read_cons]
    simp [feed, feedReady, Reader.closeBlock, Draft.closeBlock, read]

/-- The lines of nodes add the nodes to their level, newest first. -/
theorem read_nodes (depth : Nat) (ns : List Node) (fs : List Frame) (ts : List Token) :
    (ns' : List Node) → read ⟨⟨ns, false⟩, fs, .ready⟩ (nodesTokens depth ns' ++ ts) =
      read ⟨⟨ns'.reverse ++ ns, false⟩, fs, .ready⟩ ts
  | [] => rfl
  | n :: ns' => by
    rw [nodesTokens, List.append_assoc, read_node depth ns fs _ n, read_nodes depth _ fs ts ns']
    simp

end

end Reader

/-- **The tokens of nodes are read to the nodes.** -/
theorem Node.ofTokens?_tokens (ns : List Node) : Node.ofTokens? (nodesTokens 0 ns) = some ns := by
  have hread := Reader.read_nodes 0 [] [] [] ns
  rw [List.append_nil, Reader.read, Reader.read, List.foldlM_nil] at hread
  rw [Node.ofTokens?]
  show (List.foldlM Reader.feed ⟨⟨[], false⟩, [], .ready⟩ (nodesTokens 0 ns)).bind _ = _
  rw [hread]
  simp [Reader.finish]

/-! ### From text to tokens -/

/-- An entry that is a string. -/
def Entry.isText : Entry → Bool
  | argument (.text _) => true
  | _ => false

/-- The strings of an entry. -/
def Entry.strings : Entry → List String
  | argument v => v.text?.toList
  | property k v => k :: v.text?.toList

mutual

/-- All entries of the node and of the nodes below it are strings. -/
def Node.isTextual : Node → Bool
  | .mk _ entries block => entries.all Entry.isText && blockIsTextual block

/-- All entries in a block are strings. -/
def blockIsTextual : Option (List Node) → Bool
  | none => true
  | some ns => nodesAreTextual ns

/-- All entries of the nodes and of those below them are strings. -/
def nodesAreTextual : List Node → Bool
  | [] => true
  | n :: ns => n.isTextual && nodesAreTextual ns

end

mutual

/-- The names and strings of a node and of the nodes below it, in the order in which they stand. -/
def Node.strings : Node → List String
  | .mk name entries block => name :: (entries.flatMap Entry.strings ++ blockStrings block)

/-- The names and strings in a block. -/
def blockStrings : Option (List Node) → List String
  | none => []
  | some ns => nodesStrings ns

/-- The names and strings of nodes and of those below them. -/
def nodesStrings : List Node → List String
  | [] => []
  | n :: ns => n.strings ++ nodesStrings ns

end

theorem nodesAreTextual_eq_all (ns : List Node) : nodesAreTextual ns = ns.all Node.isTextual := by
  induction ns with
  | nil => rfl
  | cons n ns ih => rw [nodesAreTextual, List.all_cons, ih]

theorem nodesStrings_eq_flatMap (ns : List Node) : nodesStrings ns = ns.flatMap Node.strings := by
  induction ns with
  | nil => rfl
  | cons n ns ih => rw [nodesStrings, List.flatMap_cons, ih]

namespace Scanner

theorem scan_indent (depth : Nat) (ts : List Token) (rest : List Char) :
    scan ⟨.between false, ts⟩ (indent depth ++ rest) =
      scan ⟨.between false, indentTokens depth ++ ts⟩ rest := by
  rw [indent, indentTokens]
  induction 4 * depth generalizing ts with
  | zero => rfl
  | succ n ih =>
    rw [List.replicate_succ, List.cons_append, scan_cons]
    show scan ⟨.between false, .space :: ts⟩ _ = _
    -- the scanner holds tokens newest first, but a space more is a space more at either end
    rw [ih, List.replicate_succ', List.append_assoc]
    rfl

/-- A name or a string, and the strings after it up to a character that ends the last of them. -/
theorem scan_words {c : Char} {t : Token} (he : Ends c t) {entries : List Entry}
    (h : entries.all Entry.isText = true) (s : String) (ts : List Token) (rest : List Char) :
    scan ⟨.between false, ts⟩
        (writeString s ++ (entries.flatMap (fun e ↦ ' ' :: e.write) ++ c :: rest)) =
      if (s :: entries.flatMap Entry.strings).all isReadable then
        scan ⟨.between false, t :: ((entries.flatMap Entry.tokens).reverse ++ .text s :: ts)⟩ rest
      else none := by
  induction entries generalizing s ts with
  | nil => simpa using scan_writeString he s ts rest
  | cons e entries ih =>
    rw [List.all_cons, Bool.and_eq_true] at h
    obtain ⟨he', hrest⟩ := h
    -- the space that ends this string belongs to the entry after it
    match e, he' with
    | .argument (.text a), _ =>
      have hnext := ih hrest a (.space :: .text s :: ts)
      rw [List.flatMap_cons, List.cons_append, List.cons_append, List.append_assoc]
      show scan _ (writeString s ++ ' ' :: (writeString a ++ _)) = _
      have hstrings : (.argument (.text a) :: entries).flatMap Entry.strings =
          a :: entries.flatMap Entry.strings := rfl
      have htokens : (.argument (.text a) :: entries).flatMap Entry.tokens =
          .space :: .text a :: entries.flatMap Entry.tokens := rfl
      rw [scan_writeString .space, hnext, hstrings, htokens, List.all_cons (a := s)]
      cases isReadable s with
      | false => rfl
      | true => simp only [Bool.true_and, List.reverse_cons, List.append_assoc]; rfl

mutual

/-- **The lines of a node are scanned to its tokens, or refused.** -/
theorem scan_node (depth : Nat) (ts : List Token) (rest : List Char) : (n : Node) →
    n.isTextual = true → scan ⟨.between false, ts⟩ (n.write depth ++ rest) =
      if n.strings.all isReadable then scan ⟨.between false, (n.tokens depth).reverse ++ ts⟩ rest
      else none
  | .mk name entries none, h => by
    have hentries : entries.all Entry.isText = true := by
      simpa [Node.isTextual, blockIsTextual] using h
    have hwords := scan_words .newline hentries name (indentTokens depth ++ ts) rest
    rw [Node.write, writeBlock, List.append_nil, List.append_assoc, List.append_assoc,
      List.append_assoc, scan_indent]
    show scan _ (writeString name ++ (entries.flatMap (fun e ↦ ' ' :: e.write) ++ '\n' :: rest)) = _
    rw [hwords, Node.strings, blockStrings, List.append_nil, Node.tokens, blockTokens,
      List.nil_append]
    simp [indentTokens]
  | .mk name entries (some ns), h => by
    rw [Node.isTextual, blockIsTextual, Bool.and_eq_true] at h
    let inside : List Token := .space ::
      ((entries.flatMap Entry.tokens).reverse ++ .text name :: (indentTokens depth ++ ts))
    have hwords := scan_words .space h.1 name (indentTokens depth ++ ts)
      ('{' :: '\n' :: (writeNodes (depth + 1) ns ++ (indent depth ++ '}' :: '\n' :: rest)))
    have hnodes := scan_nodes (depth + 1) (.newline :: .openBrace :: inside)
      (indent depth ++ '}' :: '\n' :: rest) ns h.2
    -- the brace of the block and the newline after it
    have hopen : ∀ cs, scan ⟨.between false, inside⟩ ('{' :: '\n' :: cs) =
        scan ⟨.between false, .newline :: .openBrace :: inside⟩ cs := fun _ ↦ rfl
    have hclose : ∀ (ts : List Token) cs, scan ⟨.between false, ts⟩ ('}' :: '\n' :: cs) =
        scan ⟨.between false, .newline :: .closeBrace :: ts⟩ cs := fun _ _ ↦ rfl
    have hwrite : (Node.mk name entries (some ns)).write depth ++ rest =
        indent depth ++ (writeString name ++ (entries.flatMap (fun e ↦ ' ' :: e.write) ++
          ' ' :: '{' :: '\n' :: (writeNodes (depth + 1) ns ++
            (indent depth ++ '}' :: '\n' :: rest)))) := by
      simp [Node.write, writeBlock]
    have htokens : ((Node.mk name entries (some ns)).tokens depth).reverse ++ ts =
        .newline :: .closeBrace :: (indentTokens depth ++
          ((nodesTokens (depth + 1) ns).reverse ++ .newline :: .openBrace :: inside)) := by
      simp [Node.tokens, blockTokens, indentTokens, inside]
    have hstrings : (Node.mk name entries (some ns)).strings.all isReadable =
        ((name :: entries.flatMap Entry.strings).all isReadable &&
          (nodesStrings ns).all isReadable) := by
      rw [Node.strings, blockStrings, ← List.cons_append, List.all_append]
    rw [hwrite, scan_indent, hwords, hopen, hnodes, scan_indent, hclose, htokens, hstrings]
    cases (name :: entries.flatMap Entry.strings).all isReadable with
    | false => rfl
    | true => rfl

/-- **The lines of nodes are scanned to their tokens, or refused.** The first string that does not
read back decides, in whichever node it is. -/
theorem scan_nodes (depth : Nat) (ts : List Token) (rest : List Char) : (ns : List Node) →
    nodesAreTextual ns = true → scan ⟨.between false, ts⟩ (writeNodes depth ns ++ rest) =
      if (nodesStrings ns).all isReadable then
        scan ⟨.between false, (nodesTokens depth ns).reverse ++ ts⟩ rest
      else none
  | [], _ => rfl
  | n :: ns, h => by
    rw [nodesAreTextual, Bool.and_eq_true] at h
    rw [writeNodes, List.append_assoc, scan_node depth ts _ n h.1, scan_nodes depth _ rest ns h.2,
      nodesStrings, nodesTokens, List.all_append, List.reverse_append, List.append_assoc]
    cases n.strings.all isReadable <;> rfl

end

end Scanner

/-! ### From text to nodes -/

/-- Inside quotes carriage returns are escaped, and no bare word has one. -/
theorem not_mem_writeString (s : String) : '\r' ∉ writeString s := by
  by_cases hplain : isPlain s.toList
  · rw [writeString, if_pos hplain]
    exact fun hmem ↦ absurd (isWordChar_of_isPlain hplain _ hmem) (by decide)
  · have hbody : '\r' ∉ s.toList.flatMap writeChar := by
      intro hmem
      obtain ⟨c, -, hc⟩ := List.mem_flatMap.1 hmem
      by_cases hesc : isEscaped c
      · obtain rfl | rfl | rfl | rfl | rfl | rfl | rfl := mem_escaped_of_isEscaped hesc <;>
          exact absurd hc (by decide)
      · rw [writeChar_of_not_isEscaped (Bool.eq_false_iff.2 hesc)] at hc
        obtain rfl := List.mem_singleton.1 hc
        exact hesc (by decide)
    rw [writeString, if_neg hplain]
    simp [hbody]

/-- The spaces in front of a node have no carriage return. -/
theorem not_mem_indent (depth : Nat) : '\r' ∉ indent depth := by
  intro hmem
  exact absurd (List.eq_of_mem_replicate hmem) (by decide)

/-- Entries that are strings have none. Numbers would be written as they are, but no document has
any. -/
theorem not_mem_write_entries {entries : List Entry} (h : entries.all Entry.isText = true) :
    '\r' ∉ entries.flatMap fun e ↦ ' ' :: e.write := by
  intro hmem
  obtain ⟨e, he, hc⟩ := List.mem_flatMap.1 hmem
  match e, List.all_eq_true.1 h e he with
  | .argument (.text a), _ =>
    rcases List.mem_cons.1 hc with hc | hc
    · exact absurd hc (by decide)
    · exact not_mem_writeString a hc

mutual

/-- The lines of a node have none, so that newlines are unified one by one. -/
theorem not_mem_writeNode (depth : Nat) : (n : Node) → n.isTextual = true → '\r' ∉ n.write depth
  | .mk name entries block, h => by
    rw [Node.isTextual, Bool.and_eq_true] at h
    have hblock := not_mem_writeBlock depth block h.2
    simp [Node.write, not_mem_indent, not_mem_writeString, not_mem_write_entries h.1, hblock]

theorem not_mem_writeBlock (depth : Nat) : (block : Option (List Node)) →
    blockIsTextual block = true → '\r' ∉ writeBlock depth block
  | none, _ => by simp [writeBlock]
  | some ns, h => by
    have hnodes := not_mem_writeNodes (depth + 1) ns h
    simp [writeBlock, not_mem_indent, hnodes]

theorem not_mem_writeNodes (depth : Nat) : (ns : List Node) → nodesAreTextual ns = true →
    '\r' ∉ writeNodes depth ns
  | [], _ => by simp [writeNodes]
  | n :: ns, h => by
    rw [nodesAreTextual, Bool.and_eq_true] at h
    simp [writeNodes, not_mem_writeNode depth n h.1, not_mem_writeNodes depth ns h.2]

end

/-- No written document begins with a byte order mark. -/
theorem skipByteOrderMark_writeNodes (ns : List Node) :
    skipByteOrderMark (writeNodes 0 ns) = writeNodes 0 ns := by
  have hstring : ∀ (s : String) (rest : List Char),
      skipByteOrderMark (writeString s ++ rest) = writeString s ++ rest := by
    intro s rest
    by_cases hplain : isPlain s.toList
    · rw [writeString, if_pos hplain]
      cases hs : s.toList with
      | nil => rw [hs] at hplain; exact absurd hplain (by decide)
      | cons c cs =>
        refine if_neg fun hc ↦ ?_
        have hword := isWordChar_of_isPlain hplain c (by rw [hs]; exact List.mem_cons_self)
        rw [hc] at hword
        exact absurd hword (by decide)
    · -- a quote comes first
      rw [writeString, if_neg hplain]
      rfl
  -- the text begins with the name of the first node, as that is not indented
  cases ns with
  | nil => rfl
  | cons n ns =>
    obtain ⟨name, entries, block⟩ := n
    simp only [writeNodes, Node.write, indent, List.replicate_zero, Nat.mul_zero, List.nil_append,
      List.append_assoc, hstring]

/-- **Written nodes read back to themselves or not at all**, and which of the two happens depends on
the strings alone. -/
theorem Node.ofText?_writeDocument {ns : List Node} (h : nodesAreTextual ns = true) :
    Node.ofText? (writeDocument ns) =
      if (nodesStrings ns).all isReadable then some ns else none := by
  have hscan := Scanner.scan_nodes 0 [] [] ns h
  rw [List.append_nil, List.append_nil, Scanner.scan] at hscan
  rw [Node.ofText?, Token.ofText?, writeDocument, String.toList_ofList, Token.ofChars?,
    skipByteOrderMark_writeNodes, unifyNewlines_eq_map (not_mem_writeNodes 0 ns h), hscan]
  cases (nodesStrings ns).all isReadable with
  | false => rfl
  | true =>
    show (some (nodesTokens 0 ns).reverse.reverse).bind Node.ofTokens? = some ns
    rw [List.reverse_reverse, Option.bind_some, Node.ofTokens?_tokens]

end LayeredRights.Kdl
