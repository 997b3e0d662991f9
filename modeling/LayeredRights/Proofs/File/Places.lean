import LayeredRights.Proofs.File.Frames

/-!
# Where a path with a suffix leads

A text put at the end of a path changes its last name, if the text has no slash in it. So where
there is a file at the end of a path, the path with the suffix leads to another name in the same
directory (`FileTree.exists_located`). It takes a file system as there are, in which whatever stands
somewhere stands in a directory (`FileTree.Rooted`): where a directory could lie in a file, a path
that ends with two dots could lead to that file.

In such a file system a file that can be read can be written again (`FileTree.Located.target_eq`),
and a suffix of at least one character that is not a slash keeps the two paths apart.

The last name of a path need not be its last characters. A slash at the end, one dot and two dots
all lead to directories, so that what remains is a proper name, and a proper name with more
characters at its end is proper too (`FileTree.IsProper.append`). That much is about text. What the
walk through the directories has to do with it is only that it goes name by name
(`FileTree.walk_append`), so that everything before the last name leads to the same directory with
the suffix and without it.
-/

namespace LayeredRights

/-! ### Cutting -/

theorem Text.cut_append_cons {α : Type} {isCut : α → Bool} {c : α} (hc : isCut c = true)
    (as bs : List α) : Text.cut isCut (as ++ c :: bs) = Text.cut isCut as ++ Text.cut isCut bs := by
  induction as with
  | nil => simp [Text.cut, hc]
  | cons a as ih =>
    cases ha : isCut a with
    | true => simp [Text.cut, ha, ih]
    | false =>
      obtain ⟨p, ps, hps⟩ := List.exists_cons_of_ne_nil (Text.cut_ne_nil isCut as)
      simp [Text.cut, ha, ih, hps]

/-- The end of a list from its last cut on. -/
theorem Text.exists_end_of_cut {α : Type} (isCut : α → Bool) (as : List α) :
    ∃ last, (∀ a ∈ last, isCut a = false) ∧
      (as = last ∨ ∃ before c, isCut c = true ∧ as = before ++ c :: last) := by
  induction as with
  | nil => exact ⟨[], by simp, .inl rfl⟩
  | cons a as ih =>
    obtain ⟨last, hlast, rfl | ⟨before, c, hc, rfl⟩⟩ := ih
    · cases ha : isCut a with
      | true => exact ⟨as, hlast, .inr ⟨[], a, ha, rfl⟩⟩
      | false => exact ⟨a :: as, List.forall_mem_cons.2 ⟨ha, hlast⟩, .inl rfl⟩
    · exact ⟨last, hlast, .inr ⟨a :: before, c, hc, rfl⟩⟩

/-- What is put at the end of a list makes a difference to the last part only. -/
theorem Text.exists_cut_append {α : Type} (isCut : α → Bool) (as : List α) :
    ∃ parts last, last <:+ as ∧ (∀ a ∈ last, isCut a = false) ∧
      ∀ bs, (∀ b ∈ bs, isCut b = false) → Text.cut isCut (as ++ bs) = parts ++ [last ++ bs] := by
  obtain ⟨last, hlast, rfl | ⟨before, c, hc, rfl⟩⟩ := Text.exists_end_of_cut isCut as
  · exact ⟨[], as, List.suffix_rfl, hlast, fun bs hbs ↦
      Text.cut_eq_singleton (List.forall_mem_append.2 ⟨hlast, hbs⟩)⟩
  · refine ⟨Text.cut isCut before, last, ⟨before ++ [c], by simp⟩, hlast, fun bs hbs ↦ ?_⟩
    rw [List.append_assoc, List.cons_append, Text.cut_append_cons hc,
      Text.cut_eq_singleton (List.forall_mem_append.2 ⟨hlast, hbs⟩)]

namespace FileTree

variable {t t' : FileTree} {path suffix : String} {place q : List String} {n : List Char}

/-! ### Walking to the last name -/

/-- Whatever stands somewhere stands in a directory. -/
def Rooted (t : FileTree) : Prop :=
  ∀ place, t.node? place ≠ none → t.node? place.dropLast = some .directory

/-- A file system without directories, its root apart. -/
theorem rooted_of_flat (h : ∀ x ∈ t.nodes, x.1.dropLast = []) : t.Rooted := by
  intro place hplace
  suffices hflat : place.dropLast = [] by
    rw [hflat]
    rfl
  by_cases hroot : place = []
  · rw [hroot, List.dropLast_nil]
  · rw [node?, if_neg hroot, ne_eq, Option.map_eq_none_iff] at hplace
    obtain ⟨x, hx⟩ := Option.ne_none_iff_exists'.1 hplace
    have hplace : x.1 = place := by simpa using List.find?_some hx
    rw [← hplace]
    exact h x (List.mem_of_find?_eq_some hx)

theorem walk_append {p : List String} (ns ms : List (List Char)) :
    t.walk p (ns ++ ms) = (t.walk p ns).bind fun q ↦ t.walk q ms := by
  induction ns generalizing p with
  | nil => rfl
  | cons n ns ih =>
    rw [List.cons_append, walk, walk]
    cases t.enter p with
    | error e => rfl
    | ok _ =>
      dsimp only
      split
      · exact ih
      · split <;> exact ih

/-- A name that stands for nothing but itself. -/
def IsProper (n : List Char) : Prop := n ≠ [] ∧ n ≠ ['.'] ∧ n ≠ ['.', '.']

/-- A proper name leads into the directory, whether or not there is something of that name. -/
theorem walk_singleton (hq : t.node? q = some .directory) (hn : IsProper n) :
    t.walk q [n] = .ok (q ++ [String.ofList n]) := by
  obtain ⟨hempty, hdot, hdots⟩ := hn
  simp [walk, enter_eq_ok_iff.2 hq, hempty, hdot, hdots]

/-- A proper name stays one with a text at its end. -/
theorem IsProper.append (hn : IsProper n) (ms : List Char) : IsProper (n ++ ms) := by
  obtain ⟨hempty, hdot, hdots⟩ := hn
  refine ⟨by simp [hempty], fun heq ↦ ?_, fun heq ↦ ?_⟩
  · rcases List.append_eq_singleton_iff.1 heq with ⟨h, -⟩ | ⟨h, -⟩
    · exact hempty h
    · exact hdot h
  · rcases List.append_eq_cons_iff.1 heq with ⟨h, -⟩ | ⟨as, rfl, h⟩
    · exact hempty h
    · rcases List.append_eq_singleton_iff.1 h.symm with ⟨rfl, -⟩ | ⟨rfl, -⟩
      · exact hdot rfl
      · exact hdots rfl

/-- A path that is not empty is walked from where it begins, whatever is put at its end. -/
theorem exists_locate_append (hpath : path.toList ≠ []) : ∃ start cs, cs <:+ path.toList ∧
    ∀ suffix : String, t.locate (path ++ suffix) = t.walk start (names (cs ++ suffix.toList)) := by
  obtain ⟨c, cs, hcs⟩ := List.exists_cons_of_ne_nil hpath
  by_cases hc : c = '/'
  · subst hc
    refine ⟨[], cs, hcs ▸ List.suffix_cons _ cs, fun suffix ↦ ?_⟩
    simp [locate, hcs]
  · refine ⟨t.workingDirectory, c :: cs, hcs ▸ List.suffix_rfl, fun suffix ↦ ?_⟩
    unfold locate
    rw [String.toList_append, hcs]
    split
    · next heq => exact nomatch heq
    · next heq => exact absurd (List.cons.inj heq).1 hc
    · rfl

/-- The path leads to a name in a directory, and with a text at its end to the name with that text
at its end. -/
structure Located (t : FileTree) (path : String) (q : List String) (n : List Char) : Prop where
  proper : IsProper n
  directory : t.node? q = some .directory
  endsWithSlash : endsWithSlash path = false
  locate : ∀ suffix : String, '/' ∉ suffix.toList →
    t.locate (path ++ suffix) = .ok (q ++ [String.ofList (n ++ suffix.toList)])

/-- **The path of a file** leads to a name in a directory. -/
theorem exists_located (ht : t.Rooted) {bytes : ByteArray} (hlocate : t.locate path = .ok place)
    (hfile : t.node? place = some (.file bytes)) :
    ∃ q n, t.Located path q n ∧ place = q ++ [String.ofList n] := by
  have hpath : path.toList ≠ [] := fun h ↦ by simp [locate, h] at hlocate
  obtain ⟨start, cs, hcs, hwalk⟩ := exists_locate_append (t := t) hpath
  obtain ⟨parts, n, hn, huncut, hcut⟩ := Text.exists_cut_append (· = '/') cs
  have hsuffix : ∀ suffix : String, '/' ∉ suffix.toList → t.locate (path ++ suffix) =
      (t.walk start parts).bind fun q ↦ t.walk q [n ++ suffix.toList] := by
    intro suffix hslash
    have huncut' : ∀ c ∈ suffix.toList, decide (c = '/') = false := fun c hc ↦
      decide_eq_false fun heq ↦ hslash (heq ▸ hc)
    rw [hwalk, names, hcut _ huncut', walk_append]
  obtain ⟨q, hq, hlast⟩ : ∃ q, t.walk start parts = .ok q ∧ t.walk q [n] = .ok place := by
    have hwhole := hsuffix "" (by simp)
    rw [String.append_empty, hlocate] at hwhole
    cases hparts : t.walk start parts with
    | error e => exact nomatch hparts ▸ hwhole
    | ok q =>
      rw [hparts] at hwhole
      have hlast : t.walk q [n ++ "".toList] = .ok place := hwhole.symm
      exact ⟨q, rfl, by simpa using hlast⟩
  -- a name is looked for in a directory only
  have hdirectory : t.node? q = some .directory := by
    rw [← enter_eq_ok_iff]
    cases henter : t.enter q with
    | error e => simp [walk, henter] at hlast
    | ok _ => rfl
  -- any other last name would lead to a directory
  have hproper : IsProper n := by
    refine ⟨?_, ?_, ?_⟩ <;> rintro rfl <;>
      simp only [walk, enter_eq_ok_iff.2 hdirectory] at hlast
    · obtain rfl : q = place := by simpa using hlast
      exact nomatch hdirectory.symm.trans hfile
    · obtain rfl : q = place := by simpa using hlast
      exact nomatch hdirectory.symm.trans hfile
    · obtain rfl : q.dropLast = place := by simpa using hlast
      exact nomatch (ht q (by simp [hdirectory])).symm.trans hfile
  have hplace : place = q ++ [String.ofList n] :=
    Except.ok.inj (hlast.symm.trans (walk_singleton hdirectory hproper))
  refine ⟨q, n, ⟨hproper, hdirectory, ?_, fun suffix hslash ↦ ?_⟩, hplace⟩
  · obtain ⟨before, hbefore⟩ := hn.trans hcs
    have hgetLast : path.toList.getLast? = some (n.getLast hproper.1) := by
      rw [← hbefore, List.getLast?_append, List.getLast?_eq_some_getLast hproper.1, Option.some_or]
    simpa [FileTree.endsWithSlash, hgetLast] using huncut _ (List.getLast_mem hproper.1)
  · rw [hsuffix suffix hslash, hq]
    exact walk_singleton hdirectory (hproper.append _)

/-! ### Files at the end of such paths -/

namespace Located

variable (hl : t.Located path q n)
include hl

theorem locate_self : t.locate path = .ok (q ++ [String.ofList n]) := by
  have h := hl.locate "" (by simp)
  rwa [String.append_empty, String.toList_empty, List.append_nil] at h

/-- The path with a suffix leads to a name in the same directory. -/
theorem append (hslash : '/' ∉ suffix.toList) :
    t.Located (path ++ suffix) q (n ++ suffix.toList) where
  proper := hl.proper.append _
  directory := hl.directory
  endsWithSlash := by
    have hpath := hl.endsWithSlash
    simp only [FileTree.endsWithSlash, decide_eq_false_iff_not] at hpath ⊢
    rw [String.toList_append, List.getLast?_append]
    cases hlast : suffix.toList.getLast? with
    | none => rwa [Option.none_or]
    | some c =>
      rw [Option.some_or]
      rintro ⟨rfl⟩
      exact hslash (List.mem_of_getLast? hlast)
  locate suffix' hslash' := by
    rw [String.append_assoc, hl.locate (suffix ++ suffix') (by simp [hslash, hslash']),
      String.toList_append, List.append_assoc]

/-- It stays so while no directory comes or goes. -/
theorem of_sameDirectories (h : t.SameDirectories t') : t'.Located path q n where
  proper := hl.proper
  directory := (h.directory q).2 hl.directory
  endsWithSlash := hl.endsWithSlash
  locate suffix hslash := h.locate_iff.2 (hl.locate suffix hslash)

/-- Whatever stands there, a directory apart, can be written over. -/
theorem target_eq (hnode : t.node? (q ++ [String.ofList n]) ≠ some .directory) :
    t.target path = .ok (q ++ [String.ofList n]) := by
  have hslash : ¬FileTree.endsWithSlash path = true := by simp [hl.endsWithSlash]
  have henter : t.enter (q ++ [String.ofList n]).dropLast = .ok () := by
    rw [List.dropLast_concat, enter_eq_ok_iff]
    exact hl.directory
  rw [target, if_neg hslash, hl.locate_self]
  dsimp only
  rw [henter]
  split
  · next h => exact absurd h hnode
  · rfl

/-- **A suffix keeps paths apart**, if there is a character in it and no slash. -/
theorem apart (hne : suffix ≠ "") (hslash : '/' ∉ suffix.toList) :
    t.Apart path (path ++ suffix) := by
  intro place hplace hplace'
  have hsame : q ++ [String.ofList n] = q ++ [String.ofList (n ++ suffix.toList)] := by
    have h : (.ok (q ++ [String.ofList n]) : Except IoError _) = .ok place :=
      hl.locate_self.symm.trans hplace
    have h' : (.ok (q ++ [String.ofList (n ++ suffix.toList)]) : Except IoError _) = .ok place :=
      (hl.locate suffix hslash).symm.trans hplace'
    exact Except.ok.inj (h.trans h'.symm)
  have hnames : n = n ++ suffix.toList :=
    String.ofList_injective (List.singleton_inj.1 (List.append_cancel_left hsame))
  have hempty : suffix.toList = [] := List.self_eq_append_right.1 hnames
  exact hne (by simpa using hempty)

end Located

end FileTree

end LayeredRights
