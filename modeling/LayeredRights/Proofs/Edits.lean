import LayeredRights.Proofs.Entries
import LayeredRights.Proofs.Merge

/-!
# What becomes of an administrator's edits

An administrator edits a copy of the configuration in force. Committing it keeps the entries that
are modifications and combines them with the base document again. What that comes to is said key by
key, by the last edit that names the key: an upserted entry is in force as a modification, a removed
one is what the base document has under its key, and a key that no edit names is left as it was.

Profiles and user profiles are edited, saved and combined in the same way and apart from each other.
So all of it is said once, of a list of entries of some kind (`EntryKind`), and `Edit.ofProfile?`
and `Edit.ofUserProfile?` take a script of edits apart into the two. The induction over the script
is `EntryKind.find?_edited`, which rests on there being one entry for each key at any time.

An edit that removes an entry hands it out. No entry is lost but that one
(`Configuration.removeProfile_perm`), and what is looked up under its key afterwards is the business
of `EntryKind.find?_edit`.
-/

namespace LayeredRights

open LayeredRights.Configuration (replaceFirst takeFirst Edit)

/-! ### Look-up by a key in changed lists -/

section Keys

variable {α : Type} {key : α → String} {l : List α} {k : String}

/-- Replacing an element by one of the same key leaves the keys and their order alone, and otherwise
the key comes last. -/
theorem map_key_replaceFirst (a : α) (l : List α) :
    (replaceFirst (key · = key a) a l).map key =
      if key a ∈ l.map key then l.map key else l.map key ++ [key a] := by
  induction l with
  | nil => simp [replaceFirst]
  | cons b l ih =>
    by_cases hb : key b = key a
    · simp [replaceFirst, hb]
    · rw [replaceFirst, if_neg (by simpa using hb), List.map_cons, ih]
      by_cases ha : key a ∈ l.map key
      · rw [if_pos ha, if_pos (by simpa using .inr (by simpa using ha)), List.map_cons]
      · have hmem : key a ∉ (b :: l).map key := by
          rw [List.map_cons, List.mem_cons, not_or]
          exact ⟨Ne.symm hb, ha⟩
        rw [if_neg ha, if_neg hmem, List.map_cons, List.cons_append]

/-- Replacing or appending repeats no key. -/
theorem nodup_replaceFirst (h : (l.map key).Nodup) (a : α) :
    ((replaceFirst (key · = key a) a l).map key).Nodup := by
  rw [map_key_replaceFirst]
  split
  · exact h
  · next hmem =>
    refine List.nodup_append.2 ⟨h, List.nodup_singleton _, fun b hb c hc heq ↦ ?_⟩
    obtain rfl := List.mem_singleton.1 hc
    exact hmem (heq ▸ hb)

/-- What was put in is what is found under its key. -/
theorem find?_replaceFirst_self (a : α) (l : List α) :
    (replaceFirst (key · = key a) a l).find? (key · = key a) = some a := by
  induction l with
  | nil => simp [replaceFirst]
  | cons b l ih =>
    by_cases hb : key b = key a
    · simp [replaceFirst, hb]
    · simp [replaceFirst, hb, ih]

/-- Under another key the same is found as before, also if something of that key comes after what
was replaced. -/
theorem find?_replaceFirst_of_ne {a : α} (hne : key a ≠ k) (l : List α) :
    (replaceFirst (key · = key a) a l).find? (key · = k) = l.find? (key · = k) := by
  induction l with
  | nil => simp [replaceFirst, hne]
  | cons b l ih =>
    by_cases hb : key b = key a
    · simp [replaceFirst, hb, hne]
    · simp [replaceFirst, hb, List.find?_cons, ih]

/-- Where no key is repeated, removing the first entry of a key removes it altogether. -/
theorem find?_eraseP_self (h : (l.map key).Nodup) :
    (l.eraseP (key · = k)).find? (key · = k) = none := by
  induction l with
  | nil => rfl
  | cons b l ih =>
    obtain ⟨hb, hl⟩ := List.nodup_cons.1 h
    by_cases hbk : key b = k
    · subst hbk
      rw [List.eraseP_cons_of_pos (by simp), List.find?_eq_none]
      intro a ha heq
      have heq' : key a = key b := by simpa using heq
      exact hb (heq' ▸ List.mem_map_of_mem ha)
    · rw [List.eraseP_cons_of_neg (by simpa using hbk), List.find?_cons_of_neg (by simpa using hbk)]
      exact ih hl

/-- Removing the first entry of a key does not affect what is found under another. -/
theorem find?_eraseP_of_ne {k' : String} (hne : k' ≠ k) (l : List α) :
    (l.eraseP (key · = k')).find? (key · = k) = l.find? (key · = k) := by
  induction l with
  | nil => rfl
  | cons b l ih =>
    by_cases hb : key b = k'
    · have hbk : key b ≠ k := fun heq ↦ hne (hb.symm.trans heq)
      rw [List.eraseP_cons_of_pos (by simpa using hb), List.find?_cons_of_neg (by simpa using hbk)]
    · rw [List.eraseP_cons_of_neg (by simpa using hb), List.find?_cons, List.find?_cons, ih]

/-- What is taken out of a list and what is left are what there was. -/
theorem takeFirst_perm (p : α → Bool) (l : List α) :
    ((takeFirst p l).1.toList ++ (takeFirst p l).2).Perm l := by
  induction l with
  | nil => exact .refl _
  | cons b l ih =>
    by_cases hb : p b = true
    · simp [takeFirst, hb]
    · have hstep : (takeFirst p (b :: l)).1.toList ++ (takeFirst p (b :: l)).2 =
          (takeFirst p l).1.toList ++ b :: (takeFirst p l).2 := by
        simp [takeFirst, hb]
      rw [hstep]
      exact List.perm_middle.trans (ih.cons b)

/-- Where no key is repeated, looking among some of the entries is looking among all of them and
then asking whether what is found is one of those. -/
theorem find?_filter_of_nodup (h : (l.map key).Nodup) (p : α → Bool) :
    (l.filter p).find? (key · = k) = (l.find? (key · = k)).filter p := by
  have hfilter : ((l.filter p).map key).Nodup := h.sublist (List.filter_sublist.map key)
  ext a
  rw [find?_key_eq_some_iff hfilter, Option.filter_eq_some_iff, find?_key_eq_some_iff h,
    List.mem_filter, and_right_comm]

end Keys

/-! ### Kinds of entries -/

/-- Entries that have a key and carry the layer they are from. -/
structure EntryKind (α : Type) where
  key : α → String
  origin : α → Origin
  tag : Origin → α → α
  key_tag : ∀ o a, key (tag o a) = key a
  origin_tag : ∀ o a, origin (tag o a) = o
  tag_origin : ∀ a, tag (origin a) a = a

/-- Profiles have names. -/
def Profile.kind : EntryKind Profile where
  key := (·.name)
  origin := (·.origin)
  tag o p := p.tagged o
  key_tag _ _ := rfl
  origin_tag _ _ := rfl
  tag_origin _ := rfl

/-- User profiles have logins. -/
def UserProfile.kind : EntryKind UserProfile where
  key := (·.login)
  origin := (·.origin)
  tag o u := u.tagged o
  key_tag _ _ := rfl
  origin_tag _ _ := rfl
  tag_origin _ := rfl

/-- An edit of a list of entries. -/
inductive EntryEdit (α : Type)
  | upsert (a : α)
  | remove (k : String)

namespace EntryKind

variable {α : Type} (κ : EntryKind α)

/-- The first entry of a key. -/
def find? (l : List α) (k : String) : Option α := l.find? (κ.key · = k)

/-- No key is repeated. -/
def Distinct (l : List α) : Prop := (l.map κ.key).Nodup

/-- The key that an edit names. -/
def named : EntryEdit α → String
  | .upsert a => κ.key a
  | .remove k => k

/-- The entries after an edit. -/
def edit (l : List α) : EntryEdit α → List α
  | .upsert a => replaceFirst (κ.key · = κ.key a) (κ.tag .modification a) l
  | .remove k => l.eraseP (κ.key · = k)

/-- The entries after a script of edits. -/
def edited (l : List α) (es : List (EntryEdit α)) : List α := es.foldl κ.edit l

/-- The last edit of a script that names a key. -/
def last? (es : List (EntryEdit α)) (k : String) : Option (EntryEdit α) :=
  es.reverse.find? fun e ↦ κ.named e = k

/-- The administrator's entries. -/
def own (l : List α) : List α := l.filter (κ.origin · = .modification)

/-- The entries of a layer over those of the base document. -/
def overlaid (base layer : List α) : List α :=
  layer.map (κ.tag .modification) ++ (unshadowed κ.key base layer).map (κ.tag .factory)

variable {κ} {l base layer : List α}

/-! ### Edits, one by one and in a row -/

/-- An edit repeats no key. -/
theorem Distinct.edit (h : κ.Distinct l) (e : EntryEdit α) : κ.Distinct (κ.edit l e) := by
  cases e with
  | upsert a =>
    rw [EntryKind.edit, ← κ.key_tag .modification a]
    exact nodup_replaceFirst h _
  | remove k => exact h.sublist (List.eraseP_sublist.map κ.key)

/-- A script of edits repeats no key, so at any time the first entry of a key is the only one. -/
theorem Distinct.edited (h : κ.Distinct l) (es : List (EntryEdit α)) :
    κ.Distinct (κ.edited l es) := by
  induction es generalizing l with
  | nil => exact h
  | cons e es ih => exact ih (h.edit e)

/-- **One edit** decides what is found under the key that it names, and nothing else. -/
theorem find?_edit (h : κ.Distinct l) (e : EntryEdit α) (k : String) :
    κ.find? (κ.edit l e) k =
      if κ.named e = k then
        match e with
        | .upsert a => some (κ.tag .modification a)
        | .remove _ => none
      else κ.find? l k := by
  by_cases hk : κ.named e = k
  · rw [if_pos hk]
    -- the edit names the key
    subst hk
    cases e with
    | upsert a =>
      rw [edit, named, find?, ← κ.key_tag .modification a]
      exact find?_replaceFirst_self _ l
    | remove k' => exact find?_eraseP_self h
  -- the edit names another key
  · rw [if_neg hk]
    cases e with
    | upsert a =>
      rw [named, ← κ.key_tag .modification a] at hk
      rw [edit, find?, ← κ.key_tag .modification a]
      exact find?_replaceFirst_of_ne hk l
    | remove k' => exact find?_eraseP_of_ne hk l

/-- **Any sequence of edits.** The last one that names a key decides. -/
theorem find?_edited (h : κ.Distinct l) (es : List (EntryEdit α)) (k : String) :
    κ.find? (κ.edited l es) k =
      match κ.last? es k with
      | some (.upsert a) => some (κ.tag .modification a)
      | some (.remove _) => none
      | none => κ.find? l k := by
  induction es generalizing l with
  | nil => rfl
  | cons e es ih =>
    rw [show κ.edited l (e :: es) = κ.edited (κ.edit l e) es from rfl, ih (h.edit e),
      find?_edit h]
    -- the first edit counts only when no later one names the key
    rw [last?, last?, List.reverse_cons, List.find?_append]
    cases es.reverse.find? fun e' ↦ κ.named e' = k with
    | some e' => cases e' <;> rfl
    | none =>
      by_cases hk : κ.named e = k
      · cases e <;> simp [hk]
      · simp [hk]

/-! ### Saving and combining -/

/-- The upper layer is looked at first. -/
theorem find?_overlaid (base layer : List α) (k : String) :
    κ.find? (κ.overlaid base layer) k =
      ((κ.find? layer k).map (κ.tag .modification)).or
        ((κ.find? base k).map (κ.tag .factory)) := by
  simp only [find?, overlaid, List.find?_append, List.find?_map, Function.comp_def, κ.key_tag]
  cases hfind : layer.find? (κ.key · = k) with
  | some a => rfl
  | none =>
    -- nothing of the lower layer that has the key is shadowed
    have hkey : k ∉ layer.map κ.key := by
      intro hmem
      obtain ⟨a, ha, heq⟩ := List.mem_map.1 hmem
      simpa [heq] using List.find?_eq_none.1 hfind a ha
    have hshow : (unshadowed κ.key base layer).find? (κ.key · = k) = base.find? (κ.key · = k) := by
      rw [unshadowed, List.find?_filter]
      congr 1
      funext a
      by_cases ha : κ.key a = k
      · simp only [ha, hkey, not_false_eq_true, decide_true, and_self]
      · simp [ha]
    rw [hshow]

/-- No key is repeated in two layers if none is in either. -/
theorem Distinct.overlaid (hbase : κ.Distinct base) (hlayer : κ.Distinct layer) :
    κ.Distinct (κ.overlaid base layer) := by
  simp only [Distinct, EntryKind.overlaid, List.map_append, List.map_map, Function.comp_def,
    κ.key_tag]
  refine List.nodup_append.2 ⟨hlayer, hbase.sublist (List.filter_sublist.map κ.key), ?_⟩
  -- what is left of the lower layer has no key of the upper one
  rintro _ hl _ hu rfl
  obtain ⟨a, ha, heq⟩ := List.mem_map.1 hu
  have hfree : κ.key a ∉ layer.map κ.key := by simpa using (List.mem_filter.1 ha).2
  exact hfree (heq ▸ hl)

/-- No key is repeated among the modifications, as they are some of the entries. -/
theorem Distinct.own (h : κ.Distinct l) : κ.Distinct (κ.own l) :=
  h.sublist (List.filter_sublist.map κ.key)

/-- Being tagged once more makes no difference to a modification. -/
theorem map_tag_filter (o : Option α) :
    (o.filter (κ.origin · = .modification)).map (κ.tag .modification) =
      o.filter (κ.origin · = .modification) := by
  cases o with
  | none => rfl
  | some a =>
    by_cases ha : κ.origin a = .modification
    · have hself : κ.tag .modification a = a := ha ▸ κ.tag_origin a
      simp [Option.filter, ha, hself]
    · simp [Option.filter, ha]

/-- An entry of two layers that is no modification is from the base document. -/
theorem find?_overlaid_of_filter_eq_none {k : String}
    (h : (κ.find? (κ.overlaid base layer) k).filter (κ.origin · = .modification) = none) :
    κ.find? (κ.overlaid base layer) k = (κ.find? base k).map (κ.tag .factory) := by
  rw [find?_overlaid] at h ⊢
  cases hlayer : κ.find? layer k with
  | some a => simp [hlayer, Option.filter, κ.origin_tag] at h
  | none => rfl

variable (κ) in
/-- What the entries of an edited configuration come to once it is committed, key by key: the last
edit that names a key decides, and a removed entry is what the base document has. -/
def Survive (base : List α) (es : List (EntryEdit α)) (before after : String → Option α) : Prop :=
  ∀ k, after k =
    match κ.last? es k with
    | some (.upsert a) => some (κ.tag .modification a)
    | some (.remove _) => (κ.find? base k).map (κ.tag .factory)
    | none => before k

/-- **One list of entries, edited and committed.** -/
theorem survive_edited (hbase : κ.Distinct base) (hlayer : κ.Distinct layer)
    (es : List (EntryEdit α)) :
    κ.Survive base es (κ.find? (κ.overlaid base layer))
      (κ.find? (κ.overlaid base (κ.own (κ.edited (κ.overlaid base layer) es)))) := by
  intro k
  have hbefore : κ.Distinct (κ.overlaid base layer) := hbase.overlaid hlayer
  -- saving keeps what is a modification under each key
  have hown : κ.find? (κ.own (κ.edited (κ.overlaid base layer) es)) k =
      (κ.find? (κ.edited (κ.overlaid base layer) es) k).filter (κ.origin · = .modification) :=
    find?_filter_of_nodup (hbefore.edited es) _
  rw [find?_overlaid, hown, map_tag_filter, find?_edited hbefore]
  cases κ.last? es k with
  | some e =>
    cases e with
    | upsert a => simp [Option.filter, κ.origin_tag]
    | remove k' => rfl
  | none =>
    -- an entry that no edit names is kept as a modification, or found in the base document again
    cases hmod : (κ.find? (κ.overlaid base layer) k).filter (κ.origin · = .modification) with
    | some a =>
      obtain ⟨hfind, -⟩ := Option.filter_eq_some_iff.1 hmod
      exact hfind.symm
    | none => exact (find?_overlaid_of_filter_eq_none hmod).symm

end EntryKind

/-! ### Scripts of edits -/

namespace Configuration

/-- What an edit does to the profiles. -/
def Edit.ofProfile? : Edit → Option (EntryEdit Profile)
  | .upsertProfile p => some (.upsert p)
  | .removeProfile n => some (.remove n)
  | _ => none

/-- What an edit does to the user profiles. -/
def Edit.ofUserProfile? : Edit → Option (EntryEdit UserProfile)
  | .upsertUserProfile u => some (.upsert u)
  | .removeUserProfile l => some (.remove l)
  | _ => none

/-- A profile that is removed is handed out, and no other is lost. -/
theorem removeProfile_perm (c : Configuration) (name : String) :
    ((c.removeProfile name).1.toList ++ (c.removeProfile name).2.profiles).Perm c.profiles :=
  takeFirst_perm _ c.profiles

/-- A user profile that is removed is handed out, and no other is lost. -/
theorem removeUserProfile_perm (c : Configuration) (login : String) :
    ((c.removeUserProfile login).1.toList ++ (c.removeUserProfile login).2.userProfiles).Perm
      c.userProfiles :=
  takeFirst_perm _ c.userProfiles

/-- The configuration after a script of edits. -/
def edited (c : Configuration) (es : List Edit) : Configuration := es.foldl edit c

/-- A script edits profiles and user profiles apart from each other, and leaves the mode alone. -/
theorem edited_eq (c : Configuration) (es : List Edit) :
    c.edited es =
      { mode := c.mode
        profiles := Profile.kind.edited c.profiles (es.filterMap Edit.ofProfile?)
        userProfiles :=
          UserProfile.kind.edited c.userProfiles (es.filterMap Edit.ofUserProfile?) } := by
  induction es generalizing c with
  | nil => rfl
  | cons e es ih =>
    rw [show c.edited (e :: es) = (c.edit e).edited es from rfl, ih]
    cases e <;> rfl

end Configuration

/-! ### From one configuration in force to the next -/

/-- The base document alone is the base document under an empty layer. -/
theorem Document.alone_eq_overlaid (base : Document) :
    base.alone = base.overlaid { mode := base.mode } := by
  simp [alone, overlaid, unshadowed]

/-- What committing an edited configuration comes to. -/
structure EditsSurvive (base : Document) (before : Configuration) (es : List Edit)
    (after : Configuration) : Prop where
  edited_names : ((before.edited es).profiles.map (·.name)).Nodup
  edited_logins : ((before.edited es).userProfiles.map (·.login)).Nodup
  names : (after.profiles.map (·.name)).Nodup
  logins : (after.userProfiles.map (·.login)).Nodup
  profiles : Profile.kind.Survive base.profiles (es.filterMap Edit.ofProfile?)
    before.profile? after.profile?
  userProfiles : UserProfile.kind.Survive base.userProfiles (es.filterMap Edit.ofUserProfile?)
    before.userProfile? after.userProfile?
  /-- Edits of user profiles do not affect profiles. -/
  profiles_apart : ∀ (es' : List Edit) (after' : Configuration),
    es'.filterMap Edit.ofProfile? = es.filterMap Edit.ofProfile? →
      merge base (some (before.edited es').modifications) = .ok after' →
        (before.edited es').profiles = (before.edited es).profiles ∧
          after'.profiles = after.profiles
  /-- Edits of profiles do not affect user profiles. -/
  userProfiles_apart : ∀ (es' : List Edit) (after' : Configuration),
    es'.filterMap Edit.ofUserProfile? = es.filterMap Edit.ofUserProfile? →
      merge base (some (before.edited es').modifications) = .ok after' →
        (before.edited es').userProfiles = (before.edited es).userProfiles ∧
          after'.userProfiles = after.userProfiles

/-- Edits of a configuration of two layers. -/
theorem editsSurvive_overlaid {base layer : Document} (hbase : base.offence? = none)
    (hlayer : layer.offence? = none) (es : List Edit) :
    EditsSurvive base (base.overlaid layer) es
      (base.overlaid ((base.overlaid layer).edited es).modifications) := by
  have hb := firstOffence?_eq_none_iff.1 hbase
  have hl := firstOffence?_eq_none_iff.1 hlayer
  have hnames : Profile.kind.Distinct base.profiles := hb.names_nodup
  have hlogins : UserProfile.kind.Distinct base.userProfiles := hb.logins_nodup
  have hnames' : Profile.kind.Distinct layer.profiles := hl.names_nodup
  have hlogins' : UserProfile.kind.Distinct layer.userProfiles := hl.logins_nodup
  -- edits leave the mode alone, so committing any script goes through
  have hafter : ∀ {es' : List Edit} {after' : Configuration},
      merge base (some ((base.overlaid layer).edited es').modifications) = .ok after' →
        after' = base.overlaid ((base.overlaid layer).edited es').modifications := by
    intro es' after' hmerge
    have hmode : ((base.overlaid layer).edited es').modifications.mode = base.mode := by
      rw [Configuration.edited_eq]
      rfl
    exact (Except.ok.inj ((merge_of_mode_eq hmode).symm.trans hmerge)).symm
  constructor
  · rw [Configuration.edited_eq]
    exact (hnames.overlaid hnames').edited _
  · rw [Configuration.edited_eq]
    exact (hlogins.overlaid hlogins').edited _
  · rw [Configuration.edited_eq]
    exact hnames.overlaid ((hnames.overlaid hnames').edited _).own
  · rw [Configuration.edited_eq]
    exact hlogins.overlaid ((hlogins.overlaid hlogins').edited _).own
  · rw [Configuration.edited_eq]
    exact EntryKind.survive_edited hnames hnames' _
  · rw [Configuration.edited_eq]
    exact EntryKind.survive_edited hlogins hlogins' _
  · intro es' after' hes hmerge
    rw [hafter hmerge, Configuration.edited_eq, Configuration.edited_eq, hes]
    exact ⟨rfl, rfl⟩
  · intro es' after' hes hmerge
    rw [hafter hmerge, Configuration.edited_eq, Configuration.edited_eq, hes]
    exact ⟨rfl, rfl⟩

/-- **An administrator's edits survive the commit key by key.** -/
theorem editsSurvive_of_merge {base : Document} {layer : Option Document}
    (hbase : base.offence? = none)
    (hlayer : ∀ l ∈ layer, l.offence? = none ∧ l.mode = base.mode) (es : List Edit) :
    ∃ before after, merge base layer = .ok before ∧
      merge base (some (before.edited es).modifications) = .ok after ∧
      EditsSurvive base before es after := by
  -- no layer is an empty layer
  obtain ⟨l, hl, hbefore⟩ : ∃ l : Document, l.offence? = none ∧
      merge base layer = .ok (base.overlaid l) := by
    cases layer with
    | none => exact ⟨{ mode := base.mode }, rfl, by rw [merge, base.alone_eq_overlaid]⟩
    | some l =>
      obtain ⟨ho, hm⟩ := hlayer l rfl
      exact ⟨l, ho, merge_of_mode_eq hm⟩
  refine ⟨base.overlaid l, _, hbefore, merge_of_mode_eq ?_, editsSurvive_overlaid hbase hl es⟩
  rw [Configuration.edited_eq]
  rfl

namespace Document

/-- A base document with one profile. -/
def shop : Document where
  mode := .allowListed
  profiles := [{ name := "clerk", actions := ["read"] }]

/-- A layer that allows clerks to write, and has a profile of its own. -/
def shopLayer : Document where
  mode := .allowListed
  profiles := [{ name := "clerk", actions := ["write"] }, { name := "guest", actions := [] }]

end Document

/-- Both profiles of the layer are removed and one is added again, with a user profile. The clerk of
the base document is back then. -/
theorem editsSurvive_shop :
    let es : List Edit := [.removeProfile "clerk", .removeProfile "guest",
      .upsertUserProfile { login := "ann", profiles := ["clerk"] },
      .upsertProfile { name := "guest", actions := ["look"] }]
    ∃ before after, merge .shop (some .shopLayer) = .ok before ∧
      merge .shop (some (before.edited es).modifications) = .ok after ∧
      after.profile? "clerk" = some { name := "clerk", actions := ["read"], origin := .factory } ∧
      after.profile? "guest" =
        some { name := "guest", actions := ["look"], origin := .modification } := by
  intro es
  have hbase : Document.shop.offence? = none := by decide
  have hlayer : ∀ l ∈ some Document.shopLayer, l.offence? = none ∧ l.mode = Document.shop.mode := by
    rintro l ⟨rfl⟩
    decide
  obtain ⟨before, after, hbefore, hafter, h⟩ := editsSurvive_of_merge hbase hlayer es
  exact ⟨before, after, hbefore, hafter, h.profiles "clerk", h.profiles "guest"⟩

end LayeredRights
