import LayeredRights.Proofs.Decision
import LayeredRights.Proofs.Edits

/-!
# Layers as keyed unions

The configuration in force is the union of two lists of entries by their keys, in which the layer
has the say wherever both have an entry (`KeyedUnion`). Documents that follow the rules for entries
make a configuration that follows them, so no key is repeated in it, and it does not matter whether
a key is looked up from the front or from the back (`merge_keyedUnion`).

Saving what was loaded changes nothing (`merge_of_saved`). What a configuration keeps as
modifications is the layer that it was made of. Exported as a whole it shadows every entry of the
base document, so that nothing is left of that but the order in which its entries came; and since
decisions do not ask for origins (`Configuration.allows_tagged`), they stay as they were.

`KeyedUnion` is stated key by key and not of the lists alone. `EntryKind.IsUnion` has the list as
well, with the layer in front, but what a look-up finds and how often a key is there follow from the
keys being distinct, whichever list comes first. Profiles and user profiles are two instances of the
same `EntryKind`.

Exporting is the one place where a document holds entries that are not modifications. It is harmless
because tagging them as modifications is all that the way through the file does to them
(`overlaid_toDocument`).
-/

namespace LayeredRights

/-! ### One list of entries over another -/

namespace EntryKind

variable {α : Type} {κ : EntryKind α} {base layer : List α}

/-- An entry of two layers is one of the upper layer, or one of the lower layer whose key the upper
one does not have. -/
theorem mem_overlaid {a : α} : a ∈ κ.overlaid base layer ↔
    (∃ b ∈ layer, κ.tag .modification b = a) ∨
      ∃ b ∈ base, κ.key b ∉ layer.map κ.key ∧ κ.tag .factory b = a := by
  simp only [overlaid, unshadowed, List.mem_append, List.mem_map, List.mem_filter,
    decide_eq_true_eq, and_assoc]

/-- The keys are those of the two lists. -/
theorem mem_map_key_overlaid {k : String} : k ∈ (κ.overlaid base layer).map κ.key ↔
    k ∈ layer.map κ.key ∨ k ∈ base.map κ.key := by
  constructor
  · intro hk
    obtain ⟨a, ha, rfl⟩ := List.mem_map.1 hk
    obtain ⟨b, hb, rfl⟩ | ⟨b, hb, -, rfl⟩ := mem_overlaid.1 ha
    · exact .inl (κ.key_tag .modification b ▸ List.mem_map_of_mem hb)
    · exact .inr (κ.key_tag .factory b ▸ List.mem_map_of_mem hb)
  · intro hk
    -- a key of both lists is there because of the upper one
    by_cases hlayer : k ∈ layer.map κ.key
    · obtain ⟨b, hb, rfl⟩ := List.mem_map.1 hlayer
      exact List.mem_map.2 ⟨_, mem_overlaid.2 (.inl ⟨b, hb, rfl⟩), κ.key_tag .modification b⟩
    · obtain ⟨b, hb, rfl⟩ := List.mem_map.1 (hk.resolve_left hlayer)
      exact List.mem_map.2 ⟨_, mem_overlaid.2 (.inr ⟨b, hb, hlayer, rfl⟩), κ.key_tag .factory b⟩

/-- What is kept of two lists is the upper one. -/
theorem own_overlaid (base layer : List α) :
    κ.own (κ.overlaid base layer) = layer.map (κ.tag .modification) := by
  have hlayer : (layer.map (κ.tag .modification)).filter (κ.origin · = .modification) =
      layer.map (κ.tag .modification) := by
    refine List.filter_eq_self.2 fun a ha ↦ ?_
    obtain ⟨b, -, rfl⟩ := List.mem_map.1 ha
    exact decide_eq_true (κ.origin_tag .modification b)
  have hbase : ((unshadowed κ.key base layer).map (κ.tag .factory)).filter
      (κ.origin · = .modification) = [] := by
    refine List.filter_eq_nil_iff.2 fun a ha ↦ ?_
    obtain ⟨b, -, rfl⟩ := List.mem_map.1 ha
    simp [κ.origin_tag]
  rw [own, overlaid, List.filter_append, hlayer, hbase, List.append_nil]

/-- A layer that has all keys shadows everything. -/
theorem overlaid_of_subset (h : ∀ b ∈ base, κ.key b ∈ layer.map κ.key) :
    κ.overlaid base layer = layer.map (κ.tag .modification) := by
  have hnone : unshadowed κ.key base layer = [] :=
    List.filter_eq_nil_iff.2 fun b hb ↦ by simpa using h b hb
  rw [overlaid, hnone, List.map_nil, List.append_nil]

variable (κ) in
/-- The entries are the union of two lists by their keys, in which the layer has the say. -/
structure IsUnion (base layer entries : List α) : Prop where
  /-- The layer comes first, and then what is left of the base document. -/
  eq_append : entries = layer.map (κ.tag .modification) ++
    (base.filter fun b ↦ ∀ a ∈ layer, κ.key a ≠ κ.key b).map (κ.tag .factory)
  /-- An entry is that of the layer, if the layer has one, and otherwise that of the base
  document. -/
  find?_eq : ∀ k, κ.find? entries k =
    match κ.find? layer k with
    | some a => some (κ.tag .modification a)
    | none => (κ.find? base k).map (κ.tag .factory)
  /-- Every key of either list is there once, and no other key. -/
  count_eq : ∀ k, (entries.map κ.key).count k =
    if k ∈ layer.map κ.key ∨ k ∈ base.map κ.key then 1 else 0

/-- Laying one list over another unites them by their keys, if neither repeats a key. -/
theorem isUnion_overlaid (hbase : κ.Distinct base) (hlayer : κ.Distinct layer) :
    κ.IsUnion base layer (κ.overlaid base layer) where
  eq_append := by
    rw [overlaid, unshadowed]
    congr 3
    funext b
    simp [List.mem_map]
  find?_eq k := by
    rw [find?_overlaid]
    cases κ.find? layer k <;> rfl
  count_eq k := by
    -- a key that is there at all is there once
    have hdistinct : ((κ.overlaid base layer).map κ.key).Nodup := hbase.overlaid hlayer
    rw [List.Nodup.count hdistinct]
    simp only [mem_map_key_overlaid]

end EntryKind

/-! ### Configurations of two layers -/

/-- What two layers come to. -/
structure KeyedUnion (base layer : Document) (c : Configuration) : Prop where
  offence? : c.offence? = none
  mode_base : c.mode = base.mode
  mode_layer : c.mode = layer.mode
  profiles : Profile.kind.IsUnion base.profiles layer.profiles c.profiles
  userProfiles : UserProfile.kind.IsUnion base.userProfiles layer.userProfiles c.userProfiles
  /-- The first profile of a name is the one that a reference means. -/
  resolve?_eq : ∀ n, c.resolve? n = c.profile? n
  /-- The table of references has the profiles that are looked up, and no other rows. -/
  mem_resolved : ∀ n p, (n, p) ∈ c.resolved ↔ c.profile? n = some p

/-- The layers of a configuration follow the rules for entries, and so does the configuration. -/
theorem lawful_overlaid {base layer : Document} (hbase : base.offence? = none)
    (hlayer : layer.offence? = none) :
    Lawful (base.overlaid layer).profiles (base.overlaid layer).userProfiles := by
  have hb := firstOffence?_eq_none_iff.1 hbase
  have hl := firstOffence?_eq_none_iff.1 hlayer
  -- every profile is one of a document but for its tag, which no rule asks for
  have hprofile : ∀ p ∈ (base.overlaid layer).profiles,
      ∃ q o, p = q.tagged o ∧ (q ∈ layer.profiles ∨ q ∈ base.profiles) := by
    intro p hp
    obtain ⟨q, hq, rfl⟩ | ⟨q, hq, -, rfl⟩ := EntryKind.mem_overlaid (κ := Profile.kind).1 hp
    · exact ⟨q, _, rfl, .inl hq⟩
    · exact ⟨q, _, rfl, .inr hq⟩
  have huser : ∀ u ∈ (base.overlaid layer).userProfiles,
      ∃ v o, u = v.tagged o ∧ (v ∈ layer.userProfiles ∨ v ∈ base.userProfiles) := by
    intro u hu
    obtain ⟨v, hv, rfl⟩ | ⟨v, hv, -, rfl⟩ := EntryKind.mem_overlaid (κ := UserProfile.kind).1 hu
    · exact ⟨v, _, rfl, .inl hv⟩
    · exact ⟨v, _, rfl, .inr hv⟩
  constructor
  · intro p hp
    obtain ⟨q, o, rfl, hq | hq⟩ := hprofile p hp
    · exact hl.name_not_blank q hq
    · exact hb.name_not_blank q hq
  · have hnames : Profile.kind.Distinct base.profiles := hb.names_nodup
    have hnames' : Profile.kind.Distinct layer.profiles := hl.names_nodup
    exact hnames.overlaid hnames'
  · intro p hp
    obtain ⟨q, o, rfl, hq | hq⟩ := hprofile p hp
    · exact hl.actions_nodup q hq
    · exact hb.actions_nodup q hq
  · intro u hu
    obtain ⟨v, o, rfl, hv | hv⟩ := huser u hu
    · exact hl.login_not_blank v hv
    · exact hb.login_not_blank v hv
  · have hlogins : UserProfile.kind.Distinct base.userProfiles := hb.logins_nodup
    have hlogins' : UserProfile.kind.Distinct layer.userProfiles := hl.logins_nodup
    exact hlogins.overlaid hlogins'

/-- What two layers come to follows the rules for entries if they do. -/
theorem offence?_of_merge {base : Document} {layer : Option Document} {c : Configuration}
    (hbase : base.offence? = none) (hlayer : ∀ l ∈ layer, l.offence? = none)
    (h : merge base layer = .ok c) : c.offence? = none := by
  -- no override is one without entries
  obtain ⟨l, hl, hc⟩ : ∃ l : Document, l.offence? = none ∧ c = base.overlaid l := by
    cases layer with
    | none =>
      obtain rfl := Except.ok.inj h
      exact ⟨{ mode := base.mode }, rfl, base.alone_eq_overlaid⟩
    | some l =>
      by_cases hmode : l.mode = base.mode
      · rw [merge_of_mode_eq hmode] at h
        exact ⟨l, hlayer l rfl, (Except.ok.inj h).symm⟩
      · cases (if_neg hmode : merge base (some l) = .error _).symm.trans h
  rw [hc]
  exact firstOffence?_eq_none_iff.2 (lawful_overlaid hbase hl)

namespace Configuration

variable {c : Configuration}

/-- Where no name is repeated, it does not matter from which end a profile is looked for. -/
theorem resolve?_eq_profile? (h : (c.profiles.map (·.name)).Nodup) (n : String) :
    c.resolve? n = c.profile? n := by
  ext p
  rw [resolve?_eq_some_iff h, profile?, find?_key_eq_some_iff h]

/-- The rows of the table of references. -/
theorem mem_resolved_iff {n : String} {p : Profile} :
    (n, p) ∈ c.resolved ↔ c.resolve? n = some p := by
  simp only [resolved, List.mem_filterMap, Option.map_eq_some_iff, Prod.mk.injEq]
  constructor
  · rintro ⟨n', -, p', hp', rfl, rfl⟩
    exact hp'
  · intro hp
    have hmem : p ∈ c.profiles := List.mem_reverse.1 (List.mem_of_find?_eq_some hp)
    have hname : p.name = n :=
      of_decide_eq_true (List.find?_some (p := fun q : Profile ↦ decide (q.name = n)) hp)
    refine ⟨n, ?_, p, hp, rfl, rfl⟩
    rw [← NameSet.mem_def, NameSet.mem_ofList]
    exact List.mem_map.2 ⟨p, hmem, hname⟩

/-! ### Decisions do not ask for origins -/

/-- The configuration with every entry's origin replaced. -/
def tagged (c : Configuration) (o : Origin) : Configuration :=
  { c with
    profiles := c.profiles.map (·.tagged o)
    userProfiles := c.userProfiles.map (·.tagged o) }

/-- A name resolves to the same profile, with its origin replaced. -/
theorem resolve?_tagged (c : Configuration) (o : Origin) (n : String) :
    (c.tagged o).resolve? n = (c.resolve? n).map (·.tagged o) := by
  have hreverse : (c.profiles.map (·.tagged o)).reverse = c.profiles.reverse.map (·.tagged o) :=
    List.map_reverse.symm
  rw [resolve?, tagged, hreverse, List.find?_map]
  rfl

theorem lists_tagged_iff {o : Origin} {p : Principal} {action : String} :
    (c.tagged o).Lists p action ↔ c.Lists p action := by
  have hresolve : ∀ n, (∃ q, (c.tagged o).resolve? n = some q ∧ action ∈ q.actions) ↔
      ∃ q, c.resolve? n = some q ∧ action ∈ q.actions := by
    intro n
    rw [resolve?_tagged]
    cases c.resolve? n with
    | none => simp
    | some q => simp [Profile.tagged]
  simp only [Lists, hresolve]
  constructor
  · rintro ⟨u, hu, hlisted⟩
    obtain ⟨v, hv, rfl⟩ := List.mem_map.1 hu
    exact ⟨v, hv, hlisted⟩
  · rintro ⟨u, hu, hlisted⟩
    exact ⟨u.tagged o, List.mem_map_of_mem hu, hlisted⟩

/-- **Origins have no part in decisions.** -/
theorem allows_tagged (c : Configuration) (o : Origin) (p : Principal) (action : String) :
    (c.tagged o).allows p action = c.allows p action := by
  have hlisted : action ∈ (c.tagged o).listedActions p ↔ action ∈ c.listedActions p := by
    rw [mem_listedActions, mem_listedActions, lists_tagged_iff]
  rw [allows, allows, decide_eq_decide.2 hlisted]
  rfl

end Configuration

/-- Layers that follow the rules for entries are united by their keys. -/
theorem keyedUnion_overlaid {base layer : Document} (hmode : base.mode = layer.mode)
    (hbase : base.offence? = none) (hlayer : layer.offence? = none) :
    KeyedUnion base layer (base.overlaid layer) := by
  have hb := firstOffence?_eq_none_iff.1 hbase
  have hl := firstOffence?_eq_none_iff.1 hlayer
  have hlawful := lawful_overlaid hbase hlayer
  have hresolve := Configuration.resolve?_eq_profile? hlawful.names_nodup
  exact {
    offence? := firstOffence?_eq_none_iff.2 hlawful
    mode_base := rfl
    mode_layer := hmode
    profiles := EntryKind.isUnion_overlaid (κ := Profile.kind) hb.names_nodup hl.names_nodup
    userProfiles :=
      EntryKind.isUnion_overlaid (κ := UserProfile.kind) hb.logins_nodup hl.logins_nodup
    resolve?_eq := hresolve
    mem_resolved := fun n p ↦ by rw [Configuration.mem_resolved_iff, hresolve] }

/-- **Two layers are united by their keys**, unless their modes differ. A base document alone is in
force as it is. -/
theorem merge_keyedUnion (base layer : Document) :
    (∀ e, merge base (some layer) = .error e ↔
      base.mode ≠ layer.mode ∧ e = ⟨base.mode, layer.mode⟩) ∧
    (base.mode = layer.mode → base.offence? = none → layer.offence? = none →
      ∃ c, merge base (some layer) = .ok c ∧ KeyedUnion base layer c) ∧
    ∃ c, merge base none = .ok c ∧ c.mode = base.mode ∧
      c.profiles = base.profiles.map (·.tagged .factory) ∧
      c.userProfiles = base.userProfiles.map (·.tagged .factory) := by
  refine ⟨fun e ↦ ?_, fun hmode hbase hlayer ↦ ?_, base.alone, rfl, rfl, rfl, rfl⟩
  · by_cases hmode : layer.mode = base.mode
    · simp [merge_of_mode_eq hmode, hmode]
    · have hconflict : merge base (some layer) = .error ⟨base.mode, layer.mode⟩ := if_neg hmode
      rw [hconflict, Except.error.injEq]
      exact ⟨fun h ↦ ⟨Ne.symm hmode, h.symm⟩, fun h ↦ h.2.symm⟩
  · exact ⟨_, merge_of_mode_eq hmode.symm, keyedUnion_overlaid hmode hbase hlayer⟩

/-- The clerk of the layer is in force, and the shop has one. -/
theorem merge_keyedUnion_shop : ∃ c, merge .shop (some .shopLayer) = .ok c ∧
    c.profile? "clerk" = some { name := "clerk", actions := ["write"], origin := .modification } ∧
    (c.profiles.map (·.name)).count "clerk" = 1 := by
  obtain ⟨c, hc, h⟩ :=
    (merge_keyedUnion .shop .shopLayer).2.1 (by decide) (by decide) (by decide)
  exact ⟨c, hc, h.profiles.find?_eq "clerk", h.profiles.count_eq "clerk"⟩

/-! ### Saving what was loaded -/

/-- What a configuration keeps as modifications is its layer. -/
theorem modifications_overlaid {base layer : Document} (hmode : layer.mode = base.mode) :
    (base.overlaid layer).modifications = layer.tagged .modification := by
  have hprofiles : (base.overlaid layer).modifications.profiles =
      layer.profiles.map (·.tagged .modification) :=
    EntryKind.own_overlaid (κ := Profile.kind) base.profiles layer.profiles
  have huserProfiles : (base.overlaid layer).modifications.userProfiles =
      layer.userProfiles.map (·.tagged .modification) :=
    EntryKind.own_overlaid (κ := UserProfile.kind) base.userProfiles layer.userProfiles
  have hm : (base.overlaid layer).modifications.mode = layer.mode := hmode.symm
  rw [Document.tagged, ← hprofiles, ← huserProfiles, ← hm]

/-- A configuration over the base document that it was made of is itself. -/
theorem overlaid_toDocument (base layer : Document) :
    base.overlaid (base.overlaid layer).toDocument =
      (base.overlaid layer).tagged .modification := by
  -- the export has every key, so nothing of the base document is left
  have hprofiles : (base.overlaid (base.overlaid layer).toDocument).profiles =
      (base.overlaid layer).profiles.map (·.tagged .modification) :=
    EntryKind.overlaid_of_subset (κ := Profile.kind) fun b hb ↦
      EntryKind.mem_map_key_overlaid.2 (.inr (List.mem_map_of_mem hb))
  have huserProfiles : (base.overlaid (base.overlaid layer).toDocument).userProfiles =
      (base.overlaid layer).userProfiles.map (·.tagged .modification) :=
    EntryKind.overlaid_of_subset (κ := UserProfile.kind) fun b hb ↦
      EntryKind.mem_map_key_overlaid.2 (.inr (List.mem_map_of_mem hb))
  rw [Configuration.tagged, ← hprofiles, ← huserProfiles]
  rfl

/-- **Saving what was loaded changes nothing**, whether it is saved as modifications or as a
whole. -/
theorem merge_of_saved {base : Document} {layer : Option Document}
    (hlayer : ∀ l ∈ layer, l.mode = base.mode) :
    ∃ c, merge base layer = .ok c ∧
      merge base (some c.modifications) = .ok c ∧
      c.modifications = (layer.map (·.tagged .modification)).getD { mode := base.mode } ∧
      ∃ c', merge base (some c.toDocument) = .ok c' ∧ c'.mode = c.mode ∧
        c'.profiles = c.profiles.map (·.tagged .modification) ∧
        c'.userProfiles = c.userProfiles.map (·.tagged .modification) ∧
        ∀ p action, c'.allows p action = c.allows p action := by
  -- no layer is an empty layer
  obtain ⟨l, hmode, hmerge, htagged⟩ : ∃ l : Document, l.mode = base.mode ∧
      merge base layer = .ok (base.overlaid l) ∧
      (layer.map (·.tagged .modification)).getD { mode := base.mode } =
        l.tagged .modification := by
    cases layer with
    | none => exact ⟨{ mode := base.mode }, rfl, by rw [merge, base.alone_eq_overlaid], rfl⟩
    | some l => exact ⟨l, hlayer l rfl, merge_of_mode_eq (hlayer l rfl), rfl⟩
  -- an export has the mode of the base document
  have hwhole : merge base (some (base.overlaid l).toDocument) =
      .ok ((base.overlaid l).tagged .modification) := by
    rw [← overlaid_toDocument]
    exact merge_of_mode_eq rfl
  refine ⟨base.overlaid l, hmerge, ?_, ?_, _, hwhole, rfl, rfl, rfl,
    (base.overlaid l).allows_tagged .modification⟩
  · rw [modifications_overlaid hmode, merge_tagged, merge_of_mode_eq hmode]
  · rw [modifications_overlaid hmode, htagged]

/-- A shop that saves what it loaded is as it was, and one that takes up its own export has the
same entries as modifications. -/
theorem merge_of_saved_shop :
    ∃ c, merge .shop (some .shopLayer) = .ok c ∧ merge .shop (some c.modifications) = .ok c ∧
      ∃ c', merge .shop (some c.toDocument) = .ok c' ∧
        c'.profiles = c.profiles.map (·.tagged .modification) := by
  have hlayer : ∀ l ∈ some Document.shopLayer, l.mode = Document.shop.mode := by
    rintro l ⟨rfl⟩
    rfl
  obtain ⟨c, hc, hsaved, -, c', hc', -, hprofiles, -⟩ := merge_of_saved hlayer
  exact ⟨c, hc, hsaved, c', hc', hprofiles⟩

end LayeredRights
