import LayeredRights.Proofs.Resolver.Stretches

/-!
# The generation of a stretch

One generation serves all queries of a stretch: the one in use for the snapshot in force, or a new
one as long as there is none (`Engine.generationTo`). It has an action set for every login that the
directory has replied about (`Generation.Covers`). The logins that a call concerns and that have
none yet are due. `Engine.Advances` is what one move makes of them: those that have an action set
are passed over, and the directory is asked for the first one that has none.

The order in which logins are looked up is part of `Generation.Covers`: the look-ups of the stretch
are the logins of the generation, in the order in which they were stored, and then the one that is
being looked up. None of them is looked up twice (`Covers.distinct`), since a login is asked for
only as long as it has no action set.
-/

namespace LayeredRights

/-! ### What waits -/

/-- The logins that are to be looked up after the one that is. -/
def Query.rest (q : Query) : List String :=
  match q.purpose with
  | .warmUp rest _ => rest
  | _ => []

/-- The query that waits for a look-up. -/
def Frame.query? : Frame → Option Query
  | .lookingUp q => some q
  | _ => none

/-- The queries that wait for look-ups. -/
def queries (fs : List Frame) : List Query := fs.filterMap Frame.query?

namespace Generation

/-- The logins that have an action set. -/
def logins (g : Generation) : List String := g.actionSets.map (·.1)

theorem isSome_find?_iff {g : Generation} {login : String} :
    (g.find? login).isSome = true ↔ login ∈ g.logins := by
  simp [find?, logins]

theorem find?_eq_none_iff {g : Generation} {login : String} :
    g.find? login = none ↔ login ∉ g.logins := by
  rw [← isSome_find?_iff, Bool.not_eq_true, Option.isSome_eq_false_iff, Option.isNone_iff_eq_none]

theorem logins_remember {g : Generation} {login : String} (h : login ∉ g.logins)
    (actions : NameSet) : (g.remember login actions).logins = g.logins ++ [login] := by
  rw [remember, find?_eq_none_iff.2 h]
  simp [logins]

/-! ### What a generation has of a stretch -/

/-- The generation has an action set for each of the logins of a stretch that are not due anymore,
built for the roles that were reported for it. The logins `asked` are being looked up. -/
structure Covers (g : Generation) (asked due lookUps concerned : List String)
    (reports : List (String × NameSet)) : Prop where
  lookUps_eq : lookUps = g.logins ++ asked
  distinct : lookUps.Nodup
  mem_concerned : ∀ l, l ∈ concerned ↔ l ∈ g.logins ∨ l ∈ due
  built : ∀ l actions, g.find? l = some actions → ∃ roles, (l, roles) ∈ reports ∧
    actions = g.snapshot.configuration.listedActions ⟨l, roles⟩

/-- A new generation covers a stretch in which nothing has happened. -/
theorem covers_new (S : Snapshot) : ({ snapshot := S } : Generation).Covers [] [] [] [] [] where
  lookUps_eq := rfl
  distinct := List.nodup_nil
  mem_concerned _ := by simp [logins]
  built _ _ hfind := nomatch hfind

namespace Covers

variable {g : Generation} {asked due ls L C : List String} {R : List (String × NameSet)}

/-- More logins are due. -/
theorem concern (h : g.Covers [] [] L C R) (ls : List String) : g.Covers [] ls L (C ++ ls) R :=
  { h with mem_concerned := fun l ↦ by simp [h.mem_concerned] }

/-- All that are due have an action set already. -/
theorem settle (h : g.Covers [] due L C R) (hdue : ∀ l ∈ due, l ∈ g.logins) :
    g.Covers [] [] L C R :=
  { h with
    mem_concerned := fun l ↦ by
      rw [h.mem_concerned]
      exact ⟨fun hl ↦ .inl (hl.elim id (hdue l)), fun hl ↦ .inl (hl.resolve_right (by simp))⟩ }

/-- The first one that has no action set is looked up. -/
theorem ask {done rest : List String} {login : String}
    (h : g.Covers [] (done ++ login :: rest) L C R) (hdone : ∀ l ∈ done, l ∈ g.logins)
    (hnew : login ∉ g.logins) : g.Covers [login] (login :: rest) (L ++ [login]) C R where
  lookUps_eq := by rw [h.lookUps_eq, List.append_nil]
  distinct := by
    refine h.distinct.append (List.nodup_singleton login) (List.disjoint_singleton.2 ?_)
    rwa [h.lookUps_eq, List.append_nil]
  mem_concerned l := by
    rw [h.mem_concerned, List.mem_append]
    exact ⟨fun hl ↦ hl.elim .inl fun hl ↦ hl.imp (hdone l) id, fun hl ↦ hl.imp id .inr⟩
  built := h.built

/-- The roles that are reported build the action set that is stored. -/
theorem store {rest : List String} {login : String} (h : g.Covers [login] (login :: rest) L C R)
    (roles : NameSet) : (g.remember login
      (g.snapshot.configuration.listedActions ⟨login, roles⟩)).Covers [] rest L C
        (R ++ [(login, roles)]) := by
  have hnew : login ∉ g.logins := by
    have hdistinct := h.distinct
    rw [h.lookUps_eq] at hdistinct
    exact List.disjoint_singleton.1 (List.disjoint_of_nodup_append hdistinct)
  constructor
  · rw [logins_remember hnew, h.lookUps_eq, List.append_nil]
  · exact h.distinct
  · intro l
    rw [h.mem_concerned, logins_remember hnew]
    simp [or_assoc]
  · intro l actions hfind
    rw [snapshot_remember]
    rcases find?_remember hfind with hold | ⟨rfl, rfl⟩
    · obtain ⟨roles', hroles', hactions⟩ := h.built l actions hold
      exact ⟨roles', List.mem_append_left _ hroles', hactions⟩
    · exact ⟨roles, List.mem_append_right _ (List.mem_singleton_self _), rfl⟩

end Covers

/-- The queries that have succeeded are answered from the generation. -/
def Answers (g : Generation) (ts : List Turn) : Prop :=
  ∀ t ∈ ts, t.Succeeds → ∀ c a login, t.answer? = some (c, a) → c.strict.subject? = some login →
    ∃ actions, g.find? login = some actions ∧
      g.snapshot.configuration.mode.answer? actions c.strict = some a

theorem Answers.extend {g g' : Generation} {ts : List Turn} (h : g.Answers ts)
    (hext : g.Extends g') : g'.Answers ts := by
  intro t ht hsucceeds c a login hanswer hsub
  obtain ⟨actions, hfind, ha⟩ := h t ht hsucceeds c a login hanswer hsub
  exact ⟨actions, hext.stored _ _ hfind, hext.snapshot.symm ▸ ha⟩

end Generation

/-! ### The generation in use -/

namespace Engine

variable {e e' : Engine} {S : Snapshot} {i : Nat} {g : Generation}

/-- The generation that a query is answered in when this snapshot is in force. -/
def generationTo (e : Engine) (S : Snapshot) : Generation :=
  ((e.inUseFor? S).bind e.generation?).getD { snapshot := S }

theorem inUseFor?_congr (hgenerations : e'.generations = e.generations)
    (hinUse : e'.inUse? = e.inUse?) (S : Snapshot) : e'.inUseFor? S = e.inUseFor? S := by
  have heq : e'.inUse?.filter (fun i ↦ (e'.generation? i).any (·.snapshot.serial = S.serial)) =
      e.inUse?.filter fun i ↦ (e.generation? i).any (·.snapshot.serial = S.serial) := by
    simp only [hinUse, generation?, hgenerations]
  exact heq

/-- Which generation that is depends on the generations and on the one in use. -/
theorem generationTo_congr (hgenerations : e'.generations = e.generations)
    (hinUse : e'.inUse? = e.inUse?) (S : Snapshot) : e'.generationTo S = e.generationTo S := by
  have hgeneration : e'.generation? = e.generation? := by
    funext i
    simp only [generation?, hgenerations]
  rw [generationTo, inUseFor?_congr hgenerations hinUse, hgeneration]
  rfl

theorem generationTo_of_inUseFor? (hi : e.inUseFor? S = some i) (hg : e.generations[i]? = some g) :
    e.generationTo S = g := by
  simp [generationTo, hi, generation?, hg]

/-- The generation for a resident snapshot is one for that very snapshot, and not just for one of
the same number. -/
theorem snapshot_generationTo {h : List Moment} {reports : List (Option (String × NameSet))}
    (hc : Coherent h reports e) (hS : e.store.resident = some S) :
    (e.generationTo S).snapshot = S := by
  cases hi : e.inUseFor? S with
  | none => simp [generationTo, hi]
  | some i =>
    obtain ⟨-, g, hg, hsnapshot⟩ := hc.generation_of_inUseFor? hS hi
    rwa [generationTo_of_inUseFor? hi hg]

/-- The number of cached logins is that of the generation in use. -/
theorem cachedLogins_eq (hi : e.inUseFor? S = some i) (hg : e.generations[i]? = some g) :
    e.cachedLogins = g.logins.length := by
  have huse : e.resolver.bind (·.inUse) = some i := (Option.filter_eq_some_iff.1 hi).1
  simp [cachedLogins, huse, generation?, hg, Generation.size, Generation.logins]

theorem generationTo_of_inUse?_eq_none (h : e.inUse? = none) :
    e.generationTo S = { snapshot := S } := by
  have hnone : e.inUseFor? S = none := by
    rw [inUseFor?, show e.resolver.bind (·.inUse) = none from h]
    rfl
  simp [generationTo, hnone]

/-- There is no generation yet for a snapshot that is new. -/
theorem generationTo_of_new (h : ∀ g ∈ e.generations, g.snapshot.serial ≠ S.serial) :
    e.generationTo S = { snapshot := S } := by
  have hnone : e.inUseFor? S = none := by
    rw [inUseFor?, Option.filter_eq_none_iff]
    intro i _
    cases hg : e.generation? i with
    | none => simp
    | some g => simpa using h g (List.mem_of_getElem? hg)
  simp [generationTo, hnone]

/-- **The generation that is taken up** is in use from then on. -/
theorem generationFor_spec (hr : e.resolver.isSome = true) (S : Snapshot) :
    (e.generationFor S).2.generations[(e.generationFor S).1]? = some (e.generationTo S) ∧
      (e.generationFor S).2.inUseFor? S = some (e.generationFor S).1 := by
  cases hi : e.inUseFor? S with
  | some i =>
    rw [show e.generationFor S = (i, e) by simp [generationFor, hi]]
    obtain ⟨-, hany⟩ := Option.filter_eq_some_iff.1 hi
    cases hg : e.generation? i with
    | none => simp [hg] at hany
    | some g => exact ⟨(generationTo_of_inUseFor? hi hg).symm ▸ hg, hi⟩
  | none =>
    obtain ⟨r, hr⟩ := Option.isSome_iff_exists.1 hr
    have hnew : e.generationTo S = { snapshot := S } := by simp [generationTo, hi]
    rw [show e.generationFor S = (e.generations.length, { e with
      generations := e.generations ++ [{ snapshot := S }]
      resolver := e.resolver.map fun r ↦ { r with inUse := some e.generations.length } }) by
        simp [generationFor, hi], hnew]
    simp [inUseFor?, generation?, hr]

/-! ### Asking for what is due -/

/-- What a move makes of the logins that are due, in the generation of index `i`. -/
inductive Advances (e : Engine) (g : Generation) (i : Nat) (c : Call) :
    List String → Output × Engine → Prop
  | asked {done : List String} {q : Query} (hdone : ∀ l ∈ done, l ∈ g.logins)
      (hnew : q.login ∉ g.logins) (hq : q.generation = i) (hserves : q.Serves c.strict) :
      Advances e g i c (done ++ q.login :: q.rest) (e.ask (.lookingUp q) (.rolesOf q.login))
  | answered {due : List String} {a : Answer} (hdue : ∀ l ∈ due, l ∈ g.logins)
      (hanswer : ∀ login, c.strict.subject? = some login → ∃ actions,
        g.find? login = some actions ∧
          g.snapshot.configuration.mode.answer? actions c.strict = some a) :
      Advances e g i c due (.answered a, e)

variable {c : Call} {due : List String} {o : Output × Engine}

/-- A login that has an action set is passed over. -/
theorem Advances.cons (h : e.Advances g i c due o) {l : String} (hl : l ∈ g.logins) :
    e.Advances g i c (l :: due) o := by
  cases h with
  | asked hdone hnew hq hserves =>
    exact .asked (List.forall_mem_cons.2 ⟨hl, hdone⟩) hnew hq hserves
  | answered hdue hanswer => exact .answered (List.forall_mem_cons.2 ⟨hl, hdue⟩) hanswer

/-- A login that has no action set is asked for. -/
theorem advances_ask {q : Query} (hnew : q.login ∉ g.logins) (hq : q.generation = i)
    (hserves : q.Serves c.strict) : e.Advances g i c (q.login :: q.rest)
      (e.ask (.lookingUp q) (.rolesOf q.login)) := by
  have hdone : ∀ l ∈ ([] : List String), l ∈ g.logins := by simp
  exact .asked hdone hnew hq hserves

theorem advances_warm (hc : c.strict.wantsActions = false) (hg : e.generations[i]? = some g)
    (total : Nat) (ls : List String) : e.Advances g i c ls (e.warm i total ls) := by
  induction ls with
  | nil =>
    refine .answered (by simp) fun login hsub ↦ ?_
    exact nomatch hc.symm.trans (Call.wantsActions_of_subject? hsub)
  | cons l ls ih =>
    unfold warm
    rw [cached?_eq hg]
    split
    · next hl => exact ih.cons (Generation.isSome_find?_iff.1 hl)
    · next hl =>
      have hnew : l ∉ g.logins := fun hmem ↦ hl (Generation.isSome_find?_iff.2 hmem)
      exact advances_ask (q := ⟨i, l, .warmUp ls total⟩) hnew rfl
        (Query.serves_of_wantsActions_eq_false hc)

theorem advances_satisfy {q : Query} (hserves : q.Serves c.strict)
    (hg : e.generations[q.generation]? = some g) {actions : NameSet}
    (hfind : g.find? q.login = some actions) :
    e.Advances g q.generation c q.rest (e.satisfy q actions) := by
  have hanswer : ∀ a, e.satisfy q actions = (.answered a, e) → q.rest = [] →
      e.Advances g q.generation c q.rest (e.satisfy q actions) := by
    intro a ha hrest
    rw [ha, hrest]
    refine .answered (by simp) fun login hsub ↦ ?_
    obtain ⟨a', ha', hmode⟩ := exists_satisfy hserves hsub hg actions
    obtain rfl : a = a' := Output.answered.inj (congrArg Prod.fst (ha.symm.trans ha'))
    exact ⟨actions, Query.login_eq hserves hsub ▸ hfind, hmode⟩
  obtain ⟨i, login, purpose⟩ := q
  cases purpose with
  | decide action => exact hanswer _ rfl rfl
  | list => exact hanswer _ rfl rfl
  | warmUp rest total =>
    have hc : c.strict.wantsActions = false := by
      cases hstrict : c.strict with
      | tryIsAllowed | effectiveActions =>
        rw [hstrict] at hserves
        cases hserves.2
      | _ => rfl
    exact advances_warm hc hg total rest

/-- A query is one login that is due, or has been answered from its action set. -/
theorem advances_query {q : Query} (hserves : q.Serves c.strict)
    (hg : e.generations[q.generation]? = some g) :
    e.Advances g q.generation c (q.login :: q.rest) (e.query q) := by
  unfold query
  rw [cached?_eq hg]
  cases hfind : g.find? q.login with
  | some actions =>
    have hl : q.login ∈ g.logins := Generation.isSome_find?_iff.1 (by rw [hfind]; rfl)
    exact (advances_satisfy hserves hg hfind).cons hl
  | none =>
    exact advances_ask (Generation.find?_eq_none_iff.1 hfind) rfl hserves

/-- **Roles that arrive** build the action set of the login that was looked up, and the next one is
asked for. -/
theorem exists_advances_rolesFound {q : Query} (hserves : q.Serves c.strict)
    (hg : e.generations[q.generation]? = some g) (result : Except DirectoryError NameSet) :
    let built := g.snapshot.configuration.listedActions ⟨q.login, result.toOption.getD ∅⟩
    ∃ e' : Engine, e'.generations = e.generations.set q.generation (g.remember q.login built) ∧
      e'.inUse? = e.inUse? ∧ e'.frames = e.frames ∧
      e'.Advances (g.remember q.login built) q.generation c q.rest (e.rolesFound q result) := by
  have hbuild : ∀ (ns : List Notice) (roles : NameSet), ((e.report ns).built q g roles).Advances
      (g.remember q.login (g.snapshot.configuration.listedActions ⟨q.login, roles⟩)) q.generation c
        q.rest ((e.report ns).build q roles) := by
    intro ns roles
    rw [build_eq (e := e.report ns) hg]
    exact advances_satisfy hserves (getElem?_built (e := e.report ns) hg roles)
      (g.find?_remember_self q.login _)
  cases result with
  | ok roles =>
    have hok := hbuild [] roles
    rw [report, Store.report_nil] at hok
    exact ⟨e.built q g roles, rfl, rfl, rfl, hok⟩
  | error err =>
    exact ⟨(e.report [.rolesUnavailable q.login]).built q g ∅, rfl, rfl, rfl, hbuild _ ∅⟩

end Engine

end LayeredRights
