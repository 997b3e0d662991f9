import LayeredRights.Proofs.Resolver.Provenance
import Mathlib.Tactic.IntervalCases

/-!
# What a failed look-up of roles leaves behind

A look-up that fails counts as no roles, and the action set that is built from no roles is stored
like any other. So a directory that has recovered is not asked again as long as that set is valid:
queries go on being answered as for no roles until action sets are discarded or another
configuration is in force (`Session.recovered_of_mem_exchanges`).

Queries between which nothing is invalidated begin in the same generation, and what is stored there
stays what it is. So they are answered from the same action set, whichever of the answers is given
first (`Exchange.Rests.alike`).

That the later of two answers rests on the set of the earlier one is due to what is retained: the
generation of the earlier call is still in use when the later one is made (`UsedAt.of_le`), and what
is stored in it for the login by the time of one answer is what is stored at the time of the other
(`StoredAt.eq_of_le`). So the order in which they are answered does not matter, and it need not be
that in which the calls are made.
-/

namespace LayeredRights

/-! ### Answers from one generation -/

section Alike

variable {h : List Moment} {x y : Exchange} {login : String} {i j : Nat} {S T : Snapshot}
  {roles roles' : NameSet}

/-- A moment with a generation in use for the resident snapshot invalidates nothing. -/
theorem not_invalidates_of_uses {reports : List (Option (String × NameSet))} {e : Engine}
    (hc : Coherent h reports e) {m : Moment} (hm : m ∈ h) (hu : m.engine.Uses i S) :
    ¬m.Invalidates S := by
  rintro (hdiscard | hnone | hother)
  · exact nomatch (hc.discarded m hm hdiscard).symm.trans hu.inUse
  · exact nomatch hnone.symm.trans hu.inUse
  · exact hother hu.resident

/-- As long as nothing is invalidated for a snapshot, no other one is in use. -/
theorem Undisturbed.eq_of_usedAt {k k' k'' : Nat} (hcalm : Undisturbed h k k' S) (hk : k ≤ k'')
    (hk' : k'' ≤ k') (hu : UsedAt h k'' i T) : T = S := by
  obtain ⟨m, hm, hu⟩ := hu
  have hvalid := hcalm k'' m hk hk' hm
  simp only [Moment.Invalidates, not_or, not_not] at hvalid
  exact Option.some.inj (hu.resident.symm.trans hvalid.2.2)

/-- The report that an answer rests on has not been invalidated when the call is made. -/
theorem Exchange.Rests.exists_report {reports : List (Option (String × NameSet))} {e : Engine}
    (hx : x.Rests h login i S roles) (hc : Coherent h reports e) : ∃ (r : Nat) (m : Moment),
      h[r]? = some m ∧ m.report = some (login, roles) ∧ Undisturbed h r x.first S := by
  obtain ⟨r, m, -, hm, hreport, hafter⟩ := hx.accounts.reported
  refine ⟨r, m, hm, hreport, fun k m' hk hk' hm' ↦ ?_⟩
  rcases Nat.lt_or_eq_of_le hk' with hlt | rfl
  · exact fun hinv ↦ absurd (hafter k m' hlt hm' hinv) (Nat.not_lt_of_le hk)
  · obtain ⟨m₀, hm₀, hu⟩ := hx.used
    obtain rfl : m₀ = m' := Option.some.inj (hm₀.symm.trans hm')
    exact not_invalidates_of_uses hc (List.mem_of_getElem? hm₀) hu

/-- What was reported for an answer counts for one that is given later too, if nothing has
invalidated it. -/
theorem Accounts.transfer (hx : Accounts h x login S roles) (hy : Accounts h y login S roles')
    (hlast : x.last ≤ y.last)
    (hcalm : ∀ k m, x.first ≤ k → k < y.first → h[k]? = some m → ¬m.Invalidates S) :
    Accounts h y login S roles := by
  obtain ⟨r, m, hr, hm, hreport, hafter⟩ := hx.reported
  refine ⟨hy.resident, r, m, Nat.le_trans hr hlast, hm, hreport, fun k m' hk hm' hinv ↦ ?_⟩
  rcases Nat.lt_or_ge k x.first with hlt | hge
  · exact hafter k m' hlt hm' hinv
  · exact absurd hinv (hcalm k m' hge hk hm')

/-- Two answers from one generation rest on the same action set, and so on the same roles. -/
theorem Exchange.Rests.answeredBy (hchain : h.IsChain fun m m' ↦ m.engine.Retains m'.engine)
    (hx : x.Rests h login i S roles) (hy : y.Rests h login i S roles')
    (hsubject : y.call.subject? = some login) (hlast : x.last ≤ y.last)
    (hcalm : ∀ k m, x.first ≤ k → k < y.first → h[k]? = some m → ¬m.Invalidates S) :
    y.AnsweredBy h login S roles where
  accounts := hx.accounts.transfer hy.accounts hlast hcalm
  answer := by
    rw [← hy.answer, Configuration.answer?_eq _ _ hsubject, Configuration.answer?_eq _ _ hsubject,
      hx.stored.eq_of_le hchain hlast hy.stored]

/-- **Queries between which nothing is invalidated are answered alike**, whichever of the answers is
given first. -/
theorem Exchange.Rests.alike (hchain : h.IsChain fun m m' ↦ m.engine.Retains m'.engine)
    {S₀ : Snapshot} (hx : x.Rests h login i S roles) (hy : y.Rests h login j T roles')
    (hsubject : x.call.subject? = some login) (hsubject' : y.call.subject? = some login)
    (hle : y.first ≤ x.first) (hcalm : Undisturbed h y.first x.first S₀) :
    ∃ found, x.AnsweredBy h login S₀ found ∧ y.AnsweredBy h login S₀ found := by
  obtain rfl := hcalm.eq_of_usedAt hle (Nat.le_refl _) hx.used
  obtain rfl := hcalm.eq_of_usedAt (Nat.le_refl _) hle hy.used
  -- the generation that the earlier query began in is still in use for the later one
  obtain ⟨m, hm, -⟩ := hx.used
  have hlater := hy.used.of_le hchain hle (List.getElem?_eq_some_iff.1 hm).1 hcalm
  obtain ⟨rfl, -⟩ := hlater.unique hx.used
  rcases Nat.le_total x.last y.last with hlast | hlast
  · refine ⟨roles, hx.toAnsweredBy, hx.answeredBy hchain hy hsubject' hlast fun k m hk hk' ↦ ?_⟩
    exact absurd (Nat.lt_of_le_of_lt hk hk') (Nat.not_lt_of_le hle)
  · refine ⟨roles', hy.answeredBy hchain hx hsubject hlast fun k m hk hk' ↦ ?_, hy.toAnsweredBy⟩
    exact hcalm k m hk (Nat.le_of_lt hk')

end Alike

namespace Session

variable {m : Type → Type} [Monad m] {W : Type}

/-- **What becomes of queries once the directory has recovered**, that is, reports the same roles
for a login from moment `n` on. They are answered for these roles, or for some that were reported
before and have not been invalidated since, none if that look-up failed. Queries between which
nothing is invalidated are answered for the same roles, so what a failed look-up came to goes on
being used. -/
theorem recovered_of_mem_exchanges (ρ : Runner m W) (d : Documents m) (editAction : String) (w : W)
    (moves : List (Move W)) {login : String} {roles : NameSet} {n : Nat} {x : Exchange}
    (hrecovered : ∀ (k : Nat) (m : Moment) (found : NameSet), n ≤ k →
      ((fresh editAction w).run ρ d moves).moments[k]? = some m →
      m.report = some (login, found) → found = roles)
    (hx : x ∈ ((fresh editAction w).run ρ d moves).exchanges)
    (hsubject : x.call.subject? = some login) (hok : x.answer.isError = false) :
    let h := ((fresh editAction w).run ρ d moves).moments
    (∃ S found, x.AnsweredBy h login S found ∧
      (found = roles ∨ ∃ (r : Nat) (m : Moment), r < n ∧ h[r]? = some m ∧
        m.report = some (login, found) ∧ Undisturbed h r x.first S)) ∧
    ∀ y ∈ ((fresh editAction w).run ρ d moves).exchanges, y.call.subject? = some login →
      y.answer.isError = false → y.first ≤ x.first → ∀ S, Undisturbed h y.first x.first S →
        ∃ found, x.AnsweredBy h login S found ∧ y.AnsweredBy h login S found := by
  intro h
  have hs : ((fresh editAction w).run ρ d moves).Sound := sound_run (sound_fresh editAction w) moves
  have ht : ((fresh editAction w).run ρ d moves).Retaining :=
    retaining_run (retaining_fresh editAction w) moves
  have hr : ((fresh editAction w).run ρ d moves).Rooted :=
    rooted_run (rooted_fresh editAction w) (sound_fresh editAction w)
      (retaining_fresh editAction w) moves
  have hrests : ∀ y ∈ ((fresh editAction w).run ρ d moves).exchanges,
      y.call.subject? = some login → y.answer.isError = false →
        ∃ i S found, y.Rests h login i S found := by
    intro y hy hsub hnot
    exact (hr.rests y hy login hsub).resolve_left (by simp [hnot])
  obtain ⟨i, S, found, hrx⟩ := hrests x hx hsubject hok
  refine ⟨⟨S, found, hrx.toAnsweredBy, ?_⟩, fun y hy hsub hnot hle S₀ hcalm ↦ ?_⟩
  · obtain ⟨r, m', hm', hreport, hcalm⟩ := hrx.exists_report hs.coherent
    rcases Nat.lt_or_ge r n with hlt | hge
    · exact .inr ⟨r, m', hlt, hm', hreport, hcalm⟩
    · exact .inl (hrecovered r m' found hge hm' hreport)
  · obtain ⟨j, T, found', hry⟩ := hrests y hy hsub hnot
    exact hrx.alike ht.chain hry hsubject hsub hle hcalm

/-- The look-up of roles fails once, and works again after a discard. -/
def failingOnce : List (Move MemoryDocuments) :=
  [.event (.call (.tryIsAllowed "ann" "read")),
    .event (.rolesFound (.error (.unavailable "gone"))),
    .event (.call (.tryIsAllowed "ann" "read")), .event (.call .discard),
    .event (.call (.tryIsAllowed "ann" "read")),
    .event (.rolesFound (.ok (NameSet.ofList ["staff"])))]

/-- The second query is answered as the first one was. -/
theorem recovered_failingOnce :
    let s := (fresh "edit" office).run (.stateful _) MemoryDocuments.documents failingOnce
    ∃ x ∈ s.exchanges, ∃ y ∈ s.exchanges, x.first = 3 ∧ y.last = 2 ∧
      ∃ S found, x.AnsweredBy s.moments "ann" S found ∧ y.AnsweredBy s.moments "ann" S found := by
  intro s
  have hreports : s.moments.map (·.report) =
      [none, none, some ("ann", ∅), none, none, none, some ("ann", NameSet.ofList ["staff"])] := rfl
  have hrecovered : ∀ (k : Nat) (m : Moment) (found : NameSet), 3 ≤ k → s.moments[k]? = some m →
      m.report = some ("ann", found) → found = NameSet.ofList ["staff"] := by
    intro k m found hk hm hreport
    have hreported : (s.moments.map (·.report))[k]? = some (some ("ann", found)) := by
      rw [List.getElem?_map, hm, Option.map_some, hreport]
    rw [hreports] at hreported
    have hlt : k < 7 := (List.getElem?_eq_some_iff.1 hreported).1
    interval_cases k <;> simp_all
  have hcalm : Undisturbed s.moments 1 3 ⟨0, office.base.alone⟩ := by
    intro j m hj hj' hm
    interval_cases j
    all_goals
      obtain rfl := Option.some.inj hm
      rintro (hdiscard | hnone | hother)
      · exact nomatch hdiscard
      · exact nomatch hnone
      · exact hother rfl
  have hx : ⟨.tryIsAllowed "ann" "read", 3, 3, .decision (.ok false)⟩ ∈ s.exchanges :=
    List.mem_of_getElem? (i := 1) rfl
  have hy : ⟨.tryIsAllowed "ann" "read", 1, 2, .decision (.ok false)⟩ ∈ s.exchanges :=
    List.mem_of_getElem? (i := 0) rfl
  obtain ⟨-, halike⟩ := recovered_of_mem_exchanges (.stateful _) MemoryDocuments.documents "edit"
    office failingOnce hrecovered hx rfl rfl
  exact ⟨_, hx, _, hy, rfl, rfl, _, halike _ hy rfl rfl (by decide) _ hcalm⟩

/-- A directory that has recovered makes no difference yet: the second query is denied, although the
roles that the directory reports by then allow it in the configuration in force. -/
theorem denied_failingOnce :
    let s := (fresh "edit" office).run (.stateful _) MemoryDocuments.documents failingOnce
    s.moments.map (·.report) = [none, none, some ("ann", ∅), none, none, none,
        some ("ann", NameSet.ofList ["staff"])] ∧
      ∃ x ∈ s.exchanges, ∃ m, x.call = .tryIsAllowed "ann" "read" ∧ x.first = 3 ∧
        s.moments[3]? = some m ∧ m.engine.store.resident = some ⟨0, office.base.alone⟩ ∧
        x.answer = .decision (.ok false) ∧
        office.base.alone.answer? (NameSet.ofList ["staff"]) x.call =
          some (.decision (.ok true)) :=
  ⟨rfl, _, List.mem_of_getElem? (i := 1) rfl, _, rfl, rfl, rfl, rfl, rfl, rfl⟩

end Session

end LayeredRights
