import LayeredRights.Proofs.Service

/-!
# Whom an action reaches

Whether a configuration as a whole still leaves an action to somebody is computed from all its user
profiles at once, and what a principal may do from those that apply to it. The two agree for every
configuration, also for one that defines a profile or a login twice
(`Configuration.referencedActions_reach`). An action is referenced exactly when a resolver lists it
for some principal. So it is granted in an allow-listed configuration when a resolver allows it to
somebody, and in a deny-listed one when it allows it to everybody.

Of a resolver only what it answers is used here. `Configuration.Answers` says it of every engine in
which nothing has been stored for the login yet.

That is how the two are brought together without mentioning `Lists` in the result: on one side is
the set that the configuration computes for itself, on the other the answers of a resolver. Behind
both of them is `mem_listedActions`, which is why no assumption on the configuration is needed.
-/

namespace LayeredRights

namespace Configuration

variable {c : Configuration} {p : Principal} {action : String} {a : Answer}

/-- What a resolver answers for a principal once the directory has reported its roles, if it builds
the action set in a generation for this configuration. -/
def Answers (c : Configuration) (p : Principal) (purpose : Purpose) (a : Answer) : Prop :=
  ∀ (e : Engine) (i : Nat) (g : Generation), e.generations[i]? = some g →
    g.snapshot.configuration = c → g.find? p.login = none →
      (e.build ⟨i, p.login, purpose⟩ p.roles).1 = .answered a

/-- Two resolvers that answer by the same configuration answer the same. -/
theorem Answers.unique {purpose : Purpose} {a' : Answer} (h : c.Answers p purpose a)
    (h' : c.Answers p purpose a') : a = a' := by
  let e : Engine := { generations := [{ snapshot := ⟨0, c⟩ }] }
  have hbuild : (e.build ⟨0, p.login, purpose⟩ p.roles).1 = .answered a := h e 0 _ rfl rfl rfl
  exact Output.answered.inj (hbuild.symm.trans (h' e 0 _ rfl rfl rfl))

/-- What a resolver lists for a principal is what the configuration lists, and it has no other
answer. -/
theorem answers_list_iff : c.Answers p .list a ↔ a = .actions (.ok (c.listedActions p)) := by
  have hanswers : c.Answers p .list (.actions (.ok (c.listedActions p))) := by
    rintro e i g hg rfl hnone
    exact Engine.fst_build_list hg hnone p.roles
  exact ⟨fun h ↦ h.unique hanswers, fun h ↦ h ▸ hanswers⟩

/-- What a resolver decides for a principal is what the configuration decides, and it has no other
answer. -/
theorem answers_decide_iff :
    c.Answers p (.decide action) a ↔ a = .decision (.ok (c.allows p action)) := by
  have hanswers : c.Answers p (.decide action) (.decision (.ok (c.allows p action))) := by
    rintro e i g hg rfl hnone
    exact Engine.fst_build hg hnone p.roles
  exact ⟨fun h ↦ h.unique hanswers, fun h ↦ h ▸ hanswers⟩

/-- A resolver allows what the configuration allows. -/
theorem answers_decide_true_iff :
    c.Answers p (.decide action) (.decision (.ok true)) ↔ c.allows p action = true := by
  rw [answers_decide_iff]
  constructor
  · intro h
    exact (Except.ok.inj (Answer.decision.inj h)).symm
  · intro h
    rw [h]

/-- **Whom an action reaches.** It is referenced when a resolver lists it for some principal. It is
granted when a resolver allows it, to somebody in an allow-listed configuration and to everybody in
a deny-listed one. -/
theorem referencedActions_reach (c : Configuration) (action : String) :
    (action ∈ c.referencedActions ↔
      ∃ p actions, c.Answers p .list (.actions (.ok actions)) ∧ action ∈ actions) ∧
    (c.mode = .allowListed → (c.grants action = true ↔
      ∃ p, c.Answers p (.decide action) (.decision (.ok true)))) ∧
    (c.mode = .denyListed → (c.grants action = true ↔
      ∀ p, c.Answers p (.decide action) (.decision (.ok true)))) := by
  have hgrants : c.grants action = true ↔ ¬c.LocksOut action := by
    rw [← grants_eq_false_iff, Bool.not_eq_false]
  simp only [answers_decide_true_iff]
  refine ⟨?_, fun hm ↦ ?_, fun hm ↦ ?_⟩
  · rw [mem_referencedActions]
    refine exists_congr fun p ↦ ?_
    rw [← mem_listedActions]
    constructor
    · intro hmem
      exact ⟨c.listedActions p, answers_list_iff.2 rfl, hmem⟩
    · rintro ⟨actions, hanswers, hmem⟩
      obtain rfl := Except.ok.inj (Answer.actions.inj (answers_list_iff.1 hanswers))
      exact hmem
  -- not granted is allowed to nobody, so granted is allowed to somebody
  · rw [hgrants, LocksOut, hm]
    simp
  -- not granted is denied to somebody, so granted is allowed to everybody
  · rw [hgrants, LocksOut, hm]
    simp

/-- A market that defines a profile and a login twice, and refers to a profile that is not there. -/
def market : Configuration where
  mode := .allowListed
  profiles := [{ name := "stall", actions := ["buy"] }, { name := "stall", actions := ["sell"] }]
  userProfiles :=
    [{ login := "ann", profiles := ["cellar", "stall"] }, { login := "ann", profiles := [] }]

/-- The later of the two profiles counts: somebody may sell there, and nobody may buy. -/
theorem referencedActions_reach_market : market.mode = .allowListed ∧
    (∃ p, market.Answers p (.decide "sell") (.decision (.ok true))) ∧
    ¬∃ p, market.Answers p (.decide "buy") (.decision (.ok true)) := by
  obtain ⟨-, hsell, -⟩ := referencedActions_reach market "sell"
  obtain ⟨-, hbuy, -⟩ := referencedActions_reach market "buy"
  refine ⟨rfl, (hsell rfl).1 (by decide), fun h ↦ ?_⟩
  exact absurd ((hbuy rfl).2 h) (by decide)

end Configuration

end LayeredRights
