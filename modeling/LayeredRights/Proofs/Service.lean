import LayeredRights.Proofs.Resolver.Outage
import LayeredRights.Rights.Service

/-!
# What a service answers at first

A service that nobody has asked for an action set yet answers by nothing but what is in force and
what its directory says: the configuration in force decides for the login with the roles that the
directory has for it (`Service.exists_run_consult_tryIsAllowed`), and it lists what it lists for
them (`Service.exists_run_consult_effectiveActions`). An error of the documents is the answer to
either question.

Both are one query, which looks up the roles of the login, builds its action set and answers from
it (`Service.exists_run_consult`).

The query is followed through the engine event by event. Its first event loads what is in force and
asks for the roles, and its second takes the roles and answers (`exists_run_consult`). Between the
two nobody else is served, since a service puts its questions to its own directory. What the two
questions have in common is kept apart from what each makes of the snapshot, which is the argument
`give`.
-/

namespace LayeredRights

variable {m : Type → Type} [Monad m] {W : Type} {ρ : Runner m W}

namespace Engine

variable {e : Engine} {d : Documents m} {login action : String} {S : Snapshot}

/-- No action set has been built yet. -/
structure Unused (e : Engine) : Prop where
  generations : e.generations = []
  inUse? : e.inUse? = none

/-- What is asked for is what is listed for the login with its roles, if nothing has been stored
for it in the meantime. -/
theorem fst_build_list {i : Nat} {g : Generation} (hg : e.generations[i]? = some g)
    (hnone : g.find? login = none) (roles : NameSet) :
    (e.build ⟨i, login, .list⟩ roles).1 =
      .answered (.actions (.ok (g.snapshot.configuration.listedActions ⟨login, roles⟩))) := by
  rw [build_of_find?_eq_none hg hnone]
  rfl

/-- The first generation is one for the snapshot in force, without any action set. -/
theorem Unused.exists_generationFor (he : e.Unused) (s : Store) (S : Snapshot) :
    ∃ e', Engine.generationFor { e with store := s } S = (0, e') ∧ e'.frames = e.frames ∧
      e'.generations = [{ snapshot := S }] := by
  have hinUse : Engine.inUseFor? { e with store := s } S = none := by
    have hnone : e.resolver.bind (·.inUse) = none := he.inUse?
    rw [inUseFor?, hnone]
    rfl
  rw [generationFor, hinUse]
  dsimp only
  rw [he.generations]
  exact ⟨_, rfl, rfl, rfl⟩

/-- The first query asks for the roles of its login. -/
theorem Unused.exists_run_beginQuery (he : e.Unused) {w w' : W} {s : Store}
    (hperform : ρ.perform (Store.current d) e.store w = (.ok S, s, w')) (login : String)
    (purpose : Purpose) (failed : RightsError → Engine → Output × Engine) :
    ∃ e', ρ.run (e.beginQuery d login purpose failed) w = ((.asked (.rolesOf login), e'), w') ∧
      e'.frames = .lookingUp ⟨0, login, purpose⟩ :: e.frames ∧
      e'.generations[0]? = some { snapshot := S } := by
  obtain ⟨e', hgen, hframes, hgenerations⟩ := he.exists_generationFor s S
  have hfirst : e'.generations[0]? = some { snapshot := S } := by
    rw [hgenerations]
    rfl
  have hcached : e'.cached? 0 login = none := cached?_eq hfirst login
  rw [beginQuery, ρ.run_bind, ρ.run_withStore, hperform]
  simp only [hgen, ρ.run_pure, query, hcached, ask]
  exact ⟨_, rfl, congrArg _ hframes, hfirst⟩

end Engine

namespace Service

variable {v : Service m} {login : String}

omit [Monad m] in
/-- Nobody has asked a fresh service for anything. -/
theorem unused_fresh (d : Documents m) (directory : Directory) (editAction : String) :
    (fresh d directory editAction).engine.Unused := ⟨rfl, rfl⟩

/-- The configuration in force is answered at once. -/
theorem run_consult_current {w w' : W} {r : Except RightsError Snapshot} {s : Store}
    (hperform : ρ.perform (Store.current v.documents) v.engine.store w = (r, s, w')) :
    ρ.run (v.consult .current) w =
      ((some (.snapshot r), { v with engine := { v.engine with store := s } }), w') := by
  rw [consult, ρ.run_bind, Engine.step, Engine.call, ρ.run_bind, ρ.run_withStore, hperform]
  simp only [ρ.run_pure]
  exact ρ.run_pure _ _

/-- **The first query** is answered from what is in force and from the roles in the directory. -/
theorem exists_run_consult (hv : v.engine.Unused) {c : Call} {purpose : Purpose}
    {failed : RightsError → Engine → Output × Engine} (give : Except RightsError Snapshot → Answer)
    (hcall : v.engine.call v.documents c = v.engine.beginQuery v.documents login purpose failed)
    (hfailed : ∀ err e, (failed err e).1 = .answered (give (.error err)))
    (hbuild : ∀ (e : Engine) (g : Generation), e.generations[0]? = some g → g.find? login = none →
      (e.build ⟨0, login, purpose⟩ (v.directory.rolesOf login)).1 =
        .answered (give (.ok g.snapshot)))
    {w w' : W} {r : Except RightsError Snapshot} {s : Store}
    (hperform : ρ.perform (Store.current v.documents) v.engine.store w = (r, s, w')) :
    ∃ v', ρ.run (v.consult c) w = ((some (give r), v'), w') := by
  rw [consult, ρ.run_bind, Engine.step, hcall]
  cases r with
  | error err =>
    -- the documents do not come to a configuration, and that is the answer
    have hrun : ρ.run (v.engine.beginQuery v.documents login purpose failed) w =
        (failed err { v.engine with store := s }, w') := by
      rw [Engine.beginQuery, ρ.run_bind, ρ.run_withStore, hperform]
      exact ρ.run_pure _ _
    rw [hrun]
    have hanswered := hfailed err { v.engine with store := s }
    rcases hanswer : failed err { v.engine with store := s } with ⟨o, e⟩
    rw [hanswer] at hanswered
    obtain rfl : o = .answered (give (.error err)) := hanswered
    exact ⟨_, ρ.run_pure _ _⟩
  | ok S =>
    obtain ⟨e, hrun, hframes, hg⟩ :=
      hv.exists_run_beginQuery hperform login purpose failed
    rw [hrun]
    -- the roles are asked for, and the directory replies at once
    dsimp only [patience]
    rw [converse, ρ.run_bind]
    dsimp only [reply, Engine.step]
    rw [hframes]
    dsimp only [Engine.rolesFound]
    rw [ρ.run_pure]
    have hanswered := hbuild { e with frames := v.engine.frames } _ hg rfl
    rcases hanswer : Engine.build { e with frames := v.engine.frames } ⟨0, login, purpose⟩
      (v.directory.rolesOf login) with ⟨o, e'⟩
    rw [hanswer] at hanswered
    obtain rfl : o = .answered (give (.ok S)) := hanswered
    exact ⟨_, ρ.run_pure _ _⟩

/-- A fresh service decides by the configuration in force and by the roles in the directory. -/
theorem exists_run_consult_tryIsAllowed (hv : v.engine.Unused) (login action : String) {w w' : W}
    {r : Except RightsError Snapshot} {s : Store}
    (hperform : ρ.perform (Store.current v.documents) v.engine.store w = (r, s, w')) :
    ∃ v', ρ.run (v.consult (.tryIsAllowed login action)) w =
      ((some (.decision (r.map fun S ↦
        S.configuration.allows ⟨login, v.directory.rolesOf login⟩ action)), v'), w') :=
  exists_run_consult hv (fun r ↦ .decision (r.map fun S ↦
      S.configuration.allows ⟨login, v.directory.rolesOf login⟩ action))
    rfl (fun _ _ ↦ rfl) (fun _ _ hg hnone ↦ Engine.fst_build hg hnone _) hperform

/-- A fresh service lists by the configuration in force and by the roles in the directory. -/
theorem exists_run_consult_effectiveActions (hv : v.engine.Unused) (login : String) {w w' : W}
    {r : Except RightsError Snapshot} {s : Store}
    (hperform : ρ.perform (Store.current v.documents) v.engine.store w = (r, s, w')) :
    ∃ v', ρ.run (v.consult (.effectiveActions login)) w =
      ((some (.actions (r.map fun S ↦
        S.configuration.listedActions ⟨login, v.directory.rolesOf login⟩)), v'), w') :=
  exists_run_consult hv (fun r ↦ .actions (r.map fun S ↦
      S.configuration.listedActions ⟨login, v.directory.rolesOf login⟩))
    rfl (fun _ _ ↦ rfl) (fun _ _ hg hnone ↦ Engine.fst_build_list hg hnone _) hperform

end Service

end LayeredRights
