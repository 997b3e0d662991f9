import LayeredRights.Proofs.Resolver.CacheFree

/-!
# What an outage of the directory makes of decisions

A look-up of roles that fails counts as no roles. So a resolver whose directory never reports any
roles for a login decides as the configuration in force does for the login alone, and one whose
directory always reports the same roles decides as it does for these (`Session.Sound.outputFor_eq`).
It makes no difference what has been cached meanwhile, since all of it was built from such reports.

Whoever has fewer roles has fewer actions listed. What that means depends on the mode. In an
allow-listed configuration an outage grants nothing. In a deny-listed one it grants exactly what is
listed for the login by its roles alone (`Session.outage_grants`).

Both parts rest on the soundness of sessions alone. A set that has been stored for the login was
built from roles that were reported for it at some moment, and all reports are alike by assumption.
If none is stored, the reply that is given now is such a report as well.
-/

namespace LayeredRights

/-! ### Questions about a login -/

/-- The call asks for a decision about an action of a login. -/
def Call.Asks (login action : String) (c : Call) : Prop :=
  c = .isAllowed login action ∨ c = .tryIsAllowed login action

namespace Configuration

/-- The action is listed for a login with these roles, and not for the login without them. -/
def ListsByRoles (c : Configuration) (login : String) (roles : NameSet) (action : String) : Prop :=
  c.Lists ⟨login, roles⟩ action ∧ ¬c.Lists ⟨login, ∅⟩ action

variable {c : Configuration} {login action : String} {roles : NameSet}

/-- Roles grant only, in an allow-listed configuration. -/
theorem allows_of_allows_empty (hm : c.mode = .allowListed)
    (h : c.allows ⟨login, ∅⟩ action = true) : c.allows ⟨login, roles⟩ action = true := by
  rw [allows_iff_of_allowListed hm] at h ⊢
  exact h.mono fun r hr ↦ absurd hr List.not_mem_nil

/-- What roles deny, in a deny-listed configuration. -/
theorem allows_empty_and_not_allows_iff (hm : c.mode = .denyListed) :
    c.allows ⟨login, ∅⟩ action = true ∧ c.allows ⟨login, roles⟩ action = false ↔
      c.ListsByRoles login roles action := by
  rw [← Bool.not_eq_true, allows_iff_of_denyListed hm, allows_iff_of_denyListed hm, not_not]
  exact and_comm

end Configuration

/-! ### Answers -/

namespace Engine

variable {e : Engine} {i : Nat} {login action : String} {g : Generation}

/-- Roles that arrive are what the decision is made for, if nothing has been stored for the login
in the meantime. -/
theorem fst_build (hg : e.generations[i]? = some g) (hnone : g.find? login = none)
    (roles : NameSet) : (e.build ⟨i, login, .decide action⟩ roles).1 =
      .answered (.decision (.ok (g.snapshot.configuration.allows ⟨login, roles⟩ action))) := by
  have hbuilt := getElem?_built (q := ⟨i, login, .decide action⟩) hg roles
  have hmode : (e.built ⟨i, login, .decide action⟩ g roles).modeOf i =
      g.snapshot.configuration.mode := by
    rw [modeOf_eq hbuilt, g.snapshot_remember]
  rw [build_of_find?_eq_none hg hnone, satisfy, hmode]
  rfl

/-- A look-up that fails counts as no roles. -/
theorem fst_rolesFound (hg : e.generations[i]? = some g) (hnone : g.find? login = none)
    (reply : Except DirectoryError NameSet) :
    (e.rolesFound ⟨i, login, .decide action⟩ reply).1 = .answered (.decision
      (.ok (g.snapshot.configuration.allows ⟨login, reply.toOption.getD ∅⟩ action))) := by
  cases reply with
  | ok roles => exact fst_build hg hnone roles
  | error err => exact fst_build (e := e.report [.rolesUnavailable login]) hg hnone ∅

variable {m : Type → Type} [Monad m] {W : Type} (ρ : Runner m W) (d : Documents m)

/-- What becomes of a call, if the directory gives this reply when it is asked for roles. -/
def outputFor (e : Engine) (w : W) (c : Call) (reply : Except DirectoryError NameSet) : Output :=
  match ρ.run (e.step d (.call c)) w with
  | ((.asked _, e'), w') => (ρ.run (e'.step d (.rolesFound reply)) w').1.1
  | ((out, _), _) => out

/-- A question is a query in the generation of the configuration in force. -/
theorem run_step_of_asks {c : Call} (hc : c.Asks login action) {w w' : W} {S : Snapshot} {s : Store}
    (hperform : ρ.perform (Store.current d) e.store w = (.ok S, s, w')) {e' : Engine}
    (hgen : Engine.generationFor { e with store := s } S = (i, e')) :
    ρ.run (e.step d (.call c)) w = (e'.query ⟨i, login, .decide action⟩, w') := by
  have hbegin : ∀ failed : RightsError → Engine → Output × Engine,
      ρ.run (beginQuery d e login (.decide action) failed) w =
        (e'.query ⟨i, login, .decide action⟩, w') := by
    intro failed
    rw [beginQuery, ρ.run_bind, ρ.run_withStore, hperform]
    simp only [hgen, ρ.run_pure]
  rcases hc with rfl | rfl
  · rw [step, call]
    exact hbegin _
  · rw [step, call]
    exact hbegin _

end Engine

/-! ### Sessions with one kind of reports -/

namespace Session

variable {m : Type → Type} [Monad m] {W : Type} {ρ : Runner m W} {d : Documents m}
  {s s' : Session W} {login action : String} {roles : NameSet} {c : Configuration}

/-- Whatever has been reported for the login so far is these roles. -/
def ReportsOnly (s : Session W) (login : String) (roles : NameSet) : Prop :=
  ∀ reported, some (login, reported) ∈ s.moments.map (·.report) → reported = roles

/-- The store answers this configuration when it is asked for the one in force. -/
def InForce (ρ : Runner m W) (d : Documents m) (s : Session W) (c : Configuration) : Prop :=
  (ρ.perform (Store.current d) s.engine.store s.world).1.map (·.configuration) = .ok c

/-- **A decision is made for the roles that are reported**, be it now or earlier. -/
theorem Sound.outputFor_eq (hs : s.Sound) (hforce : s.InForce ρ d c)
    (hreports : s.ReportsOnly login roles) {q : Call} (hq : q.Asks login action)
    {reply : Except DirectoryError NameSet} (hreply : reply.toOption.getD ∅ = roles) :
    s.engine.outputFor ρ d s.world q reply =
      .answered (.decision (.ok (c.allows ⟨login, roles⟩ action))) := by
  rcases hperform : ρ.perform (Store.current d) s.engine.store s.world with ⟨err | S, store, w'⟩
  · rw [InForce, hperform] at hforce
    exact nomatch hforce
  · rw [InForce, hperform] at hforce
    obtain rfl : S.configuration = c := Except.ok.inj hforce
    obtain ⟨hsteps, hresident⟩ := ρ.steps_current d hperform
    rcases hgen : Engine.generationFor { s.engine with store := store } S with ⟨i, e'⟩
    obtain ⟨hc, -, -, ⟨g, hg, rfl⟩, -⟩ :=
      (hs.coherent.store hsteps).generationFor (hresident S rfl)
    rw [hgen] at hc hg
    have hcached : e'.cached? i login = g.find? login := Engine.cached?_eq hg login
    rw [Engine.outputFor, Engine.run_step_of_asks ρ d hq hperform hgen, Engine.query]
    dsimp only
    rw [hcached]
    cases hfind : g.find? login with
    | none =>
      -- the roles are asked for, and the reply is what the decision is made for
      dsimp only [Engine.ask]
      rw [Engine.step, ρ.run_pure, ← hreply]
      exact Engine.fst_rolesFound hg hfind reply
    | some actions =>
      obtain ⟨r, reported, hr, rfl, -⟩ := hc.stored i g hg login actions hfind
      obtain rfl := hreports reported (List.mem_of_getElem? hr)
      have hmode : e'.modeOf i = g.snapshot.configuration.mode := Engine.modeOf_eq hg
      dsimp only [Engine.satisfy]
      rw [hmode]
      rfl

/-- **What an outage grants.** Two sessions have the same configuration in force. In the first the
directory has never reported any roles for a login and fails now, and in the second it has reported
the same roles all along. -/
theorem outage_grants (ρ : Runner m W) (d : Documents m) (editAction editAction' : String)
    (w w' : W) (moves moves' : List (Move W)) (roles : NameSet) (err : DirectoryError)
    {q q' : Call} (hq : q.Asks login action) (hq' : q'.Asks login action)
    (hreports : ((fresh editAction w).run ρ d moves).ReportsOnly login ∅)
    (hreports' : ((fresh editAction' w').run ρ d moves').ReportsOnly login roles)
    (hforce : ((fresh editAction w).run ρ d moves).InForce ρ d c)
    (hforce' : ((fresh editAction' w').run ρ d moves').InForce ρ d c) :
    let s := (fresh editAction w).run ρ d moves
    let s' := (fresh editAction' w').run ρ d moves'
    ∃ granted granted',
      s.engine.outputFor ρ d s.world q (.error err) = .answered (.decision (.ok granted)) ∧
      s'.engine.outputFor ρ d s'.world q' (.ok roles) = .answered (.decision (.ok granted')) ∧
      (c.mode = .allowListed → granted = true → granted' = true) ∧
      (c.mode = .denyListed →
        (granted = true ∧ granted' = false ↔ c.ListsByRoles login roles action)) := by
  have hs := sound_run (ρ := ρ) (d := d) (sound_fresh editAction w) moves
  have hs' := sound_run (ρ := ρ) (d := d) (sound_fresh editAction' w') moves'
  exact ⟨_, _, hs.outputFor_eq hforce hreports hq rfl, hs'.outputFor_eq hforce' hreports' hq' rfl,
    Configuration.allows_of_allows_empty, Configuration.allows_empty_and_not_allows_iff⟩

/-- What the roles of staff were found to be for a question asked earlier. -/
def earlierQuestion : List (Move MemoryDocuments) :=
  [.event (.call (.isAllowed "staff" "read")),
    .event (.rolesFound (.ok (NameSet.ofList ["boss"])))]

/-- What staff may do by that very name outlasts an outage. -/
theorem outage_grants_office :
    let s := fresh "edit" office
    let s' := (fresh "edit" office).run (.stateful _) MemoryDocuments.documents earlierQuestion
    s.engine.outputFor (.stateful _) MemoryDocuments.documents s.world (.isAllowed "staff" "read")
        (.error (.unavailable "gone")) = .answered (.decision (.ok true)) ∧
      s'.engine.outputFor (.stateful _) MemoryDocuments.documents s'.world
        (.tryIsAllowed "staff" "read") (.ok (NameSet.ofList ["boss"])) =
          .answered (.decision (.ok true)) := by
  intro s s'
  have hasks : (Call.isAllowed "staff" "read").Asks "staff" "read" := .inl rfl
  have hreports : s.ReportsOnly "staff" ∅ := by
    intro reported hreported
    exact absurd hreported (by simp [s, fresh])
  have hreports' : s'.ReportsOnly "staff" (NameSet.ofList ["boss"]) := by
    have hmap : s'.moments.map (·.report) =
        [none, none, some ("staff", NameSet.ofList ["boss"])] := rfl
    intro reported hreported
    rw [hmap] at hreported
    simpa using hreported
  obtain ⟨granted, granted', houtput, houtput', hallow, -⟩ :=
    outage_grants (.stateful _) MemoryDocuments.documents "edit" "edit" office office []
      earlierQuestion (NameSet.ofList ["boss"]) (.unavailable "gone") hasks (.inr rfl) hreports
      hreports' (c := office.base.alone) rfl rfl
  obtain rfl : granted = true := by
    have htrue : Output.answered (.decision (.ok granted)) = .answered (.decision (.ok true)) :=
      houtput.symm
    simpa using htrue
  exact ⟨houtput, houtput'.trans (by rw [hallow rfl rfl])⟩

/-- In a deny-listed office staff may read only while the directory fails. -/
theorem outage_grants_denyListed :
    let closed := { office with base := { office.base with mode := .denyListed } }
    let s := fresh "edit" closed
    s.InForce (.stateful _) MemoryDocuments.documents closed.base.alone ∧
      s.engine.outputFor (.stateful _) MemoryDocuments.documents closed (.isAllowed "ann" "read")
        (.error (.unavailable "gone")) = .answered (.decision (.ok true)) ∧
      s.engine.outputFor (.stateful _) MemoryDocuments.documents closed (.isAllowed "ann" "read")
        (.ok (NameSet.ofList ["staff"])) = .answered (.decision (.ok false)) :=
  ⟨rfl, rfl, rfl⟩

end Session

end LayeredRights
