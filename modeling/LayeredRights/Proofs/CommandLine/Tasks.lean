import LayeredRights.CommandLine
import LayeredRights.Proofs.Document.Files
import LayeredRights.Proofs.Service

/-!
# What commands come to

A command is composed of tasks. `Task.Gives` says what a task comes to in a file system which it
leaves as it is, and there is one rule for each way to compose tasks. So it follows the program to
say what a command comes to.

All that the commands go by that ask an engine is one thing, the `basis` of a run: the settings, the
directory of users that they name, and the configuration that the documents come to. Given that,
each of them says something else: `gives_check`, `gives_actions`, `gives_present`.

Tasks gather notices on the way, and what has been noticed has no influence on anything that comes
after. So `Task.Gives` is stated for all notices at once, and the rules do not mention them. The
file system is the same before and after, which leaves the result alone to be calculated with: a
command that asks an engine gives `(basis around path t).map out`, where `out` is all that it has of
its own.

Applying a document is the one command that is no such task, since it writes.
-/

namespace LayeredRights

namespace CommandLine

variable {α β : Type} {t : FileTree} {around : Surroundings} {path : String}

/-! ### Tasks -/

namespace Task

/-- The task comes to a result and leaves all files alone, whatever has been noticed before. -/
def Gives (x : Task α) (t : FileTree) (r : Except Failure α) : Prop :=
  ∀ ns, ∃ ns', t.run (x.run.run ns) = ((r, ns'), t)

theorem gives_pure (a : α) (t : FileTree) : (pure a : Task α).Gives t (.ok a) := fun ns ↦ ⟨ns, rfl⟩

theorem gives_throw (e : Failure) (t : FileTree) : (throw e : Task α).Gives t (.error e) :=
  fun ns ↦ ⟨ns, rfl⟩

/-- A task that succeeds goes on. -/
theorem Gives.bind_ok {x : Task α} {f : α → Task β} {a : α} {r : Except Failure β}
    (hx : x.Gives t (.ok a)) (hf : (f a).Gives t r) : (x >>= f).Gives t r := by
  intro ns
  obtain ⟨ns₁, hrun⟩ := hx ns
  have hshape : (x >>= f).run.run ns = x.run.run ns >>= fun p ↦ ExceptT.bindCont f p.1 p.2 := rfl
  rw [hshape, Runner.tree_run_bind, hrun]
  exact hf ns₁

/-- Nothing of a task is done after a failure. -/
theorem Gives.bind_error {x : Task α} {e : Failure} (hx : x.Gives t (.error e))
    (f : α → Task β) : (x >>= f).Gives t (.error e) := by
  intro ns
  obtain ⟨ns₁, hrun⟩ := hx ns
  have hshape : (x >>= f).run.run ns = x.run.run ns >>= fun p ↦ ExceptT.bindCont f p.1 p.2 := rfl
  rw [hshape, Runner.tree_run_bind, hrun]
  exact ⟨ns₁, rfl⟩

/-- The last step of a task. -/
theorem Gives.bind_pure {x : Task α} {r : Except Failure α} (hx : x.Gives t r) (g : α → β) :
    (x >>= fun a ↦ pure (g a)).Gives t (r.map g) := by
  cases r with
  | ok a => exact hx.bind_ok (gives_pure (g a) t)
  | error e => exact hx.bind_error _

/-- A job on files gives what it comes to, if it leaves them as they are. -/
theorem gives_ofJob {job : FileJob α} {a : α} (h : t.run job = (a, t)) :
    (ofJob job).Gives t (.ok a) := by
  intro ns
  have hshape : (ofJob job).run.run ns =
      (job >>= fun a ↦ pure (a, ns)) >>= fun p ↦ pure (.ok p.1, p.2) := rfl
  rw [hshape, Runner.tree_run_bind, Runner.tree_run_bind, h]
  exact ⟨ns, rfl⟩

theorem gives_modify (g : List Notice → List Notice) (t : FileTree) :
    (modify g : Task PUnit).Gives t (.ok ⟨⟩) := fun ns ↦ ⟨g ns, rfl⟩

/-- A result is taken over, its error as a failure of the program. -/
theorem gives_ofResult {ε : Type} (failure : ε → Failure) (r : Except ε α) (t : FileTree) :
    (ofResult failure r).Gives t (r.mapError failure) := by
  cases r with
  | ok a => exact gives_pure a t
  | error e => exact gives_throw (failure e) t

end Task

/-! ### What commands rest on -/

theorem within_ofFile (path : String) : (Settings.ofFile path).Within [] := by
  unfold Settings.ofFile
  refine FileJob.within_bind (FileJob.within_exists? _) fun found ↦ ?_
  split
  · trivial
  · refine FileJob.within_bind ?_ fun located ↦ ?_
    · unfold Settings.locate
      refine FileJob.within_bind (FileJob.within_isFile _) fun isFile ↦ ?_
      split
      · trivial
      · refine FileJob.within_bind (FileJob.within_isFile _) fun isFile ↦ ?_
        split <;> trivial
    · cases located with
      | error e => trivial
      | ok path =>
        refine FileJob.within_bind (fun _ ↦ trivial) fun bytes ↦ ?_
        cases bytes with
        | error e => trivial
        | ok bytes =>
          dsimp only
          split <;> trivial

/-- Loading settings changes nothing at any path, wherever they are looked for. -/
theorem within_loadSettings (around : Surroundings) (path : String) :
    (Settings.load around path).Within [] := by
  unfold Settings.load
  refine FileJob.within_bind (within_ofFile path) fun file ↦ ?_
  cases file with
  | error e => trivial
  | ok file =>
    dsimp only
    split <;> trivial

theorem within_loadDirectory (path : String) : (Directory.load path).Within [] := by
  refine FileJob.within_bind (FileJob.within_textOf path) fun text ↦ ?_
  cases text <;> trivial

/-- What the settings in the file at a path come to. -/
def settingsAt (around : Surroundings) (path : String) (t : FileTree) :
    Except SettingsError Settings :=
  (t.run (Settings.load around path)).1

/-- What the directory of users comes to that the settings name. -/
def directoryFor (s : Settings) (t : FileTree) : Except DirectoryError Directory :=
  match s.usersFile with
  | none => .ok ∅
  | some file => (t.run (Directory.load file)).1

/-- What an engine has to go by. -/
structure Basis where
  settings : Settings
  directory : Directory
  configuration : Configuration

/-- What an engine has to go by, if there is nothing wrong with it. -/
def basis (around : Surroundings) (path : String) (t : FileTree) : Except Failure Basis :=
  ((settingsAt around path t).mapError .settings).bind fun s ↦
    ((directoryFor s t).mapError .directory).bind fun directory ↦
      ((s.files.loaded t).mapError .rights).map fun c ↦ ⟨s, directory, c⟩

theorem map_basis {out : Basis → α} : (basis around path t).map out =
    ((settingsAt around path t).mapError .settings).bind fun s ↦
      ((directoryFor s t).mapError .directory).bind fun directory ↦
        ((s.files.loaded t).mapError .rights).map fun c ↦ out ⟨s, directory, c⟩ := by
  unfold basis
  cases settingsAt around path t with
  | error e => rfl
  | ok s =>
    dsimp only [Except.mapError, Except.bind]
    cases directoryFor s t with
    | error e => rfl
    | ok directory => cases s.files.loaded t <;> rfl

/-- A service is set up from the directory. Its store holds nothing yet, so documents are not read.
-/
theorem gives_service (s : Settings) (t : FileTree) : (service s).Gives t
    (((directoryFor s t).mapError .directory).map fun directory ↦
      .fresh s.files.documents directory s.editAction) := by
  unfold service directoryFor
  cases s.usersFile with
  | none => exact (Task.gives_pure ∅ t).bind_ok (Task.gives_pure _ t)
  | some file =>
    have hload : t.run (Directory.load file) = ((t.run (Directory.load file)).1, t) :=
      Prod.ext rfl (FileTree.run_eq_of_within_nil (within_loadDirectory file) t)
    exact (Task.gives_ofJob hload).bind_ok ((Task.gives_ofResult .directory _ t).bind_pure _)

/-- A question is answered by the engine, or fails as the engine does. -/
theorem gives_ask {v v' : Service FileJob} {c : Call} {a : Answer}
    {read? : Answer → Option (Except RightsError α)} (r : Except RightsError α)
    (hconsult : Runner.tree.run (v.consult c) t = ((some a, v'), t)) (hread : read? a = some r) :
    (ask v c read?).Gives t ((r.mapError .rights).map fun a ↦ (a, v')) := by
  refine (Task.gives_ofJob hconsult).bind_ok ((Task.gives_modify _ t).bind_ok ?_)
  dsimp only [Option.bind_some]
  rw [hread]
  exact (Task.gives_ofResult .rights r t).bind_pure _

/-- Every command loads the settings first. -/
theorem gives_runCommand {c : Command} {g : Settings → Except Failure String}
    (h : ∀ s, (perform s c).Gives t (g s)) (around : Surroundings) (path : String) :
    (runCommand around path c).Gives t
      (((settingsAt around path t).mapError .settings).bind g) := by
  have hload : t.run (Settings.load around path) = (settingsAt around path t, t) :=
    Prod.ext rfl (FileTree.run_eq_of_within_nil (within_loadSettings around path) t)
  refine (Task.gives_ofJob hload).bind_ok ?_
  cases settingsAt around path t with
  | error e => exact (Task.gives_ofResult .settings (.error e) t).bind_error _
  | ok s => exact (Task.gives_ofResult .settings (.ok s) t).bind_ok (h s)

/-- What a command says that asks an engine. -/
theorem gives_of_service {c : Command} {rest : Service FileJob → Task String} {out : Basis → String}
    (hc : ∀ s, perform s c = service s >>= rest)
    (hrest : ∀ (s : Settings) (directory : Directory),
      (rest (.fresh s.files.documents directory s.editAction)).Gives t
        (((s.files.loaded t).mapError .rights).map fun c ↦ out ⟨s, directory, c⟩))
    (around : Surroundings) (path : String) :
    (runCommand around path c).Gives t ((basis around path t).map out) := by
  rw [map_basis]
  refine gives_runCommand (fun s ↦ ?_) around path
  rw [hc]
  have hservice := gives_service s t
  cases hdirectory : directoryFor s t with
  | error e =>
    rw [hdirectory] at hservice
    exact hservice.bind_error _
  | ok directory =>
    rw [hdirectory] at hservice
    exact hservice.bind_ok (hrest s directory)

/-! ### What commands say -/

/-- A store over files that holds nothing takes up what the documents come to. -/
theorem exists_perform_current (f : DocumentFiles) {s : Store} (hs : s.resident = none)
    (t : FileTree) : ∃ r s', Runner.tree.perform (Store.current f.documents) s t = (r, s', t) ∧
      r.map (·.configuration) = f.loaded t ∧ ∀ S, r = .ok S → s'.resident = some S := by
  obtain ⟨r, ns, t', hloads, hperform⟩ := Runner.tree.exists_perform_current f.documents hs t
  obtain ⟨rfl, rfl⟩ := DocumentFiles.loaded_of_loads hloads
  rw [hperform]
  cases f.loaded t' with
  | error e => exact ⟨_, _, rfl, rfl, nofun⟩
  | ok c =>
    refine ⟨_, _, rfl, rfl, fun S hS ↦ ?_⟩
    cases hS
    rfl

/-- The line of a decision. -/
def verdict (allowed : Bool) : String := line (if allowed then "allowed" else "denied")

/-- The lines for what is listed for a login. -/
def listing (login : String) (mode : PolicyMode) (actions : NameSet) : String :=
  String.join ((("# " ++ login ++ " (" ++ mode.name ++ ")") :: actions.names).map line)

/-- What checking an action says is the decision for the roles in the directory. -/
theorem gives_check (around : Surroundings) (path login action : String) (t : FileTree) :
    (runCommand around path (.check login action)).Gives t ((basis around path t).map fun b ↦
      verdict (b.configuration.allows ⟨login, b.directory.rolesOf login⟩ action)) := by
  refine gives_of_service (fun _ ↦ rfl) (fun s directory ↦ ?_) around path
  obtain ⟨r, s', hperform, hloaded, -⟩ :=
    exists_perform_current s.files (s := { editAction := s.editAction }) rfl t
  obtain ⟨v', hconsult⟩ := Service.exists_run_consult_tryIsAllowed
    (Service.unused_fresh s.files.documents directory s.editAction) login action hperform
  rw [← hloaded]
  cases r with
  | error e =>
    refine (gives_ask (.error e) hconsult ?_).bind_pure fun x ↦ verdict x.1
    rfl
  | ok S =>
    refine (gives_ask (.ok _) hconsult ?_).bind_pure fun x ↦ verdict x.1
    rfl

/-- The configuration in force is had as the documents come to it. The engine has it ready for the
next question. -/
theorem exists_gives_current (f : DocumentFiles) (directory : Directory) (editAction : String)
    (t : FileTree) : ∃ (r : Except RightsError Snapshot) (v : Service FileJob),
      (current (.fresh f.documents directory editAction)).Gives t
        ((r.mapError .rights).map fun S ↦ (S.configuration, v)) ∧
      r.map (·.configuration) = f.loaded t ∧ v.engine.Unused ∧ v.directory = directory ∧
      ∀ S, r = .ok S →
        Runner.tree.perform (Store.current v.documents) v.engine.store t =
          (.ok S, v.engine.store, t) := by
  let v : Service FileJob := .fresh f.documents directory editAction
  obtain ⟨r, s', hperform, hloaded, hresident⟩ :=
    exists_perform_current f (s := v.engine.store) rfl t
  have hconsult := Service.run_consult_current (v := v) hperform
  refine ⟨r, { v with engine := { v.engine with store := s' } }, ?_, hloaded, ⟨rfl, rfl⟩, rfl,
    fun S hS ↦ Runner.tree.perform_current_of_resident _ (hresident S hS) t⟩
  cases r with
  | error e =>
    refine gives_ask (.error e) hconsult ?_
    rfl
  | ok S =>
    refine gives_ask (.ok S.configuration) hconsult ?_
    rfl

/-- What is listed comes with the mode, without which it could not be read. -/
theorem gives_actions (around : Surroundings) (path login : String) (t : FileTree) :
    (runCommand around path (.actions login)).Gives t ((basis around path t).map fun b ↦
      listing login b.configuration.mode
        (b.configuration.listedActions ⟨login, b.directory.rolesOf login⟩)) := by
  refine gives_of_service (fun _ ↦ rfl) (fun s directory ↦ ?_) around path
  obtain ⟨r, v, hcurrent, hloaded, hv, hdirectory, hperform⟩ :=
    exists_gives_current s.files directory s.editAction t
  rw [← hloaded]
  cases r with
  | error e => exact hcurrent.bind_error _
  | ok S =>
    obtain ⟨v', hconsult⟩ :=
      Service.exists_run_consult_effectiveActions hv login (hperform S rfl)
    rw [hdirectory] at hconsult
    refine hcurrent.bind_ok ((gives_ask (.ok _) hconsult ?_).bind_pure
      fun x ↦ listing login S.configuration.mode x.1)
    rfl

/-- What is shown is the configuration in force as a document. -/
theorem gives_present (around : Surroundings) (path : String) (t : FileTree) :
    (runCommand around path .present).Gives t ((basis around path t).map fun b ↦
      b.configuration.toDocument.text) := by
  refine gives_of_service (fun _ ↦ rfl) (fun s directory ↦ ?_) around path
  obtain ⟨r, v, hcurrent, hloaded, -⟩ := exists_gives_current s.files directory s.editAction t
  have hshown := hcurrent.bind_pure fun x ↦ x.1.toDocument.text
  rw [← hloaded]
  cases r with
  | error e => exact hshown
  | ok S => exact hshown

/-- Checking a document reads nothing but that document. -/
theorem exists_gives_validate (around : Surroundings) (path file : String) (t : FileTree) :
    ∃ r, (runCommand around path (.validate file)).Gives t r := by
  have hdocument : (document file).Gives t
      ((t.run (DocumentFiles.load file)).1.result.mapError .rights) := by
    have hload : t.run (DocumentFiles.load file) = ((t.run (DocumentFiles.load file)).1, t) :=
      Prod.ext rfl (FileTree.run_eq_of_within_nil (DocumentFiles.within_load file) t)
    exact (Task.gives_ofJob hload).bind_ok ((Task.gives_modify _ t).bind_ok
      (Task.gives_ofResult .rights _ t))
  exact ⟨_, gives_runCommand (c := .validate file) (fun s ↦ hdocument.bind_pure _) around path⟩

/-- How a run of the program ends. -/
theorem exists_run {args : List String} {c : Command} {r : Except Failure String}
    (hargs : parse args = .ok (.run path c)) (h : (runCommand around path c).Gives t r) :
    ∃ remarks, t.run (run around args) = (match r with
      | .ok output => { status := 0, output := output, remarks := remarks }
      | .error _ => { status := 1, remarks := remarks }, t) := by
  obtain ⟨ns, hrun⟩ := h []
  rw [run, hargs]
  dsimp only
  rw [Runner.tree_run_bind, hrun]
  cases r <;> exact ⟨_, rfl⟩

end CommandLine

end LayeredRights
