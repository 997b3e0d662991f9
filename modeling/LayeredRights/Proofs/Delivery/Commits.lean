import LayeredRights.Proofs.Delivery.Announcements
import LayeredRights.Proofs.Store.Saving

/-!
# What a commit answers and leaves behind

In any session over documents whose operations are recorded, a commit has one condition, which is
that none of the steps of saving fails (`Chronicle.accounted_update`). If one fails, the commit is
answered at once with the error of the first that does, the snapshot that was resident still is, and
no listener is ever told of it. If none fails the answer is that it succeeded, whatever the load
after the write comes to and however the listeners take it. Which of the operations that change the
override are on record, and in what order, depends on the first step that fails and on nothing else.

Each call is accounted for by the invariant of chronicles (`Chronicle.Kept`), so all that is left is
to see which commit it was that left the state of the moment after the call.

The five steps of saving come from `Store/Saving`, where nothing is known of sessions. What a
session adds is time. An answer may come long after the call, when listeners have done whatever they
liked, and it is still how saving came out when the call was made. For this the chronicle keeps the
world of each moment: the condition is evaluated in the state before the call, and that state is the
only one which the answer can be about (`Chronicle.Around.unique`).
-/

namespace LayeredRights

section Commits

variable {m : Type → Type} [Monad m] {W : Type} {ρ : Runner m W} {d : Documents m} {b : Chronicle W}
  {c : Configuration} {first : Nat}

/-- The state before and after a call are two moments that have been. -/
theorem Chronicle.Around.unique {e e' e₁ e₁' : Engine} {w w' w₁ w₁' : W}
    (h : b.Around first e w e' w') (h₁ : b.Around first e₁ w₁ e₁' w₁') :
    (e, w) = (e₁, w₁) ∧ (e', w') = (e₁', w₁') := by
  obtain ⟨k, hk, hbefore, hafter⟩ := h
  obtain ⟨k₁, hk₁, hbefore₁, hafter₁⟩ := h₁
  obtain rfl : k = k₁ := Nat.succ.inj (hk.symm.trans hk₁)
  exact ⟨Option.some.inj (hbefore.symm.trans hbefore₁), Option.some.inj (hafter.symm.trans hafter₁)⟩

/-- The commit behind an answer. -/
theorem Announced.exists_commits {x : Exchange} (h : Announced ρ d b x) (hc : x.call = .update c) :
    ∃ e w e' w' r, b.Around x.first e w e' w' ∧ Commits ρ d c e.store w r e'.store w' ∧
      x.answer = .updated (r.map fun _ ↦ ()) ∧
      ∀ err, r = .error err → x.last = x.first ∧ tellingsFor b.tellings x.first = [] := by
  cases h with
  | silent hsilent => exact nomatch (hc ▸ hsilent)
  | updateFailed hat hcommit hnone =>
    obtain ⟨rfl⟩ := hc
    exact ⟨_, _, _, _, _, hat, hcommit, rfl, fun _ _ ↦ ⟨rfl, hnone⟩⟩
  | updateUnloaded hat hcommit hnone =>
    obtain ⟨rfl⟩ := hc
    exact ⟨_, _, _, _, _, hat, hcommit, rfl, nofun⟩
  | updated hat hcommit hround =>
    obtain ⟨rfl⟩ := hc
    exact ⟨_, _, _, _, _, hat, hcommit, rfl, nofun⟩
  | reloadFailed | reloaded | announced => exact nomatch hc

/-- A commit that is still waiting has succeeded. -/
theorem Due.exists_commits {f : Frame} (h : Due ρ d b f (.update c, first)) :
    ∃ e w e' w' S, b.Around first e w e' w' ∧
      Commits ρ d c e.store w (.ok (some S)) e'.store w' := by
  cases h with
  | silent hf hsilent => exact nomatch hsilent
  | @telling _ round _ _ _ _ _ _ _ _ _ _ hat hbegins =>
    obtain ⟨S, occasion, _, _⟩ := round
    cases hbegins with
    | updated hcommit => exact ⟨_, _, _, _, _, hat, hcommit⟩

namespace Chronicle

/-- A move adds one state, which is the present one after it. -/
theorem states_move (b : Chronicle W) (mv : Move W) : (b.move ρ d mv).states =
    b.states ++ [((b.move ρ d mv).session.engine, (b.move ρ d mv).session.world)] := by
  cases mv with
  | outside edit => rfl
  | event ev =>
    rcases hrun : ρ.run (b.session.engine.step d ev) b.session.world with ⟨⟨out, e⟩, w⟩
    simp [move, hrun, record]

theorem moments_move (b : Chronicle W) (mv : Move W) :
    b.session.moments <+: (b.move ρ d mv).session.moments := by
  cases mv with
  | outside edit => exact ⟨_, rfl⟩
  | event ev => exact ⟨_, Session.moments_record.symm⟩

/-- What has been stays so over any number of moves. -/
theorem begins_run (b : Chronicle W) (moves : List (Move W)) :
    b.states <+: (b.run ρ d moves).states ∧
      b.session.moments <+: (b.run ρ d moves).session.moments := by
  induction moves generalizing b with
  | nil => exact ⟨List.prefix_rfl, List.prefix_rfl⟩
  | cons mv moves ih =>
    obtain ⟨hstates, hmoments⟩ := ih (b.move ρ d mv)
    exact ⟨.trans ⟨_, (b.states_move mv).symm⟩ hstates, (b.moments_move mv).trans hmoments⟩

namespace Kept

/-- The state before a move is the present one, and so is the state after it. -/
theorem around_move (hk : b.Kept ρ d) (mv : Move W) :
    (b.move ρ d mv).Around b.session.moments.length b.session.engine b.session.world
      (b.move ρ d mv).session.engine (b.move ρ d mv).session.world := by
  obtain ⟨past, hpast, hlength⟩ := hk.latest
  refine ⟨past.length, hlength.symm, ?_, ?_⟩
  · simp [states_move, hpast]
  · simp [states_move, hpast, ← hlength]

/-- A call that waits does so because of a frame. -/
theorem exists_due (hk : b.Kept ρ d) {p : Call × Nat} (hp : p ∈ b.session.pending) :
    ∃ f, Due ρ d b f p := by
  obtain ⟨i, hi, rfl⟩ := List.getElem_of_mem hp
  exact ⟨_, hk.due.get (hk.due.length_eq ▸ hi) hi⟩

end Kept

end Chronicle

end Commits

/-! ### Commits on record -/

namespace Chronicle

variable {m : Type → Type} [Monad m] {W : Type}

/-- What a commit of `c` has come to at a later time. It was made in the last state of the chronicle
`b`, `b'` is what follows at once, and `b''` is any time after that. -/
structure Accounted (ρ : Runner m W) (d : Documents m) (c : Configuration)
    (b b' b'' : Chronicle (W × List Access)) : Prop where
  /-- What the answer depends on. -/
  condition : savingResult ρ d c b.session.world.1 = .ok () ↔
    c.offence? = none ∧
      (∃ base, (ρ.run d.loadBase b.session.world.1).1.result = .ok base ∧ base.mode = c.mode) ∧
      SavingStep.backup.attempt ρ d c b.session.world.1 = .ok () ∧
      SavingStep.write.attempt ρ d c b.session.world.1 = .ok ()
  /-- The call has no other answer, and waits for it only when it is that the commit succeeded. -/
  answered : ∀ x ∈ b''.session.exchanges, x.first = b.session.moments.length →
    x.call = .update c ∧ x.answer = .updated (savingResult ρ d c b.session.world.1)
  waiting : (∃ x ∈ b''.session.exchanges, x.first = b.session.moments.length) ∨
    (.update c, b.session.moments.length) ∈ b''.session.pending ∧
      savingResult ρ d c b.session.world.1 = .ok ()
  /-- A commit that fails is answered at once. What was resident still is, and nobody is told. -/
  failed : ∀ e, savingResult ρ d c b.session.world.1 = .error e →
    ⟨.update c, b.session.moments.length, b.session.moments.length, .updated (.error e)⟩ ∈
        b'.session.exchanges ∧
      b'.session.engine.store.resident = b.session.engine.store.resident ∧
      tellingsFor b''.tellings b.session.moments.length = []
  /-- The operations on record that change the override, and what is written. -/
  changed : ∃ new, b'.session.world.2 = b.session.world.2 ++ new ∧
    new.filterMap Access.change? =
      changesUpTo ((firstFailure? ρ d c b.session.world.1).map (·.1)) ∧
    WritesOnly c new
  /-- The call goes on only when a listener has returned, and then changes nothing. -/
  unchanged : ∀ (s : Session (W × List Access)) (r : Reaction),
    (s.move (ρ.beside (List Access)) d.recorded (.event (.told r))).world = s.world

section Accounted

variable {ρ : Runner m W} {d : Documents m} {b : Chronicle (W × List Access)} {c : Configuration}
  {first : Nat} {e e' : Engine} {p p' : W × List Access}

/-- **An answer to a commit** is how saving came out. -/
theorem Kept.answered (hk : b.Kept (ρ.beside (List Access)) d.recorded) {x : Exchange}
    (hx : x ∈ b.session.exchanges)
    (hmade : ∃ m, b.session.moments[x.first]? = some m ∧ m.call = some (.update c))
    (hat : b.Around x.first e p e' p') : x.call = .update c ∧
      (∃ r, Commits (ρ.beside (List Access)) d.recorded c e.store p r e'.store p') ∧
      x.answer = .updated (savingResult ρ d c p.1) ∧
      ∀ err, savingResult ρ d c p.1 = .error err → x.last = x.first ∧
        e'.store.resident = e.store.resident ∧ tellingsFor b.tellings x.first = [] := by
  have hcall : x.call = .update c := by
    obtain ⟨m, hm, hupdate⟩ := hmade
    obtain ⟨m', hm', hcall⟩ := (hk.calls x.call x.first).1
      (List.mem_append_right _ (List.mem_map.2 ⟨x, hx, rfl⟩))
    obtain rfl : m = m' := Option.some.inj (hm.symm.trans hm')
    exact Option.some.inj (hcall.symm.trans hupdate)
  obtain ⟨_, _, _, _, r, hat', hcommit, hanswer, hfailed⟩ :=
    (hk.announced x hx).exists_commits hcall
  obtain ⟨⟨rfl, rfl⟩, ⟨rfl, rfl⟩⟩ := hat.unique hat'
  obtain ⟨-, -, -, -, hresult⟩ := hcommit.traced
  refine ⟨hcall, ⟨r, hcommit⟩, by rw [hresult, hanswer], fun err herr ↦ ?_⟩
  cases hcommit with
  | failed hsaves hresident =>
    obtain ⟨hlast, hnone⟩ := hfailed _ rfl
    exact ⟨hlast, hresident, hnone⟩
  | unloaded => exact nomatch hresult.symm.trans herr
  | loaded => exact nomatch hresult.symm.trans herr

/-- A commit that waits has been saved. -/
theorem Kept.waiting (hk : b.Kept (ρ.beside (List Access)) d.recorded)
    (hpending : (.update c, first) ∈ b.session.pending) (hat : b.Around first e p e' p') :
    (∃ r, Commits (ρ.beside (List Access)) d.recorded c e.store p r e'.store p') ∧
      savingResult ρ d c p.1 = .ok () := by
  obtain ⟨f, hdue⟩ := hk.exists_due hpending
  obtain ⟨_, _, _, _, S, hat', hcommit⟩ := hdue.exists_commits
  obtain ⟨⟨rfl, rfl⟩, ⟨rfl, rfl⟩⟩ := hat.unique hat'
  obtain ⟨-, -, -, -, hresult⟩ := hcommit.traced
  exact ⟨⟨_, hcommit⟩, hresult⟩

/-- A commit that has been made has been answered or waits. -/
theorem Kept.exists_or_mem_pending (hk : b.Kept (ρ.beside (List Access)) d.recorded)
    (hmade : ∃ m, b.session.moments[first]? = some m ∧ m.call = some (.update c)) :
    (∃ x ∈ b.session.exchanges, x.first = first) ∨ (.update c, first) ∈ b.session.pending := by
  rcases List.mem_append.1 ((hk.calls _ _).2 hmade) with hpending | hmem
  · exact .inr hpending
  · obtain ⟨x, hx, heq⟩ := List.mem_map.1 hmem
    exact .inl ⟨x, hx, congrArg Prod.snd heq⟩

/-- A commit that fails has been answered, and nobody has been told of it. -/
theorem Kept.failed (hk : b.Kept (ρ.beside (List Access)) d.recorded)
    (hmade : ∃ m, b.session.moments[first]? = some m ∧ m.call = some (.update c))
    (hat : b.Around first e p e' p') {err : RightsError}
    (herr : savingResult ρ d c p.1 = .error err) :
    ⟨.update c, first, first, .updated (.error err)⟩ ∈ b.session.exchanges ∧
      e'.store.resident = e.store.resident ∧ tellingsFor b.tellings first = [] := by
  rcases hk.exists_or_mem_pending hmade with ⟨⟨call, n, last, answer⟩, hx, rfl⟩ | hpending
  · obtain ⟨rfl, -, rfl, hfailed⟩ := hk.answered hx hmade hat
    obtain ⟨hlast, hresident, hnone⟩ := hfailed err herr
    obtain rfl : last = n := hlast
    rw [herr] at hx
    exact ⟨hx, hresident, hnone⟩
  · obtain ⟨-, hok⟩ := hk.waiting hpending hat
    exact nomatch hok.symm.trans herr

end Accounted

/-- **Every commit has one condition and leaves one trace for each way it can come out**, whatever
was done before it, whatever the documents answer, and whatever is done until the end. -/
theorem accounted_update (ρ : Runner m W) (d : Documents m) (editAction : String) (w : W)
    (moves : List (Move (W × List Access))) (c : Configuration)
    (later : List (Move (W × List Access))) :
    let b := (fresh editAction (w, [])).run (ρ.beside (List Access)) d.recorded moves
    let b' := b.move (ρ.beside (List Access)) d.recorded (.event (.call (.update c)))
    Accounted ρ d c b b' (b'.run (ρ.beside (List Access)) d.recorded later) := by
  intro b b'
  let b'' := b'.run (ρ.beside (List Access)) d.recorded later
  have hk : b.Kept (ρ.beside (List Access)) d.recorded := kept_run (kept_fresh editAction _) moves
  have hk' : b'.Kept (ρ.beside (List Access)) d.recorded := kept_move hk _
  have hk'' : b''.Kept (ρ.beside (List Access)) d.recorded := kept_run hk' later
  obtain ⟨hstates, hmoments⟩ := b'.begins_run (ρ := ρ.beside (List Access)) (d := d.recorded) later
  have hat' := hk.around_move (.event (.call (.update c)))
  have hat'' : b''.Around _ _ _ _ _ := hat'.later hstates
  have hmade' : ∃ m, b'.session.moments[b.session.moments.length]? = some m ∧
      m.call = some (.update c) :=
    ⟨_, Kept.getElem?_record, rfl⟩
  have hmade'' : ∃ m, b''.session.moments[b.session.moments.length]? = some m ∧
      m.call = some (.update c) := by
    obtain ⟨m, hm, hcall⟩ := hmade'
    exact ⟨m, getElem?_of_begin hmoments hm, hcall⟩
  refine ⟨savingResult_eq_ok_iff .., ?_, ?_, ?_, ?_, ?_⟩
  · rintro x hx hfirst
    rw [← hfirst] at hmade'' hat''
    obtain ⟨hcall, -, hanswer, -⟩ := hk''.answered hx hmade'' hat''
    exact ⟨hcall, hanswer⟩
  · exact (hk''.exists_or_mem_pending hmade'').imp_right fun hpending ↦
      ⟨hpending, (hk''.waiting hpending hat'').2⟩
  · intro err herr
    obtain ⟨hx, hresident, -⟩ := hk'.failed hmade' hat' herr
    obtain ⟨-, -, hnone⟩ := hk''.failed hmade'' hat'' herr
    exact ⟨hx, hresident, hnone⟩
  · have hcommit : ∃ r, Commits (ρ.beside (List Access)) d.recorded c b.session.engine.store
        b.session.world r b'.session.engine.store b'.session.world := by
      rcases hk'.exists_or_mem_pending hmade' with ⟨x, hx, hfirst⟩ | hpending
      · rw [← hfirst] at hmade' hat'
        exact (hk'.answered hx hmade' hat').2.1
      · exact (hk'.waiting hpending hat').1
    obtain ⟨r, hcommit⟩ := hcommit
    obtain ⟨new, hlog, hchanges, hwrites, -⟩ := hcommit.traced
    exact ⟨new, hlog, hchanges, hwrites⟩
  · intro s r
    have hworld : ((ρ.beside (List Access)).run (s.engine.step d.recorded (.told r)) s.world).2 =
        s.world := by
      rw [Engine.step]
      split <;> rw [Runner.run_pure]
    exact Session.world_record.trans hworld

end Chronicle

end LayeredRights
