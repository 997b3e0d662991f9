import LayeredRights.Proofs.Decision
import LayeredRights.Proofs.Resolver.Answering
import LayeredRights.Scenario.MemoryDocuments

/-!
# The resolver answers as if it had no cache

In every session, whatever is called in whatever order and from wherever, and whatever the documents
and the directory do meanwhile, an answer about a login is what one snapshot says of one set of
roles (`Session.cacheFree_of_mem_exchanges`). The snapshot was resident during the call. The roles
were reported for the login, and not before anything that makes earlier reports invalid: a discard,
a change that the resolver was told of, the installation of the snapshot.

The proof is an invariant of sessions, `Session.Sound`. One move serves at most one call, the one
just made or the innermost that waits (`Session.Sound.taken`); what the move comes to for that call
is an `Outcome`, and nothing changes for the calls around it (`Awaits.next`).

The invariant is about the frames and the calls at once: place by place, a frame is what the call
waits for (`Sound.awaits`). It does not bound how many there are, so calls from within look-ups and
deliveries need no argument of their own. Nothing is assumed of what the directory reports either. A
reply is a report like any other, be it late, repeated or at odds with the one before.
-/

namespace LayeredRights

/-! ### What accounts for an answer -/

/-- The snapshot was resident at a moment of the exchange, and the roles are a report for the login
that is not older than what invalidates reports before the call. -/
structure Accounts (moments : List Moment) (x : Exchange) (login : String) (S : Snapshot)
    (roles : NameSet) : Prop where
  resident : ∃ (k : Nat) (m : Moment), x.first ≤ k ∧ k ≤ x.last ∧ moments[k]? = some m ∧
    m.engine.store.resident = some S
  reported : ∃ (r : Nat) (m : Moment), r ≤ x.last ∧ moments[r]? = some m ∧
    m.report = some (login, roles) ∧
    ∀ (k : Nat) (m' : Moment), k < x.first → moments[k]? = some m' → m'.Invalidates S → k < r

/-- The answer is an error, or what a configuration says without any cache of the login with the
roles reported for it. -/
def Exchange.CacheFree (moments : List Moment) (x : Exchange) : Prop :=
  match x.call with
  | .tryIsAllowed login action => (∃ err, x.answer = .decision (.error err)) ∨
    ∃ S roles listed, x.answer = .decision (.ok (S.configuration.mode.decide listed)) ∧
      Accounts moments x login S roles ∧
      (listed = true ↔ S.configuration.Lists ⟨login, roles⟩ action)
  | .effectiveActions login => (∃ err, x.answer = .actions (.error err)) ∨
    ∃ S roles actions, x.answer = .actions (.ok actions) ∧
      Accounts moments x login S roles ∧
      ∀ action, action ∈ actions ↔ S.configuration.Lists ⟨login, roles⟩ action
  | _ => True

section Accounting

variable {h : List Moment} {m : Moment} {x : Exchange}

/-- The moments before a given one are not affected by what comes later. -/
theorem getElem?_of_append_of_lt {k n : Nat} {m' : Moment} (hlt : k < n) (hn : n ≤ h.length)
    (hk : (h ++ [m])[k]? = some m') : h[k]? = some m' := by
  rwa [List.getElem?_append_left (Nat.lt_of_lt_of_le hlt hn)] at hk

theorem residents_eq_map : residents h m.engine = (h ++ [m]).map (·.engine.store.resident) := by
  simp [residents]

/-- What accounts for an answer goes on to do so. -/
theorem Accounts.next {login : String} {S : Snapshot} {roles : NameSet}
    (ha : Accounts h x login S roles) (hfirst : x.first ≤ h.length) :
    Accounts (h ++ [m]) x login S roles := by
  obtain ⟨⟨k, mk, hle, hlast, hk, hS⟩, r, mr, hr, hmr, hroles, hafter⟩ := ha
  refine ⟨⟨k, mk, hle, hlast, getElem?_of_begin ⟨_, rfl⟩ hk, hS⟩, r, mr, hr,
    getElem?_of_begin ⟨_, rfl⟩ hmr, hroles, fun j m' hj hm' hinv ↦ ?_⟩
  exact hafter j m' hj (getElem?_of_append_of_lt hj hfirst hm') hinv

theorem Exchange.CacheFree.next (hx : x.CacheFree h) (hfirst : x.first ≤ h.length) :
    x.CacheFree (h ++ [m]) := by
  unfold Exchange.CacheFree at hx ⊢
  split at hx
  · obtain herr | ⟨S, roles, listed, hanswer, haccounts, hlisted⟩ := hx
    · exact .inl herr
    · exact .inr ⟨S, roles, listed, hanswer, haccounts.next hfirst, hlisted⟩
  · obtain herr | ⟨S, roles, actions, hanswer, haccounts, hlisted⟩ := hx
    · exact .inl herr
    · exact .inr ⟨S, roles, actions, hanswer, haccounts.next hfirst, hlisted⟩
  · trivial

/-- **The present moment accounts for what is answered from a stored action set.** The generation
that it is stored in came to be after all that invalidates reports, and the report is
later still. -/
theorem accounts_of_stored {first i : Nat} {c : Call} {a : Answer} {S : Snapshot} {login : String}
    {actions : NameSet} (hstanding : Standing h (residents h m.engine) first i S)
    (hstored : Stored h ((h ++ [m]).map (·.report)) i S login actions) (hfirst : first ≤ h.length) :
    ∃ roles, actions = S.configuration.listedActions ⟨login, roles⟩ ∧
      Accounts (h ++ [m]) ⟨c, first, h.length, a⟩ login S roles := by
  obtain ⟨⟨k, hk, hresident⟩, hinvalid⟩ := hstanding
  obtain ⟨r, roles, hr, hactions, hafter⟩ := hstored
  rw [residents_eq_map, List.getElem?_map, Option.map_eq_some_iff] at hresident
  rw [List.getElem?_map, Option.map_eq_some_iff] at hr
  obtain ⟨mk, hmk, hS⟩ := hresident
  obtain ⟨mr, hmr, hroles⟩ := hr
  have hlast : ∀ {j : Nat} {m' : Moment}, (h ++ [m])[j]? = some m' → j ≤ h.length := by
    intro j m' hj
    have hlt := (List.getElem?_eq_some_iff.1 hj).1
    rw [List.length_append, List.length_singleton] at hlt
    exact Nat.le_of_lt_succ hlt
  refine ⟨roles, hactions, ⟨k, mk, hk, hlast hmk, hmk, hS⟩, r, mr, hlast hmr, hmr, hroles, ?_⟩
  intro j m' hj hm' hinv
  have hm'' : h[j]? = some m' := getElem?_of_append_of_lt hj hfirst hm'
  exact hafter j m' hm'' (hinvalid j m' hj hm'' hinv)

/-- An answer that is justified could have been given without a cache. -/
theorem cacheFree_of_justified {first : Nat} {c : Call} {a : Answer}
    (hj : Justified h ((h ++ [m]).map (·.report)) (residents h m.engine) first a c)
    (hfirst : first ≤ h.length) : Exchange.CacheFree (h ++ [m]) ⟨c, first, h.length, a⟩ := by
  cases c with
  | tryIsAllowed login action =>
    obtain herr | ⟨i, S, actions, hanswer, hstanding, hstored⟩ := hj
    · exact .inl herr
    · obtain ⟨roles, rfl, haccounts⟩ := accounts_of_stored hstanding hstored hfirst
      refine .inr ⟨S, roles, _, hanswer, haccounts, ?_⟩
      rw [decide_eq_true_eq]
      exact Configuration.mem_listedActions
  | effectiveActions login =>
    obtain herr | ⟨i, S, actions, hanswer, hstanding, hstored⟩ := hj
    · exact .inl herr
    · obtain ⟨roles, rfl, haccounts⟩ := accounts_of_stored hstanding hstored hfirst
      exact .inr ⟨S, roles, _, hanswer, haccounts, fun _ ↦ Configuration.mem_listedActions⟩
  | _ => trivial

end Accounting

/-! ### The calls that wait -/

/-- A frame is what a call that has been made, at the moment it was made, waits for. -/
def Awaits (h : List Moment) (e : Engine) (f : Frame) (p : Call × Nat) : Prop :=
  p.2 < h.length ∧ Waits h (h.map (·.engine.store.resident)) e p.1 p.2 f

section Standing

variable {h : List Moment} {present : List (Option Snapshot)} {first i : Nat} {S : Snapshot}

theorem Standing.later (hs : Standing h present first i S) (now : Option Snapshot) :
    Standing h (present ++ [now]) first i S := by
  obtain ⟨⟨k, hk, hS⟩, hafter⟩ := hs
  have hlt : k < present.length := (List.getElem?_eq_some_iff.1 hS).1
  exact ⟨⟨k, hk, (List.getElem?_append_left hlt).trans hS⟩, hafter⟩

/-- A moment that is over comes after the call was made, so it has no say in what came before. -/
theorem Standing.pass (hs : Standing h present first i S) (hfirst : first ≤ h.length)
    (m : Moment) : Standing (h ++ [m]) present first i S where
  resident := hs.resident
  after j m' hj hm' hinv := hs.after j m' hj (getElem?_of_append_of_lt hj hfirst hm') hinv

end Standing

/-- A call that has just come to wait does so at the next moment. -/
theorem awaits_of_waits {h : List Moment} {m : Moment} {c : Call} {first : Nat} {f : Frame}
    (hw : Waits h (residents h m.engine) m.engine c first f) (hfirst : first ≤ h.length) :
    Awaits (h ++ [m]) m.engine f (c, first) := by
  refine ⟨by simpa using Nat.lt_succ_of_le hfirst, ?_⟩
  rw [← residents_eq_map]
  cases f with
  | lookingUp q =>
    obtain ⟨hserves, g, hg, hs⟩ := hw
    exact ⟨hserves, g, hg, hs.pass hfirst m⟩
  | telling r round => exact hw
  | listing => exact hw

/-- A call goes on waiting while other calls are served, since generations stay where they are. -/
theorem Awaits.next {h : List Moment} {e e' : Engine} {f : Frame} {p : Call × Nat}
    (ha : Awaits h e f p) (hkept : ∀ (i : Nat) (g : Generation), e.generations[i]? = some g →
      ∃ g' : Generation, e'.generations[i]? = some g' ∧ g'.snapshot = g.snapshot) {m : Moment} :
    Awaits (h ++ [m]) e' f p := by
  obtain ⟨hlt, hwaits⟩ := ha
  refine ⟨by simpa using Nat.lt_succ_of_lt hlt, ?_⟩
  rw [List.map_append, List.map_singleton]
  cases f with
  | lookingUp q =>
    obtain ⟨hserves, g, hg, hs⟩ := hwaits
    obtain ⟨g', hg', hsnap⟩ := hkept _ g hg
    refine ⟨hserves, g', hg', ?_⟩
    rw [hsnap]
    exact (hs.later _).pass (Nat.le_of_lt hlt) m
  | telling r round => exact hwaits
  | listing => exact hwaits

/-! ### The invariant of sessions -/

namespace Session

variable {m : Type → Type} [Monad m] {W : Type} {ρ : Runner m W} {d : Documents m} {s : Session W}

/-- What is so of a session at any time. -/
structure Sound (s : Session W) : Prop where
  /-- The engine of the last moment is the present one. -/
  latest : ∃ m ∈ s.moments, m.engine = s.engine
  coherent : Coherent s.moments (s.moments.map (·.report)) s.engine
  awaits : List.Forall₂ (Awaits s.moments s.engine) s.engine.frames s.pending
  cacheFree : ∀ x ∈ s.exchanges, x.first ≤ x.last ∧ x.last < s.moments.length ∧
    x.CacheFree s.moments

theorem sound_fresh (editAction : String) (w : W) : (fresh editAction w).Sound where
  latest := ⟨_, List.mem_singleton_self _, rfl⟩
  coherent := by
    have hc : Coherent [] [] (Engine.fresh editAction) := by
      constructor <;> simp [Engine.fresh, Engine.attachResolver, Engine.inUse?]
    exact (hc.report none).pass rfl (fun hcall ↦ absurd hcall.symm (Option.some_ne_none _))
  awaits := .nil
  cacheFree := fun _ hx ↦ absurd hx List.not_mem_nil

/-- The innermost frame is what the innermost call waits for. -/
theorem Sound.awaits_of_frames_eq (hs : s.Sound) {f : Frame} {fs : List Frame}
    (hframes : s.engine.frames = f :: fs) : ∃ p rest, Awaits s.moments s.engine f p ∧
      List.Forall₂ (Awaits s.moments s.engine) fs rest ∧ s.pending = p :: rest := by
  have hawaits := hs.awaits
  rw [hframes, List.forall₂_cons_left_iff] at hawaits
  obtain ⟨p, rest, hp, hrest, hpending⟩ := hawaits
  exact ⟨p, rest, hp, hrest, hpending⟩

/-- Whatever relates frames to calls relates those around the innermost ones. -/
theorem forall₂_of_cons {P : Frame → Call × Nat → Prop} {f : Frame} {fs : List Frame}
    {p : Call × Nat} {rest : List (Call × Nat)} (hframes : s.engine.frames = f :: fs)
    (hpending : s.pending = p :: rest) (hall : List.Forall₂ P s.engine.frames s.pending) :
    P f p ∧ List.Forall₂ P fs rest := by
  rw [hframes, hpending] at hall
  exact List.forall₂_cons.1 hall

/-- What is taken off the calls that wait when an event is taken: nothing, or the one call that it
serves, with the frame it waited for. -/
inductive Taken (s : Session W) (ev : Event) (o : Output × Engine) : Prop
  | nothing (hcall : ev.call? = none) (hout : o.1 = .nothing)
      (hframes : o.2.frames = s.engine.frames)
      (hc : Coherent s.moments (s.moments.map (·.report) ++ [s.engine.reported? ev]) o.2)
  | call (c : Call) (first : Nat) (rest : List (Call × Nat)) (fs : List Frame)
      (hpending : (ev.call?.map fun c ↦ (c, s.moments.length)).toList ++ s.pending =
        (c, first) :: rest)
      (hfirst : first ≤ s.moments.length)
      (hrest : ∀ P : Frame → Call × Nat → Prop,
        List.Forall₂ P s.engine.frames s.pending → List.Forall₂ P fs rest)
      (ho : Outcome s.moments (s.moments.map (·.report) ++ [s.engine.reported? ev]) fs c first o)

/-- **What one event comes to.** -/
theorem Sound.taken (hs : s.Sound) (ev : Event) (w : W) :
    s.Taken ev (ρ.run (s.engine.step d ev) w).1 := by
  have hc : Coherent s.moments (s.moments.map (·.report) ++ [s.engine.reported? ev]) s.engine :=
    hs.coherent.report _
  cases ev with
  | call c =>
    exact .call c s.moments.length s.pending s.engine.frames rfl (Nat.le_refl _) (fun _ hP ↦ hP)
      (outcome_call ρ d c (Nat.le_refl _) hc w)
  | released key =>
    rw [Engine.step, ρ.run_pure]
    exact .nothing rfl rfl rfl (hc.of_agrees ⟨rfl, rfl, rfl, rfl⟩)
  | told reaction =>
    rw [Engine.step]
    split
    · rename_i r round fs hframes
      obtain ⟨⟨c, first⟩, rest, ⟨hlt, hw⟩, -, hpending⟩ := hs.awaits_of_frames_eq hframes
      rw [ρ.run_pure]
      exact .call c first rest fs hpending (Nat.le_of_lt hlt)
        (fun _ hP ↦ (forall₂_of_cons hframes hpending hP).2)
        (outcome_resume (e := { s.engine with frames := fs }) hw r round reaction
          (hc.of_agrees ⟨rfl, rfl, rfl, rfl⟩))
    · rw [ρ.run_pure]
      exact .nothing rfl rfl rfl hc
  | rolesFound result =>
    rw [Engine.step]
    split
    · rename_i q fs hframes
      obtain ⟨⟨c, first⟩, rest, ⟨hlt, hserves, g, hg, hstanding⟩, -, hpending⟩ :=
        hs.awaits_of_frames_eq hframes
      -- the roles found are the report of this very move
      have hreport : (s.moments.map (·.report) ++ [s.engine.reported? (.rolesFound result)])[
          s.moments.length]? = some (some (q.login, result.toOption.getD ∅)) := by
        cases result <;> simp [Engine.reported?, hframes] <;> rfl
      rw [ρ.run_pure]
      exact .call c first rest fs hpending (Nat.le_of_lt hlt)
        (fun _ hP ↦ (forall₂_of_cons hframes hpending hP).2)
        (outcome_rolesFound (e := { s.engine with frames := fs }) hserves hg
          (hstanding.later _) hreport (Nat.le_refl _) (hc.of_agrees ⟨rfl, rfl, rfl, rfl⟩))
    · rw [ρ.run_pure]
      exact .nothing rfl rfl rfl hc
  | usersFound result =>
    rw [Engine.step]
    split
    · rename_i fs hframes
      obtain ⟨⟨c, first⟩, rest, ⟨hlt, hw⟩, -, hpending⟩ := hs.awaits_of_frames_eq hframes
      exact .call c first rest fs hpending (Nat.le_of_lt hlt)
        (fun _ hP ↦ (forall₂_of_cons hframes hpending hP).2)
        (outcome_usersFound (e := { s.engine with frames := fs }) ρ d hw (Nat.le_of_lt hlt) result
          (hc.of_agrees ⟨rfl, rfl, rfl, rfl⟩) w)
    · rw [ρ.run_pure]
      exact .nothing rfl rfl rfl hc

/-- A discard leaves no generation in use. -/
theorem inUse?_of_discard {ev : Event} (hev : ev.call? = some .discard) (e : Engine) (w : W) :
    (ρ.run (e.step d ev) w).1.2.inUse? = none := by
  obtain rfl : ev = .call .discard := by
    cases ev with
    | call c => exact congrArg Event.call (Option.some.inj hev)
    | _ => exact nomatch hev
  rw [Engine.step, Engine.call, ρ.run_pure]
  exact e.inUse?_discard

/-- What has been said of the exchanges before stays true. -/
theorem Sound.next (hs : s.Sound) {m' : Moment} : ∀ x ∈ s.exchanges,
    x.first ≤ x.last ∧ x.last < (s.moments ++ [m']).length ∧ x.CacheFree (s.moments ++ [m']) := by
  intro x hx
  obtain ⟨hle, hlt, hfree⟩ := hs.cacheFree x hx
  refine ⟨hle, ?_, hfree.next (Nat.le_of_lt (Nat.lt_of_le_of_lt hle hlt))⟩
  rw [List.length_append]
  exact Nat.lt_add_right _ hlt

/-- The answer that is given is an exchange more, and it is justified by what the move comes to. -/
theorem Sound.record (hs : s.Sound) {ev : Event} {o : Output × Engine} (htaken : s.Taken ev o)
    (hdiscard : ev.call? = some .discard → o.2.inUse? = none) (w : W) :
    (s.record ev o.1 o.2 w).Sound := by
  obtain ⟨out, e⟩ := o
  let now : Moment := ⟨ev.call?, s.engine.reported? ev, e⟩
  have hmap : (s.moments ++ [now]).map (·.report) =
      s.moments.map (·.report) ++ [s.engine.reported? ev] := by
    simp [now]
  have hlatest : ∃ m ∈ s.moments ++ [now], m.engine = e :=
    ⟨now, List.mem_append_right _ (List.mem_singleton_self _), rfl⟩
  -- the calls around the one that is served go on waiting
  have hnext : Coherent s.moments (s.moments.map (·.report) ++ [s.engine.reported? ev]) e →
      ∀ {fs rest}, List.Forall₂ (Awaits s.moments s.engine) fs rest →
        List.Forall₂ (Awaits (s.moments ++ [now]) e) fs rest := by
    intro hc fs rest hrest
    obtain ⟨m₀, hm₀, heq⟩ := hs.latest
    rw [← heq] at hrest
    exact hrest.imp fun _ _ ha ↦ ha.next (hc.kept m₀ hm₀)
  cases htaken with
  | nothing hcall hout hframes hc =>
    obtain rfl : out = .nothing := hout
    rw [record_of_nothing hcall]
    refine ⟨hlatest, hmap ▸ hc.pass rfl hdiscard, ?_, hs.next⟩
    show List.Forall₂ _ e.frames s.pending
    rw [show e.frames = s.engine.frames from hframes]
    exact hnext hc hs.awaits
  | call c first rest fs hpending hfirst hrest ho =>
    obtain ⟨hc, ho⟩ := ho
    have hc' : Coherent (s.moments ++ [now]) ((s.moments ++ [now]).map (·.report)) e :=
      hmap ▸ hc.pass rfl hdiscard
    cases out with
    | answered a =>
      obtain ⟨hframes, hj⟩ := ho
      rw [record_of_answered hpending]
      refine ⟨hlatest, hc', ?_, fun x hx ↦ ?_⟩
      · show List.Forall₂ _ e.frames rest
        rw [show e.frames = fs from hframes]
        exact hnext hc (hrest _ hs.awaits)
      · rcases List.mem_append.1 hx with hx | hx
        · exact hs.next x hx
        · obtain rfl := List.mem_singleton.1 hx
          refine ⟨hfirst, by simp, cacheFree_of_justified (m := now) ?_ hfirst⟩
          rw [hmap]
          exact hj
    | asked r =>
      obtain ⟨f, hframes, hw⟩ := ho
      rw [record_of_asked hpending]
      refine ⟨hlatest, hc', ?_, hs.next⟩
      show List.Forall₂ _ e.frames _
      rw [show e.frames = f :: fs from hframes]
      exact .cons (awaits_of_waits (m := now) hw hfirst) (hnext hc (hrest _ hs.awaits))
    | nothing => exact ho.elim

/-- **One move keeps a session sound.** -/
theorem sound_move (hs : s.Sound) (mv : Move W) : (s.move ρ d mv).Sound := by
  cases mv with
  | event ev => exact hs.record (hs.taken ev s.world) (fun hev ↦ inUse?_of_discard hev _ _) _
  | outside edit =>
    -- the engine sees nothing of it, and time passes all the same
    have hc : Coherent s.moments (s.moments.map (·.report) ++ [none]) s.engine :=
      hs.coherent.report none
    let now : Moment := { engine := s.engine }
    refine ⟨⟨now, List.mem_append_right _ (List.mem_singleton_self _), rfl⟩, ?_, ?_, hs.next⟩
    · show Coherent _ ((s.moments ++ [now]).map (·.report)) _
      rw [List.map_append]
      exact hc.pass rfl fun hcall ↦ nomatch hcall
    · exact hs.awaits.imp fun _ _ ha ↦ ha.next fun i g hg ↦ ⟨g, hg, rfl⟩

/-- Any number of moves keeps a session sound. -/
theorem sound_run (hs : s.Sound) (moves : List (Move W)) : (s.run ρ d moves).Sound := by
  induction moves generalizing s with
  | nil => exact hs
  | cons mv moves ih => exact ih (sound_move hs mv)

/-- **Every answer of the resolver could have been given without a cache.** -/
theorem cacheFree_of_mem_exchanges (ρ : Runner m W) (d : Documents m) (editAction : String) (w : W)
    (moves : List (Move W)) {x : Exchange}
    (hx : x ∈ ((fresh editAction w).run ρ d moves).exchanges) :
    x.first ≤ x.last ∧ x.CacheFree ((fresh editAction w).run ρ d moves).moments := by
  have hs : ((fresh editAction w).run ρ d moves).Sound := sound_run (sound_fresh editAction w) moves
  obtain ⟨hle, -, hfree⟩ := hs.cacheFree x hx
  exact ⟨hle, hfree⟩

/-- Documents in which clerks may read and whoever has the role of staff is a clerk. -/
def office : MemoryDocuments where
  base :=
    { mode := .allowListed
      profiles := [{ name := "clerk", actions := ["read"] }]
      userProfiles := [{ login := "staff", profiles := ["clerk"] }] }

/-- The configuration is reloaded while the directory looks up the roles for a query. -/
def reloadDuringLookup : List (Move MemoryDocuments) :=
  [.event (.call (.effectiveActions "ann")), .event (.call .reload),
    .event (.rolesFound (.ok (NameSet.ofList ["staff"])))]

/-- The query is answered after all, from the generation it began with. -/
theorem cacheFree_reloadDuringLookup :
    let s := (fresh "edit" office).run (.stateful _) MemoryDocuments.documents reloadDuringLookup
    ∃ x ∈ s.exchanges, x.call = .effectiveActions "ann" ∧
      x.answer = .actions (.ok (NameSet.ofList ["read"])) ∧ x.CacheFree s.moments := by
  intro s
  have hx : ⟨.effectiveActions "ann", 1, 3, .actions (.ok (NameSet.ofList ["read"]))⟩ ∈
      s.exchanges :=
    List.mem_of_getElem? (i := 1) rfl
  exact ⟨_, hx, rfl, rfl, (cacheFree_of_mem_exchanges _ _ _ _ _ hx).2⟩

end Session

end LayeredRights
