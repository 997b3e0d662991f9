import LayeredRights.Proofs.Resolver.CacheFree
import LayeredRights.Proofs.Resolver.Retention

/-!
# Where answers about logins come from

Whoever asks about a login is answered from one generation of action sets: the one that was in use
when the call was made. This is followed from the call to its answer. A call that has to wait does
so for a look-up in that generation (`Follows`), and an answer comes from what is stored in it by
then (`Exchange.Rests`). `Roots` says both of one move, and `Session.Rooted` of a session.

The frames that calls wait for are a stack beside the calls themselves, and an event takes at most
one of each off (`Session.Taken`). What the calls around that one wait for does not change.

What is in use is only known at the moment at which the call is made, and what is stored only at the
moment of the answer. The two are put together by the index of the generation, which does not change
while the call waits. That is why `UsedAt` and `StoredAt` speak of an index and not of a generation.
-/

namespace LayeredRights

/-! ### Answers from an action set -/

/-- The login whose action set a call is answered from. -/
def Call.subject? : Call → Option String
  | .tryIsAllowed login _ | .effectiveActions login => some login
  | _ => none

/-- The answer is that the configuration cannot be had. -/
def Answer.isError : Answer → Bool
  | .decision (.error _) | .actions (.error _) => true
  | _ => false

/-- What a configuration says to a call about a login, without any cache, for the roles given. -/
def Configuration.answer? (c : Configuration) (roles : NameSet) : Call → Option Answer
  | .tryIsAllowed login action => some (.decision (.ok (c.allows ⟨login, roles⟩ action)))
  | .effectiveActions login => some (.actions (.ok (c.listedActions ⟨login, roles⟩)))
  | _ => none

/-- The answer to a call from an action set. -/
def PolicyMode.answer? (m : PolicyMode) (actions : NameSet) : Call → Option Answer
  | .tryIsAllowed _ action => some (.decision (.ok (m.decide (action ∈ actions))))
  | .effectiveActions _ => some (.actions (.ok actions))
  | _ => none

section Answers

variable {c : Call} {login : String}

theorem Call.wantsActions_of_subject? (hc : c.subject? = some login) : c.wantsActions = true := by
  cases c with
  | tryIsAllowed | effectiveActions => rfl
  | _ => simp [Call.subject?] at hc

/-- Nothing but the action set of the login goes into the answer. -/
theorem Configuration.answer?_eq (cfg : Configuration) (roles : NameSet)
    (hc : c.subject? = some login) :
    cfg.answer? roles c = cfg.mode.answer? (cfg.listedActions ⟨login, roles⟩) c := by
  cases c with
  | tryIsAllowed login' action =>
    obtain rfl : login' = login := Option.some.inj hc
    rfl
  | effectiveActions login' =>
    obtain rfl : login' = login := Option.some.inj hc
    rfl
  | _ => simp [Call.subject?] at hc

/-- A query for a call is answered at once when there is an action set. -/
theorem Engine.exists_satisfy {e : Engine} {q : Query} (hq : q.Serves c)
    (hc : c.subject? = some login) {g : Generation} (hg : e.generations[q.generation]? = some g)
    (actions : NameSet) : ∃ a, e.satisfy q actions = (.answered a, e) ∧
      g.snapshot.configuration.mode.answer? actions c = some a := by
  have hmode : e.modeOf q.generation = g.snapshot.configuration.mode := modeOf_eq hg
  cases c with
  | tryIsAllowed login' action =>
    refine ⟨.decision (.ok (g.snapshot.configuration.mode.decide (action ∈ actions))), ?_, rfl⟩
    rw [satisfy, hq.2, hmode]
  | effectiveActions login' => exact ⟨.actions (.ok actions), by rw [satisfy, hq.2], rfl⟩
  | _ => simp [Call.subject?] at hc

/-- A query looks up the login that its call is about. -/
theorem Query.login_eq {q : Query} (hq : q.Serves c) (hc : c.subject? = some login) :
    q.login = login := by
  cases c with
  | tryIsAllowed | effectiveActions => exact hq.1.trans (Option.some.inj hc)
  | _ => simp [Call.subject?] at hc

end Answers

/-! ### The generation that a query began in -/

/-- What a move comes to for a call about a login that was made at moment `first`, the present
moment being `now`: an answer from what is stored in the generation that was in use then, or a
look-up for the sake of that generation. -/
def Roots (h : List Moment) (now : Moment) (c : Call) (login : String) (first : Nat) :
    Output → Prop
  | .answered a => a.isError = true ∨ ∃ i g actions,
      UsedAt (h ++ [now]) first i g.snapshot ∧
      Standing h (residents h now.engine) first i g.snapshot ∧
      now.engine.generations[i]? = some g ∧ g.find? login = some actions ∧
      g.snapshot.configuration.mode.answer? actions c = some a
  | .asked _ => ∃ q fs S, now.engine.frames = .lookingUp q :: fs ∧
      UsedAt (h ++ [now]) first q.generation S
  | .nothing => True

theorem usedAt_last {h : List Moment} {m : Moment} {i : Nat} {S : Snapshot}
    (hu : m.engine.Uses i S) : UsedAt (h ++ [m]) h.length i S :=
  ⟨m, List.getElem?_concat_length, hu⟩

theorem UsedAt.append {h : List Moment} {k i : Nat} {S : Snapshot} (hu : UsedAt h k i S)
    (m : Moment) : UsedAt (h ++ [m]) k i S := by
  obtain ⟨m', hm', huses⟩ := hu
  exact ⟨m', getElem?_of_begin ⟨_, rfl⟩ hm', huses⟩

theorem StoredAt.append {h : List Moment} {k i : Nat} {login : String} {actions : NameSet}
    (hs : StoredAt h k i login actions) (m : Moment) : StoredAt (h ++ [m]) k i login actions := by
  obtain ⟨m', g, hm', hg, hfind⟩ := hs
  exact ⟨m', g, getElem?_of_begin ⟨_, rfl⟩ hm', hg, hfind⟩

section Moves

variable {h : List Moment} {reports : List (Option (String × NameSet))} {e : Engine} {c : Call}
  {login : String} {first : Nat}

/-- With a resolver, the generation that is taken up is in use. -/
theorem Engine.inUse?_generationFor (hr : e.resolver.isSome = true) (S : Snapshot) :
    (e.generationFor S).2.inUse? = some (e.generationFor S).1 := by
  obtain ⟨r, hr⟩ := Option.isSome_iff_exists.1 hr
  unfold generationFor
  split
  · next i hi => exact (Option.filter_eq_some_iff.1 hi).1
  · simp [inUse?, hr]

/-- What stands for a call made just now has a snapshot that is resident now. -/
theorem resident_of_standing {i : Nat} {S : Snapshot}
    (hs : Standing h (residents h e) h.length i S) : e.store.resident = some S := by
  obtain ⟨k, hk, hresident⟩ := hs.resident
  have hlt := (List.getElem?_eq_some_iff.1 hresident).1
  obtain rfl : k = h.length := by
    simp only [residents, List.length_append, List.length_map, List.length_singleton] at hlt
    omega
  simpa [residents] using hresident

/-- A query in the generation in use is answered from it, or looks up the login for it. -/
theorem roots_query {q : Query} (hq : q.Serves c) (hc : c.subject? = some login) {g : Generation}
    (hg : e.generations[q.generation]? = some g) (huse : e.inUse? = some q.generation)
    (hs : Standing h (residents h e) h.length q.generation g.snapshot)
    (call : Option Call) (report : Option (String × NameSet)) :
    Roots h ⟨call, report, (e.query q).2⟩ c login h.length (e.query q).1 := by
  have huses : e.Uses q.generation g.snapshot := ⟨huse, ⟨g, hg, rfl⟩, resident_of_standing hs⟩
  unfold Engine.query
  rw [Engine.cached?_eq hg, Query.login_eq hq hc]
  cases hfind : g.find? login with
  | some actions =>
    obtain ⟨a, hsatisfy, hanswer⟩ := Engine.exists_satisfy hq hc hg actions
    dsimp only
    rw [hsatisfy]
    exact .inr ⟨q.generation, g, actions, usedAt_last huses, hs, hg, hfind, hanswer⟩
  | none =>
    exact ⟨q, e.frames, g.snapshot, rfl, usedAt_last ⟨huse, ⟨g, hg, rfl⟩, huses.resident⟩⟩

/-- Roles that arrive are put into the generation of the query that waits for them. -/
theorem roots_rolesFound {q : Query} (hq : q.Serves c) (hc : c.subject? = some login)
    {g : Generation} (hg : e.generations[q.generation]? = some g)
    (hused : UsedAt h first q.generation g.snapshot)
    (hs : Standing h (residents h e) first q.generation g.snapshot)
    (result : Except DirectoryError NameSet) (call : Option Call)
    (report : Option (String × NameSet)) :
    Roots h ⟨call, report, (e.rolesFound q result).2⟩ c login first (e.rolesFound q result).1 := by
  have hlogin := Query.login_eq hq hc
  have hbuild : ∀ (ns : List Notice) (roles : NameSet),
      Roots h ⟨call, report, ((e.report ns).build q roles).2⟩ c login first
        ((e.report ns).build q roles).1 := by
    intro ns roles
    let built := g.snapshot.configuration.listedActions ⟨q.login, roles⟩
    have hg' := Engine.getElem?_built (e := e.report ns) hg roles
    have hsnapshot := g.snapshot_remember q.login built
    have hfind := g.find?_remember_self q.login built
    obtain ⟨a, hsatisfy, hanswer⟩ :=
      Engine.exists_satisfy hq hc hg' ((g.find? q.login).getD built)
    rw [Engine.build_eq (e := e.report ns) hg, hsatisfy]
    refine .inr ⟨q.generation, g.remember q.login built, _, ?_, ?_, hg', hlogin ▸ hfind, hanswer⟩
    · rw [hsnapshot]
      exact hused.append _
    · rw [hsnapshot]
      exact hs
  cases result with
  | ok roles =>
    have hok := hbuild [] roles
    rwa [Engine.report, Store.report_nil] at hok
  | error err => exact hbuild [.rolesUnavailable q.login] ∅

variable {m : Type → Type} [Monad m] {W : Type} (ρ : Runner m W) (d : Documents m)

/-- A query takes up the generation for the snapshot in force, which is in use from then on. -/
theorem roots_beginQuery {purpose : Purpose} {failed : RightsError → Engine → Output × Engine}
    (hfailed : ∀ err e', ∃ a, failed err e' = (.answered a, e') ∧ a.isError = true)
    (hserves : ∀ i, Query.Serves ⟨i, login, purpose⟩ c) (hc : c.subject? = some login)
    (hcoherent : Coherent h reports e) (hr : e.resolver.isSome = true) (call : Option Call)
    (report : Option (String × NameSet)) (w : W) {o : Output × Engine}
    (ho : (ρ.run (e.beginQuery d login purpose failed) w).1 = o) :
    Roots h ⟨call, report, o.2⟩ c login h.length o.1 := by
  obtain ⟨r, s, w', hrun, -, htaken⟩ := exists_run_current ρ d (Nat.le_refl _) hcoherent w
  rw [Engine.beginQuery, ρ.run_bind, hrun] at ho
  cases r with
  | error err =>
    obtain ⟨a, ha, herr⟩ := hfailed err { e with store := s }
    simp only [ρ.run_pure, ha] at ho
    subst ho
    exact .inl herr
  | ok S =>
    rcases hgen : Engine.generationFor { e with store := s } S with ⟨i, e'⟩
    obtain ⟨-, -, g, hg, hstanding⟩ := htaken S i e' rfl hgen
    have huse := Engine.inUse?_generationFor (e := { e with store := s }) hr S
    rw [hgen] at huse
    simp only [hgen, ρ.run_pure] at ho
    subst ho
    exact roots_query (hserves i) hc hg huse hstanding call report

theorem roots_call (hc : c.subject? = some login) (hcoherent : Coherent h reports e)
    (hr : e.resolver.isSome = true) (call : Option Call) (report : Option (String × NameSet))
    (w : W) {o : Output × Engine} (ho : (ρ.run (e.call d c) w).1 = o) :
    Roots h ⟨call, report, o.2⟩ c login h.length o.1 := by
  cases c with
  | tryIsAllowed login' action =>
    obtain rfl : login' = login := Option.some.inj hc
    have hserves : ∀ i,
        Query.Serves ⟨i, login', .decide action⟩ (.tryIsAllowed login' action) :=
      fun i ↦ ⟨rfl, rfl⟩
    exact roots_beginQuery ρ d (fun err e' ↦ ⟨_, rfl, rfl⟩) hserves rfl hcoherent hr call report w
      ho
  | effectiveActions login' =>
    obtain rfl : login' = login := Option.some.inj hc
    have hserves : ∀ i, Query.Serves ⟨i, login', .list⟩ (.effectiveActions login') :=
      fun i ↦ ⟨rfl, rfl⟩
    exact roots_beginQuery ρ d (fun err e' ↦ ⟨_, rfl, rfl⟩) hserves rfl hcoherent hr call report w
      ho
  | _ => simp [Call.subject?] at hc

end Moves

/-! ### From a call to its answer -/

/-- What a call about a login waits for is a look-up for the sake of the generation that was in use
when the call was made. -/
def Follows (h : List Moment) (f : Frame) (p : Call × Nat) : Prop :=
  ∀ login, p.1.subject? = some login → ∀ q, f = .lookingUp q → ∃ S, UsedAt h p.2 q.generation S

/-- The answer is what the snapshot says of roles that account for it. -/
structure Exchange.AnsweredBy (h : List Moment) (x : Exchange) (login : String) (S : Snapshot)
    (roles : NameSet) : Prop where
  accounts : Accounts h x login S roles
  answer : S.configuration.answer? roles x.call = some x.answer

/-- The answer rests on the action set built for these roles. It is stored in the generation that
was in use when the call was made. -/
structure Exchange.Rests (h : List Moment) (x : Exchange) (login : String) (i : Nat) (S : Snapshot)
    (roles : NameSet) : Prop extends x.AnsweredBy h login S roles where
  used : UsedAt h x.first i S
  stored : StoredAt h x.last i login (S.configuration.listedActions ⟨login, roles⟩)

theorem Follows.append {h : List Moment} {f : Frame} {p : Call × Nat} (hf : Follows h f p)
    (m : Moment) : Follows (h ++ [m]) f p := by
  intro login hc q hq
  obtain ⟨S, hu⟩ := hf login hc q hq
  exact ⟨S, hu.append m⟩

theorem Exchange.Rests.append {h : List Moment} {x : Exchange} {login : String} {i : Nat}
    {S : Snapshot} {roles : NameSet} (hx : x.Rests h login i S roles) (hfirst : x.first ≤ h.length)
    (m : Moment) : x.Rests (h ++ [m]) login i S roles where
  accounts := hx.accounts.next hfirst
  answer := hx.answer
  used := hx.used.append m
  stored := hx.stored.append m

namespace Session

variable {m : Type → Type} [Monad m] {W : Type} {ρ : Runner m W} {d : Documents m} {s : Session W}

/-- What is so at any time of the calls about logins. -/
structure Rooted (s : Session W) : Prop where
  follows : List.Forall₂ (Follows s.moments) s.engine.frames s.pending
  rests : ∀ x ∈ s.exchanges, ∀ login, x.call.subject? = some login →
    x.answer.isError = true ∨ ∃ i S roles, x.Rests s.moments login i S roles

theorem rooted_fresh (editAction : String) (w : W) : (fresh editAction w).Rooted where
  follows := .nil
  rests := fun _ hx ↦ absurd hx List.not_mem_nil

/-- **What one event comes to** for a call about a login. -/
theorem Rooted.roots (hr : s.Rooted) (hs : s.Sound) (hres : s.engine.resolver.isSome = true)
    {ev : Event} {c : Call} {first : Nat} {rest : List (Call × Nat)}
    (hwaiting : s.waiting ev = (c, first) :: rest) {login : String}
    (hsub : c.subject? = some login) (w : W) {o : Output × Engine}
    (ho : (ρ.run (s.engine.step d ev) w).1 = o) :
    Roots s.moments ⟨ev.call?, s.engine.reported? ev, o.2⟩ c login first o.1 := by
  -- a call about a login waits for a look-up only
  have hwants : c.wantsActions ≠ false := by simp [Call.wantsActions_of_subject? hsub]
  have hinnermost : ev.call? = none → ∀ {f fs}, s.engine.frames = f :: fs →
      s.pending = (c, first) :: rest ∧ Awaits s.moments s.engine f (c, first) := by
    intro hcall f fs hframes
    obtain ⟨p, rest', hp, -, hpending⟩ := hs.awaits_of_frames_eq hframes
    rw [waiting_of_reply hcall] at hwaiting
    obtain ⟨rfl, -⟩ := List.cons.inj (hpending.symm.trans hwaiting)
    exact ⟨hwaiting, hp⟩
  cases ev with
  | call c' =>
    obtain ⟨⟨rfl, rfl⟩, -⟩ : (c' = c ∧ s.moments.length = first) ∧ s.pending = rest := by
      simpa [waiting, Event.call?] using hwaiting
    exact roots_call ρ d hsub hs.coherent hres _ _ w ho
  | released key =>
    rw [Engine.step, ρ.run_pure] at ho
    subst ho
    trivial
  | told reaction =>
    rw [Engine.step] at ho
    split at ho
    · rename_i r round fs hframes
      exact absurd (hinnermost rfl hframes).2.2 hwants
    · rw [ρ.run_pure] at ho
      subst ho
      trivial
  | rolesFound result =>
    rw [Engine.step] at ho
    split at ho
    · rename_i q fs hframes
      obtain ⟨hpending, -, hserves, g, hg, hstanding⟩ := hinnermost rfl hframes
      -- the generation of the look-up has kept its snapshot since the call was made
      obtain ⟨S, m', hm', huse, ⟨g₀, hg₀, rfl⟩, hresident⟩ :=
        (forall₂_of_cons hframes hpending hr.follows).1 login hsub q rfl
      obtain ⟨g', hg', hsnap⟩ := hs.coherent.kept m' (List.mem_of_getElem? hm') _ _ hg₀
      obtain rfl : g = g' := Option.some.inj (hg.symm.trans hg')
      rw [ρ.run_pure] at ho
      subst ho
      exact roots_rolesFound (e := { s.engine with frames := fs }) hserves hsub hg
        ⟨m', hm', huse, ⟨g₀, hg₀, hsnap.symm⟩, hsnap ▸ hresident⟩ (hstanding.later _) result _ _
    · rw [ρ.run_pure] at ho
      subst ho
      trivial
  | usersFound result =>
    rw [Engine.step] at ho
    split at ho
    · rename_i fs hframes
      exact absurd (hinnermost rfl hframes).2.2 hwants
    · rw [ρ.run_pure] at ho
      subst ho
      trivial

/-- What has been said of the exchanges before stays true. -/
theorem Rooted.rests_append (hr : s.Rooted) (hs : s.Sound) (now : Moment) : ∀ x ∈ s.exchanges,
    ∀ login, x.call.subject? = some login → x.answer.isError = true ∨
      ∃ i S roles, x.Rests (s.moments ++ [now]) login i S roles := by
  intro x hx login hsub
  obtain ⟨hle, hlt, -⟩ := hs.cacheFree x hx
  refine (hr.rests x hx login hsub).imp_right ?_
  rintro ⟨i, S, roles, hrests⟩
  exact ⟨i, S, roles, hrests.append (Nat.le_of_lt (Nat.lt_of_le_of_lt hle hlt)) now⟩

/-- The call that is answered is an exchange more, or what it waits for is a frame more. -/
theorem Rooted.record (hr : s.Rooted) (hs : s.Sound) {ev : Event} {o : Output × Engine}
    (ht : s.Taken ev o)
    (hroots : ∀ c first rest login, s.waiting ev = (c, first) :: rest → c.subject? = some login →
      Roots s.moments ⟨ev.call?, s.engine.reported? ev, o.2⟩ c login first o.1) (w : W) :
    (s.record ev o.1 o.2 w).Rooted := by
  obtain ⟨out, e⟩ := o
  let now : Moment := ⟨ev.call?, s.engine.reported? ev, e⟩
  have hrests := hr.rests_append hs now
  have hfollows : ∀ {fs rest}, List.Forall₂ (Follows s.moments) fs rest →
      List.Forall₂ (Follows (s.moments ++ [now])) fs rest :=
    fun hall ↦ hall.imp fun _ _ hf ↦ hf.append now
  cases ht with
  | nothing hcall hout hframes hc =>
    obtain rfl : out = .nothing := hout
    rw [record_of_nothing hcall]
    refine ⟨?_, hrests⟩
    show List.Forall₂ _ e.frames s.pending
    rw [show e.frames = s.engine.frames from hframes]
    exact hfollows hr.follows
  | call c first rest fs hwaiting hfirst hrest ho =>
    have hroots' : ∀ login, c.subject? = some login → Roots s.moments now c login first out :=
      fun login ↦ hroots c first rest login hwaiting
    obtain ⟨hc, ho⟩ := ho
    cases out with
    | answered a =>
      rw [record_of_answered hwaiting]
      constructor
      · show List.Forall₂ _ e.frames rest
        rw [show e.frames = fs from ho.1]
        exact hfollows (hrest _ hr.follows)
      · rw [List.forall_mem_append]
        refine ⟨hrests, List.forall_mem_singleton.2 fun login hsub ↦ ?_⟩
        obtain herr | ⟨i, g, actions, hused, hstanding, hg, hfind, hanswer⟩ := hroots' login hsub
        · exact .inl herr
        · have hstored : Stored s.moments ((s.moments ++ [now]).map (·.report)) i g.snapshot login
              actions := by
            rw [List.map_append]
            exact hc.stored i g hg login actions hfind
          obtain ⟨roles, rfl, haccounts⟩ :=
            accounts_of_stored (c := c) (a := a) hstanding hstored hfirst
          refine .inr ⟨i, g.snapshot, roles, ⟨haccounts, ?_⟩, hused, now, g,
            List.getElem?_concat_length, hg, hfind⟩
          rw [Configuration.answer?_eq _ _ hsub]
          exact hanswer
    | asked r =>
      obtain ⟨f, hframes, -⟩ := ho
      rw [record_of_asked hwaiting]
      refine ⟨?_, hrests⟩
      show List.Forall₂ _ e.frames _
      rw [show e.frames = f :: fs from hframes]
      refine .cons ?_ (hfollows (hrest _ hr.follows))
      rintro login hsub q rfl
      obtain ⟨q', fs', S, hframes', hused⟩ := hroots' login hsub
      obtain ⟨⟨rfl⟩, -⟩ := List.cons.inj (hframes.symm.trans hframes')
      exact ⟨S, hused⟩
    | nothing => exact ho.elim

/-- **From one move to the next**, every answer rests on the generation its query began in. -/
theorem Rooted.move (hr : s.Rooted) (hs : s.Sound) (ht : s.Retaining) (mv : Move W) :
    (s.move ρ d mv).Rooted := by
  cases mv with
  | event ev =>
    exact hr.record hs (hs.taken ev s.world)
      (fun c first rest login hwaiting hsub ↦ hr.roots hs ht.resolver hwaiting hsub s.world rfl) _
  | outside edit => exact ⟨hr.follows.imp fun _ _ hf ↦ hf.append _, hr.rests_append hs _⟩

/-- All answers of a session rest on the generation their query began in. -/
theorem rooted_run (hr : s.Rooted) (hs : s.Sound) (ht : s.Retaining) (moves : List (Move W)) :
    (s.run ρ d moves).Rooted := by
  induction moves generalizing s with
  | nil => exact hr
  | cons mv moves ih => exact ih (hr.move hs ht mv) (sound_move hs mv) (ht.move mv)

end Session

end LayeredRights
