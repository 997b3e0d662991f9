import LayeredRights.Proofs.Delivery.Residence
import LayeredRights.Proofs.Delivery.Chronicle

/-!
# Who is registered

At each moment of a session the registry holds what has been added, in order, without what has been
lost since (`roll`). A registration is lost when its id is removed, when the resolver that it
belongs to is replaced, and when its subscriber is not alive as a delivery begins. Nothing else
makes a difference to it, and least of all that a delivery ends: only calls change the registry.

What one call makes of the registry is said once (`Engine.Enrolls`). From that, moment by moment,
the registry can be read off the calls and off who was alive when they were made, without looking
at any registry in between.

The invariant (`Session.Enrolled`) goes over the moments and holds the registry against the roll. An
event that is no call leaves both alone, and for a call it is one equation between filters: those
that the call drops from the registry are those that are lost with it according to the history
(`roll_append_of_enrolls`). That a registration was lost in the past is not undone by what comes
later, as each move is judged by the engines before and after it, which stay in the history.

Ids are handed out in ascending order and never again. So an id says when it was handed out, and two
registrations of one id are one.
-/

namespace LayeredRights

/-! ### One call -/

/-- Who is registered by a call. -/
def Call.subscriber? : Call → Option Subscriber
  | .subscribe key => some (.listener key)
  | .attachResolver => some .resolver
  | _ => none

/-- Whether a delivery begins with a call, by the numbers of loads before and after it. That of an
update or a reload begins if something has been loaded. -/
def Call.delivers (loads loads' : Nat) : Call → Bool
  | .announce _ => true
  | .update _ | .reload => loads < loads'
  | _ => false

namespace Engine

/-- The id whose registration a call removes. -/
def removed? (e : Engine) : Call → Option Nat
  | .unsubscribe id => some id
  | .attachResolver => e.resolver.map (·.id)
  | _ => none

/-- Whether a registration goes with a call that leaves the engine as another: it is removed, or is
not alive as a delivery begins. -/
def loses (e : Engine) (c : Call) (e' : Engine) (r : Registration) : Bool :=
  e.removed? c = some r.id || c.delivers e.store.loads e'.store.loads && !e.isAlive r

/-- What a call makes of the registry. -/
structure Enrolls (e : Engine) (c : Call) (e' : Engine) : Prop where
  registrations : e'.registry.registrations =
    e.registry.registrations.filter (fun r ↦ !e.loses c e' r) ++
      (c.subscriber?.map (Registration.mk e.registry.nextId)).toList
  nextId : e'.registry.nextId = e.registry.nextId + c.subscriber?.toList.length
  resolver_lt : ∀ r, e'.resolver = some r → r.id < e'.registry.nextId

/-- The engines have the same registry, and the same resolver as far as it is registered. -/
structure SameRoll (e e' : Engine) : Prop where
  registry : e'.registry = e.registry
  resolver : e'.resolver.map (·.id) = e.resolver.map (·.id)

variable {e e' e'' : Engine}

theorem SameRoll.refl (e : Engine) : e.SameRoll e := ⟨rfl, rfl⟩

theorem SameRoll.trans (h : e.SameRoll e') (h' : e'.SameRoll e'') : e.SameRoll e'' :=
  ⟨h'.registry.trans h.registry, h'.resolver.trans h.resolver⟩

/-- What has been done to other parts of the engine before does not count. -/
theorem SameRoll.of_eq {e₁ : Engine} (h : e₁.SameRoll e') (hregistry : e₁.registry = e.registry)
    (hresolver : e₁.resolver = e.resolver) : e.SameRoll e' :=
  ⟨h.registry.trans hregistry, by rw [h.resolver, hresolver]⟩

/-- The resolver is registered under an id that has been handed out. -/
theorem SameRoll.resolver_lt (h : e.SameRoll e')
    (hlt : ∀ r, e.resolver = some r → r.id < e.registry.nextId) :
    ∀ r, e'.resolver = some r → r.id < e'.registry.nextId := by
  intro r hr
  have hid := h.resolver
  rw [hr, Option.map_some, eq_comm, Option.map_eq_some_iff] at hid
  obtain ⟨r₀, hr₀, hid⟩ := hid
  rw [h.registry, ← hid]
  exact hlt r₀ hr₀

/-! ### What leaves the registry alone -/

/-- Discarding action sets leaves the registry alone. -/
theorem sameRoll_discard (e : Engine) : e.SameRoll e.discard :=
  ⟨rfl, by cases hr : e.resolver <;> simp [discard, hr]⟩

/-- Going on with a delivery leaves the registry alone. Those that are gone are passed over, and
were taken off when the delivery began. -/
theorem sameRoll_deliver (round : Round) (rs : List Registration) :
    e.SameRoll (e.deliver round rs).2 := by
  induction rs generalizing e round with
  | nil => exact .refl e
  | cons r rs ih =>
    unfold deliver
    split
    · cases r.subscriber with
      | listener key => exact ⟨rfl, rfl⟩
      | resolver => exact e.sameRoll_discard.trans (ih _)
    · exact ih _

/-- A reaction leaves the registry alone, whatever it is. -/
theorem sameRoll_resume (r : Registration) (round : Round) (reaction : Reaction) :
    e.SameRoll (e.resume r round reaction).2 := by
  cases reaction with
  | accepted => exact sameRoll_deliver _ _
  | failed | panicked => exact (sameRoll_deliver (e := e.report _) _ _).of_eq rfl rfl

theorem sameRoll_generationFor (S : Snapshot) : e.SameRoll (e.generationFor S).2 := by
  unfold generationFor
  split
  · exact .refl e
  · exact ⟨rfl, by cases hr : e.resolver <;> simp⟩

theorem sameRoll_warm (i total : Nat) (ls : List String) : e.SameRoll (e.warm i total ls).2 := by
  induction ls with
  | nil => exact .refl e
  | cons l ls ih =>
    unfold warm
    split
    · exact ih
    · exact ⟨rfl, rfl⟩

theorem sameRoll_satisfy (q : Query) (actions : NameSet) :
    e.SameRoll (e.satisfy q actions).2 := by
  obtain ⟨i, login, purpose⟩ := q
  cases purpose with
  | warmUp rest total => exact sameRoll_warm i total rest
  | decide | list => exact .refl e

/-- A query leaves the registry alone, whether it is answered or looked up. -/
theorem sameRoll_query (q : Query) : e.SameRoll (e.query q).2 := by
  unfold query
  split
  · exact sameRoll_satisfy q _
  · exact ⟨rfl, rfl⟩

/-- Roles that arrive leave the registry alone. -/
theorem sameRoll_rolesFound (q : Query) (result : Except DirectoryError NameSet) :
    e.SameRoll (e.rolesFound q result).2 := by
  have hbuild : ∀ (e : Engine) (roles : NameSet), e.SameRoll (e.build q roles).2 := by
    intro e roles
    unfold build
    split
    · exact .refl e
    · exact (sameRoll_satisfy q _).of_eq rfl rfl
  cases result with
  | ok roles => exact hbuild e roles
  | error err => exact (hbuild (e.report _) ∅).of_eq rfl rfl

section Runs

variable {m : Type → Type} [Monad m] {W : Type} (ρ : Runner m W) (d : Documents m)

/-- Beginning a query leaves the registry alone, if its failure does. -/
theorem sameRoll_beginQuery {login : String} {purpose : Purpose}
    {failed : RightsError → Engine → Output × Engine}
    (hfailed : ∀ err e', e.SameRoll e' → e.SameRoll (failed err e').2) (w : W) :
    e.SameRoll (ρ.run (e.beginQuery d login purpose failed) w).1.2 := by
  rw [beginQuery, ρ.run_bind, ρ.run_withStore]
  rcases ρ.perform (Store.current d) e.store w with ⟨err | S, s, w'⟩
  · simp only [ρ.run_pure]
    exact hfailed err { e with store := s } ⟨rfl, rfl⟩
  · simp only [ρ.run_pure]
    have hsame : e.SameRoll (Engine.generationFor { e with store := s } S).2 :=
      (sameRoll_generationFor S).of_eq rfl rfl
    exact hsame.trans (sameRoll_query _)

theorem sameRoll_usersFound (result : Except DirectoryError (List String)) (w : W) :
    e.SameRoll (ρ.run (e.usersFound d result) w).1.2 := by
  cases result with
  | error err =>
    rw [usersFound, ρ.run_pure]
    exact ⟨rfl, rfl⟩
  | ok users =>
    rw [usersFound, ρ.run_bind, ρ.run_withStore]
    rcases ρ.perform (Store.current d) e.store w with ⟨err | S, s, w'⟩
    · simp only [ρ.run_pure]
      exact ⟨rfl, rfl⟩
    · simp only [ρ.run_pure]
      have hsame : e.SameRoll (Engine.generationFor { e with store := s } S).2 :=
        (sameRoll_generationFor S).of_eq rfl rfl
      exact hsame.trans (sameRoll_warm _ _ _)

/-- **Only calls change the registry.** -/
theorem sameRoll_step {ev : Event} (hcall : ev.call? = none) (w : W) :
    e.SameRoll (ρ.run (e.step d ev) w).1.2 := by
  cases ev with
  | call c => exact nomatch hcall
  | released key =>
    rw [step, ρ.run_pure]
    exact ⟨rfl, rfl⟩
  | told reaction =>
    rw [step]
    split
    · rename_i r round fs hframes
      rw [ρ.run_pure]
      exact (sameRoll_resume r round reaction).of_eq rfl rfl
    · rw [ρ.run_pure]
      exact .refl e
  | rolesFound result =>
    rw [step]
    split
    · rename_i q fs hframes
      rw [ρ.run_pure]
      exact (sameRoll_rolesFound q result).of_eq rfl rfl
    · rw [ρ.run_pure]
      exact .refl e
  | usersFound result =>
    rw [step]
    split
    · rename_i fs hframes
      exact (sameRoll_usersFound ρ d result w).of_eq rfl rfl
    · rw [ρ.run_pure]
      exact .refl e

/-! ### What changes it -/

variable {c : Call}

/-- A call that registers nobody, removes nobody and delivers nothing. -/
theorem enrolls_of_sameRoll (h : e.SameRoll e') (hsub : c.subscriber? = none)
    (hremoved : e.removed? c = none) (hdelivers : c.delivers e.store.loads e'.store.loads = false)
    (hlt : ∀ r, e.resolver = some r → r.id < e.registry.nextId) : e.Enrolls c e' where
  registrations := by simp [h.registry, hsub, loses, hremoved, hdelivers]
  nextId := by simp [h.registry, hsub]
  resolver_lt := h.resolver_lt hlt

/-- A delivery prunes the registry when it begins. -/
theorem enrolls_announce {s : Store} (S : Snapshot) (occasion : Occasion)
    (hsub : c.subscriber? = none) (hremoved : e.removed? c = none)
    (hdelivers : c.delivers e.store.loads s.loads = true)
    (hlt : ∀ r, e.resolver = some r → r.id < e.registry.nextId) :
    e.Enrolls c (Engine.announce { e with store := s } S occasion).2 := by
  have hsame : SameRoll { e with registry := e.registry.prune e.isAlive }
      (Engine.announce { e with store := s } S occasion).2 :=
    (sameRoll_deliver (e := { e with store := s, registry := e.registry.prune e.isAlive })
      _ _).of_eq rfl rfl
  have hstore : (Engine.announce { e with store := s } S occasion).2.store = s :=
    store_announce (e := { e with store := s }) S occasion
  refine ⟨?_, ?_, hsame.resolver_lt hlt⟩
  · simp [hsame.registry, hsub, loses, hremoved, hstore, hdelivers, Registry.prune]
  · simp [hsame.registry, hsub, Registry.prune]

/-- A new resolver is registered, and the one before it is not anymore. -/
theorem enrolls_attachResolver (hlt : ∀ r, e.resolver = some r → r.id < e.registry.nextId) :
    e.Enrolls .attachResolver e.attachResolver := by
  cases hr : e.resolver with
  | none =>
    refine ⟨?_, ?_, fun r hnew ↦ ?_⟩
    · simp [attachResolver, hr, Registry.add, loses, removed?, Call.delivers, Call.subscriber?]
    · simp [attachResolver, hr, Registry.add, Call.subscriber?]
    · obtain rfl := Option.some.inj hnew
      simp [attachResolver, hr, Registry.add]
  | some old =>
    have hne : e.registry.nextId ≠ old.id := Nat.ne_of_gt (hlt old hr)
    have hloses : ∀ r : Registration, e.loses .attachResolver e.attachResolver r =
        decide (r.id = old.id) := by
      intro r
      simp [loses, removed?, Call.delivers, hr, eq_comm]
    refine ⟨?_, ?_, fun r hnew ↦ ?_⟩
    · simp only [hloses]
      simp [attachResolver, hr, Registry.add, Registry.remove, Call.subscriber?, hne]
    · simp [attachResolver, hr, Registry.add, Registry.remove, Call.subscriber?]
    · obtain rfl := Option.some.inj hnew
      simp [attachResolver, hr, Registry.add, Registry.remove]

/-- **What each call makes of the registry.** -/
theorem enrolls_call (hlt : ∀ r, e.resolver = some r → r.id < e.registry.nextId) (c : Call)
    (w : W) : e.Enrolls c (ρ.run (e.call d c) w).1.2 := by
  cases c with
  | current =>
    rw [call, ρ.run_bind, ρ.run_withStore, ρ.run_pure]
    exact enrolls_of_sameRoll ⟨rfl, rfl⟩ rfl rfl rfl hlt
  | update candidate =>
    rw [call, ρ.run_bind, ρ.run_withStore]
    rcases hperform : ρ.perform (Store.commit d candidate) e.store w with ⟨r, s, w'⟩
    have hloads := ρ.loads_of_commit d hperform
    rcases r with err | _ | S
    all_goals simp only [ρ.run_pure]
    · exact enrolls_of_sameRoll ⟨rfl, rfl⟩ rfl rfl
        (decide_eq_false (Nat.not_lt_of_le hloads.le)) hlt
    · exact enrolls_of_sameRoll ⟨rfl, rfl⟩ rfl rfl
        (decide_eq_false (Nat.not_lt_of_le hloads.le)) hlt
    · exact enrolls_announce S .updated rfl rfl (decide_eq_true (Nat.lt_of_succ_le hloads.ge)) hlt
  | reload =>
    rw [call, ρ.run_bind, ρ.run_withStore]
    rcases hperform : ρ.perform (Store.reload d) e.store w with ⟨r, s, w'⟩
    have hloads := ρ.loads_of_reload d hperform
    cases r with
    | error err =>
      simp only [ρ.run_pure]
      exact enrolls_of_sameRoll ⟨rfl, rfl⟩ rfl rfl (decide_eq_false (Nat.not_lt_of_le hloads.le))
        hlt
    | ok S =>
      simp only [ρ.run_pure]
      exact enrolls_announce S .reloaded rfl rfl (decide_eq_true (Nat.lt_of_succ_le hloads.ge)) hlt
  | announce S =>
    rw [call, ρ.run_pure]
    exact enrolls_announce (s := e.store) S .announced rfl rfl rfl hlt
  | subscribe key =>
    rw [call, ρ.run_pure]
    refine ⟨?_, rfl, fun r hr ↦ Nat.lt_succ_of_lt (hlt r hr)⟩
    simp [Registry.add, loses, removed?, Call.delivers, Call.subscriber?]
  | unsubscribe id =>
    rw [call, ρ.run_pure]
    refine ⟨?_, rfl, hlt⟩
    simp [Registry.remove, loses, removed?, Call.delivers, Call.subscriber?, eq_comm]
  | attachResolver =>
    rw [call, ρ.run_pure]
    exact enrolls_attachResolver hlt
  | isAllowed login action =>
    rw [call]
    exact enrolls_of_sameRoll (sameRoll_beginQuery ρ d (fun err e' h ↦ h.trans ⟨rfl, rfl⟩) w)
      rfl rfl rfl hlt
  | tryIsAllowed | effectiveActions =>
    rw [call]
    exact enrolls_of_sameRoll (sameRoll_beginQuery ρ d (fun err e' h ↦ h) w) rfl rfl rfl hlt
  | warmUp =>
    rw [call, ρ.run_pure]
    exact enrolls_of_sameRoll ⟨rfl, rfl⟩ rfl rfl rfl hlt
  | discard =>
    rw [call, ρ.run_pure]
    exact enrolls_of_sameRoll e.sameRoll_discard rfl rfl rfl hlt

end Runs

end Engine

/-! ### All calls -/

/-- A registration, with the moment at which it was added. -/
structure Addition where
  moment : Nat
  registration : Registration
  deriving DecidableEq, Repr

/-- Who is registered in a move. -/
def Moment.subscriber? (m : Moment) : Option Subscriber := m.call.bind Call.subscriber?

/-- All that have been registered, oldest first. Ids are handed out in ascending order. -/
def additions (h : List Moment) : List Addition :=
  (h.zipIdx.filterMap fun (m, k) ↦ m.subscriber?.map (k, ·)).mapIdx fun id (k, s) ↦ ⟨k, id, s⟩

/-- Whether a registration goes with the move after moment `k`. -/
def lostAfter (h : List Moment) (k : Nat) (r : Registration) : Bool :=
  match h[k]?, h[k + 1]? with
  | some m, some m' => m'.call.any fun c ↦ m.engine.loses c m'.engine r
  | _, _ => false

/-- Whether a registration has not gone since it was added. -/
def lasts (h : List Moment) (a : Addition) : Bool :=
  (List.range h.length).all fun k ↦ k < a.moment || !lostAfter h k a.registration

/-- The registry as it can be read off the calls. -/
def roll (h : List Moment) : Registry where
  registrations := ((additions h).filter (lasts h)).map (·.registration)
  nextId := (additions h).length

section Roll

variable {h past : List Moment} {last now : Moment} {a : Addition} {k : Nat} {r : Registration}
  {c : Call}

theorem additions_append (h : List Moment) (now : Moment) : additions (h ++ [now]) = additions h ++
    (now.subscriber?.map fun s ↦ ⟨h.length, (additions h).length, s⟩).toList := by
  rw [additions, List.zipIdx_append, List.filterMap_append, List.mapIdx_append]
  cases hs : now.subscriber? <;> simp [additions, hs]

/-- An addition is made at a moment that has been. -/
theorem moment_lt (ha : a ∈ additions h) : a.moment < h.length := by
  induction h using List.reverseRecOn with
  | nil => exact nomatch ha
  | append_singleton h now ih =>
    rw [List.length_append, List.length_singleton]
    rw [additions_append] at ha
    rcases List.mem_append.1 ha with hold | hnew
    · exact Nat.lt_succ_of_lt (ih hold)
    · obtain ⟨s, -, rfl⟩ := Option.map_eq_some_iff.1 (Option.mem_toList.1 hnew)
      exact Nat.lt_succ_self h.length

/-- The ids are the numbers from zero on. -/
theorem map_id_additions (h : List Moment) :
    (additions h).map (·.registration.id) = List.range (additions h).length := by
  induction h using List.reverseRecOn with
  | nil => rfl
  | append_singleton h now ih =>
    rw [additions_append]
    cases now.subscriber? with
    | none => simpa using ih
    | some s => simp [ih, List.range_succ]

theorem lostAfter_of_le (hle : h.length ≤ k + 1) : lostAfter h k r = false := by
  rw [lostAfter, List.getElem?_eq_none hle]
  cases h[k]? <;> rfl

/-- What went with a move goes with it for good. -/
theorem lostAfter_append_of_lt (hlt : k + 1 < h.length) :
    lostAfter (h ++ [now]) k r = lostAfter h k r := by
  rw [lostAfter, lostAfter, List.getElem?_append_left hlt,
    List.getElem?_append_left (Nat.lt_of_succ_lt hlt)]

/-- What goes with the last move. -/
theorem lostAfter_concat : lostAfter (past ++ [last] ++ [now]) past.length r =
    now.call.any fun c ↦ last.engine.loses c now.engine r := by
  simp [lostAfter]

/-- A registration has not gone if it has gone with no move since it was added. -/
theorem lasts_iff :
    lasts h a = true ↔ ∀ k, a.moment ≤ k → lostAfter h k a.registration = false := by
  simp only [lasts, List.all_eq_true, List.mem_range, Bool.or_eq_true, decide_eq_true_eq,
    Bool.not_eq_true']
  constructor
  · intro hall k hle
    rcases Nat.lt_or_ge k h.length with hlt | hge
    · exact (hall k hlt).resolve_left (Nat.not_lt_of_le hle)
    · exact lostAfter_of_le (Nat.le_succ_of_le hge)
  · exact fun hall k _ ↦ (Nat.lt_or_ge k a.moment).imp_right (hall k)

/-- What has been there up to the last move is there still, unless it goes with that. -/
theorem lasts_append (hlast : h = past ++ [last]) (ha : a.moment < h.length) :
    lasts (h ++ [now]) a = (lasts h a &&
      !now.call.any fun c ↦ last.engine.loses c now.engine a.registration) := by
  have hlength : h.length = past.length + 1 := by simp [hlast]
  have hconcat : lostAfter (h ++ [now]) past.length a.registration =
      now.call.any fun c ↦ last.engine.loses c now.engine a.registration := by
    rw [hlast]
    exact lostAfter_concat
  rw [Bool.eq_iff_iff, Bool.and_eq_true, lasts_iff, lasts_iff, Bool.not_eq_true', ← hconcat]
  constructor
  · intro hall
    refine ⟨fun k hle ↦ ?_, hall past.length (by omega)⟩
    rcases Nat.lt_or_ge (k + 1) h.length with hlt | hge
    · rw [← lostAfter_append_of_lt hlt]
      exact hall k hle
    · exact lostAfter_of_le hge
  · rintro ⟨hall, hlost⟩ k hle
    rcases Nat.lt_trichotomy k past.length with hlt | rfl | hgt
    · rw [lostAfter_append_of_lt (by omega)]
      exact hall k hle
    · exact hlost
    · refine lostAfter_of_le ?_
      rw [List.length_append, List.length_singleton]
      omega

/-- What has just been added is there. -/
theorem lasts_of_le (hle : h.length ≤ a.moment + 1) : lasts h a = true :=
  lasts_iff.2 fun _ hk ↦ lostAfter_of_le (hle.trans (Nat.succ_le_succ hk))

/-- A move that is no call makes no difference. -/
theorem roll_append_of_not_call (hlast : h = past ++ [last]) (hcall : now.call = none) :
    roll (h ++ [now]) = roll h := by
  have hadditions : additions (h ++ [now]) = additions h := by
    rw [additions_append, Moment.subscriber?, hcall]
    exact List.append_nil _
  have hlasts : ∀ a ∈ additions h, lasts (h ++ [now]) a = lasts h a := by
    intro a ha
    rw [lasts_append hlast (moment_lt ha), hcall, Option.any_none, Bool.not_false, Bool.and_true]
  rw [roll, roll, hadditions, List.filter_congr hlasts]

/-- **What a call makes of the registry is what it makes of the roll.** -/
theorem roll_append_of_enrolls (hlast : h = past ++ [last]) (hcall : now.call = some c)
    (he : last.engine.Enrolls c now.engine) (hroll : last.engine.registry = roll h) :
    now.engine.registry = roll (h ++ [now]) := by
  have hlasts : ∀ a ∈ additions h, lasts (h ++ [now]) a =
      (!last.engine.loses c now.engine a.registration && lasts h a) := by
    intro a ha
    rw [lasts_append hlast (moment_lt ha), hcall, Option.any_some, Bool.and_comm]
  have hnew : ∀ s, lasts (h ++ [now]) ⟨h.length, (additions h).length, s⟩ = true :=
    fun s ↦ lasts_of_le (by simp)
  have hadditions := additions_append h now
  rw [Moment.subscriber?, hcall, Option.bind_some] at hadditions
  have hregistrations := he.registrations
  have hnext := he.nextId
  rw [hroll] at hregistrations hnext
  generalize now.engine.registry = r at hregistrations hnext ⊢
  obtain ⟨registrations, nextId⟩ := r
  rw [roll, hadditions, Registry.mk.injEq]
  dsimp only at hregistrations hnext
  constructor
  · rw [hregistrations, List.filter_append, List.map_append, List.filter_congr hlasts,
      ← List.filter_filter]
    cases c.subscriber? with
    | none => simp [roll, List.filter_map, Function.comp_def]
    | some s => simp [roll, List.filter_map, Function.comp_def, hnew]
  · rw [hnext]
    cases c.subscriber? <;> simp [roll]

/-- At each moment the registry is what the calls up to then make it. -/
def Rolled (h : List Moment) : Prop :=
  ∀ k m, h[k]? = some m → m.engine.registry = roll (h.take (k + 1))

/-- A roll that was kept so far is kept by one more moment that agrees with it. -/
theorem Rolled.append (hr : Rolled h) (hnow : now.engine.registry = roll (h ++ [now])) :
    Rolled (h ++ [now]) := by
  intro k m hm
  rcases Nat.lt_or_ge k h.length with hlt | hge
  · rw [List.getElem?_append_left hlt] at hm
    rw [List.take_append_of_le_length hlt]
    exact hr k m hm
  · rw [List.getElem?_append_right hge, List.getElem?_singleton] at hm
    obtain ⟨-, ⟨rfl⟩⟩ := (Option.ite_none_right_eq_some ..).1 hm
    rw [List.take_of_length_le (by simpa using hge)]
    exact hnow

/-- In between calls the registry does not change. -/
theorem Rolled.registry_eq (hr : Rolled h) (hm : h[k]? = some last) (hnow : h[k + 1]? = some now)
    (hcall : now.call = none) : now.engine.registry = last.engine.registry := by
  have hlast : h.take (k + 1) = h.take k ++ [last] := by rw [List.take_add_one, hm]; rfl
  have htake : h.take (k + 1 + 1) = h.take (k + 1) ++ [now] := by rw [List.take_add_one, hnow]; rfl
  rw [hr k last hm, hr (k + 1) now hnow, htake, roll_append_of_not_call hlast hcall]

end Roll

/-! ### What is answered -/

/-- The calls that are about registrations. -/
def Call.enrolls : Call → Bool
  | .subscribe _ | .unsubscribe _ | .attachResolver => true
  | _ => false

namespace Exchange

/-- A registration is answered by the id under which it is added, and a removal by whether the id is
registered when the call is made. -/
def OnRoll (h : List Moment) (x : Exchange) : Prop :=
  match x.call with
  | .subscribe key => ∃ id, x.answer = .subscribed id ∧ ⟨x.first, id, .listener key⟩ ∈ additions h
  | .unsubscribe id => ∃ k m found, x.first = k + 1 ∧ h[k]? = some m ∧
      x.answer = .unsubscribed found ∧
      (found = true ↔ ∃ r ∈ m.engine.registry.registrations, r.id = id)
  | _ => True

/-- The exchange hands out an id. -/
def Adds (x : Exchange) (id : Nat) : Prop :=
  (∃ key, x.call = .subscribe key) ∧ x.answer = .subscribed id

/-- The exchange removes the registration of an id. -/
def Removes (x : Exchange) (id : Nat) : Prop :=
  x.call = .unsubscribe id ∧ x.answer = .unsubscribed true

variable {h : List Moment} {x : Exchange} {id : Nat}

theorem OnRoll.append (hx : x.OnRoll h) (now : Moment) : x.OnRoll (h ++ [now]) := by
  unfold OnRoll at hx ⊢
  split at hx
  · obtain ⟨id, hanswer, hmem⟩ := hx
    refine ⟨id, hanswer, ?_⟩
    rw [additions_append]
    exact List.mem_append_left _ hmem
  · obtain ⟨k, m, found, hfirst, hm, hrest⟩ := hx
    exact ⟨k, m, found, hfirst, getElem?_of_begin ⟨_, rfl⟩ hm, hrest⟩
  · trivial

/-- The id is one of those that have been handed out. -/
theorem Adds.lt (hadds : x.Adds id) (hx : x.OnRoll h) : id < (additions h).length := by
  obtain ⟨⟨key, hcall⟩, hanswer⟩ := hadds
  unfold OnRoll at hx
  rw [hcall] at hx
  obtain ⟨id', hanswer', hmem⟩ := hx
  obtain rfl : id = id' := by simpa using hanswer.symm.trans hanswer'
  have hid := List.mem_map_of_mem (f := fun a : Addition ↦ a.registration.id) hmem
  rw [map_id_additions] at hid
  exact List.mem_range.1 hid

end Exchange

/-- An engine to which nobody is registered, over a store that has loaded nothing. -/
def Engine.bare (editAction : String) : Engine := { store := { editAction := editAction } }

namespace Session

variable {m : Type → Type} [Monad m] {W : Type} {ρ : Runner m W} {d : Documents m} {s : Session W}

/-- A session in which nothing has happened, not even the registration of a resolver. -/
def bare (editAction : String) (w : W) : Session W :=
  { engine := .bare editAction, world := w, moments := [{ engine := .bare editAction }] }

/-- What is so of the registrations of a session at any time. -/
structure Enrolled (s : Session W) : Prop where
  latest : ∃ past last, s.moments = past ++ [last] ∧ last.engine = s.engine
  rolled : Rolled s.moments
  resolver_lt : ∀ r, s.engine.resolver = some r → r.id < s.engine.registry.nextId
  waiting : ∀ p ∈ s.pending, p.1.enrolls = false
  answered : ∀ x ∈ s.exchanges, x.OnRoll s.moments
  /-- What has been removed does not come back. -/
  removed : ∀ x ∈ s.exchanges, ∀ id, x.Removes id → id < s.engine.registry.nextId ∧
    ∀ r ∈ s.engine.registry.registrations, r.id ≠ id
  distinct : s.exchanges.Pairwise fun x y ↦ ∀ id, x.Adds id → ¬y.Adds id
  once : s.exchanges.Pairwise fun x y ↦ ∀ id, x.Removes id → ¬y.Removes id

theorem enrolled_bare (editAction : String) (w : W) : (bare editAction w).Enrolled where
  latest := ⟨[], _, rfl, rfl⟩
  rolled k m hm := by
    obtain rfl : k = 0 := by
      have hlt := (List.getElem?_eq_some_iff.1 hm).1
      exact Nat.lt_one_iff.1 hlt
    obtain rfl := Option.some.inj hm
    rfl
  resolver_lt r hr := nomatch hr
  waiting p hp := absurd hp List.not_mem_nil
  answered x hx := absurd hx List.not_mem_nil
  removed x hx := absurd hx List.not_mem_nil
  distinct := .nil
  once := .nil

namespace Enrolled

variable {ev : Event} {out : Output} {e : Engine} {w : W} {r : Registration} {x : Exchange}

/-- At present the registry is what the calls so far have made it. -/
theorem registry_eq (hs : s.Enrolled) : s.engine.registry = roll s.moments := by
  obtain ⟨past, last, hpast, hlast⟩ := hs.latest
  have hm : s.moments[past.length]? = some last := by simp [hpast]
  have hroll := hs.rolled past.length last hm
  rwa [hlast, List.take_of_length_le (by simp [hpast])] at hroll

/-- Ids that are registered have been handed out. -/
theorem id_lt (hs : s.Enrolled) (hr : r ∈ s.engine.registry.registrations) :
    r.id < s.engine.registry.nextId := by
  rw [hs.registry_eq] at hr ⊢
  obtain ⟨a, ha, rfl⟩ := List.mem_map.1 hr
  have hid := List.mem_map_of_mem (f := fun a : Addition ↦ a.registration.id)
    (List.mem_of_mem_filter ha)
  rw [map_id_additions] at hid
  exact List.mem_range.1 hid

/-- What an event makes of the registry is what it makes of the roll. -/
theorem registry_record (hs : s.Enrolled)
    (hrun : ρ.run (s.engine.step d ev) s.world = ((out, e), w)) :
    e.registry = roll (s.record ev out e w).moments ∧
      (∀ r, e.resolver = some r → r.id < e.registry.nextId) ∧
      s.engine.registry.nextId ≤ e.registry.nextId ∧
      ∀ r ∈ e.registry.registrations,
        r ∈ s.engine.registry.registrations ∨ r.id = s.engine.registry.nextId := by
  obtain ⟨past, last, hpast, hlast⟩ := hs.latest
  have hroll : last.engine.registry = roll s.moments := by rw [hlast, hs.registry_eq]
  rw [moments_record]
  cases hcall : ev.call? with
  | none =>
    have hsame := Engine.sameRoll_step (e := s.engine) ρ d hcall s.world
    rw [hrun] at hsame
    have hregistry : e.registry = s.engine.registry := hsame.registry
    refine ⟨?_, hsame.resolver_lt hs.resolver_lt, hregistry.symm ▸ Nat.le_refl _, fun r hr ↦ ?_⟩
    · rw [roll_append_of_not_call hpast rfl, hregistry, hs.registry_eq]
    · exact .inl (hregistry ▸ hr)
  | some c =>
    obtain rfl := Event.call?_eq_some_iff.1 hcall
    have he := Engine.enrolls_call (e := s.engine) ρ d hs.resolver_lt c s.world
    rw [Engine.step] at hrun
    rw [hrun] at he
    let now : Moment := ⟨some c, s.engine.reported? (.call c), e⟩
    have hnow : now.engine.registry = roll (s.moments ++ [now]) :=
      roll_append_of_enrolls hpast rfl (hlast.symm ▸ he) hroll
    refine ⟨hnow, he.resolver_lt, ?_, fun r hr ↦ ?_⟩
    · rw [he.nextId]
      exact Nat.le_add_right _ _
    · rw [he.registrations] at hr
      rcases List.mem_append.1 hr with hold | hnew
      · exact .inl (List.mem_of_mem_filter hold)
      · obtain ⟨s', -, rfl⟩ := Option.map_eq_some_iff.1 (Option.mem_toList.1 hnew)
        exact .inr rfl

/-- A call about registrations is answered at once. -/
theorem answered_of_enrolls {c : Call} (hc : c.enrolls = true) :
    ∃ a, (ρ.run (s.engine.call d c) s.world).1.1 = .answered a ∧
      (∀ key, c = .subscribe key → a = .subscribed s.engine.registry.nextId) ∧
      ∀ id, c = .unsubscribe id → a = .unsubscribed (s.engine.registry.has id) ∧
        (ρ.run (s.engine.call d c) s.world).1.2.registry = s.engine.registry.remove id := by
  cases c with
  | subscribe | unsubscribe | attachResolver =>
    rw [Engine.call, ρ.run_pure]
    exact ⟨_, rfl, by simp, by simp⟩
  | _ => cases hc

/-- The calls around the one that an event serves have waited before. -/
theorem waiting_of_cons (hs : s.Enrolled) {p : Call × Nat} {rest : List (Call × Nat)}
    (hwaiting : s.waiting ev = p :: rest) : ∀ p' ∈ rest, p'.1.enrolls = false := by
  intro p' hp'
  refine hs.waiting p' ?_
  cases ev with
  | call c =>
    obtain rfl : s.pending = rest := (List.cons.inj hwaiting).2
    exact hp'
  | _ =>
    have hpending : s.pending = p :: rest := hwaiting
    exact hpending ▸ List.mem_cons_of_mem p hp'

/-- What ends with an event is about registrations only if it has begun with it. -/
theorem eq_of_waiting (hs : s.Enrolled) {c : Call} {first : Nat} {rest : List (Call × Nat)}
    (hwaiting : s.waiting ev = (c, first) :: rest) (hc : c.enrolls = true) :
    ev = .call c ∧ first = s.moments.length := by
  cases ev with
  | call c' =>
    obtain ⟨rfl, rfl⟩ := Prod.mk.inj (List.cons.inj hwaiting).1
    exact ⟨rfl, rfl⟩
  | _ =>
    have hpending : s.pending = (c, first) :: rest := hwaiting
    cases (hs.waiting _ (hpending ▸ List.mem_cons_self)).symm.trans hc

/-- What an event answers about registrations. -/
theorem fresh (hs : s.Enrolled) (hrun : ρ.run (s.engine.step d ev) s.world = ((out, e), w))
    {c : Call} {first : Nat} {rest : List (Call × Nat)} {a : Answer}
    (hwaiting : s.waiting ev = (c, first) :: rest) (hout : out = .answered a) :
    let x : Exchange := ⟨c, first, s.moments.length, a⟩
    x.OnRoll (s.record ev out e w).moments ∧
      (∀ id, x.Adds id → id = s.engine.registry.nextId) ∧
      ∀ id, x.Removes id → (∃ r ∈ s.engine.registry.registrations, r.id = id) ∧
        ∀ r ∈ e.registry.registrations, r.id ≠ id := by
  intro x
  cases hc : c.enrolls with
  | false =>
    have hadds : ∀ id, ¬x.Adds id := by
      rintro id ⟨⟨key, rfl⟩, -⟩
      cases hc
    have hremoves : ∀ id, ¬x.Removes id := by
      rintro id ⟨rfl, -⟩
      cases hc
    refine ⟨?_, fun id h ↦ absurd h (hadds id), fun id h ↦ absurd h (hremoves id)⟩
    cases c with
    | subscribe | unsubscribe => cases hc
    | _ => trivial
  | true =>
    obtain ⟨rfl, rfl⟩ := hs.eq_of_waiting hwaiting hc
    obtain ⟨a', hanswered, hsubscribed, hunsubscribed⟩ :=
      answered_of_enrolls (s := s) (ρ := ρ) (d := d) hc
    rw [Engine.step] at hrun
    rw [hrun] at hanswered hunsubscribed
    obtain rfl : a = a' := Output.answered.inj (hout.symm.trans hanswered)
    refine ⟨?_, ?_, ?_⟩
    · cases c with
      | subscribe key =>
        refine ⟨_, hsubscribed key rfl, ?_⟩
        rw [moments_record, additions_append, hs.registry_eq]
        exact List.mem_append_right _ (List.mem_singleton_self _)
      | unsubscribe id =>
        obtain ⟨past, last, hpast, hlast⟩ := hs.latest
        have hm : s.moments[past.length]? = some last := by simp [hpast]
        have hfirst : s.moments.length = past.length + 1 := by simp [hpast]
        refine ⟨past.length, last, _, hfirst, ?_, (hunsubscribed id rfl).1, ?_⟩
        · rw [moments_record]
          exact getElem?_of_begin ⟨_, rfl⟩ hm
        · rw [hlast]
          simp [Registry.has]
      | _ => trivial
    · rintro id ⟨⟨key, rfl⟩, hid⟩
      exact Answer.subscribed.inj (hid.symm.trans (hsubscribed key rfl))
    · rintro id ⟨rfl, hfound⟩
      obtain ⟨hanswer, hregistry⟩ := hunsubscribed id rfl
      have hhas : s.engine.registry.has id = true :=
        (Answer.unsubscribed.inj (hfound.symm.trans hanswer)).symm
      refine ⟨by simpa [Registry.has] using hhas, fun r hr ↦ ?_⟩
      rw [show e.registry = s.engine.registry.remove id from hregistry] at hr
      simpa using (List.mem_filter.1 hr).2

/-- **One event.** -/
theorem record (hs : s.Enrolled) (hrun : ρ.run (s.engine.step d ev) s.world = ((out, e), w)) :
    (s.record ev out e w).Enrolled := by
  obtain ⟨hregistry, hresolver, hle, hmem⟩ := hs.registry_record hrun
  -- what has been removed does not come back, since ids are handed out once
  have hremoved : ∀ x ∈ s.exchanges, ∀ id, x.Removes id → id < e.registry.nextId ∧
      ∀ r ∈ e.registry.registrations, r.id ≠ id := by
    intro x hx id hid
    obtain ⟨hlt, hnone⟩ := hs.removed x hx id hid
    refine ⟨Nat.lt_of_lt_of_le hlt hle, fun r hr ↦ ?_⟩
    rcases hmem r hr with hold | hnew
    · exact hnone r hold
    · rw [hnew]
      exact Nat.ne_of_gt hlt
  have hanswered : ∀ x ∈ s.exchanges, x.OnRoll (s.record ev out e w).moments := by
    intro x hx
    rw [moments_record]
    exact (hs.answered x hx).append _
  have hrolled : Rolled (s.record ev out e w).moments := by
    rw [moments_record] at hregistry ⊢
    exact hs.rolled.append hregistry
  have hlatest : ∃ past last, (s.record ev out e w).moments = past ++ [last] ∧
      last.engine = (s.record ev out e w).engine :=
    ⟨s.moments, _, moments_record, engine_record.symm⟩
  rcases record_cases s ev out e w with ⟨hex, hpending, hnone⟩ |
    ⟨c, first, rest, a, hout, hwaiting, hex, hpending⟩
  · refine ⟨hlatest, hrolled, by rwa [engine_record], ?_, ?_, ?_, ?_, ?_⟩
    · rw [hpending]
      intro p hp
      rcases List.mem_append.1 hp with hnew | hold
      · obtain ⟨c, hcall, rfl⟩ := Option.map_eq_some_iff.1 (Option.mem_toList.1 hnew)
        cases hc : c.enrolls with
        | false => rfl
        | true =>
          obtain ⟨a, hout, -⟩ := answered_of_enrolls (s := s) (ρ := ρ) (d := d) hc
          obtain rfl := Event.call?_eq_some_iff.1 hcall
          rw [Engine.step] at hrun
          rw [hrun] at hout
          rw [hnone a hout] at hp
          cases hp
      · exact hs.waiting p hold
    all_goals rw [hex]
    · exact hanswered
    · rw [engine_record]
      exact hremoved
    · exact hs.distinct
    · exact hs.once
  · obtain ⟨hroll, hadds, hremoves⟩ := hs.fresh hrun hwaiting hout
    refine ⟨hlatest, hrolled, by rwa [engine_record], ?_, ?_, ?_, ?_, ?_⟩
    · rw [hpending]
      exact hs.waiting_of_cons hwaiting
    all_goals rw [hex]
    · exact List.forall_mem_append.2 ⟨hanswered, List.forall_mem_singleton.2 hroll⟩
    · rw [engine_record]
      refine List.forall_mem_append.2 ⟨hremoved, List.forall_mem_singleton.2 fun id hid ↦ ?_⟩
      obtain ⟨⟨r, hr, rfl⟩, hgone⟩ := hremoves id hid
      exact ⟨Nat.lt_of_lt_of_le (hs.id_lt hr) hle, hgone⟩
    · refine List.pairwise_append.2 ⟨hs.distinct, List.pairwise_singleton _ _, ?_⟩
      intro x hx y hy id hx' hy'
      obtain rfl := List.mem_singleton.1 hy
      have hlt := hx'.lt (hs.answered x hx)
      rw [hadds id hy', hs.registry_eq] at hlt
      exact Nat.lt_irrefl _ hlt
    · refine List.pairwise_append.2 ⟨hs.once, List.pairwise_singleton _ _, ?_⟩
      intro x hx y hy id hx' hy'
      obtain rfl := List.mem_singleton.1 hy
      obtain ⟨⟨r, hr, hid⟩, -⟩ := hremoves id hy'
      exact (hs.removed x hx id hx').2 r hr hid

end Enrolled

/-- **One move.** -/
theorem enrolled_move (hs : s.Enrolled) (mv : Move W) : (s.move ρ d mv).Enrolled := by
  cases mv with
  | outside edit =>
    obtain ⟨past, last, hpast, hlast⟩ := hs.latest
    have hnow : s.engine.registry = roll (s.moments ++ [{ engine := s.engine }]) := by
      rw [roll_append_of_not_call hpast rfl, hs.registry_eq]
    exact ⟨⟨s.moments, _, rfl, rfl⟩, hs.rolled.append hnow, hs.resolver_lt, hs.waiting,
      fun x hx ↦ (hs.answered x hx).append _, hs.removed, hs.distinct, hs.once⟩
  | event ev =>
    rcases hrun : ρ.run (s.engine.step d ev) s.world with ⟨⟨out, e⟩, w⟩
    have hmove : s.move ρ d (.event ev) = s.record ev out e w := by rw [move, hrun]
    rw [hmove]
    exact hs.record hrun

/-- Any number of moves keeps it so. -/
theorem enrolled_run (hs : s.Enrolled) (moves : List (Move W)) : (s.run ρ d moves).Enrolled := by
  induction moves generalizing s with
  | nil => exact hs
  | cons mv moves ih => exact ih (enrolled_move hs mv)

end Session

end LayeredRights
