import LayeredRights.Proofs.Delivery.Commits
import LayeredRights.Proofs.Delivery.Residence

/-!
# Who is told of what was installed

Who is told of a snapshot is told for the sake of the update or reload that installed it, unless the
delivery was called for by itself (`Kept.installedAt_of_mem_tellings`), and whoever is there from
before that call until it is answered is told (`Kept.exists_telling_of_installedAt`).

The moments of a chronicle tell what is resident at each of them, and its states tell what each call
has come to. Both are about the same engines (`Chronicle.Steady`), so what a call has loaded is what
came to be resident when it was made.

Both directions are needed later. That whatever is told has been installed by the call it is told
for is how nothing is made up, and that whoever stays is told of whatever is installed is how
nothing is missed. The second has a condition on time: a delivery may still be under way, so it is
said of sessions in which no call is in progress.
-/

namespace LayeredRights

/-! ### Chronicles -/

namespace Chronicle

variable {m : Type → Type} [Monad m] {W : Type} {ρ : Runner m W} {d : Documents m} {b : Chronicle W}

/-- The moments of a chronicle are linked, and are those of its states. -/
structure Steady (b : Chronicle W) : Prop where
  latest : ∃ past last, b.session.moments = past ++ [last] ∧ last.engine = b.session.engine
  engines : b.states.map (·.1) = b.session.moments.map (·.engine)
  linked : Linked b.session.moments

theorem steady_fresh (editAction : String) (w : W) : (fresh editAction w).Steady where
  latest := ⟨[], _, rfl, rfl⟩
  engines := rfl
  linked := by
    refine ⟨.singleton _, fun m hm S hS ↦ ?_⟩
    obtain rfl := List.mem_singleton.1 hm
    exact nomatch hS

/-- A move adds one moment and one state of the same engine. -/
theorem steady_move (hb : b.Steady) (mv : Move W) : (b.move ρ d mv).Steady := by
  obtain ⟨past, last, hpast, hlast⟩ := hb.latest
  have hlinked : Linked (past ++ [last]) := hpast ▸ hb.linked
  -- one more moment, whose engine is that of the state that the move leaves
  obtain ⟨now, hmoments, hengine, hbecomes⟩ : ∃ now : Moment,
      (b.move ρ d mv).session.moments = b.session.moments ++ [now] ∧
        now.engine = (b.move ρ d mv).session.engine ∧
          last.engine.store.Becomes now.call now.engine.store := by
    cases mv with
    | outside edit => exact ⟨_, rfl, rfl, .kept (by rw [hlast]) (by rw [hlast])⟩
    | event ev =>
      have hbecomes := Engine.becomes_step (ρ := ρ) (d := d) (e := b.session.engine) ev
        b.session.world
      rcases hrun : ρ.run (b.session.engine.step d ev) b.session.world with ⟨⟨out, e⟩, w⟩
      rw [hrun] at hbecomes
      rw [move, hrun]
      exact ⟨_, Session.moments_record, Session.engine_record.symm, hlast ▸ hbecomes⟩
  refine ⟨⟨b.session.moments, now, hmoments, hengine⟩, ?_, ?_⟩
  · rw [states_move, hmoments, List.map_append, List.map_append, hb.engines, List.map_singleton,
      List.map_singleton, hengine]
  · rw [hmoments, hpast]
    exact hlinked.append hbecomes

/-- Any number of moves keeps them in step. -/
theorem steady_run (hb : b.Steady) (moves : List (Move W)) : (b.run ρ d moves).Steady := by
  induction moves generalizing b with
  | nil => exact hb
  | cons mv moves ih => exact ih (steady_move hb mv)

namespace Steady

variable {first : Nat} {e e' : Engine} {w w' : W} {S : Snapshot}

theorem getElem?_moments (hb : b.Steady) {k : Nat} (hk : b.states[k]? = some (e, w)) :
    ∃ m, b.session.moments[k]? = some m ∧ m.engine = e := by
  have hengine : (b.session.moments.map (·.engine))[k]? = some e := by
    rw [← hb.engines, List.getElem?_map, hk]
    rfl
  rw [List.getElem?_map, Option.map_eq_some_iff] at hengine
  exact hengine

/-- The moments before and after a call. -/
theorem exists_moments (hb : b.Steady) (hat : b.Around first e w e' w') :
    ∃ k m m', first = k + 1 ∧ b.session.moments[k]? = some m ∧ m.engine = e ∧
      b.session.moments[first]? = some m' ∧ m'.engine = e' := by
  obtain ⟨k, hk, hbefore, hafter⟩ := hat
  obtain ⟨m, hm, he⟩ := hb.getElem?_moments hbefore
  obtain ⟨m', hm', he'⟩ := hb.getElem?_moments hafter
  exact ⟨k, m, m', hk, hm, he, hm', he'⟩

/-- What is installed at a moment is resident in the state after it, and not in the one before. -/
theorem resident_of_installedAt (hb : b.Steady) (hat : b.Around first e w e' w')
    (hS : InstalledAt b.session.moments first S) :
    e.store.resident ≠ some S ∧ e'.store.resident = some S := by
  obtain ⟨k, m, m', rfl, hm, rfl, hm', rfl⟩ := hb.exists_moments hat
  obtain ⟨k₁, m₁, m₁', hk₁, hm₁, hm₁', hne, hres⟩ := hS
  obtain rfl : k = k₁ := Nat.succ.inj hk₁
  obtain rfl : m = m₁ := Option.some.inj (hm.symm.trans hm₁)
  obtain rfl : m' = m₁' := Option.some.inj (hm'.symm.trans hm₁')
  exact ⟨hne, hres⟩

/-- A call that begins a round with what it loaded has installed it. -/
theorem installedAt_of_begins (hb : b.Steady) {c : Call} {occasion : Occasion}
    (hat : b.Around first e w e' w') (hbegins : Begins ρ d e w e' w' c occasion S)
    (hc : ∀ T, c ≠ .announce T) : InstalledAt b.session.moments first S ∧ c.renews = true := by
  obtain ⟨k, m, m', rfl, hm, rfl, hm', rfl⟩ := hb.exists_moments hat
  have hne : ∀ c : Configuration, m.engine.store.resident ≠ some ⟨m.engine.store.loads, c⟩ := by
    intro c hres
    exact absurd (hb.linked.serial_lt m (List.mem_of_getElem? hm) _ hres) (Nat.lt_irrefl _)
  cases hbegins with
  | updated hcommit =>
    cases hcommit with
    | loaded hsaves hload hresident =>
      exact ⟨⟨k, m, m', rfl, hm, hm', hne _, hresident⟩, rfl⟩
  | reloaded hreload =>
    cases hreload with
    | loaded hload hresident => exact ⟨⟨k, m, m', rfl, hm, hm', hne _, hresident⟩, rfl⟩
  | announced => exact absurd rfl (hc S)

end Steady

end Chronicle

/-! ### Who is told of what -/

theorem Call.announces_of_renews {c : Call} (h : c.renews = true) : c.announces = true := by
  cases c with
  | update | reload => rfl
  | _ => exact nomatch h

namespace Turns

variable {h : List Moment} {k k' : Nat} {rs rs' : List Registration} {ts : List (Nat × Nat)}

theorem le (ht : Turns h k rs ts k' rs') : k ≤ k' := by
  induction ht with
  | stay k rs => exact Nat.le_refl k
  | gone _ _ _ ih => exact ih
  | resolved _ _ _ _ _ ih => exact ih
  | told _ _ _ hlt _ ih => exact Nat.le_of_lt (Nat.lt_of_lt_of_le hlt ih)

/-- A listener whose turn is over, and who has been alive all the time, has been told. -/
theorem exists_told (ht : Turns h k rs ts k' rs') {r : Registration} {key : Nat} (hr : r ∈ rs)
    (hover : r ∉ rs') (hsub : r.subscriber = .listener key)
    (halive : ∀ (j : Nat) (m : Moment), k ≤ j → h[j]? = some m → m.engine.isAlive r = true) :
    ∃ j, k ≤ j ∧ j < k' ∧ (j, key) ∈ ts := by
  induction ht with
  | stay k rs => exact absurd hr hover
  | @gone k _ r' _ _ _ m hm hgone _ ih =>
    rcases List.mem_cons.1 hr with rfl | hr
    · exact absurd (hgone.symm.trans (halive k m (Nat.le_refl k) hm)) Bool.false_ne_true
    · exact ih hr hover halive
  | resolved hm halive' hsub' _ _ ih =>
    rcases List.mem_cons.1 hr with rfl | hr
    · exact nomatch hsub.symm.trans hsub'
    · exact ih hr hover halive
  | @told k k₁ k' key' r' _ _ _ m hm halive' hsub' hlt next ih =>
    rcases List.mem_cons.1 hr with rfl | hr
    · obtain rfl : key = key' := Subscriber.listener.inj (hsub.symm.trans hsub')
      exact ⟨k, Nat.le_refl k, Nat.lt_of_lt_of_le hlt next.le, List.mem_cons_self⟩
    · obtain ⟨j, hj, hj', hmem⟩ := ih hr hover fun j m hj ↦ halive j m (by omega)
      exact ⟨j, by omega, hj', List.mem_cons_of_mem _ hmem⟩

end Turns

section Told

variable {m : Type → Type} [Monad m] {W : Type} {ρ : Runner m W} {d : Documents m}
  {b : Chronicle W} {t : Telling}

theorem snapshot_of_mem_map_tellingOf {first : Nat} {S : Snapshot} {told : List (Nat × Nat)}
    (h : t ∈ told.map (tellingOf first S)) : t.snapshot = S := by
  obtain ⟨p, -, rfl⟩ := List.mem_map.1 h
  rfl

/-- What has been told for the sake of a call that has been answered. -/
theorem Announced.exists_begins {x : Exchange} (h : Announced ρ d b x)
    (ht : t ∈ tellingsFor b.tellings x.first) : ∃ occasion e w e' w',
      b.Around x.first e w e' w' ∧ Begins ρ d e w e' w' x.call occasion t.snapshot := by
  have hround : ∀ {first last : Nat} {S : Snapshot} {rs : List Registration},
      b.Delivered first last S rs → t ∈ tellingsFor b.tellings first → t.snapshot = S := by
    rintro first last S rs ⟨told, -, htold⟩ ht
    exact snapshot_of_mem_map_tellingOf (htold ▸ ht)
  cases h with
  | silent hc hnone => exact absurd (hnone ▸ ht) List.not_mem_nil
  | updateFailed hat hcommit hnone => exact absurd (hnone ▸ ht) List.not_mem_nil
  | updateUnloaded hat hcommit hnone => exact absurd (hnone ▸ ht) List.not_mem_nil
  | reloadFailed hat hreload hnone => exact absurd (hnone ▸ ht) List.not_mem_nil
  | updated hat hcommit hdelivered =>
    obtain rfl := hround hdelivered ht
    exact ⟨_, _, _, _, _, hat, .updated hcommit⟩
  | reloaded hat hreload hdelivered =>
    obtain rfl := hround hdelivered ht
    exact ⟨_, _, _, _, _, hat, .reloaded hreload⟩
  | announced hat hdelivered =>
    obtain rfl := hround hdelivered ht
    exact ⟨_, _, _, _, _, hat, .announced⟩

/-- No delivery has been called for by itself. -/
def Session.NeverAnnounces (s : Session W) : Prop :=
  ∀ S, some (.announce S) ∉ s.moments.map (·.call)

namespace Chronicle.Kept

/-- **Whoever is told of a snapshot** is told for the sake of a call that begins a round with it. -/
theorem exists_begins (hk : b.Kept ρ d) (ht : t ∈ b.tellings) : ∃ c occasion e w e' w',
    (c, t.first) ∈ b.session.calls ∧ b.Around t.first e w e' w' ∧
      Begins ρ d e w e' w' c occasion t.snapshot := by
  have hmem : t ∈ tellingsFor b.tellings t.first := List.mem_filter.2 ⟨ht, by simp⟩
  obtain ⟨⟨c, first⟩, hcall, hfirst⟩ := List.mem_map.1 (hk.accounted t ht)
  obtain rfl : first = t.first := hfirst
  rcases List.mem_append.1 hcall with hpending | hexchange
  · obtain ⟨f, hdue⟩ := hk.exists_due hpending
    cases hdue with
    | silent hf hc hnone => exact absurd (hnone ▸ hmem) List.not_mem_nil
    | telling hat hbegins hturns htold hnow halive hsub =>
      obtain hS := snapshot_of_mem_map_tellingOf (htold ▸ hmem)
      exact ⟨c, _, _, _, _, _, hcall, hat, hS ▸ hbegins⟩
  · obtain ⟨x, hx, heq⟩ := List.mem_map.1 hexchange
    obtain ⟨rfl, hfirst⟩ := Prod.mk.inj heq
    obtain ⟨occasion, e, w, e', w', hat, hbegins⟩ :=
      (hk.announced x hx).exists_begins (hfirst ▸ hmem)
    exact ⟨x.call, occasion, e, w, e', w', hcall, hfirst ▸ hat, hbegins⟩

variable {first : Nat} {S : Snapshot}

/-- Unless deliveries are called for by themselves, listeners are told of what has been installed
by an update or a reload, for its sake. -/
theorem installedAt_of_mem_tellings (hk : b.Kept ρ d) (hb : b.Steady)
    (hnever : b.session.NeverAnnounces) (ht : t ∈ b.tellings) :
    InstalledAt b.session.moments t.first t.snapshot ∧ RenewedAt b.session.moments t.first := by
  obtain ⟨c, occasion, e, w, e', w', hcall, hat, hbegins⟩ := hk.exists_begins ht
  obtain ⟨m, hm, hc⟩ := (hk.calls c t.first).1 hcall
  have hother : ∀ T, c ≠ .announce T := by
    rintro T rfl
    exact hnever T (List.mem_map.2 ⟨m, List.mem_of_getElem? hm, hc⟩)
  obtain ⟨hinstalled, hrenews⟩ := hb.installedAt_of_begins hat hbegins hother
  exact ⟨hinstalled, m, c, hm, hc, hrenews⟩

/-- What an update or a reload has installed has been delivered when no call is in progress. -/
theorem delivered_of_installedAt (hk : b.Kept ρ d) (hb : b.Steady)
    (hidle : b.session.engine.frames = []) (hS : InstalledAt b.session.moments first S)
    (hrenewed : RenewedAt b.session.moments first) : ∃ last e w e' w',
      b.Around first e w e' w' ∧ last < b.session.moments.length ∧
        b.Delivered first last S e.audience := by
  obtain ⟨m, c, hm, hc, hrenews⟩ := hrenewed
  have hpending : b.session.pending = [] := by
    have hdue := hk.due
    rw [hidle] at hdue
    exact List.forall₂_nil_left_iff.1 hdue
  have hcall : (c, first) ∈ b.session.calls := (hk.calls c first).2 ⟨m, hm, hc⟩
  rw [Session.calls, hpending, List.nil_append] at hcall
  obtain ⟨x, hx, heq⟩ := List.mem_map.1 hcall
  obtain ⟨rfl, rfl⟩ := Prod.mk.inj heq
  obtain ⟨-, hlast, -⟩ := hk.sound.cacheFree x hx
  cases hk.announced x hx with
  | silent hsilent => cases hsilent.symm.trans (Call.announces_of_renews hrenews)
  | updateFailed hat hcommit =>
    obtain ⟨hne, hres⟩ := hb.resident_of_installedAt hat hS
    cases hcommit with
    | failed hsaves hresident => exact absurd (hresident.symm.trans hres) hne
  | updateUnloaded hat hcommit =>
    obtain ⟨-, hres⟩ := hb.resident_of_installedAt hat hS
    cases hcommit with
    | unloaded hsaves hload hresident => cases hresident.symm.trans hres
  | reloadFailed hat hreload =>
    obtain ⟨-, hres⟩ := hb.resident_of_installedAt hat hS
    cases hreload with
    | failed hload hresident => cases hresident.symm.trans hres
  | updated hat hcommit hround =>
    obtain ⟨-, hres⟩ := hb.resident_of_installedAt hat hS
    cases hcommit with
    | loaded hsaves hload hresident =>
      obtain rfl := Option.some.inj (hresident.symm.trans hres)
      exact ⟨_, _, _, _, _, hat, hlast, hround⟩
  | reloaded hat hreload hround =>
    obtain ⟨-, hres⟩ := hb.resident_of_installedAt hat hS
    cases hreload with
    | loaded hload hresident =>
      obtain rfl := Option.some.inj (hresident.symm.trans hres)
      exact ⟨_, _, _, _, _, hat, hlast, hround⟩
  | announced => cases hrenews

/-- **Whoever is there before an update or a reload**, and stays alive, has been told of what it
installed when no call is in progress. -/
theorem exists_telling_of_installedAt (hk : b.Kept ρ d) (hb : b.Steady)
    (hidle : b.session.engine.frames = []) (hS : InstalledAt b.session.moments first S)
    (hrenewed : RenewedAt b.session.moments first) {r : Registration} {key : Nat}
    (hsub : r.subscriber = .listener key)
    (hregistered : ∀ m, b.session.moments[first - 1]? = some m →
      r ∈ m.engine.registry.registrations)
    (halive : ∀ (j : Nat) (m : Moment), first ≤ j + 1 → b.session.moments[j]? = some m →
      m.engine.isAlive r = true) :
    ∃ t ∈ b.tellings, t.first = first ∧ first ≤ t.moment ∧
      t.moment + 1 < b.session.moments.length ∧ t.key = key ∧ t.snapshot = S := by
  obtain ⟨last, e, w, e', w', hat, hlast, told, hturns, htold⟩ :=
    hk.delivered_of_installedAt hb hidle hS hrenewed
  obtain ⟨k, m, m', rfl, hm, rfl, -, -⟩ := hb.exists_moments hat
  have hr : r ∈ m.engine.audience :=
    List.mem_filter.2 ⟨hregistered m hm, halive k m (Nat.le_refl _) hm⟩
  obtain ⟨j, hj, hj', hmem⟩ := hturns.exists_told hr List.not_mem_nil hsub
    fun j m hj hm ↦ halive j m (by omega) hm
  have ht : tellingOf (k + 1) S (j, key) ∈ tellingsFor b.tellings (k + 1) :=
    htold ▸ List.mem_map_of_mem hmem
  exact ⟨_, (List.mem_filter.1 ht).1, rfl, hj, by simp only [tellingOf]; omega, rfl, rfl⟩

end Chronicle.Kept

end Told

end LayeredRights
