import LayeredRights.Proofs.Delivery.Installing

/-!
# Which changes are announced

Two readers, one after the other, are answered with different snapshots. Then the later one has come
to be resident in between, and there are two ways for that (`Chronicle.change_of_reads`). If an
update or a reload has installed it, every listener that was there all the time has been told of it.
But an update or a reload whose load fails leaves nothing resident, and a reader who comes when the
documents load again installs the snapshot by itself. Of that one nobody is ever told.

So a listener that keeps something built from what it was told last is left with outdated data by
the second, and by nothing else.

The two readers are the only events that the statement fixes. What happens before the first and
between the two is arbitrary, listeners that call back and edits of the files included. That the
listener is registered and alive is asked of every moment between the readers, and nothing is asked
of what it does with what it is told.
-/

namespace LayeredRights

/-! ### Two readers -/

namespace Chronicle

variable {m : Type → Type} [Monad m] {W : Type} {ρ : Runner m W} {d : Documents m} {b : Chronicle W}
  {S : Snapshot}

/-- A reader who comes next is answered with the snapshot, at once. -/
def Reads (ρ : Runner m W) (d : Documents m) (b : Chronicle W) (S : Snapshot) : Prop :=
  ⟨.current, b.session.moments.length, b.session.moments.length, .snapshot (.ok S)⟩ ∈
    (b.move ρ d (.event (.call .current))).session.exchanges

/-- How a snapshot has come to be resident after moment `n` and before moment `n'` is over, and
whether the listener of a key has been told of it meanwhile. -/
inductive Change (b : Chronicle W) (key n n' : Nat) (S : Snapshot) : Prop
  /-- An update or a reload has installed it, and the listener has been told for its sake. -/
  | announced (first : Nat) (t : Telling) (hlt : n < first)
      (hinstalled : InstalledAt b.session.moments first S)
      (hrenewed : RenewedAt b.session.moments first) (ht : t ∈ b.tellings)
      (hmoment : first ≤ t.moment ∧ t.moment < n')
      (htold : t.first = first ∧ t.key = key ∧ t.snapshot = S)
  /-- The load of an update or a reload at moment `j` has failed, and a reader has installed the
  snapshot later. Nobody has been told of it. -/
  | unannounced (j first : Nat) (now : Moment) (hlt : n < j ∧ j < first ∧ first ≤ n')
      (hrenewed : RenewedAt b.session.moments j) (hnow : b.session.moments[j]? = some now)
      (hnone : now.engine.store.resident = none)
      (hinstalled : InstalledAt b.session.moments first S)
      (hreader : ¬RenewedAt b.session.moments first)
      (hnobody : ∀ t ∈ b.tellings, t.snapshot ≠ S)

/-- What a reader is answered with is resident then. The answer leaves the frames as they were. -/
theorem resident_of_reads (hk : b.Kept ρ d) (hread : b.Reads ρ d S) :
    ∃ now, (b.move ρ d (.event (.call .current))).session.moments = b.session.moments ++ [now] ∧
      now.engine.store.resident = some S ∧
      (b.move ρ d (.event (.call .current))).session.engine.frames = b.session.engine.frames := by
  rcases hperform : ρ.perform (Store.current d) b.session.engine.store b.session.world
    with ⟨r, s, w'⟩
  have hrun : ρ.run (b.session.engine.step d (.call .current)) b.session.world =
      ((.answered (.snapshot r), { b.session.engine with store := s }), w') := by
    rw [Engine.step, Engine.call, ρ.run_bind, ρ.run_withStore, hperform, ρ.run_pure]
  rw [Reads] at hread
  rw [move, hrun] at hread ⊢
  simp only [record] at hread ⊢
  rw [Session.record_of_answered rfl] at hread ⊢
  rcases List.mem_append.1 hread with hold | hnew
  · -- no exchange before has an answer of this moment
    obtain ⟨-, hlast, -⟩ := hk.sound.cacheFree _ hold
    exact absurd hlast (Nat.lt_irrefl _)
  · obtain rfl : r = .ok S := by simpa using (List.mem_singleton.1 hnew).symm
    exact ⟨_, rfl, (ρ.steps_current d hperform).2 S rfl, rfl⟩

/-- **A change between two readers** has been announced to whoever was there all the time, or a
reader has installed the later snapshot. No call is in progress when the second reader comes. -/
theorem change_of_reads (ρ : Runner m W) (d : Documents m) (editAction : String) (w : W)
    (before between : List (Move W)) {S₁ S₂ : Snapshot} {r : Registration} {key : Nat}
    (hsub : r.subscriber = .listener key) :
    let b₁ := (fresh editAction w).run ρ d before
    let b₂ := (b₁.move ρ d (.event (.call .current))).run ρ d between
    let b := b₂.move ρ d (.event (.call .current))
    b₁.Reads ρ d S₁ → b₂.Reads ρ d S₂ → S₁ ≠ S₂ → b₂.session.engine.frames = [] →
      b.session.NeverAnnounces →
      (∀ m ∈ b.session.moments.drop b₁.session.moments.length,
        r ∈ m.engine.registry.registrations ∧ m.engine.isAlive r = true) →
      b.Change key b₁.session.moments.length b₂.session.moments.length S₂ := by
  intro b₁ b₂ b hread₁ hread₂ hne hidle hnever hfrom
  have hk₁ : b₁.Kept ρ d := kept_run (kept_fresh editAction w) before
  have hk₂ : b₂.Kept ρ d := kept_run (kept_move hk₁ _) between
  have hk : b.Kept ρ d := kept_move hk₂ _
  have hb : b.Steady :=
    steady_move (steady_run (steady_move (steady_run (steady_fresh editAction w) before) _)
      between) _
  obtain ⟨m₁, hmoments₁, hS₁, -⟩ := resident_of_reads hk₁ hread₁
  obtain ⟨m₂, hmoments₂, hS₂, hframes⟩ := resident_of_reads hk₂ hread₂
  have hthere : ∀ (k : Nat) (m : Moment), b₁.session.moments.length ≤ k →
      b.session.moments[k]? = some m →
        r ∈ m.engine.registry.registrations ∧ m.engine.isAlive r = true :=
    fun k m hk hm ↦ hfrom m (mem_drop_of_getElem? hk hm)
  -- the moments of the two answers
  have hlate : (b₁.move ρ d (.event (.call .current))).session.moments <+: b.session.moments :=
    (begins_run _ between).2.trans (b₂.moments_move _)
  have hm₁ : b.session.moments[b₁.session.moments.length]? = some m₁ :=
    getElem?_of_begin hlate (by rw [hmoments₁]; exact List.getElem?_concat_length)
  have hm₂ : b.session.moments[b₂.session.moments.length]? = some m₂ := by
    rw [show b.session.moments = _ from hmoments₂]
    exact List.getElem?_concat_length
  have hle : b₁.session.moments.length ≤ b₂.session.moments.length := by
    have hlength := (begins_run (ρ := ρ) (d := d) (b₁.move ρ d (.event (.call .current)))
      between).2.length_le
    rw [hmoments₁, List.length_append] at hlength
    exact Nat.le_of_succ_le hlength
  have hnot : m₁.engine.store.resident ≠ some S₂ := by
    rw [hS₁]
    exact fun h ↦ hne (Option.some.inj h)
  obtain ⟨first, hlt, hle', hinstalled⟩ := exists_installedAt hle hm₁ hm₂ hnot hS₂
  by_cases hrenewed : RenewedAt b.session.moments first
  · have hlength : b.session.moments.length = b₂.session.moments.length + 1 := by
      rw [show b.session.moments = _ from hmoments₂, List.length_append]
      rfl
    obtain ⟨t, ht, hfirst, hafter, hbefore, hkey, hsnapshot⟩ :=
      hk.exists_telling_of_installedAt hb (hframes.trans hidle) hinstalled hrenewed hsub
        (fun m hm ↦ (hthere _ m (by omega) hm).1) (fun j m hj hm ↦ (hthere j m (by omega) hm).2)
    exact .announced first t hlt hinstalled hrenewed ht ⟨hafter, by omega⟩ ⟨hfirst, hkey, hsnapshot⟩
  · obtain ⟨k, mk, rfl, hmk, hnone⟩ := hb.linked.resident_of_not_renewedAt hinstalled hrenewed
    obtain ⟨j, mj, hgt, hj, hrenewed', hmj, hnone'⟩ :=
      hb.linked.exists_emptied (Nat.le_of_lt_succ hlt) hm₁ hmk (by rw [hS₁]; simp) hnone
    refine .unannounced j (k + 1) mj ⟨hgt, Nat.lt_succ_of_le hj, hle'⟩ hrenewed' hmj hnone'
      hinstalled hrenewed fun t ht hsnapshot ↦ ?_
    -- who is told of it is told for the sake of an update or a reload that installs it again
    obtain ⟨hagain, hrenewed''⟩ := hk.installedAt_of_mem_tellings hb hnever ht
    rw [hsnapshot] at hagain
    exact hrenewed (hb.linked.unique hinstalled hagain ▸ hrenewed'')

/-- The office is read from when a listener has been registered, something happens, and it is read
from again. -/
def readTwice (between : List (Move MemoryDocuments)) : Chronicle MemoryDocuments :=
  let b := (fresh "edit" Session.office).run (.stateful _) MemoryDocuments.documents
    [.event (.call (.subscribe 0))]
  ((b.move (.stateful _) MemoryDocuments.documents (.event (.call .current))).run (.stateful _)
    MemoryDocuments.documents between).move (.stateful _) MemoryDocuments.documents
      (.event (.call .current))

/-- The base document is replaced and read anew. -/
def replacing : List (Move MemoryDocuments) :=
  [.outside fun w ↦ { w with base := { w.base with profiles := [] } }, .event (.call .reload),
    .event (.told .accepted)]

/-- An edit that makes ann a clerk. -/
def hiring : Configuration :=
  { Session.office.base.alone with
    userProfiles := [{ login := "ann", profiles := ["clerk"], origin := .modification }] }

/-- The override cannot be read when an update has written it, and can be read later. -/
def mending : List (Move MemoryDocuments) :=
  [.outside fun w ↦ { w with failing := [.loadOverride] }, .event (.call (.update hiring)),
    .outside fun w ↦ { w with failing := [] }]

/-- The listener is told of the replacement, and never learns that ann has become a clerk. -/
theorem change_of_reads_office :
    ((readTwice replacing).Change 0 2 6 ⟨1, { Session.office.base.alone with profiles := [] }⟩ ∧
      ∃ t, (readTwice replacing).tellings = [t]) ∧
    (readTwice mending).Change 0 2 6
        ⟨1, Session.office.base.overlaid hiring.modifications⟩ ∧
      (readTwice mending).tellings = [] := by
  have hsub : (⟨1, .listener 0⟩ : Registration).subscriber = .listener 0 := rfl
  have hread : ((fresh "edit" Session.office).run (.stateful _) MemoryDocuments.documents
      [.event (.call (.subscribe 0))]).Reads (.stateful _) MemoryDocuments.documents
        ⟨0, Session.office.base.alone⟩ :=
    List.mem_of_getElem? (i := 1) rfl
  refine ⟨⟨?_, _, rfl⟩, ?_, rfl⟩
  · have hcalls : (readTwice replacing).session.moments.map (·.call) =
        [none, some (.subscribe 0), some .current, none, some .reload, none, some .current] := rfl
    refine change_of_reads (.stateful _) MemoryDocuments.documents "edit" Session.office
      [.event (.call (.subscribe 0))] replacing hsub hread (List.mem_of_getElem? (i := 3) rfl)
      (by decide) rfl ?_ (by decide)
    intro S hS
    exact absurd (hcalls ▸ hS) (by simp)
  · have hcalls : (readTwice mending).session.moments.map (·.call) =
        [none, some (.subscribe 0), some .current, none, some (.update hiring), none,
          some .current] := rfl
    refine change_of_reads (.stateful _) MemoryDocuments.documents "edit" Session.office
      [.event (.call (.subscribe 0))] mending hsub hread (List.mem_of_getElem? (i := 3) rfl)
      (by decide) rfl ?_ (by decide)
    intro S hS
    exact absurd (hcalls ▸ hS) (by simp)

end Chronicle

end LayeredRights
