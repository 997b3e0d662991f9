import LayeredRights.File.Tree
import LayeredRights.Rights.Store

/-!
# Running the operations of a store

The operations of a store are programs in the monad in which its documents live, and nothing is
known of that monad but how its programs act on the states of some world. This is what a `Runner`
records: `pure` leaves the world alone, and a composite runs its parts one after the other. No law
of monads is asked for beyond these two.

An arbitrary world makes for arbitrary documents. Each operation on them may succeed or fail
depending on anything at all, on how often it was tried before for instance, and whatever changes
the documents from outside is a function on the world.

`Runner.perform` is the view of an operation that everything about stores is stated in: what it
answers, the store it leaves, and the world it leaves. It takes the three layers of `StoreM` apart
once and for all, so no proof about an operation mentions them again.

The instances are the file system in memory, programs on a state, and programs with a state of their
own beside another world. Results that hold for every runner hold for documents in files, in memory,
and behind a script that makes some steps fail.
-/

namespace LayeredRights

/-- A way to run the programs of a monad on the states of a world. -/
structure Runner (m : Type → Type) [Monad m] (W : Type) where
  /-- What a program gives from a state of the world, and the state it leaves. -/
  run : ∀ {α : Type}, m α → W → α × W
  run_pure : ∀ {α : Type} (a : α) (w : W), run (pure a) w = (a, w)
  run_bind : ∀ {α β : Type} (x : m α) (f : α → m β) (w : W),
    run (x >>= f) w = run (f (run x w).1) (run x w).2

namespace Runner

attribute [simp] run_pure run_bind

/-! ### Worlds -/

/-- Running a composite job is running its parts in turn. -/
theorem tree_run_bind {α β : Type} (t : FileTree) (x : FileJob α) (f : α → FileJob β) :
    t.run (x >>= f) = (t.run x).2.run (f (t.run x).1) := by
  show t.run (x.andThen f) = _
  induction x generalizing t with
  | done a => rfl
  | probe p next ih => exact ih _ t
  | read p next ih => exact ih _ t
  | change c next ih => exact ih _ _

/-- Jobs run on the file system in memory. -/
def tree : Runner FileJob FileTree where
  run job t := t.run job
  run_pure _ _ := rfl
  run_bind x f t := tree_run_bind t x f

/-- Programs whose only effects are on a state run on that state. -/
def stateful (σ : Type) : Runner (StateM σ) σ where
  run x w := x w
  run_pure _ _ := rfl
  run_bind _ _ _ := rfl

/-- Programs with a state of their own run on worlds with that state beside them. -/
def beside {m : Type → Type} [Monad m] {W : Type} (ρ : Runner m W) (σ : Type) :
    Runner (StateT σ m) (W × σ) where
  run x w :=
    match ρ.run (x w.2) w.1 with
    | ((a, s), w') => (a, w', s)
  run_pure a w := by
    rw [show (pure a : StateT σ m _) w.2 = pure (a, w.2) from rfl, ρ.run_pure]
  run_bind x f w := by
    rw [show (x >>= f) w.2 = x w.2 >>= fun p ↦ f p.1 p.2 from rfl, ρ.run_bind]

/-! ### Operations of a store -/

variable {m : Type → Type} [Monad m] {W : Type} {α β : Type}

/-- What an operation of a store answers, and the store and the world it leaves. -/
def perform (ρ : Runner m W) (op : StoreM m α) (s : Store) (w : W) :
    Except RightsError α × Store × W :=
  match ρ.run (op.run.run s) w with
  | ((r, s'), w') => (r, s', w')

variable (ρ : Runner m W)

@[simp] theorem perform_pure (a : α) (s : Store) (w : W) :
    ρ.perform (pure a) s w = (.ok a, s, w) := by
  have hrun : ρ.run ((pure a : StoreM m α).run.run s) w = ((.ok a, s), w) := ρ.run_pure _ w
  rw [perform, hrun]

/-- Failing changes neither the store nor the world either: what was done before is not undone. -/
@[simp] theorem perform_throw (e : RightsError) (s : Store) (w : W) :
    ρ.perform (throw e : StoreM m α) s w = (.error e, s, w) := by
  have hrun : ρ.run ((throw e : StoreM m α).run.run s) w = ((.error e, s), w) := ρ.run_pure _ w
  rw [perform, hrun]

/-- Leaving a block early is answering with what is left with. -/
@[simp] theorem perform_return (a : α) (s : Store) (w : W) :
    ρ.perform (EarlyReturnT.return a : EarlyReturnT α (StoreM m) β) s w =
      (.ok (.error a), s, w) :=
  ρ.perform_pure (Except.error a : Except α β) s w

/-- Nothing of a composite is performed after an error. -/
theorem perform_bind (x : StoreM m α) (f : α → StoreM m β) (s : Store) (w : W) :
    ρ.perform (x >>= f) s w =
      match ρ.perform x s w with
      | (.ok a, s', w') => ρ.perform (f a) s' w'
      | (.error e, s', w') => (.error e, s', w') := by
  have hrun := ρ.run_bind (x.run.run s) (fun p ↦ ExceptT.bindCont f p.1 p.2) w
  rw [perform, show (x >>= f).run.run s = x.run.run s >>= fun p ↦ ExceptT.bindCont f p.1 p.2
    from rfl, hrun, perform]
  rcases ρ.run (x.run.run s) w with ⟨⟨_ | a, s'⟩, w'⟩
  · rw [show ExceptT.bindCont f (.error _) s' = pure (.error _, s') from rfl, ρ.run_pure]
  · rfl

/-- Only an error is handled. -/
theorem perform_tryCatch (x : StoreM m α) (f : RightsError → StoreM m α) (s : Store) (w : W) :
    ρ.perform (tryCatch x f) s w =
      match ρ.perform x s w with
      | (.ok a, s', w') => (.ok a, s', w')
      | (.error e, s', w') => ρ.perform (f e) s' w' := by
  let next : Except RightsError α × Store → m (Except RightsError α × Store)
    | (.ok a, s') => pure (.ok a, s')
    | (.error e, s') => (f e).run.run s'
  have hshape : (tryCatch x f).run.run s = x.run.run s >>= next := by
    show x.run.run s >>= _ = _
    congr 1
    funext p
    rcases p with ⟨_ | a, s'⟩ <;> rfl
  rw [perform, hshape, ρ.run_bind, perform]
  rcases ρ.run (x.run.run s) w with ⟨⟨_ | a, s'⟩, w'⟩
  · rfl
  · rw [show next (.ok a, s') = pure (.ok a, s') from rfl, ρ.run_pure]

/-- A program without errors on the store. -/
theorem perform_liftState (x : StateT Store m α) (s : Store) (w : W) :
    ρ.perform (ExceptT.lift x : StoreM m α) s w =
      match ρ.run (x s) w with
      | ((a, s'), w') => (.ok a, s', w') := by
  have hshape : (ExceptT.lift x : StoreM m α).run.run s =
      x s >>= fun p ↦ pure ((Except.ok p.1 : Except RightsError α), p.2) := rfl
  rw [perform, hshape, ρ.run_bind, ρ.run_pure]

/-- A program of the documents' own monad leaves the store alone. -/
@[simp] theorem perform_lift (op : m α) (s : Store) (w : W) :
    ρ.perform (op : StoreM m α) s w = (.ok (ρ.run op w).1, s, (ρ.run op w).2) := by
  have hrun : ρ.run ((liftM op : StateT Store m α) s) w =
      (((ρ.run op w).1, s), (ρ.run op w).2) := by
    rw [show (liftM op : StateT Store m α) s = op >>= fun a ↦ pure (a, s) from rfl, ρ.run_bind,
      ρ.run_pure]
  exact (ρ.perform_liftState (liftM op) s w).trans (by rw [hrun])

@[simp] theorem perform_get (s : Store) (w : W) :
    ρ.perform (get : StoreM m Store) s w = (.ok s, s, w) := by
  have hrun : ρ.run ((get : StateT Store m Store) s) w = ((s, s), w) := ρ.run_pure _ w
  exact (ρ.perform_liftState get s w).trans (by rw [hrun])

@[simp] theorem perform_set (s' s : Store) (w : W) :
    ρ.perform (set s' : StoreM m PUnit) s w = (.ok ⟨⟩, s', w) := by
  have hrun : ρ.run ((set s' : StateT Store m PUnit) s) w = ((⟨⟩, s'), w) := ρ.run_pure _ w
  exact (ρ.perform_liftState (set s') s w).trans (by rw [hrun])

@[simp] theorem perform_modify (f : Store → Store) (s : Store) (w : W) :
    ρ.perform (modify f : StoreM m PUnit) s w = (.ok ⟨⟩, f s, w) := by
  have hrun : ρ.run ((modify f : StateT Store m PUnit) s) w = ((⟨⟩, f s), w) := ρ.run_pure _ w
  exact (ρ.perform_liftState (modify f) s w).trans (by rw [hrun])

end Runner

end LayeredRights
