import Blake2s.State.Basic

set_option autoImplicit false

/-! # Engines that cannot be told apart

Two engines over different memories are *alike* if from related memories they give the same outcome
and leave related memories. Whatever is computed through an engine is then the same through both:
`Action.Alike` says so of actions that use nothing but an engine, `HashM.Alike` of operations on a
hash state. Both relations are carried through by everything that actions and operations are built
from, so for each operation of the library being alike is a matter of its shape. -/

namespace Blake2s

/-- What is computed through an engine with the memory `σ`. -/
abbrev Action (σ α : Type) := ExceptT Fault (StateM σ) α

namespace Action

variable {σ τ α β : Type}

/-- The outcome of an action, and the memory after it. -/
def runOn (x : Action σ α) (m : σ) : Except Fault α × σ := x.run.run m

/-- From related memories two actions have the same outcome and leave related memories. -/
def Alike (R : σ → τ → Prop) (x : Action σ α) (y : Action τ α) : Prop :=
  ∀ m n, R m n → (x.runOn m).1 = (y.runOn n).1 ∧ R (x.runOn m).2 (y.runOn n).2

variable {R : σ → τ → Prop}

theorem runOn_bind (x : Action σ α) (f : α → Action σ β) (m : σ) :
    (x >>= f).runOn m
      = match x.runOn m with
        | (.ok a, m) => (f a).runOn m
        | (.error e, m) => (.error e, m) := by
  change (ExceptT.bindCont f (x.run.run m).1).run (x.run.run m).2 = _
  rcases h : x.run.run m with ⟨_ | _, _⟩ <;> simp only [runOn, h] <;> rfl

/-- An action that succeeds goes through all its steps. -/
theorem ok_of_bind {x : Action σ α} {f : α → Action σ β} {m m'' : σ} {b : β}
    (h : (x >>= f).runOn m = (.ok b, m'')) :
    ∃ a m', x.runOn m = (.ok a, m') ∧ (f a).runOn m' = (.ok b, m'') := by
  rw [runOn_bind] at h
  rcases hx : x.runOn m with ⟨a, m'⟩
  rw [hx] at h
  cases a with
  | error e => exact nomatch h
  | ok a => exact ⟨a, m', rfl, h⟩

@[simp] theorem runOn_pure (a : α) (m : σ) : runOn (Pure.pure a) m = (.ok a, m) := rfl

@[simp] theorem runOn_throw (e : Fault) (m : σ) :
    (MonadExcept.throw e : Action σ α).runOn m = (.error e, m) := rfl

@[simp] theorem runOn_lift (x : Except Fault α) (m : σ) :
    (liftM x : Action σ α).runOn m = (x, m) := by
  cases x <;> rfl

@[simp] theorem runOn_get (m : σ) : (MonadState.get : Action σ σ).runOn m = (.ok m, m) := rfl

@[simp] theorem runOn_set (m' m : σ) :
    (MonadStateOf.set m' : Action σ PUnit).runOn m = (.ok ⟨⟩, m') := rfl

@[simp] theorem runOn_modify (f : σ → σ) (m : σ) :
    (modify f : Action σ PUnit).runOn m = (.ok ⟨⟩, f m) := rfl

namespace Alike

theorem pure (a : α) : Alike R (Pure.pure a) (Pure.pure a) := fun _ _ h => ⟨rfl, h⟩

theorem throw (e : Fault) : Alike R (MonadExcept.throw e : Action σ α) (MonadExcept.throw e) :=
  fun _ _ h => ⟨rfl, h⟩

theorem lift (x : Except Fault α) : Alike R (liftM x : Action σ α) (liftM x) :=
  fun _ _ h => ⟨rfl, h⟩

/-- The same check of what is given, before actions that are alike. -/
theorem check {c : Prop} [Decidable c] {f : Unit → Action σ α} {g : Unit → Action τ α} {e : Fault}
    (h : Alike R (f ()) (g ())) :
    Alike R (if c then MonadExcept.throw e >>= f else f ())
      (if c then MonadExcept.throw e >>= g else g ()) := by
  split
  · exact fun _ _ h => ⟨rfl, h⟩
  · exact h

theorem bind {x : Action σ α} {y : Action τ α} {f : α → Action σ β} {g : α → Action τ β}
    (hx : Alike R x y) (hf : ∀ a, Alike R (f a) (g a)) : Alike R (x >>= f) (y >>= g) := by
  intro m n h
  obtain ⟨outcome, memory⟩ := hx m n h
  rw [runOn_bind, runOn_bind]
  rcases hm : x.runOn m with ⟨a, m'⟩
  rcases hn : y.runOn n with ⟨b, n'⟩
  simp only [hm, hn] at outcome memory
  subst outcome
  cases a with
  | error e => exact ⟨rfl, memory⟩
  | ok a => exact hf a m' n' memory

end Alike

/-- From a memory with `inv` an action leaves one with `inv`, and what it returns has `post`. -/
def Keeps (inv : σ → Prop) (x : Action σ α) (post : α → Prop) : Prop :=
  ∀ m, inv m → inv (x.runOn m).2 ∧ ∀ a, (x.runOn m).1 = .ok a → post a

namespace Keeps

variable {inv : σ → Prop} {post : α → Prop} {post' : β → Prop}

theorem pure {a : α} (h : post a) : Keeps inv (Pure.pure a) post := by
  intro m hm
  refine ⟨hm, ?_⟩
  rintro _ ⟨⟩
  exact h

/-- Nothing is done after a failure. -/
theorem throw_bind (e : Fault) (f : α → Action σ β) :
    Keeps inv (MonadExcept.throw e >>= f) post' := fun _ hm => ⟨hm, nofun⟩

theorem lift (x : Except Fault α) : Keeps inv (liftM x) fun _ => True := by
  intro m hm
  rw [runOn_lift]
  exact ⟨hm, fun _ _ => trivial⟩

theorem get : Keeps inv MonadState.get inv := by
  intro m hm
  refine ⟨hm, ?_⟩
  rintro _ ⟨⟩
  exact hm

theorem modifyState {f : σ → σ} (h : ∀ m, inv m → inv (f m)) :
    Keeps inv (modify f : Action σ PUnit) fun _ => True :=
  fun m hm => ⟨h m hm, fun _ _ => trivial⟩

theorem bind {x : Action σ α} {f : α → Action σ β} (hx : Keeps inv x post)
    (hf : ∀ a, post a → Keeps inv (f a) post') : Keeps inv (x >>= f) post' := by
  intro m hm
  obtain ⟨kept, value⟩ := hx m hm
  rw [runOn_bind]
  rcases h : x.runOn m with ⟨a, m'⟩
  rw [h] at kept value
  cases a with
  | error e => exact ⟨kept, nofun⟩
  | ok a => exact hf a (value a rfl) m' kept

end Keeps

end Action

namespace HashM

variable {σ τ α β : Type}

/-- The outcome of an operation, the state after it and the memory after it. -/
def runOn (x : HashM σ α) (s : State) (m : σ) : (Except Fault α × State) × σ := (x.run.run s).run m

/-- From the same state and related memories two operations have the same outcome and leave the
    same state and related memories. -/
def Alike (R : σ → τ → Prop) (x : HashM σ α) (y : HashM τ α) : Prop :=
  ∀ s m n, R m n → (x.runOn s m).1 = (y.runOn s n).1 ∧ R (x.runOn s m).2 (y.runOn s n).2

variable {R : σ → τ → Prop}

/-- An operation is what it does from every state and memory. -/
theorem ext {x y : HashM σ α} (h : ∀ s m, x.runOn s m = y.runOn s m) : x = y :=
  funext fun s => funext fun m => h s m

theorem runOn_bind (x : HashM σ α) (f : α → HashM σ β) (s : State) (m : σ) :
    (x >>= f).runOn s m
      = match x.runOn s m with
        | ((.ok a, s), m) => (f a).runOn s m
        | ((.error e, s), m) => ((.error e, s), m) := by
  change ((ExceptT.bindCont f ((x.run.run s).run m).1.1).run ((x.run.run s).run m).1.2).run
    ((x.run.run s).run m).2 = _
  rcases h : (x.run.run s).run m with ⟨⟨_ | _, _⟩, _⟩ <;> simp only [runOn, h] <;> rfl

@[simp] theorem runOn_pure (a : α) (s : State) (m : σ) :
    (Pure.pure a : HashM σ α).runOn s m = ((.ok a, s), m) := rfl

@[simp] theorem runOn_throw (e : Fault) (s : State) (m : σ) :
    (MonadExcept.throw e : HashM σ α).runOn s m = ((.error e, s), m) := rfl

@[simp] theorem runOn_lift (x : Except Fault α) (s : State) (m : σ) :
    (liftM x : HashM σ α).runOn s m = ((x, s), m) := by
  cases x <;> rfl

@[simp] theorem runOn_get (s : State) (m : σ) :
    (MonadState.get : HashM σ State).runOn s m = ((.ok s, s), m) := rfl

@[simp] theorem runOn_set (s' s : State) (m : σ) :
    (MonadStateOf.set s' : HashM σ Unit).runOn s m = ((.ok (), s'), m) := rfl

@[simp] theorem runOn_modify (f : State → State) (s : State) (m : σ) :
    (modify f : HashM σ Unit).runOn s m = ((.ok (), f s), m) := rfl

theorem runOn_ofEngine (x : Action σ α) (s : State) (m : σ) :
    (ofEngine x).runOn s m = (((x.runOn m).1, s), (x.runOn m).2) := rfl

theorem runOn_evalFrom (s : State) (x : HashM σ α) (m : σ) :
    Action.runOn (evalFrom s x) m = ((x.runOn s m).1.1, (x.runOn s m).2) := rfl

/-- A function of the outcome, failed or not. -/
theorem runOn_lift_map (f : Except Fault α → β) (x : HashM σ α) (s : State) (m : σ) :
    HashM.runOn (ExceptT.lift (f <$> x.run)) s m
      = ((.ok (f (x.runOn s m).1.1), (x.runOn s m).1.2), (x.runOn s m).2) := rfl

namespace Alike

theorem pure (a : α) : Alike R (Pure.pure a) (Pure.pure a) := fun _ _ _ h => ⟨rfl, h⟩

theorem throw (e : Fault) : Alike R (MonadExcept.throw e : HashM σ α) (MonadExcept.throw e) :=
  fun _ _ _ h => ⟨rfl, h⟩

theorem lift (x : Except Fault α) : Alike R (liftM x : HashM σ α) (liftM x) :=
  fun _ _ _ h => ⟨rfl, h⟩

/-- The same check of what is given, before operations that are alike. -/
theorem check {c : Prop} [Decidable c] {f : Unit → HashM σ α} {g : Unit → HashM τ α} {e : Fault}
    (h : Alike R (f ()) (g ())) :
    Alike R (if c then MonadExcept.throw e >>= f else f ())
      (if c then MonadExcept.throw e >>= g else g ()) := by
  split
  · exact fun _ _ _ h => ⟨rfl, h⟩
  · exact h

theorem get : Alike R (MonadState.get : HashM σ State) MonadState.get := fun _ _ _ h => ⟨rfl, h⟩

theorem set (s : State) : Alike R (MonadStateOf.set s : HashM σ Unit) (MonadStateOf.set s) :=
  fun _ _ _ h => ⟨rfl, h⟩

theorem modifyState (f : State → State) : Alike R (modify f : HashM σ Unit) (modify f) :=
  fun _ _ _ h => ⟨rfl, h⟩

theorem bind {x : HashM σ α} {y : HashM τ α} {f : α → HashM σ β} {g : α → HashM τ β}
    (hx : Alike R x y) (hf : ∀ a, Alike R (f a) (g a)) : Alike R (x >>= f) (y >>= g) := by
  intro s m n h
  obtain ⟨outcome, memory⟩ := hx s m n h
  rw [runOn_bind, runOn_bind]
  rcases hm : x.runOn s m with ⟨⟨a, s'⟩, m'⟩
  rcases hn : y.runOn s n with ⟨⟨b, t'⟩, n'⟩
  simp only [hm, hn, Prod.mk.injEq] at outcome memory
  obtain ⟨rfl, rfl⟩ := outcome
  cases a with
  | error e => exact ⟨rfl, memory⟩
  | ok a => exact hf a s' m' n' memory

theorem forM {f : β → HashM σ PUnit} {g : β → HashM τ PUnit} (h : ∀ b, Alike R (f b) (g b))
    (l : List β) : Alike R (l.forM f) (l.forM g) := by
  induction l with
  | nil => exact .pure _
  | cons b l ih => exact .bind (h b) fun _ => ih

theorem ofEngine {x : Action σ α} {y : Action τ α} (h : x.Alike R y) :
    Alike R (HashM.ofEngine x) (HashM.ofEngine y) := by
  intro s m n hR
  obtain ⟨outcome, memory⟩ := h m n hR
  exact ⟨by rw [runOn_ofEngine, runOn_ofEngine, outcome], memory⟩

/-- What one of two operations that are alike does, the other one does. -/
theorem transfer {x : HashM σ α} {y : HashM τ α} (h : Alike R x y) {s s' : State} {m : σ}
    {n n' : τ} {r : Except Fault α} (hR : R m n) (run : y.runOn s n = ((r, s'), n')) :
    ∃ m', x.runOn s m = ((r, s'), m') ∧ R m' n' := by
  obtain ⟨outcome, memory⟩ := h s m n hR
  rw [run] at outcome memory
  exact ⟨_, Prod.ext outcome rfl, memory⟩

theorem outcome {x : HashM σ α} {y : HashM τ α} (h : Alike R x y) (f : Except Fault α → β) :
    Alike R (ExceptT.lift (f <$> x.run)) (ExceptT.lift (f <$> y.run)) := by
  intro s m n hR
  obtain ⟨same, memory⟩ := h s m n hR
  rw [runOn_lift_map, runOn_lift_map, same]
  exact ⟨rfl, memory⟩

theorem evalFrom {x : HashM σ α} {y : HashM τ α} (s : State) (h : Alike R x y) :
    Action.Alike R (HashM.evalFrom s x) (HashM.evalFrom s y) := by
  intro m n hR
  obtain ⟨outcome, memory⟩ := h s m n hR
  exact ⟨by rw [runOn_evalFrom, runOn_evalFrom, outcome], memory⟩

end Alike

end HashM

namespace Engine

variable {σ τ : Type}

/-- From related memories two engines give the same outcome for every batch, and leave related
    memories. -/
def Alike (R : σ → τ → Prop) (e : Engine σ) (e' : Engine τ) : Prop :=
  ∀ chain batch, Action.Alike R (e chain batch) (e' chain batch)

/-- From every memory with `inv`, an engine compresses as the generic compression does, without
    fail, and it keeps `inv`. -/
def Lawful (inv : σ → Prop) (e : Engine σ) : Prop :=
  ∀ chain batch m, inv m →
    (Action.runOn (e chain batch) m).1 = .ok (chain.compress batch) ∧
      inv (Action.runOn (e chain batch) m).2

/-- From the memory `m`, every call of an engine fails and leaves the memory `m'`. -/
def FailsAt (e : Engine σ) (m : σ) (fault : Fault) (m' : σ) : Prop :=
  ∀ chain batch, Action.runOn (e chain batch) m = (.error fault, m')

theorem generic_lawful : (generic : Engine σ).Lawful fun _ => True :=
  fun _ _ _ _ => ⟨rfl, trivial⟩

/-- Lawful engines are alike, whatever their memories. -/
theorem Lawful.alike {inv : σ → Prop} {inv' : τ → Prop} {e : Engine σ} {e' : Engine τ}
    (h : e.Lawful inv) (h' : e'.Lawful inv') : Alike (fun m n => inv m ∧ inv' n) e e' := by
  intro chain batch m n hR
  obtain ⟨outcome, memory⟩ := h chain batch m hR.1
  obtain ⟨outcome', memory'⟩ := h' chain batch n hR.2
  exact ⟨outcome.trans outcome'.symm, memory, memory'⟩

end Engine

end Blake2s
