import Blake2s.Proofs.Host.Resolving

set_option autoImplicit false

/-! # Increments of whole blocks

Several blocks can only be compressed at once if each of them counts in full, and a state refuses to
hand on anything else. It never comes to that: all batches of the operations on a state are of one
block or of full ones, so none of them fails for a partial increment, unless the engine does
(`State.whole_update`, `State.whole_finalWithin`), and the engine of a host does not
(`Host.whole_engine`). -/

namespace Blake2s

variable {σ α β : Type}

/-! ## Faults of operations -/

/-- An action fails with faults that have `post` only. -/
def Action.FaultsHave (post : Fault → Prop) (x : Action σ α) : Prop :=
  ∀ m fault m', x.runOn m = (.error fault, m') → post fault

/-- An operation fails with faults that have `post` only. -/
def HashM.FaultsHave (post : Fault → Prop) (x : HashM σ α) : Prop :=
  ∀ s m fault, (x.runOn s m).1.1 = .error fault → post fault

namespace HashM.FaultsHave

variable {post : Fault → Prop}

theorem pure (a : α) : FaultsHave post (Pure.pure a : HashM σ α) := fun _ _ _ h => nomatch h

theorem get : FaultsHave post (MonadState.get : HashM σ State) := fun _ _ _ h => nomatch h

theorem set (s : State) : FaultsHave post (MonadStateOf.set s : HashM σ Unit) :=
  fun _ _ _ h => nomatch h

theorem modifyState (f : State → State) : FaultsHave post (modify f : HashM σ Unit) :=
  fun _ _ _ h => nomatch h

theorem throw {fault : Fault} (h : post fault) :
    FaultsHave post (MonadExcept.throw fault : HashM σ α) := by
  rintro s m _ ⟨⟩
  exact h

theorem lift {x : Except Fault α} (h : ∀ fault, x = .error fault → post fault) :
    FaultsHave post (liftM x : HashM σ α) := by
  intro s m fault failed
  rw [runOn_lift] at failed
  exact h fault failed

theorem bind {x : HashM σ α} {f : α → HashM σ β} (hx : FaultsHave post x)
    (hf : ∀ a, FaultsHave post (f a)) : FaultsHave post (x >>= f) := by
  intro s m fault failed
  rw [runOn_bind] at failed
  rcases first : x.runOn s m with ⟨⟨fault' | a, s'⟩, m'⟩
  · rw [first] at failed
    obtain rfl : fault' = fault := Except.error.inj failed
    exact hx s m fault' (by rw [first])
  · rw [first] at failed
    exact hf a s' m' fault failed

theorem check {c : Prop} [Decidable c] {f : Unit → HashM σ α} {fault : Fault} (h : post fault)
    (hf : FaultsHave post (f ())) :
    FaultsHave post (if c then MonadExcept.throw fault >>= f else f ()) := by
  split
  · exact bind (throw h) fun _ => hf
  · exact hf

theorem forM {f : β → HashM σ PUnit} (h : ∀ b, FaultsHave post (f b)) (l : List β) :
    FaultsHave post (l.forM f) := by
  induction l with
  | nil => exact pure _
  | cons b l ih => exact bind (h b) fun _ => ih

end HashM.FaultsHave

/-! ## Operations on a state -/

namespace State

variable {e : Engine σ}
  (whole : ∀ chain batch, Action.FaultsHave (· ≠ .partialIncrement) (e chain batch))

theorem whole_requireLive :
    HashM.FaultsHave (· ≠ .partialIncrement) (requireLive : HashM σ Unit) := by
  refine .bind .get fun s => ?_
  split
  · exact .throw nofun
  · exact .pure _

theorem whole_outputLength (n : Int) :
    HashM.FaultsHave (· ≠ .partialIncrement) (liftM (outputLength n) : HashM σ Nat) := by
  refine .lift fun fault failed => ?_
  unfold outputLength at failed
  split at failed
  · exact nomatch failed
  · rintro rfl
    exact nomatch failed

theorem whole_ofFields (fields : Parameters.Fields) :
    HashM.FaultsHave (· ≠ .partialIncrement)
      (liftM (Parameters.ofFields fields) : HashM σ Parameters) := by
  refine .lift fun fault failed => ?_
  unfold Parameters.ofFields at failed
  split at failed
  · rintro rfl
    exact nomatch failed
  · exact nomatch failed

include whole

/-- All batches that are handed on are of one block, or of full ones. -/
theorem whole_compress {batch : Batch} (h : batch.count ≤ 1 ∨ batch.inc = 64) :
    HashM.FaultsHave (· ≠ .partialIncrement) (compress e batch) := by
  intro s m fault failed
  rw [runOn_compress batch h] at failed
  rcases asked : Action.runOn (e s.chain batch) m with ⟨fault' | chain, m'⟩
  · rw [asked] at failed
    obtain rfl : fault' = fault := Except.error.inj failed
    exact whole s.chain batch m fault' m' asked
  · rw [asked] at failed
    exact nomatch failed

theorem whole_update (data : Bytes) :
    HashM.FaultsHave (· ≠ .partialIncrement) (update e data) := by
  have topOff (data : Bytes) : HashM.FaultsHave (· ≠ .partialIncrement) (topOff e data) := by
    refine .bind .get fun s => ?_
    dsimp only
    split
    · exact .pure _
    · refine .bind (.set _) fun _ => .bind (.bind .get fun _ => ?_) fun _ => ?_
      · exact whole_compress whole (.inl (Nat.le_refl 1))
      · exact .bind (.modifyState _) fun _ => .pure _
  have compressAhead (data : Bytes) :
      HashM.FaultsHave (· ≠ .partialIncrement) (compressAhead e data) := by
    unfold State.compressAhead
    split
    · exact .pure _
    · exact .bind (whole_compress whole (.inr rfl)) fun _ => .pure _
  refine .bind whole_requireLive fun _ => .bind (topOff data) fun rest => ?_
  exact .bind (compressAhead rest) fun last => .modifyState _

theorem whole_finalWithin (requested : Option Int) (room : Option Nat) :
    HashM.FaultsHave (· ≠ .partialIncrement) (finalWithin e requested room) := by
  have finish (n : Nat) : HashM.FaultsHave (· ≠ .partialIncrement) (finish e n) := by
    refine .bind (.modifyState _) fun _ => .bind .get fun s => ?_
    refine .bind (.bind .get fun _ => whole_compress whole (.inl (Nat.le_refl 1))) fun _ => ?_
    exact .bind .get fun _ => .bind (.modifyState _) fun _ => .pure _
  refine .bind whole_requireLive fun _ => .bind .get fun s => ?_
  exact .bind (whole_outputLength _) fun n => .check nofun (finish n)

theorem whole_start (p : Parameters) (key : Bytes) (lastNode : Bool) :
    HashM.FaultsHave (· ≠ .partialIncrement) (start e p key lastNode) := by
  refine .check nofun (.bind (.set _) fun _ => ?_)
  split
  · exact .pure _
  · exact whole_update whole _

end State

namespace Setup

variable {e : Engine σ}

theorem whole_apply
    (whole : ∀ chain batch, Action.FaultsHave (· ≠ .partialIncrement) (e chain batch))
    (setup : Setup) : HashM.FaultsHave (· ≠ .partialIncrement) (setup.apply e) := by
  cases setup with
  | plain outlen =>
    refine .bind (State.whole_outputLength _) fun _ => .bind (State.whole_ofFields _) fun p => ?_
    exact State.whole_start whole p [] false
  | keyed outlen key =>
    refine .bind (State.whole_outputLength _) fun _ => .check nofun ?_
    exact .bind (State.whole_ofFields _) fun p => State.whole_start whole p key false
  | parameters p key lastNode => exact State.whole_start whole p key lastNode

end Setup

/-! ## The engine of a host -/

namespace Host

/-- Whatever is wrong when a compression fails, it is not the increment. -/
theorem whole_engine (pin : Option BackendId) (chain : Chain) (batch : Batch) :
    Action.FaultsHave (· ≠ .partialIncrement) (engine pin chain batch) := by
  intro p fault q run
  rcases resolves_or_failsAs pin p with ⟨choice, p₁, found⟩ | ⟨fault', p₁, fails⟩
  · obtain ⟨chain', p₂, compressed, -⟩ := runOn_compressChosen choice chain batch p₁
    rw [engine_eq, Action.runOn_bind, found] at run
    exact nomatch compressed.symm.trans run
  · rw [fails.failsAt chain batch] at run
    obtain ⟨⟨⟩, -⟩ := Prod.mk.inj run
    obtain ⟨text, rfl⟩ | rfl | ⟨backend, rfl⟩ := reason_of_detect_error fails.detect
    · exact nofun
    · exact nofun
    · exact nofun

end Host

end Blake2s
