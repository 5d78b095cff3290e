import Blake2s.Proofs.Host.Asking
import Blake2s.Proofs.Session.Steps

set_option autoImplicit false

/-! # Operations on distinct states commute

Two states of one session have nothing in common but the host, and all that an operation may do to a
sound host is to ask it for the active backend a number of times. The answer is the same every time, so
what an operation comes to is what it comes to alone (`Session.step_alone`); and the host is left as it
is after so many questions, whoever asked them. So of two runs that do the same to each of two states,
in whatever interleaving, each state sees the same (`Session.interleavings_agree`). -/

namespace Blake2s

/-! ## Operations on one state -/

/-- An operation on a state. -/
inductive State.Operation where
  | init (outlen : Int)
  | initKeyed (outlen : Int) (key : Bytes)
  | start (fields : Parameters.Fields) (key : Bytes) (lastNode : Bool)
  | update (data : Bytes)
  | final (outlen : Option Int)
  | finalInto (out : Bytes) (outlen : Option Int)
  | wipe

namespace State.Operation

/-- The operation as a command on the state under a name. -/
def command (name : String) : Operation → Command
  | init outlen => .init name outlen
  | initKeyed outlen key => .initKeyed name outlen key
  | start fields key lastNode => .start name fields key lastNode
  | update data => .update name data
  | final outlen => .final name outlen
  | finalInto out outlen => .finalInto name out outlen
  | wipe => .wipe name

variable {σ τ : Type}

/-- What the operation does to a state, through an engine. -/
def apply (e : Engine σ) : Operation → HashM σ Reply
  | init outlen => do
    State.init e outlen
    return .done
  | initKeyed outlen key => do
    State.initKeyed e outlen key
    return .done
  | start fields key lastNode => do
    let p ← Parameters.ofFields fields
    State.start e p key lastNode
    return .done
  | update data => do
    State.update e data
    return .done
  | final outlen => return .bytes (← State.finalWithin e outlen none)
  | finalInto out outlen =>
    return .bytes (out.overwrite (← State.finalWithin e outlen (some out.length)))
  | wipe => do
    State.wipe
    return .done

theorem alike_apply {R : σ → τ → Prop} {e : Engine σ} {e' : Engine τ} (h : e.Alike R e')
    (op : Operation) : HashM.Alike R (op.apply e) (op.apply e') := by
  cases op with
  | init outlen => exact .bind (State.alike_init h outlen) fun _ => .pure _
  | initKeyed outlen key => exact .bind (State.alike_initKeyed h outlen key) fun _ => .pure _
  | start fields key lastNode =>
    refine .bind (.lift _) fun p => ?_
    exact .bind (State.alike_start h p key lastNode) fun _ => .pure _
  | update data => exact .bind (State.alike_update h data) fun _ => .pure _
  | final outlen => exact .bind (State.alike_finalWithin h outlen none) fun _ => .pure _
  | finalInto out outlen => exact .bind (State.alike_finalWithin h outlen _) fun _ => .pure _
  | wipe => exact .bind (.modifyState _) fun _ => .pure _

end State.Operation

open State (Operation)

namespace Session

variable {A B : Session} {a b name : String} {p : Host}

theorem putBack_eq {α : Type} (name : String) (reply : α → Reply) (x : HashM Host α) (A : Session) :
    A.putBack name reply (x.runOn (A.state name) A.host)
      = (let run := (x >>= fun a => pure (reply a)).runOn (A.state name) A.host
        (run.1.1, A.put name run.1.2 run.2)) := by
  rw [HashM.runOn_bind, putBack]
  rcases x.runOn (A.state name) A.host with ⟨⟨_ | _, _⟩, _⟩ <;> rfl

/-- A command runs the operation and puts back what it leaves. -/
theorem step_command (op : Operation) (name : String) (A : Session) :
    let run := (op.apply (A.engine name)).runOn (A.state name) A.host
    let after := A.step (op.command name)
    after.1 = run.1.1 ∧ after.2.host = run.2 ∧
      ∀ other, after.2.holder other = (A.put name run.1.2 run.2).holder other := by
  have settled {x : HashM Host Reply} {after : Except Fault Reply × Session}
      (h : after = (let run := x.runOn (A.state name) A.host
        (run.1.1, A.put name run.1.2 run.2))) :
      let run := x.runOn (A.state name) A.host
      after.1 = run.1.1 ∧ after.2.host = run.2 ∧
        ∀ other, after.2.holder other = (A.put name run.1.2 run.2).holder other := by
    subst h
    exact ⟨rfl, rfl, fun _ => rfl⟩
  cases op with
  | init outlen => exact settled ((step_init name outlen A).trans (putBack_eq ..))
  | initKeyed outlen key => exact settled ((step_initKeyed name outlen key A).trans (putBack_eq ..))
  | update data => exact settled ((step_update name data A).trans (putBack_eq ..))
  | final outlen => exact settled ((step_final name outlen A).trans (putBack_eq ..))
  | finalInto out outlen => exact settled ((step_finalInto name out outlen A).trans (putBack_eq ..))
  | wipe =>
    exact settled ((runOn_onState_map name (fun _ => State.wipe) _ A).trans (putBack_eq ..))
  | start fields key lastNode =>
    dsimp only [Operation.command, Operation.apply]
    rw [step_start, HashM.runOn_bind, HashM.runOn_lift]
    cases Parameters.ofFields fields with
    | ok p => exact settled (putBack_eq ..)
    | error fault =>
      -- nothing is put back, but that would not have changed anything
      exact ⟨rfl, rfl, fun other => (holder_put_self A name A.host other).symm⟩

/-! ## Alone -/

/-- What an operation comes to when the active backend is found like this: its outcome, the state after
    it, and how often it compresses. -/
def alone (found : Except Fault (Option BackendId)) (op : Operation) (s : State) :
    (Except Fault Reply × State) × Nat :=
  (op.apply (Engine.counting found)).runOn s 0

/-- **A command does to its state what it does alone.** To the host it does nothing but asking, and to
    the other states nothing. -/
theorem step_alone (sound : p.Sound) {n : Nat} (same : (p.after n).SameButOffers A.host)
    (op : Operation) (name : String) :
    let run := alone (p.found (A.holder name).pin) op (A.state name)
    let after := A.step (op.command name)
    after.1 = run.1.1 ∧ after.2.state name = run.1.2 ∧
      (p.after (n + Host.asks (A.holder name).pin run.2)).SameButOffers after.2.host ∧
      (∀ other, (after.2.holder other).pin = (A.holder other).pin) ∧
      ∀ other, name ≠ other → after.2.holder other = A.holder other := by
  intro run after
  obtain ⟨outcome, host, holders⟩ := step_command op name A
  have start : (p.after (n + Host.asks (A.holder name).pin 0)).SameButOffers A.host := by
    cases (A.holder name).pin with
    | none => exact same
    | some id => exact same
  obtain ⟨alike, memory⟩ := Operation.alike_apply
    (Host.alike_counting sound n (A.holder name).pin) op (A.state name) 0 A.host start
  refine ⟨?_, ?_, ?_, ?_, ?_⟩
  · exact outcome.trans (congrArg Prod.fst alike.symm)
  · rw [state, holders, ← state, state_put]
    exact congrArg Prod.snd alike.symm
  · rw [host]
    exact memory
  · intro other
    rw [holders, pin_put]
  · intro other ne
    rw [holders, holder_put_of_ne ne]

/-- Operations one after the other, alone. -/
def allAlone (found : Except Fault (Option BackendId)) :
    List Operation → State → (List (Except Fault Reply) × State) × Nat
  | [], s => (([], s), 0)
  | op :: ops, s =>
    let run := alone found op s
    let rest := allAlone found ops run.1.2
    ((run.1.1 :: rest.1.1, rest.1.2), run.2 + rest.2)

/-! ## Interleaved -/

/-- The operations, or outcomes, of the first of two states. -/
def lefts {α : Type} (l : List (α ⊕ α)) : List α := l.filterMap Sum.getLeft?

/-- The operations, or outcomes, of the second of two states. -/
def rights {α : Type} (l : List (α ⊕ α)) : List α := l.filterMap Sum.getRight?

/-- Carries out operations on two states as they come, with the outcome of each. -/
def interleave (a b : String) :
    List (Operation ⊕ Operation) → Session → List (Except Fault Reply ⊕ Except Fault Reply) × Session
  | [], A => ([], A)
  | .inl op :: l, A =>
    let (outcome, A) := A.step (op.command a)
    let (outcomes, A) := interleave a b l A
    (.inl outcome :: outcomes, A)
  | .inr op :: l, A =>
    let (outcome, A) := A.step (op.command b)
    let (outcomes, A) := interleave a b l A
    (.inr outcome :: outcomes, A)

@[simp] theorem lefts_inl {α : Type} (x : α) (l : List (α ⊕ α)) :
    lefts (.inl x :: l) = x :: lefts l := rfl

@[simp] theorem lefts_inr {α : Type} (x : α) (l : List (α ⊕ α)) :
    lefts (.inr x :: l) = lefts l := rfl

@[simp] theorem rights_inl {α : Type} (x : α) (l : List (α ⊕ α)) :
    rights (.inl x :: l) = rights l := rfl

@[simp] theorem rights_inr {α : Type} (x : α) (l : List (α ⊕ α)) :
    rights (.inr x :: l) = x :: rights l := rfl

/-- What an interleaving comes to, in terms of what each state comes to alone. -/
structure Ends (p : Host) (n : Nat) (a b : String) (A : Session)
    (aloneA aloneB : (List (Except Fault Reply) × State) × Nat)
    (run : List (Except Fault Reply ⊕ Except Fault Reply) × Session) : Prop where
  lefts : lefts run.1 = aloneA.1.1
  rights : rights run.1 = aloneB.1.1
  stateA : run.2.state a = aloneA.1.2
  stateB : run.2.state b = aloneB.1.2
  host : (p.after (n + (Host.asks (A.holder a).pin aloneA.2 + Host.asks (A.holder b).pin aloneB.2)))
    |>.SameButOffers run.2.host
  pin : ∀ name, (run.2.holder name).pin = (A.holder name).pin
  other : ∀ name, a ≠ name → b ≠ name → run.2.holder name = A.holder name

/-- **Each state sees what it sees alone**, and the host is asked as often as by both together. -/
theorem interleave_ends (sound : p.Sound) (distinct : a ≠ b) {n : Nat}
    (same : (p.after n).SameButOffers A.host) (l : List (Operation ⊕ Operation)) :
    Ends p n a b A (allAlone (p.found (A.holder a).pin) (lefts l) (A.state a))
      (allAlone (p.found (A.holder b).pin) (rights l) (A.state b)) (interleave a b l A) := by
  induction l generalizing A n with
  | nil =>
    refine ⟨rfl, rfl, rfl, rfl, ?_, fun _ => rfl, fun _ _ _ => rfl⟩
    cases (A.holder a).pin <;> cases (A.holder b).pin <;> exact same
  | cons x l ih =>
    cases x with
    | inl op =>
      obtain ⟨outcome, after, host, pins, others⟩ := step_alone sound same op a
      have untouched : (A.step (op.command a)).2.state b = A.state b :=
        congrArg Holder.state (others b distinct)
      have rest := ih host
      rw [pins, pins, after, untouched] at rest
      constructor
      case lefts => exact congrArg₂ List.cons outcome rest.lefts
      case rights => exact rest.rights
      case stateA => exact rest.stateA
      case stateB => exact rest.stateB
      case host =>
        have all := rest.host
        rw [pins, pins] at all
        rw [lefts_inl, rights_inl, allAlone, Host.asks_add, Nat.add_assoc, ← Nat.add_assoc]
        exact all
      case pin => exact fun name => (rest.pin name).trans (pins name)
      case other =>
        exact fun name notA notB => (rest.other name notA notB).trans (others name notA)
    | inr op =>
      obtain ⟨outcome, after, host, pins, others⟩ := step_alone sound same op b
      have untouched : (A.step (op.command b)).2.state a = A.state a :=
        congrArg Holder.state (others a distinct.symm)
      have rest := ih host
      rw [pins, pins, after, untouched] at rest
      constructor
      case lefts => exact rest.lefts
      case rights => exact congrArg₂ List.cons outcome rest.rights
      case stateA => exact rest.stateA
      case stateB => exact rest.stateB
      case host =>
        have all := rest.host
        rw [pins, pins] at all
        rw [lefts_inr, rights_inr, allAlone, Host.asks_add,
          Nat.add_left_comm (Host.asks _ _), ← Nat.add_assoc]
        exact all
      case pin => exact fun name => (rest.pin name).trans (pins name)
      case other =>
        exact fun name notA notB => (rest.other name notA notB).trans (others name notB)

/-- Are two sessions the same to whoever uses their states, and do they have the same selection, the
    same backends behind it and behind the pins, and the same log? -/
structure EndSame (A B : Session) : Prop where
  holder : ∀ name, A.holder name = B.holder name
  selection : A.host.selection = B.host.selection
  backends : ∀ id, A.host.backend? id = B.host.backend? id
  log : A.host.log = B.host.log

theorem Ends.endSame {n : Nat} {aloneA aloneB : (List (Except Fault Reply) × State) × Nat}
    {run run' : List (Except Fault Reply ⊕ Except Fault Reply) × Session}
    (ends : Ends p n a b A aloneA aloneB run) (ends' : Ends p n a b A aloneA aloneB run') :
    run.2.EndSame run'.2 := by
  have host := ends.host.symm.trans ends'.host
  refine ⟨fun name => ?_, host.selection.symm, fun id => (host.backends id).symm, host.log.symm⟩
  have pin : (run.2.holder name).pin = (run'.2.holder name).pin :=
    (ends.pin name).trans (ends'.pin name).symm
  by_cases ha : a = name
  · subst ha
    exact congrArg₂ Holder.mk (ends.stateA.trans ends'.stateA.symm) pin
  by_cases hb : b = name
  · subst hb
    exact congrArg₂ Holder.mk (ends.stateB.trans ends'.stateB.symm) pin
  · exact (ends.other name ha hb).trans (ends'.other name ha hb).symm

/-- **Operations on distinct states commute**, in any session whose host is sound, whether or not a
    backend has been detected yet, and whether or not that works. Two operations, each on one of two
    states, have the same outcomes in either order, and leave all states, the selection, the backends
    and the log the same. So do any two interleavings of the same operations on the one and on the other state. -/
theorem interleavings_agree (A : Session) (sound : A.host.Sound) (distinct : a ≠ b) :
    (∀ x y : Operation,
      let afterX := A.step (x.command a)
      let afterXY := afterX.2.step (y.command b)
      let afterY := A.step (y.command b)
      let afterYX := afterY.2.step (x.command a)
      afterX.1 = afterYX.1 ∧ afterXY.1 = afterY.1 ∧ afterXY.2.EndSame afterYX.2) ∧
    ∀ l l' : List (Operation ⊕ Operation), lefts l = lefts l' → rights l = rights l' →
      lefts (interleave a b l A).1 = lefts (interleave a b l' A).1 ∧
      rights (interleave a b l A).1 = rights (interleave a b l' A).1 ∧
      (interleave a b l A).2.EndSame (interleave a b l' A).2 := by
  have agree (l l' : List (Operation ⊕ Operation)) (left : lefts l = lefts l')
      (right : rights l = rights l') :
      lefts (interleave a b l A).1 = lefts (interleave a b l' A).1 ∧
      rights (interleave a b l A).1 = rights (interleave a b l' A).1 ∧
      (interleave a b l A).2.EndSame (interleave a b l' A).2 := by
    have start : (A.host.after 0).SameButOffers A.host := .refl A.host
    have ends := interleave_ends sound distinct start l
    have ends' := interleave_ends sound distinct start l'
    rw [← left, ← right] at ends'
    exact ⟨ends.lefts.trans ends'.lefts.symm, ends.rights.trans ends'.rights.symm,
      ends.endSame ends'⟩
  refine ⟨fun x y => ?_, agree⟩
  obtain ⟨left, right, same⟩ := agree [.inl x, .inr y] [.inr y, .inl x] rfl rfl
  exact ⟨List.head_eq_of_cons_eq left, List.head_eq_of_cons_eq right, same⟩

/-- Two states without a pin, in an environment in which every detection fails; a third, pinned state of
    the session has a vectorized backend. -/
theorem interleavings_agree_failing_detection :
    let A : Session :=
      { host :=
          { environment := { minBlocks := some "many" }
            backends := #[{ backend := .vectorized 1 }] }
        states := ({} : Std.HashMap String Holder).insert "pinned" { pin := some 0 } }
    let l : List (Operation ⊕ Operation) :=
      [.inl (.init 32), .inr (.init 16), .inl (.update (Bytes.zeros 65)), .inr (.final none),
       .inl (.final none)]
    let l' : List (Operation ⊕ Operation) :=
      [.inr (.init 16), .inr (.final none), .inl (.init 32), .inl (.update (Bytes.zeros 65)),
       .inl (.final none)]
    A.host.Sound ∧ "left" ≠ "right" ∧ lefts l = lefts l' ∧ rights l = rights l' ∧
      lefts (interleave "left" "right" l A).1 = lefts (interleave "left" "right" l' A).1 ∧
      rights (interleave "left" "right" l A).1 = rights (interleave "left" "right" l' A).1 ∧
      (interleave "left" "right" l A).2.EndSame (interleave "left" "right" l' A).2 := by
  intro A l l'
  have sound : A.host.Sound := by
    refine Host.sound_of_known (fun i hi => ?_) (.inl rfl)
    obtain rfl : i = { backend := .vectorized 1 } := Array.mem_singleton.mp hi
    exact .inr ⟨1, rfl⟩
  have distinct : "left" ≠ "right" := by decide
  exact ⟨sound, distinct, rfl, rfl, (interleavings_agree A sound distinct).2 l l' rfl rfl⟩

end Session

end Blake2s
