import Blake2s.Proofs.Session.Runs

set_option autoImplicit false

/-! # Initialization forgets

Which initializations succeed is a matter of their arguments alone (`Setup.Valid`), and so is all
that a successful one leaves in a state (`State.started`): nothing of what the state held before,
and nothing that an engine had a part in. One that fails leaves the session as it was
(`Session.initialization`).

A state is started over by writing to its fields one after the other. `State.startInPlace` does it
that way, and `State.startInPlace_eq` says that no field is forgotten. -/

namespace Blake2s

variable {σ : Type}

namespace State

/-! ## Field by field -/

/-- Writes zeros over the words and bytes of a state. -/
def wipeInPlace : HashM σ Unit := do
  modify fun s => { s with chain := { s.chain with h := wiped s.chain.h } }
  modify fun s => { s with chain := { s.chain with t := { lo := 0, hi := 0 } } }
  modify fun s => { s with chain := { s.chain with f := { lastBlock := 0, lastNode := 0 } } }
  modify fun s => { s with buffer := wiped s.buffer }
  modify fun s => { s with filled := 0 }
  modify fun s => { s with outlen := 0 }
  modify fun s => { s with lastNode := false }

/-- Gives the fields of a state the values that a parameter block says. -/
def resetInPlace (p : Parameters) (lastNode : Bool) : HashM σ Unit := do
  wipeInPlace
  modify fun s => { s with chain := { s.chain with h := p.chainValue } }
  modify fun s => { s with outlen := p.digestLength.toNat }
  modify fun s => { s with lastNode }

/-- Initializes a state by writing to the fields that it has. -/
def startInPlace (engine : Engine σ) (p : Parameters) (key : Bytes) (lastNode : Bool) :
    HashM σ Unit := do
  if key.length ≠ p.keyLength.toNat then throw .keyMismatch
  resetInPlace p lastNode
  unless key.isEmpty do update engine (key.padTo blockBytes)

/-- Written one after the other, no field is missed. -/
theorem wipeInPlace_eq : (wipeInPlace : HashM σ Unit) = wipe := by
  refine HashM.ext fun s m => ?_
  simp only [wipeInPlace, wipe, HashM.runOn_bind, HashM.runOn_modify]

theorem resetInPlace_eq (p : Parameters) (lastNode : Bool) :
    (resetInPlace p lastNode : HashM σ Unit) = set (ofParameters p lastNode) := by
  rw [resetInPlace, wipeInPlace_eq, wipe_eq]
  rfl

theorem startInPlace_eq (e : Engine σ) : startInPlace e = start e := by
  funext p key lastNode
  rw [startInPlace, start, resetInPlace_eq]

/-! ## What a started state holds -/

/-- The state that an initialization leaves. -/
def started (p : Parameters) (key : Bytes) (lastNode : Bool) : State :=
  if key.isEmpty then ofParameters p lastNode
  else (ofParameters p lastNode).kept (key.padTo blockBytes)

section Started

variable {p : Parameters} {key : Bytes} (lastNode : Bool)

theorem length_padTo_key (hkey : key.length = p.keyLength.toNat) :
    (key.padTo blockBytes).length = 64 := by
  have short : key.length ≤ 32 := hkey ▸ p.keyLength_le
  rw [Bytes.length_padTo]
  exact Nat.max_eq_left (Nat.le_trans short (by decide))

/-- The key block fits in the empty buffer, so the engine is not asked. -/
theorem runOn_start (hkey : key.length = p.keyLength.toNat) (e : Engine σ) (s : State) (m : σ) :
    (start e p key lastNode).runOn s m = ((.ok (), started p key lastNode), m) := by
  have fits : (key.padTo blockBytes).length ≤ 64 - (ofParameters p lastNode).filled :=
    Nat.le_of_eq (length_padTo_key hkey)
  unfold start started
  rw [if_neg (not_not.mpr hkey), HashM.runOn_bind, HashM.runOn_set]
  by_cases empty : key.isEmpty
  · rw [if_pos empty, if_pos empty]
    rfl
  · rw [if_neg empty, if_neg empty]
    exact update_of_le (outlen_ofParameters_ne p lastNode) fits m

/-- A state has its buffer full of the key block, and has counted nothing of it yet. -/
structure HoldsKey (s : State) (key : Bytes) : Prop where
  buffer : s.buffer.toList = key ++ Bytes.zeros (64 - key.length)
  filled : s.filled = 64
  counter : s.chain.t = { lo := 0, hi := 0 }

theorem holdsKey_started (hkey : key.length = p.keyLength.toNat) (nonempty : key ≠ []) :
    (started p key lastNode).HoldsKey key := by
  have length := length_padTo_key hkey
  rw [started, if_neg (by rwa [List.isEmpty_iff])]
  refine ⟨?_, (Nat.zero_add _).trans length, rfl⟩
  have whole := Block.toList_write Block.zero (Nat.le_of_eq ((Nat.zero_add _).trans length))
  rw [Nat.zero_add, length, List.drop_eq_nil_of_le (Nat.le_of_eq Vector.length_toList),
    List.append_nil] at whole
  exact whole

end Started

end State

/-! ## Which initializations succeed -/

namespace Setup

/-- The arguments that an initialization accepts. -/
def Valid : Setup → Prop
  | plain outlen => 1 ≤ outlen ∧ outlen ≤ outBytes
  | keyed outlen key =>
    (1 ≤ outlen ∧ outlen ≤ outBytes) ∧ 1 ≤ key.length ∧ key.length ≤ keyBytes
  | parameters p key _ => key.length = p.keyLength.toNat

/-- An initialization, given what starts a state over under a parameter block. -/
def applyWith (start : Parameters → Bytes → Bool → HashM σ Unit) : Setup → HashM σ Unit
  | plain outlen => do
    let _ ← outputLength outlen
    start (← Parameters.ofFields { digestLength := outlen }) [] false
  | keyed outlen key => do
    let _ ← outputLength outlen
    if key.length < 1 ∨ keyBytes < key.length then throw .keyLength
    start (← Parameters.ofFields { digestLength := outlen, keyLength := key.length }) key false
  | parameters p key lastNode => start p key lastNode

theorem apply_eq_applyWith (e : Engine σ) (setup : Setup) :
    setup.apply e = setup.applyWith (State.start e) := by
  cases setup <;> rfl

theorem applyWith_startInPlace (e : Engine σ) (setup : Setup) :
    setup.applyWith (State.startInPlace e) = setup.apply e := by
  rw [State.startInPlace_eq, apply_eq_applyWith]

/-- Valid arguments come to a parameter block that is about a key of the given length. -/
theorem exists_apply_eq_start {setup : Setup} (valid : setup.Valid) :
    ∃ p lastNode, setup.key.length = p.keyLength.toNat ∧
      ∀ {τ : Type} (e : Engine τ), setup.apply e = State.start e p setup.key lastNode := by
  cases setup with
  | plain outlen =>
    obtain ⟨p, -, keyLength, started⟩ := State.exists_init_eq_start valid
    exact ⟨p, false, keyLength.symm, started⟩
  | keyed outlen key =>
    obtain ⟨houtlen, hkey⟩ := valid
    have accepted : ¬(key.length < 1 ∨ keyBytes < key.length) := by omega
    obtain ⟨p, -, keyLength, started⟩ := State.exists_initKeyed_eq_start houtlen accepted
    exact ⟨p, false, keyLength.symm, started⟩
  | parameters p key lastNode => exact ⟨p, lastNode, valid, fun _ => rfl⟩

/-- They make every state the same one, whatever the engine is. -/
theorem apply_of_valid {setup : Setup} (valid : setup.Valid) :
    ∃ s' : State, (setup.key ≠ [] → s'.HoldsKey setup.key) ∧
      ∀ {τ : Type} (e : Engine τ) (s : State) (m : τ),
        (setup.apply e).runOn s m = ((.ok (), s'), m) := by
  obtain ⟨p, lastNode, hkey, started⟩ := exists_apply_eq_start valid
  refine ⟨State.started p setup.key lastNode, State.holdsKey_started lastNode hkey, fun e s m => ?_⟩
  rw [started, State.runOn_start lastNode hkey]

/-- Other arguments are refused before anything is written. -/
theorem refused_of_not_valid {setup : Setup} (invalid : ¬setup.Valid) :
    ∃ fault : Fault, fault.kind = .parameter ∧ ∀ e : Engine σ, (setup.apply e).Refused fault := by
  cases setup with
  | plain outlen => exact ⟨.outputLength, rfl, fun e => State.refused_init invalid⟩
  | keyed outlen key =>
    by_cases h : 1 ≤ outlen ∧ outlen ≤ outBytes
    · have hkey : key.length < 1 ∨ keyBytes < key.length := by
        by_contra accepted
        exact invalid ⟨h, by omega⟩
      exact ⟨.keyLength, rfl, fun e => State.refused_initKeyed_of_key h hkey⟩
    · exact ⟨.outputLength, rfl, fun e => State.refused_initKeyed h key⟩
  | parameters p key lastNode =>
    exact ⟨.keyMismatch, rfl, fun e => State.refused_start invalid lastNode⟩

end Setup

/-! ## In a session -/

namespace Session

/-- **Initialization forgets the past and is atomic.** Written field by field it is the same
    operation. In every session, and whatever the state under the name is, it succeeds exactly if
    its arguments are valid. A call that fails is a fault of the caller and leaves the session as it
    was. A call that succeeds leaves the host, everything under other names and the pin alone; it
    leaves the state as the same call leaves a fresh one with any engine at all, even one that
    always fails, and no engine gets to see it. With a key the buffer is the padded key and no byte
    is counted. -/
theorem initialization (A : Session) (name : String) (setup : Setup) :
    let run := Action.runOn (onState name fun e => setup.apply e) A
    let after := run.2
    (∀ {τ : Type} (e : Engine τ), setup.applyWith (State.startInPlace e) = setup.apply e) ∧
    (run.1 = .ok () ↔ setup.Valid) ∧
    (¬setup.Valid → (∃ fault, run.1 = .error fault ∧ fault.kind = .parameter) ∧ A.Same after) ∧
    (setup.Valid →
      after.host = A.host ∧ after.hashers = A.hashers ∧
      (∀ other, other ≠ name → after.holder other = A.holder other) ∧
      (after.holder name).pin = (A.holder name).pin ∧
      (∀ {τ : Type} (e : Engine τ) (m : τ),
        (setup.apply e).runOn {} m = ((.ok (), after.state name), m)) ∧
      (setup.key ≠ [] → (after.state name).HoldsKey setup.key)) := by
  intro run after
  have runs : run = _ := runOn_onState name (fun e => setup.apply e) A
  by_cases valid : setup.Valid
  · obtain ⟨s', key, apply⟩ := Setup.apply_of_valid valid
    have done : run = (.ok (), A.put name s' A.host) := by rw [runs, apply]
    have left : after = A.put name s' A.host := congrArg Prod.snd done
    have state : after.state name = s' := by rw [left, state_put]
    refine ⟨fun e => Setup.applyWith_startInPlace e setup, ⟨fun _ => valid, fun _ => by rw [done]⟩,
      absurd valid, fun _ => ?_⟩
    rw [state, left]
    exact ⟨rfl, rfl, fun other ne => holder_put_of_ne ne.symm s' A.host,
      pin_put A name s' A.host name, fun e m => apply e {} m, key⟩
  · obtain ⟨fault, kind, refused⟩ := Setup.refused_of_not_valid (σ := Host) valid
    have done : run = (.error fault, A.put name (A.state name) A.host) := by
      rw [runs, refused (A.engine name)]
    have failed : run.1 = .error fault := congrArg Prod.fst done
    have left : after = A.put name (A.state name) A.host := congrArg Prod.snd done
    refine ⟨fun e => Setup.applyWith_startInPlace e setup,
      ⟨fun ok => absurd (failed.symm.trans ok) nofun, (absurd · valid)⟩,
      fun _ => ⟨⟨fault, failed, kind⟩, ?_⟩, (absurd · valid)⟩
    rw [left]
    exact A.same_put_self name

end Session

end Blake2s
