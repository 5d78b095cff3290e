import Blake2s.Proofs.Session.Resembling

set_option autoImplicit false

/-! # After a failure

What a failed call leaves behind resembles what was there before it. So a failed update can be
ignored, whatever comes next (`Session.failed_update`). So can a finish that was refused; but one that
failed in a detection has set the flags of its state already, and that can be ignored only as long as
no update compresses a block (`Session.failed_final`). -/

namespace Blake2s

/-! ## Uses of one state -/

/-- A use of a state, as a command on the state under a name. -/
def State.Use.command (name : String) : State.Use → Command
  | update data => .update name data
  | final requested => .final name requested

/-- What a command replies to a use. -/
def State.Use.reply : Option Bytes → Reply
  | none => .done
  | some digest => .bytes digest

namespace Session

open State (Use)

theorem step_use (use : Use) (name : String) (A : Session) :
    A.step (use.command name)
      = A.putBack name Use.reply ((use.perform (A.engine name)).runOn (A.state name) A.host) := by
  cases use with
  | update data =>
    rw [Use.command, step_update, Use.perform, HashM.runOn_bind]
    rcases (State.update (A.engine name) data).runOn (A.state name) A.host with ⟨⟨_ | _, _⟩, _⟩ <;>
      rfl
  | final requested =>
    rw [Use.command, step_final, Use.perform, State.final, HashM.runOn_bind]
    rcases (State.finalWithin (A.engine name) requested none).runOn (A.state name) A.host with
      ⟨⟨_ | _, _⟩, _⟩ <;> rfl

/-- Commands on one state have the outcomes of its uses. -/
theorem outcomes_uses (uses : List Use) (name : String) (A : Session) :
    outcomes (uses.map (Use.command name)) A
      = (State.outcomes (A.engine name) uses (A.state name) A.host).map (Except.map Use.reply) := by
  induction uses generalizing A with
  | nil => rfl
  | cons use uses ih =>
    have engine (s : State) (q : Host) : (A.put name s q).engine name = A.engine name := by
      rw [Session.engine, pin_put, Session.engine]
    rw [List.map_cons, outcomes, ih, step_use, putBack, engine, state_put]
    rfl

/-- The uses of the fresh state after a repair of its environment. -/
theorem outcomes_repaired {C : Session} (host : C.host = misconfigured.host)
    (pin : (C.holder "s").pin = none) (environment : Environment) (uses : List Use) :
    outcomes (.setEnvironment environment :: uses.map (Use.command "s")) C
      = .ok .done :: (State.outcomes (Host.engine none) uses (C.state "s") { environment }).map
          (Except.map Use.reply) := by
  have repaired := outcomes_uses uses "s" (C.step (.setEnvironment environment)).2
  change _ = (State.outcomes (Host.engine (C.holder "s").pin) uses (C.state "s")
    { C.host with environment }).map _ at repaired
  rw [host, host_misconfigured, pin] at repaired
  exact congrArg (.ok .done :: ·) repaired

/-- The digest that a command has returned. -/
def digestOf : Except Fault Reply → Option Bytes
  | .ok (.bytes digest) => some digest
  | _ => none

/-! ## Failed calls -/

section Failed

variable {A B : Session} {r : Record} {name : String} {fault : Fault}

theorem Reachable.fits (reachable : A.Reachable Command.Plain r) (name : String) :
    (A.state name).filled ≤ 64 :=
  (reachable.tracks name).fits

/-- An update that has topped off the buffer has found out by what to compress. -/
theorem compressAhead_after_topOff {data rest : Bytes} {s : State} {p : Host}
    (run : (State.topOff (A.engine name) data).runOn (A.state name) A.host = ((.ok rest, s), p)) :
    ∃ rest' s' q,
      (State.compressAhead (A.engine name) rest).runOn s p = ((.ok rest', s'), q) := by
  by_cases short : data.length ≤ 64 - (A.state name).filled
  · rw [State.runOn_topOff_of_le short] at run
    cases run
    exact ⟨_, _, _, State.runOn_compressAhead_of_le (by omega) _ _⟩
  rw [State.runOn_topOff_of_lt (Nat.lt_of_not_le short), engine] at run
  rcases Host.resolves_or_failsAs (A.holder name).pin A.host with resolves | ⟨fault, q, fails⟩
  · have total := Host.engine_total (A.holder name).pin
    obtain ⟨chain, q, asked, resolves'⟩ := total (A.state name).chain
      (State.bufferBatch ((A.state name).toppedOff data) 64) A.host resolves
    rw [asked] at run
    cases run
    exact State.compressAhead_of_total total resolves' _ _
  · rw [fails.failsAt] at run
    cases run

/-- **A failed update can be ignored.** What it fails with is the first detection of a backend, by a
    setting or a self-test. The state is what it was, except for bytes of the buffer that no input is
    in, and whatever comes later has the same outcomes as without the failed call. An update never
    fails half way: if topping off the buffer succeeds, so does compressing the blocks after it. -/
theorem failed_update (reachable : A.Reachable Command.Plain r)
    (live : (A.state name).outlen ≠ 0) (data : Bytes) :
    (∀ fault B, A.step (.update name data) = (.error fault, B) →
      ((A.holder name).pin = none ∧ A.host.selection = .undetected ∧
        Action.runOn (Host.detect none) A.host = (.error fault, B.host) ∧
        (fault.kind = .parameter ∨ fault.kind = .selfTest)) ∧
      (A.state name).Agrees (B.state name) ∧
      ∀ later, (∀ c ∈ later, c.Plain) → outcomes later B = outcomes later A) ∧
    (∀ rest s p,
      (State.topOff (A.engine name) data).runOn (A.state name) A.host = ((.ok rest, s), p) →
      ∃ rest' s' q,
        (State.compressAhead (A.engine name) rest).runOn s p = ((.ok rest', s'), q)) := by
  refine ⟨fun fault B failed => ?_, fun rest s p => compressAhead_after_topOff⟩
  have fits := reachable.fits
  rw [step_update] at failed
  obtain ⟨s, q, run, -⟩ | ⟨fault', q, fails, long, run⟩ :=
    Host.update_or_failsAs (A.holder name).pin A.host live (fits name) data
  · rw [engine, run] at failed
    cases failed
  · rw [engine, run] at failed
    cases failed
    have kept : (A.state name).Resembles False
        { A.state name with buffer := (A.state name).toppedOff data } :=
      .of_content (State.content_topOff (fits name) long) rfl (fits name)
    have same : A.Resembles False (A.put name _ q) := .put fits fails.sameButLog kept
    refine ⟨⟨fails.unpinned, fails.undetected, fails.detect,
      Host.kind_of_detect_error fails.detect⟩, (same.state name).agrees, fun later plain => ?_⟩
    exact same.outcomes_eq plain (same.sparesAll plain)

/-- An update that fails in a broken environment, and the same update again in a repaired one. -/
theorem failed_update_retried :
    let A := misconfigured
    let data := Bytes.zeros 65
    let later : List Command := [.setEnvironment {}, .update "s" data, .final "s" none]
    (∃ r, A.Reachable Command.Plain r) ∧ (A.state "s").outlen ≠ 0 ∧
      (A.step (.update "s" data)).1 = .error (.minBlocksText "x") ∧
      outcomes later (A.step (.update "s" data)).2 = outcomes later A := by
  intro A data later
  have reachable : A.Reachable Command.Plain _ := reachable_misconfigured trivial trivial
  have live := live_misconfigured
  have long : 64 < data.length := by decide
  have failed := step_update_misconfigured long
  obtain ⟨ignored, -⟩ := failed_update reachable live data
  obtain ⟨-, -, same⟩ := ignored _ _ failed
  refine ⟨⟨_, reachable⟩, live, congrArg Prod.fst failed, ?_⟩
  rw [failed]
  exact same later (by simp [later, Command.Plain])

/-- **A failed finish.** If it was refused, for the length or for the room, nothing has changed, and
    whatever comes later has the same outcomes as without it. Otherwise it fails with the first
    detection of a backend. Then the last block of the state is closed already: its flags are set, and
    all else that matters is as before. What comes later has the same outcomes as without the failed
    call as long as no update compresses a block under such flags. -/
theorem failed_final (reachable : A.Reachable Command.Plain r) (live : (A.state name).outlen ≠ 0)
    {requested : Option Int} {c : Command}
    (finishes : c = .final name requested ∨ ∃ out, c = .finalInto name out requested)
    (failed : A.step c = (.error fault, B)) :
    let s := A.state name
    let s' := B.state name
    ((fault = .outputLength ∨ ∃ n, fault = .outputRoom n) ∧ A.Same B ∧
      ∀ later, (∀ c ∈ later, c.Plain) → outcomes later B = outcomes later A) ∨
    (((A.holder name).pin = none ∧ A.host.selection = .undetected ∧
        Action.runOn (Host.detect none) A.host = (.error fault, B.host) ∧
        (fault.kind = .parameter ∨ fault.kind = .selfTest)) ∧
      (s'.chain = { s.chain with
          f := { lastBlock := wordMask
                 lastNode := if s.lastNode then wordMask else s.chain.f.lastNode } } ∧
        s'.filled = s.filled ∧ s'.outlen = s.outlen ∧ s'.lastNode = s.lastNode ∧
        s'.buffer.toList.take s'.filled = s.buffer.toList.take s.filled) ∧
      ∀ later, (∀ c ∈ later, c.Plain) → SparesAll later A B →
        outcomes later B = outcomes later A) := by
  intro s s'
  have fits := reachable.fits
  obtain ⟨room, reply, finish⟩ : ∃ room, ∃ reply : Bytes → Reply, A.step c
      = A.putBack name reply ((State.finalWithin (A.engine name) requested room).runOn s A.host) := by
    obtain rfl | ⟨out, rfl⟩ := finishes
    · exact ⟨none, _, step_final name requested A⟩
    · exact ⟨some out.length, _, step_finalInto name out requested A⟩
  rw [finish] at failed
  obtain ⟨fault', length, run⟩ | ⟨digest, q, run⟩ | ⟨fault', q, fails, -, run⟩ :=
    Host.finalWithin_or_failsAs (A.holder name).pin A.host s requested room
  · rw [engine, run] at failed
    cases failed
    have same : A.Resembles False (A.put name s A.host) :=
      .put fits (.refl A.host) (.refl (fits name))
    refine .inl ⟨State.eq_of_finalLength_error live length, A.same_put_self name, ?_⟩
    exact fun later plain => same.outcomes_eq plain (same.sparesAll plain)
  · rw [engine, run] at failed
    cases failed
  · rw [engine, run] at failed
    cases failed
    have same : A.Resembles True (A.put name s.closeLastBlock q) :=
      .put fits fails.sameButLog (.closed (fits name))
    have after : s' = s.closeLastBlock := state_put A name s.closeLastBlock q
    have closed := same.state name
    refine .inr ⟨⟨fails.unpinned, fails.undetected, fails.detect,
      Host.kind_of_detect_error fails.detect⟩, ⟨?_, closed.filled, closed.outlen, closed.lastNode,
      closed.input⟩, fun later plain spares => same.outcomes_eq plain spares⟩
    rw [after]
    rfl

/-- A finish that fails in a broken environment can be ignored within the block. -/
theorem failed_final_retried :
    let A := misconfigured
    let B := (A.step (.final "s" none)).2
    let later : List Command := [.setEnvironment {}, .update "s" (Bytes.zeros 64), .final "s" none]
    (∃ r, A.Reachable Command.Plain r) ∧ (A.state "s").outlen ≠ 0 ∧
      (A.step (.final "s" none)).1 = .error (.minBlocksText "x") ∧
      (B.state "s").chain.f.lastBlock = wordMask ∧ outcomes later B = outcomes later A := by
  intro A B later
  have reachable : A.Reachable Command.Plain _ := reachable_misconfigured trivial trivial
  have live := live_misconfigured
  have outcome : (A.step (.final "s" none)).1 = .error (.minBlocksText "x") :=
    congrArg Prod.fst step_final_misconfigured
  have failed : A.step (.final "s" none) = (.error (.minBlocksText "x"), B) :=
    Prod.ext outcome rfl
  obtain ⟨refused, -⟩ | ⟨-, ⟨chain, -⟩, same⟩ := failed_final reachable live (.inl rfl) failed
  · obtain length | ⟨n, room⟩ := refused
    · cases length
    · cases room
  have room : (A.state "s").filled + (Bytes.zeros 64).length ≤ 64 := by
    rw [fresh_misconfigured.2]
    decide
  have spares : SparesAll later A B := ⟨trivial, .inr (.inl room), trivial, trivial⟩
  refine ⟨⟨_, reachable⟩, live, outcome, congrArg (·.f.lastBlock) chain, ?_⟩
  exact same later (by simp [later, Command.Plain]) spares

/-- **Past the block the state is spoilt**: its flags stay set, and the block that the next update
    compresses is taken for the last one. -/
theorem failed_final_spoils :
    let A := misconfigured
    let B := (A.step (.final "s" none)).2
    let later : List Command :=
      [.setEnvironment { noSimd := some "1" }, .update "s" (Bytes.zeros 65), .final "s" none]
    (∃ r, A.Reachable Command.Plain r) ∧ (A.state "s").outlen ≠ 0 ∧
      (A.step (.final "s" none)).1 = .error (.minBlocksText "x") ∧
      (B.state "s").chain.f ≠ (A.state "s").chain.f ∧ outcomes later B ≠ outcomes later A := by
  intro A B later
  have failed : A.step (.final "s" none) = _ := step_final_misconfigured
  have after : B = A.put "s" (A.state "s").closeLastBlock A.host := congrArg Prod.snd failed
  have state : A.state "s" = _ := state_misconfigured
  refine ⟨⟨_, reachable_misconfigured trivial trivial⟩, live_misconfigured,
    congrArg Prod.fst failed, ?_, fun same => ?_⟩
  · rw [after, state_put, state]
    decide +kernel
  · have pin : (B.holder "s").pin = none := by
      rw [after, pin_put]
      exact pin_misconfigured
    have host : B.host = misconfigured.host := by
      rw [after]
      rfl
    let uses : List Use := [.update (Bytes.zeros 65), .final none]
    have spoilt : outcomes later B = _ := outcomes_repaired host pin _ uses
    have unspoilt : outcomes later A = _ := outcomes_repaired rfl pin_misconfigured _ uses
    have digests := congrArg (List.map digestOf) same
    rw [spoilt, unspoilt, after, state_put, state] at digests
    revert digests
    decide +kernel

end Failed

end Session

end Blake2s
