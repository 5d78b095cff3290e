import Blake2s.Proofs.Session.Hashers
import Blake2s.Proofs.Session.Runs
import Blake2s.Proofs.State.Chunks

set_option autoImplicit false

/-! # Sessions that resemble each other

Two sessions *resemble* each other if their hosts differ in the log at most and their states in bytes
of the buffer that no input is in, and, if the states may be `spoilt`, in flags that finishing sets
anyway. A command has the same outcome in both, and they resemble each other after it
(`Session.Resembles.step`). There is one exception: an update that compresses a block, of a state with
other flags (`Session.Spares`). -/

namespace Blake2s

attribute [ext] Chain State

/-! ## Resembling states -/

namespace State

/-- Do two states agree, except for what is left over in their buffers, and, if they may be spoilt,
    for flags that closing the last block sets anyway? -/
structure Resembles (spoilt : Prop) (s s' : State) : Prop where
  h : s'.chain.h = s.chain.h
  t : s'.chain.t = s.chain.t
  f : s'.chain.f = s.chain.f ∨ spoilt ∧ s'.closeLastBlock.chain.f = s.closeLastBlock.chain.f
  filled : s'.filled = s.filled
  outlen : s'.outlen = s.outlen
  lastNode : s'.lastNode = s.lastNode
  input : s'.content.input = s.content.input
  fits : s.filled ≤ 64

variable {spoilt : Prop} {s s' : State}

namespace Resembles

theorem refl (fits : s.filled ≤ 64) : s.Resembles spoilt s where
  h := rfl
  t := rfl
  f := .inl rfl
  filled := rfl
  outlen := rfl
  lastNode := rfl
  input := rfl
  fits := fits

theorem of_content (same : s'.content = s.content) (filled : s'.filled = s.filled)
    (fits : s.filled ≤ 64) : s.Resembles spoilt s' where
  h := congrArg (·.chain.h) same
  t := congrArg (·.chain.t) same
  f := .inl (congrArg (·.chain.f) same)
  filled := filled
  outlen := congrArg Content.outlen same
  lastNode := congrArg Content.lastNode same
  input := congrArg Content.input same
  fits := fits

theorem of_holds {c : Content} (h : s.Holds c) (h' : s'.Holds c) : s.Resembles spoilt s' :=
  of_content (h'.content.trans h.content.symm) (h'.length_input.symm.trans h.length_input) h.fits

theorem fits' (same : s.Resembles spoilt s') : s'.filled ≤ 64 := by
  rw [same.filled]
  exact same.fits

theorem agrees (same : s.Resembles False s') : s.Agrees s' where
  chain := by
    have f : s'.chain.f = s.chain.f := same.f.resolve_right And.left
    exact Chain.ext same.h.symm same.t.symm f.symm
  filled := same.filled.symm
  outlen := same.outlen.symm
  lastNode := same.lastNode.symm
  input := same.input.symm

/-- Once the last block is closed, there is no difference. -/
theorem closeLastBlock_eq (same : s.Resembles spoilt s') :
    s'.closeLastBlock = s.closeLastBlock := by
  have f : s'.closeLastBlock.chain.f = s.closeLastBlock.chain.f := by
    rcases same.f with f | ⟨-, closed⟩
    · simp only [closeLastBlock, f, same.lastNode]
    · exact closed
  have buffer : s'.closeLastBlock.buffer = s.closeLastBlock.buffer := by
    rw [buffer_closeLastBlock same.fits', buffer_closeLastBlock same.fits, same.input]
  have chain : s'.closeLastBlock.chain = s.closeLastBlock.chain := Chain.ext same.h same.t f
  exact State.ext chain buffer same.filled same.outlen same.lastNode

/-- Closing the last block sets flags that finishing sets anyway. -/
theorem closed (fits : s.filled ≤ 64) : s.Resembles True s.closeLastBlock where
  h := rfl
  t := rfl
  f := by
    refine .inr ⟨trivial, ?_⟩
    cases last : s.lastNode <;> simp [closeLastBlock, last]
  filled := rfl
  outlen := rfl
  lastNode := rfl
  input := by rw [content_closeLastBlock fits]
  fits := fits

/-- The same input put in both buffers. -/
theorem edit (same : s.Resembles spoilt s') {b b' : Block} {n n' : Nat} (filled : n' = n)
    (fits : n ≤ 64) (input : b'.toList.take n' = b.toList.take n) :
    State.Resembles spoilt { s with buffer := b, filled := n }
      { s' with buffer := b', filled := n' } where
  h := same.h
  t := same.t
  f := same.f
  filled := filled
  outlen := same.outlen
  lastNode := same.lastNode
  input := input
  fits := fits

theorem topOff (same : s.Resembles spoilt s') {data : Bytes} (long : 64 - s.filled < data.length) :
    State.Resembles spoilt { s with buffer := s.toppedOff data }
      { s' with buffer := s'.toppedOff data } := by
  refine same.edit same.filled same.fits ?_
  have content := content_topOff same.fits long
  have content' := content_topOff same.fits' (same.filled ▸ long)
  exact (congrArg Content.input content').trans
    (same.input.trans (congrArg Content.input content).symm)

theorem kept (same : s.Resembles spoilt s') {data : Bytes} (room : s.filled + data.length ≤ 64) :
    (s.kept data).Resembles spoilt (s'.kept data) := by
  have room' : s'.filled + data.length ≤ 64 := by
    rw [same.filled]
    exact room
  refine same.edit (congrArg (· + data.length) same.filled) room ?_
  have content := content_kept room
  have content' := content_kept room'
  refine (congrArg Content.input content').trans (Eq.trans ?_ (congrArg Content.input content).symm)
  exact congrArg (· ++ data) same.input

end Resembles

/-- States with the same chain differ in leftover bytes only, and topping off the buffer overwrites
    those. -/
theorem update_congr {σ : Type} (same : s.Resembles spoilt s') (chain : s'.chain = s.chain)
    (live : s.outlen ≠ 0) {data : Bytes} (long : 64 - s.filled < data.length) (e : Engine σ) (m : σ) :
    (update e data).runOn s' m = (update e data).runOn s m := by
  have topped : s'.toppedOff data = s.toppedOff data := by
    rw [toppedOff_eq_ofBytes same.fits' (same.filled ▸ long), toppedOff_eq_ofBytes same.fits long,
      same.input]
  have buffer : s' = { s with buffer := s'.buffer } :=
    State.ext chain rfl same.filled same.outlen same.lastNode
  have live' : s'.outlen ≠ 0 := by
    rw [same.outlen]
    exact live
  rw [update_of_lt live' (same.filled ▸ long), update_of_lt live long, topped, chain]
  rw [buffer]

end State

/-! ## Operations on resembling states -/

/-- Runs with the same outcome that leave resembling states, and the same host but for the log. -/
structure HashM.Matches {α : Type} (spoilt : Prop) (run run' : (Except Fault α × State) × Host) :
    Prop where
  outcome : run.1.1 = run'.1.1
  state : run.1.2.Resembles spoilt run'.1.2
  host : run.2.SameButLog run'.2

namespace State.Resembles

variable {spoilt : Prop} {s s' : State} (same : s.Resembles spoilt s') {p q : Host}
  (hosts : p.SameButLog q)

include same hosts

theorem starts {x : HashM Host Unit} {key : Bytes} (starts : x.Starts key) :
    HashM.Matches spoilt (x.runOn s p) (x.runOn s' q) := by
  cases starts with
  | started _ lastNode run =>
    obtain ⟨s₁, run₁, holds₁⟩ := run s p
    obtain ⟨s₂, run₂, holds₂⟩ := run s' q
    rw [run₁, run₂]
    exact ⟨rfl, of_holds holds₁ holds₂, hosts⟩
  | refused fault run =>
    rw [run s p, run s' q]
    exact ⟨rfl, same, hosts⟩

theorem finalWithin (pin : Option BackendId) (requested : Option Int) (room : Option Nat) :
    HashM.Matches spoilt ((State.finalWithin (Host.engine pin) requested room).runOn s p)
      ((State.finalWithin (Host.engine pin) requested room).runOn s' q) := by
  rw [finalWithin_eq, finalWithin_eq, same.outlen]
  cases finalLength s.outlen requested room with
  | error fault => exact ⟨rfl, same, hosts⟩
  | ok n =>
    dsimp only
    have closed := same.closeLastBlock_eq
    obtain ⟨outcome, hosts'⟩ := Host.SameButLog.alike_engine pin s.closeLastBlock.chain
      (bufferBatch s.closeLastBlock.buffer s.filled) p q hosts
    rw [runOn_finish, runOn_finish, closed, same.filled]
    rcases hp : Action.runOn (Host.engine pin s.closeLastBlock.chain
      (bufferBatch s.closeLastBlock.buffer s.filled)) p with ⟨result, p'⟩
    rcases hq : Action.runOn (Host.engine pin s.closeLastBlock.chain
      (bufferBatch s.closeLastBlock.buffer s.filled)) q with ⟨result', q'⟩
    rw [hp, hq] at outcome hosts'
    obtain rfl : result = result' := outcome
    cases result with
    | error fault => exact ⟨rfl, .refl same.fits, hosts'⟩
    | ok chain => exact ⟨rfl, .refl (Nat.zero_le 64), hosts'⟩

/-- The states must have the same flags if a block is compressed. -/
theorem update (pin : Option BackendId) {data : Bytes}
    (spared : s'.chain.f = s.chain.f ∨ s.filled + data.length ≤ 64 ∨
      ∃ fault, ((State.update (Host.engine pin) data).runOn s p).1.1 = .error fault) :
    HashM.Matches spoilt ((State.update (Host.engine pin) data).runOn s p)
      ((State.update (Host.engine pin) data).runOn s' q) := by
  by_cases live : s.outlen = 0
  · rw [update_of_eq live, update_of_eq (same.outlen.trans live)]
    exact ⟨rfl, same, hosts⟩
  have live' : s'.outlen ≠ 0 := by
    rw [same.outlen]
    exact live
  have fits := same.fits
  by_cases short : data.length ≤ 64 - s.filled
  · rw [update_of_le live short, update_of_le live' (same.filled ▸ short)]
    exact ⟨rfl, same.kept (by omega), hosts⟩
  have long : 64 - s.filled < data.length := Nat.lt_of_not_le short
  obtain ⟨s₁, p₁, run, fits₁, -⟩ | ⟨fault, p₁, fails, -, run⟩ :=
    Host.update_or_failsAs pin p live fits data
  · -- a block is compressed, and the compression reads the flags
    have f : s'.chain.f = s.chain.f := by
      rcases spared with f | room | ⟨fault, failed⟩
      · exact f
      · omega
      · rw [run] at failed
        cases failed
    obtain ⟨outcome, hosts'⟩ :=
      State.alike_update (Host.SameButLog.alike_engine pin) data s p q hosts
    rw [update_congr same (Chain.ext same.h same.t f) live long]
    refine ⟨congrArg Prod.fst outcome, ?_, hosts'⟩
    rw [← congrArg Prod.snd outcome, run]
    exact .refl fits₁
  · -- the other host fails in the same way, before it reads anything of the state
    obtain ⟨outcome, hosts'⟩ := Host.SameButLog.alike_resolve pin p q hosts
    rw [fails.runOn_resolve] at outcome hosts'
    rcases resolved : Action.runOn (Host.resolve pin) q with ⟨choice, q₁⟩
    rw [resolved] at outcome hosts'
    obtain rfl : .error fault = choice := outcome
    have fails' := Host.failsAt_of_resolve resolved
    have run' := update_of_lt (e := Host.engine pin) live' (same.filled ▸ long) q
    rw [fails'] at run'
    rw [run, run']
    exact ⟨rfl, same.topOff long, hosts'⟩

end State.Resembles

/-! ## Resembling sessions -/

namespace Session

/-- Are two sessions the same, but for the log, and for states that resemble each other? -/
structure Resembles (spoilt : Prop) (A B : Session) : Prop where
  host : A.host.SameButLog B.host
  state : ∀ name, (A.state name).Resembles spoilt (B.state name)
  pin : ∀ name, (B.holder name).pin = (A.holder name).pin
  hashers : A.hashers = B.hashers

/-- Unless a command is an update that compresses a block, flags do not matter to it. -/
def Spares (A B : Session) : Command → Prop
  | .update name data =>
    (B.state name).chain.f = (A.state name).chain.f ∨ (A.state name).filled + data.length ≤ 64 ∨
      ∃ fault, (A.step (.update name data)).1 = .error fault
  | _ => True

namespace Resembles

variable {spoilt : Prop} {A B : Session} {c : Command}

theorem lifts : Lifts Host.SameButLog (Resembles spoilt) where
  host same := same.host
  hashers same := same.hashers
  withHosts same hosts := ⟨hosts, same.state, same.pin, same.hashers⟩
  withHasher same name hasher :=
    ⟨same.host, same.state, same.pin, congrArg (·.insert name hasher) same.hashers⟩

theorem insert (same : A.Resembles spoilt B) {p q : Host} (hosts : p.SameButLog q) (name : String)
    {x y : Holder} (state : x.state.Resembles spoilt y.state) (pin : y.pin = x.pin) :
    Resembles spoilt { A with host := p, states := A.states.insert name x }
      { B with host := q, states := B.states.insert name y } where
  host := hosts
  state other := by
    rw [state_insert, state_insert]
    split
    · exact state
    · exact same.state other
  pin other := by
    rw [holder_insert, holder_insert]
    split
    · exact pin
    · exact same.pin other
  hashers := same.hashers

theorem putBack (same : A.Resembles spoilt B) {α : Type} {run run' : (Except Fault α × State) × Host}
    (h : HashM.Matches spoilt run run') (name : String) (reply : α → Reply) :
    (A.putBack name reply run).1 = (B.putBack name reply run').1 ∧
      (A.putBack name reply run).2.Resembles spoilt (B.putBack name reply run').2 :=
  ⟨congrArg (Except.map reply) h.outcome, same.insert h.host name h.state (same.pin name)⟩

theorem alike_selectedBackend (id : Option BackendId) :
    Action.Alike (Resembles spoilt) (selectedBackend id) (selectedBackend id) :=
  Session.alike_selectedBackend (fun same => same.host.sameSetup.backends) id

theorem alike_setEnvironment (environment : Environment) :
    Action.Alike (Resembles spoilt) (execute (.setEnvironment environment))
      (execute (.setEnvironment environment)) := by
  intro A B same
  have host := same.host
  exact ⟨rfl, ⟨rfl, host.candidate, host.backends, host.selection⟩, same.state, same.pin,
    same.hashers⟩

theorem alike_setCandidate (candidate : Candidate) :
    Action.Alike (Resembles spoilt) (execute (.setCandidate candidate))
      (execute (.setCandidate candidate)) := by
  intro A B same
  have host := same.host
  exact ⟨rfl, ⟨host.environment, rfl, host.backends, host.selection⟩, same.state, same.pin,
    same.hashers⟩

theorem alike_detect (config : Option Config) :
    Action.Alike (Resembles spoilt) (execute (.detect config)) (execute (.detect config)) :=
  .bind (lifts.alike_onHost (Host.SameButLog.alike_detect config)) alike_selectedBackend

theorem alike_hasherCall (call : HasherCall) :
    Action.Alike (Resembles spoilt) call.execute call.execute := by
  refine lifts.alike_hasherCall (Host.SameButLog.alike_engine none)
    Host.SameButLog.alike_activeBackend alike_selectedBackend call fun change _ => ?_
  cases change with
  | environment environment => exact alike_setEnvironment environment
  | candidate available build => exact alike_setCandidate { available, build := fun n => (build n).1 }
  | detect config => exact alike_detect config

/-- **One command**: in sessions that resemble each other it has the same outcome, and they resemble
    each other after it. -/
theorem step (same : A.Resembles spoilt B) (plain : c.Plain) (spares : A.Spares B c) :
    (A.step c).1 = (B.step c).1 ∧ (A.step c).2.Resembles spoilt (B.step c).2 := by
  have engine (name : String) : B.engine name = A.engine name := by
    rw [Session.engine, Session.engine, same.pin]
  cases c with
  | create name backend =>
    rw [step_create, step_create]
    have fresh : State.Resembles spoilt {} {} := .refl (Nat.zero_le 64)
    have host := same.host
    cases backend with
    | none => exact ⟨rfl, same.insert host name fresh rfl⟩
    | some backend =>
      have hosts : Host.SameButLog
          { A.host with backends := A.host.backends.push { backend } }
          { B.host with backends := B.host.backends.push { backend } } :=
        ⟨host.environment, host.candidate, congrArg (Array.push · { backend }) host.backends,
          host.selection⟩
      have pin : some B.host.backends.size = some A.host.backends.size := by rw [host.backends]
      exact ⟨rfl, same.insert (x := { pin := some A.host.backends.size })
        (y := { pin := some B.host.backends.size }) hosts name fresh pin⟩
  | init name outlen =>
    rw [step_init, step_init, engine]
    exact same.putBack ((same.state name).starts same.host (State.starts_init outlen)) name _
  | initKeyed name outlen key =>
    rw [step_initKeyed, step_initKeyed, engine]
    exact same.putBack ((same.state name).starts same.host (State.starts_initKeyed outlen key)) name _
  | start name fields key lastNode =>
    rw [step_start, step_start, engine]
    cases Parameters.ofFields fields with
    | error fault => exact ⟨rfl, same⟩
    | ok p =>
      have starts := State.starts_start (e := A.engine name) p key lastNode
      exact same.putBack ((same.state name).starts same.host starts) name _
  | update name data =>
    have spared := spares
    rw [Spares, step_update] at spared
    rw [step_update, step_update, engine]
    refine same.putBack ((same.state name).update same.host _ ?_) name _
    exact spared.imp_right (.imp_right (Exists.imp fun _ => error_of_map))
  | final name requested =>
    rw [step_final, step_final, engine]
    exact same.putBack ((same.state name).finalWithin same.host _ requested none) name _
  | finalInto name out requested =>
    rw [step_finalInto, step_finalInto, engine]
    exact same.putBack ((same.state name).finalWithin same.host _ requested _) name _
  | copy name target =>
    rw [step_copy, step_copy]
    exact ⟨rfl, same.insert same.host target (same.state name) (same.pin name)⟩
  | wipe name =>
    rw [step_wipe, step_wipe]
    exact ⟨rfl, same.insert same.host name (.refl (Nat.zero_le 64)) (same.pin name)⟩
  | overlay name overlay => exact plain.elim
  | offers name =>
    exact alike_offers (fun same => same.pin) (fun same => same.host.backends) name A B same
  | createHasher name options data => exact alike_hasherCall (.create name options data) A B same
  | updateHasher name data => exact alike_hasherCall (.update name data) A B same
  | digest name => exact alike_hasherCall (.digest name) A B same
  | hexDigest name => exact alike_hasherCall (.hexDigest name) A B same
  | copyHasher name target => exact alike_hasherCall (.copy name target) A B same
  | inspect name => exact lifts.alike_onHasher name (fun hasher => .pure _) A B same
  | setEnvironment environment => exact alike_setEnvironment environment A B same
  | setCandidate candidate => exact alike_setCandidate candidate A B same
  | detect config => exact alike_detect config A B same
  | activeBackend => exact alike_hasherCall .activeBackend A B same
  | selfTest backend =>
    have report := Host.alike_report Host.SameButLog.unlogged
    cases backend with
    | none =>
      have tested := alike_selfTestSelected report (Host.SameButLog.alike_engine none)
      exact Action.Alike.bind (lifts.alike_onHost tested) (fun _ => .pure _) A B same
    | some backend =>
      have tested := alike_selfTestBackend report backend
      exact Action.Alike.bind (lifts.alike_onHost tested) (fun _ => .pure _) A B same

end Resembles

/-! ## What comes later -/

/-- The outcomes of commands that come one after the other. -/
def outcomes : List Command → Session → List (Except Fault Reply)
  | [], _ => []
  | c :: later, A => (A.step c).1 :: outcomes later (A.step c).2

/-- Flags do not matter to any of the commands when they come one after the other. -/
def SparesAll : List Command → Session → Session → Prop
  | [], _, _ => True
  | c :: later, A, B => A.Spares B c ∧ SparesAll later (A.step c).2 (B.step c).2

namespace Resembles

variable {spoilt : Prop} {A B : Session} {c : Command} {later : List Command}

/-- **Any number of commands**: their outcomes are the same. -/
theorem outcomes_eq (same : A.Resembles spoilt B) (plain : ∀ c ∈ later, c.Plain)
    (spares : SparesAll later A B) : outcomes later B = outcomes later A := by
  induction later generalizing A B with
  | nil => rfl
  | cons c later ih =>
    obtain ⟨outcome, after⟩ := same.step (plain c List.mem_cons_self) spares.1
    have rest := ih after (fun c hc => plain c (List.mem_cons_of_mem _ hc)) spares.2
    exact congrArg₂ List.cons outcome.symm rest

/-- All flags are the same, unless states may be spoilt. -/
theorem spares (same : A.Resembles False B) (c : Command) : A.Spares B c := by
  cases c with
  | update name data => exact .inl ((same.state name).f.resolve_right And.left)
  | _ => exact trivial

theorem sparesAll (same : A.Resembles False B) (plain : ∀ c ∈ later, c.Plain) :
    SparesAll later A B := by
  induction later generalizing A B with
  | nil => exact trivial
  | cons c later ih =>
    have here := same.spares c
    obtain ⟨-, after⟩ := same.step (plain c List.mem_cons_self) here
    exact ⟨here, ih after fun c hc => plain c (List.mem_cons_of_mem _ hc)⟩

/-- A session with another host and another state under one name. -/
theorem put (fits : ∀ name, (A.state name).filled ≤ 64) {q : Host} (hosts : A.host.SameButLog q)
    {name : String} {s : State} (state : (A.state name).Resembles spoilt s) :
    A.Resembles spoilt (A.put name s q) where
  host := hosts
  state other := by
    by_cases here : name = other
    · subst here
      rw [state_put]
      exact state
    · rw [Session.state, Session.state, holder_put_of_ne here]
      exact .refl (fits other)
  pin other := pin_put A name s q other
  hashers := rfl

end Resembles

end Session

end Blake2s
