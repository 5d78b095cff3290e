import Blake2s.Proofs.Host.Resolving
import Blake2s.Proofs.Session.Steps
import Blake2s.Proofs.State.Failing
import Mathlib.Logic.Function.Basic

set_option autoImplicit false

/-! # The life of a state

`Session.Reachable` is every session that a run gets to from a fresh one, together with the record
that `Command.record` makes of it: what each state has absorbed since it was last initialized, as far
as the calls returned. The commands of a run come in any order and may fail; the backends may be any.

All that one command can do to one state is listed in `Session.Change`. From that list it follows that
a state is live exactly if there is a record for it, that a state that is not live is all zero, and
that the buffer holds the last bytes of the record (`Session.Reachable.tracks`). The life of a state
is then told by `Session.lifecycle`. -/

namespace Blake2s

/-! ## Runs and their records -/

/-- What each state has absorbed since its last initialization, with the block of its key in front;
    `none` for a state that is not live. -/
abbrev Record := String → Option Bytes

namespace Command

/-- Does a command leave it to the operations of a state to change that state? -/
def Plain : Command → Prop
  | overlay _ _ => False
  | _ => True

/-- The record after a command with the given outcome. Nothing is recorded for one that failed. -/
def record (r : Record) : Command → Except Fault Reply → Record
  | create name _, .ok _ => Function.update r name none
  | init name _, .ok _ => Function.update r name (some [])
  | initKeyed name _ key, .ok _ => Function.update r name (some (Standard.keyed key []))
  | start name _ key _, .ok _ => Function.update r name (some (Standard.keyed key []))
  | update name data, .ok _ => Function.update r name ((r name).map (· ++ data))
  | final name _, .ok _ => Function.update r name none
  | finalInto name _ _, .ok _ => Function.update r name none
  | copy name target, .ok _ => Function.update r target (r name)
  | wipe name, .ok _ => Function.update r name none
  | _, _ => r

theorem record_error (c : Command) (r : Record) (fault : Fault) : c.record r (.error fault) = r := by
  cases c <;> rfl

theorem record_of_ne {c : Command} {name : String} (h : c.target ≠ some name) (r : Record)
    (outcome : Except Fault Reply) : c.record r outcome name = r name := by
  cases outcome with
  | error fault => rw [record_error]
  | ok reply =>
    cases c with
    | create other _ | init other _ | initKeyed other _ _ | start other _ _ _ | update other _
    | final other _ | finalInto other _ _ | copy _ other | wipe other =>
      exact Function.update_of_ne (fun same => h (congrArg some same.symm)) _ _
    | _ => rfl

end Command

namespace Session

/-- The sessions that runs of the given commands get to, with their records. -/
inductive Reachable (allowed : Command → Prop) : Session → Record → Prop where
  | fresh : Reachable allowed {} fun _ => none
  | step {A : Session} {r : Record} (before : Reachable allowed A r) (c : Command) (h : allowed c) :
      Reachable allowed (A.step c).2 (c.record r (A.step c).1)

variable {A : Session} {r : Record} {name : String} {c : Command}

theorem Reachable.mono {allowed allowed' : Command → Prop} (reachable : A.Reachable allowed r)
    (h : ∀ c, allowed c → allowed' c) : A.Reachable allowed' r := by
  induction reachable with
  | fresh => exact .fresh
  | step _ c hc ih => exact ih.step c (h c hc)

/-! ## Initializing and failing -/

theorem step_init_of_valid {outlen : Int} (valid : 1 ≤ outlen ∧ outlen ≤ outBytes) (name : String)
    (A : Session) :
    ∃ s p, A.step (.init name outlen) = (.ok .done, A.put name s A.host) ∧
      p.digestLength.toNat = outlen.toNat ∧ s.Holds (.started p [] false) := by
  obtain ⟨p, length, started⟩ := State.started_init (e := A.engine name) valid
  obtain ⟨s, run, holds⟩ := started (A.state name) A.host
  refine ⟨s, p, ?_, length, holds⟩
  rw [step_init, run]
  rfl

/-- A detection that fails leaves the state with its buffer filled up. -/
theorem step_update_of_failsAs {fault : Fault} {q : Host}
    (fails : A.host.FailsAs (A.holder name).pin fault q) (live : (A.state name).outlen ≠ 0)
    {data : Bytes} (long : 64 - (A.state name).filled < data.length) :
    A.step (.update name data)
      = (.error fault,
        A.put name { A.state name with buffer := (A.state name).toppedOff data } q) := by
  have run := State.update_of_lt (e := A.engine name) live long A.host
  rw [engine, fails.failsAt] at run
  rw [step_update, engine, run]
  rfl

/-- It leaves another one with its last block closed. -/
theorem step_final_of_failsAs {fault : Fault} {q : Host}
    (fails : A.host.FailsAs (A.holder name).pin fault q) {requested : Option Int} {n : Nat}
    (granted : State.finalLength (A.state name).outlen requested none = .ok n) :
    A.step (.final name requested) = (.error fault, A.put name (A.state name).closeLastBlock q) := by
  have run := State.runOn_finish (e := A.engine name) (A.state name) n A.host
  rw [engine, fails.failsAt] at run
  rw [step_final, engine, State.finalWithin_of_granted granted, run]
  rfl

/-- A session with one fresh state, in an environment in which no backend can be detected. -/
def misconfigured : Session :=
  ((({} : Session).step (.setEnvironment { minBlocks := some "x" })).2.step (.init "s" 32)).2

theorem exists_misconfigured :
    ∃ s p, misconfigured
        = put { host := { environment := { minBlocks := some "x" } } } "s" s
          { environment := { minBlocks := some "x" } } ∧
      p.digestLength.toNat = 32 ∧ s.Holds (.started p [] false) := by
  have valid : 1 ≤ (32 : Int) ∧ (32 : Int) ≤ outBytes := by decide
  obtain ⟨s, p, initialized, length, holds⟩ :=
    step_init_of_valid valid "s" { host := { environment := { minBlocks := some "x" } } }
  exact ⟨s, p, congrArg Prod.snd initialized, length, holds⟩

theorem reachable_misconfigured {allowed : Command → Prop}
    (environment : allowed (.setEnvironment { minBlocks := some "x" }))
    (init : allowed (.init "s" 32)) :
    misconfigured.Reachable allowed (Function.update (fun _ => none) "s" (some [])) := by
  have valid : 1 ≤ (32 : Int) ∧ (32 : Int) ≤ outBytes := by decide
  obtain ⟨s, p, initialized, -⟩ :=
    step_init_of_valid valid "s" { host := { environment := { minBlocks := some "x" } } }
  have reached := (Reachable.fresh.step _ environment).step _ init
  have recorded : (Command.init "s" 32).record (fun _ => none)
      ((({} : Session).step (.setEnvironment { minBlocks := some "x" })).2.step (.init "s" 32)).1
        = Function.update (fun _ => none) "s" (some []) := by
    change Command.record _ _ (Session.step { host := { environment := _ } } _).1 = _
    rw [initialized]
    rfl
  rw [← recorded]
  exact reached

theorem host_misconfigured : misconfigured.host = { environment := { minBlocks := some "x" } } := by
  obtain ⟨s, p, put, -⟩ := exists_misconfigured
  rw [put]
  rfl

theorem pin_misconfigured : (misconfigured.holder "s").pin = none := by
  obtain ⟨s, p, put, -⟩ := exists_misconfigured
  rw [put, pin_put]
  exact congrArg Holder.pin (holder_empty "s")

theorem state_misconfigured :
    misconfigured.state "s"
      = ((State.init (Host.engine none) 32).runOn {}
          { environment := { minBlocks := some "x" } }).1.2 := by
  have before (host : Host) : Session.holder { host } "s" = {} := holder_empty "s"
  rw [misconfigured, step_init, putBack, state_put]
  change HashM.runOn (State.init (Host.engine (Session.holder { host := _ } "s").pin) 32)
    (Session.holder { host := _ } "s").state _ |>.1.2 = _
  rw [before]
  rfl

theorem failsAs_misconfigured :
    misconfigured.host.FailsAs (misconfigured.holder "s").pin (.minBlocksText "x")
      misconfigured.host := by
  rw [pin_misconfigured, host_misconfigured]
  exact ⟨rfl, rfl, rfl⟩

theorem fresh_misconfigured :
    (misconfigured.state "s").outlen = 32 ∧ (misconfigured.state "s").filled = 0 := by
  obtain ⟨s, p, put, length, holds⟩ := exists_misconfigured
  rw [put, state_put]
  refine ⟨holds.outlen.trans length, ?_⟩
  rw [← holds.length_input, Content.input_started_nil]
  rfl

theorem live_misconfigured : (misconfigured.state "s").outlen ≠ 0 := by
  rw [fresh_misconfigured.1]
  decide

theorem step_update_misconfigured {data : Bytes} (long : 64 < data.length) :
    misconfigured.step (.update "s" data)
      = (.error (.minBlocksText "x"),
        misconfigured.put "s"
          { misconfigured.state "s" with buffer := (misconfigured.state "s").toppedOff data }
          misconfigured.host) := by
  refine step_update_of_failsAs failsAs_misconfigured live_misconfigured ?_
  rw [fresh_misconfigured.2]
  exact long

theorem step_final_misconfigured :
    misconfigured.step (.final "s" none)
      = (.error (.minBlocksText "x"),
        misconfigured.put "s" (misconfigured.state "s").closeLastBlock misconfigured.host) := by
  refine step_final_of_failsAs failsAs_misconfigured (n := 32) ?_
  rw [fresh_misconfigured.1]
  rfl

/-! ## What a command can do to a state -/

/-- What becomes of the state under a name, and of its record, by one command. -/
inductive Change (A : Session) (r : Record) (name : String) : State → Option Bytes → Prop where
  /-- The command is not about this state, or it is refused. -/
  | kept : Change A r name (A.state name) (r name)
  /-- The state is fresh, finished or wiped. -/
  | cleared : Change A r name {} none
  | started {s : State} {p : Parameters} {key : Bytes} {lastNode : Bool}
      (holds : s.Holds (.started p key lastNode)) : Change A r name s (some (Standard.keyed key []))
  | copied (source : String) : Change A r name (A.state source) (r source)
  | updated {data : Bytes} {s : State} {q : Host}
      (run : (State.update (A.engine name) data).runOn (A.state name) A.host = ((.ok (), s), q)) :
      Change A r name s ((r name).map (· ++ data))
  | failedUpdate {data : Bytes} {fault : Fault} {s : State} {q : Host}
      (run : (State.update (A.engine name) data).runOn (A.state name) A.host
        = ((.error fault, s), q)) :
      Change A r name s (r name)
  /-- A finish fails once it has closed the last block. -/
  | closed (live : (A.state name).outlen ≠ 0) :
      Change A r name (A.state name).closeLastBlock (r name)

/-- What a run on the state under a name is to that state: whatever it leaves is put back, but
    nothing is recorded unless it succeeds. -/
def Changes {α : Type} (A : Session) (r : Record) (name : String)
    (run : (Except Fault α × State) × Host) (record : Option Bytes) : Prop :=
  match run.1.1 with
  | .ok _ => A.Change r name run.1.2 record
  | .error _ => A.Change r name run.1.2 (r name)

theorem change_putBack {α : Type} {reply : α → Reply} {run : (Except Fault α × State) × Host}
    {record : Option Bytes} (step : A.step c = A.putBack name reply run)
    (recorded : ∀ a, c.record r (.ok (reply a)) name = record) (h : A.Changes r name run record) :
    A.Change r name ((A.step c).2.state name) (c.record r (A.step c).1 name) := by
  obtain ⟨⟨outcome, s⟩, q⟩ := run
  rw [step, putBack, state_put]
  cases outcome with
  | error fault =>
    rw [Except.map, Command.record_error]
    exact h
  | ok a =>
    rw [Except.map, recorded]
    exact h

/-- An initialization starts the state over or is refused. -/
theorem changes_of_starts {x : HashM Host Unit} {key : Bytes} (starts : x.Starts key) (A : Session)
    (r : Record) (name : String) :
    A.Changes r name (x.runOn (A.state name) A.host) (some (Standard.keyed key [])) := by
  cases starts with
  | started p lastNode run =>
    obtain ⟨s, run, holds⟩ := run (A.state name) A.host
    rw [run]
    exact .started holds
  | refused fault run =>
    rw [run (A.state name) A.host]
    exact .kept

theorem changes_of_update (data : Bytes) (A : Session) (r : Record) (name : String) :
    A.Changes r name ((State.update (A.engine name) data).runOn (A.state name) A.host)
      ((r name).map (· ++ data)) := by
  rcases run : (State.update (A.engine name) data).runOn (A.state name) A.host with
    ⟨⟨fault | _, s⟩, q⟩
  · exact .failedUpdate run
  · exact .updated run

/-- A finish that succeeds wipes the state. -/
theorem changes_of_final (requested : Option Int) (room : Option Nat) (A : Session) (r : Record)
    (name : String) :
    A.Changes r name
      ((State.finalWithin (A.engine name) requested room).runOn (A.state name) A.host) none := by
  obtain ⟨fault, -, run⟩ | ⟨digest, q, run⟩ | ⟨fault, q, -, live, run⟩ :=
    Host.finalWithin_or_failsAs (A.holder name).pin A.host (A.state name) requested room
  · rw [engine, run]
    exact .kept
  · rw [engine, run]
    exact .cleared
  · rw [engine, run]
    exact .closed live

/-- **A command does one of these things to a state.** -/
theorem change_step (plain : c.Plain) (A : Session) (r : Record) (name : String) :
    A.Change r name ((A.step c).2.state name) (c.record r (A.step c).1 name) := by
  by_cases elsewhere : c.target ≠ some name
  · rw [Command.record_of_ne elsewhere, state, holder_step elsewhere]
    exact .kept
  have target : c.target = some name := not_not.mp elsewhere
  have recorded {record : Option Bytes} {α : Type} (_ : α) :
      Function.update r name record name = record := Function.update_self ..
  cases c with
  | create name backend =>
    obtain ⟨⟩ := target
    rw [step_create, state_insert, if_pos rfl, Command.record, Function.update_self]
    exact .cleared
  | init name outlen =>
    obtain ⟨⟩ := target
    have starts := State.starts_init (e := A.engine name) outlen
    exact change_putBack (step_init name outlen A) recorded (changes_of_starts starts A r name)
  | initKeyed name outlen key =>
    obtain ⟨⟩ := target
    have starts := State.starts_initKeyed (e := A.engine name) outlen key
    exact change_putBack (step_initKeyed name outlen key A) recorded
      (changes_of_starts starts A r name)
  | start name fields key lastNode =>
    obtain ⟨⟩ := target
    have step := step_start name fields key lastNode A
    cases fields : Parameters.ofFields fields with
    | error fault =>
      rw [fields] at step
      rw [step]
      exact .kept
    | ok p =>
      rw [fields] at step
      have starts := State.starts_start (e := A.engine name) p key lastNode
      exact change_putBack step recorded (changes_of_starts starts A r name)
  | update name data =>
    obtain ⟨⟩ := target
    exact change_putBack (step_update name data A) recorded (changes_of_update data A r name)
  | final name requested =>
    obtain ⟨⟩ := target
    exact change_putBack (step_final name requested A) recorded
      (changes_of_final requested none A r name)
  | finalInto name out requested =>
    obtain ⟨⟩ := target
    exact change_putBack (step_finalInto name out requested A) recorded
      (changes_of_final requested (some out.length) A r name)
  | copy source name =>
    obtain ⟨⟩ := target
    rw [step_copy, state_insert, if_pos rfl, Command.record, Function.update_self]
    exact .copied source
  | wipe name =>
    obtain ⟨⟩ := target
    rw [step_wipe, state_put, Command.record, Function.update_self]
    exact .cleared
  | overlay name overlay => exact plain.elim
  | _ => cases target

end Session

/-! ## States with records -/

namespace State

variable {s : State}

/-- A state that is not live is all zero; the buffer of a live one holds what is held back of its
    record. -/
def Carries (s : State) : Option Bytes → Prop
  | none => s = {}
  | some data => s.Usable ∧ s.content.input = Block.held data

theorem carries_of_started {p : Parameters} {key : Bytes} {lastNode : Bool}
    (holds : s.Holds (.started p key lastNode)) : s.Carries (some (Standard.keyed key [])) :=
  ⟨holds.usable, congrArg Content.input holds.content⟩

/-- The chain does not matter. -/
theorem Carries.of_content {s' : State} {data : Bytes} (h : s.Carries (some data))
    (fits : s'.filled ≤ 64) (content : s'.content = { s.content with chain := s'.chain }) :
    s'.Carries (some data) := by
  have outlen : s'.outlen = s.outlen := congrArg Content.outlen content
  refine ⟨⟨?_, ?_, fits⟩, (congrArg Content.input content).trans h.2⟩
  · exact outlen ▸ h.1.outlen_pos
  · exact outlen ▸ h.1.outlen_le

theorem Carries.absorb {s' : State} {data more : Bytes} (h : s.Carries (some data))
    (fits : s'.filled ≤ 64)
    (content : s'.content = { s.content.absorb more with chain := s'.chain }) :
    s'.Carries (some (data ++ more)) := by
  have outlen : s'.outlen = s.outlen := congrArg Content.outlen content
  have input : s'.content.input = Block.held (s.content.input ++ more) :=
    congrArg Content.input content
  refine ⟨⟨?_, ?_, fits⟩, ?_⟩
  · exact outlen ▸ h.1.outlen_pos
  · exact outlen ▸ h.1.outlen_le
  · rw [input, h.2, ← Block.held_append]

/-- **Being live is having a record.** -/
theorem Carries.outlen_eq {record : Option Bytes} (h : s.Carries record) :
    s.outlen = 0 ↔ record = none := by
  cases record with
  | none =>
    obtain rfl : s = {} := h
    exact ⟨fun _ => rfl, fun _ => rfl⟩
  | some data => exact ⟨fun dead => absurd dead h.1.live, nofun⟩

theorem Carries.fits {record : Option Bytes} (h : s.Carries record) : s.filled ≤ 64 := by
  cases record with
  | none =>
    obtain rfl : s = {} := h
    exact Nat.zero_le 64
  | some data => exact h.1.fits

theorem Carries.outlen_le {record : Option Bytes} (h : s.Carries record) : s.outlen ≤ 32 := by
  cases record with
  | none =>
    obtain rfl : s = {} := h
    exact Nat.zero_le 32
  | some data => exact h.1.outlen_le

end State

/-- Is a command an update or a finish of the state under the given name? -/
def Command.Uses (name : String) : Command → Prop
  | update other _ => other = name
  | final other _ => other = name
  | finalInto other _ _ => other = name
  | _ => False

namespace Session

variable {A : Session} {r : Record} {name : String} {c : Command}

/-- All states are as their records say. -/
def Tracks (A : Session) (r : Record) : Prop := ∀ name, (A.state name).Carries (r name)

/-- Whatever a command does to a state, it is as its record says after that. -/
theorem Tracks.change (tracks : A.Tracks r) {s : State} {record : Option Bytes}
    (change : A.Change r name s record) : s.Carries record := by
  have carries := tracks name
  cases change with
  | kept => exact carries
  | cleared => exact rfl
  | started holds => exact State.carries_of_started holds
  | copied source => exact tracks source
  | @updated data _ _ run =>
    cases recorded : r name with
    | none =>
      rw [State.update_of_eq (carries.outlen_eq.mpr recorded)] at run
      exact nomatch run
    | some absorbed =>
      rw [recorded] at carries
      obtain ⟨s', q', run', fits, content⟩ | ⟨fault, q', -, -, run'⟩ :=
        Host.update_or_failsAs (A.holder name).pin A.host carries.1.live carries.1.fits data
      · cases run'.symm.trans run
        exact carries.absorb fits content
      · exact nomatch run'.symm.trans run
  | @failedUpdate data fault _ _ run =>
    cases recorded : r name with
    | none =>
      -- refused: the state was not live
      rw [State.update_of_eq (carries.outlen_eq.mpr recorded)] at run
      cases run
      exact recorded ▸ carries
    | some absorbed =>
      rw [recorded] at carries
      obtain ⟨s', q', run', -, -⟩ | ⟨fault', q', -, long, run'⟩ :=
        Host.update_or_failsAs (A.holder name).pin A.host carries.1.live carries.1.fits data
      · exact nomatch run'.symm.trans run
      · -- the buffer is topped off behind the input that is in it
        cases run'.symm.trans run
        exact carries.of_content carries.1.fits (State.content_topOff carries.1.fits long)
  | closed live =>
    cases recorded : r name with
    | none => exact absurd (carries.outlen_eq.mpr recorded) live
    | some absorbed =>
      -- this sets flags, and pads behind the input
      rw [recorded] at carries
      exact carries.of_content carries.1.fits (State.content_closeLastBlock carries.1.fits)

/-- **In all that a run gets to, the states are as their records say.** -/
theorem Reachable.tracks (reachable : A.Reachable Command.Plain r) : A.Tracks r := by
  induction reachable with
  | fresh =>
    intro name
    rw [state, holder_empty]
    exact rfl
  | @step A r _ c plain ih => exact fun name => ih.change (change_step plain A r name)

/-! ## Lifecycle -/

/-- Are two sessions the same to every command? -/
structure Same (A B : Session) : Prop where
  host : B.host = A.host
  hashers : B.hashers = A.hashers
  holder : ∀ name, B.holder name = A.holder name

theorem same_put_self (A : Session) (name : String) : A.Same (A.put name (A.state name) A.host) :=
  ⟨rfl, rfl, A.holder_put_self name A.host⟩

/-- **The life of a state**, in any run. It is live exactly if it has a record: if it was initialized
    and not finished, wiped or replaced since. While it is not live it is all zero, whatever it held
    before, and to use it is refused and changes nothing. While it is live, that it is not live is
    never what a use of it fails with. -/
theorem lifecycle (reachable : A.Reachable Command.Plain r) (name : String) :
    let s := A.state name
    (s.outlen = 0 ↔ r name = none) ∧
    (s.outlen = 0 →
      s = { chain :=
              { h := Vector.replicate 8 0, t := { lo := 0, hi := 0 },
                f := { lastBlock := 0, lastNode := 0 } },
            buffer := Vector.replicate 64 0, filled := 0, outlen := 0, lastNode := false }) ∧
    ∀ use : Command, use.Uses name →
      (s.outlen = 0 → (A.step use).1 = .error .notLive ∧ A.Same (A.step use).2) ∧
      (s.outlen ≠ 0 → ∀ fault, (A.step use).1 = .error fault → fault.kind ≠ .state) := by
  intro s
  have carries : s.Carries (r name) := reachable.tracks name
  refine ⟨carries.outlen_eq, fun dead => ?_, fun use uses => ?_⟩
  · rw [carries.outlen_eq.mp dead] at carries
    exact carries
  have refused {α : Type} (reply : α → Reply) {run : (Except Fault α × State) × Host}
      (h : run = ((.error .notLive, s), A.host)) :
      (A.putBack name reply run).1 = .error .notLive ∧ A.Same (A.putBack name reply run).2 := by
    rw [h]
    exact ⟨rfl, A.same_put_self name⟩
  have ofKind {fault : Fault} (h : Host.OfDetection fault) : fault.kind ≠ .state := by
    intro kind
    rw [Host.OfDetection, kind] at h
    exact h.elim nofun nofun
  cases use with
  | update other data =>
    obtain rfl : other = name := uses
    rw [step_update]
    refine ⟨fun dead => refused _ (State.update_of_eq dead data), fun live fault failed => ?_⟩
    exact ofKind (Host.ofDetection_update live carries.fits (error_of_map failed))
  | final other requested =>
    obtain rfl : other = name := uses
    rw [step_final]
    refine ⟨fun dead => refused _ (State.finalWithin_of_eq dead _ _), fun live fault failed => ?_⟩
    exact ofKind (Host.ofDetection_finalWithin live (error_of_map failed))
  | finalInto other out requested =>
    obtain rfl : other = name := uses
    rw [step_finalInto]
    refine ⟨fun dead => refused _ (State.finalWithin_of_eq dead _ _), fun live fault failed => ?_⟩
    exact ofKind (Host.ofDetection_finalWithin live (error_of_map failed))
  | _ => exact uses.elim

/-- A state that was wiped before anything was absorbed, and an update without input. -/
theorem lifecycle_wiped :
    let A := ((({} : Session).step (.init "s" 32)).2.step (.wipe "s")).2
    (∃ r, A.Reachable Command.Plain r) ∧ (A.state "s").outlen = 0 ∧
      (A.step (.update "s" [])).1 = .error .notLive ∧ A.Same (A.step (.update "s" [])).2 := by
  intro A
  have initialized : Reachable Command.Plain (({} : Session).step (.init "s" 32)).2 _ :=
    Reachable.fresh.step (.init "s" 32) trivial
  have reachable := initialized.step (.wipe "s") trivial
  have told := lifecycle reachable "s"
  have dead : (A.state "s").outlen = 0 := told.1.mpr (by simp only [step_wipe, Command.record,
    Function.update_self])
  exact ⟨⟨_, reachable⟩, dead, (told.2.2 (.update "s" []) rfl).1 dead⟩

end Session

end Blake2s
