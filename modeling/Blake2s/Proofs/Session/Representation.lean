import Blake2s.Proofs.Session.Hashers
import Blake2s.Proofs.Session.Runs

set_option autoImplicit false

/-! # How a state represents what it has absorbed

If all backends are lawful, a live state is a function of its record, up to bytes that are left over
in the buffer and never looked at. The buffer has its last bytes, at least one unless there are none
at all, and the counter is how many bytes came before them, modulo `2 ^ 64`
(`Session.representation`). Between the calls of a run that holds of every state, also after calls
that failed in the middle.

The buffer is edited in place, by assignments to slices of it. Such an assignment would change the
length of the buffer if what is assigned were not as long as the slice; `State.EditsInPlace` says of a
state that no update and no finish comes to that. -/

namespace Blake2s

namespace State

/-- Whatever an update or a finish assigns to a slice of the buffer is as long as the slice: what it
    leaves in the buffer is what the assignment makes of it, with nothing left out. -/
structure EditsInPlace {σ : Type} (s : State) (e : Engine σ) (m : σ) : Prop where
  /-- The free part of the buffer is filled up from the input. -/
  topOff : ∀ data outcome s' m', 64 - s.filled < data.length →
    (State.topOff e data).runOn s m = ((outcome, s'), m') →
      s'.buffer.toList = Bytes.assign s.buffer.toList s.filled 64 (s.filling data)
  /-- What is left of the input, once all that goes ahead is compressed, goes behind what is in the
      buffer by then. -/
  keep : ∀ data s' rest m',
    HashM.runOn (State.topOff e data >>= compressAhead e) s m = ((.ok rest, s'), m') →
      ((State.keep rest).runOn s' m').1.2.buffer.toList
        = Bytes.assign s'.buffer.toList s'.filled (s'.filled + rest.length) rest
  /-- The free part of the buffer is padded. -/
  close : s.closeLastBlock.buffer.toList = Bytes.assign s.buffer.toList s.filled 64 s.padding

variable {s : State}

/-- After the compressions of an update the rest of the input fits in the buffer. -/
theorem room_of_compressed {σ : Type} {e : Engine σ} {m m' : σ} {s' : State} (fits : s.filled ≤ 64)
    {data rest : Bytes}
    (run : HashM.runOn (topOff e data >>= compressAhead e) s m = ((.ok rest, s'), m')) :
    s'.filled + rest.length ≤ 64 := by
  rw [HashM.runOn_bind] at run
  have ahead {data rest : Bytes} {s s' : State} {m m' : σ} (empty : s.filled = 0)
      (run : (compressAhead e data).runOn s m = ((.ok rest, s'), m')) :
      s'.filled + rest.length ≤ 64 := by
    by_cases short : data.length ≤ 64
    · rw [runOn_compressAhead_of_le short] at run
      cases run
      omega
    · rw [runOn_compressAhead (by omega)] at run
      have held := Block.length_held_le data
      rcases asked : Action.runOn (e s.chain (aheadBatch data)) m with ⟨fault | chain, m₁⟩
      · rw [asked] at run
        exact nomatch run
      · rw [asked] at run
        cases run
        change s.filled + _ ≤ 64
        rwa [empty, Nat.zero_add]
  by_cases short : data.length ≤ 64 - s.filled
  · rw [runOn_topOff_of_le short] at run
    dsimp only at run
    rw [runOn_compressAhead_of_le (by omega)] at run
    cases run
    omega
  · rw [runOn_topOff_of_lt (Nat.lt_of_not_le short)] at run
    rcases asked : Action.runOn (e s.chain (bufferBatch (s.toppedOff data) 64)) m with
      ⟨fault | chain, m₁⟩
    · rw [asked] at run
      exact nomatch run
    · rw [asked] at run
      exact ahead rfl run

/-- Whether or not the compression after it fails, topping off leaves the buffer filled up. -/
theorem buffer_of_topOff {σ : Type} {e : Engine σ} {m m' : σ} {s' : State} {data : Bytes}
    {outcome : Except Fault Bytes} (long : 64 - s.filled < data.length)
    (run : (topOff e data).runOn s m = ((outcome, s'), m')) : s'.buffer = s.toppedOff data := by
  rw [runOn_topOff_of_lt long] at run
  rcases asked : Action.runOn (e s.chain (bufferBatch (s.toppedOff data) 64)) m with
    ⟨fault | chain, m₁⟩
  · rw [asked] at run
    cases run
    rfl
  · rw [asked] at run
    cases run
    rfl

theorem editsInPlace {σ : Type} (fits : s.filled ≤ 64) (e : Engine σ) (m : σ) :
    s.EditsInPlace e m where
  topOff data outcome s' m' long run := by
    rw [buffer_of_topOff long run]
    have whole : s.filled + (s.filling data).length = 64 :=
      filled_add_length_filling fits (Nat.le_of_lt long)
    exact Block.toList_write_eq_assign _ whole (Nat.le_refl 64)
  keep data s' rest m' run := Block.toList_write_eq_assign _ rfl (room_of_compressed fits run)
  close := Block.toList_write_eq_assign _ (filled_add_length_padding fits) (Nat.le_refl 64)

end State

/-! ## Counting -/

theorem Content.toNat_t_absorb (c : Content) (data : Bytes) :
    (c.absorb data).chain.t.toNat
      = (c.chain.t.toNat + 64 * blocksAhead (c.input ++ data).length) % 2 ^ 64 :=
  Chain.toNat_after_t c.chain _ _

/-- The counter of a state counts all of its record but what is held back. -/
def State.Counts (s : State) (data : Bytes) : Prop :=
  s.chain.t.toNat = 64 * blocksAhead data.length % 2 ^ 64

namespace State

variable {s s' : State}

theorem counts_of_started {p : Parameters} {key : Bytes} {lastNode : Bool}
    (holds : s.Holds (.started p key lastNode)) : s.Counts (Standard.keyed key []) := by
  have counter := Content.toNat_t_absorb (ofParameters p lastNode).content (Standard.keyed key [])
  have started : s.chain = (Content.started p key lastNode).chain :=
    congrArg Content.chain holds.content
  rw [Counts, started]
  exact counter.trans (congrArg (· % 2 ^ 64) (Nat.zero_add _))

theorem Counts.absorb {data more : Bytes} (counts : s.Counts data)
    (input : s.content.input = Block.held data) (holds : s'.Holds (s.content.absorb more)) :
    s'.Counts (data ++ more) := by
  have chain : s'.chain = (s.content.absorb more).chain := congrArg Content.chain holds.content
  have before : s.content.chain.t.toNat = 64 * blocksAhead data.length % 2 ^ 64 := counts
  rw [Counts, chain, Content.toNat_t_absorb, input, before, Block.blocksAhead_append data more]
  omega

/-- What a state with a counted record has in its buffer, and what its counter says. -/
theorem representation_of_counts {data : Bytes} (carries : s.Carries (some data))
    (counts : s.Counts data) :
    (s.filled = 0 ↔ data = []) ∧ s.filled ≤ data.length ∧
      s.buffer.toList.take s.filled = data.drop (data.length - s.filled) ∧
      64 ∣ data.length - s.filled ∧
      s.chain.t.toNat = (data.length - s.filled) % 2 ^ 64 := by
  have input : s.buffer.toList.take s.filled = data.drop (64 * blocksAhead data.length) := carries.2
  have filled : s.filled = data.length - 64 * blocksAhead data.length := by
    rw [← length_input_content carries.1.fits, carries.2, Block.held, List.length_drop]
  have whole := Block.whole_blocksAhead data
  have ahead : data.length - s.filled = 64 * blocksAhead data.length := by omega
  rw [ahead]
  refine ⟨?_, by omega, input, Nat.dvd_mul_right _ _, counts⟩
  rw [← List.length_eq_zero_iff]
  unfold blocksAhead at filled
  omega

end State

/-! ## Lawful runs -/

/-- Does a command bring in lawful backends only? -/
def Command.Lawful : Command → Prop
  | create _ (some backend) => backend.Lawful
  | setCandidate candidate => ∀ minBlocks, (candidate.build minBlocks).Lawful
  | _ => True

namespace Session

variable {A : Session} {r : Record} {c : Command} {name : String}

theorem sound_putBack {α : Type} (sound : A.host.Sound) (name : String) (reply : α → Reply)
    {op : HashM Host α} (h : HashM.Alike Host.BothSound op op) :
    (A.putBack name reply (op.runOn (A.state name) A.host)).2.host.Sound :=
  (h (A.state name) A.host A.host ⟨sound, .refl A.host⟩).2.1

/-- **A lawful command leaves the host sound**, whatever its outcome. -/
theorem sound_step (sound : A.host.Sound) (lawful : c.Lawful) : (A.step c).2.host.Sound := by
  have engine := Host.BothSound.alike_engine
  have selfTest {op : HostM Bool} (h : Action.Alike Host.BothSound op op) :
      (Action.runOn (onHost op >>= fun b => pure (Reply.flag b)) A).2.host.Sound := by
    rw [runOn_onHost_map]
    exact (h A.host A.host ⟨sound, .refl A.host⟩).2.1
  cases c with
  | create name backend =>
    rw [step_create]
    cases backend with
    | none => exact sound
    | some backend => exact sound.push lawful
  | init name outlen =>
    rw [step_init]
    exact sound_putBack sound name _ (State.alike_init (engine _) outlen)
  | initKeyed name outlen key =>
    rw [step_initKeyed]
    exact sound_putBack sound name _ (State.alike_initKeyed (engine _) outlen key)
  | start name fields key lastNode =>
    rw [step_start]
    split
    next p _ => exact sound_putBack sound name _ (State.alike_start (engine _) p key lastNode)
    next => exact sound
  | update name data =>
    rw [step_update]
    exact sound_putBack sound name _ (State.alike_update (engine _) data)
  | final name requested =>
    rw [step_final]
    exact sound_putBack sound name _ (State.alike_finalWithin (engine _) requested none)
  | finalInto name out requested =>
    rw [step_finalInto]
    exact sound_putBack sound name _ (State.alike_finalWithin (engine _) requested _)
  | copy name target => exact sound
  | wipe name =>
    rw [step_wipe]
    exact sound
  | overlay name overlay =>
    rw [step_overlay]
    exact sound
  | offers name => exact sound
  | createHasher name options data =>
    exact HasherCall.sound_run sound (.create name options data)
  | updateHasher name data => exact HasherCall.sound_run sound (.update name data)
  | digest name => exact HasherCall.sound_run sound (.digest name)
  | hexDigest name => exact HasherCall.sound_run sound (.hexDigest name)
  | copyHasher name target => exact HasherCall.sound_run sound (.copy name target)
  | inspect name =>
    cases here : A.hashers[name]? with
    | none =>
      have run : A.step (.inspect name) = (.ok .done, A) := runOn_onHasher_of_none here _
      rw [run]
      exact sound
    | some hasher =>
      have run : A.step (.inspect name) = (.ok (.state hasher.state), A) :=
        runOn_onHasher_of_some here _
      rw [run]
      exact sound
  | setEnvironment environment => exact ⟨sound.backends, sound.candidate⟩
  | setCandidate candidate => exact ⟨sound.backends, lawful⟩
  | detect config => exact HasherCall.sound_run sound (.reconfigure (.detect config))
  | activeBackend => exact HasherCall.sound_run sound .activeBackend
  | selfTest backend =>
    have report := Host.alike_report Host.BothSound.unlogged
    cases backend with
    | none => exact selfTest (alike_selfTestSelected report (engine none))
    | some backend => exact selfTest (alike_selfTestBackend report backend)

/-- All counters count what is recorded. -/
def Counts (A : Session) (r : Record) : Prop :=
  ∀ name data, r name = some data → (A.state name).Counts data

/-- In a sound host, whatever a command does to a state, its counter counts. -/
theorem Counts.change (counts : A.Counts r) (tracks : A.Tracks r) (sound : A.host.Sound)
    {s : State} {record : Option Bytes} (change : A.Change r name s record) :
    ∀ data, record = some data → s.Counts data := by
  cases change with
  | kept => exact counts name
  | cleared => exact nofun
  | started holds =>
    rintro _ ⟨⟩
    exact State.counts_of_started holds
  | copied source => exact counts source
  | @updated data _ _ run =>
    intro all recorded
    obtain ⟨absorbed, before, rfl⟩ := Option.map_eq_some_iff.mp recorded
    have carries := tracks name
    rw [before] at carries
    -- only in a sound host is the chain after it, and so the counter, the one of the content
    obtain ⟨outcome, s', q', run', ⟨rfl, holds⟩ | ⟨⟨fault, rfl⟩, -⟩⟩ :=
      sound.update (A.holder name).pin ⟨rfl, carries.1.fits⟩ carries.1.live data
    · cases run'.symm.trans run
      exact (counts name absorbed before).absorb carries.2 holds
    · exact nomatch run'.symm.trans run
  | @failedUpdate data fault _ _ run =>
    intro absorbed recorded
    have carries := tracks name
    rw [recorded] at carries
    obtain ⟨outcome, s', q', run', ⟨rfl, -⟩ | ⟨⟨fault', rfl⟩, holds⟩⟩ :=
      sound.update (A.holder name).pin ⟨rfl, carries.1.fits⟩ carries.1.live data
    · exact nomatch run'.symm.trans run
    · cases run'.symm.trans run
      have chain : s.chain = (A.state name).chain := congrArg Content.chain holds.content
      rw [State.Counts, chain]
      exact counts name absorbed recorded
  | closed live =>
    -- this sets flags, but it leaves the counter alone
    exact counts name

theorem Reachable.plain (reachable : A.Reachable (fun c => c.Plain ∧ c.Lawful) r) :
    A.Reachable Command.Plain r :=
  reachable.mono fun _ h => h.1

theorem Reachable.sound (reachable : A.Reachable (fun c => c.Plain ∧ c.Lawful) r) :
    A.host.Sound := by
  induction reachable with
  | fresh => exact ⟨fun _ _ => nofun, Backend.vectorized_lawful⟩
  | step _ c h ih => exact sound_step ih h.2

theorem Reachable.counts (reachable : A.Reachable (fun c => c.Plain ∧ c.Lawful) r) :
    A.Counts r := by
  induction reachable with
  | fresh => exact nofun
  | @step A r before c h ih =>
    exact fun name => ih.change before.plain.tracks before.sound (change_step h.1 A r name)

/-- **What a state represents**, in any run with lawful backends. Words and buffer have their sizes
    and keep them, also under the edits that an update or a finish makes next. If the state is live
    and has absorbed `data`, then the buffer is empty exactly if `data` is, its first bytes are the
    last ones of `data`, what comes before them are whole blocks, and the counter is how many bytes
    those have. -/
theorem representation (reachable : A.Reachable (fun c => c.Plain ∧ c.Lawful) r) (name : String) :
    let s := A.state name
    let words := s.chain.h.toList
      ++ [s.chain.t.lo, s.chain.t.hi, s.chain.f.lastBlock, s.chain.f.lastNode]
    (s.chain.h.toList.length = 8 ∧ (∀ word ∈ words, word.toNat < 2 ^ 32) ∧
      s.buffer.toList.length = 64 ∧ s.EditsInPlace (A.engine name) A.host ∧
      s.filled ≤ 64 ∧ s.outlen ≤ 32) ∧
    (s.outlen ≠ 0 → ∃ data, r name = some data ∧
      (s.filled = 0 ↔ data = []) ∧ s.filled ≤ data.length ∧
      s.buffer.toList.take s.filled = data.drop (data.length - s.filled) ∧
      64 ∣ data.length - s.filled ∧
      s.chain.t.lo.toNat + 2 ^ 32 * s.chain.t.hi.toNat = (data.length - s.filled) % 2 ^ 64) := by
  intro s words
  have carries : s.Carries (r name) := reachable.plain.tracks name
  have counts := reachable.counts name
  refine ⟨⟨s.chain.h.length_toList, fun word _ => word.toNat_lt, s.buffer.length_toList,
    State.editsInPlace carries.fits _ _, carries.fits, carries.outlen_le⟩, fun live => ?_⟩
  cases recorded : r name with
  | none => exact absurd (carries.outlen_eq.mpr recorded) live
  | some data =>
    rw [recorded] at carries
    exact ⟨data, rfl, State.representation_of_counts carries (counts data recorded)⟩

/-- A state that met a broken environment: the update that failed there does not count, although it
    has left its bytes in the buffer. -/
theorem representation_failed_update :
    let A := misconfigured
    let B := (A.step (.update "s" (List.replicate 65 1))).2
    (∃ r, B.Reachable (fun c => c.Plain ∧ c.Lawful) r) ∧ (B.state "s").outlen ≠ 0 ∧
      (B.state "s").buffer = Vector.replicate 64 1 ∧ (B.state "s").filled = 0 ∧
      (B.state "s").chain.t.lo.toNat + 2 ^ 32 * (B.state "s").chain.t.hi.toNat = 0 := by
  intro A B
  have before : A.Reachable (fun c => c.Plain ∧ c.Lawful) _ :=
    reachable_misconfigured ⟨trivial, trivial⟩ ⟨trivial, trivial⟩
  have reached := before.step (.update "s" (List.replicate 65 1)) ⟨trivial, trivial⟩
  have filled : (A.state "s").filled = 0 := fresh_misconfigured.2
  have fits : (A.state "s").filled ≤ 64 := by omega
  have long : 64 < (List.replicate 65 (1 : UInt8)).length := by decide
  have failed := step_update_misconfigured long
  have after : B.state "s"
      = { A.state "s" with buffer := (A.state "s").toppedOff (List.replicate 65 1) } := by
    have result : B = _ := congrArg Prod.snd failed
    rw [result, state_put]
  have buffer : (A.state "s").toppedOff (List.replicate 65 1) = Vector.replicate 64 1 := by
    rw [State.toppedOff_eq_ofBytes fits (by omega), State.content, filled, List.take_zero]
    decide
  have live' : (B.state "s").outlen ≠ 0 := by
    rw [after]
    exact live_misconfigured
  obtain ⟨-, represents⟩ := representation reached "s"
  obtain ⟨data, recorded, empty, -, -, -, counter⟩ := represents live'
  have nothing : data = [] := by
    rw [failed] at recorded
    exact (Option.some.inj recorded).symm
  have filled' := empty.mpr nothing
  rw [nothing, filled'] at counter
  exact ⟨⟨_, reached⟩, live', by rw [after, buffer], filled', counter⟩

end Session

end Blake2s
