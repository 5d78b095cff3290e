import Blake2s.Proofs.State.Starting

set_option autoImplicit false

/-! # Output buffers

A digest or a tag can be returned, or it can be written to a buffer of the caller. The two ways come to
the same (`Delivers`): a call that succeeds puts the bytes that would have been returned in the place of
as many bytes at the start of the buffer; a call that fails leaves the buffer alone, be it that the
request is not in order or that the engine fails halfway. Nothing is asked of the engine for that, so it
holds of every backend and also where none can be detected (`delivers_digest_and_tag`).

What has to be seen for it is that there are never more or fewer bytes than were asked for: then the
buffer keeps its length. A tag has this from the buffers that it is computed in, which keep theirs. -/

namespace Blake2s

variable {σ α β : Type}

/-! ## What a caller gets -/

/-- Writing to a buffer, in comparison with returning `length` bytes. -/
structure Delivers (out : Bytes) (length : Int) (returned : Except Fault Bytes)
    (into : Except Fault Unit × Bytes) : Prop where
  /-- The bytes are written whenever they could have been returned, if there is room for them. -/
  succeeds : into.1 = .ok () ↔ (∃ bytes, returned = .ok bytes) ∧ length ≤ out.length
  written : into.1 = .ok () → ∃ bytes, returned = .ok bytes ∧
    into.2 = Bytes.assign out 0 length.toNat bytes ∧ into.2.length = out.length ∧
    into.2.take length.toNat = bytes ∧ into.2.drop length.toNat = out.drop length.toNat
  unchanged : ∀ fault, into.1 = .error fault → into.2 = out
  /-- What is wrong is what is wrong with returning the bytes, unless it is the room. -/
  faults : ∀ fault, into.1 = .error fault →
    returned = .error fault ∨ (out.length < length ∧ fault = .outputRoom length.toNat)

namespace Bytes

/-- Overwriting the start of a buffer is assigning to a slice of it. -/
theorem overwrite_eq_assign (buffer bytes : Bytes) :
    buffer.overwrite bytes = assign buffer 0 bytes.length bytes := by
  rw [assign, Nat.zero_max, List.take_zero, List.nil_append, overwrite]

theorem drop_overwrite (buffer bytes : Bytes) :
    (buffer.overwrite bytes).drop bytes.length = buffer.drop bytes.length := by
  rw [overwrite, List.drop_left]

theorem take_overwrite (buffer bytes : Bytes) :
    (buffer.overwrite bytes).take bytes.length = bytes := by
  rw [overwrite, List.take_left]

end Bytes

/-- Here `within` is the outcome of the same computation with the room of the buffer for a limit. -/
theorem delivers_written {out : Bytes} {length : Int} {returned within : Except Fault Bytes}
    (exact : ∀ bytes, returned = .ok bytes → (bytes.length : Int) = length)
    (fits : length ≤ out.length → within = returned)
    (short : out.length < length → ∃ fault, within = .error fault ∧
      (returned = .error fault ∨ fault = .outputRoom length.toNat)) :
    Delivers out length returned (State.written out within) := by
  by_cases room : length ≤ out.length
  · rw [fits room]
    cases returned with
    | error fault =>
      refine ⟨?_, nofun, fun _ _ => rfl, ?_⟩
      · exact iff_of_false nofun fun ⟨⟨_, ok⟩, _⟩ => nomatch ok
      · rintro _ ⟨⟩
        exact .inl rfl
    | ok bytes =>
      have length := exact bytes rfl
      have count : bytes.length = Int.toNat _ := (congrArg Int.toNat length).trans rfl
      refine ⟨iff_of_true rfl ⟨⟨bytes, rfl⟩, room⟩, fun _ => ?_, nofun, nofun⟩
      rw [← count]
      refine ⟨bytes, rfl, Bytes.overwrite_eq_assign out bytes, ?_, Bytes.take_overwrite out bytes,
        Bytes.drop_overwrite out bytes⟩
      refine (Bytes.length_overwrite out bytes).trans ?_
      omega
  · obtain ⟨fault, failed, cause⟩ := short (Int.lt_of_not_ge room)
    rw [failed]
    refine ⟨iff_of_false nofun fun ⟨_, enough⟩ => room enough, nofun, fun _ _ => rfl, ?_⟩
    rintro _ ⟨⟩
    exact cause.imp_right fun small => ⟨Int.lt_of_not_ge room, small⟩

/-! ## The length of what is returned -/

theorem outputLength_eq_ok_iff {length : Int} {n : Nat} :
    outputLength length = .ok n ↔ (n : Int) = length ∧ 1 ≤ n ∧ n ≤ outBytes := by
  unfold outputLength
  split
  next inRange =>
    rw [Except.ok.injEq]
    omega
  next outside => exact iff_of_false nofun fun ⟨same, inRange⟩ => outside (by omega)

theorem Chain.length_bytes (chain : Chain) : chain.bytes.length = outBytes := by
  have words (l : List UInt32) : (l.flatMap Word.toBytes).length = 4 * l.length := by
    simp only [List.length_flatMap, Word.length_toBytes, List.map_const', List.sum_replicate_nat]
    exact Nat.mul_comm _ _
  rw [bytes, words, Vector.length_toList]
  rfl

/-- Whatever an operation returns has `post`. -/
def HashM.Returns (x : HashM σ α) (post : α → Prop) : Prop :=
  ∀ s m a, (x.runOn s m).1.1 = .ok a → post a

namespace HashM.Returns

variable {x : HashM σ α} {mid : α → Prop} {post : β → Prop}

theorem any (x : HashM σ α) : x.Returns fun _ => True := fun _ _ _ _ => trivial

theorem pure {a : β} (h : post a) : Returns (Pure.pure a : HashM σ β) post := by
  rintro s m _ ⟨⟩
  exact h

theorem bind {f : α → HashM σ β} (hx : x.Returns mid) (hf : ∀ a, mid a → (f a).Returns post) :
    (x >>= f).Returns post := by
  intro s m b ok
  rw [runOn_bind] at ok
  have first := hx s m
  rcases run : x.runOn s m with ⟨⟨fault | a, s'⟩, m'⟩
  · rw [run] at ok
    exact nomatch ok
  · rw [run] at ok first
    exact hf a (first a rfl) s' m' b ok

end HashM.Returns

/-! ## Digests -/

namespace State

variable {e : Engine σ}

theorem returns_finish {n : Nat} (valid : n ≤ outBytes) :
    (finish e n).Returns fun bytes => bytes.length = n := by
  intro s m bytes ok
  rw [runOn_finish] at ok
  rcases asked : Action.runOn (e s.closeLastBlock.chain (bufferBatch s.closeLastBlock.buffer s.filled)) m
    with ⟨fault | chain, m'⟩
  · rw [asked] at ok
    exact nomatch ok
  · rw [asked] at ok
    cases ok
    rw [List.length_take, Chain.length_bytes, Nat.min_eq_left valid]

/-- A limit on the room makes a difference only if it is too small for the length asked for. -/
theorem finalLength_some (outlen : Nat) (requested : Option Int) (room : Nat) :
    finalLength outlen requested (some room)
      = match finalLength outlen requested none with
        | .ok n => if room < n then .error (.outputRoom n) else .ok n
        | .error fault => .error fault := by
  unfold finalLength
  split
  · rfl
  · cases outputLength (requested.getD outlen) with
    | error fault => rfl
    | ok n => simp

theorem of_finalLength {outlen : Nat} {requested : Option Int} {n : Nat}
    (granted : finalLength outlen requested none = .ok n) :
    (n : Int) = requested.getD outlen ∧ n ≤ outBytes := by
  unfold finalLength at granted
  split at granted
  · exact nomatch granted
  · cases valid : outputLength (requested.getD outlen) with
    | error fault =>
      rw [valid] at granted
      exact nomatch granted
    | ok n' =>
      rw [valid] at granted
      cases granted
      obtain ⟨same, -, le⟩ := outputLength_eq_ok_iff.mp valid
      exact ⟨same, le⟩

theorem delivers_final (e : Engine σ) (requested : Option Int) (out : Bytes) (s : State) (m : σ) :
    Delivers out (requested.getD s.outlen) ((final e requested).runOn s m).1.1
      (((finalInto e requested out).run s).run m).1.1 := by
  have into : (((finalInto e requested out).run s).run m).1.1
      = written out ((finalWithin e requested (some out.length)).runOn s m).1.1 := by
    rw [finalInto_eq_map]
    rfl
  rw [into, final]
  -- the limit on the room adds one more way to be refused, and no other difference
  have limited := finalLength_some s.outlen requested out.length
  cases asked : finalLength s.outlen requested none with
  | error fault =>
    rw [asked] at limited
    have same : ((finalWithin e requested (some out.length)).runOn s m).1.1 = .error fault := by
      rw [finalWithin_of_refused limited]
    rw [finalWithin_of_refused asked]
    refine delivers_written nofun (fun _ => same) fun _ => ⟨fault, same, .inl rfl⟩
  | ok n =>
    obtain ⟨count, valid⟩ := of_finalLength asked
    rw [asked] at limited
    rw [finalWithin_of_granted asked, ← count]
    refine delivers_written (fun bytes ok => ?_) (fun fits => ?_) fun short => ?_
    · rw [returns_finish valid s m bytes ok]
    · dsimp only at limited
      rw [if_neg (by omega)] at limited
      rw [finalWithin_of_granted limited]
    · dsimp only at limited
      rw [if_pos (by omega)] at limited
      refine ⟨.outputRoom n, ?_, .inr rfl⟩
      rw [finalWithin_of_refused limited]

end State

/-! ## Tags -/

namespace Mac

variable {e : Engine σ}

/-- The buffer of a hash keeps its length. -/
theorem returns_hashInto (pieces : List Bytes) (out : Bytes) :
    (hashInto e pieces out).Returns fun out' => out'.length = out.length := by
  refine .bind (.any _) fun _ _ => ?_
  refine .bind (.any _) fun _ _ => ?_
  have keeps : HashM.Returns (ExceptT.lift (State.finalInto e (some outBytes) out))
      fun into => into.1 = .ok () → into.2.length = out.length := by
    intro s m into ok
    have delivers := State.delivers_final e (some outBytes) out s m
    rw [show ((((State.finalInto e (some outBytes) out).run s).run m).1.1) = into from
      Except.ok.inj ok] at delivers
    intro succeeded
    obtain ⟨_, -, -, length, -⟩ := delivers.written succeeded
    exact length
  have succeeds (outcome : Except Fault Unit) :
      HashM.Returns (liftM outcome : HashM σ Unit) fun _ => outcome = .ok () := by
    intro s m _ ok
    rw [HashM.runOn_lift] at ok
    exact ok
  refine .bind keeps fun into kept => ?_
  exact .bind (succeeds into.1) fun _ succeeded => .pure (kept succeeded)

theorem length_fullTag {message key full : Bytes} {m m' : σ}
    (run : Action.runOn (fullTag e message key) m = (.ok full, m')) : full.length = outBytes := by
  have returns : HashM.Returns (σ := σ) (do
      let block := (← blockKey e key).mask innerPad
      let digest ← hashInto e [block, message] (Bytes.zeros outBytes)
      let block := block.mask (outerPad ^^^ innerPad)
      hashInto e [block, digest] digest) fun full => full.length = outBytes := by
    refine .bind (.any _) fun block _ => ?_
    -- the outer hash is written over the inner one, in the same buffer
    refine .bind (returns_hashInto _ _) fun digest length => ?_
    rw [Bytes.length_zeros] at length
    rw [← length]
    exact returns_hashInto _ digest
  exact returns {} m full (congrArg Prod.fst run)

theorem runOn_tagWithin (message key : Bytes) (length : Int) (room : Option Nat) (m : σ) :
    Action.runOn (tagWithin e message key length room) m
      = match outputLength length with
        | .error fault => (.error fault, m)
        | .ok n =>
          if room.any (· < n) then (.error (.outputRoom n), m)
          else
            let run := Action.runOn (fullTag e message key) m
            (run.1.map (·.take n), run.2) := by
  simp only [tagWithin, Action.runOn_bind, Action.runOn_lift]
  cases outputLength length with
  | error fault => rfl
  | ok n =>
    dsimp only
    split
    · rfl
    · rw [Action.runOn_bind]
      rcases Action.runOn (fullTag e message key) m with ⟨_ | _, _⟩ <;> rfl

theorem tagInto_eq_map (message key : Bytes) (length : Int) (out : Bytes) :
    tagInto e message key length out
      = State.written out <$> (tagWithin e message key length (some out.length)).run := by
  rw [tagInto, map_eq_pure_bind]
  refine bind_congr fun outcome => ?_
  cases outcome <;> rfl

theorem delivers_tag (e : Engine σ) (message key : Bytes) (length : Int) (out : Bytes) (m : σ) :
    Delivers out length (Action.runOn (tag e message key length) m).1
      ((tagInto e message key length out).run m).1 := by
  have into : ((tagInto e message key length out).run m).1
      = State.written out (Action.runOn (tagWithin e message key length (some out.length)) m).1 := by
    rw [tagInto_eq_map]
    rfl
  rw [into, tag, runOn_tagWithin, runOn_tagWithin]
  cases asked : outputLength length with
  | error fault =>
    exact delivers_written nofun (fun _ => rfl) fun _ => ⟨fault, rfl, .inl rfl⟩
  | ok n =>
    obtain ⟨count, -, valid⟩ := outputLength_eq_ok_iff.mp asked
    simp only [Option.any_none, Option.any_some, Bool.false_eq_true, if_false, decide_eq_true_eq]
    rw [← count]
    refine delivers_written (fun bytes ok => ?_) (fun fits => ?_) fun short => ?_
    · rcases run : Action.runOn (fullTag e message key) m with ⟨fault | full, m'⟩
      · rw [run] at ok
        exact nomatch ok
      · rw [run] at ok
        cases ok
        rw [List.length_take, length_fullTag run, Nat.min_eq_left valid]
    · rw [if_neg (by omega)]
    · rw [if_pos (by omega)]
      exact ⟨.outputRoom n, rfl, .inr rfl⟩

end Mac

/-! ## Both -/

/-- **Output buffers are written exactly or not at all**, through every engine and from every memory:
    for every state and request the digest, for every message and key the tag. -/
theorem delivers_digest_and_tag (e : Engine σ) (out : Bytes) (m : σ) :
    (∀ (s : State) (requested : Option Int),
      Delivers out (requested.getD s.outlen) ((State.final e requested).runOn s m).1.1
        (((State.finalInto e requested out).run s).run m).1.1) ∧
    ∀ (message key : Bytes) (length : Int),
      Delivers out length (Action.runOn (Mac.tag e message key length) m).1
        ((Mac.tagInto e message key length out).run m).1 :=
  ⟨fun s requested => State.delivers_final e requested out s m,
    fun message key length => Mac.delivers_tag e message key length out m⟩

end Blake2s
