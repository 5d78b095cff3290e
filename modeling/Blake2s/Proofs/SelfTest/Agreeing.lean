import Blake2s.Proofs.Output
import Blake2s.Proofs.SelfTest.Hashes

set_option autoImplicit false

/-! # Engines that the self-test cannot tell apart

No input of the self-test is longer than 1024 bytes, so no batch is of more than fifteen blocks. What an
engine does with larger batches never shows: through engines that agree up to fifteen blocks the
self-test is the same program (`SelfTest.run_of_agree`). -/

namespace Blake2s

variable {σ α β : Type} {e e' : Engine σ}

/-- Are two engines the same on all batches of at most fifteen blocks? -/
def Engine.Agree (e e' : Engine σ) : Prop :=
  ∀ chain (batch : Batch), batch.count ≤ 15 → e chain batch = e' chain batch

/-- What follows an operation matters only for what the operation returns. -/
theorem HashM.Returns.bind_congr {x : HashM σ α} {post : α → Prop} (hx : x.Returns post)
    {f g : α → HashM σ β} (h : ∀ a, post a → f a = g a) : x >>= f = x >>= g := by
  refine HashM.ext fun s m => ?_
  have first := hx s m
  rw [runOn_bind, runOn_bind]
  rcases run : x.runOn s m with ⟨⟨fault | a, s'⟩, m'⟩
  · rfl
  · rw [run] at first
    dsimp only
    rw [h a (first a rfl)]

/-- What is computed apart from the state returns what the computation does. -/
theorem HashM.Returns.ofEngine_evalFrom {x : HashM σ α} {post : α → Prop} (hx : x.Returns post)
    (s₀ : State) : (HashM.ofEngine (HashM.evalFrom s₀ x)).Returns post :=
  fun _ m a ok => hx s₀ m a ok

/-! ## Operations on a hash state -/

namespace State

theorem returns_topOff (e : Engine σ) (data : Bytes) :
    (topOff e data).Returns fun rest => rest.length ≤ data.length := by
  intro s m rest ok
  by_cases h : data.length ≤ 64 - s.filled
  · rw [runOn_topOff_of_le h] at ok
    cases ok
    exact Nat.le_refl _
  · rw [runOn_topOff_of_lt (Nat.lt_of_not_le h)] at ok
    rcases asked : Action.runOn (e s.chain (bufferBatch (s.toppedOff data) 64)) m
      with ⟨fault | chain, m'⟩
    · rw [asked] at ok
      exact nomatch ok
    · rw [asked] at ok
      cases ok
      rw [List.length_drop]
      exact Nat.sub_le _ _

theorem returns_final (e : Engine σ) :
    (final e none).Returns fun digest => digest.length ≤ outBytes := by
  intro s m digest ok
  cases granted : finalLength s.outlen none none with
  | error fault =>
    rw [final, finalWithin_of_refused granted] at ok
    cases ok
  | ok n =>
    rw [final, finalWithin_of_granted granted] at ok
    have valid := (of_finalLength granted).2
    rw [returns_finish valid s m digest ok]
    exact valid

variable (agree : e.Agree e')

include agree

theorem compress_of_agree {batch : Batch} (small : batch.count ≤ 15) :
    compress e batch = compress e' batch := by
  simp only [compress, agree _ batch small]

theorem compressBuffer_of_agree (n : Nat) : compressBuffer e n = compressBuffer e' n := by
  have one : 1 ≤ 15 := by decide
  have same (bytes : Bytes) : compress e { bytes, count := 1, inc := n }
      = compress e' { bytes, count := 1, inc := n } := compress_of_agree agree one
  simp only [compressBuffer, same]

theorem topOff_of_agree (data : Bytes) : topOff e data = topOff e' data := by
  simp only [topOff, compressBuffer_of_agree agree]

theorem compressAhead_of_agree {data : Bytes} (short : data.length ≤ 1024) :
    compressAhead e data = compressAhead e' data := by
  have small : (data.length + blockBytes - 1) / blockBytes - 1 ≤ 15 := by
    simp only [blockBytes]
    omega
  have same (inc : Int) : compress e
        { bytes := data, count := (data.length + blockBytes - 1) / blockBytes - 1, inc }
      = compress e'
        { bytes := data, count := (data.length + blockBytes - 1) / blockBytes - 1, inc } :=
    compress_of_agree agree small
  simp only [compressAhead, same]

theorem update_of_agree {data : Bytes} (short : data.length ≤ 1024) :
    update e data = update e' data := by
  unfold update
  rw [topOff_of_agree agree]
  -- topping off leaves no more than there was, so what is compressed ahead is short, too
  refine congrArg (requireLive >>= ·) (funext fun _ => ?_)
  refine (returns_topOff e' data).bind_congr fun rest shorter => ?_
  rw [compressAhead_of_agree agree (Nat.le_trans shorter short)]

theorem start_of_agree (p : Parameters) {key : Bytes} (short : key.length ≤ keyBytes)
    (lastNode : Bool) : start e p key lastNode = start e' p key lastNode := by
  have block : (key.padTo blockBytes).length ≤ 1024 := by
    rw [Bytes.length_padTo]
    exact Nat.max_le.mpr ⟨by decide, Nat.le_trans short (by decide)⟩
  simp only [start, update_of_agree agree block]

theorem init_of_agree (outlen : Int) : init e outlen = init e' outlen := by
  have unkeyed : ([] : Bytes).length ≤ keyBytes := Nat.zero_le keyBytes
  simp only [init, start_of_agree agree _ unkeyed]

theorem initKeyed_of_agree (outlen : Int) {key : Bytes} (short : key.length ≤ keyBytes) :
    initKeyed e outlen key = initKeyed e' outlen key := by
  simp only [initKeyed, start_of_agree agree _ short]

theorem final_of_agree (requested : Option Int) : final e requested = final e' requested := by
  simp only [final, finalWithin, finish, compressBuffer_of_agree agree]

end State

/-! ## The self-test -/

namespace SelfTest

theorem returns_hash (e : Engine σ) (outlen : Nat) (data key : Bytes) :
    (HashM.ofEngine (hash e outlen data key)).Returns fun digest => digest.length ≤ outBytes := by
  refine HashM.Returns.ofEngine_evalFrom ?_ {}
  dsimp only
  have rest : HashM.Returns
      (do
        State.update e data
        State.final e none) fun digest => digest.length ≤ outBytes :=
    .bind (.any _) fun _ _ => State.returns_final e
  split
  · exact .bind (.any _) fun _ _ => rest
  · exact .bind (.any _) fun _ _ => rest

variable (agree : e.Agree e')

include agree

theorem hash_of_agree (outlen : Nat) {data key : Bytes} (hdata : data.length ≤ 1024)
    (hkey : key.length ≤ keyBytes) : hash e outlen data key = hash e' outlen data key := by
  simp only [hash, State.init_of_agree agree, State.initKeyed_of_agree agree _ hkey,
    State.update_of_agree agree hdata, State.final_of_agree agree]

theorem absorbCase_of_agree {outlen inlen : Nat} (hout : outlen ≤ keyBytes) (hin : inlen ≤ 1024) :
    absorbCase e outlen inlen = absorbCase e' outlen inlen := by
  have unkeyed : ([] : Bytes).length ≤ keyBytes := Nat.zero_le keyBytes
  have data : (sequence inlen inlen).length ≤ 1024 := by
    rwa [length_sequence]
  have key : (sequence outlen outlen).length ≤ keyBytes := by
    rwa [length_sequence]
  have update (digest : Bytes) (short : digest.length ≤ outBytes) :
      State.update e digest = State.update e' digest :=
    State.update_of_agree agree (Nat.le_trans short (by decide))
  simp only [absorbCase, hash_of_agree agree outlen data unkeyed, hash_of_agree agree outlen data key]
  -- what is absorbed is a digest, whatever the engine makes of it, and a digest is short
  refine (returns_hash e' outlen _ []).bind_congr fun digest short => ?_
  rw [update digest short]
  refine congrArg (State.update e' digest >>= ·) (funext fun _ => ?_)
  exact (returns_hash e' outlen _ _).bind_congr update

theorem grandHash_of_agree : grandHash e = grandHash e' := by
  have absorbs {cases : List (Nat × Nat)} (h : ∀ c ∈ cases, (1 ≤ c.1 ∧ c.1 ≤ 32) ∧ c.2 ≤ 1024) :
      (cases.forM fun c => absorbCase e c.1 c.2) = cases.forM fun c => absorbCase e' c.1 c.2 := by
    simp only [List.forM_eq_forM]
    induction cases with
    | nil => rw [List.forM_nil, List.forM_nil]
    | cons c cases ih =>
      obtain ⟨⟨hout, hin⟩, rest⟩ := List.forall_mem_cons.mp h
      rw [List.forM_cons, List.forM_cons, absorbCase_of_agree agree hout.2 hin, ih rest]
  rw [grandHash, grandHash, forM_cases, forM_cases, State.init_of_agree agree,
    State.final_of_agree agree, absorbs bounds_of_mem_cases]

theorem compute_of_agree : compute e = compute e' := by
  have unkeyed : ([] : Bytes).length ≤ keyBytes := Nat.zero_le keyBytes
  funext answer
  cases answer with
  | empty => exact hash_of_agree agree _ (Nat.zero_le 1024) unkeyed
  | abc => exact hash_of_agree agree _ (by decide) unkeyed
  | grand => exact grandHash_of_agree agree

/-- **The self-test shows nothing of larger batches.** -/
theorem run_of_agree : run e = run e' := by
  have same (answers : List KnownAnswer) : firstMismatch e answers = firstMismatch e' answers := by
    induction answers with
    | nil => rfl
    | cons answer answers ih => rw [firstMismatch, firstMismatch, compute_of_agree agree, ih]
  exact same _

end SelfTest

end Blake2s
