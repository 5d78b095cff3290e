import Blake2s.Derivation
import Blake2s.Hasher
import Blake2s.Proofs.Engine.Alike
import Blake2s.SelfTest

set_option autoImplicit false

/-! # Everything that hashes, over engines that are alike

Each operation reaches compression through its engine only, so over engines that are alike it has
the same outcome and leaves the same state: the operations on a hash state first, then what is
computed with states of its own. -/

namespace Blake2s

variable {σ τ : Type} {R : σ → τ → Prop} {e : Engine σ} {e' : Engine τ}

/-! ## Operations on a hash state -/

namespace State

theorem alike_requireLive : HashM.Alike R (requireLive : HashM σ Unit) requireLive := by
  refine .bind .get fun s => ?_
  split
  · exact .throw _
  · exact .pure _

theorem alike_compress (h : e.Alike R e') (batch : Batch) :
    HashM.Alike R (compress e batch) (compress e' batch) := by
  refine .check ?_
  refine .bind .get fun s => ?_
  refine .bind (.ofEngine (h s.chain batch)) fun chain => ?_
  exact .modifyState _

theorem alike_compressBuffer (h : e.Alike R e') (n : Nat) :
    HashM.Alike R (compressBuffer e n) (compressBuffer e' n) := by
  refine .bind .get fun s => ?_
  exact alike_compress h _

theorem alike_topOff (h : e.Alike R e') (data : Bytes) :
    HashM.Alike R (topOff e data) (topOff e' data) := by
  refine .bind .get fun s => ?_
  dsimp only
  split
  · exact .pure _
  · refine .bind (.set _) fun _ => ?_
    refine .bind (alike_compressBuffer h blockBytes) fun _ => ?_
    exact .bind (.modifyState _) fun _ => .pure _

theorem alike_compressAhead (h : e.Alike R e') (data : Bytes) :
    HashM.Alike R (compressAhead e data) (compressAhead e' data) := by
  unfold compressAhead
  split
  · exact .pure _
  · exact .bind (alike_compress h _) fun _ => .pure _

theorem alike_update (h : e.Alike R e') (data : Bytes) :
    HashM.Alike R (update e data) (update e' data) := by
  refine .bind alike_requireLive fun _ => ?_
  refine .bind (alike_topOff h data) fun rest => ?_
  refine .bind (alike_compressAhead h rest) fun last => ?_
  exact .modifyState _

theorem alike_start (h : e.Alike R e') (p : Parameters) (key : Bytes) (lastNode : Bool) :
    HashM.Alike R (start e p key lastNode) (start e' p key lastNode) := by
  refine .check ?_
  refine .bind (.set _) fun _ => ?_
  split
  · exact .pure _
  · exact alike_update h _

theorem alike_init (h : e.Alike R e') (outlen : Int) :
    HashM.Alike R (init e outlen) (init e' outlen) := by
  refine .bind (.lift _) fun _ => ?_
  refine .bind (.lift _) fun p => ?_
  exact alike_start h p [] false

theorem alike_initKeyed (h : e.Alike R e') (outlen : Int) (key : Bytes) :
    HashM.Alike R (initKeyed e outlen key) (initKeyed e' outlen key) := by
  refine .bind (.lift _) fun _ => ?_
  refine .check ?_
  refine .bind (.lift _) fun p => ?_
  exact alike_start h p key false

theorem alike_finish (h : e.Alike R e') (n : Nat) :
    HashM.Alike R (finish e n) (finish e' n) := by
  refine .bind (.modifyState _) fun _ => ?_
  refine .bind .get fun s => ?_
  refine .bind (alike_compressBuffer h s.filled) fun _ => ?_
  refine .bind .get fun _ => ?_
  exact .bind (.modifyState _) fun _ => .pure _

theorem alike_finalWithin (h : e.Alike R e') (requested : Option Int) (room : Option Nat) :
    HashM.Alike R (finalWithin e requested room) (finalWithin e' requested room) := by
  refine .bind alike_requireLive fun _ => ?_
  refine .bind .get fun s => ?_
  refine .bind (.lift _) fun n => ?_
  exact .check (alike_finish h n)

theorem alike_final (h : e.Alike R e') (requested : Option Int) :
    HashM.Alike R (final e requested) (final e' requested) :=
  alike_finalWithin h requested none

/-- A whole hash. -/
theorem alike_hash (h : e.Alike R e') (p : Parameters) (key : Bytes) (lastNode : Bool)
    (chunks : List Bytes) (requested : Option Int) :
    HashM.Alike R
      (do
        start e p key lastNode
        chunks.forM (update e)
        final e requested)
      (do
        start e' p key lastNode
        chunks.forM (update e')
        final e' requested) := by
  refine .bind (alike_start h p key lastNode) fun _ => ?_
  refine .bind (.forM (alike_update h) chunks) fun _ => ?_
  exact alike_final h requested

/-- What a caller gets from finishing into a buffer. -/
def written (out : Bytes) : Except Fault Bytes → Except Fault Unit × Bytes
  | .ok digest => (.ok (), out.overwrite digest)
  | .error fault => (.error fault, out)

theorem finalInto_eq_map (requested : Option Int) (out : Bytes) :
    finalInto e requested out = written out <$> (finalWithin e requested (some out.length)).run := by
  rw [finalInto, map_eq_pure_bind]
  refine bind_congr fun outcome => ?_
  cases outcome <;> rfl

theorem alike_finalInto (h : e.Alike R e') (requested : Option Int) (out : Bytes) :
    HashM.Alike R (ExceptT.lift (finalInto e requested out))
      (ExceptT.lift (finalInto e' requested out)) := by
  rw [finalInto_eq_map, finalInto_eq_map]
  exact .outcome (alike_finalWithin h requested _) (written out)

end State

/-! ## Hashers -/

namespace Hasher

theorem alike_new (h : e.Alike R e') (options : Options) (data : Bytes) :
    Action.Alike R (new e options data) (new e' options data) := by
  refine .bind (.lift _) fun p => ?_
  refine .bind (HashM.Alike.evalFrom _ ?_) fun state => .pure _
  refine .bind (State.alike_start h p options.key options.lastNode) fun _ => ?_
  exact .bind (State.alike_update h data) fun _ => .get

theorem runOn_update (e : Engine σ) (hasher : Hasher) (data : Bytes) (m : σ) :
    Action.runOn (ExceptT.lift (hasher.update e data)) m
      = let run := (State.update e data).runOn hasher.state m
        (.ok (run.1.1, { hasher with state := run.1.2 }), run.2) := rfl

theorem alike_update (h : e.Alike R e') (hasher : Hasher) (data : Bytes) :
    Action.Alike R (ExceptT.lift (hasher.update e data)) (ExceptT.lift (hasher.update e' data)) := by
  intro m n hR
  obtain ⟨same, memory⟩ := State.alike_update h data hasher.state m n hR
  rw [runOn_update, runOn_update]
  dsimp only
  rw [same]
  exact ⟨rfl, memory⟩

theorem alike_digest (h : e.Alike R e') (hasher : Hasher) :
    Action.Alike R (hasher.digest e) (hasher.digest e') :=
  HashM.Alike.evalFrom _ (State.alike_final h none)

theorem alike_hexDigest (h : e.Alike R e') (hasher : Hasher) :
    Action.Alike R (hasher.hexDigest e) (hasher.hexDigest e') := by
  rw [hexDigest, hexDigest, map_eq_pure_bind, map_eq_pure_bind]
  exact .bind (alike_digest h hasher) fun _ => .pure _

end Hasher

/-! ## Message authentication and key derivation -/

namespace Mac

theorem alike_hashInto (h : e.Alike R e') (pieces : List Bytes) (out : Bytes) :
    HashM.Alike R (hashInto e pieces out) (hashInto e' pieces out) := by
  refine .bind (State.alike_init h outBytes) fun _ => ?_
  refine .bind (.forM (State.alike_update h) pieces) fun _ => ?_
  refine .bind (State.alike_finalInto h (some outBytes) out) fun _ => ?_
  exact .bind (.lift _) fun _ => .pure _

theorem alike_blockKey (h : e.Alike R e') (key : Bytes) :
    HashM.Alike R (blockKey e key) (blockKey e' key) := by
  unfold blockKey
  dsimp only
  split
  · exact alike_hashInto h [key] _
  · exact .pure _

theorem alike_fullTag (h : e.Alike R e') (message key : Bytes) :
    Action.Alike R (fullTag e message key) (fullTag e' message key) := by
  refine HashM.Alike.evalFrom _ ?_
  refine .bind (alike_blockKey h key) fun block => ?_
  refine .bind (alike_hashInto h _ _) fun digest => ?_
  exact alike_hashInto h _ digest

theorem alike_tagWithin (h : e.Alike R e') (message key : Bytes) (length : Int)
    (room : Option Nat) :
    Action.Alike R (tagWithin e message key length room) (tagWithin e' message key length room) := by
  refine .bind (.lift _) fun n => ?_
  refine .check ?_
  exact .bind (alike_fullTag h message key) fun _ => .pure _

theorem alike_tag (h : e.Alike R e') (message key : Bytes) (length : Int) :
    Action.Alike R (tag e message key length) (tag e' message key length) :=
  alike_tagWithin h message key length none

theorem alike_verify (h : e.Alike R e') (given message key : Bytes) :
    Action.Alike R (verify e given message key) (verify e' given message key) := by
  refine .check ?_
  refine .bind (alike_tag h message key _) fun expected => ?_
  split
  · exact .throw _
  · exact .pure _

end Mac

namespace Derivation

theorem alike_extract (h : e.Alike R e') (material : Bytes) (salt : Option Bytes) :
    Action.Alike R (extract e material salt) (extract e' material salt) :=
  Mac.alike_tag h material _ _

/-- As long as the codes are alike. -/
theorem alike_grow {code : Bytes → Action σ Bytes} {code' : Bytes → Action τ Bytes}
    (h : ∀ message, Action.Alike R (code message) (code' message)) (info : Bytes) (length : Nat)
    (output previous : Bytes) (counter : Nat) :
    Action.Alike R (grow code info length output previous counter)
      (grow code' info length output previous counter) := by
  fun_induction grow code info length output previous counter with
  | case1 output previous counter done => 
    rw [grow, if_pos done]
    exact .pure _
  | case2 output previous counter short small ih =>
    rw [grow, if_neg short, if_pos small]
    exact .bind (h _) ih
  | case3 output previous counter short large =>
    rw [grow, if_neg short, if_neg large]
    exact .throw _

theorem alike_expand (h : e.Alike R e') (key info : Bytes) (length : Int) :
    Action.Alike R (expand e key info length) (expand e' key info length) := by
  refine .check ?_
  refine .bind (alike_grow (fun message => ?_) info _ [] [] 1) fun _ => .pure _
  exact Mac.alike_tag h message key outBytes

theorem alike_derive (h : e.Alike R e') (material : Bytes) (salt : Option Bytes) (info : Bytes)
    (length : Int) :
    Action.Alike R (derive e material salt info length) (derive e' material salt info length) := by
  refine .bind (alike_extract h material salt) fun key => ?_
  exact alike_expand h key info length

end Derivation

/-! ## The self-test -/

namespace SelfTest

theorem alike_hash (h : e.Alike R e') (outlen : Nat) (data key : Bytes) :
    Action.Alike R (hash e outlen data key) (hash e' outlen data key) := by
  refine HashM.Alike.evalFrom _ ?_
  have rest : HashM.Alike R (do State.update e data; State.final e none)
      (do State.update e' data; State.final e' none) :=
    .bind (State.alike_update h data) fun _ => State.alike_final h none
  dsimp only
  split
  · exact .bind (State.alike_init h outlen) fun _ => rest
  · exact .bind (State.alike_initKeyed h outlen key) fun _ => rest

theorem alike_absorbCase (h : e.Alike R e') (outlen inlen : Nat) :
    HashM.Alike R (absorbCase e outlen inlen) (absorbCase e' outlen inlen) := by
  refine .bind (.ofEngine (alike_hash h outlen _ [])) fun unkeyed => ?_
  refine .bind (State.alike_update h unkeyed) fun _ => ?_
  refine .bind (.ofEngine (alike_hash h outlen _ _)) fun keyed => ?_
  exact State.alike_update h keyed

theorem alike_grandHash (h : e.Alike R e') : Action.Alike R (grandHash e) (grandHash e') := by
  refine HashM.Alike.evalFrom _ ?_
  refine .bind (State.alike_init h outBytes) fun _ => ?_
  refine .bind (.forM (fun outlen => .forM (alike_absorbCase h outlen) _) _) fun _ => ?_
  exact State.alike_final h none

theorem alike_compute (h : e.Alike R e') (answer : KnownAnswer) :
    Action.Alike R (compute e answer) (compute e' answer) := by
  cases answer with
  | empty => exact alike_hash h _ _ _
  | abc => exact alike_hash h _ _ _
  | grand => exact alike_grandHash h

theorem alike_firstMismatch (h : e.Alike R e') (answers : List KnownAnswer) :
    Action.Alike R (firstMismatch e answers) (firstMismatch e' answers) := by
  induction answers with
  | nil => exact .pure _
  | cons answer answers ih =>
    refine .bind (alike_compute h answer) fun digest => ?_
    split
    · exact ih
    · exact .pure _

theorem alike_run (h : e.Alike R e') : Action.Alike R (run e) (run e') :=
  alike_firstMismatch h _

end SelfTest

end Blake2s
