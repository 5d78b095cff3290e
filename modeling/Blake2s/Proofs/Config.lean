import Blake2s.Config
import Blake2s.Proofs.Text.Decimal
import Mathlib.Data.List.Forall2

set_option autoImplicit false

/-! # What an environment configures

Three variables configure which backend is selected. `Config.ReadFrom` says what a configuration has
from each of them, in terms of the texts that turn a flag on (`Text.TurnsOn`) and of the texts that
are integers (`Text.Denotes`). An environment is refused exactly if its least batch size is set to a
text that is no integer (`Config.ofEnvironment_exact`). -/

namespace Blake2s

namespace Text

/-! ## Flags -/

/-- One of four words, its ASCII letters in either case, with any blanks around it. -/
def TurnsOn (text : String) : Prop :=
  ∃ word ∈ ["1", "true", "yes", "on"], ∃ before core after,
    text.toList = before ++ core ++ after ∧ (∀ c ∈ before, isBlank c = true) ∧
      (∀ c ∈ after, isBlank c = true) ∧
      List.Forall₂ (fun c d => c = d ∨ c = d.toUpper) core word.toList

theorem toNat_toLower (c : Char) :
    c.toLower.toNat = if 65 ≤ c.toNat ∧ c.toNat ≤ 90 then c.toNat + 32 else c.toNat := by
  unfold Char.toLower
  split
  next h =>
    have capital : 65 ≤ c.val.toNat ∧ c.val.toNat ≤ 90 := h
    have sum : (c.val + 32).toNat = c.val.toNat + 32 := by
      have offset : (32 : UInt32).toNat = 32 := rfl
      rw [UInt32.toNat_add, offset]
      omega
    exact sum.trans (if_pos capital).symm
  next h => exact (if_neg h).symm

theorem toNat_toUpper (c : Char) :
    c.toUpper.toNat = if 97 ≤ c.toNat ∧ c.toNat ≤ 122 then c.toNat - 32 else c.toNat := by
  unfold Char.toUpper
  split
  next h =>
    have small : 97 ≤ c.val.toNat ∧ c.val.toNat ≤ 122 := h
    have difference : (c.val + ('A'.val - 'a'.val)).toNat = c.val.toNat - 32 := by
      have offset : ('A'.val - 'a'.val).toNat = 2 ^ 32 - 32 := rfl
      rw [UInt32.toNat_add, offset]
      omega
    exact difference.trans (if_pos small).symm
  next h => exact (if_neg h).symm

/-- What a character that is not a capital stands for when the case does not matter. -/
theorem toLower_eq_iff {c d : Char} (small : d.toLower = d) :
    c.toLower = d ↔ c = d ∨ c = d.toUpper := by
  rw [← Char.toNat_inj, toNat_toLower] at small
  rw [← Char.toNat_inj, ← Char.toNat_inj, ← Char.toNat_inj, toNat_toLower, toNat_toUpper]
  split_ifs at small ⊢ <;> omega

theorem truthy_small : ∀ word ∈ Config.truthy, ∀ d ∈ word.toList, d.toLower = d := by
  have all : Config.truthy.all (fun word => word.toList.all fun d => d.toLower == d) = true := by
    decide
  simpa only [List.all_eq_true, beq_iff_eq] using all

theorem truthy_not_blank :
    ∀ word ∈ Config.truthy, ∀ d ∈ word.toList, isBlank d = false ∧ isBlank d.toUpper = false := by
  have all : Config.truthy.all (fun word =>
      word.toList.all fun d => !isBlank d && !isBlank d.toUpper) = true := by
    decide
  simpa only [List.all_eq_true, Bool.and_eq_true, Bool.not_eq_true'] using all

theorem map_toLower_eq_iff {core word : List Char} (small : ∀ d ∈ word, d.toLower = d) :
    core.map Char.toLower = word ↔
      List.Forall₂ (fun c d => c = d ∨ c = d.toUpper) core word := by
  induction word generalizing core with
  | nil => rw [List.map_eq_nil_iff, List.forall₂_nil_right_iff]
  | cons d word ih =>
    have rest := fun d hd => small d (List.mem_cons_of_mem _ hd)
    cases core with
    | nil => exact iff_of_false nofun nofun
    | cons c core =>
      rw [List.map_cons, List.cons.injEq, List.forall₂_cons, ih rest,
        toLower_eq_iff (small d List.mem_cons_self)]

/-- No blank can be taken for a character of such a word. -/
theorem trimmed_of_truthy {word : String} (hword : word ∈ Config.truthy) {core : List Char}
    (same : List.Forall₂ (fun c d => c = d ∨ c = d.toUpper) core word.toList) :
    Trimmed isBlank core := by
  have inside : ∀ c ∈ core, isBlank c = false := by
    intro c hc
    obtain ⟨i, hi, rfl⟩ := List.getElem_of_mem hc
    have hi' : i < word.toList.length := same.length_eq ▸ hi
    have plain := truthy_not_blank word hword _ (List.getElem_mem hi')
    rcases same.get hi hi' with h | h
    · rw [List.get_eq_getElem, List.get_eq_getElem] at h
      rw [h]
      exact plain.1
    · rw [List.get_eq_getElem, List.get_eq_getElem] at h
      rw [h]
      exact plain.2
  exact ⟨fun c hc => inside c (List.mem_of_head? hc),
    fun c hc => inside c (List.mem_of_getLast? hc)⟩

theorem isOn_iff (text : String) : Config.isOn text = true ↔ TurnsOn text := by
  rw [Config.isOn, List.any_eq_true]
  refine exists_congr fun word => and_congr_right fun hword => ?_
  rw [decide_eq_true_eq, map_toLower_eq_iff (truthy_small word hword)]
  constructor
  · intro same
    obtain ⟨-, before, after, split, hbefore, hafter⟩ := trim_eq_iff.mp rfl
    exact ⟨before, _, after, split, hbefore, hafter, same⟩
  · rintro ⟨before, core, after, split, hbefore, hafter, same⟩
    rwa [trim_eq_iff.mpr ⟨trimmed_of_truthy hword same, before, after, split, hbefore, hafter⟩]

/-! ## Integers -/

/-- A text that is an integer, with no more digits than may be read. -/
def Denotes (text : String) (n : Int) : Prop :=
  ∃ x : Numeral, x.text = text.toList ∧ x.Fits ∧ x.value = n

theorem integer?_toList_eq_some_iff {text : String} {n : Int} :
    integer? text.toList = some n ↔ Denotes text n := integer?_eq_some_iff

end Text

namespace Config

theorem readMinBlocks_eq_ok_iff {text : String} {n : Int} :
    readMinBlocks text = .ok n ↔ Text.Denotes text n := by
  rw [← Text.integer?_toList_eq_some_iff, readMinBlocks]
  cases Text.integer? text.toList <;> simp

theorem readMinBlocks_eq_error_iff {text : String} {fault : Fault} :
    readMinBlocks text = .error fault ↔
      (¬∃ n, Text.Denotes text n) ∧ fault = .minBlocksText text := by
  simp only [← Text.integer?_toList_eq_some_iff, readMinBlocks]
  cases Text.integer? text.toList <;> simp [eq_comm]

/-! ## Environments -/

/-- What a configuration has from an environment: one setting from each variable. -/
structure ReadFrom (config : Config) (env : Environment) : Prop where
  simd : config.simd = true ↔ ¬∃ text ∈ env.noSimd, Text.TurnsOn text
  /-- The least batch size is what the text denotes. -/
  minBlocks : ∀ text ∈ env.minBlocks, Text.Denotes text config.minBlocks
  /-- It is 2 if there is no text. -/
  unset : env.minBlocks = none → config.minBlocks = 2
  selfTest : config.selfTest = true ↔ ∃ text ∈ env.selfTest, Text.TurnsOn text

theorem simd_iff (setting : Option String) :
    (setting.elim true fun text => !isOn text) = true ↔ ¬∃ text ∈ setting, Text.TurnsOn text := by
  cases setting with
  | none => simp
  | some text => simp [← Text.isOn_iff]

theorem selfTest_iff (setting : Option String) :
    setting.elim false isOn = true ↔ ∃ text ∈ setting, Text.TurnsOn text := by
  cases setting with
  | none => simp
  | some text => simp [← Text.isOn_iff]

/-- The least batch size that an environment sets, or what is wrong with it. -/
theorem ofEnvironment_eq_map (env : Environment) :
    ofEnvironment env = (env.minBlocks.elim (.ok 2) readMinBlocks).map fun minBlocks =>
      { simd := env.noSimd.elim true fun text => !isOn text, minBlocks,
        selfTest := env.selfTest.elim false isOn } := by
  rw [ofEnvironment]
  rcases h : env.minBlocks with _ | text
  · rfl
  · cases readMinBlocks text <;> rfl

theorem minBlocks_eq_ok_iff (setting : Option String) {n : Int} :
    setting.elim (.ok 2) readMinBlocks = .ok n ↔
      (∀ text ∈ setting, Text.Denotes text n) ∧ (setting = none → n = 2) := by
  cases setting with
  | none => simp [eq_comm]
  | some text => simp [readMinBlocks_eq_ok_iff]

theorem ofEnvironment_eq_ok_iff {env : Environment} {config : Config} :
    ofEnvironment env = .ok config ↔ config.ReadFrom env := by
  rw [ofEnvironment_eq_map]
  constructor
  · intro h
    cases read : env.minBlocks.elim (.ok 2) readMinBlocks with
    | error fault =>
      rw [read] at h
      exact nomatch h
    | ok n =>
      rw [read] at h
      cases h
      obtain ⟨denoted, unset⟩ := (minBlocks_eq_ok_iff _).mp read
      exact ⟨simd_iff _, denoted, unset, selfTest_iff _⟩
  · rintro ⟨simd, denoted, unset, selfTest⟩
    rw [(minBlocks_eq_ok_iff _).mpr ⟨denoted, unset⟩]
    rw [← simd_iff, ← Bool.eq_iff_iff] at simd
    rw [← selfTest_iff, ← Bool.eq_iff_iff] at selfTest
    rw [← simd, ← selfTest]
    rfl

theorem ofEnvironment_eq_error_iff {env : Environment} {fault : Fault} :
    ofEnvironment env = .error fault ↔
      ∃ text ∈ env.minBlocks, (¬∃ n, Text.Denotes text n) ∧ fault = .minBlocksText text := by
  rw [ofEnvironment_eq_map]
  rcases env.minBlocks with _ | text
  · exact iff_of_false nofun fun ⟨_, unset, _⟩ => nomatch unset
  · simp only [Option.elim_some, Option.mem_some_iff, exists_eq_left', ← readMinBlocks_eq_error_iff]
    cases readMinBlocks text with
    | error _ => simp only [Except.map, Except.error.injEq]
    | ok _ => exact iff_of_false nofun nofun

theorem exists_ofEnvironment_minBlocks (env : Environment) {text : String} {n : Int}
    (denoted : Text.Denotes text n) :
    ∃ config, ofEnvironment { env with minBlocks := some text } = .ok config ∧
      config.minBlocks = n := by
  rw [ofEnvironment_eq_map]
  dsimp only [Option.elim_some]
  rw [readMinBlocks_eq_ok_iff.mpr denoted]
  exact ⟨_, rfl, rfl⟩

theorem problems_eq_nil_iff (config : Config) : config.problems = [] ↔ 1 ≤ config.minBlocks := by
  rw [problems]
  split
  next small => exact iff_of_false nofun (by omega)
  next large => exact iff_of_true rfl (by omega)

/-- **What an environment configures.** It is refused exactly if the least batch size is set to a
    text that is no integer; any other environment gives the configuration that has, setting by
    setting, what the variable of that setting says. However an integer is written, as long as its
    digits are not too many, it is read as that integer; and it can be written so in every script,
    in its ordinary text first of all. A configuration has no problem exactly if its least batch
    size is positive. -/
theorem ofEnvironment_exact (env : Environment) :
    (∀ fault, ofEnvironment env = .error fault ↔
      ∃ text ∈ env.minBlocks, (¬∃ n, Text.Denotes text n) ∧ fault = .minBlocksText text) ∧
    (∀ text, (Fault.minBlocksText text).kind = .parameter) ∧
    (∀ config, ofEnvironment env = .ok config ↔ config.ReadFrom env) ∧
    (∀ (n : Int) (x : Text.Numeral), x.Writes n → x.Fits →
      ∃ config, ofEnvironment { env with minBlocks := some (String.ofList x.text) } = .ok config ∧
        config.minBlocks = n) ∧
    (∀ (n : Int), ∀ start ∈ Text.decimalZeros,
      (Nat.digits 10 n.natAbs).length ≤ Text.maxDigits →
        ∃ x : Text.Numeral, x.Writes n ∧ x.Fits ∧
          ∀ d ∈ x.run.digits, d.char.toNat = start + d.value) ∧
    (∀ n : Int, (Nat.digits 10 n.natAbs).length ≤ Text.maxDigits →
      ∃ config, ofEnvironment { env with minBlocks := some (toString n) } = .ok config ∧
        config.minBlocks = n) ∧
    ∀ config : Config, config.problems = [] ↔ 1 ≤ config.minBlocks := by
  refine ⟨fun fault => ofEnvironment_eq_error_iff, fun _ => rfl,
    fun config => ofEnvironment_eq_ok_iff, fun n x writes fits => ?_, fun n start script few => ?_,
    fun n few => ?_, problems_eq_nil_iff⟩
  · have denoted : Text.Denotes (String.ofList x.text) n :=
      ⟨x, String.toList_ofList.symm, fits, Text.Numeral.writes_iff.mp writes⟩
    exact exists_ofEnvironment_minBlocks env denoted
  · obtain ⟨x, writes, codes, count⟩ := Text.exists_writes script n
    refine ⟨x, writes, ?_, codes⟩
    rw [Text.Numeral.Fits, count]
    exact Nat.max_le.mpr ⟨by decide, few⟩
  · have denoted : Text.Denotes (toString n) n :=
      Text.integer?_toList_eq_some_iff.mp (Text.integer?_toString few)
    exact exists_ofEnvironment_minBlocks env denoted

end Config

end Blake2s
