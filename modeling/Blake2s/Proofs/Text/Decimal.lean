import Blake2s.Proofs.Text.Numerals

set_option autoImplicit false

/-! # The ordinary text of an integer

Of all the ways to write an integer one is the ordinary one: its own digits, from `0` to `9`, with a
minus sign in front if it is negative, and nothing else. It is read back as that integer
(`Text.integer?_toString`). -/

namespace Blake2s.Text

/-! ## Natural numbers -/

/-- The digits from `0` to `9`. -/
def Digit.ordinary (d : Nat) (small : d < 10) : Digit where
  char := Nat.digitChar d
  value := d
  small := small
  ofScript := ⟨'0'.toNat, by decide, Nat.toNat_digitChar_of_lt_ten small⟩

namespace Run

/-- A run with one more digit at its end. -/
def push (run : Run) (d : Digit) : Run := { run with more := run.more ++ [(false, d)] }

theorem text_push (run : Run) (d : Digit) : (run.push d).text = run.text ++ [d.char] := by
  simp [text, push]

theorem values_push (run : Run) (d : Digit) : (run.push d).values = run.values ++ [d.value] := by
  simp [values, digits, push]

theorem number_push (run : Run) (d : Digit) : (run.push d).number = 10 * run.number + d.value := by
  rw [number, values_push, List.reverse_append, List.reverse_singleton, List.singleton_append,
    Nat.ofDigits_cons, number, Nat.add_comm]

end Run

/-- The last digit of a number comes after the digits of its tenth part. -/
theorem exists_run_toDigits (n : Nat) :
    ∃ run : Run, run.text = Nat.toDigits 10 n ∧ run.values.length = (Nat.toDigits 10 n).length ∧
      run.number = n := by
  induction n using Nat.strongRecOn with
  | ind n ih =>
    rw [Nat.toDigits_eq_if (by decide)]
    split
    next small => exact ⟨⟨.ordinary n small, []⟩, rfl, rfl, Nat.ofDigits_singleton⟩
    next large =>
      obtain ⟨run, text, count, number⟩ := ih (n / 10) (by omega)
      have last : n % 10 < 10 := Nat.mod_lt n (by decide)
      refine ⟨run.push (.ordinary (n % 10) last), ?_, ?_, ?_⟩
      · rw [Run.text_push, text]
        rfl
      · rw [Run.values_push, List.length_append, count, List.length_append]
        rfl
      · rw [Run.number_push, number]
        exact Nat.div_add_mod n 10

/-- Zero is written as one digit, though it has none. -/
theorem length_toDigits_le {n k : Nat} (pos : 0 < k) (few : (Nat.digits 10 n).length ≤ k) :
    (Nat.toDigits 10 n).length ≤ k := by
  have below : n < 10 ^ (Nat.digits 10 n).length := Nat.lt_base_pow_length_digits (by decide)
  have bound : 10 ^ (Nat.digits 10 n).length ≤ 10 ^ k := Nat.pow_le_pow_right (by decide) few
  exact (Nat.length_toDigits_le_iff (by decide) pos).mpr (Nat.lt_of_lt_of_le below bound)

/-! ## Integers -/

theorem toList_toString (n : Int) :
    ∃ sign : Sign, (toString n).toList = sign.text ++ Nat.toDigits 10 n.natAbs ∧
      sign.apply n.natAbs = n := by
  cases n with
  | ofNat m => exact ⟨.absent, Nat.toList_repr, rfl⟩
  | negSucc m =>
    refine ⟨.minus, ?_, rfl⟩
    change ("-" ++ m.succ.repr).toList = _
    rw [String.toList_append, Nat.toList_repr]
    rfl

/-- **The ordinary text of an integer is read back as it**, unless there are too many digits. -/
theorem integer?_toString {n : Int} (few : (Nat.digits 10 n.natAbs).length ≤ maxDigits) :
    integer? (toString n).toList = some n := by
  obtain ⟨sign, text, value⟩ := toList_toString n
  obtain ⟨run, digits, count, number⟩ := exists_run_toDigits n.natAbs
  have fits : run.values.length ≤ maxDigits := by
    rw [count]
    exact length_toDigits_le (by decide) few
  refine integer?_eq_some_iff.mpr ⟨⟨[], sign, run, [], nofun, nofun⟩, ?_, fits, ?_⟩
  · rw [Numeral.text, digits, text, List.append_nil, List.nil_append]
  · rw [Numeral.value, number, value]

end Blake2s.Text
