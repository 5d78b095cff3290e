import Blake2s.Text.Integer
import Mathlib.Data.List.DropRight
import Mathlib.Data.List.TakeWhile
import Mathlib.Data.Nat.Digits.Defs

set_option autoImplicit false

/-! # Which texts are integers

A `Numeral` is a way of writing an integer: blanks, a sign, digits with or without underscores
between them, blanks. A text is read as an integer exactly if it is one of these, with no more digits
than allowed, and then the integer is the value of the numeral (`Text.integer?_eq_some_iff`). The value
is as it should be: a numeral has the value `n` exactly if its digits are those of `n` after any
number of zeros and its sign is one that `n` may have (`Text.Numeral.writes_iff`). -/

namespace Blake2s.Text

/-! ## Dropping blanks -/

/-- What is left by trimming does not begin or end with a character of the class. -/
def Trimmed (p : Char → Bool) (core : List Char) : Prop :=
  (∀ c ∈ core.head?, p c = false) ∧ ∀ c ∈ core.getLast?, p c = false

theorem dropWhile_of_head {p : Char → Bool} {core : List Char} (h : ∀ c ∈ core.head?, p c = false) :
    core.dropWhile p = core := by
  cases core with
  | nil => rfl
  | cons c rest => rw [List.dropWhile_cons, h c rfl, if_neg Bool.false_ne_true]

theorem head_dropWhile (p : Char → Bool) (text : List Char) :
    ∀ c ∈ (text.dropWhile p).head?, p c = false := by
  intro c hc
  have kept := List.head?_dropWhile_not p text
  rw [hc] at kept
  simpa using kept

theorem trim_eq_iff {p : Char → Bool} {text core : List Char} :
    trim p text = core ↔ Trimmed p core ∧
      ∃ before after, text = before ++ core ++ after ∧ (∀ c ∈ before, p c = true) ∧
        ∀ c ∈ after, p c = true := by
  constructor
  · rintro rfl
    have front := List.takeWhile_append_dropWhile (p := p) (l := text)
    have back := List.takeWhile_append_dropWhile (p := p) (l := (text.dropWhile p).reverse)
    have split : text.dropWhile p
        = trim p text ++ ((text.dropWhile p).reverse.takeWhile p).reverse := by
      rw [trim, ← List.reverse_append, back, List.reverse_reverse]
    refine ⟨⟨?_, ?_⟩, text.takeWhile p, ((text.dropWhile p).reverse.takeWhile p).reverse, ?_, ?_, ?_⟩
    · -- a first character that is left was the first one after the blanks in front
      intro c hc
      refine head_dropWhile p text c ?_
      rw [split, List.head?_append, Option.mem_def.mp hc]
      rfl
    · intro c hc
      rw [trim, List.getLast?_reverse] at hc
      exact head_dropWhile p _ c hc
    · rw [List.append_assoc, ← split, front]
    · exact fun c hc => List.mem_takeWhile_imp hc
    · exact fun c hc => List.mem_takeWhile_imp (List.mem_reverse.mp hc)
  · rintro ⟨⟨head, last⟩, before, after, rfl, hbefore, hafter⟩
    have hafter' : ∀ c ∈ after.reverse, p c = true := fun c hc => hafter c (List.mem_reverse.mp hc)
    have last' : ∀ c ∈ core.reverse.head?, p c = false := by
      rwa [List.head?_reverse]
    cases core with
    | nil =>
      rw [trim, List.append_nil, List.dropWhile_append_of_pos hbefore,
        List.dropWhile_eq_nil_iff.mpr hafter]
      rfl
    | cons c rest =>
      have front : ((c :: rest) ++ after).dropWhile p = (c :: rest) ++ after :=
        dropWhile_of_head (by exact head)
      rw [trim, List.append_assoc, List.dropWhile_append_of_pos hbefore, front, List.reverse_append,
        List.dropWhile_append_of_pos hafter', dropWhile_of_head last', List.reverse_reverse]

/-! ## Digits -/

/-- A decimal digit of any script. -/
structure Digit where
  char : Char
  value : Nat
  small : value < 10
  ofScript : ∃ start ∈ decimalZeros, char.toNat = start + value

/-- The runs of digits do not overlap. -/
theorem decimalZeros_apart :
    ∀ z ∈ decimalZeros, ∀ z' ∈ decimalZeros, z < z' + 10 → z' < z + 10 → z = z' := by
  decide +kernel

theorem digit?_eq_some_iff {c : Char} {d : Nat} :
    digit? c = some d ↔ d < 10 ∧ ∃ start ∈ decimalZeros, c.toNat = start + d := by
  constructor
  · intro h
    refine ⟨digit?_lt_ten h, ?_⟩
    simp only [digit?, Option.map_eq_some_iff] at h
    obtain ⟨start, found, rfl⟩ := h
    have within := List.find?_some found
    simp only [Bool.and_eq_true, decide_eq_true_eq] at within
    exact ⟨start, List.mem_of_find?_eq_some found, by omega⟩
  · rintro ⟨small, start, hstart, place⟩
    rw [digit?, Option.map_eq_some_iff]
    cases found : decimalZeros.find? fun z => z ≤ c.toNat && c.toNat < z + 10 with
    | none =>
      have missed := List.find?_eq_none.mp found start hstart
      simp only [Bool.and_eq_true, decide_eq_true_eq] at missed
      omega
    | some start' =>
      have within := List.find?_some found
      simp only [Bool.and_eq_true, decide_eq_true_eq] at within
      have same := decimalZeros_apart start hstart start' (List.mem_of_find?_eq_some found)
        (by omega) (by omega)
      exact ⟨start', rfl, by omega⟩

theorem Digit.digit?_char (d : Digit) : digit? d.char = some d.value :=
  digit?_eq_some_iff.mpr ⟨d.small, d.ofScript⟩

/-- A character that is read as a digit is one. -/
def Digit.read {c : Char} {d : Nat} (h : digit? c = some d) : Digit where
  char := c
  value := d
  small := (digit?_eq_some_iff.mp h).1
  ofScript := (digit?_eq_some_iff.mp h).2

theorem toNat_ofNat_digit :
    ∀ start ∈ decimalZeros, ∀ d < 10, (Char.ofNat (start + d)).toNat = start + d := by
  decide +kernel

/-- Every script has all ten digits. -/
theorem exists_digit {start d : Nat} (script : start ∈ decimalZeros) (small : d < 10) :
    ∃ digit : Digit, digit.char.toNat = start + digit.value ∧ digit.value = d :=
  have code := toNat_ofNat_digit start script d small
  ⟨⟨Char.ofNat (start + d), d, small, start, script, code⟩, code, rfl⟩

/-! ## Runs of digits -/

/-- One digit or more, each but the first one with or without an underscore in front of it. -/
structure Run where
  first : Digit
  more : List (Bool × Digit)

namespace Run

def text (run : Run) : List Char :=
  run.first.char :: run.more.flatMap fun d => if d.1 then ['_', d.2.char] else [d.2.char]

def digits (run : Run) : List Digit := run.first :: run.more.map (·.2)

/-- The values of the digits. -/
def values (run : Run) : List Nat := run.digits.map Digit.value

def number (run : Run) : Nat := Nat.ofDigits 10 run.values.reverse

end Run

theorem digit?_underscore : digit? '_' = none := by decide

theorem digit?_plus : digit? '+' = none := by decide

theorem digit?_minus : digit? '-' = none := by decide

theorem digits?_cons_cons {c next : Char} (h : next ≠ '_') (more : List Char) :
    digits? (c :: next :: more) = (digit? c).bind fun d => (digits? (next :: more)).map (d :: ·) := by
  rw [digits?]
  refine congrArg (digit? c).bind (funext fun d => ?_)
  split
  next same => exact nomatch same
  next same => exact absurd (List.cons.inj same).1 h
  next same => rw [← same]

theorem digits?_text (run : Run) : digits? run.text = some run.values := by
  obtain ⟨first, more⟩ := run
  induction more generalizing first with
  | nil =>
    change (digit? first.char).bind (fun d => some [d]) = some [first.value]
    rw [first.digit?_char]
    rfl
  | cons d more ih =>
    obtain ⟨underscore, d⟩ := d
    have rest := ih d
    cases underscore with
    | true =>
      change (digit? first.char).bind (fun v => (digits? (Run.text ⟨d, more⟩)).map (v :: ·)) = _
      rw [first.digit?_char, rest]
      rfl
    | false =>
      have digit : d.char ≠ '_' := by
        intro same
        have value := d.digit?_char
        rw [same, digit?_underscore] at value
        exact nomatch value
      change digits? (first.char :: d.char :: _) = _
      rw [digits?_cons_cons digit, first.digit?_char]
      change (digits? (Run.text ⟨d, more⟩)).map (first.value :: ·) = _
      rw [rest]
      rfl

theorem digits?_eq_some_iff {text : List Char} {digits : List Nat} :
    digits? text = some digits ↔ ∃ run : Run, run.text = text ∧ run.values = digits := by
  constructor
  · intro h
    fun_induction digits? text generalizing digits with
    | case1 => exact nomatch h
    | case2 c rest ih =>
      obtain ⟨d, value, tail⟩ := Option.bind_eq_some_iff.mp h
      clear h
      split at tail
      -- the digit is the last one, or an underscore follows, or another digit
      next =>
        cases tail
        exact ⟨⟨.read value, []⟩, rfl, rfl⟩
      next more =>
        obtain ⟨ds, read, rfl⟩ := Option.map_eq_some_iff.mp tail
        obtain ⟨⟨first, more⟩, rfl, rfl⟩ := ih read
        exact ⟨⟨.read value, (true, first) :: more⟩, rfl, rfl⟩
      next next more plain =>
        obtain ⟨ds, read, rfl⟩ := Option.map_eq_some_iff.mp tail
        split at ih
        next same => exact nomatch same
        next same => exact absurd (List.cons.inj same).1 plain
        next same =>
          rw [same] at read
          obtain ⟨⟨first, more⟩, text, rfl⟩ := ih read
          refine ⟨⟨.read value, (false, first) :: more⟩, ?_, rfl⟩
          rw [same, ← text]
          rfl
  · rintro ⟨run, rfl, rfl⟩
    exact digits?_text run

theorem ofDigits_eq (digits : List Nat) : ofDigits digits = Nat.ofDigits 10 digits.reverse := by
  have step : (fun n d : Nat => 10 * n + d) = fun n d => d + 10 * n := by
    funext n d
    exact Nat.add_comm _ _
  rw [ofDigits, step, Nat.ofDigits_eq_foldr, List.foldr_reverse]
  rfl

theorem natural?_eq_some_iff {text : List Char} {n : Nat} :
    natural? text = some n ↔
      ∃ run : Run, run.text = text ∧ run.values.length ≤ maxDigits ∧ run.number = n := by
  constructor
  · intro h
    obtain ⟨digits, read, h⟩ := Option.bind_eq_some_iff.mp h
    obtain ⟨run, text, rfl⟩ := digits?_eq_some_iff.mp read
    split at h
    next few => exact ⟨run, text, few, (ofDigits_eq _).symm.trans (Option.some.inj h)⟩
    next => exact nomatch h
  · rintro ⟨run, rfl, few, rfl⟩
    change (digits? run.text).bind _ = _
    rw [digits?_text, Option.bind_some, if_pos few, ofDigits_eq]
    rfl

/-! ## Signs -/

inductive Sign where
  | absent
  | plus
  | minus

namespace Sign

def text : Sign → List Char
  | absent => []
  | plus => ['+']
  | minus => ['-']

def apply : Sign → Nat → Int
  | minus, n => -(n : Int)
  | _, n => n

/-- May an integer be written with this sign? Zero may be written with any. -/
def Admits : Sign → Int → Prop
  | minus, n => n ≤ 0
  | _, n => 0 ≤ n

theorem apply_eq_iff {sign : Sign} {m : Nat} {n : Int} :
    sign.apply m = n ↔ sign.Admits n ∧ n.natAbs = m := by
  cases sign <;> simp only [apply, Admits] <;> omega

end Sign

theorem signed?_eq_some_iff {text : List Char} {n : Int} :
    signed? text = some n ↔ ∃ (sign : Sign) (run : Run), text = sign.text ++ run.text ∧
      run.values.length ≤ maxDigits ∧ sign.apply run.number = n := by
  constructor
  · intro h
    have read (sign : Sign) {rest : List Char} (split : text = sign.text ++ rest)
        (h : (natural? rest).map sign.apply = some n) :
        ∃ (sign : Sign) (run : Run), text = sign.text ++ run.text ∧
          run.values.length ≤ maxDigits ∧ sign.apply run.number = n := by
      obtain ⟨m, number, value⟩ := Option.map_eq_some_iff.mp h
      obtain ⟨run, rfl, few, rfl⟩ := natural?_eq_some_iff.mp number
      exact ⟨sign, run, split, few, value⟩
    unfold signed? at h
    split at h
    · exact read .plus rfl h
    · exact read .minus rfl h
    · exact read .absent rfl h
  · rintro ⟨sign, run, rfl, few, rfl⟩
    have number : natural? run.text = some run.number :=
      natural?_eq_some_iff.mpr ⟨run, rfl, few, rfl⟩
    cases sign with
    | plus =>
      change (natural? run.text).map Int.ofNat = _
      rw [number]
      rfl
    | minus =>
      change ((natural? run.text).map fun n => -Int.ofNat n) = _
      rw [number]
      rfl
    | absent =>
      -- a digit is not taken for a sign
      have digit := run.first.digit?_char
      have unsigned : signed? run.text = (natural? run.text).map Int.ofNat := by
        unfold signed?
        split
        next same =>
          rw [(List.cons.inj same).1, digit?_plus] at digit
          exact nomatch digit
        next same =>
          rw [(List.cons.inj same).1, digit?_minus] at digit
          exact nomatch digit
        next => rfl
      change signed? run.text = _
      rw [unsigned, number]
      rfl

/-! ## Numerals -/

/-- A way of writing an integer. -/
structure Numeral where
  before : List Char
  sign : Sign
  run : Run
  after : List Char
  before_white : ∀ c ∈ before, isWhiteSpace c = true
  after_white : ∀ c ∈ after, isWhiteSpace c = true

namespace Numeral

def text (x : Numeral) : List Char := x.before ++ (x.sign.text ++ x.run.text) ++ x.after

def value (x : Numeral) : Int := x.sign.apply x.run.number

/-- Is it a number that may be read, or are there too many digits? -/
def Fits (x : Numeral) : Prop := x.run.values.length ≤ maxDigits

/-- The digits are those of an integer, with any number of zeros in front, and the sign is right. -/
def Writes (x : Numeral) (n : Int) : Prop :=
  x.sign.Admits n ∧
    ∃ zeros, x.run.values = List.replicate zeros 0 ++ (Nat.digits 10 n.natAbs).reverse

end Numeral

/-! ## Reading numerals -/

theorem decimalZeros_not_white :
    ∀ start ∈ decimalZeros, ∀ r ∈ whiteSpaceRanges, start + 10 ≤ r.1 ∨ r.2 < start := by decide

theorem Digit.not_white (d : Digit) : isWhiteSpace d.char = false := by
  obtain ⟨start, hstart, place⟩ := d.ofScript
  have small := d.small
  rw [isWhiteSpace, List.any_eq_false]
  intro r hr
  have apart := decimalZeros_not_white start hstart r hr
  simp only [Bool.and_eq_true, decide_eq_true_eq]
  omega

theorem Run.getLast?_text (run : Run) : ∃ d : Digit, run.text.getLast? = some d.char := by
  obtain ⟨first, more⟩ := run
  induction more generalizing first with
  | nil => exact ⟨first, rfl⟩
  | cons d more ih =>
    obtain ⟨last, hlast⟩ := ih d.2
    refine ⟨last, ?_⟩
    have ends (front : List Char) : (front ++ Run.text ⟨d.2, more⟩).getLast? = some last.char := by
      rw [List.getLast?_append, hlast]
      rfl
    obtain ⟨underscore, d⟩ := d
    cases underscore with
    | true => exact ends [first.char, '_']
    | false => exact ends [first.char]

theorem trimmed_text (sign : Sign) (run : Run) : Trimmed isWhiteSpace (sign.text ++ run.text) := by
  constructor
  · intro c hc
    cases sign with
    | absent =>
      cases hc
      exact run.first.not_white
    | plus =>
      cases hc
      decide
    | minus =>
      cases hc
      decide
  · intro c hc
    obtain ⟨last, hlast⟩ := run.getLast?_text
    rw [List.getLast?_append, hlast] at hc
    cases hc
    exact last.not_white

/-- **A text is read as an integer exactly if it is a numeral** with this value, and not too many
    digits. -/
theorem integer?_eq_some_iff {text : List Char} {n : Int} :
    integer? text = some n ↔ ∃ x : Numeral, x.text = text ∧ x.Fits ∧ x.value = n := by
  rw [integer?, signed?_eq_some_iff]
  constructor
  · rintro ⟨sign, run, core, few, value⟩
    obtain ⟨-, before, after, text, hbefore, hafter⟩ := trim_eq_iff.mp core
    exact ⟨⟨before, sign, run, after, hbefore, hafter⟩, text.symm, few, value⟩
  · rintro ⟨⟨before, sign, run, after, hbefore, hafter⟩, rfl, few, value⟩
    have core : trim isWhiteSpace (before ++ (sign.text ++ run.text) ++ after)
        = sign.text ++ run.text :=
      trim_eq_iff.mpr ⟨trimmed_text sign run, before, after, rfl, hbefore, hafter⟩
    exact ⟨sign, run, core, few, value⟩

example : integer? " +٠1_٦\n".toList = some 16 := by decide

example : integer? "1__6".toList = none := by decide

/-! ## Writing numerals -/

/-- The digits of a number, the least significant first, are its own digits and zeros after them. -/
theorem eq_digits_append_zeros {digits : List Nat} (small : ∀ d ∈ digits, d < 10) :
    ∃ zeros, digits = Nat.digits 10 (Nat.ofDigits 10 digits) ++ List.replicate zeros 0 := by
  induction digits using List.reverseRecOn with
  | nil => exact ⟨0, rfl⟩
  | append_singleton digits d ih =>
    -- the most significant digit is a zero to be dropped, or nothing is to be dropped
    by_cases hd : d = 0
    · obtain ⟨zeros, same⟩ := ih fun d hd => small d (List.mem_append_left _ hd)
      refine ⟨zeros + 1, ?_⟩
      rw [hd, Nat.ofDigits_append_zero, List.replicate_succ', ← List.append_assoc, ← same]
    · refine ⟨0, ?_⟩
      rw [Nat.digits_ofDigits 10 (by decide) _ small, List.replicate_zero, List.append_nil]
      intro nonempty
      rwa [List.getLast_append_singleton]

theorem Run.number_eq_iff {run : Run} {n : Nat} :
    run.number = n ↔
      ∃ zeros, run.values = List.replicate zeros 0 ++ (Nat.digits 10 n).reverse := by
  constructor
  · rintro rfl
    have small : ∀ d ∈ run.values.reverse, d < 10 := by
      intro d hd
      obtain ⟨d, -, rfl⟩ := List.mem_map.mp (List.mem_reverse.mp hd)
      exact d.small
    obtain ⟨zeros, same⟩ := eq_digits_append_zeros small
    refine ⟨zeros, ?_⟩
    rw [← List.reverse_inj, same, List.reverse_append, List.reverse_reverse, List.reverse_replicate]
    rfl
  · rintro ⟨zeros, values⟩
    rw [number, values, List.reverse_append, List.reverse_reverse, List.reverse_replicate,
      Nat.ofDigits_append_replicate_zero, Nat.ofDigits_digits]

/-- A numeral writes an integer exactly if it has that value. -/
theorem Numeral.writes_iff {x : Numeral} {n : Int} : x.Writes n ↔ x.value = n := by
  rw [Writes, value, Sign.apply_eq_iff, eq_comm (b := x.run.number), Run.number_eq_iff]

theorem exists_run {start : Nat} (script : start ∈ decimalZeros) {d : Nat} {digits : List Nat}
    (small : ∀ v ∈ d :: digits, v < 10) :
    ∃ run : Run, run.values = d :: digits ∧ ∀ v ∈ run.digits, v.char.toNat = start + v.value := by
  induction digits generalizing d with
  | nil =>
    obtain ⟨first, code, rfl⟩ := exists_digit script (small d List.mem_cons_self)
    refine ⟨⟨first, []⟩, rfl, fun v hv => ?_⟩
    rwa [List.mem_singleton.mp hv]
  | cons d' digits ih =>
    obtain ⟨first, code, rfl⟩ := exists_digit script (small d List.mem_cons_self)
    obtain ⟨rest, values, codes⟩ := ih fun v hv => small v (List.mem_cons_of_mem _ hv)
    refine ⟨⟨first, (false, rest.first) :: rest.more⟩, ?_, fun v hv => ?_⟩
    · rw [← values]
      rfl
    · obtain rfl | hv := List.mem_cons.mp hv
      · exact code
      · exact codes v hv

/-- Every integer can be written, in every script, with as many digits as it has. -/
theorem exists_writes {start : Nat} (script : start ∈ decimalZeros) (n : Int) :
    ∃ x : Numeral, x.Writes n ∧ (∀ v ∈ x.run.digits, v.char.toNat = start + v.value) ∧
      x.run.values.length = max 1 (Nat.digits 10 n.natAbs).length := by
  have signed : ∃ sign : Sign, sign.Admits n := by
    by_cases h : 0 ≤ n
    · exact ⟨.absent, h⟩
    · exact ⟨.minus, Int.le_of_lt (Int.lt_of_not_ge h)⟩
  obtain ⟨sign, admits⟩ := signed
  have number : ∃ run : Run,
      (∃ zeros, run.values = List.replicate zeros 0 ++ (Nat.digits 10 n.natAbs).reverse) ∧
      (∀ v ∈ run.digits, v.char.toNat = start + v.value) ∧
      run.values.length = max 1 (Nat.digits 10 n.natAbs).length := by
    cases digits : (Nat.digits 10 n.natAbs).reverse with
    | nil =>
      -- zero is written as a single zero
      have small : ∀ v ∈ [0], v < 10 := by decide
      obtain ⟨run, values, codes⟩ := exists_run script small
      rw [List.reverse_eq_nil_iff.mp digits]
      exact ⟨run, ⟨1, values⟩, codes, congrArg List.length values⟩
    | cons d more =>
      have small : ∀ v ∈ d :: more, v < 10 := by
        intro v hv
        rw [← digits, List.mem_reverse] at hv
        exact Nat.digits_lt_base (by decide) hv
      obtain ⟨run, values, codes⟩ := exists_run script small
      refine ⟨run, ⟨0, values⟩, codes, ?_⟩
      rw [values, ← digits, List.length_reverse, Nat.max_eq_right]
      rw [← List.length_reverse, digits]
      exact Nat.succ_pos _
  obtain ⟨run, values, codes, count⟩ := number
  exact ⟨⟨[], sign, run, [], nofun, nofun⟩, ⟨admits, values⟩, codes, count⟩

end Blake2s.Text
