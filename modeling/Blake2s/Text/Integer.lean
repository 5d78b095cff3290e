import Blake2s.Text.Blank
import Blake2s.Text.DecimalDigit

set_option autoImplicit false

/-! # Integers in text

An integer is written as digits of any decimal script, with single underscores allowed between two
of them, after an optional sign, and with white space allowed around the whole. Leading zeros are
allowed; a number may have at most `maxDigits` digits. -/

namespace Blake2s.Text

/-- The most digits that a number may have. -/
def maxDigits : Nat := 4300

/-- The values of a run of digits with single underscores between them. -/
def digits? : List Char → Option (List Nat)
  | [] => none
  | c :: rest => do
    let d ← digit? c
    match rest with
    | [] => some [d]
    | '_' :: more => (digits? more).map (d :: ·)
    | next :: more => (digits? (next :: more)).map (d :: ·)

/-- The number with the given digits, the most significant first. -/
def ofDigits (digits : List Nat) : Nat := digits.foldl (fun n d => 10 * n + d) 0

def natural? (text : List Char) : Option Nat := do
  let digits ← digits? text
  if digits.length ≤ maxDigits then some (ofDigits digits) else none

/-- Reads a number with an optional sign in front. -/
def signed? : List Char → Option Int
  | '+' :: text => (natural? text).map Int.ofNat
  | '-' :: text => (natural? text).map fun n => -Int.ofNat n
  | text => (natural? text).map Int.ofNat

/-- Reads an integer, with or without white space around it. -/
def integer? (text : List Char) : Option Int := signed? (trim isWhiteSpace text)

end Blake2s.Text
