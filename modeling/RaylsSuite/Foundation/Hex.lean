import Mathlib.Algebra.Ring.Nat
import Mathlib.Data.List.Basic

/-! # Hexadecimal texts

A number is written with as few digits as it takes and padded with zeros to a
fixed width; a text of an even number of digits is read back byte by byte.
-/

namespace RaylsSuite.Foundation.Hex

/-- `text.padStart(width, '0')`. -/
def padStart (digits : List Char) (width : Nat) : List Char :=
  List.replicate (width - digits.length) '0' ++ digits

/-- The value of a digit; none of another character. -/
def digitValue (digit : Char) : Option Nat :=
  if '0' ≤ digit ∧ digit ≤ '9' then some (digit.toNat - '0'.toNat)
  else if 'a' ≤ digit ∧ digit ≤ 'f' then some (digit.toNat - 'a'.toNat + 10)
  else if 'A' ≤ digit ∧ digit ≤ 'F' then some (digit.toNat - 'A'.toNat + 10)
  else none

/-- The byte that two digits write. -/
def pairValue (high low : Char) : Option UInt8 :=
  (digitValue high).bind fun high => (digitValue low).map fun low => UInt8.ofNat (16 * high + low)

/-- The bytes that the digits write in pairs. -/
def parse : List Char → Option (List UInt8)
  | [] => some []
  | [_] => none
  | high :: low :: rest => (pairValue high low).bind fun byte => (parse rest).map (byte :: ·)

/-- The last digits of a number, so many of them. -/
def digits : Nat → Nat → List Char
  | 0, _ => []
  | width + 1, n => digits width (n / 16) ++ [Nat.digitChar (n % 16)]

/-- The last bytes of a number, the most significant first. -/
def bigEndian : Nat → Nat → List UInt8
  | 0, _ => []
  | width + 1, n => bigEndian width (n / 256) ++ [UInt8.ofNat n]

theorem digits_zero (width : Nat) : digits width 0 = List.replicate width '0' := by
  induction width with
  | zero => rfl
  | succ width ih => rw [digits, Nat.zero_div, ih, List.replicate_succ']; rfl

/-- A number that fits the width is written by its last digits. -/
theorem padStart_toDigits {width n : Nat} (hn : n < 16 ^ (width + 1)) :
    padStart (Nat.toDigits 16 n) (width + 1) = digits (width + 1) n := by
  induction width generalizing n with
  | zero =>
      have hdigit : n < 16 := by simpa using hn
      rw [Nat.toDigits_of_lt_base hdigit, digits, digits, Nat.mod_eq_of_lt hdigit]
      rfl
  | succ width ih =>
      by_cases hdigit : n < 16
      · rw [Nat.toDigits_of_lt_base hdigit, digits, Nat.div_eq_of_lt hdigit, digits_zero,
          Nat.mod_eq_of_lt hdigit]
        rfl
      · have hhigh : n / 16 < 16 ^ (width + 1) := by
          rw [Nat.div_lt_iff_lt_mul (by decide), ← Nat.pow_succ]
          exact hn
        rw [Nat.toDigits_of_base_le (by decide) (Nat.le_of_not_lt hdigit), digits, ← ih hhigh,
          padStart, padStart, List.length_append, List.length_singleton, Nat.add_sub_add_right,
          List.append_assoc]

/-- Bytes are read pair by pair. -/
theorem parse_append {front back : List Char} {bytes : List UInt8}
    (hfront : parse front = some bytes) :
    parse (front ++ back) = (parse back).map (bytes ++ ·) := by
  induction front using parse.induct generalizing bytes with
  | case1 =>
      obtain rfl := Option.some.inj hfront
      simp
  | case2 => cases hfront
  | case3 high low rest ih =>
      simp only [parse, Option.bind_eq_some_iff, Option.map_eq_some_iff] at hfront
      obtain ⟨byte, hbyte, tail, htail, rfl⟩ := hfront
      simp only [List.cons_append, parse, hbyte, ih htail, Option.bind_some, Option.map_map]
      rfl

/-- A pair of digits is read back as its byte. -/
theorem pairValue_digitChar (n : Nat) :
    pairValue (Nat.digitChar (n / 16 % 16)) (Nat.digitChar (n % 16)) = some (UInt8.ofNat n) := by
  have hvalue : ∀ digit < 16, digitValue (Nat.digitChar digit) = some digit := by decide
  have hbyte : UInt8.ofNat (16 * (n / 16 % 16) + n % 16) = UInt8.ofNat n := by
    apply UInt8.toNat_inj.mp
    simp only [UInt8.toNat_ofNat']
    omega
  rw [pairValue, hvalue _ (Nat.mod_lt _ (by decide)), hvalue _ (Nat.mod_lt _ (by decide))]
  exact congrArg some hbyte

/-- The last digits of a number, an even number of them, are read back as its last bytes. -/
theorem parse_digits (width n : Nat) : parse (digits (2 * width) n) = some (bigEndian width n) := by
  induction width generalizing n with
  | zero => rfl
  | succ width ih =>
      rw [show 2 * (width + 1) = 2 * width + 1 + 1 by omega, digits, digits, List.append_assoc,
        Nat.div_div_eq_div_mul, parse_append (ih (n / (16 * 16)))]
      simp only [List.cons_append, List.nil_append, parse, pairValue_digitChar, bigEndian,
        Option.bind_some, Option.map_some]

end RaylsSuite.Foundation.Hex
