import Mathlib.Algebra.Field.Rat
import RaylsSuite.Foundation.Hex
import RaylsSuite.Foundation.Number
import RaylsSuite.Foundation.Text

/-! # Numbers written as text

The numerals that ECMAScript's `Number(text)` reads: white space around an
empty text, a number in radix 2, 8 or 16, or a decimal number with an optional
sign, fraction and exponent. Any other text is NaN. The value is the exact one
that the numeral writes, before it is rounded.
-/

namespace RaylsSuite.Foundation.Text

/-- The number that digits of the radix write, if there are digits only. -/
def radixDigits (radix : Nat) (digits : List Char) : Option Nat :=
  if digits = [] then none
  else digits.foldlM (fun value digit =>
    (Hex.digitValue digit).bind fun next =>
      if next < radix then some (value * radix + next) else none) 0

/-- The exponent behind a mantissa, with its letter. -/
def exponentPart : List Char → Option Int
  | [] => some 0
  | _ :: '-' :: digits => (radixDigits 10 digits).map fun value => -(value : Int)
  | _ :: '+' :: digits | _ :: digits => (radixDigits 10 digits).map Int.ofNat

/-- A decimal number without its sign. -/
def decimalPart (chars : List Char) : Option ℚ :=
  let mantissa := chars.takeWhile fun char => char ≠ 'e' && char ≠ 'E'
  let whole := mantissa.takeWhile (· ≠ '.')
  let fraction := (mantissa.drop whole.length).drop 1
  (radixDigits 10 (whole ++ fraction)).bind fun value =>
    (exponentPart (chars.drop mantissa.length)).map fun (exponent : Int) =>
      (value : ℚ) * (10 : ℚ) ^ (exponent - fraction.length)

def unsigned (chars : List Char) : Number :=
  if chars = "Infinity".toList then .infinity
  else match decimalPart chars with
    | some value => .finite value
    | none => .nan

def inRadix (radix : Nat) (digits : List Char) : Number :=
  match radixDigits radix digits with
  | some value => .finite value
  | none => .nan

/-- The value of `Number(text)` before it is rounded. -/
def toNumber (text : String) : Number :=
  match (trim text).toList with
  | [] => .finite 0
  | '0' :: 'x' :: digits | '0' :: 'X' :: digits => inRadix 16 digits
  | '0' :: 'o' :: digits | '0' :: 'O' :: digits => inRadix 8 digits
  | '0' :: 'b' :: digits | '0' :: 'B' :: digits => inRadix 2 digits
  | '+' :: rest => unsigned rest
  | '-' :: rest => .finite 0 - unsigned rest
  | chars => unsigned chars

/-- `Number(text) > 0`: what is at most half of the least positive number, `2 ^ -1074`,
rounds to zero. -/
def isAboveZero (text : String) : Bool :=
  match toNumber text with
  | .finite value => decide ((2 : ℚ) ^ (-1075 : Int) < value)
  | number => number.isPositive

end RaylsSuite.Foundation.Text
