import RaylsSuite.Foundation.Numeral

/-! # Assertions on bigints

The setup of the tests overwrites chai's `equal`. Where one side is a bigint it
converts both and asserts that the results are equal, inside a `try` whose catch
block falls back to the original method. A failing assertion is an exception as
well, so it is the original method that decides every time the conversion does
not make the assertion pass.
-/

namespace RaylsSuite.TestUtils

open Foundation

/-! ## Values -/

/-- A value that a test asserts about. Objects, functions and symbols are known by their
identity and by what `BigInt` makes of them. -/
inductive ChaiValue where
  | undefined
  | null
  | boolean (value : Bool)
  | number (value : Number)
  | bigint (value : Int)
  | string (value : String)
  | reference (identity : Nat) (toBigInt : Option Int)
deriving DecidableEq, Repr

/-- The bigint that a text writes: an empty one is zero, and only decimals have a sign. -/
def stringToBigInt (text : String) : Option Int :=
  match (Text.trim text).toList with
  | [] => some 0
  | '0' :: 'x' :: digits | '0' :: 'X' :: digits => (Text.radixDigits 16 digits).map Int.ofNat
  | '0' :: 'o' :: digits | '0' :: 'O' :: digits => (Text.radixDigits 8 digits).map Int.ofNat
  | '0' :: 'b' :: digits | '0' :: 'B' :: digits => (Text.radixDigits 2 digits).map Int.ofNat
  | '-' :: digits => (Text.radixDigits 10 digits).map fun value => -(value : Int)
  | '+' :: digits | digits => (Text.radixDigits 10 digits).map Int.ofNat

namespace ChaiValue

/-- `typeof value === 'bigint'`. -/
def isBigInt : ChaiValue → Bool
  | .bigint _ => true
  | _ => false

/-- `BigInt(value)`, which throws on what is no integer. -/
def toBigInt : ChaiValue → Option Int
  | .undefined | .null => none
  | .boolean value => some value.toInt
  | .number (.finite value) => if value.den = 1 then some value.num else none
  | .number _ => none
  | .bigint value => some value
  | .string value => stringToBigInt value
  | .reference _ primitive => primitive

/-- `a === b`: values of different types differ, and NaN differs from itself. -/
def strictEquals : ChaiValue → ChaiValue → Bool
  | .number .nan, .number .nan => false
  | .reference a _, .reference b _ => a == b
  | a, b => a == b

end ChaiValue

/-! ## The assertion -/

/-- What an assertion throws. -/
inductive ChaiError where
  | assertion (message : String)
  | conversion
deriving DecidableEq, Repr

/-- `this.assert`: the `negate` flag of `.not` turns the expression round and picks the other
message. -/
def chaiAssert (negate expr : Bool) (message negatedMessage : String) : Except ChaiError Unit :=
  if expr = negate then .error (.assertion (if negate then negatedMessage else message))
  else .ok ()

/-- A method on an assertion: the `negate` flag, the value asserted about and the argument. -/
abbrev ChaiMethod : Type := Bool → ChaiValue → ChaiValue → Except ChaiError Unit

/-- chai's own `equal`. -/
def assertEqual : ChaiMethod := fun negate actual expected =>
  chaiAssert negate (actual.strictEquals expected) "expected #\x7bthis\x7d to equal #\x7bexp\x7d"
    "expected #\x7bthis\x7d to not equal #\x7bexp\x7d"

/-- The body of the `try`. -/
def equalBigInts : ChaiMethod := fun negate actual expected =>
  match actual.toBigInt with
  | none => .error .conversion
  | some actualBigInt =>
      match expected.toBigInt with
      | none => .error .conversion
      | some expectedBigInt =>
          chaiAssert negate (actualBigInt == expectedBigInt)
            "expected #\x7bact\x7d to equal #\x7bexp\x7d"
            "expected #\x7bact\x7d to not equal #\x7bexp\x7d"

/-- `equal` as `bigIntPlugin` overwrites it. -/
def bigIntPlugin (_super : ChaiMethod) : ChaiMethod := fun negate actual expected =>
  if actual.isBigInt || expected.isBigInt then
    match equalBigInts negate actual expected with
    | .ok () => .ok ()
    -- the catch block takes a failed conversion and a failed assertion alike
    | .error _ => _super negate actual expected
  else _super negate actual expected

/-- The assertion passes. -/
def Passes (method : ChaiMethod) (negate : Bool) (actual expected : ChaiValue) : Prop :=
  method negate actual expected = .ok ()

theorem chaiAssert_ok {negate expr : Bool} {message negatedMessage : String} :
    chaiAssert negate expr message negatedMessage = .ok () ↔ expr ≠ negate := by
  unfold chaiAssert
  split <;> simp_all

/-- An assertion about a bigint passes if the conversion makes it pass or the original does. -/
theorem bigIntPlugin_passes {_super : ChaiMethod} {negate : Bool} {actual expected : ChaiValue}
    (hbigint : (actual.isBigInt || expected.isBigInt) = true) :
    Passes (bigIntPlugin _super) negate actual expected ↔
      Passes equalBigInts negate actual expected ∨ Passes _super negate actual expected := by
  simp only [Passes, bigIntPlugin, hbigint, if_true]
  cases equalBigInts negate actual expected with
  | error err => simp
  | ok => simp

/-! ## Integers -/

/-- An integer as a test writes it: a number in the safe range, or a bigint. -/
inductive IntegerValue where
  | number (value : Int) (hsafe : value.natAbs ≤ 9007199254740991)
  | bigint (value : Int)

namespace IntegerValue

def value : IntegerValue → Int
  | .number value _ => value
  | .bigint value => value

def toChai : IntegerValue → ChaiValue
  | .number value _ => .number (.finite value)
  | .bigint value => .bigint value

/-- The two are of one type. -/
def SameType (a b : IntegerValue) : Prop := a.toChai.isBigInt = b.toChai.isBigInt

@[simp] theorem toBigInt_toChai (a : IntegerValue) : a.toChai.toBigInt = some a.value := by
  cases a <;> simp [toChai, ChaiValue.toBigInt, value]

theorem strictEquals_iff (a b : IntegerValue) :
    a.toChai.strictEquals b.toChai = true ↔ a.SameType b ∧ a.value = b.value := by
  cases a <;> cases b <;>
    simp [toChai, ChaiValue.strictEquals, ChaiValue.isBigInt, SameType, value]

end IntegerValue

/-- `equal` and `not.equal` say of two integers whether they are the same. -/
structure PreservesEqual (a b : IntegerValue) : Prop where
  equal : Passes (bigIntPlugin assertEqual) false a.toChai b.toChai ↔ a.value = b.value
  notEqual : Passes (bigIntPlugin assertEqual) true a.toChai b.toChai ↔ a.value ≠ b.value

theorem assertEqual_passes (negate : Bool) (a b : IntegerValue) :
    Passes assertEqual negate a.toChai b.toChai ↔
      ((a.SameType b ∧ a.value = b.value) ↔ negate = false) := by
  rw [Passes, assertEqual, chaiAssert_ok, ← IntegerValue.strictEquals_iff]
  cases a.toChai.strictEquals b.toChai <;> cases negate <;> simp

theorem equalBigInts_passes (negate : Bool) (a b : IntegerValue) :
    Passes equalBigInts negate a.toChai b.toChai ↔ (a.value = b.value ↔ negate = false) := by
  simp only [Passes, equalBigInts, IntegerValue.toBigInt_toChai, chaiAssert_ok]
  cases hequal : a.value == b.value <;> simp_all

/-- A passing assertion about two integers, one of them a bigint. -/
theorem bigIntPlugin_integers {a b : IntegerValue}
    (hbigint : (a.toChai.isBigInt || b.toChai.isBigInt) = true) (negate : Bool) :
    Passes (bigIntPlugin assertEqual) negate a.toChai b.toChai ↔
      (a.value = b.value ↔ negate = false) ∨
        ((a.SameType b ∧ a.value = b.value) ↔ negate = false) := by
  rw [bigIntPlugin_passes hbigint, equalBigInts_passes, assertEqual_passes]

/-- The plugin preserves equality exactly for values of one type and for values that differ. -/
theorem preservesEqual_iff (a b : IntegerValue) :
    PreservesEqual a b ↔ a.SameType b ∨ a.value ≠ b.value := by
  by_cases hbigint : (a.toChai.isBigInt || b.toChai.isBigInt) = true
  · constructor
    · rintro ⟨-, hnot⟩
      rw [bigIntPlugin_integers hbigint] at hnot
      by_cases hvalue : a.value = b.value
      · left
        by_contra htype
        -- the original finds values of two types different and lets `not.equal` pass
        exact hnot.mp (Or.inr (by simp [htype])) hvalue
      · exact Or.inr hvalue
    · intro hcases
      constructor <;> rw [bigIntPlugin_integers hbigint] <;> rcases hcases with htype | hvalue <;>
        simp_all
  · -- neither side is a bigint, so the original decides, on two numbers
    have htype : a.SameType b := by
      simp only [Bool.or_eq_true, not_or, Bool.not_eq_true] at hbigint
      exact hbigint.1.trans hbigint.2.symm
    have hsuper : ∀ negate, Passes (bigIntPlugin assertEqual) negate a.toChai b.toChai ↔
        Passes assertEqual negate a.toChai b.toChai := by
      intro negate
      simp only [Passes, bigIntPlugin, hbigint, Bool.false_eq_true, if_false]
    refine iff_of_true ⟨?_, ?_⟩ (Or.inl htype)
    · rw [hsuper, assertEqual_passes]
      simp [htype]
    · rw [hsuper, assertEqual_passes]
      simp [htype]

/-- Over all integers: the overwritten `equal` and `not.equal` are right about two of them
exactly if they have one type or differ. Without a bigint every original method is kept. -/
theorem bigIntPlugin_preserves_iff (a b : IntegerValue) :
    (PreservesEqual a b ↔ a.SameType b ∨ a.value ≠ b.value) ∧
      ∀ (_super : ChaiMethod) (negate : Bool) (actual expected : ChaiValue),
        (actual.isBigInt || expected.isBigInt) = false →
          bigIntPlugin _super negate actual expected = _super negate actual expected := by
  refine ⟨preservesEqual_iff a b, fun _super negate actual expected hnone => ?_⟩
  simp only [bigIntPlugin, hnone, Bool.false_eq_true, if_false]

/-- `expect(1).to.not.equal(1n)` passes. -/
theorem not_preservesEqual_one :
    ¬PreservesEqual (.number 1 (by decide)) (.bigint 1) := by
  rintro ⟨-, hnot⟩
  exact hnot.mp rfl rfl

end RaylsSuite.TestUtils
