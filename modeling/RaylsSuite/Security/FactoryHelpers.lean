import RaylsSuite.Foundation.Evm
import RaylsSuite.Foundation.Hex

/-! # The init stub of the factory tests

The tests deploy a runtime with the creation code of an empty constructor: a
stub that copies what follows it into memory and returns it. The stub is
written by hand in hexadecimal, with the length of the runtime in the data of
a push of one or of two bytes.
-/

namespace RaylsSuite.Security

open Foundation

def headerHex : String := "608060405234801561001057600080fd5b50"

def buildInitStub (runtimeLengthBytes : Nat) : String :=
  let lengthHex (width : Nat) : String :=
    String.ofList (Hex.padStart (Nat.toDigits 16 runtimeLengthBytes) width)
  if runtimeLengthBytes ≤ 255 then
    headerHex ++ "60" ++ lengthHex 2 ++ "8061001f6000396000f3fe"
  else headerHex ++ "61" ++ lengthHex 4 ++ "806100206000396000f3fe"

/-! ## The bytes of the stub -/

def header : List UInt8 :=
  [0x60, 0x80, 0x60, 0x40, 0x52, 0x34, 0x80, 0x15, 0x61, 0x00, 0x10, 0x57, 0x60, 0x00, 0x80, 0xfd,
    0x5b, 0x50]

/-- The instructions that copy the runtime from an offset in the code and return it. -/
def tail (offset : UInt8) : List UInt8 :=
  [0x80, 0x61, 0x00, offset, 0x60, 0x00, 0x39, 0x60, 0x00, 0xf3, 0xfe]

theorem parse_buildInitStub_short {n : Nat} (hn : n ≤ 255) :
    Hex.parse (buildInitStub n).toList =
      some (header ++ 0x60 :: Hex.bigEndian 1 n ++ tail 0x1f) := by
  have hlength : Hex.padStart (Nat.toDigits 16 n) 2 = Hex.digits 2 n :=
    Hex.padStart_toDigits (by omega)
  have hfront : Hex.parse (headerHex ++ "60").toList = some (header ++ [0x60]) := by decide
  have htail : Hex.parse "8061001f6000396000f3fe".toList = some (tail 0x1f) := by decide
  rw [buildInitStub, if_pos hn, String.toList_append, String.toList_append, String.toList_ofList,
    hlength, List.append_assoc, Hex.parse_append hfront, Hex.parse_append (Hex.parse_digits 1 n),
    htail]
  simp

theorem parse_buildInitStub_long {n : Nat} (hshort : ¬n ≤ 255) (hn : n ≤ 65535) :
    Hex.parse (buildInitStub n).toList =
      some (header ++ 0x61 :: Hex.bigEndian 2 n ++ tail 0x20) := by
  have hlength : Hex.padStart (Nat.toDigits 16 n) 4 = Hex.digits 4 n :=
    Hex.padStart_toDigits (by omega)
  have hfront : Hex.parse (headerHex ++ "61").toList = some (header ++ [0x61]) := by decide
  have htail : Hex.parse "806100206000396000f3fe".toList = some (tail 0x20) := by decide
  rw [buildInitStub, if_neg hshort, String.toList_append, String.toList_append,
    String.toList_ofList, hlength, List.append_assoc, Hex.parse_append hfront,
    Hex.parse_append (Hex.parse_digits 2 n), htail]
  simp

/-! ## Its execution -/

section Execution

open Evm

variable {rest runtime code : List UInt8}

/-- The memory after the header has stored the free memory pointer. -/
def scratch : Nat → UInt8 := (State.start.write 0x40 (toBytes 0x80)).memory

/-- The header up to its jump, which checks the call value. -/
theorem header_checks {value condition : Word} {halt : Halt}
    (hcondition : (if value = 0 then 1 else 0) = condition)
    (hrest : Halts ⟨header ++ rest, value⟩ ⟨11, [0x10, condition, value], scratch⟩ halt) :
    Halts ⟨header ++ rest, value⟩ State.start halt := by
  have hpush : step ⟨header ++ rest, value⟩ State.start = .running ⟨2, [0x80], _⟩ := rfl
  have hpointer : step ⟨header ++ rest, value⟩ ⟨2, [0x80], State.start.memory⟩ =
      .running ⟨4, [0x40, 0x80], _⟩ := rfl
  have hstore : step ⟨header ++ rest, value⟩ ⟨4, [0x40, 0x80], State.start.memory⟩ =
      .running ⟨5, [], scratch⟩ := rfl
  have hvalue : step ⟨header ++ rest, value⟩ ⟨5, [], scratch⟩ =
      .running ⟨6, [value], scratch⟩ := rfl
  have hdup : step ⟨header ++ rest, value⟩ ⟨6, [value], scratch⟩ =
      .running ⟨7, [value, value], scratch⟩ := rfl
  have hiszero : step ⟨header ++ rest, value⟩ ⟨7, [value, value], scratch⟩ =
      .running ⟨8, [condition, value], scratch⟩ := hcondition ▸ rfl
  have hdata : BitVec.ofNat 256 (ofBytes [0x00, 0x10]) = 0x10 := by decide
  have htarget : step ⟨header ++ rest, value⟩ ⟨8, [condition, value], scratch⟩ =
      .running ⟨11, [0x10, condition, value], scratch⟩ := by
    rw [← hdata]
    rfl
  exact ((((((hrest.of_step htarget).of_step hiszero).of_step hdup).of_step hvalue).of_step
    hstore).of_step hpointer).of_step hpush

/-- Without value the jump lands on its destination and the header runs on to the code
after it. -/
theorem header_accepts {halt : Halt}
    (hrest : Halts ⟨header ++ rest, 0⟩ ⟨18, [], scratch⟩ halt) :
    Halts ⟨header ++ rest, 0⟩ State.start halt := by
  have hjump : step ⟨header ++ rest, 0⟩ ⟨11, [0x10, 1, 0], scratch⟩ =
      .running ⟨16, [0], scratch⟩ := rfl
  have hdest : step ⟨header ++ rest, 0⟩ ⟨16, [0], scratch⟩ = .running ⟨17, [0], scratch⟩ := rfl
  have hpop : step ⟨header ++ rest, 0⟩ ⟨17, [0], scratch⟩ = .running ⟨18, [], scratch⟩ := rfl
  exact header_checks rfl (((hrest.of_step hpop).of_step hdest).of_step hjump)

/-- With value the header does not jump and reverts. -/
theorem header_rejects {value : Word} (hvalue : value ≠ 0) :
    Halts ⟨header ++ rest, value⟩ State.start (.reverted []) := by
  have hstay : step ⟨header ++ rest, value⟩ ⟨11, [0x10, 0, value], scratch⟩ =
      .running ⟨12, [value], scratch⟩ := rfl
  have hpush : step ⟨header ++ rest, value⟩ ⟨12, [value], scratch⟩ =
      .running ⟨14, [0, value], scratch⟩ := rfl
  have hdup : step ⟨header ++ rest, value⟩ ⟨14, [0, value], scratch⟩ =
      .running ⟨15, [0, 0, value], scratch⟩ := rfl
  have hrevert : step ⟨header ++ rest, value⟩ ⟨15, [0, 0, value], scratch⟩ =
      .halted (.reverted []) := rfl
  exact header_checks (if_neg hvalue)
    ((((Halts.of_halted hrevert).of_step hdup).of_step hpush).of_step hstay)

/-- The tail returns the code from its copy offset on, if that has the length on the stack. -/
theorem tail_returns {base : Nat} (offset : UInt8) {value : Word} {memory : Nat → UInt8}
    (hcode : code.drop base = tail offset ++ runtime) (hoffset : code.drop offset.toNat = runtime)
    (hlength : runtime.length < 2 ^ 256) :
    Halts ⟨code, value⟩ ⟨base, [BitVec.ofNat 256 runtime.length], memory⟩ (.returned runtime) := by
  generalize hword : BitVec.ofNat 256 runtime.length = length
  have hcount : length.toNat = runtime.length := by
    rw [← hword, BitVec.toNat_ofNat, Nat.mod_eq_of_lt hlength]
  generalize hdata : BitVec.ofNat 256 (ofBytes [0x00, offset]) = source
  have hsource : source.toNat = offset.toNat := by
    have hlt := UInt8.toNat_lt offset
    simp [← hdata, ofBytes]
    omega
  have hdup : step ⟨code, value⟩ ⟨base, [length], memory⟩ =
      .running ⟨base + 1, [length, length], memory⟩ := step_at hcode value 0 _ _
  have hpush : step ⟨code, value⟩ ⟨base + 1, [length, length], memory⟩ =
      .running ⟨base + 4, [source, length, length], memory⟩ := by
    rw [← hdata, step_at hcode]
    rfl
  have hdest : step ⟨code, value⟩ ⟨base + 4, [source, length, length], memory⟩ =
      .running ⟨base + 6, [0, source, length, length], memory⟩ := step_at hcode value 4 _ _
  have hcopy : step ⟨code, value⟩ ⟨base + 6, [0, source, length, length], memory⟩ =
      .running ⟨base + 7, [length], (State.write ⟨base, [], memory⟩ 0 runtime).memory⟩ := by
    have hslice : slice (code.drop source.toNat) length.toNat = runtime := by
      rw [hsource, hoffset, hcount, slice_eq]
    rw [step_at hcode]
    conv_rhs => rw [← hslice]
    rfl
  have hzero : step ⟨code, value⟩
      ⟨base + 7, [length], (State.write ⟨base, [], memory⟩ 0 runtime).memory⟩ =
      .running ⟨base + 9, [0, length], (State.write ⟨base, [], memory⟩ 0 runtime).memory⟩ :=
    step_at hcode value 7 _ _
  have hreturn : step ⟨code, value⟩
      ⟨base + 9, [0, length], (State.write ⟨base, [], memory⟩ 0 runtime).memory⟩ =
      .halted (.returned runtime) := by
    have hread := State.read_write ⟨base, [], memory⟩ runtime 0
    rw [← hcount] at hread
    rw [step_at hcode]
    conv_rhs => rw [← hread]
    rfl
  exact (((((Halts.of_halted hreturn).of_step hzero).of_step hcopy).of_step hdest).of_step
    hpush).of_step hdup

end Execution

/-! ## The deployer -/

/-- Run as creation code in front of a runtime, the stub deploys that runtime, and refuses
value. -/
structure Deploys (stub runtime : List UInt8) : Prop where
  returns : Evm.Halts ⟨stub ++ runtime, 0⟩ .start (.returned runtime)
  rejects : ∀ value, value ≠ 0 → Evm.Halts ⟨stub ++ runtime, value⟩ .start (.reverted [])

theorem deploys_of_tail {runtime push : List UInt8} {offset : UInt8}
    (hpush : ∀ rest, Evm.step ⟨header ++ (push ++ rest), 0⟩ ⟨18, [], scratch⟩ =
      .running ⟨18 + push.length, [BitVec.ofNat 256 runtime.length], scratch⟩)
    (hoffset : offset.toNat = 18 + push.length + 11) (hlength : runtime.length ≤ 65535) :
    Deploys (header ++ push ++ tail offset) runtime := by
  have hcode : header ++ push ++ tail offset ++ runtime =
      header ++ (push ++ (tail offset ++ runtime)) := by
    simp only [List.append_assoc]
  constructor
  · rw [hcode]
    apply header_accepts
    refine Evm.Halts.of_step ?_ (hpush _)
    apply tail_returns offset
    · rw [← List.append_assoc, List.drop_left' (by simp [header]; omega)]
    · rw [← hcode, hoffset, List.drop_left' (by simp [header, tail]; omega)]
    · omega
  · intro value hvalue
    rw [hcode]
    exact header_rejects hvalue

theorem ofBytes_bigEndian {width n : Nat} (hn : n < 256 ^ width) :
    Evm.ofBytes (Hex.bigEndian width n) = n := by
  induction width generalizing n with
  | zero =>
      have hzero : n = 0 := by simpa using hn
      rw [hzero]
      rfl
  | succ width ih =>
      have hhigh : n / 256 < 256 ^ width := by
        rw [Nat.div_lt_iff_lt_mul (by decide), ← Nat.pow_succ]
        exact hn
      have hrest := ih hhigh
      simp only [Evm.ofBytes] at hrest
      simp only [Hex.bigEndian, Evm.ofBytes, List.foldl_append, hrest, List.foldl_cons,
        List.foldl_nil, UInt8.toNat_ofNat']
      omega

/-- The stub deploys every runtime whose length fits into two bytes. -/
theorem buildInitStub_deploys (runtime : List UInt8) (hlength : runtime.length ≤ 65535) :
    ∃ stub, Hex.parse (buildInitStub runtime.length).toList = some stub ∧ Deploys stub runtime := by
  by_cases hshort : runtime.length ≤ 255
  · refine ⟨_, parse_buildInitStub_short hshort, ?_⟩
    apply deploys_of_tail
    · intro rest
      have hstep : Evm.step
          ⟨header ++ (0x60 :: Hex.bigEndian 1 runtime.length ++ rest), 0⟩ ⟨18, [], scratch⟩ =
            .running ⟨20, [BitVec.ofNat 256 (Evm.ofBytes (Hex.bigEndian 1 runtime.length))],
              scratch⟩ := rfl
      rw [ofBytes_bigEndian (by omega)] at hstep
      exact hstep
    · rfl
    · exact hlength
  · refine ⟨_, parse_buildInitStub_long hshort hlength, ?_⟩
    apply deploys_of_tail
    · intro rest
      have hstep : Evm.step
          ⟨header ++ (0x61 :: Hex.bigEndian 2 runtime.length ++ rest), 0⟩ ⟨18, [], scratch⟩ =
            .running ⟨21, [BitVec.ofNat 256 (Evm.ofBytes (Hex.bigEndian 2 runtime.length))],
              scratch⟩ := rfl
      rw [ofBytes_bigEndian (by omega)] at hstep
      exact hstep
    · rfl
    · exact hlength

/-- Deploying a runtime of 256 bytes takes the push of two bytes. -/
theorem buildInitStub_deploys_zeros : (List.replicate 256 (0 : UInt8)).length ≤ 65535 ∧
    ∃ stub, Hex.parse (buildInitStub (List.replicate 256 (0 : UInt8)).length).toList = some stub ∧
      Deploys stub (List.replicate 256 0) := by
  have hlength : (List.replicate 256 (0 : UInt8)).length ≤ 65535 := by
    rw [List.length_replicate]
    decide
  exact ⟨hlength, buildInitStub_deploys _ hlength⟩

end RaylsSuite.Security
