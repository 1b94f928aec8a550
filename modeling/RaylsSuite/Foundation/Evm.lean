import Mathlib.Algebra.Ring.Nat
import Mathlib.Data.List.Basic

/-! # Running bytecode

A fragment of the EVM without gas: the instructions on the operand stack and on
memory that creation code consists of. Instructions are decoded from the bytes
of the code, so the data of a push may hide the byte of a jump destination.
-/

namespace RaylsSuite.Foundation.Evm

abbrev Word := BitVec 256

inductive Op where
  | stop
  | push (width : Nat) (value : Word)
  | dup (depth : Nat)
  | pop
  | iszero
  | callvalue
  | codecopy
  | mstore
  | jumpi
  | jumpdest
  | ret
  | revert
  | invalid
  /-- An instruction outside the fragment. -/
  | other (byte : UInt8)
deriving DecidableEq, Repr

/-- The number that the bytes write, the most significant first. -/
def ofBytes (bytes : List UInt8) : Nat := bytes.foldl (fun value byte => value * 256 + byte.toNat) 0

/-- The bytes of the word, the most significant first. -/
def toBytes (value : Word) : List UInt8 :=
  (List.range 32).map fun i => UInt8.ofNat (value.toNat / 256 ^ (31 - i))

/-- How many bytes of data follow this byte: those of `PUSH1` to `PUSH32`. -/
def pushWidth (byte : UInt8) : Nat :=
  if 0x60 ≤ byte.toNat ∧ byte.toNat ≤ 0x7f then byte.toNat - 0x5f else 0

/-- The first bytes of the code, with zeros after its end. -/
def slice (code : List UInt8) (size : Nat) : List UInt8 :=
  (List.range size).map fun i => code.getD i 0

/-- The instruction that begins with this byte. -/
def decode (byte : UInt8) (rest : List UInt8) : Op :=
  if 0 < pushWidth byte then
    .push (pushWidth byte) (BitVec.ofNat 256 (ofBytes (slice rest (pushWidth byte))))
  else if 0x80 ≤ byte.toNat ∧ byte.toNat ≤ 0x8f then .dup (byte.toNat - 0x80)
  else
    match byte.toNat with
    | 0x00 => .stop
    | 0x15 => .iszero
    | 0x34 => .callvalue
    | 0x39 => .codecopy
    | 0x50 => .pop
    | 0x52 => .mstore
    | 0x57 => .jumpi
    | 0x5b => .jumpdest
    | 0xf3 => .ret
    | 0xfd => .revert
    | 0xfe => .invalid
    | _ => .other byte

/-- The instruction at a position; past the end of the code it is `STOP`. -/
def fetch (code : List UInt8) (pc : Nat) : Op :=
  match code.drop pc with
  | [] => .stop
  | byte :: rest => decode byte rest

/-- The position is that of an instruction, not of the data of a push. -/
def isBoundary : Nat → List UInt8 → Nat → Bool
  | _, _, 0 => true
  | 0, _, _ => false
  | _, [], _ => false
  | fuel + 1, byte :: rest, position + 1 =>
      decide (pushWidth byte ≤ position) &&
        isBoundary fuel (rest.drop (pushWidth byte)) (position - pushWidth byte)

def validJump (code : List UInt8) (position : Nat) : Bool :=
  isBoundary position code position && code[position]? == some 0x5b

/-- How an execution ends; a failure is an exceptional halt. -/
inductive Halt where
  | stopped
  | returned (data : List UInt8)
  | reverted (data : List UInt8)
  | failed
  | unsupported (byte : UInt8)
deriving DecidableEq, Repr

/-- What an execution runs on. -/
structure Frame where
  code : List UInt8
  callValue : Word

structure State where
  pc : Nat
  stack : List Word
  memory : Nat → UInt8

inductive Outcome where
  | running (state : State)
  | halted (halt : Halt)

namespace State

def start : State := ⟨0, [], fun _ => 0⟩

/-- Go on after an instruction of this width with another stack. -/
def next (state : State) (width : Nat) (stack : List Word) : Outcome :=
  if stack.length ≤ 1024 then .running { state with pc := state.pc + 1 + width, stack }
  else .halted .failed

def read (state : State) (offset size : Nat) : List UInt8 :=
  (List.range size).map fun i => state.memory (offset + i)

def write (state : State) (offset : Nat) (bytes : List UInt8) : State :=
  { state with memory := fun position =>
      if offset ≤ position then bytes.getD (position - offset) (state.memory position)
      else state.memory position }

end State

def exec (frame : Frame) (state : State) : Op → Outcome
  | .stop => .halted .stopped
  | .push width value => state.next width (value :: state.stack)
  | .dup depth =>
      match state.stack[depth]? with
      | some value => state.next 0 (value :: state.stack)
      | none => .halted .failed
  | .pop =>
      match state.stack with
      | _ :: stack => state.next 0 stack
      | [] => .halted .failed
  | .iszero =>
      match state.stack with
      | value :: stack => state.next 0 ((if value = 0 then 1 else 0) :: stack)
      | [] => .halted .failed
  | .callvalue => state.next 0 (frame.callValue :: state.stack)
  | .codecopy =>
      match state.stack with
      | dest :: offset :: size :: stack =>
          (state.write dest.toNat (slice (frame.code.drop offset.toNat) size.toNat)).next 0 stack
      | _ => .halted .failed
  | .mstore =>
      match state.stack with
      | offset :: value :: stack => (state.write offset.toNat (toBytes value)).next 0 stack
      | _ => .halted .failed
  | .jumpi =>
      match state.stack with
      | dest :: condition :: stack =>
          if condition = 0 then state.next 0 stack
          else if validJump frame.code dest.toNat then
            .running { state with pc := dest.toNat, stack }
          else .halted .failed
      | _ => .halted .failed
  | .jumpdest => state.next 0 state.stack
  | .ret =>
      match state.stack with
      | offset :: size :: _ => .halted (.returned (state.read offset.toNat size.toNat))
      | _ => .halted .failed
  | .revert =>
      match state.stack with
      | offset :: size :: _ => .halted (.reverted (state.read offset.toNat size.toNat))
      | _ => .halted .failed
  | .invalid => .halted .failed
  | .other byte => .halted (.unsupported byte)

def step (frame : Frame) (state : State) : Outcome :=
  exec frame state (fetch frame.code state.pc)

/-- Execute until the halt, for so many instructions at most. -/
def run (frame : Frame) : Nat → State → Option Halt
  | 0, _ => none
  | fuel + 1, state =>
      match step frame state with
      | .running next => run frame fuel next
      | .halted halt => some halt

/-- The execution halts so. -/
def Halts (frame : Frame) (state : State) (halt : Halt) : Prop :=
  ∃ fuel, run frame fuel state = some halt

/-! ## Symbolic execution -/

section Execution

variable {frame : Frame} {state next : State} {halt : Halt}

theorem Halts.of_step (hnext : Halts frame next halt) (hstep : step frame state = .running next) :
    Halts frame state halt := by
  obtain ⟨fuel, hrun⟩ := hnext
  refine ⟨fuel + 1, ?_⟩
  rw [run, hstep]
  exact hrun

theorem Halts.of_halted (hstep : step frame state = .halted halt) : Halts frame state halt := by
  refine ⟨1, ?_⟩
  rw [run, hstep]

/-- The instruction at an offset from a position is read from the code there. -/
theorem step_at {code bytes : List UInt8} {base : Nat} (hcode : code.drop base = bytes)
    (callValue : Word) (offset : Nat) (stack : List Word) (memory : Nat → UInt8) :
    step ⟨code, callValue⟩ ⟨base + offset, stack, memory⟩ =
      exec ⟨code, callValue⟩ ⟨base + offset, stack, memory⟩ (fetch bytes offset) := by
  rw [step, fetch, fetch, ← List.drop_drop, hcode]

/-- A slice that reaches to the end of the code is all the rest of it. -/
theorem slice_eq (bytes : List UInt8) : slice bytes bytes.length = bytes := by
  apply List.ext_getElem (by simp [slice])
  intro i hi hi'
  simp [slice, hi']

theorem State.read_write (state : State) (bytes : List UInt8) (offset : Nat) :
    (state.write offset bytes).read offset bytes.length = bytes := by
  apply List.ext_getElem (by simp [State.read])
  intro i hi hi'
  simp [State.read, State.write, hi']

end Execution

end RaylsSuite.Foundation.Evm
