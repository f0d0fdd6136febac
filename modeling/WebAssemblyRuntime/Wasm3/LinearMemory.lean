import WebAssemblyRuntime.Reasoning.LittleEndian
import WebAssemblyRuntime.Reasoning.Results
import WebAssemblyRuntime.Wasm3.Memory
import WebAssemblyRuntime.Wasm3.MetaCode

/-!
# LinearMemory — the instructions that reach linear memory and globals

Every address is a `u64` sum of two `u32`, so the sums below are exact.
-/

namespace WebAssemblyRuntime.Wasm3

open Reasoning

/-- What outlives one function: the globals of the module, the runtime with its memory, and how
often the runtime has been asked to grow it. -/
structure Store where
  globals : Nat → BitVec 64
  runtime : M3Runtime
  growths : Nat := 0

namespace Store

/-- `_mem->length`. -/
def memLength (σ : Store) : Nat := σ.runtime.memory.mallocated.elim 0 M3Block.length

/-- The bytes at `m3MemData (_mem)`. -/
def bytes (σ : Store) : Nat → UInt8 := σ.runtime.memory.mallocated.elim (fun _ => 0) M3Block.bytes

def setBytes (σ : Store) (bytes : Nat → UInt8) : Store :=
  { σ with runtime := { σ.runtime with memory := { σ.runtime.memory with
      mallocated := σ.runtime.memory.mallocated.map fun block => { block with bytes := bytes } } } }

/-- `d_m3Load`: `operand` is the `u32` address, the result the new `_r0`. -/
def load (t : IntType) (SRC : MemType) (operand offset : BitVec 32) (σ : Store) :
    Except M3Err (BitVec 64) :=
  let operand := operand.toNat + offset.toNat
  if operand + SRC.size ≤ σ.memLength then
    let value : BitVec (8 * SRC.size) := BitVec.ofNat _ (readLE σ.bytes SRC.size operand)
    -- the cast to DEST_TYPE, then the assignment to the register
    .ok (toReg true (if SRC.signed then value.signExtend t.width else value.setWidth t.width))
  else .error .trapOutOfBoundsMemoryAccess

/-- `d_m3Store`: `value` is the register or the slot. -/
def store {w : Nat} (DEST : MemType) (value : BitVec w) (operand offset : BitVec 32) (σ : Store) :
    Except M3Err Store :=
  let operand := operand.toNat + offset.toNat
  if operand + DEST.size ≤ σ.memLength then
    .ok (σ.setBytes (writeLE σ.bytes DEST.size operand value.toNat))
  else .error .trapOutOfBoundsMemoryAccess

/-- `op_MemCopy`, whose `memmove` reads all of the source before it writes. -/
def memCopy (size source destination : BitVec 32) (σ : Store) : Except M3Err Store :=
  if destination.toNat + size.toNat ≤ σ.memLength then
    if source.toNat + size.toNat ≤ σ.memLength then
      .ok (σ.setBytes fun i =>
        if destination.toNat ≤ i ∧ i < destination.toNat + size.toNat then
          σ.bytes (source.toNat + (i - destination.toNat))
        else σ.bytes i)
    else .error .trapOutOfBoundsMemoryAccess
  else .error .trapOutOfBoundsMemoryAccess

/-- `op_MemFill`. -/
def memFill (size byte destination : BitVec 32) (σ : Store) : Except M3Err Store :=
  if destination.toNat + size.toNat ≤ σ.memLength then
    .ok (σ.setBytes fun i =>
      if destination.toNat ≤ i ∧ i < destination.toNat + size.toNat then UInt8.ofNat byte.toNat
      else σ.bytes i)
  else .error .trapOutOfBoundsMemoryAccess

/-- `op_MemSize`. -/
def memSize (σ : Store) : BitVec 64 := BitVec.ofNat 64 σ.runtime.memory.numPages.toNat

/-- `op_MemGrow` with what the system answers to the growths, one after the other. -/
def memGrow (os : Nat → SysCalls) (pages : BitVec 32) (σ : Store) : BitVec 64 × Store :=
  let grown := opMemGrow σ.runtime pages.toNat (os σ.growths)
  (BitVec.ofInt 64 grown.1, { σ with runtime := grown.2, growths := σ.growths + 1 })

/-- The `u32` or `u64` at a global's address. -/
def getGlobal (t : IntType) (i : Nat) (σ : Store) : BitVec t.width := (σ.globals i).setWidth t.width

/-- Storing the `u32` leaves the upper half of the `u64`. -/
def setGlobal (t : IntType) (i : Nat) (v : BitVec t.width) (σ : Store) : Store :=
  let bits : BitVec 64 := match t with
    | .i32 => (σ.globals i).extractLsb' 32 32 ++ v
    | .i64 => v
  { σ with globals := Function.update σ.globals i bits }

/-! ## What the memory reads after a write -/

@[simp] theorem memLength_setBytes (σ : Store) (bytes : Nat → UInt8) :
    (σ.setBytes bytes).memLength = σ.memLength := by
  rw [memLength, memLength, setBytes]
  cases σ.runtime.memory.mallocated <;> rfl

/-- A memory with bytes is an allocated one. -/
theorem bytes_setBytes (σ : Store) (bytes : Nat → UInt8) (h : 0 < σ.memLength) :
    (σ.setBytes bytes).bytes = bytes := by
  rw [memLength] at h
  rw [Store.bytes, setBytes]
  cases hblock : σ.runtime.memory.mallocated with
  | none =>
    rw [hblock] at h
    exact absurd h (Nat.lt_irrefl 0)
  | some block => rfl

section

variable {w : Nat} {t : IntType} {DEST SRC : MemType} {value : BitVec w} {σ σ' : Store}
  {operand offset operand' offset' : BitVec 32}

theorem store_eq (h : σ.store DEST value operand offset = .ok σ') :
    operand.toNat + offset.toNat + DEST.size ≤ σ.memLength ∧
      σ' = σ.setBytes (writeLE σ.bytes DEST.size (operand.toNat + offset.toNat) value.toNat) := by
  rcases Reasoning.pos_of_ite h nofun with ⟨hinside, hσ'⟩
  exact ⟨hinside, (Except.ok.inj hσ').symm⟩

/-- Two memories with the same length and the same bytes where the load reads give it the same
result. -/
theorem load_congr (hlength : σ'.memLength = σ.memLength)
    (hbytes : operand.toNat + offset.toNat + SRC.size ≤ σ.memLength →
      readLE σ'.bytes SRC.size (operand.toNat + offset.toNat) =
        readLE σ.bytes SRC.size (operand.toNat + offset.toNat)) :
    σ'.load t SRC operand offset = σ.load t SRC operand offset := by
  rw [load, load, hlength]
  by_cases hinside : operand.toNat + offset.toNat + SRC.size ≤ σ.memLength
  · rw [if_pos hinside, if_pos hinside, hbytes hinside]
  · rw [if_neg hinside, if_neg hinside]

/-- What a load finds after a store: at the same place the stored number, cut to the bytes stored
and extended as the load says; beside it what was there before, or the same trap. -/
theorem load_after_store (h : σ.store DEST value operand offset = .ok σ') :
    (SRC.size = DEST.size → operand'.toNat + offset'.toNat = operand.toNat + offset.toNat →
      σ'.load t SRC operand' offset' = .ok (toReg true
        (if SRC.signed then (value.setWidth (8 * SRC.size)).signExtend t.width
          else (value.setWidth (8 * SRC.size)).setWidth t.width))) ∧
    (operand'.toNat + offset'.toNat + SRC.size ≤ operand.toNat + offset.toNat ∨
        operand.toNat + offset.toNat + DEST.size ≤ operand'.toNat + offset'.toNat →
      σ'.load t SRC operand' offset' = σ.load t SRC operand' offset') := by
  rcases store_eq h with ⟨hinside, rfl⟩
  have hallocated : 0 < σ.memLength := by
    have hsize : 0 < DEST.size := by cases DEST <;> decide
    omega
  constructor
  · intro hsize hplace
    have hnumber : (BitVec.ofNat (8 * SRC.size) (value.toNat % 256 ^ SRC.size)) =
        value.setWidth (8 * SRC.size) := by
      have hpow : 256 ^ SRC.size = 2 ^ (8 * SRC.size) := by rw [Nat.pow_mul]
      apply BitVec.eq_of_toNat_eq
      rw [BitVec.toNat_ofNat, BitVec.toNat_setWidth, hpow, Nat.mod_mod]
    rw [load, memLength_setBytes, bytes_setBytes _ _ hallocated, hplace, hsize,
      if_pos hinside, readLE_writeLE, ← hsize, hnumber]
  · intro hbeside
    apply load_congr (memLength_setBytes _ _)
    intro _
    rw [bytes_setBytes _ _ hallocated]
    exact readLE_writeLE_of_disjoint hbeside

end

/-- Sixteen zero bytes. -/
def sixteenBytes : Store where
  globals _ := 0
  runtime := { stack := 0, numStackSlots := 0, memory := { mallocated := some ⟨0, 0, 16, fun _ => 0⟩ } }

/-- A byte stored at 3 is loaded from 1 + 2; the next one is still 0. -/
theorem load_after_store_byte : ∃ σ', sixteenBytes.store .u8 (0x1ff : BitVec 32) 3 0 = .ok σ' ∧
    σ'.load .i32 .i8 1 2 = .ok (toReg true ((0x1ff : BitVec 32).setWidth 8 |>.signExtend 32)) ∧
    σ'.load .i32 .i8 4 0 = sixteenBytes.load .i32 .i8 4 0 := by
  have hstore : sixteenBytes.store .u8 (0x1ff : BitVec 32) 3 0 = .ok _ := rfl
  exact ⟨_, hstore, (load_after_store hstore).1 rfl rfl, (load_after_store hstore).2 (.inr (by decide))⟩

end Store

end WebAssemblyRuntime.Wasm3
