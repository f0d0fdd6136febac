import WebAssemblyRuntime.Wasm3.CodePages
import WebAssemblyRuntime.Wasm3.Parse

/-!
# Compilation — the state of the compiler, its slots and its code

An `M3Compilation` follows the WebAssembly operand stack while a function is compiled: `wasmStack`
says in which slot, or register, a value will be at run time, and `m3Slots` counts the entries that
refer to a slot.  Integer code only: the floating-point register is never allocated, and its
branches are left out.  The C functions write to the state they are given; here they return it.
-/

namespace WebAssemblyRuntime.Wasm3

def d_m3MaxConstantTableSize : Nat := 120
def d_m3Reg0SlotAlias : Nat := 60000
def c_slotUnused : Nat := 0xffff

/-- All arguments and results are 64-bit aligned. -/
def c_ioSlotCount : Nat := 2

/-- The errors of the compiler; the ones with no name in `wasm3.h` are literals in
`m3_compile.c`. -/
inductive CompileErr where
  | err (e : M3Err)
  /-- `"slot usage count overflow"` -/
  | slotUsageCountOverflow
  /-- `"invalid block depth"` -/
  | invalidBlockDepth
  /-- `"local index out of bounds"` -/
  | localIndexOutOfBounds
  /-- `"no operation found for opcode"` -/
  | noOperationFound
  deriving DecidableEq, Repr

/-- The opcode of a scope; the C code has 0 for the function's own. -/
inductive BlockOpcode where
  | function
  | block
  | loop
  | ifOp
  | elseOp
  deriving DecidableEq, Repr

/-- `M3CompilationScope`.  The list of open branches, which the C code threads through the reserved
words, is written out. -/
structure M3CompilationScope where
  pc : PC
  patches : List PC
  depth : Nat
  exitStackIndex : Nat
  blockStackIndex : Nat
  type : M3FuncType
  opcode : BlockOpcode
  isPolymorphic : Bool

/-- `M3Compilation`. -/
structure M3Compilation where
  rt : M3CodePages
  page : Nat
  block : M3CompilationScope
  /-- `block.outer` and the scopes around it. -/
  outer : List M3CompilationScope
  /-- `GetFunctionNumArgsAndLocals (o->function)`. -/
  numArgsAndLocals : Nat
  stackFirstDynamicIndex : Nat
  stackIndex : Nat
  slotFirstConstIndex : Nat
  slotMaxConstIndex : Nat
  slotFirstDynamicIndex : Nat
  maxStackSlots : Nat
  constants : Nat → BitVec 32
  wasmStack : Nat → Nat
  typeStack : Nat → M3ValueType
  m3Slots : Nat → Nat
  slotMaxAllocatedIndexPlusOne : Nat
  /-- `regStackIndexPlusOne [0]`. -/
  regStackIndexPlusOne : Nat

namespace M3Compilation

/-- `GetTypeNumSlots`. -/
def getTypeNumSlots : M3ValueType → Nat
  | .v128 => 4
  | .i64 | .f64 => 2
  | .unknown => 2
  | .none | .i32 | .f32 => 1

/-- `Is64BitType`, on a machine with 64-bit pointers. -/
def is64BitType : M3ValueType → Bool
  | .i64 | .f64 | .v128 | .unknown => true
  | .none | .i32 | .f32 => false

/-- `AlignSlotToType`. -/
def alignSlotToType (slot : Nat) (i_type : M3ValueType) : Nat :=
  let numSlots := getTypeNumSlots i_type
  (slot + (numSlots - 1)) / numSlots * numSlots

/-- The innermost scope first. -/
def scopes (o : M3Compilation) : List M3CompilationScope := o.block :: o.outer

/-! ## Emitting -/

/-- `GetPC`. -/
def getPC (o : M3Compilation) : PC := o.rt.getPagePC o.page

/-- `EmitSlotOffset`, `EmitConstant32`, `EmitWord64` and `EmitPointer`, by the word. -/
def emit (o : M3Compilation) (w : CodeWord) : M3Compilation :=
  { o with rt := o.rt.emitWord o.page w }

/-- `EnsureCodePageNumLines`. -/
def ensureCodePageNumLines (o : M3Compilation) (i_numLines : Nat) :
    Except CompileErr M3Compilation :=
  match o.rt.ensureCodePageNumLines o.page i_numLines with
  | some (page, rt) => .ok { o with rt := rt, page := page }
  | none => .error (.err .mallocFailedCodePage)

/-- `EmitOp`. -/
def emitOp (o : M3Compilation) (i_operation : M3Op) : Except CompileErr M3Compilation := do
  let o ← o.ensureCodePageNumLines d_m3CodePageFreeLinesThreshold
  .ok (o.emit (.op i_operation))

/-- `AcquireCompilationCodePage`, and the page as `o->page`. -/
def acquireCompilationCodePage (o : M3Compilation) : Except CompileErr M3Compilation :=
  match o.rt.acquireCodePage with
  | some (page, rt) => .ok { o with rt := rt, page := page }
  | none => .error (.err .mallocFailedCodePage)

/-- `ReleaseCompilationCodePage`, and `page` as `o->page` again. -/
def releaseCompilationCodePage (o : M3Compilation) (page : Nat) : M3Compilation :=
  { o with rt := o.rt.releaseCodePage o.page, page := page }

/-- The assignment `* pc = target` to a reserved word. -/
def patch (o : M3Compilation) (pc target : PC) : M3Compilation :=
  { o with rt := o.rt.setWord pc (.pc target) }

/-! ## The operand stack -/

/-- `GetStackTopIndex`. -/
def getStackTopIndex (o : M3Compilation) : Int := o.stackIndex - 1

/-- The cast of an `i16` to `u16`. -/
def toU16 (i : Int) : Nat := (i % 65536).toNat

/-- `GetStackTypeFromTop`. -/
def getStackTypeFromTop (o : M3Compilation) (i_offset : Nat) : M3ValueType :=
  if i_offset + 1 ≤ o.stackIndex then
    let index := o.stackIndex - (i_offset + 1)
    if o.stackFirstDynamicIndex ≤ index then o.typeStack index else .none
  else .none

/-- `GetStackTopType`. -/
def getStackTopType (o : M3Compilation) : M3ValueType := o.getStackTypeFromTop 0

/-- `GetStackTypeFromBottom`. -/
def getStackTypeFromBottom (o : M3Compilation) (i_offset : Nat) : M3ValueType :=
  if i_offset < o.stackIndex then o.typeStack i_offset else .none

/-- `IsStackIndexInRegister`. -/
def isStackIndexInRegister (o : M3Compilation) (i_stackIndex : Int) : Bool :=
  if 0 ≤ i_stackIndex ∧ i_stackIndex < o.stackIndex then
    d_m3Reg0SlotAlias ≤ o.wasmStack i_stackIndex.toNat
  else false

/-- `IsStackTopInRegister`, `IsStackTopMinus1InRegister` and `IsStackTopMinus2InRegister`. -/
def isStackTopMinusInRegister (o : M3Compilation) (n : Nat) : Bool :=
  o.isStackIndexInRegister (o.getStackTopIndex - n)

def isStackTopInRegister (o : M3Compilation) : Bool := o.isStackTopMinusInRegister 0

/-- `GetSlotForStackIndex`. -/
def getSlotForStackIndex (o : M3Compilation) (i_stackIndex : Nat) : Nat :=
  if i_stackIndex < o.stackIndex then o.wasmStack i_stackIndex else c_slotUnused

/-- `GetStackTopSlotNumber`. -/
def getStackTopSlotNumber (o : M3Compilation) : Nat :=
  if 0 ≤ o.getStackTopIndex then o.wasmStack o.getStackTopIndex.toNat else c_slotUnused

/-- `GetExtraSlotForStackIndex`. -/
def getExtraSlotForStackIndex (o : M3Compilation) (i_stackIndex : Nat) : Nat :=
  let baseSlot := o.getSlotForStackIndex i_stackIndex
  if baseSlot ≠ c_slotUnused then
    baseSlot + (getTypeNumSlots (o.getStackTypeFromBottom i_stackIndex) - 1)
  else baseSlot

/-- `IsConstantSlot`. -/
def isConstantSlot (o : M3Compilation) (i_slot : Nat) : Bool :=
  o.slotFirstConstIndex ≤ i_slot ∧ i_slot < o.slotMaxConstIndex

/-- `GetNumBlockValuesOnStack`. -/
def getNumBlockValuesOnStack (o : M3Compilation) : Nat := o.stackIndex - o.block.blockStackIndex

/-- `IsRegisterSlotAlias`. -/
def isRegisterSlotAlias (i_slot : Nat) : Bool := d_m3Reg0SlotAlias ≤ i_slot ∧ i_slot ≠ c_slotUnused

/-- `IsRegisterAllocated`. -/
def isRegisterAllocated (o : M3Compilation) : Bool := o.regStackIndexPlusOne ≠ 0

/-- `o->wasmStack [i] = slot`. -/
def setStackSlot (o : M3Compilation) (i slot : Nat) : M3Compilation :=
  { o with wasmStack := Function.update o.wasmStack i slot }

/-! ## Slots -/

/-- `MarkSlotAllocated`, with `TouchSlot`. -/
def markSlotAllocated (o : M3Compilation) (i_slot : Nat) : M3Compilation :=
  { o with
    m3Slots := Function.update o.m3Slots i_slot 1
    slotMaxAllocatedIndexPlusOne := max o.slotMaxAllocatedIndexPlusOne (i_slot + 1)
    maxStackSlots := max o.maxStackSlots (i_slot + 1) }

/-- The loop of `MarkSlotsAllocated`. -/
def markSlots (o : M3Compilation) (i_slot : Nat) : Nat → M3Compilation
  | 0 => o
  | i_numSlots + 1 => (o.markSlotAllocated i_slot).markSlots (i_slot + 1) i_numSlots

/-- `MarkSlotsAllocatedByType`. -/
def markSlotsAllocatedByType (o : M3Compilation) (i_slot : Nat) (i_type : M3ValueType) :
    Except CompileErr M3Compilation :=
  if d_m3MaxFunctionSlots < i_slot + getTypeNumSlots i_type then
    .error (.err .functionStackOverflow)
  else .ok (o.markSlots i_slot (getTypeNumSlots i_type))

/-- The search of `AllocateSlotsWithinRange`, for at most as many steps as there are slots. -/
def findSlots (m3Slots : Nat → Nat) (numSlots i_endSlot : Nat) : Nat → Nat → Option Nat
  | 0, _ => none
  | fuel + 1, i =>
      if i + (numSlots - 1) < i_endSlot then
        if i + (numSlots - 1) < d_m3MaxFunctionSlots ∧ m3Slots i = 0 ∧
            m3Slots (i + (numSlots - 1)) = 0 then
          some i
        else findSlots m3Slots numSlots i_endSlot fuel (i + numSlots)
      else none

/-- `AllocateSlotsWithinRange`; the slots found are below the limit that `MarkSlotsAllocated`
checks. -/
def allocateSlotsWithinRange (o : M3Compilation) (i_type : M3ValueType)
    (i_startSlot i_endSlot : Nat) : Except CompileErr (Nat × M3Compilation) :=
  let numSlots := getTypeNumSlots i_type
  match findSlots o.m3Slots numSlots i_endSlot d_m3MaxFunctionSlots
      (alignSlotToType i_startSlot i_type) with
  | some i => .ok (i, o.markSlots i numSlots)
  | none => .error (.err .functionStackOverflow)

/-- `AllocateSlots`. -/
def allocateSlots (o : M3Compilation) (i_type : M3ValueType) :
    Except CompileErr (Nat × M3Compilation) :=
  o.allocateSlotsWithinRange i_type o.slotFirstDynamicIndex d_m3MaxFunctionSlots

/-- `AllocateConstantSlots`. -/
def allocateConstantSlots (o : M3Compilation) (i_type : M3ValueType) :
    Except CompileErr (Nat × M3Compilation) :=
  o.allocateSlotsWithinRange i_type o.slotFirstConstIndex
    (min o.slotFirstDynamicIndex (o.slotFirstConstIndex + d_m3MaxConstantTableSize))

/-- `IncrementSlotUsageCount`. -/
def incrementSlotUsageCount (o : M3Compilation) (i_slot : Nat) : Except CompileErr M3Compilation :=
  if o.m3Slots i_slot < 0xFF then
    .ok { o with m3Slots := Function.update o.m3Slots i_slot (o.m3Slots i_slot + 1) }
  else .error .slotUsageCountOverflow

/-- The loop of `DeallocateSlot`; the counts are bytes. -/
def deallocateSlots (o : M3Compilation) (i_slot : Nat) : Nat → M3Compilation
  | 0 => o
  | n + 1 =>
      ({ o with m3Slots := Function.update o.m3Slots i_slot ((o.m3Slots i_slot + 255) % 256) }
        : M3Compilation).deallocateSlots (i_slot + 1) n

/-- The loop of `GetMaxUsedSlotPlusOne`, from a bound down. -/
def maxUsedSlot (m3Slots : Nat → Nat) (slotFirstDynamicIndex : Nat) : Nat → Nat
  | 0 => 0
  | n + 1 =>
      if slotFirstDynamicIndex < n + 1 ∧ m3Slots n = 0 then
        maxUsedSlot m3Slots slotFirstDynamicIndex n
      else n + 1

/-- `GetMaxUsedSlotPlusOne`, which leaves its result in the state. -/
def getMaxUsedSlotPlusOne (o : M3Compilation) : M3Compilation :=
  { o with slotMaxAllocatedIndexPlusOne :=
      maxUsedSlot o.m3Slots o.slotFirstDynamicIndex o.slotMaxAllocatedIndexPlusOne }

/-- `c_setSetOps`; the entries of the other types are for floating-point code. -/
def setSetOps : M3ValueType → M3Op
  | .i32 => .setSlot .i32
  | .i64 => .setSlot .i64
  | _ => .null

/-- `c_preserveSetSlot`. -/
def preserveSetSlotOps : M3ValueType → M3Op
  | .i32 => .preserveSetSlot .i32
  | .i64 => .preserveSetSlot .i64
  | _ => .null

/-- `c_setRegisterOps`. -/
def setRegisterOps : M3ValueType → M3Op
  | .i32 => .setRegister .i32
  | .i64 => .setRegister .i64
  | _ => .null

/-- `c_setGlobalOps`. -/
def setGlobalOps : M3ValueType → M3Op
  | .i32 => .setGlobal .i32
  | .i64 => .setGlobal .i64
  | _ => .null

/-- The choice between `op_..._32` and `op_..._64`. -/
def widthOf (i_type : M3ValueType) : IntType := if is64BitType i_type then .i64 else .i32

/-- `PreserveRegisterIfOccupied`: the value in the register moves to a slot. -/
def preserveRegisterIfOccupied (o : M3Compilation) : Except CompileErr M3Compilation :=
  if o.isRegisterAllocated then do
    let stackIndex := o.regStackIndexPlusOne - 1
    let o := { o with regStackIndexPlusOne := 0 }
    let type := o.getStackTypeFromBottom stackIndex
    let (slot, o) ← o.allocateSlots type
    let o := o.setStackSlot stackIndex slot
    -- `c_setSetOps` has five entries
    if type = .v128 ∨ type = .unknown then .error (.err .functionStackOverflow)
    else do
      let o ← o.emitOp (setSetOps type)
      .ok (o.emit (.slot slot))
  else .ok o

/-- `PreserveNonTopRegisters`. -/
def preserveNonTopRegisters (o : M3Compilation) : Except CompileErr M3Compilation :=
  if 0 ≤ o.getStackTopIndex ∧ o.isRegisterAllocated ∧
      ((o.regStackIndexPlusOne - 1 : Nat) : Int) ≠ o.getStackTopIndex then
    o.preserveRegisterIfOccupied
  else .ok o

/-! ## Push and pop -/

/-- `Push`, with the state it leaves also where it fails. -/
def pushAnyway (o : M3Compilation) (i_type : M3ValueType) (i_slot : Nat) :
    Option CompileErr × M3Compilation :=
  let stackIndex := o.stackIndex
  let o := { o with stackIndex := o.stackIndex + 1 }
  if stackIndex < d_m3MaxFunctionStackHeight then
    (none, { o with
      wasmStack := Function.update o.wasmStack stackIndex i_slot
      typeStack := Function.update o.typeStack stackIndex i_type
      regStackIndexPlusOne :=
        if isRegisterSlotAlias i_slot then stackIndex + 1 else o.regStackIndexPlusOne })
  else (some (.err .functionStackOverflow), o)

/-- `Push`. -/
def push (o : M3Compilation) (i_type : M3ValueType) (i_slot : Nat) :
    Except CompileErr M3Compilation :=
  match o.pushAnyway i_type i_slot with
  | (none, o) => .ok o
  | (some e, _) => .error e

/-- `PushRegister` for an integer type. -/
def pushRegister (o : M3Compilation) (i_type : M3ValueType) : Except CompileErr M3Compilation :=
  o.push i_type d_m3Reg0SlotAlias

/-- `Pop`, with the state it leaves also where it fails. -/
def popAnyway (o : M3Compilation) : Option CompileErr × M3Compilation :=
  if o.block.blockStackIndex < o.stackIndex then
    let o := { o with stackIndex := o.stackIndex - 1 }
    let slot := o.wasmStack o.stackIndex
    let type := o.typeStack o.stackIndex
    if isRegisterSlotAlias slot then (none, { o with regStackIndexPlusOne := 0 })
    else if o.slotMaxAllocatedIndexPlusOne ≤ slot then (some (.err .functionStackUnderrun), o)
    else if o.slotFirstDynamicIndex ≤ slot then (none, o.deallocateSlots slot (getTypeNumSlots type))
    else (none, o)
  else if o.block.isPolymorphic then (none, o)
  else (some (.err .functionStackUnderrun), o)

/-- `Pop`. -/
def pop (o : M3Compilation) : Except CompileErr M3Compilation :=
  match o.popAnyway with
  | (none, o) => .ok o
  | (some e, _) => .error e

/-- `PopType`. -/
def popType (o : M3Compilation) (i_type : M3ValueType) : Except CompileErr M3Compilation :=
  if i_type = o.getStackTopType ∨ o.block.isPolymorphic then o.pop
  else .error (.err .typeMismatch)

/-- `PushAllocatedSlot`. -/
def pushAllocatedSlot (o : M3Compilation) (i_type : M3ValueType) :
    Except CompileErr M3Compilation := do
  let (slot, o) ← o.allocateSlots i_type
  o.push i_type slot

/-- `PushAllocatedSlotAndEmit`. -/
def pushAllocatedSlotAndEmit (o : M3Compilation) (i_type : M3ValueType) :
    Except CompileErr M3Compilation := do
  let (slot, o) ← o.allocateSlots i_type
  let o ← o.push i_type slot
  .ok (o.emit (.slot slot))

/-- The 64-bit constant at an index of the constant table. -/
def constantAt64 (o : M3Compilation) (i : Nat) : BitVec 64 := o.constants (i + 1) ++ o.constants i

/-- The search of `PushConst` for a slot that holds the constant already.  A 32-bit constant is
compared as a `u64`, so a negative one is not found. -/
def findConstant (o : M3Compilation) (i_word : BitVec 64) (i_type : M3ValueType) : Option Nat :=
  let numUsedConstSlots := o.slotMaxConstIndex - o.slotFirstConstIndex
  if getTypeNumSlots i_type = 2 then
    let firstConstSlot := alignSlotToType o.slotFirstConstIndex .i64
    ((List.range numUsedConstSlots).map fun k => firstConstSlot + 2 * k).find? fun slot =>
      slot + 1 < o.slotMaxConstIndex && o.m3Slots slot ≠ 0 && o.m3Slots (slot + 1) ≠ 0 &&
        o.constantAt64 (slot - o.slotFirstConstIndex) == i_word
  else
    ((List.range numUsedConstSlots).map fun i => o.slotFirstConstIndex + i).find? fun slot =>
      o.m3Slots slot ≠ 0 && (o.constants (slot - o.slotFirstConstIndex)).setWidth 64 == i_word

/-- `PushConst`: the constant goes to the constant table, or inline when that is full. -/
def pushConst (o : M3Compilation) (i_word : BitVec 64) (i_type : M3ValueType) :
    Except CompileErr M3Compilation :=
  match o.findConstant i_word i_type with
  | some slot => o.push i_type slot
  | none =>
    match o.allocateConstantSlots i_type with
    | .error _ => do
        if is64BitType i_type then do
          let o ← o.emitOp .const64
          (o.emit (.word64 i_word)).pushAllocatedSlotAndEmit i_type
        else do
          let o ← o.emitOp .const32
          (o.emit (.word32 (i_word.setWidth 32))).pushAllocatedSlotAndEmit i_type
    | .ok (slot, o) => do
        let constTableIndex := slot - o.slotFirstConstIndex
        let o :=
          if is64BitType i_type then
            { o with constants := Function.update (Function.update o.constants constTableIndex
                (i_word.setWidth 32)) (constTableIndex + 1) (i_word.extractLsb' 32 32) }
          else
            { o with constants := Function.update o.constants constTableIndex (i_word.setWidth 32) }
        let o ← o.push i_type slot
        .ok { o with slotMaxConstIndex := max (slot + getTypeNumSlots i_type) o.slotMaxConstIndex }

/-- `EmitSlotNumOfStackTopAndPop`. -/
def emitSlotNumOfStackTopAndPop (o : M3Compilation) : Except CompileErr M3Compilation :=
  (if o.isStackTopInRegister then o else o.emit (.slot o.getStackTopSlotNumber)).pop

/-- `n` times `Pop`. -/
def popTimes : Nat → M3Compilation → Except CompileErr M3Compilation
  | 0, o => .ok o
  | n + 1, o => do popTimes n (← o.pop)

/-- `UnwindBlockStack`. -/
def unwindBlockStack (o : M3Compilation) : Except CompileErr M3Compilation :=
  popTimes (o.stackIndex - o.block.blockStackIndex) o

/-- `SetStackPolymorphic`. -/
def setStackPolymorphic (o : M3Compilation) : Except CompileErr M3Compilation :=
  { o with block := { o.block with isPolymorphic := true } }.unwindBlockStack

/-- `PatchBranches`. -/
def patchBranches (o : M3Compilation) : M3Compilation :=
  let pc := o.getPC
  { o.block.patches.foldl (fun o patches => o.patch patches pc) o with
    block := { o.block with patches := [] } }

end M3Compilation

end WebAssemblyRuntime.Wasm3
