import WebAssemblyRuntime.Wasm3.Compilation
import WebAssemblyRuntime.Wasm3.Execution
import WebAssemblyRuntime.Wasm3.Instructions

/-!
# Compile — instructions to operations

The functions of `m3_compile.c` that compile one instruction each, a block, and a function.  They
work on instructions already decoded and nested, where the C code reads opcodes up to the `end` or
`else` of a block.
-/

namespace WebAssemblyRuntime.Wasm3

namespace M3Compilation

/-! ## Copies -/

/-- `CopyStackIndexToSlot`. -/
def copyStackIndexToSlot (o : M3Compilation) (i_destSlot i_stackIndex : Nat) :
    Except CompileErr M3Compilation := do
  let type := o.getStackTypeFromBottom i_stackIndex
  let inRegister := o.isStackIndexInRegister i_stackIndex
  let o ← o.emitOp (if inRegister then setSetOps type else .copySlot (widthOf type))
  let o := o.emit (.slot i_destSlot)
  .ok (if inRegister then o else o.emit (.slot (o.getSlotForStackIndex i_stackIndex)))

/-- `CopyStackTopToSlot`. -/
def copyStackTopToSlot (o : M3Compilation) (i_destSlot : Nat) : Except CompileErr M3Compilation :=
  o.copyStackIndexToSlot i_destSlot (toU16 o.getStackTopIndex)

/-- `PreservedCopyTopSlot`. -/
def preservedCopyTopSlot (o : M3Compilation) (i_destSlot i_preserveSlot : Nat) :
    Except CompileErr M3Compilation := do
  let type := o.getStackTopType
  let inRegister := o.isStackTopInRegister
  let o ← o.emitOp (if inRegister then preserveSetSlotOps type
    else .preserveCopySlot (widthOf type))
  let o := o.emit (.slot i_destSlot)
  let o := if inRegister then o else o.emit (.slot o.getStackTopSlotNumber)
  .ok (o.emit (.slot i_preserveSlot))

/-- `CopyStackTopToRegister`; no caller has the stack updated. -/
def copyStackTopToRegister (o : M3Compilation) : Except CompileErr M3Compilation :=
  if o.isStackTopInRegister then .ok o
  else do
    let type := o.getStackTopType
    let o ← o.preserveRegisterIfOccupied
    let o ← o.emitOp (setRegisterOps type)
    .ok (o.emit (.slot o.getStackTopSlotNumber))

/-- Where `FindReferencedLocalWithinCurrentBlock` starts: the base of the nearest scope around that
is not a plain block. -/
def referenceStart (scope : M3CompilationScope) : List M3CompilationScope → Nat
  | [] => scope.blockStackIndex
  | next :: rest =>
      if scope.opcode = .block then referenceStart next rest else scope.blockStackIndex

/-- One entry in the loop of `FindReferencedLocalWithinCurrentBlock`.  The count of a value of two
slots is kept in the first of them only. -/
def preserveReference (i_localSlot : Nat) (found : Nat × M3Compilation) (i : Nat) :
    Except CompileErr (Nat × M3Compilation) := do
  let (preservedSlotNumber, o) := found
  if o.wasmStack i = i_localSlot then do
    let (preservedSlotNumber, o) ←
      if preservedSlotNumber = i_localSlot then o.allocateSlots (o.getStackTypeFromBottom i)
      else do
        let o ← o.incrementSlotUsageCount preservedSlotNumber
        .ok (preservedSlotNumber, o)
    .ok (preservedSlotNumber, o.setStackSlot i preservedSlotNumber)
  else .ok (preservedSlotNumber, o)

/-- `FindReferencedLocalWithinCurrentBlock`: the slot that keeps the local for the entries that
refer to it, or the local's own slot if none does. -/
def findReferencedLocal (o : M3Compilation) (i_localSlot : Nat) :
    Except CompileErr (Nat × M3Compilation) :=
  let startIndex := referenceStart o.block o.outer
  (List.range' startIndex (o.stackIndex - startIndex)).foldlM
    (preserveReference i_localSlot) (i_localSlot, o)

/-- One local in `PreserveArgsAndLocals`. -/
def preserveLocal (o : M3Compilation) (i : Nat) :
    Except CompileErr M3Compilation := do
  let slot := o.getSlotForStackIndex i
  let (preservedSlotNumber, o) ← o.findReferencedLocal slot
  if preservedSlotNumber ≠ slot then do
    let o ← o.emitOp (.copySlot (widthOf (o.getStackTypeFromBottom i)))
    .ok ((o.emit (.slot preservedSlotNumber)).emit (.slot slot))
  else .ok o

/-- `PreserveArgsAndLocals`. -/
def preserveArgsAndLocals (o : M3Compilation) : Except CompileErr M3Compilation :=
  if o.stackFirstDynamicIndex < o.stackIndex then
    (List.range o.numArgsAndLocals).foldlM preserveLocal o
  else .ok o

/-- `GetBlockScope`. -/
def getBlockScope (o : M3Compilation) (i_depth : Nat) : Except CompileErr M3CompilationScope :=
  match o.scopes[i_depth]? with
  | some scope => .ok scope
  | none => .error .invalidBlockDepth

/-- The first entry from `checkIndex` on, if any, whose slots a copy to `targetSlot` would
overwrite. -/
def findCollision (o : M3Compilation) (targetSlot extraSlot checkIndex i_endStackIndex : Nat) :
    Option Nat :=
  (List.range' checkIndex (i_endStackIndex - checkIndex)).find? fun checkIndex =>
    let otherSlot1 := o.getSlotForStackIndex checkIndex
    let otherSlot2 := o.getExtraSlotForStackIndex checkIndex
    targetSlot == otherSlot1 || targetSlot == otherSlot2 || targetSlot + extraSlot == otherSlot1

/-- `CopyStackSlotsR`, for `n` entries from `i_stackIndex` on. -/
def copyStackSlotsR : Nat → M3Compilation → Nat → Nat → Nat → Except CompileErr M3Compilation
  | 0, o, _, _, _ => .ok o
  | n + 1, o, i_targetSlotStackIndex, i_stackIndex, i_tempSlot => do
      let srcSlot := o.getSlotForStackIndex i_stackIndex
      let extraSlot := getTypeNumSlots (o.getStackTypeFromBottom i_stackIndex) - 1
      let targetSlot := o.getSlotForStackIndex i_targetSlotStackIndex
      if targetSlot ≠ srcSlot then
        match o.findCollision targetSlot extraSlot (i_stackIndex + 1) (i_stackIndex + 1 + n) with
        | some checkIndex =>
            if d_m3MaxFunctionSlots ≤ i_tempSlot then .error (.err .functionStackOverflow)
            else do
              let collisionSlot := o.getSlotForStackIndex checkIndex
              let o ← o.copyStackIndexToSlot i_tempSlot checkIndex
              let o := o.setStackSlot checkIndex i_tempSlot
              let i_tempSlot := i_tempSlot + getTypeNumSlots .i64
              let o := { o with maxStackSlots := max o.maxStackSlots i_tempSlot }
              let o ← o.copyStackIndexToSlot targetSlot i_stackIndex
              let o := o.setStackSlot i_stackIndex targetSlot
              let o ← copyStackSlotsR n o (i_targetSlotStackIndex + 1) (i_stackIndex + 1) i_tempSlot
              .ok ((o.setStackSlot i_stackIndex srcSlot).setStackSlot checkIndex collisionSlot)
        | none => do
            let o ← o.copyStackIndexToSlot targetSlot i_stackIndex
            let o := o.setStackSlot i_stackIndex targetSlot
            let o ← copyStackSlotsR n o (i_targetSlotStackIndex + 1) (i_stackIndex + 1) i_tempSlot
            .ok (o.setStackSlot i_stackIndex srcSlot)
      else do
        let o ← copyStackSlotsR n o (i_targetSlotStackIndex + 1) (i_stackIndex + 1) i_tempSlot
        .ok (o.setStackSlot i_stackIndex srcSlot)

/-- `ResolveBlockResults`. -/
def resolveBlockResults (o : M3Compilation) (i_targetBlock : M3CompilationScope)
    (i_isBranch : Bool) : Except CompileErr M3Compilation :=
  let isLoop := i_targetBlock.opcode = .loop ∧ i_isBranch
  let numParams := i_targetBlock.type.args.length
  let numResults := i_targetBlock.type.rets.length
  let slotRecords := i_targetBlock.exitStackIndex + if isLoop then 0 else numParams
  let numValues := if isLoop then numParams else numResults
  let blockHeight := o.getNumBlockValuesOnStack
  if (if i_isBranch then blockHeight < numValues else blockHeight ≠ numValues) then
    .error (.err .typeCountMismatch)
  else if numValues = 0 then .ok o
  else
    let endIndex := toU16 (o.getStackTopIndex + 1)
    let tempSlot := alignSlotToType o.maxStackSlots .i64
    copyStackSlotsR numValues o slotRecords (endIndex - numValues) tempSlot

/-- One result in the loop of `ReturnValues`: its type, and where it is counted from the top. -/
def returnValue (numReturns : Nat) (types : List M3ValueType) (o : M3Compilation) (i : Nat) :
    Except CompileErr M3Compilation :=
  let returnType := types.getD (numReturns - 1 - i) .unknown
  let stackType := o.getStackTypeFromTop i
  let stackType := if o.block.isPolymorphic ∧ stackType = .none then returnType else stackType
  if returnType ≠ stackType then .error (.err .typeMismatch)
  else if o.block.isPolymorphic then .ok o
  else o.copyStackIndexToSlot ((numReturns - 1 - i) * c_ioSlotCount)
    (toU16 (o.getStackTopIndex - i))

/-- `ReturnValues`. -/
def returnValues (o : M3Compilation) (i_functionBlock : M3CompilationScope) (i_isBranch : Bool) :
    Except CompileErr M3Compilation := do
  let numReturns := i_functionBlock.type.rets.length
  let blockHeight := o.getNumBlockValuesOnStack
  if ¬ o.block.isPolymorphic ∧
      (if i_isBranch then blockHeight < numReturns else blockHeight ≠ numReturns) then
    .error (.err .typeCountMismatch)
  else do
    let o ← (List.range numReturns).foldlM (returnValue numReturns i_functionBlock.type.rets) o
    if i_isBranch then .ok o else popTimes numReturns o

/-! ## One instruction each -/

/-- `Compile_Return`. -/
def compileReturn (o : M3Compilation) : Except CompileErr M3Compilation :=
  if o.block.isPolymorphic then .ok o
  else do
    let functionScope ← o.getBlockScope o.block.depth
    let o ← o.returnValues functionScope true
    let o ← o.emitOp .ret
    o.setStackPolymorphic

/-- `Compile_SetLocal`, and for `local.tee` without the last step. -/
def compileSetLocal (o : M3Compilation) (localIndex : Nat) (isTee : Bool) :
    Except CompileErr M3Compilation :=
  if localIndex < o.numArgsAndLocals then do
    let localSlot := o.getSlotForStackIndex localIndex
    let (preserveSlot, o) ← o.findReferencedLocal localSlot
    let o ← if preserveSlot = localSlot then o.copyStackTopToSlot localSlot
      else o.preservedCopyTopSlot localSlot preserveSlot
    if isTee then .ok o else o.pop
  else .error .localIndexOutOfBounds

/-- `Compile_GetLocal`. -/
def compileGetLocal (o : M3Compilation) (localIndex : Nat) : Except CompileErr M3Compilation :=
  if o.numArgsAndLocals ≤ localIndex then .error .localIndexOutOfBounds
  else o.push (o.getStackTypeFromBottom localIndex) (o.getSlotForStackIndex localIndex)

/-- `Compile_GetGlobal`. -/
def compileGetGlobal (o : M3Compilation) (globalIndex : Nat) (i_global : WasmGlobal) :
    Except CompileErr M3Compilation := do
  let o ← o.emitOp (.getGlobal i_global.type)
  (o.emit (.global globalIndex)).pushAllocatedSlotAndEmit i_global.type.valueType

/-- `Compile_SetGlobal`. -/
def compileSetGlobal (o : M3Compilation) (globalIndex : Nat) (i_global : WasmGlobal) :
    Except CompileErr M3Compilation :=
  if i_global.isMutable then do
    let type := o.getStackTopType
    let inRegister := o.isStackTopInRegister
    let o ← o.emitOp (if inRegister then setGlobalOps type else .setGlobalSlot (widthOf type))
    let o := o.emit (.global globalIndex)
    (if inRegister then o else o.emit (.slot o.getStackTopSlotNumber)).pop
  else .error (.err .settingImmutableGlobal)

/-- The scope at a depth, changed. -/
def modifyScope (o : M3Compilation) (depth : Nat)
    (f : M3CompilationScope → M3CompilationScope) : M3Compilation :=
  match depth with
  | 0 => { o with block := f o.block }
  | depth + 1 => { o with outer := o.outer.modify depth f }

/-- `EmitPatchingBranchPointer`, for the scope at a depth. -/
def emitPatchingBranchPointer (o : M3Compilation) (depth : Nat) : M3Compilation :=
  (o.modifyScope depth fun scope => { scope with patches := o.getPC :: scope.patches }).emit .patch

/-- `EmitPatchingBranch`. -/
def emitPatchingBranch (o : M3Compilation) (depth : Nat) : Except CompileErr M3Compilation := do
  let o ← o.emitOp .branch
  .ok (o.emitPatchingBranchPointer depth)

/-- The way to a scope that is not a loop: the values to where it expects them, then the jump. -/
def compileForwardBranch (o : M3Compilation) (depth : Nat) (scope : M3CompilationScope) :
    Except CompileErr M3Compilation := do
  if o.block.isPolymorphic then .ok o
  else if scope.depth = 0 then do
    let o ← o.returnValues scope true
    o.emitOp .ret
  else do
    let o ← o.resolveBlockResults scope true
    o.emitPatchingBranch depth

/-- The form of an operation on the top of the stack. -/
def topForm (o : M3Compilation) : Form := if o.isStackTopInRegister then .r else .s

/-- `Compile_Branch` for `br`. -/
def compileBr (o : M3Compilation) (depth : Nat) : Except CompileErr M3Compilation := do
  let scope ← o.getBlockScope depth
  if scope.opcode = .loop then do
    let o ← o.emitOp .continueLoop
    let o := o.emit (.pc scope.pc)
    .ok { o with block := { o.block with isPolymorphic := true } }
  else do
    let o ← o.compileForwardBranch depth scope
    o.setStackPolymorphic

/-- `Compile_Branch` for `br_if`.  The code after a prologue starts where the reserved word says. -/
def compileBrIf (o : M3Compilation) (depth : Nat) : Except CompileErr M3Compilation := do
  let scope ← o.getBlockScope depth
  if scope.opcode = .loop then
    if scope.type.args.length ≠ 0 then do
      let o ← o.emitOp (.branchIfPrologue o.topForm)
      let o ← o.emitSlotNumOfStackTopAndPop
      let jumpTo := o.getPC
      let o ← (o.emit .patch).resolveBlockResults scope true
      let o ← o.emitOp .continueLoop
      let o := o.emit (.pc scope.pc)
      .ok (o.patch jumpTo o.getPC)
    else do
      let o ← o.copyStackTopToRegister
      let o ← o.popType .i32
      let o ← o.emitOp .continueLoopIf
      .ok (o.emit (.pc scope.pc))
  else if scope.type.rets.length ≠ 0 ∨ scope.depth = 0 then do
    let o ← o.emitOp (.branchIfPrologue o.topForm)
    let o ← o.emitSlotNumOfStackTopAndPop
    let jumpTo := o.getPC
    let o ← (o.emit .patch).compileForwardBranch depth scope
    .ok (o.patch jumpTo o.getPC)
  else do
    let o ← o.emitOp (.branchIf o.topForm)
    let o ← o.emitSlotNumOfStackTopAndPop
    .ok (o.emitPatchingBranchPointer depth)

/-- One target of `Compile_BranchTable`: its code is on a page of its own. -/
def compileBranchTarget (o : M3Compilation) (target : Nat) : Except CompileErr M3Compilation := do
  let scope ← o.getBlockScope target
  let savedPage := o.page
  let o ← o.acquireCompilationCodePage
  let startPC := o.getPC
  let o ← if scope.opcode = .loop then do
      let o ← o.resolveBlockResults scope true
      let o ← o.emitOp .continueLoop
      .ok (o.emit (.pc scope.pc))
    else o.compileForwardBranch target scope
  .ok ((o.releaseCompilationCodePage savedPage).emit (.pc startPC))

/-- `Compile_BranchTable`. -/
def compileBrTable (o : M3Compilation) (targets : List Nat) (default : Nat) :
    Except CompileErr M3Compilation := do
  let o ← o.preserveRegisterIfOccupied
  let slot := o.getStackTopSlotNumber
  let o ← o.pop
  let o ← o.ensureCodePageNumLines (targets.length + 4)
  let o ← o.emitOp .branchTable
  let o := (o.emit (.slot slot)).emit (.word32 (BitVec.ofNat 32 targets.length))
  let o ← (targets ++ [default]).foldlM compileBranchTarget o
  o.setStackPolymorphic

/-- One argument in `CompileCallArgsAndReturn`: the top of the stack, to the slot at `argTop`. -/
def copyArgs : Nat → M3Compilation → Nat → Except CompileErr M3Compilation
  | 0, o, _ => .ok o
  | numArgs + 1, o, argTop => do
      let o ← o.copyStackTopToSlot (argTop - c_ioSlotCount)
      copyArgs numArgs (← o.pop) (argTop - c_ioSlotCount)

/-- The results in `CompileCallArgsAndReturn`. -/
def pushResults : List M3ValueType → M3Compilation → Nat → Except CompileErr M3Compilation
  | [], o, _ => .ok o
  | type :: types, o, topSlot => do
      let o ← o.push type topSlot
      let o ← o.markSlotsAllocatedByType topSlot type
      pushResults types o (topSlot + c_ioSlotCount)

/-- `CompileCallArgsAndReturn` for a direct call: the frame of the callee begins above the slots in
use, with the results first and the arguments after them. -/
def compileCallArgsAndReturn (o : M3Compilation) (i_type : M3FuncType) :
    Except CompileErr (Nat × M3Compilation) := do
  let o := o.getMaxUsedSlotPlusOne
  let topSlot := alignSlotToType (max 1 o.slotMaxAllocatedIndexPlusOne) .i64
  let argTop := topSlot + (i_type.args.length + i_type.rets.length) * c_ioSlotCount
  let o ← copyArgs i_type.args.length o argTop
  let o ← pushResults i_type.rets o topSlot
  .ok (topSlot, o)

/-- `Compile_Call`, with what is known of the callee: its type, and its code if it is compiled. -/
def compileCall (o : M3Compilation) (functionIndex : Nat) (funcType : M3FuncType)
    (compiled : Option PC) : Except CompileErr M3Compilation := do
  let (slotTop, o) ← o.compileCallArgsAndReturn funcType
  let o ← o.emitOp (if compiled.isSome then .call else .compile)
  let o := o.emit (match compiled with | some pc => .pc pc | none => .function functionIndex)
  .ok (o.emit (.slot slotTop))

/-- `Compile_Memory_Size`. -/
def compileMemorySize (o : M3Compilation) : Except CompileErr M3Compilation := do
  let o ← o.preserveRegisterIfOccupied
  let o ← o.emitOp .memSize
  o.pushRegister .i32

/-- `Compile_Memory_Grow`. -/
def compileMemoryGrow (o : M3Compilation) : Except CompileErr M3Compilation := do
  let o ← o.copyStackTopToRegister
  let o ← o.popType .i32
  let o ← o.emitOp .memGrow
  o.pushRegister .i32

/-- `Compile_Memory_CopyFill`. -/
def compileMemoryCopyFill (o : M3Compilation) (op : M3Op) : Except CompileErr M3Compilation := do
  let o ← o.copyStackTopToRegister
  let o ← o.emitOp op
  let o ← o.popType .i32
  let o ← o.emitSlotNumOfStackTopAndPop
  o.emitSlotNumOfStackTopAndPop

/-- One operand in `Compile_Select`, the top of the stack: its slot, if it is in one. -/
def popSelectOperand (o : M3Compilation) : Except CompileErr (Option Nat × M3Compilation) := do
  let slot := if o.isStackTopInRegister then none else some o.getStackTopSlotNumber
  .ok (slot, ← o.pop)

/-- `c_intSelectOps [type]`, by the last operand found in the register. -/
def selectOp (t : IntType) (slots : List (Option Nat)) : M3Op :=
  .operator (.select t)
    (match slots with
    | [_, _, none] => .ssr
    | [_, none, _] => .srs
    | [none, _, _] => .rss
    | _ => .sss)

/-- `Compile_Select` for integer types. -/
def compileSelect (o : M3Compilation) : Except CompileErr M3Compilation := do
  let type := o.getStackTypeFromTop 1
  let (op, slots, o) ←
    if type = .i32 ∨ type = .i64 then do
      let o ← if ¬ o.isStackTopInRegister ∧ ¬ o.isStackTopMinusInRegister 1 ∧
          ¬ o.isStackTopMinusInRegister 2 then o.preserveRegisterIfOccupied else .ok o
      let (slot0, o) ← o.popSelectOperand
      let (slot1, o) ← o.popSelectOperand
      let (slot2, o) ← o.popSelectOperand
      .ok (selectOp (widthOf type) [slot0, slot1, slot2], [slot0, slot1, slot2], o)
    else if o.block.isPolymorphic then .ok (.null, [], o)
    else .error (.err .functionStackUnderrun)
  let o ← o.emitOp op
  let o := (slots.filterMap id).foldl
    (fun o slot => if slot < d_m3MaxFunctionSlots then o.emit (.slot slot) else o) o
  o.pushRegister type

/-- `Compile_Unreachable`. -/
def compileUnreachable (o : M3Compilation) : Except CompileErr M3Compilation := do
  let o ← o.emitOp .unreachable
  o.setStackPolymorphic

/-- An `M3OpInfo` of an operator: `operations` by the forms that there are. -/
structure M3OpInfo where
  stackOffset : Int
  type : M3ValueType
  operation : M3Operator
  forms : List (Option Form)

/-- `d_unaryOpList`. -/
def unaryForms : List (Option Form) := [some .r, some .s]

/-- `d_binOpList`. -/
def binForms : List (Option Form) := [some .rs, some .sr, some .ss]

/-- `d_commutativeBinOpList`. -/
def commutativeForms : List (Option Form) := [some .rs, none, some .ss]

/-- `c_operations`, for the instructions that `Compile_Operator` compiles. -/
def opInfo : Operator → M3OpInfo
  | .unop t op => ⟨0, t.valueType, .unary t op.operation.1 op.operation.2, unaryForms⟩
  | .eqz t => ⟨0, .i32, .unary t true .equalToZero, unaryForms⟩
  | .binop t op => ⟨-1, t.valueType, .binary t op.operation.1 op.operation.2,
      match op with
      | .add | .mul | .and | .or | .xor => commutativeForms
      | _ => binForms⟩
  | .relop t op => ⟨-1, .i32, .binary t op.operation.1 op.operation.2,
      match op with
      | .eq | .ne => commutativeForms
      | _ => binForms⟩
  | .extend32S => ⟨0, .i64, .unary .i64 true .extend32S, unaryForms⟩
  | .wrap => ⟨0, .i32, .wrapI64, unaryForms⟩
  | .extend signed => ⟨0, .i64, .extend signed, unaryForms⟩
  | .load t SRC _ => ⟨0, t.valueType, .load t SRC, unaryForms⟩
  | .store t DEST _ => ⟨-2, .none, .store t DEST, binForms⟩

/-- The choice of the operation in `Compile_Operator`, with the registers put out of its way. -/
def chooseForm (o : M3Compilation) (info : M3OpInfo) :
    Except CompileErr (Option Form × M3Compilation) := do
  if info.stackOffset = 0 then
    if o.isStackTopInRegister then .ok (info.forms.getD 0 none, o)
    else do .ok (info.forms.getD 1 none, ← o.preserveRegisterIfOccupied)
  else if o.isStackTopInRegister then
    if o.isStackTopMinusInRegister 1 then .ok (info.forms.getD 3 none, o)
    else .ok (info.forms.getD 0 none, o)
  else if o.isStackTopMinusInRegister 1 then
    match info.forms.getD 1 none with
    | some form => .ok (some form, o)
    -- must be commutative, then
    | none => .ok (info.forms.getD 0 none, o)
  else do .ok (info.forms.getD 2 none, ← o.preserveRegisterIfOccupied)

/-- `Compile_Operator`. -/
def compileOperator (o : M3Compilation) (info : M3OpInfo) : Except CompileErr M3Compilation := do
  let (form, o) ← o.chooseForm info
  match form with
  | some form => do
      let o ← o.emitOp (.operator info.operation form)
      let o ← o.emitSlotNumOfStackTopAndPop
      let o ← if info.stackOffset < 0 then o.emitSlotNumOfStackTopAndPop else .ok o
      if info.type ≠ .none then o.pushRegister info.type else .ok o
  | none => .error .noOperationFound

/-- `Compile_Load_Store` with its offset, and `Compile_Operator` for the others. -/
def compileOperatorOrMemory (o : M3Compilation) : Operator → Except CompileErr M3Compilation
  | .load t SRC offset => do .ok ((← o.compileOperator (opInfo (.load t SRC offset))).emit
      (.word32 offset))
  | .store t DEST offset => do .ok ((← o.compileOperator (opInfo (.store t DEST offset))).emit
      (.word32 offset))
  | op => o.compileOperator (opInfo op)

/-! ## Blocks -/

/-- `PushBlockResults`, with the state it leaves also where it fails. -/
def pushBlockResultsAnyway : List M3ValueType → M3Compilation → Option CompileErr × M3Compilation
  | [], o => (none, o)
  | type :: types, o =>
    match o.allocateSlots type with
    | .error e => (some e, o)
    | .ok (slot, o) =>
      match o.pushAnyway type slot with
      | (none, o) => pushBlockResultsAnyway types o
      | (some e, o) => (some e, o)

/-- `PushBlockResults`. -/
def pushBlockResults (o : M3Compilation) : Except CompileErr M3Compilation :=
  match pushBlockResultsAnyway o.block.type.rets o with
  | (none, o) => .ok o
  | (some e, _) => .error e

/-- `n` times `Pop`, with the failures ignored. -/
def popTimesAnyway : Nat → M3Compilation → M3Compilation
  | 0, o => o
  | n + 1, o => popTimesAnyway n o.popAnyway.2

/-- The parameters, popped from the last one on. -/
def popParams : List M3ValueType → M3Compilation → Except CompileErr M3Compilation
  | [], o => .ok o
  | type :: types, o => do popParams types (← o.popType type)

/-- The parameters, pushed back from their records at `paramIndex`. -/
def pushParams : List M3ValueType → M3Compilation → Nat → Except CompileErr M3Compilation
  | [], o, _ => .ok o
  | type :: types, o, paramIndex => do
      let slot := o.getSlotForStackIndex paramIndex
      let o := (o.pushAnyway type slot).2
      let o ← if o.slotFirstDynamicIndex ≤ slot ∧ slot ≠ c_slotUnused then
          o.markSlotsAllocatedByType slot type
        else .ok o
      pushParams types o (paramIndex + 1)

/-- `CompileBlock` up to its statements. -/
def enterBlock (o : M3Compilation) (i_blockType : M3FuncType)
    (i_blockOpcode : BlockOpcode) : Except CompileErr M3Compilation := do
  let stackIndex := o.stackIndex
  let o := { o with
    outer := o.block :: o.outer
    block := { o.block with
      pc := o.getPC
      patches := []
      type := i_blockType
      depth := o.block.depth + 1
      opcode := i_blockOpcode } }
  let numParams := i_blockType.args.length
  let o ←
    if i_blockOpcode ≠ .elseOp then popParams i_blockType.args.reverse o
    else if o.block.isPolymorphic ∧ o.stackIndex < o.block.blockStackIndex + numParams then
      .ok { o with stackIndex := o.block.blockStackIndex }
    else .ok { o with stackIndex := o.stackIndex - numParams }
  let paramIndex := o.stackIndex
  let o := { o with
    block := { o.block with exitStackIndex := paramIndex }
    stackIndex := stackIndex }
  -- whether it fails is not looked at
  let o := (pushBlockResultsAnyway o.block.type.rets o).2
  let stackIndex := o.stackIndex
  let o := popTimesAnyway i_blockType.rets.length o
  let o := { o with
    block := { o.block with blockStackIndex := stackIndex }
    stackIndex := stackIndex }
  pushParams i_blockType.args o paramIndex

/-- The scope around the innermost one, as the innermost one again. -/
def leaveScope (o : M3Compilation) : M3Compilation :=
  match o.outer with
  | [] => o
  | scope :: outer => { o with block := scope, outer := outer }

/-- `CompileBlock` after its statements.  The condition of the C code on `if` and `numResults` is
true of every `if`: the count has run below zero by then. -/
def exitBlock (o : M3Compilation) (i_blockOpcode : BlockOpcode) :
    Except CompileErr M3Compilation := do
  let o ← if o.block.isPolymorphic then .ok o else o.resolveBlockResults o.block false
  let o ← o.unwindBlockStack
  let o ← if i_blockOpcode = .ifOp then .ok o
    else ({ o with stackIndex := o.block.exitStackIndex } : M3Compilation).pushBlockResults
  .ok o.patchBranches.leaveScope

/-- `CompileBlock`. -/
def compileBlock (o : M3Compilation) (i_blockType : M3FuncType)
    (i_blockOpcode : BlockOpcode) (statements : M3Compilation → Except CompileErr M3Compilation) :
    Except CompileErr M3Compilation := do
  let o ← o.enterBlock i_blockType i_blockOpcode
  let o ← statements o
  o.exitBlock i_blockOpcode

/-- One parameter of a loop in `Compile_LoopOrBlock`: a constant is copied to a slot that the loop
can write to. -/
def instantiateConstant (o : M3Compilation) (i : Nat) : Except CompileErr M3Compilation :=
  if o.isConstantSlot (o.getSlotForStackIndex i) then do
    let (newSlot, o) ← o.allocateSlots (o.getStackTypeFromBottom i)
    let o ← o.copyStackIndexToSlot newSlot i
    .ok (o.setStackSlot i newSlot)
  else .ok o

/-- `Compile_LoopOrBlock`. -/
def compileLoopOrBlock (o : M3Compilation) (blockType : M3FuncType)
    (i_opcode : BlockOpcode) (statements : M3Compilation → Except CompileErr M3Compilation) :
    Except CompileErr M3Compilation := do
  let o ← o.preserveRegisterIfOccupied
  let o ← o.preserveArgsAndLocals
  let o ←
    if i_opcode = .loop then do
      let numParams := blockType.args.length
      let o ← if numParams ≤ o.getNumBlockValuesOnStack then
          (List.range' (o.stackIndex - numParams) numParams).foldlM instantiateConstant o
        else .ok o
      o.emitOp .loop
    else .ok o
  o.compileBlock blockType i_opcode statements

/-- `CompileElseBlock`: on a page of its own, with a jump back at the end. -/
def compileElseBlock (o : M3Compilation) (o_startPC : PC) (i_blockType : M3FuncType)
    (statements : M3Compilation → Except CompileErr M3Compilation) :
    Except CompileErr M3Compilation := do
  let savedPage := o.page
  let o ← o.acquireCompilationCodePage
  let o := o.patch o_startPC o.getPC
  let o ← o.compileBlock i_blockType .elseOp statements
  let o ← o.emitOp .branch
  let o := o.emit (.pc (o.rt.getPagePC savedPage))
  .ok (o.releaseCompilationCodePage savedPage)

/-- `Compile_If`, with the statements of the `else` if there is one. -/
def compileIf (o : M3Compilation) (blockType : M3FuncType)
    (statements : M3Compilation → Except CompileErr M3Compilation)
    (elseStatements : Option (M3Compilation → Except CompileErr M3Compilation)) :
    Except CompileErr M3Compilation := do
  let o ← o.preserveNonTopRegisters
  let o ← o.preserveArgsAndLocals
  let o ← o.emitOp (.ifOp o.topForm)
  let o ← o.emitSlotNumOfStackTopAndPop
  let pc := o.getPC
  let o := o.emit .patch
  let stackIndex := o.stackIndex
  let o ← o.compileBlock blockType .ifOp statements
  let again : M3Compilation := { o with stackIndex := stackIndex }
  match elseStatements with
  | some elseStatements => again.compileElseBlock pc blockType elseStatements
  | none =>
      -- with results, an `else` without statements passes the parameters through
      if blockType.rets.length ≠ 0 then again.compileElseBlock pc blockType .ok
      else .ok (o.patch pc o.getPC)

end M3Compilation

/-- What the compiler knows of a module. -/
structure CompileContext where
  module : WasmModule
  /-- `function->compiled`. -/
  compiled : Nat → Option PC

open M3Compilation

mutual

/-- One instruction, through the compiler that `c_operations` has for it. -/
def compileInstr (ctx : CompileContext) :
    Instr → M3Compilation → Except CompileErr M3Compilation
  | .unreachable, o => o.compileUnreachable
  | .nop, o => .ok o
  | .drop, o => o.pop
  | .select, o => o.compileSelect
  | .ret, o => o.compileReturn
  | .const ⟨.i32, v⟩, o => o.pushConst (v.signExtend 64) .i32
  | .const ⟨.i64, v⟩, o => o.pushConst v .i64
  | .localGet i, o => o.compileGetLocal i
  | .localSet i, o => o.compileSetLocal i false
  | .localTee i, o => o.compileSetLocal i true
  | .globalGet i, o =>
      match ctx.module.globals[i]? with
      | some g => o.compileGetGlobal i g
      | none => .error (.err .globaIndexOutOfBounds)
  | .globalSet i, o =>
      match ctx.module.globals[i]? with
      | some g => o.compileSetGlobal i g
      | none => .error (.err .globaIndexOutOfBounds)
  | .operator op, o => o.compileOperatorOrMemory op
  | .memorySize, o => o.compileMemorySize
  | .memoryGrow, o => o.compileMemoryGrow
  | .memoryCopy, o => o.compileMemoryCopyFill .memCopy
  | .memoryFill, o => o.compileMemoryCopyFill .memFill
  | .block type body, o =>
      o.compileLoopOrBlock type .block fun o => compileInstrs ctx body o
  | .loop type body, o =>
      o.compileLoopOrBlock type .loop fun o => compileInstrs ctx body o
  | .ifThen type body, o =>
      o.compileIf type (fun o => compileInstrs ctx body o) none
  | .ifElse type body other, o =>
      o.compileIf type (fun o => compileInstrs ctx body o)
        (some fun o => compileInstrs ctx other o)
  | .br depth, o => o.compileBr depth
  | .brIf depth, o => o.compileBrIf depth
  | .brTable depths default, o => o.compileBrTable depths default
  | .call functionIndex, o =>
      match ctx.module.functions[functionIndex]? with
      | some function => o.compileCall functionIndex function.type (ctx.compiled functionIndex)
      | none => .error (.err .functionLookupFailed)

/-- `CompileBlockStatements`. -/
def compileInstrs (ctx : CompileContext) :
    List Instr → M3Compilation → Except CompileErr M3Compilation
  | [], o => .ok o
  | i :: is, o => do compileInstrs ctx is (← compileInstr ctx i o)

end

/-! ## A function -/

/-- The scan of `ReserveConstants`: every byte that looks like the opcode of a constant. -/
def countConstantSlots (numConstantSlots : Nat) : List UInt8 → Nat
  | [] => numConstantSlots
  | code :: wa =>
      let addSlots :=
        if code = 0x41 ∨ code = 0x43 then 1
        else if code = 0x42 ∨ code = 0x44 then 2
        else 0
      if d_m3MaxConstantTableSize ≤ numConstantSlots + addSlots then numConstantSlots
      else countConstantSlots (numConstantSlots + addSlots) wa

namespace M3Compilation

/-- `ReserveConstants`, with the bytes of the function's body. -/
def reserveConstants (o : M3Compilation) (wasm : List UInt8) : Except CompileErr M3Compilation :=
  let numConstantSlots := alignSlotToType (countConstantSlots 0 wasm) .i64
  let slotFirstDynamicIndex := o.slotFirstConstIndex + numConstantSlots
  if d_m3MaxFunctionSlots ≤ slotFirstDynamicIndex then .error (.err .functionStackOverflow)
  else .ok { o with slotFirstDynamicIndex := slotFirstDynamicIndex }

/-- One argument in `CompileFunction`. -/
def pushArg (o : M3Compilation) (type : M3ValueType) : Except CompileErr M3Compilation := do
  let o ← o.pushAllocatedSlot type
  -- prevent allocator fill-in
  .ok { o with slotFirstDynamicIndex := o.slotFirstDynamicIndex + c_ioSlotCount }

/-- `CompileFunction` after `ReserveConstants`: what is on the stack now stays below the block. -/
def startBody (o : M3Compilation) : M3Compilation :=
  { o with
    maxStackSlots := o.slotFirstDynamicIndex
    slotMaxAllocatedIndexPlusOne := o.slotFirstDynamicIndex
    block := { o.block with blockStackIndex := o.stackIndex }
    stackFirstDynamicIndex := o.stackIndex }

/-- `CompileFunction` between the results and the body, with `numRetAndArgSlots` and the number of
slots for locals. -/
def layOutFrame (o : M3Compilation) (function : WasmFunction) (wasm : List UInt8) :
    Except CompileErr (Nat × Nat × M3Compilation) := do
  let o ← function.type.args.foldlM pushArg o
  let slotFirstLocalIndex := o.slotFirstDynamicIndex
  let o := { o with slotMaxAllocatedIndexPlusOne := slotFirstLocalIndex }
  let o ← (function.locals.map IntType.valueType).foldlM pushAllocatedSlot o
  let o := o.getMaxUsedSlotPlusOne
  let maxSlot := o.slotMaxAllocatedIndexPlusOne
  let o ← ({ o with slotFirstConstIndex := maxSlot, slotMaxConstIndex := maxSlot }
    : M3Compilation).reserveConstants wasm
  .ok (slotFirstLocalIndex, maxSlot - slotFirstLocalIndex, o.startBody)

/-- `Compile_End` of a function. -/
def compileEnd (o : M3Compilation) : Except CompileErr M3Compilation := do
  let o ← o.returnValues o.block false
  o.emitOp .ret

/-- The cleared `M3Compilation`, with the slots of the results taken. -/
def cleared (rt : M3CodePages) (function : WasmFunction) : M3Compilation :=
  let numRetSlots := function.type.rets.length * c_ioSlotCount
  let o : M3Compilation :=
    { rt := rt
      page := 0
      block := ⟨⟨0, 0⟩, [], 0, 0, 0, function.type, .function, false⟩
      outer := []
      numArgsAndLocals := function.type.args.length + function.locals.length
      stackFirstDynamicIndex := 0
      stackIndex := 0
      slotFirstConstIndex := 0
      slotMaxConstIndex := 0
      slotFirstDynamicIndex := numRetSlots
      maxStackSlots := 0
      constants := fun _ => 0
      wasmStack := fun _ => 0
      typeStack := fun _ => .none
      m3Slots := fun _ => 0
      slotMaxAllocatedIndexPlusOne := 0
      regStackIndexPlusOne := 0 }
  o.markSlots 0 numRetSlots

end M3Compilation

/-- `CompileFunction`, with the bytes of the body for the one scan that reads them unparsed. -/
def compileFunction (ctx : CompileContext) (rt : M3CodePages)
    (functionIndex : Nat) (function : WasmFunction) (wasm : List UInt8) :
    Except CompileErr (CompiledFunction × M3CodePages) := do
  let o ← (M3Compilation.cleared rt function).acquireCompilationCodePage
  let pc := o.getPC
  let (numRetAndArgSlots, numLocalSlots, o) ← o.layOutFrame function wasm
  let o ← o.emitOp .entry
  let o ← compileInstrs ctx function.body (o.emit (.function functionIndex))
  let o ← o.compileEnd
  let numConstantSlots := o.slotMaxConstIndex - o.slotFirstConstIndex
  .ok (⟨pc, o.maxStackSlots, numRetAndArgSlots, numLocalSlots,
    (List.range numConstantSlots).map o.constants⟩, o.rt.releaseCodePage o.page)

end WebAssemblyRuntime.Wasm3
