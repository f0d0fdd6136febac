import WebAssemblyRuntime.Wasm3.Arithmetic

/-!
# MetaCode — the words of compiled code

Compiled code is a sequence of 64-bit words: the address of an operation, then its immediates.
Only the operations that integer code needs are here; the floating-point register and its
operations are left out.
-/

namespace WebAssemblyRuntime.Wasm3

/-- A `pc_t`: a line of a code page. -/
structure PC where
  page : Nat
  line : Nat
  deriving DecidableEq, Repr

/-- `_pc + 1`. -/
def PC.next (pc : PC) : PC := { pc with line := pc.line + 1 }

/-- The suffix of an operation: where its operands are, the top of the stack first. -/
inductive Form where
  | r
  | s
  | rs
  | sr
  | ss
  | rss
  | srs
  | ssr
  | sss
  deriving DecidableEq, Repr

/-- Whether the operand is in the register, letter by letter. -/
def Form.letters : Form → List Bool
  | .r => [true]
  | .s => [false]
  | .rs => [true, false]
  | .sr => [false, true]
  | .ss => [false, false]
  | .rss => [true, false, false]
  | .srs => [false, true, false]
  | .ssr => [false, false, true]
  | .sss => [false, false, false]

/-- The SRC_TYPE of a load and the DEST_TYPE of a store. -/
inductive MemType where
  | i8
  | u8
  | i16
  | u16
  | i32
  | u32
  | i64
  deriving DecidableEq, Repr

/-- `sizeof`. -/
def MemType.size : MemType → Nat
  | .i8 | .u8 => 1
  | .i16 | .u16 => 2
  | .i32 | .u32 => 4
  | .i64 => 8

def MemType.signed : MemType → Bool
  | .i8 | .i16 | .i32 | .i64 => true
  | .u8 | .u16 | .u32 => false

/-- The operations that take operands and leave a result: `op_##TYPE##_##NAME`, with the TYPE as a
width and a signedness, up to the suffix that says where the operands are. -/
inductive M3Operator where
  | unary (t : IntType) (signed : Bool) (NAME : UnaryName)
  | binary (t : IntType) (signed : Bool) (NAME : BinaryName)
  | wrapI64
  | extend (signed : Bool)
  | select (t : IntType)
  | load (t : IntType) (SRC : MemType)
  | store (t : IntType) (DEST : MemType)
  deriving DecidableEq, Repr

/-- The types of the operands, the top of the stack first. -/
def M3Operator.operandTypes : M3Operator → List IntType
  | .unary t _ _ => [t]
  | .binary t _ _ => [t, t]
  | .wrapI64 => [.i64]
  | .extend _ => [.i32]
  | .select t => [.i32, t, t]
  | .load _ _ => [.i32]
  | .store t _ => [t, .i32]

/-- The `op_` functions.  A width stands for the suffixes `_32` and `_64`, `_s32` and `_s64`, or
`_i32` and `_i64`; `null` is the null pointer that `EmitOp` is handed in unreachable code. -/
inductive M3Op where
  | null
  | operator (op : M3Operator) (form : Form)
  | entry
  | call
  | compile
  | loop
  | branch
  | branchTable
  | continueLoop
  | continueLoopIf
  | ret
  | unreachable
  | ifOp (form : Form)
  | branchIf (form : Form)
  | branchIfPrologue (form : Form)
  | const32
  | const64
  | copySlot (t : IntType)
  | preserveCopySlot (t : IntType)
  | setSlot (t : IntType)
  | preserveSetSlot (t : IntType)
  | setRegister (t : IntType)
  | getGlobal (t : IntType)
  | setGlobal (t : IntType)
  | setGlobalSlot (t : IntType)
  | memSize
  | memGrow
  | memCopy
  | memFill
  deriving DecidableEq, Repr

/-- One word of compiled code. -/
inductive CodeWord where
  | op (o : M3Op)
  /-- `EmitSlotOffset`. -/
  | slot (n : Nat)
  | word32 (v : BitVec 32)
  | word64 (v : BitVec 64)
  | pc (target : PC)
  /-- A `pc_t` that is filled in later.  Until then the C code keeps the list of a block's open
  branches in these words; here that list is in the block. -/
  | patch
  /-- The address of a global's `i64Value`. -/
  | global (i : Nat)
  /-- An `IM3Function`. -/
  | function (i : Nat)
  deriving DecidableEq, Repr

/-- The most immediates that the compiler emits after an operation; `op_BranchTable` has as many
targets as it needs. -/
def M3Op.numImmediates : M3Op → Nat
  | .null | .loop | .ret | .unreachable | .memSize | .memGrow => 0
  | .operator (.load _ _) _ => 2
  | .operator (.store _ _) _ => 3
  | .operator op _ => op.operandTypes.length
  | .entry | .branch | .continueLoop | .continueLoopIf => 1
  | .setSlot _ | .setRegister _ | .setGlobal _ => 1
  | .call | .compile | .const32 | .const64 | .memCopy | .memFill => 2
  | .ifOp _ | .branchIf _ | .branchIfPrologue _ => 2
  | .copySlot _ | .preserveSetSlot _ | .getGlobal _ | .setGlobalSlot _ => 2
  | .preserveCopySlot _ => 3
  | .branchTable => 3

/-- A word of compiled code, and the same word later: `compiled` has the code of the functions then. -/
inductive CodeWord.Settles (compiled : Nat → Option PC) : CodeWord → CodeWord → Prop where
  | same (w : CodeWord) : Settles compiled w w
  | patched (target : PC) : Settles compiled .patch (.pc target)
  /-- `rewrite_op (op_Call)` in `op_Compile`. -/
  | rewritten : Settles compiled (.op .compile) (.op .call)
  /-- The immediate of that call. -/
  | linked {i : Nat} {target : PC} (h : compiled i = some target) :
      Settles compiled (.function i) (.pc target)

theorem CodeWord.Settles.trans {compiled compiled' : Nat → Option PC} {u v w : CodeWord}
    (h : u.Settles compiled v) (h' : v.Settles compiled' w)
    (hcompiled : ∀ i target, compiled i = some target → compiled' i = some target) :
    u.Settles compiled' w := by
  cases h with
  | same => exact h'
  | patched target =>
    cases h' with
    | same => exact .patched target
  | rewritten =>
    cases h' with
    | same => exact .rewritten
  | linked h =>
    cases h' with
    | same => exact .linked (hcompiled _ _ h)

end WebAssemblyRuntime.Wasm3
