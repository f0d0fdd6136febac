import Mathlib.Algebra.Group.Nat.Defs
import Mathlib.Tactic.Common

/-!
# Types — value types, function types and slots

The interpreter's stack is an array of 32-bit `m3slot_t` slots; a value of a raw call occupies two
of them, which the binding reads and writes as one `uint64_t`.
-/

namespace WebAssemblyRuntime.Wasm3

/-- `M3ValueType`. -/
inductive M3ValueType where
  | none
  | i32
  | i64
  | f32
  | f64
  | v128
  | unknown
  deriving DecidableEq, Repr

/-- `M3FuncType`, with the one `types` array split at `numRets`.  Environments keep one copy of
each type, so the C code's pointer comparison is equality here. -/
structure M3FuncType where
  rets : List M3ValueType := []
  args : List M3ValueType := []
  deriving DecidableEq, Repr

/-- The operand stack.  A slot no one wrote reads as whatever the function says. -/
abbrev Slots := Nat → UInt32

/-- `* (uint64_t *) & slots [i]` on a little-endian machine. -/
def Slots.read64 (slots : Slots) (i : Nat) : UInt64 :=
  UInt64.ofNat ((slots i).toNat + (slots (i + 1)).toNat * 2 ^ 32)

/-- `* (uint64_t *) & slots [i] = v`. -/
def Slots.write64 (slots : Slots) (i : Nat) (v : UInt64) : Slots := fun j =>
  if j = i then UInt32.ofNat v.toNat
  else if j = i + 1 then UInt32.ofNat (v.toNat / 2 ^ 32)
  else slots j

@[simp] theorem Slots.read64_write64 (slots : Slots) (i : Nat) (v : UInt64) :
    (slots.write64 i v).read64 i = v := by
  have hlt : v.toNat < 2 ^ 64 := v.toNat_lt
  -- low half first
  have hsplit : v.toNat % 2 ^ 32 + v.toNat / 2 ^ 32 % 2 ^ 32 * 2 ^ 32 = v.toNat := by omega
  rw [read64, write64, if_pos rfl, write64, if_neg (by omega), if_pos rfl, UInt32.toNat_ofNat',
    UInt32.toNat_ofNat', hsplit, UInt64.ofNat_toNat]

theorem Slots.write64_of_lt (slots : Slots) {i j : Nat} (v : UInt64) (h : j < i) :
    slots.write64 i v j = slots j := by
  rw [write64, if_neg (by omega), if_neg (by omega)]

end WebAssemblyRuntime.Wasm3
