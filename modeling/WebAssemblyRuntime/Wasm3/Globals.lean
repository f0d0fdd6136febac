import WebAssemblyRuntime.Wasm3.Module

/-!
# Globals — setting one global
-/

namespace WebAssemblyRuntime.Wasm3

/-- `M3TaggedValue`; `value` is its union, whose 32-bit members are the low half. -/
structure M3TaggedValue where
  type : M3ValueType
  value : UInt64
  deriving DecidableEq, Repr

/-- `i32Value` and `f32Value`: the low half of the union in `M3Global`. -/
def M3Global.low (global : M3Global) : UInt32 := UInt32.ofNat global.i64Value.toNat

/-- Storing a 32-bit member leaves the upper half alone. -/
def M3Global.setLow (global : M3Global) (low : UInt32) : M3Global :=
  { global with
    i64Value := UInt64.ofNat (global.i64Value.toNat / 2 ^ 32 * 2 ^ 32 + low.toNat) }

/-- `m3_SetGlobal` of a global that is not null.  It does not ask whether the global is mutable. -/
def m3SetGlobal (i_global : M3Global) (i_value : M3TaggedValue) : Except M3Err M3Global :=
  if i_global.type ≠ i_value.type then .error .globalTypeMismatch
  else match i_value.type with
    | .i32 | .f32 => .ok (i_global.setLow (UInt32.ofNat i_value.value.toNat))
    | .i64 | .f64 => .ok { i_global with i64Value := i_value.value }
    | _ => .error .invalidTypeId

@[simp] theorem M3Global.low_setLow (global : M3Global) (low : UInt32) :
    (global.setLow low).low = low := by
  have hlow : low.toNat < 2 ^ 32 := low.toNat_lt
  have hmod : (global.i64Value.toNat / 2 ^ 32 * 2 ^ 32 + low.toNat) % 2 ^ 64 % 2 ^ 32 =
    low.toNat := by omega
  rw [M3Global.low, setLow]
  apply UInt32.toNat_inj.mp
  rw [UInt32.toNat_ofNat', UInt64.toNat_ofNat', hmod]

end WebAssemblyRuntime.Wasm3
