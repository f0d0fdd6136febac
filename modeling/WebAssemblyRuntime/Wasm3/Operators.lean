import Mathlib.Data.List.Forall2
import WebAssemblyRuntime.Wasm3.Compile

/-!
# Operators — operations against the instructions they are compiled from

An operator of WebAssembly is compiled to one operation, whose suffix says which operands are in the
register and which in slots.  Registers and slots are wider than the values in them; only the bits
of the type count.
-/

namespace WebAssemblyRuntime.Wasm3

open Reasoning M3Compilation

/-- A register, or a slot widened to one, has the value in the bits of its type. -/
def Carries (x : BitVec 64) (v : Value) : Prop := x.setWidth v.type.width = v.bits

/-- The offset of a load or a store. -/
def Operator.offset : Operator → BitVec 32
  | .load _ _ offset | .store _ _ offset => offset
  | _ => 0

theorem IntType.width_le (t : IntType) : t.width ≤ 64 := by cases t <;> decide

theorem carries_toReg {t : IntType} (signed : Bool) (x : BitVec t.width) :
    Carries (toReg signed x) ⟨t, x⟩ := setWidth_toReg t.width_le signed x

end WebAssemblyRuntime.Wasm3
