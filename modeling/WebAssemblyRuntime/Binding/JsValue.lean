import WebAssemblyRuntime.Reasoning.FloatFormat
import WebAssemblyRuntime.Wasm3.Errors
import WebAssemblyRuntime.Wasm3.Types

/-!
# JsValue — JavaScript values and their conversion to and from interpreter slots

A finite double is the rational number it denotes; where C++ rounds (a 64-bit integer or a double
stored into a narrower format) the rounding is to nearest, ties to even.
-/

open WebAssemblyRuntime.Reasoning WebAssemblyRuntime.Wasm3

namespace WebAssemblyRuntime.Binding

/-- A JavaScript number. -/
inductive JsNumber where
  | nan
  | posInf
  | negInf
  | negZero
  | finite (value : ℚ)
  deriving DecidableEq, Repr

/-- A JavaScript value as far as the binding looks at it.  A function, string, symbol or object is
known by its identity. -/
inductive JsValue where
  | undefined
  | null
  | bool (b : Bool)
  | number (n : JsNumber)
  | bigint (n : Int)
  | other (id : Nat)
  deriving DecidableEq, Repr

/-- What a `catch (...)` around JavaScript or binding code can see. -/
inductive JsException where
  /-- A value thrown by JavaScript code. -/
  | thrown (value : JsValue)
  /-- `JSError (rt, message)`, a generic `Error`. -/
  | error (message : String)
  /-- `throwRangeError`. -/
  | rangeError (message : String)
  /-- `throwWasmError` with the tag `kTagRuntime`: an `Error` named `RuntimeError`. -/
  | wasmError (result : M3Err)
  /-- The `std::runtime_error` of the trampoline, naming the import. -/
  | missingImport (moduleName fieldName : List UInt8)
  /-- The `JSError` of the link loop, tagged `kTagLink`: an unsupported signature when there is no
  result, else what linking failed with. -/
  | linkError (moduleName fieldName : List UInt8) (result : Option M3Err)
  deriving DecidableEq, Repr

/-! ## The bits of a number -/

namespace JsNumber

/-- The number a floating-point value is; only a zero keeps its sign apart. -/
def ofFloat : FloatValue → JsNumber
  | .nan => .nan
  | .infinity negative => if negative then .negInf else .posInf
  | .finite negative significand exponent =>
      if significand = 0 then if negative then .negZero else .finite 0
      else .finite (FloatValue.number negative significand exponent)

/-- The number that bits stand for. -/
def ofBits (f : FloatFormat) (bits : Nat) : JsNumber := ofFloat (f.decode (BitVec.ofNat _ bits))

/-- The bits stored for a number; a NaN is stored as the quiet one. -/
def bits (f : FloatFormat) : JsNumber → Nat
  | .nan => f.infinity + 2 ^ (f.fractionBits - 1)
  | .posInf => f.infinity
  | .negInf => f.signBit + f.infinity
  | .negZero => f.signBit
  | .finite q =>
      if q = 0 then 0
      else if q < 0 then f.signBit + f.encodeMagnitude (-q)
      else f.encodeMagnitude q

example : bits .binary64 (.finite 1) = 0x3ff0000000000000 := by decide +kernel
example : ofBits .binary32 0x3dcccccd = .finite (13421773 / 134217728) := by decide +kernel

end JsNumber

/-! ## Conversions -/

/-- `static_cast<double>` of a 64-bit integer. -/
def int64ToDouble (n : Int) : JsNumber :=
  if n.natAbs ≤ 2 ^ 53 then .finite n
  else .ofBits .binary64 (JsNumber.bits .binary64 (.finite n))

/-- `BigInt::getInt64`, which truncates modulo `2 ^ 64`. -/
def getInt64 (n : Int) : Int := n.bmod (2 ^ 64)

def INT64_MAX : Int := 2 ^ 63 - 1
def INT64_MIN : Int := -2 ^ 63

def doubleToInt64 : JsNumber → Int
  | .nan => 0
  | .posInf => INT64_MAX
  | .negInf => INT64_MIN
  | .negZero => 0
  | .finite q =>
      -- the literal 9223372036854775807.0 is the double 2^63
      if 2 ^ 63 ≤ q then INT64_MAX else if q ≤ -2 ^ 63 then INT64_MIN
      -- and `static_cast<int64_t>` drops the fraction
      else towardZero q

def toDouble : JsValue → Except JsException JsNumber
  | .number n => .ok n
  | .bigint n => .ok (int64ToDouble (getInt64 n))
  | .bool b => .ok (.finite (if b then 1 else 0))
  | .null => .ok (.finite 0)
  | .undefined => .ok .nan
  | .other _ => .error (.error "[WebAssembly] Cannot convert value to a wasm number.")

def toInt64 : JsValue → Except JsException Int
  | .bigint n => .ok (getInt64 n)
  | value => doubleToInt64 <$> toDouble value

/-- `slotToValue`: the slot's low half for the 32-bit types. -/
def slotToValue (type : M3ValueType) (slot : UInt64) : Except JsException JsValue :=
  match type with
  | .i32 => .ok (.number (.finite (Int.bmod slot.toNat (2 ^ 32))))
  | .i64 => .ok (.bigint (Int.bmod slot.toNat (2 ^ 64)))
  | .f32 => .ok (.number (.ofBits .binary32 (slot.toNat % 2 ^ 32)))
  | .f64 => .ok (.number (.ofBits .binary64 slot.toNat))
  | _ => .error (.error "[WebAssembly] Unsupported wasm value type.")

/-- `valueToSlot`: the 64-bit word left in the slot, which a 32-bit type fills with zeroes.  When
the conversion throws, the slot has already been zeroed. -/
def valueToSlot (type : M3ValueType) (value : JsValue) : Except JsException UInt64 :=
  match type with
  | .i32 => (fun n => UInt64.ofNat (n % 2 ^ 32).toNat) <$> toInt64 value
  | .i64 => (fun n => UInt64.ofNat (n % 2 ^ 64).toNat) <$> toInt64 value
  | .f32 => (fun n => UInt64.ofNat (n.bits .binary32)) <$> toDouble value
  | .f64 => (fun n => UInt64.ofNat (n.bits .binary64)) <$> toDouble value
  | _ => .error (.error "[WebAssembly] Unsupported wasm value type.")

end WebAssemblyRuntime.Binding
