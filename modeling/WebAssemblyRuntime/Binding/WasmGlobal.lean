import WebAssemblyRuntime.Binding.JsValue
import WebAssemblyRuntime.Wasm3.Globals

/-!
# WasmGlobal — assignment to the `value` of an exported global
-/

open WebAssemblyRuntime.Wasm3

namespace WebAssemblyRuntime.Binding

/-- The host object of an exported global; `global` is what `global_` points at. -/
structure WasmGlobal where
  global : M3Global
  name : String
  deriving DecidableEq, Repr

namespace WasmGlobal

/-- The tagged value `set` fills in for a type: an integer is converted to 64 bits and narrowed. -/
def tagged (self : WasmGlobal) (type : M3ValueType) (value : JsValue) :
    Except JsException M3TaggedValue :=
  match type with
  | .i32 => (fun n => ⟨type, UInt64.ofNat (n % 2 ^ 32).toNat⟩) <$> toInt64 value
  | .i64 => (fun n => ⟨type, UInt64.ofNat (n % 2 ^ 64).toNat⟩) <$> toInt64 value
  | .f32 => (fun n => ⟨type, UInt64.ofNat (n.bits .binary32)⟩) <$> toDouble value
  | .f64 => (fun n => ⟨type, UInt64.ofNat (n.bits .binary64)⟩) <$> toDouble value
  | _ => .error (.error
      ("[WebAssembly] Global \"" ++ self.name ++ "\" has an unsupported type."))

/-- `WasmGlobal::set` on the runtime and the thread of the instance. -/
def set (self : WasmGlobal) (nameId : String) (value : JsValue) : Except JsException WasmGlobal :=
  if nameId ≠ "value" then
    .error (.error "[WebAssembly] Globals only expose a \"value\" property.")
  else if self.global.isMutable = false then
    .error (.error ("[WebAssembly] Global \"" ++ self.name ++ "\" is immutable."))
  else do
    let tagged ← self.tagged self.global.type value
    match m3SetGlobal self.global tagged with
    | .ok global => .ok { self with global }
    | .error e => .error (.error
        ("[WebAssembly] Failed to set global \"" ++ self.name ++ "\": " ++ e.text))

end WasmGlobal

end WebAssemblyRuntime.Binding
