import WebAssemblyRuntime.Binding.JsValue
import WebAssemblyRuntime.Wasm3.Memory

/-!
# WasmMemory — the host object over linear memory, and the pre-size step
-/

open WebAssemblyRuntime.Wasm3

namespace WebAssemblyRuntime.Binding

def kWasmPageSizeInBytes : UInt32 := 65536

/-- `MemorySnapshotBuffer`: what one `ArrayBuffer` handed to JavaScript points at. -/
structure MemorySnapshotBuffer where
  data : Option Addr
  size : UInt32
  deriving DecidableEq, Repr

/-- The cached `buffer` of a `WasmMemory`. -/
structure WasmMemory where
  buffer : Option MemorySnapshotBuffer := none
  bufferData : Option Addr := none
  bufferSize : UInt32 := 0
  deriving DecidableEq, Repr

/-- `WasmMemory::getBuffer`; `none` when `m3_GetMemory` follows a null `mallocated`. -/
def getBuffer (rt : M3Runtime) (self : WasmMemory) : Option (MemorySnapshotBuffer × WasmMemory) :=
  (m3GetMemory rt).map fun (data, size) =>
    match self.buffer with
    | some buffer =>
        if data ≠ self.bufferData ∨ size ≠ self.bufferSize then
          (⟨data, size⟩, ⟨some ⟨data, size⟩, data, size⟩)
        else (buffer, self)
    | none => (⟨data, size⟩, ⟨some ⟨data, size⟩, data, size⟩)

/-- The `delta` that passes the checks `isnan`, `< 0` and `floor` of `memory.grow`; `none` stands
for infinity, which passes them too. -/
def pageDelta : JsNumber → Option (Option Nat)
  | .nan | .negInf => none
  | .posInf => some none
  | .negZero => some (some 0)
  | .finite q => if q < 0 ∨ q ≠ ⌊q⌋ then none else some (some ⌊q⌋.toNat)

/-- The current page count as the binding computes it, from the byte length. -/
def previousPages (rt : M3Runtime) : Option UInt32 :=
  (m3GetMemory rt).map fun (_, size) => size / kWasmPageSizeInBytes

/-- The `memory.grow` host function on its first argument (`undefined` when there is none, which
converts to NaN as well); `none` when `m3_GetMemory` follows a null `mallocated`. -/
def growHostFunction (rt : M3Runtime) (argument : JsValue) (os : SysCalls) :
    Option (Except JsException JsNumber × M3Runtime) :=
  match toDouble argument with
  | .error e => some (.error e, rt)
  | .ok number =>
    match pageDelta number with
    | none =>
        some (.error (.rangeError
          "[WebAssembly] Memory.grow expects a non-negative integer page count."), rt)
    | some delta =>
      (previousPages rt).map fun previous =>
        let overflow : Except JsException JsNumber := .error (.rangeError
          "[WebAssembly] Failed to grow memory: page count overflow.")
        match delta with
        | none => (overflow, rt)
        | some delta =>
          -- both comparisons are exact: the sum stays far below 2^53
          if 4294967295 < delta ∨ 4294967295 < previous.toNat + delta then (overflow, rt)
          else match resizeMemory rt (previous + UInt32.ofNat delta) os with
            | (some e, rt') =>
                (.error (.rangeError ("[WebAssembly] Failed to grow memory: " ++ e.text)), rt')
            | (none, rt') => (.ok (.finite previous.toNat), rt')

/-- The pre-size step of `instantiate`: whether there is a memory (a non-null data pointer), and
the runtime after the best-effort resize, whose result is ignored. -/
def presize (rt : M3Runtime) (memoryInitialPages : UInt32) (os : SysCalls) :
    Option (Bool × M3Runtime) :=
  (m3GetMemory rt).map fun (data, memorySizeInBytes) =>
    let hasMemory := data.isSome
    if hasMemory ∧ 0 < memoryInitialPages then
      -- counted from the bytes, so 65536 pages count as none
      let currentPages := memorySizeInBytes / kWasmPageSizeInBytes
      if currentPages < memoryInitialPages then
        (hasMemory, (resizeMemory rt memoryInitialPages os).2)
      else (hasMemory, rt)
    else (hasMemory, rt)

/-- Growing from JavaScript changes the memory record at most. -/
theorem growHostFunction_frame {rt rt' : M3Runtime} {argument : JsValue} {os : SysCalls}
    {result : Except JsException JsNumber}
    (h : growHostFunction rt argument os = some (result, rt')) :
    rt' = { rt with memory := rt'.memory } := by
  unfold growHostFunction at h
  cases hdouble : toDouble argument with
  | error e =>
    simp only [hdouble, Option.some.injEq, Prod.mk.injEq] at h
    rw [← h.2]
  | ok number =>
    cases hdelta : pageDelta number with
    | none =>
      simp only [hdouble, hdelta, Option.some.injEq, Prod.mk.injEq] at h
      rw [← h.2]
    | some delta =>
      simp only [hdouble, hdelta, Option.map_eq_some_iff] at h
      rcases h with ⟨previous, -, h⟩
      cases delta with
      | none =>
        simp only [Prod.mk.injEq] at h
        rw [← h.2]
      | some delta =>
        simp only at h
        -- only the last branch calls `ResizeMemory`
        by_cases hover : 4294967295 < delta ∨ 4294967295 < previous.toNat + delta
        · rw [if_pos hover, Prod.mk.injEq] at h
          rw [← h.2]
        · have hframe := resizeMemory_frame rt (previous + UInt32.ofNat delta) os
          rw [if_neg hover] at h
          cases hr : resizeMemory rt (previous + UInt32.ofNat delta) os with
          | mk r rt₁ =>
            rw [hr] at h hframe
            cases r <;> (simp only [Prod.mk.injEq] at h; rw [← h.2]; exact hframe)

end WebAssemblyRuntime.Binding
