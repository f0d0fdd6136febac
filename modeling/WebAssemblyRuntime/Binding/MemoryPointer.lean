import WebAssemblyRuntime.Binding.Machine

/-!
# MemoryPointer — the `_mem` argument is never stale
-/

open WebAssemblyRuntime.Reasoning WebAssemblyRuntime.Wasm3

namespace WebAssemblyRuntime.Binding

/-- The `_mem` control carries, where it carries one, is the current block. -/
def CurrentMem (c : Config) : Prop :=
  match c.control with
  | .enter _ _ mem => mem = mallocated c.rt
  | .op _ mem _ => mem = mallocated c.rt
  | _ => True

variable {inst : Instance} {c c' : Config} {a : Action}

theorem CurrentMem.op (h : CurrentMem c) {sp : Nat} {mem : Option Addr} {r0 : Int}
    (hop : c.control = .op sp mem r0) : mem = mallocated c.rt := by
  rw [CurrentMem, hop] at h
  exact h

theorem CurrentMem.enter (h : CurrentMem c) {fn sp : Nat} {mem : Option Addr}
    (henter : c.control = .enter fn sp mem) : mem = mallocated c.rt := by
  rw [CurrentMem, henter] at h
  exact h

theorem currentMem_ret {r : M3Ret} (hret : c.control = .ret r) : CurrentMem c := by
  rw [CurrentMem, hret]
  trivial

/-- An operand of zero pages leaves the runtime alone. -/
theorem opMemGrow_zero {rt : M3Runtime} {r0 : Int} (os : SysCalls) (h : UInt32.ofInt r0 = 0) :
    (opMemGrow rt r0 os).2 = rt := by
  unfold opMemGrow
  rw [h]
  rfl

theorem currentMem_step (h : CurrentMem c) (hstep : Step inst c a c') : CurrentMem c' := by
  cases hstep with
  | callExportThrows | callExportRefused | runStartRefused | growMemory => trivial
  | callExport | runStart => rfl
  | importReturns | importReturnsValue | importCoercionFails | importThrows => trivial
  | enter henter => exact h.enter henter
  | enterOverflow | enterRawRaises | enterRawFails | enterRaw => trivial
  | slotOp hop => exact h.op hop
  | store hop hb =>
    have hmem := h.op hop
    rw [CurrentMem, hop]
    change _ = some _
    rw [hmem, mallocated, hb]
    rfl
  | memSize hop => exact h.op hop
  | @memGrow sp mem r0 os hop =>
    have hmem := h.op hop
    change (if UInt32.ofInt r0 ≠ 0 then mallocated (opMemGrow c.rt r0 os).2 else mem) =
      mallocated (opMemGrow c.rt r0 os).2
    -- the operation reloads `_mem` only when it grew something
    by_cases hz : UInt32.ofInt r0 = 0
    · rw [if_neg (not_not.mpr hz), opMemGrow_zero os hz]
      exact hmem
    · rw [if_pos hz]
  | call hop => exact h.op hop
  | callOverflow | callMissing => trivial
  | callIndirect hop => exact h.op hop
  | callIndirectOverflow | callIndirectTraps => trivial
  | loop hop => exact h.op hop
  | continueLoop | «return» | trap => trivial
  | unwindEntry hret => exact currentMem_ret hret
  | unwindLoop hret => exact currentMem_ret hret
  -- both reload `_mem` from the runtime
  | nextIteration | callReturns => rfl
  | callTraps hret => exact currentMem_ret hret
  | exportReturns => trivial
  | @startReturns _ result => cases result <;> trivial

theorem memoryPointerCurrent (h : (machine inst).Reachable c) :
    (∀ sp mem r0, c.control = .op sp mem r0 → mem = mallocated c.rt) ∧
      ∀ fn sp mem, c.control = .enter fn sp mem → mem = mallocated c.rt := by
  have hinv : CurrentMem c := by
    refine System.Reachable.invariant (P := CurrentMem) ?_ (fun _ _ _ hs ht =>
      currentMem_step hs ht) h
    intro s hs
    rw [CurrentMem, hs.1]
    trivial
  exact ⟨fun _ _ _ hop => hinv.op hop, fun _ _ _ henter => hinv.enter henter⟩

/-- Function 1 after it grew the memory by a page and the block moved. -/
def memoryMoved : Config :=
  let rt := (opMemGrow bodyEntered.rt 1 (SysCalls.granting 8192)).2
  { bodyEntered with rt := rt, control := .op 0 (some 8192) 1 }

theorem memoryMoved_reachable : (machine importAndBody).Reachable memoryMoved := by
  have hoperand : (machine importAndBody).Reachable
      { bodyEntered with control := .op 0 (some 4096) 1 } :=
    .step (a := .slotOp) bodyEntered_reachable (.slotOp rfl fun _ _ => rfl)
  exact .step (a := .memGrow (SysCalls.granting 8192)) hoperand (.memGrow rfl)

theorem memoryPointerCurrent_moved : some 8192 = mallocated memoryMoved.rt :=
  (memoryPointerCurrent memoryMoved_reachable).1 0 (some 8192) 1 rfl

end WebAssemblyRuntime.Binding
