import WebAssemblyRuntime.Wasm3.Evaluation
import WebAssemblyRuntime.Wasm3.InstructionSimulation

/-!
# CallSimulation — the code of a call

The arguments go above all slots in use, and the callee leaves the results at the start of its
frame, where the compiler then has them on the stack.  Below its frame nothing changes.
-/

namespace WebAssemblyRuntime.Wasm3

open M3Compilation
open Reasoning (bind_ok)

variable {L : Activation} {targets : Nat → PC} {fn : M3FuncType} {active : List Nat}
  {o o' o₁ : M3Compilation} {ρ ρ' ρ'' : Nat → Value} {f : Frame} {st st' : M3State}
  {outcome : Outcome} {Φ : M3Ret → M3State → Prop} {i k n slot top argTop room : Nat} {v : Value}
  {vs rest : List Value} {types : List M3ValueType}

/-! ## Above the slots in use -/

/-- What the caller finds after the call. -/
def Answers (sp : Nat) (outcome : Outcome) (r : M3Ret) (st : M3State) : Prop :=
  match outcome with
  | .ret results σ => r = .done ∧ Returned sp results st ∧ st.store = σ
  | .trap e σ => r = .trap e ∧ st.store = σ
  | _ => False

/-- The arguments of a call, behind the places of the results. -/
def Passed (sp numRets : Nat) (args : List Value) (st : M3State) : Prop :=
  ∀ i v, args[i]? = some v →
    readSlot v.type st.slots (sp + (numRets + i) * c_ioSlotCount) = v.bits

/-- The stack has room for a call and for those that nest in it, as deep as `calls`, each in a frame
of at most so many slots. -/
structure FitsStack (E : CodeImage) (frame calls sp depth : Nat) : Prop where
  depth : depth + calls ≤ d_m3MaxCallDepth
  slots : sp + (calls + 1) * frame < E.maxStack

theorem FitsStack.call {E : CodeImage} {frame calls sp sp' depth : Nat}
    (h : FitsStack E frame (calls + 1) sp depth) (hsp : sp' ≤ sp + frame) :
    FitsStack E frame calls sp' (depth + 1) := by
  have hdepth := h.depth
  have hslots := h.slots
  rw [Nat.succ_mul] at hslots
  exact ⟨by omega, by omega⟩

end WebAssemblyRuntime.Wasm3
