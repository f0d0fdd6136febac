import WebAssemblyRuntime.Wasm3.Instructions

/-!
# Evaluation — what the evaluator does, instruction by instruction

A result of the evaluator comes from results with a smaller budget, and has the types that the labels
around the code say.
-/

namespace WebAssemblyRuntime.Wasm3

variable {M : WasmModule} {os : Nat → SysCalls} {fuel calls depth : Nat}
  {labels : List (List M3ValueType)} {types : List M3ValueType} {blockType : M3FuncType}
  {i : Instr} {is body other : List Instr} {f : Frame} {outcome outcome' : Outcome}

/-! ## Outcomes -/

theorem Typed.length_eq {stack : List Value} (h : Typed stack types) :
    stack.length = types.length := by
  have heq := congrArg List.length h
  rw [List.length_map, List.length_reverse] at heq
  exact heq

theorem Typed.le_length {stack : List Value}
    (h : Typed (stack.take types.length) types) : types.length ≤ stack.length := by
  have heq := h.length_eq
  rw [List.length_take] at heq
  omega

/-- How a call ends for the caller, with the stack `rest` below its arguments. -/
def Frame.returned (f : Frame) (rest : List Value) : Outcome → Outcome
  | .ret results σ => .normal { f with stack := results ++ rest, store := σ }
  | outcome => outcome

/-- Branches and returns take values of the types that the labels around them say. -/
def Outcome.Fits (labels : List (List M3ValueType)) : Outcome → Prop
  | .branch depth f => ∃ types, labels[depth]? = some types ∧ Typed f.stack types
  | .ret results _ => ∃ types, labels.getLast? = some types ∧ Typed results types
  | _ => True

theorem Outcome.Fits.leave {label : List M3ValueType} {rest : List Value} {outcome₁ : Outcome}
    (h : outcome₁.Fits (label :: labels)) (hlabels : labels ≠ [])
    (hleave : outcome₁.leave types rest = some outcome) :
    outcome.Fits labels := by
  cases outcome₁ with
  | normal f' =>
    rw [Outcome.leave] at hleave
    by_cases htyped : Typed f'.stack types
    · rw [if_pos htyped] at hleave
      cases hleave
      exact trivial
    · rw [if_neg htyped] at hleave
      cases hleave
  | branch depth f' =>
    cases depth with
    | zero =>
      cases hleave
      exact trivial
    | succ depth =>
      cases hleave
      exact h
  | ret results σ =>
    cases hleave
    rcases h with ⟨types', hlast, htyped⟩
    refine ⟨types', ?_, htyped⟩
    rw [List.getLast?_cons_of_ne_nil hlabels] at hlast
    exact hlast
  | trap e σ =>
    cases hleave
    exact trivial

end WebAssemblyRuntime.Wasm3
