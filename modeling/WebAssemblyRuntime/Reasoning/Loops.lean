import WebAssemblyRuntime.Reasoning.Results

/-!
# Loops — counted loops that stop at the first error

`loop step n i s` runs `step i`, `step (i + 1)`, … on a state, `n` times.
-/

namespace WebAssemblyRuntime.Reasoning

universe u v w

variable {ε : Type u} {ε' : Type w} {σ : Type v} {τ : Type v}

def loop (step : Nat → σ → Except ε σ) : Nat → Nat → σ → Except ε σ
  | 0, _, s => .ok s
  | n + 1, i, s => (step i s).bind fun s => loop step n (i + 1) s

theorem loop_succ {step : Nat → σ → Except ε σ} {n i : Nat} {s t : σ}
    (h : loop step (n + 1) i s = .ok t) : ∃ m, step i s = .ok m ∧ loop step n (i + 1) m = .ok t :=
  bind_ok h

/-- What every iteration keeps holds at the end, with the index moved on. -/
theorem loop_invariant {P : Nat → σ → Prop} {step : Nat → σ → Except ε σ}
    (hstep : ∀ i s t, P i s → step i s = .ok t → P (i + 1) t) {n i : Nat} {s t : σ} (hs : P i s)
    (h : loop step n i s = .ok t) : P (i + n) t := by
  induction n generalizing i s with
  | zero =>
    cases h
    exact hs
  | succ n ih =>
    rcases loop_succ h with ⟨m, hm, hrest⟩
    have hend := ih (hstep i s m hs hm) hrest
    rw [Nat.add_right_comm] at hend
    exact hend

/-- The same for a fold over a range of indices. -/
theorem foldlM_invariant {P : Nat → σ → Prop} {step : σ → Nat → Except ε σ}
    (hstep : ∀ i s t, P i s → step s i = .ok t → P (i + 1) t) {n i : Nat} {s t : σ} (hs : P i s)
    (h : (List.range' i n).foldlM step s = .ok t) : P (i + n) t := by
  induction n generalizing i s with
  | zero =>
    cases h
    exact hs
  | succ n ih =>
    rw [List.range'_succ, List.foldlM_cons] at h
    rcases bind_ok h with ⟨m, hm, hrest⟩
    have hend := ih (hstep i s m hs hm) hrest
    rw [Nat.add_right_comm] at hend
    exact hend

/-- A fold fails only as an iteration does. -/
theorem foldlM_error {Q : ε → Prop} {α : Type w} {step : σ → α → Except ε σ}
    (hstep : ∀ s i e, step s i = .error e → Q e) {xs : List α} {s : σ} {e : ε}
    (h : xs.foldlM step s = .error e) : Q e := by
  induction xs generalizing s with
  | nil => cases h
  | cons x xs ih =>
    rw [List.foldlM_cons] at h
    rcases bind_error h with h | ⟨t, -, hrest⟩
    · exact hstep s x e h
    · exact ih hrest

/-- A fold whose every iteration succeeds from what the last one left succeeds. -/
theorem foldlM_total {P : σ → Prop} {step : σ → Nat → Except ε σ}
    (hstep : ∀ i s, P s → ∃ t, step s i = .ok t ∧ P t) (indices : List Nat) {s : σ} (hs : P s) :
    ∃ t, indices.foldlM step s = .ok t := by
  induction indices generalizing s with
  | nil => exact ⟨s, rfl⟩
  | cons i rest ih =>
    rcases hstep i s hs with ⟨m, hm, hP⟩
    rcases ih hP with ⟨t, ht⟩
    refine ⟨t, ?_⟩
    rw [List.foldlM_cons, hm]
    exact ht

/-- Two loops whose iterations run in step end in related states. -/
theorem loop_simulates {R : Nat → σ → τ → Prop} {step : Nat → σ → Except ε σ}
    {step' : Nat → τ → Except ε' τ}
    (hstep : ∀ i s t s', R i s s' → step i s = .ok t → ∃ t', step' i s' = .ok t' ∧ R (i + 1) t t')
    {n i : Nat} {s t : σ} {s' : τ} (hs : R i s s') (h : loop step n i s = .ok t) :
    ∃ t', loop step' n i s' = .ok t' ∧ R (i + n) t t' := by
  induction n generalizing i s s' with
  | zero =>
    cases h
    exact ⟨s', rfl, hs⟩
  | succ n ih =>
    rcases loop_succ h with ⟨m, hm, hrest⟩
    -- one iteration on both sides, then the rest of both loops from related states
    rcases hstep i s m s' hs hm with ⟨m', hm', hR⟩
    rcases ih hR hrest with ⟨t', ht', hR'⟩
    refine ⟨t', ?_, ?_⟩
    · rw [loop, hm']
      exact ht'
    · rw [Nat.add_right_comm] at hR'
      exact hR'

end WebAssemblyRuntime.Reasoning
