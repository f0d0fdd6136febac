import Mathlib.Logic.Basic

/-!
# Results — inverting computations in `Except` and `Option`
-/

namespace WebAssemblyRuntime.Reasoning

universe u v w

variable {ε : Type u} {α : Type v} {β : Type v}

/-- A bind that succeeded had two successful parts. -/
theorem bind_ok {x : Except ε α} {f : α → Except ε β} {b : β} (h : x.bind f = .ok b) :
    ∃ a, x = .ok a ∧ f a = .ok b := by
  cases x with
  | error e => cases h
  | ok a => exact ⟨a, rfl, h⟩

/-- A bind that failed did so in one of its parts. -/
theorem bind_error {x : Except ε α} {f : α → Except ε β} {e : ε} (h : x.bind f = .error e) :
    x = .error e ∨ ∃ a, x = .ok a ∧ f a = .error e := by
  cases x with
  | error e' =>
    cases h
    exact .inl rfl
  | ok a => exact .inr ⟨a, rfl, h⟩

theorem map_ok {x : Except ε α} {f : α → β} {b : β} (h : x.map f = .ok b) :
    ∃ a, x = .ok a ∧ f a = b := by
  cases x with
  | error e => cases h
  | ok a =>
    cases h
    exact ⟨a, rfl, rfl⟩

/-- A branch that comes to something else was not taken. -/
theorem neg_of_ite {c : Prop} [Decidable c] {x y z : α} (h : (if c then x else y) = z)
    (hx : x ≠ z) : ¬ c ∧ y = z := by
  by_cases hc : c
  · exact absurd ((if_pos hc).symm.trans h) hx
  · exact ⟨hc, (if_neg hc).symm.trans h⟩

theorem pos_of_ite {c : Prop} [Decidable c] {x y z : α} (h : (if c then x else y) = z)
    (hy : y ≠ z) : c ∧ x = z := by
  by_cases hc : c
  · exact ⟨hc, (if_pos hc).symm.trans h⟩
  · exact absurd ((if_neg hc).symm.trans h) hy

/-- Two computations that agree up to their errors. -/
theorem ok_of_toOption {ε' : Type w} {x : Except ε α} {y : Except ε' α} {a : α}
    (h : x.toOption = y.toOption) (hy : y = .ok a) : x = .ok a := by
  rw [hy] at h
  cases x with
  | error e => cases h
  | ok b =>
    cases h
    rfl

theorem error_of_toOption {ε' : Type w} {x : Except ε α} {y : Except ε' α} {e : ε'}
    (h : x.toOption = y.toOption) (hy : y = .error e) : ∃ e, x = .error e := by
  rw [hy] at h
  cases x with
  | error e => exact ⟨e, rfl⟩
  | ok a => cases h

theorem ok_of_isSome {x : Except ε α} (h : x.toOption.isSome) : ∃ a, x = .ok a := by
  cases x with
  | error e => cases h
  | ok a => exact ⟨a, rfl⟩

theorem exceptMapM_ok {f : α → Except ε β} {xs : List α} (h : ∀ x ∈ xs, ∃ y, f x = .ok y) :
    ∃ ys, xs.mapM f = .ok ys := by
  induction xs with
  | nil => exact ⟨[], rfl⟩
  | cons x rest ih =>
    rcases h x List.mem_cons_self with ⟨y, hy⟩
    rcases ih (fun z hz => h z (List.mem_cons_of_mem _ hz)) with ⟨ys, hys⟩
    refine ⟨y :: ys, ?_⟩
    rw [List.mapM_cons, hy, hys]
    rfl

/-- A successful `mapM` is a `map` of whatever describes its results. -/
theorem exceptMapM_map {f : α → Except ε β} {g : α → Option β} {xs : List α} {ys : List β}
    (h : xs.mapM f = .ok ys) (hg : ∀ x ∈ xs, ∀ y, f x = .ok y → g x = some y) :
    xs.map g = ys.map some := by
  induction xs generalizing ys with
  | nil =>
    cases h
    rfl
  | cons x rest ih =>
    rw [List.mapM_cons] at h
    rcases bind_ok h with ⟨y, hy, h⟩
    rcases bind_ok h with ⟨zs, hzs, h⟩
    cases h
    have hrest := ih hzs (fun z hz => hg z (List.mem_cons_of_mem _ hz))
    rw [List.map_cons, List.map_cons, hg x List.mem_cons_self y hy, hrest]

/-- A successful `mapM` succeeded at every element. -/
theorem exceptMapM_getElem {f : α → Except ε β} {xs : List α} {ys : List β} {i : Nat} {x : α}
    (h : xs.mapM f = .ok ys) (hx : xs[i]? = some x) : ∃ y, ys[i]? = some y ∧ f x = .ok y := by
  induction xs generalizing ys i with
  | nil => cases hx
  | cons x' rest ih =>
    rw [List.mapM_cons] at h
    rcases bind_ok h with ⟨y, hy, h⟩
    rcases bind_ok h with ⟨zs, hzs, h⟩
    cases h
    cases i with
    | zero =>
      cases hx
      exact ⟨y, rfl, hy⟩
    | succ i =>
      have hrest := ih hzs hx
      exact hrest

theorem optionMapM_some {f : α → Option β} {xs : List α} (h : ∀ x ∈ xs, (f x).isSome) :
    ∃ ys, xs.mapM f = some ys := by
  induction xs with
  | nil => exact ⟨[], rfl⟩
  | cons x rest ih =>
    rcases Option.isSome_iff_exists.mp (h x List.mem_cons_self) with ⟨y, hy⟩
    rcases ih (fun z hz => h z (List.mem_cons_of_mem _ hz)) with ⟨ys, hys⟩
    refine ⟨y :: ys, ?_⟩
    rw [List.mapM_cons, hy, hys]
    rfl

theorem optionMapM_length {f : α → Option β} {xs : List α} {ys : List β}
    (h : xs.mapM f = some ys) : ys.length = xs.length := by
  induction xs generalizing ys with
  | nil =>
    cases h
    rfl
  | cons x rest ih =>
    rw [List.mapM_cons] at h
    rcases Option.bind_eq_some_iff.mp h with ⟨y, -, h⟩
    rcases Option.bind_eq_some_iff.mp h with ⟨zs, hzs, h⟩
    cases h
    rw [List.length_cons, List.length_cons, ih hzs]

theorem optionMapM_isSome {f : α → Option β} {xs : List α} (h : (xs.mapM f).isSome) :
    ∀ x ∈ xs, (f x).isSome := by
  induction xs with
  | nil => exact fun x hx => absurd hx List.not_mem_nil
  | cons x rest ih =>
    rw [List.mapM_cons] at h
    -- either computation failing would make the whole `mapM` fail
    cases hx : f x with
    | none => simp [hx] at h
    | some y =>
      cases hrest : rest.mapM f with
      | none => simp [hx, hrest] at h
      | some ys =>
        intro z hz
        rcases List.mem_cons.mp hz with rfl | hz
        · rw [hx]
          rfl
        · exact ih (by rw [hrest]; rfl) z hz

end WebAssemblyRuntime.Reasoning
