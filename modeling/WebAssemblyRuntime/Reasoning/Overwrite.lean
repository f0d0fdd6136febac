import Mathlib.Data.List.Basic
import Mathlib.Data.List.Range

/-!
# Overwrite — tables filled by writes that may hit the same entry

Each write `j` puts `value j` into every entry it hits; what an entry holds at the end is decided by
the last write that hit it.
-/

namespace WebAssemblyRuntime.Reasoning

universe u v w

variable {ι : Type u} {κ : Type v} {β : Type w}

/-- One write. -/
def overwrite (hits : κ → ι → Bool) (value : κ → β) (table : ι → β) (j : κ) : ι → β :=
  fun i => if hits j i then value j else table i

/-- A list of writes, the first one first. -/
def overwriteAll (hits : κ → ι → Bool) (value : κ → β) (table : ι → β) (writes : List κ) : ι → β :=
  writes.foldl (overwrite hits value) table

variable {hits : κ → ι → Bool} {value : κ → β} {table : ι → β} {i : ι}

theorem overwriteAll_append (xs ys : List κ) :
    overwriteAll hits value table (xs ++ ys) =
      overwriteAll hits value (overwriteAll hits value table xs) ys :=
  List.foldl_append

theorem overwriteAll_of_not_hit {writes : List κ} (h : ∀ j ∈ writes, hits j i = false) :
    overwriteAll hits value table writes i = table i := by
  induction writes generalizing table with
  | nil => rfl
  | cons j rest ih =>
    -- the write at the head misses the entry, so the tail starts from the same value there
    change overwriteAll hits value (overwrite hits value table j) rest i = table i
    rw [ih (fun k hk => h k (List.mem_cons_of_mem _ hk)), overwrite, h j List.mem_cons_self]
    rfl

/-- The last write that hits an entry decides it. -/
theorem overwriteAll_last {before after : List κ} {j : κ} (hj : hits j i = true)
    (hafter : ∀ k ∈ after, hits k i = false) :
    overwriteAll hits value table (before ++ j :: after) i = value j := by
  rw [overwriteAll_append]
  change overwriteAll hits value (overwrite hits value _ j) after i = value j
  rw [overwriteAll_of_not_hit hafter, overwrite, hj]
  rfl

/-- An entry that is hit is hit by a last write. -/
theorem exists_last_hit {writes : List κ} (h : ∃ j ∈ writes, hits j i = true) :
    ∃ before j after, writes = before ++ j :: after ∧ hits j i = true ∧
      ∀ k ∈ after, hits k i = false := by
  induction writes with
  | nil => simp at h
  | cons j rest ih =>
    -- a hit in the tail comes after one at the head
    by_cases hrest : ∃ k ∈ rest, hits k i = true
    · rcases ih hrest with ⟨before, k, after, rfl, hk, hafter⟩
      exact ⟨j :: before, k, after, rfl, hk, hafter⟩
    · have hj : hits j i = true := by
        rcases h with ⟨k, hk, hhit⟩
        rcases List.mem_cons.mp hk with rfl | hk
        · exact hhit
        · exact absurd ⟨k, hk, hhit⟩ hrest
      have hafter : ∀ k ∈ rest, hits k i = false := by
        intro k hk
        rw [← Bool.not_eq_true]
        exact fun hhit => hrest ⟨k, hk, hhit⟩
      exact ⟨[], j, rest, rfl, hj, hafter⟩

/-- Writes that agree on an entry they hit can come in any order. -/
theorem overwriteAll_agree {writes : List κ} {b : β} (h : ∃ j ∈ writes, hits j i = true)
    (hvalue : ∀ j ∈ writes, hits j i = true → value j = b) :
    overwriteAll hits value table writes i = b := by
  rcases exists_last_hit h with ⟨before, j, after, rfl, hj, hafter⟩
  rw [overwriteAll_last hj hafter]
  exact hvalue j (List.mem_append_right _ List.mem_cons_self) hj

/-- What an entry holds at the end was there before, or was written. -/
theorem overwriteAll_cases (writes : List κ) :
    overwriteAll hits value table writes i = table i ∨
      ∃ j ∈ writes, hits j i = true ∧ overwriteAll hits value table writes i = value j := by
  by_cases h : ∃ j ∈ writes, hits j i = true
  · rcases exists_last_hit h with ⟨before, j, after, rfl, hj, hafter⟩
    exact .inr ⟨j, List.mem_append_right _ List.mem_cons_self, hj, overwriteAll_last hj hafter⟩
  · apply Or.inl
    apply overwriteAll_of_not_hit
    intro j hj
    rw [← Bool.not_eq_true]
    exact fun hhit => h ⟨j, hj, hhit⟩

/-- Writes made in the order of their indices: the greatest index that hits decides. -/
theorem overwriteAll_range {hits : Nat → ι → Bool} {value : Nat → β} {n j : Nat} (hn : j < n)
    (hj : hits j i = true) (hlast : ∀ k, j < k → k < n → hits k i = false) :
    overwriteAll hits value table (List.range n) i = value j := by
  -- the writes before `j`, write `j`, and the writes after it
  have hsplit : List.range n = List.range j ++ j :: List.range' (j + 1) (n - (j + 1)) := by
    have hlen : n = j + (1 + (n - (j + 1))) := by omega
    conv_lhs => rw [hlen, List.range_add]
    rw [Nat.add_comm 1, List.range_succ_eq_map, List.map_cons, List.map_map, List.range'_eq_map_range]
    congr 2
    apply List.map_congr_left
    intro k _
    change j + (k + 1) = j + 1 + k
    omega
  rw [hsplit]
  apply overwriteAll_last hj
  intro k hk
  rw [List.mem_range'_1] at hk
  exact hlast k (by omega) (by omega)

/-- Among the indices below `n` that hit, if any, there is a greatest. -/
theorem exists_greatest_hit {hits : Nat → ι → Bool} {n j : Nat} (hn : j < n)
    (hj : hits j i = true) :
    ∃ m, m < n ∧ j ≤ m ∧ hits m i = true ∧ ∀ k, m < k → k < n → hits k i = false := by
  induction n with
  | zero => omega
  | succ n ih =>
    -- from the top index down
    by_cases hlast : hits n i = true
    · exact ⟨n, by omega, by omega, hlast, fun k hk hkn => by omega⟩
    · have hlt : j < n := by
        by_contra hge
        have heq : j = n := by omega
        exact hlast (heq ▸ hj)
      rcases ih hlt with ⟨m, hmn, hjm, hm, hgreatest⟩
      refine ⟨m, by omega, hjm, hm, fun k hk hkn => ?_⟩
      by_cases hkn' : k = n
      · rw [hkn', ← Bool.not_eq_true]
        exact hlast
      · exact hgreatest k hk (by omega)

end WebAssemblyRuntime.Reasoning
