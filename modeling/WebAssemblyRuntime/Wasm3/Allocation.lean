import Mathlib.Data.Nat.Count
import Mathlib.Order.Interval.Finset.Nat
import WebAssemblyRuntime.Wasm3.Compilation

/-!
# Allocation — the slots that are taken and given back

What the loops over `m3Slots` come to, and how many entries of the operand stack cover a slot.
-/

namespace WebAssemblyRuntime.Wasm3.M3Compilation

variable {o o' : M3Compilation} {type : M3ValueType} {slot k n : Nat}

theorem getTypeNumSlots_pos (type : M3ValueType) : 0 < getTypeNumSlots type := by
  cases type <;> decide

theorem le_alignSlotToType (slot : Nat) (type : M3ValueType) : slot ≤ alignSlotToType slot type := by
  cases type <;> simp only [alignSlotToType, getTypeNumSlots] <;> omega

/-! ## Taking slots -/

/-- The slots from `slot` on are marked, `k` of them. -/
theorem markSlots_eq (o : M3Compilation) (slot k : Nat) : o.markSlots slot (k + 1) =
    { o with
      m3Slots := fun n => if slot ≤ n ∧ n < slot + (k + 1) then 1 else o.m3Slots n
      slotMaxAllocatedIndexPlusOne := max o.slotMaxAllocatedIndexPlusOne (slot + (k + 1))
      maxStackSlots := max o.maxStackSlots (slot + (k + 1)) } := by
  induction k generalizing o slot with
  | zero =>
    have hslots : Function.update o.m3Slots slot 1 =
        fun n => if slot ≤ n ∧ n < slot + (0 + 1) then 1 else o.m3Slots n := by
      funext n
      by_cases hn : n = slot
      · rw [hn, Function.update_self, if_pos (by omega)]
      · rw [Function.update_of_ne hn, if_neg (by omega)]
    simp only [markSlots, markSlotAllocated, hslots, Nat.zero_add]
  | succ k ih =>
    rw [markSlots, ih]
    simp only [markSlotAllocated]
    have hslots : (fun n => if slot + 1 ≤ n ∧ n < slot + 1 + (k + 1) then 1
        else Function.update o.m3Slots slot 1 n) =
        fun n => if slot ≤ n ∧ n < slot + (k + 1 + 1) then 1 else o.m3Slots n := by
      funext n
      by_cases hn : n = slot
      · rw [if_neg (by omega), hn, Function.update_self, if_pos (by omega)]
      · rw [Function.update_of_ne hn]
        by_cases hin : slot + 1 ≤ n ∧ n < slot + 1 + (k + 1)
        · rw [if_pos hin, if_pos (by omega)]
        · rw [if_neg hin, if_neg (by omega)]
    have hmax : ∀ m, max (max m (slot + 1)) (slot + 1 + (k + 1)) = max m (slot + (k + 1 + 1)) := by
      intro m
      omega
    rw [hslots, hmax, hmax]

/-- `MarkSlotsAllocated` for a type. -/
theorem markSlots_type (o : M3Compilation) (slot : Nat) (type : M3ValueType) :
    o.markSlots slot (getTypeNumSlots type) =
      { o with
        m3Slots := fun n =>
          if slot ≤ n ∧ n < slot + getTypeNumSlots type then 1 else o.m3Slots n
        slotMaxAllocatedIndexPlusOne :=
          max o.slotMaxAllocatedIndexPlusOne (slot + getTypeNumSlots type)
        maxStackSlots := max o.maxStackSlots (slot + getTypeNumSlots type) } := by
  have hpos := getTypeNumSlots_pos type
  rw [← Nat.sub_add_cancel hpos]
  exact markSlots_eq o slot _

theorem findSlots_some {m3Slots : Nat → Nat} {numSlots endSlot fuel start : Nat}
    (h : findSlots m3Slots numSlots endSlot fuel start = some slot) :
    start ≤ slot ∧ slot + (numSlots - 1) < endSlot ∧ slot + (numSlots - 1) < d_m3MaxFunctionSlots ∧
      m3Slots slot = 0 ∧ m3Slots (slot + (numSlots - 1)) = 0 := by
  induction fuel generalizing start with
  | zero => cases h
  | succ fuel ih =>
    rw [findSlots] at h
    split at h
    · rename_i hend
      split at h
      · rename_i hfree
        cases h
        exact ⟨Nat.le_refl _, hend, hfree⟩
      · rcases ih h with ⟨hle, hrest⟩
        exact ⟨Nat.le_trans (Nat.le_add_right _ _) hle, hrest⟩
    · cases h

/-- Where nothing is found, every place that was looked at has a slot in use at one of its ends. -/
theorem findSlots_none {m3Slots : Nat → Nat} {numSlots fuel start : Nat}
    (h : findSlots m3Slots numSlots d_m3MaxFunctionSlots fuel start = none) (hk : k < fuel)
    (hend : start + k * numSlots + (numSlots - 1) < d_m3MaxFunctionSlots) :
    m3Slots (start + k * numSlots) ≠ 0 ∨ m3Slots (start + k * numSlots + (numSlots - 1)) ≠ 0 := by
  induction fuel generalizing start k with
  | zero => exact absurd hk (Nat.not_lt_zero k)
  | succ fuel ih =>
    rw [findSlots, if_pos (by omega)] at h
    split at h
    · cases h
    · rename_i hused
      cases k with
      | zero =>
        rw [Nat.zero_mul, Nat.add_zero] at hend ⊢
        by_contra hfree
        rw [not_or, not_not, not_not] at hfree
        exact hused ⟨hend, hfree⟩
      | succ k =>
        have hnext : start + (k + 1) * numSlots = start + numSlots + k * numSlots := by
          rw [Nat.succ_mul]
          omega
        rw [hnext] at hend ⊢
        exact ih h (by omega) hend

/-- The search looks at the slots from its start on only. -/
theorem findSlots_congr {m3Slots m3Slots' : Nat → Nat} {numSlots endSlot start : Nat}
    (h : ∀ n, start ≤ n → n < d_m3MaxFunctionSlots → m3Slots n = m3Slots' n) (fuel : Nat) :
    findSlots m3Slots numSlots endSlot fuel start =
      findSlots m3Slots' numSlots endSlot fuel start := by
  induction fuel generalizing start with
  | zero => rfl
  | succ fuel ih =>
    have hfree : (start + (numSlots - 1) < d_m3MaxFunctionSlots ∧ m3Slots start = 0 ∧
          m3Slots (start + (numSlots - 1)) = 0) ↔
        (start + (numSlots - 1) < d_m3MaxFunctionSlots ∧ m3Slots' start = 0 ∧
          m3Slots' (start + (numSlots - 1)) = 0) := by
      refine and_congr_right fun hlt => ?_
      rw [h start (Nat.le_refl _) (by omega), h _ (Nat.le_add_right _ _) hlt]
    rw [findSlots, findSlots]
    simp only [hfree]
    rw [ih fun n hn => h n (Nat.le_trans (Nat.le_add_right _ _) hn)]

/-- The search ends no later than where nothing is in use any more. -/
theorem findSlots_lt {m3Slots : Nat → Nat} {numSlots fuel start bound : Nat}
    (hfree : ∀ n, bound ≤ n → m3Slots n = 0) (hstart : start < bound + numSlots)
    (h : findSlots m3Slots numSlots d_m3MaxFunctionSlots fuel start = some slot) :
    slot < bound + numSlots := by
  induction fuel generalizing start with
  | zero => cases h
  | succ fuel ih =>
    rw [findSlots] at h
    split at h
    · rename_i hend
      split at h
      · cases h
        exact hstart
      · rename_i hused
        refine ih ?_ h
        by_contra hpast
        exact hused ⟨hend, hfree _ (by omega), hfree _ (by omega)⟩
    · cases h

/-- There are more places than slots in use, so one of them is free. -/
theorem exists_findSlots {m3Slots : Nat → Nat} {numSlots start : Nat} (hpos : 0 < numSlots)
    (used : Finset Nat)
    (hused : ∀ n, start ≤ n → n < d_m3MaxFunctionSlots → m3Slots n ≠ 0 → n ∈ used)
    (hroom : start + (used.card + 1) * numSlots ≤ d_m3MaxFunctionSlots) :
    ∃ slot, findSlots m3Slots numSlots d_m3MaxFunctionSlots d_m3MaxFunctionSlots start =
      some slot := by
  by_contra hnone
  have hnone : findSlots m3Slots numSlots d_m3MaxFunctionSlots d_m3MaxFunctionSlots start = none :=
    Option.eq_none_iff_forall_ne_some.mpr (not_exists.mp hnone)
  have hends : ∀ k ≤ used.card, start + k * numSlots + numSlots ≤ d_m3MaxFunctionSlots := by
    intro k hk
    have hle := Nat.mul_le_mul_right numSlots (Nat.add_le_add_right hk 1)
    rw [Nat.succ_mul] at hle
    omega
  have hfuel : used.card < d_m3MaxFunctionSlots := by
    have hle := Nat.le_mul_of_pos_right (used.card + 1) hpos
    omega
  -- the end of each place that is in use
  let blocked := fun k => if m3Slots (start + k * numSlots) ≠ 0 then start + k * numSlots
    else start + k * numSlots + (numSlots - 1)
  have hcard := Finset.card_le_card_of_injOn (s := Finset.range (used.card + 1)) (t := used) blocked
    ?_ ?_
  · rw [Finset.card_range] at hcard
    omega
  · intro k hk
    have hk : k ≤ used.card := Nat.le_of_lt_succ (Finset.mem_range.mp hk)
    have hend := hends k hk
    have hplace := findSlots_none hnone (Nat.lt_of_le_of_lt hk hfuel) (by omega)
    simp only [blocked]
    split
    · rename_i hfirst
      exact hused _ (by omega) (by omega) hfirst
    · rename_i hfirst
      exact hused _ (by omega) (by omega) (hplace.resolve_left hfirst)
  · refine (strictMono_nat_of_lt_succ fun k => ?_).injective.injOn
    -- the places are apart
    have hnext : (k + 1) * numSlots = k * numSlots + numSlots := Nat.succ_mul k numSlots
    simp only [blocked]
    split <;> split <;> omega

theorem allocateSlots_eq {start endSlot : Nat}
    (h : o.allocateSlotsWithinRange type start endSlot = .ok (slot, o')) :
    o' = o.markSlots slot (getTypeNumSlots type) ∧
      findSlots o.m3Slots (getTypeNumSlots type) endSlot d_m3MaxFunctionSlots
        (alignSlotToType start type) = some slot := by
  simp only [allocateSlotsWithinRange] at h
  split at h
  · rename_i found hfound
    cases h
    exact ⟨rfl, hfound⟩
  · cases h

/-- The slots found for a type of one or two slots are free ones. -/
theorem allocateSlots_free {start endSlot : Nat}
    (h : o.allocateSlotsWithinRange type start endSlot = .ok (slot, o'))
    (hsmall : getTypeNumSlots type ≤ 2) :
    start ≤ slot ∧ slot + getTypeNumSlots type ≤ endSlot ∧
      slot + getTypeNumSlots type ≤ d_m3MaxFunctionSlots ∧
      ∀ n, slot ≤ n → n < slot + getTypeNumSlots type → o.m3Slots n = 0 := by
  rcases findSlots_some (allocateSlots_eq h).2 with ⟨hstart, hend, hmax, hfirst, hlast⟩
  have hpos := getTypeNumSlots_pos type
  have halign := le_alignSlotToType start type
  refine ⟨by omega, by omega, by omega, fun n hlow hhigh => ?_⟩
  have hn : n = slot ∨ n = slot + (getTypeNumSlots type - 1) := by omega
  rcases hn with rfl | rfl
  · exact hfirst
  · exact hlast

/-! ## Giving them back -/

theorem deallocateSlots_eq (o : M3Compilation) (slot k : Nat) : o.deallocateSlots slot k =
    { o with m3Slots := fun n =>
        if slot ≤ n ∧ n < slot + k then (o.m3Slots n + 255) % 256 else o.m3Slots n } := by
  induction k generalizing o slot with
  | zero =>
    have hslots : o.m3Slots = fun n =>
        if slot ≤ n ∧ n < slot + 0 then (o.m3Slots n + 255) % 256 else o.m3Slots n := by
      funext n
      rw [if_neg (by omega)]
    rw [deallocateSlots, ← hslots]
  | succ k ih =>
    rw [deallocateSlots, ih]
    have hslots : (fun n => if slot + 1 ≤ n ∧ n < slot + 1 + k then
          (Function.update o.m3Slots slot ((o.m3Slots slot + 255) % 256) n + 255) % 256
        else Function.update o.m3Slots slot ((o.m3Slots slot + 255) % 256) n) =
        fun n => if slot ≤ n ∧ n < slot + (k + 1) then (o.m3Slots n + 255) % 256
          else o.m3Slots n := by
      funext n
      by_cases hn : n = slot
      · rw [if_neg (by omega), hn, Function.update_self, if_pos (by omega)]
      · rw [Function.update_of_ne hn]
        by_cases hin : slot + 1 ≤ n ∧ n < slot + 1 + k
        · rw [if_pos hin, if_pos (by omega)]
        · rw [if_neg hin, if_neg (by omega)]
    simp only [hslots]

/-- Above what `GetMaxUsedSlotPlusOne` finds, nothing is in use. -/
theorem maxUsedSlot_spec {m3Slots : Nat → Nat} {first top : Nat} (hfirst : first ≤ top) :
    first ≤ maxUsedSlot m3Slots first top ∧ maxUsedSlot m3Slots first top ≤ top ∧
      ∀ n, maxUsedSlot m3Slots first top ≤ n → n < top → m3Slots n = 0 := by
  induction top with
  | zero => exact ⟨hfirst, Nat.le_refl _, fun n _ hn => absurd hn (Nat.not_lt_zero n)⟩
  | succ top ih =>
    rw [maxUsedSlot]
    split
    · rename_i hunused
      rcases ih (by omega) with ⟨hlow, hhigh, hfree⟩
      refine ⟨hlow, Nat.le_succ_of_le hhigh, fun n hn hlt => ?_⟩
      by_cases htop : n = top
      · rw [htop]
        exact hunused.2
      · exact hfree n hn (by omega)
    · exact ⟨hfirst, Nat.le_refl _, fun n hn hlt => absurd hlt (Nat.not_lt.mpr hn)⟩

/-! ## Counting -/

/-- The entry `i` of the stack covers the slot `n`. -/
def Covers (wasmStack : Nat → Nat) (typeStack : Nat → M3ValueType) (i n : Nat) : Prop :=
  wasmStack i ≤ n ∧ n < wasmStack i + getTypeNumSlots (typeStack i)

instance (wasmStack : Nat → Nat) (typeStack : Nat → M3ValueType) (i n : Nat) :
    Decidable (Covers wasmStack typeStack i n) := inferInstanceAs (Decidable (_ ∧ _))

section

variable {P Q : Nat → Prop} [DecidablePred P] [DecidablePred Q] {i : Nat}

theorem count_congr (h : ∀ j < k, P j ↔ Q j) : Nat.count P k = Nat.count Q k :=
  Nat.le_antisymm (Nat.count_mono_left fun j hj => (h j hj).mp)
    (Nat.count_mono_left fun j hj => (h j hj).mpr)

/-- One entry that changes makes the only difference. -/
theorem count_change (hi : i < k) (h : ∀ j < k, j ≠ i → (P j ↔ Q j)) :
    Nat.count P k + (if Q i then 1 else 0) = Nat.count Q k + (if P i then 1 else 0) := by
  induction k with
  | zero => exact absurd hi (Nat.not_lt_zero i)
  | succ k ih =>
    rw [Nat.count_succ, Nat.count_succ]
    by_cases hik : i = k
    · subst hik
      rw [count_congr fun j hj => h j (Nat.lt_succ_of_lt hj) (Nat.ne_of_lt hj)]
      omega
    · have hlast := h k (Nat.lt_succ_self k) (Ne.symm hik)
      have hrest := ih (by omega) fun j hj => h j (Nat.lt_succ_of_lt hj)
      simp only [hlast]
      omega

end

end WebAssemblyRuntime.Wasm3.M3Compilation
