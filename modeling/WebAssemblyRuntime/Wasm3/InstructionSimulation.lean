import WebAssemblyRuntime.Wasm3.SlotSimulation

/-!
# InstructionSimulation — the code of the instructions that stay in their block

A pop changes only what the compiler knows, a push also where the machine has the new value.  With
these, each instruction comes down to the one operation it is compiled to.
-/

namespace WebAssemblyRuntime.Wasm3

open M3Compilation
open Reasoning (bind_ok)

variable {L : Activation} {targets : Nat → PC} {fn : M3FuncType} {active : List Nat}
  {o o' o'' : M3Compilation} {ρ ρ' : Nat → Value} {f f' : Frame} {st st' st'' : M3State}
  {pc pc' pc'' : PC} {n i k slot room : Nat} {v : Value} {rest : List Value} {σ : Store}
  {type : M3ValueType} {Φ : M3Ret → M3State → Prop}

/-- The code between `o` and `o'` leads to the frame `f'`. -/
def Steps (L : Activation) (o o' : M3Compilation) (ρ : Nat → Value) (st : M3State) (f' : Frame) :
    Prop :=
  ∃ ρ' st', L.Reaches o.getPC st o'.getPC st' ∧ SameBelow o ρ ρ' ∧ Matches L o' ρ' f' st'

theorem Steps.ends (h : Steps L o o' ρ st f') (haccepts : Accepts L targets o o' ρ Φ (.normal f')) :
    L.Ends o.getPC st Φ := by
  rcases h with ⟨ρ', st', hreaches, hsame, hmatches⟩
  exact hreaches Φ (haccepts ρ' st' hsame hmatches)

theorem SameBelow.refl (o : M3Compilation) (ρ : Nat → Value) : SameBelow o ρ ρ := fun _ _ _ => rfl

theorem SameBelow.trans {ρ'' : Nat → Value} (h : SameBelow o ρ ρ') (h' : SameBelow o ρ' ρ'') :
    SameBelow o ρ ρ'' :=
  fun i hlow hi => (h' i hlow hi).trans (h i hlow hi)

theorem SameBelow.of_ext (h : SameBelow o' ρ ρ') (hext : Ext active o o') : SameBelow o ρ ρ' := by
  intro i hlow hi
  refine h i ?_ ?_
  · rw [hext.stackFirstDynamicIndex]
    exact hlow
  · rw [hext.block.blockStackIndex]
    exact hi

/-! ## Pops -/

theorem Matches.of_emitted (h : Matches L o ρ f st) (hemitted : Emitted o o') :
    Matches L o' ρ f st := by
  have hholds := h.holds.of_emitted hemitted
  rw [hemitted] at hholds ⊢
  exact ⟨hholds, h.reachable, h.stack, h.locals, h.store⟩

theorem HoldsBelow.pop (h : HoldsBelow L o n ρ st) (ho : o.pop = .ok o') :
    HoldsBelow L o' n ρ st := by
  rcases pop_cases ho with ⟨-, -, rfl⟩ | ⟨k, -, -, ⟨-, rfl⟩ | ⟨-, -, rfl⟩ | ⟨-, -, rfl⟩⟩
  · exact h
  · exact ⟨h.typed, h.located, h.constants⟩
  · rw [deallocateSlots_eq]
    exact ⟨h.typed, h.located, h.constants⟩
  · exact ⟨h.typed, h.located, h.constants⟩

theorem pop_base (h : o.pop = .ok o') : o'.stackFirstDynamicIndex = o.stackFirstDynamicIndex := by
  rcases pop_cases h with ⟨-, -, rfl⟩ | ⟨k, -, -, ⟨-, rfl⟩ | ⟨-, -, rfl⟩ | ⟨-, -, rfl⟩⟩
  · rfl
  · rfl
  · rw [deallocateSlots_eq]
  · rfl

/-- A pop writes no code. -/
theorem pop_code (h : o.pop = .ok o') : o'.rt = o.rt ∧ o'.page = o.page := by
  rcases pop_cases h with ⟨-, -, rfl⟩ | ⟨k, -, -, ⟨-, rfl⟩ | ⟨-, -, rfl⟩ | ⟨-, -, rfl⟩⟩
  · exact ⟨rfl, rfl⟩
  · exact ⟨rfl, rfl⟩
  · rw [deallocateSlots_eq]
    exact ⟨rfl, rfl⟩
  · exact ⟨rfl, rfl⟩

theorem Matches.pop (h : Matches L o ρ f st) (hstack : f.stack = v :: rest)
    (ho : o.pop = .ok o') : Matches L o' ρ { f with stack := rest } st := by
  have hstacked := h.stack
  rw [hstack] at hstacked
  rcases hstacked with ⟨k, hk, -, hrest⟩
  have hle := hrest.le
  have hindex : o'.stackIndex = k := by
    rw [pop_stackIndex ho, if_pos (by omega), hk, Nat.add_sub_cancel]
  have hblock := (pop_scopes ho).1
  refine ⟨?_, ?_, ?_, ?_, h.store⟩
  · rw [hindex]
    exact (h.holds.mono (by omega)).pop ho
  · rw [hblock]
    exact h.reachable
  · rw [hblock, hindex]
    exact hrest
  · rw [pop_base ho]
    exact h.locals

theorem Matches.emitSlotNumOfStackTopAndPop (h : Matches L o ρ f st) (hstack : f.stack = v :: rest)
    (ho : o.emitSlotNumOfStackTopAndPop = .ok o') : Matches L o' ρ { f with stack := rest } st := by
  rw [M3Compilation.emitSlotNumOfStackTopAndPop] at ho
  split at ho
  · exact h.pop hstack ho
  · exact (h.of_emitted (emitted_emit _)).pop hstack ho

/-- The top of the stack, where the compiler has it. -/
theorem Matches.top (h : Matches L o ρ f st) (hstack : f.stack = v :: rest) :
    ∃ k, o.stackIndex = k + 1 ∧ o.block.blockStackIndex ≤ k ∧ ρ k = v ∧
      Stacked ρ o.block.blockStackIndex k rest := by
  have hstacked := h.stack
  rw [hstack] at hstacked
  rcases hstacked with ⟨k, hk, hv, hrest⟩
  exact ⟨k, hk, hrest.le, hv, hrest⟩

/-- What the compiler has of a new entry. -/
structure Pushed (o : M3Compilation) (type : M3ValueType) (slot : Nat) (o' : M3Compilation) :
    Prop where
  shape : SameShape o o'
  index : o'.stackIndex = o.stackIndex + 1
  slots : o'.wasmStack = Function.update o.wasmStack o.stackIndex slot
  types : o'.typeStack = Function.update o.typeStack o.stackIndex type

theorem push_allocated (halloc : o.allocateSlots type = .ok (slot, o''))
    (h : o''.push type slot = .ok o') : Pushed o type slot o' := by
  have heq := (allocateSlots_eq halloc).1
  rw [markSlots_type] at heq
  subst heq
  rcases push_eq h with ⟨-, rfl⟩
  exact ⟨⟨rfl, rfl, rfl, rfl, rfl, rfl, rfl, rfl, Nat.le_max_left _ _, max_le_max_right _⟩, rfl, rfl, rfl⟩

theorem Pushed.others (h : Pushed o type slot o') : ∀ i < o'.stackIndex, i ≠ o.stackIndex →
    i < o.stackIndex ∧ o'.wasmStack i = o.wasmStack i ∧ o'.typeStack i = o.typeStack i := by
  intro i hi hne
  rw [h.index] at hi
  rw [h.slots, h.types, Function.update_of_ne hne, Function.update_of_ne hne]
  exact ⟨by omega, rfl, rfl⟩

theorem Pushed.top (h : Pushed o type slot o') :
    o'.wasmStack o.stackIndex = slot ∧ o'.typeStack o.stackIndex = type := by
  rw [h.slots, h.types, Function.update_self, Function.update_self]
  exact ⟨rfl, rfl⟩

/-- A value that has a place already. -/
theorem Pushed.holds (h : Pushed o v.type.valueType slot o') (hholds : HoldsBelow L o o.stackIndex ρ st)
    (hat : Located L.sp st slot v) :
    HoldsBelow L o' o'.stackIndex (Function.update ρ o.stackIndex v) st := by
  refine hholds.put h.shape h.others h.top.2 (fun i hi _ hheld => hholds.located i hi hheld) ?_
    hholds.constants
  rw [h.top.1]
  exact hat

theorem Pushed.matches (h : Pushed o type slot o') (hm : Matches L o ρ f st)
    (hbase : o.stackFirstDynamicIndex ≤ o.stackIndex)
    (hholds : HoldsBelow L o' o'.stackIndex (Function.update ρ o.stackIndex v) st')
    (hstore : st'.store = σ) : Matches L o' (Function.update ρ o.stackIndex v)
      { f with stack := v :: f.stack, store := σ } st' := by
  refine ⟨hholds, ?_, ?_, fun i => ?_, hstore⟩
  · rw [h.shape.block]
    exact hm.reachable
  · rw [h.shape.block, h.index]
    exact hm.stack.push
  · rw [h.shape.stackFirstDynamicIndex]
    refine (hm.locals i).trans ?_
    by_cases hi : i < o.stackFirstDynamicIndex
    · rw [if_pos hi, if_pos hi, Function.update_of_ne (by omega)]
    · rw [if_neg hi, if_neg hi]

theorem Pushed.getPC_eq (h : Pushed o type slot o') : o'.getPC = o.getPC := by
  rw [getPC, getPC, h.shape.rt, h.shape.page]

/-- What lies below the current block is below every entry that is pushed. -/
theorem SameBelow.update (hle : o.block.blockStackIndex ≤ k) :
    SameBelow o ρ (Function.update ρ k v) :=
  fun _ _ hi => Function.update_of_ne (by omega) ..

/-- The constant table has the value for the slot. -/
structure TableHas (o : M3Compilation) (slot : Nat) (v : Value) : Prop where
  low : o.slotFirstConstIndex ≤ slot
  high : slot + v.type.numSlots ≤ o.slotFirstDynamicIndex
  used : ∀ n, slot ≤ n → n < slot + v.type.numSlots → o.m3Slots n ≠ 0
  bits : readSlot v.type o.constants (slot - o.slotFirstConstIndex) = v.bits

theorem readSlot_shift {t : IntType} {slots slots' : Nat → BitVec 32} {m : Nat}
    (h : ∀ d < t.numSlots, slots (n + d) = slots' (m + d)) :
    readSlot t slots n = readSlot t slots' m := by
  cases t with
  | i32 => exact h 0 (by decide)
  | i64 =>
    have hlow : slots n = slots' m := h 0 (by decide)
    have hhigh : slots (n + 1) = slots' (m + 1) := h 1 (by decide)
    rw [readSlot, readSlot, hlow, hhigh]

/-- When the code runs, the slot has what the compiler put in the table. -/
theorem TableHas.located (h : TableHas o slot v) (hgood : Good fn active o)
    (hlinked : Linked L targets o) (hconstants : ∀ m < L.numConstants,
      st.slots (L.sp + (o.slotFirstConstIndex + m)) = L.constants m) :
    Located L.sp st slot v := by
  have hlow := h.low
  have hhigh := h.high
  have hdynamic := hgood.frame.layout.dynamic
  have halias := slots_lt_alias
  have hpos := v.type.numSlots_pos
  rw [located_slot (by omega), ← h.bits]
  refine readSlot_shift fun d hd => ?_
  have hconstant := hlinked.constants (slot + d) (by omega) (by omega)
    (h.used _ (by omega) (by omega))
  obtain ⟨m, rfl⟩ : ∃ m, slot = o.slotFirstConstIndex + m :=
    ⟨slot - o.slotFirstConstIndex, by omega⟩
  have hindex : o.slotFirstConstIndex + m - o.slotFirstConstIndex = m := by omega
  have hindex' : o.slotFirstConstIndex + m + d - o.slotFirstConstIndex = m + d := by omega
  have hplace : L.sp + (o.slotFirstConstIndex + m) + d = L.sp + (o.slotFirstConstIndex + (m + d)) := by
    omega
  rw [hindex'] at hconstant
  rw [hindex, hplace, hconstants (m + d) hconstant.1]
  exact hconstant.2

end WebAssemblyRuntime.Wasm3
