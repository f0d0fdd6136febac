import WebAssemblyRuntime.Wasm3.StackInvariant

/-!
# CompileKeeps — the register, references to locals, copies and pops

Every function of the compiler keeps the invariant; these are the ones that the compilers of
instructions share.
-/

namespace WebAssemblyRuntime.Wasm3.M3Compilation

open Reasoning (bind_ok)

variable {fn : M3FuncType} {active : List Nat} {o o' o'' : M3Compilation} {type : M3ValueType}
  {slot room i n : Nat}

theorem getStackTypeFromBottom_of_lt (h : i < o.stackIndex) :
    o.getStackTypeFromBottom i = o.typeStack i := if_pos h

theorem getSlotForStackIndex_of_lt (h : i < o.stackIndex) :
    o.getSlotForStackIndex i = o.wasmStack i := if_pos h

theorem emitted_emit (w : CodeWord) : Emitted o (o.emit w) := rfl

theorem emitted_emitOp {op : M3Op} (h : o.emitOp op = .ok o') : Emitted o o' := by
  rcases emitOp_eq h with ⟨o₁, ho₁, rfl⟩
  exact Emitted.trans (ensureCodePageNumLines_eq ho₁) (emitted_emit _)

/-! ## The register -/

theorem preserveRegister_cases (h : o.preserveRegisterIfOccupied = .ok o') :
    o.regStackIndexPlusOne = 0 ∧ o' = o ∨
    o.regStackIndexPlusOne ≠ 0 ∧
      let type := o.getStackTypeFromBottom (o.regStackIndexPlusOne - 1)
      ∃ slot o₁ o₂, ({ o with regStackIndexPlusOne := 0 } : M3Compilation).allocateSlots type =
          .ok (slot, o₁) ∧
        (o₁.setStackSlot (o.regStackIndexPlusOne - 1) slot).emitOp (setSetOps type) = .ok o₂ ∧
        o' = o₂.emit (.slot slot) := by
  rw [preserveRegisterIfOccupied, isRegisterAllocated] at h
  by_cases hreg : o.regStackIndexPlusOne = 0
  · rw [if_neg (by simp [hreg])] at h
    cases h
    exact .inl ⟨hreg, rfl⟩
  · rw [if_pos (by simp [hreg])] at h
    rcases bind_ok h with ⟨⟨slot, o₁⟩, halloc, h⟩
    simp only at h
    split at h
    · cases h
    · rcases bind_ok h with ⟨o₂, hemit, h⟩
      cases h
      exact .inr ⟨hreg, slot, o₁, o₂, halloc, hemit, rfl⟩

/-- The place of the entry in the register, the entry itself, and where it goes. -/
theorem Good.preserveRegisterIfOccupied (h : Good fn active o)
    (ho : o.preserveRegisterIfOccupied = .ok o') :
    Kept fn active 0 o o' ∧ o'.regStackIndexPlusOne = 0 ∧ o'.stackIndex = o.stackIndex ∧
      o'.typeStack = o.typeStack := by
  rcases preserveRegister_cases ho with ⟨hreg, rfl⟩ | ⟨hreg, slot, o₁, o₂, halloc, hemit, rfl⟩
  · exact ⟨.refl h h.room, hreg, rfl, rfl⟩
  · rcases h.slots.register hreg with ⟨hlow, hhigh, hat⟩
    have hlt : o.regStackIndexPlusOne - 1 < o.stackIndex := by omega
    rw [getStackTypeFromBottom_of_lt hlt] at halloc
    have hsmall := h.slots.small _ hlt
    rcases allocateSlots_spec hsmall halloc with ⟨heq, hslot, hend, hfree⟩
    have hset : Kept fn active 0 o (o₁.setStackSlot (o.regStackIndexPlusOne - 1) slot) := by
      refine h.setAllocated (i := o.regStackIndexPlusOne - 1) h.room (by omega) hlt
        (.inl ⟨hat, by omega⟩) hslot hend hfree ?_
      rw [heq, markSlots_type, markSlots_type, if_pos hat]
      rfl
    have hop := hset.good.emitOp hemit
    have hword := hop.good.emit (w := .slot slot) hop.room
    have hemitted := emitted_emitOp hemit
    refine ⟨((hset.trans hop).trans hword).mono (Nat.zero_le _), ?_, ?_, ?_⟩
    · rw [M3Compilation.emit, hemitted, heq, markSlots_type]
      rfl
    · rw [M3Compilation.emit, hemitted, heq, markSlots_type]
      rfl
    · rw [M3Compilation.emit, hemitted, heq, markSlots_type]
      rfl

theorem Good.preserveNonTopRegisters (h : Good fn active o)
    (ho : o.preserveNonTopRegisters = .ok o') :
    Kept fn active 0 o o' ∧ o'.stackIndex = o.stackIndex ∧ o'.typeStack = o.typeStack ∧
      (o'.regStackIndexPlusOne = 0 ∨ o'.regStackIndexPlusOne = o'.stackIndex) := by
  rw [M3Compilation.preserveNonTopRegisters] at ho
  by_cases hne : 0 ≤ o.getStackTopIndex ∧ o.isRegisterAllocated = true ∧
      ((o.regStackIndexPlusOne - 1 : Nat) : Int) ≠ o.getStackTopIndex
  · rw [if_pos hne] at ho
    rcases h.preserveRegisterIfOccupied ho with ⟨hkept, hreg, hindex, htypes⟩
    exact ⟨hkept, hindex, htypes, .inl hreg⟩
  · rw [if_neg hne] at ho
    cases ho
    refine ⟨.refl h h.room, rfl, rfl, ?_⟩
    by_cases hreg : o.regStackIndexPlusOne = 0
    · exact .inl hreg
    · have hregister := h.slots.register hreg
      simp only [getStackTopIndex, isRegisterAllocated, decide_eq_true_eq] at hne
      right
      omega

/-- If a value is in the register, it is one of the top `m`; unreachable code is not looked at. -/
def TopRegister (o : M3Compilation) (m : Nat) : Prop :=
  o.block.isPolymorphic = false → o.regStackIndexPlusOne ≠ 0 →
    o.stackIndex < o.regStackIndexPlusOne + m

theorem TopRegister.of_eq_zero (h : o.regStackIndexPlusOne = 0) : TopRegister o n :=
  fun _ hne => absurd h hne

theorem isStackIndexInRegister_natCast :
    o.isStackIndexInRegister (i : Int) = (decide (i < o.stackIndex) &&
      decide (d_m3Reg0SlotAlias ≤ o.wasmStack i)) := by
  rw [isStackIndexInRegister]
  by_cases hlt : i < o.stackIndex
  · rw [if_pos (by omega), Int.toNat_natCast, decide_eq_true hlt, Bool.true_and]
  · rw [if_neg (by omega), decide_eq_false hlt, Bool.false_and]

theorem isStackTopMinusInRegister_eq {k : Nat} (h : o.stackIndex = k + 1 + n) :
    o.isStackTopMinusInRegister n = decide (d_m3Reg0SlotAlias ≤ o.wasmStack k) := by
  have hindex : o.getStackTopIndex - n = (k : Int) := by
    rw [getStackTopIndex]
    omega
  rw [isStackTopMinusInRegister, hindex, isStackIndexInRegister_natCast,
    decide_eq_true (show k < o.stackIndex by omega), Bool.true_and]

theorem isStackTopMinusInRegister_false (h : o.stackIndex ≤ n) :
    o.isStackTopMinusInRegister n = false := by
  rw [isStackTopMinusInRegister, isStackIndexInRegister, getStackTopIndex, if_neg (by omega)]

theorem Good.topRegister (h : Good fn active o) (hin : o.isStackTopMinusInRegister n = true) :
    TopRegister o (n + 1) := by
  intro hpoly hne
  rcases h.slots.register hne with ⟨hlow, hhigh, hat⟩
  by_cases hheight : o.stackIndex ≤ n
  · rw [isStackTopMinusInRegister_false hheight] at hin
    cases hin
  · obtain ⟨k, hk⟩ : ∃ k, o.stackIndex = k + 1 + n := ⟨o.stackIndex - 1 - n, by omega⟩
    rw [isStackTopMinusInRegister_eq hk, decide_eq_true_iff] at hin
    by_cases hblock : o.block.blockStackIndex ≤ k
    · have hlt : k < o.stackIndex := by omega
      by_cases hreg : o.wasmStack k = d_m3Reg0SlotAlias
      · have hunique := h.slots.unique hpoly k (Nat.le_trans h.frame.base_le hblock) hlt
          (h.frame.open_of_le hblock) hreg
        omega
      · have hslot := h.slot_lt hblock hlt hreg
        have halias := slots_lt_alias
        omega
    · omega

theorem Good.pop_topRegister (h : Good fn active o) (ho : o.pop = .ok o')
    (htop : TopRegister o (n + 1)) : TopRegister o' n := by
  rcases pop_cases ho with ⟨-, hpoly, rfl⟩ | ⟨k, hk, hblock, hcase⟩
  · intro hnot
    rw [hpoly] at hnot
    cases hnot
  · have hiff := h.isRegisterSlotAlias_iff hblock (show k < o.stackIndex by omega)
    have hkeep : isRegisterSlotAlias (o.wasmStack k) = false → o.block.isPolymorphic = false →
        o.regStackIndexPlusOne ≠ 0 → k < o.regStackIndexPlusOne + n := by
      intro hreg hpoly hne
      have hlt := htop hpoly hne
      omega
    rcases hcase with ⟨-, rfl⟩ | ⟨hreg, -, rfl⟩ | ⟨hreg, -, rfl⟩
    · exact .of_eq_zero rfl
    · rw [deallocateSlots_eq]
      exact hkeep hreg
    · exact hkeep hreg

/-- With nothing of the register on the stack, it is free. -/
theorem Good.register_free (h : Good fn active o) (htop : TopRegister o 0)
    (hpoly : o.block.isPolymorphic = false) : o.regStackIndexPlusOne = 0 := by
  by_contra hne
  have hlt := htop hpoly hne
  have hregister := h.slots.register hne
  omega

/-! ## References to locals -/

theorem referenceStart_le {fn : M3FuncType} {base : Nat} {c : M3CompilationScope}
    {outer : List M3CompilationScope} (h : Scoped fn base c outer) :
    base ≤ referenceStart c outer ∧ referenceStart c outer ≤ c.blockStackIndex := by
  induction outer generalizing c with
  | nil => exact ⟨h.base_le, Nat.le_refl _⟩
  | cons next rest ih =>
    rw [referenceStart]
    split
    · rcases h with ⟨hblock, -, -, -, hnext, hrest⟩
      have hinner := ih hrest
      exact ⟨hinner.1, by omega⟩
    · exact ⟨h.base_le, Nat.le_refl _⟩

/-- An entry in the slot of a local is one of the current block, with the type of the local. -/
theorem Good.reference (h : Good fn active o) {j : Nat} (hj : j < o.stackFirstDynamicIndex)
    (hi : o.stackFirstDynamicIndex ≤ i) (hlt : i < o.stackIndex)
    (heq : o.wasmStack i = o.wasmStack j) :
    o.block.blockStackIndex ≤ i ∧ o.typeStack i = o.typeStack j := by
  have hlayout := h.frame.layout
  have hlocal := hlayout.locals j hj
  have hpos := getTypeNumSlots_pos (o.typeStack j)
  have hconsts := hlayout.consts
  have hopen : Open o.scopes i := by
    intro c hmem
    by_contra hnot
    rcases h.frame.nested.of_mem c hmem with ⟨-, hblock, -⟩ | ⟨hfunction, hblock, hmvp⟩
    · omega
    have hlength := hmvp.rets
    have hexit : i = c.exitStackIndex := by omega
    have hrets : c.type.rets ≠ [] := by
      intro hnil
      rw [hnil, List.length_nil] at hblock
      omega
    have hlow := (h.frame.recorded c hmem hfunction hrets).low
    rw [← hexit, heq] at hlow
    omega
  cases h.slots.entries i hi hlt hopen with
  | ofLocal k hk hslot htype hblock =>
    have hcover : Covers o.wasmStack o.typeStack k (o.wasmStack j) := by
      have hposk := getTypeNumSlots_pos (o.typeStack k)
      rw [Covers]
      omega
    have hsame := hlayout.apart k hk j hj _ hcover ⟨Nat.le_refl _, by omega⟩
    rw [hsame] at htype
    exact ⟨hblock, htype⟩
  | constant hlow hhigh hused => omega
  | dynamic hlow hhigh => omega
  | register hat =>
    have halias := slots_lt_alias
    have hdynamic := hlayout.dynamic
    omega

/-- `FindReferencedLocalWithinCurrentBlock` for the local `j`, up to the entry `k`: the references
among those moved to `p`. -/
structure References (fn : M3FuncType) (active : List Nat) (room : Nat) (o : M3Compilation)
    (j k p : Nat) (o' : M3Compilation) : Prop where
  kept : Kept fn active room o o'
  shape : SameShape o o'
  index : o'.stackIndex = o.stackIndex
  types : o'.typeStack = o.typeStack
  register : o'.regStackIndexPlusOne = o.regStackIndexPlusOne
  others : ∀ i, o.wasmStack i ≠ o.wasmStack j ∨ k ≤ i → o'.wasmStack i = o.wasmStack i
  moved : ∀ i, o.block.blockStackIndex ≤ i → i < k → o.wasmStack i = o.wasmStack j →
    o'.wasmStack i = p
  unreferenced : p = o.wasmStack j → o' = o ∧
    ∀ i, o.block.blockStackIndex ≤ i → i < k → o.wasmStack i ≠ o.wasmStack j
  referenced : p ≠ o.wasmStack j → o.slotFirstDynamicIndex ≤ p ∧
    p + getTypeNumSlots (o.typeStack j) ≤ d_m3MaxFunctionSlots ∧
    (∀ n, p ≤ n → n < p + getTypeNumSlots (o.typeStack j) → o.m3Slots n = 0) ∧ o'.m3Slots p ≠ 0
  seen : p ≠ o.wasmStack j →
    ∃ i, o.block.blockStackIndex ≤ i ∧ i < k ∧ o.wasmStack i = o.wasmStack j

/-- If the local `j` takes two slots, one entry of the current block refers to it at most. -/
def Single (o : M3Compilation) (j : Nat) : Prop :=
  getTypeNumSlots (o.typeStack j) = 1 ∨
    ∀ i i', o.block.blockStackIndex ≤ i → i < i' → i' < o.stackIndex →
      o.wasmStack i = o.wasmStack j → o.wasmStack i' ≠ o.wasmStack j

/-- One entry of the loop.  A second reference is counted in one slot only, so the local must be of
one slot then. -/
theorem References.step {j k p p' : Nat} (h : References fn active room o j k p o')
    (hgood : Good fn active o) (hj : j < o.stackFirstDynamicIndex)
    (hk : o.stackFirstDynamicIndex ≤ k) (hlt : k < o.stackIndex) (hsingle : Single o j)
    (ho : preserveReference (o.wasmStack j) (p, o') k = .ok (p', o'')) :
    References fn active room o j (k + 1) p' o'' := by
  simp only [preserveReference] at ho
  have hsame := h.others k (.inr (Nat.le_refl k))
  by_cases href : o'.wasmStack k = o.wasmStack j
  · rw [if_pos href] at ho
    have hat : o.wasmStack k = o.wasmStack j := hsame.symm.trans href
    rcases hgood.reference hj hk hlt hat with ⟨hblock, htype⟩
    have hlocal := hgood.frame.layout.locals j hj
    have hconsts := hgood.frame.layout.consts
    have hpos := getTypeNumSlots_pos (o.typeStack j)
    have hlt' : k < o'.stackIndex := h.index ▸ hlt
    have hblock' : o'.block.blockStackIndex ≤ k := h.shape.block ▸ hblock
    have htype' : o'.typeStack k = o.typeStack j := (congrFun h.types k).trans htype
    have hfrom : o'.wasmStack k + getTypeNumSlots (o'.typeStack k) ≤ o'.slotFirstDynamicIndex := by
      rw [href, htype', h.shape.slotFirstDynamicIndex]
      omega
    rw [getStackTypeFromBottom_of_lt hlt', htype'] at ho
    by_cases hp : p = o.wasmStack j
    · rw [if_pos hp] at ho
      rcases bind_ok ho with ⟨⟨q, o₁⟩, hfound, hset⟩
      cases hset
      rcases h.unreferenced hp with ⟨rfl, hnone⟩
      have hsmall := hgood.slots.small j (Nat.lt_of_lt_of_le hj (by omega))
      rcases allocateSlots_spec hsmall hfound with ⟨heq, hlow, hend, hfree⟩
      have hne : q ≠ o'.wasmStack j := by omega
      have halias : o'.wasmStack k ≠ d_m3Reg0SlotAlias := by
        have hdynamic := hgood.frame.layout.dynamic
        have halias := slots_lt_alias
        omega
      have hkept : Kept fn active room o' (o₁.setStackSlot k q) := by
        refine h.kept.good.setAllocated h.kept.room hblock hlt (.inr hfrom) hlow (htype ▸ hend)
          (htype ▸ hfree) ?_
        rw [heq, htype, markSlots_type, if_neg halias]
        rfl
      have hslots : o₁.m3Slots q ≠ 0 := by
        rw [heq, markSlots_type]
        simp only
        rw [if_pos (by omega)]
        decide
      rw [markSlots_type] at heq
      subst heq
      refine ⟨hkept,
        ⟨rfl, rfl, rfl, rfl, rfl, rfl, rfl, rfl, Nat.le_max_left _ _, max_le_max_right _⟩, rfl, rfl,
        rfl, fun i hi => ?_, fun i hlow' hi href' => ?_, fun heq => absurd heq hne,
        fun _ => ⟨hlow, hend, hfree, hslots⟩, fun _ => ⟨k, hblock, Nat.lt_succ_self k, hat⟩⟩
      · have hik : i ≠ k := by
          rintro rfl
          rcases hi with hi | hi
          · exact hi hat
          · omega
        exact Function.update_of_ne hik _ _
      · have hik : i = k := by
          by_contra hik
          exact hnone i hlow' (by omega) href'
        rw [hik]
        exact Function.update_self ..
    · rw [if_neg hp] at ho
      rcases h.referenced hp with ⟨hlow, hend, hfree, hused⟩
      rcases h.seen hp with ⟨first, hfirst, hbefore, hsecond⟩
      rcases hsingle with hone | hsingle
      · rcases bind_ok ho with ⟨o₁', hincrement, hpair⟩
        cases hpair
        have hkept := h.kept.good.shareSlot h.kept.room hblock' hlt' hfrom (htype' ▸ hone)
          (h.shape.slotFirstDynamicIndex ▸ hlow) (by omega) hused hincrement
        simp only [incrementSlotUsageCount] at hincrement
        split at hincrement
        · cases hincrement
          refine ⟨h.kept.trans hkept, ⟨h.shape.rt, h.shape.page, h.shape.block, h.shape.outer,
            h.shape.numArgsAndLocals, h.shape.stackFirstDynamicIndex, h.shape.slotFirstConstIndex,
            h.shape.slotFirstDynamicIndex, h.shape.maxStackSlots, h.shape.allocated⟩, h.index, h.types, h.register, fun i hi => ?_,
            fun i hlow' hi href' => ?_, fun heq => absurd heq hp,
            fun _ => ⟨hlow, hend, hfree, ?_⟩,
            fun _ => ⟨first, hfirst, by omega, hsecond⟩⟩
          · have hik : i ≠ k := by
              rintro rfl
              rcases hi with hi | hi
              · exact hi hat
              · omega
            refine (Function.update_of_ne hik _ _).trans (h.others i ?_)
            rcases hi with hi | hi
            · exact .inl hi
            · exact .inr (by omega)
          · by_cases hik : i = k
            · rw [hik]
              exact Function.update_self ..
            · exact (Function.update_of_ne hik _ _).trans (h.moved i hlow' (by omega) href')
          · simp only [setStackSlot, Function.update_self]
            exact Nat.succ_ne_zero _
        · cases hincrement
      · exact absurd hat (hsingle first k hfirst hbefore hlt hsecond)
  · rw [if_neg href] at ho
    cases ho
    have hnot : o.wasmStack k ≠ o.wasmStack j := hsame ▸ href
    refine ⟨h.kept, h.shape, h.index, h.types, h.register, fun i hi => ?_,
      fun i hlow hi href' => ?_, fun hp => ?_, h.referenced, fun hp => ?_⟩
    · apply h.others i
      rcases hi with hi | hi
      · exact .inl hi
      · exact .inr (by omega)
    · apply h.moved i hlow _ href'
      have hik : i ≠ k := fun hik => hnot (hik ▸ href')
      omega
    · refine ⟨(h.unreferenced hp).1, fun i hlow hi href' => ?_⟩
      have hik : i ≠ k := fun hik => hnot (hik ▸ href')
      exact (h.unreferenced hp).2 i hlow (by omega) href'
    · rcases h.seen hp with ⟨i, hlow, hi, href'⟩
      exact ⟨i, hlow, by omega, href'⟩

/-- The whole loop. -/
theorem Good.findReferencedLocal {j p : Nat} (h : Good fn active o)
    (hroom : Writable active room o) (hj : j < o.stackFirstDynamicIndex) (hsingle : Single o j)
    (ho : o.findReferencedLocal (o.wasmStack j) = .ok (p, o')) :
    References fn active room o j o.stackIndex p o' := by
  have hstart := referenceStart_le h.frame.nested
  have hheight := h.slots.height
  rw [M3Compilation.findReferencedLocal] at ho
  have hloop : ∀ (m k : Nat) (p : Nat) (o₁ : M3Compilation),
      o.stackFirstDynamicIndex ≤ k → k + m = o.stackIndex →
      References fn active room o j k p o₁ → ∀ {p' : Nat} {o₂ : M3Compilation},
      (List.range' k m).foldlM (preserveReference (o.wasmStack j)) (p, o₁) = .ok (p', o₂) →
      References fn active room o j o.stackIndex p' o₂ := by
    intro m
    induction m with
    | zero =>
      intro k p o₁ _ hend hrefs p' o₂ hfold
      cases hfold
      exact hend ▸ hrefs
    | succ m ih =>
      intro k p o₁ hk hend hrefs p' o₂ hfold
      rw [List.range'_succ, List.foldlM_cons] at hfold
      rcases bind_ok hfold with ⟨⟨p₁, o₁'⟩, hstep, hrest⟩
      exact ih (k + 1) p₁ o₁' (by omega) (by omega)
        (hrefs.step h hj hk (by omega) hsingle hstep) hrest
  refine hloop _ _ _ _ hstart.1 (by omega) ?_ ho
  refine ⟨.refl h hroom, ⟨rfl, rfl, rfl, rfl, rfl, rfl, rfl, rfl, Nat.le_refl _, id⟩, rfl, rfl, rfl, fun _ _ => rfl,
    fun i hlow hi _ => ?_, fun _ => ⟨rfl, fun i hlow hi => ?_⟩, fun hne => absurd rfl hne,
    fun hne => absurd rfl hne⟩
  · omega
  · omega

/-- No entry of the current block is in the slot of the local `j`. -/
def Unreferenced (o : M3Compilation) (j : Nat) : Prop :=
  ∀ i, o.block.blockStackIndex ≤ i → i < o.stackIndex → o.wasmStack i ≠ o.wasmStack j

theorem References.unreferenced_self {j p : Nat} (h : References fn active room o j o.stackIndex p o')
    (hgood : Good fn active o) (hj : j < o.stackFirstDynamicIndex) : Unreferenced o' j := by
  intro i hlow hlt
  rw [h.shape.block] at hlow
  rw [h.index] at hlt
  rw [(h.kept.ext.entries j (Nat.lt_of_lt_of_le hj hgood.frame.base_le)).1]
  by_cases hat : o.wasmStack i = o.wasmStack j
  · rw [h.moved i hlow hlt hat]
    intro hp
    exact (h.unreferenced hp).2 i hlow hlt hat
  · rw [h.others i (.inl hat)]
    exact hat

/-- No entry refers to a local that it did not refer to before. -/
theorem References.refers_before {j k p : Nat}
    (h : References fn active room o j o.stackIndex p o') (hgood : Good fn active o)
    (hk : k < o.stackFirstDynamicIndex) (hlow : o.block.blockStackIndex ≤ i)
    (hlt : i < o.stackIndex) (hat : o'.wasmStack i = o'.wasmStack k) :
    o.wasmStack i = o.wasmStack k := by
  rw [(h.kept.ext.entries k (Nat.lt_of_lt_of_le hk hgood.frame.base_le)).1] at hat
  by_cases href : o.wasmStack i = o.wasmStack j
  · rw [h.moved i hlow hlt href] at hat
    by_cases hp : p = o.wasmStack j
    · rw [href, ← hp]
      exact hat
    · have hdynamic := (h.referenced hp).1
      have hlocal := hgood.frame.layout.locals k hk
      have hconsts := hgood.frame.layout.consts
      have hpos := getTypeNumSlots_pos (o.typeStack k)
      omega
  · rw [h.others i (.inl href)] at hat
    exact hat

theorem References.unreferenced_other {j k p : Nat}
    (h : References fn active room o j o.stackIndex p o') (hgood : Good fn active o)
    (hk : k < o.stackFirstDynamicIndex) (hold : Unreferenced o k) :
    Unreferenced o' k := by
  intro i hlow hlt hat
  rw [h.shape.block] at hlow
  rw [h.index] at hlt
  exact hold i hlow hlt (h.refers_before hgood hk hlow hlt hat)

theorem References.single {j k p : Nat} (h : References fn active room o j o.stackIndex p o')
    (hgood : Good fn active o) (hk : k < o.stackFirstDynamicIndex) (hold : Single o k) :
    Single o' k := by
  rw [Single, h.types, h.shape.block, h.index]
  rcases hold with hone | hold
  · exact .inl hone
  · refine .inr fun i i' hlow hlt hlt' hat hat' => ?_
    exact hold i i' hlow hlt hlt' (h.refers_before hgood hk hlow (by omega) hat)
      (h.refers_before hgood hk (by omega) hlt' hat')

theorem Single.of_emitted {j : Nat} (h : Single o j) (hemitted : Emitted o o') : Single o' j := by
  rw [hemitted]
  exact h

theorem preserveLocal_cases (h : o.preserveLocal i = .ok o') :
    ∃ p o₁, o.findReferencedLocal (o.getSlotForStackIndex i) = .ok (p, o₁) ∧
      (p = o.getSlotForStackIndex i ∧ o' = o₁ ∨
        p ≠ o.getSlotForStackIndex i ∧
          ∃ o₂, o₁.emitOp (.copySlot (widthOf (o₁.getStackTypeFromBottom i))) = .ok o₂ ∧
            o' = (o₂.emit (.slot p)).emit (.slot (o.getSlotForStackIndex i))) := by
  rw [preserveLocal] at h
  rcases bind_ok h with ⟨⟨p, o₁⟩, hfind, h⟩
  refine ⟨p, o₁, hfind, ?_⟩
  simp only at h
  by_cases hp : p = o.getSlotForStackIndex i
  · rw [if_neg (not_not.mpr hp)] at h
    cases h
    exact .inl ⟨hp, rfl⟩
  · rw [if_pos hp] at h
    rcases bind_ok h with ⟨o₂, hemit, h⟩
    cases h
    exact .inr ⟨hp, o₂, hemit, rfl⟩

theorem Unreferenced.of_emitted {j : Nat} (h : Unreferenced o j) (hemitted : Emitted o o') :
    Unreferenced o' j := by
  rw [hemitted]
  exact h

theorem Good.preserveLocal {j : Nat} (h : Good fn active o) (hj : j < o.stackFirstDynamicIndex)
    (hsingle : Single o j) (ho : o.preserveLocal j = .ok o') :
    Kept fn active 0 o o' ∧ o'.stackIndex = o.stackIndex ∧ o'.block = o.block ∧
      o'.regStackIndexPlusOne = o.regStackIndexPlusOne ∧ Unreferenced o' j ∧
      ∀ k < o.stackFirstDynamicIndex,
        (Unreferenced o k → Unreferenced o' k) ∧ (Single o k → Single o' k) := by
  have hlt : j < o.stackIndex :=
    Nat.lt_of_lt_of_le hj (Nat.le_trans h.frame.base_le h.slots.height)
  rcases preserveLocal_cases ho with ⟨p, o₁, hfind, hcase⟩
  rw [getSlotForStackIndex_of_lt hlt] at hfind hcase
  have hrefs := h.findReferencedLocal h.room hj hsingle hfind
  have hself := hrefs.unreferenced_self h hj
  rcases hcase with ⟨-, rfl⟩ | ⟨-, o₂, hemit, rfl⟩
  · exact ⟨hrefs.kept, hrefs.index, hrefs.shape.block, hrefs.register, hself,
      fun k hk => ⟨hrefs.unreferenced_other h hk, hrefs.single h hk⟩⟩
  · have hop := hrefs.kept.good.emitOp hemit
    have hword := hop.good.emit (w := .slot p) hop.room
    have hword' := hword.good.emit (w := .slot (o.wasmStack j)) hword.room
    have hemitted : Emitted o₁ ((o₂.emit (.slot p)).emit (.slot (o.wasmStack j))) :=
      (emitted_emitOp hemit).trans (Emitted.trans (emitted_emit _) (emitted_emit _))
    refine ⟨(((hrefs.kept.trans hop).trans hword).trans hword').mono (Nat.zero_le _), ?_, ?_, ?_,
      hself.of_emitted hemitted,
      fun k hk => ⟨fun hold => (hrefs.unreferenced_other h hk hold).of_emitted hemitted,
        fun hold => (hrefs.single h hk hold).of_emitted hemitted⟩⟩
    · rw [hemitted]
      exact hrefs.index
    · rw [hemitted]
      exact hrefs.shape.block
    · rw [hemitted]
      exact hrefs.register

/-- Before a block no entry refers to a local. -/
theorem Good.preserveArgsAndLocals (h : Good fn active o)
    (hsingle : ∀ j < o.stackFirstDynamicIndex, Single o j)
    (ho : o.preserveArgsAndLocals = .ok o') :
    Kept fn active 0 o o' ∧ o'.stackIndex = o.stackIndex ∧ o'.block = o.block ∧
      o'.regStackIndexPlusOne = o.regStackIndexPlusOne ∧
      ∀ j < o.stackFirstDynamicIndex, Unreferenced o' j := by
  rw [M3Compilation.preserveArgsAndLocals] at ho
  split at ho
  · have hloop : ∀ (l : List Nat) (o₁ : M3Compilation), Good fn active o₁ →
        (∀ j ∈ l, j < o₁.stackFirstDynamicIndex) →
        (∀ j < o₁.stackFirstDynamicIndex, Single o₁ j) → ∀ {o₂ : M3Compilation},
        l.foldlM (M3Compilation.preserveLocal) o₁ = .ok o₂ →
        Kept fn active 0 o₁ o₂ ∧ o₂.stackIndex = o₁.stackIndex ∧ o₂.block = o₁.block ∧
          o₂.regStackIndexPlusOne = o₁.regStackIndexPlusOne ∧
          ∀ k < o₁.stackFirstDynamicIndex, Unreferenced o₁ k ∨ k ∈ l → Unreferenced o₂ k := by
      intro l
      induction l with
      | nil =>
        intro o₁ hgood _ _ o₂ hfold
        cases hfold
        exact ⟨.refl hgood hgood.room, rfl, rfl, rfl, fun k _ hk => by simpa using hk⟩
      | cons j l ih =>
        intro o₁ hgood hl hsingle o₂ hfold
        rw [List.foldlM_cons] at hfold
        rcases bind_ok hfold with ⟨o₁', hstep, hrest⟩
        have hj := hl j (List.mem_cons_self ..)
        rcases hgood.preserveLocal hj (hsingle j hj) hstep with
          ⟨hkept, hindex, hblock, hreg, hself, hothers⟩
        have hbase := hkept.ext.stackFirstDynamicIndex
        rcases ih o₁' hkept.good
          (fun k hk => by rw [hbase]; exact hl k (List.mem_cons_of_mem _ hk))
          (fun k hk => (hothers k (hbase ▸ hk)).2 (hsingle k (hbase ▸ hk))) hrest with
          ⟨hkept', hindex', hblock', hreg', hrest'⟩
        refine ⟨hkept.trans hkept', hindex'.trans hindex, hblock'.trans hblock, hreg'.trans hreg,
          fun k hk hcase => hrest' k (hbase ▸ hk) ?_⟩
        rcases hcase with hold | hmem
        · exact .inl ((hothers k hk).1 hold)
        · rcases List.mem_cons.mp hmem with rfl | hmem
          · exact .inl hself
          · exact .inr hmem
    have hnum := h.frame.layout.numArgsAndLocals
    rcases hloop _ o h (fun j hj => by rw [← hnum]; exact List.mem_range.mp hj) hsingle ho with
      ⟨hkept, hindex, hblock, hreg, hall⟩
    exact ⟨hkept, hindex, hblock, hreg,
      fun j hj => hall j hj (.inr (List.mem_range.mpr (hnum ▸ hj)))⟩
  · rename_i hempty
    cases ho
    refine ⟨.refl h h.room, rfl, rfl, rfl, fun j _ i hlow hlt => ?_⟩
    have hbase := h.frame.base_le
    omega

/-! ## Copies -/

theorem copyStackIndexToSlot_cases {dest : Nat} (h : o.copyStackIndexToSlot dest i = .ok o') :
    o.isStackIndexInRegister i = true ∧
      (∃ o₁, o.emitOp (setSetOps (o.getStackTypeFromBottom i)) = .ok o₁ ∧
        o' = o₁.emit (.slot dest)) ∨
    o.isStackIndexInRegister i = false ∧
      ∃ o₁, o.emitOp (.copySlot (widthOf (o.getStackTypeFromBottom i))) = .ok o₁ ∧
        o' = (o₁.emit (.slot dest)).emit (.slot (o.getSlotForStackIndex i)) := by
  simp only [copyStackIndexToSlot] at h
  cases hin : o.isStackIndexInRegister i with
  | true =>
    simp only [hin, if_true] at h
    rcases bind_ok h with ⟨o₁, hemit, h⟩
    cases h
    exact .inl ⟨rfl, o₁, hemit, rfl⟩
  | false =>
    simp only [hin, Bool.false_eq_true, if_false] at h
    rcases bind_ok h with ⟨o₁, hemit, h⟩
    cases h
    refine .inr ⟨rfl, o₁, hemit, ?_⟩
    rw [emitted_emitOp hemit]
    rfl

theorem Good.copyStackIndexToSlot {dest : Nat} (h : Good fn active o)
    (ho : o.copyStackIndexToSlot dest i = .ok o') : Kept fn active 3 o o' ∧ Emitted o o' := by
  rcases copyStackIndexToSlot_cases ho with ⟨-, o₁, hemit, rfl⟩ | ⟨-, o₁, hemit, rfl⟩
  · have hop := h.emitOp hemit
    have hword := hop.good.emit (w := .slot dest) hop.room
    exact ⟨(hop.trans hword).mono (by omega), (emitted_emitOp hemit).trans (emitted_emit _)⟩
  · have hop := h.emitOp hemit
    have hword := hop.good.emit (w := .slot dest) hop.room
    have hword' := hword.good.emit (w := .slot (o.getSlotForStackIndex i)) hword.room
    exact ⟨(hop.trans hword).trans hword',
      (emitted_emitOp hemit).trans (Emitted.trans (emitted_emit _) (emitted_emit _))⟩

theorem preservedCopyTopSlot_cases {dest preserve : Nat}
    (h : o.preservedCopyTopSlot dest preserve = .ok o') :
    o.isStackTopInRegister = true ∧
      (∃ o₁, o.emitOp (preserveSetSlotOps o.getStackTopType) = .ok o₁ ∧
        o' = (o₁.emit (.slot dest)).emit (.slot preserve)) ∨
    o.isStackTopInRegister = false ∧
      ∃ o₁, o.emitOp (.preserveCopySlot (widthOf o.getStackTopType)) = .ok o₁ ∧
        o' = ((o₁.emit (.slot dest)).emit (.slot o.getStackTopSlotNumber)).emit
          (.slot preserve) := by
  simp only [preservedCopyTopSlot] at h
  cases hin : o.isStackTopInRegister with
  | true =>
    simp only [hin, if_true] at h
    rcases bind_ok h with ⟨o₁, hemit, h⟩
    cases h
    exact .inl ⟨rfl, o₁, hemit, rfl⟩
  | false =>
    simp only [hin, Bool.false_eq_true, if_false] at h
    rcases bind_ok h with ⟨o₁, hemit, h⟩
    cases h
    refine .inr ⟨rfl, o₁, hemit, ?_⟩
    rw [emitted_emitOp hemit]
    rfl

theorem Good.preservedCopyTopSlot {dest preserve : Nat} (h : Good fn active o)
    (ho : o.preservedCopyTopSlot dest preserve = .ok o') :
    Kept fn active 2 o o' ∧ Emitted o o' := by
  rcases preservedCopyTopSlot_cases ho with ⟨-, o₁, hemit, rfl⟩ | ⟨-, o₁, hemit, rfl⟩
  · have hop := h.emitOp hemit
    have hword := hop.good.emit (w := .slot dest) hop.room
    have hword' := hword.good.emit (w := .slot preserve) hword.room
    exact ⟨((hop.trans hword).trans hword').mono (by omega),
      (emitted_emitOp hemit).trans (Emitted.trans (emitted_emit _) (emitted_emit _))⟩
  · have hop := h.emitOp hemit
    have hword := hop.good.emit (w := .slot dest) hop.room
    have hword' := hword.good.emit (w := .slot o.getStackTopSlotNumber) hword.room
    have hword'' := hword'.good.emit (w := .slot preserve) hword'.room
    exact ⟨((hop.trans hword).trans hword').trans hword'', (emitted_emitOp hemit).trans
      (Emitted.trans (emitted_emit _) (Emitted.trans (emitted_emit _) (emitted_emit _)))⟩

theorem copyStackTopToRegister_cases (h : o.copyStackTopToRegister = .ok o') :
    o.isStackTopInRegister = true ∧ o' = o ∨
    o.isStackTopInRegister = false ∧
      ∃ o₁ o₂, o.preserveRegisterIfOccupied = .ok o₁ ∧
        o₁.emitOp (setRegisterOps o.getStackTopType) = .ok o₂ ∧
        o' = o₂.emit (.slot o₂.getStackTopSlotNumber) := by
  rw [M3Compilation.copyStackTopToRegister] at h
  cases hin : o.isStackTopInRegister with
  | true =>
    rw [if_pos hin] at h
    cases h
    exact .inl ⟨rfl, rfl⟩
  | false =>
    rw [if_neg (by rw [hin]; decide)] at h
    rcases bind_ok h with ⟨o₁, hpreserve, h⟩
    rcases bind_ok h with ⟨o₂, hemit, h⟩
    cases h
    exact .inr ⟨rfl, o₁, o₂, hpreserve, hemit, rfl⟩

theorem Good.copyStackTopToRegister (h : Good fn active o)
    (ho : o.copyStackTopToRegister = .ok o') :
    Kept fn active 0 o o' ∧ TopRegister o' 1 ∧ o'.stackIndex = o.stackIndex ∧
      o'.typeStack = o.typeStack := by
  rcases copyStackTopToRegister_cases ho with ⟨hin, rfl⟩ | ⟨-, o₁, o₂, hpreserve, hemit, rfl⟩
  · exact ⟨.refl h h.room, h.topRegister hin, rfl, rfl⟩
  · rcases h.preserveRegisterIfOccupied hpreserve with ⟨hkept, hreg, hindex, htypes⟩
    have hop := hkept.good.emitOp hemit
    have hword := hop.good.emit (w := .slot o₂.getStackTopSlotNumber) hop.room
    have hemitted := emitted_emitOp hemit
    refine ⟨((hkept.trans hop).trans hword).mono (Nat.zero_le _), .of_eq_zero ?_, ?_, ?_⟩
    · rw [M3Compilation.emit, hemitted]
      exact hreg
    · rw [M3Compilation.emit, hemitted]
      exact hindex
    · rw [M3Compilation.emit, hemitted]
      exact htypes

/-! ## Pops -/

theorem TopRegister.of_emitted (h : TopRegister o n) (hemitted : Emitted o o') :
    TopRegister o' n := by
  rw [hemitted]
  exact h

/-- A pop, with the slot as an immediate. -/
theorem Good.emitSlotNumOfStackTopAndPop (h : Good fn active o)
    (hroom : Writable active (room + 1) o) (ho : o.emitSlotNumOfStackTopAndPop = .ok o') :
    Kept fn active room o o' ∧ (TopRegister o (n + 1) → TopRegister o' n) := by
  rw [M3Compilation.emitSlotNumOfStackTopAndPop] at ho
  split at ho
  · exact ⟨h.pop (hroom.mono (Nat.le_succ _)) ho, h.pop_topRegister ho⟩
  · have hword := h.emit (w := .slot o.getStackTopSlotNumber) hroom
    exact ⟨hword.trans (hword.good.pop hword.room ho),
      fun htop => hword.good.pop_topRegister ho (htop.of_emitted (emitted_emit _))⟩

theorem popType_eq (h : o.popType type = .ok o') : o.pop = .ok o' := by
  rw [popType] at h
  split at h
  · exact h
  · cases h

/-- What `Pop` makes of the height of the stack. -/
theorem pop_stackIndex (h : o.pop = .ok o') : o'.stackIndex =
    if o.block.blockStackIndex < o.stackIndex then o.stackIndex - 1 else o.stackIndex := by
  rcases pop_cases h with ⟨hheight, -, rfl⟩ | ⟨k, hk, hblock, hcase⟩
  · rw [if_neg (by omega)]
  · rw [if_pos (by omega)]
    rcases hcase with ⟨-, rfl⟩ | ⟨-, -, rfl⟩ | ⟨-, -, rfl⟩
    · simp only
      omega
    · rw [deallocateSlots_eq]
      simp only
      omega
    · simp only
      omega

theorem Good.popTimes (h : Good fn active o) (hroom : Writable active room o)
    (ho : popTimes n o = .ok o') : Kept fn active room o o' ∧
      (n ≤ o.stackIndex - o.block.blockStackIndex → o'.stackIndex = o.stackIndex - n) := by
  induction n generalizing o with
  | zero =>
    cases ho
    exact ⟨.refl h hroom, fun _ => rfl⟩
  | succ n ih =>
    rcases bind_ok ho with ⟨o₁, hpop, hrest⟩
    have hkept := h.pop hroom hpop
    have hindex := pop_stackIndex hpop
    rcases ih hkept.good hkept.room hrest with ⟨hkept', hindex'⟩
    refine ⟨hkept.trans hkept', fun hn => ?_⟩
    rw [if_pos (by omega)] at hindex
    have hblock := hkept.ext.block.blockStackIndex
    rw [hindex' (by omega), hindex]
    omega

/-- Nothing of the current block is on the stack after it. -/
theorem Good.unwindBlockStack (h : Good fn active o) (hroom : Writable active room o)
    (ho : o.unwindBlockStack = .ok o') : Kept fn active room o o' ∧
      o'.stackIndex = o.block.blockStackIndex ∧ o'.regStackIndexPlusOne = 0 := by
  have hheight := h.slots.height
  rcases h.popTimes hroom ho with ⟨hkept, hindex⟩
  have hindex' := hindex (Nat.le_refl _)
  refine ⟨hkept, by omega, ?_⟩
  by_contra hreg
  have hregister := hkept.good.slots.register hreg
  have hblock := hkept.ext.block.blockStackIndex
  omega

end WebAssemblyRuntime.Wasm3.M3Compilation
