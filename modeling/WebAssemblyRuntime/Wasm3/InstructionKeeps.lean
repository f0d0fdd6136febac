import WebAssemblyRuntime.Wasm3.CompileKeeps

/-!
# InstructionKeeps — the instructions that stay in their block keep the invariant
-/

namespace WebAssemblyRuntime.Wasm3.M3Compilation

open Reasoning (bind_ok)

variable {fn : M3FuncType} {active : List Nat} {o o' o'' : M3Compilation} {type : M3ValueType}
  {slot room i n : Nat}

/-! ## Constants -/

/-- A slot of the constant table that holds the constant. -/
structure HoldsConstant (o : M3Compilation) (word : BitVec 64) (type : M3ValueType) (slot : Nat) :
    Prop where
  low : o.slotFirstConstIndex ≤ slot
  high : slot + getTypeNumSlots type ≤ o.slotMaxConstIndex
  used : ∀ n, slot ≤ n → n < slot + getTypeNumSlots type → o.m3Slots n ≠ 0
  wide : getTypeNumSlots type = 2 → o.constantAt64 (slot - o.slotFirstConstIndex) = word
  narrow : getTypeNumSlots type ≠ 2 →
    (o.constants (slot - o.slotFirstConstIndex)).setWidth 64 = word

theorem findConstant_spec {word : BitVec 64} (hsmall : getTypeNumSlots type ≤ 2)
    (h : o.findConstant word type = some slot) : HoldsConstant o word type slot := by
  have hpos := getTypeNumSlots_pos type
  rw [findConstant] at h
  by_cases hwide : getTypeNumSlots type = 2
  · rw [if_pos hwide] at h
    have hfound := List.find?_some h
    have hmem := List.mem_of_find?_eq_some h
    simp only [Bool.and_eq_true, decide_eq_true_eq, ne_eq, beq_iff_eq] at hfound
    rcases hfound with ⟨⟨⟨hlt, hfirst⟩, hsecond⟩, hword⟩
    rcases List.mem_map.mp hmem with ⟨k, -, hk⟩
    have halign := le_alignSlotToType o.slotFirstConstIndex .i64
    refine ⟨by omega, by omega, fun n hlow hhigh => ?_, fun _ => hword,
      fun hnarrow => absurd hwide hnarrow⟩
    have hn : n = slot ∨ n = slot + 1 := by omega
    rcases hn with rfl | rfl
    · exact hfirst
    · exact hsecond
  · rw [if_neg hwide] at h
    have hfound := List.find?_some h
    have hmem := List.mem_of_find?_eq_some h
    simp only [Bool.and_eq_true, decide_eq_true_eq, ne_eq, beq_iff_eq] at hfound
    rcases List.mem_map.mp hmem with ⟨k, hk, hslot⟩
    have hlt := List.mem_range.mp hk
    refine ⟨by omega, by omega, fun n hlow hhigh => ?_, fun hwide' => absurd hwide' hwide,
      fun _ => hfound.2⟩
    have hn : n = slot := by omega
    rw [hn]
    exact hfound.1

theorem Good.pushHeldConstant {word : BitVec 64} (h : Good fn active o)
    (hroom : Writable active room o) (hsmall : getTypeNumSlots type ≤ 2)
    (hholds : HoldsConstant o word type slot) (ho : o.push type slot = .ok o') :
    Kept fn active room o o' := by
  rcases push_eq ho with ⟨hlt, rfl⟩
  have hend := h.slots.constantsEnd
  have hdynamic := h.frame.layout.dynamic
  have halias := slots_lt_alias
  have hpos := getTypeNumSlots_pos type
  have hhigh := hholds.high
  have hlt' : slot < d_m3Reg0SlotAlias := by omega
  refine h.push_entry hroom ⟨rfl, rfl, rfl, rfl, rfl, rfl, rfl, rfl, Nat.le_refl _, id⟩ rfl hlt rfl rfl hsmall
    (h.slots.takes_uncounted (.inl (by omega)) rfl rfl rfl rfl)
    (.constant ?_ ?_ fun n hn => ?_) (.inl ⟨Nat.ne_of_lt hlt', ?_⟩)
  · simp only [Function.update_self]
    exact hholds.low
  · simp only [Function.update_self]
    omega
  · simp only [Covers, Function.update_self] at hn
    exact hholds.used n hn.1 hn.2
  · exact if_neg (by rw [isRegisterSlotAlias_of_lt hlt']; decide)

/-- The constant, in the constant table. -/
def setConstant (o : M3Compilation) (slot : Nat) (word : BitVec 64) (type : M3ValueType) :
    M3Compilation :=
  let constTableIndex := slot - o.slotFirstConstIndex
  if is64BitType type then
    { o with constants := Function.update (Function.update o.constants constTableIndex
        (word.setWidth 32)) (constTableIndex + 1) (word.extractLsb' 32 32) }
  else { o with constants := Function.update o.constants constTableIndex (word.setWidth 32) }

theorem pushConst_cases {word : BitVec 64} (h : o.pushConst word type = .ok o') :
    (∃ slot, o.findConstant word type = some slot ∧ o.push type slot = .ok o') ∨
    (∃ slot o₁ o₂, o.allocateConstantSlots type = .ok (slot, o₁) ∧
      (o₁.setConstant slot word type).push type slot = .ok o₂ ∧
      o' = { o₂ with slotMaxConstIndex := max (slot + getTypeNumSlots type) o₂.slotMaxConstIndex }) ∨
    (∃ o₁, o.emitOp (if is64BitType type then .const64 else .const32) = .ok o₁ ∧
      (o₁.emit (if is64BitType type then .word64 word
        else .word32 (word.setWidth 32))).pushAllocatedSlotAndEmit type = .ok o') := by
  rw [pushConst] at h
  cases hfind : o.findConstant word type with
  | some slot =>
    rw [hfind] at h
    exact .inl ⟨slot, rfl, h⟩
  | none =>
    rw [hfind] at h
    cases halloc : o.allocateConstantSlots type with
    | error e =>
      simp only [halloc] at h
      refine .inr (.inr ?_)
      cases hwide : is64BitType type with
      | true =>
        simp only [hwide, if_true] at h
        rcases bind_ok h with ⟨o₁, hemit, hpush⟩
        exact ⟨o₁, hemit, hpush⟩
      | false =>
        simp only [hwide, Bool.false_eq_true, if_false] at h
        rcases bind_ok h with ⟨o₁, hemit, hpush⟩
        exact ⟨o₁, hemit, hpush⟩
    | ok found =>
      rcases found with ⟨slot, o₁⟩
      simp only [halloc] at h
      rcases bind_ok h with ⟨o₂, hpush, heq⟩
      cases heq
      exact .inr (.inl ⟨slot, o₁, o₂, rfl, hpush, rfl⟩)

theorem setConstant_eq {word : BitVec 64} : o.setConstant slot word type =
    { o with constants := (o.setConstant slot word type).constants } := by
  rw [setConstant]
  split <;> rfl

/-- The table gets the constant, and no other entry of it changes. -/
theorem setConstant_of_ne {word : BitVec 64} (htype : type.IsInt)
    (hn : n < slot - o.slotFirstConstIndex ∨
      slot - o.slotFirstConstIndex + getTypeNumSlots type ≤ n) :
    (o.setConstant slot word type).constants n = o.constants n := by
  rcases htype with rfl | rfl
  · rw [getTypeNumSlots] at hn
    exact Function.update_of_ne (by omega) ..
  · rw [getTypeNumSlots] at hn
    exact (Function.update_of_ne (by omega) ..).trans (Function.update_of_ne (by omega) ..)

theorem Good.pushNewConstant {word : BitVec 64} {o₁ o₂ : M3Compilation} (h : Good fn active o)
    (hroom : Writable active room o) (htype : type.IsInt)
    (halloc : o.allocateConstantSlots type = .ok (slot, o₁))
    (hpush : (o₁.setConstant slot word type).push type slot = .ok o₂)
    (ho : o' = { o₂ with
      slotMaxConstIndex := max (slot + getTypeNumSlots type) o₂.slotMaxConstIndex }) :
    Kept fn active room o o' := by
  have hsmall := htype.small
  rcases allocateSlots_free halloc hsmall with ⟨hlow, hhigh, -, hfree⟩
  have heq := (allocateSlots_eq halloc).1
  have hend := h.slots.constantsEnd
  have hdynamic := h.frame.layout.dynamic
  have halias := slots_lt_alias
  have hpos := getTypeNumSlots_pos type
  have hlt' : slot < d_m3Reg0SlotAlias := by omega
  have hconst : o₁.slotFirstConstIndex = o.slotFirstConstIndex := by
    rw [heq, markSlots_type]
  have hothers : ∀ n, n < slot - o.slotFirstConstIndex ∨
      slot - o.slotFirstConstIndex + getTypeNumSlots type ≤ n →
      (o₁.setConstant slot word type).constants n = o₁.constants n := by
    intro n hn
    rw [← hconst] at hn
    exact setConstant_of_ne htype hn
  rw [setConstant_eq] at hpush
  revert hpush hothers
  generalize (o₁.setConstant slot word type).constants = table
  intro hpush hothers
  rcases push_eq hpush with ⟨hlt, rfl⟩
  rw [markSlots_type] at heq
  subst heq
  subst ho
  refine h.push_entry hroom
    ⟨rfl, rfl, rfl, rfl, rfl, rfl, rfl, rfl, Nat.le_max_left _ _, max_le_max_right _⟩ rfl hlt rfl rfl hsmall
    ⟨fun n hn hn' => ?_, fun n hn hn' => ?_, fun n _ hused => ?_, ?_, fun n hn hn' => ?_,
      fun n hn hn' hused => ?_, ?_, fun n hn hn' hused => ?_⟩
    (.constant ?_ ?_ fun n hn => ?_) (.inl ⟨Nat.ne_of_lt hlt', ?_⟩)
  · simp only
    rw [if_neg (by omega), if_neg (by omega)]
    rfl
  · simp only
    rw [if_neg (by omega)]
    exact h.slots.bytes n hn hn'
  · simp only
    split
    · decide
    · exact hused
  · exact Nat.le_trans h.slots.touched (Nat.le_max_left _ _)
  · simp only at hn ⊢
    rw [if_neg (by omega)]
    exact h.slots.untouched n (by omega) hn'
  · simp only at hused ⊢
    split at hused
    · omega
    · have hmax := h.slots.constants n hn hn' hused
      omega
  · simp only
    omega
  · have hnot : ¬ (slot ≤ n ∧ n < slot + getTypeNumSlots type) := fun hin =>
      hused (hfree n hin.1 hin.2)
    exact hothers _ (by omega)
  · simp only [Function.update_self]
    exact hlow
  · simp only [Function.update_self]
    omega
  · simp only [Covers, Function.update_self] at hn
    simp only
    rw [if_pos hn]
    decide
  · exact if_neg (by rw [isRegisterSlotAlias_of_lt hlt']; decide)

theorem Good.pushAllocatedSlotAndEmit (h : Good fn active o) (hroom : Writable active (room + 1) o)
    (hsmall : getTypeNumSlots type ≤ 2) (ho : o.pushAllocatedSlotAndEmit type = .ok o') :
    Kept fn active room o o' := by
  rcases bind_ok ho with ⟨⟨slot, o₁⟩, halloc, ho⟩
  rcases bind_ok ho with ⟨o₂, hpush, ho⟩
  cases ho
  have hkept := h.pushAllocated hroom hsmall halloc hpush
  exact hkept.trans (hkept.good.emit hkept.room)

theorem Good.pushConst {word : BitVec 64} (h : Good fn active o) (htype : type.IsInt)
    (ho : o.pushConst word type = .ok o') : Kept fn active 0 o o' := by
  have hsmall := htype.small
  rcases pushConst_cases ho with ⟨slot, hfind, hpush⟩ | ⟨slot, o₁, o₂, halloc, hpush, heq⟩ |
    ⟨o₁, hemit, hpush⟩
  · exact h.pushHeldConstant h.room hsmall (findConstant_spec hsmall hfind) hpush
  · exact h.pushNewConstant h.room htype halloc hpush heq
  · have hop := h.emitOp hemit
    have hword := hop.good.emit (w := if is64BitType type then .word64 word
      else .word32 (word.setWidth 32)) hop.room
    exact ((hop.trans hword).trans
      (hword.good.pushAllocatedSlotAndEmit hword.room hsmall hpush)).mono (Nat.zero_le _)

/-! ## Locals and globals -/

theorem compileSetLocal_cases {isTee : Bool} (h : o.compileSetLocal i isTee = .ok o') :
    i < o.numArgsAndLocals ∧ ∃ p o₁ o₂,
      o.findReferencedLocal (o.getSlotForStackIndex i) = .ok (p, o₁) ∧
      (p = o.getSlotForStackIndex i ∧
          o₁.copyStackTopToSlot (o.getSlotForStackIndex i) = .ok o₂ ∨
        p ≠ o.getSlotForStackIndex i ∧
          o₁.preservedCopyTopSlot (o.getSlotForStackIndex i) p = .ok o₂) ∧
      (if isTee then o' = o₂ else o₂.pop = .ok o') := by
  rw [compileSetLocal] at h
  by_cases hi : i < o.numArgsAndLocals
  · rw [if_pos hi] at h
    rcases bind_ok h with ⟨⟨p, o₁⟩, hfind, h⟩
    simp only at h
    by_cases hp : p = o.getSlotForStackIndex i
    · rw [if_pos hp] at h
      rcases bind_ok h with ⟨o₂, hcopy, h⟩
      refine ⟨hi, p, o₁, o₂, hfind, .inl ⟨hp, hcopy⟩, ?_⟩
      cases isTee with
      | true =>
        cases h
        rfl
      | false => exact h
    · rw [if_neg hp] at h
      rcases bind_ok h with ⟨o₂, hcopy, h⟩
      refine ⟨hi, p, o₁, o₂, hfind, .inr ⟨hp, hcopy⟩, ?_⟩
      cases isTee with
      | true =>
        cases h
        rfl
      | false => exact h
  · rw [if_neg hi] at h
    cases h

theorem Good.compileSetLocal {isTee : Bool} (h : Good fn active o)
    (hsingle : i < o.stackFirstDynamicIndex → Single o i)
    (ho : o.compileSetLocal i isTee = .ok o') : Kept fn active 0 o o' := by
  rcases compileSetLocal_cases ho with ⟨hi, p, o₁, o₂, hfind, hcopy, hpop⟩
  have hbase : i < o.stackFirstDynamicIndex := h.frame.layout.numArgsAndLocals ▸ hi
  have hlt : i < o.stackIndex :=
    Nat.lt_of_lt_of_le hbase (Nat.le_trans h.frame.base_le h.slots.height)
  rw [getSlotForStackIndex_of_lt hlt] at hfind
  have hrefs := (h.findReferencedLocal h.room hbase (hsingle hbase) hfind).kept
  have hcopied : Kept fn active 0 o o₂ := by
    rcases hcopy with ⟨-, hcopy⟩ | ⟨-, hcopy⟩
    · exact hrefs.trans ((hrefs.good.copyStackIndexToSlot hcopy).1.mono (Nat.zero_le _))
    · exact hrefs.trans ((hrefs.good.preservedCopyTopSlot hcopy).1.mono (Nat.zero_le _))
  cases isTee with
  | true =>
    rw [if_pos rfl] at hpop
    rw [hpop]
    exact hcopied
  | false => exact hcopied.trans (hcopied.good.pop hcopied.room hpop)

theorem Good.compileGetLocal (h : Good fn active o) (ho : o.compileGetLocal i = .ok o') :
    Kept fn active 0 o o' := by
  rw [M3Compilation.compileGetLocal] at ho
  split at ho
  · cases ho
  · rename_i hi
    have hbase : i < o.stackFirstDynamicIndex :=
      h.frame.layout.numArgsAndLocals ▸ Nat.lt_of_not_le hi
    have hlt : i < o.stackIndex :=
      Nat.lt_of_lt_of_le hbase (Nat.le_trans h.frame.base_le h.slots.height)
    rw [getStackTypeFromBottom_of_lt hlt, getSlotForStackIndex_of_lt hlt] at ho
    exact h.pushLocal h.room hbase ho

theorem Good.compileGetGlobal {g : WasmGlobal} (h : Good fn active o)
    (ho : o.compileGetGlobal i g = .ok o') : Kept fn active 0 o o' := by
  rcases bind_ok ho with ⟨o₁, hemit, hpush⟩
  have hop := h.emitOp hemit
  have hword := hop.good.emit (w := .global i) hop.room
  exact ((hop.trans hword).trans (hword.good.pushAllocatedSlotAndEmit hword.room
    g.type.valueType_isInt.small hpush)).mono (Nat.zero_le _)

theorem compileSetGlobal_cases {g : WasmGlobal} (h : o.compileSetGlobal i g = .ok o') :
    g.isMutable = true ∧ ∃ o₁,
      o.emitOp (if o.isStackTopInRegister then setGlobalOps o.getStackTopType
        else .setGlobalSlot (widthOf o.getStackTopType)) = .ok o₁ ∧
      (if o.isStackTopInRegister then o₁.emit (.global i)
        else (o₁.emit (.global i)).emit (.slot o.getStackTopSlotNumber)).pop = .ok o' := by
  rw [compileSetGlobal] at h
  by_cases hmutable : g.isMutable = true
  · rw [if_pos hmutable] at h
    rcases bind_ok h with ⟨o₁, hemit, h⟩
    refine ⟨hmutable, o₁, hemit, ?_⟩
    rw [emitted_emitOp hemit] at h ⊢
    exact h
  · rw [if_neg hmutable] at h
    cases h

theorem Good.compileSetGlobal {g : WasmGlobal} (h : Good fn active o)
    (ho : o.compileSetGlobal i g = .ok o') : Kept fn active 0 o o' := by
  rcases compileSetGlobal_cases ho with ⟨-, o₁, hemit, hpop⟩
  have hop := h.emitOp hemit
  have hword := hop.good.emit (w := .global i) hop.room
  split at hpop
  · exact ((hop.trans hword).trans (hword.good.pop hword.room hpop)).mono (Nat.zero_le _)
  · have hword' := hword.good.emit (w := .slot o.getStackTopSlotNumber) hword.room
    exact (((hop.trans hword).trans hword').trans (hword'.good.pop hword'.room hpop)).mono
      (Nat.zero_le _)

/-! ## Operators -/

theorem chooseForm_spec {info : M3OpInfo} {form : Option Form} (h : Good fn active o)
    (ho : o.chooseForm info = .ok (form, o')) : Kept fn active 0 o o' ∧
      TopRegister o' (if info.stackOffset = 0 then 1 else 2) := by
  rw [chooseForm] at ho
  by_cases hone : info.stackOffset = 0
  · simp only [if_pos hone] at ho ⊢
    by_cases htop : o.isStackTopInRegister = true
    · rw [if_pos htop] at ho
      cases ho
      exact ⟨.refl h h.room, h.topRegister htop⟩
    · rw [if_neg htop] at ho
      rcases bind_ok ho with ⟨o₁, hpreserve, heq⟩
      cases heq
      rcases h.preserveRegisterIfOccupied hpreserve with ⟨hkept, hreg, -, -⟩
      exact ⟨hkept, .of_eq_zero hreg⟩
  · simp only [if_neg hone] at ho ⊢
    by_cases htop : o.isStackTopInRegister = true
    · rw [if_pos htop] at ho
      have hsame : o' = o := by
        split at ho <;> cases ho <;> rfl
      rw [hsame]
      exact ⟨.refl h h.room, fun hpoly hne => Nat.lt_succ_of_lt (h.topRegister htop hpoly hne)⟩
    · rw [if_neg htop] at ho
      by_cases hsecond : o.isStackTopMinusInRegister 1 = true
      · rw [if_pos hsecond] at ho
        have hsame : o' = o := by
          split at ho <;> cases ho <;> rfl
        rw [hsame]
        exact ⟨.refl h h.room, h.topRegister hsecond⟩
      · rw [if_neg hsecond] at ho
        rcases bind_ok ho with ⟨o₁, hpreserve, heq⟩
        cases heq
        rcases h.preserveRegisterIfOccupied hpreserve with ⟨hkept, hreg, -, -⟩
        exact ⟨hkept, .of_eq_zero hreg⟩

theorem compileOperator_cases {info : M3OpInfo} (h : o.compileOperator info = .ok o') :
    ∃ form o₁ o₂ o₃ o₄, o.chooseForm info = .ok (some form, o₁) ∧
      o₁.emitOp (.operator info.operation form) = .ok o₂ ∧
      o₂.emitSlotNumOfStackTopAndPop = .ok o₃ ∧
      (if info.stackOffset < 0 then o₃.emitSlotNumOfStackTopAndPop = .ok o₄ else o₄ = o₃) ∧
      (if info.type ≠ .none then o₄.pushRegister info.type = .ok o' else o' = o₄) := by
  rw [compileOperator] at h
  rcases bind_ok h with ⟨⟨form, o₁⟩, hchoose, h⟩
  cases form with
  | none => cases h
  | some form =>
    rcases bind_ok h with ⟨o₂, hemit, h⟩
    rcases bind_ok h with ⟨o₃, hpop, h⟩
    have hlast : ∀ o₄ : M3Compilation,
        (if info.type ≠ .none then o₄.pushRegister info.type else .ok o₄) = .ok o' →
        if info.type ≠ .none then o₄.pushRegister info.type = .ok o' else o' = o₄ := by
      intro o₄ hpush
      split at hpush
      · rename_i htype
        rw [if_pos htype]
        exact hpush
      · rename_i htype
        rw [if_neg htype]
        cases hpush
        rfl
    by_cases hoffset : info.stackOffset < 0
    · rw [if_pos hoffset] at h
      rcases bind_ok h with ⟨o₄, hpop', h⟩
      exact ⟨form, o₁, o₂, o₃, o₄, hchoose, hemit, hpop, (if_pos hoffset).mpr hpop', hlast o₄ h⟩
    · rw [if_neg hoffset] at h
      exact ⟨form, o₁, o₂, o₃, o₃, hchoose, hemit, hpop, (if_neg hoffset).mpr rfl, hlast o₃ h⟩

/-- The pops of the operands, with the register among them at the most. -/
theorem Good.popOperands {info : M3OpInfo} {o₁ : M3Compilation} (h : Good fn active o)
    (hroom : Writable active 5 o) (hoffset : info.stackOffset ≤ 0)
    (htop : TopRegister o (if info.stackOffset = 0 then 1 else 2))
    (hpop : o.emitSlotNumOfStackTopAndPop = .ok o₁)
    (hpop' : if info.stackOffset < 0 then o₁.emitSlotNumOfStackTopAndPop = .ok o' else o' = o₁) :
    Kept fn active 3 o o' ∧ TopRegister o' 0 := by
  by_cases hneg : info.stackOffset < 0
  · rw [if_pos hneg] at hpop'
    rw [if_neg (Int.ne_of_lt hneg)] at htop
    rcases h.emitSlotNumOfStackTopAndPop hroom hpop with ⟨hkept, hnext⟩
    rcases hkept.good.emitSlotNumOfStackTopAndPop hkept.room hpop' with ⟨hkept', hnext'⟩
    exact ⟨hkept.trans hkept', hnext' (hnext htop)⟩
  · rw [if_neg hneg] at hpop'
    rw [if_pos (by omega)] at htop
    subst hpop'
    rcases h.emitSlotNumOfStackTopAndPop hroom hpop with ⟨hkept, hnext⟩
    exact ⟨hkept.mono (by omega), hnext htop⟩

theorem Good.compileOperator {info : M3OpInfo} (h : Good fn active o)
    (hoffset : info.stackOffset ≤ 0) (hsmall : getTypeNumSlots info.type ≤ 2)
    (ho : o.compileOperator info = .ok o') : Kept fn active 3 o o' := by
  rcases compileOperator_cases ho with ⟨form, o₁, o₂, o₃, o₄, hchoose, hemit, hpop, hpop', hpush⟩
  rcases chooseForm_spec h hchoose with ⟨hchosen, htop⟩
  have hop := hchosen.good.emitOp hemit
  have htop₂ := htop.of_emitted (emitted_emitOp hemit)
  rcases hop.good.popOperands hop.room hoffset htop₂ hpop hpop' with ⟨hkept, hfree⟩
  have hpopped : Kept fn active 3 o o₄ ∧ TopRegister o₄ 0 :=
    ⟨(hchosen.trans hop).trans hkept, hfree⟩
  split at hpush
  · exact hpopped.1.trans (hpopped.1.good.pushRegister hpopped.1.room hsmall
      (hpopped.1.good.register_free hpopped.2) hpush)
  · rw [hpush]
    exact hpopped.1

theorem opInfo_stackOffset (op : Operator) : (opInfo op).stackOffset ≤ 0 := by
  cases op <;> simp only [opInfo] <;> decide

theorem opInfo_small (op : Operator) : getTypeNumSlots (opInfo op).type ≤ 2 := by
  cases op <;> simp only [opInfo] <;>
    first | decide | exact IntType.valueType_isInt _ |>.small

theorem Good.compileOperatorOrMemory {op : Operator} (h : Good fn active o)
    (ho : o.compileOperatorOrMemory op = .ok o') : Kept fn active 0 o o' := by
  have hop : ∀ {o₁ : M3Compilation}, o.compileOperator (opInfo op) = .ok o₁ →
      Kept fn active 3 o o₁ :=
    fun ho₁ => h.compileOperator (opInfo_stackOffset op) (opInfo_small op) ho₁
  cases op with
  | load t SRC offset =>
    rcases bind_ok ho with ⟨o₁, ho₁, heq⟩
    cases heq
    exact ((hop ho₁).trans ((hop ho₁).good.emit (hop ho₁).room)).mono (Nat.zero_le _)
  | store t DEST offset =>
    rcases bind_ok ho with ⟨o₁, ho₁, heq⟩
    cases heq
    exact ((hop ho₁).trans ((hop ho₁).good.emit (hop ho₁).room)).mono (Nat.zero_le _)
  | unop | eqz | binop | relop | extend32S | wrap | extend => exact (hop ho).mono (Nat.zero_le _)

theorem Good.compileMemorySize (h : Good fn active o) (ho : o.compileMemorySize = .ok o') :
    Kept fn active 0 o o' := by
  rcases bind_ok ho with ⟨o₁, hpreserve, ho⟩
  rcases bind_ok ho with ⟨o₂, hemit, hpush⟩
  rcases h.preserveRegisterIfOccupied hpreserve with ⟨hkept, hreg, -, -⟩
  have hop := hkept.good.emitOp hemit
  have hfree : o₂.regStackIndexPlusOne = 0 := by
    rw [emitted_emitOp hemit]
    exact hreg
  exact ((hkept.trans hop).trans
    (hop.good.pushRegister hop.room (by decide) (fun _ => hfree) hpush)).mono (Nat.zero_le _)

theorem Good.compileMemoryGrow (h : Good fn active o) (ho : o.compileMemoryGrow = .ok o') :
    Kept fn active 0 o o' := by
  rcases bind_ok ho with ⟨o₁, hcopy, ho⟩
  rcases bind_ok ho with ⟨o₂, hpop, ho⟩
  rcases bind_ok ho with ⟨o₃, hemit, hpush⟩
  rcases h.copyStackTopToRegister hcopy with ⟨hkept, htop, -, -⟩
  have hpop' := popType_eq hpop
  have hpopped := hkept.good.pop hkept.room hpop'
  have htop' := (hkept.good.pop_topRegister hpop' htop).of_emitted (emitted_emitOp hemit)
  have hop := hpopped.good.emitOp hemit
  exact (((hkept.trans hpopped).trans hop).trans (hop.good.pushRegister hop.room (by decide)
    (hop.good.register_free htop') hpush)).mono (Nat.zero_le _)

theorem Good.compileMemoryCopyFill {op : M3Op} (h : Good fn active o)
    (ho : o.compileMemoryCopyFill op = .ok o') : Kept fn active 0 o o' := by
  rcases bind_ok ho with ⟨o₁, hcopy, ho⟩
  rcases bind_ok ho with ⟨o₂, hemit, ho⟩
  rcases bind_ok ho with ⟨o₃, hpop, ho⟩
  rcases bind_ok ho with ⟨o₄, hpop', hpop''⟩
  rcases h.copyStackTopToRegister hcopy with ⟨hkept, -, -, -⟩
  have hop := hkept.good.emitOp hemit
  have h₁ := hop.good.pop hop.room (popType_eq hpop)
  have h₂ := (h₁.good.emitSlotNumOfStackTopAndPop (n := 0) h₁.room hpop').1
  have h₃ := (h₂.good.emitSlotNumOfStackTopAndPop (n := 0) h₂.room hpop'').1
  exact ((((hkept.trans hop).trans h₁).trans h₂).trans h₃).mono (Nat.zero_le _)

/-! ## Select -/

theorem compileSelect_cases (h : o.compileSelect = .ok o') :
    (o.getStackTypeFromTop 1 = .i32 ∨ o.getStackTypeFromTop 1 = .i64) ∧
      (∃ o₁ slot0 o₂ slot1 o₃ slot2 o₄ o₅,
        (o₁ = o ∧ (o.isStackTopInRegister = true ∨ o.isStackTopMinusInRegister 1 = true ∨
            o.isStackTopMinusInRegister 2 = true) ∨ o.preserveRegisterIfOccupied = .ok o₁) ∧
        o₁.popSelectOperand = .ok (slot0, o₂) ∧ o₂.popSelectOperand = .ok (slot1, o₃) ∧
        o₃.popSelectOperand = .ok (slot2, o₄) ∧
        o₄.emitOp (selectOp (widthOf (o.getStackTypeFromTop 1)) [slot0, slot1, slot2]) = .ok o₅ ∧
        (([slot0, slot1, slot2].filterMap id).foldl (fun o slot =>
          if slot < d_m3MaxFunctionSlots then o.emit (.slot slot) else o) o₅).pushRegister
            (o.getStackTypeFromTop 1) = .ok o') ∨
    o.block.isPolymorphic = true ∧
      ∃ o₁, o.emitOp .null = .ok o₁ ∧ o₁.pushRegister (o.getStackTypeFromTop 1) = .ok o' := by
  rw [compileSelect] at h
  by_cases htype : o.getStackTypeFromTop 1 = .i32 ∨ o.getStackTypeFromTop 1 = .i64
  · simp only [if_pos htype] at h
    refine .inl ⟨htype, ?_⟩
    by_cases hnone : ¬ o.isStackTopInRegister ∧ ¬ o.isStackTopMinusInRegister 1 ∧
        ¬ o.isStackTopMinusInRegister 2
    · rw [if_pos hnone] at h
      rcases bind_ok h with ⟨o₁, hpreserve, h⟩
      rcases bind_ok h with ⟨⟨slot0, o₂⟩, hslot0, h⟩
      rcases bind_ok h with ⟨⟨slot1, o₃⟩, hslot1, h⟩
      rcases bind_ok h with ⟨⟨slot2, o₄⟩, hslot2, h⟩
      rcases bind_ok h with ⟨_, htriple, h⟩
      cases htriple
      rcases bind_ok h with ⟨o₅, hemit, hpush⟩
      exact ⟨o₁, slot0, o₂, slot1, o₃, slot2, o₄, o₅, .inr hpreserve, hslot0, hslot1, hslot2,
        hemit, hpush⟩
    · rw [if_neg hnone] at h
      rcases bind_ok h with ⟨_, hsame, h⟩
      cases hsame
      rcases bind_ok h with ⟨⟨slot0, o₂⟩, hslot0, h⟩
      rcases bind_ok h with ⟨⟨slot1, o₃⟩, hslot1, h⟩
      rcases bind_ok h with ⟨⟨slot2, o₄⟩, hslot2, h⟩
      rcases bind_ok h with ⟨_, htriple, h⟩
      cases htriple
      rcases bind_ok h with ⟨o₅, hemit, hpush⟩
      refine ⟨o, slot0, o₂, slot1, o₃, slot2, o₄, o₅, .inl ⟨rfl, ?_⟩, hslot0, hslot1, hslot2,
        hemit, hpush⟩
      simp only [not_and_or, not_not] at hnone
      exact hnone
  · simp only [if_neg htype] at h
    by_cases hpoly : o.block.isPolymorphic = true
    · rw [if_pos hpoly] at h
      rcases bind_ok h with ⟨⟨op, slots, o₄⟩, hoperands, h⟩
      cases hoperands
      rcases bind_ok h with ⟨o₅, hemit, hpush⟩
      exact .inr ⟨hpoly, o₅, hemit, hpush⟩
    · rw [if_neg hpoly] at h
      cases h

theorem popSelectOperand_cases {found : Option Nat}
    (h : o.popSelectOperand = .ok (found, o')) : o.pop = .ok o' ∧
      found = if o.isStackTopInRegister then none else some o.getStackTopSlotNumber := by
  rcases bind_ok h with ⟨o₁, hpop, heq⟩
  cases heq
  exact ⟨hpop, rfl⟩

/-- The slots of the operands, at most one line for each. -/
theorem Good.emitSlots {slots : List Nat} (h : Good fn active o)
    (hroom : Writable active (room + slots.length) o) :
    let o' := slots.foldl (fun o slot =>
      if slot < d_m3MaxFunctionSlots then o.emit (.slot slot) else o) o
    Kept fn active room o o' ∧ Emitted o o' := by
  induction slots generalizing o with
  | nil => exact ⟨.refl h hroom, .refl o⟩
  | cons slot slots ih =>
    rw [List.foldl_cons]
    by_cases hslot : slot < d_m3MaxFunctionSlots
    · rw [if_pos hslot]
      have hword := h.emit (w := .slot slot) hroom
      rcases ih hword.good hword.room with ⟨hkept, hemitted⟩
      exact ⟨hword.trans hkept, (emitted_emit _).trans hemitted⟩
    · rw [if_neg hslot]
      exact ih h (hroom.mono (by rw [List.length_cons]; omega))

theorem SlotsGood.getStackTypeFromTop_small (h : SlotsGood o) :
    getTypeNumSlots (o.getStackTypeFromTop n) ≤ 2 := by
  rw [getStackTypeFromTop]
  split
  · simp only
    split
    · exact h.small _ (by omega)
    · decide
  · decide

theorem Good.compileSelect (h : Good fn active o) (ho : o.compileSelect = .ok o') :
    Kept fn active 0 o o' := by
  rcases compileSelect_cases ho with
    ⟨htype, o₁, slot0, o₂, slot1, o₃, slot2, o₄, o₅, hfirst, hslot0, hslot1, hslot2, hemit, hpush⟩ |
    ⟨hpoly, o₁, hemit, hpush⟩
  · have hkept : Kept fn active 0 o o₁ ∧ TopRegister o₁ 3 := by
      rcases hfirst with ⟨rfl, hin⟩ | hpreserve
      · refine ⟨.refl h h.room, fun hpoly hne => ?_⟩
        rcases hin with hin | hin | hin
        · exact Nat.lt_add_right 2 (h.topRegister hin hpoly hne)
        · exact Nat.lt_add_right 1 (h.topRegister hin hpoly hne)
        · exact h.topRegister hin hpoly hne
      · rcases h.preserveRegisterIfOccupied hpreserve with ⟨hkept, hreg, -, -⟩
        exact ⟨hkept, .of_eq_zero hreg⟩
    rcases hkept with ⟨hkept, htop⟩
    have hpop0 := (popSelectOperand_cases hslot0).1
    have hpop1 := (popSelectOperand_cases hslot1).1
    have hpop2 := (popSelectOperand_cases hslot2).1
    have h₂ := hkept.good.pop hkept.room hpop0
    have h₃ := h₂.good.pop h₂.room hpop1
    have h₄ := h₃.good.pop h₃.room hpop2
    have htop₄ := h₃.good.pop_topRegister hpop2
      (h₂.good.pop_topRegister hpop1 (hkept.good.pop_topRegister hpop0 htop))
    have hop := h₄.good.emitOp hemit
    have hlength : ([slot0, slot1, slot2].filterMap id).length ≤ 3 :=
      List.length_filterMap_le id [slot0, slot1, slot2]
    have hroom : Writable active (0 + ([slot0, slot1, slot2].filterMap id).length) o₅ :=
      hop.room.mono (by omega)
    rcases hop.good.emitSlots hroom with ⟨hslots, hemitted⟩
    have htop₅ := (htop₄.of_emitted (emitted_emitOp hemit)).of_emitted hemitted
    exact (((((hkept.trans h₂).trans h₃).trans h₄).trans hop).trans hslots).trans
      (hslots.good.pushRegister hslots.room h.slots.getStackTypeFromTop_small
        (hslots.good.register_free htop₅) hpush)
  · have hop := h.emitOp hemit
    refine (hop.trans (hop.good.pushRegister hop.room h.slots.getStackTypeFromTop_small
      (fun hnot => ?_) hpush)).mono (Nat.zero_le _)
    rw [emitted_emitOp hemit] at hnot
    rw [hpoly] at hnot
    cases hnot

/-! ## Calls -/

theorem Good.getMaxUsedSlotPlusOne (h : Good fn active o) (hroom : Writable active room o) :
    Kept fn active room o o.getMaxUsedSlotPlusOne := by
  have hslots := h.slots
  rcases @maxUsedSlot_spec o.m3Slots _ _ hslots.touched with ⟨hlow, hhigh, hfree⟩
  have hshape : SameShape o o.getMaxUsedSlotPlusOne :=
    ⟨rfl, rfl, rfl, rfl, rfl, rfl, rfl, rfl, Nat.le_refl _, Nat.le_trans hhigh⟩
  refine h.of_slots hshape hroom (fun _ _ => ⟨rfl, rfl⟩) (fun _ _ _ hused => ⟨hused, rfl⟩)
    ⟨hslots.height, hslots.bounded, fun i hi hlt hopen => ?_, hslots.small, hslots.counted,
      hslots.bytes, hlow, hshape.allocated hslots.allocated, fun n hn hlt => ?_, hslots.constants, hslots.constantsEnd,
      hslots.register, hslots.unique⟩
  · exact (hslots.entries i hi hlt hopen).of_same hshape (fun _ _ => ⟨rfl, rfl⟩) rfl rfl
      fun _ _ hused => hused
  · by_cases htop : n < o.slotMaxAllocatedIndexPlusOne
    · exact hfree n hn htop
    · exact hslots.untouched n (Nat.le_of_not_lt htop) hlt

theorem pop_slotMax (h : o.pop = .ok o') :
    o'.slotMaxAllocatedIndexPlusOne = o.slotMaxAllocatedIndexPlusOne := by
  rcases pop_cases h with ⟨-, -, rfl⟩ | ⟨k, -, -, ⟨-, rfl⟩ | ⟨-, -, rfl⟩ | ⟨-, -, rfl⟩⟩
  · rfl
  · rfl
  · rw [deallocateSlots_eq]
  · rfl

theorem Good.copyArgs {argTop : Nat} (h : Good fn active o)
    (ho : copyArgs n o argTop = .ok o') : Kept fn active 0 o o' ∧
      o'.slotMaxAllocatedIndexPlusOne = o.slotMaxAllocatedIndexPlusOne := by
  induction n generalizing o argTop with
  | zero =>
    cases ho
    exact ⟨.refl h h.room, rfl⟩
  | succ n ih =>
    rcases bind_ok ho with ⟨o₁, hcopy, ho⟩
    rcases bind_ok ho with ⟨o₂, hpop, hrest⟩
    rcases h.copyStackIndexToSlot hcopy with ⟨hkept, hemitted⟩
    have hpopped := hkept.good.pop hkept.room hpop
    rcases ih hpopped.good hrest with ⟨hkept', hmax⟩
    refine ⟨((hkept.trans hpopped).trans hkept'), ?_⟩
    rw [hmax, pop_slotMax hpop, hemitted]

/-- A result in slots above all that are in use. -/
theorem Good.pushMarked {o₁ : M3Compilation} (h : Good fn active o)
    (hroom : Writable active room o) (hsmall : getTypeNumSlots type ≤ 2)
    (hmax : o.slotMaxAllocatedIndexPlusOne ≤ slot) (hpush : o.push type slot = .ok o₁)
    (ho : o₁.markSlotsAllocatedByType slot type = .ok o') :
    Kept fn active room o o' ∧
      o'.slotMaxAllocatedIndexPlusOne = slot + getTypeNumSlots type := by
  rw [markSlotsAllocatedByType] at ho
  split at ho
  · cases ho
  · rename_i hend
    simp only [Except.ok.injEq] at ho
    rw [markSlots_type] at ho
    rcases push_eq hpush with ⟨hlt, rfl⟩
    subst ho
    have halias := slots_lt_alias
    have hpos := getTypeNumSlots_pos type
    have hlt' : slot < d_m3Reg0SlotAlias := by omega
    have htouched := h.slots.touched
    refine ⟨h.push_entry hroom
      ⟨rfl, rfl, rfl, rfl, rfl, rfl, rfl, rfl, Nat.le_max_left _ _, max_le_max_right _⟩ rfl hlt rfl rfl hsmall
      (h.slots.takes_mark (Nat.le_trans htouched hmax) (fun n hlow hhigh => ?_) ?_ ?_ rfl rfl)
      (.dynamic ?_ ?_) (.inl ⟨Nat.ne_of_lt hlt', ?_⟩), ?_⟩
    · exact h.slots.untouched n (Nat.le_trans hmax hlow) (by omega)
    · rw [markSlots_type]
    · rw [markSlots_type]
    · simp only [Function.update_self]
      exact Nat.le_trans htouched hmax
    · simp only [Function.update_self]
      omega
    · exact if_neg (by rw [isRegisterSlotAlias_of_lt hlt']; decide)
    · simp only
      omega

theorem Good.pushResults {types : List M3ValueType} {topSlot : Nat} (h : Good fn active o)
    (hroom : Writable active room o) (hints : ∀ type ∈ types, type.IsInt)
    (hmax : o.slotMaxAllocatedIndexPlusOne ≤ topSlot)
    (ho : pushResults types o topSlot = .ok o') : Kept fn active room o o' := by
  induction types generalizing o topSlot with
  | nil =>
    cases ho
    exact .refl h hroom
  | cons type types ih =>
    rcases bind_ok ho with ⟨o₁, hpush, ho⟩
    rcases bind_ok ho with ⟨o₂, hmark, hrest⟩
    have hsmall := (hints type (List.mem_cons_self ..)).small
    rcases h.pushMarked hroom hsmall hmax hpush hmark with ⟨hkept, hmax'⟩
    refine hkept.trans (ih hkept.good hkept.room
      (fun t ht => hints t (List.mem_cons_of_mem _ ht)) ?_ hrest)
    rw [hmax', c_ioSlotCount]
    omega

theorem compileCall_cases {functionIndex : Nat} {funcType : M3FuncType} {compiled : Option PC}
    (h : o.compileCall functionIndex funcType compiled = .ok o') :
    let topSlot := alignSlotToType (max 1 o.getMaxUsedSlotPlusOne.slotMaxAllocatedIndexPlusOne) .i64
    ∃ o₁ o₂ o₃, copyArgs funcType.args.length o.getMaxUsedSlotPlusOne
        (topSlot + (funcType.args.length + funcType.rets.length) * c_ioSlotCount) = .ok o₁ ∧
      pushResults funcType.rets o₁ topSlot = .ok o₂ ∧
      o₂.emitOp (if compiled.isSome then .call else .compile) = .ok o₃ ∧
      o' = (o₃.emit (compiled.elim (.function functionIndex) .pc)).emit (.slot topSlot) := by
  rcases bind_ok h with ⟨⟨slotTop, o₂⟩, hargs, h⟩
  rcases bind_ok h with ⟨o₃, hemit, heq⟩
  rcases bind_ok hargs with ⟨o₁, hcopy, hargs⟩
  rcases bind_ok hargs with ⟨o₂', hpush, hpair⟩
  cases hpair
  cases heq
  refine ⟨o₁, o₂, o₃, hcopy, hpush, hemit, ?_⟩
  cases compiled <;> rfl

theorem Good.compileCall {functionIndex : Nat} {funcType : M3FuncType} {compiled : Option PC}
    (h : Good fn active o) (hints : ∀ type ∈ funcType.rets, type.IsInt)
    (ho : o.compileCall functionIndex funcType compiled = .ok o') : Kept fn active 0 o o' := by
  rcases compileCall_cases ho with ⟨o₁, o₂, o₃, hcopy, hpush, hemit, rfl⟩
  have hmax := h.getMaxUsedSlotPlusOne h.room
  rcases hmax.good.copyArgs hcopy with ⟨hargs, hsame⟩
  have hle := le_alignSlotToType
    (max 1 o.getMaxUsedSlotPlusOne.slotMaxAllocatedIndexPlusOne) .i64
  have hresults := hargs.good.pushResults hargs.room hints (by rw [hsame]; omega) hpush
  have hop := hresults.good.emitOp hemit
  have hword := hop.good.emit (w := compiled.elim (.function functionIndex) .pc) hop.room
  have hword' := hword.good.emit (w := .slot (alignSlotToType
    (max 1 o.getMaxUsedSlotPlusOne.slotMaxAllocatedIndexPlusOne) .i64)) hword.room
  exact (((((hmax.trans hargs).trans hresults).trans hop).trans hword).trans hword').mono
    (Nat.zero_le _)

end WebAssemblyRuntime.Wasm3.M3Compilation
