import WebAssemblyRuntime.Wasm3.CompileInvariant

/-!
# StackInvariant — pushes, pops and moves keep the counts right
-/

namespace WebAssemblyRuntime.Wasm3.M3Compilation

variable {fn : M3FuncType} {active : List Nat} {o o' o'' : M3Compilation} {type : M3ValueType}
  {slot room i : Nat}

theorem isRegisterSlotAlias_reg : isRegisterSlotAlias d_m3Reg0SlotAlias = true := by decide

theorem isRegisterSlotAlias_of_lt (h : slot < d_m3Reg0SlotAlias) :
    isRegisterSlotAlias slot = false := by
  rw [isRegisterSlotAlias]
  exact decide_eq_false fun halias => absurd halias.1 (Nat.not_le.mpr h)

theorem slots_lt_alias : d_m3MaxFunctionSlots < d_m3Reg0SlotAlias := by decide

/-- The slots of a new entry are counted once more. -/
structure Takes (o : M3Compilation) (slot num : Nat) (o' : M3Compilation) : Prop where
  counted : ∀ n, o.slotFirstDynamicIndex ≤ n → n < d_m3MaxFunctionSlots →
    o'.m3Slots n = o.m3Slots n + if slot ≤ n ∧ n < slot + num then 1 else 0
  bytes : ∀ n, o.slotFirstDynamicIndex ≤ n → n < d_m3MaxFunctionSlots → o'.m3Slots n ≤ 255
  low : ∀ n < o.slotFirstDynamicIndex, o.m3Slots n ≠ 0 → o'.m3Slots n ≠ 0
  touched : o.slotFirstDynamicIndex ≤ o'.slotMaxAllocatedIndexPlusOne
  untouched : ∀ n, o'.slotMaxAllocatedIndexPlusOne ≤ n → n < d_m3MaxFunctionSlots →
    o'.m3Slots n = 0
  constants : ∀ n, o.slotFirstConstIndex ≤ n → n < o.slotFirstDynamicIndex → o'.m3Slots n ≠ 0 →
    n < o'.slotMaxConstIndex
  constantsEnd : o'.slotMaxConstIndex ≤ o.slotFirstDynamicIndex
  table : ∀ n, o.slotFirstConstIndex ≤ n → n < o.slotFirstDynamicIndex → o.m3Slots n ≠ 0 →
    o'.constants (n - o.slotFirstConstIndex) = o.constants (n - o.slotFirstConstIndex)

/-- A slot that is not counted: a local, a constant or the register. -/
theorem SlotsGood.takes_uncounted {num : Nat} (h : SlotsGood o)
    (hslot : slot + num ≤ o.slotFirstDynamicIndex ∨ d_m3MaxFunctionSlots ≤ slot)
    (hslots : o'.m3Slots = o.m3Slots)
    (hmax : o'.slotMaxAllocatedIndexPlusOne = o.slotMaxAllocatedIndexPlusOne)
    (hconst : o'.slotMaxConstIndex = o.slotMaxConstIndex) (htable : o'.constants = o.constants) :
    Takes o slot num o' := by
  refine ⟨fun n hlow hhigh => ?_, ?_, ?_, ?_, ?_, ?_, ?_, ?_⟩
  · rw [hslots, if_neg (by omega)]
    rfl
  · rw [hslots]
    exact h.bytes
  · rw [hslots]
    exact fun _ _ hn => hn
  · rw [hmax]
    exact h.touched
  · rw [hmax, hslots]
    exact h.untouched
  · rw [hslots, hconst]
    exact h.constants
  · rw [hconst]
    exact h.constantsEnd
  · rw [htable]
    exact fun _ _ _ _ => rfl

/-- Free slots that are marked. -/
theorem SlotsGood.takes_mark (h : SlotsGood o) (hlow : o.slotFirstDynamicIndex ≤ slot)
    (hfree : ∀ n, slot ≤ n → n < slot + getTypeNumSlots type → o.m3Slots n = 0)
    (hslots : o'.m3Slots = (o.markSlots slot (getTypeNumSlots type)).m3Slots)
    (hmax : o'.slotMaxAllocatedIndexPlusOne =
      (o.markSlots slot (getTypeNumSlots type)).slotMaxAllocatedIndexPlusOne)
    (hconst : o'.slotMaxConstIndex = o.slotMaxConstIndex) (htable : o'.constants = o.constants) :
    Takes o slot (getTypeNumSlots type) o' := by
  rw [markSlots_type] at hslots hmax
  refine ⟨fun n _ _ => ?_, fun n hn hhigh => ?_, fun n hn hused => ?_, ?_, fun n hn hhigh => ?_,
    fun n hn hhigh hused => ?_, ?_, ?_⟩
  · simp only [hslots]
    by_cases hin : slot ≤ n ∧ n < slot + getTypeNumSlots type
    · rw [if_pos hin, if_pos hin, hfree n hin.1 hin.2]
    · rw [if_neg hin, if_neg hin]
      rfl
  · simp only [hslots]
    by_cases hin : slot ≤ n ∧ n < slot + getTypeNumSlots type
    · rw [if_pos hin]
      decide
    · rw [if_neg hin]
      exact h.bytes n hn hhigh
  · simp only [hslots]
    rw [if_neg (by omega)]
    exact hused
  · rw [hmax]
    exact Nat.le_trans h.touched (Nat.le_max_left _ _)
  · simp only [hmax] at hn
    simp only [hslots]
    rw [if_neg (by omega)]
    exact h.untouched n (by omega) hhigh
  · simp only [hslots] at hused
    rw [if_neg (by omega)] at hused
    rw [hconst]
    exact h.constants n hn hhigh hused
  · rw [hconst]
    exact h.constantsEnd
  · rw [htable]
    exact fun _ _ _ _ => rfl

/-- An entry that keeps its place when other things change. -/
theorem EntryIn.of_agree (h : EntryIn o i)
    (hbase : o'.stackFirstDynamicIndex = o.stackFirstDynamicIndex)
    (hconst : o'.slotFirstConstIndex = o.slotFirstConstIndex)
    (hdynamic : o'.slotFirstDynamicIndex = o.slotFirstDynamicIndex)
    (hinside : ∀ j < o.stackFirstDynamicIndex, o.wasmStack i = o.wasmStack j →
      o.block.blockStackIndex ≤ i → o'.block.blockStackIndex ≤ i)
    (hlocals : ∀ j < o.stackFirstDynamicIndex, o'.wasmStack j = o.wasmStack j ∧
      o'.typeStack j = o.typeStack j)
    (hslot : o'.wasmStack i = o.wasmStack i) (htype : o'.typeStack i = o.typeStack i)
    (hused : ∀ n, o.slotFirstConstIndex ≤ n → n < o.slotFirstDynamicIndex → o.m3Slots n ≠ 0 →
      o'.m3Slots n ≠ 0) : EntryIn o' i := by
  cases h with
  | ofLocal j hj hslot' htype' hblock =>
    refine .ofLocal j ?_ ?_ ?_ (hinside j hj hslot' hblock)
    · rw [hbase]
      exact hj
    · rw [hslot, (hlocals j hj).1]
      exact hslot'
    · rw [htype, (hlocals j hj).2]
      exact htype'
  | constant hlow hhigh hused' =>
    refine .constant ?_ ?_ fun n hn => ?_
    · rw [hslot, hconst]
      exact hlow
    · rw [hslot, htype, hdynamic]
      exact hhigh
    · rw [covers_congr hslot htype] at hn
      exact hused n (Nat.le_trans hlow hn.1) (Nat.lt_of_lt_of_le hn.2 hhigh) (hused' n hn)
  | dynamic hlow hhigh =>
    refine .dynamic ?_ ?_
    · rw [hslot, hdynamic]
      exact hlow
    · rw [hslot, htype]
      exact hhigh
  | register h =>
    rw [← hslot] at h
    exact .register h

theorem EntryIn.of_same (h : EntryIn o i) (hshape : SameShape o o')
    (hlocals : ∀ j < o.stackFirstDynamicIndex, o'.wasmStack j = o.wasmStack j ∧
      o'.typeStack j = o.typeStack j)
    (hslot : o'.wasmStack i = o.wasmStack i) (htype : o'.typeStack i = o.typeStack i)
    (hused : ∀ n < o.slotFirstDynamicIndex, o.m3Slots n ≠ 0 → o'.m3Slots n ≠ 0) : EntryIn o' i :=
  h.of_agree hshape.stackFirstDynamicIndex hshape.slotFirstConstIndex hshape.slotFirstDynamicIndex
    (fun _ _ _ hblock => by rw [hshape.block]; exact hblock) hlocals hslot htype
    fun n _ hn => hused n hn

theorem SameShape.scopes (h : SameShape o o') : o'.scopes = o.scopes := by
  rw [M3Compilation.scopes, M3Compilation.scopes, h.block, h.outer]

/-- One more entry on the stack. -/
theorem Good.push_entry (h : Good fn active o) (hroom : Writable active room o)
    (hshape : SameShape o o') (hindex : o'.stackIndex = o.stackIndex + 1)
    (hbound : o.stackIndex < d_m3MaxFunctionStackHeight)
    (hstack : o'.wasmStack = Function.update o.wasmStack o.stackIndex slot)
    (htypes : o'.typeStack = Function.update o.typeStack o.stackIndex type)
    (hsmall : getTypeNumSlots type ≤ 2) (htakes : Takes o slot (getTypeNumSlots type) o')
    (hentry : EntryIn o' o.stackIndex)
    (hreg : slot ≠ d_m3Reg0SlotAlias ∧ o'.regStackIndexPlusOne = o.regStackIndexPlusOne ∨
      slot = d_m3Reg0SlotAlias ∧ o'.regStackIndexPlusOne = o.stackIndex + 1 ∧
        (o.block.isPolymorphic = false → o.regStackIndexPlusOne = 0)) :
    Kept fn active room o o' := by
  have hslots := h.slots
  have hbase := Nat.le_trans h.frame.base_le hslots.height
  have hslot : ∀ j < o.stackIndex, o'.wasmStack j = o.wasmStack j := fun j hj => by
    rw [hstack, Function.update_of_ne (Nat.ne_of_lt hj)]
  have htype : ∀ j < o.stackIndex, o'.typeStack j = o.typeStack j := fun j hj => by
    rw [htypes, Function.update_of_ne (Nat.ne_of_lt hj)]
  have htop : o'.wasmStack o.stackIndex = slot := by rw [hstack, Function.update_self]
  have htopType : o'.typeStack o.stackIndex = type := by rw [htypes, Function.update_self]
  refine h.of_slots hshape hroom
    (fun j hj => ⟨hslot j (Nat.lt_of_lt_of_le hj hslots.height),
      htype j (Nat.lt_of_lt_of_le hj hslots.height)⟩)
    (fun n hlow hhigh hused => ⟨htakes.low n hhigh hused, htakes.table n hlow hhigh hused⟩) ?_
  refine ⟨?_, ?_, ?_, ?_, ?_, ?_, ?_, ?_, ?_, ?_, ?_, ?_, ?_⟩
  · rw [hshape.block, hindex]
    exact Nat.le_succ_of_le hslots.height
  · rw [hindex]
    exact hbound
  · intro j hlow hj hopen
    rw [hshape.stackFirstDynamicIndex] at hlow
    rw [hshape.scopes] at hopen
    by_cases htop : j = o.stackIndex
    · rw [htop]
      exact hentry
    · have hlt : j < o.stackIndex := by omega
      exact (hslots.entries j hlow hlt hopen).of_same hshape
        (fun k hk => ⟨hslot k (by omega), htype k (by omega)⟩) (hslot j hlt) (htype j hlt)
        htakes.low
  · intro j hj
    by_cases htop : j = o.stackIndex
    · rw [htop, htopType]
      exact hsmall
    · rw [htype j (by omega)]
      exact hslots.small j (by omega)
  · intro n hlow hhigh
    rw [hshape.slotFirstDynamicIndex] at hlow
    rw [htakes.counted n hlow hhigh, hslots.counted n hlow hhigh, uses, uses, hindex, Nat.count_succ,
      hshape.scopes]
    have hcount : (Open o.scopes o.stackIndex ∧
        Covers o'.wasmStack o'.typeStack o.stackIndex n) ↔
        (slot ≤ n ∧ n < slot + getTypeNumSlots type) := by
      rw [Covers, htop, htopType]
      exact and_iff_right (h.frame.open_of_le hslots.height)
    simp only [hcount]
    refine congrArg (· + _) (count_congr fun j hj => ?_)
    rw [covers_congr (hslot j hj) (htype j hj)]
  · rw [hshape.slotFirstDynamicIndex]
    exact htakes.bytes
  · rw [hshape.slotFirstDynamicIndex]
    exact htakes.touched
  · exact hshape.allocated hslots.allocated
  · exact htakes.untouched
  · rw [hshape.slotFirstConstIndex, hshape.slotFirstDynamicIndex]
    exact htakes.constants
  · rw [hshape.slotFirstDynamicIndex]
    exact htakes.constantsEnd
  · intro hne
    rw [hshape.block, hindex]
    rcases hreg with ⟨-, hsame⟩ | ⟨halias, hset, -⟩
    · rw [hsame] at hne ⊢
      rcases hslots.register hne with ⟨hlow, hhigh, hat⟩
      refine ⟨hlow, Nat.le_succ_of_le hhigh, ?_⟩
      rw [hslot _ (by omega)]
      exact hat
    · have hheight := hslots.height
      rw [hset]
      refine ⟨by omega, Nat.le_refl _, ?_⟩
      rw [Nat.add_sub_cancel, htop]
      exact halias
  · rw [hshape.block, hshape.stackFirstDynamicIndex, hshape.scopes, hindex]
    intro hpoly j hlow hj hopen hat
    by_cases hjtop : j = o.stackIndex
    · rw [hjtop, htop] at hat
      rcases hreg with ⟨hne, -⟩ | ⟨-, hset, -⟩
      · exact absurd hat hne
      · rw [hset, hjtop]
    · have hlt : j < o.stackIndex := by omega
      rw [hslot j hlt] at hat
      have hold := hslots.unique hpoly j hlow hlt hopen hat
      rcases hreg with ⟨-, hsame⟩ | ⟨-, -, hnone⟩
      · rw [hsame]
        exact hold
      · rw [hnone hpoly] at hold
        omega

/-- An entry that was not counted moves to another slot. -/
theorem Good.set_entry (h : Good fn active o) (hroom : Writable active room o)
    (hshape : SameShape o o') (hindex : o'.stackIndex = o.stackIndex)
    (hstack : o'.wasmStack = Function.update o.wasmStack i slot)
    (htypes : o'.typeStack = o.typeStack) (hi : o.block.blockStackIndex ≤ i)
    (hlt : i < o.stackIndex)
    (hfree : ∀ n, o.slotFirstDynamicIndex ≤ n → n < d_m3MaxFunctionSlots →
      ¬ Covers o.wasmStack o.typeStack i n)
    (htakes : Takes o slot (getTypeNumSlots (o.typeStack i)) o')
    (hentry : EntryIn o' i) (hslot : slot ≠ d_m3Reg0SlotAlias)
    (hreg : o'.regStackIndexPlusOne = o.regStackIndexPlusOne ∧
        o.wasmStack i ≠ d_m3Reg0SlotAlias ∨
      o'.regStackIndexPlusOne = 0 ∧ o.regStackIndexPlusOne = i + 1) :
    Kept fn active room o o' := by
  have hslots := h.slots
  have hbase := h.frame.base_le
  have hsame : ∀ j ≠ i, o'.wasmStack j = o.wasmStack j := fun j hj => by
    rw [hstack, Function.update_of_ne hj]
  have hself : o'.wasmStack i = slot := by rw [hstack, Function.update_self]
  refine h.of_slots hshape hroom
    (fun j hj => ⟨hsame j (by omega), congrFun htypes j⟩)
    (fun n hlow hhigh hused => ⟨htakes.low n hhigh hused, htakes.table n hlow hhigh hused⟩) ?_
  refine ⟨?_, ?_, ?_, ?_, ?_, ?_, ?_, ?_, ?_, ?_, ?_, ?_, ?_⟩
  · rw [hshape.block, hindex]
    exact hslots.height
  · rw [hindex]
    exact hslots.bounded
  · intro j hlow hj hopen
    rw [hshape.stackFirstDynamicIndex] at hlow
    rw [hshape.scopes] at hopen
    rw [hindex] at hj
    by_cases hji : j = i
    · rw [hji]
      exact hentry
    · exact (hslots.entries j hlow hj hopen).of_same hshape
        (fun k hk => ⟨hsame k (by omega), congrFun htypes k⟩) (hsame j hji) (congrFun htypes j)
        htakes.low
  · rw [hindex, htypes]
    exact hslots.small
  · intro n hlow hhigh
    rw [hshape.slotFirstDynamicIndex] at hlow
    have hchange := @count_change
      o.stackIndex (fun j => Open o.scopes j ∧ Covers o.wasmStack o.typeStack j n)
      (fun j => Open o.scopes j ∧ Covers o'.wasmStack o'.typeStack j n) _ _ i hlt
      fun j _ hji => by rw [covers_congr (hsame j hji) (congrFun htypes j)]
    have hcount : (Open o.scopes i ∧ Covers o'.wasmStack o'.typeStack i n) ↔
        (slot ≤ n ∧ n < slot + getTypeNumSlots (o.typeStack i)) := by
      rw [Covers, hself, htypes]
      exact and_iff_right (h.frame.open_of_le hi)
    have hnot : ¬ (Open o.scopes i ∧ Covers o.wasmStack o.typeStack i n) :=
      fun hcovers => hfree n hlow hhigh hcovers.2
    simp only [hcount] at hchange
    rw [if_neg hnot] at hchange
    rw [htakes.counted n hlow hhigh, hslots.counted n hlow hhigh, uses, uses, hindex, hshape.scopes]
    exact hchange
  · rw [hshape.slotFirstDynamicIndex]
    exact htakes.bytes
  · rw [hshape.slotFirstDynamicIndex]
    exact htakes.touched
  · exact hshape.allocated hslots.allocated
  · exact htakes.untouched
  · rw [hshape.slotFirstConstIndex, hshape.slotFirstDynamicIndex]
    exact htakes.constants
  · rw [hshape.slotFirstDynamicIndex]
    exact htakes.constantsEnd
  · intro hne
    rw [hshape.block, hindex]
    rcases hreg with ⟨hreg, halias⟩ | ⟨hreg, -⟩
    · rw [hreg] at hne ⊢
      rcases hslots.register hne with ⟨hlow, hhigh, hat⟩
      refine ⟨hlow, hhigh, ?_⟩
      rw [hsame _ fun heq => halias (heq ▸ hat)]
      exact hat
    · exact absurd hreg hne
  · rw [hshape.block, hshape.stackFirstDynamicIndex, hshape.scopes, hindex]
    intro hpoly j hlow hj hopen hat
    have hji : j ≠ i := fun hji => hslot ((hji ▸ hself).symm.trans hat)
    rw [hsame j hji] at hat
    have hold := hslots.unique hpoly j hlow hj hopen hat
    rcases hreg with ⟨hreg, -⟩ | ⟨-, hreg⟩
    · rw [hreg]
      exact hold
    · omega

/-- The top entry goes, and its slots are counted once less. -/
theorem Good.drop_entry (h : Good fn active o) (hroom : Writable active room o) {k : Nat}
    (hshape : SameShape o o') (hindex : o.stackIndex = k + 1) (hindex' : o'.stackIndex = k)
    (hblock : o.block.blockStackIndex ≤ k) (hstack : o'.wasmStack = o.wasmStack)
    (htypes : o'.typeStack = o.typeStack)
    (hcounted : ∀ n, o.slotFirstDynamicIndex ≤ n → n < d_m3MaxFunctionSlots →
      o.m3Slots n = o'.m3Slots n + if Covers o.wasmStack o.typeStack k n then 1 else 0)
    (hlow : ∀ n < o.slotFirstDynamicIndex, o'.m3Slots n = o.m3Slots n)
    (hmax : o'.slotMaxAllocatedIndexPlusOne = o.slotMaxAllocatedIndexPlusOne)
    (hconst : o'.slotMaxConstIndex = o.slotMaxConstIndex) (htable : o'.constants = o.constants)
    (hreg : o.wasmStack k = d_m3Reg0SlotAlias ∧ o'.regStackIndexPlusOne = 0 ∨
      o.wasmStack k ≠ d_m3Reg0SlotAlias ∧ o'.regStackIndexPlusOne = o.regStackIndexPlusOne) :
    Kept fn active room o o' := by
  have hslots := h.slots
  have hbase := h.frame.base_le
  refine h.of_slots hshape hroom (fun j _ => ⟨congrFun hstack j, congrFun htypes j⟩)
    (fun n _ hhigh hused => ⟨by rw [hlow n hhigh]; exact hused, congrFun htable _⟩) ?_
  refine ⟨?_, ?_, ?_, ?_, ?_, ?_, ?_, ?_, ?_, ?_, ?_, ?_, ?_⟩
  · rw [hshape.block, hindex']
    exact hblock
  · have hbounded := hslots.bounded
    omega
  · intro j hj hlt hopen
    rw [hshape.stackFirstDynamicIndex] at hj
    rw [hshape.scopes] at hopen
    refine (hslots.entries j hj (by omega) hopen).of_same hshape
      (fun i _ => ⟨congrFun hstack i, congrFun htypes i⟩) (congrFun hstack j) (congrFun htypes j)
      fun n hn hused => ?_
    rw [hlow n hn]
    exact hused
  · rw [htypes]
    exact fun j hj => hslots.small j (by omega)
  · intro n hn hhigh
    rw [hshape.slotFirstDynamicIndex] at hn
    have hold := hslots.counted n hn hhigh
    rw [uses, hindex, Nat.count_succ, hcounted n hn hhigh] at hold
    have htop : (Open o.scopes k ∧ Covers o.wasmStack o.typeStack k n) ↔
        Covers o.wasmStack o.typeStack k n := and_iff_right (h.frame.open_of_le hblock)
    simp only [htop] at hold
    rw [uses, hindex', hshape.scopes, hstack, htypes]
    exact Nat.add_right_cancel hold
  · intro n hn hhigh
    rw [hshape.slotFirstDynamicIndex] at hn
    have hbyte := hslots.bytes n hn hhigh
    rw [hcounted n hn hhigh] at hbyte
    exact Nat.le_trans (Nat.le_add_right _ _) hbyte
  · rw [hshape.slotFirstDynamicIndex, hmax]
    exact hslots.touched
  · exact hshape.allocated hslots.allocated
  · intro n hn hhigh
    rw [hmax] at hn
    have hzero := hslots.untouched n hn hhigh
    rw [hcounted n (Nat.le_trans hslots.touched hn) hhigh] at hzero
    omega
  · intro n hn hhigh hused
    rw [hshape.slotFirstConstIndex] at hn
    rw [hshape.slotFirstDynamicIndex] at hhigh
    rw [hlow n hhigh] at hused
    rw [hconst]
    exact hslots.constants n hn hhigh hused
  · rw [hconst, hshape.slotFirstDynamicIndex]
    exact hslots.constantsEnd
  · intro hne
    rcases hreg with ⟨-, hzero⟩ | ⟨halias, hsame⟩
    · exact absurd hzero hne
    · rw [hsame] at hne ⊢
      rw [hshape.block, hindex', hstack]
      rcases hslots.register hne with ⟨hlow, hhigh, hat⟩
      have hnot : o.regStackIndexPlusOne - 1 ≠ k := fun heq => halias (heq ▸ hat)
      exact ⟨hlow, by omega, hat⟩
  · rw [hshape.block, hshape.stackFirstDynamicIndex, hshape.scopes, hindex', hstack]
    intro hpoly j hj hlt hopen hat
    have hold := hslots.unique hpoly j hj (by omega) hopen hat
    rcases hreg with ⟨halias, -⟩ | ⟨-, hsame⟩
    · have htop := hslots.unique hpoly k (by omega) (by omega) (h.frame.open_of_le hblock) halias
      omega
    · rw [hsame]
      exact hold

/-- An entry of the current block is in no slot beyond those of a function, or in the register. -/
theorem Good.slot_lt (h : Good fn active o) (hi : o.block.blockStackIndex ≤ i)
    (hlt : i < o.stackIndex) (hne : o.wasmStack i ≠ d_m3Reg0SlotAlias) :
    o.wasmStack i + getTypeNumSlots (o.typeStack i) ≤ d_m3MaxFunctionSlots := by
  have hlayout := h.frame.layout
  have hconsts := hlayout.consts
  have hdynamic := hlayout.dynamic
  cases h.slots.entries i (Nat.le_trans h.frame.base_le hi) hlt (h.frame.open_of_le hi) with
  | ofLocal j hj hslot htype hblock =>
    rw [hslot, htype]
    have hlocal := hlayout.locals j hj
    omega
  | constant hlow hhigh hused => omega
  | dynamic hlow hhigh => exact hhigh
  | register h => exact absurd h hne

theorem Good.isRegisterSlotAlias_iff (h : Good fn active o) (hi : o.block.blockStackIndex ≤ i)
    (hlt : i < o.stackIndex) :
    isRegisterSlotAlias (o.wasmStack i) = true ↔ o.wasmStack i = d_m3Reg0SlotAlias := by
  constructor
  · intro halias
    by_contra hne
    have hslot := h.slot_lt hi hlt hne
    rw [isRegisterSlotAlias_of_lt (by have := slots_lt_alias; omega)] at halias
    cases halias
  · intro heq
    rw [heq]
    exact isRegisterSlotAlias_reg

/-- What `Pop` does. -/
theorem pop_cases (h : o.pop = .ok o') :
    o.stackIndex ≤ o.block.blockStackIndex ∧ o.block.isPolymorphic = true ∧ o' = o ∨
    ∃ k, o.stackIndex = k + 1 ∧ o.block.blockStackIndex ≤ k ∧
      (isRegisterSlotAlias (o.wasmStack k) = true ∧
          o' = { o with stackIndex := k, regStackIndexPlusOne := 0 } ∨
        isRegisterSlotAlias (o.wasmStack k) = false ∧ o.slotFirstDynamicIndex ≤ o.wasmStack k ∧
          o' = ({ o with stackIndex := k } : M3Compilation).deallocateSlots (o.wasmStack k)
            (getTypeNumSlots (o.typeStack k)) ∨
        isRegisterSlotAlias (o.wasmStack k) = false ∧ o.wasmStack k < o.slotFirstDynamicIndex ∧
          o' = { o with stackIndex := k }) := by
  simp only [pop, popAnyway] at h
  by_cases hheight : o.block.blockStackIndex < o.stackIndex
  · rw [if_pos hheight] at h
    have hk : o.stackIndex = o.stackIndex - 1 + 1 := by omega
    refine .inr ⟨o.stackIndex - 1, hk, by omega, ?_⟩
    cases halias : isRegisterSlotAlias (o.wasmStack (o.stackIndex - 1)) with
    | true =>
      rw [if_pos halias] at h
      cases h
      exact .inl ⟨rfl, rfl⟩
    | false =>
      rw [if_neg (by rw [halias]; decide)] at h
      by_cases hmax : o.slotMaxAllocatedIndexPlusOne ≤ o.wasmStack (o.stackIndex - 1)
      · rw [if_pos hmax] at h
        cases h
      · rw [if_neg hmax] at h
        by_cases hlow : o.slotFirstDynamicIndex ≤ o.wasmStack (o.stackIndex - 1)
        · rw [if_pos hlow] at h
          cases h
          exact .inr (.inl ⟨rfl, hlow, rfl⟩)
        · rw [if_neg hlow] at h
          cases h
          exact .inr (.inr ⟨rfl, Nat.lt_of_not_le hlow, rfl⟩)
  · rw [if_neg hheight] at h
    cases hpoly : o.block.isPolymorphic with
    | true =>
      rw [if_pos hpoly] at h
      cases h
      exact .inl ⟨Nat.le_of_not_lt hheight, rfl, rfl⟩
    | false =>
      rw [if_neg (by rw [hpoly]; decide)] at h
      cases h

theorem Good.pop (h : Good fn active o) (hroom : Writable active room o) (ho : o.pop = .ok o') :
    Kept fn active room o o' := by
  have hlayout := h.frame.layout
  rcases pop_cases ho with ⟨-, -, rfl⟩ | ⟨k, hk, hblock, hcase⟩
  · exact .refl h hroom
  · have hlt : k < o.stackIndex := by omega
    have hiff := h.isRegisterSlotAlias_iff hblock hlt
    have hentry := h.slots.entries k (Nat.le_trans h.frame.base_le hblock) hlt
      (h.frame.open_of_le hblock)
    have halias := slots_lt_alias
    have hdynamic := hlayout.dynamic
    rcases hcase with ⟨hreg, rfl⟩ | ⟨hreg, hlow, rfl⟩ | ⟨hreg, hlow, rfl⟩
    · have hat := hiff.mp hreg
      refine h.drop_entry hroom ⟨rfl, rfl, rfl, rfl, rfl, rfl, rfl, rfl, Nat.le_refl _, id⟩ hk rfl hblock rfl rfl
        (fun n _ hhigh => ?_) (fun _ _ => rfl) rfl rfl rfl (.inl ⟨hat, rfl⟩)
      rw [if_neg fun hcovers : Covers _ _ _ _ => by rw [Covers, hat] at hcovers; omega]
      rfl
    · have hat : o.wasmStack k ≠ d_m3Reg0SlotAlias := fun heq => by
        rw [hiff.mpr heq] at hreg
        cases hreg
      rw [deallocateSlots_eq]
      refine h.drop_entry hroom ⟨rfl, rfl, rfl, rfl, rfl, rfl, rfl, rfl, Nat.le_refl _, id⟩ hk rfl hblock rfl rfl
        (fun n hn hhigh => ?_) (fun n hn => if_neg (by omega)) rfl rfl rfl (.inr ⟨hat, rfl⟩)
      by_cases hcovers : Covers o.wasmStack o.typeStack k n
      · have hpos : o.uses n ≠ 0 := by
          rw [uses, Nat.count_ne_iff_exists]
          exact ⟨k, hlt, h.frame.open_of_le hblock, hcovers⟩
        have hcount := h.slots.counted n hn hhigh
        have hbyte := h.slots.bytes n hn hhigh
        simp only [if_pos hcovers, if_pos (show o.wasmStack k ≤ n ∧ _ from hcovers)]
        omega
      · simp only [if_neg hcovers]
        rw [if_neg (show ¬ (o.wasmStack k ≤ n ∧ _) from hcovers)]
        rfl
    · have hat : o.wasmStack k ≠ d_m3Reg0SlotAlias := by omega
      refine h.drop_entry hroom ⟨rfl, rfl, rfl, rfl, rfl, rfl, rfl, rfl, Nat.le_refl _, id⟩ hk rfl hblock rfl rfl
        (fun n hn hhigh => ?_) (fun _ _ => rfl) rfl rfl rfl (.inr ⟨hat, rfl⟩)
      have hnot : ¬ Covers o.wasmStack o.typeStack k n := by
        have hconsts := hlayout.consts
        intro hcovers
        rw [Covers] at hcovers
        cases hentry with
        | ofLocal j hj hslot htype hblock =>
          have hlocal := hlayout.locals j hj
          rw [hslot, htype] at hcovers
          omega
        | constant hlow hhigh hused => omega
        | dynamic hlow' hhigh => omega
        | register h => exact hat h
      rw [if_neg hnot]
      rfl

/-! ## Pushing -/

theorem push_eq (h : o.push type slot = .ok o') :
    o.stackIndex < d_m3MaxFunctionStackHeight ∧
      o' = { o with
        stackIndex := o.stackIndex + 1
        wasmStack := Function.update o.wasmStack o.stackIndex slot
        typeStack := Function.update o.typeStack o.stackIndex type
        regStackIndexPlusOne :=
          if isRegisterSlotAlias slot then o.stackIndex + 1 else o.regStackIndexPlusOne } := by
  simp only [push, pushAnyway] at h
  by_cases hlt : o.stackIndex < d_m3MaxFunctionStackHeight
  · rw [if_pos hlt] at h
    cases h
    exact ⟨hlt, rfl⟩
  · rw [if_neg hlt] at h
    cases h

/-- A value goes to the register, which is free. -/
theorem Good.pushRegister (h : Good fn active o) (hroom : Writable active room o)
    (hsmall : getTypeNumSlots type ≤ 2)
    (hfree : o.block.isPolymorphic = false → o.regStackIndexPlusOne = 0)
    (ho : o.pushRegister type = .ok o') : Kept fn active room o o' := by
  rcases push_eq ho with ⟨hlt, heq⟩
  simp only [isRegisterSlotAlias_reg, if_true] at heq
  subst heq
  have halias := slots_lt_alias
  refine h.push_entry hroom ⟨rfl, rfl, rfl, rfl, rfl, rfl, rfl, rfl, Nat.le_refl _, id⟩ rfl hlt rfl rfl
    hsmall (h.slots.takes_uncounted (.inr (Nat.le_of_lt halias)) rfl rfl rfl rfl)
    (.register (Function.update_self ..)) (.inr ⟨rfl, rfl, hfree⟩)

/-- An entry that refers to a local. -/
theorem Good.pushLocal (h : Good fn active o) (hroom : Writable active room o)
    (hi : i < o.stackFirstDynamicIndex)
    (ho : o.push (o.typeStack i) (o.wasmStack i) = .ok o') : Kept fn active room o o' := by
  rcases push_eq ho with ⟨hlt, rfl⟩
  have hlayout := h.frame.layout
  have hlocal := hlayout.locals i hi
  have hconsts := hlayout.consts
  have hdynamic := hlayout.dynamic
  have halias := slots_lt_alias
  have hheight := h.slots.height
  have hbase := h.frame.base_le
  have hsmall := h.slots.small i (by omega)
  have hne : ∀ j < o.stackFirstDynamicIndex, j ≠ o.stackIndex := fun j hj => by omega
  have hlt' : o.wasmStack i < d_m3Reg0SlotAlias := by omega
  refine h.push_entry hroom ⟨rfl, rfl, rfl, rfl, rfl, rfl, rfl, rfl, Nat.le_refl _, id⟩ rfl hlt rfl rfl hsmall
    (h.slots.takes_uncounted (.inl (by omega)) rfl rfl rfl rfl)
    (.ofLocal i hi ?_ ?_ hheight) (.inl ⟨Nat.ne_of_lt hlt', ?_⟩)
  · simp only [Function.update_self, Function.update_of_ne (hne i hi)]
  · simp only [Function.update_self, Function.update_of_ne (hne i hi)]
  · exact if_neg (by rw [isRegisterSlotAlias_of_lt hlt']; decide)

/-- `AllocateSlots`: the slots found hold no value. -/
theorem allocateSlots_spec (hsmall : getTypeNumSlots type ≤ 2)
    (ho : o.allocateSlots type = .ok (slot, o')) :
    o' = o.markSlots slot (getTypeNumSlots type) ∧ o.slotFirstDynamicIndex ≤ slot ∧
      slot + getTypeNumSlots type ≤ d_m3MaxFunctionSlots ∧
      ∀ n, slot ≤ n → n < slot + getTypeNumSlots type → o.m3Slots n = 0 := by
  rcases allocateSlots_free ho hsmall with ⟨hlow, -, hhigh, hfree⟩
  exact ⟨(allocateSlots_eq ho).1, hlow, hhigh, hfree⟩

/-- A value goes to slots of its own. -/
theorem Good.pushAllocated (h : Good fn active o) (hroom : Writable active room o)
    (hsmall : getTypeNumSlots type ≤ 2) (halloc : o.allocateSlots type = .ok (slot, o'))
    (ho : o'.push type slot = .ok o'') : Kept fn active room o o'' := by
  rcases allocateSlots_spec hsmall halloc with ⟨heq, hlow, hhigh, hfree⟩
  rw [markSlots_type] at heq
  subst heq
  rcases push_eq ho with ⟨hlt, rfl⟩
  have halias := slots_lt_alias
  have hpos := getTypeNumSlots_pos type
  have hlt' : slot < d_m3Reg0SlotAlias := by omega
  refine h.push_entry hroom
    ⟨rfl, rfl, rfl, rfl, rfl, rfl, rfl, rfl, Nat.le_max_left _ _, max_le_max_right _⟩ rfl hlt rfl rfl hsmall
    (h.slots.takes_mark hlow hfree ?_ ?_ rfl rfl) (.dynamic ?_ ?_) (.inl ⟨Nat.ne_of_lt hlt', ?_⟩)
  · rw [markSlots_type]
  · rw [markSlots_type]
  · simp only [Function.update_self]
    exact hlow
  · simp only [Function.update_self]
    exact hhigh
  · exact if_neg (by rw [isRegisterSlotAlias_of_lt hlt']; decide)

/-- An entry moves from the register, or from a local, to slots of its own. -/
theorem Good.setAllocated (h : Good fn active o) (hroom : Writable active room o)
    (hi : o.block.blockStackIndex ≤ i) (hlt : i < o.stackIndex)
    (hfrom : o.wasmStack i = d_m3Reg0SlotAlias ∧ o.regStackIndexPlusOne = i + 1 ∨
      o.wasmStack i + getTypeNumSlots (o.typeStack i) ≤ o.slotFirstDynamicIndex)
    (hlow : o.slotFirstDynamicIndex ≤ slot)
    (hhigh : slot + getTypeNumSlots (o.typeStack i) ≤ d_m3MaxFunctionSlots)
    (hfree : ∀ n, slot ≤ n → n < slot + getTypeNumSlots (o.typeStack i) → o.m3Slots n = 0)
    (ho : o' = { (o.markSlots slot (getTypeNumSlots (o.typeStack i))).setStackSlot i slot with
      regStackIndexPlusOne :=
        if o.wasmStack i = d_m3Reg0SlotAlias then 0 else o.regStackIndexPlusOne }) :
    Kept fn active room o o' := by
  subst ho
  rw [markSlots_type]
  have halias := slots_lt_alias
  have hpos := getTypeNumSlots_pos (o.typeStack i)
  have hdynamic := h.frame.layout.dynamic
  refine h.set_entry hroom
    ⟨rfl, rfl, rfl, rfl, rfl, rfl, rfl, rfl, Nat.le_max_left _ _, max_le_max_right _⟩ rfl rfl rfl hi hlt
    (fun n hn hn' hcovers => ?_) (h.slots.takes_mark hlow hfree ?_ ?_ rfl rfl) (.dynamic ?_ ?_)
    (by omega) ?_
  · rw [Covers] at hcovers
    rcases hfrom with ⟨hat, -⟩ | hbelow
    · omega
    · omega
  · rw [markSlots_type]
    rfl
  · rw [markSlots_type]
    rfl
  · simp only [setStackSlot, Function.update_self]
    exact hlow
  · simp only [setStackSlot, Function.update_self]
    exact hhigh
  · rcases hfrom with ⟨hat, hreg⟩ | hbelow
    · exact .inr ⟨if_pos hat, hreg⟩
    · have hne : o.wasmStack i ≠ d_m3Reg0SlotAlias := by omega
      exact .inl ⟨if_neg hne, hne⟩

/-- One more entry in a slot that has one already. -/
theorem Good.shareSlot (h : Good fn active o) (hroom : Writable active room o)
    (hi : o.block.blockStackIndex ≤ i) (hlt : i < o.stackIndex)
    (hfrom : o.wasmStack i + getTypeNumSlots (o.typeStack i) ≤ o.slotFirstDynamicIndex)
    (hone : getTypeNumSlots (o.typeStack i) = 1) (hlow : o.slotFirstDynamicIndex ≤ slot)
    (hhigh : slot < d_m3MaxFunctionSlots) (hused : o.m3Slots slot ≠ 0)
    (hincrement : o.incrementSlotUsageCount slot = .ok o') :
    Kept fn active room o (o'.setStackSlot i slot) := by
  simp only [incrementSlotUsageCount] at hincrement
  split at hincrement
  · rename_i hcount
    cases hincrement
    have halias := slots_lt_alias
    have hdynamic := h.frame.layout.dynamic
    refine h.set_entry hroom ⟨rfl, rfl, rfl, rfl, rfl, rfl, rfl, rfl, Nat.le_refl _, id⟩ rfl rfl rfl hi hlt
      (fun n hn hn' hcovers => ?_) ⟨fun n _ _ => ?_, fun n hn hn' => ?_, fun n hn hused' => ?_, ?_,
        fun n hn hn' => ?_, fun n hn hn' hused' => ?_, h.slots.constantsEnd,
        fun _ _ _ _ => rfl⟩ (.dynamic ?_ ?_) (by omega)
      (.inl ⟨rfl, by omega⟩)
    · rw [Covers] at hcovers
      omega
    · rw [hone]
      simp only [setStackSlot]
      by_cases hn : n = slot
      · rw [hn, Function.update_self, if_pos (by omega)]
      · rw [Function.update_of_ne hn, if_neg (by omega)]
        rfl
    · simp only [setStackSlot]
      by_cases hne : n = slot
      · rw [hne, Function.update_self]
        omega
      · rw [Function.update_of_ne hne]
        exact h.slots.bytes n hn hn'
    · simp only [setStackSlot]
      rw [Function.update_of_ne (by omega)]
      exact hused'
    · exact h.slots.touched
    · simp only [setStackSlot] at hn ⊢
      by_cases hne : n = slot
      · exact absurd (h.slots.untouched slot (hne ▸ hn) hhigh) hused
      · rw [Function.update_of_ne hne]
        exact h.slots.untouched n hn hn'
    · simp only [setStackSlot] at hused' ⊢
      rw [Function.update_of_ne (by omega)] at hused'
      exact h.slots.constants n hn hn' hused'
    · simp only [setStackSlot, Function.update_self]
      exact hlow
    · simp only [setStackSlot, Function.update_self]
      omega
  · cases hincrement

end WebAssemblyRuntime.Wasm3.M3Compilation
