import Mathlib.Algebra.Order.BigOperators.Group.Finset
import WebAssemblyRuntime.Wasm3.ReferenceKeeps

/-!
# BlockKeeps — blocks, and with them whole bodies, keep the invariant

A block finds slots for its results when it begins and frees them again, so they are the same slots
that it finds when it ends: the counts are those of the entries below the block, and these do not
change inside it.
-/

namespace WebAssemblyRuntime.Wasm3

namespace M3Compilation

open Reasoning (bind_ok)

variable {fn : M3FuncType} {active : List Nat} {o o' o'' : M3Compilation} {type : M3ValueType}
  {room i n depth slot : Nat} {pc target : PC} {scope : M3CompilationScope}
  {blockType : M3FuncType} {opcode : BlockOpcode}

/-! ## Beginning -/

/-- The slots that `AllocateSlots` finds. -/
def freeSlots (o : M3Compilation) (type : M3ValueType) : Option Nat :=
  findSlots o.m3Slots (getTypeNumSlots type) d_m3MaxFunctionSlots d_m3MaxFunctionSlots
    (alignSlotToType o.slotFirstDynamicIndex type)

theorem allocateSlots_iff : o.allocateSlots type = .ok (slot, o') ↔
    o.freeSlots type = some slot ∧ o' = o.markSlots slot (getTypeNumSlots type) := by
  constructor
  · intro h
    exact ⟨(allocateSlots_eq h).2, (allocateSlots_eq h).1⟩
  · rintro ⟨hfree, rfl⟩
    rw [freeSlots] at hfree
    simp only [allocateSlots, allocateSlotsWithinRange, hfree]

/-- The scope of a block, with the values on the stack below it. -/
def blockScope (o : M3Compilation) (blockType : M3FuncType) (opcode : BlockOpcode) :
    M3CompilationScope :=
  { o.block with
    pc := o.getPC
    patches := []
    type := blockType
    depth := o.block.depth + 1
    opcode := opcode
    exitStackIndex := o.stackIndex
    blockStackIndex := o.stackIndex + blockType.rets.length }

/-- Inside a block without a result. -/
def inBlock (o : M3Compilation) (blockType : M3FuncType) (opcode : BlockOpcode) : M3Compilation :=
  { o with
    outer := o.block :: o.outer
    block := o.blockScope blockType opcode
    stackIndex := o.stackIndex + blockType.rets.length }

/-- Inside a block whose result has a slot. -/
def inBlockWith (o : M3Compilation) (blockType : M3FuncType) (opcode : BlockOpcode)
    (type : M3ValueType) (slot : Nat) : M3Compilation :=
  { o.inBlock blockType opcode with
    wasmStack := Function.update o.wasmStack o.stackIndex slot
    typeStack := Function.update o.typeStack o.stackIndex type
    slotMaxAllocatedIndexPlusOne := max o.slotMaxAllocatedIndexPlusOne (slot + getTypeNumSlots type)
    maxStackSlots := max o.maxStackSlots (slot + getTypeNumSlots type) }

/-- The block's own scope, before it has values of its own. -/
def openBlock (o : M3Compilation) (blockType : M3FuncType) (opcode : BlockOpcode) : M3Compilation :=
  { o with
    outer := o.block :: o.outer
    block := { o.blockScope blockType opcode with blockStackIndex := o.block.blockStackIndex } }

/-- The values of the block begin at the top of the stack. -/
def beginBlock (o : M3Compilation) (stackIndex : Nat) : M3Compilation :=
  { o with block := { o.block with blockStackIndex := stackIndex }, stackIndex := stackIndex }

theorem enterBlock_eq (hgood : SlotsGood o) (hmvp : blockType.Mvp) :
    o.enterBlock blockType opcode =
      let o := (pushBlockResultsAnyway blockType.rets (o.openBlock blockType opcode)).2
      .ok ((popTimesAnyway blockType.rets.length o).beginBlock o.stackIndex) := by
  have hheight := hgood.height
  simp only [enterBlock, hmvp.args, List.reverse_nil, popParams, List.length_nil, Nat.sub_zero,
    Nat.add_zero, pushParams]
  by_cases helse : opcode = .elseOp
  · rw [if_neg (not_not.mpr helse), if_neg (by omega)]
    rfl
  · rw [if_pos helse]
    rfl

/-- Two slots for every value, and as many that may be passed over, leave some for one more. -/
theorem Good.exists_freeSlots (h : Good fn active o) (hsmall : getTypeNumSlots type ≤ 2)
    (hroom : 4 * o.stackIndex + o.slotFirstDynamicIndex + 4 ≤ d_m3MaxFunctionSlots) :
    ∃ slot, o.freeSlots type = some slot := by
  have hpos := getTypeNumSlots_pos type
  let used := (Finset.range o.stackIndex).biUnion fun i =>
    Finset.Ico (o.wasmStack i) (o.wasmStack i + getTypeNumSlots (o.typeStack i))
  have hcard : used.card ≤ o.stackIndex * 2 := by
    have hle : used.card ≤ (Finset.range o.stackIndex).card * 2 :=
      Finset.card_biUnion_le_card_mul _ _ 2 fun i hi => by
        rw [Nat.card_Ico, Nat.add_sub_cancel_left]
        exact h.slots.small i (Finset.mem_range.mp hi)
    rw [Finset.card_range] at hle
    exact hle
  have halign := le_alignSlotToType o.slotFirstDynamicIndex type
  have hstart : alignSlotToType o.slotFirstDynamicIndex type ≤ o.slotFirstDynamicIndex + 1 := by
    have hnum : getTypeNumSlots type = 1 ∨ getTypeNumSlots type = 2 := by omega
    rcases hnum with hnum | hnum
    · simp only [alignSlotToType, hnum]
      omega
    · simp only [alignSlotToType, hnum]
      omega
  refine exists_findSlots hpos used (fun n hlow hhigh hused => ?_) ?_
  · rw [h.slots.counted n (by omega) hhigh] at hused
    rcases Nat.count_ne_iff_exists.mp hused with ⟨i, hi, -, hcovers⟩
    exact Finset.mem_biUnion.mpr ⟨i, Finset.mem_range.mpr hi, Finset.mem_Ico.mpr hcovers⟩
  · have hplaces := Nat.mul_le_mul (Nat.add_le_add_right hcard 1) hsmall
    omega

theorem pop_marked_slots {m3Slots : Nat → Nat} {num : Nat}
    (hfree : ∀ n, slot ≤ n → n < slot + num → m3Slots n = 0) :
    (fun n => if slot ≤ n ∧ n < slot + num then
      ((if slot ≤ n ∧ n < slot + num then 1 else m3Slots n) + 255) % 256
      else if slot ≤ n ∧ n < slot + num then 1 else m3Slots n) = m3Slots := by
  funext n
  by_cases hn : slot ≤ n ∧ n < slot + num
  · rw [if_pos hn, if_pos hn, hfree n hn.1 hn.2]
  · rw [if_neg hn, if_neg hn]

/-- What the beginning of a block comes to: the slots of its result are free again. -/
theorem Good.enterBlock_cases (hgood : Good fn active o) (hmvp : blockType.Mvp)
    (hroom : 4 * o.stackIndex + o.slotFirstDynamicIndex + 4 ≤ d_m3MaxFunctionSlots)
    (h : o.enterBlock blockType opcode = .ok o') :
    blockType.rets = [] ∧ o' = o.inBlock blockType opcode ∨
    ∃ type slot, blockType.rets = [type] ∧ o.freeSlots type = some slot ∧
      o.stackIndex < d_m3MaxFunctionStackHeight ∧
      o' = o.inBlockWith blockType opcode type slot := by
  have hheight := hgood.slots.height
  have hlength := hmvp.rets
  rw [enterBlock_eq hgood.slots hmvp] at h
  cases hrets : blockType.rets with
  | nil =>
    rw [hrets] at h
    simp only [pushBlockResultsAnyway, List.length_nil, popTimesAnyway, Except.ok.injEq] at h
    refine .inl ⟨rfl, ?_⟩
    rw [← h, inBlock, blockScope, beginBlock, openBlock, blockScope, hrets]
    rfl
  | cons type rest =>
    cases rest with
    | cons => rw [hrets] at hlength; simp at hlength
    | nil =>
      have hsmall := (hmvp.ints type (by rw [hrets]; exact List.mem_cons_self ..)).small
      rcases hgood.exists_freeSlots hsmall hroom with ⟨slot, hfound⟩
      have halloc : (o.openBlock blockType opcode).allocateSlots type =
          .ok (slot, (o.openBlock blockType opcode).markSlots slot (getTypeNumSlots type)) :=
        allocateSlots_iff.mpr ⟨hfound, rfl⟩
      rcases allocateSlots_spec hsmall halloc with ⟨-, hlow, hend, hfree⟩
      have hlow : o.slotFirstDynamicIndex ≤ slot := hlow
      have hfree : ∀ n, slot ≤ n → n < slot + getTypeNumSlots type → o.m3Slots n = 0 := hfree
      have halias := slots_lt_alias
      have hpos := getTypeNumSlots_pos type
      have hnot : isRegisterSlotAlias slot = false := isRegisterSlotAlias_of_lt (by omega)
      have hlt : o.stackIndex < d_m3MaxFunctionStackHeight := by
        rw [d_m3MaxFunctionSlots] at hroom
        omega
      rw [hrets] at h
      simp only [pushBlockResultsAnyway, halloc] at h
      simp only [markSlots_type, pushAnyway, openBlock, blockScope, hnot, Bool.false_eq_true,
        if_false] at h
      simp only [if_pos hlt, List.length_singleton, popTimesAnyway, popAnyway,
        Nat.add_sub_cancel, Function.update_self, hnot, Bool.false_eq_true, if_false,
        Except.ok.injEq] at h
      rw [if_pos (by omega), if_neg (by omega), if_pos hlow, deallocateSlots_eq] at h
      refine .inr ⟨type, slot, rfl, hfound, hlt, ?_⟩
      rw [← h, inBlockWith, inBlock, blockScope, beginBlock, hrets, pop_marked_slots hfree]
      rfl

/-- Inside a block, against the state before it. -/
structure Entered (o : M3Compilation) (blockType : M3FuncType) (opcode : BlockOpcode)
    (o' : M3Compilation) : Prop where
  rt : o'.rt = o.rt
  page : o'.page = o.page
  block : o'.block = o.blockScope blockType opcode
  outer : o'.outer = o.block :: o.outer
  stackIndex : o'.stackIndex = o.stackIndex + blockType.rets.length
  bounded : o'.stackIndex ≤ d_m3MaxFunctionStackHeight
  entries : ∀ i < o.stackIndex, o'.wasmStack i = o.wasmStack i ∧ o'.typeStack i = o.typeStack i
  numArgsAndLocals : o'.numArgsAndLocals = o.numArgsAndLocals
  stackFirstDynamicIndex : o'.stackFirstDynamicIndex = o.stackFirstDynamicIndex
  slotFirstConstIndex : o'.slotFirstConstIndex = o.slotFirstConstIndex
  slotFirstDynamicIndex : o'.slotFirstDynamicIndex = o.slotFirstDynamicIndex
  slotMaxConstIndex : o'.slotMaxConstIndex = o.slotMaxConstIndex
  constants : o'.constants = o.constants
  m3Slots : o'.m3Slots = o.m3Slots
  regStackIndexPlusOne : o'.regStackIndexPlusOne = o.regStackIndexPlusOne
  touched : o.slotMaxAllocatedIndexPlusOne ≤ o'.slotMaxAllocatedIndexPlusOne
  maxStackSlots : o.maxStackSlots ≤ o'.maxStackSlots
  allocated : o.slotMaxAllocatedIndexPlusOne ≤ o.maxStackSlots →
    o'.slotMaxAllocatedIndexPlusOne ≤ o'.maxStackSlots
  record : ∀ type, blockType.rets = [type] → o'.typeStack o.stackIndex = type ∧
    o.freeSlots type = some (o'.wasmStack o.stackIndex)

theorem Good.enterBlock_entered (hgood : Good fn active o) (hmvp : blockType.Mvp)
    (hroom : 4 * o.stackIndex + o.slotFirstDynamicIndex + 4 ≤ d_m3MaxFunctionSlots)
    (h : o.enterBlock blockType opcode = .ok o') : Entered o blockType opcode o' := by
  have hbounded := hgood.slots.bounded
  rcases hgood.enterBlock_cases hmvp hroom h with ⟨hrets, rfl⟩ | ⟨type, slot, hrets, hfree, hlt, rfl⟩
  · refine ⟨rfl, rfl, rfl, rfl, rfl, ?_, fun _ _ => ⟨rfl, rfl⟩, rfl, rfl, rfl, rfl, rfl, rfl, rfl, rfl,
      Nat.le_refl _, Nat.le_refl _, id, fun type htype => ?_⟩
    · rw [inBlock, hrets]
      exact hbounded
    · rw [hrets] at htype
      cases htype
  · refine ⟨rfl, rfl, rfl, rfl, rfl, ?_, fun i hi => ⟨?_, ?_⟩, rfl, rfl, rfl, rfl, rfl, rfl, rfl, rfl,
      Nat.le_max_left _ _, Nat.le_max_left _ _, max_le_max_right _, fun type' htype => ?_⟩
    · rw [inBlockWith, inBlock, hrets]
      exact hlt
    · exact Function.update_of_ne (Nat.ne_of_lt hi) ..
    · exact Function.update_of_ne (Nat.ne_of_lt hi) ..
    · rw [hrets] at htype
      cases htype
      simp only [inBlockWith, Function.update_self]
      exact ⟨trivial, hfree⟩

theorem Scoped.depth_eq {base : Nat} {c : M3CompilationScope} {outer : List M3CompilationScope}
    (h : Scoped fn base c outer) : c.depth = outer.length := by
  cases outer with
  | nil => exact h.2.2.2.1
  | cons next rest => exact h.2.2.2.1

theorem freeSlots_spec (hsmall : getTypeNumSlots type ≤ 2) (h : o.freeSlots type = some slot) :
    o.slotFirstDynamicIndex ≤ slot ∧ slot + getTypeNumSlots type ≤ d_m3MaxFunctionSlots ∧
      ∀ n, slot ≤ n → n < slot + getTypeNumSlots type → o.m3Slots n = 0 :=
  (allocateSlots_spec hsmall (allocateSlots_iff.mpr ⟨h, rfl⟩)).2

theorem Entered.open_iff (h : Entered o blockType opcode o') (i : Nat) : Open o'.scopes i ↔
    (i < o.stackIndex ∨ o.stackIndex + blockType.rets.length ≤ i) ∧ Open o.scopes i := by
  rw [scopes, h.block, h.outer]
  exact List.forall_mem_cons

/-- Slots that are free cover no value. -/
theorem Good.not_covers (h : Good fn active o) (hlow : o.slotFirstDynamicIndex ≤ n)
    (hhigh : n < d_m3MaxFunctionSlots) (hfree : o.m3Slots n = 0) (hi : i < o.stackIndex)
    (hopen : Open o.scopes i) : ¬ Covers o.wasmStack o.typeStack i n := by
  intro hcovers
  have hcount := h.slots.counted n hlow hhigh
  rw [hfree, uses] at hcount
  exact Nat.count_ne_iff_exists.mpr ⟨i, hi, hopen, hcovers⟩ hcount.symm

theorem FrameGood.enter (h : Good fn active o) (hentered : Entered o blockType opcode o')
    (hmvp : blockType.Mvp) (hopcode : opcode ≠ .function) : FrameGood fn o' := by
  have hlayout := h.frame.layout
  have hbase := Nat.le_trans h.frame.base_le h.slots.height
  have hslot := fun i hi => (hentered.entries i hi).1
  have htype := fun i hi => (hentered.entries i hi).2
  have hcovers : ∀ i < o.stackIndex, ∀ n,
      Covers o'.wasmStack o'.typeStack i n ↔ Covers o.wasmStack o.typeStack i n :=
    fun i hi n => covers_congr (hslot i hi) (htype i hi)
  refine ⟨⟨?_, ?_, ?_, ?_, ?_, ?_, ?_, ?_⟩, ?_, ?_⟩
  · rw [hentered.numArgsAndLocals, hentered.stackFirstDynamicIndex]
    exact hlayout.numArgsAndLocals
  · rw [hentered.stackFirstDynamicIndex]
    intro i hi
    rw [htype i (by omega)]
    exact hlayout.ints i hi
  · rw [hentered.stackFirstDynamicIndex]
    intro i hi
    rw [hslot i (by omega)]
    exact hlayout.results i hi
  · rw [hentered.stackFirstDynamicIndex, hentered.slotFirstConstIndex]
    intro i hi
    rw [hslot i (by omega), htype i (by omega)]
    exact hlayout.locals i hi
  · rw [hentered.stackFirstDynamicIndex]
    intro i hi j hj n
    rw [hcovers i (by omega), hcovers j (by omega)]
    exact hlayout.apart i hi j hj n
  · rw [hentered.slotFirstConstIndex]
    exact hlayout.afterResults
  · rw [hentered.slotFirstConstIndex, hentered.slotFirstDynamicIndex]
    exact hlayout.consts
  · rw [hentered.slotFirstDynamicIndex]
    exact hlayout.dynamic
  · rw [hentered.block, hentered.outer, hentered.stackFirstDynamicIndex]
    refine ⟨rfl, hmvp, hopcode, ?_, h.slots.height, h.frame.nested⟩
    rw [← h.frame.nested.depth_eq]
    rfl
  · intro c hmem hfunction hrets
    rw [scopes, hentered.block, hentered.outer] at hmem
    rcases List.mem_cons.mp hmem with rfl | hmem
    · obtain ⟨type, hone⟩ : ∃ type, blockType.rets = [type] :=
        List.length_eq_one_iff.mp (Nat.le_antisymm hmvp.rets (List.length_pos_iff.mpr hrets))
      have hsmall := (hmvp.ints type (by rw [hone]; exact List.mem_cons_self ..)).small
      rcases hentered.record type hone with ⟨hrecord, hfree⟩
      rcases freeSlots_spec hsmall hfree with ⟨hlow, hhigh, hzero⟩
      have hexit : (o.blockScope blockType opcode).exitStackIndex = o.stackIndex := rfl
      refine ⟨?_, ?_, ?_, fun i hi hlow' hopen n hn => ?_⟩
      · rw [hexit, hrecord]
        exact hone
      · rw [hexit, hentered.slotFirstDynamicIndex]
        exact hlow
      · rw [hexit, hrecord]
        exact hhigh
      · rw [hexit] at hi hn
        rw [Covers, hrecord] at hn
        rw [hcovers i hi]
        exact h.not_covers (by omega) (by omega) (hzero n hn.1 hn.2) hi
          ((hentered.open_iff i).mp hopen).2
    · have hlt := Nat.lt_of_lt_of_le (h.frame.nested.exit_lt c hmem hfunction hrets) h.slots.height
      have hrecorded := h.frame.recorded c hmem hfunction hrets
      refine ⟨?_, ?_, ?_, fun i hi hlow hopen n => ?_⟩
      · rw [htype _ hlt]
        exact hrecorded.type
      · rw [hslot _ hlt, hentered.slotFirstDynamicIndex]
        exact hrecorded.low
      · rw [hslot _ hlt, htype _ hlt]
        exact hrecorded.high
      · rw [hcovers _ hlt, hcovers _ (Nat.lt_trans hi hlt)]
        rw [hentered.stackFirstDynamicIndex] at hlow
        exact hrecorded.apart i hi hlow ((hentered.open_iff i).mp hopen).2 n

/-- The results of a block are not counted while it is open. -/
theorem Entered.uses_eq (h : Entered o blockType opcode o') (hmvp : blockType.Mvp) (n : Nat) :
    o'.uses n = o.uses n := by
  have hlength := hmvp.rets
  have hindex := h.stackIndex
  have hbelow : Nat.count (fun i => Open o'.scopes i ∧ Covers o'.wasmStack o'.typeStack i n)
      o.stackIndex = o.uses n := by
    refine count_congr fun i hi => ?_
    rw [h.open_iff, covers_congr (h.entries i hi).1 (h.entries i hi).2]
    exact and_congr_left fun _ => ⟨fun hopen => hopen.2, fun hopen => ⟨.inl hi, hopen⟩⟩
  rw [uses, hindex]
  by_cases hrets : blockType.rets.length = 0
  · rw [hrets]
    exact hbelow
  · have hone : blockType.rets.length = 1 := by omega
    have hnot : ¬ (Open o'.scopes o.stackIndex ∧
        Covers o'.wasmStack o'.typeStack o.stackIndex n) := by
      rintro ⟨hopen, -⟩
      rcases ((h.open_iff _).mp hopen).1 with hlt | hle
      · omega
      · omega
    rw [hone, Nat.count_succ, if_neg hnot]
    exact hbelow

/-- With the register free and no entry in the slot of a local, a block can begin. -/
structure Settled (o : M3Compilation) : Prop where
  register : o.regStackIndexPlusOne = 0
  unreferenced : ∀ j < o.stackFirstDynamicIndex, Unreferenced o j

theorem Settled.of_emitted (h : Settled o) (hemitted : Emitted o o') : Settled o' := by
  rw [hemitted]
  exact ⟨h.register, h.unreferenced⟩

theorem Good.enter (h : Good fn active o) (hentered : Entered o blockType opcode o')
    (hmvp : blockType.Mvp) (hopcode : opcode ≠ .function) (hsettled : Settled o) :
    Good fn active o' := by
  have hslots := h.slots
  have hbase := Nat.le_trans h.frame.base_le h.slots.height
  have hslot := fun i hi => (hentered.entries i hi).1
  have htype := fun i hi => (hentered.entries i hi).2
  have hindex := hentered.stackIndex
  have hlength := hmvp.rets
  have hblock : o'.block.blockStackIndex = o.stackIndex + blockType.rets.length := by
    rw [hentered.block]
    rfl
  have hbelow : ∀ i < o'.stackIndex, Open o'.scopes i → i < o.stackIndex ∧ Open o.scopes i := by
    intro i hi hopen
    rcases (hentered.open_iff i).mp hopen with ⟨hside, hopen⟩
    exact ⟨by omega, hopen⟩
  refine ⟨.enter h hentered hmvp hopcode,
    ⟨?_, hentered.bounded, fun i hlow hi hopen => ?_, fun i hi => ?_, fun n hlow hhigh => ?_, ?_, ?_,
      hentered.allocated hslots.allocated, fun n hn hhigh => ?_, ?_, ?_, fun hne => ?_,
      fun hpoly i hlow hi hopen hat => ?_⟩,
    ⟨h.room.of_eq hentered.rt hentered.page, ?_, ?_, ?_⟩⟩
  · rw [hblock, hindex]
  · rcases hbelow i hi hopen with ⟨hlt, hopen⟩
    rw [hentered.stackFirstDynamicIndex] at hlow
    refine (hslots.entries i hlow hlt hopen).of_agree hentered.stackFirstDynamicIndex
      hentered.slotFirstConstIndex hentered.slotFirstDynamicIndex
      (fun j hj hat hinside => absurd hat (hsettled.unreferenced j hj i hinside hlt))
      (fun j hj => hentered.entries j (by omega)) (hslot i hlt) (htype i hlt) fun n _ _ hused => ?_
    rw [hentered.m3Slots]
    exact hused
  · by_cases hlt : i < o.stackIndex
    · rw [htype i hlt]
      exact hslots.small i hlt
    · obtain ⟨type, hone⟩ : ∃ type, blockType.rets = [type] :=
        List.length_eq_one_iff.mp (by omega)
      have hi : i = o.stackIndex := by
        rw [hone, List.length_singleton] at hindex
        omega
      rw [hi, (hentered.record type hone).1]
      exact (hmvp.ints type (by rw [hone]; exact List.mem_cons_self ..)).small
  · rw [hentered.slotFirstDynamicIndex] at hlow
    rw [hentered.m3Slots, hslots.counted n hlow hhigh]
    exact (hentered.uses_eq hmvp n).symm
  · rw [hentered.slotFirstDynamicIndex, hentered.m3Slots]
    exact hslots.bytes
  · rw [hentered.slotFirstDynamicIndex]
    exact Nat.le_trans hslots.touched hentered.touched
  · rw [hentered.m3Slots]
    exact hslots.untouched n (Nat.le_trans hentered.touched hn) hhigh
  · rw [hentered.slotFirstConstIndex, hentered.slotFirstDynamicIndex, hentered.m3Slots,
      hentered.slotMaxConstIndex]
    exact hslots.constants
  · rw [hentered.slotMaxConstIndex, hentered.slotFirstDynamicIndex]
    exact hslots.constantsEnd
  · exact absurd (hentered.regStackIndexPlusOne.trans hsettled.register) hne
  · rcases hbelow i hi hopen with ⟨hlt, hopen⟩
    rw [hentered.stackFirstDynamicIndex] at hlow
    rw [hslot i hlt] at hat
    rw [hentered.block] at hpoly
    have hreg := hslots.unique hpoly i hlow hlt hopen hat
    rw [hsettled.register] at hreg
    omega
  · rw [scopes, hentered.block, hentered.outer]
    exact h.code.patches
  · rw [scopes, hentered.block, hentered.outer, hentered.rt]
    intro c hmem pc hpc
    rcases List.mem_cons.mp hmem with rfl | hmem
    · cases hpc
    · exact h.code.unpatched c hmem pc hpc
  · rw [scopes, hentered.block, hentered.outer, hentered.rt]
    intro c hmem
    rcases List.mem_cons.mp hmem with rfl | hmem
    · exact Nat.le_refl _
    · exact h.code.begun c hmem

/-! ## The end -/

/-- Every word of the list gets the same target. -/
def fillIn (patches : List PC) (target : PC) (rt : M3CodePages) : M3CodePages :=
  patches.foldl (fun rt pc => rt.setWord pc (.pc target)) rt

theorem foldl_patch (patches : List PC) (o : M3Compilation) :
    patches.foldl (fun o pc => o.patch pc target) o =
      { o with rt := fillIn patches target o.rt } := by
  induction patches generalizing o with
  | nil => rfl
  | cons pc patches ih =>
    rw [List.foldl_cons, ih]
    rfl

/-- The end of a block: its branches lead here, and the block around it is the current one. -/
theorem leave_eq {outer : List M3CompilationScope} (houter : o.outer = scope :: outer) :
    o.patchBranches.leaveScope =
      { o with rt := fillIn o.block.patches o.getPC o.rt, block := scope, outer := outer } := by
  rw [patchBranches, foldl_patch, leaveScope]
  simp only [houter]

theorem leave_stackIndex {outer : List M3CompilationScope} (houter : o.outer = scope :: outer) :
    ({ o with stackIndex := i } : M3Compilation).patchBranches.leaveScope =
      { o.patchBranches.leaveScope with stackIndex := i } := by
  rw [leave_eq houter, leave_eq (o := { o with stackIndex := i }) houter]
  rfl

theorem Writable.fillIn {patches : List PC} (h : Writable active n o) :
    Writable active n { o with rt := M3Compilation.fillIn patches target o.rt } := by
  rw [← foldl_patch]
  induction patches generalizing o with
  | nil => exact h
  | cons pc patches ih => exact ih h.patch

theorem Writes.fillIn {patches : List PC} (h : Writes active o o')
    (hfresh : ∀ pc ∈ patches, o.rt.word pc = none) :
    Writes active o { o' with rt := M3Compilation.fillIn patches target o'.rt } := by
  rw [← foldl_patch]
  induction patches generalizing o' with
  | nil => exact h
  | cons pc patches ih =>
    exact ih (h.patch (hfresh pc (List.mem_cons_self ..)))
      fun pc' hmem => hfresh pc' (List.mem_cons_of_mem _ hmem)

theorem word_fillIn_of_not_mem {patches : List PC} (o : M3Compilation) (hpc : pc ∉ patches) :
    (fillIn patches target o.rt).word pc = o.rt.word pc := by
  have hsame : ({ o with rt := fillIn patches target o.rt } : M3Compilation).rt.word pc =
      o.rt.word pc := by
    rw [← foldl_patch]
    induction patches generalizing o with
    | nil => rfl
    | cons pc' patches ih =>
      rw [List.foldl_cons, ih _ fun hmem => hpc (List.mem_cons_of_mem _ hmem)]
      exact word_patch_of_ne fun heq => hpc (heq ▸ List.mem_cons_self ..)
  exact hsame

theorem word_fillIn {patches : List PC} (o : M3Compilation) (hpc : pc ∈ patches)
    (hwords : ∀ pc ∈ patches, ∃ w, o.rt.word pc = some w) :
    (fillIn patches target o.rt).word pc = some (.pc target) := by
  induction patches generalizing o with
  | nil => cases hpc
  | cons pc' patches ih =>
    by_cases hmem : pc ∈ patches
    · refine ih (o.patch pc' target) hmem fun pc'' hmem'' => ?_
      rcases hwords pc'' (List.mem_cons_of_mem _ hmem'') with ⟨w, hw⟩
      by_cases heq : pc'' = pc'
      · rw [heq] at hw ⊢
        exact ⟨_, word_patch hw⟩
      · exact ⟨w, (word_patch_of_ne heq).trans hw⟩
    · have heq : pc = pc' := by
        rcases List.mem_cons.mp hpc with heq | hin
        · exact heq
        · exact absurd hin hmem
      rcases hwords pc' (List.mem_cons_self ..) with ⟨w, hw⟩
      have hsame : (fillIn (pc' :: patches) target o.rt) =
          fillIn patches target (o.patch pc' target).rt := rfl
      rw [hsame, word_fillIn_of_not_mem _ hmem, heq]
      exact word_patch hw

theorem lines_fillIn {patches : List PC} (o : M3Compilation) (page : Nat) :
    ((fillIn patches target o.rt).pages page).lineIndex = (o.rt.pages page).lineIndex := by
  induction patches generalizing o with
  | nil => rfl
  | cons pc patches ih => exact (ih (o.patch pc target)).trans (pages_patch page).1

/-- After a block, against the state before it. -/
structure Left (fn : M3FuncType) (active : List Nat) (room : Nat) (o o' : M3Compilation) :
    Prop where
  kept : Kept fn active room o o'
  stackIndex : o'.stackIndex = o.stackIndex
  entries : ∀ i < o.stackIndex, o'.wasmStack i = o.wasmStack i ∧ o'.typeStack i = o.typeStack i
  polymorphic : o'.block.isPolymorphic = o.block.isPolymorphic
  register : o'.regStackIndexPlusOne = 0

theorem ScopeExt.of_rt {c c' : M3CompilationScope} (h : ScopeExt o c c') (hrt : o.rt = o''.rt) :
    ScopeExt o'' c c' := by
  rcases h.patches with ⟨added, heq, hfresh⟩
  exact ⟨h.same, added, heq, fun pc hpc => by rw [← hrt]; exact hfresh pc hpc⟩

/-- What is compiled in a block is an extension of the state before it. -/
theorem Entered.ext_of_leave (hentered : Entered o blockType opcode o') (hext : Ext active o' o'')
    (hheight : o.block.blockStackIndex ≤ o.stackIndex) {outer : List M3CompilationScope}
    (hscope : ScopeExt o' o.block scope)
    (houter : List.Forall₂ (fun c c' => ScopeExt o' c c' ∧ c'.isPolymorphic = c.isPolymorphic)
      o.outer outer) :
    Ext active o { o'' with
      rt := fillIn o''.block.patches o''.getPC o''.rt
      block := scope
      outer := outer
      stackIndex := o.stackIndex } := by
  have hblock : o'.block.blockStackIndex = o.stackIndex + blockType.rets.length := by
    rw [hentered.block]
    rfl
  have hwrites : Writes active o o'' := (Writes.of_rt hentered.rt).trans hext.writes
  have hfresh : ∀ pc ∈ o''.block.patches, o.rt.word pc = none := by
    rcases hext.block.patches with ⟨added, heq, hadded⟩
    rw [hentered.block] at heq
    intro pc hpc
    rw [heq] at hpc
    rw [← hentered.rt]
    exact hadded pc (by simpa [blockScope] using hpc)
  refine ⟨(hwrites.fillIn hfresh).trans (.of_rt rfl), hscope.of_rt hentered.rt,
    houter.imp fun c c' hc => ⟨hc.1.of_rt hentered.rt, hc.2⟩, fun i hi => ?_,
    hext.numArgsAndLocals.trans hentered.numArgsAndLocals,
    hext.stackFirstDynamicIndex.trans hentered.stackFirstDynamicIndex,
    hext.slotFirstConstIndex.trans hentered.slotFirstConstIndex,
    hext.slotFirstDynamicIndex.trans hentered.slotFirstDynamicIndex,
    Nat.le_trans hentered.maxStackSlots hext.maxStackSlots, fun n hlow hhigh hused => ?_⟩
  · rcases hext.entries i (by omega) with ⟨hslot, htype⟩
    rcases hentered.entries i (by omega) with ⟨hslot', htype'⟩
    exact ⟨hslot.trans hslot', htype.trans htype'⟩
  · have hkept := hext.constants n
    rw [hentered.slotFirstConstIndex, hentered.slotFirstDynamicIndex, hentered.m3Slots,
      hentered.constants] at hkept
    exact hkept hlow hhigh hused

theorem CodeGood.leave {outer : List M3CompilationScope} (h : CodeGood active o'')
    (hscopes : o''.outer = scope :: outer) : CodeGood active { o'' with
      rt := fillIn o''.block.patches o''.getPC o''.rt
      block := scope
      outer := outer
      stackIndex := i } := by
  have hpatches := h.patches
  rw [scopes, hscopes, List.flatMap_cons] at hpatches
  have hmem : ∀ c ∈ scope :: outer, c ∈ o''.scopes := fun c hmem => by
    rw [scopes, hscopes]
    exact List.mem_cons_of_mem _ hmem
  refine ⟨?_, (List.nodup_append.mp hpatches).2.1, fun c hc pc hpc => ?_, fun c hc => ?_⟩
  · exact h.writable.fillIn.of_eq rfl rfl
  · have hnot : pc ∉ o''.block.patches := fun hin => (List.nodup_append.mp hpatches).2.2 pc hin pc
      (List.mem_flatMap.mpr ⟨c, hc, hpc⟩) rfl
    exact (word_fillIn_of_not_mem o'' hnot).trans (h.unpatched c (hmem c hc) pc hpc)
  · exact (lines_fillIn o'' c.pc.page).symm ▸ h.begun c (hmem c hc)

/-- The block ends with nothing of its own left on the stack. -/
theorem Good.leave (h : Good fn active o) (hentered : Entered o blockType opcode o')
    (hmvp : blockType.Mvp) (hsettled : Settled o) (hinside : Kept fn active room o' o'')
    (hindex : o''.stackIndex = o''.block.blockStackIndex) :
    Left fn active room o { o''.patchBranches.leaveScope with stackIndex := o.stackIndex } := by
  have hext := hinside.ext
  have hslots := hinside.good.slots
  have houter := hext.outer
  have hheight := h.slots.height
  have hbase := Nat.le_trans h.frame.base_le hheight
  rw [hentered.outer] at houter
  cases hscopes : o''.outer with
  | nil =>
    rw [hscopes] at houter
    cases houter
  | cons scope outer =>
    rw [hscopes] at houter
    cases houter with
    | cons hscope houter =>
      rw [leave_eq hscopes]
      have hleft := hentered.ext_of_leave hext hheight hscope.1 houter
      have hblock : o'.block.blockStackIndex = o'.stackIndex := by
        rw [hentered.block, hentered.stackIndex]
        rfl
      have hentries : ∀ i < o.stackIndex, o''.wasmStack i = o.wasmStack i ∧
          o''.typeStack i = o.typeStack i := by
        intro i hi
        rcases hext.entries i (by rw [hblock, hentered.stackIndex]; omega) with ⟨hslot, htype⟩
        rcases hentered.entries i hi with ⟨hslot', htype'⟩
        exact ⟨hslot.trans hslot', htype.trans htype'⟩
      have hreg : o''.regStackIndexPlusOne = 0 := by
        by_contra hne
        have hregister := hslots.register hne
        omega
      have huses : ∀ n, o''.uses n = o.uses n := by
        intro n
        rw [← hentered.uses_eq hmvp, uses, uses, hindex, hext.block.blockStackIndex, hblock]
        refine count_congr fun i hi => ?_
        rw [hext.open_iff, hext.covers_iff (hblock ▸ hi)]
      refine ⟨⟨hleft, ⟨h.frame.of_ext hleft, ⟨?_, h.slots.bounded, fun i hlow hi hopen => ?_,
        fun i hi => ?_, fun n hlow hhigh => ?_, hslots.bytes, hslots.touched, hslots.allocated,
        hslots.untouched, hslots.constants, hslots.constantsEnd, fun hne => absurd hreg hne,
        fun hpoly i hlow hi hopen hat => ?_⟩, hinside.good.code.leave hscopes⟩,
        hinside.room.fillIn.of_eq rfl rfl⟩, rfl, hentries, hscope.2, hreg⟩
      · exact Nat.le_trans (Nat.le_of_eq hscope.1.blockStackIndex) hheight
      · have hlow' : o.stackFirstDynamicIndex ≤ i := hleft.stackFirstDynamicIndex ▸ hlow
        refine (h.slots.entries i hlow' hi ((hleft.open_iff i).mp hopen)).of_agree
          hleft.stackFirstDynamicIndex hleft.slotFirstConstIndex hleft.slotFirstDynamicIndex
          (fun _ _ _ hle => Nat.le_trans (Nat.le_of_eq hscope.1.blockStackIndex) hle)
          (fun j hj => hentries j (by omega)) (hentries i hi).1 (hentries i hi).2
          fun n hn hn' hused => (hleft.constants n hn hn' hused).1
      · exact (hentries i hi).2 ▸ h.slots.small i hi
      · refine (hslots.counted n hlow hhigh).trans ((huses n).trans (count_congr fun i hi => ?_))
        rw [hleft.open_iff, covers_congr (hentries i hi).1 (hentries i hi).2]
      · have hlow' : o.stackFirstDynamicIndex ≤ i := hleft.stackFirstDynamicIndex ▸ hlow
        have hat' : o.wasmStack i = d_m3Reg0SlotAlias := (hentries i hi).1 ▸ hat
        have hpoly' : o.block.isPolymorphic = false := hscope.2 ▸ hpoly
        have hset := h.slots.unique hpoly' i hlow' hi ((hleft.open_iff i).mp hopen) hat'
        rw [hsettled.register] at hset
        omega

theorem pushBlockResults_cases (hmvp : o.block.type.Mvp) (h : o.pushBlockResults = .ok o') :
    o.block.type.rets = [] ∧ o' = o ∨
    ∃ type slot o₁, o.block.type.rets = [type] ∧ o.allocateSlots type = .ok (slot, o₁) ∧
      o₁.push type slot = .ok o' := by
  have hlength := hmvp.rets
  rw [pushBlockResults] at h
  cases hrets : o.block.type.rets with
  | nil =>
    simp only [hrets, pushBlockResultsAnyway] at h
    cases h
    exact .inl ⟨rfl, rfl⟩
  | cons type rest =>
    cases rest with
    | cons => rw [hrets] at hlength; simp at hlength
    | nil =>
      simp only [hrets, pushBlockResultsAnyway] at h
      cases halloc : o.allocateSlots type with
      | error e =>
        rw [halloc] at h
        cases h
      | ok found =>
        rcases found with ⟨slot, o₁⟩
        simp only [halloc] at h
        refine .inr ⟨type, slot, o₁, rfl, halloc, ?_⟩
        rw [push]
        cases hpush : o₁.pushAnyway type slot with
        | mk failed o₂ =>
          cases failed with
          | none =>
            simp only [hpush] at h
            cases h
            rfl
          | some e =>
            simp only [hpush] at h
            cases h

/-- The results of a block that ends, on the stack of the block around it. -/
theorem pushBlockResults_leave {outer : List M3CompilationScope} (houter : o.outer = scope :: outer)
    (hmvp : o.block.type.Mvp) (h : o.pushBlockResults = .ok o') :
    o.block.type.rets = [] ∧ o'.patchBranches.leaveScope = o.patchBranches.leaveScope ∨
    ∃ type slot o₁, o.block.type.rets = [type] ∧
      o.patchBranches.leaveScope.allocateSlots type = .ok (slot, o₁) ∧
      o₁.push type slot = .ok o'.patchBranches.leaveScope := by
  rcases pushBlockResults_cases hmvp h with ⟨hrets, rfl⟩ | ⟨type, slot, o₁, hrets, halloc, hpush⟩
  · exact .inl ⟨hrets, rfl⟩
  · rcases allocateSlots_iff.mp halloc with ⟨hfree, rfl⟩
    rcases push_eq hpush with ⟨hlt, rfl⟩
    refine .inr ⟨type, slot, _, hrets, allocateSlots_iff.mpr ⟨?_, rfl⟩, ?_⟩
    · rw [leave_eq houter]
      exact hfree
    · rw [markSlots_type] at hlt ⊢
      rw [leave_eq houter, leave_eq (by rw [markSlots_type]; exact houter)]
      simp only [push, pushAnyway, markSlots_type]
      rw [if_pos hlt]
      rfl

theorem exitBlock_cases (h : o.exitBlock opcode = .ok o') :
    ∃ o₁ o₂, (o.block.isPolymorphic = true ∧ o₁ = o ∨
        o.block.isPolymorphic = false ∧ o.resolveBlockResults o.block false = .ok o₁) ∧
      o₁.unwindBlockStack = .ok o₂ ∧
      (opcode = .ifOp ∧ o' = o₂.patchBranches.leaveScope ∨
        opcode ≠ .ifOp ∧ ∃ o₃, ({ o₂ with stackIndex := o₂.block.exitStackIndex }
          : M3Compilation).pushBlockResults = .ok o₃ ∧ o' = o₃.patchBranches.leaveScope) := by
  rw [exitBlock] at h
  have hlast : ∀ o₁ : M3Compilation, (do
      let o ← o₁.unwindBlockStack
      let o ← if opcode = .ifOp then .ok o
        else ({ o with stackIndex := o.block.exitStackIndex } : M3Compilation).pushBlockResults
      .ok o.patchBranches.leaveScope : Except CompileErr M3Compilation) = .ok o' →
      ∃ o₂, o₁.unwindBlockStack = .ok o₂ ∧ (opcode = .ifOp ∧ o' = o₂.patchBranches.leaveScope ∨
        opcode ≠ .ifOp ∧ ∃ o₃, ({ o₂ with stackIndex := o₂.block.exitStackIndex }
          : M3Compilation).pushBlockResults = .ok o₃ ∧ o' = o₃.patchBranches.leaveScope) := by
    intro o₁ h
    rcases bind_ok h with ⟨o₂, hunwind, h⟩
    refine ⟨o₂, hunwind, ?_⟩
    by_cases hif : opcode = .ifOp
    · rw [if_pos hif] at h
      cases h
      exact .inl ⟨hif, rfl⟩
    · rw [if_neg hif] at h
      rcases bind_ok h with ⟨o₃, hpush, h⟩
      cases h
      exact .inr ⟨hif, o₃, hpush, rfl⟩
  cases hpoly : o.block.isPolymorphic with
  | true =>
    rw [if_pos hpoly] at h
    rcases hlast o h with ⟨o₂, hrest⟩
    exact ⟨o, o₂, .inl ⟨rfl, rfl⟩, hrest⟩
  | false =>
    rw [if_neg (by rw [hpoly]; decide)] at h
    rcases bind_ok h with ⟨o₁, hresolve, h⟩
    rcases hlast o₁ h with ⟨o₂, hrest⟩
    exact ⟨o₁, o₂, .inr ⟨rfl, hresolve⟩, hrest⟩

/-- The results of a block, on the stack of the block around it. -/
def PushesResults (types : List M3ValueType) (o o' : M3Compilation) : Prop :=
  types = [] ∧ o' = o ∨
    ∃ type slot o₁, types = [type] ∧ o.allocateSlots type = .ok (slot, o₁) ∧
      o₁.push type slot = .ok o'

/-- The states that a block goes through: entered, after its statements, with its results where
they belong, with nothing of its own on the stack, and left. -/
structure BlockRun (fn : M3FuncType) (active : List Nat) (o : M3Compilation)
    (blockType : M3FuncType) (opcode : BlockOpcode)
    (statements : M3Compilation → Except CompileErr M3Compilation)
    (o₁ o₂ o₃ o₄ o₅ : M3Compilation) : Prop where
  entered : Entered o blockType opcode o₁
  good : Good fn active o₁
  statements : statements o₁ = .ok o₂
  inside : Kept fn active 0 o₁ o₂
  resolved : o₂.block.isPolymorphic = true ∧ o₃ = o₂ ∨
    o₂.block.isPolymorphic = false ∧ o₂.resolveBlockResults o₂.block false = .ok o₃
  unwound : o₃.unwindBlockStack = .ok o₄
  keptResolved : Kept fn active 0 o₂ o₃
  keptUnwound : Kept fn active 0 o₃ o₄
  leave : o₅ = { o₄.patchBranches.leaveScope with stackIndex := o.stackIndex }
  left : Left fn active 0 o o₅

/-- A block keeps the invariant if its statements do. -/
theorem Good.compileBlock {statements : M3Compilation → Except CompileErr M3Compilation}
    (h : Good fn active o) (hmvp : blockType.Mvp) (hopcode : opcode ≠ .function)
    (hsettled : Settled o)
    (hroom : 4 * o.stackIndex + o.slotFirstDynamicIndex + 4 ≤ d_m3MaxFunctionSlots)
    (hstatements : ∀ {o₁ o₂}, Good fn active o₁ → Entered o blockType opcode o₁ →
      statements o₁ = .ok o₂ → Kept fn active 0 o₁ o₂)
    (ho : o.compileBlock blockType opcode statements = .ok o') :
    ∃ o₁ o₂ o₃ o₄ o₅, BlockRun fn active o blockType opcode statements o₁ o₂ o₃ o₄ o₅ ∧
      (opcode = .ifOp ∧ { o' with stackIndex := o.stackIndex } = o₅ ∧
          o'.stackIndex = o.stackIndex + blockType.rets.length ∨
        opcode ≠ .ifOp ∧ PushesResults blockType.rets o₅ o') := by
  rcases bind_ok ho with ⟨entered, henter, ho⟩
  rcases bind_ok ho with ⟨done, hdone, hexit⟩
  have hentered := h.enterBlock_entered hmvp hroom henter
  have hgood := h.enter hentered hmvp hopcode hsettled
  have hinside := hstatements hgood hentered hdone
  have hblock : ∀ {o₁ : M3Compilation}, Ext active entered o₁ →
      o₁.block.exitStackIndex = o.stackIndex ∧ o₁.block.type = blockType ∧
        o₁.block.blockStackIndex = o.stackIndex + blockType.rets.length := by
    intro o₁ hext
    rw [hext.block.same, hentered.block]
    exact ⟨rfl, rfl, rfl⟩
  rcases exitBlock_cases hexit with ⟨resolved, unwound, hresolved, hunwind, hcase⟩
  have hkeptResolved : Kept fn active 0 done resolved := by
    rcases hresolved with ⟨-, rfl⟩ | ⟨-, hresolve⟩
    · exact .refl hinside.good hinside.room
    · exact (hinside.good.resolveBlockResults ((hblock hinside.ext).2.1 ▸ hmvp) hresolve).1
  rcases hkeptResolved.good.unwindBlockStack hkeptResolved.room hunwind with
    ⟨hkeptUnwound, hindex, hreg⟩
  have hall := (hinside.trans hkeptResolved).trans hkeptUnwound
  have hindex' : unwound.stackIndex = unwound.block.blockStackIndex :=
    hindex.trans hkeptUnwound.ext.block.blockStackIndex.symm
  have hleft := h.leave hentered hmvp hsettled hall hindex'
  rcases hblock hall.ext with ⟨hexitIndex, htype, hstart⟩
  refine ⟨entered, done, resolved, unwound, _, ⟨hentered, hgood, hdone, hinside, hresolved, hunwind,
    hkeptResolved, hkeptUnwound, rfl, hleft⟩, ?_⟩
  have houter := hall.ext.outer
  rw [hentered.outer] at houter
  cases hscopes : unwound.outer with
  | nil =>
    rw [hscopes] at houter
    cases houter
  | cons scope outer =>
    rcases hcase with ⟨hif, rfl⟩ | ⟨hif, o₃, hpush, rfl⟩
    · refine .inl ⟨hif, rfl, ?_⟩
      rw [leave_eq hscopes]
      exact hindex'.trans hstart
    · rw [hexitIndex] at hpush
      have hresults := pushBlockResults_leave (o := { unwound with stackIndex := o.stackIndex })
        hscopes (htype ▸ hmvp) hpush
      rw [leave_stackIndex hscopes] at hresults
      have htype' : ({ unwound with stackIndex := o.stackIndex } : M3Compilation).block.type =
          blockType := htype
      rw [htype'] at hresults
      exact .inr ⟨hif, hresults⟩

theorem Good.pushesResults {types : List M3ValueType} (h : Good fn active o)
    (hroom : Writable active room o) (hints : ∀ t ∈ types, t.IsInt)
    (hresults : PushesResults types o o') : Kept fn active room o o' := by
  rcases hresults with ⟨-, rfl⟩ | ⟨type, slot, o₁, rfl, halloc, hpush⟩
  · exact .refl h hroom
  · exact h.pushAllocated hroom (hints type (List.mem_singleton_self _)).small halloc hpush

/-! ## Shapes -/

variable {s : StackShape} {wide : Nat → Bool} {stackRoom : Nat}

theorem Shaped.enter (h : Shaped s o) (hentered : Entered o blockType opcode o')
    (hgood : Good fn active o') : Shaped (s.enter blockType) o' := by
  have hbase := h.base
  have hbottom := h.bottom
  have hheight := h.height
  have hbelow := h.below
  have hindex := hentered.stackIndex
  have hblock : o'.block.blockStackIndex = o.stackIndex + blockType.rets.length := by
    rw [hentered.block]
    rfl
  refine ⟨?_, ?_, ?_, ?_, hgood.slots.height, by omega, fun i _ hlow hlt _ _ => ?_, ?_⟩
  · rw [hentered.stackFirstDynamicIndex, hentered.slotFirstConstIndex]
    intro j hj
    rw [(hentered.entries j (by omega)).1]
    exact h.locals j hj
  · rw [hentered.stackFirstDynamicIndex]
    intro i hi j hj
    rw [(hentered.entries i (by omega)).1, (hentered.entries j (by omega)).1]
    exact h.apart i hi j hj
  · rw [hentered.stackFirstDynamicIndex]
    omega
  · simp only [StackShape.enter]
    omega
  · omega
  · rw [hentered.block]
    exact h.reachable

theorem Shaped.pushesResults {types : List M3ValueType} (h : Shaped s o) (hgood : Good fn active o)
    (hints : ∀ t ∈ types, t.IsInt) (hresults : PushesResults types o o') :
    Shaped (s.push types.length) o' := by
  rcases hresults with ⟨rfl, rfl⟩ | ⟨type, slot, o₁, rfl, halloc, hpush⟩
  · exact h
  · have hsmall := (hints type (List.mem_singleton_self _)).small
    rcases allocateSlots_spec hsmall halloc with ⟨heq, hlow, -, -⟩
    have hsame : SameEntries o o₁ := heq ▸ sameEntries_markSlots ..
    have hconsts := hgood.frame.layout.consts
    refine (h.of_same hsame).push ?_ hpush
    rw [hsame.slotFirstConstIndex]
    exact Nat.le_trans hconsts hlow

/-- The shape fits the state, and the facts about the frame that it is measured by hold. -/
structure Tracked (wide : Nat → Bool) (stackRoom : Nat) (s : StackShape) (o : M3Compilation) :
    Prop where
  shaped : Shaped s o
  narrow : ∀ j < o.stackFirstDynamicIndex, wide j = false → getTypeNumSlots (o.typeStack j) = 1
  room : ∀ height < stackRoom, 4 * height + o.slotFirstDynamicIndex + 4 ≤ d_m3MaxFunctionSlots

theorem Tracked.next {s' : StackShape} (h : Tracked wide stackRoom s o)
    (hkept : Kept fn active room o o') (hshaped : Shaped s' o') : Tracked wide stackRoom s' o' := by
  have hbase := h.shaped.base
  refine ⟨hshaped, ?_, ?_⟩
  · rw [hkept.ext.stackFirstDynamicIndex]
    intro j hj
    rw [(hkept.ext.entries j (by omega)).2]
    exact h.narrow j hj
  · rw [hkept.ext.slotFirstDynamicIndex]
    exact h.room

theorem Tracked.and_next {s' : StackShape} (h : Tracked wide stackRoom s o)
    (hkept : Kept fn active room o o') (hshaped : Shaped s' o') :
    Kept fn active room o o' ∧ Tracked wide stackRoom s' o' := ⟨hkept, h.next hkept hshaped⟩

theorem Tracked.of_emitted (h : Tracked wide stackRoom s o) (hemitted : Emitted o o') :
    Tracked wide stackRoom s o' := by
  refine ⟨h.shaped.of_emitted hemitted, ?_, ?_⟩
  · rw [hemitted]
    exact h.narrow
  · rw [hemitted]
    exact h.room

theorem Tracked.enter (h : Tracked wide stackRoom s o) (hentered : Entered o blockType opcode o')
    (hgood : Good fn active o') : Tracked wide stackRoom (s.enter blockType) o' := by
  have hbase := h.shaped.base
  have hbottom := h.shaped.bottom
  refine ⟨h.shaped.enter hentered hgood, ?_, ?_⟩
  · rw [hentered.stackFirstDynamicIndex]
    intro j hj
    rw [(hentered.entries j (by omega)).2]
    exact h.narrow j hj
  · rw [hentered.slotFirstDynamicIndex]
    exact h.room

theorem Tracked.single (h : Tracked wide stackRoom s o) (honce : s.once wide i = true)
    (hi : i < o.stackFirstDynamicIndex) : Single o i := by
  refine h.shaped.single ?_ hi
  simp only [StackShape.once, Bool.or_eq_true, Bool.not_eq_true', decide_eq_true_eq] at honce
  exact honce.imp_left (h.narrow i hi)

/-- No local of two slots is referred to twice where a block begins. -/
theorem Tracked.singles (h : Tracked wide stackRoom s o) (hbegins : s.begins wide stackRoom = true) :
    ∀ j < o.stackFirstDynamicIndex, Single o j := by
  intro j hj
  rw [StackShape.begins, Bool.and_eq_true, List.all_eq_true] at hbegins
  by_cases hmem : some j ∈ s.refs
  · exact h.single (hbegins.1 j (List.mem_filterMap.mpr ⟨some j, hmem, rfl⟩)) hj
  · refine h.shaped.single (.inr ?_) hj
    rw [List.count_eq_zero_of_not_mem hmem]
    exact Nat.zero_le 1

/-- The result of a block that begins here finds slots. -/
theorem Tracked.fits (h : Tracked wide stackRoom s o)
    (hroom : s.below + s.refs.length < stackRoom) :
    4 * o.stackIndex + o.slotFirstDynamicIndex + 4 ≤ d_m3MaxFunctionSlots := by
  have hbelow := h.shaped.below
  have hheight := h.shaped.height
  have hslots := h.room _ hroom
  omega

theorem begins_room (h : s.begins wide stackRoom = true) :
    s.below + s.refs.length < stackRoom := by
  rw [StackShape.begins, Bool.and_eq_true, decide_eq_true_eq] at h
  exact h.2

/-! ## Blocks, loops and conditionals -/

variable {statements : M3Compilation → Except CompileErr M3Compilation}

theorem compileLoopOrBlock_cases (hmvp : blockType.Mvp)
    (h : o.compileLoopOrBlock blockType opcode statements = .ok o') :
    ∃ o₁ o₂ o₃, o.preserveRegisterIfOccupied = .ok o₁ ∧ o₁.preserveArgsAndLocals = .ok o₂ ∧
      (opcode = .loop ∧ o₂.emitOp .loop = .ok o₃ ∨ opcode ≠ .loop ∧ o₃ = o₂) ∧
      o₃.compileBlock blockType opcode statements = .ok o' := by
  rcases bind_ok h with ⟨o₁, hregister, h⟩
  rcases bind_ok h with ⟨o₂, hlocals, h⟩
  by_cases hloop : opcode = .loop
  · simp only [if_pos hloop, hmvp.args, List.length_nil, Nat.zero_le, if_true] at h
    rcases bind_ok h with ⟨o₂', hsame, h⟩
    cases hsame
    rcases bind_ok h with ⟨o₃, hemit, h⟩
    exact ⟨o₁, o₂, o₃, hregister, hlocals, .inl ⟨hloop, hemit⟩, h⟩
  · rw [if_neg hloop] at h
    exact ⟨o₁, o₂, o₂, hregister, hlocals, .inr ⟨hloop, rfl⟩, h⟩

/-- Before a block or a loop, everything on the stack is in slots of its own. -/
theorem Good.settle {o₁ o₂ : M3Compilation} (h : Good fn active o)
    (ht : Tracked wide stackRoom s o) (hbegins : s.begins wide stackRoom = true)
    (hregister : o.preserveRegisterIfOccupied = .ok o₁)
    (hlocals : o₁.preserveArgsAndLocals = .ok o₂) :
    Kept fn active 0 o o₂ ∧ Settled o₂ ∧ Tracked wide stackRoom s.settle o₂ := by
  rcases h.preserveRegisterIfOccupied hregister with ⟨hkept, hreg, -, -⟩
  have ht₁ := ht.next hkept (ht.shaped.preserveRegister h hregister)
  rcases hkept.good.preserveArgsAndLocals (ht₁.singles hbegins) hlocals with
    ⟨hkept', hindex, hblock, hreg', hall⟩
  refine ⟨hkept.trans hkept', ⟨hreg'.trans hreg, fun j hj => hall j ?_⟩, ht₁.next hkept' ?_⟩
  · rw [hkept'.ext.stackFirstDynamicIndex] at hj
    exact hj
  · exact ht₁.shaped.settle hkept' hindex (by rw [hblock]) hall

theorem Left.settled (h : Left fn active room o o') (hgood : Good fn active o)
    (hsettled : Settled o) : Settled o' := by
  refine ⟨h.register, fun j hj i hlow hi => ?_⟩
  have hj' : j < o.stackFirstDynamicIndex := h.kept.ext.stackFirstDynamicIndex ▸ hj
  have hblock := h.kept.ext.block.blockStackIndex
  have hbase := hgood.frame.base_le
  rw [h.stackIndex] at hi
  rw [(h.entries i hi).1, (h.kept.ext.entries j (by omega)).1]
  exact hsettled.unreferenced j hj' i (by omega) hi

theorem Tracked.leave (h : Tracked wide stackRoom s o) (hleft : Left fn active room o o')
    (hgood : Good fn active o) (hsettled : Settled o) : Tracked wide stackRoom s.settle o' := by
  refine h.next hleft.kept (h.shaped.settle hleft.kept hleft.stackIndex hleft.polymorphic
    fun j hj => (hleft.settled hgood hsettled).unreferenced j ?_)
  rw [hleft.kept.ext.stackFirstDynamicIndex]
  exact hj

theorem Good.compileLoopOrBlock (h : Good fn active o) (ht : Tracked wide stackRoom s o)
    (hbegins : s.begins wide stackRoom = true) (hmvp : blockType.Mvp)
    (hopcode : opcode = .loop ∨ opcode = .block)
    (hstatements : ∀ {o₁ o₂}, Good fn active o₁ → Tracked wide stackRoom (s.enter blockType) o₁ →
      statements o₁ = .ok o₂ → Kept fn active 0 o₁ o₂)
    (ho : o.compileLoopOrBlock blockType opcode statements = .ok o') :
    Kept fn active 0 o o' ∧
      Tracked wide stackRoom (s.settle.push blockType.rets.length) o' := by
  rcases compileLoopOrBlock_cases hmvp ho with ⟨o₁, o₂, o₃, hregister, hlocals, hloop, hblock⟩
  rcases h.settle ht hbegins hregister hlocals with ⟨hkept, hsettled, ht₂⟩
  have hbefore : Kept fn active 0 o o₃ ∧ Settled o₃ ∧ Tracked wide stackRoom s.settle o₃ := by
    rcases hloop with ⟨-, hemit⟩ | ⟨-, rfl⟩
    · have hemitted := emitted_emitOp hemit
      exact ⟨(hkept.trans (hkept.good.emitOp hemit)).mono (Nat.zero_le _),
        hsettled.of_emitted hemitted, ht₂.of_emitted hemitted⟩
    · exact ⟨hkept, hsettled, ht₂⟩
  rcases hbefore with ⟨hkept₃, hsettled₃, ht₃⟩
  have hfits := ht₃.fits (by
    rw [StackShape.settle, List.length_map]
    exact begins_room hbegins)
  have hinside : ∀ {o₁ o₂}, Good fn active o₁ → Entered o₃ blockType opcode o₁ →
      statements o₁ = .ok o₂ → Kept fn active 0 o₁ o₂ := fun hgood hentered hrun => by
    have hinner := ht₃.enter hentered hgood
    rw [StackShape.enter_settle] at hinner
    exact hstatements hgood hinner hrun
  have hnot : opcode ≠ .ifOp ∧ opcode ≠ .function := by
    rcases hopcode with rfl | rfl
    · exact ⟨by decide, by decide⟩
    · exact ⟨by decide, by decide⟩
  rcases hkept₃.good.compileBlock hmvp hnot.2 hsettled₃ hfits hinside hblock with
    ⟨_, _, _, _, left, hrun, ⟨hif, -⟩ | ⟨-, hresults⟩⟩
  · exact absurd hif hnot.1
  · have ht₄ := ht₃.leave hrun.left hkept₃.good hsettled₃
    have hpushed := hrun.left.kept.good.pushesResults hrun.left.kept.room hmvp.ints hresults
    refine ⟨(hkept₃.trans hrun.left.kept).trans hpushed, ht₄.next hpushed ?_⟩
    rw [← StackShape.settle_settle]
    exact ht₄.shaped.pushesResults hrun.left.kept.good hmvp.ints hresults

theorem compileElseBlock_cases (h : o.compileElseBlock pc blockType statements = .ok o') :
    ∃ o₁ o₂ o₃, o.acquireCompilationCodePage = .ok o₁ ∧
      (o₁.patch pc o₁.getPC).compileBlock blockType .elseOp statements = .ok o₂ ∧
      o₂.emitOp .branch = .ok o₃ ∧
      o' = (o₃.emit (.pc (o₃.rt.getPagePC o.page))).releaseCompilationCodePage o.page := by
  rcases bind_ok h with ⟨o₁, hacquire, h⟩
  rcases bind_ok h with ⟨o₂, hblock, h⟩
  rcases bind_ok h with ⟨o₃, hemit, h⟩
  cases h
  exact ⟨o₁, o₂, o₃, hacquire, hblock, hemit, rfl⟩

/-- The `else` of a conditional that ends in `o`: a page of its own, whose address fills in the word
at `pc`, a block on it, and the jump back. -/
structure ElseRun (fn : M3FuncType) (active : List Nat) (o : M3Compilation) (pc : PC)
    (blockType : M3FuncType) (statements : M3Compilation → Except CompileErr M3Compilation)
    (own o₁ o₂ o₃ o₄ left pushed jump o' : M3Compilation) : Prop where
  acquired : Kept fn (o.page :: active) 4 o own
  emitted : Emitted o own
  reserved : own.rt.word pc = some .patch
  good : Good fn (o.page :: active) (own.patch pc own.getPC)
  run : BlockRun fn (o.page :: active) (own.patch pc own.getPC) blockType .elseOp statements
    o₁ o₂ o₃ o₄ left
  results : PushesResults blockType.rets left pushed
  kept : Kept fn (o.page :: active) 0 left pushed
  branch : pushed.emitOp .branch = .ok jump
  finish : o' = (jump.emit (.pc (jump.rt.getPagePC o.page))).releaseCompilationCodePage o.page

theorem Good.elseRun (h : Good fn active o) (ht : Tracked wide stackRoom s o)
    (hroom : s.below + s.refs.length < stackRoom) (hmvp : blockType.Mvp)
    (hsettled : Settled o) (hreserved : Reserved o pc)
    (hstatements : ∀ {o₁ o₂}, Good fn (o.page :: active) o₁ →
      Tracked wide stackRoom (s.enter blockType) o₁ → statements o₁ = .ok o₂ →
      Kept fn (o.page :: active) 0 o₁ o₂)
    (ho : o.compileElseBlock pc blockType statements = .ok o') :
    ∃ own o₁ o₂ o₃ o₄ left pushed jump, ElseRun fn active o pc blockType statements
        own o₁ o₂ o₃ o₄ left pushed jump o' ∧ Tracked wide stackRoom (s.enter blockType) o₁ := by
  rcases compileElseBlock_cases ho with ⟨own, pushed, jump, hacquire, hblock, hemit, rfl⟩
  rcases h.acquire hacquire with ⟨hown, hemitted⟩
  have hword := hreserved.of_ext hown.ext
  have hgood : Good fn (o.page :: active) (own.patch pc own.getPC) := hown.good.patch hword
  have hpatched : Emitted o (own.patch pc own.getPC) := hemitted.trans (emitted_patch ..)
  have ht₁ := ht.of_emitted hpatched
  rcases hgood.compileBlock hmvp (by decide) (hsettled.of_emitted hpatched) (ht₁.fits hroom)
    (fun hgood hentered hrun => hstatements hgood (ht₁.enter hentered hgood) hrun) hblock with
    ⟨o₁, o₂, o₃, o₄, left, hrun, ⟨hif, -⟩ | ⟨-, hresults⟩⟩
  · cases hif
  · exact ⟨own, o₁, o₂, o₃, o₄, left, pushed, jump,
      ⟨hown, hemitted, hword.word, hgood, hrun, hresults,
        hrun.left.kept.good.pushesResults hrun.left.kept.room hmvp.ints hresults, hemit, rfl⟩,
      ht₁.enter hrun.entered hrun.good⟩

/-- What was written on the other page. -/
theorem ElseRun.written {own o₁ o₂ o₃ o₄ left pushed jump : M3Compilation}
    (h : ElseRun fn active o pc blockType statements own o₁ o₂ o₃ o₄ left pushed jump o') :
    Kept fn (o.page :: active) 4 left (jump.emit (.pc (jump.rt.getPagePC o.page))) := by
  have hop := h.kept.good.emitOp h.branch
  exact (h.kept.trans hop).trans (hop.good.emit hop.room)

/-- On the pages that were being written before. -/
theorem ElseRun.keeps {own o₁ o₂ o₃ o₄ left pushed jump : M3Compilation}
    (h : ElseRun fn active o pc blockType statements own o₁ o₂ o₃ o₄ left pushed jump o')
    (hgood : Good fn active o) (ht : Tracked wide stackRoom s o) (hmvp : blockType.Mvp)
    (hsettled : Settled o) :
    Kept fn active 0 (own.patch pc own.getPC) o' ∧
      Shaped (s.settle.push blockType.rets.length) o' := by
  have hpatched : Emitted o (own.patch pc own.getPC) := h.emitted.trans (emitted_patch ..)
  rw [h.finish]
  refine ⟨Kept.release (h.run.left.kept.trans h.written) ?_, ?_⟩
  · have hlines := h.acquired.ext.writes.others o.page (List.mem_cons_self ..)
    rw [(pages_patch _).1, (pages_patch _).2, hlines.1, hlines.2]
    exact hgood.room.room
  · have hleft := (ht.of_emitted hpatched).leave h.run.left h.good (hsettled.of_emitted hpatched)
    have hshaped := hleft.shaped.pushesResults h.run.left.kept.good hmvp.ints h.results
    exact ((hshaped.emitOp h.branch).emit _).of_emitted rfl

theorem compileIf_cases {elseStatements : Option (M3Compilation → Except CompileErr M3Compilation)}
    (h : o.compileIf blockType statements elseStatements = .ok o') :
    ∃ o₁ o₂ o₃ o₄ o₅, o.preserveNonTopRegisters = .ok o₁ ∧ o₁.preserveArgsAndLocals = .ok o₂ ∧
      o₂.emitOp (.ifOp o₂.topForm) = .ok o₃ ∧ o₃.emitSlotNumOfStackTopAndPop = .ok o₄ ∧
      (o₄.emit .patch).compileBlock blockType .ifOp statements = .ok o₅ ∧
      let again : M3Compilation := { o₅ with stackIndex := o₄.stackIndex }
      match elseStatements with
      | some elseStatements =>
          again.compileElseBlock o₄.getPC blockType elseStatements = .ok o'
      | none =>
          blockType.rets.length ≠ 0 ∧ again.compileElseBlock o₄.getPC blockType .ok = .ok o' ∨
          blockType.rets.length = 0 ∧ o' = o₅.patch o₄.getPC o₅.getPC := by
  rcases bind_ok h with ⟨o₁, hregisters, h⟩
  rcases bind_ok h with ⟨o₂, hlocals, h⟩
  rcases bind_ok h with ⟨o₃, hemit, h⟩
  rcases bind_ok h with ⟨o₄, hpop, h⟩
  rcases bind_ok h with ⟨o₅, hblock, h⟩
  refine ⟨o₁, o₂, o₃, o₄, o₅, hregisters, hlocals, hemit, hpop, hblock, ?_⟩
  cases elseStatements with
  | some elseStatements => exact h
  | none =>
    simp only at h
    by_cases hrets : blockType.rets.length = 0
    · rw [if_neg (not_not.mpr hrets)] at h
      cases h
      exact .inr ⟨hrets, rfl⟩
    · rw [if_pos hrets] at h
      exact .inl ⟨hrets, h⟩

/-- With the top of the stack popped, everything is in slots of its own. -/
theorem Good.settled_of_pop (h : Good fn active o)
    (hreg : o.regStackIndexPlusOne = 0 ∨ o.regStackIndexPlusOne = o.stackIndex)
    (hall : ∀ j < o.stackFirstDynamicIndex, Unreferenced o j) (hpop : o.pop = .ok o') :
    Settled o' := by
  rcases pop_cases hpop with ⟨hheight, -, rfl⟩ | ⟨k, hk, hblock, hcase⟩
  · refine ⟨?_, hall⟩
    by_contra hne
    have hregister := h.slots.register hne
    omega
  · have hlt : k < o.stackIndex := by omega
    have hiff := h.isRegisterSlotAlias_iff hblock hlt
    have hfree : isRegisterSlotAlias (o.wasmStack k) = false → o.regStackIndexPlusOne = 0 := by
      intro hnot
      by_contra hne
      rcases h.slots.register hne with ⟨hlow, hhigh, hat⟩
      have htop : o.regStackIndexPlusOne - 1 = k := by omega
      rw [htop] at hat
      rw [hiff.mpr hat] at hnot
      cases hnot
    rcases hcase with ⟨-, rfl⟩ | ⟨hnot, -, rfl⟩ | ⟨hnot, -, rfl⟩
    · exact ⟨rfl, fun j hj i hlow hi => hall j hj i hlow (by simp only at hi; omega)⟩
    · rw [deallocateSlots_eq]
      exact ⟨hfree hnot, fun j hj i hlow hi => hall j hj i hlow (by simp only at hi; omega)⟩
    · exact ⟨hfree hnot, fun j hj i hlow hi => hall j hj i hlow (by simp only at hi; omega)⟩

theorem Good.settled_of_condition {o₁ o₂ o₃ o₄ : M3Compilation} (h : Good fn active o)
    (ht : Tracked wide stackRoom s o) (hbegins : s.begins wide stackRoom = true)
    (hregisters : o.preserveNonTopRegisters = .ok o₁)
    (hlocals : o₁.preserveArgsAndLocals = .ok o₂) {op : M3Op} (hemit : o₂.emitOp op = .ok o₃)
    (hpop : o₃.emitSlotNumOfStackTopAndPop = .ok o₄) :
    Kept fn active 4 o o₄ ∧ Settled o₄ ∧ Tracked wide stackRoom (s.pop 1).settle o₄ := by
  rcases h.preserveNonTopRegisters hregisters with ⟨hkept, hindex, -, hreg⟩
  have ht₁ := ht.next hkept (ht.shaped.preserveNonTopRegisters h hregisters)
  rcases hkept.good.preserveArgsAndLocals (ht₁.singles hbegins) hlocals with
    ⟨hkept', hindex', hblock, hreg', hall⟩
  have ht₂ := ht₁.next hkept' (ht₁.shaped.settle hkept' hindex' (by rw [hblock]) hall)
  have hop := hkept'.good.emitOp hemit
  have hpopped := (hop.good.emitSlotNumOfStackTopAndPop (n := 0) hop.room hpop).1
  have ht₃ := ht₂.of_emitted (emitted_emitOp hemit)
  have ht₄ := ht₃.next hpopped (ht₃.shaped.emitSlotNumOfStackTopAndPop hpop)
  rw [StackShape.settle_pop] at ht₄
  refine ⟨((hkept.trans hkept').trans hop).trans hpopped, ?_, ht₄⟩
  have hreg₂ : o₂.regStackIndexPlusOne = 0 ∨ o₂.regStackIndexPlusOne = o₂.stackIndex := by
    rw [hreg', hindex']
    exact hreg
  have hall₂ : ∀ j < o₂.stackFirstDynamicIndex, Unreferenced o₂ j := fun j hj =>
    hall j (hkept'.ext.stackFirstDynamicIndex ▸ hj)
  have hpop₂ : ∀ {o₅ : M3Compilation}, Good fn active o₅ → Emitted o₂ o₅ → o₅.pop = .ok o₄ →
      Settled o₄ := by
    intro o₅ hgood hemitted
    refine hgood.settled_of_pop ?_ ?_
    · rw [hemitted]
      exact hreg₂
    · rw [hemitted]
      exact hall₂
  rw [M3Compilation.emitSlotNumOfStackTopAndPop] at hpop
  split at hpop
  · exact hpop₂ hop.good (emitted_emitOp hemit) hpop
  · exact hpop₂ (hop.good.emit (n := 4) hop.room).good
      ((emitted_emitOp hemit).trans (emitted_emit _)) hpop

/-- A conditional up to its `else`: the condition, the word for the `else`, and a block.  The word is
still waiting after it. -/
structure IfRun (fn : M3FuncType) (active : List Nat) (o : M3Compilation) (blockType : M3FuncType)
    (statements : M3Compilation → Except CompileErr M3Compilation)
    (o₁ o₂ o₃ o₄ b₁ b₂ b₃ b₄ left : M3Compilation) : Prop where
  registers : o.preserveNonTopRegisters = .ok o₁
  locals : o₁.preserveArgsAndLocals = .ok o₂
  condition : o₂.emitOp (.ifOp o₂.topForm) = .ok o₃
  popped : o₃.emitSlotNumOfStackTopAndPop = .ok o₄
  before : Kept fn active 4 o o₄
  word : Kept fn active 3 o₄ (o₄.emit .patch)
  run : BlockRun fn active (o₄.emit .patch) blockType .ifOp statements b₁ b₂ b₃ b₄ left
  reserved : Reserved left o₄.getPC
  settled : Settled left

theorem condition_room (h : s.begins wide stackRoom = true) :
    (s.pop 1).settle.below + (s.pop 1).settle.refs.length < stackRoom := by
  have hroom := begins_room h
  simp only [StackShape.settle, StackShape.pop, List.length_map, List.length_drop]
  omega

theorem Good.ifRun {elseStatements : Option (M3Compilation → Except CompileErr M3Compilation)}
    (h : Good fn active o) (ht : Tracked wide stackRoom s o)
    (hbegins : s.begins wide stackRoom = true) (hmvp : blockType.Mvp)
    (hstatements : ∀ {o₁ o₂}, Good fn active o₁ →
      Tracked wide stackRoom ((s.pop 1).enter blockType) o₁ → statements o₁ = .ok o₂ →
      Kept fn active 0 o₁ o₂)
    (ho : o.compileIf blockType statements elseStatements = .ok o') :
    ∃ o₁ o₂ o₃ o₄ b₁ b₂ b₃ b₄ left,
      IfRun fn active o blockType statements o₁ o₂ o₃ o₄ b₁ b₂ b₃ b₄ left ∧
      Tracked wide stackRoom ((s.pop 1).enter blockType) b₁ ∧
      Tracked wide stackRoom (s.pop 1).settle left ∧
      ((∃ other, (elseStatements = some other ∨ elseStatements = none ∧ other = .ok) ∧
          left.compileElseBlock o₄.getPC blockType other = .ok o') ∨
        elseStatements = none ∧ blockType.rets = [] ∧ o' = left.patch o₄.getPC left.getPC) := by
  rcases compileIf_cases ho with
    ⟨o₁, o₂, o₃, o₄, o₅, hregisters, hlocals, hemit, hpop, hblock, hcase⟩
  rcases h.settled_of_condition ht hbegins hregisters hlocals hemit hpop with
    ⟨hbefore, hsettled, ht₄⟩
  have hword := hbefore.good.emit (w := .patch) hbefore.room
  have htw : Tracked wide stackRoom (s.pop 1).settle (o₄.emit .patch) :=
    ht₄.of_emitted (emitted_emit _)
  have hsettledw : Settled (o₄.emit .patch) := hsettled.of_emitted (emitted_emit _)
  have hinner : ∀ {o₁}, Good fn active o₁ → Entered (o₄.emit .patch) blockType .ifOp o₁ →
      Tracked wide stackRoom ((s.pop 1).enter blockType) o₁ := fun hgood hentered => by
    have hinner := htw.enter hentered hgood
    rw [StackShape.enter_settle] at hinner
    exact hinner
  rcases hword.good.compileBlock hmvp (by decide) hsettledw (htw.fits (condition_room hbegins))
    (fun hgood hentered hrun => hstatements hgood (hinner hgood hentered) hrun) hblock with
    ⟨b₁, b₂, b₃, b₄, left, hrun, ⟨-, hleft, hindex⟩ | ⟨hne, -⟩⟩
  · have hleft' : ({ o₅ with stackIndex := o₄.stackIndex } : M3Compilation) = left := hleft
    have htl := htw.leave hrun.left hword.good hsettledw
    rw [StackShape.settle_settle] at htl
    refine ⟨o₁, o₂, o₃, o₄, b₁, b₂, b₃, b₄, left,
      ⟨hregisters, hlocals, hemit, hpop, hbefore, hword, hrun,
        hbefore.good.reserve.of_ext hrun.left.kept.ext, hrun.left.settled hword.good hsettledw⟩,
      hinner hrun.good hrun.entered, htl, ?_⟩
    simp only [hleft'] at hcase
    cases elseStatements with
    | some elseStatements => exact .inl ⟨elseStatements, .inl rfl, hcase⟩
    | none =>
      rcases hcase with ⟨-, hcompile⟩ | ⟨hrets, rfl⟩
      · exact .inl ⟨.ok, .inr ⟨rfl, rfl⟩, hcompile⟩
      · have hsame : o₅ = left := by
          rw [hrets] at hindex
          rw [← hleft]
          exact congrArg (fun i => ({ o₅ with stackIndex := i } : M3Compilation)) hindex
        rw [hsame]
        exact .inr ⟨rfl, List.length_eq_zero_iff.mp hrets, rfl⟩
  · exact absurd rfl hne

theorem Good.compileIf
    {elseStatements : Option (M3Compilation → Except CompileErr M3Compilation)}
    (h : Good fn active o) (ht : Tracked wide stackRoom s o)
    (hbegins : s.begins wide stackRoom = true) (hmvp : blockType.Mvp)
    (hstatements : ∀ {o₁ o₂}, Good fn active o₁ →
      Tracked wide stackRoom ((s.pop 1).enter blockType) o₁ → statements o₁ = .ok o₂ →
      Kept fn active 0 o₁ o₂)
    (helse : ∀ statements ∈ elseStatements, ∀ {page o₁ o₂}, Good fn (page :: active) o₁ →
      Tracked wide stackRoom ((s.pop 1).enter blockType) o₁ → statements o₁ = .ok o₂ →
      Kept fn (page :: active) 0 o₁ o₂)
    (ho : o.compileIf blockType statements elseStatements = .ok o') :
    Kept fn active 0 o o' ∧
      Tracked wide stackRoom ((s.pop 1).settle.push blockType.rets.length) o' := by
  rcases h.ifRun ht hbegins hmvp hstatements ho with
    ⟨o₁, o₂, o₃, o₄, b₁, b₂, b₃, b₄, left, hrun, -, htl, hcase⟩
  have hfresh : o.rt.word o₄.getPC = none := hrun.before.ext.writes.word_none word_getPC
  have hall := (hrun.before.trans hrun.word).trans hrun.run.left.kept
  have hleft := hrun.run.left.kept.good
  rcases hcase with ⟨other, hother, hcompile⟩ | ⟨-, hrets, rfl⟩
  · have hkeeps : ∀ {o₁ o₂}, Good fn (left.page :: active) o₁ →
        Tracked wide stackRoom ((s.pop 1).settle.enter blockType) o₁ → other o₁ = .ok o₂ →
        Kept fn (left.page :: active) 0 o₁ o₂ := by
      intro o₁ o₂ hgood ht hstatements
      rw [StackShape.enter_settle] at ht
      rcases hother with hsome | ⟨-, rfl⟩
      · exact helse other hsome hgood ht hstatements
      · cases hstatements
        exact .refl hgood hgood.room
    rcases hleft.elseRun htl (condition_room hbegins) hmvp hrun.settled hrun.reserved hkeeps
      hcompile with ⟨own, _, _, _, _, _, _, _, helseRun, -⟩
    rcases helseRun.keeps hleft htl hmvp hrun.settled with ⟨hkept, hshaped⟩
    have hext : Ext active o (own.patch o₄.getPC own.getPC) :=
      (hall.ext.trans (helseRun.acquired.ext.mono (List.subset_cons_self ..))).patch hfresh
    have hkept' : Kept fn active 0 o o' := ⟨hext.trans hkept.ext, hkept.good, hkept.room⟩
    rw [StackShape.settle_settle] at hshaped
    exact ⟨hkept', ht.next hkept' hshaped⟩
  · rw [hrets]
    exact ⟨hall.patch hrun.reserved hfresh, htl.of_emitted (emitted_patch ..)⟩

end M3Compilation

/-! ## Whole bodies -/

mutual

/-- The blocks in an instruction have types of the first version of WebAssembly, and its tables of
branches a length of 32 bits. -/
def Instr.Mvp : Instr → Prop
  | .block type body => type.Mvp ∧ instrsMvp body
  | .loop type body => type.Mvp ∧ instrsMvp body
  | .ifThen type body => type.Mvp ∧ instrsMvp body
  | .ifElse type body other => type.Mvp ∧ instrsMvp body ∧ instrsMvp other
  | .brTable depths _ => depths.length < 2 ^ 32
  | _ => True

def instrsMvp : List Instr → Prop
  | [] => True
  | i :: is => i.Mvp ∧ instrsMvp is

end

/-- Functions take and return integers. -/
def WasmModule.Ints (M : WasmModule) : Prop :=
  ∀ function ∈ M.functions, (∀ t ∈ function.type.args, t.IsInt) ∧ ∀ t ∈ function.type.rets, t.IsInt

section

open M3Compilation Reasoning

variable {fn : M3FuncType} {ctx : CompileContext} {wide : Nat → Bool} {stackRoom : Nat}

mutual

/-- Every instruction keeps the invariant, and leaves the shape that it is said to leave. -/
theorem compileInstr_keeps (hints : ctx.module.Ints) : ∀ (i : Instr), i.Mvp →
    ∀ {active : List Nat} {o o' : M3Compilation} {s : StackShape}, Good fn active o →
      Tracked wide stackRoom s o → i.counted ctx.module wide stackRoom s = true →
      compileInstr ctx i o = .ok o' →
      Kept fn active 0 o o' ∧ Tracked wide stackRoom (i.after ctx.module s) o'
  | .unreachable, _, _, _, _, _, h, ht, _, ho =>
    ht.and_next (h.compileUnreachable ho) (ht.shaped.compileUnreachable h ho)
  | .nop, _, _, _, _, _, h, ht, _, ho => by
    cases ho
    exact ⟨.refl h h.room, ht⟩
  | .drop, _, _, _, _, _, h, ht, _, ho => ht.and_next (h.pop h.room ho) (ht.shaped.pop ho)
  | .select, _, _, _, _, _, h, ht, hcounted, ho =>
    ht.and_next (h.compileSelect ho) (ht.shaped.compileSelect h (ht.shaped.reachable hcounted) ho)
  | .ret, _, _, _, _, _, h, ht, _, ho =>
    ht.and_next (h.compileReturn ho) (ht.shaped.compileReturn h ho)
  | .const ⟨.i32, v⟩, _, _, _, _, _, h, ht, _, ho =>
    ht.and_next (h.pushConst (.inl rfl) ho) (ht.shaped.pushConst h (.inl rfl) ho)
  | .const ⟨.i64, v⟩, _, _, _, _, _, h, ht, _, ho =>
    ht.and_next (h.pushConst (.inr rfl) ho) (ht.shaped.pushConst h (.inr rfl) ho)
  | .localGet i, _, _, _, _, _, h, ht, _, ho =>
    ht.and_next (h.compileGetLocal ho) (ht.shaped.compileGetLocal h ho)
  | .localSet i, _, _, _, _, _, h, ht, hcounted, ho =>
    have hsingle := ht.single hcounted
    ht.and_next (h.compileSetLocal hsingle ho) (ht.shaped.compileSetLocal h hsingle ho)
  | .localTee i, _, _, _, _, _, h, ht, hcounted, ho =>
    have hsingle := ht.single hcounted
    ht.and_next (h.compileSetLocal hsingle ho) (ht.shaped.compileSetLocal h hsingle ho)
  | .globalGet i, _, _, _, _, _, h, ht, _, ho => by
    simp only [compileInstr] at ho
    split at ho
    · exact ht.and_next (h.compileGetGlobal ho) (ht.shaped.compileGetGlobal h ho)
    · cases ho
  | .globalSet i, _, _, _, _, _, h, ht, _, ho => by
    simp only [compileInstr] at ho
    split at ho
    · exact ht.and_next (h.compileSetGlobal ho) (ht.shaped.compileSetGlobal ho)
    · cases ho
  | .operator op, _, _, _, _, _, h, ht, _, ho =>
    ht.and_next (h.compileOperatorOrMemory ho) (ht.shaped.compileOperatorOrMemory h ho)
  | .memorySize, _, _, _, _, _, h, ht, _, ho =>
    ht.and_next (h.compileMemorySize ho) (ht.shaped.compileMemorySize h ho)
  | .memoryGrow, _, _, _, _, _, h, ht, _, ho =>
    ht.and_next (h.compileMemoryGrow ho) (ht.shaped.compileMemoryGrow h ho)
  | .memoryCopy, _, _, _, _, _, h, ht, _, ho =>
    ht.and_next (h.compileMemoryCopyFill ho) (ht.shaped.compileMemoryCopyFill h ho)
  | .memoryFill, _, _, _, _, _, h, ht, _, ho =>
    ht.and_next (h.compileMemoryCopyFill ho) (ht.shaped.compileMemoryCopyFill h ho)
  | .block type body, hmvp, _, _, _, _, h, ht, hcounted, ho => by
    rw [Instr.counted, Bool.and_eq_true] at hcounted
    exact h.compileLoopOrBlock ht hcounted.1 hmvp.1 (.inr rfl) (fun hgood ht hbody =>
      (compileInstrs_keeps hints body hmvp.2 hgood ht hcounted.2 hbody).1) ho
  | .loop type body, hmvp, _, _, _, _, h, ht, hcounted, ho => by
    rw [Instr.counted, Bool.and_eq_true] at hcounted
    exact h.compileLoopOrBlock ht hcounted.1 hmvp.1 (.inl rfl) (fun hgood ht hbody =>
      (compileInstrs_keeps hints body hmvp.2 hgood ht hcounted.2 hbody).1) ho
  | .ifThen type body, hmvp, _, _, _, _, h, ht, hcounted, ho => by
    simp only [compileInstr] at ho
    rw [Instr.counted, Bool.and_eq_true] at hcounted
    refine h.compileIf ht hcounted.1 hmvp.1 (fun hgood ht hbody =>
      (compileInstrs_keeps hints body hmvp.2 hgood ht hcounted.2 hbody).1)
      (fun statements hnone => ?_) ho
    cases hnone
  | .ifElse type body other, hmvp, _, _, _, _, h, ht, hcounted, ho => by
    simp only [compileInstr] at ho
    rw [Instr.counted, Bool.and_eq_true, Bool.and_eq_true] at hcounted
    refine h.compileIf ht hcounted.1.1 hmvp.1 (fun hgood ht hbody =>
      (compileInstrs_keeps hints body hmvp.2.1 hgood ht hcounted.1.2 hbody).1)
      (fun statements hother => ?_) ho
    cases hother
    exact fun hgood ht hbody =>
      (compileInstrs_keeps hints other hmvp.2.2 hgood ht hcounted.2 hbody).1
  | .br depth, _, _, _, _, _, h, ht, _, ho =>
    ht.and_next (h.compileBr ho) (ht.shaped.compileBr h ho)
  | .brIf depth, _, _, _, _, _, h, ht, _, ho =>
    ht.and_next (h.compileBrIf ho) (ht.shaped.compileBrIf h ho)
  | .brTable depths default, _, _, _, _, _, h, ht, _, ho =>
    ht.and_next (h.compileBrTable ho) (ht.shaped.compileBrTable h ho)
  | .call functionIndex, _, _, _, _, s, h, ht, _, ho => by
    simp only [compileInstr] at ho
    split at ho
    · rename_i function hfunction
      have hcalled := ht.shaped.compileCall h ho
      have hafter : (Instr.call functionIndex).after ctx.module s =
          (s.pop function.type.args.length).push function.type.rets.length := by
        simp only [Instr.after, hfunction]
      rw [hafter]
      exact ht.and_next (h.compileCall (hints function (List.mem_of_getElem? hfunction)).2 ho)
        hcalled
    · cases ho

theorem compileInstrs_keeps (hints : ctx.module.Ints) : ∀ (is : List Instr), instrsMvp is →
    ∀ {active : List Nat} {o o' : M3Compilation} {s : StackShape}, Good fn active o →
      Tracked wide stackRoom s o → instrsCounted ctx.module wide stackRoom s is = true →
      compileInstrs ctx is o = .ok o' →
      Kept fn active 0 o o' ∧ Tracked wide stackRoom (instrsAfter ctx.module s is) o'
  | [], _, _, _, _, _, h, ht, _, ho => by
    cases ho
    exact ⟨.refl h h.room, ht⟩
  | i :: is, hmvp, _, _, _, _, h, ht, hcounted, ho => by
    rcases bind_ok ho with ⟨o₁, hfirst, hrest⟩
    rw [instrsCounted, Bool.and_eq_true] at hcounted
    rcases compileInstr_keeps hints i hmvp.1 h ht hcounted.1 hfirst with ⟨hkept, ht₁⟩
    rcases compileInstrs_keeps hints is hmvp.2 hkept.good ht₁ hcounted.2 hrest with
      ⟨hkept', ht₂⟩
    exact ⟨hkept.trans hkept', ht₂⟩

end

end

end WebAssemblyRuntime.Wasm3
