import Mathlib.Data.List.Duplicate
import WebAssemblyRuntime.Wasm3.BranchKeeps
import WebAssemblyRuntime.Wasm3.StackShape

/-!
# ReferenceKeeps — the compiler's stack has no more references to locals than the shape says

One lemma for each thing that an instruction does to the stack: it is left alone, an entry moves to
slots of its own, an entry is popped, or one is pushed.
-/

namespace WebAssemblyRuntime.Wasm3.M3Compilation

open Reasoning (bind_ok)

variable {fn : M3FuncType} {active : List Nat} {o o' o'' : M3Compilation} {type : M3ValueType}
  {s s' : StackShape} {slot room i j n depth : Nat} {scope : M3CompilationScope}

/-- Each value of the block that is in the slot of a local is the local that the shape has there;
there may be fewer values. -/
structure Shaped (s : StackShape) (o : M3Compilation) : Prop where
  locals : ∀ j < o.stackFirstDynamicIndex, o.wasmStack j < o.slotFirstConstIndex
  apart : ∀ i < o.stackFirstDynamicIndex, ∀ j < o.stackFirstDynamicIndex,
    o.wasmStack i = o.wasmStack j → i = j
  base : o.stackFirstDynamicIndex ≤ o.block.blockStackIndex
  below : o.block.blockStackIndex ≤ s.below
  bottom : o.block.blockStackIndex ≤ o.stackIndex
  height : o.stackIndex ≤ o.block.blockStackIndex + s.refs.length
  named : ∀ i j, o.block.blockStackIndex ≤ i → i < o.stackIndex → j < o.stackFirstDynamicIndex →
    o.wasmStack i = o.wasmStack j → s.refs[o.stackIndex - 1 - i]? = some (some j)
  reachable : s.live = true → o.block.isPolymorphic = false

/-! ## What instructions do to the stack -/

/-- The stack is left alone. -/
structure SameEntries (o o' : M3Compilation) : Prop where
  wasmStack : o'.wasmStack = o.wasmStack
  stackIndex : o'.stackIndex = o.stackIndex
  blockStackIndex : o'.block.blockStackIndex = o.block.blockStackIndex
  isPolymorphic : o'.block.isPolymorphic = o.block.isPolymorphic
  stackFirstDynamicIndex : o'.stackFirstDynamicIndex = o.stackFirstDynamicIndex
  slotFirstConstIndex : o'.slotFirstConstIndex = o.slotFirstConstIndex

theorem SameEntries.trans (h : SameEntries o o') (h' : SameEntries o' o'') : SameEntries o o'' :=
  ⟨h'.wasmStack.trans h.wasmStack, h'.stackIndex.trans h.stackIndex,
    h'.blockStackIndex.trans h.blockStackIndex, h'.isPolymorphic.trans h.isPolymorphic,
    h'.stackFirstDynamicIndex.trans h.stackFirstDynamicIndex,
    h'.slotFirstConstIndex.trans h.slotFirstConstIndex⟩

theorem Emitted.sameEntries (h : Emitted o o') : SameEntries o o' := by
  rw [h]
  exact ⟨rfl, rfl, rfl, rfl, rfl, rfl⟩

theorem sameEntries_markSlots (o : M3Compilation) (slot : Nat) (type : M3ValueType) :
    SameEntries o (o.markSlots slot (getTypeNumSlots type)) := by
  rw [markSlots_type]
  exact ⟨rfl, rfl, rfl, rfl, rfl, rfl⟩

theorem sameEntries_emitPatchingBranchPointer (o : M3Compilation) (depth : Nat) :
    SameEntries o (o.emitPatchingBranchPointer depth) := by
  cases depth <;> exact ⟨rfl, rfl, rfl, rfl, rfl, rfl⟩

theorem Shaped.of_same (h : Shaped s o) (hsame : SameEntries o o') : Shaped s o' := by
  rcases hsame with ⟨hstack, hindex, hblock, hpoly, hbase, hconst⟩
  refine ⟨?_, ?_, ?_, ?_, ?_, ?_, ?_, ?_⟩
  · rw [hstack, hbase, hconst]
    exact h.locals
  · rw [hstack, hbase]
    exact h.apart
  · rw [hbase, hblock]
    exact h.base
  · rw [hblock]
    exact h.below
  · rw [hblock, hindex]
    exact h.bottom
  · rw [hblock, hindex]
    exact h.height
  · rw [hstack, hindex, hblock, hbase]
    exact h.named
  · rw [hpoly]
    exact h.reachable

theorem Shaped.stop (h : Shaped s o) (isPolymorphic : Bool) : Shaped s.stop
    { o with block := { o.block with isPolymorphic := isPolymorphic } } :=
  ⟨h.locals, h.apart, h.base, h.below, h.bottom, h.height, h.named, fun hlive => by cases hlive⟩

theorem Shaped.of_emitted (h : Shaped s o) (hemitted : Emitted o o') : Shaped s o' :=
  h.of_same hemitted.sameEntries

theorem Shaped.emit (h : Shaped s o) (w : CodeWord) : Shaped s (o.emit w) :=
  h.of_emitted (emitted_emit w)

theorem Shaped.emitOp {op : M3Op} (h : Shaped s o) (ho : o.emitOp op = .ok o') :
    Shaped s o' := h.of_emitted (emitted_emitOp ho)

/-- An entry moves to slots that are no local's. -/
theorem Shaped.setStackSlot (h : Shaped s o) (hi : o.block.blockStackIndex ≤ i)
    (hslot : o.slotFirstConstIndex ≤ slot) : Shaped s (o.setStackSlot i slot) := by
  have hbase := h.base
  have hlocal : ∀ j < o.stackFirstDynamicIndex,
      Function.update o.wasmStack i slot j = o.wasmStack j := fun j hj =>
    Function.update_of_ne (by omega) ..
  refine ⟨fun j hj => ?_, fun k hk j hj heq => ?_, hbase, h.below, h.bottom, h.height,
    fun k j hlow hlt hj heq => ?_, h.reachable⟩
  · exact (hlocal j hj).trans_lt (h.locals j hj)
  · exact h.apart k hk j hj (((hlocal k hk).symm.trans heq).trans (hlocal j hj))
  · have heq : Function.update o.wasmStack i slot k = o.wasmStack j := heq.trans (hlocal j hj)
    by_cases hk : k = i
    · rw [hk, Function.update_self] at heq
      have hlt' := h.locals j hj
      omega
    · rw [Function.update_of_ne hk] at heq
      exact h.named k j hlow hlt hj heq

theorem Shaped.pop (h : Shaped s o) (ho : o.pop = .ok o') : Shaped (s.pop 1) o' := by
  have hheight := h.height
  have hpopped : ∀ {k}, o.stackIndex = k + 1 → o.block.blockStackIndex ≤ k →
      Shaped (s.pop 1) { o with stackIndex := k } := by
    intro k hk hblock
    refine ⟨h.locals, h.apart, h.base, h.below, hblock, ?_, fun i j hlow hlt hj heq => ?_,
      h.reachable⟩
    · simp only [StackShape.pop, List.length_drop]
      omega
    · simp only at hlt ⊢
      have hnamed := h.named i j hlow (by omega) hj heq
      rw [StackShape.pop, List.getElem?_drop, ← hnamed]
      exact congrArg (s.refs[·]?) (by omega)
  rcases pop_cases ho with ⟨hempty, -, rfl⟩ | ⟨k, hk, hblock, ⟨-, rfl⟩ | ⟨-, -, rfl⟩ | ⟨-, -, rfl⟩⟩
  · refine ⟨h.locals, h.apart, h.base, h.below, h.bottom, by omega, fun i j hlow hlt _ _ => ?_,
      h.reachable⟩
    omega
  · exact (hpopped hk hblock).of_same ⟨rfl, rfl, rfl, rfl, rfl, rfl⟩
  · rw [deallocateSlots_eq]
    exact (hpopped hk hblock).of_same ⟨rfl, rfl, rfl, rfl, rfl, rfl⟩
  · exact hpopped hk hblock

/-- One more entry; it is the local `j` if it is in the slot of that local. -/
theorem Shaped.push_entry {ref : Option Nat} (h : Shaped s o)
    (href : ∀ j < o.stackFirstDynamicIndex, slot = o.wasmStack j → ref = some j)
    (ho : o.push type slot = .ok o') : Shaped { s with refs := ref :: s.refs } o' := by
  have hbase := h.base
  have hbottom := h.bottom
  have hheight := h.height
  rcases push_eq ho with ⟨-, rfl⟩
  have hlocal : ∀ j < o.stackFirstDynamicIndex,
      Function.update o.wasmStack o.stackIndex slot j = o.wasmStack j := fun j hj =>
    Function.update_of_ne (by omega) ..
  refine ⟨fun j hj => ?_, fun k hk j hj heq => ?_, hbase, h.below, ?_, ?_,
    fun i j hlow hlt hj heq => ?_, h.reachable⟩
  · exact (hlocal j hj).trans_lt (h.locals j hj)
  · exact h.apart k hk j hj (((hlocal k hk).symm.trans heq).trans (hlocal j hj))
  · simp only
    omega
  · simp only [List.length_cons]
    omega
  · have heq : Function.update o.wasmStack o.stackIndex slot i = o.wasmStack j :=
      heq.trans (hlocal j hj)
    simp only at hlow hlt ⊢
    by_cases htop : i = o.stackIndex
    · rw [htop, Function.update_self] at heq
      rw [htop, Nat.add_sub_cancel, Nat.sub_self, List.getElem?_cons_zero, href j hj heq]
    · rw [Function.update_of_ne htop] at heq
      have hnamed := h.named i j hlow (by omega) hj heq
      rw [show o.stackIndex + 1 - 1 - i = o.stackIndex - 1 - i + 1 by omega,
        List.getElem?_cons_succ]
      exact hnamed

/-- An entry in slots of its own, in those of a constant, or in the register. -/
theorem Shaped.push (h : Shaped s o) (hslot : o.slotFirstConstIndex ≤ slot)
    (ho : o.push type slot = .ok o') : Shaped (s.push 1) o' :=
  h.push_entry (fun j hj heq => by have hlt := h.locals j hj; omega) ho

/-- Where nothing of the block is on the stack, nothing is a reference. -/
theorem Shaped.of_empty (h : Shaped s o) (hkept : Kept fn active room o o')
    (hempty : o'.stackIndex ≤ o'.block.blockStackIndex) : Shaped s.stop o' := by
  have hbase := h.base
  have hblock := hkept.ext.block.blockStackIndex
  have hlocal : ∀ j < o.stackFirstDynamicIndex, o'.wasmStack j = o.wasmStack j := fun j hj =>
    (hkept.ext.entries j (by omega)).1
  have hfirst := hkept.ext.stackFirstDynamicIndex
  have hbelow := h.below
  refine ⟨fun j hj => ?_, fun i hi j hj heq => ?_, ?_, ?_, hkept.good.slots.height, by omega,
    fun i j hlow hlt _ _ => ?_, fun hlive => by cases hlive⟩
  · rw [hfirst] at hj
    rw [hlocal j hj, hkept.ext.slotFirstConstIndex]
    exact h.locals j hj
  · rw [hfirst] at hi hj
    rw [hlocal i hi, hlocal j hj] at heq
    exact h.apart i hi j hj heq
  · omega
  · exact hblock.trans_le hbelow
  · omega

theorem Shaped.emitSlotNumOfStackTopAndPop (h : Shaped s o)
    (ho : o.emitSlotNumOfStackTopAndPop = .ok o') : Shaped (s.pop 1) o' := by
  rw [M3Compilation.emitSlotNumOfStackTopAndPop] at ho
  split at ho
  · exact h.pop ho
  · exact (h.emit _).pop ho

theorem Shaped.pushRegister (h : Shaped s o) (hgood : Good fn active o')
    (ho : o.pushRegister type = .ok o') : Shaped (s.push 1) o' := by
  have hlayout := hgood.frame.layout
  have hconsts := hlayout.consts
  have hdynamic := hlayout.dynamic
  have halias := slots_lt_alias
  have hsame : o'.slotFirstConstIndex = o.slotFirstConstIndex := by
    rw [(push_eq ho).2]
  exact h.push (by omega) ho

theorem popTimes_stackIndex_le (h : popTimes n o = .ok o') :
    o'.stackIndex ≤ o'.block.blockStackIndex + (o.stackIndex - o.block.blockStackIndex - n) := by
  induction n generalizing o with
  | zero =>
    cases h
    omega
  | succ n ih =>
    rcases bind_ok h with ⟨o₁, hpop, hrest⟩
    have hle := ih hrest
    have hindex := pop_stackIndex hpop
    have hblock := (pop_scopes hpop).1
    split at hindex
    · rw [hindex, hblock] at hle
      omega
    · rw [hindex, hblock] at hle
      omega

theorem setStackPolymorphic_empty (h : o.setStackPolymorphic = .ok o') :
    o'.stackIndex ≤ o'.block.blockStackIndex := by
  have hle := popTimes_stackIndex_le (o := { o with
    block := { o.block with isPolymorphic := true } }) h
  rw [Nat.sub_self] at hle
  exact hle

/-! ## The register -/

theorem Shaped.preserveRegister (h : Shaped s o) (hgood : Good fn active o)
    (ho : o.preserveRegisterIfOccupied = .ok o') : Shaped s o' := by
  rcases preserveRegister_cases ho with ⟨-, rfl⟩ | ⟨hreg, slot, o₁, o₂, halloc, hemit, rfl⟩
  · exact h
  · rcases hgood.slots.register hreg with ⟨hlow, hhigh, -⟩
    have hlt : o.regStackIndexPlusOne - 1 < o.stackIndex := by omega
    rw [getStackTypeFromBottom_of_lt hlt] at halloc
    rcases allocateSlots_spec (hgood.slots.small _ hlt) halloc with ⟨heq, hslot, -, -⟩
    have hconsts := hgood.frame.layout.consts
    have hfreed : SameEntries o ({ o with regStackIndexPlusOne := 0 } : M3Compilation) :=
      ⟨rfl, rfl, rfl, rfl, rfl, rfl⟩
    have hsame : SameEntries o o₁ := by
      rw [heq]
      exact hfreed.trans (sameEntries_markSlots ..)
    have hmoved : Shaped s (o₁.setStackSlot (o.regStackIndexPlusOne - 1) slot) :=
      (h.of_same hsame).setStackSlot (by rw [hsame.blockStackIndex]; omega)
        (by rw [hsame.slotFirstConstIndex]; exact Nat.le_trans hconsts hslot)
    exact (hmoved.emitOp hemit).emit _

theorem Shaped.preserveNonTopRegisters (h : Shaped s o) (hgood : Good fn active o)
    (ho : o.preserveNonTopRegisters = .ok o') : Shaped s o' := by
  rw [M3Compilation.preserveNonTopRegisters] at ho
  split at ho
  · exact h.preserveRegister hgood ho
  · cases ho
    exact h

theorem Shaped.copyStackTopToRegister (h : Shaped s o) (hgood : Good fn active o)
    (ho : o.copyStackTopToRegister = .ok o') : Shaped s o' := by
  rcases copyStackTopToRegister_cases ho with ⟨-, rfl⟩ | ⟨-, o₁, o₂, hpreserve, hemit, rfl⟩
  · exact h
  · exact ((h.preserveRegister hgood hpreserve).emitOp hemit).emit _

theorem Shaped.chooseForm {info : M3OpInfo} {form : Option Form} (h : Shaped s o)
    (hgood : Good fn active o) (ho : o.chooseForm info = .ok (form, o')) : Shaped s o' := by
  have hpreserve : ∀ {form' : Option Form}, (do
      let o ← o.preserveRegisterIfOccupied
      .ok (form', o) : Except CompileErr _) = .ok (form, o') → Shaped s o' := by
    intro form' ho
    rcases bind_ok ho with ⟨o₁, hpreserve, heq⟩
    cases heq
    exact h.preserveRegister hgood hpreserve
  rw [M3Compilation.chooseForm] at ho
  split at ho
  · split at ho
    · cases ho
      exact h
    · exact hpreserve ho
  · split at ho
    · split at ho <;> cases ho <;> exact h
    · split at ho
      · split at ho <;> cases ho <;> exact h
      · exact hpreserve ho

/-! ## Locals -/

/-- What the shape says of a local of two slots. -/
theorem Shaped.single (h : Shaped s o) (hone : getTypeNumSlots (o.typeStack j) = 1 ∨
    s.refs.count (some j) ≤ 1) (hj : j < o.stackFirstDynamicIndex) : Single o j := by
  rcases hone with hone | hcount
  · exact .inl hone
  · refine .inr fun i i' hlow hlt hlt' hat hat' => ?_
    have hfirst := h.named i j hlow (by omega) hj hat
    have hsecond := h.named i' j (by omega) hlt' hj hat'
    rcases List.getElem?_eq_some_iff.mp hfirst with ⟨hk, hk'⟩
    rcases List.getElem?_eq_some_iff.mp hsecond with ⟨hm, hm'⟩
    have htwice : List.Duplicate (some j) s.refs := List.duplicate_iff_exists_distinct_get.mpr
      ⟨⟨_, hm⟩, ⟨_, hk⟩, Fin.mk_lt_mk.mpr (by omega), hm'.symm, hk'.symm⟩
    have htwo : 2 ≤ s.refs.count (some j) :=
      List.replicate_sublist_iff.mp (List.duplicate_iff_sublist.mp htwice)
    omega

/-- What referred to a local that is written is elsewhere. -/
theorem Shaped.forget {p : Nat} (h : Shaped s o) (hgood : Good fn active o)
    (hj : j < o.stackFirstDynamicIndex) (hrefs : References fn active room o j o.stackIndex p o') :
    Shaped (s.forget j) o' := by
  have hunreferenced := hrefs.unreferenced_self hgood hj
  have hbase := hgood.frame.base_le
  have hfirst := hrefs.shape.stackFirstDynamicIndex
  have hlocal : ∀ k < o.stackFirstDynamicIndex, o'.wasmStack k = o.wasmStack k := fun k hk =>
    (hrefs.kept.ext.entries k (Nat.lt_of_lt_of_le hk hbase)).1
  refine ⟨fun k hk => ?_, fun i hi k hk heq => ?_, ?_, ?_, hrefs.kept.good.slots.height, ?_,
    fun i k hlow hlt hk heq => ?_, ?_⟩
  · rw [hfirst] at hk
    rw [hlocal k hk, hrefs.shape.slotFirstConstIndex]
    exact h.locals k hk
  · rw [hfirst] at hi hk
    rw [hlocal i hi, hlocal k hk] at heq
    exact h.apart i hi k hk heq
  · rw [hfirst, hrefs.shape.block]
    exact hbase
  · rw [hrefs.shape.block]
    exact h.below
  · rw [StackShape.forget, List.length_map, hrefs.shape.block, hrefs.index]
    exact h.height
  · have hne : k ≠ j := fun hkj => hunreferenced i hlow hlt (hkj ▸ heq)
    rw [hrefs.shape.block] at hlow
    rw [hrefs.index] at hlt ⊢
    rw [hfirst] at hk
    have hnamed := h.named i k hlow hlt hk (hrefs.refers_before hgood hk hlow hlt heq)
    rw [StackShape.forget, List.getElem?_map, hnamed, Option.map_some, if_neg]
    exact fun heq => hne (Option.some.inj heq)
  · rw [hrefs.shape.block]
    exact h.reachable

/-- No value is in the slot of a local. -/
theorem Shaped.settle (h : Shaped s o) (hkept : Kept fn active room o o')
    (hindex : o'.stackIndex = o.stackIndex)
    (hpoly : o'.block.isPolymorphic = o.block.isPolymorphic)
    (hall : ∀ j < o.stackFirstDynamicIndex, Unreferenced o' j) : Shaped s.settle o' := by
  have hbase := h.base
  have hbelow := h.below
  have hblock := hkept.ext.block.blockStackIndex
  have hfirst := hkept.ext.stackFirstDynamicIndex
  have hlocal : ∀ k < o.stackFirstDynamicIndex, o'.wasmStack k = o.wasmStack k := fun k hk =>
    (hkept.ext.entries k (by omega)).1
  refine ⟨fun k hk => ?_, fun i hi k hk heq => ?_, by omega, hblock.trans_le hbelow,
    hkept.good.slots.height, ?_, fun i k hlow hlt hk heq => ?_, ?_⟩
  · rw [hfirst] at hk
    rw [hlocal k hk, hkept.ext.slotFirstConstIndex]
    exact h.locals k hk
  · rw [hfirst] at hi hk
    rw [hlocal i hi, hlocal k hk] at heq
    exact h.apart i hi k hk heq
  · rw [StackShape.settle, List.length_map, hblock, hindex]
    exact h.height
  · exact absurd heq (hall k (hfirst ▸ hk) i hlow hlt)
  · rw [hpoly]
    exact h.reachable

theorem copyStackIndexToSlot_emitted {dest : Nat} (h : o.copyStackIndexToSlot dest i = .ok o') :
    Emitted o o' := by
  rcases copyStackIndexToSlot_cases h with ⟨-, o₁, hemit, rfl⟩ | ⟨-, o₁, hemit, rfl⟩
  · exact (emitted_emitOp hemit).trans (emitted_emit _)
  · exact (emitted_emitOp hemit).trans (Emitted.trans (emitted_emit _) (emitted_emit _))

theorem Shaped.compileSetLocal {isTee : Bool} (h : Shaped s o) (hgood : Good fn active o)
    (hsingle : i < o.stackFirstDynamicIndex → Single o i)
    (ho : o.compileSetLocal i isTee = .ok o') :
    Shaped (if isTee then s.forget i else (s.forget i).pop 1) o' := by
  rcases compileSetLocal_cases ho with ⟨hi, p, o₁, o₂, hfind, hcopy, hpop⟩
  have hbase : i < o.stackFirstDynamicIndex := hgood.frame.layout.numArgsAndLocals ▸ hi
  have hlt : i < o.stackIndex :=
    Nat.lt_of_lt_of_le hbase (Nat.le_trans hgood.frame.base_le hgood.slots.height)
  rw [getSlotForStackIndex_of_lt hlt] at hfind
  have hrefs := hgood.findReferencedLocal hgood.room hbase (hsingle hbase) hfind
  have hforgot := h.forget hgood hbase hrefs
  have hcopied : Emitted o₁ o₂ := by
    rcases hcopy with ⟨-, hcopy⟩ | ⟨-, hcopy⟩
    · exact copyStackIndexToSlot_emitted hcopy
    · exact (hrefs.kept.good.preservedCopyTopSlot hcopy).2
  cases isTee with
  | true =>
    rw [if_pos rfl] at hpop
    rw [hpop]
    exact hforgot.of_emitted hcopied
  | false => exact (hforgot.of_emitted hcopied).pop hpop

theorem Shaped.compileGetLocal (h : Shaped s o) (hgood : Good fn active o)
    (ho : o.compileGetLocal i = .ok o') : Shaped { s with refs := some i :: s.refs } o' := by
  rw [M3Compilation.compileGetLocal] at ho
  split at ho
  · cases ho
  · rename_i hi
    have hbase : i < o.stackFirstDynamicIndex :=
      hgood.frame.layout.numArgsAndLocals ▸ Nat.lt_of_not_le hi
    have hlt : i < o.stackIndex := by
      have hbottom := h.bottom
      have hblock := h.base
      omega
    rw [getStackTypeFromBottom_of_lt hlt, getSlotForStackIndex_of_lt hlt] at ho
    exact h.push_entry (fun j hj heq => congrArg some (h.apart i hbase j hj heq)) ho

/-! ## Other instructions -/

theorem Shaped.pushAllocatedSlotAndEmit (h : Shaped s o) (hgood : Good fn active o)
    (hsmall : getTypeNumSlots type ≤ 2) (ho : o.pushAllocatedSlotAndEmit type = .ok o') :
    Shaped (s.push 1) o' := by
  rcases bind_ok ho with ⟨⟨slot, o₁⟩, halloc, ho⟩
  rcases bind_ok ho with ⟨o₂, hpush, ho⟩
  cases ho
  rcases allocateSlots_spec hsmall halloc with ⟨heq, hlow, -, -⟩
  have hsame : SameEntries o o₁ := heq ▸ sameEntries_markSlots ..
  have hconsts := hgood.frame.layout.consts
  refine ((h.of_same hsame).push ?_ hpush).emit _
  rw [hsame.slotFirstConstIndex]
  exact Nat.le_trans hconsts hlow

theorem Shaped.pushConst {word : BitVec 64} (h : Shaped s o) (hgood : Good fn active o)
    (htype : type.IsInt) (ho : o.pushConst word type = .ok o') : Shaped (s.push 1) o' := by
  have hsmall := htype.small
  rcases pushConst_cases ho with ⟨slot, hfind, hpush⟩ | ⟨slot, o₁, o₂, halloc, hpush, rfl⟩ |
    ⟨o₁, hemit, hpush⟩
  · exact h.push (findConstant_spec hsmall hfind).low hpush
  · rcases allocateSlots_free halloc hsmall with ⟨hlow, -, -, -⟩
    have hsame : SameEntries o (o₁.setConstant slot word type) := by
      rw [setConstant_eq, (allocateSlots_eq halloc).1]
      exact (sameEntries_markSlots o slot type).trans ⟨rfl, rfl, rfl, rfl, rfl, rfl⟩
    have hpushed := (h.of_same hsame).push (by rw [hsame.slotFirstConstIndex]; exact hlow) hpush
    exact hpushed.of_same ⟨rfl, rfl, rfl, rfl, rfl, rfl⟩
  · have hop := hgood.emitOp hemit
    exact ((h.emitOp hemit).emit _).pushAllocatedSlotAndEmit (hop.good.emit (n := 4) hop.room).good
      hsmall hpush

theorem Shaped.compileGetGlobal {g : WasmGlobal} (h : Shaped s o) (hgood : Good fn active o)
    (ho : o.compileGetGlobal i g = .ok o') : Shaped (s.push 1) o' := by
  rcases bind_ok ho with ⟨o₁, hemit, hpush⟩
  have hop := hgood.emitOp hemit
  exact ((h.emitOp hemit).emit _).pushAllocatedSlotAndEmit (hop.good.emit (n := 4) hop.room).good
    g.type.valueType_isInt.small hpush

theorem Shaped.compileSetGlobal {g : WasmGlobal} (h : Shaped s o)
    (ho : o.compileSetGlobal i g = .ok o') : Shaped (s.pop 1) o' := by
  rcases compileSetGlobal_cases ho with ⟨-, o₁, hemit, hpop⟩
  split at hpop
  · exact ((h.emitOp hemit).emit _).pop hpop
  · exact (((h.emitOp hemit).emit _).emit _).pop hpop

theorem Shaped.compileOperator {info : M3OpInfo} (h : Shaped s o) (hgood : Good fn active o)
    (hoffset : info.stackOffset ≤ 0) (hsmall : getTypeNumSlots info.type ≤ 2)
    (ho : o.compileOperator info = .ok o') :
    Shaped ((s.pop (if info.stackOffset < 0 then 2 else 1)).push
      (if info.type = .none then 0 else 1)) o' := by
  have hgood' := (hgood.compileOperator hoffset hsmall ho).good
  rcases compileOperator_cases ho with ⟨form, o₁, o₂, o₃, o₄, hchoose, hemit, hpop, hpop', hpush⟩
  have hfirst := ((h.chooseForm hgood hchoose).emitOp hemit).emitSlotNumOfStackTopAndPop hpop
  have hpopped : Shaped (s.pop (if info.stackOffset < 0 then 2 else 1)) o₄ := by
    by_cases hneg : info.stackOffset < 0
    · rw [if_pos hneg] at hpop' ⊢
      have hsecond := hfirst.emitSlotNumOfStackTopAndPop hpop'
      rw [StackShape.pop_pop] at hsecond
      exact hsecond
    · rw [if_neg hneg] at hpop' ⊢
      rw [hpop']
      exact hfirst
  by_cases htype : info.type = .none
  · rw [if_neg (not_not.mpr htype)] at hpush
    rw [if_pos htype, hpush]
    exact hpopped
  · rw [if_pos htype] at hpush
    rw [if_neg htype]
    exact hpopped.pushRegister hgood' hpush

theorem opInfo_type (op : Operator) :
    (if (opInfo op).type = .none then 0 else 1) = op.pushes := by
  cases op with
  | unop t | binop t | load t => cases t <;> rfl
  | eqz | relop | extend32S | wrap | extend | store => rfl

theorem opInfo_operands (op : Operator) :
    (if (opInfo op).stackOffset < 0 then 2 else 1) = op.arity := by
  cases op <;> rfl

theorem Shaped.compileOperatorOrMemory {op : Operator} (h : Shaped s o)
    (hgood : Good fn active o) (ho : o.compileOperatorOrMemory op = .ok o') :
    Shaped ((s.pop op.arity).push op.pushes) o' := by
  have hop : ∀ {o₁ : M3Compilation}, o.compileOperator (opInfo op) = .ok o₁ →
      Shaped ((s.pop op.arity).push op.pushes) o₁ := by
    intro o₁ ho₁
    rw [← opInfo_type, ← opInfo_operands]
    exact h.compileOperator hgood (opInfo_stackOffset op) (opInfo_small op) ho₁
  cases op with
  | load t SRC offset =>
    rcases bind_ok ho with ⟨o₁, ho₁, heq⟩
    cases heq
    exact (hop ho₁).emit _
  | store t DEST offset =>
    rcases bind_ok ho with ⟨o₁, ho₁, heq⟩
    cases heq
    exact (hop ho₁).emit _
  | unop | eqz | binop | relop | extend32S | wrap | extend => exact hop ho

theorem Shaped.compileMemorySize (h : Shaped s o) (hgood : Good fn active o)
    (ho : o.compileMemorySize = .ok o') : Shaped (s.push 1) o' := by
  have hgood' := (hgood.compileMemorySize ho).good
  rcases bind_ok ho with ⟨o₁, hpreserve, ho⟩
  rcases bind_ok ho with ⟨o₂, hemit, hpush⟩
  exact ((h.preserveRegister hgood hpreserve).emitOp hemit).pushRegister hgood' hpush

theorem Shaped.compileMemoryGrow (h : Shaped s o) (hgood : Good fn active o)
    (ho : o.compileMemoryGrow = .ok o') : Shaped ((s.pop 1).push 1) o' := by
  have hgood' := (hgood.compileMemoryGrow ho).good
  rcases bind_ok ho with ⟨o₁, hcopy, ho⟩
  rcases bind_ok ho with ⟨o₂, hpop, ho⟩
  rcases bind_ok ho with ⟨o₃, hemit, hpush⟩
  exact (((h.copyStackTopToRegister hgood hcopy).pop (popType_eq hpop)).emitOp hemit).pushRegister
    hgood' hpush

theorem Shaped.compileMemoryCopyFill {op : M3Op} (h : Shaped s o) (hgood : Good fn active o)
    (ho : o.compileMemoryCopyFill op = .ok o') : Shaped (s.pop 3) o' := by
  rcases bind_ok ho with ⟨o₁, hcopy, ho⟩
  rcases bind_ok ho with ⟨o₂, hemit, ho⟩
  rcases bind_ok ho with ⟨o₃, hpop, ho⟩
  rcases bind_ok ho with ⟨o₄, hpop', hpop''⟩
  have hfirst := ((h.copyStackTopToRegister hgood hcopy).emitOp hemit).pop (popType_eq hpop)
  have hlast := (hfirst.emitSlotNumOfStackTopAndPop hpop').emitSlotNumOfStackTopAndPop hpop''
  rw [StackShape.pop_pop, StackShape.pop_pop] at hlast
  exact hlast

theorem emitted_emitSlots (slots : List Nat) (o : M3Compilation) :
    Emitted o (slots.foldl (fun o slot =>
      if slot < d_m3MaxFunctionSlots then o.emit (.slot slot) else o) o) := by
  induction slots generalizing o with
  | nil => exact .refl o
  | cons slot slots ih =>
    rw [List.foldl_cons]
    split
    · exact (emitted_emit _).trans (ih _)
    · exact ih o

/-- In code that can be reached there are integers to choose from. -/
theorem Shaped.compileSelect (h : Shaped s o) (hgood : Good fn active o)
    (hlive : o.block.isPolymorphic = false) (ho : o.compileSelect = .ok o') :
    Shaped ((s.pop 3).push 1) o' := by
  have hgood' := (hgood.compileSelect ho).good
  rcases compileSelect_cases ho with
    ⟨-, o₁, slot0, o₂, slot1, o₃, slot2, o₄, o₅, hfirst, hslot0, hslot1, hslot2, hemit, hpush⟩ |
    ⟨hpoly, -⟩
  · have hpreserved : Shaped s o₁ := by
      rcases hfirst with ⟨rfl, -⟩ | hpreserve
      · exact h
      · exact h.preserveRegister hgood hpreserve
    have hpopped := ((hpreserved.pop (popSelectOperand_cases hslot0).1).pop
      (popSelectOperand_cases hslot1).1).pop (popSelectOperand_cases hslot2).1
    rw [StackShape.pop_pop, StackShape.pop_pop] at hpopped
    have hslots := (hpopped.emitOp hemit).of_emitted
      (emitted_emitSlots ([slot0, slot1, slot2].filterMap id) o₅)
    exact hslots.pushRegister hgood' hpush
  · rw [hlive] at hpoly
    cases hpoly

theorem Shaped.copyArgs {argTop : Nat} (h : Shaped s o) (ho : copyArgs n o argTop = .ok o') :
    Shaped (s.pop n) o' := by
  induction n generalizing o s argTop with
  | zero =>
    cases ho
    exact h
  | succ n ih =>
    rcases bind_ok ho with ⟨o₁, hcopy, ho⟩
    rcases bind_ok ho with ⟨o₂, hpop, hrest⟩
    have hdrop := ih ((h.of_emitted (copyStackIndexToSlot_emitted hcopy)).pop hpop) hrest
    rw [StackShape.pop_pop, Nat.add_comm] at hdrop
    exact hdrop

theorem Shaped.pushResults {types : List M3ValueType} {topSlot : Nat} (h : Shaped s o)
    (hslot : o.slotFirstConstIndex ≤ topSlot) (ho : pushResults types o topSlot = .ok o') :
    Shaped (s.push types.length) o' := by
  induction types generalizing o s topSlot with
  | nil =>
    cases ho
    exact h
  | cons type types ih =>
    rcases bind_ok ho with ⟨o₁, hpush, ho⟩
    rcases bind_ok ho with ⟨o₂, hmark, hrest⟩
    have hpushed := h.push hslot hpush
    have hsame : SameEntries o₁ o₂ := by
      rw [markSlotsAllocatedByType] at hmark
      split at hmark
      · cases hmark
      · cases hmark
        exact sameEntries_markSlots ..
    have hconst : o₂.slotFirstConstIndex = o.slotFirstConstIndex := by
      rw [hsame.slotFirstConstIndex, (push_eq hpush).2]
    have hall := ih (hpushed.of_same hsame) (by rw [hconst]; omega) hrest
    rw [StackShape.push_push] at hall
    exact hall

theorem Shaped.compileCall {functionIndex : Nat} {funcType : M3FuncType} {compiled : Option PC}
    (h : Shaped s o) (hgood : Good fn active o)
    (ho : o.compileCall functionIndex funcType compiled = .ok o') :
    Shaped ((s.pop funcType.args.length).push funcType.rets.length) o' := by
  rcases compileCall_cases ho with ⟨o₁, o₂, o₃, hcopy, hpush, hemit, rfl⟩
  have hmax := (hgood.getMaxUsedSlotPlusOne hgood.room).good
  have hargs := hmax.copyArgs hcopy
  have hle := le_alignSlotToType
    (max 1 o.getMaxUsedSlotPlusOne.slotMaxAllocatedIndexPlusOne) .i64
  have htouched := hmax.slots.touched
  have hconsts := hmax.frame.layout.consts
  have hpopped := (h.of_same ⟨rfl, rfl, rfl, rfl, rfl, rfl⟩ : Shaped s o.getMaxUsedSlotPlusOne).copyArgs
    hcopy
  have hpushed := hpopped.pushResults (by rw [hargs.1.ext.slotFirstConstIndex]; omega) hpush
  exact ((hpushed.emitOp hemit).emit _).emit _

/-! ## Branches -/

theorem Good.compileForwardBranch_same (h : Good fn active o)
    (hscope : o.scopes[depth]? = some scope) (ho : o.compileForwardBranch depth scope = .ok o') :
    SameEntries o o' := by
  rcases compileForwardBranch_cases ho with ⟨-, rfl⟩ | ⟨-, -, o₁, hreturn, hemit⟩ |
    ⟨-, hdepth, o₁, hresolve, hemit⟩
  · exact (Emitted.refl o').sameEntries
  · exact ((h.returnValues hreturn).2.trans (emitted_emitOp hemit)).sameEntries
  · have hmvp := h.scope_mvp (List.mem_of_getElem? hscope) (.inr hdepth)
    rcases bind_ok hemit with ⟨o₂, hop, heq⟩
    cases heq
    exact ((h.resolveBlockResults hmvp hresolve).2.trans (emitted_emitOp hop)).sameEntries.trans
      (sameEntries_emitPatchingBranchPointer ..)

theorem Shaped.compileUnreachable (h : Shaped s o) (hgood : Good fn active o)
    (ho : o.compileUnreachable = .ok o') : Shaped s.stop o' := by
  have hkept := hgood.compileUnreachable ho
  rcases bind_ok ho with ⟨o₁, hemit, hpoly⟩
  exact h.of_empty hkept (setStackPolymorphic_empty hpoly)

theorem Shaped.compileReturn (h : Shaped s o) (hgood : Good fn active o)
    (ho : o.compileReturn = .ok o') : Shaped s.stop o' := by
  have hkept := hgood.compileReturn ho
  rw [M3Compilation.compileReturn] at ho
  split at ho
  · cases ho
    exact h.stop _
  · rcases bind_ok ho with ⟨scope, -, ho⟩
    rcases bind_ok ho with ⟨o₁, hreturn, ho⟩
    rcases bind_ok ho with ⟨o₂, hemit, hpoly⟩
    exact h.of_empty hkept (setStackPolymorphic_empty hpoly)

theorem Shaped.compileBr (h : Shaped s o) (hgood : Good fn active o)
    (ho : o.compileBr depth = .ok o') : Shaped s.stop o' := by
  have hkept := hgood.compileBr ho
  rcases bind_ok ho with ⟨scope, hscope, ho⟩
  split at ho
  · rcases bind_ok ho with ⟨o₁, hemit, heq⟩
    cases heq
    exact ((h.emitOp hemit).emit _).stop true
  · rcases bind_ok ho with ⟨o₁, hbranch, hpoly⟩
    exact h.of_empty hkept (setStackPolymorphic_empty hpoly)

theorem Shaped.compileBrTable {targets : List Nat} {default : Nat} (h : Shaped s o)
    (hgood : Good fn active o) (ho : o.compileBrTable targets default = .ok o') :
    Shaped s.stop o' := by
  have hkept := hgood.compileBrTable ho
  rcases compileBrTable_cases ho with ⟨o₁, o₂, o₃, o₄, o₅, -, -, -, -, -, hpoly⟩
  exact h.of_empty hkept (setStackPolymorphic_empty hpoly)

theorem Shaped.compileBrIf (h : Shaped s o) (hgood : Good fn active o)
    (ho : o.compileBrIf depth = .ok o') : Shaped (s.pop 1) o' := by
  obtain ⟨scope, hscope⟩ : ∃ scope, o.scopes[depth]? = some scope := by
    rcases bind_ok ho with ⟨scope, hscope, -⟩
    exact ⟨scope, getBlockScope_eq hscope⟩
  have hargs : scope.opcode = .loop → scope.type.args = [] := fun hloop =>
    (hgood.scope_mvp (List.mem_of_getElem? hscope) (.inl (by rw [hloop]; decide))).args
  rcases compileBrIf_cases ho hscope hargs with ⟨-, o₁, o₂, o₃, hcopy, hpop, hemit, rfl⟩ |
    ⟨-, -, o₁, o₂, o₃, hemit, hpop, hbranch, rfl⟩ | ⟨-, -, o₁, o₂, hemit, hpop, rfl⟩
  · exact (((h.copyStackTopToRegister hgood hcopy).pop (popType_eq hpop)).emitOp hemit).emit _
  · have hop := hgood.emitOp hemit
    have hpopped := (hop.good.emitSlotNumOfStackTopAndPop (n := 0) hop.room hpop).1
    have hword := hpopped.good.emit (w := .patch) hpopped.room
    have hsame : (o₂.emit .patch).scopes[depth]? = some scope := by
      rw [(emitted_emit _).scopes, (emitSlotNumOfStackTopAndPop_scopes hpop).2,
        (emitted_emitOp hemit).scopes]
      exact hscope
    have hrefs := ((h.emitOp hemit).emitSlotNumOfStackTopAndPop hpop).emit .patch
    exact (hrefs.of_same (hword.good.compileForwardBranch_same hsame hbranch)).of_emitted
      (emitted_patch ..)
  · exact ((h.emitOp hemit).emitSlotNumOfStackTopAndPop hpop).of_same
      (sameEntries_emitPatchingBranchPointer ..)

end WebAssemblyRuntime.Wasm3.M3Compilation
