import WebAssemblyRuntime.Wasm3.InstructionKeeps

/-!
# BranchKeeps — branches, and the words that wait for their targets

A branch out of a block leaves a word behind that is filled in at the end of the block; the scope of
the block has the list of them.  After a branch the rest of a block is unreachable, and its stack is
polymorphic.
-/

namespace WebAssemblyRuntime.Wasm3.M3Compilation

open Reasoning (bind_ok)

variable {fn : M3FuncType} {active : List Nat} {o o' o'' : M3Compilation} {type : M3ValueType}
  {room i n depth : Nat} {pc target : PC} {scope : M3CompilationScope}

/-! ## Scopes -/

/-- Only the scopes were changed, and words were written. -/
theorem Good.of_scopes (h : Good fn active o)
    (heq : o' = { o with rt := o'.rt, page := o'.page, block := o'.block, outer := o'.outer })
    (hext : Ext active o o')
    (hpoly : o'.block.isPolymorphic = false → o.block.isPolymorphic = false)
    (hcode : CodeGood active o') (hroom : Writable active room o') : Kept fn active room o o' := by
  have hslots := h.slots
  have hblock := hext.block.blockStackIndex
  have hopen := hext.open_iff
  refine ⟨hext, ⟨h.frame.of_ext hext, ?_, hcode⟩, hroom⟩
  revert hopen hpoly
  rw [heq]
  intro hpoly hopen
  refine ⟨?_, hslots.bounded, fun i hlow hlt hopen' => ?_, hslots.small, fun n hn hlt => ?_,
    hslots.bytes, hslots.touched, hslots.allocated, hslots.untouched, hslots.constants,
    hslots.constantsEnd, ?_,
    fun hnot i hlow hlt hopen' hat => hslots.unique (hpoly hnot) i hlow hlt
      ((hopen i).mp hopen') hat⟩
  · exact Nat.le_trans (Nat.le_of_eq hblock) hslots.height
  · cases hslots.entries i hlow hlt ((hopen i).mp hopen') with
    | ofLocal j hj hslot htype hle => exact .ofLocal j hj hslot htype (Nat.le_trans (Nat.le_of_eq hblock) hle)
    | constant hlow hhigh hused => exact .constant hlow hhigh hused
    | dynamic hlow hhigh => exact .dynamic hlow hhigh
    | register h => exact .register h
  · refine (hslots.counted n hn hlt).trans (count_congr fun j _ => ?_)
    exact and_congr_left fun _ => (hopen j).symm
  · intro hreg
    rcases hslots.register hreg with ⟨hlow, hregister⟩
    exact ⟨Nat.lt_of_le_of_lt (Nat.le_of_eq hblock) hlow, hregister⟩

/-- The rest of the block is unreachable. -/
theorem Good.setPolymorphic (h : Good fn active o) (hroom : Writable active room o) :
    Kept fn active room o { o with block := { o.block with isPolymorphic := true } } := by
  have hext : Ext active o { o with block := { o.block with isPolymorphic := true } } :=
    ⟨.of_rt rfl, ⟨rfl, [], rfl, fun _ hmem => by cases hmem⟩,
      List.forall₂_same.mpr fun c _ => ⟨.refl o c, rfl⟩, fun _ _ => ⟨rfl, rfl⟩, rfl, rfl, rfl, rfl,
      Nat.le_refl _, fun _ _ _ hused => ⟨hused, rfl⟩⟩
  refine h.of_scopes rfl hext (fun hnot => by cases hnot) ⟨?_, h.code.patches, ?_, ?_⟩
    (hroom.of_eq rfl rfl)
  · exact h.room.of_eq rfl rfl
  · intro c hmem
    rcases List.mem_cons.mp hmem with rfl | hmem
    · exact h.code.unpatched o.block (List.mem_cons_self ..)
    · exact h.code.unpatched c (List.mem_cons_of_mem _ hmem)
  · intro c hmem
    rcases List.mem_cons.mp hmem with rfl | hmem
    · exact h.code.begun o.block (List.mem_cons_self ..)
    · exact h.code.begun c (List.mem_cons_of_mem _ hmem)

theorem Good.setStackPolymorphic (h : Good fn active o) (hroom : Writable active room o)
    (ho : o.setStackPolymorphic = .ok o') : Kept fn active room o o' := by
  have hpoly := h.setPolymorphic hroom
  exact hpoly.trans (hpoly.good.unwindBlockStack hpoly.room ho).1

theorem scopes_modifyScope (o : M3Compilation) (depth : Nat)
    (f : M3CompilationScope → M3CompilationScope) :
    (o.modifyScope depth f).scopes = o.scopes.modify depth f := by
  cases depth with
  | zero => rfl
  | succ depth => rfl

theorem forall₂_modify {α : Type} {R : α → α → Prop} {f : α → α} (hrefl : ∀ a, R a a)
    (hf : ∀ a, R a (f a)) (l : List α) (i : Nat) : List.Forall₂ R l (l.modify i f) := by
  induction l generalizing i with
  | nil =>
    rw [List.modify_nil]
    exact .nil
  | cons a l ih =>
    cases i with
    | zero => exact .cons (hf a) (List.forall₂_same.mpr fun b _ => hrefl b)
    | succ i => exact .cons (hrefl a) (ih i)

/-- A word is left for the end of a block. -/
def addPatch (pc : PC) (scope : M3CompilationScope) : M3CompilationScope :=
  { scope with patches := pc :: scope.patches }

theorem perm_addPatch {scopes : List M3CompilationScope} (h : depth < scopes.length) :
    (pc :: scopes.flatMap M3CompilationScope.patches).Perm
      ((scopes.modify depth (addPatch pc)).flatMap M3CompilationScope.patches) := by
  induction scopes generalizing depth with
  | nil => exact absurd h (Nat.not_lt_zero _)
  | cons c scopes ih =>
    cases depth with
    | zero => exact .refl _
    | succ depth =>
      rw [List.modify_succ_cons, List.flatMap_cons, List.flatMap_cons]
      exact List.perm_middle.symm.trans (.append_left _ (ih (Nat.lt_of_succ_lt_succ h)))

theorem mem_modify {α : Type} {f : α → α} {l : List α} {a : α} (h : a ∈ l.modify i f) :
    a ∈ l ∨ ∃ b ∈ l, a = f b := by
  induction l generalizing i with
  | nil =>
    rw [List.modify_nil] at h
    cases h
  | cons b l ih =>
    cases i with
    | zero =>
      rcases List.mem_cons.mp h with rfl | h
      · exact .inr ⟨b, List.mem_cons_self .., rfl⟩
      · exact .inl (List.mem_cons_of_mem _ h)
    | succ i =>
      rcases List.mem_cons.mp h with rfl | h
      · exact .inl (List.mem_cons_self ..)
      · rcases ih h with h | ⟨c, hc, rfl⟩
        · exact .inl (List.mem_cons_of_mem _ h)
        · exact .inr ⟨c, List.mem_cons_of_mem _ hc, rfl⟩

/-- The next word is no scope's yet. -/
theorem CodeGood.getPC_not_mem (h : CodeGood active o) : ∀ c ∈ o.scopes, o.getPC ∉ c.patches := by
  intro c hmem hpc
  have hword := h.unpatched c hmem _ hpc
  rw [word_getPC] at hword
  cases hword

theorem emitPatchingBranchPointer_eq (o : M3Compilation) (depth : Nat) :
    o.emitPatchingBranchPointer depth =
      (o.modifyScope depth (addPatch o.getPC)).emit .patch := rfl

theorem modifyScope_eq (o : M3Compilation) (depth : Nat)
    (f : M3CompilationScope → M3CompilationScope) :
    o.modifyScope depth f = { o with
      block := (o.modifyScope depth f).block, outer := (o.modifyScope depth f).outer } := by
  cases depth <;> rfl

theorem Good.emitPatchingBranchPointer (h : Good fn active o)
    (hroom : Writable active (room + 1) o) (hdepth : depth < o.scopes.length) :
    Kept fn active room o (o.emitPatchingBranchPointer depth) := by
  rw [emitPatchingBranchPointer_eq]
  have hpatch : ∀ c, ScopeExt o c (addPatch o.getPC c) := fun c =>
    ⟨rfl, [o.getPC], rfl, fun pc hpc => by rw [List.mem_singleton.mp hpc, word_getPC]⟩
  have hemit : Writes active o (o.emit .patch) ∧ Writable active room (o.emit .patch) :=
    ⟨hroom.writes_emit, hroom.emit⟩
  have hrt : ((o.modifyScope depth (addPatch o.getPC)).emit .patch).rt = (o.emit .patch).rt := by
    rw [modifyScope_eq]
    rfl
  have hscopes : ((o.modifyScope depth (addPatch o.getPC)).emit .patch).scopes =
      o.scopes.modify depth (addPatch o.getPC) := scopes_modifyScope o depth _
  have hwrites : Writes active o ((o.modifyScope depth (addPatch o.getPC)).emit .patch) :=
    hemit.1.trans (.of_rt hrt)
  have hpage : ((o.modifyScope depth (addPatch o.getPC)).emit .patch).page = (o.emit .patch).page :=
    by rw [modifyScope_eq]; rfl
  have hroom' := hemit.2.of_eq hrt hpage
  have hext : Ext active o ((o.modifyScope depth (addPatch o.getPC)).emit .patch) := by
    refine ⟨hwrites, ?_, ?_, ?_, ?_, ?_, ?_, ?_, ?_, ?_⟩
    · cases depth with
      | zero => exact hpatch o.block
      | succ depth => exact .refl o _
    · cases depth with
      | zero => exact List.forall₂_same.mpr fun c _ => ⟨.refl o c, rfl⟩
      | succ depth => exact forall₂_modify (fun c => ⟨.refl o c, rfl⟩) (fun c => ⟨hpatch c, rfl⟩) _ _
    all_goals rw [modifyScope_eq]
    · exact fun _ _ => ⟨rfl, rfl⟩
    · rfl
    · rfl
    · rfl
    · rfl
    · exact Nat.le_refl _
    · exact fun _ _ _ hused => ⟨hused, rfl⟩
  refine h.of_scopes ?_ hext ?_ ⟨hroom'.mono (Nat.zero_le _), ?_, ?_, ?_⟩ hroom'
  · rw [modifyScope_eq]
    rfl
  · cases depth with
    | zero => exact id
    | succ depth => exact id
  · rw [hscopes]
    refine (perm_addPatch hdepth).nodup_iff.mp (List.nodup_cons.mpr ⟨fun hmem => ?_, h.code.patches⟩)
    rcases List.mem_flatMap.mp hmem with ⟨c, hc, hpc⟩
    exact h.code.getPC_not_mem c hc hpc
  · rw [hscopes, hrt]
    have hold : ∀ c ∈ o.scopes, ∀ pc ∈ c.patches, (o.emit .patch).rt.word pc = some .patch :=
      fun c hc pc hpc => hemit.1.words pc _ (h.code.unpatched c hc pc hpc)
    intro c hmem pc hpc
    rcases mem_modify hmem with hmem | ⟨c', hmem', rfl⟩
    · exact hold c hmem pc hpc
    · rcases List.mem_cons.mp hpc with rfl | hpc
      · exact word_emit
      · exact hold c' hmem' pc hpc
  · rw [hscopes, hrt]
    have hold : ∀ c ∈ o.scopes, c.pc.line ≤ ((o.emit .patch).rt.pages c.pc.page).lineIndex :=
      fun c hc => Nat.le_trans (h.code.begun c hc) (hemit.1.lines _)
    intro c hmem
    rcases mem_modify hmem with hmem | ⟨c', hmem', rfl⟩
    · exact hold c hmem
    · exact hold c' hmem'

theorem Good.emitPatchingBranch (h : Good fn active o) (hdepth : depth < o.scopes.length)
    (ho : o.emitPatchingBranch depth = .ok o') : Kept fn active 4 o o' := by
  rcases bind_ok ho with ⟨o₁, hemit, heq⟩
  cases heq
  have hop := h.emitOp hemit
  refine hop.trans (hop.good.emitPatchingBranchPointer hop.room ?_)
  rw [emitted_emitOp hemit]
  exact hdepth

/-! ## Words for one jump -/

/-- A word that is to be filled in, and by no scope. -/
structure Reserved (o : M3Compilation) (pc : PC) : Prop where
  word : o.rt.word pc = some .patch
  alone : ∀ c ∈ o.scopes, pc ∉ c.patches

theorem Good.reserve (h : Good fn active o) : Reserved (o.emit .patch) o.getPC :=
  ⟨word_emit, h.code.getPC_not_mem⟩

theorem Reserved.of_ext (h : Reserved o pc) (hext : Ext active o o') : Reserved o' pc := by
  refine ⟨hext.writes.words _ _ h.word, fun c' hmem' hpc => ?_⟩
  rcases forall₂_mem hext.scopes hmem' with ⟨c, hmem, hc⟩
  rcases hc.patches with ⟨added, heq, hfresh⟩
  rw [heq] at hpc
  rcases List.mem_append.mp hpc with hpc | hpc
  · have hword := hfresh pc hpc
    rw [h.word] at hword
    cases hword
  · exact h.alone c hmem hpc

theorem emitted_patch (o : M3Compilation) (pc target : PC) : Emitted o (o.patch pc target) := rfl

theorem CodeGood.patch (h : CodeGood active o) (hreserved : Reserved o pc) :
    CodeGood active (o.patch pc target) := by
  refine ⟨h.writable.patch, h.patches, fun c hmem pc' hpc => ?_, fun c hmem => ?_⟩
  · have hne : pc' ≠ pc := by
      rintro rfl
      exact hreserved.alone c hmem hpc
    rw [word_patch_of_ne hne]
    exact h.unpatched c hmem pc' hpc
  · rw [(pages_patch _).1]
    exact h.begun c hmem

theorem Good.patch (h : Good fn active o) (hreserved : Reserved o pc) :
    Good fn active (o.patch pc target) :=
  ⟨h.frame.of_emitted rfl, h.slots.of_emitted rfl, h.code.patch hreserved⟩

/-- A word is filled in, against a state from before it was written. -/
theorem Ext.patch (h : Ext active o o') (hfresh : o.rt.word pc = none) :
    Ext active o (o'.patch pc target) :=
  ⟨h.writes.patch hfresh, h.block, h.outer, h.entries, h.numArgsAndLocals,
    h.stackFirstDynamicIndex, h.slotFirstConstIndex, h.slotFirstDynamicIndex, h.maxStackSlots,
    h.constants⟩

theorem Kept.patch (h : Kept fn active n o o') (hreserved : Reserved o' pc)
    (hfresh : o.rt.word pc = none) : Kept fn active n o (o'.patch pc target) :=
  ⟨h.ext.patch hfresh, h.good.patch hreserved, h.room.patch⟩

/-! ## Results -/

theorem setStackSlot_self (o : M3Compilation) (i : Nat) : o.setStackSlot i (o.wasmStack i) = o := by
  rw [setStackSlot, Function.update_eq_self]

theorem setStackSlot_twice (o : M3Compilation) (i slot slot' : Nat) :
    (o.setStackSlot i slot).setStackSlot i slot' = o.setStackSlot i slot' := by
  simp only [setStackSlot, Function.update_idem]

/-- One value alone has nothing in its way. -/
theorem copyStackSlotsR_one {record tempSlot : Nat} (hi : i < o.stackIndex)
    (h : copyStackSlotsR 1 o record i tempSlot = .ok o') :
    o.getSlotForStackIndex record = o.wasmStack i ∧ o' = o ∨
      o.getSlotForStackIndex record ≠ o.wasmStack i ∧
        o.copyStackIndexToSlot (o.getSlotForStackIndex record) i = .ok o' := by
  simp only [copyStackSlotsR, getSlotForStackIndex_of_lt hi] at h
  by_cases hsame : o.getSlotForStackIndex record = o.wasmStack i
  · rw [if_neg (not_not.mpr hsame)] at h
    rcases bind_ok h with ⟨o₁, hrest, h⟩
    cases hrest
    cases h
    exact .inl ⟨hsame, setStackSlot_self o i⟩
  · have hnone : o.findCollision (o.getSlotForStackIndex record)
        (getTypeNumSlots (o.getStackTypeFromBottom i) - 1) (i + 1) (i + 1 + 0) = none := by
      rw [findCollision, Nat.add_zero, Nat.sub_self]
      rfl
    rw [if_pos hsame, hnone] at h
    rcases bind_ok h with ⟨o₁, hcopy, h⟩
    rcases bind_ok h with ⟨o₂, hrest, h⟩
    cases hrest
    cases h
    refine .inr ⟨hsame, ?_⟩
    have hstack : o₁.wasmStack = o.wasmStack := by
      rcases copyStackIndexToSlot_cases hcopy with ⟨-, o₂, hemit, rfl⟩ | ⟨-, o₂, hemit, rfl⟩
      · rw [M3Compilation.emit, emitted_emitOp hemit]
      · rw [M3Compilation.emit, M3Compilation.emit, emitted_emitOp hemit]
    rw [hcopy, setStackSlot_twice, ← hstack, setStackSlot_self]

/-- One result, or none: nothing else is in the way of a copy. -/
theorem resolveBlockResults_cases {isBranch : Bool} (hmvp : scope.type.Mvp)
    (hbounded : o.stackIndex ≤ d_m3MaxFunctionStackHeight)
    (h : o.resolveBlockResults scope isBranch = .ok o') :
    ((scope.opcode = .loop ∧ isBranch = true ∨ scope.type.rets = []) ∧ o' = o) ∨
    ((¬ (scope.opcode = .loop ∧ isBranch = true) ∧ scope.type.rets.length = 1) ∧
      ∃ k, o.stackIndex = k + 1 ∧ o.block.blockStackIndex ≤ k ∧
        (o.getSlotForStackIndex scope.exitStackIndex = o.wasmStack k ∧ o' = o ∨
          o.getSlotForStackIndex scope.exitStackIndex ≠ o.wasmStack k ∧
            o.copyStackIndexToSlot (o.getSlotForStackIndex scope.exitStackIndex) k = .ok o')) := by
  have hargs : scope.type.args.length = 0 := by rw [hmvp.args, List.length_nil]
  have hlength := hmvp.rets
  simp only [resolveBlockResults, hargs] at h
  by_cases hloop : scope.opcode = .loop ∧ isBranch = true
  · simp only [if_pos hloop] at h
    rcases Reasoning.neg_of_ite h (fun herror => by cases herror) with ⟨-, hsame⟩
    cases hsame
    exact .inl ⟨.inl hloop, rfl⟩
  · simp only [if_neg hloop, Nat.add_zero] at h
    rcases Reasoning.neg_of_ite h (fun herror => by cases herror) with ⟨hheight, h⟩
    by_cases hrets : scope.type.rets.length = 0
    · rw [if_pos hrets] at h
      cases h
      exact .inl ⟨.inr (List.length_eq_zero_iff.mp hrets), rfl⟩
    · have hone : scope.type.rets.length = 1 := by omega
      rw [if_neg hrets, hone] at h
      rw [hone, getNumBlockValuesOnStack] at hheight
      have hvalue : o.block.blockStackIndex + 1 ≤ o.stackIndex := by
        cases isBranch <;> simp at hheight <;> omega
      obtain ⟨k, hk⟩ : ∃ k, o.stackIndex = k + 1 := ⟨o.stackIndex - 1, by omega⟩
      have hend : toU16 (o.getStackTopIndex + 1) - 1 = k := by
        rw [toU16, getStackTopIndex]
        rw [d_m3MaxFunctionStackHeight] at hbounded
        omega
      rw [hend] at h
      exact .inr ⟨⟨hloop, hone⟩, k, hk, by omega, copyStackSlotsR_one (by omega) h⟩

theorem Good.resolveBlockResults {isBranch : Bool} (h : Good fn active o) (hmvp : scope.type.Mvp)
    (ho : o.resolveBlockResults scope isBranch = .ok o') : Kept fn active 0 o o' ∧ Emitted o o' := by
  rcases resolveBlockResults_cases hmvp h.slots.bounded ho with
    ⟨-, rfl⟩ | ⟨-, k, -, -, ⟨-, rfl⟩ | ⟨-, hcopy⟩⟩
  · exact ⟨.refl h h.room, .refl o'⟩
  · exact ⟨.refl h h.room, .refl o'⟩
  · rcases h.copyStackIndexToSlot hcopy with ⟨hkept, hemitted⟩
    exact ⟨hkept.mono (Nat.zero_le _), hemitted⟩

theorem returnValue_cases {numReturns : Nat} {types : List M3ValueType}
    (h : returnValue numReturns types o i = .ok o') :
    (o.getStackTypeFromTop i = types.getD (numReturns - 1 - i) .unknown ∨
      o.block.isPolymorphic = true) ∧
    (o.block.isPolymorphic = true ∧ o' = o ∨
      o.block.isPolymorphic = false ∧ o.copyStackIndexToSlot
        ((numReturns - 1 - i) * c_ioSlotCount) (toU16 (o.getStackTopIndex - i)) = .ok o') := by
  simp only [returnValue] at h
  rcases Reasoning.neg_of_ite h (fun herror => by cases herror) with ⟨htype, h⟩
  cases hpoly : o.block.isPolymorphic with
  | true =>
    rw [if_pos hpoly] at h
    cases h
    exact ⟨.inr rfl, .inl ⟨rfl, rfl⟩⟩
  | false =>
    rw [if_neg (by rw [hpoly]; decide)] at h
    rw [if_neg (by rw [hpoly]; simp), not_not] at htype
    exact ⟨.inl htype.symm, .inr ⟨rfl, h⟩⟩

theorem Good.returnValue {numReturns : Nat} {types : List M3ValueType} (h : Good fn active o)
    (ho : returnValue numReturns types o i = .ok o') : Kept fn active 0 o o' ∧ Emitted o o' := by
  rcases (returnValue_cases ho).2 with ⟨-, rfl⟩ | ⟨-, hcopy⟩
  · exact ⟨.refl h h.room, .refl o'⟩
  · rcases h.copyStackIndexToSlot hcopy with ⟨hkept, hemitted⟩
    exact ⟨hkept.mono (Nat.zero_le _), hemitted⟩

theorem Good.returnValueLoop {numReturns : Nat} {types : List M3ValueType} {l : List Nat}
    (h : Good fn active o)
    (ho : l.foldlM (M3Compilation.returnValue numReturns types) o = .ok o') :
    Kept fn active 0 o o' ∧ Emitted o o' := by
  induction l generalizing o with
  | nil =>
    cases ho
    exact ⟨.refl h h.room, .refl o'⟩
  | cons i l ih =>
    rw [List.foldlM_cons] at ho
    rcases bind_ok ho with ⟨o₁, hstep, hrest⟩
    rcases h.returnValue hstep with ⟨hkept, hemitted⟩
    rcases ih hkept.good hrest with ⟨hkept', hemitted'⟩
    exact ⟨hkept.trans hkept', hemitted.trans hemitted'⟩

theorem returnValues_cases {isBranch : Bool} (h : o.returnValues scope isBranch = .ok o') :
    let numReturns := scope.type.rets.length
    (o.block.isPolymorphic = true ∨
      if isBranch then numReturns ≤ o.getNumBlockValuesOnStack
      else o.getNumBlockValuesOnStack = numReturns) ∧
    ∃ o₁, (List.range numReturns).foldlM (returnValue numReturns scope.type.rets) o = .ok o₁ ∧
      (if isBranch then o' = o₁ else popTimes numReturns o₁ = .ok o') := by
  rw [returnValues] at h
  rcases Reasoning.neg_of_ite h (fun herror => by cases herror) with ⟨hheight, h⟩
  rcases bind_ok h with ⟨o₁, hloop, h⟩
  refine ⟨?_, o₁, hloop, ?_⟩
  · cases hpoly : o.block.isPolymorphic with
    | true => exact .inl rfl
    | false =>
      right
      cases isBranch with
      | true => simpa [hpoly] using hheight
      | false => simpa [hpoly] using hheight
  · cases isBranch with
    | true =>
      cases h
      rfl
    | false => exact h

theorem Good.returnValues (h : Good fn active o) (ho : o.returnValues scope true = .ok o') :
    Kept fn active 0 o o' ∧ Emitted o o' := by
  rcases (returnValues_cases ho).2 with ⟨o₁, hloop, hsame⟩
  rw [if_pos rfl] at hsame
  subst hsame
  exact h.returnValueLoop hloop

/-! ## Branches -/

theorem getBlockScope_eq (h : o.getBlockScope depth = .ok scope) :
    o.scopes[depth]? = some scope := by
  rw [getBlockScope] at h
  cases hscope : o.scopes[depth]? with
  | none =>
    rw [hscope] at h
    cases h
  | some c =>
    rw [hscope] at h
    cases h
    rfl

/-- A scope that is not the function's is that of a block. -/
theorem Good.scope_mvp (h : Good fn active o) (hmem : scope ∈ o.scopes)
    (hopcode : scope.opcode ≠ .function ∨ scope.depth ≠ 0) : scope.type.Mvp := by
  rcases h.frame.nested.of_mem scope hmem with ⟨hfunction, -, hdepth, -⟩ | ⟨-, -, hmvp⟩
  · rcases hopcode with hne | hne
    · exact absurd hfunction hne
    · exact absurd hdepth hne
  · exact hmvp

theorem compileForwardBranch_cases (h : o.compileForwardBranch depth scope = .ok o') :
    o.block.isPolymorphic = true ∧ o' = o ∨
    o.block.isPolymorphic = false ∧ scope.depth = 0 ∧
      (∃ o₁, o.returnValues scope true = .ok o₁ ∧ o₁.emitOp .ret = .ok o') ∨
    o.block.isPolymorphic = false ∧ scope.depth ≠ 0 ∧
      ∃ o₁, o.resolveBlockResults scope true = .ok o₁ ∧ o₁.emitPatchingBranch depth = .ok o' := by
  rw [compileForwardBranch] at h
  cases hpoly : o.block.isPolymorphic with
  | true =>
    rw [if_pos hpoly] at h
    cases h
    exact .inl ⟨rfl, rfl⟩
  | false =>
    rw [if_neg (by rw [hpoly]; decide)] at h
    by_cases hdepth : scope.depth = 0
    · rw [if_pos hdepth] at h
      rcases bind_ok h with ⟨o₁, hreturn, hemit⟩
      exact .inr (.inl ⟨rfl, hdepth, o₁, hreturn, hemit⟩)
    · rw [if_neg hdepth] at h
      rcases bind_ok h with ⟨o₁, hresolve, hemit⟩
      exact .inr (.inr ⟨rfl, hdepth, o₁, hresolve, hemit⟩)

theorem Good.compileForwardBranch (h : Good fn active o) (hscope : o.scopes[depth]? = some scope)
    (ho : o.compileForwardBranch depth scope = .ok o') : Kept fn active 0 o o' := by
  rcases compileForwardBranch_cases ho with ⟨-, rfl⟩ | ⟨-, -, o₁, hreturn, hemit⟩ |
    ⟨-, hdepth, o₁, hresolve, hemit⟩
  · exact .refl h h.room
  · have hkept := (h.returnValues hreturn).1
    exact (hkept.trans (hkept.good.emitOp hemit)).mono (Nat.zero_le _)
  · have hmvp := h.scope_mvp (List.mem_of_getElem? hscope) (.inr hdepth)
    rcases h.resolveBlockResults hmvp hresolve with ⟨hkept, hemitted⟩
    refine (hkept.trans (hkept.good.emitPatchingBranch ?_ hemit)).mono (Nat.zero_le _)
    rw [hemitted]
    exact (List.getElem?_eq_some_iff.mp hscope).1

theorem Good.compileReturn (h : Good fn active o) (ho : o.compileReturn = .ok o') :
    Kept fn active 0 o o' := by
  rw [M3Compilation.compileReturn] at ho
  split at ho
  · cases ho
    exact .refl h h.room
  · rcases bind_ok ho with ⟨scope, -, ho⟩
    rcases bind_ok ho with ⟨o₁, hreturn, ho⟩
    rcases bind_ok ho with ⟨o₂, hemit, hpoly⟩
    have hkept := (h.returnValues hreturn).1
    have hop := hkept.good.emitOp hemit
    exact ((hkept.trans hop).trans (hop.good.setStackPolymorphic hop.room hpoly)).mono
      (Nat.zero_le _)

theorem Good.compileUnreachable (h : Good fn active o) (ho : o.compileUnreachable = .ok o') :
    Kept fn active 0 o o' := by
  rcases bind_ok ho with ⟨o₁, hemit, hpoly⟩
  have hop := h.emitOp hemit
  exact (hop.trans (hop.good.setStackPolymorphic hop.room hpoly)).mono (Nat.zero_le _)

theorem Good.compileBr (h : Good fn active o) (ho : o.compileBr depth = .ok o') :
    Kept fn active 0 o o' := by
  rcases bind_ok ho with ⟨scope, hscope, ho⟩
  split at ho
  · rcases bind_ok ho with ⟨o₁, hemit, heq⟩
    cases heq
    have hop := h.emitOp hemit
    have hword := hop.good.emit (w := .pc scope.pc) hop.room
    exact ((hop.trans hword).trans (hword.good.setPolymorphic hword.room)).mono (Nat.zero_le _)
  · rcases bind_ok ho with ⟨o₁, hbranch, hpoly⟩
    have hkept := h.compileForwardBranch (getBlockScope_eq hscope) hbranch
    exact hkept.trans (hkept.good.setStackPolymorphic hkept.room hpoly)

theorem pop_scopes (h : o.pop = .ok o') : o'.block = o.block ∧ o'.scopes = o.scopes := by
  rcases pop_cases h with ⟨-, -, rfl⟩ | ⟨k, -, -, ⟨-, rfl⟩ | ⟨-, -, rfl⟩ | ⟨-, -, rfl⟩⟩
  · exact ⟨rfl, rfl⟩
  · exact ⟨rfl, rfl⟩
  · rw [deallocateSlots_eq]
    exact ⟨rfl, rfl⟩
  · exact ⟨rfl, rfl⟩

theorem emitSlotNumOfStackTopAndPop_scopes (h : o.emitSlotNumOfStackTopAndPop = .ok o') :
    o'.block = o.block ∧ o'.scopes = o.scopes := by
  rw [emitSlotNumOfStackTopAndPop] at h
  split at h
  · exact pop_scopes h
  · have hsame := pop_scopes h
    exact hsame

theorem Emitted.scopes (h : Emitted o o') : o'.scopes = o.scopes := by
  rw [h]
  rfl

theorem compileBrIf_cases (h : o.compileBrIf depth = .ok o')
    (hscope : o.scopes[depth]? = some scope) (hargs : scope.opcode = .loop → scope.type.args = []) :
    scope.opcode = .loop ∧ (∃ o₁ o₂ o₃, o.copyStackTopToRegister = .ok o₁ ∧
      o₁.popType .i32 = .ok o₂ ∧ o₂.emitOp .continueLoopIf = .ok o₃ ∧
      o' = o₃.emit (.pc scope.pc)) ∨
    scope.opcode ≠ .loop ∧ (scope.type.rets.length ≠ 0 ∨ scope.depth = 0) ∧
      (∃ o₁ o₂ o₃, o.emitOp (.branchIfPrologue o.topForm) = .ok o₁ ∧
        o₁.emitSlotNumOfStackTopAndPop = .ok o₂ ∧
        (o₂.emit .patch).compileForwardBranch depth scope = .ok o₃ ∧
        o' = o₃.patch o₂.getPC o₃.getPC) ∨
    scope.opcode ≠ .loop ∧ ¬ (scope.type.rets.length ≠ 0 ∨ scope.depth = 0) ∧
      ∃ o₁ o₂, o.emitOp (.branchIf o.topForm) = .ok o₁ ∧
        o₁.emitSlotNumOfStackTopAndPop = .ok o₂ ∧ o' = o₂.emitPatchingBranchPointer depth := by
  rcases bind_ok h with ⟨scope', hscope', h⟩
  have hsame := (getBlockScope_eq hscope').symm.trans hscope
  cases hsame
  by_cases hloop : scope.opcode = .loop
  · have hnone : ¬ scope.type.args.length ≠ 0 := by rw [hargs hloop]; decide
    rw [if_pos hloop, if_neg hnone] at h
    rcases bind_ok h with ⟨o₁, hcopy, h⟩
    rcases bind_ok h with ⟨o₂, hpop, h⟩
    rcases bind_ok h with ⟨o₃, hemit, h⟩
    cases h
    exact .inl ⟨hloop, o₁, o₂, o₃, hcopy, hpop, hemit, rfl⟩
  · rw [if_neg hloop] at h
    by_cases hresult : scope.type.rets.length ≠ 0 ∨ scope.depth = 0
    · rw [if_pos hresult] at h
      rcases bind_ok h with ⟨o₁, hemit, h⟩
      rcases bind_ok h with ⟨o₂, hpop, h⟩
      rcases bind_ok h with ⟨o₃, hbranch, h⟩
      cases h
      exact .inr (.inl ⟨hloop, hresult, o₁, o₂, o₃, hemit, hpop, hbranch, rfl⟩)
    · rw [if_neg hresult] at h
      rcases bind_ok h with ⟨o₁, hemit, h⟩
      rcases bind_ok h with ⟨o₂, hpop, h⟩
      cases h
      exact .inr (.inr ⟨hloop, hresult, o₁, o₂, hemit, hpop, rfl⟩)

theorem Good.compileBrIf (h : Good fn active o) (ho : o.compileBrIf depth = .ok o') :
    Kept fn active 0 o o' := by
  obtain ⟨scope, hscope⟩ : ∃ scope, o.scopes[depth]? = some scope := by
    rcases bind_ok ho with ⟨scope, hscope, -⟩
    exact ⟨scope, getBlockScope_eq hscope⟩
  have hmem := List.mem_of_getElem? hscope
  have hargs : scope.opcode = .loop → scope.type.args = [] := fun hloop =>
    (h.scope_mvp hmem (.inl (by rw [hloop]; decide))).args
  rcases compileBrIf_cases ho hscope hargs with ⟨-, o₁, o₂, o₃, hcopy, hpop, hemit, rfl⟩ |
    ⟨-, -, o₁, o₂, o₃, hemit, hpop, hbranch, rfl⟩ | ⟨-, -, o₁, o₂, hemit, hpop, rfl⟩
  · have hkept := (h.copyStackTopToRegister hcopy).1
    have hpopped := hkept.good.pop hkept.room (popType_eq hpop)
    have hop := hpopped.good.emitOp hemit
    exact (((hkept.trans hpopped).trans hop).trans (hop.good.emit hop.room)).mono (Nat.zero_le _)
  · have hop := h.emitOp hemit
    have hpopped := (hop.good.emitSlotNumOfStackTopAndPop (n := 0) hop.room hpop).1
    have hreserved := hpopped.good.reserve
    have hword := hpopped.good.emit (w := .patch) hpopped.room
    have hsame : (o₂.emit .patch).scopes[depth]? = some scope := by
      rw [(emitted_emit _).scopes, (emitSlotNumOfStackTopAndPop_scopes hpop).2,
        (emitted_emitOp hemit).scopes]
      exact hscope
    have hbranched := hword.good.compileForwardBranch hsame hbranch
    refine (((hop.trans hpopped).trans hword).trans hbranched).patch
      (hreserved.of_ext hbranched.ext) ?_
    exact (hop.trans hpopped).ext.writes.word_none word_getPC
  · have hop := h.emitOp hemit
    have hpopped := (hop.good.emitSlotNumOfStackTopAndPop (n := 0) hop.room hpop).1
    refine ((hop.trans hpopped).trans (hpopped.good.emitPatchingBranchPointer hpopped.room ?_)).mono
      (Nat.zero_le _)
    rw [(emitSlotNumOfStackTopAndPop_scopes hpop).2, (emitted_emitOp hemit).scopes]
    exact (List.getElem?_eq_some_iff.mp hscope).1

/-! ## Tables of branches -/

theorem Writes.mono {active' : List Nat} (h : Writes active o o') (hsub : active' ⊆ active) :
    Writes active' o o' := ⟨h.words, fun other hmem => h.others other (hsub hmem)⟩

theorem Ext.mono {active' : List Nat} (h : Ext active o o') (hsub : active' ⊆ active) :
    Ext active' o o' :=
  ⟨h.writes.mono hsub, h.block, h.outer, h.entries, h.numArgsAndLocals, h.stackFirstDynamicIndex,
    h.slotFirstConstIndex, h.slotFirstDynamicIndex, h.maxStackSlots,
    h.constants⟩

/-- A page of its own, with the page before in use. -/
theorem Good.acquire (h : Good fn active o) (ho : o.acquireCompilationCodePage = .ok o') :
    Kept fn (o.page :: active) 4 o o' ∧ Emitted o o' := by
  rcases acquireCompilationCodePage_writable ho h.room.kept with ⟨hroom, hwrites⟩
  have hemitted : Emitted o o' := acquireCompilationCodePage_eq ho
  exact ⟨h.of_emit hemitted hroom hwrites, hemitted⟩

/-- The page before again, where nothing was written meanwhile. -/
theorem Kept.release {page : Nat} (h : Kept fn (page :: active) n o o')
    (hroom : (o.rt.pages page).lineIndex + room + 2 ≤ (o.rt.pages page).numLines) :
    Kept fn active room o (o'.releaseCompilationCodePage page) := by
  have hlines := h.ext.writes.others page (List.mem_cons_self ..)
  have hroom' : Writable active room (o'.releaseCompilationCodePage page) := by
    refine h.room.release ?_
    rw [hlines.1, hlines.2]
    exact hroom
  have hreleased : Kept fn active room o' (o'.releaseCompilationCodePage page) :=
    h.good.of_emit rfl hroom' writes_release
  exact ⟨(h.ext.mono (List.subset_cons_self ..)).trans hreleased.ext, hreleased.good,
    hreleased.room⟩

theorem compileBranchTarget_cases {target : Nat} (h : o.compileBranchTarget target = .ok o')
    (hscope : o.scopes[target]? = some scope) : ∃ o₁ o₂, o.acquireCompilationCodePage = .ok o₁ ∧
      (scope.opcode = .loop ∧ (∃ o₃ o₄, o₁.resolveBlockResults scope true = .ok o₃ ∧
          o₃.emitOp .continueLoop = .ok o₄ ∧ o₂ = o₄.emit (.pc scope.pc)) ∨
        scope.opcode ≠ .loop ∧ o₁.compileForwardBranch target scope = .ok o₂) ∧
      o' = (o₂.releaseCompilationCodePage o.page).emit (.pc o₁.getPC) := by
  rcases bind_ok h with ⟨scope', hscope', h⟩
  have hsame := (getBlockScope_eq hscope').symm.trans hscope
  cases hsame
  rcases bind_ok h with ⟨o₁, hacquire, h⟩
  refine ⟨o₁, ?_⟩
  by_cases hloop : scope.opcode = .loop
  · simp only [if_pos hloop] at h
    rcases bind_ok h with ⟨o₃, hresolve, h⟩
    rcases bind_ok h with ⟨o₄, hemit, h⟩
    cases h
    exact ⟨_, hacquire, .inl ⟨hloop, o₃, o₄, hresolve, hemit, rfl⟩, rfl⟩
  · simp only [if_neg hloop] at h
    rcases bind_ok h with ⟨o₂, hbranch, h⟩
    cases h
    exact ⟨o₂, hacquire, .inr ⟨hloop, hbranch⟩, rfl⟩

/-- The code of a target goes to a page of its own, and its place to the table. -/
theorem Good.compileBranchTarget {target : Nat} (h : Good fn active o)
    (hroom : Writable active (room + 1) o) (ho : o.compileBranchTarget target = .ok o') :
    Kept fn active room o o' := by
  obtain ⟨scope, hscope⟩ : ∃ scope, o.scopes[target]? = some scope := by
    rcases bind_ok ho with ⟨scope, hscope, -⟩
    exact ⟨scope, getBlockScope_eq hscope⟩
  rcases compileBranchTarget_cases ho hscope with ⟨o₁, o₂, hacquire, hcase, rfl⟩
  rcases h.acquire hacquire with ⟨hown, hemitted⟩
  have hcode : Kept fn (o.page :: active) 0 o₁ o₂ := by
    rcases hcase with ⟨hloop, o₃, o₄, hresolve, hemit, rfl⟩ | ⟨-, hbranch⟩
    · have hmvp := h.scope_mvp (List.mem_of_getElem? hscope) (.inl (by rw [hloop]; decide))
      have hkept := (hown.good.resolveBlockResults hmvp hresolve).1
      have hop := hkept.good.emitOp hemit
      exact ((hkept.trans hop).trans (hop.good.emit hop.room)).mono (Nat.zero_le _)
    · exact hown.good.compileForwardBranch (hemitted.scopes ▸ hscope) hbranch
  have hreleased := (hown.trans hcode).release hroom.room
  exact hreleased.trans (hreleased.good.emit hreleased.room)

theorem Good.compileBranchTargets {targets : List Nat} (h : Good fn active o)
    (hroom : Writable active (room + targets.length) o)
    (ho : targets.foldlM M3Compilation.compileBranchTarget o = .ok o') :
    Kept fn active room o o' := by
  induction targets generalizing o with
  | nil =>
    cases ho
    exact .refl h hroom
  | cons target targets ih =>
    rw [List.foldlM_cons] at ho
    rcases bind_ok ho with ⟨o₁, hstep, hrest⟩
    have hkept : Kept fn active (room + targets.length) o o₁ :=
      h.compileBranchTarget hroom hstep
    exact hkept.trans (ih hkept.good hkept.room hrest)

/-- With lines enough there is no bridge before an operation. -/
theorem emitOp_of_room {op : M3Op} (h : o.emitOp op = .ok o')
    (hroom : Writable active (n + 6) o) : o' = o.emit (.op op) := by
  rcases emitOp_eq h with ⟨o₁, ho₁, rfl⟩
  have hlines := hroom.room
  rw [ensureCodePageNumLines, M3CodePages.ensureCodePageNumLines_of_room
    (by rw [d_m3CodePageFreeLinesThreshold]; omega)] at ho₁
  cases ho₁
  rfl

theorem compileBrTable_cases {targets : List Nat} {default : Nat}
    (h : o.compileBrTable targets default = .ok o') :
    ∃ o₁ o₂ o₃ o₄ o₅, o.preserveRegisterIfOccupied = .ok o₁ ∧ o₁.pop = .ok o₂ ∧
      o₂.ensureCodePageNumLines (targets.length + 4) = .ok o₃ ∧
      o₃.emitOp .branchTable = .ok o₄ ∧
      (targets ++ [default]).foldlM compileBranchTarget
        ((o₄.emit (.slot o₁.getStackTopSlotNumber)).emit
          (.word32 (BitVec.ofNat 32 targets.length))) = .ok o₅ ∧
      o₅.setStackPolymorphic = .ok o' := by
  rcases bind_ok h with ⟨o₁, hpreserve, h⟩
  rcases bind_ok h with ⟨o₂, hpop, h⟩
  rcases bind_ok h with ⟨o₃, hensure, h⟩
  rcases bind_ok h with ⟨o₄, hemit, h⟩
  rcases bind_ok h with ⟨o₅, htargets, hpoly⟩
  exact ⟨o₁, o₂, o₃, o₄, o₅, hpreserve, hpop, hensure, hemit, htargets, hpoly⟩

/-- The lines of a table are kept before its first one is written. -/
theorem Good.emitTableOp {op : M3Op} {o₁ : M3Compilation} (h : Good fn active o)
    (hensure : o.ensureCodePageNumLines (n + 4) = .ok o₁) (ho : o₁.emitOp op = .ok o') :
    Kept fn active (n + 3) o o' := by
  have hkept := h.ensureCodePageNumLines hensure
  have hop := hkept.good.emitOp ho
  refine hkept.trans ⟨hop.ext, hop.good, ?_⟩
  by_cases hsmall : n ≤ 2
  · exact hop.room.mono (by omega)
  · obtain ⟨m, rfl⟩ : ∃ m, n = m + 2 := ⟨n - 2, by omega⟩
    rw [emitOp_of_room ho hkept.room]
    exact hkept.room.emit

theorem Good.compileBrTable {targets : List Nat} {default : Nat} (h : Good fn active o)
    (ho : o.compileBrTable targets default = .ok o') : Kept fn active 0 o o' := by
  rcases compileBrTable_cases ho with
    ⟨o₁, o₂, o₃, o₄, o₅, hpreserve, hpop, hensure, hemit, htargets, hpoly⟩
  have hkept := (h.preserveRegisterIfOccupied hpreserve).1
  have hpopped := hkept.good.pop hkept.room hpop
  have hop := hpopped.good.emitTableOp hensure hemit
  have hword := hop.good.emit (w := .slot o₁.getStackTopSlotNumber) hop.room
  have hword' := hword.good.emit (w := .word32 (BitVec.ofNat 32 targets.length)) hword.room
  have hroom := hword'.room.mono (m := 0 + (targets ++ [default]).length) (by
    rw [List.length_append, List.length_singleton]
    omega)
  have htable := hword'.good.compileBranchTargets hroom htargets
  exact (((((hkept.trans hpopped).trans hop).trans hword).trans hword').trans htable).trans
    (htable.good.setStackPolymorphic htable.room hpoly)

end WebAssemblyRuntime.Wasm3.M3Compilation
