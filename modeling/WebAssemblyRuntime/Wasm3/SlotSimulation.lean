import WebAssemblyRuntime.Wasm3.Simulation

/-!
# SlotSimulation — copies between slots and the register

The code that only moves values: out of the register, out of the slot of a local that will be
written to, or to where a branch or a call expects them.  The values of the WebAssembly stack do
not change by it.
-/

namespace WebAssemblyRuntime.Wasm3

open M3Compilation

variable {L : Activation} {targets : Nat → PC} {fn : M3FuncType} {active : List Nat}
  {o o' o'' : M3Compilation} {ρ ρ' : Nat → Value} {f f' : Frame} {st st' st'' : M3State}
  {pc pc' pc'' : PC} {n n' i k slot : Nat} {v : Value} {Φ : M3Ret → M3State → Prop}

/-! ## One entry that changes -/

theorem M3Compilation.SameShape.held_iff (h : SameShape o o') (i : Nat) : o'.Held i ↔ o.Held i := by
  rw [Held, Held, h.stackFirstDynamicIndex, h.scopes]

/-- The entry `k` has the value `v` now, and the others have theirs as before. -/
theorem HoldsBelow.put (h : HoldsBelow L o n ρ st) (hshape : SameShape o o')
    (hothers : ∀ i < n', i ≠ k → i < n ∧ o'.wasmStack i = o.wasmStack i ∧
      o'.typeStack i = o.typeStack i)
    (htype : o'.typeStack k = v.type.valueType)
    (hkeeps : ∀ i < n, i ≠ k → o.Held i → Located L.sp st' (o.wasmStack i) (ρ i))
    (hat : Located L.sp st' (o'.wasmStack k) v)
    (hconstants : ∀ m < L.numConstants,
      st'.slots (L.sp + (o.slotFirstConstIndex + m)) = L.constants m) :
    HoldsBelow L o' n' (Function.update ρ k v) st' := by
  refine ⟨fun i hi hheld => ?_, fun i hi hheld => ?_, ?_⟩
  · by_cases hik : i = k
    · rw [hik, Function.update_self]
      exact htype
    · rcases hothers i hi hik with ⟨hlt, -, hsame⟩
      rw [Function.update_of_ne hik, hsame]
      exact h.typed i hlt ((hshape.held_iff i).mp hheld)
  · by_cases hik : i = k
    · rw [hik, Function.update_self]
      exact hat
    · rcases hothers i hi hik with ⟨hlt, hsame, -⟩
      rw [Function.update_of_ne hik, hsame]
      exact hkeeps i hlt hik ((hshape.held_iff i).mp hheld)
  · rw [hshape.slotFirstConstIndex]
    exact hconstants

/-- The value is written to a slot that holds no other. -/
theorem HoldsBelow.place (h : HoldsBelow L o n ρ st) (hshape : SameShape o o')
    (hothers : ∀ i < n', i ≠ k → i < n ∧ o'.wasmStack i = o.wasmStack i ∧
      o'.typeStack i = o.typeStack i)
    (hslot : o'.wasmStack k = slot) (hne : slot ≠ d_m3Reg0SlotAlias)
    (htype : o'.typeStack k = v.type.valueType)
    (hapart : ∀ i < n, i ≠ k → o.Held i → o.Apart i slot v.type.numSlots)
    (hspares : SparesConstants L o slot v.type.numSlots) :
    HoldsBelow L o' n' (Function.update ρ k v)
      { st with slots := writeSlot v.type st.slots (L.sp + slot) v.bits } := by
  refine h.put hshape hothers htype (fun i hi hik hheld => ?_) ?_ (h.constants_write v.bits hspares)
  · exact h.located_write v.bits hi hheld (hapart i hi hik hheld)
  · rw [hslot]
    exact located_writeSlot hne

theorem valueType_injective {t t' : IntType} (h : t.valueType = t'.valueType) : t = t' := by
  cases t <;> cases t' <;> first | rfl | cases h

/-- Two values of one type in one place are the same. -/
theorem Located.eq {sp : Nat} {w : Value} (h : Located sp st slot v) (h' : Located sp st slot w)
    (htype : v.type = w.type) : v = w := by
  rcases v with ⟨t, x⟩
  rcases w with ⟨t', y⟩
  cases (htype : t = t')
  by_cases hat : slot = d_m3Reg0SlotAlias
  · rw [hat, located_register] at h h'
    exact congrArg (Value.mk t) (h.symm.trans h')
  · rw [located_slot hat] at h h'
    exact congrArg (Value.mk t) (h.symm.trans h')

/-! ## Copies -/

theorem setSetOps_valueType (t : IntType) : setSetOps t.valueType = .setSlot t := by cases t <;> rfl

theorem setRegisterOps_valueType (t : IntType) : setRegisterOps t.valueType = .setRegister t := by
  cases t <;> rfl

section

variable (h : Good fn active o)
include h

theorem M3Compilation.Good.isStackIndexInRegister_iff (hheld : o.Held i) (hi : i < o.stackIndex) :
    o.isStackIndexInRegister i = true ↔ o.wasmStack i = d_m3Reg0SlotAlias := by
  have halias := slots_lt_alias
  have hpos := getTypeNumSlots_pos (o.typeStack i)
  rw [isStackIndexInRegister_natCast, decide_eq_true hi, Bool.true_and, decide_eq_true_iff]
  rcases h.held_lt hheld hi with hat | hend
  · rw [hat]
    exact iff_of_true (Nat.le_refl _) rfl
  · exact iff_of_false (by omega) (by omega)

/-- `CopyStackIndexToSlot` writes the value of the entry. -/
theorem M3Compilation.Good.copyStackIndexToSlot_reaches {dest : Nat} (hi : i < o.stackIndex)
    (hheld : o.Held i) (htype : o.typeStack i = v.type.valueType)
    (hat : Located L.sp st (o.wasmStack i) v) (ho : o.copyStackIndexToSlot dest i = .ok o')
    (hshows : Shows L.image.code o'.rt) :
    L.Reaches o.getPC st o'.getPC
      { st with slots := writeSlot v.type st.slots (L.sp + dest) v.bits } := by
  have hiff := h.isStackIndexInRegister_iff hheld hi
  rcases copyStackIndexToSlot_cases ho with ⟨hin, o₁, hemit, rfl⟩ | ⟨hin, o₁, hemit, rfl⟩
  · rw [hiff.mp hin, located_register] at hat
    rw [getStackTypeFromBottom_of_lt hi, htype, setSetOps_valueType] at hemit
    have hop := h.emitOp hemit
    rcases lines_emit [.slot dest] (hop.room.mono (by simp)) hshows (by simp) with
      ⟨⟨hdest, -⟩, hshows'⟩
    refine L.reaches_emitOp h.room hemit hshows' ?_
    rw [getPC_emit]
    simp only [stepOp, slotAt, hdest, Option.bind_eq_bind, Option.bind_some]
    rw [show st.r0.setWidth v.type.width = v.bits from hat]
  · have hne : o.wasmStack i ≠ d_m3Reg0SlotAlias := fun heq => by
      rw [hiff.mpr heq] at hin
      cases hin
    rw [located_slot hne] at hat
    rw [getStackTypeFromBottom_of_lt hi, htype, widthOf_valueType] at hemit
    rw [getSlotForStackIndex_of_lt hi] at hshows ⊢
    have hop := h.emitOp hemit
    rcases lines_emit [.slot dest, .slot (o.wasmStack i)] (hop.room.mono (by simp)) hshows
      (by simp) with ⟨⟨hdest, hsrc, -⟩, hshows'⟩
    refine L.reaches_emitOp h.room hemit hshows' ?_
    rw [getPC_emit, getPC_emit]
    simp only [stepOp, slotAt, hdest, hsrc, Option.bind_eq_bind, Option.bind_some, hat]

end

/-! ## Moves -/

/-- The code between only moves values: those of the stack and the store stay. -/
def Moves (L : Activation) (o o' : M3Compilation) (ρ : Nat → Value) (st : M3State) : Prop :=
  ∃ st', L.Reaches o.getPC st o'.getPC st' ∧ HoldsBelow L o' o'.stackIndex ρ st' ∧
    st'.store = st.store

theorem Moves.refl (h : HoldsBelow L o o.stackIndex ρ st) : Moves L o o ρ st :=
  ⟨st, .refl _ _, h, rfl⟩

theorem preserveRegister_block (h : o.preserveRegisterIfOccupied = .ok o') : o'.block = o.block := by
  rcases preserveRegister_cases h with ⟨-, rfl⟩ | ⟨-, slot, o₁, o₂, halloc, hemit, rfl⟩
  · rfl
  · rw [M3Compilation.emit, emitted_emitOp hemit, (allocateSlots_eq halloc).1, markSlots_type]
    rfl

/-- `PreserveRegisterIfOccupied`. -/
theorem M3Compilation.Good.preserveRegisterIfOccupied_moves (h : Good fn active o)
    (hlinked : Linked L targets o')
    (hholds : HoldsBelow L o o.stackIndex ρ st) (ho : o.preserveRegisterIfOccupied = .ok o') :
    Moves L o o' ρ st := by
  have hlinked₀ := hlinked.of_ext (h.preserveRegisterIfOccupied ho).1.ext
  rcases preserveRegister_cases ho with ⟨-, rfl⟩ | ⟨hreg, slot, o₁, o₂, halloc, hemit, rfl⟩
  · exact .refl hholds
  · rcases h.slots.register hreg with ⟨hlow, hhigh, hat⟩
    obtain ⟨k, hk⟩ : ∃ k, o.regStackIndexPlusOne = k + 1 := ⟨o.regStackIndexPlusOne - 1, by omega⟩
    simp only [hk, Nat.add_sub_cancel] at halloc hemit hat
    have hlt : k < o.stackIndex := by omega
    have hheld : o.Held k := .inr (h.frame.open_of_le (by omega))
    have htype := hholds.typed k hlt hheld
    have hcarries := hholds.located k hlt hheld
    rw [hat, located_register] at hcarries
    rw [getStackTypeFromBottom_of_lt hlt, htype] at halloc
    rw [getStackTypeFromBottom_of_lt hlt, htype, setSetOps_valueType] at hemit
    rcases allocateSlots_spec (IntType.valueType_isInt _).small halloc with
      ⟨heq, hslot, hend, hfree⟩
    rw [numSlots_valueType] at hend hfree
    have halias := slots_lt_alias
    have hpos := (ρ k).type.numSlots_pos
    obtain ⟨moved, hmoved⟩ : ∃ moved, moved = o₁.setStackSlot k slot := ⟨_, rfl⟩
    rw [← hmoved] at hemit
    rw [heq, markSlots_type] at hmoved
    have hshape : SameShape o moved := by
      rw [hmoved]
      exact ⟨rfl, rfl, rfl, rfl, rfl, rfl, rfl, rfl, Nat.le_max_left _ _, max_le_max_right _⟩
    have hplaced : HoldsBelow L moved o.stackIndex (Function.update ρ k (ρ k))
        { st with slots := writeSlot (ρ k).type st.slots (L.sp + slot) (ρ k).bits } := by
      refine hholds.place hshape (fun i hi hik => ⟨hi, ?_, ?_⟩) ?_ (by omega) ?_
        (fun i hi _ hheld => h.apart_of_free hslot hend hfree hpos hi hheld)
        (hlinked₀.spares_dynamic hslot)
      · rw [hmoved]
        exact Function.update_of_ne hik ..
      · rw [hmoved]
        rfl
      · rw [hmoved]
        exact Function.update_self ..
      · rw [hmoved]
        exact htype
    rw [Function.update_eq_self] at hplaced
    have hpc : moved.getPC = o.getPC := by rw [getPC, getPC, hshape.rt, hshape.page]
    have hroom : Writable active 0 moved := h.room.of_eq hshape.rt hshape.page
    rcases lines_emit [.slot slot] ((emitOp_writable hemit hroom).1.mono (by simp)) hlinked.shows
      (by simp) with ⟨⟨hdest, -⟩, hshows⟩
    have hbits : st.r0.setWidth (ρ k).type.width = (ρ k).bits := hcarries
    refine ⟨{ st with slots := writeSlot (ρ k).type st.slots (L.sp + slot) (ρ k).bits }, ?_, ?_, rfl⟩
    · rw [← hpc]
      refine L.reaches_emitOp hroom hemit hshows ?_
      rw [getPC_emit]
      simp only [stepOp, slotAt, hdest, Option.bind_eq_bind, Option.bind_some, hbits]
    · have hemitted : Emitted moved (o₂.emit (.slot slot)) :=
        (emitted_emitOp hemit).trans (emitted_emit _)
      have hindex : (o₂.emit (.slot slot)).stackIndex = o.stackIndex := by
        rw [hemitted, hmoved]
        rfl
      rw [hindex]
      exact hplaced.of_emitted hemitted

/-! ## Locals that will be written to -/

/-- The value of the local, copied to the slot that the references to it were moved to. -/
theorem M3Compilation.References.holds {room j p : Nat}
    (hrefs : References fn active room o j o.stackIndex p o') (h : Good fn active o)
    (hj : j < o.stackFirstDynamicIndex) (hp : p ≠ o.wasmStack j) (hlinked : Linked L targets o)
    (hholds : HoldsBelow L o o.stackIndex ρ st) :
    HoldsBelow L o' o'.stackIndex ρ
      { st with slots := writeSlot (ρ j).type st.slots (L.sp + p) (ρ j).bits } := by
  rcases hrefs.referenced hp with ⟨hlow, hend, hfree, -⟩
  have hbase := h.frame.base_le
  have hheight := h.slots.height
  have hlt : j < o.stackIndex := by omega
  have htype := hholds.typed j hlt (.inl hj)
  rw [htype, numSlots_valueType] at hend hfree
  have hpos := (ρ j).type.numSlots_pos
  have halias := slots_lt_alias
  have hapart : ∀ i < o.stackIndex, o.Held i → o.Apart i p (ρ j).type.numSlots :=
    fun i hi hheld => h.apart_of_free hlow hend hfree hpos hi hheld
  have hspares : SparesConstants L o p (ρ j).type.numSlots := hlinked.spares_dynamic hlow
  rw [hrefs.index]
  refine ⟨fun i hi hheld => ?_, fun i hi hheld => ?_, ?_⟩
  · rw [hrefs.types]
    exact hholds.typed i hi ((hrefs.shape.held_iff i).mp hheld)
  · have hheld' := (hrefs.shape.held_iff i).mp hheld
    by_cases hblock : i < o.block.blockStackIndex
    · rw [(hrefs.kept.ext.entries i hblock).1]
      exact hholds.located_write _ hi hheld' (hapart i hi hheld')
    · by_cases hat : o.wasmStack i = o.wasmStack j
      · -- a reference: it has the value of the local
        have hsame := (h.reference hj (by omega) hi hat).2
        have hvalue : ρ i = ρ j := by
          refine (hat ▸ hholds.located i hi hheld').eq (hholds.located j hlt (.inl hj)) ?_
          rw [hholds.typed i hi hheld', htype] at hsame
          exact valueType_injective hsame
        rw [hrefs.moved i (by omega) hi hat, hvalue]
        exact located_writeSlot (by omega)
      · rw [hrefs.others i (.inl hat)]
        exact hholds.located_write _ hi hheld' (hapart i hi hheld')
  · rw [hrefs.shape.slotFirstConstIndex]
    exact hholds.constants_write _ hspares

/-! ## The top of the stack -/

theorem getStackTypeFromTop_eq (hk : o.stackIndex = k + 1 + n) (hbase : o.stackFirstDynamicIndex ≤ k) :
    o.getStackTypeFromTop n = o.typeStack k := by
  have hindex : o.stackIndex - (n + 1) = k := by omega
  rw [getStackTypeFromTop, if_pos (by omega), hindex]
  exact if_pos hbase

theorem getStackTopType_eq (hk : o.stackIndex = k + 1) (hbase : o.stackFirstDynamicIndex ≤ k) :
    o.getStackTopType = o.typeStack k := getStackTypeFromTop_eq hk hbase

theorem getStackTopSlotNumber_eq (hk : o.stackIndex = k + 1) :
    o.getStackTopSlotNumber = o.wasmStack k := by
  have hindex : o.getStackTopIndex = (k : Int) := by
    rw [getStackTopIndex]
    omega
  rw [getStackTopSlotNumber, hindex, if_pos (by omega), Int.toNat_natCast]

theorem M3Compilation.Good.isStackTopMinusInRegister_iff (h : Good fn active o)
    (hk : o.stackIndex = k + 1 + n) (hheld : o.Held k) :
    o.isStackTopMinusInRegister n = true ↔ o.wasmStack k = d_m3Reg0SlotAlias := by
  have hlt : k < o.stackIndex := by omega
  rw [isStackTopMinusInRegister_eq hk, ← h.isStackIndexInRegister_iff hheld hlt,
    isStackIndexInRegister_natCast, decide_eq_true hlt, Bool.true_and]

theorem M3Compilation.Good.isStackTopInRegister_iff (h : Good fn active o)
    (hk : o.stackIndex = k + 1) (hheld : o.Held k) :
    o.isStackTopInRegister = true ↔ o.wasmStack k = d_m3Reg0SlotAlias :=
  h.isStackTopMinusInRegister_iff hk hheld

/-- With the register free, no value is in it. -/
theorem M3Compilation.Good.not_register (h : Good fn active o)
    (hreach : o.block.isPolymorphic = false) (hreg : o.regStackIndexPlusOne = 0)
    (hi : i < o.stackIndex) (hheld : o.Held i) : o.wasmStack i ≠ d_m3Reg0SlotAlias := by
  intro hat
  have heq := h.alias_eq hreach hheld hi hat
  omega

/-- `CopyStackTopToRegister`: the value is in the register as well, at the least. -/
theorem M3Compilation.Good.copyStackTopToRegister_moves (h : Good fn active o)
    (hreach : o.block.isPolymorphic = false) (hlinked : Linked L targets o')
    (hholds : HoldsBelow L o o.stackIndex ρ st) (hk : o.stackIndex = k + 1)
    (hblock : o.block.blockStackIndex ≤ k) (ho : o.copyStackTopToRegister = .ok o') :
    ∃ st', L.Reaches o.getPC st o'.getPC st' ∧ HoldsBelow L o' o'.stackIndex ρ st' ∧
      st'.store = st.store ∧ Carries st'.r0 (ρ k) := by
  have hlt : k < o.stackIndex := by omega
  have hheld : o.Held k := .inr (h.frame.open_of_le hblock)
  have hbase := h.frame.base_le
  have htype := hholds.typed k hlt hheld
  rcases copyStackTopToRegister_cases ho with ⟨hin, rfl⟩ | ⟨hin, o₁, o₂, hpreserve, hemit, rfl⟩
  · have hat := hholds.located k hlt hheld
    rw [(h.isStackTopInRegister_iff hk hheld).mp hin, located_register] at hat
    exact ⟨st, .refl _ _, hholds, rfl, hat⟩
  · rcases h.preserveRegisterIfOccupied hpreserve with ⟨hkept, hreg, hindex, htypes⟩
    have hop := hkept.good.emitOp hemit
    have hword := hop.good.emit (w := .slot o₂.getStackTopSlotNumber) hop.room
    have hlinked₁ := hlinked.of_ext (hop.trans hword).ext
    rcases h.preserveRegisterIfOccupied_moves hlinked₁ hholds hpreserve with
      ⟨st₁, hreaches, hholds₁, hstore⟩
    have hk₁ : o₁.stackIndex = k + 1 := hindex.trans hk
    have hk₂ : o₂.stackIndex = k + 1 := by
      rw [emitted_emitOp hemit]
      exact hk₁
    have hlt₁ : k < o₁.stackIndex := by omega
    have hheld₁ : o₁.Held k := (hkept.ext.held_iff k).mpr hheld
    have hreach₁ : o₁.block.isPolymorphic = false := by
      rw [preserveRegister_block hpreserve]
      exact hreach
    have hne := hkept.good.not_register hreach₁ hreg hlt₁ hheld₁
    have hat := hholds₁.located k hlt₁ hheld₁
    rw [located_slot hne] at hat
    rw [getStackTopType_eq hk (Nat.le_trans hbase hblock), htype, setRegisterOps_valueType] at hemit
    rcases lines_emit [.slot o₂.getStackTopSlotNumber] (hop.room.mono (by simp)) hlinked.shows
      (by simp) with ⟨⟨hsrc, -⟩, hshows⟩
    have hemitted : Emitted o₁ (o₂.emit (.slot o₂.getStackTopSlotNumber)) :=
      (emitted_emitOp hemit).trans (emitted_emit _)
    have hslot : o₂.getStackTopSlotNumber = o₁.wasmStack k := by
      rw [getStackTopSlotNumber_eq hk₂, emitted_emitOp hemit]
    rw [hslot] at hsrc
    refine ⟨{ st₁ with r0 := toReg true (ρ k).bits }, hreaches.trans ?_, ?_, hstore,
      carries_toReg true _⟩
    · refine L.reaches_emitOp hkept.room hemit hshows ?_
      rw [getPC_emit]
      simp only [stepOp, slotAt, hsrc, Option.bind_eq_bind, Option.bind_some, hat]
    · have hset : HoldsBelow L o₁ o₁.stackIndex ρ { st₁ with r0 := toReg true (ρ k).bits } :=
        hholds₁.setRegister (fun i hi hheld => hkept.good.not_register hreach₁ hreg hi hheld) rfl
      have hset' := hset.of_emitted hemitted
      rw [hemitted] at hset' ⊢
      exact hset'

end WebAssemblyRuntime.Wasm3
