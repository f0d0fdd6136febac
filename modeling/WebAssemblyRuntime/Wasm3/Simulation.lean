import WebAssemblyRuntime.Wasm3.BlockKeeps
import WebAssemblyRuntime.Wasm3.Operators

/-!
# Simulation — compiled code against the state of the compiler

While compiled code runs, the compiler's stack at the same point of the code says where each value
of the WebAssembly stack is: in the slots of its entry, or in the register.  `Matches` is this
relation; the code of an instruction leads from a state that matches before it to one that matches
after it.
-/

namespace WebAssemblyRuntime.Wasm3

open M3Compilation

/-- A call of a compiled function: where its frame begins, how deep the call is, how far the frames of
the functions it calls may be, and the constants at the end of its table. -/
structure Activation where
  image : CodeImage
  sp : Nat
  depth : Nat
  frame : Nat
  constants : Nat → BitVec 32
  numConstants : Nat

namespace Activation

variable (L : Activation)

/-- The code at `pc`, run in the frame, returns with `Φ`. -/
def Ends (pc : PC) (st : M3State) (Φ : M3Ret → M3State → Prop) : Prop :=
  Wasm3.Ends L.image pc L.sp L.depth st Φ

/-- Whatever the code at `pc'` comes to, the code at `pc` comes to as well. -/
def Reaches (pc : PC) (st : M3State) (pc' : PC) (st' : M3State) : Prop :=
  ∀ Φ, L.Ends pc' st' Φ → L.Ends pc st Φ

end Activation

/-- A value in a slot of the frame, or in the register. -/
def Located (sp : Nat) (st : M3State) (slot : Nat) (v : Value) : Prop :=
  if slot = d_m3Reg0SlotAlias then Carries st.r0 v
  else readSlot v.type st.slots (sp + slot) = v.bits

namespace M3Compilation

/-- A local, or an entry that holds a value. -/
def Held (o : M3Compilation) (i : Nat) : Prop := i < o.stackFirstDynamicIndex ∨ Open o.scopes i

end M3Compilation

/-- The values of the first `n` entries are where the compiler has them, and the constants in their
slots. -/
structure HoldsBelow (L : Activation) (o : M3Compilation) (n : Nat) (ρ : Nat → Value)
    (st : M3State) : Prop where
  typed : ∀ i < n, o.Held i → o.typeStack i = (ρ i).type.valueType
  located : ∀ i < n, o.Held i → Located L.sp st (o.wasmStack i) (ρ i)
  constants : ∀ k < L.numConstants,
    st.slots (L.sp + (o.slotFirstConstIndex + k)) = L.constants k

/-- The values of the entries from `base` on and below `top`, the last one first. -/
def Stacked (ρ : Nat → Value) (base : Nat) : Nat → List Value → Prop
  | top, [] => top = base
  | top, v :: rest => ∃ k, top = k + 1 ∧ ρ k = v ∧ Stacked ρ base k rest

/-- The state of the machine, and that of the evaluator in the current block. -/
structure Matches (L : Activation) (o : M3Compilation) (ρ : Nat → Value) (f : Frame)
    (st : M3State) : Prop where
  holds : HoldsBelow L o o.stackIndex ρ st
  reachable : o.block.isPolymorphic = false
  stack : Stacked ρ o.block.blockStackIndex o.stackIndex f.stack
  locals : ∀ i, f.locals[i]? = if i < o.stackFirstDynamicIndex then some (ρ i) else none
  store : st.store = f.store

/-- The finished code has what was compiled so far, with the target of each branch filled in. -/
structure Linked (L : Activation) (targets : Nat → PC) (o : M3Compilation) : Prop where
  shows : Shows L.image.code o.rt
  constants : ∀ n, o.slotFirstConstIndex ≤ n → n < o.slotFirstDynamicIndex → o.m3Slots n ≠ 0 →
    n - o.slotFirstConstIndex < L.numConstants ∧
      L.constants (n - o.slotFirstConstIndex) = o.constants (n - o.slotFirstConstIndex)
  fits : o.slotFirstConstIndex + L.numConstants ≤ o.slotFirstDynamicIndex
  small : o.maxStackSlots + 2 ≤ L.frame
  /-- A branch out of the function is a return, which has no target. -/
  branches : ∀ depth scope, o.scopes[depth]? = some scope → scope.depth ≠ 0 →
    ∀ pc ∈ scope.patches, L.image.code pc = some (.pc (targets depth))

/-- The types that a branch to the scope takes from the stack. -/
def M3CompilationScope.label (c : M3CompilationScope) : List M3ValueType :=
  if c.opcode = .loop then c.type.args else c.type.rets

/-- At the target of a branch out of the scope `c`: what was below the scope, and its result where
the compiler keeps a place for it. -/
structure Arrives (L : Activation) (o : M3Compilation) (c : M3CompilationScope) (ρ : Nat → Value)
    (f : Frame) (st : M3State) : Prop where
  holds : HoldsBelow L o c.exitStackIndex ρ st
  typed : Typed f.stack c.label
  results : ∀ v ∈ f.stack, Located L.sp st (o.wasmStack c.exitStackIndex) v
  locals : ∀ i, f.locals[i]? = if i < o.stackFirstDynamicIndex then some (ρ i) else none
  store : st.store = f.store

/-- The results of a function, the last one first, from the start of its frame on. -/
def Returned (sp : Nat) (results : List Value) (st : M3State) : Prop :=
  ∀ i v, results.reverse[i]? = some v → readSlot v.type st.slots (sp + i * c_ioSlotCount) = v.bits

/-- Below the current block, the values of the stack are the same. -/
def SameBelow (o : M3Compilation) (ρ ρ' : Nat → Value) : Prop :=
  ∀ i, o.stackFirstDynamicIndex ≤ i → i < o.block.blockStackIndex → ρ' i = ρ i

/-- After each outcome of the code between `o` and `o'`, the machine comes to meet `Φ`. -/
def Accepts (L : Activation) (targets : Nat → PC) (o o' : M3Compilation) (ρ : Nat → Value)
    (Φ : M3Ret → M3State → Prop) : Outcome → Prop
  | .normal f => ∀ ρ' st, SameBelow o ρ ρ' → Matches L o' ρ' f st → L.Ends o'.getPC st Φ
  | .branch depth f => ∀ c, o.scopes[depth]? = some c →
      if c.depth = 0 then ∀ st, Returned L.sp f.stack st → st.store = f.store → Φ .done st
      else ∀ ρ' st, SameBelow o ρ ρ' → Arrives L o c ρ' f st →
        if c.opcode = .loop then Φ (.continueLoop c.pc) st else L.Ends (targets depth) st Φ
  | .ret results σ => ∀ st, Returned L.sp results st → st.store = σ → Φ .done st
  | .trap e σ => ∀ st, st.store = σ → Φ (.trap e) st

variable {L : Activation} {targets : Nat → PC} {fn : M3FuncType} {active : List Nat}
  {o o' o'' : M3Compilation} {ρ ρ' : Nat → Value} {f f' : Frame} {st st' st'' : M3State}
  {pc pc' pc'' : PC} {n i : Nat} {v : Value} {Φ : M3Ret → M3State → Prop}

/-! ## Runs -/

theorem Activation.Reaches.refl (pc : PC) (st : M3State) : L.Reaches pc st pc st := fun _ h => h

theorem Activation.Reaches.trans (h : L.Reaches pc st pc' st') (h' : L.Reaches pc' st' pc'' st'') :
    L.Reaches pc st pc'' st'' := fun Φ hends => h Φ (h' Φ hends)

theorem Activation.Reaches.next (h : step L.image L.sp pc st = some (.next pc' st')) :
    L.Reaches pc st pc' st' := fun _ hends => Ends.next h hends

theorem Linked.of_ext (h : Linked L targets o') (hext : Ext active o o') : Linked L targets o := by
  have hconst := hext.slotFirstConstIndex
  have hdynamic := hext.slotFirstDynamicIndex
  refine ⟨h.shows.of_writes hext.writes, fun n hlow hhigh hused => ?_, ?_,
    Nat.le_trans (Nat.add_le_add_right hext.maxStackSlots 2) h.small,
    fun depth scope hscope hdepth pc hpc => ?_⟩
  · rcases hext.constants n hlow hhigh hused with ⟨hused', heq⟩
    have hlinked := h.constants n (hconst ▸ hlow) (hdynamic ▸ hhigh) hused'
    rw [hconst] at hlinked
    exact ⟨hlinked.1, hlinked.2.trans heq⟩
  · have hfits := h.fits
    rw [hconst, hdynamic] at hfits
    exact hfits
  · rcases forall₂_getElem? hext.scopes hscope with ⟨scope', hscope', hrelated⟩
    rcases hrelated.patches with ⟨added, heq, -⟩
    have hdepth' : scope'.depth ≠ 0 := by
      rw [hrelated.same]
      exact hdepth
    refine h.branches depth scope' hscope' hdepth' pc ?_
    rw [heq]
    exact List.mem_append_right added hpc

/-! ## Emitted code -/

/-- An operation is reached over the bridge before it, if there is one. -/
theorem Activation.exists_op {op : M3Op} {room : Nat} (hroom : Writable active room o)
    (h : o.emitOp op = .ok o') (hshows : Shows L.image.code o'.rt) :
    ∃ pcOp, (∀ st, L.Reaches o.getPC st pcOp st) ∧ pcOp.next = o'.getPC ∧
      step L.image L.sp pcOp = stepOp L.image L.sp op o'.getPC := by
  rcases emitOp_eq h with ⟨o₁, ho₁, rfl⟩
  rcases ensureCodePageNumLines_writable ho₁ (hroom.mono (Nat.zero_le _)) with
    ⟨hroom₁, -, hbridged⟩
  have hcode : L.image.code o₁.getPC = some (.op op) :=
    Shows.emit hshows fun heq => by cases heq
  refine ⟨o₁.getPC, fun st Φ hends => ?_, getPC_emit.symm, ?_⟩
  · exact hbridged.ends (hshows.of_writes (hroom₁.writes_emit (w := .op op))) hends
  · funext st
    rw [step, hcode, getPC_emit]

theorem Activation.reaches_emitOp {op : M3Op} {room : Nat} (hroom : Writable active room o)
    (h : o.emitOp op = .ok o') (hshows : Shows L.image.code o'.rt)
    (hstep : stepOp L.image L.sp op o'.getPC st = some (.next pc' st')) :
    L.Reaches o.getPC st pc' st' := by
  rcases L.exists_op hroom h hshows with ⟨pcOp, hreaches, -, hop⟩
  exact (hreaches st).trans (.next (by rw [hop]; exact hstep))

/-- An operation that returns. -/
theorem Activation.ends_emitOp {op : M3Op} {room : Nat} {r : M3Ret} (hroom : Writable active room o)
    (h : o.emitOp op = .ok o') (hshows : Shows L.image.code o'.rt)
    (hstep : stepOp L.image L.sp op o'.getPC st = some (.finish r st')) (hΦ : Φ r st') :
    L.Ends o.getPC st Φ := by
  rcases L.exists_op hroom h hshows with ⟨pcOp, hreaches, -, hop⟩
  exact hreaches st Φ (Ends.finish (by rw [hop]; exact hstep) hΦ)

/-- The words from `pc` on. -/
def Lines (code : PC → Option CodeWord) : PC → List CodeWord → Prop
  | _, [] => True
  | pc, w :: ws => code pc = some w ∧ Lines code pc.next ws

/-- The line after the words. -/
def PC.after (pc : PC) (ws : List CodeWord) : PC := ws.foldl (fun pc _ => pc.next) pc

/-- The immediates of an operation. -/
theorem lines_emit {code : PC → Option CodeWord} (ws : List CodeWord)
    (hroom : Writable active ws.length o) (hshows : Shows code (ws.foldl M3Compilation.emit o).rt)
    (hws : ∀ w ∈ ws, w ≠ .patch) : Lines code o.getPC ws ∧ Shows code o.rt := by
  induction ws generalizing o with
  | nil => exact ⟨trivial, hshows⟩
  | cons w ws ih =>
    rcases ih hroom.emit hshows fun w hw => hws w (List.mem_cons_of_mem _ hw) with
      ⟨hlines, hshows'⟩
    rw [getPC_emit] at hlines
    exact ⟨⟨hshows'.emit (hws w (List.mem_cons_self ..)), hlines⟩,
      hshows'.of_writes hroom.writes_emit⟩

/-! ## The stack of values -/

theorem Stacked.le {base top : Nat} {stack : List Value} (h : Stacked ρ base top stack) :
    base ≤ top := by
  induction stack generalizing top with
  | nil => exact Nat.le_of_eq h.symm
  | cons v rest ih =>
    rcases h with ⟨k, rfl, -, hrest⟩
    exact Nat.le_succ_of_le (ih hrest)

theorem Stacked.congr {base top : Nat} {stack : List Value} (h : Stacked ρ base top stack)
    (hρ : ∀ i, base ≤ i → i < top → ρ' i = ρ i) : Stacked ρ' base top stack := by
  induction stack generalizing top with
  | nil => exact h
  | cons v rest ih =>
    rcases h with ⟨k, rfl, hv, hrest⟩
    refine ⟨k, rfl, (hρ k hrest.le (Nat.lt_succ_self k)).trans hv,
      ih hrest fun i hlow hhigh => hρ i hlow (Nat.lt_succ_of_lt hhigh)⟩

/-- One more value on the stack. -/
theorem Stacked.push {base top : Nat} {stack : List Value} (h : Stacked ρ base top stack) :
    Stacked (Function.update ρ top v) base (top + 1) (v :: stack) := by
  refine ⟨top, rfl, Function.update_self .., h.congr fun i _ hi => ?_⟩
  exact Function.update_of_ne (Nat.ne_of_lt hi) ..

/-! ## Where values are -/

theorem numSlots_valueType (t : IntType) : M3Compilation.getTypeNumSlots t.valueType = t.numSlots := by
  cases t <;> rfl

theorem widthOf_valueType (t : IntType) : widthOf t.valueType = t := by cases t <;> rfl

theorem located_register {sp : Nat} : Located sp st d_m3Reg0SlotAlias v ↔ Carries st.r0 v := by
  rw [Located, if_pos rfl]

theorem located_slot {sp slot : Nat} (hne : slot ≠ d_m3Reg0SlotAlias) :
    Located sp st slot v ↔ readSlot v.type st.slots (sp + slot) = v.bits := by
  rw [Located, if_neg hne]

/-- A value stays where it is while its own slots, or the register, do. -/
theorem Located.of_agree {sp slot : Nat} (h : Located sp st slot v)
    (hregister : slot = d_m3Reg0SlotAlias → st'.r0 = st.r0)
    (hslots : slot ≠ d_m3Reg0SlotAlias → ∀ k, slot ≤ k → k < slot + v.type.numSlots →
      st'.slots (sp + k) = st.slots (sp + k)) : Located sp st' slot v := by
  by_cases hat : slot = d_m3Reg0SlotAlias
  · rw [hat, located_register] at h ⊢
    rw [hregister hat]
    exact h
  · rw [located_slot hat] at h ⊢
    rw [← h]
    refine readSlot_congr fun k hlow hhigh => ?_
    obtain ⟨m, rfl⟩ : ∃ m, k = sp + m := ⟨k - sp, by omega⟩
    exact hslots hat m (by omega) (by omega)

theorem located_writeSlot {t : IntType} {x : BitVec t.width} {sp slot : Nat}
    (hne : slot ≠ d_m3Reg0SlotAlias) :
    Located sp { st with slots := writeSlot t st.slots (sp + slot) x } slot ⟨t, x⟩ := by
  rw [located_slot hne]
  exact readSlot_writeSlot t st.slots (sp + slot) x

/-- An operand read from a slot, in the width of a register. -/
theorem carries_readSlot {sp slot : Nat} (h : Located sp st slot v)
    (hne : slot ≠ d_m3Reg0SlotAlias) :
    Carries ((readSlot v.type st.slots (sp + slot)).setWidth 64) v := by
  rw [located_slot hne] at h
  rw [h, Carries, BitVec.setWidth_setWidth_of_le _ v.type.width_le, BitVec.setWidth_eq]

/-! ## What the compiler knows -/

theorem HoldsBelow.mono {m : Nat} (h : HoldsBelow L o n ρ st) (hle : m ≤ n) :
    HoldsBelow L o m ρ st :=
  ⟨fun i hi => h.typed i (Nat.lt_of_lt_of_le hi hle),
    fun i hi => h.located i (Nat.lt_of_lt_of_le hi hle), h.constants⟩

theorem HoldsBelow.of_emitted (h : HoldsBelow L o n ρ st) (hemitted : Emitted o o') :
    HoldsBelow L o' n ρ st := by
  rw [hemitted]
  exact ⟨h.typed, h.located, h.constants⟩

theorem M3Compilation.Ext.held_iff (hext : Ext active o o') (i : Nat) : o'.Held i ↔ o.Held i := by
  rw [Held, Held, hext.stackFirstDynamicIndex, hext.open_iff]

/-- Below the current block, the compiler knows the same afterwards. -/
theorem HoldsBelow.ext_iff (hext : Ext active o o') (hn : n ≤ o.block.blockStackIndex) :
    HoldsBelow L o' n ρ st ↔ HoldsBelow L o n ρ st := by
  have hslot := fun i (hi : i < n) => (hext.entries i (Nat.lt_of_lt_of_le hi hn)).1
  have htype := fun i (hi : i < n) => (hext.entries i (Nat.lt_of_lt_of_le hi hn)).2
  constructor
  · intro h
    refine ⟨fun i hi hheld => ?_, fun i hi hheld => ?_, ?_⟩
    · rw [← htype i hi]
      exact h.typed i hi ((hext.held_iff i).mpr hheld)
    · rw [← hslot i hi]
      exact h.located i hi ((hext.held_iff i).mpr hheld)
    · rw [← hext.slotFirstConstIndex]
      exact h.constants
  · intro h
    refine ⟨fun i hi hheld => ?_, fun i hi hheld => ?_, ?_⟩
    · rw [htype i hi]
      exact h.typed i hi ((hext.held_iff i).mp hheld)
    · rw [hslot i hi]
      exact h.located i hi ((hext.held_iff i).mp hheld)
    · rw [hext.slotFirstConstIndex]
      exact h.constants

/-- The slots of an entry are none of those from `slot` on, `num` of them. -/
def M3Compilation.Apart (o : M3Compilation) (i slot num : Nat) : Prop :=
  o.wasmStack i ≠ d_m3Reg0SlotAlias →
    o.wasmStack i + getTypeNumSlots (o.typeStack i) ≤ slot ∨ slot + num ≤ o.wasmStack i

theorem HoldsBelow.located_write {t : IntType} {slot : Nat} (x : BitVec t.width)
    (h : HoldsBelow L o n ρ st) (hi : i < n) (hheld : o.Held i)
    (hapart : o.Apart i slot t.numSlots) :
    Located L.sp { st with slots := writeSlot t st.slots (L.sp + slot) x } (o.wasmStack i)
      (ρ i) := by
  refine (h.located i hi hheld).of_agree (fun _ => rfl) fun hne k hlow hhigh => ?_
  have hdisjoint := hapart hne
  rw [h.typed i hi hheld, numSlots_valueType] at hdisjoint
  exact writeSlot_of_not (by omega)

/-- No constant is in the slots from `slot` on, `num` of them. -/
def SparesConstants (L : Activation) (o : M3Compilation) (slot num : Nat) : Prop :=
  slot + num ≤ o.slotFirstConstIndex ∨ o.slotFirstConstIndex + L.numConstants ≤ slot

theorem HoldsBelow.constants_write {t : IntType} {slot : Nat} (x : BitVec t.width)
    (h : HoldsBelow L o n ρ st) (hspares : SparesConstants L o slot t.numSlots) :
    ∀ k < L.numConstants, writeSlot t st.slots (L.sp + slot) x
      (L.sp + (o.slotFirstConstIndex + k)) = L.constants k := by
  intro k hk
  rw [SparesConstants] at hspares
  rw [writeSlot_of_not (by omega)]
  exact h.constants k hk

theorem HoldsBelow.write {t : IntType} {slot : Nat} (x : BitVec t.width)
    (h : HoldsBelow L o n ρ st) (hapart : ∀ i < n, o.Held i → o.Apart i slot t.numSlots)
    (hspares : SparesConstants L o slot t.numSlots) :
    HoldsBelow L o n ρ { st with slots := writeSlot t st.slots (L.sp + slot) x } :=
  ⟨h.typed, fun i hi hheld => h.located_write x hi hheld (hapart i hi hheld),
    h.constants_write x hspares⟩

/-- The register can be written where nothing is in it. -/
theorem HoldsBelow.setRegister (h : HoldsBelow L o n ρ st)
    (hfree : ∀ i < n, o.Held i → o.wasmStack i ≠ d_m3Reg0SlotAlias)
    (hslots : st'.slots = st.slots) : HoldsBelow L o n ρ st' := by
  refine ⟨h.typed, fun i hi hheld => ?_, fun k hk => ?_⟩
  · refine (h.located i hi hheld).of_agree (fun hat => absurd hat (hfree i hi hheld))
      fun _ k _ _ => ?_
    rw [hslots]
  · rw [hslots]
    exact h.constants k hk

/-! ## What the invariant says of places -/

section

variable (h : Good fn active o)
include h

theorem M3Compilation.Good.held_lt (hheld : o.Held i) (hi : i < o.stackIndex) :
    o.wasmStack i = d_m3Reg0SlotAlias ∨
      o.wasmStack i + getTypeNumSlots (o.typeStack i) ≤ d_m3MaxFunctionSlots := by
  have hlayout := h.frame.layout
  have hconsts := hlayout.consts
  have hdynamic := hlayout.dynamic
  by_cases hlocal : i < o.stackFirstDynamicIndex
  · have hend := hlayout.locals i hlocal
    right
    omega
  · have hopen : Open o.scopes i := hheld.resolve_left hlocal
    cases h.slots.entries i (Nat.le_of_not_lt hlocal) hi hopen with
    | ofLocal j hj hslot htype hblock =>
      have hend := hlayout.locals j hj
      rw [hslot, htype]
      right
      omega
    | constant hlow hhigh hused => right; omega
    | dynamic hlow hhigh => exact .inr hhigh
    | register hat => exact .inl hat

/-- Only the entry that the compiler has there is in the register. -/
theorem M3Compilation.Good.alias_eq (hreach : o.block.isPolymorphic = false) (hheld : o.Held i)
    (hi : i < o.stackIndex) (hat : o.wasmStack i = d_m3Reg0SlotAlias) :
    o.regStackIndexPlusOne = i + 1 := by
  by_cases hlocal : i < o.stackFirstDynamicIndex
  · have hend := h.frame.layout.locals i hlocal
    have hconsts := h.frame.layout.consts
    have hdynamic := h.frame.layout.dynamic
    have halias := slots_lt_alias
    omega
  · exact h.slots.unique hreach i (Nat.le_of_not_lt hlocal) hi (hheld.resolve_left hlocal) hat

/-- Slots that are free are those of no value. -/
theorem M3Compilation.Good.apart_of_free {slot num : Nat} (hlow : o.slotFirstDynamicIndex ≤ slot)
    (hhigh : slot + num ≤ d_m3MaxFunctionSlots)
    (hfree : ∀ n, slot ≤ n → n < slot + num → o.m3Slots n = 0) (hpos : 0 < num)
    (hi : i < o.stackIndex) (hheld : o.Held i) : o.Apart i slot num := by
  intro hne
  by_cases hlocal : i < o.stackFirstDynamicIndex
  · have hend := h.frame.layout.locals i hlocal
    have hconsts := h.frame.layout.consts
    left
    omega
  · by_contra hnot
    have hnum := getTypeNumSlots_pos (o.typeStack i)
    -- a slot that both have
    have hcovers : Covers o.wasmStack o.typeStack i (max slot (o.wasmStack i)) := by
      rw [Covers]
      omega
    exact h.not_covers (by omega) (by omega) (hfree _ (by omega) (by omega)) hi
      (hheld.resolve_left hlocal) hcovers

end

theorem Linked.spares_dynamic {slot num : Nat} (h : Linked L targets o)
    (hlow : o.slotFirstDynamicIndex ≤ slot) : SparesConstants L o slot num :=
  .inr (Nat.le_trans h.fits hlow)

end WebAssemblyRuntime.Wasm3
