import WebAssemblyRuntime.Wasm3.BlockKeeps

/-!
# FrameLayout — the frame that a function begins with

Before it compiles the body, `CompileFunction` gives slots to the results, the arguments and the
locals, and keeps room for the constants.  What comes of it is good, with no operand on the stack.
-/

namespace WebAssemblyRuntime.Wasm3.M3Compilation

open M3CodePages
open Reasoning (bind_ok)

variable {o o' o₁ : M3Compilation} {type : M3ValueType} {types pre : List M3ValueType}
  {base slot i n : Nat} {active : List Nat} {rt : M3CodePages} {function : WasmFunction}

/-- A push to slots of its own changes the entries and the slots only. -/
def Pushes (o o' : M3Compilation) : Prop :=
  o' = { o with
    stackIndex := o'.stackIndex
    wasmStack := o'.wasmStack
    typeStack := o'.typeStack
    m3Slots := o'.m3Slots
    slotMaxAllocatedIndexPlusOne := o'.slotMaxAllocatedIndexPlusOne
    maxStackSlots := o'.maxStackSlots
    slotFirstDynamicIndex := o'.slotFirstDynamicIndex }

theorem Pushes.refl (o : M3Compilation) : Pushes o o := rfl

theorem Pushes.trans {o'' : M3Compilation} (h : Pushes o o') (h' : Pushes o' o'') :
    Pushes o o'' := by
  rw [Pushes] at h h' ⊢
  rw [h] at h'
  exact h'

/-- The entries of the frame so far, from the slot `base` on, each in slots of its own. -/
structure Laid (base : Nat) (types : List M3ValueType) (o : M3Compilation) : Prop where
  index : o.stackIndex = types.length
  bounded : types.length ≤ d_m3MaxFunctionStackHeight
  typed : ∀ i t, types[i]? = some t → o.typeStack i = t
  low : ∀ i < types.length, base ≤ o.wasmStack i
  marked : ∀ i < types.length, ∀ n, Covers o.wasmStack o.typeStack i n → o.m3Slots n ≠ 0
  apart : ∀ i < types.length, ∀ j < types.length, ∀ n,
    Covers o.wasmStack o.typeStack i n → Covers o.wasmStack o.typeStack j n → i = j
  start : base ≤ o.slotFirstDynamicIndex
  unused : ∀ n, o.slotMaxAllocatedIndexPlusOne ≤ n → o.m3Slots n = 0

theorem pushAllocatedSlot_cases (h : o.pushAllocatedSlot type = .ok o') (hint : type.IsInt) :
    ∃ slot, o.freeSlots type = some slot ∧ o.stackIndex < d_m3MaxFunctionStackHeight ∧
      o.slotFirstDynamicIndex ≤ slot ∧
      (∀ n, slot ≤ n → n < slot + getTypeNumSlots type → o.m3Slots n = 0) ∧
      o' = { o with
        stackIndex := o.stackIndex + 1
        wasmStack := Function.update o.wasmStack o.stackIndex slot
        typeStack := Function.update o.typeStack o.stackIndex type
        m3Slots := fun n => if slot ≤ n ∧ n < slot + getTypeNumSlots type then 1 else o.m3Slots n
        slotMaxAllocatedIndexPlusOne :=
          max o.slotMaxAllocatedIndexPlusOne (slot + getTypeNumSlots type)
        maxStackSlots := max o.maxStackSlots (slot + getTypeNumSlots type) } := by
  rcases bind_ok h with ⟨⟨slot, o₁⟩, halloc, hpush⟩
  rcases allocateSlots_spec hint.small halloc with ⟨heq, hlow, hhigh, hfree⟩
  rw [markSlots_type] at heq
  subst heq
  rcases push_eq hpush with ⟨hlt, rfl⟩
  have halias := slots_lt_alias
  have hpos := getTypeNumSlots_pos type
  have hnot : isRegisterSlotAlias slot = false := isRegisterSlotAlias_of_lt (by omega)
  refine ⟨slot, (allocateSlots_iff.mp halloc).1, hlt, hlow, hfree, ?_⟩
  simp only [hnot, Bool.false_eq_true, if_false]

theorem Laid.push (h : Laid base types o) (hint : type.IsInt)
    (ho : o.pushAllocatedSlot type = .ok o') :
    Laid base (types ++ [type]) o' ∧ Pushes o o' ∧
      o'.slotFirstDynamicIndex = o.slotFirstDynamicIndex ∧
      o.slotMaxAllocatedIndexPlusOne ≤ o'.slotMaxAllocatedIndexPlusOne ∧
      (∀ i < types.length, o'.wasmStack i = o.wasmStack i) ∧
      o.slotFirstDynamicIndex ≤ o'.wasmStack types.length := by
  rcases pushAllocatedSlot_cases ho hint with ⟨slot, -, hlt, hlow, hfree, rfl⟩
  rw [h.index] at hlt ⊢
  have hold : ∀ i < types.length,
      Function.update o.wasmStack types.length slot i = o.wasmStack i ∧
        Function.update o.typeStack types.length type i = o.typeStack i := fun i hi => by
    rw [Function.update_of_ne (Nat.ne_of_lt hi), Function.update_of_ne (Nat.ne_of_lt hi)]
    exact ⟨rfl, rfl⟩
  have hcovers : ∀ i < types.length, ∀ n, Covers (Function.update o.wasmStack types.length slot)
      (Function.update o.typeStack types.length type) i n ↔ Covers o.wasmStack o.typeStack i n := by
    intro i hi n
    rw [Covers, Covers, (hold i hi).1, (hold i hi).2]
  have hnew : ∀ n, Covers (Function.update o.wasmStack types.length slot)
      (Function.update o.typeStack types.length type) types.length n ↔
        slot ≤ n ∧ n < slot + getTypeNumSlots type := by
    intro n
    rw [Covers, Function.update_self, Function.update_self]
  -- the slots of the new entry were free, those of the others are not
  have hnone : ∀ i < types.length, ∀ n, Covers o.wasmStack o.typeStack i n →
      ¬ (slot ≤ n ∧ n < slot + getTypeNumSlots type) := fun i hi n hcover hin =>
    h.marked i hi n hcover (hfree n hin.1 hin.2)
  have hlength : ∀ i, i < (types ++ [type]).length → i < types.length ∨ i = types.length := by
    intro i hi
    rw [List.length_append, List.length_singleton] at hi
    omega
  refine ⟨⟨?_, ?_, ?_, ?_, ?_, ?_, h.start, ?_⟩, rfl, rfl, Nat.le_max_left _ _,
    fun i hi => (hold i hi).1, ?_⟩
  · rw [List.length_append, List.length_singleton]
  · rw [List.length_append, List.length_singleton]
    exact hlt
  · intro i t ht
    rcases hlength i (List.getElem?_eq_some_iff.mp ht).1 with hi | rfl
    · rw [List.getElem?_append_left hi] at ht
      exact (hold i hi).2.trans (h.typed i t ht)
    · rw [List.getElem?_concat_length] at ht
      cases ht
      exact Function.update_self ..
  · intro i hi
    rcases hlength i hi with hi | rfl
    · exact (h.low i hi).trans_eq (hold i hi).1.symm
    · simp only [Function.update_self]
      exact Nat.le_trans h.start hlow
  · intro i hi n hcover
    rcases hlength i hi with hi | rfl
    · rw [hcovers i hi] at hcover
      simp only [if_neg (hnone i hi n hcover)]
      exact h.marked i hi n hcover
    · simp only [if_pos ((hnew n).mp hcover)]
      exact Nat.one_ne_zero
  · intro i hi j hj n hcover hcover'
    rcases hlength i hi with hi | rfl
    · rw [hcovers i hi] at hcover
      rcases hlength j hj with hj | rfl
      · rw [hcovers j hj] at hcover'
        exact h.apart i hi j hj n hcover hcover'
      · exact absurd ((hnew n).mp hcover') (hnone i hi n hcover)
    · rcases hlength j hj with hj | rfl
      · rw [hcovers j hj] at hcover'
        exact absurd ((hnew n).mp hcover) (hnone j hj n hcover')
      · rfl
  · intro n hn
    simp only at hn ⊢
    rw [if_neg (by omega)]
    exact h.unused n (by omega)
  · simp only [Function.update_self]
    exact hlow

/-! ## Locals -/

theorem Laid.pushLocals (hpre : Laid base pre o) (hints : ∀ t ∈ types, t.IsInt)
    (ho : types.foldlM pushAllocatedSlot o = .ok o') :
    Laid base (pre ++ types) o' ∧ Pushes o o' ∧
      o'.slotFirstDynamicIndex = o.slotFirstDynamicIndex ∧
      o.slotMaxAllocatedIndexPlusOne ≤ o'.slotMaxAllocatedIndexPlusOne ∧
      (∀ i < pre.length, o'.wasmStack i = o.wasmStack i) ∧
      ∀ i, pre.length ≤ i → i < (pre ++ types).length → o.slotFirstDynamicIndex ≤ o'.wasmStack i := by
  induction types generalizing pre o with
  | nil =>
    cases ho
    rw [List.append_nil]
    exact ⟨hpre, .refl _, rfl, Nat.le_refl _, fun _ _ => rfl, fun i hlow hi => by omega⟩
  | cons type types ih =>
    rw [List.foldlM_cons] at ho
    rcases bind_ok ho with ⟨o₁, hpush, hrest⟩
    rcases hpre.push (hints type (List.mem_cons_self ..)) hpush with
      ⟨hlaid, hpushes, hfirst, hmax, hold, hnew⟩
    rcases ih hlaid (fun t ht => hints t (List.mem_cons_of_mem _ ht)) hrest with
      ⟨hlaid', hpushes', hfirst', hmax', hold', hnew'⟩
    rw [List.append_assoc, List.singleton_append] at hlaid' hnew'
    have hlength : (pre ++ [type]).length = pre.length + 1 := by
      rw [List.length_append, List.length_singleton]
    rw [hlength] at hold' hnew'
    refine ⟨hlaid', hpushes.trans hpushes', hfirst'.trans hfirst, Nat.le_trans hmax hmax',
      fun i hi => (hold' i (by omega)).trans (hold i hi), fun i hlow hi => ?_⟩
    by_cases hlast : i = pre.length
    · rw [hlast, hold' _ (by omega)]
      exact hnew
    · rw [← hfirst]
      exact hnew' i (by omega) hi

/-- A local goes beyond the slots in use by three at most. -/
theorem Laid.push_touched (h : Laid base types o) (hint : type.IsInt)
    (hfirst : o.slotFirstDynamicIndex ≤ o.slotMaxAllocatedIndexPlusOne)
    (ho : o.pushAllocatedSlot type = .ok o') :
    o'.slotMaxAllocatedIndexPlusOne ≤ o.slotMaxAllocatedIndexPlusOne + 3 := by
  rcases pushAllocatedSlot_cases ho hint with ⟨slot, hfound, -, -, -, rfl⟩
  have hsmall := hint.small
  have hstart : alignSlotToType o.slotFirstDynamicIndex type <
      o.slotMaxAllocatedIndexPlusOne + getTypeNumSlots type := by
    rcases hint with rfl | rfl <;> simp only [alignSlotToType, getTypeNumSlots] <;> omega
  have hslot := findSlots_lt h.unused hstart hfound
  simp only
  omega

theorem Laid.pushLocals_touched (hpre : Laid base pre o) (hints : ∀ t ∈ types, t.IsInt)
    (hfirst : o.slotFirstDynamicIndex ≤ o.slotMaxAllocatedIndexPlusOne)
    (ho : types.foldlM pushAllocatedSlot o = .ok o') :
    o'.slotMaxAllocatedIndexPlusOne ≤ o.slotMaxAllocatedIndexPlusOne + 3 * types.length := by
  induction types generalizing pre o with
  | nil =>
    cases ho
    exact Nat.le_refl _
  | cons type types ih =>
    rw [List.foldlM_cons] at ho
    rcases bind_ok ho with ⟨o₁, hpush, hrest⟩
    have hint := hints type (List.mem_cons_self ..)
    rcases hpre.push hint hpush with ⟨hlaid, -, hsame, hmax, -, -⟩
    have htouched := hpre.push_touched hint hfirst hpush
    have hrest' := ih hlaid (fun t ht => hints t (List.mem_cons_of_mem _ ht))
      (by rw [hsame]; exact Nat.le_trans hfirst hmax) hrest
    rw [List.length_cons]
    omega

/-! ## Arguments -/

/-- Each argument is where the caller leaves it, behind the results. -/
structure LaidArgs (numRets : Nat) (types : List M3ValueType) (o : M3Compilation) : Prop where
  laid : Laid (numRets * c_ioSlotCount) types o
  args : ∀ i < types.length, o.wasmStack i = (numRets + i) * c_ioSlotCount
  next : o.slotFirstDynamicIndex = (numRets + types.length) * c_ioSlotCount
  fresh : ∀ n, o.slotFirstDynamicIndex ≤ n → o.m3Slots n = 0

/-- The search ends where it begins, if the slots there are free. -/
theorem findSlots_start {m3Slots : Nat → Nat} {numSlots fuel start : Nat}
    (hfree : ∀ n, start ≤ n → m3Slots n = 0)
    (h : findSlots m3Slots numSlots d_m3MaxFunctionSlots (fuel + 1) start = some slot) :
    slot = start := by
  rw [findSlots] at h
  split at h
  · rename_i hend
    rw [if_pos ⟨hend, hfree _ (Nat.le_refl _), hfree _ (Nat.le_add_right _ _)⟩] at h
    exact (Option.some.inj h).symm
  · cases h

theorem alignSlotToType_even (hint : type.IsInt) :
    alignSlotToType (n * c_ioSlotCount) type = n * c_ioSlotCount := by
  rcases hint with rfl | rfl <;> simp only [alignSlotToType, getTypeNumSlots, c_ioSlotCount] <;> omega

variable {numRets : Nat}

theorem LaidArgs.push (h : LaidArgs numRets types o) (hint : type.IsInt)
    (ho : o.pushArg type = .ok o') : LaidArgs numRets (types ++ [type]) o' ∧ Pushes o o' := by
  rcases bind_ok ho with ⟨o₁, hpush, heq⟩
  cases heq
  rcases h.laid.push hint hpush with ⟨hlaid, -, hfirst, -, hold, -⟩
  rcases pushAllocatedSlot_cases hpush hint with ⟨slot, hfound, -, -, -, rfl⟩
  have hsmall := hint.small
  have hslot : slot = (numRets + types.length) * c_ioSlotCount := by
    rw [freeSlots, h.next, alignSlotToType_even hint] at hfound
    exact findSlots_start (fun n hn => h.fresh n (by rw [h.next]; exact hn)) hfound
  have hlength : (types ++ [type]).length = types.length + 1 := by
    rw [List.length_append, List.length_singleton]
  have hnext := h.next
  rw [c_ioSlotCount] at hslot hnext
  refine ⟨⟨⟨hlaid.index, hlaid.bounded, hlaid.typed, hlaid.low, hlaid.marked, hlaid.apart,
    Nat.le_trans hlaid.start (Nat.le_add_right _ _), hlaid.unused⟩, fun i hi => ?_, ?_,
    fun n hn => ?_⟩, rfl⟩
  · rw [hlength] at hi
    by_cases hlast : i = types.length
    · simp only [hlast, h.laid.index, Function.update_self]
      exact hslot
    · exact (hold i (by omega)).trans (h.args i (by omega))
  · rw [hlength, c_ioSlotCount]
    simp only
    omega
  · simp only [c_ioSlotCount] at hn ⊢
    rw [if_neg (by omega)]
    exact h.fresh n (by omega)

theorem LaidArgs.pushArgs (hpre : LaidArgs numRets pre o) (hints : ∀ t ∈ types, t.IsInt)
    (ho : types.foldlM pushArg o = .ok o') :
    LaidArgs numRets (pre ++ types) o' ∧ Pushes o o' := by
  induction types generalizing pre o with
  | nil =>
    cases ho
    rw [List.append_nil]
    exact ⟨hpre, .refl _⟩
  | cons type types ih =>
    rw [List.foldlM_cons] at ho
    rcases bind_ok ho with ⟨o₁, hpush, hrest⟩
    rcases hpre.push (hints type (List.mem_cons_self ..)) hpush with ⟨hlaid, hpushes⟩
    rcases ih hlaid (fun t ht => hints t (List.mem_cons_of_mem _ ht)) hrest with ⟨hlaid', hpushes'⟩
    rw [List.append_assoc, List.singleton_append] at hlaid'
    exact ⟨hlaid', hpushes.trans hpushes'⟩

/-- Before the arguments, the slots of the results are taken. -/
theorem cleared_laid (rt : M3CodePages) (function : WasmFunction) :
    LaidArgs function.type.rets.length [] (cleared rt function) := by
  have hnone : ∀ {P : Nat → Prop}, ∀ i < ([] : List M3ValueType).length, P i :=
    fun i hi => absurd hi (Nat.not_lt_zero i)
  rw [cleared]
  cases hrets : function.type.rets.length * c_ioSlotCount with
  | zero =>
    exact ⟨⟨rfl, Nat.zero_le _, fun i t ht => (by cases ht), hnone, hnone, hnone,
      Nat.le_of_eq hrets, fun _ _ => rfl⟩, hnone, hrets.symm, fun _ _ => rfl⟩
  | succ k =>
    rw [markSlots_eq]
    refine ⟨⟨rfl, Nat.zero_le _, fun i t ht => (by cases ht), hnone, hnone, hnone,
      Nat.le_of_eq hrets, fun n hn => ?_⟩, hnone, hrets.symm, fun n hn => ?_⟩
    · simp only at hn ⊢
      exact if_neg (by omega)
    · simp only at hn ⊢
      exact if_neg (by omega)

/-! ## The body begins -/

/-- The types of the arguments, and of the locals after them. -/
def frameTypes (function : WasmFunction) : List M3ValueType :=
  function.type.args ++ function.locals.map IntType.valueType

/-- The frame that the body of a function finds. -/
structure Framed (function : WasmFunction) (numRetAndArgSlots numLocalSlots : Nat)
    (o : M3Compilation) : Prop where
  scope : o.block = ⟨⟨0, 0⟩, [], 0, 0, (frameTypes function).length, function.type, .function, false⟩
  outer : o.outer = []
  count : o.numArgsAndLocals = (frameTypes function).length
  index : o.stackIndex = (frameTypes function).length
  first : o.stackFirstDynamicIndex = (frameTypes function).length
  bounded : (frameTypes function).length ≤ d_m3MaxFunctionStackHeight
  types : ∀ i t, (frameTypes function)[i]? = some t → o.typeStack i = t
  low : ∀ i < (frameTypes function).length,
    function.type.rets.length * c_ioSlotCount ≤ o.wasmStack i
  args : ∀ i < function.type.args.length,
    o.wasmStack i = (function.type.rets.length + i) * c_ioSlotCount
  locals : ∀ i, function.type.args.length ≤ i → i < (frameTypes function).length →
    numRetAndArgSlots ≤ o.wasmStack i
  ends : ∀ i < (frameTypes function).length,
    o.wasmStack i + getTypeNumSlots (o.typeStack i) ≤ o.slotFirstConstIndex
  apart : ∀ i < (frameTypes function).length, ∀ j < (frameTypes function).length, ∀ n,
    Covers o.wasmStack o.typeStack i n → Covers o.wasmStack o.typeStack j n → i = j
  retAndArgs : numRetAndArgSlots =
    (function.type.rets.length + function.type.args.length) * c_ioSlotCount
  constants : numRetAndArgSlots + numLocalSlots = o.slotFirstConstIndex
  noConstants : o.slotMaxConstIndex = o.slotFirstConstIndex
  room : o.slotFirstConstIndex ≤ o.slotFirstDynamicIndex
  small : o.slotFirstDynamicIndex ≤
    numRetAndArgSlots + 3 * function.locals.length + d_m3MaxConstantTableSize
  dynamic : o.slotFirstDynamicIndex < d_m3MaxFunctionSlots
  touched : o.slotMaxAllocatedIndexPlusOne = o.slotFirstDynamicIndex
  allocated : o.maxStackSlots = o.slotFirstDynamicIndex
  unused : ∀ n, o.slotFirstConstIndex ≤ n → o.m3Slots n = 0
  register : o.regStackIndexPlusOne = 0

/-- The scan ends before it has counted too many constants. -/
theorem countConstantSlots_lt (wasm : List UInt8) (hn : n < d_m3MaxConstantTableSize) :
    countConstantSlots n wasm < d_m3MaxConstantTableSize := by
  induction wasm generalizing n with
  | nil => exact hn
  | cons code wa ih =>
    simp only [countConstantSlots]
    generalize n + _ = next
    by_cases hfull : d_m3MaxConstantTableSize ≤ next
    · rw [if_pos hfull]
      exact hn
    · rw [if_neg hfull]
      exact ih (Nat.not_le.mp hfull)

theorem reserveConstants_cases {wasm : List UInt8} (h : o.reserveConstants wasm = .ok o') :
    ∃ dynamic, o.slotFirstConstIndex ≤ dynamic ∧ dynamic < d_m3MaxFunctionSlots ∧
      dynamic ≤ o.slotFirstConstIndex + d_m3MaxConstantTableSize ∧
      o' = { o with slotFirstDynamicIndex := dynamic } := by
  have hcount := countConstantSlots_lt wasm (by decide : 0 < d_m3MaxConstantTableSize)
  rw [reserveConstants] at h
  split at h
  · cases h
  · rename_i hlt
    cases h
    refine ⟨_, Nat.le_add_right _ _, Nat.not_le.mp hlt, Nat.add_le_add_left ?_ _, rfl⟩
    rw [d_m3MaxConstantTableSize] at hcount ⊢
    simp only [alignSlotToType, getTypeNumSlots]
    omega

theorem frameTypes_ints (hints : ∀ t ∈ function.type.args, t.IsInt) :
    ∀ t ∈ frameTypes function, t.IsInt := by
  intro t ht
  rcases List.mem_append.mp ht with hargs | hlocals
  · exact hints t hargs
  · rcases List.mem_map.mp hlocals with ⟨local', -, rfl⟩
    exact IntType.valueType_isInt local'

/-- `CompileFunction` up to the body: the slots of the frame, with everything above them unused. -/
theorem layOutFrame_cases {wasm : List UInt8} {numRetAndArgSlots numLocalSlots : Nat}
    (hints : ∀ t ∈ function.type.args, t.IsInt)
    (ho : LaidArgs function.type.rets.length [] o)
    (h : o.layOutFrame function wasm = .ok (numRetAndArgSlots, numLocalSlots, o')) :
    ∃ o₁ maxSlot dynamic, Laid (function.type.rets.length * c_ioSlotCount) (frameTypes function) o₁ ∧
      Pushes o o₁ ∧ numRetAndArgSlots =
        (function.type.rets.length + function.type.args.length) * c_ioSlotCount ∧
      (∀ i < function.type.args.length,
        o₁.wasmStack i = (function.type.rets.length + i) * c_ioSlotCount) ∧
      (∀ i, function.type.args.length ≤ i → i < (frameTypes function).length →
        numRetAndArgSlots ≤ o₁.wasmStack i) ∧
      numRetAndArgSlots + numLocalSlots = maxSlot ∧ numRetAndArgSlots ≤ maxSlot ∧
      maxSlot ≤ dynamic ∧ dynamic < d_m3MaxFunctionSlots ∧
      dynamic ≤ numRetAndArgSlots + 3 * function.locals.length + d_m3MaxConstantTableSize ∧
      (∀ n, maxSlot ≤ n → o₁.m3Slots n = 0) ∧
      o' = ({ o₁ with
        slotMaxAllocatedIndexPlusOne := maxSlot
        slotFirstConstIndex := maxSlot
        slotMaxConstIndex := maxSlot
        slotFirstDynamicIndex := dynamic } : M3Compilation).startBody := by
  rcases bind_ok h with ⟨o₁, hargs, h⟩
  rcases ho.pushArgs hints hargs with ⟨hlaid, hpushes⟩
  rw [List.nil_append] at hlaid
  rcases bind_ok h with ⟨o₂, hlocals, h⟩
  rcases bind_ok h with ⟨o₃, hreserve, heq⟩
  cases heq
  have hbegun : Laid (function.type.rets.length * c_ioSlotCount) function.type.args
      { o₁ with slotMaxAllocatedIndexPlusOne := o₁.slotFirstDynamicIndex } :=
    ⟨hlaid.laid.index, hlaid.laid.bounded, hlaid.laid.typed, hlaid.laid.low, hlaid.laid.marked,
      hlaid.laid.apart, hlaid.laid.start, hlaid.fresh⟩
  have hlocalInts : ∀ t ∈ function.locals.map IntType.valueType, t.IsInt := fun t ht =>
    frameTypes_ints hints t (List.mem_append_right _ ht)
  rcases hbegun.pushLocals hlocalInts hlocals with
    ⟨hall, hpushes', hfirst, hmax, hold, hnew⟩
  have hpushed : Pushes o o₂ := by
    have hbetween : Pushes o₁ { o₁ with slotMaxAllocatedIndexPlusOne := o₁.slotFirstDynamicIndex } :=
      rfl
    exact (hpushes.trans hbetween).trans hpushes'
  have hle : o₂.slotFirstDynamicIndex ≤ o₂.slotMaxAllocatedIndexPlusOne := by
    rw [hfirst]
    exact hmax
  rcases @maxUsedSlot_spec o₂.m3Slots _ _ hle with ⟨hlow, htop, hunused⟩
  rcases reserveConstants_cases hreserve with ⟨dynamic, hconst, hdynamic, hsmall, rfl⟩
  have htouched := hbegun.pushLocals_touched hlocalInts (Nat.le_refl _) hlocals
  rw [List.length_map] at htouched
  have hsame : o₁.slotFirstDynamicIndex = o₂.slotFirstDynamicIndex := hfirst.symm
  refine ⟨o₂, _, dynamic, hall, hpushed, hlaid.next, fun i hi => (hold i hi).trans (hlaid.args i hi),
    hnew, Nat.add_sub_cancel' ?_, ?_, hconst, hdynamic, ?_, fun n hn => ?_, rfl⟩
  · rw [hsame]
    exact hlow
  · rw [hsame]
    exact hlow
  · refine Nat.le_trans hsmall (Nat.add_le_add_right ?_ _)
    exact Nat.le_trans htop htouched
  · by_cases htop : n < o₂.slotMaxAllocatedIndexPlusOne
    · exact hunused n hn htop
    · exact hall.unused n (Nat.not_lt.mp htop)

theorem cleared_same (rt : M3CodePages) (function : WasmFunction) :
    (cleared rt function).rt = rt ∧ (cleared rt function).block =
      ⟨⟨0, 0⟩, [], 0, 0, 0, function.type, .function, false⟩ ∧ (cleared rt function).outer = [] ∧
      (cleared rt function).numArgsAndLocals =
        function.type.args.length + function.locals.length ∧
      (cleared rt function).regStackIndexPlusOne = 0 := by
  rw [cleared]
  cases function.type.rets.length * c_ioSlotCount with
  | zero => exact ⟨rfl, rfl, rfl, rfl, rfl⟩
  | succ k =>
    rw [markSlots_eq]
    exact ⟨rfl, rfl, rfl, rfl, rfl⟩

theorem layOutFrame_framed {wasm : List UInt8} {numRetAndArgSlots numLocalSlots : Nat}
    (hints : ∀ t ∈ function.type.args, t.IsInt)
    (hacquire : (cleared rt function).acquireCompilationCodePage = .ok o)
    (h : o.layOutFrame function wasm = .ok (numRetAndArgSlots, numLocalSlots, o')) :
    Framed function numRetAndArgSlots numLocalSlots o' ∧ o'.rt = o.rt ∧ o'.page = o.page := by
  have hacquired := acquireCompilationCodePage_eq hacquire
  have hlaid : LaidArgs function.type.rets.length [] o := by
    have hcleared := cleared_laid rt function
    rw [hacquired]
    exact ⟨⟨hcleared.laid.index, hcleared.laid.bounded, hcleared.laid.typed, hcleared.laid.low,
      hcleared.laid.marked, hcleared.laid.apart, hcleared.laid.start, hcleared.laid.unused⟩,
      hcleared.args, hcleared.next, hcleared.fresh⟩
  rcases layOutFrame_cases hints hlaid h with ⟨o₁, maxSlot, dynamic, hall, hpushes, hretAndArgs, hargs,
    hlocals, hmax, -, hconst, hdynamic, hsmall, hunused, rfl⟩
  rcases cleared_same rt function with ⟨-, hblock, houter, hcount, hreg⟩
  have hsame : o₁.block = (cleared rt function).block ∧ o₁.outer = (cleared rt function).outer ∧
      o₁.numArgsAndLocals = (cleared rt function).numArgsAndLocals ∧
      o₁.regStackIndexPlusOne = (cleared rt function).regStackIndexPlusOne := by
    rw [hpushes, hacquired]
    exact ⟨rfl, rfl, rfl, rfl⟩
  have hcode : o₁.rt = o.rt ∧ o₁.page = o.page := by
    rw [hpushes]
    exact ⟨rfl, rfl⟩
  -- the last slot of an entry is in use, so it is below the constants
  have hends : ∀ i < (frameTypes function).length,
      o₁.wasmStack i + getTypeNumSlots (o₁.typeStack i) ≤ maxSlot := by
    intro i hi
    by_contra hlt
    have hpos := getTypeNumSlots_pos (o₁.typeStack i)
    exact hall.marked i hi (o₁.wasmStack i + getTypeNumSlots (o₁.typeStack i) - 1)
      ⟨by omega, by omega⟩ (hunused _ (by omega))
  refine ⟨⟨?_, hsame.2.1.trans houter, ?_, hall.index, hall.index, hall.bounded, hall.typed, hall.low,
    hargs, hlocals, hends, hall.apart, hretAndArgs, hmax, rfl, hconst, hsmall, hdynamic, rfl, rfl, hunused,
    hsame.2.2.2.trans hreg⟩, hcode⟩
  · simp only [startBody, hsame.1, hblock, hall.index]
  · rw [frameTypes, List.length_append, List.length_map]
    exact hsame.2.2.1.trans hcount

/-- The state that the body begins with is good. -/
theorem Framed.good {numRetAndArgSlots numLocalSlots : Nat}
    (h : Framed function numRetAndArgSlots numLocalSlots o)
    (hints : ∀ t ∈ function.type.args, t.IsInt) (hroom : Writable active 0 o) :
    Good function.type active o := by
  have hscopes : o.scopes = [⟨⟨0, 0⟩, [], 0, 0, (frameTypes function).length, function.type,
      .function, false⟩] := by
    rw [scopes, h.scope, h.outer]
  have htypes : ∀ i < o.stackFirstDynamicIndex, (o.typeStack i).IsInt := by
    intro i hi
    rw [h.first] at hi
    rw [h.types i _ (List.getElem?_eq_getElem hi)]
    exact frameTypes_ints hints _ (List.getElem_mem hi)
  have hlength : o.stackFirstDynamicIndex = o.stackIndex := h.first.trans h.index.symm
  have hdynamic := h.dynamic
  refine ⟨⟨⟨h.count.trans h.first.symm, htypes, ?_, ?_, ?_, ?_, h.room, Nat.le_of_lt h.dynamic⟩, ?_,
    fun c hc hopcode => ?_⟩, ⟨?_, ?_, fun i hlow hi => ?_, fun i hi => ?_, fun n hlow hhigh => ?_,
    fun n hlow hhigh => ?_, ?_, Nat.le_of_eq (h.touched.trans h.allocated.symm),
    fun n hlow hhigh => ?_, fun n hlow hhigh hused => ?_, ?_,
    fun hne => ?_, fun _ i hlow hi => ?_⟩, ⟨hroom, ?_, fun c hc pc hpc => ?_, fun c hc => ?_⟩⟩
  · rw [h.first]
    exact h.low
  · rw [h.first]
    exact h.ends
  · rw [h.first]
    exact h.apart
  · rw [← h.constants, h.retAndArgs, c_ioSlotCount]
    omega
  · rw [h.scope, h.outer, h.first]
    exact ⟨rfl, rfl, rfl, rfl, rfl⟩
  · rw [hscopes, List.mem_singleton] at hc
    subst hc
    exact absurd rfl hopcode
  · rw [h.scope, h.index]
  · rw [h.index]
    exact h.bounded
  · omega
  · exact (htypes i (by omega)).small
  · rw [h.unused n (Nat.le_trans h.room hlow), uses]
    refine (Nat.count_of_forall_not fun i hi hcovered => ?_).symm
    have hopen := hcovered.1 _ (by rw [hscopes]; exact List.mem_singleton_self _)
    rw [h.index] at hi
    simp only at hopen
    omega
  · rw [h.unused n (Nat.le_trans h.room hlow)]
    exact Nat.zero_le _
  · exact Nat.le_of_eq h.touched.symm
  · rw [h.touched] at hlow
    exact h.unused n (Nat.le_trans h.room hlow)
  · exact absurd (h.unused n hlow) hused
  · rw [h.noConstants]
    exact h.room
  · exact absurd h.register hne
  · omega
  · rw [hscopes]
    exact List.nodup_nil
  · rw [hscopes, List.mem_singleton] at hc
    subst hc
    cases hpc
  · rw [hscopes, List.mem_singleton] at hc
    subst hc
    exact Nat.zero_le _

end WebAssemblyRuntime.Wasm3.M3Compilation
