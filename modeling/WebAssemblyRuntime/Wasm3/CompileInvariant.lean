import WebAssemblyRuntime.Wasm3.Allocation
import WebAssemblyRuntime.Wasm3.Emission

/-!
# CompileInvariant — what holds of an `M3Compilation` between two instructions

The counts in `m3Slots` are those of the stack entries that cover a slot, so a slot that is free to
be allocated holds no value.  `Good` says this and what goes with it; `Ext` is what a stretch of
compiling leaves as it was.  Blocks have the types of the first version of WebAssembly, without
parameters and with one result at most.
-/

namespace WebAssemblyRuntime.Wasm3

/-- A type of the integer instructions. -/
def M3ValueType.IsInt (type : M3ValueType) : Prop := type = .i32 ∨ type = .i64

theorem M3ValueType.IsInt.small {type : M3ValueType} (h : type.IsInt) :
    M3Compilation.getTypeNumSlots type ≤ 2 := by
  rcases h with rfl | rfl <;> decide

theorem IntType.valueType_isInt (t : IntType) : t.valueType.IsInt := by
  cases t
  · exact .inl rfl
  · exact .inr rfl

/-- A block type that can be written as one byte. -/
structure M3FuncType.Mvp (type : M3FuncType) : Prop where
  args : type.args = []
  rets : type.rets.length ≤ 1
  ints : ∀ t ∈ type.rets, t.IsInt

namespace M3Compilation

/-- The index is not one that a block keeps for its results. -/
def Open (scopes : List M3CompilationScope) (i : Nat) : Prop :=
  ∀ c ∈ scopes, i < c.exitStackIndex ∨ c.blockStackIndex ≤ i

instance (scopes : List M3CompilationScope) : DecidablePred (Open scopes) :=
  fun _ => inferInstanceAs (Decidable (∀ c ∈ scopes, _))

/-- How many entries cover a slot. -/
def uses (o : M3Compilation) (n : Nat) : Nat :=
  Nat.count (fun i => Open o.scopes i ∧ Covers o.wasmStack o.typeStack i n) o.stackIndex

/-- The scopes around the current point, the innermost first, each above the one around it. -/
def Scoped (fn : M3FuncType) (base : Nat) : M3CompilationScope → List M3CompilationScope → Prop
  | c, [] => c.blockStackIndex = base ∧ c.exitStackIndex = 0 ∧ c.opcode = .function ∧ c.depth = 0 ∧
      c.type = fn
  | c, outer :: rest => c.blockStackIndex = c.exitStackIndex + c.type.rets.length ∧ c.type.Mvp ∧
      c.opcode ≠ .function ∧ c.depth = rest.length + 1 ∧
      outer.blockStackIndex ≤ c.exitStackIndex ∧ Scoped fn base outer rest

/-- Results, arguments and locals, constants, and the slots for the rest, in this order. -/
structure Layout (fn : M3FuncType) (o : M3Compilation) : Prop where
  numArgsAndLocals : o.numArgsAndLocals = o.stackFirstDynamicIndex
  ints : ∀ i < o.stackFirstDynamicIndex, (o.typeStack i).IsInt
  results : ∀ i < o.stackFirstDynamicIndex, fn.rets.length * c_ioSlotCount ≤ o.wasmStack i
  locals : ∀ i < o.stackFirstDynamicIndex,
    o.wasmStack i + getTypeNumSlots (o.typeStack i) ≤ o.slotFirstConstIndex
  apart : ∀ i < o.stackFirstDynamicIndex, ∀ j < o.stackFirstDynamicIndex, ∀ n,
    Covers o.wasmStack o.typeStack i n → Covers o.wasmStack o.typeStack j n → i = j
  afterResults : fn.rets.length * c_ioSlotCount ≤ o.slotFirstConstIndex
  consts : o.slotFirstConstIndex ≤ o.slotFirstDynamicIndex
  dynamic : o.slotFirstDynamicIndex ≤ d_m3MaxFunctionSlots

/-- The slots that the results of a block go to cover no value from before the block. -/
structure Recorded (o : M3Compilation) (c : M3CompilationScope) : Prop where
  type : c.type.rets = [o.typeStack c.exitStackIndex]
  low : o.slotFirstDynamicIndex ≤ o.wasmStack c.exitStackIndex
  high : o.wasmStack c.exitStackIndex + getTypeNumSlots (o.typeStack c.exitStackIndex) ≤
    d_m3MaxFunctionSlots
  apart : ∀ i < c.exitStackIndex, o.stackFirstDynamicIndex ≤ i → Open o.scopes i →
    ∀ n, Covers o.wasmStack o.typeStack c.exitStackIndex n → ¬ Covers o.wasmStack o.typeStack i n

/-- What no instruction inside the current block changes. -/
structure FrameGood (fn : M3FuncType) (o : M3Compilation) : Prop where
  layout : Layout fn o
  nested : Scoped fn o.stackFirstDynamicIndex o.block o.outer
  recorded : ∀ c ∈ o.scopes, c.opcode ≠ .function → c.type.rets ≠ [] → Recorded o c

/-- Where a value of the operand stack is. -/
inductive EntryIn (o : M3Compilation) (i : Nat) : Prop where
  | ofLocal (j : Nat) (hj : j < o.stackFirstDynamicIndex) (hslot : o.wasmStack i = o.wasmStack j)
      (htype : o.typeStack i = o.typeStack j) (hblock : o.block.blockStackIndex ≤ i)
  | constant (hlow : o.slotFirstConstIndex ≤ o.wasmStack i)
      (hhigh : o.wasmStack i + getTypeNumSlots (o.typeStack i) ≤ o.slotFirstDynamicIndex)
      (hused : ∀ n, Covers o.wasmStack o.typeStack i n → o.m3Slots n ≠ 0)
  | dynamic (hlow : o.slotFirstDynamicIndex ≤ o.wasmStack i)
      (hhigh : o.wasmStack i + getTypeNumSlots (o.typeStack i) ≤ d_m3MaxFunctionSlots)
  | register (h : o.wasmStack i = d_m3Reg0SlotAlias)

/-- The counts of slots agree with the stack. -/
structure SlotsGood (o : M3Compilation) : Prop where
  height : o.block.blockStackIndex ≤ o.stackIndex
  bounded : o.stackIndex ≤ d_m3MaxFunctionStackHeight
  entries : ∀ i, o.stackFirstDynamicIndex ≤ i → i < o.stackIndex → Open o.scopes i → EntryIn o i
  small : ∀ i < o.stackIndex, getTypeNumSlots (o.typeStack i) ≤ 2
  counted : ∀ n, o.slotFirstDynamicIndex ≤ n → n < d_m3MaxFunctionSlots → o.m3Slots n = o.uses n
  bytes : ∀ n, o.slotFirstDynamicIndex ≤ n → n < d_m3MaxFunctionSlots → o.m3Slots n ≤ 255
  touched : o.slotFirstDynamicIndex ≤ o.slotMaxAllocatedIndexPlusOne
  allocated : o.slotMaxAllocatedIndexPlusOne ≤ o.maxStackSlots
  untouched : ∀ n, o.slotMaxAllocatedIndexPlusOne ≤ n → n < d_m3MaxFunctionSlots → o.m3Slots n = 0
  constants : ∀ n, o.slotFirstConstIndex ≤ n → n < o.slotFirstDynamicIndex → o.m3Slots n ≠ 0 →
    n < o.slotMaxConstIndex
  constantsEnd : o.slotMaxConstIndex ≤ o.slotFirstDynamicIndex
  register : o.regStackIndexPlusOne ≠ 0 → o.block.blockStackIndex < o.regStackIndexPlusOne ∧
    o.regStackIndexPlusOne ≤ o.stackIndex ∧
    o.wasmStack (o.regStackIndexPlusOne - 1) = d_m3Reg0SlotAlias
  /-- In unreachable code two entries may be taken to be in the register. -/
  unique : o.block.isPolymorphic = false → ∀ i, o.stackFirstDynamicIndex ≤ i → i < o.stackIndex →
    Open o.scopes i → o.wasmStack i = d_m3Reg0SlotAlias → o.regStackIndexPlusOne = i + 1

/-- The code pages, and the words in them that the scopes will fill in. -/
structure CodeGood (active : List Nat) (o : M3Compilation) : Prop where
  writable : Writable active 0 o
  patches : (o.scopes.flatMap M3CompilationScope.patches).Nodup
  unpatched : ∀ c ∈ o.scopes, ∀ pc ∈ c.patches, o.rt.word pc = some .patch
  begun : ∀ c ∈ o.scopes, c.pc.line ≤ (o.rt.pages c.pc.page).lineIndex

structure Good (fn : M3FuncType) (active : List Nat) (o : M3Compilation) : Prop where
  frame : FrameGood fn o
  slots : SlotsGood o
  code : CodeGood active o

/-- A scope, after code was compiled inside it. -/
structure ScopeExt (o : M3Compilation) (c c' : M3CompilationScope) : Prop where
  same : c' = { c with patches := c'.patches, isPolymorphic := c'.isPolymorphic }
  patches : ∃ added, c'.patches = added ++ c.patches ∧ ∀ pc ∈ added, o.rt.word pc = none

/-- What compiling inside the current block leaves as it was. -/
structure Ext (active : List Nat) (o o' : M3Compilation) : Prop where
  writes : Writes active o o'
  block : ScopeExt o o.block o'.block
  outer : List.Forall₂ (fun c c' => ScopeExt o c c' ∧ c'.isPolymorphic = c.isPolymorphic)
    o.outer o'.outer
  entries : ∀ i < o.block.blockStackIndex, o'.wasmStack i = o.wasmStack i ∧
    o'.typeStack i = o.typeStack i
  numArgsAndLocals : o'.numArgsAndLocals = o.numArgsAndLocals
  stackFirstDynamicIndex : o'.stackFirstDynamicIndex = o.stackFirstDynamicIndex
  slotFirstConstIndex : o'.slotFirstConstIndex = o.slotFirstConstIndex
  slotFirstDynamicIndex : o'.slotFirstDynamicIndex = o.slotFirstDynamicIndex
  maxStackSlots : o.maxStackSlots ≤ o'.maxStackSlots
  constants : ∀ n, o.slotFirstConstIndex ≤ n → n < o.slotFirstDynamicIndex → o.m3Slots n ≠ 0 →
    o'.m3Slots n ≠ 0 ∧ o'.constants (n - o.slotFirstConstIndex) =
      o.constants (n - o.slotFirstConstIndex)

variable {fn : M3FuncType} {active : List Nat} {o o' o'' : M3Compilation}

/-! ## Scopes -/

theorem Scoped.block_le {base : Nat} {c : M3CompilationScope} {outer : List M3CompilationScope}
    (h : Scoped fn base c outer) : ∀ c' ∈ c :: outer, c'.blockStackIndex ≤ c.blockStackIndex := by
  induction outer generalizing c with
  | nil =>
    intro c' hmem
    rw [List.mem_singleton.mp hmem]
  | cons next rest ih =>
    rcases h with ⟨hblock, -, -, -, hnext, hrest⟩
    intro c' hmem
    rcases List.mem_cons.mp hmem with rfl | hmem
    · exact Nat.le_refl _
    · exact Nat.le_trans (ih hrest c' hmem) (by omega)

theorem Scoped.base_le {base : Nat} {c : M3CompilationScope} {outer : List M3CompilationScope}
    (h : Scoped fn base c outer) : base ≤ c.blockStackIndex := by
  induction outer generalizing c with
  | nil => exact Nat.le_of_eq h.1.symm
  | cons next rest ih =>
    rcases h with ⟨hblock, -, -, -, hnext, hrest⟩
    exact Nat.le_trans (ih hrest) (by omega)

/-- The function's own scope, or that of a block. -/
theorem Scoped.of_mem {base : Nat} {c : M3CompilationScope} {outer : List M3CompilationScope}
    (h : Scoped fn base c outer) : ∀ c' ∈ c :: outer,
      c'.opcode = .function ∧ c'.blockStackIndex = base ∧ c'.depth = 0 ∧ c'.type = fn ∨
      c'.opcode ≠ .function ∧
        c'.blockStackIndex = c'.exitStackIndex + c'.type.rets.length ∧ c'.type.Mvp := by
  induction outer generalizing c with
  | nil =>
    intro c' hmem
    rw [List.mem_singleton.mp hmem]
    exact .inl ⟨h.2.2.1, h.1, h.2.2.2⟩
  | cons next rest ih =>
    rcases h with ⟨hblock, hmvp, hopcode, -, -, hrest⟩
    intro c' hmem
    rcases List.mem_cons.mp hmem with rfl | hmem
    · exact .inr ⟨hopcode, hblock, hmvp⟩
    · exact ih hrest c' hmem

theorem FrameGood.open_of_le (h : FrameGood fn o) {i : Nat} (hi : o.block.blockStackIndex ≤ i) :
    Open o.scopes i := fun c hmem => .inr (Nat.le_trans (h.nested.block_le c hmem) hi)

theorem FrameGood.base_le (h : FrameGood fn o) : o.stackFirstDynamicIndex ≤ o.block.blockStackIndex :=
  h.nested.base_le

/-! ## Extension -/

theorem ScopeExt.refl (o : M3Compilation) (c : M3CompilationScope) : ScopeExt o c c :=
  ⟨rfl, [], rfl, fun _ h => by cases h⟩

theorem ScopeExt.trans {c c' c'' : M3CompilationScope} (h : ScopeExt o c c')
    (h' : ScopeExt o' c' c'') (hwrites : Writes active o o') : ScopeExt o c c'' := by
  rcases h.patches with ⟨added, heq, hfresh⟩
  rcases h'.patches with ⟨added', heq', hfresh'⟩
  refine ⟨?_, added' ++ added, ?_, fun pc hmem => ?_⟩
  · rw [h'.same, h.same]
  · rw [heq', heq, List.append_assoc]
  · rcases List.mem_append.mp hmem with hmem | hmem
    · exact hwrites.word_none (hfresh' pc hmem)
    · exact hfresh pc hmem

theorem Ext.refl (o : M3Compilation) : Ext active o o := by
  refine ⟨.refl o, .refl o _, ?_, fun _ _ => ⟨rfl, rfl⟩, rfl, rfl, rfl, rfl, Nat.le_refl _,
    fun _ _ _ h => ⟨h, rfl⟩⟩
  exact List.forall₂_same.mpr fun c _ => ⟨.refl o c, rfl⟩

theorem ScopeExt.blockStackIndex {c c' : M3CompilationScope} (h : ScopeExt o c c') :
    c'.blockStackIndex = c.blockStackIndex := by rw [h.same]

theorem forall₂_trans {α : Type} {R S T : α → α → Prop} (h : ∀ a b c, R a b → S b c → T a c) :
    ∀ {l l' l'' : List α}, List.Forall₂ R l l' → List.Forall₂ S l' l'' → List.Forall₂ T l l''
  | _, _, _, .nil, .nil => .nil
  | _, _, _, .cons h₁ hs₁, .cons h₂ hs₂ => .cons (h _ _ _ h₁ h₂) (forall₂_trans h hs₁ hs₂)

theorem forall₂_mem {α : Type} {R : α → α → Prop} {l l' : List α} (h : List.Forall₂ R l l') {b : α}
    (hb : b ∈ l') : ∃ a ∈ l, R a b := by
  induction h with
  | nil => cases hb
  | @cons a b' l l' hab hl ih =>
    rcases List.mem_cons.mp hb with rfl | hb
    · exact ⟨a, List.mem_cons_self .., hab⟩
    · rcases ih hb with ⟨a', hmem, ha'⟩
      exact ⟨a', List.mem_cons_of_mem _ hmem, ha'⟩

theorem forall₂_getElem? {α : Type} {R : α → α → Prop} {l l' : List α} (h : List.Forall₂ R l l')
    {i : Nat} {a : α} (ha : l[i]? = some a) : ∃ b, l'[i]? = some b ∧ R a b := by
  induction h generalizing i with
  | nil => cases ha
  | @cons b b' l l' hb hl ih =>
    cases i with
    | zero =>
      cases ha
      exact ⟨b', rfl, hb⟩
    | succ i => exact ih ha

theorem Ext.trans (h : Ext active o o') (h' : Ext active o' o'') : Ext active o o'' := by
  have hblock := h.block.blockStackIndex
  refine ⟨h.writes.trans h'.writes, h.block.trans h'.block h.writes, ?_, fun i hi => ?_,
    h'.numArgsAndLocals.trans h.numArgsAndLocals,
    h'.stackFirstDynamicIndex.trans h.stackFirstDynamicIndex,
    h'.slotFirstConstIndex.trans h.slotFirstConstIndex,
    h'.slotFirstDynamicIndex.trans h.slotFirstDynamicIndex,
    Nat.le_trans h.maxStackSlots h'.maxStackSlots, fun n hlow hhigh hused => ?_⟩
  · refine forall₂_trans (fun c c' c'' hc hc' => ?_) h.outer h'.outer
    exact ⟨hc.1.trans hc'.1 h.writes, hc'.2.trans hc.2⟩
  · have hentry := h'.entries i (hblock ▸ hi)
    rw [hentry.1, hentry.2]
    exact h.entries i hi
  · rcases h.constants n hlow hhigh hused with ⟨hused', heq⟩
    have hnext := h'.constants n (h.slotFirstConstIndex ▸ hlow) (h.slotFirstDynamicIndex ▸ hhigh)
      hused'
    rw [h.slotFirstConstIndex] at hnext
    exact ⟨hnext.1, hnext.2.trans heq⟩

theorem Ext.scopes (h : Ext active o o') : List.Forall₂ (ScopeExt o) o.scopes o'.scopes :=
  .cons h.block (h.outer.imp fun _ _ hc => hc.1)

theorem open_congr {i : Nat} {l l' : List M3CompilationScope}
    (h : List.Forall₂ (ScopeExt o) l l') : Open l' i ↔ Open l i := by
  induction h with
  | nil => exact Iff.rfl
  | @cons c c' l l' hc hl ih =>
    have hcons : ∀ (c : M3CompilationScope) l, Open (c :: l) i ↔
        (i < c.exitStackIndex ∨ c.blockStackIndex ≤ i) ∧ Open l i :=
      fun c l => List.forall_mem_cons
    rw [hcons, hcons, ih, hc.same]

theorem Ext.open_iff (h : Ext active o o') (i : Nat) : Open o'.scopes i ↔ Open o.scopes i :=
  open_congr h.scopes

theorem Scoped.of_ext {base : Nat} {c c' : M3CompilationScope} {outer outer' : List M3CompilationScope}
    (h : Scoped fn base c outer) (hc : ScopeExt o c c')
    (houter : List.Forall₂ (ScopeExt o) outer outer') : Scoped fn base c' outer' := by
  induction houter generalizing c c' with
  | nil =>
    rw [hc.same]
    exact h
  | @cons next next' rest rest' hnext hrest ih =>
    rcases h with ⟨hblock, hmvp, hopcode, hdepth, hle, hscoped⟩
    have hnext' := hnext.blockStackIndex
    have hlength := hrest.length_eq
    rw [hc.same, Scoped]
    exact ⟨hblock, hmvp, hopcode, hlength ▸ hdepth, hnext' ▸ hle, ih hscoped hnext⟩

/-- A block with a result has its record below its own values. -/
theorem Scoped.exit_lt {base : Nat} {c : M3CompilationScope} {outer : List M3CompilationScope}
    (h : Scoped fn base c outer) :
    ∀ c' ∈ c :: outer, c'.opcode ≠ .function → c'.type.rets ≠ [] →
      c'.exitStackIndex < c.blockStackIndex := by
  induction outer generalizing c with
  | nil =>
    intro c' hmem hopcode
    rw [List.mem_singleton.mp hmem] at hopcode
    exact absurd h.2.2.1 hopcode
  | cons next rest ih =>
    rcases h with ⟨hblock, hmvp, hopcode, hdepth, hle, hscoped⟩
    intro c' hmem hfunction hrets
    rcases List.mem_cons.mp hmem with rfl | hmem
    · have hlength := List.length_pos_iff.mpr hrets
      omega
    · exact Nat.lt_of_lt_of_le (ih hscoped c' hmem hfunction hrets) (by omega)

theorem covers_congr {wasmStack wasmStack' : Nat → Nat} {typeStack typeStack' : Nat → M3ValueType}
    {i n : Nat} (hslot : wasmStack' i = wasmStack i) (htype : typeStack' i = typeStack i) :
    Covers wasmStack' typeStack' i n ↔ Covers wasmStack typeStack i n := by
  rw [Covers, Covers, hslot, htype]

theorem Ext.covers_iff (h : Ext active o o') {i : Nat} (hi : i < o.block.blockStackIndex) (n : Nat) :
    Covers o'.wasmStack o'.typeStack i n ↔ Covers o.wasmStack o.typeStack i n :=
  covers_congr (h.entries i hi).1 (h.entries i hi).2

theorem FrameGood.of_ext (h : FrameGood fn o) (hext : Ext active o o') : FrameGood fn o' := by
  have hbase := h.base_le
  have hbelow : ∀ i < o.stackFirstDynamicIndex, i < o.block.blockStackIndex :=
    fun i hi => Nat.lt_of_lt_of_le hi hbase
  refine ⟨⟨?_, ?_, ?_, ?_, ?_, ?_, ?_, ?_⟩, ?_, ?_⟩
  · rw [hext.numArgsAndLocals, hext.stackFirstDynamicIndex]
    exact h.layout.numArgsAndLocals
  · intro i hi
    rw [hext.stackFirstDynamicIndex] at hi
    rw [(hext.entries i (hbelow i hi)).2]
    exact h.layout.ints i hi
  · intro i hi
    rw [hext.stackFirstDynamicIndex] at hi
    rw [(hext.entries i (hbelow i hi)).1]
    exact h.layout.results i hi
  · intro i hi
    rw [hext.stackFirstDynamicIndex] at hi
    rw [(hext.entries i (hbelow i hi)).1, (hext.entries i (hbelow i hi)).2,
      hext.slotFirstConstIndex]
    exact h.layout.locals i hi
  · intro i hi j hj n
    rw [hext.stackFirstDynamicIndex] at hi hj
    rw [hext.covers_iff (hbelow i hi), hext.covers_iff (hbelow j hj)]
    exact h.layout.apart i hi j hj n
  · rw [hext.slotFirstConstIndex]
    exact h.layout.afterResults
  · rw [hext.slotFirstConstIndex, hext.slotFirstDynamicIndex]
    exact h.layout.consts
  · rw [hext.slotFirstDynamicIndex]
    exact h.layout.dynamic
  · rw [hext.stackFirstDynamicIndex]
    exact h.nested.of_ext hext.block (hext.outer.imp fun _ _ hc => hc.1)
  · intro c' hmem' hopcode' hrets'
    rcases forall₂_mem hext.scopes hmem' with ⟨c, hmem, hc⟩
    have hsame := hc.same
    have hexit : c'.exitStackIndex = c.exitStackIndex := by rw [hsame]
    have htype : c'.type = c.type := by rw [hsame]
    have hopcode : c'.opcode = c.opcode := by rw [hsame]
    have hrecorded := h.recorded c hmem (hopcode ▸ hopcode') (htype ▸ hrets')
    have hlt := h.nested.exit_lt c hmem (hopcode ▸ hopcode') (htype ▸ hrets')
    refine ⟨?_, ?_, ?_, fun i hi hlow hopen n => ?_⟩
    · rw [htype, hexit, (hext.entries _ hlt).2]
      exact hrecorded.type
    · rw [hexit, (hext.entries _ hlt).1, hext.slotFirstDynamicIndex]
      exact hrecorded.low
    · rw [hexit, (hext.entries _ hlt).1, (hext.entries _ hlt).2]
      exact hrecorded.high
    · rw [hexit] at hi ⊢
      rw [hext.stackFirstDynamicIndex] at hlow
      rw [hext.covers_iff hlt, hext.covers_iff (Nat.lt_trans hi hlt)]
      exact hrecorded.apart i hi hlow ((hext.open_iff i).mp hopen) n

theorem Writes.lines (h : Writes active o o') (page : Nat) :
    (o.rt.pages page).lineIndex ≤ (o'.rt.pages page).lineIndex := by
  by_contra hlt
  have hword : o.rt.word ⟨page, (o'.rt.pages page).lineIndex⟩ = some _ :=
    if_pos (Nat.lt_of_not_le hlt)
  have hword' := h.words _ _ hword
  rw [M3CodePages.word, if_neg (Nat.lt_irrefl _)] at hword'
  cases hword'

theorem CodeGood.of_writes {active' : List Nat} (h : CodeGood active' o)
    (hwrites : Writes active o o') (hwritable : Writable active 0 o')
    (hscopes : o'.scopes = o.scopes) : CodeGood active o' := by
  refine ⟨hwritable, ?_, ?_, ?_⟩
  · rw [hscopes]
    exact h.patches
  · rw [hscopes]
    exact fun c hmem pc hpc => hwrites.words pc _ (h.unpatched c hmem pc hpc)
  · rw [hscopes]
    exact fun c hmem => Nat.le_trans (h.begun c hmem) (hwrites.lines _)

/-! ## Emitting, and changing the stack -/

/-- What a step of the compiler keeps, with the room it leaves on the page. -/
structure Kept (fn : M3FuncType) (active : List Nat) (n : Nat) (o o' : M3Compilation) : Prop where
  ext : Ext active o o'
  good : Good fn active o'
  room : Writable active n o'

theorem Kept.trans {n m : Nat} (h : Kept fn active n o o') (h' : Kept fn active m o' o'') :
    Kept fn active m o o'' := ⟨h.ext.trans h'.ext, h'.good, h'.room⟩

theorem Kept.refl {n : Nat} (h : Good fn active o) (hroom : Writable active n o) :
    Kept fn active n o o := ⟨.refl o, h, hroom⟩

theorem Kept.mono {n m : Nat} (h : Kept fn active n o o') (hle : m ≤ n) : Kept fn active m o o' :=
  ⟨h.ext, h.good, h.room.mono hle⟩

/-- Only words were written. -/
def Emitted (o o' : M3Compilation) : Prop := o' = { o with rt := o'.rt, page := o'.page }

theorem Emitted.refl (o : M3Compilation) : Emitted o o := rfl

theorem Emitted.trans (h : Emitted o o') (h' : Emitted o' o'') : Emitted o o'' := by
  rw [Emitted] at h h' ⊢
  rw [h] at h'
  exact h'

theorem EntryIn.of_emitted {i : Nat} (h : EntryIn o i) (hemitted : Emitted o o') :
    EntryIn o' i := by
  rw [hemitted]
  cases h with
  | ofLocal j hj hslot htype hblock => exact .ofLocal j hj hslot htype hblock
  | constant hlow hhigh hused => exact .constant hlow hhigh hused
  | dynamic hlow hhigh => exact .dynamic hlow hhigh
  | register h => exact .register h

theorem SlotsGood.of_emitted (h : SlotsGood o) (hemitted : Emitted o o') : SlotsGood o' := by
  have hentries := fun i hlow hlt hopen => (h.entries i hlow hlt hopen).of_emitted hemitted
  revert hentries
  rw [hemitted]
  exact fun hentries => ⟨h.height, h.bounded, hentries, h.small, h.counted, h.bytes, h.touched,
    h.allocated, h.untouched, h.constants, h.constantsEnd, h.register, h.unique⟩

theorem FrameGood.of_emitted (h : FrameGood fn o) (hemitted : Emitted o o') : FrameGood fn o' := by
  rw [hemitted]
  have hlayout := h.layout
  refine ⟨⟨hlayout.numArgsAndLocals, hlayout.ints, hlayout.results, hlayout.locals, hlayout.apart,
    hlayout.afterResults, hlayout.consts, hlayout.dynamic⟩, h.nested, fun c hmem hop hrets => ?_⟩
  have hrecorded := h.recorded c hmem hop hrets
  exact ⟨hrecorded.type, hrecorded.low, hrecorded.high, hrecorded.apart⟩

theorem Good.room (h : Good fn active o) : Writable active 0 o := h.code.writable

/-- Only words were written, it may be to another page. -/
theorem Good.of_emit {n : Nat} {active' : List Nat} (h : Good fn active' o)
    (hemitted : Emitted o o') (hwritable : Writable active n o')
    (hwrites : Writes active o o') : Kept fn active n o o' := by
  have hext : Ext active o o' := by
    have heq : o' = { o with rt := o'.rt, page := o'.page } := hemitted
    rw [heq] at hwrites ⊢
    exact ⟨hwrites, .refl o _, List.forall₂_same.mpr fun c _ => ⟨.refl o c, rfl⟩,
      fun _ _ => ⟨rfl, rfl⟩, rfl, rfl, rfl, rfl, Nat.le_refl _, fun _ _ _ hused => ⟨hused, rfl⟩⟩
  refine ⟨hext, ⟨h.frame.of_emitted hemitted, h.slots.of_emitted hemitted, ?_⟩, hwritable⟩
  refine h.code.of_writes hwrites (hwritable.mono (Nat.zero_le n)) ?_
  rw [hemitted]
  rfl

theorem Good.emit {n : Nat} {w : CodeWord} (h : Good fn active o) (hroom : Writable active (n + 1) o) :
    Kept fn active n o (o.emit w) := h.of_emit rfl hroom.emit hroom.writes_emit

theorem Good.ensureCodePageNumLines {n : Nat} (h : Good fn active o)
    (ho : o.ensureCodePageNumLines n = .ok o') : Kept fn active n o o' := by
  rcases ensureCodePageNumLines_writable ho h.room with ⟨hroom, hwrites, -⟩
  exact h.of_emit (ensureCodePageNumLines_eq ho) hroom hwrites

theorem Good.emitOp {op : M3Op} (h : Good fn active o) (ho : o.emitOp op = .ok o') :
    Kept fn active 5 o o' := by
  rcases emitOp_eq ho with ⟨o₁, ho₁, rfl⟩
  have hkept := h.ensureCodePageNumLines ho₁
  exact hkept.trans (hkept.good.emit hkept.room)

/-- The fields that changing the stack inside a block leaves alone. -/
structure SameShape (o o' : M3Compilation) : Prop where
  rt : o'.rt = o.rt
  page : o'.page = o.page
  block : o'.block = o.block
  outer : o'.outer = o.outer
  numArgsAndLocals : o'.numArgsAndLocals = o.numArgsAndLocals
  stackFirstDynamicIndex : o'.stackFirstDynamicIndex = o.stackFirstDynamicIndex
  slotFirstConstIndex : o'.slotFirstConstIndex = o.slotFirstConstIndex
  slotFirstDynamicIndex : o'.slotFirstDynamicIndex = o.slotFirstDynamicIndex
  maxStackSlots : o.maxStackSlots ≤ o'.maxStackSlots
  allocated : o.slotMaxAllocatedIndexPlusOne ≤ o.maxStackSlots →
    o'.slotMaxAllocatedIndexPlusOne ≤ o'.maxStackSlots

/-- Only the entries of the current block and the slots were changed. -/
theorem Good.of_slots {n : Nat} (h : Good fn active o) (hshape : SameShape o o')
    (hroom : Writable active n o)
    (hentries : ∀ i < o.block.blockStackIndex, o'.wasmStack i = o.wasmStack i ∧
      o'.typeStack i = o.typeStack i)
    (hconstants : ∀ n, o.slotFirstConstIndex ≤ n → n < o.slotFirstDynamicIndex → o.m3Slots n ≠ 0 →
      o'.m3Slots n ≠ 0 ∧ o'.constants (n - o.slotFirstConstIndex) =
        o.constants (n - o.slotFirstConstIndex))
    (hslots : SlotsGood o') : Kept fn active n o o' := by
  have hwrites : Writes active o o' := .of_rt hshape.rt
  have hext : Ext active o o' := by
    refine ⟨hwrites, ?_, ?_, hentries, hshape.numArgsAndLocals, hshape.stackFirstDynamicIndex,
      hshape.slotFirstConstIndex, hshape.slotFirstDynamicIndex, hshape.maxStackSlots, hconstants⟩
    · rw [hshape.block]
      exact .refl o _
    · rw [hshape.outer]
      exact List.forall₂_same.mpr fun c _ => ⟨.refl o c, rfl⟩
  have hscopes : o'.scopes = o.scopes := by rw [scopes, scopes, hshape.block, hshape.outer]
  have hroom' := hroom.of_eq hshape.rt hshape.page
  exact ⟨hext, ⟨h.frame.of_ext hext, hslots,
    h.code.of_writes hwrites (hroom'.mono (Nat.zero_le n)) hscopes⟩, hroom'⟩

end M3Compilation

end WebAssemblyRuntime.Wasm3
