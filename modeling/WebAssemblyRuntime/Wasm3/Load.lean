import WebAssemblyRuntime.Wasm3.Parse

/-!
# Load — `m3_LoadModule` and `m3_CompileModule`

What compiles and runs single expressions and function bodies is an `Engine`; loading only decides
what it is asked for and where its results go.
-/

open WebAssemblyRuntime.Reasoning

namespace WebAssemblyRuntime.Wasm3

def d_m3MaxSaneTableSize : Nat := 10000000

/-- The part of the interpreter that loading calls into: the value of an initialiser expression
with the bytes after it, and the frame layout of a function compiled from its body. -/
structure Engine where
  evaluateExpression : M3Module → M3ValueType → Bytes → Except M3Err (UInt64 × Bytes)
  compileFunction : M3Module → Nat → Except M3Err FrameLayout

variable (engine : Engine)

/-- One iteration of `InitGlobals`; an imported global is left alone. -/
def initGlobal (i : Nat) (m : M3Module) : Except M3Err M3Module :=
  match m.globals[i]?.bind fun g => g.initExpr.map (g.type, ·) with
  | none => .ok m
  | some (type, initExpr) => do
    let (value, _) ← engine.evaluateExpression m type initExpr
    .ok { m with globals := m.globals.modify i fun g => { g with i64Value := value } }

def initGlobals (m : M3Module) : Except M3Err M3Module :=
  loop (initGlobal engine) m.globals.length 0 m

/-- The `memcpy` of a data segment. -/
def M3Block.copy (b : M3Block) (offset : Nat) (data : Bytes) : M3Block :=
  { b with bytes := fun i =>
      if offset ≤ i ∧ i < offset + data.length then data.getD (i - offset) 0 else b.bytes i }

/-- One iteration of `InitDataSegments`. -/
def initDataSegment (m : M3Module) (i : Nat) (b : M3Block) : Except M3Err M3Block :=
  match m.dataSegments[i]? with
  | none => .ok b
  | some segment => do
    let (value, _) ← engine.evaluateExpression m .i32 segment.initExpr
    -- an `i32`, so an offset from `2^31` on is negative
    let segmentOffset := value.toUInt32.toInt32.toInt
    if 0 ≤ segmentOffset ∧ segmentOffset.toNat + segment.data.length ≤ b.length then
      .ok (b.copy segmentOffset.toNat segment.data)
    else .error .dataSegmentOutOfBounds

/-- `InitDataSegments`, which wants a linear memory even when there is no segment. -/
def initDataSegments (m : M3Module) (rt : M3Runtime) : Except M3Err M3Runtime :=
  match rt.memory.mallocated with
  | none => .error .unallocatedLinearMemory
  | some b => do
    let b ← loop (initDataSegment engine m) m.dataSegments.length 0 b
    .ok { rt with memory := { rt.memory with mallocated := some b } }

/-- One function index of an element segment, put into slot `offset + e`. -/
def initElement (offset e : Nat) (s : M3Module × Bytes) : Except M3Err (M3Module × Bytes) := do
  let (functionIndex, bytes) ← readLEBu32 s.2
  throwIf .functionIndexOutOfRange (s.1.functions.length ≤ functionIndex.toNat)
  .ok ({ s.1 with table0 := s.1.table0.set (e + offset) (some functionIndex.toNat) }, bytes)

/-- One iteration of `InitElements`; the table is never made shorter. -/
def initElementSegment (_ : Nat) (s : M3Module × Bytes) : Except M3Err (M3Module × Bytes) := do
  let (index, bytes) ← readLEBu32 s.2
  if index = 0 then
    let (value, bytes) ← engine.evaluateExpression s.1 .i32 bytes
    let offset := value.toUInt32.toInt32.toInt
    throwIf .tableUnderflow (offset < 0)
    let (numElements, bytes) ← readLEBu32 bytes
    let endElement := numElements.toNat + offset.toNat
    throwIf .tableOverflow (d_m3MaxSaneTableSize < endElement)
    -- the new slots are zeroed; an empty table is a null pointer, taken for a failed allocation
    let table0 := s.1.table0 ++ List.replicate (endElement - s.1.table0.length) none
    throwIf .mallocFailed (table0 = [])
    loop (initElement offset.toNat) numElements.toNat 0 ({ s.1 with table0 }, bytes)
  else .error .elementTableIndex

def initElements (m : M3Module) : Except M3Err M3Module := do
  let (m, _) ← loop (initElementSegment engine) m.numElementSegments 0 (m, m.elementSection)
  .ok m

/-- A result code as the `_ (..)` macro passes it on. -/
def checkResult : M3Result × M3Runtime → Except M3Err M3Runtime
  | (some e, _) => .error e
  | (none, rt) => .ok rt

/-- `m3_LoadModule` of a fresh module. -/
def m3LoadModule (rt : M3Runtime) (m : M3Module) (os : SysCalls) :
    Except M3Err (M3Runtime × M3Module) := do
  let rt ← checkResult (initMemory rt m.memoryInfo m.memoryImported os)
  let m ← initGlobals engine m
  let rt ← initDataSegments engine m rt
  let m ← initElements engine m
  .ok (rt, m)

/-- One iteration of `m3_CompileModule`. -/
def compileFunctionAt (i : Nat) (s : M3Module × (Nat → FrameLayout)) :
    Except M3Err (M3Module × (Nat → FrameLayout)) :=
  match s.1.functions[i]? with
  | none => .ok s
  | some f =>
    -- an import has no body, and a linked one is compiled already
    if f.wasm.isSome ∧ f.compiled = none then do
      let layout ← engine.compileFunction s.1 i
      .ok ({ s.1 with functions := s.1.functions.modify i fun f => { f with compiled := some .wasm } },
        Function.update s.2 i layout)
    else .ok s

/-- `m3_CompileModule`: the module and the frame layouts of its functions. -/
def m3CompileModule (m : M3Module) : Except M3Err (M3Module × (Nat → FrameLayout)) :=
  loop (compileFunctionAt engine) m.functions.length 0 (m, fun _ => {})

/-! ## What loading changes -/

variable {engine} {m m' : M3Module} {rt rt' : M3Runtime}

/-- Every slot of the table is null or one of the module's functions. -/
def TableInRange (m : M3Module) : Prop := ∀ fn, some fn ∈ m.table0 → fn < m.functions.length

theorem initGlobals_ok (h : initGlobals engine m = .ok m') :
    ∃ globals, m' = { m with globals } ∧ globals.length = m.globals.length := by
  apply loop_invariant (P := fun _ s => ∃ globals, s = { m with globals } ∧
    globals.length = m.globals.length) _ ⟨_, rfl, rfl⟩ h
  rintro i s t ⟨globals, rfl, hlength⟩ hstep
  unfold initGlobal at hstep
  split at hstep
  · cases hstep
    exact ⟨_, rfl, hlength⟩
  · rcases bind_ok hstep with ⟨⟨value, rest⟩, -, hstep⟩
    cases hstep
    exact ⟨_, rfl, (List.length_modify _ _ _).trans hlength⟩

/-- Data segments change bytes of an allocated memory. -/
theorem initDataSegments_ok (h : initDataSegments engine m rt = .ok rt') :
    ∃ b b' : M3Block, rt.memory.mallocated = some b ∧ b'.length = b.length ∧
      rt' = { rt with memory := { rt.memory with mallocated := some b' } } := by
  unfold initDataSegments at h
  split at h
  · cases h
  · rename_i b hb
    rcases bind_ok h with ⟨b', hloop, h⟩
    cases h
    refine ⟨b, b', hb, ?_, rfl⟩
    apply loop_invariant (P := fun _ c => c.length = b.length) _ rfl hloop
    intro i c d hc hstep
    unfold initDataSegment at hstep
    split at hstep
    · cases hstep
      exact hc
    · rcases bind_ok hstep with ⟨⟨value, rest⟩, -, hstep⟩
      simp only at hstep
      split at hstep
      · cases hstep
        exact hc
      · cases hstep

theorem initElement_ok {offset e : Nat} {s t : M3Module × Bytes} (hs : TableInRange s.1)
    (h : initElement offset e s = .ok t) :
    TableInRange t.1 ∧ t.1 = { s.1 with table0 := t.1.table0 } := by
  rcases bind_ok h with ⟨⟨functionIndex, rest⟩, -, h⟩
  rcases bind_ok h with ⟨_, hcond, h⟩
  have hindex := of_decide_eq_false (throwIf_ok hcond)
  cases h
  refine ⟨fun fn hfn => ?_, rfl⟩
  rcases List.mem_or_eq_of_mem_set hfn with hfn | hfn
  · exact hs fn hfn
  · cases hfn
    exact Nat.lt_of_not_le hindex

theorem initElementSegment_ok {i : Nat} {s t : M3Module × Bytes} (hs : TableInRange s.1)
    (h : initElementSegment engine i s = .ok t) :
    TableInRange t.1 ∧ t.1 = { s.1 with table0 := t.1.table0 } := by
  rcases bind_ok h with ⟨⟨index, bytes⟩, -, h⟩
  simp only at h
  split at h
  · rcases bind_ok h with ⟨⟨value, bytes'⟩, -, h⟩
    rcases bind_ok h with ⟨-, -, h⟩
    rcases bind_ok h with ⟨⟨numElements, bytes''⟩, -, h⟩
    rcases bind_ok h with ⟨-, -, h⟩
    rcases bind_ok h with ⟨-, -, h⟩
    apply loop_invariant (P := fun _ c => TableInRange c.1 ∧
      c.1 = { s.1 with table0 := c.1.table0 }) _ _ h
    · rintro i c d ⟨hc, hframe⟩ hstep
      rcases initElement_ok hc hstep with ⟨hd, hframe'⟩
      refine ⟨hd, ?_⟩
      rw [hframe', hframe]
    -- the new slots are null
    · refine ⟨fun fn hfn => ?_, rfl⟩
      rcases List.mem_append.mp hfn with hfn | hfn
      · exact hs fn hfn
      · cases (List.mem_replicate.mp hfn).2
  · cases h

theorem initElements_ok (hm : TableInRange m) (h : initElements engine m = .ok m') :
    TableInRange m' ∧ m' = { m with table0 := m'.table0 } := by
  rcases bind_ok h with ⟨⟨m₁, rest⟩, hloop, h⟩
  cases h
  apply loop_invariant (P := fun _ c => TableInRange c.1 ∧ c.1 = { m with table0 := c.1.table0 }) _
    ⟨hm, rfl⟩ hloop
  rintro i c d ⟨hc, hframe⟩ hstep
  rcases initElementSegment_ok hc hstep with ⟨hd, hframe'⟩
  refine ⟨hd, ?_⟩
  rw [hframe', hframe]

/-- What a loaded module is to the parsed one. -/
structure Loaded (m : M3Module) (rt : M3Runtime) (os : SysCalls) (rt' : M3Runtime)
    (m' : M3Module) : Prop where
  functions : m'.functions = m.functions
  startFunction : m'.startFunction = m.startFunction
  globals : m'.globals.length = m.globals.length
  table : TableInRange m'
  memory : ∃ rt₁ b b', initMemory rt m.memoryInfo m.memoryImported os = (none, rt₁) ∧
    rt₁.memory.mallocated = some b ∧ b'.length = b.length ∧
    rt' = { rt₁ with memory := { rt₁.memory with mallocated := some b' } }

theorem m3LoadModule_ok {os : SysCalls} (hm : m.table0 = [])
    (h : m3LoadModule engine rt m os = .ok (rt', m')) : Loaded m rt os rt' m' := by
  rcases bind_ok h with ⟨rt₁, hmemory, h⟩
  rcases bind_ok h with ⟨m₁, hglobals, h⟩
  rcases bind_ok h with ⟨rt₂, hdata, h⟩
  rcases bind_ok h with ⟨m₂, helements, h⟩
  cases h
  rcases initGlobals_ok hglobals with ⟨globals, rfl, hlength⟩
  rcases initDataSegments_ok hdata with ⟨b, b', hb, hb', hrt⟩
  have hstart : TableInRange { m with globals } := by
    intro fn hfn
    rw [hm] at hfn
    exact absurd hfn List.not_mem_nil
  rcases initElements_ok hstart helements with ⟨htable, hframe⟩
  constructor
  · rw [hframe]
  · rw [hframe]
  · rw [hframe]
    exact hlength
  · exact htable
  · refine ⟨rt₁, b, b', ?_, hb, hb', hrt⟩
    unfold checkResult at hmemory
    split at hmemory
    · cases hmemory
    · rename_i heq
      cases hmemory
      exact heq

/-- A function before and after `m3_CompileModule`. -/
def CompiledFrom (f f' : M3Function) : Prop :=
  f' = f ∨ f.compiled = none ∧ f' = { f with compiled := some .wasm }

/-- Compilation only gives code to functions that had none. -/
structure CompiledModule (m m' : M3Module) : Prop where
  frame : m' = { m with functions := m'.functions }
  length : m'.functions.length = m.functions.length
  functions : ∀ (i : Nat) f f', m.functions[i]? = some f → m'.functions[i]? = some f' →
    CompiledFrom f f'

theorem compileFunctionAt_ok {i : Nat} {s t : M3Module × (Nat → FrameLayout)}
    (hs : CompiledModule m s.1) (h : compileFunctionAt engine i s = .ok t) :
    CompiledModule m t.1 := by
  unfold compileFunctionAt at h
  split at h
  · cases h
    exact hs
  · rename_i f hf
    by_cases hcompile : f.wasm.isSome ∧ f.compiled = none
    · rw [if_pos hcompile] at h
      rcases bind_ok h with ⟨layout, -, h⟩
      cases h
      constructor
      · show ({ s.1 with functions := _ } : M3Module) = _
        rw [hs.frame]
      · exact (List.length_modify _ _ _).trans hs.length
      · intro j g g' hg hg'
        change (s.1.functions.modify i _)[j]? = some g' at hg'
        rw [List.getElem?_modify] at hg'
        rcases Option.map_eq_some_iff.mp hg' with ⟨g₁, hg₁, hsame⟩
        have hfrom := hs.functions j g g₁ hg hg₁
        -- only function `i` gets code, and it had none
        by_cases hij : i = j
        · subst hij
          cases hf.symm.trans hg₁
          rw [if_pos rfl] at hsame
          rcases hfrom with rfl | ⟨hnone, rfl⟩
          · exact .inr ⟨hcompile.2, hsame.symm⟩
          · cases hcompile.2
        · rw [if_neg hij] at hsame
          exact hsame ▸ hfrom
    · rw [if_neg hcompile] at h
      cases h
      exact hs

theorem m3CompileModule_ok {layout : Nat → FrameLayout}
    (h : m3CompileModule engine m = .ok (m', layout)) : CompiledModule m m' := by
  apply loop_invariant (P := fun _ s => CompiledModule m s.1) _ _ h
  · intro i s t hs hstep
    exact compileFunctionAt_ok hs hstep
  · refine ⟨rfl, rfl, fun i f f' hf hf' => ?_⟩
    exact .inl (Option.some.inj (hf'.symm.trans hf))

end WebAssemblyRuntime.Wasm3
