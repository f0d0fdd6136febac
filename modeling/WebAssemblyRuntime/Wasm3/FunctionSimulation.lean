import WebAssemblyRuntime.Wasm3.ConditionalSimulation
import WebAssemblyRuntime.Wasm3.FrameLayout
import WebAssemblyRuntime.Wasm3.StraightLine

/-!
# FunctionSimulation — a compiled function against the evaluator

`op_Entry` makes the frame that the compiler laid out, the body does what the evaluator says, and
`ReturnValues` leaves the results at the start of the frame.
-/

namespace WebAssemblyRuntime.Wasm3

open M3Compilation
open Reasoning (bind_ok)

variable {L : Activation} {targets : Nat → PC} {fn : M3FuncType} {active : List Nat}
  {o o' o'' : M3Compilation} {ρ : Nat → Value} {f : Frame} {st : M3State} {ctx : CompileContext}
  {outcome : Outcome} {Φ : M3Ret → M3State → Prop} {types : List M3ValueType}

/-! ## Bodies -/

section

variable {wide : Nat → Bool} {stackRoom calls fuel : Nat} {s : StackShape}

end

theorem readSlot_zero {t : IntType} {slots : Nat → BitVec 32} {n : Nat}
    (h : ∀ k, n ≤ k → k < n + t.numSlots → slots k = 0) : readSlot t slots n = 0 := by
  have hzero : readSlot t slots n = readSlot t (fun _ => 0) n := readSlot_congr h
  rw [hzero]
  cases t with
  | i32 => rfl
  | i64 => exact (by decide : (0 : BitVec 32) ++ (0 : BitVec 32) = (0 : BitVec 64))

variable {function : WasmFunction} {cf : CompiledFunction} {args : List Value}

/-- The locals that a call begins with. -/
def WasmFunction.initialLocals (function : WasmFunction) (args : List Value) : List Value :=
  args ++ function.locals.map .zero

theorem frameTypes_eq (hargs : Typed args.reverse function.type.args) :
    frameTypes function =
      (function.initialLocals args).map fun v => v.type.valueType := by
  have hmap : args.map (fun v => v.type.valueType) = function.type.args := by
    have htyped : args.reverse.reverse.map (fun v => v.type.valueType) = function.type.args := hargs
    rw [List.reverse_reverse] at htyped
    exact htyped
  rw [frameTypes, WasmFunction.initialLocals, List.map_append, hmap, List.map_map]
  rfl

/-- `op_Entry` makes the frame that the compiler laid out. -/
theorem M3Compilation.Framed.matches
    (h : Framed function cf.numRetAndArgSlots cf.numLocalSlots o)
    (hargs : Typed args.reverse function.type.args)
    (hpassed : Passed L.sp function.type.rets.length args st)
    (hnum : L.numConstants = cf.constants.length)
    (hconstants : ∀ k < L.numConstants, L.constants k = cf.constants.getD k 0) :
    Matches L o (fun i => (function.initialLocals args).getD i (.zero .i32))
      { locals := function.initialLocals args, stack := [], store := st.store }
      { st with r0 := 0, slots := enterFrame cf L.sp st.slots } := by
  have htypes := frameTypes_eq hargs
  have hlength : (frameTypes function).length = (function.initialLocals args).length := by
    rw [htypes, List.length_map]
  have hcount : args.length = function.type.args.length := by
    have hmap := congrArg List.length hargs
    rw [List.length_map, List.length_reverse, List.length_reverse] at hmap
    exact hmap
  have hfirst := h.constants
  have hretAndArgs := h.retAndArgs
  rw [c_ioSlotCount] at hretAndArgs
  have hvalue : ∀ i (hi : i < (frameTypes function).length),
      (function.initialLocals args)[i]? =
        some ((function.initialLocals args).getD i (.zero .i32)) := by
    intro i hi
    rw [hlength] at hi
    rw [List.getD_eq_getElem?_getD, List.getElem?_eq_getElem hi]
    rfl
  have htyped : ∀ i < (frameTypes function).length, o.typeStack i =
      ((function.initialLocals args).getD i (.zero .i32)).type.valueType := by
    intro i hi
    refine h.types i _ ?_
    rw [htypes, List.getElem?_map, hvalue i hi]
    rfl
  have hscope := h.scope
  refine ⟨⟨fun i hi _ => ?_, fun i hi _ => ?_, fun k hk => ?_⟩, ?_, ?_, fun i => ?_, rfl⟩
  · rw [h.index] at hi
    exact htyped i hi
  · rw [h.index] at hi
    have hend := h.ends i hi
    have hroom := h.room
    have hdynamic := h.dynamic
    have halias := slots_lt_alias
    rw [htyped i hi, numSlots_valueType] at hend
    rw [located_slot (by omega)]
    by_cases harg : i < args.length
    · -- the caller left the argument there
      have hat := h.args i (hcount ▸ harg)
      have hsplit : (function.initialLocals args)[i]? = args[i]? := List.getElem?_append_left harg
      have hv := hsplit.symm.trans (hvalue i hi)
      rw [hat, ← hpassed i _ hv]
      have hsmall := ((function.initialLocals args).getD i (.zero .i32)).type.numSlots_le
      rw [c_ioSlotCount] at hsmall ⊢
      refine readSlot_congr fun k hlow hhigh => ?_
      simp only [enterFrame]
      rw [if_neg (by omega), if_neg (by omega)]
    · -- a local is zero
      have hlow := h.locals i (by omega) hi
      have hsplit : (function.initialLocals args)[i]? =
          (function.locals.map .zero)[i - args.length]? :=
        List.getElem?_append_right (by omega)
      have hv := hsplit.symm.trans (hvalue i hi)
      rw [List.getElem?_map] at hv
      rcases Option.map_eq_some_iff.mp hv with ⟨t, -, hzero⟩
      rw [← hzero] at hend ⊢
      refine readSlot_zero fun k hlow' hhigh => ?_
      simp only [enterFrame]
      exact if_pos (by omega)
  · rw [hconstants k hk]
    simp only [enterFrame]
    rw [if_neg (by omega), if_pos (by omega)]
    congr 1
    omega
  · rw [hscope]
  · rw [hscope, h.index]
    rfl
  · rw [h.first]
    by_cases hi : i < (frameTypes function).length
    · rw [if_pos hi]
      exact hvalue i hi
    · rw [if_neg hi]
      exact List.getElem?_eq_none (hlength ▸ Nat.le_of_not_lt hi)

/-! ## Functions -/

theorem M3Compilation.Good.returnValuesAndPop {scope : M3CompilationScope} (h : Good fn active o)
    (ho : o.returnValues scope false = .ok o') : Kept fn active 0 o o' := by
  rcases (returnValues_cases ho).2 with ⟨o₁, hloop, hpop⟩
  rw [if_neg (by decide)] at hpop
  have hkept := (h.returnValueLoop hloop).1
  exact hkept.trans (hkept.good.popTimes hkept.room hpop).1

/-- The call that a compiled function runs in. -/
def CompiledFunction.activation (cf : CompiledFunction) (E : CodeImage) (sp depth frame : Nat) :
    Activation :=
  ⟨E, sp, depth, frame, fun k => cf.constants.getD k 0, cf.constants.length⟩

/-- The finished code, as the body was compiled into it. -/
theorem M3Compilation.Good.linked {E : CodeImage} {sp depth frame : Nat} (h : Good fn active o)
    (houter : o.outer = []) (hshows : Shows E.code o.rt) (hconstants : cf.constants =
      (List.range (o.slotMaxConstIndex - o.slotFirstConstIndex)).map o.constants)
    (hsmall : o.maxStackSlots + 2 ≤ frame) (targets : Nat → PC) :
    Linked (cf.activation E sp depth frame) targets o := by
  have hlength : cf.constants.length = o.slotMaxConstIndex - o.slotFirstConstIndex := by
    rw [hconstants, List.length_map, List.length_range]
  refine ⟨hshows, fun n hlow hhigh hused => ?_, ?_, hsmall, fun depth scope hscope hdepth => ?_⟩
  · have hlt := h.slots.constants n hlow hhigh hused
    have hn : n - o.slotFirstConstIndex < cf.constants.length := by omega
    refine ⟨hn, ?_⟩
    simp only [CompiledFunction.activation]
    rw [hlength] at hn
    rw [hconstants, List.getD_eq_getElem?_getD, List.getElem?_map, List.getElem?_range hn]
    rfl
  · have hend := h.slots.constantsEnd
    have hroom := h.frame.layout.consts
    simp only [CompiledFunction.activation]
    omega
  · have hscope' : scope = o.block := by
      have hmem := List.mem_of_getElem? hscope
      rw [scopes, houter, List.mem_singleton] at hmem
      exact hmem
    have hzero := h.frame.nested.depth_eq
    rw [houter] at hzero
    exact absurd (hscope' ▸ hzero) hdepth

theorem compileFunction_cases {rt rt' : M3CodePages} {functionIndex : Nat} {wasm : List UInt8}
    (h : compileFunction ctx rt functionIndex function wasm = .ok (cf, rt')) :
    ∃ o₁ o₂ o₃ o₄ o₅, (cleared rt function).acquireCompilationCodePage = .ok o₁ ∧
      o₁.layOutFrame function wasm = .ok (cf.numRetAndArgSlots, cf.numLocalSlots, o₂) ∧
      o₂.emitOp .entry = .ok o₃ ∧
      compileInstrs ctx function.body (o₃.emit (.function functionIndex)) = .ok o₄ ∧
      o₄.compileEnd = .ok o₅ ∧ cf.compiled = o₁.getPC ∧
      cf.constants = (List.range (o₅.slotMaxConstIndex - o₅.slotFirstConstIndex)).map o₅.constants ∧
      cf.maxStackSlots = o₅.maxStackSlots ∧ rt' = o₅.rt.releaseCodePage o₅.page := by
  rcases bind_ok h with ⟨o₁, hacquire, h⟩
  rcases bind_ok h with ⟨⟨numRetAndArgSlots, numLocalSlots, o₂⟩, hframe, h⟩
  rcases bind_ok h with ⟨o₃, hentry, h⟩
  rcases bind_ok h with ⟨o₄, hbody, h⟩
  rcases bind_ok h with ⟨o₅, hend, heq⟩
  cases heq
  exact ⟨o₁, o₂, o₃, o₄, o₅, hacquire, hframe, hentry, hbody, hend, rfl, rfl, rfl, rfl⟩

/-- What `CompileFunction` goes through. -/
structure FunctionCode (ctx : CompileContext) (active : List Nat) (functionIndex : Nat)
    (function : WasmFunction) (cf : CompiledFunction) (o₂ o₃ o₄ o₅ : M3Compilation) : Prop where
  framed : Framed function cf.numRetAndArgSlots cf.numLocalSlots o₂
  good : Good function.type active o₂
  tracked : Tracked function.wide function.stackRoom function.shape o₂
  compiled : cf.compiled = o₂.getPC
  entry : o₂.emitOp .entry = .ok o₃
  index : Kept function.type active 4 o₃ (o₃.emit (.function functionIndex))
  instrs : compileInstrs ctx function.body (o₃.emit (.function functionIndex)) = .ok o₄
  body : Kept function.type active 0 (o₃.emit (.function functionIndex)) o₄
  finish : o₄.compileEnd = .ok o₅
  last : Kept function.type active 0 o₄ o₅
  constants : cf.constants =
    (List.range (o₅.slotMaxConstIndex - o₅.slotFirstConstIndex)).map o₅.constants
  maxStackSlots : cf.maxStackSlots = o₅.maxStackSlots

theorem FunctionCode.kept {functionIndex : Nat} {o₂ o₃ o₄ o₅ : M3Compilation}
    (h : FunctionCode ctx active functionIndex function cf o₂ o₃ o₄ o₅) :
    Kept function.type active 0 o₂ o₅ :=
  (((h.good.emitOp h.entry).trans h.index).trans h.body).trans h.last

/-- The body begins with no value on the stack, and with slots for as many as its check counts on. -/
theorem M3Compilation.Framed.tracked {numRetAndArgSlots numLocalSlots : Nat}
    (h : Framed function numRetAndArgSlots numLocalSlots o)
    (hints : ∀ t ∈ function.type.args, t.IsInt) :
    Tracked function.wide function.stackRoom function.shape o := by
  have hfirst := h.first
  have hindex := h.index
  have hscope := h.scope
  have hlength : (frameTypes function).length =
      function.type.args.length + function.locals.length := by
    rw [frameTypes, List.length_append, List.length_map]
  have htype : ∀ i < o.stackFirstDynamicIndex, (frameTypes function)[i]? = some (o.typeStack i) := by
    intro i hi
    rw [hfirst] at hi
    rw [h.types i _ (List.getElem?_eq_getElem hi), List.getElem?_eq_getElem hi]
  refine ⟨⟨fun i hi => ?_, fun i hi j hj heq => ?_, ?_, ?_, ?_, ?_, fun i j hlow hi hj heq => ?_,
    fun _ => ?_⟩, fun j hj hwide => ?_, fun height hheight => ?_⟩
  · rw [hfirst] at hi
    have hend := h.ends i hi
    have hpos := getTypeNumSlots_pos (o.typeStack i)
    omega
  · rw [hfirst] at hi hj
    have hpos := getTypeNumSlots_pos (o.typeStack i)
    have hpos' := getTypeNumSlots_pos (o.typeStack j)
    exact h.apart i hi j hj (o.wasmStack i) ⟨by omega, by omega⟩ ⟨by omega, by omega⟩
  · rw [hscope, hfirst]
  · rw [hscope, WasmFunction.shape, hlength]
  · rw [hscope, hindex]
  · rw [hscope, hindex, WasmFunction.shape]
    simp
  · rw [hscope] at hlow
    simp only at hlow
    omega
  · rw [hscope]
  · rw [WasmFunction.wide, decide_eq_false_iff_not] at hwide
    have htype := htype j hj
    rcases frameTypes_ints hints _ (List.mem_of_getElem? htype) with hi32 | hi64
    · rw [hi32]
      rfl
    · rw [hi64] at htype
      exact absurd htype hwide
  · have hsmall := h.small
    have hretAndArgs := h.retAndArgs
    rw [c_ioSlotCount] at hretAndArgs
    rw [WasmFunction.stackRoom, d_m3MaxFunctionSlots, d_m3MaxConstantTableSize,
      d_m3MaxFunctionStackHeight] at hheight
    rw [d_m3MaxConstantTableSize] at hsmall
    rw [d_m3MaxFunctionSlots, d_m3MaxFunctionStackHeight]
    omega

theorem compileFunction_code {rt rt' : M3CodePages} {functionIndex : Nat} {wasm : List UInt8}
    (hints : ctx.module.Ints)
    (hfunction : ctx.module.functions[functionIndex]? = some function)
    (hmvp : instrsMvp function.body) (hcounted : function.counted ctx.module = true)
    (hkept : M3CodePages.WellKept rt active)
    (hcompile : compileFunction ctx rt functionIndex function wasm = .ok (cf, rt')) :
    ∃ o₂ o₃ o₄ o₅, FunctionCode ctx active functionIndex function cf o₂ o₃ o₄ o₅ ∧
      rt' = o₅.rt.releaseCodePage o₅.page ∧ ∀ code, Shows code o₂.rt → Shows code rt := by
  rcases compileFunction_cases hcompile with
    ⟨o₁, o₂, o₃, o₄, o₅, hacquire, hframe, hentry, hbody, hend, hpc, hconstants, hmax, hrelease⟩
  have hargInts := (hints function (List.mem_of_getElem? hfunction)).1
  rcases layOutFrame_framed hargInts hacquire hframe with ⟨hframed, hrt, hpage⟩
  have hcleared := (cleared_same rt function).1
  rw [← hcleared] at hkept
  rcases acquireCompilationCodePage_writable hacquire hkept with ⟨hroom, hwrites⟩
  have hgood := hframed.good hargInts ((hroom.mono (Nat.zero_le _)).of_eq hrt hpage)
  have hop := hgood.emitOp hentry
  have hword := hop.good.emit (w := .function functionIndex) hop.room
  have htracked := hframed.tracked hargInts
  have hbegun := (htracked.of_emitted (emitted_emitOp hentry)).of_emitted
    (emitted_emit (.function functionIndex))
  have hinstrs := (compileInstrs_keeps hints function.body hmvp
    hword.good hbegun hcounted hbody).1
  rcases bind_ok hend with ⟨o₄', hreturn, hemit⟩
  have hpopped := hinstrs.good.returnValuesAndPop hreturn
  have hlast := (hpopped.trans (hpopped.good.emitOp hemit)).mono (Nat.zero_le _)
  refine ⟨o₂, o₃, o₄, o₅, ⟨hframed, hgood, htracked, ?_, hentry, hword, hbody, hinstrs, hend, hlast,
    hconstants, hmax⟩, hrelease, fun code hshows => ?_⟩
  · rw [hpc, getPC, getPC, hrt, hpage]
  · rw [hrt] at hshows
    have hshows' := hshows.of_writes hwrites
    rw [hcleared] at hshows'
    exact hshows'

/-- The pages are as well kept after a function as before, and nothing in them is lost. -/
theorem compileFunction_keeps {rt rt' : M3CodePages} {functionIndex : Nat} {wasm : List UInt8}
    (hints : ctx.module.Ints)
    (hfunction : ctx.module.functions[functionIndex]? = some function)
    (hmvp : instrsMvp function.body) (hcounted : function.counted ctx.module = true)
    (hkept : M3CodePages.WellKept rt active)
    (hcompile : compileFunction ctx rt functionIndex function wasm = .ok (cf, rt')) :
    M3CodePages.WellKept rt' active ∧ ∀ code, Shows code rt' → Shows code rt := by
  rcases compileFunction_code hints hfunction hmvp hcounted hkept hcompile with
    ⟨o₂, o₃, o₄, o₅, hcode, rfl, hbefore⟩
  refine ⟨M3CodePages.release_kept hcode.kept.room.kept, fun code hshows => hbefore code ?_⟩
  have hreleased : Shows code (o₅.releaseCompilationCodePage o₅.page).rt := hshows
  have hwrites : Writes active o₅ (o₅.releaseCompilationCodePage o₅.page) := writes_release
  exact (hreleased.of_writes hwrites).of_writes hcode.kept.ext.writes

/-- The functions of a module that are compiled so far, by `m3_CompileModule` or at their first
call, and the pages with their code. None is compiled twice. -/
inductive CompiledSoFar (M : WasmModule) (active : List Nat) :
    (Nat → Option CompiledFunction) → M3CodePages → Prop
  | start {rt : M3CodePages} (hkept : M3CodePages.WellKept rt active) :
      CompiledSoFar M active (fun _ => none) rt
  | compile {functions : Nat → Option CompiledFunction} {rt rt' : M3CodePages} {functionIndex : Nat}
      {function : WasmFunction} {wasm : List UInt8} {cf : CompiledFunction}
      (hsofar : CompiledSoFar M active functions rt)
      (hfunction : M.functions[functionIndex]? = some function)
      (hnew : functions functionIndex = none)
      (hcompile : compileFunction ⟨M, fun j => (functions j).map CompiledFunction.compiled⟩ rt
        functionIndex function wasm = .ok (cf, rt')) :
      CompiledSoFar M active (Function.update functions functionIndex (some cf)) rt'

theorem CompiledSoFar.kept {M : WasmModule} {functions : Nat → Option CompiledFunction}
    {rt : M3CodePages} (h : CompiledSoFar M active functions rt) (hints : M.Ints)
    (hmvp : ∀ function ∈ M.functions, instrsMvp function.body)
    (hcounted : ∀ function ∈ M.functions, function.counted M = true) :
    M3CodePages.WellKept rt active := by
  induction h with
  | start hkept => exact hkept
  | compile _ hfunction _ hcompile ih =>
    have hmem := List.mem_of_getElem? hfunction
    exact (compileFunction_keeps hints hfunction (hmvp _ hmem) (hcounted _ hmem) ih hcompile).1

/-- Pages that show all the code later show the code of each function now. -/
theorem CompiledSoFar.functions {M : WasmModule} {functions : Nat → Option CompiledFunction}
    {rt : M3CodePages} {E : CodeImage} {functionIndex : Nat}
    (h : CompiledSoFar M active functions rt) (hints : M.Ints)
    (hmvp : ∀ function ∈ M.functions, instrsMvp function.body)
    (hcounted : ∀ function ∈ M.functions, function.counted M = true) (hshows : Shows E.code rt)
    (hfunctions : ∀ j cf, functions j = some cf → E.functions j = some cf)
    (hcf : functions functionIndex = some cf) :
    ∃ function compiled rt rt' wasm, M.functions[functionIndex]? = some function ∧
      M3CodePages.WellKept rt active ∧
      compileFunction ⟨M, compiled⟩ rt functionIndex function wasm = .ok (cf, rt') ∧
      Shows E.code rt' ∧
      ∀ j pc cf, compiled j = some pc → E.functions j = some cf → cf.compiled = pc := by
  induction h with
  | start => cases hcf
  | @compile functions rt rt' newIndex function wasm cf' hsofar hfunction hnew hcompile ih =>
    have hmem := List.mem_of_getElem? hfunction
    have hkept := hsofar.kept hints hmvp hcounted
    -- words are added and patches filled in, so an image of the pages now is one of those before
    have hbefore := (compileFunction_keeps hints hfunction (hmvp _ hmem) (hcounted _ hmem) hkept
      hcompile).2 _ hshows
    have hearlier : ∀ j cf, functions j = some cf → E.functions j = some cf := by
      intro j cf hj
      refine hfunctions j cf ?_
      rw [Function.update_of_ne]
      · exact hj
      · rintro rfl
        rw [hnew] at hj
        cases hj
    by_cases hindex : functionIndex = newIndex
    · subst hindex
      rw [Function.update_self] at hcf
      cases hcf
      refine ⟨function, _, rt, rt', wasm, hfunction, hkept, hcompile, hshows, ?_⟩
      intro j pc cf hpc hj
      -- an address in the code of a call is that of a function compiled before
      rcases Option.map_eq_some_iff.mp hpc with ⟨cf₀, hcf₀, rfl⟩
      rw [hearlier j cf₀ hcf₀] at hj
      cases hj
      rfl
    · rw [Function.update_of_ne hindex] at hcf
      exact ih hbefore hearlier hcf

/-- What a call returned. -/
def Outcome.results : Outcome → Option (List Value)
  | .ret results _ => some results
  | _ => none

end WebAssemblyRuntime.Wasm3
