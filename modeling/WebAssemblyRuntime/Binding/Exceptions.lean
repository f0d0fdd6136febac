import WebAssemblyRuntime.Binding.ImportDispatch
import WebAssemblyRuntime.Binding.Machine

/-!
# Exceptions — the one slot that carries JavaScript exceptions past C frames
-/

open WebAssemblyRuntime.Reasoning WebAssemblyRuntime.Wasm3

namespace WebAssemblyRuntime.Binding

/-- How frames nest: JavaScript runs at the bottom and above waiting raw calls, wasm runs above host
calls.  The flag says whether JavaScript is on top. -/
def Nested (inst : Instance) : Bool → List Frame → Prop
  | true, [] => True
  | true, .opCallRaw _ _ _ :: rest => Nested inst false rest
  | false, .exportCall fn :: rest => inst.module.functions[fn]?.isSome ∧ Nested inst true rest
  | false, .runStart _ :: rest => rest = []
  | false, .opEntry _ :: rest => Nested inst false rest
  | false, .opLoop _ _ :: rest => Nested inst false rest
  | false, .opCall _ _ :: rest => Nested inst false rest
  | false, .opCallIndirect _ _ :: rest => Nested inst false rest
  | _, _ => False

def Control.inJs : Control → Bool
  | .js _ => true
  | _ => false

/-- What `pendingException` must be, given where control is. -/
def PendingOk (pendingException : Option JsException) : Control → Prop
  | .ret (.trap .trapJsException) => pendingException.isSome
  | _ => pendingException = none

structure ExceptionInv (inst : Instance) (c : Config) : Prop where
  nested : Nested inst c.control.inJs c.frames
  pending : PendingOk c.pendingException c.control
  loops : ∀ id, c.control = .ret (.continueLoop id) → enclosingLoop id c.frames

variable {inst : Instance} {c c' : Config} {a : Action}

theorem pendingOk_trap {e : M3Err} (he : e ≠ .trapJsException) :
    PendingOk none (.ret (.trap e)) := by
  cases e <;> first | rfl | exact absurd rfl he

theorem pendingOk_none {pendingException : Option JsException} {e : M3Err}
    (h : PendingOk pendingException (.ret (.trap e))) (he : e ≠ .trapJsException) :
    pendingException = none := by
  cases e <;> first | exact h | exact absurd rfl he

theorem throwWasmError_none (e : M3Err) : throwWasmError none e = (.wasmError e, none) := by
  cases e <;> rfl

/-- Whatever is pending is consumed. -/
theorem throwWasmError_pending {pendingException : Option JsException} {e : M3Err}
    (h : PendingOk pendingException (.ret (.trap e))) :
    (throwWasmError pendingException e).2 = none := by
  -- the sentinel takes what is pending; for any other trap nothing is
  by_cases he : e = .trapJsException
  · subst he
    rcases Option.isSome_iff_exists.mp h with ⟨pending, hpending⟩
    rw [hpending]
    rfl
  · rw [pendingOk_none h he, throwWasmError_none]

theorem callImportedFunction_fail {entry : ImportEntry} {funcType : M3FuncType} {slots : Slots}
    {sp : Nat} {e : M3Err} (h : callImportedFunction entry funcType slots sp = .fail e) :
    e ≠ .trapJsException := by
  cases hfn : entry.fn with
  | none => cases (callImportedFunction_missing hfn funcType slots sp).symm.trans h
  | some fn =>
    rcases callImportedFunction_cases hfn funcType slots sp with
      ⟨-, hcall⟩ | ⟨_, -, hcall⟩ | ⟨_, -, hcall⟩
    · cases hcall.symm.trans h
      decide
    · cases hcall.symm.trans h
    · cases hcall.symm.trans h

theorem indirectTarget_error {tableIndex : Nat} {type : M3FuncType} {e : M3Err}
    (h : indirectTarget inst tableIndex type = .error e) : e ≠ .trapJsException := by
  unfold indirectTarget at h
  cases htable : inst.module.table0[tableIndex]? with
  | none =>
    simp only [htable] at h
    cases h
    decide
  | some slot =>
    cases slot with
    | none =>
      simp only [htable] at h
      cases h
      decide
    | some fn =>
      cases hf : inst.module.functions[fn]? with
      | none =>
        simp only [htable, hf] at h
        cases h
        decide
      | some f =>
        simp only [htable, hf] at h
        by_cases htype : type ≠ f.funcType
        · rw [if_pos htype] at h
          cases h
          decide
        · rw [if_neg htype] at h
          by_cases hcode : f.compiled = none
          · rw [if_pos hcode] at h
            cases h
            decide
          · rw [if_neg hcode] at h
            cases h

/-! ## Results of an export call -/

theorem readResult_isSome (type : M3ValueType) (slots : Slots) (s : Nat) :
    (readResult slots s type).isSome = (valueTypeToChar type).isSome := by
  cases type <;> rfl

/-- Whether `m3_GetResults` can read every result of a function. -/
def Readable (rets : List M3ValueType) : Prop := ∀ type ∈ rets, (valueTypeToChar type).isSome

theorem m3GetResults_ok {rt : M3Runtime} {fn : Nat} {rets : List M3ValueType} (slots : Slots)
    (hcalled : rt.lastCalled = some fn) (hrets : Readable rets) :
    ∃ words, m3GetResults rt slots fn rets = .ok words := by
  have hall : ∀ result ∈ rets.zipIdx,
      (readResult slots (rt.stack + 2 * result.2) result.1).isSome := by
    intro result hmem
    rw [readResult_isSome]
    exact hrets result.1 (List.fst_mem_of_mem_zipIdx hmem)
  rcases optionMapM_some hall with ⟨words, hwords⟩
  rw [m3GetResults, if_neg (not_not_intro hcalled)]
  split
  · next hnone => exact absurd (hnone.symm.trans hwords) nofun
  · next words' _ => exact ⟨words', rfl⟩

/-- A result of another type (`v128` passes the parser) cannot be read. -/
theorem m3GetResults_unreadable {rt : M3Runtime} {fn : Nat} {rets : List M3ValueType}
    (slots : Slots) (hcalled : rt.lastCalled = some fn) (hrets : ¬ Readable rets) :
    m3GetResults rt slots fn rets = .error .unknownReturnType := by
  rw [m3GetResults, if_neg (not_not_intro hcalled)]
  split
  · rfl
  · next words hwords =>
    refine absurd (fun type htype => ?_) hrets
    rcases List.mem_iff_getElem.mp htype with ⟨i, hi, hget⟩
    have hmem : (type, i) ∈ rets.zipIdx := by
      rw [List.mem_zipIdx_iff_getElem?, ← hget]
      exact List.getElem?_eq_getElem hi
    have hread := optionMapM_isSome (Option.isSome_of_eq_some hwords) (type, i) hmem
    rw [readResult_isSome] at hread
    exact hread

/-- Without a trap the host function returns values: results are read back and convert. -/
theorem exportReturn_none {rt : M3Runtime} {slots : Slots} {pendingException : Option JsException}
    {fn : Nat} {rets : List M3ValueType} (hcalled : rt.lastCalled = some fn)
    (hrets : Readable rets) :
    ∃ values, exportReturn rt slots pendingException fn rets none =
      (.returned values, pendingException) := by
  unfold exportReturn
  by_cases hempty : rets.length = 0
  · simp only [if_pos hempty]
    exact ⟨[], rfl⟩
  · rcases m3GetResults_ok slots hcalled hrets with ⟨words, hwords⟩
    have hall : ∀ result ∈ rets.zip words, ∃ value, slotToValue result.1 result.2 = .ok value :=
      fun result hmem => slotToValue_ok (hrets result.1 (List.of_mem_zip hmem).1) result.2
    rcases exceptMapM_ok hall with ⟨values, hvalues⟩
    simp only [if_neg hempty, hwords]
    split
    · next hconvert => exact absurd (hconvert.symm.trans hvalues) nofun
    · next values' _ => exact ⟨values', rfl⟩

theorem exportReturn_unreadable {rt : M3Runtime} {slots : Slots}
    {pendingException : Option JsException} {fn : Nat} {rets : List M3ValueType}
    (hcalled : rt.lastCalled = some fn) (hrets : ¬ Readable rets) :
    exportReturn rt slots pendingException fn rets none =
      (.threw (.wasmError .unknownReturnType), pendingException) := by
  have hempty : rets.length ≠ 0 := by
    intro hlength
    apply hrets
    rw [List.length_eq_zero_iff.mp hlength]
    exact fun type htype => absurd htype List.not_mem_nil
  simp only [exportReturn, if_neg hempty, m3GetResults_unreadable slots hcalled hrets]
  rfl

/-! ## The invariant -/

theorem ExceptionInv.inJs (h : ExceptionInv inst c) {event : JsEvent}
    (hjs : c.control = .js event) :
    Nested inst true c.frames ∧ c.pendingException = none := by
  have hnested := h.nested
  have hpending := h.pending
  rw [hjs] at hnested hpending
  exact ⟨hnested, hpending⟩

theorem ExceptionInv.inEnter (h : ExceptionInv inst c) {fn sp : Nat} {mem : Option Addr}
    (henter : c.control = .enter fn sp mem) :
    Nested inst false c.frames ∧ c.pendingException = none := by
  have hnested := h.nested
  have hpending := h.pending
  rw [henter] at hnested hpending
  exact ⟨hnested, hpending⟩

theorem ExceptionInv.inOp (h : ExceptionInv inst c) {sp : Nat} {mem : Option Addr} {r0 : Int}
    (hop : c.control = .op sp mem r0) :
    Nested inst false c.frames ∧ c.pendingException = none := by
  have hnested := h.nested
  have hpending := h.pending
  rw [hop] at hnested hpending
  exact ⟨hnested, hpending⟩

theorem ExceptionInv.inRet (h : ExceptionInv inst c) {r : M3Ret} (hret : c.control = .ret r) :
    Nested inst false c.frames ∧ PendingOk c.pendingException (.ret r) := by
  have hnested := h.nested
  have hpending := h.pending
  rw [hret] at hnested hpending
  exact ⟨hnested, hpending⟩

/-- A step into a control that is no loop continuation needs the other two parts only. -/
theorem exceptionInv_of (hnested : Nested inst c.control.inJs c.frames)
    (hpending : PendingOk c.pendingException c.control)
    (hloops : ∀ id, c.control ≠ .ret (.continueLoop id)) : ExceptionInv inst c :=
  ⟨hnested, hpending, fun id hid => absurd hid (hloops id)⟩

theorem result_some {r : M3Ret} {result : M3Result} (h : r.result = some result) :
    (r = .none ∧ result = none) ∨ ∃ e, r = .trap e ∧ result = some e := by
  cases r with
  | none =>
    cases h
    exact .inl ⟨rfl, rfl⟩
  | trap e =>
    cases h
    exact .inr ⟨e, rfl, rfl⟩
  | continueLoop id => cases h

/-- What the host function of an export does once control is back. -/
theorem finishExport_control {r : M3Ret} {result : M3Result} {fn : Nat} (f : M3Function)
    (rest : List Frame) (h : ExceptionInv inst c) (hret : c.control = .ret r)
    (hr : r.result = some result) :
    (finishExport c rest fn f.funcType.rets result).pendingException = none ∧
      ((∃ values, r = .none ∧ Readable f.funcType.rets ∧
          (finishExport c rest fn f.funcType.rets result).control = .js (.returned values)) ∨
        (r = .none ∧ ¬ Readable f.funcType.rets ∧
          (finishExport c rest fn f.funcType.rets result).control =
            .js (.threw (.wasmError .unknownReturnType))) ∨
        ∃ e, r = .trap e ∧ (finishExport c rest fn f.funcType.rets result).control =
          .js (.threw (throwWasmError c.pendingException e).1)) := by
  have hpending := (h.inRet hret).2
  -- a normal return reads results back, a trap throws
  rcases result_some hr with ⟨rfl, rfl⟩ | ⟨e, rfl, rfl⟩
  · by_cases hrets : Readable f.funcType.rets
    · have hreturn : ∃ values, exportReturn { c.rt with lastCalled := some fn } c.slots
          c.pendingException fn f.funcType.rets none = (.returned values, c.pendingException) :=
        exportReturn_none rfl hrets
      rcases hreturn with ⟨values, hvalues⟩
      have hleft := (congrArg Prod.snd hvalues).trans hpending
      exact ⟨hleft, .inl ⟨values, rfl, hrets, congrArg Control.js (congrArg Prod.fst hvalues)⟩⟩
    · have hthrew : exportReturn { c.rt with lastCalled := some fn } c.slots c.pendingException fn
          f.funcType.rets none = (.threw (.wasmError .unknownReturnType), c.pendingException) :=
        exportReturn_unreadable rfl hrets
      have hleft := (congrArg Prod.snd hthrew).trans hpending
      exact ⟨hleft, .inr (.inl ⟨rfl, hrets, congrArg Control.js (congrArg Prod.fst hthrew)⟩)⟩
  · exact ⟨throwWasmError_pending hpending, .inr (.inr ⟨e, rfl, rfl⟩)⟩

/-- Control that is on its way back leaves the frames it passes. -/
theorem exceptionInv_unwind (h : ExceptionInv inst c) (hstep : Step inst c .unwind c') :
    ExceptionInv inst c' := by
  cases hstep with
  | unwindEntry hret hframes =>
    have hnested := (h.inRet hret).1
    rw [hframes] at hnested
    refine ⟨?_, h.pending, ?_⟩
    · rw [hret]
      exact hnested
    · intro id hid
      -- a loop is never continued past the entry of its function
      have hloop := h.loops id hid
      rw [hframes] at hloop
      cases hloop
  | @unwindLoop r id sp rest hret hframes hr =>
    have hnested := (h.inRet hret).1
    rw [hframes] at hnested
    refine ⟨?_, h.pending, ?_⟩
    · rw [hret]
      exact hnested
    · intro id' hid
      have hloop := h.loops id' hid
      have hne : id' ≠ id := by
        intro heq
        apply hr
        change c.control = _ at hid
        rw [hret, heq] at hid
        exact Control.ret.inj hid
      rw [hframes, enclosingLoop, decide_eq_false hne, Bool.false_or] at hloop
      exact hloop
  | nextIteration hret =>
    rcases h.inRet hret with ⟨hnested, hpending⟩
    exact exceptionInv_of hnested hpending nofun
  | callReturns hret hframes =>
    rcases h.inRet hret with ⟨hnested, hpending⟩
    rcases hframes with hframes | hframes
    · rw [hframes] at hnested
      exact exceptionInv_of hnested hpending nofun
    · rw [hframes] at hnested
      exact exceptionInv_of hnested hpending nofun
  | callTraps hret hr hframes =>
    have hnested := (h.inRet hret).1
    -- a loop is not continued past a call either
    have hloops : ∀ id, c.control ≠ .ret (.continueLoop id) := by
      intro id hid
      have hloop := h.loops id hid
      rcases hframes with hframes | hframes
      · rw [hframes] at hloop
        cases hloop
      · rw [hframes] at hloop
        cases hloop
    refine exceptionInv_of ?_ h.pending hloops
    rw [hret]
    rcases hframes with hframes | hframes
    · rw [hframes] at hnested
      exact hnested
    · rw [hframes] at hnested
      exact hnested
  | @exportReturns r result fn rest f hret hr hframes hf =>
    have hnested := (h.inRet hret).1
    rw [hframes] at hnested
    exact exceptionInv_of hnested.2 (finishExport_control f rest h hret hr).1 nofun
  | @startReturns r result fn rest hret hr hframes =>
    rcases h.inRet hret with ⟨hnested, hpending⟩
    rw [hframes] at hnested
    have hrest : rest = [] := hnested
    rcases result_some hr with ⟨rfl, rfl⟩ | ⟨e, rfl, rfl⟩
    · refine exceptionInv_of ?_ hpending nofun
      rw [hrest]
      trivial
    · refine exceptionInv_of ?_ (throwWasmError_pending hpending) nofun
      rw [hrest]
      trivial

theorem exceptionInv_step (h : ExceptionInv inst c) (hstep : Step inst c a c') :
    ExceptionInv inst c' := by
  by_cases ha : a = .unwind
  · subst ha
    exact exceptionInv_unwind h hstep
  -- by where control was: in JavaScript, entering, at an operation
  cases hstep with
  | callExportThrows hjs | growMemory hjs =>
    rcases h.inJs hjs with ⟨hnested, hpending⟩
    exact exceptionInv_of hnested hpending nofun
  | callExportRefused hjs =>
    rcases h.inJs hjs with ⟨hnested, -⟩
    refine exceptionInv_of hnested ?_ nofun
    show (throwWasmError none _).2 = none
    rw [throwWasmError_none]
  | callExport hjs hf =>
    rcases h.inJs hjs with ⟨hnested, -⟩
    exact exceptionInv_of ⟨Option.isSome_of_eq_some hf, hnested⟩ rfl nofun
  | runStartRefused hjs =>
    rcases h.inJs hjs with ⟨hnested, -⟩
    refine exceptionInv_of hnested ?_ nofun
    show (throwWasmError none _).2 = none
    rw [throwWasmError_none]
  | runStart => exact exceptionInv_of rfl rfl nofun
  | importReturns hjs hframes | importReturnsValue hjs hframes =>
    rcases h.inJs hjs with ⟨hnested, hpending⟩
    rw [hframes] at hnested
    exact exceptionInv_of hnested hpending nofun
  | importCoercionFails hjs hframes | importThrows hjs hframes =>
    rcases h.inJs hjs with ⟨hnested, -⟩
    rw [hframes] at hnested
    exact exceptionInv_of hnested rfl nofun
  | enter henter | enterRaw henter | enterOverflow henter =>
    rcases h.inEnter henter with ⟨hnested, hpending⟩
    exact exceptionInv_of hnested hpending nofun
  | enterRawRaises henter =>
    rcases h.inEnter henter with ⟨hnested, -⟩
    exact exceptionInv_of hnested rfl nofun
  | enterRawFails henter _ _ _ hcall =>
    rcases h.inEnter henter with ⟨hnested, hpending⟩
    refine exceptionInv_of hnested ?_ nofun
    rw [hpending]
    exact pendingOk_trap (callImportedFunction_fail hcall)
  | slotOp hop | memSize hop | memGrow hop | loop hop | «return» hop =>
    rcases h.inOp hop with ⟨hnested, hpending⟩
    exact exceptionInv_of hnested hpending nofun
  | store => exact ⟨h.nested, h.pending, h.loops⟩
  | call hop | callIndirect hop | callOverflow hop | callMissing hop | callIndirectOverflow hop =>
    rcases h.inOp hop with ⟨hnested, hpending⟩
    exact exceptionInv_of hnested hpending nofun
  | callIndirectTraps hop htarget =>
    rcases h.inOp hop with ⟨hnested, hpending⟩
    refine exceptionInv_of hnested ?_ nofun
    rw [hpending]
    exact pendingOk_trap (indirectTarget_error htarget)
  | continueLoop hop hloop =>
    rcases h.inOp hop with ⟨hnested, hpending⟩
    refine ⟨hnested, hpending, ?_⟩
    intro id hid
    cases hid
    exact hloop
  | trap hop he =>
    rcases h.inOp hop with ⟨hnested, hpending⟩
    refine exceptionInv_of hnested ?_ nofun
    rw [hpending]
    exact pendingOk_trap he
  | unwindEntry | unwindLoop | nextIteration | callReturns | callTraps | exportReturns | startReturns =>
    exact absurd rfl ha

theorem exceptionInv_reachable (h : (machine inst).Reachable c) : ExceptionInv inst c := by
  refine System.Reachable.invariant (P := ExceptionInv inst) ?_
    (fun _ _ _ hs ht => exceptionInv_step hs ht) h
  intro s hinit
  rcases hinit with ⟨hcontrol, hframes, hpending, -⟩
  refine exceptionInv_of ?_ ?_ ?_
  · rw [hcontrol, hframes]
    trivial
  · rw [hcontrol]
    exact hpending
  · intro id hid
    cases hcontrol.symm.trans hid

/-! ## On the way back -/

/-- The frames from the innermost host call on. -/
def hostFrames : List Frame → List Frame
  | .exportCall fn :: rest => .exportCall fn :: rest
  | .runStart fn :: rest => .runStart fn :: rest
  | _ :: rest => hostFrames rest
  | [] => []

def Unwinding (c : Config) : Prop := ∃ r, c.control = .ret r

/-- From `c` on frames only come back, until `d`, where JavaScript has the outcome of the host
call. -/
def HostReturns (inst : Instance) (c d : Config) : Prop :=
  ∃ b a, (machine inst).Within Unwinding c b ∧ Step inst b a d ∧ d.control.inJs

/-- The host call that control is in ends, and it can only end by throwing `e`. -/
structure HostThrows (inst : Instance) (c : Config) (e : JsException) : Prop where
  returns : ∃ d, HostReturns inst c d
  throws : ∀ d, HostReturns inst c d → d.control = .js (.threw e) ∧
    d.pendingException = none ∧ d.frames = (hostFrames c.frames).tail

/-- A trap passes a wasm frame. -/
def PassesOn (c c' : Config) : Prop :=
  c'.control = c.control ∧ c'.pendingException = c.pendingException ∧
    hostFrames c'.frames = hostFrames c.frames

/-- A trap reaches the host call that has to report it. -/
def Reports (c c' : Config) (e : M3Err) : Prop :=
  c'.control = .js (.threw (throwWasmError c.pendingException e).1) ∧
    c'.pendingException = (throwWasmError c.pendingException e).2 ∧
    c'.frames = (hostFrames c.frames).tail

/-- Nothing in wasm catches a trap. -/
theorem trap_step {e : M3Err} (hret : c.control = .ret (.trap e)) (hstep : Step inst c a c') :
    PassesOn c c' ∨ Reports c c' e := by
  cases hstep with
  | unwindEntry _ hframes | unwindLoop _ hframes =>
    refine .inl ⟨rfl, rfl, ?_⟩
    rw [hframes]
    rfl
  | nextIteration hloop => cases hloop.symm.trans hret
  | callReturns hnone => cases hnone.symm.trans hret
  | callTraps _ _ hframes =>
    refine .inl ⟨rfl, rfl, ?_⟩
    rcases hframes with hframes | hframes
    · rw [hframes]
      rfl
    · rw [hframes]
      rfl
  | exportReturns hret' hr hframes =>
    cases Control.ret.inj (hret'.symm.trans hret)
    cases hr
    refine .inr ⟨rfl, rfl, ?_⟩
    rw [hframes]
    rfl
  | startReturns hret' hr hframes =>
    cases Control.ret.inj (hret'.symm.trans hret)
    cases hr
    refine .inr ⟨rfl, rfl, ?_⟩
    rw [hframes]
    rfl
  | _ => cases hret.symm.trans ‹c.control = _›

/-- A step that leaves control on its way back does not change what it brings. -/
theorem ret_step {r r' : M3Ret} (hret : c.control = .ret r) (hstep : Step inst c a c')
    (hret' : c'.control = .ret r') : r' = r := by
  cases hstep with
  | unwindEntry | unwindLoop | callTraps => exact Control.ret.inj (hret'.symm.trans hret)
  | nextIteration | callReturns => cases hret'
  | exportReturns => cases hret'
  | @startReturns _ result => cases result <;> cases hret'
  | store hop => cases hret.symm.trans hop
  | _ => cases hret.symm.trans ‹c.control = _›

/-- A trap on its way: nothing has changed but the frames it passed. -/
theorem trap_within {e : M3Err} (hret : c.control = .ret (.trap e))
    (h : (machine inst).Within Unwinding c c') : PassesOn c c' := by
  induction h with
  | refl _ => exact ⟨rfl, rfl, rfl⟩
  | step _ ht hu ih =>
    rcases ih with ⟨hcontrol, hpending, hframes⟩
    rcases trap_step (hcontrol.trans hret) ht with ⟨hcontrol', hpending', hframes'⟩ | ⟨hjs, -⟩
    · exact ⟨hcontrol'.trans hcontrol, hpending'.trans hpending, hframes'.trans hframes⟩
    · rcases hu with ⟨r, hr⟩
      cases hjs.symm.trans hr

theorem hostReturns_step (hc : Unwinding c) (hstep : Step inst c a c') (hc' : Unwinding c')
    {d : Config} (h : HostReturns inst c' d) : HostReturns inst c d := by
  rcases h with ⟨b, act, hwithin, hlast, hjs⟩
  exact ⟨b, act, System.Within.trans (.step (.refl hc) hstep hc') hwithin, hlast, hjs⟩

/-- A trap past `op_Call`. -/
def popCall (c : Config) (rest : List Frame) : Config :=
  { c with rt := { c.rt with callDepth := c.rt.callDepth - 1 }, frames := rest }

/-- A trap always gets to the host call. -/
theorem trap_returns {e : M3Err} (frames : List Frame) (hframes : c.frames = frames)
    (hnested : Nested inst false frames) (hret : c.control = .ret (.trap e)) :
    ∃ d, HostReturns inst c d := by
  have hc : Unwinding c := ⟨_, hret⟩
  induction frames generalizing c with
  -- the frames end with a host call, which stops the trap
  | nil => cases hnested
  | cons frame rest ih =>
    cases frame with
    | opEntry fn =>
      have hc' : Unwinding { c with frames := rest } := hc
      rcases ih (c := { c with frames := rest }) rfl hnested hret hc' with ⟨d, hd⟩
      exact ⟨d, hostReturns_step hc (.unwindEntry hret hframes) hc' hd⟩
    | opLoop id sp =>
      have hc' : Unwinding { c with frames := rest } := hc
      rcases ih (c := { c with frames := rest }) rfl hnested hret hc' with ⟨d, hd⟩
      exact ⟨d, hostReturns_step hc (.unwindLoop hret hframes nofun) hc' hd⟩
    | opCall sp r0 =>
      have hstep : Step inst c .unwind (popCall c rest) := .callTraps hret nofun (.inl hframes)
      rcases ih (c := popCall c rest) rfl hnested hret hc with ⟨d, hd⟩
      exact ⟨d, hostReturns_step hc hstep hc hd⟩
    | opCallIndirect sp r0 =>
      have hstep : Step inst c .unwind (popCall c rest) := .callTraps hret nofun (.inr hframes)
      rcases ih (c := popCall c rest) rfl hnested hret hc with ⟨d, hd⟩
      exact ⟨d, hostReturns_step hc hstep hc hd⟩
    | opCallRaw fn sp stackBackup => cases hnested
    | exportCall fn =>
      rcases Option.isSome_iff_exists.mp hnested.1 with ⟨f, hf⟩
      exact ⟨_, c, .unwind, .refl hc, .exportReturns hret rfl hframes hf, rfl⟩
    | runStart fn => exact ⟨_, c, .unwind, .refl hc, .startReturns hret rfl hframes, rfl⟩

/-- What a host call throws depends on what was pending when the trap set out. -/
theorem trap_throws {e : M3Err} (h : ExceptionInv inst c) (hret : c.control = .ret (.trap e)) :
    HostThrows inst c (throwWasmError c.pendingException e).1 := by
  refine ⟨trap_returns c.frames rfl (h.inRet hret).1 hret, ?_⟩
  intro d hd
  rcases hd with ⟨b, act, hwithin, hlast, hjs⟩
  rcases trap_within hret hwithin with ⟨hcontrol, hpending, hframes⟩
  rcases trap_step (hcontrol.trans hret) hlast with ⟨hcontrol', -⟩ | ⟨hthrew, hleft, hrest⟩
  · rw [hcontrol', hcontrol, hret] at hjs
    cases hjs
  · rw [hpending] at hthrew hleft
    rw [hframes] at hrest
    exact ⟨hthrew, hleft.trans (throwWasmError_pending (h.inRet hret).2), hrest⟩

/-! ## The law -/

/-- The step raises `e` in an import: thrown, by a failed result coercion, or for a missing
import. -/
inductive ImportRaises (inst : Instance) (c : Config) : Action → JsException → Prop where
  | thrown {event : JsEvent} {fn sp stackBackup : Nat} {rest : List Frame} {e : JsException}
      (hjs : c.control = .js event) (hframes : c.frames = .opCallRaw fn sp stackBackup :: rest) :
      ImportRaises inst c (.importThrows e) e
  | coercion {event : JsEvent} {fn sp stackBackup : Nat} {rest : List Frame} {f : M3Function}
      {type : M3ValueType} {value : JsValue} {e : JsException}
      (hjs : c.control = .js event) (hframes : c.frames = .opCallRaw fn sp stackBackup :: rest)
      (hf : inst.module.functions[fn]? = some f) (hrets : f.funcType.rets = [type])
      (hvalue : valueToSlot type value = .error e) : ImportRaises inst c (.importReturns value) e
  | missing {fn sp userdata : Nat} {mem : Option Addr} {f : M3Function} {entry : ImportEntry}
      (henter : c.control = .enter fn sp mem) (hf : inst.module.functions[fn]? = some f)
      (hcode : f.compiled = some (.rawFunction userdata))
      (hentry : inst.imports[userdata]? = some entry) (hmissing : entry.fn = none) :
      ImportRaises inst c .enter (.missingImport entry.moduleName entry.fieldName)

/-- The step ends wasm execution with an interpreter trap. -/
structure InterpreterTraps (inst : Instance) (c : Config) (a : Action) (c' : Config) (e : M3Err) :
    Prop where
  running : ¬ Unwinding c
  step : Step inst c a c'
  trapped : c'.control = .ret (.trap e)
  notJs : e ≠ .trapJsException

theorem callImportedFunction_raise {entry : ImportEntry} {f : M3Function} {userdata : Nat}
    {slots : Slots} {sp : Nat} {e : JsException} (hf : f ∈ inst.module.functions)
    (hcode : f.compiled = some (.rawFunction userdata))
    (h : callImportedFunction entry f.funcType slots sp = .raise e) :
    entry.fn = none ∧ e = .missingImport entry.moduleName entry.fieldName := by
  cases hfn : entry.fn with
  | none =>
    cases (callImportedFunction_missing hfn f.funcType slots sp).symm.trans h
    exact ⟨rfl, rfl⟩
  | some callee =>
    rcases callImportedFunction_cases hfn f.funcType slots sp with
      ⟨-, hcall⟩ | ⟨_, herror, -⟩ | ⟨_, -, hcall⟩
    · cases hcall.symm.trans h
    · -- linked imports have a signature, so their arguments convert
      rcases importArgs_ok (inst.linked f hf userdata hcode) slots sp with ⟨args, hargs⟩
      cases hargs.symm.trans herror
    · cases hcall.symm.trans h

/-- After a raise the exception is pending and the trap that stands for it is on its way. -/
theorem importRaises_step {e : JsException} (h : ImportRaises inst c a e)
    (hstep : Step inst c a c') :
    c'.control = .ret (.trap .trapJsException) ∧ c'.pendingException = some e := by
  cases h with
  | thrown =>
    cases hstep with
    | importThrows => exact ⟨rfl, rfl⟩
  | coercion hjs hframes hf hrets hvalue =>
    cases hstep with
    | importReturns _ hframes' hf' hrets' =>
      cases hframes.symm.trans hframes'
      cases hf.symm.trans hf'
      cases hrets.symm.trans hrets'
    | importReturnsValue _ hframes' hf' hrets' hvalue' =>
      cases hframes.symm.trans hframes'
      cases hf.symm.trans hf'
      cases hrets.symm.trans hrets'
      cases hvalue.symm.trans hvalue'
    | importCoercionFails _ hframes' hf' hrets' hvalue' =>
      cases hframes.symm.trans hframes'
      cases hf.symm.trans hf'
      cases hrets.symm.trans hrets'
      cases hvalue.symm.trans hvalue'
      exact ⟨rfl, rfl⟩
  | missing henter hf hcode hentry hmissing =>
    cases hstep with
    | enter henter' hf' hcode' =>
      cases henter.symm.trans henter'
      cases hf.symm.trans hf'
      cases hcode.symm.trans hcode'
    | enterOverflow henter' hf' hcode' =>
      cases henter.symm.trans henter'
      cases hf.symm.trans hf'
      cases hcode.symm.trans hcode'
    | enterRawRaises henter' hf' hcode' hentry' hcall =>
      cases henter.symm.trans henter'
      cases hf.symm.trans hf'
      cases hcode.symm.trans hcode'
      cases hentry.symm.trans hentry'
      rw [(callImportedFunction_raise (List.mem_of_getElem? hf) hcode hcall).2]
      exact ⟨rfl, rfl⟩
    | enterRawFails henter' hf' hcode' hentry' hcall =>
      cases henter.symm.trans henter'
      cases hf.symm.trans hf'
      cases hcode.symm.trans hcode'
      cases hentry.symm.trans hentry'
      cases (callImportedFunction_missing hmissing _ _ _).symm.trans hcall
    | enterRaw henter' hf' hcode' hentry' hcall =>
      cases henter.symm.trans henter'
      cases hf.symm.trans hf'
      cases hcode.symm.trans hcode'
      cases hentry.symm.trans hentry'
      cases (callImportedFunction_missing hmissing _ _ _).symm.trans hcall

/-- The only ways a trap sets out. -/
theorem trap_cause {e : M3Err} (hrunning : ¬ Unwinding c) (hstep : Step inst c a c')
    (hret : c'.control = .ret (.trap e)) :
    (∃ thrown, ImportRaises inst c a thrown) ∨ InterpreterTraps inst c a c' e := by
  -- the sentinel only comes from an import; everything else is the interpreter's own
  by_cases he : e = .trapJsException
  · left
    subst he
    cases hstep with
    | importCoercionFails hjs hframes hf hrets hvalue =>
      exact ⟨_, .coercion hjs hframes hf hrets hvalue⟩
    | importThrows hjs hframes => exact ⟨_, .thrown hjs hframes⟩
    | enterRawRaises henter hf hcode hentry hcall =>
      have hmissing := (callImportedFunction_raise (List.mem_of_getElem? hf) hcode hcall).1
      exact ⟨_, .missing henter hf hcode hentry hmissing⟩
    | enterRawFails _ _ _ _ hcall =>
      cases hret
      exact absurd rfl (callImportedFunction_fail hcall)
    | callIndirectTraps _ htarget =>
      cases hret
      exact absurd rfl (indirectTarget_error htarget)
    | trap _ hne =>
      cases hret
      exact absurd rfl hne
    | store hop => cases hop.symm.trans hret
    | unwindEntry hret' | unwindLoop hret' | nextIteration hret' | callReturns hret' =>
      exact absurd ⟨_, hret'⟩ hrunning
    | callTraps hret' | exportReturns hret' | startReturns hret' =>
      exact absurd ⟨_, hret'⟩ hrunning
    | _ => cases hret
  · exact .inr ⟨hrunning, hstep, hret, he⟩

/-- Where the trap on its way came from. -/
structure Origin (inst : Instance) (c : Config) (e : M3Err) (t : Config) (act : Action)
    (t' : Config) : Prop where
  reachable : (machine inst).Reachable t
  running : ¬ Unwinding t
  step : Step inst t act t'
  trapped : t'.control = .ret (.trap e)
  unwinds : (machine inst).Within Unwinding t' c

theorem trap_origin (h : (machine inst).Reachable c) {e : M3Err}
    (hret : c.control = .ret (.trap e)) : ∃ t act t', Origin inst c e t act t' := by
  induction h with
  | init hinit => cases hinit.1.symm.trans hret
  | @step s t act hs ht ih =>
    -- a step that did not set the trap out only passed it on
    by_cases hunwinding : Unwinding s
    · rcases hunwinding with ⟨r, hr⟩
      rw [← ret_step hr ht hret] at hr
      rcases ih hr with ⟨u, act', u', horigin⟩
      exact ⟨u, act', u', { horigin with unwinds := .step horigin.unwinds ht ⟨_, hret⟩ }⟩
    · exact ⟨s, act, t, hs, hunwinding, ht, hret, .refl ⟨_, hret⟩⟩

/-- How the call of the host frame on top of `c` was terminated and what JavaScript sees in `c'`:
the terminating step is one of its own, followed by unwinding only. -/
inductive Terminated (inst : Instance) (c c' : Config) : Prop where
  | returned {values : List JsValue} (hreturn : c.control = .ret .none)
      (hjs : c'.control = .js (.returned values))
  -- the call error of `m3_GetResults`
  | unreadable {fn : Nat} {rest : List Frame} {f : M3Function} (hreturn : c.control = .ret .none)
      (htop : c.frames = .exportCall fn :: rest) (hf : inst.module.functions[fn]? = some f)
      (hrets : ¬ Readable f.funcType.rets)
      (hjs : c'.control = .js (.threw (.wasmError .unknownReturnType)))
  | raised {t t' : Config} {act : Action} {e : JsException} (ht : (machine inst).Reachable t)
      (hraise : ImportRaises inst t act e) (hstep : Step inst t act t')
      (hunwind : (machine inst).Within Unwinding t' c) (hcall : hostFrames t'.frames = c.frames)
      (hjs : c'.control = .js (.threw e))
  | trapped {t t' : Config} {act : Action} {e : M3Err} (ht : (machine inst).Reachable t)
      (htrap : InterpreterTraps inst t act t' e)
      (hunwind : (machine inst).Within Unwinding t' c) (hcall : hostFrames t'.frames = c.frames)
      (hjs : c'.control = .js (.threw (.wasmError e)))

/-- Exceptions in one reachable state. -/
structure ExceptionLaw (inst : Instance) (c : Config) : Prop where
  running : ∀ event, c.control = .js event → c.pendingException = none
  raised : ∀ a c' e, ImportRaises inst c a e → Step inst c a c' → HostThrows inst c' e
  trapped : ∀ a c' e, InterpreterTraps inst c a c' e → HostThrows inst c' (.wasmError e)
  refused : ∀ fn args f words e c', inst.module.functions[fn]? = some f →
    coerceArgs f.funcType.args args = .ok words →
    m3Call inst c.rt c.slots fn words = some (.error e) → Step inst c (.callExport fn args) c' →
    c'.control = .js (.threw (.wasmError e))
  ended : ∀ fn rest a c', c.frames = .exportCall fn :: rest → Unwinding c → Step inst c a c' →
    Terminated inst c c'

theorem exceptions_ended (h : (machine inst).Reachable c) {fn : Nat} {rest : List Frame}
    (hframes : c.frames = .exportCall fn :: rest) (hunwinding : Unwinding c)
    (hstep : Step inst c a c') : Terminated inst c c' := by
  have hinv := exceptionInv_reachable h
  have hhost : hostFrames c.frames = c.frames := by
    rw [hframes]
    rfl
  rcases hunwinding with ⟨r, hret⟩
  rcases exportCall_step hret hframes hstep with ⟨result, f, hr, hf, rfl⟩
  rcases (finishExport_control f rest hinv hret hr).2 with hreturned | hunread | hthrew
  · rcases hreturned with ⟨values, rfl, -, hjs⟩
    exact .returned hret hjs
  · rcases hunread with ⟨rfl, hrets, hjs⟩
    exact .unreadable hret hframes hf hrets hjs
  -- back to the step that set the trap out
  · rcases hthrew with ⟨e, rfl, hjs⟩
    rcases trap_origin h hret with ⟨t, act, t', horigin⟩
    rcases trap_within horigin.trapped horigin.unwinds with ⟨-, hpending, hsame⟩
    have hcall : hostFrames t'.frames = c.frames := hsame.symm.trans hhost
    rcases trap_cause horigin.running horigin.step horigin.trapped with ⟨thrown, hraise⟩ | htrap
    · rcases importRaises_step hraise horigin.step with ⟨hjsTrap, hsome⟩
      cases Control.ret.inj (horigin.trapped.symm.trans hjsTrap)
      rw [hpending, hsome] at hjs
      exact .raised horigin.reachable hraise horigin.step horigin.unwinds hcall hjs
    · have hnone := pendingOk_none (hinv.inRet hret).2 htrap.notJs
      rw [hnone, throwWasmError_none] at hjs
      exact .trapped horigin.reachable htrap horigin.unwinds hcall hjs

theorem exceptionsUnmixed (h : (machine inst).Reachable c) : ExceptionLaw inst c := by
  have hinv := exceptionInv_reachable h
  refine ⟨?_, ?_, ?_, ?_, ?_⟩
  · intro event hjs
    exact (hinv.inJs hjs).2
  · intro a c' e hraise hstep
    rcases importRaises_step hraise hstep with ⟨hret, hpending⟩
    have hthrows := trap_throws (exceptionInv_step hinv hstep) hret
    rw [hpending] at hthrows
    exact hthrows
  · intro a c' e htrap
    have hinv' := exceptionInv_step hinv htrap.step
    have hthrows := trap_throws hinv' htrap.trapped
    have hnone := pendingOk_none (hinv'.inRet htrap.trapped).2 htrap.notJs
    rw [hnone, throwWasmError_none] at hthrows
    exact hthrows
  · intro fn args f words e c' hf hargs hcall hstep
    cases hstep with
    | callExportThrows _ hf' hargs' =>
      cases hf.symm.trans hf'
      cases hargs.symm.trans hargs'
    | callExportRefused _ hf' hargs' hcall' =>
      cases hf.symm.trans hf'
      cases hargs.symm.trans hargs'
      cases hcall.symm.trans hcall'
      rw [throwWasmError_none]
    | callExport _ hf' hargs' hcall' =>
      cases hf.symm.trans hf'
      cases hargs.symm.trans hargs'
      cases hcall.symm.trans hcall'
  · intro fn rest a c' hframes hunwinding hstep
    exact exceptions_ended h hframes hunwinding hstep

theorem exceptionsUnmixed_entered : ExceptionLaw importAndBody bodyEntered :=
  exceptionsUnmixed bodyEntered_reachable

end WebAssemblyRuntime.Binding
