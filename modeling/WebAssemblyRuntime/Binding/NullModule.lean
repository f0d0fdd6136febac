import WebAssemblyRuntime.Binding.ExportAgreement

/-!
# NullModule — which exposed functions can be called

`m3_Call` follows `i_function->module` before it looks at `compiled`.  The pointer is set for a
function with an entry in the code section and, by linking, for an import.
-/

open WebAssemblyRuntime.Polyfill WebAssemblyRuntime.Reasoning WebAssemblyRuntime.Wasm3

namespace WebAssemblyRuntime.Binding

/-- JavaScript can get at a function: as an export, or out of an exported table. -/
def Exposed (native : NativeInstance) (fn : Nat) : Prop :=
  (∃ name, native.exports name = some (.function fn)) ∨
    (∃ name, native.exports name = some .table) ∧ ∃ argument, tableGet native argument = .ok (some fn)

/-- A call of the function never follows a null module: it can always be made, and whenever control
comes back to its host function, that returns or throws. -/
structure Callable (inst : Instance) (fn : Nat) : Prop where
  module : ∃ f, inst.module.functions[fn]? = some f ∧ f.module = true
  calls : ∀ (c : Config) event args, c.control = .js event →
    ∃ c', Step inst c (.callExport fn args) c'
  missingCode : ∀ (c c' : Config) args,
    (inst.module.functions[fn]?.bind M3Function.compiled) = none →
    Step inst c (.callExport fn args) c' → ∃ e, c'.control = .js (.threw e)
  answers : ∀ (c : Config) r rest result, c.control = .ret r → c.frames = .exportCall fn :: rest →
    r.result = some result →
      ∃ c', Step inst c .unwind c' ∧ c'.frames = rest ∧
        ((∃ values, c'.control = .js (.returned values)) ∨ ∃ e, c'.control = .js (.threw e))

/-- The function is imported, or the code section has a non-empty entry for it. -/
def HasCode (moduleBytes : Bytes) (fn : Nat) : Prop :=
  ∃ m, m3ParseModule moduleBytes = .ok m ∧
    (fn < m.numFuncImports ∨ hasBody m.numFuncImports (moduleBodies moduleBytes) fn)

/-! ## Calls -/

variable {inst : Instance} {fn : Nat} {f : M3Function}

theorem m3Call_isSome (hf : inst.module.functions[fn]? = some f) (hmodule : f.module = true)
    (rt : M3Runtime) (slots : Slots) (args : List UInt64) :
    ∃ result, m3Call inst rt slots fn args = some result := by
  unfold m3Call
  simp only [hf, hmodule, Bool.true_eq_false, if_false]
  split
  · exact ⟨_, rfl⟩
  · split
    · exact ⟨_, rfl⟩
    · split
      · exact ⟨_, rfl⟩
      · exact ⟨_, rfl⟩

theorem callExport_enabled (hf : inst.module.functions[fn]? = some f) (hmodule : f.module = true)
    {c : Config} {event : JsEvent} (args : List JsValue) (hjs : c.control = .js event) :
    ∃ c', Step inst c (.callExport fn args) c' := by
  -- a call throws while coercing, is refused by `m3_Call`, or starts
  cases hargs : coerceArgs f.funcType.args args with
  | error e => exact ⟨_, .callExportThrows hjs hf hargs⟩
  | ok words =>
    rcases m3Call_isSome hf hmodule c.rt c.slots words with ⟨result, hcall⟩
    cases result with
    | error e => exact ⟨_, .callExportRefused hjs hf hargs hcall⟩
    | ok slots => exact ⟨_, .callExport hjs hf hargs hcall⟩

/-- Without code a call does not start. -/
theorem callExport_missingCode (hcode : f.compiled = none)
    (hf : inst.module.functions[fn]? = some f) {c c' : Config} {args : List JsValue}
    (hstep : Step inst c (.callExport fn args) c') : ∃ e, c'.control = .js (.threw e) := by
  cases hstep with
  | callExportThrows => exact ⟨_, rfl⟩
  | callExportRefused => exact ⟨_, rfl⟩
  | callExport _ hf' _ hcall =>
    cases hf.symm.trans hf'
    unfold m3Call at hcall
    -- `m3_Call` returns before it runs anything: the call never starts
    simp only [hf, hcode, if_true] at hcall
    split at hcall
    · cases hcall
    · split at hcall
      · cases hcall
      · cases hcall

theorem exportReturn_answers (rt : M3Runtime) (slots : Slots) (pending : Option JsException)
    (fn : Nat) (rets : List M3ValueType) (result : M3Result) :
    (∃ values, (exportReturn rt slots pending fn rets result).1 = .returned values) ∨
      ∃ e, (exportReturn rt slots pending fn rets result).1 = .threw e := by
  unfold exportReturn
  split
  · exact .inr ⟨_, rfl⟩
  · split
    · exact .inl ⟨_, rfl⟩
    · split
      · exact .inr ⟨_, rfl⟩
      · split
        · exact .inr ⟨_, rfl⟩
        · exact .inl ⟨_, rfl⟩

theorem callable_of_module (hf : inst.module.functions[fn]? = some f) (hmodule : f.module = true) :
    Callable inst fn := by
  constructor
  · exact ⟨f, hf, hmodule⟩
  · intro c event args hjs
    exact callExport_enabled hf hmodule args hjs
  · intro c c' args hcode hstep
    rw [hf] at hcode
    exact callExport_missingCode hcode hf hstep
  · intro c r rest result hret hframes hr
    refine ⟨_, .exportReturns hret hr hframes hf, rfl, ?_⟩
    rcases exportReturn_answers { c.rt with lastCalled := if result.isSome then none else some fn }
      c.slots c.pendingException fn f.funcType.rets result with ⟨values, h⟩ | ⟨e, h⟩
    · exact .inl ⟨values, congrArg Control.js h⟩
    · exact .inr ⟨e, congrArg Control.js h⟩

/-! ## Exposed functions -/

theorem acceptedValue_function {module : M3Module} {hasMemory : Bool} {record : ExportRecord}
    (h : acceptedValue module hasMemory record = some (.function fn)) :
    fn < module.functions.length := by
  rcases acceptedValue_some.mp h with ⟨-, hindex, hvalue⟩ | ⟨-, -, hvalue⟩ | ⟨-, -, hvalue⟩ |
    ⟨-, -, hvalue⟩
  · cases hvalue
    exact hindex
  · cases hvalue
  · cases hvalue
  · cases hvalue

theorem tableGet_mem {native : NativeInstance} {argument : JsValue}
    (h : tableGet native argument = .ok (some fn)) : some fn ∈ native.inst.module.table0 := by
  rcases bind_ok h with ⟨index, -, h⟩
  by_cases hout : (tableIndex native index).isNone
  · rw [if_pos hout] at h
    cases h
  · rw [if_neg hout, Except.ok.injEq] at h
    -- whatever entry is read, it is one of the table's
    rcases Option.bind_eq_some_iff.mp h with ⟨i, -, hslot⟩
    rw [Option.join_eq_some_iff] at hslot
    exact List.mem_of_getElem? hslot

variable {host : Host} {bufferSource : ArrayBuffer} {importObject : ImportObject}
  {options : InstantiateOptions} {native : NativeInstance} {p : Prepared}

/-- An exposed function is one of the module's. -/
theorem exposed_lt (h : Instantiates host bufferSource importObject options native p)
    (hexposed : Exposed native fn) : fn < native.inst.module.functions.length := by
  rcases prepare_ok h.prepared with ⟨parsed, hparse, hp⟩
  rw [h.module]
  show fn < p.module.functions.length
  -- as an export its index was checked; in the table loading checked it
  rcases hexposed with ⟨name, hname⟩ | ⟨-, argument, hget⟩
  · rw [h.exports] at hname
    rcases exportsObject_only (scanExportSection_eq hparse) hname with
      ⟨record, -, -, haccepted⟩ | ⟨-, hmemory, -⟩
    · exact acceptedValue_function haccepted
    · cases hmemory
  · have hmem := tableGet_mem hget
    rw [h.module] at hmem
    exact hp.table fn hmem

theorem exposed_module (h : Instantiates host bufferSource importObject options native p)
    (hf : native.inst.module.functions[fn]? = some f) :
    f.module = true ↔ HasCode bufferSource.bytes fn := by
  rcases prepare_ok h.prepared with ⟨parsed, hparse, hp⟩
  rw [h.module] at hf
  change p.module.functions[fn]? = some f at hf
  have hlt : fn < parsed.functions.length := by
    rw [← hp.length]
    exact (List.getElem?_eq_some_iff.mp hf).1
  have hparsed := List.getElem?_eq_getElem hlt
  rcases parsedModule_declared hparse hparsed with ⟨hmodule, hnames, -⟩
  change (parsed.functions[fn]).importNames.isSome ↔ _ at hnames
  change (parsed.functions[fn]).module = _ at hmodule
  rw [hp.functions fn _ _ hparsed hf, hmodule, Bool.or_eq_true, hnames, or_comm]
  constructor
  · intro hcode
    exact ⟨parsed, hparse, hcode⟩
  · rintro ⟨m, hm, hcode⟩
    cases hparse.symm.trans hm
    exact hcode

/-- After `instantiate`, no function that JavaScript can get at follows a null module, exactly when
each of them is imported or has a body. -/
theorem noNullModule (h : Instantiates host bufferSource importObject options native p) :
    (∀ fn, Exposed native fn → Callable native.inst fn) ↔
      ∀ fn, Exposed native fn → HasCode bufferSource.bytes fn := by
  constructor
  · intro hcallable fn hexposed
    rcases (hcallable fn hexposed).module with ⟨f, hf, hmodule⟩
    exact (exposed_module h hf).mp hmodule
  · intro hcode fn hexposed
    have hf := List.getElem?_eq_getElem (exposed_lt h hexposed)
    exact callable_of_module hf ((exposed_module h hf).mpr (hcode fn hexposed))

theorem hasCode_iff {moduleBytes : Bytes} (numFuncImports : Nat)
    (h : (m3ParseModule moduleBytes).toOption.map M3Module.numFuncImports = some numFuncImports) :
    HasCode moduleBytes fn ↔
      fn < numFuncImports ∨ hasBody numFuncImports (moduleBodies moduleBytes) fn := by
  rcases Option.map_eq_some_iff.mp h with ⟨m, hm, rfl⟩
  have hparse : m3ParseModule moduleBytes = .ok m := by
    cases hresult : m3ParseModule moduleBytes with
    | error e =>
      rw [hresult] at hm
      cases hm
    | ok m' =>
      rw [hresult] at hm
      cases hm
      rfl
  constructor
  · rintro ⟨m', hm', hcode⟩
    cases hparse.symm.trans hm'
    exact hcode
  · intro hcode
    exact ⟨m, hparse, hcode⟩

/-- The import `env.f`, exported again, and a function with a body, exported as `g` and put into the
exported table. -/
def importReexported : ArrayBuffer where
  bytes := wasmHeader ++ [1, 4, 1, 0x60, 0, 0] ++
    [2, 9, 1, 3, 0x65, 0x6e, 0x76, 1, 0x66, 0, 0] ++ [3, 2, 1, 0] ++ [4, 4, 1, 0x70, 0, 1] ++
    [7, 13, 3, 1, 0x66, 0, 0, 1, 0x67, 0, 1, 1, 0x74, 1, 0] ++
    [9, 7, 1, 0, 0x41, 0, 0x0b, 1, 1] ++ [10, 4, 1, 2, 0, 0x0b]
  length_le := by decide

theorem noNullModule_callable : ∃ native p,
    Instantiates constantHost importReexported .empty {} native p ∧
      ∀ fn, Exposed native fn → Callable native.inst fn := by
  rcases instantiates_withoutImports importReexported (by decide +kernel) with ⟨native, p, hnative⟩
  refine ⟨native, p, hnative, (noNullModule hnative).mpr ?_⟩
  intro fn hexposed
  have hlength : native.inst.module.functions.length = 2 := by
    have hprepared : (prepareWithoutImports importReexported).toOption.map
        (fun p => p.module.functions.length) = some 2 := by decide +kernel
    rw [show prepareWithoutImports importReexported = .ok p from hnative.prepared] at hprepared
    rw [hnative.module]
    exact Option.some.inj hprepared
  have hlt := exposed_lt hnative hexposed
  rw [hlength] at hlt
  rw [hasCode_iff 1 (by decide +kernel)]
  have hall : ∀ fn < 2, fn < 1 ∨ hasBody 1 (moduleBodies importReexported.bytes) fn := by decide +kernel
  exact hall fn hlt

/-- A function that is declared and exported as `f`, in a module without a code section. -/
def exportWithoutBody : ArrayBuffer where
  bytes := wasmHeader ++ [1, 4, 1, 0x60, 0, 0] ++ [3, 2, 1, 0] ++ [7, 5, 1, 1, 0x66, 0, 0]
  length_le := by decide

theorem noNullModule_fails : ∃ native p,
    Instantiates constantHost exportWithoutBody .empty {} native p ∧ Exposed native 0 ∧
      (∀ rt slots args, m3Call native.inst rt slots 0 args = none) ∧
      ¬ ∀ fn, Exposed native fn → Callable native.inst fn := by
  rcases instantiates_withoutImports exportWithoutBody (by decide +kernel) with ⟨native, p, hnative⟩
  have hscan : scanExportSection exportWithoutBody.bytes = .ok [⟨[0x66], 0, 0⟩] := by decide +kernel
  have hlength : p.module.functions.length = 1 := by
    have hprepared : (prepareWithoutImports exportWithoutBody).toOption.map
        (fun p => p.module.functions.length) = some 1 := by decide +kernel
    rw [show prepareWithoutImports exportWithoutBody = .ok p from hnative.prepared] at hprepared
    exact Option.some.inj hprepared
  have hexposed : Exposed native 0 := by
    refine .inl ⟨constantHost.forUtf8 [0x66], ?_⟩
    rw [hnative.exports]
    apply exportsObject_accepted hscan _ List.mem_cons_self
    · show (if 0 < p.module.functions.length then _ else _) = some (ExportValue.function 0)
      rw [hlength]
      rfl
    · intro r hr r' hr' _
      rw [List.mem_singleton.mp hr, List.mem_singleton.mp hr']
  have hcode : ¬ HasCode exportWithoutBody.bytes 0 := by
    rw [hasCode_iff 0 (by decide +kernel)]
    decide +kernel
  have hf := List.getElem?_eq_getElem (exposed_lt hnative hexposed)
  have hmodule := (exposed_module hnative hf).not.mpr hcode
  refine ⟨native, p, hnative, hexposed, ?_, ?_⟩
  · intro rt slots args
    unfold m3Call
    simp only [hf]
    exact if_pos (Bool.eq_false_of_not_eq_true hmodule)
  · intro hcallable
    rcases (hcallable 0 hexposed).module with ⟨f, hf', hset⟩
    cases hf.symm.trans hf'
    exact hmodule hset

end WebAssemblyRuntime.Binding
