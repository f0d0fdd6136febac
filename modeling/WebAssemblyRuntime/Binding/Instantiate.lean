import WebAssemblyRuntime.Binding.ExportScan
import WebAssemblyRuntime.Binding.Machine
import WebAssemblyRuntime.Polyfill.Utf8
import WebAssemblyRuntime.Wasm3.Load
import WebAssemblyRuntime.Wasm3.ParsedModule

/-!
# Instantiate — `instantiate`, from an `ArrayBuffer` to the exports object

`prepare` is the code before the start function, `StartRun` a run of it that ends normally, and
`exportsObject` the code after it.
-/

open WebAssemblyRuntime.Polyfill WebAssemblyRuntime.Reasoning WebAssemblyRuntime.Wasm3

namespace WebAssemblyRuntime.Binding

/-- The contents of an `ArrayBuffer`; the engines make none longer than 4 GiB. -/
structure ArrayBuffer where
  bytes : List UInt8
  length_le : bytes.length ≤ 2 ^ 32

def kDefaultStackSizeInBytes : UInt32 := 64 * 1024

/-- The numbers read from the `options` object. -/
structure InstantiateOptions where
  stackSizeInBytes : UInt32 := kDefaultStackSizeInBytes
  memoryInitialPages : UInt32 := 0

/-- What `instantiate` calls into: the interpreter's compiler, the operating system (where the
stack is allocated, and its answers to the two resizes), and JSI's property names. -/
structure Host where
  engine : Engine
  stack : Nat
  load : SysCalls
  presize : SysCalls
  forUtf8 : List UInt8 → JsString

/-- `instantiate` throws, or follows a null `mallocated`. -/
inductive Failure where
  | exception (e : JsException)
  | nullMemory
  deriving DecidableEq, Repr

/-- The module before its start function runs; nothing of it changes afterwards but the runtime. -/
structure Prepared where
  module : M3Module
  imports : List ImportEntry
  layout : Nat → FrameLayout
  rt : M3Runtime
  hasMemory : Bool
  declaredTableSize : UInt32

/-- An interpreter's result thrown with the tag `kTagCompile`. -/
def orCompileError {α : Type} (text : String) (result : Except M3Err α) : Except Failure α :=
  result.mapError fun e => .exception (.error ("[WebAssembly.CompileError] " ++ text ++ e.text))

def prepare (host : Host) (bufferSource : ArrayBuffer) (importObject : ImportObject)
    (options : InstantiateOptions) : Except Failure Prepared := do
  let moduleBytes := bufferSource.bytes
  -- `static_cast<uint32_t>`: 4 GiB become zero
  let size := UInt32.ofNat moduleBytes.length
  let module ← orCompileError "Failed to parse module: " (m3ParseModule (moduleBytes.take size.toNat))
  let runtime := m3NewRuntime host.stack options.stackSizeInBytes.toNat
  let (rt, module) ← orCompileError "Failed to load module: "
    (m3LoadModule host.engine runtime module host.load)
  let linked ← (linkImports importObject module.functions).mapError Failure.exception
  let (module, layout) ← orCompileError ""
    (m3CompileModule host.engine { module with functions := linked.functions })
  match presize rt options.memoryInitialPages host.presize with
  | none => .error .nullMemory
  | some (hasMemory, rt) =>
    .ok { module, imports := linked.imports, layout, rt, hasMemory,
          declaredTableSize := scanDeclaredTableSize moduleBytes }

/-- The start function, if any, is called and returns. -/
def StartRun (inst : Instance) (startFunction : Option Nat) (rt rt' : M3Runtime) : Prop :=
  match startFunction with
  | none => rt' = rt
  | some fn => ∃ slots c t c', Step inst { rt, slots } (.runStart fn) c ∧
      (machine inst).Within (fun c => c.frames ≠ []) c t ∧ Step inst t .unwind c' ∧
      c'.frames = [] ∧ c'.control = .js (.returned []) ∧ c'.rt = rt'

/-! ## The exports object -/

/-- The host object or function behind an export. -/
inductive ExportValue where
  | function (fn : Nat)
  | table
  | memory
  | global (index : Nat)
  deriving DecidableEq, Repr

/-- A JavaScript object by its own properties. -/
abbrev Exports := JsString → Option ExportValue

/-- `Object::setProperty` makes an own property of every name; a name that has a setter in the
prototype, such as `__proto__`, is not told apart here. -/
def setProperty (exports : Exports) (name : JsString) (value : ExportValue) : Exports :=
  Function.update exports name (some value)

/-- The `switch` over one export record, with `memoryExported`. -/
def setExport (forUtf8 : List UInt8 → JsString) (module : M3Module) (hasMemory : Bool)
    (s : Exports × Bool) (record : ExportRecord) : Exports × Bool :=
  match record.kind with
  | 0 =>
    if record.index.toNat < module.functions.length then
      (setProperty s.1 (forUtf8 record.name) (.function record.index.toNat), s.2)
    else s
  | 2 => if hasMemory then (setProperty s.1 (forUtf8 record.name) .memory, true) else s
  | 3 =>
    if record.index.toNat < module.globals.length then
      (setProperty s.1 (forUtf8 record.name) (.global record.index.toNat), s.2)
    else s
  | 1 => if record.index = 0 then (setProperty s.1 (forUtf8 record.name) .table, s.2) else s
  | _ => s

def exportsObject (forUtf8 : List UInt8 → JsString) (moduleBytes : List UInt8) (module : M3Module)
    (hasMemory : Bool) : Exports :=
  match scanExportSection moduleBytes with
  | .ok exportRecords =>
    let (exports, memoryExported) :=
      exportRecords.foldl (setExport forUtf8 module hasMemory) (fun _ => none, false)
    if hasMemory ∧ memoryExported = false ∧ exports (forAscii (ascii "memory")) = none then
      setProperty exports (forAscii (ascii "memory")) .memory
    else exports
  | .error _ =>
    -- wasm3's own view of the exports, with one name for each function
    let exports : Exports := module.functions.zipIdx.foldl (fun exports (f, i) =>
      match f.exportName with
      | none => exports
      | some name => setProperty exports (forAscii name.content) (.function i)) fun _ => none
    if hasMemory then setProperty exports (forAscii (ascii "memory")) .memory else exports

/-- `InstanceState`, with the exports object. -/
structure NativeInstance where
  inst : Instance
  rt : M3Runtime
  declaredTableSize : UInt32
  exports : Exports

/-- `instantiate` returns this instance. -/
structure Instantiates (host : Host) (bufferSource : ArrayBuffer) (importObject : ImportObject)
    (options : InstantiateOptions) (native : NativeInstance) (p : Prepared) : Prop where
  prepared : prepare host bufferSource importObject options = .ok p
  module : native.inst.module = { p.module with startFunction := none }
  imports : native.inst.imports = p.imports
  layout : native.inst.layout = p.layout
  start : StartRun native.inst p.module.startFunction p.rt native.rt
  declaredTableSize : native.declaredTableSize = p.declaredTableSize
  exports : native.exports =
    exportsObject host.forUtf8 bufferSource.bytes p.module p.hasMemory

/-! ## Table.get -/

def tableLength (native : NativeInstance) : Nat :=
  max native.declaredTableSize.toNat native.inst.module.table0.length

/-- The number, if it is an index below the length. -/
def tableIndex (native : NativeInstance) (index : JsNumber) : Option ℚ :=
  let checked (q : ℚ) : Option ℚ :=
    if q < 0 ∨ q ≠ ⌊q⌋ ∨ (tableLength native : ℚ) ≤ q then none else some q
  match index with
  | .finite q => checked q
  | .negZero => checked 0
  | .nan | .posInf | .negInf => none

/-- The entry of `table0` that the host function of `get` reads, if it comes to that: not beyond the
element-initialised extent. -/
def tableRead (native : NativeInstance) (index : JsNumber) : Option Nat :=
  (tableIndex native index).bind fun q =>
    if (native.inst.module.table0.length : ℚ) ≤ q then none else some ⌊q⌋.toNat

/-- `Table.get` on its first argument: `none` is `null`, else the function the new host function
is bound to. -/
def tableGet (native : NativeInstance) (argument : JsValue) : Except JsException (Option Nat) := do
  let index ← toDouble argument
  if (tableIndex native index).isNone then
    .error (.rangeError "[WebAssembly] Table.get index out of bounds.")
  -- null in a slot no segment wrote
  else .ok ((tableRead native index).bind fun i => native.inst.module.table0[i]?.join)

/-! ## What preparing leaves of the parsed module -/

theorem mapError_ok {ε ε' α : Type} {f : ε → ε'} {x : Except ε α} {a : α}
    (h : x.mapError f = .ok a) : x = .ok a := by
  cases x with
  | error e => cases h
  | ok b =>
    cases h
    rfl

/-- The cast of the size to 32 bits loses nothing on a module that is accepted. -/
theorem parsedBytes_eq (bufferSource : ArrayBuffer) {m : M3Module}
    (h : m3ParseModule (bufferSource.bytes.take (UInt32.ofNat bufferSource.bytes.length).toNat) =
      .ok m) :
    bufferSource.bytes.take (UInt32.ofNat bufferSource.bytes.length).toNat = bufferSource.bytes := by
  have hheader := (m3ParseModule_ok h).1
  have hle := bufferSource.length_le
  rw [List.length_take, UInt32.toNat_ofNat'] at hheader
  apply List.take_of_length_le
  rw [UInt32.toNat_ofNat']
  omega

theorem initMemory_block {rt rt' : M3Runtime} {memoryInfo : M3MemoryInfo} {imported : Bool}
    {os : SysCalls} {b : M3Block} (hrt : rt.memory.mallocated = none) (hlimit : rt.memoryLimit = 0)
    (h : initMemory rt memoryInfo imported os = (none, rt'))
    (hb : rt'.memory.mallocated = some b) :
    imported = false ∧ memoryInfo.initPages.toNat ≤ 65536 ∧
      b.length = pageBytes memoryInfo.initPages := by
  unfold initMemory at h
  -- an imported memory is never allocated
  cases imported with
  | true =>
    cases h
    rw [hrt] at hb
    cases hb
  | false =>
    have hresized := resizeMemory_ok h
    rcases hresized.block with ⟨b', hb', hlength⟩
    cases hb.symm.trans hb'
    refine ⟨rfl, hresized.limit, ?_⟩
    rw [hlength, limitBytes, if_neg (not_not.mpr hlimit)]

/-- A page count up to the maximum makes no bytes in two cases. -/
theorem pageBytes_eq_zero {n : UInt32} (h : n.toNat ≤ 65536) :
    pageBytes n = 0 ↔ n = 0 ∨ n = 65536 := by
  rw [pageBytes_toNat, ← UInt32.toNat_inj, ← UInt32.toNat_inj]
  show _ ↔ n.toNat = 0 ∨ n.toNat = 65536
  omega

/-- What becomes of the parsed module. -/
structure PreparedFrom (parsed : M3Module) (p : Prepared) : Prop where
  length : p.module.functions.length = parsed.functions.length
  functions : ∀ (i : Nat) f f', parsed.functions[i]? = some f → p.module.functions[i]? = some f' →
    f'.module = (f.module || f.importNames.isSome)
  globals : p.module.globals.length = parsed.globals.length
  table : TableInRange p.module
  memoryImported : parsed.memoryImported = false
  hasMemory : p.hasMemory ↔ parsed.memoryInfo.initPages ≠ 0 ∧ parsed.memoryInfo.initPages ≠ 65536
  linked : ∀ f ∈ p.module.functions, ∀ userdata, f.compiled = some (.rawFunction userdata) →
    (buildSignature f.funcType).isSome

theorem presize_hasMemory {rt rt' : M3Runtime} {pages : UInt32} {os : SysCalls} {hasMemory : Bool}
    {b : M3Block} (hb : rt.memory.mallocated = some b) (hlength : b.length < 2 ^ 32)
    (h : presize rt pages os = some (hasMemory, rt')) : hasMemory ↔ b.length ≠ 0 := by
  have hsize : UInt32.ofNat b.length ≠ 0 ↔ b.length ≠ 0 := by
    rw [Ne, ← UInt32.toNat_inj, UInt32.toNat_ofNat_of_lt' hlength]
    rfl
  unfold presize m3GetMemory at h
  rw [hb, Option.map_some, Option.map_some, Option.some.injEq] at h
  have hflag : hasMemory =
      (if UInt32.ofNat b.length ≠ 0 then some b.data else none : Option Addr).isSome := by
    by_cases hpresize : (if UInt32.ofNat b.length ≠ 0 then some b.data else none :
        Option Addr).isSome ∧ 0 < pages
    · simp only [if_pos hpresize] at h
      split at h
      · exact (congrArg Prod.fst h).symm
      · exact (congrArg Prod.fst h).symm
    · simp only [if_neg hpresize] at h
      exact (congrArg Prod.fst h).symm
  rw [hflag, ← hsize]
  by_cases hzero : UInt32.ofNat b.length ≠ 0
  · rw [if_pos hzero]
    exact ⟨fun _ => hzero, fun _ => rfl⟩
  · rw [if_neg hzero]
    exact ⟨fun h => (nomatch h), fun h => absurd h hzero⟩

/-- The functions from parsing to the end of compilation, one at a time. -/
structure FunctionPath (parsed m : M3Module) (linked : LinkState) (m' : M3Module) (i : Nat)
    (f f' : M3Function) : Prop where
  parsed : parsed.functions[i]? = some f
  linked : ∃ g, linked.functions[i]? = some g ∧ LinkedFrom m.functions.length i f g ∧
    CompiledFrom g f'

theorem functionPath {rt rt' : M3Runtime} {os : SysCalls} {parsed m m' : M3Module}
    {linked : LinkState} (hload : Loaded parsed rt os rt' m)
    (hlink : LinkFrame m.functions m.functions.length linked)
    (hcompile : CompiledModule { m with functions := linked.functions } m') {i : Nat}
    {f' : M3Function} (hf' : m'.functions[i]? = some f') :
    ∃ f, FunctionPath parsed m linked m' i f f' := by
  have hi : i < m'.functions.length := (List.getElem?_eq_some_iff.mp hf').1
  have hlinked : i < linked.functions.length := hcompile.length ▸ hi
  have hparsed : i < m.functions.length := hlink.length ▸ hlinked
  refine ⟨m.functions[i], ?_, linked.functions[i], List.getElem?_eq_getElem hlinked, ?_, ?_⟩
  · rw [← hload.functions]
    exact List.getElem?_eq_getElem hparsed
  · exact hlink.functions i _ _ (List.getElem?_eq_getElem hparsed) (List.getElem?_eq_getElem hlinked)
  · exact hcompile.functions i _ _ (List.getElem?_eq_getElem hlinked) hf'

/-- Linking sets the module of every import; compilation sets none. -/
theorem functionPath_module {parsed m m' : M3Module} {linked : LinkState} {i : Nat}
    {f f' : M3Function} (hi : i < m.functions.length) (h : FunctionPath parsed m linked m' i f f') :
    f'.module = (f.module || f.importNames.isSome) := by
  rcases h.linked with ⟨g, -, hlink, hcompile⟩
  have hmodule : f'.module = g.module := by
    rcases hcompile with rfl | ⟨-, rfl⟩
    · rfl
    · rfl
  rw [hmodule]
  rcases hlink with ⟨rfl, hle⟩ | ⟨himport, u, rfl⟩
  · cases himport : g.importNames.isSome with
    | false => rw [Bool.or_false]
    | true => exact absurd (hle himport) (Nat.not_le_of_lt hi)
  · rw [himport, Bool.or_true]
    rfl

/-- A function that runs an import was linked, and linking built its signature. -/
theorem preparedSignature {importObject : ImportObject} {rt rt' : M3Runtime} {os : SysCalls}
    {parsed m m' : M3Module} {linked : LinkState} (hfresh : ∀ f ∈ m.functions, f.compiled = none)
    (hload : Loaded parsed rt os rt' m) (hlink : linkImports importObject m.functions = .ok linked)
    (hcompile : CompiledModule { m with functions := linked.functions } m') :
    ∀ f ∈ m'.functions, ∀ userdata, f.compiled = some (.rawFunction userdata) →
      (buildSignature f.funcType).isSome := by
  intro f' hf' userdata hraw
  have hframe := linkImports_frame hlink
  rcases List.getElem?_of_mem hf' with ⟨i, hi⟩
  rcases functionPath hload hframe hcompile hi with ⟨f, hf, g, -, hfrom, hcompiled⟩
  rw [← hload.functions] at hf
  -- compiled code is never a raw function
  have hg : f' = g := by
    rcases hcompiled with heq | ⟨-, rfl⟩
    · exact heq
    · cases hraw
  subst hg
  rcases hfrom with ⟨rfl, -⟩ | ⟨himport, u, rfl⟩
  · rw [hfresh _ (List.mem_of_getElem? hf)] at hraw
    cases hraw
  · have hlt : i < m.functions.length := (List.getElem?_eq_some_iff.mp hf).1
    exact (linkImports_entry hfresh hlink).signature i hlt f hf himport

/-- The steps of a successful `prepare`. -/
structure PrepareSteps (host : Host) (bufferSource : ArrayBuffer) (importObject : ImportObject)
    (options : InstantiateOptions) (p : Prepared) (parsed m : M3Module) (rt : M3Runtime)
    (linked : LinkState) : Prop where
  parse : m3ParseModule bufferSource.bytes = .ok parsed
  load : m3LoadModule host.engine (m3NewRuntime host.stack options.stackSizeInBytes.toNat) parsed
    host.load = .ok (rt, m)
  link : linkImports importObject m.functions = .ok linked
  compile : m3CompileModule host.engine { m with functions := linked.functions } =
    .ok (p.module, p.layout)
  presize : presize rt options.memoryInitialPages host.presize = some (p.hasMemory, p.rt)
  declaredTableSize : p.declaredTableSize = scanDeclaredTableSize bufferSource.bytes

theorem prepare_steps {host : Host} {bufferSource : ArrayBuffer} {importObject : ImportObject}
    {options : InstantiateOptions} {p : Prepared}
    (h : prepare host bufferSource importObject options = .ok p) :
    ∃ parsed m rt linked, PrepareSteps host bufferSource importObject options p parsed m rt linked := by
  rcases bind_ok h with ⟨parsed, hparse, h⟩
  rcases bind_ok h with ⟨⟨rt, m⟩, hload, h⟩
  rcases bind_ok h with ⟨linked, hlink, h⟩
  rcases bind_ok h with ⟨⟨m', layout⟩, hcompile, h⟩
  replace hparse := mapError_ok hparse
  rw [parsedBytes_eq bufferSource hparse] at hparse
  simp only at h
  split at h
  · cases h
  · rename_i hasMemory rt₂ hpresize
    cases h
    exact ⟨parsed, m, rt, linked, hparse, mapError_ok hload, mapError_ok hlink,
      mapError_ok hcompile, hpresize, rfl⟩

theorem prepare_ok {host : Host} {bufferSource : ArrayBuffer} {importObject : ImportObject}
    {options : InstantiateOptions} {p : Prepared}
    (h : prepare host bufferSource importObject options = .ok p) :
    ∃ parsed, m3ParseModule bufferSource.bytes = .ok parsed ∧ PreparedFrom parsed p := by
  rcases prepare_steps h with ⟨parsed, m, rt, linked, hsteps⟩
  have hload := m3LoadModule_ok (parsedModule_table0 hsteps.parse) hsteps.load
  have hcompile := m3CompileModule_ok hsteps.compile
  have hframe := linkImports_frame hsteps.link
  have hfresh : ∀ f ∈ m.functions, f.compiled = none := by
    intro f hmem
    rcases List.getElem?_of_mem hmem with ⟨i, hi⟩
    rw [hload.functions] at hi
    exact (parsedModule_declared hsteps.parse hi).2.2
  have hlength : p.module.functions.length = m.functions.length :=
    hcompile.length.trans hframe.length
  rcases hload.memory with ⟨rt₁, b, b', hinit, hb, hb', hrt⟩
  rcases initMemory_block rfl rfl hinit hb with ⟨himported, hpages, hbytes⟩
  refine ⟨parsed, hsteps.parse, ?_⟩
  constructor
  · rw [hlength, hload.functions]
  · intro i f f' hf hf'
    rcases functionPath hload hframe hcompile hf' with ⟨f₁, hpath⟩
    cases hf.symm.trans hpath.parsed
    apply functionPath_module _ hpath
    rw [← hlength]
    exact (List.getElem?_eq_some_iff.mp hf').1
  · rw [hcompile.frame]
    exact hload.globals
  · intro fn hfn
    rw [hcompile.frame] at hfn
    show fn < p.module.functions.length
    rw [hlength]
    exact hload.table fn hfn
  · exact himported
  · have hblock : rt.memory.mallocated = some b' := by rw [hrt]
    have hlt : b'.length < 2 ^ 32 := by
      rw [hb', hbytes]
      exact pageBytes_lt _
    show p.hasMemory = true ↔ _
    rw [presize_hasMemory hblock hlt hsteps.presize, hb', hbytes, Ne, pageBytes_eq_zero hpages,
      not_or]
  · exact preparedSignature hfresh hload hsteps.link hcompile

/-- Without a start function, what is prepared is instantiated. -/
theorem instantiates_of_prepare {host : Host} {bufferSource : ArrayBuffer}
    {importObject : ImportObject} {options : InstantiateOptions} {p : Prepared}
    (h : prepare host bufferSource importObject options = .ok p)
    (hstart : p.module.startFunction = none) :
    ∃ native, Instantiates host bufferSource importObject options native p := by
  rcases prepare_ok h with ⟨parsed, -, hp⟩
  refine ⟨⟨⟨{ p.module with startFunction := none }, p.imports, p.layout, hp.linked⟩, p.rt,
    p.declaredTableSize, exportsObject host.forUtf8 bufferSource.bytes p.module p.hasMemory⟩, ?_⟩
  refine ⟨h, rfl, rfl, rfl, ?_, rfl, rfl⟩
  rw [hstart]
  rfl

/-! ## A host for small modules -/

/-- The engine on initialisers that are one `i32.const` and on bodies without locals or code. -/
def constantEngine : Engine where
  evaluateExpression _ _ bytes :=
    match bytes with
    | 0x41 :: bytes =>
      match readLebSigned 32 bytes with
      | (none, value, 0x0b :: bytes) => .ok (value.toUInt32.toUInt64, bytes)
      | _ => .error .wasmMalformed
    | _ => .error .unknownOpcode
  compileFunction m i :=
    match m.functions[i]?.bind M3Function.wasm with
    | some [2, 0, 0x0b] => .ok {}
    | _ => .error .noCompiler

def constantHost : Host := ⟨constantEngine, 0, .granting 4096, .granting 4096, utf8Decode⟩

def wasmHeader : List UInt8 := [0, 0x61, 0x73, 0x6d, 1, 0, 0, 0]

/-- A module prepared with nothing to import. -/
def prepareWithoutImports (bufferSource : ArrayBuffer) : Except Failure Prepared :=
  prepare constantHost bufferSource .empty {}

theorem instantiates_withoutImports (bufferSource : ArrayBuffer)
    (h : ((prepareWithoutImports bufferSource).toOption.map fun p => p.module.startFunction) = some none) :
    ∃ native p, Instantiates constantHost bufferSource .empty {} native p := by
  cases hp : prepareWithoutImports bufferSource with
  | error e =>
    rw [hp] at h
    cases h
  | ok p =>
    rw [hp] at h
    rcases instantiates_of_prepare hp (Option.some.inj h) with ⟨native, hnative⟩
    exact ⟨native, p, hnative⟩

end WebAssemblyRuntime.Binding
