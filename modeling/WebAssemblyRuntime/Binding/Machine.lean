import WebAssemblyRuntime.Binding.Imports
import WebAssemblyRuntime.Binding.WasmMemory
import WebAssemblyRuntime.Reasoning.Transition

/-!
# Machine — one instance running, down to the C frames

A configuration is the state of one instance together with the native frames below control: the
operations of the interpreter that wait for a result (`op_Entry`, `op_Loop`, `op_Call`,
`op_CallIndirect`, `op_CallRawFunction`) and the host calls that entered it.  JavaScript runs at the
bottom and above every waiting `op_CallRawFunction`.  The runtime that `_mem->runtime` leads to is
the one of the configuration.
-/

open WebAssemblyRuntime.Reasoning WebAssemblyRuntime.Wasm3

namespace WebAssemblyRuntime.Binding

def d_m3MaxCallDepth : UInt32 := 1000

/-- An instance after `instantiate`: linked, compiled, and past its start function (so that
`checkStartFunction` finds nothing to run). -/
structure Instance where
  module : M3Module
  imports : List ImportEntry
  layout : Nat → FrameLayout
  -- the link loop refuses an import whose signature `buildSignature` cannot write
  linked : ∀ f ∈ module.functions, ∀ userdata, f.compiled = some (.rawFunction userdata) →
    (buildSignature f.funcType).isSome

/-- `m3ret_t`: null, a trap, or the program counter of a loop to be continued. -/
inductive M3Ret where
  | none
  | trap (e : M3Err)
  | continueLoop (id : Nat)
  deriving DecidableEq, Repr

/-- As a host reads it; a loop never continues into a host call. -/
def M3Ret.result : M3Ret → Option M3Result
  | .none => some Option.none
  | .trap e => some (some e)
  | .continueLoop _ => Option.none

/-- What JavaScript last saw of the instance. -/
inductive JsEvent where
  | idle
  | called (fn : Nat) (args : List JsValue)
  | returned (values : List JsValue)
  | threw (e : JsException)
  deriving DecidableEq, Repr

/-- Where control is: in JavaScript, at the first operation of a function, at an operation inside
one, or on the way back to the frame below.  `mem` is the `_mem` argument. -/
inductive Control where
  | js (event : JsEvent)
  | enter (fn sp : Nat) (mem : Option Addr)
  | op (sp : Nat) (mem : Option Addr) (r0 : Int)
  | ret (r : M3Ret)
  deriving DecidableEq, Repr

/-- A native frame with the locals it needs when control comes back. -/
inductive Frame where
  | opEntry (fn : Nat)
  | opLoop (id sp : Nat)
  | opCall (sp : Nat) (r0 : Int)
  | opCallIndirect (sp : Nat) (r0 : Int)
  | opCallRaw (fn sp stackBackup : Nat)
  | exportCall (fn : Nat)
  | runStart (fn : Nat)
  deriving DecidableEq, Repr

structure Config where
  rt : M3Runtime
  slots : Slots
  pendingException : Option JsException := none
  control : Control := .js .idle
  frames : List Frame := []

/-! ## The operations -/

/-- `runtime->memory.mallocated`. -/
def mallocated (rt : M3Runtime) : Option Addr := rt.memory.mallocated.map M3Block.addr

/-- The stack check of `op_Entry`, read off the header `_mem` points at; `b` is the current block,
and nothing is known of a header that is not current. -/
def StackCheck (rt : M3Runtime) (layout : FrameLayout) (sp : Nat) (mem : Option Addr)
    (passes : Bool) : Prop :=
  ∀ b, rt.memory.mallocated = some b → mem = some b.addr →
    passes = decide (sp + layout.maxStackSlots < b.maxStack)

/-- The locals zeroed and the constants copied by `op_Entry`. -/
def entrySlots (layout : FrameLayout) (slots : Slots) (sp : Nat) : Slots := fun j =>
  let locals := sp + layout.numRetAndArgSlots
  if j < locals then slots j
  else if j < locals + layout.numLocalSlots then 0
  else layout.constants.getD (j - (locals + layout.numLocalSlots)) (slots j)

/-- One argument store of `m3_Call`; a 32-bit one leaves the upper half alone. -/
def writeArg (slots : Slots) (s : Nat) (type : M3ValueType) (word : UInt64) : Option Slots :=
  match type with
  | .i32 | .f32 => some (Function.update slots s word.toUInt32)
  | .i64 | .f64 => some (slots.write64 s word)
  | _ => none

/-- The argument loop of `m3_Call`. -/
def writeArgs (slots : Slots) (s : Nat) : List (M3ValueType × UInt64) → Option Slots
  | [] => some slots
  -- each argument has two slots, whatever its width
  | (type, word) :: rest => (writeArg slots s type word).bind fun slots => writeArgs slots (s + 2) rest

/-- `m3_Call` up to `RunCode`, which then starts at `runtime->stack`: the slots with the arguments
in place, or the error returned.  `none` is a null `i_function->module`, which is followed. -/
def m3Call (inst : Instance) (rt : M3Runtime) (slots : Slots) (fn : Nat) (args : List UInt64) :
    Option (Except M3Err Slots) :=
  match inst.module.functions[fn]? with
  | none => none
  | some f =>
    -- `i_function->module->runtime` comes before every check
    if f.module = false then none
    else if args.length ≠ f.funcType.args.length then some (.error .argumentCountMismatch)
    else if f.compiled = none then some (.error .missingCompiledCode)
    else
      match writeArgs slots (rt.stack + 2 * f.funcType.rets.length) (f.funcType.args.zip args) with
      | none => some (.error .unknownArgumentType)
      | some slots => some (.ok slots)

theorem writeArg_below {slots slots' : Slots} {s : Nat} {type : M3ValueType} {word : UInt64}
    (h : writeArg slots s type word = some slots') {j : Nat} (hj : j < s) : slots' j = slots j := by
  cases type with
  | none | v128 | unknown => cases h
  | i32 | f32 =>
    cases h
    exact Function.update_of_ne (by omega) _ _
  | i64 | f64 =>
    cases h
    exact Slots.write64_of_lt slots word hj

/-- The loop stores the first argument, and then the others further up. -/
theorem writeArgs_cons {slots slots' : Slots} {s : Nat} {type : M3ValueType} {word : UInt64}
    {rest : List (M3ValueType × UInt64)}
    (h : writeArgs slots s ((type, word) :: rest) = some slots') :
    ∃ middle, writeArg slots s type word = some middle ∧
      writeArgs middle (s + 2) rest = some slots' := by
  rw [writeArgs] at h
  exact Option.bind_eq_some_iff.mp h

theorem writeArgs_below {types : List (M3ValueType × UInt64)} {slots slots' : Slots} {s : Nat}
    (h : writeArgs slots s types = some slots') {j : Nat} (hj : j < s) : slots' j = slots j := by
  induction types generalizing slots s with
  | nil =>
    cases h
    rfl
  | cons arg rest ih =>
    rcases arg with ⟨type, word⟩
    rcases writeArgs_cons h with ⟨middle, hwrite, hrest⟩
    rw [ih hrest (by omega), writeArg_below hwrite hj]

/-- Every argument is stored at its own place and left there. -/
theorem writeArgs_at {types : List (M3ValueType × UInt64)} {slots slots' : Slots} {s i : Nat}
    {type : M3ValueType} {word : UInt64} (h : writeArgs slots s types = some slots')
    (hi : types[i]? = some (type, word)) :
    ∃ before after, writeArg before (s + 2 * i) type word = some after ∧
      ∀ j < s + 2 * i + 2, slots' j = after j := by
  induction types generalizing slots s i with
  | nil => cases hi
  | cons arg rest ih =>
    rcases writeArgs_cons h with ⟨middle, hwrite, hrest⟩
    cases i with
    | zero =>
      cases hi
      exact ⟨slots, middle, hwrite, fun j hj => writeArgs_below hrest hj⟩
    | succ i =>
      rw [List.getElem?_cons_succ] at hi
      rcases ih hrest hi with ⟨before, after, hat, habove⟩
      have hplace : s + 2 + 2 * i = s + 2 * (i + 1) := by omega
      rw [hplace] at hat habove
      exact ⟨before, after, hat, habove⟩

/-- A call that starts has its argument count right and its arguments stored. -/
theorem m3Call_ok {inst : Instance} {rt : M3Runtime} {slots slots' : Slots} {fn : Nat}
    {args : List UInt64} (h : m3Call inst rt slots fn args = some (.ok slots')) :
    ∃ f, inst.module.functions[fn]? = some f ∧ args.length = f.funcType.args.length ∧
      writeArgs slots (rt.stack + 2 * f.funcType.rets.length) (f.funcType.args.zip args) =
        some slots' := by
  unfold m3Call at h
  cases hf : inst.module.functions[fn]? with
  | none => simp [hf] at h
  | some f =>
    simp only [hf] at h
    rcases neg_of_ite h nofun with ⟨-, h⟩
    rcases neg_of_ite h nofun with ⟨hcount, h⟩
    rcases neg_of_ite h nofun with ⟨-, h⟩
    cases hwrite : writeArgs slots (rt.stack + 2 * f.funcType.rets.length)
        (f.funcType.args.zip args) with
    | none => simp [hwrite] at h
    | some written =>
      simp only [hwrite] at h
      cases h
      exact ⟨f, rfl, not_not.mp hcount, hwrite⟩

/-- One result read of `m3_GetResults` into a zeroed 64-bit slot. -/
def readResult (slots : Slots) (s : Nat) : M3ValueType → Option UInt64
  | .i32 | .f32 => some (slots s).toUInt64
  | .i64 | .f64 => some (slots.read64 s)
  | _ => none

/-- `m3_GetResults` for all results of the function. -/
def m3GetResults (rt : M3Runtime) (slots : Slots) (fn : Nat) (rets : List M3ValueType) :
    Except M3Err (List UInt64) :=
  if rt.lastCalled ≠ some fn then .error .functionNotCalled
  else match rets.zipIdx.mapM fun (type, i) => readResult slots (rt.stack + 2 * i) type with
    | none => .error .unknownReturnType
    | some words => .ok words

/-- `throwWasmError`: the exception thrown and what is left in `pendingException`. -/
def throwWasmError (pendingException : Option JsException) (result : M3Err) :
    JsException × Option JsException :=
  -- only the sentinel hands out what is pending
  match result, pendingException with
  | .trapJsException, some pending => (pending, none)
  | result, pendingException => (.wasmError result, pendingException)

/-- The arguments of an export call; a missing one converts as `undefined`. -/
def coerceArgs (types : List M3ValueType) (args : List JsValue) : Except JsException (List UInt64) :=
  types.zipIdx.mapM fun (type, i) => valueToSlot type (args.getD i .undefined)

/-- The host function of an export from the return of `m3_Call` on. -/
def exportReturn (rt : M3Runtime) (slots : Slots) (pendingException : Option JsException) (fn : Nat)
    (rets : List M3ValueType) (result : M3Result) : JsEvent × Option JsException :=
  match result with
  | some e =>
    let (thrown, pending) := throwWasmError pendingException e
    (.threw thrown, pending)
  | none =>
    -- a function without results is not asked for any
    if rets.length = 0 then (.returned [], pendingException)
    else match m3GetResults rt slots fn rets with
      | .error e =>
        let (thrown, pending) := throwWasmError pendingException e
        (.threw thrown, pending)
      | .ok words =>
        match (rets.zip words).mapM fun (type, word) => slotToValue type word with
        | .error e => (.threw e, pendingException)
        | .ok values => (.returned values, pendingException)

/-- The host function's last part as a step of the configuration. -/
def finishExport (c : Config) (rest : List Frame) (fn : Nat) (rets : List M3ValueType)
    (result : M3Result) : Config :=
  let rt : M3Runtime := { c.rt with lastCalled := if result.isSome then none else some fn }
  let outcome := exportReturn rt c.slots c.pendingException fn rets result
  { c with
    rt := rt
    pendingException := outcome.2
    control := .js outcome.1
    frames := rest }

/-- `m3_RunStart` up to `RunCode`: its result so far, `none` for a null module. -/
def m3RunStart (f : M3Function) : Option M3Result :=
  if f.compiled = none then some (some .functionBodyMissing)
  else if f.funcType ≠ {} then some (some .argumentCountMismatch)
  else if f.module = false then none
  else some none

/-- The end of `m3_RunStart` and of the start call in `instantiate`. -/
def finishStart (c : Config) (rest : List Frame) (result : M3Result) : Config :=
  match result with
  | some e =>
    { c with
      pendingException := (throwWasmError c.pendingException e).2
      control := .js (.threw (throwWasmError c.pendingException e).1)
      frames := rest }
  | none => { c with control := .js (.returned []), frames := rest }

/-- The function `op_CallIndirect` calls, or the trap it raises instead. -/
def indirectTarget (inst : Instance) (tableIndex : Nat) (type : M3FuncType) : Except M3Err Nat :=
  match inst.module.table0[tableIndex]? with
  | none => .error .trapTableIndexOutOfRange
  | some none => .error .trapTableElementIsNull
  | some (some fn) =>
    match inst.module.functions[fn]? with
    | none => .error .trapTableElementIsNull
    | some f =>
      if type ≠ f.funcType then .error .trapIndirectCallTypeMismatch
      else if f.compiled = none then .error .functionBodyMissing
      else .ok fn

/-- What `memory.grow` gives its caller. -/
def growEvent : Except JsException JsNumber → JsEvent
  | .ok previousPages => .returned [.number previousPages]
  | .error e => .threw e

/-- A loop whose body control is in: its frame is above the entry of the running function. -/
def enclosingLoop (id : Nat) : List Frame → Bool
  | .opLoop id' _ :: rest => id = id' || enclosingLoop id rest
  | _ => false

/-! ## Steps -/

inductive Action where
  | callExport (fn : Nat) (args : List JsValue)
  | runStart (fn : Nat)
  | growMemory (delta : JsValue) (os : SysCalls)
  | importReturns (value : JsValue)
  | importThrows (e : JsException)
  | enter
  | slotOp
  | store
  | memSize
  | memGrow (os : SysCalls)
  | call (fn stackOffset : Nat)
  | callIndirect (tableIndex : Nat) (type : M3FuncType) (stackOffset : Nat)
  | loop
  | continueLoop
  | return
  | trap (e : M3Err)
  | unwind

/-- The transitions.  JavaScript's own choices are the argument of its actions; the operations that
compiled code consists of come in any order. -/
inductive Step (inst : Instance) : Config → Action → Config → Prop where
  /- makeExportFunction's host function -/
  | callExportThrows {c : Config} {event : JsEvent} {fn : Nat} {args : List JsValue}
      {f : M3Function} {e : JsException}
      (hjs : c.control = .js event) (hf : inst.module.functions[fn]? = some f)
      (hargs : coerceArgs f.funcType.args args = .error e) :
      Step inst c (.callExport fn args) { c with control := .js (.threw e) }
  | callExportRefused {c : Config} {event : JsEvent} {fn : Nat} {args : List JsValue}
      {f : M3Function} {words : List UInt64} {e : M3Err}
      (hjs : c.control = .js event) (hf : inst.module.functions[fn]? = some f)
      (hargs : coerceArgs f.funcType.args args = .ok words)
      (hcall : m3Call inst c.rt c.slots fn words = some (.error e)) :
      Step inst c (.callExport fn args)
        { c with
          pendingException := (throwWasmError none e).2
          control := .js (.threw (throwWasmError none e).1) }
  | callExport {c : Config} {event : JsEvent} {fn : Nat} {args : List JsValue}
      {f : M3Function} {words : List UInt64} {slots : Slots}
      (hjs : c.control = .js event) (hf : inst.module.functions[fn]? = some f)
      (hargs : coerceArgs f.funcType.args args = .ok words)
      (hcall : m3Call inst c.rt c.slots fn words = some (.ok slots)) :
      Step inst c (.callExport fn args)
        { c with
          slots := slots
          pendingException := none
          control := .enter fn c.rt.stack (mallocated c.rt)
          frames := .exportCall fn :: c.frames }
  /- m3_RunStart, from instantiate -/
  | runStartRefused {c : Config} {event : JsEvent} {fn : Nat} {f : M3Function} {e : M3Err}
      (hjs : c.control = .js event) (hframes : c.frames = [])
      (hf : inst.module.functions[fn]? = some f) (hstart : m3RunStart f = some (some e)) :
      Step inst c (.runStart fn)
        { c with
          pendingException := (throwWasmError none e).2
          control := .js (.threw (throwWasmError none e).1) }
  | runStart {c : Config} {event : JsEvent} {fn : Nat} {f : M3Function}
      (hjs : c.control = .js event) (hframes : c.frames = [])
      (hf : inst.module.functions[fn]? = some f) (hstart : m3RunStart f = some none) :
      Step inst c (.runStart fn)
        { c with
          pendingException := none
          control := .enter fn c.rt.stack (mallocated c.rt)
          frames := [.runStart fn] }
  /- WasmMemory::getGrow's host function -/
  | growMemory {c : Config} {event : JsEvent} {delta : JsValue} {os : SysCalls}
      {result : Except JsException JsNumber} {rt : M3Runtime}
      (hjs : c.control = .js event) (hgrow : growHostFunction c.rt delta os = some (result, rt)) :
      Step inst c (.growMemory delta os)
        { c with
          rt := rt
          control := .js (growEvent result) }
  /- CallImportedFunction from the return of the JavaScript call on, and op_CallRawFunction after it -/
  | importReturns {c : Config} {event : JsEvent} {fn sp stackBackup : Nat} {rest : List Frame}
      {f : M3Function} {value : JsValue}
      (hjs : c.control = .js event) (hframes : c.frames = .opCallRaw fn sp stackBackup :: rest)
      (hf : inst.module.functions[fn]? = some f) (hrets : f.funcType.rets = []) :
      Step inst c (.importReturns value)
        { c with rt := { c.rt with stack := stackBackup }, control := .ret .none, frames := rest }
  | importReturnsValue {c : Config} {event : JsEvent} {fn sp stackBackup : Nat} {rest : List Frame}
      {f : M3Function} {type : M3ValueType} {value : JsValue} {word : UInt64}
      (hjs : c.control = .js event) (hframes : c.frames = .opCallRaw fn sp stackBackup :: rest)
      (hf : inst.module.functions[fn]? = some f) (hrets : f.funcType.rets = [type])
      (hvalue : valueToSlot type value = .ok word) :
      Step inst c (.importReturns value)
        { c with
          rt := { c.rt with stack := stackBackup }
          slots := c.slots.write64 sp word
          control := .ret .none
          frames := rest }
  | importCoercionFails {c : Config} {event : JsEvent} {fn sp stackBackup : Nat}
      {rest : List Frame} {f : M3Function} {type : M3ValueType} {value : JsValue} {e : JsException}
      (hjs : c.control = .js event) (hframes : c.frames = .opCallRaw fn sp stackBackup :: rest)
      (hf : inst.module.functions[fn]? = some f) (hrets : f.funcType.rets = [type])
      (hvalue : valueToSlot type value = .error e) :
      Step inst c (.importReturns value)
        { c with
          rt := { c.rt with stack := stackBackup }
          slots := c.slots.write64 sp 0
          pendingException := some e
          control := .ret (.trap .trapJsException)
          frames := rest }
  | importThrows {c : Config} {event : JsEvent} {fn sp stackBackup : Nat} {rest : List Frame}
      {e : JsException}
      (hjs : c.control = .js event) (hframes : c.frames = .opCallRaw fn sp stackBackup :: rest) :
      Step inst c (.importThrows e)
        { c with
          rt := { c.rt with stack := stackBackup }
          pendingException := some e
          control := .ret (.trap .trapJsException)
          frames := rest }
  /- op_Entry -/
  | enter {c : Config} {fn sp : Nat} {mem : Option Addr} {f : M3Function}
      (henter : c.control = .enter fn sp mem) (hf : inst.module.functions[fn]? = some f)
      (hcode : f.compiled = some .wasm) (hcheck : StackCheck c.rt (inst.layout fn) sp mem true) :
      Step inst c .enter
        { c with
          slots := entrySlots (inst.layout fn) c.slots sp
          control := .op sp mem 0
          frames := .opEntry fn :: c.frames }
  | enterOverflow {c : Config} {fn sp : Nat} {mem : Option Addr} {f : M3Function}
      (henter : c.control = .enter fn sp mem) (hf : inst.module.functions[fn]? = some f)
      (hcode : f.compiled = some .wasm) (hcheck : StackCheck c.rt (inst.layout fn) sp mem false) :
      Step inst c .enter { c with control := .ret (.trap .trapStackOverflow) }
  /- op_CallRawFunction, with CallImportedFunction up to the JavaScript call -/
  | enterRawRaises {c : Config} {fn sp : Nat} {mem : Option Addr} {f : M3Function}
      {userdata : Nat} {entry : ImportEntry} {e : JsException}
      (henter : c.control = .enter fn sp mem) (hf : inst.module.functions[fn]? = some f)
      (hcode : f.compiled = some (.rawFunction userdata))
      (hentry : inst.imports[userdata]? = some entry)
      (hcall : callImportedFunction entry f.funcType c.slots sp = .raise e) :
      Step inst c .enter
        { c with pendingException := some e, control := .ret (.trap .trapJsException) }
  | enterRawFails {c : Config} {fn sp : Nat} {mem : Option Addr} {f : M3Function}
      {userdata : Nat} {entry : ImportEntry} {e : M3Err}
      (henter : c.control = .enter fn sp mem) (hf : inst.module.functions[fn]? = some f)
      (hcode : f.compiled = some (.rawFunction userdata))
      (hentry : inst.imports[userdata]? = some entry)
      (hcall : callImportedFunction entry f.funcType c.slots sp = .fail e) :
      Step inst c .enter { c with control := .ret (.trap e) }
  | enterRaw {c : Config} {fn sp : Nat} {mem : Option Addr} {f : M3Function}
      {userdata : Nat} {entry : ImportEntry} {callee : Nat} {args : List JsValue}
      (henter : c.control = .enter fn sp mem) (hf : inst.module.functions[fn]? = some f)
      (hcode : f.compiled = some (.rawFunction userdata))
      (hentry : inst.imports[userdata]? = some entry)
      (hcall : callImportedFunction entry f.funcType c.slots sp = .call callee args) :
      Step inst c .enter
        { c with
          rt := { c.rt with stack := sp }
          control := .js (.called callee args)
          frames := .opCallRaw fn sp c.rt.stack :: c.frames }
  /- operations that only touch slots and registers, branches within the function included -/
  | slotOp {c : Config} {sp : Nat} {mem : Option Addr} {r0 r0' : Int} {slots : Slots}
      (hop : c.control = .op sp mem r0) (hslots : ∀ j < sp, slots j = c.slots j) :
      Step inst c .slotOp { c with slots := slots, control := .op sp mem r0' }
  /- a byte written by a store, memory.copy or memory.fill -/
  | store {c : Config} {sp : Nat} {mem : Option Addr} {r0 : Int} {index : Nat} {byte : UInt8}
      {b : M3Block}
      (hop : c.control = .op sp mem r0) (hb : c.rt.memory.mallocated = some b)
      (hindex : mem = some b.addr → index < b.length) :
      Step inst c .store
        { c with rt := { c.rt with memory := { c.rt.memory with
            mallocated := some { b with bytes := Function.update b.bytes index byte } } } }
  /- op_MemSize, op_MemGrow -/
  | memSize {c : Config} {sp : Nat} {mem : Option Addr} {r0 : Int}
      (hop : c.control = .op sp mem r0) :
      Step inst c .memSize { c with control := .op sp mem c.rt.memory.numPages.toNat }
  | memGrow {c : Config} {sp : Nat} {mem : Option Addr} {r0 : Int} {os : SysCalls}
      (hop : c.control = .op sp mem r0) :
      Step inst c (.memGrow os)
        { c with
          rt := (opMemGrow c.rt r0 os).2
          control := .op sp
            (if UInt32.ofInt r0 ≠ 0 then mallocated (opMemGrow c.rt r0 os).2 else mem)
            (opMemGrow c.rt r0 os).1 }
  /- op_Call, or op_Compile, which does the same once the function is compiled -/
  | call {c : Config} {sp stackOffset fn : Nat} {mem : Option Addr} {r0 : Int} {f : M3Function}
      (hop : c.control = .op sp mem r0) (hf : inst.module.functions[fn]? = some f)
      (hcode : f.compiled.isSome) (hdepth : c.rt.callDepth < d_m3MaxCallDepth) :
      Step inst c (.call fn stackOffset)
        { c with
          rt := { c.rt with callDepth := c.rt.callDepth + 1 }
          control := .enter fn (sp + stackOffset) mem
          frames := .opCall sp r0 :: c.frames }
  | callOverflow {c : Config} {sp stackOffset fn : Nat} {mem : Option Addr} {r0 : Int} {f : M3Function}
      (hop : c.control = .op sp mem r0) (hf : inst.module.functions[fn]? = some f)
      (hcode : f.compiled.isSome) (hdepth : d_m3MaxCallDepth ≤ c.rt.callDepth) :
      Step inst c (.call fn stackOffset) { c with control := .ret (.trap .trapStackOverflow) }
  /- op_Compile for a function without a body; no function is without code once `instantiate` has
  compiled them, so the step is never taken and what op_Compile rewrites before it fails is left out -/
  | callMissing {c : Config} {sp stackOffset fn : Nat} {mem : Option Addr} {r0 : Int} {f : M3Function}
      (hop : c.control = .op sp mem r0) (hf : inst.module.functions[fn]? = some f)
      (hcode : f.compiled = none) :
      Step inst c (.call fn stackOffset) { c with control := .ret (.trap .functionBodyMissing) }
  /- op_CallIndirect -/
  | callIndirect {c : Config} {sp stackOffset tableIndex fn : Nat} {mem : Option Addr} {r0 : Int}
      {type : M3FuncType}
      (hop : c.control = .op sp mem r0) (htarget : indirectTarget inst tableIndex type = .ok fn)
      (hdepth : c.rt.callDepth < d_m3MaxCallDepth) :
      Step inst c (.callIndirect tableIndex type stackOffset)
        { c with
          rt := { c.rt with callDepth := c.rt.callDepth + 1 }
          control := .enter fn (sp + stackOffset) mem
          frames := .opCallIndirect sp r0 :: c.frames }
  | callIndirectOverflow {c : Config} {sp stackOffset tableIndex fn : Nat} {mem : Option Addr}
      {r0 : Int} {type : M3FuncType}
      (hop : c.control = .op sp mem r0) (htarget : indirectTarget inst tableIndex type = .ok fn)
      (hdepth : d_m3MaxCallDepth ≤ c.rt.callDepth) :
      Step inst c (.callIndirect tableIndex type stackOffset)
        { c with control := .ret (.trap .trapStackOverflow) }
  | callIndirectTraps {c : Config} {sp stackOffset tableIndex : Nat} {mem : Option Addr} {r0 : Int}
      {type : M3FuncType} {e : M3Err}
      (hop : c.control = .op sp mem r0) (htarget : indirectTarget inst tableIndex type = .error e) :
      Step inst c (.callIndirect tableIndex type stackOffset)
        { c with control := .ret (.trap e) }
  /- op_Loop, op_ContinueLoop, op_Return and the traps of all other operations -/
  | loop {c : Config} {sp id : Nat} {mem : Option Addr} {r0 : Int}
      (hop : c.control = .op sp mem r0) :
      Step inst c .loop { c with control := .op sp mem 0, frames := .opLoop id sp :: c.frames }
  | continueLoop {c : Config} {sp id : Nat} {mem : Option Addr} {r0 : Int}
      (hop : c.control = .op sp mem r0) (hloop : enclosingLoop id c.frames) :
      Step inst c .continueLoop { c with control := .ret (.continueLoop id) }
  | return {c : Config} {sp : Nat} {mem : Option Addr} {r0 : Int}
      (hop : c.control = .op sp mem r0) :
      Step inst c .return { c with control := .ret .none }
  | trap {c : Config} {sp : Nat} {mem : Option Addr} {r0 : Int} {e : M3Err}
      (hop : c.control = .op sp mem r0) (he : e ≠ .trapJsException) :
      Step inst c (.trap e) { c with control := .ret (.trap e) }
  /- the frame below gets control back -/
  | unwindEntry {c : Config} {r : M3Ret} {fn : Nat} {rest : List Frame}
      (hret : c.control = .ret r) (hframes : c.frames = .opEntry fn :: rest) :
      Step inst c .unwind { c with frames := rest }
  | unwindLoop {c : Config} {r : M3Ret} {id sp : Nat} {rest : List Frame}
      (hret : c.control = .ret r) (hframes : c.frames = .opLoop id sp :: rest)
      (hr : r ≠ .continueLoop id) :
      Step inst c .unwind { c with frames := rest }
  | nextIteration {c : Config} {id sp : Nat} {rest : List Frame}
      (hret : c.control = .ret (.continueLoop id)) (hframes : c.frames = .opLoop id sp :: rest) :
      Step inst c .unwind { c with control := .op sp (mallocated c.rt) 0 }
  | callReturns {c : Config} {sp : Nat} {r0 : Int} {rest : List Frame}
      (hret : c.control = .ret .none)
      (hframes : c.frames = .opCall sp r0 :: rest ∨ c.frames = .opCallIndirect sp r0 :: rest) :
      Step inst c .unwind
        { c with
          rt := { c.rt with callDepth := c.rt.callDepth - 1 }
          control := .op sp (mallocated c.rt) r0
          frames := rest }
  | callTraps {c : Config} {r : M3Ret} {sp : Nat} {r0 : Int} {rest : List Frame}
      (hret : c.control = .ret r) (hr : r ≠ .none)
      (hframes : c.frames = .opCall sp r0 :: rest ∨ c.frames = .opCallIndirect sp r0 :: rest) :
      Step inst c .unwind
        { c with rt := { c.rt with callDepth := c.rt.callDepth - 1 }, frames := rest }
  | exportReturns {c : Config} {r : M3Ret} {result : M3Result} {fn : Nat} {rest : List Frame}
      {f : M3Function}
      (hret : c.control = .ret r) (hr : r.result = some result)
      (hframes : c.frames = .exportCall fn :: rest) (hf : inst.module.functions[fn]? = some f) :
      Step inst c .unwind (finishExport c rest fn f.funcType.rets result)
  | startReturns {c : Config} {r : M3Ret} {result : M3Result} {fn : Nat} {rest : List Frame}
      (hret : c.control = .ret r) (hr : r.result = some result)
      (hframes : c.frames = .runStart fn :: rest) :
      Step inst c .unwind (finishStart c rest result)

/-- All runs of an instance: JavaScript holds it, nothing is called yet. -/
def machine (inst : Instance) : System Config Action where
  init c := c.control = .js .idle ∧ c.frames = [] ∧ c.pendingException = none ∧
    c.rt.callDepth = 0
  step := Step inst

theorem unwind_ret {inst : Instance} {c c' : Config} (h : Step inst c .unwind c') :
    ∃ r, c.control = .ret r := by
  cases h with
  | unwindEntry hret | unwindLoop hret | nextIteration hret | callReturns hret | callTraps hret =>
    exact ⟨_, hret⟩
  | exportReturns hret | startReturns hret => exact ⟨_, hret⟩

/-- With control on its way back to the host function of an export, only that can happen. -/
theorem exportCall_step {inst : Instance} {c c' : Config} {a : Action} {r : M3Ret} {fn : Nat}
    {rest : List Frame} (hret : c.control = .ret r) (hframes : c.frames = .exportCall fn :: rest)
    (hstep : Step inst c a c') :
    ∃ result f, r.result = some result ∧ inst.module.functions[fn]? = some f ∧
      c' = finishExport c rest fn f.funcType.rets result := by
  cases hstep with
  | exportReturns hret' hr htop hf =>
    cases Control.ret.inj (hret.symm.trans hret')
    cases hframes.symm.trans htop
    exact ⟨_, _, hr, hf, rfl⟩
  | unwindEntry _ htop | unwindLoop _ htop | nextIteration _ htop | startReturns _ _ htop =>
    cases hframes.symm.trans htop
  | callReturns _ htop | callTraps _ _ htop =>
    rcases htop with htop | htop
    · cases hframes.symm.trans htop
    · cases hframes.symm.trans htop
  | _ => cases hret.symm.trans ‹c.control = _›

/-! ## A small instance -/

/-- Function 0 is the import `env.f`, function 1 has a body; both take and return nothing. -/
def importAndBody : Instance where
  module :=
    { functions :=
        [{ module := true, importInfo := ⟨some (ascii "env"), some (ascii "f")⟩,
           compiled := some (.rawFunction 0) },
         { module := true, wasm := some [4, 0, 0x10, 0, 0x0b], compiled := some .wasm }]
      table0 := [some 1] }
  imports := [⟨some 7, ascii "env", ascii "f"⟩]
  layout _ := ⟨4, 0, 2, []⟩
  linked := by
    intro f hf userdata hcode
    rcases List.mem_cons.mp hf with rfl | hf
    · decide
    · rw [List.mem_singleton.mp hf] at hcode
      cases hcode

/-- One page of memory that was not reserved, so that growth reallocates it. -/
def onePageConfig : Config where
  rt :=
    { stack := 0
      numStackSlots := 64
      memory :=
        { mallocated := some ⟨4096, 64, 65536, fun _ => 0⟩, numPages := 1, maxPages := 4 } }
  slots _ := 0

theorem onePageConfig_reachable : (machine importAndBody).Reachable onePageConfig :=
  .init ⟨rfl, rfl, rfl, rfl⟩

/-- Function 1 called by JavaScript, at its first operation. -/
def bodyEntered : Config :=
  { onePageConfig with
    slots := entrySlots ⟨4, 0, 2, []⟩ (fun _ => 0) 0
    control := .op 0 (some 4096) 0
    frames := [.opEntry 1, .exportCall 1] }

theorem bodyEntered_reachable : (machine importAndBody).Reachable bodyEntered := by
  refine .step (a := .enter) (.step (a := .callExport 1 []) onePageConfig_reachable
    (.callExport rfl rfl rfl rfl)) (.enter rfl rfl rfl ?_)
  intro b hb _
  cases hb
  rfl

end WebAssemblyRuntime.Binding
