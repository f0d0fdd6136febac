import WebAssemblyRuntime.Binding.Instantiate
import WebAssemblyRuntime.Polyfill.Scanners

/-!
# ModuleSnapshot — what a `Module` keeps of its source

A `Module` reads its bytes again whenever it is used.  Whether they can have changed since they were
validated depends on whether `toArrayBuffer` has copied them.
-/

open WebAssemblyRuntime.Polyfill WebAssemblyRuntime.Reasoning WebAssemblyRuntime.Wasm3

namespace WebAssemblyRuntime.Binding

/-! ## Buffers -/

/-- The `ArrayBuffer`s of a program, by identity. -/
abbrev Buffers := List ArrayBuffer

def Buffers.contents (buffers : Buffers) (id : Nat) : ArrayBuffer :=
  buffers.getD id ⟨[], Nat.zero_le _⟩

/-- One byte written at an offset; a write past the end is lost. -/
structure BufferWrite where
  offset : Nat
  byte : UInt8

def ArrayBuffer.write (buffer : ArrayBuffer) (w : BufferWrite) : ArrayBuffer where
  bytes := buffer.bytes.set w.offset w.byte
  length_le := by
    rw [List.length_set]
    exact buffer.length_le

def Buffers.writeAll (buffers : Buffers) (id : Nat) (writes : List BufferWrite) : Buffers :=
  writes.foldl (fun buffers w => buffers.modify id (·.write w)) buffers

/-- `ArrayBuffer.prototype.slice`. -/
def ArrayBuffer.slice (buffer : ArrayBuffer) (start stop : Nat) : ArrayBuffer where
  bytes := (buffer.bytes.take stop).drop start
  length_le := by
    have hle := buffer.length_le
    rw [List.length_drop, List.length_take]
    omega

/-- An `ArrayBuffer`, or a view of a part of one. -/
inductive BufferSource (buffers : Buffers) where
  | arrayBuffer (id : Fin buffers.length)
  | view (buffer : Fin buffers.length) (byteOffset byteLength : Nat)
      (inBounds : byteOffset + byteLength ≤ (buffers.contents buffer).bytes.length)

namespace BufferSource

variable {buffers : Buffers}

/-- The buffer that holds the source's bytes. -/
def buffer : BufferSource buffers → Nat
  | arrayBuffer id => id
  | view buffer _ _ _ => buffer

def IsView : BufferSource buffers → Prop
  | arrayBuffer _ => False
  | view _ _ _ _ => True

end BufferSource

/-- `toArrayBuffer`: the buffers afterwards, and the one to be used. -/
def toArrayBuffer {buffers : Buffers} : BufferSource buffers → Buffers × Nat
  | .arrayBuffer id => (buffers, id)
  | .view buffer byteOffset byteLength _ =>
    (buffers ++ [(buffers.contents buffer).slice byteOffset (byteOffset + byteLength)],
      buffers.length)

/-! ## The class -/

/-- A `Module` is the identity of its `__bytes`. -/
structure Module where
  bytes : Nat

/-- `RNWebassembly_validate`. -/
def validateNative (buffer : ArrayBuffer) : Bool :=
  (m3ParseModule (buffer.bytes.take (UInt32.ofNat buffer.bytes.length).toNat)).toOption.isSome

namespace Module

/-- The constructor. -/
def new {buffers : Buffers} (source : BufferSource buffers) : Except CompileError (Buffers × Module) :=
  let (buffers, bytes) := toArrayBuffer source
  if validateNative (buffers.contents bytes) then .ok (buffers, ⟨bytes⟩)
  else .error ⟨"WebAssembly.Module(): module validation failed."⟩

def exports (module : Module) (buffers : Buffers) :
    Except CompileError (List ModuleExportDescriptor) :=
  scanExports (buffers.contents module.bytes).bytes

def imports (module : Module) (buffers : Buffers) :
    Except CompileError (List ModuleImportDescriptor) :=
  scanImports (buffers.contents module.bytes).bytes

def customSections (module : Module) (buffers : Buffers) (sectionName : JsString) :
    Except CompileError (List (List UInt8)) :=
  scanCustomSections (buffers.contents module.bytes).bytes sectionName

/-- `new Instance (module, importObject)` up to the start function. -/
def instantiate (module : Module) (buffers : Buffers) (host : Host) (importObject : ImportObject)
    (options : InstantiateOptions) : Except Failure Prepared :=
  prepare host (buffers.contents module.bytes) importObject options

end Module

/-- Whatever the module is used for has the same outcome with either buffers. -/
structure SameResults (module : Module) (buffers buffers' : Buffers) : Prop where
  exports : module.exports buffers' = module.exports buffers
  imports : module.imports buffers' = module.imports buffers
  customSections : ∀ sectionName,
    module.customSections buffers' sectionName = module.customSections buffers sectionName
  instantiate : ∀ host importObject options,
    module.instantiate buffers' host importObject options =
      module.instantiate buffers host importObject options
  instantiates : ∀ host importObject options native p,
    Instantiates host (buffers'.contents module.bytes) importObject options native p ↔
      Instantiates host (buffers.contents module.bytes) importObject options native p
  validated : validateNative (buffers'.contents module.bytes) =
    validateNative (buffers.contents module.bytes)

theorem SameResults.of_contents {module : Module} {buffers buffers' : Buffers}
    (h : buffers'.contents module.bytes = buffers.contents module.bytes) :
    SameResults module buffers buffers' where
  exports := congrArg (fun b : ArrayBuffer => scanExports b.bytes) h
  imports := congrArg (fun b : ArrayBuffer => scanImports b.bytes) h
  customSections _ := congrArg (fun b : ArrayBuffer => scanCustomSections b.bytes _) h
  instantiate _ _ _ := congrArg (fun b => prepare _ b _ _) h
  instantiates _ _ _ _ _ := by rw [h]
  validated := congrArg validateNative h

/-! ## Writes to the source -/

variable {buffers : Buffers} {source : BufferSource buffers} {module : Module}

/-- Writing to one buffer leaves the others. -/
theorem contents_writeAll {id other : Nat} (hother : other ≠ id) (writes : List BufferWrite)
    (buffers : Buffers) :
    (buffers.writeAll id writes).contents other = buffers.contents other := by
  unfold Buffers.writeAll
  induction writes generalizing buffers with
  | nil => rfl
  | cons w writes ih =>
    rw [List.foldl_cons, ih]
    unfold Buffers.contents
    simp only [List.getD_eq_getElem?_getD, List.getElem?_modify, if_neg (Ne.symm hother)]
    cases buffers[other]? with
    | none => rfl
    | some buffer => rfl

theorem new_ok {buffers' : Buffers} (h : Module.new source = .ok (buffers', module)) :
    toArrayBuffer source = (buffers', module.bytes) ∧
      validateNative (buffers'.contents module.bytes) := by
  unfold Module.new at h
  rcases pos_of_ite h nofun with ⟨hvalid, h⟩
  cases h
  exact ⟨rfl, hvalid⟩

/-- The bytes of a view are copied into a buffer that no one else has. -/
theorem sameResults_of_view {buffers' : Buffers} (h : Module.new source = .ok (buffers', module))
    (hview : source.IsView) (writes : List BufferWrite) :
    SameResults module buffers' (buffers'.writeAll source.buffer writes) := by
  have hcopy := (new_ok h).1
  apply SameResults.of_contents
  cases source with
  | arrayBuffer id => cases hview
  | view buffer byteOffset byteLength inBounds =>
    have hfresh : buffers.length = module.bytes := congrArg Prod.snd hcopy
    apply contents_writeAll
    rw [← hfresh]
    exact Nat.ne_of_gt buffer.isLt

/-- The magic number ends with a zero bit. -/
theorem m3ParseModule_overwritten {bytes : Bytes} (h : 8 ≤ bytes.length) :
    m3ParseModule (bytes.set 0 0xff) = .error .wasmMalformed := by
  match bytes, h with
  | _ :: b1 :: b2 :: b3 :: b4 :: b5 :: b6 :: b7 :: rest, _ =>
    have hmagic : (0xff : UInt8).toUInt32 ||| b1.toUInt32 <<< 8 ||| b2.toUInt32 <<< 16 |||
        b3.toUInt32 <<< 24 ≠ 0x6d736100 := by
      intro heq
      have hbit := congrArg (fun n : UInt32 => n.toNat.testBit 0) heq
      simp only [UInt32.toNat_or, Nat.testBit_or] at hbit
      rw [show (0xff : UInt8).toUInt32.toNat.testBit 0 = true by decide, Bool.true_or, Bool.true_or,
        Bool.true_or] at hbit
      exact absurd hbit (by decide)
    unfold m3ParseModule
    rw [List.set_cons_zero]
    show (throwIf .wasmMalformed _).bind _ = _
    rw [decide_eq_true hmagic]
    rfl

def malformedException : Failure :=
  .exception (.error
    ("[WebAssembly.CompileError] " ++ "Failed to parse module: " ++ M3Err.wasmMalformed.text))

theorem orCompileError_ne {α : Type} {text : String} (result : Except M3Err α)
    (h : ∀ e : M3Err, "[WebAssembly.CompileError] " ++ text ++ e.text ≠
      "[WebAssembly.CompileError] " ++ "Failed to parse module: " ++ M3Err.wasmMalformed.text) :
    orCompileError text result ≠ .error malformedException := by
  intro heq
  cases result with
  | ok a => cases heq
  | error e =>
    have hexception := Failure.exception.inj (Except.error.inj heq)
    exact h e (JsException.error.inj hexception)

theorem linkImports_error {importObject : ImportObject} {functions : List M3Function}
    {e : JsException} (h : linkImports importObject functions = .error e) :
    ∃ moduleName fieldName result, e = .linkError moduleName fieldName result := by
  refine foldlM_error (Q := fun e => ∃ moduleName fieldName result,
    e = .linkError moduleName fieldName result) ?_ h
  intro state i e hstep
  unfold linkImport at hstep
  split at hstep
  · cases hstep
  · split at hstep
    · cases hstep
    · split at hstep
      · cases hstep
        exact ⟨_, _, _, rfl⟩
      · simp only at hstep
        split at hstep
        · cases hstep
          exact ⟨_, _, _, rfl⟩
        · cases hstep

/-- No later step of `instantiate` fails as the parser does. -/
theorem prepare_ne_malformed {host : Host} {bufferSource : ArrayBuffer}
    {importObject : ImportObject} {options : InstantiateOptions}
    (hvalid : validateNative bufferSource) :
    prepare host bufferSource importObject options ≠ .error malformedException := by
  rcases ok_of_isSome hvalid with ⟨parsed, hparse⟩
  intro h
  rcases bind_error h with h | ⟨parsed', -, h⟩
  · rw [hparse] at h
    cases h
  rcases bind_error h with h | ⟨⟨rt, m⟩, -, h⟩
  · refine orCompileError_ne _ ?_ h
    intro e
    cases e <;> decide
  rcases bind_error h with h | ⟨linked, -, h⟩
  · cases hlink : linkImports importObject m.functions with
    | ok linked =>
      rw [hlink] at h
      cases h
    | error e =>
      rcases linkImports_error hlink with ⟨moduleName, fieldName, result, rfl⟩
      rw [hlink] at h
      cases h
  rcases bind_error h with h | ⟨⟨m', layout⟩, -, h⟩
  · refine orCompileError_ne _ ?_ h
    intro e
    cases e <;> decide
  simp only at h
  split at h
  · cases h
  · cases h

theorem prepare_malformed {host : Host} {bufferSource : ArrayBuffer} {importObject : ImportObject}
    {options : InstantiateOptions} (h : m3ParseModule (bufferSource.bytes.take
      (UInt32.ofNat bufferSource.bytes.length).toNat) = .error .wasmMalformed) :
    prepare host bufferSource importObject options = .error malformedException := by
  show Except.bind (orCompileError _ _) _ = _
  rw [h]
  rfl

/-- An `ArrayBuffer` is used in place: overwrite its first byte, and it is no module any more. -/
theorem not_sameResults_of_arrayBuffer {buffers' : Buffers}
    (h : Module.new source = .ok (buffers', module)) (hbuffer : ¬ source.IsView) :
    ¬ SameResults module buffers' (buffers'.writeAll source.buffer [⟨0, 0xff⟩]) := by
  rcases new_ok h with ⟨huse, hvalid⟩
  cases source with
  | view buffer byteOffset byteLength inBounds => exact absurd trivial hbuffer
  | arrayBuffer id =>
    have hbuffers : buffers = buffers' := congrArg Prod.fst huse
    have hbytes : id.val = module.bytes := congrArg Prod.snd huse
    subst hbuffers
    have hwritten : (buffers.writeAll id [⟨0, 0xff⟩]).contents module.bytes =
        (buffers.contents module.bytes).write ⟨0, 0xff⟩ := by
      rw [← hbytes]
      show (buffers.modify id.val _).getD id.val _ = (buffers.getD id.val _).write _
      simp only [List.getD_eq_getElem?_getD, List.getElem?_modify,
        List.getElem?_eq_getElem id.isLt]
      rfl
    intro hsame
    have hprepared := hsame.instantiate ⟨constantEngine, 0, .granting 4096, .granting 4096, utf8Decode⟩
      .empty {}
    unfold Module.instantiate at hprepared
    rw [show (buffers.writeAll (BufferSource.arrayBuffer id).buffer [⟨0, 0xff⟩]).contents
      module.bytes = _ from hwritten] at hprepared
    refine prepare_ne_malformed hvalid (hprepared.symm.trans (prepare_malformed ?_))
    -- the length stays, so the parser still gets all of the bytes
    rcases ok_of_isSome hvalid with ⟨parsed, hparse⟩
    have hall := parsedBytes_eq _ hparse
    rw [hall] at hparse
    have hlength := congrArg List.length hall
    show m3ParseModule (((buffers.contents module.bytes).bytes.set 0 0xff).take
      (UInt32.ofNat ((buffers.contents module.bytes).bytes.set 0 0xff).length).toNat) = _
    rw [List.length_set, List.take_of_length_le (by
      rw [List.length_set]
      rw [List.length_take] at hlength
      omega)]
    exact m3ParseModule_overwritten (m3ParseModule_ok hparse).1

/-- A module is a snapshot of its source exactly when the source is a view. -/
theorem moduleSnapshot {buffers' : Buffers} (h : Module.new source = .ok (buffers', module)) :
    (∀ writes, SameResults module buffers' (buffers'.writeAll source.buffer writes)) ↔
      source.IsView := by
  constructor
  · intro hsame
    by_contra hbuffer
    exact not_sameResults_of_arrayBuffer h hbuffer (hsame _)
  · exact sameResults_of_view h

/-- Two buffers: an empty type section after the header, and the same after four other bytes. -/
def twoBuffers : Buffers :=
  [⟨wasmHeader ++ [1, 1, 0], by decide⟩, ⟨[1, 2, 3, 4] ++ wasmHeader ++ [1, 1, 0], by decide⟩]

def viewAfterFourBytes : BufferSource twoBuffers := .view ⟨1, by decide⟩ 4 11 (by decide)

def wholeBuffer : BufferSource twoBuffers := .arrayBuffer ⟨0, by decide⟩

theorem moduleSnapshot_view : ∃ buffers' module, Module.new viewAfterFourBytes = .ok (buffers', module) ∧
    ∀ writes, SameResults module buffers' (buffers'.writeAll 1 writes) := by
  have hnew : Module.new viewAfterFourBytes =
      .ok (twoBuffers ++ [⟨wasmHeader ++ [1, 1, 0], by decide⟩], ⟨2⟩) := by
    have hvalid : validateNative ((toArrayBuffer viewAfterFourBytes).1.contents (toArrayBuffer viewAfterFourBytes).2) := by
      decide +kernel
    unfold Module.new
    simp only [if_pos hvalid]
    rfl
  exact ⟨_, _, hnew, (moduleSnapshot hnew).mpr trivial⟩

/-- Overwriting the first byte of the source makes a validated module one that cannot be parsed. -/
theorem moduleSnapshot_fails : ∃ module, Module.new wholeBuffer = .ok (twoBuffers, module) ∧
    (module.instantiate twoBuffers constantHost .empty {}).toOption.isSome ∧
    module.instantiate (twoBuffers.writeAll 0 [⟨0, 0xff⟩]) constantHost .empty {} =
      .error malformedException ∧
    ¬ ∀ writes, SameResults module twoBuffers (twoBuffers.writeAll wholeBuffer.buffer writes) := by
  have hnew : Module.new wholeBuffer = .ok (twoBuffers, ⟨0⟩) := by
    have hvalid : validateNative ((toArrayBuffer wholeBuffer).1.contents (toArrayBuffer wholeBuffer).2) := by
      decide +kernel
    unfold Module.new
    simp only [if_pos hvalid]
    rfl
  refine ⟨⟨0⟩, hnew, by decide +kernel, ?_, ?_⟩
  · exact prepare_malformed (by decide +kernel)
  · intro hsame
    exact not_sameResults_of_arrayBuffer hnew (fun h => h) (hsame _)

end WebAssemblyRuntime.Binding
