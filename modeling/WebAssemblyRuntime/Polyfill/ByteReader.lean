import WebAssemblyRuntime.Polyfill.Utf8
import WebAssemblyRuntime.Reasoning.Loops

/-!
# ByteReader — the binary scanner of the polyfill

A `ByteReader` is the list of the bytes from its offset to the end of its array.  Reading past the
end throws.
-/

open WebAssemblyRuntime.Reasoning

namespace WebAssemblyRuntime.Polyfill

structure CompileError where
  message : String
  deriving DecidableEq, Repr

abbrev ByteReader := List UInt8

namespace ByteReader

def u8 : ByteReader → Except CompileError (UInt8 × ByteReader)
  | [] => .error ⟨"Unexpected end of module bytes."⟩
  | byte :: reader => .ok (byte, reader)

/-- The loop of `leb`, on the 32-bit integers of JavaScript's bit operations; `>>> 0` reads the
result as unsigned. -/
def lebLoop : ByteReader → Int32 → Nat → Except CompileError (UInt32 × ByteReader)
  | [], _, _ => .error ⟨"Unexpected end of module bytes."⟩
  | byte :: reader, result, shift =>
    -- a 32-bit shift: of the fifth byte the low four bits remain
    let result := result ||| (byte.toUInt32.toInt32 &&& 0x7f) <<< Int32.ofNat shift
    if byte &&& 0x80 = 0 then .ok (result.toUInt32, reader)
    else if 35 ≤ shift + 7 then .error ⟨"Malformed LEB128 in module bytes."⟩
    else lebLoop reader result (shift + 7)

def leb (reader : ByteReader) : Except CompileError (UInt32 × ByteReader) := lebLoop reader 0 0

/-- `bytes_`. -/
def bytes (length : Nat) (reader : ByteReader) : Except CompileError (List UInt8 × ByteReader) :=
  if reader.length < length then .error ⟨"Unexpected end of module bytes."⟩
  else .ok (reader.take length, reader.drop length)

def name (reader : ByteReader) : Except CompileError (JsString × ByteReader) := do
  let (length, reader) ← leb reader
  let (view, reader) ← bytes length.toNat reader
  .ok (utf8Decode view, reader)

theorem lebLoop_shrinks {reader rest : ByteReader} {result : Int32} {shift : Nat} {n : UInt32}
    (h : lebLoop reader result shift = .ok (n, rest)) : rest.length < reader.length := by
  induction reader generalizing result shift with
  | nil => cases h
  | cons byte reader ih =>
    rw [lebLoop] at h
    by_cases hlast : byte &&& 0x80 = 0
    · rw [if_pos hlast] at h
      cases h
      exact Nat.lt_succ_self _
    · rw [if_neg hlast] at h
      rcases neg_of_ite h nofun with ⟨-, h⟩
      exact Nat.lt_succ_of_lt (ih h)

end ByteReader

/-! ## Sections -/

/-- The walk over the sections after magic and version; `visit` gets a reader that ends with its
section, and stops the walk with `false`. -/
def walkSectionsFrom {σ : Type} (visit : UInt8 → ByteReader → UInt32 → σ →
    Except CompileError (Bool × σ)) (reader : ByteReader) (s : σ) : Except CompileError σ :=
  match reader with
  | [] => .ok s
  | id :: reader₁ =>
    match h : ByteReader.leb reader₁ with
    | .error e => .error e
    | .ok (size, reader₂) =>
      -- the visitor runs before the section's bytes are known to be there
      match visit id (reader₂.take size.toNat) size s with
      | .error e => .error e
      | .ok (false, s) => .ok s
      | .ok (true, s) =>
        have := ByteReader.lebLoop_shrinks h
        if reader₂.length < size.toNat then .error ⟨"Unexpected end of module bytes."⟩
        else walkSectionsFrom visit (reader₂.drop size.toNat) s
termination_by reader.length
decreasing_by
  rw [List.length_drop, List.length_cons]
  omega

def walkSections {σ : Type} (visit : UInt8 → ByteReader → UInt32 → σ →
    Except CompileError (Bool × σ)) (bytes : List UInt8) (s : σ) : Except CompileError σ :=
  if bytes.length < 8 then .error ⟨"Module is too short to be WebAssembly."⟩
  else walkSectionsFrom visit (bytes.drop 8) s

inductive ImportExportKind where
  | function
  | table
  | memory
  | global
  deriving DecidableEq, Repr

/-- `KINDS[kindByte]`. -/
def kinds : UInt8 → Option ImportExportKind
  | 0 => some .function
  | 1 => some .table
  | 2 => some .memory
  | 3 => some .global
  | _ => none

def kindByte : ImportExportKind → UInt8
  | .function => 0
  | .table => 1
  | .memory => 2
  | .global => 3

theorem kinds_eq {byte : UInt8} {kind : ImportExportKind} (h : kinds byte = some kind) :
    byte = kindByte kind := by
  unfold kinds at h
  split at h
  · cases h; rfl
  · cases h; rfl
  · cases h; rfl
  · cases h; rfl
  · cases h

theorem kinds_kindByte (kind : ImportExportKind) : kinds (kindByte kind) = some kind := by
  cases kind
  · rfl
  · rfl
  · rfl
  · rfl

structure ModuleExportDescriptor where
  name : JsString
  kind : ImportExportKind
  deriving DecidableEq, Repr

/-- One export; an entry of an unknown kind is left out. -/
def scanExport (_ : Nat) (s : List ModuleExportDescriptor × ByteReader) :
    Except CompileError (List ModuleExportDescriptor × ByteReader) := do
  let (name, reader) ← ByteReader.name s.2
  let (kindByte, reader) ← ByteReader.u8 reader
  let (_, reader) ← ByteReader.leb reader
  .ok (s.1 ++ ((kinds kindByte).map (⟨name, ·⟩)).toList, reader)

def visitExports (id : UInt8) (reader : ByteReader) (_ : UInt32)
    (result : List ModuleExportDescriptor) :
    Except CompileError (Bool × List ModuleExportDescriptor) :=
  if id ≠ 7 then .ok (true, result)
  else do
    let (count, reader) ← ByteReader.leb reader
    let (result, _) ← loop scanExport count.toNat 0 (result, reader)
    .ok (false, result)

def scanExports (bytes : List UInt8) : Except CompileError (List ModuleExportDescriptor) :=
  walkSections visitExports bytes []

end WebAssemblyRuntime.Polyfill
