import WebAssemblyRuntime.Polyfill.ByteReader

/-!
# Scanners — `Module.imports` and `Module.customSections`
-/

open WebAssemblyRuntime.Reasoning

namespace WebAssemblyRuntime.Polyfill

structure ModuleImportDescriptor where
  module : JsString
  name : JsString
  kind : ImportExportKind
  deriving DecidableEq, Repr

def skipLimits (reader : ByteReader) : Except CompileError ByteReader := do
  let (flags, reader) ← ByteReader.u8 reader
  let (_, reader) ← ByteReader.leb reader
  if flags &&& 1 ≠ 0 then do
    let (_, reader) ← ByteReader.leb reader
    .ok reader
  else .ok reader

/-- The `switch` over the kind byte of an import. -/
def skipDescriptor (kindByte : UInt8) (reader : ByteReader) : Except CompileError ByteReader :=
  match kindByte with
  | 0 => do
    let (_, reader) ← ByteReader.leb reader
    .ok reader
  | 1 => do
    let (_, reader) ← ByteReader.u8 reader
    skipLimits reader
  | 2 => skipLimits reader
  | 3 => do
    let (_, reader) ← ByteReader.u8 reader
    let (_, reader) ← ByteReader.u8 reader
    .ok reader
  | _ => .error ⟨"Malformed import descriptor."⟩

def scanImport (_ : Nat) (s : List ModuleImportDescriptor × ByteReader) :
    Except CompileError (List ModuleImportDescriptor × ByteReader) := do
  let (module, reader) ← ByteReader.name s.2
  let (name, reader) ← ByteReader.name reader
  let (kindByte, reader) ← ByteReader.u8 reader
  let reader ← skipDescriptor kindByte reader
  .ok (s.1 ++ ((kinds kindByte).map (⟨module, name, ·⟩)).toList, reader)

def visitImports (id : UInt8) (reader : ByteReader) (_ : UInt32)
    (result : List ModuleImportDescriptor) :
    Except CompileError (Bool × List ModuleImportDescriptor) :=
  if id ≠ 2 then .ok (true, result)
  else do
    let (count, reader) ← ByteReader.leb reader
    let (result, _) ← loop scanImport count.toNat 0 (result, reader)
    .ok (false, result)

def scanImports (bytes : List UInt8) : Except CompileError (List ModuleImportDescriptor) :=
  walkSections visitImports bytes []

/-- The visitor of `scanCustomSections`; the walk goes on after every section. -/
def visitCustomSections (name : JsString) (id : UInt8) (reader : ByteReader) (size : UInt32)
    (result : List (List UInt8)) : Except CompileError (Bool × List (List UInt8)) :=
  if id ≠ 0 then .ok (true, result)
  else do
    let (sectionName, rest) ← ByteReader.name reader
    if sectionName = name then do
      -- `size - (reader.position - start)`
      let (payload, _) ← ByteReader.bytes (size.toNat - (reader.length - rest.length)) rest
      .ok (true, result ++ [payload])
    else .ok (true, result)

def scanCustomSections (bytes : List UInt8) (name : JsString) :
    Except CompileError (List (List UInt8)) :=
  walkSections (visitCustomSections name) bytes []

end WebAssemblyRuntime.Polyfill
