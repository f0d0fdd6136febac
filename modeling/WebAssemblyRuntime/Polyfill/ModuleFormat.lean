import WebAssemblyRuntime.Polyfill.Scanners
import WebAssemblyRuntime.Reasoning.Leb128

/-!
# ModuleFormat — modules and their binary encoding

What the scanners are about: sections in any order, of which the custom, import and export sections
have a structure.  Every number carries the encoding it was given, so that two modules may differ in
their padding alone.
-/

open WebAssemblyRuntime.Reasoning

namespace WebAssemblyRuntime.Polyfill

/-- A `u32` of up to five bytes. -/
abbrev Leb32 (n : Nat) := LebEncoding 5 32 n

/-- The encoding in one byte. -/
def Leb32.single {n : Nat} (h : n < 128) : Leb32 n :=
  ⟨1, Nat.one_pos, by omega, h, h.trans (by omega)⟩

structure U32 where
  value : Nat
  leb : Leb32 value

def U32.encode (n : U32) : List UInt8 := n.leb.bytes

/-- A name of Unicode scalar values with the encoding of its length in bytes. -/
structure WasmName where
  chars : List Char
  size : Leb32 (encodeUtf8 chars).length

def WasmName.encode (name : WasmName) : List UInt8 := name.size.bytes ++ encodeUtf8 name.chars

/-- The JavaScript string with these characters. -/
def WasmName.string (name : WasmName) : JsString := encodeUtf16 name.chars

/-- A list with the encoding of its length. -/
structure Counted (α : Type) where
  items : List α
  count : Leb32 items.length

def Counted.encode {α : Type} (encode : α → List UInt8) (xs : Counted α) : List UInt8 :=
  xs.count.bytes ++ xs.items.flatMap encode

structure WasmLimits where
  min : U32
  max : Option U32

def WasmLimits.encode (limits : WasmLimits) : List UInt8 :=
  match limits.max with
  | none => 0 :: limits.min.encode
  | some max => 1 :: (limits.min.encode ++ max.encode)

/-- A table of a table section. -/
structure TableType where
  elemType : UInt8
  limits : WasmLimits

def TableType.encode (table : TableType) : List UInt8 := table.elemType :: table.limits.encode

/-- The types of elements, of values and of mutability are single bytes, and any will do. -/
inductive ImportType where
  | function (typeIndex : U32)
  | table (elemType : UInt8) (limits : WasmLimits)
  | memory (limits : WasmLimits)
  | global (valueType isMutable : UInt8)

namespace ImportType

def kind : ImportType → ImportExportKind
  | function _ => .function
  | table _ _ => .table
  | memory _ => .memory
  | global _ _ => .global

def encode : ImportType → List UInt8
  | function typeIndex => typeIndex.encode
  | table elemType limits => elemType :: limits.encode
  | memory limits => limits.encode
  | global valueType isMutable => [valueType, isMutable]

end ImportType

structure Import where
  module : WasmName
  name : WasmName
  type : ImportType

def Import.encode (entry : Import) : List UInt8 :=
  entry.module.encode ++
    (entry.name.encode ++ ([kindByte entry.type.kind] ++ entry.type.encode))

def Import.descriptor (entry : Import) : ModuleImportDescriptor :=
  ⟨entry.module.string, entry.name.string, entry.type.kind⟩

structure Export where
  name : WasmName
  kind : ImportExportKind
  index : U32

def Export.encode (entry : Export) : List UInt8 :=
  entry.name.encode ++ ([kindByte entry.kind] ++ entry.index.encode)

def Export.descriptor (entry : Export) : ModuleExportDescriptor := ⟨entry.name.string, entry.kind⟩

/-- The contents of a section; those no scanner looks into are bytes. -/
inductive Contents where
  | custom (name : WasmName) (payload : List UInt8)
  | imports (entries : Counted Import)
  | exports (entries : Counted Export)
  | other (id : UInt8) (bytes : List UInt8) (notCustom : id ≠ 0) (notImport : id ≠ 2)
    (notExport : id ≠ 7)

namespace Contents

def id : Contents → UInt8
  | custom _ _ => 0
  | imports _ => 2
  | exports _ => 7
  | other id _ _ _ _ => id

def encode : Contents → List UInt8
  | custom name payload => name.encode ++ payload
  | imports entries => entries.encode Import.encode
  | exports entries => entries.encode Export.encode
  | other _ bytes _ _ _ => bytes

def importDescriptors : Contents → List ModuleImportDescriptor
  | imports entries => entries.items.map Import.descriptor
  | _ => []

def exportDescriptors : Contents → List ModuleExportDescriptor
  | exports entries => entries.items.map Export.descriptor
  | _ => []

def payloadOf (wanted : JsString) : Contents → Option (List UInt8)
  | custom name payload => if name.string = wanted then some payload else none
  | _ => none

end Contents

structure ModuleSection where
  contents : Contents
  size : Leb32 contents.encode.length

def ModuleSection.encode (s : ModuleSection) : List UInt8 :=
  s.contents.id :: (s.size.bytes ++ s.contents.encode)

/-- A module has at most one import and at most one export section. -/
structure WasmModule where
  sections : List ModuleSection
  oneImport : (sections.filter (·.contents.id = 2)).length ≤ 1
  oneExport : (sections.filter (·.contents.id = 7)).length ≤ 1

namespace WasmModule

/-- Magic and version, and then the sections. -/
def encode (m : WasmModule) : List UInt8 :=
  [0, 0x61, 0x73, 0x6d, 1, 0, 0, 0] ++ m.sections.flatMap ModuleSection.encode

def imports (m : WasmModule) : List ModuleImportDescriptor :=
  m.sections.flatMap (·.contents.importDescriptors)

def exports (m : WasmModule) : List ModuleExportDescriptor :=
  m.sections.flatMap (·.contents.exportDescriptors)

def customSections (m : WasmModule) (name : JsString) : List (List UInt8) :=
  m.sections.filterMap (·.contents.payloadOf name)

end WasmModule

end WebAssemblyRuntime.Polyfill
