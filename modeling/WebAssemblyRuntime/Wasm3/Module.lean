import WebAssemblyRuntime.Wasm3.Memory
import WebAssemblyRuntime.Wasm3.Types

/-!
# Module — the records `m3_ParseModule` fills

The counts `numFunctions`, `numGlobals`, `numFuncTypes`, `numDataSegments` and `table0Size` are the
lengths of the lists.  A pointer pair into the wasm bytes is the bytes between the two.
-/

namespace WebAssemblyRuntime.Wasm3

/-- The bytes a `cstr_t` was allocated with, without the terminator put behind them. -/
abbrev CString := List UInt8

/-- What a reader of the C string sees: everything before the first NUL. -/
def CString.content (s : CString) : List UInt8 := s.takeWhile (· ≠ 0)

/-- `strcmp (a, b) == 0`. -/
def strcmpEq (a b : CString) : Bool := a.content = b.content

def ascii (s : String) : List UInt8 := s.toList.map fun c => UInt8.ofNat c.toNat

structure M3ImportInfo where
  moduleUtf8 : Option CString := none
  fieldUtf8 : Option CString := none
  deriving DecidableEq, Repr

/-- What `compiled` points at: interpreted code, or a raw call with its `userdata`, an index into
the binding's list of import entries. -/
inductive M3Code where
  | wasm
  | rawFunction (userdata : Nat)
  deriving DecidableEq, Repr

/-- `M3Function`; `module` says whether the pointer to the module is set. -/
structure M3Function where
  module : Bool := false
  importInfo : M3ImportInfo := {}
  wasm : Option (List UInt8) := none
  names : List CString := []
  exportName : Option CString := none
  funcType : M3FuncType := {}
  compiled : Option M3Code := none
  deriving DecidableEq, Repr

/-- What compilation leaves in an `M3Function` for `op_Entry`, counted in 32-bit slots. -/
structure FrameLayout where
  maxStackSlots : Nat := 0
  numRetAndArgSlots : Nat := 0
  numLocalSlots : Nat := 0
  constants : List UInt32 := []

structure M3Global where
  importInfo : M3ImportInfo := {}
  name : Option CString := none
  initExpr : Option (List UInt8) := none
  i64Value : UInt64 := 0
  type : M3ValueType
  imported : Bool
  isMutable : Bool
  deriving DecidableEq, Repr

structure M3DataSegment where
  memoryRegion : UInt32
  initExpr : List UInt8
  data : List UInt8
  deriving DecidableEq, Repr

structure M3Module where
  funcTypes : List M3FuncType := []
  numFuncImports : Nat := 0
  functions : List M3Function := []
  startFunction : Option Nat := none
  dataSegments : List M3DataSegment := []
  globals : List M3Global := []
  numElementSegments : Nat := 0
  elementSection : List UInt8 := []
  table0 : List (Option Nat) := []
  memoryInfo : M3MemoryInfo := {}
  memoryImported : Bool := false
  deriving DecidableEq, Repr

/-- The names of an imported function; `none` for the others. -/
def M3Function.importNames (f : M3Function) : Option (CString × CString) :=
  match f.importInfo.moduleUtf8, f.importInfo.fieldUtf8 with
  | some moduleUtf8, some fieldUtf8 => some (moduleUtf8, fieldUtf8)
  | _, _ => none

end WebAssemblyRuntime.Wasm3
