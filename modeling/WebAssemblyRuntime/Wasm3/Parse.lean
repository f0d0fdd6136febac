import WebAssemblyRuntime.Wasm3.Reader

/-!
# Parse — `m3_parse.c`, from bytes to an `M3Module`

Each `ParseSection_*` gets the bytes of its section and threads the module it fills in.  Allocation
succeeds.
-/

open WebAssemblyRuntime.Reasoning

namespace WebAssemblyRuntime.Wasm3

def d_m3MaxSaneTypesCount : UInt32 := 1000000
def d_m3MaxSaneFunctionsCount : UInt32 := 1000000
def d_m3MaxSaneImportsCount : UInt32 := 100000
def d_m3MaxSaneExportsCount : UInt32 := 100000
def d_m3MaxSaneGlobalsCount : UInt32 := 1000000
def d_m3MaxSaneElementSegments : UInt32 := 10000000
def d_m3MaxSaneDataSegments : UInt32 := 100000
def d_m3MaxDuplicateFunctionImpl : Nat := 3
def d_m3MaxFunctionStackHeight : Nat := 2000
def d_m3MaxFunctionSlots : Nat := d_m3MaxFunctionStackHeight * 2

def d_externalKind_function : UInt8 := 0
def d_externalKind_table : UInt8 := 1
def d_externalKind_memory : UInt8 := 2
def d_externalKind_global : UInt8 := 3

/-! ## m3_module.c -/

def moduleAddGlobal (m : M3Module) (global : M3Global) : M3Module :=
  { m with globals := m.globals ++ [global] }

def moduleAddFunction (m : M3Module) (typeIndex : UInt32) (importInfo : Option M3ImportInfo) :
    Except M3Err M3Module :=
  match m.funcTypes[typeIndex.toNat]? with
  | none => .error .typeSigIndexOutOfBounds
  | some ft =>
    let importInfo := importInfo.getD {}
    .ok { m with functions := m.functions ++
      [{ importInfo := importInfo, names := importInfo.fieldUtf8.toList, funcType := ft }] }

/-! ## Initialiser expressions -/

/-- What walking an expression without emitting code keeps of the compiler's state: the slots in
`m3Slots` that are taken, and `stackIndex`. -/
structure ExprWalk where
  m3Slots : List Nat := []
  stackIndex : Nat := 0

def getTypeNumSlots : M3ValueType → Nat
  | .v128 => 4
  | .i64 | .f64 => 2
  | _ => 1

/-- `PushAllocatedSlot`: the first free slots of the right alignment, then a stack entry. -/
def pushAllocatedSlot (o : ExprWalk) (type : M3ValueType) : Except M3Err ExprWalk :=
  let numSlots := getTypeNumSlots type
  -- a slot of `numSlots` words starts at a multiple of `numSlots`
  let candidates := (List.range (d_m3MaxFunctionSlots / numSlots)).map (numSlots * ·)
  match candidates.find? fun i => i ∉ o.m3Slots && i + numSlots - 1 ∉ o.m3Slots with
  | none => .error .functionStackOverflow
  | some i =>
    if o.stackIndex < d_m3MaxFunctionStackHeight then
      .ok ⟨(List.range numSlots).map (i + ·) ++ o.m3Slots, o.stackIndex + 1⟩
    else .error .functionStackOverflow

/-- One opcode of `CompileBlockStatements` outside a function, where only constants, `global.get`
and `end` are let through; constants are not even pushed. -/
def walkOpcode (globals : List M3Global) (opcode : UInt8) (o : ExprWalk) (bytes : Bytes) :
    Except M3Err (ExprWalk × Bytes) :=
  match opcode with
  | 0x41 => (readLEBInt 32 bytes).map fun bytes => (o, bytes)
  | 0x42 => (readLEBInt 64 bytes).map fun bytes => (o, bytes)
  | 0x43 => (readFloat 4 bytes).map fun bytes => (o, bytes)
  | 0x44 => (readFloat 8 bytes).map fun bytes => (o, bytes)
  | 0x23 => do
    let (globalIndex, bytes) ← readLEBu32 bytes
    match globals[globalIndex.toNat]? with
    | none => .error .globaIndexOutOfBounds
    | some global => (pushAllocatedSlot o global.type).map fun o => (o, bytes)
  | 0x0b => .ok (o, bytes)
  | _ => .error .restrictedOpcode

theorem readFloat_le {size : Nat} {bytes rest : Bytes} (h : readFloat size bytes = .ok rest) :
    rest.length ≤ bytes.length := by
  unfold readFloat at h
  rcases pos_of_ite h nofun with ⟨hroom, h⟩
  cases h
  rw [List.length_drop]
  exact Nat.sub_le _ _

/-- An opcode's operands come after it. -/
theorem walkOpcode_le {globals : List M3Global} {opcode : UInt8} {o o' : ExprWalk}
    {bytes rest : Bytes} (h : walkOpcode globals opcode o bytes = .ok (o', rest)) :
    rest.length ≤ bytes.length := by
  unfold walkOpcode at h
  split at h
  · rcases map_ok h with ⟨rest', hread, heq⟩
    cases heq
    exact Nat.le_of_lt (readLEBInt_shrinks hread)
  · rcases map_ok h with ⟨rest', hread, heq⟩
    cases heq
    exact Nat.le_of_lt (readLEBInt_shrinks hread)
  · rcases map_ok h with ⟨rest', hread, heq⟩
    cases heq
    exact readFloat_le hread
  · rcases map_ok h with ⟨rest', hread, heq⟩
    cases heq
    exact readFloat_le hread
  · rcases bind_ok h with ⟨⟨globalIndex, rest'⟩, hread, h⟩
    have hle := Nat.le_of_lt (readLEBu32_shrinks hread)
    simp only at h
    split at h
    · cases h
    · rcases map_ok h with ⟨o'', -, heq⟩
      cases heq
      exact hle
  · cases h
    exact Nat.le_refl _
  · cases h

/-- `CompileBlockStatements` on an initialiser expression: the bytes after its `end`. -/
def walkExpr (globals : List M3Global) (o : ExprWalk) (bytes : Bytes) : Except M3Err Bytes :=
  match bytes with
  | [] => .error .wasmMalformed
  | opcode :: bytes =>
    match h : walkOpcode globals opcode o bytes with
    | .error e => .error e
    | .ok (o, rest) =>
      have := walkOpcode_le h
      if opcode = 0x0b then .ok rest else walkExpr globals o rest
termination_by bytes.length

/-- `Parse_InitExpr`: the expression and the bytes after it. -/
def parseInitExpr (m : M3Module) (bytes : Bytes) : Except M3Err (Bytes × Bytes) := do
  let rest ← walkExpr m.globals {} bytes
  .ok (bytes.take (bytes.length - rest.length), rest)

/-! ## Sections -/

/-- `ParseType_Memory`; the caller decides what to do about an error, and the fields read before it
stay set. -/
def parseTypeMemory (o_memory : M3MemoryInfo) (bytes : Bytes) : M3Result × M3MemoryInfo × Bytes :=
  match readLEBu7 bytes with
  | .error e => (some e, o_memory, bytes)
  | .ok (flag, bytes) =>
    -- both fields are stored before the result is looked at
    let (result, initPages, bytes) := readLebUnsigned 32 bytes
    let o_memory := { o_memory with initPages := initPages.toUInt32 }
    if result.isSome then (result, o_memory, bytes)
    else
      let o_memory := { o_memory with maxPages := 0 }
      if flag ≠ 0 then
        let (result, maxPages, bytes) := readLebUnsigned 32 bytes
        (result, { o_memory with maxPages := maxPages.toUInt32 }, bytes)
      else (none, o_memory, bytes)

/-- One value type of a function type. -/
def parseValueType (_ : Nat) (s : List M3ValueType × Bytes) :
    Except M3Err (List M3ValueType × Bytes) := do
  let (wasmType, bytes) ← readLEBi7 s.2
  let type ← normalizeType wasmType
  .ok (s.1 ++ [type], bytes)

def parseFuncType (_ : Nat) (s : M3Module × Bytes) : Except M3Err (M3Module × Bytes) := do
  let (form, bytes) ← readLEBi7 s.2
  -- `-0x20`, the form of a function type
  throwIf .wasmMalformed (form ≠ -32)
  let (numArgs, bytes) ← readLEBu32 bytes
  throwIf .tooManyArgsRets (1000 < numArgs.toNat)
  let (args, bytes) ← loop parseValueType numArgs.toNat 0 ([], bytes)
  let (numRets, bytes) ← readLEBu32 bytes
  throwIf .tooManyArgsRets (1000 < numRets.toNat + numArgs.toNat)
  let (rets, bytes) ← loop parseValueType numRets.toNat 0 ([], bytes)
  .ok ({ s.1 with funcTypes := s.1.funcTypes ++ [{ rets, args }] }, bytes)

def parseSectionType (m : M3Module) (bytes : Bytes) : Except M3Err M3Module := do
  let (numTypes, bytes) ← readLEBu32 bytes
  throwIf .tooManyTypes (d_m3MaxSaneTypesCount < numTypes)
  let (m, _) ← loop parseFuncType numTypes.toNat 0 (m, bytes)
  .ok m

def parseFunction (_ : Nat) (s : M3Module × Bytes) : Except M3Err (M3Module × Bytes) := do
  let (funcTypeIndex, bytes) ← readLEBu32 s.2
  let m ← moduleAddFunction s.1 funcTypeIndex none
  .ok (m, bytes)

def parseSectionFunction (m : M3Module) (bytes : Bytes) : Except M3Err M3Module := do
  let (numFunctions, bytes) ← readLEBu32 bytes
  throwIf .tooManyFunctions (d_m3MaxSaneFunctionsCount < numFunctions)
  let (m, _) ← loop parseFunction numFunctions.toNat 0 (m, bytes)
  .ok m

/-- The `switch` over an import's kind. -/
def parseImportKind (m : M3Module) (info : M3ImportInfo) (importKind : UInt8) (bytes : Bytes) :
    Except M3Err (M3Module × Bytes) :=
  if importKind = d_externalKind_function then do
    let (typeIndex, bytes) ← readLEBu32 bytes
    let m ← moduleAddFunction m typeIndex (some info)
    .ok ({ m with numFuncImports := m.numFuncImports + 1 }, bytes)
  -- a table's type is left unread
  else if importKind = d_externalKind_table then .ok (m, bytes)
  else if importKind = d_externalKind_memory then
    match parseTypeMemory m.memoryInfo bytes with
    | (some e, _, _) => .error e
    | (none, memoryInfo, bytes) => .ok ({ m with memoryInfo, memoryImported := true }, bytes)
  else if importKind = d_externalKind_global then do
    let (waType, bytes) ← readLEBi7 bytes
    let type ← normalizeType waType
    let (isMutable, bytes) ← readLEBu7 bytes
    let global : M3Global := { importInfo := info, type, imported := true, isMutable := isMutable ≠ 0 }
    .ok (moduleAddGlobal m global, bytes)
  else .error .wasmMalformed

def parseImport (_ : Nat) (s : M3Module × Bytes) : Except M3Err (M3Module × Bytes) := do
  let (moduleUtf8, bytes) ← readUtf8 s.2
  let (fieldUtf8, bytes) ← readUtf8 bytes
  let (importKind, bytes) ← readU8 bytes
  parseImportKind s.1 ⟨some moduleUtf8, some fieldUtf8⟩ importKind bytes

def parseSectionImport (m : M3Module) (bytes : Bytes) : Except M3Err M3Module := do
  let (numImports, bytes) ← readLEBu32 bytes
  throwIf .tooManyImports (d_m3MaxSaneImportsCount < numImports)
  let (m, _) ← loop parseImport numImports.toNat 0 (m, bytes)
  .ok m

/-- What reading one export yields, before anything is done about it. -/
def readExport (bytes : Bytes) : Except M3Err ((CString × UInt8 × UInt32) × Bytes) := do
  let (utf8, bytes) ← readUtf8 bytes
  let (exportKind, bytes) ← readU8 bytes
  let (index, bytes) ← readLEBu32 bytes
  .ok ((utf8, exportKind, index), bytes)

def M3Function.addExportName (f : M3Function) (utf8 : CString) : M3Function :=
  if f.names.length < d_m3MaxDuplicateFunctionImpl then
    { f with names := f.names ++ [utf8], exportName := some utf8 }
  else f

def parseExport (_ : Nat) (s : M3Module × Bytes) : Except M3Err (M3Module × Bytes) := do
  let ((utf8, exportKind, index), bytes) ← readExport s.2
  if exportKind = d_externalKind_function then
    throwIf .wasmMalformed (s.1.functions.length ≤ index.toNat)
    .ok ({ s.1 with functions := s.1.functions.modify index.toNat (·.addExportName utf8) }, bytes)
  else if exportKind = d_externalKind_global then
    throwIf .wasmMalformed (s.1.globals.length ≤ index.toNat)
    .ok ({ s.1 with globals := s.1.globals.modify index.toNat fun g => { g with name := some utf8 } },
      bytes)
  else .ok (s.1, bytes)

def parseSectionExport (m : M3Module) (bytes : Bytes) : Except M3Err M3Module := do
  let (numExports, bytes) ← readLEBu32 bytes
  throwIf .tooManyExports (d_m3MaxSaneExportsCount < numExports)
  let (m, _) ← loop parseExport numExports.toNat 0 (m, bytes)
  .ok m

def parseSectionStart (m : M3Module) (bytes : Bytes) : Except M3Err M3Module := do
  let (startFuncIndex, _) ← readLEBu32 bytes
  if startFuncIndex.toNat < m.functions.length then
    .ok { m with startFunction := some startFuncIndex.toNat }
  else .error .startIndexOutOfBounds

def parseSectionElement (m : M3Module) (bytes : Bytes) : Except M3Err M3Module := do
  let (numSegments, bytes) ← readLEBu32 bytes
  throwIf .tooManyElementSegments (d_m3MaxSaneElementSegments < numSegments)
  .ok { m with elementSection := bytes, numElementSegments := numSegments.toNat }

/-- An empty entry leaves its function without code, and without a module. -/
def parseCode (f : Nat) (s : M3Module × Bytes) : Except M3Err (M3Module × Bytes) := do
  let (size, bytes) ← readLEBu32 s.2
  if size ≠ 0 then
    if size.toNat ≤ bytes.length then
      let rest := bytes.drop size.toNat
      -- the body starts at its size, which compilation reads again
      let wasm := s.2.take (s.2.length - rest.length)
      .ok ({ s.1 with functions := s.1.functions.modify (f + s.1.numFuncImports) fun func =>
        { func with module := true, wasm := some wasm } }, rest)
    else .error .wasmSectionOverrun
  else .ok (s.1, bytes)

def parseSectionCode (m : M3Module) (bytes : Bytes) : Except M3Err M3Module := do
  let (numFunctions, bytes) ← readLEBu32 bytes
  throwIf .mismatchedFunctionCount (numFunctions.toNat ≠ m.functions.length - m.numFuncImports)
  let (m, bytes) ← loop parseCode numFunctions.toNat 0 (m, bytes)
  throwIf .wasmSectionUnderrun (bytes ≠ [])
  .ok m

def parseData (_ : Nat) (s : M3Module × Bytes) : Except M3Err (M3Module × Bytes) := do
  let (memoryRegion, bytes) ← readLEBu32 s.2
  let (initExpr, bytes) ← parseInitExpr s.1 bytes
  throwIf .wasmMissingInitExpr (initExpr.length ≤ 1)
  let (size, bytes) ← readLEBu32 bytes
  throwIf .dataSegmentUnderflow (bytes.length < size.toNat)
  let segment : M3DataSegment := { memoryRegion, initExpr, data := bytes.take size.toNat }
  .ok ({ s.1 with dataSegments := s.1.dataSegments ++ [segment] }, bytes.drop size.toNat)

def parseSectionData (m : M3Module) (bytes : Bytes) : Except M3Err M3Module := do
  let (numDataSegments, bytes) ← readLEBu32 bytes
  throwIf .tooManyDataSegments (d_m3MaxSaneDataSegments < numDataSegments)
  let (m, _) ← loop parseData numDataSegments.toNat 0 (m, bytes)
  .ok m

def parseSectionMemory (m : M3Module) (bytes : Bytes) : Except M3Err M3Module := do
  let (numMemories, bytes) ← readLEBu32 bytes
  throwIf .tooManyMemorySections (numMemories ≠ 1)
  -- the result of ParseType_Memory is dropped
  .ok { m with memoryInfo := (parseTypeMemory m.memoryInfo bytes).2.1 }

def parseGlobal (_ : Nat) (s : M3Module × Bytes) : Except M3Err (M3Module × Bytes) := do
  let (waType, bytes) ← readLEBi7 s.2
  let type ← normalizeType waType
  let (isMutable, bytes) ← readLEBu7 bytes
  let global : M3Global := { type, imported := false, isMutable := isMutable ≠ 0 }
  -- the expression may already read the global it initialises
  let (initExpr, bytes) ← parseInitExpr (moduleAddGlobal s.1 global) bytes
  throwIf .wasmMissingInitExpr (initExpr.length ≤ 1)
  .ok (moduleAddGlobal s.1 { global with initExpr := some initExpr }, bytes)

def parseSectionGlobal (m : M3Module) (bytes : Bytes) : Except M3Err M3Module := do
  let (numGlobals, bytes) ← readLEBu32 bytes
  throwIf .tooManyGlobals (d_m3MaxSaneGlobalsCount < numGlobals)
  let (m, _) ← loop parseGlobal numGlobals.toNat 0 (m, bytes)
  .ok m

/-- One entry of the function names; only a function without any name takes it. -/
def parseName (_ : Nat) (s : M3Module × Bytes) : Except M3Err (M3Module × Bytes) := do
  let (index, bytes) ← readLEBu32 s.2
  let (name, bytes) ← readUtf8 bytes
  .ok ({ s.1 with functions := s.1.functions.modify index.toNat fun func =>
    if func.names = [] then { func with names := [name] } else func }, bytes)

def parseNames (m : M3Module) (bytes : Bytes) : Except M3Err M3Module := do
  let (numNames, bytes) ← readLEBu32 bytes
  throwIf .tooManyNames (d_m3MaxSaneFunctionsCount < numNames)
  let (m, _) ← loop parseName numNames.toNat 0 (m, bytes)
  .ok m

theorem readLEBu7_shrinks {bytes rest : Bytes} {n : UInt8} (h : readLEBu7 bytes = .ok (n, rest)) :
    rest.length < bytes.length := by
  rw [(readLEBu7_ok h).1]
  exact Nat.lt_succ_self _

/-- The loop of `ParseSection_Name` over the subsections. -/
def parseSectionName (m : M3Module) (bytes : Bytes) : Except M3Err M3Module :=
  if bytes = [] then .ok m
  else
    match h : readLEBu7 bytes with
    | .error e => .error e
    | .ok (nameType, bytes₁) =>
      match h' : readLEBu32 bytes₁ with
      | .error e => .error e
      | .ok (payloadLength, start) =>
        have := readLEBu7_shrinks h
        have := readLEBu32_shrinks h'
        -- only the function names are read, and they may run past their subsection
        match if nameType = 1 then parseNames m start else .ok m with
        | .error e => .error e
        | .ok m => parseSectionName m (start.drop payloadLength.toNat)
termination_by bytes.length
decreasing_by
  rw [List.length_drop]
  omega

/-- `ParseSection_Custom`; the environment has no `customSectionHandler`. -/
def parseSectionCustom (m : M3Module) (bytes : Bytes) : Except M3Err M3Module := do
  let (name, bytes) ← readUtf8 bytes
  if strcmpEq name (ascii "name") then parseSectionName m bytes else .ok m

/-! ## The module -/

/-- `ParseModuleSection`: sections without a parser are skipped. -/
def parseModuleSection (m : M3Module) (sectionType : UInt8) (bytes : Bytes) :
    Except M3Err M3Module :=
  match sectionType with
  | 0 => parseSectionCustom m bytes
  | 1 => parseSectionType m bytes
  | 2 => parseSectionImport m bytes
  | 3 => parseSectionFunction m bytes
  | 5 => parseSectionMemory m bytes
  | 6 => parseSectionGlobal m bytes
  | 7 => parseSectionExport m bytes
  | 8 => parseSectionStart m bytes
  | 9 => parseSectionElement m bytes
  | 10 => parseSectionCode m bytes
  | 11 => parseSectionData m bytes
  | _ => .ok m

def sectionsOrder : List UInt8 := [1, 2, 3, 4, 5, 6, 7, 8, 9, 12, 10, 11, 0]

/-- The loop that lets non-custom sections appear only once and in order. -/
def seekSection (sectionType : UInt8) (expectedSection : Nat) : Except M3Err Nat :=
  if sectionsOrder[expectedSection]? = some sectionType then .ok (expectedSection + 1)
  -- the placeholder at 12 is the id of no section that is looked for
  else if 12 ≤ expectedSection + 1 then .error .misorderedWasmSection
  else seekSection sectionType (expectedSection + 1)
termination_by 12 - expectedSection

/-- The section loop of `m3_ParseModule`. -/
def parseSections (m : M3Module) (expectedSection : Nat) (pos : Bytes) : Except M3Err M3Module :=
  if pos = [] then .ok m
  else
    match h : readLEBu7 pos with
    | .error e => .error e
    | .ok (sectionType, pos₁) =>
      match if sectionType ≠ 0 then seekSection sectionType expectedSection
          else .ok expectedSection with
      | .error e => .error e
      | .ok expectedSection =>
        match h' : readLEBu32 pos₁ with
        | .error e => .error e
        | .ok (sectionLength, pos₂) =>
          have := readLEBu7_shrinks h
          have := readLEBu32_shrinks h'
          if pos₂.length < sectionLength.toNat then .error .wasmMalformed
          else
            match parseModuleSection m sectionType (pos₂.take sectionLength.toNat) with
            | .error e => .error e
            | .ok m => parseSections m expectedSection (pos₂.drop sectionLength.toNat)
termination_by pos.length
decreasing_by
  rw [List.length_drop]
  omega

/-- `m3_ParseModule`. -/
def m3ParseModule (bytes : Bytes) : Except M3Err M3Module := do
  let (magic, pos) ← readU32 bytes
  let (version, pos) ← readU32 pos
  throwIf .wasmMalformed (magic ≠ 0x6d736100)
  throwIf .incompatibleWasmVersion (version ≠ 1)
  parseSections {} 0 pos

end WebAssemblyRuntime.Wasm3
