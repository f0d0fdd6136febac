import WebAssemblyRuntime.Binding.ScanAgreement
import WebAssemblyRuntime.Polyfill.Scanners
import WebAssemblyRuntime.Wasm3.Declarations

/-!
# ImportScan — the imports the parser records and those the polyfill lists

The two decoders step over import descriptors on their own: the parser leaves a table's type unread
and reads a maximum after every limits flag but zero, where the polyfill looks at its low bit.  They
stay at the same place as long as no such descriptor is followed by another import.
-/

open WebAssemblyRuntime.Polyfill WebAssemblyRuntime.Reasoning WebAssemblyRuntime.Wasm3

namespace WebAssemblyRuntime.Binding

/-! ## What the parser reads -/

/-- One import as the parser reads it; `descriptor` is what comes after the kind byte. -/
structure ImportRecord where
  moduleUtf8 : CString
  fieldUtf8 : CString
  kind : UInt8
  descriptor : Bytes
  deriving DecidableEq, Repr

/-- The bytes after a descriptor, as far as `ParseSection_Import` reads it. -/
def readDescriptor (importKind : UInt8) (bytes : Bytes) : Except M3Err Bytes :=
  if importKind = d_externalKind_function then do
    let (_, bytes) ← readLEBu32 bytes
    .ok bytes
  else if importKind = d_externalKind_table then .ok bytes
  else if importKind = d_externalKind_memory then
    match parseTypeMemory {} bytes with
    | (some e, _, _) => .error e
    | (none, _, bytes) => .ok bytes
  else if importKind = d_externalKind_global then do
    let (waType, bytes) ← readLEBi7 bytes
    let _ ← normalizeType waType
    let (_, bytes) ← readLEBu7 bytes
    .ok bytes
  else .error .wasmMalformed

def readImport (bytes : Bytes) : Except M3Err (ImportRecord × Bytes) := do
  let (moduleUtf8, bytes) ← readUtf8 bytes
  let (fieldUtf8, bytes) ← readUtf8 bytes
  let (kind, descriptor) ← readU8 bytes
  let bytes ← readDescriptor kind descriptor
  .ok ({ moduleUtf8, fieldUtf8, kind, descriptor }, bytes)

def readImports : Nat → Bytes → Except M3Err (List ImportRecord × Bytes)
  | 0, bytes => .ok ([], bytes)
  | n + 1, bytes => do
    let (record, bytes) ← readImport bytes
    let (records, bytes) ← readImports n bytes
    .ok (record :: records, bytes)

def importRecords (bytes : Bytes) : Except M3Err (List ImportRecord) := do
  let (numImports, bytes) ← readLEBu32 bytes
  let (records, _) ← readImports numImports.toNat bytes
  .ok records

/-- The imports of a module: the entries of its import section. -/
def moduleImports (moduleBytes : Bytes) : List ImportRecord :=
  match sectionWith 2 moduleBytes with
  | none => []
  | some bytes => (importRecords bytes).toOption.getD []

def ImportRecord.names (record : ImportRecord) : CString × CString :=
  (record.moduleUtf8, record.fieldUtf8)

/-- The names of a record of this kind. -/
def ImportRecord.namesOf (kind : UInt8) (record : ImportRecord) : Option (CString × CString) :=
  if record.kind = kind then some record.names else none

/-- The imports a module has recorded: functions, globals, and whether there is a memory. -/
structure RecordedImports where
  functions : List (CString × CString) := []
  globals : List (CString × CString) := []
  memory : Bool := false

def recordedImports (m : M3Module) : RecordedImports where
  functions := m.functions.filterMap M3Function.importNames
  globals := m.globals.filterMap M3Global.importNames
  memory := m.memoryImported

def RecordedImports.add (s : RecordedImports) (records : List ImportRecord) : RecordedImports where
  functions := s.functions ++ records.filterMap (ImportRecord.namesOf d_externalKind_function)
  globals := s.globals ++ records.filterMap (ImportRecord.namesOf d_externalKind_global)
  memory := s.memory || records.any (·.kind = d_externalKind_memory)

theorem RecordedImports.add_nil (s : RecordedImports) : s.add [] = s := by
  unfold add
  rw [List.filterMap_nil, List.filterMap_nil, List.append_nil, List.append_nil, List.any_nil,
    Bool.or_false]

theorem RecordedImports.add_append (s : RecordedImports) (xs ys : List ImportRecord) :
    s.add (xs ++ ys) = (s.add xs).add ys := by
  unfold add
  simp only [List.filterMap_append, List.append_assoc, List.any_append, Bool.or_assoc]

/-! ## The parser records what it reads -/

variable {m m' : M3Module} {bytes rest : Bytes}

theorem parseTypeMemory_rest (o_memory : M3MemoryInfo) (bytes : Bytes) :
    (parseTypeMemory o_memory bytes).1 = (parseTypeMemory {} bytes).1 ∧
      (parseTypeMemory o_memory bytes).2.2 = (parseTypeMemory {} bytes).2.2 := by
  unfold parseTypeMemory
  cases readLEBu7 bytes with
  | error e => exact ⟨rfl, rfl⟩
  | ok read =>
    by_cases hfailed : (readLebUnsigned 32 read.2).1.isSome
    · simp only [if_pos hfailed, and_self]
    · simp only [if_neg hfailed, and_self]

theorem RecordedImports.add_one (s : RecordedImports) (record : ImportRecord) :
    s.add [record] =
      { functions := s.functions ++ (record.namesOf d_externalKind_function).toList
        globals := s.globals ++ (record.namesOf d_externalKind_global).toList
        memory := s.memory || decide (record.kind = d_externalKind_memory) } := by
  unfold add
  cases hf : record.namesOf d_externalKind_function <;>
    cases hg : record.namesOf d_externalKind_global <;>
      simp [hf, hg]

section

variable {moduleUtf8 fieldUtf8 : CString}

theorem parseImportFunction_read
    (h : parseImportKind m ⟨some moduleUtf8, some fieldUtf8⟩ d_externalKind_function bytes =
      .ok (m', rest)) :
    readDescriptor d_externalKind_function bytes = .ok rest ∧ recordedImports m' =
      (recordedImports m).add [⟨moduleUtf8, fieldUtf8, d_externalKind_function, bytes⟩] := by
  unfold parseImportKind at h
  unfold readDescriptor
  rw [if_pos rfl] at h ⊢
  rcases bind_ok h with ⟨⟨typeIndex, bytes₁⟩, hread, h⟩
  rcases bind_ok h with ⟨m₁, hadd, h⟩
  rcases moduleAddFunction_ok hadd with ⟨f, rfl, -, hinfo⟩
  cases h
  have hnames : f.importNames = some (moduleUtf8, fieldUtf8) := by
    rw [M3Function.importNames, hinfo]
    rfl
  refine ⟨by rw [hread]; rfl, ?_⟩
  rw [RecordedImports.add_one]
  simp [recordedImports, ImportRecord.namesOf, ImportRecord.names, hnames,
    d_externalKind_function, d_externalKind_global, d_externalKind_memory]

/-- Of a memory the parser keeps only that it is imported. -/
theorem parseImportMemory_read
    (h : parseImportKind m ⟨some moduleUtf8, some fieldUtf8⟩ d_externalKind_memory bytes =
      .ok (m', rest)) :
    readDescriptor d_externalKind_memory bytes = .ok rest ∧ recordedImports m' =
      (recordedImports m).add [⟨moduleUtf8, fieldUtf8, d_externalKind_memory, bytes⟩] := by
  unfold parseImportKind at h
  unfold readDescriptor
  rw [if_neg (by decide), if_neg (by decide), if_pos rfl] at h ⊢
  -- what was in the memory's limits before does not matter
  rcases parseTypeMemory_rest m.memoryInfo bytes with ⟨hresult, hrest⟩
  rcases hread : parseTypeMemory m.memoryInfo bytes with ⟨result, memoryInfo, after⟩
  rw [hread] at h hresult hrest
  rcases hread' : parseTypeMemory {} bytes with ⟨result', memoryInfo', after'⟩
  rw [hread'] at hresult hrest
  cases hresult
  cases hrest
  cases result with
  | some e => cases h
  | none =>
    cases h
    refine ⟨rfl, ?_⟩
    rw [RecordedImports.add_one]
    simp [recordedImports, ImportRecord.namesOf, d_externalKind_function, d_externalKind_global,
      d_externalKind_memory]

theorem parseImportGlobal_read
    (h : parseImportKind m ⟨some moduleUtf8, some fieldUtf8⟩ d_externalKind_global bytes =
      .ok (m', rest)) :
    readDescriptor d_externalKind_global bytes = .ok rest ∧ recordedImports m' =
      (recordedImports m).add [⟨moduleUtf8, fieldUtf8, d_externalKind_global, bytes⟩] := by
  unfold parseImportKind at h
  unfold readDescriptor
  rw [if_neg (by decide), if_neg (by decide), if_neg (by decide), if_pos rfl] at h ⊢
  rcases bind_ok h with ⟨⟨waType, bytes₁⟩, htype, h⟩
  rcases bind_ok h with ⟨type, hnormal, h⟩
  rcases bind_ok h with ⟨⟨isMutable, bytes₂⟩, hmutable, h⟩
  cases h
  refine ⟨?_, ?_⟩
  · rw [htype]
    show Except.bind (normalizeType waType) _ = _
    rw [hnormal]
    show Except.bind (readLEBu7 bytes₁) _ = _
    rw [hmutable]
    rfl
  · rw [RecordedImports.add_one]
    simp [recordedImports, moduleAddGlobal, ImportRecord.namesOf, ImportRecord.names,
      M3Global.importNames, d_externalKind_function, d_externalKind_global, d_externalKind_memory]

theorem parseImportKind_read {kind : UInt8}
    (h : parseImportKind m ⟨some moduleUtf8, some fieldUtf8⟩ kind bytes = .ok (m', rest)) :
    readDescriptor kind bytes = .ok rest ∧
      recordedImports m' = (recordedImports m).add [⟨moduleUtf8, fieldUtf8, kind, bytes⟩] := by
  by_cases hfunction : kind = d_externalKind_function
  · subst hfunction
    exact parseImportFunction_read h
  by_cases hmemory : kind = d_externalKind_memory
  · subst hmemory
    exact parseImportMemory_read h
  by_cases hglobal : kind = d_externalKind_global
  · subst hglobal
    exact parseImportGlobal_read h
  -- a table is stepped over, its type unread
  unfold parseImportKind at h
  unfold readDescriptor
  rw [if_neg hfunction] at h ⊢
  by_cases htable : kind = d_externalKind_table
  · subst htable
    rw [if_pos rfl] at h ⊢
    cases h
    refine ⟨rfl, ?_⟩
    rw [RecordedImports.add_one]
    simp [recordedImports, ImportRecord.namesOf, d_externalKind_table, d_externalKind_function,
      d_externalKind_global, d_externalKind_memory]
  · rw [if_neg htable, if_neg hmemory, if_neg hglobal] at h
    cases h

end

theorem parseImport_read {i : Nat} (h : parseImport i (m, bytes) = .ok (m', rest)) :
    ∃ record, readImport bytes = .ok (record, rest) ∧
      recordedImports m' = (recordedImports m).add [record] := by
  rcases bind_ok h with ⟨⟨moduleUtf8, bytes₁⟩, hmodule, h⟩
  rcases bind_ok h with ⟨⟨fieldUtf8, bytes₂⟩, hfield, h⟩
  rcases bind_ok h with ⟨⟨kind, descriptor⟩, hkind, h⟩
  rcases parseImportKind_read h with ⟨hread, hadded⟩
  refine ⟨_, ?_, hadded⟩
  unfold readImport
  rw [hmodule]
  show Except.bind (readUtf8 bytes₁) _ = _
  rw [hfield]
  show Except.bind (readU8 bytes₂) _ = _
  rw [hkind]
  show Except.bind (readDescriptor kind descriptor) _ = _
  rw [hread]
  rfl

theorem parseImports_read {n i : Nat} (h : loop parseImport n i (m, bytes) = .ok (m', rest)) :
    ∃ records, readImports n bytes = .ok (records, rest) ∧
      recordedImports m' = (recordedImports m).add records := by
  induction n generalizing i m bytes with
  | zero =>
    cases h
    exact ⟨[], rfl, (RecordedImports.add_nil _).symm⟩
  | succ n ih =>
    rcases loop_succ h with ⟨⟨m₁, bytes₁⟩, hstep, hrest⟩
    rcases parseImport_read hstep with ⟨record, hread, hadded⟩
    rcases ih hrest with ⟨records, hreads, hrecorded⟩
    refine ⟨record :: records, ?_, ?_⟩
    · rw [readImports, hread]
      show Except.bind (readImports n bytes₁) _ = _
      rw [hreads]
      rfl
    · rw [hrecorded, hadded, ← RecordedImports.add_append]
      rfl

theorem parseSectionImport_read (h : parseSectionImport m bytes = .ok m') :
    ∃ records, importRecords bytes = .ok records ∧
      recordedImports m' = (recordedImports m).add records := by
  rcases bind_ok h with ⟨⟨numImports, payload⟩, hcount, h⟩
  rcases bind_ok h with ⟨-, -, h⟩
  rcases bind_ok h with ⟨⟨m₁, rest⟩, hloop, h⟩
  cases h
  rcases parseImports_read hloop with ⟨records, hreads, hrecorded⟩
  refine ⟨records, ?_, hrecorded⟩
  unfold importRecords
  rw [hcount]
  show Except.bind (readImports numImports.toNat payload) _ = _
  rw [hreads]
  rfl

/-- Only the import section records imports. -/
theorem recordedImports_kept {id : UInt8} (hid : id ≠ 2)
    (h : parseModuleSection m id bytes = .ok m') : recordedImports m' = recordedImports m := by
  by_cases h1 : id = 1
  · subst h1
    rcases parseSectionType_ok h with ⟨funcTypes, rfl⟩
    rfl
  by_cases h3 : id = 3
  · subst h3
    rcases parseSectionFunction_ok h with ⟨fs, rfl, hbare⟩
    have hnone : fs.filterMap M3Function.importNames = [] :=
      List.filterMap_eq_nil_iff.mpr fun f hf => (hbare f hf).2
    simp [recordedImports, hnone]
  have hsame := parseModuleSection_declarations h1 hid h3 h
  have hnames : m'.functions.map M3Function.importNames = m.functions.map M3Function.importNames := by
    have hmap := congrArg (List.map fun d => (M3Function.importNames { importInfo := d.1 }))
      hsame.functions
    rw [List.map_map, List.map_map] at hmap
    exact hmap
  unfold recordedImports
  rw [filterMap_eq_of_map hnames, hsame.globals, hsame.memoryImported]

variable {e : Nat} {pos : Bytes} {sections : List (UInt8 × Bytes)}

theorem parsed_recorded_kept (h : ParsedSections e m pos sections m')
    (habsent : sections.find? (·.1 = 2) = none) : recordedImports m' = recordedImports m := by
  induction h with
  | nil => rfl
  | @cons _ _ _ _ _ id _ _ _ _ _ _ _ hparse _ ih =>
    rw [List.find?_cons] at habsent
    by_cases hid : id = 2
    · rw [decide_eq_true hid] at habsent
      cases habsent
    · rw [decide_eq_false hid] at habsent
      rw [ih habsent, recordedImports_kept hid hparse]

/-- The records of the import section among these, if there is one. -/
def recordsIn (sections : List (UInt8 × Bytes)) : List ImportRecord :=
  match (sections.find? (·.1 = 2)).map Prod.snd with
  | none => []
  | some bytes => (importRecords bytes).toOption.getD []

theorem parsed_recorded (h : ParsedSections e m pos sections m') :
    recordedImports m' = (recordedImports m).add (recordsIn sections) ∧
      ∀ bytes, (sections.find? (·.1 = 2)).map Prod.snd = some bytes →
        importRecords bytes = .ok (recordsIn sections) := by
  induction h with
  | nil => exact ⟨(RecordedImports.add_nil _).symm, fun _ h => nomatch h⟩
  | @cons _ _ _ _ _ id _ rest n sections horder _ _ hparse hrest ih =>
    unfold recordsIn
    rw [List.find?_cons]
    by_cases hid : id = 2
    · subst hid
      rw [if_pos (by decide)] at horder
      rcases parseSectionImport_read hparse with ⟨records, hread, hrecorded⟩
      have hvalue : (importRecords (rest.take n.toNat)).toOption.getD [] = records := by
        rw [hread]
        rfl
      rw [decide_eq_true rfl]
      -- there is no second import section
      rw [parsed_recorded_kept hrest (absent_of_past (by decide) hrest (past_of_seek horder)),
        hrecorded]
      simp only [Option.map_some, hvalue, true_and]
      intro bytes heq
      cases heq
      exact hread
    · rw [decide_eq_false hid, ← recordedImports_kept hid hparse]
      exact ih

/-- A parsed module has recorded the imports of its import section. -/
theorem parsedModule_recorded {moduleBytes : Bytes} (h : m3ParseModule moduleBytes = .ok m) :
    recordedImports m = RecordedImports.add {} (moduleImports moduleBytes) ∧
      ∀ bytes, sectionWith 2 moduleBytes = some bytes →
        importRecords bytes = .ok (moduleImports moduleBytes) := by
  rcases m3ParseModule_ok h with ⟨-, sections, hparsed⟩
  have hrecorded := parsed_recorded hparsed
  unfold moduleImports
  rw [sectionWith, sectionsOf_parsed hparsed]
  exact hrecorded

end WebAssemblyRuntime.Binding
