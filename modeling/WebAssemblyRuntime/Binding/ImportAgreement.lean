import WebAssemblyRuntime.Binding.ImportScan
import WebAssemblyRuntime.Binding.Instantiate

/-!
# ImportAgreement — `Module.imports` and the imports that are linked

As long as the polyfill's scanner stays in step with the parser it lists the same imports, under
names that are the parser's unless those hold a NUL.
-/

open WebAssemblyRuntime.Polyfill WebAssemblyRuntime.Reasoning WebAssemblyRuntime.Wasm3

namespace WebAssemblyRuntime.Binding

/-! ## One descriptor -/

/-- Both decoders read this descriptor to the same end. -/
def ImportRecord.InStep (record : ImportRecord) : Prop :=
  record.kind ≠ d_externalKind_table ∧ (record.kind = d_externalKind_memory →
    ∀ flag rest, record.descriptor = flag :: rest → flag = 0 ∨ flag &&& 1 ≠ 0)

/-- The type of a table, an element type and limits, is where these bytes start. -/
def HoldsTableType (bytes : Bytes) : Prop :=
  ∃ elemType flags limits n rest, bytes = elemType :: flags :: limits ∧
    readLEBu32 limits = .ok (n, rest) ∧
    (flags &&& 1 ≠ 0 → ∃ max rest', readLEBu32 rest = .ok (max, rest'))

/-- The polyfill can read the descriptor, wherever that leaves it. -/
def ImportRecord.Complete (record : ImportRecord) : Prop :=
  record.kind = d_externalKind_table → HoldsTableType record.descriptor

variable {bytes rest : Bytes} {kind : UInt8} {record : ImportRecord}

theorem leb_read {n : UInt32} (h : readLEBu32 bytes = .ok (n, rest)) :
    ByteReader.leb bytes = .ok (n, rest) := ok_of_toOption (leb_eq bytes) h

theorem readLEBu32_of_unsigned {value : UInt64}
    (h : readLebUnsigned 32 bytes = (none, value, rest)) :
    readLEBu32 bytes = .ok (value.toUInt32, rest) := by
  unfold readLEBu32
  rw [h]
  rfl

theorem readLEBi7_byte {n : Int8} (h : readLEBi7 bytes = .ok (n, rest)) :
    ∃ byte, bytes = byte :: rest := by
  rcases bind_ok h with ⟨⟨value, rest'⟩, hread, h⟩
  cases h
  have hloop := checked_ok hread
  cases bytes with
  | nil => cases hloop
  | cons byte bytes =>
    rw [readLebSigned, readLebSignedLoop] at hloop
    by_cases hlast : byte &&& 0x80 = 0
    · rw [if_pos hlast] at hloop
      cases hloop
      exact ⟨byte, rfl⟩
    · rw [if_neg hlast, if_pos (by omega)] at hloop
      cases hloop

/-- What `ParseType_Memory` has read. -/
theorem parseTypeMemory_ok {memoryInfo : M3MemoryInfo}
    (h : parseTypeMemory {} bytes = (none, memoryInfo, rest)) :
    ∃ flag limits n middle, bytes = flag :: limits ∧ readLEBu32 limits = .ok (n, middle) ∧
      (flag = 0 ∧ rest = middle ∨ flag ≠ 0 ∧ ∃ max, readLEBu32 middle = .ok (max, rest)) := by
  unfold parseTypeMemory at h
  cases hflag : readLEBu7 bytes with
  | error e =>
    rw [hflag] at h
    cases h
  | ok read =>
    rcases read with ⟨flag, limits⟩
    simp only [hflag] at h
    rcases hmin : readLebUnsigned 32 limits with ⟨result, value, middle⟩
    simp only [hmin] at h
    cases result with
    | some e => cases h
    | none =>
      simp only [Option.isSome_none, Bool.false_eq_true, if_false] at h
      refine ⟨flag, limits, _, middle, (readLEBu7_ok hflag).1, readLEBu32_of_unsigned hmin, ?_⟩
      by_cases hzero : flag ≠ 0
      · rcases hmax : readLebUnsigned 32 middle with ⟨result, value', after⟩
        simp only [if_pos hzero, hmax] at h
        cases h
        exact .inr ⟨hzero, _, readLEBu32_of_unsigned hmax⟩
      · simp only [if_neg hzero] at h
        cases h
        exact .inl ⟨not_not.mp hzero, rfl⟩

/-- The polyfill's limits. -/
theorem skipLimits_eq {flags : UInt8} {limits middle : Bytes} {n : UInt32}
    (h : readLEBu32 limits = .ok (n, middle)) :
    skipLimits (flags :: limits) =
      if flags &&& 1 ≠ 0 then (ByteReader.leb middle).map Prod.snd else .ok middle := by
  unfold skipLimits
  show Except.bind (ByteReader.leb limits) _ = _
  rw [leb_read h]
  show (if flags &&& 1 ≠ 0 then Except.bind (ByteReader.leb middle) _ else _) = _
  by_cases hodd : flags &&& 1 ≠ 0
  · rw [if_pos hodd, if_pos hodd]
    cases ByteReader.leb middle with
    | error e => rfl
    | ok read => rfl
  · rw [if_neg hodd, if_neg hodd]

/-- The types of functions and globals are read alike. -/
theorem skipDescriptor_same (htable : kind ≠ d_externalKind_table)
    (hmemory : kind ≠ d_externalKind_memory) (h : readDescriptor kind bytes = .ok rest) :
    skipDescriptor kind bytes = .ok rest := by
  unfold readDescriptor at h
  by_cases hfunction : kind = d_externalKind_function
  · subst hfunction
    rw [if_pos rfl] at h
    rcases bind_ok h with ⟨⟨typeIndex, bytes₁⟩, hread, h⟩
    cases h
    show Except.bind (ByteReader.leb bytes) _ = _
    rw [leb_read hread]
    rfl
  rw [if_neg hfunction, if_neg htable, if_neg hmemory] at h
  by_cases hglobal : kind = d_externalKind_global
  · subst hglobal
    rw [if_pos rfl] at h
    rcases bind_ok h with ⟨⟨waType, bytes₁⟩, htype, h⟩
    rcases bind_ok h with ⟨type, -, h⟩
    rcases bind_ok h with ⟨⟨isMutable, bytes₂⟩, hmutable, h⟩
    cases h
    -- seven bits are one byte on both sides
    rcases readLEBi7_byte htype with ⟨byte, rfl⟩
    rw [(readLEBu7_ok hmutable).1]
    rfl
  · rw [if_neg hglobal] at h
    cases h

theorem skipDescriptor_memory (h : readDescriptor d_externalKind_memory bytes = .ok rest) :
    ∃ flag limits, bytes = flag :: limits ∧
      ∃ after, skipDescriptor d_externalKind_memory bytes = .ok after ∧
        (flag = 0 ∨ flag &&& 1 ≠ 0 → after = rest) := by
  have hread : ∃ memoryInfo, parseTypeMemory {} bytes = (none, memoryInfo, rest) := by
    rw [readDescriptor, if_neg (by decide), if_neg (by decide), if_pos rfl] at h
    rcases hparse : parseTypeMemory {} bytes with ⟨result, memoryInfo, after⟩
    rw [hparse] at h
    cases result with
    | some e => cases h
    | none =>
      cases h
      exact ⟨memoryInfo, rfl⟩
  rcases hread with ⟨memoryInfo, hread⟩
  rcases parseTypeMemory_ok hread with ⟨flag, limits, n, middle, rfl, hmin, hmax⟩
  refine ⟨flag, limits, rfl, ?_⟩
  show ∃ after, skipLimits (flag :: limits) = .ok after ∧ _
  rw [skipLimits_eq hmin]
  rcases hmax with ⟨rfl, rfl⟩ | ⟨hflag, max, hmax⟩
  · exact ⟨rest, if_neg (by decide), fun _ => rfl⟩
  · by_cases hodd : flag &&& 1 ≠ 0
    · rw [if_pos hodd, leb_read hmax]
      exact ⟨rest, rfl, fun _ => rfl⟩
    -- an even flag hides the maximum from the polyfill
    · rw [if_neg hodd]
      exact ⟨middle, rfl, fun h => (h.elim hflag hodd).elim⟩

theorem skipDescriptor_inStep (h : readDescriptor record.kind record.descriptor = .ok rest)
    (hstep : record.InStep) : skipDescriptor record.kind record.descriptor = .ok rest := by
  by_cases hmemory : record.kind = d_externalKind_memory
  · have hflags := hstep.2 hmemory
    rw [hmemory] at h ⊢
    rcases skipDescriptor_memory h with ⟨flag, limits, hbytes, after, hskip, hafter⟩
    rw [hskip, hafter (hflags flag limits hbytes)]
  · exact skipDescriptor_same hstep.1 hmemory h

theorem skipDescriptor_table :
    (∃ after, skipDescriptor d_externalKind_table bytes = .ok after) ↔ HoldsTableType bytes := by
  constructor
  · rintro ⟨after, h⟩
    rcases bind_ok h with ⟨⟨elemType, bytes₁⟩, helem, hlimits⟩
    rcases bind_ok hlimits with ⟨⟨flags, bytes₂⟩, hflags, hvalues⟩
    rcases bind_ok hvalues with ⟨⟨n, bytes₃⟩, hmin, hmax⟩
    cases bytes with
    | nil => cases helem
    | cons byte bytes =>
      cases helem
      cases bytes₁ with
      | nil => cases hflags
      | cons byte' bytes₁ =>
        cases hflags
        refine ⟨_, _, _, n, bytes₃, rfl, ok_of_toOption (leb_eq bytes₂).symm hmin, fun hodd => ?_⟩
        simp only [if_pos hodd] at hmax
        rcases bind_ok hmax with ⟨⟨max, bytes₄⟩, hmax, -⟩
        exact ⟨max, bytes₄, ok_of_toOption (leb_eq bytes₃).symm hmax⟩
  · rintro ⟨elemType, flags, limits, n, rest, rfl, hmin, hmax⟩
    show ∃ after, skipLimits (flags :: limits) = .ok after
    rw [skipLimits_eq hmin]
    by_cases hodd : flags &&& 1 ≠ 0
    · rcases hmax hodd with ⟨max, rest', hmax⟩
      rw [if_pos hodd, leb_read hmax]
      exact ⟨rest', rfl⟩
    · rw [if_neg hodd]
      exact ⟨rest, rfl⟩

theorem skipDescriptor_complete (h : readDescriptor record.kind record.descriptor = .ok rest) :
    (∃ after, skipDescriptor record.kind record.descriptor = .ok after) ↔ record.Complete := by
  by_cases htable : record.kind = d_externalKind_table
  · unfold ImportRecord.Complete
    rw [htable, skipDescriptor_table]
    exact ⟨fun h _ => h, fun h => h rfl⟩
  · refine iff_of_true ?_ fun h => absurd h htable
    by_cases hmemory : record.kind = d_externalKind_memory
    · rw [hmemory] at h ⊢
      rcases skipDescriptor_memory h with ⟨flag, limits, -, after, hskip, -⟩
      exact ⟨after, hskip⟩
    · exact ⟨rest, skipDescriptor_same htable hmemory h⟩

/-! ## One import, and all of them -/

/-- The entry `scanImports` makes of a record. -/
def importDescriptorOf (record : ImportRecord) : Option ModuleImportDescriptor :=
  (kinds record.kind).map (⟨utf8Decode record.moduleUtf8, utf8Decode record.fieldUtf8, ·⟩)

theorem name_read {utf8 : CString} (h : readUtf8 bytes = .ok (utf8, rest)) :
    ByteReader.name bytes = .ok (utf8Decode utf8, rest) := by
  rcases readUtf8_ok h with ⟨n, payload, hlength, hroom, rfl, rfl⟩
  exact name_eq hlength hroom

/-- Both decoders come to the descriptor of an import with the same names. -/
theorem scanImport_read (h : readImport bytes = .ok (record, rest)) (i : Nat)
    (result : List ModuleImportDescriptor) :
    readDescriptor record.kind record.descriptor = .ok rest ∧
      scanImport i (result, bytes) = (skipDescriptor record.kind record.descriptor).map
        fun reader => (result ++ (importDescriptorOf record).toList, reader) := by
  rcases bind_ok h with ⟨⟨moduleUtf8, bytes₁⟩, hmodule, hfields⟩
  rcases bind_ok hfields with ⟨⟨fieldUtf8, bytes₂⟩, hfield, hkinds⟩
  rcases bind_ok hkinds with ⟨⟨kind, descriptor⟩, hkind, hdescriptors⟩
  rcases bind_ok hdescriptors with ⟨after, hdescriptor, hrecord⟩
  cases hrecord
  refine ⟨hdescriptor, ?_⟩
  cases bytes₂ with
  | nil => cases hkind
  | cons byte bytes₂ =>
    cases hkind
    unfold scanImport
    rw [name_read hmodule]
    show Except.bind (ByteReader.name bytes₁) _ = _
    rw [name_read hfield]
    show Except.bind (skipDescriptor kind descriptor) _ = _
    cases skipDescriptor kind descriptor with
    | error e => rfl
    | ok reader => rfl

theorem readImports_succ {n : Nat} {records : List ImportRecord}
    (h : readImports (n + 1) bytes = .ok (records, rest)) :
    ∃ record middle tail, records = record :: tail ∧ readImport bytes = .ok (record, middle) ∧
      readImports n middle = .ok (tail, rest) := by
  rcases bind_ok h with ⟨⟨record, middle⟩, hread, hrest⟩
  rcases bind_ok hrest with ⟨⟨tail, after⟩, htail, hrecords⟩
  cases hrecords
  exact ⟨record, middle, tail, rfl, hread, htail⟩

theorem readImports_length {n : Nat} {records : List ImportRecord}
    (h : readImports n bytes = .ok (records, rest)) : records.length = n := by
  induction n generalizing bytes records with
  | zero =>
    cases h
    rfl
  | succ n ih =>
    rcases readImports_succ h with ⟨record, middle, tail, rfl, -, htail⟩
    rw [List.length_cons, ih htail]

/-- As long as the records before the last are in step, only the last can stop the polyfill. -/
theorem loop_scanImport {n i : Nat} {records : List ImportRecord} {last : ImportRecord}
    (h : readImports n bytes = .ok (records ++ [last], rest))
    (hstep : ∀ record ∈ records, record.InStep) (result : List ModuleImportDescriptor) :
    (∃ after, readDescriptor last.kind last.descriptor = .ok after) ∧
      loop scanImport n i (result, bytes) = (skipDescriptor last.kind last.descriptor).map
        fun reader => (result ++ (records ++ [last]).filterMap importDescriptorOf, reader) := by
  induction records generalizing n i bytes result with
  | nil =>
    have hone := readImports_length h
    subst hone
    rcases readImports_succ h with ⟨record, middle, tail, hrecords, hread, -⟩
    cases hrecords
    rcases scanImport_read hread i result with ⟨hdescriptor, hscan⟩
    refine ⟨⟨middle, hdescriptor⟩, ?_⟩
    show (scanImport i (result, bytes)).bind _ = _
    rw [hscan, List.nil_append, List.filterMap_cons]
    cases importDescriptorOf last with
    | none => cases skipDescriptor last.kind last.descriptor <;> rfl
    | some d => cases skipDescriptor last.kind last.descriptor <;> rfl
  | cons record records ih =>
    have hcount := readImports_length h
    subst hcount
    rcases readImports_succ h with ⟨record', middle, tail, hrecords, hread, htail⟩
    cases hrecords
    rcases scanImport_read hread i result with ⟨hdescriptor, hscan⟩
    rw [skipDescriptor_inStep hdescriptor (hstep record List.mem_cons_self)] at hscan
    -- the polyfill goes on where the parser does
    rcases ih (i := i + 1) htail (fun r hr => hstep r (List.mem_cons_of_mem _ hr))
      (result ++ (importDescriptorOf record).toList) with ⟨hlast, hloop⟩
    refine ⟨hlast, ?_⟩
    show (scanImport i (result, bytes)).bind _ = _
    rw [hscan]
    show loop scanImport _ (i + 1) (_, middle) = _
    rw [hloop, List.cons_append, List.filterMap_cons, List.append_assoc]
    cases importDescriptorOf record with
    | none => rfl
    | some d => rfl

/-! ## Modules -/

variable {moduleBytes : Bytes} {m : M3Module} {records : List ImportRecord}

/-- The part of `visitImports` that reads the section. -/
def readImportDescriptors (reader : ByteReader) (result : List ModuleImportDescriptor) :
    Except CompileError (List ModuleImportDescriptor) := do
  let (count, reader) ← ByteReader.leb reader
  let (result, _) ← loop scanImport count.toNat 0 (result, reader)
  .ok result

theorem visitImports_seeks : Seeks 2 visitImports readImportDescriptors :=
  seeks_counted fun _ _ _ _ => rfl

theorem readImportDescriptors_eq (h : importRecords bytes = .ok records)
    (hstep : ∀ record ∈ records.dropLast, record.InStep) :
    ((∃ ds, readImportDescriptors bytes [] = .ok ds) ↔
      ∀ record ∈ records.getLast?, record.Complete) ∧
    ∀ ds, readImportDescriptors bytes [] = .ok ds → ds = records.filterMap importDescriptorOf := by
  rcases bind_ok h with ⟨⟨count, payload⟩, hcount, hrecords⟩
  rcases bind_ok hrecords with ⟨⟨records', rest⟩, hread, hend⟩
  cases hend
  have hscan : readImportDescriptors bytes [] =
      (loop scanImport count.toNat 0 ([], payload)).map Prod.fst := by
    unfold readImportDescriptors
    rw [leb_read hcount]
    show Except.bind (loop scanImport count.toNat 0 ([], payload)) _ = _
    cases loop scanImport count.toNat 0 ([], payload) <;> rfl
  rw [hscan]
  rcases List.eq_nil_or_concat records with rfl | ⟨first, last, hconcat⟩
  · rw [← readImports_length hread]
    refine ⟨iff_of_true ⟨[], rfl⟩ (fun record hr => nomatch hr), ?_⟩
    intro ds hds
    cases hds
    rfl
  · rw [List.concat_eq_append] at hconcat
    subst hconcat
    rw [List.dropLast_concat] at hstep
    rcases loop_scanImport (i := 0) hread hstep [] with ⟨⟨after, hlast⟩, hloop⟩
    rw [hloop, List.getLast?_concat]
    have hcomplete := skipDescriptor_complete hlast
    cases hskip : skipDescriptor last.kind last.descriptor with
    | error e =>
      refine ⟨iff_of_false (fun h => nomatch h) ?_, fun ds h => nomatch h⟩
      intro h
      rcases hcomplete.mpr (h last rfl) with ⟨reader, hreader⟩
      cases hskip.symm.trans hreader
    | ok reader =>
      refine ⟨iff_of_true ⟨_, rfl⟩ ?_, ?_⟩
      · intro record hrecord
        cases hrecord
        exact hcomplete.mp ⟨reader, hskip⟩
      intro ds hds
      cases hds
      rfl

/-- No table, and no memory with an even limits flag other than zero, has an import after it. -/
def StaysInStep (moduleBytes : Bytes) : Prop :=
  ∀ record ∈ (moduleImports moduleBytes).dropLast, record.InStep

/-- A table that is imported last has its type there. -/
def EndsComplete (moduleBytes : Bytes) : Prop :=
  ∀ record ∈ (moduleImports moduleBytes).getLast?, record.Complete

theorem scanImports_eq (h : m3ParseModule moduleBytes = .ok m) (hstep : StaysInStep moduleBytes) :
    ((∃ ds, scanImports moduleBytes = .ok ds) ↔ EndsComplete moduleBytes) ∧
      ∀ ds, scanImports moduleBytes = .ok ds →
        ds = (moduleImports moduleBytes).filterMap importDescriptorOf := by
  rcases m3ParseModule_ok h with ⟨hlength, sections, hparsed⟩
  have hread := (parsedModule_recorded h).2
  unfold scanImports walkSections
  rw [if_neg (Nat.not_lt_of_le hlength), walkSections_parsed visitImports_seeks hparsed,
    ← sectionsOf_parsed hparsed]
  have hsection : ((sectionsOf (moduleBytes.drop 8)).find? (·.1 = 2)).map Prod.snd =
    sectionWith 2 moduleBytes := rfl
  rw [hsection]
  cases hfound : sectionWith 2 moduleBytes with
  | none =>
    have hnone : moduleImports moduleBytes = [] := by
      unfold moduleImports
      rw [hfound]
    unfold EndsComplete
    rw [hnone]
    refine ⟨iff_of_true ⟨[], rfl⟩ (fun record hrecord => nomatch hrecord), ?_⟩
    intro ds hds
    cases hds
    rfl
  | some reader => exact readImportDescriptors_eq (hread reader hfound) hstep

/-! ## Agreement -/

/-- The names of the entries of one kind, in order. -/
def namesOfKind (kind : ImportExportKind) (ds : List ModuleImportDescriptor) :
    List (JsString × JsString) :=
  (ds.filter (·.kind = kind)).map fun d => (d.module, d.name)

/-- Two names as the polyfill would decode the C strings of the parser. -/
def jsNames (names : CString × CString) : JsString × JsString :=
  (utf8Decode names.1.content, utf8Decode names.2.content)

/-- The entries are the imports the parser has recorded; of memories it records that there is one. -/
structure DescribesImports (imports : RecordedImports) (ds : List ModuleImportDescriptor) : Prop where
  functions : namesOfKind .function ds = imports.functions.map jsNames
  globals : namesOfKind .global ds = imports.globals.map jsNames
  memory : (∃ d ∈ ds, d.kind = .memory) ↔ imports.memory = true

def ImportsDescribed (moduleBytes : Bytes) (m : M3Module) : Prop :=
  ∃ ds, scanImports moduleBytes = .ok ds ∧ DescribesImports (recordedImports m) ds

/-- The names of functions and globals decode alike when they are cut at the first NUL. -/
def NamesIntact (moduleBytes : Bytes) : Prop :=
  ∀ record ∈ moduleImports moduleBytes,
    record.kind = d_externalKind_function ∨ record.kind = d_externalKind_global →
      utf8Decode record.moduleUtf8.content = utf8Decode record.moduleUtf8 ∧
        utf8Decode record.fieldUtf8.content = utf8Decode record.fieldUtf8

theorem importDescriptorOf_eq {d : ModuleImportDescriptor} :
    importDescriptorOf record = some d ↔ record.kind = kindByte d.kind ∧
      utf8Decode record.moduleUtf8 = d.module ∧ utf8Decode record.fieldUtf8 = d.name := by
  unfold importDescriptorOf
  constructor
  · intro h
    rcases Option.map_eq_some_iff.mp h with ⟨kind, hkind, rfl⟩
    exact ⟨kinds_eq hkind, rfl, rfl⟩
  · rintro ⟨hkind, hmodule, hname⟩
    rw [hkind, kinds_kindByte, hmodule, hname]
    rfl

theorem namesOfKind_eq (kind : ImportExportKind) (records : List ImportRecord) :
    namesOfKind kind (records.filterMap importDescriptorOf) =
      (records.filterMap (ImportRecord.namesOf (kindByte kind))).map
        fun names => (utf8Decode names.1, utf8Decode names.2) := by
  induction records with
  | nil => rfl
  | cons record records ih =>
    unfold namesOfKind at ih ⊢
    rw [List.filterMap_cons, List.filterMap_cons]
    unfold ImportRecord.namesOf at ih ⊢
    by_cases hkind : record.kind = kindByte kind
    · have hd : importDescriptorOf record =
          some ⟨utf8Decode record.moduleUtf8, utf8Decode record.fieldUtf8, kind⟩ :=
        importDescriptorOf_eq.mpr ⟨hkind, rfl, rfl⟩
      simp only [hd, if_pos hkind, List.filter_cons, decide_true, if_true, List.map_cons, ih]
      rfl
    · rw [if_neg hkind]
      cases hd : importDescriptorOf record with
      | none => exact ih
      | some d =>
        have hother : d.kind ≠ kind := by
          rintro rfl
          exact hkind (importDescriptorOf_eq.mp hd).1
        simp only [List.filter_cons, decide_eq_false hother, Bool.false_eq_true, if_false]
        exact ih

theorem memory_listed (records : List ImportRecord) :
    (∃ d ∈ records.filterMap importDescriptorOf, d.kind = .memory) ↔
      records.any (·.kind = d_externalKind_memory) = true := by
  rw [List.any_eq_true]
  constructor
  · rintro ⟨d, hd, hkind⟩
    rcases List.mem_filterMap.mp hd with ⟨record, hrecord, hrecorded⟩
    have hbyte := (importDescriptorOf_eq.mp hrecorded).1
    rw [hkind] at hbyte
    exact ⟨record, hrecord, decide_eq_true hbyte⟩
  · rintro ⟨record, hrecord, hkind⟩
    have hd : importDescriptorOf record =
        some ⟨utf8Decode record.moduleUtf8, utf8Decode record.fieldUtf8, .memory⟩ :=
      importDescriptorOf_eq.mpr ⟨of_decide_eq_true hkind, rfl, rfl⟩
    exact ⟨_, List.mem_filterMap.mpr ⟨record, hrecord, hd⟩, rfl⟩

/-- The names of one kind are those the parser has when none of them loses anything at a NUL. -/
theorem namesOfKind_iff (kind : ImportExportKind) (records : List ImportRecord) :
    namesOfKind kind (records.filterMap importDescriptorOf) =
        (records.filterMap (ImportRecord.namesOf (kindByte kind))).map jsNames ↔
      ∀ record ∈ records, record.kind = kindByte kind →
        utf8Decode record.moduleUtf8.content = utf8Decode record.moduleUtf8 ∧
          utf8Decode record.fieldUtf8.content = utf8Decode record.fieldUtf8 := by
  rw [namesOfKind_eq, List.map_inj_left]
  unfold jsNames
  constructor
  · intro h record hrecord hkind
    have hmem : record.names ∈ records.filterMap (ImportRecord.namesOf (kindByte kind)) :=
      List.mem_filterMap.mpr ⟨record, hrecord, if_pos hkind⟩
    have heq := Prod.ext_iff.mp (h record.names hmem)
    exact ⟨heq.1.symm, heq.2.symm⟩
  · intro h names hnames
    rcases List.mem_filterMap.mp hnames with ⟨record, hrecord, hnamed⟩
    unfold ImportRecord.namesOf at hnamed
    by_cases hkind : record.kind = kindByte kind
    · rw [if_pos hkind] at hnamed
      cases hnamed
      rcases h record hrecord hkind with ⟨hmodule, hfield⟩
      exact Prod.ext hmodule.symm hfield.symm
    · rw [if_neg hkind] at hnamed
      cases hnamed

theorem describesImports_iff :
    DescribesImports (RecordedImports.add {} (moduleImports moduleBytes))
        ((moduleImports moduleBytes).filterMap importDescriptorOf) ↔ NamesIntact moduleBytes := by
  have hfunctions := namesOfKind_iff .function (moduleImports moduleBytes)
  have hglobals := namesOfKind_iff .global (moduleImports moduleBytes)
  constructor
  · intro h record hrecord hkind
    rcases hkind with hkind | hkind
    · exact hfunctions.mp h.functions record hrecord hkind
    · exact hglobals.mp h.globals record hrecord hkind
  · intro h
    refine ⟨?_, ?_, memory_listed _⟩
    · exact hfunctions.mpr fun record hrecord hkind => h record hrecord (.inl hkind)
    · exact hglobals.mpr fun record hrecord hkind => h record hrecord (.inr hkind)

/-- While the scanner stays in step, it lists the imports that were parsed exactly when it finds the
last one whole and no name is cut. -/
theorem importsAgree (h : m3ParseModule moduleBytes = .ok m) (hstep : StaysInStep moduleBytes) :
    ImportsDescribed moduleBytes m ↔ EndsComplete moduleBytes ∧ NamesIntact moduleBytes := by
  rcases scanImports_eq h hstep with ⟨hscans, hentries⟩
  unfold ImportsDescribed
  rw [(parsedModule_recorded h).1, ← hscans, ← describesImports_iff]
  constructor
  · rintro ⟨ds, hscan, hdescribes⟩
    rw [hentries ds hscan] at hdescribes
    exact ⟨⟨ds, hscan⟩, hdescribes⟩
  · rintro ⟨⟨ds, hscan⟩, hdescribes⟩
    refine ⟨ds, hscan, ?_⟩
    rw [hentries ds hscan]
    exact hdescribes

/-- Function `e.f`, memory `e.m` of one to two pages, constant `e.g` and, at the end, table `e.t`. -/
def importOfEachKind : Bytes :=
  wasmHeader ++ [1, 4, 1, 0x60, 0, 0] ++
    [2, 30, 4, 1, 0x65, 1, 0x66, 0, 0, 1, 0x65, 1, 0x6d, 2, 1, 1, 2, 1, 0x65, 1, 0x67, 3, 0x7f, 0,
      1, 0x65, 1, 0x74, 1, 0x70, 0, 1]

theorem importsAgree_eachKind : ∃ m, m3ParseModule importOfEachKind = .ok m ∧ ImportsDescribed importOfEachKind m := by
  have hrecords : moduleImports importOfEachKind =
      [⟨[0x65], [0x66], 0, [0, 1, 0x65, 1, 0x6d, 2, 1, 1, 2, 1, 0x65, 1, 0x67, 3, 0x7f, 0, 1, 0x65, 1,
          0x74, 1, 0x70, 0, 1]⟩,
        ⟨[0x65], [0x6d], 2, [1, 1, 2, 1, 0x65, 1, 0x67, 3, 0x7f, 0, 1, 0x65, 1, 0x74, 1, 0x70, 0, 1]⟩,
        ⟨[0x65], [0x67], 3, [0x7f, 0, 1, 0x65, 1, 0x74, 1, 0x70, 0, 1]⟩,
        ⟨[0x65], [0x74], 1, [0x70, 0, 1]⟩] := by decide +kernel
  rcases ok_of_isSome (show (m3ParseModule importOfEachKind).toOption.isSome by decide +kernel) with
    ⟨m, hparse⟩
  have hstep : StaysInStep importOfEachKind := by
    unfold StaysInStep
    rw [hrecords]
    simp only [List.dropLast_cons_cons, List.dropLast_singleton, List.forall_mem_cons]
    refine ⟨⟨by decide, fun h => nomatch h⟩, ⟨by decide, fun _ flag rest h => ?_⟩,
      ⟨by decide, fun h => nomatch h⟩, fun _ h => nomatch h⟩
    cases h
    exact .inr (by decide)
  have hcomplete : EndsComplete importOfEachKind := by
    unfold EndsComplete
    rw [hrecords]
    intro record hrecord
    cases hrecord
    exact fun _ => ⟨0x70, 0, [1], 1, [], rfl, rfl, fun h => absurd rfl h⟩
  refine ⟨m, hparse, (importsAgree hparse hstep).mpr ⟨hcomplete, ?_⟩⟩
  unfold NamesIntact
  rw [hrecords]
  decide

/-- A table `funcref` without pages from `""` `""`, and then a function `f` from a module with a
name of 109 letters: the parser takes 112, the element type, for the length of a name. -/
def tableBeforeFunction : Bytes :=
  wasmHeader ++ [1, 4, 1, 0x60, 0, 0] ++
    [2, 121, 2, 0, 0, 1, 0x70, 0, 0, 109] ++ List.replicate 109 0x61 ++ [1, 0x66, 0, 0]

theorem importsAgree_fails : ∃ m, m3ParseModule tableBeforeFunction = .ok m ∧
    scanImports tableBeforeFunction = .ok
      [⟨[], [], .table⟩, ⟨List.replicate 109 0x61, forAscii (ascii "f"), .function⟩] ∧
    (recordedImports m).functions.map jsNames = [([], forAscii (ascii "f"))] ∧
    ¬ ImportsDescribed tableBeforeFunction m := by
  have hscan : scanImports tableBeforeFunction = .ok
      [⟨[], [], .table⟩, ⟨List.replicate 109 0x61, forAscii (ascii "f"), .function⟩] := by
    decide +kernel
  have hrecorded : (m3ParseModule tableBeforeFunction).toOption.map
      (fun m => (recordedImports m).functions.map jsNames) = some [([], forAscii (ascii "f"))] := by
    decide +kernel
  rcases ok_of_isSome (Option.isSome_of_mem (Option.map_eq_some_iff.mp hrecorded).choose_spec.1) with
    ⟨m, hparse⟩
  rw [hparse] at hrecorded
  have hfunctions := Option.some.inj hrecorded
  refine ⟨m, hparse, hscan, hfunctions, ?_⟩
  rintro ⟨ds, hds, hdescribes⟩
  cases hscan.symm.trans hds
  have hsame := hdescribes.functions.trans hfunctions
  exact absurd hsame (by decide)

end WebAssemblyRuntime.Binding
