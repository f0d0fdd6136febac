import WebAssemblyRuntime.Binding.Instantiate
import WebAssemblyRuntime.Binding.ScanAgreement
import WebAssemblyRuntime.Reasoning.Overwrite

/-!
# ExportAgreement — `Module.exports` and the exports object

The exports object is filled from the export section by one write for each record it accepts; the
names are distinct, so no write undoes another.
-/

open WebAssemblyRuntime.Polyfill WebAssemblyRuntime.Reasoning WebAssemblyRuntime.Wasm3

namespace WebAssemblyRuntime.Binding

/-! ## What the two sides promise -/

/-- What a record of a known kind exports; a module has one table and one memory. -/
def exportedEntity (record : ExportRecord) : ImportExportKind → Option ExportValue
  | .function => some (.function record.index.toNat)
  | .table => if record.index = 0 then some .table else none
  | .memory => if record.index = 0 then some .memory else none
  | .global => some (.global record.index.toNat)

def memoryName : JsString := forAscii (ascii "memory")

/-- Every descriptor has its own property, with the host value of the entity exported under its
name, and there are no other properties but `memory` for a memory that is not exported. -/
structure Describes (moduleBytes : Bytes) (descriptors : List ModuleExportDescriptor)
    (exports : Exports) : Prop where
  present : ∀ d ∈ descriptors, ∃ record ∈ moduleExports moduleBytes, descriptorOf record = some d ∧
    ∃ value, exportedEntity record d.kind = some value ∧ exports d.name = some value
  nothingElse : ∀ name value, exports name = some value →
    (∃ d ∈ descriptors, d.name = name) ∨
      name = memoryName ∧ value = .memory ∧ (sectionWith 5 moduleBytes).isSome ∧
        ∀ record ∈ moduleExports moduleBytes, record.kind ≠ d_externalKind_memory

def ExportsAgree (moduleBytes : Bytes) (exports : Exports) : Prop :=
  ∃ descriptors, scanExports moduleBytes = .ok descriptors ∧
    Describes moduleBytes descriptors exports

/-- The condition: an exported memory is the one of the memory section, declared with an initial
size whose length in bytes is not zero modulo `2 ^ 32`, and an exported table is table 0. -/
def ExportsVisible (moduleBytes : Bytes) : Prop :=
  ∀ record ∈ moduleExports moduleBytes,
    (record.kind = d_externalKind_memory → record.index = 0 ∧
      (declaredMemory moduleBytes).initPages ≠ 0 ∧
      (declaredMemory moduleBytes).initPages ≠ 65536) ∧
    (record.kind = d_externalKind_table → record.index = 0)

/-! ## The loop over the records as writes -/

variable {forUtf8 : List UInt8 → JsString} {module : M3Module} {hasMemory : Bool}

/-- The value the `switch` sets for a record, if any. -/
def acceptedValue (module : M3Module) (hasMemory : Bool) (record : ExportRecord) :
    Option ExportValue :=
  match record.kind with
  | 0 =>
    if record.index.toNat < module.functions.length then some (.function record.index.toNat) else none
  | 2 => if hasMemory then some .memory else none
  | 3 => if record.index.toNat < module.globals.length then some (.global record.index.toNat) else none
  | 1 => if record.index = 0 then some .table else none
  | _ => none

def exportHits (forUtf8 : List UInt8 → JsString) (module : M3Module) (hasMemory : Bool)
    (record : ExportRecord) (name : JsString) : Bool :=
  (acceptedValue module hasMemory record).isSome && forUtf8 record.name = name

theorem acceptedValue_unknown {record : ExportRecord} (h0 : record.kind ≠ 0)
    (h2 : record.kind ≠ 2) (h3 : record.kind ≠ 3) (h1 : record.kind ≠ 1) :
    acceptedValue module hasMemory record = none := by
  unfold acceptedValue
  split
  · exact absurd ‹_› h0
  · exact absurd ‹_› h2
  · exact absurd ‹_› h3
  · exact absurd ‹_› h1
  · rfl

/-- The filter of each kind. -/
theorem acceptedValue_some {record : ExportRecord} {value : ExportValue} :
    acceptedValue module hasMemory record = some value ↔
      (record.kind = d_externalKind_function ∧ record.index.toNat < module.functions.length ∧
        value = .function record.index.toNat) ∨
      (record.kind = d_externalKind_memory ∧ hasMemory ∧ value = .memory) ∨
      (record.kind = d_externalKind_global ∧ record.index.toNat < module.globals.length ∧
        value = .global record.index.toNat) ∨
      (record.kind = d_externalKind_table ∧ record.index = 0 ∧ value = .table) := by
  unfold acceptedValue
  constructor
  · intro h
    split at h
    · rename_i hkind
      rcases pos_of_ite h nofun with ⟨hindex, h⟩
      exact .inl ⟨hkind, hindex, (Option.some.inj h).symm⟩
    · rename_i hkind
      rcases pos_of_ite h nofun with ⟨hmemory, h⟩
      exact .inr (.inl ⟨hkind, hmemory, (Option.some.inj h).symm⟩)
    · rename_i hkind
      rcases pos_of_ite h nofun with ⟨hindex, h⟩
      exact .inr (.inr (.inl ⟨hkind, hindex, (Option.some.inj h).symm⟩))
    · rename_i hkind
      rcases pos_of_ite h nofun with ⟨hindex, h⟩
      exact .inr (.inr (.inr ⟨hkind, hindex, (Option.some.inj h).symm⟩))
    · cases h
  · rintro (⟨hkind, hindex, rfl⟩ | ⟨hkind, hmemory, rfl⟩ | ⟨hkind, hindex, rfl⟩ | ⟨hkind, hindex, rfl⟩)
    · rw [hkind]
      exact if_pos hindex
    · rw [hkind]
      exact if_pos hmemory
    · rw [hkind]
      exact if_pos hindex
    · rw [hkind]
      exact if_pos hindex

theorem setExport_eq (s : Exports × Bool) (record : ExportRecord) :
    setExport forUtf8 module hasMemory s record =
      match acceptedValue module hasMemory record with
      | none => s
      | some value =>
        (setProperty s.1 (forUtf8 record.name) value, s.2 || decide (value = .memory)) := by
  unfold setExport
  split
  · rename_i hkind
    unfold acceptedValue
    simp only [hkind]
    by_cases hindex : record.index.toNat < module.functions.length
    · rw [if_pos hindex, if_pos hindex]
      exact Prod.ext rfl (Bool.or_false _).symm
    · rw [if_neg hindex, if_neg hindex]
  · rename_i hkind
    unfold acceptedValue
    simp only [hkind]
    by_cases hmemory : hasMemory = true
    · rw [if_pos hmemory, if_pos hmemory]
      exact Prod.ext rfl (Bool.or_true _).symm
    · rw [if_neg hmemory, if_neg hmemory]
  · rename_i hkind
    unfold acceptedValue
    simp only [hkind]
    by_cases hindex : record.index.toNat < module.globals.length
    · rw [if_pos hindex, if_pos hindex]
      exact Prod.ext rfl (Bool.or_false _).symm
    · rw [if_neg hindex, if_neg hindex]
  · rename_i hkind
    unfold acceptedValue
    simp only [hkind]
    by_cases hindex : record.index = 0
    · rw [if_pos hindex, if_pos hindex]
      exact Prod.ext rfl (Bool.or_false _).symm
    · rw [if_neg hindex, if_neg hindex]
  · rename_i h0 h2 h3 h1
    rw [acceptedValue_unknown h0 h2 h3 h1]

theorem setExport_exports (s : Exports × Bool) (record : ExportRecord) :
    (setExport forUtf8 module hasMemory s record).1 =
      overwrite (exportHits forUtf8 module hasMemory) (acceptedValue module hasMemory) s.1 record := by
  funext name
  rw [setExport_eq]
  unfold overwrite exportHits
  cases acceptedValue module hasMemory record with
  | none => rfl
  | some value =>
    show setProperty s.1 (forUtf8 record.name) value name =
      if decide (forUtf8 record.name = name) then _ else _
    unfold setProperty
    by_cases hname : forUtf8 record.name = name
    · rw [hname, Function.update_self, decide_eq_true rfl, if_pos rfl]
    · rw [Function.update_of_ne (Ne.symm hname), decide_eq_false hname]
      rfl

variable (forUtf8 module hasMemory) in
theorem setExports_exports (records : List ExportRecord) (s : Exports × Bool) :
    (records.foldl (setExport forUtf8 module hasMemory) s).1 =
      overwriteAll (exportHits forUtf8 module hasMemory) (acceptedValue module hasMemory) s.1
        records := by
  induction records generalizing s with
  | nil => rfl
  | cons record rest ih =>
    rw [List.foldl_cons, ih, setExport_exports]
    rfl

variable (forUtf8 module hasMemory) in
/-- `memoryExported`. -/
theorem setExports_memory (records : List ExportRecord) (s : Exports × Bool) :
    (records.foldl (setExport forUtf8 module hasMemory) s).2 = true ↔
      s.2 = true ∨ ∃ record ∈ records, acceptedValue module hasMemory record = some .memory := by
  induction records generalizing s with
  | nil => simp
  | cons record rest ih =>
    have hstep : (setExport forUtf8 module hasMemory s record).2 = true ↔
        s.2 = true ∨ acceptedValue module hasMemory record = some .memory := by
      rw [setExport_eq]
      cases acceptedValue module hasMemory record with
      | none => simp
      | some value => simp
    rw [List.foldl_cons, ih, hstep, List.exists_mem_cons_iff, or_assoc]

theorem acceptedValue_memory {record : ExportRecord} :
    acceptedValue module hasMemory record = some .memory ↔
      record.kind = d_externalKind_memory ∧ hasMemory := by
  constructor
  · intro h
    rcases acceptedValue_some.mp h with ⟨-, -, hvalue⟩ | ⟨hkind, hmemory, -⟩ | ⟨-, -, hvalue⟩ |
      ⟨-, -, hvalue⟩
    · cases hvalue
    · exact ⟨hkind, hmemory⟩
    · cases hvalue
    · cases hvalue
  · rintro ⟨hkind, hmemory⟩
    exact acceptedValue_some.mpr (.inr (.inl ⟨hkind, hmemory, rfl⟩))

/-! ## The exports object -/

variable {moduleBytes : Bytes} {records : List ExportRecord}

/-- The properties set by the loop. -/
def loopExports (forUtf8 : List UInt8 → JsString) (module : M3Module) (hasMemory : Bool)
    (records : List ExportRecord) : Exports :=
  overwriteAll (exportHits forUtf8 module hasMemory) (acceptedValue module hasMemory)
    (fun _ => none) records

/-- The condition under which `memory` is added after the loop. -/
def AddsMemory (forUtf8 : List UInt8 → JsString) (module : M3Module) (hasMemory : Bool)
    (records : List ExportRecord) : Prop :=
  hasMemory ∧ (∀ record ∈ records, record.kind ≠ d_externalKind_memory) ∧
    loopExports forUtf8 module hasMemory records memoryName = none

variable (forUtf8 module hasMemory) in
theorem exportsObject_eq (hscan : scanExportSection moduleBytes = .ok records) :
    AddsMemory forUtf8 module hasMemory records ∧
        exportsObject forUtf8 moduleBytes module hasMemory =
          setProperty (loopExports forUtf8 module hasMemory records) memoryName .memory ∨
      ¬ AddsMemory forUtf8 module hasMemory records ∧
        exportsObject forUtf8 moduleBytes module hasMemory =
          loopExports forUtf8 module hasMemory records := by
  have hexports := setExports_exports forUtf8 module hasMemory records (fun _ => none, false)
  have hmemory := setExports_memory forUtf8 module hasMemory records (fun _ => none, false)
  rw [exportsObject, hscan]
  cases hfold : records.foldl (setExport forUtf8 module hasMemory) (fun _ => none, false)
  rename_i exports memoryExported
  rw [hfold] at hexports hmemory
  change exports = loopExports forUtf8 module hasMemory records at hexports
  -- `memoryExported` is false when no record of kind memory was accepted
  have hadds : (hasMemory ∧ memoryExported = false ∧ exports memoryName = none) ↔
      AddsMemory forUtf8 module hasMemory records := by
    rw [AddsMemory, hexports, and_congr_right_iff]
    intro hhas
    rw [and_congr_left_iff]
    intro _
    rw [← Bool.not_eq_true, hmemory]
    constructor
    · intro h record hrecord hkind
      exact h (.inr ⟨record, hrecord, acceptedValue_memory.mpr ⟨hkind, hhas⟩⟩)
    · rintro h (hinit | ⟨record, hrecord, haccepted⟩)
      · cases hinit
      · exact h record hrecord (acceptedValue_memory.mp haccepted).1
  simp only [hfold]
  by_cases h : AddsMemory forUtf8 module hasMemory records
  · refine .inl ⟨h, ?_⟩
    rw [← hexports]
    exact if_pos (hadds.mpr h)
  · refine .inr ⟨h, ?_⟩
    rw [← hexports]
    exact if_neg fun h' => h (hadds.mp h')

/-- Every property was set for a record, or is the `memory` added at the end. -/
theorem exportsObject_only (hscan : scanExportSection moduleBytes = .ok records) {name : JsString}
    {value : ExportValue}
    (h : exportsObject forUtf8 moduleBytes module hasMemory name = some value) :
    (∃ record ∈ records, forUtf8 record.name = name ∧
      acceptedValue module hasMemory record = some value) ∨
    name = memoryName ∧ value = .memory ∧ hasMemory ∧
      ∀ record ∈ records, record.kind ≠ d_externalKind_memory := by
  have hloop (hset : loopExports forUtf8 module hasMemory records name = some value) :
      ∃ record ∈ records, forUtf8 record.name = name ∧
        acceptedValue module hasMemory record = some value := by
    rw [loopExports] at hset
    rcases overwriteAll_cases records with hnone | ⟨record, hrecord, hhit, hlast⟩
    · rw [hnone] at hset
      cases hset
    · rw [exportHits, Bool.and_eq_true, decide_eq_true_eq] at hhit
      exact ⟨record, hrecord, hhit.2, hlast.symm.trans hset⟩
  rcases exportsObject_eq forUtf8 module hasMemory hscan with ⟨hadds, heq⟩ | ⟨-, heq⟩
  · rw [heq] at h
    -- the last write is that of `memory`
    by_cases hname : name = memoryName
    · rw [hname, setProperty, Function.update_self] at h
      exact .inr ⟨hname, (Option.some.inj h).symm, hadds.1, hadds.2.1⟩
    · rw [setProperty, Function.update_of_ne hname] at h
      exact .inl (hloop h)
  · rw [heq] at h
    exact .inl (hloop h)

/-- Records with the same property name are the same record. -/
def DistinctNames (forUtf8 : List UInt8 → JsString) (records : List ExportRecord) : Prop :=
  ∀ r ∈ records, ∀ r' ∈ records, forUtf8 r.name = forUtf8 r'.name → r = r'

theorem exportsObject_accepted (hscan : scanExportSection moduleBytes = .ok records)
    (hdistinct : DistinctNames forUtf8 records) {record : ExportRecord} (hrecord : record ∈ records)
    {value : ExportValue} (haccepted : acceptedValue module hasMemory record = some value) :
    exportsObject forUtf8 moduleBytes module hasMemory (forUtf8 record.name) = some value := by
  have hset : loopExports forUtf8 module hasMemory records (forUtf8 record.name) = some value := by
    apply overwriteAll_agree
    · refine ⟨record, hrecord, ?_⟩
      rw [exportHits, haccepted, decide_eq_true rfl]
      rfl
    -- only the record itself has this name
    · intro r hr hhit
      rw [exportHits, Bool.and_eq_true, decide_eq_true_eq] at hhit
      rw [hdistinct r hr record hrecord hhit.2, haccepted]
  rcases exportsObject_eq forUtf8 module hasMemory hscan with ⟨hadds, heq⟩ | ⟨-, heq⟩
  · rw [heq]
    -- `memory` is only added when no record has set it
    have hne : forUtf8 record.name ≠ memoryName := by
      intro hname
      rw [hname] at hset
      cases hadds.2.2.symm.trans hset
    rw [setProperty, Function.update_of_ne hne]
    exact hset
  · rw [heq]
    exact hset

/-! ## Descriptors and records -/

theorem descriptorOf_eq {record : ExportRecord} {d : ModuleExportDescriptor} :
    descriptorOf record = some d ↔
      record.kind = kindByte d.kind ∧ utf8Decode record.name = d.name := by
  unfold descriptorOf
  constructor
  · intro h
    rcases Option.map_eq_some_iff.mp h with ⟨kind, hkind, rfl⟩
    exact ⟨kinds_eq hkind, rfl⟩
  · rintro ⟨hkind, hname⟩
    rw [hkind, kinds_kindByte, hname]
    rfl

theorem acceptedValue_known {record : ExportRecord} {value : ExportValue}
    (h : acceptedValue module hasMemory record = some value) :
    ∃ kind, record.kind = kindByte kind := by
  rcases acceptedValue_some.mp h with ⟨hkind, -, -⟩ | ⟨hkind, -, -⟩ | ⟨hkind, -, -⟩ | ⟨hkind, -, -⟩
  · exact ⟨.function, hkind⟩
  · exact ⟨.memory, hkind⟩
  · exact ⟨.global, hkind⟩
  · exact ⟨.table, hkind⟩

variable (module hasMemory) in
/-- A record that passes its kind's filter is exported as what it names. -/
theorem acceptedValue_entity {record : ExportRecord} {kind : ImportExportKind}
    (hkind : record.kind = kindByte kind)
    (hfunction : record.kind = d_externalKind_function →
      record.index.toNat < module.functions.length)
    (hglobal : record.kind = d_externalKind_global → record.index.toNat < module.globals.length)
    (hmemory : record.kind = d_externalKind_memory → record.index = 0 ∧ hasMemory)
    (htable : record.kind = d_externalKind_table → record.index = 0) :
    ∃ value, exportedEntity record kind = some value ∧
      acceptedValue module hasMemory record = some value := by
  cases kind with
  | function => exact ⟨_, rfl, acceptedValue_some.mpr (.inl ⟨hkind, hfunction hkind, rfl⟩)⟩
  | table =>
    refine ⟨.table, if_pos (htable hkind), ?_⟩
    exact acceptedValue_some.mpr (.inr (.inr (.inr ⟨hkind, htable hkind, rfl⟩)))
  | memory =>
    rcases hmemory hkind with ⟨hindex, hhas⟩
    exact ⟨.memory, if_pos hindex, acceptedValue_memory.mpr ⟨hkind, hhas⟩⟩
  | global =>
    exact ⟨_, rfl, acceptedValue_some.mpr (.inr (.inr (.inl ⟨hkind, hglobal hkind, rfl⟩)))⟩

/-! ## Agreement -/

variable {parsed : M3Module} {p : Prepared}

theorem hasMemory_iff (hparse : m3ParseModule moduleBytes = .ok parsed)
    (hp : PreparedFrom parsed p) :
    p.hasMemory ↔ (declaredMemory moduleBytes).initPages ≠ 0 ∧
      (declaredMemory moduleBytes).initPages ≠ 65536 := by
  rw [← parsedModule_memory hparse hp.memoryImported]
  exact hp.hasMemory

/-- A module with pages has a memory section. -/
theorem memorySection_isSome (h : (declaredMemory moduleBytes).initPages ≠ 0) :
    (sectionWith 5 moduleBytes).isSome := by
  unfold declaredMemory at h
  cases hsection : sectionWith 5 moduleBytes with
  | none =>
    rw [hsection] at h
    exact absurd rfl h
  | some bytes => rfl

theorem visible_of_describes (hparse : m3ParseModule moduleBytes = .ok parsed)
    (hp : PreparedFrom parsed p)
    (hdistinct : DistinctNames utf8Decode (moduleExports moduleBytes))
    (h : Describes moduleBytes ((moduleExports moduleBytes).filterMap descriptorOf)
      (exportsObject forUtf8 moduleBytes p.module p.hasMemory)) : ExportsVisible moduleBytes := by
  -- a record of a known kind has a descriptor, and so its own property
  have hpresent (record : ExportRecord) (hrecord : record ∈ moduleExports moduleBytes)
      (kind : ImportExportKind) (hkind : record.kind = kindByte kind) :
      ∃ value, exportedEntity record kind = some value ∧
        exportsObject forUtf8 moduleBytes p.module p.hasMemory (utf8Decode record.name) =
          some value := by
    have hd : descriptorOf record = some ⟨utf8Decode record.name, kind⟩ :=
      descriptorOf_eq.mpr ⟨hkind, rfl⟩
    rcases h.present _ (List.mem_filterMap.mpr ⟨record, hrecord, hd⟩) with
      ⟨record', hrecord', hd', value, hentity, hvalue⟩
    have hsame := hdistinct record' hrecord' record hrecord (descriptorOf_eq.mp hd').2
    exact ⟨value, hsame ▸ hentity, hvalue⟩
  intro record hrecord
  constructor
  · intro hkind
    rcases hpresent record hrecord .memory hkind with ⟨value, hentity, hvalue⟩
    have hindex : record.index = 0 := by
      by_contra hindex
      rw [exportedEntity, if_neg hindex] at hentity
      cases hentity
    rw [exportedEntity, if_pos hindex] at hentity
    cases hentity
    refine ⟨hindex, (hasMemory_iff hparse hp).mp ?_⟩
    rcases exportsObject_only (scanExportSection_eq hparse) hvalue with ⟨r, -, -, haccepted⟩ | ⟨-, -, hmemory, -⟩
    · exact (acceptedValue_memory.mp haccepted).2
    · exact hmemory
  · intro hkind
    rcases hpresent record hrecord .table hkind with ⟨value, hentity, -⟩
    by_contra hindex
    rw [exportedEntity, if_neg hindex] at hentity
    cases hentity

theorem describes_of_visible (hparse : m3ParseModule moduleBytes = .ok parsed)
    (hp : PreparedFrom parsed p)
    (hname : ∀ record ∈ moduleExports moduleBytes, forUtf8 record.name = utf8Decode record.name)
    (hdistinct : DistinctNames utf8Decode (moduleExports moduleBytes))
    (h : ExportsVisible moduleBytes) :
    Describes moduleBytes ((moduleExports moduleBytes).filterMap descriptorOf)
      (exportsObject forUtf8 moduleBytes p.module p.hasMemory) := by
  have hscan := scanExportSection_eq hparse
  have hproperty : DistinctNames forUtf8 (moduleExports moduleBytes) := by
    intro r hr r' hr' heq
    rw [hname r hr, hname r' hr'] at heq
    exact hdistinct r hr r' hr' heq
  have hchecked := (moduleExports_parsed hparse).1
  constructor
  · intro d hd
    rcases List.mem_filterMap.mp hd with ⟨record, hrecord, hdescriptor⟩
    rcases descriptorOf_eq.mp hdescriptor with ⟨hkind, hdname⟩
    rcases acceptedValue_entity p.module p.hasMemory hkind
      (fun hk => by rw [hp.length]; exact (hchecked record hrecord).1 hk)
      (fun hk => by rw [hp.globals]; exact (hchecked record hrecord).2 hk)
      (fun hk => ⟨((h record hrecord).1 hk).1, (hasMemory_iff hparse hp).mpr ((h record hrecord).1 hk).2⟩)
      (h record hrecord).2 with ⟨value, hentity, haccepted⟩
    refine ⟨record, hrecord, hdescriptor, value, hentity, ?_⟩
    rw [← hdname, ← hname record hrecord]
    exact exportsObject_accepted hscan hproperty hrecord haccepted
  · intro name value hvalue
    rcases exportsObject_only hscan hvalue with ⟨record, hrecord, hrname, haccepted⟩ |
      ⟨hmemoryName, hmemory, hhas, hunexported⟩
    · rcases acceptedValue_known haccepted with ⟨kind, hkind⟩
      have hd : descriptorOf record = some ⟨name, kind⟩ :=
        descriptorOf_eq.mpr ⟨hkind, (hname record hrecord).symm.trans hrname⟩
      exact .inl ⟨_, List.mem_filterMap.mpr ⟨record, hrecord, hd⟩, rfl⟩
    · have hpages := (hasMemory_iff hparse hp).mp hhas
      exact .inr ⟨hmemoryName, hmemory, memorySection_isSome hpages.1, hunexported⟩

/-- Valid UTF-8 is decoded alike by JSI, as far as that is faithful, and by the polyfill. -/
theorem names_decoded (hutf8 : ∀ chars, forUtf8 (encodeUtf8 chars) = encodeUtf16 chars)
    {name : List UInt8} (h : ValidUtf8 name) : forUtf8 name = utf8Decode name := by
  rcases h with ⟨chars, rfl⟩
  rw [hutf8, utf8Decode_encodeUtf8]

theorem distinctNames (hvalid : ∀ r ∈ records, ValidUtf8 r.name)
    (hdistinct : (records.map ExportRecord.name).Nodup) : DistinctNames utf8Decode records := by
  intro r hr r' hr' heq
  apply List.inj_on_of_nodup_map hdistinct hr hr'
  rcases hvalid r hr with ⟨chars, hchars⟩
  rcases hvalid r' hr' with ⟨chars', hchars'⟩
  rw [hchars, hchars', utf8Decode_encodeUtf8, utf8Decode_encodeUtf8] at heq
  rw [hchars, hchars', encodeUtf16_injective heq]

/-- After `instantiate`, `Module.exports` and the exports object agree exactly when every exported
memory and table is visible to the binding. -/
theorem exportsAgree {host : Host} {bufferSource : ArrayBuffer} {importObject : ImportObject}
    {options : InstantiateOptions} {native : NativeInstance} {p : Prepared}
    (h : Instantiates host bufferSource importObject options native p)
    (hutf8 : ∀ chars, host.forUtf8 (encodeUtf8 chars) = encodeUtf16 chars)
    (hvalid : ∀ record ∈ moduleExports bufferSource.bytes, ValidUtf8 record.name)
    (hdistinct : ((moduleExports bufferSource.bytes).map ExportRecord.name).Nodup) :
    ExportsAgree bufferSource.bytes native.exports ↔ ExportsVisible bufferSource.bytes := by
  rcases prepare_ok h.prepared with ⟨parsed, hparse, hp⟩
  have hnames := distinctNames hvalid hdistinct
  have hdecoded : ∀ record ∈ moduleExports bufferSource.bytes,
      host.forUtf8 record.name = utf8Decode record.name :=
    fun record hrecord => names_decoded hutf8 (hvalid record hrecord)
  unfold ExportsAgree
  rw [h.exports, scanExports_eq hparse]
  constructor
  · rintro ⟨descriptors, hscan, hdescribes⟩
    cases hscan
    exact visible_of_describes hparse hp hnames hdescribes
  · intro hvisible
    exact ⟨_, rfl, describes_of_visible hparse hp hdecoded hnames hvisible⟩

/-- One export of each kind: function `f`, table `t`, memory `m` of one page and global `g`. -/
def exportOfEachKind : ArrayBuffer where
  bytes := wasmHeader ++ [1, 4, 1, 0x60, 0, 0] ++ [3, 2, 1, 0] ++ [4, 4, 1, 0x70, 0, 1] ++
    [5, 3, 1, 0, 1] ++ [6, 6, 1, 0x7f, 0, 0x41, 7, 0x0b] ++
    [7, 17, 4, 1, 0x66, 0, 0, 1, 0x74, 1, 0, 1, 0x6d, 2, 0, 1, 0x67, 3, 0] ++
    [10, 4, 1, 2, 0, 0x0b]
  length_le := by decide

theorem exportsAgree_eachKind : ∃ native p,
    Instantiates constantHost exportOfEachKind .empty {} native p ∧
      ExportsAgree exportOfEachKind.bytes native.exports := by
  rcases instantiates_withoutImports exportOfEachKind (by decide +kernel) with ⟨native, p, hnative⟩
  have hrecords : moduleExports exportOfEachKind.bytes =
      [⟨[0x66], 0, 0⟩, ⟨[0x74], 1, 0⟩, ⟨[0x6d], 2, 0⟩, ⟨[0x67], 3, 0⟩] := by decide +kernel
  have hvalid : ∀ record ∈ moduleExports exportOfEachKind.bytes, ValidUtf8 record.name := by
    rw [hrecords]
    simp only [List.forall_mem_cons]
    exact ⟨⟨['f'], by decide⟩, ⟨['t'], by decide⟩, ⟨['m'], by decide⟩, ⟨['g'], by decide⟩,
      fun _ h => (nomatch h)⟩
  have hvisible : ExportsVisible exportOfEachKind.bytes := by
    unfold ExportsVisible
    decide +kernel
  refine ⟨native, p, hnative, ?_⟩
  apply (exportsAgree hnative utf8Decode_encodeUtf8 hvalid (by rw [hrecords]; decide)).mpr
  exact hvisible

/-- A memory of no pages, exported as `m`. -/
def emptyMemoryExport : ArrayBuffer where
  bytes := wasmHeader ++ [5, 3, 1, 0, 0] ++ [7, 5, 1, 1, 0x6d, 2, 0]
  length_le := by decide

theorem exportsAgree_fails : ∃ native p,
    Instantiates constantHost emptyMemoryExport .empty {} native p ∧
      (∀ chars, constantHost.forUtf8 (encodeUtf8 chars) = encodeUtf16 chars) ∧
      moduleExports emptyMemoryExport.bytes = [⟨ascii "m", d_externalKind_memory, 0⟩] ∧
      ValidUtf8 (ascii "m") ∧
      scanExports emptyMemoryExport.bytes = .ok [⟨forAscii (ascii "m"), .memory⟩] ∧
      native.exports (forAscii (ascii "m")) = none ∧
      ¬ ExportsAgree emptyMemoryExport.bytes native.exports := by
  rcases instantiates_withoutImports emptyMemoryExport (by decide +kernel) with ⟨native, p, hnative⟩
  have hscan : scanExports emptyMemoryExport.bytes = .ok [⟨forAscii (ascii "m"), .memory⟩] := by
    decide +kernel
  have hmemory : p.hasMemory = false := by
    have hflag : (prepareWithoutImports emptyMemoryExport).toOption.map Prepared.hasMemory = some false := by
      decide +kernel
    rw [show prepareWithoutImports emptyMemoryExport = .ok p from hnative.prepared] at hflag
    exact Option.some.inj hflag
  have hexports : native.exports (forAscii (ascii "m")) = none := by
    have hrecords : scanExportSection emptyMemoryExport.bytes = .ok [⟨[0x6d], 2, 0⟩] := by
      decide +kernel
    rw [hnative.exports, hmemory, exportsObject, hrecords]
    rfl
  refine ⟨native, p, hnative, utf8Decode_encodeUtf8, by decide +kernel, ⟨['m'], by decide⟩, hscan,
    hexports, ?_⟩
  rintro ⟨descriptors, hdescriptors, hdescribes⟩
  cases hscan.symm.trans hdescriptors
  rcases hdescribes.present _ List.mem_cons_self with ⟨record, -, -, value, -, hvalue⟩
  cases hexports.symm.trans hvalue

end WebAssemblyRuntime.Binding
