import WebAssemblyRuntime.Binding.LebAgreement
import WebAssemblyRuntime.Wasm3.ParsedModule

/-!
# ScanAgreement — the parser and the two scanners walk the same sections

On bytes the parser accepts, the scanner of the binding and the one of the polyfill find the same
sections, and the same entries in their export sections.
-/

open WebAssemblyRuntime.Polyfill WebAssemblyRuntime.Reasoning WebAssemblyRuntime.Wasm3

namespace WebAssemblyRuntime.Binding

variable {e : Nat} {m m' : M3Module} {pos : Bytes} {sections : List (UInt8 × Bytes)}

theorem scanForSection_parsed (wanted : UInt8) (h : ParsedSections e m pos sections m') :
    scanForSection wanted pos = .ok ((sections.find? (·.1 = wanted)).map Prod.snd) := by
  induction h with
  | nil => rw [scanForSection]; rfl
  | @cons _ _ _ _ _ id pos rest n sections _ hsize hroom _ _ ih =>
    have hread : readLebU32 pos = .ok (n, rest) := ok_of_toOption (readLebU32_eq pos) hsize
    rw [scanForSection]
    -- the scanner reads the same size as the parser, so its error branch is not taken
    split
    · rename_i herror
      cases hread.symm.trans herror
    · rename_i hok
      cases hread.symm.trans hok
      rw [if_neg (Nat.not_lt_of_le hroom), List.find?_cons]
      by_cases hid : id = wanted
      · rw [if_neg (not_not.mpr hid), decide_eq_true hid]
        rfl
      · rw [if_pos hid, decide_eq_false hid, ih]

/-- A visitor of the polyfill that looks for one section and stops there. -/
structure Seeks {σ : Type} (wanted : UInt8)
    (visit : UInt8 → ByteReader → UInt32 → σ → Except CompileError (Bool × σ))
    (read : ByteReader → σ → Except CompileError σ) : Prop where
  passes : ∀ id ≠ wanted, ∀ reader size s, visit id reader size s = .ok (true, s)
  stops : ∀ reader size s, visit wanted reader size s = (read reader s).map (false, ·)

/-- A visitor that reads a counted list in its section. -/
theorem seeks_counted {α : Type} {wanted : UInt8}
    {visit : UInt8 → ByteReader → UInt32 → List α → Except CompileError (Bool × List α)}
    {entry : Nat → List α × ByteReader → Except CompileError (List α × ByteReader)}
    (hvisit : ∀ id reader size result, visit id reader size result =
      if id ≠ wanted then .ok (true, result)
      else do
        let (count, reader) ← ByteReader.leb reader
        let (result, _) ← loop entry count.toNat 0 (result, reader)
        .ok (false, result)) :
    Seeks wanted visit (fun reader result => do
      let (count, reader) ← ByteReader.leb reader
      let (result, _) ← loop entry count.toNat 0 (result, reader)
      .ok result) := by
  constructor
  · intro id hid reader size s
    rw [hvisit, if_pos hid]
  · intro reader size s
    rw [hvisit, if_neg (not_not.mpr rfl)]
    cases ByteReader.leb reader with
    | error e => rfl
    | ok read =>
      show ((loop entry read.1.toNat 0 (s, read.2)).bind _ : Except _ _) =
        ((loop entry read.1.toNat 0 (s, read.2)).bind _ : Except _ _).map _
      cases loop entry read.1.toNat 0 (s, read.2) with
      | error e => rfl
      | ok result => rfl

theorem walkSections_parsed {σ : Type} {wanted : UInt8}
    {visit : UInt8 → ByteReader → UInt32 → σ → Except CompileError (Bool × σ)}
    {read : ByteReader → σ → Except CompileError σ} (hvisit : Seeks wanted visit read)
    (h : ParsedSections e m pos sections m') (s : σ) :
    walkSectionsFrom visit pos s =
      match (sections.find? (·.1 = wanted)).map Prod.snd with
      | none => .ok s
      | some reader => read reader s := by
  induction h with
  | nil => rw [walkSectionsFrom]; rfl
  | @cons _ _ _ _ _ id pos rest n sections _ hsize hroom _ _ ih =>
    have hread : ByteReader.leb pos = .ok (n, rest) := ok_of_toOption (leb_eq pos) hsize
    rw [walkSectionsFrom]
    split
    · rename_i herror
      cases hread.symm.trans herror
    · rename_i hok
      cases hread.symm.trans hok
      rw [List.find?_cons]
      -- the visitor stops at the wanted section and passes the others
      by_cases hid : id = wanted
      · subst hid
        rw [decide_eq_true rfl, hvisit.stops]
        show _ = read (rest.take n.toNat) s
        cases read (rest.take n.toNat) s with
        | error e => rfl
        | ok s' => rfl
      · rw [decide_eq_false hid, hvisit.passes id hid]
        simp only
        rw [if_neg (Nat.not_lt_of_le hroom)]
        exact ih

/-! ## Export sections -/

/-- One entry of an export section, as the parser reads it. -/
def exportEntry (_ : Nat) (s : List ExportRecord × Bytes) :
    Except M3Err (List ExportRecord × Bytes) := do
  let ((name, kind, index), bytes) ← readExport s.2
  .ok (s.1 ++ [{ name, kind, index }], bytes)

def exportEntries (bytes : Bytes) : Except M3Err (List ExportRecord) := do
  let (numExports, bytes) ← readLEBu32 bytes
  let (exports, _) ← loop exportEntry numExports.toNat 0 ([], bytes)
  .ok exports

/-- The exports of a module: the entries of its export section. -/
def moduleExports (moduleBytes : Bytes) : List ExportRecord :=
  match sectionWith 7 moduleBytes with
  | none => []
  | some bytes => (exportEntries bytes).toOption.getD []

/-- The descriptor of a record, if its kind is known. -/
def descriptorOf (record : ExportRecord) : Option ModuleExportDescriptor :=
  (kinds record.kind).map (⟨utf8Decode record.name, ·⟩)

/-- The part of `visitExports` that reads the section. -/
def readDescriptors (reader : ByteReader) (result : List ModuleExportDescriptor) :
    Except CompileError (List ModuleExportDescriptor) := do
  let (count, reader) ← ByteReader.leb reader
  let (result, _) ← loop scanExport count.toNat 0 (result, reader)
  .ok result

theorem visitExports_seeks : Seeks 7 visitExports readDescriptors :=
  seeks_counted fun _ _ _ _ => rfl

variable {bytes rest : Bytes}

theorem readExport_ok {name : CString} {kind : UInt8} {index : UInt32}
    (h : readExport bytes = .ok ((name, kind, index), rest)) :
    ∃ n payload after, readLEBu32 bytes = .ok (n, payload) ∧ n.toNat ≤ payload.length ∧
      name = payload.take n.toNat ∧ payload.drop n.toNat = kind :: after ∧
      readLEBu32 after = .ok (index, rest) := by
  rcases bind_ok h with ⟨⟨utf8, bytes₁⟩, hname, h⟩
  rcases bind_ok h with ⟨⟨exportKind, bytes₂⟩, hkind, h⟩
  rcases bind_ok h with ⟨⟨i, bytes₃⟩, hindex, h⟩
  cases h
  rcases readUtf8_ok hname with ⟨n, payload, hlength, hroom, rfl, rfl⟩
  refine ⟨n, payload, bytes₂, hlength, hroom, rfl, ?_, hindex⟩
  -- the kind is the byte after the name
  cases hdrop : payload.drop n.toNat with
  | nil =>
    rw [hdrop] at hkind
    cases hkind
  | cons byte bytes =>
    rw [hdrop] at hkind
    cases hkind
    rfl

/-- Both scanners step over an entry the parser has read, and report it. -/
theorem scanExportRecord_entry {i : Nat} {s t : List ExportRecord × Bytes}
    (h : exportEntry i s = .ok t) : scanExportRecord i s = .ok t := by
  rcases bind_ok h with ⟨⟨⟨name, kind, index⟩, rest⟩, hread, h⟩
  cases h
  rcases readExport_ok hread with ⟨n, payload, after, hlength, hroom, rfl, hdrop, hindex⟩
  unfold scanExportRecord
  rw [ok_of_toOption (readLebU32_eq s.2) hlength]
  show (if payload.length < n.toNat then _ else _) = _
  rw [if_neg (Nat.not_lt_of_le hroom)]
  simp only [hdrop, ok_of_toOption (readLebU32_eq after) hindex]
  rfl

theorem name_eq {n : UInt32} {payload : Bytes} (hlength : readLEBu32 bytes = .ok (n, payload))
    (hroom : n.toNat ≤ payload.length) :
    ByteReader.name bytes = .ok (utf8Decode (payload.take n.toNat), payload.drop n.toNat) := by
  unfold ByteReader.name ByteReader.bytes
  rw [ok_of_toOption (leb_eq bytes) hlength]
  show Except.bind (if payload.length < n.toNat then _ else _) _ = _
  rw [if_neg (Nat.not_lt_of_le hroom)]
  rfl

theorem scanExport_entry {i : Nat} {records : List ExportRecord}
    {t : List ExportRecord × Bytes} (h : exportEntry i (records, bytes) = .ok t)
    (result : List ModuleExportDescriptor) :
    ∃ record, t.1 = records ++ [record] ∧
      scanExport i (result, bytes) = .ok (result ++ (descriptorOf record).toList, t.2) := by
  rcases bind_ok h with ⟨⟨⟨name, kind, index⟩, rest⟩, hread, h⟩
  cases h
  rcases readExport_ok hread with ⟨n, payload, after, hlength, hroom, rfl, hdrop, hindex⟩
  refine ⟨_, rfl, ?_⟩
  unfold scanExport
  rw [name_eq hlength hroom]
  show Except.bind (ByteReader.u8 (payload.drop n.toNat)) _ = _
  rw [hdrop]
  show Except.bind (ByteReader.leb after) _ = _
  rw [ok_of_toOption (leb_eq after) hindex]
  rfl

/-- The contents of an export section as `scanExportSection` reads them. -/
def scanExportRecords (p : List UInt8) : Except Unit (List ExportRecord) := do
  let (count, p) ← readLebU32 p
  let (exports, _) ← loop scanExportRecord count.toNat 0 ([], p)
  .ok exports

theorem scanExportRecords_eq {records : List ExportRecord} (h : exportEntries bytes = .ok records) :
    scanExportRecords bytes = .ok records := by
  rcases bind_ok h with ⟨⟨count, payload⟩, hcount, h⟩
  rcases bind_ok h with ⟨⟨records', rest⟩, hloop, h⟩
  cases h
  have hstep (i : Nat) (s t s' : List ExportRecord × Bytes) (hs : s = s')
      (h : exportEntry i s = .ok t) : ∃ t', scanExportRecord i s' = .ok t' ∧ t = t' :=
    ⟨t, hs ▸ scanExportRecord_entry h, rfl⟩
  rcases loop_simulates hstep rfl hloop with ⟨t, hscan, rfl⟩
  unfold scanExportRecords
  rw [ok_of_toOption (readLebU32_eq bytes) hcount]
  show Except.bind (loop scanExportRecord count.toNat 0 ([], payload)) _ = _
  rw [hscan]
  rfl

theorem readDescriptors_eq {records : List ExportRecord} (h : exportEntries bytes = .ok records)
    (result : List ModuleExportDescriptor) :
    readDescriptors bytes result = .ok (result ++ records.filterMap descriptorOf) := by
  rcases bind_ok h with ⟨⟨count, payload⟩, hcount, h⟩
  rcases bind_ok h with ⟨⟨records', rest⟩, hloop, h⟩
  cases h
  have hstep (i : Nat) (s t : List ExportRecord × Bytes)
      (s' : List ModuleExportDescriptor × ByteReader)
      (hs : s' = (result ++ s.1.filterMap descriptorOf, s.2)) (h : exportEntry i s = .ok t) :
      ∃ t', scanExport i s' = .ok t' ∧ t' = (result ++ t.1.filterMap descriptorOf, t.2) := by
    rcases scanExport_entry h s'.1 with ⟨record, ht, hscan⟩
    rw [hs] at hscan
    refine ⟨_, by rw [hs]; exact hscan, ?_⟩
    rw [ht, List.filterMap_append, List.append_assoc]
    -- an entry of an unknown kind adds nothing on either side
    cases hrecord : descriptorOf record with
    | none => rw [List.filterMap_cons_none hrecord]; rfl
    | some d => rw [List.filterMap_cons_some hrecord]; rfl
  have hstart : (result, payload) =
      (result ++ ([] : List ExportRecord).filterMap descriptorOf, payload) := by
    rw [List.filterMap_nil, List.append_nil]
  rcases loop_simulates hstep hstart hloop with ⟨t', hscan, rfl⟩
  unfold readDescriptors
  rw [ok_of_toOption (leb_eq bytes) hcount]
  show Except.bind (loop scanExport count.toNat 0 (result, payload)) _ = _
  rw [hscan]
  rfl

/-- What parsing an export section has checked of the entries it read. -/
def ExportsChecked (m : M3Module) (records : List ExportRecord) : Prop :=
  ∀ record ∈ records,
    (record.kind = d_externalKind_function → record.index.toNat < m.functions.length) ∧
    (record.kind = d_externalKind_global → record.index.toNat < m.globals.length)

theorem ExportsChecked.mono {records : List ExportRecord} (h : ExportsChecked m records)
    (hfunctions : m.functions.length ≤ m'.functions.length)
    (hglobals : m.globals.length ≤ m'.globals.length) : ExportsChecked m' records := by
  intro record hmem
  constructor
  · intro hkind
    exact Nat.lt_of_lt_of_le ((h record hmem).1 hkind) hfunctions
  · intro hkind
    exact Nat.lt_of_lt_of_le ((h record hmem).2 hkind) hglobals

/-- Parsing an export section of `m` and reading its entries, at the same place. -/
structure EntriesRead (m : M3Module) (s : M3Module × Bytes) (t : List ExportRecord × Bytes) :
    Prop where
  bytes : s.2 = t.2
  relabelled : Relabelled m s.1
  checked : ExportsChecked m t.1

theorem entriesRead_step {i : Nat} {s t : M3Module × Bytes} {s' : List ExportRecord × Bytes}
    (h : EntriesRead m s s') (hstep : parseExport i s = .ok t) :
    ∃ t', exportEntry i s' = .ok t' ∧ EntriesRead m t t' := by
  rcases s with ⟨s, bytes⟩
  rcases t with ⟨t, rest⟩
  rcases s' with ⟨records, bytes'⟩
  rcases h with ⟨rfl, hlabel, hchecked⟩
  rcases parseExport_ok hstep with ⟨hstep, ⟨name, kind, index⟩, hread, hfunction, hglobal⟩
  rw [length_of_linkage hlabel.linkage] at hfunction
  rw [hlabel.globals] at hglobal
  refine ⟨(records ++ [⟨name, kind, index⟩], rest), ?_, rfl, hlabel.trans hstep, ?_⟩
  · unfold exportEntry
    rw [hread]
    rfl
  · intro record hmem
    rcases List.mem_append.mp hmem with hmem | hmem
    · exact hchecked record hmem
    · rw [List.mem_singleton.mp hmem]
      exact ⟨hfunction, hglobal⟩

theorem exportEntries_parsed (h : parseSectionExport m bytes = .ok m') :
    ∃ records, exportEntries bytes = .ok records ∧ ExportsChecked m records := by
  rcases bind_ok h with ⟨⟨numExports, payload⟩, hcount, h⟩
  rcases bind_ok h with ⟨-, -, h⟩
  rcases bind_ok h with ⟨⟨parsed, rest⟩, hloop, h⟩
  -- parsing and reading go over the same bytes in step
  have hstart : EntriesRead m (m, payload) ([], payload) :=
    ⟨rfl, .refl m, fun _ h => absurd h List.not_mem_nil⟩
  have hstep (i : Nat) (s t : M3Module × Bytes) (s' : List ExportRecord × Bytes)
      (h : EntriesRead m s s') (hparse : parseExport i s = .ok t) :
      ∃ t', exportEntry i s' = .ok t' ∧ EntriesRead m t t' := entriesRead_step h hparse
  rcases loop_simulates hstep hstart hloop with ⟨⟨records, rest'⟩, hread, hend⟩
  refine ⟨records, ?_, hend.checked⟩
  unfold exportEntries
  rw [hcount]
  show Except.bind (loop exportEntry numExports.toNat 0 ([], payload)) _ = _
  rw [hread]
  rfl

/-! ## Whole modules -/

variable {moduleBytes : Bytes}

theorem moduleExports_parsed (h : m3ParseModule moduleBytes = .ok m') :
    ExportsChecked m' (moduleExports moduleBytes) ∧
      ∀ bytes, sectionWith 7 moduleBytes = some bytes →
        exportEntries bytes = .ok (moduleExports moduleBytes) := by
  rcases m3ParseModule_ok h with ⟨-, sections, hparsed⟩
  unfold moduleExports
  cases hfound : sectionWith 7 moduleBytes with
  | none => exact ⟨fun _ h => absurd h List.not_mem_nil, fun _ h => nomatch h⟩
  | some bytes =>
    rw [sectionWith, sectionsOf_parsed hparsed] at hfound
    rcases found_parsed hparsed hfound with ⟨m₁, m₂, e₂, pos₂, rest, hsection, hrest⟩
    rcases exportEntries_parsed hsection with ⟨records, hread, hchecked⟩
    have hstep := parseModuleSection_step hsection
    have hlengths := parsed_lengths hrest
    have hrecords : (exportEntries bytes).toOption.getD [] = records := by
      rw [hread]
      rfl
    simp only [hrecords]
    constructor
    · exact hchecked.mono (Nat.le_trans hstep.functions hlengths.1)
        (Nat.le_trans hstep.globals hlengths.2)
    · intro bytes' heq
      cases heq
      exact hread

/-- `scanExportSection` finds the exports the parser has read. -/
theorem scanExportSection_eq (h : m3ParseModule moduleBytes = .ok m') :
    scanExportSection moduleBytes = .ok (moduleExports moduleBytes) := by
  rcases m3ParseModule_ok h with ⟨hlength, sections, hparsed⟩
  have hread := (moduleExports_parsed h).2
  unfold scanExportSection afterHeader
  rw [if_neg (Nat.not_lt_of_le hlength)]
  show Except.bind (scanForSection 7 (moduleBytes.drop 8)) _ = _
  rw [scanForSection_parsed 7 hparsed, ← sectionsOf_parsed hparsed]
  show (match sectionWith 7 moduleBytes with
    | none => Except.ok []
    | some p => scanExportRecords p) = _
  cases hfound : sectionWith 7 moduleBytes with
  | none =>
    unfold moduleExports
    rw [hfound]
  | some bytes => exact scanExportRecords_eq (hread bytes hfound)

/-- `scanExports` gives their names and kinds. -/
theorem scanExports_eq (h : m3ParseModule moduleBytes = .ok m') :
    scanExports moduleBytes = .ok ((moduleExports moduleBytes).filterMap descriptorOf) := by
  rcases m3ParseModule_ok h with ⟨hlength, sections, hparsed⟩
  have hread := (moduleExports_parsed h).2
  unfold scanExports walkSections
  rw [if_neg (Nat.not_lt_of_le hlength), walkSections_parsed visitExports_seeks hparsed,
    ← sectionsOf_parsed hparsed]
  show (match sectionWith 7 moduleBytes with
    | none => Except.ok []
    | some reader => readDescriptors reader []) = _
  cases hfound : sectionWith 7 moduleBytes with
  | none =>
    unfold moduleExports
    rw [hfound]
    rfl
  | some bytes => exact readDescriptors_eq (hread bytes hfound) []

end WebAssemblyRuntime.Binding
