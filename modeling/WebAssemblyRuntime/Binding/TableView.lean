import WebAssemblyRuntime.Binding.Instantiate
import WebAssemblyRuntime.Binding.ScanAgreement
import WebAssemblyRuntime.Polyfill.ModuleFormat
import WebAssemblyRuntime.Wasm3.Elements

/-!
# TableView — the exported table against the table the module declares

The interpreter skips the table section and keeps only as many slots as the element segments reach;
the length comes from the binding's own scan.  Together they are the declared table.
-/

open WebAssemblyRuntime.Polyfill WebAssemblyRuntime.Reasoning WebAssemblyRuntime.Wasm3

namespace WebAssemblyRuntime.Binding

/-! ## The view -/

/-- The number is this index. -/
def JsNumber.IsIndex (d : JsNumber) (i : Nat) : Prop := d = finite i ∨ d = negZero ∧ i = 0

/-- A table of `n` slots filled by these writes, and read only where there is something. -/
structure TableView (native : NativeInstance) (n : Nat) (writes : List (Nat × Nat)) : Prop where
  length : tableLength native = n
  outOfBounds : ∀ d, (∃ message, tableGet native (.number d) = .error (.rangeError message)) ↔
    ¬ ∃ i < n, d.IsIndex i
  null : ∀ d, ∀ i < n, d.IsIndex i →
    (tableGet native (.number d) = .ok none ↔ ∀ w ∈ writes, w.1 ≠ i)
  callable : ∀ d, ∀ i < n, d.IsIndex i → ∀ before fn after,
    writes = before ++ (i, fn) :: after → (∀ w ∈ after, w.1 ≠ i) →
      tableGet native (.number d) = .ok (some fn) ∧ fn < native.inst.module.functions.length
  read : ∀ d i, tableRead native d = some i → i < native.inst.module.table0.length ∧
    tableGet native (.number d) = .ok (slotOf native.inst.module.table0 i)

/-! ## The length -/

/-- The scan of a table section finds the minimum of its table. -/
theorem scanTableLimits_encode {tables : Counted TableType} {table : TableType}
    (hone : tables.items = [table]) :
    scanTableLimits (tables.encode TableType.encode) =
      .ok (UInt32.ofNat table.limits.min.value) := by
  obtain ⟨items, count⟩ := tables
  cases hone
  have hlimits : ∃ flags rest, table.limits.encode = flags :: (table.limits.min.encode ++ rest) := by
    unfold WasmLimits.encode
    cases table.limits.max with
    | none => exact ⟨0, [], by rw [List.append_nil]⟩
    | some max => exact ⟨1, max.encode, rfl⟩
  obtain ⟨flags, rest, hlimits⟩ := hlimits
  -- the element type and the flags are stepped over
  have hbytes : List.flatMap TableType.encode [table] =
      table.elemType :: flags :: (table.limits.min.encode ++ rest) := by
    rw [List.flatMap_cons, List.flatMap_nil, List.append_nil, TableType.encode, hlimits]
  have hcount := readLebU32_decodes count (table.elemType :: flags :: (table.limits.min.encode ++ rest))
  have hmin := readLebU32_decodes table.limits.min.leb rest
  unfold scanTableLimits Counted.encode
  rw [hbytes, hcount]
  show Except.bind (readLebU32 (table.limits.min.leb.bytes ++ rest)) _ = _
  rw [hmin]
  rfl

theorem scanDeclaredTableSize_eq {moduleBytes : Bytes} {m : M3Module} {tables : Counted TableType}
    {table : TableType} (h : m3ParseModule moduleBytes = .ok m) (hone : tables.items = [table])
    (hsection : sectionWith 4 moduleBytes = some (tables.encode TableType.encode)) :
    (scanDeclaredTableSize moduleBytes).toNat = table.limits.min.value := by
  obtain ⟨hlength, sections, hparsed⟩ := m3ParseModule_ok h
  have hscan : scanForSection 4 (moduleBytes.drop 8) = .ok (sectionWith 4 moduleBytes) := by
    rw [scanForSection_parsed 4 hparsed, ← sectionsOf_parsed hparsed]
    rfl
  unfold scanDeclaredTableSize afterHeader
  rw [if_neg (Nat.not_lt_of_le hlength)]
  simp only [hscan, hsection, scanTableLimits_encode hone, bind, Except.bind]
  rw [UInt32.toNat_ofNat', Nat.mod_eq_of_lt table.limits.min.leb.lt]

/-! ## The slots -/

variable {host : Host} {bufferSource : ArrayBuffer} {importObject : ImportObject}
  {options : InstantiateOptions} {native : NativeInstance} {p : Prepared}

/-- The table of an instance is what its element segments have made of an empty one. -/
theorem instantiates_table (h : Instantiates host bufferSource importObject options native p) :
    ∃ segments, elementSegments host.engine bufferSource.bytes = .ok segments ∧
      (∀ size, (∀ segment ∈ segments, segment.endElement ≤ size) →
        native.inst.module.table0.length ≤ size) ∧
      slotOf native.inst.module.table0 =
        filled (fun _ => none) (segments.flatMap ElementSegment.writes) := by
  obtain ⟨parsed, m, rt, linked, hsteps⟩ := prepare_steps h.prepared
  obtain ⟨rt₁, -, hload⟩ := bind_ok hsteps.load
  obtain ⟨m₁, hglobals, hload⟩ := bind_ok hload
  obtain ⟨rt₂, -, hload⟩ := bind_ok hload
  obtain ⟨m₂, helements, hload⟩ := bind_ok hload
  cases hload
  have htable : native.inst.module.table0 = m.table0 := by
    rw [h.module, (m3CompileModule_ok hsteps.compile).frame]
  have hempty : m₁.table0 = [] := by
    obtain ⟨globals, hframe, -⟩ := initGlobals_ok hglobals
    have hparsed := parsedModule_table0 hsteps.parse
    rw [hframe]
    exact hparsed
  obtain ⟨segments, hsegments, hsize, hslots⟩ := initElements_run hempty helements
  refine ⟨segments, ?_, ?_, ?_⟩
  · simp only [elementSegments, hsteps.parse, hglobals, hsegments, bind, Except.bind]
  · rw [htable]
    exact hsize
  · rw [htable]
    exact hslots

/-! ## Table.get on a number -/

theorem eq_floor_toNat {q : ℚ} (h : ¬ (q < 0 ∨ q ≠ ⌊q⌋)) : q = (⌊q⌋.toNat : ℕ) := by
  rw [not_or, not_lt, not_not] at h
  have hfloor : 0 ≤ ⌊q⌋ := Int.floor_nonneg.mpr h.1
  rw [← Int.cast_natCast, Int.toNat_of_nonneg hfloor]
  exact h.2

/-- What `get` checks of a finite number. -/
theorem outOfBounds_iff {q : ℚ} {n : Nat} :
    (q < 0 ∨ q ≠ ⌊q⌋ ∨ (n : ℚ) ≤ q) ↔ ¬ ∃ i < n, q = (i : ℕ) := by
  constructor
  · rintro h ⟨i, hi, rfl⟩
    obtain hneg | hfraction | hlarge := h
    · exact absurd hneg (not_lt.mpr (Nat.cast_nonneg i))
    · exact hfraction (by rw [Int.floor_natCast, Int.cast_natCast])
    · exact absurd (Nat.cast_le.mp hlarge) (Nat.not_le.mpr hi)
  · intro h
    by_contra hin
    rw [← or_assoc, not_or, not_le] at hin
    have hq := eq_floor_toNat hin.1
    refine h ⟨⌊q⌋.toNat, ?_, hq⟩
    rw [hq] at hin
    exact Nat.cast_lt.mp hin.2

theorem tableIndex_eq {d : JsNumber} {i : Nat} (hd : d.IsIndex i) (hi : i < tableLength native) :
    tableIndex native d = some (i : ℚ) := by
  have hin : ¬ ((i : ℚ) < 0 ∨ (i : ℚ) ≠ ⌊(i : ℚ)⌋ ∨ (tableLength native : ℚ) ≤ (i : ℚ)) :=
    fun hout => outOfBounds_iff.mp hout ⟨i, hi, rfl⟩
  obtain rfl | ⟨rfl, rfl⟩ := hd
  · exact if_neg hin
  · exact if_neg hin

theorem tableIndex_some {d : JsNumber} {q : ℚ} (h : tableIndex native d = some q) :
    ∃ i < tableLength native, q = (i : ℕ) ∧ d.IsIndex i := by
  have hchecked : ∀ q' : ℚ, (if q' < 0 ∨ q' ≠ ⌊q'⌋ ∨ (tableLength native : ℚ) ≤ q' then none
      else some q') = some q → q' = q ∧ ∃ i < tableLength native, q = (i : ℕ) := by
    intro q' hq
    by_cases hout : q' < 0 ∨ q' ≠ ⌊q'⌋ ∨ (tableLength native : ℚ) ≤ q'
    · rw [if_pos hout] at hq
      cases hq
    · rw [if_neg hout, Option.some.injEq] at hq
      subst hq
      exact ⟨rfl, not_not.mp fun hnone => hout (outOfBounds_iff.mpr hnone)⟩
  cases d with
  | nan | posInf | negInf => cases h
  | negZero =>
    obtain ⟨hzero, i, hi, hq⟩ := hchecked 0 h
    exact ⟨i, hi, hq, .inr ⟨rfl, Nat.cast_eq_zero.mp (hq.symm.trans hzero.symm)⟩⟩
  | finite q' =>
    obtain ⟨rfl, i, hi, hq⟩ := hchecked q' h
    exact ⟨i, hi, hq, .inl (congrArg JsNumber.finite hq)⟩

theorem tableGet_index {d : JsNumber} {i : Nat} (hd : d.IsIndex i) (hi : i < tableLength native) :
    tableGet native (.number d) = .ok (slotOf native.inst.module.table0 i) := by
  have hindex := tableIndex_eq hd hi
  have hread : (tableRead native d).bind (fun i => native.inst.module.table0[i]?.join) =
      slotOf native.inst.module.table0 i := by
    rw [tableRead, hindex, Option.bind_some]
    by_cases hbeyond : (native.inst.module.table0.length : ℚ) ≤ (i : ℚ)
    · rw [if_pos hbeyond, slotOf, List.getElem?_eq_none (Nat.cast_le.mp hbeyond)]
      rfl
    · rw [if_neg hbeyond, Int.floor_natCast, Int.toNat_natCast]
      rfl
  have hsome : ¬ (tableIndex native d).isNone := by
    rw [hindex]
    exact Bool.false_ne_true
  exact (if_neg hsome).trans (congrArg Except.ok hread)

theorem tableGet_outside {d : JsNumber} (h : ¬ ∃ i < tableLength native, d.IsIndex i) :
    ∃ message, tableGet native (.number d) = .error (.rangeError message) := by
  have hnone : tableIndex native d = none := by
    cases hindex : tableIndex native d with
    | none => rfl
    | some q =>
      obtain ⟨i, hi, -, hd⟩ := tableIndex_some hindex
      exact absurd ⟨i, hi, hd⟩ h
  exact ⟨_, if_pos (by rw [hnone]; rfl)⟩

/-- `table0` is read at an index below the length, and below its own. -/
theorem tableRead_some {d : JsNumber} {i : Nat} (h : tableRead native d = some i) :
    i < native.inst.module.table0.length ∧ d.IsIndex i := by
  obtain ⟨q, hindex, hread⟩ := Option.bind_eq_some_iff.mp h
  obtain ⟨j, -, rfl, hd⟩ := tableIndex_some hindex
  by_cases hbeyond : (native.inst.module.table0.length : ℚ) ≤ (j : ℚ)
  · rw [if_pos hbeyond] at hread
    cases hread
  · rw [if_neg hbeyond, Int.floor_natCast, Int.toNat_natCast, Option.some.injEq] at hread
    subst hread
    exact ⟨Nat.cast_lt.mp (not_le.mp hbeyond), hd⟩

/-! ## The view of an instance -/

theorem slotOf_inRange {m : M3Module} (h : TableInRange m) {i fn : Nat}
    (hslot : slotOf m.table0 i = some fn) : fn < m.functions.length := by
  apply h
  rw [slotOf, Option.join_eq_some_iff] at hslot
  exact List.mem_of_getElem? hslot

theorem tableView_of_slots {n : Nat} {writes : List (Nat × Nat)} (hlength : tableLength native = n)
    (hslots : slotOf native.inst.module.table0 = filled (fun _ => none) writes)
    (hrange : TableInRange native.inst.module) : TableView native n writes := by
  subst hlength
  refine ⟨rfl, ?_, ?_, ?_, ?_⟩
  · intro d
    constructor
    · rintro ⟨message, herror⟩ ⟨i, hi, hd⟩
      rw [tableGet_index hd hi] at herror
      cases herror
    · exact tableGet_outside
  · intro d i hi hd
    rw [tableGet_index hd hi, hslots, Except.ok.injEq]
    exact filled_eq_none
  · intro d i hi hd before fn after hwrites hafter
    have hslot : slotOf native.inst.module.table0 i = some fn := by
      rw [hslots, hwrites]
      exact filled_last hafter
    rw [tableGet_index hd hi, hslot]
    exact ⟨rfl, slotOf_inRange hrange hslot⟩
  · intro d i hread
    obtain ⟨hi, hd⟩ := tableRead_some hread
    exact ⟨hi, tableGet_index hd (Nat.lt_of_lt_of_le hi (Nat.le_max_right _ _))⟩

theorem tableView (h : Instantiates host bufferSource importObject options native p)
    {tables : Counted TableType} {table : TableType} (hone : tables.items = [table])
    (hsection : sectionWith 4 bufferSource.bytes = some (tables.encode TableType.encode)) :
    ∃ segments, elementSegments host.engine bufferSource.bytes = .ok segments ∧
      ((∀ segment ∈ segments, segment.endElement ≤ table.limits.min.value) →
        TableView native table.limits.min.value (segments.flatMap ElementSegment.writes)) := by
  obtain ⟨segments, hsegments, hsize, hslots⟩ := instantiates_table h
  obtain ⟨parsed, hparse, hp⟩ := prepare_ok h.prepared
  obtain ⟨_, m, rt, linked, hsteps⟩ := prepare_steps h.prepared
  have hdeclared : native.declaredTableSize.toNat = table.limits.min.value := by
    rw [h.declaredTableSize, hsteps.declaredTableSize]
    exact scanDeclaredTableSize_eq hparse hone hsection
  have hrange : TableInRange native.inst.module := by
    rw [h.module]
    exact hp.table
  refine ⟨segments, hsegments, ?_⟩
  intro hwithin
  have hlength : tableLength native = table.limits.min.value := by
    rw [tableLength, hdeclared]
    exact Nat.max_eq_left (hsize _ hwithin)
  exact tableView_of_slots hlength hslots hrange

/-- Functions 0 and 1 in a table of three slots, and then function 0 over function 1. -/
def overwrittenSlot : ArrayBuffer where
  bytes := wasmHeader ++ [1, 4, 1, 0x60, 0, 0] ++ [3, 3, 2, 0, 0] ++ [4, 4, 1, 0x70, 0, 3] ++
    [9, 14, 2, 0, 0x41, 0, 0x0b, 2, 0, 1, 0, 0x41, 1, 0x0b, 1, 0] ++
    [10, 7, 2, 2, 0, 0x0b, 2, 0, 0x0b]
  length_le := by decide

def oneTableOfThree : Counted TableType where
  items := [⟨0x70, ⟨⟨3, .single (by decide)⟩, none⟩⟩]
  count := .single (by decide)

theorem tableView_overwritten : ∃ native p,
    Instantiates constantHost overwrittenSlot .empty {} native p ∧
      TableView native 3 [(0, 0), (1, 1), (1, 0)] := by
  obtain ⟨native, p, hnative⟩ := instantiates_withoutImports overwrittenSlot (by decide +kernel)
  have hsection : sectionWith 4 overwrittenSlot.bytes = some (oneTableOfThree.encode TableType.encode) := by
    decide +kernel
  obtain ⟨segments, hsegments, hview⟩ := tableView hnative rfl hsection
  have hread : elementSegments constantEngine overwrittenSlot.bytes = .ok [⟨0, [0, 1]⟩, ⟨1, [0]⟩] := by
    decide +kernel
  cases hread.symm.trans hsegments
  exact ⟨native, p, hnative, hview (by decide)⟩

end WebAssemblyRuntime.Binding
