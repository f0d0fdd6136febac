import Mathlib.Data.List.GetD
import WebAssemblyRuntime.Wasm3.Parse

/-!
# Sections — what parsing each section leaves alone

A section either adds to one list of the module or rewrites a few fields of its functions; all that
later proofs need of a section is which.
-/

open WebAssemblyRuntime.Reasoning

namespace WebAssemblyRuntime.Wasm3

/-- The part of a function that decides whether it can be called. -/
def M3Function.linkage (f : M3Function) : Bool × Option (CString × CString) × Option M3Code :=
  (f.module, f.importNames, f.compiled)

/-- A function as parsing declares it, before it gets a body or an import. -/
def M3Function.Bare (f : M3Function) : Prop := f.module = false ∧ f.compiled = none

def M3Module.linkage (m : M3Module) : List (Bool × Option (CString × CString) × Option M3Code) :=
  m.functions.map M3Function.linkage

variable {m m' : M3Module} {bytes rest : Bytes}

/-- A change to an entry that keeps the projection of every entry keeps it of the list. -/
theorem map_modify {α β : Type} {xs : List α} {p : α → β} {g : α → α} (i : Nat)
    (h : ∀ x, p (g x) = p x) : (xs.modify i g).map p = xs.map p := by
  apply List.ext_getElem?
  intro j
  rw [List.getElem?_map, List.getElem?_map, List.getElem?_modify]
  cases xs[j]? with
  | none => rfl
  | some x =>
    show some (p (if i = j then g x else x)) = some (p x)
    by_cases hij : i = j
    · rw [if_pos hij, h]
    · rw [if_neg hij]

theorem addExportName_linkage (f : M3Function) (utf8 : CString) :
    (f.addExportName utf8).linkage = f.linkage := by
  unfold M3Function.addExportName
  by_cases hroom : f.names.length < d_m3MaxDuplicateFunctionImpl
  · rw [if_pos hroom]
    rfl
  · rw [if_neg hroom]

/-! ## One lemma for each section -/

/-- The shape of most sections: a count, a bound on it and a loop over the entries. -/
def sectionLoop (tooMany : M3Err) (bound : UInt32)
    (step : Nat → M3Module × Bytes → Except M3Err (M3Module × Bytes)) (m : M3Module)
    (bytes : Bytes) : Except M3Err M3Module := do
  let (count, bytes) ← readLEBu32 bytes
  throwIf tooMany (bound < count)
  let (m, _) ← loop step count.toNat 0 (m, bytes)
  .ok m

theorem sectionLoop_ok {P : M3Module → Prop} (tooMany : M3Err) (bound : UInt32)
    (step : Nat → M3Module × Bytes → Except M3Err (M3Module × Bytes)) (hstart : P m)
    (hstep : ∀ i s t, P s.1 → step i s = .ok t → P t.1)
    (h : sectionLoop tooMany bound step m bytes = .ok m') : P m' := by
  rcases bind_ok h with ⟨count, -, h⟩
  rcases bind_ok h with ⟨-, -, h⟩
  rcases bind_ok h with ⟨s, hloop, h⟩
  cases h
  exact loop_invariant (P := fun _ s => P s.1) hstep hstart hloop

theorem parseSectionType_ok (h : parseSectionType m bytes = .ok m') :
    ∃ funcTypes, m' = { m with funcTypes } := by
  apply sectionLoop_ok .tooManyTypes d_m3MaxSaneTypesCount parseFuncType ⟨_, rfl⟩ _ h
  rintro i s t ⟨funcTypes, hs⟩ hstep
  rcases bind_ok hstep with ⟨⟨form, bytes⟩, -, hstep⟩
  rcases bind_ok hstep with ⟨-, -, hstep⟩
  rcases bind_ok hstep with ⟨⟨numArgs, bytes⟩, -, hstep⟩
  rcases bind_ok hstep with ⟨-, -, hstep⟩
  rcases bind_ok hstep with ⟨⟨args, bytes⟩, -, hstep⟩
  rcases bind_ok hstep with ⟨⟨numRets, bytes⟩, -, hstep⟩
  rcases bind_ok hstep with ⟨-, -, hstep⟩
  rcases bind_ok hstep with ⟨⟨rets, bytes⟩, -, hstep⟩
  cases hstep
  rw [hs]
  exact ⟨_, rfl⟩

theorem moduleAddFunction_ok {typeIndex : UInt32} {importInfo : Option M3ImportInfo}
    (h : moduleAddFunction m typeIndex importInfo = .ok m') :
    ∃ f : M3Function, m' = { m with functions := m.functions ++ [f] } ∧ f.Bare ∧
      f.importInfo = importInfo.getD {} := by
  unfold moduleAddFunction at h
  split at h
  · cases h
  · cases h
    exact ⟨_, rfl, ⟨rfl, rfl⟩, rfl⟩

/-- What an import section adds. -/
structure Imported (m m' : M3Module) : Prop where
  functions : ∃ fs, m'.functions = m.functions ++ fs ∧
    m'.numFuncImports = m.numFuncImports + fs.length ∧ ∀ f ∈ fs, f.Bare ∧ f.importNames.isSome
  globals : ∃ gs, m'.globals = m.globals ++ gs
  memory : m'.memoryImported = false → m'.memoryInfo = m.memoryInfo ∧ m.memoryImported = false
  table0 : m'.table0 = m.table0

theorem Imported.refl (m : M3Module) : Imported m m :=
  ⟨⟨[], by simp⟩, ⟨[], by simp⟩, fun h => ⟨rfl, h⟩, rfl⟩

theorem Imported.trans {m₁ m₂ m₃ : M3Module} (h : Imported m₁ m₂) (h' : Imported m₂ m₃) :
    Imported m₁ m₃ := by
  rcases h.functions with ⟨fs, hfs, hcount, hbare⟩
  rcases h'.functions with ⟨fs', hfs', hcount', hbare'⟩
  rcases h.globals with ⟨gs, hgs⟩
  rcases h'.globals with ⟨gs', hgs'⟩
  constructor
  · refine ⟨fs ++ fs', ?_, ?_, ?_⟩
    · rw [hfs', hfs, List.append_assoc]
    · rw [hcount', hcount, List.length_append, Nat.add_assoc]
    · intro f hf
      exact (List.mem_append.mp hf).elim (hbare f) (hbare' f)
  · exact ⟨gs ++ gs', by rw [hgs', hgs, List.append_assoc]⟩
  · intro hmemory
    rcases h'.memory hmemory with ⟨hinfo', hflag⟩
    rcases h.memory hflag with ⟨hinfo, hflag'⟩
    exact ⟨hinfo'.trans hinfo, hflag'⟩
  · exact h'.table0.trans h.table0

theorem parseImportKind_ok {moduleUtf8 fieldUtf8 : CString} {importKind : UInt8}
    (h : parseImportKind m ⟨some moduleUtf8, some fieldUtf8⟩ importKind bytes = .ok (m', rest)) :
    Imported m m' := by
  unfold parseImportKind at h
  -- function, table, memory and global, in the order of the `switch`
  split at h
  · rcases bind_ok h with ⟨⟨typeIndex, bytes'⟩, -, h⟩
    rcases bind_ok h with ⟨m₁, hadd, h⟩
    rcases moduleAddFunction_ok hadd with ⟨f, rfl, hbare, hinfo⟩
    cases h
    refine ⟨⟨[f], rfl, rfl, ?_⟩, ⟨[], by simp⟩, fun h => ⟨rfl, h⟩, rfl⟩
    intro g hg
    rw [List.mem_singleton.mp hg, M3Function.importNames, hinfo]
    exact ⟨hbare, rfl⟩
  · split at h
    · cases h
      exact .refl m
    · split at h
      · split at h
        · cases h
        · cases h
          exact ⟨⟨[], by simp⟩, ⟨[], by simp⟩, fun h => (nomatch h), rfl⟩
      · split at h
        · rcases bind_ok h with ⟨⟨waType, bytes'⟩, -, h⟩
          rcases bind_ok h with ⟨type, -, h⟩
          rcases bind_ok h with ⟨⟨isMutable, bytes''⟩, -, h⟩
          cases h
          exact ⟨⟨[], by simp [moduleAddGlobal]⟩, ⟨[_], rfl⟩, fun h => ⟨rfl, h⟩, rfl⟩
        · cases h

theorem parseSectionImport_ok (h : parseSectionImport m bytes = .ok m') : Imported m m' := by
  apply sectionLoop_ok .tooManyImports d_m3MaxSaneImportsCount parseImport (.refl m) _ h
  intro i s t hs hstep
  rcases bind_ok hstep with ⟨⟨moduleUtf8, bytes⟩, -, hstep⟩
  rcases bind_ok hstep with ⟨⟨fieldUtf8, bytes⟩, -, hstep⟩
  rcases bind_ok hstep with ⟨⟨importKind, bytes⟩, -, hstep⟩
  exact hs.trans (parseImportKind_ok hstep)

theorem parseSectionFunction_ok (h : parseSectionFunction m bytes = .ok m') :
    ∃ fs, m' = { m with functions := m.functions ++ fs } ∧
      ∀ f ∈ fs, f.Bare ∧ f.importNames = none := by
  apply sectionLoop_ok .tooManyFunctions d_m3MaxSaneFunctionsCount parseFunction ⟨[], by simp⟩ _ h
  rintro i s t ⟨fs, hs, hbare⟩ hstep
  rcases bind_ok hstep with ⟨⟨funcTypeIndex, bytes⟩, -, hstep⟩
  rcases bind_ok hstep with ⟨m₁, hadd, hstep⟩
  rcases moduleAddFunction_ok hadd with ⟨f, hf, hnew, hinfo⟩
  cases hstep
  refine ⟨fs ++ [f], ?_, ?_⟩
  · rw [hf, hs, List.append_assoc]
  · intro g hg
    rcases List.mem_append.mp hg with hg | hg
    · exact hbare g hg
    · rw [List.mem_singleton.mp hg, M3Function.importNames, hinfo]
      exact ⟨hnew, rfl⟩

theorem parseSectionMemory_ok (h : parseSectionMemory m bytes = .ok m') :
    ∃ memoryInfo, m' = { m with memoryInfo } := by
  rcases bind_ok h with ⟨⟨numMemories, payload⟩, -, h⟩
  rcases bind_ok h with ⟨-, -, h⟩
  cases h
  exact ⟨_, rfl⟩

theorem parseSectionGlobal_ok (h : parseSectionGlobal m bytes = .ok m') :
    ∃ gs, m' = { m with globals := m.globals ++ gs } := by
  apply sectionLoop_ok .tooManyGlobals d_m3MaxSaneGlobalsCount parseGlobal ⟨[], by simp⟩ _ h
  rintro i s t ⟨gs, hs⟩ hstep
  rcases bind_ok hstep with ⟨⟨waType, bytes⟩, -, hstep⟩
  rcases bind_ok hstep with ⟨type, -, hstep⟩
  rcases bind_ok hstep with ⟨⟨isMutable, bytes⟩, -, hstep⟩
  rcases bind_ok hstep with ⟨⟨initExpr, bytes⟩, -, hstep⟩
  rcases bind_ok hstep with ⟨-, -, hstep⟩
  cases hstep
  rw [hs]
  exact ⟨gs ++ [_], by rw [moduleAddGlobal, List.append_assoc]⟩

/-- Exports and names only relabel functions and globals. -/
structure Relabelled (m m' : M3Module) : Prop where
  linkage : m'.linkage = m.linkage
  globals : m'.globals.length = m.globals.length
  frame : m' = { m with functions := m'.functions, globals := m'.globals }

theorem Relabelled.refl (m : M3Module) : Relabelled m m := ⟨rfl, rfl, rfl⟩

theorem Relabelled.trans {m₁ m₂ m₃ : M3Module} (h : Relabelled m₁ m₂) (h' : Relabelled m₂ m₃) :
    Relabelled m₁ m₃ := by
  constructor
  · exact h'.linkage.trans h.linkage
  · exact h'.globals.trans h.globals
  · rw [h'.frame, h.frame]

theorem parseExport_ok {i : Nat} (h : parseExport i (m, bytes) = .ok (m', rest)) :
    Relabelled m m' ∧ ∃ record, readExport bytes = .ok (record, rest) ∧
      (record.2.1 = d_externalKind_function → record.2.2.toNat < m.functions.length) ∧
      (record.2.1 = d_externalKind_global → record.2.2.toNat < m.globals.length) := by
  rcases bind_ok h with ⟨⟨⟨utf8, exportKind, index⟩, bytes'⟩, hread, h⟩
  -- only exports of functions and globals are kept, with their index checked
  by_cases hfunction : exportKind = d_externalKind_function
  · simp only [if_pos hfunction] at h
    rcases bind_ok h with ⟨_, hcond, h⟩
    have hindex := of_decide_eq_false (throwIf_ok hcond)
    cases h
    refine ⟨⟨map_modify _ fun f => addExportName_linkage f utf8, rfl, rfl⟩, _, hread, ?_, ?_⟩
    · intro _
      exact Nat.lt_of_not_le hindex
    · intro hglobal
      rw [hfunction] at hglobal
      cases hglobal
  · simp only [if_neg hfunction] at h
    by_cases hglobal : exportKind = d_externalKind_global
    · rw [if_pos hglobal] at h
      rcases bind_ok h with ⟨_, hcond, h⟩
      have hindex := of_decide_eq_false (throwIf_ok hcond)
      cases h
      refine ⟨⟨rfl, List.length_modify _ _ _, rfl⟩, _, hread, ?_, ?_⟩
      · intro h
        exact absurd h hfunction
      · intro _
        exact Nat.lt_of_not_le hindex
    · rw [if_neg hglobal] at h
      cases h
      exact ⟨.refl m, _, hread, fun h => absurd h hfunction, fun h => absurd h hglobal⟩

theorem parseSectionExport_ok (h : parseSectionExport m bytes = .ok m') : Relabelled m m' := by
  apply sectionLoop_ok .tooManyExports d_m3MaxSaneExportsCount parseExport (.refl m) _ h
  intro i s t hs hstep
  exact hs.trans (parseExport_ok hstep).1

theorem parseSectionStart_ok (h : parseSectionStart m bytes = .ok m') :
    ∃ startFunction, m' = { m with startFunction } := by
  rcases bind_ok h with ⟨⟨startFuncIndex, rest⟩, -, h⟩
  simp only at h
  split at h
  · cases h
    exact ⟨_, rfl⟩
  · cases h

theorem parseSectionElement_ok (h : parseSectionElement m bytes = .ok m') :
    ∃ elementSection numElementSegments, m' = { m with elementSection, numElementSegments } := by
  rcases bind_ok h with ⟨⟨numSegments, rest⟩, -, h⟩
  rcases bind_ok h with ⟨-, -, h⟩
  cases h
  exact ⟨_, _, rfl⟩

theorem parseSectionData_ok (h : parseSectionData m bytes = .ok m') :
    ∃ dataSegments, m' = { m with dataSegments } := by
  apply sectionLoop_ok .tooManyDataSegments d_m3MaxSaneDataSegments parseData ⟨_, rfl⟩ _ h
  rintro i s t ⟨dataSegments, hs⟩ hstep
  rcases bind_ok hstep with ⟨⟨memoryRegion, bytes⟩, -, hstep⟩
  rcases bind_ok hstep with ⟨⟨initExpr, bytes⟩, -, hstep⟩
  rcases bind_ok hstep with ⟨-, -, hstep⟩
  rcases bind_ok hstep with ⟨⟨size, bytes⟩, -, hstep⟩
  rcases bind_ok hstep with ⟨-, -, hstep⟩
  cases hstep
  rw [hs]
  exact ⟨_, rfl⟩

theorem parseNames_ok (h : parseNames m bytes = .ok m') : Relabelled m m' := by
  apply sectionLoop_ok .tooManyNames d_m3MaxSaneFunctionsCount parseName (.refl m) _ h
  intro i s t hs hstep
  rcases bind_ok hstep with ⟨⟨index, bytes⟩, -, hstep⟩
  rcases bind_ok hstep with ⟨⟨name, bytes⟩, -, hstep⟩
  cases hstep
  apply hs.trans
  refine ⟨map_modify _ fun f => ?_, rfl, rfl⟩
  by_cases hnames : f.names = []
  · rw [if_pos hnames]
    rfl
  · rw [if_neg hnames]

theorem parseSectionName_ok (h : parseSectionName m bytes = .ok m') : Relabelled m m' := by
  fun_induction parseSectionName m bytes with
  | case1 =>
    cases h
    exact .refl _
  | case2 | case3 | case4 => cases h
  | case5 m bytes hempty nameType bytes₁ hread payloadLength start hlength _ _ m₁ hnames ih =>
    have hrest := ih h
    refine Relabelled.trans ?_ hrest
    by_cases htype : nameType = 1
    · rw [dif_pos htype] at hnames
      exact parseNames_ok hnames
    · rw [dif_neg htype] at hnames
      cases hnames
      exact .refl _

theorem parseSectionCustom_ok (h : parseSectionCustom m bytes = .ok m') : Relabelled m m' := by
  rcases bind_ok h with ⟨⟨name, payload⟩, -, h⟩
  simp only at h
  split at h
  · exact parseSectionName_ok h
  · cases h
    exact .refl m

/-! ## The code section -/

/-- One entry of a code section: whether there is a body, and the bytes after it. -/
def codeEntry (_ : Nat) (s : List Bool × Bytes) : Except M3Err (List Bool × Bytes) := do
  let (size, bytes) ← readLEBu32 s.2
  .ok (s.1 ++ [decide (size ≠ 0)], bytes.drop size.toNat)

/-- Which entries of a code section have a body. -/
def codeEntries (bytes : Bytes) : Except M3Err (List Bool) := do
  let (numFunctions, bytes) ← readLEBu32 bytes
  let (entries, _) ← loop codeEntry numFunctions.toNat 0 ([], bytes)
  .ok entries

/-- Whether the code section has a body for function `i`. -/
def hasBody (numFuncImports : Nat) (entries : List Bool) (i : Nat) : Bool :=
  decide (numFuncImports ≤ i) && entries.getD (i - numFuncImports) false

/-- A function's linkage once its entry of the code section is read. -/
def bodyLinkage (numFuncImports : Nat) (entries : List Bool) (i : Nat) (f : M3Function) :
    Bool × Option (CString × CString) × Option M3Code :=
  (f.module || hasBody numFuncImports entries i, f.importNames, f.compiled)

theorem hasBody_append (numFuncImports : Nat) (entries : List Bool) (b : Bool) (i : Nat) :
    hasBody numFuncImports (entries ++ [b]) i =
      if i = entries.length + numFuncImports then b else hasBody numFuncImports entries i := by
  unfold hasBody
  -- the new entry is that of the function after the ones already read
  by_cases hi : i = entries.length + numFuncImports
  · rw [if_pos hi, hi, Nat.add_sub_cancel, List.getD_append_right _ _ _ _ (Nat.le_refl _),
      Nat.sub_self, decide_eq_true (Nat.le_add_left _ _)]
    rfl
  · rw [if_neg hi]
    by_cases hle : numFuncImports ≤ i
    · by_cases hlt : i - numFuncImports < entries.length
      · rw [List.getD_append _ _ _ _ hlt]
      · rw [List.getD_eq_default _ _ (by rw [List.length_append, List.length_singleton]; omega),
          List.getD_eq_default _ _ (by omega)]
    · rw [decide_eq_false hle, Bool.false_and, Bool.false_and]

/-- The entry after the ones read says nothing yet. -/
theorem hasBody_end (numFuncImports : Nat) (entries : List Bool) :
    hasBody numFuncImports entries (entries.length + numFuncImports) = false := by
  unfold hasBody
  rw [Nat.add_sub_cancel, List.getD_eq_default _ _ (Nat.le_refl _), Bool.and_false]

theorem bodyLinkage_empty (numFuncImports : Nat) (entries : List Bool) :
    bodyLinkage numFuncImports (entries ++ [false]) = bodyLinkage numFuncImports entries := by
  funext i f
  unfold bodyLinkage
  rw [hasBody_append]
  by_cases hi : i = entries.length + numFuncImports
  · rw [if_pos hi, hi, hasBody_end]
  · rw [if_neg hi]

theorem bodyLinkage_body (numFuncImports : Nat) (entries : List Bool) (i : Nat) (f : M3Function) :
    bodyLinkage numFuncImports (entries ++ [true]) i f =
      if entries.length + numFuncImports = i then
        (true, (bodyLinkage numFuncImports entries i f).2)
      else bodyLinkage numFuncImports entries i f := by
  unfold bodyLinkage
  rw [hasBody_append]
  by_cases hi : i = entries.length + numFuncImports
  · rw [if_pos hi, if_pos hi.symm, Bool.or_true]
  · rw [if_neg hi, if_neg (Ne.symm hi)]

/-- Setting a body gives the function its module. -/
theorem setBody_linkage (functions : List M3Function) (k : Nat) (wasm : Bytes) :
    (functions.modify k fun func => { func with module := true, wasm := some wasm }).map
        M3Function.linkage =
      (functions.map M3Function.linkage).modify k fun l => (true, l.2) := by
  apply List.ext_getElem?
  intro j
  rw [List.getElem?_map, List.getElem?_modify, List.getElem?_modify, List.getElem?_map]
  cases functions[j]? with
  | none => rfl
  | some f =>
    by_cases hj : k = j
    · show some (M3Function.linkage (if k = j then _ else f)) = some (if k = j then _ else _)
      rw [if_pos hj, if_pos hj]
      rfl
    · show some (M3Function.linkage (if k = j then _ else f)) = some (if k = j then _ else _)
      rw [if_neg hj, if_neg hj]

theorem parseCode_ok {i : Nat} {entries : List Bool} {functions : List M3Function}
    (hentries : entries.length = i)
    (hlinkage : m.linkage = functions.mapIdx (bodyLinkage m.numFuncImports entries))
    (h : parseCode i (m, bytes) = .ok (m', rest)) :
    ∃ b, codeEntry i (entries, bytes) = .ok (entries ++ [b], rest) ∧
      m' = { m with functions := m'.functions } ∧
      m'.linkage = functions.mapIdx (bodyLinkage m.numFuncImports (entries ++ [b])) := by
  rcases bind_ok h with ⟨⟨size, payload⟩, hread, h⟩
  -- both read the same size and go on after the same bytes
  have hentry : codeEntry i (entries, bytes) =
      .ok (entries ++ [decide (size ≠ 0)], payload.drop size.toNat) := by
    unfold codeEntry
    rw [hread]
    rfl
  by_cases hsize : size ≠ 0
  · simp only [if_pos hsize] at h
    by_cases hroom : size.toNat ≤ payload.length
    · rw [if_pos hroom] at h
      cases h
      refine ⟨true, by rw [hentry, decide_eq_true hsize], rfl, ?_⟩
      rw [M3Module.linkage, setBody_linkage]
      show m.linkage.modify _ _ = _
      rw [hlinkage, ← hentries]
      apply List.ext_getElem?
      -- entry `i` belongs to the function `i` places after the imports
      intro j
      rw [List.getElem?_modify, List.getElem?_mapIdx, List.getElem?_mapIdx]
      cases functions[j]? with
      | none => rfl
      | some f => exact congrArg some (bodyLinkage_body m.numFuncImports entries j f).symm
    · rw [if_neg hroom] at h
      cases h
  · simp only [if_neg hsize] at h
    cases h
    have hzero : size = 0 := not_not.mp hsize
    refine ⟨false, ?_, rfl, ?_⟩
    · rw [hentry, decide_eq_false hsize, hzero]
      rfl
    · rw [hlinkage, bodyLinkage_empty]

/-- Parsing a code section of `m` and reading its entries, after `i` of them. -/
structure BodiesRead (m : M3Module) (i : Nat) (s : M3Module × Bytes) (t : List Bool × Bytes) :
    Prop where
  bytes : s.2 = t.2
  length : t.1.length = i
  frame : s.1 = { m with functions := s.1.functions }
  linkage : s.1.linkage = m.functions.mapIdx (bodyLinkage m.numFuncImports t.1)

theorem bodiesRead_nil (m : M3Module) (bytes : Bytes) : BodiesRead m 0 (m, bytes) ([], bytes) := by
  refine ⟨rfl, rfl, rfl, ?_⟩
  apply List.ext_getElem?
  intro i
  show (List.map M3Function.linkage m.functions)[i]? = _
  rw [List.getElem?_map, List.getElem?_mapIdx]
  congr 1
  funext f
  unfold bodyLinkage hasBody
  rw [List.getD_nil, Bool.and_false, Bool.or_false]
  rfl

theorem bodiesRead_step {i : Nat} {s t : M3Module × Bytes} {s' : List Bool × Bytes}
    (h : BodiesRead m i s s') (hstep : parseCode i s = .ok t) :
    ∃ t', codeEntry i s' = .ok t' ∧ BodiesRead m (i + 1) t t' := by
  rcases s with ⟨s, bytes⟩
  rcases t with ⟨t, rest⟩
  rcases s' with ⟨entries, bytes'⟩
  rcases h with ⟨rfl, hlength, hframe, hlinkage⟩
  have hcount : s.numFuncImports = m.numFuncImports := by
    show (s, bytes).1.numFuncImports = _
    rw [hframe]
  rw [← hcount] at hlinkage
  rcases parseCode_ok hlength hlinkage hstep with ⟨b, hentry, hframe', hlinkage'⟩
  refine ⟨_, hentry, rfl, ?_, ?_, ?_⟩
  · rw [List.length_append, hlength, List.length_singleton]
  · show t = _
    have hs : s = { m with functions := s.functions } := hframe
    rw [hframe', hs]
  · show t.linkage = _
    rw [← hcount]
    exact hlinkage'

theorem parseSectionCode_ok (h : parseSectionCode m bytes = .ok m') :
    m' = { m with functions := m'.functions } ∧ ∃ entries, codeEntries bytes = .ok entries ∧
      m'.linkage = m.functions.mapIdx (bodyLinkage m.numFuncImports entries) := by
  rcases bind_ok h with ⟨⟨numFunctions, payload⟩, hread, h⟩
  rcases bind_ok h with ⟨-, -, h⟩
  rcases bind_ok h with ⟨⟨end_, rest⟩, hloop, h⟩
  rcases bind_ok h with ⟨-, -, h⟩
  cases h
  rcases loop_simulates (fun i s t s' => bodiesRead_step) (bodiesRead_nil m payload) hloop with
    ⟨⟨entries, rest'⟩, hentries, hread'⟩
  refine ⟨hread'.frame, entries, ?_, hread'.linkage⟩
  unfold codeEntries
  rw [hread]
  show (loop codeEntry numFunctions.toNat 0 ([], payload)).bind _ = _
  rw [hentries]
  rfl

/-! ## Any section -/

/-- What the sections have in common. -/
structure SectionStep (id : UInt8) (m m' : M3Module) : Prop where
  functions : m.functions.length ≤ m'.functions.length
  globals : m.globals.length ≤ m'.globals.length
  memoryImported : m'.memoryImported = false → m.memoryImported = false
  memoryInfo : id ≠ 5 → m'.memoryImported = false → m'.memoryInfo = m.memoryInfo
  linkage : id ≠ 2 → id ≠ 3 → id ≠ 10 → m'.linkage = m.linkage
  numFuncImports : id ≠ 2 → m'.numFuncImports = m.numFuncImports
  table0 : m'.table0 = m.table0

theorem length_of_linkage {m m' : M3Module} (h : m'.linkage = m.linkage) :
    m'.functions.length = m.functions.length := by
  have hlength := congrArg List.length h
  rw [M3Module.linkage, M3Module.linkage, List.length_map, List.length_map] at hlength
  exact hlength

theorem Relabelled.step (id : UInt8) (h : Relabelled m m') : SectionStep id m m' where
  functions := Nat.le_of_eq (length_of_linkage h.linkage).symm
  globals := Nat.le_of_eq h.globals.symm
  memoryImported := by rw [h.frame]; exact fun h => h
  memoryInfo := by rw [h.frame]; exact fun _ _ => rfl
  linkage _ _ _ := h.linkage
  numFuncImports := by rw [h.frame]; exact fun _ => rfl
  table0 := by rw [h.frame]

/-- A section that touches neither functions nor globals nor memory. -/
theorem SectionStep.of_fields (id : UInt8) (hfunctions : m'.functions = m.functions)
    (hglobals : m'.globals = m.globals) (himported : m'.memoryImported = m.memoryImported)
    (hmemory : m'.memoryInfo = m.memoryInfo) (hcount : m'.numFuncImports = m.numFuncImports)
    (htable : m'.table0 = m.table0) :
    SectionStep id m m' where
  functions := Nat.le_of_eq (congrArg List.length hfunctions.symm)
  globals := Nat.le_of_eq (congrArg List.length hglobals.symm)
  memoryImported := by rw [himported]; exact fun h => h
  memoryInfo _ _ := hmemory
  linkage _ _ _ := by rw [M3Module.linkage, hfunctions, M3Module.linkage]
  numFuncImports _ := hcount
  table0 := htable

theorem Imported.step (h : Imported m m') : SectionStep 2 m m' where
  functions := by
    rcases h.functions with ⟨fs, hfs, -, -⟩
    rw [hfs, List.length_append]
    exact Nat.le_add_right _ _
  globals := by
    rcases h.globals with ⟨gs, hgs⟩
    rw [hgs, List.length_append]
    exact Nat.le_add_right _ _
  memoryImported himported := (h.memory himported).2
  memoryInfo _ himported := (h.memory himported).1
  linkage hid := absurd rfl hid
  numFuncImports hid := absurd rfl hid
  table0 := h.table0

/-- Declared functions are appended without code, declared globals after the imported ones. -/
theorem SectionStep.of_append {id : UInt8} (fs : List M3Function) (gs : List M3Global)
    (hid : fs ≠ [] → id = 3) :
    SectionStep id m { m with functions := m.functions ++ fs, globals := m.globals ++ gs } where
  functions := by
    rw [List.length_append]
    exact Nat.le_add_right _ _
  globals := by
    rw [List.length_append]
    exact Nat.le_add_right _ _
  memoryImported h := h
  memoryInfo _ _ := rfl
  linkage _ hne _ := by
    have hnil : fs = [] := Classical.not_not.mp fun h => hne (hid h)
    rw [hnil, List.append_nil]
    rfl
  numFuncImports _ := rfl
  table0 := rfl

theorem parseSectionFunction_step (h : parseSectionFunction m bytes = .ok m') :
    SectionStep 3 m m' := by
  rcases parseSectionFunction_ok h with ⟨fs, rfl, -⟩
  have happend : SectionStep 3 m _ := SectionStep.of_append fs [] fun _ => rfl
  rw [List.append_nil] at happend
  exact happend

theorem parseSectionGlobal_step (h : parseSectionGlobal m bytes = .ok m') :
    SectionStep 6 m m' := by
  rcases parseSectionGlobal_ok h with ⟨gs, rfl⟩
  have happend : SectionStep 6 m _ := SectionStep.of_append [] gs fun h => absurd rfl h
  rw [List.append_nil] at happend
  exact happend

theorem parseSectionMemory_step (h : parseSectionMemory m bytes = .ok m') :
    SectionStep 5 m m' := by
  rcases parseSectionMemory_ok h with ⟨memoryInfo, rfl⟩
  exact {
    functions := Nat.le_refl _
    globals := Nat.le_refl _
    memoryImported := fun h => h
    memoryInfo := fun h => absurd rfl h
    linkage := fun _ _ _ => rfl
    numFuncImports := fun _ => rfl
    table0 := rfl }

/-- Bodies are attached to declared functions; nothing else moves. -/
theorem parseSectionCode_step (h : parseSectionCode m bytes = .ok m') : SectionStep 10 m m' := by
  rcases parseSectionCode_ok h with ⟨hframe, entries, -, hlinkage⟩
  have hlength := congrArg List.length hlinkage
  rw [M3Module.linkage, List.length_map, List.length_mapIdx] at hlength
  rw [hframe]
  exact {
    functions := Nat.le_of_eq hlength.symm
    globals := Nat.le_refl _
    memoryImported := fun h => h
    memoryInfo := fun _ _ => rfl
    linkage := fun _ _ h => absurd rfl h
    numFuncImports := fun _ => rfl
    table0 := rfl }

theorem parseModuleSection_step {id : UInt8} (h : parseModuleSection m id bytes = .ok m') :
    SectionStep id m m' := by
  unfold parseModuleSection at h
  -- one case for each section id, in the order of the source's table
  split at h
  · exact (parseSectionCustom_ok h).step 0
  · rcases parseSectionType_ok h with ⟨_, rfl⟩
    exact .of_fields 1 rfl rfl rfl rfl rfl rfl
  · exact (parseSectionImport_ok h).step
  · exact parseSectionFunction_step h
  · exact parseSectionMemory_step h
  · exact parseSectionGlobal_step h
  · exact (parseSectionExport_ok h).step 7
  · rcases parseSectionStart_ok h with ⟨_, rfl⟩
    exact .of_fields 8 rfl rfl rfl rfl rfl rfl
  · rcases parseSectionElement_ok h with ⟨_, _, rfl⟩
    exact .of_fields 9 rfl rfl rfl rfl rfl rfl
  · exact parseSectionCode_step h
  · rcases parseSectionData_ok h with ⟨_, rfl⟩
    exact .of_fields 11 rfl rfl rfl rfl rfl rfl
  · cases h
    exact .of_fields _ rfl rfl rfl rfl rfl rfl

end WebAssemblyRuntime.Wasm3
