import WebAssemblyRuntime.Wasm3.ParsedModule

/-!
# Declarations — the types and imports of a parsed module

Only the type, import and function sections declare types, imports and functions.  What they declare
stays as it is to the end of the parse, and no type in it has more than a thousand values.
-/

open WebAssemblyRuntime.Reasoning

namespace WebAssemblyRuntime.Wasm3

/-- The part of a function that its declaration fixes. -/
def M3Function.declaration (f : M3Function) : M3ImportInfo × M3FuncType := (f.importInfo, f.funcType)

/-- The names of an imported global; `none` for the others. -/
def M3Global.importNames (g : M3Global) : Option (CString × CString) :=
  match g.imported, g.importInfo.moduleUtf8, g.importInfo.fieldUtf8 with
  | true, some moduleUtf8, some fieldUtf8 => some (moduleUtf8, fieldUtf8)
  | _, _, _ => none

/-- What a module's functions and imports are declared as. -/
structure SameDeclarations (m m' : M3Module) : Prop where
  funcTypes : m'.funcTypes = m.funcTypes
  functions : m'.functions.map M3Function.declaration = m.functions.map M3Function.declaration
  globals : m'.globals.filterMap M3Global.importNames = m.globals.filterMap M3Global.importNames
  memoryImported : m'.memoryImported = m.memoryImported

variable {m m' : M3Module} {bytes rest : Bytes}

theorem SameDeclarations.refl (m : M3Module) : SameDeclarations m m := ⟨rfl, rfl, rfl, rfl⟩

theorem SameDeclarations.trans {m₁ m₂ m₃ : M3Module} (h : SameDeclarations m₁ m₂)
    (h' : SameDeclarations m₂ m₃) : SameDeclarations m₁ m₃ where
  funcTypes := h'.funcTypes.trans h.funcTypes
  functions := h'.functions.trans h.functions
  globals := h'.globals.trans h.globals
  memoryImported := h'.memoryImported.trans h.memoryImported

theorem filterMap_eq_of_map {α β : Type} {xs ys : List α} {p : α → Option β}
    (h : xs.map p = ys.map p) : xs.filterMap p = ys.filterMap p := by
  have hid (zs : List α) : zs.filterMap p = (zs.map p).filterMap id := by
    rw [List.filterMap_map]
    rfl
  rw [hid xs, hid ys, h]

/-- A function of the module gets a name, a body or nothing. -/
theorem SameDeclarations.modify {g : M3Function → M3Function} (i : Nat)
    (h : ∀ f, (g f).declaration = f.declaration) :
    SameDeclarations m { m with functions := m.functions.modify i g } :=
  ⟨rfl, map_modify i h, rfl, rfl⟩

/-! ## Sections that declare nothing -/

theorem parseName_declarations {i : Nat} {s t : M3Module × Bytes}
    (h : parseName i s = .ok t) : SameDeclarations s.1 t.1 := by
  rcases bind_ok h with ⟨⟨index, bytes⟩, -, h⟩
  rcases bind_ok h with ⟨⟨name, bytes⟩, -, h⟩
  cases h
  apply SameDeclarations.modify
  intro f
  by_cases hnames : f.names = []
  · rw [if_pos hnames]
    rfl
  · rw [if_neg hnames]

theorem parseSectionName_declarations (h : parseSectionName m bytes = .ok m') :
    SameDeclarations m m' := by
  fun_induction parseSectionName m bytes with
  | case1 =>
    cases h
    exact .refl _
  | case2 | case3 | case4 => cases h
  | case5 m bytes hempty nameType bytes₁ hread payloadLength start hlength _ _ m₁ hnames ih =>
    refine SameDeclarations.trans ?_ (ih h)
    by_cases htype : nameType = 1
    · rw [dif_pos htype] at hnames
      exact sectionLoop_ok .tooManyNames d_m3MaxSaneFunctionsCount parseName (.refl m)
        (fun _ _ _ hs hstep => hs.trans (parseName_declarations hstep)) hnames
    · rw [dif_neg htype] at hnames
      cases hnames
      exact .refl _

theorem parseSectionCustom_declarations (h : parseSectionCustom m bytes = .ok m') :
    SameDeclarations m m' := by
  rcases bind_ok h with ⟨⟨name, payload⟩, -, h⟩
  simp only at h
  split at h
  · exact parseSectionName_declarations h
  · cases h
    exact .refl m

theorem parseExport_declarations {i : Nat} {s t : M3Module × Bytes}
    (h : parseExport i s = .ok t) : SameDeclarations s.1 t.1 := by
  rcases bind_ok h with ⟨⟨⟨utf8, exportKind, index⟩, bytes⟩, -, h⟩
  by_cases hfunction : exportKind = d_externalKind_function
  · simp only [if_pos hfunction] at h
    rcases bind_ok h with ⟨-, -, h⟩
    cases h
    apply SameDeclarations.modify
    intro f
    unfold M3Function.addExportName
    by_cases hroom : f.names.length < d_m3MaxDuplicateFunctionImpl
    · rw [if_pos hroom]
      rfl
    · rw [if_neg hroom]
  · simp only [if_neg hfunction] at h
    by_cases hglobal : exportKind = d_externalKind_global
    · rw [if_pos hglobal] at h
      rcases bind_ok h with ⟨-, -, h⟩
      cases h
      -- a global gets a name of its own, beside those of its import
      exact ⟨rfl, rfl, filterMap_eq_of_map (map_modify _ fun _ => rfl), rfl⟩
    · rw [if_neg hglobal] at h
      cases h
      exact .refl _

theorem parseSectionExport_declarations (h : parseSectionExport m bytes = .ok m') :
    SameDeclarations m m' :=
  sectionLoop_ok .tooManyExports d_m3MaxSaneExportsCount parseExport (.refl m)
    (fun _ _ _ hs hstep => hs.trans (parseExport_declarations hstep)) h

theorem parseGlobal_declarations {i : Nat} {s t : M3Module × Bytes}
    (h : parseGlobal i s = .ok t) : SameDeclarations s.1 t.1 := by
  rcases bind_ok h with ⟨⟨waType, bytes⟩, -, h⟩
  rcases bind_ok h with ⟨type, -, h⟩
  rcases bind_ok h with ⟨⟨isMutable, bytes⟩, -, h⟩
  rcases bind_ok h with ⟨⟨initExpr, bytes⟩, -, h⟩
  rcases bind_ok h with ⟨-, -, h⟩
  cases h
  refine ⟨rfl, rfl, ?_, rfl⟩
  show (s.1.globals ++ [_]).filterMap M3Global.importNames = _
  rw [List.filterMap_append]
  exact List.append_nil _

theorem parseSectionGlobal_declarations (h : parseSectionGlobal m bytes = .ok m') :
    SameDeclarations m m' :=
  sectionLoop_ok .tooManyGlobals d_m3MaxSaneGlobalsCount parseGlobal (.refl m)
    (fun _ _ _ hs hstep => hs.trans (parseGlobal_declarations hstep)) h

theorem parseCode_declarations {i : Nat} {s t : M3Module × Bytes}
    (h : parseCode i s = .ok t) : SameDeclarations s.1 t.1 := by
  rcases bind_ok h with ⟨⟨size, payload⟩, -, h⟩
  by_cases hsize : size ≠ 0
  · simp only [if_pos hsize] at h
    by_cases hroom : size.toNat ≤ payload.length
    · rw [if_pos hroom] at h
      cases h
      exact SameDeclarations.modify _ fun _ => rfl
    · rw [if_neg hroom] at h
      cases h
  · simp only [if_neg hsize] at h
    cases h
    exact .refl _

theorem parseSectionCode_declarations (h : parseSectionCode m bytes = .ok m') :
    SameDeclarations m m' := by
  rcases bind_ok h with ⟨⟨numFunctions, payload⟩, -, h⟩
  rcases bind_ok h with ⟨-, -, h⟩
  rcases bind_ok h with ⟨s, hloop, h⟩
  rcases bind_ok h with ⟨-, -, h⟩
  cases h
  exact loop_invariant (P := fun _ s => SameDeclarations m s.1)
    (fun _ _ _ hs hstep => hs.trans (parseCode_declarations hstep)) (.refl m) hloop

/-- The sections that declare types, imports and functions are 1, 2 and 3. -/
theorem parseModuleSection_declarations {id : UInt8} (h1 : id ≠ 1) (h2 : id ≠ 2) (h3 : id ≠ 3)
    (h : parseModuleSection m id bytes = .ok m') : SameDeclarations m m' := by
  unfold parseModuleSection at h
  split at h
  · exact parseSectionCustom_declarations h
  · exact absurd rfl h1
  · exact absurd rfl h2
  · exact absurd rfl h3
  · rcases parseSectionMemory_ok h with ⟨_, rfl⟩
    exact ⟨rfl, rfl, rfl, rfl⟩
  · exact parseSectionGlobal_declarations h
  · exact parseSectionExport_declarations h
  · rcases parseSectionStart_ok h with ⟨_, rfl⟩
    exact ⟨rfl, rfl, rfl, rfl⟩
  · rcases parseSectionElement_ok h with ⟨_, _, rfl⟩
    exact ⟨rfl, rfl, rfl, rfl⟩
  · exact parseSectionCode_declarations h
  · rcases parseSectionData_ok h with ⟨_, rfl⟩
    exact ⟨rfl, rfl, rfl, rfl⟩
  · cases h
    exact .refl m

/-! ## Types -/

/-- What `ParseSection_Type` lets through. -/
def M3FuncType.Admitted (funcType : M3FuncType) : Prop :=
  funcType.args.length + funcType.rets.length ≤ 1000

structure TypesAdmitted (m : M3Module) : Prop where
  funcTypes : ∀ funcType ∈ m.funcTypes, funcType.Admitted
  functions : ∀ f ∈ m.functions, f.funcType.Admitted

theorem TypesAdmitted.same (h : TypesAdmitted m) (hsame : SameDeclarations m m') :
    TypesAdmitted m' where
  funcTypes := by
    rw [hsame.funcTypes]
    exact h.funcTypes
  functions := by
    intro f hf
    have hmem := List.mem_map_of_mem (f := M3Function.declaration) hf
    rw [hsame.functions] at hmem
    rcases List.mem_map.mp hmem with ⟨g, hg, heq⟩
    rw [← show g.funcType = f.funcType from congrArg Prod.snd heq]
    exact h.functions g hg

theorem valueTypes_length {n : Nat} {types : List M3ValueType}
    (h : loop parseValueType n 0 ([], bytes) = .ok (types, rest)) : types.length = n := by
  have hstep (i : Nat) (s t : List M3ValueType × Bytes) (hs : s.1.length = i)
      (h : parseValueType i s = .ok t) : t.1.length = i + 1 := by
    rcases bind_ok h with ⟨⟨wasmType, bytes⟩, -, h⟩
    rcases bind_ok h with ⟨type, -, h⟩
    cases h
    rw [List.length_append, hs, List.length_singleton]
  have hlength := loop_invariant (P := fun i s => s.1.length = i) hstep rfl h
  rw [Nat.zero_add] at hlength
  exact hlength

theorem parseFuncType_admitted {i : Nat} {s t : M3Module × Bytes} (hs : TypesAdmitted s.1)
    (h : parseFuncType i s = .ok t) : TypesAdmitted t.1 := by
  rcases bind_ok h with ⟨⟨form, bytes₁⟩, -, h⟩
  rcases bind_ok h with ⟨-, -, h⟩
  rcases bind_ok h with ⟨⟨numArgs, bytes₂⟩, -, h⟩
  rcases bind_ok h with ⟨-, -, h⟩
  rcases bind_ok h with ⟨⟨args, bytes₃⟩, hargs, h⟩
  rcases bind_ok h with ⟨⟨numRets, bytes₄⟩, -, h⟩
  rcases bind_ok h with ⟨u, hcap, h⟩
  rcases bind_ok h with ⟨⟨rets, bytes₅⟩, hrets, h⟩
  cases h
  have hsum := of_decide_eq_false (throwIf_ok hcap)
  refine ⟨?_, hs.functions⟩
  intro funcType hmem
  rcases List.mem_append.mp hmem with hmem | hmem
  · exact hs.funcTypes funcType hmem
  · -- the counts checked are those of the lists read
    rw [List.mem_singleton.mp hmem]
    show args.length + rets.length ≤ 1000
    rw [valueTypes_length hargs, valueTypes_length hrets]
    omega

/-- A function is declared with one of the module's types. -/
theorem moduleAddFunction_admitted {typeIndex : UInt32} {importInfo : Option M3ImportInfo}
    (hm : TypesAdmitted m) (h : moduleAddFunction m typeIndex importInfo = .ok m') :
    TypesAdmitted m' := by
  unfold moduleAddFunction at h
  split at h
  · cases h
  · rename_i funcType hfound
    cases h
    refine ⟨hm.funcTypes, ?_⟩
    intro f hf
    rcases List.mem_append.mp hf with hf | hf
    · exact hm.functions f hf
    · rw [List.mem_singleton.mp hf]
      exact hm.funcTypes funcType (List.mem_of_getElem? hfound)

theorem parseImportKind_admitted {info : M3ImportInfo} {importKind : UInt8}
    (hm : TypesAdmitted m) (h : parseImportKind m info importKind bytes = .ok (m', rest)) :
    TypesAdmitted m' := by
  unfold parseImportKind at h
  split at h
  · rcases bind_ok h with ⟨⟨typeIndex, bytes'⟩, -, h⟩
    rcases bind_ok h with ⟨m₁, hadd, h⟩
    cases h
    exact ⟨(moduleAddFunction_admitted hm hadd).funcTypes,
      (moduleAddFunction_admitted hm hadd).functions⟩
  · split at h
    · cases h
      exact hm
    · split at h
      · split at h
        · cases h
        · cases h
          exact ⟨hm.funcTypes, hm.functions⟩
      · split at h
        · rcases bind_ok h with ⟨⟨waType, bytes'⟩, -, h⟩
          rcases bind_ok h with ⟨type, -, h⟩
          rcases bind_ok h with ⟨⟨isMutable, bytes''⟩, -, h⟩
          cases h
          exact ⟨hm.funcTypes, hm.functions⟩
        · cases h

theorem parseModuleSection_admitted {id : UInt8} (hm : TypesAdmitted m)
    (h : parseModuleSection m id bytes = .ok m') : TypesAdmitted m' := by
  by_cases h1 : id = 1
  · subst h1
    exact sectionLoop_ok .tooManyTypes d_m3MaxSaneTypesCount parseFuncType hm
      (fun _ _ _ hs hstep => parseFuncType_admitted hs hstep) h
  by_cases h2 : id = 2
  · subst h2
    refine sectionLoop_ok .tooManyImports d_m3MaxSaneImportsCount parseImport hm ?_ h
    intro i s t hs hstep
    rcases bind_ok hstep with ⟨⟨moduleUtf8, bytes⟩, -, hstep⟩
    rcases bind_ok hstep with ⟨⟨fieldUtf8, bytes⟩, -, hstep⟩
    rcases bind_ok hstep with ⟨⟨importKind, bytes⟩, -, hstep⟩
    exact parseImportKind_admitted hs hstep
  by_cases h3 : id = 3
  · subst h3
    refine sectionLoop_ok .tooManyFunctions d_m3MaxSaneFunctionsCount parseFunction hm ?_ h
    intro i s t hs hstep
    rcases bind_ok hstep with ⟨⟨funcTypeIndex, bytes⟩, -, hstep⟩
    rcases bind_ok hstep with ⟨m₁, hadd, hstep⟩
    cases hstep
    exact moduleAddFunction_admitted hs hadd
  · exact hm.same (parseModuleSection_declarations h1 h2 h3 h)

theorem parsed_admitted {e : Nat} {pos : Bytes} {sections : List (UInt8 × Bytes)}
    (h : ParsedSections e m pos sections m') (hm : TypesAdmitted m) : TypesAdmitted m' := by
  induction h with
  | nil => exact hm
  | cons _ _ _ hparse _ ih => exact ih (parseModuleSection_admitted hm hparse)

theorem parsedModule_admitted {moduleBytes : Bytes} (h : m3ParseModule moduleBytes = .ok m) :
    ∀ f ∈ m.functions, f.funcType.Admitted := by
  rcases m3ParseModule_ok h with ⟨-, sections, hparsed⟩
  exact (parsed_admitted hparsed ⟨fun _ h => absurd h List.not_mem_nil,
    fun _ h => absurd h List.not_mem_nil⟩).functions

end WebAssemblyRuntime.Wasm3
