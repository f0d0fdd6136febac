import WebAssemblyRuntime.Binding.ImportDispatch
import WebAssemblyRuntime.Binding.Instantiate
import WebAssemblyRuntime.Binding.Signature
import WebAssemblyRuntime.Wasm3.Declarations

/-!
# Linkable — when the link loop of `instantiate` goes through

Linking one import checks its signature against the type of every import that its names match, so
the loop succeeds when those types are equal and the signature of each import can be read back.
-/

open WebAssemblyRuntime.Reasoning WebAssemblyRuntime.Wasm3

namespace WebAssemblyRuntime.Binding

variable {functions functions' : List M3Function} {moduleName fieldName : CString}

theorem validateSignature_none {f : M3Function} {signature : List Char} :
    validateSignature f signature = none ↔ signatureToFuncType signature = .ok f.funcType := by
  unfold validateSignature
  cases signatureToFuncType signature with
  | error e => simp
  | ok ftype =>
    by_cases heq : ftype = f.funcType
    · simp [heq]
    · simp [heq]

/-- `FindAndLinkFunction` goes through just when every match validates. -/
theorem findAndLinkLoop_none (moduleName fieldName : CString) (signature : List Char)
    (userdata : Nat) (functions : List M3Function) (result : M3Result) :
    (findAndLinkLoop moduleName fieldName signature userdata functions result).1 = none ↔
      (∀ f ∈ functions, linkMatches moduleName fieldName f → validateSignature f signature = none) ∧
        (result = none ∨ ∃ f ∈ functions, linkMatches moduleName fieldName f) := by
  induction functions generalizing result with
  | nil => simp [findAndLinkLoop]
  | cons f rest ih =>
    rw [findAndLinkLoop]
    by_cases hmatch : linkMatches moduleName fieldName f
    · rw [if_pos hmatch]
      cases hvalid : validateSignature f signature with
      | some e => simp [hmatch, hvalid]
      | none =>
        -- the lookup has succeeded once; the rest can only fail to validate
        simp [ih, hmatch, hvalid]
    · rw [if_neg hmatch]
      simp [ih, hmatch]

/-- What linking the import at an index asks of the module. -/
def StepLinks (functions : List M3Function) (n : Nat) : Prop :=
  ∀ g names, functions[n]? = some g → g.importNames = some names →
    SignatureDecodes g.funcType ∧
      ∀ f ∈ functions, linkMatches names.1 names.2 f → f.funcType = g.funcType

theorem matches_of_declared (h : functions'.map declared = functions.map declared)
    {P : M3FuncType → Prop}
    (hall : ∀ f ∈ functions, linkMatches moduleName fieldName f → P f.funcType) :
    ∀ f ∈ functions', linkMatches moduleName fieldName f → P f.funcType := by
  intro f hf hmatch
  have hmem := List.mem_map_of_mem (f := declared) hf
  rw [h] at hmem
  rcases List.mem_map.mp hmem with ⟨g, hg, heq⟩
  rw [← linkMatches_of_declared heq] at hmatch
  rw [← show g.funcType = f.funcType from congrArg Prod.snd heq]
  exact hall g hg hmatch

/-- All matches have the type that the signature stands for. -/
theorem stepLinks_iff {n : Nat} {g : M3Function} {names : CString × CString}
    {signature : List Char} (hg : functions[n]? = some g) (hnames : g.importNames = some names)
    (hbuild : buildSignature g.funcType = some signature) :
    StepLinks functions n ↔ ∀ f ∈ functions, linkMatches names.1 names.2 f →
      signatureToFuncType signature = .ok f.funcType := by
  constructor
  · intro hstep f hf hmatch
    rcases hstep g names hg hnames with ⟨⟨signature', hbuild', hdecode⟩, htypes⟩
    cases hbuild.symm.trans hbuild'
    rw [htypes f hf hmatch]
    exact hdecode
  · intro hall g' names' hg' hnames'
    cases hg.symm.trans hg'
    cases hnames.symm.trans hnames'
    -- the import is one of its own matches
    have hdecode := hall g (List.mem_of_getElem? hg) (linkMatches_self hnames)
    refine ⟨⟨signature, hbuild, hdecode⟩, ?_⟩
    intro f hf hmatch
    exact Except.ok.inj ((hall f hf hmatch).symm.trans hdecode)

theorem stepLinks_not_imported {n : Nat} (h : importNamesAt functions n = none) :
    StepLinks functions n := by
  intro g names hg hnames
  rw [importNamesAt, hg, Option.bind_some, hnames] at h
  cases h

variable {importObject : ImportObject}

/-- One iteration goes through just when its import links with all it matches. -/
theorem linkImport_iff {state : LinkState} {n : Nat}
    (h : state.functions.map declared = functions.map declared)
    (hlinkable : ∀ f ∈ functions, f.importNames.isSome → Linkable f.funcType) :
    (∃ state', linkImport importObject state n = .ok state') ↔ StepLinks functions n := by
  have hn := getElem?_declared h n
  have himport := importNamesAt_of_declared h n
  unfold linkImport
  cases hf : state.functions[n]? with
  | none =>
    rw [importNamesAt, hf, Option.bind_none] at himport
    exact iff_of_true ⟨_, rfl⟩ (stepLinks_not_imported himport.symm)
  | some f =>
    rw [importNamesAt, hf, Option.bind_some] at himport
    rw [hf, Option.map_some] at hn
    rcases Option.map_eq_some_iff.mp hn.symm with ⟨g, hg, hgf⟩
    simp only
    cases hnames : f.importNames with
    | none => exact iff_of_true ⟨_, rfl⟩ (stepLinks_not_imported (himport.symm.trans hnames))
    | some names =>
      have hgnames : g.importNames = some names := (importNames_of_declared hgf).trans hnames
      have hlink := hlinkable g (List.mem_of_getElem? hg) (by rw [hgnames]; rfl)
      rcases signatureToFuncType_buildSignature hlink with ⟨signature, hbuild, -⟩
      have hfind := findAndLinkLoop_none names.1 names.2 signature state.imports.length
        state.functions (some .functionLookupFailed)
      have hself : ∃ f ∈ state.functions, linkMatches names.1 names.2 f :=
        ⟨f, List.mem_of_getElem? hf, linkMatches_self hnames⟩
      simp only [hself, or_true, and_true, validateSignature_none] at hfind
      rw [stepLinks_iff hg hgnames hbuild]
      rw [show g.funcType = f.funcType from congrArg Prod.snd hgf] at hbuild
      -- the functions linked so far have the same names and types
      have hall : (∀ f ∈ functions, linkMatches names.1 names.2 f →
          signatureToFuncType signature = .ok f.funcType) ↔ ∀ f ∈ state.functions,
          linkMatches names.1 names.2 f → signatureToFuncType signature = .ok f.funcType :=
        ⟨matches_of_declared (P := fun t => signatureToFuncType signature = .ok t) h,
          matches_of_declared (P := fun t => signatureToFuncType signature = .ok t) h.symm⟩
      rw [hall, ← hfind]
      simp only [hbuild, findAndLinkFunction]
      cases findAndLinkLoop names.1 names.2 signature state.imports.length state.functions
          (some .functionLookupFailed) with
      | mk result linked =>
        cases result with
        | none => exact iff_of_true ⟨_, rfl⟩ rfl
        | some e =>
          refine iff_of_false ?_ (fun h => by cases h)
          rintro ⟨_, h⟩
          cases h

theorem linkImport_declared {state state' : LinkState} {n : Nat}
    (h : state.functions.map declared = functions.map declared)
    (hstep : linkImport importObject state n = .ok state') :
    state'.functions.map declared = functions.map declared := by
  rcases linkImport_ok hstep with ⟨-, rfl⟩ | ⟨f, names, -, -, -, rfl⟩
  · exact h
  · exact (declared_link _ _ _ _).trans h

/-- The loop goes through just when every iteration does. -/
theorem linkImports_iff
    (hlinkable : ∀ f ∈ functions, f.importNames.isSome → Linkable f.funcType) :
    (∃ linked, linkImports importObject functions = .ok linked) ↔ ∀ n, StepLinks functions n := by
  constructor
  · rintro ⟨linked, h⟩ n
    unfold linkImports at h
    rw [List.range_eq_range'] at h
    have hend := foldlM_invariant (P := fun i (s : LinkState) =>
      s.functions.map declared = functions.map declared ∧ ∀ n < i, StepLinks functions n)
      (fun i s t hs hstep => by
        refine ⟨linkImport_declared hs.1 hstep, fun n hn => ?_⟩
        rcases Nat.lt_succ_iff_lt_or_eq.mp hn with hlt | rfl
        · exact hs.2 n hlt
        · exact (linkImport_iff hs.1 hlinkable).mp ⟨t, hstep⟩) ⟨rfl, fun _ h => by omega⟩ h
    by_cases hn : n < functions.length
    · exact hend.2 n (by omega)
    · apply stepLinks_not_imported
      rw [importNamesAt, List.getElem?_eq_none (by omega), Option.bind_none]
  · intro hall
    refine foldlM_total (P := fun s : LinkState =>
      s.functions.map declared = functions.map declared) ?_ _ rfl
    intro n state h
    rcases (linkImport_iff h hlinkable).mpr (hall n) with ⟨state', hstep⟩
    exact ⟨state', hstep, linkImport_declared h hstep⟩

/-- No import has a thousand parameters and no result, and imports that the names of another one
match have its type. -/
structure LinksTogether (functions : List M3Function) : Prop where
  short : ∀ f ∈ functions, f.importNames.isSome →
    ¬ (f.funcType.rets = [] ∧ f.funcType.args.length = 1000)
  sameTypes : ∀ f ∈ functions, ∀ g ∈ functions, ∀ names, g.importNames = some names →
    linkMatches names.1 names.2 f → f.funcType = g.funcType

theorem linksTogether_iff (hcap : ∀ f ∈ functions, f.funcType.Admitted)
    (hlinkable : ∀ f ∈ functions, f.importNames.isSome → Linkable f.funcType) :
    (∀ n, StepLinks functions n) ↔ LinksTogether functions := by
  constructor
  · intro hall
    constructor
    · intro f hf himport
      rcases List.getElem?_of_mem hf with ⟨n, hn⟩
      rcases Option.isSome_iff_exists.mp himport with ⟨names, hnames⟩
      rw [← admitted_short_iff (hcap f hf), ← signatureDecodes_iff (hlinkable f hf himport)]
      exact (hall n f names hn hnames).1
    · intro f hf g hg names hnames hmatch
      rcases List.getElem?_of_mem hg with ⟨n, hn⟩
      exact (hall n g names hn hnames).2 f hf hmatch
  · intro h n g names hn hnames
    have hg := List.mem_of_getElem? hn
    have himport : g.importNames.isSome := by rw [hnames]; rfl
    constructor
    · rw [signatureDecodes_iff (hlinkable g hg himport), admitted_short_iff (hcap g hg)]
      exact h.short g hg himport
    · intro f hf hmatch
      exact h.sameTypes f hf g hg names hnames hmatch

/-- In a module that was parsed and loaded, with imports of numeric parameters and at most one
numeric result, the link loop goes through exactly when the imports link together. -/
theorem linkingSucceeds {moduleBytes : Bytes} {parsed m : M3Module} {engine : Engine}
    {rt rt' : M3Runtime} {os : SysCalls} (hparse : m3ParseModule moduleBytes = .ok parsed)
    (hload : m3LoadModule engine rt parsed os = .ok (rt', m))
    (hlinkable : ∀ f ∈ m.functions, f.importNames.isSome → Linkable f.funcType) :
    (∀ importObject, ∃ linked, linkImports importObject m.functions = .ok linked) ↔
      LinksTogether m.functions := by
  have hfunctions := (m3LoadModule_ok (parsedModule_table0 hparse) hload).functions
  have hcap : ∀ f ∈ m.functions, f.funcType.Admitted := by
    rw [hfunctions]
    exact parsedModule_admitted hparse
  rw [← linksTogether_iff hcap hlinkable]
  constructor
  · intro hall
    exact (linkImports_iff hlinkable).mp (hall .empty)
  · intro hall importObject
    exact (linkImports_iff hlinkable).mpr hall

/-- Parsing and loading with nothing refused. -/
def loadGranted (moduleBytes : List UInt8) : Except M3Err (M3Runtime × M3Module) :=
  (m3ParseModule moduleBytes).bind fun parsed =>
    m3LoadModule constantEngine (m3NewRuntime 0 65536) parsed (.granting 4096)

theorem loadGranted_ok {moduleBytes : List UInt8} {functions : List M3Function}
    (h : (loadGranted moduleBytes).toOption.map (fun s => s.2.functions) = some functions) :
    ∃ parsed rt m, m3ParseModule moduleBytes = .ok parsed ∧
      m3LoadModule constantEngine (m3NewRuntime 0 65536) parsed (.granting 4096) = .ok (rt, m) ∧
      m.functions = functions := by
  cases hload : loadGranted moduleBytes with
  | error e =>
    rw [hload] at h
    cases h
  | ok loaded =>
    rw [hload] at h
    rcases bind_ok hload with ⟨parsed, hparse, hloaded⟩
    exact ⟨parsed, loaded.1, loaded.2, hparse, hloaded, Option.some.inj h⟩

/-- `env.f` imported twice with the types of these indices; type 0 takes an `i32`, type 1 an
`i64`. -/
def importTwice (first second : UInt8) : List UInt8 :=
  wasmHeader ++ [1, 9, 2, 0x60, 1, 0x7f, 0, 0x60, 1, 0x7e, 0] ++
    [2, 17, 2, 3, 0x65, 0x6e, 0x76, 1, 0x66, 0, first, 3, 0x65, 0x6e, 0x76, 1, 0x66, 0, second]

def importedWith (type : M3ValueType) : M3Function :=
  { importedFunction "env" "f" with names := [ascii "f"], funcType := { args := [type] } }

theorem importedWith_linkable {type : M3ValueType} (h : Numeric type) :
    Linkable (importedWith type).funcType where
  rets_le := Nat.zero_le 1
  rets _ h := absurd h List.not_mem_nil
  args t ht := by
    rw [List.mem_singleton.mp ht]
    exact h

theorem linkingSucceeds_twice :
    ∃ m : M3Module, m.functions = [importedWith .i32, importedWith .i32] ∧
      ∀ importObject, ∃ linked, linkImports importObject m.functions = .ok linked := by
  have hload : (loadGranted (importTwice 0 0)).toOption.map (fun s => s.2.functions) =
      some [importedWith .i32, importedWith .i32] := by decide +kernel
  rcases loadGranted_ok hload with ⟨parsed, rt, m, hparse, hloaded, hfunctions⟩
  refine ⟨m, hfunctions, (linkingSucceeds hparse hloaded ?_).mpr ?_⟩
  · rw [hfunctions]
    simp only [List.forall_mem_cons]
    exact ⟨fun _ => importedWith_linkable (.inl rfl), fun _ => importedWith_linkable (.inl rfl),
      fun _ h => absurd h List.not_mem_nil⟩
  · rw [hfunctions]
    constructor
    · decide
    · simp only [List.forall_mem_cons]
      exact ⟨by simp, by simp, fun _ h => absurd h List.not_mem_nil⟩

/-- With different types, linking the first import refuses the second. -/
theorem linkingSucceeds_fails :
    ∃ parsed rt m, m3ParseModule (importTwice 0 1) = .ok parsed ∧
      m3LoadModule constantEngine (m3NewRuntime 0 65536) parsed (.granting 4096) = .ok (rt, m) ∧
      (∀ f ∈ m.functions, f.importNames.isSome → Linkable f.funcType) ∧
      ∀ importObject, ¬ ∃ linked, linkImports importObject m.functions = .ok linked := by
  have hload : (loadGranted (importTwice 0 1)).toOption.map (fun s => s.2.functions) =
      some [importedWith .i32, importedWith .i64] := by decide +kernel
  rcases loadGranted_ok hload with ⟨parsed, rt, m, hparse, hloaded, hfunctions⟩
  have hlinkable : ∀ f ∈ m.functions, f.importNames.isSome → Linkable f.funcType := by
    rw [hfunctions]
    simp only [List.forall_mem_cons]
    exact ⟨fun _ => importedWith_linkable (.inl rfl),
      fun _ => importedWith_linkable (.inr (.inl rfl)), fun _ h => absurd h List.not_mem_nil⟩
  refine ⟨parsed, rt, m, hparse, hloaded, hlinkable, ?_⟩
  intro importObject hlinks
  have hstep := (linkImports_iff hlinkable).mp hlinks 0
  rw [hfunctions] at hstep
  have htypes := (hstep _ _ rfl rfl).2 (importedWith .i64) (by decide) (by decide)
  cases htypes

end WebAssemblyRuntime.Binding
