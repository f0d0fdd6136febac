import Mathlib.Data.List.TakeWhile
import WebAssemblyRuntime.Binding.Imports
import WebAssemblyRuntime.Reasoning.Results

/-!
# ImportDispatch — which JavaScript function a wasm call of an import reaches

Names are compared as C strings and the module name `*` matches every module, so a later import may
take over the entry of an earlier one.
-/

open WebAssemblyRuntime.Reasoning WebAssemblyRuntime.Wasm3

namespace WebAssemblyRuntime.Binding

/-- Calling import `i` calls the function its own names select in the import object, or raises the
exception that has these names when they select none. -/
def Faithful (importObject : ImportObject) (functions : List M3Function) (linked : LinkState)
    (i : Nat) : Prop :=
  ∀ f moduleName fieldName, functions[i]? = some f →
    f.importNames = some (moduleName, fieldName) →
    ∃ entry, linked.entry i = some entry ∧ ∀ slots sp,
      match importObject.function moduleName fieldName with
      | some fn => ∃ args, callImportedFunction entry f.funcType slots sp = .call fn args
      | none => callImportedFunction entry f.funcType slots sp =
          .raise (.missingImport moduleName fieldName)

/-- No name holds a NUL, and an import that a later import from the module `*` with the same field
takes over is imported once more after it. -/
structure DispatchSafe (functions : List M3Function) : Prop where
  nulFree : ∀ i moduleName fieldName,
    importNamesAt functions i = some (moduleName, fieldName) → 0 ∉ moduleName ∧ 0 ∉ fieldName
  wildcard : ∀ i j moduleName fieldName, i < j →
    importNamesAt functions i = some (moduleName, fieldName) →
    importNamesAt functions j = some (ascii "*", fieldName) → moduleName ≠ ascii "*" →
    ∃ k, j < k ∧ importNamesAt functions k = some (moduleName, fieldName)

variable {importObject : ImportObject} {functions : List M3Function} {linked : LinkState}

theorem content_eq_self {s : CString} (h : 0 ∉ s) : s.content = s := by
  apply List.takeWhile_eq_self_iff.mpr
  intro b hb
  have hne : b ≠ 0 := fun hz => h (hz ▸ hb)
  simp [hne]

theorem content_nulFree (s : CString) : 0 ∉ s.content := by
  intro h
  have hne := List.mem_takeWhile_imp h
  simp at hne

theorem slotToValue_ok {type : M3ValueType} (h : (valueTypeToChar type).isSome) (slot : UInt64) :
    ∃ value, slotToValue type slot = .ok value := by
  cases type with
  | none | v128 | unknown => cases h
  | i32 | i64 | f32 | f64 => exact ⟨_, rfl⟩

/-- A type with a signature has at most one result and arguments that convert. -/
theorem buildSignature_isSome {funcType : M3FuncType} (h : (buildSignature funcType).isSome) :
    funcType.rets.length ≤ 1 ∧ (funcType.args.mapM valueTypeToChar).isSome := by
  unfold buildSignature at h
  split at h
  · rename_i hrets
    rw [hrets]
    exact ⟨by simp, by simpa using h⟩
  · rename_i type hrets
    rw [hrets]
    cases hc : valueTypeToChar type with
    | none => simp [hc] at h
    | some c => exact ⟨by simp, by simpa [hc] using h⟩
  · simp at h

theorem importArgs_ok {funcType : M3FuncType} (h : (buildSignature funcType).isSome)
    (slots : Slots) (sp : Nat) : ∃ args, importArgs funcType slots sp = .ok args := by
  apply exceptMapM_ok
  intro ⟨type, i⟩ hmem
  have htype : type ∈ funcType.args := List.fst_mem_of_mem_zipIdx hmem
  exact slotToValue_ok (optionMapM_isSome (buildSignature_isSome h).2 type htype) _

/-- The names under which `resolveImport` looks an entry up decide the call. -/
theorem callImportedFunction_entryOf {funcType : M3FuncType}
    (hsig : (buildSignature funcType).isSome) (names : CString × CString) (slots : Slots)
    (sp : Nat) :
    match importObject.function names.1.content names.2.content with
    | some fn => ∃ args,
        callImportedFunction (entryOf importObject names) funcType slots sp = .call fn args
    | none => callImportedFunction (entryOf importObject names) funcType slots sp =
        .raise (.missingImport names.1.content names.2.content) := by
  have hresolve : resolveImport importObject names.1 names.2 =
      importObject.function names.1.content names.2.content := by
    unfold resolveImport ImportObject.function
    cases importObject.properties (importObject.propertyName names.1.content) <;> rfl
  rw [← hresolve]
  cases hfn : resolveImport importObject names.1 names.2 with
  | none => exact callImportedFunction_missing hfn funcType slots sp
  | some fn =>
    have hentry : (entryOf importObject names).fn = some fn := hfn
    rcases callImportedFunction_cases hentry funcType slots sp with
      ⟨hrets, -⟩ | ⟨e, herror, -⟩ | ⟨args, -, hcall⟩
    · have := (buildSignature_isSome hsig).1
      omega
    · rcases importArgs_ok hsig slots sp with ⟨args, hargs⟩
      cases hargs.symm.trans herror
    · exact ⟨args, hcall⟩

theorem importIndex_lt {i : Nat} {names : CString × CString}
    (h : importNamesAt functions i = some names) : i < functions.length := by
  rcases Option.bind_eq_some_iff.mp h with ⟨f, hf, -⟩
  exact (List.getElem?_eq_some_iff.mp hf).1

theorem linkHits_iff {i j : Nat} {Mi Ni Mj Nj : CString}
    (hi : importNamesAt functions i = some (Mi, Ni))
    (hj : importNamesAt functions j = some (Mj, Nj)) :
    linkHits functions j i = true ↔ Ni.content = Nj.content ∧
      (Mj.content = ascii "*" ∨ Mi.content = Mj.content) := by
  unfold importNamesAt at hi
  rcases Option.bind_eq_some_iff.mp hi with ⟨f, hf, hnames⟩
  have hstar : CString.content (ascii "*") = ascii "*" := by decide
  rw [linkHits_eq hj hf, linkMatches, hnames]
  simp only [strcmpEq, hstar, Bool.and_eq_true, Bool.or_eq_true, decide_eq_true_eq]

/-- An imported function calls the entry of the last import that matches it. -/
theorem linked_entry (hfresh : ∀ f ∈ functions, f.compiled = none)
    (h : linkImports importObject functions = .ok linked) {i : Nat} {Mi Ni : CString}
    (hi : importNamesAt functions i = some (Mi, Ni)) :
    ∃ m Mm Nm, i ≤ m ∧ importNamesAt functions m = some (Mm, Nm) ∧
      linkHits functions m i = true ∧
      (∀ k, m < k → k < functions.length → linkHits functions k i = false) ∧
      linked.entry i = some (entryOf importObject (Mm, Nm)) := by
  have hself : linkHits functions i i = true :=
    (linkHits_iff hi hi).mpr ⟨rfl, .inr rfl⟩
  rcases exists_greatest_hit (importIndex_lt hi) hself with ⟨m, hm, him, hhit, hgreatest⟩
  cases hnames : importNamesAt functions m with
  | none =>
    rw [linkHits_not_imported hnames] at hhit
    cases hhit
  | some names =>
    refine ⟨m, names.1, names.2, him, hnames, hhit, hgreatest, ?_⟩
    rw [(linkImports_entry hfresh h).entry, overwriteAll_range hm hhit hgreatest, hnames]
    rfl

/-- An import is faithful for every import object just when the last match has its very names. -/
theorem faithful_of_names (hfresh : ∀ f ∈ functions, f.compiled = none)
    (h : linkImports importObject functions = .ok linked) {i : Nat} {names : CString × CString}
    (hentry : linked.entry i = some (entryOf importObject names))
    (hnames : importNamesAt functions i = some (names.1.content, names.2.content)) :
    Faithful importObject functions linked i := by
  intro f moduleName fieldName hf hfn
  have heq : some (moduleName, fieldName) = some (names.1.content, names.2.content) := by
    rw [← hnames, importNamesAt, hf, Option.bind_some, hfn]
  have hlt : i < functions.length := (List.getElem?_eq_some_iff.mp hf).1
  have hsig := (linkImports_entry hfresh h).signature i hlt f hf (by rw [hfn]; rfl)
  cases heq
  exact ⟨_, hentry, fun slots sp => callImportedFunction_entryOf hsig names slots sp⟩

/-- An import object in which only one name pair selects a function. -/
def onlyImport (moduleName fieldName : List UInt8) : ImportObject :=
  .widening fun m => some fun n =>
    if m = forAscii moduleName ∧ n = forAscii fieldName then some 0 else none

theorem names_of_faithful {i : Nat} {names : CString × CString} {moduleName fieldName : CString}
    (hi : importNamesAt functions i = some (moduleName, fieldName))
    (hentry : linked.entry i = some (entryOf (onlyImport moduleName fieldName) names))
    (h : Faithful (onlyImport moduleName fieldName) functions linked i) :
    names.1.content = moduleName ∧ names.2.content = fieldName := by
  rcases Option.bind_eq_some_iff.mp hi with ⟨f, hf, hfn⟩
  rcases h f moduleName fieldName hf hfn with ⟨entry, he, hcall⟩
  have heq : entry = entryOf (onlyImport moduleName fieldName) names :=
    Option.some.inj (he.symm.trans hentry)
  have hself : (onlyImport moduleName fieldName).function moduleName fieldName = some 0 :=
    if_pos ⟨rfl, rfl⟩
  have hcall := hcall (fun _ => 0) 0
  rw [hself, heq] at hcall
  rcases hcall with ⟨args, hcall⟩
  -- with any other names the entry would have no function to call
  by_contra hne
  have hne' : ¬ (forAscii names.1.content = forAscii moduleName ∧
      forAscii names.2.content = forAscii fieldName) := fun h =>
    hne ⟨forAscii_injective h.1, forAscii_injective h.2⟩
  have hnone : resolveImport (onlyImport moduleName fieldName) names.1 names.2 = none := by
    rw [resolveImport]
    exact if_neg hne'
  cases (callImportedFunction_missing hnone _ _ _).symm.trans hcall

theorem dispatchSafe_of_faithful (hfresh : ∀ f ∈ functions, f.compiled = none)
    (hlinks : ∃ importObject linked, linkImports importObject functions = .ok linked)
    (hfaithful : ∀ importObject linked, linkImports importObject functions = .ok linked →
      ∀ i, Faithful importObject functions linked i) : DispatchSafe functions := by
  -- an import object in which only the import's own names select a function finds the last match
  have hlast : ∀ i moduleName fieldName,
      importNamesAt functions i = some (moduleName, fieldName) →
      ∃ m Mm Nm, importNamesAt functions m = some (Mm, Nm) ∧
        (∀ k, m < k → k < functions.length → linkHits functions k i = false) ∧
        Mm.content = moduleName ∧ Nm.content = fieldName := by
    intro i moduleName fieldName hi
    rcases hlinks with ⟨_, _, hlink⟩
    rcases linkImports_same (onlyImport moduleName fieldName) hlink with ⟨linked, hlinked⟩
    rcases linked_entry hfresh hlinked hi with ⟨m, Mm, Nm, _, hm, _, hlast, hentry⟩
    exact ⟨m, Mm, Nm, hm, hlast, names_of_faithful hi hentry (hfaithful _ _ hlinked i)⟩
  have hnul : ∀ i moduleName fieldName,
      importNamesAt functions i = some (moduleName, fieldName) →
      0 ∉ moduleName ∧ 0 ∉ fieldName := by
    intro i moduleName fieldName hi
    rcases hlast i moduleName fieldName hi with ⟨_, Mm, Nm, _, _, rfl, rfl⟩
    exact ⟨content_nulFree Mm, content_nulFree Nm⟩
  refine ⟨hnul, ?_⟩
  intro i j moduleName fieldName hij hi hj hne
  rcases hlast i moduleName fieldName hi with ⟨m, Mm, Nm, hm, hgreatest, hM, hN⟩
  rcases hnul m Mm Nm hm with ⟨hMm, hNm⟩
  rw [content_eq_self hMm] at hM
  rw [content_eq_self hNm] at hN
  subst hM
  subst hN
  have hhit : linkHits functions j i = true := (linkHits_iff hi hj).mpr ⟨rfl, .inl (by decide)⟩
  refine ⟨m, ?_, hm⟩
  -- the last match is not before the wildcard, and it is not the wildcard itself
  by_contra hle
  by_cases heq : m = j
  · rw [heq, hj] at hm
    cases hm
    exact hne rfl
  · rw [hgreatest j (by omega) (importIndex_lt hj)] at hhit
    cases hhit

/-- Where dispatch is safe, the last import that matches has the import's own names. -/
theorem names_of_lastMatch (hsafe : DispatchSafe functions) {i m : Nat}
    {moduleName fieldName Mm Nm : CString}
    (hi : importNamesAt functions i = some (moduleName, fieldName)) (him : i ≤ m)
    (hm : importNamesAt functions m = some (Mm, Nm)) (hhit : linkHits functions m i = true)
    (hgreatest : ∀ k, m < k → k < functions.length → linkHits functions k i = false) :
    moduleName = Mm.content ∧ fieldName = Nm.content := by
  rcases hsafe.nulFree i _ _ hi with ⟨hM, hN⟩
  rcases hsafe.nulFree m _ _ hm with ⟨hMm, hNm⟩
  have hmatch := (linkHits_iff hi hm).mp hhit
  rw [content_eq_self hM, content_eq_self hN, content_eq_self hMm, content_eq_self hNm] at hmatch
  rw [content_eq_self hMm, content_eq_self hNm]
  refine ⟨?_, hmatch.1⟩
  rcases hmatch.2 with hstar | hsame
  · -- taken over by a wildcard, the import would come once more after it
    by_contra hne
    have hlt : i < m := by
      apply Nat.lt_of_le_of_ne him
      rintro rfl
      cases hi.symm.trans hm
      exact hne rfl
    rcases hsafe.wildcard i m moduleName fieldName hlt hi (by rw [hm, hstar, hmatch.1])
      (fun h => hne (h.trans hstar.symm)) with ⟨k, hmk, hk⟩
    have hkhit : linkHits functions k i = true := (linkHits_iff hi hk).mpr ⟨rfl, .inr rfl⟩
    rw [hgreatest k hmk (importIndex_lt hk)] at hkhit
    cases hkhit
  · exact hsame

theorem importDispatch (hfresh : ∀ f ∈ functions, f.compiled = none)
    (hlinks : ∃ importObject linked, linkImports importObject functions = .ok linked) :
    (∀ importObject linked, linkImports importObject functions = .ok linked →
      ∀ i, Faithful importObject functions linked i) ↔ DispatchSafe functions := by
  constructor
  · intro hfaithful
    exact dispatchSafe_of_faithful hfresh hlinks hfaithful
  · intro hsafe importObject linked hlinked i f moduleName fieldName hf hfn
    have hi : importNamesAt functions i = some (moduleName, fieldName) := by
      rw [importNamesAt, hf, Option.bind_some, hfn]
    rcases linked_entry hfresh hlinked hi with ⟨m, Mm, Nm, him, hm, hhit, hgreatest, hentry⟩
    rcases names_of_lastMatch hsafe hi him hm hhit hgreatest with ⟨hmodule, hfield⟩
    refine faithful_of_names hfresh hlinked hentry ?_ f moduleName fieldName hf hfn
    rw [hi, hmodule, hfield]

/-- A function of no arguments and results, imported by name. -/
def importedFunction (moduleName fieldName : String) : M3Function :=
  { importInfo := ⟨some (ascii moduleName), some (ascii fieldName)⟩ }

theorem importDispatch_one :
    (∀ importObject linked,
      linkImports importObject [importedFunction "env" "log"] = .ok linked →
        ∀ i, Faithful importObject [importedFunction "env" "log"] linked i) ↔
      DispatchSafe [importedFunction "env" "log"] :=
  importDispatch (by decide) ⟨.empty, _, rfl⟩

/-- `env.log` followed by `*.log`: calling the first reaches the second's function. -/
theorem importDispatch_fails :
    ¬ ∀ importObject linked,
      linkImports importObject [importedFunction "env" "log", importedFunction "*" "log"] =
        .ok linked →
      ∀ i, Faithful importObject [importedFunction "env" "log", importedFunction "*" "log"]
        linked i := by
  intro h
  have hfaithful := h (onlyImport (ascii "env") (ascii "log")) _ rfl 0 _ _ _ rfl rfl
  rcases hfaithful with ⟨entry, hentry, hcall⟩
  cases hentry
  rcases hcall (fun _ => 0) 0 with ⟨args, hargs⟩
  have hmissing : callImportedFunction
      (entryOf (onlyImport (ascii "env") (ascii "log")) (ascii "*", ascii "log"))
      (importedFunction "env" "log").funcType (fun _ => 0) 0 =
        .raise (.missingImport (ascii "*") (ascii "log")) := by decide
  cases hmissing.symm.trans hargs

end WebAssemblyRuntime.Binding
