import WebAssemblyRuntime.Binding.JsValue
import WebAssemblyRuntime.Polyfill.Utf8
import WebAssemblyRuntime.Reasoning.Loops
import WebAssemblyRuntime.Reasoning.Overwrite
import WebAssemblyRuntime.Wasm3.Bind

/-!
# Imports — the link loop of `instantiate` and the trampoline it installs

The binding passes the names to JSI as C strings; what property name JSI makes of one is left open
but for ASCII.
-/

open WebAssemblyRuntime.Polyfill WebAssemblyRuntime.Reasoning WebAssemblyRuntime.Wasm3

namespace WebAssemblyRuntime.Binding

/-- `PropNameID::forAscii`. -/
def forAscii (name : List UInt8) : JsString := name.map UInt8.toUInt16

theorem forAscii_injective : Function.Injective forAscii := by
  apply List.map_injective_iff.mpr
  intro a b h
  exact UInt8.toUInt16_inj.mp h

/-- An import object, its property reads taken as pure. -/
structure ImportObject where
  /-- The property that `getProperty` reads when it is given these bytes. -/
  propertyName : List UInt8 → JsString
  ascii : ∀ name, (∀ b ∈ name, b < 0x80) → propertyName name = forAscii name
  /-- The value of a module name when it is an object, and in it the function a field name holds, if
  its value is one. -/
  properties : JsString → Option (JsString → Option Nat)

namespace ImportObject

/-- An object under an engine that widens every byte. -/
def widening (properties : JsString → Option (JsString → Option Nat)) : ImportObject :=
  ⟨forAscii, fun _ _ => rfl, properties⟩

/-- An object with no properties. -/
def empty : ImportObject := widening fun _ => none

/-- `importObject[moduleName][fieldName]`, when it is a function. -/
def function (importObject : ImportObject) (moduleName fieldName : List UInt8) : Option Nat :=
  (importObject.properties (importObject.propertyName moduleName)).bind fun fields =>
    fields (importObject.propertyName fieldName)

end ImportObject

structure ImportEntry where
  fn : Option Nat
  moduleName : List UInt8
  fieldName : List UInt8
  deriving DecidableEq, Repr

def valueTypeToChar : M3ValueType → Option Char
  | .i32 => some 'i'
  | .i64 => some 'I'
  | .f32 => some 'f'
  | .f64 => some 'F'
  | _ => none

/-- `buildSignature`, such as `i(if)`. -/
def buildSignature (funcType : M3FuncType) : Option (List Char) :=
  match funcType.rets with
  | [] => (funcType.args.mapM valueTypeToChar).map fun args => 'v' :: '(' :: args ++ [')']
  | [type] =>
    (valueTypeToChar type).bind fun c =>
      (funcType.args.mapM valueTypeToChar).map fun args => c :: '(' :: args ++ [')']
  | _ => none

/-- `resolveImport` on the two C strings. -/
def resolveImport (importObject : ImportObject) (moduleName fieldName : CString) : Option Nat :=
  match importObject.properties (importObject.propertyName moduleName.content) with
  | none => none
  | some fields => fields (importObject.propertyName fieldName.content)

/-- The functions while they are being linked, and `state->imports`. -/
structure LinkState where
  functions : List M3Function
  imports : List ImportEntry := []

/-- One iteration of the link loop; a function that is not imported is skipped. -/
def linkImport (importObject : ImportObject) (state : LinkState) (i : Nat) :
    Except JsException LinkState :=
  match state.functions[i]? with
  | none => .ok state
  | some f =>
    match f.importNames with
    | none => .ok state
    | some (moduleUtf8, fieldUtf8) =>
      match buildSignature f.funcType with
      | none => .error (.linkError moduleUtf8.content fieldUtf8.content none)
      | some signature =>
        let entry : ImportEntry :=
          { fn := resolveImport importObject moduleUtf8 fieldUtf8
            moduleName := moduleUtf8.content
            fieldName := fieldUtf8.content }
        -- missing imports are linked too, with a null fn
        match findAndLinkFunction state.functions moduleUtf8 fieldUtf8 signature
            state.imports.length with
        | (some e, _) => .error (.linkError moduleUtf8.content fieldUtf8.content (some e))
        | (none, functions) => .ok { functions, imports := state.imports ++ [entry] }

/-- The link loop over all functions of the module. -/
def linkImports (importObject : ImportObject) (functions : List M3Function) :
    Except JsException LinkState :=
  (List.range functions.length).foldlM (linkImport importObject) { functions }

/-- What the trampoline does before control is with JavaScript: raise, refuse, or call. -/
inductive ImportCall where
  | raise (e : JsException)
  | fail (e : M3Err)
  | call (fn : Nat) (args : List JsValue)
  deriving DecidableEq, Repr

/-- The argument values of a raw call at `sp`: the return slots come first. -/
def importArgs (funcType : M3FuncType) (slots : Slots) (sp : Nat) :
    Except JsException (List JsValue) :=
  funcType.args.zipIdx.mapM fun (type, i) =>
    slotToValue type (slots.read64 (sp + 2 * (funcType.rets.length + i)))

/-- `CallImportedFunction` up to the JavaScript call. -/
def callImportedFunction (entry : ImportEntry) (funcType : M3FuncType) (slots : Slots) (sp : Nat) :
    ImportCall :=
  match entry.fn with
  | none => .raise (.missingImport entry.moduleName entry.fieldName)
  | some fn =>
    if 1 < funcType.rets.length then .fail .tooManyArgsRets
    else match importArgs funcType slots sp with
      | .error e => .raise e
      | .ok args => .call fn args

theorem callImportedFunction_missing {entry : ImportEntry} (h : entry.fn = none)
    (funcType : M3FuncType) (slots : Slots) (sp : Nat) :
    callImportedFunction entry funcType slots sp =
      .raise (.missingImport entry.moduleName entry.fieldName) := by
  unfold callImportedFunction
  rw [h]

/-- All that the trampoline can do once there is a function to call. -/
theorem callImportedFunction_cases {entry : ImportEntry} {fn : Nat} (h : entry.fn = some fn)
    (funcType : M3FuncType) (slots : Slots) (sp : Nat) :
    (1 < funcType.rets.length ∧
      callImportedFunction entry funcType slots sp = .fail .tooManyArgsRets) ∨
    (∃ e, importArgs funcType slots sp = .error e ∧
      callImportedFunction entry funcType slots sp = .raise e) ∨
    ∃ args, importArgs funcType slots sp = .ok args ∧
      callImportedFunction entry funcType slots sp = .call fn args := by
  unfold callImportedFunction
  rw [h]
  simp only
  by_cases hrets : 1 < funcType.rets.length
  · rw [if_pos hrets]
    exact .inl ⟨hrets, rfl⟩
  · rw [if_neg hrets]
    cases importArgs funcType slots sp with
    | error e => exact .inr (.inl ⟨e, rfl, rfl⟩)
    | ok args => exact .inr (.inr ⟨args, rfl, rfl⟩)

/-! ## What linking leaves in the functions -/

/-- The entry a function's compiled code would call. -/
def LinkState.entry (state : LinkState) (i : Nat) : Option ImportEntry :=
  match state.functions[i]?.bind M3Function.compiled with
  | some (.rawFunction userdata) => state.imports[userdata]?
  | _ => none

/-- The entry made for an import of these names. -/
def entryOf (importObject : ImportObject) (names : CString × CString) : ImportEntry :=
  { fn := resolveImport importObject names.1 names.2
    moduleName := names.1.content
    fieldName := names.2.content }

/-- The names of the function at an index, when it is imported. -/
def importNamesAt (functions : List M3Function) (i : Nat) : Option (CString × CString) :=
  functions[i]?.bind M3Function.importNames

/-- Whether linking import `j` also links function `i`. -/
def linkHits (functions : List M3Function) (j i : Nat) : Bool :=
  match importNamesAt functions j, functions[i]? with
  | some (moduleName, fieldName), some f => linkMatches moduleName fieldName f
  | _, _ => false

/-- The part of a function that linking leaves alone. -/
def declared (f : M3Function) : M3ImportInfo × M3FuncType := (f.importInfo, f.funcType)

/-- The invariant of the link loop: names and types stay, every installed `userdata` is an index
of an entry, and what a function would call is decided by the writes so far. -/
structure LinkInv (importObject : ImportObject) (functions : List M3Function) (n : Nat)
    (state : LinkState) : Prop where
  signature : ∀ i < n, ∀ f, functions[i]? = some f → f.importNames.isSome →
    (buildSignature f.funcType).isSome
  declared : state.functions.map declared = functions.map declared
  userdata : ∀ i u : Nat, state.functions[i]?.bind M3Function.compiled = some (.rawFunction u) →
    u < state.imports.length
  entry : ∀ i, state.entry i = overwriteAll (linkHits functions)
    (fun j => (importNamesAt functions j).map (entryOf importObject)) (fun _ => none)
    (List.range n) i

variable {importObject : ImportObject} {functions functions' : List M3Function}

theorem importNames_of_declared {f g : M3Function} (h : declared f = declared g) :
    f.importNames = g.importNames := by
  have himport : f.importInfo = g.importInfo := congrArg Prod.fst h
  rw [M3Function.importNames, M3Function.importNames, himport]

theorem getElem?_declared (h : functions'.map declared = functions.map declared) (i : Nat) :
    functions'[i]?.map declared = functions[i]?.map declared := by
  rw [← List.getElem?_map, ← List.getElem?_map, h]

theorem linkHits_eq {i j : Nat} {f : M3Function} {moduleName fieldName : CString}
    (hj : importNamesAt functions j = some (moduleName, fieldName)) (hf : functions[i]? = some f) :
    linkHits functions j i = linkMatches moduleName fieldName f := by
  rw [linkHits, hj, hf]

theorem linkHits_not_imported {i j : Nat} (hj : importNamesAt functions j = none) :
    linkHits functions j i = false := by
  rw [linkHits, hj]

/-- Linking changes neither names nor types. -/
theorem declared_link (moduleName fieldName : CString) (u : Nat) (fs : List M3Function) :
    (linkAll moduleName fieldName u fs).map declared = fs.map declared := by
  rw [linkAll, List.map_map]
  apply List.map_congr_left
  intro f _
  by_cases hmatch : linkMatches moduleName fieldName f
  · simp only [Function.comp_apply, if_pos hmatch]
    rfl
  · simp only [Function.comp_apply, if_neg hmatch]

theorem linkMatches_of_declared {f g : M3Function} (h : declared f = declared g)
    (moduleName fieldName : CString) :
    linkMatches moduleName fieldName f = linkMatches moduleName fieldName g := by
  rw [linkMatches, linkMatches, importNames_of_declared h]

theorem importNamesAt_of_declared (h : functions'.map declared = functions.map declared) (i : Nat) :
    importNamesAt functions' i = importNamesAt functions i := by
  have hi := getElem?_declared h i
  unfold importNamesAt
  cases hf : functions[i]? with
  | none =>
    rw [hf] at hi
    rw [Option.map_eq_none_iff.mp hi]
  | some f =>
    rw [hf, Option.map_some] at hi
    rcases Option.map_eq_some_iff.mp hi with ⟨g, hg, hgf⟩
    rw [hg, Option.bind_some, Option.bind_some, importNames_of_declared hgf]

/-- What an import hits can be read off functions that are linked already. -/
theorem linkHits_of_declared (h : functions'.map declared = functions.map declared) {i j : Nat}
    {moduleName fieldName : CString}
    (hj : importNamesAt functions j = some (moduleName, fieldName)) :
    linkHits functions j i = functions'[i]?.any (linkMatches moduleName fieldName) := by
  have hi := getElem?_declared h i
  rw [linkHits, hj]
  cases hg : functions[i]? with
  | none =>
    rw [hg] at hi
    rw [Option.map_eq_none_iff.mp hi]
    rfl
  | some g =>
    rw [hg, Option.map_some] at hi
    rcases Option.map_eq_some_iff.mp hi with ⟨g', hg', hgg⟩
    rw [hg', Option.any_some, linkMatches_of_declared hgg]

/-- What an iteration of the loop can do: nothing at an index without an import, else link. -/
theorem linkImport_ok {state state' : LinkState} {n : Nat}
    (h : linkImport importObject state n = .ok state') :
    (importNamesAt state.functions n = none ∧ state' = state) ∨
      ∃ f names, state.functions[n]? = some f ∧ f.importNames = some names ∧
        (buildSignature f.funcType).isSome ∧
        state' =
          { functions := linkAll names.1 names.2 state.imports.length state.functions
            imports := state.imports ++ [entryOf importObject names] } := by
  unfold linkImport at h
  cases hf : state.functions[n]? with
  | none =>
    simp only [hf, Except.ok.injEq] at h
    exact .inl ⟨by rw [importNamesAt, hf, Option.bind_none], h.symm⟩
  | some f =>
    simp only [hf] at h
    cases hnames : f.importNames with
    | none =>
      simp only [hnames, Except.ok.injEq] at h
      exact .inl ⟨by rw [importNamesAt, hf, Option.bind_some, hnames], h.symm⟩
    | some names =>
      simp only [hnames] at h
      cases hsignature : buildSignature f.funcType with
      | none => simp [hsignature] at h
      | some signature =>
        simp only [hsignature] at h
        split at h
        · cases h
        · rename_i linked hlink
          cases h
          have hlinked := findAndLinkLoop_ok hlink
          subst hlinked
          exact .inr ⟨f, names, rfl, hnames, by rw [hsignature]; rfl, rfl⟩

/-- The functions after one successful link, seen through their entries. -/
theorem entry_link {state : LinkState} {moduleName fieldName : CString} {e : ImportEntry}
    (huserdata : ∀ i u : Nat, state.functions[i]?.bind M3Function.compiled =
      some (.rawFunction u) → u < state.imports.length) (i : Nat) :
    LinkState.entry
      { functions := linkAll moduleName fieldName state.imports.length state.functions
        imports := state.imports ++ [e] } i =
      if state.functions[i]?.any (linkMatches moduleName fieldName) then some e
      else state.entry i := by
  unfold LinkState.entry linkAll
  simp only [List.getElem?_map]
  cases hf : state.functions[i]? with
  | none => rfl
  | some f =>
    simp only [Option.map_some, Option.bind_some, Option.any_some]
    -- a match gets the new entry, at the end; the entries before it keep their indices
    by_cases hmatch : linkMatches moduleName fieldName f
    · simp only [if_pos hmatch, compileRawFunction]
      exact List.getElem?_concat_length
    · simp only [if_neg hmatch]
      cases hcode : f.compiled with
      | none => rfl
      | some code =>
        cases code with
        | wasm => rfl
        | rawFunction u =>
          have hlt : u < state.imports.length := by
            apply huserdata i u
            rw [hf, Option.bind_some, hcode]
          exact List.getElem?_append_left hlt

/-- Every userdata installed by one more link is the index of an entry. -/
theorem userdata_link {state : LinkState} {moduleName fieldName : CString} {e : ImportEntry}
    (huserdata : ∀ i u : Nat, state.functions[i]?.bind M3Function.compiled =
      some (.rawFunction u) → u < state.imports.length) (i u : Nat)
    (h : (linkAll moduleName fieldName state.imports.length state.functions)[i]?.bind
      M3Function.compiled = some (.rawFunction u)) :
    u < (state.imports ++ [e]).length := by
  rw [List.length_append, List.length_singleton]
  rw [linkAll, List.getElem?_map] at h
  cases hf : state.functions[i]? with
  | none => simp [hf] at h
  | some f =>
    rw [hf, Option.map_some, Option.bind_some] at h
    by_cases hmatch : linkMatches moduleName fieldName f
    · rw [if_pos hmatch, compileRawFunction] at h
      have hu : state.imports.length = u := by simpa using h
      omega
    · rw [if_neg hmatch] at h
      have hlt := huserdata i u (by rw [hf, Option.bind_some, h])
      omega

/-- The entries after one more iteration. -/
theorem LinkInv.entry_succ {state : LinkState} {n : Nat}
    (h : LinkInv importObject functions n state) (i : Nat) :
    overwriteAll (linkHits functions)
      (fun j => (importNamesAt functions j).map (entryOf importObject)) (fun _ => none)
      (List.range (n + 1)) i =
      if linkHits functions n i then (importNamesAt functions n).map (entryOf importObject)
      else state.entry i := by
  rw [List.range_succ, overwriteAll_append, h.entry i]
  rfl

theorem linkInv_skip {state : LinkState} {n : Nat} (h : LinkInv importObject functions n state)
    (hnone : importNamesAt functions n = none) : LinkInv importObject functions (n + 1) state where
  signature := by
    intro i hi f hf himport
    by_cases hin : i = n
    -- the function at `n` is not imported
    · rw [importNamesAt, ← hin, hf, Option.bind_some] at hnone
      simp [hnone] at himport
    · exact h.signature i (by omega) f hf himport
  declared := h.declared
  userdata := h.userdata
  entry := by
    intro i
    rw [h.entry_succ, linkHits_not_imported hnone]
    rfl

theorem linkInv_link {state : LinkState} {n : Nat} {f : M3Function} {names : CString × CString}
    (h : LinkInv importObject functions n state) (hf : state.functions[n]? = some f)
    (hnames : f.importNames = some names) (hsignature : (buildSignature f.funcType).isSome) :
    LinkInv importObject functions (n + 1)
      { functions := linkAll names.1 names.2 state.imports.length state.functions
        imports := state.imports ++ [entryOf importObject names] } where
  signature := by
    intro i hi g hg himport
    by_cases hin : i = n
    · have hn := getElem?_declared h.declared n
      rw [hf, ← hin, hg] at hn
      have htype : f.funcType = g.funcType := congrArg Prod.snd (Option.some.inj hn)
      rw [← htype]
      exact hsignature
    · exact h.signature i (by omega) g hg himport
  declared := (declared_link _ _ _ _).trans h.declared
  userdata := userdata_link h.userdata
  entry := by
    intro i
    have hn : importNamesAt functions n = some names := by
      rw [← importNamesAt_of_declared h.declared, importNamesAt, hf, Option.bind_some, hnames]
    rw [h.entry_succ, entry_link h.userdata, linkHits_of_declared h.declared hn, hn]
    rfl

/-- One iteration is one write: it hits what the matcher accepts. -/
theorem linkImport_inv {state state' : LinkState} {n : Nat}
    (h : LinkInv importObject functions n state)
    (hstep : linkImport importObject state n = .ok state') :
    LinkInv importObject functions (n + 1) state' := by
  rcases linkImport_ok hstep with ⟨hnone, rfl⟩ | ⟨f, names, hf, hnames, hsignature, rfl⟩
  · rw [importNamesAt_of_declared h.declared] at hnone
    exact linkInv_skip h hnone
  · exact linkInv_link h hf hnames hsignature

/-- After the loop every function calls the entry of the last import that matched it. -/
theorem linkImports_entry (hfresh : ∀ f ∈ functions, f.compiled = none) {linked : LinkState}
    (h : linkImports importObject functions = .ok linked) :
    LinkInv importObject functions functions.length linked := by
  have hnone : ∀ i : Nat, functions[i]?.bind M3Function.compiled = none := by
    intro i
    cases hf : functions[i]? with
    | none => rfl
    | some f => exact hfresh f (List.mem_of_getElem? hf)
  have hinit : LinkInv importObject functions 0 { functions } := by
    refine ⟨fun i hi => absurd hi (Nat.not_lt_zero i), rfl, fun i u hu => ?_, fun i => ?_⟩
    · simp only [hnone] at hu
      cases hu
    · simp only [LinkState.entry, hnone]
      rfl
  unfold linkImports at h
  rw [List.range_eq_range'] at h
  have hend := foldlM_invariant (fun _ _ _ => linkImport_inv) hinit h
  rwa [Nat.zero_add] at hend

/-! ## What linking leaves alone -/

/-- A function before and after `n` iterations of the link loop, at index `i`: imports are linked,
by their own iteration at the latest. -/
def LinkedFrom (n i : Nat) (f f' : M3Function) : Prop :=
  f' = f ∧ (f.importNames.isSome → n ≤ i) ∨
    f.importNames.isSome ∧ ∃ userdata, f' = compileRawFunction f userdata

structure LinkFrame (functions : List M3Function) (n : Nat) (state : LinkState) : Prop where
  length : state.functions.length = functions.length
  functions : ∀ (i : Nat) f f', functions[i]? = some f → state.functions[i]? = some f' →
    LinkedFrom n i f f'

theorem strcmpEq_self (a : CString) : strcmpEq a a := decide_eq_true rfl

/-- An import's own iteration finds it. -/
theorem linkMatches_self {f : M3Function} {moduleUtf8 fieldUtf8 : CString}
    (h : f.importNames = some (moduleUtf8, fieldUtf8)) : linkMatches moduleUtf8 fieldUtf8 f := by
  unfold linkMatches
  rw [h]
  show (strcmpEq fieldUtf8 fieldUtf8 && (_ || strcmpEq moduleUtf8 moduleUtf8)) = true
  rw [strcmpEq_self, strcmpEq_self, Bool.or_true, Bool.and_true]

theorem importNames_of_linkMatches {f : M3Function} {moduleUtf8 fieldUtf8 : CString}
    (h : linkMatches moduleUtf8 fieldUtf8 f) : f.importNames.isSome := by
  unfold linkMatches at h
  cases hnames : f.importNames with
  | none =>
    rw [hnames] at h
    cases h
  | some names => rfl

theorem LinkedFrom.importNames {n i : Nat} {f f' : M3Function} (h : LinkedFrom n i f f') :
    f'.importNames = f.importNames := by
  rcases h with ⟨rfl, -⟩ | ⟨-, u, rfl⟩
  · rfl
  · rfl

/-- An iteration that links nothing is at an index without an import. -/
theorem linkFrame_skip {state : LinkState} {n : Nat} (h : LinkFrame functions n state)
    (hnone : importNamesAt state.functions n = none) : LinkFrame functions (n + 1) state where
  length := h.length
  functions := by
    intro i f f' hf hf'
    rcases h.functions i f f' hf hf' with ⟨rfl, hle⟩ | hlinked
    · refine .inl ⟨rfl, fun himport => ?_⟩
      -- an import that is not linked yet comes after `n`
      apply Nat.lt_of_le_of_ne (hle himport)
      rintro rfl
      rw [importNamesAt, hf', Option.bind_some] at hnone
      rw [hnone] at himport
      cases himport
    · exact .inr hlinked

theorem linkFrame_link {state : LinkState} {n : Nat} {fn : M3Function} {names : CString × CString}
    (h : LinkFrame functions n state) (hn : state.functions[n]? = some fn)
    (hnames : fn.importNames = some names) (e : ImportEntry) :
    LinkFrame functions (n + 1)
      { functions := linkAll names.1 names.2 state.imports.length state.functions
        imports := state.imports ++ [e] } where
  length := (List.length_map _).trans h.length
  functions := by
    intro i f f' hf hf'
    simp only [linkAll, List.getElem?_map] at hf'
    rcases Option.map_eq_some_iff.mp hf' with ⟨g, hg, rfl⟩
    have hfrom := h.functions i f g hf hg
    by_cases hmatch : linkMatches names.1 names.2 g
    · have himport : f.importNames.isSome := hfrom.importNames ▸ importNames_of_linkMatches hmatch
      rw [if_pos hmatch]
      refine .inr ⟨himport, state.imports.length, ?_⟩
      rcases hfrom with ⟨rfl, -⟩ | ⟨-, u, rfl⟩
      · rfl
      · rfl
    · rw [if_neg hmatch]
      rcases hfrom with ⟨rfl, hle⟩ | hlinked
      · refine .inl ⟨rfl, fun himport => ?_⟩
        -- the import at `n` itself matches its own names
        apply Nat.lt_of_le_of_ne (hle himport)
        rintro rfl
        cases hn.symm.trans hg
        exact hmatch (linkMatches_self hnames)
      · exact .inr hlinked

theorem linkImport_frame {state state' : LinkState} {n : Nat} (h : LinkFrame functions n state)
    (hstep : linkImport importObject state n = .ok state') : LinkFrame functions (n + 1) state' := by
  rcases linkImport_ok hstep with ⟨hnone, rfl⟩ | ⟨f, names, hf, hnames, -, rfl⟩
  · exact linkFrame_skip h hnone
  · exact linkFrame_link h hf hnames _

/-- After the loop exactly the imports are linked. -/
theorem linkImports_frame {linked : LinkState} (h : linkImports importObject functions = .ok linked) :
    LinkFrame functions functions.length linked := by
  have hinit : LinkFrame functions 0 { functions } := by
    refine ⟨rfl, fun i f f' hf hf' => .inl ⟨?_, fun _ => Nat.zero_le _⟩⟩
    exact Option.some.inj (hf'.symm.trans hf)
  unfold linkImports at h
  rw [List.range_eq_range'] at h
  have hend := foldlM_invariant (fun _ _ _ => linkImport_frame) hinit h
  rwa [Nat.zero_add] at hend

/-! ## Whether linking succeeds does not depend on the import object -/

/-- Two link states that differ in the imports' functions at most. -/
def SameLinks (s t : LinkState) : Prop :=
  s.functions = t.functions ∧ s.imports.length = t.imports.length

theorem linkImport_same (importObject' : ImportObject) {s s' t : LinkState} {n : Nat}
    (hst : SameLinks s t) (h : linkImport importObject s n = .ok s') :
    ∃ t', linkImport importObject' t n = .ok t' ∧ SameLinks s' t' := by
  rcases hst with ⟨hfunctions, hlength⟩
  unfold linkImport at h ⊢
  rw [← hfunctions, ← hlength]
  cases hf : s.functions[n]? with
  | none =>
    simp only [hf, Except.ok.injEq] at h
    exact ⟨t, rfl, h ▸ ⟨hfunctions, hlength⟩⟩
  | some f =>
    simp only [hf] at h ⊢
    cases hnm : f.importNames with
    | none =>
      simp only [hnm, Except.ok.injEq] at h
      exact ⟨t, rfl, h ▸ ⟨hfunctions, hlength⟩⟩
    | some names =>
      simp only [hnm] at h ⊢
      cases hsig : buildSignature f.funcType with
      | none => simp [hsig] at h
      | some signature =>
        simp only [hsig] at h ⊢
        cases hlink : findAndLinkFunction s.functions names.1 names.2 signature
            s.imports.length with
        | mk result linked =>
          cases result with
          | some e => simp [hlink] at h
          | none =>
            simp only [hlink, Except.ok.injEq] at h ⊢
            subst h
            refine ⟨_, rfl, rfl, ?_⟩
            simp only [List.length_append, List.length_singleton, hlength]

theorem linkImports_same (importObject' : ImportObject) {linked : LinkState}
    (h : linkImports importObject functions = .ok linked) :
    ∃ linked', linkImports importObject' functions = .ok linked' := by
  have hloop : ∀ (indices : List Nat) (s t : LinkState), SameLinks s t →
      ∀ s', indices.foldlM (linkImport importObject) s = .ok s' →
        ∃ t', indices.foldlM (linkImport importObject') t = .ok t' := by
    intro indices
    induction indices with
    | nil => exact fun s t _ s' _ => ⟨t, rfl⟩
    | cons n rest ih =>
      intro s t hst s' hs
      rw [List.foldlM_cons] at hs ⊢
      cases hstep : linkImport importObject s n with
      | error e => simp [hstep, bind, Except.bind] at hs
      | ok middle =>
        rw [hstep] at hs
        rcases linkImport_same importObject' hst hstep with ⟨middle', hstep', hsame⟩
        rw [hstep']
        exact ih middle middle' hsame s' hs
  exact hloop _ _ _ ⟨rfl, rfl⟩ linked h

end WebAssemblyRuntime.Binding
