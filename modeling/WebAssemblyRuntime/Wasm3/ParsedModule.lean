import WebAssemblyRuntime.Wasm3.Sections

/-!
# ParsedModule — what module bytes say about the module parsed from them

`sectionsOf` splits module bytes into sections; `ParsedSections` is the run of the parser over them.
From the contents of its sections follow what memory a parsed module declares and which of its
functions have a body.
-/

open WebAssemblyRuntime.Reasoning

namespace WebAssemblyRuntime.Wasm3

/-- The sections of a module after its header, up to the first malformed one. -/
def sectionsOf (pos : Bytes) : List (UInt8 × Bytes) :=
  match pos with
  | [] => []
  | id :: pos₁ =>
    match h : readLEBu32 pos₁ with
    | .error _ => []
    | .ok (sectionLength, pos₂) =>
      have := readLEBu32_shrinks h
      (id, pos₂.take sectionLength.toNat) :: sectionsOf (pos₂.drop sectionLength.toNat)
termination_by pos.length
decreasing_by
  rw [List.length_drop, List.length_cons]
  omega

/-- The contents of the first section with this id. -/
def sectionWith (id : UInt8) (moduleBytes : Bytes) : Option Bytes :=
  ((sectionsOf (moduleBytes.drop 8)).find? (·.1 = id)).map Prod.snd

/-! ## The run over the sections -/

variable {e e' : Nat} {m m' : M3Module} {pos bytes : Bytes} {sections : List (UInt8 × Bytes)}

/-- The sections the parser went through, with their contents: `e` is the place in the order from
which it looked for the next one. -/
inductive ParsedSections : Nat → M3Module → Bytes → List (UInt8 × Bytes) → M3Module → Prop where
  | nil {e : Nat} {m : M3Module} : ParsedSections e m [] [] m
  | cons {e e' : Nat} {m m₁ m' : M3Module} {id : UInt8} {pos rest : Bytes} {n : UInt32}
      {sections : List (UInt8 × Bytes)}
      (horder : (if id ≠ 0 then seekSection id e else .ok e) = .ok e')
      (hsize : readLEBu32 pos = .ok (n, rest)) (hroom : n.toNat ≤ rest.length)
      (hparse : parseModuleSection m id (rest.take n.toNat) = .ok m₁)
      (hrest : ParsedSections e' m₁ (rest.drop n.toNat) sections m') :
      ParsedSections e m (id :: pos) ((id, rest.take n.toNat) :: sections) m'

theorem parseSections_ok (h : parseSections m e pos = .ok m') :
    ∃ sections, ParsedSections e m pos sections m' := by
  fun_induction parseSections m e pos with
  | case1 =>
    cases h
    exact ⟨[], .nil⟩
  | case2 | case3 | case4 | case5 | case6 => cases h
  | case7 m e pos _ id pos₁ hid e' horder n rest hsize _ _ hroom m₁ hparse ih =>
    rcases ih h with ⟨sections, hsections⟩
    rw [(readLEBu7_ok hid).1]
    exact ⟨_, .cons horder hsize (Nat.le_of_not_lt hroom) hparse hsections⟩

theorem sectionsOf_parsed (h : ParsedSections e m pos sections m') : sectionsOf pos = sections := by
  induction h with
  | nil => rw [sectionsOf]
  | cons _ hsize _ _ _ ih =>
    rw [sectionsOf]
    split
    · rename_i herror
      cases hsize.symm.trans herror
    · rename_i hok
      cases hsize.symm.trans hok
      rw [ih]

theorem parsed_lengths (h : ParsedSections e m pos sections m') :
    m.functions.length ≤ m'.functions.length ∧ m.globals.length ≤ m'.globals.length := by
  induction h with
  | nil => exact ⟨Nat.le_refl _, Nat.le_refl _⟩
  | cons _ _ _ hparse _ ih =>
    have hstep := parseModuleSection_step hparse
    exact ⟨Nat.le_trans hstep.functions ih.1, Nat.le_trans hstep.globals ih.2⟩

/-- Every section found in module bytes the parser accepts was parsed on the way. -/
theorem found_parsed {wanted : UInt8} (h : ParsedSections e m pos sections m')
    (hfound : (sections.find? (·.1 = wanted)).map Prod.snd = some bytes) :
    ∃ m₁ m₂ e₂ pos₂ rest, parseModuleSection m₁ wanted bytes = .ok m₂ ∧
      ParsedSections e₂ m₂ pos₂ rest m' := by
  induction h with
  | nil => cases hfound
  | @cons _ _ _ _ _ id pos rest n sections _ _ _ hparse hrest ih =>
    rw [List.find?_cons] at hfound
    by_cases hid : id = wanted
    · rw [decide_eq_true hid] at hfound
      cases hfound
      exact ⟨_, _, _, _, _, hid ▸ hparse, hrest⟩
    · rw [decide_eq_false hid] at hfound
      exact ih hfound

/-- Bytes the parser accepts are a header and sections. -/
theorem m3ParseModule_ok {moduleBytes : Bytes} (h : m3ParseModule moduleBytes = .ok m') :
    8 ≤ moduleBytes.length ∧ ∃ sections, ParsedSections 0 {} (moduleBytes.drop 8) sections m' := by
  rcases bind_ok h with ⟨⟨magic, pos⟩, hmagic, h⟩
  rcases bind_ok h with ⟨⟨version, pos'⟩, hversion, h⟩
  rcases bind_ok h with ⟨-, -, h⟩
  rcases bind_ok h with ⟨-, -, hsections⟩
  unfold readU32 at hmagic hversion
  split at hmagic
  · cases hmagic
    split at hversion
    · cases hversion
      refine ⟨?_, parseSections_ok hsections⟩
      simp only [List.length_cons]
      omega
    · cases hversion
  · cases hmagic

/-! ## The order of sections -/

theorem seekSection_ok {id : UInt8} (h : seekSection id e = .ok e') :
    e < e' ∧ sectionsOrder[e' - 1]? = some id := by
  fun_induction seekSection id e with
  | case1 e hfound =>
    cases h
    exact ⟨Nat.lt_succ_self e, hfound⟩
  | case2 => cases h
  | case3 e _ _ ih =>
    rcases ih h with ⟨hlt, hfound⟩
    exact ⟨Nat.lt_of_succ_lt hlt, hfound⟩

/-- A section that is found is found at its place. -/
theorem seekSection_place {id : UInt8} {k : Nat} (h : seekSection id e = .ok e')
    (hplace : sectionsOrder[k]? = some id) : e ≤ k ∧ e' = k + 1 := by
  rcases seekSection_ok h with ⟨hlt, hfound⟩
  -- an id stands at one place of the table only
  have hbound : e' - 1 < sectionsOrder.length := (List.getElem?_eq_some_iff.mp hfound).1
  have hsame : e' - 1 = k :=
    (List.getElem?_inj hbound (by decide)).mp (hfound.trans hplace.symm)
  omega

theorem order_le {id : UInt8} (h : (if id ≠ 0 then seekSection id e else .ok e) = .ok e') :
    e ≤ e' := by
  by_cases hid : id ≠ 0
  · rw [if_pos hid] at h
    exact Nat.le_of_lt (seekSection_ok h).1
  · rw [if_neg hid] at h
    cases h
    exact Nat.le_refl _

/-- No place from `e` on is that of this section. -/
def Past (id : UInt8) (e : Nat) : Prop := ∀ i, e ≤ i → sectionsOrder[i]? ≠ some id

theorem past_of_seek {id : UInt8} (h : seekSection id e = .ok e') : Past id e' := by
  intro i hi heq
  have hplace := seekSection_place h heq
  omega

/-- Sections other than custom ones come once. -/
theorem absent_of_past {wanted : UInt8} (hwanted : wanted ≠ 0)
    (h : ParsedSections e m pos sections m') (hpast : Past wanted e) :
    sections.find? (·.1 = wanted) = none := by
  induction h with
  | nil => rfl
  | @cons e e' _ _ _ id _ _ _ _ horder _ _ _ _ ih =>
    -- finding it again would take a place that is past
    have hid : id ≠ wanted := by
      rintro rfl
      rw [if_pos hwanted] at horder
      rcases seekSection_ok horder with ⟨hlt, hfound⟩
      exact hpast (e' - 1) (by omega) hfound
    rw [List.find?_cons, decide_eq_false hid]
    apply ih
    intro i hi
    exact hpast i (Nat.le_trans (order_le horder) hi)

/-! ## The memory -/

/-- The memory a memory section declares. -/
def memorySection (bytes : Bytes) : M3MemoryInfo :=
  match parseSectionMemory {} bytes with
  | .ok m => m.memoryInfo
  | .error _ => {}

/-- The memory a module declares; nothing when it has no memory section. -/
def declaredMemory (moduleBytes : Bytes) : M3MemoryInfo :=
  (sectionWith 5 moduleBytes).elim {} memorySection

theorem parseSectionMemory_info (hinfo : m.memoryInfo = {})
    (h : parseSectionMemory m bytes = .ok m') : m'.memoryInfo = memorySection bytes := by
  rcases bind_ok h with ⟨⟨numMemories, payload⟩, hcount, h⟩
  rcases bind_ok h with ⟨u, hcond, h⟩
  cases h
  show (parseTypeMemory m.memoryInfo payload).2.1 = _
  unfold memorySection parseSectionMemory
  rw [hcount]
  simp only [bind, Except.bind, hcond]
  rw [hinfo]

theorem parsed_memoryImported (h : ParsedSections e m pos sections m')
    (himported : m'.memoryImported = false) : m.memoryImported = false := by
  induction h with
  | nil => exact himported
  | cons _ _ _ hparse _ ih => exact (parseModuleSection_step hparse).memoryImported (ih himported)

/-- Sections other than the memory section leave the memory alone. -/
theorem parsed_memoryInfo_kept (h : ParsedSections e m pos sections m')
    (himported : m'.memoryImported = false) (habsent : sections.find? (·.1 = 5) = none) :
    m'.memoryInfo = m.memoryInfo := by
  induction h with
  | nil => rfl
  | @cons _ _ _ _ _ id _ _ _ _ _ _ _ hparse hrest ih =>
    rw [List.find?_cons] at habsent
    by_cases hid : id = 5
    · rw [decide_eq_true hid] at habsent
      cases habsent
    · rw [decide_eq_false hid] at habsent
      rw [ih himported habsent]
      exact (parseModuleSection_step hparse).memoryInfo hid (parsed_memoryImported hrest himported)

theorem parsed_memoryInfo (h : ParsedSections e m pos sections m')
    (himported : m'.memoryImported = false) (hinfo : m.memoryInfo = {}) :
    m'.memoryInfo = ((sections.find? (·.1 = 5)).map Prod.snd).elim {} memorySection := by
  induction h with
  | nil => exact hinfo
  | @cons _ _ _ _ _ id _ _ _ _ horder _ _ hparse hrest ih =>
    rw [List.find?_cons]
    -- there is no other memory section after this one
    by_cases hid : id = 5
    · subst hid
      rw [if_pos (by decide)] at horder
      rw [parsed_memoryInfo_kept hrest himported (absent_of_past (by decide) hrest (past_of_seek horder)),
        decide_eq_true rfl]
      exact parseSectionMemory_info hinfo hparse
    · rw [decide_eq_false hid]
      apply ih himported
      rw [(parseModuleSection_step hparse).memoryInfo hid (parsed_memoryImported hrest himported),
        hinfo]

/-- A parsed module without an imported memory has the memory its bytes declare. -/
theorem parsedModule_memory {moduleBytes : Bytes} (h : m3ParseModule moduleBytes = .ok m')
    (himported : m'.memoryImported = false) : m'.memoryInfo = declaredMemory moduleBytes := by
  rcases m3ParseModule_ok h with ⟨-, sections, hparsed⟩
  rw [declaredMemory, sectionWith, sectionsOf_parsed hparsed]
  exact parsed_memoryInfo hparsed himported rfl

theorem parsed_table0 (h : ParsedSections e m pos sections m') : m'.table0 = m.table0 := by
  induction h with
  | nil => rfl
  | cons _ _ _ hparse _ ih => rw [ih, (parseModuleSection_step hparse).table0]

theorem parsedModule_table0 {moduleBytes : Bytes} (h : m3ParseModule moduleBytes = .ok m') :
    m'.table0 = [] := by
  rcases m3ParseModule_ok h with ⟨-, sections, hparsed⟩
  exact parsed_table0 hparsed

/-! ## Bodies -/

/-- Which functions of a module have a body, by their place among those not imported. -/
def moduleBodies (moduleBytes : Bytes) : List Bool :=
  (sectionWith 10 moduleBytes).elim [] fun bytes => (codeEntries bytes).toOption.getD []

/-- What is known of the function at an index: it has a module if it has a body, and it is imported
if it comes first. -/
def Declared (numFuncImports : Nat) (entries : List Bool) (i : Nat)
    (l : Bool × Option (CString × CString) × Option M3Code) : Prop :=
  l.1 = hasBody numFuncImports entries i ∧ (l.2.1.isSome ↔ i < numFuncImports) ∧ l.2.2 = none

/-- The invariant of the section loop, with the entries of the code section if it has been read;
imports and declared functions are only counted apart as long as they come in this order. -/
structure DeclaredInv (e : Nat) (entries : List Bool) (m : M3Module) : Prop where
  linkage : ∀ i l, m.linkage[i]? = some l → Declared m.numFuncImports entries i l
  count : m.numFuncImports ≤ m.functions.length
  beforeFunctions : e ≤ 2 → m.functions.length = m.numFuncImports
  beforeCode : e ≤ 10 → entries = []

theorem hasBody_nil (numFuncImports i : Nat) : hasBody numFuncImports [] i = false := by
  unfold hasBody
  rw [List.getD_nil, Bool.and_false]

theorem DeclaredInv.kept {entries : List Bool} {id : UInt8} (h : DeclaredInv e entries m)
    (hle : e ≤ e') (hstep : SectionStep id m m') (h2 : id ≠ 2) (h3 : id ≠ 3) (h10 : id ≠ 10) :
    DeclaredInv e' entries m' := by
  have hlinkage := hstep.linkage h2 h3 h10
  have hcount := hstep.numFuncImports h2
  have hlength := length_of_linkage hlinkage
  constructor
  · rw [hlinkage, hcount]
    exact h.linkage
  · rw [hcount, hlength]
    exact h.count
  · intro he
    rw [hcount, hlength]
    exact h.beforeFunctions (Nat.le_trans hle he)
  · exact fun he => h.beforeCode (Nat.le_trans hle he)

/-- Functions added at the end, all imported or none. -/
theorem declared_append {fs : List M3Function} {count : Nat} (himported : Bool)
    (h : ∀ i l, m.linkage[i]? = some l → Declared m.numFuncImports [] i l)
    (hfs : ∀ f ∈ fs, f.Bare ∧ f.importNames.isSome = himported)
    (hold : ∀ i < m.functions.length, (i < m.numFuncImports ↔ i < count))
    (hnew : ∀ i, m.functions.length ≤ i → i < m.functions.length + fs.length →
      (himported ↔ i < count)) (i : Nat) (l : Bool × Option (CString × CString) × Option M3Code)
    (hl : ((m.functions ++ fs).map M3Function.linkage)[i]? = some l) : Declared count [] i l := by
  rw [List.map_append] at hl
  -- an old function keeps what it had; a new one has neither a body nor code
  by_cases hi : i < m.functions.length
  · rw [List.getElem?_append_left (by rw [List.length_map]; exact hi)] at hl
    rcases h i l hl with ⟨hmodule, hnames, hcode⟩
    rw [hasBody_nil] at hmodule
    refine ⟨?_, ?_, hcode⟩
    · rw [hmodule, hasBody_nil]
    · rw [hnames, hold i hi]
  · rw [List.getElem?_append_right (by rw [List.length_map]; omega), List.getElem?_map,
      List.length_map] at hl
    rcases Option.map_eq_some_iff.mp hl with ⟨f, hf, rfl⟩
    rcases hfs f (List.mem_of_getElem? hf) with ⟨⟨hmodule, hcode⟩, hnames⟩
    have hbound : i - m.functions.length < fs.length := (List.getElem?_eq_some_iff.mp hf).1
    refine ⟨?_, ?_, hcode⟩
    · rw [hasBody_nil]
      exact hmodule
    · show f.importNames.isSome ↔ _
      rw [hnames]
      exact hnew i (Nat.le_of_not_lt hi) (by omega)

theorem DeclaredInv.import {entries : List Bool} (h : DeclaredInv e entries m)
    (horder : seekSection 2 e = .ok e') (hparse : Imported m m') : DeclaredInv e' entries m' := by
  have hplace := seekSection_place horder (k := 1) rfl
  have hentries := h.beforeCode (by omega)
  -- no function is declared yet, so the imports stay in front
  have hall := h.beforeFunctions (by omega)
  rcases hparse.functions with ⟨fs, hfs, hcount, hbare⟩
  have hlength : m'.functions.length = m'.numFuncImports := by
    rw [hfs, List.length_append, hall, hcount]
  constructor
  · rw [hentries] at h ⊢
    rw [M3Module.linkage, hfs]
    apply declared_append true h.linkage hbare
    · intro i hi
      omega
    · intro i hle hlt
      rw [hcount]
      simp only [true_iff]
      omega
  · exact Nat.le_of_eq hlength.symm
  · exact fun _ => hlength
  · exact fun _ => hentries

theorem DeclaredInv.function {entries : List Bool} {fs : List M3Function}
    (h : DeclaredInv e entries m) (horder : seekSection 3 e = .ok e')
    (hbare : ∀ f ∈ fs, f.Bare ∧ f.importNames = none) :
    DeclaredInv e' entries { m with functions := m.functions ++ fs } := by
  have hplace := seekSection_place horder (k := 2) rfl
  have hentries := h.beforeCode (by omega)
  have hcount := h.count
  constructor
  · rw [hentries] at h ⊢
    apply declared_append false h.linkage
    · intro f hf
      rw [(hbare f hf).2]
      exact ⟨(hbare f hf).1, rfl⟩
    · intro i _
      exact Iff.rfl
    · intro i hle _
      show _ ↔ i < m.numFuncImports
      simp only [Bool.false_eq_true, false_iff]
      omega
  · show m.numFuncImports ≤ (m.functions ++ fs).length
    rw [List.length_append]
    omega
  · intro h
    omega
  · exact fun _ => hentries

theorem DeclaredInv.code {entries entries' : List Bool} (h : DeclaredInv e entries m)
    (horder : seekSection 10 e = .ok e') (hframe : m' = { m with functions := m'.functions })
    (hlinkage : m'.linkage = m.functions.mapIdx (bodyLinkage m.numFuncImports entries')) :
    DeclaredInv e' entries' m' := by
  have hplace := seekSection_place horder (k := 10) rfl
  have hcount : m'.numFuncImports = m.numFuncImports := by rw [hframe]
  have hlength := congrArg List.length hlinkage
  rw [M3Module.linkage, List.length_map, List.length_mapIdx] at hlength
  constructor
  · intro i l hl
    rw [hlinkage, List.getElem?_mapIdx] at hl
    rcases Option.map_eq_some_iff.mp hl with ⟨f, hf, rfl⟩
    rcases h.linkage i f.linkage (by rw [M3Module.linkage, List.getElem?_map, hf]; rfl) with
      ⟨hmodule, hnames, hcode⟩
    -- no function had a body before this section
    have hmodule : f.module = false := by
      rw [h.beforeCode (by omega), hasBody_nil] at hmodule
      exact hmodule
    rw [hcount]
    refine ⟨?_, hnames, hcode⟩
    rw [bodyLinkage, hmodule, Bool.false_or]
  · rw [hcount, hlength]
    exact h.count
  · intro h
    omega
  · intro h
    omega

theorem parsed_declared {entries : List Bool} (h : ParsedSections e m pos sections m')
    (hinv : DeclaredInv e entries m) :
    ∃ e', DeclaredInv e' (((sections.find? (·.1 = 10)).map Prod.snd).elim entries
      fun bytes => (codeEntries bytes).toOption.getD []) m' := by
  induction h generalizing entries with
  | nil => exact ⟨_, hinv⟩
  | @cons e e₁ m m₁ _ id _ rest n _ horder _ _ hparse hrest ih =>
    rw [List.find?_cons]
    -- the sections that touch functions are those of code, imports and functions
    by_cases h10 : id = 10
    · subst h10
      rw [if_pos (by decide)] at horder
      rcases parseSectionCode_ok hparse with ⟨hframe, entries', hentries, hlinkage⟩
      have hlast := ih (hinv.code horder hframe hlinkage)
      rw [absent_of_past (by decide) hrest (past_of_seek horder)] at hlast
      rw [decide_eq_true rfl]
      show ∃ e', DeclaredInv e' ((codeEntries (rest.take n.toNat)).toOption.getD []) _
      rw [hentries]
      exact hlast
    · rw [decide_eq_false h10]
      apply ih
      by_cases h2 : id = 2
      · subst h2
        rw [if_pos (by decide)] at horder
        exact hinv.import horder (parseSectionImport_ok hparse)
      · by_cases h3 : id = 3
        · subst h3
          rw [if_pos (by decide)] at horder
          rcases parseSectionFunction_ok hparse with ⟨fs, rfl, hbare⟩
          exact hinv.function horder hbare
        · exact hinv.kept (order_le horder) (parseModuleSection_step hparse) h2 h3 h10

/-- In a parsed module exactly the functions with a body have their module set, and exactly the
first `numFuncImports` are imported. -/
theorem parsedModule_declared {moduleBytes : Bytes} (h : m3ParseModule moduleBytes = .ok m')
    {i : Nat} {f : M3Function} (hf : m'.functions[i]? = some f) :
    Declared m'.numFuncImports (moduleBodies moduleBytes) i f.linkage := by
  rcases m3ParseModule_ok h with ⟨-, sections, hparsed⟩
  have hinit : DeclaredInv 0 [] {} :=
    ⟨fun _ _ h => (nomatch h), Nat.le_refl _, fun _ => rfl, fun _ => rfl⟩
  rcases parsed_declared hparsed hinit with ⟨e', hinv⟩
  rw [moduleBodies, sectionWith, sectionsOf_parsed hparsed]
  apply hinv.linkage i
  rw [M3Module.linkage, List.getElem?_map, hf]
  rfl

end WebAssemblyRuntime.Wasm3
