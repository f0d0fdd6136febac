import WebAssemblyRuntime.Binding.Instantiate
import WebAssemblyRuntime.Binding.ScanAgreement

/-!
# ExportParsers — three parsers of one export section

`ParseSection_Export`, `scanExportSection` and `scanExports` decode the same triples from every
module the interpreter accepts, so `instantiate` never falls back on the interpreter's own names.
-/

open WebAssemblyRuntime.Polyfill WebAssemblyRuntime.Reasoning WebAssemblyRuntime.Wasm3

namespace WebAssemblyRuntime.Binding

/-- The triples decoded by the calls of `ParseSection_Export` in a run over these sections: one call
for each section with id 7, in order. -/
def decodedExports (sections : List (UInt8 × Bytes)) : List ExportRecord :=
  (sections.filter (·.1 = 7)).flatMap fun s => (exportEntries s.2).toOption.getD []

variable {e : Nat} {m m' : M3Module} {pos moduleBytes : Bytes} {sections : List (UInt8 × Bytes)}

/-- A section that is not custom comes at most once. -/
theorem filter_parsed {wanted : UInt8} (hwanted : wanted ≠ 0)
    (h : ParsedSections e m pos sections m') :
    sections.filter (·.1 = wanted) = (sections.find? (·.1 = wanted)).toList := by
  induction h with
  | nil => rfl
  | @cons _ _ _ _ _ id _ _ _ sections horder _ _ _ hrest ih =>
    rw [List.filter_cons, List.find?_cons]
    by_cases hid : id = wanted
    · -- the order leaves no place for a second one
      subst hid
      rw [if_pos hwanted] at horder
      have habsent := absent_of_past hwanted hrest (past_of_seek horder)
      rw [habsent] at ih
      rw [decide_eq_true rfl, if_pos rfl, ih]
      rfl
    · rw [decide_eq_false hid]
      exact ih

theorem decodedExports_parsed (h : ParsedSections 0 {} (moduleBytes.drop 8) sections m') :
    decodedExports sections = moduleExports moduleBytes := by
  unfold decodedExports moduleExports
  rw [filter_parsed (by decide) h, sectionWith, sectionsOf_parsed h]
  cases sections.find? (·.1 = 7) with
  | none => rfl
  | some s => exact List.append_nil _

/-- Every section with id 7 that the parser has gone through decodes. -/
theorem exportEntries_of_mem (h : ParsedSections e m pos sections m') {contents : Bytes}
    (hmem : (7, contents) ∈ sections) : ∃ records, exportEntries contents = .ok records := by
  induction h with
  | nil => exact absurd hmem List.not_mem_nil
  | cons _ _ _ hparse _ ih =>
    rcases List.mem_cons.mp hmem with heq | hmem
    · cases heq
      rcases exportEntries_parsed hparse with ⟨records, hread, -⟩
      exact ⟨records, hread⟩
    · exact ih hmem

/-- What the two scanners make of a module that was parsed. -/
structure ExportParsersAgree (moduleBytes : Bytes) (sections : List (UInt8 × Bytes)) : Prop where
  decoded : ∀ contents, (7, contents) ∈ sections → ∃ records, exportEntries contents = .ok records
  absent : (∀ contents, (7, contents) ∉ sections) → decodedExports sections = []
  scanExportSection : scanExportSection moduleBytes = .ok (decodedExports sections)
  scanExports : scanExports moduleBytes = .ok ((decodedExports sections).filterMap descriptorOf)

theorem decodedExports_absent (h : ∀ contents, (7, contents) ∉ sections) :
    decodedExports sections = [] := by
  unfold decodedExports
  have hnone : sections.filter (·.1 = 7) = [] := by
    apply List.filter_eq_nil_iff.mpr
    rintro ⟨id, contents⟩ hmem hid
    have hseven : id = 7 := of_decide_eq_true hid
    subst hseven
    exact h contents hmem
  rw [hnone]
  rfl

theorem exportParsersAgree :
    (∀ moduleBytes m, m3ParseModule moduleBytes = .ok m →
      ∃ sections, ParsedSections 0 {} (moduleBytes.drop 8) sections m ∧
        ExportParsersAgree moduleBytes sections) ∧
    ∀ host bufferSource importObject options p,
      prepare host bufferSource importObject options = .ok p →
        ∃ records, scanExportSection bufferSource.bytes = .ok records := by
  constructor
  · intro moduleBytes m hparse
    rcases m3ParseModule_ok hparse with ⟨-, sections, hparsed⟩
    refine ⟨sections, hparsed, ?_⟩
    constructor
    · intro contents hmem
      exact exportEntries_of_mem hparsed hmem
    · exact decodedExports_absent
    · rw [decodedExports_parsed hparsed]
      exact scanExportSection_eq hparse
    · rw [decodedExports_parsed hparsed]
      exact scanExports_eq hparse
  · -- the exports object is only built for bytes that were parsed
    intro host bufferSource importObject options p hprepare
    rcases prepare_ok hprepare with ⟨parsed, hparse, -⟩
    exact ⟨_, scanExportSection_eq hparse⟩

/-- A function exported as `f` and an export `x` of an unknown kind, with a padded count before them
and a byte no one reads after them. -/
def oddExports : ArrayBuffer where
  bytes := wasmHeader ++ [1, 4, 1, 0x60, 0, 0] ++ [3, 2, 1, 0] ++
    [7, 11, 0x82, 0, 1, 0x66, 0, 0, 1, 0x78, 9, 0, 0xff] ++ [10, 4, 1, 2, 0, 0x0b]
  length_le := by decide

theorem exportParsersAgree_odd :
    (∃ m sections, ParsedSections 0 {} (oddExports.bytes.drop 8) sections m ∧
      ExportParsersAgree oddExports.bytes sections) ∧
    ∃ records, scanExportSection oddExports.bytes = .ok records := by
  rcases instantiates_withoutImports oddExports (by decide +kernel) with ⟨native, p, hnative⟩
  rcases prepare_ok hnative.prepared with ⟨parsed, hparse, -⟩
  exact ⟨⟨parsed, exportParsersAgree.1 _ parsed hparse⟩, exportParsersAgree.2 _ _ _ _ p hnative.prepared⟩

end WebAssemblyRuntime.Binding
