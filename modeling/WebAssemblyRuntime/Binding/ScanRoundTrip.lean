import WebAssemblyRuntime.Binding.ImportAgreement
import WebAssemblyRuntime.Polyfill.ModuleFormat

/-!
# ScanRoundTrip — scanning undoes encoding

Each reader of the polyfill finds what was encoded in front of any rest; the scanners are put
together from them.
-/

open WebAssemblyRuntime.Polyfill WebAssemblyRuntime.Reasoning

namespace WebAssemblyRuntime.Binding

/-! ## Numbers, bytes and names -/

theorem u8_decodes (byte : UInt8) : Decodes ByteReader.u8 [byte] byte := fun _ => rfl

theorem u32_decodes (n : U32) : Decodes ByteReader.leb n.encode (UInt32.ofNat n.value) :=
  leb_decodes n.leb

theorem toNat_of_leb {n : Nat} (leb : Leb32 n) : (UInt32.ofNat n).toNat = n :=
  UInt32.toNat_ofNat_of_lt' leb.lt

theorem bytes_decodes {n : Nat} {payload : List UInt8} (h : payload.length = n) :
    Decodes (ByteReader.bytes n) payload payload := by
  intro rest
  subst h
  rw [ByteReader.bytes, if_neg (by rw [List.length_append]; omega), List.take_left, List.drop_left]

theorem name_decodes (name : WasmName) : Decodes ByteReader.name name.encode name.string := by
  have hview := (bytes_decodes (toNat_of_leb name.size).symm).map utf8Decode
  rw [utf8Decode_encodeUtf8] at hview
  exact (leb_decodes name.size).bind hview

/-! ## Entries -/

theorem skipLimits_encode (limits : WasmLimits) (rest : ByteReader) :
    skipLimits (limits.encode ++ rest) = .ok rest := by
  unfold WasmLimits.encode
  cases limits.max with
  | none =>
    show Except.bind (ByteReader.leb (limits.min.encode ++ rest)) _ = _
    rw [u32_decodes]
    rfl
  | some max =>
    show Except.bind (ByteReader.leb (limits.min.encode ++ max.encode ++ rest)) _ = _
    rw [List.append_assoc, u32_decodes]
    show Except.bind (ByteReader.leb (max.encode ++ rest)) _ = _
    rw [u32_decodes]
    rfl

theorem skipDescriptor_encode (type : ImportType) (rest : ByteReader) :
    skipDescriptor (kindByte type.kind) (type.encode ++ rest) = .ok rest := by
  cases type with
  | function typeIndex =>
    show Except.bind (ByteReader.leb (typeIndex.encode ++ rest)) _ = _
    rw [u32_decodes]
    rfl
  | table elemType limits => exact skipLimits_encode limits rest
  | memory limits => exact skipLimits_encode limits rest
  | global valueType isMutable => rfl

theorem scanImport_decodes (i : Nat) (result : List ModuleImportDescriptor) (entry : Import) :
    Decodes (fun bytes => scanImport i (result, bytes)) entry.encode
      (result ++ [entry.descriptor]) := by
  unfold scanImport
  dsimp only
  refine (name_decodes entry.module).bind ?_
  dsimp only
  refine (name_decodes entry.name).bind ?_
  dsimp only
  refine (u8_decodes (kindByte entry.type.kind)).bind ?_
  intro rest
  show Except.bind (skipDescriptor (kindByte entry.type.kind) (entry.type.encode ++ rest)) _ = _
  rw [skipDescriptor_encode]
  show Except.ok (result ++ ((kinds (kindByte entry.type.kind)).map _).toList, rest) = _
  rw [kinds_kindByte]
  rfl

theorem scanExport_decodes (i : Nat) (result : List ModuleExportDescriptor) (entry : Export) :
    Decodes (fun bytes => scanExport i (result, bytes)) entry.encode
      (result ++ [entry.descriptor]) := by
  unfold scanExport
  dsimp only
  refine (name_decodes entry.name).bind ?_
  dsimp only
  refine (u8_decodes (kindByte entry.kind)).bind ?_
  intro rest
  show Except.bind (ByteReader.leb (entry.index.encode ++ rest)) _ = _
  rw [u32_decodes]
  show Except.ok (result ++ ((kinds (kindByte entry.kind)).map _).toList, rest) = _
  rw [kinds_kindByte]
  rfl

/-- A counted list is read by a loop over its entries. -/
theorem counted_read {α δ : Type} {entry : Nat → List α × ByteReader →
      Except CompileError (List α × ByteReader)} {encode : δ → List UInt8} {describe : δ → α}
    (hentry : ∀ i result d, Decodes (fun bytes => entry i (result, bytes)) (encode d)
      (result ++ [describe d])) (xs : Counted δ) :
    (do let (count, reader) ← ByteReader.leb (xs.encode encode)
        let (result, _) ← loop entry count.toNat 0 ([], reader)
        Except.ok result) = .ok (xs.items.map describe) := by
  have hcount := leb_decodes xs.count (xs.items.flatMap encode)
  have hloop := Decodes.loop hentry xs.items 0 [] []
  simp only [List.append_nil] at hloop
  unfold Counted.encode
  rw [hcount]
  show Except.bind (loop entry (UInt32.ofNat xs.items.length).toNat 0 ([], _)) _ = _
  rw [toNat_of_leb xs.count, hloop]
  rfl

/-! ## Sections -/

variable {σ : Type} {visit : UInt8 → ByteReader → UInt32 → σ → Except CompileError (Bool × σ)}

/-- The visitor gets exactly the contents of a section. -/
theorem walkSectionsFrom_encode (s : ModuleSection) (rest : ByteReader) (t : σ) :
    walkSectionsFrom visit (s.encode ++ rest) t =
      match visit s.contents.id s.contents.encode (UInt32.ofNat s.contents.encode.length) t with
      | .error e => .error e
      | .ok (false, t) => .ok t
      | .ok (true, t) => walkSectionsFrom visit rest t := by
  have hread := leb_decodes s.size (s.contents.encode ++ rest)
  have hroom : ¬ (s.contents.encode ++ rest).length < s.contents.encode.length := by
    rw [List.length_append]
    omega
  show walkSectionsFrom visit (s.contents.id :: (s.size.bytes ++ s.contents.encode ++ rest)) t = _
  rw [List.append_assoc, walkSectionsFrom]
  split
  · rename_i herror
    cases hread.symm.trans herror
  · rename_i hok
    cases hread.symm.trans hok
    rw [toNat_of_leb s.size, List.take_left, List.drop_left]
    cases visit s.contents.id s.contents.encode (UInt32.ofNat s.contents.encode.length) t with
    | error e => rfl
    | ok visited =>
      obtain ⟨goOn, t'⟩ := visited
      cases goOn with
      | false => rfl
      | true => exact if_neg hroom

theorem walkSectionsFrom_seek {wanted : UInt8} {read : ByteReader → σ → Except CompileError σ}
    (hvisit : Seeks wanted visit read) (sections : List ModuleSection) (t : σ) :
    walkSectionsFrom visit (sections.flatMap ModuleSection.encode) t =
      match sections.find? (·.contents.id = wanted) with
      | none => .ok t
      | some s => read s.contents.encode t := by
  induction sections with
  | nil =>
    show walkSectionsFrom visit [] t = _
    rw [walkSectionsFrom]
    rfl
  | cons s sections ih =>
    show walkSectionsFrom visit (s.encode ++ sections.flatMap ModuleSection.encode) t = _
    rw [walkSectionsFrom_encode, List.find?_cons]
    by_cases hid : s.contents.id = wanted
    · rw [hid, decide_eq_true rfl, hvisit.stops]
      show _ = read s.contents.encode t
      cases read s.contents.encode t with
      | error e => rfl
      | ok t' => rfl
    · rw [hvisit.passes _ hid, decide_eq_false hid]
      exact ih

/-- What one element alone contributes is found with it. -/
theorem flatMap_of_one {α β : Type} {p : α → Bool} {f : α → List β} {xs : List α}
    (hone : (xs.filter p).length ≤ 1) (hf : ∀ x, p x = false → f x = []) :
    xs.flatMap f = ((xs.find? p).map f).getD [] := by
  induction xs with
  | nil => rfl
  | cons x xs ih =>
    rw [List.flatMap_cons, List.find?_cons]
    cases hx : p x with
    | false =>
      rw [List.filter_cons_of_neg (by rw [hx]; decide)] at hone
      rw [hf x hx, ih hone]
      rfl
    | true =>
      rw [List.filter_cons_of_pos hx, List.length_cons] at hone
      have hnone : xs.filter p = [] := List.length_eq_zero_iff.mp (by omega)
      have hrest : xs.flatMap f = [] := by
        rw [List.flatMap_eq_nil_iff]
        intro y hy
        exact hf y (Bool.eq_false_iff.mpr (List.filter_eq_nil_iff.mp hnone y hy))
      rw [hrest, List.append_nil]
      rfl

theorem importDescriptors_read {contents : Contents} (h : contents.id = 2) :
    readImportDescriptors contents.encode [] = .ok contents.importDescriptors := by
  cases contents with
  | custom name payload => cases h
  | exports entries => cases h
  | other id bytes h0 h2 h7 => exact absurd h h2
  | imports entries => exact counted_read scanImport_decodes entries

theorem exportDescriptors_read {contents : Contents} (h : contents.id = 7) :
    readDescriptors contents.encode [] = .ok contents.exportDescriptors := by
  cases contents with
  | custom name payload => cases h
  | imports entries => cases h
  | other id bytes h0 h2 h7 => exact absurd h h7
  | exports entries => exact counted_read scanExport_decodes entries

theorem importDescriptors_of_id {contents : Contents} (h : contents.id ≠ 2) :
    contents.importDescriptors = [] := by
  cases contents with
  | imports entries => exact absurd rfl h
  | custom _ _ | exports _ | other _ _ _ _ _ => rfl

theorem exportDescriptors_of_id {contents : Contents} (h : contents.id ≠ 7) :
    contents.exportDescriptors = [] := by
  cases contents with
  | exports entries => exact absurd rfl h
  | custom _ _ | imports _ | other _ _ _ _ _ => rfl

/-- A custom section of the wanted name gives its payload, any other section nothing. -/
theorem visitCustomSections_encode (name : JsString) (contents : Contents)
    (size : Leb32 contents.encode.length) (result : List (List UInt8)) :
    visitCustomSections name contents.id contents.encode
        (UInt32.ofNat contents.encode.length) result =
      .ok (true, result ++ (contents.payloadOf name).toList) := by
  unfold visitCustomSections
  by_cases hid : contents.id ≠ 0
  · rw [if_pos hid]
    cases contents with
    | custom sectionName payload => exact absurd rfl hid
    | imports _ | exports _ | other _ _ _ _ _ => exact congrArg (fun r => Except.ok (true, r)) (List.append_nil _).symm
  · rw [if_neg hid]
    cases contents with
    | imports _ => exact absurd (show (2 : UInt8) ≠ 0 by decide) hid
    | exports _ => exact absurd (show (7 : UInt8) ≠ 0 by decide) hid
    | other id bytes h0 _ _ => exact absurd h0 hid
    | custom sectionName payload =>
      have hlength := toNat_of_leb size
      show Except.bind (ByteReader.name (sectionName.encode ++ payload)) _ = _
      rw [name_decodes]
      simp only [Contents.payloadOf, Except.bind]
      by_cases hname : sectionName.string = name
      · have hpayload : (UInt32.ofNat (sectionName.encode ++ payload).length).toNat -
            ((sectionName.encode ++ payload).length - payload.length) = payload.length := by
          rw [show (UInt32.ofNat (sectionName.encode ++ payload).length).toNat = _ from hlength]
          show (sectionName.encode ++ payload).length - _ = _
          rw [List.length_append]
          omega
        rw [if_pos hname, if_pos hname]
        show Except.bind (ByteReader.bytes ((UInt32.ofNat (sectionName.encode ++ payload).length).toNat -
            ((sectionName.encode ++ payload).length - payload.length)) payload) _ = _
        have hread := bytes_decodes (n := payload.length) rfl []
        rw [List.append_nil] at hread
        rw [hpayload, hread]
        rfl
      · rw [if_neg hname, if_neg hname]
        exact congrArg (fun r => Except.ok (true, r)) (List.append_nil _).symm

theorem walkSectionsFrom_customs (name : JsString) (sections : List ModuleSection)
    (result : List (List UInt8)) :
    walkSectionsFrom (visitCustomSections name) (sections.flatMap ModuleSection.encode) result =
      .ok (result ++ sections.filterMap (·.contents.payloadOf name)) := by
  induction sections generalizing result with
  | nil =>
    show walkSectionsFrom _ [] result = _
    rw [walkSectionsFrom, List.filterMap_nil, List.append_nil]
  | cons s sections ih =>
    show walkSectionsFrom _ (s.encode ++ sections.flatMap ModuleSection.encode) result = _
    rw [walkSectionsFrom_encode, visitCustomSections_encode name s.contents s.size]
    show walkSectionsFrom _ (sections.flatMap ModuleSection.encode) _ = _
    rw [ih, List.append_assoc, List.filterMap_cons]
    cases s.contents.payloadOf name with
    | none => rfl
    | some payload => rfl

/-! ## Modules -/

theorem walkSections_encode (m : WasmModule) (t : σ) :
    walkSections visit m.encode t =
      walkSectionsFrom visit (m.sections.flatMap ModuleSection.encode) t := by
  unfold walkSections WasmModule.encode
  rw [if_neg (by rw [List.length_append]; exact Nat.not_lt.mpr (Nat.le_add_right 8 _))]
  rfl

theorem scanExports_encode (m : WasmModule) : scanExports m.encode = .ok m.exports := by
  unfold scanExports WasmModule.exports
  rw [walkSections_encode, walkSectionsFrom_seek visitExports_seeks, flatMap_of_one m.oneExport
    fun s hs => exportDescriptors_of_id (of_decide_eq_false hs)]
  cases hfound : m.sections.find? (·.contents.id = 7) with
  | none => rfl
  | some s =>
    have hid := List.find?_some hfound
    exact exportDescriptors_read (of_decide_eq_true hid)

theorem scanImports_encode (m : WasmModule) : scanImports m.encode = .ok m.imports := by
  unfold scanImports WasmModule.imports
  rw [walkSections_encode, walkSectionsFrom_seek visitImports_seeks, flatMap_of_one m.oneImport
    fun s hs => importDescriptors_of_id (of_decide_eq_false hs)]
  cases hfound : m.sections.find? (·.contents.id = 2) with
  | none => rfl
  | some s =>
    have hid := List.find?_some hfound
    exact importDescriptors_read (of_decide_eq_true hid)

theorem scanCustomSections_encode (m : WasmModule) (name : JsString) :
    scanCustomSections m.encode name = .ok (m.customSections name) := by
  unfold scanCustomSections WasmModule.customSections
  rw [walkSections_encode, walkSectionsFrom_customs, List.nil_append]

/-- The scanners give back what was encoded, however its numbers are padded. -/
theorem scanRoundTrip (m : WasmModule) :
    scanExports m.encode = .ok m.exports ∧ scanImports m.encode = .ok m.imports ∧
      ∀ name, scanCustomSections m.encode name = .ok (m.customSections name) :=
  ⟨scanExports_encode m, scanImports_encode m, scanCustomSections_encode m⟩

/-- One custom section with a name of two bytes, whose section size is padded to five bytes. -/
def paddedCustomSection : WasmModule where
  sections :=
    [⟨.custom ⟨['é'], 1, by decide, by decide, by decide, by decide⟩ [7, 8],
      5, by decide, by decide, by decide, by decide⟩]
  oneImport := by decide
  oneExport := by decide

example : paddedCustomSection.encode = [0, 0x61, 0x73, 0x6d, 1, 0, 0, 0] ++
    [0, 0x85, 0x80, 0x80, 0x80, 0, 2, 0xc3, 0xa9, 7, 8] := by decide

end WebAssemblyRuntime.Binding
