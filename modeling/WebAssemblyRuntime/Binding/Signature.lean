import WebAssemblyRuntime.Binding.Imports
import WebAssemblyRuntime.Wasm3.Declarations

/-!
# Signature — a function type as text and back

`buildSignature` writes a `v` for no result; `SignatureToFuncType` takes the length of the text
without the two brackets for the number of types, so the `v` counts as one.
-/

open WebAssemblyRuntime.Reasoning WebAssemblyRuntime.Wasm3

namespace WebAssemblyRuntime.Binding

def Numeric (type : M3ValueType) : Prop :=
  type = .i32 ∨ type = .i64 ∨ type = .f32 ∨ type = .f64

/-- Numeric parameters and at most one numeric result. -/
structure Linkable (funcType : M3FuncType) : Prop where
  rets_le : funcType.rets.length ≤ 1
  rets : ∀ type ∈ funcType.rets, Numeric type
  args : ∀ type ∈ funcType.args, Numeric type

/-- The characters of a numeric type are read back, and none is a bracket or a blank. -/
theorem signatureLoop_type {type : M3ValueType} {c : Char} (h : valueTypeToChar type = some c)
    (maxNumTypes : Nat) (rest : List Char) (parsingRets : Bool) (funcType : M3FuncType) :
    signatureLoop maxNumTypes (c :: rest) parsingRets funcType =
      if parsingRets then
        if maxNumTypes ≤ funcType.rets.length then .error .returnCountOverflow
        else signatureLoop maxNumTypes rest parsingRets
          { funcType with rets := funcType.rets ++ [type] }
      else
        if maxNumTypes ≤ funcType.rets.length + funcType.args.length then .error .argCountOverflow
        else signatureLoop maxNumTypes rest parsingRets
          { funcType with args := funcType.args ++ [type] } := by
  cases type with
  | none | v128 | unknown => cases h
  | i32 | i64 | f32 | f64 =>
    cases h
    rfl

theorem valueTypeToChar_numeric {type : M3ValueType} (h : Numeric type) :
    ∃ c, valueTypeToChar type = some c := by
  rcases h with rfl | rfl | rfl | rfl
  · exact ⟨'i', rfl⟩
  · exact ⟨'I', rfl⟩
  · exact ⟨'f', rfl⟩
  · exact ⟨'F', rfl⟩

/-- The parameters are read back up to the closing bracket, as long as there is room for them. -/
theorem signatureLoop_args {types : List M3ValueType} {chars : List Char}
    (h : types.mapM valueTypeToChar = some chars) {maxNumTypes : Nat} {funcType : M3FuncType}
    (hroom : funcType.rets.length + funcType.args.length + types.length ≤ maxNumTypes) :
    signatureLoop maxNumTypes (chars ++ [')']) false funcType =
      .ok { funcType with args := funcType.args ++ types } := by
  induction types generalizing chars funcType with
  | nil =>
    cases h
    rw [List.append_nil]
    rfl
  | cons type types ih =>
    rw [List.mapM_cons] at h
    rcases Option.bind_eq_some_iff.mp h with ⟨c, hc, h⟩
    rcases Option.bind_eq_some_iff.mp h with ⟨chars', hchars, h⟩
    cases h
    rw [List.length_cons] at hroom
    rw [List.cons_append, signatureLoop_type hc, if_neg Bool.false_ne_true, if_neg (by omega)]
    -- one parameter more has been read, one less is left
    have hnext : funcType.rets.length + (funcType.args ++ [type]).length + types.length ≤
        maxNumTypes := by
      rw [List.length_append, List.length_singleton]
      omega
    rw [ih hchars hnext, List.append_assoc]
    rfl

variable {funcType : M3FuncType}

/-- What `buildSignature` writes: a result character, which is `v` for none, and the parameters in
brackets. -/
theorem buildSignature_linkable (h : Linkable funcType) :
    ∃ c chars, buildSignature funcType = some (c :: '(' :: chars ++ [')']) ∧
      funcType.args.mapM valueTypeToChar = some chars ∧
      chars.length = funcType.args.length ∧
      (funcType.rets = [] ∧ c = 'v' ∨ ∃ type, funcType.rets = [type] ∧
        valueTypeToChar type = some c) := by
  have hargs : ∀ type ∈ funcType.args, (valueTypeToChar type).isSome := by
    intro type htype
    rcases valueTypeToChar_numeric (h.args type htype) with ⟨c, hc⟩
    rw [hc]
    rfl
  rcases optionMapM_some hargs with ⟨chars, hchars⟩
  have hlength : chars.length = funcType.args.length := optionMapM_length hchars
  unfold buildSignature
  rcases hrets : funcType.rets with _ | ⟨type, _ | ⟨type', rest⟩⟩
  · exact ⟨'v', chars, by rw [hchars]; rfl, hchars, hlength, .inl ⟨rfl, rfl⟩⟩
  · rcases valueTypeToChar_numeric (h.rets type (by rw [hrets]; exact List.mem_cons_self))
      with ⟨c, hc⟩
    exact ⟨c, chars, by rw [hchars]; simp only [hc]; rfl, hchars, hlength, .inr ⟨type, rfl, hc⟩⟩
  · have hle := h.rets_le
    rw [hrets] at hle
    simp only [List.length_cons] at hle
    omega

/-- The text of a linkable type is read back unless it is longer than the decoder allows. -/
theorem signatureToFuncType_buildSignature (h : Linkable funcType) :
    ∃ signature, buildSignature funcType = some signature ∧ signatureToFuncType signature =
      if d_m3MaxSaneFunctionArgRetCount < funcType.args.length + 1 then .error .tooManyArgsRets
      else .ok funcType := by
  rcases buildSignature_linkable h with ⟨c, chars, hbuild, hchars, hlength, hrets⟩
  refine ⟨_, hbuild, ?_⟩
  have hsize : (c :: '(' :: chars ++ [')']).length = funcType.args.length + 3 := by
    simp only [List.length_cons, List.length_append, List.length_nil, hlength]
  unfold signatureToFuncType
  rw [hsize, if_neg (by omega), show funcType.args.length + 3 - 2 = funcType.args.length + 1 by omega]
  by_cases hcap : d_m3MaxSaneFunctionArgRetCount < funcType.args.length + 1
  · rw [if_pos hcap, if_pos hcap]
  · rw [if_neg hcap, if_neg hcap]
    rcases hrets with ⟨hnone, rfl⟩ | ⟨type, hone, hc⟩
    · -- the `v` stands for no type, so there is room to spare
      show signatureLoop _ (chars ++ [')']) false {} = _
      rw [signatureLoop_args hchars (by show 0 + 0 + _ ≤ _; omega)]
      show Except.ok (M3FuncType.mk [] ([] ++ funcType.args)) = _
      rw [List.nil_append, ← hnone]
    · rw [List.cons_append, signatureLoop_type hc, if_pos rfl,
        if_neg (by show ¬ funcType.args.length + 1 ≤ 0; omega)]
      show signatureLoop _ (chars ++ [')']) false { rets := [type] } = _
      rw [signatureLoop_args hchars (by show 1 + 0 + _ ≤ _; omega)]
      show Except.ok (M3FuncType.mk [type] ([] ++ funcType.args)) = _
      rw [List.nil_append, ← hone]

/-- The round trip of `buildSignature` and `SignatureToFuncType`. -/
def SignatureDecodes (funcType : M3FuncType) : Prop :=
  ∃ signature, buildSignature funcType = some signature ∧
    signatureToFuncType signature = .ok funcType

/-- A thousand parameters are one too many for the decoder. -/
theorem signatureDecodes_iff (h : Linkable funcType) :
    SignatureDecodes funcType ↔ funcType.args.length < 1000 := by
  rcases signatureToFuncType_buildSignature h with ⟨signature, hbuild, hdecode⟩
  unfold SignatureDecodes
  rw [hbuild]
  by_cases hlong : d_m3MaxSaneFunctionArgRetCount < funcType.args.length + 1
  · rw [if_pos hlong] at hdecode
    rw [d_m3MaxSaneFunctionArgRetCount] at hlong
    constructor
    · rintro ⟨_, hsame, hok⟩
      cases hsame
      cases hdecode.symm.trans hok
    · intro hlt
      omega
  · rw [if_neg hlong] at hdecode
    rw [d_m3MaxSaneFunctionArgRetCount] at hlong
    constructor
    · intro _
      omega
    · exact fun _ => ⟨signature, rfl, hdecode⟩

theorem admitted_short_iff (hcap : funcType.Admitted) :
    funcType.args.length < 1000 ↔ ¬ (funcType.rets = [] ∧ funcType.args.length = 1000) := by
  rw [M3FuncType.Admitted] at hcap
  rw [← List.length_eq_zero_iff]
  omega

theorem signatureRoundTrip (h : Linkable funcType) (hcap : funcType.Admitted) :
    SignatureDecodes funcType ↔ ¬ (funcType.rets = [] ∧ funcType.args.length = 1000) := by
  rw [signatureDecodes_iff h]
  exact admitted_short_iff hcap

/-- `(i32, f64) -> i64`. -/
def i32F64ToI64 : M3FuncType := { rets := [.i64], args := [.i32, .f64] }

theorem i32F64ToI64_linkable : Linkable i32F64ToI64 := by
  constructor
  · decide
  · unfold Numeric
    decide
  · unfold Numeric
    decide

theorem signatureRoundTrip_i32F64ToI64 : SignatureDecodes i32F64ToI64 :=
  (signatureRoundTrip i32F64ToI64_linkable (by unfold M3FuncType.Admitted; decide)).mpr (by decide)

/-- A thousand `i32` parameters and no result. -/
def thousandParameters : M3FuncType := { args := List.replicate 1000 .i32 }

theorem thousandParameters_linkable : Linkable thousandParameters where
  rets_le := by decide
  rets _ h := absurd h List.not_mem_nil
  args type h := .inl (List.mem_replicate.mp h).2

theorem signatureRoundTrip_fails :
    Linkable thousandParameters ∧ thousandParameters.Admitted ∧
      ¬ SignatureDecodes thousandParameters := by
  have hlength : thousandParameters.args.length = 1000 := List.length_replicate
  have hcap : thousandParameters.Admitted := by
    rw [M3FuncType.Admitted, hlength]
    decide
  refine ⟨thousandParameters_linkable, hcap, ?_⟩
  rcases signatureToFuncType_buildSignature thousandParameters_linkable with
    ⟨signature, hbuild, hdecode⟩
  rw [hlength, if_pos (by decide)] at hdecode
  rintro ⟨_, hsame, hok⟩
  cases hbuild.symm.trans hsame
  cases hdecode.symm.trans hok

end WebAssemblyRuntime.Binding
