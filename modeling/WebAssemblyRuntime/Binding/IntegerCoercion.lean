import WebAssemblyRuntime.Binding.Machine
import WebAssemblyRuntime.Binding.WasmGlobal
import WebAssemblyRuntime.Reasoning.Results

/-!
# IntegerCoercion — the bits a JavaScript value leaves in an integer position

A value reaches an `i32` or an `i64` as an export argument, as an import's result or by assignment
to a global.  All three saturate a number at 64 bits and then narrow it, where the web takes it
modulo `2 ^ 32`: that is the same below `2 ^ 63` in magnitude, and seldom above.
-/

open WebAssemblyRuntime.Reasoning WebAssemblyRuntime.Wasm3

namespace WebAssemblyRuntime.Binding

/-! ## What the web stores -/

inductive IntegerType where
  | i32
  | i64
  deriving DecidableEq, Repr

namespace IntegerType

def valueType : IntegerType → M3ValueType
  | i32 => .i32
  | i64 => .i64

def width : IntegerType → Nat
  | i32 => 32
  | i64 => 64

end IntegerType

/-- The number is the value of a double. -/
def JsNumber.IsDouble (x : JsNumber) : Prop :=
  ∃ bits : UInt64, ofBits .binary64 bits.toNat = x

/-- `ToInt32`, as the pattern it leaves. -/
def JsNumber.toInt32 : JsNumber → Nat
  | finite q => (towardZero q % 2 ^ 32).toNat
  | _ => 0

/-- The pattern for the values a position of the type takes without an exception. -/
def webPattern : IntegerType → JsValue → Option Nat
  | .i32, .number x => some x.toInt32
  | .i32, .undefined => some 0
  | .i32, .null => some 0
  | .i32, .bool b => some b.toNat
  | .i64, .bigint n => some (n % 2 ^ 64).toNat
  | _, _ => none

/-! ## What the binding stores -/

/-- The pattern in the slots from `s` on. -/
def slotPattern (slots : Slots) (s : Nat) : IntegerType → Nat
  | .i32 => (slots s).toNat
  | .i64 => (slots.read64 s).toNat

def globalPattern (global : M3Global) : IntegerType → Nat
  | .i32 => global.low.toNat
  | .i64 => global.i64Value.toNat

/-- A value is stored into a position of the type, and this is the pattern left there. -/
inductive Stored (type : IntegerType) (value : JsValue) : Nat → Prop where
  | exportArgument {inst : Instance} {c c' : Config} {fn sp i : Nat} {mem : Option Addr}
      {args : List JsValue} {f : M3Function}
      (hf : inst.module.functions[fn]? = some f)
      (htype : f.funcType.args[i]? = some type.valueType)
      (hvalue : args.getD i .undefined = value)
      (hstep : Step inst c (.callExport fn args) c') (hentered : c'.control = .enter fn sp mem) :
      Stored type value (slotPattern c'.slots (sp + 2 * f.funcType.rets.length + 2 * i) type)
  | importResult {inst : Instance} {c c' : Config} {fn sp stackBackup : Nat} {rest : List Frame}
      {f : M3Function}
      (hf : inst.module.functions[fn]? = some f) (hrets : f.funcType.rets = [type.valueType])
      (hframes : c.frames = .opCallRaw fn sp stackBackup :: rest)
      (hstep : Step inst c (.importReturns value) c') (hreturned : c'.control = .ret .none) :
      Stored type value (slotPattern c'.slots sp type)
  | globalValue {self self' : WasmGlobal}
      (htype : self.global.type = type.valueType)
      (hset : self.set "value" value = .ok self') :
      Stored type value (globalPattern self'.global type)

/-- Saturation at 64 bits does not show in the low 32: the number is below `2 ^ 63`, and one of
`-2 ^ 63` or less is a multiple of `2 ^ 32`. -/
def JsNumber.Narrows : JsNumber → Prop
  | posInf => False
  | finite q => q < 2 ^ 63 ∧ (-2 ^ 63 < q ∨ ∃ k : Int, q = 2 ^ 32 * k)
  | _ => True

def JsValue.Narrows : JsValue → Prop
  | number x => x.Narrows
  | _ => True

/-! ## Large doubles are even integers -/

theorem JsNumber.ofFloat_finite {value : FloatValue} {q : ℚ} (h : ofFloat value = .finite q) :
    q = 0 ∨ ∃ negative m e, value = .finite negative m e ∧ q = FloatValue.number negative m e := by
  cases value with
  | nan => cases h
  | infinity negative => cases negative <;> cases h
  | finite negative m e =>
    rw [ofFloat] at h
    by_cases hm : m = 0
    · rw [if_pos hm] at h
      cases negative with
      | false =>
        cases h
        exact .inl rfl
      | true => cases h
    · rw [if_neg hm] at h
      cases h
      exact .inr ⟨negative, m, e, rfl, rfl⟩

theorem JsNumber.IsDouble.even {q : ℚ} (h : (JsNumber.finite q).IsDouble)
    (hlarge : 2 ^ 63 ≤ q ∨ q ≤ -2 ^ 63) : ∃ k : ℤ, q = (2 * k : ℤ) := by
  obtain ⟨bits, hbits⟩ := h
  obtain rfl | ⟨negative, m, e, hvalue, rfl⟩ := ofFloat_finite hbits
  · norm_num at hlarge
  have hm := FloatFormat.significand_lt hvalue
  have hnonneg : (0 : ℚ) ≤ m * 2 ^ e := by positivity
  -- a double has 53 digits, so one of this size is even
  have heven : (2 : ℚ) ^ 63 ≤ m * 2 ^ e → ∃ k : ℤ, (m : ℚ) * 2 ^ e = (2 * k : ℤ) := fun hle =>
    even_of_two_pow_le hm (le_trans (by norm_num [FloatFormat.binary64]) hle)
  cases negative with
  | false =>
    change 2 ^ 63 ≤ (m : ℚ) * 2 ^ e ∨ (m : ℚ) * 2 ^ e ≤ -2 ^ 63 at hlarge
    obtain hlarge | hlarge := hlarge
    · exact heven hlarge
    · norm_num at hlarge
      linarith
  | true =>
    change 2 ^ 63 ≤ -((m : ℚ) * 2 ^ e) ∨ -((m : ℚ) * 2 ^ e) ≤ -2 ^ 63 at hlarge
    obtain hlarge | hlarge := hlarge
    · norm_num at hlarge
      linarith
    · obtain ⟨k, hk⟩ := heven (neg_le_neg_iff.mp hlarge)
      refine ⟨-k, ?_⟩
      change -((m : ℚ) * 2 ^ e) = _
      rw [hk]
      push_cast
      ring

/-! ## Saturation and narrowing -/

/-- Whether the low 32 bits of the saturated integer are those of the integer. -/
theorem doubleToInt64_narrows {x : JsNumber} (hx : x.IsDouble) :
    (doubleToInt64 x % 2 ^ 32).toNat = x.toInt32 ↔ x.Narrows := by
  cases x with
  | nan | negInf | negZero => exact iff_of_true (by decide) trivial
  | posInf => exact iff_of_false (by decide) not_false
  | finite q =>
    simp only [doubleToInt64, JsNumber.toInt32, JsNumber.Narrows]
    by_cases hhigh : 2 ^ 63 ≤ q
    · -- saturation leaves an odd number, and the double is even
      obtain ⟨k, rfl⟩ := hx.even (.inl hhigh)
      rw [if_pos hhigh, towardZero_intCast]
      refine iff_of_false ?_ (fun h => absurd h.1 (not_lt.mpr hhigh))
      simp only [INT64_MAX]
      omega
    rw [if_neg hhigh]
    by_cases hlow : q ≤ -2 ^ 63
    · -- and a number with no low bits
      obtain ⟨k, rfl⟩ := hx.even (.inr hlow)
      rw [if_pos hlow, towardZero_intCast]
      have hmultiple : (∃ j : Int, ((2 * k : ℤ) : ℚ) = 2 ^ 32 * j) ↔ 2 * k % 2 ^ 32 = 0 := by
        rw [← Int.dvd_iff_emod_eq_zero]
        exact exists_congr fun j => by exact_mod_cast Iff.rfl
      rw [hmultiple, and_iff_right (not_le.mp hhigh), or_iff_right (not_lt.mpr hlow)]
      simp only [INT64_MIN]
      omega
    · rw [if_neg hlow]
      exact iff_of_true rfl ⟨not_le.mp hhigh, .inl (not_le.mp hlow)⟩

/-! ## The three paths -/

variable {type : IntegerType} {value : JsValue} {word : UInt64} {pattern : Nat}

/-- The word has the bits of the integer the value converts to. -/
def Narrowed (type : IntegerType) (value : JsValue) (pattern : Nat) : Prop :=
  ∃ n, toInt64 value = .ok n ∧ pattern = (n % 2 ^ type.width).toNat

theorem emod_toNat_lt (n : Int) (width : Nat) : (n % 2 ^ width).toNat < 2 ^ width := by
  have hpos : (0 : Int) < 2 ^ width := Int.pow_pos (by decide)
  have hlt := Int.emod_lt_of_pos n hpos
  have hnonneg := Int.emod_nonneg n hpos.ne'
  zify
  rwa [Int.toNat_of_nonneg hnonneg]

theorem Narrowed.lt (h : Narrowed type value pattern) : pattern < 2 ^ type.width := by
  obtain ⟨n, -, rfl⟩ := h
  exact emod_toNat_lt n _

theorem valueToSlot_narrowed (h : valueToSlot type.valueType value = .ok word) :
    Narrowed type value word.toNat := by
  cases type with
  | i32 =>
    obtain ⟨n, hn, rfl⟩ := map_ok h
    refine ⟨n, hn, ?_⟩
    rw [UInt64.toNat_ofNat']
    exact Nat.mod_eq_of_lt ((emod_toNat_lt n 32).trans (by decide))
  | i64 =>
    obtain ⟨n, hn, rfl⟩ := map_ok h
    refine ⟨n, hn, ?_⟩
    rw [UInt64.toNat_ofNat']
    exact Nat.mod_eq_of_lt (emod_toNat_lt n 64)

theorem slotPattern_write64 (slots : Slots) (s : Nat) (h : word.toNat < 2 ^ type.width) :
    slotPattern (slots.write64 s word) s type = word.toNat := by
  cases type with
  | i32 =>
    rw [slotPattern, Slots.write64, if_pos rfl, UInt32.toNat_ofNat']
    exact Nat.mod_eq_of_lt h
  | i64 => rw [slotPattern, Slots.read64_write64]

theorem slotPattern_writeArg {slots slots' : Slots} {s : Nat}
    (hwrite : writeArg slots s type.valueType word = some slots')
    (h : word.toNat < 2 ^ type.width) : slotPattern slots' s type = word.toNat := by
  cases type with
  | i32 =>
    cases hwrite
    rw [slotPattern, Function.update_self, UInt64.toNat_toUInt32]
    exact Nat.mod_eq_of_lt h
  | i64 =>
    cases hwrite
    rw [slotPattern, Slots.read64_write64]

theorem slotPattern_congr {slots slots' : Slots} {s : Nat}
    (h : ∀ j < s + 2, slots' j = slots j) : slotPattern slots' s type = slotPattern slots s type := by
  cases type with
  | i32 => rw [slotPattern, slotPattern, h s (by omega)]
  | i64 => rw [slotPattern, slotPattern, Slots.read64, Slots.read64, h s (by omega),
      h (s + 1) (by omega)]

/-- The argument at `i` is converted by its own type. -/
theorem coerceArgs_at {types : List M3ValueType} {args : List JsValue} {words : List UInt64}
    {i : Nat} {t : M3ValueType} (h : coerceArgs types args = .ok words) (hi : types[i]? = some t) :
    ∃ word, words[i]? = some word ∧ valueToSlot t (args.getD i .undefined) = .ok word := by
  refine exceptMapM_getElem (x := (t, i)) h ?_
  rw [List.getElem?_zipIdx, hi, Option.map_some, Nat.zero_add]

theorem set_narrowed {self self' : WasmGlobal} (htype : self.global.type = type.valueType)
    (hset : self.set "value" value = .ok self') :
    Narrowed type value (globalPattern self'.global type) := by
  unfold WasmGlobal.set at hset
  rw [if_neg (by decide)] at hset
  obtain ⟨-, hset⟩ := neg_of_ite hset nofun
  rw [htype] at hset
  obtain ⟨tagged, htagged, hset⟩ := bind_ok hset
  cases type with
  | i32 =>
    obtain ⟨n, hn, rfl⟩ := map_ok htagged
    rw [m3SetGlobal, if_neg (not_not.mpr htype)] at hset
    cases hset
    refine ⟨n, hn, ?_⟩
    rw [globalPattern, M3Global.low_setLow, UInt32.toNat_ofNat', UInt64.toNat_ofNat']
    have hlt := emod_toNat_lt n 32
    change _ = (n % 2 ^ 32).toNat
    omega
  | i64 =>
    obtain ⟨n, hn, rfl⟩ := map_ok htagged
    rw [m3SetGlobal, if_neg (not_not.mpr htype)] at hset
    cases hset
    refine ⟨n, hn, ?_⟩
    rw [globalPattern, UInt64.toNat_ofNat']
    exact Nat.mod_eq_of_lt (emod_toNat_lt n 64)

/-- On every path the pattern is the converted integer, narrowed. -/
theorem Stored.narrowed (h : Stored type value pattern) : Narrowed type value pattern := by
  cases h with
  | exportArgument hf htype hvalue hstep hentered =>
    cases hstep with
    | callExportThrows | callExportRefused => cases hentered
    | callExport _ hf' hargs hcall =>
      cases hentered
      cases hf.symm.trans hf'
      obtain ⟨f', hf', -, hwrite⟩ := m3Call_ok hcall
      cases hf.symm.trans hf'
      obtain ⟨word, hword, hslot⟩ := coerceArgs_at hargs htype
      rw [hvalue] at hslot
      have hnarrowed := valueToSlot_narrowed hslot
      have hzip := (List.getElem?_zip_eq_some (z := (type.valueType, word))).mpr ⟨htype, hword⟩
      obtain ⟨before, after, hat, hframe⟩ := writeArgs_at hwrite hzip
      rw [slotPattern_congr hframe, slotPattern_writeArg hat hnarrowed.lt]
      exact hnarrowed
  | importResult hf hrets hframes hstep hreturned =>
    cases hstep with
    | importReturns _ hframes' hf' hrets' =>
      cases hframes.symm.trans hframes'
      cases hf.symm.trans hf'
      cases hrets.symm.trans hrets'
    | importReturnsValue _ hframes' hf' hrets' hslot =>
      cases hframes.symm.trans hframes'
      cases hf.symm.trans hf'
      cases hrets.symm.trans hrets'
      have hnarrowed := valueToSlot_narrowed hslot
      rw [slotPattern_write64 _ _ hnarrowed.lt]
      exact hnarrowed
    | importCoercionFails => cases hreturned
  | globalValue htype hset => exact set_narrowed htype hset

/-- A number, if the value is one, is a double. -/
def JsValue.IsJs (value : JsValue) : Prop := ∀ x, value = number x → x.IsDouble

theorem integerCoercion {expected : Nat} (hvalue : value.IsJs)
    (hstored : Stored type value pattern) (hweb : webPattern type value = some expected) :
    pattern = expected ↔ value.Narrows := by
  obtain ⟨n, hn, rfl⟩ := hstored.narrowed
  cases type with
  | i32 =>
    cases value with
    | number x =>
      cases hn
      cases hweb
      exact doubleToInt64_narrows (hvalue x rfl)
    | undefined | null =>
      cases hn
      cases hweb
      exact iff_of_true (by decide) trivial
    | bool b =>
      cases hn
      cases hweb
      refine iff_of_true ?_ trivial
      cases b <;> decide
    | bigint n => cases hweb
    | other id => cases hweb
  | i64 =>
    cases value with
    | bigint n =>
      cases hn
      cases hweb
      refine iff_of_true ?_ trivial
      have hmod : getInt64 n % 2 ^ 64 = n % 2 ^ 64 := Int.bmod_emod
      rw [← hmod]
      rfl
    | number x => cases hweb
    | undefined | null | bool b | other id => cases hweb

/-- A mutable `i32` global, and the same global after `-1.5` was assigned to it. -/
def mutableCounter : WasmGlobal :=
  ⟨{ type := .i32, imported := false, isMutable := true }, "counter"⟩

def counterAtMinusOne : WasmGlobal :=
  { mutableCounter with global := { mutableCounter.global with i64Value := 0xffffffff } }

theorem integerCoercion_fraction :
    globalPattern counterAtMinusOne.global .i32 = 0xffffffff ↔
      (JsValue.number (.finite (-3 / 2))).Narrows := by
  have hjs : (JsValue.number (.finite (-3 / 2))).IsJs := by
    intro x hx
    cases hx
    exact ⟨0xbff8000000000000, by decide +kernel⟩
  have hset : mutableCounter.set "value" (.number (.finite (-3 / 2))) = .ok counterAtMinusOne := by
    decide +kernel
  have hstored : Stored .i32 (.number (.finite (-3 / 2))) (globalPattern counterAtMinusOne.global .i32) :=
    .globalValue rfl hset
  exact integerCoercion hjs hstored (by decide +kernel)

/-- A module with one exported function from `i32` to `i32`. -/
def identityInstance : Instance where
  module :=
    { functions :=
        [{ module := true, funcType := ⟨[.i32], [.i32]⟩, wasm := some [4, 0, 0x20, 0, 0x0b],
           compiled := some .wasm }] }
  imports := []
  layout _ := ⟨4, 0, 2, []⟩
  linked := by
    intro f hf userdata hcode
    rw [List.mem_singleton.mp hf] at hcode
    cases hcode

/-- Called with infinity, it is passed `-1`. -/
theorem integerCoercion_fails :
    ¬ ∀ type value pattern expected, JsValue.IsJs value → Stored type value pattern →
      webPattern type value = some expected → pattern = expected := by
  intro h
  have hstored : Stored .i32 (.number .posInf)
      (slotPattern (Function.update (fun _ => 0) 2 0xffffffff) 2 .i32) :=
    @Stored.exportArgument .i32 _ identityInstance onePageConfig _ 0 0 0 _ [.number .posInf] _ rfl rfl rfl
      (.callExport rfl rfl rfl rfl) rfl
  have hjs : (JsValue.number .posInf).IsJs := by
    intro x hx
    cases hx
    exact ⟨0x7ff0000000000000, by decide +kernel⟩
  have hzero := h _ _ _ 0 hjs hstored rfl
  revert hzero
  decide

end WebAssemblyRuntime.Binding
