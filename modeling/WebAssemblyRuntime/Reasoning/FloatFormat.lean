import Mathlib.Algebra.Order.Field.Power
import Mathlib.Algebra.Order.Floor.Ring
import Mathlib.Data.Int.Log
import Mathlib.Data.Rat.Floor
import Mathlib.Tactic.Linarith
import Mathlib.Tactic.NormNum
import Mathlib.Tactic.Positivity
import Mathlib.Tactic.Ring

/-!
# FloatFormat — binary floating-point numbers as rationals

A bit pattern is a sign, an exponent and a fraction; it stands for a rational number, an infinity
or a NaN.  What is needed of such numbers here is how far apart they are, how they round toward
zero, and the pattern of the number nearest to a rational.
-/

namespace WebAssemblyRuntime.Reasoning

/-- A binary interchange format, by the lengths of its two fields. -/
structure FloatFormat where
  fractionBits : Nat
  exponentBits : Nat

namespace FloatFormat

def binary32 : FloatFormat := ⟨23, 8⟩

def binary64 : FloatFormat := ⟨52, 11⟩

@[simp] def width (f : FloatFormat) : Nat := 1 + f.exponentBits + f.fractionBits

/-- The digits of a significand. -/
@[simp] def precision (f : FloatFormat) : Nat := f.fractionBits + 1

/-- The exponent of the smallest subnormal. -/
def minExponent (f : FloatFormat) : Int := 2 - 2 ^ (f.exponentBits - 1) - f.fractionBits

/-- The bits of infinity, without the sign. -/
def infinity (f : FloatFormat) : Nat := (2 ^ f.exponentBits - 1) * 2 ^ f.fractionBits

def signBit (f : FloatFormat) : Nat := 2 ^ (f.exponentBits + f.fractionBits)

end FloatFormat

inductive FloatValue where
  | nan
  | infinity (negative : Bool)
  | finite (negative : Bool) (significand : Nat) (exponent : Int)
  deriving DecidableEq, Repr

/-- The value of a bit pattern. -/
def FloatFormat.decode (f : FloatFormat) (bits : BitVec f.width) : FloatValue :=
  let fraction := bits.toNat % 2 ^ f.fractionBits
  let exponent := bits.toNat / 2 ^ f.fractionBits % 2 ^ f.exponentBits
  let negative := bits.msb
  let bias : Int := 2 ^ (f.exponentBits - 1) - 1
  if exponent = 2 ^ f.exponentBits - 1 then
    if fraction = 0 then .infinity negative else .nan
  else if exponent = 0 then .finite negative fraction (1 - bias - f.fractionBits)
  else .finite negative (2 ^ f.fractionBits + fraction) (exponent - bias - f.fractionBits)

/-- The number that a finite value is. -/
def FloatValue.number (negative : Bool) (significand : Nat) (exponent : Int) : ℚ :=
  if negative then -(significand * 2 ^ exponent) else significand * 2 ^ exponent

/-- The integer next to `q` on the side of zero. -/
def towardZero (q : ℚ) : Int := if 0 ≤ q then ⌊q⌋ else ⌈q⌉

/-- Nearest integer, ties to even. -/
def roundHalfEven (q : ℚ) : Int :=
  let rest := q - ⌊q⌋
  if rest < 1 / 2 then ⌊q⌋
  else if 1 / 2 < rest then ⌊q⌋ + 1
  else if ⌊q⌋ % 2 = 0 then ⌊q⌋ else ⌊q⌋ + 1

/-- The quantum's exponent for a magnitude. -/
def FloatFormat.quantum (f : FloatFormat) (magnitude : ℚ) : Int :=
  max (Int.log 2 magnitude - f.fractionBits) f.minExponent

/-- The bits of the value nearest to a positive `magnitude`; a significand that rounds up to the
next power of two carries into the exponent field. -/
def FloatFormat.encodeMagnitude (f : FloatFormat) (magnitude : ℚ) : Nat :=
  let k := f.quantum magnitude
  let significand := (roundHalfEven (magnitude / 2 ^ k)).toNat
  -- too large a magnitude becomes infinity
  min ((k - f.minExponent).toNat * 2 ^ f.fractionBits + significand) f.infinity

/-! ## How far apart the numbers are -/

theorem FloatFormat.significand_lt {f : FloatFormat} {bits : BitVec f.width} {negative : Bool}
    {m : Nat} {e : Int} (h : f.decode bits = .finite negative m e) : m < 2 ^ f.precision := by
  have hfraction : bits.toNat % 2 ^ f.fractionBits < 2 ^ f.fractionBits :=
    Nat.mod_lt _ (Nat.two_pow_pos _)
  have hprecision : 2 ^ f.precision = 2 * 2 ^ f.fractionBits := by
    rw [FloatFormat.precision, Nat.pow_succ, Nat.mul_comm]
  rw [FloatFormat.decode] at h
  by_cases hspecial : bits.toNat / 2 ^ f.fractionBits % 2 ^ f.exponentBits =
      2 ^ f.exponentBits - 1
  · rw [if_pos hspecial] at h
    by_cases hzero : bits.toNat % 2 ^ f.fractionBits = 0
    · rw [if_pos hzero] at h
      cases h
    · rw [if_neg hzero] at h
      cases h
  · rw [if_neg hspecial] at h
    by_cases hsubnormal : bits.toNat / 2 ^ f.fractionBits % 2 ^ f.exponentBits = 0
    · rw [if_pos hsubnormal] at h
      cases h
      omega
    · rw [if_neg hsubnormal] at h
      cases h
      omega

/-- A number of `p` digits above `2 ^ k` is at least the spacing of such numbers above it. -/
theorem le_of_two_pow_lt {m p k : Nat} {e : Int} (hm : m < 2 ^ p) (hp : 0 < p) (hk : p ≤ k)
    (h : (2 : ℚ) ^ k < m * 2 ^ e) : (2 : ℚ) ^ k + 2 ^ (k - p + 1) ≤ m * 2 ^ e := by
  have hexp : ((k - p + 1 : Nat) : Int) ≤ e := by
    by_contra hlt
    -- a smaller exponent leaves the number below `2 ^ k`
    have hpow : (2 : ℚ) ^ e ≤ 2 ^ (k - p) := by
      rw [← zpow_natCast]
      exact zpow_le_zpow_right₀ (by norm_num) (by omega)
    have hbound : (m : ℚ) * 2 ^ e ≤ 2 ^ p * 2 ^ (k - p) := by
      have hm' : (m : ℚ) ≤ 2 ^ p := by exact_mod_cast Nat.le_of_lt hm
      gcongr
    rw [← pow_add, Nat.add_sub_cancel' hk] at hbound
    linarith
  rcases Int.le.dest hexp with ⟨j, rfl⟩
  have hsplit : (m : ℚ) * 2 ^ (((k - p + 1 : Nat) : Int) + (j : Int)) =
      ((m * 2 ^ j : Nat) : ℚ) * 2 ^ (k - p + 1) := by
    rw [zpow_add₀ (by norm_num), zpow_natCast, zpow_natCast]
    push_cast
    ring
  have hk' : (2 : ℚ) ^ k = ((2 ^ (p - 1) : Nat) : ℚ) * 2 ^ (k - p + 1) := by
    push_cast
    rw [← pow_add]
    congr 1
    omega
  rw [hsplit, hk'] at h ⊢
  -- in units of the spacing the two sides are integers
  have hlt : 2 ^ (p - 1) < m * 2 ^ j := by
    have hpos : (0 : ℚ) < 2 ^ (k - p + 1) := by positivity
    exact_mod_cast lt_of_mul_lt_mul_right h hpos.le
  have hle : ((2 ^ (p - 1) + 1 : Nat) : ℚ) ≤ ((m * 2 ^ j : Nat) : ℚ) := by exact_mod_cast hlt
  calc ((2 ^ (p - 1) : Nat) : ℚ) * 2 ^ (k - p + 1) + 2 ^ (k - p + 1)
      = ((2 ^ (p - 1) + 1 : Nat) : ℚ) * 2 ^ (k - p + 1) := by push_cast; ring
    _ ≤ ((m * 2 ^ j : Nat) : ℚ) * 2 ^ (k - p + 1) := by gcongr

/-- A number of `p` digits from `2 ^ p` on is an even integer. -/
theorem even_of_two_pow_le {m p : Nat} {e : Int} (hm : m < 2 ^ p) (h : (2 : ℚ) ^ p ≤ m * 2 ^ e) :
    ∃ k : Int, (m : ℚ) * 2 ^ e = (2 * k : Int) := by
  -- the significand alone is not large enough
  have he : 0 < e := by
    by_contra hneg
    have hscale : (2 : ℚ) ^ e ≤ 1 := zpow_le_one_of_nonpos₀ (by norm_num) (by omega)
    have hle : (m : ℚ) * 2 ^ e ≤ m := mul_le_of_le_one_right (Nat.cast_nonneg m) hscale
    have hlt : (m : ℚ) < 2 ^ p := by exact_mod_cast hm
    linarith
  obtain ⟨k, rfl⟩ : ∃ k : Nat, e = k + 1 := ⟨(e - 1).toNat, by omega⟩
  refine ⟨m * 2 ^ k, ?_⟩
  rw [zpow_add₀ (by norm_num), zpow_natCast, zpow_one]
  push_cast
  ring

/-! ## Rounding toward zero -/

theorem towardZero_intCast (n : Int) : towardZero n = n := by
  rw [towardZero]
  by_cases hn : (0 : ℚ) ≤ n
  · rw [if_pos hn, Int.floor_intCast]
  · rw [if_neg hn, Int.ceil_intCast]

theorem towardZero_lt {q : ℚ} {n : Int} (hn : 0 < n) : towardZero q < n ↔ q < n := by
  rw [towardZero]
  by_cases hq : 0 ≤ q
  · rw [if_pos hq, Int.floor_lt]
  · rw [if_neg hq]
    have hneg : q < 0 := lt_of_not_ge hq
    have hceil : ⌈q⌉ ≤ 0 := Int.ceil_le.mpr (by exact_mod_cast hneg.le)
    have hnq : (0 : ℚ) < n := by exact_mod_cast hn
    constructor
    · exact fun _ => hneg.trans hnq
    · exact fun _ => by omega

theorem lt_towardZero {q : ℚ} {n : Int} (hn : n < 0) : n < towardZero q ↔ (n : ℚ) < q := by
  rw [towardZero]
  by_cases hq : 0 ≤ q
  · rw [if_pos hq]
    have hfloor : 0 ≤ ⌊q⌋ := Int.floor_nonneg.mpr hq
    have hnq : (n : ℚ) < 0 := by exact_mod_cast hn
    constructor
    · exact fun _ => hnq.trans_le hq
    · exact fun _ => by omega
  · rw [if_neg hq, Int.lt_ceil]

end WebAssemblyRuntime.Reasoning
