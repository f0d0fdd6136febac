import WebAssemblyRuntime.Reasoning.FloatFormat
import WebAssemblyRuntime.Wasm3.Arithmetic

/-!
# Truncation — floating-point numbers to integers

`OP_TRUNC` and `OP_TRUNC_SAT` compare their operand with two literals of its own format.  The lower
literal is the first number of the format below the range of the integer type, not the integer
below that range, which the format may not have.
-/

namespace WebAssemblyRuntime.Wasm3

open Reasoning

inductive FloatType where
  | f32
  | f64
  deriving DecidableEq, Repr

@[simp] def FloatType.format : FloatType → FloatFormat
  | .f32 => .binary32
  | .f64 => .binary64

/-- RMIN and RMAX of `OP_I32_TRUNC_F32` and the other seven, which their `_SAT` forms share; every
literal is a number of its format. -/
def truncBounds (F : FloatType) (t : IntType) (signed : Bool) : Int × Int :=
  match F, t, signed with
  | .f32, .i32, true => (-2147483904, 2147483648)
  | .f32, .i32, false => (-1, 4294967296)
  | .f64, .i32, true => (-2147483649, 2147483648)
  | .f64, .i32, false => (-1, 4294967296)
  | .f32, .i64, true => (-9223373136366403584, 9223372036854775808)
  | .f32, .i64, false => (-1, 18446744073709551616)
  | .f64, .i64, true => (-9223372036854777856, 9223372036854775808)
  | .f64, .i64, false => (-1, 18446744073709551616)

/-- IMIN and IMAX: the least and the greatest number of the TYPE. -/
def intBounds (t : IntType) (signed : Bool) : Int × Int :=
  match t, signed with
  | .i32, true => (-2147483648, 2147483647)
  | .i32, false => (0, 4294967295)
  | .i64, true => (-9223372036854775808, 9223372036854775807)
  | .i64, false => (0, 18446744073709551615)

/-- `A <= r`. -/
def atMost (A : FloatValue) (r : Int) : Bool :=
  match A with
  | .nan => false
  | .infinity negative => negative
  | .finite negative m e => FloatValue.number negative m e ≤ r

/-- `A >= r`. -/
def atLeast (A : FloatValue) (r : Int) : Bool :=
  match A with
  | .nan => false
  | .infinity negative => !negative
  | .finite negative m e => (r : ℚ) ≤ FloatValue.number negative m e

/-- `(TYPE) A`, which C defines for a number whose integer part the TYPE has. -/
def castToInt (t : IntType) (A : FloatValue) : BitVec t.width :=
  match A with
  | .finite negative m e => BitVec.ofInt _ (towardZero (FloatValue.number negative m e))
  | _ => 0

/-- `OP_TRUNC`. -/
def opTrunc (F : FloatType) (t : IntType) (signed : Bool) (a : BitVec F.format.width) :
    Except M3Err (BitVec t.width) :=
  let A := F.format.decode a
  if A = .nan then .error .trapIntegerConversion
  else if atMost A (truncBounds F t signed).1 || atLeast A (truncBounds F t signed).2 then
    .error .trapIntegerOverflow
  else .ok (castToInt t A)

/-- `OP_TRUNC_SAT`. -/
def opTruncSat (F : FloatType) (t : IntType) (signed : Bool) (a : BitVec F.format.width) :
    BitVec t.width :=
  let A := F.format.decode a
  if A = .nan then 0
  else if atMost A (truncBounds F t signed).1 then BitVec.ofInt _ (intBounds t signed).1
  else if atLeast A (truncBounds F t signed).2 then BitVec.ofInt _ (intBounds t signed).2
  else castToInt t A

/-! ## The conversions of WebAssembly -/

/-- `trunc`: undefined if the integer part is not a number of the type. -/
def truncate (t : IntType) (signed : Bool) : FloatValue → Except M3Err (BitVec t.width)
  | .nan => .error .trapIntegerConversion
  | .infinity _ => .error .trapIntegerOverflow
  | .finite negative m e =>
      let n := towardZero (FloatValue.number negative m e)
      if (intBounds t signed).1 ≤ n ∧ n ≤ (intBounds t signed).2 then .ok (BitVec.ofInt _ n)
      else .error .trapIntegerOverflow

/-- `trunc_sat`: the number of the type that is nearest to the integer part, and zero for a NaN. -/
def truncateSat (t : IntType) (signed : Bool) : FloatValue → BitVec t.width
  | .nan => 0
  | .infinity negative => BitVec.ofInt _ (if negative then (intBounds t signed).1
      else (intBounds t signed).2)
  | .finite negative m e =>
      let n := towardZero (FloatValue.number negative m e)
      BitVec.ofInt _ (max (intBounds t signed).1 (min n (intBounds t signed).2))

/-! ## Agreement -/

/-- Between a power of two beyond the precision and the next number, the format has nothing. -/
theorem number_le_of_lt (negative : Bool) {m p k : Nat} {e : Int} (hm : m < 2 ^ p) (hp : 0 < p)
    (hk : p ≤ k) (h : FloatValue.number negative m e ≤ -(2 ^ k + 1)) :
    FloatValue.number negative m e ≤ -(2 ^ k + 2 ^ (k - p + 1)) := by
  have hpos : (0 : ℚ) ≤ m * 2 ^ e := by positivity
  have hpow : (0 : ℚ) < 2 ^ k := by positivity
  cases negative with
  | true =>
    rw [FloatValue.number, if_pos rfl] at h ⊢
    have hgap := le_of_two_pow_lt hm hp hk (show (2 : ℚ) ^ k < m * 2 ^ e by linarith)
    linarith
  | false =>
    rw [FloatValue.number, if_neg Bool.false_ne_true] at h
    linarith

/-- The literals decide what they are for: a number of the format is at most RMIN exactly if its
integer part is below the TYPE, and at least RMAX exactly if it is above. -/
theorem truncBounds_exact {F : FloatType} (t : IntType) (signed negative : Bool) {m : Nat} (e : Int)
    (hm : m < 2 ^ F.format.precision) :
    (FloatValue.number negative m e ≤ (truncBounds F t signed).1 ↔
      towardZero (FloatValue.number negative m e) < (intBounds t signed).1) ∧
    ((truncBounds F t signed).2 ≤ FloatValue.number negative m e ↔
      (intBounds t signed).2 < towardZero (FloatValue.number negative m e)) := by
  generalize hq : FloatValue.number negative m e = q
  have hlow : ∀ n : Int, n - 1 < 0 → (towardZero q < n ↔ q ≤ ((n - 1 : Int) : ℚ)) := by
    intro n hn
    rw [← not_lt, ← lt_towardZero hn]
    omega
  have hhigh : ∀ n : Int, 0 < n + 1 → (n < towardZero q ↔ ((n + 1 : Int) : ℚ) ≤ q) := by
    intro n hn
    rw [← not_lt, ← towardZero_lt hn]
    omega
  constructor
  · rw [hlow _ (by cases t <;> cases signed <;> decide)]
    -- where the format has the integer below the range, that is RMIN
    cases F with
    | f32 =>
      cases signed with
      | false => cases t <;> rfl
      | true =>
        cases t with
        | i32 =>
          have hgap := number_le_of_lt negative (e := e) (k := 31) hm (by decide)
            (by decide)
          rw [hq] at hgap
          norm_num [truncBounds, intBounds, FloatFormat.binary32] at hgap ⊢
          exact ⟨fun h => by linarith, hgap⟩
        | i64 =>
          have hgap := number_le_of_lt negative (e := e) (k := 63) hm (by decide)
            (by decide)
          rw [hq] at hgap
          norm_num [truncBounds, intBounds, FloatFormat.binary32] at hgap ⊢
          exact ⟨fun h => by linarith, hgap⟩
    | f64 =>
      cases signed with
      | false => cases t <;> rfl
      | true =>
        cases t with
        | i32 => rfl
        | i64 =>
          have hgap := number_le_of_lt negative (e := e) (k := 63) hm (by decide)
            (by decide)
          rw [hq] at hgap
          norm_num [truncBounds, intBounds, FloatFormat.binary64] at hgap ⊢
          exact ⟨fun h => by linarith, hgap⟩
  · rw [hhigh _ (by cases t <;> cases signed <;> decide)]
    cases F <;> cases t <;> cases signed <;> rfl

/-- Every conversion of every bit pattern is the one of WebAssembly, traps included. -/
theorem opTrunc_eq (F : FloatType) (t : IntType) (signed : Bool) (a : BitVec F.format.width) :
    opTrunc F t signed a = truncate t signed (F.format.decode a) ∧
      opTruncSat F t signed a = truncateSat t signed (F.format.decode a) := by
  rw [opTrunc, opTruncSat]
  cases hA : F.format.decode a with
  | nan => exact ⟨rfl, rfl⟩
  | infinity negative => cases negative <;> exact ⟨rfl, rfl⟩
  | finite negative m e =>
    rcases truncBounds_exact t signed negative e
      (FloatFormat.significand_lt hA) with ⟨hlow, hhigh⟩
    have hbounds : (intBounds t signed).1 ≤ (intBounds t signed).2 := by
      cases t <;> cases signed <;> decide
    simp only [atMost, atLeast, truncate, truncateSat, castToInt, hlow, hhigh]
    generalize towardZero (FloatValue.number negative m e) = n
    by_cases hbelow : n < (intBounds t signed).1
    · have hclamp : max (intBounds t signed).1 (min n (intBounds t signed).2) =
          (intBounds t signed).1 := by omega
      simp [hbelow, Int.not_le.mpr hbelow, hclamp]
    · by_cases habove : (intBounds t signed).2 < n
      · have hclamp : max (intBounds t signed).1 (min n (intBounds t signed).2) =
            (intBounds t signed).2 := by omega
        simp [hbelow, habove, Int.not_le.mpr habove, hclamp]
      · simp [hbelow, habove, Int.not_lt.mp hbelow, Int.not_lt.mp habove]

end WebAssemblyRuntime.Wasm3
