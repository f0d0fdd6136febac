import Mathlib.Algebra.Group.Nat.Defs
import Mathlib.Tactic.Common

/-!
# LittleEndian — numbers in a byte-addressed memory
-/

namespace WebAssemblyRuntime.Reasoning

/-- The number in `n` bytes from `a` on, the least significant byte first. -/
def readLE (m : Nat → UInt8) : Nat → Nat → Nat
  | 0, _ => 0
  | n + 1, a => (m a).toNat + 256 * readLE m n (a + 1)

/-- The low `n` bytes of `v`, written from `a` on. -/
def writeLE (m : Nat → UInt8) (n a v : Nat) : Nat → UInt8 := fun i =>
  if a ≤ i ∧ i < a + n then UInt8.ofNat (v / 256 ^ (i - a)) else m i

variable {m m' : Nat → UInt8} {n a v : Nat}

/-- Reading looks at nothing but its own bytes. -/
theorem readLE_congr (h : ∀ i, a ≤ i → i < a + n → m i = m' i) : readLE m n a = readLE m' n a := by
  induction n generalizing a with
  | zero => rfl
  | succ n ih =>
    rw [readLE, readLE, h a (Nat.le_refl _) (by omega),
      ih (fun i hlow hhigh => h i (by omega) (by omega))]

theorem writeLE_of_not (h : ¬ (a ≤ i ∧ i < a + n)) : writeLE m n a v i = m i := if_neg h

/-- The bytes of `v` from the `k`-th on read as `v / 256 ^ k`. -/
theorem readLE_writeLE_drop {k : Nat} (hk : k ≤ n) :
    readLE (writeLE m n a v) (n - k) (a + k) = v / 256 ^ k % 256 ^ (n - k) := by
  induction hj : n - k generalizing k with
  | zero =>
    rw [readLE, Nat.pow_zero, Nat.mod_one]
  | succ j ih =>
    have hnext := ih (k := k + 1) (by omega) (by omega)
    rw [← Nat.add_assoc] at hnext
    have hbyte : (writeLE m n a v (a + k)).toNat = v / 256 ^ k % 256 := by
      rw [writeLE, if_pos ⟨by omega, by omega⟩, Nat.add_sub_cancel_left, UInt8.toNat_ofNat']
    rw [readLE, hbyte, hnext, Nat.pow_succ, ← Nat.div_div_eq_div_mul, Nat.pow_succ', Nat.mod_mul]

/-- What was written is read back, modulo the bytes there were for it. -/
theorem readLE_writeLE : readLE (writeLE m n a v) n a = v % 256 ^ n := by
  have hall := readLE_writeLE_drop (m := m) (a := a) (v := v) (Nat.zero_le n)
  rw [Nat.sub_zero, Nat.add_zero, Nat.pow_zero, Nat.div_one] at hall
  exact hall

/-- A read beside the written bytes finds what was there. -/
theorem readLE_writeLE_of_disjoint {k b : Nat} (h : b + k ≤ a ∨ a + n ≤ b) :
    readLE (writeLE m n a v) k b = readLE m k b :=
  readLE_congr fun i hlow hhigh => writeLE_of_not (by omega)

end WebAssemblyRuntime.Reasoning
