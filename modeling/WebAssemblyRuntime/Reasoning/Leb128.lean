import Mathlib.Algebra.Order.Group.Nat
import Mathlib.Data.Nat.Digits.Defs
import Mathlib.Tactic.Ring

/-!
# Leb128 — unsigned LEB128 numbers with padding

A number is written in groups of seven bits, the lowest first; every byte but the last has its high
bit set.  Groups of zeros at the end are padding.
-/

namespace WebAssemblyRuntime.Reasoning

/-- `n` in this many groups. -/
def lebBytes : Nat → Nat → List UInt8
  | 0, _ => []
  | 1, n => [UInt8.ofNat n]
  | length + 2, n => UInt8.ofNat (n % 128 + 128) :: lebBytes (length + 1) (n / 128)

/-- An encoding of `n` as a number of at most so many bits in at most so many bytes. -/
structure LebEncoding (maxLength bits n : Nat) where
  length : Nat
  pos : 0 < length
  length_le : length ≤ maxLength
  fits : n < 2 ^ (7 * length)
  lt : n < 2 ^ bits

def LebEncoding.bytes {maxLength bits n : Nat} (leb : LebEncoding maxLength bits n) : List UInt8 :=
  lebBytes leb.length n

/-- One whole number, of any length: the last byte is the only one without a high bit. -/
inductive LebCode : List UInt8 → Prop
  | last {byte : UInt8} (hlast : byte &&& 0x80 = 0) : LebCode [byte]
  | next {byte : UInt8} {code : List UInt8} (hnext : byte &&& 0x80 ≠ 0) (rest : LebCode code) :
    LebCode (byte :: code)

/-- The number that the groups make up. -/
def lebValue (code : List UInt8) : Nat := Nat.ofDigits 128 (code.map fun byte => byte.toNat % 128)

/-! ## Whole numbers -/

variable {code : List UInt8}

theorem lebValue_cons (byte : UInt8) (code : List UInt8) :
    lebValue (byte :: code) = byte.toNat % 128 + 128 * lebValue code := rfl

/-- A group at its place, and the rest seven places on. -/
theorem lebValue_shift (byte : UInt8) (code : List UInt8) (shift : Nat) :
    byte.toNat % 128 * 2 ^ shift + lebValue code * 2 ^ (shift + 7) =
      lebValue (byte :: code) * 2 ^ shift := by
  rw [lebValue_cons, pow_add]
  ring

theorem LebCode.length_pos (h : LebCode code) : 0 < code.length := by
  cases h with
  | last _ => exact Nat.one_pos
  | next _ _ => exact Nat.succ_pos _

/-! ## Encoded numbers -/

variable {length n : Nat}

/-- The byte of a last group ends the number. -/
theorem lastByte_high (h : n < 128) : UInt8.ofNat n &&& 0x80 = 0 := by
  have hbytes : ∀ n < 128, UInt8.ofNat n &&& 0x80 = 0 := by decide
  exact hbytes n h

/-- The byte of any other group does not. -/
theorem nextByte_high (n : Nat) : UInt8.ofNat (n % 128 + 128) &&& 0x80 ≠ 0 := by
  have hbytes : ∀ n < 128, UInt8.ofNat (n + 128) &&& 0x80 ≠ 0 := by decide
  exact hbytes (n % 128) (Nat.mod_lt n (by decide))

theorem div_fits (h : n < 2 ^ (7 * (length + 2))) : n / 128 < 2 ^ (7 * (length + 1)) := by
  apply Nat.div_lt_of_lt_mul
  calc n < 2 ^ (7 * (length + 2)) := h
    _ = 128 * 2 ^ (7 * (length + 1)) := by
      rw [show 7 * (length + 2) = 7 * (length + 1) + 7 by omega, pow_add]
      ring

theorem lebBytes_length (length n : Nat) : (lebBytes length n).length = length := by
  induction length, n using lebBytes.induct with
  | case1 n => rfl
  | case2 n => rfl
  | case3 length n ih => rw [lebBytes, List.length_cons, ih]

theorem lebBytes_code (hpos : 0 < length) (hfits : n < 2 ^ (7 * length)) :
    LebCode (lebBytes length n) := by
  induction length, n using lebBytes.induct with
  | case1 n => omega
  | case2 n => exact .last (lastByte_high hfits)
  | case3 length n ih => exact .next (nextByte_high n) (ih (Nat.succ_pos length) (div_fits hfits))

theorem lebValue_lebBytes (hfits : n < 2 ^ (7 * length)) : lebValue (lebBytes length n) = n := by
  induction length, n using lebBytes.induct with
  | case1 n =>
    show 0 = n
    omega
  | case2 n =>
    show (UInt8.ofNat n).toNat % 128 + 128 * 0 = n
    rw [UInt8.toNat_ofNat']
    omega
  | case3 length n ih =>
    rw [lebBytes, lebValue_cons, ih (div_fits hfits), UInt8.toNat_ofNat']
    omega

namespace LebEncoding

variable {maxLength bits : Nat}

theorem bytes_length (leb : LebEncoding maxLength bits n) : leb.bytes.length = leb.length :=
  lebBytes_length leb.length n

theorem bytes_length_le (leb : LebEncoding maxLength bits n) : leb.bytes.length ≤ maxLength :=
  leb.bytes_length.le.trans leb.length_le

theorem bytes_code (leb : LebEncoding maxLength bits n) : LebCode leb.bytes :=
  lebBytes_code leb.pos leb.fits

theorem bytes_value (leb : LebEncoding maxLength bits n) : lebValue leb.bytes = n :=
  lebValue_lebBytes leb.fits

end LebEncoding

end WebAssemblyRuntime.Reasoning
