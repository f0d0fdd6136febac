import Mathlib.Algebra.Group.Nat.Defs
import Mathlib.Data.List.Nodup

/-!
# Utf8 — JavaScript strings and the polyfill's UTF-8 decoder

A JavaScript string is its list of UTF-16 code units.
-/

namespace WebAssemblyRuntime.Polyfill

abbrev JsString := List UInt16

/-- `String.fromCharCode` of one number. -/
def fromCharCode (n : Int) : UInt16 := UInt16.ofNat (n % 65536).toNat

/-- The branches of `utf8Decode` at a byte `a` with the next three bytes, which read as zero past
the end: the code units appended and the bytes used. -/
def utf8DecodeAt (a b c d : Nat) : List UInt16 × Nat :=
  if a < 0x80 then ([fromCharCode a], 1)
  else if a < 0xe0 then
    ([fromCharCode (((a &&& 0x1f) <<< 6 ||| b &&& 0x3f : Nat))], 2)
  else if a < 0xf0 then
    ([fromCharCode (((a &&& 0x0f) <<< 12 ||| (b &&& 0x3f) <<< 6 ||| c &&& 0x3f : Nat))], 3)
  else
    let bits : Nat :=
      (a &&& 0x07) <<< 18 ||| (b &&& 0x3f) <<< 12 ||| (c &&& 0x3f) <<< 6 ||| d &&& 0x3f
    -- negative for an overlong encoding, as in JavaScript
    let cp : Int := bits - 0x10000
    ([fromCharCode (0xd800 + cp / 1024), fromCharCode (0xdc00 + cp % 1024)], 4)

/-- The loop of `utf8Decode`; the second argument counts bytes already used. -/
def utf8DecodeLoop : List UInt8 → Nat → JsString
  | [], _ => []
  | _ :: bytes, used + 1 => utf8DecodeLoop bytes used
  | a :: bytes, 0 =>
    let byte (i : Nat) : Nat := (bytes.getD i 0).toNat
    let (units, used) := utf8DecodeAt a.toNat (byte 0) (byte 1) (byte 2)
    units ++ utf8DecodeLoop bytes (used - 1)

def utf8Decode (bytes : List UInt8) : JsString := utf8DecodeLoop bytes 0

/-! ## Valid names -/

/-- The UTF-16 encoding of a scalar value. -/
def utf16 (c : Char) : List UInt16 :=
  let v := c.val.toNat
  if v < 0x10000 then [UInt16.ofNat v]
  else [UInt16.ofNat (0xd800 + (v - 0x10000) / 1024), UInt16.ofNat (0xdc00 + (v - 0x10000) % 1024)]

def encodeUtf8 (chars : List Char) : List UInt8 := chars.flatMap String.utf8EncodeChar

def encodeUtf16 (chars : List Char) : JsString := chars.flatMap utf16

/-- The bytes of a well-formed name. -/
def ValidUtf8 (bytes : List UInt8) : Prop := ∃ chars, bytes = encodeUtf8 chars

theorem char_ranges (c : Char) :
    c.val.toNat < 0xd800 ∨ 0xdfff < c.val.toNat ∧ c.val.toNat < 0x110000 :=
  c.valid

theorem fromCharCode_natCast {n : Nat} (h : n < 65536) : fromCharCode n = UInt16.ofNat n := by
  rw [fromCharCode, show ((n : Int) % 65536).toNat = n by omega]

theorem ofNat_toNat {n : Nat} (h : n < 256) : (UInt8.ofNat n).toNat = n := by
  rw [UInt8.toNat_ofNat']
  omega

/-- Masking the payload of a lead or continuation byte. -/
theorem and_low (k m x mask : Nat) (hmask : mask = 2 ^ k - 1) (h : x < 2 ^ k) :
    (2 ^ k * m + x) &&& mask = x := by
  rw [hmask, Nat.and_two_pow_sub_one_eq_mod, Nat.mul_add_mod, Nat.mod_eq_of_lt h]

theorem or_low (k m x : Nat) (h : x < 2 ^ k) : m <<< k ||| x = m * 2 ^ k + x := by
  rw [← Nat.shiftLeft_add_eq_or_of_lt h, Nat.shiftLeft_eq]

theorem continuation_toNat (v : Nat) :
    (UInt8.ofNat (v % 0x40 + 0x80)).toNat = 2 ^ 6 * 2 + v % 64 := by
  rw [ofNat_toNat (by omega)]
  omega

theorem utf8DecodeAt_two {v : Nat} (h : v ≤ 0x7ff) (x y : Nat) :
    utf8DecodeAt (2 ^ 5 * 6 + v / 64) (2 ^ 6 * 2 + v % 64) x y = ([UInt16.ofNat v], 2) := by
  have hbits : ((2 ^ 5 * 6 + v / 64) &&& 0x1f) <<< 6 ||| (2 ^ 6 * 2 + v % 64) &&& 0x3f = v := by
    rw [and_low 5 6 (v / 64) 0x1f rfl (by omega), and_low 6 2 (v % 64) 0x3f rfl (by omega),
      or_low 6 (v / 64) (v % 64) (by omega)]
    omega
  rw [utf8DecodeAt, if_neg (by omega), if_pos (by omega), hbits, fromCharCode_natCast (by omega)]

theorem utf8DecodeAt_three {v : Nat} (h : v ≤ 0xffff) (x : Nat) :
    utf8DecodeAt (2 ^ 4 * 14 + v / 4096) (2 ^ 6 * 2 + v / 64 % 64) (2 ^ 6 * 2 + v % 64) x =
      ([UInt16.ofNat v], 3) := by
  have hbits : ((2 ^ 4 * 14 + v / 4096) &&& 0x0f) <<< 12 |||
      ((2 ^ 6 * 2 + v / 64 % 64) &&& 0x3f) <<< 6 ||| (2 ^ 6 * 2 + v % 64) &&& 0x3f = v := by
    rw [and_low 4 14 (v / 4096) 0x0f rfl (by omega), and_low 6 2 (v / 64 % 64) 0x3f rfl (by omega),
      and_low 6 2 (v % 64) 0x3f rfl (by omega), Nat.or_assoc,
      or_low 6 (v / 64 % 64) (v % 64) (by omega), or_low 12 (v / 4096) _ (by omega)]
    omega
  rw [utf8DecodeAt, if_neg (by omega), if_neg (by omega), if_pos (by omega), hbits,
    fromCharCode_natCast (by omega)]

theorem utf8DecodeAt_four {v : Nat} (hmin : 0xffff < v) (hmax : v < 0x110000) :
    utf8DecodeAt (2 ^ 3 * 30 + v / 262144) (2 ^ 6 * 2 + v / 4096 % 64) (2 ^ 6 * 2 + v / 64 % 64)
      (2 ^ 6 * 2 + v % 64) =
        ([UInt16.ofNat (0xd800 + (v - 0x10000) / 1024),
          UInt16.ofNat (0xdc00 + (v - 0x10000) % 1024)], 4) := by
  have hbits : ((2 ^ 3 * 30 + v / 262144) &&& 0x07) <<< 18 |||
      ((2 ^ 6 * 2 + v / 4096 % 64) &&& 0x3f) <<< 12 |||
        ((2 ^ 6 * 2 + v / 64 % 64) &&& 0x3f) <<< 6 ||| (2 ^ 6 * 2 + v % 64) &&& 0x3f = v := by
    rw [and_low 3 30 (v / 262144) 0x07 rfl (by omega),
      and_low 6 2 (v / 4096 % 64) 0x3f rfl (by omega),
      and_low 6 2 (v / 64 % 64) 0x3f rfl (by omega), and_low 6 2 (v % 64) 0x3f rfl (by omega),
      Nat.or_assoc, Nat.or_assoc, or_low 6 (v / 64 % 64) (v % 64) (by omega),
      or_low 12 (v / 4096 % 64) _ (by omega), or_low 18 (v / 262144) _ (by omega)]
    omega
  -- `v - 0x10000` is not negative, so both halves are natural numbers
  have hhigh : (0xd800 : Int) + ((v : Nat) - 0x10000 : Int) / 1024 =
      ((0xd800 + (v - 0x10000) / 1024 : Nat) : Int) := by omega
  have hlow : (0xdc00 : Int) + ((v : Nat) - 0x10000 : Int) % 1024 =
      ((0xdc00 + (v - 0x10000) % 1024 : Nat) : Int) := by omega
  rw [utf8DecodeAt, if_neg (by omega), if_neg (by omega), if_neg (by omega), hbits]
  show ([fromCharCode (0xd800 + ((v : Nat) - 0x10000 : Int) / 1024),
    fromCharCode (0xdc00 + ((v : Nat) - 0x10000 : Int) % 1024)], 4) = _
  rw [hhigh, hlow, fromCharCode_natCast (by omega), fromCharCode_natCast (by omega)]

/-- One encoded character is decoded to its UTF-16 units, whatever comes after it. -/
theorem utf8DecodeLoop_encodeChar (c : Char) (bytes : List UInt8) :
    utf8DecodeLoop (String.utf8EncodeChar c ++ bytes) 0 = utf16 c ++ utf8DecodeLoop bytes 0 := by
  have hranges := char_ranges c
  unfold String.utf8EncodeChar utf16
  generalize c.val.toNat = v at hranges ⊢
  -- by the number of bytes
  by_cases h1 : v ≤ 0x7f
  · have hbyte : (UInt8.ofNat v).toNat = v := ofNat_toNat (by omega)
    have hunits (x y z : Nat) : utf8DecodeAt v x y z = ([UInt16.ofNat v], 1) := by
      rw [utf8DecodeAt, if_pos (by omega), fromCharCode_natCast (by omega)]
    simp only [if_pos h1, if_pos (show v < 0x10000 by omega), List.cons_append, List.nil_append,
      utf8DecodeLoop, hbyte, hunits]
  by_cases h2 : v ≤ 0x7ff
  · have hlead : (UInt8.ofNat (v / 64 % 0x20 + 0xc0)).toNat = 2 ^ 5 * 6 + v / 64 := by
      rw [ofNat_toNat (by omega)]
      omega
    simp only [if_neg h1, if_pos h2, if_pos (show v < 0x10000 by omega), List.cons_append,
      List.nil_append, utf8DecodeLoop, hlead, List.getD_cons_zero, continuation_toNat,
      utf8DecodeAt_two h2]
  by_cases h3 : v ≤ 0xffff
  · have hlead : (UInt8.ofNat (v / 4096 % 0x10 + 0xe0)).toNat = 2 ^ 4 * 14 + v / 4096 := by
      rw [ofNat_toNat (by omega)]
      omega
    simp only [if_neg h1, if_neg h2, if_pos h3, if_pos (show v < 0x10000 by omega),
      List.cons_append, List.nil_append, utf8DecodeLoop, hlead, List.getD_cons_zero,
      List.getD_cons_succ, continuation_toNat, utf8DecodeAt_three h3]
  · have hlead : (UInt8.ofNat (v / 262144 % 0x08 + 0xf0)).toNat = 2 ^ 3 * 30 + v / 262144 := by
      rw [ofNat_toNat (by omega)]
      omega
    simp only [if_neg h1, if_neg h2, if_neg h3, if_neg (show ¬ v < 0x10000 by omega),
      List.cons_append, List.nil_append, utf8DecodeLoop, hlead, List.getD_cons_zero,
      List.getD_cons_succ, continuation_toNat,
      utf8DecodeAt_four (show 0xffff < v by omega) (show v < 0x110000 by omega)]

theorem utf8Decode_encodeUtf8 (chars : List Char) :
    utf8Decode (encodeUtf8 chars) = encodeUtf16 chars := by
  induction chars with
  | nil => rfl
  | cons c rest ih =>
    show utf8DecodeLoop (String.utf8EncodeChar c ++ encodeUtf8 rest) 0 = utf16 c ++ encodeUtf16 rest
    rw [utf8DecodeLoop_encodeChar, ← ih]
    rfl

theorem uint16_ofNat_inj {m n : Nat} (hm : m < 65536) (hn : n < 65536)
    (h : UInt16.ofNat m = UInt16.ofNat n) : m = n := by
  have hnat := congrArg UInt16.toNat h
  rw [UInt16.toNat_ofNat', UInt16.toNat_ofNat'] at hnat
  omega

/-- The units of the first character determine it: surrogates stand for no character alone. -/
theorem utf16_inj {c d : Char} {us vs : List UInt16} (h : utf16 c ++ us = utf16 d ++ vs) :
    c = d ∧ us = vs := by
  have hc := char_ranges c
  have hd := char_ranges d
  have hval : c.val.toNat = d.val.toNat → c = d := by
    intro hnat
    exact Char.ext (UInt32.toNat_inj.mp hnat)
  unfold utf16 at h
  generalize c.val.toNat = m at hc h hval
  generalize d.val.toNat = n at hd h hval
  -- a first unit is a surrogate exactly when the character has two units
  by_cases hm : m < 0x10000
  · by_cases hn : n < 0x10000
    · simp only [if_pos hm, if_pos hn, List.cons_append, List.nil_append, List.cons.injEq] at h
      exact ⟨hval (uint16_ofNat_inj hm hn h.1), h.2⟩
    · simp only [if_pos hm, if_neg hn, List.cons_append, List.nil_append, List.cons.injEq] at h
      have hfirst := uint16_ofNat_inj hm (by omega) h.1
      omega
  · by_cases hn : n < 0x10000
    · simp only [if_neg hm, if_pos hn, List.cons_append, List.nil_append, List.cons.injEq] at h
      have hfirst := uint16_ofNat_inj (by omega) hn h.1
      omega
    · simp only [if_neg hm, if_neg hn, List.cons_append, List.nil_append, List.cons.injEq] at h
      have hfirst := uint16_ofNat_inj (by omega) (by omega) h.1
      have hsecond := uint16_ofNat_inj (by omega) (by omega) h.2.1
      exact ⟨hval (by omega), h.2.2⟩

theorem utf16_ne_nil (c : Char) : utf16 c ≠ [] := by
  unfold utf16
  by_cases hc : c.val.toNat < 0x10000
  · simp only [if_pos hc]
    exact List.cons_ne_nil _ _
  · simp only [if_neg hc]
    exact List.cons_ne_nil _ _

theorem encodeUtf16_injective : Function.Injective encodeUtf16 := by
  intro cs ds h
  induction cs generalizing ds with
  | nil =>
    cases ds with
    | nil => rfl
    | cons d ds => exact absurd (List.append_eq_nil_iff.mp h.symm).1 (utf16_ne_nil d)
  | cons c cs ih =>
    cases ds with
    | nil => exact absurd (List.append_eq_nil_iff.mp h).1 (utf16_ne_nil c)
    | cons d ds =>
      rcases utf16_inj (c := c) (d := d) h with ⟨hhead, htail⟩
      rw [hhead, ih htail]

end WebAssemblyRuntime.Polyfill
