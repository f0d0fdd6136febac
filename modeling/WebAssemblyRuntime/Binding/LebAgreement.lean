import WebAssemblyRuntime.Binding.ExportScan
import WebAssemblyRuntime.Polyfill.ByteReader
import WebAssemblyRuntime.Reasoning.Codec
import WebAssemblyRuntime.Reasoning.Leb128
import WebAssemblyRuntime.Wasm3.Reader

/-!
# LebAgreement — the three readers of a 32-bit LEB128 number

The interpreter accumulates in 64 bits and truncates, the binding in 32 unsigned bits, the polyfill
in 32 signed ones.
-/

open WebAssemblyRuntime.Polyfill WebAssemblyRuntime.Reasoning WebAssemblyRuntime.Wasm3

namespace WebAssemblyRuntime.Binding

theorem payload_uint64 (value : UInt64) (byte : UInt8) {shift : Nat} (h : shift < 32) :
    (value ||| (byte.toUInt64 &&& 0x7f) <<< UInt64.ofNat shift).toUInt32 =
      value.toUInt32 ||| (byte.toUInt32 &&& 0x7f) <<< UInt32.ofNat shift := by
  have hlt : UInt64.ofNat shift < 32 := by
    rw [UInt64.lt_iff_toNat_lt, UInt64.toNat_ofNat_of_lt' (by rw [UInt64.size]; omega)]
    exact h
  rw [UInt64.toUInt32_or, UInt64.toUInt32_shiftLeft _ _ hlt, UInt64.toUInt32_and,
    UInt8.toUInt32_toUInt64, UInt64.toUInt32_ofNat']
  rfl

theorem payload_int32 (result : Int32) (byte : UInt8) {k : Nat} (h : k < 5) :
    (result ||| (byte.toUInt32.toInt32 &&& 0x7f) <<< Int32.ofNat (7 * k)).toUInt32 =
      result.toUInt32 ||| (byte.toUInt32 &&& 0x7f) <<< UInt32.ofNat (7 * k) := by
  rw [Int32.toUInt32_or]
  -- the shifts 0, 7, 14, 21 and 28 are all below the width
  match k with
  | 0 | 1 | 2 | 3 | 4 => rfl

/-- The loops from the byte with number `k` on, of at most five. -/
theorem readLebU32Loop_eq (p : List UInt8) (value : UInt64) {k : Nat} (hk : k < 5) :
    (readLebU32Loop p value.toUInt32 (7 * k)).toOption =
      (checked (readLebUnsignedLoop 32 p (7 * k) value)).toOption.map
        fun (value, rest) => (value.toUInt32, rest) := by
  induction p generalizing value k with
  | nil => rfl
  | cons byte p ih =>
    rw [readLebU32Loop, if_neg (by omega), readLebUnsignedLoop]
    have hnext := payload_uint64 value byte (show 7 * k < 32 by omega)
    by_cases hlast : byte &&& 0x80 = 0
    · simp only [if_pos hlast, checked, ← hnext]
      rfl
    · simp only [if_neg hlast]
      by_cases hfive : k = 4
      · subst hfive
        -- a sixth byte is refused by both, whether or not there is one
        cases p with
        | nil => rfl
        | cons _ _ => rfl
      · rw [if_neg (by omega), ← hnext, show 7 * k + 7 = 7 * (k + 1) by omega]
        exact ih _ (by omega)

theorem lebLoop_eq (reader : ByteReader) (result : Int32) (value : UInt64)
    (hvalue : result.toUInt32 = value.toUInt32) {k : Nat} (hk : k < 5) :
    (ByteReader.lebLoop reader result (7 * k)).toOption =
      (checked (readLebUnsignedLoop 32 reader (7 * k) value)).toOption.map
        fun (value, rest) => (value.toUInt32, rest) := by
  induction reader generalizing result value k with
  | nil => rfl
  | cons byte reader ih =>
    have hnext := payload_int32 result byte hk
    rw [hvalue, ← payload_uint64 value byte (show 7 * k < 32 by omega)] at hnext
    rw [ByteReader.lebLoop, readLebUnsignedLoop]
    by_cases hlast : byte &&& 0x80 = 0
    · simp only [if_pos hlast, checked, hnext]
      rfl
    · simp only [if_neg hlast]
      by_cases hfive : k = 4
      -- the fifth byte asks for a sixth: both overflow
      · subst hfive
        rfl
      · rw [if_neg (by omega), if_neg (by omega), show 7 * k + 7 = 7 * (k + 1) by omega]
        exact ih _ _ hnext (by omega)

theorem readLEBu32_toOption (bytes : Bytes) :
    (readLEBu32 bytes).toOption = (checked (readLebUnsignedLoop 32 bytes 0 0)).toOption.map
      fun (value, rest) => (value.toUInt32, rest) := by
  unfold readLEBu32 readLebUnsigned
  cases checked (readLebUnsignedLoop 32 bytes 0 0) with
  | error e => rfl
  | ok read => rfl

theorem readLebU32_eq (p : List UInt8) : (readLebU32 p).toOption = (readLEBu32 p).toOption := by
  rw [readLEBu32_toOption]
  exact readLebU32Loop_eq p 0 (k := 0) (by decide)

theorem leb_eq (reader : ByteReader) :
    (ByteReader.leb reader).toOption = (readLEBu32 reader).toOption := by
  rw [readLEBu32_toOption]
  exact lebLoop_eq reader 0 0 rfl (k := 0) (by decide)

/-! ## What is read -/

/-- The value after one more group, while nothing is shifted out. -/
theorem payload_toNat {value : UInt64} {shift : Nat} (byte : UInt8) (hvalue : value.toNat < 2 ^ shift)
    (hshift : shift ≤ 28) :
    (value ||| (byte.toUInt64 &&& 0x7f) <<< UInt64.ofNat shift).toNat =
      value.toNat + byte.toNat % 128 * 2 ^ shift := by
  have hgroup : (byte.toUInt64 &&& 0x7f).toNat = byte.toNat % 128 := by
    rw [UInt64.toNat_and, UInt8.toNat_toUInt64]
    exact Nat.and_two_pow_sub_one_eq_mod byte.toNat 7
  have hplace : (UInt64.ofNat shift).toNat % 64 = shift := by
    rw [UInt64.toNat_ofNat_of_lt' (by rw [UInt64.size]; omega)]
    omega
  have hroom : byte.toNat % 128 * 2 ^ shift < 2 ^ 64 := by
    calc byte.toNat % 128 * 2 ^ shift < 2 ^ 7 * 2 ^ shift :=
          Nat.mul_lt_mul_of_pos_right (Nat.mod_lt _ (by decide)) (Nat.two_pow_pos shift)
      _ = 2 ^ (7 + shift) := (Nat.pow_add 2 7 shift).symm
      _ ≤ 2 ^ 64 := Nat.pow_le_pow_right (by decide) (by omega)
  rw [UInt64.toNat_or, UInt64.toNat_shiftLeft, hgroup, hplace, Nat.shiftLeft_eq,
    Nat.mod_eq_of_lt hroom, Nat.or_comm, ← Nat.shiftLeft_eq, ← Nat.shiftLeft_add_eq_or_of_lt hvalue,
    Nat.shiftLeft_eq, Nat.add_comm]

/-- A whole number that has its last bit below 35 is read to its end, with nothing lost on the way. -/
theorem readLebUnsignedLoop_code {code : Bytes} (hcode : LebCode code) (rest : Bytes) {shift : Nat}
    {value : UInt64} (hshift : shift + 7 * code.length ≤ 35) (hvalue : value.toNat < 2 ^ shift) :
    ∃ result, readLebUnsignedLoop 32 (code ++ rest) shift value = (none, result, rest) ∧
      result.toNat = value.toNat + lebValue code * 2 ^ shift := by
  induction hcode generalizing shift value with
  | @last byte hlast =>
    rw [List.length_singleton] at hshift
    refine ⟨value ||| (byte.toUInt64 &&& 0x7f) <<< UInt64.ofNat shift, ?_, ?_⟩
    · show readLebUnsignedLoop 32 (byte :: rest) shift value = _
      rw [readLebUnsignedLoop]
      simp only [if_pos hlast]
    · rw [payload_toNat byte hvalue (by omega)]
      rfl
  | @next byte code hnext hcode ih =>
    have hpos := hcode.length_pos
    rw [List.length_cons] at hshift
    have hstep := payload_toNat byte hvalue (show shift ≤ 28 by omega)
    have hsmall : value.toNat + byte.toNat % 128 * 2 ^ shift < 2 ^ (shift + 7) := by
      rw [Nat.pow_add]
      have hgroup : byte.toNat % 128 * 2 ^ shift ≤ 127 * 2 ^ shift :=
        Nat.mul_le_mul_right _ (by omega)
      omega
    rw [← hstep] at hsmall
    rcases ih (by omega) hsmall with ⟨result, hread, hresult⟩
    refine ⟨result, ?_, ?_⟩
    · show readLebUnsignedLoop 32 (byte :: (code ++ rest)) shift value = _
      rw [readLebUnsignedLoop]
      -- with more bytes to come this is not the fifth
      simp only [if_neg hnext, if_neg (show ¬ 32 ≤ shift + 7 by omega)]
      exact hread
    · rw [hresult, hstep, Nat.add_assoc, lebValue_shift]

/-- Whatever is read is a whole number, of which every byte but the last ends below bit 32. -/
theorem readLebUnsignedLoop_ok {bytes rest : Bytes} {shift : Nat} {value result : UInt64}
    (hshift : shift < 32) (h : readLebUnsignedLoop 32 bytes shift value = (none, result, rest)) :
    ∃ code, LebCode code ∧ shift + 7 * code.length < 39 ∧ bytes = code ++ rest := by
  induction bytes generalizing shift value with
  | nil => cases h
  | cons byte bytes ih =>
    rw [readLebUnsignedLoop] at h
    by_cases hlast : byte &&& 0x80 = 0
    · rw [if_pos hlast] at h
      cases h
      refine ⟨[byte], .last hlast, ?_, rfl⟩
      rw [List.length_singleton]
      omega
    · rw [if_neg hlast] at h
      rcases neg_of_ite h (fun hoverflow => by cases hoverflow) with ⟨hmore, h⟩
      rcases ih (Nat.lt_of_not_le hmore) h with ⟨code, hcode, hlength, rfl⟩
      refine ⟨byte :: code, .next hlast hcode, ?_, rfl⟩
      rw [List.length_cons]
      omega

/-- What `ReadLEB_u32` reads: whole numbers of at most five bytes, modulo `2 ^ 32`. -/
theorem readLEBu32_iff {bytes rest : Bytes} {n : UInt32} :
    readLEBu32 bytes = .ok (n, rest) ↔ ∃ code, LebCode code ∧ code.length ≤ 5 ∧
      bytes = code ++ rest ∧ n = UInt32.ofNat (lebValue code) := by
  have hread : ∀ code, LebCode code → code.length ≤ 5 →
      readLEBu32 (code ++ rest) = .ok (UInt32.ofNat (lebValue code), rest) := by
    intro code hcode hlength
    rcases readLebUnsignedLoop_code hcode rest (show 0 + 7 * code.length ≤ 35 by omega)
      (show (0 : UInt64).toNat < 2 ^ 0 by decide) with ⟨result, hloop, hresult⟩
    have hvalue : result.toUInt32 = UInt32.ofNat (lebValue code) := by
      apply UInt32.toNat_inj.mp
      rw [UInt64.toNat_toUInt32, hresult]
      show (0 + lebValue code * 2 ^ 0) % 2 ^ 32 = lebValue code % 2 ^ 32
      rw [Nat.zero_add, Nat.pow_zero, Nat.mul_one]
    unfold readLEBu32 readLebUnsigned
    rw [hloop]
    show Except.ok (result.toUInt32, rest) = _
    rw [hvalue]
  constructor
  · intro h
    rcases readLEBu32_ok h with ⟨value, hloop, -⟩
    rcases readLebUnsignedLoop_ok (by decide) hloop with ⟨code, hcode, hlength, rfl⟩
    have hfive : code.length ≤ 5 := by omega
    -- the number is the one that these bytes are read as
    rw [hread code hcode hfive] at h
    cases h
    exact ⟨code, hcode, hfive, rfl, rfl⟩
  · rintro ⟨code, hcode, hlength, rfl, rfl⟩
    exact hread code hcode hlength

theorem readLEBu32_decodes {n : Nat} (leb : LebEncoding 5 32 n) :
    Decodes readLEBu32 leb.bytes (UInt32.ofNat n) := by
  intro rest
  refine readLEBu32_iff.mpr ⟨leb.bytes, leb.bytes_code, leb.bytes_length_le, rfl, ?_⟩
  rw [leb.bytes_value]

theorem leb_decodes {n : Nat} (leb : LebEncoding 5 32 n) :
    Decodes ByteReader.leb leb.bytes (UInt32.ofNat n) :=
  fun rest => ok_of_toOption (leb_eq _) (readLEBu32_decodes leb rest)

theorem readLebU32_decodes {n : Nat} (leb : LebEncoding 5 32 n) :
    Decodes readLebU32 leb.bytes (UInt32.ofNat n) :=
  fun rest => ok_of_toOption (readLebU32_eq _) (readLEBu32_decodes leb rest)

/-! ## From an offset on -/

/-- All three readers find this number in so many bytes from the offset on. -/
structure ReadByAll (bytes : Bytes) (offset : Nat) (n : UInt32) (consumed : Nat) : Prop where
  within : offset + consumed ≤ bytes.length
  polyfill : ByteReader.leb (bytes.drop offset) = .ok (n, bytes.drop (offset + consumed))
  binding : readLebU32 (bytes.drop offset) = .ok (n, bytes.drop (offset + consumed))
  interpreter : readLEBu32 (bytes.drop offset) = .ok (n, bytes.drop (offset + consumed))

/-- None of them finds a number. -/
structure RefusedByAll (bytes : Bytes) (offset : Nat) : Prop where
  polyfill : ∃ e, ByteReader.leb (bytes.drop offset) = .error e
  binding : ∃ e, readLebU32 (bytes.drop offset) = .error e
  interpreter : ∃ e, readLEBu32 (bytes.drop offset) = .error e

theorem readByAll_of_code {bytes code rest : Bytes} {offset : Nat} (hcode : LebCode code)
    (hlength : code.length ≤ 5) (hdrop : bytes.drop offset = code ++ rest) :
    ReadByAll bytes offset (UInt32.ofNat (lebValue code)) code.length := by
  have hafter : bytes.drop (offset + code.length) = rest := by
    rw [← List.drop_drop, hdrop, List.drop_left]
  have hread : readLEBu32 (bytes.drop offset) =
      .ok (UInt32.ofNat (lebValue code), bytes.drop (offset + code.length)) := by
    rw [hafter]
    exact readLEBu32_iff.mpr ⟨code, hcode, hlength, hdrop, rfl⟩
  constructor
  · -- there is at least one byte after the offset
    have hpos := hcode.length_pos
    have hlengths := congrArg List.length hdrop
    rw [List.length_drop, List.length_append] at hlengths
    omega
  · exact ok_of_toOption (leb_eq _) hread
  · exact ok_of_toOption (readLebU32_eq _) hread
  · exact hread

/-- From any offset of any bytes the readers find the same number in the same bytes, or none of them
finds one; an encoded number is found however it is padded. -/
theorem lebReadersCoincide :
    (∀ bytes offset, RefusedByAll bytes offset ∨
      ∃ n consumed, ReadByAll bytes offset n consumed) ∧
    ∀ (before : Bytes) (n : Nat) (leb : LebEncoding 5 32 n) (rest : Bytes),
      ∃ value : UInt32, value.toNat = n ∧
        ReadByAll (before ++ (leb.bytes ++ rest)) before.length value leb.length := by
  constructor
  · intro bytes offset
    cases hread : readLEBu32 (bytes.drop offset) with
    | error e =>
      left
      exact ⟨error_of_toOption (leb_eq _) hread, error_of_toOption (readLebU32_eq _) hread, e, hread⟩
    | ok read =>
      rcases read with ⟨n, rest⟩
      rcases readLEBu32_iff.mp hread with ⟨code, hcode, hlength, hdrop, rfl⟩
      right
      exact ⟨_, _, readByAll_of_code hcode hlength hdrop⟩
  · intro before n leb rest
    have hdrop : (before ++ (leb.bytes ++ rest)).drop before.length = leb.bytes ++ rest :=
      List.drop_left
    have hread := readByAll_of_code leb.bytes_code leb.bytes_length_le hdrop
    rw [leb.bytes_value, leb.bytes_length] at hread
    exact ⟨UInt32.ofNat n, UInt32.toNat_ofNat_of_lt' leb.lt, hread⟩

/-- The fifth byte may hold bits that no number of 32 bits has; a sixth is never read. -/
example : ByteReader.leb [0xff, 0xff, 0xff, 0xff, 0x7f, 1] = .ok (0xffffffff, [1]) ∧
    (ByteReader.leb [0x80, 0x80, 0x80, 0x80, 0x80, 1]).toOption = none := by decide

end WebAssemblyRuntime.Binding
