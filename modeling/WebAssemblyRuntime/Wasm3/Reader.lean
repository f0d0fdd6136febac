import WebAssemblyRuntime.Reasoning.Loops
import WebAssemblyRuntime.Wasm3.Errors
import WebAssemblyRuntime.Wasm3.Module

/-!
# Reader — the byte readers of `m3_core.c`

A `bytes_t` that is read up to its `i_end` is the list of the bytes between the two pointers.
-/

open WebAssemblyRuntime.Reasoning

namespace WebAssemblyRuntime.Wasm3

abbrev Bytes := List UInt8

/-- `_throwif`. -/
def throwIf (e : M3Err) (cond : Bool) : Except M3Err Unit := if cond then .error e else .ok ()

def readU8 : Bytes → Except M3Err (UInt8 × Bytes)
  | [] => .error .wasmUnderrun
  | byte :: bytes => .ok (byte, bytes)

def readU32 : Bytes → Except M3Err (UInt32 × Bytes)
  | b0 :: b1 :: b2 :: b3 :: bytes =>
    .ok (b0.toUInt32 ||| b1.toUInt32 <<< 8 ||| b2.toUInt32 <<< 16 ||| b3.toUInt32 <<< 24, bytes)
  | _ => .error .wasmUnderrun

/-- `Read_f32` and `Read_f64`, whose values the parser only steps over. -/
def readFloat (size : Nat) (bytes : Bytes) : Except M3Err Bytes :=
  if size ≤ bytes.length then .ok (bytes.drop size) else .error .wasmUnderrun

/-- The loop of `ReadLebUnsigned`.  The value read so far and the pointer are stored whether or not
there is an error. -/
def readLebUnsignedLoop (maxNumBits : Nat) :
    Bytes → Nat → UInt64 → M3Result × UInt64 × Bytes
  | [], _, value => (some .wasmUnderrun, value, [])
  | byte :: bytes, shift, value =>
    let value := value ||| (byte.toUInt64 &&& 0x7f) <<< UInt64.ofNat shift
    -- the high bit says that another byte follows
    if byte &&& 0x80 = 0 then (none, value, bytes)
    else if maxNumBits ≤ shift + 7 then (some .lebOverflow, value, bytes)
    else readLebUnsignedLoop maxNumBits bytes (shift + 7) value

def readLebUnsigned (maxNumBits : Nat) (bytes : Bytes) : M3Result × UInt64 × Bytes :=
  readLebUnsignedLoop maxNumBits bytes 0 0

/-- The loop of `ReadLebSigned`, on the bits of its `i64`. -/
def readLebSignedLoop (maxNumBits : Nat) :
    Bytes → Nat → UInt64 → M3Result × UInt64 × Bytes
  | [], _, value => (some .wasmUnderrun, value, [])
  | byte :: bytes, shift, value =>
    let value := value ||| (byte.toUInt64 &&& 0x7f) <<< UInt64.ofNat shift
    if byte &&& 0x80 = 0 then
      -- the sign is extended unless the groups already fill the word
      let value :=
        if byte &&& 0x40 ≠ 0 ∧ shift + 7 < 64 then value ||| ~~~0 <<< UInt64.ofNat (shift + 7)
        else value
      (none, value, bytes)
    else if maxNumBits ≤ shift + 7 then (some .lebOverflow, value, bytes)
    else readLebSignedLoop maxNumBits bytes (shift + 7) value

def readLebSigned (maxNumBits : Nat) (bytes : Bytes) : M3Result × UInt64 × Bytes :=
  readLebSignedLoop maxNumBits bytes 0 0

/-- A read whose error is passed on by the caller. -/
def checked : M3Result × UInt64 × Bytes → Except M3Err (UInt64 × Bytes)
  | (some e, _, _) => .error e
  | (none, value, bytes) => .ok (value, bytes)

def readLEBu32 (bytes : Bytes) : Except M3Err (UInt32 × Bytes) := do
  let (value, bytes) ← checked (readLebUnsigned 32 bytes)
  .ok (value.toUInt32, bytes)

def readLEBu7 (bytes : Bytes) : Except M3Err (UInt8 × Bytes) := do
  let (value, bytes) ← checked (readLebUnsigned 7 bytes)
  .ok (value.toUInt8, bytes)

def readLEBi7 (bytes : Bytes) : Except M3Err (Int8 × Bytes) := do
  let (value, bytes) ← checked (readLebSigned 7 bytes)
  .ok (value.toUInt8.toInt8, bytes)

/-- `ReadLEB_i32` and `ReadLEB_i64`, whose values the parser only steps over. -/
def readLEBInt (maxNumBits : Nat) (bytes : Bytes) : Except M3Err Bytes := do
  let (_, bytes) ← checked (readLebSigned maxNumBits bytes)
  .ok bytes

def d_m3MaxSaneUtf8Length : UInt32 := 10000

/-- `Read_utf8`, on a heap with room for the copy. -/
def readUtf8 (bytes : Bytes) : Except M3Err (CString × Bytes) := do
  let (utf8Length, bytes) ← readLEBu32 bytes
  if utf8Length ≤ d_m3MaxSaneUtf8Length then
    if utf8Length.toNat ≤ bytes.length then
      .ok (bytes.take utf8Length.toNat, bytes.drop utf8Length.toNat)
    else .error .wasmUnderrun
  else .error .missingUTF8

/-- `NormalizeType`. -/
def normalizeType (convolutedWasmType : Int8) : Except M3Err M3ValueType :=
  match (-convolutedWasmType).toUInt8 with
  | 0x40 => .ok .none
  | 1 => .ok .i32
  | 2 => .ok .i64
  | 3 => .ok .f32
  | 4 => .ok .f64
  | 5 => .ok .v128
  | _ => .error .invalidTypeId

example : readLEBi7 [0x60] = .ok (-32, []) := by decide
example : readLEBu32 [0xe5, 0x8e, 0x26, 0] = .ok (624485, [0]) := by decide

/-! ## What a successful read says -/

variable {bytes rest : Bytes}

theorem throwIf_ok {e : M3Err} {cond : Bool} {u : Unit} (h : throwIf e cond = .ok u) :
    cond = false := by
  cases cond with
  | false => rfl
  | true => cases h

/-- Success uses up at least one byte. -/
theorem readLebUnsignedLoop_shrinks {maxNumBits shift : Nat} {value value' : UInt64}
    (h : readLebUnsignedLoop maxNumBits bytes shift value = (none, value', rest)) :
    rest.length < bytes.length := by
  induction bytes generalizing shift value with
  | nil => cases h
  | cons byte bytes ih =>
    rw [readLebUnsignedLoop] at h
    -- the loop ends at this byte, overflows, or reads another one
    by_cases hlast : byte &&& 0x80 = 0
    · rw [if_pos hlast] at h
      cases h
      exact Nat.lt_succ_self _
    · rw [if_neg hlast] at h
      rcases neg_of_ite h nofun with ⟨-, h⟩
      exact Nat.lt_succ_of_lt (ih h)

theorem readLebSignedLoop_shrinks {maxNumBits shift : Nat} {value value' : UInt64}
    (h : readLebSignedLoop maxNumBits bytes shift value = (none, value', rest)) :
    rest.length < bytes.length := by
  induction bytes generalizing shift value with
  | nil => cases h
  | cons byte bytes ih =>
    rw [readLebSignedLoop] at h
    by_cases hlast : byte &&& 0x80 = 0
    · rw [if_pos hlast] at h
      cases h
      exact Nat.lt_succ_self _
    · rw [if_neg hlast] at h
      rcases neg_of_ite h nofun with ⟨-, h⟩
      exact Nat.lt_succ_of_lt (ih h)

theorem checked_ok {read : M3Result × UInt64 × Bytes} {value : UInt64}
    (h : checked read = .ok (value, rest)) : read = (none, value, rest) := by
  rcases read with ⟨result, value', rest'⟩
  cases result with
  | none =>
    cases h
    rfl
  | some e => cases h

theorem readLEBu32_ok {n : UInt32} (h : readLEBu32 bytes = .ok (n, rest)) :
    ∃ value, readLebUnsigned 32 bytes = (none, value, rest) ∧ n = value.toUInt32 := by
  rcases bind_ok h with ⟨⟨value, rest'⟩, hread, h⟩
  cases h
  exact ⟨value, checked_ok hread, rfl⟩

theorem readLEBu32_shrinks {n : UInt32} (h : readLEBu32 bytes = .ok (n, rest)) :
    rest.length < bytes.length := by
  rcases readLEBu32_ok h with ⟨value, hread, -⟩
  exact readLebUnsignedLoop_shrinks hread

theorem readLEBInt_shrinks {maxNumBits : Nat} (h : readLEBInt maxNumBits bytes = .ok rest) :
    rest.length < bytes.length := by
  rcases bind_ok h with ⟨⟨value, rest'⟩, hread, h⟩
  cases h
  exact readLebSignedLoop_shrinks (checked_ok hread)

theorem lebByte (byte : UInt8) (hlast : byte &&& 0x80 = 0) :
    (0 ||| (byte.toUInt64 &&& 0x7f) <<< UInt64.ofNat 0).toUInt8 = byte := by
  -- all 256 bytes
  have hall : ∀ b : BitVec 8, UInt8.ofBitVec b &&& 0x80 = 0 →
      (0 ||| ((UInt8.ofBitVec b).toUInt64 &&& 0x7f) <<< UInt64.ofNat 0).toUInt8 =
        UInt8.ofBitVec b := by decide +kernel
  exact hall byte.toBitVec hlast

/-- Seven bits are one byte. -/
theorem readLEBu7_ok {n : UInt8} (h : readLEBu7 bytes = .ok (n, rest)) :
    bytes = n :: rest ∧ n &&& 0x80 = 0 := by
  rcases bind_ok h with ⟨⟨value, rest'⟩, hread, h⟩
  cases h
  have hloop := checked_ok hread
  cases bytes with
  | nil => cases hloop
  | cons byte bytes =>
    rw [readLebUnsigned, readLebUnsignedLoop] at hloop
    by_cases hlast : byte &&& 0x80 = 0
    · rw [if_pos hlast] at hloop
      cases hloop
      rw [lebByte byte hlast]
      exact ⟨rfl, hlast⟩
    -- a second byte would start at bit 7, where the read overflows
    · rw [if_neg hlast, if_pos (by omega)] at hloop
      cases hloop

theorem readUtf8_ok {name : CString} (h : readUtf8 bytes = .ok (name, rest)) :
    ∃ n payload, readLEBu32 bytes = .ok (n, payload) ∧ n.toNat ≤ payload.length ∧
      name = payload.take n.toNat ∧ rest = payload.drop n.toNat := by
  rcases bind_ok h with ⟨⟨n, payload⟩, hread, h⟩
  simp only at h
  rcases pos_of_ite h nofun with ⟨-, h⟩
  rcases pos_of_ite h nofun with ⟨hroom, h⟩
  cases h
  exact ⟨n, payload, hread, hroom, rfl, rfl⟩

end WebAssemblyRuntime.Wasm3
