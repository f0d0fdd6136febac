import WebAssemblyRuntime.Reasoning.Loops
import Mathlib.Tactic.Common

/-!
# ExportScan — the scanners of `react-native-webassembly.cpp`

They run over module bytes the parser has accepted and return `false` (here an error) on anything
malformed.  A pointer with its end is the list of the bytes between the two.
-/

open WebAssemblyRuntime.Reasoning

namespace WebAssemblyRuntime.Binding

/-- The loop of `readLebU32`. -/
def readLebU32Loop : List UInt8 → UInt32 → Nat → Except Unit (UInt32 × List UInt8)
  | [], _, _ => .error ()
  | byte :: p, result, shift =>
    -- checked before the sixth byte is used, not after the fifth
    if 35 ≤ shift then .error ()
    else
      let result := result ||| (byte.toUInt32 &&& 0x7f) <<< UInt32.ofNat shift
      if byte &&& 0x80 = 0 then .ok (result, p) else readLebU32Loop p result (shift + 7)

def readLebU32 (p : List UInt8) : Except Unit (UInt32 × List UInt8) := readLebU32Loop p 0 0

theorem readLebU32Loop_shrinks {p rest : List UInt8} {result n : UInt32} {shift : Nat}
    (h : readLebU32Loop p result shift = .ok (n, rest)) : rest.length < p.length := by
  induction p generalizing result shift with
  | nil => cases h
  | cons byte p ih =>
    rw [readLebU32Loop] at h
    rcases neg_of_ite h nofun with ⟨-, h⟩
    by_cases hlast : byte &&& 0x80 = 0
    · simp only [if_pos hlast] at h
      cases h
      exact Nat.lt_succ_self _
    · simp only [if_neg hlast] at h
      exact Nat.lt_succ_of_lt (ih h)

/-- The section loop the scanners share: the contents of the first section with this id, if any. -/
def scanForSection (wanted : UInt8) (p : List UInt8) : Except Unit (Option (List UInt8)) :=
  match p with
  | [] => .ok none
  | sectionId :: p₁ =>
    match h : readLebU32 p₁ with
    | .error e => .error e
    | .ok (sectionSize, p₂) =>
      have := readLebU32Loop_shrinks h
      -- the size is checked for every section, wanted or not
      if p₂.length < sectionSize.toNat then .error ()
      else if sectionId ≠ wanted then scanForSection wanted (p₂.drop sectionSize.toNat)
      else .ok (some (p₂.take sectionSize.toNat))
termination_by p.length
decreasing_by
  rw [List.length_drop, List.length_cons]
  omega

/-- The bytes after magic and version, `false` when there are too few. -/
def afterHeader (bytes : List UInt8) : Except Unit (List UInt8) :=
  if bytes.length < 8 then .error () else .ok (bytes.drop 8)

structure ExportRecord where
  name : List UInt8
  kind : UInt8
  index : UInt32
  deriving DecidableEq, Repr

def scanExportRecord (_ : Nat) (s : List ExportRecord × List UInt8) :
    Except Unit (List ExportRecord × List UInt8) := do
  let (nameLength, p) ← readLebU32 s.2
  if p.length < nameLength.toNat then .error ()
  else
    let name := p.take nameLength.toNat
    match p.drop nameLength.toNat with
    | [] => .error ()
    | kind :: p => do
      let (index, p) ← readLebU32 p
      .ok (s.1 ++ [{ name, kind, index }], p)

/-- `scanExportSection`. -/
def scanExportSection (bytes : List UInt8) : Except Unit (List ExportRecord) := do
  let p ← afterHeader bytes
  match ← scanForSection 7 p with
  | none => .ok []
  | some p => do
    let (count, p) ← readLebU32 p
    let (exports, _) ← loop scanExportRecord count.toNat 0 ([], p)
    .ok exports

/-- The table section as `scanDeclaredTableSize` reads it. -/
def scanTableLimits (p : List UInt8) : Except Unit UInt32 := do
  let (count, p) ← readLebU32 p
  if count < 1 then .error ()
  else
    match p with
    -- element type and limit flags
    | _ :: _ :: p => do
      let (minSize, _) ← readLebU32 p
      .ok minSize
    | _ => .error ()

/-- `scanDeclaredTableSize`, which gives zero for anything malformed. -/
def scanDeclaredTableSize (bytes : List UInt8) : UInt32 :=
  let size : Except Unit UInt32 := do
    let p ← afterHeader bytes
    match ← scanForSection 4 p with
    | none => .ok 0
    | some p => scanTableLimits p
  match size with
  | .ok size => size
  | .error _ => 0

end WebAssemblyRuntime.Binding
