import WebAssemblyRuntime.Reasoning.Overwrite
import WebAssemblyRuntime.Wasm3.Load

/-!
# Elements — the element segments of a module, and the table they make

A segment is read here as `InitElements` reads it; the table is what the writes of all segments
leave, one after the other.
-/

open WebAssemblyRuntime.Reasoning

namespace WebAssemblyRuntime.Wasm3

/-- An element segment: functions for the slots from `offset` on. -/
structure ElementSegment where
  offset : Nat
  functions : List Nat
  deriving DecidableEq, Repr

/-- Slots and the functions put there, the first one first. -/
def writesFrom : Nat → List Nat → List (Nat × Nat)
  | _, [] => []
  | slot, fn :: functions => (slot, fn) :: writesFrom (slot + 1) functions

namespace ElementSegment

def writes (s : ElementSegment) : List (Nat × Nat) := writesFrom s.offset s.functions

/-- The slot after the last one. -/
def endElement (s : ElementSegment) : Nat := s.offset + s.functions.length

end ElementSegment

def readElements : Nat → Bytes → Except M3Err (List Nat × Bytes)
  | 0, bytes => .ok ([], bytes)
  | n + 1, bytes => do
    let (functionIndex, bytes) ← readLEBu32 bytes
    let (functions, bytes) ← readElements n bytes
    .ok (functionIndex.toNat :: functions, bytes)

/-- The segment at the head of the bytes, with its offset evaluated in the module. -/
def readElementSegment (engine : Engine) (m : M3Module) (bytes : Bytes) :
    Except M3Err (ElementSegment × Bytes) := do
  let (_, bytes) ← readLEBu32 bytes
  let (value, bytes) ← engine.evaluateExpression m .i32 bytes
  let (numElements, bytes) ← readLEBu32 bytes
  let (functions, bytes) ← readElements numElements.toNat bytes
  .ok (⟨value.toUInt32.toInt32.toInt.toNat, functions⟩, bytes)

/-- The segments of a run of `InitElements`.  An offset is evaluated after the segments before it
have been put in place. -/
def elementSegmentsFrom (engine : Engine) : Nat → M3Module × Bytes → Except M3Err (List ElementSegment)
  | 0, _ => .ok []
  | n + 1, s => do
    let (segment, _) ← readElementSegment engine s.1 s.2
    let s ← initElementSegment engine 0 s
    let segments ← elementSegmentsFrom engine n s
    .ok (segment :: segments)

/-- The element segments of the module in these bytes. -/
def elementSegments (engine : Engine) (moduleBytes : Bytes) : Except M3Err (List ElementSegment) := do
  let m ← m3ParseModule moduleBytes
  let m ← initGlobals engine m
  elementSegmentsFrom engine m.numElementSegments (m, m.elementSection)

/-! ## Tables as functions of the slot -/

/-- The function in a slot; there is none beyond the end. -/
def slotOf (table : List (Option Nat)) (slot : Nat) : Option Nat := table[slot]?.join

def hitsSlot (w : Nat × Nat) (slot : Nat) : Bool := decide (w.1 = slot)

/-- What writes leave in the slots. -/
def filled (slots : Nat → Option Nat) (writes : List (Nat × Nat)) : Nat → Option Nat :=
  overwriteAll hitsSlot (fun w => some w.2) slots writes

theorem hitsSlot_eq_false {w : Nat × Nat} {slot : Nat} : hitsSlot w slot = false ↔ w.1 ≠ slot :=
  decide_eq_false_iff_not

theorem slotOf_grown (table : List (Option Nat)) (n : Nat) :
    slotOf (table ++ List.replicate n none) = slotOf table := by
  funext slot
  unfold slotOf
  by_cases hold : slot < table.length
  · rw [List.getElem?_append_left hold]
  · rw [List.getElem?_append_right (by omega), List.getElem?_eq_none (by omega : table.length ≤ slot),
      List.getElem?_replicate]
    split <;> rfl

theorem slotOf_set {table : List (Option Nat)} {slot : Nat} (fn : Nat) (h : slot < table.length) :
    slotOf (table.set slot (some fn)) = filled (slotOf table) [(slot, fn)] := by
  funext i
  change (table.set slot (some fn))[i]?.join = if hitsSlot (slot, fn) i then some fn else slotOf table i
  by_cases hi : slot = i
  · subst hi
    rw [List.getElem?_set_self h, hitsSlot, if_pos (decide_eq_true rfl)]
    rfl
  · rw [List.getElem?_set_ne hi, hitsSlot_eq_false.mpr hi]
    rfl

/-- The last write to a slot is what is found there. -/
theorem filled_last {slots : Nat → Option Nat} {before after : List (Nat × Nat)} {slot fn : Nat}
    (hafter : ∀ w ∈ after, w.1 ≠ slot) :
    filled slots (before ++ (slot, fn) :: after) slot = some fn := by
  have hhit : hitsSlot (slot, fn) slot = true := decide_eq_true rfl
  exact overwriteAll_last hhit fun w hw => hitsSlot_eq_false.mpr (hafter w hw)

/-- Only a slot without writes stays empty. -/
theorem filled_eq_none {writes : List (Nat × Nat)} {slot : Nat} :
    filled (fun _ => none) writes slot = none ↔ ∀ w ∈ writes, w.1 ≠ slot := by
  constructor
  · intro hnone w hw heq
    have hhit : ∃ w ∈ writes, hitsSlot w slot = true := ⟨w, hw, decide_eq_true heq⟩
    rcases exists_last_hit hhit with ⟨before, w', after, rfl, hw', hafter⟩
    have hlast : filled (fun _ => none) (before ++ w' :: after) slot = some w'.2 :=
      overwriteAll_last hw' hafter
    cases hnone.symm.trans hlast
  · intro hall
    exact overwriteAll_of_not_hit fun w hw => hitsSlot_eq_false.mpr (hall w hw)

theorem filled_append (slots : Nat → Option Nat) (writes writes' : List (Nat × Nat)) :
    filled slots (writes ++ writes') = filled (filled slots writes) writes' :=
  overwriteAll_append writes writes'

/-! ## What `InitElements` leaves -/

variable {engine : Engine} {m m' : M3Module} {s t : M3Module × Bytes}

/-- The function indices go into consecutive slots, which there must be. -/
theorem initElement_run {offset n e : Nat}
    (h : loop (initElement offset) n e s = .ok t) (hroom : e + n + offset ≤ s.1.table0.length) :
    ∃ functions, readElements n s.2 = .ok (functions, t.2) ∧ functions.length = n ∧
      t.1.table0.length = s.1.table0.length ∧
      slotOf t.1.table0 = filled (slotOf s.1.table0) (writesFrom (e + offset) functions) := by
  induction n generalizing e s with
  | zero =>
    cases h
    exact ⟨[], rfl, rfl, rfl, rfl⟩
  | succ n ih =>
    rcases loop_succ h with ⟨middle, hstep, hrest⟩
    rcases bind_ok hstep with ⟨⟨functionIndex, bytes⟩, hindex, hstep⟩
    rcases bind_ok hstep with ⟨_, -, hstep⟩
    cases hstep
    have hlength : (s.1.table0.set (e + offset) (some functionIndex.toNat)).length =
      s.1.table0.length := List.length_set
    rcases ih hrest (by simp only [hlength]; omega) with ⟨functions, hread, hcount, hsize, hslots⟩
    refine ⟨functionIndex.toNat :: functions, ?_, ?_, hsize.trans hlength, ?_⟩
    · rw [readElements, hindex]
      change Except.bind (readElements n bytes) _ = _
      rw [hread]
      rfl
    · rw [List.length_cons, hcount]
    · have hset := slotOf_set functionIndex.toNat (show e + offset < s.1.table0.length by omega)
      rw [hslots, hset, ← filled_append, Nat.add_right_comm]
      rfl

/-- One segment: the table reaches its end, and its functions are written. -/
theorem initElementSegment_run {i : Nat} (h : initElementSegment engine i s = .ok t) :
    ∃ segment, readElementSegment engine s.1 s.2 = .ok (segment, t.2) ∧
      t.1.table0.length = max s.1.table0.length segment.endElement ∧
      slotOf t.1.table0 = filled (slotOf s.1.table0) segment.writes := by
  rcases bind_ok h with ⟨⟨index, bytes⟩, hindex, h⟩
  simp only at h
  split at h
  · rcases bind_ok h with ⟨⟨value, bytes'⟩, hvalue, h⟩
    rcases bind_ok h with ⟨_, -, h⟩
    rcases bind_ok h with ⟨⟨numElements, bytes''⟩, hcount, h⟩
    rcases bind_ok h with ⟨_, -, h⟩
    rcases bind_ok h with ⟨_, -, h⟩
    have hgrown : (s.1.table0 ++ List.replicate (numElements.toNat + value.toUInt32.toInt32.toInt.toNat -
        s.1.table0.length) none).length = max s.1.table0.length
          (numElements.toNat + value.toUInt32.toInt32.toInt.toNat) := by
      rw [List.length_append, List.length_replicate]
      omega
    rcases initElement_run h (by simp only [hgrown]; omega) with
      ⟨functions, hread, hlength, hsize, hslots⟩
    refine ⟨⟨value.toUInt32.toInt32.toInt.toNat, functions⟩, ?_, ?_, ?_⟩
    · simp only [readElementSegment, hindex, hvalue, hcount, hread, bind, Except.bind]
    · rw [hsize, ElementSegment.endElement, hlength, Nat.add_comm _ numElements.toNat]
      exact hgrown
    · rw [hslots, slotOf_grown, Nat.zero_add]
      rfl
  · cases h

/-- All segments: the table is no longer than it must be, and every slot is as it was written. -/
theorem initElementSegments_run {n i : Nat}
    (h : loop (initElementSegment engine) n i s = .ok t) :
    ∃ segments, elementSegmentsFrom engine n s = .ok segments ∧
      (∀ size, s.1.table0.length ≤ size → (∀ segment ∈ segments, segment.endElement ≤ size) →
        t.1.table0.length ≤ size) ∧
      slotOf t.1.table0 = filled (slotOf s.1.table0) (segments.flatMap ElementSegment.writes) := by
  induction n generalizing i s with
  | zero =>
    cases h
    exact ⟨[], rfl, fun _ hsize _ => hsize, rfl⟩
  | succ n ih =>
    rcases loop_succ h with ⟨middle, hstep, hrest⟩
    rcases initElementSegment_run hstep with ⟨segment, hread, hlength, hslots⟩
    rcases ih hrest with ⟨segments, hsegments, hsize, hrun⟩
    have hstep' : initElementSegment engine 0 s = .ok middle := hstep
    refine ⟨segment :: segments, ?_, ?_, ?_⟩
    · simp only [elementSegmentsFrom, hread, hstep', hsegments, bind, Except.bind]
    · intro size hstart hall
      apply hsize size
      · rw [hlength]
        exact Nat.max_le.mpr ⟨hstart, hall segment List.mem_cons_self⟩
      · exact fun later hlater => hall later (List.mem_cons_of_mem _ hlater)
    · rw [hrun, hslots, ← filled_append, List.flatMap_cons]

/-- The table of a loaded module. -/
theorem initElements_run (hm : m.table0 = []) (h : initElements engine m = .ok m') :
    ∃ segments,
      elementSegmentsFrom engine m.numElementSegments (m, m.elementSection) = .ok segments ∧
      (∀ size, (∀ segment ∈ segments, segment.endElement ≤ size) → m'.table0.length ≤ size) ∧
      slotOf m'.table0 = filled (fun _ => none) (segments.flatMap ElementSegment.writes) := by
  rcases bind_ok h with ⟨⟨m₁, rest⟩, hloop, h⟩
  cases h
  rcases initElementSegments_run hloop with ⟨segments, hsegments, hsize, hslots⟩
  refine ⟨segments, hsegments, ?_, ?_⟩
  · intro size hall
    refine hsize size ?_ hall
    rw [hm]
    exact Nat.zero_le _
  · rw [hslots, hm]
    rfl

end WebAssemblyRuntime.Wasm3
