import WebAssemblyRuntime.Binding.MemorySystem

/-!
# GrowthModes — growth inside a reservation and growth by `realloc`

Both are implementations of one growing memory: its bytes stay, and what it grows by is zero.
-/

open WebAssemblyRuntime.Reasoning WebAssemblyRuntime.Wasm3

namespace WebAssemblyRuntime.Binding

/-! ## A growing memory -/

/-- A memory without a place: beyond its length it is zero. -/
structure GrowingMemory where
  pages : UInt32
  length : Nat
  contents : Nat → UInt8
  fresh : ∀ i, length ≤ i → contents i = 0

namespace GrowingMemory

def empty : GrowingMemory := ⟨0, 0, fun _ => 0, fun _ _ => rfl⟩

def resize (m : GrowingMemory) (pages : UInt32) (length : Nat) : GrowingMemory where
  pages := pages
  length := length
  contents i := if i < length then m.contents i else 0
  fresh _ h := if_neg (Nat.not_lt.mpr h)

def write (m : GrowingMemory) (index : Nat) (byte : UInt8) (h : index < m.length) :
    GrowingMemory where
  pages := m.pages
  length := m.length
  contents := Function.update m.contents index byte
  fresh i hi := by
    rw [Function.update_of_ne (by omega)]
    exact m.fresh i hi

variable {m : GrowingMemory}

theorem resize_contents {length : Nat} (h : m.length ≤ length) (pages : UInt32) :
    (m.resize pages length).contents = m.contents := by
  funext i
  by_cases hi : i < length
  · exact if_pos hi
  · -- nothing is cut off by growing
    exact (if_neg hi).trans (m.fresh i (by omega)).symm

end GrowingMemory

/-! ## Requests -/

inductive MemoryRequest where
  | resize (pages : UInt32)
  | write (index : Nat) (byte : UInt8)

def byteLength (rt : M3Runtime) : Nat := rt.memory.mallocated.elim 0 M3Block.length

def byteAt (rt : M3Runtime) (i : Nat) : UInt8 := rt.memory.mallocated.elim 0 fun b => b.bytes i

namespace MemoryRequest

def run (os : SysCalls) (rt : M3Runtime) : MemoryRequest → M3Result × M3Runtime
  | resize pages => resizeMemory rt pages os
  | write index byte => (none, (storeByte rt index byte).getD rt)

/-- No fewer pages than before, within the maximum and below 65536; a write below the length. -/
def Admissible (rt : M3Runtime) : MemoryRequest → Prop
  | resize pages =>
    rt.memory.numPages ≤ pages ∧ pages.toNat < 65536 ∧ pages ≤ rt.memory.maxPages
  | write index _ => index < byteLength rt

end MemoryRequest

/-- A machine that grants reservations, and one that refuses them but has heap. -/
def GrantsReservation (os : SysCalls) : Prop := os.mmap.isSome ∧ os.mprotect = true

def GrantsHeap (os : SysCalls) : Prop := os.mmap = none ∧ os.realloc.isSome

/-- A runtime whose memory has not been allocated. -/
def unallocated (memoryLimit maxPages : UInt32) (stack stackSizeInBytes : Nat) : M3Runtime :=
  { m3NewRuntime stack stackSizeInBytes with memoryLimit, memory := { maxPages } }

/-- The same requests made of two runtimes, one on each machine. -/
def twoModes (memoryLimit maxPages : UInt32) :
    System (M3Runtime × M3Runtime) (MemoryRequest × SysCalls × SysCalls) where
  init s := ∃ stack stackSizeInBytes stack' stackSizeInBytes',
    s = (unallocated memoryLimit maxPages stack stackSizeInBytes,
      unallocated memoryLimit maxPages stack' stackSizeInBytes')
  step s a t := a.1.Admissible s.1 ∧ GrantsReservation a.2.1 ∧ GrantsHeap a.2.2 ∧
    t = ((a.1.run a.2.1 s.1).2, (a.1.run a.2.2 s.2).2)

/-- Page count, length and contents are the same. -/
structure SameMemory (rt rt' : M3Runtime) : Prop where
  numPages : rt.memory.numPages = rt'.memory.numPages
  length : byteLength rt = byteLength rt'
  contents : ∀ i < byteLength rt, byteAt rt i = byteAt rt' i

/-- What a request leaves: the pages asked for, as many bytes as they have within the memory limit,
the old bytes, and zero in what is new. -/
structure MemoryRequest.Keeps (r : MemoryRequest) (rt rt' : M3Runtime) : Prop where
  numPages : ∀ pages, r = .resize pages → rt'.memory.numPages = pages
  length : byteLength rt' = limitBytes rt.memoryLimit (pageBytes rt'.memory.numPages)
  grows : byteLength rt ≤ byteLength rt'
  written : ∀ i byte, r = .write i byte → byteAt rt' i = byte
  kept : ∀ i < byteLength rt, (∀ byte, r ≠ .write i byte) → byteAt rt' i = byteAt rt i
  zeroed : ∀ i, byteLength rt ≤ i → i < byteLength rt' → byteAt rt' i = 0

/-! ## What both modes implement -/

variable {L M n : UInt32} {rt : M3Runtime} {m : GrowingMemory} {os : SysCalls}

/-- The runtime holds this memory. -/
structure HoldsMemory (L M : UInt32) (rt : M3Runtime) (m : GrowingMemory) : Prop where
  limit : rt.memoryLimit = L
  maxPages : rt.memory.maxPages = M
  numPages : rt.memory.numPages = m.pages
  counted : m.pages.toNat < 65536
  sized : m.length = limitBytes L (pageBytes m.pages)
  length : byteLength rt = m.length
  contents : ∀ i < m.length, byteAt rt i = m.contents i

/-- Inside a reservation with room for the maximum; what is not in use yet is zero. -/
structure InReservation (L M : UInt32) (rt : M3Runtime) (m : GrowingMemory) : Prop
    extends HoldsMemory L M rt m where
  unreserved : rt.memory.mallocated = none → rt.memory.reservation = none
  reserved : rt.memory.mallocated.isSome → rt.memory.reservation.isSome ∧
    rt.memory.reservationBytes = limitBytes L (M.toNat * 65536) + sizeofM3MemoryHeader
  beyond : ∀ i, m.length ≤ i → byteAt rt i = 0

structure InHeap (L M : UInt32) (rt : M3Runtime) (m : GrowingMemory) : Prop
    extends HoldsMemory L M rt m where
  unreserved : rt.memory.reservation = none

theorem limitBytes_mono {a b : Nat} (h : a ≤ b) : limitBytes L a ≤ limitBytes L b := by
  unfold limitBytes
  split
  · omega
  · exact h

theorem HoldsMemory.grows (h : HoldsMemory L M rt m) (hle : m.pages ≤ n) (hn : n.toNat < 65536) :
    m.length ≤ limitBytes L (pageBytes n) := by
  rw [h.sized, pageBytes_of_lt h.counted, pageBytes_of_lt hn]
  exact limitBytes_mono (Nat.mul_le_mul_right _ (UInt32.le_iff_toNat_le.mp hle))

/-- What there is of the memory is in the allocated block. -/
theorem HoldsMemory.mallocated (h : HoldsMemory L M rt m) {i : Nat} (hi : i < m.length) :
    ∃ b, rt.memory.mallocated = some b ∧ b.length = m.length ∧
      ∀ j < m.length, b.bytes j = m.contents j := by
  have hlength := h.length
  have hcontents := h.contents
  unfold byteLength at hlength
  unfold byteAt at hcontents
  cases hb : rt.memory.mallocated with
  | none =>
    rw [hb, Option.elim_none] at hlength
    omega
  | some b =>
    rw [hb] at hlength hcontents
    exact ⟨b, rfl, hlength, hcontents⟩

/-! ## Growth inside the reservation -/

/-- The reservation is there from the first request on, with room for the maximum. -/
theorem InReservation.reserve (h : InReservation L M rt m) (hos : GrantsReservation os) :
    ∃ base, (Wasm3.reserve rt os).reservation = some base ∧
      (Wasm3.reserve rt os).reservationBytes =
        limitBytes L (M.toNat * 65536) + sizeofM3MemoryHeader ∧
      (Wasm3.reserve rt os).mallocated = rt.memory.mallocated := by
  cases hb : rt.memory.mallocated with
  | some b =>
    have hsome : rt.memory.mallocated.isSome := by rw [hb]; rfl
    obtain ⟨hres, hbytes⟩ := h.reserved hsome
    obtain ⟨base, hbase⟩ := Option.isSome_iff_exists.mp hres
    rw [reserve_of_mallocated hsome]
    exact ⟨base, hbase, hbytes, hb⟩
  | none =>
    obtain ⟨base, hbase⟩ := Option.isSome_iff_exists.mp hos.1
    have hfirst : rt.memory.reservation.isNone ∧ rt.memory.mallocated.isNone := by
      rw [h.unreserved hb, hb]
      exact ⟨rfl, rfl⟩
    simp only [Wasm3.reserve, if_pos hfirst, hbase, h.limit, h.maxPages]
    refine ⟨base, rfl, ?_, hb⟩
    -- the clamp is applied with the header on both sides
    unfold limitBytes
    split
    · change min (M.toNat * 65536 + sizeofM3MemoryHeader) _ = _
      omega
    · rfl

theorem InReservation.resize (h : InReservation L M rt m) (hos : GrantsReservation os)
    (hle : m.pages ≤ n) (hn : n.toNat < 65536) (hmax : n ≤ M) :
    ∃ rt', resizeMemory rt n os = (none, rt') ∧
      InReservation L M rt' (m.resize n (limitBytes L (pageBytes n))) := by
  obtain ⟨base, hbase, hbytes, hblock⟩ := h.reserve hos
  have hgrows := h.grows hle hn
  have hfits : limitBytes L (pageBytes n) ≤ limitBytes L (M.toNat * 65536) := by
    rw [pageBytes_of_lt hn]
    exact limitBytes_mono (Nat.mul_le_mul_right _ (UInt32.le_iff_toNat_le.mp hmax))
  have hall : ∀ i, byteAt rt i = m.contents i := by
    intro i
    by_cases hi : i < m.length
    · exact h.contents i hi
    · rw [h.beyond i (by omega), m.fresh i (by omega)]
  rw [resizeMemory_admitted (h.maxPages ▸ hmax) hn.le, hbase, h.limit]
  simp only [resizeInPlace]
  rw [if_neg (by omega), if_neg (by rw [hos.2]; simp), hblock]
  refine ⟨_, rfl, ⟨⟨h.limit, ?_, rfl, hn, rfl, rfl, ?_⟩, ?_, ?_, ?_⟩⟩
  · exact (reserve_maxPages rt os).trans h.maxPages
  · intro i _
    rw [GrowingMemory.resize_contents hgrows, ← hall i]
    unfold byteAt
    cases rt.memory.mallocated <;> rfl
  · intro hnone
    cases hnone
  · intro _
    exact ⟨by rw [hbase]; rfl, hbytes⟩
  · intro i hi
    refine Eq.trans ?_ (h.beyond i (hgrows.trans hi))
    unfold byteAt
    cases rt.memory.mallocated <;> rfl

/-! ## Growth by `realloc` -/

/-- The clamp cuts the smaller count no lower than the larger one. -/
theorem limitBytes_of_le {a b : Nat} (h : a ≤ b) : limitBytes L a = min a (limitBytes L b) := by
  unfold limitBytes
  split <;> omega

/-- The old size is the header and the old bytes, or zero if there were none. -/
def previousBytes (pages : UInt32) : Nat :=
  if pageBytes pages ≠ 0 then pageBytes pages + sizeofM3MemoryHeader else pageBytes pages

/-- `realloc` keeps what there was and clears the rest, whatever it leaves there itself. -/
theorem HoldsMemory.realloc (h : HoldsMemory L M rt m) (hrealloc : os.realloc.isSome)
    (hle : m.pages ≤ n) (hn : n.toNat < 65536) :
    ∃ addr bytes, m3ReallocImpl os rt.memory.mallocated
        (limitBytes L (pageBytes n) + sizeofM3MemoryHeader) (previousBytes m.pages) =
      some (addr, bytes) ∧ ∀ i < limitBytes L (pageBytes n), bytes i = m.contents i := by
  have hpages : pageBytes m.pages ≤ pageBytes n := by
    rw [pageBytes_of_lt h.counted, pageBytes_of_lt hn]
    exact Nat.mul_le_mul_right _ (UInt32.le_iff_toNat_le.mp hle)
  -- the old length is the old page bytes, unless the limit cuts both sizes
  have hlength : m.length = min (pageBytes m.pages) (limitBytes L (pageBytes n)) := by
    rw [h.sized]
    exact limitBytes_of_le hpages
  have hprevious : previousBytes m.pages = 0 ∧ pageBytes m.pages = 0 ∨
      previousBytes m.pages = pageBytes m.pages + sizeofM3MemoryHeader ∧
        0 < pageBytes m.pages := by
    unfold previousBytes
    split <;> omega
  have hheader : sizeofM3MemoryHeader = 24 := rfl
  unfold m3ReallocImpl
  by_cases hsame : limitBytes L (pageBytes n) + sizeofM3MemoryHeader = previousBytes m.pages
  · -- as many bytes as before: nothing is cleared
    simp only [if_pos hsame]
    have hsome : 0 < m.length := by omega
    obtain ⟨b, hb, -, hbytes⟩ := h.mallocated hsome
    refine ⟨b.addr, b.bytes, by rw [hb, Option.map_some], ?_⟩
    intro i hi
    exact hbytes i (by omega)
  · obtain ⟨addr, haddr⟩ := Option.isSome_iff_exists.mp hrealloc
    simp only [if_neg hsame, haddr, Option.map_some]
    refine ⟨addr, _, rfl, ?_⟩
    intro i hi
    by_cases hcleared : m.length ≤ i
    · rw [m.fresh i hcleared]
      exact if_pos (by omega)
    · obtain ⟨b, hb, hblock, hbytes⟩ := h.mallocated (Nat.lt_of_not_le hcleared)
      simp only [hb, Option.elim_some]
      rw [if_neg (by omega), if_pos (by omega), hbytes i (by omega)]

theorem InHeap.resize (h : InHeap L M rt m) (hos : GrantsHeap os) (hle : m.pages ≤ n)
    (hn : n.toNat < 65536) (hmax : n ≤ M) :
    ∃ rt', resizeMemory rt n os = (none, rt') ∧
      InHeap L M rt' (m.resize n (limitBytes L (pageBytes n))) := by
  have hgrows := h.grows hle hn
  have hreserve : reserve rt os = rt.memory := by
    simp only [reserve, hos.1, ite_self]
  obtain ⟨addr, bytes, hrealloc, hbytes⟩ := h.realloc hos.2 hle hn
  rw [resizeMemory_admitted (h.maxPages ▸ hmax) hn.le, hreserve, h.unreserved, h.limit]
  simp only [resizeRealloc, h.numPages]
  rw [show (if pageBytes m.pages ≠ 0 then pageBytes m.pages + sizeofM3MemoryHeader
    else pageBytes m.pages) = previousBytes m.pages from rfl, hrealloc]
  refine ⟨_, rfl, ⟨⟨h.limit, h.maxPages, rfl, hn, rfl, rfl, ?_⟩, h.unreserved⟩⟩
  intro i hi
  rw [GrowingMemory.resize_contents hgrows]
  exact hbytes i hi

/-! ## Writes -/

/-- A write below the length, as the growing memory has it. -/
theorem HoldsMemory.store (h : HoldsMemory L M rt m) {index : Nat} (hi : index < m.length)
    (byte : UInt8) :
    ∃ b, rt.memory.mallocated = some b ∧ storeByte rt index byte =
        some { rt with memory := { rt.memory with
          mallocated := some { b with bytes := Function.update b.bytes index byte } } } ∧
      HoldsMemory L M { rt with memory := { rt.memory with
          mallocated := some { b with bytes := Function.update b.bytes index byte } } }
        (m.write index byte hi) := by
  obtain ⟨b, hb, hlength, hbytes⟩ := h.mallocated hi
  refine ⟨b, hb, ?_, ⟨h.limit, h.maxPages, h.numPages, h.counted, h.sized, hlength, ?_⟩⟩
  · simp only [storeByte, hb]
    rw [if_pos (by omega)]
  · intro j hj
    change Function.update b.bytes index byte j = Function.update m.contents index byte j
    by_cases heq : j = index
    · rw [heq, Function.update_self, Function.update_self]
    · rw [Function.update_of_ne heq, Function.update_of_ne heq]
      exact hbytes j hj

theorem InReservation.write (h : InReservation L M rt m) {index : Nat} (hi : index < m.length)
    (byte : UInt8) :
    InReservation L M ((storeByte rt index byte).getD rt) (m.write index byte hi) := by
  obtain ⟨b, hb, hstore, hholds⟩ := h.store hi byte
  rw [hstore, Option.getD_some]
  refine ⟨hholds, nofun, fun _ => h.reserved (by rw [hb]; rfl), ?_⟩
  intro j hj
  have hbeyond := h.beyond j hj
  change m.length ≤ j at hj
  change Function.update b.bytes index byte j = 0
  rw [Function.update_of_ne (by omega), ← hbeyond, byteAt, hb, Option.elim_some]

theorem InHeap.write (h : InHeap L M rt m) {index : Nat} (hi : index < m.length) (byte : UInt8) :
    InHeap L M ((storeByte rt index byte).getD rt) (m.write index byte hi) := by
  obtain ⟨b, -, hstore, hholds⟩ := h.store hi byte
  rw [hstore, Option.getD_some]
  exact ⟨hholds, h.unreserved⟩

/-! ## One request, and all of them -/

/-- What a request makes of a growing memory. -/
structure GrowingMemory.Answers (r : MemoryRequest) (m m' : GrowingMemory) : Prop where
  numPages : ∀ pages, r = .resize pages → m'.pages = pages
  grows : m.length ≤ m'.length
  written : ∀ i byte, r = .write i byte → i < m.length ∧ m'.contents i = byte
  kept : ∀ i, (∀ byte, r ≠ .write i byte) → m'.contents i = m.contents i

theorem GrowingMemory.resize_answers {length : Nat} (h : m.length ≤ length) (pages : UInt32) :
    Answers (.resize pages) m (m.resize pages length) where
  numPages _ heq := MemoryRequest.resize.inj heq
  grows := h
  written _ _ heq := nomatch heq
  kept i _ := congrFun (resize_contents h pages) i

theorem GrowingMemory.write_answers {index : Nat} (h : index < m.length) (byte : UInt8) :
    Answers (.write index byte) m (m.write index byte h) where
  numPages _ heq := nomatch heq
  grows := Nat.le_refl _
  written i byte' heq := by
    obtain ⟨rfl, rfl⟩ := MemoryRequest.write.inj heq
    exact ⟨h, Function.update_self _ _ _⟩
  kept i hne := by
    apply Function.update_of_ne
    intro heq
    exact hne byte (by rw [heq])

theorem HoldsMemory.keeps {r : MemoryRequest} {rt' : M3Runtime} {m' : GrowingMemory}
    (h : HoldsMemory L M rt m) (h' : HoldsMemory L M rt' m') (hm : m.Answers r m') :
    r.Keeps rt rt' := by
  refine ⟨?_, ?_, ?_, ?_, ?_, ?_⟩
  · intro pages hr
    rw [h'.numPages, hm.numPages pages hr]
  · rw [h'.length, h'.sized, h'.numPages, h.limit]
  · rw [h.length, h'.length]
    exact hm.grows
  · intro i byte hr
    obtain ⟨hi, hbyte⟩ := hm.written i byte hr
    rw [h'.contents i (Nat.lt_of_lt_of_le hi hm.grows), hbyte]
  · intro i hi hr
    rw [h.length] at hi
    rw [h'.contents i (Nat.lt_of_lt_of_le hi hm.grows), h.contents i hi, hm.kept i hr]
  · intro i hold hnew
    rw [h.length] at hold
    rw [h'.length] at hnew
    -- no write reaches beyond the old length
    have hne : ∀ byte, r ≠ .write i byte := by
      intro byte hr
      exact Nat.not_lt.mpr hold (hm.written i byte hr).1
    rw [h'.contents i hnew, hm.kept i hne, m.fresh i hold]

/-- Both runtimes hold one memory. -/
def BothHold (L M : UInt32) (s : M3Runtime × M3Runtime) (m : GrowingMemory) : Prop :=
  InReservation L M s.1 m ∧ InHeap L M s.2 m

variable {s t : M3Runtime × M3Runtime}

theorem unallocated_holds (stack stackSizeInBytes : Nat) :
    HoldsMemory L M (unallocated L M stack stackSizeInBytes) .empty := by
  refine ⟨rfl, rfl, rfl, by decide, ?_, rfl, ?_⟩
  · change 0 = limitBytes L 0
    unfold limitBytes
    split <;> omega
  · intro i hi
    exact absurd hi (Nat.not_lt_zero i)

theorem BothHold.sameMemory (h : BothHold L M s m) : SameMemory s.1 s.2 := by
  refine ⟨?_, ?_, ?_⟩
  · rw [h.1.numPages, h.2.numPages]
  · rw [h.1.length, h.2.length]
  · intro i hi
    rw [h.1.length] at hi
    rw [h.1.contents i hi, h.2.contents i hi]

/-- Both machines grant a request, and both memories go on as one. -/
theorem BothHold.step {a : MemoryRequest × SysCalls × SysCalls} (h : BothHold L M s m)
    (hstep : (twoModes L M).step s a t) :
    (a.1.run a.2.1 s.1).1 = none ∧ (a.1.run a.2.2 s.2).1 = none ∧
      ∃ m', m.Answers a.1 m' ∧ BothHold L M t m' := by
  obtain ⟨r, os, os'⟩ := a
  obtain ⟨hadm, hos, hos', rfl⟩ := hstep
  cases r with
  | resize pages =>
    obtain ⟨hle, hcount, hmax⟩ := hadm
    rw [h.1.numPages] at hle
    rw [h.1.maxPages] at hmax
    obtain ⟨rt₁, hrun₁, h₁⟩ := h.1.resize hos hle hcount hmax
    obtain ⟨rt₂, hrun₂, h₂⟩ := h.2.resize hos' hle hcount hmax
    simp only [MemoryRequest.run, hrun₁, hrun₂]
    exact ⟨trivial, trivial, _, GrowingMemory.resize_answers (h.1.grows hle hcount) pages, h₁, h₂⟩
  | write index byte =>
    have hi : index < m.length := by
      rw [← h.1.length]
      exact hadm
    exact ⟨rfl, rfl, _, GrowingMemory.write_answers hi byte, h.1.write hi byte, h.2.write hi byte⟩

theorem twoModes_hold (h : (twoModes L M).Reachable s) : ∃ m, BothHold L M s m := by
  refine System.Reachable.invariant (P := fun s => ∃ m, BothHold L M s m) ?_ ?_ h
  · rintro s ⟨stack, stackSizeInBytes, stack', stackSizeInBytes', rfl⟩
    exact ⟨.empty, ⟨unallocated_holds _ _, fun _ => rfl, nofun, fun _ _ => rfl⟩,
      ⟨unallocated_holds _ _, rfl⟩⟩
  · rintro s a t ⟨m, hm⟩ hstep
    obtain ⟨-, -, m', -, hm'⟩ := hm.step hstep
    exact ⟨m', hm'⟩

theorem growthModes (h : (twoModes L M).Reachable s) :
    SameMemory s.1 s.2 ∧ ∀ a t, (twoModes L M).step s a t →
      (a.1.run a.2.1 s.1).1 = none ∧ (a.1.run a.2.2 s.2).1 = none ∧
        a.1.Keeps s.1 t.1 ∧ a.1.Keeps s.2 t.2 := by
  obtain ⟨m, hm⟩ := twoModes_hold h
  refine ⟨hm.sameMemory, ?_⟩
  intro a t hstep
  obtain ⟨hrun₁, hrun₂, m', hanswers, hm'⟩ := hm.step hstep
  exact ⟨hrun₁, hrun₂, hm.1.keeps hm'.1.toHoldsMemory hanswers,
    hm.2.keeps hm'.2.toHoldsMemory hanswers⟩

/-- A heap whose fresh bytes are not zero. -/
def dirtyHeap : SysCalls := ⟨none, true, some 8192, fun _ => 0xaa⟩

/-- Both machines after a first allocation of no pages, and after growth by one. -/
def grownFromNothing : M3Runtime × M3Runtime :=
  let nothing := ((resizeMemory (unallocated 0 2 0 65536) 0 (SysCalls.granting 4096)).2,
    (resizeMemory (unallocated 0 2 0 65536) 0 dirtyHeap).2)
  ((resizeMemory nothing.1 1 (SysCalls.granting 4096)).2, (resizeMemory nothing.2 1 dirtyHeap).2)

theorem growthModes_fromNothing :
    SameMemory grownFromNothing.1 grownFromNothing.2 ∧
      ∀ a t, (twoModes 0 2).step grownFromNothing a t →
        (a.1.run a.2.1 grownFromNothing.1).1 = none ∧
          (a.1.run a.2.2 grownFromNothing.2).1 = none ∧
          a.1.Keeps grownFromNothing.1 t.1 ∧ a.1.Keeps grownFromNothing.2 t.2 := by
  apply growthModes
  refine .step (a := (.resize 1, SysCalls.granting 4096, dirtyHeap))
    (.step (a := (.resize 0, SysCalls.granting 4096, dirtyHeap))
      (.init ⟨0, 65536, 0, 65536, rfl⟩) ⟨?_, ⟨rfl, rfl⟩, ⟨rfl, rfl⟩, rfl⟩)
    ⟨?_, ⟨rfl, rfl⟩, ⟨rfl, rfl⟩, rfl⟩
  · exact ⟨by decide, by decide, by decide⟩
  · exact ⟨by decide, by decide, by decide⟩

end WebAssemblyRuntime.Binding
