import Mathlib.Algebra.Group.Nat.Defs
import Mathlib.Tactic.Common
import WebAssemblyRuntime.Wasm3.Errors

/-!
# Memory — linear memory and the one function that resizes it

`ResizeMemory` is reached from `m3_LoadModule`, from the `memory.grow` instruction and from the
binding.  It has two modes: in place inside an `mmap` reservation made by the first allocation, or
`realloc` when that reservation was refused.  Pointers are natural numbers and `size_t` is `Nat`:
every byte count formed here stays below `2^49`.  `u32` is `UInt32`, with its wrap-around.
-/

namespace WebAssemblyRuntime.Wasm3

abbrev Addr := Nat

def d_m3MemPageSize : UInt32 := 65536
def d_m3MaxLinearMemoryPages : UInt32 := 65536

/-- `sizeof (M3MemoryHeader)`: two pointers and a `size_t`. -/
def sizeofM3MemoryHeader : Nat := 24

/-- The allocated block: an `M3MemoryHeader` at `addr`, then the memory's bytes.  `bytes i` is
the byte at `m3MemData + i`, whether or not `i` is below `length`. -/
structure M3Block where
  addr : Addr
  maxStack : Nat
  length : Nat
  bytes : Nat → UInt8

/-- `m3MemData (mem)`: the address after the header. -/
def M3Block.data (b : M3Block) : Addr := b.addr + sizeofM3MemoryHeader

/-- `M3Memory`; `mallocated` and `reservation` are `none` for the null pointer. -/
structure M3Memory where
  mallocated : Option M3Block := none
  numPages : UInt32 := 0
  maxPages : UInt32 := 0
  reservation : Option Addr := none
  reservationBytes : Nat := 0
  committedBytes : Nat := 0

/-- The fields of `M3Runtime` that survive compilation.  `stack` is an index into the array of
32-bit `m3slot_t` slots; a function is known by its index in the module. -/
structure M3Runtime where
  stack : Nat
  numStackSlots : Nat
  lastCalled : Option Nat := none
  memory : M3Memory := {}
  memoryLimit : UInt32 := 0
  callDepth : UInt32 := 0

/-- `m3_NewRuntime` on a stack allocated at `stack`; the rest of the record is zeroed. -/
def m3NewRuntime (stack stackSizeInBytes : Nat) : M3Runtime :=
  { stack := stack, numStackSlots := stackSizeInBytes / 4 }

/-- What the operating system and the C heap answer during one `ResizeMemory` call: the address
`mmap` reserves (`none` is `MAP_FAILED`), whether `mprotect` succeeds, the block `realloc` returns
(`none` is `NULL`) and the bytes it leaves beyond the old block. -/
structure SysCalls where
  mmap : Option Addr
  mprotect : Bool
  realloc : Option Addr
  garbage : Nat → UInt8

/-- Every allocation that is attempted succeeds. -/
def SysCalls.Succeeds (os : SysCalls) : Prop :=
  os.mmap.isSome ∧ os.mprotect = true ∧ os.realloc.isSome

/-- A machine that grants every request, with the reservation or the block at `base`. -/
def SysCalls.granting (base : Addr) : SysCalls := ⟨some base, true, some base, fun _ => 0⟩

theorem SysCalls.granting_succeeds (base : Addr) : (SysCalls.granting base).Succeeds :=
  ⟨rfl, rfl, rfl⟩

/-- `numPagesToAlloc * d_m3MemPageSize`.  Both factors are 32-bit, so the product wraps before it
is widened to the `size_t` it initialises. -/
def pageBytes (numPagesToAlloc : UInt32) : Nat := (numPagesToAlloc * d_m3MemPageSize).toNat

/-- The clamp by `runtime->memoryLimit`, where zero means no limit. -/
def limitBytes (memoryLimit : UInt32) (numPageBytes : Nat) : Nat :=
  if memoryLimit ≠ 0 then min numPageBytes memoryLimit.toNat else numPageBytes

/-- `m3_Realloc_Impl` on the block `old`, in the coordinates of the memory's bytes: the header
takes the first `sizeofM3MemoryHeader` bytes of the block, so byte `i` is at offset
`i + sizeofM3MemoryHeader`. -/
def m3ReallocImpl (os : SysCalls) (old : Option M3Block) (newSize oldSize : Nat) :
    Option (Addr × (Nat → UInt8)) :=
  let kept : Nat := old.elim 0 fun b => min (b.length + sizeofM3MemoryHeader) newSize
  let oldBytes : Nat → UInt8 := old.elim os.garbage M3Block.bytes
  -- an unchanged size returns the pointer it was given, null included
  if newSize = oldSize then old.map fun b => (b.addr, b.bytes)
  else os.realloc.map fun newPtr =>
    (newPtr, fun i =>
      let offset := i + sizeofM3MemoryHeader
      if oldSize ≤ offset ∧ offset < newSize then 0
      else if offset < kept then oldBytes i else os.garbage i)

/-- The reservation for `maxPages` made by the first allocation (non-moving memory patch). -/
def reserve (rt : M3Runtime) (os : SysCalls) : M3Memory :=
  let memory := rt.memory
  if memory.reservation.isNone ∧ memory.mallocated.isNone then
    -- this product is formed in `size_t`, so it does not wrap
    let reserveBytes := memory.maxPages.toNat * d_m3MemPageSize.toNat + sizeofM3MemoryHeader
    let reserveBytes :=
      if rt.memoryLimit ≠ 0 then min reserveBytes (rt.memoryLimit.toNat + sizeofM3MemoryHeader)
      else reserveBytes
    match os.mmap with
    | some base =>
        { memory with reservation := some base, reservationBytes := reserveBytes, committedBytes := 0 }
    | none => memory
  else memory

/-- `ResizeMemory` inside a reservation at `base`: commit up to the new size, never relocate. -/
def resizeInPlace (rt : M3Runtime) (memory : M3Memory) (base : Addr) (numPagesToAlloc : UInt32)
    (numPageBytes : Nat) (os : SysCalls) : M3Result × M3Runtime :=
  let numBytes := numPageBytes + sizeofM3MemoryHeader
  if memory.reservationBytes < numBytes then (some .wasmMemoryOverflow, { rt with memory := memory })
  else if memory.committedBytes < numBytes ∧ os.mprotect = false then
    (some .mallocFailed, { rt with memory := memory })
  else
    -- fresh anonymous pages read as zero
    let bytes : Nat → UInt8 := memory.mallocated.elim (fun _ => 0) M3Block.bytes
    (none, { rt with memory := { memory with
      -- only growth commits; committed pages are kept
      committedBytes := max memory.committedBytes numBytes
      numPages := numPagesToAlloc
      mallocated := some
        { addr := base, maxStack := rt.stack + rt.numStackSlots, length := numPageBytes, bytes } } })

/-- `ResizeMemory` without a reservation: `realloc`, which may move the block. -/
def resizeRealloc (rt : M3Runtime) (memory : M3Memory) (numPagesToAlloc : UInt32)
    (numPageBytes : Nat) (os : SysCalls) : M3Result × M3Runtime :=
  let numBytes := numPageBytes + sizeofM3MemoryHeader
  -- the old size is computed again from the page count, without the memory limit
  let numPreviousBytes := pageBytes memory.numPages
  let numPreviousBytes :=
    if numPreviousBytes ≠ 0 then numPreviousBytes + sizeofM3MemoryHeader else numPreviousBytes
  match m3ReallocImpl os memory.mallocated numBytes numPreviousBytes with
  | none => (some .mallocFailed, { rt with memory := memory })
  | some (newMem, bytes) =>
      (none, { rt with memory := { memory with
        numPages := numPagesToAlloc
        mallocated := some
          { addr := newMem, maxStack := rt.stack + rt.numStackSlots, length := numPageBytes, bytes } } })

/-- `ResizeMemory`. -/
def resizeMemory (rt : M3Runtime) (i_numPages : UInt32) (os : SysCalls) : M3Result × M3Runtime :=
  if i_numPages ≤ rt.memory.maxPages then
    if d_m3MaxLinearMemoryPages < i_numPages then (some .linearMemoryLimitExceeded, rt)
    else
      let numPageBytes := limitBytes rt.memoryLimit (pageBytes i_numPages)
      -- the reservation stays even if the rest of the call fails
      let memory := reserve rt os
      match memory.reservation with
      | some base => resizeInPlace rt memory base i_numPages numPageBytes os
      | none => resizeRealloc rt memory i_numPages numPageBytes os
  else (some .wasmMemoryOverflow, rt)

/-- `M3MemoryInfo`, as `ParseType_Memory` fills it. -/
structure M3MemoryInfo where
  initPages : UInt32 := 0
  maxPages : UInt32 := 0
  deriving DecidableEq, Repr

/-- `InitMemory`: zero in `maxPages` stands for "no maximum". -/
def initMemory (rt : M3Runtime) (memoryInfo : M3MemoryInfo) (memoryImported : Bool)
    (os : SysCalls) : M3Result × M3Runtime :=
  if memoryImported then (none, rt)
  else
    let maxPages := if memoryInfo.maxPages ≠ 0 then memoryInfo.maxPages else 65536
    resizeMemory { rt with memory := { rt.memory with maxPages := maxPages } } memoryInfo.initPages os

/-- `m3_GetMemory`: the data pointer (null when the length is zero) and the length.  `none` when
`mallocated` is null, which the C code dereferences. -/
def m3GetMemory (rt : M3Runtime) : Option (Option Addr × UInt32) :=
  rt.memory.mallocated.map fun block =>
    let size := UInt32.ofNat block.length
    (if size ≠ 0 then some block.data else none, size)

/-- `op_MemGrow`: the new `_r0` and the runtime. -/
def opMemGrow (rt : M3Runtime) (r0 : Int) (os : SysCalls) : Int × M3Runtime :=
  let numPagesToGrow := UInt32.ofInt r0
  let previous : Int := rt.memory.numPages.toNat
  if numPagesToGrow ≠ 0 then
    -- a `u32` sum: it may wrap to fewer pages than there are
    let requiredPages := rt.memory.numPages + numPagesToGrow
    match resizeMemory rt requiredPages os with
    | (none, rt') => (previous, rt')
    | (some _, rt') => (-1, rt')
  else (previous, rt)

/-! ## What one call does -/

theorem pageBytes_toNat (n : UInt32) : pageBytes n = n.toNat * 65536 % 2 ^ 32 := by
  simp [pageBytes, d_m3MemPageSize]

theorem pageBytes_of_lt {n : UInt32} (h : n.toNat < 65536) : pageBytes n = n.toNat * 65536 := by
  rw [pageBytes_toNat, Nat.mod_eq_of_lt (by omega)]

theorem pageBytes_lt (n : UInt32) : pageBytes n < 2 ^ 32 := by
  rw [pageBytes_toNat]
  exact Nat.mod_lt _ (by decide)

theorem limitBytes_zero (n : Nat) : limitBytes 0 n = n := by simp [limitBytes]

theorem reserve_cases (rt : M3Runtime) (os : SysCalls) :
    reserve rt os = rt.memory ∨ ∃ base reserveBytes, reserve rt os =
      { rt.memory with
        reservation := some base, reservationBytes := reserveBytes, committedBytes := 0 } := by
  by_cases h : rt.memory.reservation.isNone ∧ rt.memory.mallocated.isNone
  · cases hmap : os.mmap with
    | none => exact .inl (by simp only [reserve, if_pos h, hmap])
    | some base => exact .inr ⟨base, _, by simp only [reserve, if_pos h, hmap]; rfl⟩
  · exact .inl (by simp only [reserve, if_neg h])

@[simp] theorem reserve_maxPages (rt : M3Runtime) (os : SysCalls) :
    (reserve rt os).maxPages = rt.memory.maxPages := by
  rcases reserve_cases rt os with h | ⟨base, bytes, h⟩ <;> rw [h]

theorem reserve_of_mallocated {rt : M3Runtime} (h : rt.memory.mallocated.isSome) (os : SysCalls) :
    reserve rt os = rt.memory := by
  unfold reserve
  rw [if_neg]
  rintro ⟨-, hnone⟩
  rw [Option.isNone_iff_eq_none] at hnone
  simp [hnone] at h

theorem reserve_of_reservation {rt : M3Runtime} (h : rt.memory.reservation.isSome) (os : SysCalls) :
    reserve rt os = rt.memory := by
  unfold reserve
  rw [if_neg]
  rintro ⟨hnone, -⟩
  rw [Option.isNone_iff_eq_none] at hnone
  simp [hnone] at h

/-- Without a memory limit every reservation covers `maxPages`. -/
theorem reserve_reserved {rt : M3Runtime} (hlimit : rt.memoryLimit = 0)
    (hold : ∀ base, rt.memory.reservation = some base →
      rt.memory.reservationBytes = rt.memory.maxPages.toNat * 65536 + sizeofM3MemoryHeader)
    (os : SysCalls) (base : Addr) (h : (reserve rt os).reservation = some base) :
    (reserve rt os).reservationBytes =
      rt.memory.maxPages.toNat * 65536 + sizeofM3MemoryHeader := by
  by_cases hfirst : rt.memory.reservation.isNone ∧ rt.memory.mallocated.isNone
  · cases hmap : os.mmap with
    | none =>
      simp only [reserve, if_pos hfirst, hmap] at h ⊢
      exact hold base h
    | some addr =>
      simp only [reserve, if_pos hfirst, hmap, hlimit, ne_eq, not_true_eq_false, if_false]
      rfl
  · simp only [reserve, if_neg hfirst] at h ⊢
    exact hold base h

/-- What a successful `ResizeMemory` has checked and written. -/
structure Resized (rt : M3Runtime) (n : UInt32) (os : SysCalls) (rt' : M3Runtime) : Prop where
  max : n ≤ rt.memory.maxPages
  limit : n.toNat ≤ 65536
  numPages : rt'.memory.numPages = n
  maxPages : rt'.memory.maxPages = rt.memory.maxPages
  reservation : rt'.memory.reservation = (reserve rt os).reservation
  reservationBytes : rt'.memory.reservationBytes = (reserve rt os).reservationBytes
  block : ∃ b, rt'.memory.mallocated = some b ∧
    b.length = limitBytes rt.memoryLimit (pageBytes n)
  frame : rt' = { rt with memory := rt'.memory }

/-- A successful call inside a reservation stays at its base and below its end. -/
theorem resizeInPlace_ok {rt rt' : M3Runtime} {memory : M3Memory} {base : Addr} {n : UInt32}
    {numPageBytes : Nat} {os : SysCalls}
    (h : resizeInPlace rt memory base n numPageBytes os = (none, rt')) :
    numPageBytes + sizeofM3MemoryHeader ≤ memory.reservationBytes ∧
    ∃ b : M3Block, b.addr = base ∧ b.length = numPageBytes ∧
      rt' = { rt with memory := { memory with
        committedBytes := max memory.committedBytes (numPageBytes + sizeofM3MemoryHeader)
        numPages := n
        mallocated := some b } } := by
  unfold resizeInPlace at h
  simp only at h
  split at h
  · simp at h
  · split at h
    · simp at h
    · refine ⟨by omega, _, rfl, rfl, (Prod.ext_iff.mp h).2.symm⟩

theorem resizeInPlace_error {rt rt' : M3Runtime} {memory : M3Memory} {base : Addr} {n : UInt32}
    {numPageBytes : Nat} {os : SysCalls} {e : M3Err}
    (h : resizeInPlace rt memory base n numPageBytes os = (some e, rt')) :
    rt' = { rt with memory := memory } := by
  unfold resizeInPlace at h
  simp only at h
  split at h
  · exact (Prod.ext_iff.mp h).2.symm
  · split at h
    · exact (Prod.ext_iff.mp h).2.symm
    · simp at h

/-- `realloc` of an existing block gives a block whenever the heap does. -/
theorem m3ReallocImpl_isSome {os : SysCalls} (h : os.realloc.isSome) (b : M3Block)
    (newSize oldSize : Nat) : (m3ReallocImpl os (some b) newSize oldSize).isSome := by
  unfold m3ReallocImpl
  by_cases heq : newSize = oldSize
  · simp only [if_pos heq, Option.map_some, Option.isSome_some]
  · simp only [if_neg heq, Option.isSome_map, h]

/-- Either `realloc` fails, which takes a heap that refuses when there is a block to move, or the
memory has `n` pages in the block it returned. -/
theorem resizeRealloc_cases (rt : M3Runtime) (memory : M3Memory) (n : UInt32) (numPageBytes : Nat)
    (os : SysCalls) :
    (resizeRealloc rt memory n numPageBytes os =
        (some .mallocFailed, { rt with memory := memory }) ∧
      (os.realloc.isSome → memory.mallocated = none)) ∨
    ∃ b : M3Block, b.length = numPageBytes ∧ resizeRealloc rt memory n numPageBytes os =
      (none, { rt with memory := { memory with numPages := n, mallocated := some b } }) := by
  cases hmove : m3ReallocImpl os memory.mallocated (numPageBytes + sizeofM3MemoryHeader)
      (if pageBytes memory.numPages ≠ 0 then pageBytes memory.numPages + sizeofM3MemoryHeader
        else pageBytes memory.numPages) with
  | none =>
    left
    constructor
    · rw [resizeRealloc]
      simp only [hmove]
    · intro hrealloc
      -- without a block there was nothing to move
      cases hold : memory.mallocated with
      | none => rfl
      | some b =>
        have hsome := m3ReallocImpl_isSome hrealloc b
        rw [hold] at hmove
        exact absurd (hsome _ _) (Option.not_isSome_iff_eq_none.mpr hmove)
  | some moved =>
    right
    refine ⟨⟨moved.1, rt.stack + rt.numStackSlots, numPageBytes, moved.2⟩, rfl, ?_⟩
    rw [resizeRealloc]
    simp only [hmove]

theorem resizeRealloc_ok {rt rt' : M3Runtime} {memory : M3Memory} {n : UInt32}
    {numPageBytes : Nat} {os : SysCalls}
    (h : resizeRealloc rt memory n numPageBytes os = (none, rt')) :
    ∃ b : M3Block, b.length = numPageBytes ∧
      rt' = { rt with memory := { memory with numPages := n, mallocated := some b } } := by
  rcases resizeRealloc_cases rt memory n numPageBytes os with ⟨herror, -⟩ | ⟨b, hlength, hok⟩
  · cases herror.symm.trans h
  · exact ⟨b, hlength, (congrArg Prod.snd (hok.symm.trans h)).symm⟩

theorem resizeRealloc_error {rt rt' : M3Runtime} {memory : M3Memory} {n : UInt32}
    {numPageBytes : Nat} {os : SysCalls} {e : M3Err}
    (h : resizeRealloc rt memory n numPageBytes os = (some e, rt')) :
    rt' = { rt with memory := memory } := by
  rcases resizeRealloc_cases rt memory n numPageBytes os with ⟨herror, -⟩ | ⟨b, -, hok⟩
  · exact (congrArg Prod.snd (herror.symm.trans h)).symm
  · cases hok.symm.trans h

theorem resizeRealloc_granted {rt : M3Runtime} {memory : M3Memory} {n : UInt32}
    {numPageBytes : Nat} {os : SysCalls} (h : os.realloc.isSome) (hm : memory.mallocated.isSome) :
    ∃ rt', resizeRealloc rt memory n numPageBytes os = (none, rt') := by
  rcases resizeRealloc_cases rt memory n numPageBytes os with ⟨-, hnone⟩ | ⟨b, -, hok⟩
  · rw [hnone h] at hm
    cases hm
  · exact ⟨_, hok⟩

theorem resizeMemory_ok {rt rt' : M3Runtime} {n : UInt32} {os : SysCalls}
    (h : resizeMemory rt n os = (none, rt')) : Resized rt n os rt' := by
  unfold resizeMemory at h
  simp only at h
  split at h
  · rename_i hmax
    split at h
    · simp at h
    · rename_i hlimit
      have hlimit : n.toNat ≤ 65536 := by
        simpa [d_m3MaxLinearMemoryPages, UInt32.le_iff_toNat_le] using hlimit
      -- inside the reservation, or by `realloc`
      split at h
      · obtain ⟨-, b, -, hlen, rfl⟩ := resizeInPlace_ok h
        exact ⟨hmax, hlimit, rfl, by simp, rfl, rfl, ⟨b, rfl, hlen⟩, rfl⟩
      · obtain ⟨b, hlen, rfl⟩ := resizeRealloc_ok h
        exact ⟨hmax, hlimit, rfl, by simp, rfl, rfl, ⟨b, rfl, hlen⟩, rfl⟩
  · simp at h

/-- A request within the maximum gets past the two checks. -/
theorem resizeMemory_admitted {rt : M3Runtime} {n : UInt32} (hmax : n ≤ rt.memory.maxPages)
    (hcount : n.toNat ≤ 65536) (os : SysCalls) :
    resizeMemory rt n os = match (reserve rt os).reservation with
      | some base => resizeInPlace rt (reserve rt os) base n
          (limitBytes rt.memoryLimit (pageBytes n)) os
      | none => resizeRealloc rt (reserve rt os) n
          (limitBytes rt.memoryLimit (pageBytes n)) os := by
  have hlimit : ¬ d_m3MaxLinearMemoryPages < n := by
    simp only [UInt32.lt_iff_toNat_lt, d_m3MaxLinearMemoryPages, UInt32.reduceToNat]
    omega
  exact (if_pos hmax).trans (if_neg hlimit)

/-- A successful call with a reservation commits in place. -/
theorem resizeMemory_inPlace {rt rt' : M3Runtime} {n : UInt32} {os : SysCalls} {base : Addr}
    (hres : (reserve rt os).reservation = some base) (h : resizeMemory rt n os = (none, rt')) :
    limitBytes rt.memoryLimit (pageBytes n) + sizeofM3MemoryHeader ≤
        (reserve rt os).reservationBytes ∧
      ∃ b : M3Block, b.addr = base ∧ b.length = limitBytes rt.memoryLimit (pageBytes n) ∧
        rt' = { rt with memory := { reserve rt os with
          committedBytes := max (reserve rt os).committedBytes
            (limitBytes rt.memoryLimit (pageBytes n) + sizeofM3MemoryHeader)
          numPages := n
          mallocated := some b } } := by
  have hok := resizeMemory_ok h
  -- both checks passed, so the call went on to the reservation
  rw [resizeMemory_admitted hok.max hok.limit, hres] at h
  exact resizeInPlace_ok h

/-- A failed call leaves everything but, at most, a fresh reservation. -/
theorem resizeMemory_error {rt rt' : M3Runtime} {n : UInt32} {os : SysCalls} {e : M3Err}
    (h : resizeMemory rt n os = (some e, rt')) :
    rt' = rt ∨ rt' = { rt with memory := reserve rt os } := by
  unfold resizeMemory at h
  simp only at h
  split at h
  · split at h
    · exact .inl (Prod.ext_iff.mp h).2.symm
    · split at h
      · exact .inr (resizeInPlace_error h)
      · exact .inr (resizeRealloc_error h)
  · exact .inl (Prod.ext_iff.mp h).2.symm

/-- Once memory is allocated, a failed call changes nothing. -/
theorem resizeMemory_error_eq {rt rt' : M3Runtime} {n : UInt32} {os : SysCalls} {e : M3Err}
    (hm : rt.memory.mallocated.isSome) (h : resizeMemory rt n os = (some e, rt')) : rt' = rt := by
  rcases resizeMemory_error h with rfl | rfl
  · rfl
  · rw [reserve_of_mallocated hm]

/-- Only the memory record can change. -/
theorem resizeMemory_frame (rt : M3Runtime) (n : UInt32) (os : SysCalls) :
    (resizeMemory rt n os).2 = { rt with memory := (resizeMemory rt n os).2.memory } := by
  cases hr : resizeMemory rt n os with
  | mk result rt' =>
    cases result with
    | none => exact (resizeMemory_ok hr).frame
    | some e => rcases resizeMemory_error hr with rfl | rfl <;> rfl

theorem opMemGrow_frame (rt : M3Runtime) (r0 : Int) (os : SysCalls) :
    (opMemGrow rt r0 os).2 = { rt with memory := (opMemGrow rt r0 os).2.memory } := by
  have hframe := resizeMemory_frame rt (rt.memory.numPages + UInt32.ofInt r0) os
  unfold opMemGrow
  simp only
  by_cases hz : UInt32.ofInt r0 ≠ 0
  · rw [if_pos hz]
    cases hr : resizeMemory rt (rt.memory.numPages + UInt32.ofInt r0) os with
    | mk result rt' =>
      rw [hr] at hframe
      cases result <;> exact hframe
  · rw [if_neg hz]

end WebAssemblyRuntime.Wasm3
