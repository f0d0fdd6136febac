import WebAssemblyRuntime.Binding.WasmMemory
import WebAssemblyRuntime.Reasoning.Transition

/-!
# MemoryViews — buffers over a memory that never moves

`ResizeMemory` calls on a fresh runtime whose reservation is granted, with `memory.buffer` read in
between.  The state keeps every buffer ever handed to JavaScript.
-/

open WebAssemblyRuntime.Reasoning WebAssemblyRuntime.Wasm3

namespace WebAssemblyRuntime.Binding

structure ViewState where
  rt : M3Runtime
  view : WasmMemory := {}
  -- every buffer handed out so far; nothing in the program reads this
  snapshots : List MemorySnapshotBuffer := []

inductive ViewAction where
  | resize (numPages : UInt32) (os : SysCalls)
  | readBuffer

/-- The first call that gets as far as `mmap` is granted its reservation. -/
def Granted (rt : M3Runtime) (numPages : UInt32) (os : SysCalls) : Prop :=
  numPages ≤ rt.memory.maxPages → numPages.toNat ≤ 65536 → rt.memory.reservation = none →
    rt.memory.mallocated = none → os.mmap.isSome

/-- A runtime before its first allocation, with `maxPages` set by `InitMemory`. -/
def freshRuntime (stack stackSizeInBytes : Nat) (maxPages : UInt32) : M3Runtime :=
  { m3NewRuntime stack stackSizeInBytes with memory := { maxPages } }

def viewSystem (maxPages : UInt32) : System ViewState ViewAction where
  init s := ∃ stack stackSizeInBytes, s = { rt := freshRuntime stack stackSizeInBytes maxPages }
  step s a t := match a with
    | .resize numPages os =>
        Granted s.rt numPages os ∧ t = { s with rt := (resizeMemory s.rt numPages os).2 }
    | .readBuffer => ∃ buffer view, getBuffer s.rt s.view = some (buffer, view) ∧
        t = { s with view, snapshots := buffer :: s.snapshots }

/-- A buffer's bytes are committed bytes of the reservation. -/
def Committed (rt : M3Runtime) (buffer : MemorySnapshotBuffer) : Prop :=
  match buffer.data with
  | none => buffer.size = 0
  | some data => ∃ base, rt.memory.reservation = some base ∧ base ≤ data ∧
      data + buffer.size.toNat ≤ base + rt.memory.committedBytes

/-- What the memory keeps while it lives inside its reservation. -/
structure NonMoving (rt : M3Runtime) : Prop where
  unlimited : rt.memoryLimit = 0
  committed : rt.memory.committedBytes ≤ rt.memory.reservationBytes
  unreserved : rt.memory.reservation = none →
    rt.memory.mallocated = none ∧ rt.memory.committedBytes = 0
  block : ∀ b, rt.memory.mallocated = some b →
    rt.memory.reservation = some b.addr ∧ b.length = pageBytes rt.memory.numPages ∧
      b.length + sizeofM3MemoryHeader ≤ rt.memory.committedBytes

/-- The invariant: also the cached buffer is what the cache says, and all buffers are committed. -/
structure ViewInv (s : ViewState) : Prop where
  memory : NonMoving s.rt
  cache : ∀ buffer, s.view.buffer = some buffer → buffer = ⟨s.view.bufferData, s.view.bufferSize⟩
  snapshots : ∀ buffer ∈ s.snapshots, Committed s.rt buffer

/-- How a later state relates to an earlier one. -/
structure Grown (rt rt' : M3Runtime) : Prop where
  reservation : ∀ base, rt.memory.reservation = some base → rt'.memory.reservation = some base
  block : ∀ b, rt.memory.mallocated = some b →
    ∃ b', rt'.memory.mallocated = some b' ∧ b'.addr = b.addr
  committed : rt.memory.committedBytes ≤ rt'.memory.committedBytes

variable {rt rt' : M3Runtime}

theorem Grown.refl (rt : M3Runtime) : Grown rt rt :=
  ⟨fun _ h => h, fun b h => ⟨b, h, rfl⟩, Nat.le_refl _⟩

theorem Grown.trans {rt'' : M3Runtime} (h : Grown rt rt') (h' : Grown rt' rt'') :
    Grown rt rt'' := by
  refine ⟨fun base hb => h'.reservation base (h.reservation base hb), fun b hb => ?_,
    h.committed.trans h'.committed⟩
  obtain ⟨b₁, hb₁, haddr₁⟩ := h.block b hb
  obtain ⟨b₂, hb₂, haddr₂⟩ := h'.block b₁ hb₁
  exact ⟨b₂, hb₂, haddr₂.trans haddr₁⟩

theorem Committed.grown {buffer : MemorySnapshotBuffer} (h : Committed rt buffer)
    (hg : Grown rt rt') : Committed rt' buffer := by
  unfold Committed at *
  cases hdata : buffer.data with
  | none =>
    rw [hdata] at h
    exact h
  | some data =>
    rw [hdata] at h
    obtain ⟨base, hres, hlow, hhigh⟩ := h
    exact ⟨base, hg.reservation base hres, hlow, hhigh.trans (Nat.add_le_add_left hg.committed _)⟩

/-- A call that gets past the page checks has a reservation. -/
theorem reserve_granted (h : NonMoving rt) {n : UInt32} {os : SysCalls} (hg : Granted rt n os)
    (hmax : n ≤ rt.memory.maxPages) (hlimit : n.toNat ≤ 65536) :
    ∃ base, (reserve rt os).reservation = some base ∧
      (reserve rt os).committedBytes = rt.memory.committedBytes ∧
      (∀ base', rt.memory.reservation = some base' → base = base') ∧
      rt.memory.committedBytes ≤ (reserve rt os).reservationBytes := by
  cases hres : rt.memory.reservation with
  | some base =>
    rw [reserve_of_reservation (by rw [hres]; rfl)]
    exact ⟨base, hres, rfl, fun _ hb => Option.some.inj hb, h.committed⟩
  | none =>
    -- before the first reservation there is nothing yet that could move
    obtain ⟨hmal, hzero⟩ := h.unreserved hres
    obtain ⟨base, hmap⟩ := Option.isSome_iff_exists.mp (hg hmax hlimit hres hmal)
    have hfirst : rt.memory.reservation.isNone ∧ rt.memory.mallocated.isNone := by
      rw [hres, hmal]
      exact ⟨rfl, rfl⟩
    refine ⟨base, ?_⟩
    simp only [reserve, if_pos hfirst, hmap, hzero, reduceCtorEq, false_implies, implies_true,
      true_and]
    exact Nat.zero_le _

/-- A successful call: the block is where it was, larger or not. -/
theorem resizeMemory_nonMoving (h : NonMoving rt) {n : UInt32} {os : SysCalls}
    (hg : Granted rt n os) (hr : resizeMemory rt n os = (none, rt')) :
    NonMoving rt' ∧ Grown rt rt' := by
  have hok := resizeMemory_ok hr
  obtain ⟨base, hres, hcommitted, hsame, hle⟩ := reserve_granted h hg hok.max hok.limit
  obtain ⟨hfits, b, haddr, hlen, rfl⟩ := resizeMemory_inPlace hres hr
  rw [h.unlimited, limitBytes_zero] at hfits hlen ⊢
  refine ⟨⟨rfl, ?_, fun hnone => ?_, fun b' hb' => ?_⟩, ⟨fun base' hb => ?_, ?_, ?_⟩⟩
  · change max _ _ ≤ (reserve rt os).reservationBytes
    omega
  · exact absurd (hres.symm.trans hnone) (by simp)
  · have heq : b = b' := Option.some.inj hb'
    subst heq
    refine ⟨?_, hlen, ?_⟩
    · rw [haddr]
      exact hres
    · rw [hlen]
      exact Nat.le_max_right _ _
  · rw [← hsame base' hb]
    exact hres
  · intro b' hb'
    exact ⟨b, rfl, by rw [haddr]; exact hsame _ (h.block b' hb').1⟩
  · change _ ≤ max _ _
    omega

/-- A failed call leaves block, page count and watermark alone. -/
theorem resizeMemory_failed (h : NonMoving rt) {n : UInt32} {os : SysCalls} {e : M3Err}
    (hr : resizeMemory rt n os = (some e, rt')) :
    (NonMoving rt' ∧ Grown rt rt') ∧ rt'.memory.mallocated = rt.memory.mallocated ∧
      rt'.memory.numPages = rt.memory.numPages ∧
      rt'.memory.committedBytes = rt.memory.committedBytes := by
  obtain rfl | rfl := resizeMemory_error hr
  · exact ⟨⟨h, .refl _⟩, rfl, rfl, rfl⟩
  · obtain hsame | ⟨base, bytes, hnew⟩ := reserve_cases rt os
    · rw [hsame]
      exact ⟨⟨h, .refl _⟩, rfl, rfl, rfl⟩
    · by_cases hres : rt.memory.reservation = none
      -- a fresh reservation with nothing in it
      · obtain ⟨hmal, hzero⟩ := h.unreserved hres
        rw [hnew]
        refine ⟨⟨⟨h.unlimited, Nat.zero_le _, fun hnone => by simp at hnone, fun b hb => ?_⟩,
          ⟨fun base' hb => ?_, fun b hb => ?_, ?_⟩⟩, rfl, rfl, hzero.symm⟩
        · exact absurd (hmal.symm.trans hb) (by simp)
        · exact absurd (hres.symm.trans hb) (by simp)
        · exact absurd (hmal.symm.trans hb) (by simp)
        · exact le_of_eq hzero
      · rw [reserve_of_reservation (Option.isSome_iff_ne_none.mpr hres)]
        exact ⟨⟨h, .refl _⟩, rfl, rfl, rfl⟩

theorem resize_nonMoving (h : NonMoving rt) {n : UInt32} {os : SysCalls} (hg : Granted rt n os) :
    NonMoving (resizeMemory rt n os).2 ∧ Grown rt (resizeMemory rt n os).2 := by
  cases hr : resizeMemory rt n os with
  | mk result rt' =>
    cases result with
    | none => exact resizeMemory_nonMoving h hg hr
    | some e => exact (resizeMemory_failed h hr).1

/-- What `m3_GetMemory` reports, exactly: the length fits 32 bits. -/
theorem m3GetMemory_nonMoving (h : NonMoving rt) {data : Option Addr} {size : UInt32}
    (hget : m3GetMemory rt = some (data, size)) :
    (∃ b, rt.memory.mallocated = some b ∧ size.toNat = b.length ∧
      data = if b.length = 0 then none else some b.data) ∧ Committed rt ⟨data, size⟩ := by
  cases hb : rt.memory.mallocated with
  | none => simp [m3GetMemory, hb] at hget
  | some b =>
    obtain ⟨hres, hlen, hcommitted⟩ := h.block b hb
    have hsize : (UInt32.ofNat b.length).toNat = b.length := by
      rw [UInt32.toNat_ofNat', Nat.mod_eq_of_lt]
      rw [hlen]
      exact pageBytes_lt _
    have hzero : UInt32.ofNat b.length ≠ 0 ↔ b.length ≠ 0 := by
      rw [ne_eq, ← UInt32.toNat_inj, hsize, UInt32.toNat_zero]
    simp only [m3GetMemory, hb, Option.map_some, Option.some.injEq, Prod.mk.injEq] at hget
    obtain ⟨hdata, hsz⟩ := hget
    subst hsz
    by_cases hne : b.length = 0
    · rw [if_neg (by rw [hzero]; exact not_not.mpr hne)] at hdata
      subst hdata
      refine ⟨⟨b, rfl, hsize, by rw [if_pos hne]⟩, ?_⟩
      change UInt32.ofNat b.length = 0
      rw [hne]
      rfl
    · rw [if_pos (hzero.mpr hne)] at hdata
      subst hdata
      refine ⟨⟨b, rfl, hsize, by rw [if_neg hne]⟩, b.addr, hres, ?_, ?_⟩
      · exact Nat.le_add_right _ _
      · change b.addr + sizeofM3MemoryHeader + (UInt32.ofNat b.length).toNat ≤ _
        rw [hsize, Nat.add_assoc]
        exact Nat.add_le_add_left (by omega) _

/-- A read hands out what `m3_GetMemory` reports, from the cache or not. -/
theorem getBuffer_eq {self view : WasmMemory} {buffer : MemorySnapshotBuffer}
    (hcache : ∀ b, self.buffer = some b → b = ⟨self.bufferData, self.bufferSize⟩)
    (h : getBuffer rt self = some (buffer, view)) :
    m3GetMemory rt = some (buffer.data, buffer.size) ∧
      ∀ b, view.buffer = some b → b = ⟨view.bufferData, view.bufferSize⟩ := by
  cases hget : m3GetMemory rt with
  | none => simp [getBuffer, hget] at h
  | some pair =>
    obtain ⟨data, size⟩ := pair
    simp only [getBuffer, hget, Option.map_some, Option.some.injEq] at h
    cases hbuf : self.buffer with
    | none =>
      simp only [hbuf, Prod.mk.injEq] at h
      obtain ⟨rfl, rfl⟩ := h
      exact ⟨rfl, fun b hb => (Option.some.inj hb).symm⟩
    | some cached =>
      simp only [hbuf] at h
      -- a changed memory gets a new buffer, an unchanged one the cached buffer
      by_cases hnew : data ≠ self.bufferData ∨ size ≠ self.bufferSize
      · rw [if_pos hnew, Prod.mk.injEq] at h
        obtain ⟨rfl, rfl⟩ := h
        exact ⟨rfl, fun b hb => (Option.some.inj hb).symm⟩
      · rw [if_neg hnew, Prod.mk.injEq] at h
        obtain ⟨rfl, rfl⟩ := h
        have heq := hcache _ hbuf
        push Not at hnew
        refine ⟨?_, hcache⟩
        rw [heq, ← hnew.1, ← hnew.2]

theorem viewStep {maxPages : UInt32} {s t : ViewState} {a : ViewAction} (h : ViewInv s)
    (ht : (viewSystem maxPages).step s a t) : ViewInv t ∧ Grown s.rt t.rt := by
  cases a with
  | resize numPages os =>
    obtain ⟨hg, rfl⟩ := ht
    obtain ⟨hmem, hgrown⟩ := resize_nonMoving h.memory hg
    exact ⟨⟨hmem, h.cache, fun buffer hb => (h.snapshots buffer hb).grown hgrown⟩, hgrown⟩
  | readBuffer =>
    obtain ⟨buffer, view, hget, rfl⟩ := ht
    obtain ⟨hm3, hcache⟩ := getBuffer_eq h.cache hget
    refine ⟨⟨h.memory, hcache, fun b hb => ?_⟩, .refl _⟩
    cases List.mem_cons.mp hb with
    | inl heq =>
      rw [heq]
      exact (m3GetMemory_nonMoving h.memory hm3).2
    | inr hold => exact h.snapshots b hold

theorem viewSystem_inv {maxPages : UInt32} {s : ViewState}
    (h : (viewSystem maxPages).Reachable s) : ViewInv s := by
  refine System.Reachable.invariant ?_ ?_ h
  · rintro s ⟨stack, stackSizeInBytes, rfl⟩
    refine ⟨⟨rfl, Nat.le_refl _, fun _ => ⟨rfl, rfl⟩, ?_⟩, ?_, ?_⟩
    · intro b hb
      cases hb
    · intro buffer hb
      cases hb
    · intro buffer hb
      cases hb
  · intro s a t hs ht
    exact (viewStep hs ht).1

/-- Whatever comes after a reachable state only grows it. -/
theorem viewSystem_grown {maxPages : UInt32} {s t : ViewState}
    (hs : (viewSystem maxPages).Reachable s)
    (ht : (viewSystem maxPages).Within (fun _ => True) s t) : Grown s.rt t.rt := by
  refine System.Within.relative (R := fun s t => Grown s.rt t.rt) (fun s => .refl _) ?_ hs ht
  intro s t a u hreach _ _ hstep hst
  exact hst.trans (viewStep (viewSystem_inv hreach) hstep).2

theorem memoryViews {maxPages : UInt32} {s : ViewState}
    (h : (viewSystem maxPages).Reachable s) :
    s.rt.memory.committedBytes ≤ s.rt.memory.reservationBytes ∧
    (∀ t, (viewSystem maxPages).Within (fun _ => True) s t →
      (∀ b, s.rt.memory.mallocated = some b →
        ∃ b', t.rt.memory.mallocated = some b' ∧ b'.addr = b.addr) ∧
      s.rt.memory.committedBytes ≤ t.rt.memory.committedBytes) ∧
    (∀ n os e rt', resizeMemory s.rt n os = (some e, rt') →
      rt'.memory.mallocated = s.rt.memory.mallocated ∧
      rt'.memory.numPages = s.rt.memory.numPages ∧
      rt'.memory.committedBytes = s.rt.memory.committedBytes) ∧
    (∀ buffer view, getBuffer s.rt s.view = some (buffer, view) →
      m3GetMemory s.rt = some (buffer.data, buffer.size) ∧
      ∃ b, s.rt.memory.mallocated = some b ∧ buffer.size.toNat = b.length ∧
        buffer.data = if b.length = 0 then none else some b.data) ∧
    (s.rt.memory.mallocated.isSome → (getBuffer s.rt s.view).isSome) ∧
    ∀ buffer ∈ s.snapshots, Committed s.rt buffer := by
  have hinv := viewSystem_inv h
  refine ⟨hinv.memory.committed, ?_, ?_, ?_, ?_, hinv.snapshots⟩
  · intro t ht
    have hgrown := viewSystem_grown h ht
    exact ⟨hgrown.block, hgrown.committed⟩
  · intro n os e rt' hr
    exact (resizeMemory_failed hinv.memory hr).2
  · intro buffer view hget
    have hm3 := (getBuffer_eq hinv.cache hget).1
    exact ⟨hm3, (m3GetMemory_nonMoving hinv.memory hm3).1⟩
  · intro hmal
    simpa [getBuffer, m3GetMemory] using hmal

/-- One page is allocated, read, and a second page is added. -/
def viewedRun : ViewState :=
  let rt := (resizeMemory (freshRuntime 0 65536 4) 1 (SysCalls.granting 4096)).2
  { rt := (resizeMemory rt 2 (SysCalls.granting 4096)).2
    view := ⟨some ⟨some 4120, 65536⟩, some 4120, 65536⟩
    snapshots := [⟨some 4120, 65536⟩] }

theorem viewedRun_reachable : (viewSystem 4).Reachable viewedRun := by
  have hgranted : ∀ rt n, Granted rt n (SysCalls.granting 4096) := fun _ _ _ _ _ _ => rfl
  refine .step (a := .resize 2 (SysCalls.granting 4096)) (.step (a := .readBuffer)
    (.step (a := .resize 1 (SysCalls.granting 4096)) (.init ⟨0, 65536, rfl⟩) ⟨hgranted _ _, rfl⟩)
    ⟨⟨some 4120, 65536⟩, _, rfl, rfl⟩) ⟨hgranted _ _, rfl⟩

/-- The buffer read at one page is still committed at two. -/
theorem memoryViews_onePage : Committed viewedRun.rt ⟨some 4120, 65536⟩ :=
  (memoryViews viewedRun_reachable).2.2.2.2.2 _ (List.mem_singleton.mpr rfl)

end WebAssemblyRuntime.Binding
