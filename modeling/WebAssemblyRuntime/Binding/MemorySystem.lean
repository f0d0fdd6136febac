import WebAssemblyRuntime.Binding.WasmMemory
import WebAssemblyRuntime.Reasoning.Transition

/-!
# MemorySystem — everything that can happen to an instance's memory

The runs start when `m3_LoadModule` has accepted the module's memory and go on with the pre-size
step, both forms of `memory.grow` and stores, in any order.
-/

open WebAssemblyRuntime.Reasoning WebAssemblyRuntime.Wasm3

namespace WebAssemblyRuntime.Binding

/-- A memory type as the binary declares it. -/
structure Limits where
  initial : UInt32
  maximum : Option UInt32
  deriving DecidableEq, Repr

/-- What `ParseType_Memory` stores: the absent maximum and a maximum of zero look alike. -/
def Limits.info (limits : Limits) : M3MemoryInfo := ⟨limits.initial, limits.maximum.getD 0⟩

/-- The largest page count the declaration allows. -/
def Limits.effectiveMaximum (limits : Limits) : Nat :=
  min (limits.maximum.elim 65536 UInt32.toNat) 65536

/-- The memory part of `m3_LoadModule`: `InitMemory`, then the check `InitDataSegments` begins
with. -/
def loadMemory (rt : M3Runtime) (info : M3MemoryInfo) (memoryImported : Bool) (os : SysCalls) :
    M3Result × M3Runtime :=
  match initMemory rt info memoryImported os with
  | (some e, rt') => (some e, rt')
  | (none, rt') =>
      if rt'.memory.mallocated.isNone then (some .unallocatedLinearMemory, rt') else (none, rt')

inductive MemoryAction where
  | presize (memoryInitialPages : UInt32)
  | jsGrow (delta : JsValue)
  | wasmGrow (operand : UInt32)
  | store (index : Nat) (byte : UInt8)
  deriving DecidableEq, Repr

/-- A store (or a data segment's byte) at an index below the length. -/
def storeByte (rt : M3Runtime) (index : Nat) (byte : UInt8) : Option M3Runtime :=
  match rt.memory.mallocated with
  | some block =>
      if index < block.length then
        some { rt with memory := { rt.memory with
          mallocated := some { block with bytes := Function.update block.bytes index byte } } }
      else none
  | none => none

/-- One action on the memory, `none` where it is not possible. -/
def memoryStep (rt : M3Runtime) (os : SysCalls) : MemoryAction → Option M3Runtime
  | .presize pages => (presize rt pages os).map Prod.snd
  | .jsGrow delta => (growHostFunction rt delta os).map Prod.snd
  | .wasmGrow operand => some (opMemGrow rt operand.toNat os).2
  | .store index byte => storeByte rt index byte

/-- All runs of an instance whose memory is declared by `limits`. -/
def memorySystem (limits : Limits) (memoryImported : Bool) :
    System M3Runtime (MemoryAction × SysCalls) where
  init rt := ∃ stack stackSizeInBytes os,
    loadMemory (m3NewRuntime stack stackSizeInBytes) limits.info memoryImported os = (none, rt)
  step rt a rt' := memoryStep rt a.2 a.1 = some rt'

/-- The runtime just after a memory was loaded on a machine that grants every request. -/
def loaded (limits : Limits) : M3Runtime :=
  (loadMemory (m3NewRuntime 0 65536) limits.info false (SysCalls.granting 4096)).2

/-! ## The invariant of all runs -/

/-- `runtime->memory.maxPages` as `InitMemory` sets it. -/
def Limits.maxPages (limits : Limits) : UInt32 :=
  if limits.maximum.getD 0 ≠ 0 then limits.maximum.getD 0 else 65536

/-- What holds of the memory before it is allocated, and from then on. -/
structure MemoryDeclared (limits : Limits) (rt : M3Runtime) : Prop where
  unlimited : rt.memoryLimit = 0
  maxPages : rt.memory.maxPages = limits.maxPages
  reserved : ∀ base, rt.memory.reservation = some base →
    rt.memory.reservationBytes = rt.memory.maxPages.toNat * 65536 + sizeofM3MemoryHeader

/-- What holds of the runtime whatever was asked of it. -/
structure MemoryInv (limits : Limits) (rt : M3Runtime) : Prop
    extends MemoryDeclared limits rt where
  withinMax : rt.memory.numPages ≤ limits.maxPages
  withinLimit : rt.memory.numPages.toNat ≤ 65536
  block : ∃ b, rt.memory.mallocated = some b ∧ b.length = pageBytes rt.memory.numPages

variable {limits : Limits} {memoryImported : Bool} {rt rt' : M3Runtime}

theorem MemoryInv.mallocated (h : MemoryInv limits rt) : rt.memory.mallocated.isSome := by
  obtain ⟨b, hb, -⟩ := h.block
  rw [hb]
  rfl

theorem MemoryDeclared.resized (h : MemoryDeclared limits rt) {n : UInt32} {os : SysCalls}
    (hr : resizeMemory rt n os = (none, rt')) : MemoryInv limits rt' := by
  have hres := resizeMemory_ok hr
  obtain ⟨b, hb, hlen⟩ := hres.block
  rw [h.unlimited, limitBytes_zero] at hlen
  refine ⟨⟨?_, ?_, ?_⟩, ?_, ?_, ⟨b, hb, ?_⟩⟩
  · rw [hres.frame]
    exact h.unlimited
  · rw [hres.maxPages, h.maxPages]
  · intro base hbase
    rw [hres.reservation] at hbase
    rw [hres.reservationBytes, hres.maxPages]
    exact reserve_reserved h.unlimited h.reserved os base hbase
  · rw [hres.numPages, ← h.maxPages]
    exact hres.max
  · rw [hres.numPages]
    exact hres.limit
  · rw [hres.numPages]
    exact hlen

/-- `ResizeMemory` keeps the invariant whether or not it succeeds. -/
theorem resizeMemory_inv (h : MemoryInv limits rt) (n : UInt32) (os : SysCalls) :
    MemoryInv limits (resizeMemory rt n os).2 := by
  cases hr : resizeMemory rt n os with
  | mk result rt' =>
    cases result with
    | none => exact h.toMemoryDeclared.resized hr
    | some e =>
      rw [resizeMemory_error_eq h.mallocated hr]
      exact h

/-! ## Steps as resize requests -/

/-- The page delta a value passes the checks of `memory.grow` with, short of infinity. -/
def deltaOf (argument : JsValue) : Option Nat :=
  match toDouble argument with
  | .ok number => (pageDelta number).bind id
  | .error _ => none

/-- The page count the binding reads off the byte length: 65536 pages look like none. -/
def visiblePages (rt : M3Runtime) : UInt32 :=
  if rt.memory.numPages.toNat < 65536 then rt.memory.numPages else 0

/-- The page count an action hands to `ResizeMemory`, if it calls it. -/
def MemoryAction.target (rt : M3Runtime) : MemoryAction → Option UInt32
  | .presize pages => if 0 < visiblePages rt ∧ visiblePages rt < pages then some pages else none
  | .jsGrow delta => (deltaOf delta).bind fun delta =>
      if (visiblePages rt).toNat + delta < 2 ^ 32 then some (visiblePages rt + UInt32.ofNat delta)
      else none
  | .wasmGrow operand => if operand = 0 then none else some (rt.memory.numPages + operand)
  | .store _ _ => none

/-- The runtime after a request. -/
def resizeTo (rt : M3Runtime) (os : SysCalls) (target : Option UInt32) : M3Runtime :=
  target.elim rt fun n => (resizeMemory rt n os).2

theorem pages_of_size (h : MemoryInv limits rt) :
    rt.memory.numPages * d_m3MemPageSize / kWasmPageSizeInBytes = visiblePages rt := by
  apply UInt32.toNat_inj.mp
  have hlimit := h.withinLimit
  unfold visiblePages
  by_cases hp : rt.memory.numPages.toNat < 65536
  · rw [if_pos hp]
    simp only [UInt32.toNat_div, UInt32.toNat_mul, d_m3MemPageSize, kWasmPageSizeInBytes,
      UInt32.reduceToNat]
    omega
  · rw [if_neg hp]
    -- 65536 pages are `2 ^ 32` bytes, which wrap to zero
    have hfull : rt.memory.numPages.toNat = 65536 := by omega
    simp only [UInt32.toNat_div, UInt32.toNat_mul, d_m3MemPageSize, kWasmPageSizeInBytes,
      UInt32.reduceToNat, hfull]

theorem m3GetMemory_eq (h : MemoryInv limits rt) :
    ∃ data : Option Addr, m3GetMemory rt = some (data, rt.memory.numPages * d_m3MemPageSize) ∧
      (data.isSome ↔ 0 < visiblePages rt) := by
  obtain ⟨b, hb, hlen⟩ := h.block
  have hsize : UInt32.ofNat b.length = rt.memory.numPages * d_m3MemPageSize := by
    rw [hlen, pageBytes, UInt32.ofNat_toNat]
  rw [m3GetMemory, hb, Option.map_some]
  simp only [hsize]
  refine ⟨_, rfl, ?_⟩
  have hlimit := h.withinLimit
  have hzero : rt.memory.numPages * d_m3MemPageSize ≠ 0 ↔ 0 < visiblePages rt := by
    rw [← pages_of_size h, UInt32.lt_iff_toNat_lt, ne_eq, ← UInt32.toNat_inj]
    simp only [UInt32.toNat_div, UInt32.toNat_mul, d_m3MemPageSize, kWasmPageSizeInBytes,
      UInt32.reduceToNat, UInt32.toNat_zero]
    omega
  rw [← hzero]
  by_cases hs : rt.memory.numPages * d_m3MemPageSize ≠ 0
  · simp [hs]
  · simp [hs]

theorem previousPages_eq (h : MemoryInv limits rt) :
    previousPages rt = some (visiblePages rt) := by
  obtain ⟨data, hget, -⟩ := m3GetMemory_eq h
  rw [previousPages, hget, Option.map_some]
  exact congrArg some (pages_of_size h)

theorem presize_runtime (h : MemoryInv limits rt) (pages : UInt32) (os : SysCalls) :
    (presize rt pages os).map Prod.snd =
      some (resizeTo rt os ((MemoryAction.presize pages).target rt)) := by
  obtain ⟨data, hget, hdata⟩ := m3GetMemory_eq h
  rw [presize, hget, Option.map_some, Option.map_some]
  simp only [pages_of_size h, hdata, MemoryAction.target]
  by_cases hgo : 0 < visiblePages rt ∧ visiblePages rt < pages
  -- the request goes through, or one of the two conditions stops it
  · have hpos : 0 < pages := UInt32.lt_trans hgo.1 hgo.2
    rw [if_pos ⟨hgo.1, hpos⟩, if_pos hgo.2, if_pos hgo]
    rfl
  · rw [if_neg hgo]
    by_cases hpos : 0 < visiblePages rt ∧ 0 < pages
    · rw [if_pos hpos, if_neg (fun hlt => hgo ⟨hpos.1, hlt⟩)]
      rfl
    · rw [if_neg hpos]
      rfl

theorem growHostFunction_runtime (h : MemoryInv limits rt) (argument : JsValue) (os : SysCalls) :
    (growHostFunction rt argument os).map Prod.snd =
      some (resizeTo rt os ((MemoryAction.jsGrow argument).target rt)) := by
  cases hdouble : toDouble argument with
  | error e =>
    simp only [growHostFunction, MemoryAction.target, deltaOf, hdouble]
    rfl
  | ok number =>
    cases hdelta : pageDelta number with
    | none =>
      simp only [growHostFunction, MemoryAction.target, deltaOf, hdouble, hdelta]
      rfl
    | some delta =>
      simp only [growHostFunction, MemoryAction.target, deltaOf, hdouble, hdelta,
        previousPages_eq h, Option.map_some, Option.bind_some, id_eq]
      cases delta with
      | none => rfl
      | some delta =>
        simp only [Option.bind_some]
        -- beyond 32 bits the host function throws before it asks for pages
        by_cases hover : 4294967295 < delta ∨ 4294967295 < (visiblePages rt).toNat + delta
        · rw [if_pos hover, if_neg (by omega)]
          rfl
        · rw [if_neg hover, if_pos (by omega), resizeTo, Option.elim_some]
          cases resizeMemory rt (visiblePages rt + UInt32.ofNat delta) os with
          | mk result rt' => cases result <;> rfl

theorem ofInt_toNat (n : UInt32) : UInt32.ofInt (n.toNat : Int) = n := by
  rw [UInt32.ofInt, Int.emod_eq_of_lt (by omega) (by exact_mod_cast n.toNat_lt)]
  exact UInt32.ofNat_toNat

theorem opMemGrow_runtime (operand : UInt32) (os : SysCalls) :
    (opMemGrow rt operand.toNat os).2 =
      resizeTo rt os ((MemoryAction.wasmGrow operand).target rt) := by
  rw [opMemGrow, MemoryAction.target]
  simp only [ofInt_toNat]
  by_cases hz : operand = 0
  · rw [if_neg (not_not.mpr hz), if_pos hz]
    rfl
  · rw [if_pos hz, if_neg hz, resizeTo, Option.elim_some]
    cases resizeMemory rt (rt.memory.numPages + operand) os with
    | mk result rt' => cases result <;> rfl

/-- A store changes bytes below the length and nothing else. -/
theorem storeByte_cases {index : Nat} {byte : UInt8} (h : storeByte rt index byte = some rt') :
    ∃ b bytes, rt.memory.mallocated = some b ∧
      rt' = { rt with memory := { rt.memory with mallocated := some { b with bytes := bytes } } } := by
  unfold storeByte at h
  cases hb : rt.memory.mallocated with
  | none => simp [hb] at h
  | some b =>
    simp only [hb] at h
    by_cases hi : index < b.length
    · rw [if_pos hi] at h
      exact ⟨b, _, rfl, (Option.some.inj h).symm⟩
    · simp [hi] at h

/-- Every action is a store or one request to `ResizeMemory`. -/
theorem memoryStep_cases (h : MemoryInv limits rt) {os : SysCalls} {a : MemoryAction}
    (hstep : memoryStep rt os a = some rt') :
    (∃ index byte, a = .store index byte ∧ storeByte rt index byte = some rt') ∨
      rt' = resizeTo rt os (a.target rt) := by
  cases a with
  | presize pages =>
    rw [memoryStep, presize_runtime h] at hstep
    exact .inr (Option.some.inj hstep).symm
  | jsGrow delta =>
    rw [memoryStep, growHostFunction_runtime h] at hstep
    exact .inr (Option.some.inj hstep).symm
  | wasmGrow operand =>
    rw [memoryStep, opMemGrow_runtime] at hstep
    exact .inr (Option.some.inj hstep).symm
  | store index byte => exact .inl ⟨index, byte, rfl, hstep⟩

theorem storeByte_inv (h : MemoryInv limits rt) {index : Nat} {byte : UInt8}
    (hs : storeByte rt index byte = some rt') : MemoryInv limits rt' := by
  obtain ⟨b, bytes, hb, rfl⟩ := storeByte_cases hs
  obtain ⟨b', hb', hlen⟩ := h.block
  have heq : b' = b := Option.some.inj (hb'.symm.trans hb)
  subst heq
  exact ⟨⟨h.unlimited, h.maxPages, h.reserved⟩, h.withinMax, h.withinLimit, ⟨_, rfl, hlen⟩⟩

theorem resizeTo_inv (h : MemoryInv limits rt) (os : SysCalls) (target : Option UInt32) :
    MemoryInv limits (resizeTo rt os target) := by
  cases target with
  | none => exact h
  | some n => exact resizeMemory_inv h n os

theorem memoryStep_inv (h : MemoryInv limits rt) {os : SysCalls} {a : MemoryAction}
    (hstep : memoryStep rt os a = some rt') : MemoryInv limits rt' := by
  obtain ⟨index, byte, -, hs⟩ | rfl := memoryStep_cases h hstep
  · exact storeByte_inv h hs
  · exact resizeTo_inv h os _

/-- A loaded memory is the declared one. -/
theorem loadMemory_inv {stack stackSizeInBytes : Nat} {os : SysCalls}
    (h : loadMemory (m3NewRuntime stack stackSizeInBytes) limits.info memoryImported os =
      (none, rt)) :
    MemoryInv limits rt ∧ rt.memory.numPages = limits.initial := by
  unfold loadMemory initMemory at h
  by_cases himp : memoryImported = true
  · simp [himp, m3NewRuntime] at h
  · rw [if_neg himp] at h
    split at h
    · simp at h
    · rename_i rt' hr
      split at h
      · simp at h
      · have hrt : rt' = rt := (Prod.ext_iff.mp h).2
        subst hrt
        -- the runtime on which `InitMemory` calls `ResizeMemory`
        have hdecl : MemoryDeclared limits
            { m3NewRuntime stack stackSizeInBytes with
              memory := { ( {} : M3Memory) with maxPages := limits.maxPages } } :=
          ⟨rfl, rfl, fun base hbase => nomatch hbase⟩
        exact ⟨hdecl.resized hr, (resizeMemory_ok hr).numPages⟩

/-- Every reachable state satisfies the invariant. -/
theorem memorySystem_inv (h : (memorySystem limits memoryImported).Reachable rt) :
    MemoryInv limits rt := by
  refine System.Reachable.invariant ?_ ?_ h
  · rintro s ⟨stack, stackSizeInBytes, os, hload⟩
    exact (loadMemory_inv hload).1
  · intro s a t hs ht
    exact memoryStep_inv hs ht

end WebAssemblyRuntime.Binding
