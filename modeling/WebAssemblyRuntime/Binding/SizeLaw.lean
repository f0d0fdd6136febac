import WebAssemblyRuntime.Binding.MemorySystem

/-!
# SizeLaw — page count, byte length and declared maximum over whole runs

The byte length follows the page count, the declared maximum bounds it and nothing ever shrinks, as
long as no step asks for the full 65536 pages (whose length wraps to zero), the maximum is not
declared as zero (which reads as "no maximum") and the instruction's 32-bit sum does not wrap.
-/

open WebAssemblyRuntime.Reasoning WebAssemblyRuntime.Wasm3

namespace WebAssemblyRuntime.Binding

/-- The size law of one state. -/
structure SizeLaw (limits : Limits) (rt : M3Runtime) : Prop where
  length : ∃ b, rt.memory.mallocated = some b ∧ b.length = rt.memory.numPages.toNat * 65536
  maximum : rt.memory.numPages.toNat ≤ limits.maximum.elim 65536 UInt32.toNat

/-- A step made neither the page count nor the byte length smaller. -/
structure NoSmaller (rt rt' : M3Runtime) : Prop where
  numPages : rt.memory.numPages ≤ rt'.memory.numPages
  length : ∀ b b', rt.memory.mallocated = some b → rt'.memory.mallocated = some b' →
    b.length ≤ b'.length

/-- The page count an action asks for, as a natural number. -/
def MemoryAction.wanted (rt : M3Runtime) : MemoryAction → Option Nat
  | .presize pages =>
      if 0 < rt.memory.numPages ∧ rt.memory.numPages < pages then some pages.toNat else none
  | .jsGrow delta => (deltaOf delta).map (rt.memory.numPages.toNat + ·)
  | .wasmGrow operand => some (rt.memory.numPages.toNat + operand.toNat)
  | .store _ _ => none

/-- A page count whose bytes can be counted, under a maximum that can be stored. -/
def Limits.Sound (limits : Limits) (n : Nat) : Prop :=
  (n ≤ limits.effectiveMaximum → n < 65536) ∧ (limits.maximum = some 0 → n ≤ 65536 → n = 0)

/-- An action that keeps clear of the wrap-arounds. -/
def MemoryAction.Meets (limits : Limits) (rt : M3Runtime) (a : MemoryAction) : Prop :=
  ∀ n, a.wanted rt = some n →
    limits.Sound n ∧ ∀ operand, a = .wasmGrow operand → n < 2 ^ 32

/-- The runs of an instance that keep clear of the wrap-arounds from the start. -/
def soundRuns (limits : Limits) (memoryImported : Bool) :
    System M3Runtime (MemoryAction × SysCalls) :=
  (memorySystem limits memoryImported).restrict (fun _ => limits.Sound limits.initial.toNat)
    fun rt a => a.1.Meets limits rt

variable {limits : Limits} {memoryImported : Bool} {rt rt' : M3Runtime}

/-- The invariant of sound runs: what the code keeps, and a page count that did not wrap. -/
structure SoundInv (limits : Limits) (rt : M3Runtime) : Prop extends MemoryInv limits rt where
  counted : rt.memory.numPages.toNat < 65536
  zeroMaximum : limits.maximum = some 0 → rt.memory.numPages.toNat = 0

theorem maxPages_le {n : Nat} (hn : n ≤ limits.maxPages.toNat) (hzero : limits.maximum ≠ some 0) :
    n ≤ limits.maximum.elim 65536 UInt32.toNat := by
  unfold Limits.maxPages at hn
  cases hmax : limits.maximum with
  | none => simpa [hmax] using hn
  | some m =>
    have hm : m ≠ 0 := fun h => hzero (by rw [hmax, h])
    rw [hmax, Option.getD_some, if_pos hm] at hn
    exact hn

/-- A sound page count that the code accepts is below 65536. -/
theorem Limits.Sound.counted {n : Nat} (h : limits.Sound n) (hmax : n ≤ limits.maxPages.toNat)
    (hlimit : n ≤ 65536) : n < 65536 := by
  -- a maximum of zero is stored as 65536, so soundness has to rule it out itself
  by_cases hzero : limits.maximum = some 0
  · have hn := h.2 hzero hlimit
    omega
  · have hle := maxPages_le hmax hzero
    apply h.1
    unfold Limits.effectiveMaximum
    omega

theorem SoundInv.sizeLaw (h : SoundInv limits rt) : SizeLaw limits rt := by
  obtain ⟨b, hb, hlen⟩ := h.block
  refine ⟨⟨b, hb, by rw [hlen, pageBytes_of_lt h.counted]⟩, ?_⟩
  by_cases hzero : limits.maximum = some 0
  · rw [h.zeroMaximum hzero]
    exact Nat.zero_le _
  · exact maxPages_le (UInt32.le_iff_toNat_le.mp h.withinMax) hzero

theorem visiblePages_of_lt (h : rt.memory.numPages.toNat < 65536) :
    visiblePages rt = rt.memory.numPages := if_pos h

/-- In a sound run an action hands `ResizeMemory` the natural number it asks for, and never less
than there is. -/
theorem target_wanted (h : SoundInv limits rt) {a : MemoryAction} (ha : a.Meets limits rt)
    {n : UInt32} (ht : a.target rt = some n) :
    a.wanted rt = some n.toNat ∧ rt.memory.numPages ≤ n := by
  have hvis := visiblePages_of_lt h.counted
  cases a with
  | presize pages =>
    rw [MemoryAction.target, hvis] at ht
    by_cases hgo : 0 < rt.memory.numPages ∧ rt.memory.numPages < pages
    · rw [if_pos hgo] at ht
      have hn := Option.some.inj ht
      subst hn
      exact ⟨if_pos hgo, UInt32.le_of_lt hgo.2⟩
    · rw [if_neg hgo] at ht
      simp at ht
  | jsGrow delta =>
    rw [MemoryAction.target, hvis] at ht
    cases hdelta : deltaOf delta with
    | none => simp [hdelta] at ht
    | some d =>
      rw [hdelta, Option.bind_some] at ht
      by_cases hsum : rt.memory.numPages.toNat + d < 2 ^ 32
      · rw [if_pos hsum] at ht
        have hn := Option.some.inj ht
        have hnat : n.toNat = rt.memory.numPages.toNat + d := by
          rw [← hn, UInt32.toNat_add, UInt32.toNat_ofNat']
          omega
        refine ⟨?_, UInt32.le_iff_toNat_le.mpr (by omega)⟩
        rw [MemoryAction.wanted, hdelta, hnat, Option.map_some]
      · rw [if_neg hsum] at ht
        simp at ht
  | wasmGrow operand =>
    have hsum := (ha _ rfl).2 operand rfl
    rw [MemoryAction.target] at ht
    by_cases hz : operand = 0
    · rw [if_pos hz] at ht
      simp at ht
    · rw [if_neg hz] at ht
      have hn := Option.some.inj ht
      have hnat : n.toNat = rt.memory.numPages.toNat + operand.toNat := by
        rw [← hn, UInt32.toNat_add]
        omega
      refine ⟨?_, UInt32.le_iff_toNat_le.mpr (by omega)⟩
      rw [MemoryAction.wanted, hnat]
  | store index byte => simp [MemoryAction.target] at ht

/-- Under the size law the byte lengths compare as the page counts do. -/
theorem noSmaller_of_pages (h : SizeLaw limits rt) (h' : SizeLaw limits rt')
    (hle : rt.memory.numPages ≤ rt'.memory.numPages) : NoSmaller rt rt' := by
  refine ⟨hle, ?_⟩
  intro b b' hb hb'
  obtain ⟨_, hb₁, hlen⟩ := h.length
  obtain ⟨_, hb₂, hlen'⟩ := h'.length
  rw [hb, Option.some.injEq] at hb₁
  rw [hb', Option.some.injEq] at hb₂
  have hnat := UInt32.le_iff_toNat_le.mp hle
  rw [hb₁, hb₂, hlen, hlen']
  omega

/-- One sound step keeps the invariant and makes nothing smaller. -/
theorem soundStep (h : SoundInv limits rt) {os : SysCalls} {a : MemoryAction}
    (ha : a.Meets limits rt) (hstep : memoryStep rt os a = some rt') :
    SoundInv limits rt' ∧ NoSmaller rt rt' := by
  have hinv := memoryStep_inv h.toMemoryInv hstep
  suffices hgoal : SoundInv limits rt' ∧ rt.memory.numPages ≤ rt'.memory.numPages from
    ⟨hgoal.1, noSmaller_of_pages h.sizeLaw hgoal.1.sizeLaw hgoal.2⟩
  -- a store changes no size; a request succeeds with the sum, or fails and changes nothing
  obtain ⟨index, byte, -, hs⟩ | rfl := memoryStep_cases h.toMemoryInv hstep
  · obtain ⟨b, bytes, -, rfl⟩ := storeByte_cases hs
    exact ⟨⟨hinv, h.counted, h.zeroMaximum⟩, UInt32.le_refl _⟩
  · cases ht : a.target rt with
    | none => exact ⟨h, UInt32.le_refl _⟩
    | some n =>
      obtain ⟨hwanted, hle⟩ := target_wanted h ha ht
      have hsound := (ha _ hwanted).1
      rw [ht] at hinv
      change MemoryInv limits (resizeMemory rt n os).2 at hinv
      change SoundInv limits (resizeMemory rt n os).2 ∧ _ ≤ (resizeMemory rt n os).2.memory.numPages
      cases hr : resizeMemory rt n os with
      | mk result rt' =>
        rw [hr] at hinv
        cases result with
        | none =>
          have hres := resizeMemory_ok hr
          have hmax : n.toNat ≤ limits.maxPages.toNat :=
            h.maxPages ▸ UInt32.le_iff_toNat_le.mp hres.max
          refine ⟨⟨hinv, ?_, fun hzero => ?_⟩, ?_⟩
          · rw [hres.numPages]
            exact hsound.counted hmax hres.limit
          · rw [hres.numPages]
            exact hsound.2 hzero hres.limit
          · rw [hres.numPages]
            exact hle
        | some e =>
          rw [resizeMemory_error_eq h.mallocated hr]
          exact ⟨h, UInt32.le_refl _⟩

theorem soundRuns_inv (h : (soundRuns limits memoryImported).Reachable rt) :
    SoundInv limits rt := by
  refine System.Reachable.invariant ?_ ?_ h
  · rintro s ⟨⟨stack, stackSizeInBytes, os, hload⟩, hsound⟩
    obtain ⟨hinv, hpages⟩ := loadMemory_inv hload
    have hmax := UInt32.le_iff_toNat_le.mp hinv.withinMax
    have hlimit := hinv.withinLimit
    rw [← hpages] at hsound
    exact ⟨hinv, hsound.counted hmax hlimit, fun hzero => hsound.2 hzero hlimit⟩
  · rintro s a t hs ⟨hstep, hmeets⟩
    exact (soundStep hs hmeets hstep).1

theorem memorySizeLaw (h : (soundRuns limits memoryImported).Reachable rt) :
    SizeLaw limits rt ∧
      ∀ a rt', (soundRuns limits memoryImported).step rt a rt' → NoSmaller rt rt' := by
  have hinv := soundRuns_inv h
  refine ⟨hinv.sizeLaw, ?_⟩
  rintro a rt' ⟨hstep, hmeets⟩
  exact (soundStep hinv hmeets hstep).2

theorem memorySizeLaw_onePage :
    SizeLaw ⟨1, some 4⟩ (opMemGrow (loaded ⟨1, some 4⟩) 2 (SysCalls.granting 4096)).2 ∧
      ∀ a rt', (soundRuns ⟨1, some 4⟩ false).step
          (opMemGrow (loaded ⟨1, some 4⟩) 2 (SysCalls.granting 4096)).2 a rt' →
        NoSmaller (opMemGrow (loaded ⟨1, some 4⟩) 2 (SysCalls.granting 4096)).2 rt' := by
  apply memorySizeLaw
  refine .step (a := (.wasmGrow 2, SysCalls.granting 4096)) (.init ⟨⟨0, 65536, SysCalls.granting 4096, ?_⟩, ?_⟩) ⟨rfl, ?_⟩
  · exact Prod.ext (by decide) rfl
  · exact ⟨fun _ => by decide, fun h => by cases h⟩
  · intro n hn
    have hn : 3 = n := Option.some.inj hn
    subst hn
    exact ⟨⟨fun _ => by decide, fun h => by cases h⟩, fun _ _ => by decide⟩

/-- Growing a one-page memory by 65535 pages gives 65536 pages of no bytes. -/
theorem memorySizeLaw_fails :
    ¬ ∀ rt, (memorySystem ⟨1, none⟩ false).Reachable rt →
      SizeLaw ⟨1, none⟩ rt ∧
        ∀ a rt', (memorySystem ⟨1, none⟩ false).step rt a rt' → NoSmaller rt rt' := by
  intro h
  have hinit : (memorySystem ⟨1, none⟩ false).Reachable (loaded ⟨1, none⟩) :=
    .init ⟨0, 65536, SysCalls.granting 4096, Prod.ext (by decide) rfl⟩
  have hlength := ((h _ hinit).2 (.wasmGrow 65535, SysCalls.granting 4096) _ rfl).length _ _ rfl rfl
  revert hlength
  decide

end WebAssemblyRuntime.Binding
