import WebAssemblyRuntime.Binding.MemorySystem

/-!
# GrowAgreement — JS `memory.grow` against the instruction
-/

open WebAssemblyRuntime.Reasoning WebAssemblyRuntime.Wasm3

namespace WebAssemblyRuntime.Binding

/-- Page count, byte length and contents are as they were. -/
structure Unchanged (rt rt' : M3Runtime) : Prop where
  numPages : rt'.memory.numPages = rt.memory.numPages
  block : ∃ b b', rt.memory.mallocated = some b ∧ rt'.memory.mallocated = some b' ∧
    b'.length = b.length ∧ ∀ i < b.length, b'.bytes i = b.bytes i

/-- Both forms of grow by `delta` do what the page arithmetic in natural numbers says. -/
def GrowAgrees (limits : Limits) (rt : M3Runtime) (delta : UInt32) (os : SysCalls) : Prop :=
  let p := rt.memory.numPages.toNat
  let js := growHostFunction rt (.number (.finite delta.toNat)) os
  let wasm := opMemGrow rt delta.toNat os
  if p + delta.toNat ≤ limits.effectiveMaximum then
    (∃ rt', js = some (.ok (.finite p), rt') ∧ rt'.memory.numPages.toNat = p + delta.toNat) ∧
      wasm.1 = p ∧ wasm.2.memory.numPages.toNat = p + delta.toNat
  else
    (∃ message rt', js = some (.error (.rangeError message), rt') ∧ Unchanged rt rt') ∧
      wasm.1 = -1 ∧ Unchanged rt wasm.2

/-- No 32-bit sum wraps, the page count is not the one whose length wraps, and a maximum declared
as zero is not asked for pages. -/
def NoWrap (limits : Limits) (rt : M3Runtime) (delta : UInt32) : Prop :=
  let p := rt.memory.numPages.toNat
  p + delta.toNat < 2 ^ 32 ∧
    (p = 65536 → 65536 < delta.toNat) ∧
    (limits.maximum = some 0 → p + delta.toNat = 0 ∨ 65536 < p + delta.toNat)

variable {limits : Limits} {rt : M3Runtime} {os : SysCalls}

/-- The largest page count `ResizeMemory` lets through. -/
def Limits.accepted (limits : Limits) : Nat := min limits.maxPages.toNat 65536

theorem Limits.accepted_eq (limits : Limits) (h : limits.maximum ≠ some 0) :
    limits.accepted = limits.effectiveMaximum := by
  unfold accepted effectiveMaximum maxPages
  cases hmax : limits.maximum with
  | none => rfl
  | some m =>
    have hm : m ≠ 0 := fun hz => h (by rw [hmax, hz])
    rw [Option.getD_some, if_pos hm]
    rfl

theorem Limits.accepted_zero (limits : Limits) (h : limits.maximum = some 0) :
    limits.accepted = 65536 ∧ limits.effectiveMaximum = 0 := by
  unfold accepted effectiveMaximum maxPages
  rw [h]
  decide

theorem resizeMemory_granted (h : MemoryInv limits rt) (hos : os.Succeeds) {n : UInt32}
    (hn : n.toNat ≤ limits.accepted) : ∃ rt', resizeMemory rt n os = (none, rt') := by
  unfold Limits.accepted at hn
  have hmax : n ≤ rt.memory.maxPages := by
    rw [h.maxPages, UInt32.le_iff_toNat_le]
    omega
  have hbytes : pageBytes n ≤ rt.memory.maxPages.toNat * 65536 := by
    rw [pageBytes_toNat, h.maxPages]
    exact (Nat.mod_le _ _).trans (Nat.mul_le_mul_right _ (hn.trans (Nat.min_le_left _ _)))
  rw [resizeMemory_admitted hmax (by omega), h.unlimited, limitBytes_zero,
    reserve_of_mallocated h.mallocated]
  cases hres : rt.memory.reservation with
  | some base =>
    have hreserved := h.reserved base hres
    simp only [resizeInPlace]
    rw [if_neg (by omega), if_neg (by rw [hos.2.1]; simp)]
    exact ⟨_, rfl⟩
  | none =>
    exact resizeRealloc_granted hos.2.2 h.mallocated

theorem resizeMemory_refused (h : MemoryInv limits rt) (os : SysCalls) {n : UInt32}
    (hn : limits.accepted < n.toNat) : ∃ e, resizeMemory rt n os = (some e, rt) := by
  cases hr : resizeMemory rt n os with
  | mk result rt' =>
    cases result with
    | none =>
      have hres := resizeMemory_ok hr
      have hmax := UInt32.le_iff_toNat_le.mp hres.max
      have hlimit := hres.limit
      rw [h.maxPages] at hmax
      unfold Limits.accepted at hn
      omega
    | some e => exact ⟨e, by rw [resizeMemory_error_eq h.mallocated hr]⟩

theorem unchanged_refl (h : MemoryInv limits rt) : Unchanged rt rt := by
  obtain ⟨b, hb, -⟩ := h.block
  exact ⟨rfl, b, b, hb, hb, rfl, fun _ _ => rfl⟩

theorem pageDelta_natCast (n : Nat) : pageDelta (.finite n) = some (some n) := by
  have hnonneg : ¬ ((n : ℚ) < 0 ∨ (n : ℚ) ≠ ((⌊(n : ℚ)⌋ : Int) : ℚ)) := by
    simp
  rw [pageDelta, if_neg hnonneg, Int.floor_natCast, Int.toNat_natCast]

/-- JS grow by an integer, in natural numbers: it starts from the visible page count. -/
theorem growHostFunction_granted (h : MemoryInv limits rt) (hos : os.Succeeds) (delta : UInt32)
    (hn : (visiblePages rt).toNat + delta.toNat ≤ limits.accepted) :
    ∃ rt', growHostFunction rt (.number (.finite delta.toNat)) os =
        some (.ok (.finite (visiblePages rt).toNat), rt') ∧
      rt'.memory.numPages.toNat = (visiblePages rt).toNat + delta.toNat := by
  have haccepted : limits.accepted ≤ 65536 := Nat.min_le_right _ _
  have hnat : (visiblePages rt + delta).toNat = (visiblePages rt).toNat + delta.toNat := by
    rw [UInt32.toNat_add]
    omega
  obtain ⟨rt', hr⟩ := resizeMemory_granted h hos (n := visiblePages rt + delta) (by omega)
  refine ⟨rt', ?_, ?_⟩
  · simp only [growHostFunction, toDouble, pageDelta_natCast, previousPages_eq h, Option.map_some]
    rw [if_neg (by omega), UInt32.ofNat_toNat, hr]
  · rw [(resizeMemory_ok hr).numPages, hnat]

theorem growHostFunction_refused (h : MemoryInv limits rt) (os : SysCalls) {delta : UInt32}
    (hn : limits.accepted < (visiblePages rt).toNat + delta.toNat) :
    ∃ message, growHostFunction rt (.number (.finite delta.toNat)) os =
      some (.error (.rangeError message), rt) := by
  simp only [growHostFunction, toDouble, pageDelta_natCast, previousPages_eq h, Option.map_some]
  by_cases hover : 4294967295 < delta.toNat ∨
      4294967295 < (visiblePages rt).toNat + delta.toNat
  · rw [if_pos hover]
    exact ⟨_, rfl⟩
  · have hnat : (visiblePages rt + delta).toNat = (visiblePages rt).toNat + delta.toNat := by
      rw [UInt32.toNat_add]
      omega
    obtain ⟨e, hr⟩ := resizeMemory_refused h os (n := visiblePages rt + delta) (by omega)
    rw [if_neg hover, UInt32.ofNat_toNat, hr]
    exact ⟨_, rfl⟩

/-- The instruction's 32-bit sum decides; an operand of zero is not looked at. -/
theorem opMemGrow_granted (h : MemoryInv limits rt) (hos : os.Succeeds) (delta : UInt32)
    (hn : delta = 0 ∨ (rt.memory.numPages + delta).toNat ≤ limits.accepted) :
    (opMemGrow rt delta.toNat os).1 = rt.memory.numPages.toNat ∧
      (opMemGrow rt delta.toNat os).2.memory.numPages = rt.memory.numPages + delta := by
  unfold opMemGrow
  simp only [ofInt_toNat]
  by_cases hz : delta = 0
  · rw [if_neg (not_not.mpr hz), hz, UInt32.add_zero]
    exact ⟨rfl, rfl⟩
  · obtain ⟨rt', hr⟩ := resizeMemory_granted h hos (hn.resolve_left hz)
    rw [if_pos hz, hr]
    exact ⟨rfl, (resizeMemory_ok hr).numPages⟩

theorem opMemGrow_refused (h : MemoryInv limits rt) (os : SysCalls) {delta : UInt32} (hz : delta ≠ 0)
    (hn : limits.accepted < (rt.memory.numPages + delta).toNat) :
    opMemGrow rt delta.toNat os = (-1, rt) := by
  obtain ⟨e, hr⟩ := resizeMemory_refused h os hn
  unfold opMemGrow
  simp only [ofInt_toNat]
  rw [if_pos hz, hr]

/-- Where the sum is within the maximum, only the page count that reads as zero is in the way. -/
theorem growAgrees_within (h : MemoryInv limits rt) (hos : os.Succeeds) (delta : UInt32)
    (hwithin : rt.memory.numPages.toNat + delta.toNat ≤ limits.effectiveMaximum) :
    GrowAgrees limits rt delta os ↔ rt.memory.numPages.toNat ≠ 65536 := by
  -- what the declaration allows, the code accepts
  have haccepted : limits.effectiveMaximum ≤ limits.accepted := by
    by_cases hzero : limits.maximum = some 0
    · obtain ⟨-, heff⟩ := limits.accepted_zero hzero
      omega
    · exact le_of_eq (limits.accepted_eq hzero).symm
  have hcap : limits.effectiveMaximum ≤ 65536 := Nat.min_le_right _ _
  have hnat : (rt.memory.numPages + delta).toNat = rt.memory.numPages.toNat + delta.toNat := by
    rw [UInt32.toNat_add]
    omega
  unfold GrowAgrees
  simp only
  rw [if_pos hwithin]
  constructor
  · rintro ⟨⟨rt', hjs, -⟩, -⟩ hfull
    -- JavaScript would grow from zero pages and report zero
    have hvis : visiblePages rt = 0 := if_neg (by omega)
    obtain ⟨rt'', hgrow, -⟩ := growHostFunction_granted h hos delta
      (by rw [hvis, UInt32.toNat_zero]; omega)
    rw [hgrow, hvis, hfull] at hjs
    simp at hjs
  · intro hp
    have hvis : visiblePages rt = rt.memory.numPages :=
      if_pos (by have := h.withinLimit; omega)
    obtain ⟨rt', hjs, hpages⟩ := growHostFunction_granted h hos delta
      (by rw [hvis]; omega)
    obtain ⟨hresult, hwasm⟩ := opMemGrow_granted h hos delta (.inr (by omega))
    rw [hvis] at hjs hpages
    exact ⟨⟨rt', hjs, hpages⟩, hresult, by rw [hwasm, hnat]⟩

/-- Beyond the maximum, both sums the code compares must be beyond what it accepts. -/
theorem growAgrees_beyond (h : MemoryInv limits rt) (hos : os.Succeeds) (delta : UInt32)
    (hbeyond : limits.effectiveMaximum < rt.memory.numPages.toNat + delta.toNat) :
    GrowAgrees limits rt delta os ↔
      limits.accepted < (visiblePages rt).toNat + delta.toNat ∧ delta ≠ 0 ∧
        limits.accepted < (rt.memory.numPages + delta).toNat := by
  unfold GrowAgrees
  simp only
  rw [if_neg (by omega)]
  constructor
  · rintro ⟨⟨message, rt', hjs, -⟩, hwasm, -⟩
    have hnonneg : (0 : Int) ≤ rt.memory.numPages.toNat := Int.natCast_nonneg _
    refine ⟨?_, ?_, ?_⟩
    · by_contra hle
      obtain ⟨rt'', hgrow, -⟩ := growHostFunction_granted h hos delta (by omega)
      rw [hgrow] at hjs
      simp at hjs
    · intro hz
      have := (opMemGrow_granted h hos delta (.inl hz)).1
      omega
    · by_contra hle
      have := (opMemGrow_granted h hos delta (.inr (by omega))).1
      omega
  · rintro ⟨hjs, hz, hwasm⟩
    obtain ⟨message, hgrow⟩ := growHostFunction_refused h os hjs
    have hop := opMemGrow_refused h os hz hwasm
    rw [hop]
    exact ⟨⟨message, rt, hgrow, unchanged_refl h⟩, rfl, unchanged_refl h⟩

theorem growAgreement (memoryImported : Bool)
    (h : (memorySystem limits memoryImported).Reachable rt) (hos : os.Succeeds) (delta : UInt32) :
    GrowAgrees limits rt delta os ↔ NoWrap limits rt delta := by
  have hinv := memorySystem_inv h
  have hlimit := hinv.withinLimit
  have hmax := UInt32.le_iff_toNat_le.mp hinv.withinMax
  have haccepted : limits.accepted = min limits.maxPages.toNat 65536 := rfl
  have hcap : limits.effectiveMaximum ≤ 65536 := Nat.min_le_right _ _
  have hdelta := delta.toNat_lt
  unfold NoWrap
  simp only
  by_cases hwithin : rt.memory.numPages.toNat + delta.toNat ≤ limits.effectiveMaximum
  · rw [growAgrees_within hinv hos delta hwithin]
    constructor
    · intro hp
      refine ⟨by omega, fun hfull => absurd hfull hp, fun hzero => ?_⟩
      obtain ⟨-, heff⟩ := limits.accepted_zero hzero
      omega
    · rintro ⟨-, hfull, -⟩ hp
      have := hfull hp
      omega
  · rw [growAgrees_beyond hinv hos delta (by omega)]
    have hsum : (rt.memory.numPages + delta).toNat =
        (rt.memory.numPages.toNat + delta.toNat) % 2 ^ 32 := UInt32.toNat_add _ _
    have hzero : delta ≠ 0 ↔ delta.toNat ≠ 0 := by
      rw [ne_eq, ← UInt32.toNat_inj, UInt32.toNat_zero]
    have hvis : (visiblePages rt).toNat =
        if rt.memory.numPages.toNat < 65536 then rt.memory.numPages.toNat else 0 := by
      unfold visiblePages
      split <;> rfl
    rw [hsum, hzero, hvis]
    -- only a maximum of zero makes the code accept more than is declared
    by_cases hmaximum : limits.maximum = some 0
    · obtain ⟨hacc, heff⟩ := limits.accepted_zero hmaximum
      simp only [hmaximum, true_implies]
      split <;> omega
    · have heq := limits.accepted_eq hmaximum
      simp only [hmaximum, false_implies, and_true]
      split <;> omega

theorem growAgreement_onePage :
    GrowAgrees ⟨1, some 4⟩ (loaded ⟨1, some 4⟩) 2 (SysCalls.granting 8192) ↔
      NoWrap ⟨1, some 4⟩ (loaded ⟨1, some 4⟩) 2 :=
  growAgreement false
    (.init ⟨0, 65536, SysCalls.granting 4096, Prod.ext (by decide) rfl⟩)
    (SysCalls.granting_succeeds 8192) 2

/-- A one-page memory asked for 2^32 - 1 pages: the instruction's sum wraps to zero. -/
theorem growAgreement_fails :
    ¬ ∀ rt delta os, (memorySystem ⟨1, some 4⟩ false).Reachable rt → os.Succeeds →
      GrowAgrees ⟨1, some 4⟩ rt delta os := by
  intro h
  have hagrees := h (loaded ⟨1, some 4⟩) 0xffffffff (SysCalls.granting 4096)
    (.init ⟨0, 65536, SysCalls.granting 4096, Prod.ext (by decide) rfl⟩)
    (SysCalls.granting_succeeds 4096)
  have hwasm := hagrees.2.1
  revert hwasm
  decide

end WebAssemblyRuntime.Binding
