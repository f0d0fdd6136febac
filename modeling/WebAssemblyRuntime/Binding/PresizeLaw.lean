import WebAssemblyRuntime.Binding.GrowAgreement
import WebAssemblyRuntime.Binding.Instantiate

/-!
# PresizeLaw — the pages an instance is given before it starts

The polyfill takes the larger of its default and the pages of `env.memory`, the binding cuts that
down to a `uint32_t` and asks for as many pages; a request beyond the maximum leaves the memory as
it was declared.
-/

open WebAssemblyRuntime.Reasoning WebAssemblyRuntime.Wasm3

namespace WebAssemblyRuntime.Binding

/-! ## The options -/

/-- `Math.max` of two numbers. -/
def mathMax : JsNumber → JsNumber → JsNumber
  | .nan, _ => .nan
  | _, .nan => .nan
  | .posInf, _ => .posInf
  | _, .posInf => .posInf
  | .negInf, y => y
  | x, .negInf => x
  | .negZero, .negZero => .negZero
  -- positive zero is the larger of the two
  | .negZero, .finite q => if q < 0 then .negZero else .finite q
  | .finite q, .negZero => if q < 0 then .negZero else .finite q
  | .finite p, .finite q => .finite (max p q)

/-- The polyfill's `defaults`. -/
structure PolyfillDefaults where
  memoryInitialPages : JsNumber := .finite 0
  stackSizeInBytes : JsNumber := .finite (512 * 1024)

/-- `hintedPages`: `initial` is `importObject.env?.memory?.initial`, `undefined` when absent. -/
def hintedPages (initial : JsValue) : JsNumber :=
  match initial with
  | .number n => n
  | _ => .finite 0

/-- An option read by `instantiate`: `isNumber`, `> 0` and a `static_cast<uint32_t>`, which is
undefined from `2 ^ 32` on. -/
def readOption (value : JsNumber) (fallback : UInt32) : UInt32 :=
  match value with
  | .finite q => if 0 < q then UInt32.ofNat ⌊q⌋₊ else fallback
  | .posInf => 0
  | _ => fallback

/-- The options `nativeInstantiate` passes, as `instantiate` reads them. -/
def nativeOptions (defaults : PolyfillDefaults) (initial : JsValue) : InstantiateOptions where
  stackSizeInBytes := readOption defaults.stackSizeInBytes kDefaultStackSizeInBytes
  memoryInitialPages :=
    readOption (mathMax defaults.memoryInitialPages (hintedPages initial)) 0

/-- The pages that are asked for: the larger of the default and the hint, rounded down.  What is
not a number counts as no hint; negative zero and infinity are below any default. -/
def expectedPages (default : UInt32) (initial : JsValue) : Nat :=
  match initial with
  | .number (.finite q) => ⌊max (default.toNat : ℚ) q⌋₊
  | _ => default.toNat

/-- The hint is not a number that `uint32_t` has no room for. -/
def HintBelow (initial : JsValue) : Prop :=
  initial ≠ .number .posInf ∧ ∀ q, initial = .number (.finite q) → q < 2 ^ 32

theorem readOption_natCast (n : UInt32) : readOption (.finite n.toNat) 0 = n := by
  unfold readOption
  by_cases hpos : (0 : ℚ) < n.toNat
  · simp only [if_pos hpos, Nat.floor_natCast, UInt32.ofNat_toNat]
  · simp only [if_neg hpos]
    have hzero : n.toNat = 0 := by
      by_contra hne
      exact hpos (Nat.cast_pos.mpr (Nat.pos_of_ne_zero hne))
    exact (UInt32.toNat_inj.mp hzero).symm

theorem readOption_max {n : UInt32} {q : ℚ} (hq : q < 2 ^ 32) :
    (readOption (.finite (max (n.toNat : ℚ) q)) 0).toNat = ⌊max (n.toNat : ℚ) q⌋₊ := by
  have hlt : ⌊max (n.toNat : ℚ) q⌋₊ < 2 ^ 32 := by
    rw [Nat.floor_lt (le_max_of_le_left (Nat.cast_nonneg _))]
    exact max_lt (by exact_mod_cast n.toNat_lt) (by exact_mod_cast hq)
  unfold readOption
  by_cases hpos : 0 < max (n.toNat : ℚ) q
  · simp only [if_pos hpos]
    exact UInt32.toNat_ofNat_of_lt' hlt
  · simp only [if_neg hpos]
    rw [Nat.floor_of_nonpos (not_lt.mp hpos)]
    rfl

/-- What is asked for, unless the hint is NaN, which `Math.max` passes on and `> 0` refuses. -/
theorem requestedPages (default : UInt32) (stackSize : JsNumber) {initial : JsValue}
    (hbelow : HintBelow initial) :
    (nativeOptions ⟨.finite default.toNat, stackSize⟩ initial).memoryInitialPages.toNat =
      if initial = .number .nan then 0 else expectedPages default initial := by
  show (readOption (mathMax (.finite default.toNat) (hintedPages initial)) 0).toNat = _
  have hdefault : readOption (mathMax (.finite default.toNat) (.finite 0)) 0 = default := by
    show readOption (.finite (max (default.toNat : ℚ) 0)) 0 = default
    rw [max_eq_left (Nat.cast_nonneg _), readOption_natCast]
  cases initial with
  | undefined | null | bool _ | bigint _ | other _ =>
    rw [if_neg (fun h => nomatch h)]
    exact congrArg UInt32.toNat hdefault
  | number n =>
    cases n with
    | nan => rfl
    | posInf => exact absurd rfl hbelow.1
    | negInf =>
      rw [if_neg (by decide)]
      exact congrArg UInt32.toNat (readOption_natCast default)
    | negZero =>
      rw [if_neg (by decide)]
      show (readOption (if (default.toNat : ℚ) < 0 then _ else _) 0).toNat = _
      rw [if_neg (not_lt.mpr (Nat.cast_nonneg _)), readOption_natCast]
      rfl
    | finite q =>
      rw [if_neg (by simp)]
      exact readOption_max (hbelow.2 q rfl)

/-! ## The memory -/

variable {limits : Limits} {rt : M3Runtime}

/-- The declared maximum, 65536 pages without one. -/
def Limits.declaredMaximum (limits : Limits) : Nat := limits.maximum.elim 65536 UInt32.toNat

/-- At least one page, and a maximum that is none of the impossible ones. -/
structure Limits.Proper (limits : Limits) : Prop where
  initial_pos : 1 ≤ limits.initial.toNat
  initial_le : limits.initial.toNat ≤ limits.declaredMaximum
  maximum_le : limits.declaredMaximum ≤ 65536

theorem Limits.Proper.accepted (h : limits.Proper) : limits.accepted = limits.declaredMaximum := by
  have hinitial := h.initial_pos
  have hle := h.initial_le
  have hmax := h.maximum_le
  have hnonzero : limits.maximum ≠ some 0 := by
    intro hzero
    rw [declaredMaximum, hzero] at hle
    exact absurd hle (by rw [Option.elim_some, UInt32.toNat_zero]; omega)
  rw [limits.accepted_eq hnonzero]
  unfold effectiveMaximum
  unfold declaredMaximum at hmax ⊢
  omega

/-- The block may be written without a change to the rest. -/
theorem MemoryInv.written (h : MemoryInv limits rt) {b b' : M3Block}
    (hb : rt.memory.mallocated = some b) (hlength : b'.length = b.length) :
    MemoryInv limits { rt with memory := { rt.memory with mallocated := some b' } } := by
  rcases h.block with ⟨b₀, hb₀, hlen⟩
  cases hb.symm.trans hb₀
  exact ⟨⟨h.unlimited, h.maxPages, h.reserved⟩, h.withinMax, h.withinLimit,
    ⟨b', rfl, hlength.trans hlen⟩⟩

theorem preparedMemory {host : Host} {bufferSource : ArrayBuffer} {importObject : ImportObject}
    {options : InstantiateOptions} {p : Prepared}
    (h : prepare host bufferSource importObject options = .ok p)
    (hlimits : declaredMemory bufferSource.bytes = limits.info) :
    ∃ rt, MemoryInv limits rt ∧ rt.memory.numPages = limits.initial ∧
      presize rt options.memoryInitialPages host.presize = some (p.hasMemory, p.rt) := by
  rcases prepare_steps h with ⟨parsed, m, rt, linked, hsteps⟩
  have hload := m3LoadModule_ok (parsedModule_table0 hsteps.parse) hsteps.load
  rcases hload.memory with ⟨rt₁, b, b', hinit, hb, hb', rfl⟩
  have himported := (initMemory_block rfl rfl hinit hb).1
  rw [parsedModule_memory hsteps.parse himported, hlimits, himported] at hinit
  have hloaded : loadMemory (m3NewRuntime host.stack options.stackSizeInBytes.toNat) limits.info
      false host.load = (none, rt₁) := by
    unfold loadMemory
    rw [hinit]
    simp only [hb, Option.isNone_some, Bool.false_eq_true, if_false]
  rcases loadMemory_inv hloaded with ⟨hinv, hpages⟩
  exact ⟨_, hinv.written hb hb', hpages, hsteps.presize⟩

/-- More pages than there are get requested, unless there are so many that they look like none. -/
theorem presize_target (hpages : rt.memory.numPages = limits.initial) (hproper : limits.Proper)
    (pages : UInt32) : (MemoryAction.presize pages).target rt =
      if limits.initial.toNat < 65536 ∧ limits.initial.toNat < pages.toNat then some pages
      else none := by
  have hpos : 0 < limits.initial := UInt32.lt_iff_toNat_lt.mpr hproper.initial_pos
  unfold MemoryAction.target visiblePages
  rw [hpages]
  by_cases hfew : limits.initial.toNat < 65536
  · simp only [hfew, if_true, hpos, true_and, ← UInt32.lt_iff_toNat_lt]
  · simp only [hfew, if_false, false_and]
    exact if_neg fun h => UInt32.lt_irrefl 0 h.1

/-- The byte length after the pre-size step. -/
theorem presize_length (h : MemoryInv limits rt) (hpages : rt.memory.numPages = limits.initial)
    (hproper : limits.Proper) {os : SysCalls} (hos : os.Succeeds) {pages : UInt32}
    {hasMemory : Bool} {rt' : M3Runtime} (hpresize : presize rt pages os = some (hasMemory, rt')) :
    ∃ b, rt'.memory.mallocated = some b ∧ b.length =
      if limits.initial.toNat < 65536 ∧ limits.initial.toNat < pages.toNat ∧
          pages.toNat ≤ limits.declaredMaximum then pageBytes pages
      else pageBytes limits.initial := by
  have hrt := presize_runtime h pages os
  rw [hpresize, presize_target hpages hproper] at hrt
  have hrt' : rt' = resizeTo rt os _ := Option.some.inj hrt
  have hsame : ∃ b, rt.memory.mallocated = some b ∧ b.length = pageBytes limits.initial := by
    rw [← hpages]
    exact h.block
  rw [hrt']
  by_cases hasked : limits.initial.toNat < 65536 ∧ limits.initial.toNat < pages.toNat
  · rw [if_pos hasked]
    show ∃ b, (resizeMemory rt pages os).2.memory.mallocated = some b ∧ _
    -- what is asked for is granted up to the maximum
    by_cases hle : pages.toNat ≤ limits.declaredMaximum
    · rw [if_pos ⟨hasked.1, hasked.2, hle⟩]
      rw [← hproper.accepted] at hle
      rcases resizeMemory_granted h hos hle with ⟨rt'', hresize⟩
      rcases (resizeMemory_ok hresize).block with ⟨b, hb, hlength⟩
      rw [h.unlimited, limitBytes_zero] at hlength
      rw [hresize]
      exact ⟨b, hb, hlength⟩
    · rw [if_neg fun hall => hle hall.2.2]
      rw [← hproper.accepted] at hle
      rcases resizeMemory_refused h os (Nat.lt_of_not_le hle) with ⟨e, hresize⟩
      rw [hresize]
      exact hsame
  · rw [if_neg hasked, if_neg fun hall => hasked ⟨hall.1, hall.2.1⟩]
    exact hsame

/-! ## The law -/

/-- The memory has the pages that were asked for if its declaration allows them, or else the
declared ones. -/
def GrantsPages (limits : Limits) (pages : Nat) (rt : M3Runtime) : Prop :=
  ∃ b, rt.memory.mallocated = some b ∧ b.length =
    if limits.initial.toNat < pages ∧ pages ≤ limits.declaredMaximum then 65536 * pages
    else 65536 * limits.initial.toNat

/-- Neither the declared nor the requested memory is one of 65536 pages, and a hint that is NaN
does not hide a default that would have been granted. -/
structure PresizeMet (limits : Limits) (default : UInt32) (initial : JsValue) : Prop where
  declared : limits.initial.toNat ≠ 65536
  requested : expectedPages default initial = 65536 → limits.declaredMaximum ≠ 65536
  hint : initial = .number .nan →
    ¬ (limits.initial.toNat < default.toNat ∧ default.toNat ≤ limits.declaredMaximum)

theorem presizeGrants {host : Host} {bufferSource : ArrayBuffer} {importObject : ImportObject}
    {default : UInt32} {stackSize : JsNumber} {initial : JsValue} {p : Prepared}
    (h : prepare host bufferSource importObject
      (nativeOptions ⟨.finite default.toNat, stackSize⟩ initial) = .ok p)
    (hlimits : declaredMemory bufferSource.bytes = limits.info) (hproper : limits.Proper)
    (hbelow : HintBelow initial) (hos : host.presize.Succeeds) :
    GrantsPages limits (expectedPages default initial) p.rt ↔
      PresizeMet limits default initial := by
  rcases preparedMemory h hlimits with ⟨rt, hinv, hpages, hpresize⟩
  rcases presize_length hinv hpages hproper hos hpresize with ⟨b, hb, hlength⟩
  have hrequested := requestedPages default stackSize hbelow
  have hgrants : GrantsPages limits (expectedPages default initial) p.rt ↔ b.length =
      if limits.initial.toNat < expectedPages default initial ∧
        expectedPages default initial ≤ limits.declaredMaximum
      then 65536 * expectedPages default initial else 65536 * limits.initial.toNat := by
    constructor
    · rintro ⟨b', hb', hlength'⟩
      cases hb.symm.trans hb'
      exact hlength'
    · exact fun hlength' => ⟨b, hb, hlength'⟩
  have hpos := hproper.initial_pos
  have hle := hproper.initial_le
  have hmax := hproper.maximum_le
  rw [hgrants, hlength, pageBytes_toNat, pageBytes_toNat, hrequested]
  have hiff : PresizeMet limits default initial ↔ limits.initial.toNat ≠ 65536 ∧
      (expectedPages default initial = 65536 → limits.declaredMaximum ≠ 65536) ∧
      (initial = .number .nan →
        ¬ (limits.initial.toNat < default.toNat ∧ default.toNat ≤ limits.declaredMaximum)) :=
    ⟨fun h => ⟨h.declared, h.requested, h.hint⟩, fun h => ⟨h.1, h.2.1, h.2.2⟩⟩
  rw [hiff]
  by_cases hnan : initial = .number .nan
  · -- no pages are requested, where the default was expected
    have hexpected : expectedPages default initial = default.toNat := by
      rw [hnan]
      rfl
    rw [if_pos hnan, hexpected]
    simp only [hnan, true_implies]
    split <;> split <;> omega
  · rw [if_neg hnan]
    simp only [hnan, false_implies, and_true]
    split <;> split <;> omega

/-- A memory of one page, exported under no name. -/
def memoryModule (limits : List UInt8) (h : limits.length ≤ 100) : ArrayBuffer where
  bytes := wasmHeader ++ [5, UInt8.ofNat (limits.length + 1), 1] ++ limits
  length_le := by
    simp only [wasmHeader, List.length_append, List.length_cons, List.length_nil]
    omega

def prepareWithDefault (bufferSource : ArrayBuffer) (default : UInt32) (initial : JsValue) :
    Except Failure Prepared :=
  prepare constantHost bufferSource .empty
    (nativeOptions ⟨.finite default.toNat, .finite (512 * 1024)⟩ initial)

/-- A default of two pages and a hint of three and a half, for one to four pages. -/
theorem presizeGrants_hint : ∃ p : Prepared, GrantsPages ⟨1, some 4⟩ 3 p.rt := by
  rcases ok_of_isSome (show (prepareWithDefault (memoryModule [1, 1, 4] (by decide)) 2
    (.number (.finite (7 / 2)))).toOption.isSome by decide +kernel) with ⟨p, hp⟩
  have hexpected : expectedPages 2 (.number (.finite (7 / 2))) = 3 := by decide +kernel
  have hbelow : HintBelow (.number (.finite (7 / 2))) := by
    refine ⟨by simp, ?_⟩
    intro q hq
    cases hq
    norm_num
  have hgrants : GrantsPages ⟨1, some 4⟩ _ p.rt ↔ _ := presizeGrants hp (by decide +kernel)
    ⟨by decide, by decide, by decide⟩ hbelow (SysCalls.granting_succeeds 4096)
  rw [hexpected] at hgrants
  exact ⟨p, hgrants.mpr ⟨by decide, fun h => absurd h (by rw [hexpected]; decide), by simp⟩⟩

/-- A default of 65536 pages for a memory of one page without a maximum leaves no bytes at all. -/
theorem presizeGrants_fails : ∃ p : Prepared,
    prepareWithDefault (memoryModule [0, 1] (by decide)) 65536 .undefined = .ok p ∧
    declaredMemory (memoryModule [0, 1] (by decide)).bytes = (⟨1, none⟩ : Limits).info ∧
    p.rt.memory.mallocated.map M3Block.length = some 0 ∧
    ¬ GrantsPages ⟨1, none⟩ (expectedPages 65536 .undefined) p.rt := by
  have hlength : (prepareWithDefault (memoryModule [0, 1] (by decide)) 65536 .undefined).toOption.map
      (fun p => p.rt.memory.mallocated.map M3Block.length) = some (some 0) := by decide +kernel
  rcases ok_of_isSome (Option.isSome_of_mem (Option.map_eq_some_iff.mp hlength).choose_spec.1) with
    ⟨p, hp⟩
  rw [hp] at hlength
  have hzero : p.rt.memory.mallocated.map M3Block.length = some 0 := Option.some.inj hlength
  refine ⟨p, hp, by decide +kernel, hzero, ?_⟩
  rintro ⟨b, hb, hbytes⟩
  rw [hb] at hzero
  have hnone : b.length = 0 := Option.some.inj hzero
  rw [hnone] at hbytes
  exact absurd hbytes (by decide)

end WebAssemblyRuntime.Binding
