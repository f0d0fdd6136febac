import WebAssemblyRuntime.Wasm3.Compile

/-!
# Emission — the lines that the compiler writes

A function is compiled to one page after another, with a bridge between them; other pages are in
use meanwhile, by the code around an `else` or a branch target.  `Writable` is what every emission
needs and keeps, `Writes` is what it leaves alone.
-/

namespace WebAssemblyRuntime.Wasm3.M3Compilation

open M3CodePages

/-- The current page is in use beside `active`, and has `n` lines left before the two that are kept
for a bridge. -/
structure Writable (active : List Nat) (n : Nat) (o : M3Compilation) : Prop where
  kept : WellKept o.rt (o.page :: active)
  room : (o.rt.pages o.page).lineIndex + n + 2 ≤ (o.rt.pages o.page).numLines

/-- What was written stays as it is, and the pages `active` get no more lines. -/
structure Writes (active : List Nat) (o o' : M3Compilation) : Prop where
  words : ∀ pc w, o.rt.word pc = some w → o'.rt.word pc = some w
  others : ∀ other ∈ active, (o'.rt.pages other).lineIndex = (o.rt.pages other).lineIndex ∧
    (o'.rt.pages other).numLines = (o.rt.pages other).numLines

variable {active : List Nat} {o o' o'' : M3Compilation} {n : Nat} {w : CodeWord} {pc target : PC}

theorem Writes.of_rt (h : o'.rt = o.rt) : Writes active o o' := by
  refine ⟨fun pc w hw => ?_, fun other _ => ?_⟩
  · rw [h]
    exact hw
  · rw [h]
    exact ⟨rfl, rfl⟩

theorem Writes.refl (o : M3Compilation) : Writes active o o := .of_rt rfl

theorem Writes.trans (h : Writes active o o') (h' : Writes active o' o'') :
    Writes active o o'' := by
  refine ⟨fun pc w hw => h'.words pc w (h.words pc w hw), fun other hmem => ?_⟩
  rw [(h'.others other hmem).1, (h'.others other hmem).2]
  exact h.others other hmem

/-- A line that has a word has one for good. -/
theorem Writes.word_none (h : Writes active o o') (hpc : o'.rt.word pc = none) :
    o.rt.word pc = none := by
  cases hw : o.rt.word pc with
  | none => rfl
  | some w =>
    rw [h.words pc w hw] at hpc
    cases hpc

theorem Writable.mono {m : Nat} (h : Writable active n o) (hle : m ≤ n) : Writable active m o :=
  ⟨h.kept, by have hroom := h.room; omega⟩

theorem Writable.of_eq (h : Writable active n o) (hrt : o'.rt = o.rt) (hpage : o'.page = o.page) :
    Writable active n o' := by
  refine ⟨?_, ?_⟩
  · rw [hrt, hpage]
    exact h.kept
  · rw [hrt, hpage]
    exact h.room

theorem Writable.page_not_mem (h : Writable active n o) : o.page ∉ active := by
  have hnodup := h.kept.nodup
  rw [List.append_assoc, List.append_assoc] at hnodup
  exact fun hmem => (List.nodup_cons.mp hnodup).1 (List.mem_append_left _ hmem)

/-! ## One word -/

theorem getPC_emit : (o.emit w).getPC = o.getPC.next := getPagePC_emitWord

theorem word_emit : (o.emit w).rt.word o.getPC = some w := word_emitWord

theorem word_getPC : o.rt.word o.getPC = none := if_neg (Nat.lt_irrefl _)

theorem Writable.emit (h : Writable active (n + 1) o) : Writable active n (o.emit w) := by
  have hroom := h.room
  refine ⟨emitWord_kept h.kept (List.mem_cons_self ..) ?_, ?_⟩
  · rw [M3CodePage.numFreeLines]
    omega
  · simp only [M3Compilation.emit, emitWord, Function.update_self]
    omega

theorem Writable.writes_emit (h : Writable active n o) : Writes active o (o.emit w) := by
  refine ⟨fun pc v hv => word_emitWord_of_some hv, fun other hmem => ?_⟩
  have hother : other ≠ o.page := by
    rintro rfl
    exact h.page_not_mem hmem
  simp only [M3Compilation.emit, emitWord, Function.update_of_ne hother, and_self]

/-! ## An operation -/

/-- Control comes from one place to the other, at once or over a bridge. -/
def Bridged (o o' : M3Compilation) : Prop :=
  o'.getPC = o.getPC ∨
    o'.rt.word o.getPC = some (.op .branch) ∧ o'.rt.word o.getPC.next = some (.pc o'.getPC)

theorem ensureCodePageNumLines_eq (h : o.ensureCodePageNumLines n = .ok o') :
    o' = { o with rt := o'.rt, page := o'.page } := by
  rw [ensureCodePageNumLines] at h
  split at h
  · cases h
    rfl
  · cases h

theorem ensureCodePageNumLines_writable (h : o.ensureCodePageNumLines n = .ok o')
    (hw : Writable active 0 o) :
    Writable active n o' ∧ Writes active o o' ∧ Bridged o o' := by
  rw [ensureCodePageNumLines] at h
  cases hensure : o.rt.ensureCodePageNumLines o.page n with
  | none =>
    rw [hensure] at h
    cases h
  | some found =>
    rcases found with ⟨page, rt⟩
    rw [hensure] at h
    cases h
    have hroom := hw.room
    have hensured := ensureCodePageNumLines_ensured hensure hw.kept (by omega)
    refine ⟨⟨hensured.kept, hensured.room⟩, ⟨hensured.words, fun other hmem => ?_⟩, ?_⟩
    · simp only [hensured.others other hmem, and_self]
    · rcases hensured.bridge with ⟨rfl, rfl⟩ | hbridge
      · exact .inl rfl
      · exact .inr hbridge

theorem emitOp_eq {op : M3Op} (h : o.emitOp op = .ok o') :
    ∃ o₁, o.ensureCodePageNumLines d_m3CodePageFreeLinesThreshold = .ok o₁ ∧
      o' = o₁.emit (.op op) := by
  rcases Reasoning.bind_ok h with ⟨o₁, ho₁, hemit⟩
  cases hemit
  exact ⟨o₁, ho₁, rfl⟩

/-- An operation, and room for its immediates. -/
theorem emitOp_writable {op : M3Op} (h : o.emitOp op = .ok o') (hw : Writable active 0 o) :
    Writable active 5 o' ∧ Writes active o o' := by
  rcases emitOp_eq h with ⟨o₁, ho₁, rfl⟩
  rcases ensureCodePageNumLines_writable ho₁ hw with ⟨hw₁, hwrites, -⟩
  exact ⟨hw₁.emit, hwrites.trans hw₁.writes_emit⟩

/-! ## Pages of their own -/

theorem acquireCompilationCodePage_eq (h : o.acquireCompilationCodePage = .ok o') :
    o' = { o with rt := o'.rt, page := o'.page } := by
  rw [acquireCompilationCodePage] at h
  split at h
  · cases h
    rfl
  · cases h

/-- The page before stays in use. -/
theorem acquireCompilationCodePage_writable (h : o.acquireCompilationCodePage = .ok o')
    {pages : List Nat} (hkept : WellKept o.rt pages) :
    Writable pages 4 o' ∧ Writes pages o o' := by
  rw [acquireCompilationCodePage] at h
  cases hacquire : o.rt.acquireCodePage with
  | none =>
    rw [hacquire] at h
    cases h
  | some found =>
    rcases found with ⟨page, rt⟩
    rw [hacquire] at h
    cases h
    rcases acquire_kept hacquire hkept with ⟨hkept', hlines⟩
    rw [M3CodePage.numFreeLines, d_m3CodePageFreeLinesThreshold] at hlines
    have hroom : (rt.pages page).lineIndex + 4 + 2 ≤ (rt.pages page).numLines := by omega
    refine ⟨⟨hkept', hroom⟩, fun pc w => word_of_pages (acquire_pages_or hacquire hkept),
      fun other hmem => ?_⟩
    have hlt : other < o.rt.allocated := by
      apply hkept.allocated other
      simp only [List.append_assoc]
      exact List.mem_append_left _ hmem
    simp only [acquire_pages hacquire hlt, and_self]

theorem writes_release {page : Nat} : Writes active o (o.releaseCompilationCodePage page) := by
  refine ⟨fun pc w => word_of_pages fun other => .inl (congrFun release_pages other),
    fun other _ => ?_⟩
  simp only [releaseCompilationCodePage, release_pages, and_self]

/-- The page before is the current one again, with as many lines as it had. -/
theorem Writable.release {page m : Nat} (h : Writable (page :: active) m o)
    (hroom : (o.rt.pages page).lineIndex + n + 2 ≤ (o.rt.pages page).numLines) :
    Writable active n (o.releaseCompilationCodePage page) := by
  refine ⟨release_kept h.kept, ?_⟩
  simp only [releaseCompilationCodePage, release_pages]
  exact hroom

/-! ## Words that are filled in later -/

theorem getPC_patch : (o.patch pc target).getPC = o.getPC := by
  simp only [getPC, patch, getPagePC, setWord]
  by_cases hpage : o.page = pc.page
  · rw [hpage, Function.update_self]
  · rw [Function.update_of_ne hpage]

theorem word_patch_of_ne {pc' : PC} (hne : pc' ≠ pc) :
    (o.patch pc target).rt.word pc' = o.rt.word pc' := word_setWord_of_ne hne

theorem word_patch (h : o.rt.word pc = some w) :
    (o.patch pc target).rt.word pc = some (.pc target) := word_setWord h

theorem pages_patch (page : Nat) :
    ((o.patch pc target).rt.pages page).lineIndex = (o.rt.pages page).lineIndex ∧
      ((o.patch pc target).rt.pages page).numLines = (o.rt.pages page).numLines := by
  simp only [patch, setWord]
  by_cases hpage : page = pc.page
  · rw [hpage, Function.update_self]
    exact ⟨rfl, rfl⟩
  · rw [Function.update_of_ne hpage]
    exact ⟨rfl, rfl⟩

theorem Writable.patch (h : Writable active n o) : Writable active n (o.patch pc target) := by
  refine ⟨setWord_kept h.kept, ?_⟩
  have hpages := @pages_patch o pc target o.page
  have hroom := h.room
  change ((o.patch pc target).rt.pages o.page).lineIndex + n + 2 ≤
    ((o.patch pc target).rt.pages o.page).numLines
  rw [hpages.1, hpages.2]
  exact hroom

/-- A word that is filled in, against a state from before it was written. -/
theorem Writes.patch (h : Writes active o o') (hpc : o.rt.word pc = none) :
    Writes active o (o'.patch pc target) := by
  refine ⟨fun pc' w hw => ?_, fun other hmem => ?_⟩
  · have hne : pc' ≠ pc := by
      rintro rfl
      rw [hpc] at hw
      cases hw
    rw [word_patch_of_ne hne]
    exact h.words pc' w hw
  · rw [(pages_patch other).1, (pages_patch other).2]
    exact h.others other hmem

/-! ## Finished code -/

/-- The code has every word of the pages that is not left to be filled in. -/
def Shows (code : PC → Option CodeWord) (rt : M3CodePages) : Prop :=
  ∀ pc w, rt.word pc = some w → w ≠ .patch → code pc = some w

theorem Shows.of_writes {code : PC → Option CodeWord} (h : Shows code o'.rt)
    (hwrites : Writes active o o') : Shows code o.rt :=
  fun pc w hw => h pc w (hwrites.words pc w hw)

theorem Shows.emit {code : PC → Option CodeWord} (h : Shows code (o.emit w).rt)
    (hne : w ≠ .patch) : code o.getPC = some w := h _ _ word_emit hne

theorem Shows.of_patch {code : PC → Option CodeWord} (h : Shows code (o.patch pc target).rt)
    (hpc : o.rt.word pc = some .patch) : Shows code o.rt := by
  intro pc' w hw hne
  apply h pc' w _ hne
  have hother : pc' ≠ pc := by
    rintro rfl
    rw [hpc] at hw
    cases hw
    exact hne rfl
  rw [word_patch_of_ne hother]
  exact hw

section

variable {E : CodeImage} {sp depth : Nat} {st : M3State} {Φ : M3Ret → M3State → Prop}

theorem Bridged.ends (h : Bridged o o') (hshows : Shows E.code o'.rt)
    (hends : Ends E o'.getPC sp depth st Φ) : Ends E o.getPC sp depth st Φ := by
  rcases h with heq | ⟨hbranch, htarget⟩
  · rw [← heq]
    exact hends
  · refine hends.next ?_
    rw [step, hshows _ _ hbranch (fun heq => by cases heq)]
    simp only [stepOp, pcAt, hshows _ _ htarget (fun heq => by cases heq), Option.bind_eq_bind, Option.bind_some]

end

end WebAssemblyRuntime.Wasm3.M3Compilation
