import Mathlib.Data.List.Nodup
import WebAssemblyRuntime.Reasoning.Results
import WebAssemblyRuntime.Wasm3.MetaCode

/-!
# CodePages — the pages that hold compiled code

A page is acquired, written line by line while a function is compiled, and released to the list
of open or of full pages.  `m3_code.c` has the pages and `m3_env.c` the lists; a page is known by
a number given to it when it is allocated, and the C heap grants every page it is asked for.
-/

namespace WebAssemblyRuntime.Wasm3

def d_m3CodePageFreeLinesThreshold : Nat := 4 + 2
def d_m3CodePageAlignSize : Nat := 32 * 1024

/-- `sizeof (M3CodePageHeader)`: a pointer and four `u32`. -/
def sizeofM3CodePageHeader : Nat := 24

/-- `sizeof (code_t)`. -/
def sizeofCode : Nat := 8

/-- `M3CodePage`: the fields of its header that are used, and its lines. -/
structure M3CodePage where
  numLines : Nat := 0
  lineIndex : Nat := 0
  code : Nat → CodeWord := fun _ => .word64 0

/-- `NumFreeLines`. -/
def M3CodePage.numFreeLines (page : M3CodePage) : Nat := page.numLines - page.lineIndex

/-- The code pages of a runtime and its environment: `pagesReleased` is the environment's list. -/
structure M3CodePages where
  pages : Nat → M3CodePage := fun _ => {}
  allocated : Nat := 0
  pagesOpen : List Nat := []
  pagesFull : List Nat := []
  pagesReleased : List Nat := []
  numCodePages : Nat := 0
  numActiveCodePages : Nat := 0

open Reasoning (neg_of_ite)

namespace M3CodePages

/-- The lines `NewCodePage` makes of a request, in the `u32` arithmetic of the C code; `none` where
it returns `NULL`. -/
def newPageLines (i_minNumLines : Nat) : Option Nat :=
  if (2 ^ 32 - 1) / sizeofCode < i_minNumLines then none
  else
    let pageSize := (sizeofM3CodePageHeader + sizeofCode * i_minNumLines) % 2 ^ 32
    if pageSize < sizeofM3CodePageHeader then none
    else
      let pageSize :=
        (pageSize + (d_m3CodePageAlignSize - 1)) % 2 ^ 32 / d_m3CodePageAlignSize *
          d_m3CodePageAlignSize
      if pageSize = 0 then none
      else some ((pageSize - sizeofM3CodePageHeader) / sizeofCode)

/-- `NewCodePage`. -/
def newCodePage (rt : M3CodePages) (i_minNumLines : Nat) : Option (Nat × M3CodePages) :=
  (newPageLines i_minNumLines).map fun numLines =>
    (rt.allocated, { rt with
      allocated := rt.allocated + 1
      pages := Function.update rt.pages rt.allocated { numLines := numLines } })

/-- `RemoveCodePageOfCapacity`: the first page of the list that is large enough, and the rest. -/
def removeCodePageOfCapacity (pages : Nat → M3CodePage) (i_minimumLineCount : Nat) :
    List Nat → Option (Nat × List Nat)
  | [] => none
  | page :: next =>
      if i_minimumLineCount ≤ (pages page).numFreeLines then some (page, next)
      else (removeCodePageOfCapacity pages i_minimumLineCount next).map fun found =>
        (found.1, page :: found.2)

/-- `AcquireCodePageWithCapacity`: from the open pages, then from the environment's, then new. -/
def acquireCodePageWithCapacity (rt : M3CodePages) (i_minLineCount : Nat) :
    Option (Nat × M3CodePages) :=
  match removeCodePageOfCapacity rt.pages i_minLineCount rt.pagesOpen with
  | some (page, pagesOpen) =>
      some (page, { rt with
        pagesOpen := pagesOpen
        numActiveCodePages := rt.numActiveCodePages + 1 })
  | none =>
    match removeCodePageOfCapacity rt.pages i_minLineCount rt.pagesReleased with
    | some (page, pagesReleased) =>
        some (page, { rt with
          pagesReleased := pagesReleased
          numCodePages := rt.numCodePages + 1
          numActiveCodePages := rt.numActiveCodePages + 1 })
    | none =>
        (rt.newCodePage i_minLineCount).map fun created =>
          (created.1, { created.2 with
            numCodePages := rt.numCodePages + 1
            numActiveCodePages := rt.numActiveCodePages + 1 })

/-- `AcquireCodePage`. -/
def acquireCodePage (rt : M3CodePages) : Option (Nat × M3CodePages) :=
  rt.acquireCodePageWithCapacity d_m3CodePageFreeLinesThreshold

/-- `ReleaseCodePage`, with `ReleaseCodePageNoTrack`. -/
def releaseCodePage (rt : M3CodePages) (i_codePage : Nat) : M3CodePages :=
  if (rt.pages i_codePage).numFreeLines < d_m3CodePageFreeLinesThreshold then
    { rt with
      pagesFull := i_codePage :: rt.pagesFull
      numActiveCodePages := rt.numActiveCodePages - 1 }
  else
    { rt with
      pagesOpen := i_codePage :: rt.pagesOpen
      numActiveCodePages := rt.numActiveCodePages - 1 }

/-- `EmitWord`, `EmitWord32` and `EmitWord64`: each takes one line. -/
def emitWord (rt : M3CodePages) (i_page : Nat) (i_word : CodeWord) : M3CodePages :=
  let page := rt.pages i_page
  { rt with
    pages := Function.update rt.pages i_page
      { page with
        lineIndex := page.lineIndex + 1
        code := Function.update page.code page.lineIndex i_word } }

/-- The assignment `* pc = word` to a line emitted before. -/
def setWord (rt : M3CodePages) (pc : PC) (word : CodeWord) : M3CodePages :=
  let page := rt.pages pc.page
  { rt with
    pages := Function.update rt.pages pc.page
      { page with code := Function.update page.code pc.line word } }

/-- `GetPagePC`. -/
def getPagePC (rt : M3CodePages) (i_page : Nat) : PC := ⟨i_page, (rt.pages i_page).lineIndex⟩

/-- `EnsureCodePageNumLines`, for the page `o->page`: the bridge to another page goes to the two lines
kept for it. -/
def ensureCodePageNumLines (rt : M3CodePages) (i_page i_numLines : Nat) :
    Option (Nat × M3CodePages) :=
  let i_numLines := i_numLines + 2
  if (rt.pages i_page).numFreeLines < i_numLines then
    (rt.acquireCodePageWithCapacity i_numLines).map fun acquired =>
      let (page, rt) := acquired
      let rt := (rt.emitWord i_page (.op .branch)).emitWord i_page (.pc (rt.getPagePC page))
      (page, rt.releaseCodePage i_page)
  else some (i_page, rt)

/-- The code a page has, line by line; nothing beyond its last line. -/
def word (rt : M3CodePages) (pc : PC) : Option CodeWord :=
  if pc.line < (rt.pages pc.page).lineIndex then some ((rt.pages pc.page).code pc.line) else none

/-! ## Acquiring -/

/-- None of the three overflow checks lets a page through that is too small. -/
theorem le_newPageLines {n lines : Nat} (h : newPageLines n = some lines) : n ≤ lines := by
  have hsize := neg_of_ite h nofun
  have hheader := neg_of_ite hsize.2 nofun
  have halign := neg_of_ite hheader.2 nofun
  have hlines := Option.some.inj halign.2
  simp only [sizeofM3CodePageHeader, sizeofCode, d_m3CodePageAlignSize] at hsize hheader halign hlines
  omega

theorem removeCodePageOfCapacity_some {pages : Nat → M3CodePage} {n page : Nat}
    {list rest : List Nat} (h : removeCodePageOfCapacity pages n list = some (page, rest)) :
    list.Perm (page :: rest) ∧ n ≤ (pages page).numFreeLines := by
  induction list generalizing page rest with
  | nil => cases h
  | cons first next ih =>
    rw [removeCodePageOfCapacity] at h
    by_cases hfits : n ≤ (pages first).numFreeLines
    · rw [if_pos hfits] at h
      cases h
      exact ⟨.refl _, hfits⟩
    · rw [if_neg hfits] at h
      rcases Option.map_eq_some_iff.mp h with ⟨⟨found, others⟩, hfound, hpair⟩
      cases hpair
      rcases ih hfound with ⟨hperm, hlines⟩
      exact ⟨(hperm.cons first).trans (.swap _ _ _), hlines⟩

/-- What the lists and counters of the pages say, while the pages `active` are being written. -/
structure WellKept (rt : M3CodePages) (active : List Nat) : Prop where
  /-- No page is in two places. -/
  nodup : (active ++ rt.pagesOpen ++ rt.pagesFull ++ rt.pagesReleased).Nodup
  allocated : ∀ page ∈ active ++ rt.pagesOpen ++ rt.pagesFull ++ rt.pagesReleased,
    page < rt.allocated
  /-- No page is written past its end. -/
  within : ∀ page, (rt.pages page).lineIndex ≤ (rt.pages page).numLines
  blank : ∀ page, rt.allocated ≤ page → (rt.pages page).lineIndex = 0
  openRoom : ∀ page ∈ rt.pagesOpen,
    d_m3CodePageFreeLinesThreshold ≤ (rt.pages page).numFreeLines
  numActive : rt.numActiveCodePages = active.length
  /-- The sum that `ReleaseCodePage` asserts. -/
  conserved : rt.pagesOpen.length + rt.pagesFull.length + rt.numActiveCodePages = rt.numCodePages

/-- Pages that hold code are left as they are. -/
theorem word_of_pages {rt rt' : M3CodePages} {pc : PC} {w : CodeWord}
    (h : ∀ page, rt'.pages page = rt.pages page ∨ (rt.pages page).lineIndex = 0)
    (hw : rt.word pc = some w) : rt'.word pc = some w := by
  rcases h pc.page with hsame | hblank
  · rw [word, hsame]
    exact hw
  · rw [word, if_neg (by omega)] at hw
    cases hw

variable {rt rt' : M3CodePages} {active : List Nat} {page n : Nat}

/-- Acquiring a page may allocate one; the others are left as they are. -/
theorem acquire_pages (h : rt.acquireCodePageWithCapacity n = some (page, rt')) {other : Nat}
    (hother : other < rt.allocated) : rt'.pages other = rt.pages other := by
  rw [acquireCodePageWithCapacity] at h
  cases hopen : removeCodePageOfCapacity rt.pages n rt.pagesOpen with
  | some found =>
    rw [hopen] at h
    cases h
    rfl
  | none =>
    rw [hopen] at h
    cases hreleased : removeCodePageOfCapacity rt.pages n rt.pagesReleased with
    | some found =>
      rw [hreleased] at h
      cases h
      rfl
    | none =>
      rw [hreleased] at h
      rcases Option.map_eq_some_iff.mp h with ⟨⟨created, rt''⟩, hcreated, hpair⟩
      cases hpair
      rcases Option.map_eq_some_iff.mp hcreated with ⟨lines, -, hpair⟩
      cases hpair
      exact Function.update_of_ne (Nat.ne_of_lt hother) _ _

theorem acquire_pages_or (h : rt.acquireCodePageWithCapacity n = some (page, rt'))
    (hkept : WellKept rt active) (other : Nat) :
    rt'.pages other = rt.pages other ∨ (rt.pages other).lineIndex = 0 := by
  by_cases hother : other < rt.allocated
  · exact .inl (acquire_pages h hother)
  · exact .inr (hkept.blank other (Nat.le_of_not_lt hother))

/-- A page taken from the open or the released list, when the lists are the same otherwise. -/
theorem WellKept.take {pagesOpen pagesReleased : List Nat} {codePages : Nat}
    (hkept : WellKept rt active)
    (hperm : (rt.pagesOpen ++ rt.pagesReleased).Perm (page :: (pagesOpen ++ pagesReleased)))
    (hopen : ∀ other ∈ pagesOpen, other ∈ rt.pagesOpen)
    (hcount : pagesOpen.length + rt.pagesFull.length + (active.length + 1) = codePages) :
    WellKept { rt with
      pagesOpen := pagesOpen
      pagesReleased := pagesReleased
      numCodePages := codePages
      numActiveCodePages := rt.numActiveCodePages + 1 } (page :: active) := by
  have hplaces : (active ++ rt.pagesOpen ++ rt.pagesFull ++ rt.pagesReleased).Perm
      (page :: active ++ pagesOpen ++ rt.pagesFull ++ pagesReleased) := by
    rw [List.perm_iff_count] at hperm ⊢
    intro other
    have hother := hperm other
    simp only [List.count_append, List.count_cons, List.cons_append] at hother ⊢
    omega
  refine ⟨hplaces.nodup_iff.mp hkept.nodup, ?_, hkept.within, hkept.blank, ?_, ?_, ?_⟩
  · intro other hmem
    exact hkept.allocated other (hplaces.mem_iff.mpr hmem)
  · intro other hmem
    exact hkept.openRoom other (hopen other hmem)
  · exact congrArg (· + 1) hkept.numActive
  · rw [hkept.numActive]
    exact hcount

theorem newCodePage_kept (h : rt.newCodePage n = some (page, rt')) (hkept : WellKept rt active) :
    WellKept { rt' with
      numCodePages := rt.numCodePages + 1
      numActiveCodePages := rt.numActiveCodePages + 1 } (page :: active) ∧
    n ≤ (rt'.pages page).numFreeLines := by
  rcases Option.map_eq_some_iff.mp h with ⟨lines, hlines, hpair⟩
  cases hpair
  have hfresh : rt.allocated ∉ active ++ rt.pagesOpen ++ rt.pagesFull ++ rt.pagesReleased :=
    fun hmem => Nat.lt_irrefl _ (hkept.allocated _ hmem)
  refine ⟨⟨?_, ?_, ?_, ?_, ?_, ?_, ?_⟩, ?_⟩
  · exact List.nodup_cons.mpr ⟨hfresh, hkept.nodup⟩
  · intro other hmem
    rcases List.mem_cons.mp hmem with rfl | hmem
    · exact Nat.lt_succ_self _
    · exact Nat.lt_succ_of_lt (hkept.allocated other hmem)
  · intro other
    by_cases hother : other = rt.allocated
    · rw [hother]
      simp only [Function.update_self]
      exact Nat.zero_le _
    · simp only [Function.update_of_ne hother]
      exact hkept.within other
  · intro other hle
    have hother : other ≠ rt.allocated := Nat.ne_of_gt hle
    simp only [Function.update_of_ne hother]
    exact hkept.blank other (Nat.le_of_succ_le hle)
  · intro other hmem
    have hother : other ≠ rt.allocated := by
      rintro rfl
      exact hfresh (by simp [hmem])
    simp only [Function.update_of_ne hother]
    exact hkept.openRoom other hmem
  · exact congrArg (· + 1) hkept.numActive
  · have hsum := hkept.conserved
    exact congrArg (· + 1) hsum
  · simp only [Function.update_self, M3CodePage.numFreeLines]
    exact le_newPageLines hlines

/-- A page that is acquired has the room asked for, and is in no other place. -/
theorem acquire_kept (h : rt.acquireCodePageWithCapacity n = some (page, rt'))
    (hkept : WellKept rt active) :
    WellKept rt' (page :: active) ∧ n ≤ (rt'.pages page).numFreeLines := by
  have hsum := hkept.conserved
  have hactive := hkept.numActive
  rw [acquireCodePageWithCapacity] at h
  cases hopen : removeCodePageOfCapacity rt.pages n rt.pagesOpen with
  | some found =>
    rw [hopen] at h
    cases h
    rcases removeCodePageOfCapacity_some hopen with ⟨hperm, hlines⟩
    have hlength := hperm.length_eq
    rw [List.length_cons] at hlength
    refine ⟨hkept.take (hperm.append_right _) ?_ (by omega), hlines⟩
    exact fun other hmem => hperm.mem_iff.mpr (List.mem_cons_of_mem _ hmem)
  | none =>
    rw [hopen] at h
    cases hreleased : removeCodePageOfCapacity rt.pages n rt.pagesReleased with
    | some found =>
      rw [hreleased] at h
      cases h
      rcases removeCodePageOfCapacity_some hreleased with ⟨hperm, hlines⟩
      refine ⟨hkept.take ?_ (fun _ hmem => hmem) (by omega), hlines⟩
      exact (hperm.append_left _).trans List.perm_middle
    | none =>
      rw [hreleased] at h
      rcases Option.map_eq_some_iff.mp h with ⟨⟨created, rt''⟩, hcreated, hpair⟩
      cases hpair
      exact newCodePage_kept hcreated hkept

/-! ## Releasing and writing -/

theorem release_kept (hkept : WellKept rt (page :: active)) :
    WellKept (rt.releaseCodePage page) active := by
  have hsum := hkept.conserved
  have hactive := hkept.numActive
  rw [List.length_cons] at hactive
  -- the page moves from the active ones to the head of one of the two lists
  have hplaces : ∀ pagesOpen pagesFull : List Nat,
      (pagesOpen ++ pagesFull).Perm (page :: (rt.pagesOpen ++ rt.pagesFull)) →
      (page :: active ++ rt.pagesOpen ++ rt.pagesFull ++ rt.pagesReleased).Perm
        (active ++ pagesOpen ++ pagesFull ++ rt.pagesReleased) := by
    intro pagesOpen pagesFull hperm
    rw [List.perm_iff_count] at hperm ⊢
    intro other
    have hother := hperm other
    simp only [List.count_append, List.count_cons, List.cons_append] at hother ⊢
    omega
  rw [releaseCodePage]
  by_cases hfull : (rt.pages page).numFreeLines < d_m3CodePageFreeLinesThreshold
  · rw [if_pos hfull]
    have hperm := hplaces rt.pagesOpen (page :: rt.pagesFull) List.perm_middle
    refine ⟨hperm.nodup_iff.mp hkept.nodup, ?_, hkept.within, hkept.blank, hkept.openRoom, ?_, ?_⟩
    · exact fun other hmem => hkept.allocated other (hperm.mem_iff.mpr hmem)
    · simp only []
      omega
    · simp only [List.length_cons]
      omega
  · rw [if_neg hfull]
    have hperm := hplaces (page :: rt.pagesOpen) rt.pagesFull (.refl _)
    refine ⟨hperm.nodup_iff.mp hkept.nodup, ?_, hkept.within, hkept.blank, ?_, ?_, ?_⟩
    · exact fun other hmem => hkept.allocated other (hperm.mem_iff.mpr hmem)
    · intro other hmem
      rcases List.mem_cons.mp hmem with rfl | hmem
      · exact Nat.le_of_not_lt hfull
      · exact hkept.openRoom other hmem
    · simp only []
      omega
    · simp only [List.length_cons]
      omega

theorem release_pages : (rt.releaseCodePage page).pages = rt.pages := by
  rw [releaseCodePage]
  by_cases hfull : (rt.pages page).numFreeLines < d_m3CodePageFreeLinesThreshold
  · rw [if_pos hfull]
  · rw [if_neg hfull]

/-- A word may be written to an active page that has a line left. -/
theorem emitWord_kept {w : CodeWord} (hkept : WellKept rt active) (hpage : page ∈ active)
    (hroom : 1 ≤ (rt.pages page).numFreeLines) : WellKept (rt.emitWord page w) active := by
  rw [M3CodePage.numFreeLines] at hroom
  refine ⟨hkept.nodup, hkept.allocated, ?_, ?_, ?_, hkept.numActive, hkept.conserved⟩
  · intro other
    rw [emitWord]
    by_cases hother : other = page
    · rw [hother]
      simp only [Function.update_self]
      omega
    · simp only [Function.update_of_ne hother]
      exact hkept.within other
  · intro other hle
    have hother : other ≠ page := by
      rintro rfl
      have hlt := hkept.allocated other (by simp [hpage])
      exact absurd hle (Nat.not_le_of_lt hlt)
    rw [emitWord]
    simp only [Function.update_of_ne hother]
    exact hkept.blank other hle
  · intro other hmem
    have hother : other ≠ page := by
      rintro rfl
      have hdisjoint := hkept.nodup
      rw [List.append_assoc, List.append_assoc, List.nodup_append] at hdisjoint
      exact hdisjoint.2.2 other hpage other (by simp [show other ∈ rt.pagesOpen from hmem]) rfl
    rw [emitWord]
    simp only [Function.update_of_ne hother]
    exact hkept.openRoom other hmem

/-- Writing a line changes none before it. -/
theorem word_emitWord_of_some {v w : CodeWord} {pc : PC} (hv : rt.word pc = some v) :
    (rt.emitWord page w).word pc = some v := by
  rw [word] at hv
  rcases Reasoning.pos_of_ite hv nofun with ⟨hline, hcode⟩
  rw [word, emitWord]
  by_cases hpage : pc.page = page
  · subst hpage
    simp only [Function.update_self, Function.update_of_ne (Nat.ne_of_lt hline)]
    rw [if_pos (Nat.lt_succ_of_lt hline), hcode]
  · simp only [Function.update_of_ne hpage]
    rw [if_pos hline, hcode]

theorem word_emitWord {w : CodeWord} : (rt.emitWord page w).word (rt.getPagePC page) = some w := by
  rw [word, emitWord, getPagePC]
  simp only [Function.update_self]
  exact if_pos (Nat.lt_succ_self _)

theorem getPagePC_emitWord {w : CodeWord} :
    (rt.emitWord page w).getPagePC page = (rt.getPagePC page).next := by
  rw [getPagePC, emitWord]
  simp only [Function.update_self]
  rfl

theorem setWord_kept {pc : PC} {w : CodeWord} (hkept : WellKept rt active) :
    WellKept (rt.setWord pc w) active := by
  -- neither the length nor the use of a page changes
  have hsame : ∀ other, ((rt.setWord pc w).pages other).lineIndex = (rt.pages other).lineIndex ∧
      ((rt.setWord pc w).pages other).numLines = (rt.pages other).numLines := by
    intro other
    rw [setWord]
    by_cases hother : other = pc.page
    · rw [hother]
      simp only [Function.update_self, and_self]
    · simp only [Function.update_of_ne hother, and_self]
  refine ⟨hkept.nodup, hkept.allocated, ?_, ?_, ?_, hkept.numActive, hkept.conserved⟩
  · intro other
    rw [(hsame other).1, (hsame other).2]
    exact hkept.within other
  · intro other hle
    rw [(hsame other).1]
    exact hkept.blank other hle
  · intro other hmem
    rw [M3CodePage.numFreeLines, (hsame other).1, (hsame other).2]
    exact hkept.openRoom other hmem

theorem word_setWord_of_ne {pc pc' : PC} {w : CodeWord} (hne : pc' ≠ pc) :
    (rt.setWord pc w).word pc' = rt.word pc' := by
  simp only [setWord, word]
  by_cases hpage : pc'.page = pc.page
  · have hline : pc'.line ≠ pc.line := fun hline => hne (by cases pc; cases pc'; simp_all)
    simp only [hpage, Function.update_self, Function.update_of_ne hline]
  · simp only [Function.update_of_ne hpage]

theorem word_setWord {pc : PC} {v w : CodeWord} (h : rt.word pc = some v) :
    (rt.setWord pc w).word pc = some w := by
  rw [word] at h
  rcases Reasoning.pos_of_ite h (fun heq => by cases heq) with ⟨hline, -⟩
  simp only [setWord, word, Function.update_self]
  exact if_pos hline

theorem WellKept.perm {active' : List Nat} (hkept : WellKept rt active)
    (hperm : active.Perm active') : WellKept rt active' := by
  have hplaces := ((hperm.append_right rt.pagesOpen).append_right rt.pagesFull).append_right
    rt.pagesReleased
  refine ⟨hplaces.nodup_iff.mp hkept.nodup, ?_, hkept.within, hkept.blank, hkept.openRoom, ?_,
    hkept.conserved⟩
  · exact fun other hmem => hkept.allocated other (hplaces.mem_iff.mpr hmem)
  · rw [hkept.numActive, hperm.length_eq]

/-! ## Room for an operation -/

/-- What `EnsureCodePageNumLines` leaves alone, and where it goes on. -/
structure Ensured (rt : M3CodePages) (page : Nat) (active : List Nat) (n : Nat) (rt' : M3CodePages)
    (page' : Nat) : Prop where
  kept : WellKept rt' (page' :: active)
  room : (rt'.pages page').lineIndex + n + 2 ≤ (rt'.pages page').numLines
  words : ∀ pc w, rt.word pc = some w → rt'.word pc = some w
  others : ∀ other ∈ active, rt'.pages other = rt.pages other
  /-- The page is the same, or a bridge leads to the new one. -/
  bridge : rt' = rt ∧ page' = page ∨
    rt'.word (rt.getPagePC page) = some (.op .branch) ∧
      rt'.word (rt.getPagePC page).next = some (.pc (rt'.getPagePC page'))

/-- Two lines that are left are enough to ask for any number. -/
theorem ensureCodePageNumLines_ensured {page' : Nat}
    (h : rt.ensureCodePageNumLines page n = some (page', rt')) (hkept : WellKept rt (page :: active))
    (hroom : (rt.pages page).lineIndex + 2 ≤ (rt.pages page).numLines) :
    Ensured rt page active n rt' page' := by
  have hlt : ∀ {other : Nat}, other ∈ page :: active → other < rt.allocated := by
    intro other hmem
    apply hkept.allocated other
    simp only [List.append_assoc]
    exact List.mem_append_left _ hmem
  have hnot : page ∉ active := by
    have hnodup := hkept.nodup
    rw [List.append_assoc, List.append_assoc] at hnodup
    exact fun hmem => (List.nodup_cons.mp hnodup).1 (List.mem_append_left _ hmem)
  rw [ensureCodePageNumLines] at h
  by_cases hfull : (rt.pages page).numFreeLines < n + 2
  · simp only [if_pos hfull] at h
    rcases Option.map_eq_some_iff.mp h with ⟨⟨next, rt₀⟩, hacquire, hpair⟩
    cases hpair
    rcases acquire_kept hacquire hkept with ⟨hkept₀, hlines⟩
    have hold : rt₀.pages page = rt.pages page := acquire_pages hacquire (hlt (List.mem_cons_self ..))
    have hne : next ≠ page := by
      have hnodup := hkept₀.nodup
      simp only [List.cons_append] at hnodup
      rintro rfl
      exact (List.nodup_cons.mp hnodup).1 (List.mem_cons_self ..)
    have hpc : rt₀.getPagePC page = rt.getPagePC page := by rw [getPagePC, getPagePC, hold]
    -- the two lines of the bridge
    let rt₁ := rt₀.emitWord page (.op .branch)
    let rt₂ := rt₁.emitWord page (.pc (rt₀.getPagePC next))
    have hmem : page ∈ next :: page :: active := by simp
    have hkept₁ : WellKept rt₁ (next :: page :: active) := by
      apply emitWord_kept hkept₀ hmem
      rw [M3CodePage.numFreeLines, hold]
      omega
    have hlines₁ : (rt₁.pages page).lineIndex = (rt.pages page).lineIndex + 1 ∧
        (rt₁.pages page).numLines = (rt.pages page).numLines := by
      simp only [rt₁, emitWord, Function.update_self, hold, and_self]
    have hkept₂ : WellKept rt₂ (next :: page :: active) := by
      apply emitWord_kept hkept₁ hmem
      rw [M3CodePage.numFreeLines, hlines₁.1, hlines₁.2]
      omega
    have hpages : ∀ other ≠ page, (rt₂.releaseCodePage page).pages other = rt₀.pages other := by
      intro other hother
      simp only [release_pages, rt₂, rt₁, emitWord, Function.update_of_ne hother]
    have hbranch : rt₁.word (rt.getPagePC page) = some (.op .branch) := hpc ▸ word_emitWord
    have hnext : rt₁.getPagePC page = (rt.getPagePC page).next := hpc ▸ getPagePC_emitWord
    have hwords : ∀ pc w, rt₂.word pc = some w → (rt₂.releaseCodePage page).word pc = some w :=
      fun pc w => word_of_pages fun other => .inl (congrFun release_pages other)
    have htarget : (rt₂.releaseCodePage page).getPagePC next = rt₀.getPagePC next := by
      rw [getPagePC, getPagePC, hpages next hne]
    refine ⟨release_kept (hkept₂.perm (.swap ..)), ?_, fun pc w hw => ?_, fun other hother => ?_,
      .inr ⟨?_, ?_⟩⟩
    · rw [M3CodePage.numFreeLines] at hlines
      simp only [rt₂, rt₁] at hpages
      simp only [hpages next hne]
      omega
    · exact hwords pc w (word_emitWord_of_some (word_emitWord_of_some
        (word_of_pages (acquire_pages_or hacquire hkept) hw)))
    · have hother' : other ≠ page := by
        rintro rfl
        exact hnot hother
      simp only [rt₂, rt₁] at hpages
      simp only [hpages other hother', acquire_pages hacquire (hlt (List.mem_cons_of_mem _ hother))]
    · exact hwords _ _ (word_emitWord_of_some hbranch)
    · exact (congrArg (fun pc => (rt₂.releaseCodePage page).word (rt.getPagePC page).next =
        some (.pc pc)) htarget).mpr (hwords _ _ (hnext ▸ word_emitWord))
  · simp only [if_neg hfull] at h
    cases h
    rw [M3CodePage.numFreeLines] at hfull
    exact ⟨hkept, by omega, fun _ _ hw => hw, fun _ _ => rfl, .inl ⟨rfl, rfl⟩⟩

theorem ensureCodePageNumLines_of_room (h : (rt.pages page).lineIndex + n + 2 ≤
    (rt.pages page).numLines) : rt.ensureCodePageNumLines page n = some (page, rt) := by
  rw [ensureCodePageNumLines, M3CodePage.numFreeLines]
  exact if_neg (by omega)

/-! ## A runtime after another -/

/-- The loop of `Environment_ReleaseCodePages`, which rewinds the pages of the list. -/
def resetPages (pages : Nat → M3CodePage) : List Nat → Nat → M3CodePage
  | [] => pages
  | page :: next => resetPages (Function.update pages page { pages page with lineIndex := 0 }) next

/-- `Environment_ReleaseCodePages`. -/
def environmentReleaseCodePages (rt : M3CodePages) (i_codePageList : List Nat) : M3CodePages :=
  { rt with
    pages := resetPages rt.pages i_codePageList
    pagesReleased := i_codePageList ++ rt.pagesReleased }

/-- What `Runtime_Release` does with the pages, and `m3_NewRuntime` on the same environment. -/
def renewRuntime (rt : M3CodePages) : M3CodePages :=
  { (rt.environmentReleaseCodePages rt.pagesOpen).environmentReleaseCodePages rt.pagesFull with
    pagesOpen := []
    pagesFull := []
    numCodePages := 0
    numActiveCodePages := 0 }

end M3CodePages

end WebAssemblyRuntime.Wasm3
