import WebAssemblyRuntime.Wasm3.Evaluation
import WebAssemblyRuntime.Wasm3.OperatorSimulation

/-!
# BranchSimulation — the code of branches

A branch out of the function leaves the results at the start of the frame, one to a loop is what the
loop returns, and one out of a block leaves the result where the block has a place for it.
-/

namespace WebAssemblyRuntime.Wasm3

open M3Compilation
open Reasoning (bind_ok)

variable {L : Activation} {targets : Nat → PC} {fn : M3FuncType} {active : List Nat}
  {o o' o'' o₁ : M3Compilation} {ρ ρ' : Nat → Value} {f : Frame} {st : M3State}
  {Φ : M3Ret → M3State → Prop} {base top i k num slot : Nat} {v : Value} {stack : List Value}
  {types : List M3ValueType}

/-! ## Results -/

theorem Stacked.length (h : Stacked ρ base top stack) : top = base + stack.length := by
  induction stack generalizing top with
  | nil => exact h
  | cons v rest ih =>
    rcases h with ⟨k, rfl, -, hrest⟩
    rw [ih hrest, List.length_cons]
    omega

theorem Stacked.get (h : Stacked ρ base top stack) (hv : stack[i]? = some v) :
    ρ (top - 1 - i) = v := by
  induction stack generalizing top i with
  | nil => cases hv
  | cons w rest ih =>
    rcases h with ⟨k, rfl, hw, hrest⟩
    cases i with
    | zero =>
      cases hv
      exact hw
    | succ i =>
      have heq : k + 1 - 1 - (i + 1) = k - 1 - i := by omega
      rw [heq]
      exact ih hrest hv

/-- No value that is held is in the slots of the results. -/
theorem M3Compilation.Good.apart_of_result (h : Good fn active o)
    (hhigh : slot + num ≤ fn.rets.length * c_ioSlotCount) (hi : i < o.stackIndex)
    (hheld : o.Held i) : o.Apart i slot num := by
  intro hne
  have hlayout := h.frame.layout
  have hafter := hlayout.afterResults
  have hconsts := hlayout.consts
  right
  by_cases hlocal : i < o.stackFirstDynamicIndex
  · exact Nat.le_trans hhigh (hlayout.results i hlocal)
  · cases h.slots.entries i (Nat.le_of_not_lt hlocal) hi (hheld.resolve_left hlocal) with
    | ofLocal j hj hslot htype hblock =>
      rw [hslot]
      exact Nat.le_trans hhigh (hlayout.results j hj)
    | constant hlow => omega
    | dynamic hlow => omega
    | register hat => exact absurd hat hne

theorem IntType.numSlots_le (t : IntType) : t.numSlots ≤ c_ioSlotCount := by cases t <;> decide

/-- A value written to a slot of the frame. -/
def Activation.put (L : Activation) (slot : Nat) (v : Value) (st : M3State) : M3State :=
  { st with slots := writeSlot v.type st.slots (L.sp + slot) v.bits }

/-- One result, in its place at the start of the frame. -/
theorem M3Compilation.Good.returnValue_reaches (h : Good fn active o)
    (hreach : o.block.isPolymorphic = false) (hholds : HoldsBelow L o o.stackIndex ρ st)
    (hi : i < fn.rets.length) (hk : o.stackIndex = k + 1 + i) (hheld : o.Held k)
    (ho : M3Compilation.returnValue fn.rets.length types o i = .ok o')
    (hshows : Shows L.image.code o'.rt) :
    L.Reaches o.getPC st o'.getPC (L.put ((fn.rets.length - 1 - i) * c_ioSlotCount) (ρ k) st) ∧
      HoldsBelow L o' o'.stackIndex ρ
        (L.put ((fn.rets.length - 1 - i) * c_ioSlotCount) (ρ k) st) := by
  rcases (returnValue_cases ho).2 with ⟨hpoly, -⟩ | ⟨-, hcopy⟩
  · rw [hreach] at hpoly
    cases hpoly
  · have hbounded := h.slots.bounded
    have hindex : toU16 (o.getStackTopIndex - i) = k := by
      rw [toU16, getStackTopIndex]
      rw [d_m3MaxFunctionStackHeight] at hbounded
      omega
    have hlt : k < o.stackIndex := by omega
    have hemitted := (h.returnValue ho).2
    have hheight : o'.stackIndex = o.stackIndex := by rw [hemitted]
    have hsmall := (ρ k).type.numSlots_le
    have hend : (fn.rets.length - 1 - i) * c_ioSlotCount + (ρ k).type.numSlots ≤
        fn.rets.length * c_ioSlotCount := by
      rw [c_ioSlotCount] at hsmall ⊢
      omega
    rw [hindex] at hcopy
    refine ⟨h.copyStackIndexToSlot_reaches hlt hheld (hholds.typed k hlt hheld)
      (hholds.located k hlt hheld) hcopy hshows, ?_⟩
    rw [hheight]
    refine (hholds.write _ (fun j hj hheld' => h.apart_of_result hend hj hheld') ?_).of_emitted
      hemitted
    exact .inl (Nat.le_trans hend h.frame.layout.afterResults)

theorem M3Compilation.Good.returnValueLoop_reaches {l : List Nat} (h : Good fn active o)
    (hreach : o.block.isPolymorphic = false) (hholds : HoldsBelow L o o.stackIndex ρ st)
    (hheight : o.block.blockStackIndex + fn.rets.length ≤ o.stackIndex)
    (hl : ∀ i ∈ l, i < fn.rets.length) (hnodup : l.Nodup)
    (ho : l.foldlM (M3Compilation.returnValue fn.rets.length types) o = .ok o')
    (hshows : Shows L.image.code o'.rt) :
    ∃ st', L.Reaches o.getPC st o'.getPC st' ∧ st'.store = st.store ∧
      (∀ i ∈ l, readSlot (ρ (o.stackIndex - 1 - i)).type st'.slots
        (L.sp + (fn.rets.length - 1 - i) * c_ioSlotCount) = (ρ (o.stackIndex - 1 - i)).bits) ∧
      ∀ i < fn.rets.length, i ∉ l → ∀ t, readSlot t st'.slots
        (L.sp + (fn.rets.length - 1 - i) * c_ioSlotCount) =
          readSlot t st.slots (L.sp + (fn.rets.length - 1 - i) * c_ioSlotCount) := by
  induction l generalizing o st with
  | nil =>
    cases ho
    exact ⟨st, .refl _ _, rfl, fun i hi => (by cases hi), fun _ _ _ _ => rfl⟩
  | cons i l ih =>
    rw [List.foldlM_cons] at ho
    rcases bind_ok ho with ⟨o₁, hstep, hrest⟩
    rcases h.returnValue hstep with ⟨hkept, hemitted⟩
    have hi := hl i (List.mem_cons_self ..)
    rcases List.nodup_cons.mp hnodup with ⟨hnot, hnodup'⟩
    have hshows₁ := hshows.of_writes (hkept.good.returnValueLoop hrest).1.ext.writes
    have hopen : o.Held (o.stackIndex - 1 - i) := .inr (h.frame.open_of_le (by omega))
    rcases h.returnValue_reaches (k := o.stackIndex - 1 - i) hreach hholds hi (by omega) hopen hstep
      hshows₁ with ⟨hreaches, hholds₁⟩
    have hblock : o₁.block = o.block := by rw [hemitted]
    have hindex : o₁.stackIndex = o.stackIndex := by rw [hemitted]
    rcases ih hkept.good (by rw [hblock]; exact hreach) hholds₁
      (by rw [hblock, hindex]; exact hheight) (fun j hj => hl j (List.mem_cons_of_mem _ hj)) hnodup'
      hrest with
      ⟨st', hreaches', hstore, hresults, hothers⟩
    rw [hindex] at hresults
    refine ⟨st', hreaches.trans hreaches', hstore, fun j hj => ?_, fun j hj hjl t => ?_⟩
    · rcases List.mem_cons.mp hj with rfl | hj
      · rw [hothers j hi hnot]
        exact readSlot_writeSlot _ _ _ _
      · exact hresults j hj
    · rw [List.mem_cons, not_or] at hjl
      rw [hothers j hj hjl.2]
      refine readSlot_writeSlot_of_disjoint ?_
      -- the places of two results are apart
      have hsmall := t.numSlots_le
      have hsmall' := (ρ (o.stackIndex - 1 - i)).type.numSlots_le
      rw [c_ioSlotCount] at hsmall hsmall' ⊢
      omega

theorem popTimes_code (h : popTimes i o = .ok o') : o'.rt = o.rt ∧ o'.page = o.page := by
  induction i generalizing o with
  | zero =>
    cases h
    exact ⟨rfl, rfl⟩
  | succ n ih =>
    rcases bind_ok h with ⟨o₁, hpop, hrest⟩
    rcases pop_code hpop with ⟨hrt, hpage⟩
    rcases ih hrest with ⟨hrt', hpage'⟩
    exact ⟨hrt'.trans hrt, hpage'.trans hpage⟩

/-- The last values of the stack, as the results of the function. -/
theorem Matches.returnValues {isBranch : Bool} {scope : M3CompilationScope} (h : Good fn active o)
    (hm : Matches L o ρ f st) (hfn : scope.type = fn) (hn : fn.rets.length ≤ f.stack.length)
    (ho : o.returnValues scope isBranch = .ok o') (hshows : Shows L.image.code o'.rt) :
    ∃ st', L.Reaches o.getPC st o'.getPC st' ∧ st'.store = f.store ∧
      Returned L.sp (f.stack.take fn.rets.length) st' := by
  rcases (returnValues_cases ho).2 with ⟨o₁, hloop, hend⟩
  rw [hfn] at hloop hend
  have hcode : o'.rt = o₁.rt ∧ o'.page = o₁.page := by
    cases isBranch with
    | true =>
      rw [if_pos rfl] at hend
      rw [hend]
      exact ⟨rfl, rfl⟩
    | false => exact popTimes_code (by simpa using hend)
  have hlength := hm.stack.length
  rw [hcode.1] at hshows
  rcases h.returnValueLoop_reaches hm.reachable hm.holds (by omega)
    (fun i hi => List.mem_range.mp hi) List.nodup_range hloop hshows with
    ⟨st', hreaches, hstore, hresults, -⟩
  have hpc : o'.getPC = o₁.getPC := by rw [getPC, getPC, hcode.1, hcode.2]
  rw [hpc]
  refine ⟨st', hreaches, hstore.trans hm.store, fun i v hv => ?_⟩
  have hcount : (f.stack.take fn.rets.length).length = fn.rets.length := by
    rw [List.length_take]
    omega
  have hi : i < fn.rets.length := by
    have hlt := (List.getElem?_eq_some_iff.mp hv).1
    rw [List.length_reverse, hcount] at hlt
    exact hlt
  -- the last result is on top
  have hv' : f.stack[fn.rets.length - 1 - i]? = some v := by
    rw [List.getElem?_reverse (by omega), hcount, List.getElem?_take_of_lt (by omega)] at hv
    exact hv
  have hresult := hresults (fn.rets.length - 1 - i) (List.mem_range.mpr (by omega))
  rw [hm.stack.get hv', show fn.rets.length - 1 - (fn.rets.length - 1 - i) = i by omega] at hresult
  exact hresult

theorem M3Compilation.ScopeExt.label {c c' : M3CompilationScope} (h : ScopeExt o c c') :
    c'.label = c.label := by
  rw [M3CompilationScope.label, M3CompilationScope.label, h.same]

/-- The types that branches take, the innermost label first. -/
def M3Compilation.labels (o : M3Compilation) : List (List M3ValueType) :=
  o.scopes.map M3CompilationScope.label

theorem M3Compilation.Ext.labels (h : Ext active o o') : o'.labels = o.labels := by
  have hscopes := h.scopes
  rw [M3Compilation.labels, M3Compilation.labels]
  generalize o.scopes = l at hscopes
  generalize o'.scopes = l' at hscopes
  induction hscopes with
  | nil => rfl
  | cons hc _ ih => rw [List.map_cons, List.map_cons, hc.label, ih]

/-- A scope that a branch can jump to, or that a loop goes on in. -/
structure BlockOf (o : M3Compilation) (c : M3CompilationScope) : Prop where
  mvp : c.type.Mvp
  opcode : c.opcode ≠ .function
  height : c.blockStackIndex = c.exitStackIndex + c.type.rets.length
  below : c.blockStackIndex ≤ o.block.blockStackIndex
  mem : c ∈ o.scopes

theorem M3Compilation.Good.blockOf {c : M3CompilationScope} (h : Good fn active o)
    (hmem : c ∈ o.scopes) (hblock : c.depth ≠ 0 ∨ c.opcode ≠ .function) : BlockOf o c := by
  have hbelow := h.frame.nested.block_le c hmem
  rcases h.frame.nested.of_mem c hmem with ⟨hfunction, -, hdepth, -⟩ | ⟨hopcode, hheight, hmvp⟩
  · rcases hblock with hne | hne
    · exact absurd hdepth hne
    · exact absurd hfunction hne
  · exact ⟨hmvp, hopcode, hheight, hbelow, hmem⟩

theorem BlockOf.label_loop {c : M3CompilationScope} (h : BlockOf o c) (hloop : c.opcode = .loop) :
    c.label = [] := by
  rw [M3CompilationScope.label, if_pos hloop, h.mvp.args]

theorem BlockOf.label_rets {c : M3CompilationScope} (hloop : c.opcode ≠ .loop) :
    c.label = c.type.rets := if_neg hloop

/-- The place of a result is below the current block. -/
theorem BlockOf.exit_lt {c : M3CompilationScope} (h : BlockOf o c) {stack : List Value}
    (htyped : Typed stack c.label) (hv : v ∈ stack) :
    c.exitStackIndex < o.block.blockStackIndex := by
  have hlength := congrArg List.length htyped
  rw [List.length_map, List.length_reverse] at hlength
  have hpos := List.length_pos_of_mem hv
  have hheight := h.height
  have hbelow := h.below
  by_cases hloop : c.opcode = .loop
  · rw [h.label_loop hloop, List.length_nil] at hlength
    omega
  · rw [BlockOf.label_rets hloop] at hlength
    omega

theorem Arrives.of_ext {c c' : M3CompilationScope} (h : Arrives L o' c' ρ f st)
    (hext : Ext active o o') (hc : ScopeExt o c c') (hblock : BlockOf o c) :
    Arrives L o c ρ f st := by
  have hexit : c'.exitStackIndex = c.exitStackIndex := by rw [hc.same]
  have hheight := hblock.height
  have hbelow := hblock.below
  have htyped : Typed f.stack c.label := hc.label ▸ h.typed
  refine ⟨(HoldsBelow.ext_iff hext (by omega)).mp (hexit ▸ h.holds), htyped, fun v hv => ?_, ?_,
    h.store⟩
  · rw [← (hext.entries _ (hblock.exit_lt htyped hv)).1, ← hexit]
    exact h.results v hv
  · rw [← hext.stackFirstDynamicIndex]
    exact h.locals

/-- What is asked for after an outcome is asked for from any later point on. -/
theorem Accepts.of_ext {outcome : Outcome} (h : Accepts L targets o o'' ρ Φ outcome)
    (hgood : Good fn active o) (hext : Ext active o o') (hsame : SameBelow o ρ ρ') :
    Accepts L targets o' o'' ρ' Φ outcome := by
  have hbelow : ∀ {ρ''}, SameBelow o' ρ' ρ'' → SameBelow o ρ ρ'' := fun hsame' =>
    hsame.trans (hsame'.of_ext hext)
  cases outcome with
  | normal f => exact fun ρ'' st hsame' hm => h ρ'' st (hbelow hsame') hm
  | ret results σ => exact h
  | trap e σ => exact h
  | branch depth f =>
    intro c' hc'
    have hlt := (List.getElem?_eq_some_iff.mp hc').1
    rw [← hext.scopes.length_eq] at hlt
    obtain ⟨c, hc⟩ : ∃ c, o.scopes[depth]? = some c := ⟨_, List.getElem?_eq_getElem hlt⟩
    rcases forall₂_getElem? hext.scopes hc with ⟨c'', hc'', hscope⟩
    rw [hc'] at hc''
    cases hc''
    have haccepts := h c hc
    have hdepth : c'.depth = c.depth := by rw [hscope.same]
    have hopcode : c'.opcode = c.opcode := by rw [hscope.same]
    have hpc : c'.pc = c.pc := by rw [hscope.same]
    rw [hdepth, hopcode, hpc]
    by_cases hfunction : c.depth = 0
    · rw [if_pos hfunction] at haccepts ⊢
      exact haccepts
    · rw [if_neg hfunction] at haccepts ⊢
      have hblock := hgood.blockOf (List.mem_of_getElem? hc) (.inl hfunction)
      exact fun ρ'' st hsame' harrives =>
        haccepts ρ'' st (hbelow hsame') (harrives.of_ext hext hscope hblock)

/-! ## Branches -/

/-- The slots of the result of a block around are those of no value below it. -/
theorem M3Compilation.Good.apart_of_recorded {c : M3CompilationScope} (h : Good fn active o)
    (hrecorded : Recorded o c) (hi : i < c.exitStackIndex)
    (hheld : o.Held i) :
    o.Apart i (o.wasmStack c.exitStackIndex) (getTypeNumSlots (o.typeStack c.exitStackIndex)) := by
  intro hne
  have hlow := hrecorded.low
  have hnum := getTypeNumSlots_pos (o.typeStack c.exitStackIndex)
  by_cases hlocal : i < o.stackFirstDynamicIndex
  · have hend := h.frame.layout.locals i hlocal
    have hconsts := h.frame.layout.consts
    left
    omega
  · by_contra hnot
    have hpos := getTypeNumSlots_pos (o.typeStack i)
    refine hrecorded.apart i hi (Nat.le_of_not_lt hlocal) (hheld.resolve_left hlocal)
      (max (o.wasmStack c.exitStackIndex) (o.wasmStack i)) ?_ ?_
    · rw [Covers]
      omega
    · rw [Covers]
      omega

/-- `ResolveBlockResults`: the result goes to where the block has a place for it. -/
theorem M3Compilation.Good.resolveBlockResults_reaches {scope : M3CompilationScope}
    {isBranch : Bool} (h : Good fn active o) (hm : Matches L o ρ f st) (hblock : BlockOf o scope)
    (hloop : ¬ (scope.opcode = .loop ∧ isBranch = true))
    (htyped : Typed (f.stack.take scope.type.rets.length) scope.type.rets)
    (hlinked : Linked L targets o') (ho : o.resolveBlockResults scope isBranch = .ok o') :
    ∃ st', L.Reaches o.getPC st o'.getPC st' ∧ HoldsBelow L o scope.exitStackIndex ρ st' ∧
      (∀ v ∈ f.stack.take scope.type.rets.length,
        Located L.sp st' (o.wasmStack scope.exitStackIndex) v) ∧ st'.store = st.store := by
  have hheight := hblock.height
  have hbelow := hblock.below
  have htop := h.slots.height
  have hholds : HoldsBelow L o scope.exitStackIndex ρ st := hm.holds.mono (by omega)
  rcases resolveBlockResults_cases hblock.mvp h.slots.bounded ho with
    ⟨hnone, rfl⟩ | ⟨⟨-, hone⟩, k, hk, hle, hcase⟩
  · rw [hnone.resolve_left hloop]
    exact ⟨st, .refl _ _, hholds, fun v hv => (by cases hv), rfl⟩
  · -- the only result is the top of the stack
    have hstacked := hm.stack
    rw [hk] at hstacked
    cases hstack : f.stack with
    | nil =>
      rw [hstack] at hstacked
      have heq : k + 1 = o.block.blockStackIndex := hstacked
      omega
    | cons v rest =>
      rw [hstack] at hstacked
      rcases hstacked with ⟨k', hk', hv, -⟩
      cases Nat.succ.inj hk'
      have hlt : k < o.stackIndex := by omega
      have hheld : o.Held k := .inr (h.frame.open_of_le hle)
      have htype := hm.holds.typed k hlt hheld
      have hat := hm.holds.located k hlt hheld
      rw [hv] at htype hat
      have hresult : ∀ st', Located L.sp st' (o.wasmStack scope.exitStackIndex) v →
          ∀ w ∈ (v :: rest).take scope.type.rets.length,
            Located L.sp st' (o.wasmStack scope.exitStackIndex) w := by
        intro st' hat' w hw
        rw [hone, List.take_succ_cons, List.take_zero, List.mem_singleton] at hw
        rw [hw]
        exact hat'
      have hexit : o.getSlotForStackIndex scope.exitStackIndex =
          o.wasmStack scope.exitStackIndex := getSlotForStackIndex_of_lt (by omega)
      rw [hexit] at hcase
      rcases hcase with ⟨hsame, rfl⟩ | ⟨hne, hcopy⟩
      · exact ⟨st, .refl _ _, hholds, hresult st (hsame ▸ hat), rfl⟩
      · have hrets : scope.type.rets ≠ [] := by
          intro hnil
          rw [hnil] at hone
          cases hone
        have hrecorded := h.frame.recorded scope hblock.mem hblock.opcode hrets
        have hrecord : o.typeStack scope.exitStackIndex = v.type.valueType := by
          have hsingle := hrecorded.type
          rw [hstack, hone, List.take_succ_cons, List.take_zero, Typed, hsingle] at htyped
          exact (List.cons.inj htyped).1.symm
        have hnum : getTypeNumSlots (o.typeStack scope.exitStackIndex) = v.type.numSlots := by
          rw [hrecord, numSlots_valueType]
        have hlow := hrecorded.low
        have hhigh := hrecorded.high
        have halias := slots_lt_alias
        have hpos := v.type.numSlots_pos
        rw [hnum] at hhigh
        refine ⟨_, h.copyStackIndexToSlot_reaches hlt hheld htype hat hcopy hlinked.shows,
          hholds.write v.bits (fun i hi hheld' => ?_) ?_, hresult _ ?_, rfl⟩
        · rw [← hnum]
          exact h.apart_of_recorded hrecorded hi hheld'
        · have hfits := hlinked.fits
          rw [(h.copyStackIndexToSlot hcopy).2] at hfits
          exact .inr (Nat.le_trans hfits hlow)
        · exact located_writeSlot (by omega)

/-- A scope at depth zero is the function's. -/
theorem M3Compilation.Scoped.of_depth_zero {base : Nat} {c : M3CompilationScope}
    {outer : List M3CompilationScope} (h : Scoped fn base c outer) :
    ∀ c' ∈ c :: outer, c'.depth = 0 → c'.opcode = .function ∧ c'.type = fn := by
  induction outer generalizing c with
  | nil =>
    intro c' hmem _
    rw [List.mem_singleton.mp hmem]
    exact ⟨h.2.2.1, h.2.2.2.2⟩
  | cons next rest ih =>
    rcases h with ⟨-, -, -, hdepth, -, hnext⟩
    intro c' hmem hzero
    rcases List.mem_cons.mp hmem with rfl | hmem
    · rw [hdepth] at hzero
      cases hzero
    · exact ih hnext c' hmem hzero

/-- A word that is left for the end of a block has its target in the finished code. -/
theorem Linked.patch_target {scope : M3CompilationScope} {depth : Nat}
    (h : Linked L targets (o.emitPatchingBranchPointer depth))
    (hscope : o.scopes[depth]? = some scope) (hdepth : scope.depth ≠ 0) :
    L.image.code o.getPC = some (.pc (targets depth)) := by
  have hscopes : (o.emitPatchingBranchPointer depth).scopes =
      o.scopes.modify depth (addPatch o.getPC) := scopes_modifyScope o depth _
  have hpatched : (o.emitPatchingBranchPointer depth).scopes[depth]? =
      some (addPatch o.getPC scope) := by
    rw [hscopes, List.getElem?_modify_eq, hscope]
    rfl
  exact h.branches depth _ hpatched hdepth _ (List.mem_cons_self ..)

/-- The way to a scope that is not a loop. -/
theorem M3Compilation.Good.compileForwardBranch_accepts {scope : M3CompilationScope} {depth : Nat}
    (h : Good fn active o) (hm : Matches L o ρ f st) (hscope : o.scopes[depth]? = some scope)
    (hloop : scope.opcode ≠ .loop)
    (htyped : Typed (f.stack.take scope.label.length) scope.label) (hlinked : Linked L targets o')
    (ho : o.compileForwardBranch depth scope = .ok o')
    (haccepts : Accepts L targets o o'' ρ Φ
      (.branch depth { f with stack := f.stack.take scope.label.length })) :
    L.Ends o.getPC st Φ := by
  have hmem := List.mem_of_getElem? hscope
  have haccepts := haccepts scope hscope
  have hlabel : scope.label = scope.type.rets := BlockOf.label_rets hloop
  rw [hlabel] at htyped haccepts
  rcases compileForwardBranch_cases ho with ⟨hpoly, -⟩ | ⟨-, hdepth, o₁, hreturn, hemit⟩ |
    ⟨-, hdepth, o₁, hresolve, hbranch⟩
  · rw [hm.reachable] at hpoly
    cases hpoly
  · have hfn := (h.frame.nested.of_depth_zero scope hmem hdepth).2
    rw [if_pos hdepth, hfn] at haccepts
    rw [hfn] at htyped
    have hkept := (h.returnValues hreturn).1
    rcases hm.returnValues h hfn htyped.le_length hreturn
      (hlinked.shows.of_writes (hkept.good.emitOp hemit).ext.writes) with
      ⟨st', hreaches, hstore, hreturned⟩
    exact hreaches Φ (L.ends_emitOp hkept.room hemit hlinked.shows rfl
      (haccepts st' hreturned hstore))
  · have hblock := h.blockOf hmem (.inl hdepth)
    rw [if_neg hdepth] at haccepts
    rcases h.resolveBlockResults hblock.mvp hresolve with ⟨hkept, hemitted⟩
    have hscope₁ : o₁.scopes[depth]? = some scope := hemitted.scopes ▸ hscope
    have hlt := (List.getElem?_eq_some_iff.mp hscope₁).1
    rcases bind_ok hbranch with ⟨o₂, hemit, heq⟩
    cases heq
    have hop := hkept.good.emitOp hemit
    have hscope₂ : o₂.scopes[depth]? = some scope := (emitted_emitOp hemit).scopes ▸ hscope₁
    have hlt₂ := (List.getElem?_eq_some_iff.mp hscope₂).1
    have hpointer : Kept fn active 4 o₂ (o₂.emitPatchingBranchPointer depth) :=
      hop.good.emitPatchingBranchPointer hop.room hlt₂
    have hlinked₁ := hlinked.of_ext (hop.trans hpointer).ext
    have htarget := hlinked.patch_target hscope₂ hdepth
    rcases h.resolveBlockResults_reaches hm hblock (fun hnot => hloop hnot.1) htyped hlinked₁
      hresolve with ⟨st', hreaches, hholds, hresults, hstore⟩
    have harrives : Arrives L o scope ρ
        { f with stack := f.stack.take scope.type.rets.length } st' :=
      ⟨hholds, hlabel ▸ htyped, hresults, hm.locals, hstore.trans hm.store⟩
    have hends := haccepts ρ st' (.refl o ρ) harrives
    rw [if_neg hloop] at hends
    refine hreaches Φ (L.reaches_emitOp hkept.room hemit
      (hlinked.shows.of_writes hpointer.ext.writes) ?_ Φ hends)
    simp only [stepOp, pcAt, htarget, Option.bind_eq_bind, Option.bind_some]

/-- A branch to a loop takes no values: the loop goes on with what was below it. -/
theorem M3Compilation.Good.continue_accepts {scope : M3CompilationScope} {depth : Nat}
    (h : Good fn active o) (hm : Matches L o ρ f st) (hscope : o.scopes[depth]? = some scope)
    (hloop : scope.opcode = .loop)
    (haccepts : Accepts L targets o o'' ρ Φ
      (.branch depth { f with stack := f.stack.take scope.label.length })) :
    Φ (.continueLoop scope.pc) st := by
  have hmem := List.mem_of_getElem? hscope
  have hdepth : scope.depth ≠ 0 := by
    intro hzero
    have hopcode := (h.frame.nested.of_depth_zero scope hmem hzero).1
    rw [hloop] at hopcode
    cases hopcode
  have hblock := h.blockOf hmem (.inl hdepth)
  have hlabel := hblock.label_loop hloop
  have haccepts := haccepts scope hscope
  rw [if_neg hdepth] at haccepts
  rw [hlabel] at haccepts
  have hheight := hblock.height
  have hbelow := hblock.below
  have htop := h.slots.height
  have harrives : Arrives L o scope ρ
      { f with stack := f.stack.take ([] : List M3ValueType).length } st := by
    refine ⟨hm.holds.mono (by omega), ?_, fun v hv => ?_, hm.locals, hm.store⟩
    · rw [hlabel]
      rfl
    · cases hv
  have hgoes := haccepts ρ st (.refl o ρ) harrives
  rw [if_pos hloop] at hgoes
  exact hgoes

/-- The scopes have more words to fill in; the stack is the same. -/
structure Rescoped (o o' : M3Compilation) : Prop where
  same : o' = { o with rt := o'.rt, page := o'.page, block := o'.block, outer := o'.outer }
  polymorphic : o'.block.isPolymorphic = o.block.isPolymorphic

theorem M3Compilation.Emitted.rescoped (h : Emitted o o') : Rescoped o o' := by
  refine ⟨?_, ?_⟩
  · rw [h]
  · rw [h]

theorem Rescoped.trans (h : Rescoped o o') (h' : Rescoped o' o'') : Rescoped o o'' := by
  refine ⟨?_, h'.polymorphic.trans h.polymorphic⟩
  have hsame := h.same
  have hsame' := h'.same
  rw [hsame] at hsame'
  exact hsame'

theorem rescoped_emitPatchingBranchPointer (o : M3Compilation) (depth : Nat) :
    Rescoped o (o.emitPatchingBranchPointer depth) := by
  rw [emitPatchingBranchPointer_eq]
  refine ⟨?_, ?_⟩
  · rw [modifyScope_eq]
    rfl
  · cases depth <;> rfl

theorem Rescoped.of_forwardBranch {scope : M3CompilationScope} {depth : Nat}
    (h : Good fn active o) (hscope : o.scopes[depth]? = some scope)
    (ho : o.compileForwardBranch depth scope = .ok o') : Rescoped o o' := by
  rcases compileForwardBranch_cases ho with ⟨-, rfl⟩ | ⟨-, -, o₁, hreturn, hemit⟩ |
    ⟨-, hdepth, o₁, hresolve, hbranch⟩
  · exact ((Emitted.refl o').rescoped)
  · exact ((h.returnValues hreturn).2.trans (emitted_emitOp hemit)).rescoped
  · have hmvp := h.scope_mvp (List.mem_of_getElem? hscope) (.inr hdepth)
    rcases bind_ok hbranch with ⟨o₂, hemit, heq⟩
    cases heq
    exact (((h.resolveBlockResults hmvp hresolve).2.trans (emitted_emitOp hemit)).rescoped).trans
      (rescoped_emitPatchingBranchPointer o₂ depth)

theorem Linked.of_release {page : Nat} (h : Linked L targets (o.releaseCompilationCodePage page)) :
    Linked L targets o := by
  have hwrites : Writes [] o (o.releaseCompilationCodePage page) := writes_release
  exact ⟨h.shows.of_writes hwrites, h.constants, h.fits, h.small, h.branches⟩

theorem M3Compilation.Emitted.of_release (o : M3Compilation) (page : Nat) :
    Emitted o (o.releaseCompilationCodePage page) := rfl

/-- The page that is the current one again goes on where it was left. -/
theorem getPC_release (hext : Ext (o.page :: active) o o') :
    (o'.releaseCompilationCodePage o.page).getPC = o.getPC := by
  have hlines := (hext.writes.others o.page (List.mem_cons_self ..)).1
  rw [getPC, getPC, M3CodePages.getPagePC, M3CodePages.getPagePC, ← hlines]
  simp only [releaseCompilationCodePage, M3CodePages.release_pages]

/-- One target: its code on a page of its own, and the word that leads there. -/
structure TargetCode (fn : M3FuncType) (active : List Nat) (target : Nat)
    (scope : M3CompilationScope) (o o₁ o₂ o' : M3Compilation) : Prop where
  own : Kept fn (o.page :: active) 4 o o₁
  emitted : Emitted o o₁
  code : scope.opcode = .loop ∧ (∃ o₃, o₁.emitOp .continueLoop = .ok o₃ ∧
      o₂ = o₃.emit (.pc scope.pc)) ∨
    scope.opcode ≠ .loop ∧ o₁.compileForwardBranch target scope = .ok o₂
  kept : Kept fn (o.page :: active) 0 o₁ o₂
  finish : o' = (o₂.releaseCompilationCodePage o.page).emit (.pc o₁.getPC)

theorem TargetCode.getPC_eq {scope : M3CompilationScope} {target : Nat} {o₁ o₂ : M3Compilation}
    (h : TargetCode fn active target scope o o₁ o₂ o') : o'.getPC = o.getPC.next := by
  rw [h.finish, getPC_emit, getPC_release (h.own.ext.trans h.kept.ext)]

theorem TargetCode.rescoped {scope : M3CompilationScope} {target : Nat} {o₁ o₂ : M3Compilation}
    (h : TargetCode fn active target scope o o₁ o₂ o') (hscope : o.scopes[target]? = some scope) :
    Rescoped o o' := by
  have hcode : Rescoped o₁ o₂ := by
    rcases h.code with ⟨-, o₃, hemit, rfl⟩ | ⟨-, hbranch⟩
    · exact ((emitted_emitOp hemit).trans (emitted_emit _)).rescoped
    · exact .of_forwardBranch h.own.good (h.emitted.scopes ▸ hscope) hbranch
  have hback : Emitted o₂ o' := by
    rw [h.finish]
    exact rfl
  exact (h.emitted.rescoped.trans hcode).trans hback.rescoped

theorem TargetCode.accepts {scope : M3CompilationScope} {target : Nat} {o₁ o₂ : M3Compilation}
    (h : TargetCode fn active target scope o o₁ o₂ o') (hgood : Good fn active o)
    (hm : Matches L o ρ f st) (hscope : o.scopes[target]? = some scope)
    (htyped : Typed (f.stack.take scope.label.length) scope.label)
    (hroom : Writable active 1 o) (hlinked : Linked L targets o')
    (haccepts : Accepts L targets o o'' ρ Φ
      (.branch target { f with stack := f.stack.take scope.label.length })) :
    L.image.code o.getPC = some (.pc o₁.getPC) ∧ L.Ends o₁.getPC st Φ := by
  have hall := h.own.ext.trans h.kept.ext
  have hreleased : Kept fn active 1 o (o₂.releaseCompilationCodePage o.page) :=
    (h.own.trans h.kept).release hroom.room
  have hm₁ := hm.of_emitted h.emitted
  have hscope₁ : o₁.scopes[target]? = some scope := h.emitted.scopes ▸ hscope
  have haccepts₁ := haccepts.of_ext hgood (h.own.ext.mono (List.subset_cons_self ..)) (.refl o ρ)
  rw [h.finish] at hlinked
  have hword := hlinked.shows.emit fun heq => by cases heq
  rw [getPC_release hall] at hword
  have hlinked₂ : Linked L targets o₂ :=
    (hlinked.of_ext (hreleased.good.emit (n := 0) hreleased.room).ext).of_release
  refine ⟨hword, ?_⟩
  rcases h.code with ⟨hloop, o₃, hemit, heq⟩ | ⟨hloop, hbranch⟩
  · rw [heq] at hlinked₂
    have hop := h.own.good.emitOp hemit
    have hid := hlinked₂.shows.emit fun heq => by cases heq
    refine L.ends_emitOp h.own.good.room hemit
      (hlinked₂.shows.of_writes (hop.good.emit (n := 4) hop.room).ext.writes) ?_
      (h.own.good.continue_accepts hm₁ hscope₁ hloop haccepts₁)
    simp only [stepOp, pcAt, hid, Option.bind_eq_bind, Option.bind_some]
  · exact h.own.good.compileForwardBranch_accepts hm₁ hscope₁ hloop htyped hlinked₂ hbranch
      haccepts₁

end WebAssemblyRuntime.Wasm3
