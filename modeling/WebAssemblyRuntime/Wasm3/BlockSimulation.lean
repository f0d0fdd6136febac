import WebAssemblyRuntime.Wasm3.BranchSimulation
import WebAssemblyRuntime.Wasm3.CallSimulation

/-!
# BlockSimulation — the code of blocks and loops

The end of a block finds the result where every branch to it has left it.  A loop runs its body
again as long as that returns the address the loop goes on at.
-/

namespace WebAssemblyRuntime.Wasm3

open M3Compilation

variable {L : Activation} {targets : Nat → PC} {fn : M3FuncType} {active : List Nat}
  {o o' o'' o₁ o₂ o₃ o₄ o₅ : M3Compilation} {ρ ρ' : Nat → Value} {f f' : Frame}
  {st st' st'' : M3State} {Φ : M3Ret → M3State → Prop} {pc : PC} {n i : Nat}
  {rest : List Value} {room : Nat} {types : List M3ValueType} {blockType : M3FuncType}
  {opcode : BlockOpcode} {outcome outcome₁ : Outcome}

/-- Besides the outcome of the code, the end may be an overflow of the stack, and a loop that goes
on is one of those around the code. -/
structure Exits (L : Activation) (calls : Nat) (o : M3Compilation) (Φ : M3Ret → M3State → Prop) :
    Prop where
  overflow : ¬ FitsStack L.image L.frame calls L.sp L.depth → ∀ st, Φ (.trap .trapStackOverflow) st
  continues : ∀ pc st, Φ (.continueLoop pc) st → ∃ c ∈ o.scopes, c.opcode = .loop ∧ c.pc = pc

theorem Exits.of_ext {calls : Nat} (h : Exits L calls o Φ) (hext : Ext active o o') :
    Exits L calls o' Φ := by
  refine ⟨h.overflow, fun pc st hΦ => ?_⟩
  rcases h.continues pc st hΦ with ⟨c, hmem, hloop, hpc⟩
  rcases List.mem_iff_getElem?.mp hmem with ⟨i, hi⟩
  rcases forall₂_getElem? hext.scopes hi with ⟨c', hc', hscope⟩
  refine ⟨c', List.mem_of_getElem? hc', ?_, ?_⟩
  · rw [hscope.same]
    exact hloop
  · rw [hscope.same]
    exact hpc

/-! ## After a block -/

/-- The same values in the same places, with the same slots free. -/
structure SameStack (o o' : M3Compilation) : Prop where
  stackIndex : o'.stackIndex = o.stackIndex
  entries : ∀ i < o.stackIndex, o'.wasmStack i = o.wasmStack i ∧ o'.typeStack i = o.typeStack i
  held : ∀ i, o'.Held i ↔ o.Held i
  stackFirstDynamicIndex : o'.stackFirstDynamicIndex = o.stackFirstDynamicIndex
  slotFirstConstIndex : o'.slotFirstConstIndex = o.slotFirstConstIndex
  slotFirstDynamicIndex : o'.slotFirstDynamicIndex = o.slotFirstDynamicIndex
  blockStackIndex : o'.block.blockStackIndex = o.block.blockStackIndex
  polymorphic : o'.block.isPolymorphic = o.block.isPolymorphic
  m3Slots : ∀ n, o.slotFirstDynamicIndex ≤ n → n < d_m3MaxFunctionSlots →
    o'.m3Slots n = o.m3Slots n

theorem M3Compilation.Emitted.sameStack (h : Emitted o o') : SameStack o o' := by
  rw [h]
  exact ⟨rfl, fun _ _ => ⟨rfl, rfl⟩, fun _ => Iff.rfl, rfl, rfl, rfl, rfl, rfl, fun _ _ _ => rfl⟩

theorem SameStack.trans (h : SameStack o o') (h' : SameStack o' o'') : SameStack o o'' := by
  refine ⟨h'.stackIndex.trans h.stackIndex, fun i hi => ?_, fun i => (h'.held i).trans (h.held i),
    h'.stackFirstDynamicIndex.trans h.stackFirstDynamicIndex,
    h'.slotFirstConstIndex.trans h.slotFirstConstIndex,
    h'.slotFirstDynamicIndex.trans h.slotFirstDynamicIndex,
    h'.blockStackIndex.trans h.blockStackIndex, h'.polymorphic.trans h.polymorphic,
    fun n hlow hhigh => ?_⟩
  · rcases h'.entries i (h.stackIndex ▸ hi) with ⟨hslot, htype⟩
    rcases h.entries i hi with ⟨hslot', htype'⟩
    exact ⟨hslot.trans hslot', htype.trans htype'⟩
  · exact (h'.m3Slots n (h.slotFirstDynamicIndex ▸ hlow) hhigh).trans (h.m3Slots n hlow hhigh)

theorem SameStack.freeSlots (h : SameStack o o') (type : M3ValueType) :
    o'.freeSlots type = o.freeSlots type := by
  rw [M3Compilation.freeSlots, M3Compilation.freeSlots, h.slotFirstDynamicIndex]
  refine findSlots_congr (fun n hlow hhigh => h.m3Slots n ?_ hhigh) _
  exact Nat.le_trans (le_alignSlotToType _ _) hlow

/-- The slots of what a block had on the stack are free again after it. -/
theorem M3Compilation.Left.sameStack (h : Left fn active room o o') (hgood : Good fn active o) :
    SameStack o o' := by
  have hext := h.kept.ext
  refine ⟨h.stackIndex, h.entries, hext.held_iff, hext.stackFirstDynamicIndex,
    hext.slotFirstConstIndex, hext.slotFirstDynamicIndex, hext.block.blockStackIndex,
    h.polymorphic, fun n hlow hhigh => ?_⟩
  rw [hgood.slots.counted n hlow hhigh,
    h.kept.good.slots.counted n (hext.slotFirstDynamicIndex ▸ hlow) hhigh, uses, uses, h.stackIndex]
  refine count_congr fun i hi => ?_
  rw [hext.open_iff, covers_congr (h.entries i hi).1 (h.entries i hi).2]

theorem Matches.of_sameStack (hm : Matches L o ρ f st) (h : SameStack o o') :
    Matches L o' ρ f st := by
  have hholds := hm.holds
  refine ⟨⟨fun i hi hheld => ?_, fun i hi hheld => ?_, ?_⟩, h.polymorphic.trans hm.reachable, ?_, ?_,
    hm.store⟩
  · rw [h.stackIndex] at hi
    rw [(h.entries i hi).2]
    exact hholds.typed i hi ((h.held i).mp hheld)
  · rw [h.stackIndex] at hi
    rw [(h.entries i hi).1]
    exact hholds.located i hi ((h.held i).mp hheld)
  · rw [h.slotFirstConstIndex]
    exact hholds.constants
  · rw [h.blockStackIndex, h.stackIndex]
    exact hm.stack
  · rw [h.stackFirstDynamicIndex]
    exact hm.locals

/-- Where a block ends, however it was left: the values `rest` below it are in their places, and its
result is in the slots that are found for it. -/
structure Finished (L : Activation) (o : M3Compilation) (types : List M3ValueType) (ρ : Nat → Value)
    (f : Frame) (rest : List Value) (st : M3State) : Prop where
  below : Matches L o ρ { f with stack := rest } st
  typed : Typed f.stack types
  results : ∀ v ∈ f.stack, ∀ slot, o.freeSlots v.type.valueType = some slot → Located L.sp st slot v

theorem Finished.of_sameStack (h : Finished L o types ρ f rest st) (hsame : SameStack o o') :
    Finished L o' types ρ f rest st :=
  ⟨h.below.of_sameStack hsame, h.typed, fun v hv slot hfree =>
    h.results v hv slot (hsame.freeSlots _ ▸ hfree)⟩

/-- The result of the block, as the compiler pushes it. -/
theorem Finished.pushed (h : Finished L o types ρ f rest st) (hgood : Good fn active o)
    (hpush : PushesResults types o o') : o'.getPC = o.getPC ∧ ∃ ρ', SameBelow o ρ ρ' ∧
      Matches L o' ρ' { f with stack := f.stack ++ rest } st := by
  have htyped := h.typed
  rcases hpush with ⟨rfl, rfl⟩ | ⟨type, slot, o₁, rfl, halloc, hpush⟩
  · have hnil : f.stack = [] := List.length_eq_zero_iff.mp htyped.length_eq
    refine ⟨rfl, ρ, .refl o' ρ, ?_⟩
    rw [hnil]
    exact h.below
  · obtain ⟨v, hv⟩ : ∃ v, f.stack = [v] := List.length_eq_one_iff.mp htyped.length_eq
    rw [hv] at htyped
    cases (List.cons.inj htyped).1
    have hpushed := push_allocated halloc hpush
    have hat := h.results v (hv ▸ List.mem_singleton_self v) slot (allocateSlots_iff.mp halloc).1
    refine ⟨hpushed.getPC_eq, Function.update ρ o.stackIndex v, .update hgood.slots.height, ?_⟩
    rw [hv]
    exact hpushed.matches h.below (Nat.le_trans hgood.frame.base_le hgood.slots.height)
      (hpushed.holds h.below.holds hat) h.below.store

/-! ## Inside a block -/

theorem M3Compilation.Entered.held_iff (h : Entered o blockType opcode o₁) (hi : i < o.stackIndex) :
    o₁.Held i ↔ o.Held i := by
  rw [Held, Held, h.stackFirstDynamicIndex, h.open_iff]
  exact or_congr_right ⟨fun hopen => hopen.2, fun hopen => ⟨.inl hi, hopen⟩⟩

theorem M3Compilation.Entered.holds_iff (h : Entered o blockType opcode o₁)
    (hn : n ≤ o.stackIndex) : HoldsBelow L o₁ n ρ st ↔ HoldsBelow L o n ρ st := by
  have hentry := fun i (hi : i < n) => h.entries i (Nat.lt_of_lt_of_le hi hn)
  have hheld := fun i (hi : i < n) => h.held_iff (Nat.lt_of_lt_of_le hi hn)
  constructor
  · intro hholds
    refine ⟨fun i hi hheld' => ?_, fun i hi hheld' => ?_, ?_⟩
    · rw [← (hentry i hi).2]
      exact hholds.typed i hi ((hheld i hi).mpr hheld')
    · rw [← (hentry i hi).1]
      exact hholds.located i hi ((hheld i hi).mpr hheld')
    · rw [← h.slotFirstConstIndex]
      exact hholds.constants
  · intro hholds
    refine ⟨fun i hi hheld' => ?_, fun i hi hheld' => ?_, ?_⟩
    · rw [(hentry i hi).2]
      exact hholds.typed i hi ((hheld i hi).mp hheld')
    · rw [(hentry i hi).1]
      exact hholds.located i hi ((hheld i hi).mp hheld')
    · rw [h.slotFirstConstIndex]
      exact hholds.constants

theorem M3Compilation.Entered.getPC_eq (h : Entered o blockType opcode o₁) :
    o₁.getPC = o.getPC := by
  rw [getPC, getPC, h.rt, h.page]

theorem M3Compilation.Entered.blockStackIndex (h : Entered o blockType opcode o₁) :
    o₁.block.blockStackIndex = o.stackIndex + blockType.rets.length := by
  rw [h.block]
  rfl

/-- A block begins with no values of its own. -/
theorem Matches.enter (hm : Matches L o ρ f st) (h : Entered o blockType opcode o₁)
    (hgood : Good fn active o) : Matches L o₁ ρ { f with stack := [] } st := by
  have hbase := Nat.le_trans hgood.frame.base_le hgood.slots.height
  have hindex := h.stackIndex
  have hholds := (h.holds_iff (Nat.le_refl _)).mpr hm.holds
  -- the place for the result holds nothing yet
  have hbelow : ∀ i < o₁.stackIndex, o₁.Held i → i < o.stackIndex := by
    intro i hi hheld
    rcases hheld with hlocal | hopen
    · rw [h.stackFirstDynamicIndex] at hlocal
      omega
    · have hside := ((h.open_iff i).mp hopen).1
      omega
  refine ⟨⟨fun i hi hheld => hholds.typed i (hbelow i hi hheld) hheld,
    fun i hi hheld => hholds.located i (hbelow i hi hheld) hheld, hholds.constants⟩, ?_, ?_, ?_,
    hm.store⟩
  · rw [h.block]
    exact hm.reachable
  · exact h.stackIndex.trans h.blockStackIndex.symm
  · rw [h.stackFirstDynamicIndex]
    exact hm.locals

/-- What is below a block that is entered is what was on the stack before it. -/
theorem Stacked.of_entered (h : Entered o blockType opcode o₁) (hgood : Good fn active o)
    {stack : List Value} (hstack : Stacked ρ o.block.blockStackIndex o.stackIndex stack)
    (hsame : SameBelow o₁ ρ ρ') : Stacked ρ' o.block.blockStackIndex o.stackIndex stack := by
  have hbase := hgood.frame.base_le
  refine hstack.congr fun i hlow hi => hsame i ?_ ?_
  · rw [h.stackFirstDynamicIndex]
    omega
  · rw [h.blockStackIndex]
    omega

theorem M3Compilation.Entered.sameBelow (h : Entered o blockType opcode o₁)
    (hgood : Good fn active o) (hsame : SameBelow o₁ ρ ρ') : SameBelow o ρ ρ' := by
  have hheight := hgood.slots.height
  intro i hlow hi
  refine hsame i ?_ ?_
  · rw [h.stackFirstDynamicIndex]
    exact hlow
  · rw [h.blockStackIndex]
    omega

theorem M3Compilation.Entered.finished (h : Entered o blockType opcode o₁)
    (hgood : Good fn active o) (hm : Matches L o ρ f st) (hsame : SameBelow o₁ ρ ρ')
    (hholds : HoldsBelow L o₁ o.stackIndex ρ' st') (htyped : Typed f'.stack blockType.rets)
    (hmvp : blockType.Mvp)
    (hresults : ∀ v ∈ f'.stack, Located L.sp st' (o₁.wasmStack o.stackIndex) v)
    (hlocals : ∀ i, f'.locals[i]? = if i < o₁.stackFirstDynamicIndex then some (ρ' i) else none)
    (hstore : st'.store = f'.store) : Finished L o blockType.rets ρ' f' f.stack st' := by
  refine ⟨⟨(h.holds_iff (Nat.le_refl _)).mp hholds, hm.reachable, .of_entered h hgood hm.stack hsame,
    h.stackFirstDynamicIndex ▸ hlocals, hstore⟩, htyped, fun v hv slot hfree => ?_⟩
  have hlength := htyped.length_eq
  have hpos := List.length_pos_of_mem hv
  have hmax := hmvp.rets
  obtain ⟨type, hone⟩ : ∃ type, blockType.rets = [type] := List.length_eq_one_iff.mp (by omega)
  obtain ⟨w, hw⟩ : ∃ w, f'.stack = [w] := List.length_eq_one_iff.mp (by omega)
  rw [hw] at hv
  cases List.mem_singleton.mp hv
  rw [hw, hone] at htyped
  cases (List.cons.inj htyped).1
  have hrecord := (h.record _ hone).2
  rw [hfree] at hrecord
  rw [Option.some.inj hrecord]
  exact hresults v (hw ▸ List.mem_singleton_self v)

theorem M3Compilation.Entered.exits {calls : Nat} (h : Entered o blockType opcode o₁)
    (hexits : Exits L calls o Φ) : Exits L calls o₁ Φ := by
  refine ⟨hexits.overflow, fun pc st hΦ => ?_⟩
  rcases hexits.continues pc st hΦ with ⟨c, hmem, hc⟩
  refine ⟨c, ?_, hc⟩
  rw [M3Compilation.scopes, h.block, h.outer]
  exact List.mem_cons_of_mem _ hmem

theorem M3Compilation.Entered.labels (h : Entered o blockType opcode o₁) :
    o₁.labels = (if opcode = .loop then blockType.args else blockType.rets) :: o.labels := by
  rw [M3Compilation.labels, M3Compilation.scopes, h.block, h.outer]
  rfl

/-! ## The code of a block -/

/-- The targets of branches inside a block that ends at `pc`. -/
def pushTarget (pc : PC) (targets : Nat → PC) : Nat → PC
  | 0 => pc
  | depth + 1 => targets depth

theorem getPC_leave {scope : M3CompilationScope} {outer : List M3CompilationScope}
    (houter : o.outer = scope :: outer) :
    ({ o.patchBranches.leaveScope with stackIndex := i } : M3Compilation).getPC = o.getPC := by
  rw [leave_eq houter]
  exact congrArg (PC.mk o.page) (lines_fillIn o o.page)

/-- The words that branches out of the block left are filled in at its end. -/
theorem Linked.of_leave {scope : M3CompilationScope} {outer : List M3CompilationScope}
    (houter : o.outer = scope :: outer) (hgood : Good fn active o)
    (h : Linked L targets { o.patchBranches.leaveScope with stackIndex := i }) :
    Linked L (pushTarget o.getPC targets) o := by
  rw [leave_eq houter] at h
  have hmem : o.block ∈ o.scopes := List.mem_cons_self ..
  refine ⟨fun pc w hw hne => ?_, h.constants, h.fits, h.small, fun depth c hc hdepth pc hpc => ?_⟩
  · have hnot : pc ∉ o.block.patches := by
      intro hin
      rw [hgood.code.unpatched _ hmem pc hin] at hw
      exact hne (Option.some.inj hw).symm
    exact h.shows pc w ((word_fillIn_of_not_mem o hnot).trans hw) hne
  · cases depth with
    | zero =>
      cases hc
      refine h.shows pc _ (word_fillIn o hpc fun pc' hpc' => ?_) fun heq => by cases heq
      exact ⟨_, hgood.code.unpatched _ hmem pc' hpc'⟩
    | succ depth =>
      refine h.branches depth c ?_ hdepth pc hpc
      rw [M3Compilation.scopes, houter] at hc
      exact hc

namespace M3Compilation.BlockRun

variable {statements : M3Compilation → Except CompileErr M3Compilation}

theorem scopes_eq (h : BlockRun fn active o blockType opcode statements o₁ o₂ o₃ o₄ o₅) :
    ∃ scope outer, o₄.outer = scope :: outer := by
  have houter := ((h.inside.trans h.keptResolved).trans h.keptUnwound).ext.outer
  rw [h.entered.outer] at houter
  cases hscopes : o₄.outer with
  | nil =>
    rw [hscopes] at houter
    cases houter
  | cons scope outer => exact ⟨scope, outer, rfl⟩

/-- Nothing is emitted after the result is in its place. -/
theorem getPC_eq (h : BlockRun fn active o blockType opcode statements o₁ o₂ o₃ o₄ o₅) :
    o₅.getPC = o₃.getPC := by
  rcases h.scopes_eq with ⟨scope, outer, houter⟩
  rw [h.leave, getPC_leave houter]
  rcases popTimes_code h.unwound with ⟨hrt, hpage⟩
  rw [getPC, getPC, hrt, hpage]

theorem linked (h : BlockRun fn active o blockType opcode statements o₁ o₂ o₃ o₄ o₅)
    (hlinked : Linked L targets o₅) : Linked L (pushTarget o₅.getPC targets) o₃ := by
  rcases h.scopes_eq with ⟨scope, outer, houter⟩
  have hpc : o₅.getPC = o₄.getPC := by rw [h.leave, getPC_leave houter]
  rw [hpc]
  rw [h.leave] at hlinked
  exact (hlinked.of_leave houter h.keptUnwound.good).of_ext h.keptUnwound.ext

/-- The scope of the block, after its statements. -/
theorem scope_eq (h : BlockRun fn active o blockType opcode statements o₁ o₂ o₃ o₄ o₅) :
    o₂.block.type = blockType ∧ o₂.block.exitStackIndex = o.stackIndex ∧
      o₂.block.opcode = opcode := by
  rw [h.inside.ext.block.same, h.entered.block]
  exact ⟨rfl, rfl, rfl⟩

/-- The last statement leaves the result on the stack, and it goes to its place. -/
theorem resolves (h : BlockRun fn active o blockType opcode statements o₁ o₂ o₃ o₄ o₅)
    (hgood : Good fn active o) (hmvp : blockType.Mvp) (hopcode : opcode ≠ .function)
    (hlinked : Linked L targets o₅) (hm : Matches L o ρ f st) (hsame : SameBelow o₁ ρ ρ')
    (hm' : Matches L o₂ ρ' f' st') (htyped : Typed f'.stack blockType.rets) :
    ∃ st'', L.Reaches o₂.getPC st' o₅.getPC st'' ∧
      Finished L o blockType.rets ρ' f' f.stack st'' := by
  rcases h.scope_eq with ⟨htype, hexit, hopcode'⟩
  have hresolve : o₂.resolveBlockResults o₂.block false = .ok o₃ := by
    rcases h.resolved with ⟨hpoly, -⟩ | ⟨-, hresolve⟩
    · rw [hm'.reachable] at hpoly
      cases hpoly
    · exact hresolve
  have hblock := h.inside.good.blockOf (List.mem_cons_self ..)
    (.inr (by rw [hopcode']; exact hopcode))
  have htake : f'.stack.take o₂.block.type.rets.length = f'.stack := by
    rw [htype, ← htyped.length_eq, List.take_length]
  have htyped₂ : Typed (f'.stack.take o₂.block.type.rets.length) o₂.block.type.rets := by
    rw [htake, htype]
    exact htyped
  rcases h.inside.good.resolveBlockResults_reaches hm' hblock (fun hnot => by cases hnot.2) htyped₂
    (h.linked hlinked) hresolve with ⟨st'', hreaches, hholds, hresults, hstore⟩
  rw [htake, hexit] at hresults
  rw [hexit] at hholds
  rw [h.getPC_eq]
  have hstart := h.entered.blockStackIndex
  refine ⟨st'', hreaches, h.entered.finished hgood hm hsame ?_ htyped hmvp (fun v hv => ?_) ?_
    (hstore.trans hm'.store)⟩
  · exact (HoldsBelow.ext_iff h.inside.ext (by omega)).mp hholds
  · have hpos := List.length_pos_of_mem hv
    rw [htyped.length_eq] at hpos
    rw [← (h.inside.ext.entries o.stackIndex (by omega)).1]
    exact hresults v hv
  · rw [← h.inside.ext.stackFirstDynamicIndex]
    exact hm'.locals

/-- A branch out of a block inside leads to where its result is in its place. -/
theorem arrives (h : BlockRun fn active o blockType opcode statements o₁ o₂ o₃ o₄ o₅)
    (hgood : Good fn active o) (hmvp : blockType.Mvp) (hloop : opcode ≠ .loop)
    (hm : Matches L o ρ f st) (hsame : SameBelow o₁ ρ ρ')
    (harrives : Arrives L o₁ o₁.block ρ' f' st') :
    Finished L o blockType.rets ρ' f' f.stack st' := by
  have hblock := h.entered.block
  have hholds := harrives.holds
  have htyped := harrives.typed
  have hresults := harrives.results
  rw [hblock] at hholds htyped hresults
  rw [BlockOf.label_rets hloop] at htyped
  exact h.entered.finished hgood hm hsame hholds htyped hmvp hresults harrives.locals harrives.store

/-- Branches out of the block to those around it. -/
theorem accepts_outer {depth : Nat}
    (h : BlockRun fn active o blockType opcode statements o₁ o₂ o₃ o₄ o₅) (hgood : Good fn active o)
    (haccepts : Accepts L targets o o' ρ Φ (.branch depth f)) :
    Accepts L (pushTarget pc targets) o₁ o'' ρ Φ (.branch (depth + 1) f) := by
  intro c hc
  have hc' : o.scopes[depth]? = some c := by
    rw [scopes, h.entered.block, h.entered.outer, List.getElem?_cons_succ] at hc
    exact hc
  have haccepts := haccepts c hc'
  by_cases hdepth : c.depth = 0
  · rw [if_pos hdepth] at haccepts ⊢
    exact haccepts
  · rw [if_neg hdepth] at haccepts ⊢
    have hblock := hgood.blockOf (List.mem_of_getElem? hc') (.inl hdepth)
    have hheight := hblock.height
    have hbelow := hblock.below
    have htop := hgood.slots.height
    intro ρ' st hsame harrives
    refine haccepts ρ' st (h.entered.sameBelow hgood hsame)
      ⟨(h.entered.holds_iff (by omega)).mp harrives.holds, harrives.typed, fun v hv => ?_, ?_,
        harrives.store⟩
    · have hexit := hblock.exit_lt harrives.typed hv
      rw [← (h.entered.entries _ (Nat.lt_of_lt_of_le hexit htop)).1]
      exact harrives.results v hv
    · rw [← h.entered.stackFirstDynamicIndex]
      exact harrives.locals

/-- What is asked for after the statements of a block, if what comes after the block is `hfinish`;
`hzero` is for a branch to the block itself. -/
theorem accepts (h : BlockRun fn active o blockType opcode statements o₁ o₂ o₃ o₄ o₅)
    (hgood : Good fn active o) (hmvp : blockType.Mvp) (hopcode : opcode ≠ .function)
    (hlinked : Linked L targets o₅) (hm : Matches L o ρ f st)
    (hleave : outcome₁.leave blockType.rets f.stack = some outcome)
    (haccepts : Accepts L targets o o' ρ Φ outcome)
    (hfinish : ∀ ρ' f' st', outcome = .normal { f' with stack := f'.stack ++ f.stack } →
      SameBelow o₁ ρ ρ' → Finished L o blockType.rets ρ' f' f.stack st' → L.Ends o₅.getPC st' Φ)
    (hzero : ∀ f', outcome₁ = .branch 0 f' →
      Accepts L (pushTarget o₅.getPC targets) o₁ o₂ ρ Φ (.branch 0 f')) :
    Accepts L (pushTarget o₅.getPC targets) o₁ o₂ ρ Φ outcome₁ := by
  cases outcome₁ with
  | normal f' =>
    rw [Outcome.leave] at hleave
    by_cases htyped : Typed f'.stack blockType.rets
    · rw [if_pos htyped] at hleave
      intro ρ' st' hsame hm'
      rcases h.resolves hgood hmvp hopcode hlinked hm hsame hm' htyped with
        ⟨st'', hreaches, hfinished⟩
      exact hreaches Φ (hfinish ρ' f' st'' (Option.some.inj hleave).symm hsame hfinished)
    · rw [if_neg htyped] at hleave
      cases hleave
  | branch depth f' =>
    cases depth with
    | zero => exact hzero f' rfl
    | succ depth =>
      cases hleave
      exact h.accepts_outer hgood haccepts
  | ret results σ =>
    cases hleave
    exact haccepts
  | trap e σ =>
    cases hleave
    exact haccepts

/-- A branch to a block that is no loop is the end of it. -/
theorem accepts_exit (h : BlockRun fn active o blockType opcode statements o₁ o₂ o₃ o₄ o₅)
    (hgood : Good fn active o) (hmvp : blockType.Mvp) (hloop : opcode ≠ .loop)
    (hm : Matches L o ρ f st)
    (hfinish : ∀ ρ' st', SameBelow o₁ ρ ρ' → Finished L o blockType.rets ρ' f' f.stack st' →
      L.Ends o₅.getPC st' Φ) :
    Accepts L (pushTarget o₅.getPC targets) o₁ o₂ ρ Φ (.branch 0 f') := by
  intro c hc
  cases hc
  have hdepth : o₁.block.depth ≠ 0 := by
    rw [h.entered.block]
    exact Nat.succ_ne_zero _
  have hopcode : o₁.block.opcode = opcode := by
    rw [h.entered.block]
    rfl
  rw [if_neg hdepth]
  intro ρ' st' hsame harrives
  rw [if_neg (by rw [hopcode]; exact hloop)]
  exact hfinish ρ' st' hsame (h.arrives hgood hmvp hloop hm hsame harrives)

end M3Compilation.BlockRun

/-! ## Blocks -/

/-- With the budget `n`, the code of a body does what the evaluator says, whatever block it is in. -/
def InstrsEnd (ctx : CompileContext) (L : Activation) (fn : M3FuncType) (wide : Nat → Bool)
    (stackRoom calls n : Nat) : Prop :=
  ∀ (is : List Instr) (active : List Nat) (targets : Nat → PC) (o o' : M3Compilation)
    (s : StackShape) (ρ : Nat → Value) (f : Frame) (st : M3State) (outcome : Outcome)
    (Φ : M3Ret → M3State → Prop), instrsMvp is → Good fn active o → Tracked wide stackRoom s o →
      instrsCounted ctx.module wide stackRoom s is = true → Matches L o ρ f st →
      Linked L targets o' → Exits L calls o Φ →
      evalInstrs ctx.module L.image.os n calls o.labels is f = some outcome →
      compileInstrs ctx is o = .ok o' → Accepts L targets o o' ρ Φ outcome → L.Ends o.getPC st Φ

theorem Accepts.mono {Ψ : M3Ret → M3State → Prop} (h : Accepts L targets o o' ρ Φ outcome)
    (himp : ∀ r st, Φ r st → Ψ r st) : Accepts L targets o o' ρ Ψ outcome := by
  have hends : ∀ {pc st}, L.Ends pc st Φ → L.Ends pc st Ψ := fun hends => Ends.mono hends himp
  cases outcome with
  | normal f => exact fun ρ' st hsame hm => hends (h ρ' st hsame hm)
  | ret results σ => exact fun st hreturned hstore => himp _ _ (h st hreturned hstore)
  | trap e σ => exact fun st hstore => himp _ _ (h st hstore)
  | branch depth f =>
    intro c hc
    have haccepts := h c hc
    by_cases hdepth : c.depth = 0
    · rw [if_pos hdepth] at haccepts ⊢
      exact fun st hreturned hstore => himp _ _ (haccepts st hreturned hstore)
    · rw [if_neg hdepth] at haccepts ⊢
      intro ρ' st hsame harrives
      have hgoes := haccepts ρ' st hsame harrives
      by_cases hloop : c.opcode = .loop
      · rw [if_pos hloop] at hgoes ⊢
        exact himp _ _ hgoes
      · rw [if_neg hloop] at hgoes ⊢
        exact hends hgoes

/-- The result of a block that ends is on the stack of the code after it. -/
theorem M3Compilation.BlockRun.pushes
    {statements : M3Compilation → Except CompileErr M3Compilation}
    (h : BlockRun fn active o blockType opcode statements o₁ o₂ o₃ o₄ o₅) (hgood : Good fn active o)
    (hpush : PushesResults blockType.rets o₅ o')
    (haccepts : Accepts L targets o o' ρ Φ (.normal { f' with stack := f'.stack ++ f.stack }))
    (hsame : SameBelow o₁ ρ ρ') (hfinished : Finished L o blockType.rets ρ' f' f.stack st') :
    L.Ends o₅.getPC st' Φ := by
  have hstack := h.left.sameStack hgood
  rcases (hfinished.of_sameStack hstack).pushed h.left.kept.good hpush with
    ⟨hpc, ρ'', hsame', hm'⟩
  rw [← hpc]
  exact haccepts ρ'' st'
    ((h.entered.sameBelow hgood hsame).trans (hsame'.of_ext h.left.kept.ext)) hm'

variable {ctx : CompileContext} {wide : Nat → Bool} {stackRoom calls fuel : Nat} {s : StackShape}
  {body other : List Instr}

theorem evalBlock_cases {M : WasmModule} {os : Nat → SysCalls} {labels : List (List M3ValueType)}
    (hmvp : blockType.Mvp)
    (h : evalInstr M os fuel calls labels (.block blockType body) f = some outcome) :
    ∃ n outcome₁, fuel = n + 1 ∧ evalInstrs M os n calls (blockType.rets :: labels) body
        { f with stack := [] } = some outcome₁ ∧
      outcome₁.leave blockType.rets f.stack = some outcome := by
  cases fuel with
  | zero =>
    rw [evalInstr] at h
    cases h
  | succ n =>
    rw [evalInstr] at h
    simp only [hmvp.args, List.length_nil, List.take_zero, List.drop_zero] at h
    rw [if_pos (show Typed [] [] from rfl)] at h
    rcases Option.bind_eq_some_iff.mp h with ⟨outcome₁, hbody, hleave⟩
    exact ⟨n, outcome₁, rfl, hbody, hleave⟩

/-- The code of a block that is no loop. -/
theorem M3Compilation.BlockRun.ends (hbody : InstrsEnd ctx L fn wide stackRoom calls fuel)
    (h : BlockRun fn active o blockType opcode (fun o => compileInstrs ctx body o) o₁ o₂ o₃ o₄ o₅)
    (hgood : Good fn active o) (ht : Tracked wide stackRoom (s.enter blockType) o₁)
    (hmvp : blockType.Mvp) (hbodyMvp : instrsMvp body)
    (hcounted : instrsCounted ctx.module wide stackRoom (s.enter blockType) body = true)
    (hopcode : opcode ≠ .function ∧ opcode ≠ .loop) (hm : Matches L o ρ f st)
    (hlinked : Linked L targets o₅) (hexits : Exits L calls o Φ)
    (heval : evalInstrs ctx.module L.image.os fuel calls (blockType.rets :: o.labels) body
      { f with stack := [] } = some outcome₁)
    (hleave : outcome₁.leave blockType.rets f.stack = some outcome)
    (haccepts : Accepts L targets o o' ρ Φ outcome)
    (hfinish : ∀ ρ' f' st', outcome = .normal { f' with stack := f'.stack ++ f.stack } →
      SameBelow o₁ ρ ρ' → Finished L o blockType.rets ρ' f' f.stack st' → L.Ends o₅.getPC st' Φ) :
    L.Ends o.getPC st Φ := by
  rw [← h.entered.getPC_eq]
  have hlabels := h.entered.labels
  rw [if_neg hopcode.2] at hlabels
  refine hbody body active _ o₁ o₂ _ ρ _ st outcome₁ Φ hbodyMvp h.good ht hcounted
    (hm.enter h.entered hgood) ((h.linked hlinked).of_ext h.keptResolved.ext) (h.entered.exits hexits)
    (hlabels ▸ heval) h.statements (h.accepts hgood hmvp hopcode.1 hlinked hm hleave haccepts hfinish
      fun f' heq => h.accepts_exit hgood hmvp hopcode.2 hm fun ρ' st' hsame hfinished => ?_)
  rw [heq] at hleave
  exact hfinish ρ' f' st' (Option.some.inj hleave).symm hsame hfinished

end WebAssemblyRuntime.Wasm3
