import WebAssemblyRuntime.Wasm3.BlockSimulation

/-!
# ConditionalSimulation — the code of conditionals

`op_If` goes on with the code after it, or at the word that was left for the `else`.  The `else` is
on a page of its own, and jumps back to where the other code goes on.
-/

namespace WebAssemblyRuntime.Wasm3

open M3Compilation

variable {L : Activation} {targets : Nat → PC} {fn : M3FuncType} {active : List Nat}
  {o o' o₁ o₂ o₃ o₄ : M3Compilation} {ρ ρ' : Nat → Value} {f : Frame} {st : M3State}
  {Φ : M3Ret → M3State → Prop} {pc : PC} {rest : List Value} {blockType : M3FuncType}
  {outcome outcome₁ : Outcome} {ctx : CompileContext} {wide : Nat → Bool}
  {stackRoom calls fuel : Nat} {s : StackShape} {body other : List Instr}

theorem SameBelow.of_sameStack (h : SameBelow o ρ ρ') (hsame : SameStack o o') :
    SameBelow o' ρ ρ' := by
  rw [SameBelow, hsame.stackFirstDynamicIndex, hsame.blockStackIndex]
  exact h

theorem SameStack.symm (h : SameStack o o') : SameStack o' o := by
  refine ⟨h.stackIndex.symm, fun i hi => ?_, fun i => (h.held i).symm,
    h.stackFirstDynamicIndex.symm, h.slotFirstConstIndex.symm, h.slotFirstDynamicIndex.symm,
    h.blockStackIndex.symm, h.polymorphic.symm, fun n hlow hhigh => ?_⟩
  · rcases h.entries i (h.stackIndex ▸ hi) with ⟨hslot, htype⟩
    exact ⟨hslot.symm, htype.symm⟩
  · exact (h.m3Slots n (h.slotFirstDynamicIndex ▸ hlow) hhigh).symm

theorem Linked.of_patch {target : PC} (h : Linked L targets (o.patch pc target))
    (hpc : o.rt.word pc = some .patch) : Linked L targets o :=
  ⟨h.shows.of_patch hpc, h.constants, h.fits, h.small, h.branches⟩

/-! ## The `else` -/

namespace M3Compilation.ElseRun

variable {statements : M3Compilation → Except CompileErr M3Compilation}
  {own left pushed jump : M3Compilation}

/-- The code after the conditional is on the page before, where the block before ended. -/
theorem getPC_eq
    (h : ElseRun fn active o pc blockType statements own o₁ o₂ o₃ o₄ left pushed jump o') :
    o'.getPC = o.getPC ∧ jump.rt.getPagePC o.page = o.getPC := by
  have hmem : o.page ∈ o.page :: active := List.mem_cons_self ..
  have hown := (h.acquired.ext.writes.others _ hmem).1
  have hpatch := (@pages_patch own pc own.getPC o.page).1
  have hrun := (h.run.left.kept.ext.writes.others _ hmem).1
  have hjump := ((h.kept.trans (h.kept.good.emitOp h.branch)).ext.writes.others _ hmem).1
  have hwritten := (h.written.ext.writes.others _ hmem).1
  refine ⟨?_, congrArg (PC.mk o.page) ((hjump.trans hrun).trans (hpatch.trans hown))⟩
  rw [h.finish, getPC, M3CodePages.getPagePC]
  simp only [releaseCompilationCodePage, M3CodePages.release_pages]
  exact congrArg (PC.mk o.page) ((hwritten.trans hrun).trans (hpatch.trans hown))

theorem linked (h : ElseRun fn active o pc blockType statements own o₁ o₂ o₃ o₄ left pushed jump o')
    (hlinked : Linked L targets o') :
    Linked L targets (jump.emit (.pc (jump.rt.getPagePC o.page))) ∧ Linked L targets left ∧
      Linked L targets o ∧ L.image.code pc = some (.pc own.getPC) := by
  rw [h.finish] at hlinked
  have hwritten := hlinked.of_release
  have hleft := hwritten.of_ext h.written.ext
  have hpatched := hleft.of_ext h.run.left.kept.ext
  exact ⟨hwritten, hleft, (hpatched.of_patch h.reserved).of_ext h.acquired.ext,
    hpatched.shows _ _ (word_patch h.reserved) fun heq => by cases heq⟩

theorem sameStack
    (h : ElseRun fn active o pc blockType statements own o₁ o₂ o₃ o₄ left pushed jump o') :
    SameStack o (own.patch pc own.getPC) ∧ SameStack o left := by
  have hpatched : SameStack o (own.patch pc own.getPC) :=
    (h.emitted.trans (emitted_patch own pc own.getPC)).sameStack
  exact ⟨hpatched, hpatched.trans (h.run.left.sameStack h.good)⟩

/-- Both branches end with the result in the same place. -/
theorem joins (h : ElseRun fn active o pc blockType statements own o₁ o₂ o₃ o₄ left pushed jump o')
    (hfinished : Finished L o blockType.rets ρ f rest st) :
    pushed.getPC = left.getPC ∧ ∃ ρ', SameBelow o ρ ρ' ∧
      Matches L pushed ρ' { f with stack := f.stack ++ rest } st ∧
      Matches L o' ρ' { f with stack := f.stack ++ rest } st := by
  rcases (hfinished.of_sameStack h.sameStack.2).pushed h.run.left.kept.good h.results with
    ⟨hpc, ρ', hsame, hm⟩
  refine ⟨hpc, ρ', hsame.of_sameStack h.sameStack.2.symm, hm, ?_⟩
  have hemitted : Emitted pushed o' := by
    rw [h.finish]
    exact (emitted_emitOp h.branch).trans (Emitted.trans (emitted_emit _) (.of_release _ _))
  exact hm.of_emitted hemitted

end M3Compilation.ElseRun

/-- The code of the `else`, which jumps back. -/
theorem M3Compilation.ElseRun.ends {own left pushed jump : M3Compilation}
    (hbody : InstrsEnd ctx L fn wide stackRoom calls fuel)
    (h : ElseRun fn active o pc blockType (fun o => compileInstrs ctx body o) own o₁ o₂ o₃ o₄ left
      pushed jump o') (ht : Tracked wide stackRoom (s.enter blockType) o₁) (hmvp : blockType.Mvp)
    (hbodyMvp : instrsMvp body)
    (hcounted : instrsCounted ctx.module wide stackRoom (s.enter blockType) body = true)
    (hm : Matches L o ρ f st) (hlinked : Linked L targets o')
    (hexits : Exits L calls (own.patch pc own.getPC) Φ)
    (heval : evalInstrs ctx.module L.image.os fuel calls
      (blockType.rets :: (own.patch pc own.getPC).labels) body { f with stack := [] } = some outcome₁)
    (hleave : outcome₁.leave blockType.rets f.stack = some outcome)
    (haccepts : Accepts L targets (own.patch pc own.getPC) o' ρ Φ outcome) :
    L.Ends own.getPC st Φ := by
  rcases h.linked hlinked with ⟨hwritten, hleft, -, -⟩
  have hsame := h.sameStack.1
  rw [← getPC_patch (o := own)]
  refine h.run.ends hbody h.good ht hmvp hbodyMvp hcounted ⟨by decide, by decide⟩
    (hm.of_sameStack hsame) hleft hexits heval hleave haccepts
    fun ρ' f' st' heq hbelow hfinished => ?_
  rcases h.joins (hfinished.of_sameStack hsame.symm) with ⟨hpc, ρ'', hbelow', hm', hm''⟩
  rw [heq] at haccepts
  have hends := haccepts ρ'' st'
    ((h.run.entered.sameBelow h.good hbelow).trans (hbelow'.of_sameStack hsame)) hm''
  rw [h.getPC_eq.1] at hends
  rw [← hpc]
  have hshows := hwritten.shows
  have htarget := hshows.emit fun heq => by cases heq
  rw [h.getPC_eq.2] at htarget
  have hop := h.kept.good.emitOp h.branch
  refine L.reaches_emitOp h.kept.good.room h.branch
    (hshows.of_writes (hop.good.emit (n := 4) hop.room).ext.writes) ?_ Φ hends
  simp only [stepOp, pcAt, htarget, Option.bind_eq_bind, Option.bind_some]

/-! ## The conditional -/

/-- What a conditional that ends in `o'` is, after the word for its `else`, in `o`: the code of the
`else`, or nothing. -/
def ElseOf (fn : M3FuncType) (active : List Nat) (ctx : CompileContext) (wide : Nat → Bool)
    (stackRoom : Nat) (s : StackShape) (o : M3Compilation) (pc : PC) (blockType : M3FuncType)
    (other : List Instr) (o' : M3Compilation) : Prop :=
  (∃ own o₁ o₂ o₃ o₄ left pushed jump, ElseRun fn active o pc blockType
      (fun o => compileInstrs ctx other o) own o₁ o₂ o₃ o₄ left pushed jump o' ∧
      Tracked wide stackRoom (s.enter blockType) o₁) ∨
    blockType.rets = [] ∧ other = [] ∧ o.rt.word pc = some .patch ∧ o' = o.patch pc o.getPC

/-- The `then` of a conditional goes on where the `else` does. -/
theorem ElseOf.joins (h : ElseOf fn active ctx wide stackRoom s o pc blockType other o')
    (hgood : Good fn active o) (hfinished : Finished L o blockType.rets ρ f rest st) :
    o'.getPC = o.getPC ∧ ∃ ρ', SameBelow o ρ ρ' ∧
      Matches L o' ρ' { f with stack := f.stack ++ rest } st := by
  rcases h with ⟨own, o₁, o₂, o₃, o₄, left, pushed, jump, hrun, -⟩ | ⟨hrets, -, -, rfl⟩
  · rcases hrun.joins hfinished with ⟨-, ρ', hsame, -, hm⟩
    exact ⟨hrun.getPC_eq.1, ρ', hsame, hm⟩
  · rcases hfinished.pushed hgood (.inl ⟨hrets, rfl⟩) with ⟨-, ρ', hsame, hm⟩
    exact ⟨getPC_patch, ρ', hsame, hm.of_emitted (emitted_patch _ _ _)⟩

theorem ElseOf.linked (h : ElseOf fn active ctx wide stackRoom s o pc blockType other o')
    (hlinked : Linked L targets o') : Linked L targets o := by
  rcases h with ⟨own, o₁, o₂, o₃, o₄, left, pushed, jump, hrun, -⟩ | ⟨-, -, hword, rfl⟩
  · exact (hrun.linked hlinked).2.2.1
  · exact hlinked.of_patch hword

theorem ElseOf.filled (h : ElseOf fn active ctx wide stackRoom s o pc blockType other o')
    (hlinked : Linked L targets o') : ∃ target, L.image.code pc = some (.pc target) := by
  rcases h with ⟨own, o₁, o₂, o₃, o₄, left, pushed, jump, hrun, -⟩ | ⟨-, -, hword, rfl⟩
  · exact ⟨_, (hrun.linked hlinked).2.2.2⟩
  · exact ⟨_, hlinked.shows _ _ (word_patch hword) fun heq => (by cases heq)⟩

/-- Where `op_If` goes if the condition is zero. -/
theorem ElseOf.ends {base : M3Compilation}
    (hbody : InstrsEnd ctx L fn wide stackRoom calls fuel)
    (h : ElseOf fn active ctx wide stackRoom s o pc blockType other o') (hbase : Good fn active base)
    (hext : Ext active base o) (hfresh : base.rt.word pc = none) (hmvp : blockType.Mvp)
    (hotherMvp : instrsMvp other)
    (hcounted : instrsCounted ctx.module wide stackRoom (s.enter blockType) other = true)
    (hm : Matches L o ρ f st) (hlinked : Linked L targets o') (hexits : Exits L calls base Φ)
    (heval : evalInstr ctx.module L.image.os (fuel + 1) calls base.labels (.block blockType other) f =
      some outcome) (haccepts : Accepts L targets base o' ρ Φ outcome) :
    ∃ target, L.image.code pc = some (.pc target) ∧ L.Ends target st Φ := by
  rcases evalBlock_cases hmvp heval with ⟨n, outcome₁, heq, hevalBody, hleave⟩
  cases Nat.succ.inj heq
  rcases h with ⟨own, o₁, o₂, o₃, o₄, left, pushed, jump, hrun, ht⟩ | ⟨-, rfl, hword, rfl⟩
  · have hext' : Ext active base (own.patch pc own.getPC) :=
      (hext.trans (hrun.acquired.ext.mono (List.subset_cons_self ..))).patch hfresh
    rw [← hext'.labels] at hevalBody
    exact ⟨own.getPC, (hrun.linked hlinked).2.2.2, hrun.ends hbody ht hmvp hotherMvp hcounted hm
      hlinked (hexits.of_ext hext') hevalBody hleave (haccepts.of_ext hbase hext' (.refl base ρ))⟩
  · refine ⟨o.getPC, hlinked.shows _ _ (word_patch hword) fun heq => (by cases heq), ?_⟩
    cases fuel with
    | zero =>
      rw [evalInstrs] at hevalBody
      cases hevalBody
    | succ fuel =>
      rw [evalInstrs] at hevalBody
      cases hevalBody
      rw [Outcome.leave] at hleave
      by_cases htyped : Typed [] blockType.rets
      · rw [if_pos htyped] at hleave
        cases hleave
        have hends := haccepts ρ st (.refl base ρ) (hm.of_emitted (emitted_patch _ _ _))
        rw [getPC_patch] at hends
        exact hends
      · rw [if_neg htyped] at hleave
        cases hleave

end WebAssemblyRuntime.Wasm3
