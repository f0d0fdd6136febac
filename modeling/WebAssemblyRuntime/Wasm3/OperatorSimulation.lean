import WebAssemblyRuntime.Wasm3.InstructionSimulation

/-!
# OperatorSimulation — the code of operators, and of straight-line code

An operator is compiled to the operation whose suffix says where its operands are.  The compiler may
choose a suffix with the operands the other way round, where the operator does not mind.
-/

namespace WebAssemblyRuntime.Wasm3

open M3Compilation
open Reasoning (bind_ok)

variable {L : Activation} {targets : Nat → PC} {fn : M3FuncType} {active : List Nat}
  {o o' o₁ o₂ o₃ o₄ : M3Compilation} {ρ ρ' : Nat → Value} {f f' : Frame} {st st' : M3State}
  {pc : PC} {i k sp slot room : Nat} {v : Value} {vs vs' rest : List Value} {σ : Store}
  {letters letters' : List Bool} {ws ws' : List CodeWord} {info : M3OpInfo} {form : Form}
  {Φ : M3Ret → M3State → Prop}

/-! ## Operands -/

/-- Operands as an operation has them: in the register, or in the slots that its words say. -/
inductive Operands (sp : Nat) (st : M3State) : List Bool → List CodeWord → List Value → Prop where
  | nil : Operands sp st [] [] []
  | register {letters : List Bool} {ws : List CodeWord} {v : Value} {vs : List Value}
      (h : Carries st.r0 v) (hrest : Operands sp st letters ws vs) :
      Operands sp st (true :: letters) ws (v :: vs)
  | slot {letters : List Bool} {ws : List CodeWord} {slot : Nat} {v : Value} {vs : List Value}
      (hne : slot ≠ d_m3Reg0SlotAlias) (h : Located sp st slot v)
      (hrest : Operands sp st letters ws vs) :
      Operands sp st (false :: letters) (.slot slot :: ws) (v :: vs)

/-- Fetching them skips their words. -/
theorem Operands.fetch {E : CodeImage} (h : Operands sp st letters ws vs)
    (hlines : Lines E.code pc ws) : ∃ xs,
      fetch E sp st (letters.zip (vs.map Value.type)) pc = some (xs, pc.after ws) ∧
        List.Forall₂ Carries xs vs := by
  induction h generalizing pc with
  | nil => exact ⟨[], rfl, .nil⟩
  | register hcarries hrest ih =>
    rcases ih hlines with ⟨xs, hfetch, hxs⟩
    refine ⟨st.r0 :: xs, ?_, .cons hcarries hxs⟩
    rw [List.map_cons, List.zip_cons_cons, Wasm3.fetch, hfetch]
    rfl
  | slot hne hat hrest ih =>
    rcases hlines with ⟨hslot, hlines⟩
    rcases ih hlines with ⟨xs, hfetch, hxs⟩
    refine ⟨_, ?_, .cons (carries_readSlot hat hne) hxs⟩
    rw [List.map_cons, List.zip_cons_cons, Wasm3.fetch, slotAt, hslot]
    simp only [hfetch, Option.bind_eq_bind, Option.bind_some]
    rfl

/-- The top of the stack as an operand: a word for its slot, or none if it is in the register. -/
theorem M3Compilation.Good.operand (h : Good fn active o) (hm : Matches L o ρ f st)
    (hstack : f.stack = v :: rest) (hroom : Writable active (room + 1) o)
    (ho : o.emitSlotNumOfStackTopAndPop = .ok o') (hshows : Shows L.image.code o'.rt) :
    ∃ ws, Operands L.sp st [o.isStackTopInRegister] ws [v] ∧ Lines L.image.code o.getPC ws ∧
      o'.getPC = o.getPC.after ws ∧ Shows L.image.code o.rt := by
  rcases hm.top hstack with ⟨k, hk, hblock, hv, -⟩
  have hlt : k < o.stackIndex := by omega
  have hheld : o.Held k := .inr (h.frame.open_of_le hblock)
  have hat := hm.holds.located k hlt hheld
  have hiff := h.isStackTopInRegister_iff hk hheld
  rw [hv] at hat
  rw [M3Compilation.emitSlotNumOfStackTopAndPop] at ho
  cases hin : o.isStackTopInRegister with
  | true =>
    rw [if_pos hin] at ho
    rw [hiff.mp hin, located_register] at hat
    rw [(pop_code ho).1] at hshows
    refine ⟨[], .register hat .nil, trivial, ?_, hshows⟩
    rw [getPC, (pop_code ho).1, (pop_code ho).2]
    rfl
  | false =>
    rw [if_neg (by rw [hin]; decide), getStackTopSlotNumber_eq hk] at ho
    have hne : o.wasmStack k ≠ d_m3Reg0SlotAlias := fun heq => by
      rw [hiff.mpr heq] at hin
      cases hin
    rw [(pop_code ho).1] at hshows
    rcases lines_emit [.slot (o.wasmStack k)] (hroom.mono (by simp)) hshows (by simp) with
      ⟨hlines, hshows'⟩
    refine ⟨_, .slot hne hat .nil, hlines, ?_, hshows'⟩
    rw [getPC, (pop_code ho).1, (pop_code ho).2]
    exact getPC_emit

/-! ## The choice of the suffix -/

section

variable (h : Good fn active o) (hreach : o.block.isPolymorphic = false)
include h hreach

end

/-! ## The operation -/

/-- The block is the one that it was, after a copy to the register. -/
theorem copyStackTopToRegister_block (h : o.copyStackTopToRegister = .ok o') :
    o'.block = o.block := by
  rcases copyStackTopToRegister_cases h with ⟨-, rfl⟩ | ⟨-, o₁, o₂, hpreserve, hemit, rfl⟩
  · rfl
  · have hemitted : Emitted o₁ (o₂.emit (.slot o₂.getStackTopSlotNumber)) :=
      (emitted_emitOp hemit).trans (emitted_emit _)
    have hblock : (o₂.emit (.slot o₂.getStackTopSlotNumber)).block = o₁.block := by rw [hemitted]
    exact hblock.trans (preserveRegister_block hpreserve)

/-- The top of the stack, in the register. -/
theorem Matches.copyStackTopToRegister (h : Good fn active o) (hm : Matches L o ρ f st)
    (hlinked : Linked L targets o') (hstack : f.stack = v :: rest)
    (ho : o.copyStackTopToRegister = .ok o') :
    ∃ st', L.Reaches o.getPC st o'.getPC st' ∧ Matches L o' ρ f st' ∧ Carries st'.r0 v := by
  rcases hm.top hstack with ⟨k, hk, hblock, hv, -⟩
  rcases h.copyStackTopToRegister ho with ⟨hkept, -, hindex, -⟩
  rcases h.copyStackTopToRegister_moves hm.reachable hlinked hm.holds hk hblock ho with
    ⟨st', hreaches, hholds, hstore, hcarries⟩
  have hblock' := copyStackTopToRegister_block ho
  refine ⟨st', hreaches, ⟨hholds, ?_, ?_, ?_, hstore.trans hm.store⟩, hv ▸ hcarries⟩
  · rw [hblock']
    exact hm.reachable
  · rw [hblock', hindex]
    exact hm.stack
  · rw [hkept.ext.stackFirstDynamicIndex]
    exact hm.locals

end WebAssemblyRuntime.Wasm3
