import Mathlib.Logic.Function.Basic
import WebAssemblyRuntime.Wasm3.LinearMemory

/-!
# Execution — the operations of compiled code

An operation reads its immediates from the lines after it and goes on to the next operation or
jumps; `op_Loop` and `op_Call` run code of their own in a nested call.  A step is one operation,
and `run` nests as the C code does.  Integer code only: the floating-point register is left out, and
`op_Compile` finds its function compiled, as it is when a module was compiled before it runs; the
`op_Call` that it then makes of itself does the same.
-/

namespace WebAssemblyRuntime.Wasm3

/-- What an operation works on besides the code: the slots of the stack, by their place in it, and
`_r0`. -/
structure M3State where
  slots : Nat → BitVec 32
  r0 : BitVec 64
  store : Store

/-- What a call of an operation returns: `m3Err_none`, the id of a loop to go on with, or a trap. -/
inductive M3Ret where
  | done
  | continueLoop (loopId : PC)
  | trap (e : M3Err)
  deriving DecidableEq, Repr

/-- The fields of an `M3Function` that running it reads. -/
structure CompiledFunction where
  compiled : PC
  maxStackSlots : Nat
  numRetAndArgSlots : Nat
  /-- `numLocalBytes`, in slots. -/
  numLocalSlots : Nat
  constants : List (BitVec 32)

/-- What stays the same while code runs. -/
structure CodeImage where
  code : PC → Option CodeWord
  functions : Nat → Option CompiledFunction
  /-- `_mem->maxStack`, in slots. -/
  maxStack : Nat
  os : Nat → SysCalls

def d_m3MaxCallDepth : Nat := 1000

/-! ## Slots -/

/-- `GetTypeNumSlots` of an integer type. -/
def IntType.numSlots : IntType → Nat
  | .i32 => 1
  | .i64 => 2

/-- `* (TYPE *) (slots + n)`, on a little-endian machine. -/
def readSlot (t : IntType) (slots : Nat → BitVec 32) (n : Nat) : BitVec t.width :=
  match t with
  | .i32 => slots n
  | .i64 => slots (n + 1) ++ slots n

/-- `* (TYPE *) (slots + n) = v`. -/
def writeSlot (t : IntType) (slots : Nat → BitVec 32) (n : Nat) (v : BitVec t.width) :
    Nat → BitVec 32 :=
  match t with
  | .i32 => Function.update slots n v
  | .i64 => Function.update (Function.update slots n (v.setWidth 32)) (n + 1)
      (v.extractLsb' 32 32)

theorem IntType.numSlots_pos (t : IntType) : 0 < t.numSlots := by cases t <;> decide

/-- A 64-bit number is its two halves. -/
theorem halves_append (v : BitVec 64) : v.extractLsb' 32 32 ++ v.setWidth 32 = v := by
  apply BitVec.eq_of_getLsbD_eq
  intro i hi
  rw [BitVec.getLsbD_append]
  by_cases hlow : i < 32
  · simp [hlow]
  · have hhigh : i - 32 < 32 := by omega
    simp [hlow, hhigh, Nat.add_sub_cancel' (Nat.le_of_not_lt hlow)]

theorem readSlot_writeSlot (t : IntType) (slots : Nat → BitVec 32) (n : Nat) (v : BitVec t.width) :
    readSlot t (writeSlot t slots n v) n = v := by
  cases t with
  | i32 => exact Function.update_self ..
  | i64 =>
    rw [readSlot, writeSlot, Function.update_self, Function.update_of_ne (by omega),
      Function.update_self]
    exact halves_append v

theorem writeSlot_of_not {t : IntType} {slots : Nat → BitVec 32} {n i : Nat} {v : BitVec t.width}
    (h : i < n ∨ n + t.numSlots ≤ i) : writeSlot t slots n v i = slots i := by
  cases t with
  | i32 =>
    rw [IntType.numSlots] at h
    exact Function.update_of_ne (by omega) ..
  | i64 =>
    rw [IntType.numSlots] at h
    rw [writeSlot, Function.update_of_ne (by omega), Function.update_of_ne (by omega)]

/-- Reading looks at the slots of its type only. -/
theorem readSlot_congr {t : IntType} {slots slots' : Nat → BitVec 32} {n : Nat}
    (h : ∀ i, n ≤ i → i < n + t.numSlots → slots i = slots' i) :
    readSlot t slots n = readSlot t slots' n := by
  cases t with
  | i32 => exact h n (Nat.le_refl n) (Nat.lt_succ_self n)
  | i64 =>
    rw [readSlot, readSlot, h n (by omega) (by rw [IntType.numSlots]; omega),
      h (n + 1) (by omega) (by rw [IntType.numSlots]; omega)]

theorem readSlot_writeSlot_of_disjoint {t t' : IntType} {slots : Nat → BitVec 32} {n n' : Nat}
    {v : BitVec t.width} (h : n' + t'.numSlots ≤ n ∨ n + t.numSlots ≤ n') :
    readSlot t' (writeSlot t slots n v) n' = readSlot t' slots n' :=
  readSlot_congr fun i hlow hhigh => writeSlot_of_not (by omega)

/-! ## One operation -/

/-- The operations with operands, the top of the stack first; the register is not yet cut to its
TYPE.  `offset` is the last immediate of a load or a store. -/
def M3Operator.exec (op : M3Operator) (operands : List (BitVec 64)) (offset : BitVec 32)
    (σ : Store) : Option (Except M3Err (Option (BitVec 64) × Store)) :=
  match op, operands with
  | .unary t signed NAME, [x] => some (.ok (some (unaryOp signed NAME (x.setWidth t.width)), σ))
  | .binary t signed NAME, [y, x] =>
      some ((binaryOp signed NAME (x.setWidth t.width) (y.setWidth t.width)).map fun r => (some r, σ))
  | .wrapI64, [x] => some (.ok (some (opWrapI64 x), σ))
  | .extend signed, [x] => some (.ok (some (opExtend signed (x.setWidth 32)), σ))
  | .select t, [c, y, x] =>
      some (.ok (some (toReg true ((if c.setWidth 32 ≠ (0 : BitVec 32) then x else y).setWidth
        t.width)), σ))
  | .load t SRC, [x] => some ((σ.load t SRC (x.setWidth 32) offset).map fun r => (some r, σ))
  | .store t DEST, [y, x] =>
      some ((σ.store DEST (y.setWidth t.width) (x.setWidth 32) offset).map fun σ' => (none, σ'))
  | _, _ => none

/-- Whether an offset follows the operands. -/
def M3Operator.takesOffset : M3Operator → Bool
  | .load .. | .store .. => true
  | _ => false

/-- What an operation does next. -/
inductive Flow where
  | next (pc : PC) (st : M3State)
  | finish (r : M3Ret) (st : M3State)
  /-- To run the code after `op_Loop` in a call of its own. -/
  | loop (st : M3State)
  | call (callPC : PC) (sp : Nat) (returnPC : PC) (st : M3State)

section

variable (E : CodeImage)

def slotAt (pc : PC) : Option Nat :=
  match E.code pc with
  | some (.slot n) => some n
  | _ => none

def pcAt (pc : PC) : Option PC :=
  match E.code pc with
  | some (.pc target) => some target
  | _ => none

def word32At (pc : PC) : Option (BitVec 32) :=
  match E.code pc with
  | some (.word32 v) => some v
  | _ => none

def word64At (pc : PC) : Option (BitVec 64) :=
  match E.code pc with
  | some (.word64 v) => some v
  | _ => none

def globalAt (pc : PC) : Option Nat :=
  match E.code pc with
  | some (.global i) => some i
  | _ => none

def functionAt (pc : PC) : Option CompiledFunction :=
  match E.code pc with
  | some (.function i) => E.functions i
  | _ => none

/-- The operands of an operation and the line after them: the ones in the register take none. -/
def fetch (sp : Nat) (st : M3State) : List (Bool × IntType) → PC → Option (List (BitVec 64) × PC)
  | [], pc => some ([], pc)
  | (true, _) :: rest, pc => do
      let (operands, pc) ← fetch sp st rest pc
      some (st.r0 :: operands, pc)
  | (false, t) :: rest, pc => do
      let n ← slotAt E pc
      let (operands, pc) ← fetch sp st rest pc.next
      some ((readSlot t st.slots (sp + n)).setWidth 64 :: operands, pc)

/-- The offset of a load or a store. -/
def fetchOffset (op : M3Operator) (pc : PC) : Option (BitVec 32 × PC) :=
  if op.takesOffset then (word32At E pc).map fun offset => (offset, pc.next) else some (0, pc)

/-- An `i32` condition in the register or in a slot. -/
def fetchCondition (sp : Nat) (st : M3State) (form : Form) (pc : PC) : Option (Bool × PC) := do
  match ← fetch E sp st (form.letters.map fun letter => (letter, .i32)) pc with
  | ([c], pc) => some (c.setWidth 32 ≠ (0 : BitVec 32), pc)
  | _ => none

/-- `op_Entry` clears the locals and copies the constants to the slots after them. -/
def enterFrame (function : CompiledFunction) (sp : Nat) (slots : Nat → BitVec 32) :
    Nat → BitVec 32 := fun i =>
  let locals := sp + function.numRetAndArgSlots
  let constants := locals + function.numLocalSlots
  if locals ≤ i ∧ i < constants then 0
  else if constants ≤ i ∧ i < constants + function.constants.length then
    function.constants.getD (i - constants) 0
  else slots i

/-- One operation, with `pc` at its first immediate. -/
def stepOp (sp : Nat) (o : M3Op) (pc : PC) (st : M3State) : Option Flow :=
  match o with
  | .null => none
  | .operator op form => do
      let (operands, pc) ← fetch E sp st (form.letters.zip op.operandTypes) pc
      let (offset, pc) ← fetchOffset E op pc
      match ← op.exec operands offset st.store with
      | .error e => some (.finish (.trap e) st)
      | .ok (r, σ) => some (.next pc { st with r0 := r.getD st.r0, store := σ })
  | .entry => do
      let function ← functionAt E pc
      if sp + function.maxStackSlots < E.maxStack then
        some (.next pc.next { st with r0 := 0, slots := enterFrame function sp st.slots })
      else some (.finish (.trap .trapStackOverflow) st)
  | .call => do
      let callPC ← pcAt E pc
      let stackOffset ← slotAt E pc.next
      some (.call callPC (sp + stackOffset) pc.next.next st)
  | .compile => do
      let function ← functionAt E pc
      let stackOffset ← slotAt E pc.next
      some (.call function.compiled (sp + stackOffset) pc.next.next st)
  | .loop => some (.loop { st with r0 := 0 })
  | .branch => do
      let target ← pcAt E pc
      some (.next target st)
  | .branchTable => do
      let n ← slotAt E pc
      let numTargets ← word32At E pc.next
      let branchIndex := min (st.slots (sp + n)).toNat numTargets.toNat
      let target ← pcAt E { pc with line := pc.line + 2 + branchIndex }
      some (.next target st)
  | .continueLoop => do
      let loopId ← pcAt E pc
      some (.finish (.continueLoop loopId) st)
  | .continueLoopIf => do
      let loopId ← pcAt E pc
      if st.r0.setWidth 32 ≠ (0 : BitVec 32) then some (.finish (.continueLoop loopId) st)
      else some (.next pc.next st)
  | .ret => some (.finish .done st)
  | .unreachable => some (.finish (.trap .trapUnreachable) st)
  | .ifOp form => do
      let (condition, pc) ← fetchCondition E sp st form pc
      let elsePC ← pcAt E pc
      some (.next (if condition then pc.next else elsePC) st)
  | .branchIf form => do
      let (condition, pc) ← fetchCondition E sp st form pc
      let branch ← pcAt E pc
      some (.next (if condition then branch else pc.next) st)
  | .branchIfPrologue form => do
      let (condition, pc) ← fetchCondition E sp st form pc
      let branch ← pcAt E pc
      some (.next (if condition then pc.next else branch) st)
  | .const32 => do
      let value ← word32At E pc
      let n ← slotAt E pc.next
      some (.next pc.next.next { st with slots := writeSlot .i32 st.slots (sp + n) value })
  | .const64 => do
      let value ← word64At E pc
      let n ← slotAt E pc.next
      some (.next pc.next.next { st with slots := writeSlot .i64 st.slots (sp + n) value })
  | .copySlot t => do
      let dst ← slotAt E pc
      let src ← slotAt E pc.next
      some (.next pc.next.next
        { st with slots := writeSlot t st.slots (sp + dst) (readSlot t st.slots (sp + src)) })
  | .preserveCopySlot t => do
      let dest ← slotAt E pc
      let src ← slotAt E pc.next
      let preserve ← slotAt E pc.next.next
      let slots := writeSlot t st.slots (sp + preserve) (readSlot t st.slots (sp + dest))
      some (.next pc.next.next.next
        { st with slots := writeSlot t slots (sp + dest) (readSlot t slots (sp + src)) })
  | .setSlot t => do
      let n ← slotAt E pc
      some (.next pc.next
        { st with slots := writeSlot t st.slots (sp + n) (st.r0.setWidth t.width) })
  | .preserveSetSlot t => do
      let n ← slotAt E pc
      let preserve ← slotAt E pc.next
      let slots := writeSlot t st.slots (sp + preserve) (readSlot t st.slots (sp + n))
      some (.next pc.next.next
        { st with slots := writeSlot t slots (sp + n) (st.r0.setWidth t.width) })
  | .setRegister t => do
      let n ← slotAt E pc
      some (.next pc.next { st with r0 := toReg true (readSlot t st.slots (sp + n)) })
  | .getGlobal t => do
      let i ← globalAt E pc
      let n ← slotAt E pc.next
      some (.next pc.next.next
        { st with slots := writeSlot t st.slots (sp + n) (st.store.getGlobal t i) })
  | .setGlobal t => do
      let i ← globalAt E pc
      some (.next pc.next { st with store := st.store.setGlobal t i (st.r0.setWidth t.width) })
  | .setGlobalSlot t => do
      let i ← globalAt E pc
      let n ← slotAt E pc.next
      some (.next pc.next.next
        { st with store := st.store.setGlobal t i (readSlot t st.slots (sp + n)) })
  | .memSize => some (.next pc { st with r0 := st.store.memSize })
  | .memGrow =>
      let grown := st.store.memGrow E.os (st.r0.setWidth 32)
      some (.next pc { st with r0 := grown.1, store := grown.2 })
  | .memCopy => do
      let source ← slotAt E pc
      let destination ← slotAt E pc.next
      match st.store.memCopy (st.r0.setWidth 32) (st.slots (sp + source))
        (st.slots (sp + destination)) with
      | .error e => some (.finish (.trap e) st)
      | .ok σ => some (.next pc.next.next { st with store := σ })
  | .memFill => do
      let byte ← slotAt E pc
      let destination ← slotAt E pc.next
      match st.store.memFill (st.r0.setWidth 32) (st.slots (sp + byte))
        (st.slots (sp + destination)) with
      | .error e => some (.finish (.trap e) st)
      | .ok σ => some (.next pc.next.next { st with store := σ })

/-- The operation at `pc`. -/
def step (sp : Nat) (pc : PC) (st : M3State) : Option Flow :=
  match E.code pc with
  | some (.op o) => stepOp E sp o pc.next st
  | _ => none

/-- A chain of operations until it returns, with a budget of operations; `depth` is
`rt->callDepth`, which every call puts back. -/
def run : Nat → PC → Nat → Nat → M3State → Option (M3Ret × M3State)
  | 0, _, _, _, _ => none
  | fuel + 1, pc, sp, depth, st => do
    match ← step E sp pc st with
    | .next pc' st' => run fuel pc' sp depth st'
    | .finish r st' => some (r, st')
    | .loop st' =>
        let (r, st'') ← run fuel pc.next sp depth st'
        -- `while (r == _pc)`: the registers are cleared for each iteration
        if r = .continueLoop pc.next then run fuel pc sp depth st'' else some (r, st'')
    | .call callPC sp' returnPC st' =>
        if d_m3MaxCallDepth ≤ depth then some (.trap .trapStackOverflow, st')
        else do
          let (r, st'') ← run fuel callPC sp' (depth + 1) { st' with r0 := 0 }
          if r = .done then run fuel returnPC sp depth { st'' with r0 := st'.r0 }
          else some (r, st'')

/-! ## Runs -/

variable {E} {sp depth : Nat} {pc pc' : PC} {st st' : M3State} {Φ Ψ : M3Ret → M3State → Prop}

theorem run_succ {fuel : Nat} {result : M3Ret × M3State}
    (h : run E fuel pc sp depth st = some result) :
    run E (fuel + 1) pc sp depth st = some result := by
  induction fuel generalizing pc sp depth st result with
  | zero => cases h
  | succ fuel ih =>
    rw [run] at h ⊢
    rcases Option.bind_eq_some_iff.mp h with ⟨flow, hstep, hflow⟩
    rw [hstep]
    cases flow with
    | next pc' st' => exact ih hflow
    | finish r st' => exact hflow
    | loop st' =>
      rcases Option.bind_eq_some_iff.mp hflow with ⟨⟨r, st''⟩, hbody, hrest⟩
      rw [Option.bind_eq_bind, Option.bind_some]
      refine Option.bind_eq_some_iff.mpr ⟨(r, st''), ih hbody, ?_⟩
      simp only at hrest ⊢
      by_cases hr : r = .continueLoop pc.next
      · rw [if_pos hr] at hrest ⊢
        exact ih hrest
      · rw [if_neg hr] at hrest ⊢
        exact hrest
    | call callPC sp' returnPC st' =>
      simp only [Option.bind_eq_bind, Option.bind_some] at hflow ⊢
      by_cases hdepth : d_m3MaxCallDepth ≤ depth
      · rw [if_pos hdepth] at hflow ⊢
        exact hflow
      · rw [if_neg hdepth] at hflow ⊢
        rcases Option.bind_eq_some_iff.mp hflow with ⟨⟨r, st''⟩, hcallee, hrest⟩
        refine Option.bind_eq_some_iff.mpr ⟨(r, st''), ih hcallee, ?_⟩
        simp only at hrest ⊢
        by_cases hr : r = .done
        · rw [if_pos hr] at hrest ⊢
          exact ih hrest
        · rw [if_neg hr] at hrest ⊢
          exact hrest

theorem run_le {fuel fuel' : Nat} {result : M3Ret × M3State} (hle : fuel ≤ fuel')
    (h : run E fuel pc sp depth st = some result) : run E fuel' pc sp depth st = some result := by
  induction hle with
  | refl => exact h
  | step _ ih => exact run_succ ih

/-- With enough fuel the code at `pc` returns, and what it returns meets `Φ`. -/
def Ends (E : CodeImage) (pc : PC) (sp depth : Nat) (st : M3State)
    (Φ : M3Ret → M3State → Prop) : Prop :=
  ∃ fuel r st', run E fuel pc sp depth st = some (r, st') ∧ Φ r st'

theorem Ends.mono (h : Ends E pc sp depth st Φ) (himp : ∀ r st', Φ r st' → Ψ r st') :
    Ends E pc sp depth st Ψ := by
  rcases h with ⟨fuel, r, st', hrun, hΦ⟩
  exact ⟨fuel, r, st', hrun, himp r st' hΦ⟩

theorem Ends.next (hstep : step E sp pc st = some (.next pc' st'))
    (h : Ends E pc' sp depth st' Φ) : Ends E pc sp depth st Φ := by
  rcases h with ⟨fuel, r, st'', hrun, hΦ⟩
  refine ⟨fuel + 1, r, st'', ?_, hΦ⟩
  rw [run, hstep]
  exact hrun

theorem Ends.finish {r : M3Ret} (hstep : step E sp pc st = some (.finish r st'))
    (h : Φ r st') : Ends E pc sp depth st Φ := by
  refine ⟨1, r, st', ?_, h⟩
  rw [run, hstep]
  rfl

/-- A loop is left with whatever its body returns, unless that is its own id. -/
theorem Ends.loop (hstep : step E sp pc st = some (.loop st'))
    (h : Ends E pc.next sp depth st' fun r st'' =>
      if r = .continueLoop pc.next then Ends E pc sp depth st'' Φ else Φ r st'') :
    Ends E pc sp depth st Φ := by
  rcases h with ⟨fuel, r, again, hbody, hrest⟩
  by_cases hr : r = .continueLoop pc.next
  · rw [if_pos hr] at hrest
    rcases hrest with ⟨fuel', r', final, hrun, hΦ⟩
    refine ⟨max fuel fuel' + 1, r', final, ?_, hΦ⟩
    rw [run, hstep, Option.bind_eq_bind, Option.bind_some]
    refine Option.bind_eq_some_iff.mpr
      ⟨(r, again), run_le (Nat.le_max_left fuel fuel') hbody, ?_⟩
    simp only
    rw [if_pos hr]
    exact run_le (Nat.le_max_right fuel fuel') hrun
  · rw [if_neg hr] at hrest
    refine ⟨fuel + 1, r, again, ?_, hrest⟩
    rw [run, hstep, Option.bind_eq_bind, Option.bind_some]
    refine Option.bind_eq_some_iff.mpr ⟨(r, again), hbody, ?_⟩
    simp only
    rw [if_neg hr]

/-- A call goes on after it if the callee returns without a trap, with the caller's register. -/
theorem Ends.call {callPC returnPC : PC} {sp' : Nat}
    (hstep : step E sp pc st = some (.call callPC sp' returnPC st'))
    (hdepth : d_m3MaxCallDepth ≤ depth → Φ (.trap .trapStackOverflow) st')
    (h : Ends E callPC sp' (depth + 1) { st' with r0 := 0 } fun r st'' =>
      if r = .done then Ends E returnPC sp depth { st'' with r0 := st'.r0 } Φ else Φ r st'') :
    Ends E pc sp depth st Φ := by
  by_cases hlimit : d_m3MaxCallDepth ≤ depth
  · refine ⟨1, _, st', ?_, hdepth hlimit⟩
    rw [run, hstep]
    exact if_pos hlimit
  · rcases h with ⟨fuel, r, back, hcallee, hrest⟩
    by_cases hr : r = .done
    · rw [if_pos hr] at hrest
      rcases hrest with ⟨fuel', r', final, hrun, hΦ⟩
      refine ⟨max fuel fuel' + 1, r', final, ?_, hΦ⟩
      rw [run, hstep]
      refine (if_neg hlimit).trans (Option.bind_eq_some_iff.mpr
        ⟨(r, back), run_le (Nat.le_max_left fuel fuel') hcallee, ?_⟩)
      simp only
      rw [if_pos hr]
      exact run_le (Nat.le_max_right fuel fuel') hrun
    · rw [if_neg hr] at hrest
      refine ⟨fuel + 1, r, back, ?_, hrest⟩
      rw [run, hstep]
      refine (if_neg hlimit).trans (Option.bind_eq_some_iff.mpr ⟨(r, back), hcallee, ?_⟩)
      simp only
      rw [if_neg hr]

/-- The state a step leaves behind. -/
def Flow.state : Flow → M3State
  | .next _ st | .finish _ st | .loop st | .call _ _ _ st => st

/-- An operation writes to no slot below its stack pointer, and calls at it or above. -/
theorem stepOp_below {o : M3Op} {flow : Flow} (h : stepOp E sp o pc st = some flow) :
    (∀ i < sp, flow.state.slots i = st.slots i) ∧
      ∀ callPC sp' returnPC st', flow = .call callPC sp' returnPC st' → sp ≤ sp' := by
  cases o <;> simp only [stepOp, Option.bind_eq_bind, Option.bind_eq_some_iff] at h
  case null => cases h
  case operator op form =>
    rcases h with ⟨⟨operands, pc⟩, hfetch, ⟨offset, pc'⟩, hoffset, result, hexec, hflow⟩
    cases result <;> cases hflow <;> exact ⟨fun _ _ => rfl, nofun⟩
  case entry =>
    rcases h with ⟨function, hfunction, hflow⟩
    by_cases hroom : sp + function.maxStackSlots < E.maxStack
    · rw [if_pos hroom] at hflow
      cases hflow
      refine ⟨fun i hi => ?_, nofun⟩
      simp only [Flow.state, enterFrame]
      rw [if_neg (by omega), if_neg (by omega)]
    · rw [if_neg hroom] at hflow
      cases hflow
      exact ⟨fun _ _ => rfl, nofun⟩
  case call =>
    rcases h with ⟨callPC, hpc, stackOffset, hoffset, hflow⟩
    cases hflow
    refine ⟨fun _ _ => rfl, fun _ _ _ _ heq => ?_⟩
    cases heq
    exact Nat.le_add_right _ _
  case compile =>
    rcases h with ⟨function, hpc, stackOffset, hoffset, hflow⟩
    cases hflow
    refine ⟨fun _ _ => rfl, fun _ _ _ _ heq => ?_⟩
    cases heq
    exact Nat.le_add_right _ _
  case continueLoopIf =>
    rcases h with ⟨loopId, hpc, hflow⟩
    split at hflow <;> cases hflow <;> exact ⟨fun _ _ => rfl, nofun⟩
  case const32 | const64 | copySlot | getGlobal =>
    rcases h with ⟨a, ha, b, hb, hflow⟩
    cases hflow
    refine ⟨fun i hi => ?_, nofun⟩
    simp only [Flow.state]
    exact writeSlot_of_not (by omega)
  case setSlot =>
    rcases h with ⟨a, ha, hflow⟩
    cases hflow
    refine ⟨fun i hi => ?_, nofun⟩
    simp only [Flow.state]
    exact writeSlot_of_not (by omega)
  case preserveCopySlot =>
    rcases h with ⟨a, ha, b, hb, c, hc, hflow⟩
    cases hflow
    refine ⟨fun i hi => ?_, nofun⟩
    simp only [Flow.state]
    rw [writeSlot_of_not (by omega), writeSlot_of_not (by omega)]
  case preserveSetSlot =>
    rcases h with ⟨a, ha, b, hb, hflow⟩
    cases hflow
    refine ⟨fun i hi => ?_, nofun⟩
    simp only [Flow.state]
    rw [writeSlot_of_not (by omega), writeSlot_of_not (by omega)]
  case memCopy | memFill =>
    rcases h with ⟨a, ha, b, hb, hflow⟩
    split at hflow <;> cases hflow <;> exact ⟨fun _ _ => rfl, nofun⟩
  all_goals grind [Flow.state]

theorem run_below {fuel : Nat} {r : M3Ret} (h : run E fuel pc sp depth st = some (r, st')) :
    ∀ i < sp, st'.slots i = st.slots i := by
  induction fuel generalizing pc sp depth st st' r with
  | zero => cases h
  | succ fuel ih =>
    rw [run] at h
    rcases Option.bind_eq_some_iff.mp h with ⟨flow, hstep, hflow⟩
    have hbelow : (∀ i < sp, flow.state.slots i = st.slots i) ∧
        ∀ callPC sp' returnPC st', flow = .call callPC sp' returnPC st' → sp ≤ sp' := by
      rw [step] at hstep
      split at hstep
      · exact stepOp_below hstep
      · cases hstep
    intro i hi
    rw [← hbelow.1 i hi]
    cases flow with
    | next pc' next => exact ih hflow i hi
    | finish r' final =>
      cases hflow
      rfl
    | loop again =>
      rcases Option.bind_eq_some_iff.mp hflow with ⟨⟨r', back⟩, hbody, hrest⟩
      refine Eq.trans ?_ (ih hbody i hi)
      simp only at hrest
      by_cases hr : r' = .continueLoop pc.next
      · rw [if_pos hr] at hrest
        exact ih hrest i hi
      · rw [if_neg hr] at hrest
        cases hrest
        rfl
    | call callPC sp' returnPC before =>
      have hsp := hbelow.2 callPC sp' returnPC before rfl
      simp only [Option.bind_eq_bind] at hflow
      by_cases hdepth : d_m3MaxCallDepth ≤ depth
      · rw [if_pos hdepth] at hflow
        cases hflow
        rfl
      · rw [if_neg hdepth] at hflow
        rcases Option.bind_eq_some_iff.mp hflow with ⟨⟨r', back⟩, hcallee, hrest⟩
        refine Eq.trans ?_ (ih hcallee i (Nat.lt_of_lt_of_le hi hsp))
        simp only at hrest
        by_cases hr : r' = .done
        · rw [if_pos hr] at hrest
          exact ih hrest i hi
        · rw [if_neg hr] at hrest
          cases hrest
          rfl

/-- A run leaves the slots of its callers alone. -/
theorem Ends.below (h : Ends E pc sp depth st Φ) :
    Ends E pc sp depth st fun r st' => Φ r st' ∧ ∀ i < sp, st'.slots i = st.slots i := by
  rcases h with ⟨fuel, r, st', hrun, hΦ⟩
  exact ⟨fuel, r, st', hrun, hΦ, run_below hrun⟩

end

end WebAssemblyRuntime.Wasm3
