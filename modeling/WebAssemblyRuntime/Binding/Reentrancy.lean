import WebAssemblyRuntime.Binding.Exceptions

/-!
# Reentrancy — nested calls stay above the frame base of the import they run in

A nested `m3_Call` deliberately starts at the waiting import's own `sp`.  What keeps the caller
safe is that `runtime->stack` never leads below the base of any frame that waits.
-/

open WebAssemblyRuntime.Reasoning WebAssemblyRuntime.Wasm3

namespace WebAssemblyRuntime.Binding

/-! ## 1. Frame bases -/

/-- `runtime->stack` as the frames determine it: the innermost waiting import's `sp`. -/
def stackBase (bottom : Nat) : List Frame → Nat
  | [] => bottom
  | .opCallRaw _ sp _ :: _ => sp
  | _ :: rest => stackBase bottom rest

/-- Every waiting frame's base is at or above the runtime stack it was entered with, which a raw
call also remembers. -/
def FramesAbove (bottom : Nat) : List Frame → Prop
  | [] => True
  | .opLoop _ sp :: rest => stackBase bottom rest ≤ sp ∧ FramesAbove bottom rest
  | .opCall sp _ :: rest => stackBase bottom rest ≤ sp ∧ FramesAbove bottom rest
  | .opCallIndirect sp _ :: rest => stackBase bottom rest ≤ sp ∧ FramesAbove bottom rest
  | .opCallRaw _ sp stackBackup :: rest =>
    stackBase bottom rest ≤ sp ∧ stackBackup = stackBase bottom rest ∧ FramesAbove bottom rest
  | .opEntry _ :: rest => FramesAbove bottom rest
  | .exportCall _ :: rest => FramesAbove bottom rest
  | .runStart _ :: rest => FramesAbove bottom rest

/-- The frame base control runs at. -/
def Control.base : Control → Option Nat
  | .enter _ sp _ => some sp
  | .op sp _ _ => some sp
  | _ => none

structure StackInv (bottom : Nat) (c : Config) : Prop where
  stack : c.rt.stack = stackBase bottom c.frames
  control : ∀ sp, c.control.base = some sp → stackBase bottom c.frames ≤ sp
  frames : FramesAbove bottom c.frames

variable {inst : Instance} {bottom : Nat} {c c' : Config} {a : Action}

theorem framesAbove_tail {frame : Frame} {rest : List Frame}
    (h : FramesAbove bottom (frame :: rest)) : FramesAbove bottom rest := by
  cases frame with
  | opLoop | opCall | opCallIndirect => exact h.2
  | opCallRaw => exact h.2.2
  | opEntry | exportCall | runStart => exact h

theorem stackBase_cons {frame : Frame} {rest : List Frame}
    (h : FramesAbove bottom (frame :: rest)) :
    stackBase bottom rest ≤ stackBase bottom (frame :: rest) := by
  cases frame with
  | opCallRaw => exact h.1
  | _ => exact Nat.le_refl _

/-- The deeper frames have the lower bases. -/
theorem stackBase_suffix {frames lower : List Frame} (h : FramesAbove bottom frames)
    (hsuffix : lower <:+ frames) : stackBase bottom lower ≤ stackBase bottom frames := by
  induction frames with
  | nil =>
    rw [List.suffix_nil.mp hsuffix]
  | cons frame rest ih =>
    rcases List.suffix_cons_iff.mp hsuffix with heq | hsuffix
    · rw [heq]
    · exact (ih (framesAbove_tail h) hsuffix).trans (stackBase_cons h)

/-- Control without a base of its own needs the other two parts only. -/
theorem stackInv_of (hstack : c.rt.stack = stackBase bottom c.frames)
    (hcontrol : c.control.base = none) (hframes : FramesAbove bottom c.frames) :
    StackInv bottom c := by
  refine ⟨hstack, ?_, hframes⟩
  intro sp hsp
  cases hcontrol.symm.trans hsp

theorem stackInv_at {sp : Nat} (hstack : c.rt.stack = stackBase bottom c.frames)
    (hcontrol : c.control.base = some sp) (hsp : stackBase bottom c.frames ≤ sp)
    (hframes : FramesAbove bottom c.frames) : StackInv bottom c := by
  refine ⟨hstack, ?_, hframes⟩
  intro sp' hsp'
  cases hcontrol.symm.trans hsp'
  exact hsp

theorem StackInv.inOp (h : StackInv bottom c) {sp : Nat} {mem : Option Addr} {r0 : Int}
    (hop : c.control = .op sp mem r0) : stackBase bottom c.frames ≤ sp := by
  apply h.control
  rw [hop]
  rfl

theorem StackInv.inEnter (h : StackInv bottom c) {fn sp : Nat} {mem : Option Addr}
    (henter : c.control = .enter fn sp mem) : stackBase bottom c.frames ≤ sp := by
  apply h.control
  rw [henter]
  rfl

theorem stackInv_step (h : StackInv bottom c) (hstep : Step inst c a c') :
    StackInv bottom c' := by
  have hstack := h.stack
  have habove := h.frames
  cases hstep with
  | callExportThrows | callExportRefused | runStartRefused => exact stackInv_of hstack rfl habove
  -- a nested call runs at the stack itself
  | callExport => exact stackInv_at hstack rfl hstack.ge habove
  | runStart _ hframes =>
    rw [hframes] at hstack
    exact stackInv_at hstack rfl hstack.ge trivial
  | growMemory _ hgrow =>
    have hframe := congrArg M3Runtime.stack (growHostFunction_frame hgrow)
    exact stackInv_of (hframe.trans hstack) rfl habove
  -- the stack goes back to what the frame remembers
  | importReturns _ hframes | importReturnsValue _ hframes =>
    rw [hframes] at habove
    exact stackInv_of habove.2.1 rfl habove.2.2
  | importCoercionFails _ hframes | importThrows _ hframes =>
    rw [hframes] at habove
    exact stackInv_of habove.2.1 rfl habove.2.2
  | enter henter => exact stackInv_at hstack rfl (h.inEnter henter) habove
  | enterOverflow | enterRawRaises | enterRawFails => exact stackInv_of hstack rfl habove
  | enterRaw henter =>
    -- the stack moves up to the import's frame, and the old one is kept in it
    exact stackInv_of rfl rfl ⟨h.inEnter henter, hstack, habove⟩
  | slotOp hop | memSize hop => exact stackInv_at hstack rfl (h.inOp hop) habove
  | store => exact ⟨hstack, h.control, habove⟩
  | @memGrow sp mem r0 os hop =>
    have hframe := congrArg M3Runtime.stack (opMemGrow_frame c.rt r0 os)
    exact stackInv_at (hframe.trans hstack) rfl (h.inOp hop) habove
  -- a callee's frame is above its caller's
  | call hop | callIndirect hop =>
    have hsp := h.inOp hop
    exact stackInv_at hstack rfl (Nat.le_add_right_of_le hsp) ⟨hsp, habove⟩
  | callOverflow | callMissing | callIndirectOverflow => exact stackInv_of hstack rfl habove
  | callIndirectTraps | continueLoop | «return» | trap => exact stackInv_of hstack rfl habove
  | loop hop => exact stackInv_at hstack rfl (h.inOp hop) ⟨h.inOp hop, habove⟩
  | unwindEntry hret hframes =>
    rw [hframes] at hstack habove
    exact stackInv_of hstack (by rw [hret]; rfl) habove
  | unwindLoop hret hframes =>
    rw [hframes] at hstack habove
    exact stackInv_of hstack (by rw [hret]; rfl) habove.2
  | nextIteration hret hframes =>
    have hloop := habove
    rw [hframes] at hloop
    refine stackInv_at hstack rfl ?_ habove
    show stackBase bottom c.frames ≤ _
    rw [hframes]
    exact hloop.1
  | callReturns hret hframes =>
    rcases hframes with hframes | hframes
    all_goals
      rw [hframes] at hstack habove
      exact stackInv_at hstack rfl habove.1 habove.2
  | callTraps hret _ hframes =>
    rcases hframes with hframes | hframes
    all_goals
      rw [hframes] at hstack habove
      exact stackInv_of hstack (by rw [hret]; rfl) habove.2
  | exportReturns _ _ hframes =>
    rw [hframes] at hstack habove
    exact stackInv_of hstack rfl habove
  | @startReturns _ result _ _ _ _ hframes =>
    rw [hframes] at hstack habove
    cases result with
    | none => exact stackInv_of hstack rfl habove
    | some e => exact stackInv_of hstack rfl habove

theorem stackInv_reachable (h : (machine inst).Reachable c) : ∃ bottom, StackInv bottom c := by
  induction h with
  | @init s hinit =>
    rcases hinit with ⟨hcontrol, hframes, -⟩
    refine ⟨s.rt.stack, stackInv_of ?_ ?_ ?_⟩
    · rw [hframes]
      rfl
    · rw [hcontrol]
      rfl
    · rw [hframes]
      trivial
  | step _ hstep ih =>
    rcases ih with ⟨bottom, hinv⟩
    exact ⟨bottom, stackInv_step hinv hstep⟩

/-! ## 2. What a step writes -/

/-- The argument stores of `m3_Call` stay above `runtime->stack`. -/
theorem m3Call_below {rt : M3Runtime} {slots slots' : Slots} {fn : Nat} {args : List UInt64}
    (h : m3Call inst rt slots fn args = some (.ok slots')) {j : Nat} (hj : j < rt.stack) :
    slots' j = slots j := by
  rcases m3Call_ok h with ⟨f, -, -, hwrite⟩
  exact writeArgs_below hwrite (by omega)

theorem entrySlots_below (layout : FrameLayout) (slots : Slots) {sp j : Nat} (hj : j < sp) :
    entrySlots layout slots sp j = slots j := by
  unfold entrySlots
  rw [if_pos (by omega)]

/-- No step writes below the runtime stack it starts with. -/
theorem slots_step (h : StackInv bottom c) (hstep : Step inst c a c') {j : Nat}
    (hj : j < stackBase bottom c.frames) : c'.slots j = c.slots j := by
  have hstack := h.stack
  cases hstep with
  | callExport _ _ _ hcall =>
    apply m3Call_below hcall
    omega
  | importReturnsValue _ hframes | importCoercionFails _ hframes =>
    rw [hframes] at hj
    exact Slots.write64_of_lt _ _ hj
  | enter henter =>
    have hsp := h.inEnter henter
    exact entrySlots_below _ _ (by omega)
  | slotOp hop hslots =>
    have hsp := h.inOp hop
    exact hslots j (by omega)
  | @startReturns _ result => cases result <;> rfl
  | _ => rfl

/-- A step adds a frame, drops one or leaves the frames alone. -/
theorem frames_step (hstep : Step inst c a c') :
    c.frames <:+ c'.frames ∨ ∃ frame, c.frames = frame :: c'.frames := by
  cases hstep with
  | callExport | enter | enterRaw | call | callIndirect | loop =>
    exact .inl (List.suffix_cons _ _)
  | runStart _ hframes =>
    rw [hframes]
    exact .inl (List.nil_suffix)
  | importReturns _ hframes | importReturnsValue _ hframes => exact .inr ⟨_, hframes⟩
  | importCoercionFails _ hframes | importThrows _ hframes => exact .inr ⟨_, hframes⟩
  | unwindEntry _ hframes | unwindLoop _ hframes => exact .inr ⟨_, hframes⟩
  | callReturns _ hframes | callTraps _ _ hframes =>
    rcases hframes with hframes | hframes
    · exact .inr ⟨_, hframes⟩
    · exact .inr ⟨_, hframes⟩
  | exportReturns _ _ hframes => exact .inr ⟨_, hframes⟩
  | @startReturns _ result _ _ _ _ hframes =>
    cases result with
    | none => exact .inr ⟨_, hframes⟩
    | some e => exact .inr ⟨_, hframes⟩
  | _ => exact .inl (List.suffix_refl _)

/-- A frame that a step takes away was on top. -/
theorem top_of_dropped {frames : List Frame} (hstep : Step inst c a c')
    (hbefore : frames <:+ c.frames) (hafter : ¬ frames <:+ c'.frames) : c.frames = frames := by
  rcases frames_step hstep with hgrown | ⟨frame, hpop⟩
  · exact absurd (hbefore.trans hgrown) hafter
  · rw [hpop] at hbefore
    rcases List.suffix_cons_iff.mp hbefore with htop | hbelow
    · rw [htop, hpop]
    · exact absurd hbelow hafter

/-! ## 3. Values in slots -/

/-- The JavaScript value of what wasm code keeps at `s`; a 32-bit value has one slot. -/
def slotValue (slots : Slots) (s : Nat) : M3ValueType → Option JsValue
  | .i32 => some (.number (.finite (Int.bmod (slots s).toNat (2 ^ 32))))
  | .i64 => some (.bigint (Int.bmod (slots.read64 s).toNat (2 ^ 64)))
  | .f32 => some (.number (.ofBits .binary32 (slots s).toNat))
  | .f64 => some (.number (.ofBits .binary64 (slots.read64 s).toNat))
  | _ => none

/-- Values laid out from `s` on, two slots each. -/
def slotValues (slots : Slots) (s : Nat) (types : List M3ValueType) : List (Option JsValue) :=
  types.zipIdx.map fun (type, i) => slotValue slots (s + 2 * i) type

theorem read64_toNat (slots : Slots) (s : Nat) :
    (slots.read64 s).toNat = (slots s).toNat + (slots (s + 1)).toNat * 2 ^ 32 := by
  have hlow := (slots s).toNat_lt
  have hhigh := (slots (s + 1)).toNat_lt
  rw [Slots.read64, UInt64.toNat_ofNat']
  exact Nat.mod_eq_of_lt (by omega)

/-- A raw argument is read as a 64-bit word, of which a 32-bit type uses the low half. -/
theorem slotToValue_read64 {slots : Slots} {s : Nat} {type : M3ValueType} {value : JsValue}
    (h : slotToValue type (slots.read64 s) = .ok value) :
    slotValue slots s type = some value := by
  have hlow := (slots s).toNat_lt
  have hword := read64_toNat slots s
  cases type with
  | none | v128 | unknown => cases h
  | i64 | f64 =>
    cases h
    rfl
  | i32 =>
    cases h
    -- the slot above contributes a multiple of `2 ^ 32`
    have hmod : Int.bmod ((slots.read64 s).toNat : Int) (2 ^ 32) =
        Int.bmod ((slots s).toNat : Int) (2 ^ 32) := by
      rw [hword, Nat.cast_add, Nat.cast_mul]
      exact Int.add_mul_bmod_self_right _ _ _
    rw [slotValue, hmod]
  | f32 =>
    cases h
    have hmod : (slots.read64 s).toNat % 2 ^ 32 = (slots s).toNat := by omega
    rw [slotValue, hmod]

/-- A result is read at its own width and converted back from that. -/
theorem slotToValue_readResult {slots : Slots} {s : Nat} {type : M3ValueType} {word : UInt64}
    {value : JsValue} (hword : readResult slots s type = some word)
    (h : slotToValue type word = .ok value) : slotValue slots s type = some value := by
  cases type with
  | none | v128 | unknown => cases hword
  | i64 | f64 =>
    cases hword
    cases h
    rfl
  | i32 =>
    cases hword
    cases h
    rw [slotValue, UInt32.toNat_toUInt64]
  | f32 =>
    cases hword
    cases h
    rw [slotValue, UInt32.toNat_toUInt64, Nat.mod_eq_of_lt (slots s).toNat_lt]

theorem importArgs_values {funcType : M3FuncType} {slots : Slots} {sp : Nat}
    {args : List JsValue} (h : importArgs funcType slots sp = .ok args) :
    args.map some = slotValues slots (sp + 2 * funcType.rets.length) funcType.args := by
  symm
  apply exceptMapM_map h
  intro ⟨type, i⟩ _ value hvalue
  have hslot := slotToValue_read64 hvalue
  rw [Nat.mul_add, ← Nat.add_assoc] at hslot
  exact hslot

/-- The two loops over results, from any index on. -/
theorem results_values {slots : Slots} {s : Nat} {rets : List M3ValueType} (k : Nat)
    {words : List UInt64} {values : List JsValue}
    (hwords : ((rets.zipIdx k).mapM fun (type, i) => readResult slots (s + 2 * i) type) =
      some words)
    (hvalues : ((rets.zip words).mapM fun (type, word) => slotToValue type word) = .ok values) :
    values.map some = (rets.zipIdx k).map fun (type, i) => slotValue slots (s + 2 * i) type := by
  induction rets generalizing k words values with
  | nil =>
    cases hvalues
    rfl
  | cons type rest ih =>
    rw [List.zipIdx_cons, List.mapM_cons] at hwords
    rcases Option.bind_eq_some_iff.mp hwords with ⟨word, hword, hwords⟩
    rcases Option.bind_eq_some_iff.mp hwords with ⟨words', hwords', hwords⟩
    cases hwords
    rw [List.zip_cons_cons, List.mapM_cons] at hvalues
    rcases bind_ok hvalues with ⟨value, hvalue, hvalues⟩
    rcases bind_ok hvalues with ⟨values', hvalues', hvalues⟩
    cases hvalues
    rw [List.zipIdx_cons, List.map_cons, List.map_cons, ih (k + 1) hwords' hvalues']
    show _ = slotValue slots (s + 2 * k) type :: _
    rw [slotToValue_readResult hword hvalue]

/-! ## 4. Calls out and back -/

/-- From `called`, where a host call or an import has just been pushed on the frames, to `after`,
where a step from `before` has taken it away again. -/
structure CallAndReturn (inst : Instance) (called before : Config) (a : Action) (after : Config) :
    Prop where
  during : (machine inst).Within (fun s => called.frames <:+ s.frames) called before
  step : Step inst before a after
  ended : ¬ called.frames <:+ after.frames

theorem CallAndReturn.top {called before after : Config}
    (h : CallAndReturn inst called before a after) : before.frames = called.frames :=
  top_of_dropped h.step h.during.last h.ended

theorem within_inv {P : Config → Prop} {s t : Config} (h : (machine inst).Within P s t)
    (hinv : StackInv bottom s) : StackInv bottom t := by
  induction h with
  | refl _ => exact hinv
  | step _ hstep _ ih => exact stackInv_step ih hstep

theorem within_slots {frames : List Frame} {s t : Config}
    (h : (machine inst).Within (fun u => frames <:+ u.frames) s t) (hinv : StackInv bottom s)
    {j : Nat} (hj : j < stackBase bottom frames) : t.slots j = s.slots j := by
  induction h with
  | refl _ => rfl
  | step hseg hstep _ ih =>
    -- the stack stays above the waiting frame, so the step writes above it too
    have hinv' := within_inv hseg hinv
    have hbase := stackBase_suffix hinv'.frames hseg.last
    exact (slots_step hinv' hstep (by omega)).trans ih

/-- No slot below the base of the waiting frame changes until that frame is gone. -/
theorem CallAndReturn.slots {called before after : Config}
    (h : CallAndReturn inst called before a after) (hinv : StackInv bottom called) {j : Nat}
    (hj : j < stackBase bottom called.frames) : after.slots j = called.slots j := by
  have hlast : after.slots j = before.slots j := by
    apply slots_step (within_inv h.during hinv) h.step
    rw [h.top]
    exact hj
  exact hlast.trans (within_slots h.during hinv hj)

/-- Only the import's own return takes its frame away. -/
theorem import_returns {fn sp stackBackup : Nat} {rest : List Frame}
    (htop : c.frames = .opCallRaw fn sp stackBackup :: rest) (hstep : Step inst c a c')
    (hended : ¬ c.frames <:+ c'.frames) :
    c'.rt.stack = stackBackup ∧ c'.frames = rest ∧
      ∀ f type, inst.module.functions[fn]? = some f → f.funcType.rets = [type] →
        c'.control = .ret .none → ∃ value word, a = .importReturns value ∧
          valueToSlot type value = .ok word ∧ c'.slots.read64 sp = word := by
  cases hstep with
  | importReturns _ hframes hf hrets =>
    cases htop.symm.trans hframes
    refine ⟨rfl, rfl, ?_⟩
    intro f type hf' hrets' _
    cases hf.symm.trans hf'
    cases hrets.symm.trans hrets'
  | importReturnsValue _ hframes hf hrets hvalue =>
    cases htop.symm.trans hframes
    refine ⟨rfl, rfl, ?_⟩
    intro f type hf' hrets' _
    cases hf.symm.trans hf'
    cases hrets.symm.trans hrets'
    exact ⟨_, _, rfl, hvalue, Slots.read64_write64 _ _ _⟩
  | importCoercionFails _ hframes | importThrows _ hframes =>
    cases htop.symm.trans hframes
    refine ⟨rfl, rfl, ?_⟩
    intro f type _ _ hret
    cases hret
  | unwindEntry _ hframes | unwindLoop _ hframes => cases htop.symm.trans hframes
  | callReturns _ hframes | callTraps _ _ hframes =>
    rcases hframes with hframes | hframes
    · cases htop.symm.trans hframes
    · cases htop.symm.trans hframes
  | exportReturns _ _ hframes | startReturns _ _ hframes => cases htop.symm.trans hframes
  -- a step that adds a frame keeps the waiting one
  | callExport | enter | enterRaw | call | callIndirect | loop =>
    exact absurd (List.suffix_cons _ _) hended
  | runStart _ hframes => cases htop.symm.trans hframes
  | _ => exact absurd (List.suffix_refl _) hended

/-- What a host function reads back are the values in the return slots. -/
theorem exportReturn_values {rt : M3Runtime} {slots : Slots} {pendingException : Option JsException}
    {fn : Nat} {rets : List M3ValueType} {values : List JsValue}
    (h : (exportReturn rt slots pendingException fn rets none).1 = .returned values) :
    values.map some = slotValues slots rt.stack rets := by
  unfold exportReturn at h
  by_cases hempty : rets.length = 0
  · simp only [if_pos hempty] at h
    cases h
    rw [List.length_eq_zero_iff.mp hempty]
    rfl
  · simp only [if_neg hempty, m3GetResults] at h
    by_cases hcalled : rt.lastCalled ≠ some fn
    · simp only [if_pos hcalled] at h
      cases h
    · simp only [if_neg hcalled] at h
      cases hwords : rets.zipIdx.mapM fun (type, i) => readResult slots (rt.stack + 2 * i) type with
      | none =>
        simp only [hwords] at h
        cases h
      | some words =>
        simp only [hwords] at h
        cases hvalues : (rets.zip words).mapM fun (type, word) => slotToValue type word with
        | error e =>
          simp only [hvalues] at h
          cases h
        | ok values' =>
          simp only [hvalues] at h
          cases h
          exact results_values 0 hwords hvalues

theorem finishExport_values {fn : Nat} {rest : List Frame} {rets : List M3ValueType}
    {values : List JsValue}
    (h : (finishExport c rest fn rets none).control = .js (.returned values)) :
    values.map some = slotValues c.slots c.rt.stack rets := by
  have hreturn : (exportReturn { c.rt with lastCalled := some fn } c.slots c.pendingException fn
      rets none).1 = .returned values := Control.js.inj h
  have hread := exportReturn_values hreturn
  exact hread

/-! ## 5. Isolation -/

theorem callImportedFunction_call {entry : ImportEntry} {funcType : M3FuncType} {slots : Slots}
    {sp callee : Nat} {args : List JsValue}
    (h : callImportedFunction entry funcType slots sp = .call callee args) :
    importArgs funcType slots sp = .ok args := by
  cases hfn : entry.fn with
  | none => cases (callImportedFunction_missing hfn funcType slots sp).symm.trans h
  | some fn =>
    rcases callImportedFunction_cases hfn funcType slots sp with
      ⟨-, hcall⟩ | ⟨_, -, hcall⟩ | ⟨_, hargs, hcall⟩
    · cases hcall.symm.trans h
    · cases hcall.symm.trans h
    · cases hcall.symm.trans h
      exact hargs

/-- Control has just been handed to the function of an import. -/
theorem enterRaw_called {fn sp callee : Nat} {mem : Option Addr} {args : List JsValue}
    (henter : c.control = .enter fn sp mem) (hstep : Step inst c .enter c')
    (hcalled : c'.control = .js (.called callee args)) :
    c'.slots = c.slots ∧ c'.frames = .opCallRaw fn sp c.rt.stack :: c.frames ∧
      ∀ f, inst.module.functions[fn]? = some f →
        importArgs f.funcType c.slots sp = .ok args := by
  cases hstep with
  | enter | enterOverflow | enterRawRaises | enterRawFails => cases hcalled
  | enterRaw henter' hf _ _ hcall =>
    cases henter.symm.trans henter'
    cases hcalled
    refine ⟨rfl, rfl, ?_⟩
    intro f hf'
    cases hf.symm.trans hf'
    exact callImportedFunction_call hcall

/-- The frame of a call that was entered. -/
theorem callExport_entered {fn fn' sp : Nat} {args : List JsValue} {mem : Option Addr}
    (hstep : Step inst c (.callExport fn args) c') (hentered : c'.control = .enter fn' sp mem) :
    sp = c.rt.stack ∧ c'.frames = .exportCall fn :: c.frames ∧ c'.rt = c.rt := by
  cases hstep with
  | callExportThrows | callExportRefused => cases hentered
  | callExport =>
    cases hentered
    exact ⟨rfl, rfl, rfl⟩

/-- Reentrancy in one reachable state: `c` is where an import, or JavaScript, is about to call. -/
structure ReentrancyLaw (inst : Instance) (c : Config) : Prop where
  arguments : ∀ fn sp mem f called callee args, c.control = .enter fn sp mem →
    inst.module.functions[fn]? = some f → Step inst c .enter called →
    called.control = .js (.called callee args) →
    args.map some = slotValues c.slots (sp + 2 * f.funcType.rets.length) f.funcType.args
  isolated : ∀ fn sp mem called callee args before a after, c.control = .enter fn sp mem →
    Step inst c .enter called → called.control = .js (.called callee args) →
    CallAndReturn inst called before a after →
    (∀ j < sp, after.slots j = c.slots j) ∧ after.rt.stack = c.rt.stack ∧
      after.frames = c.frames
  -- what the frame below finds at `sp` is the coerced value, whatever nested calls left there
  result : ∀ fn sp mem f type called callee args before a after, c.control = .enter fn sp mem →
    inst.module.functions[fn]? = some f → f.funcType.rets = [type] → Step inst c .enter called →
    called.control = .js (.called callee args) → CallAndReturn inst called before a after →
    after.control = .ret .none →
    ∃ value word, a = .importReturns value ∧ valueToSlot type value = .ok word ∧
      after.slots.read64 sp = word ∧
      ∀ a' resumed, Step inst after a' resumed → resumed.slots = after.slots
  -- an export call, nested or not: `sp` is the base its callee ran at
  nested : ∀ fn args f sp mem called before a after, inst.module.functions[fn]? = some f →
    Step inst c (.callExport fn args) called → called.control = .enter fn sp mem →
    CallAndReturn inst called before a after → before.control = .ret .none →
    after.frames = c.frames ∧
      (Readable f.funcType.rets → ∃ values, after.control = .js (.returned values) ∧
        values.map some = slotValues before.slots sp f.funcType.rets) ∧
      (¬ Readable f.funcType.rets → after.control = .js (.threw (.wasmError .unknownReturnType)))

/-- On the way back no slot is written. -/
theorem ret_slots {r : M3Ret} (hret : c.control = .ret r) (hstep : Step inst c a c') :
    c'.slots = c.slots := by
  cases hstep with
  | unwindEntry | unwindLoop | nextIteration | callReturns | callTraps | exportReturns => rfl
  | @startReturns _ result => cases result <;> rfl
  | _ => cases hret.symm.trans ‹c.control = _›

theorem reentrancyIsolated (h : (machine inst).Reachable c) : ReentrancyLaw inst c := by
  rcases stackInv_reachable h with ⟨bottom, hinv⟩
  refine ⟨?_, ?_, ?_, ?_⟩
  · intro fn sp mem f called callee args henter hf hstep hcalled
    exact importArgs_values ((enterRaw_called henter hstep hcalled).2.2 f hf)
  · intro fn sp mem called callee args before a after henter hstep hcalled hcall
    rcases enterRaw_called henter hstep hcalled with ⟨hslots, hframes, -⟩
    have htop := hcall.top.trans hframes
    have hended := hcall.ended
    rw [← hcall.top] at hended
    rcases import_returns htop hcall.step hended with ⟨hstack, hrest, -⟩
    refine ⟨?_, hstack, hrest⟩
    intro j hj
    have hbase : j < stackBase bottom called.frames := by
      rw [hframes]
      exact hj
    rw [hcall.slots (stackInv_step hinv hstep) hbase, hslots]
  · intro fn sp mem f type called callee args before a after henter hf hrets hstep hcalled hcall hret
    rcases enterRaw_called henter hstep hcalled with ⟨-, hframes, -⟩
    have htop := hcall.top.trans hframes
    have hended := hcall.ended
    rw [← hcall.top] at hended
    rcases (import_returns htop hcall.step hended).2.2 f type hf hrets hret with
      ⟨value, word, haction, hvalue, hword⟩
    exact ⟨value, word, haction, hvalue, hword, fun _ _ hresume => ret_slots hret hresume⟩
  · intro fn args f sp mem called before a after hf hstep hentered hcall hret
    rcases callExport_entered hstep hentered with ⟨hsp, hframes, hrt⟩
    have htop := hcall.top.trans hframes
    rcases exportCall_step hret htop hcall.step with ⟨result, f', hr, hf', hafter⟩
    cases hf.symm.trans hf'
    -- the stack is back where the callee was entered
    have hbefore : before.rt.stack = sp := by
      have hinv' := within_inv hcall.during (stackInv_step hinv hstep)
      rw [hsp, hinv.stack, hinv'.stack, htop]
      rfl
    have hbeforeInv := exceptionInv_reachable (hcall.during.reachable (.step h hstep))
    rw [hafter]
    rcases (finishExport_control f c.frames hbeforeInv hret hr).2 with hvalues | hunread | htrap
    · rcases hvalues with ⟨values, -, hrets, hjs⟩
      refine ⟨rfl, ?_, fun hunread => absurd hrets hunread⟩
      intro _
      refine ⟨values, hjs, ?_⟩
      cases hr
      rw [← hbefore]
      exact finishExport_values hjs
    · rcases hunread with ⟨-, hrets, hjs⟩
      exact ⟨rfl, fun hread => absurd hread hrets, fun _ => hjs⟩
    · rcases htrap with ⟨e, he, -⟩
      cases he

/-- Function 1 calling the import, at a frame base of 4. -/
def importEntered : Config :=
  { bodyEntered with
    rt := { bodyEntered.rt with callDepth := 1 }
    control := .enter 0 4 (some 4096)
    frames := .opCall 0 0 :: bodyEntered.frames }

theorem importEntered_reachable : (machine importAndBody).Reachable importEntered :=
  .step (a := .call 0 4) bodyEntered_reachable (.call rfl rfl rfl (by decide))

theorem reentrancyIsolated_calling : ReentrancyLaw importAndBody importEntered :=
  reentrancyIsolated importEntered_reachable

end WebAssemblyRuntime.Binding
