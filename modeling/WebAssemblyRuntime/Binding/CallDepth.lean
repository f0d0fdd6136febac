import WebAssemblyRuntime.Binding.Machine

/-!
# CallDepth — the recursion guard counts the calls that wait
-/

open WebAssemblyRuntime.Reasoning WebAssemblyRuntime.Wasm3

namespace WebAssemblyRuntime.Binding

def Frame.isCall : Frame → Bool
  | .opCall _ _ | .opCallIndirect _ _ => true
  | _ => false

/-- The activations of `op_Call` and `op_CallIndirect` that have entered their callee and not yet
got control back. -/
def activeCalls (frames : List Frame) : Nat := frames.countP Frame.isCall

structure DepthInv (c : Config) : Prop where
  counted : c.rt.callDepth.toNat = activeCalls c.frames
  bounded : activeCalls c.frames ≤ 1000

variable {inst : Instance} {c c' : Config} {a : Action}

/-- What the invariant reads did not change. -/
theorem DepthInv.congr (h : DepthInv c) (hdepth : c'.rt.callDepth = c.rt.callDepth)
    (hcalls : activeCalls c'.frames = activeCalls c.frames) : DepthInv c' :=
  ⟨by rw [hdepth, hcalls]; exact h.counted, by rw [hcalls]; exact h.bounded⟩

theorem activeCalls_cons (frame : Frame) (rest : List Frame) :
    activeCalls (frame :: rest) = activeCalls rest + if frame.isCall then 1 else 0 :=
  List.countP_cons

/-- A frame that is no call may come or go. -/
theorem activeCalls_skip {frame : Frame} {rest frames : List Frame}
    (hframe : frame.isCall = false) (hframes : frames = frame :: rest) :
    activeCalls rest = activeCalls frames := by
  rw [hframes, activeCalls_cons, hframe]
  rfl

theorem depth_push (h : DepthInv c) {frame : Frame} (hframe : frame.isCall = true)
    (hdepth : c.rt.callDepth < d_m3MaxCallDepth) {control : Control} :
    DepthInv
      { c with
        rt := { c.rt with callDepth := c.rt.callDepth + 1 }
        control := control
        frames := frame :: c.frames } := by
  have hlt : c.rt.callDepth.toNat < 1000 := hdepth
  have hcounted := h.counted
  have hcalls : activeCalls (frame :: c.frames) = activeCalls c.frames + 1 := by
    rw [activeCalls_cons, hframe]
    rfl
  refine ⟨?_, ?_⟩
  · change (c.rt.callDepth + 1).toNat = activeCalls (frame :: c.frames)
    rw [hcalls, UInt32.toNat_add]
    change (c.rt.callDepth.toNat + 1) % 2 ^ 32 = _
    omega
  · change activeCalls (frame :: c.frames) ≤ 1000
    omega

theorem depth_pop (h : DepthInv c) {frame : Frame} {rest : List Frame}
    (hframe : frame.isCall = true) (hframes : c.frames = frame :: rest) {control : Control} :
    DepthInv
      { c with
        rt := { c.rt with callDepth := c.rt.callDepth - 1 }
        control := control
        frames := rest } := by
  have hcounted := h.counted
  have hbounded := h.bounded
  have hcalls : activeCalls c.frames = activeCalls rest + 1 := by
    rw [hframes, activeCalls_cons, hframe]
    rfl
  -- the waiting call is counted, so the subtraction does not wrap
  have hone : (1 : UInt32) ≤ c.rt.callDepth := by
    rw [UInt32.le_iff_toNat_le]
    change 1 ≤ c.rt.callDepth.toNat
    omega
  refine ⟨?_, ?_⟩
  · change (c.rt.callDepth - 1).toNat = activeCalls rest
    rw [UInt32.toNat_sub_of_le _ _ hone]
    change c.rt.callDepth.toNat - 1 = activeCalls rest
    omega
  · change activeCalls rest ≤ 1000
    omega

theorem depth_step (h : DepthInv c) (hstep : Step inst c a c') : DepthInv c' := by
  cases hstep with
  | callExportThrows | callExportRefused | runStartRefused => exact h.congr rfl rfl
  | callExport => exact h.congr rfl (activeCalls_skip rfl rfl).symm
  | runStart _ hframes =>
    refine h.congr rfl ?_
    rw [hframes]
    rfl
  | growMemory _ hgrow =>
    have hframe := congrArg M3Runtime.callDepth (growHostFunction_frame hgrow)
    exact h.congr hframe rfl
  | importReturns _ hframes => exact h.congr rfl (activeCalls_skip rfl hframes)
  | importReturnsValue _ hframes => exact h.congr rfl (activeCalls_skip rfl hframes)
  | importCoercionFails _ hframes => exact h.congr rfl (activeCalls_skip rfl hframes)
  | importThrows _ hframes => exact h.congr rfl (activeCalls_skip rfl hframes)
  | enter | enterRaw => exact h.congr rfl (activeCalls_skip rfl rfl).symm
  | enterOverflow | enterRawRaises | enterRawFails => exact h.congr rfl rfl
  | slotOp | store | memSize => exact h.congr rfl rfl
  | @memGrow _ _ r0 os =>
    have hframe := congrArg M3Runtime.callDepth (opMemGrow_frame c.rt r0 os)
    exact h.congr hframe rfl
  | call _ _ _ hdepth => exact depth_push h rfl hdepth
  | callOverflow | callMissing => exact h.congr rfl rfl
  | callIndirect _ _ hdepth => exact depth_push h rfl hdepth
  | callIndirectOverflow | callIndirectTraps => exact h.congr rfl rfl
  | loop => exact h.congr rfl (activeCalls_skip rfl rfl).symm
  | continueLoop | «return» | trap => exact h.congr rfl rfl
  | unwindEntry _ hframes => exact h.congr rfl (activeCalls_skip rfl hframes)
  | unwindLoop _ hframes => exact h.congr rfl (activeCalls_skip rfl hframes)
  | nextIteration => exact h.congr rfl rfl
  | callReturns _ hframes =>
    rcases hframes with hframes | hframes
    · exact depth_pop h rfl hframes
    · exact depth_pop h rfl hframes
  | callTraps _ _ hframes =>
    rcases hframes with hframes | hframes
    · exact depth_pop h rfl hframes
    · exact depth_pop h rfl hframes
  | exportReturns _ _ hframes => exact h.congr rfl (activeCalls_skip rfl hframes)
  | @startReturns _ result _ _ _ _ hframes =>
    cases result <;> exact h.congr rfl (activeCalls_skip rfl hframes)

theorem depth_reachable (h : (machine inst).Reachable c) : DepthInv c := by
  refine System.Reachable.invariant (P := DepthInv) ?_ (fun _ _ _ hs ht => depth_step hs ht) h
  rintro s ⟨-, hframes, -, hdepth⟩
  refine ⟨?_, ?_⟩
  · rw [hdepth, hframes]
    rfl
  · rw [hframes]
    exact Nat.zero_le _

/-- The state in which `m3_Call` of a function has just been entered from `c`. -/
def exportFrames (c : Config) (fn : Nat) : List Frame := .exportCall fn :: c.frames

/-- A call that would exceed the limit traps where it stands. -/
theorem call_overflow {fn stackOffset : Nat} {f : M3Function}
    (hstep : Step inst c (.call fn stackOffset) c') (hf : inst.module.functions[fn]? = some f)
    (hcode : f.compiled.isSome) (hdepth : d_m3MaxCallDepth ≤ c.rt.callDepth) :
    c' = { c with control := .ret (.trap .trapStackOverflow) } := by
  cases hstep with
  | call _ _ _ hlt => exact absurd hlt (UInt32.not_lt.mpr hdepth)
  | callOverflow => rfl
  | callMissing _ hf' hnone =>
    rw [hf, Option.some.injEq] at hf'
    rw [hf', hnone] at hcode
    cases hcode

theorem callIndirect_overflow {tableIndex stackOffset fn : Nat} {type : M3FuncType}
    (hstep : Step inst c (.callIndirect tableIndex type stackOffset) c')
    (htarget : indirectTarget inst tableIndex type = .ok fn)
    (hdepth : d_m3MaxCallDepth ≤ c.rt.callDepth) :
    c' = { c with control := .ret (.trap .trapStackOverflow) } := by
  cases hstep with
  | callIndirect _ _ hlt => exact absurd hlt (UInt32.not_lt.mpr hdepth)
  | callIndirectOverflow => rfl
  | callIndirectTraps _ herror => cases htarget.symm.trans herror

/-- The recursion guard in one reachable state. -/
structure CallDepthLaw (inst : Instance) (c : Config) : Prop where
  counted : c.rt.callDepth.toNat = activeCalls c.frames
  bounded : c.rt.callDepth ≤ d_m3MaxCallDepth
  -- the activation that would exceed the limit traps without entering its callee
  callTraps : ∀ fn stackOffset f c', Step inst c (.call fn stackOffset) c' →
    inst.module.functions[fn]? = some f → f.compiled.isSome →
    activeCalls c.frames + 1 > 1000 → c' = { c with control := .ret (.trap .trapStackOverflow) }
  callIndirectTraps : ∀ tableIndex type stackOffset fn c',
    Step inst c (.callIndirect tableIndex type stackOffset) c' →
    indirectTarget inst tableIndex type = .ok fn →
    activeCalls c.frames + 1 > 1000 → c' = { c with control := .ret (.trap .trapStackOverflow) }
  -- from the start of an m3_Call to its return, however it returns
  balanced : ∀ fn args entered returning returned,
    Step inst c (.callExport fn args) entered → entered.frames = exportFrames c fn →
    (machine inst).Within (fun s => exportFrames c fn <:+ s.frames) entered returning →
    returning.frames = exportFrames c fn → Step inst returning .unwind returned →
    returned.rt.callDepth = c.rt.callDepth
  restored : c.frames = [] → c.rt.callDepth = 0

theorem callDepthExact (h : (machine inst).Reachable c) : CallDepthLaw inst c := by
  have hinv := depth_reachable h
  have hcounted := hinv.counted
  have hbounded := hinv.bounded
  -- a thousand waiting calls are a depth at the limit
  have hlimit : ∀ {n : Nat}, n = 1000 → c.rt.callDepth.toNat = n →
      d_m3MaxCallDepth ≤ c.rt.callDepth := by
    intro n hn hdepth
    rw [UInt32.le_iff_toNat_le, hdepth, hn]
    exact Nat.le_refl _
  refine ⟨hcounted, ?_, ?_, ?_, ?_, ?_⟩
  · rw [UInt32.le_iff_toNat_le, hcounted]
    exact hbounded
  · intro fn stackOffset f c' hstep hf hcode hfull
    exact call_overflow hstep hf hcode (hlimit (by omega) hcounted)
  · intro tableIndex type stackOffset fn c' hstep htarget hfull
    exact callIndirect_overflow hstep htarget (hlimit (by omega) hcounted)
  · intro fn args entered returning returned hentered _ hwithin hframes hreturned
    -- both depths count calls, and the frames at the end are those of `c` again
    have hreach := hwithin.reachable (.step (a := .callExport fn args) h hentered)
    have hdepth := (depth_step (depth_reachable hreach) hreturned).counted
    rcases unwind_ret hreturned with ⟨r, hr⟩
    rcases exportCall_step hr hframes hreturned with ⟨result, f, -, -, rfl⟩
    apply UInt32.toNat_inj.mp
    rw [hcounted]
    exact hdepth
  · intro hframes
    apply UInt32.toNat_inj.mp
    rw [hcounted, hframes]
    rfl

theorem callDepthExact_entered : CallDepthLaw importAndBody bodyEntered :=
  callDepthExact bodyEntered_reachable

end WebAssemblyRuntime.Binding
