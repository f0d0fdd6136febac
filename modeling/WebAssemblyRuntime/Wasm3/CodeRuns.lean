import WebAssemblyRuntime.Reasoning.Transition
import WebAssemblyRuntime.Wasm3.CodePages

/-!
# CodeRuns — every run of writing code

What a compiler does with code pages, operation by operation: it makes room, writes the operation
and then its immediates.  Beside it the engine finishes a call when it is first made, and a runtime
may take over the pages of the one before it.
-/

namespace WebAssemblyRuntime.Wasm3

open M3CodePages

/-- A page that is being written, with the immediates that may still follow its last operation. -/
structure CodeWriter where
  page : Nat
  pending : Nat

/-- The pages of an environment with one runtime at a time, the pages being written, innermost first,
and `function->compiled`. -/
structure CodeRun where
  rt : M3CodePages := {}
  writers : List CodeWriter := []
  compiled : Nat → Option PC := fun _ => none

namespace CodeRun

/-- The pages that are being written. -/
def active (s : CodeRun) : List Nat := s.writers.map CodeWriter.page

inductive Action where
  /-- `AcquireCompilationCodePage`. -/
  | acquire
  /-- `EmitOp`. -/
  | emitOp (op : M3Op)
  /-- The lines that `Compile_BranchTable` asks for, and its `EmitOp`. -/
  | emitTable (targetCount : Nat)
  /-- `EmitSlotOffset`, `EmitConstant32`, `EmitWord64` or `EmitPointer`. -/
  | emit (w : CodeWord)
  /-- The assignment to a reserved pointer. -/
  | patch (pc target : PC)
  /-- `ReleaseCompilationCodePage`. -/
  | release
  /-- The assignment to `function->compiled`. -/
  | finish (functionIndex : Nat) (pc : PC)
  /-- `rewrite_op (op_Call)`, which `op_Compile` begins with. -/
  | rewrite (pc : PC)
  /-- What it does once the function is compiled. -/
  | link (pc : PC) (functionIndex : Nat) (target : PC)
  /-- `Runtime_Release`, and `m3_NewRuntime` on the same environment. -/
  | renew

/-- One step.  The compiler writes no more immediates than its operation has; that there is a line
for each is not asked for. -/
inductive Step : CodeRun → Action → CodeRun → Prop where
  | acquire {s : CodeRun} {page : Nat} {rt : M3CodePages}
      (h : s.rt.acquireCodePage = some (page, rt)) :
      Step s .acquire { s with rt := rt, writers := ⟨page, 0⟩ :: s.writers }
  | emitOp {s : CodeRun} {writer : CodeWriter} {writers : List CodeWriter} {op : M3Op} {page : Nat}
      {rt : M3CodePages} (hop : op ≠ .branchTable) (hwriters : s.writers = writer :: writers)
      (h : s.rt.ensureCodePageNumLines writer.page d_m3CodePageFreeLinesThreshold =
        some (page, rt)) :
      Step s (.emitOp op) { s with
        rt := rt.emitWord page (.op op)
        writers := ⟨page, op.numImmediates⟩ :: writers }
  | emitTable {s : CodeRun} {writer : CodeWriter} {writers : List CodeWriter}
      {targetCount page page' : Nat} {rt rt' : M3CodePages} (hwriters : s.writers = writer :: writers)
      (h : s.rt.ensureCodePageNumLines writer.page (targetCount + 4) = some (page, rt))
      (h' : rt.ensureCodePageNumLines page d_m3CodePageFreeLinesThreshold = some (page', rt')) :
      Step s (.emitTable targetCount) { s with
        rt := rt'.emitWord page' (.op .branchTable)
        writers := ⟨page', targetCount + 3⟩ :: writers }
  | emit {s : CodeRun} {page pending : Nat} {writers : List CodeWriter} (w : CodeWord)
      (hwriters : s.writers = ⟨page, pending + 1⟩ :: writers) :
      Step s (.emit w) { s with
        rt := s.rt.emitWord page w
        writers := ⟨page, pending⟩ :: writers }
  | patch {s : CodeRun} {pc : PC} (target : PC) (h : s.rt.word pc = some .patch) :
      Step s (.patch pc target) { s with rt := s.rt.setWord pc (.pc target) }
  | release {s : CodeRun} {writer : CodeWriter} {writers : List CodeWriter}
      (hwriters : s.writers = writer :: writers) :
      Step s .release { s with rt := s.rt.releaseCodePage writer.page, writers := writers }
  | finish {s : CodeRun} {functionIndex : Nat} (pc : PC) (h : s.compiled functionIndex = none) :
      Step s (.finish functionIndex pc) { s with
        compiled := Function.update s.compiled functionIndex (some pc) }
  | rewrite {s : CodeRun} {pc : PC} (h : s.rt.word pc = some (.op .compile)) :
      Step s (.rewrite pc) { s with rt := s.rt.setWord pc (.op .call) }
  | link {s : CodeRun} {pc target : PC} {functionIndex : Nat} (h : s.rt.word pc = some (.op .call))
      (hfunction : s.rt.word pc.next = some (.function functionIndex))
      (hcompiled : s.compiled functionIndex = some target) :
      Step s (.link pc functionIndex target) { s with rt := s.rt.setWord pc.next (.pc target) }
  | renew {s : CodeRun} : Step s .renew { rt := s.rt.renewRuntime }

def system : Reasoning.System CodeRun Action where
  init s := s = {}
  step := Step

/-! ## The pages -/

/-- The pages are well kept, and what a writer may still write fits in its page, with a bridge. -/
structure Kept (s : CodeRun) : Prop where
  pages : WellKept s.rt s.active
  room : ∀ writer ∈ s.writers, (s.rt.pages writer.page).lineIndex + writer.pending + 2 ≤
    (s.rt.pages writer.page).numLines

variable {s s' : CodeRun} {a : Action} {writer : CodeWriter} {writers : List CodeWriter}
  {page n : Nat} {rt : M3CodePages} {w : CodeWord}

theorem Kept.allocated (h : s.Kept) (hmem : writer ∈ s.writers) : writer.page < s.rt.allocated := by
  apply h.pages.allocated writer.page
  simp only [List.append_assoc]
  exact List.mem_append_left _ (List.mem_map_of_mem hmem)

theorem Kept.others (h : s.Kept) (hwriters : s.writers = writer :: writers)
    (hensured : Ensured s.rt writer.page (writers.map CodeWriter.page) n rt page) :
    ∀ other ∈ writers, other.page ≠ page ∧
      (rt.pages other.page).lineIndex + other.pending + 2 ≤ (rt.pages other.page).numLines := by
  intro other hmem
  have hpage := List.mem_map_of_mem (f := CodeWriter.page) hmem
  refine ⟨?_, ?_⟩
  · have hnodup := hensured.kept.nodup
    rw [List.append_assoc, List.append_assoc] at hnodup
    intro heq
    exact (List.nodup_cons.mp hnodup).1 (List.mem_append_left _ (heq ▸ hpage))
  · rw [hensured.others _ hpage]
    exact h.room other (hwriters ▸ List.mem_cons_of_mem _ hmem)

theorem Kept.setWord {pc : PC} (h : s.Kept) : Kept { s with rt := s.rt.setWord pc w } := by
  refine ⟨setWord_kept h.pages, fun writer hmem => ?_⟩
  simp only [M3CodePages.setWord]
  by_cases hpage : writer.page = pc.page
  · rw [hpage, Function.update_self, ← hpage]
    exact h.room writer hmem
  · rw [Function.update_of_ne hpage]
    exact h.room writer hmem

/-- Nothing that was emitted is lost, and no function is compiled again. -/
structure Extends (s s' : CodeRun) : Prop where
  settles : ∀ pc w, s.rt.word pc = some w →
    ∃ w', s'.rt.word pc = some w' ∧ w.Settles s'.compiled w'
  compiled : ∀ i target, s.compiled i = some target → s'.compiled i = some target

theorem Extends.trans {s'' : CodeRun} (h : s.Extends s') (h' : s'.Extends s'') : s.Extends s'' := by
  refine ⟨fun pc w hw => ?_, fun i target hi => h'.compiled i target (h.compiled i target hi)⟩
  rcases h.settles pc w hw with ⟨w', hw', hsettles⟩
  rcases h'.settles pc w' hw' with ⟨w'', hw'', hsettles'⟩
  exact ⟨w'', hw'', hsettles.trans hsettles' h'.compiled⟩

end CodeRun

end WebAssemblyRuntime.Wasm3
