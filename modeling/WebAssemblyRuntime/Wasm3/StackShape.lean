import WebAssemblyRuntime.Wasm3.Compilation
import WebAssemblyRuntime.Wasm3.Instructions

/-!
# StackShape — which values on the stack are still locals

`local.get` copies nothing: the value stays in the slot of the local until the local is written or a
block begins, and `FindReferencedLocalWithinCurrentBlock` moves it then.  For a local of two slots it
counts the second reference in one slot only, and a block whose result finds no slot is compiled as
if it had found one.  Code in which neither happens is told apart here, from the instructions alone.
-/

namespace WebAssemblyRuntime.Wasm3

/-- The values of the current block on the stack, the top first, each with the local that it may
still be, and how many values are below them. -/
structure StackShape where
  below : Nat
  refs : List (Option Nat)
  /-- The code can be reached. -/
  live : Bool

namespace StackShape

variable (s : StackShape) (wide : Nat → Bool)

def pop (n : Nat) : StackShape := { s with refs := s.refs.drop n }

/-- Values that are no locals. -/
def push (n : Nat) : StackShape := { s with refs := List.replicate n none ++ s.refs }

/-- The local is written, so what referred to it is elsewhere. -/
def forget (i : Nat) : StackShape :=
  { s with refs := s.refs.map fun ref => if ref = some i then none else ref }

/-- No value is in the slot of a local any more. -/
def settle : StackShape := { s with refs := s.refs.map fun _ => none }

def stop : StackShape := { s with live := false }

/-- Inside a block, above the place for its result. -/
def enter (type : M3FuncType) : StackShape :=
  ⟨s.below + s.refs.length + type.rets.length, [], s.live⟩

/-- A local of two slots is referred to once at most. -/
def once (i : Nat) : Bool := !wide i || s.refs.count (some i) ≤ 1

/-- A block with a result of the type can begin. -/
def begins (room : Nat) : Bool :=
  (s.refs.filterMap id).all (s.once wide) && s.below + s.refs.length < room

variable {s} {m n : Nat}

theorem pop_pop : (s.pop m).pop n = s.pop (m + n) := by
  rw [pop, pop, pop, List.drop_drop]

theorem push_push : (s.push m).push n = s.push (n + m) := by
  simp only [push, ← List.append_assoc, List.replicate_append_replicate]

theorem settle_settle : s.settle.settle = s.settle := by
  simp only [settle, List.map_map, Function.comp_def]

theorem settle_pop : s.settle.pop n = (s.pop n).settle := by
  simp only [settle, pop, List.map_drop]

theorem enter_settle (type : M3FuncType) : s.settle.enter type = s.enter type := by
  simp only [enter, settle, List.length_map]

end StackShape

/-- How many results an operator leaves. -/
def Operator.pushes : Operator → Nat
  | .store .. => 0
  | _ => 1

section

variable (M : WasmModule)

/-- The shape after an instruction. -/
def Instr.after (s : StackShape) : Instr → StackShape
  | .unreachable | .ret | .br _ | .brTable .. => s.stop
  | .nop => s
  | .drop | .globalSet _ | .brIf _ => s.pop 1
  | .select => (s.pop 3).push 1
  | .const _ | .globalGet _ | .memorySize => s.push 1
  | .localGet i => { s with refs := some i :: s.refs }
  | .localSet i => (s.forget i).pop 1
  | .localTee i => s.forget i
  | .operator op => (s.pop op.arity).push op.pushes
  | .memoryGrow => (s.pop 1).push 1
  | .memoryCopy | .memoryFill => s.pop 3
  | .block type _ | .loop type _ => s.settle.push type.rets.length
  | .ifThen type _ | .ifElse type .. => (s.pop 1).settle.push type.rets.length
  | .call functionIndex =>
      match M.functions[functionIndex]? with
      | some function => (s.pop function.type.args.length).push function.type.rets.length
      | none => s

def instrsAfter (s : StackShape) (is : List Instr) : StackShape :=
  is.foldl (fun s i => i.after M s) s

variable (wide : Nat → Bool) (room : Nat)

mutual

/-- The instruction needs no slots that the compiler miscounts.  In unreachable code a `select` may
leave its operands where they are, so there is none in it. -/
def Instr.counted (s : StackShape) : Instr → Bool
  | .select => s.live
  | .localSet i | .localTee i => s.once wide i
  | .block type body | .loop type body =>
      s.begins wide room && instrsCounted (s.enter type) body
  | .ifThen type body => s.begins wide room && instrsCounted ((s.pop 1).enter type) body
  | .ifElse type body other => s.begins wide room &&
      instrsCounted ((s.pop 1).enter type) body && instrsCounted ((s.pop 1).enter type) other
  | _ => true

def instrsCounted (s : StackShape) : List Instr → Bool
  | [] => true
  | i :: is => Instr.counted s i && instrsCounted (i.after M s) is

end

end

namespace WasmFunction

variable (function : WasmFunction)

/-- The local takes two slots. -/
def wide (i : Nat) : Bool :=
  (function.type.args ++ function.locals.map IntType.valueType)[i]? = some .i64

/-- The values on the stack that there are slots for in any case: two for each of them, and as many
that may be passed over for those of two slots. -/
def stackRoom : Nat :=
  (d_m3MaxFunctionSlots - d_m3MaxConstantTableSize) / 4 -
    (function.type.args.length + function.type.rets.length + function.locals.length)

/-- The shape that the body begins with. -/
def shape : StackShape := ⟨function.type.args.length + function.locals.length, [], true⟩

/-- The slots of every value in the body of the function are counted right. -/
def counted (M : WasmModule) : Bool :=
  instrsCounted M function.wide function.stackRoom function.shape function.body

end WasmFunction

-- a local of two slots that is written while the stack has it twice
example : (⟨⟨[.i64], [.i64]⟩, [], [.localGet 0, .localGet 0, .const (.i64 1), .localSet 0,
    .operator (.binop .i64 .add)]⟩ : WasmFunction).counted ⟨[], []⟩ = false := by decide

-- a block begins where the stack has the local once only
example : (⟨⟨[.i64], [.i64]⟩, [], [.localGet 0, .loop ⟨[], []⟩ [.localGet 0, .localGet 0,
    .operator (.binop .i64 .add), .localSet 0, .br 0]]⟩ : WasmFunction).counted ⟨[], []⟩ = true := by
  decide

end WebAssemblyRuntime.Wasm3
