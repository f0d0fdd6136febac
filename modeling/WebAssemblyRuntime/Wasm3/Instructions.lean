import WebAssemblyRuntime.Wasm3.LinearMemory
import WebAssemblyRuntime.Wasm3.Types

/-!
# Instructions — WebAssembly code on integers, and what it means

The instructions of a function body as a tree, with blocks, loops and branches to labels, and an
evaluator for them with a budget of steps.  This is the meaning that compiled code is measured by;
it keeps the operand stack of each block apart and checks types where WebAssembly's validation
would have.
-/

namespace WebAssemblyRuntime.Wasm3

open Reasoning (readLE writeLE)

def IntType.valueType : IntType → M3ValueType
  | .i32 => .i32
  | .i64 => .i64

/-- A value on the operand stack. -/
structure Value where
  type : IntType
  bits : BitVec type.width
  deriving DecidableEq, Repr

namespace Value

def i32 (v : BitVec 32) : Value := ⟨.i32, v⟩
def i64 (v : BitVec 64) : Value := ⟨.i64, v⟩

def zero (t : IntType) : Value := ⟨t, 0⟩

def ofBool (b : Bool) : Value := i32 (if b then 1 else 0)

/-- The bits of a value of the type asked for. -/
def as (t : IntType) (v : Value) : Option (BitVec t.width) :=
  if h : v.type = t then some (h ▸ v.bits) else none

end Value

/-- The values `values`, the last one first, have the types `types`. -/
def Typed (values : List Value) (types : List M3ValueType) : Prop :=
  values.reverse.map (fun v => v.type.valueType) = types

instance (values : List Value) (types : List M3ValueType) : Decidable (Typed values types) :=
  inferInstanceAs (Decidable (_ = _))

/-- The instructions that take operands from the stack and leave a result, if any, on it. -/
inductive Operator where
  | unop (t : IntType) (op : IUnop)
  | eqz (t : IntType)
  | binop (t : IntType) (op : IBinop)
  | relop (t : IntType) (op : IRelop)
  | extend32S
  | wrap
  | extend (signed : Bool)
  | load (t : IntType) (SRC : MemType) (offset : BitVec 32)
  | store (t : IntType) (DEST : MemType) (offset : BitVec 32)
  deriving DecidableEq, Repr

inductive Instr where
  | unreachable
  | nop
  | drop
  | select
  | ret
  | const (v : Value)
  | localGet (i : Nat)
  | localSet (i : Nat)
  | localTee (i : Nat)
  | globalGet (i : Nat)
  | globalSet (i : Nat)
  | operator (op : Operator)
  | memorySize
  | memoryGrow
  | memoryCopy
  | memoryFill
  | block (type : M3FuncType) (body : List Instr)
  | loop (type : M3FuncType) (body : List Instr)
  | ifThen (type : M3FuncType) (body : List Instr)
  | ifElse (type : M3FuncType) (body other : List Instr)
  | br (depth : Nat)
  | brIf (depth : Nat)
  | brTable (depths : List Nat) (default : Nat)
  | call (functionIndex : Nat)

structure WasmFunction where
  type : M3FuncType
  locals : List IntType
  body : List Instr

structure WasmGlobal where
  type : IntType
  isMutable : Bool

/-- What a function body refers to. -/
structure WasmModule where
  functions : List WasmFunction
  globals : List WasmGlobal

/-- The number in `n` bytes of linear memory, extended to the type. -/
def loadValue (t : IntType) (SRC : MemType) (address offset : BitVec 32) (σ : Store) :
    Except M3Err Value :=
  let ea := address.toNat + offset.toNat
  let number := readLE σ.bytes SRC.size ea
  if σ.memLength < ea + SRC.size then .error .trapOutOfBoundsMemoryAccess
  else .ok ⟨t, if SRC.signed then BitVec.ofInt _ ((number : Int).bmod (2 ^ (8 * SRC.size)))
    else BitVec.ofNat _ number⟩

/-- The low bytes of a number, to linear memory. -/
def storeNumber (DEST : MemType) (number : Nat) (address offset : BitVec 32) (σ : Store) :
    Except M3Err Store :=
  let ea := address.toNat + offset.toNat
  if σ.memLength < ea + DEST.size then .error .trapOutOfBoundsMemoryAccess
  else .ok (σ.setBytes (writeLE σ.bytes DEST.size ea (number % 256 ^ DEST.size)))

/-- What an operator makes of its operands, the top of the stack first: its result, if it has one,
or a trap.  `none` is for operands that validation excludes. -/
def Operator.apply : Operator → List Value → Store → Option (Except M3Err (Option Value × Store))
  | .unop t op, [v], σ => do
      let x ← v.as t
      some (.ok (some ⟨t, op.eval x⟩, σ))
  | .eqz t, [v], σ => do
      let x ← v.as t
      some (.ok (some (.ofBool (x.toNat = 0)), σ))
  | .binop t op, [v', v], σ => do
      let x ← v.as t
      let y ← v'.as t
      some ((op.eval x y).map fun z => (some ⟨t, z⟩, σ))
  | .relop t op, [v', v], σ => do
      let x ← v.as t
      let y ← v'.as t
      some (.ok (some (.ofBool (op.eval x y)), σ))
  | .extend32S, [v], σ => do
      let x ← v.as .i64
      some (.ok (some (.i64 (BitVec.ofInt 64 ((x.toNat : Int).bmod (2 ^ 32)))), σ))
  | .wrap, [v], σ => do
      let x ← v.as .i64
      some (.ok (some (.i32 (BitVec.ofNat 32 x.toNat)), σ))
  | .extend signed, [v], σ => do
      let x ← v.as .i32
      some (.ok (some (.i64 (if signed then BitVec.ofInt 64 x.toInt else BitVec.ofNat 64 x.toNat)), σ))
  | .load t SRC offset, [v], σ => do
      let address ← v.as .i32
      some ((loadValue t SRC address offset σ).map fun v => (some v, σ))
  | .store t DEST offset, [v', v], σ => do
      let address ← v.as .i32
      let x ← v'.as t
      some ((storeNumber DEST x.toNat address offset σ).map fun σ' => (none, σ'))
  | _, _, _ => none

/-- How many operands an operator takes. -/
def Operator.arity : Operator → Nat
  | .unop .. | .eqz _ | .extend32S | .wrap | .extend _ | .load .. => 1
  | .binop .. | .relop .. | .store .. => 2

/-- A function body while it runs; the top of the stack is first. -/
structure Frame where
  locals : List Value
  stack : List Value
  store : Store

/-- How a sequence of instructions ends: it runs through, it branches to a label with the values on
the stack, it returns from the function, or it traps. -/
inductive Outcome where
  | normal (f : Frame)
  | branch (depth : Nat) (f : Frame)
  | ret (results : List Value) (store : Store)
  | trap (e : M3Err) (store : Store)

/-- A branch to a label takes as many values from the stack as the label has types. -/
def branchTo (labels : List (List M3ValueType)) (depth : Nat) (f : Frame) : Option Outcome :=
  match labels[depth]? with
  | none => none
  | some types =>
      let values := f.stack.take types.length
      if Typed values types then some (.branch depth { f with stack := values }) else none

/-- The end of a block, with the values `rest` below it. -/
def Outcome.leave (types : List M3ValueType) (rest : List Value) : Outcome → Option Outcome
  | .normal f =>
      if Typed f.stack types then some (.normal { f with stack := f.stack ++ rest }) else none
  | .branch 0 f => some (.normal { f with stack := f.stack ++ rest })
  | .branch (depth + 1) f => some (.branch depth f)
  | outcome => some outcome

/-- The end of a function. -/
def Outcome.finish (types : List M3ValueType) : Outcome → Option Outcome
  | .normal f => if Typed f.stack types then some (.ret f.stack f.store) else none
  | .branch 0 f => some (.ret f.stack f.store)
  | .branch (_ + 1) _ => none
  | outcome => some outcome

variable (M : WasmModule) (os : Nat → SysCalls)

/-- The instructions that neither branch nor enter other code. -/
def evalPlain (i : Instr) (f : Frame) : Option Outcome :=
  match i, f.stack with
  | .unreachable, _ => some (.trap .trapUnreachable f.store)
  | .nop, _ => some (.normal f)
  | .drop, _ :: rest => some (.normal { f with stack := rest })
  | .select, c :: v' :: v :: rest => do
      let condition ← c.as .i32
      if v.type = v'.type then
        some (.normal { f with stack := (if condition = 0 then v' else v) :: rest })
      else none
  | .const v, stack => some (.normal { f with stack := v :: stack })
  | .localGet i, stack => do
      let v ← f.locals[i]?
      some (.normal { f with stack := v :: stack })
  | .localSet i, v :: rest => do
      let old ← f.locals[i]?
      if old.type = v.type then
        some (.normal { f with locals := f.locals.set i v, stack := rest })
      else none
  | .localTee i, v :: rest => do
      let old ← f.locals[i]?
      if old.type = v.type then
        some (.normal { f with locals := f.locals.set i v, stack := v :: rest })
      else none
  | .globalGet i, stack => do
      let g ← M.globals[i]?
      some (.normal { f with stack := ⟨g.type, f.store.getGlobal g.type i⟩ :: stack })
  | .globalSet i, v :: rest => do
      let g ← M.globals[i]?
      let x ← v.as g.type
      if g.isMutable then
        some (.normal { f with stack := rest, store := f.store.setGlobal g.type i x })
      else none
  | .operator op, stack => do
      match ← op.apply (stack.take op.arity) f.store with
      | .error e => some (.trap e f.store)
      | .ok (result, σ) =>
          some (.normal { f with stack := result.toList ++ stack.drop op.arity, store := σ })
  | .memorySize, stack =>
      some (.normal { f with stack := .i32 (f.store.memSize.setWidth 32) :: stack })
  | .memoryGrow, v :: rest => do
      let pages ← v.as .i32
      let grown := f.store.memGrow os pages
      some (.normal { f with stack := .i32 (grown.1.setWidth 32) :: rest, store := grown.2 })
  | .memoryCopy, n :: s :: d :: rest => do
      match f.store.memCopy (← n.as .i32) (← s.as .i32) (← d.as .i32) with
      | .error e => some (.trap e f.store)
      | .ok σ => some (.normal { f with stack := rest, store := σ })
  | .memoryFill, n :: b :: d :: rest => do
      match f.store.memFill (← n.as .i32) (← b.as .i32) (← d.as .i32) with
      | .error e => some (.trap e f.store)
      | .ok σ => some (.normal { f with stack := rest, store := σ })
  | _, _ => none

mutual

/-- A sequence of instructions, with the types of the labels around it, the innermost first.  The
first number is a budget, and calls nest as deep as the second at most. -/
def evalInstrs : Nat → Nat → List (List M3ValueType) → List Instr → Frame → Option Outcome
  | 0, _, _, _, _ => none
  | _ + 1, _, _, [], f => some (.normal f)
  | fuel + 1, calls, labels, i :: is, f =>
      match evalInstr fuel calls labels i f with
      | some (.normal f') => evalInstrs fuel calls labels is f'
      | outcome => outcome

def evalInstr : Nat → Nat → List (List M3ValueType) → Instr → Frame → Option Outcome
  | 0, _, _, _, _ => none
  | fuel + 1, calls, labels, i, f =>
    match i, f.stack with
    | .block type body, stack =>
        let n := type.args.length
        if Typed (stack.take n) type.args then do
          (← evalInstrs fuel calls (type.rets :: labels) body
            { f with stack := stack.take n }).leave type.rets (stack.drop n)
        else none
    | .loop type body, stack =>
        let n := type.args.length
        if Typed (stack.take n) type.args then do
          match ← evalInstrs fuel calls (type.args :: labels) body
            { f with stack := stack.take n } with
          | .branch 0 f' =>
              evalInstr fuel calls labels (.loop type body)
                { f' with stack := f'.stack ++ stack.drop n }
          | outcome => outcome.leave type.rets (stack.drop n)
        else none
    | .ifThen type body, c :: rest => do
        let condition ← c.as .i32
        evalInstr fuel calls labels (.block type (if condition = 0 then [] else body))
          { f with stack := rest }
    | .ifElse type body other, c :: rest => do
        let condition ← c.as .i32
        evalInstr fuel calls labels (.block type (if condition = 0 then other else body))
          { f with stack := rest }
    | .br depth, _ => branchTo labels depth f
    | .brIf depth, c :: rest => do
        let condition ← c.as .i32
        if condition = 0 then some (.normal { f with stack := rest })
        else branchTo labels depth { f with stack := rest }
    | .brTable depths default, c :: rest => do
        let index ← c.as .i32
        branchTo labels (depths.getD index.toNat default) { f with stack := rest }
    | .ret, _ => do
        let types ← labels.getLast?
        let results := f.stack.take types.length
        if Typed results types then some (.ret results f.store) else none
    | .call functionIndex, stack => do
        let function ← M.functions[functionIndex]?
        let n := function.type.args.length
        if calls = 0 then none else
        match ← evalCall fuel (calls - 1) functionIndex (stack.take n).reverse f.store with
        | .ret results σ => some (.normal { f with stack := results ++ stack.drop n, store := σ })
        | outcome => some outcome
    | i, _ => evalPlain M os i f

/-- A call with its arguments in order; it ends in `ret` or `trap`. -/
def evalCall : Nat → Nat → Nat → List Value → Store → Option Outcome
  | 0, _, _, _, _ => none
  | fuel + 1, calls, functionIndex, args, σ => do
      let function ← M.functions[functionIndex]?
      if Typed args.reverse function.type.args then
        (← evalInstrs fuel calls [function.type.rets] function.body
          { locals := args ++ function.locals.map .zero, stack := [], store := σ }).finish
            function.type.rets
      else none

end

end WebAssemblyRuntime.Wasm3
