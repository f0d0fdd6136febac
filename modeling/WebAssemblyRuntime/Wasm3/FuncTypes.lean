import Mathlib.Logic.Function.Basic
import WebAssemblyRuntime.Reasoning.Results
import WebAssemblyRuntime.Reasoning.Transition
import WebAssemblyRuntime.Wasm3.Types

/-!
# FuncTypes — one copy of each function type

An environment keeps a list of the function types of its modules and hands out pointers into it;
`op_CallIndirect` then compares two types by their addresses.  `m3_Malloc` may give a freed address
again, so an allocation here is at any address that holds nothing.
-/

namespace WebAssemblyRuntime.Wasm3

open Reasoning

/-- The C structure behind an `IM3FuncType`: the results stand before the arguments in `types`. -/
structure FuncTypeRecord where
  numRets : Nat
  numArgs : Nat
  types : List M3ValueType
  /-- `AllocFuncType` makes room for both. -/
  allocated : numRets + numArgs ≤ types.length

namespace FuncTypeRecord

def toType (r : FuncTypeRecord) : M3FuncType where
  rets := r.types.take r.numRets
  args := (r.types.drop r.numRets).take r.numArgs

/-- `AreFuncTypesEqual`. -/
def areFuncTypesEqual (i_typeA i_typeB : FuncTypeRecord) : Bool :=
  if i_typeA.numRets = i_typeB.numRets ∧ i_typeA.numArgs = i_typeB.numArgs then
    i_typeA.types.take (i_typeA.numRets + i_typeA.numArgs) ==
      i_typeB.types.take (i_typeA.numRets + i_typeA.numArgs)
  else false

theorem toType_lengths (r : FuncTypeRecord) :
    r.toType.rets.length = r.numRets ∧ r.toType.args.length = r.numArgs := by
  have hroom := r.allocated
  constructor
  · rw [toType, List.length_take]
    omega
  · rw [toType, List.length_take, List.length_drop]
    omega

theorem rets_append_args (r : FuncTypeRecord) :
    r.toType.rets ++ r.toType.args = r.types.take (r.numRets + r.numArgs) :=
  List.take_add.symm

/-- The bytes compared are those of the results and the arguments, no more. -/
theorem areFuncTypesEqual_iff (a b : FuncTypeRecord) :
    areFuncTypesEqual a b = true ↔ a.toType = b.toType := by
  have ha := toType_lengths a
  have hb := toType_lengths b
  rw [areFuncTypesEqual]
  constructor
  · intro h
    by_cases hcounts : a.numRets = b.numRets ∧ a.numArgs = b.numArgs
    · rw [if_pos hcounts, beq_iff_eq, ← rets_append_args, hcounts.1, hcounts.2,
        ← rets_append_args] at h
      have hsplit := List.append_inj h (by omega)
      rw [M3FuncType.mk.injEq]
      exact hsplit
    · rw [if_neg hcounts] at h
      exact absurd h Bool.false_ne_true
  · intro h
    have hrets : a.numRets = b.numRets := by rw [← ha.1, ← hb.1, h]
    have hargs : a.numArgs = b.numArgs := by rw [← ha.2, ← hb.2, h]
    rw [if_pos ⟨hrets, hargs⟩, beq_iff_eq, ← rets_append_args, h, rets_append_args, hrets, hargs]

end FuncTypeRecord

/-- The part of an `M3Environment` that keeps function types: `funcTypes` is the linked list, and
`heap` what is at each address. -/
structure FuncTypeEnvironment where
  heap : Nat → Option FuncTypeRecord := fun _ => none
  funcTypes : List Nat := []

namespace FuncTypeEnvironment

/-- Whether the types at two addresses are equal. -/
def sameType (env : FuncTypeEnvironment) (newType addType : Nat) : Bool :=
  match env.heap newType, env.heap addType with
  | some a, some b => a.areFuncTypesEqual b
  | _, _ => false

/-- `Environment_AddFuncType`: the new `* io_funcType`. -/
def addFuncType (env : FuncTypeEnvironment) (addType : Nat) : Nat × FuncTypeEnvironment :=
  match env.funcTypes.find? fun newType => env.sameType newType addType with
  | some newType => (newType, { env with heap := Function.update env.heap addType none })
  | none => (addType, { env with funcTypes := addType :: env.funcTypes })

/-- A run of the environment, with every pointer it has handed out and the type asked for. -/
inductive Step : FuncTypeEnvironment × List (M3FuncType × Nat) → FuncTypeRecord →
    FuncTypeEnvironment × List (M3FuncType × Nat) → Prop where
  | add {env env' : FuncTypeEnvironment} {handed : List (M3FuncType × Nat)} {r : FuncTypeRecord}
      {addType newType : Nat} (hfree : env.heap addType = none)
      (h : addFuncType { env with heap := Function.update env.heap addType (some r) } addType =
        (newType, env')) :
      Step (env, handed) r (env', (r.toType, newType) :: handed)

def system : System (FuncTypeEnvironment × List (M3FuncType × Nat)) FuncTypeRecord where
  init s := s = ({}, [])
  step := Step

/-- The list has one record for each type, and the pointers handed out are in it. -/
structure Interned (s : FuncTypeEnvironment × List (M3FuncType × Nat)) : Prop where
  present : ∀ p ∈ s.1.funcTypes, ∃ r, s.1.heap p = some r
  unique : ∀ p ∈ s.1.funcTypes, ∀ q ∈ s.1.funcTypes, ∀ a b, s.1.heap p = some a →
    s.1.heap q = some b → a.toType = b.toType → p = q
  handed : ∀ t p, (t, p) ∈ s.2 → p ∈ s.1.funcTypes ∧ ∃ r, s.1.heap p = some r ∧ r.toType = t

/-- A type that is known already: the new record is freed, and the pointer is the old one. -/
theorem Interned.found {env : FuncTypeEnvironment} {handed : List (M3FuncType × Nat)}
    {addType newType : Nat} {r a : FuncTypeRecord} (hs : Interned (env, handed))
    (hfree : env.heap addType = none) (hnew : newType ∈ env.funcTypes)
    (ha : env.heap newType = some a) (htype : a.toType = r.toType) :
    Interned (⟨Function.update (Function.update env.heap addType (some r)) addType none,
      env.funcTypes⟩, (r.toType, newType) :: handed) := by
  have hheap : Function.update (Function.update env.heap addType (some r)) addType none =
      env.heap := by
    rw [Function.update_idem, ← hfree, Function.update_eq_self]
  rw [hheap]
  refine ⟨hs.present, hs.unique, ?_⟩
  intro t p hmem
  rcases List.mem_cons.mp hmem with heq | hmem
  · cases heq
    exact ⟨hnew, a, ha, htype⟩
  · exact hs.handed t p hmem

/-- A new type goes to the front of the list. -/
theorem Interned.fresh {env : FuncTypeEnvironment} {handed : List (M3FuncType × Nat)}
    {addType : Nat} {r : FuncTypeRecord} (hs : Interned (env, handed))
    (hfree : env.heap addType = none)
    (hother : ∀ p ∈ env.funcTypes, ∀ a, env.heap p = some a → a.toType ≠ r.toType) :
    Interned (⟨Function.update env.heap addType (some r), addType :: env.funcTypes⟩,
      (r.toType, addType) :: handed) := by
  have hheap : ∀ p ∈ env.funcTypes, Function.update env.heap addType (some r) p = env.heap p := by
    intro p hp
    refine Function.update_of_ne ?_ _ _
    rintro rfl
    rcases hs.present p hp with ⟨a, ha⟩
    exact absurd (hfree.symm.trans ha) nofun
  have hself : Function.update env.heap addType (some r) addType = some r :=
    Function.update_self ..
  refine ⟨?_, ?_, ?_⟩
  · intro p hp
    rcases List.mem_cons.mp hp with rfl | hp
    · exact ⟨r, hself⟩
    · rcases hs.present p hp with ⟨a, ha⟩
      exact ⟨a, (hheap p hp).trans ha⟩
  · intro p hpmem q hq b c hb hc htypes
    rcases List.mem_cons.mp hpmem with rfl | hp
    · cases hself.symm.trans hb
      rcases List.mem_cons.mp hq with rfl | hq
      · rfl
      · exact absurd htypes.symm (hother q hq c ((hheap q hq).symm.trans hc))
    · have hb' := (hheap p hp).symm.trans hb
      rcases List.mem_cons.mp hq with rfl | hq'
      · cases hself.symm.trans hc
        exact absurd htypes (hother p hp b hb')
      · exact hs.unique p hp q hq' b c hb' ((hheap q hq').symm.trans hc) htypes
  · intro t p hmem
    rcases List.mem_cons.mp hmem with heq | hmem
    · cases heq
      exact ⟨List.mem_cons_self, r, hself, rfl⟩
    · rcases hs.handed t p hmem with ⟨hp, b, hb, ht⟩
      exact ⟨List.mem_cons_of_mem _ hp, b, (hheap p hp).trans hb, ht⟩

theorem step_interned {s s' : FuncTypeEnvironment × List (M3FuncType × Nat)} {r : FuncTypeRecord}
    (hstep : Step s r s') (hs : Interned s) : Interned s' := by
  cases hstep with
  | @add env env' handed r addType newType hfree h =>
    -- how the search sees a record of the list
    have hsame : ∀ p ∈ env.funcTypes, ∀ a, env.heap p = some a →
        sameType { env with heap := Function.update env.heap addType (some r) } p addType =
          a.areFuncTypesEqual r := by
      intro p hp a ha
      have hne : p ≠ addType := by
        rintro rfl
        exact absurd (hfree.symm.trans ha) nofun
      rw [sameType]
      simp only [Function.update_of_ne hne, ha, Function.update_self]
    rw [addFuncType] at h
    simp only at h
    cases hfind : env.funcTypes.find? fun newType =>
        sameType { env with heap := Function.update env.heap addType (some r) } newType addType with
    | some found =>
      rw [hfind] at h
      cases h
      have hfound := List.mem_of_find?_eq_some hfind
      rcases hs.present _ hfound with ⟨a, ha⟩
      have hequal := List.find?_some hfind
      simp only [hsame _ hfound a ha] at hequal
      exact hs.found hfree hfound ha ((a.areFuncTypesEqual_iff r).mp hequal)
    | none =>
      rw [hfind] at h
      cases h
      refine hs.fresh hfree fun p hp a ha htype => ?_
      rw [← FuncTypeRecord.areFuncTypesEqual_iff, ← hsame p hp a ha] at htype
      exact List.find?_eq_none.mp hfind p hp htype

/-- In every run of an environment, two pointers it handed out are equal exactly if the types they
were handed out for are, and each still holds its type: none was freed, whatever addresses the
allocator gave out again. -/
theorem pointers_are_types {s : FuncTypeEnvironment × List (M3FuncType × Nat)}
    (h : system.Reachable s) {t t' : M3FuncType} {p p' : Nat} (hp : (t, p) ∈ s.2)
    (hp' : (t', p') ∈ s.2) :
    (p = p' ↔ t = t') ∧ ∃ r, s.1.heap p = some r ∧ r.toType = t := by
  have hinterned : Interned s := by
    refine h.invariant (P := Interned) ?_ fun s r s' hs hstep => step_interned hstep hs
    rintro s rfl
    refine ⟨?_, ?_, ?_⟩
    · intro p hp
      cases hp
    · intro p hp
      cases hp
    · intro t p hp
      cases hp
  rcases hinterned.handed t p hp with ⟨hmem, r, hr, ht⟩
  rcases hinterned.handed t' p' hp' with ⟨hmem', r', hr', ht'⟩
  refine ⟨⟨?_, ?_⟩, r, hr, ht⟩
  · rintro rfl
    cases hr.symm.trans hr'
    rw [← ht, ← ht']
  · intro htypes
    exact hinterned.unique p hmem p' hmem' r r' hr hr' (by rw [ht, ht', htypes])

/-- The record of a type with one result. -/
def oneResult : FuncTypeRecord := ⟨1, 0, [.i32], Nat.le_refl 1⟩

/-- The same type asked for twice, at two addresses. -/
theorem pointers_are_types_twice : ∃ s : FuncTypeEnvironment × List (M3FuncType × Nat),
    s.2 = [(⟨[.i32], []⟩, 1), (⟨[.i32], []⟩, 1)] ∧
      ((1 = 1 ↔ (⟨[.i32], []⟩ : M3FuncType) = ⟨[.i32], []⟩) ∧
        ∃ r, s.1.heap 1 = some r ∧ r.toType = ⟨[.i32], []⟩) := by
  have hfirst : Step ({}, []) oneResult (⟨Function.update (fun _ => none) 1 (some oneResult), [1]⟩,
      [(⟨[.i32], []⟩, 1)]) := @Step.add _ _ _ _ 1 _ rfl rfl
  have hsecond := @Step.add ⟨Function.update (fun _ => none) 1 (some oneResult), [1]⟩ _
    [(⟨[.i32], []⟩, 1)] oneResult 2 _ rfl rfl
  exact ⟨_, rfl, pointers_are_types (.step (.step (.init rfl) hfirst) hsecond)
    List.mem_cons_self List.mem_cons_self⟩

end FuncTypeEnvironment

end WebAssemblyRuntime.Wasm3
