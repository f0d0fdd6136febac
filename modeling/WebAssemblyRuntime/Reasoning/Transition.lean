import Mathlib.Logic.Basic

/-!
# Transition — labelled transition systems, guarded runs and nested segments

A `System` is a set of initial states and a step relation labelled by actions.  Invariants are
proved once by `Reachable.invariant`; a guarded system (`restrict`) takes only the steps that meet
a condition; a `Within` segment is a run all of whose states satisfy a predicate, which is how the
time between a call and its return is described.
-/

namespace WebAssemblyRuntime.Reasoning

universe u v

/-- A transition system over states `S`, driven by actions `A`. -/
structure System (S : Type u) (A : Type v) where
  init : S → Prop
  step : S → A → S → Prop

namespace System

variable {S : Type u} {A : Type v} {sys : System S A}

/-- The states reached by some finite run from an initial state. -/
inductive Reachable (sys : System S A) : S → Prop where
  | init {s : S} (h : sys.init s) : Reachable sys s
  | step {s t : S} {a : A} (hs : Reachable sys s) (ht : sys.step s a t) : Reachable sys t

/-- What holds initially and is kept by every step holds of every reachable state. -/
theorem Reachable.invariant {P : S → Prop} (hinit : ∀ s, sys.init s → P s)
    (hstep : ∀ s a t, P s → sys.step s a t → P t) {s : S} (h : sys.Reachable s) : P s := by
  induction h with
  | init h => exact hinit _ h
  | step _ ht ih => exact hstep _ _ _ ih ht

/-- The runs whose start meets `start` and whose every step meets `guard`. -/
def restrict (sys : System S A) (start : S → Prop) (guard : S → A → Prop) : System S A where
  init s := sys.init s ∧ start s
  step s a t := sys.step s a t ∧ guard s a

/-- `Within P s t`: a run from `s` to `t` that visits only states satisfying `P`. -/
inductive Within (sys : System S A) (P : S → Prop) : S → S → Prop where
  | refl {s : S} (h : P s) : Within sys P s s
  | step {s t u : S} {a : A} (hs : Within sys P s t) (ht : sys.step t a u) (hu : P u) :
      Within sys P s u

theorem Within.last {P : S → Prop} {s t : S} (h : sys.Within P s t) : P t := by
  cases h with
  | refl h => exact h
  | step _ _ h => exact h

theorem Within.trans {P : S → Prop} {s t u : S} (h : sys.Within P s t) (h' : sys.Within P t u) :
    sys.Within P s u := by
  induction h' with
  | refl _ => exact h
  | step _ ht hu ih => exact .step ih ht hu

theorem Within.reachable {P : S → Prop} {s t : S} (h : sys.Within P s t)
    (hs : sys.Reachable s) : sys.Reachable t := by
  induction h with
  | refl _ => exact hs
  | step _ ht _ ih => exact .step ih ht

/-- A relation to the start of a segment that every step inside it keeps holds at its end. -/
theorem Within.relative {P : S → Prop} {R : S → S → Prop} (hrefl : ∀ s, R s s)
    (hstep : ∀ s t a u, sys.Reachable t → P t → P u → sys.step t a u → R s t → R s u)
    {s t : S} (hs : sys.Reachable s) (h : sys.Within P s t) : R s t := by
  induction h with
  | refl _ => exact hrefl _
  | step hseg ht hu ih => exact hstep _ _ _ _ (hseg.reachable hs) hseg.last hu ht ih

end System

end WebAssemblyRuntime.Reasoning
