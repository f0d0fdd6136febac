import WebAssemblyRuntime.Reasoning.Loops

/-!
# Codec — decoders that undo an encoding

A decoder takes a list from the front and gives back what it has not used.  It undoes an encoding
when it finds the value in front of any rest.
-/

namespace WebAssemblyRuntime.Reasoning

universe u v w t

variable {ε : Type u} {β : Type v} {α : Type w} {γ : Type t}

def Decodes (decode : List β → Except ε (α × List β)) (code : List β) (x : α) : Prop :=
  ∀ rest, decode (code ++ rest) = .ok (x, rest)

variable {decode : List β → Except ε (α × List β)} {code code' : List β} {x : α} {y : γ}

/-- One decoder after another reads one code after another. -/
theorem Decodes.bind {next : α × List β → Except ε (γ × List β)} (h : Decodes decode code x)
    (h' : Decodes (fun rest => next (x, rest)) code' y) :
    Decodes (fun bytes => (decode bytes).bind next) (code ++ code') y := by
  intro rest
  show (decode (code ++ code' ++ rest)).bind next = _
  rw [List.append_assoc, h]
  exact h' rest

theorem Decodes.map (h : Decodes decode code x) (f : α → γ) :
    Decodes (fun bytes => (decode bytes).bind fun r => .ok (f r.1, r.2)) code (f x) := by
  intro rest
  show (decode (code ++ rest)).bind _ = _
  rw [h]
  rfl

/-- A loop whose every iteration appends what it decodes. -/
theorem Decodes.loop {δ : Type t} {step : Nat → List α × List β → Except ε (List α × List β)}
    {encode : δ → List β} {entry : δ → α}
    (hstep : ∀ i xs d, Decodes (fun bytes => step i (xs, bytes)) (encode d) (xs ++ [entry d]))
    (ds : List δ) (i : Nat) (xs : List α) :
    Decodes (fun bytes => Reasoning.loop step ds.length i (xs, bytes)) (ds.flatMap encode)
      (xs ++ ds.map entry) := by
  induction ds generalizing i xs with
  | nil =>
    intro rest
    rw [List.map_nil, List.append_nil]
    rfl
  | cons d ds ih =>
    intro rest
    show (step i (xs, encode d ++ ds.flatMap encode ++ rest)).bind _ = _
    have hfirst := hstep i xs d (ds.flatMap encode ++ rest)
    simp only at hfirst
    rw [List.append_assoc, hfirst]
    show Reasoning.loop step ds.length (i + 1) (xs ++ [entry d], ds.flatMap encode ++ rest) = _
    have hrest := ih (i + 1) (xs ++ [entry d]) rest
    simp only at hrest
    rw [hrest, List.append_assoc]
    rfl

end WebAssemblyRuntime.Reasoning
