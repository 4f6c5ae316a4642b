import Mathlib.Data.List.Forall2

/-!
# `Tolunnet.Lib.Fifo`: first in, first out

A queue takes values in at one end and hands them out at the other. `Run R came out q` is a history of
such a queue: `came` are the values that were put in, `out` what was handed out for them, with `R`
between a value and what is handed out for it, and `q` is what the queue holds at the end.

Nothing is lost and nothing is handed out twice: what came in is what went out, in order, followed by
what is still there (`Run.conserved`).
-/

set_option autoImplicit false

namespace Fifo

variable {α β : Type} {R : α → β → Prop} {came q : List α} {out : List β}

/-- A history of a queue. -/
inductive Run (R : α → β → Prop) : List α → List β → List α → Prop
  | empty : Run R [] [] []
  | push {came : List α} {out : List β} {q : List α} (a : α) (past : Run R came out q) :
      Run R (came ++ [a]) out (q ++ [a])
  | pop {came : List α} {out : List β} {q : List α} {a : α} {b : β}
      (past : Run R came out (a :: q)) (hand : R a b) : Run R came (out ++ [b]) q

/-- What came in is what went out, in order, and behind it what is still there. -/
theorem Run.conserved (run : Run R came out q) :
    ∃ gone, came = gone ++ q ∧ List.Forall₂ R gone out := by
  induction run with
  | empty => exact ⟨[], rfl, .nil⟩
  | push a past ih =>
    obtain ⟨gone, rfl, hands⟩ := ih
    exact ⟨gone, List.append_assoc .., hands⟩
  | @pop came out q a b past hand ih =>
    obtain ⟨gone, rfl, hands⟩ := ih
    -- the value at the head goes over to those that are gone
    refine ⟨gone ++ [a], ?_, List.rel_append hands (.cons hand .nil)⟩
    rw [List.append_assoc]
    rfl

end Fifo
