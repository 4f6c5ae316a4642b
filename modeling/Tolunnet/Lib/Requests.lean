import Mathlib.Data.List.Nodup
import Mathlib.Logic.Function.Basic

/-!
# `Tolunnet.Lib.Requests`: requests that a device answers at a port

A program sends a request to a device and gets it back at the request's reply port. In between the
device owns it. A request is with the program, with the device, or replied and in the queue of its
port; the last two are `Outstanding`. The device only moves a request from the second place to the
third, so it never changes what is outstanding (`outstanding_reply`).
-/

set_option autoImplicit false

namespace Requests

/-- Where a request is. -/
inductive Place where
  | ours | device | replied
  deriving DecidableEq, Repr

/-- The places of all requests, and what is queued at the ports. -/
structure Io (R P : Type) where
  place : R → Place
  queue : P → List R

namespace Io

variable {R P : Type} {port : R → P} {s : Io R P} {p : P} {q r : R}

/-- A request is outstanding until it is taken from its port. -/
def Outstanding (s : Io R P) (r : R) : Prop := s.place r ≠ .ours

instance (s : Io R P) : DecidablePred s.Outstanding := fun r =>
  inferInstanceAs (Decidable (s.place r ≠ .ours))

/-- Each reply is queued once, at the port of its request. -/
structure Sound (port : R → P) (s : Io R P) : Prop where
  queued : ∀ p r, r ∈ s.queue p ↔ s.place r = .replied ∧ port r = p
  once : ∀ p, (s.queue p).Nodup

/-- What is at the head of a port is replied, and belongs there. -/
theorem Sound.head (h : s.Sound port) (hq : (s.queue p).head? = some r) :
    s.place r = .replied ∧ port r = p :=
  (h.queued p r).mp (List.mem_of_head? hq)

/-! ## Sending -/

variable [DecidableEq R]

/-- Hands a request to the device. -/
def send (s : Io R P) (r : R) : Io R P := { s with place := Function.update s.place r .device }

theorem outstanding_send : (s.send r).Outstanding q ↔ q = r ∨ s.Outstanding q := by
  unfold Outstanding send
  by_cases h : q = r <;> simp [h]

theorem Sound.send (h : s.Sound port) (hr : ¬ s.Outstanding r) : (s.send r).Sound port where
  queued p q := by
    rw [Io.send, h.queued]
    by_cases eq : q = r
    · have ours : s.place r = .ours := not_not.mp hr
      simp [eq, ours]
    · simp [eq]
  once := h.once

/-! ## Replying and taking back -/

variable [DecidableEq P]

/-- The device replies a request that it has. -/
def reply (port : R → P) (s : Io R P) (r : R) : Io R P :=
  if s.place r = .device then
    { place := Function.update s.place r .replied
      queue := Function.update s.queue (port r) (s.queue (port r) ++ [r]) }
  else s

/-- Takes a request back from its port. -/
def take (port : R → P) (s : Io R P) (r : R) : Io R P :=
  { place := Function.update s.place r .ours
    queue := Function.update s.queue (port r) ((s.queue (port r)).erase r) }

theorem outstanding_reply : (s.reply port r).Outstanding q ↔ s.Outstanding q := by
  unfold Outstanding reply
  split
  · rename_i sent
    by_cases h : q = r
    · simp [h, sent]
    · simp [h]
  · rfl

theorem outstanding_take : (s.take port r).Outstanding q ↔ q ≠ r ∧ s.Outstanding q := by
  unfold Outstanding take
  by_cases h : q = r <;> simp [h]

theorem Sound.reply (h : s.Sound port) (r : R) : (s.reply port r).Sound port := by
  unfold Io.reply
  split
  · rename_i sent
    have fresh : r ∉ s.queue (port r) := fun mem => by
      rw [((h.queued _ _).mp mem).1] at sent
      cases sent
    constructor
    · intro p q
      by_cases hp : p = port r
      · subst hp
        by_cases eq : q = r
        · simp [eq]
        · simp [eq, h.queued]
      · by_cases eq : q = r
        · subst eq
          simp [hp, h.queued, sent, Ne.symm hp]
        · simp [hp, eq, h.queued]
    · intro p
      by_cases hp : p = port r
      · subst hp
        simpa using List.Nodup.append (h.once _) (List.nodup_singleton r) (by simpa using fresh)
      · simpa [hp] using h.once p
  · exact h

theorem Sound.take (h : s.Sound port) (r : R) : (s.take port r).Sound port where
  queued p q := by
    unfold Io.take
    by_cases hp : p = port r
    · subst hp
      by_cases eq : q = r
      · simp [eq, (h.once _).mem_erase_iff]
      · simp [eq, (h.once _).mem_erase_iff, h.queued]
    · by_cases eq : q = r
      · subst eq
        simp [hp, h.queued, Ne.symm hp]
      · simp [hp, eq, h.queued]
  once p := by
    unfold Io.take
    by_cases hp : p = port r
    · subst hp
      simpa using (h.once _).erase r
    · simpa [hp] using h.once p

end Io

end Requests
