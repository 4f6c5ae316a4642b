import Tolunnet.Abstract.Histories
import Tolunnet.Refine.Waits

/-!
# `Tolunnet.Refine.Histories`: what a stream hands over

On every stream that is still read, the bytes that have been handed to clients and those that are
queued are together the bytes that lwIP has delivered, in the order in which they came: across
reads, peeks, writes by other calls, the move from the accept queue to a slot, and the release of a
slot to another client. The window that has been opened again is exactly what was handed over while
there was a connection, so the peer never sends more than the daemon has room for.
-/

set_option autoImplicit false

namespace Tolunnet

open World

variable {w : World} {i : SlotIdx}

/-- The daemon loses, repeats and reorders nothing. -/
structure Delivers (w : World) : Prop where
  slots : ∀ i, (w.sockets i).inUse = true → (w.sockets i).type = sockStream →
    (w.sockets i).shutRd = false → (w.sockets i).hist.Agrees (w.sockets i).rx
  entries : ∀ i, ∀ x ∈ (w.sockets i).acceptQ, x.hist.Agrees x.earlyRx

/-- In every state that the daemon reaches. -/
theorem reached_delivers (hr : Reachable w) : Delivers w := by
  have histories : (abs (restTok Set.univ) w).Histories := by
    refine (hr.invariant (fun a => a.Histories) ?_ (fun w inp _ _ _ _ => ⟨fun _ => True, ?_, ?_⟩) ?_).2
    · refine ⟨fun i hu => ?_, fun i x hx => ?_, fun x hx => ?_⟩
      · cases hu
      · cases hx
      · cases hx
    · exact grants_all fun _ _ _ _ _ _ _ => Set.mem_univ _
    · exact fun a a' hs hi ha => hi.act hs ha
    · intro w c _ _ hi
      obtain ⟨fd, dtab, he⟩ := abs_clientStep (restTok Set.univ) w c
      rw [he]
      exact ⟨hi.slots, hi.entries, hi.inHand⟩
  -- at rest no slot is about to be freed
  exact ⟨fun i hu ht hs => histories.slots i hu ht hs (List.not_mem_nil), histories.entries⟩

/-- A client reads the first four bytes of six. -/
theorem reached_delivers_read :
    ((step (fed [1, 2, 3, 4, 5, 6]) (.ipc 1 recvMsg [])).sockets firstSlot).hist.returned
      = [1, 2, 3, 4] ∧ Delivers (step (fed [1, 2, 3, 4, 5, 6]) (.ipc 1 recvMsg [])) :=
  have reading : Reachable (step (fed [1, 2, 3, 4, 5, 6]) (.ipc 1 recvMsg [])) :=
    (fed_reach _).request 1 recvMsg [] 1 (by decide) (by decide) rfl ⟨0, by decide⟩ trivial
  ⟨by decide, reached_delivers reading⟩

end Tolunnet
