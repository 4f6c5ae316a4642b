import Tolunnet.Desk.Slots
import Tolunnet.Refine.Requests

/-!
# `Tolunnet.Desk.Events`: lwIP's turn in the accounts

Every callback of `Tolunnet.Task.Callbacks` as moves. A callback answers parked requests and
deferred lookups, and the accept callback takes the parked `accept` in hand while it makes the new
slot. None of them parks a socket, defers a lookup or drops one, so they are moves under every
policy.
-/

set_option autoImplicit false

namespace Tolunnet

open World

variable {P : Mark → Prop} {h : List MsgId} {w : World} {i : SlotIdx} {p : PcbId}

/-! ## Connections -/

/-- An abort touches no account. -/
@[simp] theorem desk_tcpAbort (p : PcbId) : desk h (tcpAbort w p) = desk h w :=
  (desk_blind h).tcpAbort

/-- A wakeup touches no account. -/
@[simp] theorem desk_tnSignalSocket (i : SlotIdx) : desk h (tnSignalSocket w i) = desk h w :=
  (desk_blind h).tnSignalSocket

/-- A connection given to a slot touches no account. -/
@[simp] theorem desk_adoptPcb (m : MsgId) (j : SlotIdx) :
    desk h (adoptPcb w m i j p) = desk h w := (desk_blind h).adoptPcb ..

/-- A connection that arrives is queued, or answers a waiting `ACCEPT`. -/
theorem tnTcpAcceptCb_moves : Moves P (desk h w) (desk h (tnTcpAcceptCb w i p).1) := by
  unfold tnTcpAcceptCb
  dsimp only
  split
  · exact .refl
  · split
    · rename_i m hm
      -- the parked accept is in hand until the new slot is ready
      have taken : Moves P (desk h w) (desk (m :: h) (w.setPending i .accept none)) :=
        .one (.take (desk h w) i .accept m hm) (desk_setPending ..)
      have said : ∀ w' : World, Moves P (desk (m :: h) w') (desk h (w'.replyMsg m)) := fun w' =>
        .one (.reply _ m (List.mem_cons_self ..)) (by
          rw [desk_replyMsg]
          show _ = ((desk (m :: h) w').say m).setHand ((m :: h).erase m)
          rw [List.erase_cons_head]
          rfl)
      refine taken.trans ?_
      generalize w.setPending i .accept none = w1
      split
      · exact (Moves.none (by simp)).trans (said _)
      · rename_i j _
        refine (tnSlotAlloc_moves j (w.msgs m).socketBase (w.msgs m).clientTask afInet sockStream
          0).trans ?_
        generalize tnSlotAlloc w1 j _ _ _ _ _ = w2
        split
        · exact (tnSlotFree_moves j).trans ((Moves.none (by simp)).trans (said _))
        · exact (Moves.none (by simp)).trans (said _)
    · split
      · exact .none (by simp)
      · split
        · rename_i heq
          exact .none (by simp [desk_of_eq heq (desk_tnAcceptQueuePush ..)])
        · rename_i heq
          exact .none (by simp [desk_of_eq heq (desk_tnAcceptQueuePush ..)])

/-! ## Lookups -/

/-- A cleared lookup entry. -/
@[simp] theorem desk_clearDns (k : Fin 8) : desk h (clearDns w k) = (desk h w).clearDns k := rfl

/-- An answer finishes the record it matches, or comes too late. -/
theorem tnDnsFoundCb_moves (name : List Char) (addr : Option Nat) (m : MsgId) :
    Moves P (desk h w) (desk h (tnDnsFoundCb w name addr m)) := by
  unfold tnDnsFoundCb
  split
  · exact .one (.late _) rfl
  · rename_i k hk
    have hk := List.find?_some hk
    simp only [Bool.and_eq_true, beq_iff_eq] at hk
    have found : Moves P (desk h w) (((desk h w).clearDns k).say m) :=
      .one (.found (desk h w) k m hk.1.1 hk.1.2) rfl
    dsimp only
    split
    · exact found.congr (by simp)
    · exact found.congr (by simp [tnIpcFillHostentNow])
    · exact found.congr (by simp)

/-! ## lwIP's actions -/

/-- The callbacks make moves. -/
theorem desk_callbacks : Callbacks (fun _ _ => True) (Posts P h) where
  toStock := desk_stock desk_posts Moves.none
  reply := desk_replies.reply
  replySend := desk_replies.replySend
  clear := desk_replies.clear
  service _ i := tnServicePendingRecv_moves i
  found _ name addr m := tnDnsFoundCb_moves name addr m

/-- So does all of lwIP's turn. -/
theorem desk_wide : Wide (fun _ _ => True) (Posts P h) where
  toCallbacks := desk_callbacks
  setPcb _ _ _ := .none rfl
  onUdp _ _ _ _ := .none rfl
  onRaw _ _ _ _ := .none rfl
  modSlot w i f hf := .none ((desk_blind h).modSlot w i f hf)
  accept _ _ _ := tnTcpAcceptCb_moves

end Tolunnet
