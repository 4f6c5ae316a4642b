import Tolunnet.Desk.Quiet

/-!
# `Tolunnet.Desk.Slots`: parked requests and the release of slots

The functions of `Tolunnet.Task.SlotTable` and `Tolunnet.Task.Recv` that do touch the accounts, as
moves. A request leaves a slot in three ways: it is answered on the spot, it is taken in hand, or
it is thrown away; the reaper does the last for the requests of a dead client.
-/

set_option autoImplicit false

namespace Tolunnet

open World

variable {P : Mark → Prop} {h : List MsgId} {w : World}

/-- The code in between makes moves. -/
abbrev Posts (P : Mark → Prop) (h : List MsgId) (w w' : World) : Prop :=
  Moves P (desk h w) (desk h w')

/-- Quiet code makes no moves. -/
theorem desk_posts : Blind (Posts P h) :=
  (desk_blind h).toBlind.mono (fun _ => .refl) (fun h h' => h.trans h') Moves.none

/-- A parked request is taken out and answered. -/
theorem moves_answer {d : Desk} {i : SlotIdx} {k : Pend} {m : MsgId} (hp : d.pend i k = some m) :
    Moves P d ((d.setPend i k none).say m) := by
  refine (Moves.one (.take d i k m hp) rfl).trans
    (Moves.one (.reply _ m (List.mem_cons_self ..)) ?_)
  show _ = (((d.setPend i k none).setHand (m :: d.hand)).say m).setHand ((m :: d.hand).erase m)
  rw [List.erase_cons_head]
  rfl

/-! ## Parked requests -/

/-- The bytes of a send are in no account. -/
@[simp] theorem desk_sendEnd (c : CallNo) (e : Errno) :
    desk h (w.emit (.sendEnd c e)) = desk h w := desk_emit _ rfl

/-- Answering what a field holds clears the field and replies. -/
theorem replyPending_moves (i : SlotIdx) (k : Pend) (r : Int) (e : Errno) :
    Moves P (desk h w) (desk h (replyPending w i k r e)) := by
  unfold replyPending
  split
  · exact .refl
  · rename_i m hm
    refine (moves_answer (d := desk h w) hm).congr ?_
    dsimp only
    split <;> simp

/-- A parked send replies once. -/
theorem tnSlotReplySend_moves (i : SlotIdx) (e : Errno) (reply : Bool) :
    Moves P (desk h w) (desk h (tnSlotReplySend w i e reply)) := by
  unfold tnSlotReplySend
  split
  · exact .refl
  · rename_i m hm
    dsimp only
    split
    · refine (moves_answer (d := desk h w) hm).congr ?_
      simp
    · refine .one (.lose _ i .send) ?_
      simp

/-- Answering and forgetting parked requests are moves. -/
theorem desk_replies : Replies (Posts P h) where
  toBlind := desk_posts
  reply _ i k r e := replyPending_moves i k r e
  replySend _ i e told := tnSlotReplySend_moves i e told
  clear _ i k := .one (.lose _ i k) (desk_setPending ..)

/-! ## Slots -/

/-- A slot leaves the parking lot. -/
theorem desk_vacate (i : SlotIdx) (f : TnSocketSlot → TnSocketSlot)
    (hp : (f (w.sockets i)).pending = (w.sockets i).pending)
    (hl : (f (w.sockets i)).parkedAs = none) :
    desk h (w.modSlot i f) = (desk h w).setLot i none := by
  unfold desk Desk.setLot
  congr 1 <;> funext j
  all_goals
    by_cases hj : j = i
    · subst hj
      simp [modSlot, hp, hl]
    · simp [modSlot, hj]

/-- A slot cleared for its next use holds no request and is not parked. -/
theorem clearSlot_moves (i : SlotIdx) : Moves P (desk h w) (desk h (clearSlot w i)) :=
  .one (.vacate _ i) (desk_vacate i _ rfl rfl)

/-- A new slot holds no request and is not parked. -/
theorem tnSlotAlloc_moves (i : SlotIdx) (base : Option BaseId) (task : TaskId)
    (domain type protocol : Int) :
    Moves P (desk h w) (desk h (tnSlotAlloc w i base task domain type protocol)) := by
  have fields : Moves P (desk h w) (desk h ((((w.setPending i .connect none).setPending i .accept
      none).setPending i .recv none).setPending i .send none)) := by
    simp only [desk_setPending]
    exact (((Relation.ReflTransGen.single (.lose _ i .connect)).tail (.lose _ i .accept)).tail
      (.lose _ i .recv)).tail (.lose _ i .send)
  refine fields.trans (Moves.one (.vacate _ i) ?_)
  simp only [desk_setPending]
  unfold desk Desk.setLot Desk.setPend tnSlotAlloc
  congr 1 <;> funext j
  · by_cases hj : j = i
    · subst hj
      funext k
      cases k <;> simp [modSlot, tnInitSocketSlot]
    · simp [modSlot, hj]
  · by_cases hj : j = i
    · subst hj
      simp [modSlot, tnInitSocketSlot, TnSocketSlot.parkedAs]
    · simp [modSlot, hj]

/-- A slot that is freed leaves its groups. -/
theorem mcastLeaveAt_moves (i : SlotIdx) (k : Fin 8) :
    Moves P (desk h w) (desk h (mcastLeaveAt i w k)) := by
  unfold mcastLeaveAt
  dsimp only
  split
  · rename_i hr
    unfold igmpLeavegroup
    split
    · exact .one (.leave (desk h w) k hr.1) rfl
    · rename_i hn
      exact .one (.stuck (desk h w) k hr.1 (by
        simp only [not_or, Int.not_lt] at hn
        exact hn.1)) rfl
  · exact .refl

/-- A freed slot answers what it held. -/
theorem tnSlotFree_moves (i : SlotIdx) : Moves P (desk h w) (desk h (tnSlotFree w i)) := by
  unfold tnSlotFree
  split
  · have leave : Moves P (desk h w) (desk h (tnMcastLeaveAll w i)) :=
      desk_posts.foldl _ _ (fun _ k _ => mcastLeaveAt_moves i k) w
    refine leave.trans ?_
    generalize tnMcastLeaveAll w i = w
    have queues : Moves P (desk h w) (desk h (tnAcceptQueueDrain (tnRxQueueDrain
        (freeRaw (freeTcp (freeUdp w i) i) i) i) i)) := .none (by simp)
    exact ((((queues.trans (replyPending_moves i .connect _ _)).trans
      (replyPending_moves i .accept _ _)).trans (replyPending_moves i .recv _ _)).trans
      (tnSlotReplySend_moves i _ _)).trans (clearSlot_moves i)
  · exact .refl

/-- The last reference frees the slot. -/
theorem tnSlotUnref_moves (i : SlotIdx) : Moves P (desk h w) (desk h (tnSlotUnref w i)) := by
  unfold tnSlotUnref
  split
  · have dec : Moves P (desk h w) (desk h (w.modSlot i fun s =>
        { s with refCount := s.refCount - 1 })) := .none (by simp)
    dsimp only
    split
    · exact dec.trans (tnSlotFree_moves i)
    · exact dec
  · exact .refl

/-! ## Handlers -/

/-- The request in hand is still there when the handler wants it replied, and parked when it is
deferred. -/
def Handled (P : Mark → Prop) (m : MsgId) (w : World) (r : World × TnIpcReplyAction) : Prop :=
  Moves P (desk [m] w) (desk (if r.2 = .replyNow then [m] else []) r.1)

/-- The handler answers at once and touches no account. -/
structure Plain (w : World) (r : World × TnIpcReplyAction) : Prop where
  now : r.2 = .replyNow
  same : ∀ h, desk h r.1 = desk h w

namespace Plain

variable {m : MsgId} {w' : World} {r : World × TnIpcReplyAction}

/-- A plain handler that answers. -/
theorem done (hw : ∀ h, desk h w' = desk h w) (v : Int) (e : Errno) : Plain w (done w' m v e) :=
  ⟨rfl, hw⟩

/-- A plain handler that refuses. -/
theorem fail (hw : ∀ h, desk h w' = desk h w) (e : Errno) : Plain w (fail w' m e) :=
  done hw (-1) e

/-- A plain handler is a handler. -/
theorem handled (hr : Plain w r) : Handled P m w r := by
  unfold Handled
  rw [if_pos hr.now]
  exact .none (hr.same [m])

/-- Quiet code may run before a plain handler. -/
theorem trans (hr : Plain w' r) (hw : ∀ h, desk h w' = desk h w) : Plain w r :=
  ⟨hr.now, fun h => (hr.same h).trans (hw h)⟩

end Plain

namespace Handled

variable {m : MsgId} {w' : World} {r : World × TnIpcReplyAction}

/-- A handler that answers after moves. -/
theorem done (hw : Moves P (desk [m] w) (desk [m] w')) (v : Int) (e : Errno) :
    Handled P m w (done w' m v e) := hw

/-- A handler that refuses after moves. -/
theorem fail (hw : Moves P (desk [m] w) (desk [m] w')) (e : Errno) :
    Handled P m w (fail w' m e) := hw

/-- Moves may come before a handler. -/
theorem trans (hw : Moves P (desk [m] w) (desk [m] w')) (hr : Handled P m w' r) :
    Handled P m w r := Relation.ReflTransGen.trans hw hr

/-- The request in hand is parked in a slot. -/
theorem put {i : SlotIdx} {k : Pend} (hr : r.2 = .defer)
    (hd : desk [] r.1 = (desk [] w).setPend i k (some m)) : Handled P m w r := by
  unfold Handled
  rw [if_neg (by rw [hr]; simp)]
  refine .one (.put (desk [m] w) i k m (List.mem_cons_self ..)) ?_
  rw [hd]
  simp [desk, Desk.setPend, Desk.setHand]

end Handled

/-! ## Receiving -/

/-- Reading on in the queue touches no account. -/
@[simp] theorem desk_rxAdvance (i : SlotIdx) (n : Nat) : desk h (rxAdvance w i n) = desk h w := by
  unfold rxAdvance
  refine desk_modSlot i _ ?_ ?_ <;> split <;> rfl

/-- Opening the window touches no account. -/
@[simp] theorem desk_rxWindow (i : SlotIdx) (n : Nat) : desk h (rxWindow w i n) = desk h w :=
  (desk_blind h).rxWindow ..

/-- Unlinking a segment touches no account. -/
@[simp] theorem desk_rxUnlink (i : SlotIdx) : desk h (rxUnlink w i) = desk h w := by
  unfold rxUnlink
  refine desk_modSlot i _ ?_ ?_ <;>
    · split
      · rfl
      · split <;> rfl

/-- Consuming bytes touches no account. -/
@[simp] theorem desk_rxConsume (i : SlotIdx) (n : Nat) : desk h (rxConsume w i n) = desk h w := by
  simp [rxConsume]

/-- Popping a datagram touches no account. -/
@[simp] theorem desk_rxPop (i : SlotIdx) : desk h (rxPop w i) = desk h w := by
  simp [rxPop]

/-- An address stored for the client is in no account. -/
@[simp] theorem desk_tnStoreClientSockaddr (m : MsgId) (ka kl port addr : Nat) :
    desk h (tnStoreClientSockaddr w m ka kl port addr) = desk h w :=
  (desk_blind h).tnStoreClientSockaddr ..

/-- Bytes stored for the client are in no account. -/
@[simp] theorem desk_storeChunks (m : MsgId) (bytes : List UInt8) (l : List IovChunk) :
    desk h (storeChunks w m bytes l) = desk h w := (desk_blind h).storeChunks ..

/-- A peek touches no account. -/
@[simp] theorem desk_recvmsgPeek (iovs : List Iovec) (n : Nat) (m : MsgId) (segs : List (List UInt8))
    (pos : IovPos) (copied : Nat) :
    desk h (recvmsgPeek iovs n m w segs pos copied).1 = desk h w := (desk_blind h).recvmsgPeek ..

/-- A scattered read touches no account. -/
@[simp] theorem desk_recvmsgTake (iovs : List Iovec) (n : Nat) (m : MsgId) (i : SlotIdx)
    (fuel : Nat) (pos : IovPos) (copied : Nat) :
    desk h (recvmsgTake iovs n m i fuel w pos copied).1 = desk h w := by
  induction fuel generalizing w pos copied with
  | zero => rfl
  | succ fuel ih =>
    unfold recvmsgTake
    split
    · rfl
    · split
      · rw [ih, desk_rxUnlink]
        split <;> simp
      · rfl

/-- How a receive handler ends: it answers, finds its own request parked already, or parks it. -/
inductive Recvd (w : World) (m : MsgId) (i : SlotIdx) (r : World × TnIpcReplyAction) : Prop where
  | plain (hr : Plain w r)
  | again (hr : r.2 = .defer) (hd : ∀ h, desk h r.1 = desk h w)
      (hp : (w.sockets i).pending .recv = some m)
  | parked (hr : r.2 = .defer) (hd : ∀ h, desk h r.1 = (desk h w).setPend i .recv (some m))
      (hp : (w.sockets i).pending .recv = none)

namespace Recvd

variable {m : MsgId} {i : SlotIdx} {w' : World} {r : World × TnIpcReplyAction} {flags : Int}

/-- A receive that answers. -/
theorem done (hw : ∀ h, desk h w' = desk h w) (v : Int) (e : Errno) :
    Recvd w m i (done w' m v e) := .plain (.done hw v e)

/-- A receive that refuses. -/
theorem fail (hw : ∀ h, desk h w' = desk h w) (e : Errno) : Recvd w m i (fail w' m e) :=
  .plain (.fail hw e)

/-- Quiet code may run before a receive. -/
theorem trans (hr : Recvd w' m i r) (hw : ∀ h, desk h w' = desk h w) : Recvd w m i r := by
  have hpend : (w'.sockets i).pending = (w.sockets i).pending :=
    congrFun (congrArg Desk.pend (hw [])) i
  cases hr with
  | plain hr => exact .plain (hr.trans hw)
  | again hr hd hp => exact .again hr (fun h => (hd h).trans (hw h)) (by rw [← hpend, hp])
  | parked hr hd hp =>
    exact .parked hr (fun h => by rw [hd h, hw h]) (by rw [← hpend, hp])

/-- Parking a receive hands the message to the slot. -/
theorem tnSlotParkRecv : Recvd w m i (tnSlotParkRecv w i m) := by
  unfold Tolunnet.tnSlotParkRecv
  split
  · rename_i m' hm
    split
    · rename_i he
      exact .again rfl (fun _ => rfl) (by rw [hm, he])
    · exact .fail (fun _ => rfl) _
  · rename_i hm
    exact .parked rfl (fun h => by simp) hm

/-- A stream with nothing queued answers, refuses or parks. -/
theorem recvStreamEmpty : Recvd w m i (recvStreamEmpty w m i flags) := by
  unfold Tolunnet.recvStreamEmpty
  dsimp only
  split_ifs
  · exact .done (fun _ => rfl) _ _
  · exact .fail (fun _ => rfl) _
  · exact .fail (fun _ => rfl) _
  · exact .fail (fun _ => rfl) _
  · exact tnSlotParkRecv

/-- An empty datagram queue refuses or parks. -/
theorem recvDgramEmpty : Recvd w m i (recvDgramEmpty w m i flags) := by
  unfold Tolunnet.recvDgramEmpty
  split
  · exact .fail (fun _ => rfl) _
  · exact tnSlotParkRecv

/-- A stream receive. -/
theorem recvStream (len : Nat) : Recvd w m i (recvStream w m i len flags) := by
  unfold Tolunnet.recvStream
  dsimp only
  split
  · split
    · exact .done (fun _ => by simp) _ _
    · exact .done (fun _ => by simp) _ _
  · split
    · exact .fail (fun _ => by simp) _
    · exact recvStreamEmpty

/-- A datagram receive. -/
theorem recvDgram (len : Nat) : Recvd w m i (recvDgram w m i len flags) := by
  unfold Tolunnet.recvDgram
  split
  · refine .done (fun _ => ?_) _ _
    split <;> simp
  · exact recvDgramEmpty

/-- `RECV` answers, refuses or parks. -/
theorem tnIpcCmdRecv : Recvd w m i (tnIpcCmdRecv w m (some i)) := by
  unfold Tolunnet.tnIpcCmdRecv
  dsimp only
  cases ((w.msgs m).ptrs 0).mem? with
  | none => exact .fail (fun _ => rfl) _
  | some f =>
    dsimp only
    split_ifs
    · exact .fail (fun _ => rfl) _
    · exact .fail (fun _ => rfl) _
    · exact recvStream _
    · exact recvDgram _
    · exact .fail (fun _ => rfl) _

/-- A datagram receive with its sender. -/
theorem recvfromDgram (len : Nat) : Recvd w m i (recvfromDgram w m i len flags) := by
  unfold Tolunnet.recvfromDgram
  split
  · refine .done (fun _ => ?_) _ _
    split <;> simp
  · exact recvDgramEmpty

/-- The sender's length is stored after the receive. -/
theorem storeFromlen (hr : Recvd w m i r) : Recvd w m i (storeFromlen r m) := by
  obtain ⟨w', act⟩ := r
  unfold Tolunnet.storeFromlen
  cases act with
  | replyNow =>
    have hw : ∀ h, desk h w' = desk h w := by
      cases hr with
      | plain hr => exact hr.same
      | again hr hd hp => cases hr
      | parked hr hd hp => cases hr
    dsimp only
    split
    · exact .plain ⟨rfl, fun h => by split <;> simp [hw]⟩
    · exact .plain ⟨rfl, hw⟩
  | defer => exact hr

/-- `RECVFROM` answers, refuses or parks. -/
theorem tnIpcCmdRecvfrom : Recvd w m i (tnIpcCmdRecvfrom w m (some i)) := by
  unfold Tolunnet.tnIpcCmdRecvfrom
  dsimp only
  cases ((w.msgs m).ptrs 0).mem? with
  | none => exact .fail (fun _ => rfl) _
  | some f =>
    dsimp only
    split_ifs
    · exact .fail (fun _ => rfl) _
    · exact .fail (fun _ => rfl) _
    · exact tnIpcCmdRecv.storeFromlen
    · exact recvfromDgram _
    · exact .fail (fun _ => rfl) _

/-- A scattered stream receive. -/
theorem recvmsgStream (hdr : Msghdr) (iovs : List Iovec) :
    Recvd w m i (recvmsgStream w m i hdr iovs flags) := by
  unfold Tolunnet.recvmsgStream
  dsimp only
  split
  · refine .done (fun _ => ?_) _ _
    split_ifs <;> simp
  · split
    · refine .done (fun _ => ?_) _ _
      split <;> simp
    · exact recvStreamEmpty

/-- A scattered datagram receive. -/
theorem recvmsgDgram (hdr : Msghdr) (iovs : List Iovec) :
    Recvd w m i (recvmsgDgram w m i hdr iovs flags) := by
  unfold Tolunnet.recvmsgDgram
  split
  · refine .done (fun _ => ?_) _ _
    split_ifs <;> simp
  · exact recvDgramEmpty

/-- `RECVMSG` answers, refuses or parks. -/
theorem tnIpcCmdRecvmsg : Recvd w m i (tnIpcCmdRecvmsg w m (some i)) := by
  unfold Tolunnet.tnIpcCmdRecvmsg
  dsimp only
  split
  · rename_i hdr j _ he
    cases he
    split
    · exact .fail (fun _ => rfl) _
    · split
      · exact .fail (fun _ => rfl) _
      · split_ifs
        · exact .fail (fun _ => rfl) _
        · exact .fail (fun _ => rfl) _
        all_goals
          first
          | exact (recvmsgStream _ _).trans fun _ => by simp
          | exact (recvmsgDgram _ _).trans fun _ => by simp
          | exact .fail (fun _ => by simp) _
  · rename_i he
    cases he
  · exact .fail (fun _ => rfl) _

/-- A parked receive is served by the handler of its own command. -/
theorem recvHandler : Recvd w m i (recvHandler w m i) := by
  unfold Tolunnet.recvHandler
  split
  · exact tnIpcCmdRecv
  · exact tnIpcCmdRecvfrom
  · exact tnIpcCmdRecvmsg
  · exact .fail (fun _ => rfl) _

/-- A receive handler that is called with the request in hand. -/
theorem handled (hr : Recvd w m i r) (hm : (w.sockets i).pending .recv ≠ some m) :
    Handled P m w r := by
  cases hr with
  | plain hr => exact hr.handled
  | again hr hd hp => exact absurd hp hm
  | parked hr hd hp => exact .put hr (hd [])

end Recvd

/-- `tn_service_pending_recv` answers the parked read or leaves it. -/
theorem tnServicePendingRecv_moves (i : SlotIdx) :
    Moves P (desk h w) (desk h (tnServicePendingRecv w i)) := by
  unfold tnServicePendingRecv
  split
  · exact .refl
  · rename_i m hm
    have hr : Recvd w m i (recvHandler w m i) := .recvHandler
    split
    · rename_i w' heq
      rw [heq] at hr
      have hw : desk h w' = desk h w := by
        cases hr with
        | plain hr => exact hr.same h
        | again hr hd hp => cases hr
        | parked hr hd hp => cases hr
      refine (moves_answer (d := desk h w) hm).congr ?_
      simp [hw]
    · rename_i w' heq
      rw [heq] at hr
      cases hr with
      | plain hr => cases hr.now
      | again hr hd hp => exact .none (hd h)
      | parked hr hd hp =>
        rw [hm] at hp
        cases hp

end Tolunnet
