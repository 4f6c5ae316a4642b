import Tolunnet.Task.Select

/-!
# `Tolunnet.Task.SlotTable`: the socket slots

`slot_table.c`: allocation and release of slots and descriptors, the receive and accept
queues, and the helpers that park, finish and cancel a request. `tn_mcast_leave_all`, which
the daemon installs as `slot_free_hook`, comes from `ipc_setsockopt.c`.
-/

set_option autoImplicit false

namespace Tolunnet

open World

/-! ## Allocation -/

/-- `IPPROTO_RAW`. -/
def ipprotoRaw : Int := 255

/-- `tn_init_socket_slot`. -/
def tnInitSocketSlot (base : Option BaseId) (task : TaskId) (domain type protocol : Int) :
    TnSocketSlot :=
  { inUse := true, ownerBase := base, ownerTask := some task, domain := domain, type := type,
    protocol := protocol, opts := { hdrincl := protocol == ipprotoRaw }, refCount := 1,
    listenBacklog := acceptQueueMax }

/-- The first free slot. -/
def freeSlot? (w : World) : Option SlotIdx :=
  (List.finRange 64).find? fun i => !(w.sockets i).inUse

theorem slots_pos : 0 < 64 := by decide

/-- The slot that the first socket gets. -/
def firstSlot : SlotIdx := ⟨0, slots_pos⟩

/-- `tn_slot_alloc`: the slot is found by `freeSlot?`. -/
def tnSlotAlloc (w : World) (i : SlotIdx) (base : Option BaseId) (task : TaskId)
    (domain type protocol : Int) : World :=
  w.modSlot i fun _ => tnInitSocketSlot base task domain type protocol

/-- The first free descriptor of a base. -/
def freeFd? (base : TnSocketBase) : Option Nat :=
  (List.range base.dtablesize).find? fun fd => (base.fdMap fd).isNone

/-- The preferred descriptor when it is in range and free, else the first free one. -/
def pickFd? (base : TnSocketBase) (pref : Int) : Option Nat :=
  if 0 ≤ pref ∧ pref < base.dtablesize ∧ base.fdMap pref.toNat = none then some pref.toNat
  else freeFd? base

/-- `tn_slot_ref`. -/
def tnSlotRef (w : World) (i : SlotIdx) : World :=
  if (w.sockets i).inUse then w.modSlot i fun s => { s with refCount := s.refCount + 1 } else w

/-! ## Receive queue -/

/-- `tn_rx_queue_push_ex` on a slot in use; the packet record comes from the allocator. -/
def tnRxQueuePushEx (w : World) (i : SlotIdx) (seg : List UInt8) (ip port : Nat)
    (capped : Bool) : World × Bool :=
  let s := w.sockets i
  if !s.inUse || (capped && decide (maxRxQueuePerSocket ≤ s.rxCount)) then (w, false)
  else if w.ask.ok then
    (w.asked.modSlot i fun s =>
      { s with rx := s.rx ++ [{ p := seg, srcIp := ip, srcPort := port }],
               rxCount := s.rxCount + 1,
               hist := { s.hist with accepted := s.hist.accepted ++ seg } }, true)
  else (w.asked, false)

/-- `tn_rx_queue_drain`. -/
def tnRxQueueDrain (w : World) (i : SlotIdx) : World :=
  w.modSlot i fun s => { s with rx := [], rxCount := 0 }

/-- `tcp_recved(pcb, n)` for the connection of slot `i`. -/
def tcpRecvedFor (w : World) (i : SlotIdx) (p : PcbId) (n : Nat) : World :=
  (tcpRecved w p).modSlot i fun s => { s with hist := { s.hist with recved := s.hist.recved + n } }

/-- `tn_rx_queue_drain_with_recved`: the window of every packet goes back to the peer. -/
def tnRxQueueDrainWithRecved (w : World) (i : SlotIdx) : World :=
  let s := w.sockets i
  let w := match s.tcpPcb with
    | some p => s.rx.foldl (fun w pkt => tcpRecvedFor w i p (pkt.p.length - pkt.offset)) w
    | none => w
  tnRxQueueDrain w i

/-! ## Accept queue -/

/-- `tn_accept_entry_free(ent, TRUE)`: the connection is aborted. -/
def tnAcceptEntryFree (w : World) (ent : TnAcceptEntry) : World :=
  match ent.newPcb with
  | some p => tcpAbort (tcpErr (tcpRecv (tcpArg w p .null) p .null) p .null) p
  | none => w

/-- `tn_accept_queue_pop_entry` on a slot in use. -/
def tnAcceptQueuePopEntry (w : World) (i : SlotIdx) : World :=
  w.modSlot i fun s => { s with acceptQ := s.acceptQ.tail, acceptCount := s.acceptCount - 1 }

/-- `tn_accept_queue_remove`: the entry leaves the queue and is freed with its early data. -/
def tnAcceptQueueRemove (w : World) (i : SlotIdx) (e : EntId) : World :=
  if (w.sockets i).acceptQ.any (·.id == e) then
    w.modSlot i fun s =>
      { s with acceptQ := s.acceptQ.eraseP (·.id == e), acceptCount := s.acceptCount - 1 }
  else w

/-- Whether no queue holds an entry at address `e`. -/
def freshEntry (w : World) (e : EntId) : Bool :=
  (List.finRange 64).all fun i => (w.sockets i).acceptQ.all (·.id != e)

/-- `tn_accept_queue_push`: the entry record comes from the allocator. -/
def tnAcceptQueuePush (w : World) (i : SlotIdx) (p : PcbId) : World × Bool :=
  if !(w.sockets i).inUse then (w, false)
  else if w.ask.ok && freshEntry w w.ask.id then
    let e := w.ask.id
    let w := w.asked.modSlot i fun s =>
      { s with acceptQ := s.acceptQ ++ [{ id := e, newPcb := some p, listeningSlot := i }],
               acceptCount := s.acceptCount + 1 }
    (tcpErr (tcpRecv (tcpArg w p (.entry e)) p .queued) p .queued, true)
  else (w.asked, false)

/-- One turn of `tn_accept_queue_drain`. -/
def dropHeadEntry (w : World) (i : SlotIdx) : World :=
  match (w.sockets i).acceptQ with
  | ent :: rest => tnAcceptEntryFree (w.modSlot i fun s => { s with acceptQ := rest }) ent
  | [] => w

/-- `tn_accept_queue_drain`. -/
def tnAcceptQueueDrain (w : World) (i : SlotIdx) : World :=
  let w := (w.sockets i).acceptQ.foldl (fun w _ => dropHeadEntry w i) w
  w.modSlot i fun s => { s with acceptQ := [], acceptCount := 0 }

/-! ## Pending requests -/

/-- Takes the message out of a pending field and answers it; nothing when the field is
empty. The receive field clears its deadline with it. -/
def replyPending (w : World) (i : SlotIdx) (k : Pend) (r : Int) (e : Errno) : World :=
  match (w.sockets i).pending k with
  | none => w
  | some m =>
    let w := w.setPending i k none
    let w := if k = .recv then w.modSlot i fun s => { s with recvDeadlineTick := 0 } else w
    w.answerMsg m r e

/-- The deadline in main-loop ticks of a timeout, 0 when there is none. -/
def deadlineTick (w : World) (secs micro : Nat) : Nat :=
  if secs > 0 ∨ micro > 0 then
    let ms := (secs * 1000 + (micro + 999) % 2 ^ 32 / 1000) % 2 ^ 32
    let ticks := (ms + 99) % 2 ^ 32 / 100
    (w.mainloopTicks + (if ticks = 0 then 1 else ticks)) % 2 ^ 32
  else 0

/-- `tn_slot_park_recv`. -/
def tnSlotParkRecv (w : World) (i : SlotIdx) (m : MsgId) : World × TnIpcReplyAction :=
  match (w.sockets i).pending .recv with
  | some m' => if m' = m then (w, .defer) else fail w m .ealready
  | none =>
    let o := (w.sockets i).opts
    let w := w.setPending i .recv (some m)
    (w.modSlot i fun s =>
      { s with recvDeadlineTick := deadlineTick w o.rcvtimeoSecs o.rcvtimeoMicro }, .defer)

/-- The result a finished send reports: the bytes queued so far, else the error. -/
def sendResult (sendDone : Nat) (e : Errno) : Int × Errno :=
  if sendDone > 0 then ((sendDone : Int), .ok) else (-1, e)

/-- `tn_slot_reply_send`. -/
def tnSlotReplySend (w : World) (i : SlotIdx) (e : Errno) (reply : Bool) : World :=
  match (w.sockets i).pending .send with
  | none => w
  | some m =>
    let r := sendResult (w.sockets i).sendDone e
    let w := ((w.setPending i .send none).setReply m r.1 r.2).emit (.sendEnd (w.callOf m) e)
    let w := w.modSlot i fun s =>
      { s with sendDeadlineTick := 0, sendDone := 0, sendIov := none }
    if reply then w.replyMsg m else w

/-- `tn_slot_cancel_parked_send` on one slot; a `NULL` target is refused before the search. -/
def cancelParkedSendAt (w : World) (i : SlotIdx) (target : MsgId) : Option World :=
  if target ≠ 0 ∧ (w.sockets i).inUse ∧ (w.sockets i).pending .send = some target then
    some (tnSlotReplySend w i .eintr true)
  else none

/-- `(int32_t)(now - deadline) >= 0` on 32-bit ticks. -/
def tickReached (now deadline : Nat) : Bool :=
  decide ((now + 2 ^ 32 - deadline % 2 ^ 32) % 2 ^ 32 < 2 ^ 31)

/-- `tn_slot_check_recv_timeouts` on one slot. -/
def checkTimeoutsAt (w : World) (i : SlotIdx) : World :=
  let s := w.sockets i
  let w := if s.inUse ∧ (s.pending .send).isSome ∧ s.sendDeadlineTick ≠ 0 ∧
      tickReached w.mainloopTicks s.sendDeadlineTick then
    tnSlotReplySend w i .ewouldblock true else w
  let s := w.sockets i
  if s.inUse ∧ (s.pending .recv).isSome ∧ s.recvDeadlineTick ≠ 0 ∧
      tickReached w.mainloopTicks s.recvDeadlineTick then
    replyPending w i .recv (-1) .ewouldblock
  else w

/-- `tn_slot_check_recv_timeouts`. -/
def tnSlotCheckRecvTimeouts (w : World) : World := (List.finRange 64).foldl checkTimeoutsAt w

/-- Whether a pending field holds a message of base `b`. -/
def pendingOf (w : World) (i : SlotIdx) (k : Pend) (b : BaseId) : Bool :=
  match (w.sockets i).pending k with
  | some m => (w.msgs m).socketBase == some b
  | none => false

/-- `tn_recv_cancel_for_base2` on one slot. -/
def recvCancelAt (b : BaseId) (reply : Bool) (w : World) (i : SlotIdx) : World :=
  let w := if (w.sockets i).inUse && pendingOf w i .recv b then
      if reply then replyPending w i .recv (-1) .econnaborted
      else
        match (w.sockets i).pending .recv with
        | some m =>
          ((w.setPending i .recv none).modSlot i fun s =>
            { s with recvDeadlineTick := 0 }).setReply m (-1) .econnaborted
        | none => w
    else w
  if (w.sockets i).inUse && pendingOf w i .send b then
    tnSlotReplySend w i .econnaborted reply else w

/-- `tn_recv_cancel_for_base2`. -/
def tnRecvCancelForBase2 (w : World) (b : BaseId) (reply : Bool) : World :=
  (List.finRange 64).foldl (recvCancelAt b reply) w

/-- `tn_slot_clear_owner_base` on one slot. -/
def clearOwnerAt (b : BaseId) (w : World) (i : SlotIdx) : World :=
  if (w.sockets i).inUse && (w.sockets i).ownerBase == some b then
    w.modSlot i fun s => { s with ownerBase := none, ownerTask := none }
  else w

/-- `tn_slot_clear_owner_base`. -/
def tnSlotClearOwnerBase (w : World) (b : BaseId) : World :=
  (List.finRange 64).foldl (clearOwnerAt b) w

/-! ## Release -/

/-- One turn of `tn_mcast_leave_all`: the result of `igmp_leavegroup` is not looked at. -/
def mcastLeaveAt (i : SlotIdx) (w : World) (k : Fin 8) : World :=
  let r := w.mcastJoins k
  if r.inUse ∧ r.slot = i then
    let w := (igmpLeavegroup w r.ifa r.grp).1
    { w with mcastJoins := Function.update w.mcastJoins k { r with inUse := false } }
  else w

/-- `tn_mcast_leave_all`. -/
def tnMcastLeaveAll (w : World) (i : SlotIdx) : World := (List.finRange 8).foldl (mcastLeaveAt i) w

/-- The UDP part of `tn_slot_free`. -/
def freeUdp (w : World) (i : SlotIdx) : World :=
  match (w.sockets i).udpPcb with
  | some p => (w.setUdp p none).modSlot i fun s => { s with udpPcb := none }
  | none => w

/-- The raw part of `tn_slot_free`. -/
def freeRaw (w : World) (i : SlotIdx) : World :=
  match (w.sockets i).rawPcb with
  | some p => (w.setRaw p none).modSlot i fun s => { s with rawPcb := none }
  | none => w

/-- The TCP part of `tn_slot_free`: a listener only loses its argument and accept callback,
a full pcb all of its callbacks. -/
def freeTcp (w : World) (i : SlotIdx) : World :=
  match (w.sockets i).tcpPcb with
  | none => w
  | some p =>
    let w := w.modSlot i fun s => { s with tcpPcb := none }
    if (w.sockets i).tcpState = .listening then
      (tcpClose (tcpAccept (tcpArg w p .null) p false) p).1
    else tcpCloseOrAbort (tcpDetach w p) p

/-- The last assignments of `tn_slot_free`. -/
def clearSlot (w : World) (i : SlotIdx) : World :=
  w.modSlot i fun s =>
    { s with rxCount := 0, refCount := 0, parkId := 0, isParked := false, inUse := false,
             ownerBase := none, ownerTask := none }

/-- `tn_slot_free`. -/
def tnSlotFree (w : World) (i : SlotIdx) : World :=
  if (w.sockets i).inUse then
    let w := freeRaw (freeTcp (freeUdp (tnMcastLeaveAll w i) i) i) i
    let w := tnAcceptQueueDrain (tnRxQueueDrain w i) i
    let w := replyPending w i .connect (-1) .ebadf
    let w := replyPending w i .accept (-1) .ebadf
    let w := replyPending w i .recv (-1) .ebadf
    clearSlot (tnSlotReplySend w i .ebadf true) i
  else w

/-- `tn_slot_unref`. -/
def tnSlotUnref (w : World) (i : SlotIdx) : World :=
  if (w.sockets i).inUse then
    let w := w.modSlot i fun s => { s with refCount := s.refCount - 1 }
    if (w.sockets i).refCount = 0 then tnSlotFree w i else w
  else w

end Tolunnet
