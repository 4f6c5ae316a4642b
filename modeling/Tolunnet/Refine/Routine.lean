import Tolunnet.Refine.Blind

/-!
# `Tolunnet.Refine.Routine`: what the callbacks and the readers do

A `Routine` relation is about the queues or the event words too. It says once of each operation on
these what the operation does, and from that every reading handler and every callback of
`Tolunnet.Task.Callbacks` is covered, so no development has to walk through these functions itself.

What a segment must be to enter a receive queue is `Fits`: its kind of slot and its bytes. A TCP
segment is not empty and a datagram may be, so a relation that knows of the difference has to know
which slots the datagram pcbs belong to.
-/

set_option autoImplicit false

namespace Tolunnet

open World

variable {Fits : Int → List UInt8 → Prop} {R : World → World → Prop} {w w' : World} {i : SlotIdx}
  {m : MsgId} {p : PcbId}

/-- The parts of a world that some relation is about, apart from messages and lookups. -/
def World.shown (w : World) :=
  (w.sockets, w.tcpPcbs, w.udpPcbs, w.rawPcbs, w.mcastJoins, w.bases, w.openBases, w.selectors,
    w.output)

/-- A relation that covers the operations on queues, event words and the selector table. -/
structure Stock (Fits : Int → List UInt8 → Prop) (R : World → World → Prop) : Prop
    extends Blind R where
  prefs : ∀ w c, R w { w with prefs := c }
  grow : ∀ w n, R w (tnSelectorTableGrow w n)
  event : ∀ w i e, R w (tnRecordSocketEvent w i e)
  /-- What a callback of a stream may queue. -/
  fits : ∀ k seg, seg ≠ [] → seg.length ≤ 0xFFFF → Fits k seg
  /-- What a callback of a datagram pcb may queue. -/
  udp : ∀ w w' p c seg, w.udpPcbs p = some c → seg.length ≤ 0xFFFF →
    (Fits (w.sockets c.arg).type seg → R w w') → R w w'
  raw : ∀ w w' p c seg, w.rawPcbs p = some c → seg.length ≤ 0xFFFF →
    (Fits (w.sockets c.arg).type seg → R w w') → R w w'
  push : ∀ w i seg ip port capped, Fits (w.sockets i).type seg →
    R w (tnRxQueuePushEx w i seg ip port capped).1
  drain : ∀ w i, R w (tnRxQueueDrain w i)
  fin : ∀ w e k ent, findEntry w e = some (k, ent) →
    R w (modEntry w k e fun x => { x with peerClosed := true })
  early : ∀ w e k ent seg, findEntry w e = some (k, ent) → seg ≠ [] → seg.length ≤ 0xFFFF →
    R w (modEntry w k e fun x =>
      { x with earlyRx := x.earlyRx ++ [{ p := seg }], earlyRxCount := x.earlyRxCount + 1,
               hist := { x.hist with accepted := x.hist.accepted ++ seg } })
  remove : ∀ w i e, R w (tnAcceptQueueRemove w i e)

/-- A relation that covers the callbacks: what they do to queues and events, and to parked
requests and lookups. -/
structure Callbacks (Fits : Int → List UInt8 → Prop) (R : World → World → Prop) : Prop
    extends Stock Fits R, Replies R where
  service : ∀ w i, R w (tnServicePendingRecv w i)
  found : ∀ w name addr m, R w (tnDnsFoundCb w name addr m)

/-- A relation that is about queues and events and not about who waits. -/
structure Routine (Fits : Int → List UInt8 → Prop) (R : World → World → Prop) : Prop
    extends Stock Fits R, Deaf R where
  /-- Prefs, counters and flags. -/
  rest : ∀ w w', w'.shown = w.shown → R w w'
  /-- A read of a stream, with its window update and without. -/
  consume : ∀ w i n, (w.sockets i).type = sockStream → R w (rxConsume w i n)
  skip : ∀ w i n, (w.sockets i).type = sockStream → R w (rxUnlink (rxAdvance w i n) i)
  pop : ∀ w i, R w (rxPop w i)
  free : ∀ w i, R w (tnSlotFree w i)
  /-- A socket is parked, or taken from where it is parked. -/
  parked : ∀ w i f, (f (w.sockets i)).shown =
    { w.sockets i with isParked := (f (w.sockets i)).isParked,
                       parkId := (f (w.sockets i)).parkId }.shown →
    (f (w.sockets i)).opts = (w.sockets i).opts → (f (w.sockets i)).tcpPcb = (w.sockets i).tcpPcb →
    R w (w.modSlot i f)

/-! ## The kind of a slot -/

/-- A view of the kinds of the slots shows nothing that quiet code changes. -/
theorem type_deaf (i : SlotIdx) : Deaf (Same fun w => (w.sockets i).type) := by
  have slot : ∀ (w : World) j (f : TnSocketSlot → TnSocketSlot),
      (f (w.sockets j)).type = (w.sockets j).type →
      ((w.modSlot j f).sockets i).type = (w.sockets i).type := fun w j f hf => by
    by_cases hj : i = j
    · subst hj
      simpa [World.modSlot] using hf
    · simp [World.modSlot, hj]
  exact {
    refl := fun _ => rfl
    trans := fun h h' => h'.trans h
    asked := fun _ => rfl
    modMsg := fun _ _ _ => rfl
    modBase := fun _ _ _ _ => rfl
    emit := fun _ _ _ => rfl
    out := fun _ _ _ => rfl
    modLive := fun _ _ => rfl
    sel := fun _ _ _ _ _ => rfl
    dropPcb := fun _ _ => rfl
    keepPcb := fun _ _ _ _ _ _ => rfl
    keepUdp := fun _ _ _ _ => rfl
    keepRaw := fun _ _ _ _ => rfl
    assign := fun w j f hf _ _ => slot w j f (congrArg (fun s => s.2.1) hf)
    replyMsg := fun _ _ => rfl
    setPending := fun w j _ _ => slot w j _ rfl
    dns := fun _ _ _ _ => rfl
    park := fun _ _ => rfl }

/-- A read keeps the kind. -/
theorem type_rxAdvance (n : Nat) : ((rxAdvance w i n).sockets i).type = (w.sockets i).type := by
  unfold rxAdvance World.modSlot
  dsimp only
  rw [Function.update_self]
  split <;> rfl

theorem type_rxUnlink : ((rxUnlink w i).sockets i).type = (w.sockets i).type := by
  unfold rxUnlink World.modSlot
  dsimp only
  rw [Function.update_self]
  split
  · rfl
  · split <;> rfl

namespace Stock

/-! ## Queues -/

/-- The wakeup and the event that follow a change of a slot. -/
theorem signalRecord (hr : Stock Fits R) (e : Nat) :
    R w (tnRecordSocketEvent (tnSignalSocket w i) i e) := hr.trans hr.tnSignalSocket (hr.event ..)

/-- A segment is copied to the queue of a slot. -/
theorem tnTcpQueueClone (hr : Stock Fits R) {seg : List UInt8} (capped : Bool) (hs : seg ≠ [])
    (hl : seg.length ≤ 0xFFFF) : R w (tnTcpQueueClone w i seg capped).1 := by
  have pushed : R w (tnRxQueuePushEx w.asked i seg 0 0 capped).1 :=
    hr.trans (hr.asked w) (hr.push _ _ _ _ _ _ (hr.fits _ seg hs hl))
  unfold Tolunnet.tnTcpQueueClone
  split_ifs
  · exact hr.refl w
  · split
    · rename_i heq
      exact hr.trans (of_pair heq pushed) (hr.emit _ _ rfl)
    · rename_i heq
      exact of_pair heq pushed
  · exact hr.asked w

/-- The end of a connection that waits in a queue. -/
theorem tnTcpQueuedRecvFin (hr : Stock Fits R) (e : EntId) : R w (tnTcpQueuedRecvFin w e p) := by
  unfold Tolunnet.tnTcpQueuedRecvFin
  split
  · rename_i k ent hfind
    exact hr.ite (hr.fin w e k ent hfind)
  · exact hr.refl w

/-- Early data of a connection that waits in a queue. -/
theorem tnTcpQueuedRecvCb (hr : Stock Fits R) (e : EntId) {seg : List UInt8} (hs : seg ≠ [])
    (hl : seg.length ≤ 0xFFFF) : R w (tnTcpQueuedRecvCb w e p seg).1 := by
  have asks : R w w.asked.asked := hr.trans (hr.asked w) (hr.asked _)
  unfold Tolunnet.tnTcpQueuedRecvCb
  split
  · exact hr.emit _ _ rfl
  · rename_i k ent hfind
    split_ifs
    · exact hr.refl w
    · exact hr.refl w
    · exact hr.trans (hr.trans asks (hr.early w.asked.asked e k ent seg hfind hs hl)) (hr.emit _ _ rfl)
    · exact asks
    · exact hr.asked w
    · exact hr.emit _ _ rfl

/-- A connection that waits in a queue is lost. -/
theorem tnTcpQueuedErrCb (hr : Stock Fits R) (e : EntId) : R w (tnTcpQueuedErrCb w e) := by
  unfold Tolunnet.tnTcpQueuedErrCb
  split
  · exact hr.remove ..
  · exact hr.refl w

/-- What is true of every action on a live full pcb is true of `onLive`. -/
theorem onLive (hr : Stock Fits R) {f : TcpPcb → World}
    (hf : ∀ c, w.tcpPcbs p = some c → R w (f c)) : R w (onLive w p f) := by
  unfold Tolunnet.onLive
  split
  · rename_i c hc
    split
    · exact hr.refl w
    · exact hf c hc
  · exact hr.refl w

end Stock

namespace Routine

/-! ## Receiving -/

/-- The consuming loop, by induction on the turns. -/
theorem recvmsgTake (hr : Routine Fits R) (iovs : List Iovec) (n fuel : Nat) (pos : IovPos)
    (copied : Nat) (hk : (w.sockets i).type = sockStream) :
    R w (recvmsgTake iovs n m i fuel w pos copied).1 := by
  induction fuel generalizing w pos copied with
  | zero => exact hr.refl w
  | succ fuel ih =>
    unfold Tolunnet.recvmsgTake
    split
    · exact hr.refl w
    · rename_i pkt _ _
      split
      · dsimp only
        generalize scatterAll iovs pos pkt.rest.length = r
        generalize hw1 : storeChunks w m pkt.rest r.1 = w1
        have stored : R w w1 := hw1 ▸ hr.storeChunks pkt.rest r.1
        have kind : (w1.sockets i).type = sockStream := by
          rw [← hw1]
          exact ((type_deaf i).storeChunks (w := w) (m := m) pkt.rest r.1).trans hk
        -- one turn is a read with its window update, or without one when nothing was copied
        have turn : R w1 (rxUnlink (if chunksLen r.1 > 0 then
              rxWindow (rxAdvance w1 i (chunksLen r.1)) i (chunksLen r.1)
            else rxAdvance w1 i (chunksLen r.1)) i) ∧
            ((rxUnlink (if chunksLen r.1 > 0 then
              rxWindow (rxAdvance w1 i (chunksLen r.1)) i (chunksLen r.1)
            else rxAdvance w1 i (chunksLen r.1)) i).sockets i).type = sockStream := by
          split
          · refine ⟨hr.consume w1 i _ kind, type_rxUnlink.trans ?_⟩
            exact ((type_deaf i).rxWindow (i := i) _).trans ((type_rxAdvance _).trans kind)
          · exact ⟨hr.skip w1 i _ kind, type_rxUnlink.trans ((type_rxAdvance _).trans kind)⟩
        exact hr.trans stored (hr.trans turn.1 (ih _ _ turn.2))
      · exact hr.refl w

/-- An empty queue: the end, an error, or the request waits. -/
theorem recvStreamEmpty (hr : Routine Fits R) (flags : Int) :
    R w (recvStreamEmpty w m i flags).1 := by
  unfold Tolunnet.recvStreamEmpty
  dsimp only
  split_ifs
  · exact hr.accede _ _
  · exact hr.refuse _
  · exact hr.refuse _
  · exact hr.refuse _
  · exact hr.tnSlotParkRecv

/-- An empty queue: the request waits unless it must not. -/
theorem recvDgramEmpty (hr : Routine Fits R) (flags : Int) : R w (recvDgramEmpty w m i flags).1 := by
  unfold Tolunnet.recvDgramEmpty
  split
  · exact hr.refuse _
  · exact hr.tnSlotParkRecv

/-- A stream is read or peeked at. -/
theorem recvStream (hr : Routine Fits R) (len : Nat) (flags : Int)
    (hk : (w.sockets i).type = sockStream) : R w (recvStream w m i len flags).1 := by
  unfold Tolunnet.recvStream
  dsimp only
  split
  · split
    · exact hr.done (hr.store ..) _ _
    · exact hr.done (hr.trans (hr.store ..) (hr.consume (w.store m 0 0 _) i _ hk)) _ _
  · split
    · exact hr.fail (hr.assign w i _ rfl rfl (.inl rfl)) _
    · exact hr.recvStreamEmpty flags

/-- A datagram leaves the queue unless it is peeked at. -/
theorem rxPopUnless (hr : Routine Fits R) (flags : Int) :
    R w (if hasFlag flags msgPeek then w else rxPop w i) := by
  split
  · exact hr.refl w
  · exact hr.pop w i

/-- A datagram is read or peeked at. -/
theorem recvDgram (hr : Routine Fits R) (len : Nat) (flags : Int) :
    R w (recvDgram w m i len flags).1 := by
  unfold Tolunnet.recvDgram
  split
  · exact hr.done (hr.trans (hr.store ..) (hr.rxPopUnless flags)) _ _
  · exact hr.recvDgramEmpty flags

/-- `recv` on each kind of socket. -/
theorem tnIpcCmdRecv (hr : Routine Fits R) (slot : Option SlotIdx) :
    R w (tnIpcCmdRecv w m slot).1 := by
  unfold Tolunnet.tnIpcCmdRecv
  dsimp only
  split
  · split_ifs with _ _ hk
    · exact hr.refuse _
    · exact hr.refuse _
    · exact hr.recvStream _ _ hk
    · exact hr.recvDgram _ _
    · exact hr.refuse _
  · exact hr.refuse _

/-- The datagram and its sender go to the client. -/
theorem recvfromDgram (hr : Routine Fits R) (len : Nat) (flags : Int) :
    R w (recvfromDgram w m i len flags).1 := by
  unfold Tolunnet.recvfromDgram
  split
  · refine hr.done (hr.trans ?_ (hr.rxPopUnless flags)) _ _
    exact hr.trans (hr.store ..) (hr.tnStoreClientSockaddr ..)
  · exact hr.recvDgramEmpty flags

/-- `recvfrom` on each kind of socket. -/
theorem tnIpcCmdRecvfrom (hr : Routine Fits R) (slot : Option SlotIdx) :
    R w (tnIpcCmdRecvfrom w m slot).1 := by
  unfold Tolunnet.tnIpcCmdRecvfrom
  dsimp only
  split
  · split_ifs
    · exact hr.refuse _
    · exact hr.refuse _
    · exact hr.storeFromlen (hr.tnIpcCmdRecv _)
    · exact hr.recvfromDgram _ _
    · exact hr.refuse _
  · exact hr.refuse _

/-- A stream is read into several buffers. -/
theorem recvmsgStream (hr : Routine Fits R) (hdr : Msghdr) (iovs : List Iovec) (flags : Int)
    (hk : (w.sockets i).type = sockStream) : R w (recvmsgStream w m i hdr iovs flags).1 := by
  have named : ∀ w : World, R w (if hdr.msgName.isSome then w.store m 0 4 (bytes32 0) else w) :=
    fun w => hr.ite (hr.store ..)
  unfold Tolunnet.recvmsgStream
  dsimp only
  split
  · refine hr.done (hr.trans ?_ (named _)) _ _
    split
    · exact hr.recvmsgPeek ..
    · exact hr.recvmsgTake _ _ _ _ _ hk
  · split
    · exact hr.done (named w) _ _
    · exact hr.recvStreamEmpty flags

/-- A datagram is read into several buffers. -/
theorem recvmsgDgram (hr : Routine Fits R) (hdr : Msghdr) (iovs : List Iovec) (flags : Int) :
    R w (recvmsgDgram w m i hdr iovs flags).1 := by
  unfold Tolunnet.recvmsgDgram
  split
  · dsimp only
    refine hr.done (hr.trans ?_ (hr.rxPopUnless flags)) _ _
    exact hr.trans (hr.trans (hr.storeChunks _ _) (hr.ite (hr.store ..)))
      (hr.ite (hr.trans (hr.store ..) (hr.store ..)))
  · exact hr.recvDgramEmpty flags

/-- `recvmsg` is checked first. -/
theorem tnIpcCmdRecvmsg (hr : Routine Fits R) (slot : Option SlotIdx) :
    R w (tnIpcCmdRecvmsg w m slot).1 := by
  unfold Tolunnet.tnIpcCmdRecvmsg
  dsimp only
  split
  · rename_i hdr j _
    split
    · exact hr.refuse _
    · split
      · exact hr.refuse _
      · split
        · exact hr.refuse _
        · split
          · exact hr.refuse _
          · generalize hw1 : (if hdr.msgControl = true then _ else _) = w1
            have stored : R w w1 := by
              rw [← hw1]
              split
              · exact hr.trans (hr.store ..) (hr.store ..)
              · exact hr.store ..
            refine hr.trans stored ?_
            split_ifs with hk
            · exact hr.recvmsgStream _ _ _ hk
            · exact hr.recvmsgDgram _ _ _
            · exact hr.refuse _
  · exact hr.refuse _
  · exact hr.refuse _

/-- A parked read goes through the handler again. -/
theorem recvHandler (hr : Routine Fits R) : R w (recvHandler w m i).1 := by
  unfold Tolunnet.recvHandler
  split
  · exact hr.tnIpcCmdRecv _
  · exact hr.tnIpcCmdRecvfrom _
  · exact hr.tnIpcCmdRecvmsg _
  · exact hr.refuse _

/-- A parked read is answered when there is something for it. -/
theorem tnServicePendingRecv (hr : Routine Fits R) : R w (tnServicePendingRecv w i) := by
  unfold Tolunnet.tnServicePendingRecv
  split
  · exact hr.refl w
  · split
    · rename_i heq
      refine hr.trans (of_pair heq hr.recvHandler) (hr.trans (hr.setPending _ i .recv none) ?_)
      exact hr.trans (hr.assign _ i _ rfl rfl (.inl rfl)) (hr.replyMsg ..)
    · rename_i heq
      exact of_pair heq hr.recvHandler

/-- What a deaf relation knows of queues covers the callbacks. -/
theorem callbacks (hr : Routine Fits R) : Callbacks Fits R where
  toStock := hr.toStock
  reply _ _ k r e := hr.replyPending k r e
  replySend _ _ e told := hr.tnSlotReplySend e told
  clear w i k := hr.setPending w i k none
  service _ _ := hr.tnServicePendingRecv
  found _ name addr _ := hr.tnDnsFoundCb name addr

end Routine

namespace Callbacks

/-! ## Callbacks of a stream -/

/-- A parked send goes on. -/
theorem tnTcpPollCb (hr : Callbacks Fits R) : R w (tnTcpPollCb w i p) := by
  unfold Tolunnet.tnTcpPollCb
  dsimp only
  exact hr.ite hr.tnTcpResumeSend

/-- A parked send goes on and the owner is woken. -/
theorem tnTcpSentCb (hr : Callbacks Fits R) : R w (tnTcpSentCb w i p) := by
  unfold Tolunnet.tnTcpSentCb
  dsimp only
  exact hr.ite (hr.trans (hr.ite hr.tnTcpResumeSend) (hr.signalRecord _))

/-- The owner is woken and a parked read served. -/
theorem announceRecv (hr : Callbacks Fits R) (e : Nat) : R w (announceRecv w i e) :=
  hr.trans (hr.signalRecord e) (hr.service ..)

/-- The other side has closed. -/
theorem tnTcpRecvFin (hr : Callbacks Fits R) : R w (tnTcpRecvFin w i p) := by
  unfold Tolunnet.tnTcpRecvFin
  dsimp only
  refine hr.ite (hr.trans ?_ (hr.announceRecv _))
  have closed : R w (w.modSlot i fun s => { s with tcpState := .peerClosed }) :=
    hr.assign w i _ rfl rfl (.inl rfl)
  split
  · exact hr.trans closed hr.tnTcpDetachFinished
  · exact closed

/-- A segment goes to the queue, if need be past its limit, or is dropped. -/
theorem tnTcpRecvCb (hr : Callbacks Fits R) {seg : List UInt8} (hs : seg ≠ [])
    (hl : seg.length ≤ 0xFFFF) : R w (tnTcpRecvCb w i p seg).1 := by
  unfold Tolunnet.tnTcpRecvCb
  dsimp only
  split
  · split
    · exact hr.trans (hr.tcpRecvedFor _) (hr.emit _ _ rfl)
    · have first := hr.tnTcpQueueClone (w := w) (i := i) true hs hl
      split
      · rename_i heq
        exact hr.trans (of_pair heq first) (hr.announceRecv _)
      · rename_i w1 heq
        have first := of_pair heq first
        split
        · have second := hr.trans first (hr.tnTcpQueueClone (i := i) false hs hl)
          split
          · rename_i heq
            exact hr.trans (of_pair heq second) (hr.announceRecv _)
          · rename_i w2 heq
            have noted : R w2 (w2.modSlot i fun s =>
              { s with hist := { s.hist with dropped := true } }) := hr.assign w2 i _ rfl rfl (.inl rfl)
            exact hr.trans (hr.trans (of_pair heq second) noted) (hr.emit _ _ rfl)
        · exact first
  · exact hr.emit _ _ rfl

/-- An established connection turns Nagle's algorithm off, which is an option. -/
theorem tnTcpConnectedCb (hr : Callbacks Fits R) (hn : R w (tcpNagle w p true)) :
    R w (tnTcpConnectedCb w i p) := by
  unfold Tolunnet.tnTcpConnectedCb
  dsimp only
  refine hr.ite (hr.trans (hr.trans (hr.trans hn ?_) (hr.signalRecord _)) (hr.reply ..))
  exact hr.assign _ i _ rfl rfl (.inl rfl)

/-- The connection is lost: the slot records why, and who waits is answered. -/
theorem tnTcpErrCb (hr : Callbacks Fits R) (e : ErrT) : R w (tnTcpErrCb w i e) := by
  have detached : R w (w.modSlot i fun s => { s with tcpPcb := none }) := hr.dropLink rfl rfl rfl
  unfold Tolunnet.tnTcpErrCb
  dsimp only
  refine hr.ite ?_
  split
  · generalize w.modSlot i _ = w1 at detached ⊢
    have closed : R w1 (w1.modSlot i fun s => { s with tcpState := .peerClosed, lastError := .ok }) :=
      hr.assign w1 i _ rfl rfl (.inl rfl)
    refine hr.trans (hr.trans (hr.trans detached closed) (hr.signalRecord (i := i) fdClose)) ?_
    exact hr.trans (hr.replySend ..) (hr.service ..)
  · generalize connErrno (w.sockets i).tcpState e = eno
    generalize w.modSlot i _ = w1 at detached ⊢
    have failed : R w1 (w1.modSlot i fun s => { s with tcpState := .error, lastError := eno }) :=
      hr.assign w1 i _ rfl rfl (.inl rfl)
    refine hr.trans (hr.trans (hr.trans detached failed) (hr.signalRecord (i := i) fdError)) ?_
    refine hr.trans (hr.trans (hr.ite ?_) (hr.replySend ..)) (hr.service ..)
    exact hr.trans (hr.reply ..) (hr.assign _ i _ rfl rfl (.inl rfl))

/-! ## Datagrams -/

/-- A datagram is queued and announced. -/
theorem queueDgram (hr : Callbacks Fits R) {seg : List UInt8} (ip port : Nat)
    (hf : Fits (w.sockets i).type seg) : R w (queueDgram w i seg ip port) := by
  have pushed : R w (tnRxQueuePushEx w.asked i seg ip port true).1 :=
    hr.trans (hr.asked w) (hr.push w.asked _ _ _ _ _ hf)
  unfold Tolunnet.queueDgram
  dsimp only
  split_ifs
  · exact hr.refl w
  · split
    · rename_i heq
      exact hr.trans (of_pair heq pushed) (hr.announceRecv _)
    · rename_i heq
      exact of_pair heq pushed
  · exact hr.asked w

/-! ## lwIP's actions -/

/-- A segment goes to the slot or to the waiting entry. -/
theorem deliver (hr : Callbacks Fits R) (c : TcpPcb) {seg : List UInt8} (hs : seg ≠ [])
    (hl : seg.length ≤ 0xFFFF) : R w (deliver w c p seg) := by
  unfold Tolunnet.deliver
  split
  · exact hr.refl w
  · split
    · exact hr.tnTcpRecvCb hs hl
    · exact hr.emit _ _ rfl
  · split
    · exact hr.tnTcpQueuedRecvCb _ hs hl
    · exact hr.emit _ _ rfl
    · exact hr.emit _ _ rfl

/-- The end goes to the slot or to the waiting entry. -/
theorem deliverFin (hr : Callbacks Fits R) (c : TcpPcb) : R w (deliverFin w c p) := by
  unfold Tolunnet.deliverFin
  split
  · exact hr.refl w
  · split
    · exact hr.tnTcpRecvFin
    · exact hr.refl w
  · split
    · exact hr.tnTcpQueuedRecvFin _
    · exact hr.refl w
    · exact hr.emit _ _ rfl

/-- The loss goes to the slot or to the waiting entry. -/
theorem deliverErr (hr : Callbacks Fits R) (c : TcpPcb) (e : ErrT) : R w (deliverErr w c p e) := by
  unfold Tolunnet.deliverErr
  split
  · exact hr.refl w
  · split
    · exact hr.tnTcpErrCb e
    · exact hr.refl w
  · split
    · exact hr.tnTcpQueuedErrCb _
    · exact hr.refl w
    · exact hr.emit _ _ rfl

/-- One action of lwIP. What an established and an incoming connection do is left open: both assign
to options. -/
theorem runEv (hr : Callbacks Fits R) {ev : LwipEv}
    (hc : ∀ p, ev = .connected p → ∀ w i, R w (Tolunnet.tnTcpConnectedCb w i p))
    (ha : ∀ l p ip port, ev = .accept l p ip port → ∀ w c, R w (deliverAccept w c p ip port)) :
    R w (runEv w ev) := by
  unfold Tolunnet.runEv
  cases ev with
  | connected p =>
    refine hr.onLive fun c live => ?_
    split
    · have opened := hr.keepPcb w p c { c with state := .established } live rfl
      exact hr.trans opened (hc p rfl _ _)
    · exact hr.refl w
  | recv p seg =>
    refine hr.onLive fun c _ => ?_
    split
    · rename_i hseg
      exact hr.deliver c hseg.2.1 hseg.2.2
    · exact hr.refl w
  | fin p => exact hr.onLive fun c _ => hr.ite (hr.deliverFin c)
  | sent p n q =>
    refine hr.onLive fun c live => ?_
    split
    · have acked := hr.keepPcb w p c { c with sndBuf := n, sndQueuelen := q } live rfl
      exact hr.ite (hr.trans acked hr.tnTcpSentCb)
    · exact hr.refl w
  | poll p =>
    refine hr.onLive fun c _ => ?_
    split
    · exact hr.tnTcpPollCb
    · exact hr.refl w
  | err p e =>
    refine hr.onLive fun c _ => ?_
    split
    · exact hr.refl w
    · exact hr.trans (hr.dropPcb ..) (hr.deliverErr c e)
  | accept l p ip port =>
    dsimp only
    split
    · exact hr.ite (ha l p ip port rfl w _)
    · exact hr.refl w
  | state p st => exact hr.onLive fun c live => hr.ite (hr.keepPcb w p c _ live rfl)
  | gone p => exact hr.onLive fun c _ => hr.ite (hr.dropPcb ..)
  | udpRecv p seg ip port =>
    dsimp only
    split
    · rename_i c hc
      split
      · rename_i hl
        refine hr.udp w _ p c seg hc hl fun hf => ?_
        exact hr.trans (hr.emit w _ rfl) (hr.queueDgram (w := w.emit _) ip port hf)
      · exact hr.refl w
    · exact hr.refl w
  | rawRecv p seg ip =>
    dsimp only
    split
    · rename_i c hc
      split
      · rename_i hl
        exact hr.raw w _ p c seg hc hl fun hf => hr.queueDgram ip 0 hf
      · exact hr.refl w
    · exact hr.refl w
  | dnsFound name addr m =>
    dsimp only
    split
    · exact hr.refl w
    · exact hr.found ..

/-- What a call that allocates a pcb may do to other connections. -/
theorem runErrs (hr : Callbacks Fits R) (evs : List LwipEv) : R w (runErrs w evs) := by
  refine hr.foldl _ _ (fun w ev _ => ?_) w
  cases ev with
  | err p e => exact hr.runEv (fun _ h => by cases h) fun _ _ _ _ h => by cases h
  | _ => exact hr.refl w

end Callbacks

end Tolunnet
