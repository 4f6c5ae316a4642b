import Tolunnet.Task.Recv

/-!
# `Tolunnet.Task.Callbacks`: what lwIP calls

The callbacks of `ipc_tcp.c`, `slot_table.c`, `ipc_dgram.c` and `ipc_netdb.c`, and `runEv`,
which performs one action of lwIP: it changes the pcb as lwIP does and calls the registered
callback. An action that lwIP cannot take in the present state changes nothing, so lwIP only
calls what is registered on a live pcb: data arrives on synchronized connections, `connected`
follows `SYN_SENT`, the error callback runs after the pcb is freed.
-/

set_option autoImplicit false

namespace Tolunnet

open World

/-! ## Sending -/

/-- The entry that holds byte `done`, empty ones skipped: the remaining array and the stream
offset of its first entry. `none` is the `ERR_VAL` exit. -/
def skipIov (done : Nat) : List Iovec → Nat → Option (List Iovec × Nat)
  | [], _ => none
  | v :: rest, vbase =>
    if done - vbase < v.iovLen then some (v :: rest, vbase)
    else skipIov done rest (vbase + v.iovLen)

/-- The source bytes of the next chunk and how many there are, from the plain buffer or from
the entry that holds byte `done`. -/
def sendSource (buf : Mem) (iov : Option (List Iovec × Nat)) (len done : Nat) : Mem × Nat :=
  match iov with
  | some (v :: _, vbase) =>
    (fun k => (v.iovBase.getD fun _ => 0) (done - vbase + k), v.iovLen - (done - vbase))
  | _ => (fun k => buf (done + k), len - done)

/-- `tn_tcp_write_some` for request `c`. `iov` is the array from the current entry on, with
that entry's stream offset. Every turn of the loop queues at least one byte, which bounds the
turns by `len - done`. -/
def tnTcpWriteSome (p : PcbId) (c : CallNo) (buf : Mem) (len : Nat) :
    Nat → World → Option (List Iovec × Nat) → Nat → World × Nat × ErrT
  | 0, w, _, done => (w, done, .ok)
  | fuel + 1, w, iov, done =>
    if done < len then
      let w := w.readFull p .sndBuf
      let sndBuf := match w.tcpPcbs p with
        | some b => b.sndBuf
        | none => 0
      if sndBuf = 0 then (w, done, .mem)
      else
        let cur := match iov with
          | none => some none
          | some (l, vbase) => (skipIov done l vbase).map some
        match cur with
        | none => (w, done, .val)
        | some iov =>
          let src := sendSource buf iov len done
          let chunk := min (clip16 src.2) sndBuf
          match tcpWrite w p c (memBytes src.1 0 chunk) with
          | (w, .ok) => tnTcpWriteSome p c buf len fuel w iov (done + chunk)
          | (w, e) => (w, done, e)
    else (w, done, .ok)

/-- `tn_tcp_write_errno`. -/
def tnTcpWriteErrno : ErrT → Errno
  | .conn | .clsd => .enotconn
  | .arg | .val => .einval
  | _ => .enobufs

/-- The client's buffer behind pointer 0. -/
def bufOf (x : TnIpcMsg) : Mem := ((x.ptrs 0).mem?).getD fun _ => 0

/-- `tn_tcp_resume_send`. -/
def tnTcpResumeSend (w : World) (i : SlotIdx) : World :=
  let s := w.sockets i
  match s.pending .send with
  | none => w
  | some m =>
    if s.shutWr then tnSlotReplySend w i .epipe true
    else
      match s.tcpPcb with
      | none => tnSlotReplySend w i .econnreset true
      | some p =>
        let len := ((w.msgs m).args 1).toNat
        let r := tnTcpWriteSome p (w.callOf m) (bufOf (w.msgs m)) len (len - s.sendDone) w
          (s.sendIov.map fun l => (l, 0)) s.sendDone
        let w := if r.2.1 ≠ s.sendDone then tcpOutput r.1 p else r.1
        let w := w.modSlot i fun s => { s with sendDone := r.2.1 }
        if r.2.2 = .mem then w
        else tnSlotReplySend w i (tnTcpWriteErrno r.2.2) true

/-- `tn_tcp_poll_cb`. -/
def tnTcpPollCb (w : World) (i : SlotIdx) (p : PcbId) : World :=
  let s := w.sockets i
  if s.inUse ∧ s.tcpPcb = some p ∧ (s.pending .send).isSome then tnTcpResumeSend w i else w

/-- `tn_tcp_sent_cb`. -/
def tnTcpSentCb (w : World) (i : SlotIdx) (p : PcbId) : World :=
  let s := w.sockets i
  if s.inUse ∧ s.tcpPcb = some p then
    let w := if (s.pending .send).isSome then tnTcpResumeSend w i else w
    tnRecordSocketEvent (tnSignalSocket w i) i fdWrite
  else w

/-! ## Receiving -/

/-- `tn_tcp_pcb_finished`. -/
def tnTcpPcbFinished (w : World) (p : PcbId) : Bool :=
  match w.tcpPcbs p with
  | some c => c.state == .closing || c.state == .timeWait
  | none => false

/-- `tn_tcp_detach_finished`. -/
def tnTcpDetachFinished (w : World) (i : SlotIdx) (p : PcbId) : World :=
  let w := (tcpDetach w p).modSlot i fun s => { s with tcpPcb := none, shutWr := true }
  tnSlotReplySend w i .epipe true

/-- `tn_tcp_queue_clone`: on success the segment is queued and freed. -/
def tnTcpQueueClone (w : World) (i : SlotIdx) (seg : List UInt8) (capped : Bool) :
    World × Bool :=
  if capped && decide (maxRxQueuePerSocket ≤ (w.sockets i).rxCount) then (w, false)
  else if w.ask.ok then
    match tnRxQueuePushEx w.asked i seg 0 0 capped with
    | (w, true) => (w.emit (.pbufFree seg), true)
    | (w, false) => (w, false)
  else (w.asked, false)

/-- The wakeup, event and parked read that follow a change of the receive side. -/
def announceRecv (w : World) (i : SlotIdx) (events : Nat) : World :=
  tnServicePendingRecv (tnRecordSocketEvent (tnSignalSocket w i) i events) i

/-- `tn_tcp_recv_cb` with `p == NULL`: the peer's FIN. -/
def tnTcpRecvFin (w : World) (i : SlotIdx) (p : PcbId) : World :=
  if (w.sockets i).inUse ∧ (w.sockets i).tcpPcb = some p then
    let w := w.modSlot i fun s => { s with tcpState := .peerClosed }
    let w := if tnTcpPcbFinished w p then tnTcpDetachFinished w i p else w
    announceRecv w i (fdClose ||| fdRead)
  else w

/-- `tn_tcp_recv_cb` with a segment. -/
def tnTcpRecvCb (w : World) (i : SlotIdx) (p : PcbId) (seg : List UInt8) : World × ErrT :=
  let s := w.sockets i
  if s.inUse ∧ s.tcpPcb = some p then
    if s.shutRd then ((tcpRecvedFor w i p seg.length).emit (.pbufFree seg), .ok)
    else
      match tnTcpQueueClone w i seg true with
      | (w, true) => (announceRecv w i fdRead, .ok)
      | (w, false) =>
        if tnTcpPcbFinished w p then
          match tnTcpQueueClone w i seg false with
          | (w, true) => (announceRecv w i fdRead, .ok)
          | (w, false) =>
            let w := w.modSlot i fun s => { s with hist := { s.hist with dropped := true } }
            (w.emit (.pbufFree seg), .ok)
        else (w, .mem)
  else (w.emit (.pbufFree seg), .ok)

/-- The bytes of an entry's early queue. -/
def earlyLen (ent : TnAcceptEntry) : Nat := (ent.earlyRx.map fun pkt => pkt.p.length).sum

/-- Assigns to the fields of one accept entry. -/
def modEntry (w : World) (i : SlotIdx) (e : EntId) (f : TnAcceptEntry → TnAcceptEntry) :
    World :=
  w.modSlot i fun s => { s with acceptQ := s.acceptQ.map fun x => if x.id = e then f x else x }

/-- The accept entry at address `e` and the slot whose queue holds it. -/
def findEntry (w : World) (e : EntId) : Option (SlotIdx × TnAcceptEntry) :=
  (List.finRange 64).findSome? fun i =>
    ((w.sockets i).acceptQ.find? (·.id == e)).map fun x => (i, x)

/-- `tn_tcp_queued_recv_cb` with `p == NULL`. -/
def tnTcpQueuedRecvFin (w : World) (e : EntId) (p : PcbId) : World :=
  match findEntry w e with
  | some (i, ent) =>
    if ent.newPcb = some p then modEntry w i e fun x => { x with peerClosed := true } else w
  | none => w

/-- The byte cap of the early queue, taken from the listening slot. -/
def earlyFull (w : World) (ent : TnAcceptEntry) (seg : List UInt8) : Bool :=
  let rcvbuf := (w.sockets ent.listeningSlot).opts.rcvbuf
  rcvbuf != 0 && decide ((earlyLen ent + seg.length : Int) > rcvbuf % 2 ^ 32)

/-- `tn_tcp_queued_recv_cb` with a segment. -/
def tnTcpQueuedRecvCb (w : World) (e : EntId) (p : PcbId) (seg : List UInt8) : World × ErrT :=
  match findEntry w e with
  | none => (w.emit (.pbufFree seg), .ok)
  | some (i, ent) =>
    if ent.newPcb = some p then
      if ent.earlyRxCount ≥ maxRxQueuePerSocket then (w, .mem)
      else if earlyFull w ent seg then (w, .mem)
      else if w.ask.ok then
        -- the packet record was allocated; the clone is the second allocation
        if w.asked.ask.ok then
          let w := modEntry w.asked.asked i e fun x =>
            { x with earlyRx := x.earlyRx ++ [{ p := seg }],
                     earlyRxCount := x.earlyRxCount + 1,
                     hist := { x.hist with accepted := x.hist.accepted ++ seg } }
          (w.emit (.pbufFree seg), .ok)
        else (w.asked.asked, .mem)
      else (w.asked, .mem)
    else (w.emit (.pbufFree seg), .ok)

/-- `tn_tcp_queued_err_cb`: the entry leaves its queue. -/
def tnTcpQueuedErrCb (w : World) (e : EntId) : World :=
  match findEntry w e with
  | some (_, ent) => tnAcceptQueueRemove w ent.listeningSlot e
  | none => w

/-! ## Connections -/

/-- `tn_tcp_connected_cb`. -/
def tnTcpConnectedCb (w : World) (i : SlotIdx) (p : PcbId) : World :=
  if (w.sockets i).inUse ∧ (w.sockets i).tcpPcb = some p then
    let w := (tcpNagle w p true).modSlot i fun s => { s with tcpState := .established }
    let w := tnRecordSocketEvent (tnSignalSocket w i) i (fdConnect ||| fdWrite)
    replyPending w i .connect 0 .ok
  else w

/-- The error a failed connection reports. -/
def connErrno (st : TnTcpState) (e : ErrT) : Errno :=
  if st = .connecting then (if e = .abrt then .etimedout else .econnrefused)
  else (if e = .abrt then .econnaborted else .econnreset)

/-- `tn_tcp_err_cb`. -/
def tnTcpErrCb (w : World) (i : SlotIdx) (e : ErrT) : World :=
  if (w.sockets i).inUse then
    let st := (w.sockets i).tcpState
    let w := w.modSlot i fun s => { s with tcpPcb := none }
    if e = .clsd ∧ st ≠ .connecting then
      let w := w.modSlot i fun s => { s with tcpState := .peerClosed, lastError := .ok }
      let w := tnRecordSocketEvent (tnSignalSocket w i) i fdClose
      tnServicePendingRecv (tnSlotReplySend w i .epipe true) i
    else
      let eno := connErrno st e
      let w := w.modSlot i fun s => { s with tcpState := .error, lastError := eno }
      let w := tnRecordSocketEvent (tnSignalSocket w i) i fdError
      let w := if ((w.sockets i).pending .connect).isSome then
          (replyPending w i .connect (-1) eno).modSlot i fun s => { s with lastError := .ok }
        else w
      tnServicePendingRecv (tnSlotReplySend w i eno true) i
  else w

/-- The options an accepted slot takes over from its listener; Nagle is off. -/
def inheritOpts (o l : TnSockOpts) : TnSockOpts :=
  { o with nodelay := true, keepalive := l.keepalive, lingerOnoff := l.lingerOnoff,
           lingerLinger := l.lingerLinger, sndbuf := l.sndbuf, rcvbuf := l.rcvbuf,
           oobinline := l.oobinline, mss := l.mss, keepidle := l.keepidle,
           keepintvl := l.keepintvl, keepcnt := l.keepcnt }

/-- The pcb fields an accepted connection takes over from its listener. -/
def inheritPcb (w : World) (p : PcbId) (l : TnSockOpts) : World :=
  let w := if l.keepidle > 0 then
    w.onFull p .keep fun c => { c with keepIdle := l.keepidle.toNat * 1000 % 2 ^ 32 } else w
  let w := if l.keepintvl > 0 then
    w.onFull p .keep fun c => { c with keepIntvl := l.keepintvl.toNat * 1000 % 2 ^ 32 } else w
  let w := if l.keepcnt > 0 then
    w.onFull p .keep fun c => { c with keepCnt := l.keepcnt.toNat } else w
  if l.mss > 0 then
    w.onFull p .mss fun c => if l.mss < c.mss then { c with mss := l.mss } else c
  else w

/-- The callbacks of an accepted connection. -/
def registerSlot (w : World) (p : PcbId) (j : SlotIdx) : World :=
  tcpErr (tcpSent (tcpRecv (tcpArg w p (.slot j)) p .slot) p true) p .slot

/-- The peer address of a pcb; the port is a full-pcb field. -/
def peerOf (w : World) (p : PcbId) : Nat × Nat :=
  match w.tcpPcbs p with
  | some c => (c.remoteIp, c.remotePort)
  | none => (0, 0)

/-- The statements both accept paths share: slot `j` takes over pcb `p` with the options of
listener `i`, and the peer address goes to the caller. -/
def adoptPcb (w : World) (m : MsgId) (i j : SlotIdx) (p : PcbId) : World :=
  let l := (w.sockets i).opts
  let w := (tcpNagle w p true).modSlot j fun s => { s with opts := inheritOpts s.opts l }
  let w := registerSlot (inheritPcb w p l) p j
  let w := w.readFull p .remotePort
  tnStoreClientSockaddr w m 0 1 (peerOf w p).2 (peerOf w p).1

/-- `tn_tcp_accept_cb`. -/
def tnTcpAcceptCb (w : World) (i : SlotIdx) (p : PcbId) : World × ErrT :=
  let s := w.sockets i
  if ¬ s.inUse ∨ s.tcpState ≠ .listening then (w, .val)
  else
    match s.pending .accept with
    | some m =>
      let x := w.msgs m
      let b := x.socketBase.getD 0
      let w := w.setPending i .accept none
      match freeSlot? w with
      | none => ((tcpAbort w p).answerMsg m (-1) .enfile, .abrt)
      | some j =>
        let w := tnSlotAlloc w j x.socketBase x.clientTask afInet sockStream 0
        match pickFd? (w.bases b) (x.args 3) with
        | none => ((tcpAbort (tnSlotFree w j) p).answerMsg m (-1) .emfile, .abrt)
        | some fd =>
          let w := w.setFd b fd (some j)
          let w := w.modSlot j fun s => { s with tcpState := .established, tcpPcb := some p }
          let w := (adoptPcb w m i j p).setReply m fd .ok
          ((tnRecordSocketEvent w j fdWrite).replyMsg m, .ok)
    | none =>
      if s.acceptCount ≥ s.listenBacklog then (tcpAbort w p, .abrt)
      else
        match tnAcceptQueuePush w i p with
        | (w, true) => (tnRecordSocketEvent (tnSignalSocket w i) i fdAccept, .ok)
        | (w, false) => (tcpAbort w p, .abrt)

/-! ## Datagrams and DNS -/

/-- `tn_dgram_rcvbuf_full`. -/
def tnDgramRcvbufFull (s : TnSocketSlot) (seg : List UInt8) : Bool :=
  s.opts.rcvbuf != 0 && !s.rx.isEmpty &&
    decide (((s.rx.map fun pkt => pkt.p.length).sum + seg.length : Int)
      > s.opts.rcvbuf % 2 ^ 32)

/-- The part `tn_udp_recv_cb` and `tn_raw_recv_cb` share: queue a clone and announce it. -/
def queueDgram (w : World) (i : SlotIdx) (seg : List UInt8) (ip port : Nat) : World :=
  let s := w.sockets i
  if ¬ s.inUse ∨ s.rxCount ≥ maxRxQueuePerSocket ∨ tnDgramRcvbufFull s seg then w
  else if w.ask.ok then
    match tnRxQueuePushEx w.asked i seg ip port true with
    | (w, true) => announceRecv w i fdRead
    | (w, false) => w
  else w.asked

/-- `tn_udp_recv_cb`: the pool pbuf is freed on every path. -/
def tnUdpRecvCb (w : World) (i : SlotIdx) (seg : List UInt8) (ip port : Nat) : World :=
  queueDgram (w.emit (.pbufFree seg)) i seg ip port

/-- `tn_raw_recv_cb`: the pbuf stays with lwIP. -/
def tnRawRecvCb (w : World) (i : SlotIdx) (seg : List UInt8) (ip : Nat) : World :=
  queueDgram w i seg ip 0

/-- The loop of `tn_dns_name_matches`, with the turns that are left. The end of a list is the
terminating zero. -/
def dnsNameLoop : Nat → List Char → List Char → Bool
  | 0, _, _ => true
  | _ + 1, [], [] => true
  | _ + 1, [], _ :: _ => false
  | _ + 1, _ :: _, [] => false
  | n + 1, a :: recName, b :: name =>
    if a.toLower ≠ b.toLower then false else dnsNameLoop n recName name

/-- `tn_dns_name_matches`. -/
def tnDnsNameMatches (recName name : List Char) : Bool := dnsNameLoop 63 recName name

/-- Empties DNS record `k`. -/
def clearDns (w : World) (k : Fin 8) : World :=
  { w with dnsPending := Function.update w.dnsPending k
             { w.dnsPending k with inUse := false, imsg := none, base := none },
           dnsPendingCount := w.dnsPendingCount - 1 }

/-- `tn_ipc_fill_hostent_now`: the client's `hostent` storage. -/
def tnIpcFillHostentNow (w : World) (b : BaseId) (name : List Char) (addr : Nat) : World :=
  w.modBase b fun base => { base with hostentName := name.take 63, hostentAddr := addr }

/-- The address of the `hostent` of a base, as the result of `gethostbyname`. -/
def hostentPtr (b : BaseId) : Int := b

/-- `tn_dns_found_cb`. -/
def tnDnsFoundCb (w : World) (name : List Char) (addr : Option Nat) (m : MsgId) : World :=
  match (List.finRange 8).find? (fun k => (w.dnsPending k).inUse &&
      (w.dnsPending k).imsg == some m && tnDnsNameMatches (w.dnsPending k).name name) with
  | none => { w with dnsLateReplies := w.dnsLateReplies + 1 }
  | some k =>
    let base := (w.dnsPending k).base
    let w := clearDns w k
    match base, addr with
    | none, _ => w.replyMsg m
    | some b, some a => (tnIpcFillHostentNow w b name a).answerMsg m (hostentPtr b) .ok
    | some _, none => w.answerMsg m 0 .enoent

/-! ## lwIP's actions -/

/-- The slot index a slot callback reads out of its argument: `NULL` is index 0, and the
address of an accept entry is no index. -/
def CbArg.slotIdx : CbArg → Option SlotIdx
  | .null => some ⟨0, by decide⟩
  | .slot i => some i
  | .entry _ => none

/-- Delivery of a segment to whatever callback the pcb has. -/
def deliver (w : World) (c : TcpPcb) (p : PcbId) (seg : List UInt8) : World :=
  match c.recv with
  | .null => w
  | .slot =>
    match c.arg.slotIdx with
    | some i => (tnTcpRecvCb w i p seg).1
    | none => w.emit (.pbufFree seg)
  | .queued =>
    match c.arg with
    | .entry e => (tnTcpQueuedRecvCb w e p seg).1
    | .null => w.emit (.pbufFree seg)
    | .slot _ => w.emit (.fault p .recv)

/-- Delivery of a FIN. -/
def deliverFin (w : World) (c : TcpPcb) (p : PcbId) : World :=
  match c.recv with
  | .null => w
  | .slot =>
    match c.arg.slotIdx with
    | some i => tnTcpRecvFin w i p
    | none => w
  | .queued =>
    match c.arg with
    | .entry e => tnTcpQueuedRecvFin w e p
    | .null => w
    | .slot _ => w.emit (.fault p .recv)

/-- The error callback, called after the pcb is gone. -/
def deliverErr (w : World) (c : TcpPcb) (p : PcbId) (e : ErrT) : World :=
  match c.err with
  | .null => w
  | .slot =>
    match c.arg.slotIdx with
    | some i => tnTcpErrCb w i e
    | none => w
  | .queued =>
    match c.arg with
    | .entry x => tnTcpQueuedErrCb w x
    | .null => w
    | .slot _ => w.emit (.fault p .err)

/-- A new connection for listener `l`: lwIP makes pcb `p` with the listener's argument and its
`SOF_INHERITED` options, and calls the accept callback; a pcb the callback refuses is aborted. -/
def deliverAccept (w : World) (l : TcpPcb) (p : PcbId) (ip port : Nat) : World :=
  let c : TcpPcb := { state := .established, arg := l.arg, remoteIp := ip, remotePort := port,
                      localIp := l.localIp, localPort := l.localPort,
                      sofKeepalive := l.sofKeepalive, sofReuseaddr := l.sofReuseaddr }
  let w := w.setPcb p (some c)
  match l.arg.slotIdx with
  | some i =>
    match tnTcpAcceptCb w i p with
    | (w, .val) => tcpAbort w p
    | (w, _) => w
  | none => tcpAbort w p

/-- One action of lwIP on a live full pcb. -/
def onLive (w : World) (p : PcbId) (f : TcpPcb → World) : World :=
  match w.tcpPcbs p with
  | some c => if c.listen then w else f c
  | none => w

/-- One action of lwIP. -/
def runEv (w : World) (ev : LwipEv) : World :=
  match ev with
  | .connected p => onLive w p fun c =>
      match c.state, c.connected, c.arg.slotIdx with
      | .synSent, true, some i =>
        tnTcpConnectedCb (w.setPcb p (some { c with state := .established })) i p
      | _, _, _ => w
  | .recv p seg => onLive w p fun c =>
      if c.state.synced ∧ seg ≠ [] ∧ seg.length ≤ 0xFFFF then deliver w c p seg else w
  | .fin p => onLive w p fun c => if c.state.synced then deliverFin w c p else w
  | .sent p sndBuf sndQueuelen => onLive w p fun c =>
      match c.sent, c.arg.slotIdx with
      | true, some i =>
        if sndBuf ≤ 0xFFFF then
          tnTcpSentCb (w.setPcb p (some { c with sndBuf := sndBuf,
                                                 sndQueuelen := sndQueuelen })) i p
        else w
      | _, _ => w
  | .poll p => onLive w p fun c =>
      match c.poll, c.arg.slotIdx with
      | true, some i => tnTcpPollCb w i p
      | _, _ => w
  | .err p e => onLive w p fun c =>
      if c.err = .null then w else deliverErr (w.setPcb p none) c p e
  | .accept l p ip port =>
      match w.tcpPcbs l with
      | some c =>
        if c.listen ∧ c.accept ∧ w.tcpPcbs p = none then deliverAccept w c p ip port else w
      | none => w
  | .state p st => onLive w p fun c =>
      if c.state.synced ∧ st.synced then w.setPcb p (some { c with state := st }) else w
  | .gone p => onLive w p fun c => if c.arg = .null then w.setPcb p none else w
  | .udpRecv p seg ip port =>
      match w.udpPcbs p with
      | some c => if seg.length ≤ 0xFFFF then tnUdpRecvCb w c.arg seg ip port else w
      | none => w
  | .rawRecv p seg ip =>
      match w.rawPcbs p with
      | some c => if seg.length ≤ 0xFFFF then tnRawRecvCb w c.arg seg ip else w
      | none => w
  | .dnsFound name addr m => if m = 0 then w else tnDnsFoundCb w name addr m

/-- A sequence of actions of lwIP. -/
def runEvs (w : World) (evs : List LwipEv) : World := evs.foldl runEv w

/-- `tn_drain_loopback`: lwIP works through its loopback queue. -/
def tnDrainLoopback (w : World) : World := runEvs w.asked w.ask.evs

/-- The actions inside a call that allocates a pcb: lwIP may abort other connections. -/
def runErrs (w : World) (evs : List LwipEv) : World :=
  evs.foldl (fun w ev =>
    match ev with
    | .err _ _ => runEv w ev
    | _ => w) w

end Tolunnet
