import Tolunnet.Task.Callbacks

/-!
# `Tolunnet.Task.Tcp`: the stream handlers

`ipc_tcp.c`: `LISTEN`, `ACCEPT`, `CONNECT`, `SEND` and `SHUTDOWN`. `RECV` is in
`Tolunnet.Task.Recv`. The datagram branches of `CONNECT` and `SEND` are here because the
source has them in the same functions.
-/

set_option autoImplicit false

namespace Tolunnet

open World

/-! ## `LISTEN` and `ACCEPT` -/

/-- The backlog `listen` stores: at least 1, at most `TN_ACCEPT_QUEUE_MAX`. -/
def clampBacklog (backlog : Int) : Nat :=
  if backlog ≤ 0 then 1 else min backlog.toNat acceptQueueMax

/-- The statements of `listen` after lwIP made the listen pcb `l`. -/
def installListener (w : World) (i : SlotIdx) (l : PcbId) (bl : Nat) : World :=
  let w := w.modSlot i fun s =>
    { s with tcpPcb := some l, tcpState := .listening, listenBacklog := bl }
  tcpAccept (tcpArg w l (.slot i)) l true

/-- `tn_ipc_cmd_listen`. -/
def tnIpcCmdListen (w : World) (m : MsgId) (slot : Option SlotIdx) :
    World × TnIpcReplyAction :=
  match slot with
  | none => fail w m .eopnotsupp
  | some i =>
    let s := w.sockets i
    match s.tcpPcb with
    | none => fail w m .eopnotsupp
    | some p =>
      if s.type ≠ sockStream then fail w m .eopnotsupp
      else
        let bl := clampBacklog ((w.msgs m).args 1)
        if s.tcpState = .listening then
          done (w.modSlot i fun s => { s with listenBacklog := bl }) m 0 .ok
        else
          match tcpListenWithBacklog w p with
          | (w, none) => fail w m .enobufs
          | (w, some l) => done (installListener w i l bl) m 0 .ok

/-- Slot `j` takes over the connection and the early data of accept entry `ent`. -/
def takeEntry (w : World) (m : MsgId) (i j : SlotIdx) (ent : TnAcceptEntry) : World :=
  let st := if ent.peerClosed then TnTcpState.peerClosed else .established
  let w := w.modSlot j fun s =>
    { s with tcpState := st, tcpPcb := ent.newPcb, rx := ent.earlyRx,
             rxCount := ent.earlyRxCount, hist := ent.hist }
  match ent.newPcb with
  | some p => adoptPcb w m i j p
  | none => w

/-- The events an accepted slot starts with. -/
def recordAccepted (w : World) (j : SlotIdx) : World :=
  let w := tnRecordSocketEvent w j fdWrite
  let s := w.sockets j
  if s.rxCount > 0 ∨ s.tcpState = .peerClosed then
    let w := tnRecordSocketEvent w j fdRead
    if s.tcpState = .peerClosed then tnRecordSocketEvent w j fdClose else w
  else w

/-- `accept` with a queued connection. -/
def acceptQueued (w : World) (m : MsgId) (i : SlotIdx) (ent : TnAcceptEntry) :
    World × TnIpcReplyAction :=
  let x := w.msgs m
  let b := x.socketBase.getD 0
  let w := tnAcceptQueuePopEntry w i
  match freeSlot? w with
  | none => fail (tnAcceptEntryFree w ent) m .enfile
  | some j =>
    let w := tnSlotAlloc w j x.socketBase x.clientTask afInet sockStream 0
    match pickFd? (w.bases b) (x.args 3) with
    | none => fail (tnAcceptEntryFree (tnSlotFree w j) ent) m .emfile
    | some fd =>
      let w := w.setFd b fd (some j)
      done (recordAccepted (takeEntry w m i j ent) j) m fd .ok

/-- `tn_ipc_cmd_accept`. A request that must wait replaces whatever the field held. -/
def tnIpcCmdAccept (w : World) (m : MsgId) (slot : Option SlotIdx) :
    World × TnIpcReplyAction :=
  match slot with
  | none => fail w m .einval
  | some i =>
    let s := w.sockets i
    if s.tcpState ≠ .listening then fail w m .einval
    else
      match s.acceptQ with
      | ent :: _ => acceptQueued w m i ent
      | [] =>
        if s.isNonblocking then fail w m .ewouldblock
        else (w.setPending i .accept (some m), .defer)

/-! ## `CONNECT` -/

/-- The refusals of a stream `connect`, by the state of the slot; `ok` when it may go on. -/
def connectRefusal (s : TnSocketSlot) (family : Nat) : Errno :=
  match s.tcpState with
  | .listening => .eopnotsupp
  | .connecting => .ealready
  | .established | .peerClosed => .eisconn
  | .error => if s.lastError ≠ .ok then s.lastError else .einval
  | .closed =>
    if s.tcpPcb.isNone then .einval else if family ≠ afInet then .eafnosupport else .ok

/-- The error of a `tcp_connect` that failed at once. -/
def connectErrno : ErrT → Errno
  | .rte => .enetunreach
  | .use => .eaddrinuse
  | .buf | .mem => .enobufs
  | .arg | .val => .einval
  | _ => .econnrefused

/-- The stream branch of `connect` for a slot in state `CLOSED` with pcb `p`. -/
def connectStream (w : World) (m : MsgId) (i : SlotIdx) (p : PcbId) (a : SockIn) :
    World × TnIpcReplyAction :=
  let nonblock := (w.sockets i).isNonblocking
  let w := w.modSlot i fun s => { s with tcpState := .connecting }
  let w := w.setPending i .connect (if nonblock then none else some m)
  let w := tcpSent (tcpRecv w p .slot) p true
  match tcpConnect w p a.addr a.port with
  | (w, .ok) =>
    let w := tnDrainLoopback (tcpOutput w p)
    if (w.sockets i).isNonblocking then fail w m .einprogress else (w, .defer)
  | (w, e) =>
    let w := w.setPending i .connect none
    fail (w.modSlot i fun s => { s with tcpState := .closed }) m (connectErrno e)

/-- The datagram and raw branches of `connect`. -/
def connectDgram (w : World) (m : MsgId) (i : SlotIdx) (a : SockIn) :
    World × TnIpcReplyAction :=
  let s := w.sockets i
  if s.type = sockDgram then
    match s.udpPcb with
    | some p =>
      done (w.onUdp p fun c => { c with remoteIp := a.addr, remotePort := a.port }) m 0 .ok
    | none => fail w m .einval
  else if s.type = sockRaw then
    match s.rawPcb with
    | some p => done (w.onRaw p fun c => { c with remoteIp := a.addr }) m 0 .ok
    | none => fail w m .einval
  else fail w m .einval

/-- `tn_ipc_cmd_connect`. -/
def tnIpcCmdConnect (w : World) (m : MsgId) (slot : Option SlotIdx) :
    World × TnIpcReplyAction :=
  let x := w.msgs m
  match slot, (x.ptrs 0).mem? with
  | some i, some sin =>
    if x.args 1 < sizeofSockaddrIn then fail w m .einval
    else
      let a := tnSockinLoadBytes sin
      let s := w.sockets i
      if s.type = sockStream then
        let eno := connectRefusal s a.family
        let w := if s.tcpState = .error then
          w.modSlot i fun s => { s with lastError := .ok } else w
        match s.tcpPcb with
        | some p => if eno ≠ .ok then fail w m eno else connectStream w m i p a
        | none => fail w m eno
      else connectDgram w m i a
  | _, _ => fail w m .ebadf

/-! ## `SEND` -/

/-- The data of a stream send, as the client laid it out. -/
def sendPayload (buf : Mem) (iov : Option (List Iovec)) (len : Nat) : List UInt8 :=
  match iov with
  | none => memBytes buf 0 len
  | some l => (l.map fun v => memBytes (v.iovBase.getD fun _ => 0) 0 v.iovLen).flatten

/-- The writing loop of `tn_tcp_send_stream`: the drains can free space, so it goes on while
that makes progress. -/
def sendLoop (i : SlotIdx) (c : CallNo) (buf : Mem) (iov : Option (List Iovec)) (len : Nat) :
    Nat → World → Nat → World × Nat × ErrT
  | 0, w, done => (w, done, .ok)
  | fuel + 1, w, done =>
    match (w.sockets i).tcpPcb with
    | none => (w, done, .ok)
    | some p =>
      let r := tnTcpWriteSome p c buf len (len - done) w (iov.map fun l => (l, 0)) done
      if r.2.1 > done then
        let w := tnDrainLoopback (tcpOutput r.1 p)
        match (w.sockets i).tcpPcb with
        | none => (w, r.2.1, r.2.2)
        | some p =>
          let w := tnDrainLoopback (tcpOutput w p)
          if (w.sockets i).tcpPcb.isSome ∧ r.2.2 = .mem then
            sendLoop i c buf iov len fuel w r.2.1
          else (w, r.2.1, r.2.2)
      else r

/-- The parking statements of `tn_tcp_send_stream`. -/
def parkSend (w : World) (m : MsgId) (i : SlotIdx) (p : PcbId) (iov : Option (List Iovec))
    (len done : Nat) : World :=
  let o := (w.sockets i).opts
  let w := w.setPending i .send (some m)
  let w := w.modMsg m fun x => { x with args := Function.update x.args 1 len }
  let tick := deadlineTick w o.sndtimeoSecs o.sndtimeoMicro
  let tick := if (o.sndtimeoSecs > 0 ∨ o.sndtimeoMicro > 0) ∧ tick = 0 then 1 else tick
  let w := w.modSlot i fun s =>
    { s with sendDone := done, sendIov := iov, sendDeadlineTick := tick }
  tcpPoll w p true

/-- What `tn_tcp_send_stream` does after the writing loop. -/
def sendFinish (w : World) (m : MsgId) (i : SlotIdx) (iov : Option (List Iovec)) (len : Nat)
    (nonblock : Bool) (done : Nat) (werr : ErrT) : World × TnIpcReplyAction :=
  match (w.sockets i).tcpPcb with
  | none =>
    let r := sendResult done .econnreset
    Tolunnet.done (w.emit (.sendEnd (w.callOf m) .econnreset)) m r.1 r.2
  | some p =>
    if werr = .ok ∨ (werr = .mem ∧ nonblock ∧ done > 0) then Tolunnet.done w m done .ok
    else if werr ≠ .mem then
      let r := sendResult done (tnTcpWriteErrno werr)
      Tolunnet.done w m r.1 r.2
    else if nonblock then fail w m .ewouldblock
    else (parkSend w m i p iov len done, .defer)

/-- `tn_tcp_send_stream`. -/
def tnTcpSendStream (w : World) (m : MsgId) (i : SlotIdx) (buf : Mem)
    (iov : Option (List Iovec)) (len : Nat) (flags : Int) : World × TnIpcReplyAction :=
  let s := w.sockets i
  let nonblock := s.isNonblocking || hasFlag flags msgDontwait
  let w := w.emit (.sendStart (w.callOf m) (sendPayload buf iov len))
  if s.shutWr then fail w m .epipe
  else if s.tcpState = .error then
    fail (w.modSlot i fun s => { s with lastError := .ok }) m
      (if s.lastError ≠ .ok then s.lastError else .epipe)
  else if s.tcpPcb = none ∨ (s.tcpState ≠ .established ∧ s.tcpState ≠ .peerClosed) then
    fail w m .enotconn
  else if (s.pending .send).isSome then
    fail w m (if nonblock then .ewouldblock else .ealready)
  else
    let r := sendLoop i (w.callOf m) buf iov len (len + 1) w 0
    sendFinish r.1 m i iov len nonblock r.2.1 r.2.2

/-- The error of a refused datagram. -/
def dgramErrno (e : ErrT) : Errno := if e = .mem then .enobufs else .ehostunreach

/-- `udp_sendto` or `raw_sendto` of `bytes` after `pbuf_alloc`: the allocation and the call
each take an answer, and the loopback queue is drained where the source does so. -/
def sendDatagram (w : World) (m : MsgId) (p : PcbId) (dst : Nat × Nat) (bytes : List UInt8)
    (drainOk drainErr : Bool) : World × TnIpcReplyAction :=
  if w.ask.ok then
    let w := w.asked.out (.datagram p dst.1 dst.2 bytes)
    let e := w.ask.err
    let w := w.asked
    let w := if (e = .ok ∧ drainOk) ∨ (e ≠ .ok ∧ drainErr) then tnDrainLoopback w else w
    if e = .ok then done w m bytes.length .ok else fail w m (dgramErrno e)
  else fail w.asked m .enobufs

/-- The datagram branch of `tn_ipc_cmd_send`. -/
def sendUdp (w : World) (m : MsgId) (p : PcbId) (buf : Mem) (len : Nat) :
    World × TnIpcReplyAction :=
  let dst := remoteOf (w.udpPcbs p)
  if dst.1 = 0 ∨ dst.2 = 0 then fail w m .edestaddrreq
  else if len > 65507 then fail w m .emsgsize
  else sendDatagram w m p dst (memBytes buf 0 len) true false

/-- The raw branch of `tn_ipc_cmd_send`. -/
def sendRaw (w : World) (m : MsgId) (p : PcbId) (buf : Mem) (len : Nat) :
    World × TnIpcReplyAction :=
  let dst := remoteOf (w.rawPcbs p)
  if dst.1 = 0 then fail w m .edestaddrreq
  else if len > 65535 then fail w m .emsgsize
  else sendDatagram w m p (dst.1, 0) (memBytes buf 0 len) false false

/-- `tn_ipc_cmd_send`. -/
def tnIpcCmdSend (w : World) (m : MsgId) (slot : Option SlotIdx) : World × TnIpcReplyAction :=
  let x := w.msgs m
  match slot, (x.ptrs 0).mem? with
  | some i, some buf =>
    let s := w.sockets i
    if x.args 1 < 0 then fail w m .ebadf
    else
      let len := (x.args 1).toNat
      if s.type = sockStream then tnTcpSendStream w m i buf none len (x.args 2)
      else if s.type = sockDgram then
        match s.udpPcb with
        | some p => sendUdp w m p buf len
        | none => fail w m .eopnotsupp
      else if s.type = sockRaw then
        match s.rawPcb with
        | some p => sendRaw w m p buf len
        | none => fail w m .eopnotsupp
      else fail w m .eopnotsupp
  | _, _ => fail w m .ebadf

/-! ## `SHUTDOWN` -/

/-- The `SHUT_RDWR` branch: the slot lets go of the pcb before it is closed. -/
def shutdownBoth (w : World) (i : SlotIdx) (p : PcbId) : World :=
  let w := tcpDetach (tnRxQueueDrainWithRecved w i) p
  let w := w.modSlot i fun s => { s with tcpPcb := none, tcpState := .closed }
  tnSlotReplySend (tcpCloseOrAbort w p) i .epipe true

/-- `tn_ipc_cmd_shutdown`. -/
def tnIpcCmdShutdown (w : World) (m : MsgId) (slot : Option SlotIdx) :
    World × TnIpcReplyAction :=
  match slot with
  | none => fail w m .enotconn
  | some i =>
    let s := w.sockets i
    let how := (w.msgs m).args 1
    if s.type ≠ sockStream then fail w m .enotconn
    else if how < 0 ∨ how > 2 then fail w m .einval
    else if s.tcpState = .listening then fail w m .enotconn
    else
      let shutRx := how == 0 || how == 2
      let shutTx := how == 1 || how == 2
      let w := w.modSlot i fun s =>
        { s with shutRd := s.shutRd || shutRx, shutWr := s.shutWr || shutTx }
      match s.tcpPcb with
      | none => done w m 0 .ok
      | some p =>
        if s.tcpState = .closed then done w m 0 .ok
        else if shutRx && shutTx then done (shutdownBoth w i p) m 0 .ok
        else if !shutTx then done (tnRxQueueDrainWithRecved w i) m 0 .ok
        else
          match tcpShutdownTx w p with
          | (w, .ok) => done w m 0 .ok
          | (w, _) => fail w m .econnreset

end Tolunnet
