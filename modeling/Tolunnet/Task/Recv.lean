import Tolunnet.Task.SlotTable

/-!
# `Tolunnet.Task.Recv`: the receiving handlers

`tn_ipc_cmd_recv` (`ipc_tcp.c`), `tn_ipc_cmd_recvfrom` (`ipc_dgram.c`),
`tn_ipc_cmd_recvmsg` (`ipc_msg.c`) and `tn_service_pending_recv` (`ipc_dispatch.c`), which
runs one of the three again for a parked request. A read of a stream advances the offset of
the first packet, returns the window to the peer while a pcb is attached, and unlinks the
packet when it is exhausted.
-/

set_option autoImplicit false

namespace Tolunnet

open World

/-! ## Consuming the queue -/

/-- `pkt->offset += n` on the first packet of the queue. The history notes the bytes that
went to the client. -/
def rxAdvance (w : World) (i : SlotIdx) (n : Nat) : World :=
  w.modSlot i fun s =>
    match s.rx with
    | [] => s
    | pkt :: rest =>
      { s with rx := { pkt with offset := pkt.offset + n } :: rest,
               hist := { s.hist with
                 returned := s.hist.returned ++ pkt.rest.take n,
                 attached := s.hist.attached + (if s.tcpPcb.isSome then n else 0) } }

/-- `if (slot->tcp_pcb != NULL) tcp_recved(slot->tcp_pcb, n);` -/
def rxWindow (w : World) (i : SlotIdx) (n : Nat) : World :=
  match (w.sockets i).tcpPcb with
  | some p => tcpRecvedFor w i p n
  | none => w

/-- Unlinks the first packet when its offset has reached the end. -/
def rxUnlink (w : World) (i : SlotIdx) : World :=
  w.modSlot i fun s =>
    match s.rx with
    | [] => s
    | pkt :: rest =>
      if pkt.offset ≥ pkt.p.length then { s with rx := rest, rxCount := s.rxCount - 1 } else s

/-- A read of `n` bytes from the first packet of a stream. -/
def rxConsume (w : World) (i : SlotIdx) (n : Nat) : World :=
  rxUnlink (rxWindow (rxAdvance w i n) i n) i

/-- Unlinks the first datagram. -/
def rxPop (w : World) (i : SlotIdx) : World :=
  w.modSlot i fun s => { s with rx := s.rx.tail, rxCount := s.rxCount - 1 }

/-- What a peek sees, packet by packet: the offset counts for the first one only. -/
def peekSegs : List TnRxPacket → List (List UInt8)
  | [] => []
  | pkt :: rest => pkt.rest :: rest.map TnRxPacket.p

/-- The 16-bit request length: `(len > 0xFFFF) ? 0xFFFF : (u16_t)len`. -/
def clip16 (len : Nat) : Nat := min len 0xFFFF

/-- The exits of a stream read that finds no data. -/
def recvStreamEmpty (w : World) (m : MsgId) (i : SlotIdx) (flags : Int) :
    World × TnIpcReplyAction :=
  let s := w.sockets i
  if s.shutRd ∨ s.tcpState = .peerClosed then done w m 0 .ok
  else if s.tcpState = .error then fail w m .econnreset
  else if s.tcpState ≠ .connecting ∧ s.tcpState ≠ .established then fail w m .enotconn
  else if s.isNonblocking || hasFlag flags msgDontwait then fail w m .ewouldblock
  else tnSlotParkRecv w i m

/-- The exits of a datagram read that finds no datagram. -/
def recvDgramEmpty (w : World) (m : MsgId) (i : SlotIdx) (flags : Int) :
    World × TnIpcReplyAction :=
  if (w.sockets i).isNonblocking || hasFlag flags msgDontwait then fail w m .ewouldblock
  else tnSlotParkRecv w i m

/-! ## `RECV` -/

/-- The stream branch of `tn_ipc_cmd_recv`. In state `ERROR` the stored error is reported
once. -/
def recvStream (w : World) (m : MsgId) (i : SlotIdx) (len : Nat) (flags : Int) :
    World × TnIpcReplyAction :=
  let s := w.sockets i
  let reqLen := clip16 len
  match s.rx with
  | pkt :: _ =>
    if hasFlag flags msgPeek then
      let bytes := (peekSegs s.rx).flatten.take reqLen
      done (w.store m 0 0 bytes) m bytes.length .ok
    else
      let n := min pkt.rest.length reqLen
      done (rxConsume (w.store m 0 0 (pkt.rest.take n)) i n) m n .ok
  | [] =>
    if ¬ s.shutRd ∧ s.tcpState = .error then
      fail (w.modSlot i fun s => { s with lastError := .ok }) m
        (if s.lastError ≠ .ok then s.lastError else .econnreset)
    else recvStreamEmpty w m i flags

/-- The datagram branch of `tn_ipc_cmd_recv`. -/
def recvDgram (w : World) (m : MsgId) (i : SlotIdx) (len : Nat) (flags : Int) :
    World × TnIpcReplyAction :=
  match (w.sockets i).rx with
  | pkt :: _ =>
    let bytes := pkt.p.take (clip16 len)
    let w := w.store m 0 0 bytes
    done (if hasFlag flags msgPeek then w else rxPop w i) m bytes.length .ok
  | [] => recvDgramEmpty w m i flags

/-- `tn_ipc_cmd_recv`. -/
def tnIpcCmdRecv (w : World) (m : MsgId) (slot : Option SlotIdx) : World × TnIpcReplyAction :=
  let x := w.msgs m
  match slot, (x.ptrs 0).mem? with
  | some i, some _ =>
    let flags := x.args 2
    if x.args 1 < 0 then fail w m .ebadf
    else if hasFlag flags msgOob then fail w m .eopnotsupp
    else
      let len := (x.args 1).toNat
      if (w.sockets i).type = sockStream then recvStream w m i len flags
      else if (w.sockets i).type = sockDgram ∨ (w.sockets i).type = sockRaw then
        recvDgram w m i len flags
      else fail w m .eopnotsupp
  | _, _ => fail w m .ebadf

/-! ## `RECVFROM` -/

/-- The datagram and raw branches of `tn_ipc_cmd_recvfrom`. -/
def recvfromDgram (w : World) (m : MsgId) (i : SlotIdx) (len : Nat) (flags : Int) :
    World × TnIpcReplyAction :=
  match (w.sockets i).rx with
  | pkt :: _ =>
    let bytes := pkt.p.take (clip16 len)
    let port := if (w.sockets i).type = sockDgram then pkt.srcPort else 0
    let w := tnStoreClientSockaddr (w.store m 0 0 bytes) m 1 2 port pkt.srcIp
    done (if hasFlag flags msgPeek then w else rxPop w i) m bytes.length .ok
  | [] => recvDgramEmpty w m i flags

/-- `*fromlen = 0` after a stream read that succeeded. -/
def storeFromlen (r : World × TnIpcReplyAction) (m : MsgId) : World × TnIpcReplyAction :=
  match r with
  | (w, .replyNow) =>
    match ((w.msgs m).ptrs 2).mem? with
    | some _ => (if (w.msgs m).result ≥ 0 then w.store m 2 0 (bytes32 0) else w, .replyNow)
    | none => (w, .replyNow)
  | (w, .defer) => (w, .defer)

/-- `tn_ipc_cmd_recvfrom`. -/
def tnIpcCmdRecvfrom (w : World) (m : MsgId) (slot : Option SlotIdx) :
    World × TnIpcReplyAction :=
  let x := w.msgs m
  match slot, (x.ptrs 0).mem? with
  | some i, some _ =>
    let flags := x.args 2
    if x.args 1 < 0 then fail w m .ebadf
    else if hasFlag flags msgOob then fail w m .eopnotsupp
    else if (w.sockets i).type = sockStream then storeFromlen (tnIpcCmdRecv w m (some i)) m
    else if (w.sockets i).type = sockDgram ∨ (w.sockets i).type = sockRaw then
      recvfromDgram w m i (x.args 1).toNat flags
    else fail w m .eopnotsupp
  | _, _ => fail w m .ebadf

/-! ## `RECVMSG` -/

/-- A position in an iovec array: the entry and the offset in it. -/
structure IovPos where
  cur : Nat := 0
  off : Nat := 0
  deriving DecidableEq, Repr

/-- A piece of a packet that goes to one iovec entry. -/
structure IovChunk where
  iov : Nat
  off : Nat
  len : Nat
  deriving DecidableEq, Repr

/-- The inner copy loop of `recvmsg`: `avail` bytes are cut along the iovec entries, empty
entries skipped. Each turn takes a byte or leaves an entry, which bounds the turns. -/
def scatter (iovs : List Iovec) : Nat → IovPos → Nat → List IovChunk × IovPos
  | 0, pos, _ => ([], pos)
  | fuel + 1, pos, avail =>
    match iovs[pos.cur]? with
    | none => ([], pos)
    | some v =>
      if avail = 0 then ([], pos)
      else
        let space := clip16 (v.iovLen - pos.off)
        if space = 0 then scatter iovs fuel { cur := pos.cur + 1 } avail
        else
          let chunk := min avail space
          let r := scatter iovs fuel { pos with off := pos.off + chunk } (avail - chunk)
          ({ iov := pos.cur, off := pos.off, len := chunk } :: r.1, r.2)

/-- The pieces of `avail` bytes from `pos` on. -/
def scatterAll (iovs : List Iovec) (pos : IovPos) (avail : Nat) : List IovChunk × IovPos :=
  scatter iovs (avail + iovs.length) pos avail

/-- The number of bytes in a list of pieces. -/
def chunksLen (l : List IovChunk) : Nat := (l.map IovChunk.len).sum

/-- `pbuf_copy_partial` for each piece. -/
def storeChunks (w : World) (m : MsgId) (bytes : List UInt8) : List IovChunk → World
  | [] => w
  | c :: rest =>
    storeChunks (w.out (.storeIov m c.iov c.off (bytes.take c.len))) m (bytes.drop c.len) rest

/-- The peeking loop of `recvmsg` over the packets of the queue. -/
def recvmsgPeek (iovs : List Iovec) (totalSpace : Nat) (m : MsgId) :
    World → List (List UInt8) → IovPos → Nat → World × Nat
  | w, [], _, copied => (w, copied)
  | w, seg :: rest, pos, copied =>
    if pos.cur < iovs.length ∧ copied < totalSpace then
      let r := scatterAll iovs pos seg.length
      recvmsgPeek iovs totalSpace m (storeChunks w m seg r.1) rest r.2
        (copied + chunksLen r.1)
    else (w, copied)

/-- The consuming loop of `recvmsg`. A packet is left only when it is exhausted or the
iovec array is full, so the number of packets bounds the turns. -/
def recvmsgTake (iovs : List Iovec) (totalSpace : Nat) (m : MsgId) (i : SlotIdx) :
    Nat → World → IovPos → Nat → World × Nat
  | 0, w, _, copied => (w, copied)
  | fuel + 1, w, pos, copied =>
    match (w.sockets i).rx with
    | [] => (w, copied)
    | pkt :: _ =>
      if pos.cur < iovs.length ∧ copied < totalSpace then
        let r := scatterAll iovs pos pkt.rest.length
        let n := chunksLen r.1
        let w := rxAdvance (storeChunks w m pkt.rest r.1) i n
        let w := if n > 0 then rxWindow w i n else w
        recvmsgTake iovs totalSpace m i fuel (rxUnlink w i) r.2 (copied + n)
      else (w, copied)

/-- The stream branch of `tn_ipc_cmd_recvmsg`. -/
def recvmsgStream (w : World) (m : MsgId) (i : SlotIdx) (h : Msghdr) (iovs : List Iovec)
    (flags : Int) : World × TnIpcReplyAction :=
  let s := w.sockets i
  let totalSpace := (iovs.map Iovec.iovLen).sum % 2 ^ 32
  -- `msg_namelen` at offset 4 of the header goes back as 0
  let clearName := fun w : World => if h.msgName.isSome then w.store m 0 4 (bytes32 0) else w
  if s.rx ≠ [] then
    let r := if hasFlag flags msgPeek then recvmsgPeek iovs totalSpace m w (peekSegs s.rx) {} 0
      else recvmsgTake iovs totalSpace m i s.rx.length w {} 0
    done (clearName r.1) m r.2 .ok
  else if s.shutRd ∨ s.tcpState = .peerClosed then done (clearName w) m 0 .ok
  else recvStreamEmpty w m i flags

/-- The datagram branch of `tn_ipc_cmd_recvmsg`. -/
def recvmsgDgram (w : World) (m : MsgId) (i : SlotIdx) (h : Msghdr) (iovs : List Iovec)
    (flags : Int) : World × TnIpcReplyAction :=
  match (w.sockets i).rx with
  | pkt :: _ =>
    let r := scatterAll iovs {} pkt.p.length
    let copied := chunksLen r.1
    let w := storeChunks w m pkt.p r.1
    -- `MSG_TRUNC` in `msg_flags`
    let w := if pkt.p.length > copied then w.store m 0 24 (bytes32 0x10) else w
    let port := if (w.sockets i).type = sockDgram then pkt.srcPort else 0
    let sa := tnSockinStoreBytes { family := afInet, port := port, addr := pkt.srcIp }
    -- the memory behind `msg_name` counts as that of pointer 1
    let w := if h.msgName.isSome ∧ h.msgNamelen ≥ sizeofSockaddrIn then
        (w.store m 1 0 sa).store m 0 4 (bytes32 sizeofSockaddrIn) else w
    done (if hasFlag flags msgPeek then w else rxPop w i) m copied .ok
  | [] => recvDgramEmpty w m i flags

/-- `tn_ipc_cmd_recvmsg`. -/
def tnIpcCmdRecvmsg (w : World) (m : MsgId) (slot : Option SlotIdx) :
    World × TnIpcReplyAction :=
  let x := w.msgs m
  let flags := x.args 1
  match x.ptrs 0, slot with
  | .msghdr h, some i =>
    if hasFlag flags msgOob then fail w m .eopnotsupp
    else
      match h.msgIov with
      | none => fail w m .einval
      | some iovs =>
        if iovs = [] ∨ iovs.length > 1024 then fail w m .einval
        else if iovs.any (fun v => decide (0 < v.iovLen) && v.iovBase.isNone) then
          fail w m .efault
        else
          let w := w.store m 0 24 (bytes32 0)
          let w := if h.msgControl then w.store m 0 20 (bytes32 0) else w
          if (w.sockets i).type = sockStream then recvmsgStream w m i h iovs flags
          else if (w.sockets i).type = sockDgram ∨ (w.sockets i).type = sockRaw then
            recvmsgDgram w m i h iovs flags
          else fail w m .eopnotsupp
  | .msghdr _, none => fail w m .ebadf
  | _, _ => fail w m .einval

/-! ## Parked requests -/

/-- The receive handler of a command; any other command is answered with `EINVAL`. -/
def recvHandler (w : World) (m : MsgId) (i : SlotIdx) : World × TnIpcReplyAction :=
  match (w.msgs m).cmd with
  | .recv => tnIpcCmdRecv w m (some i)
  | .recvfrom => tnIpcCmdRecvfrom w m (some i)
  | .recvmsg => tnIpcCmdRecvmsg w m (some i)
  | _ => fail w m .einval

/-- `tn_service_pending_recv`. -/
def tnServicePendingRecv (w : World) (i : SlotIdx) : World :=
  match (w.sockets i).pending .recv with
  | none => w
  | some m =>
    match recvHandler w m i with
    | (w, .replyNow) =>
      ((w.setPending i .recv none).modSlot i fun s =>
        { s with recvDeadlineTick := 0 }).replyMsg m
    | (w, .defer) => w

end Tolunnet
