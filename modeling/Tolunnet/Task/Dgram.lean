import Tolunnet.Task.Tcp

/-!
# `Tolunnet.Task.Dgram`: `BIND`, `SENDTO` and `SENDMSG`

`ipc_dgram.c` and the sending half of `ipc_msg.c`. On a stream slot both senders end in the
stream path of `Tolunnet.Task.Tcp`: `sendto` and a `sendmsg` with one iovec entry are a plain
`send`, a longer array is the cursor source of the stream.
-/

set_option autoImplicit false

namespace Tolunnet

open World

/-! ## `BIND` -/

/-- `SO_REUSEADDR` is copied to the pcb before the bind. -/
def bindTcp (w : World) (s : TnSocketSlot) (p : PcbId) (a : SockIn) : World × ErrT :=
  let w := if s.opts.reuseaddr then w.onPcb p fun c => { c with sofReuseaddr := true } else w
  tcpBind w p a.addr a.port

/-- The exits of `bind` after the lwIP call. -/
def bindDone (r : World × ErrT) (m : MsgId) : World × TnIpcReplyAction :=
  match r with
  | (w, .ok) => done w m 0 .ok
  | (w, e) => fail w m (if e = .use then .eaddrinuse else .einval)

/-- `tn_ipc_cmd_bind`. -/
def tnIpcCmdBind (w : World) (m : MsgId) (slot : Option SlotIdx) : World × TnIpcReplyAction :=
  let x := w.msgs m
  match slot, (x.ptrs 0).mem? with
  | some i, some sin =>
    let s := w.sockets i
    let a := tnSockinLoadBytes sin
    if x.args 1 % 2 ^ 32 < sizeofSockaddrIn then fail w m .einval
    else if a.family ≠ afInet then fail w m .eafnosupport
    else if s.type = sockStream then
      match s.tcpPcb with
      | some p => bindDone (bindTcp w s p a) m
      | none => fail w m .ebadf
    else if s.type = sockDgram then
      match s.udpPcb with
      | some p =>
        let w := if s.opts.reuseaddr then w.onUdp p fun c => { c with sofReuseaddr := true }
          else w
        let w' := w.asked
        let e := w.ask.err
        bindDone (if e = .ok then
          w'.onUdp p fun c => { c with localIp := a.addr, localPort := a.port } else w', e) m
      | none => fail w m .ebadf
    else if s.type = sockRaw then
      match s.rawPcb with
      | some p =>
        let e := w.ask.err
        bindDone (if e = .ok then w.asked.onRaw p fun c => { c with localIp := a.addr }
          else w.asked, e) m
      | none => fail w m .ebadf
    else fail w m .eopnotsupp
  | _, _ => fail w m .ebadf

/-! ## `SENDTO` -/

/-- The destination of a datagram: an explicit one excludes a connected pcb, and without one
the pcb must be connected. -/
def dgramDest (connected : Bool) (remote : Nat × Nat) (toAddr : Option SockIn) :
    Except Errno (Nat × Nat) :=
  match toAddr with
  | some a => if connected then .error .eisconn else .ok (a.addr, a.port)
  | none => if connected then .ok remote else .error .edestaddrreq

/-- Whether a UDP pcb is connected. -/
def udpConnected (c : Option DgramPcb) : Bool :=
  decide ((remoteOf c).1 ≠ 0) && decide ((remoteOf c).2 ≠ 0)

/-- The UDP branch of `sendto` and `sendmsg`, with the length of the data and the data of the pbuf. -/
def sendtoUdp (w : World) (m : MsgId) (p : PcbId) (toAddr : Option SockIn) (len : Nat)
    (bytes : List UInt8) : World × TnIpcReplyAction :=
  let c := w.udpPcbs p
  match dgramDest (udpConnected c) (remoteOf c) toAddr with
  | .error e => fail w m e
  | .ok dst =>
    if len > 65507 then fail w m .emsgsize
    else sendDatagram w m p dst bytes true true

/-- The raw branch of `sendto`. -/
def sendtoRaw (w : World) (m : MsgId) (p : PcbId) (toAddr : Option SockIn) (bytes : List UInt8) :
    World × TnIpcReplyAction :=
  let c := w.rawPcbs p
  match dgramDest (decide ((remoteOf c).1 ≠ 0)) (remoteOf c) toAddr with
  | .error e => fail w m e
  | .ok dst => sendDatagram w m p (dst.1, 0) (bytes.take 0xFFFF) true true

/-- `tn_ipc_cmd_sendto`. -/
def tnIpcCmdSendto (w : World) (m : MsgId) (slot : Option SlotIdx) :
    World × TnIpcReplyAction :=
  let x := w.msgs m
  match slot, (x.ptrs 0).mem? with
  | some i, some buf =>
    let s := w.sockets i
    let toAddr := ((x.ptrs 1).mem?).map tnSockinLoadBytes
    if x.args 1 < 0 then fail w m .ebadf
    else
      let bytes := memBytes buf 0 (x.args 1).toNat
      if s.type = sockStream then tnIpcCmdSend w m (some i)
      else if s.type = sockDgram then
        match s.udpPcb with
        | some p => sendtoUdp w m p toAddr (x.args 1).toNat bytes
        | none => fail w m .eopnotsupp
      else if s.type = sockRaw then
        match s.rawPcb with
        | some p => sendtoRaw w m p toAddr bytes
        | none => fail w m .eopnotsupp
      else fail w m .eopnotsupp
  | _, _ => fail w m .ebadf

/-! ## `SENDMSG` -/

/-- The checks on the iovec array: a `NULL` base with a length, and a total that does not fit
the result. -/
def iovTotal : List Iovec → Nat → Except Errno Nat
  | [], total => .ok total
  | v :: rest, total =>
    if 0 < v.iovLen ∧ v.iovBase.isNone then .error .efault
    else if v.iovLen > 0x7FFFFFFF - total then .error .einval
    else iovTotal rest (total + v.iovLen)

/-- The gathering loop of the datagram branches, with the array from entry `i` on and `offset` bytes
in the pbuf; `chunk` and `offset` have 16 bits. -/
def gatherIov (sendLen : Nat) : List Iovec → Nat → List UInt8
  | [], _ => []
  | v :: rest, offset =>
    if offset < sendLen then
      let chunk := (if v.iovLen > sendLen - offset then sendLen - offset else v.iovLen) % 2 ^ 16
      memBytes (v.iovBase.getD fun _ => 0) 0 chunk ++
        gatherIov sendLen rest ((offset + chunk) % 2 ^ 16)
    else []

/-- A `sendmsg` with one entry is re-shaped in place to the layout of `send`. -/
def reshapeSend (w : World) (m : MsgId) (v : Iovec) (flags : Int) : World :=
  w.modMsg m fun x =>
    { x with ptrs := Function.update x.ptrs 0 (match v.iovBase with
                                                | some f => .mem f
                                                | none => .null),
             args := Function.update (Function.update x.args 1 v.iovLen) 2 flags }

/-- The raw branch of `sendmsg`, which does not check whether the pcb is connected. -/
def sendmsgRaw (w : World) (m : MsgId) (p : PcbId) (toAddr : Option SockIn) (iovs : List Iovec)
    (total : Nat) : World × TnIpcReplyAction :=
  let dst := match toAddr with
    | some a => a.addr
    | none => (remoteOf (w.rawPcbs p)).1
  let sendLen := if total > 0xFFFF then 0xFFFF else total
  sendDatagram w m p (dst, 0) (gatherIov sendLen iovs 0) false false

/-- `sendmsg` after its arguments have been checked. -/
def sendmsgChecked (w : World) (m : MsgId) (i : SlotIdx) (iovs : List Iovec) (total : Nat)
    (toAddr : Option SockIn) (flags : Int) : World × TnIpcReplyAction :=
  let s := w.sockets i
  if s.type = sockStream then
    match iovs with
    | [v] => tnIpcCmdSend (reshapeSend w m v flags) m (some i)
    | _ => tnTcpSendStream w m i (fun _ => 0) (some iovs) total flags
  else if s.type = sockDgram then
    match s.udpPcb with
    | some p => sendtoUdp w m p toAddr total (gatherIov total iovs 0)
    | none => fail w m .eopnotsupp
  else if s.type = sockRaw then
    match s.rawPcb with
    | some p => sendmsgRaw w m p toAddr iovs total
    | none => fail w m .eopnotsupp
  else fail w m .eopnotsupp

/-- `tn_ipc_cmd_sendmsg`. -/
def tnIpcCmdSendmsg (w : World) (m : MsgId) (slot : Option SlotIdx) :
    World × TnIpcReplyAction :=
  let x := w.msgs m
  let flags := x.args 1
  match x.ptrs 0, slot with
  | .msghdr h, some i =>
    if hasFlag flags msgOob then fail w m .eopnotsupp
    else
      match h.msgIov with
      | none => fail w m .einval
      | some iovs =>
        if iovs = [] ∨ iovs.length > 1024 then fail w m .einval
        else
          match iovTotal iovs 0 with
          | .error e => fail w m e
          | .ok total =>
            if h.msgName.isSome ∧ h.msgNamelen < sizeofSockaddrIn then fail w m .einval
            else sendmsgChecked w m i iovs total (h.msgName.map tnSockinLoadBytes) flags
  | .msghdr _, none => fail w m .ebadf
  | _, _ => fail w m .einval

end Tolunnet
