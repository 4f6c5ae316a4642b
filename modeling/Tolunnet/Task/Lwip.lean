import Tolunnet.Task.Exec

/-!
# `Tolunnet.Task.Lwip`: the lwIP calls

The raw TCP, UDP and raw API as the daemon uses it. A pcb is live while its table entry is
present. `onPcb` is an access to the part that every TCP pcb has; `onFull` is an access to a
field or callback that `tcp_pcb_listen` lacks, and records a `fault` when the pcb is a
listener or is gone. Answers that lwIP is free to give are taken from the environment, within
the bounds its own code keeps: `tcp_listen` and `tcp_connect` refuse a pcb that is not
`CLOSED`, `tcp_close` frees a pcb that never carried data, a new pcb is one that is not live, a
group that the daemon has joined can be left.
-/

set_option autoImplicit false

namespace Tolunnet

namespace World

/-- Writes the table entry of TCP pcb `p`. -/
def setPcb (w : World) (p : PcbId) (c : Option TcpPcb) : World :=
  { w with tcpPcbs := Function.update w.tcpPcbs p c }

/-- Access to the fields that every TCP pcb has. -/
def onPcb (w : World) (p : PcbId) (f : TcpPcb → TcpPcb) : World :=
  match w.tcpPcbs p with
  | some c => w.setPcb p (some (f c))
  | none => w.emit (.fault p .close)

/-- Access to a field or callback that only a full pcb has. -/
def onFull (w : World) (p : PcbId) (op : PcbOp) (f : TcpPcb → TcpPcb) : World :=
  match w.tcpPcbs p with
  | some c => if c.listen then w.emit (.fault p op) else w.setPcb p (some (f c))
  | none => w.emit (.fault p op)

/-- Records a read of a full-pcb field. -/
def readFull (w : World) (p : PcbId) (op : PcbOp) : World := w.onFull p op id

end World

open World

/-! ## Callback registration -/

/-- `tcp_arg`. -/
def tcpArg (w : World) (p : PcbId) (a : CbArg) : World := w.onPcb p fun c => { c with arg := a }

/-- `tcp_accept`, which lwIP applies to listeners only. -/
def tcpAccept (w : World) (p : PcbId) (on : Bool) : World :=
  w.onPcb p fun c => if c.listen then { c with accept := on } else c

/-- `tcp_recv`. -/
def tcpRecv (w : World) (p : PcbId) (fn : RecvFn) : World :=
  w.onFull p .recv fun c => { c with recv := fn }

/-- `tcp_sent`. -/
def tcpSent (w : World) (p : PcbId) (on : Bool) : World :=
  w.onFull p .sent fun c => { c with sent := on }

/-- `tcp_err`. -/
def tcpErr (w : World) (p : PcbId) (fn : ErrFn) : World :=
  w.onFull p .err fun c => { c with err := fn }

/-- `tcp_poll`. -/
def tcpPoll (w : World) (p : PcbId) (on : Bool) : World :=
  w.onFull p .poll fun c => { c with poll := on }

/-- `tcp_nagle_disable` and `tcp_nagle_enable`. -/
def tcpNagle (w : World) (p : PcbId) (off : Bool) : World :=
  w.onFull p .nagle fun c => { c with nagleOff := off }

/-- The five calls that take a pcb away from its owner. -/
def tcpDetach (w : World) (p : PcbId) : World :=
  tcpPoll (tcpErr (tcpSent (tcpRecv (tcpArg w p .null) p .null) p false) p .null) p false

/-! ## Connections -/

/-- Whether `a` names a pcb that is not live. -/
def freshPcb (w : World) (a : Answer) : Bool := a.ok && (w.tcpPcbs a.id).isNone

/-- `tcp_close` on a live pcb: a listener and a pcb that never carried data are freed, any
other may be freed, stay behind on its own, or be refused with `ERR_MEM`. -/
def tcpClose (w : World) (p : PcbId) : World × ErrT :=
  match w.tcpPcbs p with
  | none => (w.emit (.fault p .close), .arg)
  | some c =>
    if c.listen || c.state == .closed || c.state == .synSent then (w.setPcb p none, .ok)
    else
      let a := w.ask
      if a.err = .mem then (w.asked, .mem)
      else if a.ok then (w.asked.setPcb p none, .ok)
      else
        let st := if a.state.synced then a.state else .finWait1
        (w.asked.setPcb p (some { c with state := st }), .ok)

/-- `tcp_abort`: frees a full pcb. It would call an error callback that is still registered,
which the daemon must have removed. -/
def tcpAbort (w : World) (p : PcbId) : World :=
  match w.tcpPcbs p with
  | some c =>
    if c.listen || c.err ≠ .null then w.emit (.fault p .abort) else w.setPcb p none
  | none => w.emit (.fault p .abort)

/-- `tcp_close`, then `tcp_abort` when that fails. -/
def tcpCloseOrAbort (w : World) (p : PcbId) : World :=
  match tcpClose w p with
  | (w, .ok) => w
  | (w, _) => tcpAbort w p

/-- `tcp_listen_with_backlog`: a new listen pcb takes the place of a `CLOSED` pcb. -/
def tcpListenWithBacklog (w : World) (p : PcbId) : World × Option PcbId :=
  match w.tcpPcbs p with
  | none => (w.emit (.fault p .close), none)
  | some c =>
    if c.listen || c.state ≠ .closed then (w, none)
    else if freshPcb w w.ask then
      let l : TcpPcb :=
        { listen := true, state := .listen, arg := c.arg, localIp := c.localIp,
          localPort := c.localPort, sofKeepalive := c.sofKeepalive,
          sofReuseaddr := c.sofReuseaddr, tos := c.tos, ttl := c.ttl }
      ((w.asked.setPcb p none).setPcb w.ask.id (some l), some w.ask.id)
    else (w.asked, none)

/-- `tcp_connect`: on success the SYN is out and the connected callback is registered. -/
def tcpConnect (w : World) (p : PcbId) (ip port : Nat) : World × ErrT :=
  match w.tcpPcbs p with
  | none => (w.emit (.fault p .connect), .val)
  | some c =>
    if c.listen then (w.emit (.fault p .connect), .val)
    else if c.state ≠ .closed then (w, .isconn)
    else if w.ask.err = .ok then
      (w.asked.setPcb p (some { c with state := .synSent, connected := true, remoteIp := ip,
                                       remotePort := port }), .ok)
    else (w.asked, w.ask.err)

/-- `tcp_shutdown(pcb, 0, 1)`. -/
def tcpShutdownTx (w : World) (p : PcbId) : World × ErrT :=
  match w.tcpPcbs p with
  | none => (w.emit (.fault p .shutdown), .conn)
  | some c =>
    if c.listen then (w.emit (.fault p .shutdown), .conn)
    else if c.state = .synRcvd ∨ c.state = .established ∨ c.state = .closeWait then
      if w.ask.err = .ok then
        let st := if w.ask.state.synced then w.ask.state else c.state
        (w.asked.setPcb p (some { c with state := st }), .ok)
      else (w.asked, w.ask.err)
    else (w, .conn)

/-- `tcp_output`. Its result is not used. -/
def tcpOutput (w : World) (p : PcbId) : World := w.readFull p .output

/-- `tcp_recved`. -/
def tcpRecved (w : World) (p : PcbId) : World := w.readFull p .recved

/-- `tcp_write` of `bytes` for request `c`: lwIP takes all of them or none. The send buffer
shrinks by what it takes and the segment queue does not. -/
def tcpWrite (w : World) (p : PcbId) (c : CallNo) (bytes : List UInt8) : World × ErrT :=
  match w.tcpPcbs p with
  | none => (w.emit (.fault p .write), .conn)
  | some b =>
    if b.listen then (w.emit (.fault p .write), .conn)
    else if w.ask.err = .ok then
      let b' := { b with sndBuf := b.sndBuf - bytes.length,
                         sndQueuelen := max b.sndQueuelen w.ask.sndQueuelen }
      ((w.asked.setPcb p (some b')).emit (.tcpWrite p c bytes), .ok)
    else if w.ask.err = .mem then (w.asked, .mem)
    else (w.asked.emit (.tcpWriteErr p c w.ask.err), w.ask.err)

/-! ## Bind -/

/-- `tcp_bind`, `udp_bind` and `raw_bind` may refuse the address. -/
def tcpBind (w : World) (p : PcbId) (ip port : Nat) : World × ErrT :=
  if w.ask.err = .ok then
    (w.asked.onPcb p fun c => { c with localIp := ip, localPort := port }, .ok)
  else (w.asked, w.ask.err)

/-! ## Datagram pcbs -/

namespace World

/-- Writes the table entry of UDP pcb `p`. -/
def setUdp (w : World) (p : PcbId) (c : Option DgramPcb) : World :=
  { w with udpPcbs := Function.update w.udpPcbs p c }

/-- Writes the table entry of raw pcb `p`. -/
def setRaw (w : World) (p : PcbId) (c : Option DgramPcb) : World :=
  { w with rawPcbs := Function.update w.rawPcbs p c }

/-- Access to a field of a UDP pcb. -/
def onUdp (w : World) (p : PcbId) (f : DgramPcb → DgramPcb) : World :=
  { w with udpPcbs := Function.update w.udpPcbs p ((w.udpPcbs p).map f) }

/-- Access to a field of a raw pcb. -/
def onRaw (w : World) (p : PcbId) (f : DgramPcb → DgramPcb) : World :=
  { w with rawPcbs := Function.update w.rawPcbs p ((w.rawPcbs p).map f) }

end World

/-! ## Multicast groups -/

/-- Changes the daemon's part of the use count of an interface and a group. -/
def World.addUse (w : World) (ifa grp : Nat) (n : Int) : World :=
  { w with igmpUse := Function.update w.igmpUse (ifa, grp) (w.igmpUse (ifa, grp) + n) }

/-- `igmp_joingroup` counts one more use of the group, or fails. -/
def igmpJoingroup (w : World) (ifa grp : Nat) : World × ErrT :=
  if w.ask.err = .ok then (w.asked.addUse ifa grp 1, .ok) else (w.asked, w.ask.err)

/-- `igmp_leavegroup` counts one use less. It fails only on a group without uses: while the daemon
has one lwIP knows the group, and whether something else uses it is lwIP's answer. -/
def igmpLeavegroup (w : World) (ifa grp : Nat) : World × ErrT :=
  if 0 < w.igmpUse (ifa, grp) ∨ w.ask.err = .ok then (w.asked.addUse ifa grp (-1), .ok)
  else (w.asked, w.ask.err)

/-- The remote address and port of a datagram pcb. -/
def remoteOf (c : Option DgramPcb) : Nat × Nat :=
  match c with
  | some c => (c.remoteIp, c.remotePort)
  | none => (0, 0)

end Tolunnet
