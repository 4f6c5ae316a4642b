import Tolunnet.Task.Callbacks

/-!
# `Tolunnet.Task.Sockopt`: `SETSOCKOPT` and `GETSOCKOPT`

`ipc_setsockopt.c` and `ipc_getsockopt.c`. An option is stored in the slot and, where a pcb
is attached, copied to it. The fields that a listen pcb lacks (`mss`, `keep_*`, the Nagle
flag) are touched only when the slot is not in state `LISTENING`.
-/

set_option autoImplicit false

namespace Tolunnet

open World

/-- The options the two handlers know. -/
inductive SockOpt where
  | broadcast | keepalive | reuseaddr | linger | sndbuf | rcvbuf | oobinline | rcvtimeo
  | sndtimeo | error | type | eventmask | nodelay | maxseg | keepidle | keepintvl | keepcnt
  | tos | ttl | hdrincl | multicastTtl | multicastLoop | addMembership | dropMembership
  deriving DecidableEq, Repr

/-- `SOL_SOCKET`, `IPPROTO_TCP` and `IPPROTO_IP`. -/
def solSocket : Int := 0xffff
def ipprotoTcp : Int := 6
def ipprotoIp : Int := 0

/-- The option a level and a name stand for; an unknown level is `EINVAL`, an unknown name
`ENOPROTOOPT`, as is a TCP option on another type of socket. -/
def sockOpt (type level optname : Int) : Except Errno SockOpt :=
  if level = solSocket then
    if optname = 0x20 then .ok .broadcast else if optname = 0x08 then .ok .keepalive
    else if optname = 0x04 then .ok .reuseaddr else if optname = 0x80 then .ok .linger
    else if optname = 0x1001 then .ok .sndbuf else if optname = 0x1002 then .ok .rcvbuf
    else if optname = 0x100 then .ok .oobinline else if optname = 0x1006 then .ok .rcvtimeo
    else if optname = 0x1005 then .ok .sndtimeo else if optname = 0x1007 then .ok .error
    else if optname = 0x1008 then .ok .type else if optname = 0x2001 then .ok .eventmask
    else .error .enoprotoopt
  else if level = ipprotoTcp then
    if type ≠ sockStream then .error .enoprotoopt
    else if optname = 1 then .ok .nodelay else if optname = 2 then .ok .maxseg
    else if optname = 3 then .ok .keepidle else if optname = 4 then .ok .keepintvl
    else if optname = 5 then .ok .keepcnt else .error .enoprotoopt
  else if level = ipprotoIp then
    if optname = 3 then .ok .tos else if optname = 4 then .ok .ttl
    else if optname = 2 then .ok .hdrincl else if optname = 10 then .ok .multicastTtl
    else if optname = 11 then .ok .multicastLoop else if optname = 12 then .ok .addMembership
    else if optname = 13 then .ok .dropMembership else .error .enoprotoopt
  else .error .einval

/-- `tn_load_opt_int`. -/
def tnLoadOptInt (f : Mem) : Int := toLong (be32 f 0)

/-! ## Setting -/

/-- Assigns to the option block of a slot. -/
def modOpts (w : World) (i : SlotIdx) (f : TnSockOpts → TnSockOpts) : World :=
  w.modSlot i fun s => { s with opts := f s.opts }

/-- A field that every TCP pcb has. -/
def onTcpOf (w : World) (i : SlotIdx) (f : TcpPcb → TcpPcb) : World :=
  match (w.sockets i).tcpPcb with
  | some p => w.onPcb p f
  | none => w

/-- A full-pcb field, left alone on a listener. -/
def onFullOf (w : World) (i : SlotIdx) (op : PcbOp) (f : TcpPcb → TcpPcb) : World :=
  match (w.sockets i).tcpPcb with
  | some p => if (w.sockets i).tcpState ≠ .listening then w.onFull p op f else w
  | none => w

/-- A field of the UDP pcb. -/
def onUdpOf (w : World) (i : SlotIdx) (f : DgramPcb → DgramPcb) : World :=
  match (w.sockets i).udpPcb with
  | some p => w.onUdp p f
  | none => w

/-- A field of the raw pcb. -/
def onRawOf (w : World) (i : SlotIdx) (f : DgramPcb → DgramPcb) : World :=
  match (w.sockets i).rawPcb with
  | some p => w.onRaw p f
  | none => w

/-- The timeout two option bytes layouts stand for: a `timeval`, or milliseconds. -/
def loadTimeout (f : Mem) (optlen : Int) : Nat × Nat :=
  if optlen ≥ 8 then (be32 f 0, be32 f 4)
  else
    let ms := tnLoadOptInt f
    -- C division truncates towards zero; the fields are unsigned
    ((ms.tdiv 1000 % 2 ^ 32).toNat, (ms.tmod 1000 * 1000 % 2 ^ 32).toNat)

/-- The smallest option length each option takes. -/
def minOptlen : SockOpt → Int
  | .linger | .addMembership | .dropMembership => 8
  | .multicastTtl | .multicastLoop => 1
  | _ => 4

/-- The mss an option may not exceed: the negotiated one on a connection, else the stored or
default one. -/
def currentMss (w : World) (i : SlotIdx) : Nat :=
  let s := w.sockets i
  match s.tcpPcb with
  | some p =>
    if s.tcpState = .established ∨ s.tcpState = .peerClosed then
      match w.tcpPcbs p with
      | some c => c.mss
      | none => 0
    else if s.opts.mss ≠ 0 then s.opts.mss else tcpMss
  | none => if s.opts.mss ≠ 0 then s.opts.mss else tcpMss

/-- The read of the negotiated mss, on a connection only. -/
def readMss (w : World) (i : SlotIdx) : World :=
  let s := w.sockets i
  if s.tcpState = .established ∨ s.tcpState = .peerClosed then onFullOf w i .mss id else w

/-- A `TCP_KEEP*` value in seconds that fits in 32-bit milliseconds. -/
def keepOk (v : Int) : Bool := decide (0 < v) && decide (v ≤ 4294967)

/-- The one-byte or int value of a multicast option. -/
def loadMcast (f : Mem) (optlen : Int) : Int :=
  if optlen ≥ 4 then tnLoadOptInt f else (f 0).toNat

/-- The deadline of a parked receive is restarted by a new timeout. -/
def restartRecv (w : World) (i : SlotIdx) : World :=
  let o := (w.sockets i).opts
  if ((w.sockets i).pending .recv).isSome then
    w.modSlot i fun s =>
      { s with recvDeadlineTick := deadlineTick w o.rcvtimeoSecs o.rcvtimeoMicro }
  else w

/-- The deadline of a parked send is restarted by a new timeout. -/
def restartSend (w : World) (i : SlotIdx) : World :=
  let o := (w.sockets i).opts
  if ((w.sockets i).pending .send).isSome then
    w.modSlot i fun s =>
      { s with sendDeadlineTick := deadlineTick w o.sndtimeoSecs o.sndtimeoMicro }
  else w

/-- `tn_mcast_find` for a free record. -/
def mcastFree? (w : World) : Option (Fin 8) :=
  (List.finRange 8).find? fun k => !(w.mcastJoins k).inUse

/-- `tn_mcast_find` for the join of a slot. -/
def mcastOf? (w : World) (i : SlotIdx) (grp ifa : Nat) : Option (Fin 8) :=
  (List.finRange 8).find? fun k =>
    (w.mcastJoins k).inUse && (w.mcastJoins k).slot == i && (w.mcastJoins k).grp == grp &&
      (w.mcastJoins k).ifa == ifa

/-- Writes join record `k`. -/
def setMcast (w : World) (k : Fin 8) (r : McastJoin) : World :=
  { w with mcastJoins := Function.update w.mcastJoins k r }

/-- The error of a failed IGMP call. -/
def igmpErrno (e : ErrT) : Errno := if e = .mem then .enobufs else .einval

/-- `IP_ADD_MEMBERSHIP`. -/
def addMembership (w : World) (i : SlotIdx) (grp ifa : Nat) : Except Errno World × World :=
  match mcastFree? w with
  | none => (.error .enobufs, w)
  | some k =>
    match igmpJoingroup w ifa grp with
    | (w, .ok) => (.ok (setMcast w k { inUse := true, slot := i, grp := grp, ifa := ifa }), w)
    | (w, e) => (.error (igmpErrno e), w)

/-- `IP_DROP_MEMBERSHIP`: the group is left before the record of the slot is looked up. -/
def dropMembership (w : World) (i : SlotIdx) (grp ifa : Nat) : Except Errno World × World :=
  match igmpLeavegroup w ifa grp with
  | (w, .ok) =>
    match mcastOf? w i grp ifa with
    | some k => (.ok (setMcast w k { w.mcastJoins k with inUse := false }), w)
    | none => (.ok w, w)
  | (w, e) => (.error (igmpErrno e), w)

/-- One option, after its length has been checked: the new state or the error. The second
component is the state after an error. -/
def applySockopt (w : World) (i : SlotIdx) (o : SockOpt) (f : Mem) (optlen : Int) :
    Except Errno World × World :=
  let v := tnLoadOptInt f
  let on := v != 0
  let byte := (v % 256).toNat
  match o with
  | .broadcast =>
    (.ok (onUdpOf (modOpts w i fun o => { o with broadcast := on }) i
      fun c => { c with sofBroadcast := on }), w)
  | .keepalive =>
    (.ok (onTcpOf (modOpts w i fun o => { o with keepalive := on }) i
      fun c => { c with sofKeepalive := on }), w)
  | .reuseaddr =>
    (.ok (onUdpOf (onTcpOf (modOpts w i fun o => { o with reuseaddr := on }) i
      fun c => { c with sofReuseaddr := on }) i fun c => { c with sofReuseaddr := on }), w)
  | .linger =>
    (.ok (modOpts w i fun o =>
      { o with lingerOnoff := toLong (be32 f 0), lingerLinger := toLong (be32 f 4) }), w)
  | .sndbuf => (.ok (modOpts w i fun o => { o with sndbuf := v }), w)
  | .rcvbuf => (.ok (modOpts w i fun o => { o with rcvbuf := v }), w)
  | .oobinline => (.ok (modOpts w i fun o => { o with oobinline := on }), w)
  | .rcvtimeo =>
    let t := loadTimeout f optlen
    (.ok (restartRecv (modOpts w i fun o =>
      { o with rcvtimeoSecs := t.1, rcvtimeoMicro := t.2 }) i), w)
  | .sndtimeo =>
    let t := loadTimeout f optlen
    (.ok (restartSend (modOpts w i fun o =>
      { o with sndtimeoSecs := t.1, sndtimeoMicro := t.2 }) i), w)
  | .error | .type => (.error .enoprotoopt, w)
  | .eventmask => (.ok w, w)
  | .nodelay =>
    (.ok (onFullOf (modOpts w i fun o => { o with nodelay := on }) i .nagle
      fun c => { c with nagleOff := on }), w)
  | .maxseg =>
    let w := readMss w i
    if v < 1 ∨ v > currentMss w i then (.error .einval, w)
    else
      (.ok (onFullOf (modOpts w i fun o => { o with mss := v.toNat }) i .mss
        fun c => { c with mss := v.toNat }), w)
  | .keepidle =>
    if keepOk v then
      (.ok (onFullOf (modOpts w i fun o => { o with keepidle := v }) i .keep
        fun c => { c with keepIdle := v.toNat * 1000 }), w)
    else (.error .einval, w)
  | .keepintvl =>
    if keepOk v then
      (.ok (onFullOf (modOpts w i fun o => { o with keepintvl := v }) i .keep
        fun c => { c with keepIntvl := v.toNat * 1000 }), w)
    else (.error .einval, w)
  | .keepcnt =>
    if 0 < v then
      (.ok (onFullOf (modOpts w i fun o => { o with keepcnt := v }) i .keep
        fun c => { c with keepCnt := v.toNat }), w)
    else (.error .einval, w)
  | .tos =>
    (.ok (onRawOf (onUdpOf (onTcpOf (modOpts w i fun o => { o with tos := byte }) i
      fun c => { c with tos := byte }) i fun c => { c with tos := byte }) i
      fun c => { c with tos := byte }), w)
  | .ttl =>
    (.ok (onRawOf (onUdpOf (onTcpOf (modOpts w i fun o => { o with ttl := byte }) i
      fun c => { c with ttl := byte }) i fun c => { c with ttl := byte }) i
      fun c => { c with ttl := byte }), w)
  | .hdrincl =>
    (.ok (onRawOf (modOpts w i fun o => { o with hdrincl := on }) i
      fun c => { c with hdrincl := on }), w)
  | .multicastTtl =>
    let t := (loadMcast f optlen % 256).toNat
    (.ok (onRawOf (onUdpOf (modOpts w i fun o => { o with multicastTtl := t }) i
      fun c => { c with mcastTtl := t }) i fun c => { c with mcastTtl := t }), w)
  | .multicastLoop =>
    let l := loadMcast f optlen != 0
    (.ok (onUdpOf (modOpts w i fun o => { o with multicastLoop := l.toNat }) i
      fun c => { c with mcastLoop := l }), w)
  | .addMembership => addMembership w i (be32 f 0) (be32 f 4)
  | .dropMembership => dropMembership w i (be32 f 0) (be32 f 4)

/-- `tn_ipc_cmd_setsockopt`. -/
def tnIpcCmdSetsockopt (w : World) (m : MsgId) (slot : Option SlotIdx) :
    World × TnIpcReplyAction :=
  let x := w.msgs m
  match slot, (x.ptrs 0).mem? with
  | some i, some f =>
    match sockOpt (w.sockets i).type (x.args 1) (x.args 2) with
    | .error e => fail w m e
    | .ok o =>
      if o = .hdrincl ∧ (w.sockets i).type ≠ sockRaw then fail w m .enoprotoopt
      else if o ≠ .error ∧ o ≠ .type ∧ x.args 3 < minOptlen o then fail w m .einval
      else
        match applySockopt w i o f (x.args 3) with
        | (.error e, w) => fail w m e
        | (.ok w, _) => done w m 0 .ok
  | _, _ => fail w m .ebadf

/-! ## Reading -/

/-- A value read from the pcb, or from the slot for a listener and a slot without a pcb. -/
def tcpOptValue (w : World) (i : SlotIdx) (fromPcb : TcpPcb → Int) (stored : Int) : Int :=
  match (w.sockets i).tcpPcb with
  | some p =>
    if (w.sockets i).tcpState ≠ .listening then
      match w.tcpPcbs p with
      | some c => fromPcb c
      | none => 0
    else stored
  | none => stored

/-- The integer an option reads as. -/
def optValue (w : World) (i : SlotIdx) (o : SockOpt) : Int :=
  let s := w.sockets i
  let bit := fun b : Bool => if b then (1 : Int) else 0
  match o with
  | .broadcast => bit s.opts.broadcast
  | .keepalive => bit s.opts.keepalive
  | .reuseaddr => bit s.opts.reuseaddr
  | .sndbuf => if s.opts.sndbuf ≠ 0 then s.opts.sndbuf else tcpSndBuf
  | .rcvbuf => if s.opts.rcvbuf ≠ 0 then s.opts.rcvbuf else tcpWnd
  | .type => s.type
  | .oobinline => bit s.opts.oobinline
  | .rcvtimeo => s.opts.rcvtimeoSecs * 1000 + s.opts.rcvtimeoMicro / 1000
  | .sndtimeo => s.opts.sndtimeoSecs * 1000 + s.opts.sndtimeoMicro / 1000
  | .nodelay => bit s.opts.nodelay
  | .maxseg =>
    if s.tcpState = .listening then if s.opts.mss ≠ 0 then s.opts.mss else tcpMss
    else tcpOptValue w i (fun c => c.mss) tcpMss
  | .keepidle => tcpOptValue w i (fun c => c.keepIdle / 1000) s.opts.keepidle
  | .keepintvl => tcpOptValue w i (fun c => c.keepIntvl / 1000) s.opts.keepintvl
  | .keepcnt => tcpOptValue w i (fun c => c.keepCnt) s.opts.keepcnt
  | .tos => s.opts.tos
  | .ttl => s.opts.ttl
  | .hdrincl =>
    match s.rawPcb with
    | some p =>
      match w.rawPcbs p with
      | some c => bit c.hdrincl
      | none => 0
    | none => bit s.opts.hdrincl
  | .multicastTtl => s.opts.multicastTtl
  | .multicastLoop => s.opts.multicastLoop
  | _ => 0

/-- The full-pcb reads of `getsockopt`. -/
def readOpt (w : World) (i : SlotIdx) : SockOpt → World
  | .maxseg => onFullOf w i .mss id
  | .keepidle | .keepintvl | .keepcnt => onFullOf w i .keep id
  | _ => w

/-- Stores an option value and its length through the client's pointers. -/
def writeOpt (w : World) (m : MsgId) (bytes : List UInt8) : World :=
  (w.store m 0 0 bytes).store m 1 0 (bytes32 bytes.length)

/-- The four bytes of an int. -/
def intBytes (v : Int) : List UInt8 := bytes32 (v % 2 ^ 32).toNat

/-- `tn_ipc_cmd_getsockopt` on a known option. -/
def getSockopt (w : World) (m : MsgId) (i : SlotIdx) (o : SockOpt) (olen : Nat) :
    World × TnIpcReplyAction :=
  let s := w.sockets i
  match o with
  | .eventmask | .addMembership | .dropMembership => fail w m .enoprotoopt
  | .linger =>
    if olen < 8 then fail w m .einval
    else done (writeOpt w m (intBytes s.opts.lingerOnoff ++ intBytes s.opts.lingerLinger)) m 0 .ok
  | .error =>
    if olen < 4 then fail w m .einval
    else
      let w := writeOpt w m (bytes32 s.lastError.code)
      done (w.modSlot i fun s => { s with lastError := .ok }) m 0 .ok
  | .rcvtimeo =>
    if olen < 4 then fail w m .einval
    else if olen ≥ 8 then
      done (writeOpt w m (bytes32 s.opts.rcvtimeoSecs ++ bytes32 s.opts.rcvtimeoMicro)) m 0 .ok
    else done (writeOpt w m (intBytes (optValue w i .rcvtimeo))) m 0 .ok
  | .sndtimeo =>
    if olen < 4 then fail w m .einval
    else if olen ≥ 8 then
      done (writeOpt w m (bytes32 s.opts.sndtimeoSecs ++ bytes32 s.opts.sndtimeoMicro)) m 0 .ok
    else done (writeOpt w m (intBytes (optValue w i .sndtimeo))) m 0 .ok
  | o =>
    if olen < 4 then fail w m .einval
    else done (writeOpt (readOpt w i o) m (intBytes (optValue w i o))) m 0 .ok

/-- `tn_ipc_cmd_getsockopt`. -/
def tnIpcCmdGetsockopt (w : World) (m : MsgId) (slot : Option SlotIdx) :
    World × TnIpcReplyAction :=
  let x := w.msgs m
  match slot, (x.ptrs 0).mem? with
  | some i, some _ =>
    match (x.ptrs 1).mem? with
    | none => fail w m .einval
    | some l =>
      match sockOpt (w.sockets i).type (x.args 1) (x.args 2) with
      | .error e => fail w m e
      | .ok o =>
        if o = .hdrincl ∧ (w.sockets i).type ≠ sockRaw then fail w m .enoprotoopt
        else getSockopt w m i o (be32 l 0)
  | _, _ => fail w m .ebadf

end Tolunnet
