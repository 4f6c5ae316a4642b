import Tolunnet.Task.Netdb
import Tolunnet.Task.Sockopt

/-!
# `Tolunnet.Task.Socket`: bases, descriptors and hand-over

`ipc_socket.c` with `tn_reap_dead_clients` of `daemon_main.c`, which `OPEN` calls when the
registry is full: `OPEN` and `CLOSE` of a base, `SOCKET`, `CLOSESOCKET`, `DUP2`, and the
parking lot of `RELEASESOCKET` and `OBTAINSOCKET`.
-/

set_option autoImplicit false

namespace Tolunnet

open World

/-! ## `CLOSE` and the reaper -/

/-- The registry entry of a base. -/
def baseIdx? (w : World) (b : Option BaseId) : Option (Fin 16) :=
  (List.finRange 16).find? fun k => w.openBases k == b

theorem baseIdx?_some {w : World} {b : Option BaseId} {k : Fin 16} (h : baseIdx? w b = some k) :
    w.openBases k = b := by
  have found := List.find?_some h
  simpa using found

theorem baseIdx?_none {w : World} {b : Option BaseId} (h : baseIdx? w b = none) (k : Fin 16) :
    w.openBases k ≠ b := by
  have no := List.find?_eq_none.mp h k (List.mem_finRange k)
  simpa using no

/-- The base leaves the registry. -/
def unregisterBase (w : World) (b : Option BaseId) : World :=
  match baseIdx? w b with
  | some k => { w with openBases := Function.update w.openBases k none,
                       openBaseCount := w.openBaseCount - 1 }
  | none => w

/-- One descriptor of a closing base. -/
def closeFd (b : BaseId) (w : World) (fd : Nat) : World :=
  match (w.bases b).fdMap fd with
  | none => w
  | some i => if (w.sockets i).inUse then tnSlotUnref (w.setFd b fd none) i else w

/-- `tn_ipc_cmd_close` up to its reply. -/
def closeBase (w : World) (b : BaseId) : World :=
  let w := tnDnsCancelForBase2 w b true
  let w := tnRecvCancelForBase2 w b true
  let w := unregisterBase w (some b)
  let w := (List.range (w.bases b).dtablesize).foldl (closeFd b) w
  tnSlotClearOwnerBase (tnSelectorDisarmAllForBase w b) b

/-- `tn_ipc_cmd_close`. -/
def tnIpcCmdClose (w : World) (m : MsgId) : World × TnIpcReplyAction :=
  match (w.msgs m).socketBase with
  | some b => done (closeBase w b) m 0 .ok
  | none => done (unregisterBase w none) m 0 .ok

/-- The reaper clears the connect, accept and receive fields of the slots the base owns. -/
def dropPendingAt (b : BaseId) (w : World) (i : SlotIdx) : World :=
  if (w.sockets i).inUse && (w.sockets i).ownerBase == some b then
    ((w.setPending i .connect none).setPending i .accept none).setPending i .recv none
  else w

/-- `tn_reap_dead_clients` on one dead base. -/
def reapBase (w : World) (b : BaseId) : World :=
  let w := tnDnsCancelForBase2 w b false
  let w := tnRecvCancelForBase2 w b false
  let w := (List.finRange 64).foldl (dropPendingAt b) w
  let w := closeBase w b
  { w with libOpenCnt := w.libOpenCnt - 1 }

/-- One registry entry of `tn_reap_dead_clients`. -/
def reapAt (w : World) (k : Fin 16) : World :=
  match w.openBases k with
  | none => w
  | some b => if w.taskAlive (w.bases b).ownerTask then w else reapBase w b

/-- `tn_reap_dead_clients`. -/
def tnReapDeadClients (w : World) : World := (List.finRange 16).foldl reapAt w

/-! ## `OPEN` -/

/-- The base enters the registry at entry `k`. -/
def registerBase (w : World) (k : Fin 16) (b : BaseId) : World :=
  { w with openBases := Function.update w.openBases k (some b),
           openBaseCount := if w.openBaseCount < 16 then w.openBaseCount + 1
             else w.openBaseCount }

/-- The hostname handed to `gethostname` callers. -/
def giveHostname (w : World) (b : BaseId) : World :=
  if w.prefs.hostname = [] then w
  else w.modBase b fun base => { base with hostname := w.prefs.hostname.take 31 }

/-- `tn_ipc_cmd_open`: a full registry is reaped once before the base is refused. -/
def tnIpcCmdOpen (w : World) (m : MsgId) : World × TnIpcReplyAction :=
  match (w.msgs m).socketBase with
  | none => done w m 0 .ok
  | some b =>
    let w := giveHostname w b
    if (baseIdx? w (some b)).isSome then done w m 0 .ok
    else
      match baseIdx? w none with
      | some k => done (registerBase w k b) m 0 .ok
      | none =>
        let w := tnReapDeadClients w
        match baseIdx? w none with
        | some k => done (registerBase w k b) m 0 .ok
        | none => fail w m .enfile

/-! ## `SOCKET` -/

/-- `IPPROTO_UDP` and `IPPROTO_ICMP`. -/
def ipprotoUdp : Int := 17
def ipprotoIcmp : Int := 1

/-- The checks on domain, type and protocol; `ok` when they pass. -/
def socketRefusal (domain type protocol : Int) : Errno :=
  if domain ≠ afInet then .eafnosupport
  else if type = sockStream then
    if protocol ≠ 0 ∧ protocol ≠ ipprotoTcp then .eprotonosupport else .ok
  else if type = sockDgram then
    if protocol ≠ 0 ∧ protocol ≠ ipprotoUdp then .eprotonosupport else .ok
  else if type = sockRaw then
    if protocol ≠ ipprotoIcmp ∧ protocol ≠ ipprotoRaw then .eprotonosupport else .ok
  else .esocktnosupport

/-- `udp_new` and `udp_recv` for slot `i`; `none` when lwIP has no pcb. -/
def newUdp (w : World) (i : SlotIdx) : World × Bool :=
  if w.ask.ok && (w.udpPcbs w.ask.id).isNone then
    let p := w.ask.id
    ((w.asked.setUdp p (some { arg := i })).modSlot i fun s => { s with udpPcb := some p }, true)
  else (w.asked, false)

/-- `raw_new`, `raw_recv` and the header flag for slot `i`. -/
def newRaw (w : World) (i : SlotIdx) (protocol : Int) : World × Bool :=
  if w.ask.ok && (w.rawPcbs w.ask.id).isNone then
    let p := w.ask.id
    let c : DgramPcb := { arg := i, hdrincl := protocol == ipprotoRaw }
    ((w.asked.setRaw p (some c)).modSlot i fun s => { s with rawPcb := some p }, true)
  else (w.asked, false)

/-- `tcp_new`, `tcp_arg` and `tcp_err` for slot `i`. To find a pcb lwIP may abort others. -/
def newTcp (w : World) (i : SlotIdx) : World × Bool :=
  let a := w.ask
  let w := runErrs w.asked a.evs
  if a.ok && (w.tcpPcbs a.id).isNone then
    let w := (w.setPcb a.id (some {})).modSlot i fun s => { s with tcpPcb := some a.id }
    (tcpErr (tcpArg w a.id (.slot i)) a.id .slot, true)
  else (w, false)

/-- The pcb of a new slot, by its type. -/
def newPcb (w : World) (i : SlotIdx) (type protocol : Int) : World × Bool :=
  if type = sockDgram then newUdp w i
  else if type = sockStream then newTcp w i
  else newRaw w i protocol

/-- `tn_ipc_cmd_socket`. -/
def tnIpcCmdSocket (w : World) (m : MsgId) : World × TnIpcReplyAction :=
  let x := w.msgs m
  let type := x.args 1
  if socketRefusal (x.args 0) type (x.args 2) ≠ .ok then
    fail w m (socketRefusal (x.args 0) type (x.args 2))
  else
    match x.socketBase with
    | none => fail w m .emfile
    | some b =>
      match pickFd? (w.bases b) (x.args 3) with
      | none => fail w m .emfile
      | some fd =>
        match freeSlot? w with
        | none => fail w m .enfile
        | some i =>
          let w := tnSlotAlloc w i (some b) x.clientTask (x.args 0) type (x.args 2)
          match newPcb w i type (x.args 2) with
          | (w, false) => fail (tnSlotFree w i) m .enobufs
          | (w, true) =>
            let w := w.setFd b fd (some i)
            let w := if type = sockDgram ∨ type = sockRaw then
              tnRecordSocketEvent w i fdWrite else w
            done w m fd .ok

/-! ## Descriptors -/

/-- A parked request of the closing base on this slot is answered first. -/
def cancelOwn (w : World) (i : SlotIdx) (b : BaseId) : World :=
  let w := if pendingOf w i .recv b then replyPending w i .recv (-1) .ebadf else w
  if pendingOf w i .send b then tnSlotReplySend w i .ebadf true else w

/-- `tn_ipc_cmd_closesocket`. -/
def tnIpcCmdClosesocket (w : World) (m : MsgId) (slot : Option SlotIdx) :
    World × TnIpcReplyAction :=
  let x := w.msgs m
  match slot, x.socketBase with
  | some i, some b =>
    let w := cancelOwn w i b
    done (tnSlotUnref (w.setFd b (x.args 0).toNat none) i) m 0 .ok
  | _, _ => fail w m .ebadf

/-- `tn_ipc_cmd_dup2`. -/
def tnIpcCmdDup2 (w : World) (m : MsgId) (slot : Option SlotIdx) : World × TnIpcReplyAction :=
  let x := w.msgs m
  let newFd := x.args 1
  match slot, x.socketBase with
  | some i, some b =>
    if newFd < 0 ∨ newFd ≥ (w.bases b).dtablesize then fail w m .ebadf
    else if x.args 0 = newFd then done w m newFd .ok
    else
      let w := closeFd b w newFd.toNat
      done (tnSlotRef (w.setFd b newFd.toNat (some i)) i) m newFd .ok
  | _, _ => fail w m .ebadf

/-! ## The parking lot -/

/-- Whether a parked slot carries this id. -/
def parkIdTaken (w : World) (id : Int) : Bool :=
  (List.finRange 64).any fun i =>
    (w.sockets i).inUse && (w.sockets i).isParked && (w.sockets i).parkId == id

/-- `d->next_park_id++` on a LONG; a counter that has wrapped starts again at 1. -/
def bumpParkId (w : World) : World :=
  let n := (w.nextParkId + 1).bmod (2 ^ 32)
  { w with nextParkId := if n ≤ 0 then 1 else n }

/-- The `UNIQUE_ID` loop. At most 64 slots are parked, so 65 tries are enough. -/
def uniqueParkId : Nat → World → World × Option Int
  | 0, w => (w, none)
  | fuel + 1, w =>
    if parkIdTaken w w.nextParkId then uniqueParkId fuel (bumpParkId w)
    else (bumpParkId w, some w.nextParkId)

/-- The id a release gets, or the error. -/
def chooseParkId (w : World) (reqId : Int) : World × Except Errno Int :=
  if reqId = -1 then
    match uniqueParkId 65 w with
    | (w, some id) => (w, .ok id)
    | (w, none) => (w, .error .ebusy)
  else if reqId < 0 then (w, .error .einval)
  else if parkIdTaken w reqId then (w, .error .eaddrinuse)
  else (w, .ok reqId)

/-- `tn_ipc_cmd_releasesocket`. -/
def tnIpcCmdReleasesocket (w : World) (m : MsgId) (slot : Option SlotIdx) :
    World × TnIpcReplyAction :=
  let x := w.msgs m
  match slot, x.socketBase with
  | some i, some b =>
    if (w.sockets i).isParked then fail w m .ebusy
    else
      match chooseParkId w (x.args 1) with
      | (w, .error e) => fail w m e
      | (w, .ok id) =>
        let w := w.modSlot i fun s => { s with isParked := true, parkId := id }
        let w := if x.args 2 % 65536 ≠ 0 then tnSlotRef w i
          else w.setFd b (x.args 0).toNat none
        done w m id .ok
  | _, _ => fail w m .ebadf

/-- The parked slot with this id. -/
def parkedSlot? (w : World) (id : Int) : Option SlotIdx :=
  (List.finRange 64).find? fun i =>
    (w.sockets i).inUse && (w.sockets i).isParked && (w.sockets i).parkId == id

/-- The checks of `obtainsocket` on domain, type and protocol. -/
def obtainRefusal (s : TnSocketSlot) (domain type protocol : Int) : Errno :=
  if domain ≠ 0 ∧ s.domain ≠ domain then .eprototype
  else if type ≠ 0 ∧ s.type ≠ type then .eprototype
  else if protocol ≠ 0 ∧ s.protocol ≠ 0 ∧ s.protocol ≠ protocol then .eprotonosupport
  else .ok

/-- `tn_ipc_cmd_obtainsocket`. -/
def tnIpcCmdObtainsocket (w : World) (m : MsgId) : World × TnIpcReplyAction :=
  let x := w.msgs m
  match x.socketBase with
  | none => fail w m .einval
  | some b =>
    match parkedSlot? w (x.args 0) with
    | none => fail w m .enoent
    | some i =>
      let e := obtainRefusal (w.sockets i) (x.args 1) (x.args 2) (x.args 3)
      if e ≠ .ok then fail w m e
      else
        match pickFd? (w.bases b) (x.args 4) with
        | none => fail w m .emfile
        | some fd =>
          let w := w.setFd b fd (some i)
          done (w.modSlot i fun s =>
            { s with isParked := false, parkId := 0, ownerBase := some b,
                     ownerTask := some x.clientTask }) m fd .ok

/-! ## `IOCTL` and the socket's addresses -/

/-- `FIONBIO`, `FIONREAD` and `SIOCATMARK`. -/
def fionbio : Int := 0x8004667E
def fionread : Int := 0x4004667F
def siocatmark : Int := 0x40047307

/-- `tn_ipc_cmd_ioctl`. The interface requests only read lwIP's interface list and write
through the client's pointer; whether one succeeds is lwIP's answer. -/
def tnIpcCmdIoctl (w : World) (m : MsgId) (slot : Option SlotIdx) :
    World × TnIpcReplyAction :=
  let x := w.msgs m
  match slot, (x.ptrs 0).mem? with
  | some i, some f =>
    let req := x.args 1 % 2 ^ 32
    if req = fionbio then
      done (w.modSlot i fun s => { s with isNonblocking := decide (be32 f 0 ≠ 0) }) m 0 .ok
    else if req = fionread then
      done (w.store m 0 0 (bytes32 (rxBytes (w.sockets i).rx).length)) m 0 .ok
    else if req = siocatmark then done (w.store m 0 0 (bytes32 0)) m 0 .ok
    else if w.ask.ok then done w.asked m 0 .ok
    else fail w.asked m .einval
  | none, some _ => fail w m .ebadf
  | _, none => fail w m .einval

/-- Stores an address and its length through pointers 0 and 1. -/
def storeName (w : World) (m : MsgId) (port addr : Nat) : World :=
  (w.store m 0 0 (tnSockinStoreBytes { family := afInet, port := port, addr := addr })).store
    m 1 0 (bytes32 sizeofSockaddrIn)

/-- The local address of a slot. -/
def localOf (w : World) (s : TnSocketSlot) : Nat × Nat :=
  if s.type = sockStream then
    match s.tcpPcb.bind w.tcpPcbs with
    | some c => (c.localIp, c.localPort)
    | none => (0, 0)
  else if s.type = sockDgram then
    match s.udpPcb.bind w.udpPcbs with
    | some c => (c.localIp, c.localPort)
    | none => (0, 0)
  else if s.type = sockRaw then
    match s.rawPcb.bind w.rawPcbs with
    | some c => (c.localIp, s.protocol.toNat)
    | none => (0, 0)
  else (0, 0)

/-- `tn_ipc_cmd_getsockname`. -/
def tnIpcCmdGetsockname (w : World) (m : MsgId) (slot : Option SlotIdx) :
    World × TnIpcReplyAction :=
  let x := w.msgs m
  match slot, (x.ptrs 0).mem?, (x.ptrs 1).mem? with
  | some i, some _, some l =>
    if be32 l 0 < sizeofSockaddrIn then fail w m .einval
    else
      let a := localOf w (w.sockets i)
      done (storeName w m a.2 a.1) m 0 .ok
  | _, _, _ => fail w m .ebadf

/-- The stream branch of `getpeername`; the remote port is a full-pcb field. -/
def peernameStream (w : World) (m : MsgId) (i : SlotIdx) (p : PcbId) :
    World × TnIpcReplyAction :=
  let st := (w.sockets i).tcpState
  if st ≠ .established ∧ st ≠ .connecting then fail w m .enotconn
  else
    let w := w.readFull p .remotePort
    done (storeName w m (peerOf w p).2 (peerOf w p).1) m 0 .ok

/-- `tn_ipc_cmd_getpeername`. -/
def tnIpcCmdGetpeername (w : World) (m : MsgId) (slot : Option SlotIdx) :
    World × TnIpcReplyAction :=
  let x := w.msgs m
  match slot, (x.ptrs 0).mem?, (x.ptrs 1).mem? with
  | some i, some _, some l =>
    let s := w.sockets i
    if be32 l 0 < sizeofSockaddrIn then fail w m .einval
    else if s.type = sockStream then
      match s.tcpPcb with
      | some p => peernameStream w m i p
      | none => fail w m .enotconn
    else if s.type = sockDgram then
      match s.udpPcb with
      | some p =>
        let a := remoteOf (w.udpPcbs p)
        if a.2 = 0 then fail w m .enotconn else done (storeName w m a.2 a.1) m 0 .ok
      | none => fail w m .enotconn
    else if s.type = sockRaw then
      match s.rawPcb with
      | some p => done (storeName w m 0 (remoteOf (w.rawPcbs p)).1) m 0 .ok
      | none => fail w m .enotconn
    else fail w m .enotconn
  | _, _, _ => fail w m .ebadf

end Tolunnet
