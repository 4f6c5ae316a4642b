import Mathlib.Data.Fintype.Basic
import Mathlib.Data.Fintype.Pi
import Mathlib.Logic.Function.Basic
import Mathlib.Tactic.Simps.Basic
import Tolunnet.Common.PrefsFile

/-!
# `Tolunnet.Task.Context`: the daemon's data model

Everything a handler of the network task reads or writes: the socket slots, the accept
entries, the selector table, the DNS records, the client bases and their messages, and the
protocol control blocks that lwIP keeps for the daemon. The types follow `task_ctx.h` and
`ipc.h`; C integers that the code never lets wrap are `Nat` or `Int`, tables are functions
on `Fin n`, and the linked lists of packets and accept entries are lists beside the count
that the source keeps next to them.

Three things are not the daemon's own. `env` holds the answers that lwIP and the allocator
give to the calls still to come, `igmpUse` is what the daemon has added to lwIP's use count of
each pair of interface and multicast group, and `trace` records what the daemon does to the
outside: replies, wakeups and the bytes it hands to lwIP. `calls` and `callOf` number the requests,
so that two uses of one message are told apart, and `armedSinceResync` remembers whether a
selector was armed after the last recount of the table.
-/

set_option autoImplicit false

namespace Tolunnet

/-! ## Names and constants -/

/-- An index into `d->sockets` (`TN_MAX_GLOBAL_SOCKETS` is 64). -/
abbrev SlotIdx := Fin 64

/-- The address of a `TnSocketBase`. -/
abbrev BaseId := Nat

/-- The address of an Exec task. -/
abbrev TaskId := Nat

/-- The address of a `TnIpcMsg`; address 0 is `NULL` and never a message. -/
abbrev MsgId := Nat

/-- The address of an lwIP protocol control block. -/
abbrev PcbId := Nat

/-- The address of a `TnAcceptEntry`. -/
abbrev EntId := Nat

/-- The number of a request: the count of messages received before it. -/
abbrev CallNo := Nat

/-- `TN_MAX_RX_QUEUE_PER_SOCKET`. -/
def maxRxQueuePerSocket : Nat := 32

/-- `TN_ACCEPT_QUEUE_MAX`. -/
def acceptQueueMax : Nat := 8

/-- `TN_MAX_SELECTORS`, the initial size of the selector table. -/
def maxSelectors : Nat := 16

/-- lwIP's `TCP_MSS` in this build. -/
def tcpMss : Nat := 1460

/-- lwIP's `TCP_SND_BUF`. -/
def tcpSndBuf : Nat := 8 * tcpMss

/-- lwIP's `TCP_WND`. -/
def tcpWnd : Nat := 8 * tcpMss

/-- lwIP's `TCP_SND_QUEUELEN`. -/
def tcpSndQueuelen : Nat := 16

/-- Event bits of `SO_EVENTMASK`. -/
def fdAccept : Nat := 0x01
def fdConnect : Nat := 0x02
def fdRead : Nat := 0x08
def fdWrite : Nat := 0x10
def fdError : Nat := 0x20
def fdClose : Nat := 0x40

/-! ## Enumerations -/

/-- The `errno` values the daemon stores; `ok` is 0. -/
inductive Errno where
  | ok | eintr | ebadf | enoent | efault | ebusy | einval | enfile | emfile | epipe
  | ewouldblock | einprogress | ealready | edestaddrreq | emsgsize | eprototype
  | enoprotoopt | eprotonosupport | esocktnosupport | eopnotsupp | eafnosupport
  | eaddrinuse | enetunreach | econnaborted | econnreset | enobufs | eisconn | enotconn
  | etimedout | econnrefused | ehostunreach | enosys | enxio
  deriving DecidableEq, Repr

/-- The numbers of `sys/errno.h`; `EAGAIN` is `EWOULDBLOCK`. -/
def Errno.code : Errno → Nat
  | .ok => 0 | .enoent => 2 | .eintr => 4 | .enxio => 6 | .ebadf => 9 | .efault => 14
  | .ebusy => 16 | .einval => 22 | .enfile => 23 | .emfile => 24 | .epipe => 32
  | .ewouldblock => 35 | .einprogress => 36 | .ealready => 37 | .edestaddrreq => 39
  | .emsgsize => 40 | .eprototype => 41 | .enoprotoopt => 42 | .eprotonosupport => 43
  | .esocktnosupport => 44 | .eopnotsupp => 45 | .eafnosupport => 47 | .eaddrinuse => 48
  | .enetunreach => 51 | .econnaborted => 53 | .econnreset => 54 | .enobufs => 55
  | .eisconn => 56 | .enotconn => 57 | .etimedout => 60 | .econnrefused => 61
  | .ehostunreach => 65 | .enosys => 78

/-- lwIP's `err_t`. -/
inductive ErrT where
  | ok | mem | buf | rte | inprogress | val | use | isconn | conn | abrt | rst | clsd | arg
  deriving DecidableEq, Repr

/-- `TnTcpState`. -/
inductive TnTcpState where
  | closed | connecting | established | listening | peerClosed | error
  deriving DecidableEq, Repr

/-- lwIP's `enum tcp_state`. -/
inductive TcpState where
  | closed | listen | synSent | synRcvd | established | finWait1 | finWait2 | closeWait
  | closing | lastAck | timeWait
  deriving DecidableEq, Repr

/-- The states in which a connection carries data: both ends have seen a SYN. -/
def TcpState.synced : TcpState → Bool
  | .closed | .listen | .synSent | .synRcvd => false
  | _ => true

/-- `TnIpcCmd`; `unknown` is any code past the end of the table. -/
inductive TnIpcCmd where
  | open | close | socket | bind | listen | accept | connect | sendto | send | recvfrom
  | recv | shutdown | setsockopt | getsockopt | getsockname | getpeername | ioctl
  | closesocket | gethostbyname | gethostbyaddr | waitselect | dup2 | getstatus | reconfig
  | enumsockets | sendmsg | recvmsg | releasesocket | obtainsocket | selectArm
  | selectDisarm | getstats | routectl | ifctl | stop | cancel | syslog | unknown
  deriving DecidableEq, Repr

/-- The four fields of a slot that can hold a parked message. -/
inductive Pend where
  | connect | accept | recv | send
  deriving DecidableEq, Repr

instance : Fintype Pend where
  elems := {.connect, .accept, .recv, .send}
  complete := by intro k; cases k <;> decide

/-- What a handler tells `tn_handle_ipc`: `TN_IPC_REPLY_NOW` or `TN_IPC_DEFER`. -/
inductive TnIpcReplyAction where
  | replyNow | defer
  deriving DecidableEq, Repr

/-! ## Client memory -/

/-- `struct iovec`. A `NULL` base is `none`. -/
structure Iovec where
  iovBase : Option Mem
  iovLen : Nat

/-- The parts of `struct msghdr` that the handlers read. A `NULL` array is `none`, and
`msg_iovlen` is the length of the array. -/
structure Msghdr where
  msgName : Option Mem := none
  msgNamelen : Nat := 0
  msgIov : Option (List Iovec) := none
  msgControl : Bool := false

/-- A pointer argument of a message, with what it points to. -/
inductive Ptr where
  | null
  | mem (f : Mem)
  | str (s : List Char)
  | msghdr (h : Msghdr)

/-- The bytes behind a data pointer. -/
def Ptr.mem? : Ptr → Option Mem
  | .mem f => some f
  | _ => none

/-- `TnIpcMsg`. -/
structure TnIpcMsg where
  cmd : TnIpcCmd
  clientTask : TaskId := 0
  socketBase : Option BaseId := none
  args : Nat → Int := fun _ => 0
  ptrs : Nat → Ptr := fun _ => .null
  result : Int := 0
  errNo : Errno := .ok

/-- The parts of `TnSocketBase` that the daemon reads or writes. An entry of `fdMap` is
`none` where the source stores -1. -/
structure TnSocketBase where
  ownerTask : TaskId := 0
  fdMap : Nat → Option SlotIdx := fun _ => none
  dtablesize : Nat := 64
  events : Nat → Nat := fun _ => 0
  eventMasks : Nat → Nat := fun _ => 0
  sigIo : Nat := 0
  sigEvent : Nat := 0
  sigSelect : Nat := 0
  hostname : List Char := []
  hostentName : List Char := []
  hostentAddr : Nat := 0

/-! ## Queues -/

/-- `TnRxPacket`: the bytes of the pbuf chain, the read offset and the sender. -/
structure TnRxPacket where
  p : List UInt8
  offset : Nat := 0
  srcIp : Nat := 0
  srcPort : Nat := 0
  deriving DecidableEq, Repr

/-- The bytes of a packet that have not been read. -/
def TnRxPacket.rest (pkt : TnRxPacket) : List UInt8 := pkt.p.drop pkt.offset

/-- The unread bytes of a queue, in order. -/
def rxBytes (q : List TnRxPacket) : List UInt8 := (q.map TnRxPacket.rest).flatten

/-- The history of one byte stream, kept beside its queue and read by no handler: the
segments taken from lwIP, the bytes handed to clients, the window returned for them and the
bytes handed out while a pcb was attached. `dropped` is set when the final segment of a
finished connection finds no memory. -/
structure RxHist where
  accepted : List UInt8 := []
  returned : List UInt8 := []
  recved : Nat := 0
  attached : Nat := 0
  dropped : Bool := false

/-- `TnAcceptEntry`, an incoming connection that no client has accepted yet. -/
structure TnAcceptEntry where
  id : EntId
  newPcb : Option PcbId
  earlyRx : List TnRxPacket := []
  earlyRxCount : Nat := 0
  listeningSlot : SlotIdx
  peerClosed : Bool := false
  hist : RxHist := {}

/-! ## Socket slots -/

/-- The option block of a slot (`opt_*`). -/
structure TnSockOpts where
  broadcast : Bool := false
  reuseaddr : Bool := false
  keepalive : Bool := false
  oobinline : Bool := false
  lingerOnoff : Int := 0
  lingerLinger : Int := 0
  sndbuf : Int := tcpSndBuf
  rcvbuf : Int := tcpWnd
  rcvtimeoSecs : Nat := 0
  rcvtimeoMicro : Nat := 0
  sndtimeoSecs : Nat := 0
  sndtimeoMicro : Nat := 0
  nodelay : Bool := false
  mss : Nat := 0
  keepidle : Int := 7200
  keepintvl : Int := 75
  keepcnt : Int := 9
  tos : Nat := 0
  ttl : Nat := 64
  hdrincl : Bool := false
  multicastTtl : Nat := 1
  multicastLoop : Nat := 1

/-- `TnSocketSlot`. -/
structure TnSocketSlot where
  inUse : Bool := false
  ownerBase : Option BaseId := none
  ownerTask : Option TaskId := none
  domain : Int := 0
  type : Int := 0
  protocol : Int := 0
  tcpState : TnTcpState := .closed
  isNonblocking : Bool := false
  shutWr : Bool := false
  shutRd : Bool := false
  opts : TnSockOpts := {}
  lastError : Errno := .ok
  rxCount : Nat := 0
  refCount : Nat := 0
  udpPcb : Option PcbId := none
  tcpPcb : Option PcbId := none
  rawPcb : Option PcbId := none
  rx : List TnRxPacket := []
  acceptQ : List TnAcceptEntry := []
  acceptCount : Nat := 0
  listenBacklog : Nat := 0
  pending : Pend → Option MsgId := fun _ => none
  recvDeadlineTick : Nat := 0
  sendDeadlineTick : Nat := 0
  sendDone : Nat := 0
  sendIov : Option (List Iovec) := none
  parkId : Int := 0
  isParked : Bool := false
  hist : RxHist := {}

/-- `SOCK_STREAM`, `SOCK_DGRAM` and `SOCK_RAW`. -/
def sockStream : Int := 1
def sockDgram : Int := 2
def sockRaw : Int := 3

/-! ## Tables -/

/-- `TnSelector`. -/
structure TnSelector where
  inUse : Bool := false
  base : Option BaseId := none
  task : Option TaskId := none
  sigSelect : Nat := 0
  nfds : Nat := 0
  readMask : Nat := 0
  writeMask : Nat := 0
  exceptMask : Nat := 0
  readMaskHi : Nat := 0
  writeMaskHi : Nat := 0
  exceptMaskHi : Nat := 0
  deriving DecidableEq, Repr

/-- `TnDnsPending`. The record is in use exactly when its flag is set. -/
structure TnDnsPending where
  inUse : Bool := false
  imsg : Option MsgId := none
  base : Option BaseId := none
  name : List Char := []
  tick : Nat := 0
  deriving DecidableEq, Repr

/-- An `IP_ADD_MEMBERSHIP` record. -/
structure McastJoin where
  inUse : Bool := false
  slot : SlotIdx := 0
  grp : Nat := 0
  ifa : Nat := 0
  deriving DecidableEq, Repr

/-! ## Settings in force -/

/-- The counters that a change of `STATS` resets. A block of `lwip_stats` is the counter at each
index. -/
structure TnStats where
  statsEnabled : Int := 0
  ipcCalls : Nat → Nat := fun _ => 0
  deferredReplies : Nat := 0
  sigioSent : Nat := 0
  selectorWakeups : Nat := 0
  statsTickBase : Nat := 0
  s2RxFrames : Nat := 0
  s2RxBytes : Nat := 0
  s2RxDrops : Nat := 0
  s2TxFrames : Nat := 0
  s2TxBytes : Nat := 0
  s2TxDrops : Nat := 0
  rxHighWater : Nat := 0
  link : Nat → Nat := fun _ => 0
  etharp : Nat → Nat := fun _ => 0
  ip : Nat → Nat := fun _ => 0
  icmp : Nat → Nat := fun _ => 0
  udp : Nat → Nat := fun _ => 0
  tcp : Nat → Nat := fun _ => 0
  memErr : Nat := 0
  memMax : Nat := 0

/-- The static variables of `syslog.c`. -/
structure TnSyslog where
  pcb : Bool := false
  host : List Char := []
  dst : Nat := 0
  armed : Bool := false

/-- What `RECONFIG` has put in force outside the preferences: the log tier and file, the task
priority, the counters, the syslog target, lwIP's name servers, and the host name and MTU of the
primary interface. `netif->hostname` points into `d->prefs` once it is set. -/
structure TnLive where
  logLevel : Int := 0
  logFile : Option (List Char) := none
  taskPri : Int := 0
  stats : TnStats := {}
  syslog : TnSyslog := {}
  dnsDestPort : Nat := 53
  dnsServer : Nat → Nat := fun _ => 0
  hostnameSet : Bool := false
  ifMtu : Nat := 0
  mdnsActive : Bool := false
  mdnsName : List Char := []

/-! ## lwIP's side -/

/-- The callback argument of a TCP pcb. -/
inductive CbArg where
  | null
  | slot (i : SlotIdx)
  | entry (e : EntId)
  deriving DecidableEq, Repr

/-- The receive callback of a TCP pcb: none, `tn_tcp_recv_cb` or `tn_tcp_queued_recv_cb`. -/
inductive RecvFn where
  | null | slot | queued
  deriving DecidableEq, Repr

/-- The error callback of a TCP pcb: none, `tn_tcp_err_cb` or `tn_tcp_queued_err_cb`. -/
inductive ErrFn where
  | null | slot | queued
  deriving DecidableEq, Repr

/-- A live TCP pcb. `listen` marks the smaller `tcp_pcb_listen`. -/
structure TcpPcb where
  listen : Bool := false
  state : TcpState := .closed
  arg : CbArg := .null
  recv : RecvFn := .null
  err : ErrFn := .null
  sent : Bool := false
  poll : Bool := false
  connected : Bool := false
  accept : Bool := false
  sndBuf : Nat := tcpSndBuf
  sndQueuelen : Nat := 0
  localIp : Nat := 0
  localPort : Nat := 0
  remoteIp : Nat := 0
  remotePort : Nat := 0
  mss : Nat := 536
  keepIdle : Nat := 7200000
  keepIntvl : Nat := 75000
  keepCnt : Nat := 9
  nagleOff : Bool := false
  sofKeepalive : Bool := false
  sofReuseaddr : Bool := false
  tos : Nat := 0
  ttl : Nat := 255

/-- A live UDP or raw pcb, with the values `udp_new` and `raw_new` start it with. -/
structure DgramPcb where
  arg : SlotIdx
  localIp : Nat := 0
  localPort : Nat := 0
  remoteIp : Nat := 0
  remotePort : Nat := 0
  sofBroadcast : Bool := false
  sofReuseaddr : Bool := false
  hdrincl : Bool := false
  tos : Nat := 0
  ttl : Nat := 255
  mcastTtl : Nat := 255
  mcastLoop : Bool := false

/-- What lwIP can do between two statements of the daemon: run a callback, or change a pcb. -/
inductive LwipEv where
  | connected (p : PcbId)
  | recv (p : PcbId) (seg : List UInt8)
  | fin (p : PcbId)
  | sent (p : PcbId) (sndBuf sndQueuelen : Nat)
  | poll (p : PcbId)
  | err (p : PcbId) (e : ErrT)
  | accept (l : PcbId) (p : PcbId) (remoteIp remotePort : Nat)
  | state (p : PcbId) (st : TcpState)
  | gone (p : PcbId)
  | udpRecv (p : PcbId) (seg : List UInt8) (ip port : Nat)
  | rawRecv (p : PcbId) (seg : List UInt8) (ip : Nat)
  | dnsFound (name : List Char) (addr : Option Nat) (m : MsgId)

/-- The answer of lwIP, of the allocator or of the file system to one call. -/
structure Answer where
  ok : Bool := true
  err : ErrT := .ok
  id : Nat := 0
  sndQueuelen : Nat := 0
  state : TcpState := .established
  addr : Nat := 0
  stores : ConfigStores := {}
  junk : Junk := {}
  evs : List LwipEv := []

/-- A full-pcb operation, named for the fault report. -/
inductive PcbOp where
  | recv | sent | err | poll | nagle | mss | keep | remotePort | sndBuf | write | output
  | recved | shutdown | connect | close | abort
  deriving DecidableEq, Repr

/-- What the daemon does that its clients or lwIP can see. -/
inductive Event where
  /-- `ReplyMsg` on request `c`. -/
  | reply (c : CallNo) (result : Int) (errNo : Errno)
  /-- `ReplyMsg` on a `NULL` message. -/
  | replyNull
  /-- `tn_signal_socket` on slot `i`, with its three predicates at that moment. -/
  | signalSocket (i : SlotIdx) (canRead canWrite hasExcept : Bool)
  /-- Request `c` enters the stream send path with these bytes. -/
  | sendStart (c : CallNo) (payload : List UInt8)
  /-- `tcp_write` accepted these bytes of request `c`. -/
  | tcpWrite (p : PcbId) (c : CallNo) (bytes : List UInt8)
  /-- `tcp_write` failed for request `c` with anything but `ERR_MEM`. -/
  | tcpWriteErr (p : PcbId) (c : CallNo) (e : ErrT)
  /-- The wait of send request `c` ends, with the error it would report without progress. -/
  | sendEnd (c : CallNo) (e : Errno)
  /-- `pbuf_free` on a segment that lwIP delivered. -/
  | pbufFree (seg : List UInt8)
  /-- A full-pcb operation on something that is not a live full pcb. -/
  | fault (p : PcbId) (op : PcbOp)
  deriving DecidableEq, Repr

/-- What the daemon writes into its clients: Exec signals and stores through their pointers
(`ptr` is the index of the pointer argument, `iov` that of an iovec entry). A datagram handed
to `udp_sendto` or `raw_sendto` is recorded here as well, and so is the recording of an event of
slot `i` in the event words of its owner. -/
inductive Output where
  | signal (t : TaskId) (mask : Nat)
  | event (b : BaseId) (i : SlotIdx) (mask : Nat)
  | datagram (p : PcbId) (ip port : Nat) (bytes : List UInt8)
  | store (m : MsgId) (ptr : Nat) (off : Nat) (bytes : List UInt8)
  | storeIov (m : MsgId) (iov : Nat) (off : Nat) (bytes : List UInt8)
  deriving DecidableEq, Repr

/-! ## The daemon -/

/-- `TnDaemon` with everything its handlers reach. -/
structure World where
  sockets : SlotIdx → TnSocketSlot
  nextParkId : Int := 1
  prefs : TnPrefs := {}
  live : TnLive := {}
  running : Bool := true
  stopping : Bool := false
  stopMsg : Option MsgId := none
  selectors : List TnSelector := List.replicate maxSelectors {}
  selectorCount : Nat := 0
  armedSinceResync : Bool := false
  mainloopTicks : Nat := 0
  dnsPending : Fin 8 → TnDnsPending := fun _ => {}
  dnsPendingCount : Nat := 0
  dnsLateReplies : Nat := 0
  openBases : Fin 16 → Option BaseId := fun _ => none
  openBaseCount : Nat := 0
  mcastJoins : Fin 8 → McastJoin := fun _ => {}
  igmpUse : Nat × Nat → Int := fun _ => 0
  libOpenCnt : Nat := 0
  msgs : MsgId → TnIpcMsg := fun _ => { cmd := .unknown }
  bases : BaseId → TnSocketBase := fun _ => {}
  taskAlive : TaskId → Bool := fun _ => true
  tcpPcbs : PcbId → Option TcpPcb := fun _ => none
  udpPcbs : PcbId → Option DgramPcb := fun _ => none
  rawPcbs : PcbId → Option DgramPcb := fun _ => none
  env : List Answer := []
  trace : List Event := []
  output : List Output := []
  calls : CallNo := 0
  callOf : MsgId → CallNo := fun _ => 0

/-- The state `tn_slot_table_init` leaves behind. -/
def tnSlotTableInit : World := { sockets := fun _ => {} }

end Tolunnet
