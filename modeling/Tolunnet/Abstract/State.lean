import Mathlib.Data.Set.Insert
import Mathlib.Tactic.Simps.Basic
import Tolunnet.Task.Daemon

/-!
# `Tolunnet.Abstract.State`: what the invariants see of the daemon

The abstract daemon keeps the part of a `World` that the results of this development are
about: for each slot the connection, the queues, the references and the parked requests; for
each pcb its kind, its state and its callbacks; the descriptor tables, the selector table, the
places that hold messages, and the log of replies, wakeups and writes. Option blocks, owners,
deadlines, counters and client memory are left out.

A handler is many statements long, and in the middle of it some of the daemon's property is in
no table: the message it works on, the reference of a slot that has no descriptor yet, a
connection that no slot has taken. `Tok` is the list of what is in hand. Between two steps of
the main loop every list in it is empty.

`abs t w` is the abstract daemon of world `w` with `t` in hand.
-/

set_option autoImplicit false

namespace Tolunnet

/-- The three questions `select` asks about a slot. -/
inductive Ready where
  | read | write | except
  deriving DecidableEq, Repr

/-! ## Views -/

/-- What is kept of a slot. `err` says that an error is stored in it, `adrift` that it is free
and still names an owner. -/
structure SlotView where
  inUse : Bool := false
  type : Int := 0
  st : TnTcpState := .closed
  nonblock : Bool := false
  shutWr : Bool := false
  shutRd : Bool := false
  err : Bool := false
  rx : List TnRxPacket := []
  refs : Nat := 0
  udp : Option PcbId := none
  tcp : Option PcbId := none
  raw : Option PcbId := none
  q : List TnAcceptEntry := []
  pending : Pend → Option MsgId := fun _ => none
  sendDone : Nat := 0
  sendIov : Option (List Iovec) := none
  parked : Bool := false
  hist : RxHist := {}
  adrift : Bool := false

/-- The view of a slot. -/
def TnSocketSlot.view (s : TnSocketSlot) : SlotView :=
  { inUse := s.inUse, type := s.type, st := s.tcpState, nonblock := s.isNonblocking,
    shutWr := s.shutWr, shutRd := s.shutRd, err := s.lastError != .ok, rx := s.rx,
    refs := s.refCount, udp := s.udpPcb, tcp := s.tcpPcb, raw := s.rawPcb, q := s.acceptQ,
    pending := s.pending, sendDone := s.sendDone, sendIov := s.sendIov, parked := s.isParked,
    hist := s.hist, adrift := !s.inUse && s.ownerBase.isSome }

/-- What is kept of a TCP pcb: its kind, its state, its callbacks and its send space. -/
structure PcbView where
  listen : Bool := false
  state : TcpState := .closed
  arg : CbArg := .null
  recv : RecvFn := .null
  err : ErrFn := .null
  sent : Bool := false
  poll : Bool := false
  connected : Bool := false
  accept : Bool := false
  sndBuf : Nat := tcpSndBuf
  sndQueuelen : Nat := 0
  deriving DecidableEq, Repr

/-- The view of a TCP pcb. -/
def TcpPcb.view (c : TcpPcb) : PcbView :=
  { listen := c.listen, state := c.state, arg := c.arg, recv := c.recv, err := c.err,
    sent := c.sent, poll := c.poll, connected := c.connected, accept := c.accept,
    sndBuf := c.sndBuf, sndQueuelen := c.sndQueuelen }

/-- What is kept of a message: its base and the data a parked send goes back to. -/
structure MsgView where
  base : Option BaseId := none
  buf : Mem := fun _ => 0
  len : Nat := 0

/-- The view of a message. -/
def TnIpcMsg.view (x : TnIpcMsg) : MsgView :=
  { base := x.socketBase, buf := bufOf x, len := (x.args 1).toNat }

/-- The selector table with its counter. -/
structure SelTab where
  sel : List TnSelector := []
  count : Nat := 0
  armed : Bool := false

/-- Whether an event stays in the log. -/
def Event.loud : Event → Bool
  | .replyNull | .pbufFree _ => false
  | _ => true

/-! ## What is in hand -/

/-- A stream send that has started and has neither been parked nor answered. `writing` is set
once the request has passed the checks at the entry, `res` is the result of the last write. -/
structure Sending where
  m : MsgId
  i : SlotIdx
  buf : Mem
  iov : Option (List Iovec)
  len : Nat
  done : Nat := 0
  writing : Bool := false
  res : ErrT := .ok

/-- The data of a send in hand. -/
def Sending.payload (s : Sending) : List UInt8 := sendPayload s.buf s.iov s.len

/-- What is in no table in the middle of a step: messages, references to slots, the slot that
is being freed, a connection and an accept entry without a holder, the send being worked on,
the base being closed and the slot whose connection has just been made. `owes` are the wakeups and `serve` the parked requests that a
change has made due. -/
structure Tok where
  hand : List MsgId := []
  refs : List SlotIdx := []
  dying : List SlotIdx := []
  conn : Option PcbId := none
  ent : Option TnAcceptEntry := none
  sending : Option Sending := none
  closing : Option BaseId := none
  joined : Option SlotIdx := none
  owes : Set (SlotIdx × Ready) := ∅
  serve : Set (SlotIdx × Pend) := ∅

/-! ## The abstract daemon -/

/-- The abstract state. -/
structure Abs where
  slot : SlotIdx → SlotView
  pcb : PcbId → Option PcbView
  udp : PcbId → Option SlotIdx
  raw : PcbId → Option SlotIdx
  fd : BaseId → Nat → Option SlotIdx
  dtab : BaseId → Nat
  openB : Fin 16 → Option BaseId
  tab : SelTab
  dns : Fin 8 → Option (Option MsgId × Option BaseId)
  stop : Option MsgId
  msg : MsgId → MsgView
  callOf : MsgId → CallNo
  calls : CallNo
  log : List Event
  tok : Tok

/-- The message and the base of a DNS record in use. -/
def TnDnsPending.view (r : TnDnsPending) : Option (Option MsgId × Option BaseId) :=
  if r.inUse then some (r.imsg, r.base) else none

/-- The abstract daemon of a world with `t` in hand. -/
def abs (t : Tok) (w : World) : Abs :=
  { slot := fun i => (w.sockets i).view
    pcb := fun p => (w.tcpPcbs p).map TcpPcb.view
    udp := fun p => (w.udpPcbs p).map DgramPcb.arg
    raw := fun p => (w.rawPcbs p).map DgramPcb.arg
    fd := fun b => (w.bases b).fdMap
    dtab := fun b => (w.bases b).dtablesize
    openB := w.openBases
    tab := { sel := w.selectors, count := w.selectorCount, armed := w.armedSinceResync }
    dns := fun k => (w.dnsPending k).view
    stop := w.stopMsg
    msg := fun m => (w.msgs m).view
    callOf := w.callOf
    calls := w.calls
    log := w.trace.filter Event.loud
    tok := t }

namespace Abs

/-- The message a place holds. -/
def held (a : Abs) : Place → Option MsgId
  | .slot i k => (a.slot i).pending k
  | .dns k => (a.dns k).bind Prod.fst
  | .stop => a.stop

/-- Replaces slot `i`. -/
@[simps]
def slotSet (a : Abs) (i : SlotIdx) (s : SlotView) : Abs :=
  { a with slot := Function.update a.slot i s }

/-- Replaces pcb `p`. -/
@[simps]
def pcbSet (a : Abs) (p : PcbId) (c : Option PcbView) : Abs :=
  { a with pcb := Function.update a.pcb p c }

/-- Writes one descriptor. -/
@[simps]
def fdSet (a : Abs) (b : BaseId) (n : Nat) (v : Option SlotIdx) : Abs :=
  { a with fd := Function.update a.fd b (Function.update (a.fd b) n v) }

/-- Adds to the log. -/
@[simps]
def say (a : Abs) (e : Event) : Abs := { a with log := e :: a.log }

/-- Changes what is in hand. -/
@[simps]
def setTok (a : Abs) (t : Tok) : Abs := { a with tok := t }

end Abs

/-! ## Readiness -/

/-- `tn_select_can_read` on views. -/
def SlotView.canRead (s : SlotView) : Bool :=
  s.inUse && (!s.rx.isEmpty || s.st == .peerClosed || s.st == .error ||
    (s.st == .listening && !s.q.isEmpty))

/-- Whether a pcb takes more data. -/
def PcbView.space (c : PcbView) : Bool :=
  decide (0 < c.sndBuf) && decide (c.sndQueuelen < tcpSndQueuelen)

/-- `tn_select_can_write` on views. -/
def SlotView.canWrite (pcb : PcbId → Option PcbView) (s : SlotView) : Bool :=
  s.inUse && (s.st == .error || s.type == sockDgram || s.type == sockRaw ||
    ((s.st == .established || s.st == .peerClosed) &&
      (s.shutWr ||
        match s.tcp with
        | none => false
        | some p => (s.pending .send).isNone && (pcb p).any PcbView.space)))

/-- `tn_select_has_except` on views. -/
def SlotView.hasExcept (s : SlotView) : Bool := s.inUse && (s.st == .error || s.err)

/-- The answer to one of the three questions. -/
def Abs.ready (a : Abs) (i : SlotIdx) : Ready → Bool
  | .read => (a.slot i).canRead
  | .write => (a.slot i).canWrite a.pcb
  | .except => (a.slot i).hasExcept

/-- The answer to one of the three questions, in the daemon's own terms. -/
def ready (w : World) (i : SlotIdx) : Ready → Bool
  | .read => tnSelectCanRead (w.sockets i)
  | .write => tnSelectCanWrite w (w.sockets i)
  | .except => tnSelectHasExcept (w.sockets i)

/-- The abstract daemon answers as the daemon does. -/
theorem abs_ready (t : Tok) (w : World) (i : SlotIdx) (r : Ready) :
    (abs t w).ready i r = ready w i r := by
  cases r with
  | read => rfl
  | except => rfl
  | write =>
    simp only [Abs.ready, ready, SlotView.canWrite, tnSelectCanWrite, abs, TnSocketSlot.view]
    cases h : (w.sockets i).tcpPcb with
    | none => simp
    | some p =>
      cases hp : w.tcpPcbs p with
      | none => simp [sndSpace, hp]
      | some c => simp [sndSpace, hp, PcbView.space, TcpPcb.view]

/-! ## The kinds of slots and pcbs -/

/-- A slot with nothing in it but its reference: just allocated. -/
structure SlotView.Blank (s : SlotView) : Prop where
  inUse : s.inUse = true
  st : s.st = .closed
  tcp : s.tcp = none
  rx : s.rx = []
  q : s.q = []
  pending : ∀ k, s.pending k = none
  hist : s.hist = {}
  type : s.type = sockStream

/-- A pcb the daemon has let go of: lwIP calls nothing on it and frees it in its own time. -/
structure PcbView.Orphan (c : PcbView) : Prop where
  listen : c.listen = false
  arg : c.arg = .null
  recv : c.recv = .null
  err : c.err = .null
  sent : c.sent = false
  poll : c.poll = false
  state : c.state.synced = true

/-- A pcb that lwIP has just made for a listener. -/
structure PcbView.Fresh (c : PcbView) : Prop where
  listen : c.listen = false
  recv : c.recv = .null
  err : c.err = .null
  sent : c.sent = false
  poll : c.poll = false
  state : c.state.synced = true

/-- A parked read has a reason to wait: on a stream the queue is empty, the connection can
still deliver and the reading side is open. -/
def SlotView.RecvWaits (s : SlotView) : Prop :=
  s.type = sockStream →
    s.rx = [] ∧ (s.st = .connecting ∨ s.st = .established) ∧ s.shutRd = false

/-- A parked connect has a reason to wait. -/
def SlotView.ConnectWaits (s : SlotView) : Prop := s.st = .connecting ∧ s.tcp.isSome

/-- Whether a request parked in field `k` has a reason to wait. -/
def SlotView.Waits (s : SlotView) : Pend → Prop
  | .recv => s.RecvWaits
  | .connect => s.ConnectWaits
  | .accept => s.st = .listening
  | .send => True

end Tolunnet
