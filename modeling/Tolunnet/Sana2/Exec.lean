import Mathlib.Algebra.Order.Ring.Int
import Tolunnet.Lib.Requests

/-!
# `Tolunnet.Sana2.Exec`: the interface, its requests and the driver

`TnSana2If` of `sana2_netif.h` with what it works on: the SANA-II requests with their fields, the
three message ports, and the calls of exec that send a request and take it back.

The driver runs at any moment. What it will do is given in advance (`moves`): before each call of
exec it makes the next few of its moves, each of which replies one request. A request that the driver
still has when the interface waits for it is replied then (`waits`). What lwIP sends from a callback,
which allocations fail and what becomes of a received packet is given in the same way.

`fault` is set by a write to an outstanding request or its buffer, by sending such a request once
more, and by freeing one of them. `taken` is the record of the event completions.
-/

set_option autoImplicit false

namespace Tolunnet

namespace Sana2

open Requests

/-! ## Requests -/

/-- The requests of an interface. -/
inductive Req where
  | io | tx (slot : Nat) | read (slot : Nat) | event
  deriving DecidableEq, Repr

/-- The message ports. -/
inductive Port where
  | tx | rx | event
  deriving DecidableEq, Repr

/-- `mn_ReplyPort`. -/
def Req.port : Req → Port
  | io => .tx
  | tx _ => .tx
  | read _ => .rx
  | event => .event

/-- The commands of the requests. -/
inductive Command where
  | none | read | write | broadcast | onevent | untracktype | offline
  deriving DecidableEq, Repr

/-- What `ios2_Data` points to. -/
inductive Buf where
  | none | caller | tx (slot : Nat) | read (slot : Nat)
  deriving DecidableEq, Repr

/-- `TN_ETHERTYPE_IPV4` and `TN_ETHERTYPE_ARP`. -/
def ethertypeIpv4 : Nat := 0x0800
def ethertypeArp : Nat := 0x0806

/-- `struct IOSana2Req`, as far as it is used. The wire error holds the mask of an event request, and
its bits when it completes. -/
structure IOSana2Req where
  ioCommand : Command := .none
  ioError : Int := 0
  wireError : Nat := 0
  packetType : Nat := 0
  dataLength : Nat := 0
  data : Buf := .none
  srcAddr : List UInt8 := []
  dstAddr : List UInt8 := []

/-- What the driver writes into a request that it replies. -/
structure Reply where
  ioError : Int
  wireError : Nat
  packetType : Nat
  dataLength : Nat
  srcAddr : List UInt8
  dstAddr : List UInt8

/-- The reply of a request that is aborted. -/
def Reply.aborted : Reply :=
  { ioError := -2, wireError := 0, packetType := 0, dataLength := 0, srcAddr := [], dstAddr := [] }

/-- A request with its reply. -/
def IOSana2Req.answered (r : IOSana2Req) (a : Reply) : IOSana2Req :=
  { r with
    ioError := a.ioError
    wireError := a.wireError
    packetType := a.packetType
    dataLength := a.dataLength
    srcAddr := a.srcAddr
    dstAddr := a.dstAddr }

/-- A frame for `tn_s2_send`. -/
structure Frame where
  len : Nat
  broadcast : Bool
  packetType : Nat
  dstAddr : Option (List UInt8)

/-- What `pbuf_alloc` gives for a received packet: nothing, a chain, a buffer whose padding cannot be
taken off, or one buffer. -/
inductive Pbuf where
  | none | chained | stuck | single
  deriving DecidableEq, Repr

/-! ## The interface -/

/-- `TnS2Result`. -/
inductive TnS2Result where
  | ok | noMem | internal
  deriving DecidableEq, Repr

/-- `TnSana2If`. A pointer is whether it is set. -/
structure TnSana2If where
  io : Bool
  online : Bool
  mtu : Nat
  txPort : Bool
  rxPort : Bool
  eventPort : Bool
  txPending : Bool
  txIos : Bool
  txIo : Nat → Bool
  txBufs : Nat → Bool
  txBusy : Nat → Bool
  nTxIos : Nat
  readIos : Bool
  readIo : Nat → Bool
  readBufs : Nat → Bool
  readArmed : Nat → Bool
  nReadIos : Nat
  eventIo : Bool
  eventMask : Nat
  eventArmed : Bool
  eventSupported : Bool
  eventStrikes : Nat
  linkDown : Bool

/-- An event completion as the poll meets it: the link and the strikes, the events that this call has
handled before, and what the driver has answered. -/
structure Completion where
  linkDown : Bool
  eventStrikes : Nat
  handled : Nat
  ioError : Int
  bits : Nat

/-- The interface, the link flag of its netif, the requests, and what is still to come. -/
structure Machine where
  nif : TnSana2If
  linkUp : Bool
  io : Io Req Port
  req : Req → IOSana2Req
  fault : Bool := false
  taken : List Completion := []
  moves : List (List (Req × Reply))
  waits : List Reply
  allocs : List Bool
  frames : List (List Frame)
  pbufs : List Pbuf

namespace Machine

/-! ## The driver -/

/-- The driver replies a request, when it has it. -/
def driver (m : Machine) (a : Req × Reply) : Machine :=
  if m.io.place a.1 = .device then
    { m with
      io := m.io.reply Req.port a.1
      req := Function.update m.req a.1 ((m.req a.1).answered a.2) }
  else m

/-- The driver's moves up to the next call of exec. -/
def tick (m : Machine) : Machine :=
  match m.moves with
  | [] => m
  | now :: moves => now.foldl driver { m with moves }

/-! ## Requests and memory -/

/-- A write to a request or its buffer, or an end of one of them. -/
def touch (m : Machine) (r : Req) : Machine :=
  { m with fault := m.fault || decide (m.io.Outstanding r) }

/-- A write to the fields of a request. -/
def write (m : Machine) (r : Req) (f : IOSana2Req → IOSana2Req) : Machine :=
  { m.touch r with req := Function.update m.req r (f (m.req r)) }

/-- `AllocVec`: whether there is memory. -/
def alloc (m : Machine) : Bool × Machine :=
  match m.allocs with
  | [] => (true, m)
  | a :: allocs => (a, { m with allocs })

/-- A write to the interface. -/
def put (m : Machine) (f : TnSana2If → TnSana2If) : Machine := { m with nif := f m.nif }

/-! ## Calls of exec -/

/-- `SendIO`. -/
def sendIo (m : Machine) (r : Req) : Machine :=
  let m := m.tick
  { m with io := m.io.send r, fault := m.fault || decide (m.io.Outstanding r) }

/-- `GetMsg`. -/
def getMsg (m : Machine) (p : Port) : Option Req × Machine :=
  let m := m.tick
  match (m.io.queue p).head? with
  | none => (none, m)
  | some r => (some r, { m with io := m.io.take Req.port r })

/-- `WaitPort`, which may also wake without a message: its callers look once more. -/
def waitPort (m : Machine) : Machine := m.tick

/-- `CheckIO`: whether a request is done. -/
def checkIo (m : Machine) (r : Req) : Bool × Machine :=
  let m := m.tick
  (m.io.place r != .device, m)

/-- `AbortIO`. What it changes is when the driver replies. -/
def abortIo (m : Machine) (_ : Req) : Machine := m.tick

/-- `WaitIO`: a request that the driver still has is replied now. -/
def waitIo (m : Machine) (r : Req) : Machine :=
  let m := m.tick
  let m := { m with waits := m.waits.tail }.driver (r, m.waits.headD .aborted)
  { m with io := m.io.take Req.port r }

/-- `DoIO`. -/
def doIo (m : Machine) (r : Req) : Machine := (m.sendIo r).waitIo r

/-- How many messages can come to a port, at most: a loop that takes them has no more turns. -/
def turns (m : Machine) (p : Port) : Nat :=
  (m.io.queue p).length + (m.moves.map List.length).sum + 1

end Machine

end Sana2

end Tolunnet
