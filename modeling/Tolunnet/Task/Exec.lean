import Tolunnet.Task.Context

/-!
# `Tolunnet.Task.Exec`: the statements the handlers are made of

Small state updates: assignments to one slot, base or message, `ReplyMsg`, `Signal`, stores
into client memory, and one answer taken from the environment. Every handler of the daemon
is a composition of these and of the lwIP calls of `Tolunnet.Task.Lwip`.
-/

set_option autoImplicit false

namespace Tolunnet

namespace World

/-- Assigns to fields of slot `i`. -/
def modSlot (w : World) (i : SlotIdx) (f : TnSocketSlot → TnSocketSlot) : World :=
  { w with sockets := Function.update w.sockets i (f (w.sockets i)) }

/-- Assigns to fields of base `b`. -/
def modBase (w : World) (b : BaseId) (f : TnSocketBase → TnSocketBase) : World :=
  { w with bases := Function.update w.bases b (f (w.bases b)) }

/-- Assigns to fields of message `m`. -/
def modMsg (w : World) (m : MsgId) (f : TnIpcMsg → TnIpcMsg) : World :=
  { w with msgs := Function.update w.msgs m (f (w.msgs m)) }

/-- `imsg->result = r; imsg->err_no = e;` -/
def setReply (w : World) (m : MsgId) (r : Int) (e : Errno) : World :=
  w.modMsg m fun x => { x with result := r, errNo := e }

/-- Records an event. -/
def emit (w : World) (e : Event) : World := { w with trace := e :: w.trace }

/-- Records a write into a client. -/
def out (w : World) (o : Output) : World := { w with output := o :: w.output }

/-- `Signal(t, mask)`. -/
def signal (w : World) (t : TaskId) (mask : Nat) : World := w.out (.signal t mask)

/-- `ReplyMsg(m)`: the client sees the result and error stored in the message. -/
def replyMsg (w : World) (m : MsgId) : World :=
  w.emit (.reply (w.callOf m) (w.msgs m).result (w.msgs m).errNo)

/-- Stores a result and replies at once. -/
def answerMsg (w : World) (m : MsgId) (r : Int) (e : Errno) : World :=
  (w.setReply m r e).replyMsg m

/-- The next answer of the environment. -/
def ask (w : World) : Answer := w.env.headD {}

/-- The world after that answer. -/
def asked (w : World) : World := { w with env := w.env.tail }

/-- Sets or clears one pending field of slot `i`. -/
def setPending (w : World) (i : SlotIdx) (k : Pend) (v : Option MsgId) : World :=
  w.modSlot i fun s => { s with pending := Function.update s.pending k v }

/-- Writes one entry of a client's descriptor table. -/
def setFd (w : World) (b : BaseId) (fd : Nat) (v : Option SlotIdx) : World :=
  w.modBase b fun base => { base with fdMap := Function.update base.fdMap fd v }

/-- Stores into client memory behind pointer argument `k` of message `m`. -/
def store (w : World) (m : MsgId) (k off : Nat) (bytes : List UInt8) : World :=
  w.out (.store m k off bytes)

end World

/-- A handler's last two assignments before it returns `TN_IPC_REPLY_NOW`. -/
def done (w : World) (m : MsgId) (r : Int) (e : Errno) : World × TnIpcReplyAction :=
  (w.setReply m r e, .replyNow)

/-- A handler's failing exit. -/
def fail (w : World) (m : MsgId) (e : Errno) : World × TnIpcReplyAction := done w m (-1) e

/-! ## Client memory layouts -/

/-- `sizeof(struct sockaddr_in)`. -/
def sizeofSockaddrIn : Nat := 16

/-- The address a `sockaddr_in` names: family, port and IPv4 address. -/
structure SockIn where
  family : Nat
  port : Nat
  addr : Nat
  deriving DecidableEq, Repr

/-- `tn_sockin_load_bytes`: `sin_len`, `sin_family`, `sin_port`, `sin_addr`. -/
def tnSockinLoadBytes (f : Mem) : SockIn :=
  { family := (f 1).toNat, port := be16 f 2, addr := be32 f 4 }

/-- `tn_sockin_store_bytes`. -/
def tnSockinStoreBytes (a : SockIn) : List UInt8 :=
  [16, UInt8.ofNat a.family, UInt8.ofNat (a.port / 256), UInt8.ofNat a.port]
    ++ bytes32 a.addr ++ List.replicate 8 0

/-- `AF_INET`. -/
def afInet : Nat := 2

/-- The bit test `flags & (1 << b)` on a LONG. -/
def hasFlag (flags : Int) (b : Nat) : Bool := (flags / 2 ^ b) % 2 == 1

/-- `MSG_OOB`, `MSG_PEEK` and `MSG_DONTWAIT` as bit numbers. -/
def msgOob : Nat := 0
def msgPeek : Nat := 1
def msgDontwait : Nat := 7

/-- The bytes of `[off, off + n)`. -/
def memBytes (f : Mem) (off n : Nat) : List UInt8 := (List.range n).map fun k => f (off + k)

/-- `tn_store_client_sockaddr`: the peer address goes to pointer `ka`, truncated to the
length behind pointer `kl`, which is then set to the full size. -/
def tnStoreClientSockaddr (w : World) (m : MsgId) (ka kl : Nat) (port addr : Nat) : World :=
  match (w.msgs m).ptrs ka, (w.msgs m).ptrs kl with
  | .mem _, .mem l =>
    let cap := toLong (be32 l 0)
    let cap := if cap < 0 then 0 else min cap.toNat sizeofSockaddrIn
    let sa := tnSockinStoreBytes { family := afInet, port := port, addr := addr }
    (w.store m ka 0 (sa.take cap)).store m kl 0 (bytes32 sizeofSockaddrIn)
  | _, _ => w

end Tolunnet
