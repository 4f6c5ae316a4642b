import Tolunnet.Common.Bytes

/-!
# `Tolunnet.Cmds.Tftp`: the `tftp` command

One `turn` is what the command does between two points where it looks at Ctrl-C or waits for a packet. A
`Turn` is what it meets there: Ctrl-C, the packet that arrives in time, what DOS answers, and the clock.

The clock counts 1/50 s. `DateStamp` gives the ticks since midnight, so `tftpElapsed` is right up to whole
days.

Both ways begin with the request, which is sent until a reply comes. The sender of that reply is the
transfer ID, and packets of others are dropped from then on.
-/

set_option autoImplicit false

namespace Tolunnet

/-- The return codes of the commands. -/
inductive ReturnCode where
  | ok
  | warn
  | fail
  deriving Repr, DecidableEq

namespace Tftp

def blk : Nat := 512
def retries : Nat := 5
def timeoutTicks : Int := 150
def strayMax : Nat := 64

def opRrq : UInt8 := 1
def opWrq : UInt8 := 2
def opData : UInt8 := 3
def opAck : UInt8 := 4
def opError : UInt8 := 5

structure SockaddrIn where
  addr : Nat
  port : Nat
  deriving Repr, DecidableEq

/-- What `sendto` was given, and when. -/
structure Sent where
  pkt : List UInt8
  dst : SockaddrIn
  at_ : Nat
  deriving Repr, DecidableEq

/-! ## Packets -/

def pktBlock (pkt : List UInt8) : Nat := (pkt.getD 2 0).toNat * 256 + (pkt.getD 3 0).toNat

/-- A packet of at least four bytes with this opcode. -/
def isOp (op : UInt8) (pkt : List UInt8) : Bool := decide (4 ≤ pkt.length) && pkt.getD 1 0 == op

/-- An RRQ or a WRQ. -/
def request (op : UInt8) (remote : List UInt8) : List UInt8 := 0 :: op :: remote ++ 0 :: ascii "octet" ++ [0]

def dataPkt (block : Nat) (data : List UInt8) : List UInt8 := 0 :: opData :: bytes16 block ++ data

def ackPkt (block : Nat) : List UInt8 := 0 :: opAck :: bytes16 block

/-! ## The clock -/

def day : Nat := 24 * 60 * 3000

/-- `tftp_ticks` at a time. -/
def tftpTicks (now : Nat) : Int := (now % day : Nat)

/-- `tftp_elapsed` at a time. -/
def tftpElapsed (since : Int) (now : Nat) : Int :=
  let el := tftpTicks now - since
  if el < 0 then el + day else el

/-! ## The command -/

/-- What one turn meets. -/
structure Turn where
  /-- Ctrl-C at the head of the loop. -/
  ctrlc : Bool := false
  /-- The packet that `recvfrom` gives, if `WaitSelect` does not time out. -/
  recv : Option (List UInt8 × SockaddrIn) := none
  /-- Ctrl-C behind the packet. -/
  ctrlcRecv : Bool := false
  /-- `Open` succeeds. -/
  opened : Bool := true
  /-- `Read` succeeds, and gives a whole block while there is one. -/
  readOk : Bool := true
  /-- What `Write` returns. -/
  wrote : Int := 0
  /-- The clock at `sendto`, and at the calls of `tftp_ticks` behind it, in front of the wait and behind
  the wait. -/
  start : Nat
  sent : Nat
  before : Nat
  after : Nat
  deriving Repr

/-- The return values of `tftp_wait_packet`: -1, 0, and a packet with its sender. -/
inductive Waited where
  | ctrlc
  | nothing
  | packet (rx : List UInt8) (sender : SockaddrIn)
  deriving Repr, DecidableEq

/-- `tftp_wait_packet`. A longer packet is cut to the size of `rx`. -/
def tftpWaitPacket (tid srv : Option SockaddrIn) (t : Turn) : Waited :=
  match t.recv with
  | none => .nothing
  | some (pkt, sender) =>
    if pkt = [] then .nothing
    else if tid.any (· ≠ sender) then .nothing
    else if tid.isNone ∧ srv.any (·.addr ≠ sender.addr) then .nothing
    else if t.ctrlcRecv then .ctrlc
    else .packet (pkt.take (blk + 16)) sender

/-- Where the command is. -/
inductive Client where
  /-- `Open` of the file to be sent. -/
  | opening (file : List UInt8)
  /-- The loop that sends the request, and its wait. A file is open for PUT. -/
  | request (file : Option (List UInt8)) (tries : Nat)
  | reply (file : Option (List UInt8)) (tries : Nat)
  /-- GET: the outer loop with a DATA packet in `rx`, and the inner loop. -/
  | data (tid : SockaddrIn) (lastAcked : Nat) (written : List (List UInt8)) (rx : List UInt8)
  | wait (tid : SockaddrIn) (lastAcked : Nat) (written : List (List UInt8)) (tries : Nat)
  /-- PUT: the outer loop with the rest of the file to be read, the inner loop, and its wait. -/
  | read (tid : SockaddrIn) (block : Nat) (rest : List UInt8)
  | put (tid : SockaddrIn) (block : Nat) (data rest : List UInt8) (tries stray : Nat) (resend : Bool)
    (sentAt : Int)
  | putWait (tid : SockaddrIn) (block : Nat) (data rest : List UInt8) (tries stray : Nat) (sentAt : Int)
  /-- The end of GET, with what was written, and of PUT, with the transfer ID. -/
  | got (rc : ReturnCode) (written : List (List UInt8))
  | sent (rc : ReturnCode) (tid : Option SockaddrIn)
  deriving Repr, DecidableEq

/-- The command ends before there is a transfer. -/
def stop (rc : ReturnCode) : Option (List UInt8) → Client
  | none => .got rc []
  | some _ => .sent rc none

/-- What the command was called for. -/
structure Job where
  peer : SockaddrIn
  remote : List UInt8
  deriving Repr

/-- The head of the loop that sends the request. -/
def requestTurn (job : Job) (file : Option (List UInt8)) (tries : Nat) (t : Turn) : Client × List Sent :=
  if t.ctrlc then (stop .warn file, [])
  else
    let op := if file.isNone then opRrq else opWrq
    (.reply file tries, [⟨request op job.remote, job.peer, t.start⟩])

/-- The first reply. An ERROR packet and an unexpected one end the command alike. -/
def replyTurn (job : Job) (file : Option (List UInt8)) (tries : Nat) (t : Turn) : Client :=
  match tftpWaitPacket none (some job.peer) t with
  | .ctrlc => stop .warn file
  | .nothing => if tries + 1 < retries then .request file (tries + 1) else stop .fail file
  | .packet rx sender =>
    match file with
    | none => if isOp opData rx ∧ t.opened then .data sender 0 [] rx else stop .fail file
    | some rest => if isOp opAck rx then .read sender 0 rest else stop .fail file

/-- The outer loop of GET. -/
def dataTurn (tid : SockaddrIn) (lastAcked : Nat) (written : List (List UInt8)) (rx : List UInt8)
    (t : Turn) : Client × List Sent :=
  let block := pktBlock rx
  let payload := rx.drop 4
  if t.ctrlc then (.got .warn written, [])
  else if block = (lastAcked + 1) % 2 ^ 16 then
    if payload ≠ [] ∧ t.wrote ≠ payload.length then
      (.got .fail (written ++ [payload.take t.wrote.toNat]), [])
    else
      let written := if payload = [] then written else written ++ [payload]
      (if payload.length < blk then .got .ok written else .wait tid block written 0,
        [⟨ackPkt block, tid, t.start⟩])
  else if block = lastAcked then
    -- duplicate DATA: it is acknowledged again
    (.wait tid lastAcked written 0, [⟨ackPkt block, tid, t.start⟩])
  else (.wait tid lastAcked written 0, [])

/-- The inner loop of GET. -/
def waitTurn (tid : SockaddrIn) (lastAcked : Nat) (written : List (List UInt8)) (tries : Nat)
    (t : Turn) : Client × List Sent :=
  if t.ctrlc then (.got .warn written, [])
  else
    match tftpWaitPacket (some tid) none t with
    | .ctrlc => (.got .warn written, [])
    | .nothing =>
      if tries + 1 > retries then (.got .fail written, [])
      else (.wait tid lastAcked written (tries + 1), [⟨ackPkt lastAcked, tid, t.start⟩])
    | .packet rx _ =>
      if isOp opError rx then (.got .fail written, [])
      else if isOp opData rx then (.data tid lastAcked written rx, [])
      else (.wait tid lastAcked written tries, [])

/-- The outer loop of PUT. `sent_at` is set before it is used. -/
def readTurn (tid : SockaddrIn) (block : Nat) (rest : List UInt8) (t : Turn) : Client :=
  if t.readOk then .put tid ((block + 1) % 2 ^ 16) (rest.take blk) (rest.drop blk) 0 0 true 0
  else .sent .fail (some tid)

/-- The head of the inner loop of PUT. -/
def putTurn (tid : SockaddrIn) (block : Nat) (data rest : List UInt8) (tries stray : Nat)
    (resend : Bool) (sentAt : Int) (t : Turn) : Client × List Sent :=
  if t.ctrlc then (.sent .warn (some tid), [])
  else if resend then
    (.putWait tid block data rest tries stray (tftpTicks t.sent), [⟨dataPkt block data, tid, t.start⟩])
  else (.putWait tid block data rest tries stray sentAt, [])

/-- The deadline of a block has passed. -/
def expired (tid : SockaddrIn) (block : Nat) (data rest : List UInt8) (tries stray : Nat)
    (sentAt : Int) : Client :=
  if tries + 1 > retries then .sent .fail (some tid)
  else .put tid block data rest (tries + 1) stray true sentAt

/-- A packet that is not the ACK awaited, or none. -/
def notAcked (tid : SockaddrIn) (block : Nat) (data rest : List UInt8) (tries stray : Nat)
    (sentAt : Int) (t : Turn) : Client :=
  if tftpElapsed sentAt t.after < timeoutTicks then
    if stray + 1 > strayMax then .sent .fail (some tid)
    else .put tid block data rest tries (stray + 1) false sentAt
  else expired tid block data rest tries stray sentAt

/-- The rest of the inner loop of PUT. -/
def putWaitTurn (tid : SockaddrIn) (block : Nat) (data rest : List UInt8) (tries stray : Nat)
    (sentAt : Int) (t : Turn) : Client :=
  if tftpElapsed sentAt t.before < timeoutTicks then
    match tftpWaitPacket (some tid) none t with
    | .ctrlc => .sent .warn (some tid)
    | .nothing => notAcked tid block data rest tries stray sentAt t
    | .packet rx _ =>
      if isOp opError rx then .sent .fail (some tid)
      else if isOp opAck rx ∧ pktBlock rx = block then
        -- only a short block is the last one
        if data.length = blk then .read tid block rest else .sent .ok (some tid)
      else notAcked tid block data rest tries stray sentAt t
  else expired tid block data rest tries stray sentAt

/-- One turn, and what is sent in it. -/
def turn (job : Job) (t : Turn) : Client → Client × List Sent
  | .opening file => (if t.opened then .request (some file) 0 else .sent .fail none, [])
  | .request file tries => requestTurn job file tries t
  | .reply file tries => (replyTurn job file tries t, [])
  | .data tid lastAcked written rx => dataTurn tid lastAcked written rx t
  | .wait tid lastAcked written tries => waitTurn tid lastAcked written tries t
  | .read tid block rest => (readTurn tid block rest t, [])
  | .put tid block data rest tries stray resend sentAt =>
    putTurn tid block data rest tries stray resend sentAt t
  | .putWait tid block data rest tries stray sentAt =>
    (putWaitTurn tid block data rest tries stray sentAt t, [])
  | .got rc written => (.got rc written, [])
  | .sent rc tid => (.sent rc tid, [])

end Tftp

end Tolunnet
