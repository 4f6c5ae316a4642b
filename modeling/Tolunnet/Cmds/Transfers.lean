import Mathlib.Data.List.Pairwise
import Mathlib.Logic.Function.Basic
import Tolunnet.Cmds.Tftp
import Tolunnet.Lib.Blocks

/-!
# `Tolunnet.Cmds.Transfers`: `tftp` against a server

A server answers each request that reaches it with a session of its own port: it sends the file block by
block, a block further than what was acknowledged at most, or takes the next block and acknowledges what
it has. It may stop with an ERROR packet at any time.

The network keeps all that was ever sent. A packet can arrive late, any number of times, or not at all,
and it does not matter what was sent behind it. Packets from other addresses can arrive at any time, and
from other ports once the command has its transfer ID (`Sys.Deliverable`).

`exact_of_run`: whatever happens, a GET that ends well has the file, a PUT that ends well has a session
with the file, and a block goes out again no earlier than its deadline (`Paced`).

What holds on the way is `Sound`. All packets of the server are `Genuine`: a block carries its own data,
and an ACK is for what its session has. The counters then follow: the command never awaits a block that
an earlier packet could pass for, since a file of fewer than 65535 blocks does not use a number twice.
-/

set_option autoImplicit false

namespace Tolunnet

namespace Tftp

open Blocks

/-! ## The server and the network -/

/-- A session of the server: how many blocks were acknowledged, or which were received. -/
inductive Session where
  | sending (acked : Nat)
  | receiving (received : List (List UInt8))

structure Sys where
  client : Client
  up : List Sent := []
  /-- The packets of the sessions with their ports. -/
  down : List (List UInt8 × Nat) := []
  sessions : Nat → Option Session := fun _ => none
  now : Nat := 0

/-- What the command is called for, and the file: the server's for GET, the local one for PUT. -/
structure World extends Job where
  isGet : Bool
  file : List UInt8

/-- The file's blocks. -/
def World.count (w : World) : Nat := blockCount blk w.file

def World.block (w : World) (i : Nat) : List UInt8 := Blocks.block blk w.file i

def World.start (w : World) : Sys := { client := if w.isGet then .request none 0 else .opening w.file }

/-- The transfer ID, once it is locked. -/
def Client.tid : Client → Option SockaddrIn
  | .data tid .. | .wait tid .. | .read tid .. | .put tid .. | .putWait tid .. => some tid
  | _ => none

inductive Event where
  | client (t : Turn)
  /-- A new session for an RRQ, and for a WRQ. -/
  | serve (port : Nat)
  | accept (port : Nat)
  /-- A session sends block `j + 1`, takes an ACK, takes a block, sends an ACK, and gives up. -/
  | sendData (port j : Nat)
  | takeAck (port : Nat)
  | takeData (port : Nat) (data : List UInt8)
  | sendAck (port j : Nat)
  | sendError (port : Nat) (pkt : List UInt8)

/-- The packet can be received from this address. -/
def Sys.Deliverable (w : World) (s : Sys) (pkt : List UInt8) (sender : SockaddrIn) : Prop :=
  sender.addr = w.peer.addr ∧ (pkt, sender.port) ∈ s.down ∨ sender.addr ≠ w.peer.addr ∨
    ∃ tid, s.client.tid = some tid ∧ sender ≠ tid

/-- The packet was sent to this port of the server. -/
def Sys.Arrives (w : World) (s : Sys) (pkt : List UInt8) (port : Nat) : Prop :=
  ∃ p ∈ s.up, p.pkt = pkt ∧ p.dst = ⟨w.peer.addr, port⟩

/-- What may happen next. -/
def Admissible (w : World) (s : Sys) : Event → Prop
  | .client t => s.now ≤ t.start ∧ t.start ≤ t.sent ∧ t.sent ≤ t.before ∧ t.before ≤ t.after ∧
    ∀ pkt sender, t.recv = some (pkt, sender) → s.Deliverable w pkt sender
  | .serve port => s.sessions port = none ∧ s.Arrives w (request opRrq w.remote) w.peer.port
  | .accept port => s.sessions port = none ∧ s.Arrives w (request opWrq w.remote) w.peer.port
  | .sendData port j => ∃ acked, s.sessions port = some (.sending acked) ∧ j ≤ acked ∧ j < w.count
  | .takeAck port => ∃ acked, s.sessions port = some (.sending acked) ∧ acked < w.count ∧
    s.Arrives w (ackPkt (acked + 1)) port
  | .takeData port data => ∃ received, s.sessions port = some (.receiving received) ∧
    (∀ b ∈ received, b.length = blk) ∧ s.Arrives w (dataPkt (received.length + 1) data) port
  | .sendAck port j => ∃ received, s.sessions port = some (.receiving received) ∧ j ≤ received.length
  | .sendError port pkt => s.sessions port ≠ none ∧ pkt.getD 1 0 = opError

def Sys.setSession (s : Sys) (port : Nat) (x : Session) : Sys :=
  { s with sessions := Function.update s.sessions port (some x) }

def Sys.send (s : Sys) (pkt : List UInt8) (port : Nat) : Sys := { s with down := (pkt, port) :: s.down }

def Sys.step (w : World) (s : Sys) : Event → Sys
  | .client t =>
    { s with
        client := (turn w.toJob t s.client).1
        up := s.up ++ (turn w.toJob t s.client).2
        now := t.after }
  | .serve port => s.setSession port (.sending 0)
  | .accept port => s.setSession port (.receiving [])
  | .sendData port j => s.send (dataPkt (j + 1) (w.block j)) port
  | .takeAck port =>
    match s.sessions port with
    | some (.sending acked) => s.setSession port (.sending (acked + 1))
    | _ => s
  | .takeData port data =>
    match s.sessions port with
    | some (.receiving received) => s.setSession port (.receiving (received ++ [data]))
    | _ => s
  | .sendAck port j => s.send (ackPkt j) port
  | .sendError port pkt => s.send pkt port

inductive Run (w : World) : Sys → Prop
  | start : Run w w.start
  | step {s e} (run : Run w s) (ha : Admissible w s e) : Run w (s.step w e)

/-! ## What is wanted -/

/-- The DATA packets of one block go out a timeout apart at least. -/
def Paced (up : List Sent) : Prop :=
  up.Pairwise fun a b => isOp opData a.pkt → isOp opData b.pkt → pktBlock a.pkt = pktBlock b.pkt →
    (a.at_ : Int) + timeoutTicks ≤ b.at_

structure Exact (w : World) (s : Sys) : Prop where
  got : ∀ written, s.client = .got .ok written →
    written = (blocks blk w.file).filter (· ≠ []) ∧ written.flatten = w.file
  sent : ∀ tid, s.client = .sent .ok tid → ∃ a, tid = some a ∧ a.addr = w.peer.addr ∧
    s.sessions a.port = some (.receiving (blocks blk w.file))
  paced : Paced s.up

variable {w : World} {s : Sys} {t : Turn} {e : Event} {tid srv : Option SockaddrIn} {a sender : SockaddrIn}
  {rx data rest : List UInt8} {written : List (List UInt8)} {port block last tries stray i j now T : Nat}
  {sentAt : Int} {resend : Bool} {old new : Nat → Option Session} {up : List Sent}

/-! ## Packets -/

/-- A data packet is one. -/
theorem isOp_dataPkt : isOp opData (dataPkt block data) = true := by
  rw [isOp, Bool.and_eq_true, decide_eq_true_iff]
  refine ⟨?_, rfl⟩
  show 4 ≤ data.length + 4
  omega

/-- The number of a data packet, modulo 65536. -/
theorem pktBlock_dataPkt : pktBlock (dataPkt block data) = block % 2 ^ 16 := by
  show (UInt8.ofNat (block / 2 ^ 8)).toNat * 256 + (UInt8.ofNat block).toNat = block % 2 ^ 16
  rw [UInt8.toNat_ofNat', UInt8.toNat_ofNat']
  omega

/-- The number of an acknowledgement, modulo 65536. -/
theorem pktBlock_ackPkt : pktBlock (ackPkt block) = block % 2 ^ 16 := by
  show pktBlock (dataPkt block []) = block % 2 ^ 16
  exact pktBlock_dataPkt

theorem drop_dataPkt : (dataPkt block data).drop 4 = data := rfl

theorem length_dataPkt : (dataPkt block data).length = data.length + 4 := rfl

/-- What the test of an opcode says. -/
theorem opcode_of_isOp {op : UInt8} (h : isOp op rx = true) : rx.getD 1 0 = op :=
  eq_of_beq (Bool.and_eq_true_iff.mp h).2

/-- A request is no data packet. -/
theorem not_isOp_request (remote : List UInt8) (file : Option (List UInt8)) :
    isOp opData (request (if file.isNone then opRrq else opWrq) remote) = false := by
  rw [isOp, Bool.and_eq_false_iff]
  right
  cases file with
  | none => rfl
  | some => rfl

/-! ## What the server sends -/

theorem blk_pos : 0 < blk := by decide

/-- A packet that a session can have sent. -/
inductive Genuine (w : World) (sessions : Nat → Option Session) (port : Nat) : List UInt8 → Prop
  | data (i : Nat) (lt : i < w.count) : Genuine w sessions port (dataPkt (i + 1) (w.block i))
  | ack (j : Nat) {received} (has : sessions port = some (.receiving received))
      (le : j ≤ received.length) : Genuine w sessions port (ackPkt j)
  | error {pkt} (op : pkt.getD 1 0 = opError) : Genuine w sessions port pkt

/-- A packet cut to the buffer is still genuine. -/
theorem Genuine.take (genuine : Genuine w old port rx) : Genuine w old port (rx.take (blk + 16)) := by
  cases genuine with
  | data i lt =>
    have short : (dataPkt (i + 1) (w.block i)).length ≤ blk + 16 := by
      have le : (w.block i).length ≤ blk := length_block_le
      rw [length_dataPkt]
      omega
    rw [List.take_of_length_le short]
    exact .data i lt
  | ack j has le => exact .ack j has le
  | error op =>
    refine .error ?_
    rw [← op, List.getD_eq_getElem?_getD, List.getElem?_take, if_pos (by decide),
      List.getD_eq_getElem?_getD]

/-- A data packet of the server is a block of the file. -/
theorem Genuine.of_data (genuine : Genuine w old port rx) (op : isOp opData rx = true) :
    ∃ i < w.count, rx = dataPkt (i + 1) (w.block i) := by
  cases genuine with
  | data i lt => exact ⟨i, lt, rfl⟩
  | ack j =>
    have ack : opAck = opData := opcode_of_isOp op
    exact absurd ack (by decide)
  | error other =>
    have error : opError = opData := other.symm.trans (opcode_of_isOp op)
    exact absurd error (by decide)

/-- An acknowledgement of the server is for a block it has. -/
theorem Genuine.of_ack (genuine : Genuine w old port rx) (op : isOp opAck rx = true) :
    ∃ j received, rx = ackPkt j ∧ old port = some (.receiving received) ∧ j ≤ received.length := by
  cases genuine with
  | data i =>
    have data : opData = opAck := opcode_of_isOp op
    exact absurd data (by decide)
  | ack j has le => exact ⟨j, _, rfl, has, le⟩
  | error other =>
    have error : opError = opAck := other.symm.trans (opcode_of_isOp op)
    exact absurd error (by decide)

/-- A session keeps what it has received. -/
def Extends (old new : Nat → Option Session) : Prop :=
  ∀ port received, old port = some (.receiving received) →
    ∃ received', new port = some (.receiving received') ∧ received.length ≤ received'.length

/-- A packet stays genuine while the sessions grow. -/
theorem Genuine.mono (extend : Extends old new) (genuine : Genuine w old port rx) :
    Genuine w new port rx := by
  cases genuine with
  | data i lt => exact .data i lt
  | ack j has le =>
    obtain ⟨received', has', more⟩ := extend _ _ has
    exact .ack j has' (le.trans more)
  | error op => exact .error op

/-! ## What the command knows -/

/-- GET has the blocks up to `last`, and these are not all. -/
structure Getting (w : World) (a : SockaddrIn) (last : Nat) (written : List (List UInt8)) : Prop where
  server : a.addr = w.peer.addr
  lt : last < w.count
  written : written = firstBlocks blk w.file last

/-- The session at the transfer ID has received this many blocks. -/
def Has (s : Sys) (a : SockaddrIn) (m : Nat) : Prop :=
  ∃ received, s.sessions a.port = some (.receiving received) ∧ m ≤ received.length

/-- No block beyond this one was sent. -/
def UpTo (up : List Sent) (block : Nat) : Prop :=
  ∀ p ∈ up, isOp opData p.pkt = true → pktBlock p.pkt ≤ block

/-- PUT has `block` blocks acknowledged, and these are not all. -/
structure Putting (w : World) (s : Sys) (a : SockaddrIn) (block : Nat) (rest : List UInt8) : Prop where
  server : a.addr = w.peer.addr
  lt : block < w.count
  rest : rest = w.file.drop (blk * block)
  has : Has s a block
  upTo : UpTo s.up block

/-- PUT has read `block`. -/
structure Waiting (w : World) (s : Sys) (a : SockaddrIn) (block : Nat) (data rest : List UInt8) :
    Prop where
  server : a.addr = w.peer.addr
  number : ∃ i < w.count, block = i + 1 ∧ data = w.block i ∧ Has s a i
  rest : rest = w.file.drop (blk * block)
  upTo : UpTo s.up block

/-- `block` may go out now. -/
def Due (up : List Sent) (now block : Nat) : Prop :=
  ∀ p ∈ up, isOp opData p.pkt = true → pktBlock p.pkt = block → (p.at_ : Int) + timeoutTicks ≤ now

/-- `sent_at` is a time no earlier than when `block` was sent. -/
def Armed (up : List Sent) (now block : Nat) (sentAt : Int) : Prop :=
  ∃ T ≤ now, sentAt = tftpTicks T ∧
    ∀ p ∈ up, isOp opData p.pkt = true → pktBlock p.pkt = block → p.at_ ≤ T

/-- What holds where the command is. -/
def Holds (w : World) (s : Sys) : Client → Prop
  | .opening file => file = w.file ∧ ∀ p ∈ s.up, isOp opData p.pkt = false
  | .request file _ | .reply file _ =>
    (∀ f, file = some f → f = w.file) ∧ ∀ p ∈ s.up, isOp opData p.pkt = false
  | .data tid last written rx =>
    Getting w tid last written ∧ ∃ i < w.count, rx = dataPkt (i + 1) (w.block i)
  | .wait tid last written _ => Getting w tid last written
  | .read tid block rest => Putting w s tid block rest
  | .put tid block data rest _ _ resend sentAt =>
    Waiting w s tid block data rest ∧
      if resend then Due s.up s.now block else Armed s.up s.now block sentAt
  | .putWait tid block data rest _ _ sentAt =>
    Waiting w s tid block data rest ∧ Armed s.up s.now block sentAt
  | .got rc written => rc = .ok → written = (blocks blk w.file).filter (· ≠ [])
  | .sent rc tid => rc = .ok → ∃ a, tid = some a ∧ a.addr = w.peer.addr ∧ Has s a w.count

/-- What every run keeps. -/
structure Sound (w : World) (s : Sys) : Prop where
  down : ∀ p ∈ s.down, Genuine w s.sessions p.2 p.1
  received : ∀ port received, s.sessions port = some (.receiving received) →
    ∃ m ≤ w.count, received = firstBlocks blk w.file m
  up : ∀ p ∈ s.up, isOp opData p.pkt = true → ∃ i < w.count, p.pkt = dataPkt (i + 1) (w.block i)
  past : ∀ p ∈ s.up, p.at_ ≤ s.now
  paced : Paced s.up
  holds : Holds w s s.client

/-! ## The server's steps -/

/-- What the server has it keeps. -/
theorem Has.mono {s' : Sys} (extend : Extends s.sessions s'.sessions) (has : Has s a i) : Has s' a i := by
  obtain ⟨received, here, le⟩ := has
  obtain ⟨received', here', more⟩ := extend _ _ here
  exact ⟨received', here', le.trans more⟩

/-- So the command goes on waiting for the same block. -/
theorem Waiting.mono {s' : Sys} (extend : Extends s.sessions s'.sessions) (up : s'.up = s.up)
    (waiting : Waiting w s a block data rest) : Waiting w s' a block data rest := by
  obtain ⟨i, lt, number, data, has⟩ := waiting.number
  exact { waiting with number := ⟨i, lt, number, data, has.mono extend⟩, upTo := up ▸ waiting.upTo }

/-- Sessions may only grow. -/
theorem Holds.mono {s' : Sys} {c : Client} (extend : Extends s.sessions s'.sessions) (up : s'.up = s.up)
    (now : s'.now = s.now) (holds : Holds w s c) : Holds w s' c := by
  cases c with
  | opening file =>
    rw [Holds, up]
    exact holds
  | request file tries =>
    rw [Holds, up]
    exact holds
  | reply file tries =>
    rw [Holds, up]
    exact holds
  | data tid last written rx => exact holds
  | wait tid last written tries => exact holds
  | read tid block rest => exact { holds with has := holds.has.mono extend, upTo := up ▸ holds.upTo }
  | put tid block data rest tries stray resend sentAt =>
    obtain ⟨waiting, timer⟩ := holds
    rw [Holds, up, now]
    exact ⟨waiting.mono extend up, timer⟩
  | putWait tid block data rest tries stray sentAt =>
    obtain ⟨waiting, armed⟩ := holds
    rw [Holds, up, now]
    exact ⟨waiting.mono extend up, armed⟩
  | got rc written => exact holds
  | sent rc tid =>
    intro ok
    obtain ⟨a, here, server, has⟩ := holds ok
    exact ⟨a, here, server, has.mono extend⟩

/-- A genuine packet goes into the network. -/
theorem Sound.send (sound : Sound w s) (genuine : Genuine w s.sessions port rx) :
    Sound w (s.send rx port) where
  down := by
    intro p mem
    rcases List.mem_cons.mp mem with rfl | mem
    · exact genuine
    · exact sound.down p mem
  received := sound.received
  up := sound.up
  past := sound.past
  paced := sound.paced
  holds := by
    have extend : Extends s.sessions (s.send rx port).sessions := fun _ received has =>
      ⟨received, has, le_rfl⟩
    exact sound.holds.mono extend rfl rfl

theorem setSession_self {x : Session} : (s.setSession port x).sessions port = some x :=
  Function.update_self ..

theorem setSession_of_ne {x : Session} {q : Nat} (other : q ≠ port) :
    (s.setSession port x).sessions q = s.sessions q := Function.update_of_ne other ..

/-- A session grows, and the packets stay genuine. -/
theorem Sound.setSession {x : Session} (sound : Sound w s)
    (grows : ∀ received, s.sessions port = some (.receiving received) →
      ∃ received', x = .receiving received' ∧ received.length ≤ received'.length)
    (ofFile : ∀ received, x = .receiving received → ∃ m ≤ w.count, received = firstBlocks blk w.file m) :
    Sound w (s.setSession port x) := by
  have extend : Extends s.sessions (s.setSession port x).sessions := by
    intro q received has
    by_cases same : q = port
    · subst same
      obtain ⟨received', here, le⟩ := grows received has
      exact ⟨received', by rw [setSession_self, here], le⟩
    · exact ⟨received, by rw [setSession_of_ne same, has], le_rfl⟩
  constructor
  case down => exact fun p mem => (sound.down p mem).mono extend
  case received =>
    intro q received has
    by_cases same : q = port
    · subst same
      rw [setSession_self] at has
      exact ofFile received (Option.some.inj has)
    · rw [setSession_of_ne same] at has
      exact sound.received q received has
  case up => exact sound.up
  case past => exact sound.past
  case paced => exact sound.paced
  case holds => exact sound.holds.mono extend rfl rfl

/-- A block that arrives is the next one of the file. -/
theorem Sound.arrives (sound : Sound w s) (fewer : w.count < 65535) (le : i ≤ w.count)
    (arrives : s.Arrives w (dataPkt (i + 1) data) port) : i < w.count ∧ data = w.block i := by
  obtain ⟨p, mem, same, -⟩ := arrives
  obtain ⟨j, lt, is⟩ := sound.up p mem (by rw [same, isOp_dataPkt])
  rw [same] at is
  have number := congrArg pktBlock is
  rw [pktBlock_dataPkt, pktBlock_dataPkt] at number
  -- block numbers up to 65535 are told apart by 16 bits
  obtain rfl : i = j := by omega
  exact ⟨lt, congrArg (List.drop 4) is⟩

/-! ## The command's steps -/

/-- What may be sent in a turn. -/
inductive Allowed (w : World) (s : Sys) (t : Turn) : List Sent → Prop
  | nothing : Allowed w s t []
  | other {pkt dst} (no : isOp opData pkt = false) : Allowed w s t [⟨pkt, dst, t.start⟩]
  | data {dst} (i : Nat) (lt : i < w.count) (due : Due s.up s.now (i + 1)) :
    Allowed w s t [⟨dataPkt (i + 1) (w.block i), dst, t.start⟩]

/-- The state behind a turn. -/
def Sys.after (s : Sys) (t : Turn) (r : Client × List Sent) : Sys :=
  { s with client := r.1, up := s.up ++ r.2, now := t.after }

/-- What a turn may do. -/
structure Turned (w : World) (s : Sys) (t : Turn) (r : Client × List Sent) : Prop where
  allowed : Allowed w s t r.2
  holds : Holds w (s.after t r) r.1

/-- A data packet is sent again only after the timeout. -/
theorem paced_append {x : Sent} (paced : Paced up) (apart : isOp opData x.pkt = true →
    ∀ p ∈ up, isOp opData p.pkt = true → pktBlock p.pkt = pktBlock x.pkt →
      (p.at_ : Int) + timeoutTicks ≤ x.at_) : Paced (up ++ [x]) := by
  refine List.pairwise_append.mpr ⟨paced, List.pairwise_singleton .., ?_⟩
  intro p mem y last isData isData' same
  obtain rfl := List.mem_singleton.mp last
  exact apart isData' p mem isData same

/-- One turn of the command keeps everything sound. -/
theorem Sound.after {r : Client × List Sent} (sound : Sound w s) (fewer : w.count < 65535)
    (le : s.now ≤ t.start) (le' : t.start ≤ t.after) (turned : Turned w s t r) : Sound w (s.after t r) := by
  obtain ⟨c, sends⟩ := r
  have allowed : Allowed w s t sends := turned.allowed
  have past : ∀ p ∈ s.up, p.at_ ≤ t.after := fun p mem => (sound.past p mem).trans (le.trans le')
  constructor
  case down => exact sound.down
  case received => exact sound.received
  case holds => exact turned.holds
  case up =>
    intro p mem isData
    rcases List.mem_append.mp mem with old | new
    · exact sound.up p old isData
    cases allowed with
    | nothing => cases new
    | other no =>
      obtain rfl := List.mem_singleton.mp new
      rw [no] at isData
      cases isData
    | data i lt due =>
      obtain rfl := List.mem_singleton.mp new
      exact ⟨i, lt, rfl⟩
  case past =>
    intro p mem
    rcases List.mem_append.mp mem with old | new
    · exact past p old
    cases allowed with
    | nothing => cases new
    | other no =>
      obtain rfl := List.mem_singleton.mp new
      exact le'
    | data i lt due =>
      obtain rfl := List.mem_singleton.mp new
      exact le'
  case paced =>
    show Paced (s.up ++ sends)
    cases allowed with
    | nothing =>
      rw [List.append_nil]
      exact sound.paced
    | other no =>
      refine paced_append sound.paced fun isData => ?_
      rw [no] at isData
      cases isData
    | data i lt due =>
      refine paced_append sound.paced fun _ p mem isData same => ?_
      rw [pktBlock_dataPkt] at same
      have apart := due p mem isData (by omega)
      show (p.at_ : Int) + timeoutTicks ≤ t.start
      omega

/-- What `tftp_wait_packet` lets through. -/
theorem recv_of_packet (h : tftpWaitPacket tid srv t = .packet rx sender) :
    ∃ pkt, t.recv = some (pkt, sender) ∧ rx = pkt.take (blk + 16) ∧ (∀ a, tid = some a → a = sender) ∧
      (tid = none → ∀ a, srv = some a → a.addr = sender.addr) := by
  rw [tftpWaitPacket] at h
  cases recv : t.recv with
  | none =>
    rw [recv] at h
    cases h
  | some got =>
    obtain ⟨pkt, sender'⟩ := got
    rw [recv] at h
    dsimp only at h
    split_ifs at h with empty foreign other ctrlc
    cases h
    refine ⟨pkt, rfl, rfl, ?_, ?_⟩
    · rintro a rfl
      by_contra ne
      exact foreign (decide_eq_true ne)
    · rintro rfl a rfl
      by_contra ne
      exact other ⟨rfl, decide_eq_true ne⟩

/-- What may be received in a turn. -/
def Receives (w : World) (s : Sys) (t : Turn) : Prop :=
  ∀ pkt sender, t.recv = some (pkt, sender) → s.Deliverable w pkt sender

/-- The first reply is the server's. -/
theorem genuine_first (sound : Sound w s) (receives : Receives w s t) (unlocked : s.client.tid = none)
    (h : tftpWaitPacket none (some w.peer) t = .packet rx sender) :
    sender.addr = w.peer.addr ∧ Genuine w s.sessions sender.port rx := by
  obtain ⟨pkt, recv, rfl, -, server⟩ := recv_of_packet h
  have server : sender.addr = w.peer.addr := (server rfl _ rfl).symm
  refine ⟨server, ?_⟩
  rcases receives _ _ recv with ⟨-, mem⟩ | other | ⟨a, locked, -⟩
  · exact (sound.down _ mem).take
  · exact absurd server other
  · rw [unlocked] at locked
    cases locked

/-- A packet from the transfer ID is that session's. -/
theorem genuine_locked (sound : Sound w s) (receives : Receives w s t) (locked : s.client.tid = some a)
    (server : a.addr = w.peer.addr) (h : tftpWaitPacket (some a) none t = .packet rx sender) :
    Genuine w s.sessions a.port rx := by
  obtain ⟨pkt, recv, rfl, same, -⟩ := recv_of_packet h
  obtain rfl := same _ rfl
  rcases receives _ _ recv with ⟨-, mem⟩ | other | ⟨b, locked', foreign⟩
  · exact (sound.down _ mem).take
  · exact absurd server other
  · rw [locked] at locked'
    exact absurd (Option.some.inj locked') foreign

/-- A command that has stopped knows nothing wrong. -/
theorem holds_stop {rc : ReturnCode} (bad : rc ≠ .ok) (file : Option (List UInt8)) :
    Holds w s (stop rc file) := by
  cases file with
  | none => exact fun ok => absurd ok bad
  | some file => exact fun ok => absurd ok bad

/-- A turn in which nothing is sent. -/
theorem turned_quiet {c : Client} (holds : Holds w { s with now := t.after } c) : Turned w s t (c, []) := by
  have extend : Extends s.sessions s.sessions := fun _ received has => ⟨received, has, le_rfl⟩
  refine ⟨.nothing, ?_⟩
  exact Holds.mono (s := { s with now := t.after }) extend (List.append_nil s.up) rfl holds

/-- The request goes out, once or again. -/
theorem turned_request {file : Option (List UInt8)} (sent : ∀ f, file = some f → f = w.file)
    (none : ∀ p ∈ s.up, isOp opData p.pkt = false) : Turned w s t (requestTurn w.toJob file tries t) := by
  rw [requestTurn]
  by_cases ctrlc : t.ctrlc = true
  · rw [if_pos ctrlc]
    exact turned_quiet (holds_stop (by decide) file)
  · rw [if_neg ctrlc]
    have no := not_isOp_request w.remote file
    refine ⟨.other no, sent, ?_⟩
    intro p mem
    rcases List.mem_append.mp mem with old | new
    · exact none p old
    · obtain rfl := List.mem_singleton.mp new
      exact no

theorem count_pos : 0 < w.count := Nat.succ_pos _

/-- The answer to the request sets the port of the server. -/
theorem turned_reply {file : Option (List UInt8)} (sound : Sound w s) (receives : Receives w s t)
    (unlocked : s.client.tid = none) (sent : ∀ f, file = some f → f = w.file)
    (none : ∀ p ∈ s.up, isOp opData p.pkt = false) : Turned w s t (replyTurn w.toJob file tries t, []) := by
  refine turned_quiet ?_
  rw [replyTurn]
  cases waited : tftpWaitPacket .none (some w.peer) t with
  | ctrlc => exact holds_stop (by decide) file
  | nothing =>
    dsimp only
    split_ifs with again
    · exact ⟨sent, none⟩
    · exact holds_stop (by decide) file
  | packet rx sender =>
    obtain ⟨server, genuine⟩ := genuine_first sound receives unlocked waited
    cases file with
    | none =>
      dsimp only
      split_ifs with isData
      · exact ⟨⟨server, count_pos, rfl⟩, genuine.of_data isData.1⟩
      · exact holds_stop (by decide) .none
    | some rest =>
      dsimp only
      split_ifs with isAck
      · obtain ⟨j, received, -, has, -⟩ := genuine.of_ack isAck
        refine
          { server := server
            lt := count_pos
            rest := sent rest rfl
            has := ⟨received, has, Nat.zero_le _⟩
            upTo := fun p mem isData => ?_ }
        rw [none p mem] at isData
        cases isData
      · exact holds_stop (by decide) (some rest)

/-! ### GET -/

/-- Blocks in front of the last are not empty. -/
theorem filter_firstBlocks (lt : last < w.count) :
    (firstBlocks blk w.file last).filter (· ≠ []) = firstBlocks blk w.file last := by
  refine List.filter_eq_self.mpr fun b mem => decide_eq_true ?_
  obtain ⟨i, below, rfl⟩ := List.mem_map.mp mem
  have more : i + 1 < blockCount blk w.file := lt_of_le_of_lt (List.mem_range.mp below) lt
  have full : (Blocks.block blk w.file i).length = blk :=
    (length_block blk_pos (Nat.lt_of_succ_lt more)).mpr more
  exact List.ne_nil_of_length_pos (by rw [full]; exact blk_pos)

/-- What is written with the next block. -/
theorem written_succ (lt : last < w.count) :
    (if w.block last = [] then firstBlocks blk w.file last
      else firstBlocks blk w.file last ++ [w.block last]) =
      (firstBlocks blk w.file (last + 1)).filter (· ≠ []) := by
  rw [firstBlocks_succ, List.filter_append, filter_firstBlocks lt]
  by_cases empty : w.block last = []
  · have nothing : [w.block last].filter (· ≠ []) = [] :=
      List.filter_cons_of_neg fun h => of_decide_eq_true h empty
    rw [if_pos empty]
    show _ = _ ++ [w.block last].filter (· ≠ [])
    rw [nothing, List.append_nil]
  · have whole : [w.block last].filter (· ≠ []) = [w.block last] :=
      List.filter_cons_of_pos (decide_eq_true empty)
    rw [if_neg empty]
    show _ = _ ++ [w.block last].filter (· ≠ [])
    rw [whole]

/-- A data packet that arrives is the next block, or one that is known. -/
theorem turned_data (fewer : w.count < 65535) (getting : Getting w a last written)
    (isBlock : ∃ i < w.count, rx = dataPkt (i + 1) (w.block i)) :
    Turned w s t (dataTurn a last written rx t) := by
  obtain ⟨i, lt, rfl⟩ := isBlock
  have small := getting.lt
  have number : pktBlock (dataPkt (i + 1) (w.block i)) = i + 1 := by
    rw [pktBlock_dataPkt]
    omega
  rw [dataTurn, number, drop_dataPkt]
  dsimp only
  by_cases ctrlc : t.ctrlc = true
  · rw [if_pos ctrlc]
    exact turned_quiet nofun
  rw [if_neg ctrlc]
  by_cases next : i + 1 = (last + 1) % 2 ^ 16
  · rw [if_pos next]
    obtain rfl : i = last := by omega
    by_cases failed : w.block i ≠ [] ∧ t.wrote ≠ (w.block i).length
    · rw [if_pos failed]
      exact turned_quiet nofun
    rw [if_neg failed, getting.written, written_succ lt]
    refine ⟨.other rfl, ?_⟩
    by_cases short : (w.block i).length < blk
    · rw [if_pos short]
      have all : i + 1 = w.count := (length_block_lt_iff blk_pos lt).mp short
      rw [all]
      exact fun _ => rfl
    · rw [if_neg short]
      have le : (w.block i).length ≤ blk := length_block_le
      have more : i + 1 < w.count := (length_block blk_pos lt).mp (le.antisymm (not_lt.mp short))
      exact ⟨getting.server, more, filter_firstBlocks more⟩
  rw [if_neg next]
  by_cases dup : i + 1 = last
  · rw [if_pos dup]
    exact ⟨.other rfl, getting⟩
  · rw [if_neg dup]
    exact turned_quiet getting

/-- A wait for data ends with a packet or runs out. -/
theorem turned_wait (sound : Sound w s) (receives : Receives w s t) (locked : s.client.tid = some a)
    (getting : Getting w a last written) : Turned w s t (waitTurn a last written tries t) := by
  rw [waitTurn]
  by_cases ctrlc : t.ctrlc = true
  · rw [if_pos ctrlc]
    exact turned_quiet nofun
  rw [if_neg ctrlc]
  cases waited : tftpWaitPacket (some a) none t with
  | ctrlc => exact turned_quiet nofun
  | nothing =>
    dsimp only
    split_ifs with idle
    · exact turned_quiet nofun
    · exact ⟨.other rfl, getting⟩
  | packet rx sender =>
    have genuine := genuine_locked sound receives locked getting.server waited
    dsimp only
    split_ifs with isError isData
    · exact turned_quiet nofun
    · exact turned_quiet ⟨getting, genuine.of_data isData⟩
    · exact turned_quiet getting

/-! ### PUT -/

/-- A time that has elapsed on the clock has elapsed. -/
theorem add_le_of_elapsed (le : T ≤ now) (h : ¬ tftpElapsed (tftpTicks T) now < timeoutTicks) :
    (T : Int) + timeoutTicks ≤ now := by
  rw [tftpElapsed, tftpTicks, tftpTicks, timeoutTicks, day] at h
  rw [timeoutTicks]
  split_ifs at h with midnight
  · omega
  · omega

/-- The next block of the file goes out. -/
theorem turned_read (fewer : w.count < 65535) (putting : Putting w s a block rest) :
    Turned w s t (readTurn a block rest t, []) := by
  refine turned_quiet ?_
  have lt := putting.lt
  rw [readTurn]
  split_ifs with readOk
  · have number : (block + 1) % 2 ^ 16 = block + 1 := by omega
    have data : rest.take blk = w.block block := by
      rw [putting.rest]
      rfl
    have behind : rest.drop blk = w.file.drop (blk * (block + 1)) := by
      rw [putting.rest, drop_drop_block]
    rw [number, data, behind]
    constructor
    · exact
        { server := putting.server
          number := ⟨block, lt, rfl, rfl, putting.has⟩
          rest := rfl
          upTo := fun p mem isData => (putting.upTo p mem isData).trans (Nat.le_succ block) }
    · intro p mem isData same
      have le := putting.upTo p mem isData
      omega
  · exact nofun

/-- Time passes. -/
theorem Waiting.later (waiting : Waiting w s a block data rest) :
    Waiting w { s with now := now } a block data rest := { waiting with }

/-- A block goes out, for the first time or again. -/
theorem turned_put (sound : Sound w s) (fewer : w.count < 65535) (start : s.now ≤ t.start)
    (sent : t.start ≤ t.sent) (le : t.sent ≤ t.after) (waiting : Waiting w s a block data rest)
    (timer : if resend then Due s.up s.now block else Armed s.up s.now block sentAt) :
    Turned w s t (putTurn a block data rest tries stray resend sentAt t) := by
  rw [putTurn]
  by_cases ctrlc : t.ctrlc = true
  · rw [if_pos ctrlc]
    exact turned_quiet nofun
  rw [if_neg ctrlc]
  cases resend with
  | false =>
    obtain ⟨T, past, rfl, before⟩ := timer
    exact turned_quiet ⟨waiting.later, T, by show T ≤ t.after; omega, rfl, before⟩
  | true =>
    rw [if_pos rfl]
    obtain ⟨i, lt, rfl, rfl, has⟩ := waiting.number
    have number : pktBlock (dataPkt (i + 1) (w.block i)) = i + 1 := by
      rw [pktBlock_dataPkt]
      omega
    refine ⟨.data i lt timer, ?_, t.sent, le, rfl, ?_⟩
    · refine { waiting with upTo := fun p mem isData => ?_ }
      rcases List.mem_append.mp mem with old | new
      · exact waiting.upTo p old isData
      · obtain rfl := List.mem_singleton.mp new
        exact number.le
    · intro p mem isData same
      rcases List.mem_append.mp mem with old | new
      · have := sound.past p old
        omega
      · obtain rfl := List.mem_singleton.mp new
        exact sent

/-- A block whose time is up goes out again. -/
theorem holds_expired (le : now ≤ t.after) (waiting : Waiting w s a block data rest)
    (armed : Armed s.up s.now block sentAt) (before : s.now ≤ now)
    (late : ¬ tftpElapsed sentAt now < timeoutTicks) :
    Holds w { s with now := t.after } (expired a block data rest tries stray sentAt) := by
  rw [expired]
  split_ifs with often
  · exact nofun
  · refine ⟨waiting.later, fun p mem isData same => ?_⟩
    obtain ⟨T, past, rfl, sent⟩ := armed
    have elapsed := add_le_of_elapsed (past.trans before) late
    have := sent p mem isData same
    show (p.at_ : Int) + timeoutTicks ≤ t.after
    omega

/-- The timer goes on when another packet than the acknowledgement comes. -/
theorem holds_notAcked (le : s.now ≤ t.after) (waiting : Waiting w s a block data rest)
    (armed : Armed s.up s.now block sentAt) :
    Holds w { s with now := t.after } (notAcked a block data rest tries stray sentAt t) := by
  rw [notAcked]
  split_ifs with early many
  · exact nofun
  · -- a stray packet leaves the timer as it is
    obtain ⟨T, past, rfl, sent⟩ := armed
    exact ⟨waiting.later, T, past.trans le, rfl, sent⟩
  · exact holds_expired le_rfl waiting armed le early

/-- A wait for the acknowledgement ends with it, or with the block sent again. -/
theorem turned_putWait (sound : Sound w s) (receives : Receives w s t)
    (locked : s.client.tid = some a) (before : s.now ≤ t.before) (le : t.before ≤ t.after)
    (waiting : Waiting w s a block data rest) (armed : Armed s.up s.now block sentAt) :
    Turned w s t (putWaitTurn a block data rest tries stray sentAt t, []) := by
  refine turned_quiet ?_
  rw [putWaitTurn]
  by_cases early : tftpElapsed sentAt t.before < timeoutTicks
  swap
  · rw [if_neg early]
    exact holds_expired le waiting armed before early
  rw [if_pos early]
  cases waited : tftpWaitPacket (some a) none t with
  | ctrlc => exact nofun
  | nothing => exact holds_notAcked (before.trans le) waiting armed
  | packet rx sender =>
    have genuine := genuine_locked sound receives locked waiting.server waited
    dsimp only
    by_cases isError : isOp opError rx = true
    · rw [if_pos isError]
      exact nofun
    rw [if_neg isError]
    by_cases acked : isOp opAck rx = true ∧ pktBlock rx = block
    swap
    · rw [if_neg acked]
      exact holds_notAcked (before.trans le) waiting armed
    rw [if_pos acked]
    obtain ⟨isAck, same⟩ := acked
    obtain ⟨j, received, rfl, has, more⟩ := genuine.of_ack isAck
    obtain ⟨i, lt, rfl, rfl, -⟩ := waiting.number
    rw [pktBlock_ackPkt] at same
    -- the ACK says that the session has the block
    have has : Has s a (i + 1) := ⟨received, has, by omega⟩
    by_cases full : (w.block i).length = blk
    · rw [if_pos full]
      exact
        { server := waiting.server
          lt := (length_block blk_pos lt).mp full
          rest := waiting.rest
          has := has
          upTo := waiting.upTo }
    · rw [if_neg full]
      have le : (w.block i).length ≤ blk := length_block_le
      have all : i + 1 = w.count := (length_block_lt_iff blk_pos lt).mp (lt_of_le_of_ne le full)
      rw [all] at has
      exact fun _ => ⟨a, rfl, waiting.server, has⟩

/-! ## Runs -/

/-- Every turn of the command, by its state. -/
theorem turned (sound : Sound w s) (fewer : w.count < 65535) (ha : Admissible w s (.client t)) :
    Turned w s t (turn w.toJob t s.client) := by
  obtain ⟨start, sent, before, after, receives⟩ := ha
  have holds := sound.holds
  cases here : s.client with
  | opening file =>
    rw [here] at holds
    refine turned_quiet ?_
    split_ifs with opened
    · exact ⟨fun f same => by cases same; exact holds.1, holds.2⟩
    · exact nofun
  | request file tries =>
    rw [here] at holds
    exact turned_request holds.1 holds.2
  | reply file tries =>
    rw [here] at holds
    exact turned_reply sound receives (by rw [here]; rfl) holds.1 holds.2
  | data tid last written rx =>
    rw [here] at holds
    exact turned_data fewer holds.1 holds.2
  | wait tid last written tries =>
    rw [here] at holds
    exact turned_wait sound receives (by rw [here]; rfl) holds
  | read tid block rest =>
    rw [here] at holds
    exact turned_read fewer holds
  | put tid block data rest tries stray resend sentAt =>
    rw [here] at holds
    exact turned_put sound fewer start sent (before.trans after) holds.1 holds.2
  | putWait tid block data rest tries stray sentAt =>
    rw [here] at holds
    exact turned_putWait sound receives (by rw [here]; rfl) (start.trans (sent.trans before)) after
      holds.1 holds.2
  | got rc written =>
    rw [here] at holds
    exact turned_quiet holds
  | sent rc tid =>
    rw [here] at holds
    exact turned_quiet holds

/-- Every step keeps what every run keeps. -/
theorem Sound.step (sound : Sound w s) (fewer : w.count < 65535) (ha : Admissible w s e) :
    Sound w (s.step w e) := by
  cases e with
  | client t =>
    obtain ⟨start, sent, before, after, -⟩ := id ha
    exact sound.after fewer start (sent.trans (before.trans after)) (turned sound fewer ha)
  | serve port =>
    refine sound.setSession (fun received has => ?_) nofun
    rw [ha.1] at has
    cases has
  | accept port =>
    refine sound.setSession (fun received has => ?_) fun received same => ?_
    · rw [ha.1] at has
      cases has
    · cases same
      exact ⟨0, Nat.zero_le _, rfl⟩
  | sendData port j =>
    obtain ⟨acked, -, -, lt⟩ := ha
    exact sound.send (.data j lt)
  | takeAck port =>
    obtain ⟨acked, here, -⟩ := ha
    rw [Sys.step, here]
    refine sound.setSession (fun received has => ?_) nofun
    rw [here] at has
    cases has
  | takeData port data =>
    obtain ⟨received, here, -, arrives⟩ := ha
    rw [Sys.step, here]
    obtain ⟨m, le, rfl⟩ := sound.received port received here
    rw [length_firstBlocks] at arrives
    obtain ⟨lt, rfl⟩ := sound.arrives fewer le arrives
    refine sound.setSession (fun received has => ?_) fun received same => ?_
    · rw [here] at has
      cases has
      refine ⟨_, rfl, ?_⟩
      rw [List.length_append]
      omega
    · cases same
      exact ⟨m + 1, lt, (firstBlocks_succ m).symm⟩
  | sendAck port j =>
    obtain ⟨received, here, le⟩ := ha
    exact sound.send (.ack j here le)
  | sendError port pkt => exact sound.send (.error ha.2)

theorem sound_start : Sound w w.start where
  down := nofun
  received := nofun
  up := nofun
  past := nofun
  paced := .nil
  holds := by
    show Holds w _ (if w.isGet then _ else _)
    split_ifs with isGet
    · exact ⟨nofun, nofun⟩
    · exact ⟨rfl, nofun⟩

/-- Every run is sound, by induction on it. -/
theorem sound_of_run (fewer : w.count < 65535) (run : Run w s) : Sound w s := by
  induction run with
  | start => exact sound_start
  | step run ha sound => exact sound.step fewer ha

/-- The transfers of a file of fewer than 65535 blocks are exact, whatever the network does. -/
theorem exact_of_run (fewer : w.count < 65535) (run : Run w s) : Exact w s := by
  have sound := sound_of_run fewer run
  have holds := sound.holds
  constructor
  -- the file the command has written is what the server has
  case got =>
    intro written here
    rw [here] at holds
    obtain rfl : written = (blocks blk w.file).filter (· ≠ []) := holds rfl
    refine ⟨rfl, ?_⟩
    rw [List.flatten_filter_ne_nil, flatten_blocks blk_pos]
  -- the last acknowledgement is for all blocks
  case sent =>
    intro tid here
    rw [here] at holds
    obtain ⟨a, rfl, server, received, has, all⟩ := holds rfl
    obtain ⟨m, le, rfl⟩ := sound.received _ _ has
    rw [length_firstBlocks] at all
    obtain rfl : m = w.count := le.antisymm all
    exact ⟨a, rfl, server, has⟩
  case paced => exact sound.paced

/-- One byte is sent, and once more when its time is up. -/
theorem exact_of_run_put : ∃ s,
    Run { peer := ⟨1, 69⟩, remote := [97], isGet := false, file := [7] } s ∧
      s.client = .sent .ok (some ⟨1, 5⟩) ∧ s.sessions 5 = some (.receiving [[7]]) ∧ s.up.length = 3 := by
  let w : World := { peer := ⟨1, 69⟩, remote := [97], isGet := false, file := [7] }
  have opened : Run w _ := Run.start.step (e := .client { start := 0, sent := 0, before := 0, after := 0 })
    ⟨by decide, by decide, by decide, by decide, nofun⟩
  have asked := opened.step (e := .client { start := 0, sent := 0, before := 0, after := 0 })
    ⟨by decide, by decide, by decide, by decide, nofun⟩
  have accepted := asked.step (e := .accept 5) ⟨rfl, _, .head _, rfl, rfl⟩
  have answered := accepted.step (e := .sendAck 5 0) ⟨[], rfl, by decide⟩
  have replied := answered.step
    (e := .client { recv := some (ackPkt 0, ⟨1, 5⟩), start := 0, sent := 0, before := 0, after := 0 })
    ⟨by decide, by decide, by decide, by decide, fun pkt sender h => by cases h; exact .inl ⟨rfl, .head _⟩⟩
  have read := replied.step (e := .client { start := 0, sent := 0, before := 0, after := 0 })
    ⟨by decide, by decide, by decide, by decide, nofun⟩
  have sent := read.step (e := .client { start := 0, sent := 0, before := 0, after := 0 })
    ⟨by decide, by decide, by decide, by decide, nofun⟩
  -- nothing comes in three seconds
  have late := sent.step (e := .client { start := 0, sent := 0, before := 0, after := 150 })
    ⟨by decide, by decide, by decide, by decide, nofun⟩
  have again := late.step (e := .client { start := 150, sent := 150, before := 150, after := 150 })
    ⟨by decide, by decide, by decide, by decide, nofun⟩
  have taken := again.step (e := .takeData 5 [7])
    ⟨[], rfl, nofun, _, .tail _ (.head _), rfl, rfl⟩
  have acked := taken.step (e := .sendAck 5 1) ⟨[[7]], rfl, by decide⟩
  have last := acked.step
    (e := .client { recv := some (ackPkt 1, ⟨1, 5⟩), start := 150, sent := 150, before := 150, after := 160 })
    ⟨by decide, by decide, by decide, by decide, fun pkt sender h => by cases h; exact .inl ⟨rfl, .head _⟩⟩
  have fewer : w.count < 65535 := show blockCount blk [(7 : UInt8)] < 65535 by decide
  have whole : blocks blk w.file = [[7]] := show blocks blk [(7 : UInt8)] = [[7]] by decide
  obtain ⟨a, same, -, received⟩ := (exact_of_run fewer last).sent (some ⟨1, 5⟩) rfl
  cases same
  rw [whole] at received
  exact ⟨_, last, rfl, received, rfl⟩

end Tftp

end Tolunnet
