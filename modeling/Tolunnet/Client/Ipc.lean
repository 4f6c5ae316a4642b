import Tolunnet.Lib.Requests
import Tolunnet.Task.Context

/-!
# `Tolunnet.Client.Ipc`: how the library talks to the daemon

`tn_ipc_call` sends a message to the daemon and waits for it to come back, and the calls of exec
that it makes. A base has one embedded message, or one from the heap for each call when it has a
reply watchdog (`ipc_timeout_ms`). A break or an expired watchdog is followed by a CANCEL message.
What does not come back in time is left on a chain until the library is closed.

The daemon, the timer and the user act at any moment. What they will do is given in advance
(`moves`): before each thing that the client asks of exec they make the next few of their moves. A
call that still waits when the moves are over has no result. The daemon writes and replies only
messages that it has.

`fault` is set when the client writes, sends or frees a message that is not its own at that moment,
or frees one twice. `log` is the record of what was sent and replied, the last event first.
-/

set_option autoImplicit false

namespace Tolunnet

namespace Ipc

open Requests

/-! ## Messages -/

/-- The address of a `TnIpcMsg`. -/
abbrev Addr := Nat

/-- `&base->ipc_msg`, which stands for the block of the base as well. -/
def embedded : Addr := 0

/-- `ENETDOWN`, which only the library sets. -/
def enetdown : Nat := 50

/-- `SIGBREAKF_CTRL_C`. -/
def sigbreakfCtrlC : UInt32 := 0x1000

/-- `tn_cmd_may_park`: the commands that the daemon may answer later. -/
def tnCmdMayPark : TnIpcCmd → Bool
  | .recv | .recvfrom | .recvmsg | .accept | .connect | .send | .sendto | .sendmsg
  | .gethostbyname | .waitselect => true
  | _ => false

/-- A message with the arguments, pointers, result and error of another. -/
def mirror (x y : TnIpcMsg) : TnIpcMsg :=
  { x with args := y.args, ptrs := y.ptrs, result := y.result, errNo := y.errNo }

/-- What the others do between two calls of exec: the daemon writes its answer into a message or
replies it, someone signals the client, the clock is changed. -/
inductive Move where
  | write (m : Addr) (x : TnIpcMsg)
  | reply (m : Addr)
  | signal (mask : UInt32)
  | clock (t : UInt32)

/-- What the two sides say to each other: a message is sent with a command, and replied with what it
holds then. -/
inductive Event where
  | put (m : Addr) (cmd : TnIpcCmd)
  | reply (m : Addr) (x : TnIpcMsg)

/-! ## The base and what it runs on -/

/-- The fields of `TnSocketBase` that a call uses. A pointer is whether it is set, and the chain of
the orphans is a list. `refused` is not in the source: it is set when a call could not send its
message. -/
structure Base where
  self : BaseId := 0
  ownerTask : TaskId := 0
  tolunnetPort : Bool := false
  timer : Bool := false
  dtablesize : Nat := 64
  sigInt : UInt32 := sigbreakfCtrlC
  sigIo : UInt32 := 0
  sigSelect : UInt32 := 0
  ipcTimeoutMs : UInt32 := 0
  ipcTimeouts : UInt32 := 0
  ipcOrphan : List Addr := []
  ipcCancelMsg : Option Addr := none
  errno : Nat := 0
  refused : Bool := false

/-- The base, its messages and its memory, the signals and the clock (in ticks of 1/50 s), and what
is still to come: the others' moves, what `AllocVec` gives, and whether a port or a device is found.
-/
structure Machine where
  base : Base := {}
  io : Io Addr Unit := { place := fun _ => .ours, queue := fun _ => [] }
  msgs : Addr → TnIpcMsg := fun _ => { cmd := .open }
  heap : List Addr := [embedded]
  signals : UInt32 := 0
  clock : UInt32 := 0
  replySig : UInt32 := 0x10000
  tmSig : UInt32 := 0x20000
  fault : Bool := false
  log : List Event := []
  moves : List (List Move)
  allocs : List (Option Addr) := []
  finds : List Bool := []

namespace Machine

/-! ## The others -/

/-- One move. -/
def move (s : Machine) : Move → Machine
  | .write m x =>
    if s.io.place m = .device then
      { s with msgs := Function.update s.msgs m (mirror (s.msgs m) x) }
    else s
  | .reply m =>
    if s.io.place m = .device then
      { s with
        io := s.io.reply (fun _ => ()) m
        signals := s.signals ||| s.replySig
        log := .reply m (s.msgs m) :: s.log }
    else s
  | .signal mask => { s with signals := s.signals ||| mask }
  | .clock t => { s with clock := t }

/-- The moves up to the next call of exec. -/
def tick (s : Machine) : Option Machine :=
  match s.moves with
  | [] => none
  | now :: moves => some (now.foldl move { s with moves })

/-! ## Messages and memory -/

/-- A use of a message that only its owner may make. -/
def touch (s : Machine) (m : Addr) : Machine :=
  { s with fault := s.fault || decide (s.io.Outstanding m) }

/-- A write to the fields of a message. -/
def modMsg (s : Machine) (m : Addr) (f : TnIpcMsg → TnIpcMsg) : Machine :=
  { s.touch m with msgs := Function.update s.msgs m (f (s.msgs m)) }

/-- `AllocVec` of a message: an address that is not in use. -/
def allocVec (s : Machine) : Option Addr × Machine :=
  match s.allocs with
  | [] => (none, s)
  | none :: allocs => (none, { s with allocs })
  | some m :: allocs =>
    if m ∈ s.heap then (none, { s with allocs })
    else (some m, { s with allocs, heap := m :: s.heap })

/-- `FreeVec`. -/
def freeVec (s : Machine) (m : Addr) : Machine :=
  { s with
    fault := s.fault || decide (s.io.Outstanding m) || !decide (m ∈ s.heap)
    heap := s.heap.erase m }

/-- An assignment to the base. -/
def modBase (s : Machine) (f : Base → Base) : Machine := { s with base := f s.base }

/-- `tn_set_errno_val`. -/
def setErrno (s : Machine) (e : Nat) : Machine := s.modBase fun b => { b with errno := e }

/-- `SetSignal(mask, mask)`. -/
def setSignal (s : Machine) (mask : UInt32) : Machine := { s with signals := s.signals ||| mask }

/-- Whether something outside is found. -/
def find (s : Machine) : Bool × Machine := (s.finds.headD false, { s with finds := s.finds.tail })

/-- `FindPort`, if the daemon's port is not known yet. -/
def findPort (s : Machine) : Bool × Machine :=
  if s.base.tolunnetPort then (true, s)
  else
    let (found, s) := s.find
    (found, s.modBase fun b => { b with tolunnetPort := found })

/-- `tn_ensure_timer`. -/
def tnEnsureTimer (s : Machine) : Bool × Machine :=
  if s.base.timer then (true, s)
  else
    let (found, s) := s.find
    (found, s.modBase fun b => { b with timer := found })

/-! ## Calls of exec -/

/-- `PutMsg(tolunnet_port, m)`. -/
def putMsg (s : Machine) (m : Addr) : Option Machine := do
  let s ← s.tick
  some { s.touch m with io := s.io.send m, log := .put m (s.msgs m).cmd :: s.log }

/-- `GetMsg(reply_port)`. -/
def getMsg (s : Machine) : Option (Option Addr × Machine) := do
  let s ← s.tick
  match (s.io.queue ()).head? with
  | none => some (none, s)
  | some m => some (some m, { s with io := s.io.take (fun _ => ()) m })

/-- `Wait`, while `moves` are left. -/
def waitOn (mask : UInt32) : List (List Move) → Machine → Option (UInt32 × Machine)
  | [], _ => none
  | now :: moves, s =>
    let s := now.foldl move { s with moves }
    if s.signals &&& mask ≠ 0 then
      some (s.signals &&& mask, { s with signals := s.signals &&& ~~~mask })
    else waitOn mask moves s

/-- `Wait(mask)`: the signals that ended it, which it clears. -/
def wait (s : Machine) (mask : UInt32) : Option (UInt32 × Machine) := waitOn mask s.moves s

/-- `WaitPort`, which looks for a message or sleeps in `Wait`. -/
def waitPortOn : List (List Move) → Bool → Machine → Option Machine
  | [], _, _ => none
  | now :: moves, asleep, s =>
    let s := now.foldl move { s with moves }
    if asleep then
      if s.signals &&& s.replySig ≠ 0 then
        waitPortOn moves false { s with signals := s.signals &&& ~~~s.replySig }
      else waitPortOn moves true s
    else if s.io.queue () ≠ [] then some s
    else waitPortOn moves true s

/-- `WaitPort(reply_port)`. -/
def waitPort (s : Machine) : Option Machine := waitPortOn s.moves false s

/-- `tn_ticks_now`. -/
def tnTicksNow (s : Machine) : Option (UInt32 × Machine) := do
  let s ← s.tick
  some (s.clock, s)

/-- `AbortIO` and `WaitIO` of the timer request, with an empty timer port after it. -/
def retireTimer (s : Machine) : Option Machine := do
  let s ← s.tick
  some { s with signals := s.signals &&& ~~~s.tmSig }

/-! ## CANCEL -/

/-- The header of a message. -/
def fill (s : Machine) (m : Addr) (cmd : TnIpcCmd) : Machine :=
  s.modMsg m fun x =>
    { x with cmd, clientTask := s.base.ownerTask, socketBase := some s.base.self }

/-- Leaves a message on the chain. -/
def orphan (s : Machine) (m : Addr) : Machine :=
  s.modBase fun b => { b with ipcOrphan := m :: b.ipcOrphan }

/-- Takes messages from the port until `msg` comes. -/
def takeBack (msg : Addr) : Nat → Machine → Option Machine
  | 0, _ => none
  | fuel + 1, s => do
    let (early, s) ← s.getMsg
    if early = some msg then some s
    else
      let s ← s.waitPort
      takeBack msg fuel s

/-- Takes messages from the port until both have come. -/
def drain (msg cancel : Addr) : Nat → Bool → Bool → Machine → Option (Bool × Bool × Machine)
  | 0, _, _, _ => none
  | fuel + 1, gotMsg, gotCancel, s =>
    if gotMsg && gotCancel then some (gotMsg, gotCancel, s)
    else do
      let s ← s.waitPort
      let (early, s) ← s.getMsg
      drain msg cancel fuel (gotMsg || early == some msg)
        (gotCancel || (early != some msg && early == some cancel)) s

/-- The same for `ipc_timeout_ms` at most, by the clock. -/
def drainBounded (msg cancel : Addr) (t0 : UInt32) :
    Nat → Bool → Bool → Machine → Option (Bool × Bool × Machine)
  | 0, _, _, _ => none
  | fuel + 1, gotMsg, gotCancel, s =>
    if gotMsg && gotCancel then some (gotMsg, gotCancel, s)
    else do
      let (now, s) ← s.tnTicksNow
      if (now - t0) * 20 ≥ s.base.ipcTimeoutMs then some (gotMsg, gotCancel, s)
      else
        let (early, s) ← s.getMsg
        if early = none then
          let (_, s) ← s.wait (s.replySig ||| s.tmSig)
          let s ← s.retireTimer
          drainBounded msg cancel t0 fuel gotMsg gotCancel s
        else
          drainBounded msg cancel t0 fuel (gotMsg || early == some msg)
            (gotCancel || (early != some msg && early == some cancel)) s

/-- The loop of `tn_ipc_cancel_inflight`. Each turn waits for a call of exec, so there are no more
turns than moves. -/
def drainReplies (s : Machine) (msg cancel : Addr) (bounded : Bool) :
    Option (Bool × Bool × Machine) :=
  if bounded then do
    let s ← s.retireTimer
    let (t0, s) ← s.tnTicksNow
    drainBounded msg cancel t0 (s.moves.length + 1) false false s
  else drain msg cancel (s.moves.length + 1) false false s

/-- `tn_ipc_cancel_inflight`: whether `msg` has come back. -/
def tnIpcCancelInflight (s : Machine) (msg : Addr) (mayAbandon : Bool) : Option (Bool × Machine) :=
  let (bounded, s) :=
    if mayAbandon && s.base.ipcTimeoutMs != 0 then s.tnEnsureTimer else (false, s)
  match s.base.ipcCancelMsg with
  | none =>
    if mayAbandon then some (false, s)
    else do
      let s ← takeBack msg (s.moves.length + 1) s
      some (true, s)
  | some cancel => do
    let s := (s.fill cancel .cancel).modMsg cancel fun x =>
      { x with args := Function.update x.args 0 msg }
    let s ← s.putMsg cancel
    let (gotMsg, gotCancel, s) ← s.drainReplies msg cancel bounded
    if gotCancel then some (gotMsg, s)
    else
      -- the daemon still has the CANCEL: it is not used again
      let (fresh, s) := (s.orphan cancel).allocVec
      some (gotMsg, s.modBase fun b => { b with ipcCancelMsg := fresh })

/-! ## The call -/

/-- `tn_ipc_release_heap`. -/
def tnIpcReleaseHeap (s : Machine) (heap : Option Addr) : Machine :=
  match heap with
  | none => s
  | some m => (s.modMsg embedded fun x => mirror x (s.msgs m)).freeVec m

/-- `tn_ipc_orphan_heap`. -/
def tnIpcOrphanHeap (s : Machine) (heap : Option Addr) : Machine :=
  match heap with
  | none => s
  | some m => s.orphan m

/-- A call that gives its message up. -/
def giveUp (s : Machine) (heap : Option Addr) (e : Errno) : Int × Machine :=
  (-1, (s.tnIpcOrphanHeap heap).setErrno e.code)

/-- The watchdog's expiry, as it is counted. -/
def expire (s : Machine) : Machine := s.modBase fun b => { b with ipcTimeouts := b.ipcTimeouts + 1 }

/-- Takes late replies from the port, up to the first that is an orphan's. -/
def drainStale : Nat → Machine → Option Machine
  | 0, _ => none
  | fuel + 1, s => do
    let (got, s) ← s.getMsg
    match got with
    | none => some s
    | some m => if m ∈ s.base.ipcOrphan then some s else drainStale fuel s

/-- What a call under the watchdog does first, when there are orphans. -/
def dropStale (s : Machine) : Option Machine :=
  if s.base.ipcOrphan = [] then some s else drainStale (s.moves.length + 1) s

/-- How the watchdog's wait ends: by a break, a reply or the time. -/
inductive Fired where
  | broken (mask : UInt32)
  | replied
  | expired

/-- The watchdog's wait. The timer is only believed when the clock says the same. -/
def watch (breakMask t0 budget : UInt32) : Nat → Machine → Option (Fired × Machine)
  | 0, _ => none
  | fuel + 1, s => do
    let (fired, s) ← s.wait (s.replySig ||| s.tmSig ||| breakMask)
    let s ← s.retireTimer
    if fired &&& breakMask ≠ 0 then some (.broken (fired &&& breakMask), s)
    else if fired &&& s.replySig ≠ 0 then some (.replied, s)
    else
      let (now, s) ← s.tnTicksNow
      if (now - t0) * 20 + 40 ≥ budget then some (.expired, s)
      else watch breakMask t0 budget fuel s

/-- Takes messages from the port until `msg` is there, `n` times at most. -/
def awaitOwn (msg : Addr) : Nat → Option Addr → Machine → Option (Option Addr × Machine)
  | 0, got, s => some (got, s)
  | n + 1, got, s =>
    if got = some msg then some (got, s)
    else do
      let s ← s.waitPort
      let (got, s) ← s.getMsg
      awaitOwn msg n got s

/-- The end of `tn_ipc_call`, after the reply signal. -/
def collect (s : Machine) (heap : Option Addr) : Option (Int × Machine) := do
  let msg := heap.getD embedded
  let (got, s) ← s.getMsg
  let (got, s) ← s.awaitOwn msg 4 got
  if heap.isSome && got != some msg then some (s.expire.giveUp heap .etimedout)
  else
    let s ← s.tick
    let x := s.msgs msg
    let s := if x.result < 0 ∧ x.errNo ≠ .ok then s.setErrno x.errNo.code else s
    some (x.result, s.tnIpcReleaseHeap heap)

/-- The end of `tn_ipc_call` after a break under the watchdog. -/
def brokenWatch (s : Machine) (heap : Option Addr) (mask : UInt32) : Option (Int × Machine) := do
  let msg := heap.getD embedded
  let (replied, s) ← s.tnIpcCancelInflight msg true
  let x := s.msgs msg
  let s := s.setSignal mask
  if !replied then some (s.giveUp heap .eintr)
  else
    let s := s.tnIpcReleaseHeap heap
    if x.result ≥ 0 ∨ x.errNo = .ok then some (x.result, s)
    else some (-1, s.setErrno Errno.eintr.code)

/-- The end of `tn_ipc_call` after a break without a watchdog. -/
def brokenWait (s : Machine) (heap : Option Addr) (mask : UInt32) : Option (Int × Machine) := do
  let msg := heap.getD embedded
  let s := s.setSignal mask
  let (replied, s) ← s.tnIpcCancelInflight msg heap.isSome
  let x := s.msgs msg
  if !replied then some (s.giveUp heap .eintr)
  else
    let s := s.tnIpcReleaseHeap heap
    if ¬ (x.result = -1 ∧ x.errNo = .eintr) then some (x.result, s.setErrno x.errNo.code)
    else some (-1, s.setErrno Errno.eintr.code)

/-- `tn_ipc_call` from the sending of the message on. -/
def exchange (s : Machine) (heap : Option Addr) (cmd : TnIpcCmd) : Option (Int × Machine) := do
  let msg := heap.getD embedded
  let breakMask := if tnCmdMayPark cmd then s.base.sigInt else 0
  let s ← (s.fill msg cmd).putMsg msg
  let (timer, s) := if heap.isSome then s.tnEnsureTimer else (false, s)
  if timer then
    let s ← s.retireTimer
    let (t0, s) ← s.tnTicksNow
    let (fired, s) ← s.watch breakMask t0 s.base.ipcTimeoutMs (s.moves.length + 1)
    match fired with
    | .broken mask => s.brokenWatch heap mask
    | .replied => s.collect heap
    | .expired =>
      let (_, s) ← s.expire.tnIpcCancelInflight msg true
      some (s.giveUp heap .etimedout)
  else
    let (fired, s) ← s.wait (s.replySig ||| breakMask)
    if fired &&& breakMask ≠ 0 then s.brokenWait heap (fired &&& breakMask)
    else s.collect heap

/-- A call that cannot send its message. -/
def refuse (s : Machine) (e : Nat) : Int × Machine :=
  (-1, s.modBase fun b => { b with errno := e, refused := true })

/-- `tn_ipc_call`. -/
def tnIpcCall (s : Machine) (cmd : TnIpcCmd) : Option (Int × Machine) :=
  let (found, s) := s.findPort
  if !found then some (s.refuse enetdown)
  else if s.base.ipcTimeoutMs = 0 then s.exchange none cmd
  else do
    let s ← s.dropStale
    match s.allocVec with
    | (none, s) => some (s.refuse Errno.enobufs.code)
    | (some m, s) =>
      let s := s.modMsg m fun _ => { s.msgs embedded with result := 0, errNo := .ok }
      s.exchange (some m) cmd

/-- A vector: it writes its arguments into the embedded message and calls. -/
def request (s : Machine) (cmd : TnIpcCmd) (args : Nat → Int) (ptrs : Nat → Ptr) :
    Option (Int × Machine) :=
  (s.modMsg embedded fun x => { x with args, ptrs }).tnIpcCall cmd

/-! ## Opening and closing the library -/

/-- Frees the CANCEL message. -/
def freeCancel (s : Machine) : Machine :=
  match s.base.ipcCancelMsg with
  | none => s
  | some m => (s.freeVec m).modBase fun b => { b with ipcCancelMsg := none }

/-- `tn_lib_open`, for a base that has its block: whether the library is open. The failures to allocate
the reply port and the three descriptor tables are left out, which unwind as the first one does, and
so are the private signal and the settings that no call reads. -/
def tnLibOpen (s : Machine) : Option (Bool × Machine) :=
  match s.allocVec with
  | (none, s) => some (false, s.freeVec embedded)
  | (some cancel, s) => do
    let s := (s.modBase fun b => { b with ipcCancelMsg := some cancel }).findPort.2
    let (r, s) ← s.tnIpcCall .open
    if r < 0 ∧ s.base.errno ≠ enetdown then some (false, s.freeCancel.freeVec embedded)
    else some (true, s)

/-- Takes every message from the port. -/
def drainPort : Nat → Machine → Option Machine
  | 0, _ => none
  | fuel + 1, s => do
    let (got, s) ← s.getMsg
    if got = none then some s else drainPort fuel s

/-- Frees the chain. -/
def freeOrphans (s : Machine) : Machine :=
  (s.base.ipcOrphan.foldl freeVec s).modBase fun b => { b with ipcOrphan := [] }

/-- `tn_lib_close`. The frees of the descriptor tables, the timer, the ports and the signal are left out:
they follow the drain, and none of these is a message. -/
def tnLibClose (s : Machine) : Option Machine := do
  let (_, s) ← s.tnIpcCall .close
  let s ← drainPort (s.moves.length + 1) s
  some (s.freeOrphans.freeCancel.freeVec embedded)

end Machine

end Ipc

end Tolunnet
