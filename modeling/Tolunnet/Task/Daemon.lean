import Tolunnet.Task.Reconfig
import Tolunnet.Task.Status
import Tolunnet.Task.Dgram

/-!
# `Tolunnet.Task.Daemon`: the dispatcher and the main loop

`tn_handle_ipc` (`ipc_dispatch.c`) and the turns of the main loop (`daemon_main.c`) as a
transition system. One `step` is the handling of one message, a burst of lwIP activity, a
timer tick, the reaping that Ctrl-C and a deferred shutdown do, or something a client does to
its own base. `Reach` collects the states that any sequence of admissible steps reaches; its
argument restricts the steps further.

The teardown after the last client has closed ends a run and is not a step.
-/

set_option autoImplicit false

namespace Tolunnet

open World

/-! ## Dispatch -/

/-- The `needs_base` column of the handler table. -/
def needsBase : TnIpcCmd → Bool
  | .gethostbyname | .gethostbyaddr | .getstatus | .reconfig | .enumsockets | .getstats
  | .routectl | .ifctl | .stop | .cancel => false
  | _ => true

/-- The `needs_fd` column of the handler table. -/
def needsFd : TnIpcCmd → Bool
  | .bind | .listen | .accept | .connect | .sendto | .send | .recvfrom | .recv | .shutdown
  | .setsockopt | .getsockopt | .getsockname | .getpeername | .ioctl | .closesocket | .dup2
  | .sendmsg | .recvmsg | .releasesocket => true
  | _ => false

/-- The handler table. -/
def handler (w : World) (m : MsgId) (slot : Option SlotIdx) : World × TnIpcReplyAction :=
  match (w.msgs m).cmd with
  | .open => tnIpcCmdOpen w m
  | .close => tnIpcCmdClose w m
  | .socket => tnIpcCmdSocket w m
  | .bind => tnIpcCmdBind w m slot
  | .listen => tnIpcCmdListen w m slot
  | .accept => tnIpcCmdAccept w m slot
  | .connect => tnIpcCmdConnect w m slot
  | .sendto => tnIpcCmdSendto w m slot
  | .send => tnIpcCmdSend w m slot
  | .recvfrom => tnIpcCmdRecvfrom w m slot
  | .recv => tnIpcCmdRecv w m slot
  | .shutdown => tnIpcCmdShutdown w m slot
  | .setsockopt => tnIpcCmdSetsockopt w m slot
  | .getsockopt => tnIpcCmdGetsockopt w m slot
  | .getsockname => tnIpcCmdGetsockname w m slot
  | .getpeername => tnIpcCmdGetpeername w m slot
  | .ioctl => tnIpcCmdIoctl w m slot
  | .closesocket => tnIpcCmdClosesocket w m slot
  | .gethostbyname => tnIpcCmdGethostbyname w m
  | .waitselect => tnIpcCmdWaitselect w m
  | .dup2 => tnIpcCmdDup2 w m slot
  | .reconfig => tnIpcCmdReconfig w m
  | .enumsockets => tnIpcCmdEnumsockets w m
  | .sendmsg => tnIpcCmdSendmsg w m slot
  | .recvmsg => tnIpcCmdRecvmsg w m slot
  | .releasesocket => tnIpcCmdReleasesocket w m slot
  | .obtainsocket => tnIpcCmdObtainsocket w m
  | .selectArm => tnIpcCmdSelectArm w m
  | .selectDisarm => tnIpcCmdSelectDisarm w m
  | .getstatus | .getstats | .routectl => replyByAnswer w m
  | .ifctl => tnIpcCmdIfctl w m
  | .stop => tnIpcCmdStop w m
  | .cancel => tnIpcCmdCancel w m
  | .syslog => tnIpcCmdSyslog w m
  | .gethostbyaddr | .unknown => fail w m .enosys

/-- `tn_handle_ipc`: the reply is preset to success, then the table's requirements are
checked in order. -/
def tnHandleIpc (w : World) (m : MsgId) : World × TnIpcReplyAction :=
  let w := w.setReply m 0 .ok
  let x := w.msgs m
  if x.cmd = .unknown ∨ x.cmd = .gethostbyaddr then fail w m .enosys
  else if needsBase x.cmd ∧ x.socketBase = none then fail w m .einval
  else if needsFd x.cmd then
    match tnSlotLookup w x.socketBase (x.args 0) with
    | none => fail w m .ebadf
    | some i => handler w m (some i)
  else handler w m none

/-- The message loop's body: a message that was not deferred is replied at once. -/
def handleMsg (w : World) (m : MsgId) : World :=
  match tnHandleIpc w m with
  | (w, .replyNow) => w.replyMsg m
  | (w, .defer) => w

/-! ## Where a message can be -/

/-- A place of the daemon that can hold a message between two steps. -/
inductive Place where
  | slot (i : SlotIdx) (k : Pend)
  | dns (k : Fin 8)
  | stop
  deriving DecidableEq, Repr

/-- The message a place holds. -/
def heldMsg (w : World) : Place → Option MsgId
  | .slot i k => (w.sockets i).pending k
  | .dns k => if (w.dnsPending k).inUse then (w.dnsPending k).imsg else none
  | .stop => w.stopMsg

/-- The call a reply answers. -/
def Event.replied : Event → Option CallNo
  | .reply c _ _ => some c
  | _ => none

/-- The calls that have been answered, the last one first. -/
def answered (w : World) : List CallNo := w.trace.filterMap Event.replied

/-! ## Steps -/

/-- What clients do to the daemon's surroundings on their own. -/
inductive ClientStep where
  /-- A new `TnSocketBase`, with an empty descriptor table. -/
  | newBase (b : BaseId) (base : TnSocketBase)
  /-- The client sets its own signals, event masks and recorded events. -/
  | setMasks (b : BaseId) (events eventMasks : Nat → Nat) (sigIo sigEvent sigSelect : Nat)
  /-- `SBTC_DTABLESIZE`. -/
  | resize (b : BaseId) (dtablesize : Nat)
  /-- A task ends. -/
  | taskExit (t : TaskId)
  /-- `OpenLibrary` and `CloseLibrary` count. -/
  | openCnt (n : Nat)

/-- The inputs of the transition system; `env` are the answers of lwIP and the allocator. -/
inductive Input where
  | ipc (m : MsgId) (x : TnIpcMsg) (env : List Answer)
  | lwip (evs : List LwipEv) (env : List Answer)
  | tick (evs : List LwipEv) (env : List Answer)
  | ctrlC (env : List Answer)
  | shutdown (env : List Answer)
  | client (c : ClientStep)

/-- A message arrives: its call gets the next number. -/
def receive (w : World) (m : MsgId) (x : TnIpcMsg) : World :=
  { w with msgs := Function.update w.msgs m x,
           callOf := Function.update w.callOf m w.calls,
           calls := w.calls + 1 }

/-- One step of a client. -/
def clientStep (w : World) : ClientStep → World
  | .newBase b base => w.modBase b fun _ => base
  | .setMasks b events eventMasks sigIo sigEvent sigSelect =>
    w.modBase b fun base =>
      { base with events := events, eventMasks := eventMasks, sigIo := sigIo,
                  sigEvent := sigEvent, sigSelect := sigSelect }
  | .resize b n => w.modBase b fun base => { base with dtablesize := n }
  | .taskExit t => { w with taskAlive := Function.update w.taskAlive t false }
  | .openCnt n => { w with libOpenCnt := n }

/-- The timer tick: lwIP's timers run, then the timeouts are checked. -/
def timerTick (w : World) (evs : List LwipEv) : World :=
  tnSlotCheckRecvTimeouts
    (runEvs { w with mainloopTicks := (w.mainloopTicks + 1) % 2 ^ 32 } evs)

/-- Ctrl-C: dead clients are reaped while the library is open. -/
def ctrlC (w : World) : World :=
  if w.libOpenCnt > 0 then
    let w := tnReapDeadClients w
    if w.libOpenCnt = 0 then { w with running := false } else w
  else { w with running := false }

/-- A shutdown attempt: while a client is left the daemon goes back to service and answers a
parked `STOP`. -/
def shutdownAttempt (w : World) : World :=
  let w := tnReapDeadClients { w with stopping := true }
  if w.libOpenCnt > 0 then
    let w := { w with stopping := false, running := true }
    match w.stopMsg with
    | some m => { w.answerMsg m (-1) .ebusy with stopMsg := none }
    | none => w
  else w

/-- One step of the daemon. -/
def step (w : World) : Input → World
  | .ipc m x env => handleMsg { receive w m x with env := env } m
  | .lwip evs env => runEvs { w with env := env } evs
  | .tick evs env => timerTick { w with env := env } evs
  | .ctrlC env => ctrlC { w with env := env }
  | .shutdown env => shutdownAttempt { w with env := env }
  | .client c => clientStep w c

/-- Whether a base is in the registry. -/
def registered (w : World) (b : BaseId) : Prop := ∃ k, w.openBases k = some b

/-- What clients are held to. A message is not sent again while the daemon holds it; it
carries a base that has been opened, or none, and `OPEN` is sent for a base whose table is
empty. A base is built while it is not open, and its table is cut only above its last
descriptor. -/
def Admissible (w : World) : Input → Prop
  | .ipc m x _ =>
    m ≠ 0 ∧ (∀ pl, heldMsg w pl ≠ some m) ∧
      ∀ b, x.socketBase = some b →
        registered w b ∨ (x.cmd = .open ∧ ∀ fd, (w.bases b).fdMap fd = none)
  | .client (.newBase b base) => ¬ registered w b ∧ ∀ fd, base.fdMap fd = none
  | .client (.resize b n) => ∀ fd, n ≤ fd → (w.bases b).fdMap fd = none
  | _ => True

/-- The states reached by admissible steps that all satisfy `ok`. -/
inductive Reach (ok : World → Input → Prop) : World → Prop where
  | init : Reach ok tnSlotTableInit
  | step {w : World} {inp : Input} :
      Reach ok w → Admissible w inp → ok w inp → Reach ok (step w inp)

/-- Any admissible run. -/
abbrev Reachable : World → Prop := Reach fun _ _ => True

end Tolunnet
