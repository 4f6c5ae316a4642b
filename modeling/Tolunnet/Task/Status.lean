import Tolunnet.Task.Socket

/-!
# `Tolunnet.Task.Status`: `STOP`, `CANCEL` and the queries

`ipc_status.c` with the reply-only commands of `ipc_route.c` and `ipc_ifctl.c`. `CANCEL`
searches every place that can hold a message. The queries leave the daemon as it is; what they
report of the interfaces and counters is lwIP's answer.
-/

set_option autoImplicit false

namespace Tolunnet

open World

/-! ## `STOP` -/

/-- `tn_ipc_cmd_stop`. -/
def tnIpcCmdStop (w : World) (m : MsgId) : World × TnIpcReplyAction :=
  let w := w.setReply m 0 .ok
  let w := if w.libOpenCnt > 0 then tnReapDeadClients w else w
  if w.libOpenCnt > 0 then fail w m .ebusy
  else if w.stopMsg.isSome then fail w m .ealready
  else ({ w with stopMsg := some m, running := false }, .defer)

/-! ## `CANCEL` -/

/-- The message a target address names; `NULL` compares equal to an empty field. -/
def targetMsg (target : MsgId) : Option MsgId := if target = 0 then none else some target

/-- The target is answered with `EINTR`, also when it is `NULL`. -/
def replyTarget (w : World) (target : MsgId) : World :=
  if target = 0 then w.emit .replyNull else w.answerMsg target (-1) .eintr

/-- A matched field is emptied and its message answered. -/
def cancelField (w : World) (i : SlotIdx) (k : Pend) (target : MsgId) : World :=
  replyTarget (w.setPending i k none) target

/-- The receive, connect and accept fields of one slot, in the order of the source. -/
def cancelAt (w : World) (i : SlotIdx) (target : MsgId) : Option World :=
  let s := w.sockets i
  if s.inUse then
    if s.pending .recv = targetMsg target then some (cancelField w i .recv target)
    else if s.pending .connect = targetMsg target then some (cancelField w i .connect target)
    else if s.pending .accept = targetMsg target then some (cancelField w i .accept target)
    else none
  else none

/-- The DNS record that holds the target. -/
def cancelDns (w : World) (target : MsgId) : Option World :=
  ((List.finRange 8).find? fun k =>
    (w.dnsPending k).inUse && (w.dnsPending k).imsg == targetMsg target).map fun k =>
      replyTarget (clearDns w k) target

/-- The state after the search for the target. -/
def cancelTarget (w : World) (target : MsgId) : World :=
  match (List.finRange 64).findSome? fun i => cancelAt w i target with
  | some w => w
  | none =>
    match (List.finRange 64).findSome? fun i => cancelParkedSendAt w i target with
    | some w => w
    | none => (cancelDns w target).getD w

/-- `tn_ipc_cmd_cancel`. -/
def tnIpcCmdCancel (w : World) (m : MsgId) : World × TnIpcReplyAction :=
  done (cancelTarget w ((w.msgs m).args 0 % 2 ^ 32).toNat) m 0 .ok

/-! ## Queries -/

/-- The pcb accesses of one row of `tn_ipc_cmd_enumsockets`: the remote port and the send
buffer are read only when the slot does not listen. -/
def enumRow (w : World) (i : SlotIdx) : World :=
  let s := w.sockets i
  if s.inUse ∧ s.type = sockStream then
    match s.tcpPcb with
    | some p =>
      let w := w.onPcb p id
      if s.tcpState ≠ .listening then (w.readFull p .remotePort).readFull p .sndBuf else w
    | none => w
  else w

/-- `tn_ipc_cmd_enumsockets`: at most `max_entries` rows. -/
def tnIpcCmdEnumsockets (w : World) (m : MsgId) : World × TnIpcReplyAction :=
  let x := w.msgs m
  match (x.ptrs 0).mem? with
  | none => fail w m .einval
  | some _ =>
    if x.args 0 ≤ 0 then fail w m .einval
    else
      let rows := ((List.finRange 64).filter fun i => (w.sockets i).inUse).take (x.args 0).toNat
      done (rows.foldl enumRow w) m rows.length .ok

/-- A command whose answer depends on lwIP alone. -/
def replyByAnswer (w : World) (m : MsgId) : World × TnIpcReplyAction :=
  if w.ask.ok then done w.asked m w.ask.addr .ok else fail w.asked m .einval

/-- `tn_ipc_cmd_ifctl`: taking an interface down or changing its address makes lwIP abort the
connections bound to it. -/
def tnIpcCmdIfctl (w : World) (m : MsgId) : World × TnIpcReplyAction :=
  replyByAnswer (runErrs w.asked w.ask.evs) m

/-- `tn_ipc_cmd_syslog`: the length of the line that was logged. -/
def tnIpcCmdSyslog (w : World) (m : MsgId) : World × TnIpcReplyAction :=
  let x := w.msgs m
  match x.ptrs 0 with
  | .str s =>
    if x.args 1 < 0 ∨ x.args 2 < 1 ∨ x.args 2 > 2 then fail w m .einval
    else
      let line := s.take (min (x.args 1).toNat 199)
      let line := if x.args 0 ≥ 0 ∧ line.getLast? = some '\n' then line.dropLast else line
      done w m line.length .ok
  | _ => fail w m .einval

end Tolunnet
