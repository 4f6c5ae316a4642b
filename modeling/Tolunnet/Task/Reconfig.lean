import Tolunnet.Task.Select

/-!
# `Tolunnet.Task.Reconfig`: `RECONFIG`

`tn_ipc_cmd_reconfig` of `ipc_status.c` with `tn_apply_live_config` (`netif_mgr.c`) and
`tn_syslog_apply` (`syslog.c`). The preferences are loaded into the live structure, the
difference to the old ones is sorted into keys that need a restart and live keys, and every live
key is applied; what cannot be applied is reported as failed. The contents of the stores are the
environment's answer. The log lines the handler writes are left out.
-/

set_option autoImplicit false

namespace Tolunnet

open World

/-- Whether a key is in a mask. -/
def inMask (mask bit : Nat) : Bool := mask &&& bit != 0

/-- Assigns to the settings in force. -/
def World.modLive (w : World) (f : TnLive → TnLive) : World := { w with live := f w.live }

/-- `LOGLEVEL`. -/
def applyLoglevel (w : World) (live : Nat) : World :=
  if inMask live recfgLoglevel then
    w.modLive fun l => { l with logLevel := tnRecfgEffectiveLoglevel w.prefs }
  else w

/-- `PRIORITY`: `SetTaskPri` with the priority cast to a `BYTE`. -/
def applyPriority (w : World) (live : Nat) : World :=
  if inMask live recfgPriority then
    w.modLive fun l => { l with taskPri := w.prefs.priority.bmod 256 }
  else w

/-- `LOG`: the old file is closed whether or not the new one can be opened. -/
def applyLog (w : World) (live : Nat) : World × Nat :=
  if inMask live recfgLog then
    if w.prefs.logFile = [] then (w.modLive fun l => { l with logFile := none }, 0)
    else if w.ask.ok then
      (w.asked.modLive fun l => { l with logFile := some w.prefs.logFile }, 0)
    else (w.asked.modLive fun l => { l with logFile := none }, recfgLog)
  else (w, 0)

/-- `SELECTORS`: the table only grows. -/
def applySelectors (w : World) (live : Nat) : World × Nat :=
  if inMask live recfgSelectors then
    let want := if w.prefs.selectors > 0 then w.prefs.selectors else maxSelectors
    if w.selectors.length < want then
      (tnSelectorTableGrow w want, if w.ask.ok then 0 else recfgSelectors)
    else (w, 0)
  else (w, 0)

/-- `STATS`: the counters that only count up are set to zero. -/
def applyStats (w : World) (live : Nat) : World :=
  if inMask live recfgStats then
    w.modLive fun l =>
      { l with stats := { statsEnabled := w.prefs.stats, statsTickBase := w.mainloopTicks } }
  else w

/-- `tn_syslog_apply`. A dotted quad is a target at once (`ask.ok` says whether `ip4addr_aton`
accepts it), a name is given to lwIP's resolver. -/
def tnSyslogApply (w : World) (host : List Char) : World × Bool :=
  let setLog := fun (w : World) (f : TnSyslog → TnSyslog) =>
    w.modLive fun l => { l with syslog := f l.syslog }
  if host = [] then
    (setLog w fun s => { s with pcb := false, armed := false, host := [] }, true)
  else if !w.live.syslog.pcb && !w.ask.ok then (w.asked, false)
  else
    let w := if w.live.syslog.pcb then w else setLog w.asked fun s => { s with pcb := true }
    let w := setLog w fun s => { s with host := tnStrCopyClean host 48 }
    let a := w.ask
    let w := w.asked
    if a.ok then (setLog w fun s => { s with dst := a.addr, armed := true }, true)
    else
      let w := setLog w fun s => { s with armed := false }
      let a := w.ask
      let w := w.asked
      if a.err = .ok then (setLog w fun s => { s with dst := a.addr, armed := true }, true)
      else (w, a.err == .inprogress)

/-- `SYSLOG`. -/
def applySyslog (w : World) (live : Nat) : World × Nat :=
  if inMask live recfgSyslog then
    match tnSyslogApply w w.prefs.syslogHost with
    | (w, true) => (w, 0)
    | (w, false) => (w, recfgSyslog)
  else (w, 0)

/-- A configured name server, if its text is an address. -/
def applyServer (w : World) (n : Nat) (server : List Char) : World :=
  if server = [] then w
  else if w.ask.ok then
    w.asked.modLive fun l => { l with dnsServer := Function.update l.dnsServer n w.ask.addr }
  else w.asked

/-- The host name of the primary interface; a running mDNS responder is renamed. -/
def applyHostname (w : World) : World :=
  if w.prefs.hostname = [] then w
  else
    w.modLive fun l =>
      { l with hostnameSet := true,
               mdnsName := if w.prefs.mdns ≠ 0 ∧ l.mdnsActive then w.prefs.hostname
                 else l.mdnsName }

/-- The MTU of the primary interface, which is only ever lowered. -/
def applyMtu (w : World) : World :=
  let mtu := w.prefs.mtu
  if 576 ≤ mtu ∧ mtu ≤ 1500 ∧ w.live.ifMtu ≠ 0 ∧ mtu < w.live.ifMtu then
    w.modLive fun l => { l with ifMtu := mtu }
  else w

/-- `tn_apply_live_config`. -/
def tnApplyLiveConfig (w : World) : World :=
  let w := if w.prefs.dnsPort ≠ 0 then
    w.modLive fun l => { l with dnsDestPort := w.prefs.dnsPort % 2 ^ 16 } else w
  let w := applyServer w 0 w.prefs.dnsServer
  let w := applyServer w 1 w.prefs.dns2
  applyMtu (applyHostname w)

/-- `sizeof(TnReconfigResponse)` and `TN_RECFG_VERSION`. -/
def sizeofReconfigResponse : Nat := 16
def recfgVersion : Nat := 1

/-- The masks go into the message and, when the client gave a buffer for it, into a
`TnReconfigResponse`. -/
def reconfigReply (w : World) (m : MsgId) (applied restart failed : Nat) : World :=
  let w := w.modMsg m fun x =>
    { x with args := fun k => if k = 0 then applied else if k = 1 then restart
               else if k = 2 then failed else x.args k }
  match (w.msgs m).ptrs 0 with
  | .null => w
  | _ =>
    if (w.msgs m).args 4 ≥ sizeofReconfigResponse then
      w.store m 0 0 (bytes16 sizeofReconfigResponse ++ bytes16 recfgVersion ++ bytes32 applied ++
        bytes32 restart ++ bytes32 failed)
    else w

/-- The settings of the `live` mask are put in force; the second component is the mask of those
that failed. -/
def applyLive (w : World) (live : Nat) : World × Nat :=
  let w := applyPriority (applyLoglevel w live) live
  let (w, failedLog) := applyLog w live
  let (w, failedSel) := applySelectors w live
  let w := applyStats w live
  let (w, failedSyslog) := applySyslog w live
  (tnApplyLiveConfig w, failedLog ||| failedSel ||| failedSyslog)

/-- `tn_ipc_cmd_reconfig`. -/
def tnIpcCmdReconfig (w : World) (m : MsgId) : World × TnIpcReplyAction :=
  let old := w.prefs
  let (prefs, loaded) := tnPrefsLoad w.ask.junk w.ask.stores w.prefs
  let w : World := { w.asked with prefs := prefs }
  let (restart, live) := tnRecfgDiff old prefs
  let (w, failed) := applyLive w live
  let w := reconfigReply w m (live &&& (0xFFFFFFFF ^^^ failed)) restart failed
  if loaded then done w m 0 .ok else fail w m .enoent

end Tolunnet
