import Tolunnet.Task.Callbacks

/-!
# `Tolunnet.Task.Netdb`: deferred name lookups

`ipc_netdb.c`: `GETHOSTBYNAME`, which parks the message in a DNS record while lwIP asks the
server, and the cancellation of a closing base's records. The callback that finishes a record
is `tnDnsFoundCb`.
-/

set_option autoImplicit false

namespace Tolunnet

open World

/-- One turn of `tn_dns_cancel_for_base2`. -/
def dnsCancelAt (b : BaseId) (reply : Bool) (w : World) (k : Fin 8) : World :=
  let rec' := w.dnsPending k
  if rec'.inUse && rec'.base == some b then
    let w := clearDns w k
    match rec'.imsg with
    | none => w
    | some m =>
      let w := w.setReply m 0 .econnaborted
      if reply then w.replyMsg m else w
  else w

/-- `tn_dns_cancel_for_base2`. -/
def tnDnsCancelForBase2 (w : World) (b : BaseId) (reply : Bool) : World :=
  (List.finRange 8).foldl (dnsCancelAt b reply) w

/-- The part of the record table that `DNS_PENDING` leaves in use. -/
def dnsEff (w : World) : Nat :=
  if 0 < w.prefs.dnsPendingMax ∧ w.prefs.dnsPendingMax ≤ dnsPendingMax then
    w.prefs.dnsPendingMax else dnsPendingMax

/-- The registering statements of `GETHOSTBYNAME`. -/
def registerDns (w : World) (k : Fin 8) (m : MsgId) (b : BaseId) (hostname : List Char) :
    World :=
  { w with dnsPending := Function.update w.dnsPending k
             { inUse := true, imsg := some m, base := some b, name := hostname.take 63,
               tick := w.mainloopTicks },
           dnsPendingCount := if w.dnsPendingCount < dnsPendingMax then w.dnsPendingCount + 1
             else w.dnsPendingCount }

/-- `GETHOSTBYNAME` after lwIP answered `ERR_INPROGRESS`. -/
def deferDns (w : World) (m : MsgId) (b : BaseId) (hostname : List Char) :
    World × TnIpcReplyAction :=
  let eff := (List.finRange 8).filter fun k => decide (k.val < dnsEff w)
  if eff.any fun k => (w.dnsPending k).inUse && (w.dnsPending k).name == hostname then
    done w m 0 .ewouldblock
  else
    match eff.find? fun k => !(w.dnsPending k).inUse with
    | some k => (registerDns w k m b hostname, .defer)
    | none => done w m 0 .ewouldblock

/-- `tn_ipc_cmd_gethostbyname`. A numeric name is resolved at once (`ask.ok` says whether
`ip4addr_aton` accepts it), any other one by lwIP's resolver. -/
def tnIpcCmdGethostbyname (w : World) (m : MsgId) : World × TnIpcReplyAction :=
  let x := w.msgs m
  match x.socketBase, x.ptrs 0 with
  | some b, .str hostname =>
    if hostname = [] then done w m 0 .enoent
    else
      let a := w.ask
      let w := w.asked
      if a.ok ∨ a.err = .ok then
        done (tnIpcFillHostentNow w b hostname a.addr) m (hostentPtr b) .ok
      else if a.err = .inprogress then deferDns w m b hostname
      else done w m 0 .enoent
  | _, _ => done w m 0 .enoent

end Tolunnet
