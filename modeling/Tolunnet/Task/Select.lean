import Tolunnet.Task.Lwip

/-!
# `Tolunnet.Task.Select`: readiness, selectors and wakeups

`ipc_select.c`: the three readiness predicates, the selector table with its counter, and
`tn_signal_socket`, which every callback calls after it has changed a slot. The handlers of
`SELECT_ARM`, `SELECT_DISARM` and `WAITSELECT` are here too. `tn_record_socket_event` of
`slot_table.c` stands with them, since it is the other half of every wakeup.
-/

set_option autoImplicit false

namespace Tolunnet

open World

/-! ## Readiness -/

/-- `tn_select_can_read`. -/
def tnSelectCanRead (s : TnSocketSlot) : Bool :=
  s.inUse &&
    (!s.rx.isEmpty || s.tcpState == .peerClosed || s.tcpState == .error ||
      (s.tcpState == .listening && !s.acceptQ.isEmpty))

/-- `tcp_sndbuf(pcb) > 0 && tcp_sndqueuelen(pcb) < TCP_SND_QUEUELEN`. -/
def sndSpace (c : Option TcpPcb) : Bool :=
  match c with
  | some c => decide (0 < c.sndBuf) && decide (c.sndQueuelen < tcpSndQueuelen)
  | none => false

/-- `tn_select_can_write`. -/
def tnSelectCanWrite (w : World) (s : TnSocketSlot) : Bool :=
  s.inUse &&
    (s.tcpState == .error || s.type == sockDgram || s.type == sockRaw ||
      ((s.tcpState == .established || s.tcpState == .peerClosed) &&
        (s.shutWr ||
          match s.tcpPcb with
          | none => false
          | some p => (s.pending .send).isNone && sndSpace (w.tcpPcbs p))))

/-- `tn_select_has_except`. -/
def tnSelectHasExcept (s : TnSocketSlot) : Bool :=
  s.inUse && (s.tcpState == .error || s.lastError != .ok)

/-! ## The open-bases registry -/

/-- `tn_slot_owner_alive` and `tn_selector_base_alive`: the base is in the registry. -/
def tnSlotOwnerAlive (w : World) (b : BaseId) : Bool :=
  (List.finRange 16).any fun k => w.openBases k == some b

/-! ## Wakeups -/

/-- The number of selectors in use. -/
def selectorsInUse (l : List TnSelector) : Nat := l.countP (·.inUse)

/-- `tn_selector_count_resync`. -/
def tnSelectorCountResync (w : World) : World :=
  { w with selectorCount := selectorsInUse w.selectors, armedSinceResync := false }

/-- Writes entry `k` of the selector table. -/
def setSelector (w : World) (k : Nat) (s : TnSelector) : World :=
  { w with selectors := w.selectors.set k s }

/-- The three assignments that free an entry. -/
def TnSelector.disarm (s : TnSelector) : TnSelector :=
  { s with inUse := false, base := none, task := none }

/-- Whether bit `fd` of a two-word set is on. -/
def maskBit (lo hi : Nat) (fd : Nat) : Bool :=
  if fd ≥ 32 then hi.testBit (fd % 32) else lo.testBit (fd % 32)

/-- The wake scan of one armed entry: some descriptor of its set names slot `i` and is ready. -/
def selectorMatch (w : World) (sel : TnSelector) (b : BaseId) (i : SlotIdx) : Bool :=
  (List.range (min sel.nfds (w.bases b).dtablesize)).any fun fd =>
    (w.bases b).fdMap fd == some i &&
      ((maskBit sel.readMask sel.readMaskHi fd && tnSelectCanRead (w.sockets i)) ||
        (maskBit sel.writeMask sel.writeMaskHi fd && tnSelectCanWrite w (w.sockets i)) ||
        (maskBit sel.exceptMask sel.exceptMaskHi fd && tnSelectHasExcept (w.sockets i)))

/-- One turn of the selector loop of `tn_signal_socket`. -/
def signalSelector (i : SlotIdx) (w : World) (k : Nat) : World :=
  match w.selectors[k]? with
  | none => w
  | some sel =>
    match sel.inUse, sel.base, sel.task with
    | true, some b, some t =>
      if sel.sigSelect = 0 then w
      else if tnSlotOwnerAlive w b then
        if selectorMatch w sel b i then w.signal t sel.sigSelect else w
      else tnSelectorCountResync (setSelector w k sel.disarm)
    | _, _, _ => w

/-- The owner fields of a slot whose base has left the registry are cleared. -/
def dropStaleOwner (w : World) (i : SlotIdx) : World :=
  match (w.sockets i).ownerBase with
  | some b =>
    if tnSlotOwnerAlive w b then w
    else w.modSlot i fun s => { s with ownerBase := none, ownerTask := none }
  | none => w

/-- SIGIO delivery to the owner of the slot. -/
def signalOwner (w : World) (i : SlotIdx) : World :=
  match (w.sockets i).ownerTask, (w.sockets i).ownerBase with
  | some t, some b => if (w.bases b).sigIo ≠ 0 then w.signal t (w.bases b).sigIo else w
  | _, _ => w

/-- `tn_signal_socket`. -/
def tnSignalSocket (w : World) (i : SlotIdx) : World :=
  if (w.sockets i).inUse then
    let s := w.sockets i
    let w := w.emit (.signalSocket i (tnSelectCanRead s) (tnSelectCanWrite w s)
      (tnSelectHasExcept s))
    let w := signalOwner (dropStaleOwner w i) i
    if w.selectorCount = 0 then w
    else (List.range w.selectors.length).foldl (signalSelector i) w
  else w

/-- `tn_record_socket_event`: the events of every descriptor of the owner that names the
slot, gated by the descriptor's event mask. -/
def tnRecordSocketEvent (w : World) (i : SlotIdx) (eventMask : Nat) : World :=
  let s := w.sockets i
  if s.inUse then
    match s.ownerBase with
    | none => w
    | some b =>
      if tnSlotOwnerAlive w b then
        let base := w.bases b
        let effective := fun fd => eventMask &&& base.eventMasks fd
        let posted := (List.range base.dtablesize).any fun fd =>
          base.fdMap fd == some i && effective fd != 0
        let w := (w.modBase b fun base =>
          { base with events := fun fd =>
              if fd < base.dtablesize ∧ base.fdMap fd = some i then
                base.events fd ||| effective fd
              else base.events fd }).out (.event b i eventMask)
        match posted && base.sigEvent != 0, s.ownerTask with
        | true, some t => w.signal t base.sigEvent
        | _, _ => w
      else w.modSlot i fun s => { s with ownerBase := none, ownerTask := none }
  else w

/-! ## Slot lookup -/

/-- `tn_slot_lookup`. -/
def tnSlotLookup (w : World) (base : Option BaseId) (fd : Int) : Option SlotIdx :=
  match base with
  | none => none
  | some b =>
    if fd < 0 ∨ fd ≥ (w.bases b).dtablesize then none
    else
      match (w.bases b).fdMap fd.toNat with
      | none => none
      | some i => if (w.sockets i).inUse then some i else none

/-! ## `WAITSELECT` and `SELECT_ARM` -/

/-- `tn_select_clamp_nfds`. -/
def tnSelectClampNfds (w : World) (b : BaseId) (nfds : Nat) : Nat :=
  min (min nfds 64) (w.bases b).dtablesize

/-- Word `k` of a client fd_set, 0 for a `NULL` pointer. -/
def tnFdsetWordGet (p : Ptr) (k : Nat) : Nat :=
  match p with
  | .mem f => be32 f (4 * k)
  | _ => 0

/-- The three two-word sets of a select call. -/
structure SelSets where
  r : Nat × Nat
  w : Nat × Nat
  e : Nat × Nat

/-- The result sets and the number of ready descriptors, as the scan builds them. -/
structure SelResult where
  r : Nat × Nat := (0, 0)
  w : Nat × Nat := (0, 0)
  e : Nat × Nat := (0, 0)
  readyCnt : Nat := 0

/-- Sets bit `fd` of a two-word result set. -/
def putBit (set : Nat × Nat) (fd : Nat) : Nat × Nat :=
  if fd ≥ 32 then (set.1, set.2 ||| 2 ^ (fd % 32)) else (set.1 ||| 2 ^ (fd % 32), set.2)

/-- One descriptor of the scan of `tn_ipc_cmd_waitselect`; `none` is the `EBADF` exit. -/
def selectScanFd (w : World) (b : BaseId) (q : SelSets) (acc : SelResult) (fd : Nat) :
    Option SelResult :=
  let inR := maskBit q.r.1 q.r.2 fd
  let inW := maskBit q.w.1 q.w.2 fd
  let inE := maskBit q.e.1 q.e.2 fd
  if inR || inW || inE then
    match tnSlotLookup w (some b) fd with
    | none => none
    | some i =>
      let s := w.sockets i
      let acc := if inR && tnSelectCanRead s then
        { acc with r := putBit acc.r fd, readyCnt := acc.readyCnt + 1 } else acc
      let acc := if inW && tnSelectCanWrite w s then
        { acc with w := putBit acc.w fd, readyCnt := acc.readyCnt + 1 } else acc
      let acc := if inE && tnSelectHasExcept s then
        { acc with e := putBit acc.e fd, readyCnt := acc.readyCnt + 1 } else acc
      some acc
  else some acc

/-- The scan of `tn_ipc_cmd_waitselect` over descriptors `0 .. nfds`. -/
def selectScan (w : World) (b : BaseId) (q : SelSets) (nfds : Nat) : Option SelResult :=
  (List.range nfds).foldlM (selectScanFd w b q) {}

/-- `tn_fdset_put_result` for the set behind pointer `k`. -/
def tnFdsetPutResult (w : World) (m : MsgId) (k : Nat) (set : Nat × Nat) (nfds : Nat) : World :=
  match (w.msgs m).ptrs k with
  | .mem _ =>
    let w := w.store m k 0 (bytes32 set.1)
    if nfds > 32 then w.store m k 4 (bytes32 set.2) else w
  | _ => w

/-- The first word that `tn_fdset_put_result` leaves alone. -/
def firstTailWord (nfds : Nat) : Nat := if nfds > 32 then 2 else 1

/-- The number of words that `nfds` descriptors take: `(req_nfds + 31) / 32` on a LONG, at most a
default fd_set. The sum can overflow. -/
def tailWords (reqNfds : Nat) : Nat :=
  (min ((toLong ((reqNfds + 31) % 2 ^ 32)).tdiv 32) 8).toNat

/-- `tn_select_clear_tail` for the set behind pointer `k`. -/
def tnSelectClearTail (w : World) (m : MsgId) (k : Nat) (nfds reqNfds : Nat) : World :=
  match (w.msgs m).ptrs k with
  | .mem _ =>
    (List.range (tailWords reqNfds)).foldl
      (fun w word => if firstTailWord nfds ≤ word then w.store m k (4 * word) (bytes32 0) else w) w
  | _ => w

/-- The result words of all three sets, then the words behind them. -/
def putResults (w : World) (m : MsgId) (res : SelResult) (nfds reqNfds : Nat) : World :=
  let w := tnFdsetPutResult w m 0 res.r nfds
  let w := tnFdsetPutResult w m 1 res.w nfds
  let w := tnFdsetPutResult w m 2 res.e nfds
  let w := tnSelectClearTail w m 0 nfds reqNfds
  let w := tnSelectClearTail w m 1 nfds reqNfds
  tnSelectClearTail w m 2 nfds reqNfds

/-- The high word of a set, read only when more than 32 descriptors are scanned. -/
def hiWord (p : Ptr) (nfds : Nat) : Nat := if nfds > 32 then tnFdsetWordGet p 1 else 0

/-- The entry `SELECT_ARM` uses: the base's own, else the first free one. -/
def findSelector (l : List TnSelector) (b : BaseId) : Option Nat :=
  match l.findIdx? (fun s => s.inUse && s.base == some b) with
  | some k => some k
  | none => l.findIdx? (fun s => !s.inUse)

/-- The arming statements of `SELECT_ARM` on entry `k`. -/
def armSelector (w : World) (k : Nat) (sel : TnSelector) : World :=
  let fresh := match w.selectors[k]? with
    | some s => !s.inUse
    | none => false
  let w := if fresh then { w with selectorCount := w.selectorCount + 1 } else w
  let w := tnSelectorCountResync w
  { setSelector w k sel with armedSinceResync := fresh }

/-- One descriptor of the scan of `tn_ipc_cmd_select_arm`, which has a branch for each of the two
words; `none` is the `EBADF` exit. -/
def armScanFd (w : World) (b : BaseId) (q : SelSets) (acc : SelResult) (fd : Nat) :
    Option SelResult :=
  if fd < 32 then
    let bit := fd % 32
    if (q.r.1 ||| q.w.1 ||| q.e.1).testBit bit then
      match tnSlotLookup w (some b) fd with
      | none => none
      | some i =>
        let s := w.sockets i
        let acc := if q.r.1.testBit bit && tnSelectCanRead s then
          { acc with r := (acc.r.1 ||| 2 ^ bit, acc.r.2), readyCnt := acc.readyCnt + 1 } else acc
        let acc := if q.w.1.testBit bit && tnSelectCanWrite w s then
          { acc with w := (acc.w.1 ||| 2 ^ bit, acc.w.2), readyCnt := acc.readyCnt + 1 } else acc
        let acc := if q.e.1.testBit bit && tnSelectHasExcept s then
          { acc with e := (acc.e.1 ||| 2 ^ bit, acc.e.2), readyCnt := acc.readyCnt + 1 } else acc
        some acc
    else some acc
  else
    let bit := (fd - 32) % 32
    if (q.r.2 ||| q.w.2 ||| q.e.2).testBit bit then
      match tnSlotLookup w (some b) fd with
      | none => none
      | some i =>
        let s := w.sockets i
        let acc := if q.r.2.testBit bit && tnSelectCanRead s then
          { acc with r := (acc.r.1, acc.r.2 ||| 2 ^ bit), readyCnt := acc.readyCnt + 1 } else acc
        let acc := if q.w.2.testBit bit && tnSelectCanWrite w s then
          { acc with w := (acc.w.1, acc.w.2 ||| 2 ^ bit), readyCnt := acc.readyCnt + 1 } else acc
        let acc := if q.e.2.testBit bit && tnSelectHasExcept s then
          { acc with e := (acc.e.1, acc.e.2 ||| 2 ^ bit), readyCnt := acc.readyCnt + 1 } else acc
        some acc
    else some acc

/-- The scan of `tn_ipc_cmd_select_arm` over descriptors `0 .. nfds`. -/
def armScan (w : World) (b : BaseId) (q : SelSets) (nfds : Nat) : Option SelResult :=
  (List.range nfds).foldlM (armScanFd w b q) {}

/-- `tn_ipc_cmd_select_arm`. The low words of the sets come in the arguments, the high words are
read through the pointers. -/
def tnIpcCmdSelectArm (w : World) (m : MsgId) : World × TnIpcReplyAction :=
  let x := w.msgs m
  match x.socketBase with
  | none => fail w m .einval
  | some b =>
    if w.selectors = [] then fail w m .enobufs
    else if x.args 0 < 0 then fail w m .einval
    else
      let reqNfds := (x.args 0).toNat
      let nfds := tnSelectClampNfds w b reqNfds
      let word := fun k => (x.args k % 2 ^ 32).toNat
      let q : SelSets :=
        { r := (word 1, hiWord (x.ptrs 0) nfds), w := (word 2, hiWord (x.ptrs 1) nfds),
          e := (word 3, hiWord (x.ptrs 2) nfds) }
      match armScan w b q nfds with
      | none => fail w m .ebadf
      | some res =>
        if res.readyCnt > 0 then
          done (putResults w m res nfds reqNfds) m res.readyCnt .ok
        else
          match findSelector w.selectors b with
          | none => fail w m .enobufs
          | some k =>
            let sel : TnSelector :=
              { inUse := true, base := some b, task := some x.clientTask,
                sigSelect := (w.bases b).sigSelect, nfds := nfds, readMask := q.r.1,
                writeMask := q.w.1, exceptMask := q.e.1, readMaskHi := q.r.2,
                writeMaskHi := q.w.2, exceptMaskHi := q.e.2 }
            done (armSelector w k sel) m 0 .ok

/-- `if (d->selector_count > 0) d->selector_count--;` -/
def decSelectorCount (w : World) : World := { w with selectorCount := w.selectorCount - 1 }

/-- Whether entry `k` is armed for base `b`. -/
def selectorOf (w : World) (b : BaseId) (k : Nat) : Option TnSelector :=
  (w.selectors[k]?).filter fun s => s.inUse && s.base == some b

/-- One turn of `tn_ipc_cmd_select_disarm`: the count is recomputed after each entry. -/
def disarmSelector (b : BaseId) (w : World) (k : Nat) : World :=
  match selectorOf w b k with
  | some s => tnSelectorCountResync (decSelectorCount (setSelector w k s.disarm))
  | none => w

/-- `tn_ipc_cmd_select_disarm`. -/
def tnIpcCmdSelectDisarm (w : World) (m : MsgId) : World × TnIpcReplyAction :=
  match (w.msgs m).socketBase with
  | none => done w m 0 .ok
  | some b => done ((List.range w.selectors.length).foldl (disarmSelector b) w) m 0 .ok

/-- One turn of `tn_selector_disarm_all_for_base`: the count is only decremented. -/
def disarmSelectorForBase (b : BaseId) (w : World) (k : Nat) : World :=
  match selectorOf w b k with
  | some s => decSelectorCount (setSelector w k s.disarm)
  | none => w

/-- `tn_selector_disarm_all_for_base`. -/
def tnSelectorDisarmAllForBase (w : World) (b : BaseId) : World :=
  (List.range w.selectors.length).foldl (disarmSelectorForBase b) w

/-- `tn_selector_table_grow`: never past 128 entries, the old ones kept. -/
def tnSelectorTableGrow (w : World) (newMax : Nat) : World :=
  if newMax ≤ w.selectors.length then w
  else if w.ask.ok then
    let newMax := min newMax 128
    let kept := w.selectors.take newMax
    { w.asked with selectors := kept ++ List.replicate (newMax - kept.length) {} }
  else w.asked

/-- `tn_ipc_cmd_waitselect`. -/
def tnIpcCmdWaitselect (w : World) (m : MsgId) : World × TnIpcReplyAction :=
  let x := w.msgs m
  match x.socketBase with
  | none => fail w m .einval
  | some b =>
    if x.args 0 < 0 then fail w m .einval
    else
      let reqNfds := (x.args 0).toNat
      let nfds := tnSelectClampNfds w b reqNfds
      let q : SelSets :=
        { r := (tnFdsetWordGet (x.ptrs 0) 0, hiWord (x.ptrs 0) nfds),
          w := (tnFdsetWordGet (x.ptrs 1) 0, hiWord (x.ptrs 1) nfds),
          e := (tnFdsetWordGet (x.ptrs 2) 0, hiWord (x.ptrs 2) nfds) }
      match selectScan w b q nfds with
      | none => fail w m .ebadf
      | some res => done (putResults w m res nfds reqNfds) m res.readyCnt .ok

end Tolunnet
