import Tolunnet.Sana2.Exec

/-!
# `Tolunnet.Sana2.Netif`: the SANA-II interface

The request pools of `sana2_netif.c`: the TX pool, the reads and the link events, from the calls that
set them up to `tn_s2_offline_close`. Statistics and the log are left out, and so is what a frame says
apart from its header fields.

A callback of lwIP may send frames (`lwip`). A loop over the slots of a pool is a fold over their
numbers, or a recursion over the slots that are left when it can end early.
-/

set_option autoImplicit false

namespace Tolunnet

namespace Sana2

/-- The fields that a write sets. -/
def IOSana2Req.forFrame (r : IOSana2Req) (f : Frame) (data : Buf) : IOSana2Req :=
  { r with
    ioCommand := if f.broadcast then .broadcast else .write
    packetType := f.packetType
    dataLength := f.len
    data
    ioError := 0
    dstAddr := if f.broadcast then r.dstAddr else f.dstAddr.getD r.dstAddr }

/-- The fields that arm a read again. -/
def IOSana2Req.reread (r : IOSana2Req) (mtu : Nat) : IOSana2Req :=
  { r with ioCommand := .read, dataLength := max (mtu + 32) 1600, ioError := 0 }

namespace Machine

/-! ## Sending -/

/-- The slot of `tx_ios` that a message is. -/
def txSlot? (nif : TnSana2If) (msg : Req) : Option Nat :=
  (List.range nif.nTxIos).find? fun i => nif.txIo i && msg == .tx i

/-- The loop of `tn_s2_tx_drain`. -/
def txDrainLoop : Nat → Machine → Machine
  | 0, m => m
  | turns + 1, m =>
    match m.getMsg .tx with
    | (none, m) => m
    | (some msg, m) =>
      match txSlot? m.nif msg with
      | none => txDrainLoop turns m
      | some i => txDrainLoop turns <| m.put fun nif =>
          { nif with txBusy := Function.update nif.txBusy i false, txPending := false }

/-- `tn_s2_tx_drain`. -/
def tnS2TxDrain (m : Machine) : Machine :=
  if m.nif.txIos = false then m else txDrainLoop (m.turns .tx) m

/-- The first slot that is not in flight. -/
def freeSlot? (nif : TnSana2If) : Option Nat :=
  (List.range nif.nTxIos).find? fun i => !nif.txBusy i

/-- The loop of `tn_s2_send` that waits for a slot. Without one at its end the call still waits. -/
def awaitSlot : Nat → Machine → Option Nat × Machine
  | turns, m =>
    match freeSlot? m.nif with
    | some slot => (some slot, m)
    | none =>
      match turns with
      | 0 => (none, m)
      | turns + 1 => awaitSlot turns m.waitPort.tnS2TxDrain

/-- `tn_s2_send`; nothing is returned while the call waits for a slot. -/
def tnS2Send (m : Machine) (f : Frame) : Option Int × Machine :=
  if m.nif.online = false ∨ m.nif.io = false then (some (-1), m)
  else if m.nif.txIos then
    match awaitSlot (m.moves.length + 1) m.tnS2TxDrain with
    | (none, m) => (none, m)
    | (some slot, m) =>
      let m := m.touch (.tx slot)
      let m := m.write (.tx slot) (·.forFrame f (.tx slot))
      let m := m.put fun nif =>
        { nif with txBusy := Function.update nif.txBusy slot true, txPending := true }
      (some f.len, m.sendIo (.tx slot))
  else
    let m := m.write .io (·.forFrame f .caller)
    let m := m.doIo .io
    if (m.req .io).ioError ≠ 0 then (some (-1), m) else (some f.len, m)

/-- A callback of lwIP, with the frames that it sends. -/
def lwip (m : Machine) : Machine :=
  match m.frames with
  | [] => m
  | now :: frames => now.foldl (fun m f => (m.tnS2Send f).2) { m with frames }

/-! ## The TX pool -/

/-- Takes a request back that may be in flight. -/
def retire (m : Machine) (r : Req) : Machine :=
  let (done, m) := m.checkIo r
  let m := if done then m else m.abortIo r
  m.waitIo r

/-- The end of a slot's request. -/
def freeTxIo (m : Machine) (k : Nat) : Machine :=
  if m.nif.txIo k then
    (m.touch (.tx k)).put fun nif => { nif with txIo := Function.update nif.txIo k false }
  else m

/-- The end of a slot's buffer. -/
def freeTxBuf (m : Machine) (k : Nat) : Machine :=
  if m.nif.txBufs k then
    (m.touch (.tx k)).put fun nif => { nif with txBufs := Function.update nif.txBufs k false }
  else m

/-- The end of the first `slots` slots and of the pool. -/
def freePool (m : Machine) (slots : Nat) : Machine :=
  ((List.range slots).foldl (fun m k => (m.freeTxIo k).freeTxBuf k) m).put fun nif =>
    { nif with txIos := false, txIo := fun _ => false, txBusy := fun _ => false, nTxIos := 0 }

/-- The loop of `tn_s2_tx_init`, from slot `i` on. -/
def txInitLoop (i : Nat) : Nat → Machine → TnS2Result × Machine
  | 0, m => (.ok, m)
  | left + 1, m =>
    match m.alloc with
    | (false, m) => (.noMem, m.freePool (i + 1))
    | (true, m) =>
      let m := m.write (.tx i) fun _ => {}
      let m := m.put fun nif => { nif with txIo := Function.update nif.txIo i true }
      match m.alloc with
      | (false, m) => (.noMem, m.freePool (i + 1))
      | (true, m) =>
        let m := m.put fun nif => { nif with txBufs := Function.update nif.txBufs i true }
        txInitLoop (i + 1) left m

/-- `tn_s2_tx_init`. It reads through `nif->io`, which its caller has opened. -/
def tnS2TxInit (m : Machine) (count : Nat) : TnS2Result × Machine :=
  let count := if count = 0 ∨ count > 8 then 4 else count
  if m.nif.txIos then (.ok, m)
  else
    let (ios, m) := m.alloc
    let (busy, m) := m.alloc
    if ios = false ∨ busy = false then (.noMem, m)
    else
      txInitLoop 0 count <| m.put fun nif =>
        { nif with
          txIos := true
          txIo := fun _ => false
          txBusy := fun _ => false
          nTxIos := count }

/-- Takes a slot's request back. -/
def retireTx (m : Machine) (i : Nat) : Machine :=
  if m.nif.txIo i && m.nif.txBusy i then
    (m.retire (.tx i)).put fun nif => { nif with txBusy := Function.update nif.txBusy i false }
  else m

/-- `tn_s2_tx_abort_all`. -/
def tnS2TxAbortAll (m : Machine) : Machine :=
  if m.nif.txIos = false then m
  else
    let m := (List.range m.nif.nTxIos).foldl retireTx m
    let m := m.tnS2TxDrain
    (m.freePool m.nif.nTxIos).put fun nif => { nif with txPending := false }

/-! ## Reads -/

/-- The end of a slot's buffer. -/
def freeReadBuf (m : Machine) (k : Nat) : Machine :=
  if m.nif.readBufs k then
    (m.touch (.read k)).put fun nif => { nif with readBufs := Function.update nif.readBufs k false }
  else m

/-- The end of a slot's request. -/
def freeReadIo (m : Machine) (k : Nat) : Machine :=
  (m.touch (.read k)).put fun nif => { nif with readIo := Function.update nif.readIo k false }

/-- The end of the pool. -/
def freeReads (m : Machine) : Machine :=
  m.put fun nif => { nif with readIos := false, readIo := fun _ => false, nReadIos := 0 }

/-- The unwinding of one slot in `tn_s2_arm_reads`. -/
def unwindRead (m : Machine) (k : Nat) : Machine :=
  let m := if m.nif.readArmed k then
      ((m.abortIo (.read k)).waitIo (.read k)).put fun nif =>
        { nif with readArmed := Function.update nif.readArmed k false }
    else m
  (m.freeReadBuf k).freeReadIo k

/-- The unwinding of the first slots in `tn_s2_arm_reads`. -/
def unwindReads (m : Machine) (slots : Nat) : Machine :=
  ((List.range slots).foldl unwindRead m).freeReads

/-- A new request with its buffer goes out for the first time. -/
def armRead (m : Machine) (i : Nat) : Machine :=
  let m := m.write (.read i) fun _ =>
    { ioCommand := .read
      data := .read i
      dataLength := max (m.nif.mtu + 32) 1600
      packetType := if i % 2 = 0 then ethertypeIpv4 else ethertypeArp }
  let m := m.put fun nif =>
    { nif with
      readIo := Function.update nif.readIo i true
      readBufs := Function.update nif.readBufs i true }
  let m := m.sendIo (.read i)
  m.put fun nif => { nif with readArmed := Function.update nif.readArmed i true }

/-- The loop of `tn_s2_arm_reads`, from slot `i` on. -/
def armReadsLoop (i : Nat) : Nat → Machine → TnS2Result × Machine
  | 0, m => (.ok, m)
  | left + 1, m =>
    match m.alloc with
    | (false, m) => (.noMem, m.unwindReads i)
    | (true, m) =>
      match m.alloc with
      | (false, m) => (.noMem, (m.touch (.read i)).unwindReads i)
      | (true, m) => armReadsLoop (i + 1) left (m.armRead i)

/-- `tn_s2_arm_reads`. -/
def tnS2ArmReads (m : Machine) : TnS2Result × Machine :=
  if m.nif.online = false then (.internal, m)
  else if m.nif.readIos then (.ok, m)
  else
    match m.alloc with
    | (false, m) => (.noMem, m)
    | (true, m) =>
      armReadsLoop 0 4 <| m.put fun nif =>
        { nif with readIos := true, readIo := fun _ => false, nReadIos := 4 }

/-- Arms a read again, unless it is armed. -/
def rearmRead (m : Machine) (i : Nat) : Machine :=
  if m.nif.readIo i && !m.nif.readArmed i then
    ((m.write (.read i) (·.reread m.nif.mtu)).sendIo (.read i)).put fun nif =>
      { nif with readArmed := Function.update nif.readArmed i true }
  else m

/-- `tn_s2_rearm_reads`. -/
def tnS2RearmReads (m : Machine) : Machine :=
  if m.nif.linkDown then m else (List.range m.nif.nReadIos).foldl rearmRead m

/-! ## Link events -/

/-- `S2EVENT_ONLINE` and `S2EVENT_OFFLINE`. -/
def s2eventOnline : Nat := 8
def s2eventOffline : Nat := 16

/-- `TN_S2_EVENT_BATCH`. -/
def eventBatch : Nat := 4

/-- The request for the next event. -/
def sendEvent (m : Machine) : Machine :=
  let m := m.write .event fun r =>
    { r with ioCommand := .onevent, wireError := m.nif.eventMask, ioError := 0 }
  (m.sendIo .event).put fun nif => { nif with eventArmed := true }

/-- `tn_s2_arm_events`. -/
def tnS2ArmEvents (m : Machine) (mask : Nat) : TnS2Result × Machine :=
  if m.nif.io = false ∨ m.nif.online = false then (.internal, m)
  else if m.nif.eventIo then (.ok, m)
  else if m.nif.txIos then (.ok, m)
  else
    match m.alloc with
    | (false, m) => (.noMem, m)
    | (true, m) =>
      match m.alloc with
      | (false, m) => (.noMem, m)
      | (true, m) =>
        let m := m.write .event fun _ => {}
        let m := m.put fun nif =>
          { nif with
            eventPort := true
            eventIo := true
            eventMask := if mask = 0 then s2eventOnline ||| s2eventOffline ||| 1 else mask
            eventSupported := true }
        (.ok, m.sendEvent)

/-- `tn_s2_handle_event_bits`; the count of error events is a statistic. -/
def tnS2HandleEventBits (m : Machine) (bits : Nat) : Machine :=
  let m := if bits &&& s2eventOffline ≠ 0 ∧ m.nif.linkDown = false then
      lwip { m.put fun nif => { nif with linkDown := true } with linkUp := false }
    else m
  if bits &&& s2eventOnline ≠ 0 ∧ m.nif.linkDown then
    let m := m.put fun nif => { nif with linkDown := false, txPending := false }
    let m := lwip { m with linkUp := true }
    -- a DHCP renewal, or `netif_set_up`
    m.tnS2RearmReads.lwip
  else m

/-- The event completion that has been taken. -/
def completion (m : Machine) (handled : Nat) : Completion where
  linkDown := m.nif.linkDown
  eventStrikes := m.nif.eventStrikes
  handled
  ioError := (m.req .event).ioError
  bits := (m.req .event).wireError

/-- The event request is not armed any more, and its completion is on record. -/
def takeEvent (m : Machine) (handled : Nat) : Machine :=
  { m.put fun nif => { nif with eventArmed := false } with
    taken := m.taken ++ [m.completion handled] }

/-- The loop of `tn_s2_poll_events`, with `handled` events behind it. -/
def pollEventsLoop (handled : Nat) : Nat → Machine → Machine
  | 0, m => m
  | turns + 1, m =>
    match m.getMsg .event with
    | (none, m) => m
    | (some _, m) =>
      let m := m.takeEvent handled
      if (m.req .event).ioError ≠ 0 then
        pollEventsLoop handled turns <| m.put fun nif => { nif with eventSupported := false }
      else
        let m := m.tnS2HandleEventBits (m.req .event).wireError
        if handled + 1 ≥ eventBatch then
          let m := m.put fun nif => { nif with eventStrikes := (nif.eventStrikes + 1) % 2 ^ 16 }
          if m.nif.eventStrikes ≥ 3 then m.put fun nif => { nif with eventSupported := false }
          else m.sendEvent
        else pollEventsLoop (handled + 1) turns m.sendEvent

/-- `tn_s2_poll_events`. -/
def tnS2PollEvents (m : Machine) : Machine :=
  if m.nif.eventPort = false then m else pollEventsLoop 0 (m.turns .event) m

/-! ## Receiving -/

/-- `ETH_PAD_SIZE` and `PBUF_POOL_BUFSIZE`. -/
def ethPadSize : Nat := 2
def pbufPoolBufsize : Nat := 1516

/-- Whether a received frame is passed on. -/
def validPacket (mtu : Nat) (r : IOSana2Req) : Bool :=
  let flen := r.dataLength
  let s := r.srcAddr
  !(decide (flen > mtu) || decide (flen > 1600 - 14) ||
      decide (flen + 14 + ethPadSize > pbufPoolBufsize)) &&
    (r.packetType == ethertypeIpv4 || r.packetType == ethertypeArp) &&
    !(s.headD 0 &&& 1 != 0 || (s.take 6).all (· == 0) || (s.take 6).all (· == 0xFF))

/-- The slot of `read_ios` that a message is. -/
def readSlot? (nif : TnSana2If) (msg : Req) : Option Nat :=
  (List.range nif.nReadIos).find? fun i => nif.readIo i && msg == .read i

/-- What a received frame does: whether the slot may be armed again. -/
def receive (m : Machine) (r : Req) : Bool × Machine :=
  if (m.req r).dataLength > 0 ∧ validPacket m.nif.mtu (m.req r) then
    match m.pbufs with
    | [] => (true, m)
    | .stuck :: pbufs => (false, { m with pbufs })
    | .single :: pbufs => (true, lwip { m with pbufs })
    | _ :: pbufs => (true, { m with pbufs })
  else (true, m)

/-- The loop of `tn_sana2_poll_input`. -/
def pollInputLoop : Nat → Machine → Machine
  | 0, m => m
  | turns + 1, m =>
    match m.getMsg .rx with
    | (none, m) => m
    | (some rio, m) =>
      let slot := readSlot? m.nif rio
      let armed := fun (m : Machine) (b : Bool) =>
        match slot with
        | none => m
        | some i => m.put fun nif => { nif with readArmed := Function.update nif.readArmed i b }
      let m := armed m false
      if (m.req rio).ioError ≠ 0 then pollInputLoop turns m
      else
        let (goOn, m) := m.receive rio
        if goOn = true ∧ m.nif.linkDown = false then
          let m := m.write rio (·.reread m.nif.mtu)
          pollInputLoop turns (armed (m.sendIo rio) true)
        else pollInputLoop turns m

/-- `tn_sana2_poll_input`. -/
def tnSana2PollInput (m : Machine) : Machine :=
  if m.nif.rxPort = false then m else pollInputLoop (m.turns .rx) m

/-! ## Closing -/

/-- `while (GetMsg(port)) {}`. -/
def emptyPort (p : Port) : Nat → Machine → Machine
  | 0, m => m
  | turns + 1, m =>
    match m.getMsg p with
    | (none, m) => m
    | (some _, m) => emptyPort p turns m

/-- The end of one read in `tn_s2_offline_close`. -/
def closeRead (m : Machine) (i : Nat) : Machine :=
  if m.nif.readIo i then
    let m := if m.nif.readArmed i then
        (m.retire (.read i)).put fun nif =>
          { nif with readArmed := Function.update nif.readArmed i false }
      else m
    (m.freeReadBuf i).freeReadIo i
  else m

/-- The end of the event request and its port. -/
def closeEvents (m : Machine) : Machine :=
  let m := if m.nif.eventIo then
      let m := if m.nif.eventArmed then
          (m.retire .event).put fun nif => { nif with eventArmed := false }
        else m
      (m.touch .event).put fun nif => { nif with eventIo := false }
    else m
  if m.nif.eventPort then
    (emptyPort .event (m.turns .event) m).put fun nif => { nif with eventPort := false }
  else m

/-- A command to the device through `nif->io`. -/
def command (m : Machine) (f : IOSana2Req → IOSana2Req) : Machine := (m.write .io f).doIo .io

/-- `tn_s2_offline_close`. -/
def tnS2OfflineClose (m : Machine) : Machine :=
  let m := m.closeEvents
  let m := m.tnS2TxAbortAll
  let m := if m.nif.io ∧ m.nif.online then
      let m := m.command fun r => { r with ioCommand := .untracktype, packetType := ethertypeIpv4 }
      let m := m.command fun r => { r with ioCommand := .untracktype, packetType := ethertypeArp }
      let m := m.command fun r => { r with ioCommand := .offline, ioError := 0 }
      m.put fun nif => { nif with online := false }
    else m
  let m := if m.nif.readIos then ((List.range m.nif.nReadIos).foldl closeRead m).freeReads else m
  let m := if m.nif.io then (m.touch .io).put fun nif => { nif with io := false } else m
  let m := if m.nif.rxPort then
      (emptyPort .rx (m.turns .rx) m).put fun nif => { nif with rxPort := false }
    else m
  if m.nif.txPort then
    (emptyPort .tx (m.turns .tx) m).put fun nif => { nif with txPort := false }
  else m

/-! ## Runs -/

/-- The calls of the daemon, and of lwIP for a frame. -/
inductive Call where
  | txInit (count : Nat)
  | txDrain
  | txAbortAll
  | send (f : Frame)
  | armReads
  | armEvents (mask : Nat)
  | rearmReads
  | pollEvents
  | pollInput
  | offlineClose

/-- One call. -/
def step (m : Machine) : Call → Machine
  | .txInit count => (m.tnS2TxInit count).2
  | .txDrain => m.tnS2TxDrain
  | .txAbortAll => m.tnS2TxAbortAll
  | .send f => (m.tnS2Send f).2
  | .armReads => m.tnS2ArmReads.2
  | .armEvents mask => (m.tnS2ArmEvents mask).2
  | .rearmReads => m.tnS2RearmReads
  | .pollEvents => m.tnS2PollEvents
  | .pollInput => m.tnSana2PollInput
  | .offlineClose => m.tnS2OfflineClose

/-- Calls one after the other. -/
def run (m : Machine) (calls : List Call) : Machine := calls.foldl step m

/-- What is still to come. -/
structure Fate where
  moves : List (List (Req × Reply))
  waits : List Reply
  allocs : List Bool
  frames : List (List Frame)
  pbufs : List Pbuf

/-- The interface when `tn_s2_open` and `tn_s2_online` are done. -/
def opened (mtu : Nat) (fate : Fate) : Machine where
  nif := {
    io := true
    online := true
    mtu
    txPort := true
    rxPort := true
    eventPort := false
    txPending := false
    txIos := false
    txIo := fun _ => false
    txBufs := fun _ => false
    txBusy := fun _ => false
    nTxIos := 0
    readIos := false
    readIo := fun _ => false
    readBufs := fun _ => false
    readArmed := fun _ => false
    nReadIos := 0
    eventIo := false
    eventMask := 0
    eventArmed := false
    eventSupported := false
    eventStrikes := 0
    linkDown := false }
  linkUp := true
  io := { place := fun _ => .ours, queue := fun _ => [] }
  req := fun _ => {}
  moves := fate.moves
  waits := fate.waits
  allocs := fate.allocs
  frames := fate.frames
  pbufs := fate.pbufs

end Machine

end Sana2

end Tolunnet
