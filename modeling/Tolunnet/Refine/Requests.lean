import Tolunnet.Refine.Routine

/-!
# `Tolunnet.Refine.Requests`: what the handlers do

The handlers of `Tolunnet.Task` for a relation that knows the routine operations. Queries, waiting
and shutting down need nothing else. A `Broad` relation is not about options and says once what a new
socket, a place in a descriptor table, a backlog and a membership are to it; that covers connecting,
sending, binding and the options. A `Loose` relation is not about descriptor tables and bases; that
covers closing, handing over, and the steps without a request.
-/

set_option autoImplicit false

namespace Tolunnet

open World

variable {Fits : Int → List UInt8 → Prop} {R : World → World → Prop} {w w' : World} {i : SlotIdx}
  {m : MsgId} {p : PcbId}

/-! ## Relations -/

/-- Both states that setting an option can leave behind are covered. -/
def Leaves (R : World → World → Prop) (w : World) (r : Except Errno World × World) : Prop :=
  R w r.2 ∧ ∀ w', r.1 = .ok w' → R w w'

/-- A relation that covers the callbacks and is not about options: lwIP's whole turn. -/
structure Wide (Fits : Int → List UInt8 → Prop) (R : World → World → Prop) : Prop
    extends Callbacks Fits R, Numb R where
  accept : ∀ w i p, R w (tnTcpAcceptCb w i p).1

/-- A relation that covers new sockets and is not about options. -/
structure Broad (Fits : Int → List UInt8 → Prop) (R : World → World → Prop) : Prop
    extends Routine Fits R, Numb R where
  alloc : ∀ w j b t domain type protocol, freeSlot? w = some j →
    R w (tnSlotAlloc w j b t domain type protocol)
  place : ∀ w b fd i pref, pickFd? (w.bases b) pref = some fd → R w (w.setFd b fd (some i))
  backlog : ∀ w i f, (f (w.sockets i)).shown =
    { w.sockets i with listenBacklog := (f (w.sockets i)).listenBacklog }.shown → R w (w.modSlot i f)
  enqueue : ∀ w i p, (w.sockets i).acceptCount < (w.sockets i).listenBacklog →
    R w (tnAcceptQueuePush w i p).1
  accepted : ∀ w m i ent rest, (w.sockets i).acceptQ = ent :: rest → R w (acceptQueued w m i ent).1
  joined : ∀ w i grp ifa, (w.sockets i).inUse = true → Leaves R w (addMembership w i grp ifa)
  left : ∀ w i grp ifa, Leaves R w (dropMembership w i grp ifa)

/-- A relation that is not about descriptors and bases. -/
structure Loose (Fits : Int → List UInt8 → Prop) (R : World → World → Prop) : Prop
    extends Routine Fits R where
  setFd : ∀ w b fd x, R w (w.setFd b fd x)
  bases : ∀ w f n c, R w { w with openBases := f, openBaseCount := n, libOpenCnt := c }

/-- A descriptor that is found belongs to a slot in use. -/
theorem tnSlotLookup_inUse {base : Option BaseId} {fd : Int} (hl : tnSlotLookup w base fd = some i) :
    (w.sockets i).inUse = true := by
  unfold tnSlotLookup at hl
  split at hl
  · cases hl
  · split at hl
    · cases hl
    · split at hl
      · cases hl
      · split at hl
        · rename_i hu
          cases hl
          exact hu
        · cases hl

namespace Stock

/-! ## Waiting -/

/-- A selector is armed, the table grown if need be. -/
theorem tnIpcCmdSelectArm (hr : Stock Fits R) : R w (tnIpcCmdSelectArm w m).1 := by
  unfold Tolunnet.tnIpcCmdSelectArm
  dsimp only
  split
  · exact hr.refuse _
  · split_ifs
    · exact hr.refuse _
    · exact hr.refuse _
    · split
      · exact hr.refuse _
      · split
        · exact hr.done (hr.putResults ..) _ _
        · split
          · exact hr.refuse _
          · exact hr.done (hr.armSelector ..) _ _

/-- The selectors of the caller are given up. -/
theorem tnIpcCmdSelectDisarm (hr : Stock Fits R) : R w (tnIpcCmdSelectDisarm w m).1 := by
  unfold Tolunnet.tnIpcCmdSelectDisarm
  split
  · exact hr.accede _ _
  · exact hr.done (hr.foldl _ _ (fun _ _ _ => hr.disarmSelector ..) w) _ _

/-- The sets are read and written. -/
theorem tnIpcCmdWaitselect (hr : Stock Fits R) : R w (tnIpcCmdWaitselect w m).1 := by
  unfold Tolunnet.tnIpcCmdWaitselect
  dsimp only
  split
  · exact hr.refuse _
  · split
    · exact hr.refuse _
    · split
      · exact hr.refuse _
      · exact hr.done (hr.putResults ..) _ _

/-! ## Queries -/

/-- The local address goes to the client. -/
theorem tnIpcCmdGetsockname (hr : Stock Fits R) (slot : Option SlotIdx) :
    R w (tnIpcCmdGetsockname w m slot).1 := by
  unfold Tolunnet.tnIpcCmdGetsockname
  dsimp only
  split
  · split
    · exact hr.refuse _
    · exact hr.done (hr.storeName ..) _ _
  · exact hr.refuse _

/-- The remote address of a stream goes to the client. -/
theorem peernameStream (hr : Stock Fits R) : R w (peernameStream w m i p).1 := by
  unfold Tolunnet.peernameStream
  dsimp only
  split
  · exact hr.refuse _
  · exact hr.done (hr.trans (hr.readFull _) (hr.storeName ..)) _ _

/-- The remote address goes to the client. -/
theorem tnIpcCmdGetpeername (hr : Stock Fits R) (slot : Option SlotIdx) :
    R w (tnIpcCmdGetpeername w m slot).1 := by
  unfold Tolunnet.tnIpcCmdGetpeername
  dsimp only
  split
  · split_ifs
    · exact hr.refuse _
    · split
      · exact hr.peernameStream
      · exact hr.refuse _
    · split
      · split
        · exact hr.refuse _
        · exact hr.done (hr.storeName ..) _ _
      · exact hr.refuse _
    · split
      · exact hr.done (hr.storeName ..) _ _
      · exact hr.refuse _
    · exact hr.refuse _
  · exact hr.refuse _

/-- Flags and counts of a slot. -/
theorem tnIpcCmdIoctl (hr : Stock Fits R) (slot : Option SlotIdx) :
    R w (tnIpcCmdIoctl w m slot).1 := by
  have flag : ∀ i on, R w (w.modSlot i fun s => { s with isNonblocking := on }) := fun i _ =>
    hr.assign w i _ rfl rfl (.inl rfl)
  unfold Tolunnet.tnIpcCmdIoctl
  dsimp only
  split
  · split_ifs
    · exact hr.done (flag ..) _ _
    · exact hr.done (hr.store ..) _ _
    · exact hr.done (hr.store ..) _ _
    · exact hr.done (hr.asked w) _ _
    · exact hr.fail (hr.asked w) _
  · exact hr.refuse _
  · exact hr.refuse _

/-- Reading an option may clear the error of the slot. -/
theorem readOpt (hr : Stock Fits R) (o : SockOpt) : R w (readOpt w i o) := by
  unfold Tolunnet.readOpt onFullOf
  split
  all_goals
    first
    | exact hr.refl w
    | split
      · exact hr.ite (hr.onFull fun _ => rfl)
      · exact hr.refl w

/-- The value of an option goes to the client. -/
theorem getSockopt (hr : Stock Fits R) (o : SockOpt) (olen : Nat) :
    R w (getSockopt w m i o olen).1 := by
  unfold Tolunnet.getSockopt
  dsimp only
  split
  · exact hr.refuse _
  · exact hr.refuse _
  · exact hr.refuse _
  · split
    · exact hr.refuse _
    · exact hr.done (hr.writeOpt _) _ _
  · split
    · exact hr.refuse _
    · exact hr.done (hr.trans (hr.writeOpt _) (hr.assign _ i _ rfl rfl (.inl rfl))) _ _
  · split_ifs
    · exact hr.refuse _
    · exact hr.done (hr.writeOpt _) _ _
    · exact hr.done (hr.writeOpt _) _ _
  · split_ifs
    · exact hr.refuse _
    · exact hr.done (hr.writeOpt _) _ _
    · exact hr.done (hr.writeOpt _) _ _
  · split
    · exact hr.refuse _
    · exact hr.done (hr.trans (hr.readOpt _) (hr.writeOpt _)) _ _

/-- `getsockopt` changes nothing but the error of the slot. -/
theorem tnIpcCmdGetsockopt (hr : Stock Fits R) (slot : Option SlotIdx) :
    R w (tnIpcCmdGetsockopt w m slot).1 := by
  unfold Tolunnet.tnIpcCmdGetsockopt
  dsimp only
  split
  · split
    · exact hr.refuse _
    · split
      · exact hr.refuse _
      · split
        · exact hr.refuse _
        · exact hr.getSockopt ..
  · exact hr.refuse _

/-- One row of the table. -/
theorem enumRow (hr : Stock Fits R) : R w (enumRow w i) := by
  unfold Tolunnet.enumRow
  dsimp only
  split
  · split
    · split
      · exact hr.trans (hr.trans (hr.onPcb fun _ => rfl) (hr.readFull _)) (hr.readFull _)
      · exact hr.onPcb fun _ => rfl
    · exact hr.refl w
  · exact hr.refl w

/-- The table goes to the client row by row. -/
theorem tnIpcCmdEnumsockets (hr : Stock Fits R) : R w (tnIpcCmdEnumsockets w m).1 := by
  unfold Tolunnet.tnIpcCmdEnumsockets
  dsimp only
  split
  · exact hr.refuse _
  · split
    · exact hr.refuse _
    · exact hr.done (hr.foldl _ _ (fun _ _ _ => hr.enumRow) w) _ _

/-- Commands that only ask lwIP. -/
theorem replyByAnswer (hr : Stock Fits R) : R w (replyByAnswer w m).1 := by
  unfold Tolunnet.replyByAnswer
  split
  · exact hr.done (hr.asked w) _ _
  · exact hr.fail (hr.asked w) _

theorem tnIpcCmdSyslog (hr : Stock Fits R) : R w (tnIpcCmdSyslog w m).1 := by
  unfold Tolunnet.tnIpcCmdSyslog
  dsimp only
  split
  · split
    · exact hr.refuse _
    · exact hr.accede _ _
  · exact hr.refuse _

/-! ## `RECONFIG` -/

/-- New preferences, applied at once where that is possible. -/
theorem tnIpcCmdReconfig (hr : Stock Fits R) : R w (tnIpcCmdReconfig w m).1 := by
  have applied : ∀ (w : World) (live a r f : Nat), R w (reconfigReply (applyLive w live).1 m a r f) :=
    fun w live a r f => hr.trans (hr.applyLive hr.grow live) (hr.reconfigReply a r f)
  unfold Tolunnet.tnIpcCmdReconfig
  dsimp only
  generalize hw1 : ({ w.asked with prefs := _ } : World) = w1
  have loaded : R w w1 := hw1 ▸ hr.trans (hr.asked w) (hr.prefs ..)
  split
  · exact hr.done (hr.trans loaded (applied ..)) _ _
  · exact hr.fail (hr.trans loaded (applied ..)) _

/-! ## Addresses -/

/-- `bind` answers with what lwIP said. -/
theorem bindDone (hr : Stock Fits R) {r : World × ErrT} (h : R w r.1) : R w (bindDone r m).1 := by
  obtain ⟨w', e⟩ := r
  cases e with
  | ok => exact hr.done h _ _
  | _ => exact hr.fail h _

/-- A local address is not seen; the address of a socket may be used again, which is an option. -/
theorem tnIpcCmdBind (hr : Stock Fits R)
    (tcp : ∀ w p, R w (w.onPcb p fun c => { c with sofReuseaddr := true }))
    (udp : ∀ w p, R w (w.onUdp p fun c => { c with sofReuseaddr := true })) (slot : Option SlotIdx) :
    R w (tnIpcCmdBind w m slot).1 := by
  have bound : ∀ (u : World) (p : PcbId) (a : SockIn), R w u → R w (if u.ask.err = .ok then
      u.asked.onUdp p fun c => { c with localIp := a.addr, localPort := a.port } else u.asked) :=
    fun u p a h => by
      split
      · exact hr.trans (hr.trans h (hr.asked u)) (hr.keepUdp _ _ _ fun _ => rfl)
      · exact hr.trans h (hr.asked u)
  unfold Tolunnet.tnIpcCmdBind
  dsimp only
  split
  · split
    · exact hr.refuse _
    · split
      · exact hr.refuse _
      · split
        · split
          · refine hr.bindDone ?_
            unfold bindTcp
            dsimp only
            exact hr.trans (hr.ite (tcp ..)) (hr.tcpBind ..)
          · exact hr.refuse _
        · split
          · split
            · refine hr.bindDone ?_
              dsimp only
              exact bound _ _ _ (hr.ite (udp ..))
            · exact hr.refuse _
          · split
            · split
              · refine hr.bindDone ?_
                dsimp only
                split
                · refine hr.trans (hr.asked w) (hr.keepRaw _ _ _ ?_)
                  exact fun _ => rfl
                · exact hr.asked w
              · exact hr.refuse _
            · exact hr.refuse _
  · exact hr.refuse _

/-- A datagram pcb gets its remote address. -/
theorem connectDgram (hr : Stock Fits R) (a : SockIn) : R w (connectDgram w m i a).1 := by
  unfold Tolunnet.connectDgram
  dsimp only
  split
  · split
    · refine hr.done (hr.keepUdp _ _ _ ?_) _ _
      exact fun _ => rfl
    · exact hr.refuse _
  · split
    · split
      · refine hr.done (hr.keepRaw _ _ _ ?_) _ _
        exact fun _ => rfl
      · exact hr.refuse _
    · exact hr.refuse _

/-! ## Queues that are emptied -/

/-- The packets go and the window is given back. -/
theorem tnRxQueueDrainWithRecved (hr : Stock Fits R) : R w (tnRxQueueDrainWithRecved w i) := by
  unfold Tolunnet.tnRxQueueDrainWithRecved
  dsimp only
  refine hr.trans ?_ (hr.drain ..)
  split
  · exact hr.foldl _ _ (fun _ _ _ => hr.tcpRecvedFor _) w
  · exact hr.refl w

end Stock

namespace Callbacks

/-- An interface that goes away may end connections. -/
theorem tnIpcCmdIfctl (hr : Callbacks Fits R) : R w (tnIpcCmdIfctl w m).1 :=
  hr.trans (hr.trans (hr.asked w) (hr.runErrs _)) hr.replyByAnswer

/-! ## `SHUTDOWN` -/

/-- Both sides are shut: the pcb is let go and a parked send is answered. -/
theorem shutdownBoth (hr : Callbacks Fits R) : R w (shutdownBoth w i p) := by
  unfold Tolunnet.shutdownBoth
  dsimp only
  refine hr.trans (hr.trans ?_ hr.tcpCloseOrAbort) (hr.replySend ..)
  exact hr.trans (hr.trans hr.tnRxQueueDrainWithRecved (hr.tcpDetach (p := p))) (hr.dropLink rfl rfl rfl)

/-- `shutdown` of one side or both. -/
theorem tnIpcCmdShutdown (hr : Callbacks Fits R) (slot : Option SlotIdx) :
    R w (tnIpcCmdShutdown w m slot).1 := by
  unfold Tolunnet.tnIpcCmdShutdown
  split
  · exact hr.refuse _
  · rename_i i
    dsimp only
    split
    · exact hr.refuse _
    · split
      · exact hr.refuse _
      · split
        · exact hr.refuse _
        · generalize hw1 : w.modSlot i _ = w1
          have shut : R w w1 := hw1 ▸ hr.assign w i _ rfl rfl (.inl rfl)
          split
          · exact hr.done shut _ _
          · split
            · exact hr.done shut _ _
            · split
              · exact hr.done (hr.trans shut hr.shutdownBoth) _ _
              · split
                · exact hr.done (hr.trans shut hr.tnRxQueueDrainWithRecved) _ _
                · split
                  · rename_i heq
                    exact hr.done (hr.trans shut (of_pair heq hr.tcpShutdownTx)) _ _
                  · rename_i heq
                    exact hr.fail (hr.trans shut (of_pair heq hr.tcpShutdownTx)) _

end Callbacks

namespace Routine

/-! ## Lookups -/

/-- A lookup is recorded or refused. -/
theorem deferDns (hr : Routine Fits R) (b : BaseId) (name : List Char) :
    R w (deferDns w m b name).1 := by
  unfold Tolunnet.deferDns
  dsimp only
  split
  · exact hr.accede _ _
  · split
    · exact hr.dns w _ _ _
    · exact hr.accede _ _

/-- A name is found, deferred or refused. -/
theorem tnIpcCmdGethostbyname (hr : Routine Fits R) : R w (tnIpcCmdGethostbyname w m).1 := by
  unfold Tolunnet.tnIpcCmdGethostbyname
  dsimp only
  split
  · split_ifs
    · exact hr.accede _ _
    · exact hr.done (hr.trans (hr.asked w) (hr.tnIpcFillHostentNow ..)) _ _
    · exact hr.trans (hr.asked w) (hr.deferDns ..)
    · exact hr.done (hr.asked w) _ _
  · exact hr.accede _ _

/-! ## `CANCEL` -/

theorem replyTarget (hr : Routine Fits R) (target : MsgId) : R w (replyTarget w target) := by
  unfold Tolunnet.replyTarget
  split
  · exact hr.emit _ _ rfl
  · exact hr.answerMsg ..

/-- What the target waits for is answered. -/
theorem cancelTarget (hr : Routine Fits R) (target : MsgId) : R w (cancelTarget w target) := by
  have field : ∀ i k, R w (cancelField w i k target) := fun i k =>
    hr.trans (hr.setPending w i k none) (hr.replyTarget target)
  unfold Tolunnet.cancelTarget
  split
  · rename_i heq
    obtain ⟨i, -, hi⟩ := List.exists_of_findSome?_eq_some heq
    unfold cancelAt at hi
    dsimp only at hi
    split_ifs at hi <;> cases hi <;> exact field _ _
  · split
    · rename_i heq
      obtain ⟨i, -, hi⟩ := List.exists_of_findSome?_eq_some heq
      unfold cancelParkedSendAt at hi
      split_ifs at hi
      cases hi
      exact hr.tnSlotReplySend ..
    · unfold cancelDns
      cases (List.finRange 8).find? fun k =>
        (w.dnsPending k).inUse && (w.dnsPending k).imsg == targetMsg target with
      | none => exact hr.refl w
      | some k => exact hr.trans (hr.clearDns k) (hr.replyTarget target)

/-- `CANCEL` is answered at once. -/
theorem tnIpcCmdCancel (hr : Routine Fits R) : R w (tnIpcCmdCancel w m).1 :=
  hr.done (hr.cancelTarget _) _ _

/-! ## `OBTAINSOCKET` -/

/-- A parked socket is placed in the table of the caller. -/
theorem tnIpcCmdObtainsocket (hr : Routine Fits R)
    (place : ∀ b fd i pref, pickFd? (w.bases b) pref = some fd → R w (w.setFd b fd (some i))) :
    R w (tnIpcCmdObtainsocket w m).1 := by
  unfold Tolunnet.tnIpcCmdObtainsocket
  dsimp only
  split
  · exact hr.refuse _
  · rename_i b _
    split
    · exact hr.refuse _
    · rename_i i _
      split
      · exact hr.refuse _
      · split
        · exact hr.refuse _
        · rename_i fd hfd
          exact hr.done (hr.trans (place b fd i _ hfd) (hr.parked _ i _ rfl rfl rfl)) _ _

end Routine

namespace Wide

/-- One action of lwIP. -/
theorem runEv (hr : Wide Fits R) (ev : LwipEv) : R w (runEv w ev) :=
  hr.toCallbacks.runEv (fun _ _ _ _ => hr.tnTcpConnectedCb (hr.tcpNagle true))
    fun _ _ ip port _ _ c => hr.deliverAccept (fun w i => hr.accept w i _) c ip port

/-- Any burst of actions. -/
theorem runEvs (hr : Wide Fits R) (evs : List LwipEv) : R w (runEvs w evs) :=
  hr.foldl _ _ (fun _ ev _ => hr.runEv ev) w

/-- What lwIP does before a call returns. -/
theorem tnDrainLoopback (hr : Wide Fits R) : R w (tnDrainLoopback w) :=
  hr.trans (hr.asked w) (hr.runEvs _)

/-- A new pcb, for which lwIP may have ended others. -/
theorem newTcp (hr : Wide Fits R) : R w (newTcp w i).1 := by
  unfold Tolunnet.newTcp
  dsimp only
  have aborted : R w (runErrs w.asked w.ask.evs) := hr.trans (hr.asked w) (hr.runErrs _)
  split
  · refine hr.trans (hr.trans aborted (hr.setPcb _ w.ask.id (some {}))) ?_
    have linked : ∀ u : World, R u (u.modSlot i fun s => { s with tcpPcb := some w.ask.id }) :=
      fun u => hr.modSlot u i _ rfl
    exact hr.trans (linked _) (hr.trans (hr.tcpArg _) (hr.tcpErr _))
  · exact aborted

/-- The sending loop, by induction on the turns. -/
theorem sendLoop (hr : Wide Fits R) (c : CallNo) (buf : Mem) (iov : Option (List Iovec))
    (len fuel done : Nat) : R w (sendLoop i c buf iov len fuel w done).1 := by
  induction fuel generalizing w done with
  | zero => exact hr.refl w
  | succ fuel ih =>
    unfold Tolunnet.sendLoop
    split
    · exact hr.refl w
    · rename_i p _
      have wrote := hr.tnTcpWriteSome (w := w) (p := p) c buf len (len - done)
        (iov.map fun l => (l, 0)) done
      dsimp only
      split
      · have first := hr.trans (hr.trans wrote (hr.tcpOutput (p := p))) hr.tnDrainLoopback
        generalize Tolunnet.tnDrainLoopback _ = w1 at first ⊢
        split
        · exact first
        · have second := fun q => hr.trans first (hr.trans (hr.tcpOutput (p := q)) hr.tnDrainLoopback)
          split
          · exact hr.trans (second _) (ih _)
          · exact second _
      · exact wrote

end Wide

namespace Broad

/-! ## Sockets -/

/-- A stream becomes a listener, or gets another backlog. -/
theorem tnIpcCmdListen (hr : Broad Fits R) (slot : Option SlotIdx) :
    R w (tnIpcCmdListen w m slot).1 := by
  unfold Tolunnet.tnIpcCmdListen
  split
  · exact hr.refuse _
  · rename_i i
    dsimp only
    split
    · exact hr.refuse _
    · split
      · exact hr.refuse _
      · split
        · exact hr.done (hr.backlog w i _ rfl) _ _
        · split
          · rename_i heq
            exact hr.fail (of_pair heq hr.tcpListenWithBacklog) _
          · rename_i heq
            refine hr.done (hr.trans (of_pair heq hr.tcpListenWithBacklog) ?_) _ _
            exact hr.trans (hr.backlog _ i _ rfl) (hr.trans (hr.tcpArg _) (hr.tcpAccept _))

/-- A connection is taken from the queue, or the request waits. -/
theorem tnIpcCmdAccept (hr : Broad Fits R) (slot : Option SlotIdx) :
    R w (tnIpcCmdAccept w m slot).1 := by
  unfold Tolunnet.tnIpcCmdAccept
  split
  · exact hr.refuse _
  · dsimp only
    split
    · exact hr.refuse _
    · split
      · rename_i hq
        exact hr.accepted _ _ _ _ _ hq
      · split
        · exact hr.refuse _
        · exact hr.setPending ..

/-- A connection goes to the accept that waits for it, or to the queue while that has room, or is
aborted. -/
theorem tnTcpAcceptCb (hr : Broad Fits R) : R w (tnTcpAcceptCb w i p).1 := by
  unfold Tolunnet.tnTcpAcceptCb
  dsimp only
  split
  · exact hr.refl w
  · split
    · rename_i m _
      refine hr.trans (hr.setPending w i .accept none) ?_
      generalize w.setPending i .accept none = w1
      split
      · exact hr.trans hr.tcpAbort (hr.answerMsg ..)
      · rename_i j hj
        refine hr.trans (hr.alloc w1 j (w.msgs m).socketBase (w.msgs m).clientTask afInet sockStream 0
          hj) ?_
        generalize tnSlotAlloc w1 j _ _ _ _ _ = w2
        split
        · exact hr.trans (hr.free w2 j) (hr.trans hr.tcpAbort (hr.answerMsg ..))
        · rename_i fd hfd
          have taken : ∀ u : World, R u (u.modSlot j fun s =>
            { s with tcpState := .established, tcpPcb := some p }) := fun u => hr.modSlot u j _ rfl
          refine hr.trans (hr.place w2 _ fd j _ hfd) (hr.trans (taken _) ?_)
          exact hr.trans (hr.trans (hr.trans (hr.adoptPcb j) (hr.setReply ..)) (hr.event ..))
            (hr.replyMsg ..)
    · split
      · exact hr.tcpAbort
      · rename_i room
        have pushed := hr.enqueue w i p (Nat.lt_of_not_ge room)
        split
        · rename_i heq
          exact hr.trans (of_pair heq pushed) (hr.signalRecord _)
        · rename_i heq
          exact hr.trans (of_pair heq pushed) hr.tcpAbort

/-- What covers new sockets covers lwIP's turn. -/
theorem wide (hr : Broad Fits R) : Wide Fits R where
  toCallbacks := hr.toRoutine.callbacks
  setPcb := hr.setPcb
  onUdp := hr.onUdp
  onRaw := hr.onRaw
  modSlot := hr.modSlot
  accept _ _ _ := hr.tnTcpAcceptCb

/-! ## `CONNECT` -/

/-- The handshake begins and the request waits, unless the slot does not block. -/
theorem connectStream (hr : Broad Fits R) (a : SockIn) : R w (connectStream w m i p a).1 := by
  unfold Tolunnet.connectStream
  dsimp only
  generalize hw1 : tcpSent (tcpRecv _ p .slot) p true = w1
  have begun : R w w1 := by
    rw [← hw1]
    refine hr.trans (hr.trans ?_ (hr.tcpRecv _)) (hr.tcpSent _)
    exact hr.trans (hr.modSlot w i _ rfl) (hr.setPending ..)
  split
  · rename_i w2 heq
    have out : R w (tcpOutput w2 p) :=
      hr.trans (hr.trans begun (of_pair heq (hr.tcpConnect ..))) hr.tcpOutput
    have drained := hr.trans out hr.wide.tnDrainLoopback
    split
    · exact hr.fail drained _
    · exact drained
  · rename_i heq
    have failed := hr.trans begun (of_pair heq (hr.tcpConnect ..))
    refine hr.fail (hr.trans (hr.trans failed (hr.setPending _ i .connect none)) ?_) _
    exact hr.modSlot _ i _ rfl

/-- `connect` of a stream and of a datagram socket. -/
theorem tnIpcCmdConnect (hr : Broad Fits R) (slot : Option SlotIdx) :
    R w (tnIpcCmdConnect w m slot).1 := by
  unfold Tolunnet.tnIpcCmdConnect
  dsimp only
  split
  · rename_i i _ _
    split
    · exact hr.refuse _
    · split
      · generalize hw1 : (if _ = TnTcpState.error then _ else w) = w1
        have clear : R w w1 := by
          rw [← hw1]
          exact hr.ite (hr.assign w i _ rfl rfl (.inl rfl))
        split
        · split
          · exact hr.fail clear _
          · exact hr.trans clear (hr.connectStream _)
        · exact hr.fail clear _
      · exact hr.connectDgram _
  · exact hr.refuse _

/-! ## Sending -/

/-- What is left of a send is parked. -/
theorem parkSend (hr : Broad Fits R) (iov : Option (List Iovec)) (len done : Nat) :
    R w (parkSend w m i p iov len done) := by
  unfold Tolunnet.parkSend
  dsimp only
  refine hr.trans ?_ (hr.tcpPoll true)
  refine hr.trans ?_ (hr.assign _ i _ rfl rfl (.inl rfl))
  exact hr.trans (hr.setPending w i .send (some m)) (hr.modMsg ..)

/-- A send is answered with what was taken, or parked. -/
theorem sendFinish (hr : Broad Fits R) (iov : Option (List Iovec)) (len : Nat) (nonblock : Bool)
    (done : Nat) (werr : ErrT) : R w (sendFinish w m i iov len nonblock done werr).1 := by
  unfold Tolunnet.sendFinish
  split
  · exact hr.done (hr.emit _ _ rfl) _ _
  · split_ifs
    · exact hr.accede _ _
    · exact hr.accede _ _
    · exact hr.refuse _
    · exact hr.parkSend ..

/-- A stream is sent to until its buffer is full. -/
theorem tnTcpSendStream (hr : Broad Fits R) (buf : Mem) (iov : Option (List Iovec)) (len : Nat)
    (flags : Int) : R w (tnTcpSendStream w m i buf iov len flags).1 := by
  unfold Tolunnet.tnTcpSendStream
  dsimp only
  refine hr.trans (hr.emit w (.sendStart (w.callOf m) (sendPayload buf iov len)) rfl) ?_
  generalize w.emit _ = w1
  split_ifs
  · exact hr.refuse _
  · exact hr.fail (hr.assign w1 i _ rfl rfl (.inl rfl)) _
  · exact hr.fail (hr.assign w1 i _ rfl rfl (.inl rfl)) _
  · exact hr.refuse _
  · exact hr.refuse _
  · exact hr.refuse _
  · exact hr.trans (hr.wide.sendLoop ..) (hr.sendFinish ..)

/-- One datagram. -/
theorem sendDatagram (hr : Broad Fits R) (dst : Nat × Nat) (bytes : List UInt8)
    (drainOk drainErr : Bool) : R w (sendDatagram w m p dst bytes drainOk drainErr).1 := by
  unfold Tolunnet.sendDatagram
  dsimp only
  split
  · have sent : R w (w.asked.out (.datagram p dst.1 dst.2 bytes)).asked :=
      hr.trans (hr.trans (hr.asked w) (hr.out _ _ rfl)) (hr.asked _)
    split
    · exact hr.done (hr.trans sent (hr.ite hr.wide.tnDrainLoopback)) _ _
    · exact hr.fail (hr.trans sent (hr.ite hr.wide.tnDrainLoopback)) _
  · exact hr.fail (hr.asked w) _

/-- `send` on each kind of socket. -/
theorem tnIpcCmdSend (hr : Broad Fits R) (slot : Option SlotIdx) : R w (tnIpcCmdSend w m slot).1 := by
  unfold Tolunnet.tnIpcCmdSend
  dsimp only
  split
  · split
    · exact hr.refuse _
    · split
      · exact hr.tnTcpSendStream ..
      · split
        · split
          · unfold sendUdp
            dsimp only
            split_ifs
            · exact hr.refuse _
            · exact hr.refuse _
            · exact hr.sendDatagram ..
          · exact hr.refuse _
        · split
          · split
            · unfold sendRaw
              dsimp only
              split_ifs
              · exact hr.refuse _
              · exact hr.refuse _
              · exact hr.sendDatagram ..
            · exact hr.refuse _
          · exact hr.refuse _
  · exact hr.refuse _

/-- The destination is given or connected. -/
theorem sendtoUdp (hr : Broad Fits R) (toAddr : Option SockIn) (len : Nat) (bytes : List UInt8) :
    R w (sendtoUdp w m p toAddr len bytes).1 := by
  unfold Tolunnet.sendtoUdp
  dsimp only
  split
  · exact hr.refuse _
  · split
    · exact hr.refuse _
    · exact hr.sendDatagram ..

/-- The same for a raw socket. -/
theorem sendtoRaw (hr : Broad Fits R) (toAddr : Option SockIn) (bytes : List UInt8) :
    R w (sendtoRaw w m p toAddr bytes).1 := by
  unfold Tolunnet.sendtoRaw
  dsimp only
  split
  · exact hr.refuse _
  · exact hr.sendDatagram ..

/-- `sendto` on each kind of socket. -/
theorem tnIpcCmdSendto (hr : Broad Fits R) (slot : Option SlotIdx) :
    R w (tnIpcCmdSendto w m slot).1 := by
  unfold Tolunnet.tnIpcCmdSendto
  dsimp only
  split
  · split_ifs
    · exact hr.refuse _
    · exact hr.tnIpcCmdSend _
    · split
      · exact hr.sendtoUdp ..
      · exact hr.refuse _
    · split
      · exact hr.sendtoRaw ..
      · exact hr.refuse _
    · exact hr.refuse _
  · exact hr.refuse _

/-- The pieces of a message are sent as one. -/
theorem sendmsgChecked (hr : Broad Fits R) (iovs : List Iovec) (total : Nat)
    (toAddr : Option SockIn) (flags : Int) :
    R w (sendmsgChecked w m i iovs total toAddr flags).1 := by
  unfold Tolunnet.sendmsgChecked
  dsimp only
  split
  · split
    · exact hr.trans (hr.modMsg ..) (hr.tnIpcCmdSend _)
    · exact hr.tnTcpSendStream ..
  · split
    · split
      · exact hr.sendtoUdp ..
      · exact hr.refuse _
    · split
      · split
        · exact hr.sendDatagram ..
        · exact hr.refuse _
      · exact hr.refuse _

/-- `sendmsg` is checked first. -/
theorem tnIpcCmdSendmsg (hr : Broad Fits R) (slot : Option SlotIdx) :
    R w (tnIpcCmdSendmsg w m slot).1 := by
  unfold Tolunnet.tnIpcCmdSendmsg
  dsimp only
  split
  · split
    · exact hr.refuse _
    · split
      · exact hr.refuse _
      · split
        · exact hr.refuse _
        · split
          · exact hr.refuse _
          · split
            · exact hr.refuse _
            · exact hr.sendmsgChecked ..
  · exact hr.refuse _
  · exact hr.refuse _

/-! ## Options -/

theorem tnIpcCmdBind (hr : Broad Fits R) (slot : Option SlotIdx) :
    R w (tnIpcCmdBind w m slot).1 :=
  hr.toStock.tnIpcCmdBind (fun _ _ => hr.onPcb _) (fun w p => hr.onUdp w p _ fun _ => rfl) slot

/-- An option that is set. -/
theorem leaves_ok (hr : Broad Fits R) (h : R w w') : Leaves R w (.ok w', w) :=
  ⟨hr.refl w, fun _ hw => by cases hw; exact h⟩

/-- An option that is refused. -/
theorem leaves_error (h : R w w') (e : Errno) : Leaves R w (.error e, w') :=
  ⟨h, fun _ hw => by cases hw⟩

/-- An option other than a membership is stored in the option block and in the pcbs. -/
theorem applySockopt (hr : Broad Fits R) (o : SockOpt) (f : Mem) (n : Int)
    (hl : (w.sockets i).inUse = true) : Leaves R w (applySockopt w i o f n) := by
  have block := fun g => hr.modOpts (w := w) (i := i) g
  have tcp := fun u g => hr.onTcpOf (w := u) (i := i) g
  have full := fun u op g => hr.onFullOf (w := u) (i := i) op g
  have udp := fun u (g : DgramPcb → DgramPcb) hg => hr.onUdpOf (w := u) (i := i) (f := g) hg
  have raw := fun u (g : DgramPcb → DgramPcb) hg => hr.onRawOf (w := u) (i := i) (f := g) hg
  unfold Tolunnet.applySockopt
  dsimp only
  cases o with
  | addMembership => exact hr.joined _ _ _ _ hl
  | dropMembership => exact hr.left ..
  | error | type => exact leaves_error (hr.refl w) _
  | eventmask => exact hr.leaves_ok (hr.refl w)
  | linger | sndbuf | rcvbuf | oobinline => exact hr.leaves_ok (block _)
  | rcvtimeo => exact hr.leaves_ok (hr.trans (block _) hr.restartRecv)
  | sndtimeo => exact hr.leaves_ok (hr.trans (block _) hr.restartSend)
  | keepalive => exact hr.leaves_ok (hr.trans (block _) (tcp _ _))
  | nodelay => exact hr.leaves_ok (hr.trans (block _) (full _ _ _))
  | broadcast | multicastLoop =>
    refine hr.leaves_ok (hr.trans (block _) (udp _ _ ?_))
    exact fun _ => rfl
  | hdrincl =>
    refine hr.leaves_ok (hr.trans (block _) (raw _ _ ?_))
    exact fun _ => rfl
  | multicastTtl =>
    refine hr.leaves_ok (hr.trans (hr.trans (block _) (udp _ _ ?_)) (raw _ _ ?_))
    all_goals exact fun _ => rfl
  | reuseaddr =>
    refine hr.leaves_ok (hr.trans (hr.trans (block _) (tcp _ _)) (udp _ _ ?_))
    exact fun _ => rfl
  | ttl | tos =>
    refine hr.leaves_ok (hr.trans (hr.trans (hr.trans (block _) (tcp _ _)) (udp _ _ ?_)) (raw _ _ ?_))
    all_goals exact fun _ => rfl
  | keepidle | keepintvl | keepcnt =>
    dsimp only
    split
    · exact hr.leaves_ok (hr.trans (block _) (full _ _ _))
    · exact leaves_error (hr.refl w) _
  | maxseg =>
    dsimp only
    split
    · exact leaves_error hr.readMss _
    · refine ⟨hr.readMss, fun _ hw => ?_⟩
      cases hw
      exact hr.trans (hr.trans hr.readMss (hr.modOpts _)) (full _ _ _)

/-- `SETSOCKOPT` on the slot of a descriptor. -/
theorem tnIpcCmdSetsockopt (hr : Broad Fits R) (slot : Option SlotIdx)
    (hl : ∀ i, slot = some i → (w.sockets i).inUse = true) :
    R w (tnIpcCmdSetsockopt w m slot).1 := by
  unfold Tolunnet.tnIpcCmdSetsockopt
  dsimp only
  split
  · rename_i i f _
    split
    · exact hr.refuse _
    · rename_i o _
      split_ifs
      · exact hr.refuse _
      · exact hr.refuse _
      · have applied := hr.applySockopt o f ((w.msgs m).args 3) (hl i rfl)
        split
        · rename_i heq
          rw [heq] at applied
          exact hr.fail applied.1 _
        · rename_i heq
          rw [heq] at applied
          exact hr.done (applied.2 _ rfl) _ _
  · exact hr.refuse _

end Broad

namespace Loose

/-! ## Closing -/

/-- The last reference frees the slot. -/
theorem tnSlotUnref (hr : Loose Fits R) : R w (tnSlotUnref w i) := by
  unfold Tolunnet.tnSlotUnref
  dsimp only
  refine hr.ite ?_
  have counted : R w (w.modSlot i fun s => { s with refCount := s.refCount - 1 }) :=
    hr.assign w i _ rfl rfl (.inl rfl)
  exact hr.trans counted (hr.ite (hr.free ..))

/-- A descriptor is closed and what waits on it is answered. -/
theorem tnIpcCmdClosesocket (hr : Loose Fits R) (slot : Option SlotIdx) :
    R w (tnIpcCmdClosesocket w m slot).1 := by
  unfold Tolunnet.tnIpcCmdClosesocket
  dsimp only
  split
  · exact hr.done (hr.trans (hr.trans (hr.replies.cancelOwn _) (hr.setFd ..)) hr.tnSlotUnref) _ _
  · exact hr.refuse _

/-- A descriptor of a closing base. -/
theorem closeFd (hr : Loose Fits R) (b : BaseId) (fd : Nat) : R w (closeFd b w fd) := by
  unfold Tolunnet.closeFd
  split
  · exact hr.refl w
  · exact hr.ite (hr.trans (hr.setFd ..) hr.tnSlotUnref)

/-- A descriptor gets the socket of another one. -/
theorem tnIpcCmdDup2 (hr : Loose Fits R) (slot : Option SlotIdx) :
    R w (tnIpcCmdDup2 w m slot).1 := by
  unfold Tolunnet.tnIpcCmdDup2
  dsimp only
  split
  · split_ifs
    · exact hr.refuse _
    · exact hr.accede _ _
    · exact hr.done (hr.trans (hr.trans (hr.closeFd ..) (hr.setFd ..)) hr.tnSlotRef) _ _
  · exact hr.refuse _

/-- A socket is parked under an id. -/
theorem tnIpcCmdReleasesocket (hr : Loose Fits R) (slot : Option SlotIdx) :
    R w (tnIpcCmdReleasesocket w m slot).1 := by
  unfold Tolunnet.tnIpcCmdReleasesocket
  dsimp only
  split
  · rename_i i b _
    split
    · exact hr.refuse _
    · split
      · rename_i heq
        exact hr.fail (of_pair heq (hr.chooseParkId _)) _
      · rename_i w1 id heq
        have parked : R w1 (w1.modSlot i fun s => { s with isParked := true, parkId := id }) :=
          hr.parked w1 i _ rfl rfl rfl
        refine hr.done (hr.trans (hr.trans (of_pair heq (hr.chooseParkId _)) parked) ?_) _ _
        split
        · exact hr.tnSlotRef
        · exact hr.setFd ..
  · exact hr.refuse _

/-! ## Bases -/

theorem unregisterBase (hr : Loose Fits R) (b : Option BaseId) : R w (unregisterBase w b) := by
  unfold Tolunnet.unregisterBase
  split
  · exact hr.bases w _ _ _
  · exact hr.refl w

theorem registerBase (hr : Loose Fits R) (k : Fin 16) (b : BaseId) : R w (registerBase w k b) :=
  hr.bases w _ _ _

/-- Everything a base has is given back. -/
theorem closeBase (hr : Loose Fits R) (b : BaseId) : R w (closeBase w b) := by
  unfold Tolunnet.closeBase
  dsimp only
  refine hr.trans ?_ (hr.tnSlotClearOwnerBase b)
  refine hr.trans ?_ (hr.tnSelectorDisarmAllForBase b)
  refine hr.trans ?_ (hr.foldl _ _ (fun _ fd _ => hr.closeFd b fd) _)
  refine hr.trans ?_ (hr.unregisterBase _)
  exact hr.trans (hr.tnDnsCancelForBase2 ..) (hr.replies.tnRecvCancelForBase2 ..)

/-- `CLOSE` gives a base back. -/
theorem tnIpcCmdClose (hr : Loose Fits R) : R w (tnIpcCmdClose w m).1 := by
  unfold Tolunnet.tnIpcCmdClose
  split
  · exact hr.done (hr.closeBase _) _ _
  · exact hr.done (hr.unregisterBase _) _ _

/-- The reaper gives a base back without answering. -/
theorem reapBase (hr : Loose Fits R) (b : BaseId) : R w (reapBase w b) := by
  unfold Tolunnet.reapBase
  dsimp only
  have dropped := hr.trans
    (hr.trans (hr.tnDnsCancelForBase2 (w := w) b false) (hr.replies.tnRecvCancelForBase2 b false))
    (hr.foldl (dropPendingAt b) (List.finRange 64) (fun _ _ _ => hr.replies.dropPendingAt b) _)
  have closed := hr.trans dropped (hr.closeBase b)
  generalize Tolunnet.closeBase _ b = w1 at closed ⊢
  exact hr.trans closed (hr.rest _ _ rfl)

/-- The bases of dead tasks are given back. -/
theorem tnReapDeadClients (hr : Loose Fits R) : R w (tnReapDeadClients w) := by
  refine hr.foldl _ _ (fun w k _ => ?_) w
  unfold reapAt
  split
  · exact hr.refl w
  · split
    · exact hr.refl w
    · exact hr.reapBase _

/-- A base is registered, if need be in the place of a dead one. -/
theorem tnIpcCmdOpen (hr : Loose Fits R) : R w (tnIpcCmdOpen w m).1 := by
  unfold Tolunnet.tnIpcCmdOpen
  split
  · exact hr.accede _ _
  · rename_i b _
    have named : R w (giveHostname w b) := hr.giveHostname b
    dsimp only
    split
    · exact hr.done named _ _
    · split
      · exact hr.done (hr.trans named (hr.registerBase ..)) _ _
      · split
        · exact hr.done (hr.trans (hr.trans named hr.tnReapDeadClients) (hr.registerBase ..)) _ _
        · exact hr.fail (hr.trans named hr.tnReapDeadClients) _

/-! ## The daemon -/

/-- `STOP` waits until the daemon can end. -/
theorem tnIpcCmdStop (hr : Loose Fits R) : R w (tnIpcCmdStop w m).1 := by
  unfold Tolunnet.tnIpcCmdStop
  dsimp only
  generalize hw1 : (if (w.setReply m 0 .ok).libOpenCnt > 0 then _ else w.setReply m 0 .ok) = w1
  have reaped : R w w1 := by
    rw [← hw1]
    split
    · exact hr.trans (hr.setReply ..) hr.tnReapDeadClients
    · exact hr.setReply ..
  split_ifs
  · exact hr.fail reaped _
  · exact hr.fail reaped _
  · exact hr.trans reaped (hr.rest _ _ rfl)

/-- Ctrl-C ends the daemon when no base is left. -/
theorem ctrlC (hr : Loose Fits R) : R w (ctrlC w) := by
  unfold Tolunnet.ctrlC
  split
  · dsimp only
    split
    · exact hr.trans hr.tnReapDeadClients (hr.rest _ _ rfl)
    · exact hr.tnReapDeadClients
  · exact hr.rest _ _ rfl

/-- The daemon ends and answers `STOP`. -/
theorem shutdownAttempt (hr : Loose Fits R) : R w (shutdownAttempt w) := by
  have stopping : R w { w with stopping := true } := hr.rest _ _ rfl
  unfold Tolunnet.shutdownAttempt
  dsimp only
  have reaped := hr.trans stopping hr.tnReapDeadClients
  generalize Tolunnet.tnReapDeadClients { w with stopping := true } = w1 at reaped
  split
  · have back : R w1 { w1 with stopping := false, running := true } := hr.rest _ _ rfl
    split
    · rename_i m _
      have answered : R { w1 with stopping := false, running := true }
        ({ w1 with stopping := false, running := true }.answerMsg m (-1) .ebusy) := hr.answerMsg ..
      exact hr.trans (hr.trans (hr.trans reaped back) answered) (hr.rest _ _ rfl)
    · exact hr.trans reaped (hr.rest _ _ rfl)
  · exact reaped

end Loose

end Tolunnet
