import Tolunnet.Desk.Events
import Tolunnet.Refine.Events

/-!
# `Tolunnet.Desk.Handlers`: the handlers in the accounts

Every handler of the daemon as moves, from the state with its message in hand: `Handled P m w r`
says that the message is still in hand when the handler wants it replied, and that it has been
parked when the handler defers. Most handlers touch no account and are `Plain`. The marked moves
come from four places: `RELEASESOCKET` parks a socket, `GETHOSTBYNAME` defers a lookup, an
`IP_DROP_MEMBERSHIP` can leave a group without a record, and the reaper drops lookups.
-/

set_option autoImplicit false

namespace Tolunnet

open World

variable {P : Mark → Prop} {h : List MsgId} {w : World} {m : MsgId} {i : SlotIdx} {p : PcbId}

/-! ## Selectors -/

/-- `SELECT_ARM` answers at once. -/
theorem tnIpcCmdSelectArm_plain : Plain w (tnIpcCmdSelectArm w m) where
  now := by
    unfold tnIpcCmdSelectArm
    dsimp only
    repeat' split
    all_goals rfl
  same h := Stock.tnIpcCmdSelectArm (desk_same h)

/-- `SELECT_DISARM` answers at once. -/
theorem tnIpcCmdSelectDisarm_plain : Plain w (tnIpcCmdSelectDisarm w m) where
  now := by
    unfold tnIpcCmdSelectDisarm
    split <;> rfl
  same h := Stock.tnIpcCmdSelectDisarm (desk_same h)

/-- `WAITSELECT` answers at once. -/
theorem tnIpcCmdWaitselect_plain : Plain w (tnIpcCmdWaitselect w m) where
  now := by
    unfold tnIpcCmdWaitselect
    dsimp only
    repeat' split
    all_goals rfl
  same h := Stock.tnIpcCmdWaitselect (desk_same h)

/-! ## Streams -/

/-- `LISTEN` answers at once. -/
theorem tnIpcCmdListen_plain (slot : Option SlotIdx) : Plain w (tnIpcCmdListen w m slot) := by
  unfold tnIpcCmdListen
  split
  · exact .fail (fun _ => rfl) _
  · dsimp only
    split
    · exact .fail (fun _ => rfl) _
    · split
      · exact .fail (fun _ => rfl) _
      · split
        · exact .done (fun _ => by simp) _ _
        · split
          · rename_i heq
            exact .fail (fun h => desk_of_eq heq (desk_blind h).tcpListenWithBacklog) _
          · rename_i heq
            refine .done (fun h => ?_) _ _
            refine Eq.trans ?_ (desk_of_eq heq (desk_blind h).tcpListenWithBacklog)
            exact ((desk_blind h).tcpAccept true).trans (by simp)

/-- A taken entry touches no account. -/
@[simp] theorem desk_takeEntry (j : SlotIdx) (ent : TnAcceptEntry) :
    desk h (takeEntry w m i j ent) = desk h w := by
  unfold takeEntry
  dsimp only
  split <;> simp

/-- The descriptor of an accepted connection is in no account. -/
@[simp] theorem desk_recordAccepted (j : SlotIdx) : desk h (recordAccepted w j) = desk h w := by
  unfold recordAccepted
  dsimp only
  split_ifs <;> simp

/-- A queued connection is accepted. -/
theorem acceptQueued_handled (ent : TnAcceptEntry) :
    Handled P m w (acceptQueued w m i ent) := by
  unfold acceptQueued
  dsimp only
  have popped : Moves P (desk [m] w) (desk [m] (tnAcceptQueuePopEntry w i)) := .none (by simp)
  refine Handled.trans popped ?_
  generalize tnAcceptQueuePopEntry w i = w1
  split
  · exact .fail (.none (by simp)) _
  · rename_i j _
    refine Handled.trans (tnSlotAlloc_moves j (w.msgs m).socketBase (w.msgs m).clientTask afInet
      sockStream 0) ?_
    generalize tnSlotAlloc w1 j _ _ _ _ _ = w2
    split
    · exact .fail ((tnSlotFree_moves j).congr (by simp)) _
    · exact .done (.none (by simp)) _ _

/-- `ACCEPT` answers, refuses or parks. -/
theorem tnIpcCmdAccept_handled (slot : Option SlotIdx) :
    Handled P m w (tnIpcCmdAccept w m slot) := by
  unfold tnIpcCmdAccept
  split
  · exact .fail .refl _
  · dsimp only
    split
    · exact .fail .refl _
    · split
      · exact acceptQueued_handled _
      · split
        · exact .fail .refl _
        · exact .put rfl (desk_setPending ..)

/-- `tcp_connect` leaves the slots alone. -/
theorem sockets_tcpConnect (ip port : Nat) : (tcpConnect w p ip port).1.sockets = w.sockets := by
  unfold tcpConnect
  split
  · rfl
  · split_ifs <;> rfl

/-- Between the SYN and the end of the handler lwIP may complete the handshake and answer the
parked request. The handler asks the slot again whether it blocks, and gets the same answer. -/
theorem connectStream_handled (hu : (w.sockets i).inUse = true) (a : SockIn) :
    Handled P m w (connectStream w m i p a) := by
  unfold connectStream
  dsimp only
  generalize hv : (if (w.sockets i).isNonblocking = true then none else some m) = v
  generalize hw1 : tcpSent (tcpRecv (((w.modSlot i _).setPending i .connect v)) p .slot) p true = w1
  have desk1 : ∀ h, desk h w1 = (desk h w).setPend i .connect v := fun h => by
    rw [← hw1]
    simp
  have slot1 : (w1.sockets i).inUse = true ∧
      (w1.sockets i).isNonblocking = (w.sockets i).isNonblocking ∧
      (w1.sockets i).pending .connect = v := by
    rw [← hw1, tcpSent, (Only.onFull _ _).sockets, tcpRecv, (Only.onFull _ _).sockets]
    simp [setPending, modSlot, hu]
  -- the parked request leaves the hand, a refused one stays in it
  have parked : Moves P (desk [m] w) (desk (if v = none then [m] else []) w1) := by
    cases hb : (w.sockets i).isNonblocking with
    | true =>
      rw [hb, if_pos rfl] at hv
      subst hv
      exact .one (.lose _ i .connect) (desk1 _)
    | false =>
      rw [hb, if_neg Bool.false_ne_true] at hv
      subst hv
      refine .one (.put (desk [m] w) i .connect m (List.mem_cons_self ..)) ?_
      rw [if_neg (by simp), desk1]
      simp [desk, Desk.setPend, Desk.setHand]
  split
  · rename_i w2 heq
    have desk2 : ∀ h, desk h w2 = desk h w1 := fun h => desk_of_eq heq ((desk_blind h).tcpConnect ..)
    have slots2 : w2.sockets = w1.sockets := by
      have := sockets_tcpConnect (w := w1) (p := p) a.addr a.port
      rw [heq] at this
      exact this
    have calm : Calm w2 (tnDrainLoopback (tcpOutput w2 p)) :=
      (Only.readFull _).calm.trans .tnDrainLoopback
    have mode := (calm.slots i (by rw [slots2, slot1.1])).nonblock
    rw [slots2, slot1.2.1] at mode
    have drained : ∀ h, Moves P (desk h w1) (desk h (tnDrainLoopback (tcpOutput w2 p))) := fun h =>
      (Moves.none (by simp [desk2])).trans desk_wide.tnDrainLoopback
    rw [mode]
    split
    · rename_i hb
      rw [if_pos hb] at hv
      rw [← hv, if_pos rfl] at parked
      exact .fail (parked.trans (drained _)) _
    · rename_i hb
      rw [if_neg hb] at hv
      rw [← hv, if_neg (by simp)] at parked
      exact parked.trans (drained _)
  · rename_i w2 e _ heq
    have desk2 : ∀ h, desk h w2 = desk h w1 := fun h => desk_of_eq heq ((desk_blind h).tcpConnect ..)
    refine .fail (parked.trans ?_) _
    obtain rfl | rfl : v = none ∨ v = some m := by
      rw [← hv]
      split <;> simp
    · rw [if_pos rfl, ← desk2]
      exact Moves.one (.lose _ i .connect) (by simp)
    · have pend2 : (desk [] w2).pend i .connect = some m := by
        rw [desk2]
        exact slot1.2.2
      rw [if_neg (by simp), ← desk2]
      exact Moves.one (.take _ i .connect m pend2) ((desk_assign i _ rfl rfl rfl rfl).trans
        (desk_setPending ..))

/-- A datagram `CONNECT`. -/
theorem connectDgram_plain (a : SockIn) : Plain w (connectDgram w m i a) where
  now := by
    unfold connectDgram
    dsimp only
    repeat' split
    all_goals rfl
  same h := Stock.connectDgram (desk_same h) a

/-- `CONNECT` answers, refuses or parks. -/
theorem tnIpcCmdConnect_handled (hu : (w.sockets i).inUse = true) :
    Handled P m w (tnIpcCmdConnect w m (some i)) := by
  unfold tnIpcCmdConnect
  dsimp only
  cases ((w.msgs m).ptrs 0).mem? with
  | none => exact .fail .refl _
  | some sin =>
    dsimp only
    split
    · exact .fail .refl _
    · split
      · generalize hw1 : (if (w.sockets i).tcpState = .error then _ else w) = w1
        have clear : ∀ h, desk h w1 = desk h w := fun h => by
          rw [← hw1]
          split <;> simp
        have hu1 : (w1.sockets i).inUse = true := by
          rw [← hw1]
          split
          · simpa [modSlot] using hu
          · exact hu
        split
        · split
          · exact .fail (.none (clear _)) _
          · exact Handled.trans (.none (clear _)) (connectStream_handled hu1 _)
        · exact .fail (.none (clear _)) _
      · exact (connectDgram_plain _).handled

/-! ## Sending -/

/-- A send that parks hands the message to the slot. -/
theorem parkSend_handled (q : PcbId) (iov : Option (List Iovec)) (len done : Nat) :
    Handled P m w (parkSend w m i q iov len done, .defer) := by
  refine .put (k := .send) (i := i) rfl ?_
  simp [parkSend]

/-- What a send does after its burst. -/
theorem sendFinish_handled (iov : Option (List Iovec)) (len : Nat) (nonblock : Bool) (done : Nat)
    (werr : ErrT) : Handled P m w (sendFinish w m i iov len nonblock done werr) := by
  unfold sendFinish
  split
  · exact .done (.none (by simp)) _ _
  · split_ifs
    · exact .done .refl _ _
    · exact .done .refl _ _
    · exact .fail .refl _
    · exact parkSend_handled _ _ _ _

/-- The start of a send is in no account. -/
@[simp] theorem desk_sendStart (c : CallNo) (pl : List UInt8) :
    desk h (w.emit (.sendStart c pl)) = desk h w := desk_emit _ rfl

/-- A stream send. -/
theorem tnTcpSendStream_handled (buf : Mem) (iov : Option (List Iovec)) (len : Nat) (flags : Int) :
    Handled P m w (tnTcpSendStream w m i buf iov len flags) := by
  unfold tnTcpSendStream
  dsimp only
  have started : Moves P (desk [m] w) (desk [m] (w.emit (.sendStart (w.callOf m)
      (sendPayload buf iov len)))) := .none (by simp)
  refine Handled.trans started ?_
  generalize w.emit _ = w1
  split_ifs
  · exact .fail .refl _
  · exact .fail (.none (by simp)) _
  · exact .fail (.none (by simp)) _
  · exact .fail .refl _
  · exact .fail .refl _
  · exact .fail .refl _
  · exact Handled.trans (desk_wide.sendLoop ..) (sendFinish_handled ..)

/-- A datagram send. -/
theorem sendDatagram_handled (dst : Nat × Nat) (bytes : List UInt8) (drainOk drainErr : Bool) :
    Handled P m w (sendDatagram w m p dst bytes drainOk drainErr) := by
  unfold sendDatagram
  dsimp only
  split
  · generalize hw1 : (w.asked.out (.datagram p dst.1 dst.2 bytes)).asked = w1
    have sent : Moves P (desk [m] w) (desk [m] w1) := .none (by rw [← hw1]; simp)
    have drained : ∀ (c : Prop) [Decidable c],
        Moves P (desk [m] w) (desk [m] (if c then tnDrainLoopback w1 else w1)) := by
      intro c _
      split
      · exact sent.trans desk_wide.tnDrainLoopback
      · exact sent
    split
    · exact .done (drained _) _ _
    · exact .fail (drained _) _
  · exact .fail (.none (by simp)) _

/-- `SEND` answers, refuses or parks. -/
theorem tnIpcCmdSend_handled (slot : Option SlotIdx) : Handled P m w (tnIpcCmdSend w m slot) := by
  unfold tnIpcCmdSend
  dsimp only
  split
  · split
    · exact .fail .refl _
    · split
      · exact tnTcpSendStream_handled ..
      · split
        · split
          · unfold sendUdp
            dsimp only
            split_ifs
            · exact .fail .refl _
            · exact .fail .refl _
            · exact sendDatagram_handled ..
          · exact .fail .refl _
        · split
          · split
            · unfold sendRaw
              dsimp only
              split_ifs
              · exact .fail .refl _
              · exact .fail .refl _
              · exact sendDatagram_handled ..
            · exact .fail .refl _
          · exact .fail .refl _
  · exact .fail .refl _

/-- `SHUTDOWN`, which may answer a parked receive. -/
theorem tnIpcCmdShutdown_handled (slot : Option SlotIdx) :
    Handled P m w (tnIpcCmdShutdown w m slot) := by
  have now : (tnIpcCmdShutdown w m slot).2 = .replyNow := by
    unfold tnIpcCmdShutdown
    dsimp only
    repeat' split
    all_goals rfl
  unfold Handled
  rw [if_pos now]
  exact desk_callbacks.tnIpcCmdShutdown slot

/-! ## Datagrams -/

/-- `BIND` answers at once. -/
theorem tnIpcCmdBind_plain (slot : Option SlotIdx) : Plain w (tnIpcCmdBind w m slot) where
  now := by
    have bound : ∀ r : World × ErrT, (bindDone r m).2 = .replyNow := fun r => by
      obtain ⟨w', e⟩ := r
      cases e <;> rfl
    unfold tnIpcCmdBind
    dsimp only
    repeat' split
    all_goals first | rfl | exact bound _
  same h := Stock.tnIpcCmdBind (desk_same h) (fun _ _ => (desk_blind h).onPcb _) (fun _ _ => rfl) slot

/-- A UDP `SENDTO`. -/
theorem sendtoUdp_handled (toAddr : Option SockIn) (len : Nat) (bytes : List UInt8) :
    Handled P m w (sendtoUdp w m p toAddr len bytes) := by
  unfold sendtoUdp
  dsimp only
  split
  · exact .fail .refl _
  · split
    · exact .fail .refl _
    · exact sendDatagram_handled ..

/-- A raw `SENDTO`. -/
theorem sendtoRaw_handled (toAddr : Option SockIn) (bytes : List UInt8) :
    Handled P m w (sendtoRaw w m p toAddr bytes) := by
  unfold sendtoRaw
  dsimp only
  split
  · exact .fail .refl _
  · exact sendDatagram_handled ..

/-- `SENDTO` answers or refuses. -/
theorem tnIpcCmdSendto_handled (slot : Option SlotIdx) :
    Handled P m w (tnIpcCmdSendto w m slot) := by
  unfold tnIpcCmdSendto
  dsimp only
  split
  · split
    · exact .fail .refl _
    · split
      · exact tnIpcCmdSend_handled _
      · split
        · split
          · exact sendtoUdp_handled ..
          · exact .fail .refl _
        · split
          · split
            · exact sendtoRaw_handled ..
            · exact .fail .refl _
          · exact .fail .refl _
  · exact .fail .refl _

/-- `SENDMSG` with its vector checked. -/
theorem sendmsgChecked_handled (iovs : List Iovec) (total : Nat) (toAddr : Option SockIn)
    (flags : Int) : Handled P m w (sendmsgChecked w m i iovs total toAddr flags) := by
  unfold sendmsgChecked
  dsimp only
  split
  · split
    · rename_i v
      have reshaped : Moves P (desk [m] w) (desk [m] (reshapeSend w m v flags)) := .none rfl
      exact Handled.trans reshaped (tnIpcCmdSend_handled _)
    · exact tnTcpSendStream_handled ..
  · split
    · split
      · exact sendtoUdp_handled ..
      · exact .fail .refl _
    · split
      · split
        · exact sendDatagram_handled ..
        · exact .fail .refl _
      · exact .fail .refl _

/-- `SENDMSG` answers, refuses or parks. -/
theorem tnIpcCmdSendmsg_handled (slot : Option SlotIdx) :
    Handled P m w (tnIpcCmdSendmsg w m slot) := by
  unfold tnIpcCmdSendmsg
  dsimp only
  split
  · split
    · exact .fail .refl _
    · split
      · exact .fail .refl _
      · split
        · exact .fail .refl _
        · split
          · exact .fail .refl _
          · split
            · exact .fail .refl _
            · exact sendmsgChecked_handled ..
  · exact .fail .refl _
  · exact .fail .refl _

/-! ## Options -/

/-- Options are in no account. -/
@[simp] theorem desk_modOpts (f : TnSockOpts → TnSockOpts) : desk h (modOpts w i f) = desk h w :=
  (desk_blind h).modOpts ..

/-- A `tcp_pcb` field is in no account. -/
@[simp] theorem desk_onTcpOf (f : TcpPcb → TcpPcb) : desk h (onTcpOf w i f) = desk h w :=
  (desk_blind h).onTcpOf ..

/-- A flag of a `tcp_pcb` is in no account. -/
@[simp] theorem desk_onFullOf (op : PcbOp) (f : TcpPcb → TcpPcb) :
    desk h (onFullOf w i op f) = desk h w := (desk_blind h).onFullOf ..

/-- A `udp_pcb` field is in no account. -/
@[simp] theorem desk_onUdpOf (f : DgramPcb → DgramPcb) : desk h (onUdpOf w i f) = desk h w := by
  unfold onUdpOf
  split <;> simp

/-- A `raw_pcb` field is in no account. -/
@[simp] theorem desk_onRawOf (f : DgramPcb → DgramPcb) : desk h (onRawOf w i f) = desk h w := by
  unfold onRawOf
  split <;> simp

/-- The segment size is only read. -/
@[simp] theorem desk_readMss : desk h (readMss w i) = desk h w := (desk_blind h).readMss

/-- A receive timer is in no account. -/
@[simp] theorem desk_restartRecv : desk h (restartRecv w i) = desk h w := (desk_blind h).restartRecv

/-- A send timer is in no account. -/
@[simp] theorem desk_restartSend : desk h (restartSend w i) = desk h w := (desk_blind h).restartSend

/-- The state `setsockopt` goes on with after an option was applied or refused. -/
def optWorld (r : Except Errno World × World) : World :=
  match r.1 with
  | .ok w => w
  | .error _ => r.2

/-- A membership is added, or refused. -/
theorem addMembership_moves (grp ifa : Nat) :
    Moves P (desk h w) (desk h (optWorld (addMembership w i grp ifa))) := by
  unfold addMembership igmpJoingroup
  split
  · exact .refl
  · rename_i k hk
    have free : (w.mcastJoins k).inUse = false := by simpa using List.find?_some hk
    by_cases ha : w.ask.err = .ok
    · rw [if_pos ha]
      exact .one (.join (desk h w) k { inUse := true, slot := i, grp := grp, ifa := ifa } free rfl) rfl
    · rw [if_neg ha]
      split
      · rename_i heq
        exact absurd (Prod.mk.inj heq).2 ha
      · rename_i heq
        obtain ⟨rfl, -⟩ := Prod.mk.inj heq
        exact .refl

/-- A drop that leaves a group of which the slot has no record. -/
def StraysAt (w : World) (i : SlotIdx) (grp ifa : Nat) : Prop :=
  mcastOf? w i grp ifa = none ∧ (0 < w.igmpUse (ifa, grp) ∨ w.ask.err = .ok)

/-- What `tn_mcast_find` says about the record it finds. -/
theorem mcastOf?_some {grp ifa : Nat} {k : Fin 8} (hk : mcastOf? w i grp ifa = some k) :
    (w.mcastJoins k).inUse = true ∧ (w.mcastJoins k).slot = i ∧ (w.mcastJoins k).grp = grp ∧
      (w.mcastJoins k).ifa = ifa := by
  have := List.find?_some hk
  simpa [and_assoc] using this

/-- A membership is dropped; without a record of it the drop is a stray. -/
theorem dropMembership_moves {grp ifa : Nat} (hs : StraysAt w i grp ifa → P .stray) :
    Moves P (desk h w) (desk h (optWorld (dropMembership w i grp ifa))) := by
  unfold dropMembership igmpLeavegroup
  by_cases ha : 0 < w.igmpUse (ifa, grp) ∨ w.ask.err = .ok
  · rw [if_pos ha]
    dsimp only
    have find : mcastOf? (w.asked.addUse ifa grp (-1)) i grp ifa = mcastOf? w i grp ifa := rfl
    rw [find]
    split
    · rename_i k hk
      obtain ⟨hu, -, rfl, rfl⟩ := mcastOf?_some hk
      exact .one (.leave (desk h w) k hu) rfl
    · rename_i hk
      exact .one (.stray (desk h w) ifa grp (hs ⟨hk, ha⟩)) rfl
  · rw [if_neg ha]
    split
    · rename_i heq
      exact absurd (Or.inr (Prod.mk.inj heq).2) ha
    · rename_i heq
      obtain ⟨rfl, -⟩ := Prod.mk.inj heq
      exact .refl

/-- An option is applied. -/
theorem applySockopt_moves (o : SockOpt) (f : Mem) (optlen : Int)
    (hs : o = .dropMembership → StraysAt w i (be32 f 0) (be32 f 4) → P .stray) :
    Moves P (desk h w) (desk h (optWorld (applySockopt w i o f optlen))) := by
  unfold applySockopt
  dsimp only
  cases o with
  | addMembership => exact addMembership_moves _ _
  | dropMembership => exact dropMembership_moves (hs rfl)
  | maxseg =>
    dsimp only
    split <;> exact .none (by simp [optWorld])
  | keepidle =>
    dsimp only
    split <;> exact .none (by simp [optWorld])
  | keepintvl =>
    dsimp only
    split <;> exact .none (by simp [optWorld])
  | keepcnt =>
    dsimp only
    split <;> exact .none (by simp [optWorld])
  | _ => exact .none (by simp [optWorld])

/-- The message asks to drop a membership, and the group is left without a record. -/
def Strays (w : World) (m : MsgId) (i : SlotIdx) : Prop :=
  ∃ f, ((w.msgs m).ptrs 0).mem? = some f ∧
    sockOpt (w.sockets i).type ((w.msgs m).args 1) ((w.msgs m).args 2) = .ok .dropMembership ∧
    8 ≤ (w.msgs m).args 3 ∧ StraysAt w i (be32 f 0) (be32 f 4)

/-- `SETSOCKOPT` answers at once. -/
theorem tnIpcCmdSetsockopt_handled (hs : Strays w m i → P .stray) :
    Handled P m w (tnIpcCmdSetsockopt w m (some i)) := by
  unfold tnIpcCmdSetsockopt
  dsimp only
  cases hf : ((w.msgs m).ptrs 0).mem? with
  | none => exact .fail .refl _
  | some f =>
    dsimp only
    split
    · exact .fail .refl _
    · rename_i o ho
      split
      · exact .fail .refl _
      · split
        · exact .fail .refl _
        · rename_i hlen
          have applied := applySockopt_moves (P := P) (h := [m]) (w := w) (i := i) o f
            ((w.msgs m).args 3) (by
              rintro rfl hst
              refine hs ⟨f, hf, ho, ?_, hst⟩
              simpa [minOptlen] using hlen)
          split
          · rename_i heq
            rw [heq] at applied
            exact .fail applied _
          · rename_i heq
            rw [heq] at applied
            exact .done applied _ _

/-- `GETSOCKOPT` answers at once. -/
theorem tnIpcCmdGetsockopt_plain (slot : Option SlotIdx) :
    Plain w (tnIpcCmdGetsockopt w m slot) where
  now := by
    unfold tnIpcCmdGetsockopt getSockopt
    dsimp only
    repeat' split
    all_goals rfl
  same h := Stock.tnIpcCmdGetsockopt (desk_same h) slot

end Tolunnet
