import Tolunnet.Task.Daemon

/-!
# `Tolunnet.Calls.Accept`: the two ways a connection becomes a socket

A connection that arrives while an `accept` is parked is handed over by `tn_tcp_accept_cb`; one that
arrives before waits in the queue until `tn_ipc_cmd_accept` takes it. The two are separate copies in
the source, and they own the pcb differently: the callback aborts it and returns `ERR_ABRT`, the
handler frees the queue entry.

`delivered` and `queued` are one state with the connection on its way by the one path and by the
other. `tnTcpAcceptCb_eq` and `tnIpcCmdAccept_eq` bring both to `acceptInto`.
-/

set_option autoImplicit false

namespace Tolunnet

open World

namespace Accept

variable {u w x : World} {m : MsgId} {i j : SlotIdx} {p : PcbId} {c : TcpPcb} {e : EntId}

/-! ## The two states -/

/-- The entry `tn_accept_queue_push` makes for connection `p` of listener `i`. -/
def newEntry (i : SlotIdx) (p : PcbId) (e : EntId) : TnAcceptEntry :=
  { id := e, newPcb := some p, listeningSlot := i }

/-- A pcb that waits in the queue with entry `e`. -/
def queuedPcb (c : TcpPcb) (e : EntId) : TcpPcb :=
  { c with arg := .entry e, recv := .queued, err := .queued }

/-- Connection `p` is about to be handed to listener `i`, where request `m` is parked. -/
def delivered (u : World) (m : MsgId) (i : SlotIdx) (p : PcbId) (c : TcpPcb) : World :=
  (u.setPending i .accept (some m)).setPcb p (some c)

/-- Connection `p` is the next in the queue of listener `i`, and no request is parked. -/
def queued (u : World) (i : SlotIdx) (p : PcbId) (c : TcpPcb) (e : EntId) : World :=
  ((u.setPending i .accept none).modSlot i fun s =>
    { s with acceptQ := newEntry i p e :: s.acceptQ
             acceptCount := s.acceptCount + 1 }).setPcb p (some (queuedPcb c e))

/-- The message loop replies to a request that was not deferred. -/
def handled (m : MsgId) (r : World × TnIpcReplyAction) : World :=
  if r.2 = .replyNow then r.1.replyMsg m else r.1

/-! ## What both paths do -/

/-- The pcb fields an accepted connection takes over. -/
def inherited (c : TcpPcb) (l : TnSockOpts) : TcpPcb :=
  { c with
    keepIdle := if l.keepidle > 0 then l.keepidle.toNat * 1000 % 2 ^ 32 else c.keepIdle
    keepIntvl := if l.keepintvl > 0 then l.keepintvl.toNat * 1000 % 2 ^ 32 else c.keepIntvl
    keepCnt := if l.keepcnt > 0 then l.keepcnt.toNat else c.keepCnt
    mss := if l.mss > 0 then if l.mss < c.mss then l.mss else c.mss else c.mss }

/-- The pcb of an accepted connection in slot `j`. -/
def adopted (c : TcpPcb) (l : TnSockOpts) (j : SlotIdx) : TcpPcb :=
  { inherited c l with
    nagleOff := true
    arg := .slot j
    recv := .slot
    sent := true
    err := .slot }

/-- The new slot of a connection. -/
def newSlot (x : TnIpcMsg) (l : TnSockOpts) (p : PcbId) : TnSocketSlot :=
  let s := tnInitSocketSlot x.socketBase x.clientTask afInet sockStream 0
  { s with
    tcpState := .established
    tcpPcb := some p
    opts := inheritOpts s.opts l }

/-- The new slot before it is given the connection, and released again. -/
def released (x : World) (m : MsgId) (j : SlotIdx) : World :=
  tnSlotFree (tnSlotAlloc x j (x.msgs m).socketBase (x.msgs m).clientTask afInet sockStream 0) j

/-- The connection becomes the socket with slot `j` and descriptor `fd`. -/
def opened (x : World) (m : MsgId) (i : SlotIdx) (p : PcbId) (c : TcpPcb) (j : SlotIdx) (fd : Nat) :
    World :=
  let l := (x.sockets i).opts
  let w := x.setFd ((x.msgs m).socketBase.getD 0) fd (some j)
  let w := (w.modSlot j fun _ => newSlot (x.msgs m) l p).setPcb p (some (adopted c l j))
  let w := tnStoreClientSockaddr w m 0 1 c.remotePort c.remoteIp
  ((tnRecordSocketEvent w j fdWrite).setReply m fd .ok).replyMsg m

/-- Request `m` takes connection `p` of listener `i`; in `x` nothing refers to the connection any
more. -/
def acceptInto (x : World) (m : MsgId) (i : SlotIdx) (p : PcbId) (c : TcpPcb) : World × ErrT :=
  match freeSlot? x with
  | none => ((x.setPcb p none).answerMsg m (-1) .enfile, .abrt)
  | some j =>
    match pickFd? (x.bases ((x.msgs m).socketBase.getD 0)) ((x.msgs m).args 3) with
    | none => (((released x m j).setPcb p none).answerMsg m (-1) .emfile, .abrt)
    | some fd => (opened x m i p c j fd, .ok)

/-! ## A full pcb -/

/-- The last assignment counts. -/
theorem setPcb_setPcb (a b : Option TcpPcb) : (w.setPcb p a).setPcb p b = w.setPcb p b := by
  simp only [setPcb, Function.update_idem]

/-- A call on a full pcb is an assignment. -/
theorem onFull_setPcb (hl : c.listen = false) (op : PcbOp) (f : TcpPcb → TcpPcb) :
    (w.setPcb p (some c)).onFull p op f = w.setPcb p (some (f c)) := by
  have here : (w.setPcb p (some c)).tcpPcbs p = some c := Function.update_self ..
  unfold onFull
  rw [here]
  simp only [hl, Bool.false_eq_true, if_false]
  exact setPcb_setPcb ..

/-- So is a change. -/
theorem onPcb_setPcb (f : TcpPcb → TcpPcb) :
    (w.setPcb p (some c)).onPcb p f = w.setPcb p (some (f c)) := by
  have here : (w.setPcb p (some c)).tcpPcbs p = some c := Function.update_self ..
  unfold onPcb
  rw [here]
  exact setPcb_setPcb ..

/-- So is a call under a condition. -/
theorem onFull_if (hl : c.listen = false) (b : Prop) [Decidable b] (op : PcbOp)
    (f : TcpPcb → TcpPcb) :
    (if b then (w.setPcb p (some c)).onFull p op f else w.setPcb p (some c)) =
      w.setPcb p (some (if b then f c else c)) := by
  split
  · exact onFull_setPcb hl op f
  · rfl

/-- A change under a condition keeps the pcb full. -/
theorem listen_if (hl : c.listen = false) (b : Prop) [Decidable b] {f : TcpPcb → TcpPcb}
    (hf : (f c).listen = c.listen) : (if b then f c else c).listen = false := by
  split
  · exact hf.trans hl
  · exact hl

/-- The new pcb gets the options of the listener. -/
theorem inheritPcb_setPcb (hl : c.listen = false) (l : TnSockOpts) :
    inheritPcb (w.setPcb p (some c)) p l = w.setPcb p (some (inherited c l)) := by
  have idle := listen_if hl (l.keepidle > 0)
    (f := fun c => { c with keepIdle := l.keepidle.toNat * 1000 % 2 ^ 32 }) rfl
  have intvl := listen_if idle (l.keepintvl > 0)
    (f := fun c => { c with keepIntvl := l.keepintvl.toNat * 1000 % 2 ^ 32 }) rfl
  have cnt := listen_if intvl (l.keepcnt > 0)
    (f := fun c => { c with keepCnt := l.keepcnt.toNat }) rfl
  unfold inheritPcb
  dsimp only
  rw [onFull_if hl, onFull_if idle, onFull_if intvl, onFull_if cnt]
  unfold inherited
  congr 2
  split_ifs <;> rfl

/-- The new pcb is registered, gets the options, and its address goes to the client. -/
theorem adoptPcb_setPcb (hl : c.listen = false) :
    adoptPcb (w.setPcb p (some c)) m i j p =
      tnStoreClientSockaddr
        ((w.modSlot j fun s => { s with opts := inheritOpts s.opts (w.sockets i).opts }).setPcb p
          (some (adopted c (w.sockets i).opts j))) m 0 1 c.remotePort c.remoteIp := by
  have nagle : tcpNagle (w.setPcb p (some c)) p true =
      w.setPcb p (some { c with nagleOff := true }) := onFull_setPcb hl ..
  have registered : ∀ (w : World) (c : TcpPcb), c.listen = false →
      registerSlot (w.setPcb p (some c)) p j =
        w.setPcb p (some { c with arg := .slot j, recv := .slot, sent := true, err := .slot }) := by
    intro w c hl
    unfold registerSlot tcpErr tcpSent tcpRecv tcpArg
    rw [onPcb_setPcb, onFull_setPcb, onFull_setPcb, onFull_setPcb] <;> exact hl
  have read : ∀ (w : World) (c : TcpPcb), c.listen = false →
      (w.setPcb p (some c)).readFull p .remotePort = w.setPcb p (some c) := fun w c hl =>
    onFull_setPcb hl ..
  have peer : ∀ (w : World) (c : TcpPcb), peerOf (w.setPcb p (some c)) p =
      (c.remoteIp, c.remotePort) := fun w c => by
    unfold peerOf
    rw [show (w.setPcb p (some c)).tcpPcbs p = some c from Function.update_self ..]
  have slot : ∀ (w : World) (f : TnSocketSlot → TnSocketSlot) (c : TcpPcb),
      (w.setPcb p (some c)).modSlot j f = (w.modSlot j f).setPcb p (some c) := fun _ _ _ => rfl
  unfold adoptPcb
  dsimp only
  rw [nagle, slot, inheritPcb_setPcb, registered, read, peer]
  · rfl
  all_goals exact hl

/-! ## Giving up -/

/-- An aborted pcb is gone. -/
theorem tcpAbort_setPcb (hl : c.listen = false) (he : c.err = .null) :
    tcpAbort (w.setPcb p (some c)) p = w.setPcb p none := by
  have here : (w.setPcb p (some c)).tcpPcbs p = some c := Function.update_self ..
  unfold tcpAbort
  rw [here]
  dsimp only
  rw [if_neg (by simp [hl, he]), setPcb_setPcb]

/-- So is the pcb of an entry that is freed. -/
theorem tnAcceptEntryFree_setPcb (hl : c.listen = false) :
    tnAcceptEntryFree (w.setPcb p (some c)) (newEntry i p e) = w.setPcb p none := by
  unfold tnAcceptEntryFree newEntry tcpErr tcpRecv tcpArg
  dsimp only
  rw [onPcb_setPcb, onFull_setPcb, onFull_setPcb, tcpAbort_setPcb]
  · exact hl
  · rfl
  all_goals exact hl

/-- Leaving a group does not touch the pcb. -/
theorem igmpLeavegroup_setPcb (o : Option TcpPcb) (ifa grp : Nat) :
    igmpLeavegroup (w.setPcb p o) ifa grp =
      ((igmpLeavegroup w ifa grp).1.setPcb p o, (igmpLeavegroup w ifa grp).2) := by
  unfold igmpLeavegroup
  change (if 0 < w.igmpUse (ifa, grp) ∨ w.ask.err = .ok then _ else _) = _
  split <;> rfl

/-- One record. -/
theorem mcastLeaveAt_setPcb (o : Option TcpPcb) (k : Fin 8) :
    mcastLeaveAt j (w.setPcb p o) k = (mcastLeaveAt j w k).setPcb p o := by
  unfold mcastLeaveAt
  dsimp only
  rw [igmpLeavegroup_setPcb]
  change (if (w.mcastJoins k).inUse ∧ (w.mcastJoins k).slot = j then _ else _) = _
  split <;> rfl

/-- All records. -/
theorem tnMcastLeaveAll_setPcb (o : Option TcpPcb) :
    tnMcastLeaveAll (w.setPcb p o) j = (tnMcastLeaveAll w j).setPcb p o := by
  unfold tnMcastLeaveAll
  generalize List.finRange 8 = l
  induction l generalizing w with
  | nil => rfl
  | cons k l ih => rw [List.foldl_cons, List.foldl_cons, mcastLeaveAt_setPcb, ih]

/-- Leaving groups changes records, use counts and answers. -/
theorem tnMcastLeaveAll_shape (w : World) (j : SlotIdx) : ∃ joins uses env,
    tnMcastLeaveAll w j = { w with mcastJoins := joins, igmpUse := uses, env := env } := by
  unfold tnMcastLeaveAll
  generalize List.finRange 8 = l
  induction l generalizing w with
  | nil => exact ⟨_, _, _, rfl⟩
  | cons k l ih =>
    have one : ∃ joins uses env,
        mcastLeaveAt j w k = { w with mcastJoins := joins, igmpUse := uses, env := env } := by
      unfold mcastLeaveAt igmpLeavegroup
      dsimp only
      split
      · split <;> exact ⟨_, _, _, rfl⟩
      · exact ⟨_, _, _, rfl⟩
    obtain ⟨joins, uses, env, h⟩ := one
    obtain ⟨joins', uses', env', h'⟩ := ih (mcastLeaveAt j w k)
    refine ⟨joins', uses', env', ?_⟩
    rw [List.foldl_cons, h', h]

theorem sockets_tnMcastLeaveAll : (tnMcastLeaveAll w j).sockets = w.sockets := by
  obtain ⟨joins, uses, env, h⟩ := tnMcastLeaveAll_shape w j
  rw [h]

/-- A slot that is assigned itself. -/
theorem modSlot_self {f : TnSocketSlot → TnSocketSlot} (hf : f (w.sockets j) = w.sockets j) :
    w.modSlot j f = w := by
  unfold modSlot
  rw [hf, Function.update_eq_self]

/-- A slot that has just been allocated is released with nothing but the multicast records that
name it. -/
theorem tnSlotFree_new {b : Option BaseId} {t : TaskId} {d k q : Int}
    (hs : w.sockets j = tnInitSocketSlot b t d k q) :
    tnSlotFree w j = clearSlot (tnMcastLeaveAll w j) j := by
  have inUse : (w.sockets j).inUse = true := by rw [hs]; rfl
  rw [← congrFun sockets_tnMcastLeaveAll j] at hs
  unfold tnSlotFree
  rw [if_pos inUse]
  generalize tnMcastLeaveAll w j = x at hs
  have udp : freeUdp x j = x := by unfold freeUdp; rw [hs]; rfl
  have tcp : freeTcp x j = x := by unfold freeTcp; rw [hs]; rfl
  have raw : freeRaw x j = x := by unfold freeRaw; rw [hs]; rfl
  have rx : tnRxQueueDrain x j = x := modSlot_self (by rw [hs]; rfl)
  have empty : (x.sockets j).acceptQ = [] := by rw [hs]; rfl
  have queue : tnAcceptQueueDrain x j = x := by
    unfold tnAcceptQueueDrain
    rw [empty, List.foldl_nil]
    exact modSlot_self (by rw [hs]; rfl)
  have pending : ∀ k, replyPending x j k (-1) .ebadf = x := fun k => by
    unfold replyPending
    rw [hs]
    rfl
  have send : tnSlotReplySend x j .ebadf true = x := by
    unfold tnSlotReplySend
    rw [hs]
    rfl
  dsimp only
  rw [udp, tcp, raw, rx, queue, pending, pending, pending, send]

/-- Giving a slot back does not touch the pcb. -/
theorem released_setPcb (o : Option TcpPcb) : released (x.setPcb p o) m j = (released x m j).setPcb p o := by
  have here : ∀ w : World, (tnSlotAlloc w j (x.msgs m).socketBase (x.msgs m).clientTask afInet
      sockStream 0).sockets j = _ := fun w => Function.update_self ..
  unfold released
  rw [tnSlotFree_new (here x)]
  exact (tnSlotFree_new (here _)).trans
    (congrArg (clearSlot · j) (tnMcastLeaveAll_setPcb (w := tnSlotAlloc x j _ _ _ _ _) o))

/-! ## Handing the connection over -/

/-- Two assignments to a slot. -/
theorem modSlot_modSlot (f g : TnSocketSlot → TnSocketSlot) :
    (w.modSlot j f).modSlot j g = w.modSlot j (g ∘ f) := by
  simp [modSlot, Function.update_idem]

/-- An event does not look at the answer. -/
theorem tnRecordSocketEvent_setReply (k : Nat) (r : Int) (n : Errno) :
    tnRecordSocketEvent (w.setReply m r n) j k = (tnRecordSocketEvent w j k).setReply m r n := by
  have slot : (w.setReply m r n).sockets j = w.sockets j := rfl
  have bases : (w.setReply m r n).bases = w.bases := rfl
  have alive : ∀ b, tnSlotOwnerAlive (w.setReply m r n) b = tnSlotOwnerAlive w b := fun _ => rfl
  unfold tnRecordSocketEvent
  dsimp only
  rw [slot, bases]
  simp only [alive]
  split
  · split
    · rfl
    · split
      · split <;> rfl
      · rfl
  · rfl

/-- Recording an event leaves all of a slot but its owner. -/
theorem tnRecordSocketEvent_keeps (k : Nat) :
    ((tnRecordSocketEvent w j k).sockets j).rxCount = (w.sockets j).rxCount ∧
      ((tnRecordSocketEvent w j k).sockets j).tcpState = (w.sockets j).tcpState := by
  unfold tnRecordSocketEvent
  dsimp only
  split
  · split
    · exact ⟨rfl, rfl⟩
    · split
      · split <;> exact ⟨rfl, rfl⟩
      · simp [modSlot]
  · exact ⟨rfl, rfl⟩

theorem sockets_tnStoreClientSockaddr (ka kl port addr : Nat) :
    (tnStoreClientSockaddr w m ka kl port addr).sockets = w.sockets := by
  unfold tnStoreClientSockaddr
  split <;> rfl

theorem slot_setPcb_modSlot (f : TnSocketSlot → TnSocketSlot) (o : Option TcpPcb) :
    ((w.modSlot j f).setPcb p o).sockets j = f (w.sockets j) :=
  Function.update_self ..

/-- An accepted slot without early data starts with one event. -/
theorem recordAccepted_new (hr : (w.sockets j).rxCount = 0) (hc : (w.sockets j).tcpState ≠ .peerClosed) :
    recordAccepted w j = tnRecordSocketEvent w j fdWrite := by
  obtain ⟨count, state⟩ := tnRecordSocketEvent_keeps (w := w) (j := j) fdWrite
  unfold recordAccepted
  dsimp only
  rw [if_neg]
  rw [count, state, hr]
  simp [hc]

/-- A free slot is not the listener. -/
theorem ne_of_freeSlot? (hx : (x.sockets i).inUse = true) (hj : freeSlot? x = some j) : i ≠ j := by
  rintro rfl
  have := List.find?_some hj
  rw [hx] at this
  cases this

/-- Slot `j` before the statements the two copies share. -/
def granted (x : World) (m : MsgId) (j : SlotIdx) (fd : Nat) : World :=
  (tnSlotAlloc x j (x.msgs m).socketBase (x.msgs m).clientTask afInet sockStream 0).setFd
    ((x.msgs m).socketBase.getD 0) fd (some j)

/-- The connection is adopted on both paths in the same way. -/
theorem adoptPcb_granted (hl : c.listen = false) (hij : i ≠ j) {f : TnSocketSlot → TnSocketSlot}
    {fd : Nat} (hf : ∀ b t, f (tnInitSocketSlot b t afInet sockStream 0) =
      { tnInitSocketSlot b t afInet sockStream 0 with
        tcpState := .established
        tcpPcb := some p }) :
    adoptPcb ((granted (x.setPcb p (some c)) m j fd).modSlot j f) m i j p =
      tnStoreClientSockaddr
        (((x.setFd ((x.msgs m).socketBase.getD 0) fd (some j)).modSlot j
          fun _ => newSlot (x.msgs m) (x.sockets i).opts p).setPcb p
            (some (adopted c (x.sockets i).opts j))) m 0 1 c.remotePort c.remoteIp := by
  have moved : (granted (x.setPcb p (some c)) m j fd).modSlot j f =
      (((granted x m j fd).modSlot j f).setPcb p (some c)) := rfl
  have opts : (((granted x m j fd).modSlot j f).sockets i).opts = (x.sockets i).opts := by
    simp [granted, tnSlotAlloc, modSlot, setFd, modBase, hij]
  have slot : ∀ l, ((granted x m j fd).modSlot j f).modSlot j (fun s => { s with opts := inheritOpts s.opts l }) =
      (x.setFd ((x.msgs m).socketBase.getD 0) fd (some j)).modSlot j fun _ => newSlot (x.msgs m) l p := by
    intro l
    rw [modSlot_modSlot]
    have all : granted x m j fd = (x.setFd ((x.msgs m).socketBase.getD 0) fd (some j)).modSlot j
        fun _ => tnInitSocketSlot (x.msgs m).socketBase (x.msgs m).clientTask afInet sockStream 0 := rfl
    rw [all, modSlot_modSlot]
    congr 1
    funext s
    exact congrArg (fun s => { s with opts := inheritOpts s.opts l }) (hf ..)
  rw [moved, adoptPcb_setPcb hl, opts, slot]

/-- The path through the callback. -/
theorem tnTcpAcceptCb_eq (hu : (u.sockets i).inUse = true) (hs : (u.sockets i).tcpState = .listening)
    (hl : c.listen = false) (he : c.err = .null) :
    tnTcpAcceptCb (delivered u m i p c) i p = acceptInto (u.setPending i .accept none) m i p c := by
  have slot : (delivered u m i p c).sockets i =
      { u.sockets i with pending := Function.update (u.sockets i).pending .accept (some m) } :=
    Function.update_self ..
  have cleared : (delivered u m i p c).setPending i .accept none =
      (u.setPending i .accept none).setPcb p (some c) := by
    simp [delivered, setPending, modSlot, setPcb, Function.update_idem]
  have hx : ((u.setPending i .accept none).sockets i).inUse = true := by
    simp [setPending, modSlot, hu]
  unfold tnTcpAcceptCb
  dsimp only
  rw [slot, if_neg (by simp [hu, hs])]
  dsimp only
  rw [Function.update_self]
  dsimp only
  rw [cleared]
  have msg : (delivered u m i p c).msgs m = (u.setPending i .accept none).msgs m := rfl
  rw [msg]
  -- From here the path does not depend on how the request waited.
  generalize u.setPending i .accept none = x at hx
  have free : freeSlot? (x.setPcb p (some c)) = freeSlot? x := rfl
  rw [free]
  unfold acceptInto
  -- No slot is free: the connection is aborted.
  cases hj : freeSlot? x with
  | none =>
    dsimp only
    rw [tcpAbort_setPcb hl he]
  | some j =>
    dsimp only
    have fds : ∀ b t, (tnSlotAlloc (x.setPcb p (some c)) j b t afInet sockStream 0).bases = x.bases :=
      fun _ _ => rfl
    rw [fds]
    -- A slot is there; the descriptor table may be full.
    cases hf : pickFd? (x.bases ((x.msgs m).socketBase.getD 0)) ((x.msgs m).args 3) with
    | none =>
      dsimp only
      have freed : tnSlotFree (tnSlotAlloc (x.setPcb p (some c)) j (x.msgs m).socketBase
          (x.msgs m).clientTask afInet sockStream 0) j = (released x m j).setPcb p (some c) :=
        released_setPcb (some c)
      rw [freed, tcpAbort_setPcb hl he]
    | some fd =>
      change ((tnRecordSocketEvent ((adoptPcb ((granted (x.setPcb p (some c)) m j fd).modSlot j _)
        m i j p).setReply m fd .ok) j fdWrite).replyMsg m, ErrT.ok) = _
      rw [adoptPcb_granted hl (ne_of_freeSlot? hx hj) fun _ _ => rfl, tnRecordSocketEvent_setReply]
      rfl

/-- The path through the queue. -/
theorem tnIpcCmdAccept_eq (hu : (u.sockets i).inUse = true) (hs : (u.sockets i).tcpState = .listening)
    (hl : c.listen = false) :
    handled m (tnIpcCmdAccept (queued u i p c e) m (some i)) =
      (acceptInto (u.setPending i .accept none) m i p c).1 := by
  have hq : (queuedPcb c e).listen = false := hl
  have slot : (queued u i p c e).sockets i =
      { u.sockets i with
        pending := Function.update (u.sockets i).pending .accept none
        acceptQ := newEntry i p e :: (u.sockets i).acceptQ
        acceptCount := (u.sockets i).acceptCount + 1 } := by
    simp [queued, setPending, modSlot, setPcb]
  have popped : tnAcceptQueuePopEntry (queued u i p c e) i =
      (u.setPending i .accept none).setPcb p (some (queuedPcb c e)) := by
    simp [tnAcceptQueuePopEntry, queued, setPending, modSlot, setPcb, Function.update_idem]
  have hx : ((u.setPending i .accept none).sockets i).inUse = true := by
    simp [setPending, modSlot, hu]
  unfold tnIpcCmdAccept
  dsimp only
  rw [slot, if_neg (by simp [hs])]
  dsimp only
  unfold acceptQueued
  dsimp only
  rw [popped]
  have msg : (queued u i p c e).msgs m = (u.setPending i .accept none).msgs m := rfl
  rw [msg]
  -- From here the path is the callback's.
  generalize u.setPending i .accept none = x at hx
  have free : freeSlot? (x.setPcb p (some (queuedPcb c e))) = freeSlot? x := rfl
  rw [free]
  unfold acceptInto
  cases hj : freeSlot? x with
  | none =>
    dsimp only
    rw [tnAcceptEntryFree_setPcb hq]
    rfl
  | some j =>
    dsimp only
    have fds : ∀ b t, (tnSlotAlloc (x.setPcb p (some (queuedPcb c e))) j b t afInet sockStream
        0).bases = x.bases := fun _ _ => rfl
    rw [fds]
    cases hf : pickFd? (x.bases ((x.msgs m).socketBase.getD 0)) ((x.msgs m).args 3) with
    | none =>
      dsimp only
      have freed : tnSlotFree (tnSlotAlloc (x.setPcb p (some (queuedPcb c e))) j (x.msgs m).socketBase
          (x.msgs m).clientTask afInet sockStream 0) j =
            (released x m j).setPcb p (some (queuedPcb c e)) := released_setPcb _
      rw [freed, tnAcceptEntryFree_setPcb hq]
      rfl
    -- The pcb is filled in behind the slot here, before it there.
    | some fd =>
      have taken : takeEntry (granted (x.setPcb p (some (queuedPcb c e))) m j fd) m i j
          (newEntry i p e) = tnStoreClientSockaddr
            (((x.setFd ((x.msgs m).socketBase.getD 0) fd (some j)).modSlot j
              fun _ => newSlot (x.msgs m) (x.sockets i).opts p).setPcb p
                (some (adopted c (x.sockets i).opts j))) m 0 1 c.remotePort c.remoteIp :=
        adoptPcb_granted hq (ne_of_freeSlot? hx hj) fun _ _ => rfl
      change (done (recordAccepted (takeEntry (granted (x.setPcb p (some (queuedPcb c e))) m j fd)
        m i j (newEntry i p e)) j) m fd .ok).1.replyMsg m = _
      rw [taken, recordAccepted_new]
      · rfl
      all_goals rw [sockets_tnStoreClientSockaddr, slot_setPcb_modSlot]
      · rfl
      · exact (by decide : TnTcpState.established ≠ .peerClosed)

/-! ## The two paths -/

/-- Connection `p` was refused: the pcb is gone and was aborted once (an abort of a pcb that is not
live would be in the trace), request `m` was answered, and no slot or descriptor was taken. -/
structure Refused (u w : World) (m : MsgId) (p : PcbId) (n : Errno) : Prop where
  pcbs : w.tcpPcbs = Function.update u.tcpPcbs p none
  reply : w.trace = .reply (u.callOf m) (-1) n :: u.trace
  slots : ∀ k, (w.sockets k).inUse = (u.sockets k).inUse
  bases : w.bases = u.bases

/-- The pcb lwIP makes for a connection to listener `l`. -/
def newConn (l : TcpPcb) (ip port : Nat) : TcpPcb :=
  { state := .established
    arg := l.arg
    remoteIp := ip
    remotePort := port
    localIp := l.localIp
    localPort := l.localPort
    sofKeepalive := l.sofKeepalive
    sofReuseaddr := l.sofReuseaddr }

/-- Connection `p` at the end of the queue of listener `i`. -/
def pushed (u : World) (i : SlotIdx) (p : PcbId) (c : TcpPcb) (e : EntId) : World :=
  (u.modSlot i fun s =>
    { s with acceptQ := s.acceptQ ++ [newEntry i p e]
             acceptCount := s.acceptCount + 1 }).setPcb p (some (queuedPcb c e))

/-- Listener `i` of `u` takes connection `p` for request `m` in the same way by both paths. -/
structure SameSocket (u : World) (m : MsgId) (i : SlotIdx) (p : PcbId) (c : TcpPcb) (e : EntId) :
    Prop where
  /-- The two paths end in one state. -/
  same : (tnTcpAcceptCb (delivered u m i p c) i p).1 =
    handled m (tnIpcCmdAccept (queued u i p c e) m (some i))
  /-- A connection enters the queue as `queued` has it at the front. -/
  enters : ∀ w, tnAcceptQueuePush (u.setPcb p (some c)) i p = (w, true) →
    w = pushed u.asked i p c u.ask.id
  /-- The state they end in is a new socket or a refusal; `ERR_ABRT` goes with the refusal. -/
  ends : (∃ j fd, freeSlot? u = some j ∧
      pickFd? (u.bases ((u.msgs m).socketBase.getD 0)) ((u.msgs m).args 3) = some fd ∧
      tnTcpAcceptCb (delivered u m i p c) i p = (opened (u.setPending i .accept none) m i p c j fd, .ok)) ∨
    (tnTcpAcceptCb (delivered u m i p c) i p).2 = .abrt ∧
      ∃ n, (n = .enfile ∨ n = .emfile) ∧ Refused u (tnTcpAcceptCb (delivered u m i p c) i p).1 m p n
  /-- lwIP does not abort the pcb again. -/
  once : ∀ l ip port, l.arg.slotIdx = some i → c = newConn l ip port →
    deliverAccept (u.setPending i .accept (some m)) l p ip port =
      (tnTcpAcceptCb (delivered u m i p c) i p).1

theorem inUse_setPending (k : Pend) (v : Option MsgId) (n : SlotIdx) :
    ((w.setPending i k v).sockets n).inUse = (w.sockets n).inUse := by
  by_cases hn : n = i
  · subst hn
    simp [setPending, modSlot]
  · simp [setPending, modSlot, hn]

/-- The slot is taken and given back; the pcbs, the bases and the trace stay. -/
theorem released_keeps (hj : (x.sockets j).inUse = false) :
    (released x m j).tcpPcbs = x.tcpPcbs ∧ (released x m j).trace = x.trace ∧
      (released x m j).bases = x.bases ∧ (released x m j).callOf = x.callOf ∧
      ∀ k, ((released x m j).sockets k).inUse = (x.sockets k).inUse := by
  have here : (tnSlotAlloc x j (x.msgs m).socketBase (x.msgs m).clientTask afInet
      sockStream 0).sockets j = _ := Function.update_self ..
  unfold released
  rw [tnSlotFree_new here]
  obtain ⟨joins, uses, env, h⟩ := tnMcastLeaveAll_shape
    (tnSlotAlloc x j (x.msgs m).socketBase (x.msgs m).clientTask afInet sockStream 0) j
  rw [h]
  refine ⟨rfl, rfl, rfl, rfl, fun k => ?_⟩
  by_cases hk : k = j
  · subst hk
    simp [clearSlot, modSlot, hj]
  · simp [clearSlot, tnSlotAlloc, modSlot, hk]

/-- An error that leaves everything as it was. -/
theorem refused_answerMsg {n : Errno} (hp : w.tcpPcbs = u.tcpPcbs) (ht : w.trace = u.trace)
    (hb : w.bases = u.bases) (hc : w.callOf = u.callOf)
    (hs : ∀ k, (w.sockets k).inUse = (u.sockets k).inUse) :
    Refused u ((w.setPcb p none).answerMsg m (-1) n) m p n := by
  refine ⟨?_, ?_, hs, hb⟩
  · rw [← hp]
    rfl
  · rw [← ht, ← hc]
    simp [answerMsg, replyMsg, emit, setReply, modMsg, setPcb]

/-- A connection is opened, or refused with one of two errors. -/
theorem acceptInto_ends :
    (∃ j fd, freeSlot? x = some j ∧
      pickFd? (x.bases ((x.msgs m).socketBase.getD 0)) ((x.msgs m).args 3) = some fd ∧
      acceptInto x m i p c = (opened x m i p c j fd, .ok)) ∨
    (acceptInto x m i p c).2 = .abrt ∧
      ∃ n, (n = .enfile ∨ n = .emfile) ∧ Refused x (acceptInto x m i p c).1 m p n := by
  unfold acceptInto
  cases hj : freeSlot? x with
  | none => exact .inr ⟨rfl, .enfile, .inl rfl, refused_answerMsg rfl rfl rfl rfl fun _ => rfl⟩
  | some j =>
    have free : (x.sockets j).inUse = false := by simpa using List.find?_some hj
    obtain ⟨pcbs, trace, bases, calls, slots⟩ := released_keeps (m := m) free
    dsimp only
    cases hf : pickFd? (x.bases ((x.msgs m).socketBase.getD 0)) ((x.msgs m).args 3) with
    | none =>
      exact .inr ⟨rfl, .emfile, .inr rfl, refused_answerMsg pcbs trace bases calls slots⟩
    | some fd => exact .inl ⟨j, fd, rfl, rfl, rfl⟩

/-- A parked request takes no slot. -/
theorem freeSlot?_setPending (k : Pend) (v : Option MsgId) :
    freeSlot? (w.setPending i k v) = freeSlot? w := by
  unfold freeSlot?
  congr 1
  funext n
  rw [inUse_setPending]

/-- It does not matter that the `accept` was parked. -/
theorem Refused.of_setPending {k : Pend} {v : Option MsgId} {n : Errno}
    (h : Refused (u.setPending i k v) w m p n) : Refused u w m p n :=
  ⟨h.pcbs, h.reply, fun s => (h.slots s).trans (inUse_setPending ..), h.bases⟩

/-- The connection enters the queue with its callbacks. -/
theorem tnAcceptQueuePush_eq (hl : c.listen = false)
    (h : tnAcceptQueuePush (u.setPcb p (some c)) i p = (w, true)) :
    w = pushed u.asked i p c u.ask.id := by
  unfold tnAcceptQueuePush at h
  split at h
  · cases h
  · split at h
    · rw [Prod.mk.injEq] at h
      rw [← h.1]
      have moved : ∀ f, ((u.setPcb p (some c)).asked.modSlot i f) =
          (u.asked.modSlot i f).setPcb p (some c) := fun _ => rfl
      rw [moved]
      unfold tcpErr tcpRecv tcpArg
      rw [onPcb_setPcb, onFull_setPcb, onFull_setPcb]
      · rfl
      all_goals exact hl
    · cases h

/-- lwIP leaves a pcb alone that the callback took or aborted. -/
theorem deliverAccept_eq {l : TcpPcb} {ip port : Nat} (ha : l.arg.slotIdx = some i)
    (hc : (tnTcpAcceptCb (w.setPcb p (some (newConn l ip port))) i p).2 ≠ .val) :
    deliverAccept w l p ip port = (tnTcpAcceptCb (w.setPcb p (some (newConn l ip port))) i p).1 := by
  unfold deliverAccept newConn at *
  rw [ha]
  dsimp only
  split
  · rename_i heq
    rw [heq] at hc
    exact absurd rfl hc
  · rename_i heq
    rw [heq]

/-- The two accept paths build the same socket, and refuse in the same way. -/
theorem sameSocket (m : MsgId) (p : PcbId) (e : EntId) (hu : (u.sockets i).inUse = true)
    (hs : (u.sockets i).tcpState = .listening) (hl : c.listen = false) (he : c.err = .null) :
    SameSocket u m i p c e := by
  have path := tnTcpAcceptCb_eq (m := m) (p := p) hu hs hl he
  refine ⟨?_, fun w hw => tnAcceptQueuePush_eq hl hw, ?_, ?_⟩
  · rw [path, tnIpcCmdAccept_eq hu hs hl]
  -- the search for a slot does not see that the `accept` was parked
  · rw [path, ← freeSlot?_setPending (w := u) (i := i) .accept none]
    rcases acceptInto_ends (x := u.setPending i .accept none) (m := m) (i := i) (p := p) (c := c)
      with h | ⟨abrt, n, hn, h⟩
    · exact .inl h
    · exact .inr ⟨abrt, n, hn, h.of_setPending⟩
  -- the callback never answers `ERR_VAL`, for which lwIP would abort the connection
  · intro l ip port ha hc
    have conn : (u.setPending i .accept (some m)).setPcb p (some (newConn l ip port)) =
        delivered u m i p c := by
      rw [hc]
      rfl
    have code : (tnTcpAcceptCb (delivered u m i p c) i p).2 ≠ .val := by
      rw [path]
      rcases acceptInto_ends (x := u.setPending i .accept none) (m := m) (i := i) (p := p) (c := c)
        with ⟨j, fd, -, -, h⟩ | ⟨abrt, -⟩
      · rw [h]
        exact (by decide : ErrT.ok ≠ .val)
      · rw [abrt]
        decide
    rw [← conn] at code ⊢
    exact deliverAccept_eq ha code

/-- A listener in slot 0 with pcb 1, and an `ACCEPT` of base 1 in message 7. -/
def listener : World :=
  { tnSlotTableInit with
    sockets := fun i => if i = firstSlot then
      { tnInitSocketSlot (some 1) 1 afInet sockStream 0 with
        tcpState := .listening, tcpPcb := some 1 } else {}
    tcpPcbs := fun p => if p = 1 then some { listen := true, state := .listen } else none
    msgs := fun _ => { cmd := .accept, socketBase := some 1, args := fun _ => -1 } }

theorem sameSocket_listener : SameSocket listener 7 0 2 { state := .established } 5 :=
  sameSocket 7 2 5 rfl rfl rfl rfl

/-- The first free slot is given to the connection. -/
example : ((tnTcpAcceptCb (delivered listener 7 0 2 { state := .established }) 0 2).1.sockets 1).tcpPcb =
    some 2 := by decide

end Accept

end Tolunnet
