import Tolunnet.Abstract.State

/-!
# `Tolunnet.Refine.Frame`: what a function leaves alone

`Only S w w'` says that a piece of code changed nothing but the slots of `S`, lwIP's pcbs, the
selector table and what it told the outside. `Meek i w w'` says that it changed nothing but slot
`i`, and that one gently: the slot stays in use and keeps its mode, its connection and its parked
requests can only be taken away. Every function that works for one slot is meek, whatever the state
it starts in, except the ones that park in it, allocate or free it. `Calm` is what this comes to for
all slots together, and what everything that lwIP can call promises.
-/

set_option autoImplicit false

namespace Tolunnet

open World

/-- The slot an assignment is about. -/
theorem sockets_modSlot (w : World) (i : SlotIdx) (f : TnSocketSlot → TnSocketSlot) :
    (w.modSlot i f).sockets i = f (w.sockets i) := Function.update_self ..

/-! ## The frames -/

/-- The state outside slots, pcbs, selectors and lookups is the same. -/
structure Rest (w w' : World) : Prop where
  openBases : w'.openBases = w.openBases
  stopMsg : w'.stopMsg = w.stopMsg
  callOf : w'.callOf = w.callOf
  calls : w'.calls = w.calls
  taskAlive : w'.taskAlive = w.taskAlive
  libOpenCnt : w'.libOpenCnt = w.libOpenCnt
  ticks : w'.mainloopTicks = w.mainloopTicks
  env : w'.env <:+ w.env
  msgs : ∀ m, (w'.msgs m).cmd = (w.msgs m).cmd ∧ (w'.msgs m).socketBase = (w.msgs m).socketBase ∧
    (w'.msgs m).args = (w.msgs m).args ∧ (w'.msgs m).ptrs = (w.msgs m).ptrs
  dtab : ∀ b, (w'.bases b).dtablesize = (w.bases b).dtablesize ∧
    (w'.bases b).ownerTask = (w.bases b).ownerTask
  starts : ∀ c pl, .sendStart c pl ∈ w'.trace → .sendStart c pl ∈ w.trace

/-- A slot changed gently. -/
structure SlotCalm (s s' : TnSocketSlot) : Prop where
  inUse : s'.inUse = s.inUse
  type : s'.type = s.type
  nonblock : s'.isNonblocking = s.isNonblocking
  tcp : s'.tcpPcb = s.tcpPcb ∨ s'.tcpPcb = none
  fields : ∀ k, s'.pending k = s.pending k ∨ s'.pending k = none
  deadline : s'.sendDeadlineTick = s.sendDeadlineTick ∨ s'.pending .send = none

/-- Only the slots of `S` may be different. -/
structure Only (S : Set SlotIdx) (w w' : World) : Prop where
  slots : ∀ j, j ∉ S → w'.sockets j = w.sockets j
  fds : ∀ b, (w'.bases b).fdMap = (w.bases b).fdMap
  dns : w'.dnsPending = w.dnsPending
  rest : Rest w w'

/-- Nothing changes. -/
theorem Rest.refl (w : World) : Rest w w :=
  ⟨rfl, rfl, rfl, rfl, rfl, rfl, rfl, List.suffix_rfl, fun _ => ⟨rfl, rfl, rfl, rfl⟩,
    fun _ => ⟨rfl, rfl⟩, fun _ _ h => h⟩

/-- Two changes. -/
theorem Rest.trans {w w' w'' : World} (h : Rest w w') (h' : Rest w' w'') : Rest w w'' where
  openBases := h'.openBases.trans h.openBases
  stopMsg := h'.stopMsg.trans h.stopMsg
  callOf := h'.callOf.trans h.callOf
  calls := h'.calls.trans h.calls
  taskAlive := h'.taskAlive.trans h.taskAlive
  libOpenCnt := h'.libOpenCnt.trans h.libOpenCnt
  ticks := h'.ticks.trans h.ticks
  env := h'.env.trans h.env
  msgs := fun m => by
    obtain ⟨h1, h2, h3, h4⟩ := h.msgs m
    obtain ⟨h1', h2', h3', h4'⟩ := h'.msgs m
    exact ⟨h1'.trans h1, h2'.trans h2, h3'.trans h3, h4'.trans h4⟩
  dtab := fun b => ⟨(h'.dtab b).1.trans (h.dtab b).1, (h'.dtab b).2.trans (h.dtab b).2⟩
  starts := fun c pl hc => h.starts c pl (h'.starts c pl hc)

namespace Only

variable {S T : Set SlotIdx} {w w' w'' : World} {i : SlotIdx} {p : PcbId}

/-- Nothing done is within every set. -/
theorem refl (w : World) : Only S w w := ⟨fun _ _ => rfl, fun _ => rfl, rfl, .refl w⟩

/-- Two changes of the slots in `S`. -/
theorem trans (h : Only S w w') (h' : Only S w' w'') : Only S w w'' where
  slots := fun j hj => (h'.slots j hj).trans (h.slots j hj)
  fds := fun b => (h'.fds b).trans (h.fds b)
  dns := h'.dns.trans h.dns
  rest := h.rest.trans h'.rest

/-- More slots may change. -/
theorem mono (h : Only S w w') (hS : S ⊆ T) : Only T w w' :=
  { h with slots := fun j hj => h.slots j fun hs => hj (hS hs) }

/-- Nothing but pcbs, answers, selectors and quiet events. -/
theorem of_eq (hs : w'.sockets = w.sockets) (hb : w'.bases = w.bases)
    (hd : w'.dnsPending = w.dnsPending) (hm : w'.msgs = w.msgs)
    (hr : w'.openBases = w.openBases ∧ w'.stopMsg = w.stopMsg ∧ w'.callOf = w.callOf ∧
      w'.calls = w.calls ∧ w'.taskAlive = w.taskAlive ∧ w'.libOpenCnt = w.libOpenCnt ∧
      w'.mainloopTicks = w.mainloopTicks ∧ w'.env <:+ w.env)
    (ht : ∀ c pl, .sendStart c pl ∈ w'.trace → .sendStart c pl ∈ w.trace) : Only S w w' where
  slots := fun _ _ => by rw [hs]
  fds := fun _ => by rw [hb]
  dns := hd
  rest := ⟨hr.1, hr.2.1, hr.2.2.1, hr.2.2.2.1, hr.2.2.2.2.1, hr.2.2.2.2.2.1, hr.2.2.2.2.2.2.1,
    hr.2.2.2.2.2.2.2, fun _ => by rw [hm]; exact ⟨rfl, rfl, rfl, rfl⟩, fun _ => by rw [hb]; exact ⟨rfl, rfl⟩, ht⟩

/-- When no slot may change, none has. -/
theorem sockets (h : Only ∅ w w') : w'.sockets = w.sockets :=
  funext fun j => h.slots j (Set.notMem_empty j)

/-! ## Statements -/

/-- A slot of `S` changes. -/
theorem modSlot (hi : i ∈ S) (f : TnSocketSlot → TnSocketSlot) : Only S w (w.modSlot i f) where
  slots := fun j hj => Function.update_of_ne (fun h : j = i => hj (h ▸ hi)) _ _
  fds := fun _ => rfl
  dns := rfl
  rest := ⟨rfl, rfl, rfl, rfl, rfl, rfl, rfl, List.suffix_rfl, fun _ => ⟨rfl, rfl, rfl, rfl⟩,
    fun _ => ⟨rfl, rfl⟩, fun _ _ h => h⟩

/-- Output is not in the frame. -/
theorem out (o : Output) : Only S w (w.out o) :=
  of_eq rfl rfl rfl rfl ⟨rfl, rfl, rfl, rfl, rfl, rfl, rfl, List.suffix_rfl⟩ fun _ _ h => h

/-- An answer of the environment is used up. -/
theorem asked : Only S w w.asked :=
  of_eq rfl rfl rfl rfl ⟨rfl, rfl, rfl, rfl, rfl, rfl, rfl, List.tail_suffix _⟩ fun _ _ h => h

/-- An event that starts no send. -/
theorem emit (e : Event) (he : ∀ c pl, e ≠ .sendStart c pl) : Only S w (w.emit e) :=
  of_eq rfl rfl rfl rfl ⟨rfl, rfl, rfl, rfl, rfl, rfl, rfl, List.suffix_rfl⟩ fun c pl h =>
    (List.mem_cons.mp h).resolve_left fun h => he c pl h.symm

/-- The answer is written into the message. -/
theorem setReply (m : MsgId) (r : Int) (e : Errno) : Only S w (w.setReply m r e) where
  slots := fun _ _ => rfl
  fds := fun _ => rfl
  dns := rfl
  rest :=
    { Rest.refl w with
      msgs := fun m' => by
        by_cases hm : m' = m
        · subst hm
          simp [World.setReply, World.modMsg]
        · simp [World.setReply, World.modMsg, hm] }

/-- A reply changes no slot. -/
theorem replyMsg (m : MsgId) : Only S w (w.replyMsg m) := emit _ (by simp)

/-- An answer changes no slot. -/
theorem answerMsg (m : MsgId) (r : Int) (e : Errno) : Only S w (w.answerMsg m r e) :=
  (setReply m r e).trans (replyMsg m)

/-- A base keeps its table and its owner. -/
theorem modBase (b : BaseId) (f : TnSocketBase → TnSocketBase)
    (hf : (f (w.bases b)).fdMap = (w.bases b).fdMap)
    (hd : (f (w.bases b)).dtablesize = (w.bases b).dtablesize)
    (ho : (f (w.bases b)).ownerTask = (w.bases b).ownerTask) : Only S w (w.modBase b f) where
  slots := fun _ _ => rfl
  fds := fun b' => by
    by_cases hb : b' = b
    · subst hb
      simp [World.modBase, hf]
    · simp [World.modBase, hb]
  dns := rfl
  rest :=
    { Rest.refl w with
      dtab := fun b' => by
        by_cases hb : b' = b
        · subst hb
          simp [World.modBase, hd, ho]
        · simp [World.modBase, hb] }

/-! ## lwIP calls -/

/-- A TCP pcb is set. -/
theorem setPcb (o : Option TcpPcb) : Only S w (w.setPcb p o) :=
  of_eq rfl rfl rfl rfl ⟨rfl, rfl, rfl, rfl, rfl, rfl, rfl, List.suffix_rfl⟩ fun _ _ h => h

/-- A UDP pcb is set. -/
theorem setUdp (o : Option DgramPcb) : Only S w (w.setUdp p o) :=
  of_eq rfl rfl rfl rfl ⟨rfl, rfl, rfl, rfl, rfl, rfl, rfl, List.suffix_rfl⟩ fun _ _ h => h

/-- A raw pcb is set. -/
theorem setRaw (o : Option DgramPcb) : Only S w (w.setRaw p o) :=
  of_eq rfl rfl rfl rfl ⟨rfl, rfl, rfl, rfl, rfl, rfl, rfl, List.suffix_rfl⟩ fun _ _ h => h

/-- A TCP pcb changes. -/
theorem onPcb (f : TcpPcb → TcpPcb) : Only S w (w.onPcb p f) := by
  unfold World.onPcb
  split
  · exact setPcb _
  · exact emit _ (by simp)

/-- A full TCP pcb changes. -/
theorem onFull (op : PcbOp) (f : TcpPcb → TcpPcb) : Only S w (w.onFull p op f) := by
  unfold World.onFull
  split
  · split
    · exact emit _ (by simp)
    · exact setPcb _
  · exact emit _ (by simp)

/-- A full pcb is read. -/
theorem readFull (op : PcbOp) : Only S w (w.readFull p op) := onFull op id

/-- A pcb loses its callbacks. -/
theorem tcpDetach (p : PcbId) : Only S w (tcpDetach w p) :=
  ((((onPcb _).trans (onFull _ _)).trans (onFull _ _)).trans (onFull _ _)).trans (onFull _ _)

/-- lwIP frees the pcb or keeps it. -/
theorem tcpClose (p : PcbId) : Only S w (tcpClose w p).1 := by
  unfold Tolunnet.tcpClose
  split
  · exact emit _ (by simp)
  · split
    · exact setPcb _
    · dsimp only
      split
      · exact asked
      · split <;> exact asked.trans (setPcb _)

/-- lwIP frees the pcb. -/
theorem tcpAbort (p : PcbId) : Only S w (tcpAbort w p) := by
  unfold Tolunnet.tcpAbort
  split
  · split
    · exact emit _ (by simp)
    · exact setPcb _
  · exact emit _ (by simp)

/-- A pcb is closed, or aborted when that fails. -/
theorem tcpCloseOrAbort (p : PcbId) : Only S w (tcpCloseOrAbort w p) := by
  unfold Tolunnet.tcpCloseOrAbort
  have h := tcpClose (S := S) (w := w) p
  split
  · rename_i heq
    rw [heq] at h
    exact h
  · rename_i heq
    rw [heq] at h
    exact h.trans (tcpAbort p)

/-- Bytes go to the send buffer of a pcb. -/
theorem tcpWrite (c : CallNo) (bytes : List UInt8) : Only S w (tcpWrite w p c bytes).1 := by
  unfold Tolunnet.tcpWrite
  split
  · exact emit _ (by simp)
  · split
    · exact emit _ (by simp)
    · split
      · exact (asked.trans (setPcb _)).trans (emit _ (by simp))
      · split
        · exact asked
        · exact asked.trans (emit _ (by simp))

/-! ## Loops -/

/-- A loop changes what each turn may change. -/
theorem foldl {α : Type} (f : World → α → World) (l : List α)
    (h : ∀ w, ∀ x ∈ l, Only S w (f w x)) (w : World) : Only S w (l.foldl f w) :=
  l.foldlRecOn (motive := Only S w) f (refl w) fun _ done x hx => done.trans (h _ x hx)

/-- An address goes to the client. -/
theorem tnStoreClientSockaddr (m : MsgId) (ka kl port addr : Nat) :
    Only S w (tnStoreClientSockaddr w m ka kl port addr) := by
  unfold Tolunnet.tnStoreClientSockaddr
  split
  · exact (out _).trans (out _)
  · exact refl w

/-- A selector that names the slot is signalled. -/
theorem signalSelector (i : SlotIdx) (w : World) (k : Nat) : Only S w (signalSelector i w k) := by
  unfold Tolunnet.signalSelector
  split
  · exact refl w
  · split
    · split
      · exact refl w
      · split
        · split
          · exact out _
          · exact refl w
        · exact of_eq rfl rfl rfl rfl ⟨rfl, rfl, rfl, rfl, rfl, rfl, rfl, List.suffix_rfl⟩ fun _ _ h => h
    · exact refl w

/-- A slot that is freed leaves a group. -/
theorem mcastLeaveAt (i : SlotIdx) (w : World) (k : Fin 8) : Only S w (mcastLeaveAt i w k) := by
  unfold Tolunnet.mcastLeaveAt igmpLeavegroup
  dsimp only
  split
  · split <;>
      exact of_eq rfl rfl rfl rfl ⟨rfl, rfl, rfl, rfl, rfl, rfl, rfl, List.tail_suffix _⟩
        fun _ _ h => h
  · exact refl w

/-- An entry is freed with its connection. -/
theorem tnAcceptEntryFree (ent : TnAcceptEntry) : Only S w (tnAcceptEntryFree w ent) := by
  unfold Tolunnet.tnAcceptEntryFree
  split
  · exact (((onPcb _).trans (onFull _ _)).trans (onFull _ _)).trans (tcpAbort _)
  · exact refl w

end Only

/-! ## Gentle changes of one slot -/

/-- Nothing happens to a slot. -/
theorem SlotCalm.refl (s : TnSocketSlot) : SlotCalm s s :=
  ⟨rfl, rfl, rfl, Or.inl rfl, fun _ => Or.inl rfl, Or.inl rfl⟩

/-- Two gentle changes. -/
theorem SlotCalm.trans {s s' s'' : TnSocketSlot} (h : SlotCalm s s') (h' : SlotCalm s' s'') :
    SlotCalm s s'' where
  inUse := h'.inUse.trans h.inUse
  type := h'.type.trans h.type
  nonblock := h'.nonblock.trans h.nonblock
  tcp := h'.tcp.elim (fun e => h.tcp.imp e.trans e.trans) Or.inr
  fields := fun k => (h'.fields k).elim (fun e => (h.fields k).imp e.trans e.trans) Or.inr
  deadline := h'.deadline.elim (fun e => h.deadline.elim (fun e' => Or.inl (e.trans e'))
    fun e' => Or.inr ((h'.fields .send).elim (fun e => e.trans e') id)) Or.inr

/-- Only slot `i` changed, and gently. -/
structure Meek (i : SlotIdx) (w w' : World) : Prop where
  only : Only {i} w w'
  slot : SlotCalm (w.sockets i) (w'.sockets i)

namespace Meek

variable {w w' w'' : World} {i : SlotIdx} {p : PcbId}

/-- Nothing done is gentle. -/
theorem refl (w : World) : Meek i w w := ⟨.refl w, .refl _⟩

/-- Two gentle changes of one slot. -/
theorem trans (h : Meek i w w') (h' : Meek i w' w'') : Meek i w w'' :=
  ⟨h.only.trans h'.only, h.slot.trans h'.slot⟩

/-- Nothing happens to any slot. -/
theorem of_only (h : Only ∅ w w') : Meek i w w' :=
  ⟨h.mono (Set.empty_subset _), by rw [h.sockets]; exact .refl _⟩

/-- One slot changes. -/
theorem onlyOf {S : Set SlotIdx} (h : Meek i w w') (hi : i ∈ S) : Only S w w' :=
  h.only.mono (Set.singleton_subset_iff.mpr hi)

/-- A gentle assignment. -/
theorem modSlot (f : TnSocketSlot → TnSocketSlot) (hf : ∀ s, SlotCalm s (f s)) :
    Meek i w (w.modSlot i f) where
  only := Only.modSlot (Set.mem_singleton i) f
  slot := by
    rw [sockets_modSlot]
    exact hf _

/-- Assignments to fields that calm does not speak of. -/
theorem assign (f : TnSocketSlot → TnSocketSlot)
    (hf : ∀ s, (f s).inUse = s.inUse ∧ (f s).type = s.type ∧ (f s).isNonblocking = s.isNonblocking ∧
      (f s).tcpPcb = s.tcpPcb ∧ (f s).pending = s.pending ∧
      (f s).sendDeadlineTick = s.sendDeadlineTick) : Meek i w (w.modSlot i f) :=
  modSlot f fun s => by
    obtain ⟨h1, h2, h3, h4, h5, h6⟩ := hf s
    exact ⟨h1, h2, h3, Or.inl h4, fun _ => Or.inl (by rw [h5]), Or.inl h6⟩

/-- A parked request is taken out. -/
theorem unpark (k : Pend) : Meek i w (w.setPending i k none) :=
  modSlot _ fun s => by
    refine ⟨rfl, rfl, rfl, Or.inl rfl, fun k' => ?_, Or.inl rfl⟩
    by_cases hk : k' = k
    · subst hk
      exact Or.inr (Function.update_self ..)
    · exact Or.inl (Function.update_of_ne hk ..)

/-- A loop is gentle when each turn is. -/
theorem foldl {α : Type} (f : World → α → World) (l : List α)
    (h : ∀ w, ∀ x ∈ l, Meek i w (f w x)) (w : World) : Meek i w (l.foldl f w) :=
  l.foldlRecOn (motive := Meek i w) f (refl w) fun _ done x hx => done.trans (h _ x hx)

/-! ## The slot table -/

/-- An event is recorded in the base of the owner. -/
theorem tnRecordSocketEvent (e : Nat) : Meek i w (tnRecordSocketEvent w i e) := by
  unfold Tolunnet.tnRecordSocketEvent
  dsimp only
  split
  · split
    · exact refl w
    · split
      · split
        · exact of_only
            (((Only.modBase _ _ rfl rfl rfl).trans (Only.out _)).trans (Only.out _))
        · exact of_only ((Only.modBase _ _ rfl rfl rfl).trans (Only.out _))
      · exact assign _ fun _ => by exact ⟨rfl, rfl, rfl, rfl, rfl, rfl⟩
  · exact refl w

/-- The owner is woken; a dead one is forgotten. -/
theorem tnSignalSocket : Meek i w (tnSignalSocket w i) := by
  have drop : ∀ w, Meek i w (dropStaleOwner w i) := fun w => by
    unfold dropStaleOwner
    split
    · split
      · exact refl w
      · exact assign _ fun _ => by exact ⟨rfl, rfl, rfl, rfl, rfl, rfl⟩
    · exact refl w
  have owner : ∀ w, Meek i w (signalOwner w i) := fun w => by
    unfold signalOwner
    split
    · split
      · exact of_only (Only.out _)
      · exact refl w
    · exact refl w
  have start : ∀ e : Event, (∀ c pl, e ≠ .sendStart c pl) →
      Meek i w (signalOwner (dropStaleOwner (w.emit e) i) i) := fun e he =>
    ((of_only (Only.emit e he)).trans (drop _)).trans (owner _)
  unfold Tolunnet.tnSignalSocket
  dsimp only
  split
  · split
    · exact start _ (by simp)
    · exact (start _ (by simp)).trans
        (foldl _ _ (fun w k _ => of_only (Only.signalSelector i w k)) _)
  · exact refl w

/-- A parked request is answered. -/
theorem replyPending (k : Pend) (r : Int) (e : Errno) : Meek i w (replyPending w i k r e) := by
  unfold Tolunnet.replyPending
  split
  · exact refl w
  · dsimp only
    split
    · exact ((unpark k).trans (assign _ fun _ => by exact ⟨rfl, rfl, rfl, rfl, rfl, rfl⟩)).trans
        (of_only (Only.answerMsg _ _ _))
    · exact (unpark k).trans (of_only (Only.answerMsg _ _ _))

/-- A parked send is answered or thrown away. -/
theorem tnSlotReplySend (e : Errno) (reply : Bool) : Meek i w (tnSlotReplySend w i e reply) := by
  unfold Tolunnet.tnSlotReplySend
  split
  · exact refl w
  · rename_i m hm
    dsimp only
    -- the deadline goes with the request it belongs to
    have taken : Meek i w ((((w.setPending i .send none).setReply m
        (sendResult (w.sockets i).sendDone e).1 (sendResult (w.sockets i).sendDone e).2).emit
        (.sendEnd (w.callOf m) e)).modSlot i fun s =>
          { s with sendDeadlineTick := 0, sendDone := 0, sendIov := none }) := by
      have quiet : Only ∅ (w.setPending i .send none) (((w.setPending i .send none).setReply m
          (sendResult (w.sockets i).sendDone e).1 (sendResult (w.sockets i).sendDone e).2).emit
          (.sendEnd (w.callOf m) e)) := (Only.setReply _ _ _).trans (Only.emit _ (by simp))
      refine ⟨((unpark .send).trans (of_only quiet)).only.trans
        (Only.modSlot (Set.mem_singleton i) _), ?_⟩
      have hs : (w.setPending i .send none).sockets i
          = { w.sockets i with pending := Function.update (w.sockets i).pending .send none } :=
        sockets_modSlot ..
      rw [sockets_modSlot, quiet.sockets, hs]
      refine ⟨rfl, rfl, rfl, Or.inl rfl, fun k => ?_, Or.inr (by simp)⟩
      by_cases hk : k = .send
      · subst hk
        exact Or.inr (by simp)
      · exact Or.inl (by simp [hk])
    split
    · exact taken.trans (of_only (Only.replyMsg _))
    · exact taken

/-- The window opens. -/
theorem tcpRecvedFor (p : PcbId) (n : Nat) : Meek i w (tcpRecvedFor w i p n) :=
  (of_only (Only.readFull _)).trans (assign _ fun _ => by exact ⟨rfl, rfl, rfl, rfl, rfl, rfl⟩)

/-- The packets of a slot go. -/
theorem tnRxQueueDrain : Meek i w (tnRxQueueDrain w i) :=
  assign _ fun _ => by exact ⟨rfl, rfl, rfl, rfl, rfl, rfl⟩

/-- The connections that wait go. -/
theorem tnAcceptQueueDrain : Meek i w (tnAcceptQueueDrain w i) := by
  have drop : ∀ w, Meek i w (dropHeadEntry w i) := fun w => by
    unfold dropHeadEntry
    split
    · exact (assign _ fun _ => by exact ⟨rfl, rfl, rfl, rfl, rfl, rfl⟩).trans
        (of_only (Only.tnAcceptEntryFree _))
    · exact refl w
  unfold Tolunnet.tnAcceptQueueDrain
  exact (foldl _ _ (fun w _ _ => drop w) w).trans
    (assign _ fun _ => by exact ⟨rfl, rfl, rfl, rfl, rfl, rfl⟩)

/-- The UDP pcb goes. -/
theorem freeUdp : Meek i w (freeUdp w i) := by
  unfold Tolunnet.freeUdp
  split
  · exact (of_only (Only.setUdp _)).trans (assign _ fun _ => by exact ⟨rfl, rfl, rfl, rfl, rfl, rfl⟩)
  · exact refl w

/-- The raw pcb goes. -/
theorem freeRaw : Meek i w (freeRaw w i) := by
  unfold Tolunnet.freeRaw
  split
  · exact (of_only (Only.setRaw _)).trans (assign _ fun _ => by exact ⟨rfl, rfl, rfl, rfl, rfl, rfl⟩)
  · exact refl w

/-- The slot lets go of its pcb. -/
theorem noPcb (f : TnSocketSlot → TnSocketSlot)
    (hf : ∀ s, (f s).inUse = s.inUse ∧ (f s).type = s.type ∧ (f s).isNonblocking = s.isNonblocking ∧
      (f s).tcpPcb = none ∧ (f s).pending = s.pending ∧
      (f s).sendDeadlineTick = s.sendDeadlineTick) : Meek i w (w.modSlot i f) :=
  modSlot f fun s => by
    obtain ⟨h1, h2, h3, h4, h5, h6⟩ := hf s
    exact ⟨h1, h2, h3, Or.inr h4, fun _ => Or.inl (by rw [h5]), Or.inl h6⟩

/-- The stream is closed or aborted. -/
theorem freeTcp : Meek i w (freeTcp w i) := by
  unfold Tolunnet.freeTcp
  split
  · exact refl w
  · dsimp only
    have drop : Meek i w (w.modSlot i fun s => { s with tcpPcb := none }) :=
      noPcb _ fun _ => by exact ⟨rfl, rfl, rfl, rfl, rfl, rfl⟩
    split
    · exact drop.trans (of_only (((Only.onPcb _).trans (Only.onPcb _)).trans (Only.tcpClose _)))
    · exact drop.trans (of_only ((Only.tcpDetach _).trans (Only.tcpCloseOrAbort _)))

end Meek

/-! ## Freeing a slot -/

/-- Up to its last assignments, `tn_slot_free` is meek. -/
theorem tnSlotFree_meek {w : World} {i : SlotIdx} (hu : (w.sockets i).inUse = true) :
    ∃ w', Meek i w w' ∧ tnSlotFree w i = clearSlot w' i := by
  have leave : Meek i w (tnMcastLeaveAll w i) :=
    .of_only (Only.foldl _ _ (fun w k _ => Only.mcastLeaveAt i w k) w)
  have pcbs := ((leave.trans .freeUdp).trans .freeTcp).trans .freeRaw
  have queues := (pcbs.trans .tnRxQueueDrain).trans .tnAcceptQueueDrain
  have fields := ((queues.trans (.replyPending .connect (-1) .ebadf)).trans
    (.replyPending .accept (-1) .ebadf)).trans (.replyPending .recv (-1) .ebadf)
  refine ⟨_, fields.trans (.tnSlotReplySend .ebadf true), ?_⟩
  unfold tnSlotFree
  rw [if_pos hu]

namespace Only

variable {S : Set SlotIdx} {w : World} {i : SlotIdx}

/-- A slot is freed. -/
theorem tnSlotFree (hi : i ∈ S) : Only S w (tnSlotFree w i) := by
  cases hu : (w.sockets i).inUse with
  | true =>
    obtain ⟨w', hm, he⟩ := tnSlotFree_meek hu
    rw [he]
    exact (hm.onlyOf hi).trans (modSlot hi _)
  | false =>
    unfold Tolunnet.tnSlotFree
    rw [if_neg (by simp [hu])]
    exact refl w

/-- The last reference frees the slot. -/
theorem tnSlotUnref (hi : i ∈ S) : Only S w (tnSlotUnref w i) := by
  unfold Tolunnet.tnSlotUnref
  split
  · dsimp only
    split
    · exact (modSlot hi _).trans (tnSlotFree hi)
    · exact modSlot hi _
  · exact refl w

end Only

/-! ## All slots together -/

/-- No slot in use changed but gently, and no slot got a parked request. -/
structure Calm (w w' : World) : Prop where
  slots : ∀ i, (w.sockets i).inUse = true → SlotCalm (w.sockets i) (w'.sockets i)
  fields : ∀ i k, (w'.sockets i).pending k = (w.sockets i).pending k ∨
    (w'.sockets i).pending k = none
  rest : Rest w w'

/-- Nothing done is calm. -/
theorem Calm.refl (w : World) : Calm w w := ⟨fun _ _ => .refl _, fun _ _ => Or.inl rfl, .refl w⟩

/-- Two steps. -/
theorem Calm.trans {w w' w'' : World} (h : Calm w w') (h' : Calm w' w'') : Calm w w'' where
  slots := fun i hi => (h.slots i hi).trans (h'.slots i (by rw [(h.slots i hi).inUse, hi]))
  fields := fun i k => (h'.fields i k).elim (fun e => (h.fields i k).imp e.trans e.trans) Or.inr
  rest := h.rest.trans h'.rest

/-- A gentle change of one slot. -/
theorem Meek.calm {i : SlotIdx} {w w' : World} (h : Meek i w w') : Calm w w' where
  slots := fun j _ => by
    by_cases hj : j = i
    · subst hj
      exact h.slot
    · rw [h.only.slots j hj]
      exact .refl _
  fields := fun j k => by
    by_cases hj : j = i
    · subst hj
      exact h.slot.fields k
    · rw [h.only.slots j hj]
      exact Or.inl rfl
  rest := h.only.rest

/-- No slot changes. -/
theorem Only.calm {w w' : World} (h : Only ∅ w w') : Calm w w' := (Meek.of_only (i := 0) h).calm

/-- A message that waits in a slot after the change waited there before. -/
theorem Calm.pending {w w' : World} (h : Calm w w') {i : SlotIdx} {k : Pend} {m : MsgId}
    (hm : (w'.sockets i).pending k = some m) : (w.sockets i).pending k = some m := by
  rcases h.fields i k with he | he
  · rw [← he, hm]
  · rw [he] at hm
    cases hm

/-- A field that was empty is still empty. -/
theorem Calm.empty {w w' : World} (h : Calm w w') {i : SlotIdx} {k : Pend}
    (hk : (w.sockets i).pending k = none) : (w'.sockets i).pending k = none :=
  (h.fields i k).elim (fun e => e.trans hk) id

/-- A slot that is free after the change was free before. -/
theorem Calm.free {w w' : World} (h : Calm w w') {i : SlotIdx}
    (hf : (w'.sockets i).inUse = false) : (w.sockets i).inUse = false := by
  cases hu : (w.sockets i).inUse with
  | false => rfl
  | true =>
    rw [(h.slots i hu).inUse, hu] at hf
    cases hf

/-! ## A slot that is allocated -/

/-- Only slot `j` changed, and no request was parked in it. -/
structure Beside (j : SlotIdx) (w w' : World) : Prop where
  slots : ∀ i, i ≠ j → w'.sockets i = w.sockets i
  fields : ∀ k, (w'.sockets j).pending k = (w.sockets j).pending k ∨ (w'.sockets j).pending k = none
  rest : Rest w w'

namespace Beside

variable {j : SlotIdx} {w w' w'' : World}

/-- Two steps beside slot `j`. -/
theorem trans (h : Beside j w w') (h' : Beside j w' w'') : Beside j w w'' where
  slots := fun i hi => (h'.slots i hi).trans (h.slots i hi)
  fields := fun k => (h'.fields k).elim (fun e => (h.fields k).imp e.trans e.trans) Or.inr
  rest := h.rest.trans h'.rest

/-- A gentle change of the slot. -/
theorem of_meek (h : Meek j w w') : Beside j w w' := ⟨h.only.slots, h.slot.fields, h.only.rest⟩

/-- What touches no slot happens beside every slot. -/
theorem of_only (h : Only ∅ w w') : Beside j w w' := of_meek (.of_only h)

/-- The slot itself changes and parks nothing. -/
theorem modSlot (f : TnSocketSlot → TnSocketSlot)
    (hf : ∀ s k, (f s).pending k = s.pending k ∨ (f s).pending k = none) :
    Beside j w (w.modSlot j f) where
  slots := (Only.modSlot (Set.mem_singleton j) f).slots
  fields := fun k => by
    rw [sockets_modSlot]
    exact hf _ k
  rest := (Only.modSlot (Set.mem_singleton j) f).rest

/-- A slot is allocated. -/
theorem tnSlotAlloc (base : Option BaseId) (task : TaskId) (domain type protocol : Int) :
    Beside j w (tnSlotAlloc w j base task domain type protocol) :=
  modSlot _ fun _ _ => Or.inr rfl

/-- A descriptor changes. -/
theorem setFd (b : BaseId) (n : Nat) (v : Option SlotIdx) : Beside j w (w.setFd b n v) where
  slots := fun _ _ => rfl
  fields := fun _ => Or.inl rfl
  rest :=
    { Rest.refl w with
      dtab := fun b' => by
        by_cases hb : b' = b
        · subst hb
          simp [World.setFd, World.modBase]
        · simp [World.setFd, World.modBase, hb] }

/-- The slot is freed. -/
theorem tnSlotFree : Beside j w (tnSlotFree w j) := by
  cases hu : (w.sockets j).inUse with
  | true =>
    obtain ⟨w', hm, he⟩ := tnSlotFree_meek hu
    rw [he]
    exact (of_meek hm).trans (modSlot _ fun _ _ => Or.inl rfl)
  | false =>
    unfold Tolunnet.tnSlotFree
    rw [if_neg (by simp [hu])]
    exact of_only (.refl w)

/-- A slot that was free may change in any way. -/
theorem calm (h : Beside j w w') (hj : (w.sockets j).inUse = false) : Calm w w' where
  slots := fun i hi => by
    have hne : i ≠ j := fun he => by
      rw [he, hj] at hi
      cases hi
    rw [h.slots i hne]
    exact .refl _
  fields := fun i k => by
    by_cases hi : i = j
    · subst hi
      exact h.fields k
    · rw [h.slots i hi]
      exact Or.inl rfl
  rest := h.rest

end Beside

/-- A loop is calm when each turn is. -/
theorem Calm.foldl {α : Type} (f : World → α → World) (l : List α)
    (h : ∀ w, ∀ x ∈ l, Calm w (f w x)) (w : World) : Calm w (l.foldl f w) :=
  l.foldlRecOn (motive := Calm w) f (.refl w) fun _ done x hx => done.trans (h _ x hx)

end Tolunnet
