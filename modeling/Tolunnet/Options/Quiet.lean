import Tolunnet.Options.State

/-!
# `Tolunnet.Options.Quiet`: code that leaves options alone

The queues, the event words, the descriptors and the bases have nothing to do with options, and a
slot that is freed loses them. So `Tends` is a `Routine` and a `Loose` relation, which covers the
callbacks of lwIP and most handlers. Every action of lwIP but two leaves all options alone: an
outgoing connection that is established turns Nagle's algorithm off in its pcb, and an incoming one
makes a pcb and may fill a slot.
-/

set_option autoImplicit false

namespace Tolunnet

open World

/-- A pcb with the fields that options are about. -/
theorem SameTcp.of_kept {o : SockOpt} {c c' : TcpPcb} (h : c'.kept = c.kept) : SameTcp o c c' := by
  simp only [TcpPcb.kept, Prod.mk.injEq] at h
  obtain ⟨hl, ⟨hn, hk, hr⟩, ⟨hi, hv, hc⟩, hm, ht, hs⟩ := h
  refine ⟨hl, ?_⟩
  cases o <;> simp only [tcpField, hn, hk, hr, hi, hv, hc, hm, ht, hs]

/-- What a datagram pcb keeps decides its options. -/
theorem dgramField_of_kept {o : SockOpt} {c c' : DgramPcb} (h : c'.kept = c.kept) :
    dgramField c' o = dgramField c o := by
  simp only [DgramPcb.kept, Prod.mk.injEq] at h
  obtain ⟨-, hr, ht, hs, hm, hl⟩ := h
  cases o <;> simp only [dgramField, hr, ht, hs, hm, hl]

/-- What is stored about options is in the slots and the pcbs. -/
theorem stored_mute : Mute (Same stored) where
  refl _ := rfl
  trans h h' := h'.trans h
  asked _ := rfl
  modMsg _ _ _ := rfl
  modBase _ _ _ _ := rfl
  emit _ _ _ := rfl
  out _ _ _ := rfl
  modLive _ _ := rfl
  sel _ _ _ _ _ := rfl

namespace Tends

variable {o : SockOpt} {S : Set SlotIdx} {P : Set PcbId} {w w' : World} {i : SlotIdx} {m : MsgId} {p : PcbId}

/-! ## What code does not see -/

/-- Answers, lookups and ids set no option. -/
theorem deaf : Deaf (Tends o S P) where
  toMute := Mute.mono refl trans same stored_mute
  dropPcb _ _ := setPcb_none
  keepPcb _ _ _ _ hc hk := setPcb_some hc (.of_kept hk)
  keepUdp _ _ _ hf := onUdp fun c => dgramField_of_kept (hf c)
  keepRaw _ _ _ hf := onRaw fun c => dgramField_of_kept (hf c)
  assign _ i f hs ho ht := by
    simp only [TnSocketSlot.shown, Prod.mk.injEq] at hs
    obtain ⟨hu, -, -, -, -, -, hup, hrp⟩ := hs
    exact modSlot fun _ => ⟨fun h => hu ▸ h, fun _ => by rw [ho], ht, .inl hup, .inl hrp⟩
  replyMsg _ _ := same rfl
  setPending _ i k x := setPending (i := i) k x
  dns _ _ _ _ := same rfl
  park _ _ := same rfl

/-- Options do not show what connections do. -/
theorem blind : Blind (Tends o S P) := Deaf.toBlind deaf

/-- Callbacks are set. -/
theorem registerSlot (j : SlotIdx) : Tends o S P w (registerSlot w p j) := Blind.registerSlot blind j

/-- A pcb is aborted. -/
theorem tcpAbort : Tends o S P w (tcpAbort w p) := Blind.tcpAbort blind

/-- Queued data is sent. -/
theorem tcpOutput : Tends o S P w (tcpOutput w p) := Blind.tcpOutput blind

/-- A pcb is bound. -/
theorem tcpBind (ip port : Nat) : Tends o S P w (tcpBind w p ip port).1 := Blind.tcpBind blind ip port

/-- A burst is written. -/
theorem tnTcpWriteSome (c : CallNo) (buf : Mem) (len fuel : Nat)
    (iov : Option (List Iovec × Nat)) (d : Nat) :
    Tends o S P w (tnTcpWriteSome p c buf len fuel w iov d).1 := Blind.tnTcpWriteSome blind ..

/-- An address is stored for the client. -/
theorem tnStoreClientSockaddr (ka kl port addr : Nat) :
    Tends o S P w (tnStoreClientSockaddr w m ka kl port addr) :=
  Mute.tnStoreClientSockaddr (Blind.toMute blind) ka kl port addr

/-- An accept entry is freed. -/
theorem tnAcceptEntryFree (ent : TnAcceptEntry) : Tends o S P w (tnAcceptEntryFree w ent) :=
  Blind.tnAcceptEntryFree blind ent

/-- The tick sets no option. -/
theorem tnSlotCheckRecvTimeouts : Tends o S P w (tnSlotCheckRecvTimeouts w) :=
  Replies.tnSlotCheckRecvTimeouts (Deaf.replies deaf)

/-- A refusal. -/
theorem refuse (e : Errno) : Tends o S P w (Tolunnet.fail w m e).1 := (refl w).fail e

/-! ## Queues and event words -/

/-- Neither does an event. -/
theorem tnRecordSocketEvent (e : Nat) : Tends o S P w (tnRecordSocketEvent w i e) := by
  unfold Tolunnet.tnRecordSocketEvent
  dsimp only
  split
  · split
    · exact refl w
    · split
      · split <;> exact same rfl
      · exact assign rfl
  · exact refl w

/-- Neither does a packet that is queued. -/
theorem tnRxQueuePushEx (seg : List UInt8) (ip port : Nat) (capped : Bool) :
    Tends o S P w (tnRxQueuePushEx w i seg ip port capped).1 := by
  unfold Tolunnet.tnRxQueuePushEx
  dsimp only
  split_ifs
  · exact refl w
  · dsimp only
    refine asked.trans (assign ?_)
    rfl
  · exact asked

/-- The head of the accept queue is unlinked. -/
theorem tnAcceptQueuePopEntry : Tends o S P w (tnAcceptQueuePopEntry w i) := assign rfl

/-- A connection that waits is lost. -/
theorem tnAcceptQueueRemove (e : EntId) : Tends o S P w (tnAcceptQueueRemove w i e) := by
  unfold Tolunnet.tnAcceptQueueRemove
  split
  · exact assign rfl
  · exact refl w

/-- A connection is queued. -/
theorem tnAcceptQueuePush : Tends o S P w (tnAcceptQueuePush w i p).1 := by
  unfold Tolunnet.tnAcceptQueuePush
  split_ifs
  · exact refl w
  · dsimp only
    generalize hw1 : w.asked.modSlot i _ = w1
    have pushed : Tends o S P w.asked w1 := by
      rw [← hw1]
      exact assign rfl
    exact (asked.trans pushed).trans
      (((Blind.tcpArg blind _).trans (tcpRecv _)).trans (Blind.tcpErr blind _))
  · exact asked

/-- The head of the accept queue is dropped. -/
theorem dropHeadEntry : Tends o S P w (dropHeadEntry w i) := by
  unfold Tolunnet.dropHeadEntry
  split
  · refine Tends.trans ?_ (tnAcceptEntryFree _)
    exact assign rfl
  · exact refl w

/-- The connections that wait are aborted. -/
theorem tnAcceptQueueDrain : Tends o S P w (tnAcceptQueueDrain w i) := by
  unfold Tolunnet.tnAcceptQueueDrain
  refine Tends.trans (Mute.foldl (Blind.toMute blind) _ _ (fun _ _ _ => dropHeadEntry) w) (assign ?_)
  rfl

/-! ## Release -/

/-- A slot that is freed loses its UDP pcb. -/
theorem freeUdp : Tends o S P w (freeUdp w i) := by
  unfold Tolunnet.freeUdp
  split
  · exact setUdp_none.trans (modSlot fun _ => ⟨id, fun _ => rfl, .inl rfl, .inr rfl, .inl rfl⟩)
  · exact refl w

/-- And its raw pcb. -/
theorem freeRaw : Tends o S P w (freeRaw w i) := by
  unfold Tolunnet.freeRaw
  split
  · exact setRaw_none.trans (modSlot fun _ => ⟨id, fun _ => rfl, .inl rfl, .inl rfl, .inr rfl⟩)
  · exact refl w

/-- It leaves a group. -/
theorem mcastLeaveAt (k : Fin 8) : Tends o S P w (mcastLeaveAt i w k) := by
  unfold Tolunnet.mcastLeaveAt igmpLeavegroup
  dsimp only
  split
  · refine same ?_
    split <;> rfl
  · exact refl w

/-- And all its groups. -/
theorem tnMcastLeaveAll : Tends o S P w (tnMcastLeaveAll w i) :=
  Mute.foldl (Blind.toMute blind) _ _ (fun _ k _ => mcastLeaveAt k) w

/-- The slot is free. -/
theorem clearSlot : Tends o S P w (clearSlot w i) :=
  modSlot fun _ => ⟨fun h => (Bool.noConfusion h), fun h => (Bool.noConfusion h), .inl rfl, .inl rfl,
    .inl rfl⟩

/-- A slot that is freed sets no option. -/
theorem tnSlotFree : Tends o S P w (tnSlotFree w i) := by
  unfold Tolunnet.tnSlotFree
  dsimp only
  split
  · refine Tends.trans ?_ clearSlot
    refine Tends.trans ?_ (Deaf.tnSlotReplySend deaf ..)
    refine Tends.trans ?_ (Deaf.replyPending deaf ..)
    refine Tends.trans ?_ (Deaf.replyPending deaf ..)
    refine Tends.trans ?_ (Deaf.replyPending deaf ..)
    exact ((((tnMcastLeaveAll.trans freeUdp).trans (Blind.freeTcp blind)).trans freeRaw).trans
      (assign rfl)).trans tnAcceptQueueDrain
  · exact refl w

/-! ## The queue of a stream -/

/-- A read moves the offset. -/
theorem rxAdvance (n : Nat) : Tends o S P w (rxAdvance w i n) := by
  refine assign ?_
  split <;> rfl

/-- A packet that is read leaves the queue. -/
theorem rxUnlink : Tends o S P w (rxUnlink w i) := by
  refine assign ?_
  split
  · rfl
  · split <;> rfl

/-! ## Callbacks and handlers -/

/-- The selector table grows. -/
theorem tnSelectorTableGrow (n : Nat) : Tends o S P w (tnSelectorTableGrow w n) := by
  refine same ?_
  unfold Tolunnet.tnSelectorTableGrow
  split
  · rfl
  · split <;> rfl

/-- Queues and event words are no options, and a slot that is freed has none. -/
theorem routine : Routine (fun _ _ => True) (Tends o S P) where
  toDeaf := deaf
  rest _ _ he := by
    simp only [World.shown, Prod.mk.injEq] at he
    obtain ⟨hs, ht, hu, hr, -⟩ := he
    exact same (by rw [stored, hs, ht, hu, hr]; rfl)
  prefs _ _ := same rfl
  grow _ n := tnSelectorTableGrow n
  event _ _ e := tnRecordSocketEvent e
  fits _ _ _ _ := trivial
  udp _ _ _ _ _ _ _ hw := hw trivial
  raw _ _ _ _ _ _ _ hw := hw trivial
  push _ _ seg ip port capped _ := tnRxQueuePushEx seg ip port capped
  consume _ _ n _ := ((rxAdvance n).trans (Blind.rxWindow blind n)).trans rxUnlink
  skip _ _ n _ := (rxAdvance n).trans rxUnlink
  pop _ _ := assign rfl
  drain _ _ := assign rfl
  fin _ _ _ _ _ := assign rfl
  early _ _ _ _ _ _ _ _ := assign rfl
  remove _ _ e := tnAcceptQueueRemove e
  free _ _ := tnSlotFree
  parked _ _ f hf ho ht := by
    simp only [TnSocketSlot.shown, Prod.mk.injEq] at hf
    obtain ⟨hu, -, -, -, -, -, hup, hrp⟩ := hf
    exact assign (by simp only [seen, hu, ho, ht, hup, hrp])

/-- Operations on queues and events. -/
theorem stock : Stock (fun _ _ => True) (Tends o S P) := Routine.toStock routine

/-- Callbacks. -/
theorem callbacks : Callbacks (fun _ _ => True) (Tends o S P) := Routine.callbacks routine

/-- Handlers other than those of options. -/
theorem loose : Loose (fun _ _ => True) (Tends o S P) where
  toRoutine := routine
  setFd _ b fd x := setFd b fd x
  bases _ _ _ _ := same rfl

/-! ## lwIP's actions -/

/-- Every callback ends with these two calls. -/
theorem signalRecord (e : Nat) :
    Tends o S P w (Tolunnet.tnRecordSocketEvent (Tolunnet.tnSignalSocket w i) i e) :=
  Stock.signalRecord stock e

/-- After the pcb of an established connection has had Nagle's algorithm turned off. -/
theorem afterNagle (h : (w.sockets i).inUse = true ∧ (w.sockets i).tcpPcb = some p) :
    Tends o S P (Tolunnet.tcpNagle w p true) (tnTcpConnectedCb w i p) := by
  unfold Tolunnet.tnTcpConnectedCb
  dsimp only
  rw [if_pos h]
  refine Tends.trans ?_ (Deaf.replyPending deaf ..)
  refine Tends.trans ?_ (signalRecord _)
  exact assign rfl

/-- An action of lwIP, if the pcb is exempt on which it reports a connection. -/
theorem runEv {ev : LwipEv} (hc : ∀ p, ev = .connected p → p ∉ P → o ≠ .nodelay)
    (ha : ∀ l p ip port, ev ≠ .accept l p ip port) : Tends o S P w (runEv w ev) :=
  Callbacks.runEv callbacks
    (fun p he _ _ => Callbacks.tnTcpConnectedCb callbacks (tcpNagle (hc p he) true))
    fun l p ip port he => absurd he (ha l p ip port)

/-- What a call that allocates a pcb may do to other connections. -/
theorem runErrs (evs : List LwipEv) : Tends o S P w (runErrs w evs) := Callbacks.runErrs callbacks evs

/-! ## Steps without a request -/

/-- A client sets no option. -/
theorem clientStep (c : ClientStep) : Tends o S P w (clientStep w c) := by
  refine same ?_
  cases c <;> rfl

/-- Ctrl-C. -/
theorem ctrlC : Tends o S P w (ctrlC w) := Loose.ctrlC loose

/-- A shutdown attempt. -/
theorem shutdownAttempt : Tends o S P w (shutdownAttempt w) := Loose.shutdownAttempt loose

end Tends

end Tolunnet
