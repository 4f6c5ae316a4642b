import Tolunnet.Refine.SlotTable

/-!
# `Tolunnet.Refine.Recv`: reads as runs of acts

The three receiving handlers do the same to the abstract daemon: they take bytes from the first
packet of the queue, or a whole datagram, or clear a stored error, and then either have an
answer or find that the request must wait. `RecvEnds` says so. A request that waits and is in
hand is parked by it; one that is already parked has been served.
-/

set_option autoImplicit false

namespace Tolunnet

open World

variable {P : Label → Prop} {t : Tok} {w : World} {m : MsgId} {i : SlotIdx}

/-! ## Consuming the queue -/

/-- The pieces of a packet are no longer than the packet. -/
theorem chunksLen_scatter_le (iovs : List Iovec) (fuel : Nat) (pos : IovPos) (avail : Nat) :
    chunksLen (scatter iovs fuel pos avail).1 ≤ avail := by
  induction fuel generalizing pos avail with
  | zero => exact Nat.zero_le _
  | succ fuel ih =>
    unfold scatter
    split
    · exact Nat.zero_le _
    · rename_i v hv
      dsimp only
      split
      · exact Nat.zero_le _
      · split
        · exact ih _ _
        · have h := ih { pos with off := pos.off + min avail (clip16 (v.iovLen - pos.off)) }
            (avail - min avail (clip16 (v.iovLen - pos.off)))
          show min avail (clip16 (v.iovLen - pos.off)) + chunksLen _ ≤ avail
          omega

/-- Stores into client memory are not kept. -/
@[simp] theorem abs_storeChunks (t : Tok) (w : World) (m : MsgId) (bytes : List UInt8)
    (l : List IovChunk) : abs t (storeChunks w m bytes l) = abs t w := by
  induction l generalizing w bytes with
  | nil => rfl
  | cons c l ih => exact ih _ _

theorem Only.storeChunks {S : Set SlotIdx} (w : World) (m : MsgId) (bytes : List UInt8)
    (l : List IovChunk) : Only S w (storeChunks w m bytes l) := by
  induction l generalizing w bytes with
  | nil => exact .refl w
  | cons c l ih => exact (Only.out _).trans (ih _ _)

theorem Meek.rxAdvance (n : Nat) : Meek i w (rxAdvance w i n) :=
  .assign _ fun s => by
    split <;> exact ⟨rfl, rfl, rfl, rfl, rfl, rfl⟩

theorem Meek.rxUnlink : Meek i w (rxUnlink w i) :=
  .assign _ fun s => by
    split
    · exact ⟨rfl, rfl, rfl, rfl, rfl, rfl⟩
    · split <;> exact ⟨rfl, rfl, rfl, rfl, rfl, rfl⟩

theorem Meek.rxWindow (n : Nat) : Meek i w (rxWindow w i n) := by
  unfold Tolunnet.rxWindow
  split
  · exact .tcpRecvedFor _ _
  · exact .refl w

theorem Meek.rxPop : Meek i w (rxPop w i) :=
  .assign _ fun _ => by exact ⟨rfl, rfl, rfl, rfl, rfl, rfl⟩

theorem Meek.rxConsume (n : Nat) : Meek i w (rxConsume w i n) :=
  ((Meek.rxAdvance n).trans (.rxWindow n)).trans .rxUnlink

theorem pending_rxAdvance (n : Nat) :
    ((rxAdvance w i n).sockets i).pending = (w.sockets i).pending := by
  rw [rxAdvance, sockets_modSlot]
  split <;> rfl

theorem pending_rxWindow (n : Nat) :
    ((rxWindow w i n).sockets i).pending = (w.sockets i).pending := by
  unfold rxWindow
  split
  · rw [tcpRecvedFor, sockets_modSlot, tcpRecved, (Only.readFull (S := ∅) _).sockets]
  · rfl

theorem pending_rxUnlink : ((rxUnlink w i).sockets i).pending = (w.sockets i).pending := by
  rw [rxUnlink, sockets_modSlot]
  split
  · rfl
  · split <;> rfl

/-- A read leaves the parked requests alone. -/
theorem pending_rxConsume (n : Nat) :
    ((rxConsume w i n).sockets i).pending = (w.sockets i).pending := by
  rw [rxConsume, pending_rxUnlink, pending_rxWindow, pending_rxAdvance]

/-- A slot with data in its queue has a full pcb, if it has one. -/
theorem full_of_rx (hs : (abs t w).Sound) {p : PcbId} (hq : (w.sockets i).rx ≠ [])
    (hp : (w.sockets i).tcpPcb = some p) : (abs t w).Full p := by
  obtain ⟨c, hc, -, hl⟩ := (hs.disc.slots i).pcb p hp
  refine ⟨c, hc, hl.full ?_⟩
  rcases (hs.disc.slots i).rx hq with h | h | h
  · rw [show ((abs t w).slot i).tcp = some p from hp] at h
    cases h
  · rw [h]
    decide
  · rw [h]
    decide

/-- The window goes back to the peer. -/
theorem abs_tcpRecvedFor {p : PcbId} (h : (abs t w).Full p) (n : Nat) :
    abs t (tcpRecvedFor w i p n) = (abs t w).slotSet i { (abs t w).slot i with
      hist := { (w.sockets i).hist with recved := (w.sockets i).hist.recved + n } } := by
  rw [tcpRecvedFor, abs_modSlot, abs_tcpRecved h,
    show (tcpRecved w p).sockets = w.sockets from (Only.readFull (S := ∅) _).sockets]
  rfl

/-- A read of `n` bytes from the first packet. -/
theorem rxConsume_acts {pkt : TnRxPacket} {rest : List TnRxPacket} {n : Nat}
    (hq : (w.sockets i).rx = pkt :: rest) (hn : n ≤ pkt.rest.length) :
    Acts P (abs t w) (abs t (rxConsume w i n)) := by
  refine Acts.of_sound fun hs => ?_
  refine Acts.one (.rx (.take (abs t w) i pkt rest n hq hn)) ?_
  -- the queue and the history after the read
  have h1 : (rxAdvance w i n).sockets i = { w.sockets i with
      rx := { pkt with offset := pkt.offset + n } :: rest,
      hist := { (w.sockets i).hist with
        returned := (w.sockets i).hist.returned ++ pkt.rest.take n,
        attached := (w.sockets i).hist.attached + (if (w.sockets i).tcpPcb.isSome then n else 0) } } := by
    rw [rxAdvance, sockets_modSlot, hq]
  have h2 : abs t (rxWindow (rxAdvance w i n) i n) = (abs t w).slotSet i { (abs t w).slot i with
      rx := { pkt with offset := pkt.offset + n } :: rest,
      hist := (w.sockets i).hist.took pkt n (w.sockets i).tcpPcb.isSome } := by
    unfold rxWindow
    rw [h1]
    dsimp only
    cases hp : (w.sockets i).tcpPcb with
    | none =>
      rw [show abs t (rxAdvance w i n) = _ from abs_modSlot .., hq]
      simp [hp, TnSocketSlot.view, RxHist.took]
    | some p =>
      have hf : (abs t (rxAdvance w i n)).Full p := full_of_rx hs (by rw [hq]; simp) hp
      dsimp only
      rw [abs_tcpRecvedFor hf, show abs t (rxAdvance w i n) = _ from abs_modSlot .., h1, hq]
      simp [hp, TnSocketSlot.view, RxHist.took]
  have h3 : ((rxWindow (rxAdvance w i n) i n).sockets i).view = { (w.sockets i).view with
      rx := { pkt with offset := pkt.offset + n } :: rest,
      hist := (w.sockets i).hist.took pkt n (w.sockets i).tcpPcb.isSome } := by
    have h := congrArg (fun a => Abs.slot a i) h2
    simpa using h
  have h3' : ((rxWindow (rxAdvance w i n) i n).sockets i).rx
      = { pkt with offset := pkt.offset + n } :: rest := congrArg SlotView.rx h3
  rw [rxConsume, rxUnlink, abs_modSlot, h2, h3']
  dsimp only
  rw [slotSet_slotSet]
  congr 1
  unfold advanced
  split
  · show { ((rxWindow (rxAdvance w i n) i n).sockets i).view with rx := rest } = _
    rw [h3]
    rfl
  · rw [h3]
    rfl

/-- A datagram is read. -/
theorem rxPop_acts (ht : (w.sockets i).type ≠ sockStream) :
    Acts P (abs t w) (abs t (rxPop w i)) :=
  Acts.one (.rx (.pop (abs t w) i ht)) (abs_modSlot ..)

/-! ## How a read ends -/

/-- A read of request `m` on slot `i` has an answer, or must wait and has a reason to. -/
inductive RecvEnds (P : Label → Prop) (t : Tok) (w : World) (m : MsgId) (i : SlotIdx) :
    World × TnIpcReplyAction → Prop where
  | answer (w' : World) (ha : Acts P (abs t w) (abs t w')) (hm : Meek i w w')
      (hp : (w'.sockets i).pending = (w.sockets i).pending) :
      RecvEnds P t w m i (w', .replyNow)
  | wait (w' : World) (ha : abs t w' = abs t w) (hm : Meek i w w')
      (hp : w'.sockets = w.sockets) (hw : (w.sockets i).view.RecvWaits) :
      RecvEnds P t w m i (tnSlotParkRecv w' i m)

namespace RecvEnds

/-- The last assignments before an answer. -/
theorem done {w' : World} (ha : Acts P (abs t w) (abs t w')) (hm : Meek i w w')
    (hp : (w'.sockets i).pending = (w.sockets i).pending) (r : Int) (e : Errno) :
    RecvEnds P t w m i (Tolunnet.done w' m r e) :=
  .answer _ (ha.trans (Acts.none (abs_setReply ..))) (hm.trans (.of_only (.setReply m r e))) hp

/-- An answer that needs nothing from the slot. -/
theorem quiet {w' : World} (ha : abs t w' = abs t w) (hm : Only ∅ w w') (r : Int) (e : Errno) :
    RecvEnds P t w m i (Tolunnet.done w' m r e) :=
  done (Acts.none ha) (.of_only hm) (by rw [hm.sockets]) r e

/-- A read after stores into client memory. -/
theorem after {w' : World} {r : World × TnIpcReplyAction} (ha : abs t w' = abs t w)
    (hm : Only ∅ w w') (h : RecvEnds P t w' m i r) : RecvEnds P t w m i r := by
  cases h with
  | answer w'' ha' hm' hp =>
    exact .answer w'' ((Acts.none ha).trans ha') ((Meek.of_only hm).trans hm')
      (by rw [hp, hm.sockets])
  | wait w'' ha' hm' hp hw =>
    exact .wait w'' (ha'.trans ha) ((Meek.of_only hm).trans hm') (hp.trans hm.sockets)
      (by rw [← hm.sockets]; exact hw)

end RecvEnds

/-- A stream read without data. -/
theorem recvStreamEmpty_ends (hq : (w.sockets i).rx = []) (flags : Int) :
    RecvEnds P t w m i (recvStreamEmpty w m i flags) := by
  unfold recvStreamEmpty
  dsimp only
  split
  · exact .quiet rfl (.refl w) _ _
  · rename_i h1
    split
    · exact .quiet rfl (.refl w) _ _
    · split
      · exact .quiet rfl (.refl w) _ _
      · rename_i h2
        split
        · exact .quiet rfl (.refl w) _ _
        · refine .wait w rfl (.refl w) rfl fun _ => ⟨hq, ?_, ?_⟩
          · by_contra h
            exact h2 ⟨fun h3 => h (Or.inl h3), fun h3 => h (Or.inr h3)⟩
          · exact Bool.eq_false_iff.mpr fun h => h1 (Or.inl h)

/-- A datagram read without a datagram. -/
theorem recvDgramEmpty_ends (ht : (w.sockets i).type ≠ sockStream) (flags : Int) :
    RecvEnds P t w m i (recvDgramEmpty w m i flags) := by
  unfold recvDgramEmpty
  split
  · exact .quiet rfl (.refl w) _ _
  · exact .wait w rfl (.refl w) rfl fun h => absurd h ht

/-- A read of a stream is answered or parked. -/
theorem recvStream_ends (len : Nat) (flags : Int) :
    RecvEnds P t w m i (recvStream w m i len flags) := by
  unfold recvStream
  dsimp only
  split
  · rename_i pkt rest hq
    split
    · exact .quiet (abs_store ..) (.out _) _ _
    · generalize hb : w.store m 0 0 _ = w1
      have ho : Only ∅ w w1 := hb ▸ .out _
      exact .after (by rw [← hb, abs_store]) ho (.done
        (rxConsume_acts (by rw [ho.sockets]; exact hq) (Nat.min_le_left _ _)) (.rxConsume _)
        (pending_rxConsume _) _ _)
  · rename_i hq
    split
    · refine .done (Acts.one (.rx (.clearErr (abs t w) i)) ?_) ?_ ?_ _ _
      · exact abs_modSlot ..
      · exact .assign _ fun _ => by exact ⟨rfl, rfl, rfl, rfl, rfl, rfl⟩
      · rw [sockets_modSlot]
    · exact recvStreamEmpty_ends hq flags

/-- So is a read of a datagram. -/
theorem recvDgram_ends (ht : (w.sockets i).type ≠ sockStream) (len : Nat) (flags : Int) :
    RecvEnds P t w m i (recvDgram w m i len flags) := by
  unfold recvDgram
  split
  · dsimp only
    split
    · exact .quiet (abs_store ..) (.out _) _ _
    · generalize hb : w.store m 0 0 _ = w1
      have ho : Only ∅ w w1 := hb ▸ .out _
      exact .after (by rw [← hb, abs_store]) ho (.done (rxPop_acts (by rw [ho.sockets]; exact ht))
        .rxPop (by rw [rxPop, sockets_modSlot]) _ _)
  · exact recvDgramEmpty_ends ht flags

/-- `tn_ipc_cmd_recv` on a slot. -/
theorem tnIpcCmdRecv_ends : RecvEnds P t w m i (tnIpcCmdRecv w m (some i)) := by
  unfold tnIpcCmdRecv
  dsimp only
  split
  · rename_i i' _ heq _
    obtain rfl : i = i' := by simpa using heq
    split
    · exact .quiet rfl (.refl w) _ _
    · split
      · exact .quiet rfl (.refl w) _ _
      · split
        · exact recvStream_ends _ _
        · rename_i ht
          split
          · exact recvDgram_ends ht _ _
          · exact .quiet rfl (.refl w) _ _
  · exact .quiet rfl (.refl w) _ _

/-- So is one that asks for the sender. -/
theorem recvfromDgram_ends (ht : (w.sockets i).type ≠ sockStream) (len : Nat) (flags : Int) :
    RecvEnds P t w m i (recvfromDgram w m i len flags) := by
  unfold recvfromDgram
  split
  · dsimp only
    generalize hb : Tolunnet.tnStoreClientSockaddr _ _ _ _ _ _ = w1
    have ha : abs t w1 = abs t w := by rw [← hb, abs_tnStoreClientSockaddr, abs_store]
    have ho : Only ∅ w w1 := by
      rw [← hb]
      exact (Only.out _).trans (.tnStoreClientSockaddr _ _ _ _ _)
    split
    · exact .quiet ha ho _ _
    · refine .after ha ho (.done (rxPop_acts ?_) .rxPop (by rw [rxPop, sockets_modSlot]) _ _)
      rw [ho.sockets]
      exact ht
  · exact recvDgramEmpty_ends ht flags

/-- What is known of a read that has an answer. -/
theorem RecvEnds.replyNow {w' : World} (h : RecvEnds P t w m i (w', .replyNow)) :
    Acts P (abs t w) (abs t w') ∧ Meek i w w' ∧
      (w'.sockets i).pending = (w.sockets i).pending := by
  generalize hr : (w', TnIpcReplyAction.replyNow) = r at h
  cases h with
  | answer w1 ha hm hp =>
    obtain rfl : w' = w1 := congrArg Prod.fst hr
    exact ⟨ha, hm, hp⟩
  | wait w1 ha hm hp hw =>
    -- another request is parked: this one is refused
    unfold tnSlotParkRecv at hr
    split at hr
    · split at hr
      · cases hr
      · obtain rfl : w' = w1.setReply m (-1) .ealready := congrArg Prod.fst hr
        refine ⟨Acts.none ?_, hm.trans (.of_only (.setReply _ _ _)), ?_⟩
        · rw [abs_setReply, ha]
        · rw [(Only.setReply (S := ∅) _ _ _).sockets, hp]
    · cases hr

/-- A store after a read that has an answer. -/
theorem storeFromlen_ends {r : World × TnIpcReplyAction} (h : RecvEnds P t w m i r) :
    RecvEnds P t w m i (storeFromlen r m) := by
  unfold storeFromlen
  split
  · obtain ⟨ha, hm, hp⟩ := h.replyNow
    split
    · split
      · exact .answer _ ha (hm.trans (.of_only (.out _))) hp
      · exact .answer _ ha hm hp
    · exact .answer _ ha hm hp
  · exact h

/-- `tn_ipc_cmd_recvfrom` on a slot. -/
theorem tnIpcCmdRecvfrom_ends : RecvEnds P t w m i (tnIpcCmdRecvfrom w m (some i)) := by
  unfold tnIpcCmdRecvfrom
  dsimp only
  split
  · rename_i i' _ heq _
    obtain rfl : i = i' := by simpa using heq
    split
    · exact .quiet rfl (.refl w) _ _
    · split
      · exact .quiet rfl (.refl w) _ _
      · split
        · exact storeFromlen_ends tnIpcCmdRecv_ends
        · rename_i ht
          split
          · exact recvfromDgram_ends ht _ _
          · exact .quiet rfl (.refl w) _ _
  · exact .quiet rfl (.refl w) _ _

/-! ## `RECVMSG` -/

theorem abs_recvmsgPeek (iovs : List Iovec) (total : Nat) (segs : List (List UInt8)) (pos : IovPos)
    (copied : Nat) (w : World) :
    abs t (recvmsgPeek iovs total m w segs pos copied).1 = abs t w ∧
      Only ∅ w (recvmsgPeek iovs total m w segs pos copied).1 := by
  induction segs generalizing w pos copied with
  | nil => exact ⟨rfl, .refl w⟩
  | cons seg segs ih =>
    unfold recvmsgPeek
    split
    · dsimp only
      obtain ⟨h1, h2⟩ := ih (scatterAll iovs pos seg.length).2
        (copied + chunksLen (scatterAll iovs pos seg.length).1)
        (storeChunks w m seg (scatterAll iovs pos seg.length).1)
      exact ⟨by rw [h1, abs_storeChunks], (Only.storeChunks w m _ _).trans h2⟩
    · exact ⟨rfl, .refl w⟩

/-- A window of 0 bytes is no change. -/
theorem abs_rxWindow_zero (hf : ∀ p, (w.sockets i).tcpPcb = some p → (abs t w).Full p) :
    abs t (rxUnlink (rxWindow w i 0) i) = abs t (rxUnlink w i) := by
  unfold rxWindow
  cases hp : (w.sockets i).tcpPcb with
  | none => rfl
  | some p =>
    obtain ⟨c, hc, -, he⟩ := onFull_full (hf p hp) .recved id
    have hw : tcpRecvedFor w i p 0 = w.setPcb p (some c) := by
      rw [tcpRecvedFor, tcpRecved, World.readFull, he]
      show ({ w.setPcb p (some c) with
        sockets := Function.update w.sockets i (w.sockets i) } : World) = _
      rw [Function.update_eq_self]
      rfl
    show abs t (rxUnlink (tcpRecvedFor w i p 0) i) = _
    rw [hw, show rxUnlink (w.setPcb p (some c)) i = (rxUnlink w i).setPcb p (some c) from rfl,
      abs_setPcb]
    exact pcbSet_same (abs_pcb_some.mpr ⟨c, hc, rfl⟩)

/-- One turn of the consuming loop: a read of `n` bytes, whose window is not given back when
`n` is 0. -/
theorem recvmsgTurn_acts {pkt : TnRxPacket} {rest : List TnRxPacket} {n : Nat}
    (hq : (w.sockets i).rx = pkt :: rest) (hn : n ≤ pkt.rest.length) :
    Acts P (abs t w) (abs t (rxUnlink
      (if n > 0 then rxWindow (rxAdvance w i n) i n else rxAdvance w i n) i)) := by
  by_cases h0 : n > 0
  · rw [if_pos h0]
    exact rxConsume_acts hq hn
  · obtain rfl : n = 0 := by omega
    rw [if_neg h0]
    refine Acts.of_sound fun hs => (rxConsume_acts hq hn).trans (Acts.none ?_)
    refine (abs_rxWindow_zero fun p hp => ?_).symm
    have ht : ((rxAdvance w i 0).sockets i).tcpPcb = (w.sockets i).tcpPcb := by
      rw [rxAdvance, sockets_modSlot, hq]
    exact full_of_rx hs (by rw [hq]; simp) (ht ▸ hp)

/-- The consuming loop sends nothing. -/
theorem recvmsgTake_acts (iovs : List Iovec) (total fuel : Nat) (w : World) (pos : IovPos)
    (copied : Nat) :
    Acts P (abs t w) (abs t (recvmsgTake iovs total m i fuel w pos copied).1) ∧
      Meek i w (recvmsgTake iovs total m i fuel w pos copied).1 ∧
      ((recvmsgTake iovs total m i fuel w pos copied).1.sockets i).pending
        = (w.sockets i).pending := by
  induction fuel generalizing w pos copied with
  | zero => exact ⟨.refl, .refl w, rfl⟩
  | succ fuel ih =>
    unfold recvmsgTake
    split
    · exact ⟨.refl, .refl w, rfl⟩
    · rename_i pkt rest hq
      split
      · dsimp only
        have hn : chunksLen (scatterAll iovs pos pkt.rest.length).1 ≤ pkt.rest.length :=
          chunksLen_scatter_le ..
        generalize scatterAll iovs pos pkt.rest.length = r at hn ⊢
        generalize chunksLen r.1 = n at hn ⊢
        -- the turn, after the stores
        have h1 := recvmsgTurn_acts (P := P) (t := t) (w := storeChunks w m pkt.rest r.1) (i := i)
          (by rw [(Only.storeChunks (S := ∅) _ _ _ _).sockets]; exact hq) hn
        rw [abs_storeChunks] at h1
        have h2 : Meek i w (rxUnlink (if n > 0 then
            rxWindow (rxAdvance (storeChunks w m pkt.rest r.1) i n) i n
            else rxAdvance (storeChunks w m pkt.rest r.1) i n) i) := by
          refine Meek.trans ?_ .rxUnlink
          have ha := (Meek.of_only (i := i) (Only.storeChunks w m pkt.rest r.1)).trans (.rxAdvance n)
          split
          · exact ha.trans (.rxWindow n)
          · exact ha
        have h3 : ((rxUnlink (if n > 0 then
            rxWindow (rxAdvance (storeChunks w m pkt.rest r.1) i n) i n
            else rxAdvance (storeChunks w m pkt.rest r.1) i n) i).sockets i).pending
            = (w.sockets i).pending := by
          rw [pending_rxUnlink]
          split
          · rw [pending_rxWindow, pending_rxAdvance, (Only.storeChunks (S := ∅) _ _ _ _).sockets]
          · rw [pending_rxAdvance, (Only.storeChunks (S := ∅) _ _ _ _).sockets]
        obtain ⟨k1, k2, k3⟩ := ih _ r.2 (copied + n)
        exact ⟨h1.trans k1, h2.trans k2, k3.trans h3⟩
      · exact ⟨.refl, .refl w, rfl⟩

/-- A read into several buffers ends in the same way. -/
theorem recvmsgStream_ends (h : Msghdr) (iovs : List Iovec) (flags : Int) :
    RecvEnds P t w m i (recvmsgStream w m i h iovs flags) := by
  unfold recvmsgStream
  dsimp only
  -- the name length is a store into client memory
  have clear : ∀ w1, abs t (if h.msgName.isSome then w1.store m 0 4 (bytes32 0) else w1) = abs t w1 ∧
      Only ∅ w1 (if h.msgName.isSome then w1.store m 0 4 (bytes32 0) else w1) := by
    intro w1
    split
    · exact ⟨abs_store .., .out _⟩
    · exact ⟨rfl, .refl w1⟩
  split
  · by_cases hf : hasFlag flags msgPeek = true
    · rw [if_pos hf]
      obtain ⟨h1, h2⟩ := abs_recvmsgPeek (t := t) (m := m) iovs
        ((iovs.map Iovec.iovLen).sum % 2 ^ 32) (peekSegs (w.sockets i).rx) {} 0 w
      exact .quiet ((clear _).1.trans h1) (h2.trans (clear _).2) _ _
    · rw [if_neg hf]
      obtain ⟨h1, h2, h3⟩ := recvmsgTake_acts (P := P) (t := t) (m := m) (i := i) iovs
        ((iovs.map Iovec.iovLen).sum % 2 ^ 32) (w.sockets i).rx.length w {} 0
      exact .done (h1.trans (Acts.none (clear _).1)) (h2.trans (.of_only (clear _).2))
        (by rw [(clear _).2.sockets, h3]) _ _
  · rename_i hq
    split
    · exact .quiet (clear w).1 (clear w).2 _ _
    · exact recvStreamEmpty_ends (by simpa using hq) flags

/-- So does one of a datagram. -/
theorem recvmsgDgram_ends (ht : (w.sockets i).type ≠ sockStream) (h : Msghdr) (iovs : List Iovec)
    (flags : Int) : RecvEnds P t w m i (recvmsgDgram w m i h iovs flags) := by
  unfold recvmsgDgram
  split
  · rename_i pkt rest hq
    extract_lets r copied w1 w2 port sa w3
    -- everything before the unlinking is a store into client memory
    have h1 : abs t w1 = abs t w ∧ Only ∅ w w1 := ⟨abs_storeChunks .., .storeChunks ..⟩
    have h2 : abs t w2 = abs t w1 ∧ Only ∅ w1 w2 := by
      simp only [w2]
      split
      · exact ⟨abs_store .., .out _⟩
      · exact ⟨rfl, .refl w1⟩
    have h3 : abs t w3 = abs t w2 ∧ Only ∅ w2 w3 := by
      simp only [w3]
      split
      · exact ⟨(abs_store ..).trans (abs_store ..), (Only.out _).trans (.out _)⟩
      · exact ⟨rfl, .refl w2⟩
    have ha : abs t w3 = abs t w := (h3.1.trans h2.1).trans h1.1
    have ho : Only ∅ w w3 := (h1.2.trans h2.2).trans h3.2
    clear_value w3
    split
    · exact .quiet ha ho _ _
    · exact .after ha ho (.done (rxPop_acts (by rw [ho.sockets]; exact ht)) .rxPop
        (by rw [rxPop, sockets_modSlot]) _ _)
  · exact recvDgramEmpty_ends ht flags

/-- `tn_ipc_cmd_recvmsg` on a slot. -/
theorem tnIpcCmdRecvmsg_ends : RecvEnds P t w m i (tnIpcCmdRecvmsg w m (some i)) := by
  unfold tnIpcCmdRecvmsg
  dsimp only
  split
  · rename_i h i' _ heq
    obtain rfl : i = i' := by simpa using heq
    split
    · exact .quiet rfl (.refl w) _ _
    · split
      · exact .quiet rfl (.refl w) _ _
      · split
        · exact .quiet rfl (.refl w) _ _
        · split
          · exact .quiet rfl (.refl w) _ _
          · rename_i iovs _ _ _
            generalize hb : (if h.msgControl then _ else w.store m 0 24 (bytes32 0)) = w1
            have ho : abs t w1 = abs t w ∧ Only ∅ w w1 := by
              rw [← hb]
              split
              · exact ⟨rfl, (Only.out _).trans (.out _)⟩
              · exact ⟨rfl, .out _⟩
            refine .after ho.1 ho.2 ?_
            split
            · exact recvmsgStream_ends h iovs _
            · rename_i ht
              split
              · exact recvmsgDgram_ends ht h iovs _
              · exact .quiet rfl (.refl w1) _ _
  · exact .quiet rfl (.refl w) _ _
  · exact .quiet rfl (.refl w) _ _

/-! ## Parked and new requests -/

/-- So does every read. -/
theorem recvHandler_ends : RecvEnds P t w m i (recvHandler w m i) := by
  unfold recvHandler
  split
  · exact tnIpcCmdRecv_ends
  · exact tnIpcCmdRecvfrom_ends
  · exact tnIpcCmdRecvmsg_ends
  · exact .quiet rfl (.refl w) _ _

/-- A parked read that has an answer is taken out of its field. -/
theorem abs_unparkRecv (t : Tok) (w : World) (i : SlotIdx) (m : MsgId) :
    abs t (((w.setPending i .recv none).modSlot i fun s =>
      { s with recvDeadlineTick := 0 }).replyMsg m)
      = ((abs t w).slotSet i (((abs t w).slot i).setPend .recv none)).say
          (.reply (w.callOf m) (w.msgs m).result (w.msgs m).errNo) := by
  rw [abs_replyMsg, abs_modSlot_same _ _ _ _ rfl, abs_setPending]
  rfl

/-- `tn_service_pending_recv`: whatever waited has an answer or a reason to wait. -/
theorem tnServicePendingRecv_acts :
    Acts P (abs (t.due i .recv) w) (abs t (tnServicePendingRecv w i)) := by
  unfold tnServicePendingRecv
  split
  · rename_i hp
    exact acts_served (Or.inl hp)
  · rename_i m hm
    have he : RecvEnds P (t.due i .recv) w m i (recvHandler w m i) := recvHandler_ends
    split
    · rename_i w' heq
      rw [heq] at he
      obtain ⟨ha, -, hp⟩ := he.replyNow
      refine ha.trans (Relation.ReflTransGen.trans (Acts.one (.msg (.answer
        (abs (t.due i .recv) w') i .recv m _ _ (by decide) ((congrFun hp .recv).trans hm)))
        (abs_unparkRecv (t.due i .recv) w' i m)) (acts_served (Or.inl ?_)))
      rw [(Only.replyMsg (S := ∅) m).sockets, sockets_modSlot, World.setPending, sockets_modSlot]
      simp
    · rename_i w' heq
      generalize hr : recvHandler w m i = r at he heq
      subst heq
      generalize hd : (w', TnIpcReplyAction.defer) = r at he
      cases he with
      | answer w1 _ _ _ => cases hd
      | wait w1 ha _ hs hw =>
        -- the request is in its field already
        have hm' : (w1.sockets i).pending .recv = some m := by rw [hs]; exact hm
        have hd' : tnSlotParkRecv w1 i m = (w1, .defer) := by
          unfold tnSlotParkRecv
          rw [hm']
          simp
        rw [hd'] at hd
        obtain rfl : w' = w1 := congrArg Prod.fst hd
        refine (Acts.none ha).trans (acts_served (Or.inr ?_))
        show (w'.sockets i).view.RecvWaits
        rw [hs]
        exact hw

/-- A parked read that is served. -/
theorem Meek.tnServicePendingRecv : Meek i w (tnServicePendingRecv w i) := by
  unfold Tolunnet.tnServicePendingRecv
  split
  · exact .refl w
  · rename_i m hm
    have he : RecvEnds (fun _ => True) {} w m i (recvHandler w m i) := recvHandler_ends
    split
    · rename_i w' heq
      rw [heq] at he
      exact ((he.replyNow.2.1.trans (.unpark .recv)).trans
        (.assign _ fun _ => by exact ⟨rfl, rfl, rfl, rfl, rfl, rfl⟩)).trans (.of_only (.replyMsg m))
    · rename_i w' heq
      generalize hr : recvHandler w m i = r at he heq
      subst heq
      generalize hd : (w', TnIpcReplyAction.defer) = r at he
      cases he with
      | answer w1 _ _ _ => cases hd
      | wait w1 _ hmk hs hw =>
        have hm' : (w1.sockets i).pending .recv = some m := by rw [hs]; exact hm
        have hd' : tnSlotParkRecv w1 i m = (w1, .defer) := by
          unfold tnSlotParkRecv
          rw [hm']
          simp
        rw [hd'] at hd
        obtain rfl : w' = w1 := congrArg Prod.fst hd
        exact hmk

end Tolunnet
