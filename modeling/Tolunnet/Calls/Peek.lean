import Tolunnet.Calls.Recvmsg

/-!
# `Tolunnet.Calls.Peek`: `MSG_PEEK` as a preview

The three receiving calls with `MSG_PEEK`. A peek by `RECV` or `RECVFROM` sees as many bytes of the
whole queue as a 16-bit length allows, a read takes them from the first packet only, and `RECVMSG`
fills its array in both cases. `offer` is what each of them hands out. Since a stream never holds
more than lwIP's receive window, all peeks of one length see the same bytes, and every read of that
length takes some of them.
-/

set_option autoImplicit false

namespace Tolunnet

open World

variable {w w' : World} {m m' : MsgId} {i : SlotIdx} {len : Nat} {peek : Bool}

/-! ## Requests -/

/-- A request for `len` bytes that no check refuses: `RECV` or `RECVFROM` into a buffer, or
`RECVMSG` into an array with room for them. -/
inductive AsksBytes (w : World) (m : MsgId) (len : Nat) (peek : Bool) : Prop where
  | buffer (f : Mem) (hc : (w.msgs m).cmd = .recv ∨ (w.msgs m).cmd = .recvfrom)
      (hb : (w.msgs m).ptrs 0 = .mem f) (hl : (w.msgs m).args 1 = len) (hlong : len < 2 ^ 31)
      (hp : hasFlag ((w.msgs m).args 2) msgPeek = peek)
      (ho : hasFlag ((w.msgs m).args 2) msgOob = false)
  | array (h : Msghdr) (iovs : List Iovec) (hc : (w.msgs m).cmd = .recvmsg)
      (ha : AsksRecvmsg w m h iovs) (hl : iovRoom iovs = len)
      (hp : hasFlag ((w.msgs m).args 1) msgPeek = peek)

/-- What a call is able to touch of a receive queue: the packets with their offsets, their count, and
the bytes read and the window returned so far. -/
structure Untouched (w w' : World) : Prop where
  rx : ∀ j, (w'.sockets j).rx = (w.sockets j).rx
  rxCount : ∀ j, (w'.sockets j).rxCount = (w.sockets j).rxCount
  hist : ∀ j, (w'.sockets j).hist = (w.sockets j).hist
  pcbs : w'.tcpPcbs = w.tcpPcbs

theorem Untouched.refl (w : World) : Untouched w w := ⟨fun _ => rfl, fun _ => rfl, fun _ => rfl, rfl⟩

/-- Two steps that touch nothing. -/
theorem Untouched.trans {w'' : World} (h : Untouched w w') (h' : Untouched w' w'') :
    Untouched w w'' :=
  ⟨fun j => (h'.rx j).trans (h.rx j), fun j => (h'.rxCount j).trans (h.rxCount j),
    fun j => (h'.hist j).trans (h.hist j), h'.pcbs.trans h.pcbs⟩

theorem Untouched.of_eq (hs : w'.sockets = w.sockets) (hp : w'.tcpPcbs = w.tcpPcbs) :
    Untouched w w' :=
  ⟨fun _ => by rw [hs], fun _ => by rw [hs], fun _ => by rw [hs], hp⟩

/-- Assignments to other fields of a slot. -/
theorem Untouched.modSlot (h : Untouched w w') (j : SlotIdx) (f : TnSocketSlot → TnSocketSlot)
    (hf : ∀ s, (f s).rx = s.rx ∧ (f s).rxCount = s.rxCount ∧ (f s).hist = s.hist) :
    Untouched w (w'.modSlot j f) := by
  have slot : ∀ k, ((w'.modSlot j f).sockets k).rx = (w'.sockets k).rx ∧
      ((w'.modSlot j f).sockets k).rxCount = (w'.sockets k).rxCount ∧
      ((w'.modSlot j f).sockets k).hist = (w'.sockets k).hist := fun k => by
    by_cases hk : k = j
    · subst hk
      simpa [World.modSlot] using hf _
    · simp [World.modSlot, hk]
  exact ⟨fun k => (slot k).1.trans (h.rx k), fun k => (slot k).2.1.trans (h.rxCount k),
    fun k => (slot k).2.2.trans (h.hist k), h.pcbs⟩

/-! ## Parking -/

theorem untouched_fail (h : Untouched w w') (e : Errno) : Untouched w (fail w' m e).1 :=
  ⟨h.rx, h.rxCount, h.hist, h.pcbs⟩

theorem untouched_done (h : Untouched w w') (r : Int) (e : Errno) : Untouched w (done w' m r e).1 :=
  ⟨h.rx, h.rxCount, h.hist, h.pcbs⟩

/-- A read that waits touches no queue. -/
theorem untouched_park : Untouched w (tnSlotParkRecv w i m).1 := by
  unfold tnSlotParkRecv
  split
  · split
    · exact .refl w
    · exact untouched_fail (.refl w) _
  · dsimp only
    refine Untouched.modSlot (Untouched.modSlot (.refl w) i _ ?_) i _ ?_ <;> exact fun _ => ⟨rfl, rfl, rfl⟩

/-- So does one of a stream that is empty. -/
theorem untouched_recvStreamEmpty (flags : Int) : Untouched w (recvStreamEmpty w m i flags).1 := by
  unfold recvStreamEmpty
  dsimp only
  split_ifs
  · exact untouched_done (.refl w) _ _
  · exact untouched_fail (.refl w) _
  · exact untouched_fail (.refl w) _
  · exact untouched_fail (.refl w) _
  · exact untouched_park

/-- So does one of a datagram socket. -/
theorem untouched_recvDgramEmpty (flags : Int) : Untouched w (recvDgramEmpty w m i flags).1 := by
  unfold recvDgramEmpty
  split
  · exact untouched_fail (.refl w) _
  · exact untouched_park

/-! ## `RECV` and `RECVFROM` -/

section Buffer

variable {f : Mem} {flags : Int}

/-- A buffer that was filled from its start. -/
theorem handed_store {x : TnIpcMsg} (hb : x.ptrs 0 = .mem f) (bytes : List UInt8) (l : List Output) :
    Handed x m bytes (.store m 0 0 bytes :: l) := by
  unfold Handed
  rw [hb]
  intro f'
  rw [storedMem_store]
  exact memBytes_poke_self rfl

/-- A write behind another pointer argument does not matter to the buffer. -/
theorem Handed.store_cons {x : TnIpcMsg} {bytes b : List UInt8} {l : List Output} {k off : Nat}
    (hl : Handed x m bytes l) (hk : k ≠ 0) : Handed x m bytes (.store m k off b :: l) := by
  unfold Handed at hl ⊢
  split at hl
  · exact fun f' => by rw [storedMem_store_of_ne hk]; exact hl f'
  · obtain ⟨iovs, hi, fills⟩ := hl
    exact ⟨iovs, hi, fills.store_cons⟩
  · exact hl

/-- The branch for a stream. -/
theorem tnIpcCmdRecv_stream (hb : (w.msgs m).ptrs 0 = .mem f) (hl : (w.msgs m).args 1 = len)
    (ho : hasFlag ((w.msgs m).args 2) msgOob = false) (hk : (w.sockets i).type = sockStream) :
    tnIpcCmdRecv w m (some i) = recvStream w m i len ((w.msgs m).args 2) := by
  unfold tnIpcCmdRecv
  have nonneg : ¬ ((len : Int) < 0) := by omega
  simp [hb, Ptr.mem?, hl, ho, hk, nonneg]

/-- `RECVFROM` on a stream only adds the length of an empty name. -/
theorem returned_storeFromlen {bytes : List UInt8} {r : World × TnIpcReplyAction}
    (hr : Returned w m bytes r) : Returned w m bytes (storeFromlen r m) ∧
      (storeFromlen r m).1.sockets = r.1.sockets ∧ (storeFromlen r m).1.tcpPcbs = r.1.tcpPcbs := by
  obtain ⟨now, count, ok, l, out, handed⟩ := hr
  obtain ⟨w1, a⟩ := r
  cases now
  unfold storeFromlen
  dsimp only
  split
  · have added : Returned w m bytes (w1.store m 2 0 (bytes32 0), .replyNow) :=
      ⟨rfl, count, ok, .store m 2 0 (bytes32 0) :: l, congrArg (_ :: ·) out,
        handed.store_cons (by decide)⟩
    split
    · exact ⟨added, rfl, rfl⟩
    · exact ⟨⟨rfl, count, ok, l, out, handed⟩, rfl, rfl⟩
  · exact ⟨⟨rfl, count, ok, l, out, handed⟩, rfl, rfl⟩

/-- The reply of a stream to `RECV` and `RECVFROM`, when it hands out bytes. -/
theorem returned_of_recvStream (hb : (w.msgs m).ptrs 0 = .mem f) (hl : (w.msgs m).args 1 = len)
    (hc : (w.msgs m).cmd = .recv ∨ (w.msgs m).cmd = .recvfrom)
    (ho : hasFlag ((w.msgs m).args 2) msgOob = false) (hk : (w.sockets i).type = sockStream)
    {bytes : List UInt8} (hr : Returned w m bytes (recvStream w m i len ((w.msgs m).args 2))) :
    Returned w m bytes (recvHandler w m i) ∧
      (recvHandler w m i).1.sockets = (recvStream w m i len ((w.msgs m).args 2)).1.sockets ∧
      (recvHandler w m i).1.tcpPcbs = (recvStream w m i len ((w.msgs m).args 2)).1.tcpPcbs := by
  have recv := tnIpcCmdRecv_stream hb hl ho hk
  unfold recvHandler
  rcases hc with hc | hc
  · rw [hc]
    dsimp only
    rw [recv]
    exact ⟨hr, rfl, rfl⟩
  · rw [hc]
    dsimp only
    unfold tnIpcCmdRecvfrom
    have nonneg : ¬ ((len : Int) < 0) := by omega
    simp only [hb, Ptr.mem?, hl, nonneg, if_false, ho, Bool.false_eq_true, hk, if_true, recv]
    exact returned_storeFromlen hr

/-- A peek of a stream that has data. -/
theorem recvStream_peek (hb : (w.msgs m).ptrs 0 = .mem f) (hp : hasFlag flags msgPeek = true)
    (hw : ∀ pkt ∈ (w.sockets i).rx.tail, pkt.offset = 0) (hq : (w.sockets i).rx ≠ []) :
    Returned w m ((rxBytes (w.sockets i).rx).take (clip16 len)) (recvStream w m i len flags) ∧
      (recvStream w m i len flags).1.sockets = w.sockets ∧
      (recvStream w m i len flags).1.tcpPcbs = w.tcpPcbs := by
  obtain ⟨pkt, rest, hrx⟩ := List.exists_cons_of_ne_nil hq
  have segs : (peekSegs (pkt :: rest)).flatten = rxBytes (pkt :: rest) := by
    rw [hrx] at hw
    rw [peekSegs_eq hw]
    rfl
  unfold recvStream
  simp only [hrx, hp, if_true, segs]
  exact ⟨⟨rfl, by simp [done, World.setReply, modMsg], by simp [done, World.setReply, modMsg],
    [_], rfl, handed_store hb _ _⟩, rfl, rfl⟩

theorem output_rxConsume (n : Nat) : (rxConsume w i n).output = w.output := by
  unfold rxConsume rxUnlink
  simp [World.modSlot, rxAdvance]

@[simp] theorem msgs_onFull (p : PcbId) (op : PcbOp) (g : TcpPcb → TcpPcb) :
    (w.onFull p op g).msgs = w.msgs := by
  unfold World.onFull
  split
  · split <;> rfl
  · rfl

/-- A read of a stream that has data takes it from the first packet. -/
theorem recvStream_take (hb : (w.msgs m).ptrs 0 = .mem f) (hp : hasFlag flags msgPeek = false)
    {pkt : TnRxPacket} {rest : List TnRxPacket} (hrx : (w.sockets i).rx = pkt :: rest) :
    Returned w m (pkt.rest.take (clip16 len)) (recvStream w m i len flags) := by
  have cut : pkt.rest.take (min pkt.rest.length (clip16 len)) = pkt.rest.take (clip16 len) := by
    rw [Nat.min_comm]
    exact List.take_eq_take_min.symm
  unfold recvStream
  simp only [hrx, hp, Bool.false_eq_true, if_false]
  refine ⟨rfl, ?_, by simp [done, World.setReply, modMsg],
    [.store m 0 0 (pkt.rest.take (clip16 len))], ?_, handed_store hb _ _⟩
  · simp [done, World.setReply, modMsg, Nat.min_comm]
  · rw [cut]
    exact output_rxConsume _

/-- The sender's address goes behind other pointers. -/
theorem tnStoreClientSockaddr_beside (port addr : Nat) :
    ∃ l, (tnStoreClientSockaddr w m 1 2 port addr).output = l ++ w.output ∧
      (∀ (x : TnIpcMsg) (bytes : List UInt8) (l' : List Output),
        Handed x m bytes l' → Handed x m bytes (l ++ l')) ∧
      (tnStoreClientSockaddr w m 1 2 port addr).sockets = w.sockets ∧
      (tnStoreClientSockaddr w m 1 2 port addr).tcpPcbs = w.tcpPcbs ∧
      (tnStoreClientSockaddr w m 1 2 port addr).msgs = w.msgs := by
  unfold tnStoreClientSockaddr
  split
  · exact ⟨[.store m 2 0 _, .store m 1 0 _], rfl,
      fun x bytes l' h => (h.store_cons (by decide)).store_cons (by decide), rfl, rfl, rfl⟩
  · exact ⟨[], rfl, fun x bytes l' h => h, rfl, rfl, rfl⟩

/-- The end of a datagram read: a peek leaves the packet where it is. -/
theorem returned_dgram (peek : Bool) {w' : World} {bytes : List UInt8} {l : List Output}
    (hout : w'.output = l ++ w.output) (hh : Handed (w.msgs m) m bytes l) :
    Returned w m bytes (done (if peek then w' else rxPop w' i) m bytes.length .ok) ∧
      (peek = true → (done (if peek then w' else rxPop w' i) m bytes.length .ok).1.sockets = w'.sockets ∧
        (done (if peek then w' else rxPop w' i) m bytes.length .ok).1.tcpPcbs = w'.tcpPcbs) := by
  cases peek with
  | true =>
    exact ⟨⟨rfl, by simp [done, World.setReply, modMsg], by simp [done, World.setReply, modMsg], l,
      hout, hh⟩, fun _ => ⟨rfl, rfl⟩⟩
  | false =>
    exact ⟨⟨rfl, by simp [done, World.setReply, modMsg], by simp [done, World.setReply, modMsg], l,
      hout, hh⟩, fun h => Bool.noConfusion h⟩

/-- A datagram read into a buffer. -/
theorem returned_of_dgram (hb : (w.msgs m).ptrs 0 = .mem f) (hl : (w.msgs m).args 1 = len)
    (hc : (w.msgs m).cmd = .recv ∨ (w.msgs m).cmd = .recvfrom)
    (ho : hasFlag ((w.msgs m).args 2) msgOob = false)
    (hp : hasFlag ((w.msgs m).args 2) msgPeek = peek)
    (hk : (w.sockets i).type = sockDgram ∨ (w.sockets i).type = sockRaw)
    {pkt : TnRxPacket} {rest : List TnRxPacket} (hrx : (w.sockets i).rx = pkt :: rest) :
    Returned w m (pkt.p.take (clip16 len)) (recvHandler w m i) ∧
      (peek = true → (recvHandler w m i).1.sockets = w.sockets ∧
        (recvHandler w m i).1.tcpPcbs = w.tcpPcbs) := by
  have not_stream : (w.sockets i).type ≠ sockStream := by
    rcases hk with hk | hk <;> rw [hk] <;> decide
  have nonneg : ¬ ((len : Int) < 0) := by omega
  have handed := handed_store (m := m) hb (pkt.p.take (clip16 len)) []
  unfold recvHandler
  rcases hc with hc | hc
  · rw [hc]
    dsimp only
    unfold tnIpcCmdRecv recvDgram
    simp only [hb, Ptr.mem?, hl, nonneg, if_false, ho, Bool.false_eq_true, not_stream, hk, if_true, hrx,
      hp]
    exact returned_dgram _ (l := [_]) rfl handed
  · rw [hc]
    dsimp only
    unfold tnIpcCmdRecvfrom recvfromDgram
    simp only [hb, Ptr.mem?, hl, nonneg, if_false, ho, Bool.false_eq_true, not_stream, hk, if_true, hrx,
      hp, Int.toNat_natCast]
    generalize (if (w.sockets i).type = sockDgram then pkt.srcPort else 0) = port
    obtain ⟨l, out, beside, slots, pcbs, -⟩ := tnStoreClientSockaddr_beside
      (w := w.store m 0 0 (pkt.p.take (clip16 len))) (m := m) port pkt.srcIp
    generalize tnStoreClientSockaddr _ m 1 2 port pkt.srcIp = w' at out slots pcbs ⊢
    have res := returned_dgram peek (w := w) (m := m) (i := i) (l := l ++ [.store m 0 0 _])
      (by rw [out, List.append_assoc]; rfl) (beside _ _ _ handed)
    refine ⟨res.1, fun h => ?_⟩
    obtain ⟨h1, h2⟩ := res.2 h
    exact ⟨h1.trans slots, h2.trans pcbs⟩

end Buffer

/-! ## What a call hands out -/

/-- lwIP delivers no more than its receive window before the daemon has given some of it back. -/
def WithinWindow (s : TnSocketSlot) : Prop := s.type = sockStream → (rxBytes s.rx).length ≤ tcpWnd

/-- What a peek for `len` bytes sees of a stream. The loops of `RECVMSG` stop at the 32-bit sum of
the lengths. -/
def streamPreview (q : List TnRxPacket) (len : Nat) : List UInt8 :=
  (rxBytes q).take (poured (len % 2 ^ 32) len (q.map fun pkt => pkt.rest.length) 0)

/-- For a length that fits in 32 bits these are the first `len` bytes. -/
theorem streamPreview_eq {q : List TnRxPacket} (hl : len < 2 ^ 32) :
    streamPreview q len = (rxBytes q).take len := by
  have all := (poured_eq_iff (l := q.map fun pkt => pkt.rest.length) (Nat.mod_le len (2 ^ 32))
    (Nat.zero_le len)).mpr (belowMark_of_lt hl)
  rw [streamPreview, all, Nat.zero_add, ← length_rxBytes, Nat.min_comm]
  exact List.take_eq_take_min.symm

/-- A 16-bit length is enough for what the window lets in. -/
theorem take_clip16 {bytes : List UInt8} (hb : bytes.length ≤ 0xFFFF) :
    bytes.take (clip16 len) = bytes.take len := by
  unfold clip16
  rcases Nat.le_total len 0xFFFF with h | h
  · rw [Nat.min_eq_left h]
  · rw [Nat.min_eq_right h, List.take_of_length_le hb, List.take_of_length_le (by omega)]

/-- All peeks of a stream that has data see the same. -/
theorem peek_stream (hok : RxOk sockStream (w.sockets i).rx) (hwnd : WithinWindow (w.sockets i))
    (hk : (w.sockets i).type = sockStream) (hq : (w.sockets i).rx ≠ [])
    (ha : AsksBytes w m len true) :
    Returned w m (streamPreview (w.sockets i).rx len) (recvHandler w m i) ∧
      (recvHandler w m i).1.sockets = w.sockets ∧
      (recvHandler w m i).1.tcpPcbs = w.tcpPcbs := by
  cases ha with
  | buffer f hc hb hl hlong hp ho =>
    have small : (rxBytes (w.sockets i).rx).length ≤ 0xFFFF := Nat.le_trans (hwnd hk) (by decide)
    obtain ⟨ret, slots, pcbs⟩ :=
      recvStream_peek hb hp hok.whole hq
    rw [take_clip16 small] at ret
    rw [streamPreview_eq (by omega)]
    obtain ⟨ret', slots', pcbs'⟩ := returned_of_recvStream hb hl hc ho hk ret
    exact ⟨ret', slots'.trans slots, pcbs'.trans pcbs⟩
  | array h iovs hc ha hl hp =>
    have reply := recvmsg_reply ha hok hk hq
    unfold recvHandler
    rw [hc]
    rw [hl, hp] at reply
    exact ⟨reply.returned, (reply.peeked rfl).1, (reply.peeked rfl).2⟩

/-- Every read of the same length takes some of it. -/
theorem take_stream (hok : RxOk sockStream (w.sockets i).rx)
    (hk : (w.sockets i).type = sockStream) (hq : (w.sockets i).rx ≠ [])
    (ha : AsksBytes w m len false) (hsome : streamPreview (w.sockets i).rx len ≠ []) :
    ∃ n, 0 < n ∧ n ≤ (streamPreview (w.sockets i).rx len).length ∧
      Returned w m ((streamPreview (w.sockets i).rx len).take n) (recvHandler w m i) := by
  cases ha with
  | buffer f hc hb hl hlong hp ho =>
    obtain ⟨pkt, rest, hrx⟩ := List.exists_cons_of_ne_nil hq
    rw [hrx] at hok hsome ⊢
    rw [streamPreview_eq (by omega), rxBytes_cons] at hsome ⊢
    have head := rest_pos hok
    have len_pos : 0 < len := Nat.pos_of_ne_zero fun h => hsome (by rw [h, List.take_zero])
    refine ⟨min pkt.rest.length (clip16 len), by unfold clip16; omega, ?_, ?_⟩
    · rw [List.length_take, List.length_append]
      unfold clip16
      omega
    · have first : ((pkt.rest ++ rxBytes rest).take len).take (min pkt.rest.length (clip16 len)) =
          pkt.rest.take (clip16 len) := by
        rw [List.take_take, Nat.min_eq_left (by unfold clip16; omega),
          List.take_append_of_le_length (Nat.min_le_left _ _), Nat.min_comm]
        exact List.take_eq_take_min.symm
      rw [first]
      exact (returned_of_recvStream hb hl hc ho hk
        (recvStream_take hb hp hrx)).1
  | array h iovs hc ha hl hp =>
    have reply := recvmsg_reply ha hok hk hq
    rw [hl] at reply
    refine ⟨(streamPreview (w.sockets i).rx len).length, List.length_pos_of_ne_nil hsome,
      Nat.le_refl _, ?_⟩
    rw [List.take_length]
    unfold recvHandler
    rw [hc]
    exact reply.returned

/-- All reads of a datagram of the same length see the same. -/
theorem read_dgram (hk : (w.sockets i).type = sockDgram ∨ (w.sockets i).type = sockRaw)
    {pkt : TnRxPacket} {rest : List TnRxPacket} (hrx : (w.sockets i).rx = pkt :: rest)
    (hfits : pkt.p.length ≤ 0xFFFF) (ha : AsksBytes w m len peek) :
    Returned w m (pkt.p.take len) (recvHandler w m i) ∧
      (peek = true → (recvHandler w m i).1.sockets = w.sockets ∧
        (recvHandler w m i).1.tcpPcbs = w.tcpPcbs) := by
  cases ha with
  | buffer f hc hb hl hlong hp ho =>
    rw [← take_clip16 hfits]
    exact returned_of_dgram hb hl hc ho hp hk hrx
  | array h iovs hc ha hl hp =>
    have res := scattersDgram ha hk hrx
    unfold recvHandler
    rw [hc]
    rw [hp] at res
    rw [← hl]
    exact ⟨res.returned, res.peeked⟩

/-! ## Without data -/

/-- The call hands out nothing: it waits, or reports an error. -/
def Fails (m : MsgId) (r : World × TnIpcReplyAction) : Prop :=
  r.2 = .defer ∨ (r.1.msgs m).errNo ≠ .ok

theorem fails_fail {e : Errno} (he : e ≠ .ok) : Fails m (fail w m e) :=
  .inr (by simpa [fail, done, World.setReply, modMsg] using he)

/-- A read that waits hands nothing out. -/
theorem fails_park : Fails m (tnSlotParkRecv w i m) := by
  unfold tnSlotParkRecv
  split
  · split
    · exact .inl rfl
    · exact fails_fail (by decide)
  · exact .inl rfl

/-- So does one of an empty stream that is open. -/
theorem fails_recvStreamEmpty {flags : Int}
    (he : ¬ ((w.sockets i).shutRd = true ∨ (w.sockets i).tcpState = .peerClosed)) :
    Fails m (recvStreamEmpty w m i flags) := by
  unfold recvStreamEmpty
  dsimp only
  rw [if_neg he]
  split_ifs
  · exact fails_fail (by decide)
  · exact fails_fail (by decide)
  · exact fails_fail (by decide)
  · exact fails_park

/-- So does one of an empty datagram socket. -/
theorem fails_recvDgramEmpty {flags : Int} : Fails m (recvDgramEmpty w m i flags) := by
  unfold recvDgramEmpty
  split
  · exact fails_fail (by decide)
  · exact fails_park

/-- The exits of `RECV` on a stream without data. -/
theorem recvStream_empty {flags : Int} (hrx : (w.sockets i).rx = []) :
    Untouched w (recvStream w m i len flags).1 ∧
      (¬ ((w.sockets i).shutRd = true ∨ (w.sockets i).tcpState = .peerClosed) →
        Fails m (recvStream w m i len flags)) := by
  unfold recvStream
  simp only [hrx]
  split
  · refine ⟨untouched_fail (Untouched.modSlot (.refl w) i _ ?_) _, fun _ => fails_fail ?_⟩
    · exact fun _ => ⟨rfl, rfl, rfl⟩
    · split
      · assumption
      · decide
  · exact ⟨untouched_recvStreamEmpty _, fails_recvStreamEmpty⟩

/-- The length of the address touches nothing. -/
theorem untouched_storeFromlen {r : World × TnIpcReplyAction} (hr : Untouched w r.1) :
    Untouched w (storeFromlen r m).1 := by
  unfold storeFromlen
  split
  · split
    · split
      · exact ⟨hr.rx, hr.rxCount, hr.hist, hr.pcbs⟩
      · exact hr
    · exact hr
  · exact hr

/-- A read that failed is not changed by it. -/
theorem fails_storeFromlen {r : World × TnIpcReplyAction} (hr : Fails m r) :
    Fails m (storeFromlen r m) := by
  unfold storeFromlen
  split
  · have failed := hr.resolve_left (by simp)
    split
    · split
      · exact .inr failed
      · exact .inr failed
    · exact .inr failed
  · exact hr

theorem untouched_clearHeader {h : Msghdr} : Untouched w (clearHeader w m h) :=
  .of_eq sockets_clearHeader tcpPcbs_clearHeader

/-- The end of a stream, for every receiving call. -/
theorem returned_eof (hk : (w.sockets i).type = sockStream) (hrx : (w.sockets i).rx = [])
    (he : (w.sockets i).shutRd = true ∨ (w.sockets i).tcpState = .peerClosed)
    (ha : AsksBytes w m len peek) :
    Returned w m [] (recvHandler w m i) ∧ (recvHandler w m i).1.sockets = w.sockets ∧
      (recvHandler w m i).1.tcpPcbs = w.tcpPcbs := by
  cases ha with
  | buffer f hc hb hl hlong hp ho =>
    have closed : recvStream w m i len ((w.msgs m).args 2) = done w m 0 .ok := by
      unfold recvStream recvStreamEmpty
      simp only [hrx]
      rw [if_neg, if_pos he]
      rintro ⟨hs, herr⟩
      rcases he with he | he
      · exact hs he
      · rw [herr] at he
        cases he
    have eof : Returned w m [] (done w m 0 .ok) :=
      ⟨rfl, by simp [done, World.setReply, modMsg], by simp [done, World.setReply, modMsg], [], rfl, by
        unfold Handed
        rw [hb]
        exact fun _ => rfl⟩
    have res := returned_of_recvStream hb hl hc ho hk (closed ▸ eof)
    rw [closed] at res
    exact res
  | array h iovs hc ha hl hp =>
    obtain ⟨pre, hpre, beside, -⟩ := output_clearHeader (w := w) (m := m) (h := h)
    have slots := sockets_clearHeader (w := w) (m := m) (h := h)
    have pcbs := tcpPcbs_clearHeader (w := w) (m := m) (h := h)
    have handed : ∀ l, Fills iovs m 0 0 (fun x => ([] : List UInt8).getD x 0) l →
        Handed (w.msgs m) m [] l := fun l hf => by
      unfold Handed
      rw [ha.hdr]
      exact ⟨iovs, ha.iov, hf⟩
    unfold recvHandler
    rw [hc]
    dsimp only
    rw [ha.handled, if_pos hk]
    generalize clearHeader w m h = w1 at hpre slots pcbs ⊢
    unfold recvmsgStream
    simp only [slots, hrx, ne_eq, not_true_eq_false, if_false, if_pos he]
    split
    · exact ⟨⟨rfl, by simp [done, World.setReply, modMsg], by simp [done, World.setReply, modMsg],
        .store m 0 4 (bytes32 0) :: pre, congrArg (_ :: ·) hpre, handed _ (beside _).store_cons⟩,
        slots, pcbs⟩
    · exact ⟨⟨rfl, by simp [done, World.setReply, modMsg], by simp [done, World.setReply, modMsg],
        pre, hpre, handed _ (beside _)⟩, slots, pcbs⟩

/-- Without data and before its end a stream hands out nothing. -/
theorem fails_stream (hk : (w.sockets i).type = sockStream) (hrx : (w.sockets i).rx = [])
    (he : ¬ ((w.sockets i).shutRd = true ∨ (w.sockets i).tcpState = .peerClosed))
    (ha : AsksBytes w m len peek) :
    Fails m (recvHandler w m i) ∧ Untouched w (recvHandler w m i).1 := by
  cases ha with
  | buffer f hc hb hl hlong hp ho =>
    have recv := tnIpcCmdRecv_stream hb hl ho hk
    obtain ⟨untouched, fails⟩ := recvStream_empty (m := m)
      hrx
    unfold recvHandler
    rcases hc with hc | hc
    · rw [hc]
      dsimp only
      rw [recv]
      exact ⟨fails he, untouched⟩
    · rw [hc]
      dsimp only
      unfold tnIpcCmdRecvfrom
      have nonneg : ¬ ((len : Int) < 0) := by omega
      simp only [hb, Ptr.mem?, hl, nonneg, if_false, ho, Bool.false_eq_true, hk, if_true, recv]
      exact ⟨fails_storeFromlen (fails he), untouched_storeFromlen untouched⟩
  | array h iovs hc ha hl hp =>
    have slots := sockets_clearHeader (w := w) (m := m) (h := h)
    have before := untouched_clearHeader (w := w) (m := m) (h := h)
    unfold recvHandler
    rw [hc]
    dsimp only
    rw [ha.handled, if_pos hk]
    generalize clearHeader w m h = w1 at slots before ⊢
    unfold recvmsgStream
    simp only [slots, hrx, ne_eq, not_true_eq_false, if_false, if_neg he]
    exact ⟨fails_recvStreamEmpty (by rwa [slots]), before.trans (untouched_recvStreamEmpty _)⟩

/-- Nor does a datagram slot without a datagram. -/
theorem fails_dgram (hk : (w.sockets i).type = sockDgram ∨ (w.sockets i).type = sockRaw)
    (hrx : (w.sockets i).rx = []) (ha : AsksBytes w m len peek) :
    Fails m (recvHandler w m i) ∧ Untouched w (recvHandler w m i).1 := by
  have not_stream : (w.sockets i).type ≠ sockStream := by
    rcases hk with hk | hk <;> rw [hk] <;> decide
  unfold recvHandler
  cases ha with
  | buffer f hc hb hl hlong hp ho =>
    have nonneg : ¬ ((len : Int) < 0) := by omega
    rcases hc with hc | hc
    · rw [hc]
      dsimp only
      unfold tnIpcCmdRecv recvDgram
      simp only [hb, Ptr.mem?, hl, nonneg, if_false, ho, Bool.false_eq_true, not_stream, hk, if_true,
        hrx]
      exact ⟨fails_recvDgramEmpty, untouched_recvDgramEmpty _⟩
    · rw [hc]
      dsimp only
      unfold tnIpcCmdRecvfrom recvfromDgram
      simp only [hb, Ptr.mem?, hl, nonneg, if_false, ho, Bool.false_eq_true, not_stream, hk, if_true,
        hrx]
      exact ⟨fails_recvDgramEmpty, untouched_recvDgramEmpty _⟩
  | array h iovs hc ha hl hp =>
    have slots := sockets_clearHeader (w := w) (m := m) (h := h)
    have before := untouched_clearHeader (w := w) (m := m) (h := h)
    rw [hc]
    dsimp only
    rw [ha.handled, if_neg not_stream, if_pos hk]
    generalize clearHeader w m h = w1 at slots before ⊢
    unfold recvmsgDgram
    simp only [slots, hrx]
    exact ⟨fails_recvDgramEmpty, before.trans (untouched_recvDgramEmpty _)⟩

/-- A socket of no known type receives nothing. -/
theorem fails_other (hk : (w.sockets i).type ≠ sockStream)
    (hk' : ¬ ((w.sockets i).type = sockDgram ∨ (w.sockets i).type = sockRaw))
    (ha : AsksBytes w m len peek) :
    Fails m (recvHandler w m i) ∧ Untouched w (recvHandler w m i).1 := by
  unfold recvHandler
  cases ha with
  | buffer f hc hb hl hlong hp ho =>
    have nonneg : ¬ ((len : Int) < 0) := by omega
    rcases hc with hc | hc
    · rw [hc]
      dsimp only
      unfold tnIpcCmdRecv
      simp only [hb, Ptr.mem?, hl, nonneg, if_false, ho, Bool.false_eq_true, hk, hk']
      exact ⟨fails_fail (by decide), untouched_fail (.refl w) _⟩
    · rw [hc]
      dsimp only
      unfold tnIpcCmdRecvfrom
      simp only [hb, Ptr.mem?, hl, nonneg, if_false, ho, Bool.false_eq_true, hk, hk']
      exact ⟨fails_fail (by decide), untouched_fail (.refl w) _⟩
  | array h iovs hc ha hl hp =>
    have before := untouched_clearHeader (w := w) (m := m) (h := h)
    rw [hc]
    dsimp only
    rw [ha.handled, if_neg hk, if_neg hk']
    exact ⟨fails_fail (by decide), untouched_fail before _⟩

/-! ## The preview -/

/-- What a peek hands out is handed out by every later peek of that length, and, if it is not empty,
a part of it from its start by every later read; and there is nothing else that the peek does to the
queues. -/
def Preview (w : World) (m : MsgId) (i : SlotIdx) (len : Nat) : Prop :=
  Untouched w (recvHandler w m i).1 ∧
    (Fails m (recvHandler w m i) ∨
      ∃ bytes, Returned w m bytes (recvHandler w m i) ∧
        ∀ w' m', w'.sockets = (recvHandler w m i).1.sockets →
          (AsksBytes w' m' len true → Returned w' m' bytes (recvHandler w' m' i)) ∧
          (AsksBytes w' m' len false → bytes ≠ [] →
            ∃ n, 0 < n ∧ n ≤ bytes.length ∧ Returned w' m' (bytes.take n) (recvHandler w' m' i)))

/-- A peek at a stream shows what a read would take. -/
theorem preview_stream (hok : RxOk sockStream (w.sockets i).rx) (hwnd : WithinWindow (w.sockets i))
    (hk : (w.sockets i).type = sockStream) (ha : AsksBytes w m len true) : Preview w m i len := by
  by_cases hq : (w.sockets i).rx = []
  · by_cases he : (w.sockets i).shutRd = true ∨ (w.sockets i).tcpState = .peerClosed
    · obtain ⟨ret, slots, pcbs⟩ := returned_eof hk hq he ha
      refine ⟨.of_eq slots pcbs, .inr ⟨[], ret, fun w' m' hw => ?_⟩⟩
      have same : w'.sockets = w.sockets := hw.trans slots
      rw [← same] at hk hq he
      exact ⟨fun ha' => (returned_eof hk hq he ha').1, fun _ h => absurd rfl h⟩
    · obtain ⟨fails, untouched⟩ := fails_stream hk hq he ha
      exact ⟨untouched, .inl fails⟩
  · obtain ⟨ret, slots, pcbs⟩ := peek_stream hok hwnd hk hq ha
    refine ⟨.of_eq slots pcbs, .inr ⟨_, ret, fun w' m' hw => ?_⟩⟩
    have same : w'.sockets = w.sockets := hw.trans slots
    rw [← same] at hok hwnd hk hq ⊢
    exact ⟨fun ha' => (peek_stream hok hwnd hk hq ha').1, fun ha' => take_stream hok hk hq ha'⟩

/-- So does a peek at a datagram. -/
theorem preview_dgram (hok : ∀ pkt ∈ (w.sockets i).rx, pkt.p.length ≤ 0xFFFF)
    (hk : (w.sockets i).type = sockDgram ∨ (w.sockets i).type = sockRaw)
    (ha : AsksBytes w m len true) : Preview w m i len := by
  cases hq : (w.sockets i).rx with
  | nil =>
    obtain ⟨fails, untouched⟩ := fails_dgram hk hq ha
    exact ⟨untouched, .inl fails⟩
  | cons pkt rest =>
    have fits := hok pkt (by rw [hq]; exact List.mem_cons_self ..)
    obtain ⟨ret, kept⟩ := read_dgram hk hq fits ha
    obtain ⟨slots, pcbs⟩ := kept rfl
    refine ⟨.of_eq slots pcbs, .inr ⟨_, ret, fun w' m' hw => ?_⟩⟩
    have same : w'.sockets = w.sockets := hw.trans slots
    rw [← same] at hk hq
    refine ⟨fun ha' => (read_dgram hk hq fits ha').1, fun ha' hsome => ?_⟩
    refine ⟨(pkt.p.take len).length, List.length_pos_of_ne_nil hsome, Nat.le_refl _, ?_⟩
    rw [List.take_length]
    exact (read_dgram hk hq fits ha').1

/-- `MSG_PEEK` is a pure preview, with each of the three calls before each of the three. What lwIP
guarantees is that a stream has no more unread bytes than its receive window. -/
theorem peek_preview (hok : (shelf w).Ok) (hwnd : WithinWindow (w.sockets i))
    (ha : AsksBytes w m len true) : Preview w m i len := by
  -- one case for each way a socket keeps its data
  by_cases hk : (w.sockets i).type = sockStream
  · refine preview_stream ?_ hwnd hk ha
    rw [← hk]
    exact (hok.slot i).rx
  · by_cases hk' : (w.sockets i).type = sockDgram ∨ (w.sockets i).type = sockRaw
    · exact preview_dgram (hok.slot i).rx.fits hk' ha
    · obtain ⟨fails, untouched⟩ := fails_other hk hk' ha
      exact ⟨untouched, .inl fails⟩

/-- `RECV` of ten bytes on descriptor 0 with `MSG_PEEK`. -/
def peekMsg : TnIpcMsg :=
  { cmd := .recv, socketBase := some 1,
    args := fun n => if n = 1 then 10 else if n = 2 then 2 else 0, ptrs := fun _ => .mem fun _ => 0 }

/-- A peek of the two bytes that have come. -/
theorem peek_preview_fed : Preview (arrived (fed [7, 8]) 1 peekMsg []) 1 0 10 := by
  have asks : AsksBytes (arrived (fed [7, 8]) 1 peekMsg []) 1 10 true :=
    .buffer _ (.inl rfl) rfl rfl (by decide) (by decide) (by decide)
  have window : WithinWindow ((arrived (fed [7, 8]) 1 peekMsg []).sockets 0) := fun _ => by decide
  exact peek_preview ((fed_reach [7, 8]).arrived_ok 1 peekMsg []) window asks

end Tolunnet
