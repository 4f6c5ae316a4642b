import Tolunnet.Calls.Scatter
import Tolunnet.Desk.Sound
import Tolunnet.Shelf.Steps

/-!
# `Tolunnet.Calls.Recvmsg`: what `recvmsg` delivers

A `recvmsg` that finds data delivers bytes from the front of the queue along its iovec array. For a
datagram slot it does so for every array. For a stream the handler compares the count with
`total_space`, the sum of the lengths in 32 bits, so it stops short when the sum has wrapped and a
packet begins behind the wrapped value. `recvmsg_scatters_iff` is the exact condition.
-/

set_option autoImplicit false

namespace Tolunnet

open World Tiling

/-! ## The property -/

/-- The writes `l` put `bytes` where the message wants them: into its buffer, or along its iovec
array and nowhere else in it. -/
def Handed (x : TnIpcMsg) (m : MsgId) (bytes : List UInt8) (l : List Output) : Prop :=
  match x.ptrs 0 with
  | .mem _ => ∀ f, memBytes (storedMem m 0 f l) 0 bytes.length = bytes
  | .msghdr h => ∃ iovs, h.msgIov = some iovs ∧
      Fills iovs m 0 bytes.length (fun x => bytes.getD x 0) l
  | _ => False

/-- The call is answered with the count of `bytes`, and the client has got them. -/
structure Returned (w : World) (m : MsgId) (bytes : List UInt8) (r : World × TnIpcReplyAction) :
    Prop where
  now : r.2 = .replyNow
  count : (r.1.msgs m).result = bytes.length
  ok : (r.1.msgs m).errNo = .ok
  writes : ∃ l, r.1.output = l ++ w.output ∧ Handed (w.msgs m) m bytes l

/-- A stream delivers the unread bytes that the array has room for, and loses just these. -/
structure ScattersStream (w : World) (m : MsgId) (i : SlotIdx) (iovs : List Iovec) (peek : Bool)
    (r : World × TnIpcReplyAction) : Prop where
  returned : Returned w m ((rxBytes (w.sockets i).rx).take (iovRoom iovs)) r
  peeked : peek = true → (r.1.sockets i).rx = (w.sockets i).rx
  taken : peek = false →
    rxBytes (r.1.sockets i).rx = (rxBytes (w.sockets i).rx).drop (iovRoom iovs)
  never : (r.1.msgs m).result = 0 → ∀ v ∈ iovs, v.iovLen = 0

/-- A datagram slot delivers as much of its first datagram and loses it. `msg_flags`, at offset 24
of the header, says whether it was cut. -/
structure ScattersDgram (w : World) (m : MsgId) (i : SlotIdx) (iovs : List Iovec) (peek : Bool)
    (pkt : TnRxPacket) (r : World × TnIpcReplyAction) : Prop where
  returned : Returned w m (pkt.p.take (iovRoom iovs)) r
  flags : ∀ f, memBytes (storedMem m 0 f (added w r.1)) 24 4 =
    bytes32 (if iovRoom iovs < pkt.p.length then 0x10 else 0)
  peeked : peek = true → r.1.sockets = w.sockets ∧ r.1.tcpPcbs = w.tcpPcbs
  taken : peek = false → (r.1.sockets i).rx = (w.sockets i).rx.tail

/-- A request for `recvmsg` that no check refuses: 1 to 1024 entries, each of them with memory unless
it is empty, and no `MSG_OOB`. -/
structure AsksRecvmsg (w : World) (m : MsgId) (h : Msghdr) (iovs : List Iovec) : Prop where
  hdr : (w.msgs m).ptrs 0 = .msghdr h
  iov : h.msgIov = some iovs
  length : iovs ≠ [] ∧ iovs.length ≤ 1024
  bases : ∀ v ∈ iovs, 0 < v.iovLen → v.iovBase ≠ none
  oob : hasFlag ((w.msgs m).args 1) msgOob = false

/-- What a `recvmsg` on slot `i` should do when it finds data. -/
def Scatters (w : World) (m : MsgId) (i : SlotIdx) (iovs : List Iovec) : Prop :=
  ((w.sockets i).type = sockStream → (w.sockets i).rx ≠ [] →
    ScattersStream w m i iovs (hasFlag ((w.msgs m).args 1) msgPeek)
      (tnIpcCmdRecvmsg w m (some i))) ∧
  ((w.sockets i).type = sockDgram ∨ (w.sockets i).type = sockRaw →
    ∀ pkt rest, (w.sockets i).rx = pkt :: rest →
      ScattersDgram w m i iovs (hasFlag ((w.msgs m).args 1) msgPeek) pkt
        (tnIpcCmdRecvmsg w m (some i)))

/-! ## Writes beside the array -/

section

variable {iovs : List Iovec} {m : MsgId} {a b k off : Nat} {data : Nat → UInt8} {bytes : List UInt8}
  {l : List Output}

/-- A write behind a pointer argument is not in the array. -/
theorem Fills.store_cons (h : Fills iovs m a b data l) :
    Fills iovs m a b data (.store m k off bytes :: l) := fun j f o => h j f o

/-- The writes of the array are not behind a pointer argument. -/
theorem storedMem_chunkWrites (f : Mem) (chunks : List IovChunk) :
    storedMem m k f (chunkWrites m bytes chunks) = f := by
  induction chunks generalizing bytes with
  | nil => rfl
  | cons c chunks ih =>
    rw [chunkWrites, storedMem_append]
    exact ih

theorem memBytes_poke_self {f : Mem} (hb : bytes.length = b) :
    memBytes (poke f a bytes) a b = bytes := by
  refine List.ext_getElem (by simp [memBytes, hb]) fun n hn hn' => ?_
  simp [memBytes, poke_apply, hn']

theorem memBytes_poke_of_disjoint {f : Mem} (hd : a + b ≤ off ∨ off + bytes.length ≤ a) :
    memBytes (poke f off bytes) a b = memBytes f a b := by
  refine List.map_congr_left fun n hn => ?_
  have hn : n < b := List.mem_range.mp hn
  rw [poke_apply, if_neg (by omega)]

end

/-! ## The preamble -/

variable {w : World} {m : MsgId} {i : SlotIdx} {h : Msghdr} {iovs : List Iovec}

/-- The header fields that `recvmsg` clears first. -/
def clearHeader (w : World) (m : MsgId) (h : Msghdr) : World :=
  if h.msgControl then (w.store m 0 24 (bytes32 0)).store m 0 20 (bytes32 0)
  else w.store m 0 24 (bytes32 0)

theorem AsksRecvmsg.handed (ha : AsksRecvmsg w m h iovs) {bytes : List UInt8} {l : List Output}
    {n : Nat} (hn : n ≤ bytes.length) (hl : Fills iovs m 0 n (fun x => bytes.getD x 0) l) :
    Handed (w.msgs m) m (bytes.take n) l := by
  unfold Handed
  rw [ha.hdr]
  exact ⟨iovs, ha.iov, hl.take hn⟩

theorem AsksRecvmsg.handled (ha : AsksRecvmsg w m h iovs) :
    tnIpcCmdRecvmsg w m (some i) =
      if (w.sockets i).type = sockStream then
        recvmsgStream (clearHeader w m h) m i h iovs ((w.msgs m).args 1)
      else if (w.sockets i).type = sockDgram ∨ (w.sockets i).type = sockRaw then
        recvmsgDgram (clearHeader w m h) m i h iovs ((w.msgs m).args 1)
      else fail (clearHeader w m h) m .eopnotsupp := by
  have bases : (iovs.any fun v => decide (0 < v.iovLen) && v.iovBase.isNone) = false := by
    rw [List.any_eq_false]
    intro v hv
    have := ha.bases v hv
    cases hb : v.iovBase <;> simp_all
  have counted : ¬ (iovs = [] ∨ iovs.length > 1024) := by
    have := ha.length
    rintro (h | h)
    · exact this.1 h
    · omega
  unfold tnIpcCmdRecvmsg clearHeader
  simp only [ha.hdr, ha.oob, ha.iov, if_neg counted, bases, Bool.false_eq_true, if_false]
  cases h.msgControl <;> rfl

@[simp] theorem sockets_clearHeader : (clearHeader w m h).sockets = w.sockets := by
  unfold clearHeader
  split <;> rfl

@[simp] theorem tcpPcbs_clearHeader : (clearHeader w m h).tcpPcbs = w.tcpPcbs := by
  unfold clearHeader
  split <;> rfl

/-- The preamble writes nothing into the array, and 0 into `msg_flags`. -/
theorem output_clearHeader : ∃ l, (clearHeader w m h).output = l ++ w.output ∧
    (∀ data, Fills iovs m 0 0 data l) ∧
    ∀ f, memBytes (storedMem m 0 f l) 24 4 = bytes32 0 := by
  unfold clearHeader
  split
  · refine ⟨[.store m 0 20 (bytes32 0), .store m 0 24 (bytes32 0)], rfl,
      fun data => Fills.nil.store_cons.store_cons, fun f => ?_⟩
    rw [storedMem_store, memBytes_poke_of_disjoint (by simp [bytes32]), storedMem_store]
    exact memBytes_poke_self (by simp [bytes32])
  · refine ⟨[.store m 0 24 (bytes32 0)], rfl, fun data => Fills.nil.store_cons, fun f => ?_⟩
    rw [storedMem_store]
    exact memBytes_poke_self (by simp [bytes32])

/-! ## Streams -/

theorem length_rxBytes (q : List TnRxPacket) :
    (rxBytes q).length = (q.map fun pkt => pkt.rest.length).sum := by
  simp [rxBytes, List.length_flatten, Function.comp_def]

/-- Behind the first packet nothing has been read, so a peek sees what is unread. -/
theorem peekSegs_eq {q : List TnRxPacket} (hw : ∀ pkt ∈ q.tail, pkt.offset = 0) :
    peekSegs q = q.map TnRxPacket.rest := by
  cases q with
  | nil => rfl
  | cons pkt rest =>
    rw [peekSegs, List.map_cons]
    refine congrArg _ (List.map_congr_left fun pkt' hp => ?_)
    simp [TnRxPacket.rest, hw pkt' hp]

/-- The copy loops of a stream, peeking or consuming. -/
theorem recvmsgLoop_spec (mark : Nat) (peek : Bool) (hm : mark ≤ iovRoom iovs)
    (hw : ∀ pkt ∈ (w.sockets i).rx.tail, pkt.offset = 0) {r : World × Nat}
    (hr : (if peek then recvmsgPeek iovs mark m w (peekSegs (w.sockets i).rx) {} 0
      else recvmsgTake iovs mark m i (w.sockets i).rx.length w {} 0) = r) :
    r.2 = poured mark (iovRoom iovs) ((w.sockets i).rx.map fun pkt => pkt.rest.length) 0 ∧
      (peek = true → r.1.sockets = w.sockets ∧ r.1.tcpPcbs = w.tcpPcbs) ∧
      (peek = false → rxBytes (r.1.sockets i).rx = (rxBytes (w.sockets i).rx).drop r.2) ∧
      ∃ l, r.1.output = l ++ w.output ∧
        Fills iovs m 0 r.2 (fun x => (rxBytes (w.sockets i).rx).getD x 0) l := by
  cases peek with
  | true =>
    obtain ⟨l, run, fills⟩ := recvmsgPeek_spec (m := m) hm w (peekSegs (w.sockets i).rx) {} .start
    rw [IovPos.place_start] at run fills
    rw [if_pos rfl, run] at hr
    subst hr
    rw [peekSegs_eq hw, List.map_map] at fills ⊢
    exact ⟨rfl, fun _ => ⟨rfl, rfl⟩, fun h => (Bool.noConfusion h), l, rfl, fills⟩
  | false =>
    rw [if_neg Bool.false_ne_true, ← IovPos.place_start] at hr
    obtain ⟨num, queue, l, out, fills⟩ :=
      recvmsgTake_spec hm _ w {} .start (.inl (Nat.le_refl _)) hr
    rw [IovPos.place_start] at num queue fills
    exact ⟨num, fun h => Bool.noConfusion h, fun _ => queue, l, out, fills⟩

/-- The reply of a stream that has data. -/
theorem recvmsgStream_data {mark : Nat} (hmark : mark = iovRoom iovs % 2 ^ 32) {peek : Bool}
    {flags : Int} (hp : peek = hasFlag flags msgPeek) (hq : (w.sockets i).rx ≠ [])
    {r : World × Nat}
    (hr : (if peek then recvmsgPeek iovs mark m w (peekSegs (w.sockets i).rx) {} 0
      else recvmsgTake iovs mark m i (w.sockets i).rx.length w {} 0) = r) :
    recvmsgStream w m i h iovs flags =
      done (if h.msgName.isSome then r.1.store m 0 4 (bytes32 0) else r.1) m r.2 .ok := by
  subst hp hmark
  unfold recvmsgStream
  simp only [if_pos hq]
  rw [show (iovs.map Iovec.iovLen).sum % 2 ^ 32 = iovRoom iovs % 2 ^ 32 from rfl, hr]

/-- What `recvmsg` does on a stream that has data. -/
structure RecvmsgReply (w : World) (m : MsgId) (i : SlotIdx) (peek : Bool) (n : Nat)
    (r : World × TnIpcReplyAction) : Prop where
  returned : Returned w m ((rxBytes (w.sockets i).rx).take n) r
  peeked : peek = true → r.1.sockets = w.sockets ∧ r.1.tcpPcbs = w.tcpPcbs
  taken : peek = false → rxBytes (r.1.sockets i).rx = (rxBytes (w.sockets i).rx).drop n

theorem recvmsg_reply (ha : AsksRecvmsg w m h iovs) (hok : RxOk sockStream (w.sockets i).rx)
    (hk : (w.sockets i).type = sockStream) (hq : (w.sockets i).rx ≠ []) :
    RecvmsgReply w m i (hasFlag ((w.msgs m).args 1) msgPeek)
      (poured (iovRoom iovs % 2 ^ 32) (iovRoom iovs)
        ((w.sockets i).rx.map fun pkt => pkt.rest.length) 0)
      (tnIpcCmdRecvmsg w m (some i)) := by
  obtain ⟨peek, hpeek⟩ : ∃ peek, peek = hasFlag ((w.msgs m).args 1) msgPeek := ⟨_, rfl⟩
  obtain ⟨mark, hmark⟩ : ∃ mark, mark = iovRoom iovs % 2 ^ 32 := ⟨_, rfl⟩
  have mark_le : mark ≤ iovRoom iovs := hmark ▸ Nat.mod_le _ _
  obtain ⟨pre, hpre, beside, -⟩ := output_clearHeader (w := w) (m := m) (h := h)
  obtain ⟨w1, hw1⟩ : ∃ w1, w1 = clearHeader w m h := ⟨_, rfl⟩
  have slots : w1.sockets = w.sockets := hw1 ▸ sockets_clearHeader
  have pcbs : w1.tcpPcbs = w.tcpPcbs := hw1 ▸ tcpPcbs_clearHeader
  obtain ⟨r, hr⟩ : ∃ r, (if peek then recvmsgPeek iovs mark m w1 (peekSegs (w1.sockets i).rx) {} 0
      else recvmsgTake iovs mark m i (w1.sockets i).rx.length w1 {} 0) = r := ⟨_, rfl⟩
  obtain ⟨num, peeked, taken, l, out, fills⟩ :=
    recvmsgLoop_spec _ _ mark_le (by rw [slots]; exact hok.whole) hr
  rw [ha.handled, if_pos hk, ← hw1, recvmsgStream_data hmark hpeek (by rwa [slots]) hr, ← hpeek,
    ← hmark]
  rw [slots] at num peeked taken fills
  rw [pcbs] at peeked
  rw [← num]
  rw [← hw1] at hpre
  have le_len : r.2 ≤ (rxBytes (w.sockets i).rx).length := by
    rw [num, length_rxBytes]
    simpa using poured_le_add_sum 0
  have len : ((rxBytes (w.sockets i).rx).take r.2).length = r.2 := by
    rw [List.length_take, Nat.min_eq_left le_len]
  have all : Fills iovs m 0 r.2 (fun x => (rxBytes (w.sockets i).rx).getD x 0) (l ++ pre) :=
    (beside _).append fills (Nat.le_refl 0) (Nat.zero_le _)
  -- `msg_namelen` is cleared or not
  by_cases hname : h.msgName.isSome
  · rw [if_pos hname]
    refine ⟨⟨rfl, by simp [done, setReply, modMsg, len], by simp [done, setReply, modMsg],
      .store m 0 4 (bytes32 0) :: (l ++ pre), ?_, ha.handed le_len all.store_cons⟩, peeked, taken⟩
    simp [done, setReply, modMsg, World.store, World.out, out, hpre]
  · rw [if_neg hname]
    refine ⟨⟨rfl, by simp [done, setReply, modMsg, len], by simp [done, setReply, modMsg],
      l ++ pre, ?_, ha.handed le_len all⟩, peeked, taken⟩
    simp [done, setReply, modMsg, out, hpre]

/-- The first packet of a stream has something to give. -/
theorem rest_pos {pkt : TnRxPacket} {rest : List TnRxPacket}
    (hok : RxOk sockStream (pkt :: rest)) : 0 < pkt.rest.length := by
  have unread := hok.stream rfl pkt (List.mem_cons_self ..)
  rw [length_rest]
  omega

theorem scattersStream_iff (ha : AsksRecvmsg w m h iovs) (hok : RxOk sockStream (w.sockets i).rx)
    (hk : (w.sockets i).type = sockStream) (hq : (w.sockets i).rx ≠ []) :
    ScattersStream w m i iovs (hasFlag ((w.msgs m).args 1) msgPeek)
        (tnIpcCmdRecvmsg w m (some i)) ↔
      BelowMark (iovRoom iovs % 2 ^ 32) (iovRoom iovs)
        ((w.sockets i).rx.map fun pkt => pkt.rest.length) 0 := by
  have reply := recvmsg_reply ha hok hk hq
  generalize tnIpcCmdRecvmsg w m (some i) = r at reply ⊢
  have exact_iff := poured_eq_iff (l := (w.sockets i).rx.map fun pkt => pkt.rest.length)
    (Nat.mod_le (iovRoom iovs) (2 ^ 32)) (Nat.zero_le (iovRoom iovs))
  have le_len : poured (iovRoom iovs % 2 ^ 32) (iovRoom iovs)
      ((w.sockets i).rx.map fun pkt => pkt.rest.length) 0 ≤ (rxBytes (w.sockets i).rx).length := by
    rw [length_rxBytes]
    simpa using poured_le_add_sum 0
  rw [Nat.zero_add, ← length_rxBytes] at exact_iff
  rw [← exact_iff]
  generalize poured _ _ _ _ = n at reply le_len ⊢
  have count := reply.returned.count
  rw [List.length_take, Nat.min_eq_left le_len] at count
  constructor
  · intro hs
    have all := count.symm.trans hs.returned.count
    rw [List.length_take, Nat.min_comm] at all
    exact_mod_cast all
  · intro hn
    have same : ∀ (l : List UInt8), l.length = (rxBytes (w.sockets i).rx).length →
        l.take n = l.take (iovRoom iovs) ∧ l.drop n = l.drop (iovRoom iovs) := by
      intro l hl
      rw [hn, ← hl, Nat.min_comm]
      refine ⟨List.take_eq_take_min.symm, ?_⟩
      rcases Nat.le_total (iovRoom iovs) l.length with h | h
      · rw [Nat.min_eq_left h]
      · rw [Nat.min_eq_right h, List.drop_length, List.drop_of_length_le h]
    obtain ⟨take, drop⟩ := same _ rfl
    refine ⟨take ▸ reply.returned, fun hp => by rw [(reply.peeked hp).1], fun hp => drop ▸ reply.taken hp,
      fun h0 v hv => ?_⟩
    have none : n = 0 := by exact_mod_cast count.symm.trans h0
    obtain ⟨pkt, rest, hrx⟩ := List.exists_cons_of_ne_nil hq
    rw [hrx] at hok hn
    have some_left := rest_pos hok
    rw [rxBytes_cons, List.length_append] at hn
    have no_room : iovRoom iovs = 0 := by omega
    exact List.sum_eq_zero_iff_forall_eq_nat.mp no_room _ (List.mem_map_of_mem hv)

/-! ## Datagrams -/

theorem scattersDgram (ha : AsksRecvmsg w m h iovs)
    (hk : (w.sockets i).type = sockDgram ∨ (w.sockets i).type = sockRaw) {pkt : TnRxPacket}
    {rest : List TnRxPacket} (hq : (w.sockets i).rx = pkt :: rest) :
    ScattersDgram w m i iovs (hasFlag ((w.msgs m).args 1) msgPeek) pkt
      (tnIpcCmdRecvmsg w m (some i)) := by
  have not_stream : (w.sockets i).type ≠ sockStream := by
    rcases hk with hk | hk <;> rw [hk] <;> decide
  obtain ⟨pre, hpre, beside, cleared⟩ :=
    output_clearHeader (w := w) (m := m) (h := h)
  obtain ⟨w1, hw1⟩ : ∃ w1, w1 = clearHeader w m h := ⟨_, rfl⟩
  have slots : w1.sockets = w.sockets := hw1 ▸ sockets_clearHeader
  have pcbs : w1.tcpPcbs = w.tcpPcbs := hw1 ▸ tcpPcbs_clearHeader
  rw [← hw1] at hpre
  obtain ⟨tiles, -, place⟩ := scatterAll_spec .start pkt.p.length
  have start : IovPos.Within iovs {} := .start
  have count := chunksLen_scatterAll start pkt.p.length
  rw [IovPos.place_start] at tiles place count
  rw [ha.handled, if_neg not_stream, if_pos hk, ← hw1]
  unfold recvmsgDgram
  simp only [slots, hq]
  generalize scatterAll iovs {} pkt.p.length = r at tiles place count
  rw [Nat.sub_zero] at count place
  rw [Nat.zero_add] at place
  rw [place] at tiles
  rw [count, storeChunks_eq]
  have fills : Fills iovs m 0 (min pkt.p.length (iovRoom iovs)) (fun x => pkt.p.getD x 0)
      (chunkWrites m pkt.p r.1 ++ pre) :=
    (beside _).append (fills_chunkWrites tiles (by omega)) (Nat.le_refl 0) (Nat.zero_le _)
  -- `msg_flags` is set when the packet was cut
  obtain ⟨w2, hw2⟩ : ∃ w2 : World, w2 = if pkt.p.length > min pkt.p.length (iovRoom iovs) then
      World.store { w1 with output := chunkWrites m pkt.p r.1 ++ w1.output } m 0 24 (bytes32 0x10)
    else { w1 with output := chunkWrites m pkt.p r.1 ++ w1.output } := ⟨_, rfl⟩
  obtain ⟨l, hl, fills, flags, rx⟩ : ∃ l, w2.output = l ++ w.output ∧
      Fills iovs m 0 (min pkt.p.length (iovRoom iovs)) (fun x => pkt.p.getD x 0) l ∧
      (∀ f, memBytes (storedMem m 0 f l) 24 4 =
        bytes32 (if iovRoom iovs < pkt.p.length then 0x10 else 0)) ∧
      w2.sockets = w.sockets ∧ w2.tcpPcbs = w.tcpPcbs := by
    by_cases cut : iovRoom iovs < pkt.p.length
    · rw [if_pos (by omega)] at hw2
      refine ⟨.store m 0 24 (bytes32 0x10) :: (chunkWrites m pkt.p r.1 ++ pre), ?_,
        fills.store_cons, fun f => ?_, by rw [hw2]; exact slots, by rw [hw2]; exact pcbs⟩
      · rw [hw2]
        simp [World.store, World.out, hpre]
      · rw [storedMem_store, if_pos cut]
        exact memBytes_poke_self (by simp [bytes32])
    · rw [if_neg (by omega)] at hw2
      refine ⟨chunkWrites m pkt.p r.1 ++ pre, by rw [hw2]; simp [hpre], fills, fun f => ?_,
        by rw [hw2]; exact slots, by rw [hw2]; exact pcbs⟩
      rw [storedMem_append, storedMem_chunkWrites, if_neg cut]
      exact cleared f
  rw [← hw2]
  generalize tnSockinStoreBytes _ = sa at *
  obtain ⟨w3, hw3⟩ : ∃ w3, w3 = if h.msgName.isSome ∧ h.msgNamelen ≥ sizeofSockaddrIn then
      (w2.store m 1 0 sa).store m 0 4 (bytes32 sizeofSockaddrIn) else w2 := ⟨_, rfl⟩
  obtain ⟨l', hl', fills', flags', rx'⟩ : ∃ l, w3.output = l ++ w.output ∧
      Fills iovs m 0 (min pkt.p.length (iovRoom iovs)) (fun x => pkt.p.getD x 0) l ∧
      (∀ f, memBytes (storedMem m 0 f l) 24 4 =
        bytes32 (if iovRoom iovs < pkt.p.length then 0x10 else 0)) ∧
      w3.sockets = w.sockets ∧ w3.tcpPcbs = w.tcpPcbs := by
    rw [hw3]
    split
    · refine ⟨.store m 0 4 (bytes32 sizeofSockaddrIn) :: .store m 1 0 sa :: l, ?_,
        fills.store_cons.store_cons, fun f => ?_, rx⟩
      · simp [World.store, World.out, hl]
      · rw [storedMem_store, memBytes_poke_of_disjoint (by simp [bytes32]),
          storedMem_store_of_ne (by decide)]
        exact flags f
    · exact ⟨l, hl, fills, flags, rx⟩
  rw [← hw3]
  have len : (pkt.p.take (iovRoom iovs)).length = min pkt.p.length (iovRoom iovs) := by
    rw [List.length_take, Nat.min_comm]
  have handed : Handed (w.msgs m) m (pkt.p.take (iovRoom iovs)) l' := by
    rw [show pkt.p.take (iovRoom iovs) = pkt.p.take (min pkt.p.length (iovRoom iovs)) by
      rw [Nat.min_comm]; exact List.take_eq_take_min]
    exact ha.handed (Nat.min_le_left _ _) fills'
  -- the packet stays for a peek
  cases hp : hasFlag ((w.msgs m).args 1) msgPeek with
  | true =>
    rw [if_pos rfl]
    refine ⟨⟨rfl, by simp [done, setReply, modMsg, len], by simp [done, setReply, modMsg], l',
      by simpa [done, setReply, modMsg] using hl', handed⟩, ?_, fun _ => rx', fun h => Bool.noConfusion h⟩
    rw [added_of_append (l := l') (by simpa [done, setReply, modMsg] using hl')]
    exact flags'
  | false =>
    rw [if_neg Bool.false_ne_true]
    refine ⟨⟨rfl, by simp [done, setReply, modMsg, len], by simp [done, setReply, modMsg], l',
      by simpa [done, setReply, modMsg, rxPop, modSlot] using hl', handed⟩, ?_,
      fun h => Bool.noConfusion h, fun _ => ?_⟩
    · rw [added_of_append (l := l') (by simpa [done, setReply, modMsg, rxPop, modSlot] using hl')]
      exact flags'
    · simp [done, setReply, modMsg, rxPop, modSlot, rx'.1]

/-! ## The condition -/

/-- `recvmsg` scatters exactly. A request that finds data on a datagram slot delivers the first
datagram along the array, says whether it was cut, and takes just that one. On a stream it delivers
as many unread bytes as the array has room for if and only if every packet that has something to
give, and begins before the array is full, begins before the 32-bit sum of the lengths. -/
theorem recvmsg_scatters_iff (hok : (shelf w).Ok) (ha : AsksRecvmsg w m h iovs) :
    Scatters w m i iovs ↔
      ((w.sockets i).type = sockStream → (w.sockets i).rx ≠ [] →
        BelowMark (iovRoom iovs % 2 ^ 32) (iovRoom iovs)
          ((w.sockets i).rx.map fun pkt => pkt.rest.length) 0) := by
  have stream : (w.sockets i).type = sockStream → RxOk sockStream (w.sockets i).rx := fun hk => by
    rw [← hk]
    exact (hok.slot i).rx
  -- a stream may stop at its mark, a datagram never does
  constructor
  · intro hs hk hq
    exact (scattersStream_iff ha (stream hk) hk hq).mp (hs.1 hk hq)
  · intro below
    exact ⟨fun hk hq => (scattersStream_iff ha (stream hk) hk hq).mpr (below hk hq),
      fun hk pkt rest hq => scattersDgram ha hk hq⟩

/-- `recvmsg` on descriptor 0 with these lengths. -/
def recvmsgMsg (lens : List Nat) : TnIpcMsg :=
  { cmd := .recvmsg, socketBase := some 1,
    ptrs := fun _ => .msghdr
      { msgIov := some (lens.map fun n => { iovBase := some fun _ => 0, iovLen := n }) } }

/-- An array with room for three bytes takes the only one there is. -/
theorem recvmsg_scatters_iff_fed : ∃ iovs, iovLens iovs = [1, 2] ∧
    Scatters (arrived (fed [7]) 1 (recvmsgMsg [1, 2]) []) 1 0 iovs := by
  have asks : AsksRecvmsg (arrived (fed [7]) 1 (recvmsgMsg [1, 2]) []) 1 _ _ :=
    ⟨rfl, rfl, by simp, by simp, by decide⟩
  have ordered := (fed_reach [7]).arrived_ok 1 (recvmsgMsg [1, 2]) []
  exact ⟨_, rfl, (recvmsg_scatters_iff ordered asks).mpr fun _ _ => belowMark_of_lt (by decide)⟩

/-- Two entries of `2 ^ 31` bytes: the sum is 0 in 32 bits, and the reply is 0 though a byte is
there. -/
theorem not_forall_scatters :
    ¬ ∀ w, Reachable w → ∀ m x env i h iovs, AsksRecvmsg (arrived w m x env) m h iovs →
      Scatters (arrived w m x env) m i iovs := by
  intro hall
  have asks : AsksRecvmsg (arrived (fed [7]) 1 (recvmsgMsg [2 ^ 31, 2 ^ 31]) []) 1 _ _ :=
    ⟨rfl, rfl, by simp, by simp, by decide⟩
  have exact := (hall _ (fed_reach [7]) 1 (recvmsgMsg [2 ^ 31, 2 ^ 31]) [] 0 _ _ asks).1 (by decide)
    (by decide)
  exact absurd exact.returned.count (by decide)

end Tolunnet
