import Tolunnet.Calls.Recvmsg

/-!
# `Tolunnet.Calls.Datagram`: a receive request on a datagram slot

`recv`, `recvfrom` and `recvmsg` have each code of their own for the queue of a UDP or RAW slot. What
they do to it is the same: the datagram at the head goes to the client, as much of it as there is room
for, with the address it came from, and it is unlinked unless the request peeks. `recvHandler_reads`
says so for all three, whatever the request is.
-/

set_option autoImplicit false

namespace Tolunnet

open World

namespace Dgram

/-! ## What the client gets -/

/-- The answer to a request, and what the daemon wrote for it. -/
structure Delivery where
  msg : MsgId
  req : TnIpcMsg
  result : Int
  errNo : Errno
  writes : List Output

/-- The answer to the request `m` between two states. -/
def delivery (w w' : World) (m : MsgId) : Delivery :=
  { msg := m, req := w.msgs m, result := (w'.msgs m).result, errNo := (w'.msgs m).errNo,
    writes := added w w' }

/-- Whether a receive request has `MSG_PEEK`. -/
def peeks (x : TnIpcMsg) : Bool := hasFlag (x.args (if x.cmd = .recvmsg then 1 else 2)) msgPeek

/-- The number of bytes that a receive request has room for. -/
def room (x : TnIpcMsg) : Nat :=
  match x.ptrs 0 with
  | .msghdr h => iovRoom (h.msgIov.getD [])
  | _ => clip16 (x.args 1).toNat

/-- The address that a datagram came from, as a `sockaddr_in`. -/
def sender (d : TnRxPacket) : List UInt8 :=
  tnSockinStoreBytes { family := afInet, port := d.srcPort, addr := d.srcIp }

/-- The length behind a `socklen_t *`, negative ones as 0, at most 16. -/
def nameRoom (len : Mem) : Nat :=
  if toLong (be32 len 0) < 0 then 0 else min (toLong (be32 len 0)).toNat sizeofSockaddrIn

/-- The writes put the address where the request wants it. `recvfrom` cuts it to the length given and
sets that to 16; `recvmsg` gives an address only to a buffer for all of it. -/
def Named (x : TnIpcMsg) (m : MsgId) (d : TnRxPacket) (l : List Output) : Prop :=
  match x.cmd with
  | .recvfrom => ∀ from' len, x.ptrs 1 = .mem from' → x.ptrs 2 = .mem len →
      (∀ f, storedMem m 1 f l = poke f 0 ((sender d).take (nameRoom len))) ∧
      ∀ f, storedMem m 2 f l = poke f 0 (bytes32 sizeofSockaddrIn)
  | .recvmsg => ∀ h, x.ptrs 0 = .msghdr h → h.msgName.isSome = true →
      sizeofSockaddrIn ≤ h.msgNamelen → ∀ f, storedMem m 1 f l = poke f 0 (sender d)
  | _ => True

/-- The client got the datagram: the bytes from its front that there is room for, and the address. -/
structure Delivers (d : TnRxPacket) (x : Delivery) : Prop where
  count : x.result = (d.p.take (room x.req)).length
  ok : x.errNo = .ok
  bytes : Handed x.req x.msg (d.p.take (room x.req)) x.writes
  name : Named x.req x.msg d x.writes

/-! ## Writes that are no stores -/

end Dgram

/-- A signal, an event or a frame: client memory stays. -/
def Output.tells : Output → Bool
  | .store .. | .storeIov .. => false
  | _ => true

namespace Dgram

section
variable {m : MsgId} {k : Nat} {f : Mem} {l t : List Output}

theorem storedMem_told (told : ∀ o ∈ t, o.tells = true) : storedMem m k f t = f := by
  induction t with
  | nil => rfl
  | cons o t ih =>
    have rest := ih fun o ho => told o (List.mem_cons_of_mem _ ho)
    have head := told o List.mem_cons_self
    cases o with
    | store | storeIov => cases head
    | signal | event | datagram => exact rest

theorem storedIov_told (told : ∀ o ∈ t, o.tells = true) : storedIov m k f t = f := by
  induction t with
  | nil => rfl
  | cons o t ih =>
    have rest := ih fun o ho => told o (List.mem_cons_of_mem _ ho)
    have head := told o List.mem_cons_self
    cases o with
    | store | storeIov => cases head
    | signal | event | datagram => exact rest

/-- What is told before the client is served does not matter. -/
theorem Delivers.after {d : TnRxPacket} {w w1 w' : World} (h : Delivers d (delivery w1 w' m))
    (told : ∀ o ∈ t, o.tells = true) (out : w1.output = t ++ w.output) (msgs : w1.msgs = w.msgs)
    (out' : w'.output = l ++ w1.output) : Delivers d (delivery w w' m) := by
  have before : added w1 w' = l := added_of_append out'
  have whole : added w w' = l ++ t := added_of_append (by rw [out', out, List.append_assoc])
  obtain ⟨count, ok, bytes, name⟩ := h
  unfold delivery at count ok bytes name ⊢
  rw [msgs, before] at bytes name
  rw [msgs] at count
  rw [whole]
  refine ⟨count, ok, ?_, ?_⟩
  · unfold Handed at bytes ⊢
    dsimp only at bytes ⊢
    split at bytes
    · intro f
      rw [storedMem_append, storedMem_told told]
      exact bytes f
    · obtain ⟨iovs, hi, fills⟩ := bytes
      refine ⟨iovs, hi, fun k f o => ?_⟩
      rw [storedIov_append, storedIov_told told]
      exact fills k f o
    · exact bytes
  · unfold Named at name ⊢
    dsimp only at name ⊢
    split at name
    · intro from' len hfrom hlen
      obtain ⟨addr, size⟩ := name from' len hfrom hlen
      refine ⟨fun f => ?_, fun f => ?_⟩
      · rw [storedMem_append, storedMem_told told, addr]
      · rw [storedMem_append, storedMem_told told, size]
    · intro h hh hname hlen f
      rw [storedMem_append, storedMem_told told, name h hh hname hlen]
    · trivial

end

/-! ## The queue -/

/-- What a slot keeps about its datagrams. -/
structure Queue where
  packets : List TnRxPacket
  count : Nat
  kind : Int

/-- The queue of a slot. -/
def queueOf (w : World) (i : SlotIdx) : Queue :=
  { packets := (w.sockets i).rx, count := (w.sockets i).rxCount, kind := (w.sockets i).type }

/-- A RAW slot has no ports. -/
def Queue.Portless (q : Queue) : Prop := q.kind ≠ sockDgram → ∀ d ∈ q.packets, d.srcPort = 0

/-- What a receive request does: it gets the datagram at the head, it is refused, or it waits. -/
inductive Reads (w : World) (m : MsgId) (i : SlotIdx) : World × TnIpcReplyAction → Prop
  | gives {w' : World} (d : TnRxPacket) (rest : List TnRxPacket) (head : (w.sockets i).rx = d :: rest)
      (delivers : Delivers d (delivery w w' m)) (writes : ∃ l, w'.output = l ++ w.output)
      (queue : queueOf w' i = if peeks (w.msgs m) then queueOf w i
        else { queueOf w i with packets := rest, count := (queueOf w i).count - 1 }) :
      Reads w m i (w', .replyNow)
  | refuses {w' : World} (refused : (w'.msgs m).result < 0) (queue : queueOf w' i = queueOf w i) :
      Reads w m i (w', .replyNow)
  | waits {w' : World} (parked : (w'.sockets i).pending .recv ≠ none)
      (queue : queueOf w' i = queueOf w i) : Reads w m i (w', .defer)

section
variable {w : World} {m : MsgId} {i : SlotIdx}

theorem reads_fail {w' : World} (e : Errno) (slots : w'.sockets = w.sockets) :
    Reads w m i (fail w' m e) := by
  refine .refuses ?_ ?_
  · simp [setReply, modMsg]
  · show queueOf w' i = queueOf w i
    rw [queueOf, slots]
    rfl

theorem recvDgramEmpty_reads {w' : World} (flags : Int) (slots : w'.sockets = w.sockets) :
    Reads w m i (recvDgramEmpty w' m i flags) := by
  have same : queueOf w' i = queueOf w i := by
    rw [queueOf, slots]
    rfl
  unfold recvDgramEmpty
  split
  · exact reads_fail _ slots
  · unfold tnSlotParkRecv
    split
    · rename_i m' parked
      split
      · exact .waits (by rw [parked]; exact Option.some_ne_none _) same
      · exact reads_fail _ slots
    · refine .waits ?_ ?_
      · simp [modSlot, setPending]
      · rw [← same]
        simp [queueOf, modSlot, setPending]

/-- A datagram that has been written to the client. -/
theorem reads_done {w1 : World} {d : TnRxPacket} {rest : List TnRxPacket} {l : List Output} {n : Nat}
    (head : (w.sockets i).rx = d :: rest) (slots : w1.sockets = w.sockets)
    (out : w1.output = l ++ w.output) (count : n = (d.p.take (room (w.msgs m))).length)
    (bytes : Handed (w.msgs m) m (d.p.take (room (w.msgs m))) l) (name : Named (w.msgs m) m d l) :
    Reads w m i (done (if peeks (w.msgs m) then w1 else rxPop w1 i) m n .ok) := by
  have out' : ((if peeks (w.msgs m) then w1 else rxPop w1 i).setReply m n .ok).output =
      l ++ w.output := by
    rw [← out]
    split <;> rfl
  have reply : ∀ w2 : World, ((w2.setReply m n .ok).msgs m).result = n ∧
      ((w2.setReply m n .ok).msgs m).errNo = .ok := fun w2 => by simp [setReply, modMsg]
  refine .gives d rest head ⟨?_, (reply _).2, ?_, ?_⟩ ⟨l, out'⟩ ?_
  · exact (reply _).1.trans (congrArg Nat.cast count)
  · show Handed (w.msgs m) m _ (added w _)
    rw [added_of_append out']
    exact bytes
  · show Named (w.msgs m) m d (added w _)
    rw [added_of_append out']
    exact name
  · have same : queueOf w1 i = queueOf w i := by
      rw [queueOf, slots]
      rfl
    rw [← same]
    cases peeks (w.msgs m) with
    | true => rfl
    | false => simp [queueOf, setReply, modMsg, rxPop, modSlot, slots, head]

end

/-! ## The three handlers -/

section
variable {w : World} {m : MsgId} {i : SlotIdx}

/-- The port that a handler writes is the one of the datagram. -/
theorem srcPort_eq (portless : (queueOf w i).Portless) {d : TnRxPacket} {rest : List TnRxPacket}
    (head : (w.sockets i).rx = d :: rest) :
    (if (w.sockets i).type = sockDgram then d.srcPort else 0) = d.srcPort := by
  split
  · rfl
  · rename_i raw
    have mem : d ∈ (w.sockets i).rx := by
      rw [head]
      exact List.mem_cons_self
    exact (portless raw d mem).symm

theorem not_stream (kind : (w.sockets i).type = sockDgram ∨ (w.sockets i).type = sockRaw) :
    (w.sockets i).type ≠ sockStream := by
  rcases kind with kind | kind <;> rw [kind] <;> decide

theorem recv_reads (cmd : (w.msgs m).cmd = .recv)
    (kind : (w.sockets i).type = sockDgram ∨ (w.sockets i).type = sockRaw) :
    Reads w m i (tnIpcCmdRecv w m (some i)) := by
  have peek : peeks (w.msgs m) = hasFlag ((w.msgs m).args 2) msgPeek := by
    rw [peeks, cmd]
    rfl
  unfold tnIpcCmdRecv
  dsimp only
  cases buf : (w.msgs m).ptrs 0 with
  | mem f =>
    have space : room (w.msgs m) = clip16 ((w.msgs m).args 1).toNat := by rw [room, buf]
    show Reads w m i (if _ then _ else _)
    rw [if_neg (not_stream kind), if_pos kind]
    split
    · exact reads_fail _ rfl
    · split
      · exact reads_fail _ rfl
      · unfold recvDgram
        cases head : (w.sockets i).rx with
        | nil => exact recvDgramEmpty_reads _ rfl
        | cons d rest =>
          dsimp only
          rw [← peek, ← space]
          refine reads_done (l := [.store m 0 0 (d.p.take (room (w.msgs m)))]) head rfl rfl rfl ?_ ?_
          · unfold Handed
            rw [buf]
            intro f
            rw [storedMem_store]
            exact memBytes_poke_self rfl
          · rw [Named, cmd]
            trivial
  | null | str | msghdr => exact reads_fail _ rfl

/-- What `tn_store_client_sockaddr` writes for `recvfrom`. -/
theorem output_tnStoreClientSockaddr (w : World) (m : MsgId) (d : TnRxPacket) :
    ∃ l, (tnStoreClientSockaddr w m 1 2 d.srcPort d.srcIp).output = l ++ w.output ∧
      (tnStoreClientSockaddr w m 1 2 d.srcPort d.srcIp).sockets = w.sockets ∧
      (∀ f, storedMem m 0 f l = f) ∧
      ∀ from' len, (w.msgs m).ptrs 1 = .mem from' → (w.msgs m).ptrs 2 = .mem len →
        (∀ f, storedMem m 1 f l = poke f 0 ((sender d).take (nameRoom len))) ∧
        ∀ f, storedMem m 2 f l = poke f 0 (bytes32 sizeofSockaddrIn) := by
  unfold tnStoreClientSockaddr
  split
  · rename_i from' len hfrom hlen
    refine ⟨[.store m 2 0 (bytes32 sizeofSockaddrIn),
      .store m 1 0 ((sender d).take (nameRoom len))], rfl, rfl, fun f => ?_, ?_⟩
    · rw [storedMem_store_of_ne (by decide), storedMem_store_of_ne (by decide)]
      rfl
    · intro from'' len' hfrom' hlen'
      rw [hlen] at hlen'
      cases hlen'
      refine ⟨fun f => ?_, fun f => ?_⟩
      · rw [storedMem_store_of_ne (by decide), storedMem_store]
        rfl
      · rw [storedMem_store, storedMem_store_of_ne (by decide)]
        rfl
  · rename_i hnone
    exact ⟨[], rfl, rfl, fun _ => rfl, fun from' len hfrom hlen => (hnone from' len hfrom hlen).elim⟩

theorem recvfrom_reads (cmd : (w.msgs m).cmd = .recvfrom) (portless : (queueOf w i).Portless)
    (kind : (w.sockets i).type = sockDgram ∨ (w.sockets i).type = sockRaw) :
    Reads w m i (tnIpcCmdRecvfrom w m (some i)) := by
  have peek : peeks (w.msgs m) = hasFlag ((w.msgs m).args 2) msgPeek := by
    rw [peeks, cmd]
    rfl
  unfold tnIpcCmdRecvfrom
  dsimp only
  cases buf : (w.msgs m).ptrs 0 with
  | mem f =>
    have space : room (w.msgs m) = clip16 ((w.msgs m).args 1).toNat := by rw [room, buf]
    show Reads w m i (if _ then _ else _)
    rw [if_neg (not_stream kind), if_pos kind]
    split
    · exact reads_fail _ rfl
    · split
      · exact reads_fail _ rfl
      · unfold recvfromDgram
        cases head : (w.sockets i).rx with
        | nil => exact recvDgramEmpty_reads _ rfl
        | cons d rest =>
          dsimp only
          rw [← peek, ← space, srcPort_eq portless head]
          obtain ⟨l, out, slots, beside, named⟩ := output_tnStoreClientSockaddr
            (w.store m 0 0 (d.p.take (room (w.msgs m)))) m d
          refine reads_done (l := l ++ [.store m 0 0 (d.p.take (room (w.msgs m)))]) head slots ?_ rfl
            ?_ ?_
          · rw [out, List.append_assoc]
            rfl
          · unfold Handed
            rw [buf]
            intro f
            rw [storedMem_append, beside, storedMem_store]
            exact memBytes_poke_self rfl
          · rw [Named, cmd]
            intro from' len hfrom hlen
            obtain ⟨addr, size⟩ := named from' len hfrom hlen
            refine ⟨fun f => ?_, fun f => ?_⟩
            · rw [storedMem_append, addr, storedMem_store_of_ne (by decide)]
              rfl
            · rw [storedMem_append, size, storedMem_store_of_ne (by decide)]
              rfl
  | null | str | msghdr => exact reads_fail _ rfl

/-- `recvmsg` on a slot with a datagram: what it writes behind `msg_name`, and what it unlinks. -/
theorem recvmsgDgram_run (h : Msghdr) (iovs : List Iovec) (flags : Int) {d : TnRxPacket}
    {rest : List TnRxPacket} (head : (w.sockets i).rx = d :: rest)
    (port : (if (w.sockets i).type = sockDgram then d.srcPort else 0) = d.srcPort) :
    ∃ (w' : World) (n : Nat) (l : List Output), recvmsgDgram w m i h iovs flags =
        done (if hasFlag flags msgPeek then w' else rxPop w' i) m n .ok ∧
      w'.sockets = w.sockets ∧ w'.output = l ++ w.output ∧
      (h.msgName.isSome = true → sizeofSockaddrIn ≤ h.msgNamelen →
        ∀ f, storedMem m 1 f l = poke f 0 (sender d)) := by
  unfold recvmsgDgram
  simp only [head, storeChunks_eq]
  generalize scatterAll iovs {} d.p.length = r
  -- the bytes and `msg_flags`
  obtain ⟨w1, hw1⟩ : ∃ w1 : World, w1 = if d.p.length > chunksLen r.1 then
      World.store { w with output := chunkWrites m d.p r.1 ++ w.output } m 0 24 (bytes32 0x10)
    else { w with output := chunkWrites m d.p r.1 ++ w.output } := ⟨_, rfl⟩
  obtain ⟨l, slots, out, beside⟩ : ∃ l, w1.sockets = w.sockets ∧ w1.output = l ++ w.output ∧
      ∀ f, storedMem m 1 f l = f := by
    rw [hw1]
    split
    · refine ⟨.store m 0 24 (bytes32 0x10) :: chunkWrites m d.p r.1, rfl, rfl, fun f => ?_⟩
      rw [storedMem_store_of_ne (by decide), storedMem_chunkWrites]
    · exact ⟨chunkWrites m d.p r.1, rfl, rfl, fun f => storedMem_chunkWrites ..⟩
  rw [← hw1]
  by_cases name : h.msgName.isSome = true ∧ h.msgNamelen ≥ sizeofSockaddrIn
  · rw [if_pos name]
    refine ⟨_, chunksLen r.1, .store m 0 4 (bytes32 sizeofSockaddrIn) :: .store m 1 0 (sender d) :: l,
      rfl, slots, ?_, fun _ _ f => ?_⟩
    · show .store m 0 4 _ :: .store m 1 0 _ :: w1.output = _
      rw [out, slots, port]
      rfl
    · rw [storedMem_store_of_ne (by decide), storedMem_store, beside]
  · rw [if_neg name]
    exact ⟨w1, chunksLen r.1, l, rfl, slots, out, fun h1 h2 => (name ⟨h1, h2⟩).elim⟩

/-- The preamble of `recvmsg` leaves the memory behind `msg_name` alone. -/
theorem clearHeader_beside (h : Msghdr) :
    ∃ l, (clearHeader w m h).output = l ++ w.output ∧ ∀ f, storedMem m 1 f l = f := by
  unfold clearHeader
  split
  · refine ⟨[.store m 0 20 (bytes32 0), .store m 0 24 (bytes32 0)], rfl, fun f => ?_⟩
    rw [storedMem_store_of_ne (by decide), storedMem_store_of_ne (by decide)]
    rfl
  · refine ⟨[.store m 0 24 (bytes32 0)], rfl, fun f => ?_⟩
    rw [storedMem_store_of_ne (by decide)]
    rfl

/-- A `recvmsg` that no check refuses. -/
theorem AsksRecvmsg.reads {h : Msghdr} {iovs : List Iovec} (asks : AsksRecvmsg w m h iovs)
    (cmd : (w.msgs m).cmd = .recvmsg) (portless : (queueOf w i).Portless)
    (kind : (w.sockets i).type = sockDgram ∨ (w.sockets i).type = sockRaw) :
    Reads w m i (tnIpcCmdRecvmsg w m (some i)) := by
  have peek : peeks (w.msgs m) = hasFlag ((w.msgs m).args 1) msgPeek := by
    rw [peeks, cmd]
    rfl
  have space : room (w.msgs m) = iovRoom iovs := by
    rw [room, asks.hdr]
    dsimp only
    rw [asks.iov]
    rfl
  have slots : (clearHeader w m h).sockets = w.sockets := sockets_clearHeader
  have handled : tnIpcCmdRecvmsg w m (some i) =
      recvmsgDgram (clearHeader w m h) m i h iovs ((w.msgs m).args 1) := by
    rw [asks.handled, if_neg (not_stream kind), if_pos kind]
  cases head : (w.sockets i).rx with
  | nil =>
    rw [handled]
    unfold recvmsgDgram
    rw [slots, head]
    exact recvDgramEmpty_reads _ slots
  | cons d rest =>
    have returned := (scattersDgram asks kind head).returned
    obtain ⟨w2, n, l, run, slots2, out2, named⟩ := recvmsgDgram_run (m := m) h iovs
      ((w.msgs m).args 1) (slots ▸ head) (slots ▸ srcPort_eq portless head)
    obtain ⟨pre, hpre, beside⟩ := clearHeader_beside (w := w) (m := m) h
    rw [handled, run, ← peek] at returned ⊢
    obtain ⟨l', out', handed⟩ := returned.writes
    have out : w2.output = (l ++ pre) ++ w.output := by rw [out2, hpre, List.append_assoc]
    have whole : l' ++ w.output = (l ++ pre) ++ w.output := by
      rw [← out, ← out']
      show (if peeks (w.msgs m) then w2 else rxPop w2 i).output = _
      split <;> rfl
    have same : l' = l ++ pre := List.append_cancel_right whole
    have count := returned.count
    simp only [done, setReply, modMsg, Function.update_self] at count
    refine reads_done head (slots2.trans slots) out ?_ ?_ ?_
    · rw [space]
      exact_mod_cast count
    · rw [space, ← same]
      exact handed
    · rw [Named, cmd]
      intro h' hdr' hname hlen f
      rw [asks.hdr] at hdr'
      cases hdr'
      rw [storedMem_append, beside, named hname hlen]

theorem recvmsg_reads (cmd : (w.msgs m).cmd = .recvmsg) (portless : (queueOf w i).Portless)
    (kind : (w.sockets i).type = sockDgram ∨ (w.sockets i).type = sockRaw) :
    Reads w m i (tnIpcCmdRecvmsg w m (some i)) := by
  by_cases asks : ∃ h iovs, AsksRecvmsg w m h iovs
  · obtain ⟨h, iovs, asks⟩ := asks
    exact AsksRecvmsg.reads asks cmd portless kind
  · unfold tnIpcCmdRecvmsg
    dsimp only
    split
    · rename_i h j hdr hj
      cases hj
      split
      · exact reads_fail _ rfl
      · rename_i oob
        split
        · exact reads_fail _ rfl
        · rename_i iovs iov
          split
          · exact reads_fail _ rfl
          · rename_i counted
            split
            · exact reads_fail _ rfl
            · -- no check is left, so this was a request that is not refused
              rename_i hbases
              refine (asks ⟨h, iovs, hdr, iov, ?_, ?_, Bool.eq_false_iff.mpr oob⟩).elim
              · rw [not_or] at counted
                exact ⟨counted.1, Nat.le_of_not_lt counted.2⟩
              · intro v hv pos none
                exact hbases (List.any_eq_true.mpr ⟨v, hv, by simp [pos, none]⟩)
    · exact reads_fail _ rfl
    · exact reads_fail _ rfl

/-- Whatever a request that is parked or has just come in asks for, it gets the datagram at the head,
is refused, or waits. -/
theorem recvHandler_reads (portless : (queueOf w i).Portless)
    (kind : (w.sockets i).type = sockDgram ∨ (w.sockets i).type = sockRaw) :
    Reads w m i (recvHandler w m i) := by
  unfold recvHandler
  split
  · rename_i cmd
    exact recv_reads cmd kind
  · rename_i cmd
    exact recvfrom_reads cmd portless kind
  · rename_i cmd
    exact recvmsg_reads cmd portless kind
  · exact reads_fail _ rfl

end

end Dgram

end Tolunnet
