import Tolunnet.Calls.Receive

/-!
# `Tolunnet.Calls.Ready`: what `select` predicts

`tn_select_can_read` and `tn_select_can_write` are two decision trees over a slot; `RECV`, `ACCEPT`
and `SEND` are three others. `SelectAgrees` says that a slot is ready exactly when a call that must
not wait has an answer. `ReadMissed` and `WriteMissed` are the slots on which the trees differ. The
first of them is a stream after `SHUT_RD`: `RECV` sees the end of the stream at once, and the slot
never becomes readable.

lwIP comes in where a stream has room to send. `WritesAsSaid` is what `tcp_write` keeps to: it takes
the data while there is send buffer and the segment queue is not full, and refuses with `ERR_MEM`
when the queue is full.
-/

set_option autoImplicit false

namespace Tolunnet

open World

/-! ## Calls that do not wait -/

/-- The call has an answer, if only an error. -/
def Answers (m : MsgId) (r : World × TnIpcReplyAction) : Prop :=
  r.2 = .replyNow ∧ recvResult m r ≠ .error .ewouldblock

/-- A request to move a positive number of bytes without waiting. -/
structure AsksNow (s : TnSocketSlot) (x : TnIpcMsg) : Prop where
  buf : ∃ f, x.ptrs 0 = .mem f
  len : 0 < x.args 1
  now : (s.isNonblocking || hasFlag (x.args 2) msgDontwait) = true

/-- Slot `i` is set non-blocking. -/
def unblocked (w : World) (i : SlotIdx) : World :=
  w.modSlot i fun s => { s with isNonblocking := true }

/-- The slots on which one calls `recv`. -/
def Receives (s : TnSocketSlot) : Prop :=
  s.type = sockDgram ∨ s.type = sockRaw ∨
    s.type = sockStream ∧ s.tcpState ≠ .closed ∧ s.tcpState ≠ .listening

/-- Readiness of slot `i` and the calls on it say the same. -/
structure SelectAgrees (w : World) (m : MsgId) (i : SlotIdx) : Prop where
  recv : Receives (w.sockets i) → ∀ x, AsksNow (w.sockets i) x → hasFlag (x.args 2) msgOob = false →
    (tnSelectCanRead (w.sockets i) = true ↔ Answers m (tnIpcCmdRecv (asking w m x) m (some i)))
  accept : (w.sockets i).type = sockStream → (w.sockets i).tcpState = .listening → ∀ x,
    (tnSelectCanRead (w.sockets i) = true ↔
      Answers m (tnIpcCmdAccept (asking (unblocked w i) m x) m (some i)))
  send : ∀ x, AsksNow (w.sockets i) x →
    (tnSelectCanWrite w (w.sockets i) = true ↔
      Answers m (tnIpcCmdSend (asking w m x) m (some i)) ∧
        ((w.sockets i).tcpState = .connecting →
          recvResult m (tnIpcCmdSend (asking w m x) m (some i)) ≠ .error .enotconn))

/-- The slots that are readable for one of the two sides only. The first is a stream after `SHUT_RD`.
The others would need a stored `EWOULDBLOCK`, a receive queue on a listener, or a connection state on
a datagram socket. -/
@[mk_iff] inductive ReadMissed (s : TnSocketSlot) : Prop where
  | shut (hk : s.type = sockStream) (hrx : s.rx = []) (hs : s.shutRd = true)
      (ht : s.tcpState = .connecting ∨ s.tcpState = .established)
  | told (hk : s.type = sockStream) (hrx : s.rx = []) (hs : s.shutRd = false)
      (ht : s.tcpState = .error) (he : s.lastError = .ewouldblock)
  | listener (hk : s.type = sockStream) (hrx : s.rx ≠ []) (ht : s.tcpState = .listening)
      (hq : s.acceptQ = [])
  | dgram (hk : s.type ≠ sockStream) (hrx : s.rx = [])
      (ht : s.tcpState = .peerClosed ∨ s.tcpState = .error ∨
        s.tcpState = .listening ∧ s.acceptQ ≠ [])

/-- The streams that are not writable although `send` fails at once, and the one that is although it
would wait. -/
@[mk_iff] inductive WriteMissed (s : TnSocketSlot) : Prop where
  | unconnected (hk : s.type = sockStream) (ht : s.tcpState = .closed ∨ s.tcpState = .listening)
  | shut (hk : s.type = sockStream) (hs : s.shutWr = true) (ht : s.tcpState = .connecting)
  | detached (hk : s.type = sockStream) (hs : s.shutWr = false)
      (ht : s.tcpState = .established ∨ s.tcpState = .peerClosed) (hp : s.tcpPcb = none)
  | told (hk : s.type = sockStream) (hs : s.shutWr = false) (ht : s.tcpState = .error)
      (he : s.lastError = .ewouldblock)

/-- What lwIP's `tcp_write` does with the pcb of slot `i`. -/
structure WritesAsSaid (w : World) (i : SlotIdx) : Prop where
  takes : ∀ p c, (w.sockets i).tcpPcb = some p → w.tcpPcbs p = some c → 0 < c.sndBuf →
    c.sndQueuelen < tcpSndQueuelen → c.listen = false ∧ w.ask.err = .ok
  full : ∀ p c, (w.sockets i).tcpPcb = some p → w.tcpPcbs p = some c → 0 < c.sndBuf →
    tcpSndQueuelen ≤ c.sndQueuelen → c.listen = false ∧ w.ask.err = .mem

variable {w w' : World} {m : MsgId} {i : SlotIdx} {x : TnIpcMsg}

/-- A result is an answer. -/
@[simp] theorem answers_done (r : Int) (e : Errno) :
    Answers m (done w m r e) ↔ e ≠ .ewouldblock := by
  unfold Answers
  rw [recvResult_done]
  cases e <;> simp [done]

/-- A refusal is an answer. -/
@[simp] theorem answers_fail (e : Errno) : Answers m (fail w m e) ↔ e ≠ .ewouldblock :=
  answers_done _ _

/-- The buffer of a call that asks now. -/
theorem AsksNow.buffer {s : TnSocketSlot} (h : AsksNow s x) : ∃ f, x.ptrs 0 = .mem f ∧
    ¬ x.args 1 < 0 :=
  h.buf.imp fun _ hf => ⟨hf, Int.not_lt.mpr (Int.le_of_lt h.len)⟩

/-- There is always such a request. -/
theorem asksNow_bufferMsg (s : TnSocketSlot) : AsksNow s (bufferMsg (fun _ => 0) 1 128) :=
  ⟨⟨_, rfl⟩, by decide, by simp [show hasFlag 128 msgDontwait = true by decide, bufferMsg]⟩

/-! ## Reading -/

/-- A stream receive answers when it has something to say. -/
theorem answers_recvStream (len : Nat) {flags : Int}
    (hn : ((w.sockets i).isNonblocking || hasFlag flags msgDontwait) = true) :
    Answers m (recvStream w m i len flags) ↔
      (w.sockets i).rx ≠ [] ∨ (w.sockets i).shutRd = true ∨ (w.sockets i).tcpState = .peerClosed ∨
        ((w.sockets i).tcpState = .error ∧ (w.sockets i).lastError ≠ .ewouldblock) ∨
        (w.sockets i).tcpState = .closed ∨ (w.sockets i).tcpState = .listening := by
  unfold recvStream
  dsimp only
  cases hrx : (w.sockets i).rx with
  | cons pkt rest =>
    dsimp only
    split <;> simp
  | nil =>
    dsimp only
    cases hs : (w.sockets i).shutRd with
    | true => simp [recvStreamEmpty, hs]
    | false =>
      cases ht : (w.sockets i).tcpState with
      | error =>
        simp only [ne_eq, Bool.false_eq_true, not_false_eq_true, and_self, if_true, answers_fail]
        split <;> simp_all
      | _ => simp [recvStreamEmpty, hs, ht, hn]

/-- A datagram receive answers when there is a datagram. -/
theorem answers_recvDgram (len : Nat) {flags : Int}
    (hn : ((w.sockets i).isNonblocking || hasFlag flags msgDontwait) = true) :
    Answers m (recvDgram w m i len flags) ↔ (w.sockets i).rx ≠ [] := by
  unfold recvDgram
  cases hrx : (w.sockets i).rx with
  | cons pkt rest => simp
  | nil => simp [recvDgramEmpty, hn]

/-- `RECV` hands the request on by the type of the slot. -/
theorem tnIpcCmdRecv_now (ha : AsksNow (w.sockets i) x) (ho : hasFlag (x.args 2) msgOob = false) :
    tnIpcCmdRecv (asking w m x) m (some i) =
      if (w.sockets i).type = sockStream then
        recvStream (asking w m x) m i (x.args 1).toNat (x.args 2)
      else if (w.sockets i).type = sockDgram ∨ (w.sockets i).type = sockRaw then
        recvDgram (asking w m x) m i (x.args 1).toNat (x.args 2)
      else fail (asking w m x) m .eopnotsupp := by
  obtain ⟨f, hb, hl⟩ := ha.buffer
  unfold tnIpcCmdRecv
  simp only [msgs_asking, hb, Ptr.mem?, hl, ho, if_false, Bool.false_eq_true]
  rfl

/-- A receiving slot is readable when `RECV` has an answer, unless it is one of those missed. -/
theorem canRead_iff_recv (hu : (w.sockets i).inUse = true) (hr : Receives (w.sockets i))
    (ha : AsksNow (w.sockets i) x) (ho : hasFlag (x.args 2) msgOob = false) :
    (tnSelectCanRead (w.sockets i) = true ↔
      Answers m (tnIpcCmdRecv (asking w m x) m (some i))) ↔
      ¬ ReadMissed (w.sockets i) := by
  have now : (((asking w m x).sockets i).isNonblocking || hasFlag (x.args 2) msgDontwait) = true :=
    ha.now
  have slots : (asking w m x).sockets = w.sockets := rfl
  rw [tnIpcCmdRecv_now ha ho, readMissed_iff]
  unfold tnSelectCanRead
  by_cases hk : (w.sockets i).type = sockStream
  · rw [if_pos hk, answers_recvStream _ now, slots]
    obtain ⟨not_closed, not_listening⟩ : (w.sockets i).tcpState ≠ .closed ∧
        (w.sockets i).tcpState ≠ .listening := by
      rcases hr with h | h | h
      · exact absurd (h.symm.trans hk) (by decide)
      · exact absurd (h.symm.trans hk) (by decide)
      · exact h.2
    cases hrx : (w.sockets i).rx with
    | cons pkt rest => simp [hu, not_listening]
    | nil =>
      cases ht : (w.sockets i).tcpState with
      | closed => exact absurd ht not_closed
      | listening => exact absurd ht not_listening
      | error => cases hs : (w.sockets i).shutRd <;> simp [hu, hk]
      | _ => simp [hu, hk]
  · have dgram : (w.sockets i).type = sockDgram ∨ (w.sockets i).type = sockRaw := by
      rcases hr with h | h | h
      · exact .inl h
      · exact .inr h
      · exact absurd h.1 hk
    rw [if_neg hk, if_pos dgram, answers_recvDgram _ now, slots]
    cases hrx : (w.sockets i).rx with
    | cons pkt rest => simp [hu, hk]
    | nil => simp [hu, hk, or_assoc]

/-! ## Accepting -/

/-- A connection that waits is answered with a descriptor or an error. -/
theorem answers_acceptQueued (ent : TnAcceptEntry) : Answers m (acceptQueued w m i ent) := by
  unfold acceptQueued
  dsimp only
  split
  · simp
  · split <;> simp

/-- A listener is readable when `ACCEPT` answers. -/
theorem canRead_iff_accept (hu : (w.sockets i).inUse = true) (hk : (w.sockets i).type = sockStream)
    (ht : (w.sockets i).tcpState = .listening) :
    (tnSelectCanRead (w.sockets i) = true ↔
      Answers m (tnIpcCmdAccept (asking (unblocked w i) m x) m (some i))) ↔
      ¬ ReadMissed (w.sockets i) := by
  have slot : (asking (unblocked w i) m x).sockets i =
      { w.sockets i with isNonblocking := true } := by
    simp [asking, unblocked, World.modSlot]
  rw [readMissed_iff]
  unfold tnSelectCanRead tnIpcCmdAccept
  simp only [slot, ht, ne_eq, not_true_eq_false, if_false, if_true]
  cases hq : (w.sockets i).acceptQ with
  | cons ent rest => simp [hu, hk, answers_acceptQueued]
  | nil =>
    cases hrx : (w.sockets i).rx <;> simp [hu, hk]

/-! ## Sending -/

/-- `SEND` hands the request on by the type of the slot. -/
theorem tnIpcCmdSend_now {f : Mem} (hb : x.ptrs 0 = .mem f) (hl : ¬ x.args 1 < 0) :
    tnIpcCmdSend (asking w m x) m (some i) =
      if (w.sockets i).type = sockStream then
        tnTcpSendStream (asking w m x) m i f none (x.args 1).toNat (x.args 2)
      else if (w.sockets i).type = sockDgram then
        match (w.sockets i).udpPcb with
        | some p => sendUdp (asking w m x) m p f (x.args 1).toNat
        | none => fail (asking w m x) m .eopnotsupp
      else if (w.sockets i).type = sockRaw then
        match (w.sockets i).rawPcb with
        | some p => sendRaw (asking w m x) m p f (x.args 1).toNat
        | none => fail (asking w m x) m .eopnotsupp
      else fail (asking w m x) m .eopnotsupp := by
  unfold tnIpcCmdSend
  simp only [msgs_asking, hb, Ptr.mem?, hl, if_false]
  rfl

/-- The call has an answer, and it is not that there is no connection. -/
def Sends (m : MsgId) (r : World × TnIpcReplyAction) : Prop :=
  Answers m r ∧ recvResult m r ≠ .error .enotconn

/-- A result is a send's answer. -/
@[simp] theorem sends_done (r : Int) (e : Errno) :
    Sends m (done w m r e) ↔ e ≠ .ewouldblock ∧ e ≠ .enotconn := by
  unfold Sends
  rw [answers_done, recvResult_done]
  cases e <;> simp

/-- A refusal is a send's answer. -/
@[simp] theorem sends_fail (e : Errno) :
    Sends m (fail w m e) ↔ e ≠ .ewouldblock ∧ e ≠ .enotconn := sends_done _ _

/-- A datagram is sent or fails at once. -/
theorem sends_sendDatagram (p : PcbId) (dst : Nat × Nat) (bytes : List UInt8) (a b : Bool) :
    Sends m (sendDatagram w m p dst bytes a b) := by
  unfold sendDatagram
  dsimp only
  split
  · split
    · simp
    · rw [sends_fail, dgramErrno]
      split <;> decide
  · simp

/-- So it is with UDP. -/
theorem sends_sendUdp (p : PcbId) (buf : Mem) (len : Nat) : Sends m (sendUdp w m p buf len) := by
  unfold sendUdp
  dsimp only
  split_ifs
  · simp
  · simp
  · exact sends_sendDatagram ..

/-- So it is with a raw socket. -/
theorem sends_sendRaw (p : PcbId) (buf : Mem) (len : Nat) : Sends m (sendRaw w m p buf len) := by
  unfold sendRaw
  dsimp only
  split_ifs
  · simp
  · simp
  · exact sends_sendDatagram ..

/-- A datagram socket always has an answer. -/
theorem sends_dgram (hk : (w.sockets i).type = sockDgram ∨ (w.sockets i).type = sockRaw)
    (ha : AsksNow (w.sockets i) x) : Sends m (tnIpcCmdSend (asking w m x) m (some i)) := by
  obtain ⟨f, hb, hl⟩ := ha.buffer
  rw [tnIpcCmdSend_now hb hl]
  rcases hk with hk | hk
  · rw [hk, if_neg (by decide), if_pos rfl]
    split
    · exact sends_sendUdp ..
    · simp
  · rw [hk, if_neg (by decide), if_neg (by decide), if_pos rfl]
    split
    · exact sends_sendRaw ..
    · simp

section Stream

variable {p : PcbId} {c : CallNo} {buf : Mem} {iov : Option (List Iovec)} {len : Nat} {flags : Int}

/-- What has been queued stays queued. -/
theorem le_tnTcpWriteSome (buf : Mem) (len fuel : Nat) (w : World) (iov : Option (List Iovec × Nat)) (done : Nat) :
    done ≤ (tnTcpWriteSome p c buf len fuel w iov done).2.1 := by
  induction fuel generalizing w iov done with
  | zero => exact Nat.le_refl _
  | succ fuel ih =>
    unfold tnTcpWriteSome
    split
    · dsimp only
      generalize w.readFull p .sndBuf = w0
      split
      all_goals
        split
        · exact Nat.le_refl _
        · split
          · exact Nat.le_refl _
          · split
            · exact Nat.le_trans (Nat.le_add_right ..) (ih ..)
            · exact Nat.le_refl _
    · exact Nat.le_refl _

/-- The loop does not go back. -/
theorem le_sendLoop (fuel : Nat) (w : World) (done : Nat) :
    done ≤ (sendLoop i c buf iov len fuel w done).2.1 := by
  induction fuel generalizing w done with
  | zero => exact Nat.le_refl _
  | succ fuel ih =>
    unfold sendLoop
    split
    · exact Nat.le_refl _
    · have first := le_tnTcpWriteSome (p := ‹PcbId›) (c := c) buf len (len - done) w
        (iov.map fun l => (l, 0)) done
      dsimp only
      split_ifs
      · split
        · exact first
        · split
          · exact Nat.le_trans first (ih ..)
          · exact first
      · exact first

/-- A non-blocking send that has queued something answers with the number of bytes. -/
theorem answers_sendFinish {done : Nat} (hd : 0 < done) (werr : ErrT) :
    Answers m (sendFinish w m i iov len true done werr) ∧
      recvResult m (sendFinish w m i iov len true done werr) = .count done := by
  have result : ∀ e, sendResult done e = ((done : Int), .ok) := fun e => if_pos hd
  unfold sendFinish
  split
  · simp only [result]
    exact ⟨(answers_done _ _).mpr (by decide), recvResult_done _ _⟩
  · dsimp only
    split_ifs
    · exact ⟨(answers_done _ _).mpr (by decide), recvResult_done _ _⟩
    · simp only [result]
      exact ⟨(answers_done _ _).mpr (by decide), recvResult_done _ _⟩
    · rename_i more mem _
      exact absurd (Or.inr ⟨not_not.mp mem, rfl, hd⟩) more
    · rename_i blocking
      exact absurd rfl blocking

/-- A read of a field leaves the pcbs, the slots and the answers alone. -/
theorem readFull_frame (op : PcbOp) : (w.readFull p op).tcpPcbs = w.tcpPcbs ∧
    (w.readFull p op).sockets = w.sockets ∧ (w.readFull p op).env = w.env := by
  unfold World.readFull World.onFull
  split
  · split
    · exact ⟨rfl, rfl, rfl⟩
    · rename_i c hc _
      exact ⟨(congrArg (Function.update w.tcpPcbs p) hc.symm).trans (Function.update_eq_self p _), rfl, rfl⟩
  · exact ⟨rfl, rfl, rfl⟩

/-- The first `tcp_write` takes what fits into the send buffer. -/
theorem tnTcpWriteSome_space {b : TcpPcb} (buf : Mem) (hp : w.tcpPcbs p = some b) (hb : 0 < b.sndBuf)
    (hl : b.listen = false) (ha : w.ask.err = .ok) (hlen : 0 < len) :
    0 < (tnTcpWriteSome p c buf len len w none 0).2.1 := by
  obtain ⟨pcbs, -, answers⟩ := readFull_frame (w := w) (p := p) .sndBuf
  obtain ⟨n, rfl⟩ := Nat.exists_eq_succ_of_ne_zero hlen.ne'
  unfold tnTcpWriteSome
  rw [if_pos hlen]
  have answer : (w.readFull p .sndBuf).ask.err = .ok := by rw [← ha, ask, ask, answers]
  dsimp only
  generalize w.readFull p .sndBuf = w0 at pcbs answer
  rw [pcbs, hp]
  dsimp only
  have chunk_pos : 0 < min (clip16 (n + 1 - 0)) b.sndBuf := by
    unfold clip16
    omega
  rw [if_neg hb.ne']
  have taken : ∀ bytes, (tcpWrite w0 p c bytes).2 = .ok := fun bytes => by
    simp [tcpWrite, pcbs, hp, hl, answer]
  split
  · refine Nat.lt_of_lt_of_le ?_ (le_tnTcpWriteSome ..)
    rw [Nat.zero_add]
    exact chunk_pos
  · rename_i refused heq
    exact absurd ((congrArg Prod.snd heq).symm.trans (taken _)) (by simpa using refused)

/-- Without room nothing is written. -/
theorem tnTcpWriteSome_full (hs : ∀ b, w.tcpPcbs p = some b → 0 < b.sndBuf →
      b.listen = false ∧ w.ask.err = .mem) (hlen : 0 < len) :
    (tnTcpWriteSome p c buf len len w none 0).2 = (0, .mem) ∧
      (tnTcpWriteSome p c buf len len w none 0).1.sockets = w.sockets := by
  obtain ⟨pcbs, slots, answers⟩ := readFull_frame (w := w) (p := p) .sndBuf
  obtain ⟨n, rfl⟩ := Nat.exists_eq_succ_of_ne_zero hlen.ne'
  unfold tnTcpWriteSome
  rw [if_pos hlen]
  have answer : (w.readFull p .sndBuf).ask = w.ask := by rw [ask, ask, answers]
  dsimp only
  generalize w.readFull p .sndBuf = w0 at pcbs slots answer
  rw [pcbs]
  cases hp : w.tcpPcbs p with
  | none => exact ⟨rfl, slots⟩
  | some b =>
    dsimp only
    split
    · exact ⟨rfl, slots⟩
    · rename_i room
      obtain ⟨hl, refused⟩ := hs b hp (Nat.pos_of_ne_zero room)
      have told : ∀ bytes, tcpWrite w0 p c bytes = (w0.asked, .mem) := fun bytes => by
        simp [tcpWrite, pcbs, hp, hl, answer, refused]
      rw [told]
      exact ⟨rfl, slots⟩

/-- A stream that cannot send refuses at once. -/
theorem tnTcpSendStream_refused (h : (w.sockets i).shutWr = true ∨ (w.sockets i).tcpPcb = none ∨
      ¬ ((w.sockets i).tcpState = .established ∨ (w.sockets i).tcpState = .peerClosed)) :
    ∃ w', tnTcpSendStream w m i buf none len flags = fail w' m
      (if (w.sockets i).shutWr then .epipe
        else if (w.sockets i).tcpState = .error then
          if (w.sockets i).lastError ≠ .ok then (w.sockets i).lastError else .epipe
        else .enotconn) := by
  unfold tnTcpSendStream
  dsimp only
  by_cases hs : (w.sockets i).shutWr = true
  · simp only [hs, if_true]
    exact ⟨_, rfl⟩
  · by_cases ht : (w.sockets i).tcpState = .error
    · simp only [hs, ht, if_true]
      exact ⟨_, rfl⟩
    · have refused : (w.sockets i).tcpPcb = none ∨ ((w.sockets i).tcpState ≠ .established ∧
          (w.sockets i).tcpState ≠ .peerClosed) :=
        (h.resolve_left hs).imp_right not_or.mp
      simp only [hs, ht, if_false, if_pos refused]
      exact ⟨_, rfl⟩

/-- A stream that is connected and open for writing answers a non-blocking send when no other is
parked and lwIP has room. -/
theorem answers_tnTcpSendStream (hw : WritesAsSaid w i) (hs : (w.sockets i).shutWr = false)
    (ht : (w.sockets i).tcpState = .established ∨ (w.sockets i).tcpState = .peerClosed)
    (hp : (w.sockets i).tcpPcb = some p) (hlen : 0 < len)
    (hn : ((w.sockets i).isNonblocking || hasFlag flags msgDontwait) = true) :
    Answers m (tnTcpSendStream (asking w m x) m i buf none len flags) ↔
      ((w.sockets i).pending .send).isNone ∧ sndSpace (w.tcpPcbs p) = true := by
  have live : ¬ ((w.sockets i).tcpState ≠ .established ∧ (w.sockets i).tcpState ≠ .peerClosed) := by
    rcases ht with ht | ht <;> simp [ht]
  have no_error : (w.sockets i).tcpState ≠ .error := by
    rcases ht with ht | ht <;> simp [ht]
  unfold tnTcpSendStream
  dsimp only
  rw [show (asking w m x).sockets = w.sockets from rfl]
  generalize hw1 : (asking w m x).emit _ = w1
  have slots : w1.sockets = w.sockets := by rw [← hw1]; rfl
  have pcbs : w1.tcpPcbs = w.tcpPcbs := by rw [← hw1]; rfl
  have answer : w1.ask = w.ask := by rw [← hw1]; rfl
  rw [if_neg (by simp [hs]), if_neg no_error, if_neg (by simp [hp, live])]
  cases hq : (w.sockets i).pending .send with
  | some _ => simp [hn]
  | none =>
    have some_bytes : len - 0 = len := rfl
    rw [if_neg (by simp), hn]
    cases hroom : sndSpace (w.tcpPcbs p) with
    | true =>
      obtain ⟨b, hb⟩ : ∃ b, w.tcpPcbs p = some b := by
        cases h : w.tcpPcbs p with
        | none => simp [h, sndSpace] at hroom
        | some b => exact ⟨b, rfl⟩
      obtain ⟨room, queue⟩ : 0 < b.sndBuf ∧ b.sndQueuelen < tcpSndQueuelen := by
        simpa [sndSpace, hb] using hroom
      obtain ⟨hl, taken⟩ := hw.takes p b hp hb room queue
      have wrote := tnTcpWriteSome_space (c := w1.callOf m) buf (by rw [pcbs, hb]) room hl (by rw [answer, taken]) hlen
      have queued : 0 < (sendLoop i (w1.callOf m) buf none len (len + 1) w1 0).2.1 := by
        unfold sendLoop
        rw [slots, hp]
        dsimp only
        rw [some_bytes, Option.map_none, if_pos wrote]
        split
        · exact wrote
        · split
          · exact Nat.lt_of_lt_of_le wrote (le_sendLoop ..)
          · exact wrote
      simpa using (answers_sendFinish queued _).1
    | false =>
      have blocked : ∀ b, w1.tcpPcbs p = some b → 0 < b.sndBuf →
          b.listen = false ∧ w1.ask.err = .mem := by
        intro b hb room
        rw [pcbs] at hb
        have queue : tcpSndQueuelen ≤ b.sndQueuelen := by
          simpa [sndSpace, hb, room] using hroom
        obtain ⟨hl, refused⟩ := hw.full p b hp hb room queue
        exact ⟨hl, by rw [answer, refused]⟩
      obtain ⟨nothing, same⟩ := tnTcpWriteSome_full (c := w1.callOf m) blocked hlen
      have loop : sendLoop i (w1.callOf m) buf none len (len + 1) w1 0 =
          tnTcpWriteSome p (w1.callOf m) buf len len w1 none 0 := by
        unfold sendLoop
        rw [slots, hp]
        dsimp only
        rw [some_bytes, Option.map_none, nothing]
        rfl
      rw [loop, nothing]
      unfold sendFinish
      rw [same, slots, hp]
      simp

end Stream

/-- `tn_select_can_write` of a stream. -/
theorem canWrite_stream (hu : (w.sockets i).inUse = true) (hk : (w.sockets i).type = sockStream) :
    tnSelectCanWrite w (w.sockets i) = true ↔ (w.sockets i).tcpState = .error ∨
      ((w.sockets i).tcpState = .established ∨ (w.sockets i).tcpState = .peerClosed) ∧
        ((w.sockets i).shutWr = true ∨ ∃ p, (w.sockets i).tcpPcb = some p ∧
          ((w.sockets i).pending .send).isNone ∧ sndSpace (w.tcpPcbs p) = true) := by
  unfold tnSelectCanWrite
  cases (w.sockets i).tcpPcb <;> simp [hu, hk, sockStream, sockDgram, sockRaw]

/-- A slot is writable when `SEND` has an answer, unless it is one of those missed. -/
theorem canWrite_iff_send (hu : (w.sockets i).inUse = true)
    (hk : (w.sockets i).type = sockStream ∨ (w.sockets i).type = sockDgram ∨
      (w.sockets i).type = sockRaw)
    (hw : WritesAsSaid w i) (ha : AsksNow (w.sockets i) x) :
    (tnSelectCanWrite w (w.sockets i) = true ↔
      Answers m (tnIpcCmdSend (asking w m x) m (some i)) ∧
        ((w.sockets i).tcpState = .connecting →
          recvResult m (tnIpcCmdSend (asking w m x) m (some i)) ≠ .error .enotconn)) ↔
      ¬ WriteMissed (w.sockets i) := by
  rw [writeMissed_iff]
  rcases hk with hk | hk
  · obtain ⟨f, hb, hl⟩ := ha.buffer
    rw [tnIpcCmdSend_now hb hl, if_pos hk, canWrite_stream hu hk]
    by_cases refused : (w.sockets i).shutWr = true ∨ (w.sockets i).tcpPcb = none ∨
        ¬ ((w.sockets i).tcpState = .established ∨ (w.sockets i).tcpState = .peerClosed)
    · obtain ⟨w', hw'⟩ := tnTcpSendStream_refused (w := asking w m x) (m := m)
        refused
      rw [hw', answers_fail, fail, recvResult_done, show (asking w m x).sockets = w.sockets from rfl]
      cases hs : (w.sockets i).shutWr with
      | true => cases ht : (w.sockets i).tcpState <;> simp [hk]
      | false =>
        have detached : (w.sockets i).tcpState = .established ∨
            (w.sockets i).tcpState = .peerClosed → (w.sockets i).tcpPcb = none := fun ht =>
          (refused.resolve_left (by simp [hs])).resolve_right (not_not.mpr ht)
        cases ht : (w.sockets i).tcpState with
        | error => by_cases he : (w.sockets i).lastError = .ok <;> simp [hk, he]
        | established => simp [hk, detached (.inl ht)]
        | peerClosed => simp [hk, detached (.inr ht)]
        | _ => simp [hk]
    · push Not at refused
      obtain ⟨hs, hp, ht⟩ := refused
      obtain ⟨p, hp⟩ := Option.ne_none_iff_exists'.mp hp
      have len_pos : 0 < (x.args 1).toNat := by
        have := ha.len
        omega
      rw [answers_tnTcpSendStream hw (by simpa using hs) ht hp len_pos ha.now]
      rcases ht with ht | ht <;> simp [hk, hs, hp, ht]
  · have dgram : (w.sockets i).type ≠ sockStream := by
      rcases hk with hk | hk <;> (rw [hk]; decide)
    obtain ⟨answers, connected⟩ := sends_dgram (m := m) hk ha
    have writable : tnSelectCanWrite w (w.sockets i) = true := by
      unfold tnSelectCanWrite
      rcases hk with hk | hk <;> simp [hu, hk]
    simp [writable, answers, connected, dgram]

/-- lwIP accepts every write to a pcb with an empty segment queue. -/
theorem writesAsSaid_idle {p : PcbId} (hp : (w.sockets i).tcpPcb = some p)
    (hc : (w.tcpPcbs p).map (fun c => (c.listen, c.sndQueuelen)) = some (false, 0))
    (ha : w.ask.err = .ok) : WritesAsSaid w i := by
  have pcb : ∀ q c, (w.sockets i).tcpPcb = some q → w.tcpPcbs q = some c →
      c.listen = false ∧ c.sndQueuelen = 0 := by
    intro q c hq hqc
    obtain rfl : p = q := Option.some.inj (hp.symm.trans hq)
    rw [hqc] at hc
    exact Prod.ext_iff.mp (Option.some.inj hc)
  constructor
  · intro q c hq hqc _ _
    exact ⟨(pcb q c hq hqc).1, ha⟩
  · intro q c hq hqc _ full
    rw [(pcb q c hq hqc).2] at full
    exact absurd full (by decide)

/-- The client gives up reading from its connection. -/
def shutMsg : TnIpcMsg := { cmd := .shutdown, socketBase := some 1 }

def shutClient : World := step streamClient (.ipc 1 shutMsg [])

end Tolunnet
