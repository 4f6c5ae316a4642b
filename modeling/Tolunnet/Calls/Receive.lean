import Tolunnet.Calls.Peek

/-!
# `Tolunnet.Calls.Receive`: three calls, one operation

`RECV`, `RECVFROM` and `RECVMSG` with one iovec are three handlers for reading a stream into a buffer.
`outcome` is what the caller and the slot get of one of them. As long as a read stays within one
packet the three have the same outcome, with one exception: after a connection error `RECV` and
`RECVFROM` report the stored error once, and `RECVMSG` neither reports it nor takes it.
-/

set_option autoImplicit false

namespace Tolunnet

open World Tiling

/-! ## Outcomes -/

/-- What a receiving call tells the client. The end of a stream is a count of 0. -/
inductive RecvResult where
  | count (n : Int)
  | error (e : Errno)
  | parked
  deriving DecidableEq, Repr

/-- The class of a result: bytes, the end of the stream, an error, or parked. -/
def RecvResult.kind : RecvResult → RecvResult
  | .count n => .count (if n = 0 then 0 else 1)
  | r => r

/-- The result of a handler's run. -/
def recvResult (m : MsgId) (r : World × TnIpcReplyAction) : RecvResult :=
  match r.2 with
  | .defer => .parked
  | .replyNow =>
    if (r.1.msgs m).errNo = .ok then .count (r.1.msgs m).result else .error (r.1.msgs m).errNo

/-- The result and the slot it leaves. -/
def outcome (m : MsgId) (i : SlotIdx) (r : World × TnIpcReplyAction) : RecvResult × TnSocketSlot :=
  (recvResult m r, r.1.sockets i)

/-- The state in which message `m` is `x`. -/
def asking (w : World) (m : MsgId) (x : TnIpcMsg) : World :=
  { w with msgs := Function.update w.msgs m x }

/-- The three ways to ask for `len` bytes in a buffer. -/
inductive OneOf (f : Mem) (len : Nat) (flags : Int) (x : TnIpcMsg) : Prop where
  | buffer (hc : x.cmd = .recv ∨ x.cmd = .recvfrom) (hb : x.ptrs 0 = .mem f) (hl : x.args 1 = len)
      (hf : x.args 2 = flags)
  | iovec (h : Msghdr) (hc : x.cmd = .recvmsg) (hb : x.ptrs 0 = .msghdr h)
      (hi : h.msgIov = some [{ iovBase := some f, iovLen := len }]) (hf : x.args 1 = flags)

/-- A read that gets no further than its first packet. -/
def OneSegment (s : TnSocketSlot) (len : Nat) (flags : Int) : Prop :=
  hasFlag flags msgPeek = true ∨
    ∀ pkt rest, s.rx = pkt :: rest → len ≤ pkt.rest.length ∨ rest = []

/-- The three calls agree: on result and slot within one packet, and on the class of the result
beyond it. -/
def OneOperation (w : World) (m : MsgId) (i : SlotIdx) (f : Mem) (len : Nat) (flags : Int) : Prop :=
  ∀ x x', OneOf f len flags x → OneOf f len flags x' →
    (OneSegment (w.sockets i) len flags →
      outcome m i (recvHandler (asking w m x) m i) = outcome m i (recvHandler (asking w m x') m i)) ∧
    (recvResult m (recvHandler (asking w m x) m i)).kind =
      (recvResult m (recvHandler (asking w m x') m i)).kind

/-- A connection error waits to be reported. -/
def ErrorWaits (s : TnSocketSlot) : Prop :=
  s.rx = [] ∧ s.shutRd = false ∧ s.tcpState = .error ∧ s.lastError ≠ .ok

variable {w w' : World} {m : MsgId} {i : SlotIdx} {f : Mem} {len : Nat} {flags : Int} {x : TnIpcMsg}

@[simp] theorem outcome_done (r : Int) (e : Errno) :
    outcome m i (done w m r e) = (if e = .ok then .count r else .error e, w.sockets i) := by
  simp [outcome, recvResult, done, World.setReply, modMsg]

@[simp] theorem outcome_fail (e : Errno) :
    outcome m i (fail w m e) = (if e = .ok then .count (-1) else .error e, w.sockets i) :=
  outcome_done _ _

@[simp] theorem recvResult_done (r : Int) (e : Errno) :
    recvResult m (done w m r e) = if e = .ok then .count r else .error e :=
  congrArg Prod.fst (outcome_done (i := 0) r e)

/-- Parking depends on the slot and the clock. -/
theorem outcome_park_congr (hs : w'.sockets = w.sockets) (ht : w'.mainloopTicks = w.mainloopTicks) :
    outcome m i (tnSlotParkRecv w' i m) = outcome m i (tnSlotParkRecv w i m) := by
  unfold tnSlotParkRecv
  rw [hs]
  cases (w.sockets i).pending .recv with
  | some m' =>
    dsimp only
    split
    · simp [outcome, recvResult, hs]
    · simp [hs]
  | none => simp [outcome, recvResult, setPending, World.modSlot, deadlineTick, hs, ht]

/-- What an empty stream does depends on the slot and the clock. -/
theorem recvStreamEmpty_congr (hs : w'.sockets = w.sockets)
    (ht : w'.mainloopTicks = w.mainloopTicks) :
    outcome m i (recvStreamEmpty w' m i flags) = outcome m i (recvStreamEmpty w m i flags) := by
  unfold recvStreamEmpty
  dsimp only
  rw [hs]
  split_ifs
  · simp [hs]
  · simp [hs]
  · simp [hs]
  · simp [hs]
  · exact outcome_park_congr hs ht

/-! ## Reading a packet -/

/-- A slot after `n` bytes were read from its first packet. -/
def readSlot (n : Nat) (s : TnSocketSlot) : TnSocketSlot :=
  match s.rx with
  | [] => s
  | pkt :: rest =>
    let s := { s with
      rx := { pkt with offset := pkt.offset + n } :: rest,
      hist := { s.hist with
        returned := s.hist.returned ++ pkt.rest.take n,
        attached := s.hist.attached + (if s.tcpPcb.isSome then n else 0),
        recved := s.hist.recved + (if s.tcpPcb.isSome then n else 0) } }
    if pkt.offset + n ≥ pkt.p.length then { s with rx := rest, rxCount := s.rxCount - 1 } else s

/-- The window that goes back shows in the history of the slot alone. -/
theorem sockets_rxWindow (n : Nat) :
    (rxWindow w i n).sockets = Function.update w.sockets i
      { w.sockets i with hist := { (w.sockets i).hist with
          recved := (w.sockets i).hist.recved + (if (w.sockets i).tcpPcb.isSome then n else 0) } } := by
  unfold rxWindow
  cases htcp : (w.sockets i).tcpPcb with
  | none => exact (Function.update_eq_self i w.sockets).symm
  | some p => simp [tcpRecvedFor, tcpRecved, readFull, World.modSlot]

theorem sockets_rxConsume {pkt : TnRxPacket} {rest : List TnRxPacket} (n : Nat)
    (hrx : (w.sockets i).rx = pkt :: rest) :
    (rxConsume w i n).sockets = Function.update w.sockets i (readSlot n (w.sockets i)) := by
  unfold rxConsume rxUnlink readSlot
  simp only [World.modSlot, sockets_rxWindow, rxAdvance, hrx, Function.update_self,
    Function.update_idem]

/-- A read of nothing leaves a packet that has something to give where it is. -/
theorem readSlot_zero (s : TnSocketSlot) (hok : RxOk sockStream s.rx) : readSlot 0 s = s := by
  unfold readSlot
  split
  · rfl
  · rename_i pkt rest hrx
    have unread := hok.stream rfl pkt (by rw [hrx]; exact List.mem_cons_self ..)
    rw [if_neg (by omega)]
    simp [← hrx]

/-! ## `RECV` and `RECVFROM` -/

/-- What `RECV` does with a stream: `len` is within 16 bits. -/
theorem outcome_recvStream_data {pkt : TnRxPacket} {rest : List TnRxPacket}
    (hrx : (w.sockets i).rx = pkt :: rest) (hw : ∀ pkt ∈ rest, pkt.offset = 0) (hl : len ≤ 0xFFFF) :
    outcome m i (recvStream w m i len flags) =
      if hasFlag flags msgPeek then
        (.count (min (rxBytes (pkt :: rest)).length len : Nat), w.sockets i)
      else (.count (min pkt.rest.length len : Nat), readSlot (min pkt.rest.length len) (w.sockets i)) := by
  have clip : clip16 len = len := Nat.min_eq_left hl
  have segs : (peekSegs (pkt :: rest)).flatten = rxBytes (pkt :: rest) := by
    rw [peekSegs_eq (q := pkt :: rest) hw]
    rfl
  unfold recvStream
  simp only [hrx, clip, segs]
  split
  · rw [outcome_done, List.length_take, Nat.min_comm]
    rfl
  · rw [outcome_done, sockets_rxConsume _ (by exact hrx),
      Function.update_self]
    rfl

/-- Without data it reports an error that waits, and is otherwise an empty stream. -/
theorem outcome_recvStream_empty (hrx : (w.sockets i).rx = [])
    (he : ¬ ErrorWaits (w.sockets i)) :
    outcome m i (recvStream w m i len flags) = outcome m i (recvStreamEmpty w m i flags) := by
  unfold recvStream
  simp only [hrx]
  split
  · rename_i herr
    have told : (w.sockets i).lastError = .ok := by
      by_contra hne
      exact he ⟨hrx, by simpa using herr.1, herr.2, hne⟩
    have same : (w.modSlot i fun s => { s with lastError := .ok }).sockets i = w.sockets i := by
      simp only [World.modSlot, Function.update_self]
      rw [← told]
    have open_read : ¬ ((w.sockets i).shutRd = true ∨ (w.sockets i).tcpState = .peerClosed) := by
      simp [herr.1, herr.2]
    unfold recvStreamEmpty
    dsimp only
    rw [if_neg open_read, if_pos herr.2, outcome_fail, outcome_fail, same, if_neg (not_not.mpr told)]
  · rfl

theorem outcome_storeFromlen (r : World × TnIpcReplyAction) :
    outcome m i (storeFromlen r m) = outcome m i r := by
  unfold storeFromlen
  split
  · split
    · split <;> rfl
    · rfl
  · rfl

@[simp] theorem msgs_asking : (asking w m x).msgs m = x := Function.update_self ..

/-- `RECV` and `RECVFROM` without `MSG_OOB`. -/
theorem outcome_buffer (hk : (w.sockets i).type = sockStream)
    (hc : x.cmd = .recv ∨ x.cmd = .recvfrom) (hb : x.ptrs 0 = .mem f) (hl : x.args 1 = len)
    (hf : x.args 2 = flags) (ho : hasFlag flags msgOob = false) :
    outcome m i (recvHandler (asking w m x) m i) =
      outcome m i (recvStream (asking w m x) m i len flags) := by
  have recv : tnIpcCmdRecv (asking w m x) m (some i) = recvStream (asking w m x) m i len flags := by
    rw [tnIpcCmdRecv_stream (f := f) (by simpa using hb) (by simpa using hl) (by simpa [hf] using ho)
      (by exact hk), msgs_asking, hf]
  unfold recvHandler
  rw [msgs_asking]
  rcases hc with hc | hc
  · rw [hc]
    dsimp only
    rw [recv]
  · rw [hc]
    dsimp only
    unfold tnIpcCmdRecvfrom
    have nonneg : ¬ ((len : Int) < 0) := by omega
    simp only [msgs_asking, hb, Ptr.mem?, hl, nonneg, if_false, hf, ho, Bool.false_eq_true, recv]
    rw [if_pos (by exact hk)]
    exact outcome_storeFromlen _

/-! ## `RECVMSG` with one iovec -/

section Iovec

variable {h : Msghdr}

/-- The array of one entry. -/
def oneIov (f : Mem) (len : Nat) : List Iovec := [{ iovBase := some f, iovLen := len }]

@[simp] theorem iovRoom_oneIov : iovRoom (oneIov f len) = len := by
  simp [iovRoom, iovLens, oneIov]

theorem asksRecvmsg_oneIov (hb : x.ptrs 0 = .msghdr h) (hi : h.msgIov = some (oneIov f len))
    (hf : x.args 1 = flags) (ho : hasFlag flags msgOob = false) :
    AsksRecvmsg (asking w m x) m h (oneIov f len) :=
  ⟨by simpa using hb, hi, ⟨by simp [oneIov], by simp [oneIov]⟩, by simp [oneIov],
    by simpa [hf] using ho⟩

/-- The consuming loop stops when the array is full or the queue is empty. -/
theorem recvmsgTake_stop {iovs : List Iovec} {mark fuel copied : Nat} {pos : IovPos}
    (hs : (w.sockets i).rx = [] ∨ mark ≤ copied) :
    recvmsgTake iovs mark m i fuel w pos copied = (w, copied) := by
  cases fuel with
  | zero => rfl
  | succ fuel =>
    unfold recvmsgTake
    split
    · rfl
    · rename_i pkt rest hrx
      have full : mark ≤ copied := hs.resolve_left (by simp [hrx])
      rw [if_neg (by omega)]

/-- A read that stays within the first packet is one turn of the loop. -/
theorem recvmsgTake_oneIov {pkt : TnRxPacket} {rest : List TnRxPacket}
    (hrx : (w.sockets i).rx = pkt :: rest) (hpos : 0 < pkt.rest.length)
    (hseg : len ≤ pkt.rest.length ∨ rest = []) (fuel : Nat) {r : World × Nat}
    (hr : recvmsgTake (oneIov f len) len m i (fuel + 1) w {} 0 = r) :
    r.2 = min pkt.rest.length len ∧
      (r.1.sockets i) = if len = 0 then w.sockets i
        else readSlot (min pkt.rest.length len) (w.sockets i) := by
  rcases Nat.eq_zero_or_pos len with rfl | hlen
  · rw [recvmsgTake_stop (.inr (Nat.le_refl _))] at hr
    subst hr
    exact ⟨by simp, by rw [if_pos rfl]⟩
  · have start : IovPos.Within (oneIov f len) {} := .start
    have count := chunksLen_scatterAll start pkt.rest.length
    rw [IovPos.place_start, iovRoom_oneIov, Nat.sub_zero] at count
    rw [recvmsgTake_succ fuel hrx ⟨by simp [oneIov], hlen⟩] at hr
    generalize scatterAll (oneIov f len) {} pkt.rest.length = s at count hr
    rw [count, Nat.zero_add] at hr
    obtain ⟨c, hc⟩ : ∃ c, c = min pkt.rest.length len := ⟨_, rfl⟩
    rw [← hc] at hr ⊢
    have c_pos : 0 < c := by omega
    have stored : (storeChunks w m pkt.rest s.1).sockets = w.sockets := by rw [storeChunks_eq]
    -- one turn of the loop is one read, after which the queue is empty or the array full
    have turn : (rxTake (storeChunks w m pkt.rest s.1) i c).sockets =
        Function.update w.sockets i (readSlot c (w.sockets i)) := by
      rw [← stored, ← sockets_rxConsume c (by rw [stored]; exact hrx)]
      unfold rxTake rxConsume
      rw [if_pos c_pos]
    have stop : ((rxTake (storeChunks w m pkt.rest s.1) i c).sockets i).rx = [] ∨ len ≤ c := by
      rcases Nat.le_total len pkt.rest.length with short | long
      · exact .inr (by omega)
      · rw [rx_rxTake (by rw [stored]; exact hrx), eat_all (by omega)]
        exact (hseg.imp_left fun _ => by omega).symm
    rw [recvmsgTake_stop stop] at hr
    subst hr
    exact ⟨rfl, by rw [turn, Function.update_self, if_neg (by omega)]⟩

/-- `RECVMSG` of a stream that has data, within one packet. -/
theorem outcome_iovec_data (hk : (w.sockets i).type = sockStream)
    (hok : RxOk sockStream (w.sockets i).rx) (hc : x.cmd = .recvmsg) (hb : x.ptrs 0 = .msghdr h)
    (hi : h.msgIov = some (oneIov f len)) (hf : x.args 1 = flags) (ho : hasFlag flags msgOob = false)
    (hl : len ≤ 0xFFFF) {pkt : TnRxPacket} {rest : List TnRxPacket}
    (hrx : (w.sockets i).rx = pkt :: rest) (hseg : OneSegment (w.sockets i) len flags) :
    outcome m i (recvHandler (asking w m x) m i) =
      if hasFlag flags msgPeek then
        (.count (min (rxBytes (pkt :: rest)).length len : Nat), w.sockets i)
      else (.count (min pkt.rest.length len : Nat), readSlot (min pkt.rest.length len) (w.sockets i)) := by
  have asks := asksRecvmsg_oneIov (w := w) (m := m) hb hi hf ho
  have small : len % 2 ^ 32 = len := Nat.mod_eq_of_lt (by omega)
  have flag : ((asking w m x).msgs m).args 1 = flags := by rw [msgs_asking, hf]
  have slots := sockets_clearHeader (w := asking w m x) (m := m) (h := h)
  have handled : recvHandler (asking w m x) m i =
      recvmsgStream (clearHeader (asking w m x) m h) m i h (oneIov f len) flags := by
    unfold recvHandler
    rw [msgs_asking, hc]
    dsimp only
    rw [asks.handled, if_pos (by exact hk), flag]
  rw [handled]
  generalize clearHeader (asking w m x) m h = w1 at slots
  obtain ⟨r, hr⟩ : ∃ r, (if hasFlag flags msgPeek then
      recvmsgPeek (oneIov f len) len m w1 (peekSegs (w1.sockets i).rx) {} 0
      else recvmsgTake (oneIov f len) len m i (w1.sockets i).rx.length w1 {} 0) = r := ⟨_, rfl⟩
  have slots : w1.sockets = w.sockets := slots
  rw [recvmsgStream_data (h := h) (by rw [iovRoom_oneIov, small]) rfl
    (by rw [slots, hrx]; simp) hr, outcome_done, if_pos rfl]
  have named : (if h.msgName.isSome then r.1.store m 0 4 (bytes32 0) else r.1).sockets = r.1.sockets := by
    split <;> rfl
  rw [named]
  split
  · rename_i peek
    obtain ⟨num, peeked, -⟩ := recvmsgLoop_spec len true (w := w1)
      (show len ≤ iovRoom (oneIov f len) by simp) (by rw [slots]; exact hok.whole) (r := r)
      (by rw [if_pos peek] at hr; simpa using hr)
    have full := (poured_eq_iff (l := (w.sockets i).rx.map fun pkt => pkt.rest.length)
      (Nat.mod_le len (2 ^ 32)) (Nat.zero_le len)).mpr (belowMark_of_lt (by omega))
    rw [small, Nat.zero_add, ← length_rxBytes] at full
    rw [(peeked rfl).1, slots, num, slots, iovRoom_oneIov, full, hrx]
  · rename_i peek
    rw [if_neg peek, slots, hrx] at hr
    have head := rest_pos (by rw [← hrx]; exact hok)
    have one := hseg.resolve_left peek pkt rest hrx
    obtain ⟨num, slot⟩ := recvmsgTake_oneIov (by rw [slots]; exact hrx) head one _ hr
    rw [num, slot, slots]
    split
    · rename_i zero
      rw [zero, Nat.min_zero, readSlot_zero _ hok]
    · rfl

/-- `RECVMSG` of a stream without data. -/
theorem outcome_iovec_empty (hk : (w.sockets i).type = sockStream) (hc : x.cmd = .recvmsg)
    (hb : x.ptrs 0 = .msghdr h) (hi : h.msgIov = some (oneIov f len)) (hf : x.args 1 = flags)
    (ho : hasFlag flags msgOob = false) (hrx : (w.sockets i).rx = []) :
    outcome m i (recvHandler (asking w m x) m i) = outcome m i (recvStreamEmpty w m i flags) := by
  have asks := asksRecvmsg_oneIov (w := w) (m := m) hb hi hf ho
  have flag : ((asking w m x).msgs m).args 1 = flags := by rw [msgs_asking, hf]
  have slots : (clearHeader (asking w m x) m h).sockets = w.sockets := sockets_clearHeader
  have clock : (clearHeader (asking w m x) m h).mainloopTicks = w.mainloopTicks := by
    unfold clearHeader
    split <;> rfl
  unfold recvHandler
  rw [msgs_asking, hc]
  dsimp only
  rw [asks.handled, if_pos (by exact hk), flag]
  generalize clearHeader (asking w m x) m h = w1 at slots clock
  unfold recvmsgStream
  simp only [slots, hrx, ne_eq, not_true_eq_false, if_false]
  split
  · rename_i eof
    unfold recvStreamEmpty
    dsimp only
    have named : (if h.msgName.isSome then w1.store m 0 4 (bytes32 0) else w1).sockets = w.sockets := by
      split <;> exact slots
    rw [if_pos eof, outcome_done, outcome_done, named]
  · exact recvStreamEmpty_congr slots clock

end Iovec

/-! ## The three together -/

/-- The outcome that the three calls share. -/
def readOutcome (w : World) (m : MsgId) (i : SlotIdx) (len : Nat) (flags : Int) :
    RecvResult × TnSocketSlot :=
  let s := w.sockets i
  if hasFlag flags msgOob then (.error .eopnotsupp, s)
  else
    match s.rx with
    | pkt :: rest =>
      if hasFlag flags msgPeek then (.count (min (rxBytes (pkt :: rest)).length len : Nat), s)
      else (.count (min pkt.rest.length len : Nat), readSlot (min pkt.rest.length len) s)
    | [] => outcome m i (recvStreamEmpty w m i flags)

/-- `MSG_OOB` is refused by all. -/
theorem outcome_oob (ho : hasFlag flags msgOob = true) (hx : OneOf f len flags x) :
    outcome m i (recvHandler (asking w m x) m i) = (.error .eopnotsupp, w.sockets i) := by
  unfold recvHandler
  rw [msgs_asking]
  cases hx with
  | buffer hc hb hl hf =>
    have nonneg : ¬ ((len : Int) < 0) := by omega
    rcases hc with hc | hc
    · rw [hc]
      dsimp only
      unfold tnIpcCmdRecv
      simp only [msgs_asking, hb, Ptr.mem?, hl, nonneg, if_false, hf, ho, if_true]
      exact outcome_fail _
    · rw [hc]
      dsimp only
      unfold tnIpcCmdRecvfrom
      simp only [msgs_asking, hb, Ptr.mem?, hl, nonneg, if_false, hf, ho, if_true]
      exact outcome_fail _
  | iovec h hc hb hi hf =>
    rw [hc]
    dsimp only
    unfold tnIpcCmdRecvmsg
    simp only [msgs_asking, hb, hf, ho, if_true]
    exact outcome_fail _

/-- `RECV` and `RECVFROM` always have that outcome, unless an error waits. -/
theorem outcome_buffer_eq (hk : (w.sockets i).type = sockStream)
    (hok : RxOk sockStream (w.sockets i).rx) (hl : len ≤ 0xFFFF)
    (ho : hasFlag flags msgOob = false) (he : ¬ ErrorWaits (w.sockets i))
    (hc : x.cmd = .recv ∨ x.cmd = .recvfrom) (hb : x.ptrs 0 = .mem f) (hx : x.args 1 = len)
    (hf : x.args 2 = flags) :
    outcome m i (recvHandler (asking w m x) m i) = readOutcome w m i len flags := by
  rw [outcome_buffer hk hc hb hx hf ho]
  unfold readOutcome
  simp only [ho, Bool.false_eq_true, if_false]
  split
  · rename_i pkt rest hrx
    rw [outcome_recvStream_data (w := asking w m x) hrx (by rw [hrx] at hok; exact hok.whole) hl]
    rfl
  · rename_i hrx
    rw [outcome_recvStream_empty (w := asking w m x) hrx he]
    exact recvStreamEmpty_congr rfl rfl

/-- `RECVMSG` has it within one packet. -/
theorem outcome_iovec_eq (hk : (w.sockets i).type = sockStream)
    (hok : RxOk sockStream (w.sockets i).rx) (hl : len ≤ 0xFFFF)
    (ho : hasFlag flags msgOob = false) (hseg : OneSegment (w.sockets i) len flags) {h : Msghdr}
    (hc : x.cmd = .recvmsg) (hb : x.ptrs 0 = .msghdr h) (hi : h.msgIov = some (oneIov f len))
    (hf : x.args 1 = flags) :
    outcome m i (recvHandler (asking w m x) m i) = readOutcome w m i len flags := by
  unfold readOutcome
  simp only [ho, Bool.false_eq_true, if_false]
  split
  · rename_i pkt rest hrx
    exact outcome_iovec_data hk hok hc hb hi hf ho hl hrx hseg
  · rename_i hrx
    exact outcome_iovec_empty hk hc hb hi hf ho hrx

/-- Beyond the first packet it still hands out bytes, as `RECV` does. -/
theorem kind_iovec_beyond (hk : (w.sockets i).type = sockStream)
    (hok : RxOk sockStream (w.sockets i).rx) (hl : len ≤ 0xFFFF)
    (ho : hasFlag flags msgOob = false) (hseg : ¬ OneSegment (w.sockets i) len flags) {h : Msghdr}
    (hc : x.cmd = .recvmsg) (hb : x.ptrs 0 = .msghdr h) (hi : h.msgIov = some (oneIov f len))
    (hf : x.args 1 = flags) :
    (recvResult m (recvHandler (asking w m x) m i)).kind = .count 1 ∧
      (readOutcome w m i len flags).1.kind = .count 1 := by
  have asks := asksRecvmsg_oneIov (w := w) (m := m) hb hi hf ho
  unfold OneSegment at hseg
  push Not at hseg
  obtain ⟨peek, pkt, rest, hrx, beyond, more⟩ := hseg
  have head := rest_pos (by rw [← hrx]; exact hok)
  have reply := recvmsg_reply (w := asking w m x) (i := i) asks hok hk (by
    show (w.sockets i).rx ≠ []
    rw [hrx]
    simp)
  have full := (poured_eq_iff (l := (w.sockets i).rx.map fun pkt => pkt.rest.length)
    (Nat.mod_le len (2 ^ 32)) (Nat.zero_le len)).mpr (belowMark_of_lt (by omega))
  rw [Nat.zero_add, ← length_rxBytes] at full
  rw [iovRoom_oneIov, show (asking w m x).sockets = w.sockets from rfl, full] at reply
  constructor
  · have handled : recvHandler (asking w m x) m i = tnIpcCmdRecvmsg (asking w m x) m (some i) := by
      unfold recvHandler
      rw [msgs_asking, hc]
    rw [handled, recvResult, reply.returned.now]
    dsimp only
    have some_read : 0 < ((rxBytes (w.sockets i).rx).take
        (min (rxBytes (w.sockets i).rx).length len)).length := by
      rw [List.length_take, hrx, rxBytes_cons, List.length_append]
      omega
    rw [if_pos reply.returned.ok, reply.returned.count, RecvResult.kind, if_neg]
    exact_mod_cast some_read.ne'
  · unfold readOutcome
    simp only [ho, Bool.false_eq_true, if_false, hrx, peek, RecvResult.kind]
    rw [if_neg (by omega)]

/-- An error that waits is taken by `RECV` and left by `RECVMSG`. -/
theorem outcome_errorWaits (hk : (w.sockets i).type = sockStream)
    (ho : hasFlag flags msgOob = false) (he : ErrorWaits (w.sockets i)) :
    (∀ x, x.cmd = .recv → x.ptrs 0 = .mem f → x.args 1 = (len : Int) → x.args 2 = flags →
      (outcome m i (recvHandler (asking w m x) m i)).2.lastError = .ok) ∧
    ∀ x h, x.cmd = .recvmsg → x.ptrs 0 = .msghdr h → h.msgIov = some (oneIov f len) →
      x.args 1 = flags →
      (outcome m i (recvHandler (asking w m x) m i)).2.lastError = (w.sockets i).lastError := by
  obtain ⟨hrx, hs, herr, -⟩ := he
  constructor
  · intro x hc hb hl hf
    rw [outcome_buffer hk (.inl hc) hb hl hf ho]
    unfold recvStream
    simp [asking, hrx, hs, herr, World.modSlot]
  · intro x h hc hb hi hf
    rw [outcome_iovec_empty hk hc hb hi hf ho hrx]
    unfold recvStreamEmpty
    simp [hs, herr]

/-- The requests as `recv` and `recvmsg` send them for descriptor 0. -/
def bufferMsg (f : Mem) (len : Nat) (flags : Int) : TnIpcMsg :=
  { cmd := .recv, socketBase := some 1,
    args := fun k => if k = 1 then len else if k = 2 then flags else 0, ptrs := fun _ => .mem f }

def iovecMsg (f : Mem) (len : Nat) (flags : Int) : TnIpcMsg :=
  { cmd := .recvmsg, socketBase := some 1, args := fun k => if k = 1 then flags else 0,
    ptrs := fun _ => .msghdr { msgIov := some (oneIov f len) } }

/-- `RECV`, `RECVFROM` and `RECVMSG` are one operation on a stream if and only if no connection
error waits to be reported, for every length of 16 bits and all flags. (With `MSG_OOB` all three are
refused before.) -/
theorem oneOperation_iff (hok : (shelf w).Ok) (hk : (w.sockets i).type = sockStream)
    (hl : len ≤ 0xFFFF) :
    OneOperation w m i f len flags ↔
      ¬ (ErrorWaits (w.sockets i) ∧ hasFlag flags msgOob = false) := by
  have queue : RxOk sockStream (w.sockets i).rx := by
    rw [← hk]
    exact (hok.slot i).rx
  constructor
  · rintro one ⟨he, ho⟩
    obtain ⟨taken, left⟩ := outcome_errorWaits (m := m) (f := f) hk ho he
    -- an empty queue counts as one segment, so the two forms must agree; they do not, the first
    -- takes the error
    have segment : OneSegment (w.sockets i) len flags := .inr fun pkt rest h => by
      rw [he.1] at h
      cases h
    have same := (one (bufferMsg f len flags) (iovecMsg f len flags)
      (.buffer (.inl rfl) rfl rfl rfl) (.iovec _ rfl rfl rfl rfl)).1 segment
    have first := taken (bufferMsg f len flags) rfl rfl rfl rfl
    have second := left (iovecMsg f len flags) _ rfl rfl rfl rfl
    rw [same, second] at first
    exact he.2.2.2 first
  -- each form gives the usual outcome, hence the two are alike
  · intro he
    have each : ∀ x, OneOf f len flags x →
        (OneSegment (w.sockets i) len flags →
          outcome m i (recvHandler (asking w m x) m i) = readOutcome w m i len flags) ∧
        (recvResult m (recvHandler (asking w m x) m i)).kind =
          (readOutcome w m i len flags).1.kind := by
      intro x hx
      cases ho : hasFlag flags msgOob with
      | true =>
        have refused := outcome_oob (w := w) (m := m) (i := i) ho hx
        have usual : readOutcome w m i len flags = (.error .eopnotsupp, w.sockets i) := by
          simp [readOutcome, ho]
        rw [← usual] at refused
        exact ⟨fun _ => refused, congrArg RecvResult.kind (congrArg Prod.fst refused)⟩
      | false =>
        have no_error : ¬ ErrorWaits (w.sockets i) := fun h => he ⟨h, ho⟩
        cases hx with
        | buffer hc hb hx hf =>
          have same := outcome_buffer_eq (m := m) hk queue hl ho no_error hc hb hx hf
          exact ⟨fun _ => same, congrArg RecvResult.kind (congrArg Prod.fst same)⟩
        | iovec h hc hb hi hf =>
          have within := fun hseg => outcome_iovec_eq (m := m) hk queue hl ho hseg hc hb hi hf
          refine ⟨within, ?_⟩
          by_cases hseg : OneSegment (w.sockets i) len flags
          · exact congrArg RecvResult.kind (congrArg Prod.fst (within hseg))
          · obtain ⟨h1, h2⟩ := kind_iovec_beyond (m := m) hk queue hl ho hseg hc hb hi hf
            rw [h1, h2]
    intro x x' hx hx'
    obtain ⟨same, kind⟩ := each x hx
    obtain ⟨same', kind'⟩ := each x' hx'
    exact ⟨fun hseg => (same hseg).trans (same' hseg).symm, kind.trans kind'.symm⟩

/-- Four bytes of two that have come: the three calls take both. -/
theorem oneOperation_iff_fed : OneOperation (fed [7, 8]) 1 0 (fun _ => 0) 4 0 :=
  (oneOperation_iff (fed_reach [7, 8]).shelf_ok (by decide) (by decide)).mpr fun h =>
    absurd h.1.1 (by decide)

/-- lwIP has aborted the connection of the client. -/
def aborted : World := step streamClient (.lwip [.err 1 .abrt] [])

/-- `RECV` says so, and `RECVMSG` speaks of a reset. -/
theorem not_forall_oneOperation :
    ¬ ∀ w, Reachable w → ∀ m i f len flags, (w.sockets i).type = sockStream → len ≤ 0xFFFF →
      OneOperation w m i f len flags := by
  intro hall
  have reached : Reachable aborted := .step streamClient_reach trivial trivial
  have kinds := (hall _ reached 1 0 (fun _ => 0) 4 0 (by decide) (by decide)
    (bufferMsg (fun _ => 0) 4 0) (iovecMsg (fun _ => 0) 4 0)
    (.buffer (.inl rfl) rfl rfl rfl) (.iovec _ rfl rfl rfl rfl)).2
  exact absurd kinds (by decide)

end Tolunnet
