import Tolunnet.Task.Dgram

/-!
# `Tolunnet.Calls.Senders`: three ways to send a datagram

`send`, `sendto` and `sendmsg` each have a UDP and a raw branch, six copies of one path. `Meets`
says what the path is to do: the refusals in their order, and the datagram that lwIP is handed.
`agree_iff` says when all three do that. The UDP copies always do. The raw copies of `sendto` and
`sendmsg` lack checks that the one of `send` has, and cut a long payload to 65535 bytes.
-/

set_option autoImplicit false

namespace Tolunnet

open World

namespace Senders

variable {w : World} {m : MsgId} {i : SlotIdx} {bytes : List UInt8} {sa : Option Mem}

/-! ## The specification -/

/-- What a slot sends datagrams with. -/
structure Outlet where
  pcb : PcbId
  remote : Nat × Nat
  connected : Bool
  limit : Nat
  /-- A raw pcb has no ports. -/
  ports : Bool

/-- UDP pcb `p`; 28 of the 65535 bytes are headers. -/
def udpOutlet (w : World) (p : PcbId) : Outlet :=
  { pcb := p
    remote := remoteOf (w.udpPcbs p)
    connected := udpConnected (w.udpPcbs p)
    limit := 65507
    ports := true }

/-- Raw pcb `p`. -/
def rawOutlet (w : World) (p : PcbId) : Outlet :=
  { pcb := p
    remote := remoteOf (w.rawPcbs p)
    connected := decide ((remoteOf (w.rawPcbs p)).1 ≠ 0)
    limit := 65535
    ports := false }

/-- The UDP or raw pcb of a slot. -/
def outlet (w : World) (i : SlotIdx) : Option Outlet :=
  if (w.sockets i).type = sockDgram then (w.sockets i).udpPcb.map (udpOutlet w)
  else if (w.sockets i).type = sockRaw then (w.sockets i).rawPcb.map (rawOutlet w)
  else none

/-- The refusal of a payload of `len` bytes, if it is refused. -/
def refusal (o : Outlet) (sa : Option Mem) (len : Nat) : Option Errno :=
  if sa.isSome ∧ o.connected then some .eisconn
  else if sa = none ∧ ¬ o.connected then some .edestaddrreq
  else if len > o.limit then some .emsgsize
  else none

/-- Where a datagram goes. -/
def destination (o : Outlet) (sa : Option Mem) : Nat × Nat :=
  let dst := match sa with
    | some sin => ((tnSockinLoadBytes sin).addr, (tnSockinLoadBytes sin).port)
    | none => o.remote
  if o.ports then dst else (dst.1, 0)

/-- lwIP has been handed the datagram and has answered. -/
def handedOver (w : World) (o : Outlet) (sa : Option Mem) (bytes : List UInt8) : World :=
  (w.asked.out (.datagram o.pcb (destination o sa).1 (destination o sa).2 bytes)).asked

/-- The reply to a datagram that lwIP answered with `e`. -/
def replied (w : World) (m : MsgId) (e : ErrT) (len : Nat) : World × TnIpcReplyAction :=
  if e = .ok then done w m len .ok else fail w m (dgramErrno e)

/-- The result of one call: a refusal, or the datagram and lwIP's answer to it. Whether lwIP works
through its loopback queue before the reply is left open. -/
def Meets (w : World) (m : MsgId) (i : SlotIdx) (sa : Option Mem) (bytes : List UInt8)
    (r : World × TnIpcReplyAction) : Prop :=
  match outlet w i with
  | none => r = fail w m .eopnotsupp
  | some o =>
    match refusal o sa bytes.length with
    | some e => r = fail w m e
    | none =>
      if w.ask.ok then
        ∃ w', (w' = handedOver w o sa bytes ∨ w' = tnDrainLoopback (handedOver w o sa bytes)) ∧
          r = replied w' m w.asked.ask.err bytes.length
      else r = fail w.asked m .enobufs

/-! ## The three requests -/

/-- Message `m` of `w` is now `x`. -/
def withMsg (w : World) (m : MsgId) (x : TnIpcMsg) : World := w.modMsg m fun _ => x

/-- A `send` of these bytes. -/
structure SendReq (x : TnIpcMsg) (bytes : List UInt8) : Prop where
  buf : ∃ f, (x.ptrs 0).mem? = some f ∧ memBytes f 0 bytes.length = bytes
  len : x.args 1 = bytes.length

/-- A `sendto` of these bytes. -/
structure SendtoReq (x : TnIpcMsg) (bytes : List UInt8) (sa : Option Mem) : Prop extends
    SendReq x bytes where
  dest : (x.ptrs 1).mem? = sa

/-- The bytes of an iovec array. -/
def iovBytes (iovs : List Iovec) : List UInt8 :=
  (iovs.map fun v => memBytes (v.iovBase.getD fun _ => 0) 0 v.iovLen).flatten

/-- A `sendmsg` of these bytes: an array of 1 to 1024 entries with a total that fits the result, and
a whole address if there is one. -/
structure SendmsgReq (x : TnIpcMsg) (bytes : List UInt8) (sa : Option Mem) : Prop where
  header : ∃ h iovs, x.ptrs 0 = .msghdr h ∧ h.msgIov = some iovs ∧ iovBytes iovs = bytes ∧
    iovs ≠ [] ∧ iovs.length ≤ 1024 ∧ (∀ v ∈ iovs, 0 < v.iovLen → v.iovBase.isSome) ∧
      h.msgName = sa ∧ (sa.isSome → sizeofSockaddrIn ≤ h.msgNamelen)
  fits : bytes.length ≤ 0x7FFFFFFF

/-- One payload and destination, as the three requests carry them. -/
structure Requests (xs xt xm : TnIpcMsg) (bytes : List UInt8) (sa : Option Mem) : Prop where
  send : SendReq xs bytes
  sendto : SendtoReq xt bytes sa
  sendmsg : SendmsgReq xm bytes sa

/-- The three senders do as specified; `send` has no address. -/
def Agree (w : World) (m : MsgId) (i : SlotIdx) (sa : Option Mem) (bytes : List UInt8)
    (xs xt xm : TnIpcMsg) : Prop :=
  (sa = none → Meets (withMsg w m xs) m i sa bytes (tnIpcCmdSend (withMsg w m xs) m (some i))) ∧
    Meets (withMsg w m xt) m i sa bytes (tnIpcCmdSendto (withMsg w m xt) m (some i)) ∧
    Meets (withMsg w m xm) m i sa bytes (tnIpcCmdSendmsg (withMsg w m xm) m (some i))

/-- The slot has no pcb, or `sendmsg` is not asked for out-of-band data and a raw pcb has no reason
to refuse. -/
def Harmless (w : World) (i : SlotIdx) (sa : Option Mem) (len : Nat) (xm : TnIpcMsg) : Prop :=
  ∀ o, outlet w i = some o → hasFlag (xm.args 1) msgOob = false ∧
    (o.ports = false → refusal o sa len = none)

/-! ## One datagram -/

/-- A socket that cannot send refuses. -/
theorem meets_none (ho : outlet w i = none) : Meets w m i sa bytes (fail w m .eopnotsupp) := by
  unfold Meets
  rw [ho]

/-- A refusal before anything is sent. -/
theorem meets_refused {o : Outlet} {e : Errno} (ho : outlet w i = some o)
    (hr : refusal o sa bytes.length = some e) : Meets w m i sa bytes (fail w m e) := by
  unfold Meets
  rw [ho]
  dsimp only
  rw [hr]

/-- One datagram is sent, or lwIP refuses it. -/
theorem meets_datagram {o : Outlet} (ho : outlet w i = some o)
    (hr : refusal o sa bytes.length = none) {dst : Nat × Nat} (hd : destination o sa = dst)
    (drainOk drainErr : Bool) :
    Meets w m i sa bytes (sendDatagram w m o.pcb dst bytes drainOk drainErr) := by
  unfold Meets
  rw [ho]
  dsimp only
  rw [hr]
  dsimp only
  unfold sendDatagram
  split
  · dsimp only
    refine ⟨_, ?_, rfl⟩
    subst hd
    split
    · exact .inr rfl
    · exact .inl rfl
  · rfl

/-- The error a call leaves in message `m`. -/
def errOf (m : MsgId) (r : World × TnIpcReplyAction) : Errno := (r.1.msgs m).errNo

theorem errOf_done (r : Int) (e : Errno) : errOf m (done w m r e) = e := by
  simp [errOf, done, setReply, modMsg]

theorem errOf_fail (e : Errno) : errOf m (fail w m e) = e := errOf_done (-1) e

/-- The errors of a datagram that was not refused. -/
def Late (e : Errno) : Prop := e = .ok ∨ e = .enobufs ∨ e = .ehostunreach

/-- What lwIP answers comes late. -/
theorem late_replied (e : ErrT) (len : Nat) : Late (errOf m (replied w m e len)) := by
  unfold replied dgramErrno
  split
  · rw [errOf_done]
    exact .inl rfl
  · rw [errOf_fail]
    split
    · exact .inr (.inl rfl)
    · exact .inr (.inr rfl)

/-- So does the answer to one datagram. -/
theorem late_sendDatagram (p : PcbId) (dst : Nat × Nat) (drainOk drainErr : Bool) :
    Late (errOf m (sendDatagram w m p dst bytes drainOk drainErr)) := by
  unfold sendDatagram
  split
  · exact late_replied ..
  · rw [errOf_fail]
    exact .inr (.inl rfl)

/-- A call that meets the specification refuses with the error it names, and else fails late. -/
theorem Meets.err {o : Outlet} {r : World × TnIpcReplyAction} (h : Meets w m i sa bytes r)
    (ho : outlet w i = some o) :
    refusal o sa bytes.length = some (errOf m r) ∨
      refusal o sa bytes.length = none ∧ Late (errOf m r) := by
  unfold Meets at h
  rw [ho] at h
  dsimp only at h
  cases hr : refusal o sa bytes.length with
  | some e =>
    rw [hr] at h
    dsimp only at h
    rw [h, errOf_fail]
    exact .inl rfl
  | none =>
    rw [hr] at h
    dsimp only at h
    split at h
    · obtain ⟨w', -, rfl⟩ := h
      exact .inr ⟨rfl, late_replied ..⟩
    · rw [h, errOf_fail]
      exact .inr ⟨rfl, .inr (.inl rfl)⟩

/-- The three refusals that come first. -/
theorem refusal_cases (o : Outlet) (sa : Option Mem) (len : Nat) :
    refusal o sa len = some .eisconn ∨ refusal o sa len = some .edestaddrreq ∨
      refusal o sa len = some .emsgsize ∨ refusal o sa len = none := by
  unfold refusal
  split
  · exact .inl rfl
  · split
    · exact .inr (.inl rfl)
    · split
      · exact .inr (.inr (.inl rfl))
      · exact .inr (.inr (.inr rfl))

/-- What is not refused is not too long. -/
theorem refusal_length {o : Outlet} {len : Nat} (h : refusal o sa len = none) : len ≤ o.limit := by
  unfold refusal at h
  split at h
  · cases h
  · split at h
    · cases h
    · split at h
      · cases h
      · exact Nat.le_of_not_lt ‹_›

/-- A refusal that comes first is not one of lwIP's. -/
theorem refusal_early {o : Outlet} {len : Nat} {e : Errno} (h : refusal o sa len = some e) :
    ¬ Late e ∧ e ≠ .eopnotsupp := by
  rcases refusal_cases o sa len with h' | h' | h' | h' <;> rw [h'] at h <;> cases h <;>
    exact ⟨by unfold Late; decide, by decide⟩

/-! ## The branches -/

section
variable {p : PcbId} {f : Mem}

/-- The outlet of a UDP socket. -/
theorem outlet_udp (ht : (w.sockets i).type = sockDgram) (hp : (w.sockets i).udpPcb = some p) :
    outlet w i = some (udpOutlet w p) := by
  unfold outlet
  rw [if_pos ht, hp]
  rfl

/-- The outlet of a raw socket. -/
theorem outlet_raw (ht : (w.sockets i).type = sockRaw) (hp : (w.sockets i).rawPcb = some p) :
    outlet w i = some (rawOutlet w p) := by
  unfold outlet
  rw [ht, if_neg (by decide), if_pos rfl, hp]
  rfl

/-! ## The gathering loop -/

theorem take_memBytes (f : Mem) (n k : Nat) : (memBytes f 0 n).take k = memBytes f 0 (min k n) := by
  unfold memBytes
  rw [← List.map_take, List.take_range]

/-- The loop puts as much of the payload into the pbuf as it has room for: 16 bits are enough for
its counters. -/
theorem gatherIov_eq {sendLen : Nat} (hs : sendLen < 2 ^ 16) (iovs : List Iovec) {offset : Nat}
    (ho : offset ≤ sendLen) :
    gatherIov sendLen iovs offset = (iovBytes iovs).take (sendLen - offset) := by
  induction iovs generalizing offset with
  | nil => exact List.take_nil.symm
  | cons v iovs ih =>
    have all : iovBytes (v :: iovs) =
        memBytes (v.iovBase.getD fun _ => 0) 0 v.iovLen ++ iovBytes iovs := rfl
    have len : (memBytes (v.iovBase.getD fun _ => 0) 0 v.iovLen).length = v.iovLen := by
      simp [memBytes]
    rw [gatherIov, all, List.take_append, take_memBytes, len]
    by_cases hlt : offset < sendLen
    · have chunk : (if v.iovLen > sendLen - offset then sendLen - offset else v.iovLen) % 2 ^ 16 =
          min (sendLen - offset) v.iovLen := by
        rw [Nat.mod_eq_of_lt (by split <;> omega)]
        split <;> omega
      rw [if_pos hlt]
      dsimp only
      rw [chunk, Nat.mod_eq_of_lt (show _ < 2 ^ 16 by omega), ih (by omega)]
      congr 2
      omega
    · have full : sendLen - offset = 0 := by omega
      rw [if_neg hlt, full]
      simp [memBytes]

/-- A UDP datagram of `sendmsg` is the payload: one that does not fit the loop's counters is
refused before it. -/
theorem sendtoUdp_gatherIov (toAddr : Option SockIn) (iovs : List Iovec) :
    sendtoUdp w m p toAddr (iovBytes iovs).length (gatherIov (iovBytes iovs).length iovs 0) =
      sendtoUdp w m p toAddr (iovBytes iovs).length (iovBytes iovs) := by
  unfold sendtoUdp
  dsimp only
  split
  · rfl
  · split
    · rfl
    · rw [gatherIov_eq (by omega) iovs (Nat.zero_le _), Nat.sub_zero, List.take_length]

/-- The check of the destination in `sendto` is the first part of `refusal`. -/
theorem dgramDest_cases (o : Outlet) (sa : Option Mem) :
    (∃ e, dgramDest o.connected o.remote (sa.map tnSockinLoadBytes) = .error e ∧
      ∀ len, refusal o sa len = some e) ∨
    ∃ dst, dgramDest o.connected o.remote (sa.map tnSockinLoadBytes) = .ok dst ∧
      (∀ len, refusal o sa len = if len > o.limit then some .emsgsize else none) ∧
        destination o sa = if o.ports then dst else (dst.1, 0) := by
  unfold dgramDest refusal destination
  cases sa <;> cases o.connected <;> simp

/-- `sendto` on a UDP socket. -/
theorem sendtoUdp_meets (ht : (w.sockets i).type = sockDgram)
    (hp : (w.sockets i).udpPcb = some p) :
    Meets w m i sa bytes (sendtoUdp w m p (sa.map tnSockinLoadBytes) bytes.length bytes) := by
  have ho := outlet_udp ht hp
  unfold sendtoUdp
  dsimp only
  rcases dgramDest_cases (udpOutlet w p) sa with ⟨e, hd, hr⟩ | ⟨dst, hd, hr, hto⟩
  · change dgramDest (udpConnected (w.udpPcbs p)) (remoteOf (w.udpPcbs p)) _ = _ at hd
    rw [hd]
    exact meets_refused ho (hr _)
  · change dgramDest (udpConnected (w.udpPcbs p)) (remoteOf (w.udpPcbs p)) _ = _ at hd
    rw [hd]
    dsimp only
    split
    · rename_i long
      exact meets_refused ho ((hr _).trans (if_pos long))
    · rename_i long
      exact meets_datagram ho ((hr _).trans (if_neg long)) hto ..

/-- `sendto` on a raw pcb has no check of the length. -/
theorem sendtoRaw_meets (ht : (w.sockets i).type = sockRaw) (hp : (w.sockets i).rawPcb = some p)
    (hl : bytes.length ≤ 65535) :
    Meets w m i sa bytes (sendtoRaw w m p (sa.map tnSockinLoadBytes) bytes) := by
  have ho := outlet_raw ht hp
  unfold sendtoRaw
  dsimp only
  rcases dgramDest_cases (rawOutlet w p) sa with ⟨e, hd, hr⟩ | ⟨dst, hd, hr, hto⟩
  · change dgramDest (decide ((remoteOf (w.rawPcbs p)).1 ≠ 0)) (remoteOf (w.rawPcbs p)) _ = _ at hd
    rw [hd]
    exact meets_refused ho (hr _)
  · change dgramDest (decide ((remoteOf (w.rawPcbs p)).1 ≠ 0)) (remoteOf (w.rawPcbs p)) _ = _ at hd
    rw [hd]
    dsimp only
    rw [List.take_of_length_le hl]
    exact meets_datagram ho ((hr _).trans (if_neg (Nat.not_lt_of_le hl))) hto ..

/-- `sendmsg` on a raw pcb checks nothing. -/
theorem sendmsgRaw_meets (ht : (w.sockets i).type = sockRaw) (hp : (w.sockets i).rawPcb = some p)
    {iovs : List Iovec} (hb : iovBytes iovs = bytes)
    (hr : refusal (rawOutlet w p) sa bytes.length = none) :
    Meets w m i sa bytes (sendmsgRaw w m p (sa.map tnSockinLoadBytes) iovs bytes.length) := by
  have ho := outlet_raw ht hp
  have hl : bytes.length ≤ 65535 := refusal_length hr
  unfold sendmsgRaw
  dsimp only
  rw [if_neg (Nat.not_lt_of_le hl), gatherIov_eq (Nat.lt_succ_of_le hl) iovs (Nat.zero_le _), hb,
    Nat.sub_zero, List.take_length]
  refine meets_datagram ho hr ?_ ..
  cases sa <;> rfl

/-- A connected socket refuses only what is too long. -/
theorem refusal_connected {o : Outlet} (hc : o.connected = true) (len : Nat) :
    refusal o none len = if len > o.limit then some .emsgsize else none := by
  unfold refusal
  simp [hc]

/-- One that is not connected needs a destination. -/
theorem refusal_unconnected {o : Outlet} (hc : o.connected = false) (len : Nat) :
    refusal o none len = some .edestaddrreq := by
  unfold refusal
  simp [hc]

/-- `send` on a UDP socket. -/
theorem sendUdp_meets (ht : (w.sockets i).type = sockDgram) (hp : (w.sockets i).udpPcb = some p)
    (hb : memBytes f 0 bytes.length = bytes) :
    Meets w m i none bytes (sendUdp w m p f bytes.length) := by
  have ho := outlet_udp ht hp
  unfold sendUdp
  dsimp only
  rw [hb]
  split
  · rename_i alone
    have hc : (udpOutlet w p).connected = false := by
      simp only [udpOutlet, udpConnected, Bool.and_eq_false_iff, decide_eq_false_iff_not, not_not]
      exact alone
    exact meets_refused ho (refusal_unconnected hc _)
  · rename_i peer
    rw [not_or] at peer
    have hc : (udpOutlet w p).connected = true := by
      simp only [udpOutlet, udpConnected, Bool.and_eq_true, decide_eq_true_eq]
      exact peer
    split
    · rename_i long
      exact meets_refused ho ((refusal_connected hc _).trans (if_pos long))
    · rename_i long
      exact meets_datagram ho ((refusal_connected hc _).trans (if_neg long)) rfl ..

/-- `send` on a raw socket. -/
theorem sendRaw_meets (ht : (w.sockets i).type = sockRaw) (hp : (w.sockets i).rawPcb = some p)
    (hb : memBytes f 0 bytes.length = bytes) :
    Meets w m i none bytes (sendRaw w m p f bytes.length) := by
  have ho := outlet_raw ht hp
  unfold sendRaw
  dsimp only
  rw [hb]
  split
  · rename_i alone
    exact meets_refused ho (refusal_unconnected (by simp [rawOutlet, alone]) _)
  · rename_i peer
    have hc : (rawOutlet w p).connected = true := by simp [rawOutlet, peer]
    split
    · rename_i long
      exact meets_refused ho ((refusal_connected hc _).trans (if_pos long))
    · rename_i long
      exact meets_datagram ho ((refusal_connected hc _).trans (if_neg long)) rfl ..

end

/-! ## The three handlers -/

/-- The slot is a datagram or a raw socket. -/
def Dgram (w : World) (i : SlotIdx) : Prop :=
  (w.sockets i).type = sockDgram ∨ (w.sockets i).type = sockRaw

/-- `send` meets the specification. -/
theorem send_meets (ht : Dgram w i) (hx : SendReq (w.msgs m) bytes) :
    Meets w m i none bytes (tnIpcCmdSend w m (some i)) := by
  obtain ⟨f, hf, hb⟩ := hx.buf
  have notStream : (w.sockets i).type ≠ sockStream := by
    rcases ht with h | h <;> rw [h] <;> decide
  unfold tnIpcCmdSend
  dsimp only
  rw [hf, hx.len]
  dsimp only
  rw [if_neg (by omega), if_neg notStream, Int.toNat_natCast]
  rcases ht with h | h
  · rw [if_pos h]
    cases hp : (w.sockets i).udpPcb with
    | none => exact meets_none (by simp [outlet, h, hp])
    | some p => exact sendUdp_meets h hp hb
  · rw [if_neg (by rw [h]; decide), if_pos h]
    cases hp : (w.sockets i).rawPcb with
    | none => exact meets_none (by simp [outlet, h, hp, sockRaw, sockDgram])
    | some p => exact sendRaw_meets h hp hb

/-- So does `sendto`, unless a raw datagram is too long. -/
theorem sendto_meets (ht : Dgram w i) (hx : SendtoReq (w.msgs m) bytes sa)
    (hl : ∀ o, outlet w i = some o → o.ports = false → bytes.length ≤ 65535) :
    Meets w m i sa bytes (tnIpcCmdSendto w m (some i)) := by
  obtain ⟨f, hf, hb⟩ := hx.buf
  have notStream : (w.sockets i).type ≠ sockStream := by
    rcases ht with h | h <;> rw [h] <;> decide
  unfold tnIpcCmdSendto
  dsimp only
  rw [hf, hx.len, hx.dest]
  dsimp only
  rw [if_neg (by omega), if_neg notStream, Int.toNat_natCast, hb]
  rcases ht with h | h
  · rw [if_pos h]
    cases hp : (w.sockets i).udpPcb with
    | none => exact meets_none (by simp [outlet, h, hp])
    | some p => exact sendtoUdp_meets h hp
  · rw [if_neg (by rw [h]; decide), if_pos h]
    cases hp : (w.sockets i).rawPcb with
    | none => exact meets_none (by simp [outlet, h, hp, sockRaw, sockDgram])
    | some p => exact sendtoRaw_meets h hp (hl _ (outlet_raw h hp) rfl)

/-- The total of the array is the length of the payload. -/
theorem iovTotal_eq (iovs : List Iovec) (hn : ∀ v ∈ iovs, 0 < v.iovLen → v.iovBase.isSome)
    (total : Nat) (hl : total + (iovBytes iovs).length ≤ 0x7FFFFFFF) :
    iovTotal iovs total = .ok (total + (iovBytes iovs).length) := by
  induction iovs generalizing total with
  | nil => rfl
  | cons v iovs ih =>
    have all : (iovBytes (v :: iovs)).length = v.iovLen + (iovBytes iovs).length := by
      simp [iovBytes, memBytes]
    rw [all] at hl
    have base : ¬ (0 < v.iovLen ∧ v.iovBase.isNone) := fun h => by
      have := hn v List.mem_cons_self h.1
      rw [Option.isNone_iff_eq_none.mp h.2] at this
      cases this
    have fits : ¬ v.iovLen > 0x7FFFFFFF - total := by omega
    rw [iovTotal, if_neg base, if_neg fits, ih (fun v hv => hn v (List.mem_cons_of_mem _ hv)) _
      (by omega), all, Nat.add_assoc]

/-- A `sendmsg` that passes its argument checks gets to the branch of its slot, unless it asks for
out-of-band data. -/
theorem sendmsg_run (hx : SendmsgReq (w.msgs m) bytes sa) :
    ∃ iovs, iovBytes iovs = bytes ∧ tnIpcCmdSendmsg w m (some i) =
      if hasFlag ((w.msgs m).args 1) msgOob then fail w m .eopnotsupp
      else sendmsgChecked w m i iovs bytes.length (sa.map tnSockinLoadBytes)
        ((w.msgs m).args 1) := by
  obtain ⟨h, iovs, hp, hi, hb, ne, few, bases, name, whole⟩ := hx.header
  refine ⟨iovs, hb, ?_⟩
  have total := iovTotal_eq iovs bases 0 (by rw [hb, Nat.zero_add]; exact hx.fits)
  have some_entries : ¬ (iovs = [] ∨ iovs.length > 1024) := by
    rintro (h | h)
    · exact ne h
    · exact Nat.not_lt_of_le few h
  have address : ¬ (h.msgName.isSome ∧ h.msgNamelen < sizeofSockaddrIn) := by
    rw [name]
    rintro ⟨hs, short⟩
    exact Nat.not_lt_of_le (whole hs) short
  rw [hb, Nat.zero_add] at total
  unfold tnIpcCmdSendmsg
  dsimp only
  rw [hp]
  dsimp only
  split
  · rfl
  · rw [hi]
    dsimp only
    rw [if_neg some_entries, total]
    dsimp only
    rw [name]

theorem harmless_none {len : Nat} {x : TnIpcMsg} (ho : outlet w i = none) :
    Harmless w i sa len x := fun o h => by
  rw [ho] at h
  cases h

/-- When the flags do no harm. -/
theorem harmless_some {len : Nat} {x : TnIpcMsg} {o : Outlet} (ho : outlet w i = some o) :
    Harmless w i sa len x ↔
      hasFlag (x.args 1) msgOob = false ∧ (o.ports = false → refusal o sa len = none) := by
  constructor
  · intro h
    exact h o ho
  · intro h o' ho'
    rw [ho] at ho'
    cases ho'
    exact h

/-- A call that fails late does not meet a specification that refuses. -/
theorem Meets.not_refused {o : Outlet} {r : World × TnIpcReplyAction} (h : Meets w m i sa bytes r)
    (ho : outlet w i = some o) (hr : Late (errOf m r)) : refusal o sa bytes.length = none := by
  rcases h.err ho with h | h
  · exact absurd hr (refusal_early h).1
  · exact h.1

/-- `sendmsg` meets it exactly when its flags do no harm. -/
theorem sendmsg_meets (ht : Dgram w i) (hx : SendmsgReq (w.msgs m) bytes sa) :
    Meets w m i sa bytes (tnIpcCmdSendmsg w m (some i)) ↔
      Harmless w i sa bytes.length (w.msgs m) := by
  obtain ⟨iovs, hb, run⟩ := sendmsg_run (i := i) hx
  have notStream : (w.sockets i).type ≠ sockStream := by
    rcases ht with h | h <;> rw [h] <;> decide
  rw [run]
  cases hoob : hasFlag ((w.msgs m).args 1) msgOob with
  | true =>
    rw [if_pos rfl]
    cases ho : outlet w i with
    | none => exact iff_of_true (meets_none ho) (harmless_none ho)
    | some o =>
      refine iff_of_false (fun h => ?_) (fun h => ?_)
      · rcases h.err ho with h | h
        · exact (refusal_early h).2 (errOf_fail _)
        · rw [errOf_fail] at h
          exact absurd h.2 (by unfold Late; decide)
      · rw [harmless_some ho, hoob] at h
        cases h.1
  | false =>
    rw [if_neg (by decide)]
    unfold sendmsgChecked
    dsimp only
    rw [if_neg notStream]
    rcases ht with h | h
    · rw [if_pos h]
      cases hp : (w.sockets i).udpPcb with
      | none =>
        have ho : outlet w i = none := by simp [outlet, h, hp]
        exact iff_of_true (meets_none ho) (harmless_none ho)
      | some p =>
        have met : Meets w m i sa bytes (sendtoUdp w m p (sa.map tnSockinLoadBytes) bytes.length
            (gatherIov bytes.length iovs 0)) := by
          rw [← hb, sendtoUdp_gatherIov, hb]
          exact sendtoUdp_meets h hp
        refine iff_of_true met ((harmless_some (outlet_udp h hp)).mpr ⟨hoob, ?_⟩)
        intro raw
        cases raw
    · rw [if_neg (by rw [h]; decide), if_pos h]
      cases hp : (w.sockets i).rawPcb with
      | none =>
        have ho : outlet w i = none := by simp [outlet, h, hp, sockRaw, sockDgram]
        exact iff_of_true (meets_none ho) (harmless_none ho)
      | some p =>
        have ho := outlet_raw h hp
        rw [harmless_some ho]
        constructor
        · intro hm
          exact ⟨hoob, fun _ => hm.not_refused ho (late_sendDatagram ..)⟩
        · intro hs
          exact sendmsgRaw_meets h hp hb (hs.2 rfl)

/-! ## Agreement -/

theorem withMsg_msgs (x : TnIpcMsg) : (withMsg w m x).msgs m = x := Function.update_self ..

/-- The same for the request that is on its way. -/
theorem sendmsg_withMsg {x : TnIpcMsg} (ht : Dgram w i) (hx : SendmsgReq x bytes sa) :
    Meets (withMsg w m x) m i sa bytes (tnIpcCmdSendmsg (withMsg w m x) m (some i)) ↔
      Harmless w i sa bytes.length x := by
  have req : SendmsgReq ((withMsg w m x).msgs m) bytes sa := by
    rw [withMsg_msgs]
    exact hx
  have run := sendmsg_meets (w := withMsg w m x) ht req
  rw [withMsg_msgs] at run
  exact run

/-- What a raw socket may send. -/
theorem limit_of_raw {o : Outlet} (ho : outlet w i = some o) (hr : o.ports = false) :
    o.limit = 65535 := by
  unfold outlet at ho
  split at ho
  · obtain ⟨p, -, rfl⟩ := Option.map_eq_some_iff.mp ho
    cases hr
  · split at ho
    · obtain ⟨p, -, rfl⟩ := Option.map_eq_some_iff.mp ho
      rfl
    · cases ho

/-- The three senders agree on a payload and a destination just when the slot has no pcb, or
`sendmsg` does without out-of-band data and a raw pcb has no reason to refuse. -/
theorem agree_iff {xs xt xm : TnIpcMsg} (ht : Dgram w i) (hx : Requests xs xt xm bytes sa) :
    Agree w m i sa bytes xs xt xm ↔ Harmless w i sa bytes.length xm := by
  have msg := sendmsg_withMsg (m := m) ht hx.sendmsg
  constructor
  · intro h
    exact msg.mp h.2.2
  · intro h
    refine ⟨fun hn => ?_, ?_, msg.mpr h⟩
    · subst hn
      exact send_meets ht (by rw [withMsg_msgs]; exact hx.send)
    · refine sendto_meets ht (by rw [withMsg_msgs]; exact hx.sendto) fun o ho raw => ?_
      rw [← limit_of_raw ho raw]
      exact refusal_length ((h o ho).2 raw)

/-! ## A raw socket -/

/-- A raw socket in slot 0 with pcb 1, connected to the given address. -/
def rawSocket (remoteIp : Nat) : World :=
  { tnSlotTableInit with
    sockets := fun i => if i = firstSlot then
      { tnInitSocketSlot (some 1) 1 afInet sockRaw 1 with rawPcb := some 1 } else {}
    rawPcbs := fun p => if p = 1 then some { arg := firstSlot, remoteIp := remoteIp } else none }

/-- Client memory full of zeros. -/
def zeros : Mem := fun _ => 0

/-- A `send` and a `sendto` of `len` zeros. -/
def sendZeros (len : Nat) (sa : Option Mem) : TnIpcMsg :=
  { cmd := .sendto
    args := fun k => if k = 1 then len else 0
    ptrs := fun k => if k = 0 then .mem zeros else match sa with
      | some f => .mem f
      | none => .null }

/-- The same as a `sendmsg` with one entry. -/
def sendmsgZeros (len : Nat) (sa : Option Mem) : TnIpcMsg :=
  { cmd := .sendmsg
    ptrs := fun _ => .msghdr
      { msgName := sa
        msgNamelen := 16
        msgIov := some [{ iovBase := some zeros, iovLen := len }] } }

/-- The three requests for zeros. -/
theorem requests_zeros {len : Nat} (hl : len ≤ 0x7FFFFFFF) (sa : Option Mem) :
    Requests (sendZeros len none) (sendZeros len sa) (sendmsgZeros len sa)
      (memBytes zeros 0 len) sa := by
  have length : (memBytes zeros 0 len).length = len := by simp [memBytes]
  have send : ∀ sa, SendReq (sendZeros len sa) (memBytes zeros 0 len) := fun sa =>
    ⟨⟨zeros, rfl, by rw [length]⟩, by rw [length]; rfl⟩
  refine ⟨send none, ⟨send sa, ?_⟩, ?_, ?_⟩
  · cases sa <;> rfl
  · refine ⟨_, _, rfl, rfl, ?_, List.cons_ne_nil _ _, (by decide : 1 ≤ 1024), ?_, rfl,
      fun _ => Nat.le_refl 16⟩
    · simp [iovBytes]
    · intro v hv hp
      rw [List.mem_singleton.mp hv]
      rfl
  · rw [length]
    exact hl

theorem agree_connected : Agree (rawSocket 9) 7 0 none (memBytes zeros 0 3) (sendZeros 3 none)
    (sendZeros 3 none) (sendmsgZeros 3 none) :=
  (agree_iff (.inr rfl) (requests_zeros (by decide) none)).mpr fun o ho =>
    ⟨rfl, fun _ => by cases ho; decide⟩

/-- `sendmsg` on a raw socket that is not connected goes ahead without an address. -/
theorem not_forall_agree : ¬ ∀ w m i sa bytes xs xt xm, Dgram w i → Requests xs xt xm bytes sa →
    Agree w m i sa bytes xs xt xm := by
  intro h
  have three : Requests (sendZeros 3 none) (sendZeros 3 none) (sendmsgZeros 3 none)
      (memBytes zeros 0 3) none := requests_zeros (by decide) none
  have all := h (rawSocket 0) 7 0 none _ _ _ _ (.inr rfl) three
  have alone := (sendmsg_withMsg (.inr rfl) three.sendmsg).mp all.2.2
  have refused : refusal (rawOutlet (rawSocket 0) 1) none 3 = none := (alone _ rfl).2 rfl
  exact absurd refused (by decide)

end Senders

end Tolunnet
