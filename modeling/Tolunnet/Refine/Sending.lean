import Tolunnet.Refine.Streams

/-!
# `Tolunnet.Refine.Sending`: the sending handlers

`SEND`, `SENDTO` and `SENDMSG`. A datagram is nothing to the abstract daemon but a turn of the
loopback queue. A stream send is in hand from its start to its reply or until it is parked; each
turn of its loop writes and then lets lwIP work, which may take the connection away.
-/

set_option autoImplicit false

namespace Tolunnet

open World

variable {P : Label → Prop} {t : Tok} {w w' : World} {m : MsgId} {i : SlotIdx} {p : PcbId}

/-! ## Datagrams -/

theorem sendDatagram_carried (hP : Permits P w) (ht : Lax t) (dst : Nat × Nat) (bytes : List UInt8)
    (drainOk drainErr : Bool) : Carried P t w m (sendDatagram w m p dst bytes drainOk drainErr) := by
  unfold sendDatagram
  dsimp only
  split
  · generalize hw1 : (w.asked.out (.datagram p dst.1 dst.2 bytes)) = w1
    have same : ∀ t, abs t w1.asked = abs t w := fun t => by rw [← hw1]; rfl
    have quiet : Only ∅ w w1.asked := by
      rw [← hw1]
      exact (Only.asked.trans (.out _)).trans .asked
    have drained : Acts P (abs (t.pickUp m) w) (abs (t.pickUp m)
        (if (w1.ask.err = .ok ∧ drainOk = true) ∨ (w1.ask.err ≠ .ok ∧ drainErr = true) then
          tnDrainLoopback w1.asked else w1.asked)) := by
      split
      · exact (Acts.none (same _)).trans (tnDrainLoopback_acts (hP.calm quiet.calm) (ht.pickUp m))
      · exact Acts.none (same _)
    split
    · exact .done drained _ _
    · exact .fail drained _
  · exact .fail (.none (abs_asked ..)) _

theorem sendtoUdp_carried (hP : Permits P w) (ht : Lax t) (toAddr : Option SockIn)
    (len : Nat) (bytes : List UInt8) : Carried P t w m (sendtoUdp w m p toAddr len bytes) := by
  unfold sendtoUdp
  dsimp only
  split
  · exact .refuse _
  · split
    · exact .refuse _
    · exact sendDatagram_carried hP ht _ _ _ _

theorem sendtoRaw_carried (hP : Permits P w) (ht : Lax t) (toAddr : Option SockIn)
    (bytes : List UInt8) : Carried P t w m (sendtoRaw w m p toAddr bytes) := by
  unfold sendtoRaw
  dsimp only
  split
  · exact .refuse _
  · exact sendDatagram_carried hP ht _ _ _ _

/-! ## The writing loop -/

/-- The token while the send `s` has written `d` bytes, the last write with result `e`. -/
def Tok.sent (t : Tok) (s : Sending) (d : Nat) (e : ErrT) : Tok :=
  { t.pickUp s.m with sending := some { s with done := d, writing := true, res := e } }

theorem Lax.sent (ht : Lax t) (s : Sending) (d : Nat) (e : ErrT) : Lax (t.sent s d e) :=
  ⟨ht.conn, ht.ent, ht.joined, ht.dying, ht.owes⟩

/-- The slot of a send that writes has a full pcb, if it has one. -/
theorem full_of_sending (hs : (abs t w).Sound) {s : Sending} (hsnd : t.sending = some s)
    (hw : s.writing = true) (hp : (w.sockets s.i).tcpPcb = some p) : (abs t w).Full p := by
  refine full_of_slot hs hp fun hl => ?_
  rcases (hs.disc.sending s hsnd).state hw with h | h | h <;>
  · have st : (w.sockets s.i).tcpState = _ := h
    rw [hl] at st
    cases st

/-- What the writing loop has done when it ends with `r`. -/
structure Looped (P : Label → Prop) (t : Tok) (s : Sending) (w : World) (d : Nat) (e : ErrT)
    (r : World × Nat × ErrT) : Prop where
  acts : ∃ e', Acts P (abs (t.sent s d e) w) (abs (t.sent s r.2.1 e') r.1)
  calm : Calm w r.1
  all : (r.1.sockets s.i).tcpPcb ≠ none → r.2.2 = .ok → r.2.1 = s.len
  hard : r.2.2 ≠ .ok → r.2.2 ≠ .mem → Interrupted (r.1.trace.filter Event.loud) (w.callOf s.m)

/-- One call of `tn_tcp_write_some` for the send in hand. -/
theorem writeSome_looped (s : Sending) (hlen : s.payload.length = s.len) {d : Nat} {e : ErrT}
    (hs : (abs (t.sent s d e) w).Sound) (hp : (w.sockets s.i).tcpPcb = some p) (hd : d ≤ s.len) :
    let r := tnTcpWriteSome p (w.callOf s.m) s.buf s.len (s.len - d) w (s.iov.map fun l => (l, 0)) d
    Acts P (abs (t.sent s d e) w) (abs (t.sent s r.2.1 r.2.2) r.1) ∧ r.2.1 ≤ s.len ∧
      (r.2.2 = .ok → r.2.1 = s.len) ∧
      (r.2.2 ≠ .ok → r.2.2 ≠ .mem → Interrupted (r.1.trace.filter Event.loud) (w.callOf s.m)) := by
  dsimp only
  obtain ⟨v, hv, full⟩ := full_of_sending hs rfl rfl hp
  have source : SourceAt s.buf s.payload d (s.iov.map fun l => (l, 0)) := sourceAt_start d hlen
  have wrote := tnTcpWriteSome_wrote (p := p) (c := w.callOf s.m) (s.len - d) w _ d v
    (by omega) (by omega) source hv full
  rw [hlen] at wrote
  obtain ⟨bs, v', hw, hn, habs⟩ := wrote
  generalize tnTcpWriteSome p (w.callOf s.m) s.buf s.len (s.len - d) w (s.iov.map fun l => (l, 0)) d
    = r at hw hn habs
  have fits := hw.fits
  rw [hlen] at fits
  refine ⟨?_, by omega, fun he => ?_, fun he hm => ?_⟩
  · rw [hn]
    exact Acts.one (.send (.write (abs (t.sent s d e) w) { s with done := d, writing := true, res := e }
      p v v' bs r.2.2 rfl rfl hp hv hw)) (abs_with habs _)
  · have := hw.ok he
    omega
  · refine Or.inr ⟨p, r.2.2, ?_⟩
    have log : (abs (t.sent s d e) r.1).log = writeLog p (w.callOf s.m) bs r.2.2 ++
        (abs (t.sent s d e) w).log := by
      rw [habs]
      rfl
    show _ ∈ (abs (t.sent s d e) r.1).log
    rw [log]
    unfold writeLog
    rw [if_neg (by tauto)]
    simp

/-- lwIP works after a write of the send in hand. -/
theorem afterWrite_acts (hP : Permits P w) (ht : Lax t) (s : Sending) {d : Nat} {e : ErrT}
    (hp : (w.sockets s.i).tcpPcb = some p) :
    Acts P (abs (t.sent s d e) w) (abs (t.sent s d e) (tnDrainLoopback (tcpOutput w p))) := by
  refine Acts.of_sound fun hs => ?_
  have output : Only ∅ w (tcpOutput w p) := .readFull _
  exact (Acts.none (abs_tcpOutput (full_of_sending hs rfl rfl hp))).trans
    (tnDrainLoopback_acts (hP.calm output.calm) (ht.sent s d e))

theorem sendLoop_looped (ht : Lax t) (s : Sending) (hlen : s.payload.length = s.len) (fuel : Nat)
    (w : World) (d : Nat) (e : ErrT) (hP : Permits P w) (hf : s.len < fuel + d) (hd : d ≤ s.len)
    (hs : (abs (t.sent s d e) w).Sound) :
    Looped P t s w d e (sendLoop s.i (w.callOf s.m) s.buf s.iov s.len fuel w d) := by
  induction fuel generalizing w d e with
  | zero => omega
  | succ fuel ih =>
    unfold sendLoop
    split
    · rename_i hp
      exact ⟨⟨e, .refl⟩, .refl w, fun h => absurd hp h, fun h => absurd rfl h⟩
    · rename_i p hp
      dsimp only
      obtain ⟨acts, le, all, hard⟩ := writeSome_looped (P := P) s hlen hs hp hd
      have only : Only ∅ w (tnTcpWriteSome p (w.callOf s.m) s.buf s.len (s.len - d) w
          (s.iov.map fun l => (l, 0)) d).1 := .tnTcpWriteSome ..
      generalize tnTcpWriteSome p (w.callOf s.m) s.buf s.len (s.len - d) w
        (s.iov.map fun l => (l, 0)) d = r at acts le all hard only
      split
      · rename_i hgt
        -- progress was made, so lwIP works, twice if the connection survives
        have hp1 : (r.1.sockets s.i).tcpPcb = some p := by rw [only.sockets]; exact hp
        have first : Acts P (abs (t.sent s d e) w)
            (abs (t.sent s r.2.1 r.2.2) (tnDrainLoopback (tcpOutput r.1 p))) :=
          acts.trans (afterWrite_acts (hP.calm only.calm) ht s hp1)
        have calm1 : Calm w (tnDrainLoopback (tcpOutput r.1 p)) :=
          only.calm.trans (((Only.readFull _ : Only ∅ r.1 (tcpOutput r.1 p))).calm.trans
            .tnDrainLoopback)
        have stays : ∀ {w'}, Acts P (abs (t.sent s r.2.1 r.2.2) r.1) (abs (t.sent s r.2.1 r.2.2) w') →
            r.2.2 ≠ .ok → r.2.2 ≠ .mem →
            Interrupted (w'.trace.filter Event.loud) (w.callOf s.m) := fun h h1 h2 => by
          rcases hard h1 h2 with ⟨x, hx, hi⟩ | ⟨p, x, hx⟩
          · exact Or.inl ⟨x, h.log_mem (acts.sound hs) hx, hi⟩
          · exact Or.inr ⟨p, x, h.log_mem (acts.sound hs) hx⟩
        have drained1 := afterWrite_acts (P := P) (d := r.2.1) (e := r.2.2) (hP.calm only.calm) ht s hp1
        generalize tnDrainLoopback (tcpOutput r.1 p) = w2 at first calm1 drained1
        split
        · rename_i hp2
          exact ⟨⟨_, first⟩, calm1, fun h => absurd hp2 h, stays drained1⟩
        · rename_i p2 hp2
          have drained2 := afterWrite_acts (P := P) (d := r.2.1) (e := r.2.2) (hP.calm calm1) ht s hp2
          have calm2 : Calm w (tnDrainLoopback (tcpOutput w2 p2)) :=
            calm1.trans (((Only.readFull _ : Only ∅ w2 (tcpOutput w2 p2))).calm.trans
              .tnDrainLoopback)
          generalize tnDrainLoopback (tcpOutput w2 p2) = w3 at drained2 calm2
          have second := first.trans drained2
          split
          · have rest := ih w3 r.2.1 r.2.2 (hP.calm calm2) (by omega) le (Acts.sound second hs)
            rw [calm2.rest.callOf] at rest
            obtain ⟨e', acts'⟩ := rest.acts
            exact ⟨⟨e', second.trans acts'⟩, calm2.trans rest.calm, rest.all, by
              have := rest.hard
              rwa [calm2.rest.callOf] at this⟩
          · exact ⟨⟨_, second⟩, calm2, fun _ => all, stays (drained1.trans drained2)⟩
      · exact ⟨⟨_, acts⟩, only.calm, fun _ => all, hard⟩

/-! ## The end of a stream send -/

/-- The send in hand leaves it. -/
theorem Tok.sendingOut (s : Sending) (hn : t.sending = none) :
    ({ t.pickUp s.m with hand := (t.pickUp s.m).hand.erase s.m, sending := none } : Tok) = t := by
  have back : (t.pickUp s.m).hand.erase s.m = t.hand := List.erase_cons_head ..
  rw [back]
  unfold Tok.pickUp
  rw [← hn]

/-- The send in hand is answered. -/
theorem answerSend_acts (s : Sending) (hn : t.sending = none) (r : Int) (x : Errno)
    (hr : SendAnswer s.len s.done r)
    (hl : r = s.len ∨ (r = -1 ∧ x ≠ .ok) ∨
      Interrupted (w.trace.filter Event.loud) (w.callOf s.m) ∨ P (.short (w.callOf s.m))) :
    Acts P (abs { t.pickUp s.m with sending := some s } w)
      (abs t (finish s.m (done w s.m r x))) := by
  refine Acts.one (.send (.reply (abs { t.pickUp s.m with sending := some s } w) s r x rfl
    (List.mem_cons_self ..) hr hl)) ?_
  show abs t (w.answerMsg s.m r x) = Abs.setTok _
    { t.pickUp s.m with hand := (t.pickUp s.m).hand.erase s.m, sending := none }
  rw [abs_answerMsg, Tok.sendingOut s hn]
  rfl

theorem sendAnswer_result (len d : Nat) (x : Errno) : SendAnswer len d (sendResult d x).1 := by
  unfold SendAnswer sendResult
  by_cases h : 0 < d
  · rw [if_pos h, if_pos h]
  · rw [if_neg h, if_neg h]
    exact Or.inl rfl

/-- The statements that park the send in hand. -/
theorem parkSend_acts (s : Sending) {d : Nat} {e : ErrT} (hn : t.sending = none)
    (hp : (w.sockets s.i).tcpPcb = some p) (hq : (w.sockets s.i).pending .send = none)
    (hl : P .alter) :
    Acts P (abs (t.sent s d e) w) (abs t (parkSend w s.m s.i p s.iov s.len d)) := by
  refine Acts.of_sound fun hs => ?_
  obtain ⟨v, hv, full⟩ := full_of_sending hs rfl rfl hp
  refine Acts.one (.send (.park (abs (t.sent s d e) w)
    { s with done := d, writing := true, res := e } p v rfl (List.mem_cons_self ..) rfl hq hp hv hl)) ?_
  unfold parkSend
  dsimp only
  generalize hw1 : (((w.setPending s.i .send (some s.m)).modMsg s.m _).modSlot s.i _) = w1
  have placed : abs t w1 = { (abs t w).slotSet s.i { ((abs t w).slot s.i).setPend .send (some s.m) with
      sendDone := d, sendIov := s.iov } with
        msg := Function.update (abs t w).msg s.m { (abs t w).msg s.m with len := s.len } } := by
    have slot : ∀ f, ((w.setPending s.i .send (some s.m)).modMsg s.m f).sockets s.i =
        { w.sockets s.i with pending := Function.update (w.sockets s.i).pending .send (some s.m) } :=
      fun f => sockets_modSlot w s.i fun x =>
        { x with pending := Function.update x.pending .send (some s.m) }
    rw [← hw1, abs_modSlot, slot, abs_modMsg, abs_setPending]
    simp only [Abs.slotSet, Function.update_idem]
    rfl
  have kept : (abs t w1).pcb p = some v := by
    rw [placed]
    exact hv
  rw [abs_tcpPoll kept full, placed]
  show _ = Abs.setTok _
    { t.pickUp s.m with hand := (t.pickUp s.m).hand.erase s.m, sending := none }
  rw [Tok.sendingOut s hn]
  rfl

/-- What follows the writing loop. -/
theorem sendFinish_acts (s : Sending) (hn : t.sending = none) {nonblock : Bool} {d : Nat}
    {e werr : ErrT} (hq : (w.sockets s.i).pending .send = none)
    (hall : (w.sockets s.i).tcpPcb ≠ none → werr = .ok → d = s.len)
    (hhard : werr ≠ .ok → werr ≠ .mem → Interrupted (w.trace.filter Event.loud) (w.callOf s.m))
    (hshort : nonblock = true → P (.short (w.callOf s.m))) (hl : P .alter) :
    Acts P (abs (t.sent s d e) w)
      (abs t (finish s.m (sendFinish w s.m s.i s.iov s.len nonblock d werr))) := by
  unfold sendFinish
  split
  · -- the connection is gone
    have cut : Acts P (abs (t.sent s d e) w)
        (abs (t.sent s d e) (w.emit (.sendEnd (w.callOf s.m) .econnreset))) :=
      Acts.one (.send (.cut (abs (t.sent s d e) w) { s with done := d, writing := true, res := e }
        .econnreset rfl)) (abs_emit _ _ _ rfl)
    refine cut.trans (answerSend_acts { s with done := d, writing := true, res := e } hn _ _
      (sendAnswer_result _ _ _) (Or.inr (Or.inr (Or.inl (Or.inl ⟨.econnreset, ?_, rfl⟩)))))
    exact List.mem_filter.mpr ⟨List.mem_cons_self .., rfl⟩
  · rename_i p hp
    have held : (w.sockets s.i).tcpPcb ≠ none := by rw [hp]; simp
    split
    · rename_i hok
      have answer : SendAnswer s.len d (d : Int) := by
        unfold SendAnswer
        split
        · rfl
        · rename_i h0
          rcases hok with h | ⟨-, -, h⟩
          · have := hall held h
            exact Or.inr ⟨by omega, by omega⟩
          · exact absurd h h0
      refine answerSend_acts { s with done := d, writing := true, res := e } hn _ _ answer ?_
      rcases hok with h | ⟨-, hnb, -⟩
      · exact Or.inl (by rw [hall held h])
      · exact Or.inr (Or.inr (Or.inr (hshort hnb)))
    · rename_i hok
      have hne : werr ≠ .ok := fun h => hok (Or.inl h)
      split
      · rename_i hmem
        exact answerSend_acts { s with done := d, writing := true, res := e } hn _ _
          (sendAnswer_result _ _ _) (Or.inr (Or.inr (Or.inl (hhard hne hmem))))
      · rename_i hmem
        split
        · rename_i hnb
          have none : ¬ 0 < d := fun h => hok (Or.inr ⟨not_not.mp hmem, hnb, h⟩)
          have answer : SendAnswer s.len d (-1) := by
            unfold SendAnswer
            rw [if_neg none]
            exact Or.inl rfl
          exact answerSend_acts { s with done := d, writing := true, res := e } hn _ _ answer
            (Or.inr (Or.inl ⟨rfl, by decide⟩))
        · exact parkSend_acts s hn hp hq hl

/-- A stream send comes into hand. -/
theorem send_start (hP : Permits P w) (ht : Lax t) (hn : t.sending = none) (hrefs : t.refs = [])
    (s : Sending) (h0 : s.done = 0) (hw : s.writing = false) (hu : (w.sockets s.i).inUse = true)
    (hlen : s.payload.length = s.len) (hlast : w.callOf s.m + 1 = w.calls)
    (hbuf : s.iov = none → bufOf (w.msgs s.m) = s.buf) :
    Acts P (abs (t.pickUp s.m) w) (abs { t.pickUp s.m with sending := some s }
      (w.emit (.sendStart (w.callOf s.m) (sendPayload s.buf s.iov s.len)))) := by
  refine Acts.one (.send (.start (abs (t.pickUp s.m) w) s hn (List.mem_cons_self ..) hu ?_ ?_ hlen h0
    hw hlast hbuf hP.alter)) (abs_with (t := t.pickUp s.m) (abs_emit _ _ _ rfl) _)
  · show s.i ∉ t.refs
    rw [hrefs]
    exact List.not_mem_nil
  · show s.i ∉ t.dying
    rw [ht.dying]
    exact List.not_mem_nil

/-- It passes the checks. -/
theorem send_passed {s : Sending} (h0 : s.done = 0) (hw : s.writing = false) (hres : s.res = .ok)
    (hst : ¬ ((w.sockets s.i).tcpPcb = none ∨ ((w.sockets s.i).tcpState ≠ .established ∧
      (w.sockets s.i).tcpState ≠ .peerClosed)))
    (hq : ¬ ((w.sockets s.i).pending .send).isSome = true) :
    Acts P (abs { t.pickUp s.m with sending := some s } w) (abs (t.sent s 0 .ok) w) := by
  simp only [not_or, not_and, not_not] at hst
  have none : (w.sockets s.i).pending .send = none := by simpa using hq
  have opened : (w.sockets s.i).tcpState = .established ∨ (w.sockets s.i).tcpState = .peerClosed :=
    or_iff_not_imp_left.mpr hst.2
  have begun : { s with writing := true } = { s with done := 0, writing := true, res := .ok } := by
    rw [← h0, ← hres]
  refine Acts.one (.send (.passed (abs { t.pickUp s.m with sending := some s } w) s rfl hw opened
    none)) ?_
  rw [begun]
  rfl

/-- A stream send from its start to its reply, or until it is parked. -/
theorem stream_settled (hP : Permits P w) (ht : Lax t) (hn : t.sending = none) (hrefs : t.refs = [])
    (s : Sending) (h0 : s.done = 0) (hw : s.writing = false) (hres : s.res = .ok)
    (hu : (w.sockets s.i).inUse = true) (flags : Int) (hlen : s.payload.length = s.len)
    (hlast : w.callOf s.m + 1 = w.calls) (hbuf : s.iov = none → bufOf (w.msgs s.m) = s.buf)
    (hshort : ((w.sockets s.i).isNonblocking || hasFlag flags msgDontwait) = true →
      P (.short (w.callOf s.m))) :
    Settled P t w s.m (tnTcpSendStream w s.m s.i s.buf s.iov s.len flags) := by
  refine Acts.of_sound fun hs => ?_
  unfold tnTcpSendStream
  dsimp only
  have start := send_start hP ht hn hrefs s h0 hw hu hlen hlast hbuf
  have hP1 : Permits P (w.emit (.sendStart (w.callOf s.m) (sendPayload s.buf s.iov s.len))) :=
    hP.same (fun _ _ h => h) (fun _ => rfl) rfl
  have sockets1 : (w.emit (.sendStart (w.callOf s.m) (sendPayload s.buf s.iov s.len))).sockets
      = w.sockets := rfl
  have callOf1 : (w.emit (.sendStart (w.callOf s.m) (sendPayload s.buf s.iov s.len))).callOf
      = w.callOf := rfl
  generalize w.emit (.sendStart (w.callOf s.m) (sendPayload s.buf s.iov s.len)) = w1
    at start hP1 sockets1 callOf1
  -- a request that does not pass the checks is answered with an error
  have refused : ∀ {w2 : World} (x : Errno), x ≠ .ok →
      Acts P (abs (t.pickUp s.m) w) (abs { t.pickUp s.m with sending := some s } w2) →
      Acts P (abs (t.pickUp s.m) w) (abs t (finish s.m (fail w2 s.m x))) := fun x hx h => by
    have answer : SendAnswer s.len s.done (-1) := by
      rw [h0]
      exact Or.inl rfl
    exact h.trans (answerSend_acts s hn (-1) x answer (Or.inr (Or.inl ⟨rfl, hx⟩)))
  rw [← sockets1]
  split
  · exact refused _ (by decide) start
  · split
    · refine refused _ ?_ (start.trans (Acts.one (.rx (.clearErr
        (abs { t.pickUp s.m with sending := some s } w1) s.i)) (abs_modSlot ..)))
      split
      · assumption
      · decide
    · split
      · exact refused _ (by decide) start
      · rename_i hst
        split
        · refine refused _ ?_ start
          split <;> decide
        · rename_i hq
          have passed : Acts P (abs (t.pickUp s.m) w) (abs (t.sent s 0 .ok) w1) :=
            start.trans (send_passed h0 hw hres hst hq)
          have loop := sendLoop_looped (P := P) ht s hlen (s.len + 1) w1 0 .ok hP1 (by omega)
            (Nat.zero_le _) (Acts.sound passed hs)
          obtain ⟨e, acts⟩ := loop.acts
          have call := congrFun loop.calm.rest.callOf s.m
          refine passed.trans (acts.trans (sendFinish_acts s hn (loop.calm.empty (by simpa using hq)) loop.all
            ?_ ?_ hP.alter))
          · intro h1 h2
            rw [call]
            exact loop.hard h1 h2
          · intro h
            rw [call, callOf1]
            rw [sockets1] at h
            exact hshort h

/-! ## The handlers -/

theorem tnIpcCmdSend_settled (hP : Permits P w) (ht : Lax t) (hn : t.sending = none)
    (hrefs : t.refs = []) {slot : Option SlotIdx}
    (hu : ∀ i, slot = some i → (w.sockets i).inUse = true) (hlast : w.callOf m + 1 = w.calls)
    (hshort : ∀ i, slot = some i →
      ((w.sockets i).isNonblocking || hasFlag ((w.msgs m).args 2) msgDontwait) = true →
        P (.short (w.callOf m))) :
    Settled P t w m (tnIpcCmdSend w m slot) := by
  unfold tnIpcCmdSend
  dsimp only
  have refuse : ∀ e, Settled P t w m (fail w m e) := fun e => (Carried.refuse e).settled hn
  split
  · rename_i i buf hbuf
    split
    · exact refuse _
    · split
      · exact stream_settled hP ht hn hrefs
          { m := m, i := i, buf := buf, iov := none, len := ((w.msgs m).args 1).toNat } rfl rfl rfl
          (hu i rfl) _ (length_memBytes ..) hlast (fun _ => by simp [bufOf, hbuf]) (hshort i rfl)
      · split
        · split
          · unfold sendUdp
            dsimp only
            split
            · exact refuse _
            · split
              · exact refuse _
              · exact (sendDatagram_carried hP ht _ _ _ _).settled hn
          · exact refuse _
        · split
          · split
            · unfold sendRaw
              dsimp only
              split
              · exact refuse _
              · split
                · exact refuse _
                · exact (sendDatagram_carried hP ht _ _ _ _).settled hn
            · exact refuse _
          · exact refuse _
  · exact refuse _

theorem tnIpcCmdSendto_settled (hP : Permits P w) (ht : Lax t) (hn : t.sending = none)
    (hrefs : t.refs = []) {slot : Option SlotIdx}
    (hu : ∀ i, slot = some i → (w.sockets i).inUse = true) (hlast : w.callOf m + 1 = w.calls)
    (hshort : ∀ i, slot = some i →
      ((w.sockets i).isNonblocking || hasFlag ((w.msgs m).args 2) msgDontwait) = true →
        P (.short (w.callOf m))) :
    Settled P t w m (tnIpcCmdSendto w m slot) := by
  unfold tnIpcCmdSendto
  dsimp only
  have refuse : ∀ e, Settled P t w m (fail w m e) := fun e => (Carried.refuse e).settled hn
  split
  · split
    · exact refuse _
    · split
      · exact tnIpcCmdSend_settled hP ht hn hrefs hu hlast hshort
      · split
        · split
          · exact (sendtoUdp_carried hP ht _ _ _).settled hn
          · exact refuse _
        · split
          · split
            · exact (sendtoRaw_carried hP ht _ _).settled hn
            · exact refuse _
          · exact refuse _
  · exact refuse _

/-- The checked total is the length of the data. -/
theorem iovTotal_data {iovs : List Iovec} {n total : Nat} (h : iovTotal iovs n = .ok total) :
    n + ((iovs.map Iovec.data).flatten).length = total := by
  induction iovs generalizing n with
  | nil =>
    cases h
    simp
  | cons v iovs ih =>
    unfold iovTotal at h
    split at h
    · cases h
    · split at h
      · cases h
      · have := ih h
        simp only [List.map_cons, List.flatten_cons, List.length_append, Iovec.length_data]
        omega

theorem sendmsgChecked_settled (hP : Permits P w) (ht : Lax t) (hn : t.sending = none)
    (hrefs : t.refs = []) (hu : (w.sockets i).inUse = true) (hlast : w.callOf m + 1 = w.calls)
    {iovs : List Iovec} {total : Nat} (hlen : ((iovs.map Iovec.data).flatten).length = total)
    (toAddr : Option SockIn) (flags : Int)
    (hshort : ((w.sockets i).isNonblocking || hasFlag flags msgDontwait) = true →
      P (.short (w.callOf m))) :
    Settled P t w m (sendmsgChecked w m i iovs total toAddr flags) := by
  unfold sendmsgChecked
  dsimp only
  have refuse : ∀ e, Settled P t w m (fail w m e) := fun e => (Carried.refuse e).settled hn
  split
  · split
    · rename_i v
      -- one entry becomes a plain `send`
      have reshaped : Acts P (abs (t.pickUp m) w) (abs (t.pickUp m) (reshapeSend w m v flags)) := by
        unfold reshapeSend
        rw [abs_modMsg]
        exact .single (.msg (.edit _ _ _ (List.mem_cons_self ..) (Tok.notSending hn m) rfl))
      have args : ((reshapeSend w m v flags).msgs m).args 2 = flags := by
        simp [reshapeSend, World.modMsg]
      have hP1 : Permits P (reshapeSend w m v flags) := by
        refine hP.same (fun _ _ h => h) (fun x => ?_) rfl
        by_cases hx : x = m
        · subst hx
          simp [reshapeSend, World.modMsg]
        · simp [reshapeSend, World.modMsg, hx]
      refine reshaped.trans (tnIpcCmdSend_settled hP1 ht hn hrefs (fun j hj => ?_) hlast
        fun j hj => ?_)
      · cases hj
        exact hu
      · cases hj
        rw [args]
        exact hshort
    · exact stream_settled hP ht hn hrefs
        { m := m, i := i, buf := fun _ => 0, iov := some iovs, len := total } rfl rfl rfl hu _ hlen
        hlast (fun h => by cases h) hshort
  · split
    · split
      · exact (sendtoUdp_carried hP ht _ _ _).settled hn
      · exact refuse _
    · split
      · split
        · exact (sendDatagram_carried hP ht _ _ _ _).settled hn
        · exact refuse _
      · exact refuse _

theorem tnIpcCmdSendmsg_settled (hP : Permits P w) (ht : Lax t) (hn : t.sending = none)
    (hrefs : t.refs = []) {slot : Option SlotIdx}
    (hu : ∀ i, slot = some i → (w.sockets i).inUse = true) (hlast : w.callOf m + 1 = w.calls)
    (hshort : ∀ i, slot = some i →
      ((w.sockets i).isNonblocking || hasFlag ((w.msgs m).args 1) msgDontwait) = true →
        P (.short (w.callOf m))) :
    Settled P t w m (tnIpcCmdSendmsg w m slot) := by
  unfold tnIpcCmdSendmsg
  dsimp only
  have refuse : ∀ e, Settled P t w m (fail w m e) := fun e => (Carried.refuse e).settled hn
  split
  · split
    · exact refuse _
    · split
      · exact refuse _
      · split
        · exact refuse _
        · split
          · exact refuse _
          · rename_i total htotal
            split
            · exact refuse _
            · have := iovTotal_data htotal
              exact sendmsgChecked_settled hP ht hn hrefs (hu _ rfl) hlast (by omega) _ _
                (hshort _ rfl)
  · exact refuse _
  · exact refuse _

end Tolunnet
