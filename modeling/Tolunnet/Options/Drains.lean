import Tolunnet.Options.Elsewhere
import Tolunnet.Options.Walks
import Tolunnet.Refine.Sending

/-!
# `Tolunnet.Options.Drains`: options and the requests that let lwIP work

`CONNECT` on a stream and the three senders have lwIP work through its loopback queue before they
answer. Each is a walk: where lwIP works, the connection or the send is in a state that its callbacks
may meet.
-/

set_option autoImplicit false

namespace Tolunnet

open World

variable {o : SockOpt} {env : List Answer} {t : Tok} {w u : World} {m : MsgId} {i : SlotIdx}
  {p : PcbId}

/-- Every act is allowed here. -/
theorem permits_true (w : World) : Permits (fun _ => True) w :=
  ⟨trivial, fun _ => trivial, fun _ _ => trivial⟩

/-! ## `CONNECT` -/

/-- A stream `connect`, with the SYN out before lwIP works. -/
theorem connectStream_walk (hs : (abs (t.pickUp m) w).Sound) (ht : Lax t) (hn : t.sending = none)
    (he : w.env <:+ env) (hu : (w.sockets i).inUse = true) (hp : (w.sockets i).tcpPcb = some p)
    (hst : (w.sockets i).tcpState = .closed) (a : SockIn) :
    Walk o (Drained env) w (connectStream w m i p a).1 := by
  obtain ⟨c, hc, hl, hclosed⟩ := closed_of_slot hs hp hst
  have awake : Awake w (connecting w m i p) := by
    intro j hj
    rw [sockets_connecting]
    by_cases hji : j = i
    · subst hji
      simpa using hj
    · simpa [hji] using hj
  have stays : Stays o w (connecting w m i p) :=
    (((Tends.assign rfl).trans (.setPending _ _)).trans (.tcpRecv _)).trans (.tcpSent _)
  have begun : Walk o (Drained env) w (connecting w m i p) := Walk.refl.quiet stays awake
  have envs : (connecting w m i p).env <:+ env := by
    have only : Only {i} w (connecting w m i p) :=
      (((Only.modSlot (Set.mem_singleton i) _).trans (.modSlot (Set.mem_singleton i) _)).trans
        (.onFull _ _)).trans (.onFull _ _)
    exact only.rest.env.trans he
  by_cases herr : (connecting w m i p).ask.err = .ok
  · rw [connectStream_ok hc hl hclosed a herr]
    dsimp only
    generalize hw4 : (connecting w m i p).asked.setPcb p _ = w4
    have abs4 : ∀ t, abs t w4 = (abs t (connecting w m i p)).pcbSet p
        (some { c.view with state := .synSent, recv := .slot, sent := true, connected := true }) := by
      intro t
      rw [← hw4, abs_setPcb, abs_asked]
      rfl
    have began := connecting_began (P := fun _ => True) hn ht hs hu hp hst hc hl
      (abs4 (if (w.sockets i).isNonblocking then t.pickUp m else t))
    have full : ∀ t, (abs t w4).Full p := fun t => by
      rw [abs4]
      exact ⟨_, Function.update_self .., hl⟩
    have lax : Lax (if (w.sockets i).isNonblocking then t.pickUp m else t) := by
      split
      · exact ht.pickUp m
      · exact ht
    have sane : Sane (tcpOutput w4 p) :=
      ⟨_, lax, (abs_tcpOutput (full _)).symm ▸ Acts.sound began hs⟩
    have connect : Stays o (connecting w m i p) w4 := by
      rw [← hw4]
      exact Tends.asked.trans (.setPcb_some (c := { c with recv := .slot, sent := true })
        (pcb_connecting hc hl) ⟨rfl, rfl⟩)
    have calm : Calm (connecting w m i p) w4 := hw4 ▸ (Only.asked.trans (.setPcb _)).calm
    have output : Only ∅ w4 (tcpOutput w4 p) := .readFull _
    have drained := ((begun.calm connect calm).calm .tcpOutput output.calm).drain sane
      (output.rest.env.trans (calm.rest.env.trans envs))
    split
    · exact drained.fail _
    · exact drained
  · rw [connectStream_refused hc hl hclosed a herr]
    refine Walk.fail ?_ _
    have asked : Walk o (Drained env) w (connecting w m i p).asked := begun.same rfl
    have unparked := asked.quiet (.setPending (i := i) .connect none) (.assign rfl)
    exact unparked.quiet (.assign rfl) (.assign rfl)

theorem tnIpcCmdConnect_walk (hs : (abs (t.pickUp m) w).Sound) (ht : Lax t) (hn : t.sending = none)
    (he : w.env <:+ env) (hu : (w.sockets i).inUse = true) :
    Walk o (Drained env) w (tnIpcCmdConnect w m (some i)).1 := by
  have read : Walk o (Drained env) w (if (w.sockets i).tcpState = .error then
      w.modSlot i fun s => { s with lastError := .ok } else w) := by
    split
    · exact Walk.refl.quiet (.assign rfl) (.assign rfl)
    · exact .refl
  unfold tnIpcCmdConnect
  dsimp only
  split
  · rename_i k sin hk _
    obtain rfl : i = k := Option.some.inj hk
    split
    · exact .refuse _
    · split
      · split
        · rename_i p hp
          split
          · exact read.fail _
          · rename_i hok
            have closed := connectRefusal_ok (not_not.mp hok)
            rw [if_neg (by rw [closed]; decide)]
            exact connectStream_walk hs ht hn he hu hp closed _
        · exact read.fail _
      · have stays : Stays o w (connectDgram w m i (tnSockinLoadBytes sin)).1 := .connectDgram _
        refine Walk.refl.quiet stays fun j hj => ?_
        have same : (connectDgram w m i (tnSockinLoadBytes sin)).1.sockets = w.sockets := by
          unfold connectDgram
          dsimp only
          split
          · split <;> rfl
          · split
            · split <;> rfl
            · rfl
        rw [same]
        exact hj
  · exact .refuse _

/-! ## Datagrams -/

theorem sendDatagram_walk (hs : Sane w) (he : w.env <:+ env) (dst : Nat × Nat) (bytes : List UInt8)
    (drainOk drainErr : Bool) :
    Walk o (Drained env) w (sendDatagram w m p dst bytes drainOk drainErr).1 := by
  unfold sendDatagram
  dsimp only
  split
  · generalize hw1 : (w.asked.out (.datagram p dst.1 dst.2 bytes)) = w1
    have sane : Sane w1.asked := by
      obtain ⟨t, lax, sound⟩ := hs
      have same : abs t w1.asked = abs t w := by rw [← hw1]; rfl
      exact ⟨t, lax, same.symm ▸ sound⟩
    have envs : w1.asked.env <:+ env := by
      rw [← hw1]
      exact ((List.tail_suffix _).trans (List.tail_suffix _)).trans he
    have sent : Walk o (Drained env) w w1.asked := by
      rw [← hw1]
      exact Walk.refl.same rfl
    have drained : Walk o (Drained env) w
        (if (w1.ask.err = .ok ∧ drainOk = true) ∨ (w1.ask.err ≠ .ok ∧ drainErr = true) then
          tnDrainLoopback w1.asked else w1.asked) := by
      split
      · exact sent.drain sane envs
      · exact sent
    split
    · exact drained.done _ _
    · exact drained.fail _
  · have asked : Walk o (Drained env) w w.asked := Walk.refl.same rfl
    exact asked.fail _

theorem sendtoUdp_walk (hs : Sane w) (he : w.env <:+ env) (toAddr : Option SockIn) (len : Nat)
    (bytes : List UInt8) : Walk o (Drained env) w (sendtoUdp w m p toAddr len bytes).1 := by
  unfold sendtoUdp
  dsimp only
  split
  · exact .refuse _
  · split
    · exact .refuse _
    · exact sendDatagram_walk hs he _ _ _ _

theorem sendtoRaw_walk (hs : Sane w) (he : w.env <:+ env) (toAddr : Option SockIn)
    (bytes : List UInt8) : Walk o (Drained env) w (sendtoRaw w m p toAddr bytes).1 := by
  unfold sendtoRaw
  dsimp only
  split
  · exact .refuse _
  · exact sendDatagram_walk hs he _ _ _ _

/-! ## Streams -/

/-- The writing loop, by induction on its turns: after each write lwIP works, at most twice. -/
theorem sendLoop_walk (ht : Lax t) (s : Sending) (hlen : s.payload.length = s.len) (fuel : Nat)
    (u : World) (d : Nat) (e : ErrT) (hd : d ≤ s.len) (hs : (abs (t.sent s d e) u).Sound)
    (he : u.env <:+ env) (h : Walk o (Drained env) w u) :
    Walk o (Drained env) w (sendLoop s.i (u.callOf s.m) s.buf s.iov s.len fuel u d).1 := by
  induction fuel generalizing u d e with
  | zero => exact h
  | succ fuel ih =>
    unfold sendLoop
    split
    · exact h
    · rename_i p hp
      dsimp only
      obtain ⟨acts, le, -, -⟩ := writeSome_looped (P := fun _ => True) s hlen hs hp hd
      have only : Only ∅ u (tnTcpWriteSome p (u.callOf s.m) s.buf s.len (s.len - d) u
          (s.iov.map fun l => (l, 0)) d).1 := .tnTcpWriteSome ..
      have stays : Stays o u (tnTcpWriteSome p (u.callOf s.m) s.buf s.len (s.len - d) u
          (s.iov.map fun l => (l, 0)) d).1 := .tnTcpWriteSome ..
      generalize tnTcpWriteSome p (u.callOf s.m) s.buf s.len (s.len - d) u
        (s.iov.map fun l => (l, 0)) d = r at acts le only stays
      have wrote : Walk o (Drained env) w r.1 := h.calm stays only.calm
      -- one turn of lwIP on a connection that is left
      have turn : ∀ (v : World) (q : PcbId), Walk o (Drained env) w v →
          (abs (t.sent s r.2.1 r.2.2) v).Sound → v.env <:+ env → (v.sockets s.i).tcpPcb = some q →
            Walk o (Drained env) w (tnDrainLoopback (tcpOutput v q)) ∧
              (abs (t.sent s r.2.1 r.2.2) (tnDrainLoopback (tcpOutput v q))).Sound ∧
              Calm v (tnDrainLoopback (tcpOutput v q)) := by
        intro v q walk sound hev hq
        have output : Only ∅ v (tcpOutput v q) := .readFull _
        have sane : Sane (tcpOutput v q) := ⟨_, ht.sent s r.2.1 r.2.2,
          (abs_tcpOutput (full_of_sending sound rfl rfl hq)).symm ▸ sound⟩
        exact ⟨(walk.calm .tcpOutput output.calm).drain sane (output.rest.env.trans hev),
          Acts.sound (afterWrite_acts (permits_true v) ht s hq) sound,
          output.calm.trans .tnDrainLoopback⟩
      split
      · have hp1 : (r.1.sockets s.i).tcpPcb = some p := by
          rw [only.sockets]
          exact hp
        obtain ⟨walk1, sound1, calm1⟩ := turn r.1 p wrote (Acts.sound acts hs)
          (only.rest.env.trans he) hp1
        have env1 := (only.calm.trans calm1).rest.env.trans he
        have call1 := congrFun (only.calm.trans calm1).rest.callOf s.m
        generalize tnDrainLoopback (tcpOutput r.1 p) = w2 at walk1 sound1 calm1 env1 call1
        split
        · exact walk1
        · rename_i p2 hp2
          obtain ⟨walk2, sound2, calm2⟩ := turn w2 p2 walk1 sound1 env1 hp2
          have rest := ih (tnDrainLoopback (tcpOutput w2 p2)) r.2.1 r.2.2 le sound2
            (calm2.rest.env.trans env1) walk2
          rw [congrFun calm2.rest.callOf s.m, call1] at rest
          split
          · exact rest
          · exact walk2
      · exact wrote

/-- What is left after the writing loop concerns no option. -/
theorem sendFinish_walk (iov : Option (List Iovec)) (len : Nat) (nonblock : Bool) (d : Nat)
    (e : ErrT) (h : Walk o (Drained env) w u) :
    Walk o (Drained env) w (sendFinish u m i iov len nonblock d e).1 := by
  unfold sendFinish
  split
  · have told : Walk o (Drained env) w (u.emit (.sendEnd (u.callOf m) .econnreset)) := h.same rfl
    exact told.done _ _
  · rename_i p _
    dsimp only
    split
    · exact h.done _ _
    · split
      · exact h.done _ _
      · split
        · exact h.fail _
        · unfold parkSend
          dsimp only
          have parked := h.quiet (.setPending (i := i) .send (some m)) (.assign rfl)
          generalize u.setPending i .send (some m) = u1 at parked
          generalize hu2 : (u1.modMsg m fun x => { x with args := Function.update x.args 1 len }) = u2
          have noted : Walk o (Drained env) w u2 := parked.same (hu2 ▸ rfl)
          exact (noted.quiet (.assign (i := i) rfl) (.assign rfl)).calm (.tcpPoll true)
            (Only.onFull (S := ∅) _ _).calm

theorem tnTcpSendStream_walk (hs : (abs (t.pickUp m) w).Sound) (ht : Lax t) (hn : t.sending = none)
    (hrefs : t.refs = []) (he : w.env <:+ env) (hu : (w.sockets i).inUse = true)
    (hlast : w.callOf m + 1 = w.calls) (s : Sending) (hm : s.m = m) (hi : s.i = i)
    (h0 : s.done = 0) (hw : s.writing = false) (hres : s.res = .ok)
    (hlen : s.payload.length = s.len) (hbuf : s.iov = none → bufOf (w.msgs m) = s.buf)
    (flags : Int) :
    Walk o (Drained env) w (tnTcpSendStream w m i s.buf s.iov s.len flags).1 := by
  subst hm hi
  have start := Acts.sound (send_start (permits_true w) ht hn hrefs s h0 hw hu hlen hlast hbuf) hs
  have begun : Walk o (Drained env) w
      (w.emit (.sendStart (w.callOf s.m) (sendPayload s.buf s.iov s.len))) := Walk.refl.same rfl
  have slots : (w.emit (.sendStart (w.callOf s.m) (sendPayload s.buf s.iov s.len))).sockets =
      w.sockets := rfl
  have envs : (w.emit (.sendStart (w.callOf s.m) (sendPayload s.buf s.iov s.len))).env <:+ env := he
  unfold tnTcpSendStream
  dsimp only
  generalize w.emit (.sendStart (w.callOf s.m) (sendPayload s.buf s.iov s.len)) = w1
    at start begun slots envs
  rw [← slots]
  split
  · exact begun.fail _
  · split
    · exact (begun.quiet (.assign (i := s.i) rfl) (.assign rfl)).fail _
    · split
      · exact begun.fail _
      · rename_i hst
        split
        · exact begun.fail _
        · rename_i hq
          have passed := Acts.sound (send_passed (P := fun _ => True) h0 hw hres hst hq) start
          have loop := sendLoop_walk (o := o) ht s hlen (s.len + 1) w1 0 .ok (Nat.zero_le _) passed
            envs begun
          exact sendFinish_walk _ _ _ _ _ loop

theorem tnIpcCmdSend_walk (hs : (abs (t.pickUp m) w).Sound) (ht : Lax t) (hn : t.sending = none)
    (hrefs : t.refs = []) (he : w.env <:+ env) (hu : (w.sockets i).inUse = true)
    (hlast : w.callOf m + 1 = w.calls) :
    Walk o (Drained env) w (tnIpcCmdSend w m (some i)).1 := by
  have sane : Sane w := ⟨_, ht.pickUp m, hs⟩
  unfold tnIpcCmdSend
  dsimp only
  split
  · rename_i k buf hk hbuf
    obtain rfl : i = k := Option.some.inj hk
    split
    · exact .refuse _
    · split
      · exact tnTcpSendStream_walk hs ht hn hrefs he hu hlast
          { m := m, i := i, buf := buf, iov := none, len := ((w.msgs m).args 1).toNat } rfl rfl rfl
          rfl rfl (length_memBytes ..) (fun _ => by simp [bufOf, hbuf]) _
      · split
        · split
          · unfold sendUdp
            dsimp only
            split
            · exact .refuse _
            · split
              · exact .refuse _
              · exact sendDatagram_walk sane he _ _ _ _
          · exact .refuse _
        · split
          · split
            · unfold sendRaw
              dsimp only
              split
              · exact .refuse _
              · split
                · exact .refuse _
                · exact sendDatagram_walk sane he _ _ _ _
            · exact .refuse _
          · exact .refuse _
  · exact .refuse _

theorem tnIpcCmdSendto_walk (hs : (abs (t.pickUp m) w).Sound) (ht : Lax t) (hn : t.sending = none)
    (hrefs : t.refs = []) (he : w.env <:+ env) (hu : (w.sockets i).inUse = true)
    (hlast : w.callOf m + 1 = w.calls) :
    Walk o (Drained env) w (tnIpcCmdSendto w m (some i)).1 := by
  have sane : Sane w := ⟨_, ht.pickUp m, hs⟩
  unfold tnIpcCmdSendto
  dsimp only
  split
  · rename_i k buf hk _
    obtain rfl : i = k := Option.some.inj hk
    split
    · exact .refuse _
    · split
      · exact tnIpcCmdSend_walk hs ht hn hrefs he hu hlast
      · split
        · split
          · exact sendtoUdp_walk sane he _ _ _
          · exact .refuse _
        · split
          · split
            · exact sendtoRaw_walk sane he _ _
            · exact .refuse _
          · exact .refuse _
  · exact .refuse _

/-- A `sendmsg` with one entry is a plain `send`, reshaped in place. -/
theorem sendmsgChecked_walk (hs : (abs (t.pickUp m) w).Sound) (ht : Lax t) (hn : t.sending = none)
    (hrefs : t.refs = []) (he : w.env <:+ env) (hu : (w.sockets i).inUse = true)
    (hlast : w.callOf m + 1 = w.calls) {iovs : List Iovec} {total : Nat}
    (hlen : ((iovs.map Iovec.data).flatten).length = total) (toAddr : Option SockIn) (flags : Int) :
    Walk o (Drained env) w (sendmsgChecked w m i iovs total toAddr flags).1 := by
  have sane : Sane w := ⟨_, ht.pickUp m, hs⟩
  unfold sendmsgChecked
  dsimp only
  split
  · split
    · rename_i v
      have reshaped : Acts (fun _ => True) (abs (t.pickUp m) w)
          (abs (t.pickUp m) (reshapeSend w m v flags)) := by
        unfold reshapeSend
        rw [abs_modMsg]
        exact .single (.msg (.edit _ _ _ (List.mem_cons_self ..) (Tok.notSending hn m) rfl))
      have edited : Walk o (Drained env) w (reshapeSend w m v flags) := Walk.refl.same rfl
      exact edited.trans (tnIpcCmdSend_walk (Acts.sound reshaped hs) ht hn hrefs he hu hlast)
    · exact tnTcpSendStream_walk hs ht hn hrefs he hu hlast
        { m := m, i := i, buf := fun _ => 0, iov := some iovs, len := total } rfl rfl rfl rfl rfl
        hlen (fun h => by cases h) _
  · split
    · split
      · exact sendtoUdp_walk sane he _ _ _
      · exact .refuse _
    · split
      · split
        · exact sendDatagram_walk sane he _ _ _ _
        · exact .refuse _
      · exact .refuse _

theorem tnIpcCmdSendmsg_walk (hs : (abs (t.pickUp m) w).Sound) (ht : Lax t) (hn : t.sending = none)
    (hrefs : t.refs = []) (he : w.env <:+ env) (hu : (w.sockets i).inUse = true)
    (hlast : w.callOf m + 1 = w.calls) :
    Walk o (Drained env) w (tnIpcCmdSendmsg w m (some i)).1 := by
  unfold tnIpcCmdSendmsg
  dsimp only
  split
  · rename_i k _ hk
    obtain rfl : i = k := Option.some.inj hk
    split
    · exact .refuse _
    · split
      · exact .refuse _
      · split
        · exact .refuse _
        · split
          · exact .refuse _
          · rename_i total htotal
            split
            · exact .refuse _
            · have data := iovTotal_data htotal
              exact sendmsgChecked_walk hs ht hn hrefs he hu hlast (by omega) _ _
  · exact .refuse _
  · exact .refuse _

end Tolunnet
