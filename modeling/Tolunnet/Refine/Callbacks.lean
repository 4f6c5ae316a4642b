import Tolunnet.Refine.Send

/-!
# `Tolunnet.Refine.Callbacks`: the callbacks of a connection

The TCP callbacks of `Tolunnet.Task.Callbacks` as runs of acts, and what each leaves alone. Every
callback of a full pcb is meek: it changes nothing but the slot that its argument names. The lemmas
about runs of acts use the discipline for the rest: the argument of a pcb names the slot that holds
it, so the checks of the callbacks never fail, and the state of the pcb fits the state of the slot.

`Idle t w S` is what the daemon has in hand when lwIP runs: no connection, no accept entry and no
slot that is being freed. Wakeups may be due for the slots that are free, which an incoming
connection can allocate, and for the slots whose parked send the poll callback of a pcb in `S`
resumes.
-/

set_option autoImplicit false

namespace Tolunnet

open World

variable {P : Label → Prop} {t : Tok} {w : World} {i : SlotIdx} {p : PcbId}

/-! ## What the callbacks leave alone -/

namespace Meek

/-- A parked send goes on. -/
theorem tnTcpResumeSend : Meek i w (tnTcpResumeSend w i) := by
  unfold Tolunnet.tnTcpResumeSend
  dsimp only
  split
  · exact refl w
  · split
    · exact tnSlotReplySend _ _
    · split
      · exact tnSlotReplySend _ _
      · rename_i m _ _ _ p _
        have hw := Only.tnTcpWriteSome (S := ∅) p (w.callOf m) (bufOf (w.msgs m))
          ((w.msgs m).args 1).toNat (((w.msgs m).args 1).toNat - (w.sockets i).sendDone) w
          ((w.sockets i).sendIov.map fun l => (l, 0)) (w.sockets i).sendDone
        generalize Tolunnet.tnTcpWriteSome p (w.callOf m) (bufOf (w.msgs m))
          ((w.msgs m).args 1).toNat (((w.msgs m).args 1).toNat - (w.sockets i).sendDone) w
          ((w.sockets i).sendIov.map fun l => (l, 0)) (w.sockets i).sendDone = r at hw
        have ho : Only ∅ w (if r.2.1 ≠ (w.sockets i).sendDone then tcpOutput r.1 p else r.1) := by
          split
          · exact hw.trans (.readFull _)
          · exact hw
        generalize (if r.2.1 ≠ (w.sockets i).sendDone then tcpOutput r.1 p else r.1) = w1 at ho
        have hm : Meek i w (w1.modSlot i fun s => { s with sendDone := r.2.1 }) :=
          (of_only ho).trans (assign _ fun _ => by exact ⟨rfl, rfl, rfl, rfl, rfl, rfl⟩)
        split
        · exact hm
        · exact hm.trans (tnSlotReplySend _ _)

theorem tnTcpPollCb : Meek i w (tnTcpPollCb w i p) := by
  unfold Tolunnet.tnTcpPollCb
  dsimp only
  split
  · exact tnTcpResumeSend
  · exact refl w

theorem tnTcpSentCb : Meek i w (tnTcpSentCb w i p) := by
  unfold Tolunnet.tnTcpSentCb
  dsimp only
  split
  · split
    · exact (tnTcpResumeSend.trans tnSignalSocket).trans (tnRecordSocketEvent _)
    · exact tnSignalSocket.trans (tnRecordSocketEvent _)
  · exact refl w

/-- The stream lets go of its pcb. -/
theorem tnTcpDetachFinished : Meek i w (tnTcpDetachFinished w i p) :=
  ((of_only (Only.tcpDetach p)).trans
    (noPcb _ fun _ => by exact ⟨rfl, rfl, rfl, rfl, rfl, rfl⟩)).trans (tnSlotReplySend _ _)

theorem announceRecv (events : Nat) : Meek i w (announceRecv w i events) :=
  (tnSignalSocket.trans (tnRecordSocketEvent _)).trans tnServicePendingRecv

/-- The other side has closed. -/
theorem tnTcpRecvFin : Meek i w (tnTcpRecvFin w i p) := by
  unfold Tolunnet.tnTcpRecvFin
  dsimp only
  split
  · have h : Meek i w (w.modSlot i fun s => { s with tcpState := .peerClosed }) :=
      assign _ fun _ => by exact ⟨rfl, rfl, rfl, rfl, rfl, rfl⟩
    split
    · exact (h.trans tnTcpDetachFinished).trans (announceRecv _)
    · exact h.trans (announceRecv _)
  · exact refl w

/-- A packet enters the queue or is dropped. -/
theorem tnRxQueuePushEx (seg : List UInt8) (ip port : Nat) (capped : Bool) :
    Meek i w (tnRxQueuePushEx w i seg ip port capped).1 := by
  unfold Tolunnet.tnRxQueuePushEx
  dsimp only
  split
  · exact refl w
  · split
    · dsimp only
      refine (of_only .asked).trans ?_
      exact assign _ fun _ => by exact ⟨rfl, rfl, rfl, rfl, rfl, rfl⟩
    · exact of_only .asked

/-- A segment is copied to the queue. -/
theorem tnTcpQueueClone (seg : List UInt8) (capped : Bool) :
    Meek i w (tnTcpQueueClone w i seg capped).1 := by
  unfold Tolunnet.tnTcpQueueClone
  split
  · exact refl w
  · split
    · have h := (of_only (w := w) .asked).trans
        (tnRxQueuePushEx (i := i) (w := w.asked) seg 0 0 capped)
      split
      · rename_i heq
        rw [heq] at h
        exact h.trans (of_only (.emit _ (by simp)))
      · rename_i heq
        rw [heq] at h
        exact h
    · exact of_only .asked

/-- A segment arrives. -/
theorem tnTcpRecvCb (seg : List UInt8) : Meek i w (tnTcpRecvCb w i p seg).1 := by
  have free : ∀ w, Meek i w (w.emit (.pbufFree seg)) := fun w => of_only (.emit _ (by simp))
  unfold Tolunnet.tnTcpRecvCb
  dsimp only
  split
  · split
    · exact (tcpRecvedFor _ _).trans (free _)
    · have h := tnTcpQueueClone (i := i) (w := w) seg true
      split
      · rename_i heq
        rw [heq] at h
        exact h.trans (announceRecv _)
      · rename_i w1 heq
        rw [heq] at h
        split
        · have h' := h.trans (tnTcpQueueClone (i := i) (w := w1) seg false)
          split
          · rename_i heq'
            rw [heq'] at h'
            exact h'.trans (announceRecv _)
          · rename_i heq'
            rw [heq'] at h'
            exact (h'.trans (assign _ fun _ => by exact ⟨rfl, rfl, rfl, rfl, rfl, rfl⟩)).trans
              (free _)
        · exact h
  · exact free w

/-- The handshake is done. -/
theorem tnTcpConnectedCb : Meek i w (tnTcpConnectedCb w i p) := by
  unfold Tolunnet.tnTcpConnectedCb
  dsimp only
  split
  · exact ((((of_only (.onFull _ _)).trans
      (assign _ fun _ => by exact ⟨rfl, rfl, rfl, rfl, rfl, rfl⟩)).trans tnSignalSocket).trans
      (tnRecordSocketEvent _)).trans (replyPending _ _ _)
  · exact refl w

/-- The connection is lost. -/
theorem tnTcpErrCb (e : ErrT) : Meek i w (tnTcpErrCb w i e) := by
  unfold Tolunnet.tnTcpErrCb
  dsimp only
  split
  · have cut : Meek i w (w.modSlot i fun s => { s with tcpPcb := none }) :=
      noPcb _ fun _ => by exact ⟨rfl, rfl, rfl, rfl, rfl, rfl⟩
    split
    · exact ((((cut.trans (assign _ fun _ => by exact ⟨rfl, rfl, rfl, rfl, rfl, rfl⟩)).trans
        tnSignalSocket).trans (tnRecordSocketEvent _)).trans (tnSlotReplySend _ _)).trans
        tnServicePendingRecv
    · have h := ((cut.trans (assign (fun s => { s with
        tcpState := .error, lastError := connErrno (w.sockets i).tcpState e })
        fun _ => by exact ⟨rfl, rfl, rfl, rfl, rfl, rfl⟩)).trans
        tnSignalSocket).trans (tnRecordSocketEvent fdError)
      split
      · exact (((h.trans (replyPending _ _ _)).trans
          (assign _ fun _ => by exact ⟨rfl, rfl, rfl, rfl, rfl, rfl⟩)).trans
          (tnSlotReplySend _ _)).trans tnServicePendingRecv
      · exact (h.trans (tnSlotReplySend _ _)).trans tnServicePendingRecv
  · exact refl w

theorem modEntry (e : EntId) (f : TnAcceptEntry → TnAcceptEntry) : Meek i w (modEntry w i e f) :=
  assign _ fun _ => by exact ⟨rfl, rfl, rfl, rfl, rfl, rfl⟩

theorem tnAcceptQueueRemove (e : EntId) : Meek i w (tnAcceptQueueRemove w i e) := by
  unfold Tolunnet.tnAcceptQueueRemove
  split
  · exact assign _ fun _ => by exact ⟨rfl, rfl, rfl, rfl, rfl, rfl⟩
  · exact refl w

/-- A datagram arrives. -/
theorem queueDgram (seg : List UInt8) (ip port : Nat) : Meek i w (queueDgram w i seg ip port) := by
  unfold Tolunnet.queueDgram
  dsimp only
  split
  · exact refl w
  · split
    · have h := (of_only (w := w) .asked).trans
        (tnRxQueuePushEx (i := i) (w := w.asked) seg ip port true)
      split
      · rename_i heq
        rw [heq] at h
        exact h.trans (announceRecv _)
      · rename_i heq
        rw [heq] at h
        exact h
    · exact of_only .asked

end Meek

/-! ## Who owns a pcb -/

/-- What the daemon has in hand when lwIP runs. -/
structure Idle (t : Tok) (w : World) (S : Set PcbId) : Prop where
  conn : t.conn = none
  ent : t.ent = none
  joined : t.joined = none
  dying : t.dying = []
  free : ∀ j r, (w.sockets j).inUse = false → (j, r) ∈ t.owes
  poll : ∀ j p, p ∈ S → (w.sockets j).tcpPcb = some p → (w.sockets j).pending .send ≠ none →
    (j, .write) ∈ t.owes

/-- Gentle changes keep the daemon idle. -/
theorem Idle.calm {S : Set PcbId} {w' : World} (h : Idle t w S) (hc : Calm w w') : Idle t w' S where
  conn := h.conn
  ent := h.ent
  joined := h.joined
  dying := h.dying
  free := fun j r hj => h.free j r (hc.free hj)
  poll := fun j p hp ht hs => by
    cases hu : (w.sockets j).inUse with
    | false => exact h.free j .write hu
    | true =>
      refine h.poll j p hp ?_ fun hn => hs (hc.empty hn)
      rcases (hc.slots j hu).tcp with he | he
      · rw [← he, ht]
      · rw [he] at ht
        cases ht

/-- The slot that a callback finds in its argument holds the pcb. -/
structure Owner (w : World) (p : PcbId) (c : TcpPcb) (i : SlotIdx) : Prop where
  inUse : (w.sockets i).inUse = true
  tcp : (w.sockets i).tcpPcb = some p
  arg : c.arg = .slot i
  linked : Linked c.view (w.sockets i).tcpState

/-- A live pcb that has not been let go belongs to the slot it names. -/
theorem owner_of_arg (hs : (abs t w).Sound) (hn : t.conn = none) {c : TcpPcb}
    (hc : w.tcpPcbs p = some c) (hi : c.arg.slotIdx = some i) (ho : ¬ c.view.Orphan) :
    Owner w p c i := by
  have hc' : (abs t w).pcb p = some c.view := abs_pcb_some.mpr ⟨c, hc, rfl⟩
  have hown := (hs.disc.owned p c.view hc').resolve_left (by rw [abs_tok, hn]; simp)
  unfold Abs.Owned at hown
  cases ha : c.arg with
  | null =>
    rw [show c.view.arg = .null from ha] at hown
    exact absurd hown ho
  | entry e =>
    rw [ha] at hi
    cases hi
  | slot j =>
    rw [ha] at hi
    obtain rfl : j = i := Option.some.inj hi
    rw [show c.view.arg = .slot j from ha] at hown
    have ht : (w.sockets j).tcpPcb = some p := hown
    obtain ⟨v, hv, -, hl⟩ := (hs.disc.slots j).pcb p ht
    rw [hc', Option.some.injEq] at hv
    subst hv
    refine ⟨?_, ht, ha, hl⟩
    cases hu : (w.sockets j).inUse with
    | true => rfl
    | false =>
      have hf := ((hs.disc.slots j).free hu).2.1
      rw [show ((abs t w).slot j).tcp = some p from ht] at hf
      cases hf

/-- Nobody else holds that pcb. -/
theorem Owner.unique {c : TcpPcb} (h : Owner w p c i) (hs : (abs t w).Sound)
    (hc : w.tcpPcbs p = some c) {j : SlotIdx} (hj : (w.sockets j).tcpPcb = some p) : j = i := by
  obtain ⟨v, hv, ha, -⟩ := (hs.disc.slots j).pcb p hj
  obtain ⟨c', hc', rfl⟩ := abs_pcb_some.mp hv
  rw [hc, Option.some.injEq] at hc'
  subst hc'
  have ha : c.arg = .slot j := ha
  rw [h.arg] at ha
  exact (CbArg.slot.inj ha).symm

/-- A connection that carries data is established on the slot's side too. -/
theorem Linked.open_of_synced {c : PcbView} {st : TnTcpState} (h : Linked c st)
    (hl : c.listen = false) (hs : c.state.synced = true) :
    st = .established ∨ st = .peerClosed := by
  cases st with
  | established => exact Or.inl rfl
  | peerClosed => exact Or.inr rfl
  | error => exact h.elim
  | listening =>
    have h : c.listen = true := h
    rw [hl] at h
    cases h
  | closed =>
    rw [h.2.2.2] at hs
    cases hs
  | connecting =>
    rw [h.2.2.2] at hs
    cases hs

/-- No connect waits on a slot that is past the handshake. -/
theorem no_connect (hs : (abs t w).Sound) (hj : t.joined = none)
    (ht : (w.sockets i).tcpPcb = some p) (hst : (w.sockets i).tcpState ≠ .connecting) :
    (w.sockets i).pending .connect = none := by
  by_contra hne
  rcases (hs.disc.slots i).connect hne with h | h | h
  · exact hst h
  · rw [show ((abs t w).slot i).tcp = some p from ht] at h
    cases h
  · rw [abs_tok, hj] at h
    cases h

/-! ## The sending side -/

theorem Tok.owe_mem {r : Ready} (h : (i, r) ∈ t.owes) : t.owe i r = t := by
  unfold Tok.owe
  rw [Set.insert_eq_of_mem h]

/-- `tn_tcp_poll_cb` tells nobody that the slot has become writable. -/
theorem tnTcpPollCb_acts (ho : (w.sockets i).pending .send ≠ none → (i, .write) ∈ t.owes) :
    Acts P (abs t w) (abs t (tnTcpPollCb w i p)) := by
  unfold tnTcpPollCb
  dsimp only
  split
  · rename_i h
    have hr := tnTcpResumeSend_acts (P := P) (t := t) h.1
    rwa [Tok.owe_mem (ho (by rw [← Option.isSome_iff_ne_none]; exact h.2.2))] at hr
  · exact .refl

/-- `tn_tcp_sent_cb` of the owner pays what is due on the slot. -/
theorem tnTcpSentCb_acts (hu : (w.sockets i).inUse = true) (ht : (w.sockets i).tcpPcb = some p) :
    Acts P (abs t w) (abs (t.paid i) (tnTcpSentCb w i p)) := by
  unfold tnTcpSentCb
  dsimp only
  rw [if_pos ⟨hu, ht⟩, abs_tnRecordSocketEvent]
  split
  · refine (tnTcpResumeSend_acts hu).trans ((tnSignalSocket_acts i).trans (acts_weaken ?_))
    refine ⟨rfl, ?_, subset_rfl⟩
    rintro x ⟨hx, hn⟩
    refine ⟨hx.resolve_left fun he => hn ?_, hn⟩
    rw [he]
    rfl
  · exact tnSignalSocket_acts i

/-- The peer acknowledges data on a connection. -/
theorem sent_acts (hs : (abs t w).Sound) {c : TcpPcb} (hc : w.tcpPcbs p = some c)
    (ho : Owner w p c i) (n q : Nat) :
    Acts P (abs t w)
      (abs t (tnTcpSentCb (w.setPcb p (some { c with sndBuf := n, sndQueuelen := q })) i p)) := by
  have h1 : Acts P (abs t w) (abs { t with owes := t.owes ∪ {x | (w.sockets x.1).tcpPcb = some p} }
      (w.setPcb p (some { c with sndBuf := n, sndQueuelen := q }))) :=
    Acts.one (.tcp (.space (abs t w) p c.view n q (abs_pcb_some.mpr ⟨c, hc, rfl⟩)))
      (abs_with (t := t) (abs_setPcb ..) _)
  refine h1.trans ((tnTcpSentCb_acts (w := w.setPcb p _) ho.inUse ho.tcp).trans
    (acts_weaken ⟨rfl, ?_, subset_rfl⟩))
  rintro x ⟨hx | hx, hn⟩
  · exact hx
  · exact absurd (ho.unique hs hc hx) hn

/-! ## The receiving side -/

/-- The wakeup is paid and the parked read has been looked at. -/
theorem announceRecv_acts (events : Nat) :
    Acts P (abs (t.due i .recv) w) (abs (t.paid i) (announceRecv w i events)) := by
  have h : Acts P (abs (t.due i .recv) w) (abs ((t.paid i).due i .recv)
      (tnRecordSocketEvent (tnSignalSocket w i) i events)) := by
    rw [abs_tnRecordSocketEvent]
    exact tnSignalSocket_acts i
  exact h.trans tnServicePendingRecv_acts

/-- The wakeup that a new packet makes due. -/
theorem announceRecv_pays (events : Nat) :
    Acts P (abs ((t.owe i .read).due i .recv) w) (abs t (announceRecv w i events)) :=
  (announceRecv_acts events).trans (acts_weaken (t.paid_owe_le i .read))

/-- A packet is queued, or nothing happens. -/
theorem tnRxQueuePushEx_acts (seg : List UInt8) (ip port : Nat) (capped : Bool)
    (ht : (w.sockets i).type ≠ sockStream ∨ ((w.sockets i).tcpPcb.isSome ∧
      ((w.sockets i).tcpState = .established ∨ (w.sockets i).tcpState = .peerClosed))) :
    if (tnRxQueuePushEx w i seg ip port capped).2 then
      Acts P (abs t w)
        (abs ((t.owe i .read).due i .recv) (tnRxQueuePushEx w i seg ip port capped).1)
    else abs t (tnRxQueuePushEx w i seg ip port capped).1 = abs t w ∧
      Only ∅ w (tnRxQueuePushEx w i seg ip port capped).1 := by
  unfold tnRxQueuePushEx
  dsimp only
  split
  · exact ⟨rfl, .refl w⟩
  · rename_i hu
    split
    · refine Acts.one (.rx (.push (abs t w) i { p := seg, srcIp := ip, srcPort := port }
        (by simp at hu; exact hu.1) rfl ht)) ?_
      dsimp only
      rw [abs_modSlot]
      rfl
    · exact ⟨rfl, .asked⟩

/-- A segment is queued, or stays with lwIP. -/
theorem tnTcpQueueClone_acts (seg : List UInt8) (capped : Bool)
    (ht : (w.sockets i).tcpPcb.isSome ∧
      ((w.sockets i).tcpState = .established ∨ (w.sockets i).tcpState = .peerClosed)) :
    if (tnTcpQueueClone w i seg capped).2 then
      Acts P (abs t w) (abs ((t.owe i .read).due i .recv) (tnTcpQueueClone w i seg capped).1)
    else abs t (tnTcpQueueClone w i seg capped).1 = abs t w ∧
      Only ∅ w (tnTcpQueueClone w i seg capped).1 := by
  unfold tnTcpQueueClone
  split
  · exact ⟨rfl, .refl w⟩
  · split
    · have h := tnRxQueuePushEx_acts (P := P) (t := t) (w := w.asked) (i := i) seg 0 0 capped
        (Or.inr ht)
      split
      · rename_i heq
        rw [heq] at h
        rw [if_pos rfl] at h ⊢
        rw [abs_emit_pbufFree]
        exact h
      · rename_i heq
        rw [heq] at h
        rw [if_neg Bool.false_ne_true] at h ⊢
        exact ⟨h.1, Only.asked.trans h.2⟩
    · exact ⟨rfl, .asked⟩

/-- A segment arrives on a connection of a slot. -/
theorem tnTcpRecvCb_acts {c : TcpPcb} (hc : w.tcpPcbs p = some c) (ho : Owner w p c i)
    (hl : c.listen = false) (hsy : c.state.synced = true) (seg : List UInt8) :
    Acts P (abs t w) (abs t (tnTcpRecvCb w i p seg).1) := by
  have hst : (w.sockets i).tcpState = .established ∨ (w.sockets i).tcpState = .peerClosed :=
    ho.linked.open_of_synced hl hsy
  have hopen : (w.sockets i).tcpPcb.isSome ∧
      ((w.sockets i).tcpState = .established ∨ (w.sockets i).tcpState = .peerClosed) :=
    ⟨by rw [ho.tcp]; rfl, hst⟩
  unfold tnTcpRecvCb
  dsimp only
  rw [if_pos ⟨ho.inUse, ho.tcp⟩]
  split
  · rename_i hrd
    have hf : (abs t w).Full p := ⟨c.view, abs_pcb_some.mpr ⟨c, hc, rfl⟩, hl⟩
    rw [abs_emit_pbufFree]
    exact Acts.one (.rx (.window (abs t w) i seg.length hrd)) (abs_tcpRecvedFor hf _)
  · have h := tnTcpQueueClone_acts (P := P) (t := t) seg true hopen
    split
    · rename_i heq
      rw [heq, if_pos rfl] at h
      exact h.trans (announceRecv_pays _)
    · rename_i w1 heq
      rw [heq, if_neg Bool.false_ne_true] at h
      obtain ⟨ha, hw⟩ := h
      split
      · -- the connection is finished: lwIP will not deliver the segment again
        have h := tnTcpQueueClone_acts (P := P) (t := t) (w := w1) (i := i) seg false
          (by rw [hw.sockets]; exact hopen)
        split
        · rename_i heq'
          rw [heq', if_pos rfl, ha] at h
          exact h.trans (announceRecv_pays _)
        · rename_i w2 heq'
          rw [heq', if_neg Bool.false_ne_true] at h
          rw [abs_emit_pbufFree]
          refine Acts.one (.rx (.lost (abs t w) i)) ?_
          rw [abs_modSlot, h.1, ha, h.2.sockets, hw.sockets]
          rfl
      · exact Acts.none ha

/-- The slot lets go of a connection that lwIP has finished. -/
theorem tnTcpDetachFinished_acts {c : TcpPcb} (hc : w.tcpPcbs p = some c) (hl : c.listen = false)
    (hsy : c.state.synced = true) (hu : (w.sockets i).inUse = true)
    (ht : (w.sockets i).tcpPcb = some p) (hst : (w.sockets i).tcpState = .peerClosed) :
    Acts P (abs t w) (abs (t.cutOff i) (tnTcpDetachFinished w i p)) := by
  have hv : (abs t w).pcb p = some c.view := abs_pcb_some.mpr ⟨c, hc, rfl⟩
  have hd := abs_tcpDetach hv hl
  have ho : (tcpDetach w p).sockets = w.sockets := (Only.tcpDetach (S := ∅) p).sockets
  have hrel : Acts P (abs t w) (abs (t.cutOff i)
      ((tcpDetach w p).modSlot i fun s => { s with tcpPcb := none, shutWr := true })) := by
    refine Acts.one (.tcp (.release (abs t w) i p (some c.view.orphaned) .peerClosed true
      ((abs t w).slot i).err hu ht ?_ (fun h => by cases h) (fun h => ?_) (Or.inr (Or.inl rfl))))
      (abs_with (t := t) ?_ _)
    · intro c' hc'
      rw [Option.some.injEq] at hc'
      subst hc'
      exact PcbView.orphaned_orphan (c := c.view) hl hsy
    · rw [show ((abs t w).slot i).st = .peerClosed from hst] at h
      cases h
    · rw [abs_modSlot, hd, ho, ← hst]
      rfl
  refine hrel.trans (tnSlotReplySend_noPcb i rfl ?_)
  rw [sockets_modSlot]

/-- After the slot has been cut off, the wakeup and the parked read are seen to. -/
theorem announceRecv_cutOff (events : Nat) (hn : (w.sockets i).pending .connect = none) :
    Acts P (abs (t.cutOff i) w) (abs t (announceRecv w i events)) := by
  refine (acts_served (t := (t.oweAll i).due i .recv) (Or.inl hn)).trans ?_
  exact (announceRecv_acts events).trans (acts_weaken (t.paid_oweAll_le i))

/-- The peer of a connection of a slot has closed its side. -/
theorem tnTcpRecvFin_acts (hs : (abs t w).Sound) (hj : t.joined = none) {c : TcpPcb}
    (hc : w.tcpPcbs p = some c) (ho : Owner w p c i) (hl : c.listen = false)
    (hsy : c.state.synced = true) : Acts P (abs t w) (abs t (tnTcpRecvFin w i p)) := by
  have hst : (w.sockets i).tcpState = .established ∨ (w.sockets i).tcpState = .peerClosed :=
    ho.linked.open_of_synced hl hsy
  have hn : (w.sockets i).pending .connect = none :=
    no_connect hs hj ho.tcp (by rcases hst with h | h <;> rw [h] <;> decide)
  unfold tnTcpRecvFin
  dsimp only
  rw [if_pos ⟨ho.inUse, ho.tcp⟩]
  have h1 : Acts P (abs t w) (abs ((t.owe i .read).due i .recv)
      (w.modSlot i fun s => { s with tcpState := .peerClosed })) :=
    Acts.one (.tcp (.fin (abs t w) i p ho.inUse ho.tcp hst)) (abs_with (t := t) (abs_modSlot ..) _)
  refine h1.trans ?_
  have hsl : (w.modSlot i fun s => { s with tcpState := .peerClosed }).sockets i
      = { w.sockets i with tcpState := .peerClosed } := sockets_modSlot ..
  split
  · have hd := tnTcpDetachFinished_acts (P := P) (t := (t.owe i .read).due i .recv) (i := i)
      (w := w.modSlot i fun s => { s with tcpState := .peerClosed }) hc hl hsy
      (by rw [hsl]; exact ho.inUse) (by rw [hsl]; exact ho.tcp) (by rw [hsl])
    have hm : Meek i w (tnTcpDetachFinished
        (w.modSlot i fun s => { s with tcpState := .peerClosed }) i p) :=
      (Meek.assign _ fun _ => by exact ⟨rfl, rfl, rfl, rfl, rfl, rfl⟩).trans .tnTcpDetachFinished
    refine hd.trans (Relation.ReflTransGen.trans (acts_weaken ?_)
      (announceRecv_cutOff _ (hm.calm.empty hn)))
    exact ⟨rfl, Set.union_subset (Set.insert_subset (Or.inr rfl) Set.subset_union_left)
      Set.subset_union_right, by
        show insert _ (insert _ (insert _ t.serve)) ⊆ insert _ (insert _ t.serve)
        rw [Set.insert_idem]⟩
  · exact announceRecv_pays _

/-! ## The handshake and the end -/

/-- The handshake of a connection of a slot is complete. -/
theorem connected_acts (hj : t.joined = none) {c : TcpPcb} (hc : w.tcpPcbs p = some c)
    (ho : Owner w p c i) (hl : c.listen = false) (hst : c.state = .synSent) :
    Acts P (abs t w)
      (abs t (tnTcpConnectedCb (w.setPcb p (some { c with state := .established })) i p)) := by
  generalize hw1 : w.setPcb p (some { c with state := .established }) = w1
  have hs1 : w1.sockets = w.sockets := by rw [← hw1]; rfl
  have hc1 : w1.tcpPcbs p = some { c with state := .established } := by
    rw [← hw1]
    exact Function.update_self ..
  unfold tnTcpConnectedCb
  rw [hs1, if_pos ⟨ho.inUse, ho.tcp⟩]
  dsimp only
  have hf : (abs t w1).Full p := ⟨_, abs_pcb_some.mpr ⟨_, hc1, rfl⟩, hl⟩
  have hng : (tcpNagle w1 p true).sockets = w.sockets :=
    (Only.onFull (S := ∅) (w := w1) _ _).sockets.trans hs1
  -- the slot is established and owes its wakeup and the answer to the connect
  have h1 : Acts P (abs t w)
      (abs { (t.owe i .write).due i .connect with joined := some i }
        ((tcpNagle w1 p true).modSlot i fun s => { s with tcpState := .established })) := by
    refine Acts.one (.tcp (.connected (abs t w) i p c.view ho.inUse ho.tcp
      (abs_pcb_some.mpr ⟨c, hc, rfl⟩) hl hst hj)) (abs_with (t := t) ?_ _)
    rw [abs_modSlot, abs_tcpNagle hf, hng, ← hw1, abs_setPcb]
    rfl
  generalize (tcpNagle w1 p true).modSlot i (fun s => { s with tcpState := .established }) = w2 at h1
  have h2 : Acts P (abs { (t.owe i .write).due i .connect with joined := some i } w2)
      (abs { t.due i .connect with joined := some i }
        (tnRecordSocketEvent (tnSignalSocket w2 i) i (fdConnect ||| fdWrite))) := by
    rw [abs_tnRecordSocketEvent]
    exact (tnSignalSocket_acts i).trans (acts_weaken ⟨rfl, (t.paid_owe_le i .write).owes, subset_rfl⟩)
  generalize tnRecordSocketEvent (tnSignalSocket w2 i) i (fdConnect ||| fdWrite) = w3 at h2
  have hp : ((replyPending w3 i .connect 0 .ok).sockets i).pending .connect = none :=
    pending_replyPending ..
  have h3 : Acts P (abs { t.due i .connect with joined := some i } (replyPending w3 i .connect 0 .ok))
      (abs (t.due i .connect) (replyPending w3 i .connect 0 .ok)) := by
    refine Acts.one (.tcp (.joined _ i rfl hp)) ?_
    rw [abs_setTok, abs_tok, ← hj]
    rfl
  exact ((h1.trans h2).trans (replyPending_acts i (by decide) _ _)).trans
    (h3.trans (acts_served (Or.inl hp)))

/-- A slot that has lost its pcb signals, and answers or keeps what waits on it. -/
theorem cutOff_signal (events : Nat) :
    Acts P (abs (t.cutOff i) w) (abs ((t.due i .connect).due i .recv)
      (tnRecordSocketEvent (tnSignalSocket w i) i events)) := by
  rw [abs_tnRecordSocketEvent]
  refine (tnSignalSocket_acts i).trans (acts_weaken ⟨rfl, (t.paid_oweAll_le i).owes, ?_⟩)
  exact (Set.insert_comm _ _ _).subset

/-- An errno that a lost connection leaves. -/
theorem connErrno_interrupts (st : TnTcpState) (e : ErrT) : (connErrno st e).interrupts = true := by
  unfold connErrno
  split <;> split <;> rfl

/-- What waits on a slot without a pcb is answered or has no place there. -/
theorem cutOff_serve {e : Errno} (he : e.interrupts = true) (hp : (w.sockets i).tcpPcb = none)
    (hn : (w.sockets i).pending .connect = none) :
    Acts P (abs ((t.due i .connect).due i .recv) w)
      (abs t (tnServicePendingRecv (tnSlotReplySend w i e true) i)) := by
  refine (tnSlotReplySend_noPcb i he hp).trans (tnServicePendingRecv_acts.trans ?_)
  have hm : Meek i w (tnServicePendingRecv (tnSlotReplySend w i e true) i) :=
    (Meek.tnSlotReplySend e true).trans .tnServicePendingRecv
  exact acts_served (Or.inl (hm.calm.empty hn))

/-- lwIP has freed the pcb of a slot. -/
theorem err_acts (hs : (abs t w).Sound) (hj : t.joined = none) {c : TcpPcb}
    (ho : Owner w p c i) (hl : c.listen = false) (e : ErrT) :
    Acts P (abs t w) (abs t (tnTcpErrCb (w.setPcb p none) i e)) := by
  have hls : (w.sockets i).tcpState ≠ .listening := by
    intro h
    have hk := ho.linked
    rw [h] at hk
    have hk : c.listen = true := hk
    rw [hl] at hk
    cases hk
  -- the slot is without a pcb from here on
  have hrel : ∀ (st : TnTcpState) (eno : Errno), st = .peerClosed ∨ st = .error →
      Acts P (abs t w) (abs (t.cutOff i)
        (((w.setPcb p none).modSlot i fun s => { s with tcpPcb := none }).modSlot i fun s =>
          { s with tcpState := st, lastError := eno })) := by
    intro st eno hst
    refine Acts.one (.tcp (.release (abs t w) i p none st ((abs t w).slot i).shutWr (eno != .ok)
      ho.inUse ho.tcp (by simp) (fun h => ?_) (fun h => absurd h hls) (Or.inr ?_)))
      (abs_with (t := t) ?_ _)
    · rcases hst with rfl | rfl <;> cases h
    · exact hst.imp_right Or.inl
    · rw [abs_modSlot, abs_modSlot, abs_setPcb, sockets_modSlot]
      simp only [slotSet_slotSet, Option.map_none]
      rfl
  have hnone : ∀ (st : TnTcpState) (eno : Errno) (events : Nat),
      ((tnRecordSocketEvent (tnSignalSocket (((w.setPcb p none).modSlot i fun s =>
        { s with tcpPcb := none }).modSlot i fun s => { s with tcpState := st, lastError := eno }) i)
        i events).sockets i).tcpPcb = none := by
    intro st eno events
    have hm := (Meek.tnSignalSocket (i := i) (w := ((w.setPcb p none).modSlot i fun s =>
      { s with tcpPcb := none }).modSlot i fun s =>
      { s with tcpState := st, lastError := eno })).trans (.tnRecordSocketEvent events)
    refine hm.slot.tcp.elim (fun h => h.trans ?_) id
    rw [sockets_modSlot, sockets_modSlot]
  unfold tnTcpErrCb
  rw [if_pos (show ((w.setPcb p none).sockets i).inUse = true from ho.inUse)]
  dsimp only
  split
  · rename_i h
    have hn : (w.sockets i).pending .connect = none := no_connect hs hj ho.tcp h.2
    refine (hrel .peerClosed .ok (Or.inl rfl)).trans ((cutOff_signal _).trans
      (cutOff_serve rfl (hnone _ _ _) ?_))
    have hm := (Meek.tnSignalSocket (i := i) (w := ((w.setPcb p none).modSlot i fun s =>
      { s with tcpPcb := none }).modSlot i fun s =>
      { s with tcpState := .peerClosed, lastError := .ok })).trans (.tnRecordSocketEvent fdClose)
    refine hm.calm.empty ?_
    rw [sockets_modSlot, sockets_modSlot]
    exact hn
  · refine (hrel .error (connErrno (w.sockets i).tcpState e) (Or.inr rfl)).trans
      ((cutOff_signal fdError).trans ?_)
    have hnp := hnone .error (connErrno (w.sockets i).tcpState e) fdError
    have hi := connErrno_interrupts (w.sockets i).tcpState e
    rw [show ((w.setPcb p none).sockets i).tcpState = (w.sockets i).tcpState from rfl]
    generalize connErrno (w.sockets i).tcpState e = eno at hnp hi
    generalize tnRecordSocketEvent _ i fdError = w1 at hnp
    split
    · have hclr : Acts P (abs ((t.due i .connect).due i .recv) w1)
          (abs ((t.due i .connect).due i .recv)
            ((replyPending w1 i .connect (-1) eno).modSlot i fun s => { s with lastError := .ok })) :=
        (replyPending_acts i (by decide) _ _).trans
          (Acts.one (.rx (.clearErr _ i)) (abs_modSlot ..))
      refine hclr.trans (cutOff_serve hi ?_ ?_)
      · rw [sockets_modSlot]
        exact ((Meek.replyPending .connect (-1) eno).slot.tcp.elim (fun h => h.trans hnp) id)
      · rw [sockets_modSlot]
        exact pending_replyPending ..
    · rename_i h
      exact cutOff_serve hi hnp (by simpa using h)

end Tolunnet
