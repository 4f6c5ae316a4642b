import Tolunnet.Task.Tcp

/-!
# `Tolunnet.Calls.Shutdown`: half-closing a connection

`SHUTDOWN` notes in the slot which directions are shut, and then works on the connection. `Atomic`
says that a call that fails leaves the slot as it was. `Repeatable` says that a call for directions
that are already shut succeeds and does nothing, whatever lwIP would answer: it is what `Shuts`
leads to, by which a call that succeeds has shut its directions. `Sound` is all of this.

The handler sets its flags before it asks lwIP. lwIP refuses to send a FIN on a connection that has
sent one, and so a second `SHUT_WR` fails, and a first one that fails leaves its flag behind.
-/

set_option autoImplicit false

namespace Tolunnet

open World

variable {w : World} {m : MsgId} {i : SlotIdx} {p : PcbId}

namespace Shutdown

/-! ## The specification -/

/-- The second argument: `SHUT_RD`, `SHUT_WR` or `SHUT_RDWR`. -/
def howOf (w : World) (m : MsgId) : Int := (w.msgs m).args 1

/-- Whether a call shuts the receiving side. -/
def shutsRd (how : Int) : Bool := how == 0 || how == 2

/-- Whether a call shuts the sending side. -/
def shutsWr (how : Int) : Bool := how == 1 || how == 2

/-- The flags, the state, the pcb and the queues of slot `i`, and every connection of lwIP. -/
structure Same (w w' : World) (i : SlotIdx) : Prop where
  shutRd : (w'.sockets i).shutRd = (w.sockets i).shutRd
  shutWr : (w'.sockets i).shutWr = (w.sockets i).shutWr
  state : (w'.sockets i).tcpState = (w.sockets i).tcpState
  pcb : (w'.sockets i).tcpPcb = (w.sockets i).tcpPcb
  rx : (w'.sockets i).rx = (w.sockets i).rx
  rxCount : (w'.sockets i).rxCount = (w.sockets i).rxCount
  acceptQ : (w'.sockets i).acceptQ = (w.sockets i).acceptQ
  acceptCount : (w'.sockets i).acceptCount = (w.sockets i).acceptCount
  pcbs : w'.tcpPcbs = w.tcpPcbs

/-- The result of a `SHUTDOWN`. -/
def resultOf (w : World) (m : MsgId) (i : SlotIdx) : Int :=
  ((tnIpcCmdShutdown w m (some i)).1.msgs m).result

/-- A call that fails changes nothing. -/
def Atomic (w : World) (m : MsgId) (i : SlotIdx) : Prop :=
  resultOf w m i = -1 → Same w (tnIpcCmdShutdown w m (some i)).1 i

/-- The directions of a call are shut. -/
def AlreadyShut (w : World) (m : MsgId) (i : SlotIdx) : Prop :=
  (shutsRd (howOf w m) = true → (w.sockets i).shutRd = true) ∧
    (shutsWr (howOf w m) = true → (w.sockets i).shutWr = true)

/-- A call that succeeds has shut its directions. -/
def Shuts (w : World) (m : MsgId) (i : SlotIdx) : Prop :=
  resultOf w m i = 0 → AlreadyShut (tnIpcCmdShutdown w m (some i)).1 m i

/-- The same state with these answers of lwIP to come. -/
def withEnv (w : World) (env : List Answer) : World := { w with env := env }

/-- A call for directions that are shut succeeds and does nothing, whatever lwIP answers. -/
def Repeatable (w : World) (m : MsgId) (i : SlotIdx) : Prop :=
  AlreadyShut w m i → ∀ env,
    tnIpcCmdShutdown (withEnv w env) m (some i) = done (withEnv w env) m 0 .ok

/-- `SHUTDOWN` is atomic and idempotent in a state. -/
structure Sound (w : World) (m : MsgId) (i : SlotIdx) : Prop where
  atomic : Atomic w m i
  shuts : Shuts w m i
  repeatable : Repeatable w m i

/-! ## The condition -/

/-- The slot holds a pcb and is neither `CLOSED` nor listening: the handler goes on to lwIP. -/
def Connected (w : World) (i : SlotIdx) (p : PcbId) : Prop :=
  (w.sockets i).tcpPcb = some p ∧ (w.sockets i).tcpState ≠ .closed ∧
    (w.sockets i).tcpState ≠ .listening

/-- lwIP does not take the FIN. -/
def Refuses (w : World) (p : PcbId) : Prop := (tcpShutdownTx w p).2 ≠ .ok

/-- Nothing is queued in the slot. -/
def Drained (w : World) (i : SlotIdx) : Prop :=
  (w.sockets i).rx = [] ∧ (w.sockets i).rxCount = 0

/-- A first `SHUT_WR` is not refused. -/
def FinTaken (w : World) (m : MsgId) (i : SlotIdx) : Prop :=
  ∀ p, Connected w i p → howOf w m = 1 → Refuses w p → (w.sockets i).shutWr = true

/-- A call for directions that are shut finds a slot that does not listen and that has left its
connection, or it is `SHUT_RD` on an empty queue. -/
def NothingLeft (w : World) (m : MsgId) (i : SlotIdx) : Prop :=
  AlreadyShut w m i → (w.sockets i).tcpState ≠ .listening ∧
    ∀ p, Connected w i p → howOf w m = 0 ∧ Drained w i

theorem howOf_withEnv (env : List Answer) : howOf (withEnv w env) m = howOf w m := rfl

/-! ## What the handler leaves alone -/

/-- Neither a slot nor a message changes. -/
structure Apart (w w' : World) : Prop where
  sockets : w'.sockets = w.sockets
  msgs : w'.msgs = w.msgs

namespace Apart

/-- Two steps that stay apart from the slot. -/
theorem trans {w w' w'' : World} (h : Apart w w') (h' : Apart w' w'') : Apart w w'' :=
  ⟨h'.sockets.trans h.sockets, h'.msgs.trans h.msgs⟩

theorem onPcb (f : TcpPcb → TcpPcb) : Apart w (w.onPcb p f) := by
  unfold World.onPcb
  split <;> exact ⟨rfl, rfl⟩

/-- A full pcb changes. -/
theorem onFull (op : PcbOp) (f : TcpPcb → TcpPcb) : Apart w (w.onFull p op f) := by
  unfold World.onFull
  split
  · split <;> exact ⟨rfl, rfl⟩
  · exact ⟨rfl, rfl⟩

theorem detach : Apart w (tcpDetach w p) :=
  (onPcb _).trans ((onFull _ _).trans ((onFull _ _).trans ((onFull _ _).trans (onFull _ _))))

/-- lwIP frees the pcb or keeps it. -/
theorem close : Apart w (tcpClose w p).1 := by
  unfold tcpClose
  split
  · exact ⟨rfl, rfl⟩
  · dsimp only
    split_ifs <;> exact ⟨rfl, rfl⟩

/-- lwIP frees the pcb. -/
theorem abort : Apart w (tcpAbort w p) := by
  unfold tcpAbort
  split
  · split <;> exact ⟨rfl, rfl⟩
  · exact ⟨rfl, rfl⟩

theorem of_pair {r : World × ErrT} {w' : World} {e : ErrT} (he : r = (w', e)) (h : Apart w r.1) :
    Apart w w' := by
  rw [he] at h
  exact h

/-- A pcb that cannot be closed is aborted. -/
theorem closeOrAbort : Apart w (tcpCloseOrAbort w p) := by
  unfold tcpCloseOrAbort
  split
  · rename_i heq
    exact of_pair heq close
  · rename_i heq
    exact (of_pair heq close).trans abort

end Apart

/-- The flags of slot `i` and the arguments of message `m` stay. -/
structure Keeps (w w' : World) (m : MsgId) (i : SlotIdx) : Prop where
  shutRd : (w'.sockets i).shutRd = (w.sockets i).shutRd
  shutWr : (w'.sockets i).shutWr = (w.sockets i).shutWr
  args : (w'.msgs m).args = (w.msgs m).args

namespace Keeps

variable {w' w'' : World}

theorem refl (w : World) : Keeps w w m i := ⟨rfl, rfl, rfl⟩

/-- Two steps that keep the flags. -/
theorem trans (h : Keeps w w' m i) (h' : Keeps w' w'' m i) : Keeps w w'' m i :=
  ⟨h'.shutRd.trans h.shutRd, h'.shutWr.trans h.shutWr, h'.args.trans h.args⟩

/-- A step apart from the slot keeps them. -/
theorem of_apart (h : Apart w w') : Keeps w w' m i :=
  ⟨by rw [h.sockets], by rw [h.sockets], by rw [h.msgs]⟩

/-- So does an assignment to other fields. -/
theorem modSlot {f : TnSocketSlot → TnSocketSlot} (hr : (f (w.sockets i)).shutRd = (w.sockets i).shutRd)
    (hw : (f (w.sockets i)).shutWr = (w.sockets i).shutWr) : Keeps w (w.modSlot i f) m i :=
  ⟨by simpa [World.modSlot] using hr, by simpa [World.modSlot] using hw, rfl⟩

theorem setReply (x : MsgId) (r : Int) (e : Errno) : Keeps w (w.setReply x r e) m i := by
  refine ⟨rfl, rfl, ?_⟩
  by_cases hx : m = x <;> simp [World.setReply, modMsg, hx]

/-- The packets go. -/
theorem drain : Keeps w (tnRxQueueDrainWithRecved w i) m i := by
  have back : ∀ (p : PcbId) (l : List TnRxPacket) (w : World), Keeps w
      (l.foldl (fun w pkt => tcpRecvedFor w i p (pkt.p.length - pkt.offset)) w) m i := by
    intro p l
    induction l with
    | nil => exact refl
    | cons pkt l ih =>
      intro w
      have one : Keeps w (tcpRecvedFor w i p (pkt.p.length - pkt.offset)) m i :=
        (of_apart (Apart.onFull _ _)).trans (modSlot rfl rfl)
      exact one.trans (ih _)
  unfold tnRxQueueDrainWithRecved tnRxQueueDrain
  dsimp only
  split
  · exact (back _ _ w).trans (modSlot rfl rfl)
  · exact modSlot rfl rfl

/-- A parked send is answered. -/
theorem replySend (e : Errno) : Keeps w (tnSlotReplySend w i e true) m i := by
  unfold tnSlotReplySend
  split
  · exact refl w
  · rename_i x _
    dsimp only
    generalize hr : sendResult (w.sockets i).sendDone e = r
    have taken : Keeps w ((w.setPending i .send none).setReply x r.1 r.2) m i :=
      (modSlot rfl rfl).trans (setReply x r.1 r.2)
    refine taken.trans ?_
    exact ⟨by simp [World.modSlot, replyMsg, emit], by simp [World.modSlot, replyMsg, emit], rfl⟩

/-- Both sides are shut. -/
theorem both : Keeps w (shutdownBoth w i p) m i := by
  refine drain.trans ((of_apart Apart.detach).trans ((modSlot ?_ ?_).trans
    ((of_apart Apart.closeOrAbort).trans (replySend .epipe))))
  · rfl
  · rfl

end Keeps

/-- After `SHUT_RDWR` the slot has no pcb. -/
theorem tcpPcb_shutdownBoth : ((shutdownBoth w i p).sockets i).tcpPcb = none := by
  have reply : ∀ w : World, ((tnSlotReplySend w i .epipe true).sockets i).tcpPcb =
      (w.sockets i).tcpPcb := by
    intro w
    unfold tnSlotReplySend
    split
    · rfl
    · simp [modSlot, setPending, setReply, modMsg, emit, replyMsg]
  unfold shutdownBoth
  dsimp only
  rw [reply, Apart.closeOrAbort.sockets]
  simp [modSlot]

/-! ## lwIP's answer -/

/-- lwIP is asked to shut the sending side. -/
theorem Apart.shutdownTx : Apart w (tcpShutdownTx w p).1 := by
  unfold tcpShutdownTx
  split
  · exact ⟨rfl, rfl⟩
  · dsimp only
    split_ifs <;> exact ⟨rfl, rfl⟩

/-- A refusal of lwIP changes no pcb. -/
theorem tcpPcbs_of_refused (hr : Refuses w p) : (tcpShutdownTx w p).1.tcpPcbs = w.tcpPcbs := by
  unfold Refuses at hr
  unfold tcpShutdownTx at hr ⊢
  split at hr
  · rfl
  · dsimp only at hr ⊢
    split_ifs at hr ⊢ <;> first | rfl | exact absurd rfl hr

/-- An assignment to a slot does not reach lwIP. -/
theorem refuses_modSlot (f : TnSocketSlot → TnSocketSlot) :
    Refuses (w.modSlot i f) p ↔ Refuses w p := by
  have pcbs : (w.modSlot i f).tcpPcbs = w.tcpPcbs := rfl
  have asks : (w.modSlot i f).ask = w.ask := rfl
  unfold Refuses tcpShutdownTx
  rw [pcbs, asks]
  cases w.tcpPcbs p with
  | none => rfl
  | some c =>
    dsimp only
    split_ifs <;> rfl

/-- A connection that can send a FIN is refused when memory is short, and any other always. -/
theorem refuses_mem (env : List Answer) :
    Refuses (withEnv w ({ err := .mem } :: env)) p := by
  unfold withEnv Refuses tcpShutdownTx
  split
  · simp
  · dsimp only
    split_ifs with _ _ hok
    · simp
    · cases hok
    · cases hok
    · exact hok
    · simp

/-! ## The runs -/

/-- The slot with the directions of the call shut. -/
def marked (w : World) (i : SlotIdx) (how : Int) : World :=
  w.modSlot i fun s =>
    { s with shutRd := s.shutRd || shutsRd how, shutWr := s.shutWr || shutsWr how }

/-- The exits of `SHUT_WR`. -/
def finDone (r : World × ErrT) (m : MsgId) : World × TnIpcReplyAction :=
  match r with
  | (w, .ok) => done w m 0 .ok
  | (w, _) => fail w m .econnreset

section
variable (hs : (w.sockets i).type = sockStream) (h0 : 0 ≤ howOf w m) (h2 : howOf w m ≤ 2)

include hs h0 h2

/-- A listener is refused. -/
theorem run_listening (hl : (w.sockets i).tcpState = .listening) :
    tnIpcCmdShutdown w m (some i) = fail w m .enotconn := by
  have hr : ¬ (howOf w m < 0 ∨ howOf w m > 2) := by omega
  unfold howOf at hr
  simp only [tnIpcCmdShutdown, hs, hl, ne_eq, not_true_eq_false, if_false, if_neg hr, if_true]

/-- A socket that is not connected gets its flags only. -/
theorem run_idle (hl : (w.sockets i).tcpState ≠ .listening) (hi : ∀ p, ¬ Connected w i p) :
    tnIpcCmdShutdown w m (some i) = done (marked w i (howOf w m)) m 0 .ok := by
  have hr : ¬ (howOf w m < 0 ∨ howOf w m > 2) := by omega
  unfold howOf at hr
  simp only [tnIpcCmdShutdown, hs, ne_eq, not_true_eq_false, if_false, if_neg hr, if_neg hl]
  split
  · rfl
  · rename_i p hp
    have hc : (w.sockets i).tcpState = .closed := by
      by_contra hc
      exact hi p ⟨hp, hc, hl⟩
    rw [if_pos hc]
    rfl

/-- A connected one, by what is to be shut. -/
theorem run_connected (hc : Connected w i p) :
    tnIpcCmdShutdown w m (some i) =
      if howOf w m = 2 then done (shutdownBoth (marked w i 2) i p) m 0 .ok
      else if howOf w m = 0 then done (tnRxQueueDrainWithRecved (marked w i 0) i) m 0 .ok
      else finDone (tcpShutdownTx (marked w i 1) p) m := by
  obtain ⟨hp, hcl, hl⟩ := hc
  have hr : ¬ (howOf w m < 0 ∨ howOf w m > 2) := by omega
  have which : howOf w m = 2 ∨ howOf w m = 0 ∨ howOf w m = 1 := by omega
  unfold howOf at hr which ⊢
  simp only [tnIpcCmdShutdown, hs, hp, ne_eq, not_true_eq_false, if_false, if_neg hr, if_neg hl,
    if_neg hcl]
  rcases which with how | how | how
  · simp [how, marked, shutsRd, shutsWr]
  · simp [how, marked, shutsRd, shutsWr]
  · simp only [how, marked, shutsRd, shutsWr, finDone, Int.reduceBEq, Bool.or_false, Bool.and_true,
      Bool.false_eq_true, if_false, one_ne_zero, OfNat.one_ne_ofNat]
    rfl

end

/-! ## Results -/

@[simp] theorem result_done (w : World) (r : Int) (e : Errno) :
    ((done w m r e).1.msgs m).result = r := by
  simp [done, setReply, modMsg]

@[simp] theorem result_fail (w : World) (e : Errno) : ((fail w m e).1.msgs m).result = -1 :=
  result_done w (-1) e

theorem same_done {w' : World} {r : Int} {e : Errno} (h : Same w w' i) : Same w (done w' m r e).1 i :=
  { h with }

/-- An assignment of what is there changes nothing. -/
theorem modSlot_eq_self {f : TnSocketSlot → TnSocketSlot} (h : f (w.sockets i) = w.sockets i) :
    w.modSlot i f = w := by
  unfold modSlot
  rw [h, Function.update_eq_self]

/-- Setting flags that are set changes nothing. -/
theorem marked_eq (how : Int) (hr : shutsRd how = true → (w.sockets i).shutRd = true)
    (hw : shutsWr how = true → (w.sockets i).shutWr = true) : marked w i how = w := by
  have rd : ((w.sockets i).shutRd || shutsRd how) = (w.sockets i).shutRd := by
    cases hd : shutsRd how with
    | false => simp
    | true => simp [hr hd]
  have wr : ((w.sockets i).shutWr || shutsWr how) = (w.sockets i).shutWr := by
    cases hd : shutsWr how with
    | false => simp
    | true => simp [hw hd]
  refine modSlot_eq_self ?_
  rw [rd, wr]

/-- A call that has set its flags and then keeps them has shut its directions. -/
theorem shut_of_keeps {w' : World} {n : Int} (hn : howOf w m = n) (h : Keeps (marked w i n) w' m i)
    (r : Int) (e : Errno) : AlreadyShut (done w' m r e).1 m i := by
  subst hn
  have all := h.trans (Keeps.setReply m r e)
  have how : howOf (done w' m r e).1 m = howOf w m := congrFun all.args 1
  refine ⟨fun hd => ?_, fun hd => ?_⟩
  · rw [how] at hd
    refine all.shutRd.trans ?_
    simp [marked, modSlot, hd]
  · rw [how] at hd
    refine all.shutWr.trans ?_
    simp [marked, modSlot, hd]

/-- Draining an empty queue changes nothing. -/
theorem drain_eq (hd : Drained w i) : tnRxQueueDrainWithRecved w i = w := by
  obtain ⟨hx, hc⟩ := hd
  have stays : tnRxQueueDrain w i = w := by
    refine modSlot_eq_self ?_
    rw [← hx, ← hc]
  unfold tnRxQueueDrainWithRecved
  dsimp only
  rw [hx]
  cases (w.sockets i).tcpPcb <;> exact stays

/-- After a drain nothing is queued. -/
theorem drained_drain : Drained (tnRxQueueDrainWithRecved w i) i := by
  unfold tnRxQueueDrainWithRecved tnRxQueueDrain Drained
  simp [modSlot]

section
variable (hs : (w.sockets i).type = sockStream) (h0 : 0 ≤ howOf w m) (h2 : howOf w m ≤ 2)

include hs h0 h2

/-- What is to be shut is shut. -/
theorem shuts_all : Shuts w m i := by
  intro hr
  unfold resultOf at hr
  by_cases hl : (w.sockets i).tcpState = .listening
  · rw [run_listening hs h0 h2 hl, result_fail] at hr
    cases hr
  by_cases hi : ∀ p, ¬ Connected w i p
  · rw [run_idle hs h0 h2 hl hi]
    exact shut_of_keeps rfl (.refl _) 0 .ok
  · obtain ⟨p, hc⟩ := not_forall_not.mp hi
    rw [run_connected hs h0 h2 hc] at hr ⊢
    split_ifs at hr ⊢ with how how'
    · exact shut_of_keeps how .both 0 .ok
    · exact shut_of_keeps how' .drain 0 .ok
    · have how1 : howOf w m = 1 := by omega
      have tx : Keeps (marked w i 1) (tcpShutdownTx (marked w i 1) p).1 m i := .of_apart .shutdownTx
      unfold finDone
      split
      · rename_i heq
        rw [heq] at tx
        exact shut_of_keeps how1 tx 0 .ok
      · rename_i heq
        rw [heq] at tx
        exact shut_of_keeps how1 tx _ _

/-- A call is atomic unless it is a first `SHUT_WR` that lwIP refuses. -/
theorem atomic_iff : Atomic w m i ↔ FinTaken w m i := by
  unfold Atomic resultOf
  by_cases hl : (w.sockets i).tcpState = .listening
  · rw [run_listening hs h0 h2 hl]
    refine iff_of_true (fun _ => same_done ⟨rfl, rfl, rfl, rfl, rfl, rfl, rfl, rfl, rfl⟩) ?_
    exact fun p hc => absurd hl hc.2.2
  by_cases hi : ∀ p, ¬ Connected w i p
  · rw [run_idle hs h0 h2 hl hi]
    refine iff_of_true (fun hr => ?_) (fun p hc => absurd hc (hi p))
    rw [result_done] at hr
    cases hr
  · obtain ⟨p, hc⟩ := not_forall_not.mp hi
    have only : ∀ q, Connected w i q → q = p := fun q hq => by
      have he := hq.1.symm.trans hc.1
      cases he
      rfl
    rw [run_connected hs h0 h2 hc]
    split_ifs with how how'
    · refine iff_of_true (fun hr => ?_) (fun q _ h1 => ?_)
      · rw [result_done] at hr
        cases hr
      · omega
    · refine iff_of_true (fun hr => ?_) (fun q _ h1 => ?_)
      · rw [result_done] at hr
        cases hr
      · omega
    · have how1 : howOf w m = 1 := by omega
      have refused : Refuses (marked w i 1) p ↔ Refuses w p := refuses_modSlot _
      have apart : Apart (marked w i 1) (tcpShutdownTx (marked w i 1) p).1 := .shutdownTx
      have pcbs : Refuses w p → (tcpShutdownTx (marked w i 1) p).1.tcpPcbs = w.tcpPcbs :=
        fun hr => tcpPcbs_of_refused (refused.mpr hr)
      unfold Refuses at refused pcbs
      generalize tcpShutdownTx (marked w i 1) p = r at refused apart pcbs ⊢
      obtain ⟨w', e⟩ := r
      by_cases he : e = .ok
      · -- lwIP has taken the FIN: the call does not fail
        subst he
        refine iff_of_true (fun hr => ?_) (fun q hq _ hn => ?_)
        · rw [finDone, result_done] at hr
          cases hr
        · rw [only q hq] at hn
          exact absurd (refused.mpr hn) (fun h => h rfl)
      · have hn := refused.mp he
        have slot : w'.sockets i = { w.sockets i with shutWr := true } := by
          rw [apart.sockets]
          simp [marked, modSlot, shutsRd, shutsWr]
        have run : finDone (w', e) m = fail w' m .econnreset := by
          unfold finDone
          split
          · rename_i heq
            cases heq
            exact absurd rfl he
          · rename_i heq
            cases heq
            rfl
        rw [run]
        constructor
        · intro h q _ _ _
          have kept : (w'.sockets i).shutWr = (w.sockets i).shutWr :=
            (h (result_fail w' _)).shutWr
          rw [← kept, slot]
        · intro h _
          have set := h p hc how1 hn
          refine same_done ⟨?_, ?_, ?_, ?_, ?_, ?_, ?_, ?_, pcbs hn⟩ <;> rw [slot]
          exact set.symm

/-- A repeated call does nothing just when the slot has nothing left to do. -/
theorem repeatable_iff : Repeatable w m i ↔ NothingLeft w m i := by
  unfold Repeatable NothingLeft
  refine imp_congr_right fun hshut => ?_
  have flags : marked w i (howOf w m) = w := marked_eq _ hshut.1 hshut.2
  by_cases hl : (w.sockets i).tcpState = .listening
  · refine iff_of_false (fun h => ?_) (fun h => h.1 hl)
    have run := (run_listening hs h0 h2 hl).symm.trans (h w.env)
    have res := congrArg (fun r => (r.1.msgs m).result) run
    simp only [result_fail, result_done] at res
    cases res
  by_cases hi : ∀ p, ¬ Connected w i p
  · refine iff_of_true (fun env => ?_) ⟨hl, fun p hc => absurd hc (hi p)⟩
    have run := run_idle (w := withEnv w env) hs h0 h2 hl hi
    rw [run]
    exact congrArg (fun v : World => done (withEnv v env) m 0 .ok) flags
  · obtain ⟨p, hc⟩ := not_forall_not.mp hi
    have which : howOf w m = 2 ∨ howOf w m = 0 ∨ howOf w m = 1 := by omega
    rcases which with how | how | how
    · -- `SHUT_RDWR` takes the pcb away
      refine iff_of_false (fun h => ?_) (fun h => ?_)
      · have run := (run_connected hs h0 h2 hc).symm.trans (h w.env)
        rw [if_pos how] at run
        have pcb : ((shutdownBoth (marked w i 2) i p).sockets i).tcpPcb = (w.sockets i).tcpPcb :=
          congrArg (fun r => (r.1.sockets i).tcpPcb) run
        rw [tcpPcb_shutdownBoth, hc.1] at pcb
        cases pcb
      · have := (h.2 p hc).1
        omega
    · have next : ¬ howOf w m = 2 := by omega
      rw [how] at flags
      constructor
      · intro h
        refine ⟨hl, fun _ _ => ⟨how, ?_⟩⟩
        have run := (run_connected hs h0 h2 hc).symm.trans (h w.env)
        rw [if_neg next, if_pos how] at run
        have slot : (tnRxQueueDrainWithRecved (marked w i 0) i).sockets i = w.sockets i :=
          congrArg (fun r => r.1.sockets i) run
        have empty := drained_drain (w := marked w i 0) (i := i)
        unfold Drained at empty ⊢
        rwa [slot] at empty
      · rintro ⟨-, h⟩ env
        have drained : Drained (withEnv w env) i := (h p hc).2
        have flags' : marked (withEnv w env) i 0 = withEnv w env :=
          congrArg (fun v : World => withEnv v env) flags
        have run := run_connected (w := withEnv w env) hs h0 h2 hc
        rw [howOf_withEnv, if_neg next, if_pos how, flags', drain_eq drained] at run
        exact run
    · -- lwIP may refuse the FIN
      have next : ¬ howOf w m = 2 := by omega
      have next' : ¬ howOf w m = 0 := by omega
      refine iff_of_false (fun h => ?_) (fun h => ?_)
      · have run := (run_connected (w := withEnv w ({ err := .mem } :: w.env)) hs h0 h2
          hc).symm.trans (h _)
        rw [howOf_withEnv, if_neg next, if_neg next'] at run
        have no : Refuses (marked (withEnv w ({ err := .mem } :: w.env)) i 1) p :=
          (refuses_modSlot _).mpr (refuses_mem w.env)
        unfold Refuses at no
        generalize tcpShutdownTx _ p = r at run no
        obtain ⟨w', e⟩ := r
        have res : ((finDone (w', e) m).1.msgs m).result = 0 := by
          rw [run, result_done]
        unfold finDone at res
        split at res
        · rename_i heq
          cases heq
          exact no rfl
        · rw [result_fail] at res
          cases res
      · have := (h.2 p hc).1
        omega

/-- Idempotence and atomicity of `SHUTDOWN` on a stream, in every state and for every direction:
they fail on a first `SHUT_WR` that lwIP refuses, and on a repeated call that finds something left
to do. -/
theorem sound_iff : Sound w m i ↔ FinTaken w m i ∧ NothingLeft w m i := by
  -- the second clause holds in any case, so only the other two are conditions
  constructor
  · intro h
    exact ⟨(atomic_iff hs h0 h2).mp h.atomic, (repeatable_iff hs h0 h2).mp h.repeatable⟩
  · rintro ⟨ha, hr⟩
    exact ⟨(atomic_iff hs h0 h2).mpr ha, shuts_all hs h0 h2, (repeatable_iff hs h0 h2).mpr hr⟩

end

/-! ## A second `SHUT_WR` -/

/-- A connected stream in slot 0 with pcb 1, and a `SHUT_WR` in message 7. -/
def connected : World :=
  { tnSlotTableInit with
    sockets := fun i => if i = firstSlot then
      { tnInitSocketSlot (some 1) 1 afInet sockStream 0 with
        tcpState := .established, tcpPcb := some 1 } else {}
    tcpPcbs := fun p => if p = 1 then some { state := .established } else none
    msgs := fun _ => { cmd := .shutdown, args := fun k => if k = 1 then 1 else 0 }
    env := [{ state := .finWait1 }] }

/-- The first call succeeds and has sent the FIN. -/
def finSent : World := (tnIpcCmdShutdown connected 7 (some firstSlot)).1

/-- The stream after `SHUT_RDWR`, with the same request in every message. -/
def shutBoth : World :=
  (tnIpcCmdShutdown
    { connected with msgs := fun _ => { cmd := .shutdown, args := fun k => if k = 1 then 2 else 0 } }
    7 (some firstSlot)).1

/-- A first `SHUT_WR` that lwIP takes, and a second `SHUT_RDWR`. -/
theorem sound_shutBoth : Sound connected 7 0 ∧ AlreadyShut shutBoth 7 0 ∧ Sound shutBoth 7 0 := by
  have gone : (shutBoth.sockets 0).tcpPcb = none := by decide
  refine ⟨(sound_iff rfl (by decide) (by decide)).mpr ⟨fun p hc _ hn => ?_, fun h => ?_⟩,
    ⟨fun _ => by decide, fun _ => by decide⟩,
    (sound_iff (by decide) (by decide) (by decide)).mpr ⟨fun p hc => ?_, fun _ => ⟨by decide, fun p hc => ?_⟩⟩⟩
  · exact absurd (by cases hc.1; rfl) hn
  · exact absurd (h.2 rfl) (by decide)
  · exact absurd (gone.symm.trans hc.1) nofun
  · exact absurd (gone.symm.trans hc.1) nofun

/-- The condition is needed. -/
theorem not_forall_sound : ¬ ∀ w m i, (w.sockets i).type = sockStream → 0 ≤ howOf w m →
    howOf w m ≤ 2 → Sound w m i := by
  intro h
  have all := h finSent 7 0 rfl (by decide) (by decide)
  have shut : AlreadyShut finSent 7 0 := ⟨fun hd => absurd hd (by decide), fun _ => rfl⟩
  -- lwIP has nothing to add: the connection is in FIN_WAIT_1
  have run := congrArg (fun r => (r.1.msgs 7).result) (all.repeatable shut [])
  rw [result_done] at run
  have res : ((tnIpcCmdShutdown (withEnv finSent []) 7 (some 0)).1.msgs 7).result = -1 := by
    decide
  exact absurd (res.symm.trans run) (by decide)

end Shutdown

end Tolunnet
