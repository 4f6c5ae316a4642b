import Tolunnet.Abstract.Sound

/-!
# `Tolunnet.Refine.Basic`: single statements of the daemon on the abstract state

What each statement of `Tolunnet.Task.Exec` and each lwIP call of `Tolunnet.Task.Lwip` does to
the abstract daemon. Most statements do nothing there: they store results, options, deadlines
or client memory, or take an answer from the environment. The lemmas about the others say which
slot or pcb of the abstract daemon changes and how; all of them are simp lemmas, so that the
abstract state after a chain of statements is found by `simp`.

A call that needs a full pcb records a fault when it meets something else. Its lemma asks for a
pcb that is live and no listener, which the discipline of the abstract daemon provides.
-/

set_option autoImplicit false

namespace Tolunnet

open World

variable {t t' : Tok} {w : World}

/-! ## Reading the abstract state -/

@[simp] theorem abs_slot (t : Tok) (w : World) (i : SlotIdx) :
    (abs t w).slot i = (w.sockets i).view := rfl

@[simp] theorem abs_tok (t : Tok) (w : World) : (abs t w).tok = t := rfl

@[simp] theorem abs_callOf (t : Tok) (w : World) : (abs t w).callOf = w.callOf := rfl

@[simp] theorem abs_setTok (t t' : Tok) (w : World) : (abs t w).setTok t' = abs t' w := rfl

theorem abs_pcb (t : Tok) (w : World) (p : PcbId) :
    (abs t w).pcb p = (w.tcpPcbs p).map TcpPcb.view := rfl

/-- A pcb of the abstract daemon is the view of one of the daemon's. -/
theorem abs_pcb_some {p : PcbId} {c : PcbView} :
    (abs t w).pcb p = some c ↔ ∃ c', w.tcpPcbs p = some c' ∧ c'.view = c := by
  rw [abs_pcb, Option.map_eq_some_iff]

/-- The places hold the same messages. -/
theorem abs_held (t : Tok) (w : World) (pl : Place) : (abs t w).held pl = heldMsg w pl := by
  cases pl with
  | slot i k => rfl
  | stop => rfl
  | dns k =>
    show ((w.dnsPending k).view).bind Prod.fst
      = if (w.dnsPending k).inUse then (w.dnsPending k).imsg else none
    unfold TnDnsPending.view
    split <;> rfl

/-! ## Statements -/

/-- An assignment to a slot. -/
theorem abs_modSlot (t : Tok) (w : World) (i : SlotIdx) (f : TnSocketSlot → TnSocketSlot) :
    abs t (w.modSlot i f) = (abs t w).slotSet i (f (w.sockets i)).view := by
  unfold abs World.modSlot Abs.slotSet
  congr 1
  funext j
  by_cases hj : j = i
  · subst hj
    simp
  · simp [hj]

/-- An assignment to fields that the abstract daemon does not keep. -/
theorem abs_modSlot_same (t : Tok) (w : World) (i : SlotIdx) (f : TnSocketSlot → TnSocketSlot)
    (hf : (f (w.sockets i)).view = (w.sockets i).view) : abs t (w.modSlot i f) = abs t w := by
  rw [abs_modSlot, hf]
  unfold Abs.slotSet
  rw [show (w.sockets i).view = (abs t w).slot i from rfl, Function.update_eq_self]

/-- A pending field is set. -/
@[simp] theorem abs_setPending (t : Tok) (w : World) (i : SlotIdx) (k : Pend) (v : Option MsgId) :
    abs t (w.setPending i k v) = (abs t w).slotSet i (((abs t w).slot i).setPend k v) :=
  abs_modSlot t w i _

/-- A TCP pcb is written. -/
@[simp] theorem abs_setPcb (t : Tok) (w : World) (p : PcbId) (o : Option TcpPcb) :
    abs t (w.setPcb p o) = (abs t w).pcbSet p (o.map TcpPcb.view) := by
  unfold abs World.setPcb Abs.pcbSet
  congr 1
  funext q
  by_cases hq : q = p
  · subst hq
    simp
  · simp [hq]

/-- An event that stays in the log. -/
theorem abs_emit (t : Tok) (w : World) (e : Event) (he : e.loud = true) :
    abs t (w.emit e) = (abs t w).say e := by
  unfold abs World.emit Abs.say
  congr 1
  exact List.filter_cons_of_pos he

/-- An event that does not. -/
theorem abs_emit_quiet (t : Tok) (w : World) (e : Event) (he : e.loud = false) :
    abs t (w.emit e) = abs t w := by
  unfold abs World.emit
  congr 1
  exact List.filter_cons_of_neg (by simp [he])

@[simp] theorem abs_emit_pbufFree (t : Tok) (w : World) (seg : List UInt8) :
    abs t (w.emit (.pbufFree seg)) = abs t w := abs_emit_quiet t w _ rfl

@[simp] theorem abs_emit_replyNull (t : Tok) (w : World) :
    abs t (w.emit .replyNull) = abs t w := abs_emit_quiet t w _ rfl

@[simp] theorem abs_out (t : Tok) (w : World) (o : Output) : abs t (w.out o) = abs t w := rfl

@[simp] theorem abs_signal (t : Tok) (w : World) (x : TaskId) (n : Nat) :
    abs t (w.signal x n) = abs t w := rfl

@[simp] theorem abs_store (t : Tok) (w : World) (m : MsgId) (k off : Nat) (b : List UInt8) :
    abs t (w.store m k off b) = abs t w := rfl

@[simp] theorem abs_asked (t : Tok) (w : World) : abs t w.asked = abs t w := rfl

@[simp] theorem abs_env (t : Tok) (w : World) (env : List Answer) :
    abs t { w with env := env } = abs t w := rfl

/-- An assignment to a message. -/
theorem abs_modMsg (t : Tok) (w : World) (m : MsgId) (f : TnIpcMsg → TnIpcMsg) :
    abs t (w.modMsg m f)
      = { abs t w with msg := Function.update (abs t w).msg m (f (w.msgs m)).view } := by
  unfold abs World.modMsg
  congr 1
  funext x
  by_cases hx : x = m
  · subst hx
    simp
  · simp [hx]

/-- The result of a message is not kept. -/
@[simp] theorem abs_setReply (t : Tok) (w : World) (m : MsgId) (r : Int) (e : Errno) :
    abs t (w.setReply m r e) = abs t w := by
  rw [World.setReply, abs_modMsg]
  show ({ abs t w with msg := Function.update (abs t w).msg m ((abs t w).msg m) } : Abs) = abs t w
  rw [Function.update_eq_self]

/-- `ReplyMsg`. -/
theorem abs_replyMsg (t : Tok) (w : World) (m : MsgId) :
    abs t (w.replyMsg m)
      = (abs t w).say (.reply (w.callOf m) (w.msgs m).result (w.msgs m).errNo) :=
  abs_emit t w _ rfl

/-- A result is stored and sent. -/
theorem abs_answerMsg (t : Tok) (w : World) (m : MsgId) (r : Int) (e : Errno) :
    abs t (w.answerMsg m r e) = (abs t w).say (.reply (w.callOf m) r e) := by
  rw [World.answerMsg, abs_replyMsg, abs_setReply]
  simp [World.setReply, World.modMsg]

/-- An assignment to a base that leaves its descriptors alone. -/
theorem abs_modBase (t : Tok) (w : World) (b : BaseId) (f : TnSocketBase → TnSocketBase)
    (hf : (f (w.bases b)).fdMap = (w.bases b).fdMap)
    (hd : (f (w.bases b)).dtablesize = (w.bases b).dtablesize) :
    abs t (w.modBase b f) = abs t w := by
  unfold abs World.modBase
  congr 1 <;> funext x
  all_goals
    by_cases hx : x = b
    · subst hx
      simp [hf, hd]
    · simp [hx]

/-- A descriptor is written. -/
@[simp] theorem abs_setFd (t : Tok) (w : World) (b : BaseId) (n : Nat) (v : Option SlotIdx) :
    abs t (w.setFd b n v) = (abs t w).fdSet b n v := by
  unfold abs World.setFd World.modBase Abs.fdSet
  congr 1 <;> funext x
  all_goals
    by_cases hx : x = b
    · subst hx
      simp
    · simp [hx]

/-- The same state with other things in hand. -/
theorem abs_with {a : Abs} {w' : World} (h : abs t w' = a) (t' : Tok) :
    abs t' w' = a.setTok t' := by
  rw [← h]
  rfl

/-- A UDP pcb is written. -/
theorem abs_setUdp (t : Tok) (w : World) (p : PcbId) (o : Option DgramPcb) :
    abs t (w.setUdp p o)
      = { abs t w with udp := Function.update (abs t w).udp p (o.map DgramPcb.arg) } := by
  unfold abs World.setUdp
  congr 1
  funext q
  by_cases hq : q = p
  · subst hq
    simp
  · simp [hq]

/-- A raw pcb is written. -/
theorem abs_setRaw (t : Tok) (w : World) (p : PcbId) (o : Option DgramPcb) :
    abs t (w.setRaw p o)
      = { abs t w with raw := Function.update (abs t w).raw p (o.map DgramPcb.arg) } := by
  unfold abs World.setRaw
  congr 1
  funext q
  by_cases hq : q = p
  · subst hq
    simp
  · simp [hq]

/-! ## Calls that need a TCP pcb -/

/-- The daemon may use the full-pcb operations on `p`. -/
def Abs.Full (a : Abs) (p : PcbId) : Prop := ∃ c, a.pcb p = some c ∧ c.listen = false

/-- The pcb `p` is live. -/
def Abs.Live (a : Abs) (p : PcbId) : Prop := ∃ c, a.pcb p = some c

/-- A full-pcb operation on a full pcb. -/
theorem onFull_full {p : PcbId} (h : (abs t w).Full p) (op : PcbOp) (f : TcpPcb → TcpPcb) :
    ∃ c, w.tcpPcbs p = some c ∧ c.listen = false ∧ w.onFull p op f = w.setPcb p (some (f c)) := by
  obtain ⟨c, hc, hl⟩ := h
  obtain ⟨c', hc', rfl⟩ := abs_pcb_some.mp hc
  have hl : c'.listen = false := hl
  refine ⟨c', hc', hl, ?_⟩
  unfold World.onFull
  rw [hc']
  simp [hl]

/-- An operation on a live pcb. -/
theorem onPcb_live {p : PcbId} (h : (abs t w).Live p) (f : TcpPcb → TcpPcb) :
    ∃ c, w.tcpPcbs p = some c ∧ w.onPcb p f = w.setPcb p (some (f c)) := by
  obtain ⟨c, hc⟩ := h
  obtain ⟨c', hc', rfl⟩ := abs_pcb_some.mp hc
  refine ⟨c', hc', ?_⟩
  unfold World.onPcb
  rw [hc']

/-- Writing the view back changes nothing. -/
theorem pcbSet_same {a : Abs} {p : PcbId} {c : PcbView} (h : a.pcb p = some c) :
    a.pcbSet p (some c) = a := by
  unfold Abs.pcbSet
  rw [← h, Function.update_eq_self]

/-- An operation on fields of a full pcb that the abstract daemon does not keep. -/
theorem abs_onFull {p : PcbId} (h : (abs t w).Full p) (op : PcbOp) (f : TcpPcb → TcpPcb)
    (hf : ∀ c, (f c).view = c.view) : abs t (w.onFull p op f) = abs t w := by
  obtain ⟨c, hc, -, he⟩ := onFull_full h op f
  rw [he, abs_setPcb, Option.map_some, hf]
  exact pcbSet_same (abs_pcb_some.mpr ⟨c, hc, rfl⟩)

/-- An operation on fields of a live pcb that the abstract daemon does not keep. -/
theorem abs_onPcb {p : PcbId} (h : (abs t w).Live p) (f : TcpPcb → TcpPcb)
    (hf : ∀ c, (f c).view = c.view) : abs t (w.onPcb p f) = abs t w := by
  obtain ⟨c, hc, he⟩ := onPcb_live h f
  rw [he, abs_setPcb, Option.map_some, hf]
  exact pcbSet_same (abs_pcb_some.mpr ⟨c, hc, rfl⟩)

/-- Looking at a pcb needs a full one. -/
theorem abs_readFull {p : PcbId} (h : (abs t w).Full p) (op : PcbOp) :
    abs t (w.readFull p op) = abs t w := abs_onFull h op id fun _ => rfl

/-- A full pcb sends what it has queued. -/
theorem abs_tcpOutput {p : PcbId} (h : (abs t w).Full p) : abs t (tcpOutput w p) = abs t w :=
  abs_readFull h _

/-- A full pcb opens its window. -/
theorem abs_tcpRecved {p : PcbId} (h : (abs t w).Full p) : abs t (tcpRecved w p) = abs t w :=
  abs_readFull h _

/-- Nagle is not kept of a pcb. -/
theorem abs_tcpNagle {p : PcbId} (h : (abs t w).Full p) (off : Bool) :
    abs t (tcpNagle w p off) = abs t w := abs_onFull h _ _ fun _ => rfl

/-- An operation on a full pcb whose effect on the view is `g`. -/
theorem abs_onFull_view {p : PcbId} {c : PcbView} (hc : (abs t w).pcb p = some c)
    (hl : c.listen = false) (op : PcbOp) (f : TcpPcb → TcpPcb) (g : PcbView → PcbView)
    (hf : ∀ c, (f c).view = g c.view) :
    abs t (w.onFull p op f) = (abs t w).pcbSet p (some (g c)) := by
  obtain ⟨c', hc', -, he⟩ := onFull_full ⟨c, hc, hl⟩ op f
  obtain ⟨c'', hc'', rfl⟩ := abs_pcb_some.mp hc
  rw [hc', Option.some.injEq] at hc''
  subst hc''
  rw [he, abs_setPcb, Option.map_some, hf]

/-- An operation on a live pcb whose effect on the view is `g`. -/
theorem abs_onPcb_view {p : PcbId} {c : PcbView} (hc : (abs t w).pcb p = some c)
    (f : TcpPcb → TcpPcb) (g : PcbView → PcbView) (hf : ∀ c, (f c).view = g c.view) :
    abs t (w.onPcb p f) = (abs t w).pcbSet p (some (g c)) := by
  obtain ⟨c', hc', he⟩ := onPcb_live ⟨c, hc⟩ f
  obtain ⟨c'', hc'', rfl⟩ := abs_pcb_some.mp hc
  rw [hc', Option.some.injEq] at hc''
  subst hc''
  rw [he, abs_setPcb, Option.map_some, hf]

/-- The last assignment counts. -/
@[simp] theorem pcbSet_pcbSet (a : Abs) (p : PcbId) (o o' : Option PcbView) :
    (a.pcbSet p o).pcbSet p o' = a.pcbSet p o' := by
  simp [Abs.pcbSet]

/-- The second change of a slot stands. -/
@[simp] theorem slotSet_slotSet (a : Abs) (i : SlotIdx) (s s' : SlotView) :
    (a.slotSet i s).slotSet i s' = a.slotSet i s' := by
  simp [Abs.slotSet]

/-- A slot is assigned itself. -/
@[simp] theorem slotSet_same (a : Abs) (i : SlotIdx) : a.slotSet i (a.slot i) = a := by
  simp [Abs.slotSet]

/-- Slots and pcbs are different parts of the state. -/
theorem pcbSet_slotSet (a : Abs) (p : PcbId) (o : Option PcbView) (i : SlotIdx) (s : SlotView) :
    (a.pcbSet p o).slotSet i s = (a.slotSet i s).pcbSet p o := rfl

/-- The view of a pcb that has been let go. -/
def PcbView.orphaned (c : PcbView) : PcbView :=
  { c with arg := .null, recv := .null, err := .null, sent := false, poll := false }

section Registration

variable {p : PcbId} {c : PcbView}

/-- The argument of a pcb. -/
theorem abs_tcpArg (hc : (abs t w).pcb p = some c) (x : CbArg) :
    abs t (tcpArg w p x) = (abs t w).pcbSet p (some { c with arg := x }) :=
  abs_onPcb_view hc _ (fun c => { c with arg := x }) fun _ => rfl

/-- The receive callback of a pcb. -/
theorem abs_tcpRecv (hc : (abs t w).pcb p = some c) (hl : c.listen = false) (fn : RecvFn) :
    abs t (tcpRecv w p fn) = (abs t w).pcbSet p (some { c with recv := fn }) :=
  abs_onFull_view hc hl _ _ (fun c => { c with recv := fn }) fun _ => rfl

/-- The sent callback of a pcb. -/
theorem abs_tcpSent (hc : (abs t w).pcb p = some c) (hl : c.listen = false) (on : Bool) :
    abs t (tcpSent w p on) = (abs t w).pcbSet p (some { c with sent := on }) :=
  abs_onFull_view hc hl _ _ (fun c => { c with sent := on }) fun _ => rfl

/-- The error callback of a pcb. -/
theorem abs_tcpErr (hc : (abs t w).pcb p = some c) (hl : c.listen = false) (fn : ErrFn) :
    abs t (tcpErr w p fn) = (abs t w).pcbSet p (some { c with err := fn }) :=
  abs_onFull_view hc hl _ _ (fun c => { c with err := fn }) fun _ => rfl

/-- The poll callback of a pcb. -/
theorem abs_tcpPoll (hc : (abs t w).pcb p = some c) (hl : c.listen = false) (on : Bool) :
    abs t (tcpPoll w p on) = (abs t w).pcbSet p (some { c with poll := on }) :=
  abs_onFull_view hc hl _ _ (fun c => { c with poll := on }) fun _ => rfl

/-- The accept callback of a listener. -/
theorem abs_tcpAccept (hc : (abs t w).pcb p = some c) (hl : c.listen = true) (on : Bool) :
    abs t (tcpAccept w p on) = (abs t w).pcbSet p (some { c with accept := on }) := by
  obtain ⟨c', hc', he⟩ := onPcb_live ⟨c, hc⟩ fun c => if c.listen then { c with accept := on } else c
  obtain ⟨c'', hc'', rfl⟩ := abs_pcb_some.mp hc
  rw [hc', Option.some.injEq] at hc''
  subst hc''
  have hl : c'.listen = true := hl
  rw [tcpAccept, he, abs_setPcb, Option.map_some, if_pos hl]
  rfl

/-- A pcb that has just been written. -/
theorem pcb_of_eq {a : Abs} {w' : World} {c' : PcbView} (h : abs t w' = a.pcbSet p (some c')) :
    (abs t w').pcb p = some c' := by
  rw [h]
  simp

/-- The five calls that take a pcb away from its owner. -/
theorem abs_tcpDetach (hc : (abs t w).pcb p = some c) (hl : c.listen = false) :
    abs t (tcpDetach w p) = (abs t w).pcbSet p (some c.orphaned) := by
  have h1 := abs_tcpArg hc .null
  have h2 := abs_tcpRecv (pcb_of_eq h1) hl .null
  have h3 := abs_tcpSent (pcb_of_eq h2) hl false
  have h4 := abs_tcpErr (pcb_of_eq h3) hl .null
  have h5 := abs_tcpPoll (pcb_of_eq h4) hl false
  rw [tcpDetach, h5, h4, h3, h2, h1]
  simp [PcbView.orphaned]

end Registration

/-- `tcp_close` of a listener frees it. -/
theorem abs_tcpClose_listen {p : PcbId} {c : PcbView} (hc : (abs t w).pcb p = some c)
    (hl : c.listen = true) : abs t (tcpClose w p).1 = (abs t w).pcbSet p none := by
  obtain ⟨c', hc', rfl⟩ := abs_pcb_some.mp hc
  have hl : c'.listen = true := hl
  unfold tcpClose
  rw [hc']
  simp [hl]

/-- `tcp_abort` frees a full pcb that has no error callback left. -/
theorem abs_tcpAbort {p : PcbId} {c : PcbView} (hc : (abs t w).pcb p = some c)
    (hl : c.listen = false) (he : c.err = .null) :
    abs t (tcpAbort w p) = (abs t w).pcbSet p none := by
  obtain ⟨c', hc', rfl⟩ := abs_pcb_some.mp hc
  have hl : c'.listen = false := hl
  have he : c'.err = .null := he
  unfold tcpAbort
  rw [hc']
  simp [hl, he]

/-- A pcb that has been let go is closed or aborted: it is gone, or lwIP keeps it for the rest
of its life. -/
theorem abs_tcpCloseOrAbort {p : PcbId} {c : PcbView} (hc : (abs t w).pcb p = some c)
    (hl : c.listen = false) (he : c.err = .null) :
    abs t (tcpCloseOrAbort w p) = (abs t w).pcbSet p none ∨
      ∃ st : TcpState, st.synced = true ∧
        abs t (tcpCloseOrAbort w p) = (abs t w).pcbSet p (some { c with state := st }) := by
  obtain ⟨c', hc', rfl⟩ := abs_pcb_some.mp hc
  have hl' : c'.listen = false := hl
  have hclose : tcpClose w p =
      if (c'.state == .closed || c'.state == .synSent) = true then (w.setPcb p none, .ok)
      else if w.ask.err = .mem then (w.asked, .mem)
      else if w.ask.ok = true then (w.asked.setPcb p none, .ok)
      else (w.asked.setPcb p (some { c' with
        state := if w.ask.state.synced then w.ask.state else .finWait1 }), .ok) := by
    unfold tcpClose
    rw [hc']
    simp [hl']
  unfold tcpCloseOrAbort
  by_cases h1 : (c'.state == .closed || c'.state == .synSent) = true
  · left
    rw [hclose, if_pos h1]
    simp
  · by_cases h2 : w.ask.err = .mem
    · left
      rw [hclose, if_neg h1, if_pos h2]
      exact abs_tcpAbort (w := w.asked) hc hl he
    · by_cases h3 : w.ask.ok = true
      · left
        rw [hclose, if_neg h1, if_neg h2, if_pos h3]
        simp
      · right
        refine ⟨if w.ask.state.synced then w.ask.state else .finWait1, ?_, ?_⟩
        · split
          · assumption
          · rfl
        · rw [hclose, if_neg h1, if_neg h2, if_neg h3]
          simp [TcpPcb.view]

end Tolunnet
