import Tolunnet.Refine.Basic
import Tolunnet.Refine.Frame

/-!
# `Tolunnet.Refine.SlotTable`: wakeups, parked requests and the release of slots

The functions of `Tolunnet.Task.Select` and `Tolunnet.Task.SlotTable` as runs of acts. A lemma
`f_acts` says that the abstract daemon can go from the state before `f` to the state after it.
Where `f` hands something over, the tokens of the two sides differ.
-/

set_option autoImplicit false

namespace Tolunnet

open World

variable {P : Label → Prop} {t t' : Tok} {w : World}

/-! ## Runs of acts -/

/-- One act, with its outcome given in another form. -/
theorem Acts.one {a b c : Abs} (h : Act P a b) (he : c = b) : Acts P a c := he ▸ .single h

/-- No act at all. -/
theorem Acts.none {a b : Abs} (he : b = a) : Acts P a b := he ▸ .refl

/-- A loop is a run of acts when each turn is. -/
theorem acts_foldl {α : Type} (f : World → α → World) (l : List α)
    (h : ∀ w, ∀ x ∈ l, Acts P (abs t w) (abs t (f w x))) (w : World) :
    Acts P (abs t w) (abs t (l.foldl f w)) :=
  l.foldlRecOn (motive := fun v => Acts P (abs t w) (abs t v)) f .refl
    fun _ done x hx => done.trans (h _ x hx)

/-- `t'` holds what `t` holds and allows as much to be due. -/
structure Tok.Le (t t' : Tok) : Prop where
  rest : t' = { t with owes := t'.owes, serve := t'.serve }
  owes : t.owes ⊆ t'.owes
  serve : t.serve ⊆ t'.serve

/-- Less may be owed than is. -/
theorem acts_weaken (h : t.Le t') : Acts P (abs t w) (abs t' w) := by
  refine .one (.sel (.weaken (abs t w) t'.owes t'.serve h.owes h.serve)) ?_
  rw [abs_tok, ← h.rest, abs_setTok]

/-- Owing more is more. -/
theorem Tok.le_owe (t : Tok) (i : SlotIdx) (r : Ready) : t.Le (t.owe i r) :=
  ⟨rfl, Set.subset_insert _ _, subset_rfl⟩

/-- What was due for a slot has been paid. -/
theorem Tok.paid_owe_le (t : Tok) (i : SlotIdx) (r : Ready) : ((t.owe i r).paid i).Le t := by
  refine ⟨rfl, ?_, subset_rfl⟩
  rintro ⟨j, q⟩ ⟨h1, h2⟩
  rcases h1 with h1 | h1
  · exact absurd (congrArg Prod.fst h1) h2
  · exact h1

/-- What is paid was owed. -/
theorem Tok.paid_oweAll_le (t : Tok) (i : SlotIdx) : ((t.oweAll i).paid i).Le t := by
  refine ⟨rfl, ?_, subset_rfl⟩
  rintro ⟨j, q⟩ ⟨h1, h2⟩
  rcases h1 with h1 | h1
  · exact h1
  · exact absurd h1 h2

/-- Wakeups of a slot that is not ready for anything need not be paid. -/
theorem acts_settle {i : SlotIdx} (hr : ∀ r, ready w i r = false) :
    Acts P (abs t w) (abs (t.paid i) w) := by
  have one : ∀ (t : Tok) (r : Ready),
      Acts P (abs t w) (abs { t with owes := t.owes \ {(i, r)} } w) := fun t r =>
    .single (.sel (.settle (abs t w) i r (by rw [abs_ready]; exact hr r)))
  refine ((one t .read).trans (one _ .write)).trans ((one _ .except).trans (acts_weaken ?_))
  refine ⟨rfl, ?_, subset_rfl⟩
  rintro ⟨j, q⟩ ⟨⟨⟨h1, h2⟩, h3⟩, h4⟩
  refine ⟨h1, fun he => ?_⟩
  have he : j = i := he
  subst he
  cases q
  · exact h2 rfl
  · exact h3 rfl
  · exact h4 rfl

/-- A slot that is not in use is ready for nothing. -/
theorem not_ready_of_free {i : SlotIdx} (h : (w.sockets i).inUse = false) (r : Ready) :
    ready w i r = false := by
  cases r <;> simp [ready, tnSelectCanRead, tnSelectCanWrite, tnSelectHasExcept, h]

/-- A parked request that is gone or has a reason to wait need not be looked at. -/
theorem acts_served {i : SlotIdx} {k : Pend}
    (h : (w.sockets i).pending k = none ∨ (w.sockets i).view.Waits k) :
    Acts P (abs (t.due i k) w) (abs t w) := by
  have hs : Acts P (abs (t.due i k) w)
      (abs { t.due i k with serve := (t.due i k).serve \ {(i, k)} } w) :=
    .single (.msg (.served (abs (t.due i k) w) i k h))
  refine hs.trans (acts_weaken ⟨rfl, subset_rfl, ?_⟩)
  rintro x ⟨h1, h2⟩
  exact h1.resolve_left h2

/-! ## Statements the abstract daemon does not see -/

/-- An owner that is dead is forgotten. -/
theorem abs_dropStaleOwner (t : Tok) {i : SlotIdx} (hu : (w.sockets i).inUse = true) :
    abs t (dropStaleOwner w i) = abs t w := by
  unfold dropStaleOwner
  split
  · split
    · rfl
    · exact abs_modSlot_same t w i _ (by simp [TnSocketSlot.view, hu])
  · rfl

/-- The owner's signal is not kept. -/
@[simp] theorem abs_signalOwner (t : Tok) (w : World) (i : SlotIdx) :
    abs t (signalOwner w i) = abs t w := by
  unfold signalOwner
  split
  · split <;> rfl
  · rfl

/-- An event is no act. -/
@[simp] theorem abs_tnRecordSocketEvent (t : Tok) (w : World) (i : SlotIdx) (e : Nat) :
    abs t (tnRecordSocketEvent w i e) = abs t w := by
  have base : ∀ b (f : TnSocketBase → Nat → Nat),
      abs t (w.modBase b fun x => { x with events := f x }) = abs t w := fun b f =>
    abs_modBase t w b _ rfl rfl
  unfold tnRecordSocketEvent
  dsimp only
  split
  · rename_i hu
    split
    · rfl
    · split
      · split
        · rw [abs_signal, abs_out]
          exact base _ _
        · rw [abs_out]
          exact base _ _
      · exact abs_modSlot_same t w i _ (by simp [TnSocketSlot.view, hu])
  · rfl

/-- An address for the client is not kept. -/
@[simp] theorem abs_tnStoreClientSockaddr (t : Tok) (w : World) (m : MsgId) (ka kl port addr : Nat) :
    abs t (tnStoreClientSockaddr w m ka kl port addr) = abs t w := by
  unfold tnStoreClientSockaddr
  split <;> rfl

/-- A membership is not kept. -/
@[simp] theorem abs_mcastLeaveAt (t : Tok) (w : World) (i : SlotIdx) (k : Fin 8) :
    abs t (mcastLeaveAt i w k) = abs t w := by
  unfold mcastLeaveAt igmpLeavegroup
  dsimp only
  split
  · split <;> rfl
  · rfl

/-- Memberships are not kept. -/
@[simp] theorem abs_tnMcastLeaveAll (t : Tok) (w : World) (i : SlotIdx) :
    abs t (tnMcastLeaveAll w i) = abs t w := by
  unfold tnMcastLeaveAll
  induction List.finRange 8 generalizing w with
  | nil => rfl
  | cons k l ih => rw [List.foldl_cons, ih, abs_mcastLeaveAt]

/-! ## Wakeups -/

/-- One turn of the selector loop. -/
theorem signalSelector_acts (i : SlotIdx) (w : World) (k : Nat) :
    Acts P (abs t w) (abs t (signalSelector i w k)) := by
  unfold signalSelector
  split
  · exact .refl
  · rename_i sel hk
    split
    · split
      · exact .refl
      · split
        · split <;> exact .refl
        · exact .single (.sel (.table (abs t w) _ (.off (abs t w).tab k sel hk)))
    · exact .refl

/-- `tn_signal_socket` pays every wakeup of the slot. -/
theorem tnSignalSocket_acts (i : SlotIdx) :
    Acts P (abs t w) (abs (t.paid i) (tnSignalSocket w i)) := by
  unfold tnSignalSocket
  dsimp only
  split
  · rename_i hu
    have hsig : Acts P (abs t w) (abs (t.paid i) (w.emit (.signalSocket i
        (tnSelectCanRead (w.sockets i)) (tnSelectCanWrite w (w.sockets i))
        (tnSelectHasExcept (w.sockets i))))) := by
      refine .one (.sel (.signal (abs t w) i hu)) ?_
      rw [abs_emit _ _ _ rfl, abs_ready, abs_ready, abs_ready]
      rfl
    have quiet : ∀ w' : World, (w'.sockets i).inUse = true →
        abs (t.paid i) (signalOwner (dropStaleOwner w' i) i) = abs (t.paid i) w' := fun w' hw => by
      rw [abs_signalOwner, abs_dropStaleOwner _ hw]
    refine hsig.trans ?_
    split
    · exact Acts.none (quiet _ hu)
    · refine (Acts.none (quiet (w.emit _) hu)).trans ?_
      exact acts_foldl (signalSelector i) _ (fun w k _ => signalSelector_acts i w k) _
  · rename_i hu
    exact acts_settle fun r => not_ready_of_free (by simpa using hu) r

/-- A wakeup that was due is paid by the call. -/
theorem tnSignalSocket_pays (i : SlotIdx) (r : Ready) :
    Acts P (abs (t.owe i r) w) (abs t (tnSignalSocket w i)) :=
  (tnSignalSocket_acts i).trans (acts_weaken (t.paid_owe_le i r))

/-! ## Answers -/

/-- What is picked up is put down. -/
theorem Tok.pickUp_putDown (t : Tok) (m : MsgId) : (t.pickUp m).putDown m = t := by
  simp [Tok.pickUp, Tok.putDown]

/-- The message in hand is answered with what it holds. -/
theorem replyMsg_acts {m : MsgId} (hm : m ∈ t.hand) (hs : ∀ s, t.sending = some s → s.m ≠ m) :
    Acts P (abs t w) (abs (t.putDown m) (w.replyMsg m)) :=
  .one (.msg (.reply (abs t w) m _ _ hm hs)) (abs_with (abs_replyMsg t w m) _)

/-- The message in hand is given a result and answered. -/
theorem answerMsg_acts {m : MsgId} (hm : m ∈ t.hand) (hs : ∀ s, t.sending = some s → s.m ≠ m)
    (r : Int) (e : Errno) : Acts P (abs t w) (abs (t.putDown m) (w.answerMsg m r e)) :=
  .one (.msg (.reply (abs t w) m r e hm hs)) (abs_with (abs_answerMsg t w m r e) _)

/-! ## Parked requests -/

/-- A parked request is answered, if there is one. -/
theorem replyPending_acts (i : SlotIdx) {k : Pend} (hk : k ≠ .send) (r : Int) (e : Errno) :
    Acts P (abs t w) (abs t (replyPending w i k r e)) := by
  unfold replyPending
  split
  · exact .refl
  · rename_i m hm
    refine .one (.msg (.answer (abs t w) i k m r e hk hm)) ?_
    dsimp only
    split
    · rw [abs_answerMsg, abs_modSlot_same _ _ _ _ rfl, abs_setPending]
      rfl
    · rw [abs_answerMsg, abs_setPending]
      rfl

/-- The state of the slot after a parked send has been taken out. -/
theorem abs_sendTaken (t : Tok) (w : World) (i : SlotIdx) (m : MsgId) (e : Errno) (r : Int × Errno) :
    abs t ((((w.setPending i .send none).setReply m r.1 r.2).emit (.sendEnd (w.callOf m) e)).modSlot
      i fun s => { s with sendDeadlineTick := 0, sendDone := 0, sendIov := none })
      = ((abs t w).slotSet i { ((abs t w).slot i).setPend .send none with
          sendDone := 0, sendIov := none }).say (.sendEnd (w.callOf m) e) := by
  rw [abs_modSlot, abs_emit _ _ _ rfl, abs_setReply, abs_setPending]
  simp only [World.emit, World.setReply, World.modMsg, World.setPending, World.modSlot,
    Function.update_self, Abs.slotSet, Abs.say, Function.update_idem]
  rfl

/-- A parked send may owe a write. -/
theorem Tok.oweSend_le (t : Tok) (i : SlotIdx) (p : Option PcbId) :
    (t.oweSend i p).Le (t.owe i .write) := by
  refine ⟨rfl, ?_, subset_rfl⟩
  show (if p.isSome then insert (i, .write) t.owes else t.owes) ⊆ insert (i, .write) t.owes
  split
  · exact subset_rfl
  · exact Set.subset_insert _ _

/-- A cut send owes more. -/
theorem Tok.le_oweSend (t : Tok) (i : SlotIdx) (p : Option PcbId) : t.Le (t.oweSend i p) := by
  refine ⟨rfl, ?_, subset_rfl⟩
  show t.owes ⊆ if p.isSome then insert (i, .write) t.owes else t.owes
  split
  · exact Set.subset_insert _ _
  · exact subset_rfl

/-- A parked send is answered, if there is one; a slot with a pcb may become writable by it. -/
theorem tnSlotReplySend_acts (i : SlotIdx) (e : Errno)
    (he : ∀ m, (w.sockets i).pending .send = some m → e.interrupts = true ∨
      (w.sockets i).sendDone = ((w.msgs m).args 1).toNat ∨
      ∃ p e', .tcpWriteErr p (w.callOf m) e' ∈ w.trace) :
    Acts P (abs t w) (abs (t.oweSend i (w.sockets i).tcpPcb) (tnSlotReplySend w i e true)) := by
  unfold tnSlotReplySend
  split
  · exact acts_weaken (t.le_oweSend i _)
  · rename_i m hm
    refine .one (.send (.finish (abs t w) i m e hm ?_)) ?_
    · rcases he m hm with h | h | ⟨p, e', h⟩
      · exact Or.inl h
      · exact Or.inr (Or.inl h)
      · exact Or.inr (Or.inr ⟨p, e', List.mem_filter.mpr ⟨h, rfl⟩⟩)
    · simp only [if_true]
      rw [abs_replyMsg, abs_sendTaken]
      simp [World.setReply, World.modMsg, World.modSlot, World.emit, World.setPending,
        TnSocketSlot.view]
      rfl

/-- The same for an error that interrupts. -/
theorem tnSlotReplySend_interrupt (i : SlotIdx) {e : Errno} (he : e.interrupts = true) :
    Acts P (abs t w) (abs (t.owe i .write) (tnSlotReplySend w i e true)) :=
  (tnSlotReplySend_acts i e fun _ _ => Or.inl he).trans (acts_weaken (t.oweSend_le i _))

/-- A slot without a pcb does not become writable. -/
theorem tnSlotReplySend_noPcb (i : SlotIdx) {e : Errno} (he : e.interrupts = true)
    (hp : (w.sockets i).tcpPcb = none) :
    Acts P (abs t w) (abs t (tnSlotReplySend w i e true)) := by
  have h := tnSlotReplySend_acts (P := P) (t := t) (w := w) i e fun _ _ => Or.inl he
  rw [hp] at h
  exact h

/-- A parked send is thrown away, if there is one. -/
theorem tnSlotReplySend_drop (i : SlotIdx) (e : Errno)
    (hl : ∀ m, (w.sockets i).pending .send = some m → P (.drop m)) :
    Acts P (abs t w) (abs (t.owe i .write) (tnSlotReplySend w i e false)) := by
  refine Relation.ReflTransGen.trans ?_ (acts_weaken (t.oweSend_le i (w.sockets i).tcpPcb))
  unfold tnSlotReplySend
  split
  · exact acts_weaken (t.le_oweSend i _)
  · rename_i m hm
    refine Acts.one (.send (.dropSend (abs t w) i m e hm (hl m hm))) ?_
    simp only [Bool.false_eq_true, if_false]
    rw [abs_sendTaken]
    rfl

/-! ## Slots that are freed -/

/-- A slot that does not listen has a full pcb. -/
theorem Linked.full {c : PcbView} {st : TnTcpState} (h : Linked c st) (hs : st ≠ .listening) :
    c.listen = false := by
  cases st with
  | listening => exact absurd rfl hs
  | error => exact h.elim
  | closed => exact h.1
  | connecting => exact h.1
  | established => exact h.1
  | peerClosed => exact h.1

/-- A pcb that is let go in a synchronized state is an orphan. -/
theorem PcbView.orphaned_orphan {c : PcbView} {st : TcpState} (hl : c.listen = false)
    (hs : st.synced = true) : { c.orphaned with state := st }.Orphan :=
  ⟨hl, rfl, rfl, rfl, rfl, rfl, hs⟩

/-- What is due when a slot loses its connection. -/
def Tok.cutOff (t : Tok) (i : SlotIdx) : Tok := ((t.oweAll i).due i .recv).due i .connect

/-- A cut connection owes more. -/
theorem Tok.le_cutOff (t : Tok) (i : SlotIdx) : t.Le (t.cutOff i) :=
  ⟨rfl, Set.subset_union_left, (Set.subset_insert _ _).trans (Set.subset_insert _ _)⟩

/-- The UDP pcb of a slot goes. -/
theorem freeUdp_acts (i : SlotIdx) : Acts P (abs t w) (abs t (freeUdp w i)) := by
  unfold freeUdp
  split
  · rename_i p hp
    refine .one (.tcp (.freeUdp (abs t w) i p hp)) ?_
    rw [abs_modSlot, abs_setUdp]
    rfl
  · exact .refl

/-- The raw pcb of a slot goes. -/
theorem freeRaw_acts (i : SlotIdx) : Acts P (abs t w) (abs t (freeRaw w i)) := by
  unfold freeRaw
  split
  · rename_i p hp
    refine .one (.tcp (.freeRaw (abs t w) i p hp)) ?_
    rw [abs_modSlot, abs_setRaw]
    rfl
  · exact .refl

/-- The pcb of a dying slot is freed or left to lwIP. -/
theorem freeTcp_acts {i : SlotIdx} (hi : i ∈ t.dying) :
    Acts P (abs t w) (abs (t.cutOff i) (freeTcp w i)) := by
  refine Acts.of_sound fun hs => ?_
  unfold freeTcp
  split
  · exact acts_weaken (t.le_cutOff i)
  · rename_i p hp
    obtain ⟨c, hc, -, hl⟩ := (hs.disc.slots i).pcb p hp
    have hu := hs.disc.dying i hi
    dsimp only
    have h1 : abs t (w.modSlot i fun s => { s with tcpPcb := none })
        = (abs t w).slotSet i { (abs t w).slot i with tcp := none } := abs_modSlot ..
    have hc1 : (abs t (w.modSlot i fun s => { s with tcpPcb := none })).pcb p = some c := hc
    -- the act, for whatever is left of the pcb
    have act : ∀ (w' : World) (o : Option PcbView), (∀ c, o = some c → c.Orphan) →
        abs t w' = ((abs t w).slotSet i { (abs t w).slot i with tcp := none }).pcbSet p o →
        Acts P (abs t w) (abs (t.cutOff i) w') := fun w' o ho h =>
      .one (.tcp (.release (abs t w) i p o ((abs t w).slot i).st ((abs t w).slot i).shutWr
        ((abs t w).slot i).err hu hp ho (fun _ => Or.inr hi) (fun h => h)
        (Or.inr (Or.inr (Or.inr ⟨hi, rfl⟩))))) (abs_with h _)
    split
    · rename_i hst
      have hst : (w.sockets i).tcpState = .listening := by simpa [World.modSlot] using hst
      have hls : c.listen = true := by
        have hl : Linked c (w.sockets i).tcpState := hl
        rw [hst] at hl
        exact hl
      have h2 := abs_tcpArg hc1 .null
      have h3 := abs_tcpAccept (pcb_of_eq h2) hls false
      have h4 := abs_tcpClose_listen (pcb_of_eq h3) hls
      refine act _ none (by simp) ?_
      rw [h4, h3, h2, h1]
      simp
    · rename_i hst
      have hst : (w.sockets i).tcpState ≠ .listening := by simpa [World.modSlot] using hst
      have hls : c.listen = false := hl.full hst
      have h2 := abs_tcpDetach hc1 hls
      rcases abs_tcpCloseOrAbort (pcb_of_eq h2) hls rfl with h3 | ⟨st, hsy, h3⟩
      · refine act _ none (by simp) ?_
        rw [h3, h2, h1]
        simp
      · refine act _ _ ?_ (by rw [h3, h2, h1]; exact pcbSet_pcbSet ..)
        intro c' hc'
        rw [Option.some.injEq] at hc'
        rw [← hc']
        exact PcbView.orphaned_orphan hls hsy

/-- An accept entry is freed with its connection. -/
theorem abs_tnAcceptEntryFree {ent : TnAcceptEntry} {p : PcbId} {c : PcbView}
    (hp : ent.newPcb = some p) (hc : (abs t w).pcb p = some c) (hl : c.listen = false) :
    abs t (tnAcceptEntryFree w ent) = (abs t w).pcbSet p none := by
  have h1 := abs_tcpArg hc .null
  have h2 := abs_tcpRecv (pcb_of_eq h1) hl .null
  have h3 := abs_tcpErr (pcb_of_eq h2) hl .null
  have h4 := abs_tcpAbort (pcb_of_eq h3) hl rfl
  unfold tnAcceptEntryFree
  rw [hp]
  show abs t (tcpAbort (tcpErr (tcpRecv (tcpArg w p .null) p .null) p .null) p) = _
  rw [h4, h3, h2, h1]
  simp

/-- The first queued connection of a slot is aborted, if there is one. -/
theorem dropHeadEntry_acts (i : SlotIdx) : Acts P (abs t w) (abs t (dropHeadEntry w i)) := by
  refine Acts.of_sound fun hs => ?_
  unfold dropHeadEntry
  split
  · rename_i ent rest hq
    obtain ⟨-, p, c, hp, hc, hd⟩ := hs.disc.entries.queued i ent (by
      show ent ∈ (w.sockets i).acceptQ
      rw [hq]
      exact List.mem_cons_self ..)
    refine .one (.tcp (.dropEntry (abs t w) i ent rest p hq hp)) ?_
    rw [abs_tnAcceptEntryFree hp (w := w.modSlot i fun s => { s with acceptQ := rest })
      (c := c) hc hd.listen, abs_modSlot]
    rfl
  · exact .refl

/-! ## The slot after each part of its release -/

section Views

variable {i : SlotIdx}

/-- The slot without its UDP pcb. -/
theorem view_freeUdp : ((freeUdp w i).sockets i).view = { (w.sockets i).view with udp := none } := by
  unfold freeUdp
  split
  · rw [sockets_modSlot]
    rfl
  · rename_i h
    simp [TnSocketSlot.view, h]

/-- The slot without its raw pcb. -/
theorem view_freeRaw : ((freeRaw w i).sockets i).view = { (w.sockets i).view with raw := none } := by
  unfold freeRaw
  split
  · rw [sockets_modSlot]
    rfl
  · rename_i h
    simp [TnSocketSlot.view, h]

/-- The slot without its TCP pcb. -/
theorem view_freeTcp : ((freeTcp w i).sockets i).view = { (w.sockets i).view with tcp := none } := by
  unfold freeTcp
  split
  · rename_i h
    simp [TnSocketSlot.view, h]
  · rename_i p hp
    dsimp only
    split
    · have h : Only ∅ (w.modSlot i fun s => { s with tcpPcb := none }) (tcpClose (tcpAccept (tcpArg
          (w.modSlot i fun s => { s with tcpPcb := none }) p .null) p false) p).1 :=
        ((Only.onPcb _).trans (Only.onPcb _)).trans (Only.tcpClose _)
      rw [h.sockets, sockets_modSlot]
      rfl
    · have h : Only ∅ (w.modSlot i fun s => { s with tcpPcb := none }) (tcpCloseOrAbort (tcpDetach
          (w.modSlot i fun s => { s with tcpPcb := none }) p) p) :=
        (Only.tcpDetach p).trans (Only.tcpCloseOrAbort p)
      rw [h.sockets, sockets_modSlot]
      rfl

/-- The slot without its first entry. -/
theorem view_dropHeadEntry :
    ((dropHeadEntry w i).sockets i).view
      = { (w.sockets i).view with q := (w.sockets i).acceptQ.tail } := by
  unfold dropHeadEntry
  split
  · rename_i ent rest hq
    rw [(Only.tnAcceptEntryFree (S := ∅) ent).sockets, sockets_modSlot, hq]
    rfl
  · rename_i hq
    simp [TnSocketSlot.view, hq]

/-- After as many turns as it has entries, the accept queue is empty. -/
theorem view_dropEntries {α : Type} (l : List α) (w : World) :
    ((l.foldl (fun w _ => dropHeadEntry w i) w).sockets i).view
      = { (w.sockets i).view with q := (w.sockets i).acceptQ.drop l.length } := by
  induction l generalizing w with
  | nil => rfl
  | cons x l ih =>
    have hq : ((dropHeadEntry w i).sockets i).acceptQ = (w.sockets i).acceptQ.tail :=
      congrArg SlotView.q view_dropHeadEntry
    rw [List.foldl_cons, ih, view_dropHeadEntry, hq, List.drop_tail, List.length_cons]

/-- No connection waits any more. -/
theorem view_tnAcceptQueueDrain :
    ((tnAcceptQueueDrain w i).sockets i).view = { (w.sockets i).view with q := [] } := by
  unfold tnAcceptQueueDrain
  dsimp only
  rw [sockets_modSlot]
  have hv : ∀ s : TnSocketSlot, ({ s with acceptQ := [], acceptCount := 0 } : TnSocketSlot).view
      = { s.view with q := [] } := fun _ => rfl
  rw [hv, view_dropEntries]

/-- A parked request is gone. -/
theorem view_replyPending (k : Pend) (r : Int) (e : Errno) :
    ((replyPending w i k r e).sockets i).view = (w.sockets i).view.setPend k none := by
  unfold replyPending
  split
  · rename_i h
    unfold SlotView.setPend
    rw [show Function.update (w.sockets i).view.pending k none = (w.sockets i).view.pending from
      Function.update_eq_self_iff.mpr h.symm]
  · dsimp only
    rw [(Only.answerMsg (S := ∅) _ r e).sockets]
    split
    · rw [sockets_modSlot]
      exact congrArg TnSocketSlot.view (sockets_modSlot w i _)
    · exact congrArg TnSocketSlot.view (sockets_modSlot w i _)

/-- The field is empty afterwards. -/
theorem pending_replyPending (k : Pend) (r : Int) (e : Errno) :
    ((replyPending w i k r e).sockets i).pending k = none := by
  have h := congrArg (fun v : SlotView => v.pending k) (view_replyPending (w := w) (i := i) k r e)
  refine h.trans ?_
  simp [SlotView.setPend]

/-- A parked send is gone. -/
theorem view_tnSlotReplySend (e : Errno) (reply : Bool) :
    ∃ d v, ((tnSlotReplySend w i e reply).sockets i).view
      = { (w.sockets i).view.setPend .send none with sendDone := d, sendIov := v } := by
  unfold tnSlotReplySend
  split
  · rename_i h
    refine ⟨(w.sockets i).view.sendDone, (w.sockets i).view.sendIov, ?_⟩
    unfold SlotView.setPend
    rw [show Function.update (w.sockets i).view.pending .send none = (w.sockets i).view.pending from
      Function.update_eq_self_iff.mpr h.symm]
  · rename_i m hm
    refine ⟨0, none, ?_⟩
    dsimp only
    split
    · rw [(Only.replyMsg (S := ∅) m).sockets, sockets_modSlot,
        (Only.emit (S := ∅) _ (by simp)).sockets, (Only.setReply (S := ∅) m _ _).sockets]
      exact congrArg (fun s : TnSocketSlot =>
        { s with sendDeadlineTick := 0, sendDone := 0, sendIov := none }.view) (sockets_modSlot w i _)
    · rw [sockets_modSlot, (Only.emit (S := ∅) _ (by simp)).sockets,
        (Only.setReply (S := ∅) m _ _).sockets]
      exact congrArg (fun s : TnSocketSlot =>
        { s with sendDeadlineTick := 0, sendDone := 0, sendIov := none }.view) (sockets_modSlot w i _)

end Views

/-! ## `tn_slot_free` and `tn_slot_unref` -/

/-- The connections that wait are aborted one by one. -/
theorem tnAcceptQueueDrain_acts (i : SlotIdx) :
    Acts P (abs t w) (abs t (tnAcceptQueueDrain w i)) := by
  refine (acts_foldl (fun w _ => dropHeadEntry w i) (w.sockets i).acceptQ
    (fun w _ _ => dropHeadEntry_acts i) w).trans (Acts.none ?_)
  unfold tnAcceptQueueDrain
  dsimp only
  refine abs_modSlot_same t _ i _ ?_
  have h := view_dropEntries (i := i) (w.sockets i).acceptQ w
  rw [List.drop_length] at h
  show { TnSocketSlot.view _ with q := [] } = _
  rw [h]

/-- Nothing is due on a slot that has been freed. -/
theorem acts_cleared {i : SlotIdx} (hu : (w.sockets i).inUse = false)
    (hp : ∀ k, (w.sockets i).pending k = none) :
    Acts P (abs (t.cutOff i) w) (abs t w) := by
  refine (acts_served (t := (t.oweAll i).due i .recv) (Or.inl (hp .connect))).trans ?_
  refine (acts_served (t := t.oweAll i) (Or.inl (hp .recv))).trans ?_
  exact (acts_settle fun r => not_ready_of_free hu r).trans (acts_weaken (t.paid_oweAll_le i))

/-- The token after slot `i` has been freed. -/
def Tok.freed (t : Tok) (i : SlotIdx) : Tok := { t with dying := t.dying.filter (· ≠ i) }

/-- A slot that was dying and has been freed. -/
theorem Tok.freed_cons (t : Tok) {i : SlotIdx} (l : List SlotIdx) (hd : i ∉ t.dying) :
    Tok.freed { t with refs := l, dying := i :: t.dying } i = { t with refs := l } := by
  have hf : (i :: t.dying).filter (· ≠ i) = t.dying := by
    rw [List.filter_cons_of_neg (by simp)]
    exact List.filter_eq_self.mpr fun j hj => by
      have : j ≠ i := fun he => hd (he ▸ hj)
      simpa using this
  simp only [Tok.freed, hf]

/-- The last assignments on a slot that names no owner it should not. -/
theorem clearSlot_view {s : TnSocketSlot} (ha : s.view.adrift = false) :
    { s with rxCount := 0, refCount := 0, parkId := 0, isParked := false, inUse := false,
             ownerBase := none, ownerTask := none }.view
      = { s.view with inUse := false, refs := 0, parked := false } := by
  have h : ∀ v : SlotView, v.adrift = false →
      ({ v with inUse := false, refs := 0, parked := false, adrift := false } : SlotView)
        = { v with inUse := false, refs := 0, parked := false } := by
    intro v hv
    cases v
    subst hv
    rfl
  exact h s.view ha

/-- `tn_slot_free` on a slot without references. -/
theorem tnSlotFree_acts {i : SlotIdx} (hi : i ∈ t.dying) (hl : P (.clear i)) :
    Acts P (abs t w) (abs (t.freed i) (tnSlotFree w i)) := by
  refine Acts.of_sound fun hs => ?_
  have hu : (w.sockets i).inUse = true := hs.disc.dying i hi
  unfold tnSlotFree
  rw [if_pos hu]
  dsimp only
  -- the pcbs
  generalize hw1 : freeRaw (freeTcp (freeUdp (tnMcastLeaveAll w i) i) i) i = w1
  have r1 : Acts P (abs t w) (abs (t.cutOff i) w1) := by
    rw [← hw1]
    refine Relation.ReflTransGen.trans ?_ (freeRaw_acts i)
    rw [← abs_tnMcastLeaveAll t w i]
    exact (freeUdp_acts i).trans (freeTcp_acts hi)
  have v1 : (w1.sockets i).view = { (w.sockets i).view with udp := none, tcp := none, raw := none } := by
    have hl : ((tnMcastLeaveAll w i).sockets i).view = (w.sockets i).view :=
      congrFun (congrArg Abs.slot (abs_tnMcastLeaveAll t w i)) i
    rw [← hw1, view_freeRaw, view_freeTcp, view_freeUdp, hl]
  -- the queues
  generalize hw2 : tnAcceptQueueDrain (tnRxQueueDrain w1 i) i = w2
  have r2 : Acts P (abs (t.cutOff i) w1) (abs (t.cutOff i) w2) := by
    rw [← hw2]
    refine Relation.ReflTransGen.trans ?_ (tnAcceptQueueDrain_acts i)
    refine Acts.one (.rx (.drain (abs (t.cutOff i) w1) i (Or.inr hi))) ?_
    rw [tnRxQueueDrain, abs_modSlot]
    rfl
  have v2 : (w2.sockets i).view
      = { (w.sockets i).view with udp := none, tcp := none, raw := none, rx := [], q := [] } := by
    rw [← hw2, view_tnAcceptQueueDrain, tnRxQueueDrain, sockets_modSlot]
    show { { (w1.sockets i).view with rx := [] } with q := [] } = _
    rw [v1]
  -- the parked requests
  generalize hw3 : replyPending (replyPending (replyPending w2 i .connect (-1) .ebadf) i .accept (-1)
    .ebadf) i .recv (-1) .ebadf = w3
  have r3 : Acts P (abs (t.cutOff i) w2) (abs (t.cutOff i) w3) := by
    rw [← hw3]
    exact ((replyPending_acts i (by decide) _ _).trans (replyPending_acts i (by decide) _ _)).trans
      (replyPending_acts i (by decide) _ _)
  have v3 : (w3.sockets i).view = (((w2.sockets i).view.setPend .connect none).setPend .accept
      none).setPend .recv none := by
    rw [← hw3, view_replyPending, view_replyPending, view_replyPending]
  have r4 : Acts P (abs (t.cutOff i) w3) (abs (t.cutOff i) (tnSlotReplySend w3 i .ebadf true)) :=
    (tnSlotReplySend_interrupt i rfl).trans (acts_weaken
      ⟨rfl, Set.insert_subset (Or.inr rfl) subset_rfl, subset_rfl⟩)
  obtain ⟨d, v, v4⟩ := view_tnSlotReplySend (w := w3) (i := i) .ebadf true
  generalize tnSlotReplySend w3 i .ebadf true = w4 at r4 v4
  rw [v3, v2] at v4
  have hpend : ∀ k, (w4.sockets i).view.pending k = none := by
    intro k
    rw [v4]
    cases k <;> simp [SlotView.setPend]
  -- the slot itself
  have r5 : Acts P (abs (t.cutOff i) w4) (abs ((t.freed i).cutOff i) (clearSlot w4 i)) := by
    refine Acts.one (.ref (.clear (abs (t.cutOff i) w4) i hi hpend ?_ ?_ ?_ ?_ ?_ hl))
      (abs_with (t := t.cutOff i) ?_ _)
    any_goals
      rw [abs_slot, v4]
      rfl
    · rw [clearSlot, abs_modSlot]
      congr 1
      exact clearSlot_view (by rw [v4]; show (w.sockets i).view.adrift = false; simp [TnSocketSlot.view, hu])
  refine ((((r1.trans r2).trans r3).trans r4).trans r5).trans (acts_cleared ?_ ?_)
  · simp [clearSlot, World.modSlot]
  · intro k
    rw [clearSlot, sockets_modSlot]
    exact hpend k

/-- `tn_slot_free` on a slot that has just been allocated. -/
theorem tnSlotFree_new {i : SlotIdx} (hi : i ∈ t.refs) (hd : i ∉ t.dying)
    (hu : (w.sockets i).inUse = true) (hr : (w.sockets i).refCount = 1) (hl : P (.clear i)) :
    Acts P (abs t w) (abs { t with refs := t.refs.erase i } (tnSlotFree w i)) := by
  have h : Acts P (abs t w)
      (abs { t with refs := t.refs.erase i, dying := i :: t.dying } w) :=
    .single (.ref (.condemn (abs t w) i hi hu hr))
  refine h.trans ((tnSlotFree_acts (List.mem_cons_self ..) hl).trans (Acts.none ?_))
  rw [t.freed_cons _ hd]

/-- `tn_slot_unref` of a reference in hand. -/
theorem tnSlotUnref_acts {i : SlotIdx} (hi : i ∈ t.refs) (hd : i ∉ t.dying)
    (hu : (w.sockets i).inUse = true)
    (hl : (w.sockets i).refCount - 1 = 0 → P (.clear i)) :
    Acts P (abs t w) (abs { t with refs := t.refs.erase i } (tnSlotUnref w i)) := by
  unfold tnSlotUnref
  rw [if_pos hu]
  dsimp only
  have hrc : ((w.modSlot i fun s => { s with refCount := s.refCount - 1 }).sockets i).refCount
      = (w.sockets i).refCount - 1 := by rw [sockets_modSlot]
  split
  · rename_i h0
    rw [hrc] at h0
    have h : Acts P (abs t w) (abs { t with refs := t.refs.erase i, dying := i :: t.dying }
        (w.modSlot i fun s => { s with refCount := s.refCount - 1 })) := by
      refine Acts.one (.ref (.lastRef (abs t w) i hi hu h0)) (abs_with (t := t) ?_ _)
      rw [abs_modSlot]
      congr 1
      show { (w.sockets i).view with refs := (w.sockets i).refCount - 1 } = _
      rw [h0]
      rfl
    refine h.trans ((tnSlotFree_acts (List.mem_cons_self ..) (hl h0)).trans (Acts.none ?_))
    rw [t.freed_cons _ hd]
  · rename_i h0
    rw [hrc] at h0
    exact Acts.one (.ref (.unref (abs t w) i hi hu h0)) (abs_with (t := t) (abs_modSlot ..) _)

end Tolunnet
