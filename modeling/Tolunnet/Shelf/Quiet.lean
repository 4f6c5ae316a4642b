import Tolunnet.Shelf.State
import Tolunnet.Refine.Blind

/-!
# `Tolunnet.Shelf.Quiet`: code that touches no queue and no table

Most statements of the daemon are about connections, options, parked requests and wakeups.
`shelf_numb` and `shelf_deaf` say so of the shelf, and with them the functions that consist of such
statements leave it as it is. What proofs about queues rewrite with is restated as simp lemmas.
-/

set_option autoImplicit false

namespace Tolunnet

open World

variable {w : World}

/-! ## Statements -/

/-- An assignment to a slot. -/
theorem shelf_setSlot (i : SlotIdx) (f : TnSocketSlot → TnSocketSlot) :
    shelf (w.modSlot i f) = (shelf w).setSlot i (f (w.sockets i)).onShelf := by
  unfold shelf Shelf.setSlot
  congr 1
  funext j
  by_cases hj : j = i
  · subst hj
    simp [modSlot]
  · simp [modSlot, hj]

/-- An assignment to fields of a slot that are not in the view. -/
theorem shelf_same (i : SlotIdx) (f : TnSocketSlot → TnSocketSlot)
    (hf : (f (w.sockets i)).onShelf = (w.sockets i).onShelf) :
    shelf (w.modSlot i f) = shelf w := by
  rw [shelf_setSlot, hf]
  exact Shelf.setSlot_self (shelf w) i

/-- The same, field by field, as `simp` can check it. -/
@[simp] theorem shelf_assign (i : SlotIdx) (f : TnSocketSlot → TnSocketSlot)
    (hu : (f (w.sockets i)).inUse = (w.sockets i).inUse)
    (ht : (f (w.sockets i)).type = (w.sockets i).type)
    (hr : (f (w.sockets i)).rx = (w.sockets i).rx)
    (hrc : (f (w.sockets i)).rxCount = (w.sockets i).rxCount)
    (ha : (f (w.sockets i)).acceptQ = (w.sockets i).acceptQ)
    (hac : (f (w.sockets i)).acceptCount = (w.sockets i).acceptCount)
    (hup : (f (w.sockets i)).udpPcb = (w.sockets i).udpPcb)
    (hrp : (f (w.sockets i)).rawPcb = (w.sockets i).rawPcb) :
    shelf (w.modSlot i f) = shelf w :=
  shelf_same i f (by simp only [TnSocketSlot.onShelf, hu, ht, hr, hrc, ha, hac, hup, hrp])

@[simp] theorem shelf_setPending (i : SlotIdx) (k : Pend) (v : Option MsgId) :
    shelf (w.setPending i k v) = shelf w := shelf_same i _ rfl

/-- An assignment to a base. -/
theorem shelf_setTable (b : BaseId) (f : TnSocketBase → TnSocketBase) :
    shelf (w.modBase b f) = (shelf w).setTable b (f (w.bases b)).onShelf := by
  unfold shelf Shelf.setTable
  congr 1
  funext c
  by_cases hc : c = b
  · subst hc
    simp [modBase]
  · simp [modBase, hc]

/-- An assignment to fields of a base that are not in the view. -/
@[simp] theorem shelf_modBase (b : BaseId) (f : TnSocketBase → TnSocketBase)
    (hf : (f (w.bases b)).onShelf = (w.bases b).onShelf) : shelf (w.modBase b f) = shelf w := by
  rw [shelf_setTable, hf]
  exact Shelf.setTable_self (shelf w) b

@[simp] theorem shelf_modMsg (m : MsgId) (f : TnIpcMsg → TnIpcMsg) :
    shelf (w.modMsg m f) = shelf w := rfl

@[simp] theorem shelf_setReply (m : MsgId) (r : Int) (e : Errno) :
    shelf (w.setReply m r e) = shelf w := rfl

@[simp] theorem shelf_emit (e : Event) : shelf (w.emit e) = shelf w := rfl

@[simp] theorem shelf_replyMsg (m : MsgId) : shelf (w.replyMsg m) = shelf w := rfl

@[simp] theorem shelf_answerMsg (m : MsgId) (r : Int) (e : Errno) :
    shelf (w.answerMsg m r e) = shelf w := rfl

/-- A write into a client that is no event. -/
theorem shelf_out (o : Output) (ho : o.post? = none) : shelf (w.out o) = shelf w := by
  unfold shelf posts out
  congr 1
  exact List.filterMap_cons_none ho

@[simp] theorem shelf_asked : shelf w.asked = shelf w := rfl

@[simp] theorem shelf_env (env : List Answer) : shelf { w with env := env } = shelf w := rfl

@[simp] theorem shelf_libOpenCnt (n : Nat) : shelf { w with libOpenCnt := n } = shelf w := rfl

/-- A field of a UDP pcb other than its slot. -/
@[simp] theorem shelf_onUdp (p : PcbId) (f : DgramPcb → DgramPcb) (hf : ∀ c, (f c).arg = c.arg) :
    shelf (w.onUdp p f) = shelf w := by
  unfold shelf
  congr 1
  funext q
  by_cases hq : q = p
  · subst hq
    simp [World.onUdp, Function.comp_def, hf]
  · simp [World.onUdp, hq]

/-- A field of a raw pcb other than its slot. -/
@[simp] theorem shelf_onRaw (p : PcbId) (f : DgramPcb → DgramPcb) (hf : ∀ c, (f c).arg = c.arg) :
    shelf (w.onRaw p f) = shelf w := by
  unfold shelf
  congr 1
  funext q
  by_cases hq : q = p
  · subst hq
    simp [World.onRaw, Function.comp_def, hf]
  · simp [World.onRaw, hq]

/-- An assignment to fields that no view shows. -/
theorem shelf_shown (i : SlotIdx) (f : TnSocketSlot → TnSocketSlot)
    (hf : (f (w.sockets i)).shown = (w.sockets i).shown) : shelf (w.modSlot i f) = shelf w := by
  simp only [TnSocketSlot.shown, Prod.mk.injEq] at hf
  obtain ⟨hu, ht, -, -, ⟨hr, hrc⟩, ⟨ha, hac, -⟩, hup, hrp⟩ := hf
  exact shelf_assign i f hu ht hr hrc ha hac hup hrp

/-- The shelf shows no connections, no options, no client memory and no wakeups. -/
theorem shelf_numb : Numb (Same shelf) := by
  refine .of_mute ?_ (fun _ _ _ => rfl) (fun w p f hf => shelf_onUdp p f hf)
    (fun w p f hf => shelf_onRaw p f hf) (fun w i f hf => shelf_shown i f hf)
  exact {
    refl := fun _ => rfl
    trans := fun h h' => h'.trans h
    asked := fun _ => rfl
    modMsg := fun _ _ _ => rfl
    modBase := fun w b f hf => by
      simp only [TnSocketBase.shown, Prod.mk.injEq] at hf
      obtain ⟨hm, hd, he, hk⟩ := hf
      exact shelf_modBase b f (by simp only [TnSocketBase.onShelf, hm, hd, he, hk])
    emit := fun _ _ _ => rfl
    out := fun w o ho => by
      refine shelf_out o ?_
      cases o with
      | event => cases ho
      | _ => rfl
    modLive := fun _ _ => rfl
    sel := fun w l n a hl => by
      unfold Same shelf
      dsimp only
      rw [hl]
      rfl }

/-- No connection is on the shelf. -/
theorem shelf_blind : Blind (Same shelf) := Numb.toBlind shelf_numb

/-- No client memory is on the shelf. -/
theorem shelf_mute : Mute (Same shelf) := Blind.toMute shelf_blind

/-- Nor does it show who waits and who is answered. -/
theorem shelf_deaf : Deaf (Same shelf) where
  toBlind := shelf_blind
  replyMsg _ _ := rfl
  setPending _ i k x := shelf_setPending i k x
  dns _ _ _ _ := rfl
  park _ _ := rfl

/-- No parked request is on the shelf. -/
theorem shelf_replies : Replies (Same shelf) := Deaf.replies shelf_deaf

/-! ## Functions -/

@[simp] theorem shelf_setPcb (p : PcbId) (c : Option TcpPcb) :
    shelf (w.setPcb p c) = shelf w := rfl

/-- The callback argument is not on the shelf. -/
@[simp] theorem shelf_tcpArg (p : PcbId) (a : CbArg) : shelf (tcpArg w p a) = shelf w :=
  Blind.tcpArg shelf_blind ..

/-- The receive callback is not on the shelf. -/
@[simp] theorem shelf_tcpRecv (p : PcbId) (fn : RecvFn) : shelf (tcpRecv w p fn) = shelf w :=
  Blind.tcpRecv shelf_blind ..

/-- The error callback is not on the shelf. -/
@[simp] theorem shelf_tcpErr (p : PcbId) (fn : ErrFn) : shelf (tcpErr w p fn) = shelf w :=
  Blind.tcpErr shelf_blind ..

/-- An abort leaves the shelf. -/
@[simp] theorem shelf_tcpAbort (p : PcbId) : shelf (tcpAbort w p) = shelf w :=
  Blind.tcpAbort shelf_blind

/-- A connection given to a slot leaves the shelf. -/
@[simp] theorem shelf_adoptPcb (m : MsgId) (i j : SlotIdx) (p : PcbId) :
    shelf (adoptPcb w m i j p) = shelf w := Numb.adoptPcb shelf_numb ..

/-- A base's selectors are not on the shelf. -/
@[simp] theorem shelf_tnSelectorDisarmAllForBase (b : BaseId) :
    shelf (tnSelectorDisarmAllForBase w b) = shelf w :=
  Mute.tnSelectorDisarmAllForBase shelf_mute ..

/-- An answered field leaves the shelf. -/
@[simp] theorem shelf_replyPending (i : SlotIdx) (k : Pend) (r : Int) (e : Errno) :
    shelf (replyPending w i k r e) = shelf w := Deaf.replyPending shelf_deaf ..

/-- An answered send leaves the shelf. -/
@[simp] theorem shelf_tnSlotReplySend (i : SlotIdx) (e : Errno) (reply : Bool) :
    shelf (tnSlotReplySend w i e reply) = shelf w := Deaf.tnSlotReplySend shelf_deaf ..

/-- A base's receives are cancelled off the shelf. -/
@[simp] theorem shelf_tnRecvCancelForBase2 (b : BaseId) (reply : Bool) :
    shelf (tnRecvCancelForBase2 w b reply) = shelf w := Replies.tnRecvCancelForBase2 shelf_replies ..

/-- A base's lookups are cancelled off the shelf. -/
@[simp] theorem shelf_tnDnsCancelForBase2 (b : BaseId) (reply : Bool) :
    shelf (tnDnsCancelForBase2 w b reply) = shelf w := Deaf.tnDnsCancelForBase2 shelf_deaf ..

/-- Memberships are not on the shelf. -/
@[simp] theorem shelf_tnMcastLeaveAll (i : SlotIdx) : shelf (tnMcastLeaveAll w i) = shelf w := by
  refine Mute.foldl shelf_mute _ _ (fun w k _ => ?_) w
  unfold mcastLeaveAt igmpLeavegroup Same
  dsimp only
  split_ifs <;> rfl

/-- A reference count is not on the shelf. -/
@[simp] theorem shelf_tnSlotRef (i : SlotIdx) : shelf (tnSlotRef w i) = shelf w :=
  Blind.tnSlotRef shelf_blind

/-- A receive window is not on the shelf. -/
@[simp] theorem shelf_rxWindow (i : SlotIdx) (n : Nat) : shelf (rxWindow w i n) = shelf w :=
  Blind.rxWindow shelf_blind ..

/-- A freed entry is not on the shelf. -/
@[simp] theorem shelf_tnAcceptEntryFree (ent : TnAcceptEntry) :
    shelf (tnAcceptEntryFree w ent) = shelf w := Blind.tnAcceptEntryFree shelf_blind ..

/-- A freed `tcp_pcb` is not on the shelf. -/
@[simp] theorem shelf_freeTcp (i : SlotIdx) : shelf (freeTcp w i) = shelf w :=
  Blind.freeTcp shelf_blind

/-- Owners are not on the shelf. -/
@[simp] theorem shelf_tnSlotClearOwnerBase (b : BaseId) :
    shelf (tnSlotClearOwnerBase w b) = shelf w := Blind.tnSlotClearOwnerBase shelf_blind ..

end Tolunnet
