import Tolunnet.Queue.State
import Tolunnet.Refine.Blind

/-!
# `Tolunnet.Queue.Quiet`: code that touches no queue

Most statements of the daemon are about connections, options, descriptors, parked requests and
wakeups. `yard_numb` and `yard_deaf` say so of the yard, and with them the functions that consist of
such statements leave it as it is.
-/

set_option autoImplicit false

namespace Tolunnet

namespace Queues

open World

variable {h : List TnAcceptEntry} {w : World}

/-! ## Statements -/

/-- An assignment to a slot. -/
theorem yard_setBay (i : SlotIdx) (f : TnSocketSlot → TnSocketSlot) :
    yard h (w.modSlot i f) = (yard h w).setBay i (bay (f (w.sockets i))) := by
  unfold yard Yard.setBay
  congr 1
  funext j
  by_cases hj : j = i
  · subst hj
    simp [modSlot]
  · simp [modSlot, hj]

/-- An assignment to fields of a slot that are not in the view. -/
theorem yard_same (i : SlotIdx) (f : TnSocketSlot → TnSocketSlot)
    (hf : bay (f (w.sockets i)) = bay (w.sockets i)) : yard h (w.modSlot i f) = yard h w := by
  rw [yard_setBay, hf]
  exact (yard h w).setBay_self i

/-- The same, field by field, as `simp` can check it. -/
@[simp] theorem yard_assign (i : SlotIdx) (f : TnSocketSlot → TnSocketSlot)
    (hu : (f (w.sockets i)).inUse = (w.sockets i).inUse)
    (hr : (f (w.sockets i)).rx = (w.sockets i).rx)
    (hrc : (f (w.sockets i)).rxCount = (w.sockets i).rxCount)
    (ha : (f (w.sockets i)).acceptQ = (w.sockets i).acceptQ)
    (hac : (f (w.sockets i)).acceptCount = (w.sockets i).acceptCount)
    (hb : (f (w.sockets i)).listenBacklog = (w.sockets i).listenBacklog) :
    yard h (w.modSlot i f) = yard h w :=
  yard_same i f (by simp only [bay, hu, hr, hrc, ha, hac, hb])

@[simp] theorem yard_setPending (i : SlotIdx) (k : Pend) (v : Option MsgId) :
    yard h (w.setPending i k v) = yard h w := yard_same i _ rfl

@[simp] theorem yard_modBase (b : BaseId) (f : TnSocketBase → TnSocketBase) :
    yard h (w.modBase b f) = yard h w := rfl

@[simp] theorem yard_setFd (b : BaseId) (fd : Nat) (v : Option SlotIdx) :
    yard h (w.setFd b fd v) = yard h w := rfl

@[simp] theorem yard_modMsg (m : MsgId) (f : TnIpcMsg → TnIpcMsg) :
    yard h (w.modMsg m f) = yard h w := rfl

@[simp] theorem yard_setReply (m : MsgId) (r : Int) (e : Errno) :
    yard h (w.setReply m r e) = yard h w := rfl

@[simp] theorem yard_emit (e : Event) : yard h (w.emit e) = yard h w := rfl

@[simp] theorem yard_replyMsg (m : MsgId) : yard h (w.replyMsg m) = yard h w := rfl

@[simp] theorem yard_answerMsg (m : MsgId) (r : Int) (e : Errno) :
    yard h (w.answerMsg m r e) = yard h w := rfl

@[simp] theorem yard_out (o : Output) : yard h (w.out o) = yard h w := rfl

@[simp] theorem yard_signal (t : TaskId) (mask : Nat) : yard h (w.signal t mask) = yard h w := rfl

@[simp] theorem yard_store (m : MsgId) (k off : Nat) (b : List UInt8) :
    yard h (w.store m k off b) = yard h w := rfl

@[simp] theorem yard_asked : yard h w.asked = yard h w := rfl

@[simp] theorem yard_setUdp (p : PcbId) (c : Option DgramPcb) :
    yard h (w.setUdp p c) = yard h w := rfl

@[simp] theorem yard_setRaw (p : PcbId) (c : Option DgramPcb) :
    yard h (w.setRaw p c) = yard h w := rfl

@[simp] theorem yard_onUdp (p : PcbId) (f : DgramPcb → DgramPcb) :
    yard h (w.onUdp p f) = yard h w := rfl

@[simp] theorem yard_onRaw (p : PcbId) (f : DgramPcb → DgramPcb) :
    yard h (w.onRaw p f) = yard h w := rfl

/-- The yard shows no connections, no options and no client memory. -/
theorem yard_numb (h : List TnAcceptEntry) : Numb (Same (yard h)) := by
  refine .of_mute ?_ (fun _ _ _ => rfl) (fun _ _ _ _ => rfl) (fun _ _ _ _ => rfl) ?_
  · exact {
      refl := fun _ => rfl
      trans := fun h h' => h'.trans h
      asked := fun _ => rfl
      modMsg := fun _ _ _ => rfl
      modBase := fun _ _ _ _ => rfl
      emit := fun _ _ _ => rfl
      out := fun _ _ _ => rfl
      modLive := fun _ _ => rfl
      sel := fun _ _ _ _ _ => rfl }
  · intro w i f hf
    simp only [TnSocketSlot.shown, Prod.mk.injEq] at hf
    obtain ⟨hu, -, -, -, ⟨hr, hrc⟩, ⟨ha, hac, hb⟩, -, -⟩ := hf
    exact yard_assign i f hu hr hrc ha hac hb

/-- Nor does it show who waits and who is answered. -/
theorem yard_deaf (h : List TnAcceptEntry) : Deaf (Same (yard h)) where
  toBlind := (yard_numb h).toBlind
  replyMsg _ _ := rfl
  setPending _ i k x := yard_setPending i k x
  dns _ _ _ _ := rfl
  park _ _ := rfl

/-! ## Functions -/

@[simp] theorem yard_tcpArg (p : PcbId) (a : CbArg) : yard h (tcpArg w p a) = yard h w :=
  (yard_deaf h).tcpArg ..

@[simp] theorem yard_tcpRecv (p : PcbId) (fn : RecvFn) : yard h (tcpRecv w p fn) = yard h w :=
  (yard_deaf h).tcpRecv ..

@[simp] theorem yard_tcpErr (p : PcbId) (fn : ErrFn) : yard h (tcpErr w p fn) = yard h w :=
  (yard_deaf h).tcpErr ..

@[simp] theorem yard_replyPending (i : SlotIdx) (k : Pend) (r : Int) (e : Errno) :
    yard h (replyPending w i k r e) = yard h w := (yard_deaf h).replyPending ..

@[simp] theorem yard_tnSlotReplySend (i : SlotIdx) (e : Errno) (reply : Bool) :
    yard h (tnSlotReplySend w i e reply) = yard h w := (yard_deaf h).tnSlotReplySend ..

@[simp] theorem yard_tnAcceptEntryFree (ent : TnAcceptEntry) :
    yard h (tnAcceptEntryFree w ent) = yard h w := (yard_deaf h).tnAcceptEntryFree ..

@[simp] theorem yard_freeTcp (i : SlotIdx) : yard h (freeTcp w i) = yard h w :=
  (yard_deaf h).freeTcp

@[simp] theorem yard_setPcb (p : PcbId) (c : Option TcpPcb) :
    yard h (w.setPcb p c) = yard h w := rfl

end Queues

end Tolunnet
