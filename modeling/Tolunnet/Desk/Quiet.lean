import Tolunnet.Desk.State
import Tolunnet.Refine.Routine

/-!
# `Tolunnet.Desk.Quiet`: code that touches no account

Most of the daemon is about connections, queues, options and wakeups, and leaves the accounts of
`Tolunnet.Desk.State` as they are. `desk_blind` says so of its statements and `desk_stock` of its
operations on queues and events; the functions made of these are covered by `Tolunnet.Refine`. The
simp lemmas say what the statements do, so that `simp` finds the accounts after a chain of them.
-/

set_option autoImplicit false

namespace Tolunnet

open World

variable {h : List MsgId} {w : World}

/-! ## Statements -/

/-- An assignment to a slot that keeps its parked requests and its place in the parking lot. -/
theorem desk_modSlot (i : SlotIdx) (f : TnSocketSlot → TnSocketSlot)
    (hp : (f (w.sockets i)).pending = (w.sockets i).pending)
    (hl : (f (w.sockets i)).parkedAs = (w.sockets i).parkedAs) :
    desk h (w.modSlot i f) = desk h w := by
  have slots : ∀ j, ((w.modSlot i f).sockets j).pending = (w.sockets j).pending ∧
      ((w.modSlot i f).sockets j).parkedAs = (w.sockets j).parkedAs := by
    intro j
    by_cases hj : j = i
    · subst hj
      simp [modSlot, hp, hl]
    · simp [modSlot, hj]
  unfold desk
  congr 1
  · funext j
    exact (slots j).1
  · funext j
    exact (slots j).2

/-- An assignment to fields of a slot that no account reads. -/
@[simp] theorem desk_assign (i : SlotIdx) (f : TnSocketSlot → TnSocketSlot)
    (hp : (f (w.sockets i)).pending = (w.sockets i).pending)
    (hu : (f (w.sockets i)).inUse = (w.sockets i).inUse)
    (hk : (f (w.sockets i)).isParked = (w.sockets i).isParked)
    (hi : (f (w.sockets i)).parkId = (w.sockets i).parkId) :
    desk h (w.modSlot i f) = desk h w :=
  desk_modSlot i f hp (by simp [TnSocketSlot.parkedAs, hu, hk, hi])

/-- A field of a slot is set. -/
@[simp] theorem desk_setPending (i : SlotIdx) (k : Pend) (v : Option MsgId) :
    desk h (w.setPending i k v) = (desk h w).setPend i k v := by
  have lot : ∀ j, ((w.setPending i k v).sockets j).parkedAs = (w.sockets j).parkedAs := by
    intro j
    by_cases hj : j = i
    · subst hj
      simp [setPending, modSlot, TnSocketSlot.parkedAs]
    · simp [setPending, modSlot, hj]
  unfold desk Desk.setPend
  congr 1
  · funext j
    by_cases hj : j = i
    · subst hj
      simp [setPending, modSlot]
    · simp [setPending, modSlot, hj]
  · funext j
    exact lot j

@[simp] theorem desk_modBase (b : BaseId) (f : TnSocketBase → TnSocketBase) :
    desk h (w.modBase b f) = desk h w := rfl

@[simp] theorem desk_setFd (b : BaseId) (n : Nat) (v : Option SlotIdx) :
    desk h (w.setFd b n v) = desk h w := rfl

@[simp] theorem desk_modMsg (m : MsgId) (f : TnIpcMsg → TnIpcMsg) :
    desk h (w.modMsg m f) = desk h w := rfl

@[simp] theorem desk_setReply (m : MsgId) (r : Int) (e : Errno) :
    desk h (w.setReply m r e) = desk h w := rfl

/-- An event that is no reply. -/
theorem desk_emit (e : Event) (he : e.replied = none) : desk h (w.emit e) = desk h w := by
  unfold desk emit answered
  congr 1
  exact List.filterMap_cons_none he

@[simp] theorem desk_replyMsg (m : MsgId) : desk h (w.replyMsg m) = (desk h w).say m := rfl

@[simp] theorem desk_answerMsg (m : MsgId) (r : Int) (e : Errno) :
    desk h (w.answerMsg m r e) = (desk h w).say m := rfl

@[simp] theorem desk_out (o : Output) : desk h (w.out o) = desk h w := rfl

@[simp] theorem desk_signal (t : TaskId) (mask : Nat) : desk h (w.signal t mask) = desk h w := rfl

@[simp] theorem desk_store (m : MsgId) (k off : Nat) (b : List UInt8) :
    desk h (w.store m k off b) = desk h w := rfl

@[simp] theorem desk_asked : desk h w.asked = desk h w := rfl

@[simp] theorem desk_libOpenCnt (n : Nat) : desk h { w with libOpenCnt := n } = desk h w := rfl

/-- The accounts show no connections, no client memory and no wakeups. -/
theorem desk_blind (h : List MsgId) : Numb (Same (desk h)) := by
  refine .of_mute ?_ (fun _ _ _ => rfl) (fun _ _ _ _ => rfl) (fun _ _ _ _ => rfl) ?_
  · exact {
      refl := fun _ => rfl
      trans := fun h h' => h'.trans h
      asked := fun _ => rfl
      modMsg := fun _ _ _ => rfl
      modBase := fun _ _ _ _ => rfl
      emit := fun _ e he => desk_emit e he
      out := fun _ _ _ => rfl
      modLive := fun _ _ => rfl
      sel := fun _ _ _ _ _ => rfl }
  · intro w i f hf
    simp only [TnSocketSlot.shown, Prod.mk.injEq] at hf
    obtain ⟨hu, -, hp, ⟨hk, hi⟩, -⟩ := hf
    exact desk_assign i f hp hu hk hi

/-- A result taken apart. -/
theorem desk_of_eq {α : Type} {r : World × α} {w' : World} {a : α} (he : r = (w', a))
    (hr : desk h r.1 = desk h w) : desk h w' = desk h w := of_pair (R := Same (desk h)) he hr

/-! ## lwIP calls -/

@[simp] theorem desk_setUdp (p : PcbId) (c : Option DgramPcb) :
    desk h (w.setUdp p c) = desk h w := rfl

@[simp] theorem desk_setRaw (p : PcbId) (c : Option DgramPcb) :
    desk h (w.setRaw p c) = desk h w := rfl

@[simp] theorem desk_onUdp (p : PcbId) (f : DgramPcb → DgramPcb) :
    desk h (w.onUdp p f) = desk h w := rfl

@[simp] theorem desk_onRaw (p : PcbId) (f : DgramPcb → DgramPcb) :
    desk h (w.onRaw p f) = desk h w := rfl

@[simp] theorem desk_tcpArg (p : PcbId) (a : CbArg) : desk h (tcpArg w p a) = desk h w :=
  (desk_blind h).tcpArg ..

@[simp] theorem desk_tcpRecv (p : PcbId) (fn : RecvFn) : desk h (tcpRecv w p fn) = desk h w :=
  (desk_blind h).tcpRecv ..

@[simp] theorem desk_tcpSent (p : PcbId) (on : Bool) : desk h (tcpSent w p on) = desk h w :=
  (desk_blind h).tcpSent ..

@[simp] theorem desk_tcpErr (p : PcbId) (fn : ErrFn) : desk h (tcpErr w p fn) = desk h w :=
  (desk_blind h).tcpErr ..

@[simp] theorem desk_tcpPoll (p : PcbId) (on : Bool) : desk h (tcpPoll w p on) = desk h w :=
  (desk_blind h).tcpPoll ..

@[simp] theorem desk_tcpOutput (p : PcbId) : desk h (tcpOutput w p) = desk h w :=
  (desk_blind h).tcpOutput

/-! ## Queues and events -/

/-- A byte count and a flag of a base are no account. -/
@[simp] theorem desk_tnRecordSocketEvent (i : SlotIdx) (e : Nat) :
    desk h (tnRecordSocketEvent w i e) = desk h w := by
  unfold tnRecordSocketEvent
  dsimp only
  split
  · split
    · rfl
    · split
      · split <;> simp
      · simp
  · rfl

/-- A larger selector table. -/
theorem desk_tnSelectorTableGrow (n : Nat) : desk h (tnSelectorTableGrow w n) = desk h w := by
  unfold tnSelectorTableGrow
  split_ifs <;> rfl

/-- A queued segment. -/
theorem desk_tnRxQueuePushEx (i : SlotIdx) (seg : List UInt8) (ip port : Nat) (capped : Bool) :
    desk h (tnRxQueuePushEx w i seg ip port capped).1 = desk h w := by
  unfold tnRxQueuePushEx
  dsimp only
  split_ifs
  · rfl
  · simp
  · rfl

/-- A drained receive queue. -/
@[simp] theorem desk_tnRxQueueDrain (i : SlotIdx) : desk h (tnRxQueueDrain w i) = desk h w := by
  simp [tnRxQueueDrain]

/-- A field of an accept entry. -/
theorem desk_modEntry (i : SlotIdx) (e : EntId) (f : TnAcceptEntry → TnAcceptEntry) :
    desk h (modEntry w i e f) = desk h w := by
  simp [modEntry]

@[simp] theorem desk_tnAcceptEntryFree (ent : TnAcceptEntry) :
    desk h (tnAcceptEntryFree w ent) = desk h w := (desk_blind h).tnAcceptEntryFree ..

@[simp] theorem desk_tnAcceptQueuePopEntry (i : SlotIdx) :
    desk h (tnAcceptQueuePopEntry w i) = desk h w := by
  simp [tnAcceptQueuePopEntry]

/-- An entry out of the accept queue. -/
theorem desk_tnAcceptQueueRemove (i : SlotIdx) (e : EntId) :
    desk h (tnAcceptQueueRemove w i e) = desk h w := by
  unfold tnAcceptQueueRemove
  split
  · simp
  · rfl

/-- An entry into the accept queue. -/
theorem desk_tnAcceptQueuePush (i : SlotIdx) (p : PcbId) :
    desk h (tnAcceptQueuePush w i p).1 = desk h w := by
  unfold tnAcceptQueuePush
  dsimp only
  split_ifs
  · rfl
  · simp
  · rfl

/-- A relation that allows for quiet code covers the operations on queues and events. -/
theorem desk_stock {R : World → World → Prop} (hr : Blind R)
    (larger : ∀ {w w' : World}, desk h w' = desk h w → R w w') : Stock (fun _ _ => True) R where
  toBlind := hr
  prefs _ _ := larger rfl
  grow _ n := larger (desk_tnSelectorTableGrow n)
  event _ i e := larger (desk_tnRecordSocketEvent i e)
  fits _ _ _ _ := trivial
  udp _ _ _ _ _ _ _ hf := hf trivial
  raw _ _ _ _ _ _ _ hf := hf trivial
  push _ i seg ip port capped _ := larger (desk_tnRxQueuePushEx i seg ip port capped)
  drain _ i := larger (desk_tnRxQueueDrain i)
  fin _ e k _ _ := larger (desk_modEntry k e _)
  early _ e k _ _ _ _ _ := larger (desk_modEntry k e _)
  remove _ i e := larger (desk_tnAcceptQueueRemove i e)

/-- The accounts themselves. -/
theorem desk_same (h : List MsgId) : Stock (fun _ _ => True) (Same (desk h)) :=
  desk_stock (desk_blind h).toBlind id

/-! ## Freeing a slot -/

/-- A drained accept queue. -/
@[simp] theorem desk_tnAcceptQueueDrain (i : SlotIdx) :
    desk h (tnAcceptQueueDrain w i) = desk h w := by
  have drop : ∀ w, desk h (dropHeadEntry w i) = desk h w := fun w => by
    unfold dropHeadEntry
    split
    · simp
    · rfl
  unfold tnAcceptQueueDrain
  rw [desk_assign i _ rfl rfl rfl rfl]
  exact (desk_blind h).foldl _ _ (fun w _ _ => drop w) w

/-- A freed `udp_pcb`. -/
@[simp] theorem desk_freeUdp (i : SlotIdx) : desk h (freeUdp w i) = desk h w := by
  unfold freeUdp
  split
  · exact desk_modSlot i _ rfl rfl
  · rfl

/-- A freed `raw_pcb`. -/
@[simp] theorem desk_freeRaw (i : SlotIdx) : desk h (freeRaw w i) = desk h w := by
  unfold freeRaw
  split
  · exact desk_modSlot i _ rfl rfl
  · rfl

/-- A freed `tcp_pcb`. -/
@[simp] theorem desk_freeTcp (i : SlotIdx) : desk h (freeTcp w i) = desk h w :=
  (desk_blind h).freeTcp

end Tolunnet
