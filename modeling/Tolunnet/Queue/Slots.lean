import Tolunnet.Queue.Quiet
import Tolunnet.Shelf.Queues

/-!
# `Tolunnet.Queue.Slots`: the functions that move the yard

Each function of `Tolunnet.Task.SlotTable` and `Tolunnet.Task.Recv` that touches a queue, a slot or
a membership is one move, or a short list of them.
-/

set_option autoImplicit false

namespace Tolunnet

namespace Queues

open World

variable {h : List TnAcceptEntry} {w : World} {i j : SlotIdx} {p : PcbId}

/-! ## Receive queues -/

/-- A packet is queued. -/
theorem tnRxQueuePushEx_works (seg : List UInt8) (ip port : Nat) (capped : Bool) :
    Works h w (tnRxQueuePushEx w i seg ip port capped).1 := by
  unfold tnRxQueuePushEx
  dsimp only
  split_ifs with hf hk
  · exact .refl w
  · refine Works.trans (.of_eq (w := w) yard_asked) ?_
    have live : (w.sockets i).inUse = true := by
      rw [Bool.or_eq_true, not_or] at hf
      simpa using hf.1
    dsimp only
    exact .one (.push _ i { p := seg, srcIp := ip, srcPort := port } live) (yard_setBay i _)
  · exact .of_eq yard_asked

/-- The queue is emptied. -/
theorem tnRxQueueDrain_works : Works h w (tnRxQueueDrain w i) :=
  .one (.drain _ i) (yard_setBay i _)

theorem rxPop_works : Works h w (rxPop w i) := .one (.unlink _ i) (yard_setBay i _)

@[simp] theorem yard_rxWindow (n : Nat) : yard h (rxWindow w i n) = yard h w :=
  (yard_deaf h).rxWindow ..

/-- A read moves the offset. -/
theorem rxAdvance_works (n : Nat) : Works h w (rxAdvance w i n) := by
  refine .one (.read _ i n) ?_
  rw [rxAdvance, yard_setBay]
  congr 1
  show _ = (bay (w.sockets i)).read n
  unfold Bay.read bay
  split <;> rename_i hrx <;> simp [hrx]

/-- A packet that is read to the end leaves. -/
theorem rxUnlink_works : Works h w (rxUnlink w i) := by
  rcases hrx : (w.sockets i).rx with _ | ⟨pkt, rest⟩
  · refine .of_eq ?_
    rw [rxUnlink, yard_same]
    simp [hrx]
  · by_cases hp : pkt.offset ≥ pkt.p.length
    · refine .one (.unlink _ i) ?_
      rw [rxUnlink, yard_setBay]
      congr 1
      simp [hrx, hp, yard, bay, Bay.unlink]
    · refine .of_eq ?_
      rw [rxUnlink, yard_same]
      simp [hrx, hp]

/-- A read with its window update. -/
theorem rxConsume_works (n : Nat) : Works h w (rxConsume w i n) :=
  ((rxAdvance_works n).trans (.of_eq (yard_rxWindow n))).trans rxUnlink_works

/-! ## Accept queues -/

/-- The entries of a queue in the view. -/
theorem mem_queue {e : EntId} :
    (∃ x ∈ ((yard h w).bay i).queue, x.id = e) ↔ ∃ x ∈ (w.sockets i).acceptQ, x.id = e := by
  constructor
  · rintro ⟨x, hx, he⟩
    obtain ⟨y, hy, rfl⟩ := List.mem_map.mp hx
    exact ⟨y, hy, he⟩
  · rintro ⟨x, hx, he⟩
    exact ⟨plain x, List.mem_map_of_mem hx, he⟩

/-- A connection that waits is lost. -/
theorem tnAcceptQueueRemove_works (e : EntId) : Works h w (tnAcceptQueueRemove w i e) := by
  unfold tnAcceptQueueRemove
  split
  · rename_i hany
    have present : ∃ x ∈ ((yard h w).bay i).queue, x.id = e := by
      obtain ⟨x, hx, he⟩ := List.any_eq_true.mp hany
      exact mem_queue.mpr ⟨x, hx, by simpa using he⟩
    refine .one (.forget _ i e present) ?_
    rw [yard_setBay]
    congr 1
    simp only [yard, bay, Bay.forget, Bay.mk.injEq, and_true, true_and]
    rw [List.eraseP_map]
    rfl
  · exact .refl w

/-- An entry changes. -/
theorem modEntry_yard (e : EntId) (f g : TnAcceptEntry → TnAcceptEntry)
    (hf : ∀ x, plain (f x) = g (plain x)) :
    yard h (modEntry w i e f) = (yard h w).setBay i (((yard h w).bay i).modEntry e g) := by
  rw [modEntry, yard_setBay]
  congr 1
  simp only [yard, bay, Bay.modEntry, Bay.mk.injEq, and_true, true_and, List.map_map]
  refine List.map_congr_left fun x _ => ?_
  show plain (if x.id = e then f x else x) = if (plain x).id = e then g (plain x) else plain x
  by_cases hx : x.id = e
  · rw [if_pos hx, if_pos (show (plain x).id = e from hx), hf]
  · rw [if_neg hx, if_neg (show ¬ (plain x).id = e from hx)]

/-- An address that the allocator gives is not that of an entry. -/
theorem freshEntry_unused {e : EntId} (hf : freshEntry w e = true) : (yard [] w).Unused e := by
  refine ⟨fun k x hx => ?_, fun x hx => nomatch hx⟩
  obtain ⟨y, hy, rfl⟩ := List.mem_map.mp hx
  have free := List.all_eq_true.mp (List.all_eq_true.mp hf k (List.mem_finRange k)) y hy
  show y.id ≠ e
  simpa using free

/-- A connection is queued while the backlog has room. -/
theorem tnAcceptQueuePush_works (hb : (w.sockets i).acceptCount < (w.sockets i).listenBacklog) :
    Works [] w (tnAcceptQueuePush w i p).1 := by
  unfold tnAcceptQueuePush
  dsimp only
  split_ifs with hu hk
  · exact .refl w
  · have live : (w.sockets i).inUse = true := by simpa using hu
    have unused : (yard [] w).Unused w.ask.id := freshEntry_unused (by
      rw [Bool.and_eq_true] at hk
      exact hk.2)
    refine .one (.queue _ i w.ask.id p live hb unused) ?_
    rw [yard_tcpErr, yard_tcpRecv, yard_tcpArg, yard_setBay]
    show (yard [] w).setBay i _ = _
    congr 1
    show bay _ = (bay (w.sockets i)).enqueue i w.ask.id p
    have same : w.asked.sockets = w.sockets := rfl
    simp [same, bay, Bay.enqueue, plain]
  · exact .of_eq yard_asked

/-- The head entry leaves the queue and is in hand. -/
theorem tnAcceptQueuePopEntry_moves {ent : TnAcceptEntry} {rest : List TnAcceptEntry}
    (hq : (w.sockets i).acceptQ = ent :: rest) :
    Moves [.pop i] (yard h w) (yard (ent :: h) (tnAcceptQueuePopEntry w i)) := by
  refine .one (.pop _ i (plain ent) (rest.map plain) ?_) ?_
  · show (w.sockets i).acceptQ.map plain = _
    rw [hq, List.map_cons]
  · show yard (ent :: h) (w.modSlot i _) = _
    rw [yard_setBay]
    simp [yard, Yard.setBay, Yard.setHand, bay, Bay.pop]

/-- The head entries go one by one; the count follows at the end. -/
theorem yard_tnAcceptQueueDrain :
    yard h (tnAcceptQueueDrain w i) =
      (yard h w).setBay i { (yard h w).bay i with queue := [], acceptCount := 0 } := by
  have drop : ∀ w, ∃ q, yard h (dropHeadEntry w i) =
      (yard h w).setBay i { (yard h w).bay i with queue := q } := fun w => by
    unfold dropHeadEntry
    split
    · rename_i ent rest hq
      refine ⟨rest.map plain, ?_⟩
      rw [yard_tnAcceptEntryFree, yard_setBay]
      rfl
    · exact ⟨((yard h w).bay i).queue, (Yard.setBay_self _ i).symm⟩
  have drops : ∀ (l : List TnAcceptEntry) (w : World), ∃ q,
      yard h (l.foldl (fun w _ => dropHeadEntry w i) w) =
        (yard h w).setBay i { (yard h w).bay i with queue := q } := by
    intro l
    induction l with
    | nil => exact fun w => ⟨((yard h w).bay i).queue, (Yard.setBay_self _ i).symm⟩
    | cons ent l ih =>
      intro w
      obtain ⟨q, hq⟩ := drop w
      obtain ⟨q', hq'⟩ := ih (dropHeadEntry w i)
      refine ⟨q', ?_⟩
      rw [List.foldl_cons, hq', hq]
      simp
  have emptied : ∀ w : World, yard h (w.modSlot i fun s => { s with acceptQ := [], acceptCount := 0 })
      = (yard h w).setBay i { (yard h w).bay i with queue := [], acceptCount := 0 } := fun w =>
    yard_setBay i _
  obtain ⟨q, hq⟩ := drops (w.sockets i).acceptQ w
  rw [tnAcceptQueueDrain, emptied, hq]
  simp

/-! ## Memberships -/

/-- One record is looked at. -/
theorem yard_mcastLeaveAt (k : Fin 8) :
    yard h (mcastLeaveAt i w k) = (yard h w).setJoin k (leftBy i (w.mcastJoins k)) := by
  unfold mcastLeaveAt igmpLeavegroup leftBy
  dsimp only
  by_cases hr : (w.mcastJoins k).inUse ∧ (w.mcastJoins k).slot = i
  · rw [if_pos hr, if_pos hr]
    split <;> rfl
  · rw [if_neg hr, if_neg hr]
    simp [yard, Yard.setJoin]

/-- A group is left once. -/
theorem leftBy_leftBy (r : McastJoin) : leftBy i (leftBy i r) = leftBy i r := by
  unfold leftBy
  split <;> simp_all

/-- The records that are among `l` are looked at. -/
theorem joins_leaves (l : List (Fin 8)) :
    (yard h (l.foldl (mcastLeaveAt i) w)).bay = (yard h w).bay ∧
      (yard h (l.foldl (mcastLeaveAt i) w)).hand = (yard h w).hand ∧
      ∀ k, (yard h (l.foldl (mcastLeaveAt i) w)).joins k =
        if k ∈ l then leftBy i (w.mcastJoins k) else w.mcastJoins k := by
  induction l generalizing w with
  | nil => simp [yard]
  | cons k l ih =>
    have turn := yard_mcastLeaveAt (h := h) (w := w) (i := i) k
    obtain ⟨hb, hh, hj⟩ := ih (w := mcastLeaveAt i w k)
    refine ⟨hb.trans (by rw [turn]; rfl), hh.trans (by rw [turn]; rfl), fun k' => ?_⟩
    have record : (mcastLeaveAt i w k).mcastJoins k' =
        if k' = k then leftBy i (w.mcastJoins k) else w.mcastJoins k' := by
      show (yard h (mcastLeaveAt i w k)).joins k' = _
      rw [turn]
      simp only [Yard.setJoin, yard, Function.update_apply]
    rw [List.foldl_cons, hj k', record]
    by_cases hk : k' = k
    · subst hk
      simp [leftBy_leftBy]
    · simp [hk]

/-- A slot that is freed leaves its groups. -/
theorem yard_tnMcastLeaveAll : yard h (tnMcastLeaveAll w i) = (yard h w).leaveAll i := by
  obtain ⟨hb, hh, hj⟩ := joins_leaves (h := h) (w := w) (i := i) (List.finRange 8)
  unfold tnMcastLeaveAll
  generalize (List.finRange 8).foldl (mcastLeaveAt i) w = w' at hb hh hj
  unfold Yard.leaveAll
  rw [← hb, ← hh]
  have joins : (yard h w').joins = fun k => leftBy i ((yard h w).joins k) := by
    funext k
    rw [hj k, if_pos (List.mem_finRange k)]
    rfl
  rw [← joins]

/-! ## Slots -/

@[simp] theorem yard_freeUdp : yard h (freeUdp w i) = yard h w := by
  unfold freeUdp
  split <;> simp

@[simp] theorem yard_freeRaw : yard h (freeRaw w i) = yard h w := by
  unfold freeRaw
  split <;> simp

@[simp] theorem bay_leaveAll (y : Yard) : (y.leaveAll i).bay = y.bay := rfl

/-- A slot that is freed loses its memberships and its queues; the backlog stays behind. -/
theorem yard_tnSlotFree (hu : (w.sockets i).inUse = true) :
    yard h (tnSlotFree w i) = ((yard h w).leaveAll i).setBay i { backlog := ((yard h w).bay i).backlog } := by
  unfold tnSlotFree
  rw [if_pos hu]
  dsimp only
  rw [clearSlot, yard_setBay]
  have drained : ∀ w : World, yard h (tnRxQueueDrain w i) =
      (yard h w).setBay i { (yard h w).bay i with rx := [], rxCount := 0 } := fun w => yard_setBay i _
  generalize hw1 : tnSlotReplySend _ i .ebadf true = w1
  have view : yard h w1 = ((yard h w).leaveAll i).setBay i
      { (yard h w).bay i with rx := [], rxCount := 0, queue := [], acceptCount := 0 } := by
    rw [← hw1, yard_tnSlotReplySend, yard_replyPending, yard_replyPending, yard_replyPending,
      yard_tnAcceptQueueDrain, drained, yard_freeRaw, yard_freeTcp, yard_freeUdp,
      yard_tnMcastLeaveAll]
    simp
  have slot : bay (w1.sockets i) =
      { (yard h w).bay i with rx := [], rxCount := 0, queue := [], acceptCount := 0 } := by
    have at_i := congrArg (fun y => y.bay i) view
    rw [Yard.bay_setBay] at at_i
    exact at_i
  rw [view, Yard.setBay_setBay]
  congr 1
  simp only [bay, Bay.mk.injEq] at slot
  simp [bay, slot]

/-- A slot that is freed is empty. -/
theorem tnSlotFree_works : Works h w (tnSlotFree w i) := by
  by_cases hu : (w.sockets i).inUse = true
  · exact .one (.free _ i hu) (yard_tnSlotFree hu)
  · refine .of_eq ?_
    unfold tnSlotFree
    rw [if_neg hu]

/-- A slot that is not in use is allocated. -/
theorem tnSlotAlloc_works (base : Option BaseId) (task : TaskId) (domain type protocol : Int)
    (hf : (w.sockets j).inUse = false) : Works h w (tnSlotAlloc w j base task domain type protocol) :=
  .one (.alloc _ j hf) (yard_setBay j _)

@[simp] theorem yard_newUdp : yard h (newUdp w i).1 = yard h w := by
  unfold newUdp
  split
  · dsimp only
    simp
  · exact yard_asked

@[simp] theorem yard_newRaw (protocol : Int) : yard h (newRaw w i protocol).1 = yard h w := by
  unfold newRaw
  split
  · dsimp only
    simp
  · exact yard_asked

end Queues

end Tolunnet
