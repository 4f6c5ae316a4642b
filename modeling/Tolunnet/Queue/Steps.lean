import Tolunnet.Queue.Slots
import Tolunnet.Refine.Requests

/-!
# `Tolunnet.Queue.Steps`: every step

The operations on queues, slots and memberships as `Works`, and with them every step of the daemon:
what it does to the yard is a list of moves. The accept callback, and with it a burst of lwIP's
actions, works while no entry is in hand.
-/

set_option autoImplicit false

namespace Tolunnet

namespace Queues

open World

variable {h : List TnAcceptEntry} {w : World} {i : SlotIdx} {p : PcbId} {m : MsgId}

theorem Works.done {w' : World} (hw : Works h w w') (r : Int) (e : Errno) :
    Works h w (done w' m r e).1 := hw.trans (.of_eq rfl)

theorem Works.fail {w' : World} (hw : Works h w w') (e : Errno) : Works h w (fail w' m e).1 :=
  hw.done (-1) e

/-! ## Operations -/

@[simp] theorem yard_tnRecordSocketEvent (e : Nat) :
    yard h (tnRecordSocketEvent w i e) = yard h w := by
  unfold tnRecordSocketEvent
  dsimp only
  split
  · split
    · rfl
    · split
      · generalize hw1 : out (w.modBase _ _) _ = w1
        have recorded : yard h w1 = yard h w := by
          rw [← hw1]
          simp
        split
        · simpa using recorded
        · exact recorded
      · simp
  · rfl

/-- An entry that is found is in a queue. -/
theorem findEntry_present {e : EntId} {k : SlotIdx} {ent : TnAcceptEntry}
    (hf : findEntry w e = some (k, ent)) : ∃ x ∈ ((yard h w).bay k).queue, x.id = e := by
  obtain ⟨k', -, hk⟩ := List.exists_of_findSome?_eq_some hf
  obtain ⟨x, hx, he⟩ := Option.map_eq_some_iff.mp hk
  obtain ⟨rfl, rfl⟩ := Prod.mk.inj he
  exact mem_queue.mpr ⟨x, List.mem_of_find?_eq_some hx, by simpa using List.find?_some hx⟩

/-- The operations on queues and slots are moves of the yard. -/
theorem works_routine : Routine (fun _ _ => True) (Works []) where
  toDeaf := (yard_deaf []).mono .refl Works.trans .of_eq
  rest w w' he := by
    simp only [World.shown, Prod.mk.injEq] at he
    obtain ⟨hs, -, -, -, hj, -⟩ := he
    exact .of_eq (by rw [yard, yard, hs, hj])
  prefs _ _ := .of_eq rfl
  grow w n := .of_eq (by unfold tnSelectorTableGrow; split_ifs <;> rfl)
  event _ i e := .of_eq (yard_tnRecordSocketEvent e)
  fits _ _ _ _ := trivial
  udp _ _ _ _ _ _ _ hw := hw trivial
  raw _ _ _ _ _ _ _ hw := hw trivial
  push _ _ seg ip port capped _ := tnRxQueuePushEx_works seg ip port capped
  consume _ _ n _ := rxConsume_works n
  skip _ _ n _ := (rxAdvance_works n).trans rxUnlink_works
  pop _ _ := rxPop_works
  drain _ _ := tnRxQueueDrain_works
  fin _ e k _ hf := .one (.fin _ k e (findEntry_present hf)) (modEntry_yard e _ setFin fun _ => rfl)
  early _ e k _ seg hf _ _ := .one (.early _ k e { p := seg } (findEntry_present hf))
    (modEntry_yard e _ (addEarly { p := seg }) fun _ => rfl)
  remove _ _ e := tnAcceptQueueRemove_works e
  free _ _ := tnSlotFree_works
  parked w i f hf _ _ := by
    simp only [TnSocketSlot.shown, Prod.mk.injEq] at hf
    obtain ⟨hu, -, -, -, ⟨hr, hrc⟩, ⟨ha, hac, hb⟩, -, -⟩ := hf
    exact .of_eq (yard_assign i f hu hr hrc ha hac hb)

theorem works_stock : Stock (fun _ _ => True) (Works []) := Routine.toStock works_routine

theorem works_callbacks : Callbacks (fun _ _ => True) (Works []) := Routine.callbacks works_routine

/-! ## Accepting -/

/-- The connection in hand and its early data go to a slot that has no packets. -/
theorem takeEntry_moves {j : SlotIdx} {ent : TnAcceptEntry} (hr : (w.sockets j).rx = []) :
    Moves [.hand j] (yard [ent] w) (yard [] (takeEntry w m i j ent)) := by
  refine .one (.hand _ j (plain ent) [] rfl hr) ?_
  have taken : ∀ st, yard [] (w.modSlot j fun s =>
      { s with tcpState := st, tcpPcb := ent.newPcb, rx := ent.earlyRx,
               rxCount := ent.earlyRxCount, hist := ent.hist }) =
      ((yard [ent] w).setBay j (((yard [ent] w).bay j).take (plain ent))).setHand [] := fun st =>
    yard_setBay j _
  unfold takeEntry
  dsimp only
  split
  · rw [(yard_numb []).adoptPcb, taken]
  · exact taken _

@[simp] theorem yard_recordAccepted (j : SlotIdx) :
    yard [] (recordAccepted w j) = yard [] w := by
  unfold recordAccepted
  dsimp only
  split_ifs <;> simp

/-- The head entry is taken out of the queue; its connection goes to a new slot or is aborted. -/
theorem acceptQueued_works {ent : TnAcceptEntry} {rest : List TnAcceptEntry}
    (hq : (w.sockets i).acceptQ = ent :: rest) : Works [] w (acceptQueued w m i ent).1 := by
  have popped : Moves [.pop i] (yard [] w) (yard [ent] (tnAcceptQueuePopEntry w i)) :=
    tnAcceptQueuePopEntry_moves hq
  unfold acceptQueued
  dsimp only
  generalize tnAcceptQueuePopEntry w i = w1 at popped ⊢
  have aborted : ∀ w' : World, Moves [.abort] (yard [ent] w') (yard [] (tnAcceptEntryFree w' ent)) :=
    fun w' => .one (.abort _ (plain ent) [] rfl) (yard_tnAcceptEntryFree ent)
  split
  · exact .fail ⟨_, popped.append (aborted w1)⟩ _
  · rename_i j hj
    obtain ⟨l, alloc⟩ := tnSlotAlloc_works (h := [ent]) (w.msgs m).socketBase (w.msgs m).clientTask
      afInet sockStream 0 (freeSlot?_some hj)
    generalize hw2 : tnSlotAlloc w1 j _ _ _ _ _ = w2 at alloc ⊢
    split
    · obtain ⟨l', freed⟩ := tnSlotFree_works (h := [ent]) (w := w2) (i := j)
      exact .fail ⟨_, ((popped.append alloc).append freed).append (aborted _)⟩ _
    · rename_i fd hfd
      have empty : ((w2.setFd ((w.msgs m).socketBase.getD 0) fd (some j)).sockets j).rx = [] := by
        rw [← hw2]
        simp [tnSlotAlloc, setFd, modBase, modSlot, tnInitSocketSlot]
      have taken := @takeEntry_moves _ i m j ent empty
      rw [← yard_recordAccepted (w := takeEntry _ m i j ent) j] at taken
      exact .done ⟨_, (popped.append alloc).append taken⟩ _ _

/-! ## Memberships -/

/-- A free record gets a membership of a slot that is in use. -/
theorem addMembership_works (grp ifa : Nat) (hl : (w.sockets i).inUse = true) :
    Leaves (Works []) w (addMembership w i grp ifa) := by
  unfold addMembership igmpJoingroup
  split
  · exact Broad.leaves_error (.of_eq rfl) _
  · rename_i k hk
    have free : (w.mcastJoins k).inUse = false := by simpa using List.find?_some hk
    by_cases ha : w.ask.err = .ok
    · rw [if_pos ha]
      refine ⟨.refl w, fun w' h => ?_⟩
      cases h
      exact .one (.join _ k { inUse := true, slot := i, grp := grp, ifa := ifa } free rfl hl) rfl
    · rw [if_neg ha]
      split
      · rename_i heq
        exact absurd (Prod.mk.inj heq).2 ha
      · rename_i heq
        obtain ⟨rfl, -⟩ := Prod.mk.inj heq
        exact Broad.leaves_error (.of_eq rfl) _

/-- A leave moves no packet. -/
theorem dropMembership_works (grp ifa : Nat) : Leaves (Works []) w (dropMembership w i grp ifa) := by
  unfold dropMembership igmpLeavegroup
  by_cases ha : 0 < w.igmpUse (ifa, grp) ∨ w.ask.err = .ok
  · rw [if_pos ha]
    dsimp only
    split
    · rename_i k _
      refine ⟨.refl w, fun w' h => ?_⟩
      cases h
      exact .one (.leave _ k) rfl
    · exact ⟨.refl w, fun _ h => by cases h; exact .of_eq rfl⟩
  · rw [if_neg ha]
    split
    · rename_i heq
      exact absurd (Or.inr (Prod.mk.inj heq).2) ha
    · rename_i heq
      obtain ⟨rfl, -⟩ := Prod.mk.inj heq
      exact Broad.leaves_error (.of_eq rfl) _

/-! ## New sockets -/

/-- What a new socket and its descriptor are to the queues. -/
theorem works_broad : Broad (fun _ _ => True) (Works []) where
  toRoutine := works_routine
  setPcb _ p c := .of_eq (yard_setPcb p c)
  onUdp _ p f _ := .of_eq (yard_onUdp p f)
  onRaw _ p f _ := .of_eq (yard_onRaw p f)
  modSlot w i f hf := .of_eq ((yard_numb []).modSlot w i f hf)
  alloc _ _ b t domain type protocol hf := tnSlotAlloc_works b t domain type protocol (freeSlot?_some hf)
  place _ b fd i _ _ := .of_eq (yard_setFd b fd (some i))
  backlog w i f hf := by
    simp only [TnSocketSlot.shown, Prod.mk.injEq] at hf
    obtain ⟨hu, -, -, -, ⟨hr, hrc⟩, ⟨ha, hac, -⟩, -, -⟩ := hf
    refine .one (.backlog _ i (f (w.sockets i)).listenBacklog) ((yard_setBay i f).trans ?_)
    simp only [bay, yard, hu, hr, hrc, ha, hac]
  enqueue _ _ _ room := tnAcceptQueuePush_works room
  accepted _ _ _ _ _ hq := acceptQueued_works hq
  joined _ _ grp ifa hl := addMembership_works grp ifa hl
  left _ _ grp ifa := dropMembership_works grp ifa

theorem works_wide : Wide (fun _ _ => True) (Works []) := Broad.wide works_broad

/-- Descriptors are no queues. -/
theorem works_loose : Loose (fun _ _ => True) (Works []) where
  toRoutine := works_routine
  setFd _ b fd x := .of_eq (yard_setFd b fd x)
  bases _ _ _ _ := .of_eq rfl

/-- A new pcb. -/
theorem newPcb_works (type protocol : Int) : Works [] w (newPcb w i type protocol).1 := by
  unfold newPcb
  split
  · exact .of_eq yard_newUdp
  · split
    · exact Wide.newTcp works_wide
    · exact .of_eq (yard_newRaw protocol)

/-- `SOCKET` makes an empty slot. -/
theorem tnIpcCmdSocket_works : Works [] w (tnIpcCmdSocket w m).1 := by
  unfold tnIpcCmdSocket
  dsimp only
  split
  · exact .fail (.refl w) _
  · split
    · exact .fail (.refl w) _
    · rename_i b _
      split
      · exact .fail (.refl w) _
      · split
        · exact .fail (.refl w) _
        · rename_i i hi
          have alloc : Works [] w _ := tnSlotAlloc_works (some b) (w.msgs m).clientTask
            ((w.msgs m).args 0) ((w.msgs m).args 1) ((w.msgs m).args 2) (freeSlot?_some hi)
          generalize tnSlotAlloc w i _ _ _ _ _ = w1 at alloc ⊢
          have made := alloc.trans
            (newPcb_works (i := i) ((w.msgs m).args 1) ((w.msgs m).args 2))
          split
          · rename_i heq
            exact .fail ((of_pair heq made).trans tnSlotFree_works) _
          · rename_i w2 fd heq
            have placed := of_pair heq made
            split
            · exact .done (placed.trans (.of_eq (by simp))) _ _
            · exact .done (placed.trans (.of_eq (by simp))) _ _

/-! ## Steps -/

/-- A handler that needs a descriptor gets a slot that is in use. -/
theorem handler_works (slot : Option SlotIdx)
    (hl : ∀ i, slot = some i → (w.sockets i).inUse = true) : Works [] w (handler w m slot).1 := by
  unfold handler
  split
  · exact Loose.tnIpcCmdOpen works_loose
  · exact Loose.tnIpcCmdClose works_loose
  · exact tnIpcCmdSocket_works
  · exact Broad.tnIpcCmdBind works_broad slot
  · exact Broad.tnIpcCmdListen works_broad slot
  · exact Broad.tnIpcCmdAccept works_broad slot
  · exact Broad.tnIpcCmdConnect works_broad slot
  · exact Broad.tnIpcCmdSendto works_broad slot
  · exact Broad.tnIpcCmdSend works_broad slot
  · exact Routine.tnIpcCmdRecvfrom works_routine slot
  · exact Routine.tnIpcCmdRecv works_routine slot
  · exact Callbacks.tnIpcCmdShutdown works_callbacks slot
  · exact Broad.tnIpcCmdSetsockopt works_broad slot hl
  · exact Stock.tnIpcCmdGetsockopt works_stock slot
  · exact Stock.tnIpcCmdGetsockname works_stock slot
  · exact Stock.tnIpcCmdGetpeername works_stock slot
  · exact Stock.tnIpcCmdIoctl works_stock slot
  · exact Loose.tnIpcCmdClosesocket works_loose slot
  · exact Routine.tnIpcCmdGethostbyname works_routine
  · exact Stock.tnIpcCmdWaitselect works_stock
  · exact Loose.tnIpcCmdDup2 works_loose slot
  · exact Stock.tnIpcCmdReconfig works_stock
  · exact Stock.tnIpcCmdEnumsockets works_stock
  · exact Broad.tnIpcCmdSendmsg works_broad slot
  · exact Routine.tnIpcCmdRecvmsg works_routine slot
  · exact Loose.tnIpcCmdReleasesocket works_loose slot
  · exact Routine.tnIpcCmdObtainsocket works_routine fun b fd _ _ _ => .of_eq (yard_setFd b fd _)
  · exact Stock.tnIpcCmdSelectArm works_stock
  · exact Stock.tnIpcCmdSelectDisarm works_stock
  · exact Stock.replyByAnswer works_stock
  · exact Stock.replyByAnswer works_stock
  · exact Stock.replyByAnswer works_stock
  · exact Callbacks.tnIpcCmdIfctl works_callbacks
  · exact Loose.tnIpcCmdStop works_loose
  · exact Routine.tnIpcCmdCancel works_routine
  · exact Stock.tnIpcCmdSyslog works_stock
  · exact .fail (.refl w) _
  · exact .fail (.refl w) _

/-- Every message. -/
theorem tnHandleIpc_works : Works [] w (tnHandleIpc w m).1 := by
  unfold tnHandleIpc
  dsimp only
  refine Works.trans (.of_eq (yard_setReply m 0 .ok)) ?_
  generalize w.setReply m 0 .ok = w1
  split
  · exact .fail (.refl w1) _
  · split
    · exact .fail (.refl w1) _
    · split
      · split
        · exact .fail (.refl w1) _
        · rename_i i hl
          refine handler_works (some i) fun j hj => ?_
          cases hj
          exact tnSlotLookup_inUse hl
      · exact handler_works none fun _ h => by cases h

theorem handleMsg_works : Works [] w (handleMsg w m) := by
  unfold handleMsg
  have handled : Works [] w (tnHandleIpc w m).1 := tnHandleIpc_works
  split
  · rename_i heq
    exact (of_pair heq handled).trans (.of_eq (yard_replyMsg m))
  · rename_i heq
    exact of_pair heq handled

/-- The tick. -/
theorem timerTick_works (evs : List LwipEv) : Works [] w (timerTick w evs) := by
  unfold timerTick
  have ticked : Works [] w { w with mainloopTicks := (w.mainloopTicks + 1) % 2 ^ 32 } := .of_eq rfl
  exact (ticked.trans (Wide.runEvs works_wide evs)).trans (Replies.tnSlotCheckRecvTimeouts (Callbacks.toReplies works_callbacks))

theorem yard_env (env : List Answer) : yard [] ({ w with env := env } : World) = yard [] w := rfl

/-- Every step of the daemon, and of its clients. -/
theorem step_works (inp : Input) : Works [] w (step w inp) := by
  cases inp with
  | client c => cases c <;> exact .of_eq rfl
  | lwip evs env => exact Works.trans (.of_eq (yard_env env)) (Wide.runEvs works_wide evs)
  | tick evs env => exact Works.trans (.of_eq (yard_env env)) (timerTick_works evs)
  | ctrlC env => exact Works.trans (.of_eq (yard_env env)) (Loose.ctrlC works_loose)
  | shutdown env => exact Works.trans (.of_eq (yard_env env)) (Loose.shutdownAttempt works_loose)
  | ipc m x env =>
    have arrived : Works [] w ({ receive w m x with env := env } : World) := .of_eq rfl
    exact arrived.trans handleMsg_works

end Queues

end Tolunnet
