import Tolunnet.Refine.Callbacks
import Tolunnet.Refine.Requests
import Tolunnet.Shelf.Queues

/-!
# `Tolunnet.Shelf.Tables`: descriptor tables

What the recording of an event, a new socket and an accepted connection do to the descriptor tables.
With these every callback is `Tame` and every handler that gives up no descriptor: it keeps the queues
in order, and what it does to a table is to record events and to give a free descriptor to a socket.
-/

set_option autoImplicit false

namespace Tolunnet

open World

variable {w : World} {i : SlotIdx} {p : PcbId} {m : MsgId}

/-- A result is tame. -/
theorem Tame.done {w' : World} (hw : Tame w w') (v : Int) (e : Errno) : Tame w (done w' m v e).1 :=
  hw.trans (.of_eq rfl)

/-- A refusal is tame. -/
theorem Tame.fail {w' : World} (hw : Tame w w') (e : Errno) : Tame w (fail w' m e).1 :=
  hw.done (-1) e

/-! ## Tables -/

/-- The queues do not depend on the tables. -/
theorem Shelf.Ok.congr {d d' : Shelf} (h : d.Ok) (hs : d'.slot = d.slot) (hu : d'.udpArg = d.udpArg)
    (hr : d'.rawArg = d.rawArg) (hb : d'.bases = d.bases) (ht : d'.seats = d.seats) : d'.Ok where
  slot := fun i => by
    rw [hs]
    exact h.slot i
  udp := fun p i => by
    rw [hs, hu]
    exact h.udp p i
  raw := fun p i => by
    rw [hs, hr]
    exact h.raw p i
  unique := by
    rw [hb]
    exact h.unique
  seats := ht.trans h.seats

/-- A table that no event is recorded for. -/
theorem Table.Grows.other {l : List Post} {b : BaseId} (t : Table)
    (hl : ∀ i k, recorded l b i k = false) : Table.Grows l b t t where
  masks := rfl
  size := rfl
  kept := fun fd i h => ⟨h, fun k => by simp [hl]⟩
  free := fun fd h => .inl ⟨h, rfl⟩
  fits := fun _ h h' => absurd h h'

/-- The recording statement. -/
theorem recordEvent_grows (b : BaseId) (i : SlotIdx) (mask : Nat) (t : Table) :
    Table.Grows [{ base := b, slot := i, mask := mask }] b t
      { t with events := fun fd =>
          if fd < t.size ∧ t.fdMap fd = some i then t.events fd ||| mask &&& t.masks fd
          else t.events fd } where
  masks := rfl
  size := rfl
  kept := by
    intro fd j hj
    refine ⟨hj, fun k => ?_⟩
    simp only [recorded, List.any_cons, List.any_nil, Bool.or_false, BEq.rfl, Bool.true_and, hj]
    by_cases hij : i = j
    · subst hij
      by_cases hfd : fd < t.size
      · simp [hfd, Bool.and_comm]
      · simp [hfd]
    · have hji : ¬ j = i := fun h => hij h.symm
      simp [hij, hji]
  free := by
    intro fd hn
    exact .inl ⟨hn, by simp [hn]⟩
  fits := fun _ h h' => absurd h h'

/-- An event is recorded. -/
theorem tnRecordSocketEvent_tame (e : Nat) : Tame w (tnRecordSocketEvent w i e) := by
  unfold tnRecordSocketEvent
  dsimp only
  split
  · split
    · exact .refl w
    · rename_i b _
      split
      · generalize hw1 : out (w.modBase b _) _ = w1
        have recorded : Tame w w1 := by
          refine ⟨fun hok => ?_⟩
          rw [← hw1]
          refine ⟨hok.congr rfl rfl rfl rfl rfl, rfl, [{ base := b, slot := i, mask := e }], rfl, fun c => ?_⟩
          by_cases hc : c = b
          · subst hc
            simp only [shelf, modBase, out, Function.update_self]
            exact recordEvent_grows c i e ((shelf w).table c)
          · simp only [shelf, modBase, out, Function.update_of_ne hc]
            exact .other _ fun j k => by simp [Tolunnet.recorded, Ne.symm hc]
        split
        · exact recorded.trans (.of_eq (Mute.signal shelf_mute ..))
        · exact recorded
      · exact .of_eq (by simp)
  · exact .refl w

/-- A free descriptor gets a socket. -/
theorem setFd_tame {b : BaseId} {fd : Nat}
    (hf : (w.bases b).fdMap fd = none ∧ fd < (w.bases b).dtablesize) (j : SlotIdx) :
    Tame w (w.setFd b fd (some j)) := by
  refine ⟨fun hok => ⟨hok.congr rfl rfl rfl rfl rfl, rfl, [], rfl, fun c => ?_⟩⟩
  by_cases hc : c = b
  · subst hc
    have table : (shelf (w.setFd c fd (some j))).table c =
        { (shelf w).table c with fdMap := Function.update (w.bases c).fdMap fd (some j) } := by
      simp [shelf, setFd, modBase, TnSocketBase.onShelf]
    rw [table]
    constructor
    · rfl
    · rfl
    · intro fd' i hi
      have hne : fd' ≠ fd := by
        rintro rfl
        exact absurd (hi.symm.trans hf.1) (by simp)
      exact ⟨(Function.update_of_ne hne _ _).trans hi, fun k => by simp⟩
    · intro fd' hn
      by_cases hne : fd' = fd
      · subst hne
        exact .inr ⟨j, by simp, fun k hk => .inl hk⟩
      · exact .inl ⟨(Function.update_of_ne hne _ _).trans hn, rfl⟩
    · intro fd' hn hs
      by_cases hne : fd' = fd
      · exact hne ▸ hf.2
      · exact absurd ((Function.update_of_ne hne _ _).trans hn) hs
  · have table : (shelf (w.setFd b fd (some j))).table c = (shelf w).table c := by
      simp [shelf, setFd, modBase, hc]
    rw [table]
    exact .refl c _

/-- `pickFd?` finds a free descriptor. -/
theorem pickFd?_some {base : TnSocketBase} {pref : Int} {fd : Nat} (h : pickFd? base pref = some fd) :
    base.fdMap fd = none ∧ fd < base.dtablesize := by
  unfold pickFd? at h
  split at h
  · rename_i hp
    obtain rfl := Option.some.inj h
    exact ⟨hp.2.2, by omega⟩
  · have found := List.find?_some h
    have mem := List.mem_of_find?_eq_some h
    simp only [Option.isNone_iff_eq_none, List.mem_range] at found mem
    exact ⟨found, mem⟩

/-- A selector table that is there stays there. -/
theorem tnSelectorTableGrow_tame (n : Nat) : Tame w (tnSelectorTableGrow w n) := by
  refine .of_ok fun hok => ?_
  have there : w.selectors ≠ [] := by
    have seats : (!w.selectors.isEmpty) = true := hok.seats
    simpa using seats
  unfold tnSelectorTableGrow
  split
  · exact .refl w
  · split
    · refine .of_eq ?_
      unfold shelf
      dsimp only
      congr 1
      obtain ⟨s, l, hs⟩ := List.exists_cons_of_ne_nil there
      rename_i hn _
      obtain ⟨k, hk⟩ : ∃ k, min n 128 = k + 1 :=
        ⟨min n 128 - 1, by have : n ≠ 0 := (fun h => by simp [h] at hn); omega⟩
      simp [hs, hk]
    · exact .of_eq shelf_asked

/-! ## Callbacks and readers -/

/-- What may enter a receive queue: a segment that fits, and for a stream no empty one. -/
def Segment (kind : Int) (seg : List UInt8) : Prop :=
  seg.length ≤ 0xFFFF ∧ (kind = sockStream → seg ≠ [])

/-- The operations on queues, event words and the selector table. A datagram can be empty, and its
pcb is that of a slot that is no stream. -/
theorem tame_routine : Routine Segment Tame where
  toDeaf := Deaf.mono .refl Tame.trans .of_eq shelf_deaf
  rest w w' he := by
    simp only [World.shown, Prod.mk.injEq] at he
    obtain ⟨hs, -, hu, hr, -, hb, ho, hl, hp⟩ := he
    exact .of_eq (by simp only [shelf, posts, hs, hu, hr, hb, ho, hl, hp])
  prefs _ _ := .of_eq rfl
  grow _ n := tnSelectorTableGrow_tame n
  event _ _ e := tnRecordSocketEvent_tame e
  fits _ _ hs hl := ⟨hl, fun _ => hs⟩
  udp w _ p c seg hc hl hw := .of_ok fun hok =>
    hw ⟨hl, fun hk => absurd hk (hok.udp p c.arg (by simp [shelf, hc])).2.2⟩
  raw w _ p c seg hc hl hw := .of_ok fun hok =>
    hw ⟨hl, fun hk => absurd hk (hok.raw p c.arg (by simp [shelf, hc])).2.2⟩
  push _ _ _ ip port capped hf := (tnRxQueuePushEx_still ip port capped hf.1 hf.2).tame
  consume _ _ n hk := (rxConsume_still n hk).tame
  skip _ _ n hk := (rxRead_still n hk rfl).tame
  pop _ _ := rxPop_still.tame
  drain _ _ := tnRxQueueDrain_still.tame
  fin _ e _ _ _ := by
    refine (modEntry_still e _ fun _ h => ?_).tame
    exact ⟨h.count, h.fits, h.fresh⟩
  early _ e _ _ seg _ hs hl := by
    refine (modEntry_still e _ fun ent h => ⟨?_, ?_, ?_⟩).tame
    · simpa [TnAcceptEntry.onShelf] using h.count
    · intro pkt hp
      rcases List.mem_append.mp hp with hp | hp
      · exact h.fits pkt hp
      · rw [List.mem_singleton.mp hp]
        exact hl
    · intro pkt hp
      rcases List.mem_append.mp hp with hp | hp
      · exact h.fresh pkt hp
      · rw [List.mem_singleton.mp hp]
        exact ⟨rfl, hs⟩
  remove _ _ e := (tnAcceptQueueRemove_still e).tame
  free _ _ := tnSlotFree_still.tame
  parked w i f hf _ _ := by
    simp only [TnSocketSlot.shown, Prod.mk.injEq] at hf
    obtain ⟨hu, ht, -, -, ⟨hr, hrc⟩, ⟨ha, hac, -⟩, hup, hrp⟩ := hf
    exact .of_eq (shelf_assign i f hu ht hr hrc ha hac hup hrp)

/-- Operations on queues and events are tame. -/
theorem tame_stock : Stock Segment Tame := Routine.toStock tame_routine

/-- Callbacks are tame. -/
theorem tame_callbacks : Callbacks Segment Tame := Routine.callbacks tame_routine

/-! ## Accepting -/

/-- The early data of an entry becomes the queue of the new stream. -/
theorem takeEntry_tame {j : SlotIdx} {ent : TnAcceptEntry} (hk : (w.sockets j).type = sockStream)
    (he : EarlyOk ent.onShelf) : Tame w (takeEntry w m i j ent) := by
  have taken : ∀ st, Still w (w.modSlot j fun s =>
      { s with tcpState := st, tcpPcb := ent.newPcb, rx := ent.earlyRx,
               rxCount := ent.earlyRxCount, hist := ent.hist }) := fun st =>
    .queue _ rfl rfl rfl rfl fun hok =>
      ⟨by
        show RxOk (w.sockets j).type ent.earlyRx
        rw [hk]
        exact he.rxOk, he.count, hok.early, hok.acceptCount⟩
  unfold takeEntry
  dsimp only
  split
  · exact (taken _).tame.trans (.of_eq (shelf_adoptPcb m i j _))
  · exact (taken _).tame

/-- An accepted connection is recorded. -/
theorem recordAccepted_tame (j : SlotIdx) : Tame w (recordAccepted w j) := by
  unfold recordAccepted
  dsimp only
  have written : Tame w (tnRecordSocketEvent w j fdWrite) := tnRecordSocketEvent_tame _
  split_ifs
  · exact (written.trans (tnRecordSocketEvent_tame _)).trans (tnRecordSocketEvent_tame _)
  · exact written.trans (tnRecordSocketEvent_tame _)
  · exact written

/-- A queued connection is accepted. -/
theorem acceptQueued_tame (ent : TnAcceptEntry) (he : ent ∈ (w.sockets i).acceptQ) :
    Tame w (acceptQueued w m i ent).1 := by
  refine .of_ok fun hok => ?_
  have early : EarlyOk ent.onShelf := (hok.slot i).early _ (List.mem_map_of_mem he)
  unfold acceptQueued
  dsimp only
  refine Tame.trans (tnAcceptQueuePopEntry_still (i := i)).tame ?_
  generalize tnAcceptQueuePopEntry w i = w1
  split
  · exact .fail (.of_eq (shelf_tnAcceptEntryFree ent)) _
  · rename_i j hj
    refine Tame.trans (tnSlotAlloc_still (w.msgs m).socketBase (w.msgs m).clientTask afInet
      sockStream 0 (freeSlot?_some hj)).tame ?_
    generalize hw2 : tnSlotAlloc w1 j _ _ _ _ _ = w2
    have kind : (w2.sockets j).type = sockStream := by
      rw [← hw2]
      simp [tnSlotAlloc, modSlot, tnInitSocketSlot]
    split
    · exact .fail ((tnSlotFree_still (i := j)).tame.trans (.of_eq (by simp))) _
    · rename_i fd hfd
      exact .done (((setFd_tame (pickFd?_some hfd) j).trans
        (takeEntry_tame (w := w2.setFd _ fd (some j)) kind early)).trans (recordAccepted_tame j)) _ _

/-! ## Memberships -/

/-- Memberships are in no queue and in no table. -/
theorem addMembership_tame (grp ifa : Nat) : Leaves Tame w (addMembership w i grp ifa) := by
  unfold addMembership igmpJoingroup
  split
  · exact Broad.leaves_error (.of_eq rfl) _
  · by_cases ha : w.ask.err = .ok
    · rw [if_pos ha]
      exact ⟨.of_eq rfl, fun _ h => by cases h; exact .of_eq rfl⟩
    · rw [if_neg ha]
      split
      · rename_i heq
        exact absurd (Prod.mk.inj heq).2 ha
      · rename_i heq
        obtain ⟨rfl, -⟩ := Prod.mk.inj heq
        exact Broad.leaves_error (.of_eq rfl) _

/-- A membership is dropped. -/
theorem dropMembership_tame (grp ifa : Nat) : Leaves Tame w (dropMembership w i grp ifa) := by
  unfold dropMembership igmpLeavegroup
  by_cases ha : 0 < w.igmpUse (ifa, grp) ∨ w.ask.err = .ok
  · rw [if_pos ha]
    dsimp only
    split <;> exact ⟨.of_eq rfl, fun _ h => by cases h; exact .of_eq rfl⟩
  · rw [if_neg ha]
    split
    · rename_i heq
      exact absurd (Or.inr (Prod.mk.inj heq).2) ha
    · rename_i heq
      obtain ⟨rfl, -⟩ := Prod.mk.inj heq
      exact Broad.leaves_error (.of_eq rfl) _

/-! ## New sockets -/

/-- Handlers are tame. -/
theorem tame_broad : Broad Segment Tame where
  toRoutine := tame_routine
  setPcb _ _ _ := .of_eq rfl
  onUdp _ p f hf := .of_eq (shelf_onUdp p f hf)
  onRaw _ p f hf := .of_eq (shelf_onRaw p f hf)
  modSlot _ i f hf := .of_eq (shelf_shown i f hf)
  alloc _ _ b t domain type protocol hf :=
    (tnSlotAlloc_still b t domain type protocol (freeSlot?_some hf)).tame
  place _ _ _ i _ hf := setFd_tame (pickFd?_some hf) i
  backlog w i f hf := by
    simp only [TnSocketSlot.shown, Prod.mk.injEq] at hf
    obtain ⟨hu, ht, -, -, ⟨hr, hrc⟩, ⟨ha, hac, -⟩, hup, hrp⟩ := hf
    exact .of_eq (shelf_assign i f hu ht hr hrc ha hac hup hrp)
  enqueue _ _ _ _ := tnAcceptQueuePush_still.tame
  accepted _ _ _ ent _ hq := acceptQueued_tame ent (by rw [hq]; exact List.mem_cons_self ..)
  joined _ _ grp ifa _ := addMembership_tame grp ifa
  left _ _ grp ifa := dropMembership_tame grp ifa

/-- lwIP's actions are tame. -/
theorem tame_wide : Wide Segment Tame := Broad.wide tame_broad

/-- A view shows the descriptor tables. -/
theorem fdMap_of_shelf {w' : World} (h : shelf w' = shelf w) (b : BaseId) :
    (w'.bases b).fdMap = (w.bases b).fdMap :=
  congrArg (fun d => (d.table b).fdMap) h

/-- A connection that lwIP aborts moves no descriptor. -/
theorem fdMap_runErrs (evs : List LwipEv) (b : BaseId) :
    ((runErrs w evs).bases b).fdMap = (w.bases b).fdMap := by
  have err : ∀ (w : World) (p : PcbId) (e : ErrT),
      ((runEv w (.err p e)).bases b).fdMap = (w.bases b).fdMap := fun w p e => by
    show ((onLive w p fun c => _).bases b).fdMap = _
    unfold onLive
    split
    · split
      · rfl
      · dsimp only
        split
        · rfl
        · unfold deliverErr
          split
          · rfl
          · split
            · exact (Meek.tnTcpErrCb e).only.fds b
            · rfl
          · split
            · unfold tnTcpQueuedErrCb
              split
              · exact (Meek.tnAcceptQueueRemove _).only.fds b
              · rfl
            · rfl
            · rfl
    · rfl
  unfold runErrs
  induction evs generalizing w with
  | nil => rfl
  | cons ev evs ih =>
    rw [List.foldl_cons, ih]
    split
    · exact err w _ _
    · rfl

/-- A slot gets its pcb. -/
theorem newPcb_tame (type protocol : Int) (hl : (w.sockets i).inUse = true)
    (hk : (w.sockets i).type = type) (hf : (w.sockets i).udpPcb = none ∧ (w.sockets i).rawPcb = none) :
    Tame w (newPcb w i type protocol).1 := by
  unfold newPcb
  split
  · rename_i ht
    exact (newUdp_still hl (by rw [hk, ht]; decide) hf.1).tame
  · split
    · exact Wide.newTcp tame_wide
    · rename_i ht
      exact (newRaw_still protocol hl (by rw [hk]; exact ht) hf.2).tame

/-- A new pcb moves no descriptor. -/
theorem fdMap_newPcb (type protocol : Int) (b : BaseId) :
    ((newPcb w i type protocol).1.bases b).fdMap = (w.bases b).fdMap := by
  unfold newPcb newUdp newTcp newRaw
  dsimp only
  have aborted := fdMap_runErrs (w := w.asked) w.ask.evs b
  split
  · split <;> rfl
  · split
    · split
      · exact (fdMap_of_shelf (by simp) b).trans aborted
      · exact aborted
    · split <;> rfl

/-- A new socket goes to a free descriptor. -/
theorem tnIpcCmdSocket_tame : Tame w (tnIpcCmdSocket w m).1 := by
  unfold tnIpcCmdSocket
  dsimp only
  split
  · exact .fail (.refl w) _
  · split
    · exact .fail (.refl w) _
    · rename_i b _
      split
      · exact .fail (.refl w) _
      · rename_i fd hfd
        split
        · exact .fail (.refl w) _
        · rename_i i hi
          have alloc : Tame w _ := (tnSlotAlloc_still (some b) (w.msgs m).clientTask
            ((w.msgs m).args 0) ((w.msgs m).args 1) ((w.msgs m).args 2) (freeSlot?_some hi)).tame
          generalize hw1 : tnSlotAlloc w i _ _ _ _ _ = w1 at alloc ⊢
          have slot : w1.sockets i = tnInitSocketSlot (some b) (w.msgs m).clientTask
              ((w.msgs m).args 0) ((w.msgs m).args 1) ((w.msgs m).args 2) := by
            rw [← hw1]
            simp [tnSlotAlloc, modSlot]
          have made := newPcb_tame (w := w1) (i := i) ((w.msgs m).args 1) ((w.msgs m).args 2)
            (by rw [slot]; rfl) (by rw [slot]; rfl) (by rw [slot]; exact ⟨rfl, rfl⟩)
          split
          · rename_i w2 heq
            exact .fail ((alloc.trans (of_pair heq made)).trans tnSlotFree_still.tame) _
          · rename_i w2 heq
            have free : (w2.bases b).fdMap fd = none := by
              have same := fdMap_newPcb (w := w1) (i := i) ((w.msgs m).args 1) ((w.msgs m).args 2) b
              rw [heq] at same
              rw [same, ← hw1]
              exact (pickFd?_some hfd).1
            have opened : Tame w w2 := alloc.trans (of_pair heq made)
            have placed : Tame w (w2.setFd b fd (some i)) := .of_ok fun hok =>
              opened.trans (setFd_tame ⟨free, opened.size hok b ▸ (pickFd?_some hfd).2⟩ i)
            split
            · exact .done (placed.trans (tnRecordSocketEvent_tame _)) _ _
            · exact .done placed _ _

end Tolunnet
