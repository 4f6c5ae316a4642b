import Tolunnet.Queue.Steps
import Tolunnet.Desk.Memberships

/-!
# `Tolunnet.Queue.Reuse`: a slot that is used again

`tn_slot_alloc` does not clear an entry of the slot table, it assigns its fields one by one.
`tnInitSocketSlotOver` is this list of assignments over whatever the last owner left there. A field
that the list misses would keep its old value; `tnInitSocketSlotOver_eq` shows that there is none.

A multicast record lies in a table of its own and names its slot by the index. `Yard.Owned` says
that a record in use names a slot in use. Every operation keeps it, because a slot is given up only by
`tn_slot_free`, which leaves the groups first. So a free slot has no record.

`tnSlotAlloc_clean` is about every state in the course of a run, also inside a step, because lwIP
allocates slots in the middle of a burst.
-/

set_option autoImplicit false

namespace Tolunnet

namespace Queues

open World

variable {w : World} {i : SlotIdx}

/-! ## The assignments -/

/-- The option block after the assignments of `tn_init_socket_slot`. -/
def initOptsOver (o : TnSockOpts) (protocol : Int) : TnSockOpts :=
  let socket := { o with
    broadcast := false, reuseaddr := false, keepalive := false, oobinline := false,
    lingerOnoff := 0, lingerLinger := 0, sndbuf := tcpSndBuf, rcvbuf := tcpWnd,
    rcvtimeoSecs := 0, rcvtimeoMicro := 0, sndtimeoSecs := 0, sndtimeoMicro := 0 }
  let tcp := { socket with
    nodelay := false, mss := 0, keepidle := 7200, keepintvl := 75, keepcnt := 9 }
  { tcp with
    tos := 0, ttl := 64, hdrincl := protocol == ipprotoRaw, multicastTtl := 1, multicastLoop := 1 }

/-- `tn_init_socket_slot` as assignments to an entry that has been used before. The two ends of a
list and the iovec array with its length are one field each in the model. -/
def tnInitSocketSlotOver (s : TnSocketSlot) (base : Option BaseId) (task : TaskId)
    (domain type protocol : Int) : TnSocketSlot :=
  let owned := { s with
    inUse := true, ownerBase := base, ownerTask := some task, domain := domain, type := type,
    protocol := protocol, tcpState := .closed, isNonblocking := false, shutWr := false,
    shutRd := false, opts := initOptsOver s.opts protocol }
  let emptied := { owned with
    lastError := .ok, rxCount := 0, refCount := 1, udpPcb := none, tcpPcb := none, rawPcb := none,
    rx := [], acceptQ := [], acceptCount := 0, listenBacklog := acceptQueueMax }
  -- The four pending fields are one function, and `hist` is the model's own record of the bytes.
  { emptied with
    pending := fun _ => none, recvDeadlineTick := 0, sendDeadlineTick := 0, sendDone := 0,
    sendIov := none, parkId := 0, isParked := false, hist := {} }

/-! ## Multicast records -/

/-- A record in use names a slot in use. -/
def Yard.Owned (y : Yard) : Prop :=
  ∀ k, (y.joins k).inUse = true → (y.bay (y.joins k).slot).live = true

namespace Yard.Owned

variable {y y' : Yard}

/-- Another content for a slot that stays in use, or was not. -/
theorem setBay (h : y.Owned) (j : SlotIdx) {b : Bay}
    (hb : (y.bay j).live = true → b.live = true) : (y.setBay j b).Owned := by
  intro k hk
  have live : (y.bay (y.joins k).slot).live = true := h k hk
  show ((y.setBay j b).bay (y.joins k).slot).live = true
  by_cases hj : (y.joins k).slot = j
  · rw [hj] at live ⊢
    rw [bay_setBay]
    exact hb live
  · rw [bay_setBay_of_ne y hj]
    exact live

/-- The slot that is freed has left its groups. -/
theorem free (h : y.Owned) (j : SlotIdx) (b : Bay) : ((y.leaveAll j).setBay j b).Owned := by
  intro k hk
  have left : (leftBy j (y.joins k)).inUse = true := hk
  -- A record of slot `j` is not in use any more, so this one is of another slot.
  have kept : ¬ ((y.joins k).inUse ∧ (y.joins k).slot = j) := by
    intro own
    rw [leftBy, if_pos own] at left
    cases left
  have same : leftBy j (y.joins k) = y.joins k := if_neg kept
  rw [same] at left
  show ((y.leaveAll j).setBay j b |>.bay (leftBy j (y.joins k)).slot).live = true
  rw [same, bay_setBay_of_ne _ fun hj => kept ⟨left, hj⟩]
  exact h k left

/-- Another content for a record. -/
theorem setJoin (h : y.Owned) (k : Fin 8) {r : McastJoin}
    (hr : r.inUse = true → (y.bay r.slot).live = true) : (y.setJoin k r).Owned := by
  intro l hl
  by_cases hlk : l = k
  · subst hlk
    simp only [Yard.setJoin, Function.update_self] at hl ⊢
    exact hr hl
  · simp only [Yard.setJoin, Function.update_of_ne hlk] at hl ⊢
    exact h l hl

/-- Every operation keeps it. -/
theorem move {o : Op} (h : y.Owned) (hm : Move o y y') : y'.Owned := by
  cases hm with
  | alloc _ j => exact h.setBay j fun _ => rfl
  | free _ j => exact h.free j _
  | join _ k r hf hu hl => exact h.setJoin k fun _ => hl
  | leave _ k => exact h.setJoin k fun hr => Bool.noConfusion hr
  | pop _ j => exact h.setBay j id
  | abort => exact h
  | hand _ j => exact h.setBay j id
  | push _ j => exact h.setBay j id
  | read _ j =>
    refine h.setBay j fun live => ?_
    unfold Bay.read
    split
    · exact live
    · exact live
  | _ => exact h.setBay _ id

theorem moves {l : List Op} (h : y.Owned) (hm : Moves l y y') : y'.Owned :=
  hm.induct (fun _ _ _ => Yard.Owned.move) h

end Yard.Owned

/-- The records of every state that is reached name slots in use. -/
theorem owned_of_reach {ok : World → Input → Prop} (hr : Reach ok w) : (yard [] w).Owned := by
  induction hr with
  | init =>
    intro k hk
    cases hk
  | step _ _ _ ih =>
    obtain ⟨l, hl⟩ := step_works _
    exact ih.moves hl

/-! ## The new owner -/

/-- A state in the course of a run: operations lead to it from a state between two steps. Every
handler and every callback `Works`, so the states inside a step are among them. -/
def Underway (w : World) : Prop :=
  ∃ w0 h l, Reachable w0 ∧ Moves l (yard [] w0) (yard h w)

theorem Underway.of_reach (hr : Reachable w) : Underway w := ⟨w, [], [], hr, .nil _⟩

/-- Nothing of an earlier life of the slot is to be seen. -/
structure Clean (w : World) (i : SlotIdx) : Prop where
  join : ∀ grp ifa, mcastOf? w i grp ifa = none
  notParked : (w.sockets i).isParked = false ∧ (w.sockets i).parkId = 0
  deadlines : (w.sockets i).recvDeadlineTick = 0 ∧ (w.sockets i).sendDeadlineTick = 0
  cursor : (w.sockets i).sendDone = 0 ∧ (w.sockets i).sendIov = none
  open_ : (w.sockets i).shutRd = false ∧ (w.sockets i).shutWr = false
  received : (w.sockets i).rx = [] ∧ (w.sockets i).rxCount = 0
  queued : (w.sockets i).acceptQ = [] ∧ (w.sockets i).acceptCount = 0
  waiting : ∀ k, (w.sockets i).pending k = none

/-- In the course of any run, the free entry that `tn_slot_alloc` finds becomes what a zeroed entry
becomes, whatever its last owner has left in it, and nothing of an earlier life is to be seen. -/
theorem tnSlotAlloc_clean (hu : Underway w) (hf : freeSlot? w = some i) (base : Option BaseId)
    (task : TaskId) (domain type protocol : Int) :
    (tnSlotAlloc w i base task domain type protocol).sockets i =
        tnInitSocketSlotOver (w.sockets i) base task domain type protocol ∧
      tnInitSocketSlotOver (w.sockets i) base task domain type protocol =
        tnInitSocketSlotOver {} base task domain type protocol ∧
      Clean (tnSlotAlloc w i base task domain type protocol) i := by
  have slot : (tnSlotAlloc w i base task domain type protocol).sockets i =
      tnInitSocketSlot base task domain type protocol := by
    show Function.update w.sockets i _ i = _
    exact Function.update_self ..
  have free : (w.sockets i).inUse = false := by
    simpa using List.find?_some hf
  have join : ∀ grp ifa,
      mcastOf? (tnSlotAlloc w i base task domain type protocol) i grp ifa = none := by
    obtain ⟨w0, h, l, hr, hl⟩ := hu
    have owned : (yard h w).Owned := (owned_of_reach hr).moves hl
    intro grp ifa
    refine List.find?_eq_none.mpr fun k _ => ?_
    -- A record of slot `i` would be of a slot in use.
    show ¬ ((w.mcastJoins k).inUse && (w.mcastJoins k).slot == i && _ && _) = true
    intro hk
    simp only [Bool.and_eq_true, beq_iff_eq] at hk
    obtain ⟨⟨⟨used, named⟩, -⟩, -⟩ := hk
    have live : (w.sockets (w.mcastJoins k).slot).inUse = true := owned k used
    rw [named, free] at live
    cases live
  refine ⟨slot, rfl, ?_⟩
  constructor
  case join => exact join
  all_goals rw [slot]; simp [tnInitSocketSlot]

/-- A socket that has joined a group is closed. -/
def closedOnce : World :=
  step joinedOnce (.ipc 1 { cmd := .closesocket, socketBase := some 1, args := fun _ => 0 } [])

/-- Its entry is the first free one again and starts anew, as a raw socket of another task. -/
theorem tnSlotAlloc_clean_closedOnce :
    (joinedOnce.sockets firstSlot).inUse = true ∧ freeSlot? closedOnce = some firstSlot ∧
      tnInitSocketSlotOver (closedOnce.sockets firstSlot) none 7 2 3 255 =
        tnInitSocketSlotOver {} none 7 2 3 255 ∧
      Clean (tnSlotAlloc closedOnce firstSlot none 7 2 3 255) firstSlot := by
  have joined : Reachable joinedOnce :=
    joinedOnce_reach (fun _ _ => trivial) (fun _ _ _ _ _ => trivial) (fun _ _ _ _ _ => trivial)
      fun _ _ _ => trivial
  have closed : Reachable closedOnce :=
    joined.request 1 _ [] 1 (by decide) (by decide) rfl ⟨0, by decide⟩ trivial
  have free : freeSlot? closedOnce = some firstSlot := by decide
  obtain ⟨-, same, clean⟩ := tnSlotAlloc_clean (.of_reach closed) free none 7 2 3 255
  exact ⟨by decide, free, same, clean⟩

end Queues

end Tolunnet
