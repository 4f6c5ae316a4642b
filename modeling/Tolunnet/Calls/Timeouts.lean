import Mathlib.Data.List.FinRange
import Tolunnet.Lib.Clock
import Tolunnet.Task.Sockopt
import Tolunnet.Task.Tcp

/-!
# `Tolunnet.Calls.Timeouts`: `SO_RCVTIMEO` and `SO_SNDTIMEO`

A request that waits under a timeout has a deadline, in ticks of the main loop. Four pieces of code
set it: the two that park a request and the two branches of `SETSOCKOPT` that change the timeout of
a parked one. `Arms` collects them. `tnSlotCheckRecvTimeouts` answers a request whose deadline has
been reached.

`Honoured` says that the request is answered at the first check that is made at least `waitTicks`
ticks later, and at none before, for every schedule of checks less than `2 ^ 31` ticks apart. The
code computes the ticks with 32-bit products, and a deadline of 0 means none: `honoured_iff` says
when neither gets in the way.
-/

set_option autoImplicit false

namespace Tolunnet

open World

variable {w w' w'' : World} {m : MsgId} {i j : SlotIdx} {k : Pend}

namespace Timeouts

/-! ## The specification -/

/-- The deadline a parked request waits under. -/
def deadlineOf (s : TnSocketSlot) : Pend → Nat
  | .recv => s.recvDeadlineTick
  | .send => s.sendDeadlineTick
  | _ => 0

/-- The timeout stored for a field, in seconds and microseconds. -/
def timeoutOf (s : TnSocketSlot) : Pend → Nat × Nat
  | .recv => (s.opts.rcvtimeoSecs, s.opts.rcvtimeoMicro)
  | .send => (s.opts.sndtimeoSecs, s.opts.sndtimeoMicro)
  | _ => (0, 0)

/-- The duration in ticks of 100 ms, rounded up. -/
def waitTicks (t : Nat × Nat) : Nat := (t.1 * 1000000 + t.2 + 99999) / 100000

/-- Message `m` asks for this option of slot `i`, with a value of at least four bytes. -/
structure Asks (w : World) (m : MsgId) (i : SlotIdx) (o : SockOpt) : Prop where
  value : (((w.msgs m).ptrs 0).mem?).isSome
  option : sockOpt (w.sockets i).type ((w.msgs m).args 1) ((w.msgs m).args 2) = .ok o
  length : 4 ≤ (w.msgs m).args 3

/-- Slot `i` takes a request into field `k`, or has one there and is given another timeout. -/
inductive Arms (i : SlotIdx) : Pend → World → World → Prop where
  /-- A receive is parked. -/
  | parkRecv (w : World) (m : MsgId) (hp : (w.sockets i).pending .recv = none) :
      Arms i .recv w (tnSlotParkRecv w i m).1
  /-- A send is parked. -/
  | parkSend (w : World) (m : MsgId) (p : PcbId) (iov : Option (List Iovec)) (len done : Nat) :
      Arms i .send w (parkSend w m i p iov len done)
  /-- `SO_RCVTIMEO` of a slot with a parked receive. -/
  | setRecv (w : World) (m : MsgId) (ha : Asks w m i .rcvtimeo)
      (hp : ((w.sockets i).pending .recv).isSome) :
      Arms i .recv w (tnIpcCmdSetsockopt w m (some i)).1
  /-- `SO_SNDTIMEO` of a slot with a parked send. -/
  | setSend (w : World) (m : MsgId) (ha : Asks w m i .sndtimeo)
      (hp : ((w.sockets i).pending .send).isSome) :
      Arms i .send w (tnIpcCmdSetsockopt w m (some i)).1

/-- In `v` slot `i` waits with message `m` as it does in `w`. -/
structure Waits (w v : World) (i : SlotIdx) (k : Pend) (m : MsgId) : Prop where
  inUse : (v.sockets i).inUse = true
  pending : (v.sockets i).pending k = some m
  deadline : deadlineOf (v.sockets i) k = deadlineOf (w.sockets i) k

/-- The request in field `k` is gone and has been answered. -/
def Answers (v v' : World) (i : SlotIdx) (k : Pend) (m : MsgId) : Prop :=
  (v'.sockets i).pending k = none ∧
    ∃ pre r e, v'.trace = pre ++ v.trace ∧ Event.reply (v.callOf m) r e ∈ pre

/-- The deadline that is set between `w` and `w'` is one, and while the request waits under it the
first check at least `waitTicks` ticks after `w` answers it, and no earlier check does. -/
def Honoured (w w' : World) (i : SlotIdx) (k : Pend) : Prop :=
  deadlineOf (w'.sockets i) k ≠ 0 ∧
    ∀ e, Clock.Schedule (2 ^ 31) e → ∀ x, Clock.Undue e (waitTicks (timeoutOf (w'.sockets i) k)) x →
      ∀ v m, Waits w' v i k m → v.mainloopTicks = (w.mainloopTicks + e x) % 2 ^ 32 →
        (waitTicks (timeoutOf (w'.sockets i) k) ≤ e x → Answers v (tnSlotCheckRecvTimeouts v) i k m) ∧
        (e x < waitTicks (timeoutOf (w'.sockets i) k) →
          ((tnSlotCheckRecvTimeouts v).sockets i).pending k = some m)

/-- The 32-bit products hold the duration. -/
def Fits (t : Nat × Nat) : Prop :=
  t.2 + 999 < 2 ^ 32 ∧ t.1 * 1000 + (t.2 + 999) / 1000 + 99 < 2 ^ 32

/-! ## One check -/

/-- The comparison of ticks is the one of clocks. -/
theorem tickReached_iff (now d : Nat) : tickReached now d = true ↔ Clock.Reached (2 ^ 31) now d := by
  have turn : 2 * 2 ^ 31 = 2 ^ 32 := by decide
  simp only [tickReached, decide_eq_true_eq, Clock.Reached, turn]

/-- A check finds the request of field `k` overdue. -/
def Due (w : World) (i : SlotIdx) (k : Pend) : Prop :=
  (w.sockets i).inUse = true ∧ ((w.sockets i).pending k).isSome ∧ deadlineOf (w.sockets i) k ≠ 0 ∧
    tickReached w.mainloopTicks (deadlineOf (w.sockets i) k) = true

instance : Decidable (Due w i k) := by
  unfold Due
  infer_instance

/-- The first half of a check. -/
def checkSend (w : World) (i : SlotIdx) : World :=
  if Due w i .send then tnSlotReplySend w i .ewouldblock true else w

/-- The second half of a check. -/
def checkRecv (w : World) (i : SlotIdx) : World :=
  if Due w i .recv then replyPending w i .recv (-1) .ewouldblock else w

theorem checkTimeoutsAt_eq : checkTimeoutsAt w i = checkRecv (checkSend w i) i := rfl

/-- The clock and the numbers of the calls stay, and the trace only grows. -/
structure Onward (w w' : World) : Prop where
  ticks : w'.mainloopTicks = w.mainloopTicks
  callOf : w'.callOf = w.callOf
  trace : ∃ pre, w'.trace = pre ++ w.trace

namespace Onward

theorem refl (w : World) : Onward w w := ⟨rfl, rfl, [], rfl⟩

/-- Two checks. -/
theorem trans (h : Onward w w') (h' : Onward w' w'') : Onward w w'' := by
  obtain ⟨pre, hp⟩ := h.trace
  obtain ⟨pre', hp'⟩ := h'.trace
  refine ⟨h'.ticks.trans h.ticks, h'.callOf.trans h.callOf, pre' ++ pre, ?_⟩
  rw [hp', hp, List.append_assoc]

theorem checkSend : Onward w (checkSend w i) := by
  unfold Timeouts.checkSend tnSlotReplySend
  split
  · split
    · exact refl w
    · exact ⟨rfl, rfl, [_, _], rfl⟩
  · exact refl w

theorem checkRecv : Onward w (checkRecv w i) := by
  unfold Timeouts.checkRecv replyPending
  split
  · split
    · exact refl w
    · exact ⟨rfl, rfl, [_], rfl⟩
  · exact refl w

end Onward

/-- A check of slot `j` leaves every other slot alone. -/
theorem slot_checkAt (hj : i ≠ j) : (checkTimeoutsAt w j).sockets i = w.sockets i := by
  have send : (checkSend w j).sockets i = w.sockets i := by
    unfold checkSend tnSlotReplySend
    split
    · split
      · rfl
      · simp [replyMsg, emit, setReply, modMsg, setPending, modSlot, hj]
    · rfl
  have recv : ∀ w : World, (checkRecv w j).sockets i = w.sockets i := fun w => by
    unfold checkRecv replyPending
    split
    · split
      · rfl
      · simp [answerMsg, replyMsg, emit, setReply, modMsg, setPending, modSlot, hj]
    · rfl
  exact (recv _).trans send

/-- The checks of other slots leave this one alone. -/
theorem checks_elsewhere (l : List SlotIdx) (hl : i ∉ l) (w : World) :
    Onward w (l.foldl checkTimeoutsAt w) ∧ (l.foldl checkTimeoutsAt w).sockets i = w.sockets i := by
  induction l generalizing w with
  | nil => exact ⟨.refl w, rfl⟩
  | cons j l ih =>
    rw [List.mem_cons, not_or] at hl
    obtain ⟨on, slot⟩ := ih hl.2 (checkTimeoutsAt w j)
    exact ⟨(Onward.checkSend.trans Onward.checkRecv).trans on, slot.trans (slot_checkAt hl.1)⟩

/-- A check of the whole table is a check of each slot, and the others do not touch slot `i`. -/
theorem check_split (w : World) (i : SlotIdx) :
    ∃ w₁, (Onward w w₁ ∧ w₁.sockets i = w.sockets i) ∧
      Onward (checkTimeoutsAt w₁ i) (tnSlotCheckRecvTimeouts w) ∧
      (tnSlotCheckRecvTimeouts w).sockets i = (checkTimeoutsAt w₁ i).sockets i := by
  obtain ⟨l, l', hl⟩ := List.append_of_mem (List.mem_finRange i)
  have once : (l ++ i :: l').Nodup := hl ▸ List.nodup_finRange 64
  have before : i ∉ l := fun h => (List.nodup_append.mp once).2.2 i h i List.mem_cons_self rfl
  have after : i ∉ l' := (List.nodup_cons.mp (List.nodup_append.mp once).2.1).1
  refine ⟨l.foldl checkTimeoutsAt w, checks_elsewhere l before w, ?_⟩
  unfold tnSlotCheckRecvTimeouts
  rw [hl, List.foldl_append, List.foldl_cons]
  exact checks_elsewhere l' after _

theorem send_checkRecv : ((checkRecv w i).sockets i).pending .send = (w.sockets i).pending .send := by
  unfold checkRecv replyPending
  split
  · split
    · rfl
    · simp [answerMsg, replyMsg, emit, setReply, modMsg, setPending, modSlot]
  · rfl

theorem recv_checkSend : ((checkSend w i).sockets i).pending .recv = (w.sockets i).pending .recv ∧
    deadlineOf ((checkSend w i).sockets i) .recv = deadlineOf (w.sockets i) .recv ∧
    ((checkSend w i).sockets i).inUse = (w.sockets i).inUse := by
  unfold checkSend tnSlotReplySend
  split
  · split
    · exact ⟨rfl, rfl, rfl⟩
    · simp [replyMsg, emit, setReply, modMsg, setPending, modSlot, deadlineOf]
  · exact ⟨rfl, rfl, rfl⟩

/-- A send that is due is answered. -/
theorem checkSend_due (hm : (w.sockets i).pending .send = some m) (hd : Due w i .send) :
    Answers w (checkSend w i) i .send m := by
  unfold checkSend tnSlotReplySend
  rw [if_pos hd, hm]
  exact ⟨by simp [replyMsg, emit, setReply, modMsg, setPending, modSlot],
    [_, _], _, _, rfl, List.mem_cons_self⟩

/-- A read that is due is answered. -/
theorem checkRecv_due (hm : (w.sockets i).pending .recv = some m) (hd : Due w i .recv) :
    Answers w (checkRecv w i) i .recv m := by
  unfold checkRecv replyPending
  rw [if_pos hd, hm]
  exact ⟨by simp [answerMsg, replyMsg, emit, setReply, modMsg, setPending, modSlot],
    [_], _, _, rfl, List.mem_cons_self⟩

/-- More trace before and after an answer. -/
theorem Answers.extend {v v' : World} (h : Answers v v' i k m) (hw : Onward w v)
    (hv : Onward v' w') (hs : (w'.sockets i).pending k = (v'.sockets i).pending k) :
    Answers w w' i k m := by
  obtain ⟨hn, pre, r, e, ht, hr⟩ := h
  obtain ⟨before, hb⟩ := hw.trace
  obtain ⟨after, ha⟩ := hv.trace
  refine ⟨hs.trans hn, after ++ (pre ++ before), r, e, ?_, ?_⟩
  · rw [ha, ht, hb]
    simp only [List.append_assoc]
  · rw [← hw.callOf]
    exact List.mem_append_right _ (List.mem_append_left _ hr)

/-- The field of a request that can time out. -/
def Timed (k : Pend) : Prop := k = .recv ∨ k = .send

/-- What is due is answered. -/
theorem checkAt_due (hk : Timed k) (hm : (w.sockets i).pending k = some m) (hd : Due w i k) :
    Answers w (checkTimeoutsAt w i) i k m := by
  rw [checkTimeoutsAt_eq]
  rcases hk with rfl | rfl
  · obtain ⟨hp, hdl, hu⟩ := recv_checkSend (w := w) (i := i)
    have due : Due (checkSend w i) i .recv := by
      unfold Due
      rw [hp, hdl, hu, Onward.checkSend.ticks]
      exact hd
    exact (checkRecv_due (hp.trans hm) due).extend .checkSend (.refl _) rfl
  · exact (checkSend_due hm hd).extend (.refl _) .checkRecv send_checkRecv

/-- What is not due goes on waiting. -/
theorem checkAt_early (hk : Timed k) (hd : ¬ Due w i k) :
    ((checkTimeoutsAt w i).sockets i).pending k = (w.sockets i).pending k := by
  rw [checkTimeoutsAt_eq]
  rcases hk with rfl | rfl
  · obtain ⟨hp, hdl, hu⟩ := recv_checkSend (w := w) (i := i)
    have early : ¬ Due (checkSend w i) i .recv := by
      unfold Due
      rw [hp, hdl, hu, Onward.checkSend.ticks]
      exact hd
    rw [checkRecv, if_neg early, hp]
  · rw [send_checkRecv, checkSend, if_neg hd]

/-- A check answers a parked request if its deadline has been reached, and leaves it parked if
not. -/
theorem check_spec (hk : Timed k) (hm : (w.sockets i).pending k = some m) :
    (Due w i k → Answers w (tnSlotCheckRecvTimeouts w) i k m) ∧
      (¬ Due w i k → ((tnSlotCheckRecvTimeouts w).sockets i).pending k = some m) := by
  obtain ⟨w₁, ⟨on, slot⟩, on', slot'⟩ := check_split w i
  have due : Due w₁ i k ↔ Due w i k := by
    unfold Due
    rw [slot, on.ticks]
  constructor
  · intro hd
    exact (checkAt_due hk (by rw [slot, hm]) (due.mpr hd)).extend on on' (by rw [slot'])
  · intro hd
    rw [slot', checkAt_early hk (fun h => hd (due.mp h)), slot, hm]

/-! ## The ticks of a timeout -/

variable {t : Nat × Nat}

/-- The milliseconds the code computes. -/
def codeMs (t : Nat × Nat) : Nat := (t.1 * 1000 + (t.2 + 999) % 2 ^ 32 / 1000) % 2 ^ 32

/-- The ticks the code waits. -/
def codeTicks (t : Nat × Nat) : Nat :=
  if (codeMs t + 99) % 2 ^ 32 / 100 = 0 then 1 else (codeMs t + 99) % 2 ^ 32 / 100

/-- The deadline in ticks from now. -/
theorem deadlineTick_eq (ht : 0 < t.1 ∨ 0 < t.2) :
    deadlineTick w t.1 t.2 = (w.mainloopTicks + codeTicks t) % 2 ^ 32 :=
  if_pos ht

/-- A timeout that fits is counted exactly. -/
theorem codeTicks_eq (ht : 0 < t.1 ∨ 0 < t.2) (hf : Fits t) : codeTicks t = waitTicks t := by
  obtain ⟨micro, milli⟩ := hf
  have ms : codeMs t = t.1 * 1000 + (t.2 + 999) / 1000 := by
    unfold codeMs
    rw [Nat.mod_eq_of_lt micro, Nat.mod_eq_of_lt (Nat.lt_of_le_of_lt (Nat.le_add_right _ 99) milli)]
  unfold codeTicks waitTicks
  rw [ms, Nat.mod_eq_of_lt milli, if_neg]
  · omega
  · omega

/-- What the 32-bit sum drops is worth more than an hour. -/
theorem micro_short (hm : 2 ^ 32 ≤ t.2 + 999) :
    (t.2 + 999) % 2 ^ 32 / 1000 + 4000000 ≤ (t.2 + 999) / 1000 := by
  have dropped : (t.2 + 999) % 2 ^ 32 + 4000000 * 1000 ≤ t.2 + 999 := by
    have turns := Nat.mod_add_div (t.2 + 999) (2 ^ 32)
    have : 0 < (t.2 + 999) / 2 ^ 32 := Nat.div_pos hm (by decide)
    omega
  have := Nat.div_le_div_right (c := 1000) dropped
  rwa [Nat.add_mul_div_right _ _ (by decide)] at this

/-- A duration the products do not hold comes out far too short. -/
theorem codeTicks_lt (hf : ¬ Fits t) : codeTicks t + 2 ≤ waitTicks t := by
  have exact : 1000 * (t.1 * 1000 + (t.2 + 999) / 1000) ≤ t.1 * 1000000 + t.2 + 999 := by omega
  have ticks : codeTicks t ≤ codeMs t / 100 + 1 := by
    unfold codeTicks
    split <;> omega
  have small : codeMs t < 2 ^ 32 := Nat.mod_lt _ (by decide)
  unfold waitTicks
  by_cases hm : t.2 + 999 < 2 ^ 32
  · have long : 2 ^ 32 ≤ t.1 * 1000 + (t.2 + 999) / 1000 + 99 := by
      by_contra hlt
      exact hf ⟨hm, by omega⟩
    have ms : codeMs t = (t.1 * 1000 + (t.2 + 999) / 1000) % 2 ^ 32 := by
      unfold codeMs
      rw [Nat.mod_eq_of_lt hm]
    -- either the product wraps, or rounding it up to ticks does
    by_cases hw : t.1 * 1000 + (t.2 + 999) / 1000 < 2 ^ 32
    · have one : codeTicks t = 1 := by
        unfold codeTicks
        rw [ms, Nat.mod_eq_of_lt hw]
        split <;> omega
      omega
    · omega
  · have dropped := micro_short (t := t) (by omega)
    have ms : codeMs t ≤ t.1 * 1000 + (t.2 + 999) % 2 ^ 32 / 1000 := Nat.mod_le ..
    omega

/-! ## The deadline that is set -/

/-- Only reads and sends have deadlines. -/
theorem timed_of_arms (h : Arms i k w w') : Timed k := by
  cases h with
  | parkRecv => exact .inl rfl
  | parkSend => exact .inr rfl
  | setRecv => exact .inl rfl
  | setSend => exact .inr rfl

/-- `SETSOCKOPT` of a timeout stores it and restarts the deadline. -/
theorem setsockopt_timeout {o : SockOpt} (ha : Asks w m i o) (hr : o ≠ .hdrincl)
    (hm : minOptlen o = 4) :
    ∃ f, ∀ v, (applySockopt w i o f ((w.msgs m).args 3)).1 = .ok v →
      (tnIpcCmdSetsockopt w m (some i)).1.sockets = v.sockets := by
  obtain ⟨f, hf⟩ := Option.isSome_iff_exists.mp ha.value
  refine ⟨f, fun v hv => ?_⟩
  have long : ¬ (o ≠ .error ∧ o ≠ .type ∧ (w.msgs m).args 3 < minOptlen o) := fun h => by
    have := ha.length
    have := h.2.2
    omega
  generalize happ : applySockopt w i o f ((w.msgs m).args 3) = r at hv
  obtain ⟨r, w'⟩ := r
  subst hv
  have run : tnIpcCmdSetsockopt w m (some i) = done v m 0 .ok := by
    simp only [tnIpcCmdSetsockopt, hf, ha.option, if_neg long, happ, hr, false_and, if_false]
  rw [run]
  rfl

theorem slot_modSlot (w : World) (i : SlotIdx) (f : TnSocketSlot → TnSocketSlot) :
    (w.modSlot i f).sockets i = f (w.sockets i) :=
  Function.update_self ..

/-- The deadline of a parked send. -/
def sendTick (w : World) (t : Nat × Nat) : Nat :=
  if (t.1 > 0 ∨ t.2 > 0) ∧ deadlineTick w t.1 t.2 = 0 then 1 else deadlineTick w t.1 t.2

theorem sockets_tcpPoll (w : World) (p : PcbId) (on : Bool) :
    (tcpPoll w p on).sockets = w.sockets := by
  unfold tcpPoll onFull
  split
  · split <;> rfl
  · rfl

/-- The ticks from now to the deadline. -/
theorem codeTicks_of_deadline {s : TnSocketSlot} (hs : timeoutOf s k = t)
    (ht : 0 < (timeoutOf s k).1 ∨ 0 < (timeoutOf s k).2)
    (hd : deadlineOf s k = deadlineTick w t.1 t.2) :
    deadlineOf s k = (w.mainloopTicks + codeTicks (timeoutOf s k)) % 2 ^ 32 := by
  rw [hd, ← hs]
  exact deadlineTick_eq ht

/-- The deadline `Arms` leaves: `codeTicks` ahead, or 1 for a parked send where that is 0. -/
theorem deadline_of_arms (h : Arms i k w w')
    (ht : 0 < (timeoutOf (w'.sockets i) k).1 ∨ 0 < (timeoutOf (w'.sockets i) k).2) :
    deadlineOf (w'.sockets i) k =
        (w.mainloopTicks + codeTicks (timeoutOf (w'.sockets i) k)) % 2 ^ 32 ∨
      (w.mainloopTicks + codeTicks (timeoutOf (w'.sockets i) k)) % 2 ^ 32 = 0 ∧
        deadlineOf (w'.sockets i) k = 1 := by
  cases h with
  | parkRecv _ m hp =>
    refine .inl (codeTicks_of_deadline (t := timeoutOf (w.sockets i) .recv) ?_ ht ?_)
    · simp only [tnSlotParkRecv, hp, slot_modSlot, setPending]
      rfl
    · simp only [tnSlotParkRecv, hp, slot_modSlot, setPending]
      rfl
  | parkSend _ m p iov len done =>
    have slot : (parkSend w m i p iov len done).sockets i =
        { (w.setPending i .send (some m)).sockets i with
          sendDone := done
          sendIov := iov
          sendDeadlineTick := sendTick w (timeoutOf (w.sockets i) .send) } := by
      rw [parkSend, sockets_tcpPoll, slot_modSlot]
      rfl
    rw [setPending, slot_modSlot] at slot
    have timeout : timeoutOf ((parkSend w m i p iov len done).sockets i) .send =
        timeoutOf (w.sockets i) .send := by
      rw [slot]
      rfl
    have deadline : deadlineOf ((parkSend w m i p iov len done).sockets i) .send =
        sendTick w (timeoutOf (w.sockets i) .send) := by
      rw [slot]
      rfl
    rw [timeout] at ht ⊢
    rw [deadline, sendTick, deadlineTick_eq ht]
    by_cases hz : (w.mainloopTicks + codeTicks (timeoutOf (w.sockets i) .send)) % 2 ^ 32 = 0
    · exact .inr ⟨hz, if_pos ⟨ht, hz⟩⟩
    · exact .inl (if_neg fun h => hz h.2)
  | setRecv _ m ha hp =>
    obtain ⟨f, hf⟩ := setsockopt_timeout ha (by decide) rfl
    have hs := hf _ rfl
    rw [hs] at ht ⊢
    refine .inl (codeTicks_of_deadline
      (t := loadTimeout f ((w.msgs m).args 3)) ?_ ht ?_)
    · simp only [restartRecv, modOpts, slot_modSlot, if_pos hp]
      rfl
    · simp only [restartRecv, modOpts, slot_modSlot, if_pos hp]
      rfl
  | setSend _ m ha hp =>
    obtain ⟨f, hf⟩ := setsockopt_timeout ha (by decide) rfl
    have hs := hf _ rfl
    rw [hs] at ht ⊢
    refine .inl (codeTicks_of_deadline
      (t := loadTimeout f ((w.msgs m).args 3)) ?_ ht ?_)
    · simp only [restartSend, modOpts, slot_modSlot, if_pos hp]
      rfl
    · simp only [restartSend, modOpts, slot_modSlot, if_pos hp]
      rfl

/-! ## When the timeout is honoured -/

/-- A slot in use with message `m` in field `k`. -/
def holding (k : Pend) (m : MsgId) (s : TnSocketSlot) : TnSocketSlot :=
  { s with inUse := true, pending := Function.update s.pending k (some m) }

/-- Slot `i` waits with message `m`, and the clock reads `now`. -/
def waiting (w : World) (i : SlotIdx) (k : Pend) (m : MsgId) (now : Nat) : World :=
  { w.modSlot i (holding k m) with mainloopTicks := now }

theorem waits_waiting (w : World) (i : SlotIdx) (k : Pend) (m : MsgId) (now : Nat) :
    Waits w (waiting w i k m now) i k m := by
  have slot : (waiting w i k m now).sockets i = holding k m (w.sockets i) :=
    slot_modSlot w i (holding k m)
  refine ⟨?_, ?_, ?_⟩
  · rw [slot]
    rfl
  · rw [slot]
    exact Function.update_self ..
  · rw [slot]
    cases k <;> rfl

/-- Due is what the clock says. -/
theorem Waits.due_iff {v : World} {d : Nat} (h : Waits w v i k m) (hd : deadlineOf (w.sockets i) k = d)
    (hz : d ≠ 0) {now : Nat} (hv : v.mainloopTicks = now % 2 ^ 32) :
    Due v i k ↔ Clock.Reached (2 ^ 31) now d := by
  have clock : Clock.Reached (2 ^ 31) v.mainloopTicks d ↔ Clock.Reached (2 ^ 31) now d := by
    rw [hv]
    exact Clock.reached_mod (by decide) now d
  unfold Due
  rw [h.inUse, h.pending, h.deadline, hd, tickReached_iff, clock]
  simp [hz]

/-- Only the deadline and the length of the timeout matter. -/
theorem honoured_clock {n d : Nat} (hk : Timed k) (hd : deadlineOf (w'.sockets i) k = d)
    (hn : waitTicks (timeoutOf (w'.sockets i) k) = n) :
    Honoured w w' i k ↔ d ≠ 0 ∧ Clock.Honours (2 ^ 31) w.mainloopTicks n d := by
  unfold Honoured
  rw [hd, hn]
  refine and_congr_right fun hz => ⟨fun h e hs x hu => ?_, fun h e hs x hu v m hw hv => ?_⟩
  · obtain ⟨late, early⟩ := h e hs x hu _ 0
      (waits_waiting w' i k 0 ((w.mainloopTicks + e x) % 2 ^ 32)) rfl
    have due := (waits_waiting w' i k 0 ((w.mainloopTicks + e x) % 2 ^ 32)).due_iff hd hz rfl
    obtain ⟨answered, kept⟩ :=
      check_spec hk (waits_waiting w' i k 0 ((w.mainloopTicks + e x) % 2 ^ 32)).pending
    rw [← due]
    constructor
    · intro hdue
      by_contra hlt
      have parked := early (Nat.lt_of_not_le hlt)
      rw [(answered hdue).1] at parked
      cases parked
    · intro hle
      by_contra hdue
      have parked := kept hdue
      rw [(late hle).1] at parked
      cases parked
  · obtain ⟨answered, kept⟩ := check_spec hk hw.pending
    have due := hw.due_iff hd hz hv
    have first := h e hs x hu
    constructor
    · intro hle
      exact answered (due.mpr (first.mpr hle))
    · intro hlt
      exact kept fun hdue => Nat.not_le_of_lt hlt (first.mp (due.mp hdue))

/-- A timeout is honoured just when the products hold it and the deadline does not come out as 0. -/
theorem honoured_iff (h : Arms i k w w')
    (ht : 0 < (timeoutOf (w'.sockets i) k).1 ∨ 0 < (timeoutOf (w'.sockets i) k).2)
    (hn : waitTicks (timeoutOf (w'.sockets i) k) < 2 ^ 31) :
    Honoured w w' i k ↔ Fits (timeoutOf (w'.sockets i) k) ∧
      (w.mainloopTicks + waitTicks (timeoutOf (w'.sockets i) k)) % 2 ^ 32 ≠ 0 := by
  have armed := deadline_of_arms h ht
  rw [honoured_clock (timed_of_arms h) rfl rfl]
  generalize timeoutOf (w'.sockets i) k = t at ht hn armed ⊢
  generalize deadlineOf (w'.sockets i) k = d at armed ⊢
  have some_tick : 0 < waitTicks t := by
    unfold waitTicks
    omega
  have turn : 2 * 2 ^ 31 = 2 ^ 32 := by decide
  -- the clock honours the deadline that lies `waitTicks` ahead, and no other
  rw [Clock.honours_iff (by decide) some_tick hn.le, turn]
  -- the products of a timeout that does not fit are too small
  by_cases hf : Fits t
  · rw [codeTicks_eq ht hf] at armed
    simp only [hf, true_and]
    omega
  · have short := codeTicks_lt hf
    simp only [hf, false_and, iff_false]
    omega

/-! ## One second -/

/-- An idle socket with `SO_RCVTIMEO` of one second, when the clock reads `now`. -/
def oneSecond (now : Nat) : World :=
  { tnSlotTableInit with
    sockets := fun i => if i = firstSlot then
      { tnInitSocketSlot (some 1) 1 afInet sockDgram 0 with opts := { rcvtimeoSecs := 1 } } else {}
    mainloopTicks := now }

/-- One second is honoured. -/
theorem honoured_oneSecond :
    Arms 0 .recv (oneSecond 0) (tnSlotParkRecv (oneSecond 0) 0 7).1 ∧
      Honoured (oneSecond 0) (tnSlotParkRecv (oneSecond 0) 0 7).1 0 .recv :=
  ⟨.parkRecv _ 7 rfl, (honoured_iff (.parkRecv _ 7 rfl) (by decide) (by decide)).mpr
    (by unfold Fits; decide)⟩

/-- Ten ticks before the clock wraps the deadline is 0, which means none. -/
theorem not_forall_honoured : ¬ ∀ w w' i k, Arms i k w w' →
    (0 < (timeoutOf (w'.sockets i) k).1 ∨ 0 < (timeoutOf (w'.sockets i) k).2) →
    waitTicks (timeoutOf (w'.sockets i) k) < 2 ^ 31 → Honoured w w' i k := by
  intro h
  have all := h (oneSecond (2 ^ 32 - 10)) _ 0 .recv (.parkRecv _ 7 rfl) (by decide) (by decide)
  have none : deadlineOf ((tnSlotParkRecv (oneSecond (2 ^ 32 - 10)) 0 7).1.sockets 0) .recv = 0 := by
    decide
  exact all.1 none

end Timeouts

end Tolunnet
