import Tolunnet.Abstract.Wakeups
import Tolunnet.Refine.Sends

/-!
# `Tolunnet.Refine.Wakeups`: callbacks wake who waits

lwIP runs when packets arrive and when the timer fires, and whatever it does it does through the
callbacks of the daemon. After such a turn every slot that has become ready for reading, for writing
or exceptionally has been given to `tn_signal_socket` at a moment when it was.

There is one gap. A slot with a parked send is not writable, and when `tn_tcp_poll_cb` or the
timeout `SO_SNDTIMEO` ends the send, the slot becomes writable and nobody is signalled.
`tn_tcp_sent_cb`, which ends sends as well, signals.
-/

set_option autoImplicit false

namespace Tolunnet

open World

variable {t : Tok} {w : World} {i : SlotIdx} {r : Ready} {inp : Input}

/-- A step in which lwIP runs by itself. -/
def Input.isTurn : Input → Bool
  | .lwip _ _ | .tick _ _ => true
  | _ => false

/-- The callbacks of lwIP's turn. -/
def Input.turn : Input → List LwipEv
  | .lwip evs _ | .tick evs _ => evs
  | _ => []

/-- The timer finds the `SO_SNDTIMEO` of the send that is parked in slot `i` passed. -/
structure Late (w : World) (i : SlotIdx) : Prop where
  live : (w.sockets i).inUse = true
  parked : (w.sockets i).pending .send ≠ none
  limited : (w.sockets i).sendDeadlineTick ≠ 0
  reached : tickReached w.mainloopTicks (w.sockets i).sendDeadlineTick = true

/-- A world at the next tick. -/
def ticked (w : World) : World := { w with mainloopTicks := (w.mainloopTicks + 1) % 2 ^ 32 }

/-- The step may end the send that is parked in slot `i` without a signal: the pcb is polled, or the
timer finds its timeout passed. -/
def EndsSend (w : World) (inp : Input) (i : SlotIdx) : Prop :=
  (w.sockets i).pending .send ≠ none ∧
    ((∃ p, (w.sockets i).tcpPcb = some p ∧ .poll p ∈ inp.turn) ∨
      ((∃ evs env, inp = .tick evs env) ∧ Late (ticked w) i))

/-- Between `w` and `w'` slot `i` is signalled while it is ready for `r`. -/
def Signalled (w w' : World) (i : SlotIdx) (r : Ready) : Prop :=
  ∃ new, w'.trace.filter Event.loud = new ++ w.trace.filter Event.loud ∧
    ∃ e ∈ new, e.wakes i r = true

/-! ## What is owed at the start -/

/-- Soundness does not look at what is owed. -/
theorem sound_owing (h : (abs (restTok Set.univ) w).Sound) (owes : Set (SlotIdx × Ready)) :
    (abs { restTok Set.univ with owes := owes } w).Sound where
  disc := h.disc.congr_rest rfl rfl rfl rfl ⟨rfl, rfl, rfl, rfl⟩
    (h.disc.sending_rest rfl rfl (fun s hs => (h.disc.sending s hs).hand) rfl rfl) fun _ _ hf => hf
  once := h.once
  sends := { h.sends with }

/-- The wakeups that a turn need not send: those of free slots and of the sends it may end. -/
def owedBy (w : World) (inp : Input) : Set (SlotIdx × Ready) :=
  {x | (w.sockets x.1).inUse = false ∨ (x.2 = .write ∧ EndsSend w inp x.1)}

/-- A run of acts pays what it owes. -/
theorem woken_of_acts {P : Label → Prop} {w' : World} (hs : (abs (restTok Set.univ) w).Sound)
    {owes : Set (SlotIdx × Ready)} (ha : Acts P (abs { restTok Set.univ with owes := owes } w)
      (abs { restTok Set.univ with owes := owes } w')) (ho : (i, r) ∉ owes)
    (hr : ready w' i r = true) : ready w i r = true ∨ Signalled w w' i r := by
  have awake := (Acts.induct (fun x y hs hi ha => hi.act hs ha) (sound_owing hs owes)
    (Abs.Awake.start _) ha).2
  rw [← abs_ready { restTok Set.univ with owes := owes } w i r]
  exact awake.woken i r ho ((abs_ready _ w' i r).trans hr)

/-- In lwIP's turn nothing is in hand. -/
theorem idle_owedBy (w : World) {owes : Set (SlotIdx × Ready)} {S : Set PcbId}
    (hf : ∀ j r, (w.sockets j).inUse = false → (j, r) ∈ owes)
    (hp : ∀ j p, p ∈ S → (w.sockets j).tcpPcb = some p → (w.sockets j).pending .send ≠ none →
      (j, .write) ∈ owes) : Idle { restTok Set.univ with owes := owes } w S :=
  ⟨rfl, rfl, rfl, rfl, hf, hp⟩

/-! ## Timeouts -/

/-- A slot that changes gently is not late afterwards unless it was before. -/
theorem Late.before {w' : World} (late : Late w' i) (slot : SlotCalm (w.sockets i) (w'.sockets i))
    (ticks : w'.mainloopTicks = w.mainloopTicks) : Late w i := by
  have deadline := slot.deadline.resolve_right late.parked
  refine ⟨slot.inUse ▸ late.live, fun none => ?_, deadline ▸ late.limited, ?_⟩
  · exact (slot.fields .send).elim (fun same => late.parked (same.trans none)) late.parked
  · rw [← deadline, ← ticks]
    exact late.reached

/-- A timeout ends only a send whose wakeup is owed, and changes its slot gently. -/
theorem checkTimeoutsAt_owing {P : Label → Prop} (w : World) (i : SlotIdx)
    (ho : Late w i → (i, .write) ∈ t.owes) :
    Acts P (abs t w) (abs t (checkTimeoutsAt w i)) ∧ Meek i w (checkTimeoutsAt w i) := by
  unfold checkTimeoutsAt
  dsimp only
  have send : ∀ b : Bool, (b = true → (i, .write) ∈ t.owes) →
      Acts P (abs t w) (abs t (if b then tnSlotReplySend w i .ewouldblock true else w)) ∧
        Meek i w (if b then tnSlotReplySend w i .ewouldblock true else w) := by
    intro b owed
    cases b with
    | false => exact ⟨.refl, .refl w⟩
    | true =>
      have sent := tnSlotReplySend_interrupt (P := P) (t := t) (w := w) i (e := .ewouldblock) rfl
      rw [Tok.owe_mem (owed rfl)] at sent
      exact ⟨sent, .tnSlotReplySend _ _⟩
  have due := send (decide ((w.sockets i).inUse ∧ ((w.sockets i).pending .send).isSome ∧
    (w.sockets i).sendDeadlineTick ≠ 0 ∧ tickReached w.mainloopTicks (w.sockets i).sendDeadlineTick))
    fun h => by
      obtain ⟨live, parked, limited, reached⟩ := of_decide_eq_true h
      exact ho ⟨live, Option.isSome_iff_ne_none.mp parked, limited, reached⟩
  simp only [decide_eq_true_eq] at due
  generalize (if (w.sockets i).inUse ∧ ((w.sockets i).pending .send).isSome ∧
    (w.sockets i).sendDeadlineTick ≠ 0 ∧
    tickReached w.mainloopTicks (w.sockets i).sendDeadlineTick then
    tnSlotReplySend w i .ewouldblock true else w) = w1 at due ⊢
  split
  · exact ⟨due.1.trans (replyPending_acts i (by decide) _ _), due.2.trans (.replyPending _ _ _)⟩
  · exact due

theorem tnSlotCheckRecvTimeouts_owing {P : Label → Prop} (w : World)
    (ho : ∀ i, Late w i → (i, .write) ∈ t.owes) :
    Acts P (abs t w) (abs t (tnSlotCheckRecvTimeouts w)) := by
  unfold tnSlotCheckRecvTimeouts
  generalize List.finRange 64 = l
  induction l generalizing w with
  | nil => exact .refl
  | cons i l ih =>
    have first := checkTimeoutsAt_owing (P := P) w i (ho i)
    refine first.1.trans (ih _ fun j late => ho j (late.before ?_ first.2.only.rest.ticks))
    by_cases here : j = i
    · subst here
      exact first.2.slot
    · rw [first.2.only.slots j here]
      exact .refl _

/-! ## lwIP's turn -/

/-- The timer fires: lwIP runs, then the timeouts are looked at. -/
theorem tick_owing {P : Label → Prop} {S : Set PcbId} (env : List Answer) (evs : List LwipEv)
    (hi : Idle t w S) (polls : ∀ p, .poll p ∈ evs → p ∈ S)
    (ho : ∀ i, Late (ticked w) i → (i, .write) ∈ t.owes) (hP : ∀ l, Cb w l → P l) :
    Acts P (abs t w) (abs t (tnSlotCheckRecvTimeouts (runEvs { ticked w with env := env } evs))) := by
  have idle : Idle t { ticked w with env := env } S :=
    ⟨hi.conn, hi.ent, hi.joined, hi.dying, hi.free, hi.poll⟩
  have burst : Acts P (abs t w) (abs t (runEvs { ticked w with env := env } evs)) :=
    runEvs_acts (w := { ticked w with env := env }) evs hP idle polls
  have calm : Calm { ticked w with env := env } (runEvs { ticked w with env := env } evs) :=
    .runEvs evs
  refine burst.trans (tnSlotCheckRecvTimeouts_owing _ fun j late => ?_)
  cases live : (w.sockets j).inUse with
  | false => exact hi.free j .write live
  | true => exact ho j (late.before (calm.slots j live) calm.rest.ticks)

/-- A slot in use that has become ready in lwIP's turn has been signalled, unless it is ready for writing
and a send was parked in it whose pcb has been polled or whose timeout the timer has found passed. -/
theorem turn_wakes (hr : Reachable w) (ht : inp.isTurn = true) (hu : (w.sockets i).inUse = true)
    (hn : ready w i r = false) (hready : ready (step w inp) i r = true) :
    (r = .write ∧ EndsSend w inp i) ∨ Signalled w (step w inp) i r := by
  have sound := hr.abs_sound
  by_cases he : r = .write ∧ EndsSend w inp i
  · exact Or.inl he
  -- a wakeup is owed only for a free slot or a send that the turn may end
  · have unowed : (i, r) ∉ owedBy w inp := fun ho => ho.elim (fun hf => by rw [hu] at hf; cases hf) he
    have idle : ∀ w1 : World, w1.sockets = w.sockets → ∀ S : Set PcbId,
        (∀ p ∈ S, ∀ j, (w.sockets j).tcpPcb = some p → (w.sockets j).pending .send ≠ none →
          EndsSend w inp j) → Idle { restTok Set.univ with owes := owedBy w inp } w1 S := by
      intro w1 same S hS
      refine idle_owedBy w1 (fun j r hf => Or.inl (by rwa [same] at hf)) fun j p hp hj hs => ?_
      rw [same] at hj hs
      exact Or.inr ⟨rfl, hS p hp j hj hs⟩
    -- a burst and a tick are acts that owe no more than that
    have acts : Acts (fun _ => True) (abs { restTok Set.univ with owes := owedBy w inp } w)
        (abs { restTok Set.univ with owes := owedBy w inp } (step w inp)) := by
      cases inp with
      | lwip evs env =>
        exact runEvs_acts (w := { w with env := env }) (S := {p | LwipEv.poll p ∈ evs}) evs
          (fun _ _ => trivial)
          (idle { w with env := env } rfl _ fun p hp j hj hs => ⟨hs, .inl ⟨p, hj, hp⟩⟩) fun p hp => hp
      | tick evs env =>
        have free : Idle { restTok Set.univ with owes := owedBy w (.tick evs env) } w
            {p | LwipEv.poll p ∈ evs} :=
          idle w rfl _ fun p hp j hj hs => ⟨hs, .inl ⟨p, hj, hp⟩⟩
        have owed : ∀ j, Late (ticked w) j → (j, .write) ∈ owedBy w (.tick evs env) := fun j late =>
          Or.inr ⟨rfl, late.parked, .inr ⟨⟨evs, env, rfl⟩, late⟩⟩
        exact tick_owing (P := fun _ => True) env evs free (fun p hp => hp) owed fun _ _ => trivial
      | _ => cases ht
    -- acts that owe nothing wake who is ready
    refine Or.inr ((woken_of_acts sound acts unowed hready).resolve_left fun h => ?_)
    rw [hn] at h
    cases h

/-- Bytes arrive: the connection is signalled as readable. -/
theorem turn_wakes_fed : ready streamClient firstSlot .read = false ∧
    ready (fed [7, 8]) firstSlot .read = true ∧ Signalled streamClient (fed [7, 8]) firstSlot .read :=
  have woken : (Ready.read = .write ∧ EndsSend streamClient (.lwip [.recv 1 [7, 8]] []) firstSlot) ∨
      Signalled streamClient (step streamClient (.lwip [.recv 1 [7, 8]] [])) firstSlot .read :=
    turn_wakes streamClient_reach rfl (by decide) (by decide) (by decide)
  ⟨by decide, by decide, woken.resolve_left fun h => Ready.noConfusion h.1⟩

/-! ## The gap -/

/-- lwIP has no memory for a send, which is parked. -/
def starvedSend : World := step streamClient (.ipc 1 sendMsg [{ err := .mem }])

theorem starvedSend_reach : Reachable starvedSend :=
  streamClient_reach.request 1 sendMsg [{ err := .mem }] 1 (by decide) (by decide) rfl ⟨0, by decide⟩
    trivial

/-- The poll callback ends the send. The connection becomes writable, and nobody is signalled. -/
theorem starvedSend_unsignalled : Reachable (step starvedSend (.lwip [.poll 1] [])) ∧
    ready starvedSend firstSlot .write = false ∧
    ready (step starvedSend (.lwip [.poll 1] [])) firstSlot .write = true ∧
    ¬ Signalled starvedSend (step starvedSend (.lwip [.poll 1] [])) firstSlot .write := by
  refine ⟨.step starvedSend_reach trivial trivial, by decide, by decide, ?_⟩
  rintro ⟨new, he, e, hm, hw⟩
  have events : (step starvedSend (.lwip [.poll 1] [])).trace.filter Event.loud
      = [.reply 3 4 .ok, .sendEnd 3 .enobufs, .tcpWrite 1 3 [0, 1, 2, 3]]
        ++ starvedSend.trace.filter Event.loud := by decide
  obtain rfl := List.append_cancel_right (he.symm.trans events)
  simp only [List.mem_cons, List.not_mem_nil, or_false] at hm
  rcases hm with rfl | rfl | rfl <;> cases hw

end Tolunnet
