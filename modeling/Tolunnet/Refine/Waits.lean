import Tolunnet.Abstract.Waits
import Tolunnet.Refine.Deferred

/-!
# `Tolunnet.Refine.Waits`: a blocked call is blocked for a reason

A read that is parked on a stream waits for data: the queue is empty, the connection is open or
being made, and the reading side has not been shut down. A parked connect waits for the handshake, a
parked accept at a listener, and each of them has a live pcb whose callbacks will wake it.

`SHUTDOWN` is the exception. It answers a parked send, but a read or a connect that is parked when
the reading side is shut down, or when the connection is closed, stays where it is: data that
arrives later is discarded, and a pcb that has been closed calls nobody.
-/

set_option autoImplicit false

namespace Tolunnet

open World

variable {S : Set (SlotIdx × Pend)} {w : World} {i : SlotIdx} {inp : Input}

/-- Slot `i` holds a pcb that lwIP knows. -/
def Attached (w : World) (i : SlotIdx) : Prop :=
  ∃ p c, (w.sockets i).tcpPcb = some p ∧ w.tcpPcbs p = some c ∧ c.arg = .slot i

/-- The reason for which the request in a field of slot `i` waits. A parked send waits for room, and
the books of the sends say how far it is. -/
def Reason (w : World) (i : SlotIdx) : Pend → Prop
  | .recv => (w.sockets i).type = sockStream →
      (w.sockets i).rx = [] ∧ (w.sockets i).shutRd = false ∧ Attached w i ∧
        ((w.sockets i).tcpState = .connecting ∨ (w.sockets i).tcpState = .established)
  | .connect => (w.sockets i).tcpState = .connecting ∧ Attached w i
  | .accept => (w.sockets i).tcpState = .listening ∧ Attached w i
  | .send => True

/-- Every parked request that is not in `S` has a reason to wait. -/
def Waiting (S : Set (SlotIdx × Pend)) (w : World) : Prop :=
  ∀ i k m, (i, k) ∉ S → (w.sockets i).pending k = some m → Reason w i k

/-- `SHUTDOWN` strands only requests in `S`. -/
def Unstranded (S : Set (SlotIdx × Pend)) (w : World) (inp : Input) : Prop :=
  ∀ m x env i k, inp = .ipc m x env → Strands w x i k → (i, k) ∈ S

/-- A slot in use in one of the open states has a live pcb. -/
theorem attached_of_state (hs : (abs (restTok S) w).Sound) (hu : (w.sockets i).inUse = true)
    (hst : (w.sockets i).tcpState = .connecting ∨ (w.sockets i).tcpState = .established ∨
      (w.sockets i).tcpState = .listening) : Attached w i := by
  have slot := hs.disc.slots i
  cases hp : (w.sockets i).tcpPcb with
  | some p =>
    obtain ⟨v, hv, ha, -⟩ := slot.pcb p hp
    obtain ⟨c, hc, rfl⟩ := abs_pcb_some.mp hv
    exact ⟨p, c, hp, hc, ha⟩
  | none =>
    -- without a pcb the slot would be in another state
    have other : (w.sockets i).tcpState = .closed ∨ (w.sockets i).tcpState = .peerClosed ∨
        (w.sockets i).tcpState = .error := by
      rcases slot.noPcb hp with h | h | h | h | h
      · exact Or.inl h
      · exact Or.inr (Or.inl h)
      · exact Or.inr (Or.inr h)
      · exact absurd (hu.symm.trans h) Bool.noConfusion
      · cases h
    rcases hst with st | st | st <;> rw [st] at other <;> simp at other

/-- Reasons at rest, in the daemon's own terms. -/
theorem Waiting.of_reasoned (hs : (abs (restTok S) w).Sound) (h : (abs (restTok S) w).Reasoned) :
    Waiting S w := by
  intro i k m hn hp
  have waits : ((abs (restTok S) w).slot i).Waits k := (h i k m hp).resolve_left hn
  have inUse : (w.sockets i).inUse = true := by
    by_contra hu
    have free : ((abs (restTok S) w).slot i).inUse = false := Bool.eq_false_iff.mpr hu
    have none := ((hs.disc.slots i).free free).1 k
    rw [show ((abs (restTok S) w).slot i).pending k = some m from hp] at none
    cases none
  cases k with
  | recv =>
    intro stream
    obtain ⟨empty, st, shut⟩ := waits stream
    exact ⟨empty, shut, attached_of_state hs inUse (st.imp_right Or.inl), st⟩
  | connect =>
    have st : (w.sockets i).tcpState = .connecting := waits.1
    exact ⟨st, attached_of_state hs inUse (Or.inl st)⟩
  | accept =>
    have st : (w.sockets i).tcpState = .listening := waits
    exact ⟨st, attached_of_state hs inUse (Or.inr (Or.inr st))⟩
  | send => trivial

/-- Along every run, a parked request has a reason to wait unless `SHUTDOWN` has stranded it: `S`
may be any set of fields in which `SHUTDOWN` strands requests. It never strands an accept. -/
theorem unstranded_waiting (hr : Reach (Unstranded S) w) : Waiting S w := by
  -- the abstract invariant, carried through handlers and client steps
  have run := hr.invariant (S := S) (fun a => a.Reasoned) (fun i k m hp => by cases hp)
    (fun w inp hok _ _ _ => ⟨fun _ => True, grants_all hok, fun a a' hs hi ha => hi.act hs ha⟩)
    (fun w c _ _ hi => by
      obtain ⟨fd, dtab, he⟩ := abs_clientStep (restTok S) w c
      rw [he]
      exact hi)
  exact .of_reasoned run.1 run.2

/-! ## A client that reads -/

/-- The client reads from its connection. -/
def recvMsg : TnIpcMsg :=
  { cmd := .recv, socketBase := some 1, args := fun n => if n = 1 then 4 else 0,
    ptrs := fun _ => .mem fun _ => 0 }

/-- It waits for data. -/
def readingClient : World := step streamClient (.ipc 1 recvMsg [])

theorem unstranded_request {m : MsgId} {x : TnIpcMsg} {env : List Answer} (hc : x.cmd ≠ .shutdown) :
    Unstranded S w (.ipc m x env) := by
  rintro m x env i k he ⟨shutdown, -⟩
  cases he
  exact absurd shutdown hc

theorem readingClient_run : Reach (Unstranded S) readingClient := by
  have connected : Reach (Unstranded S) streamClient := streamClient_run fun w inp hc => by
    rintro m x env i k he ⟨shutdown, -⟩
    have cmd := hc m x env he
    rw [shutdown] at cmd
    simp at cmd
  exact connected.request 1 recvMsg [] 1 (by decide) (by decide) rfl ⟨0, by decide⟩
    (unstranded_request (by decide))

/-- Its read waits on an empty queue. -/
theorem unstranded_waiting_recv : (readingClient.sockets firstSlot).pending .recv = some 1 ∧
    Waiting ∅ readingClient :=
  ⟨by decide, unstranded_waiting readingClient_run⟩

/-- Another client with a copy of the connection. -/
def sharedStream : World :=
  [.ipc 1 releaseCopyMsg [], .client (.newBase 2 {}), .ipc 2 { cmd := .open, socketBase := some 2 } [],
    .ipc 2 obtainCopyMsg [], .ipc 1 recvMsg []].foldl step streamClient

theorem sharedStream_reach : Reachable sharedStream := by
  have released : Reachable _ := streamClient_reach.request 1 releaseCopyMsg [] 1 (by decide)
    (by decide) rfl ⟨0, by decide⟩ trivial
  have built : Reachable (step _ (.client (.newBase 2 {}))) :=
    .step released ⟨fun ⟨k, hk⟩ => by revert k; decide, fun _ => rfl⟩ trivial
  have second : Reachable (step _ (.ipc 2 { cmd := .open, socketBase := some 2 } [])) :=
    .step built ⟨by decide, fun pl => built.idle (by decide) pl 2, fun b hb =>
      Or.inr ⟨rfl, fun fd => by cases hb; rfl⟩⟩ trivial
  have obtained : Reachable _ := second.request 2 obtainCopyMsg [] 2 (by decide) (by decide) rfl
    ⟨1, by decide⟩ trivial
  have reading : Reachable _ := obtained.request 1 recvMsg [] 1 (by decide) (by decide) rfl
    ⟨0, by decide⟩ trivial
  exact reading

/-- It shuts down the reading side: the read of the first client goes on waiting. -/
theorem sharedStream_stranded :
    Reachable (step sharedStream (.ipc 2 { cmd := .shutdown, socketBase := some 2 } [])) ∧
      ¬ Waiting ∅ (step sharedStream (.ipc 2 { cmd := .shutdown, socketBase := some 2 } [])) := by
  refine ⟨.step sharedStream_reach ⟨by decide, sharedStream_reach.unheld (by decide), fun b hb =>
    Or.inl ⟨1, ?_⟩⟩ trivial, fun h => ?_⟩
  · cases hb
    decide
  · have waits := h firstSlot .recv 1 (fun h => h) (by decide) (by decide)
    exact absurd waits.2.1 (by decide)

end Tolunnet
