import Tolunnet.Desk.Steps
import Tolunnet.Refine.Closing

/-!
# `Tolunnet.Refine.Steps`: the abstract daemon simulates the daemon

Every step of the main loop is a run of acts from rest to rest (`step_acts`). Which marked acts the
run needs depends on the step: `Grants P S w inp` lists them, each with the condition under which
the code does what the mark says. So a run of the daemon whose steps avoid a condition is a run of
acts under a policy without that mark.

`Reach.invariant` is what later modules use: an invariant of the abstract daemon that the acts keep
holds in every state the daemon reaches.
-/

set_option autoImplicit false

namespace Tolunnet

open World Ledger

variable {P : Label → Prop} {S : Set (SlotIdx × Pend)} {w w' : World} {m : MsgId} {i : SlotIdx}
  {x : TnIpcMsg}

/-! ## When a request needs a mark -/

/-- The slot a request is about. -/
def slotOf (w : World) (x : TnIpcMsg) : Option SlotIdx := tnSlotLookup w x.socketBase (x.args 0)

/-- `ACCEPT` has to wait on slot `i`, where a request waits already. -/
def Overwrites (w : World) (x : TnIpcMsg) (i : SlotIdx) : Prop :=
  x.cmd = .accept ∧ slotOf w x = some i ∧ (w.sockets i).tcpState = .listening ∧
    (w.sockets i).acceptQ = [] ∧ (w.sockets i).isNonblocking = false ∧
    (w.sockets i).pending .accept ≠ none

/-- `DUP2` closes the last reference to the slot it is about to duplicate. -/
def Dangles (w : World) (x : TnIpcMsg) : Prop :=
  x.cmd = .dup2 ∧ ∃ i b, slotOf w x = some i ∧ x.socketBase = some b ∧
    (w.bases b).fdMap (x.args 1).toNat = some i ∧ (w.sockets i).refCount ≤ 1 ∧
    x.args 0 ≠ x.args 1 ∧ 0 ≤ x.args 1

/-- The flags of a send. -/
def sendFlags (x : TnIpcMsg) : Int := if x.cmd = .sendmsg then x.args 1 else x.args 2

/-- A send that must not wait. -/
def Hurried (w : World) (x : TnIpcMsg) : Prop :=
  (x.cmd = .send ∨ x.cmd = .sendto ∨ x.cmd = .sendmsg) ∧ ∃ i, slotOf w x = some i ∧
    ((w.sockets i).isNonblocking || hasFlag (sendFlags x) msgDontwait) = true

/-- `SHUTDOWN` takes away what the request parked in field `k` of slot `i` waits for. -/
def Strands (w : World) (x : TnIpcMsg) (i : SlotIdx) (k : Pend) : Prop :=
  x.cmd = .shutdown ∧ slotOf w x = some i ∧ (w.sockets i).type = sockStream ∧
    (w.sockets i).tcpState ≠ .listening ∧ (w.sockets i).pending k ≠ none ∧
    ((k = .recv ∧ (x.args 1 = 0 ∨ x.args 1 = 2)) ∨ (k = .connect ∧ x.args 1 = 2))

/-! ## The dispatcher -/

/-- A descriptor leads to the slot it names. -/
theorem Found.of_lookup (h : slotOf w (w.msgs m) = some i) : Found w m i := by
  refine ⟨tnSlotLookup_inUse h, ?_, fun b hb => ?_⟩
  all_goals unfold slotOf tnSlotLookup at h
  · split at h
    · cases h
    · split at h
      · cases h
      · omega
  · rw [hb] at h
    dsimp only at h
    split at h
    · cases h
    · split at h
      · cases h
      · rename_i j hj
        split at h
        · cases h
          exact hj
        · cases h

/-- What the handler of request `m` may rely on, and what its policy allows. -/
structure Granted (P : Label → Prop) (S : Set (SlotIdx × Pend)) (w : World) (m : MsgId) : Prop where
  permits : Permits P w
  drop : (w.msgs m).cmd = .open ∨ (w.msgs m).cmd = .stop → Deadly w → ∀ m, P (.drop m)
  overwrite : ∀ i, Overwrites w (w.msgs m) i → P (.overwrite i)
  dangle : Dangles w (w.msgs m) → P .dangle
  short : Hurried w (w.msgs m) → P (.short (w.callOf m))
  strand : ∀ i k, Strands w (w.msgs m) i k → (i, k) ∈ S
  base : ∀ b, (w.msgs m).socketBase = some b →
    registered w b ∨ ((w.msgs m).cmd = .open ∧ ∀ n, (w.bases b).fdMap n = none)
  last : w.callOf m + 1 = w.calls

/-- Nothing is in hand between two steps. Every wakeup may be due then, and the parked requests in
`S` may have to be looked at. -/
def restTok (S : Set (SlotIdx × Pend)) : Tok := { owes := Set.univ, serve := S }

theorem restTok_lax (S : Set (SlotIdx × Pend)) : Lax (restTok S) := ⟨rfl, rfl, rfl, rfl, rfl⟩

namespace Granted

theorem registered (hg : Granted P S w m) (hc : (w.msgs m).cmd ≠ .open) {b : BaseId}
    (hb : (w.msgs m).socketBase = some b) : Tolunnet.registered w b :=
  (hg.base b hb).resolve_right fun h => hc h.1

/-- A handler that is called without a slot. -/
theorem handler_none (hg : Granted P S w m) (hn : needsFd (w.msgs m).cmd = false) :
    Settled P (restTok S) w m (handler w m none) := by
  have lax := restTok_lax S
  have hP := hg.permits
  unfold handler
  cases hc : (w.msgs m).cmd <;> rw [hc] at hn <;> cases hn
  · exact (tnIpcCmdOpen_carried hP (hg.drop (Or.inl hc)) rfl lax rfl fun b hb =>
      (hg.base b hb).imp_right And.right).settled rfl
  · exact (tnIpcCmdClose_carried hP rfl lax rfl).settled rfl
  · exact (tnIpcCmdSocket_carried hP lax fun b hb => hg.registered (by simp [hc]) hb).settled rfl
  · exact (tnIpcCmdGethostbyname_carried rfl).settled rfl
  · exact (Carried.refuse _).settled rfl
  · exact tnIpcCmdWaitselect_carried.settled rfl
  · exact replyByAnswer_carried.settled rfl
  · exact (tnIpcCmdReconfig_carried rfl).settled rfl
  · exact tnIpcCmdEnumsockets_carried.settled rfl
  · exact (tnIpcCmdObtainsocket_carried fun b hb => hg.registered (by simp [hc]) hb).settled rfl
  · exact tnIpcCmdSelectArm_carried.settled rfl
  · exact tnIpcCmdSelectDisarm_carried.settled rfl
  · exact replyByAnswer_carried.settled rfl
  · exact replyByAnswer_carried.settled rfl
  · exact (tnIpcCmdIfctl_carried hP lax).settled rfl
  · exact (tnIpcCmdStop_carried hP (hg.drop (Or.inr hc)) rfl lax rfl).settled rfl
  · exact (tnIpcCmdCancel_carried lax).settled rfl
  · exact tnIpcCmdSyslog_carried.settled rfl
  · exact (Carried.refuse _).settled rfl

/-- A handler that is called with the slot of a descriptor. -/
theorem handler_some (hg : Granted P S w m) (hl : slotOf w (w.msgs m) = some i)
    (hbase : (w.msgs m).socketBase ≠ none) (hn : needsFd (w.msgs m).cmd = true) :
    Settled P (restTok S) w m (handler w m (some i)) := by
  have lax := restTok_lax S
  have hP := hg.permits
  have found : ∀ j, some i = some j → Found w m j := fun j hj =>
    Option.some.inj hj ▸ Found.of_lookup hl
  have inUse : ∀ j, some i = some j → (w.sockets j).inUse = true := fun j hj => (found j hj).inUse
  have lookup : ∀ j, some i = some j → slotOf w (w.msgs m) = some j := fun j hj => hj ▸ hl
  have seen : ∀ j k, (Strands w (w.msgs m) j k ∨ (w.sockets j).pending k = none) →
      Seen (restTok S) w j k := fun j k => Or.imp_left (hg.strand j k)
  unfold handler
  cases hc : (w.msgs m).cmd <;> rw [hc] at hn <;> cases hn
  · exact (tnIpcCmdBind_carried _).settled rfl
  · exact (tnIpcCmdListen_carried hP rfl lax inUse).settled rfl
  · obtain ⟨b, hb⟩ := Option.ne_none_iff_exists'.mp hbase
    have isOpen : Tolunnet.registered w ((w.msgs m).socketBase.getD 0) := by
      rw [hb]
      exact hg.registered (by simp [hc]) hb
    refine (tnIpcCmdAccept_carried hP rfl lax inUse isOpen fun j hj h1 h2 h3 => ?_).settled rfl
    by_cases hp : (w.sockets j).pending .accept = none
    · exact Or.inl hp
    · exact Or.inr (hg.overwrite j ⟨hc, lookup j hj, h1, h2, h3, hp⟩)
  · exact (tnIpcCmdConnect_carried hP rfl lax inUse).settled rfl
  · exact tnIpcCmdSendto_settled hP lax rfl rfl inUse hg.last fun j hj h =>
      hg.short ⟨Or.inr (Or.inl hc), j, lookup j hj, by simpa [sendFlags, hc] using h⟩
  · exact tnIpcCmdSend_settled hP lax rfl rfl inUse hg.last fun j hj h =>
      hg.short ⟨Or.inl hc, j, lookup j hj, by simpa [sendFlags, hc] using h⟩
  · exact (RecvEnds.carried rfl (inUse i rfl) tnIpcCmdRecvfrom_ends).settled rfl
  · exact (RecvEnds.carried rfl (inUse i rfl) tnIpcCmdRecv_ends).settled rfl
  · refine (tnIpcCmdShutdown_carried rfl lax inUse (fun j hj h1 h2 h3 => seen j _ ?_)
      fun j hj h1 h2 h3 => seen j _ ?_).settled rfl
    · exact (em _).symm.imp_left fun hp => ⟨hc, lookup j hj, h1, h2, hp, Or.inl ⟨rfl, h3⟩⟩
    · exact (em _).symm.imp_left fun hp => ⟨hc, lookup j hj, h1, h2, hp, Or.inr ⟨rfl, h3⟩⟩
  · exact (tnIpcCmdSetsockopt_carried _).settled rfl
  · exact (tnIpcCmdGetsockopt_carried _).settled rfl
  · exact (tnIpcCmdGetsockname_carried _).settled rfl
  · exact (tnIpcCmdGetpeername_carried _).settled rfl
  · exact (tnIpcCmdIoctl_carried hP _).settled rfl
  · exact (tnIpcCmdClosesocket_carried hP rfl lax found).settled rfl
  · refine (tnIpcCmdDup2_carried hP rfl lax found (fun b hb => hg.registered (by simp [hc]) hb)
      fun j b hj hb h1 h2 h3 h4 => ?_).settled rfl
    exact hg.dangle ⟨hc, j, b, lookup j hj, hb, h1, h2, h3, h4⟩
  · exact tnIpcCmdSendmsg_settled hP lax rfl rfl inUse hg.last fun j hj h =>
      hg.short ⟨Or.inr (Or.inr hc), j, lookup j hj, by simpa [sendFlags, hc] using h⟩
  · exact (RecvEnds.carried rfl (inUse i rfl) tnIpcCmdRecvmsg_ends).settled rfl
  · exact (tnIpcCmdReleasesocket_carried rfl found).settled rfl

end Granted

/-- The checks of the dispatcher and the handler they lead to. -/
theorem handleMsg_acts {env : List Answer} (hg : Granted P S (presented w m x env) m) :
    Acts P (abs ((restTok S).pickUp m) (presented w m x env))
      (abs (restTok S) (handleMsg { receive w m x with env := env } m)) := by
  have msg : (presented w m x env).msgs m = { x with result := 0, errNo := .ok } := presented_msg
  have cmd : ((presented w m x env).msgs m).cmd = x.cmd := by rw [msg]
  have refuse : ∀ e, Settled P (restTok S) (presented w m x env) m
      (fail (presented w m x env) m e) := fun e => (Carried.refuse e).settled rfl
  have settled : Settled P (restTok S) (presented w m x env) m
      (tnHandleIpc { receive w m x with env := env } m) := by
    rw [tnHandleIpc_presented]
    split
    · exact refuse _
    · split
      · exact refuse _
      · rename_i hbase
        split
        · rename_i hn
          split
          · exact refuse _
          · rename_i i hl
            refine hg.handler_some ?_ ?_ (by rw [cmd]; exact hn)
            · rw [slotOf, msg]
              exact hl
            · rw [msg]
              intro hb
              -- every command with a descriptor needs a base as well
              refine hbase ⟨?_, hb⟩
              revert hn
              cases x.cmd <;> simp [needsFd, needsBase]
        · rename_i hn
          exact hg.handler_none (by rw [cmd]; simpa using hn)
  have same : handleMsg { receive w m x with env := env } m
      = finish m (tnHandleIpc { receive w m x with env := env } m) := by
    unfold handleMsg finish
    rfl
  rw [same]
  exact settled

/-! ## Steps -/

/-- The steps that may call the reaper. -/
def Input.reaps : Input → Bool
  | .ipc _ x _ => x.cmd == .open || x.cmd == .stop
  | .ctrlC _ | .shutdown _ => true
  | _ => false

/-- What a policy must allow for a step. -/
structure Grants (P : Label → Prop) (S : Set (SlotIdx × Pend)) (w : World) (inp : Input) : Prop where
  alter : P .alter
  clear : ∀ i, P (.clear i)
  stray : ∀ b, Strayed w b → P (.stray b)
  drop : inp.reaps = true → Deadly w → ∀ m, P (.drop m)
  overwrite : ∀ m x env i, inp = .ipc m x env → Overwrites w x i → P (.overwrite i)
  dangle : ∀ m x env, inp = .ipc m x env → Dangles w x → P .dangle
  short : ∀ m x env, inp = .ipc m x env → Hurried w x → P (.short w.calls)
  strand : ∀ m x env i k, inp = .ipc m x env → Strands w x i k → (i, k) ∈ S

namespace Grants

variable {inp : Input}

theorem permits (hg : Grants P S w inp) : Permits P w := ⟨hg.alter, hg.clear, hg.stray⟩

/-- The handler of a message that has just arrived may rely on what the step may rely on. -/
theorem granted {env : List Answer} (hg : Grants P S w (.ipc m x env))
    (ha : Admissible w (.ipc m x env)) : Granted P S (presented w m x env) m := by
  obtain ⟨-, hheld, hbase⟩ := ha
  have msg : (presented w m x env).msgs m = { x with result := 0, errNo := .ok } := presented_msg
  have other : ∀ m', m' ≠ m → (presented w m x env).msgs m' = w.msgs m' := fun m' hm => by
    simp [presented, setReply, modMsg, receive, hm]
  have callOf : (presented w m x env).callOf m = w.calls := by
    simp [presented, setReply, modMsg, receive]
  refine ⟨⟨hg.alter, hg.clear, fun b hb => ?_⟩, ?_, ?_, ?_, ?_, ?_, ?_, ?_⟩
  · obtain ⟨i, m', hp, hb, hr⟩ := hb
    have hm : m' ≠ m := fun he => hheld (.slot i .accept) (he ▸ hp)
    rw [other m' hm] at hb
    exact hg.stray b ⟨i, m', hp, hb, hr⟩
  · rw [msg]
    intro hc hd
    refine hg.drop ?_ hd
    show (x.cmd == .open || x.cmd == .stop) = true
    simpa using hc
  · rw [msg]
    exact fun i ho => hg.overwrite m x env i rfl ho
  · rw [msg]
    exact fun hd => hg.dangle m x env rfl hd
  · rw [msg, callOf]
    exact fun hs => hg.short m x env rfl hs
  · rw [msg]
    exact fun i k hs => hg.strand m x env i k rfl hs
  · rw [msg]
    exact hbase
  · rw [callOf]
    rfl

end Grants

theorem ctrlC_acts (ha : P .alter) (hc : ∀ i, P (.clear i)) (hl : Deadly w → ∀ m, P (.drop m)) :
    Acts P (abs (restTok S) w) (abs (restTok S) (ctrlC w)) := by
  have reaped := tnReapDeadClients_acts (P := P) ha hc hl rfl (restTok_lax S) rfl
  unfold ctrlC
  dsimp only
  split
  · generalize tnReapDeadClients w = w1 at reaped
    split
    · exact reaped
    · exact reaped
  · exact .refl

theorem shutdownAttempt_acts (ha : P .alter) (hc : ∀ i, P (.clear i))
    (hl : Deadly w → ∀ m, P (.drop m)) :
    Acts P (abs (restTok S) w) (abs (restTok S) (shutdownAttempt w)) := by
  have reaped : Acts P (abs (restTok S) w)
      (abs (restTok S) (tnReapDeadClients { w with stopping := true })) :=
    tnReapDeadClients_acts (w := { w with stopping := true }) ha hc hl rfl (restTok_lax S) rfl
  unfold shutdownAttempt
  dsimp only
  generalize tnReapDeadClients { w with stopping := true } = w1 at reaped
  split
  · split
    · rename_i m hm
      refine reaped.trans (Acts.one (.msg (.answerStop (abs (restTok S) w1) m (-1) .ebusy hm)) ?_)
      show { abs (restTok S) (World.answerMsg { w1 with stopping := false, running := true } m (-1)
        .ebusy) with stop := none } = _
      rw [abs_answerMsg]
      rfl
    · exact reaped
  · exact reaped

/-- A message arrives. -/
theorem receive_acts (ha : P .alter) (hheld : ∀ pl, heldMsg w pl ≠ some m) (env : List Answer) :
    Acts P (abs (restTok S) w) (abs ((restTok S).pickUp m) (presented w m x env)) := by
  refine Acts.one (.msg (.receive (abs (restTok S) w) m x.view (by simp [restTok]) ?_ rfl ha)) ?_
  · intro pl
    rw [abs_held]
    exact hheld pl
  · unfold presented
    rw [abs_setReply]
    show abs ((restTok S).pickUp m) (receive w m x) = _
    unfold abs receive
    congr 1
    funext m'
    by_cases hm : m' = m
    · subst hm
      simp
    · simp [hm]

/-- A burst of lwIP. -/
theorem lwip_acts (hP : Permits P w) (evs : List LwipEv) :
    Acts P (abs (restTok S) w) (abs (restTok S) (runEvs w evs)) :=
  runEvs_acts evs hP.cb ((restTok_lax S).idle w) fun _ _ => trivial

/-- A policy permits the same when only the environment or the clock is another. -/
theorem Permits.moved (h : Permits P w) (env : List Answer) (n : Nat) :
    Permits P { w with env := env, mainloopTicks := n } := ⟨h.alter, h.clear, h.stray⟩

/-- Every step of the daemon is a run of acts that its policy allows. -/
theorem step_acts {inp : Input} (hg : Grants P S w inp) (ha : Admissible w inp)
    (hc : ∀ c, inp ≠ .client c) :
    Acts P (abs (restTok S) w) (abs (restTok S) (step w inp)) := by
  cases inp with
  | ipc m x env => exact (receive_acts hg.alter ha.2.1 env).trans (handleMsg_acts (hg.granted ha))
  | lwip evs env => exact lwip_acts (hg.permits.moved env w.mainloopTicks) evs
  | tick evs env =>
    have burst := lwip_acts (S := S) (hg.permits.moved env ((w.mainloopTicks + 1) % 2 ^ 32)) evs
    exact Relation.ReflTransGen.trans burst (tnSlotCheckRecvTimeouts_acts (restTok_lax S))
  | ctrlC env => exact ctrlC_acts (w := { w with env := env }) hg.alter hg.clear (hg.drop rfl)
  | shutdown env =>
    exact shutdownAttempt_acts (w := { w with env := env }) hg.alter hg.clear (hg.drop rfl)
  | client c => exact absurd rfl (hc c)

/-! ## Runs -/

/-- Soundness does not look at the descriptor tables. -/
theorem Abs.Sound.tables {a : Abs} (h : a.Sound) (fd : BaseId → Nat → Option SlotIdx)
    (dtab : BaseId → Nat) : ({ a with fd := fd, dtab := dtab } : Abs).Sound where
  disc := h.disc.congr_rest rfl rfl rfl rfl ⟨rfl, rfl, rfl, rfl⟩
    (h.disc.sending_rest rfl rfl (fun s hs => (h.disc.sending s hs).hand) rfl rfl) fun _ _ hf => hf
  once := h.once
  sends := { h.sends with }

/-- A client touches nothing but its own table. -/
theorem abs_clientStep (t : Tok) (w : World) (c : ClientStep) :
    ∃ fd dtab, abs t (clientStep w c) = { abs t w with fd := fd, dtab := dtab } := by
  cases c <;> exact ⟨_, _, rfl⟩

/-- No request is anywhere at the start. -/
theorem init_nowhere (S : Set (SlotIdx × Pend)) (m : MsgId) :
    ¬ (abs (restTok S) tnSlotTableInit).books.Has m := by
  rintro (h | ⟨pl, h⟩)
  · cases h
  · cases pl <;> cases h

/-- The daemon starts with nothing. -/
theorem sound_rest (S : Set (SlotIdx × Pend)) : (abs (restTok S) tnSlotTableInit).Sound where
  disc :=
    { slots := fun i =>
        { free := fun _ => ⟨fun _ => rfl, rfl, rfl, rfl, rfl, rfl⟩
          pcb := fun p hp => (by cases hp)
          stream := fun h => (by cases h)
          noPcb := fun _ => Or.inl rfl
          queue := fun h => absurd rfl h
          rx := fun h => absurd rfl h
          connect := fun h => absurd rfl h
          send := fun h => absurd rfl h
          dgram := fun h => (by rcases h with h | h <;> cases h)
          udp := fun p => ⟨fun h => (by cases h), fun h => (by cases h)⟩
          raw := fun p => ⟨fun h => (by cases h), fun h => (by cases h)⟩ }
      entries :=
        { queued := fun i x hx => (by cases hx)
          inHand := fun x hx => (by cases hx)
          nodup := fun _ => List.nodup_nil
          apart := fun i j x hx => (by cases hx) }
      owned := fun p c hc => (by cases hc)
      conn := fun p hp => (by cases hp)
      sending := fun s hs => (by cases hs)
      dying := fun i hi => (by cases hi)
      faults := fun p op hf => (by cases hf) }
  once :=
    { apart := fun pl pl' m h => (by cases pl <;> cases h)
      nodup := List.nodup_nil
      out := fun m hm => (by cases hm)
      known := fun m h => absurd h (init_nowhere S m)
      inj := fun m _ h => absurd h (init_nowhere S m)
      unanswered := fun _ _ h => (by cases h)
      past := fun c hc => (by cases hc)
      once := List.nodup_nil }
  sends :=
    { past := fun c pl h => (by cases h)
      unique := fun c pl pl' h => (by cases h)
      fresh := fun _ _ => rfl
      plain := fun m hm => (by cases hm)
      elsewhere := fun pl m h => (by cases pl <;> cases h)
      parked := fun i m h => (by cases h)
      inHand := fun s hs => (by cases hs)
      all := fun c pl h => (by cases h)
      order := fun _ => List.Pairwise.nil
      turn := fun i m p h => (by cases h)
      known := fun p c hc => (by cases hc) }

/-- An invariant of the abstract daemon holds in every state that the daemon reaches when it holds
at the start, every act that a step needs keeps it, and the clients keep it. -/
theorem Reach.invariant {ok : World → Input → Prop} (I : Abs → Prop)
    (hinit : I (abs (restTok S) tnSlotTableInit))
    (hstep : ∀ w inp, ok w inp → Admissible w inp → (abs (restTok S) w).Sound →
      I (abs (restTok S) w) → ∃ P, Grants P S w inp ∧
        ∀ a a', a.Sound → I a → Act P a a' → I a')
    (hclient : ∀ w c, ok w (.client c) → Admissible w (.client c) → I (abs (restTok S) w) →
      I (abs (restTok S) (clientStep w c)))
    (hr : Reach ok w) : (abs (restTok S) w).Sound ∧ I (abs (restTok S) w) := by
  induction hr with
  | init => exact ⟨sound_rest S, hinit⟩
  | @step w inp _ ha hok ih =>
    by_cases hc : ∃ c, inp = .client c
    · obtain ⟨c, rfl⟩ := hc
      refine ⟨?_, hclient w c hok ha ih.2⟩
      obtain ⟨fd, dtab, he⟩ := abs_clientStep (restTok S) w c
      show (abs (restTok S) (clientStep w c)).Sound
      rw [he]
      exact ih.1.tables fd dtab
    · obtain ⟨P, hg, hkeep⟩ := hstep w inp hok ha ih.1 ih.2
      exact Acts.induct hkeep ih.1 ih.2 (step_acts hg ha fun c he => hc ⟨c, he⟩)

/-- A policy that allows everything. -/
theorem grants_all {inp : Input} (hs : ∀ m x env i k, inp = .ipc m x env → Strands w x i k →
    (i, k) ∈ S) : Grants (fun _ => True) S w inp :=
  ⟨trivial, fun _ => trivial, fun _ _ => trivial, fun _ _ _ => trivial, fun _ _ _ _ _ _ => trivial,
    fun _ _ _ _ _ => trivial, fun _ _ _ _ _ => trivial, hs⟩

/-- Every state that the daemon reaches is sound. -/
theorem Reach.abs_sound {ok : World → Input → Prop} (hr : Reach ok w) :
    (abs (restTok Set.univ) w).Sound :=
  (Reach.invariant (fun _ => True) trivial
    (fun _ _ _ _ _ _ => ⟨fun _ => True, grants_all fun _ _ _ _ _ _ _ => Set.mem_univ _,
      fun _ _ _ _ _ => trivial⟩)
    (fun _ _ _ _ _ => trivial) hr).1

end Tolunnet
