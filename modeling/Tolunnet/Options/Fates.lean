import Tolunnet.Options.Births
import Tolunnet.Options.Drains

/-!
# `Tolunnet.Options.Fates`: what a step leaves of an option

A slot that is in use after a step has one of five fates (`step_fate`). It was in use and upholds the
option; it takes a connection that lwIP brings, or one that was queued; it is a new socket; or the
step has set the option.
-/

set_option autoImplicit false

namespace Tolunnet

open World

variable {o : SockOpt} {w w' u : World} {inp : Input} {i : SlotIdx} {m : MsgId} {x : TnIpcMsg}
  {env : List Answer} {S : Set SlotIdx} {P : Set PcbId}

/-- The requests during which lwIP works through its loopback queue. -/
def drains : TnIpcCmd → Bool
  | .connect | .send | .sendto | .sendmsg => true
  | _ => false

/-- The actions of lwIP in a step. -/
def Input.Brings : Input → LwipEv → Prop
  | .lwip evs _ => fun ev => ev ∈ evs
  | .tick evs _ => fun ev => ev ∈ evs
  | .ipc _ x env => fun ev => drains x.cmd = true ∧ Drained env ev
  | _ => fun _ => False

/-- What has become of option `o` of slot `i`, which is in use after the step `inp`. -/
inductive Fate (o : SockOpt) (w : World) (inp : Input) (w' : World) (i : SlotIdx) : Prop where
  | steady (before : (w.sockets i).inUse = true) (h : Upholds o (Reported o inp.Brings) w w' i)
  | incoming {k : SlotIdx} {c : TcpPcb} (free : (w.sockets i).inUse = false)
      (src : Source inp.Brings w k c) (born : Born o (w.sockets k).opts (acceptedPcb c) w' i)
  | accepted {m : MsgId} {x : TnIpcMsg} {env : List Answer} {k : SlotIdx} {ent : TnAcceptEntry}
      {rest : List TnAcceptEntry} {p : PcbId} {c : TcpPcb} (hi : inp = .ipc m x env)
      (hx : x.cmd = .accept) (hk : slotOf w x = some k) (hq : (w.sockets k).acceptQ = ent :: rest)
      (hp : ent.newPcb = some p) (hc : w.tcpPcbs p = some c) (free : (w.sockets i).inUse = false)
      (born : Born o (w.sockets k).opts { c with nagleOff := true } w' i)
  | opened {m : MsgId} {x : TnIpcMsg} {env : List Answer} (hi : inp = .ipc m x env)
      (hx : x.cmd = .socket) (free : (w.sockets i).inUse = false) (first : freeSlot? w = some i)
      (fresh : Fresh w' i (x.args 1))
  | set {m : MsgId} {x : TnIpcMsg} {env : List Answer} {f : Mem} {u v : World}
      (hi : inp = .ipc m x env) (hx : x.cmd = .setsockopt) (hk : slotOf w x = some i)
      (hf : x.ptrs 0 = .mem f) (ho : sockOpt (w.sockets i).type (x.args 1) (x.args 2) = .ok o)
      (ha : applySockopt (presented w m x env) i o f (x.args 3) = (.ok u, v))
      (hd : tnIpcCmdSetsockopt (presented w m x env) m (some i) = done u m 0 .ok)
      (hw : stored w' = stored u) (before : (w.sockets i).inUse = true)

/-! ## Fates -/

namespace Fate

theorem of_steady (h : Steady o (Reported o inp.Brings) w w' i)
    (hu : (w'.sockets i).inUse = true) : Fate o w inp w' i :=
  .steady (h hu).1 (h hu).2

theorem of_keeps (h : (w.sockets i).inUse = true ∧ Keeps o (Reported o inp.Brings) w w' i) :
    Fate o w inp w' i := .steady h.1 h.2.upholds

theorem of_rides (h : Rides o inp.Brings w w') (hu : (w'.sockets i).inUse = true) :
    Fate o w inp w' i := by
  rcases h.slots i hu with kept | ⟨free, k, c, src, born⟩
  · exact .of_keeps kept
  · exact .incoming free src born

/-- Statements that assign nothing to slots and pcbs. -/
theorem same (h : Fate o w inp u i) (hs : stored w' = stored u) (hu : (w'.sockets i).inUse = true) :
    Fate o w inp w' i := by
  have stays : ∀ o, Stays o u w' := fun _ => .same hs
  have kept : Keeps o (fun _ => False) u w' i := .of_stays (stays o) hu
  cases h with
  | steady before h => exact .steady before (h.same hs)
  | incoming free src born => exact .incoming free src (born.keeps kept fun _ h => h.elim)
  | accepted hi hx hk hq hp hc free born =>
    exact .accepted hi hx hk hq hp hc free (born.keeps kept fun _ h => h.elim)
  | opened hi hx free first fresh => exact .opened hi hx free first (fresh.stays stays hu)
  | set hi hx hk hf ho ha hd hw before => exact .set hi hx hk hf ho ha hd (hs.trans hw) before

end Fate

/-- More actions of lwIP may happen. -/
theorem Rides.mono {E E' : LwipEv → Prop} (h : Rides o E w w') (hE : ∀ ev, E ev → E' ev) :
    Rides o E' w w' := by
  refine ⟨h.awake, fun i hu => ?_⟩
  rcases h.slots i hu with ⟨before, keeps⟩ | ⟨free, k, c, src, born⟩
  · refine .inl ⟨before, keeps.opts, fun p c' hp hc' => ?_, keeps.udp, keeps.raw⟩
    obtain ⟨held, c, hc, listen, field⟩ := keeps.tcp p c' hp hc'
    exact ⟨held, c, hc, listen, field.imp_right fun on => ⟨⟨on.1.1, hE _ on.1.2⟩, on.2⟩⟩
  · obtain ⟨l, hl, hc, p, ip, port, ev⟩ := src.pcb
    exact .inr ⟨free, k, c, ⟨src.inUse, src.listen, l, hl, hc, p, ip, port, hE _ ev⟩, born⟩

/-! ## Requests -/

/-- The requests that touch an option or let lwIP work. -/
def touches : TnIpcCmd → Bool
  | .socket | .accept | .listen | .bind | .setsockopt | .connect | .send | .sendto | .sendmsg => true
  | _ => false

/-- All other handlers leave all options alone. -/
theorem Tends.handler (hc : touches (w.msgs m).cmd = false) (slot : Option SlotIdx) :
    Tends o S P w (handler w m slot).1 := by
  unfold Tolunnet.handler
  cases h : (w.msgs m).cmd <;> rw [h] at hc <;> cases hc
  all_goals dsimp only
  all_goals first
    | exact Loose.tnIpcCmdOpen loose
    | exact Loose.tnIpcCmdClose loose
    | exact Loose.tnIpcCmdStop loose
    | exact Loose.tnIpcCmdClosesocket loose slot
    | exact Loose.tnIpcCmdDup2 loose slot
    | exact Loose.tnIpcCmdReleasesocket loose slot
    | exact Routine.tnIpcCmdRecvfrom routine slot
    | exact Routine.tnIpcCmdRecv routine slot
    | exact Routine.tnIpcCmdRecvmsg routine slot
    | exact Callbacks.tnIpcCmdShutdown callbacks slot
    | exact Stock.tnIpcCmdGetsockopt stock slot
    | exact Stock.tnIpcCmdGetsockname stock slot
    | exact Stock.tnIpcCmdGetpeername stock slot
    | exact Stock.tnIpcCmdIoctl stock slot
    | exact Routine.tnIpcCmdGethostbyname routine
    | exact Stock.tnIpcCmdWaitselect stock
    | exact Stock.tnIpcCmdReconfig stock
    | exact Stock.tnIpcCmdEnumsockets stock
    | exact Stock.tnIpcCmdSelectArm stock
    | exact Stock.tnIpcCmdSelectDisarm stock
    | exact Callbacks.tnIpcCmdIfctl callbacks
    | exact Routine.tnIpcCmdCancel routine
    | exact Stock.tnIpcCmdSyslog stock
    | exact Routine.tnIpcCmdObtainsocket routine fun b fd _ _ _ => setFd b fd _
    | exact Stock.replyByAnswer stock
    | exact refuse _

/-- A handler that is called with the slot of a descriptor, after the message has arrived. -/
theorem handler_some_fate {k : SlotIdx}
    (hs : (abs ((restTok Set.univ).pickUp m) (presented w m x env)).Sound)
    (hk : slotOf w x = some k) (hn : needsFd x.cmd = true)
    (hu : ((handler (presented w m x env) m (some k)).1.sockets i).inUse = true) :
    Fate o w (.ipc m x env) (handler (presented w m x env) m (some k)).1 i := by
  have lax := restTok_lax Set.univ
  have kinds : Kinds (presented w m x env) := .of_sound hs (lax.pickUp m)
  have msg : (presented w m x env).msgs m = { x with result := 0, errNo := .ok } := presented_msg
  have arrived : stored (presented w m x env) = stored w := rfl
  have inUse : ((presented w m x env).sockets k).inUse = true := tnSlotLookup_inUse hk
  have last : (presented w m x env).callOf m + 1 = (presented w m x env).calls := by
    simp [presented, setReply, modMsg, receive]
  have envs : (presented w m x env).env <:+ env := List.suffix_rfl
  by_cases ht : touches x.cmd = false
  · have stays : Stays o (presented w m x env) (handler (presented w m x env) m (some k)).1 :=
      .handler (by rw [msg]; exact ht) _
    exact .of_steady ((Steady.of_stays stays).of_same arrived) hu
  · -- the requests that let lwIP work
    have walked : ∀ {w' : World}, drains x.cmd = true →
        Walk o (Drained env) (presented w m x env) w' → (w'.sockets i).inUse = true →
          Fate o w (.ipc m x env) w' i := by
      intro w' hd walk hu
      have whole : Walk o (Drained env) w w' := (Walk.refl.same arrived).trans walk
      exact .of_rides (whole.rides.mono fun ev hev => ⟨hd, hev⟩) hu
    have left : ∀ {N : PcbId → Prop} {w' : World}, Keeps o N (presented w m x env) w' i →
        Keeps o N w w' i := fun h => ⟨h.opts, h.tcp, h.udp, h.raw⟩
    unfold handler at hu ⊢
    cases hc : x.cmd <;> rw [hc] at ht hn <;> first | exact absurd rfl ht | cases hn
    all_goals rw [show ((presented w m x env).msgs m).cmd = x.cmd by rw [msg], hc] at hu ⊢
    all_goals dsimp only at hu ⊢
    · exact .of_steady ((tnIpcCmdBind_steady kinds).of_same arrived) hu
    · exact .of_steady ((tnIpcCmdListen_steady kinds).of_same arrived) hu
    · rcases tnIpcCmdAccept_fate (o := o) (N := Reported o (Input.Brings (.ipc m x env))) hs kinds
        inUse hu with kept | ⟨free, ent, rest, p, c, hq, hp, hc', born⟩
      · exact .of_keeps ⟨kept.1, left kept.2⟩
      · exact .accepted rfl hc hk hq hp hc' free born
    · exact walked (by rw [hc]; rfl) (tnIpcCmdConnect_walk hs lax rfl envs inUse) hu
    · exact walked (by rw [hc]; rfl) (tnIpcCmdSendto_walk hs lax rfl rfl envs inUse last) hu
    · exact walked (by rw [hc]; rfl) (tnIpcCmdSend_walk hs lax rfl rfl envs inUse last) hu
    · rcases tnIpcCmdSetsockopt_fate (o := o) (x := i) (i := k) (m := m)
        (N := Reported o (Input.Brings (.ipc m x env))) kinds with steady | ⟨hik, set⟩
      · exact .of_steady (steady.of_same arrived) hu
      · subst hik
        obtain ⟨f, u, v, hf, ho, ha, hd⟩ := set
        rw [msg] at hf ho ha
        exact .set rfl hc hk hf ho ha hd (by rw [hd]; rfl) inUse
    · exact walked (by rw [hc]; rfl) (tnIpcCmdSendmsg_walk hs lax rfl rfl envs inUse last) hu

/-- A handler that is called without a slot. -/
theorem handler_none_fate
    (hs : (abs ((restTok Set.univ).pickUp m) (presented w m x env)).Sound)
    (hn : needsFd x.cmd = false)
    (apart : ∀ a b p, ((handler (presented w m x env) m none).1.sockets a).tcpPcb = some p →
      ((handler (presented w m x env) m none).1.sockets b).tcpPcb = some p → a = b)
    (hu : ((handler (presented w m x env) m none).1.sockets i).inUse = true) :
    Fate o w (.ipc m x env) (handler (presented w m x env) m none).1 i := by
  have kinds : Kinds (presented w m x env) := .of_sound hs ((restTok_lax Set.univ).pickUp m)
  have msg : (presented w m x env).msgs m = { x with result := 0, errNo := .ok } := presented_msg
  have arrived : stored (presented w m x env) = stored w := rfl
  by_cases ht : touches x.cmd = false
  · have stays : Stays o (presented w m x env) (handler (presented w m x env) m none).1 :=
      .handler (by rw [msg]; exact ht) _
    exact .of_steady ((Steady.of_stays stays).of_same arrived) hu
  · have cmd : x.cmd = .socket := by
      cases hc : x.cmd <;> rw [hc] at ht hn <;> first | rfl | exact absurd rfl ht | cases hn
    have handled : handler (presented w m x env) m none = tnIpcCmdSocket (presented w m x env) m := by
      simp [handler, msg, cmd]
    rw [handled] at apart hu ⊢
    rcases tnIpcCmdSocket_fate (o := o) (N := Reported o (Input.Brings (.ipc m x env))) kinds apart hu
      with kept | ⟨free, first, fresh⟩
    · exact .of_keeps ⟨kept.1, kept.2.opts, kept.2.tcp, kept.2.udp, kept.2.raw⟩
    · rw [msg] at fresh
      exact .opened rfl cmd free first fresh

/-- The main loop adds at most the reply. -/
theorem stored_handleMsg (w : World) (m : MsgId) :
    stored (handleMsg w m) = stored (tnHandleIpc w m).1 := by
  unfold handleMsg
  cases tnHandleIpc w m with
  | mk u act => cases act <;> rfl

/-! ## Steps -/

/-- Every step of a run. -/
theorem step_fate (hr : Reachable w) (ha : Admissible w inp)
    (hu : ((step w inp).sockets i).inUse = true) : Fate o w inp (step w inp) i := by
  have sane : ∀ env n, Sane { w with env := env, mainloopTicks := n } := fun env n =>
    ⟨restTok Set.univ, restTok_lax Set.univ, hr.abs_sound⟩
  cases inp with
  | ipc m x env =>
    have sound : (abs ((restTok Set.univ).pickUp m) (presented w m x env)).Sound :=
      Acts.sound (receive_acts (P := fun _ => True) trivial ha.2.1 env) hr.abs_sound
    have kinds' : Kinds (step w (.ipc m x env)) := (reached_kinds (hr.step ha trivial)).1
    have told : stored (step w (.ipc m x env)) =
        stored (tnHandleIpc { receive w m x with env := env } m).1 := stored_handleMsg _ m
    have slots := (Prod.mk.inj told).1
    have refused : ∀ e, (((Tolunnet.fail (presented w m x env) m e).1.sockets i).inUse = true →
        Fate o w (.ipc m x env) (Tolunnet.fail (presented w m x env) m e).1 i) := fun e hu => by
      have stays : Stays o w (Tolunnet.fail (presented w m x env) m e).1 := .same rfl
      exact .of_steady (.of_stays stays) hu
    refine Fate.same ?_ told hu
    have apart := kinds'.slots
    rw [slots] at hu apart
    rw [tnHandleIpc_presented] at hu apart ⊢
    split_ifs at hu apart ⊢ with h1 h2 h3
    · exact refused _ hu
    · exact refused _ hu
    · cases hk : tnSlotLookup w x.socketBase (x.args 0) with
      | none =>
        simp only [hk] at hu ⊢
        exact refused _ hu
      | some k =>
        simp only [hk] at hu ⊢
        exact handler_some_fate sound hk h3 hu
    · exact handler_none_fate sound (by simpa using h3) apart hu
  | lwip evs env =>
    have start : Walk o (Input.Brings (.lwip evs env)) w { w with env := env } := Walk.refl.same rfl
    have walk := start.runEvs (sane env w.mainloopTicks) evs fun _ h => h
    exact .of_rides walk.rides hu
  | tick evs env =>
    generalize hw1 : ({ w with env := env, mainloopTicks := (w.mainloopTicks + 1) % 2 ^ 32 } : World)
      = w1
    have sane1 : Sane w1 := hw1 ▸ sane env _
    have start : Walk o (Input.Brings (.tick evs env)) w w1 := by
      rw [← hw1]
      exact Walk.refl.same rfl
    have walk := start.runEvs sane1 evs fun _ h => h
    have stepped : step w (.tick evs env) = tnSlotCheckRecvTimeouts (runEvs w1 evs) := by
      rw [← hw1]
      rfl
    have checked : Stays o (runEvs w1 evs) (step w (.tick evs env)) := by
      rw [stepped]
      exact .tnSlotCheckRecvTimeouts
    -- the timeouts are looked at after lwIP has worked
    rcases walk.rides.slots i ((checked.slot i (Set.notMem_empty i)).inUse hu) with
      ⟨before, keeps⟩ | ⟨free, k, c, src, born⟩
    · exact .of_keeps ⟨before, keeps.trans (.of_stays checked hu)⟩
    · exact .incoming free src
        (born.keeps (.of_stays (N := fun _ => False) checked hu) fun _ h => h.elim)
  | ctrlC env =>
    have start : Stays o w { w with env := env } := .same rfl
    have stays : Stays o w (step w (.ctrlC env)) := start.trans .ctrlC
    exact .of_steady (.of_stays stays) hu
  | shutdown env =>
    have start : Stays o w { w with env := env } := .same rfl
    have stays : Stays o w (step w (.shutdown env)) := start.trans .shutdownAttempt
    exact .of_steady (.of_stays stays) hu
  | client c =>
    have stays : Stays o w (step w (.client c)) := .clientStep c
    exact .of_steady (.of_stays stays) hu

end Tolunnet
