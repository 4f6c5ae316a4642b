import Tolunnet.Refine.Bursts
import Tolunnet.Task.Daemon

/-!
# `Tolunnet.Refine.Carry`: how a handler ends

A handler starts with its request in hand. It either has an answer, and the request stays in hand
for the reply, or it has parked the request and the hand is empty. `Carried P t w m r` says that the
handler got to its end `r` by acts that the policy `P` allows. `Permits P w` collects what the
policy must allow everywhere: what only a handler does, slots that become free, and a descriptor for
a base that is not open when a parked `accept` of such a base is about.

Between two statements of a handler every wakeup may be due (`Lax`). Whether all of them are paid is
not followed through the handlers.

After these rules come the handlers that change nothing the abstract daemon keeps.
-/

set_option autoImplicit false

namespace Tolunnet

open World

variable {P : Label → Prop} {t : Tok} {w w' : World} {m : MsgId} {i : SlotIdx} {p : PcbId}

/-! ## Policies -/

/-- Nothing that lwIP could meet is in hand, and every wakeup may be due. -/
structure Lax (t : Tok) : Prop where
  conn : t.conn = none
  ent : t.ent = none
  joined : t.joined = none
  dying : t.dying = []
  owes : t.owes = Set.univ

/-- Under a lax token every slot may act. -/
theorem Lax.idle (h : Lax t) (w : World) : Idle t w Set.univ where
  conn := h.conn
  ent := h.ent
  joined := h.joined
  dying := h.dying
  free := fun _ _ _ => by rw [h.owes]; trivial
  poll := fun _ _ _ _ _ => by rw [h.owes]; trivial

/-- A message in hand owes nothing. -/
theorem Lax.pickUp (h : Lax t) (m : MsgId) : Lax (t.pickUp m) :=
  ⟨h.conn, h.ent, h.joined, h.dying, h.owes⟩

/-- A lax token owes already. -/
theorem Lax.owe (h : Lax t) (i : SlotIdx) (r : Ready) : t.owe i r = t :=
  Tok.owe_mem (by rw [h.owes]; trivial)

/-- A lax token owes everything already. -/
theorem Lax.oweAll (h : Lax t) (i : SlotIdx) : t.oweAll i = t :=
  Tok.oweAll_mem fun _ => by rw [h.owes]; trivial

/-- A base that is not open waits for a connection. -/
def Strayed (w : World) (b : BaseId) : Prop :=
  ∃ i m, (w.sockets i).pending .accept = some m ∧ (w.msgs m).socketBase.getD 0 = b ∧
    ¬ registered w b

/-- What the policy allows in every handler. -/
structure Permits (P : Label → Prop) (w : World) : Prop where
  alter : P .alter
  clear : ∀ i, P (.clear i)
  stray : ∀ b, Strayed w b → P (.stray b)

/-- What lwIP may do is permitted. -/
theorem Permits.cb (h : Permits P w) (l : Label) (hl : Cb w l) : P l := by
  cases l with
  | clear j => exact h.clear j
  | stray b => exact h.stray b hl
  | _ => exact hl.elim

/-- What the policy must allow does not grow when parked accepts, bases and messages stay. -/
theorem Permits.same (h : Permits P w)
    (hp : ∀ i m, (w'.sockets i).pending .accept = some m → (w.sockets i).pending .accept = some m)
    (hm : ∀ m, (w'.msgs m).socketBase = (w.msgs m).socketBase) (ho : w'.openBases = w.openBases) :
    Permits P w' where
  alter := h.alter
  clear := h.clear
  stray := fun b ⟨i, m, hi, hb, hr⟩ => h.stray b ⟨i, m, hp i m hi, (hm m) ▸ hb, fun ⟨k, hk⟩ =>
    hr ⟨k, by rw [ho]; exact hk⟩⟩

/-- Quiet code keeps what is permitted. -/
theorem Permits.calm (h : Permits P w) (hc : Calm w w') : Permits P w' :=
  h.same (fun _ _ hm => hc.pending hm) (fun m => (hc.rest.msgs m).2.1) hc.rest.openBases

/-! ## Bursts inside a handler -/

/-- lwIP works through its loopback queue. -/
theorem tnDrainLoopback_acts (hP : Permits P w) (ht : Lax t) :
    Acts P (abs t w) (abs t (tnDrainLoopback w)) :=
  (Acts.none (abs_asked t w)).trans
    (runEvs_acts _ ((hP.calm Only.asked.calm).cb) (ht.idle _) fun _ _ => trivial)

/-- lwIP aborts connections. -/
theorem runErrs_acts (evs : List LwipEv) (hP : Permits P w) (ht : Lax t) :
    Acts P (abs t w) (abs t (runErrs w evs)) ∧ Calm w (runErrs w evs) := by
  induction evs generalizing w with
  | nil => exact ⟨.refl, .refl w⟩
  | cons ev evs ih =>
    have turn : ∀ w1, Acts P (abs t w) (abs t w1) → Calm w w1 →
        Acts P (abs t w) (abs t (runErrs w1 evs)) ∧ Calm w (runErrs w1 evs) := fun w1 ha hc =>
      have rest := ih (hP.calm hc)
      ⟨ha.trans rest.1, hc.trans rest.2⟩
    -- only the errors are acted on
    cases ev with
    | err p e => exact turn _ (runEv_acts hP.cb (ht.idle w) (.err p e) fun _ _ => trivial) (.runEv _)
    | _ => exact turn w .refl (.refl w)

/-! ## The end of a handler -/

/-- The request in hand stays there for the reply, or has been parked. -/
def Carried (P : Label → Prop) (t : Tok) (w : World) (m : MsgId)
    (r : World × TnIpcReplyAction) : Prop :=
  Acts P (abs (t.pickUp m) w) (abs (if r.2 = .replyNow then t.pickUp m else t) r.1)

namespace Carried

variable {r : World × TnIpcReplyAction}

/-- The message is answered in the end. -/
theorem done (h : Acts P (abs (t.pickUp m) w) (abs (t.pickUp m) w')) (v : Int) (e : Errno) :
    Carried P t w m (Tolunnet.done w' m v e) :=
  h.trans (Acts.none (abs_setReply ..))

/-- The command is refused. -/
theorem fail (h : Acts P (abs (t.pickUp m) w) (abs (t.pickUp m) w')) (e : Errno) :
    Carried P t w m (Tolunnet.fail w' m e) :=
  Carried.done h (-1) e

/-- The message is parked in the end. -/
theorem defer (h : Acts P (abs (t.pickUp m) w) (abs t w')) : Carried P t w m (w', .defer) := h

/-- What happens before. -/
theorem trans (h : Acts P (abs (t.pickUp m) w) (abs (t.pickUp m) w')) (hr : Carried P t w' m r) :
    Carried P t w m r := Relation.ReflTransGen.trans h hr

/-- An answer that changes nothing. -/
theorem same (h : ∀ t, abs t w' = abs t w) (v : Int) (e : Errno) :
    Carried P t w m (Tolunnet.done w' m v e) := .done (.none (h _)) v e

/-- A refusal sends nothing. -/
theorem refuse (e : Errno) : Carried P t w m (Tolunnet.fail w m e) := .fail .refl e

end Carried

/-- No send is being worked on. -/
theorem Tok.notSending (hn : t.sending = none) (m : MsgId) :
    ∀ s, (t.pickUp m).sending = some s → s.m ≠ m := fun s hs => by
  rw [show (t.pickUp m).sending = t.sending from rfl, hn] at hs
  cases hs

/-- The reply that the message loop gives at the end of a handler, if there is one to give. -/
def finish (m : MsgId) (r : World × TnIpcReplyAction) : World :=
  match r with
  | (w, .replyNow) => w.replyMsg m
  | (w, .defer) => w

/-- The request in hand has been answered or parked. -/
def Settled (P : Label → Prop) (t : Tok) (w : World) (m : MsgId)
    (r : World × TnIpcReplyAction) : Prop :=
  Acts P (abs (t.pickUp m) w) (abs t (finish m r))

/-- A handler outside the stream send path leaves the reply to the message loop. -/
theorem Carried.settled {r : World × TnIpcReplyAction} (h : Carried P t w m r)
    (hn : t.sending = none) : Settled P t w m r := by
  obtain ⟨w', act⟩ := r
  cases act with
  | replyNow =>
    have answered := replyMsg_acts (P := P) (t := t.pickUp m) (w := w') (List.mem_cons_self ..)
      (Tok.notSending hn m)
    rw [t.pickUp_putDown] at answered
    exact Relation.ReflTransGen.trans h answered
  | defer => exact h

/-! ## The pcb of a slot -/

/-- The pcb of a slot is live. -/
theorem live_of_slot (hs : (abs t w).Sound) (ht : (w.sockets i).tcpPcb = some p) :
    (abs t w).Live p := by
  obtain ⟨c, hc, -⟩ := (hs.disc.slots i).pcb p ht
  exact ⟨c, hc⟩

/-- The pcb of a slot that does not listen is a full one. -/
theorem full_of_slot (hs : (abs t w).Sound) (ht : (w.sockets i).tcpPcb = some p)
    (hl : (w.sockets i).tcpState ≠ .listening) : (abs t w).Full p := by
  obtain ⟨c, hc, -, linked⟩ := (hs.disc.slots i).pcb p ht
  exact ⟨c, hc, linked.full hl⟩

/-- A handler may take the state to be sound. -/
theorem Carried.of_sound {r : World × TnIpcReplyAction}
    (h : (abs (t.pickUp m) w).Sound → Carried P t w m r) : Carried P t w m r :=
  Acts.of_sound h

/-! ## Statements on the pcbs of a slot -/

/-- A field of a UDP pcb is not kept. -/
theorem abs_onUdp (t : Tok) (w : World) (p : PcbId) (f : DgramPcb → DgramPcb)
    (hf : ∀ c, (f c).arg = c.arg) : abs t (w.onUdp p f) = abs t w := by
  unfold abs World.onUdp
  congr 1
  funext q
  by_cases hq : q = p
  · subst hq
    simp only [Function.update_self, Option.map_map]
    exact congrArg (fun g => Option.map g (w.udpPcbs q)) (funext hf)
  · simp [hq]

/-- A field of a raw pcb is not kept. -/
theorem abs_onRaw (t : Tok) (w : World) (p : PcbId) (f : DgramPcb → DgramPcb)
    (hf : ∀ c, (f c).arg = c.arg) : abs t (w.onRaw p f) = abs t w := by
  unfold abs World.onRaw
  congr 1
  funext q
  by_cases hq : q = p
  · subst hq
    simp only [Function.update_self, Option.map_map]
    exact congrArg (fun g => Option.map g (w.rawPcbs q)) (funext hf)
  · simp [hq]

/-- The UDP pcb of a slot changes, and its slot does not. -/
theorem abs_onUdpOf (t : Tok) (w : World) (i : SlotIdx) (f : DgramPcb → DgramPcb)
    (hf : ∀ c, (f c).arg = c.arg) : abs t (onUdpOf w i f) = abs t w := by
  unfold onUdpOf
  split
  · exact abs_onUdp t w _ f hf
  · rfl

/-- The raw pcb of a slot changes, and its slot does not. -/
theorem abs_onRawOf (t : Tok) (w : World) (i : SlotIdx) (f : DgramPcb → DgramPcb)
    (hf : ∀ c, (f c).arg = c.arg) : abs t (onRawOf w i f) = abs t w := by
  unfold onRawOf
  split
  · exact abs_onRaw t w _ f hf
  · rfl

/-- A field that every pcb has. -/
theorem abs_onTcpOf (hs : (abs t w).Sound) (f : TcpPcb → TcpPcb) (hf : ∀ c, (f c).view = c.view) :
    abs t (onTcpOf w i f) = abs t w := by
  unfold onTcpOf
  split
  · rename_i p hp
    exact abs_onPcb (live_of_slot hs hp) f hf
  · rfl

/-- A field of a full pcb, on a slot that does not listen. -/
theorem abs_onFullOf (hs : (abs t w).Sound) (op : PcbOp) (f : TcpPcb → TcpPcb)
    (hf : ∀ c, (f c).view = c.view) : abs t (onFullOf w i op f) = abs t w := by
  unfold onFullOf
  split
  · rename_i p hp
    split
    · rename_i hl
      exact abs_onFull (full_of_slot hs hp hl) op f hf
    · rfl
  · rfl

/-- Options are not kept. -/
@[simp] theorem abs_modOpts (t : Tok) (w : World) (i : SlotIdx) (f : TnSockOpts → TnSockOpts) :
    abs t (modOpts w i f) = abs t w := abs_modSlot_same _ _ _ _ rfl

/-! ## `BIND` and the addresses -/

/-- `bind` answers with what lwIP said. -/
theorem bindDone_carried {r : World × ErrT}
    (h : Acts P (abs (t.pickUp m) w) (abs (t.pickUp m) r.1)) :
    Carried P t w m (bindDone r m) := by
  unfold bindDone
  split
  · exact .done h _ _
  · exact .fail h _

/-- `bind` sends nothing. -/
theorem tnIpcCmdBind_carried (slot : Option SlotIdx) :
    Carried P t w m (tnIpcCmdBind w m slot) := by
  refine .of_sound fun hs => ?_
  unfold tnIpcCmdBind
  dsimp only
  split
  · rename_i i sin _
    split
    · exact .refuse _
    · split
      · exact .refuse _
      · split
        · split
          · rename_i p hp
            -- the address and the flag are in the part that every pcb has
            have live := live_of_slot hs hp
            refine bindDone_carried (.none ?_)
            unfold bindTcp
            dsimp only
            have flagged : abs (t.pickUp m) (if (w.sockets i).opts.reuseaddr = true then
                w.onPcb p fun c => { c with sofReuseaddr := true } else w) = abs (t.pickUp m) w := by
              split
              · exact abs_onPcb live _ fun _ => rfl
              · rfl
            generalize hw1 : (if (w.sockets i).opts.reuseaddr = true then _ else w) = w1 at flagged
            have live1 : (abs (t.pickUp m) w1.asked).Live p := by
              rw [abs_asked, flagged]
              exact live
            unfold tcpBind
            split
            · refine (abs_onPcb live1 _ ?_).trans ((abs_asked ..).trans flagged)
              exact fun _ => rfl
            · exact (abs_asked ..).trans flagged
          · exact .refuse _
        · split
          · split
            · refine bindDone_carried (.none ?_)
              dsimp only
              split_ifs <;> simp [abs_onUdp]
            · exact .refuse _
          · split
            · split
              · refine bindDone_carried (.none ?_)
                dsimp only
                split_ifs <;> simp [abs_onRaw]
              · exact .refuse _
            · exact .refuse _
  · exact .refuse _

@[simp] theorem abs_storeName (t : Tok) (w : World) (m : MsgId) (port addr : Nat) :
    abs t (storeName w m port addr) = abs t w := rfl

/-- The local address is stored for the client. -/
theorem tnIpcCmdGetsockname_carried (slot : Option SlotIdx) :
    Carried P t w m (tnIpcCmdGetsockname w m slot) := by
  unfold tnIpcCmdGetsockname
  dsimp only
  split
  · split
    · exact .refuse _
    · exact .same (fun _ => abs_storeName ..) _ _
  · exact .refuse _

/-- `getpeername` sends nothing. -/
theorem tnIpcCmdGetpeername_carried (slot : Option SlotIdx) :
    Carried P t w m (tnIpcCmdGetpeername w m slot) := by
  refine .of_sound fun hs => ?_
  unfold tnIpcCmdGetpeername
  dsimp only
  split
  · rename_i i _ _ _ _
    split
    · exact .refuse _
    · split
      · split
        · rename_i p hp
          unfold peernameStream
          dsimp only
          split
          · exact .refuse _
          · rename_i hst
            -- a connected slot does not listen, so the remote port is there to be read
            have full : (abs (t.pickUp m) w).Full p := full_of_slot hs hp fun hl => by
              rw [hl] at hst
              exact hst ⟨by decide, by decide⟩
            exact .done (.none ((abs_storeName ..).trans (abs_readFull full _))) _ _
        · exact .refuse _
      · split
        · split
          · split
            · exact .refuse _
            · exact .same (fun _ => abs_storeName ..) _ _
          · exact .refuse _
        · split
          · split
            · exact .same (fun _ => abs_storeName ..) _ _
            · exact .refuse _
          · exact .refuse _
  · exact .refuse _

/-- `FIONBIO` changes the mode, the other requests nothing. -/
theorem tnIpcCmdIoctl_carried (hP : Permits P w) (slot : Option SlotIdx) :
    Carried P t w m (tnIpcCmdIoctl w m slot) := by
  unfold tnIpcCmdIoctl
  dsimp only
  split
  · split
    · exact .done (Acts.one (.rx (.nonblock (abs (t.pickUp m) w) _ _ hP.alter))
        (abs_modSlot ..)) _ _
    · split
      · exact .same (fun _ => abs_store ..) _ _
      · split
        · exact .same (fun _ => abs_store ..) _ _
        · split
          · exact .same (fun _ => abs_asked ..) _ _
          · exact .fail (.none (abs_asked ..)) _
  · exact .refuse _
  · exact .refuse _

/-! ## Options -/

theorem abs_setMcast (t : Tok) (w : World) (k : Fin 8) (r : McastJoin) :
    abs t (setMcast w k r) = abs t w := rfl

/-- A group is joined in lwIP only. -/
theorem abs_igmpJoingroup (t : Tok) (w : World) (ifa grp : Nat) :
    abs t (igmpJoingroup w ifa grp).1 = abs t w := by
  unfold igmpJoingroup
  split <;> rfl

/-- A group is left in lwIP only. -/
theorem abs_igmpLeavegroup (t : Tok) (w : World) (ifa grp : Nat) :
    abs t (igmpLeavegroup w ifa grp).1 = abs t w := by
  unfold igmpLeavegroup
  split <;> rfl

/-- Nothing of an option is kept, whether it is accepted or not. -/
def SameOpt (t : Tok) (w : World) (r : Except Errno World × World) : Prop :=
  (∀ w', r.1 = .ok w' → abs t w' = abs t w) ∧ abs t r.2 = abs t w

/-- The option is set. -/
theorem SameOpt.ok {w' : World} (h : abs t w' = abs t w) : SameOpt t w (.ok w', w) := by
  refine ⟨fun w'' he => ?_, rfl⟩
  cases he
  exact h

/-- The option is refused. -/
theorem SameOpt.error (h : abs t w' = abs t w) (e : Errno) : SameOpt t w (.error e, w') :=
  ⟨fun _ he => (by cases he), h⟩

/-- A join is no send. -/
theorem addMembership_same (grp ifa : Nat) : SameOpt t w (addMembership w i grp ifa) := by
  unfold addMembership
  split
  · exact .error rfl _
  · have joined := abs_igmpJoingroup t w ifa grp
    split
    · rename_i heq
      rw [heq] at joined
      refine ⟨fun w' he => ?_, joined⟩
      cases he
      exact (abs_setMcast ..).trans joined
    · rename_i heq
      rw [heq] at joined
      exact .error joined _

/-- Neither is a leave. -/
theorem dropMembership_same (grp ifa : Nat) : SameOpt t w (dropMembership w i grp ifa) := by
  unfold dropMembership
  have left := abs_igmpLeavegroup t w ifa grp
  split
  · rename_i heq
    rw [heq] at left
    split
    · refine ⟨fun w' he => ?_, left⟩
      cases he
      exact (abs_setMcast ..).trans left
    · refine ⟨fun w' he => ?_, left⟩
      cases he
      exact left
  · rename_i heq
    rw [heq] at left
    exact .error left _

/-- Reading the segment size needs a pcb that lives. -/
theorem abs_readMss (hs : (abs t w).Sound) : abs t (readMss w i) = abs t w := by
  unfold readMss
  dsimp only
  split
  · exact abs_onFullOf hs _ _ fun _ => rfl
  · rfl

/-- The receive timer is not kept. -/
@[simp] theorem abs_restartRecv (t : Tok) (w : World) (i : SlotIdx) :
    abs t (restartRecv w i) = abs t w := by
  unfold restartRecv
  dsimp only
  split
  · exact abs_modSlot_same _ _ _ _ rfl
  · rfl

/-- The send timer is not kept. -/
@[simp] theorem abs_restartSend (t : Tok) (w : World) (i : SlotIdx) :
    abs t (restartSend w i) = abs t w := by
  unfold restartSend
  dsimp only
  split
  · exact abs_modSlot_same _ _ _ _ rfl
  · rfl

/-- Options are no sends. -/
theorem applySockopt_same (hs : (abs t w).Sound) (o : SockOpt) (f : Mem) (optlen : Int) :
    SameOpt t w (applySockopt w i o f optlen) := by
  -- The slot's own copy of the option is not kept, so the state is sound after it was stored.
  have stored : ∀ g, (abs t (modOpts w i g)).Sound := fun g => by
    rw [abs_modOpts]
    exact hs
  have tcp : ∀ g (h : TcpPcb → TcpPcb), (∀ c, (h c).view = c.view) →
      abs t (onTcpOf (modOpts w i g) i h) = abs t w := fun g h hv =>
    (abs_onTcpOf (stored g) h hv).trans (abs_modOpts ..)
  have full : ∀ g op (h : TcpPcb → TcpPcb), (∀ c, (h c).view = c.view) →
      abs t (onFullOf (modOpts w i g) i op h) = abs t w := fun g op h hv =>
    (abs_onFullOf (stored g) op h hv).trans (abs_modOpts ..)
  obtain ⟨word, loaded⟩ : ∃ word, tnLoadOptInt f = word := ⟨_, rfl⟩
  unfold applySockopt
  dsimp only
  rw [loaded]
  split
  · exact .ok ((abs_onUdpOf _ _ _ _ (by intro c; rfl)).trans (abs_modOpts ..))
  · exact .ok (tcp _ _ (by intro c; rfl))
  · exact .ok ((abs_onUdpOf _ _ _ _ (by intro c; rfl)).trans (tcp _ _ (by intro c; rfl)))
  · exact .ok (abs_modOpts ..)
  · exact .ok (abs_modOpts ..)
  · exact .ok (abs_modOpts ..)
  · exact .ok (abs_modOpts ..)
  · exact .ok ((abs_restartRecv ..).trans (abs_modOpts ..))
  · exact .ok ((abs_restartSend ..).trans (abs_modOpts ..))
  · exact .error rfl _
  · exact .error rfl _
  · exact .ok rfl
  · exact .ok (full _ _ _ (by intro c; rfl))
  · have read := abs_readMss (i := i) hs
    split
    · exact .error read _
    · refine ⟨fun w' he => ?_, read⟩
      cases he
      refine (abs_onFullOf ?_ _ _ (by intro c; rfl)).trans ((abs_modOpts ..).trans read)
      rw [abs_modOpts, read]
      exact hs
  · split
    · exact .ok (full _ _ _ (by intro c; rfl))
    · exact .error rfl _
  · split
    · exact .ok (full _ _ _ (by intro c; rfl))
    · exact .error rfl _
  · split
    · exact .ok (full _ _ _ (by intro c; rfl))
    · exact .error rfl _
  · exact .ok ((abs_onRawOf _ _ _ _ (by intro c; rfl)).trans
      ((abs_onUdpOf _ _ _ _ (by intro c; rfl)).trans (tcp _ _ (by intro c; rfl))))
  · exact .ok ((abs_onRawOf _ _ _ _ (by intro c; rfl)).trans
      ((abs_onUdpOf _ _ _ _ (by intro c; rfl)).trans (tcp _ _ (by intro c; rfl))))
  · exact .ok ((abs_onRawOf _ _ _ _ (by intro c; rfl)).trans (abs_modOpts ..))
  · exact .ok ((abs_onRawOf _ _ _ _ (by intro c; rfl)).trans
      ((abs_onUdpOf _ _ _ _ (by intro c; rfl)).trans (abs_modOpts ..)))
  · exact .ok ((abs_onUdpOf _ _ _ _ (by intro c; rfl)).trans (abs_modOpts ..))
  · exact addMembership_same _ _
  · exact dropMembership_same _ _

/-- `setsockopt` sends nothing. -/
theorem tnIpcCmdSetsockopt_carried (slot : Option SlotIdx) :
    Carried P t w m (tnIpcCmdSetsockopt w m slot) := by
  refine .of_sound fun hs => ?_
  unfold tnIpcCmdSetsockopt
  dsimp only
  split
  · rename_i i f _
    split
    · exact .refuse _
    · rename_i o _
      split
      · exact .refuse _
      · split
        · exact .refuse _
        · obtain ⟨ok, error⟩ := applySockopt_same (i := i) hs o f ((w.msgs m).args 3)
          split
          · rename_i heq
            rw [heq] at error
            exact .fail (.none error) _
          · rename_i heq
            rw [heq] at ok
            exact .done (.none (ok _ rfl)) _ _
  · exact .refuse _

@[simp] theorem abs_writeOpt (t : Tok) (w : World) (m : MsgId) (b : List UInt8) :
    abs t (writeOpt w m b) = abs t w := rfl

/-- Reading an option sends nothing. -/
theorem abs_readOpt (hs : (abs t w).Sound) (o : SockOpt) : abs t (readOpt w i o) = abs t w := by
  unfold readOpt
  split <;> first | exact abs_onFullOf hs _ _ fun _ => rfl | rfl

/-- A stored error is gone once it has been read. -/
theorem getSockopt_carried (hs : (abs (t.pickUp m) w).Sound) (o : SockOpt) (olen : Nat) :
    Carried P t w m (getSockopt w m i o olen) := by
  unfold getSockopt
  dsimp only
  split
  · exact .refuse _
  · exact .refuse _
  · exact .refuse _
  · split
    · exact .refuse _
    · exact .same (fun _ => abs_writeOpt ..) _ _
  · split
    · exact .refuse _
    · refine .done (Acts.one (.rx (.clearErr (abs (t.pickUp m) w) i)) ?_) _ _
      rw [abs_modSlot, abs_writeOpt]
      rfl
  · split
    · exact .refuse _
    · split <;> exact .same (fun _ => abs_writeOpt ..) _ _
  · split
    · exact .refuse _
    · split <;> exact .same (fun _ => abs_writeOpt ..) _ _
  · split
    · exact .refuse _
    · exact .done (.none ((abs_writeOpt ..).trans (abs_readOpt hs o))) _ _

/-- `getsockopt` sends nothing. -/
theorem tnIpcCmdGetsockopt_carried (slot : Option SlotIdx) :
    Carried P t w m (tnIpcCmdGetsockopt w m slot) := by
  refine .of_sound fun hs => ?_
  unfold tnIpcCmdGetsockopt
  dsimp only
  split
  · split
    · exact .refuse _
    · split
      · exact .refuse _
      · split
        · exact .refuse _
        · exact getSockopt_carried hs _ _
  · exact .refuse _

end Tolunnet
