import Tolunnet.Calls.Receive
import Tolunnet.Options.Quiet
import Tolunnet.Options.Setting

/-!
# `Tolunnet.Options.Elsewhere`: what a request leaves of other options and slots

A refused `SETSOCKOPT` changes nothing. One that is granted changes nothing but the slot and its pcbs
(`Spares`), and of these no other option. `GETSOCKOPT` and, but for `SO_REUSEADDR`, `BIND` leave all
options alone.
-/

set_option autoImplicit false

namespace Tolunnet

open World

variable {w w' : World} {m : MsgId} {i j : SlotIdx} {x : TnIpcMsg} {f : Mem} {n : Int} {o o' : SockOpt}
  {p : PcbId} {S : Set SlotIdx} {P : Set PcbId}

/-! ## Refusals -/

/-- A join that is refused stores nothing. -/
theorem stored_addMembership {grp ifa : Nat} {e : Errno}
    (ha : addMembership w i grp ifa = (.error e, w')) : stored w' = stored w := by
  unfold addMembership igmpJoingroup at ha
  cases hk : mcastFree? w with
  | none =>
    obtain rfl := (Prod.mk.inj (by simpa [hk] using ha)).2
    rfl
  | some k =>
    by_cases joined : w.ask.err = .ok
    · simp [hk, joined] at ha
    · simp only [hk, if_neg joined] at ha
      obtain rfl := (Prod.mk.inj ha).2
      rfl

/-- A leave that is refused stores nothing. -/
theorem stored_dropMembership {grp ifa : Nat} {e : Errno}
    (ha : dropMembership w i grp ifa = (.error e, w')) : stored w' = stored w := by
  unfold dropMembership igmpLeavegroup at ha
  by_cases left : 0 < w.igmpUse (ifa, grp) ∨ w.ask.err = .ok
  · simp only [if_pos left] at ha
    split at ha <;> cases (Prod.mk.inj ha).1
  · simp only [if_neg left] at ha
    cases he : w.ask.err with
    | ok => exact absurd (.inr he) left
    | _ =>
      simp only [he] at ha
      obtain rfl := (Prod.mk.inj ha).2
      rfl

/-- A membership that is granted is in no option block and in no pcb. -/
theorem stored_joined {grp ifa : Nat} {v : World} (ha : addMembership w i grp ifa = (.ok w', v)) :
    stored w' = stored w := by
  unfold addMembership igmpJoingroup at ha
  cases hk : mcastFree? w with
  | none => simp [hk] at ha
  | some k =>
    by_cases joined : w.ask.err = .ok
    · simp only [hk, joined, if_true] at ha
      obtain rfl := Except.ok.inj (Prod.mk.inj ha).1
      rfl
    · simp [hk, joined] at ha

/-- Nor does one that is granted. -/
theorem stored_left {grp ifa : Nat} {v : World} (ha : dropMembership w i grp ifa = (.ok w', v)) :
    stored w' = stored w := by
  unfold dropMembership igmpLeavegroup at ha
  by_cases left : 0 < w.igmpUse (ifa, grp) ∨ w.ask.err = .ok
  · simp only [if_pos left] at ha
    split at ha
    · obtain rfl := Except.ok.inj (Prod.mk.inj ha).1
      rfl
    · obtain rfl := Except.ok.inj (Prod.mk.inj ha).1
      rfl
  · simp only [if_neg left] at ha
    cases he : w.ask.err with
    | ok => exact absurd (.inr he) left
    | _ =>
      simp only [he] at ha
      cases (Prod.mk.inj ha).1

/-- A refused request stores nothing. -/
theorem stored_applySockopt {e : Errno} (ha : applySockopt w i o f n = (.error e, w')) :
    stored w' = stored w := by
  cases o with
  | error | type =>
    obtain rfl := (Prod.mk.inj ha).2
    rfl
  | maxseg =>
    simp only [applySockopt] at ha
    split at ha
    · obtain rfl := (Prod.mk.inj ha).2
      exact stored_readMss w i
    · cases (Prod.mk.inj ha).1
  | keepidle | keepintvl | keepcnt =>
    simp only [applySockopt] at ha
    split at ha
    · cases (Prod.mk.inj ha).1
    · obtain rfl := (Prod.mk.inj ha).2
      rfl
  | addMembership => exact stored_addMembership ha
  | dropMembership => exact stored_dropMembership ha
  | _ => cases (Prod.mk.inj ha).1

/-- What `SETSOCKOPT` can do: refuse the request, or apply it, which may fail. -/
theorem tnIpcCmdSetsockopt_cases (w : World) (m : MsgId) (i : SlotIdx) :
    (∃ e, tnIpcCmdSetsockopt w m (some i) = fail w m e) ∨
      ∃ f o, (w.msgs m).ptrs 0 = .mem f ∧
        sockOpt (w.sockets i).type ((w.msgs m).args 1) ((w.msgs m).args 2) = .ok o ∧
        ((∃ e u, applySockopt w i o f ((w.msgs m).args 3) = (.error e, u) ∧
            tnIpcCmdSetsockopt w m (some i) = fail u m e) ∨
          ∃ u v, applySockopt w i o f ((w.msgs m).args 3) = (.ok u, v) ∧
            tnIpcCmdSetsockopt w m (some i) = done u m 0 .ok) := by
  unfold tnIpcCmdSetsockopt
  dsimp only
  cases hf : (w.msgs m).ptrs 0 with
  | mem f =>
    dsimp only [Ptr.mem?]
    cases ho : sockOpt (w.sockets i).type ((w.msgs m).args 1) ((w.msgs m).args 2) with
    | error e => exact .inl ⟨e, rfl⟩
    | ok o =>
      dsimp only
      split_ifs
      · exact .inl ⟨_, rfl⟩
      · exact .inl ⟨_, rfl⟩
      · refine .inr ⟨f, o, rfl, rfl, ?_⟩
        cases ha : applySockopt w i o f ((w.msgs m).args 3) with
        | mk r u =>
          cases r with
          | error e => exact .inl ⟨e, u, rfl, rfl⟩
          | ok v => exact .inr ⟨v, u, rfl, rfl⟩
  | _ => exact .inl ⟨.ebadf, rfl⟩

/-! ## Other slots and other options -/

/-- Nothing has changed but slot `j` and its pcbs. -/
structure Spares (j : SlotIdx) (w w' : World) : Prop where
  slots : ∀ i, i ≠ j → w'.sockets i = w.sockets i
  links : (w'.sockets j).tcpPcb = (w.sockets j).tcpPcb ∧
    (w'.sockets j).udpPcb = (w.sockets j).udpPcb ∧ (w'.sockets j).rawPcb = (w.sockets j).rawPcb
  tcp : ∀ p, (w.sockets j).tcpPcb ≠ some p → w'.tcpPcbs p = w.tcpPcbs p
  udp : ∀ p, (w.sockets j).udpPcb ≠ some p → w'.udpPcbs p = w.udpPcbs p
  raw : ∀ p, (w.sockets j).rawPcb ≠ some p → w'.rawPcbs p = w.rawPcbs p

namespace Spares

variable {w'' : World}

/-- What stores nothing spares every other slot. -/
theorem of_stored (h : stored w' = stored w) : Spares j w w' := by
  obtain ⟨hs, h⟩ := Prod.mk.inj h
  obtain ⟨ht, h⟩ := Prod.mk.inj h
  obtain ⟨hu, hr⟩ := Prod.mk.inj h
  exact ⟨fun i _ => by rw [hs], by rw [hs]; exact ⟨rfl, rfl, rfl⟩, fun p _ => by rw [ht],
    fun p _ => by rw [hu], fun p _ => by rw [hr]⟩

theorem refl (w : World) : Spares j w w := of_stored rfl

/-- Two steps that spare the others. -/
theorem trans (h : Spares j w w') (h' : Spares j w' w'') : Spares j w w'' where
  slots := fun i hi => (h'.slots i hi).trans (h.slots i hi)
  links := ⟨h'.links.1.trans h.links.1, h'.links.2.1.trans h.links.2.1,
    h'.links.2.2.trans h.links.2.2⟩
  tcp := fun p hp => (h'.tcp p (by rw [h.links.1]; exact hp)).trans (h.tcp p hp)
  udp := fun p hp => (h'.udp p (by rw [h.links.2.1]; exact hp)).trans (h.udp p hp)
  raw := fun p hp => (h'.raw p (by rw [h.links.2.2]; exact hp)).trans (h.raw p hp)

/-- An assignment to slot `j` that leaves its pcbs alone. -/
theorem modSlot {g : TnSocketSlot → TnSocketSlot}
    (hg : (g (w.sockets j)).tcpPcb = (w.sockets j).tcpPcb ∧
      (g (w.sockets j)).udpPcb = (w.sockets j).udpPcb ∧
      (g (w.sockets j)).rawPcb = (w.sockets j).rawPcb) : Spares j w (w.modSlot j g) where
  slots := fun i hi => by simp [World.modSlot, hi]
  links := by simpa [World.modSlot] using hg
  tcp := fun _ _ => rfl
  udp := fun _ _ => rfl
  raw := fun _ _ => rfl

theorem modOpts (g : TnSockOpts → TnSockOpts) : Spares j w (modOpts w j g) :=
  modSlot ⟨rfl, rfl, rfl⟩

theorem onTcpOf (g : TcpPcb → TcpPcb) : Spares j w (onTcpOf w j g) := by
  unfold Tolunnet.onTcpOf onPcb
  cases hq : (w.sockets j).tcpPcb with
  | none => exact refl w
  | some q =>
    dsimp only
    cases hc : w.tcpPcbs q with
    | none => exact of_stored rfl
    | some c =>
      refine ⟨fun _ _ => rfl, ⟨rfl, rfl, rfl⟩, fun p hp => ?_, fun _ _ => rfl, fun _ _ => rfl⟩
      have apart : p ≠ q := fun h => hp (h ▸ hq)
      simp [setPcb, apart]

/-- A call on the full pcb of the slot. -/
theorem onFullOf (op : PcbOp) (g : TcpPcb → TcpPcb) : Spares j w (onFullOf w j op g) := by
  unfold Tolunnet.onFullOf onFull
  cases hq : (w.sockets j).tcpPcb with
  | none => exact refl w
  | some q =>
    dsimp only
    split
    · cases hc : w.tcpPcbs q with
      | none => exact of_stored rfl
      | some c =>
        dsimp only
        split
        · exact of_stored rfl
        · refine ⟨fun _ _ => rfl, ⟨rfl, rfl, rfl⟩, fun p hp => ?_, fun _ _ => rfl, fun _ _ => rfl⟩
          have apart : p ≠ q := fun h => hp (h ▸ hq)
          simp [setPcb, apart]
    · exact refl w

theorem onUdpOf (g : DgramPcb → DgramPcb) : Spares j w (onUdpOf w j g) := by
  unfold Tolunnet.onUdpOf
  cases hq : (w.sockets j).udpPcb with
  | none => exact refl w
  | some q =>
    refine ⟨fun _ _ => rfl, ⟨rfl, rfl, rfl⟩, fun _ _ => rfl, fun p hp => ?_, fun _ _ => rfl⟩
    have apart : p ≠ q := fun h => hp (h ▸ hq)
    simp [onUdp, apart]

theorem onRawOf (g : DgramPcb → DgramPcb) : Spares j w (onRawOf w j g) := by
  unfold Tolunnet.onRawOf
  cases hq : (w.sockets j).rawPcb with
  | none => exact refl w
  | some q =>
    refine ⟨fun _ _ => rfl, ⟨rfl, rfl, rfl⟩, fun _ _ => rfl, fun _ _ => rfl, fun p hp => ?_⟩
    have apart : p ≠ q := fun h => hp (h ▸ hq)
    simp [onRaw, apart]

theorem restartRecv : Spares j w (restartRecv w j) := by
  unfold Tolunnet.restartRecv
  dsimp only
  split
  · exact modSlot ⟨rfl, rfl, rfl⟩
  · exact refl w

theorem restartSend : Spares j w (restartSend w j) := by
  unfold Tolunnet.restartSend
  dsimp only
  split
  · exact modSlot ⟨rfl, rfl, rfl⟩
  · exact refl w

/-- `SETSOCKOPT` on one slot has nothing to do with the others. -/
theorem applySockopt {v : World} (ha : applySockopt w j o f n = (.ok w', v)) : Spares j w w' := by
  cases o with
  | error | type => cases (Prod.mk.inj ha).1
  | eventmask =>
    obtain rfl := Except.ok.inj (Prod.mk.inj ha).1
    exact refl w
  | linger | sndbuf | rcvbuf | oobinline =>
    obtain rfl := Except.ok.inj (Prod.mk.inj ha).1
    exact modOpts _
  | rcvtimeo =>
    obtain rfl := Except.ok.inj (Prod.mk.inj ha).1
    exact (modOpts _).trans restartRecv
  | sndtimeo =>
    obtain rfl := Except.ok.inj (Prod.mk.inj ha).1
    exact (modOpts _).trans restartSend
  | keepalive =>
    obtain rfl := Except.ok.inj (Prod.mk.inj ha).1
    exact (modOpts _).trans (onTcpOf _)
  | broadcast | multicastLoop =>
    obtain rfl := Except.ok.inj (Prod.mk.inj ha).1
    exact (modOpts _).trans (onUdpOf _)
  | hdrincl =>
    obtain rfl := Except.ok.inj (Prod.mk.inj ha).1
    exact (modOpts _).trans (onRawOf _)
  | multicastTtl =>
    obtain rfl := Except.ok.inj (Prod.mk.inj ha).1
    exact ((modOpts _).trans (onUdpOf _)).trans (onRawOf _)
  | reuseaddr =>
    obtain rfl := Except.ok.inj (Prod.mk.inj ha).1
    exact ((modOpts _).trans (onTcpOf _)).trans (onUdpOf _)
  | ttl | tos =>
    obtain rfl := Except.ok.inj (Prod.mk.inj ha).1
    exact (((modOpts _).trans (onTcpOf _)).trans (onUdpOf _)).trans (onRawOf _)
  | nodelay =>
    obtain rfl := Except.ok.inj (Prod.mk.inj ha).1
    exact (modOpts _).trans (onFullOf _ _)
  | keepidle | keepintvl | keepcnt =>
    simp only [Tolunnet.applySockopt] at ha
    split at ha
    · obtain rfl := Except.ok.inj (Prod.mk.inj ha).1
      exact (modOpts _).trans (onFullOf _ _)
    · cases (Prod.mk.inj ha).1
  | maxseg =>
    simp only [Tolunnet.applySockopt] at ha
    split at ha
    · cases (Prod.mk.inj ha).1
    · obtain rfl := Except.ok.inj (Prod.mk.inj ha).1
      exact ((of_stored (stored_readMss w j)).trans (modOpts _)).trans (onFullOf _ _)
  | addMembership => exact of_stored (stored_joined ha)
  | dropMembership => exact of_stored (stored_left ha)

end Spares

/-! ## Other options of the slot -/

namespace Tends

/-- Another field of the slot is set. -/
theorem modOpts {g : TnSockOpts → TnSockOpts}
    (hg : storedOpt (g (w.sockets i).opts) o = storedOpt (w.sockets i).opts o) :
    Tends o S P w (modOpts w i g) :=
  modSlot fun _ => ⟨id, fun _ => hg, .inl rfl, .inl rfl, .inl rfl⟩

/-- Another field of its stream is set. -/
theorem onTcpOf {g : TcpPcb → TcpPcb} (hg : ∀ c, SameTcp o c (g c)) :
    Tends o S P w (onTcpOf w i g) := by
  unfold Tolunnet.onTcpOf
  split
  · exact onPcb fun _ => hg
  · exact refl w

theorem onFullOf {op : PcbOp} {g : TcpPcb → TcpPcb} (hg : ∀ c, SameTcp o c (g c)) :
    Tends o S P w (onFullOf w i op g) := by
  unfold Tolunnet.onFullOf
  split
  · split
    · exact onFull fun _ => hg
    · exact refl w
  · exact refl w

/-- Another field of its UDP pcb is set. -/
theorem onUdpOf {g : DgramPcb → DgramPcb} (hg : ∀ c, dgramField (g c) o = dgramField c o) :
    Tends o S P w (onUdpOf w i g) := by
  unfold Tolunnet.onUdpOf
  split
  · exact onUdp hg
  · exact refl w

/-- Another field of its raw pcb is set. -/
theorem onRawOf {g : DgramPcb → DgramPcb} (hg : ∀ c, dgramField (g c) o = dgramField c o) :
    Tends o S P w (onRawOf w i g) := by
  unfold Tolunnet.onRawOf
  split
  · exact onRaw hg
  · exact refl w

/-- A granted request for one option leaves every other one alone. -/
theorem applySockopt {v : World} (ho : o' ≠ o) (ha : applySockopt w i o' f n = (.ok w', v)) :
    Tends o S P w w' := by
  -- Which value is written plays no part.
  obtain ⟨word, loaded⟩ : ∃ word, tnLoadOptInt f = word := ⟨_, rfl⟩
  obtain ⟨first, second, words⟩ : ∃ x y, be32 f 0 = x ∧ be32 f 4 = y := ⟨_, _, rfl, rfl⟩
  unfold Tolunnet.applySockopt at ha
  dsimp only at ha
  rw [loaded, words.1, words.2] at ha
  cases o' with
  -- The source refuses these two.
  | error | type => cases (Prod.mk.inj ha).1
  | eventmask =>
    obtain rfl := Except.ok.inj (Prod.mk.inj ha).1
    exact refl w
  -- In each case below the option written is not `o`.
  | linger | sndbuf | rcvbuf | oobinline =>
    obtain rfl := Except.ok.inj (Prod.mk.inj ha).1
    refine modOpts ?_
    cases o <;> first | rfl | exact absurd rfl ho
  | rcvtimeo =>
    obtain rfl := Except.ok.inj (Prod.mk.inj ha).1
    refine (modOpts ?_).trans (Blind.restartRecv blind)
    cases o <;> first | rfl | exact absurd rfl ho
  | sndtimeo =>
    obtain rfl := Except.ok.inj (Prod.mk.inj ha).1
    refine (modOpts ?_).trans (Blind.restartSend blind)
    cases o <;> first | rfl | exact absurd rfl ho
  | keepalive =>
    obtain rfl := Except.ok.inj (Prod.mk.inj ha).1
    refine (modOpts ?_).trans (onTcpOf fun _ => ⟨rfl, ?_⟩)
    all_goals cases o <;> first | rfl | exact absurd rfl ho
  | broadcast =>
    obtain rfl := Except.ok.inj (Prod.mk.inj ha).1
    refine (modOpts ?_).trans (onUdpOf fun _ => ?_)
    · cases o <;> rfl
    · cases o <;> rfl
  | multicastLoop =>
    obtain rfl := Except.ok.inj (Prod.mk.inj ha).1
    refine (modOpts ?_).trans (onUdpOf fun _ => ?_)
    · cases o <;> first | rfl | exact absurd rfl ho
    · cases o <;> first | rfl | exact absurd rfl ho
  | hdrincl =>
    obtain rfl := Except.ok.inj (Prod.mk.inj ha).1
    refine (modOpts ?_).trans (onRawOf fun _ => ?_)
    · cases o <;> rfl
    · cases o <;> rfl
  | multicastTtl =>
    obtain rfl := Except.ok.inj (Prod.mk.inj ha).1
    refine Tends.trans (Tends.trans (modOpts ?_) (onUdpOf fun _ => ?_)) (onRawOf fun _ => ?_)
    all_goals cases o <;> first | rfl | exact absurd rfl ho
  | reuseaddr =>
    obtain rfl := Except.ok.inj (Prod.mk.inj ha).1
    refine Tends.trans ?_ (onUdpOf fun _ => ?_)
    · refine (modOpts ?_).trans (onTcpOf fun _ => ⟨rfl, ?_⟩)
      all_goals cases o <;> first | rfl | exact absurd rfl ho
    all_goals cases o <;> first | rfl | exact absurd rfl ho
  | ttl | tos =>
    obtain rfl := Except.ok.inj (Prod.mk.inj ha).1
    refine Tends.trans (Tends.trans ?_ (onUdpOf fun _ => ?_)) (onRawOf fun _ => ?_)
    · refine (modOpts ?_).trans (onTcpOf fun _ => ⟨rfl, ?_⟩)
      all_goals cases o <;> first | rfl | exact absurd rfl ho
    all_goals cases o <;> first | rfl | exact absurd rfl ho
  | nodelay =>
    obtain rfl := Except.ok.inj (Prod.mk.inj ha).1
    refine (modOpts ?_).trans (onFullOf fun _ => ⟨rfl, ?_⟩)
    all_goals cases o <;> first | rfl | exact absurd rfl ho
  -- These check their value first.
  | keepidle | keepintvl | keepcnt =>
    dsimp only at ha
    split at ha
    · obtain rfl := Except.ok.inj (Prod.mk.inj ha).1
      refine (modOpts ?_).trans (onFullOf fun _ => ⟨rfl, ?_⟩)
      all_goals cases o <;> first | rfl | exact absurd rfl ho
    · cases (Prod.mk.inj ha).1
  | maxseg =>
    dsimp only at ha
    split at ha
    · cases (Prod.mk.inj ha).1
    · obtain rfl := Except.ok.inj (Prod.mk.inj ha).1
      refine ((same (stored_readMss w i)).trans (modOpts ?_)).trans (onFullOf fun _ => ⟨rfl, ?_⟩)
      all_goals cases o <;> first | rfl | exact absurd rfl ho
  | addMembership => exact same (stored_joined ha)
  | dropMembership => exact same (stored_left ha)

/-! ## Handlers that touch options -/

/-- `BIND` sets one option at most. -/
theorem tnIpcCmdBind (ho : o ≠ .reuseaddr) (slot : Option SlotIdx) :
    Tends o S P w (tnIpcCmdBind w m slot).1 := by
  refine Stock.tnIpcCmdBind stock (fun w p => onPcb fun _ c => ⟨rfl, ?_⟩)
    (fun w p => onUdp fun c => ?_) slot
  all_goals cases o <;> first | rfl | exact absurd rfl ho

/-- A datagram socket is connected. -/
theorem connectDgram (a : SockIn) : Tends o S P w (connectDgram w m i a).1 :=
  Stock.connectDgram stock a

end Tends

end Tolunnet
