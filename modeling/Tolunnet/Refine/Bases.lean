import Tolunnet.Refine.Sending

/-!
# `Tolunnet.Refine.Bases`: bases and descriptors

`SOCKET`, `CLOSESOCKET`, `DUP2` and the parking lot, `OPEN`, `CLOSE` and the reaper, `STOP`,
`CANCEL` and the timeouts as runs of acts. A reference to a slot is in hand from the time a
descriptor gives it up until the slot has been unreferenced or the reference is in another
descriptor.
-/

set_option autoImplicit false

namespace Tolunnet

open World

variable {P : Label → Prop} {t : Tok} {w w' : World} {m : MsgId} {i j : SlotIdx} {p : PcbId}

/-! ## `SOCKET` -/

/-- Connections that lwIP aborts are not those of a slot that has none. -/
theorem runErr_untouched (hs : (abs t w).Sound) (ht : Lax t) (hp : (w.sockets i).tcpPcb = none)
    (hq : (w.sockets i).acceptQ = []) (p : PcbId) (e : ErrT) :
    (runEv w (.err p e)).sockets i = w.sockets i ∧
      ∀ b, ((runEv w (.err p e)).bases b).fdMap = (w.bases b).fdMap := by
  simp only [runEv, onLive]
  split
  · rename_i c hc
    split
    · exact ⟨rfl, fun _ => rfl⟩
    · split
      · exact ⟨rfl, fun _ => rfl⟩
      · rename_i herr
        have live : ¬ c.view.Orphan := fun h => herr h.err
        unfold deliverErr
        split
        · exact ⟨rfl, fun _ => rfl⟩
        · split
          · rename_i j hj
            have own := owner_of_arg hs ht.conn hc hj live
            have meek : Meek j (w.setPcb p none) (tnTcpErrCb (w.setPcb p none) j e) := .tnTcpErrCb e
            have apart : i ≠ j := fun h => by
              rw [h, own.tcp] at hp
              cases hp
            exact ⟨meek.only.slots i apart, meek.only.fds⟩
          · exact ⟨rfl, fun _ => rfl⟩
        · split
          · rename_i x ha
            obtain ⟨j, ent, find, mem, rfl, -, rfl⟩ := owner_of_entry hs ht.conn ht.ent hc ha
            unfold tnTcpQueuedErrCb
            rw [show findEntry (w.setPcb p none) ent.id = findEntry w ent.id from rfl, find]
            have meek : Meek ent.listeningSlot (w.setPcb p none)
                (tnAcceptQueueRemove (w.setPcb p none) ent.listeningSlot ent.id) :=
              .tnAcceptQueueRemove _
            have apart : i ≠ ent.listeningSlot := fun h => by
              rw [← h, hq] at mem
              cases mem
            exact ⟨meek.only.slots i apart, meek.only.fds⟩
          · exact ⟨rfl, fun _ => rfl⟩
          · exact ⟨rfl, fun _ => rfl⟩
  · exact ⟨rfl, fun _ => rfl⟩

theorem runErrs_untouched (evs : List LwipEv) (hP : Permits P w) (ht : Lax t)
    (hs : (abs t w).Sound) (hp : (w.sockets i).tcpPcb = none) (hq : (w.sockets i).acceptQ = []) :
    (runErrs w evs).sockets i = w.sockets i ∧
      ∀ b, ((runErrs w evs).bases b).fdMap = (w.bases b).fdMap := by
  induction evs generalizing w with
  | nil => exact ⟨rfl, fun _ => rfl⟩
  | cons ev evs ih =>
    unfold runErrs
    rw [List.foldl_cons]
    cases ev with
    | err p e =>
      obtain ⟨slot, fds⟩ := runErr_untouched hs ht hp hq p e
      have acts : Acts P (abs t w) (abs t (runEv w (.err p e))) :=
        runEv_acts hP.cb (ht.idle w) _ fun _ _ => trivial
      obtain ⟨slot', fds'⟩ := ih (hP.calm (.runEv _)) (acts.sound hs) (by rw [slot]; exact hp)
        (by rw [slot]; exact hq)
      exact ⟨slot'.trans slot, fun b => (fds' b).trans (fds b)⟩
    | _ => exact ih hP hs hp hq

/-- What a new slot keeps while it gets its pcb. -/
structure Newborn (w w' : World) (i : SlotIdx) : Prop where
  inUse : (w'.sockets i).inUse = true
  refs : (w'.sockets i).refCount = 1
  fds : ∀ b, (w'.bases b).fdMap = (w.bases b).fdMap
  rest : Rest w w'

/-- The last slot of a `SlotView` that has just been allocated. -/
theorem SlotView.blank_new : (SlotView.new sockStream).Blank :=
  ⟨rfl, rfl, rfl, rfl, rfl, fun _ => rfl, rfl, rfl⟩

/-- A new stream gets a pcb, for which lwIP may abort other connections. -/
theorem newTcp_acts (hs : (abs t w).Sound) (hP : Permits P w) (ht : Lax t)
    (hi : (w.sockets i).view = .new sockStream) :
    Acts P (abs t w) (abs t (newTcp w i).1) ∧ Newborn w (newTcp w i).1 i := by
  have inUse : (w.sockets i).inUse = true := congrArg SlotView.inUse hi
  have refs : (w.sockets i).refCount = 1 := congrArg SlotView.refs hi
  unfold newTcp
  dsimp only
  obtain ⟨acts, calm⟩ := runErrs_acts (P := P) (t := t) w.ask.evs (hP.calm Only.asked.calm) ht
  obtain ⟨slot, fds⟩ := runErrs_untouched (P := P) (i := i) w.ask.evs (hP.calm Only.asked.calm) ht
    (w := w.asked) hs (congrArg SlotView.tcp hi) (congrArg SlotView.q hi)
  have rest : Rest w (runErrs w.asked w.ask.evs) := (Only.asked (S := ∅)).rest.trans calm.rest
  generalize runErrs w.asked w.ask.evs = w1 at acts slot fds rest
  have acts : Acts P (abs t w) (abs t w1) := (Acts.none (abs_asked t w)).trans acts
  have slot : w1.sockets i = w.sockets i := slot
  have fds : ∀ b, (w1.bases b).fdMap = (w.bases b).fdMap := fds
  split
  · rename_i hfresh
    simp only [Bool.and_eq_true, Option.isNone_iff_eq_none] at hfresh
    generalize hw2 : (w1.setPcb w.ask.id (some {})).modSlot i _ = w2
    have placed : abs t w2 = ((abs t w1).slotSet i { (abs t w1).slot i with
        tcp := some w.ask.id }).pcbSet w.ask.id (some {}) := by
      rw [← hw2, abs_modSlot, abs_setPcb]
      rfl
    have named := abs_tcpArg (pcb_of_eq placed) (.slot i)
    have handled := abs_tcpErr (pcb_of_eq named) rfl .slot
    have slot2 : (tcpErr (tcpArg w2 w.ask.id (.slot i)) w.ask.id .slot).sockets i =
        { w.sockets i with tcpPcb := some w.ask.id } := by
      rw [tcpErr, (Only.onFull (S := ∅) _ _).sockets, tcpArg, (Only.onPcb (S := ∅) _).sockets, ← hw2,
        sockets_modSlot, show (w1.setPcb w.ask.id (some {})).sockets = w1.sockets from rfl, slot]
    have only : Only {i} w1 (tcpErr (tcpArg w2 w.ask.id (.slot i)) w.ask.id .slot) := by
      rw [← hw2]
      exact (((Only.setPcb _).trans (.modSlot (Set.mem_singleton i) _)).trans (.onPcb _)).trans (.onFull _ _)
    refine ⟨acts.trans (Acts.one (.tcp (.new (abs t w1) i w.ask.id ?_ ?_ hP.alter)) ?_),
      ⟨by rw [slot2]; exact inUse, by rw [slot2]; exact refs, fun b => (only.fds b).trans (fds b),
        rest.trans only.rest⟩⟩
    · rw [abs_slot, slot, hi]
      exact SlotView.blank_new
    · rw [abs_pcb, hfresh.2]
      rfl
    · rw [handled, named, placed]
      simp [PcbView.new]
  · exact ⟨acts, ⟨by rw [slot]; exact inUse, by rw [slot]; exact refs, fds, rest⟩⟩

/-- A new slot gets a pcb of its type. -/
theorem newPcb_acts (hs : (abs t w).Sound) (hP : Permits P w) (ht : Lax t) {type : Int}
    (hi : (w.sockets i).view = .new type) (protocol : Int) :
    Acts P (abs t w) (abs t (newPcb w i type protocol).1) ∧
      Newborn w (newPcb w i type protocol).1 i := by
  have inUse : (w.sockets i).inUse = true := congrArg SlotView.inUse hi
  have refs : (w.sockets i).refCount = 1 := congrArg SlotView.refs hi
  have kind : (w.sockets i).type = type := congrArg SlotView.type hi
  have quiet : Newborn w w.asked i := ⟨inUse, refs, fun _ => rfl, (Only.asked (S := ∅)).rest⟩
  unfold newPcb
  split
  · rename_i hd
    unfold newUdp
    split
    · rename_i hfresh
      simp only [Bool.and_eq_true, Option.isNone_iff_eq_none] at hfresh
      dsimp only
      refine ⟨Acts.one (.tcp (.newUdp (abs t w) i w.ask.id inUse ?_ (congrArg SlotView.udp hi) ?_)) ?_,
        ⟨?_, ?_, fun _ => rfl, ?_⟩⟩
      · show (w.sockets i).type ≠ sockStream
        rw [kind, hd]
        decide
      · show (w.udpPcbs w.ask.id).map DgramPcb.arg = none
        rw [hfresh.2]
        rfl
      · rw [abs_modSlot, abs_setUdp]
        rfl
      · rw [sockets_modSlot]
        exact inUse
      · rw [sockets_modSlot]
        exact refs
      · exact ((Only.asked.trans (.setUdp _)).trans (.modSlot (S := {i}) rfl _)).rest
    · exact ⟨.refl, quiet⟩
  · rename_i hd
    split
    · rename_i hst
      exact newTcp_acts hs hP ht (hst ▸ hi)
    · rename_i hst
      unfold newRaw
      split
      · rename_i hfresh
        simp only [Bool.and_eq_true, Option.isNone_iff_eq_none] at hfresh
        dsimp only
        refine ⟨Acts.one (.tcp (.newRaw (abs t w) i w.ask.id inUse ?_ (congrArg SlotView.raw hi) ?_)) ?_,
          ⟨?_, ?_, fun _ => rfl, ?_⟩⟩
        · show (w.sockets i).type ≠ sockStream
          rw [kind]
          exact hst
        · show (w.rawPcbs w.ask.id).map DgramPcb.arg = none
          rw [hfresh.2]
          rfl
        · rw [abs_modSlot, abs_setRaw]
          rfl
        · rw [sockets_modSlot]
          exact inUse
        · rw [sockets_modSlot]
          exact refs
        · exact ((Only.asked.trans (.setRaw _)).trans (.modSlot (S := {i}) rfl _)).rest
      · exact ⟨.refl, quiet⟩

/-- A slot, a pcb and a descriptor, or none of them. -/
theorem tnIpcCmdSocket_carried (hP : Permits P w) (ht : Lax t)
    (hb : ∀ b, (w.msgs m).socketBase = some b → registered w b) :
    Carried P t w m (tnIpcCmdSocket w m) := by
  unfold tnIpcCmdSocket
  dsimp only
  split
  · exact .refuse _
  · split
    · exact .refuse _
    · rename_i b hbase
      split
      · exact .refuse _
      · rename_i fd hfd
        obtain ⟨hlt, hnone⟩ := pickFd?_spec hfd
        split
        · exact .refuse _
        · rename_i i hi
          generalize (w.msgs m).args 1 = type
          generalize (w.msgs m).args 2 = protocol
          generalize (w.msgs m).args 0 = domain
          refine .of_sound fun hs => ?_
          have alloc := tnSlotAlloc_acts (P := P) (t := t.pickUp m) (freeSlot?_free hi)
            (fun r => by show (i, r) ∈ t.owes; rw [ht.owes]; trivial) (some b) (w.msgs m).clientTask
            domain type protocol
          have new : ((tnSlotAlloc w i (some b) (w.msgs m).clientTask domain type protocol).sockets
              i).view = .new type := by
            unfold tnSlotAlloc
            rw [sockets_modSlot]
            rfl
          have only : Only {i} w (tnSlotAlloc w i (some b) (w.msgs m).clientTask domain type protocol) :=
            .modSlot (Set.mem_singleton i) _
          have hP1 : Permits P (tnSlotAlloc w i (some b) (w.msgs m).clientTask domain type protocol) := by
            refine hP.same (fun k x hx => ?_) (fun _ => rfl) rfl
            by_cases hk : k = i
            · subst hk
              have none := congrFun (congrArg SlotView.pending new) .accept
              rw [show ((tnSlotAlloc w k (some b) (w.msgs m).clientTask domain type protocol).sockets
                k).view.pending .accept = some x from hx] at none
              cases none
            · rwa [only.slots k hk] at hx
          generalize tnSlotAlloc w i (some b) (w.msgs m).clientTask domain type protocol = w1
            at alloc new only hP1
          have lax : Lax { t.pickUp m with refs := i :: t.refs } :=
            ⟨ht.conn, ht.ent, ht.joined, ht.dying, ht.owes⟩
          obtain ⟨made, born⟩ := newPcb_acts (Acts.sound alloc hs) hP1 lax new protocol
          have hr := alloc.trans made
          split
          · rename_i w2 heq
            rw [heq] at hr born
            have freed := tnSlotFree_new (P := P) (t := { t.pickUp m with refs := i :: t.refs }) (w := w2)
              (List.mem_cons_self ..) (by show i ∉ t.dying; rw [ht.dying]; simp) born.inUse born.refs
              (hP.clear i)
            rw [List.erase_cons_head] at freed
            exact .fail (hr.trans freed) _
          · rename_i w2 heq
            rw [heq] at hr born
            have put := install_acts (P := P) (l := t.refs) (w := w2) (j := i) (b := b)
              (t := { t.pickUp m with refs := i :: t.refs }) rfl born.inUse
              (by rw [(born.rest.dtab b).1, (only.rest.dtab b).1]; exact hlt)
              (by rw [born.fds, only.fds]; exact hnone)
              (Or.inl (by
                unfold registered
                rw [born.rest.openBases, only.rest.openBases]
                exact hb b hbase))
            refine .done (hr.trans (put.trans (Acts.none ?_))) _ _
            split
            · exact abs_tnRecordSocketEvent ..
            · rfl

/-! ## Descriptors -/

/-- A descriptor gives its reference up. -/
theorem dropFd_acts (hc : ∀ i, P (.clear i)) (hn : t.sending = none) (hd : t.dying = []) {b : BaseId}
    {n : Nat} (he : (w.bases b).fdMap n = some i) (hu : (w.sockets i).inUse = true) :
    Acts P (abs t w) (abs t (tnSlotUnref (w.setFd b n none) i)) := by
  have taken : Acts P (abs t w) (abs { t with refs := i :: t.refs } (w.setFd b n none)) :=
    Acts.one (.ref (.takeFd (abs t w) b n i he hn)) (abs_with (t := t) (abs_setFd ..) _)
  have given := tnSlotUnref_acts (P := P) (t := { t with refs := i :: t.refs })
    (w := w.setFd b n none) (List.mem_cons_self ..) (by show i ∉ t.dying; rw [hd]; simp) hu
    fun _ => hc i
  rw [List.erase_cons_head] at given
  exact taken.trans given

/-- A request of the closing base that waits on the slot is answered first. -/
theorem cancelOwn_acts (ht : Lax t) (b : BaseId) :
    Acts P (abs t w) (abs t (cancelOwn w i b)) ∧ Meek i w (cancelOwn w i b) := by
  unfold cancelOwn
  dsimp only
  have recv : Acts P (abs t w) (abs t (if pendingOf w i .recv b then
        replyPending w i .recv (-1) .ebadf else w)) ∧
      Meek i w (if pendingOf w i .recv b then replyPending w i .recv (-1) .ebadf else w) := by
    split
    · exact ⟨replyPending_acts i (by decide) _ _, .replyPending _ _ _⟩
    · exact ⟨.refl, .refl w⟩
  generalize (if pendingOf w i .recv b then replyPending w i .recv (-1) .ebadf else w) = w1 at recv
  split
  · have sent := tnSlotReplySend_interrupt (P := P) (t := t) (w := w1) i (e := .ebadf) rfl
    rw [ht.owe] at sent
    exact ⟨recv.1.trans sent, recv.2.trans (.tnSlotReplySend _ _)⟩
  · exact recv

/-- The slot of a request is the one its descriptor names. -/
structure Found (w : World) (m : MsgId) (i : SlotIdx) : Prop where
  inUse : (w.sockets i).inUse = true
  nonneg : 0 ≤ (w.msgs m).args 0
  fd : ∀ b, (w.msgs m).socketBase = some b → (w.bases b).fdMap ((w.msgs m).args 0).toNat = some i

theorem tnIpcCmdClosesocket_carried (hP : Permits P w) (hn : t.sending = none) (ht : Lax t)
    {slot : Option SlotIdx} (hf : ∀ i, slot = some i → Found w m i) :
    Carried P t w m (tnIpcCmdClosesocket w m slot) := by
  unfold tnIpcCmdClosesocket
  dsimp only
  split
  · rename_i i b hb
    have found := hf i rfl
    obtain ⟨acts, meek⟩ := cancelOwn_acts (P := P) (w := w) (i := i) (ht.pickUp m) b
    have dropped := dropFd_acts (P := P) (t := t.pickUp m) (i := i) (b := b)
      (n := ((w.msgs m).args 0).toNat) hP.clear hn ht.dying
      (by rw [meek.only.fds]; exact found.fd b hb) (by rw [meek.slot.inUse]; exact found.inUse)
    exact .done (acts.trans dropped) _ _
  · exact .refuse _

/-- One descriptor of a base is closed, if its slot is in use. -/
theorem closeFd_acts (hc : ∀ i, P (.clear i)) (hn : t.sending = none) (hd : t.dying = []) (b : BaseId)
    (n : Nat) : Acts P (abs t w) (abs t (closeFd b w n)) := by
  unfold closeFd
  split
  · exact .refl
  · rename_i i he
    split
    · rename_i hu
      exact dropFd_acts hc hn hd he hu
    · exact .refl

/-- A descriptor that is closed names no slot in use afterwards, and nothing else has changed but
the slot it named. -/
structure Emptied (b : BaseId) (n : Nat) (w w' : World) : Prop where
  stale : ∀ j, (w'.bases b).fdMap n = some j → (w'.sockets j).inUse = false
  gone : (w'.bases b).fdMap n = none ∨ (w'.bases b).fdMap n = (w.bases b).fdMap n
  fds : ∀ c k, (c, k) ≠ (b, n) → (w'.bases c).fdMap k = (w.bases c).fdMap k
  slots : ∀ i, (w.bases b).fdMap n ≠ some i → w'.sockets i = w.sockets i
  last : ∀ i, (w.bases b).fdMap n = some i → 1 < (w.sockets i).refCount →
    (w.sockets i).inUse = true → (w'.sockets i).inUse = true
  rest : Rest w w'

theorem closeFd_emptied (b : BaseId) (n : Nat) : Emptied b n w (closeFd b w n) := by
  unfold closeFd
  split
  · rename_i hnone
    refine ⟨fun j hj => ?_, Or.inr rfl, fun _ _ _ => rfl, fun _ _ => rfl, fun _ _ _ h => h,
      .refl w⟩
    rw [hnone] at hj
    cases hj
  · rename_i i he
    split
    · have only : Only {i} (w.setFd b n none) (tnSlotUnref (w.setFd b n none) i) :=
        .tnSlotUnref (Set.mem_singleton i)
      have rest : Rest w (w.setFd b n none) := (Beside.setFd (j := i) b n none).rest
      have gone : ((tnSlotUnref (w.setFd b n none) i).bases b).fdMap n = none := by
        rw [only.fds]
        simp [World.setFd, World.modBase]
      refine ⟨fun j hj => ?_, Or.inl gone, fun c k hck => ?_, fun j hj => ?_, fun j hj hr hu => ?_,
        rest.trans only.rest⟩
      · rw [gone] at hj
        cases hj
      · rw [only.fds]
        by_cases hc : c = b
        · subst hc
          have hk : k ≠ n := fun hk => hck (by rw [hk])
          simp [World.setFd, World.modBase, hk]
        · simp [World.setFd, World.modBase, hc]
      · have apart : j ∉ ({i} : Set SlotIdx) := fun hji => hj (by
          rw [Set.mem_singleton_iff.mp hji]
          exact he)
        exact (only.slots j apart).trans rfl
      · obtain rfl : i = j := Option.some.inj (he.symm.trans hj)
        unfold tnSlotUnref
        rw [if_pos (show ((w.setFd b n none).sockets i).inUse = true from hu)]
        dsimp only
        have left : (((w.setFd b n none).modSlot i fun s =>
            { s with refCount := s.refCount - 1 }).sockets i).refCount ≠ 0 := by
          rw [sockets_modSlot]
          show (w.sockets i).refCount - 1 ≠ 0
          omega
        rw [if_neg left, sockets_modSlot]
        exact hu
    · rename_i hu
      refine ⟨fun j hj => ?_, Or.inr rfl, fun _ _ _ => rfl, fun _ _ => rfl, fun _ _ _ h => h,
        .refl w⟩
      obtain rfl : i = j := Option.some.inj (he.symm.trans hj)
      simpa using hu

/-- `DUP2` leaves the new descriptor on a free slot when it closes the last reference first. -/
theorem tnIpcCmdDup2_carried (hP : Permits P w) (hn : t.sending = none) (ht : Lax t)
    {slot : Option SlotIdx} (hf : ∀ i, slot = some i → Found w m i)
    (hb : ∀ b, (w.msgs m).socketBase = some b → registered w b)
    (hd : ∀ i b, slot = some i → (w.msgs m).socketBase = some b →
      (w.bases b).fdMap ((w.msgs m).args 1).toNat = some i → (w.sockets i).refCount ≤ 1 →
      (w.msgs m).args 0 ≠ (w.msgs m).args 1 → 0 ≤ (w.msgs m).args 1 → P .dangle) :
    Carried P t w m (tnIpcCmdDup2 w m slot) := by
  unfold tnIpcCmdDup2
  dsimp only
  split
  · rename_i i b hbase
    have found := hf i rfl
    split
    · exact .refuse _
    · rename_i hrange
      split
      · exact .done .refl _ _
      · rename_i hne
        have closed := closeFd_acts (P := P) (t := t.pickUp m) (w := w) hP.clear hn ht.dying b
          ((w.msgs m).args 1).toNat
        have emptied := closeFd_emptied (w := w) b ((w.msgs m).args 1).toNat
        have range : ((w.msgs m).args 1).toNat < (w.bases b).dtablesize := by omega
        have apart : ((w.msgs m).args 0).toNat ≠ ((w.msgs m).args 1).toNat := by
          have := found.nonneg
          omega
        have dangle := fun h1 h2 h3 => hd i b rfl hbase h1 h2 h3 (by omega)
        have isOpen := hb b hbase
        have named := found.fd b hbase
        generalize ((w.msgs m).args 1).toNat = new at closed emptied range apart dangle
        generalize ((w.msgs m).args 0).toNat = old at apart named
        generalize closeFd b w new = w1 at closed emptied
        refine .done (closed.trans ?_) _ _
        have fds : ∀ k, k ≠ new → (w1.bases b).fdMap k = (w.bases b).fdMap k := fun k hk =>
          emptied.fds b k (by simpa using hk)
        unfold tnSlotRef
        cases hu : (w1.sockets i).inUse with
        | true =>
          rw [if_pos (by exact hu)]
          refine Acts.one (.ref (.dup (abs (t.pickUp m) w1) b new old i ?_ ?_ hu emptied.stale ?_)) ?_
          · show (w1.bases b).fdMap old = some i
            rw [fds old apart]
            exact named
          · show new < (w1.bases b).dtablesize
            rw [(emptied.rest.dtab b).1]
            exact range
          · show registered w1 b
            unfold registered
            rw [emptied.rest.openBases]
            exact isOpen
          · rw [abs_modSlot, abs_setFd]
            rfl
        | false =>
          rw [if_neg (by show ¬ (w1.sockets i).inUse = true; simp [hu])]
          refine Acts.one (.ref (.dangle (abs (t.pickUp m) w1) b new i ?_)) (abs_setFd ..)
          -- the slot was in use, so its last reference went with the descriptor
          by_cases hsame : (w.bases b).fdMap new = some i
          · refine dangle hsame ?_ hne
            by_contra hr
            rw [emptied.last i hsame (not_le.mp hr) found.inUse] at hu
            cases hu
          · rw [emptied.slots i hsame, found.inUse] at hu
            cases hu
  · exact .refuse _

/-! ## The parking lot -/

/-- Choosing an id only moves the counter on. -/
theorem chooseParkId_counter (w : World) (id : Int) :
    ∃ n, (chooseParkId w id).1 = { w with nextParkId := n } := by
  have unique : ∀ (fuel : Nat) (w : World), ∃ n, (uniqueParkId fuel w).1 = { w with nextParkId := n } := by
    intro fuel
    induction fuel with
    | zero => exact fun w => ⟨w.nextParkId, rfl⟩
    | succ fuel ih =>
      intro w
      unfold uniqueParkId
      split
      · obtain ⟨n, hn⟩ := ih (bumpParkId w)
        exact ⟨n, hn⟩
      · exact ⟨_, rfl⟩
  unfold chooseParkId
  split
  · obtain ⟨n, hn⟩ := unique 65 w
    split
    all_goals
      rename_i heq
      rw [heq] at hn
      exact ⟨n, hn⟩
  · split
    · exact ⟨w.nextParkId, rfl⟩
    · split <;> exact ⟨w.nextParkId, rfl⟩

theorem tnIpcCmdReleasesocket_carried (hd : t.dying = []) {slot : Option SlotIdx}
    (hf : ∀ i, slot = some i → Found w m i) :
    Carried P t w m (tnIpcCmdReleasesocket w m slot) := by
  unfold tnIpcCmdReleasesocket
  dsimp only
  split
  · rename_i i b hb
    have found := hf i rfl
    split
    · exact .refuse _
    · rename_i hparked
      have free : (w.sockets i).isParked = false := by simpa using hparked
      obtain ⟨n, hn⟩ := chooseParkId_counter w ((w.msgs m).args 1)
      split
      · rename_i heq
        rw [heq] at hn
        obtain rfl := hn
        exact .fail .refl _
      · rename_i w1 id heq
        rw [heq] at hn
        obtain rfl := hn
        refine .done ?_ _ _
        split
        · refine Acts.one (.ref (.parkCopy (abs (t.pickUp m) w) i found.inUse free
            (by show i ∉ t.dying; rw [hd]; simp))) ?_
          unfold tnSlotRef
          rw [if_pos (by rw [sockets_modSlot]; exact found.inUse), abs_modSlot, sockets_modSlot,
            abs_modSlot, slotSet_slotSet]
          rfl
        · refine Acts.one (.ref (.parkMove (abs (t.pickUp m) w) b _ i found.inUse free
            (found.fd b hb))) ?_
          rw [abs_setFd, abs_modSlot]
          rfl
  · exact .refuse _

theorem tnIpcCmdObtainsocket_carried
    (hb : ∀ b, (w.msgs m).socketBase = some b → registered w b) :
    Carried P t w m (tnIpcCmdObtainsocket w m) := by
  unfold tnIpcCmdObtainsocket
  dsimp only
  split
  · exact .refuse _
  · rename_i b hbase
    split
    · exact .refuse _
    · rename_i i hi
      have parked := List.find?_some hi
      simp only [Bool.and_eq_true] at parked
      split
      · exact .refuse _
      · split
        · exact .refuse _
        · rename_i fd hfd
          obtain ⟨range, none⟩ := pickFd?_spec hfd
          refine .done (Acts.one (.ref (.obtain (abs (t.pickUp m) w) b fd i parked.1.1 parked.1.2 range
            none (hb b hbase))) ?_) _ _
          rw [abs_modSlot, abs_setFd]
          congr 1
          simp [TnSocketSlot.view, World.setFd, World.modBase, parked.1.1]

end Tolunnet
