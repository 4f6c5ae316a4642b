import Tolunnet.Desk.Sound
import Tolunnet.Refine.Steps

/-!
# `Tolunnet.Refine.Kinds`: listen pcbs, full pcbs and their owners

What the discipline of the abstract daemon says about the daemon itself: listeners and only they
hold listen pcbs, every pcb is held once, by the slot or accept entry that its callback argument
names, and no operation has ever met a pcb of the wrong kind. So a callback, which finds its slot in
the argument, works for the slot that holds the pcb. A slot that was freed and allocated again is
not confused with its former self, because a pcb that outlives its slot names nobody.
-/

set_option autoImplicit false

namespace Tolunnet

open World

variable {t : Tok} {w w' : World} {i j : SlotIdx} {p : PcbId}

/-! ## Whom an action of lwIP is about -/

/-- Slot `i`, or an entry of its accept queue, holds pcb `p`. -/
def Holds (w : World) (i : SlotIdx) (p : PcbId) : Prop :=
  (w.sockets i).tcpPcb = some p ∨ ∃ x ∈ (w.sockets i).acceptQ, x.newPcb = some p

/-- An action of lwIP is about a pcb that slot `i` holds. -/
def LwipEv.About (w : World) (i : SlotIdx) : LwipEv → Prop
  | .connected p | .recv p _ | .fin p | .sent p _ _ | .poll p | .err p _ | .accept p _ _ _
  | .state p _ | .gone p => Holds w i p
  | .udpRecv p _ _ _ => (w.sockets i).udpPcb = some p
  | .rawRecv p _ _ => (w.sockets i).rawPcb = some p
  | .dnsFound _ _ _ => False

/-- No slot has changed, or only one that the action is about. -/
def Within (w : World) (ev : LwipEv) (w' : World) : Prop :=
  w'.sockets = w.sockets ∨ ∃ j, ev.About w j ∧ ∀ i, i ≠ j → w'.sockets i = w.sockets i

theorem Within.same {ev : LwipEv} (h : Only ∅ w w') : Within w ev w' := Or.inl h.sockets

theorem Within.meek {ev : LwipEv} (ha : ev.About w j) (h : Meek j w w') : Within w ev w' :=
  Or.inr ⟨j, ha, fun i hi => h.only.slots i hi⟩

/-! ## The callbacks -/

theorem within_onLive {ev : LwipEv} {f : TcpPcb → World}
    (hf : ∀ c, w.tcpPcbs p = some c → c.listen = false → Within w ev (f c)) :
    Within w ev (onLive w p f) := by
  unfold onLive
  split
  · rename_i c hc
    split
    · exact .same (.refl w)
    · rename_i hl
      exact hf c hc (by simpa using hl)
  · exact .same (.refl w)

/-- The callbacks of a queued connection work on the queue that holds its entry. -/
theorem within_entry {ev : LwipEv} {e : EntId} {c : TcpPcb} (hs : (abs t w).Sound) (ht : Lax t)
    (hc : w.tcpPcbs p = some c) (ha : c.arg = .entry e) (hev : ∀ j, Holds w j p → ev.About w j)
    (hw : ∀ j x, findEntry w e = some (j, x) → x.listeningSlot = j → Meek j w w') :
    Within w ev w' := by
  obtain ⟨j, x, find, mem, -, hp, home⟩ := owner_of_entry hs ht.conn ht.ent hc ha
  exact .meek (hev j (Or.inr ⟨x, mem, hp⟩)) (hw j x find home)

theorem within_deliver (hs : (abs t w).Sound) (ht : Lax t) {c : TcpPcb}
    (hc : w.tcpPcbs p = some c) (seg : List UInt8) :
    Within w (.recv p seg) (deliver w c p seg) := by
  have free : ∀ w : World, Only ∅ w (w.emit (.pbufFree seg)) := fun w => .emit _ (by simp)
  unfold deliver
  split
  · exact .same (.refl w)
  · rename_i hr
    split
    · rename_i j ha
      have own := owner_of_arg hs ht.conn hc ha fun ho => by
        have null : c.recv = .null := ho.recv
        rw [hr] at null
        cases null
      exact .meek (Or.inl own.tcp) (.tnTcpRecvCb seg)
    · exact .same (free w)
  · split
    · rename_i e ha
      refine within_entry hs ht hc ha (fun _ h => h) fun j x find _ => ?_
      unfold tnTcpQueuedRecvCb
      rw [find]
      dsimp only
      split
      · split
        · exact .refl w
        · split
          · exact .refl w
          · split
            · split
              · exact (Meek.of_only (Only.asked.trans .asked)).trans
                  ((Meek.modEntry _ _).trans (.of_only (free _)))
              · exact .of_only (Only.asked.trans .asked)
            · exact .of_only .asked
      · exact .of_only (free w)
    · exact .same (free w)
    · exact .same (.emit _ (by simp))

theorem within_deliverFin (hs : (abs t w).Sound) (ht : Lax t) {c : TcpPcb}
    (hc : w.tcpPcbs p = some c) : Within w (.fin p) (deliverFin w c p) := by
  unfold deliverFin
  split
  · exact .same (.refl w)
  · rename_i hr
    split
    · rename_i j ha
      have own := owner_of_arg hs ht.conn hc ha fun ho => by
        have null : c.recv = .null := ho.recv
        rw [hr] at null
        cases null
      exact .meek (Or.inl own.tcp) .tnTcpRecvFin
    · exact .same (.refl w)
  · split
    · rename_i e ha
      refine within_entry hs ht hc ha (fun _ h => h) fun j x find _ => ?_
      unfold tnTcpQueuedRecvFin
      rw [find]
      dsimp only
      split
      · exact .modEntry _ _
      · exact .refl w
    · exact .same (.refl w)
    · exact .same (.emit _ (by simp))

theorem within_deliverErr (hs : (abs t w).Sound) (ht : Lax t) {c : TcpPcb}
    (hc : w.tcpPcbs p = some c) (e : ErrT) :
    Within w (.err p e) (deliverErr (w.setPcb p none) c p e) := by
  have lost : Only ∅ w (w.setPcb p none) := .setPcb _
  unfold deliverErr
  split
  · exact .same lost
  · rename_i hr
    split
    · rename_i j ha
      have own := owner_of_arg hs ht.conn hc ha fun ho => by
        have null : c.err = .null := ho.err
        rw [hr] at null
        cases null
      exact .meek (Or.inl own.tcp) ((Meek.of_only lost).trans (.tnTcpErrCb e))
    · exact .same lost
  · split
    · rename_i x ha
      refine within_entry hs ht hc ha (fun _ h => h) fun j y find home => ?_
      unfold tnTcpQueuedErrCb
      rw [show findEntry (w.setPcb p none) x = findEntry w x from rfl, find]
      dsimp only
      rw [home]
      exact (Meek.of_only lost).trans (.tnAcceptQueueRemove x)
    · exact .same lost
    · exact .same (lost.trans (.emit _ (by simp)))

/-- The accept callback of slot `i` changes no other slot but the one it allocates. -/
theorem others_tnTcpAcceptCb {k : SlotIdx} (hk : k ≠ i) (hu : (w.sockets k).inUse = true) :
    (tnTcpAcceptCb w i p).1.sockets k = w.sockets k := by
  unfold tnTcpAcceptCb
  dsimp only
  split
  · rfl
  · split
    · rename_i m hm
      have unparked : (w.setPending i .accept none).sockets k = w.sockets k :=
        (Meek.unpark (w := w) (i := i) .accept).only.slots k hk
      have inUse : ((w.setPending i .accept none).sockets k).inUse = true := by rw [unparked, hu]
      generalize w.setPending i .accept none = w1 at unparked inUse
      split
      · exact (congrFun ((Only.tcpAbort p).trans (.answerMsg _ _ _) :
          Only ∅ w1 _).sockets k).trans unparked
      · rename_i j hfree
        have apart : k ≠ j := fun he => by
          rw [he, freeSlot?_free hfree] at inUse
          cases inUse
        refine Eq.trans ?_ unparked
        have made := (Beside.tnSlotAlloc (w := w1) (j := j) (w.msgs m).socketBase
          (w.msgs m).clientTask afInet sockStream 0)
        generalize tnSlotAlloc w1 j (w.msgs m).socketBase (w.msgs m).clientTask afInet
          sockStream 0 = w2 at made
        refine Eq.trans ?_ (made.slots k apart)
        split
        · exact (Beside.tnSlotFree.trans (.of_only ((Only.tcpAbort p).trans
            (.answerMsg _ _ _)))).slots k apart
        · rename_i fd _
          have placed : Beside j w2 ((w2.setFd ((w.msgs m).socketBase.getD 0) fd (some j)).modSlot j
              fun s => { s with tcpState := .established, tcpPcb := some p }) :=
            (Beside.setFd _ _ _).trans (.modSlot _ fun _ _ => Or.inl rfl)
          exact (placed.trans <| .of_meek (((Meek.adoptPcb.trans (.of_only (.setReply _ _ _))).trans
            (.tnRecordSocketEvent _)).trans (.of_only (.replyMsg _)))).slots k apart
    · split
      · exact congrFun (Only.tcpAbort (S := ∅) p).sockets k
      · have pushed : Meek i w (tnAcceptQueuePush w i p).1 := by
          unfold tnAcceptQueuePush
          split
          · exact .refl w
          · split
            · have h : Meek i w.asked (w.asked.modSlot i fun s =>
                  { s with acceptQ := s.acceptQ ++ [{ id := w.ask.id, newPcb := some p,
                                                      listeningSlot := i }],
                           acceptCount := s.acceptCount + 1 }) :=
                .assign _ fun _ => by exact ⟨rfl, rfl, rfl, rfl, rfl, rfl⟩
              exact (Meek.of_only .asked).trans (h.trans
                (.of_only (((Only.onPcb _).trans (.onFull _ _)).trans (.onFull _ _))))
            · exact .of_only .asked
        split
        · rename_i heq
          rw [heq] at pushed
          exact (pushed.trans (Meek.tnSignalSocket.trans (.tnRecordSocketEvent _))).only.slots k hk
        · rename_i heq
          rw [heq] at pushed
          exact (pushed.trans (.of_only (Only.tcpAbort p))).only.slots k hk

/-- An incoming connection changes its listener and the slot that takes it. -/
theorem others_deliverAccept {l : PcbId} {c : TcpPcb} (hs : (abs t w).Sound) (ht : Lax t)
    (hc : w.tcpPcbs l = some c) (hl : c.listen = true) (ip port : Nat) {k : SlotIdx}
    (hk : ¬ Holds w k l) (hu : (w.sockets k).inUse = true) :
    (deliverAccept w c p ip port).sockets k = w.sockets k := by
  unfold deliverAccept
  dsimp only
  generalize hw : w.setPcb p _ = w1
  have lost : Only ∅ w w1 := hw ▸ .setPcb _
  split
  · rename_i i ha
    -- a listen pcb is no orphan, so its argument names the listener
    have own := owner_of_arg hs ht.conn hc ha fun ho => by
      have full : c.listen = false := ho.listen
      rw [hl] at full
      cases full
    have apart : k ≠ i := fun he => hk (Or.inl (he ▸ own.tcp))
    have kept : (tnTcpAcceptCb w1 i p).1.sockets k = w.sockets k := by
      rw [others_tnTcpAcceptCb apart (by rw [lost.sockets]; exact hu), lost.sockets]
    split
    · rename_i heq
      rw [heq] at kept
      rw [(Only.tcpAbort (S := ∅) p).sockets]
      exact kept
    · rename_i heq
      rw [heq] at kept
      exact kept
  · rw [(Only.tcpAbort (S := ∅) p).sockets, lost.sockets]

/-- An action that is no incoming connection changes at most a slot that it is about. -/
theorem within_runEv (hs : (abs t w).Sound) (ht : Lax t) (ev : LwipEv)
    (hev : ∀ l p ip port, ev ≠ .accept l p ip port) : Within w ev (runEv w ev) := by
  cases ev with
  -- A pcb with a callback that an entry's pcb has not is a slot's.
  | connected p =>
    refine within_onLive fun c hc _ => ?_
    split
    · rename_i j hst _ ha
      have own := owner_of_arg hs ht.conn hc ha fun ho => by
        have synced : c.state.synced = true := ho.state
        rw [hst] at synced
        cases synced
      exact .meek (Or.inl own.tcp) ((Meek.of_only (.setPcb _)).trans .tnTcpConnectedCb)
    · exact .same (.refl w)
  | recv p seg =>
    refine within_onLive fun c hc _ => ?_
    split
    · exact within_deliver hs ht hc seg
    · exact .same (.refl w)
  | fin p =>
    refine within_onLive fun c hc _ => ?_
    split
    · exact within_deliverFin hs ht hc
    · exact .same (.refl w)
  | sent p n q =>
    refine within_onLive fun c hc _ => ?_
    split
    · rename_i j hsent ha
      split
      · have own := owner_of_arg hs ht.conn hc ha fun ho => by
          have none : c.sent = false := ho.sent
          rw [hsent] at none
          cases none
        exact .meek (Or.inl own.tcp) ((Meek.of_only (.setPcb _)).trans .tnTcpSentCb)
      · exact .same (.refl w)
    · exact .same (.refl w)
  | poll p =>
    refine within_onLive fun c hc _ => ?_
    split
    · rename_i j hpoll ha
      have own := owner_of_arg hs ht.conn hc ha fun ho => by
        have none : c.poll = false := ho.poll
        rw [hpoll] at none
        cases none
      exact .meek (Or.inl own.tcp) .tnTcpPollCb
    · exact .same (.refl w)
  | err p e =>
    refine within_onLive fun c hc _ => ?_
    split
    · exact .same (.refl w)
    · exact within_deliverErr hs ht hc e
  -- A connection that arrives is the case left out.
  | accept l p ip port => exact absurd rfl (hev l p ip port)
  | state p st =>
    refine within_onLive fun c _ _ => ?_
    split
    · exact .same (.setPcb _)
    · exact .same (.refl w)
  | gone p =>
    refine within_onLive fun c _ _ => ?_
    split
    · exact .same (.setPcb _)
    · exact .same (.refl w)
  -- A datagram pcb names its slot.
  | udpRecv p seg ip port =>
    simp only [runEv]
    split
    · rename_i c hc
      have held : (w.sockets c.arg).udpPcb = some p := ((hs.disc.slots c.arg).udp p).mpr (by
        show (w.udpPcbs p).map DgramPcb.arg = _
        rw [hc]
        rfl)
      split
      · exact .meek held ((Meek.of_only (.emit _ (by simp))).trans (.queueDgram seg ip port))
      · exact .same (.refl w)
    · exact .same (.refl w)
  | rawRecv p seg ip =>
    simp only [runEv]
    split
    · rename_i c hc
      have held : (w.sockets c.arg).rawPcb = some p := ((hs.disc.slots c.arg).raw p).mpr (by
        show (w.rawPcbs p).map DgramPcb.arg = _
        rw [hc]
        rfl)
      split
      · exact .meek held (.queueDgram seg ip 0)
      · exact .same (.refl w)
    · exact .same (.refl w)
  | dnsFound name addr m =>
    left
    show (if m = 0 then w else tnDnsFoundCb w name addr m).sockets = w.sockets
    split
    · rfl
    · unfold tnDnsFoundCb
      split
      · rfl
      · dsimp only
        split <;> rfl

/-- A slot that an action of lwIP changes holds the pcb of the action, or was free and takes an
incoming connection. -/
theorem changed_runEv (hs : (abs t w).Sound) (ht : Lax t) (ev : LwipEv)
    (hne : (runEv w ev).sockets i ≠ w.sockets i) :
    ev.About w i ∨ ((w.sockets i).inUse = false ∧ ∃ l p ip port, ev = .accept l p ip port) := by
  by_cases hev : ∃ l p ip port, ev = .accept l p ip port
  · obtain ⟨l, p, ip, port, rfl⟩ := hev
    by_cases hk : Holds w i l
    · exact Or.inl hk
    · cases hu : (w.sockets i).inUse with
      | false => exact Or.inr ⟨rfl, l, p, ip, port, rfl⟩
      | true =>
        refine absurd ?_ hne
        simp only [runEv]
        split
        · rename_i c hc
          split
          · rename_i h
            exact others_deliverAccept hs ht hc h.1 ip port hk hu
          · rfl
        · rfl
  · rcases within_runEv hs ht ev fun l p ip port he => hev ⟨l, p, ip, port, he⟩ with h | ⟨j, ha, h⟩
    · exact absurd (congrFun h i) hne
    · by_cases hij : i = j
      · exact Or.inl (hij ▸ ha)
      · exact absurd (h i hij) hne

/-! ## The discipline of the daemon -/

/-- Listeners hold listen pcbs, every pcb is held once, by the slot or the entry that its callback
argument names, and no operation has met a pcb of the wrong kind. -/
structure Kinds (w : World) : Prop where
  listening : ∀ i, ((w.sockets i).inUse = true ∧ (w.sockets i).tcpState = .listening) ↔
    ∃ p c, (w.sockets i).tcpPcb = some p ∧ w.tcpPcbs p = some c ∧ c.listen = true
  slots : ∀ i j p, (w.sockets i).tcpPcb = some p → (w.sockets j).tcpPcb = some p → i = j
  entries : ∀ i j p, ∀ x ∈ (w.sockets i).acceptQ, ∀ y ∈ (w.sockets j).acceptQ,
    x.newPcb = some p → y.newPcb = some p → i = j ∧ x = y
  apart : ∀ i j p, (w.sockets i).tcpPcb = some p → ∀ x ∈ (w.sockets j).acceptQ, x.newPcb ≠ some p
  live : ∀ i p, Holds w i p → ∃ c, w.tcpPcbs p = some c
  named : ∀ p c, w.tcpPcbs p = some c →
    match c.arg with
    | .slot i => (w.sockets i).tcpPcb = some p
    | .entry e => ∃ i, ∃ x ∈ (w.sockets i).acceptQ, x.id = e ∧ x.newPcb = some p
    | .null => ∀ i, ¬ Holds w i p
  udp : ∀ p i, (w.sockets i).udpPcb = some p ↔ ∃ c, w.udpPcbs p = some c ∧ c.arg = i
  raw : ∀ p i, (w.sockets i).rawPcb = some p ↔ ∃ c, w.rawPcbs p = some c ∧ c.arg = i
  faults : ∀ p op, .fault p op ∉ w.trace

/-- The argument of a pcb that slot `i` holds. -/
theorem arg_of_slot (hs : (abs t w).Sound) (hp : (w.sockets i).tcpPcb = some p) :
    ∃ c, w.tcpPcbs p = some c ∧ c.arg = .slot i ∧ Linked c.view (w.sockets i).tcpState := by
  obtain ⟨v, hv, ha, hl⟩ := (hs.disc.slots i).pcb p hp
  obtain ⟨c, hc, rfl⟩ := abs_pcb_some.mp hv
  exact ⟨c, hc, ha, hl⟩

/-- The argument of a pcb that an accept entry holds. -/
theorem arg_of_entry (hs : (abs t w).Sound) {x : TnAcceptEntry} (hx : x ∈ (w.sockets i).acceptQ)
    (hp : x.newPcb = some p) : ∃ c, w.tcpPcbs p = some c ∧ c.arg = .entry x.id := by
  obtain ⟨-, p', v, hp', hv, queued⟩ := hs.disc.entries.queued i x hx
  obtain rfl : p = p' := Option.some.inj (hp.symm.trans hp')
  obtain ⟨c, hc, rfl⟩ := abs_pcb_some.mp hv
  exact ⟨c, hc, queued.arg⟩

/-- A sound state at rest keeps the kinds. -/
theorem Kinds.of_sound (hs : (abs t w).Sound) (ht : Lax t) : Kinds w where
  listening := fun i => by
    -- A listening pcb and a listening slot go together.
    constructor
    · rintro ⟨hu, hst⟩
      cases hp : (w.sockets i).tcpPcb with
      | none =>
        rcases (hs.disc.slots i).noPcb hp with h | h | h | h | h
        · exact absurd (hst.symm.trans h) (by decide)
        · exact absurd (hst.symm.trans h) (by decide)
        · exact absurd (hst.symm.trans h) (by decide)
        · exact absurd (hu.symm.trans h) (by decide)
        · rw [abs_tok, ht.dying] at h
          cases h
      | some p =>
        obtain ⟨c, hc, -, linked⟩ := arg_of_slot hs hp
        rw [hst] at linked
        exact ⟨p, c, rfl, hc, linked⟩
    · rintro ⟨p, c, hp, hc, hl⟩
      obtain ⟨c', hc', -, linked⟩ := arg_of_slot hs hp
      obtain rfl : c = c' := Option.some.inj (hc.symm.trans hc')
      refine ⟨?_, ?_⟩
      · by_contra hu
        have free : (w.sockets i).inUse = false := by simpa using hu
        have none := ((hs.disc.slots i).free free).2.1
        rw [show ((abs t w).slot i).tcp = some p from hp] at none
        cases none
      · by_contra hst
        have full : c.listen = false := linked.full hst
        rw [hl] at full
        cases full
  slots := fun i j p hi hj => by
    obtain ⟨c, hc, ha, -⟩ := arg_of_slot hs hi
    obtain ⟨c', hc', ha', -⟩ := arg_of_slot hs hj
    obtain rfl : c = c' := Option.some.inj (hc.symm.trans hc')
    exact CbArg.slot.inj (ha.symm.trans ha')
  -- Entries that share a pcb share an id, and ids are distinct.
  entries := fun i j p x hx y hy hxp hyp => by
    obtain ⟨c, hc, ha⟩ := arg_of_entry hs hx hxp
    obtain ⟨c', hc', ha'⟩ := arg_of_entry hs hy hyp
    obtain rfl : c = c' := Option.some.inj (hc.symm.trans hc')
    have id : x.id = y.id := CbArg.entry.inj (ha.symm.trans ha')
    obtain rfl : i = j := hs.disc.entries.apart i j x hx y hy id
    exact ⟨rfl, List.inj_on_of_nodup_map (hs.disc.entries.nodup i) hx hy id⟩
  apart := fun i j p hi x hx hxp => by
    obtain ⟨c, hc, ha, -⟩ := arg_of_slot hs hi
    obtain ⟨c', hc', ha'⟩ := arg_of_entry hs hx hxp
    obtain rfl : c = c' := Option.some.inj (hc.symm.trans hc')
    exact CbArg.noConfusion (ha.symm.trans ha')
  live := fun i p hp => by
    rcases hp with hp | ⟨x, hx, hp⟩
    · obtain ⟨c, hc, -⟩ := arg_of_slot hs hp
      exact ⟨c, hc⟩
    · obtain ⟨c, hc, -⟩ := arg_of_entry hs hx hp
      exact ⟨c, hc⟩
  -- Between steps nothing is in hand, so a pcb has a slot or an entry.
  named := fun p c hc => by
    have own := (hs.disc.owned p c.view (abs_pcb_some.mpr ⟨c, hc, rfl⟩)).resolve_left
      (by rw [abs_tok, ht.conn]; simp)
    unfold Abs.Owned at own
    split
    · rename_i i ha
      rw [show c.view.arg = .slot i from ha] at own
      exact own
    · rename_i e ha
      rw [show c.view.arg = .entry e from ha] at own
      refine own.resolve_right ?_
      rintro ⟨x, hx, -⟩
      rw [abs_tok, ht.ent] at hx
      cases hx
    · rename_i ha
      rintro i (hp | ⟨x, hx, hp⟩)
      · obtain ⟨c', hc', ha', -⟩ := arg_of_slot hs hp
        obtain rfl : c = c' := Option.some.inj (hc.symm.trans hc')
        exact CbArg.noConfusion (ha.symm.trans ha')
      · obtain ⟨c', hc', ha'⟩ := arg_of_entry hs hx hp
        obtain rfl : c = c' := Option.some.inj (hc.symm.trans hc')
        exact CbArg.noConfusion (ha.symm.trans ha')
  udp := fun p i => ((hs.disc.slots i).udp p).trans Option.map_eq_some_iff
  raw := fun p i => ((hs.disc.slots i).raw p).trans Option.map_eq_some_iff
  faults := fun p op hf => hs.disc.faults p op (List.mem_filter.mpr ⟨hf, rfl⟩)

/-- In every state that the daemon reaches the kinds are kept, and whatever lwIP does next changes
no slot but one that holds the pcb it is about, or a free one that takes an incoming connection. -/
theorem reached_kinds (hr : Reachable w) :
    Kinds w ∧ ∀ env ev i, (runEv { w with env := env } ev).sockets i ≠ w.sockets i →
      ev.About w i ∨ ((w.sockets i).inUse = false ∧ ∃ l p ip port, ev = .accept l p ip port) := by
  have lax := restTok_lax Set.univ
  have sound := hr.abs_sound
  refine ⟨.of_sound sound lax, fun env ev i hne => ?_⟩
  have moved : (abs (restTok Set.univ) { w with env := env }).Sound := sound
  exact changed_runEv moved lax ev hne

/-- A client with a connection: slot 0 holds pcb 1, which names it. -/
theorem reached_kinds_stream : (streamClient.sockets firstSlot).tcpPcb = some 1 ∧
    Kinds streamClient ∧ ∀ env ev i,
      (runEv { streamClient with env := env } ev).sockets i ≠ streamClient.sockets i →
        ev.About streamClient i ∨
          ((streamClient.sockets i).inUse = false ∧ ∃ l p ip port, ev = .accept l p ip port) :=
  ⟨by decide, reached_kinds streamClient_reach⟩

end Tolunnet
