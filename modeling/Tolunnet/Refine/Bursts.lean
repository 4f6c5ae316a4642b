import Tolunnet.Refine.Events

/-!
# `Tolunnet.Refine.Bursts`: a burst of lwIP's actions

Every action of lwIP as a run of acts, and with it a burst of them. lwIP calls what is registered on
a live pcb, with the argument that is stored in it. The discipline of the abstract daemon says what
that can be: an argument that names a slot goes with the callbacks of a slot, one that names an
accept entry with those of an entry, and a pcb that the daemon has let go of has none left. So the
mismatched cases of the delivery, which record a fault, do not arise.
-/

set_option autoImplicit false

namespace Tolunnet

open World

variable {P : Label → Prop} {t : Tok} {w : World} {i : SlotIdx} {p : PcbId} {S : Set PcbId}

/-! ## What is registered on a pcb -/

/-- The callbacks of a pcb that names an accept entry are those of an entry. -/
theorem queued_of_arg (hs : (abs t w).Sound) (hn : t.conn = none) (he : t.ent = none) {c : TcpPcb}
    (hc : w.tcpPcbs p = some c) {e : EntId} (ha : c.arg = .entry e) : Queued c.view e := by
  obtain ⟨j, x, -, hx, rfl, hp, -⟩ := owner_of_entry hs hn he hc ha
  obtain ⟨-, p', c', hp', hc', hq⟩ := hs.disc.entries.queued j x hx
  obtain rfl : p = p' := Option.some.inj (hp.symm.trans hp')
  rw [abs_pcb, hc, Option.map_some, Option.some.injEq] at hc'
  exact hc' ▸ hq

/-- The callbacks of a full pcb that names a slot are those of a slot. -/
theorem Linked.callbacks {c : PcbView} {st : TnTcpState} (h : Linked c st) (hl : c.listen = false) :
    c.recv ≠ .queued ∧ c.err = .slot := by
  cases st with
  | listening =>
    have listens : c.listen = true := h
    exact Bool.noConfusion (hl.symm.trans listens)
  | error => exact h.elim
  | _ => exact ⟨h.2.2.1, h.2.1⟩

/-- A pcb whose argument names nobody has no callbacks. -/
theorem orphan_of_arg (hs : (abs t w).Sound) (hn : t.conn = none) {c : TcpPcb}
    (hc : w.tcpPcbs p = some c) (ha : c.arg = .null) : c.view.Orphan := by
  have hown := (hs.disc.owned p c.view (abs_pcb_some.mpr ⟨c, hc, rfl⟩)).resolve_left
    (by rw [abs_tok, hn]; simp)
  unfold Abs.Owned at hown
  rw [show c.view.arg = .null from ha] at hown
  exact hown

/-- The owner of a pcb that names a slot. -/
theorem owner_of_slot (hs : (abs t w).Sound) (hn : t.conn = none) {c : TcpPcb}
    (hc : w.tcpPcbs p = some c) (ha : c.arg = .slot i) : Owner w p c i := by
  refine owner_of_arg hs hn hc (by rw [ha]; rfl) fun ho => ?_
  have null : c.arg = .null := ho.arg
  rw [ha] at null
  cases null

/-! ## Deliveries -/

/-- A segment. -/
theorem deliver_acts (hi : Idle t w S) {c : TcpPcb} (hc : w.tcpPcbs p = some c)
    (hl : c.listen = false) (hsy : c.state.synced = true) (seg : List UInt8) :
    Acts P (abs t w) (abs t (deliver w c p seg)) := by
  refine Acts.of_sound fun hs => ?_
  cases ha : c.arg with
  | null =>
    have none : c.recv = .null := (orphan_of_arg hs hi.conn hc ha).recv
    unfold deliver
    rw [none]
  | slot i =>
    have ho := owner_of_slot hs hi.conn hc ha
    unfold deliver
    cases hr : c.recv with
    | null => exact .refl
    | slot =>
      simp only [ha, CbArg.slotIdx]
      exact tnTcpRecvCb_acts hc ho hl hsy seg
    | queued => exact absurd hr (ho.linked.callbacks hl).1
  | entry e =>
    have hq : c.recv = .queued := (queued_of_arg hs hi.conn hi.ent hc ha).recv
    unfold deliver
    simp only [hq, ha]
    exact tnTcpQueuedRecvCb_acts e seg

/-- A FIN. -/
theorem deliverFin_acts (hi : Idle t w S) {c : TcpPcb} (hc : w.tcpPcbs p = some c)
    (hl : c.listen = false) (hsy : c.state.synced = true) :
    Acts P (abs t w) (abs t (deliverFin w c p)) := by
  refine Acts.of_sound fun hs => ?_
  cases ha : c.arg with
  | null =>
    have none : c.recv = .null := (orphan_of_arg hs hi.conn hc ha).recv
    unfold deliverFin
    rw [none]
  | slot i =>
    have ho := owner_of_slot hs hi.conn hc ha
    unfold deliverFin
    cases hr : c.recv with
    | null => exact .refl
    | slot =>
      simp only [ha, CbArg.slotIdx]
      exact tnTcpRecvFin_acts hs hi.joined hc ho hl hsy
    | queued => exact absurd hr (ho.linked.callbacks hl).1
  | entry e =>
    have hq : c.recv = .queued := (queued_of_arg hs hi.conn hi.ent hc ha).recv
    unfold deliverFin
    simp only [hq, ha]
    exact tnTcpQueuedRecvFin_acts e

/-- The end of a connection. -/
theorem deliverErr_acts (hi : Idle t w S) {c : TcpPcb} (hc : w.tcpPcbs p = some c)
    (hl : c.listen = false) (hn : c.err ≠ .null) (e : ErrT) :
    Acts P (abs t w) (abs t (deliverErr (w.setPcb p none) c p e)) := by
  refine Acts.of_sound fun hs => ?_
  cases ha : c.arg with
  | null => exact absurd (orphan_of_arg hs hi.conn hc ha).err hn
  | slot i =>
    have ho := owner_of_slot hs hi.conn hc ha
    have err : c.err = .slot := (ho.linked.callbacks hl).2
    unfold deliverErr
    simp only [err, ha, CbArg.slotIdx]
    exact err_acts hs hi.joined ho hl e
  | entry x =>
    have hq : c.err = .queued := (queued_of_arg hs hi.conn hi.ent hc ha).err
    unfold deliverErr
    simp only [hq, ha]
    exact queuedErr_acts hs hi.conn hi.ent hc ha

/-- An incoming connection. -/
theorem deliverAccept_acts (hP : ∀ l, Cb w l → P l) (hi : Idle t w S) {l : PcbId} {c : TcpPcb}
    (hc : w.tcpPcbs l = some c) (hl : c.listen = true) (hp : w.tcpPcbs p = none) (ip port : Nat) :
    Acts P (abs t w) (abs t (deliverAccept w c p ip port)) := by
  refine Acts.of_sound fun hs => ?_
  -- Only a slot that listens holds a listener.
  have hown := (hs.disc.owned l c.view (abs_pcb_some.mpr ⟨c, hc, rfl⟩)).resolve_left
    (by rw [abs_tok, hi.conn]; simp)
  unfold Abs.Owned at hown
  have full : c.view.listen ≠ false := fun h => Bool.noConfusion (hl.symm.trans h)
  cases ha : c.arg with
  | null =>
    rw [show c.view.arg = .null from ha] at hown
    exact absurd hown.listen full
  | entry e => exact absurd (queued_of_arg hs hi.conn hi.ent hc ha).listen full
  | slot i =>
    have ho := owner_of_slot hs hi.conn hc ha
    have listening : (w.sockets i).tcpState = .listening := by
      by_contra hne
      exact full (ho.linked.full hne)
    unfold deliverAccept
    simp only [ha, CbArg.slotIdx]
    generalize hn : (TcpPcb.mk .. : TcpPcb) = n
    have fresh : n.view.Fresh := by
      subst hn
      exact ⟨rfl, rfl, rfl, rfl, rfl, rfl⟩
    have made : Acts P (abs t w) (abs { t with conn := some p } (w.setPcb p (some n))) :=
      Acts.one (.tcp (.newConn (abs t w) p n.view (by rw [abs_pcb, hp]; rfl) fresh hi.conn))
        (abs_with (abs_setPcb t w p (some n)) _)
    have calm : Calm w (w.setPcb p (some n)) := (Only.setPcb (some n)).calm
    have idle := hi.calm calm
    have cb : ∀ l, Cb (w.setPcb p (some n)) l → P l := fun l h => hP l (calm.cb h)
    refine made.trans ?_
    have answer := tnTcpAcceptCb_answer (p := p) (w := w.setPcb p (some n)) ho.inUse listening
    have accepted : Acts P (abs { t with conn := some p } (w.setPcb p (some n)))
        (abs t (tnTcpAcceptCb (w.setPcb p (some n)) i p).1) := by
      cases hm : (w.sockets i).pending .accept with
      | some m => exact acceptParked_acts cb idle ho.inUse listening hm
      | none => exact acceptQueue_acts idle ho.inUse listening hm
    split
    · rename_i heq
      rw [heq] at answer
      exact absurd rfl answer
    · rename_i heq
      rw [heq] at accepted
      exact accepted

/-! ## Bursts -/

/-- An action on a live full pcb. -/
theorem onLive_acts {f : TcpPcb → World}
    (hf : ∀ c, w.tcpPcbs p = some c → c.listen = false → Acts P (abs t w) (abs t (f c))) :
    Acts P (abs t w) (abs t (onLive w p f)) := by
  unfold onLive
  split
  · rename_i c hc
    split
    · exact .refl
    · rename_i hl
      exact hf c hc (by simpa using hl)
  · exact .refl

/-- A datagram pcb delivers to a slot that is no stream. -/
theorem dgram_slot (hs : (abs t w).Sound) {c : DgramPcb}
    (hc : w.udpPcbs p = some c ∨ w.rawPcbs p = some c) :
    (w.sockets c.arg).type ≠ sockStream := by
  have slot := hs.disc.slots c.arg
  refine slot.dgram (hc.imp (fun hc => ?_) fun hc => ?_)
  · have held : ((abs t w).slot c.arg).udp = some p :=
      (slot.udp p).mpr (by show (w.udpPcbs p).map DgramPcb.arg = _; rw [hc]; rfl)
    rw [held]
    rfl
  · have held : ((abs t w).slot c.arg).raw = some p :=
      (slot.raw p).mpr (by show (w.rawPcbs p).map DgramPcb.arg = _; rw [hc]; rfl)
    rw [held]
    rfl

/-- One action of lwIP. -/
theorem runEv_acts (hP : ∀ l, Cb w l → P l) (hi : Idle t w S) (ev : LwipEv)
    (hev : ∀ p, ev = .poll p → p ∈ S) : Acts P (abs t w) (abs t (runEv w ev)) := by
  refine Acts.of_sound fun hs => ?_
  -- A pcb with a callback, or one that is still in the handshake, has not been let go.
  cases ev with
  | connected p =>
    refine onLive_acts fun c hc hl => ?_
    split
    · rename_i i hst _ ha
      have ho := owner_of_arg hs hi.conn hc ha fun ho => by
        have synced : c.state.synced = true := ho.state
        rw [hst] at synced
        cases synced
      exact connected_acts hi.joined hc ho hl hst
    · exact .refl
  | recv p seg =>
    refine onLive_acts fun c hc hl => ?_
    split
    · rename_i h
      exact deliver_acts hi hc hl h.1 seg
    · exact .refl
  | fin p =>
    refine onLive_acts fun c hc hl => ?_
    split
    · rename_i h
      exact deliverFin_acts hi hc hl h
    · exact .refl
  | sent p n q =>
    refine onLive_acts fun c hc hl => ?_
    split
    · rename_i i hsent ha
      split
      · have ho := owner_of_arg hs hi.conn hc ha fun ho => by
          have none : c.sent = false := ho.sent
          rw [hsent] at none
          cases none
        exact sent_acts hs hc ho n q
      · exact .refl
    · exact .refl
  | poll p =>
    refine onLive_acts fun c hc hl => ?_
    split
    · rename_i i hpoll ha
      have ho := owner_of_arg hs hi.conn hc ha fun ho => by
        have none : c.poll = false := ho.poll
        rw [hpoll] at none
        cases none
      exact tnTcpPollCb_acts (hi.poll i p (hev p rfl) ho.tcp)
    · exact .refl
  | err p e =>
    refine onLive_acts fun c hc hl => ?_
    split
    · exact .refl
    · rename_i hn
      exact deliverErr_acts hi hc hl hn e
  | accept l p ip port =>
    unfold runEv
    dsimp only
    split
    · rename_i c hc
      split
      · rename_i h
        exact deliverAccept_acts hP hi hc h.1 h.2.2 ip port
      · exact .refl
    · exact .refl
  | state p st =>
    refine onLive_acts fun c hc hl => ?_
    split
    · rename_i h
      exact Acts.one (.tcp (.state (abs t w) p c.view st (abs_pcb_some.mpr ⟨c, hc, rfl⟩) h.1 h.2))
        (abs_setPcb ..)
    · exact .refl
  | gone p =>
    refine onLive_acts fun c hc hl => ?_
    split
    · rename_i ha
      exact Acts.one (.tcp (.gone (abs t w) p c.view (abs_pcb_some.mpr ⟨c, hc, rfl⟩) ha hi.conn))
        (abs_setPcb ..)
    · exact .refl
  | udpRecv p seg ip port =>
    unfold runEv
    dsimp only
    split
    · rename_i c hc
      split
      · have freed : abs t (w.emit (.pbufFree seg)) = abs t w := abs_emit_pbufFree t w seg
        have queued := queueDgram_acts (P := P) (t := t) (w := w.emit (.pbufFree seg))
          (dgram_slot hs (.inl hc)) seg ip port
        rw [freed] at queued
        exact queued
      · exact .refl
    · exact .refl
  | rawRecv p seg ip =>
    unfold runEv
    dsimp only
    split
    · rename_i c hc
      split
      · exact queueDgram_acts (dgram_slot hs (.inr hc)) seg ip 0
      · exact .refl
    · exact .refl
  | dnsFound name addr m =>
    show Acts P (abs t w) (abs t (if m = 0 then w else tnDnsFoundCb w name addr m))
    split
    · exact .refl
    · exact tnDnsFoundCb_acts name addr

/-- A burst of actions. -/
theorem runEvs_acts (evs : List LwipEv) (hP : ∀ l, Cb w l → P l) (hi : Idle t w S)
    (hev : ∀ p, .poll p ∈ evs → p ∈ S) : Acts P (abs t w) (abs t (runEvs w evs)) := by
  induction evs generalizing w with
  | nil => exact .refl
  | cons ev evs ih =>
    have one : Acts P (abs t w) (abs t (runEv w ev)) :=
      runEv_acts hP hi ev fun p hp => hev p (hp ▸ List.mem_cons_self ..)
    have calm : Calm w (runEv w ev) := .runEv ev
    exact one.trans (ih (fun l hl => hP l (calm.cb hl)) (hi.calm calm) fun p hp =>
      hev p (List.mem_cons_of_mem _ hp))

end Tolunnet
