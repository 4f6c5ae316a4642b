import Tolunnet.Options.Quiet
import Tolunnet.Options.Setting

/-!
# `Tolunnet.Options.Slots`: what becomes of a slot

While the daemon works a slot in use keeps an option (`Keeps`): it stores what it stored, and its pcb
has the value it had. A slot that is taken in between for an incoming connection starts with the
options of its listener (`Born`), and the fields of its pcb are those of a pcb that lwIP has just
made.
-/

set_option autoImplicit false

namespace Tolunnet

open World

variable {o : SockOpt} {N : PcbId → Prop} {w w' w'' : World} {i j : SlotIdx}
  {m : MsgId} {p : PcbId} {S : Set SlotIdx} {P : Set PcbId}

/-! ## A slot that stays in use -/

/-- Slot `i` stores what it stored, and its pcb has the value it had or, if `N` holds of it, the
value 1. -/
structure Keeps (o : SockOpt) (N : PcbId → Prop) (w w' : World) (i : SlotIdx) : Prop where
  opts : storedOpt (w'.sockets i).opts o = storedOpt (w.sockets i).opts o
  tcp : ∀ p c', (w'.sockets i).tcpPcb = some p → w'.tcpPcbs p = some c' →
    (w.sockets i).tcpPcb = some p ∧ ∃ c, w.tcpPcbs p = some c ∧ c'.listen = c.listen ∧
      (tcpField c' o = tcpField c o ∨ (N p ∧ tcpField c' o = some 1))
  udp : ∀ p c', (w'.sockets i).udpPcb = some p → w'.udpPcbs p = some c' →
    (w.sockets i).udpPcb = some p ∧ ∃ c, w.udpPcbs p = some c ∧ dgramField c' o = dgramField c o
  raw : ∀ p c', (w'.sockets i).rawPcb = some p → w'.rawPcbs p = some c' →
    (w.sockets i).rawPcb = some p ∧ ∃ c, w.rawPcbs p = some c ∧ dgramField c' o = dgramField c o

namespace Keeps

/-- A slot outside those that are exempt, with a pcb outside those that are. -/
theorem of_tends (h : Tends o S P w w') (hu : (w'.sockets i).inUse = true) (hi : i ∉ S)
    (hp : ∀ p, (w'.sockets i).tcpPcb = some p → p ∉ P) : Keeps o N w w' i where
  opts := (h.slot i hi).opts hu
  tcp := by
    intro p c' hl hc'
    obtain ⟨c, hc, same⟩ := h.tcp p c' (hp p hl) hc'
    refine ⟨?_, c, hc, same.listen, .inl same.field⟩
    rcases (h.slot i hi).tcp with he | he
    · rw [← he, hl]
    · rw [he] at hl
      cases hl
  udp := by
    intro p c' hl hc'
    refine ⟨?_, h.udp p c' hc'⟩
    rcases (h.slot i hi).udp with he | he
    · rw [← he, hl]
    · rw [he] at hl
      cases hl
  raw := by
    intro p c' hl hc'
    refine ⟨?_, h.raw p c' hc'⟩
    rcases (h.slot i hi).raw with he | he
    · rw [← he, hl]
    · rw [he] at hl
      cases hl

theorem of_stays (h : Stays o w w') (hu : (w'.sockets i).inUse = true) : Keeps o N w w' i :=
  of_tends h hu (Set.notMem_empty i) fun p _ => Set.notMem_empty p

theorem trans (h : Keeps o N w w' i) (h' : Keeps o N w' w'' i) : Keeps o N w w'' i where
  opts := h'.opts.trans h.opts
  tcp := by
    intro p c'' hl hc''
    obtain ⟨hl', c', hc', listen', field'⟩ := h'.tcp p c'' hl hc''
    obtain ⟨hl0, c, hc, listen, field⟩ := h.tcp p c' hl' hc'
    refine ⟨hl0, c, hc, listen'.trans listen, ?_⟩
    rcases field' with same' | on
    · rw [same']
      exact field
    · exact .inr on
  udp := by
    intro p c'' hl hc''
    obtain ⟨hl', c', hc', field'⟩ := h'.udp p c'' hl hc''
    obtain ⟨hl0, c, hc, field⟩ := h.udp p c' hl' hc'
    exact ⟨hl0, c, hc, field'.trans field⟩
  raw := by
    intro p c'' hl hc''
    obtain ⟨hl', c', hc', field'⟩ := h'.raw p c'' hl hc''
    obtain ⟨hl0, c, hc, field⟩ := h.raw p c' hl' hc'
    exact ⟨hl0, c, hc, field'.trans field⟩

/-- The pcb still mirrors the slot, if the slot stores 1 where `N` holds of the pcb. -/
theorem mirrors (h : Keeps o N w w' i)
    (hN : ∀ p, (w.sockets i).tcpPcb = some p → N p → storedOpt (w.sockets i).opts o = (1, 0))
    (before : Mirrors w i o) : Mirrors w' i o := by
  rintro v (⟨p, c', hp, hc, full, hv⟩ | ⟨p, c', hp, hc, hv⟩ | ⟨p, c', hp, hc, hv⟩)
  · obtain ⟨hp0, c, hc0, listen, same | ⟨on, value⟩⟩ := h.tcp p c' hp hc
    · rw [h.opts]
      exact before v (.tcp p c hp0 hc0 (listen ▸ full) (same ▸ hv))
    · obtain rfl : v = 1 := Option.some.inj (hv.symm.trans value)
      rw [h.opts]
      exact hN p hp0 on
  · obtain ⟨hp0, c, hc0, same⟩ := h.udp p c' hp hc
    rw [h.opts]
    exact before v (.udp p c hp0 hc0 (same ▸ hv))
  · obtain ⟨hp0, c, hc0, same⟩ := h.raw p c' hp hc
    rw [h.opts]
    exact before v (.raw p c hp0 hc0 (same ▸ hv))

end Keeps

/-! ## A slot that takes a connection -/

/-- Slot `i` has a connection with the fields of `d` and the options of a listener that stores `l`. -/
structure Born (o : SockOpt) (l : TnSockOpts) (d : TcpPcb) (w : World) (i : SlotIdx) : Prop where
  opts : storedOpt (w.sockets i).opts o = storedOpt (inheritOpts {} l) o
  tcp : ∀ p c, (w.sockets i).tcpPcb = some p → w.tcpPcbs p = some c →
    c.listen = false ∧ (¬ o.FromPcb → tcpField c o = tcpField d o)
  udp : ∀ p, (w.sockets i).udpPcb = some p → w.udpPcbs p = none
  raw : ∀ p, (w.sockets i).rawPcb = some p → w.rawPcbs p = none

namespace Born

variable {l l' : TnSockOpts} {d d' : TcpPcb}

/-- What happens to the slot afterwards. -/
theorem keeps (h : Born o l d w i) (hk : Keeps o N w w' i)
    (hN : ∀ p, N p → tcpField d o = some 1) : Born o l d w' i where
  opts := hk.opts.trans h.opts
  tcp := by
    intro p c' hp hc'
    obtain ⟨hp0, c, hc, listen, field⟩ := hk.tcp p c' hp hc'
    obtain ⟨full, value⟩ := h.tcp p c hp0 hc
    refine ⟨listen.trans full, fun ho => ?_⟩
    rcases field with same | ⟨on, one⟩
    · rw [same, value ho]
    · rw [one, hN p on]
  udp := by
    intro p hp
    by_contra live
    obtain ⟨c', hc'⟩ := Option.ne_none_iff_exists'.mp live
    obtain ⟨hp0, c, hc, -⟩ := hk.udp p c' hp hc'
    rw [h.udp p hp0] at hc
    cases hc
  raw := by
    intro p hp
    by_contra live
    obtain ⟨c', hc'⟩ := Option.ne_none_iff_exists'.mp live
    obtain ⟨hp0, c, hc, -⟩ := hk.raw p c' hp hc'
    rw [h.raw p hp0] at hc
    cases hc

/-- Where the listener stores the same and the connection has the same, so does the slot. -/
theorem congr (h : Born o l d w i)
    (hl : storedOpt (inheritOpts {} l) o = storedOpt (inheritOpts {} l') o)
    (hd : tcpField d o = tcpField d' o) : Born o l' d' w i :=
  ⟨h.opts.trans hl, fun p c hp hc => ⟨(h.tcp p c hp hc).1, fun ho => ((h.tcp p c hp hc).2 ho).trans hd⟩,
    h.udp, h.raw⟩

/-- The pcb mirrors the slot when the connection has what the slot stores. -/
theorem mirrors (h : Born o l d w i) (ho : ¬ o.FromPcb)
    (hd : ∀ v, tcpField d o = some v → storedOpt (inheritOpts {} l) o = (v, 0)) : Mirrors w i o := by
  rintro v (⟨p, c, hp, hc, -, hv⟩ | ⟨p, c, hp, hc, -⟩ | ⟨p, c, hp, hc, -⟩)
  · rw [h.opts]
    exact hd v (((h.tcp p c hp hc).2 ho).symm.trans hv)
  · rw [h.udp p hp] at hc
    cases hc
  · rw [h.raw p hp] at hc
    cases hc

end Born

/-! ## Taking a connection -/

namespace Tends

/-- What an accepted connection inherits is read from its pcb. -/
theorem inheritPcb (ho : p ∉ P → ¬ o.FromPcb) (l : TnSockOpts) :
    Tends o S P w (inheritPcb w p l) := by
  unfold Tolunnet.inheritPcb
  dsimp only
  generalize hw1 : (if l.keepidle > 0 then _ else w) = w1
  have idle : Tends o S P w w1 := by
    rw [← hw1]
    split
    · refine onFull fun hp c => ⟨rfl, ?_⟩
      have other := ho hp
      cases o <;> first | rfl | exact absurd trivial other
    · exact refl w
  generalize hw2 : (if l.keepintvl > 0 then _ else w1) = w2
  have intvl : Tends o S P w1 w2 := by
    rw [← hw2]
    split
    · refine onFull fun hp c => ⟨rfl, ?_⟩
      have other := ho hp
      cases o <;> first | rfl | exact absurd trivial other
    · exact refl w1
  generalize hw3 : (if l.keepcnt > 0 then _ else w2) = w3
  have cnt : Tends o S P w2 w3 := by
    rw [← hw3]
    split
    · refine onFull fun hp c => ⟨rfl, ?_⟩
      have other := ho hp
      cases o <;> first | rfl | exact absurd trivial other
    · exact refl w2
  refine ((idle.trans intvl).trans cnt).trans ?_
  split
  · refine onFull fun hp c => ?_
    have other := ho hp
    split
    · refine ⟨rfl, ?_⟩
      cases o <;> first | rfl | exact absurd trivial other
    · exact .refl c
  · exact refl w3

end Tends

/-- Slot `j`, which has pcb `p` and the options a slot starts with, takes over from listener `i`. -/
theorem adoptPcb_born {c : TcpPcb} (hu : (w.sockets j).inUse = true)
    (hj : (w.sockets j).opts = {}) (hp : (w.sockets j).tcpPcb = some p)
    (hudp : (w.sockets j).udpPcb = none) (hraw : (w.sockets j).rawPcb = none)
    (hc : w.tcpPcbs p = some c) (full : c.listen = false) :
    Born o (w.sockets i).opts { c with nagleOff := true } (adoptPcb w m i j p) j := by
  have meek : Meek j w (adoptPcb w m i j p) := .adoptPcb
  have inUse : ((adoptPcb w m i j p).sockets j).inUse = true := meek.slot.inUse.trans hu
  unfold adoptPcb at inUse ⊢
  dsimp only at inUse ⊢
  have nagle : tcpNagle w p true = w.setPcb p (some { c with nagleOff := true }) := by
    simp [tcpNagle, onFull, hc, full]
  rw [nagle] at inUse ⊢
  generalize hw1 : ((w.setPcb p (some { c with nagleOff := true })).modSlot j fun s =>
    { s with opts := inheritOpts s.opts (w.sockets i).opts }) = w1 at inUse ⊢
  have slot : w1.sockets j = { w.sockets j with opts := inheritOpts {} (w.sockets i).opts } := by
    rw [← hw1]
    simp [World.modSlot, setPcb, hj]
  have pcb : w1.tcpPcbs p = some { c with nagleOff := true } := by
    rw [← hw1]
    simp [World.modSlot, setPcb]
  generalize hw2 : tnStoreClientSockaddr _ m 0 1 _ _ = w2 at inUse ⊢
  -- the rest of the handler touches nothing but what is read from the pcb
  have stays : ∀ o : SockOpt, ¬ o.FromPcb → Stays o w1 w2 := by
    intro o ho
    rw [← hw2]
    exact (((Tends.inheritPcb (fun _ => ho) _).trans (.registerSlot j)).trans (.readFull _)).trans
      (.tnStoreClientSockaddr _ _ _ _)
  have tends : Tends o ∅ {p} w1 w2 := by
    rw [← hw2]
    exact (((Tends.inheritPcb (fun h => absurd (Set.mem_singleton p) h) _).trans (.registerSlot j)).trans
      (.readFull _)).trans (.tnStoreClientSockaddr _ _ _ _)
  have kept := tends.slot j (Set.notMem_empty j)
  rw [slot] at kept
  have only : ∀ {a b : Option PcbId} {q : PcbId}, (a = b ∨ a = none) → a = some q → b = some q := by
    rintro a b q (rfl | rfl) h
    · exact h
    · cases h
  refine ⟨kept.opts inUse, fun q c' hq hc' => ?_, fun q hq => ?_, fun q hq => ?_⟩
  · obtain rfl : p = q := Option.some.inj (hp.symm.trans (only kept.tcp hq))
    obtain ⟨c1, hc1, same⟩ := (stays .linger id).tcp p c' (Set.notMem_empty p) hc'
    obtain rfl : { c with nagleOff := true } = c1 := Option.some.inj (pcb.symm.trans hc1)
    refine ⟨same.listen.trans full, fun ho => ?_⟩
    obtain ⟨c2, hc2, same2⟩ := (stays o ho).tcp p c' (Set.notMem_empty p) hc'
    obtain rfl : { c with nagleOff := true } = c2 := Option.some.inj (pcb.symm.trans hc2)
    exact same2.field
  · exact absurd (hudp.symm.trans (only kept.udp hq)) (by simp)
  · exact absurd (hraw.symm.trans (only kept.raw hq)) (by simp)

end Tolunnet
