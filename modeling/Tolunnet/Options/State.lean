import Tolunnet.Refine.Requests

/-!
# `Tolunnet.Options.State`: option blocks and what code leaves of them

An option is stored in the option block of a slot and again in the pcb. `InPcb` is the value in a
full pcb of the slot, `storedOpt` the value in the block.

`Tends o S P w w'` says what a piece of code may do to options outside the slots of `S` and the TCP
pcbs of `P`: no free slot is taken, a slot that stays in use keeps its option block and has the pcbs
it had or none, and a pcb keeps its option fields until it is gone. Nearly every statement of the
daemon is of this kind with `S` and `P` empty.
-/

set_option autoImplicit false

namespace Tolunnet

open World

/-! ## Values -/

/-- A truth value as an option value. -/
def bit (b : Bool) : Int := if b then 1 else 0

/-- The field of a full TCP pcb that an option is about; `keep_idle` and `keep_intvl` count
milliseconds. -/
def tcpField (c : TcpPcb) : SockOpt → Option Int
  | .nodelay => some (bit c.nagleOff)
  | .keepalive => some (bit c.sofKeepalive)
  | .reuseaddr => some (bit c.sofReuseaddr)
  | .keepidle => some (c.keepIdle / 1000)
  | .keepintvl => some (c.keepIntvl / 1000)
  | .keepcnt => some c.keepCnt
  | .maxseg => some c.mss
  | .ttl => some c.ttl
  | .tos => some c.tos
  | _ => none

/-- The field of a UDP or raw pcb that an option is about. -/
def dgramField (c : DgramPcb) : SockOpt → Option Int
  | .reuseaddr => some (bit c.sofReuseaddr)
  | .ttl => some c.ttl
  | .tos => some c.tos
  | .multicastTtl => some c.mcastTtl
  | .multicastLoop => some (bit c.mcastLoop)
  | _ => none

/-- Option `o` has the value `v` in a full pcb of slot `i`. -/
inductive InPcb (w : World) (i : SlotIdx) (o : SockOpt) (v : Int) : Prop where
  | tcp (p : PcbId) (c : TcpPcb) (hp : (w.sockets i).tcpPcb = some p) (hc : w.tcpPcbs p = some c)
      (full : c.listen = false) (hv : tcpField c o = some v)
  | udp (p : PcbId) (c : DgramPcb) (hp : (w.sockets i).udpPcb = some p)
      (hc : w.udpPcbs p = some c) (hv : dgramField c o = some v)
  | raw (p : PcbId) (c : DgramPcb) (hp : (w.sockets i).rawPcb = some p)
      (hc : w.rawPcbs p = some c) (hv : dgramField c o = some v)

/-- The value of an option in an option block: two words for `SO_LINGER` and the timeouts, one for
the others. -/
def storedOpt (b : TnSockOpts) : SockOpt → Int × Int
  | .keepalive => (bit b.keepalive, 0)
  | .reuseaddr => (bit b.reuseaddr, 0)
  | .linger => (b.lingerOnoff, b.lingerLinger)
  | .sndbuf => (b.sndbuf, 0)
  | .rcvbuf => (b.rcvbuf, 0)
  | .rcvtimeo => (b.rcvtimeoSecs, b.rcvtimeoMicro)
  | .sndtimeo => (b.sndtimeoSecs, b.sndtimeoMicro)
  | .nodelay => (bit b.nodelay, 0)
  | .maxseg => (b.mss, 0)
  | .keepidle => (b.keepidle, 0)
  | .keepintvl => (b.keepintvl, 0)
  | .keepcnt => (b.keepcnt, 0)
  | .tos => (b.tos, 0)
  | .ttl => (b.ttl, 0)
  | .multicastTtl => (b.multicastTtl, 0)
  | .multicastLoop => (b.multicastLoop, 0)
  | _ => (0, 0)

/-- What the handlers store about options. -/
def stored (w : World) :
    (SlotIdx → TnSocketSlot) × (PcbId → Option TcpPcb) × (PcbId → Option DgramPcb) ×
      (PcbId → Option DgramPcb) :=
  (w.sockets, w.tcpPcbs, w.udpPcbs, w.rawPcbs)

/-! ## Slots and pcbs that stay -/

/-- A TCP pcb has the kind it had and the value of `o` that it had. -/
structure SameTcp (o : SockOpt) (c c' : TcpPcb) : Prop where
  listen : c'.listen = c.listen
  field : tcpField c' o = tcpField c o

/-- A slot is not taken, keeps what it stores for `o`, and has the pcbs it had or none. -/
structure SlotTends (o : SockOpt) (s s' : TnSocketSlot) : Prop where
  inUse : s'.inUse = true → s.inUse = true
  opts : s'.inUse = true → storedOpt s'.opts o = storedOpt s.opts o
  tcp : s'.tcpPcb = s.tcpPcb ∨ s'.tcpPcb = none
  udp : s'.udpPcb = s.udpPcb ∨ s'.udpPcb = none
  raw : s'.rawPcb = s.rawPcb ∨ s'.rawPcb = none

/-- What code may do to option `o` outside the slots of `S` and the TCP pcbs of `P`. -/
structure Tends (o : SockOpt) (S : Set SlotIdx) (P : Set PcbId) (w w' : World) : Prop where
  slot : ∀ i, i ∉ S → SlotTends o (w.sockets i) (w'.sockets i)
  tcp : ∀ p c', p ∉ P → w'.tcpPcbs p = some c' → ∃ c, w.tcpPcbs p = some c ∧ SameTcp o c c'
  udp : ∀ p c', w'.udpPcbs p = some c' →
    ∃ c, w.udpPcbs p = some c ∧ dgramField c' o = dgramField c o
  raw : ∀ p c', w'.rawPcbs p = some c' →
    ∃ c, w.rawPcbs p = some c ∧ dgramField c' o = dgramField c o

/-- Code that leaves option `o` of all slots and pcbs alone. -/
abbrev Stays (o : SockOpt) : World → World → Prop := Tends o ∅ ∅

variable {o : SockOpt}

theorem SameTcp.refl (c : TcpPcb) : SameTcp o c c := ⟨rfl, rfl⟩

/-- Two steps of a pcb. -/
theorem SameTcp.trans {c c' c'' : TcpPcb} (h : SameTcp o c c') (h' : SameTcp o c' c'') :
    SameTcp o c c'' := ⟨h'.listen.trans h.listen, h'.field.trans h.field⟩

theorem SlotTends.refl (s : TnSocketSlot) : SlotTends o s s :=
  ⟨id, fun _ => rfl, .inl rfl, .inl rfl, .inl rfl⟩

/-- A pcb that is the same or gone, twice. -/
theorem same_or_none {p p' p'' : Option PcbId} (h : p' = p ∨ p' = none)
    (h' : p'' = p' ∨ p'' = none) : p'' = p ∨ p'' = none := by
  rcases h' with rfl | h'
  · exact h
  · exact .inr h'

/-- Two steps of a slot. -/
theorem SlotTends.trans {s s' s'' : TnSocketSlot} (h : SlotTends o s s') (h' : SlotTends o s' s'') :
    SlotTends o s s'' where
  inUse := h.inUse ∘ h'.inUse
  opts := fun hu => (h'.opts hu).trans (h.opts (h'.inUse hu))
  tcp := same_or_none h.tcp h'.tcp
  udp := same_or_none h.udp h'.udp
  raw := same_or_none h.raw h'.raw

namespace Tends

variable {S T : Set SlotIdx} {P Q : Set PcbId} {w w' w'' : World} {i : SlotIdx} {m : MsgId}
  {p : PcbId}

/-- Nothing happens. -/
theorem refl (w : World) : Tends o S P w w :=
  ⟨fun _ _ => .refl _, fun _ c _ h => ⟨c, h, .refl c⟩, fun _ c h => ⟨c, h, rfl⟩,
    fun _ c h => ⟨c, h, rfl⟩⟩

/-- Two steps that set nothing. -/
theorem trans (h : Tends o S P w w') (h' : Tends o S P w' w'') : Tends o S P w w'' where
  slot := fun i hi => (h.slot i hi).trans (h'.slot i hi)
  tcp := by
    intro p c'' hp hc''
    obtain ⟨c', hc', same'⟩ := h'.tcp p c'' hp hc''
    obtain ⟨c, hc, same⟩ := h.tcp p c' hp hc'
    exact ⟨c, hc, same.trans same'⟩
  udp := by
    intro p c'' hc''
    obtain ⟨c', hc', same'⟩ := h'.udp p c'' hc''
    obtain ⟨c, hc, same⟩ := h.udp p c' hc'
    exact ⟨c, hc, same'.trans same⟩
  raw := by
    intro p c'' hc''
    obtain ⟨c', hc', same'⟩ := h'.raw p c'' hc''
    obtain ⟨c, hc, same⟩ := h.raw p c' hc'
    exact ⟨c, hc, same'.trans same⟩

/-- More slots and pcbs may be exempt. -/
theorem mono (h : Tends o S P w w') (hS : S ⊆ T) (hP : P ⊆ Q) : Tends o T Q w w' :=
  ⟨fun i hi => h.slot i fun hs => hi (hS hs), fun p c hp => h.tcp p c fun hq => hp (hP hq), h.udp,
    h.raw⟩

/-- Code that leaves all options alone leaves those alone that are asked about. -/
theorem of_stays (h : Stays o w w') : Tends o S P w w' :=
  h.mono (Set.empty_subset S) (Set.empty_subset P)

/-! ## Statements -/

/-- Nothing is assigned to slots and pcbs. -/
theorem same (h : stored w' = stored w) : Tends o S P w w' := by
  obtain ⟨hs, h⟩ := Prod.mk.inj h
  obtain ⟨ht, h⟩ := Prod.mk.inj h
  obtain ⟨hu, hr⟩ := Prod.mk.inj h
  constructor
  · intro i _
    rw [hs]
    exact .refl _
  · intro p c _ hc
    exact ⟨c, ht ▸ hc, .refl c⟩
  · intro p c hc
    exact ⟨c, hu ▸ hc, rfl⟩
  · intro p c hc
    exact ⟨c, hr ▸ hc, rfl⟩

theorem asked : Tends o S P w w.asked := same rfl

theorem emit (e : Event) : Tends o S P w (w.emit e) := same rfl

theorem setReply (r : Int) (e : Errno) : Tends o S P w (w.setReply m r e) := same rfl

theorem replyMsg : Tends o S P w (w.replyMsg m) := same rfl

theorem answerMsg (r : Int) (e : Errno) : Tends o S P w (w.answerMsg m r e) := same rfl

theorem setFd (b : BaseId) (fd : Nat) (v : Option SlotIdx) : Tends o S P w (w.setFd b fd v) :=
  same rfl

/-- An assignment to slot `i`. -/
theorem modSlot {f : TnSocketSlot → TnSocketSlot}
    (hf : i ∉ S → SlotTends o (w.sockets i) (f (w.sockets i))) : Tends o S P w (w.modSlot i f) := by
  refine ⟨fun j hj => ?_, fun _ c _ h => ⟨c, h, .refl c⟩, fun _ c h => ⟨c, h, rfl⟩,
    fun _ c h => ⟨c, h, rfl⟩⟩
  by_cases hji : j = i
  · subst hji
    simpa [World.modSlot] using hf hj
  · simpa [World.modSlot, hji] using SlotTends.refl (w.sockets j)

/-- What `Tends` looks at in a slot. -/
def seen (s : TnSocketSlot) : Bool × TnSockOpts × Option PcbId × Option PcbId × Option PcbId :=
  (s.inUse, s.opts, s.tcpPcb, s.udpPcb, s.rawPcb)

/-- An assignment to other fields of slot `i`. -/
theorem assign {f : TnSocketSlot → TnSocketSlot} (hf : seen (f (w.sockets i)) = seen (w.sockets i)) :
    Tends o S P w (w.modSlot i f) := by
  obtain ⟨hu, h⟩ := Prod.mk.inj hf
  obtain ⟨ho, h⟩ := Prod.mk.inj h
  obtain ⟨ht, h⟩ := Prod.mk.inj h
  obtain ⟨hd, hr⟩ := Prod.mk.inj h
  exact modSlot fun _ => ⟨fun h => hu ▸ h, fun _ => by rw [ho], .inl ht, .inl hd, .inl hr⟩

/-- A slot that is exempt may be assigned anything. -/
theorem modSlot_mem (hi : i ∈ S) (f : TnSocketSlot → TnSocketSlot) :
    Tends o S P w (w.modSlot i f) := modSlot fun h => absurd hi h

theorem setPending (k : Pend) (v : Option MsgId) : Tends o S P w (w.setPending i k v) := assign rfl

/-- The answer is written. -/
theorem done (h : Tends o S P w w') (v : Int) (e : Errno) :
    Tends o S P w (Tolunnet.done w' m v e).1 := h.trans (setReply v e)

theorem fail (h : Tends o S P w w') (e : Errno) : Tends o S P w (Tolunnet.fail w' m e).1 :=
  h.done (-1) e

/-! ## TCP pcbs -/

/-- A pcb changes in other fields, or is gone. -/
theorem setPcb {r : Option TcpPcb}
    (hr : p ∉ P → ∀ c', r = some c' → ∃ c, w.tcpPcbs p = some c ∧ SameTcp o c c') :
    Tends o S P w (w.setPcb p r) := by
  refine ⟨fun _ _ => .refl _, fun q c' hq hc => ?_, fun _ c h => ⟨c, h, rfl⟩,
    fun _ c h => ⟨c, h, rfl⟩⟩
  by_cases hqp : q = p
  · subst hqp
    exact hr hq c' (by simpa [World.setPcb] using hc)
  · exact ⟨c', by simpa [World.setPcb, hqp] using hc, .refl c'⟩

theorem setPcb_none : Tends o S P w (w.setPcb p none) := setPcb fun _ _ h => by cases h

/-- A live pcb is written back with other fields changed. -/
theorem setPcb_some {c c' : TcpPcb} (hc : w.tcpPcbs p = some c) (hs : SameTcp o c c') :
    Tends o S P w (w.setPcb p (some c')) := by
  refine setPcb fun _ c'' h => ⟨c, hc, ?_⟩
  cases h
  exact hs

/-- A change of a pcb that is not in `P` keeps its option. -/
theorem onPcb {f : TcpPcb → TcpPcb} (hf : p ∉ P → ∀ c, SameTcp o c (f c)) :
    Tends o S P w (w.onPcb p f) := by
  unfold World.onPcb
  split
  · rename_i c hc
    refine setPcb fun hp c' h => ⟨c, hc, ?_⟩
    cases h
    exact hf hp c
  · exact same rfl

/-- So does a call on a full pcb. -/
theorem onFull {op : PcbOp} {f : TcpPcb → TcpPcb} (hf : p ∉ P → ∀ c, SameTcp o c (f c)) :
    Tends o S P w (w.onFull p op f) := by
  unfold World.onFull
  split
  · rename_i c hc
    split
    · exact same rfl
    · refine setPcb fun hp c' h => ⟨c, hc, ?_⟩
      cases h
      exact hf hp c
  · exact same rfl

theorem readFull (op : PcbOp) : Tends o S P w (w.readFull p op) := onFull fun _ c => .refl c

theorem tcpRecv (fn : RecvFn) : Tends o S P w (tcpRecv w p fn) := onFull fun _ _ => ⟨rfl, rfl⟩

theorem tcpSent (on : Bool) : Tends o S P w (tcpSent w p on) := onFull fun _ _ => ⟨rfl, rfl⟩

theorem tcpPoll (on : Bool) : Tends o S P w (tcpPoll w p on) := onFull fun _ _ => ⟨rfl, rfl⟩

/-- Nagle's algorithm is an option: the pcb has to be exempt when it is asked about. -/
theorem tcpNagle (hp : p ∉ P → o ≠ .nodelay) (off : Bool) : Tends o S P w (tcpNagle w p off) := by
  refine onFull fun h c => ⟨rfl, ?_⟩
  have other := hp h
  cases o <;> first | rfl | exact absurd rfl other

/-! ## Datagram pcbs -/

/-- A change of a UDP pcb keeps the option. -/
theorem onUdp {f : DgramPcb → DgramPcb} (hf : ∀ c, dgramField (f c) o = dgramField c o) :
    Tends o S P w (w.onUdp p f) := by
  refine ⟨fun _ _ => .refl _, fun _ c _ h => ⟨c, h, .refl c⟩, fun q c' hc => ?_,
    fun _ c h => ⟨c, h, rfl⟩⟩
  by_cases hqp : q = p
  · subst hqp
    have mapped : (w.udpPcbs q).map f = some c' := by simpa [World.onUdp] using hc
    obtain ⟨c, live, rfl⟩ := Option.map_eq_some_iff.mp mapped
    exact ⟨c, live, hf c⟩
  · exact ⟨c', by simpa [World.onUdp, hqp] using hc, rfl⟩

/-- So does a change of a raw pcb. -/
theorem onRaw {f : DgramPcb → DgramPcb} (hf : ∀ c, dgramField (f c) o = dgramField c o) :
    Tends o S P w (w.onRaw p f) := by
  refine ⟨fun _ _ => .refl _, fun _ c _ h => ⟨c, h, .refl c⟩, fun _ c h => ⟨c, h, rfl⟩,
    fun q c' hc => ?_⟩
  by_cases hqp : q = p
  · subst hqp
    have mapped : (w.rawPcbs q).map f = some c' := by simpa [World.onRaw] using hc
    obtain ⟨c, live, rfl⟩ := Option.map_eq_some_iff.mp mapped
    exact ⟨c, live, hf c⟩
  · exact ⟨c', by simpa [World.onRaw, hqp] using hc, rfl⟩

/-- A UDP pcb goes. -/
theorem setUdp_none : Tends o S P w (w.setUdp p none) := by
  refine ⟨fun _ _ => .refl _, fun _ c _ h => ⟨c, h, .refl c⟩, fun q c' hc => ?_,
    fun _ c h => ⟨c, h, rfl⟩⟩
  by_cases hqp : q = p
  · subst hqp
    simp [World.setUdp] at hc
  · exact ⟨c', by simpa [World.setUdp, hqp] using hc, rfl⟩

/-- A raw pcb goes. -/
theorem setRaw_none : Tends o S P w (w.setRaw p none) := by
  refine ⟨fun _ _ => .refl _, fun _ c _ h => ⟨c, h, .refl c⟩, fun _ c h => ⟨c, h, rfl⟩,
    fun q c' hc => ?_⟩
  by_cases hqp : q = p
  · subst hqp
    simp [World.setRaw] at hc
  · exact ⟨c', by simpa [World.setRaw, hqp] using hc, rfl⟩

end Tends

end Tolunnet
