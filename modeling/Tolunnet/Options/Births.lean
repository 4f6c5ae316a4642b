import Tolunnet.Options.Elsewhere
import Tolunnet.Options.Walks

/-!
# `Tolunnet.Options.Births`: the requests that touch an option

`SOCKET` and `ACCEPT` take a free slot, `LISTEN` puts a listen pcb in the place of the slot's pcb, and
`BIND` and `SETSOCKOPT` write an option. What they do to other slots is nothing (`Keeps`), because no
two slots share a pcb.
-/

set_option autoImplicit false

namespace Tolunnet

open World

variable {o : SockOpt} {N : PcbId → Prop} {w w' u : World} {m : MsgId} {i j : SlotIdx} {p : PcbId}

/-! ## Other slots -/

/-- A slot that is as it was, with pcbs that are as they were. -/
theorem Keeps.of_beside (hs : w'.sockets i = w.sockets i)
    (ht : ∀ p, (w.sockets i).tcpPcb = some p → w'.tcpPcbs p = w.tcpPcbs p)
    (hu : ∀ p, (w.sockets i).udpPcb = some p → w'.udpPcbs p = w.udpPcbs p)
    (hr : ∀ p, (w.sockets i).rawPcb = some p → w'.rawPcbs p = w.rawPcbs p) :
    Keeps o N w w' i where
  opts := by rw [hs]
  tcp := by
    intro p c' hp hc'
    rw [hs] at hp
    exact ⟨hp, c', ht p hp ▸ hc', rfl, .inl rfl⟩
  udp := by
    intro p c' hp hc'
    rw [hs] at hp
    exact ⟨hp, c', hu p hp ▸ hc', rfl⟩
  raw := by
    intro p c' hp hc'
    rw [hs] at hp
    exact ⟨hp, c', hr p hp ▸ hc', rfl⟩

/-- No two slots have a pcb in common, so what is done to one slot and its pcbs spares the others. -/
theorem Spares.keeps (h : Spares j w w') (kinds : Kinds w) (hij : i ≠ j) : Keeps o N w w' i := by
  refine .of_beside (h.slots i hij) (fun p hp => h.tcp p fun hj => ?_)
    (fun p hp => h.udp p fun hj => ?_) fun p hp => h.raw p fun hj => ?_
  · exact hij (kinds.slots i j p hp hj)
  · obtain ⟨c, hc, ha⟩ := (kinds.udp p i).mp hp
    obtain ⟨c', hc', ha'⟩ := (kinds.udp p j).mp hj
    obtain rfl : c = c' := Option.some.inj (hc.symm.trans hc')
    exact hij (ha.symm.trans ha')
  · obtain ⟨c, hc, ha⟩ := (kinds.raw p i).mp hp
    obtain ⟨c', hc', ha'⟩ := (kinds.raw p j).mp hj
    obtain rfl : c = c' := Option.some.inj (hc.symm.trans hc')
    exact hij (ha.symm.trans ha')

/-! ## `SOCKET` -/

/-- A slot with the options and the pcb that a socket of type `type` starts with. -/
structure Fresh (w : World) (i : SlotIdx) (type : Int) : Prop where
  opts : ∀ o, storedOpt (w.sockets i).opts o = storedOpt {} o
  tcp : ∀ p c, (w.sockets i).tcpPcb = some p → w.tcpPcbs p = some c → tcpField c = tcpField {}
  udp : ∀ p c, (w.sockets i).udpPcb = some p → w.udpPcbs p = some c →
    type ≠ sockStream ∧ dgramField c = dgramField { arg := i }
  raw : ∀ p c, (w.sockets i).rawPcb = some p → w.rawPcbs p = some c →
    type ≠ sockStream ∧ dgramField c = dgramField { arg := i }

namespace Fresh

variable {type : Int}

/-- The pcb mirrors the slot, but for the TTL and the two multicast options. -/
theorem mirrors (h : Fresh w i type) (hf : ¬ o.FromPcb) (ho : o ≠ .ttl)
    (hm : type ≠ sockStream → o ≠ .multicastTtl ∧ o ≠ .multicastLoop) : Mirrors w i o := by
  rintro v (⟨p, c, hp, hc, -, hv⟩ | ⟨p, c, hp, hc, hv⟩ | ⟨p, c, hp, hc, hv⟩)
  · rw [h.tcp p c hp hc] at hv
    rw [h.opts]
    cases o <;> first | exact absurd rfl ho | exact absurd trivial hf | (cases hv <;> rfl)
  · obtain ⟨dgram, fields⟩ := h.udp p c hp hc
    obtain ⟨noTtl, noLoop⟩ := hm dgram
    rw [fields] at hv
    rw [h.opts]
    cases o <;> first | exact absurd rfl ho | exact absurd rfl noTtl | exact absurd rfl noLoop |
      (cases hv <;> rfl)
  · obtain ⟨dgram, fields⟩ := h.raw p c hp hc
    obtain ⟨noTtl, noLoop⟩ := hm dgram
    rw [fields] at hv
    rw [h.opts]
    cases o <;> first | exact absurd rfl ho | exact absurd rfl noTtl | exact absurd rfl noLoop |
      (cases hv <;> rfl)

/-- Code that leaves all options alone. -/
theorem stays (h : Fresh w i type) (hs : ∀ o, Stays o w w') (hu : (w'.sockets i).inUse = true) :
    Fresh w' i type := by
  have slot := (hs .ttl).slot i (Set.notMem_empty i)
  have only : ∀ {a b : Option PcbId} {p : PcbId}, a = b ∨ a = none → a = some p → b = some p := by
    rintro a b p (rfl | rfl) hp
    · exact hp
    · cases hp
  refine ⟨fun o => (((hs o).slot i (Set.notMem_empty i)).opts hu).trans (h.opts o), ?_, ?_, ?_⟩
  · intro p c' hp hc'
    refine funext fun o => ?_
    obtain ⟨c, hc, same⟩ := (hs o).tcp p c' (Set.notMem_empty p) hc'
    rw [same.field, h.tcp p c (only slot.tcp hp) hc]
  · intro p c' hp hc'
    obtain ⟨c, hc, -⟩ := (hs .ttl).udp p c' hc'
    refine ⟨(h.udp p c (only slot.udp hp) hc).1, funext fun o => ?_⟩
    obtain ⟨c, hc, same⟩ := (hs o).udp p c' hc'
    rw [same, (h.udp p c (only slot.udp hp) hc).2]
  · intro p c' hp hc'
    obtain ⟨c, hc, -⟩ := (hs .ttl).raw p c' hc'
    refine ⟨(h.raw p c (only slot.raw hp) hc).1, funext fun o => ?_⟩
    obtain ⟨c, hc, same⟩ := (hs o).raw p c' hc'
    rw [same, (h.raw p c (only slot.raw hp) hc).2]

end Fresh

/-- A slot with the options it starts with and no pcb. -/
structure Bare (w : World) (i : SlotIdx) : Prop where
  opts : ∀ o, storedOpt (w.sockets i).opts o = storedOpt {} o
  tcp : (w.sockets i).tcpPcb = none
  udp : (w.sockets i).udpPcb = none
  raw : (w.sockets i).rawPcb = none

/-- A new slot is bare. -/
theorem bare_tnSlotAlloc (b : Option BaseId) (t : TaskId) (domain type protocol : Int) :
    Bare (tnSlotAlloc w i b t domain type protocol) i where
  opts := fun o => by
    have slot : (tnSlotAlloc w i b t domain type protocol).sockets i =
        tnInitSocketSlot b t domain type protocol := by simp [tnSlotAlloc, World.modSlot]
    rw [slot]
    cases o <;> rfl
  tcp := by simp [tnSlotAlloc, World.modSlot, tnInitSocketSlot]
  udp := by simp [tnSlotAlloc, World.modSlot, tnInitSocketSlot]
  raw := by simp [tnSlotAlloc, World.modSlot, tnInitSocketSlot]

namespace Bare

/-- A slot born with a UDP pcb. -/
theorem newUdp {type : Int} (h : Bare w i) (ht : type ≠ sockStream)
    (hn : newUdp w i = (w', true)) : Fresh w' i type := by
  unfold Tolunnet.newUdp at hn
  split at hn
  · obtain rfl := (Prod.mk.inj hn).1
    constructor
    · simpa [asked, World.modSlot, setUdp] using h.opts
    · simp [asked, World.modSlot, setUdp, h.tcp]
    · intro p c hp hc
      refine ⟨ht, ?_⟩
      obtain rfl : w.ask.id = p := by simpa [asked, World.modSlot, setUdp] using hp
      obtain rfl : ({ arg := i } : DgramPcb) = c := by
        simpa [asked, World.modSlot, setUdp] using hc
      rfl
    · simp [asked, World.modSlot, setUdp, h.raw]
  · cases (Prod.mk.inj hn).2

/-- A slot born with a raw pcb. -/
theorem newRaw {type protocol : Int} (h : Bare w i) (ht : type ≠ sockStream)
    (hn : newRaw w i protocol = (w', true)) : Fresh w' i type := by
  unfold Tolunnet.newRaw at hn
  split at hn
  · obtain rfl := (Prod.mk.inj hn).1
    constructor
    · simpa [asked, World.modSlot, setRaw] using h.opts
    · simp [asked, World.modSlot, setRaw, h.tcp]
    · simp [asked, World.modSlot, setRaw, h.udp]
    · intro p c hp hc
      refine ⟨ht, ?_⟩
      obtain rfl : w.ask.id = p := by simpa [asked, World.modSlot, setRaw] using hp
      obtain rfl : ({ arg := i, hdrincl := protocol == ipprotoRaw } : DgramPcb) = c := by
        simpa [asked, World.modSlot, setRaw] using hc
      rfl
  · cases (Prod.mk.inj hn).2

/-- A slot born with a TCP pcb. -/
theorem newTcp {type : Int} (h : Bare w i) (hn : newTcp w i = (w', true))
    (hu : (w'.sockets i).inUse = true) : Fresh w' i type := by
  unfold Tolunnet.newTcp at hn
  dsimp only at hn
  generalize hw1 : runErrs w.asked w.ask.evs = w1 at hn
  have stays : ∀ o, Stays o w w1 := fun o => hw1 ▸ Tends.asked.trans (.runErrs _)
  have only : ∀ {a b : Option PcbId}, a = b ∨ a = none → b = none → a = none := by
    rintro a b (rfl | rfl) hb
    · exact hb
    · rfl
  split at hn
  · obtain rfl := (Prod.mk.inj hn).1
    generalize w.ask.id = p at hu ⊢
    have slot : (tcpErr (tcpArg ((w1.setPcb p (some {})).modSlot i fun s =>
        { s with tcpPcb := some p }) p (.slot i)) p .slot).sockets i =
        { w1.sockets i with tcpPcb := some p } := by
      simp [tcpErr, tcpArg, onPcb, onFull, setPcb, World.modSlot]
    have pcb : (tcpErr (tcpArg ((w1.setPcb p (some {})).modSlot i fun s =>
        { s with tcpPcb := some p }) p (.slot i)) p .slot).tcpPcbs p =
        some { arg := .slot i, err := .slot } := by
      simp [tcpErr, tcpArg, onPcb, onFull, setPcb, World.modSlot]
    rw [slot] at hu
    constructor
    · intro o
      rw [slot]
      exact (((stays o).slot i (Set.notMem_empty i)).opts hu).trans (h.opts o)
    · intro q c hq hc
      rw [slot] at hq
      obtain rfl : p = q := Option.some.inj hq
      obtain rfl := Option.some.inj (pcb.symm.trans hc)
      rfl
    · intro q c hq
      rw [slot] at hq
      exact absurd (hq.symm.trans (only ((stays .ttl).slot i (Set.notMem_empty i)).udp h.udp)) (by simp)
    · intro q c hq
      rw [slot] at hq
      exact absurd (hq.symm.trans (only ((stays .ttl).slot i (Set.notMem_empty i)).raw h.raw)) (by simp)
  · cases (Prod.mk.inj hn).2

/-- A slot born with the pcb of its type. -/
theorem newPcb {type protocol : Int} (h : Bare w i) (hn : newPcb w i type protocol = (w', true))
    (hu : (w'.sockets i).inUse = true) : Fresh w' i type := by
  unfold Tolunnet.newPcb at hn
  split_ifs at hn with dgram stream
  · exact h.newUdp (by rw [dgram]; decide) hn
  · exact h.newTcp hn hu
  · exact h.newRaw stream hn

end Bare

/-- The pcb of a new socket is nothing to another slot, and lwIP may abort the other's pcb to find
one. -/
theorem newPcb_keeps {x : SlotIdx} {type protocol : Int} {made : Bool} (hx : x ≠ i)
    (udp : ∀ p, (w.sockets x).udpPcb = some p → w.udpPcbs p ≠ none)
    (raw : ∀ p, (w.sockets x).rawPcb = some p → w.rawPcbs p ≠ none)
    (hn : newPcb w i type protocol = (u, made)) (hu : (u.sockets x).inUse = true)
    (apart : type = sockStream → made = true → ∀ p, (u.sockets i).tcpPcb = some p →
      (u.sockets x).tcpPcb ≠ some p) :
    (w.sockets x).inUse = true ∧ Keeps o N w u x := by
  unfold newPcb at hn
  split at hn
  · unfold newUdp at hn
    split at hn
    · rename_i free
      obtain rfl := (Prod.mk.inj hn).1
      have slot : (((w.asked.setUdp w.ask.id (some { arg := i })).modSlot i fun s =>
          { s with udpPcb := some w.ask.id }).sockets x) = w.sockets x := by
        simp [World.modSlot, setUdp, asked, hx]
      refine ⟨slot ▸ hu, .of_beside slot (fun _ _ => rfl) (fun p hp => ?_) fun _ _ => rfl⟩
      have other : p ≠ w.ask.id := by
        rintro rfl
        simp [udp _ hp] at free
      simp [World.modSlot, setUdp, asked, other]
    · obtain rfl := (Prod.mk.inj hn).1
      exact ⟨hu, .of_stays .asked hu⟩
  · split at hn
    · rename_i stream
      unfold newTcp at hn
      dsimp only at hn
      generalize hw1 : runErrs w.asked w.ask.evs = w1 at hn
      have stays : Stays o w w1 := hw1 ▸ Tends.asked.trans (.runErrs _)
      split at hn
      · obtain ⟨rfl, rfl⟩ := Prod.mk.inj hn
        generalize w.ask.id = p at hu apart ⊢
        generalize hw2 : tcpErr (tcpArg ((w1.setPcb p (some {})).modSlot i fun s =>
          { s with tcpPcb := some p }) p (.slot i)) p .slot = w2 at hu apart ⊢
        have slot : w2.sockets x = w1.sockets x := by
          rw [← hw2]
          simp [tcpErr, tcpArg, onPcb, onFull, setPcb, World.modSlot, hx]
        have taken : (w2.sockets i).tcpPcb = some p := by
          rw [← hw2]
          simp [tcpErr, tcpArg, onPcb, onFull, setPcb, World.modSlot]
        have hu1 : (w1.sockets x).inUse = true := slot ▸ hu
        have kept : Keeps o N w1 w2 x := by
          refine .of_beside slot (fun q hq => ?_) (fun _ _ => ?_) fun _ _ => ?_
          · have other : q ≠ p := by
              rintro rfl
              exact apart stream rfl q taken (slot.symm ▸ hq)
            rw [← hw2]
            simp [tcpErr, tcpArg, onPcb, onFull, setPcb, World.modSlot, other]
          · rw [← hw2]
            simp [tcpErr, tcpArg, onPcb, onFull, setPcb, World.modSlot]
          · rw [← hw2]
            simp [tcpErr, tcpArg, onPcb, onFull, setPcb, World.modSlot]
        exact ⟨(stays.slot x (Set.notMem_empty x)).inUse hu1, (Keeps.of_stays stays hu1).trans kept⟩
      · obtain rfl := (Prod.mk.inj hn).1
        exact ⟨(stays.slot x (Set.notMem_empty x)).inUse hu, .of_stays stays hu⟩
    · unfold newRaw at hn
      split at hn
      · rename_i free
        obtain rfl := (Prod.mk.inj hn).1
        have slot : (((w.asked.setRaw w.ask.id
            (some { arg := i, hdrincl := protocol == ipprotoRaw })).modSlot i fun s =>
              { s with rawPcb := some w.ask.id }).sockets x) = w.sockets x := by
          simp [World.modSlot, setRaw, asked, hx]
        refine ⟨slot ▸ hu, .of_beside slot (fun _ _ => rfl) (fun _ _ => rfl) fun p hp => ?_⟩
        have other : p ≠ w.ask.id := by
          rintro rfl
          simp [raw _ hp] at free
        simp [World.modSlot, setRaw, asked, other]
      · obtain rfl := (Prod.mk.inj hn).1
        exact ⟨hu, .of_stays .asked hu⟩

/-- What `SOCKET` leaves of a slot that is in use afterwards: it was in use, or it is the new one. -/
theorem tnIpcCmdSocket_fate {x : SlotIdx} (kinds : Kinds w)
    (apart : ∀ a b p, ((tnIpcCmdSocket w m).1.sockets a).tcpPcb = some p →
      ((tnIpcCmdSocket w m).1.sockets b).tcpPcb = some p → a = b)
    (hu : ((tnIpcCmdSocket w m).1.sockets x).inUse = true) :
    ((w.sockets x).inUse = true ∧ Keeps o N w (tnIpcCmdSocket w m).1 x) ∨
      ((w.sockets x).inUse = false ∧ freeSlot? w = some x ∧
        Fresh (tnIpcCmdSocket w m).1 x ((w.msgs m).args 1)) := by
  have refused : ∀ e, ((Tolunnet.fail w m e).1.sockets x).inUse = true →
      (w.sockets x).inUse = true ∧ Keeps o N w (Tolunnet.fail w m e).1 x := fun e h =>
    ⟨h, .of_stays (.refuse e) h⟩
  unfold tnIpcCmdSocket at apart hu ⊢
  dsimp only at apart hu ⊢
  by_cases refusal :
      socketRefusal ((w.msgs m).args 0) ((w.msgs m).args 1) ((w.msgs m).args 2) ≠ .ok
  · rw [if_pos refusal] at hu ⊢
    exact .inl (refused _ hu)
  · rw [if_neg refusal] at apart hu ⊢
    cases hb : (w.msgs m).socketBase with
    | none =>
      simp only [hb] at hu ⊢
      exact .inl (refused _ hu)
    | some b =>
      simp only [hb] at apart hu ⊢
      cases hfd : pickFd? (w.bases b) ((w.msgs m).args 3) with
      | none =>
        simp only [hfd] at hu ⊢
        exact .inl (refused _ hu)
      | some fd =>
        simp only [hfd] at apart hu ⊢
        cases hi : freeSlot? w with
        | none =>
          simp only [hi] at hu ⊢
          exact .inl (refused _ hu)
        | some i =>
          simp only [hi] at apart hu ⊢
          have free : (w.sockets i).inUse = false := freeSlot?_free hi
          generalize hw1 : tnSlotAlloc w i (some b) (w.msgs m).clientTask ((w.msgs m).args 0)
            ((w.msgs m).args 1) ((w.msgs m).args 2) = w1 at apart hu ⊢
          have bare : Bare w1 i := hw1 ▸ bare_tnSlotAlloc _ _ _ _ _
          have others : x ≠ i → w1.sockets x = w.sockets x := fun hx => by
            rw [← hw1]
            simp [tnSlotAlloc, World.modSlot, hx]
          have alloc : x ≠ i → Keeps o N w w1 x := fun hx => by
            refine .of_beside (others hx) (fun _ _ => ?_) (fun _ _ => ?_) fun _ _ => ?_
            all_goals
              rw [← hw1]
              rfl
          have udp : x ≠ i → ∀ p, (w1.sockets x).udpPcb = some p → w1.udpPcbs p ≠ none := by
            intro hx p hp
            rw [others hx] at hp
            obtain ⟨c, hc, -⟩ := (kinds.udp p x).mp hp
            rw [← hw1]
            show w.udpPcbs p ≠ none
            rw [hc]
            simp
          have raw : x ≠ i → ∀ p, (w1.sockets x).rawPcb = some p → w1.rawPcbs p ≠ none := by
            intro hx p hp
            rw [others hx] at hp
            obtain ⟨c, hc, -⟩ := (kinds.raw p x).mp hp
            rw [← hw1]
            show w.rawPcbs p ≠ none
            rw [hc]
            simp
          cases hn : newPcb w1 i ((w.msgs m).args 1) ((w.msgs m).args 2) with
          | mk u made =>
            cases made with
            | false =>
              simp only [hn] at hu ⊢
              have freed : Stays o u (Tolunnet.fail (tnSlotFree u i) m .enobufs).1 :=
                Tends.tnSlotFree.fail _
              have hx : x ≠ i := by
                rintro rfl
                have gone : ((Tolunnet.fail (tnSlotFree u x) m .enobufs).1.sockets x).inUse = false :=
                  inUse_tnSlotFree
                rw [gone] at hu
                cases hu
              have hu1 := (freed.slot x (Set.notMem_empty x)).inUse hu
              obtain ⟨before, kept⟩ := newPcb_keeps (o := o) (N := N) hx (udp hx) (raw hx) hn hu1
                fun _ h => by cases h
              exact .inl ⟨others hx ▸ before, ((alloc hx).trans kept).trans (.of_stays freed hu)⟩
            | true =>
              simp only [hn] at apart hu ⊢
              -- the descriptor and the event are no options
              have noted : ∀ o, Stays o u (Tolunnet.done (if (w.msgs m).args 1 = sockDgram ∨
                  (w.msgs m).args 1 = sockRaw then
                    tnRecordSocketEvent (u.setFd b fd (some i)) i fdWrite
                  else u.setFd b fd (some i)) m fd .ok).1 := by
                intro o
                refine Tends.done ?_ _ _
                split
                · exact (Tends.setFd _ _ _).trans (.tnRecordSocketEvent _)
                · exact .setFd _ _ _
              have hu1 := ((noted o).slot x (Set.notMem_empty x)).inUse hu
              by_cases hx : x = i
              · subst hx
                exact .inr ⟨free, rfl, (bare.newPcb hn hu1).stays noted hu⟩
              · obtain ⟨before, kept⟩ := newPcb_keeps (o := o) (N := N) hx (udp hx) (raw hx) hn hu1
                  fun stream _ p hi hp => by
                    have quiet : ¬ ((w.msgs m).args 1 = sockDgram ∨ (w.msgs m).args 1 = sockRaw) := by
                      rw [stream]
                      decide
                    rw [if_neg quiet] at apart
                    exact hx (apart x i p hp hi)
                exact .inl ⟨others hx ▸ before,
                  ((alloc hx).trans kept).trans (.of_stays (noted o) hu)⟩

/-! ## `ACCEPT` -/

/-- What a queued connection is: a live full pcb. -/
theorem queued_full {t : Tok} (hs : (abs t w).Sound) {ent : TnAcceptEntry}
    (he : ent ∈ (w.sockets i).acceptQ) :
    ∃ p c, ent.newPcb = some p ∧ w.tcpPcbs p = some c ∧ c.listen = false := by
  obtain ⟨-, p, v, hp, hv, queued⟩ := hs.disc.entries.queued i ent he
  obtain ⟨c, hc, rfl⟩ := abs_pcb_some.mp hv
  exact ⟨p, c, hp, hc, queued.listen⟩

/-- A slot that takes the first queued connection. -/
theorem acceptQueued_fate {x : SlotIdx} {ent : TnAcceptEntry} {c : TcpPcb} (kinds : Kinds w)
    (hi : (w.sockets i).inUse = true) (he : ent ∈ (w.sockets i).acceptQ)
    (hp : ent.newPcb = some p) (hc : w.tcpPcbs p = some c) (full : c.listen = false)
    (hu : ((acceptQueued w m i ent).1.sockets x).inUse = true) :
    ((w.sockets x).inUse = true ∧ Keeps o N w (acceptQueued w m i ent).1 x) ∨
      ((w.sockets x).inUse = false ∧ Born o (w.sockets i).opts { c with nagleOff := true }
        (acceptQueued w m i ent).1 x) := by
  have single : p ∈ ({p} : Set PcbId) := Set.mem_singleton p
  have popped : ∀ o, Stays o w (tnAcceptQueuePopEntry w i) := fun _ => .tnAcceptQueuePopEntry
  have used : ∀ x, ((tnAcceptQueuePopEntry w i).sockets x).inUse = (w.sockets x).inUse := by
    intro x
    by_cases hx : x = i
    · subst hx
      simp [tnAcceptQueuePopEntry, World.modSlot]
    · simp [tnAcceptQueuePopEntry, World.modSlot, hx]
  have opts1 : ((tnAcceptQueuePopEntry w i).sockets i).opts = (w.sockets i).opts := by
    simp [tnAcceptQueuePopEntry, World.modSlot]
  have hc1 : (tnAcceptQueuePopEntry w i).tcpPcbs p = some c := hc
  unfold acceptQueued at hu ⊢
  dsimp only at hu ⊢
  generalize tnAcceptQueuePopEntry w i = w1 at popped used opts1 hc1 hu ⊢
  cases hfree : freeSlot? w1 with
  | none =>
    simp only [hfree] at hu ⊢
    have stays : Stays o w (Tolunnet.fail (tnAcceptEntryFree w1 ent) m .enfile).1 :=
      (popped o).trans ((Tends.tnAcceptEntryFree ent).fail _)
    exact .inl ⟨(stays.slot x (Set.notMem_empty x)).inUse hu, .of_stays stays hu⟩
  | some j =>
    simp only [hfree] at hu ⊢
    have free : (w.sockets j).inUse = false := (used j).symm.trans (freeSlot?_free hfree)
    have apart : i ≠ j := fun h => by
      rw [h, free] at hi
      cases hi
    have member : j ∈ ({j} : Set SlotIdx) := Set.mem_singleton j
    generalize hw2 : tnSlotAlloc w1 j _ _ afInet sockStream 0 = w2 at hu ⊢
    have alloc : Tends o {j} {p} w w2 :=
      ((popped o).mono (Set.empty_subset _) (Set.empty_subset _)).trans (hw2 ▸ .modSlot_mem member _)
    have slot2 : w2.sockets j = tnInitSocketSlot (w.msgs m).socketBase (w.msgs m).clientTask
        afInet sockStream 0 := by
      rw [← hw2]
      simp [tnSlotAlloc, World.modSlot]
    have opts2 : (w2.sockets i).opts = (w.sockets i).opts := by
      rw [← opts1, ← hw2]
      simp [tnSlotAlloc, World.modSlot, apart]
    have hc2 : w2.tcpPcbs p = some c := by
      rw [← hc1, ← hw2]
      rfl
    -- no slot holds the pcb of a queued connection
    have others : ∀ {w' : World}, Tends o {j} {p} w w' → x ≠ j → (w'.sockets x).inUse = true →
        (w.sockets x).inUse = true ∧ Keeps o N w w' x := by
      intro w' tends hx hu
      have slot := tends.slot x hx
      refine ⟨slot.inUse hu, .of_tends tends hu hx fun q hq hmem => ?_⟩
      obtain rfl : q = p := hmem
      refine kinds.apart x i q ?_ ent he hp
      rcases slot.tcp with same | gone
      · rw [← same, hq]
      · rw [gone] at hq
        cases hq
    cases hfd : pickFd? (w2.bases ((w.msgs m).socketBase.getD 0)) ((w.msgs m).args 3) with
    | none =>
      simp only [hfd] at hu ⊢
      have tends : Tends o {j} {p} w
          (Tolunnet.fail (tnAcceptEntryFree (tnSlotFree w2 j) ent) m .emfile).1 :=
        alloc.trans ((Tends.tnSlotFree.trans (.tnAcceptEntryFree ent)).fail _)
      by_cases hx : x = j
      · subst hx
        have stays : Stays o (tnSlotFree w2 x)
            (Tolunnet.fail (tnAcceptEntryFree (tnSlotFree w2 x) ent) m .emfile).1 :=
          (Tends.tnAcceptEntryFree ent).fail _
        have gone := (stays.slot x (Set.notMem_empty x)).inUse hu
        rw [inUse_tnSlotFree] at gone
        cases gone
      · exact .inl (others tends hx hu)
    | some fd =>
      simp only [hfd] at hu ⊢
      unfold takeEntry at hu ⊢
      simp only [hp] at hu ⊢
      generalize hw3 : (w2.setFd _ fd (some j)).modSlot j _ = w3 at hu ⊢
      have installed : Tends o {j} {p} w w3 :=
        alloc.trans (hw3 ▸ (Tends.setFd _ fd (some j)).trans (.modSlot_mem member _))
      have slot3 : (w3.sockets j).inUse = true ∧ (w3.sockets j).opts = {} ∧
          (w3.sockets j).tcpPcb = some p ∧ (w3.sockets j).udpPcb = none ∧
            (w3.sockets j).rawPcb = none := by
        rw [← hw3]
        simp [World.modSlot, World.setFd, World.modBase, slot2, tnInitSocketSlot]
        decide
      have opts3 : (w3.sockets i).opts = (w.sockets i).opts := by
        rw [← opts2, ← hw3]
        simp [World.modSlot, World.setFd, World.modBase, apart]
      have hc3 : w3.tcpPcbs p = some c := by
        rw [← hc2, ← hw3]
        rfl
      obtain ⟨inUse3, fresh3, tcp3, udp3, raw3⟩ := slot3
      have adopted : Tends o {j} {p} w (adoptPcb w3 m i j p) :=
        installed.trans (.adoptPcb member single)
      have born : Born o (w.sockets i).opts { c with nagleOff := true } (adoptPcb w3 m i j p) j := by
        have h := adoptPcb_born (o := o) (i := i) (m := m) inUse3 fresh3 tcp3 udp3 raw3 hc3 full
        rwa [opts3] at h
      have recorded : Stays o (adoptPcb w3 m i j p)
          (Tolunnet.done (recordAccepted (adoptPcb w3 m i j p) j) m fd .ok).1 := by
        refine Tends.done ?_ _ _
        unfold recordAccepted
        dsimp only
        have wrote : Stays o (adoptPcb w3 m i j p)
            (tnRecordSocketEvent (adoptPcb w3 m i j p) j fdWrite) := .tnRecordSocketEvent _
        split
        · split
          · exact (wrote.trans (.tnRecordSocketEvent _)).trans (.tnRecordSocketEvent _)
          · exact wrote.trans (.tnRecordSocketEvent _)
        · exact wrote
      by_cases hx : x = j
      · subst hx
        exact .inr ⟨free, born.keeps (.of_stays (N := fun _ => False) recorded hu) fun _ h => h.elim⟩
      · exact .inl (others (adopted.trans (.of_stays recorded)) hx hu)

/-- What `ACCEPT` leaves of a slot that is in use afterwards. -/
theorem tnIpcCmdAccept_fate {x : SlotIdx} {t : Tok} (hs : (abs t w).Sound) (kinds : Kinds w)
    (hi : (w.sockets i).inUse = true)
    (hu : ((tnIpcCmdAccept w m (some i)).1.sockets x).inUse = true) :
    ((w.sockets x).inUse = true ∧ Keeps o N w (tnIpcCmdAccept w m (some i)).1 x) ∨
      ((w.sockets x).inUse = false ∧ ∃ ent rest p c, (w.sockets i).acceptQ = ent :: rest ∧
        ent.newPcb = some p ∧ w.tcpPcbs p = some c ∧
        Born o (w.sockets i).opts { c with nagleOff := true } (tnIpcCmdAccept w m (some i)).1 x) := by
  unfold tnIpcCmdAccept at hu ⊢
  dsimp only at hu ⊢
  by_cases listening : (w.sockets i).tcpState ≠ .listening
  · rw [if_pos listening] at hu ⊢
    exact .inl ⟨hu, .of_stays (.refuse _) hu⟩
  · rw [if_neg listening] at hu ⊢
    cases hq : (w.sockets i).acceptQ with
    | nil =>
      simp only [hq] at hu ⊢
      by_cases nonblock : (w.sockets i).isNonblocking = true
      · rw [if_pos nonblock] at hu ⊢
        exact .inl ⟨hu, .of_stays (.refuse _) hu⟩
      · rw [if_neg nonblock] at hu ⊢
        have stays : Stays o w (w.setPending i .accept (some m)) := .setPending _ _
        exact .inl ⟨(stays.slot x (Set.notMem_empty x)).inUse hu, .of_stays stays hu⟩
    | cons ent rest =>
      simp only [hq] at hu ⊢
      have he : ent ∈ (w.sockets i).acceptQ := hq ▸ List.mem_cons_self
      obtain ⟨p, c, hp, hc, full⟩ := queued_full hs he
      rcases acceptQueued_fate (o := o) (N := N) kinds hi he hp hc full hu with kept | ⟨free, born⟩
      · exact .inl kept
      · exact .inr ⟨free, ent, rest, p, c, rfl, hp, hc, born⟩

/-! ## What a slot keeps in the end -/

/-- Slot `i` stores what it stored, and its pcb mirrors that if it did before and the slot stores 1
where `N` holds of the pcb. -/
structure Upholds (o : SockOpt) (N : PcbId → Prop) (w w' : World) (i : SlotIdx) : Prop where
  opts : storedOpt (w'.sockets i).opts o = storedOpt (w.sockets i).opts o
  mirrors : (∀ p, (w.sockets i).tcpPcb = some p → N p → storedOpt (w.sockets i).opts o = (1, 0)) →
    Mirrors w i o → Mirrors w' i o

/-- What is kept is upheld. -/
theorem Keeps.upholds (h : Keeps o N w w' i) : Upholds o N w w' i := ⟨h.opts, h.mirrors⟩

/-- Statements that assign nothing to slots and pcbs. -/
theorem Mirrors.same (h : Mirrors w i o) (hs : stored u = stored w) : Mirrors u i o := by
  obtain ⟨slots, pcbs⟩ := Prod.mk.inj hs
  obtain ⟨tcp, pcbs⟩ := Prod.mk.inj pcbs
  obtain ⟨udp, raw⟩ := Prod.mk.inj pcbs
  rintro v (⟨p, c, hp, hc, full, hv⟩ | ⟨p, c, hp, hc, hv⟩ | ⟨p, c, hp, hc, hv⟩)
  · rw [slots] at hp ⊢
    exact h v (.tcp p c hp (tcp ▸ hc) full hv)
  · rw [slots] at hp ⊢
    exact h v (.udp p c hp (udp ▸ hc) hv)
  · rw [slots] at hp ⊢
    exact h v (.raw p c hp (raw ▸ hc) hv)

/-- The same slots and pcbs uphold the same. -/
theorem Upholds.same (h : Upholds o N w w' i) (hs : stored u = stored w') : Upholds o N w u i :=
  ⟨by rw [(Prod.mk.inj hs).1]; exact h.opts, fun hN before => (h.mirrors hN before).same hs⟩

/-- A slot that is in use afterwards was in use before and upholds option `o`. -/
def Steady (o : SockOpt) (N : PcbId → Prop) (w w' : World) (i : SlotIdx) : Prop :=
  (w'.sockets i).inUse = true → (w.sockets i).inUse = true ∧ Upholds o N w w' i

namespace Steady

/-- An option that stays is steady. -/
theorem of_stays (h : Stays o w w') : Steady o N w w' i := fun hu =>
  ⟨(h.slot i (Set.notMem_empty i)).inUse hu, (Keeps.of_stays h hu).upholds⟩

/-- The same slots and pcbs are as steady. -/
theorem same (h : Steady o N w w' i) (hs : stored u = stored w') : Steady o N w u i := fun hu => by
  rw [(Prod.mk.inj hs).1] at hu
  obtain ⟨before, upholds⟩ := h hu
  exact ⟨before, upholds.same hs⟩

/-- Statements that assign nothing to slots and pcbs, before what is done to them. -/
theorem of_same (h : Steady o N u w' i) (hs : stored u = stored w) : Steady o N w w' i := fun hu => by
  have slots := (Prod.mk.inj hs).1
  obtain ⟨before, upholds⟩ := h hu
  rw [slots] at before
  refine ⟨before, by rw [upholds.opts, slots], fun hN mirrors => upholds.mirrors ?_ (mirrors.same hs)⟩
  rw [slots]
  exact hN

/-- Code that leaves the option alone, after what was done to it. -/
theorem trans_stays (h : Steady o N w w' i) (hs : Stays o w' u) : Steady o N w u i := fun hu => by
  obtain ⟨before, upholds⟩ := h ((hs.slot i (Set.notMem_empty i)).inUse hu)
  have kept : Keeps o (fun _ => False) w' u i := .of_stays hs hu
  exact ⟨before, kept.opts.trans upholds.opts, fun hN mirrors =>
    kept.mirrors (fun _ _ h => h.elim) (upholds.mirrors hN mirrors)⟩

end Steady

/-! ## `LISTEN` -/

/-- The listener is installed in slot `i` and its pcb, and nowhere else. -/
theorem tcpPcbs_installListener {l : PcbId} {c : TcpPcb} {bl : Nat} (hc : w.tcpPcbs l = some c)
    (listen : c.listen = true) : (installListener w i l bl).tcpPcbs =
      Function.update w.tcpPcbs l (some { c with arg := .slot i, accept := true }) := by
  simp [installListener, tcpAccept, tcpArg, onPcb, setPcb, World.modSlot, hc, listen]

/-- A listener's pcb takes the place of the stream's. -/
theorem rest_installListener {l : PcbId} {c : TcpPcb} {bl : Nat} (hc : w.tcpPcbs l = some c) :
    (installListener w i l bl).sockets = Function.update w.sockets i
        { w.sockets i with tcpPcb := some l, tcpState := .listening, listenBacklog := bl } ∧
      (installListener w i l bl).udpPcbs = w.udpPcbs ∧
      (installListener w i l bl).rawPcbs = w.rawPcbs := by
  simp [installListener, tcpAccept, tcpArg, onPcb, setPcb, World.modSlot, hc]

/-- The listen pcb has none of the values, and nobody else has it. -/
theorem installListener_steady {x : SlotIdx} {l : PcbId} {c : TcpPcb} {bl : Nat} (kinds : Kinds w)
    (hp : (w.sockets i).tcpPcb = some p) (free : w.tcpPcbs l = none) (listen : c.listen = true)
    (hw1 : (w.asked.setPcb p none).setPcb l (some c) = w') :
    Steady o N w (installListener w' i l bl) x := by
  intro hu
  have made : w'.tcpPcbs l = some c := by
    rw [← hw1]
    simp [setPcb]
  have pcbs : (installListener w' i l bl).tcpPcbs =
      Function.update w'.tcpPcbs l (some { c with arg := .slot i, accept := true }) :=
    tcpPcbs_installListener made listen
  have rest : (installListener w' i l bl).sockets = Function.update w'.sockets i
        { w'.sockets i with tcpPcb := some l, tcpState := .listening, listenBacklog := bl } ∧
      (installListener w' i l bl).udpPcbs = w'.udpPcbs ∧
      (installListener w' i l bl).rawPcbs = w'.rawPcbs := rest_installListener made
  obtain ⟨slots, udp, raw⟩ := rest
  have slots' : w'.sockets = w.sockets := by
    rw [← hw1]
    rfl
  have udp' : (installListener w' i l bl).udpPcbs = w.udpPcbs := by
    rw [udp, ← hw1]
    rfl
  have raw' : (installListener w' i l bl).rawPcbs = w.rawPcbs := by
    rw [raw, ← hw1]
    rfl
  rw [slots'] at slots
  rw [slots] at hu
  by_cases hx : x = i
  · subst hx
    refine ⟨by simpa using hu, by rw [slots]; simp, fun _ before => ?_⟩
    rintro v (⟨q, c', hq, hc', full, -⟩ | ⟨q, c', hq, hc', hv⟩ | ⟨q, c', hq, hc', hv⟩)
    · rw [slots] at hq
      obtain rfl : l = q := by simpa using hq
      rw [pcbs] at hc'
      obtain rfl : { c with arg := .slot x, accept := true } = c' := by simpa using hc'
      have listens : ({ c with arg := .slot x, accept := true } : TcpPcb).listen = true := listen
      rw [listens] at full
      cases full
    · rw [slots] at hq ⊢
      have held : (w.sockets x).udpPcb = some q := by simpa using hq
      simpa using before v (.udp q c' held (udp' ▸ hc') hv)
    · rw [slots] at hq ⊢
      have held : (w.sockets x).rawPcb = some q := by simpa using hq
      simpa using before v (.raw q c' held (raw' ▸ hc') hv)
  · have same : (installListener w' i l bl).sockets x = w.sockets x := by
      rw [slots]
      simp [hx]
    refine ⟨by simpa [hx] using hu, (Keeps.of_beside same (fun q hq => ?_)
      (fun q _ => congrFun udp' q) fun q _ => congrFun raw' q).upholds⟩
    have notOld : q ≠ p := by
      rintro rfl
      exact hx (kinds.slots x i q hq hp)
    have notNew : q ≠ l := by
      rintro rfl
      obtain ⟨c', hc'⟩ := kinds.live x q (.inl hq)
      rw [free] at hc'
      cases hc'
    rw [pcbs, Function.update_of_ne notNew, ← hw1]
    simp [setPcb, asked, notOld, notNew]

/-- `LISTEN` is steady. -/
theorem tnIpcCmdListen_steady {x : SlotIdx} (kinds : Kinds w) :
    Steady o N w (tnIpcCmdListen w m (some i)).1 x := by
  unfold tnIpcCmdListen
  dsimp only
  split
  · exact .of_stays (.refuse _)
  · rename_i p hp
    split
    · exact .of_stays (.refuse _)
    · split
      · have set : Stays o w (w.modSlot i fun s =>
          { s with listenBacklog := clampBacklog ((w.msgs m).args 1) }) := .assign rfl
        exact .of_stays (set.done _ _)
      · unfold tcpListenWithBacklog
        cases hc : w.tcpPcbs p with
        | none =>
          have missed : Stays o w (w.emit (.fault p .close)) := .emit _
          exact .of_stays (missed.fail _)
        | some c =>
          dsimp only
          by_cases other : (c.listen || decide (c.state ≠ .closed)) = true
          · rw [if_pos other]
            exact .of_stays (.refuse _)
          · rw [if_neg other]
            by_cases fresh : freshPcb w w.ask = true
            · rw [if_pos fresh]
              have free : w.tcpPcbs w.ask.id = none := by
                simpa [freshPcb] using ((Bool.and_eq_true _ _).mp fresh).2
              intro hu
              obtain ⟨before, upholds⟩ := installListener_steady (o := o) (N := N) kinds hp free rfl
                rfl hu
              exact ⟨before, upholds.same rfl⟩
            · rw [if_neg fresh]
              have asked : Stays o w w.asked := .asked
              exact .of_stays (asked.fail _)

/-! ## `BIND` and `SETSOCKOPT` -/

/-- `SO_REUSEADDR` goes to the pcb of a slot that stores it. -/
theorem markTcp_steady {x : SlotIdx} (kinds : Kinds w) (hp : (w.sockets i).tcpPcb = some p)
    (set : (w.sockets i).opts.reuseaddr = true) :
    Steady .reuseaddr N w (w.onPcb p fun c => { c with sofReuseaddr := true }) x := by
  have slots : (w.onPcb p fun c => { c with sofReuseaddr := true }).sockets = w.sockets :=
    (Only.onPcb (S := ∅) _).sockets
  intro hu
  rw [slots] at hu
  refine ⟨hu, ?_⟩
  obtain ⟨c, hc⟩ := kinds.live i p (.inl hp)
  have pcbs : w.onPcb p (fun c => { c with sofReuseaddr := true }) =
      w.setPcb p (some { c with sofReuseaddr := true }) := by simp [onPcb, hc]
  rw [pcbs]
  by_cases hx : x = i
  · subst hx
    refine ⟨rfl, fun _ before => ?_⟩
    rintro v (⟨q, c', hq, hc', -, hv⟩ | ⟨q, c', hq, hc', hv⟩ | ⟨q, c', hq, hc', hv⟩)
    · obtain rfl : p = q := Option.some.inj (hp.symm.trans hq)
      obtain rfl : { c with sofReuseaddr := true } = c' := by simpa [setPcb] using hc'
      cases hv
      show (bit (w.sockets x).opts.reuseaddr, (0 : Int)) = _
      rw [set]
    · exact before v (.udp q c' hq hc' hv)
    · exact before v (.raw q c' hq hc' hv)
  · refine Keeps.upholds (.of_beside rfl (fun q hq => ?_) (fun _ _ => rfl) fun _ _ => rfl)
    have other : q ≠ p := by
      rintro rfl
      exact hx (kinds.slots x i q hq hp)
    simp [setPcb, other]

/-- The same for a UDP pcb. -/
theorem markUdp_steady {x : SlotIdx} (kinds : Kinds w) (hp : (w.sockets i).udpPcb = some p)
    (set : (w.sockets i).opts.reuseaddr = true) :
    Steady .reuseaddr N w (w.onUdp p fun c => { c with sofReuseaddr := true }) x := by
  intro hu
  refine ⟨hu, ?_⟩
  by_cases hx : x = i
  · subst hx
    refine ⟨rfl, fun _ before => ?_⟩
    rintro v (⟨q, c', hq, hc', full, hv⟩ | ⟨q, c', hq, hc', hv⟩ | ⟨q, c', hq, hc', hv⟩)
    · exact before v (.tcp q c' hq hc' full hv)
    · obtain rfl : p = q := Option.some.inj (hp.symm.trans hq)
      obtain ⟨c, -, rfl⟩ : ∃ c, w.udpPcbs p = some c ∧ { c with sofReuseaddr := true } = c' := by
        simpa [onUdp] using hc'
      cases hv
      show (bit (w.sockets x).opts.reuseaddr, (0 : Int)) = _
      rw [set]
    · exact before v (.raw q c' hq hc' hv)
  · refine Keeps.upholds (.of_beside rfl (fun _ _ => rfl) (fun q hq => ?_) fun _ _ => rfl)
    have other : q ≠ p := by
      rintro rfl
      obtain ⟨c, hc, ha⟩ := (kinds.udp q x).mp hq
      obtain ⟨c', hc', ha'⟩ := (kinds.udp q i).mp hp
      obtain rfl : c = c' := Option.some.inj (hc.symm.trans hc')
      exact hx (ha.symm.trans ha')
    simp [onUdp, other]

/-- The answer of `BIND` is steady. -/
theorem bindDone_steady {x : SlotIdx} {r : World × ErrT} (h : Steady o N w r.1 x) :
    Steady o N w (bindDone r m).1 x := by
  obtain ⟨u, e⟩ := r
  cases e <;> exact h.same rfl

/-- `BIND` writes one option, with the value that is stored. -/
theorem tnIpcCmdBind_steady {x : SlotIdx} (kinds : Kinds w) :
    Steady o N w (tnIpcCmdBind w m (some i)).1 x := by
  by_cases ho : o = .reuseaddr
  · subst ho
    unfold tnIpcCmdBind
    dsimp only
    split
    · rename_i k sin hk _
      obtain rfl : i = k := Option.some.inj hk
      split
      · exact .of_stays (.refuse _)
      · split
        · exact .of_stays (.refuse _)
        · split
          · split
            · rename_i p hp
              refine bindDone_steady ?_
              unfold bindTcp
              dsimp only
              by_cases set : (w.sockets i).opts.reuseaddr = true
              · rw [if_pos set]
                exact (markTcp_steady kinds hp set).trans_stays (.tcpBind _ _)
              · rw [if_neg set]
                exact .of_stays (.tcpBind _ _)
            · exact .of_stays (.refuse _)
          · split
            · split
              · rename_i p hp
                refine bindDone_steady ?_
                generalize hw1 : (if (w.sockets i).opts.reuseaddr = true then
                  w.onUdp p fun c => { c with sofReuseaddr := true } else w) = w1
                have marked : Steady .reuseaddr N w w1 x := by
                  rw [← hw1]
                  split
                  · rename_i set
                    exact markUdp_steady kinds hp set
                  · exact .of_stays (.refl w)
                have asked : Stays .reuseaddr w1 w1.asked := .asked
                dsimp only
                split
                · exact marked.trans_stays (asked.trans (.onUdp fun _ => rfl))
                · exact marked.trans_stays asked
              · exact .of_stays (.refuse _)
            · split
              · split
                · refine bindDone_steady (.of_stays ?_)
                  have asked : Stays .reuseaddr w w.asked := .asked
                  dsimp only
                  split
                  · exact asked.trans (.onRaw fun _ => rfl)
                  · exact asked
                · exact .of_stays (.refuse _)
              · exact .of_stays (.refuse _)
    · exact .of_stays (.refuse _)
  · exact .of_stays (.tnIpcCmdBind ho _)

/-- What `SETSOCKOPT` leaves of an option of a slot: it is about that option of that slot, or steady. -/
theorem tnIpcCmdSetsockopt_fate {x : SlotIdx} (kinds : Kinds w) :
    Steady o N w (tnIpcCmdSetsockopt w m (some i)).1 x ∨
      (x = i ∧ ∃ f u v, (w.msgs m).ptrs 0 = .mem f ∧
        sockOpt (w.sockets i).type ((w.msgs m).args 1) ((w.msgs m).args 2) = .ok o ∧
        applySockopt w i o f ((w.msgs m).args 3) = (.ok u, v) ∧
        tnIpcCmdSetsockopt w m (some i) = done u m 0 .ok) := by
  rcases tnIpcCmdSetsockopt_cases w m i with
    ⟨e, h⟩ | ⟨f, o', hf, ho', ⟨e, u, ha, h⟩ | ⟨u, v, ha, h⟩⟩
  · rw [h]
    exact .inl (.of_stays (.refuse e))
  · rw [h]
    have stays : Stays o w u := .same (stored_applySockopt ha)
    exact .inl (.of_stays (stays.fail e))
  · rw [h]
    by_cases ho : o' = o
    · subst ho
      by_cases hx : x = i
      · exact .inr ⟨hx, f, u, v, hf, ho', ha, rfl⟩
      · have spares := Spares.applySockopt ha
        have spared : Steady o' N w u x := fun hu => by
          rw [spares.slots x hx] at hu
          exact ⟨hu, (spares.keeps kinds hx).upholds⟩
        exact .inl (spared.same rfl)
    · have stays : Stays o w u := .applySockopt ho ha
      exact .inl (.of_stays (stays.done _ _))

end Tolunnet
