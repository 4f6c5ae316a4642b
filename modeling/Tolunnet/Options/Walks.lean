import Tolunnet.Options.Slots

/-!
# `Tolunnet.Options.Walks`: options while lwIP works

Between two statements of a handler lwIP may work through a list of actions, and any of them may
report a connection or bring a new one. A `Walk` is such a stretch of a step: code that leaves an
option alone, and single actions of lwIP, each in a state in which nothing is in hand that lwIP could
meet. `Rides` is what a walk leaves of an option: a slot in use keeps it, and a slot that is taken in
between has an incoming connection of a listener.
-/

set_option autoImplicit false

namespace Tolunnet

open World

variable {o : SockOpt} {E : LwipEv → Prop} {w w' w'' : World} {i j k : SlotIdx} {m : MsgId}
  {p : PcbId} {S : Set SlotIdx} {P : Set PcbId} {l : TnSockOpts} {d : TcpPcb}

/-! ## The accept callback -/

/-- A released slot is free. -/
theorem inUse_tnSlotFree : ((tnSlotFree w j).sockets j).inUse = false := by
  unfold tnSlotFree
  split
  · simp [clearSlot, World.modSlot]
  · rename_i free
    simpa using free

/-- The new connection `p` has been refused, queued, or taken in a slot of its own, which starts with
the options `l` and the fields of `d`. -/
def Taken (o : SockOpt) (l : TnSockOpts) (d : TcpPcb) (p : PcbId) (w w' : World) : Prop :=
  ∃ S : Set SlotIdx, Tends o S {p} w w' ∧
    ∀ j ∈ S, (w.sockets j).inUse = false ∧ ((w'.sockets j).inUse = true → Born o l d w' j)

namespace Taken

/-- What tends elsewhere takes the pcb. -/
theorem of_tends (h : Tends o ∅ {p} w w') : Taken o l d p w w' :=
  ⟨∅, h, fun j hj => absurd hj (Set.notMem_empty j)⟩

/-- Code that stays may come after. -/
theorem trans_stays (h : Taken o l d p w w') (h' : Stays o w' w'') : Taken o l d p w w'' := by
  obtain ⟨S, tends, fresh⟩ := h
  refine ⟨S, tends.trans (.of_stays h'), fun j hj => ⟨(fresh j hj).1, fun hu => ?_⟩⟩
  have before := (h'.slot j (Set.notMem_empty j)).inUse hu
  exact ((fresh j hj).2 before).keeps (.of_stays (N := fun _ => False) h' hu) fun _ h => h.elim

end Taken

/-- What is taken over from the listener goes to the new slot and the new pcb. -/
theorem Tends.adoptPcb (hj : j ∈ S) (hp : p ∈ P) : Tends o S P w (adoptPcb w m i j p) := by
  unfold Tolunnet.adoptPcb
  dsimp only
  refine Tends.trans ?_ (tnStoreClientSockaddr _ _ _ _)
  refine Tends.trans ?_ (readFull _)
  refine Tends.trans ?_ (registerSlot j)
  refine Tends.trans ?_ (inheritPcb (fun h => absurd hp h) _)
  exact (tcpNagle (fun h => absurd hp h) true).trans (modSlot_mem hj _)

/-- `tn_tcp_accept_cb` on a full pcb. -/
theorem tnTcpAcceptCb_taken {c : TcpPcb} (hc : w.tcpPcbs p = some c) (full : c.listen = false) :
    Taken o (w.sockets i).opts { c with nagleOff := true } p w (tnTcpAcceptCb w i p).1 := by
  have single : p ∈ ({p} : Set PcbId) := Set.mem_singleton p
  unfold tnTcpAcceptCb
  dsimp only
  split
  · exact .of_tends (.refl w)
  · rename_i listens
    have inUse : (w.sockets i).inUse = true := by
      by_contra h
      exact listens (.inl h)
    split
    · rename_i m _
      have unparked : Tends o ∅ {p} w (w.setPending i .accept none) := .setPending _ _
      have opts : ((w.setPending i .accept none).sockets i).opts = (w.sockets i).opts := by
        simp [World.setPending, World.modSlot]
      have used : ∀ x, ((w.setPending i .accept none).sockets x).inUse = (w.sockets x).inUse := by
        intro x
        by_cases hx : x = i
        · subst hx
          simp [World.setPending, World.modSlot]
        · simp [World.setPending, World.modSlot, hx]
      have hc1 : (w.setPending i .accept none).tcpPcbs p = some c := hc
      generalize w.setPending i .accept none = w1 at unparked opts used hc1
      split
      · exact .of_tends ((unparked.trans .tcpAbort).trans (.answerMsg _ _))
      · rename_i j hfree
        have free : (w.sockets j).inUse = false := (used j).symm.trans (freeSlot?_free hfree)
        have apart : i ≠ j := fun he => by
          rw [he, free] at inUse
          cases inUse
        have member : j ∈ ({j} : Set SlotIdx) := Set.mem_singleton j
        have start : Tends o {j} {p} w w1 := unparked.mono (Set.empty_subset _) subset_rfl
        generalize hw2 : tnSlotAlloc w1 j _ _ afInet sockStream 0 = w2
        have alloc : Tends o {j} {p} w1 w2 := hw2 ▸ .modSlot_mem member _
        have slot2 : w2.sockets j = tnInitSocketSlot (w.msgs m).socketBase (w.msgs m).clientTask
            afInet sockStream 0 := by
          rw [← hw2]
          simp [tnSlotAlloc, World.modSlot]
        have opts2 : (w2.sockets i).opts = (w.sockets i).opts := by
          rw [← opts, ← hw2]
          simp [tnSlotAlloc, World.modSlot, apart]
        have hc2 : w2.tcpPcbs p = some c := by
          rw [← hc1, ← hw2]
          rfl
        split
        · have freed : Tends o {j} {p} w2 (tnSlotFree w2 j) := .tnSlotFree
          refine ⟨{j}, (((start.trans alloc).trans freed).trans .tcpAbort).trans (.answerMsg _ _),
            fun x hx => ⟨hx ▸ free, fun hu => ?_⟩⟩
          obtain rfl : x = j := hx
          -- the slot has been released again
          have same : (((tcpAbort (tnSlotFree w2 x) p).answerMsg m (-1) .emfile).sockets x).inUse =
              ((tnSlotFree w2 x).sockets x).inUse :=
            congrArg TnSocketSlot.inUse
              (congrFun ((Only.tcpAbort (S := ∅) p).trans (.answerMsg _ _ _)).sockets x)
          rw [same, inUse_tnSlotFree] at hu
          cases hu
        · rename_i fd _
          generalize hw3 : (w2.setFd _ fd (some j)).modSlot j _ = w3
          have installed : Tends o {j} {p} w2 w3 :=
            hw3 ▸ (Tends.setFd _ fd (some j)).trans (.modSlot_mem member _)
          have slot3 : w3.sockets j = { w2.sockets j with tcpState := .established,
                                                          tcpPcb := some p } := by
            rw [← hw3]
            simp [World.modSlot, World.setFd, World.modBase]
          have opts3 : (w3.sockets i).opts = (w.sockets i).opts := by
            rw [← opts2, ← hw3]
            simp [World.modSlot, World.setFd, World.modBase, apart]
          have hc3 : w3.tcpPcbs p = some c := by
            rw [← hc2, ← hw3]
            rfl
          rw [slot2] at slot3
          have adopted : Tends o {j} {p} w3 (adoptPcb w3 m i j p) := .adoptPcb member single
          have born : Born o (w.sockets i).opts { c with nagleOff := true }
              (adoptPcb w3 m i j p) j := by
            have h := adoptPcb_born (o := o) (i := i) (m := m) (w := w3) (j := j) (p := p)
              (by rw [slot3]; rfl) (by rw [slot3]; rfl) (by rw [slot3]) (by rw [slot3]; rfl)
              (by rw [slot3]; rfl) hc3 full
            rwa [opts3] at h
          have taken : Taken o (w.sockets i).opts { c with nagleOff := true } p w
              (adoptPcb w3 m i j p) :=
            ⟨{j}, ((start.trans alloc).trans installed).trans adopted, fun x hx => by
              obtain rfl : x = j := hx
              exact ⟨free, fun _ => born⟩⟩
          exact taken.trans_stays (((Tends.setReply _ _).trans (.tnRecordSocketEvent _)).trans
            .replyMsg)
    · split
      · exact .of_tends .tcpAbort
      · have pushed : Tends o ∅ {p} w (tnAcceptQueuePush w i p).1 := .tnAcceptQueuePush
        split
        · rename_i heq
          rw [heq] at pushed
          exact .of_tends (pushed.trans (.signalRecord _))
        · rename_i heq
          rw [heq] at pushed
          exact .of_tends (pushed.trans .tcpAbort)

/-! ## Where a connection comes from -/

/-- Nothing is in hand that lwIP could meet. -/
def Sane (w : World) : Prop := ∃ t, Lax t ∧ (abs t w).Sound

/-- The pcb that an incoming connection on listen pcb `c` has in the end: lwIP hands down the flags,
and Nagle's algorithm is turned off. -/
def acceptedPcb (c : TcpPcb) : TcpPcb :=
  { nagleOff := true, sofKeepalive := c.sofKeepalive, sofReuseaddr := c.sofReuseaddr }

/-- The actions `E` of lwIP bring a connection for slot `k`, which listens with pcb `c`. -/
structure Source (E : LwipEv → Prop) (w : World) (k : SlotIdx) (c : TcpPcb) : Prop where
  inUse : (w.sockets k).inUse = true
  listen : c.listen = true
  pcb : ∃ l, (w.sockets k).tcpPcb = some l ∧ w.tcpPcbs l = some c ∧
    ∃ p ip port, E (.accept l p ip port)

/-- The actions `E` of lwIP report that `p` is connected, which matters for `TCP_NODELAY`. -/
def Reported (o : SockOpt) (E : LwipEv → Prop) (p : PcbId) : Prop := o = .nodelay ∧ E (.connected p)

/-- A slot in use stays in use. -/
def Awake (w w' : World) : Prop := ∀ i, (w.sockets i).inUse = true → (w'.sockets i).inUse = true

/-- Calm code keeps slots in use. -/
theorem Calm.awake (h : Calm w w') : Awake w w' := fun i hu => (h.slots i hu).inUse.trans hu

/-- An assignment to other fields of a slot. -/
theorem Awake.assign {f : TnSocketSlot → TnSocketSlot}
    (hf : (f (w.sockets i)).inUse = (w.sockets i).inUse) : Awake w (w.modSlot i f) := by
  intro j hj
  by_cases hji : j = i
  · subst hji
    simpa [World.modSlot, hf] using hj
  · simpa [World.modSlot, hji] using hj

/-- What a stretch of a step with the actions `E` of lwIP leaves of option `o`. -/
structure Rides (o : SockOpt) (E : LwipEv → Prop) (w w' : World) : Prop where
  awake : Awake w w'
  slots : ∀ i, (w'.sockets i).inUse = true →
    ((w.sockets i).inUse = true ∧ Keeps o (Reported o E) w w' i) ∨
      ((w.sockets i).inUse = false ∧
        ∃ k c, Source E w k c ∧ Born o (w.sockets k).opts (acceptedPcb c) w' i)

/-- What an accepted slot stores depends on what its listener stores for the same option. -/
theorem storedOpt_inherit {l l' : TnSockOpts} (h : storedOpt l o = storedOpt l' o) :
    storedOpt (inheritOpts {} l) o = storedOpt (inheritOpts {} l') o := by
  cases o <;> first | rfl | exact h

/-- So does the pcb of an accepted slot. -/
theorem tcpField_accepted {c c' : TcpPcb} (h : tcpField c' o = tcpField c o) :
    tcpField (acceptedPcb c') o = tcpField (acceptedPcb c) o := by
  cases o <;> first | rfl | exact h

namespace Rides

/-- Code that stays rides along. -/
theorem of_stays (h : Stays o w w') (awake : Awake w w') : Rides o E w w' :=
  ⟨awake, fun i hu => .inl ⟨(h.slot i (Set.notMem_empty i)).inUse hu, .of_stays h hu⟩⟩

/-- Nothing done rides along. -/
theorem refl (w : World) : Rides o E w w := of_stays (.refl w) fun _ h => h

/-- A listener at the end of a stretch was one at its beginning, with the same value. -/
theorem source {c' : TcpPcb} (h : Rides o E w w') (src : Source E w' k c') :
    ∃ c, Source E w k c ∧ storedOpt (w'.sockets k).opts o = storedOpt (w.sockets k).opts o ∧
      tcpField (acceptedPcb c') o = tcpField (acceptedPcb c) o := by
  obtain ⟨l, hl, hc', p, ip, port, hE⟩ := src.pcb
  rcases h.slots k src.inUse with ⟨before, keeps⟩ | ⟨-, k', c, -, born⟩
  · obtain ⟨hl0, c, hc, listen, field⟩ := keeps.tcp l c' hl hc'
    refine ⟨c, ⟨before, listen ▸ src.listen, l, hl0, hc, p, ip, port, hE⟩, keeps.opts, ?_⟩
    rcases field with same | ⟨⟨rfl, -⟩, -⟩
    · exact tcpField_accepted same
    · rfl
  · have full := (born.tcp l c' hl hc').1
    rw [src.listen] at full
    cases full

/-- Rides compose. -/
theorem trans (h : Rides o E w w') (h' : Rides o E w' w'') : Rides o E w w'' where
  awake := fun i hi => h'.awake i (h.awake i hi)
  slots := by
    intro i hu
    rcases h'.slots i hu with ⟨mid, keeps'⟩ | ⟨free, k, c', src, born⟩
    · rcases h.slots i mid with ⟨before, keeps⟩ | ⟨free, k, c, src, born⟩
      · exact .inl ⟨before, keeps.trans keeps'⟩
      · refine .inr ⟨free, k, c, src, born.keeps keeps' fun p hp => ?_⟩
        obtain ⟨rfl, -⟩ := hp
        rfl
    · have free0 : (w.sockets i).inUse = false := by
        by_contra inUse
        rw [h.awake i (by simpa using inUse)] at free
        cases free
      obtain ⟨c, src0, opts, field⟩ := h.source src
      exact .inr ⟨free0, k, c, src0, born.congr (storedOpt_inherit opts) field⟩

/-- A slot that has nothing to do with a new connection `p`: no slot held a pcb that was not live. -/
theorem keeps_of_fresh {N : PcbId → Prop} (kinds : Kinds w) (hp : w.tcpPcbs p = none)
    (tends : Tends o S {p} w w') (hi : i ∉ S) (hu : (w'.sockets i).inUse = true) :
    Keeps o N w w' i := by
  refine .of_tends tends hu hi fun q hq hmem => ?_
  obtain rfl : q = p := hmem
  have held : (w.sockets i).tcpPcb = some q := by
    rcases (tends.slot i hi).tcp with same | gone
    · rw [← same, hq]
    · rw [gone] at hq
      cases hq
  obtain ⟨c, hc⟩ := kinds.live i q (.inl held)
  rw [hp] at hc
  cases hc

/-- A new connection that one slot has to do with. -/
theorem of_taken {c : TcpPcb} (kinds : Kinds w) (hp : w.tcpPcbs p = none) (src : Source E w k c)
    (hd : tcpField d o = tcpField (acceptedPcb c) o)
    (awake : Awake w w') (h : Taken o (w.sockets k).opts d p w w') : Rides o E w w' := by
  obtain ⟨S, tends, fresh⟩ := h
  refine ⟨awake, fun i hu => ?_⟩
  by_cases hi : i ∈ S
  · obtain ⟨free, born⟩ := fresh i hi
    exact .inr ⟨free, k, c, src, (born hu).congr rfl hd⟩
  · exact .inl ⟨(tends.slot i hi).inUse hu, keeps_of_fresh kinds hp tends hi hu⟩

end Rides

/-! ## Single actions -/

/-- An established connection has Nagle's algorithm off, if anything has changed. -/
theorem tcpPcbs_connected {c' : TcpPcb} (hc' : (runEv w (.connected p)).tcpPcbs p = some c') :
    ∃ c, w.tcpPcbs p = some c ∧ c'.listen = c.listen ∧
      (tcpField c' .nodelay = tcpField c .nodelay ∨ tcpField c' .nodelay = some 1) := by
  unfold runEv onLive at hc'
  dsimp only at hc'
  cases hc : w.tcpPcbs p with
  | none =>
    rw [hc] at hc'
    dsimp only at hc'
    rw [hc] at hc'
    cases hc'
  | some c =>
    rw [hc] at hc'
    dsimp only at hc'
    refine ⟨c, rfl, ?_⟩
    have unchanged : w.tcpPcbs p = some c' → c'.listen = c.listen ∧
        (tcpField c' .nodelay = tcpField c .nodelay ∨ tcpField c' .nodelay = some 1) := by
      intro h
      obtain rfl : c = c' := Option.some.inj (hc.symm.trans h)
      exact ⟨rfl, .inl rfl⟩
    split at hc'
    · exact unchanged hc'
    · rename_i full
      split at hc'
      · rename_i i _ _ _
        generalize hw1 : w.setPcb p _ = w1 at hc'
        have pcb : w1.tcpPcbs p = some { c with state := .established } := by
          rw [← hw1]
          simp [setPcb]
        by_cases h : (w1.sockets i).inUse = true ∧ (w1.sockets i).tcpPcb = some p
        · have after : Stays .nodelay (tcpNagle w1 p true) (tnTcpConnectedCb w1 i p) :=
            Tends.afterNagle h
          obtain ⟨c1, hc1, same⟩ := after.tcp p c' (Set.notMem_empty p) hc'
          have off : tcpNagle w1 p true =
              w1.setPcb p (some { c with state := .established, nagleOff := true }) := by
            simp [tcpNagle, onFull, pcb, full]
          rw [off] at hc1
          obtain rfl : { c with state := .established, nagleOff := true } = c1 := by
            simpa [setPcb] using hc1
          exact ⟨same.listen, .inr same.field⟩
        · unfold tnTcpConnectedCb at hc'
          rw [if_neg h, pcb, Option.some.injEq] at hc'
          subst hc'
          exact ⟨rfl, .inl rfl⟩
      · exact unchanged hc'

/-- A connection is made. -/
theorem rides_connected (hE : E (.connected p)) : Rides o E w (runEv w (.connected p)) := by
  by_cases ho : o = .nodelay
  · subst ho
    have tends : Tends .nodelay ∅ {p} w (runEv w (.connected p)) :=
      .runEv (fun q h hq => by cases h; exact absurd (Set.mem_singleton p) hq)
        fun _ _ _ _ h => by cases h
    refine ⟨(Calm.runEv _).awake, fun i hu => .inl ?_⟩
    have slot := tends.slot i (Set.notMem_empty i)
    refine ⟨slot.inUse hu, slot.opts hu, fun q c' hq hc' => ?_, fun q c' hq hc' => ?_,
      fun q c' hq hc' => ?_⟩
    · have held : (w.sockets i).tcpPcb = some q := by
        rcases slot.tcp with same | gone
        · rw [← same, hq]
        · rw [gone] at hq
          cases hq
      refine ⟨held, ?_⟩
      by_cases hqp : q = p
      · subst hqp
        obtain ⟨c, hc, listen, field⟩ := tcpPcbs_connected hc'
        exact ⟨c, hc, listen, field.imp_right fun one => ⟨⟨rfl, hE⟩, one⟩⟩
      · obtain ⟨c, hc, same⟩ := tends.tcp q c' hqp hc'
        exact ⟨c, hc, same.listen, .inl same.field⟩
    · refine ⟨?_, tends.udp q c' hc'⟩
      rcases slot.udp with same | gone
      · rw [← same, hq]
      · rw [gone] at hq
        cases hq
    · refine ⟨?_, tends.raw q c' hc'⟩
      rcases slot.raw with same | gone
      · rw [← same, hq]
      · rw [gone] at hq
        cases hq
  · exact .of_stays (.runEv (fun _ _ _ => ho) fun _ _ _ _ h => by cases h) (Calm.runEv _).awake

/-- A connection comes in. -/
theorem rides_accept {l : PcbId} {ip port : Nat} (hs : Sane w) (hE : E (.accept l p ip port)) :
    Rides o E w (runEv w (.accept l p ip port)) := by
  obtain ⟨t, lax, sound⟩ := hs
  have kinds : Kinds w := .of_sound sound lax
  have awake : Awake w (runEv w (.accept l p ip port)) := (Calm.runEv _).awake
  revert awake
  unfold runEv
  dsimp only
  cases hc : w.tcpPcbs l with
  | none => exact fun _ => .refl w
  | some c =>
    dsimp only
    split
    · rename_i h
      obtain ⟨listen, -, hp⟩ := h
      unfold deliverAccept
      dsimp only
      generalize hc0 : ({ state := .established, arg := c.arg, remoteIp := ip, remotePort := port,
                          localIp := c.localIp, localPort := c.localPort,
                          sofKeepalive := c.sofKeepalive,
                          sofReuseaddr := c.sofReuseaddr } : TcpPcb) = c0
      have full : c0.listen = false := by rw [← hc0]
      have field : tcpField { c0 with nagleOff := true } o = tcpField (acceptedPcb c) o := by
        rw [← hc0]
        cases o <;> rfl
      have made : Tends o ∅ {p} w (w.setPcb p (some c0)) :=
        .setPcb fun h => absurd (Set.mem_singleton p) h
      have pcb : (w.setPcb p (some c0)).tcpPcbs p = some c0 := by simp [setPcb]
      have slots : (w.setPcb p (some c0)).sockets = w.sockets := rfl
      generalize w.setPcb p (some c0) = w1 at made pcb slots
      split
      · rename_i i ha
        -- a listen pcb has not been let go, so the slot that its argument names holds it
        have own := owner_of_arg sound lax.conn hc ha fun ho => by
          have full : c.listen = false := ho.listen
          rw [listen] at full
          cases full
        have src : Source E w i c := ⟨own.inUse, listen, l, own.tcp, hc, p, ip, port, hE⟩
        have taken : Taken o (w.sockets i).opts { c0 with nagleOff := true } p w
            (tnTcpAcceptCb w1 i p).1 := by
          obtain ⟨S, tends, fresh⟩ := tnTcpAcceptCb_taken (o := o) (i := i) pcb full
          rw [slots] at fresh
          exact ⟨S, (made.mono (Set.empty_subset S) subset_rfl).trans tends, fresh⟩
        split
        · rename_i heq
          rw [heq] at taken
          exact fun awake => .of_taken kinds hp src field awake (taken.trans_stays .tcpAbort)
        · rename_i heq
          rw [heq] at taken
          exact fun awake => .of_taken kinds hp src field awake taken
      · intro awake
        have tends : Tends o ∅ {p} w (tcpAbort w1 p) := made.trans .tcpAbort
        exact ⟨awake, fun i hu => .inl ⟨(tends.slot i (Set.notMem_empty i)).inUse hu,
          Rides.keeps_of_fresh kinds hp tends (Set.notMem_empty i) hu⟩⟩
    · exact fun _ => .refl w

/-- Any action of lwIP. -/
theorem rides_runEv (hs : Sane w) {ev : LwipEv} (hE : E ev) : Rides o E w (runEv w ev) := by
  cases ev with
  | connected p => exact rides_connected hE
  | accept l p ip port => exact rides_accept hs hE
  | _ =>
    refine .of_stays (.runEv (fun _ h => ?_) fun _ _ _ _ h => ?_) (Calm.runEv _).awake
    · cases h
    · cases h

/-! ## Stretches of a step -/

/-- From `w` to `w'` with nothing but statements that leave option `o` alone and actions of `E`. -/
inductive Walk (o : SockOpt) (E : LwipEv → Prop) (w : World) : World → Prop where
  | refl : Walk o E w w
  | quiet {u v : World} : Walk o E w u → Stays o u v → Awake u v → Walk o E w v
  | event {u : World} {ev : LwipEv} : Walk o E w u → Sane u → E ev → Walk o E w (runEv u ev)

namespace Walk

/-- By induction on the walk. -/
theorem rides (h : Walk o E w w') : Rides o E w w' := by
  induction h with
  | refl => exact .refl w
  | quiet _ stays awake ih => exact ih.trans (.of_stays stays awake)
  | event _ sane hE ih => exact ih.trans (rides_runEv sane hE)

/-- By induction on the second walk. -/
theorem trans (h : Walk o E w w') (h' : Walk o E w' w'') : Walk o E w w'' := by
  induction h' with
  | refl => exact h
  | quiet _ stays awake ih => exact ih.quiet stays awake
  | event _ sane hE ih => exact ih.event sane hE

/-- Statements that change no slot's use of the table. -/
theorem calm (h : Walk o E w w') (stays : Stays o w' w'') (calm : Calm w' w'') : Walk o E w w'' :=
  h.quiet stays calm.awake

/-- Statements that assign nothing to slots and pcbs. -/
theorem same (h : Walk o E w w') (hs : stored w'' = stored w') : Walk o E w w'' := by
  refine h.quiet (.same hs) fun i hu => ?_
  rw [(Prod.mk.inj hs).1]
  exact hu

/-- A result ends the walk. -/
theorem done (h : Walk o E w w') (v : Int) (e : Errno) :
    Walk o E w (Tolunnet.done w' m v e).1 := h.same rfl

/-- A refusal ends the walk. -/
theorem fail (h : Walk o E w w') (e : Errno) : Walk o E w (Tolunnet.fail w' m e).1 := h.same rfl

/-- A refusal at once. -/
theorem refuse (e : Errno) : Walk o E w (Tolunnet.fail w m e).1 := refl.fail e

end Walk

/-- After an action of lwIP there is again nothing in hand that it could meet. -/
theorem Sane.runEv (h : Sane w) (ev : LwipEv) : Sane (runEv w ev) := by
  obtain ⟨t, lax, sound⟩ := h
  refine ⟨t, lax, Acts.sound (runEv_acts (P := fun _ => True) ?_ (lax.idle w) ev ?_) sound⟩
  · exact fun _ _ => trivial
  · exact fun _ _ => Set.mem_univ _

/-- A list of actions, by induction on it. -/
theorem Walk.runEvs {u : World} (h : Walk o E w u) (hs : Sane u) (evs : List LwipEv)
    (hE : ∀ ev ∈ evs, E ev) : Walk o E w (runEvs u evs) := by
  induction evs generalizing u with
  | nil => exact h
  | cons ev evs ih =>
    exact ih (h.event hs (hE ev List.mem_cons_self)) (hs.runEv ev) fun ev' h' =>
      hE ev' (List.mem_cons_of_mem ev h')

/-- The actions of the loopback queue that lwIP's answers announce. -/
def Drained (env : List Answer) (ev : LwipEv) : Prop := ∃ a ∈ env, ev ∈ a.evs

/-- lwIP works through its loopback queue. -/
theorem Walk.drain {env : List Answer} {u : World} (h : Walk o (Drained env) w u) (hs : Sane u)
    (he : u.env <:+ env) : Walk o (Drained env) w (tnDrainLoopback u) := by
  have asked : Sane u.asked := by
    obtain ⟨t, lax, sound⟩ := hs
    exact ⟨t, lax, (abs_asked t u).symm ▸ sound⟩
  have began : Walk o (Drained env) w u.asked := h.same rfl
  refine began.runEvs asked _ fun ev hev => ?_
  unfold World.ask at hev
  cases hu : u.env with
  | nil =>
    rw [hu] at hev
    cases hev
  | cons a rest =>
    rw [hu] at hev he
    exact ⟨a, he.subset List.mem_cons_self, hev⟩

end Tolunnet
