import Tolunnet.Refine.Queries

/-!
# `Tolunnet.Refine.Streams`: the handlers on a socket

`RECV` in its three forms, `LISTEN`, `ACCEPT`, `CONNECT` and `SHUTDOWN` as runs of acts. What a
handler asks of the slot is what the dispatcher has looked up, that it is in use.
-/

set_option autoImplicit false

namespace Tolunnet

open World

variable {P : Label → Prop} {t : Tok} {w w' : World} {m : MsgId} {i j : SlotIdx} {p : PcbId}

/-! ## Reading -/

/-- A read has an answer, or its request is parked where none was. -/
theorem RecvEnds.carried {r : World × TnIpcReplyAction} (hn : t.sending = none)
    (hu : (w.sockets i).inUse = true) (h : RecvEnds P (t.pickUp m) w m i r) :
    Carried P t w m r := by
  refine .of_sound fun hs => ?_
  cases h with
  | answer w' acts _ _ => exact acts
  | wait w' same _ hp waits =>
    refine .trans (.none same) ?_
    have out : (w'.sockets i).pending .recv ≠ some m := by
      rw [hp]
      exact hs.once.out m (List.mem_cons_self ..) (.slot i .recv)
    unfold tnSlotParkRecv
    split
    · rename_i m' hm'
      split
      · rename_i he
        exact absurd (he ▸ hm') out
      · exact .refuse _
    · rename_i none
      refine .defer (Acts.one (.msg (.park (abs (t.pickUp m) w') i .recv m (List.mem_cons_self ..)
        (Tok.notSending hn m) ?_ (by decide) ?_ (Or.inl none) (by intro h; cases h))) ?_)
      · show (w'.sockets i).inUse = true
        rw [hp]
        exact hu
      · show (w'.sockets i).view.RecvWaits
        rw [hp]
        exact waits
      · rw [abs_tok, Tok.pickUp_putDown]
        exact (abs_modSlot_same _ _ _ _ rfl).trans (abs_with (abs_setPending ..) t)

/-! ## `LISTEN` -/

/-- The pcb of a slot in state `CLOSED` becomes a listener, or nothing happens. -/
theorem tnIpcCmdListen_carried (hP : Permits P w) (hn : t.sending = none) (ht : Lax t)
    {slot : Option SlotIdx} (hu : ∀ i, slot = some i → (w.sockets i).inUse = true) :
    Carried P t w m (tnIpcCmdListen w m slot) := by
  refine .of_sound fun hs => ?_
  unfold tnIpcCmdListen
  split
  · exact .refuse _
  · rename_i i
    have inUse := hu i rfl
    dsimp only
    split
    · exact .refuse _
    · rename_i p hp
      split
      · exact .refuse _
      · split
        · exact .same (fun _ => abs_modSlot_same _ _ _ _ rfl) _ _
        · rename_i hl
          obtain ⟨v, hv, arg, linked⟩ := (hs.disc.slots i).pcb p hp
          obtain ⟨c, hc, rfl⟩ := abs_pcb_some.mp hv
          have arg : c.arg = .slot i := arg
          unfold tcpListenWithBacklog
          rw [hc]
          dsimp only
          by_cases h1 : (c.listen || c.state ≠ .closed) = true
          · rw [if_pos (by simpa using h1)]
            exact .refuse _
          · rw [if_neg (by simpa using h1)]
            have closed : c.state = .closed := by simp at h1; exact h1.2
            by_cases h2 : freshPcb w w.ask = true
            · rw [if_pos h2]
              dsimp only
              -- only a slot in state `CLOSED` has a pcb in that state
              have st : (w.sockets i).tcpState = .closed := by
                revert linked
                show Linked c.view (w.sockets i).tcpState → _
                have synced : c.state.synced = false := by rw [closed]; rfl
                have off : c.state ≠ .synSent := by rw [closed]; decide
                cases hst : (w.sockets i).tcpState with
                | closed => exact fun _ => rfl
                | connecting => exact fun h => absurd h.2.2.2 off
                | established | peerClosed =>
                  exact fun h => Bool.noConfusion (synced.symm.trans h.2.2.2)
                | listening => exact absurd hst hl
                | error => exact fun h => h.elim
              have free : (abs (t.pickUp m) w).pcb w.ask.id = none := by
                rw [abs_pcb]
                unfold freshPcb at h2
                simp only [Bool.and_eq_true, Option.isNone_iff_eq_none] at h2
                rw [h2.2]
                rfl
              refine .done (Acts.one (.tcp (.listen (abs (t.pickUp m) w) i p w.ask.id c.view inUse hp
                st hv free hn (by rw [abs_tok]; show t.joined ≠ _; rw [ht.joined]; simp)
                hP.alter)) ?_) _ _
              unfold installListener
              dsimp only
              generalize hw1 : ((w.asked.setPcb p none).setPcb w.ask.id _).modSlot i _ = w1
              have placed : abs (t.pickUp m) w1 = (((abs (t.pickUp m) w).slotSet i
                  { (abs (t.pickUp m) w).slot i with tcp := some w.ask.id, st := .listening }).pcbSet p
                  none).pcbSet w.ask.id (some { PcbView.newListen i with accept := false }) := by
                rw [← hw1, abs_modSlot, abs_setPcb, abs_setPcb, pcbSet_slotSet, pcbSet_slotSet]
                show _ = (((abs (t.pickUp m) w).slotSet i _).pcbSet p none).pcbSet w.ask.id _
                simp only [Option.map_some, TcpPcb.view, arg, PcbView.newListen]
                rfl
              have set := pcb_of_eq placed
              have named := abs_tcpArg set (.slot i)
              rw [abs_tcpAccept (pcb_of_eq named) rfl, named, placed]
              simp [PcbView.newListen]
            · rw [if_neg h2]
              exact .fail (.none (abs_asked ..)) _

/-! ## `ACCEPT` -/

/-- The queued connection in hand is aborted. -/
theorem freeEntry_acts {ent : TnAcceptEntry} (he : t.ent = none) :
    Acts P (abs { t with ent := some ent } w) (abs t (tnAcceptEntryFree w ent)) := by
  refine Acts.of_sound fun hs => ?_
  obtain ⟨⟨p, c, hp, hc, queued⟩, -⟩ := hs.disc.entries.inHand ent rfl
  refine Acts.one (.tcp (.freeEntry (abs { t with ent := some ent } w) ent p rfl hp)) ?_
  rw [abs_tnAcceptEntryFree (t := t) hp hc queued.listen]
  show _ = Abs.setTok _ { t with ent := none }
  rw [← he]
  rfl

/-- A new slot takes the queued connection in hand. -/
theorem takeEntry_acts {e : TnAcceptEntry} (he : t.ent = none) (ho : ∀ r, (j, r) ∈ t.owes)
    (hj : (w.sockets j).view = .new sockStream) :
    Acts P (abs { t with ent := some e } w) (abs t (takeEntry w m i j e)) := by
  refine Acts.of_sound fun hs => ?_
  obtain ⟨⟨p, c, hp, hc, queued⟩, -⟩ := hs.disc.entries.inHand e rfl
  have blank : ((abs { t with ent := some e } w).slot j).Blank := by
    rw [abs_slot, hj]
    exact ⟨rfl, rfl, rfl, rfl, rfl, fun _ => rfl, rfl, rfl⟩
  refine Acts.one (.tcp (.takeEntry _ j e p c blank rfl hp hc)) ?_
  unfold takeEntry
  dsimp only
  rw [hp]
  dsimp only
  generalize hw1 : w.modSlot j _ = w1
  have set : abs t w1 = (abs t w).slotSet j { (abs t w).slot j with
      tcp := some p, st := if e.peerClosed then .peerClosed else .established,
      rx := e.earlyRx, hist := e.hist } := by
    rw [← hw1, abs_modSlot]
    rfl
  have kept : (abs t w1).pcb p = some c := by
    rw [set]
    exact hc
  rw [abs_adoptPcb kept queued.listen, set, abs_tok]
  have token : ({ (Tok.oweAll { t with ent := some e } j) with ent := none } : Tok) = t := by
    rw [Tok.oweAll_mem (t := { t with ent := some e }) ho, ← he]
  rw [token]
  rfl

@[simp] theorem abs_recordAccepted (t : Tok) (w : World) (j : SlotIdx) :
    abs t (recordAccepted w j) = abs t w := by
  unfold recordAccepted
  dsimp only
  split
  · split <;> simp
  · simp

/-- The first queued connection goes to a new slot with a descriptor, or is aborted. -/
theorem acceptQueued_carried (hP : Permits P w) (ht : Lax t) {ent : TnAcceptEntry}
    {rest : List TnAcceptEntry} (hq : (w.sockets i).acceptQ = ent :: rest)
    (hb : registered w ((w.msgs m).socketBase.getD 0)) :
    Carried P t w m (acceptQueued w m i ent) := by
  unfold acceptQueued
  dsimp only
  have owed : ∀ j r, (j, r) ∈ (t.pickUp m).owes := fun j r => by
    show (j, r) ∈ t.owes
    rw [ht.owes]
    trivial
  have popped : Acts P (abs (t.pickUp m) w)
      (abs { t.pickUp m with ent := some ent } (tnAcceptQueuePopEntry w i)) := by
    refine Acts.one (.tcp (.popEntry (abs (t.pickUp m) w) i ent rest hq ht.ent))
      (abs_with (t := t.pickUp m) ?_ _)
    unfold tnAcceptQueuePopEntry
    rw [abs_modSlot]
    show (abs (t.pickUp m) w).slotSet i { (w.sockets i).view with q := (w.sockets i).acceptQ.tail } = _
    rw [hq]
    rfl
  have bases : (tnAcceptQueuePopEntry w i).bases = w.bases := rfl
  have opened : (tnAcceptQueuePopEntry w i).openBases = w.openBases := rfl
  generalize tnAcceptQueuePopEntry w i = w1 at popped bases opened
  split
  · exact .fail (popped.trans (freeEntry_acts (t := t.pickUp m) ht.ent)) _
  · rename_i j hj
    have alloc := tnSlotAlloc_acts (P := P) (t := { t.pickUp m with ent := some ent }) (w := w1)
      (freeSlot?_free hj) (fun r => owed j r) (w.msgs m).socketBase (w.msgs m).clientTask afInet
      sockStream 0
    have new : (tnSlotAlloc w1 j (w.msgs m).socketBase (w.msgs m).clientTask afInet sockStream 0).sockets
        j = tnInitSocketSlot (w.msgs m).socketBase (w.msgs m).clientTask afInet sockStream 0 :=
      sockets_modSlot ..
    have bases2 : (tnSlotAlloc w1 j (w.msgs m).socketBase (w.msgs m).clientTask afInet sockStream
        0).bases = w.bases := bases
    have opened2 : (tnSlotAlloc w1 j (w.msgs m).socketBase (w.msgs m).clientTask afInet sockStream
        0).openBases = w.openBases := opened
    generalize tnSlotAlloc w1 j (w.msgs m).socketBase (w.msgs m).clientTask afInet sockStream 0 = w2
      at alloc new bases2 opened2
    split
    · have freed := tnSlotFree_new (P := P)
        (t := { t.pickUp m with ent := some ent, refs := j :: t.refs }) (w := w2)
        (List.mem_cons_self ..) (by show j ∉ t.dying; rw [ht.dying]; simp) (by rw [new]; rfl)
        (by rw [new]; rfl) (hP.clear j)
      rw [List.erase_cons_head] at freed
      exact .fail (popped.trans (alloc.trans (freed.trans
        (freeEntry_acts (t := t.pickUp m) ht.ent)))) _
    · rename_i fd hfd
      obtain ⟨hlt, hnone⟩ := pickFd?_spec hfd
      have reg : registered w2 ((w.msgs m).socketBase.getD 0) := by
        unfold registered
        rw [opened2]
        exact hb
      have put := install_acts (P := P) (l := t.refs)
        (t := { t.pickUp m with ent := some ent, refs := j :: t.refs }) (w := w2) (j := j) rfl
        (by rw [new]; rfl) hlt hnone (Or.inl reg)
      have taken := takeEntry_acts (P := P) (t := t.pickUp m) (m := m) (i := i) (j := j) (e := ent)
        (w := w2.setFd ((w.msgs m).socketBase.getD 0) fd (some j)) ht.ent (owed j)
        (by show (w2.sockets j).view = _; rw [new]; rfl)
      exact .done (popped.trans (alloc.trans (put.trans (taken.trans
        (Acts.none (abs_recordAccepted ..)))))) _ _

/-- An `ACCEPT` that must wait takes the field, whether or not another one is in it. -/
theorem tnIpcCmdAccept_carried (hP : Permits P w) (hn : t.sending = none) (ht : Lax t)
    {slot : Option SlotIdx} (hu : ∀ i, slot = some i → (w.sockets i).inUse = true)
    (hb : registered w ((w.msgs m).socketBase.getD 0))
    (ho : ∀ i, slot = some i → (w.sockets i).tcpState = .listening → (w.sockets i).acceptQ = [] →
      (w.sockets i).isNonblocking = false → (w.sockets i).pending .accept = none ∨ P (.overwrite i)) :
    Carried P t w m (tnIpcCmdAccept w m slot) := by
  unfold tnIpcCmdAccept
  split
  · exact .refuse _
  · rename_i i
    dsimp only
    split
    · exact .refuse _
    · rename_i hst
      have listening : (w.sockets i).tcpState = .listening := not_not.mp hst
      split
      · rename_i ent rest hq
        exact acceptQueued_carried hP ht hq hb
      · rename_i hq
        split
        · exact .refuse _
        · rename_i hnb
          refine .defer (Acts.one (.msg (.park (abs (t.pickUp m) w) i .accept m
            (List.mem_cons_self ..) (Tok.notSending hn m) (hu i rfl) (by decide) listening
            ((ho i rfl listening hq (by simpa using hnb)).imp_right fun h => ⟨rfl, h⟩)
            fun _ => hP.alter)) ?_)
          rw [abs_tok, Tok.pickUp_putDown]
          exact abs_with (abs_setPending ..) t

/-! ## `CONNECT` -/

/-- The pcb of a slot in state `CLOSED`. -/
theorem closed_of_slot (hs : (abs t w).Sound) (hp : (w.sockets i).tcpPcb = some p)
    (hst : (w.sockets i).tcpState = .closed) :
    ∃ c, w.tcpPcbs p = some c ∧ c.listen = false ∧ c.state = .closed := by
  obtain ⟨v, hv, -, linked⟩ := (hs.disc.slots i).pcb p hp
  obtain ⟨c, hc, rfl⟩ := abs_pcb_some.mp hv
  rw [show ((abs t w).slot i).st = .closed from hst] at linked
  exact ⟨c, hc, linked.1, linked.2.2.2⟩

/-- The statements of a stream `connect` up to `tcp_connect`. -/
def connecting (w : World) (m : MsgId) (i : SlotIdx) (p : PcbId) : World :=
  let nonblock := (w.sockets i).isNonblocking
  let w := w.modSlot i fun s => { s with tcpState := .connecting }
  let w := w.setPending i .connect (if nonblock then none else some m)
  tcpSent (tcpRecv w p .slot) p true

/-- They touch no slot but the one of the request. -/
theorem sockets_connecting : (connecting w m i p).sockets = Function.update w.sockets i
    { w.sockets i with tcpState := .connecting,
                       pending := Function.update (w.sockets i).pending .connect
                         (if (w.sockets i).isNonblocking then none else some m) } := by
  unfold connecting
  dsimp only
  generalize hw1 : World.setPending _ i .connect _ = w1
  have same : (tcpSent (tcpRecv w1 p .slot) p true).sockets = w1.sockets :=
    ((Only.onFull (S := ∅) _ _).trans (.onFull _ _)).sockets
  rw [same, ← hw1]
  simp [World.setPending, World.modSlot]

/-- They register the callbacks of the pcb. -/
theorem pcb_connecting {c : TcpPcb} (hc : w.tcpPcbs p = some c) (hl : c.listen = false) :
    (connecting w m i p).tcpPcbs p = some { c with recv := .slot, sent := true } := by
  unfold connecting
  dsimp only
  generalize hw1 : World.setPending _ i .connect _ = w1
  have same : w1.tcpPcbs p = some c := by
    rw [← hw1]
    exact hc
  simp [tcpSent, tcpRecv, World.onFull, same, hl, World.setPcb]

theorem abs_connecting {c : TcpPcb} (hc : w.tcpPcbs p = some c) (hl : c.listen = false) (t : Tok) :
    abs t (connecting w m i p) = ((abs t w).slotSet i
      { (w.sockets i).view with
        st := .connecting,
        pending := Function.update (w.sockets i).pending .connect
          (if (w.sockets i).isNonblocking then none else some m) }).pcbSet p
            (some { c.view with recv := .slot, sent := true }) := by
  unfold connecting
  dsimp only
  generalize hx : (if (w.sockets i).isNonblocking = true then none else some m) = x
  generalize hw1 : World.setPending _ i .connect x = w1
  have abs1 : abs t w1 = (abs t w).slotSet i
      { (w.sockets i).view with st := .connecting,
                                pending := Function.update (w.sockets i).pending .connect x } := by
    rw [← hw1, abs_setPending, abs_modSlot, slotSet_slotSet]
    simp [SlotView.setPend, TnSocketSlot.view]
  have pcb1 : w1.tcpPcbs p = some c := by
    rw [← hw1]
    exact hc
  have registered : tcpSent (tcpRecv w1 p .slot) p true =
      (w1.setPcb p (some { c with recv := .slot })).setPcb p
        (some { c with recv := .slot, sent := true }) := by
    simp [tcpSent, tcpRecv, World.onFull, pcb1, hl, World.setPcb]
  rw [registered, abs_setPcb, abs_setPcb, pcbSet_pcbSet, abs1]
  rfl

theorem permits_connecting (hP : Permits P w) : Permits P (connecting w m i p) := by
  have only : Only {i} w (connecting w m i p) :=
    (((Only.modSlot (Set.mem_singleton i) _).trans (.modSlot (Set.mem_singleton i) _)).trans
      (.onFull _ _)).trans (.onFull _ _)
  refine hP.same (fun k y hy => ?_) (fun x => (only.rest.msgs x).2.1) only.rest.openBases
  rw [sockets_connecting] at hy
  by_cases hk : k = i
  · subst hk
    simpa using hy
  · simpa [hk] using hy

/-- The SYN is out, and a request that may wait has been parked. -/
theorem connecting_began (hn : t.sending = none) (ht : Lax t)
    (hs : (abs (t.pickUp m) w).Sound) (hu : (w.sockets i).inUse = true)
    (hp : (w.sockets i).tcpPcb = some p) (hst : (w.sockets i).tcpState = .closed) {c : TcpPcb}
    (hc : w.tcpPcbs p = some c) (hl : c.listen = false)
    (ha : abs (if (w.sockets i).isNonblocking then t.pickUp m else t) w' =
      (abs (if (w.sockets i).isNonblocking then t.pickUp m else t) (connecting w m i p)).pcbSet p
        (some { c.view with state := .synSent, recv := .slot, sent := true, connected := true })) :
    Acts P (abs (t.pickUp m) w)
      (abs (if (w.sockets i).isNonblocking then t.pickUp m else t) w') := by
  have hv : (abs (t.pickUp m) w).pcb p = some c.view := abs_pcb_some.mpr ⟨c, hc, rfl⟩
  have hj : (abs (t.pickUp m) w).tok.joined ≠ some i := by
    show t.joined ≠ some i
    rw [ht.joined]
    simp
  -- no request waits for a handshake that has not begun
  have idle : (w.sockets i).pending .connect = none :=
    no_connect (t := t.pickUp m) hs ht.joined hp (by rw [hst]; decide)
  have began : Acts P (abs (t.pickUp m) w) (((abs (t.pickUp m) w).slotSet i
      { (abs (t.pickUp m) w).slot i with st := .connecting }).pcbSet p (some { c.view with
        state := .synSent, recv := .slot, sent := true, connected := true })) :=
    .single (.tcp (.connect _ i p c.view hu hp hst hv hj))
  rw [ha, abs_connecting hc hl, pcbSet_pcbSet]
  cases hnb : (w.sockets i).isNonblocking with
  | true =>
    rw [if_pos rfl, if_pos rfl, ← idle, Function.update_eq_self]
    exact began
  | false =>
    rw [if_neg (by simp), if_neg (by simp)]
    refine began.trans (Acts.one (.msg (.park _ i .connect m (List.mem_cons_self ..)
      (Tok.notSending hn m) ?_ (by decide) ?_ (Or.inl ?_) (by intro h; cases h))) ?_)
    · have slot : (w.sockets i).view.inUse = true := hu
      simpa using slot
    · have held : (w.sockets i).view.tcp.isSome = true := congrArg Option.isSome hp
      exact ⟨by simp, by simpa using held⟩
    · have slot : (w.sockets i).view.pending .connect = none := idle
      simpa using slot
    · have put : (t.pickUp m).putDown m = t := t.pickUp_putDown m
      simp only [Abs.pcbSet_tok, Abs.slotSet_tok, abs_tok, put]
      simp [Abs.slotSet, Abs.pcbSet, Abs.setTok, SlotView.setPend, abs, TnSocketSlot.view]

/-- A `tcp_connect` that lwIP refuses leaves everything as it was but for the callbacks. -/
theorem connecting_back (hs : (abs (t.pickUp m) w).Sound) (ht : Lax t)
    (hu : (w.sockets i).inUse = true) (hp : (w.sockets i).tcpPcb = some p)
    (hst : (w.sockets i).tcpState = .closed) {c : TcpPcb} (hc : w.tcpPcbs p = some c)
    (hl : c.listen = false) :
    Acts P (abs (t.pickUp m) w) (abs (t.pickUp m)
      (((connecting w m i p).asked.setPending i .connect none).modSlot i fun s =>
        { s with tcpState := .closed })) := by
  have hv : (abs (t.pickUp m) w).pcb p = some c.view := abs_pcb_some.mpr ⟨c, hc, rfl⟩
  have idle : (w.sockets i).pending .connect = none :=
    no_connect (t := t.pickUp m) hs ht.joined hp (by rw [hst]; decide)
  have quiet : (w.sockets i).tcpState ≠ .listening := by
    rw [hst]
    decide
  refine Acts.one (.tcp (.regs (abs (t.pickUp m) w) i p c.view hu hp quiet hv)) ?_
  have slot : (({ ((connecting w m i p).asked.setPending i .connect none).sockets i with
      tcpState := .closed } : TnSocketSlot)).view = (w.sockets i).view := by
    rw [World.setPending, sockets_modSlot,
      show (connecting w m i p).asked.sockets = (connecting w m i p).sockets from rfl,
      sockets_connecting]
    simp [TnSocketSlot.view, hst, ← idle]
  rw [abs_modSlot, slot, abs_setPending, abs_asked, abs_connecting hc hl, slotSet_slotSet,
    pcbSet_slotSet, slotSet_slotSet]
  exact congrArg (fun a => Abs.pcbSet a p _) (slotSet_same _ i)

/-- What is left of a stream `connect` when lwIP accepts it. -/
theorem connectStream_ok {c : TcpPcb} (hc : w.tcpPcbs p = some c) (hl : c.listen = false)
    (hclosed : c.state = .closed) (a : SockIn) (he : (connecting w m i p).ask.err = .ok) :
    connectStream w m i p a =
      (let w := tnDrainLoopback (tcpOutput ((connecting w m i p).asked.setPcb p
        (some { c with state := .synSent, recv := .slot, sent := true, connected := true,
                       remoteIp := a.addr, remotePort := a.port })) p)
       if (w.sockets i).isNonblocking then fail w m .einprogress else (w, .defer)) := by
  unfold connectStream
  dsimp only
  rw [← connecting]
  unfold tcpConnect
  rw [pcb_connecting hc hl]
  dsimp only
  rw [if_neg (by simp [hl]), if_neg (by simp [hclosed]), if_pos he]

/-- What is left of it when lwIP refuses. -/
theorem connectStream_refused {c : TcpPcb} (hc : w.tcpPcbs p = some c) (hl : c.listen = false)
    (hclosed : c.state = .closed) (a : SockIn) (he : (connecting w m i p).ask.err ≠ .ok) :
    connectStream w m i p a = fail (((connecting w m i p).asked.setPending i .connect none).modSlot i
      fun s => { s with tcpState := .closed }) m (connectErrno (connecting w m i p).ask.err) := by
  unfold connectStream
  dsimp only
  rw [← connecting]
  unfold tcpConnect
  rw [pcb_connecting hc hl]
  dsimp only
  rw [if_neg (by simp [hl]), if_neg (by simp [hclosed]), if_neg he]
  split
  · rename_i heq
    exact absurd (congrArg Prod.snd heq) he
  · rename_i heq
    obtain ⟨rfl, rfl⟩ := Prod.mk.inj heq
    rfl

/-- The SYN goes out and the request waits, or the slot is as it was. -/
theorem connectStream_carried (hP : Permits P w) (hn : t.sending = none) (ht : Lax t)
    (hu : (w.sockets i).inUse = true) (hp : (w.sockets i).tcpPcb = some p)
    (hst : (w.sockets i).tcpState = .closed) (a : SockIn) :
    Carried P t w m (connectStream w m i p a) := by
  refine .of_sound fun hs => ?_
  obtain ⟨c, hc, hl, hclosed⟩ := closed_of_slot hs hp hst
  by_cases he : (connecting w m i p).ask.err = .ok
  · rw [connectStream_ok hc hl hclosed a he]
    dsimp only
    generalize hw4 : (connecting w m i p).asked.setPcb p _ = w4
    have abs4 : ∀ t, abs t w4 = (abs t (connecting w m i p)).pcbSet p
        (some { c.view with state := .synSent, recv := .slot, sent := true, connected := true }) := by
      intro t
      rw [← hw4, abs_setPcb, abs_asked]
      rfl
    have began := connecting_began (P := P) hn ht hs hu hp hst hc hl
      (abs4 (if (w.sockets i).isNonblocking then t.pickUp m else t))
    have slot4 : (w4.sockets i).inUse = true ∧
        (w4.sockets i).isNonblocking = (w.sockets i).isNonblocking := by
      rw [← hw4]
      show ((connecting w m i p).sockets i).inUse = true ∧
        ((connecting w m i p).sockets i).isNonblocking = _
      rw [sockets_connecting]
      simpa using hu
    have full : ∀ t, (abs t w4).Full p := fun t => by
      rw [abs4]
      exact ⟨_, Function.update_self .., hl⟩
    have rest4 : Permits P w4 := by
      refine (permits_connecting (i := i) (m := m) (p := p) hP).same (fun k y hy => ?_)
        (fun _ => by rw [← hw4]; rfl) (by rw [← hw4]; rfl)
      rw [← hw4] at hy
      exact hy
    have output : Only ∅ w4 (tcpOutput w4 p) := .readFull _
    -- lwIP may work through its loopback queue at once
    have drained : ∀ {t}, Lax t → Acts P (abs t w4) (abs t (tnDrainLoopback (tcpOutput w4 p))) :=
      fun h => (Acts.none (abs_tcpOutput (full _))).trans
        (tnDrainLoopback_acts (rest4.calm output.calm) h)
    have mode : ((tnDrainLoopback (tcpOutput w4 p)).sockets i).isNonblocking
        = (w.sockets i).isNonblocking := by
      rw [((output.calm.trans .tnDrainLoopback).slots i slot4.1).nonblock, slot4.2]
    rw [mode]
    cases hnb : (w.sockets i).isNonblocking with
    | true =>
      rw [hnb, if_pos rfl] at began
      exact .fail (began.trans (drained (ht.pickUp m))) _
    | false =>
      rw [hnb, if_neg (by simp)] at began
      exact .defer (began.trans (drained ht))
  · rw [connectStream_refused hc hl hclosed a he]
    exact .fail (connecting_back hs ht hu hp hst hc hl) _

theorem connectDgram_carried (a : SockIn) : Carried P t w m (connectDgram w m i a) := by
  unfold connectDgram
  dsimp only
  split
  · split
    · exact .same (fun t => abs_onUdp t w _ _ (by intro c; rfl)) _ _
    · exact .refuse _
  · split
    · split
      · exact .same (fun t => abs_onRaw t w _ _ (by intro c; rfl)) _ _
      · exact .refuse _
    · exact .refuse _

/-- A `connect` that is not refused starts from state `CLOSED`. -/
theorem connectRefusal_ok {s : TnSocketSlot} {family : Nat} (h : connectRefusal s family = .ok) :
    s.tcpState = .closed := by
  unfold connectRefusal at h
  split at h
  · cases h
  · cases h
  · cases h
  · cases h
  · split at h
    · rename_i hne
      exact absurd h hne
    · cases h
  · assumption

theorem tnIpcCmdConnect_carried (hP : Permits P w) (hn : t.sending = none) (ht : Lax t)
    {slot : Option SlotIdx} (hu : ∀ i, slot = some i → (w.sockets i).inUse = true) :
    Carried P t w m (tnIpcCmdConnect w m slot) := by
  unfold tnIpcCmdConnect
  dsimp only
  split
  · rename_i i sin _
    split
    · exact .refuse _
    · split
      · generalize ha : tnSockinLoadBytes sin = a
        -- in state `ERROR` the stored error is reported once
        have read : Acts P (abs (t.pickUp m) w) (abs (t.pickUp m)
            (if (w.sockets i).tcpState = .error then
              w.modSlot i fun s => { s with lastError := .ok } else w)) := by
          split
          · exact Acts.one (.rx (.clearErr (abs (t.pickUp m) w) i)) (abs_modSlot ..)
          · exact .refl
        split
        · rename_i p hp
          split
          · exact .fail read _
          · rename_i hok
            have closed := connectRefusal_ok (not_not.mp hok)
            rw [if_neg (by rw [closed]; decide)]
            exact connectStream_carried hP hn ht (hu i rfl) hp closed a
        · exact .fail read _
      · exact connectDgram_carried _
  · exact .refuse _

/-! ## `SHUTDOWN` -/

/-- The window of every packet goes back to the peer, and the queue is thrown away. -/
theorem drainWithRecved_acts (hl : (w.sockets i).tcpState ≠ .listening)
    (hd : (w.sockets i).shutRd = true) :
    Acts P (abs t w) (abs t (tnRxQueueDrainWithRecved w i)) := by
  unfold tnRxQueueDrainWithRecved
  dsimp only
  have drained : ∀ w' : World, (w'.sockets i).shutRd = true →
      Acts P (abs t w') (abs t (tnRxQueueDrain w' i)) := fun w' h =>
    Acts.one (.rx (.drain (abs t w') i (Or.inl h))) (abs_modSlot ..)
  split
  · rename_i p hp
    have loop : ∀ (l : List TnRxPacket) (w' : World), (w'.sockets i).tcpPcb = some p →
        (w'.sockets i).tcpState ≠ .listening → (w'.sockets i).shutRd = true →
        Acts P (abs t w') (abs t (l.foldl
          (fun w pkt => tcpRecvedFor w i p (pkt.p.length - pkt.offset)) w')) ∧
          ((l.foldl (fun w pkt => tcpRecvedFor w i p (pkt.p.length - pkt.offset)) w').sockets
            i).shutRd = true := by
      intro l
      induction l with
      | nil => exact fun w' _ _ h => ⟨.refl, h⟩
      | cons pkt l ih =>
        intro w' hp' hl' hd'
        have same : (tcpRecved w' p).sockets = w'.sockets :=
          (Only.readFull (S := ∅) (w := w') .recved).sockets
        have slot : (tcpRecvedFor w' i p (pkt.p.length - pkt.offset)).sockets i =
            { w'.sockets i with hist := { (w'.sockets i).hist with
                recved := (w'.sockets i).hist.recved + (pkt.p.length - pkt.offset) } } := by
          rw [tcpRecvedFor, sockets_modSlot, same]
        have one : Acts P (abs t w')
            (abs t (tcpRecvedFor w' i p (pkt.p.length - pkt.offset))) := by
          refine Acts.of_sound fun hs => ?_
          refine Acts.one (.rx (.window (abs t w') i (pkt.p.length - pkt.offset) hd')) ?_
          rw [tcpRecvedFor, abs_modSlot, abs_tcpRecved (full_of_slot hs hp' hl'), same]
          rfl
        obtain ⟨acts, shut⟩ := ih (tcpRecvedFor w' i p (pkt.p.length - pkt.offset))
          (by rw [slot]; exact hp') (by rw [slot]; exact hl') (by rw [slot]; exact hd')
        exact ⟨one.trans acts, shut⟩
    obtain ⟨acts, shut⟩ := loop (w.sockets i).rx w hp hl hd
    exact acts.trans (drained _ shut)
  · exact drained w hd

/-- A request of kind `k` on slot `i` need not be looked at: it is due already, or there is none. -/
def Seen (t : Tok) (w : World) (i : SlotIdx) (k : Pend) : Prop :=
  (i, k) ∈ t.serve ∨ (w.sockets i).pending k = none

theorem Seen.acts {k : Pend} (h : Seen t w i k) : Acts P (abs (t.due i k) w) (abs t w) := by
  rcases h with h | h
  · unfold Tok.due
    rw [Set.insert_eq_of_mem h]
  · exact acts_served (Or.inl h)

theorem Seen.same {k : Pend} (h : Seen t w i k)
    (hp : (w'.sockets i).pending k = (w.sockets i).pending k) : Seen t w' i k :=
  h.imp_right hp.trans

/-- A slot is cut off when nobody waits on it. -/
theorem Lax.cutOff (ht : Lax t) (hr : Seen t w i .recv) (hc : Seen t w i .connect) :
    Acts P (abs (t.cutOff i) w) (abs t w) := by
  unfold Tok.cutOff
  rw [ht.oweAll]
  have connect : Seen (t.due i .recv) w i .connect := hc.imp_left fun h => Set.mem_insert_of_mem _ h
  exact connect.acts.trans hr.acts

/-- The slot after its queue has been thrown away. -/
theorem slot_drainWithRecved : ∃ n, (tnRxQueueDrainWithRecved w i).sockets i =
    { w.sockets i with rx := [], rxCount := 0,
                       hist := { (w.sockets i).hist with recved := n } } := by
  have loop : ∀ (p : PcbId) (l : List TnRxPacket) (w : World), ∃ n, (l.foldl
      (fun w pkt => tcpRecvedFor w i p (pkt.p.length - pkt.offset)) w).sockets i
      = { w.sockets i with hist := { (w.sockets i).hist with recved := n } } := by
    intro p l
    induction l with
    | nil => exact fun w => ⟨_, rfl⟩
    | cons pkt l ih =>
      intro w
      obtain ⟨n, hn⟩ := ih (tcpRecvedFor w i p (pkt.p.length - pkt.offset))
      refine ⟨n, hn.trans ?_⟩
      have same : (tcpRecved w p).sockets = w.sockets := (Only.readFull (S := ∅) .recved).sockets
      unfold tcpRecvedFor
      rw [sockets_modSlot, same]
  unfold tnRxQueueDrainWithRecved
  dsimp only
  rw [tnRxQueueDrain, sockets_modSlot]
  split
  · obtain ⟨n, hn⟩ := loop _ (w.sockets i).rx w
    exact ⟨n, by rw [hn]⟩
  · exact ⟨_, rfl⟩

/-- Whatever `SHUT_RDWR` leaves of the pcb belongs to lwIP. -/
theorem shutdownBoth_acts (ht : Lax t) (hn : t.sending = none) (hu : (w.sockets i).inUse = true)
    (hp : (w.sockets i).tcpPcb = some p) (hl : (w.sockets i).tcpState ≠ .listening)
    (hd : (w.sockets i).shutRd = true) (hr : Seen t w i .recv) (hc : Seen t w i .connect) :
    Acts P (abs t w) (abs t (shutdownBoth w i p)) := by
  have drained := drainWithRecved_acts (P := P) (t := t) hl hd
  obtain ⟨n, slot⟩ := slot_drainWithRecved (w := w) (i := i)
  unfold shutdownBoth
  dsimp only
  generalize tnRxQueueDrainWithRecved w i = w1 at drained slot
  refine drained.trans (Acts.of_sound fun hs => ?_)
  have hp1 : (w1.sockets i).tcpPcb = some p := by rw [slot]; exact hp
  obtain ⟨c, hv, -, linked⟩ := (hs.disc.slots i).pcb p hp1
  have full : c.listen = false := linked.full (by rw [abs_slot, slot]; exact hl)
  have detached := abs_tcpDetach hv full
  have sockets2 : (tcpDetach w1 p).sockets = w1.sockets := (Only.tcpDetach (S := ∅) p).sockets
  generalize tcpDetach w1 p = w2 at detached sockets2
  generalize hw3 : (w2.modSlot i fun s => { s with tcpPcb := none, tcpState := .closed }) = w3
  have gone : abs t w3 = ((abs t w1).slotSet i
      { (abs t w1).slot i with tcp := none, st := .closed }).pcbSet p (some c.orphaned) := by
    rw [← hw3, abs_modSlot, detached, sockets2]
    rfl
  -- the act, for whatever is left of the pcb
  have act : ∀ (w' : World) (o : Option PcbView), (∀ c, o = some c → c.Orphan) →
      abs t w' = ((abs t w1).slotSet i
        { (abs t w1).slot i with tcp := none, st := .closed }).pcbSet p o →
      Acts P (abs t w1) (abs (t.cutOff i) w') := fun w' o ho h =>
    Acts.one (.tcp (.release (abs t w1) i p o .closed ((abs t w1).slot i).shutWr
      ((abs t w1).slot i).err (by rw [abs_slot, slot]; exact hu) hp1 ho (fun _ => Or.inl hn)
      (fun h => absurd h (by rw [abs_slot, slot]; exact hl)) (Or.inl rfl))) (abs_with h _)
  have cut : Acts P (abs t w1) (abs (t.cutOff i) (tcpCloseOrAbort w3 p)) := by
    rcases abs_tcpCloseOrAbort (pcb_of_eq gone) full rfl with h | ⟨st, hsy, h⟩
    · exact act _ none (by simp) (by rw [h, gone, pcbSet_pcbSet])
    · refine act _ _ ?_ (by rw [h, gone]; exact pcbSet_pcbSet ..)
      intro c' hc'
      rw [Option.some.injEq] at hc'
      rw [← hc']
      exact PcbView.orphaned_orphan full hsy
  have slot4 : (tcpCloseOrAbort w3 p).sockets i =
      { w1.sockets i with tcpPcb := none, tcpState := .closed } := by
    rw [(Only.tcpCloseOrAbort (S := ∅) p).sockets, ← hw3, sockets_modSlot, sockets2]
  generalize tcpCloseOrAbort w3 p = w4 at cut slot4
  have none4 : (w4.sockets i).tcpPcb = none := by rw [slot4]
  refine cut.trans ((tnSlotReplySend_noPcb (e := .epipe) i rfl none4).trans ?_)
  obtain ⟨d, v, view⟩ := view_tnSlotReplySend (w := w4) (i := i) .epipe true
  have pending : ∀ k, k ≠ .send →
      ((tnSlotReplySend w4 i .epipe true).sockets i).pending k = (w.sockets i).pending k := by
    intro k hk
    have := congrArg (fun v : SlotView => v.pending k) view
    refine this.trans ?_
    show Function.update (w4.sockets i).pending .send none k = _
    rw [Function.update_of_ne hk, slot4, slot]
  exact ht.cutOff (hr.same (pending _ (by decide))) (hc.same (pending _ (by decide)))

/-- `SHUTDOWN` looks at nobody who waits: a parked read must have been seen to when the reading side
is shut, and a parked connect when both are. -/
theorem tnIpcCmdShutdown_carried (hn : t.sending = none) (ht : Lax t) {slot : Option SlotIdx}
    (hu : ∀ i, slot = some i → (w.sockets i).inUse = true)
    (hr : ∀ i, slot = some i → (w.sockets i).type = sockStream →
      (w.sockets i).tcpState ≠ .listening → (w.msgs m).args 1 = 0 ∨ (w.msgs m).args 1 = 2 →
        Seen t w i .recv)
    (hc : ∀ i, slot = some i → (w.sockets i).type = sockStream →
      (w.sockets i).tcpState ≠ .listening → (w.msgs m).args 1 = 2 → Seen t w i .connect) :
    Carried P t w m (tnIpcCmdShutdown w m slot) := by
  unfold tnIpcCmdShutdown
  split
  · exact .refuse _
  · rename_i i
    dsimp only
    split
    · exact .refuse _
    · rename_i htype
      have stream : (w.sockets i).type = sockStream := by simpa using htype
      split
      · exact .refuse _
      · split
        · exact .refuse _
        · rename_i hl
          generalize hrx : ((w.msgs m).args 1 == 0 || (w.msgs m).args 1 == 2) = rx
          generalize htx : ((w.msgs m).args 1 == 1 || (w.msgs m).args 1 == 2) = tx
          have seen : rx = true → Seen t w i .recv := fun h =>
            hr i rfl stream hl (by simpa [← hrx] using h)
          have both : rx = true → tx = true → Seen t w i .connect := fun h h' =>
            hc i rfl stream hl (by
              subst h h'
              simp at hrx htx
              omega)
          generalize hw1 : (w.modSlot i fun s =>
            { s with shutRd := s.shutRd || rx, shutWr := s.shutWr || tx }) = w1
          have slot1 : w1.sockets i = { w.sockets i with
              shutRd := (w.sockets i).shutRd || rx, shutWr := (w.sockets i).shutWr || tx } := by
            rw [← hw1, sockets_modSlot]
          -- The flags are set first; a parked read has been seen to.
          have shut : Acts P (abs (t.pickUp m) w) (abs (t.pickUp m) w1) := by
            have act : Acts P (abs (t.pickUp m) w) (abs { t.pickUp m with
                owes := if tx then insert (i, .write) t.owes else t.owes,
                serve := if rx then insert (i, .recv) t.serve else t.serve } w1) :=
              Acts.one (.rx (.shut (abs (t.pickUp m) w) i rx tx))
                (abs_with (t := t.pickUp m) (by rw [← hw1, abs_modSlot]; rfl) _)
            refine act.trans ?_
            have owes : (if tx then insert (i, Ready.write) t.owes else t.owes) = t.owes := by
              rw [ht.owes]
              simp
            rw [owes]
            cases hrx' : rx with
            | false => exact .refl
            | true =>
              have seen1 : Seen (t.pickUp m) w1 i .recv :=
                (seen hrx').same (by rw [slot1])
              exact seen1.acts
          split
          · exact .done shut _ _
          · rename_i p hp
            have hp1 : (w1.sockets i).tcpPcb = some p := by rw [slot1]; exact hp
            have hl1 : (w1.sockets i).tcpState ≠ .listening := by rw [slot1]; exact hl
            split
            · exact .done shut _ _
            · split
              -- Both ways: the pcb is closed and a parked connect answered.
              · rename_i hboth
                obtain ⟨h1, h2⟩ := (Bool.and_eq_true _ _).mp hboth
                refine .done (shut.trans (shutdownBoth_acts (t := t.pickUp m) (ht.pickUp m) hn ?_ hp1
                  hl1 ?_ ?_ ?_)) _ _
                · rw [slot1]
                  exact hu i rfl
                · rw [slot1, h1]
                  exact Bool.or_true _
                · exact (seen h1).same (by rw [slot1])
                · exact (both h1 h2).same (by rw [slot1])
              · split
                -- Only reading: the queue is drained.
                · rename_i hnb htx'
                  have h1 : rx = true := by
                    rw [← htx] at htx'
                    rw [← hrx]
                    rename_i hhow _ _ _
                    simp at hhow htx' ⊢
                    omega
                  exact .done (shut.trans (drainWithRecved_acts hl1 (by rw [slot1, h1]; simp))) _ _
                -- Only writing: `tcp_shutdown`, which a slot's pcb in `SYN_RCVD` would refuse.
                · refine .trans shut (.of_sound fun hs => ?_)
                  obtain ⟨v, hv, -, linked⟩ := (hs.disc.slots i).pcb p hp1
                  obtain ⟨c, hc', rfl⟩ := abs_pcb_some.mp hv
                  have full : c.listen = false := linked.full hl1
                  have synced : c.state ≠ .synRcvd := by
                    intro hsr
                    have state : c.view.state = .synRcvd := hsr
                    cases hst : ((abs (t.pickUp m) w1).slot i).st with
                    | listening => exact hl1 hst
                    | error => rw [hst] at linked; exact linked
                    | closed | connecting | established | peerClosed =>
                      rw [hst] at linked
                      have := linked.2.2.2
                      rw [state] at this
                      cases this
                  unfold tcpShutdownTx
                  rw [hc']
                  dsimp only
                  rw [if_neg (by simp [full])]
                  by_cases hst : c.state = .synRcvd ∨ c.state = .established ∨ c.state = .closeWait
                  · rw [if_pos hst]
                    by_cases he : w1.ask.err = .ok
                    · rw [if_pos he]
                      refine .done (Acts.one (.tcp (.state (abs (t.pickUp m) w1) p c.view
                        (if w1.ask.state.synced then w1.ask.state else c.state) hv ?_ ?_)) ?_) _ _
                      · rcases hst with h | h | h
                        · exact absurd h synced
                        · show c.state.synced = true
                          rw [h]
                          rfl
                        · show c.state.synced = true
                          rw [h]
                          rfl
                      · split
                        · assumption
                        · rcases hst with h | h | h
                          · exact absurd h synced
                          · rw [h]
                            rfl
                          · rw [h]
                            rfl
                      · rw [abs_setPcb]
                        rfl
                    · rw [if_neg he]
                      split
                      · rename_i heq
                        exact absurd (congrArg Prod.snd heq) he
                      · rename_i heq
                        obtain rfl := congrArg Prod.fst heq
                        exact .fail (.none (abs_asked ..)) _
                  · rw [if_neg hst]
                    exact .refuse _

end Tolunnet
