import Tolunnet.Refine.Callbacks

/-!
# `Tolunnet.Refine.Events`: everything lwIP can do

The callbacks of queued connections, the accept callback, datagrams and lookups as runs of acts,
and with them `runEv` and the loops over it. `Cb w` is the policy of lwIP's turn: a callback frees
no slot but one it has just allocated, so one that was free, and it puts a descriptor into the table
of a base that is not open only for a parked `accept` of that base. `runEv_acts` says that one event
is a run of acts under this policy; the loops over events are in `Refine.Bursts`.
-/

set_option autoImplicit false

namespace Tolunnet

open World

variable {P : Label → Prop} {t : Tok} {w : World} {i j : SlotIdx} {p : PcbId} {m : MsgId}

/-! ## Queued connections -/

/-- The entry that is found waits in its queue. -/
theorem findEntry_mem {e : EntId} {x : TnAcceptEntry} (h : findEntry w e = some (j, x)) :
    x ∈ (w.sockets j).acceptQ ∧ x.id = e := by
  obtain ⟨j', -, hj⟩ := List.exists_of_findSome?_eq_some h
  obtain ⟨y, hy, he⟩ := Option.map_eq_some_iff.mp hj
  obtain ⟨rfl, rfl⟩ := Prod.mk.inj he
  exact ⟨List.mem_of_find?_eq_some hy, by simpa using List.find?_some hy⟩

/-- An entry that waits is found. -/
theorem findEntry_isSome {e : EntId} {x : TnAcceptEntry} (hx : x ∈ (w.sockets j).acceptQ)
    (he : x.id = e) : (findEntry w e).isSome = true := by
  unfold findEntry
  rw [List.findSome?_isSome_iff]
  refine ⟨j, List.mem_finRange j, ?_⟩
  rw [Option.isSome_map, List.find?_isSome]
  exact ⟨x, hx, by simp [he]⟩

/-- The entry that the callback of a queued connection finds holds the pcb. -/
theorem owner_of_entry (hs : (abs t w).Sound) (hn : t.conn = none) (he : t.ent = none) {c : TcpPcb}
    (hc : w.tcpPcbs p = some c) {e : EntId} (ha : c.arg = .entry e) :
    ∃ j x, findEntry w e = some (j, x) ∧ x ∈ (w.sockets j).acceptQ ∧ x.id = e ∧
      x.newPcb = some p ∧ x.listeningSlot = j := by
  have hc' : (abs t w).pcb p = some c.view := abs_pcb_some.mpr ⟨c, hc, rfl⟩
  have hown := (hs.disc.owned p c.view hc').resolve_left (by rw [abs_tok, hn]; simp)
  unfold Abs.Owned at hown
  rw [show c.view.arg = .entry e from ha] at hown
  rcases hown with ⟨j, x, hx, hid, hp⟩ | ⟨x, hx, -⟩
  · have hx : x ∈ (w.sockets j).acceptQ := hx
    obtain ⟨⟨j', x'⟩, hf⟩ := Option.isSome_iff_exists.mp (findEntry_isSome hx hid)
    obtain ⟨hx', hid'⟩ := findEntry_mem hf
    -- entries are told apart by their addresses
    obtain rfl : j' = j := hs.disc.entries.apart j' j x' hx' x hx (hid'.trans hid.symm)
    obtain rfl : x' = x :=
      List.inj_on_of_nodup_map (hs.disc.entries.nodup j') hx' hx (hid'.trans hid.symm)
    exact ⟨j', x', hf, hx, hid, hp, (hs.disc.entries.queued j' x' hx).1⟩
  · rw [abs_tok, he] at hx
    cases hx

/-- The end of a connection that waits sends nothing. -/
theorem tnTcpQueuedRecvFin_acts (e : EntId) :
    Acts P (abs t w) (abs t (tnTcpQueuedRecvFin w e p)) := by
  unfold tnTcpQueuedRecvFin
  split
  · split
    · exact Acts.one (.tcp (.entFin (abs t w) _ e)) (abs_modSlot ..)
    · exact .refl
  · exact .refl

/-- Nor does its early data. -/
theorem tnTcpQueuedRecvCb_acts (e : EntId) (seg : List UInt8) :
    Acts P (abs t w) (abs t (tnTcpQueuedRecvCb w e p seg).1) := by
  unfold tnTcpQueuedRecvCb
  split
  · exact Acts.none (abs_emit_pbufFree ..)
  · split
    · split
      · exact .refl
      · split
        · exact .refl
        · split
          · split
            · dsimp only
              rw [abs_emit_pbufFree]
              exact Acts.one (.tcp (.entData (abs t w) _ e seg))
                (abs_modSlot t w.asked.asked _ _)
            · exact .refl
          · exact .refl
    · exact Acts.none (abs_emit_pbufFree ..)

/-- lwIP has freed the pcb of a queued connection. -/
theorem queuedErr_acts (hs : (abs t w).Sound) (hn : t.conn = none) (he : t.ent = none)
    {c : TcpPcb} (hc : w.tcpPcbs p = some c) {e : EntId} (ha : c.arg = .entry e) :
    Acts P (abs t w) (abs t (tnTcpQueuedErrCb (w.setPcb p none) e)) := by
  obtain ⟨j, x, hf, hx, rfl, hp, rfl⟩ := owner_of_entry hs hn he hc ha
  unfold tnTcpQueuedErrCb
  rw [show findEntry (w.setPcb p none) x.id = findEntry w x.id from rfl, hf]
  dsimp only
  unfold tnAcceptQueueRemove
  have hany : ((w.setPcb p none).sockets x.listeningSlot).acceptQ.any (·.id == x.id) = true :=
    List.any_eq_true.mpr ⟨x, hx, by simp⟩
  rw [if_pos hany]
  refine Acts.one (.tcp (.entGone (abs t w) x.listeningSlot x p hx hp)) ?_
  rw [abs_modSlot, abs_setPcb]
  rfl

namespace Calm

theorem tnTcpQueuedRecvFin (e : EntId) : Calm w (tnTcpQueuedRecvFin w e p) := by
  unfold Tolunnet.tnTcpQueuedRecvFin
  split
  · split
    · exact (Meek.modEntry _ _).calm
    · exact .refl w
  · exact .refl w

theorem tnTcpQueuedRecvCb (e : EntId) (seg : List UInt8) :
    Calm w (tnTcpQueuedRecvCb w e p seg).1 := by
  have free : ∀ w : World, Only ∅ w (w.emit (.pbufFree seg)) := fun w => .emit _ (by simp)
  unfold Tolunnet.tnTcpQueuedRecvCb
  split
  · exact (free w).calm
  · split
    · split
      · exact .refl w
      · split
        · exact .refl w
        · split
          · split
            · exact ((Meek.of_only (Only.asked.trans .asked)).trans
                ((Meek.modEntry _ _).trans (.of_only (free _)))).calm
            · exact (Only.asked.trans .asked).calm
          · exact Only.asked.calm
    · exact (free w).calm

theorem tnTcpQueuedErrCb (e : EntId) : Calm w (tnTcpQueuedErrCb w e) := by
  unfold Tolunnet.tnTcpQueuedErrCb
  split
  · exact (Meek.tnAcceptQueueRemove e).calm
  · exact .refl w

end Calm

/-! ## Slots and descriptors for an incoming connection -/

/-- The slot that is found is free. -/
theorem freeSlot?_free (h : freeSlot? w = some j) : (w.sockets j).inUse = false := by
  have hj := List.find?_some h
  simpa using hj

/-- The descriptor that is found is free. -/
theorem freeFd?_spec {base : TnSocketBase} {fd : Nat} (h : freeFd? base = some fd) :
    fd < base.dtablesize ∧ base.fdMap fd = none := by
  have hm := List.mem_of_find?_eq_some h
  have hj := List.find?_some h
  exact ⟨List.mem_range.mp hm, by simpa using hj⟩

/-- So is the one that was asked for. -/
theorem pickFd?_spec {base : TnSocketBase} {pref : Int} {fd : Nat}
    (h : pickFd? base pref = some fd) : fd < base.dtablesize ∧ base.fdMap fd = none := by
  unfold pickFd? at h
  split at h
  · rename_i hp
    cases h
    exact ⟨by omega, hp.2.2⟩
  · exact freeFd?_spec h

/-- A slot that owes everything owes no more. -/
theorem Tok.oweAll_mem (h : ∀ r, (j, r) ∈ t.owes) : t.oweAll j = t := by
  unfold Tok.oweAll
  rw [Set.union_eq_self_of_subset_right]
  rintro ⟨j', r⟩ rfl
  exact h r

/-- A free slot is allocated; whatever it is ready for afterwards is owed. -/
theorem tnSlotAlloc_acts (hj : (w.sockets j).inUse = false) (ho : ∀ r, (j, r) ∈ t.owes)
    (base : Option BaseId) (task : TaskId) (domain type protocol : Int) :
    Acts P (abs t w)
      (abs { t with refs := j :: t.refs } (tnSlotAlloc w j base task domain type protocol)) := by
  have h : Acts P (abs t w) (abs { t.oweAll j with refs := j :: t.refs }
      (tnSlotAlloc w j base task domain type protocol)) :=
    Acts.one (.ref (.alloc (abs t w) j type hj)) (abs_with (t := t) (abs_modSlot ..) _)
  rwa [Tok.oweAll_mem ho] at h

/-- The pcb fields a connection takes over are not kept. -/
theorem abs_inheritPcb (h : (abs t w).Full p) (l : TnSockOpts) :
    abs t (inheritPcb w p l) = abs t w := by
  have step : ∀ (w' : World) (b : Prop) [Decidable b] (op : PcbOp) (f : TcpPcb → TcpPcb),
      abs t w' = abs t w → (∀ c, (f c).view = c.view) →
      abs t (if b then w'.onFull p op f else w') = abs t w := by
    intro w' b _ op f hw hf
    split
    · rw [abs_onFull (by rw [hw]; exact h) _ _ hf, hw]
    · exact hw
  unfold inheritPcb
  refine step _ _ _ _ (step _ _ _ _ (step _ _ _ _ (step _ _ _ _ rfl ?_) ?_) ?_) ?_
  · exact fun _ => rfl
  · exact fun _ => rfl
  · exact fun _ => rfl
  · intro c
    split <;> rfl

/-- Options change pcbs only. -/
theorem Only.inheritPcb {S : Set SlotIdx} (l : TnSockOpts) : Only S w (inheritPcb w p l) := by
  have step : ∀ (w' : World) (b : Prop) [Decidable b] (op : PcbOp) (f : TcpPcb → TcpPcb),
      Only S w w' → Only S w (if b then w'.onFull p op f else w') := by
    intro w' b _ op f hw
    split
    · exact hw.trans (.onFull _ _)
    · exact hw
  unfold Tolunnet.inheritPcb
  exact step _ _ _ _ (step _ _ _ _ (step _ _ _ _ (step _ _ _ _ (.refl w))))

/-- The callbacks of an accepted connection. -/
theorem abs_registerSlot {c : PcbView} (hc : (abs t w).pcb p = some c) (hl : c.listen = false) :
    abs t (registerSlot w p j) = (abs t w).pcbSet p (some (c.forSlot j)) := by
  have h1 := abs_tcpArg hc (.slot j)
  have h2 := abs_tcpRecv (pcb_of_eq h1) hl .slot
  have h3 := abs_tcpSent (pcb_of_eq h2) hl true
  have h4 := abs_tcpErr (pcb_of_eq h3) hl .slot
  rw [registerSlot, h4, h3, h2, h1]
  simp [PcbView.forSlot]

/-- The new slot takes over the pcb; its options are not kept. -/
theorem abs_adoptPcb {c : PcbView} (hc : (abs t w).pcb p = some c) (hl : c.listen = false) :
    abs t (adoptPcb w m i j p) = (abs t w).pcbSet p (some (c.forSlot j)) := by
  unfold adoptPcb
  dsimp only
  generalize (w.sockets i).opts = l
  have h1 : abs t ((tcpNagle w p true).modSlot j fun s => { s with opts := inheritOpts s.opts l })
      = abs t w := by
    rw [abs_modSlot_same _ _ _ _ rfl, abs_tcpNagle ⟨c, hc, hl⟩]
  generalize (tcpNagle w p true).modSlot j _ = w1 at h1
  have h2 : abs t (inheritPcb w1 p l) = abs t w := by
    rw [abs_inheritPcb (by rw [h1]; exact ⟨c, hc, hl⟩), h1]
  generalize inheritPcb w1 p l = w2 at h2
  have h3 : abs t (registerSlot w2 p j) = (abs t w).pcbSet p (some (c.forSlot j)) := by
    rw [abs_registerSlot (by rw [h2]; exact hc) hl, h2]
  rw [abs_tnStoreClientSockaddr, abs_readFull ⟨_, pcb_of_eq h3, hl⟩, h3]

/-- A new connection is adopted by its slot. -/
theorem Meek.adoptPcb : Meek j w (adoptPcb w m i j p) := by
  unfold Tolunnet.adoptPcb
  dsimp only
  have h1 : Meek j w ((tcpNagle w p true).modSlot j fun s =>
      { s with opts := inheritOpts s.opts (w.sockets i).opts }) :=
    (of_only (.onFull _ _)).trans (assign _ fun _ => by exact ⟨rfl, rfl, rfl, rfl, rfl, rfl⟩)
  refine h1.trans (of_only ?_)
  have h2 : ∀ w1 : World, Only ∅ w1 (registerSlot w1 p j) := fun w1 =>
    ((((Only.onPcb _).trans (.onFull _ _)).trans (.onFull _ _)).trans (.onFull _ _))
  exact (((Only.inheritPcb _).trans (h2 _)).trans (.readFull _)).trans (.tnStoreClientSockaddr ..)

/-! ## The accept callback -/

/-- What may happen in lwIP's turn. -/
def Cb (w : World) : Label → Prop
  | .clear j => (w.sockets j).inUse = false
  | .stray b => ∃ i m, (w.sockets i).pending .accept = some m ∧
      (w.msgs m).socketBase.getD 0 = b ∧ ¬ registered w b
  | _ => False

/-- Bases that are registered stay so. -/
theorem Calm.registered {w' : World} (h : Calm w w') (b : BaseId) :
    registered w' b ↔ registered w b := by
  unfold Tolunnet.registered
  rw [h.rest.openBases]

/-- What may happen later in the turn was allowed from the start. -/
theorem Calm.cb {w' : World} (h : Calm w w') {l : Label} (hl : Cb w' l) : Cb w l := by
  cases l with
  | clear j => exact h.free hl
  | stray b =>
    obtain ⟨i, m, hm, hb, hr⟩ := hl
    refine ⟨i, m, h.pending hm, ?_, fun hr' => hr ((h.registered b).mpr hr')⟩
    rw [← (h.rest.msgs m).2.1, hb]
  | _ => exact hl

theorem Tok.no_conn (hn : t.conn = none) : ({ t with conn := none } : Tok) = t := by
  rw [← hn]

/-- An incoming connection is refused. -/
theorem abortConn_acts (hn : t.conn = none) :
    Acts P (abs { t with conn := some p } w) (abs t (tcpAbort w p)) := by
  refine Acts.of_sound fun hs => ?_
  obtain ⟨c, hc, hf⟩ := (hs.disc.conn p rfl).fresh
  refine Acts.one (.tcp (.abortConn _ p rfl)) ?_
  rw [abs_tcpAbort (t := t) hc hf.listen hf.err]
  show _ = ((abs t w).pcbSet p none).setTok { t with conn := none }
  rw [Tok.no_conn hn]
  rfl

/-- The reference in hand goes into a free descriptor. -/
theorem install_acts {b : BaseId} {fd : Nat} {l : List SlotIdx} (hr : t.refs = j :: l)
    (hu : (w.sockets j).inUse = true) (hd : fd < (w.bases b).dtablesize)
    (he : (w.bases b).fdMap fd = none) (hb : registered w b ∨ P (.stray b)) :
    Acts P (abs t w) (abs { t with refs := l } (w.setFd b fd (some j))) := by
  refine Acts.one (.ref (.install (abs t w) b fd j ?_ hu hd he hb)) ?_
  · rw [abs_tok, hr]
    exact List.mem_cons_self ..
  · rw [abs_with (abs_setFd t w b fd (some j)), abs_tok, hr, List.erase_cons_head]

/-- A new slot with its descriptor takes an incoming connection. -/
theorem adopt_acts {b : BaseId} {fd : Nat} {l : List SlotIdx} (hn : t.conn = none)
    (hd : fd < (w.bases b).dtablesize) (he : (w.bases b).fdMap fd = none)
    (hb : registered w b ∨ P (.stray b)) (ho : ∀ r, (j, r) ∈ t.owes)
    (hj : (w.sockets j).view = .new sockStream) :
    Acts P (abs { t with conn := some p, refs := j :: l } w) (abs { t with refs := l }
      (adoptPcb ((w.setFd b fd (some j)).modSlot j fun s =>
        { s with tcpState := .established, tcpPcb := some p }) m i j p)) := by
  have hin := install_acts (P := P) (t := { t with conn := some p, refs := j :: l }) rfl
    (congrArg SlotView.inUse hj) hd he hb
  refine hin.trans (Acts.of_sound fun hs => ?_)
  obtain ⟨c, hc, hf⟩ := (hs.disc.conn p rfl).fresh
  have hv : ((abs { t with conn := some p, refs := l } (w.setFd b fd (some j))).slot j)
      = .new sockStream := hj
  refine Acts.one (.tcp (.adopt _ j p c ?_ rfl hc)) ?_
  · rw [hv]
    exact ⟨rfl, rfl, rfl, rfl, rfl, fun _ => rfl, rfl, rfl⟩
  · have hc' : (abs { t with refs := l } ((w.setFd b fd (some j)).modSlot j fun s =>
        { s with tcpState := .established, tcpPcb := some p })).pcb p = some c := hc
    rw [abs_adoptPcb hc' hf.listen, abs_modSlot]
    have ht : ({ (Tok.oweAll { t with conn := some p, refs := l } j) with conn := none } : Tok)
        = { t with refs := l } := by
      rw [Tok.oweAll_mem (t := { t with conn := some p, refs := l }) ho, ← hn]
    show _ = Abs.setTok _ _
    rw [abs_tok, ht]
    rfl

/-- An incoming connection for a parked `accept`. -/
theorem acceptParked_acts {S : Set PcbId} (hP : ∀ l, Cb w l → P l) (hi : Idle t w S)
    (hu : (w.sockets i).inUse = true) (hst : (w.sockets i).tcpState = .listening)
    (hm : (w.sockets i).pending .accept = some m) :
    Acts P (abs { t with conn := some p } w) (abs t (tnTcpAcceptCb w i p).1) := by
  refine Acts.of_sound fun hs => ?_
  -- The message that waits is not the one of a send in hand.
  have hsnd : ∀ s, (t.pickUp m).sending = some s → s.m ≠ m := by
    intro s hse he
    exact hs.once.out s.m (hs.disc.sending s hse).hand (.slot i .accept) (by rw [he]; exact hm)
  have htake : Acts P (abs { t with conn := some p } w)
      (abs { t.pickUp m with conn := some p } (w.setPending i .accept none)) :=
    Acts.one (.msg (.take (abs { t with conn := some p } w) i m hm))
      (abs_with (abs_setPending { t with conn := some p } w i .accept none) _)
  -- Every way out answers it.
  have hend : ∀ w' r e, Acts P (abs (t.pickUp m) w') (abs t (w'.answerMsg m r e)) := by
    intro w' r e
    have h := answerMsg_acts (P := P) (t := t.pickUp m) (w := w') (List.mem_cons_self ..) hsnd r e
    rwa [t.pickUp_putDown] at h
  unfold tnTcpAcceptCb
  dsimp only
  rw [if_neg (by rw [hu, hst]; simp), hm]
  dsimp only
  refine htake.trans ?_
  have hw2 : (w.setPending i .accept none).bases = w.bases := rfl
  have ho2 : (w.setPending i .accept none).openBases = w.openBases := rfl
  have hu2 : ((w.setPending i .accept none).sockets i).inUse = true := by
    rw [World.setPending, sockets_modSlot]
    exact hu
  have hsame : ∀ j, ((w.setPending i .accept none).sockets j).inUse = (w.sockets j).inUse := by
    intro j
    by_cases hj : j = i
    · rw [hj, hu2, hu]
    · rw [World.setPending, World.modSlot]
      simp [hj]
  generalize w.setPending i .accept none = w2 at hw2 ho2 hu2 hsame
  split
  -- No slot is free: the connection is dropped.
  · exact (abortConn_acts (t := t.pickUp m) hi.conn).trans (hend _ _ _)
  · rename_i j hfree
    have hj := freeSlot?_free hfree
    have hjw : (w.sockets j).inUse = false := by rw [← hsame]; exact hj
    have howe : ∀ r, (j, r) ∈ t.owes := fun r => hi.free j r hjw
    have hal : Acts P (abs { t.pickUp m with conn := some p } w2)
        (abs { t.pickUp m with conn := some p, refs := j :: t.refs }
          (tnSlotAlloc w2 j (w.msgs m).socketBase (w.msgs m).clientTask afInet sockStream 0)) :=
      tnSlotAlloc_acts (t := { t.pickUp m with conn := some p }) hj howe _ _ _ _ _
    have hv : (tnSlotAlloc w2 j (w.msgs m).socketBase (w.msgs m).clientTask afInet sockStream 0).sockets
        j = tnInitSocketSlot (w.msgs m).socketBase (w.msgs m).clientTask afInet sockStream 0 :=
      sockets_modSlot ..
    have hb : (tnSlotAlloc w2 j (w.msgs m).socketBase (w.msgs m).clientTask afInet sockStream 0).bases
        = w.bases := hw2
    have hreg : registered (tnSlotAlloc w2 j (w.msgs m).socketBase (w.msgs m).clientTask afInet
        sockStream 0) ((w.msgs m).socketBase.getD 0) ∨ P (.stray ((w.msgs m).socketBase.getD 0)) := by
      by_cases hr : registered w ((w.msgs m).socketBase.getD 0)
      · left
        show ∃ k, w2.openBases k = _
        rw [ho2]
        exact hr
      · exact Or.inr (hP (.stray _) ⟨i, m, hm, rfl, hr⟩)
    generalize tnSlotAlloc w2 j (w.msgs m).socketBase (w.msgs m).clientTask afInet sockStream 0 = w3
      at hal hv hb hreg
    refine hal.trans ?_
    have hdy : j ∉ t.dying := by
      rw [hi.dying]
      exact List.not_mem_nil
    split
    -- The slot is there, a descriptor is not: the slot is given back.
    · have hfr := tnSlotFree_new (P := P) (t := { t.pickUp m with conn := some p, refs := j :: t.refs })
        (w := w3) (List.mem_cons_self ..) hdy (by rw [hv]; rfl) (by rw [hv]; rfl)
        (hP (.clear j) hjw)
      rw [List.erase_cons_head] at hfr
      exact hfr.trans ((abortConn_acts (t := t.pickUp m) hi.conn).trans (hend _ _ _))
    · rename_i fd hfd
      obtain ⟨hlt, hnone⟩ := pickFd?_spec hfd
      -- Both are there: the slot takes the connection.
      have had := adopt_acts (P := P) (t := t.pickUp m) (l := t.refs) (p := p) (m := m) (i := i) hi.conn
        hlt hnone hreg howe (by rw [hv]; rfl)
      refine had.trans ?_
      have h := replyMsg_acts (P := P) (t := t.pickUp m) (List.mem_cons_self ..) hsnd (w :=
        tnRecordSocketEvent ((adoptPcb ((w3.setFd ((w.msgs m).socketBase.getD 0) fd (some j)).modSlot j
          fun s => { s with tcpState := .established, tcpPcb := some p }) m i j p).setReply m fd .ok)
          j fdWrite)
      rw [t.pickUp_putDown, abs_tnRecordSocketEvent, abs_setReply] at h
      exact h

/-- An entry that no queue has. -/
theorem freshEntry_iff (e : EntId) : freshEntry w e = true ↔ (abs t w).FreshEntry e := by
  simp only [freshEntry, List.all_eq_true, List.mem_finRange, forall_const, bne_iff_ne, ne_eq]
  exact Iff.rfl

/-- The callbacks of a queued connection. -/
theorem abs_registerEntry {c : PcbView} (hc : (abs t w).pcb p = some c) (hl : c.listen = false)
    (e : EntId) :
    abs t (tcpErr (tcpRecv (tcpArg w p (.entry e)) p .queued) p .queued)
      = (abs t w).pcbSet p (some (c.forEntry e)) := by
  have h1 := abs_tcpArg hc (.entry e)
  have h2 := abs_tcpRecv (pcb_of_eq h1) hl .queued
  have h3 := abs_tcpErr (pcb_of_eq h2) hl .queued
  rw [h3, h2, h1]
  simp [PcbView.forEntry]

/-- An incoming connection that no `accept` waits for. -/
theorem acceptQueue_acts {S : Set PcbId} (hi : Idle t w S) (hu : (w.sockets i).inUse = true)
    (hst : (w.sockets i).tcpState = .listening) (hm : (w.sockets i).pending .accept = none) :
    Acts P (abs { t with conn := some p } w) (abs t (tnTcpAcceptCb w i p).1) := by
  unfold tnTcpAcceptCb
  dsimp only
  rw [if_neg (by rw [hu, hst]; simp), hm]
  dsimp only
  split
  · exact abortConn_acts hi.conn
  · unfold tnAcceptQueuePush
    rw [if_neg (by simp [hu])]
    by_cases hf : (w.ask.ok && freshEntry w w.ask.id) = true
    · rw [if_pos hf]
      dsimp only
      rw [abs_tnRecordSocketEvent]
      refine Relation.ReflTransGen.trans (Acts.of_sound fun hs => ?_) (tnSignalSocket_pays i .read)
      obtain ⟨c, hc, hfr⟩ := (hs.disc.conn p rfl).fresh
      have hfe : (abs { t with conn := some p } w).FreshEntry w.ask.id :=
        (freshEntry_iff _).mp ((Bool.and_eq_true _ _).mp hf).2
      have hdy : i ∉ t.dying := by
        rw [hi.dying]
        exact List.not_mem_nil
      refine Acts.one (.tcp (.pushEntry _ i p w.ask.id c hu hst hdy rfl hc hfe hi.ent)) ?_
      have hc' : (abs (t.owe i .read) (w.asked.modSlot i fun s =>
          { s with acceptQ := s.acceptQ ++ [{ id := w.ask.id, newPcb := some p, listeningSlot := i }],
                   acceptCount := s.acceptCount + 1 })).pcb p = some c := hc
      rw [abs_registerEntry hc' hfr.listen, abs_modSlot]
      show _ = Abs.setTok _ { t.owe i .read with conn := none }
      rw [Tok.no_conn (t := t.owe i .read) hi.conn]
      rfl
    · rw [if_neg hf]
      exact abortConn_acts (w := w.asked) hi.conn

/-- A listener in use takes the connection or refuses it. -/
theorem tnTcpAcceptCb_answer (hu : (w.sockets i).inUse = true)
    (hst : (w.sockets i).tcpState = .listening) : (tnTcpAcceptCb w i p).2 ≠ .val := by
  unfold tnTcpAcceptCb
  dsimp only
  rw [if_neg (by rw [hu, hst]; simp)]
  split
  · split
    · simp
    · split <;> simp
  · split
    · simp
    · split <;> simp

namespace Calm

/-- A connection is queued. -/
theorem tnAcceptQueuePush : Calm w (tnAcceptQueuePush w i p).1 := by
  unfold Tolunnet.tnAcceptQueuePush
  split
  · exact .refl w
  · split
    · have h : Meek i w.asked (w.asked.modSlot i fun s =>
          { s with acceptQ := s.acceptQ ++ [{ id := w.ask.id, newPcb := some p, listeningSlot := i }],
                   acceptCount := s.acceptCount + 1 }) :=
        .assign _ fun _ => by exact ⟨rfl, rfl, rfl, rfl, rfl, rfl⟩
      exact ((Meek.of_only .asked).trans (h.trans
        (.of_only (((Only.onPcb _).trans (.onFull _ _)).trans (.onFull _ _))))).calm
    · exact Only.asked.calm

/-- A connection is handed to who waits, queued or aborted. -/
theorem tnTcpAcceptCb : Calm w (tnTcpAcceptCb w i p).1 := by
  unfold Tolunnet.tnTcpAcceptCb
  dsimp only
  split
  · exact .refl w
  · split
    · rename_i m hm
      have h1 : Calm w (w.setPending i .accept none) := (Meek.unpark .accept).calm
      refine h1.trans ?_
      generalize w.setPending i .accept none = w1
      split
      · exact ((Only.tcpAbort p).trans (.answerMsg _ _ _)).calm
      · rename_i j hfree
        refine Beside.calm (j := j) ?_ (freeSlot?_free hfree)
        refine (Beside.tnSlotAlloc (w.msgs m).socketBase (w.msgs m).clientTask afInet sockStream
          0).trans ?_
        generalize Tolunnet.tnSlotAlloc w1 j (w.msgs m).socketBase (w.msgs m).clientTask afInet
          sockStream 0 = w2
        split
        · exact Beside.tnSlotFree.trans (.of_only ((Only.tcpAbort p).trans (.answerMsg _ _ _)))
        · rename_i fd _
          have h2 : Beside j w2 ((w2.setFd ((w.msgs m).socketBase.getD 0) fd (some j)).modSlot j fun s =>
              { s with tcpState := .established, tcpPcb := some p }) :=
            (Beside.setFd _ _ _).trans (.modSlot _ fun _ _ => Or.inl rfl)
          exact h2.trans <| .of_meek (((Meek.adoptPcb.trans (.of_only (.setReply _ _ _))).trans
            (.tnRecordSocketEvent _)).trans (.of_only (.replyMsg _)))
    · split
      · exact (Only.tcpAbort p).calm
      · have h := tnAcceptQueuePush (w := w) (i := i) (p := p)
        split
        · rename_i heq
          rw [heq] at h
          exact h.trans ((Meek.tnSignalSocket.trans (.tnRecordSocketEvent _)).calm)
        · rename_i heq
          rw [heq] at h
          exact h.trans (Only.tcpAbort p).calm

end Calm

/-! ## Datagrams and lookups -/

/-- A datagram arrives at a slot that is no stream. -/
theorem queueDgram_acts (ht : (w.sockets i).type ≠ sockStream) (seg : List UInt8) (ip port : Nat) :
    Acts P (abs t w) (abs t (queueDgram w i seg ip port)) := by
  unfold queueDgram
  dsimp only
  split
  · exact .refl
  · split
    · have h := tnRxQueuePushEx_acts (P := P) (t := t) (w := w.asked) (i := i) seg ip port true
        (Or.inl ht)
      split
      · rename_i heq
        rw [heq, if_pos rfl] at h
        exact h.trans (announceRecv_pays _)
      · rename_i heq
        rw [heq, if_neg Bool.false_ne_true] at h
        exact Acts.none h.1
    · exact .refl

/-- A DNS record is emptied. -/
theorem abs_clearDns (t : Tok) (w : World) (k : Fin 8) :
    abs t (clearDns w k) = { abs t w with dns := Function.update (abs t w).dns k none } := by
  unfold abs clearDns
  congr 1
  funext x
  by_cases hx : x = k
  · subst hx
    simp [TnDnsPending.view]
  · simp [hx]

/-- A lookup is answered. -/
theorem tnDnsFoundCb_acts (name : List Char) (addr : Option Nat) :
    Acts P (abs t w) (abs t (tnDnsFoundCb w name addr m)) := by
  unfold tnDnsFoundCb
  split
  · exact .refl
  · rename_i k hk
    have hk := List.find?_some hk
    simp only [Bool.and_eq_true, beq_iff_eq] at hk
    have hd : (abs t w).dns k = some (some m, (w.dnsPending k).base) := by
      show (w.dnsPending k).view = _
      unfold TnDnsPending.view
      rw [if_pos hk.1.1, hk.1.2]
    have act : ∀ (w' : World) (r : Int) (e : Errno),
        abs t w' = (abs t (clearDns w k)).say (.reply (w.callOf m) r e) →
        Acts P (abs t w) (abs t w') := fun w' r e h =>
      Acts.one (.msg (.answerDns (abs t w) k m (w.dnsPending k).base r e hd))
        (h.trans (by rw [abs_clearDns]; rfl))
    dsimp only
    split
    · exact act _ _ _ (abs_replyMsg ..)
    · rename_i b a _
      refine act _ (hostentPtr b) .ok ?_
      rw [abs_answerMsg]
      congr 1
      exact abs_modBase t (clearDns w k) _ _ rfl rfl
    · exact act _ _ _ (abs_answerMsg ..)

theorem Calm.tnDnsFoundCb (name : List Char) (addr : Option Nat) :
    Calm w (tnDnsFoundCb w name addr m) := by
  have cleared : ∀ k, Calm w (clearDns w k) := fun k =>
    ⟨fun _ _ => .refl _, fun _ _ => Or.inl rfl, { Rest.refl w with }⟩
  unfold Tolunnet.tnDnsFoundCb
  split
  · exact ⟨fun _ _ => .refl _, fun _ _ => Or.inl rfl, { Rest.refl w with }⟩
  · rename_i k _
    dsimp only
    split
    · exact (cleared k).trans (Only.replyMsg m).calm
    · exact (cleared k).trans ((Only.modBase _ _ rfl rfl rfl).trans (.answerMsg m _ _)).calm
    · exact (cleared k).trans (Only.answerMsg m _ _).calm

/-! ## lwIP's turn -/

namespace Calm

variable {c : TcpPcb}

/-- A segment is delivered. -/
theorem deliver (seg : List UInt8) : Calm w (deliver w c p seg) := by
  have free : Calm w (w.emit (.pbufFree seg)) := (Only.emit _ (by simp)).calm
  unfold Tolunnet.deliver
  split
  · exact .refl w
  · split
    · exact (Meek.tnTcpRecvCb seg).calm
    · exact free
  · split
    · exact tnTcpQueuedRecvCb _ seg
    · exact free
    · exact (Only.emit _ (by simp)).calm

/-- The end is delivered. -/
theorem deliverFin : Calm w (deliverFin w c p) := by
  unfold Tolunnet.deliverFin
  split
  · exact .refl w
  · split
    · exact Meek.tnTcpRecvFin.calm
    · exact .refl w
  · split
    · exact tnTcpQueuedRecvFin _
    · exact .refl w
    · exact (Only.emit _ (by simp)).calm

/-- The loss is delivered. -/
theorem deliverErr (e : ErrT) : Calm w (deliverErr w c p e) := by
  unfold Tolunnet.deliverErr
  split
  · exact .refl w
  · split
    · exact (Meek.tnTcpErrCb e).calm
    · exact .refl w
  · split
    · exact tnTcpQueuedErrCb _
    · exact .refl w
    · exact (Only.emit _ (by simp)).calm

/-- A new connection is delivered. -/
theorem deliverAccept (ip port : Nat) : Calm w (deliverAccept w c p ip port) := by
  unfold Tolunnet.deliverAccept
  dsimp only
  generalize hw : w.setPcb p _ = w1
  have h1 : Calm w w1 := hw ▸ (Only.setPcb _).calm
  refine h1.trans ?_
  split
  · rename_i i _
    have h := tnTcpAcceptCb (w := w1) (i := i) (p := p)
    split
    · rename_i heq
      rw [heq] at h
      exact h.trans (Only.tcpAbort p).calm
    · rename_i heq
      rw [heq] at h
      exact h
  · exact (Only.tcpAbort p).calm

/-- An action on a live pcb. -/
theorem onLive (f : TcpPcb → World) (hf : ∀ c, Calm w (f c)) : Calm w (onLive w p f) := by
  unfold Tolunnet.onLive
  split
  · split
    · exact .refl w
    · exact hf _
  · exact .refl w

/-- One action of lwIP. -/
theorem runEv (ev : LwipEv) : Calm w (runEv w ev) := by
  cases ev with
  | connected p =>
    refine onLive _ fun c => ?_
    split
    · exact (Only.setPcb _).calm.trans Meek.tnTcpConnectedCb.calm
    · exact .refl w
  | recv p seg =>
    refine onLive _ fun c => ?_
    split
    · exact deliver seg
    · exact .refl w
  | fin p =>
    refine onLive _ fun c => ?_
    split
    · exact deliverFin
    · exact .refl w
  | sent p n q =>
    refine onLive _ fun c => ?_
    split
    · split
      · exact (Only.setPcb _).calm.trans Meek.tnTcpSentCb.calm
      · exact .refl w
    · exact .refl w
  | poll p =>
    refine onLive _ fun c => ?_
    split
    · exact Meek.tnTcpPollCb.calm
    · exact .refl w
  | err p e =>
    refine onLive _ fun c => ?_
    split
    · exact .refl w
    · exact (Only.setPcb _).calm.trans (deliverErr e)
  | accept l p ip port =>
    simp only [Tolunnet.runEv]
    split
    · split
      · exact deliverAccept ip port
      · exact .refl w
    · exact .refl w
  | state p st =>
    refine onLive _ fun c => ?_
    split
    · exact (Only.setPcb _).calm
    · exact .refl w
  | gone p =>
    refine onLive _ fun c => ?_
    split
    · exact (Only.setPcb _).calm
    · exact .refl w
  | udpRecv p seg ip port =>
    simp only [Tolunnet.runEv]
    split
    · split
      · exact (Only.emit _ (by simp)).calm.trans (Meek.queueDgram seg ip port).calm
      · exact .refl w
    · exact .refl w
  | rawRecv p seg ip =>
    simp only [Tolunnet.runEv]
    split
    · split
      · exact (Meek.queueDgram seg ip 0).calm
      · exact .refl w
    · exact .refl w
  | dnsFound name addr m =>
    show Calm w (if m = 0 then w else Tolunnet.tnDnsFoundCb w name addr m)
    split
    · exact .refl w
    · exact tnDnsFoundCb name addr

/-- Any burst of actions. -/
theorem runEvs (evs : List LwipEv) : Calm w (runEvs w evs) :=
  foldl _ _ (fun _ ev _ => runEv ev) w

/-- What lwIP does before a call returns. -/
theorem tnDrainLoopback : Calm w (tnDrainLoopback w) := Only.asked.calm.trans (runEvs _)

end Calm

end Tolunnet
