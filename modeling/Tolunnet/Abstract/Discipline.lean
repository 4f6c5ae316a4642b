import Tolunnet.Abstract.Act

/-!
# `Tolunnet.Abstract.Discipline`: ownership of connections

`Disc` says who owns which pcb. A slot with a pcb is in a state that fits the state of the
pcb, the callback argument of the pcb names the slot, an accept entry and its pcb are tied in
the same way, and a pcb that names nobody has no callbacks left. It also says that free slots
are empty and that no operation has hit a pcb of the wrong kind.

Two lemmas carry the proofs. `Disc.congr` is for acts that leave the connections alone: acts on
messages, sends, references, receive queues and selectors, all in this module. `Disc.update` is
for acts on one slot and the pcbs it holds, which `Tolunnet.Abstract.Connections` works
through.
-/

set_option autoImplicit false

namespace Tolunnet

/-! ## The discipline -/

/-- A slot in state `st` may hold a pcb of view `c`. -/
def Linked (c : PcbView) : TnTcpState → Prop
  | .closed => c.listen = false ∧ c.err = .slot ∧ c.recv ≠ .queued ∧ c.state = .closed
  | .connecting => c.listen = false ∧ c.err = .slot ∧ c.recv ≠ .queued ∧ c.state = .synSent
  | .established | .peerClosed =>
    c.listen = false ∧ c.err = .slot ∧ c.recv ≠ .queued ∧ c.state.synced = true
  | .listening => c.listen = true
  | .error => False

/-- An accept entry may hold a pcb of view `c`. -/
structure Queued (c : PcbView) (e : EntId) : Prop where
  listen : c.listen = false
  arg : c.arg = .entry e
  recv : c.recv = .queued
  err : c.err = .queued
  sent : c.sent = false
  poll : c.poll = false
  state : c.state.synced = true

namespace Abs

/-- The slots and their pcbs. -/
structure SlotDisc (a : Abs) (i : SlotIdx) : Prop where
  free : (a.slot i).inUse = false → (∀ k, (a.slot i).pending k = none) ∧
    (a.slot i).tcp = none ∧ (a.slot i).udp = none ∧ (a.slot i).raw = none ∧
    (a.slot i).q = [] ∧ (a.slot i).rx = []
  pcb : ∀ p, (a.slot i).tcp = some p → ∃ c, a.pcb p = some c ∧ c.arg = .slot i ∧
    Linked c (a.slot i).st
  stream : (a.slot i).tcp.isSome = true → (a.slot i).type = sockStream
  noPcb : (a.slot i).tcp = none → (a.slot i).st = .closed ∨ (a.slot i).st = .peerClosed ∨
    (a.slot i).st = .error ∨ (a.slot i).inUse = false ∨ i ∈ a.tok.dying
  queue : (a.slot i).q ≠ [] → (a.slot i).st = .listening
  rx : (a.slot i).rx ≠ [] → (a.slot i).tcp = none ∨ (a.slot i).st = .established ∨
    (a.slot i).st = .peerClosed
  connect : (a.slot i).pending .connect ≠ none → (a.slot i).st = .connecting ∨
    (a.slot i).tcp = none ∨ a.tok.joined = some i
  send : (a.slot i).pending .send ≠ none → (a.slot i).tcp = none ∨
    (a.slot i).st = .established ∨ (a.slot i).st = .peerClosed
  dgram : (a.slot i).udp.isSome = true ∨ (a.slot i).raw.isSome = true →
    (a.slot i).type ≠ sockStream
  udp : ∀ p, (a.slot i).udp = some p ↔ a.udp p = some i
  raw : ∀ p, (a.slot i).raw = some p ↔ a.raw p = some i

/-- The accept entries and their pcbs. -/
structure EntryDisc (a : Abs) : Prop where
  queued : ∀ i, ∀ x ∈ (a.slot i).q, x.listeningSlot = i ∧
    ∃ p c, x.newPcb = some p ∧ a.pcb p = some c ∧ Queued c x.id
  inHand : ∀ x, a.tok.ent = some x →
    (∃ p c, x.newPcb = some p ∧ a.pcb p = some c ∧ Queued c x.id) ∧ a.FreshEntry x.id
  nodup : ∀ i, ((a.slot i).q.map TnAcceptEntry.id).Nodup
  apart : ∀ i j, ∀ x ∈ (a.slot i).q, ∀ y ∈ (a.slot j).q, x.id = y.id → i = j

/-- The owner of a pcb is the one its argument names. -/
def Owned (a : Abs) (p : PcbId) (c : PcbView) : Prop :=
  match c.arg with
  | .slot i => (a.slot i).tcp = some p
  | .entry e => (∃ i, ∃ x ∈ (a.slot i).q, x.id = e ∧ x.newPcb = some p) ∨
      ∃ x, a.tok.ent = some x ∧ x.id = e ∧ x.newPcb = some p
  | .null => c.Orphan

/-- The incoming connection in hand. -/
structure ConnDisc (a : Abs) (p : PcbId) : Prop where
  fresh : ∃ c, a.pcb p = some c ∧ c.Fresh
  slots : ∀ i, (a.slot i).tcp ≠ some p
  entries : ∀ i, ∀ x ∈ (a.slot i).q, x.newPcb ≠ some p
  inHand : ∀ x, a.tok.ent = some x → x.newPcb ≠ some p

/-- The send in hand. -/
structure SendDisc (a : Abs) (s : Sending) : Prop where
  inUse : (a.slot s.i).inUse = true
  hand : s.m ∈ a.tok.hand
  state : s.writing = true → (a.slot s.i).st = .established ∨ (a.slot s.i).st = .peerClosed ∨
    (a.slot s.i).st = .error
  pending : s.writing = true → (a.slot s.i).pending .send = none
  refs : s.i ∉ a.tok.refs
  dying : s.i ∉ a.tok.dying

/-- Ownership of connections. -/
structure Disc (a : Abs) : Prop where
  slots : ∀ i, a.SlotDisc i
  entries : a.EntryDisc
  owned : ∀ p c, a.pcb p = some c → a.tok.conn = some p ∨ a.Owned p c
  conn : ∀ p, a.tok.conn = some p → a.ConnDisc p
  sending : ∀ s, a.tok.sending = some s → a.SendDisc s
  dying : ∀ i ∈ a.tok.dying, (a.slot i).inUse = true
  faults : ∀ p op, .fault p op ∉ a.log

namespace Disc

variable {a a' : Abs}

/-! ## Two ways to keep it -/

/-- An act that leaves the connections alone keeps the discipline. What it may do to parked
requests and receive queues is asked for slot by slot. -/
theorem congr (h : a.Disc)
    (hs : ∀ i, (a'.slot i).inUse = (a.slot i).inUse ∧ (a'.slot i).type = (a.slot i).type ∧
      (a'.slot i).st = (a.slot i).st ∧ (a'.slot i).tcp = (a.slot i).tcp ∧
      (a'.slot i).udp = (a.slot i).udp ∧ (a'.slot i).raw = (a.slot i).raw ∧
      (a'.slot i).q = (a.slot i).q)
    (hfree : ∀ i, (a.slot i).inUse = false →
      (∀ k, (a'.slot i).pending k = none) ∧ (a'.slot i).rx = [])
    (hrx : ∀ i, (a'.slot i).rx ≠ [] → (a.slot i).tcp = none ∨ (a.slot i).st = .established ∨
      (a.slot i).st = .peerClosed)
    (hconnect : ∀ i, (a'.slot i).pending .connect ≠ none → (a.slot i).st = .connecting ∨
      (a.slot i).tcp = none ∨ a'.tok.joined = some i)
    (hsend : ∀ i, (a'.slot i).pending .send ≠ none → (a.slot i).tcp = none ∨
      (a.slot i).st = .established ∨ (a.slot i).st = .peerClosed)
    (hpcb : a'.pcb = a.pcb) (hudp : a'.udp = a.udp) (hraw : a'.raw = a.raw)
    (hconn : a'.tok.conn = a.tok.conn) (hent : a'.tok.ent = a.tok.ent)
    (hdy : a'.tok.dying = a.tok.dying)
    (hsnd : ∀ s, a'.tok.sending = some s → a'.SendDisc s)
    (hlog : ∀ p op, .fault p op ∈ a'.log → .fault p op ∈ a.log) : a'.Disc := by
  have inUse := fun i => (hs i).1
  have type := fun i => (hs i).2.1
  have st := fun i => (hs i).2.2.1
  have tcp := fun i => (hs i).2.2.2.1
  have udp := fun i => (hs i).2.2.2.2.1
  have raw := fun i => (hs i).2.2.2.2.2.1
  have q := fun i => (hs i).2.2.2.2.2.2
  have fresh : ∀ e, a'.FreshEntry e ↔ a.FreshEntry e := by
    intro e
    simp only [FreshEntry, q]
  have owned : ∀ p c, a.Owned p c → a'.Owned p c := by
    intro p c ho
    unfold Owned at ho ⊢
    split <;> simp_all
  refine
    { slots := ?_, entries := ?_, owned := ?_, conn := ?_, sending := hsnd, dying := ?_,
      faults := fun p op hf => h.faults p op (hlog p op hf) }
  -- Slot by slot: the fields that a clause reads are unchanged.
  · intro i
    have hi := h.slots i
    exact
      { free := by
          intro hf
          rw [inUse] at hf
          obtain ⟨-, h2, h3, h4, h5, -⟩ := hi.free hf
          exact ⟨(hfree i hf).1, by rw [tcp, h2], by rw [udp, h3], by rw [raw, h4],
            by rw [q, h5], (hfree i hf).2⟩
        pcb := by
          intro p hp
          rw [tcp] at hp
          rw [hpcb, st]
          exact hi.pcb p hp
        stream := by rw [tcp, type]; exact hi.stream
        noPcb := by rw [tcp, st, inUse, hdy]; exact hi.noPcb
        queue := by rw [q, st]; exact hi.queue
        rx := by rw [tcp, st]; exact hrx i
        connect := by rw [tcp, st]; exact hconnect i
        send := by rw [tcp, st]; exact hsend i
        dgram := by rw [udp, raw, type]; exact hi.dgram
        udp := by rw [udp, hudp]; exact hi.udp
        raw := by rw [raw, hraw]; exact hi.raw }
  · exact
      { queued := by
          intro i x hx
          rw [q] at hx
          rw [hpcb]
          exact h.entries.queued i x hx
        inHand := by
          intro x hx
          rw [hent] at hx
          rw [hpcb, fresh]
          exact h.entries.inHand x hx
        nodup := by intro i; rw [q]; exact h.entries.nodup i
        apart := by intro i j; rw [q, q]; exact h.entries.apart i j }
  -- Every pcb has the owner it had.
  · intro p c hc
    rw [hpcb] at hc
    rw [hconn]
    exact (h.owned p c hc).imp_right (owned p c)
  · intro p hp
    rw [hconn] at hp
    have hcn := h.conn p hp
    exact
      { fresh := by rw [hpcb]; exact hcn.fresh
        slots := by intro i; rw [tcp]; exact hcn.slots i
        entries := by intro i; rw [q]; exact hcn.entries i
        inHand := by rw [hent]; exact hcn.inHand }
  · intro i hi
    rw [hdy] at hi
    rw [inUse]
    exact h.dying i hi

/-- An act on slot `i` and on the pcbs in `S` keeps the discipline when nobody else holds one
of them, and slot, entries and pcbs fit together afterwards. -/
theorem update {i : SlotIdx} (S : PcbId → Prop) (h : a.Disc)
    (hslot : ∀ j, j ≠ i → a'.slot j = a.slot j) (hpcb : ∀ p, ¬ S p → a'.pcb p = a.pcb p)
    (hudp : a'.udp = a.udp) (hraw : a'.raw = a.raw)
    (hi : a'.SlotDisc i) (hent : a'.EntryDisc)
    (hother : ∀ j, j ≠ i → ∀ p, (a.slot j).tcp = some p → ¬ S p)
    (htcp : ∀ p, ¬ S p → (a.slot i).tcp = some p → (a'.slot i).tcp = some p)
    (hq : ∀ x p, (∃ j, x ∈ (a.slot j).q) ∨ a.tok.ent = some x → x.newPcb = some p → ¬ S p →
      (∃ j, ∃ y ∈ (a'.slot j).q, y.id = x.id ∧ y.newPcb = x.newPcb) ∨
        ∃ y, a'.tok.ent = some y ∧ y.id = x.id ∧ y.newPcb = x.newPcb)
    (howned : ∀ p c, S p → a'.pcb p = some c → a'.tok.conn = some p ∨ a'.Owned p c)
    (hconn : ∀ p, ¬ S p → a.tok.conn = some p → a'.tok.conn = some p)
    (hconn' : ∀ p, a'.tok.conn = some p → a'.ConnDisc p)
    (hsnd : ∀ s, a'.tok.sending = some s → a'.SendDisc s)
    (hdy : ∀ j, j ≠ i → (j ∈ a'.tok.dying ↔ j ∈ a.tok.dying))
    (hdyi : i ∈ a'.tok.dying → (a'.slot i).inUse = true)
    (hjoin : ∀ j, j ≠ i → a.tok.joined = some j → a'.tok.joined = some j)
    (hlog : ∀ p op, .fault p op ∈ a'.log → .fault p op ∈ a.log) : a'.Disc := by
  refine
    { slots := ?_, entries := hent, owned := ?_, conn := hconn', sending := hsnd, dying := ?_,
      faults := fun p op hf => h.faults p op (hlog p op hf) }
  -- Slots other than `i` hold none of the pcbs in `S`.
  · intro j
    by_cases hj : j = i
    · exact hj ▸ hi
    · have hs := h.slots j
      have he := hslot j hj
      exact
        { free := by rw [he]; exact hs.free
          pcb := by
            intro p hp
            rw [he] at hp ⊢
            rw [hpcb p (hother j hj p hp)]
            exact hs.pcb p hp
          stream := by rw [he]; exact hs.stream
          noPcb := by rw [he, hdy j hj]; exact hs.noPcb
          queue := by rw [he]; exact hs.queue
          rx := by rw [he]; exact hs.rx
          connect := by
            rw [he]
            intro hc
            exact (hs.connect hc).imp_right (Or.imp_right (hjoin j hj))
          send := by rw [he]; exact hs.send
          dgram := by rw [he]; exact hs.dgram
          udp := by rw [he, hudp]; exact hs.udp
          raw := by rw [he, hraw]; exact hs.raw }
  -- A pcb outside `S` keeps its owner, wherever the owner was.
  · intro p c hc
    by_cases hp : S p
    · exact howned p c hp hc
    · rw [hpcb p hp] at hc
      rcases h.owned p c hc with hcn | ho
      · exact Or.inl (hconn p hp hcn)
      · right
        unfold Owned at ho ⊢
        split <;> rename_i hx <;> rw [hx] at ho
        · rename_i j
          by_cases hj : j = i
          · subst hj
            exact htcp p hp ho
          · rw [hslot j hj]
            exact ho
        · rename_i e
          -- The entry named by a pcb may have moved, but is still there.
          have moved : ∀ x, (∃ j, x ∈ (a.slot j).q) ∨ a.tok.ent = some x → x.id = e →
              x.newPcb = some p →
              (∃ j, ∃ y ∈ (a'.slot j).q, y.id = e ∧ y.newPcb = some p) ∨
                ∃ y, a'.tok.ent = some y ∧ y.id = e ∧ y.newPcb = some p := by
            intro x hx h1 h2
            rcases hq x p hx h2 hp with ⟨k, y, hy, h3, h4⟩ | ⟨y, hy, h3, h4⟩
            · exact Or.inl ⟨k, y, hy, h3.trans h1, h4.trans h2⟩
            · exact Or.inr ⟨y, hy, h3.trans h1, h4.trans h2⟩
          rcases ho with ⟨j, x, hx1, hx2, hx3⟩ | ⟨x, hx1, hx2, hx3⟩
          · exact moved x (Or.inl ⟨j, hx1⟩) hx2 hx3
          · exact moved x (Or.inr hx1) hx2 hx3
        · exact ho
  · intro j hj
    by_cases hji : j = i
    · subst hji
      exact hdyi hj
    · rw [hslot j hji]
      exact h.dying j ((hdy j hji).mp hj)

/-- An act on the requests, the queue or the flags of one slot keeps the discipline. -/
theorem congr_slot (h : a.Disc) {i : SlotIdx} {s : SlotView}
    (hslot : a'.slot = Function.update a.slot i s)
    (hs : s.inUse = (a.slot i).inUse ∧ s.type = (a.slot i).type ∧ s.st = (a.slot i).st ∧
      s.tcp = (a.slot i).tcp ∧ s.udp = (a.slot i).udp ∧ s.raw = (a.slot i).raw ∧
      s.q = (a.slot i).q)
    (hfree : (a.slot i).inUse = false → (∀ k, s.pending k = none) ∧ s.rx = [])
    (hrx : s.rx ≠ [] → (a.slot i).tcp = none ∨ (a.slot i).st = .established ∨
      (a.slot i).st = .peerClosed)
    (hconnect : s.pending .connect ≠ none → (a.slot i).st = .connecting ∨
      (a.slot i).tcp = none ∨ a.tok.joined = some i)
    (hsend : s.pending .send ≠ none → (a.slot i).tcp = none ∨
      (a.slot i).st = .established ∨ (a.slot i).st = .peerClosed)
    (hpcb : a'.pcb = a.pcb) (hudp : a'.udp = a.udp) (hraw : a'.raw = a.raw)
    (ht : a'.tok.conn = a.tok.conn ∧ a'.tok.ent = a.tok.ent ∧ a'.tok.dying = a.tok.dying ∧
      a'.tok.joined = a.tok.joined)
    (hsnd : ∀ s, a'.tok.sending = some s → a'.SendDisc s)
    (hlog : ∀ p op, .fault p op ∈ a'.log → .fault p op ∈ a.log) : a'.Disc := by
  obtain ⟨hconn, hent, hdy, hjoin⟩ := ht
  refine h.congr ?_ ?_ ?_ ?_ ?_ hpcb hudp hraw hconn hent hdy hsnd hlog
  · intro j
    by_cases hj : j = i
    · subst hj
      simpa only [hslot, Function.update_self] using hs
    · simp [hslot, hj]
  · intro j hf
    by_cases hj : j = i
    · subst hj
      simpa only [hslot, Function.update_self] using hfree hf
    · obtain ⟨h1, -, -, -, -, h6⟩ := (h.slots j).free hf
      simpa [hslot, hj] using ⟨h1, h6⟩
  · intro j hr
    by_cases hj : j = i
    · subst hj
      exact hrx (by simpa only [hslot, Function.update_self] using hr)
    · exact (h.slots j).rx (by simpa [hslot, hj] using hr)
  · intro j hr
    rw [hjoin]
    by_cases hj : j = i
    · subst hj
      exact hconnect (by simpa only [hslot, Function.update_self] using hr)
    · exact (h.slots j).connect (by simpa [hslot, hj] using hr)
  · intro j hr
    by_cases hj : j = i
    · subst hj
      exact hsend (by simpa only [hslot, Function.update_self] using hr)
    · exact (h.slots j).send (by simpa [hslot, hj] using hr)

/-- An act that touches neither slots nor pcbs keeps the discipline. -/
theorem congr_rest (h : a.Disc) (hslot : a'.slot = a.slot) (hpcb : a'.pcb = a.pcb)
    (hudp : a'.udp = a.udp) (hraw : a'.raw = a.raw)
    (ht : a'.tok.conn = a.tok.conn ∧ a'.tok.ent = a.tok.ent ∧ a'.tok.dying = a.tok.dying ∧
      a'.tok.joined = a.tok.joined)
    (hsnd : ∀ s, a'.tok.sending = some s → a'.SendDisc s)
    (hlog : ∀ p op, .fault p op ∈ a'.log → .fault p op ∈ a.log) : a'.Disc :=
  h.congr_slot (i := 0) (s := a.slot 0) (by rw [hslot, Function.update_eq_self])
    ⟨rfl, rfl, rfl, rfl, rfl, rfl, rfl⟩
    (fun hf => ⟨((h.slots 0).free hf).1, ((h.slots 0).free hf).2.2.2.2.2⟩)
    (h.slots 0).rx (h.slots 0).connect (h.slots 0).send hpcb hudp hraw ht hsnd hlog

/-- The send in hand is not touched. -/
theorem sendDisc_congr {s : Sending} (h : a.SendDisc s)
    (hs : (a'.slot s.i).inUse = (a.slot s.i).inUse ∧ (a'.slot s.i).st = (a.slot s.i).st ∧
      (a'.slot s.i).pending .send = (a.slot s.i).pending .send)
    (hh : s.m ∈ a'.tok.hand) (hr : ∀ i ∈ a'.tok.refs, i ≠ s.i) (hd : ∀ i ∈ a'.tok.dying, i ≠ s.i) :
    a'.SendDisc s :=
  { inUse := hs.1.trans h.inUse
    hand := hh
    state := by rw [hs.2.1]; exact h.state
    pending := by rw [hs.2.2]; exact h.pending
    refs := fun hm => hr s.i hm rfl
    dying := fun hm => hd s.i hm rfl }

/-- The send in hand is not touched by an act that leaves the slots alone. -/
theorem sending_rest (h : a.Disc) (hslot : a'.slot = a.slot)
    (hsend : a'.tok.sending = a.tok.sending)
    (hhand : ∀ s, a.tok.sending = some s → s.m ∈ a'.tok.hand)
    (hrefs : a'.tok.refs = a.tok.refs) (hdy : a'.tok.dying = a.tok.dying) :
    ∀ s, a'.tok.sending = some s → a'.SendDisc s := by
  intro s hs
  rw [hsend] at hs
  have hd := h.sending s hs
  refine sendDisc_congr hd (by rw [hslot]; exact ⟨rfl, rfl, rfl⟩) (hhand s hs) ?_ ?_
  · intro j hj he
    rw [hrefs] at hj
    exact hd.refs (he ▸ hj)
  · intro j hj he
    rw [hdy] at hj
    exact hd.dying (he ▸ hj)

/-! ## Messages -/

/-- A slot with another request in a field other than the send one, seen from a send. -/
theorem setPend_sending {s : Sending} {i : SlotIdx} {k : Pend} {v : Option MsgId}
    (hk : k ≠ .send) :
    (Function.update a.slot i ((a.slot i).setPend k v) s.i).inUse = (a.slot s.i).inUse ∧
    (Function.update a.slot i ((a.slot i).setPend k v) s.i).st = (a.slot s.i).st ∧
    (Function.update a.slot i ((a.slot i).setPend k v) s.i).pending .send
      = (a.slot s.i).pending .send := by
  by_cases hi : s.i = i
  · rw [hi]
    simp [SlotView.setPend, hk.symm]
  · simp [hi]

/-- Emptying a field keeps the discipline. -/
theorem emptyPend (h : a.Disc) {i : SlotIdx} {k : Pend} {log : List Event} {t : Tok}
    (hk : k ≠ .send)
    (ht : t.conn = a.tok.conn ∧ t.ent = a.tok.ent ∧ t.dying = a.tok.dying ∧
      t.joined = a.tok.joined)
    (hsend : t.sending = a.tok.sending) (hhand : ∀ m ∈ a.tok.hand, m ∈ t.hand)
    (hrefs : t.refs = a.tok.refs) (hlog : ∀ p op, .fault p op ∈ log → .fault p op ∈ a.log) :
    { a.slotSet i ((a.slot i).setPend k none) with log := log, tok := t }.Disc := by
  have hempty : ∀ k', ((a.slot i).setPend k none).pending k' ≠ none →
      (a.slot i).pending k' ≠ none := by
    intro k' hk'
    by_cases he : k' = k
    · subst he
      simp [SlotView.setPend] at hk'
    · simpa [SlotView.setPend, he] using hk'
  refine h.congr_slot (i := i) rfl ⟨rfl, rfl, rfl, rfl, rfl, rfl, rfl⟩ ?_ (h.slots i).rx
    (fun hc => (h.slots i).connect (hempty _ hc)) (fun hc => (h.slots i).send (hempty _ hc))
    rfl rfl rfl ht ?_ hlog
  · intro hf
    refine ⟨fun k' => ?_, ((h.slots i).free hf).2.2.2.2.2⟩
    by_contra hne
    exact hempty k' hne (((h.slots i).free hf).1 k')
  · intro s hs
    have hs : a.tok.sending = some s := by rw [← hsend]; exact hs
    have hd := h.sending s hs
    refine sendDisc_congr hd (setPend_sending hk) (hhand _ hd.hand) ?_ ?_
    · intro j hj he
      exact hd.refs (by rw [← he, ← hrefs]; exact hj)
    · intro j hj he
      exact hd.dying (by rw [← he, ← ht.2.2.1]; exact hj)

/-- The acts on messages keep the discipline. -/
theorem msg {P : Label → Prop} (h : a.Disc) (ha : MsgAct P a a') : a'.Disc := by
  have hand := fun s hs => (h.sending s hs).hand
  have erase : ∀ {m : MsgId}, (∀ s, a.tok.sending = some s → s.m ≠ m) →
      ∀ s, a.tok.sending = some s → s.m ∈ a.tok.hand.erase m := fun hne s hs =>
    (List.mem_erase_of_ne (hne s hs)).mpr (h.sending s hs).hand
  cases ha with
  | receive m x hh hp hs hl =>
    exact h.congr_rest rfl rfl rfl rfl ⟨rfl, rfl, rfl, rfl⟩
      (h.sending_rest rfl rfl (fun s hs => List.mem_cons_of_mem _ (hand s hs)) rfl rfl)
      (fun _ _ hf => hf)
  | edit | dropDns | forgetDns | served =>
    exact h.congr_rest rfl rfl rfl rfl ⟨rfl, rfl, rfl, rfl⟩
      (h.sending_rest rfl rfl hand rfl rfl) (fun _ _ hf => hf)
  | park i k m hm hs hu hk hw he hl =>
    refine h.congr_slot (i := i) rfl ⟨rfl, rfl, rfl, rfl, rfl, rfl, rfl⟩ ?_ (h.slots i).rx ?_ ?_
      rfl rfl rfl ⟨rfl, rfl, rfl, rfl⟩ ?_ (fun _ _ hf => hf)
    · intro hf
      rw [hu] at hf
      cases hf
    · intro hc
      by_cases hkc : k = .connect
      · subst hkc
        exact Or.inl hw.1
      · exact (h.slots i).connect (by simpa [SlotView.setPend, Ne.symm hkc] using hc)
    · intro hc
      exact (h.slots i).send (by simpa [SlotView.setPend, hk.symm] using hc)
    · intro s hsn
      have hd := h.sending s hsn
      exact sendDisc_congr hd (setPend_sending hk) (erase hs s hsn)
        (fun j hj he => hd.refs (he ▸ hj)) (fun j hj he => hd.dying (he ▸ hj))
  | parkDns k m hm hs he =>
    exact h.congr_rest rfl rfl rfl rfl ⟨rfl, rfl, rfl, rfl⟩
      (h.sending_rest rfl rfl (erase hs) rfl rfl) (fun _ _ hf => hf)
  | parkStop m hm hs he =>
    exact h.congr_rest rfl rfl rfl rfl ⟨rfl, rfl, rfl, rfl⟩
      (h.sending_rest rfl rfl (erase hs) rfl rfl) (fun _ _ hf => hf)
  | answer i k m r e hk hp =>
    exact h.emptyPend hk ⟨rfl, rfl, rfl, rfl⟩ rfl (fun _ hm => hm) rfl
      (fun p op hf => by simpa using hf)
  | answerDns k m b r e hp =>
    exact h.congr_rest rfl rfl rfl rfl ⟨rfl, rfl, rfl, rfl⟩
      (h.sending_rest rfl rfl hand rfl rfl)
      (fun p op hf => by simpa using hf)
  | answerStop m r e hp =>
    exact h.congr_rest rfl rfl rfl rfl ⟨rfl, rfl, rfl, rfl⟩
      (h.sending_rest rfl rfl hand rfl rfl)
      (fun p op hf => by simpa using hf)
  | take i m hp =>
    exact h.emptyPend (by decide) ⟨rfl, rfl, rfl, rfl⟩ rfl (fun _ hm => List.mem_cons_of_mem _ hm)
      rfl (fun _ _ hf => hf)
  | reply m r e hm hs =>
    exact h.congr_rest rfl rfl rfl rfl ⟨rfl, rfl, rfl, rfl⟩
      (h.sending_rest rfl rfl (erase hs) rfl rfl) (fun p op hf => by simpa using hf)
  | drop i k m hk hp hl =>
    exact h.emptyPend hk ⟨rfl, rfl, rfl, rfl⟩ rfl (fun _ hm => hm) rfl (fun _ _ hf => hf)

/-! ## Selectors, receive queues and references -/

/-- The acts on the selector table keep the discipline. -/
theorem sel (h : a.Disc) (ha : SelAct a a') : a'.Disc := by
  have hand := fun s hs => (h.sending s hs).hand
  cases ha with
  | table | settle | weaken =>
    exact h.congr_rest rfl rfl rfl rfl ⟨rfl, rfl, rfl, rfl⟩
      (h.sending_rest rfl rfl hand rfl rfl) (fun _ _ hf => hf)
  | signal i hu =>
    exact h.congr_rest rfl rfl rfl rfl ⟨rfl, rfl, rfl, rfl⟩
      (h.sending_rest rfl rfl hand rfl rfl) (fun p op hf => by simpa using hf)

/-- The send in hand is not touched by an act on other fields of one slot. -/
theorem sending_slot (h : a.Disc) {i : SlotIdx} {s : SlotView}
    (hslot : a'.slot = Function.update a.slot i s)
    (hs : s.inUse = (a.slot i).inUse ∧ s.st = (a.slot i).st ∧
      s.pending .send = (a.slot i).pending .send)
    (hsend : a'.tok.sending = a.tok.sending) (hhand : a'.tok.hand = a.tok.hand)
    (hrefs : ∀ j ∈ a'.tok.refs, j ∈ a.tok.refs) (hdy : ∀ j ∈ a'.tok.dying, j ∈ a.tok.dying ∨ j ∈ a.tok.refs) :
    ∀ s, a'.tok.sending = some s → a'.SendDisc s := by
  intro x hx
  rw [hsend] at hx
  have hd := h.sending x hx
  refine sendDisc_congr hd ?_ (by rw [hhand]; exact hd.hand) ?_ ?_
  · by_cases hi : x.i = i
    · rw [hslot, hi, Function.update_self]
      exact hs
    · rw [hslot, Function.update_of_ne hi]
      exact ⟨rfl, rfl, rfl⟩
  · intro j hj he
    exact hd.refs (he ▸ hrefs j hj)
  · intro j hj he
    rcases hdy j hj with hj | hj
    · exact hd.dying (he ▸ hj)
    · exact hd.refs (he ▸ hj)

/-- The acts on receive queues keep the discipline. -/
theorem rxAct {P : Label → Prop} (h : a.Disc) (ha : RxAct P a a') : a'.Disc := by
  have one : ∀ {i : SlotIdx} {s : SlotView}, a'.slot = Function.update a.slot i s →
      (s.inUse = (a.slot i).inUse ∧ s.type = (a.slot i).type ∧ s.st = (a.slot i).st ∧
        s.tcp = (a.slot i).tcp ∧ s.udp = (a.slot i).udp ∧ s.raw = (a.slot i).raw ∧
        s.q = (a.slot i).q) → s.pending = (a.slot i).pending →
      (s.rx ≠ [] → (a.slot i).inUse = true ∧ ((a.slot i).tcp = none ∨
        (a.slot i).st = .established ∨ (a.slot i).st = .peerClosed)) →
      a'.pcb = a.pcb → a'.udp = a.udp → a'.raw = a.raw → a'.log = a.log →
      (a'.tok.hand = a.tok.hand ∧ a'.tok.refs = a.tok.refs ∧ a'.tok.dying = a.tok.dying ∧
        a'.tok.conn = a.tok.conn ∧ a'.tok.ent = a.tok.ent ∧ a'.tok.sending = a.tok.sending ∧
        a'.tok.joined = a.tok.joined) → a'.Disc := by
    intro i s hslot hs hp hrx hpcb hudp hraw hlog ht
    obtain ⟨h1, h2, h3, h4, h5, h6, h7⟩ := ht
    refine h.congr_slot hslot hs ?_ (fun hr => (hrx hr).2) ?_ ?_ hpcb hudp hraw
      ⟨h4, h5, h3, h7⟩ ?_ (fun p op hf => by rw [← hlog]; exact hf)
    · intro hf
      refine ⟨fun k => by rw [hp]; exact ((h.slots i).free hf).1 k, ?_⟩
      by_contra hne
      rw [(hrx hne).1] at hf
      cases hf
    · rw [hp]
      exact (h.slots i).connect
    · rw [hp]
      exact (h.slots i).send
    · refine h.sending_slot hslot ⟨hs.1, hs.2.2.1, by rw [hp]⟩ h6 h1 ?_ ?_
      · rw [h2]
        exact fun _ hj => hj
      · rw [h3]
        exact fun _ hj => Or.inl hj
  have old : ∀ {i}, (a.slot i).rx ≠ [] → (a.slot i).inUse = true ∧ ((a.slot i).tcp = none ∨
      (a.slot i).st = .established ∨ (a.slot i).st = .peerClosed) := by
    intro i hne
    refine ⟨?_, (h.slots i).rx hne⟩
    by_contra hf
    exact hne ((h.slots i).free (by simpa using hf)).2.2.2.2.2
  cases ha with
  | push i pkt hu ho ht =>
    refine one (i := i) rfl ⟨rfl, rfl, rfl, rfl, rfl, rfl, rfl⟩ rfl ?_ rfl rfl rfl rfl
      ⟨rfl, rfl, rfl, rfl, rfl, rfl, rfl⟩
    intro _
    refine ⟨hu, ?_⟩
    rcases ht with ht | ⟨-, ht⟩
    · left
      by_contra hne
      exact ht ((h.slots i).stream (Option.isSome_iff_ne_none.mpr hne))
    · exact Or.inr ht
  | take i pkt rest n hq hn =>
    exact one (i := i) rfl ⟨rfl, rfl, rfl, rfl, rfl, rfl, rfl⟩ rfl
      (fun _ => old (by rw [hq]; simp)) rfl rfl rfl rfl ⟨rfl, rfl, rfl, rfl, rfl, rfl, rfl⟩
  | pop i ht =>
    refine one (i := i) rfl ⟨rfl, rfl, rfl, rfl, rfl, rfl, rfl⟩ rfl ?_ rfl rfl rfl rfl
      ⟨rfl, rfl, rfl, rfl, rfl, rfl, rfl⟩
    intro hne
    refine old fun hnil => hne ?_
    show (a.slot i).rx.tail = []
    rw [hnil]
    rfl
  | drain i hd =>
    exact one (i := i) rfl ⟨rfl, rfl, rfl, rfl, rfl, rfl, rfl⟩ rfl (fun hne => absurd rfl hne)
      rfl rfl rfl rfl ⟨rfl, rfl, rfl, rfl, rfl, rfl, rfl⟩
  | window i | shut i | lost i | clearErr i | nonblock i =>
    exact one (i := i) rfl ⟨rfl, rfl, rfl, rfl, rfl, rfl, rfl⟩ rfl old rfl rfl rfl rfl
      ⟨rfl, rfl, rfl, rfl, rfl, rfl, rfl⟩

/-- Entries that are not touched stay as they are. -/
theorem entries_congr (h : a.Disc) (hq : ∀ i, (a'.slot i).q = (a.slot i).q)
    (hent : a'.tok.ent = a.tok.ent)
    (hpcb : ∀ p c e, a.pcb p = some c → Queued c e → a'.pcb p = some c) : a'.EntryDisc :=
  { queued := by
      intro i x hx
      rw [hq] at hx
      obtain ⟨h1, p, c, h2, h3, h4⟩ := h.entries.queued i x hx
      exact ⟨h1, p, c, h2, hpcb p c _ h3 h4, h4⟩
    inHand := by
      intro x hx
      rw [hent] at hx
      obtain ⟨⟨p, c, h2, h3, h4⟩, h5⟩ := h.entries.inHand x hx
      exact ⟨⟨p, c, h2, hpcb p c _ h3 h4, h4⟩, fun i y hy => h5 i y (by rw [← hq]; exact hy)⟩
    nodup := by intro i; rw [hq]; exact h.entries.nodup i
    apart := by intro i j; rw [hq, hq]; exact h.entries.apart i j }

/-- The connection in hand is not touched. -/
theorem conn_congr (h : a.Disc) (htcp : ∀ i p, (a'.slot i).tcp = some p →
      (∃ j, (a.slot j).tcp = some p))
    (hq : ∀ i, ∀ x ∈ (a'.slot i).q, x.newPcb ≠ none →
      (∃ j, ∃ y ∈ (a.slot j).q, y.newPcb = x.newPcb))
    (hent : ∀ x, a'.tok.ent = some x → a.tok.ent = some x ∨
      ∃ j, ∃ y ∈ (a.slot j).q, y.newPcb = x.newPcb)
    (hconn : a'.tok.conn = a.tok.conn)
    (hpcb : ∀ p c, a.tok.conn = some p → a.pcb p = some c → a'.pcb p = some c) :
    ∀ p, a'.tok.conn = some p → a'.ConnDisc p := by
  intro p hp
  rw [hconn] at hp
  have hc := h.conn p hp
  exact
    { fresh := by
        obtain ⟨c, h1, h2⟩ := hc.fresh
        exact ⟨c, hpcb p c hp h1, h2⟩
      slots := by
        intro i hi
        obtain ⟨j, hj⟩ := htcp i p hi
        exact hc.slots j hj
      entries := by
        intro i x hx he
        obtain ⟨j, y, hy, h1⟩ := hq i x hx (by rw [he]; simp)
        exact hc.entries j y hy (h1.trans he)
      inHand := by
        intro x hx he
        rcases hent x hx with h1 | ⟨j, y, hy, h1⟩
        · exact hc.inHand x h1 he
        · exact hc.entries j y hy (h1.trans he) }

/-- An act that only takes slot `i` in or out of use, or marks it, keeps the discipline when
slot `i` is in order afterwards. -/
theorem mark (h : a.Disc) {i : SlotIdx} {s : SlotView}
    (hslot : a'.slot = Function.update a.slot i s) (htcp : s.tcp = (a.slot i).tcp)
    (hq : s.q = (a.slot i).q) (hpcb : a'.pcb = a.pcb) (hudp : a'.udp = a.udp)
    (hraw : a'.raw = a.raw) (hi : a'.SlotDisc i)
    (ht : a'.tok.conn = a.tok.conn ∧ a'.tok.ent = a.tok.ent ∧ a'.tok.joined = a.tok.joined)
    (hsnd : ∀ s, a'.tok.sending = some s → a'.SendDisc s)
    (hdy : ∀ j, j ≠ i → (j ∈ a'.tok.dying ↔ j ∈ a.tok.dying))
    (hdyi : i ∈ a'.tok.dying → (a'.slot i).inUse = true)
    (hlog : a'.log = a.log) : a'.Disc := by
  have tcp : ∀ j, (a'.slot j).tcp = (a.slot j).tcp := by
    intro j
    by_cases hj : j = i
    · subst hj
      rw [hslot, Function.update_self, htcp]
    · rw [hslot, Function.update_of_ne hj]
  have q : ∀ j, (a'.slot j).q = (a.slot j).q := by
    intro j
    by_cases hj : j = i
    · subst hj
      rw [hslot, Function.update_self, hq]
    · rw [hslot, Function.update_of_ne hj]
  refine h.update (i := i) (fun _ => False) ?_ (fun p _ => by rw [hpcb]) hudp hraw hi ?_
    (fun _ _ _ _ hf => hf) ?_ ?_ (fun _ _ hf => hf.elim) ?_ ?_ hsnd hdy hdyi ?_ ?_
  · intro j hj
    rw [hslot, Function.update_of_ne hj]
  · exact h.entries_congr q ht.2.1 (fun p c _ hc _ => by rw [hpcb]; exact hc)
  · intro p _ hp
    rw [tcp]
    exact hp
  · intro x p hx hp _
    rcases hx with ⟨j, hj⟩ | hx
    · exact Or.inl ⟨j, x, by rw [q]; exact hj, rfl, rfl⟩
    · exact Or.inr ⟨x, by rw [ht.2.1]; exact hx, rfl, rfl⟩
  · intro p _ hp
    rw [ht.1]
    exact hp
  · refine h.conn_congr ?_ ?_ ?_ ht.1 ?_
    · intro j p hp
      exact ⟨j, by rw [← tcp]; exact hp⟩
    · intro j x hx _
      exact ⟨j, x, by rw [← q]; exact hx, rfl⟩
    · intro x hx
      exact Or.inl (by rw [← ht.2.1]; exact hx)
    · intro p c _ hc
      rw [hpcb]
      exact hc
  · intro j _ hj
    rw [ht.2.2]
    exact hj
  · intro p op hf
    rw [← hlog]
    exact hf

/-- A slot whose connection, queue and requests are as before is still in order. -/
theorem slotDisc_congr (h : a.Disc) {i : SlotIdx} {s : SlotView} (hslot : a'.slot i = s)
    (hs : s = { a.slot i with refs := s.refs, parked := s.parked })
    (hpcb : a'.pcb = a.pcb) (hudp : a'.udp = a.udp) (hraw : a'.raw = a.raw)
    (hjoin : a'.tok.joined = a.tok.joined) (hdy : i ∈ a.tok.dying → i ∈ a'.tok.dying) :
    a'.SlotDisc i := by
  have hi := h.slots i
  rw [hs] at hslot
  exact
    { free := by rw [hslot]; exact hi.free
      pcb := by rw [hslot, hpcb]; exact hi.pcb
      stream := by rw [hslot]; exact hi.stream
      noPcb := by
        rw [hslot]
        intro ht
        exact (hi.noPcb ht).imp_right (Or.imp_right (Or.imp_right (Or.imp_right hdy)))
      queue := by rw [hslot]; exact hi.queue
      rx := by rw [hslot]; exact hi.rx
      connect := by rw [hslot, hjoin]; exact hi.connect
      send := by rw [hslot]; exact hi.send
      dgram := by rw [hslot]; exact hi.dgram
      udp := by rw [hslot, hudp]; exact hi.udp
      raw := by rw [hslot, hraw]; exact hi.raw }

/-- The acts on references keep the discipline. -/
theorem ref {P : Label → Prop} (h : a.Disc) (ha : RefAct P a a') : a'.Disc := by
  have hand := fun s hs => (h.sending s hs).hand
  -- a slot with another reference count or parking flag
  have recount : ∀ {i : SlotIdx} {s : SlotView}, a'.slot = Function.update a.slot i s →
      s = { a.slot i with refs := s.refs, parked := s.parked } → a'.pcb = a.pcb →
      a'.udp = a.udp → a'.raw = a.raw → a'.log = a.log →
      (a'.tok.conn = a.tok.conn ∧ a'.tok.ent = a.tok.ent ∧ a'.tok.joined = a.tok.joined ∧
        a'.tok.hand = a.tok.hand ∧ a'.tok.sending = a.tok.sending) →
      (∀ j ∈ a'.tok.refs, j ∈ a.tok.refs) →
      (a'.tok.dying = a.tok.dying ∨
        (a'.tok.dying = i :: a.tok.dying ∧ i ∈ a.tok.refs ∧ (a.slot i).inUse = true)) →
      a'.Disc := by
    intro i s hslot hs hpcb hudp hraw hlog ht hrefs hdy
    obtain ⟨h1, h2, h3, h4, h5⟩ := ht
    have hsi : a'.slot i = s := by rw [hslot, Function.update_self]
    have hmem : i ∈ a.tok.dying → i ∈ a'.tok.dying := by
      rcases hdy with hdy | ⟨hdy, -⟩ <;> rw [hdy]
      · exact id
      · exact List.mem_cons_of_mem _
    refine h.mark hslot (by rw [hs]) (by rw [hs]) hpcb hudp hraw
      (h.slotDisc_congr hsi hs hpcb hudp hraw h3 hmem) ⟨h1, h2, h3⟩ ?_ ?_ ?_ hlog
    · refine h.sending_slot hslot ⟨by rw [hs], by rw [hs], by rw [hs]⟩ h5 h4 hrefs ?_
      intro j hj
      rcases hdy with hdy | ⟨hdy, hr, -⟩ <;> rw [hdy] at hj
      · exact Or.inl hj
      · rcases List.mem_cons.mp hj with hj | hj
        · exact Or.inr (hj ▸ hr)
        · exact Or.inl hj
    · intro j hj
      rcases hdy with hdy | ⟨hdy, -⟩ <;> rw [hdy]
      exact ⟨fun hm => (List.mem_cons.mp hm).resolve_left hj, List.mem_cons_of_mem _⟩
    · intro hm
      rw [hsi, hs]
      rcases hdy with hdy | ⟨-, -, hu⟩
      · exact h.dying i (by rw [← hdy]; exact hm)
      · exact hu
  cases ha with
  | alloc i type hf =>
    obtain ⟨h1, h2, h3, h4, h5, h6⟩ := (h.slots i).free hf
    refine h.mark (i := i) rfl h2.symm h5.symm rfl rfl rfl ?_ ⟨rfl, rfl, rfl⟩ ?_
      (fun _ _ => Iff.rfl) ?_ rfl
    · have hsi : ((a.slotSet i (.new type)).setTok
          { a.tok.oweAll i with refs := i :: a.tok.refs }).slot i = .new type := by simp
      exact
        { free := by rw [hsi]; intro hc; cases hc
          pcb := by rw [hsi]; intro p hp; cases hp
          stream := by rw [hsi]; intro hc; cases hc
          noPcb := by rw [hsi]; intro _; exact Or.inl rfl
          queue := by rw [hsi]; intro hc; exact absurd rfl hc
          rx := by rw [hsi]; intro hc; exact absurd rfl hc
          connect := by rw [hsi]; intro hc; exact absurd rfl hc
          send := by rw [hsi]; intro hc; exact absurd rfl hc
          dgram := by rw [hsi]; rintro (hc | hc) <;> cases hc
          udp := by
            intro p
            rw [hsi]
            refine ⟨fun hc => (by cases hc), fun hc => ?_⟩
            rw [((h.slots i).udp p).mpr hc] at h3
            cases h3
          raw := by
            intro p
            rw [hsi]
            refine ⟨fun hc => (by cases hc), fun hc => ?_⟩
            rw [((h.slots i).raw p).mpr hc] at h4
            cases h4 }
    · intro s hs
      have hd := h.sending s hs
      have hne : i ≠ s.i := by
        rintro rfl
        rw [hd.inUse] at hf
        cases hf
      refine sendDisc_congr hd ?_ hd.hand ?_ (fun j hj he => hd.dying (he ▸ hj))
      · simp [hne.symm]
      · intro j hj he
        rcases List.mem_cons.mp hj with hj | hj
        · exact hne (hj.symm.trans he)
        · exact hd.refs (he ▸ hj)
    · intro hm
      have := h.dying i hm
      rw [hf] at this
      cases this
  | install b n i hi hu hn he hb =>
    refine h.congr_rest rfl rfl rfl rfl ⟨rfl, rfl, rfl, rfl⟩ ?_ (fun _ _ hf => hf)
    intro s hs
    have hd := h.sending s hs
    exact sendDisc_congr hd ⟨rfl, rfl, rfl⟩ hd.hand
      (fun j hj hj' => hd.refs (hj' ▸ List.mem_of_mem_erase hj))
      (fun j hj hj' => hd.dying (hj' ▸ hj))
  | takeFd b n i he hs =>
    refine h.congr_rest rfl rfl rfl rfl ⟨rfl, rfl, rfl, rfl⟩ ?_ (fun _ _ hf => hf)
    intro s hs'
    rw [show (a.tok.sending = some s) from hs'] at hs
    cases hs
  | unref i hi hu hr =>
    exact recount (i := i) rfl rfl rfl rfl rfl rfl ⟨rfl, rfl, rfl, rfl, rfl⟩
      (fun j hj => List.mem_of_mem_erase hj) (Or.inl rfl)
  | lastRef i hi hu hr =>
    exact recount (i := i) rfl rfl rfl rfl rfl rfl ⟨rfl, rfl, rfl, rfl, rfl⟩
      (fun j hj => List.mem_of_mem_erase hj) (Or.inr ⟨rfl, hi, hu⟩)
  | condemn i hi hu hr =>
    exact recount (i := i) (s := a.slot i) (Function.update_eq_self i a.slot).symm rfl rfl rfl rfl rfl
      ⟨rfl, rfl, rfl, rfl, rfl⟩ (fun j hj => List.mem_of_mem_erase hj) (Or.inr ⟨rfl, hi, hu⟩)
  | dup _ _ _ i | parkCopy i | parkMove _ _ i | obtain _ _ i =>
    exact recount (i := i) rfl rfl rfl rfl rfl rfl ⟨rfl, rfl, rfl, rfl, rfl⟩
      (fun _ hj => hj) (Or.inl rfl)
  | dangle | register | unregister | closed =>
    exact h.congr_rest rfl rfl rfl rfl ⟨rfl, rfl, rfl, rfl⟩
      (h.sending_rest rfl rfl hand rfl rfl) (fun _ _ hf => hf)
  | clear i hd hp ht hu hr hq hx hl =>
    have hi := h.slots i
    refine h.mark (i := i) rfl rfl rfl rfl rfl rfl ?_ ⟨rfl, rfl, rfl⟩ ?_ ?_ ?_ rfl
    · exact
        { free := by
            intro _
            simp only [setTok_slot, slotSet_slot, Function.update_self]
            exact ⟨hp, ht, hu, hr, hq, hx⟩
          pcb := by simpa using hi.pcb
          stream := by simpa using hi.stream
          noPcb := by
            intro _
            exact Or.inr (Or.inr (Or.inr (Or.inl (by simp))))
          queue := by simpa using hi.queue
          rx := by simp [hx]
          connect := by simp [hp]
          send := by simp [hp]
          dgram := by simpa using hi.dgram
          udp := by simpa using hi.udp
          raw := by simpa using hi.raw }
    · intro s hs
      have hsd := h.sending s hs
      have hne : i ≠ s.i := fun he => hsd.dying (he ▸ hd)
      refine sendDisc_congr hsd (by simp [hne.symm]) hsd.hand
        (fun j hj he => hsd.refs (he ▸ hj)) ?_
      intro j hj he
      exact hsd.dying (he ▸ (List.mem_filter.mp hj).1)
    · intro j hj
      simp [hj]
    · intro hm
      simp at hm

/-! ## Stream sends -/

/-- A pcb that keeps its kind, its argument and its error callback still fits its slot. -/
theorem linked_tweak {c c' : PcbView} {st : TnTcpState} (hl : Linked c st)
    (hk : c'.listen = c.listen ∧ c'.arg = c.arg ∧ c'.err = c.err)
    (hs : c'.state = c.state ∨ (c.state.synced = true ∧ c'.state.synced = true))
    (hr : c'.recv = c.recv ∨ c'.recv ≠ .queued) : Linked c' st := by
  have hr' : c.recv ≠ .queued → c'.recv ≠ .queued := by
    rcases hr with hr | hr
    · rw [hr]
      exact id
    · exact fun _ => hr
  cases st with
  | error => exact hl
  | listening => exact hk.1.trans hl
  | closed =>
    obtain ⟨h1, h2, h3, h4⟩ := hl
    refine ⟨hk.1.trans h1, hk.2.2.trans h2, hr' h3, ?_⟩
    rcases hs with hs | ⟨hs, -⟩
    · exact hs.trans h4
    · rw [h4] at hs
      cases hs
  | connecting =>
    obtain ⟨h1, h2, h3, h4⟩ := hl
    refine ⟨hk.1.trans h1, hk.2.2.trans h2, hr' h3, ?_⟩
    rcases hs with hs | ⟨hs, -⟩
    · exact hs.trans h4
    · rw [h4] at hs
      cases hs
  | established =>
    obtain ⟨h1, h2, h3, h4⟩ := hl
    refine ⟨hk.1.trans h1, hk.2.2.trans h2, hr' h3, ?_⟩
    rcases hs with hs | ⟨-, hs⟩
    · rw [hs]; exact h4
    · exact hs
  | peerClosed =>
    obtain ⟨h1, h2, h3, h4⟩ := hl
    refine ⟨hk.1.trans h1, hk.2.2.trans h2, hr' h3, ?_⟩
    rcases hs with hs | ⟨-, hs⟩
    · rw [hs]; exact h4
    · exact hs

/-- A pcb that moves on, or a slot's pcb whose callbacks change, keeps the discipline. -/
theorem tweak (h : a.Disc) {p : PcbId} {c c' : PcbView} (hc : a.pcb p = some c)
    (hk : c'.listen = c.listen ∧ c'.arg = c.arg ∧ c'.err = c.err)
    (hs : c'.state = c.state ∨ (c.state.synced = true ∧ c'.state.synced = true))
    (hcb : (c'.recv = c.recv ∧ c'.sent = c.sent ∧ c'.poll = c.poll) ∨
      ((∃ i, (a.slot i).tcp = some p) ∧ (c'.recv = c.recv ∨ c'.recv ≠ .queued))) :
    (a.pcbSet p (some c')).Disc := by
  have pcb : ∀ p', (a.pcbSet p (some c')).pcb p' = if p' = p then some c' else a.pcb p' := by
    intro p'
    simp [Function.update_apply]
  have hsync : c.state.synced = true → c'.state.synced = true := by
    rcases hs with hs | ⟨-, hs⟩
    · rw [hs]
      exact id
    · exact fun _ => hs
  -- callbacks change on the pcb of a slot only
  have same : (∀ i, c.arg ≠ .slot i) ∨ a.tok.conn = some p →
      c'.recv = c.recv ∧ c'.sent = c.sent ∧ c'.poll = c.poll := by
    intro hne
    rcases hcb with hcb | ⟨⟨i, hi⟩, -⟩
    · exact hcb
    · rcases hne with hne | hne
      · obtain ⟨c1, h1, h2, -⟩ := (h.slots i).pcb p hi
        rw [hc, Option.some.injEq] at h1
        exact absurd (h1 ▸ h2) (hne i)
      · exact absurd hi ((h.conn p hne).slots i)
  have queued : ∀ {e}, Queued c e → Queued c' e := by
    intro e hq
    obtain ⟨h1, h2, h3⟩ := same (Or.inl fun i hi => by rw [hq.arg] at hi; cases hi)
    exact ⟨hk.1.trans hq.listen, hk.2.1.trans hq.arg, h1.trans hq.recv, hk.2.2.trans hq.err,
      h2.trans hq.sent, h3.trans hq.poll, hsync hq.state⟩
  refine
    { slots := ?_, entries := ?_, owned := ?_, conn := ?_, sending := ?_, dying := h.dying,
      faults := h.faults }
  · intro i
    have hi := h.slots i
    refine { hi with pcb := ?_ }
    intro p' hp'
    obtain ⟨c1, h1, h2, h3⟩ := hi.pcb p' hp'
    by_cases hpp : p' = p
    · subst hpp
      rw [hc, Option.some.injEq] at h1
      subst h1
      refine ⟨c', by rw [pcb, if_pos rfl], hk.2.1.trans h2, linked_tweak h3 hk hs ?_⟩
      rcases hcb with hcb | hcb
      · exact Or.inl hcb.1
      · exact hcb.2
    · exact ⟨c1, by rw [pcb, if_neg hpp]; exact h1, h2, h3⟩
  · have step : ∀ {p' c1 e}, a.pcb p' = some c1 → Queued c1 e →
        ∃ c2, (a.pcbSet p (some c')).pcb p' = some c2 ∧ Queued c2 e := by
      intro p' c1 e h1 h2
      by_cases hpp : p' = p
      · subst hpp
        rw [hc, Option.some.injEq] at h1
        exact ⟨c', by rw [pcb, if_pos rfl], queued (h1 ▸ h2)⟩
      · exact ⟨c1, by rw [pcb, if_neg hpp]; exact h1, h2⟩
    refine { h.entries with queued := ?_, inHand := ?_ }
    · intro i x hx
      obtain ⟨h1, p', c1, h2, h3, h4⟩ := h.entries.queued i x hx
      obtain ⟨c2, h5, h6⟩ := step h3 h4
      exact ⟨h1, p', c2, h2, h5, h6⟩
    · intro x hx
      obtain ⟨⟨p', c1, h2, h3, h4⟩, h1⟩ := h.entries.inHand x hx
      obtain ⟨c2, h5, h6⟩ := step h3 h4
      exact ⟨⟨p', c2, h2, h5, h6⟩, h1⟩
  · intro p' c1 h1
    by_cases hpp : p' = p
    · subst hpp
      rw [pcb, if_pos rfl, Option.some.injEq] at h1
      subst h1
      refine (h.owned p' c hc).imp_right fun ho => ?_
      unfold Owned at ho ⊢
      rw [hk.2.1]
      split <;> rename_i hx <;> rw [hx] at ho
      · exact ho
      · exact ho
      · have ho : c.Orphan := ho
        obtain ⟨h1, h2, h3⟩ := same (Or.inl fun i hi => by rw [hx] at hi; cases hi)
        exact ⟨hk.1.trans ho.listen, hk.2.1.trans hx, h1.trans ho.recv, hk.2.2.trans ho.err,
          h2.trans ho.sent, h3.trans ho.poll, hsync ho.state⟩
    · rw [pcb, if_neg hpp] at h1
      exact h.owned p' c1 h1
  · intro p' hp'
    have hcn := h.conn p' hp'
    refine { hcn with fresh := ?_ }
    obtain ⟨c1, h1, h2⟩ := hcn.fresh
    by_cases hpp : p' = p
    · subst hpp
      rw [hc, Option.some.injEq] at h1
      subst h1
      obtain ⟨h3, h4, h5⟩ := same (Or.inr hp')
      exact ⟨c', by rw [pcb, if_pos rfl], hk.1.trans h2.listen, h3.trans h2.recv,
        hk.2.2.trans h2.err, h4.trans h2.sent, h5.trans h2.poll, hsync h2.state⟩
    · exact ⟨c1, by rw [pcb, if_neg hpp]; exact h1, h2⟩
  · intro s hs'
    exact { h.sending s hs' with }

/-- The log of a write has no fault in it. -/
theorem writeLog_fault {p p' : PcbId} {c : CallNo} {bs : List (List UInt8)} {e : ErrT}
    {op : PcbOp} : .fault p' op ∉ writeLog p c bs e := by
  unfold writeLog
  split <;> simp

/-- A write keeps the discipline: only the send space of the pcb changes. -/
theorem wrote (h : a.Disc) {p : PcbId} {c c' : PcbView} {pl : List UInt8} {d : Nat}
    {bs : List (List UInt8)} {e : ErrT} (hc : a.pcb p = some c) (hb : Wrote pl d bs e c c') :
    (a.pcbSet p (some c')).Disc := by
  obtain ⟨n, q, -, -, rfl⟩ := hb.space
  exact h.tweak hc ⟨rfl, rfl, rfl⟩ (Or.inl rfl) (Or.inl ⟨rfl, rfl, rfl⟩)

/-- Emptying the send field keeps the discipline. -/
theorem emptySend (h : a.Disc) {i : SlotIdx} {m : MsgId} {log : List Event} {t : Tok}
    (hm : (a.slot i).pending .send = some m)
    (ht : t = { a.tok with owes := t.owes })
    (hlog : ∀ p op, .fault p op ∈ log → .fault p op ∈ a.log) :
    { a.slotSet i { (a.slot i).setPend .send none with sendDone := 0, sendIov := none } with
      log := log, tok := t }.Disc := by
  have hne : ∀ {k}, k ≠ .send → ((a.slot i).setPend .send none).pending k = (a.slot i).pending k := by
    intro k hk
    simp [SlotView.setPend, hk]
  refine h.congr_slot (i := i) rfl ⟨rfl, rfl, rfl, rfl, rfl, rfl, rfl⟩ ?_ (h.slots i).rx ?_ ?_
    rfl rfl rfl (by rw [ht]; exact ⟨rfl, rfl, rfl, rfl⟩) ?_ hlog
  · intro hf
    rw [((h.slots i).free hf).1 .send] at hm
    cases hm
  · intro hc
    refine (h.slots i).connect ?_
    rw [← hne (by decide)]
    exact hc
  · intro hc
    exact absurd (by simp [SlotView.setPend]) hc
  · intro s hs
    have hs : a.tok.sending = some s := by rw [ht] at hs; exact hs
    have hd := h.sending s hs
    have hh : t.hand = a.tok.hand := by rw [ht]
    have hr : t.refs = a.tok.refs := by rw [ht]
    have hdy : t.dying = a.tok.dying := by rw [ht]
    by_cases hi : s.i = i
    · exact
        { inUse := by simpa [hi, SlotView.setPend] using hi ▸ hd.inUse
          hand := by rw [hh]; exact hd.hand
          state := by simpa [hi, SlotView.setPend] using hi ▸ hd.state
          pending := by simp [hi, SlotView.setPend]
          refs := by rw [hr]; exact hd.refs
          dying := by rw [hdy]; exact hd.dying }
    · refine sendDisc_congr hd (by simp [hi]) (by rw [hh]; exact hd.hand) ?_ ?_
      · intro j hj he
        rw [hr] at hj
        exact hd.refs (he ▸ hj)
      · intro j hj he
        rw [hdy] at hj
        exact hd.dying (he ▸ hj)

/-- The acts of the stream send path keep the discipline. -/
theorem sendAct {P : Label → Prop} (h : a.Disc) (ha : SendAct P a a') : a'.Disc := by
  have hand := fun s hs => (h.sending s hs).hand
  have silent : ∀ {log : List Event} {e : Event}, (∀ p op, e ≠ .fault p op) →
      ∀ p op, .fault p op ∈ e :: log → .fault p op ∈ log := fun he p op hf =>
    (List.mem_cons.mp hf).resolve_left fun heq => he p op heq.symm
  cases ha with
  | start s hn hm hu hrf hdy hlen h0 hw hlast hbuf hl =>
    refine h.congr_rest rfl rfl rfl rfl ⟨rfl, rfl, rfl, rfl⟩ ?_ (silent (by simp))
    rintro x hx
    cases hx
    exact ⟨hu, hm, by simp [hw], by simp [hw], hrf, hdy⟩
  | passed s hs hw hst hp =>
    refine h.congr_rest rfl rfl rfl rfl ⟨rfl, rfl, rfl, rfl⟩ ?_ (fun _ _ hf => hf)
    rintro x hx
    cases hx
    have hd := h.sending s hs
    exact ⟨hd.inUse, hd.hand, fun _ => hst.imp_right Or.inl, fun _ => hp, hd.refs, hd.dying⟩
  | write s p c c' bs e hs hw ht hc hb =>
    have h1 := h.wrote hc hb
    refine h1.congr_rest rfl rfl rfl rfl ⟨rfl, rfl, rfl, rfl⟩ ?_ ?_
    · rintro x hx
      cases hx
      have hd := h.sending s hs
      exact ⟨hd.inUse, hd.hand, hd.state, hd.pending, hd.refs, hd.dying⟩
    · intro p' op hf
      exact (List.mem_append.mp hf).resolve_left writeLog_fault
  | resume i m p c c' bs e hu hm ht hc hb =>
    have h1 := h.wrote hc hb
    refine h1.congr_slot (i := i) rfl ⟨rfl, rfl, rfl, rfl, rfl, rfl, rfl⟩ ?_ (h1.slots i).rx
      (h1.slots i).connect (h1.slots i).send rfl rfl rfl ⟨rfl, rfl, rfl, rfl⟩ ?_ ?_
    · intro hf
      exact ⟨((h1.slots i).free hf).1, ((h1.slots i).free hf).2.2.2.2.2⟩
    · exact h1.sending_slot (i := i) rfl ⟨rfl, rfl, rfl⟩ rfl rfl (fun _ hj => hj)
        (fun _ hj => Or.inl hj)
    · intro p' op hf
      exact (List.mem_append.mp hf).resolve_left writeLog_fault
  | finish i m e hm he =>
    refine h.emptySend hm rfl fun p op hf => ?_
    exact silent (by simp) p op (silent (by simp) p op hf)
  | dropSend i m e hm hl =>
    exact h.emptySend hm rfl (silent (by simp))
  | park s p c hs hm hw hp ht hc hl =>
    have hd := h.sending s hs
    have h1 : (a.pcbSet p (some { c with poll := true })).Disc :=
      h.tweak hc ⟨rfl, rfl, rfl⟩ (Or.inl rfl) (Or.inr ⟨⟨s.i, ht⟩, Or.inl rfl⟩)
    refine h1.congr_slot (i := s.i) rfl ⟨rfl, rfl, rfl, rfl, rfl, rfl, rfl⟩ ?_ (h1.slots s.i).rx
      ?_ ?_ rfl rfl rfl ⟨rfl, rfl, rfl, rfl⟩ ?_ (fun _ _ hf => hf)
    · intro hf
      have hf : (a.slot s.i).inUse = false := hf
      rw [hd.inUse] at hf
      cases hf
    · intro hc'
      exact (h.slots s.i).connect (by simpa [SlotView.setPend] using hc')
    · intro _
      rcases hd.state hw with hst | hst | hst
      · exact Or.inr (Or.inl hst)
      · exact Or.inr (Or.inr hst)
      · obtain ⟨c1, -, -, hl⟩ := (h.slots s.i).pcb p ht
        rw [hst] at hl
        exact hl.elim
    · rintro x hx
      cases hx
  | cut s e hs =>
    exact h.congr_rest rfl rfl rfl rfl ⟨rfl, rfl, rfl, rfl⟩
      (h.sending_rest rfl rfl hand rfl rfl) (silent (by simp))
  | reply s r e hs hm hr hl =>
    refine h.congr_rest rfl rfl rfl rfl ⟨rfl, rfl, rfl, rfl⟩ ?_ (silent (by simp))
    rintro x hx
    cases hx

end Disc

end Abs

end Tolunnet
