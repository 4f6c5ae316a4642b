import Tolunnet.Abstract.Discipline

/-!
# `Tolunnet.Abstract.Connections`: the acts on connections keep the discipline

A pcb is held by one slot, by one accept entry, or is in hand. Each lemma moves one pcb: a slot
gets a fresh one or loses its own, a slot and its pcb change state together, an incoming
connection is queued, taken out of the queue, adopted by a new slot or given up.
-/

set_option autoImplicit false

namespace Tolunnet

namespace Abs

namespace Disc

variable {a a' : Abs}

/-! ## Who holds a pcb -/

/-- A slot that is not touched is still in order. -/
theorem slotDisc_same (h : a.Disc) {j : SlotIdx} (hslot : a'.slot j = a.slot j)
    (hp : ∀ p, (a.slot j).tcp = some p → a'.pcb p = a.pcb p) (hudp : a'.udp = a.udp)
    (hraw : a'.raw = a.raw) (hjoin : a'.tok.joined = a.tok.joined)
    (hdy : a'.tok.dying = a.tok.dying) : a'.SlotDisc j := by
  have hj := h.slots j
  exact
    { free := by rw [hslot]; exact hj.free
      pcb := by
        intro p hpp
        rw [hslot] at hpp ⊢
        rw [hp p hpp]
        exact hj.pcb p hpp
      stream := by rw [hslot]; exact hj.stream
      noPcb := by rw [hslot, hdy]; exact hj.noPcb
      queue := by rw [hslot]; exact hj.queue
      rx := by rw [hslot]; exact hj.rx
      connect := by rw [hslot, hjoin]; exact hj.connect
      send := by rw [hslot]; exact hj.send
      dgram := by rw [hslot]; exact hj.dgram
      udp := by rw [hslot, hudp]; exact hj.udp
      raw := by rw [hslot, hraw]; exact hj.raw }

/-- The pcb of a slot is the slot's own. -/
theorem slot_pcb (h : a.Disc) {i : SlotIdx} {p : PcbId} {c : PcbView}
    (ht : (a.slot i).tcp = some p) (hc : a.pcb p = some c) :
    c.arg = .slot i ∧ Linked c (a.slot i).st := by
  obtain ⟨c1, h1, h2, h3⟩ := (h.slots i).pcb p ht
  rw [hc, Option.some.injEq] at h1
  exact h1 ▸ ⟨h2, h3⟩

/-- A connection in the handshake belongs to a slot that is connecting. -/
theorem connecting_of_synSent (h : a.Disc) {i : SlotIdx} {p : PcbId} {c : PcbView}
    (ht : (a.slot i).tcp = some p) (hc : a.pcb p = some c) (hl : c.listen = false)
    (hs : c.state = .synSent) : (a.slot i).st = .connecting := by
  obtain ⟨-, linked⟩ := h.slot_pcb ht hc
  cases hst : (a.slot i).st with
  | connecting => rfl
  | closed => rw [hst] at linked; cases hs.symm.trans linked.2.2.2
  | established => rw [hst] at linked; have sy := linked.2.2.2; rw [hs] at sy; cases sy
  | peerClosed => rw [hst] at linked; have sy := linked.2.2.2; rw [hs] at sy; cases sy
  | listening => rw [hst] at linked; cases hl.symm.trans linked
  | error => rw [hst] at linked; cases linked

/-- No two slots hold one pcb. -/
theorem slot_unique (h : a.Disc) {i j : SlotIdx} {p : PcbId} (hi : (a.slot i).tcp = some p)
    (hj : (a.slot j).tcp = some p) : j = i := by
  obtain ⟨c, hc, hai, -⟩ := (h.slots i).pcb p hi
  have haj := (h.slot_pcb hj hc).1
  rw [hai, CbArg.slot.injEq] at haj
  exact haj.symm

/-- The pcb of a slot is not that of an accept entry. -/
theorem slot_not_queued (h : a.Disc) {i : SlotIdx} {p : PcbId} {c : PcbView} {e : EntId}
    (ht : (a.slot i).tcp = some p) (hc : a.pcb p = some c) (hq : Queued c e) : False := by
  have := (h.slot_pcb ht hc).1
  rw [hq.arg] at this
  cases this

/-- The pcb of a slot is not the connection in hand. -/
theorem slot_not_conn (h : a.Disc) {i : SlotIdx} {p : PcbId} (ht : (a.slot i).tcp = some p) :
    a.tok.conn ≠ some p := fun hc => (h.conn p hc).slots i ht

/-- Two accept entries with one pcb are one entry. -/
theorem entry_unique (h : a.Disc) {i j : SlotIdx} {x y : TnAcceptEntry} {p : PcbId}
    (hx : x ∈ (a.slot i).q) (hy : y ∈ (a.slot j).q) (hxp : x.newPcb = some p)
    (hyp : y.newPcb = some p) : j = i ∧ y.id = x.id := by
  obtain ⟨-, p1, c1, h1, h2, h3⟩ := h.entries.queued i x hx
  obtain ⟨-, p2, c2, h4, h5, h6⟩ := h.entries.queued j y hy
  rw [hxp, Option.some.injEq] at h1
  rw [hyp, Option.some.injEq] at h4
  rw [← h1] at h2
  rw [← h4, h2, Option.some.injEq] at h5
  have he := h6.arg
  rw [← h5, h3.arg, CbArg.entry.injEq] at he
  exact ⟨(h.entries.apart i j x hx y hy he).symm, he.symm⟩

/-- The queued entries that `x` is not the address of are left by taking `x` out. -/
theorem mem_eraseP_id {q : List TnAcceptEntry} {x y : TnAcceptEntry} (hy : y ∈ q)
    (hne : y.id ≠ x.id) : y ∈ q.eraseP (·.id == x.id) := by
  rw [List.mem_eraseP_of_neg (by simpa using hne)]
  exact hy

/-- Slot `i` and its pcb `p` change; the entries, the connection in hand and the rest of what
is in hand stay. -/
theorem slotPcb (h : a.Disc) {i : SlotIdx} {p : PcbId} {s : SlotView} {o : Option PcbView}
    (hslot : a'.slot = Function.update a.slot i s)
    (hpcb : a'.pcb = Function.update a.pcb p o)
    (hudp : a'.udp = a.udp) (hraw : a'.raw = a.raw) (hi : a'.SlotDisc i)
    (hfree : (a.slot i).tcp = some p ∨ ((a.slot i).tcp = none ∧ a.pcb p = none))
    (hq : s.q = (a.slot i).q) (htcp : s.tcp = none ∨ s.tcp = some p)
    (ho : ∀ c, o = some c → a'.Owned p c)
    (ht : a'.tok.conn = a.tok.conn ∧ a'.tok.ent = a.tok.ent ∧ a'.tok.dying = a.tok.dying)
    (hjoin : ∀ j, j ≠ i → a.tok.joined = some j → a'.tok.joined = some j)
    (hsnd : ∀ s, a'.tok.sending = some s → a'.SendDisc s)
    (huse : (a.slot i).inUse = true → s.inUse = true) (hlog : a'.log = a.log) : a'.Disc := by
  have q : ∀ j, (a'.slot j).q = (a.slot j).q := by
    intro j
    by_cases hj : j = i
    · subst hj
      rw [hslot, Function.update_self, hq]
    · rw [hslot, Function.update_of_ne hj]
  -- Neither an entry nor the hand holds `p`: it was the slot's, or free.
  have notQueued : ∀ {c e}, a.pcb p = some c → ¬ Queued c e := by
    intro c e hc hqd
    rcases hfree with hf | ⟨-, hf⟩
    · exact h.slot_not_queued hf hc hqd
    · rw [hf] at hc
      cases hc
  have notConn : a.tok.conn ≠ some p := by
    rcases hfree with hf | ⟨-, hf⟩
    · exact h.slot_not_conn hf
    · intro hc
      obtain ⟨c, h1, -⟩ := (h.conn p hc).fresh
      rw [hf] at h1
      cases h1
  refine h.update (i := i) (· = p) ?_ ?_ hudp hraw hi ?_ ?_ ?_ ?_ ?_ ?_ ?_ hsnd ?_ ?_ hjoin ?_
  · intro j hj
    rw [hslot, Function.update_of_ne hj]
  · intro p' hp'
    rw [hpcb, Function.update_of_ne hp']
  · refine h.entries_congr q ht.2.1 ?_
    intro p' c e hc hqd
    have hne : p' ≠ p := by
      rintro rfl
      exact notQueued hc hqd
    rw [hpcb, Function.update_of_ne hne]
    exact hc
  · rintro j hj p' hp' rfl
    rcases hfree with hf | ⟨-, hf⟩
    · exact hj (h.slot_unique hf hp')
    · obtain ⟨c, h1, -⟩ := (h.slots j).pcb p' hp'
      rw [hf] at h1
      cases h1
  · intro p' hp' htp
    rcases hfree with hf | ⟨hf, -⟩
    · rw [hf, Option.some.injEq] at htp
      exact absurd htp.symm hp'
    · rw [hf] at htp
      cases htp
  · rintro x p' (⟨j, hj⟩ | hx) - -
    · exact Or.inl ⟨j, x, by rw [q]; exact hj, rfl, rfl⟩
    · exact Or.inr ⟨x, by rw [ht.2.1]; exact hx, rfl, rfl⟩
  -- The change of `p` itself.
  · rintro p' c rfl hc
    rw [hpcb, Function.update_self] at hc
    exact Or.inr (ho c hc)
  · intro p' _ hc
    rw [ht.1]
    exact hc
  · intro p' hc'
    rw [ht.1] at hc'
    have hcn := h.conn p' hc'
    have hne : p' ≠ p := by
      rintro rfl
      exact notConn hc'
    exact
      { fresh := by
          rw [hpcb, Function.update_of_ne hne]
          exact hcn.fresh
        slots := by
          intro j hj
          by_cases hji : j = i
          · subst hji
            rw [hslot, Function.update_self] at hj
            rcases htcp with htc | htc <;> rw [htc] at hj
            · cases hj
            · exact hne (by simpa using hj.symm)
          · rw [hslot, Function.update_of_ne hji] at hj
            exact hcn.slots j hj
        entries := by intro j; rw [q]; exact hcn.entries j
        inHand := by rw [ht.2.1]; exact hcn.inHand }
  · intro j _
    rw [ht.2.2]
  · intro hm
    rw [ht.2.2] at hm
    rw [hslot, Function.update_self]
    exact huse (h.dying i hm)
  · intro p' op hf
    rw [← hlog]
    exact hf

/-- The send in hand is not touched by an act that keeps slots in use and in a state a send
can be in. -/
theorem sending_state (h : a.Disc) {i : SlotIdx} {s : SlotView}
    (hslot : a'.slot = Function.update a.slot i s)
    (huse : (a.slot i).inUse = true → s.inUse = true)
    (hst : ∀ x, a.tok.sending = some x → x.i = i → x.writing = true →
      s.st = .established ∨ s.st = .peerClosed ∨ s.st = .error)
    (hp : s.pending .send = (a.slot i).pending .send)
    (ht : a'.tok.sending = a.tok.sending ∧ a'.tok.hand = a.tok.hand ∧
      a'.tok.refs = a.tok.refs ∧ a'.tok.dying = a.tok.dying) :
    ∀ s, a'.tok.sending = some s → a'.SendDisc s := by
  intro x hx
  rw [ht.1] at hx
  have hd := h.sending x hx
  have hh : x.m ∈ a'.tok.hand := by rw [ht.2.1]; exact hd.hand
  have hr : x.i ∉ a'.tok.refs := by rw [ht.2.2.1]; exact hd.refs
  have hdy : x.i ∉ a'.tok.dying := by rw [ht.2.2.2]; exact hd.dying
  by_cases hi : x.i = i
  · have hsl : a'.slot x.i = s := by rw [hslot, hi, Function.update_self]
    exact
      { inUse := by rw [hsl]; exact huse (hi ▸ hd.inUse)
        hand := hh
        state := by rw [hsl]; exact hst x hx hi
        pending := by rw [hsl, hp, ← hi]; exact hd.pending
        refs := hr
        dying := hdy }
  · have hsl : a'.slot x.i = a.slot x.i := by rw [hslot, Function.update_of_ne hi]
    exact
      { inUse := by rw [hsl]; exact hd.inUse
        hand := hh
        state := by rw [hsl]; exact hd.state
        pending := by rw [hsl]; exact hd.pending
        refs := hr
        dying := hdy }

/-- A send in hand that writes is not on a slot in another state. -/
theorem not_sending (h : a.Disc) {i : SlotIdx} {st : TnTcpState} (hs : (a.slot i).st = st)
    (hst : st ≠ .established ∧ st ≠ .peerClosed ∧ st ≠ .error) {x : Sending}
    (hx : a.tok.sending = some x) (hi : x.i = i) (hw : x.writing = true) : False := by
  rcases (h.sending x hx).state hw with h1 | h1 | h1 <;> rw [hi, hs] at h1
  · exact hst.1 h1
  · exact hst.2.1 h1
  · exact hst.2.2 h1

/-- A slot loses its pcb. -/
theorem release (h : a.Disc) {i : SlotIdx} {p : PcbId} {o : Option PcbView} {s : SlotView}
    {t : Tok} (hu : (a.slot i).inUse = true) (ht : (a.slot i).tcp = some p)
    (ho : ∀ c, o = some c → c.Orphan)
    (hs : s = { a.slot i with tcp := none, st := s.st, shutWr := s.shutWr, err := s.err })
    (hst : s.st = .closed ∨ s.st = .peerClosed ∨ s.st = .error ∨
      (i ∈ a.tok.dying ∧ s.st = (a.slot i).st))
    (hq : (a.slot i).q ≠ [] → s.st = .listening)
    (hc : s.st = .closed → t.sending = none ∨ i ∈ a.tok.dying)
    (htk : t = { a.tok with owes := t.owes, serve := t.serve }) :
    (((a.slotSet i s).pcbSet p o).setTok t).Disc := by
  have hi := h.slots i
  have hsi : (((a.slotSet i s).pcbSet p o).setTok t).slot i = s := by simp
  have hdy : t.dying = a.tok.dying := by rw [htk]
  have hsend : t.sending = a.tok.sending := by rw [htk]
  refine h.slotPcb (i := i) (p := p) (s := s) (o := o) rfl rfl rfl rfl ?_ (Or.inl ht) (by rw [hs])
    (Or.inl (by rw [hs])) ?_ (by rw [htk]; exact ⟨rfl, rfl, rfl⟩)
    (fun j _ hj => by rw [htk]; exact hj) ?_ (fun _ => by rw [hs]; exact hu) rfl
  · refine
      { free := ?_, pcb := ?_, stream := ?_, noPcb := ?_, queue := ?_, rx := ?_, connect := ?_,
        send := ?_, dgram := ?_, udp := ?_, raw := ?_ } <;> rw [hsi]
    · intro hf
      rw [hs] at hf
      rw [show (a.slot i).inUse = false from hf] at hu
      cases hu
    · intro p' hp'
      rw [hs] at hp'
      cases hp'
    · intro hp'
      rw [hs] at hp'
      cases hp'
    · intro _
      rcases hst with h1 | h1 | h1 | ⟨h1, -⟩
      · exact Or.inl h1
      · exact Or.inr (Or.inl h1)
      · exact Or.inr (Or.inr (Or.inl h1))
      · exact Or.inr (Or.inr (Or.inr (Or.inr (by rw [← hdy] at h1; exact h1))))
    · intro hne
      refine hq ?_
      rw [hs] at hne
      exact hne
    · intro _
      exact Or.inl (by rw [hs])
    · intro _
      exact Or.inr (Or.inl (by rw [hs]))
    · intro _
      exact Or.inl (by rw [hs])
    · rw [hs]
      exact hi.dgram
    · rw [hs]
      exact hi.udp
    · rw [hs]
      exact hi.raw
  · intro c hc'
    have := ho c hc'
    simp only [Owned, this.arg]
    exact this
  · refine h.sending_state (i := i) (s := s) rfl (fun _ => by rw [hs]; exact hu) ?_ (by rw [hs])
      (by rw [htk]; exact ⟨rfl, rfl, rfl, rfl⟩)
    intro x hx hxi hw
    rcases hst with h1 | h1 | h1 | ⟨h1, -⟩
    · rcases hc h1 with h2 | h2
      · rw [hsend, hx] at h2
        cases h2
      · exact absurd (hxi ▸ h2) (h.sending x hx).dying
    · exact Or.inr (Or.inl h1)
    · exact Or.inr (Or.inr h1)
    · exact absurd (hxi ▸ h1) (h.sending x hx).dying

/-- A slot without a pcb gets a fresh one. -/
theorem acquire (h : a.Disc) {i : SlotIdx} {p : PcbId} {c : PcbView} {s : SlotView}
    (hu : (a.slot i).inUse = true) (ht : (a.slot i).tcp = none) (hc0 : (a.slot i).st = .closed)
    (hp : a.pcb p = none) (hrx : (a.slot i).rx = []) (hsd : (a.slot i).pending .send = none)
    (hcn : (a.slot i).pending .connect = none) (hstr : (a.slot i).type = sockStream)
    (hs : s = { a.slot i with tcp := some p, st := s.st }) (harg : c.arg = .slot i)
    (hl : Linked c s.st) (hq : (a.slot i).q = []) :
    ((a.slotSet i s).pcbSet p (some c)).Disc := by
  have hi := h.slots i
  have hsi : ((a.slotSet i s).pcbSet p (some c)).slot i = s := by simp
  refine h.slotPcb (i := i) (p := p) (s := s) (o := some c) rfl rfl rfl rfl ?_ (Or.inr ⟨ht, hp⟩)
    (by rw [hs]) (Or.inr (by rw [hs])) ?_ ⟨rfl, rfl, rfl⟩ (fun _ _ hj => hj) ?_
    (fun _ => by rw [hs]; exact hu) rfl
  · refine
      { free := ?_, pcb := ?_, stream := ?_, noPcb := ?_, queue := ?_, rx := ?_, connect := ?_,
        send := ?_, dgram := ?_, udp := ?_, raw := ?_ } <;> rw [hsi]
    · intro hf
      rw [hs] at hf
      rw [show (a.slot i).inUse = false from hf] at hu
      cases hu
    · intro p' hp'
      rw [hs] at hp'
      cases hp'
      exact ⟨c, by simp, harg, hl⟩
    · intro _
      rw [hs]
      exact hstr
    · intro hn
      rw [hs] at hn
      cases hn
    · intro hne
      rw [hs] at hne
      exact absurd hq hne
    · intro hne
      rw [hs] at hne
      exact absurd hrx hne
    · intro hne
      rw [hs] at hne
      exact absurd hcn hne
    · intro hne
      rw [hs] at hne
      exact absurd hsd hne
    · rw [hs]
      exact hi.dgram
    · rw [hs]
      exact hi.udp
    · rw [hs]
      exact hi.raw
  · rintro c' hc'
    cases hc'
    simp only [Owned, harg, hsi]
    rw [hs]
  · refine h.sending_state (i := i) (s := s) rfl (fun _ => by rw [hs]; exact hu) ?_ (by rw [hs])
      ⟨rfl, rfl, rfl, rfl⟩
    intro x hx hxi hw
    exact (h.not_sending hc0 (by decide) hx hxi hw).elim

/-- A slot and its pcb change state together. -/
theorem advance (h : a.Disc) {i : SlotIdx} {p : PcbId} {c c' : PcbView} {st : TnTcpState}
    {t : Tok} (hu : (a.slot i).inUse = true) (ht : (a.slot i).tcp = some p)
    (hc : a.pcb p = some c) (harg : c'.arg = c.arg) (hl : Linked c' st)
    (hq : (a.slot i).q ≠ [] → st = .listening)
    (hrx : (a.slot i).rx ≠ [] → st = .established ∨ st = .peerClosed)
    (hcn : (a.slot i).pending .connect ≠ none → st = .connecting ∨ t.joined = some i)
    (hsd : (a.slot i).pending .send ≠ none → st = .established ∨ st = .peerClosed)
    (hsn : ∀ x, a.tok.sending = some x → x.i = i → x.writing = true →
      st = .established ∨ st = .peerClosed)
    (hj : ∀ j, j ≠ i → a.tok.joined = some j → t.joined = some j)
    (htk : t = { a.tok with owes := t.owes, serve := t.serve, joined := t.joined }) :
    (((a.slotSet i { a.slot i with st := st }).pcbSet p (some c')).setTok t).Disc := by
  have hi := h.slots i
  refine h.slotPcb (i := i) (p := p) (s := { a.slot i with st := st }) (o := some c') rfl rfl rfl
    rfl ?_ (Or.inl ht) rfl (Or.inr ht) ?_ (by rw [htk]; exact ⟨rfl, rfl, rfl⟩) hj ?_
    (fun _ => hu) rfl
  · refine
      { free := ?_, pcb := ?_, stream := ?_, noPcb := ?_, queue := ?_, rx := ?_, connect := ?_,
        send := ?_, dgram := ?_, udp := ?_, raw := ?_ } <;>
      simp only [setTok_slot, pcbSet_slot, slotSet_slot, Function.update_self]
    · intro hf
      rw [hf] at hu
      cases hu
    · intro p' hp'
      rw [ht, Option.some.injEq] at hp'
      subst hp'
      exact ⟨c', by simp, harg.trans (h.slot_pcb ht hc).1, hl⟩
    · exact hi.stream
    · intro hn
      rw [ht] at hn
      cases hn
    · exact hq
    · exact fun hne => Or.inr (hrx hne)
    · intro hne
      exact (hcn hne).imp_right Or.inr
    · exact fun hne => Or.inr (hsd hne)
    · exact hi.dgram
    · exact hi.udp
    · exact hi.raw
  · rintro c1 hc1
    cases hc1
    simp only [Owned, harg.trans (h.slot_pcb ht hc).1, setTok_slot, pcbSet_slot, slotSet_slot,
      Function.update_self]
    exact ht
  · refine h.sending_state (i := i) rfl (fun _ => hu) ?_ rfl
      (by rw [htk]; exact ⟨rfl, rfl, rfl, rfl⟩)
    intro x hx hxi hw
    exact (hsn x hx hxi hw).imp_right Or.inl

/-- A slot in order stays so when only its accept queue changes, and not from empty. -/
theorem slotDisc_queue (h : a.Disc) {i : SlotIdx} {q : List TnAcceptEntry}
    (hslot : a'.slot i = { a.slot i with q := q })
    (hq : q ≠ [] → (a.slot i).st = .listening ∧ (a.slot i).inUse = true)
    (hp : ∀ p, (a.slot i).tcp = some p → a'.pcb p = a.pcb p) (hudp : a'.udp = a.udp)
    (hraw : a'.raw = a.raw) (hjoin : a'.tok.joined = a.tok.joined)
    (hdy : a'.tok.dying = a.tok.dying) : a'.SlotDisc i := by
  have hi := h.slots i
  refine
    { free := ?_, pcb := ?_, stream := ?_, noPcb := ?_, queue := ?_, rx := ?_, connect := ?_,
      send := ?_, dgram := ?_, udp := ?_, raw := ?_ } <;> rw [hslot]
  · intro hf
    obtain ⟨h1, h2, h3, h4, -, h6⟩ := hi.free hf
    refine ⟨h1, h2, h3, h4, ?_, h6⟩
    by_contra hne
    rw [(hq hne).2] at hf
    cases hf
  · intro p hpp
    rw [hp p hpp]
    exact hi.pcb p hpp
  · exact hi.stream
  · rw [hdy]; exact hi.noPcb
  · exact fun hne => (hq hne).1
  · exact hi.rx
  · rw [hjoin]; exact hi.connect
  · exact hi.send
  · exact hi.dgram
  · rw [hudp]; exact hi.udp
  · rw [hraw]; exact hi.raw

/-- A slot with queued connections listens. -/
theorem listening_of_mem (h : a.Disc) {i : SlotIdx} {x : TnAcceptEntry}
    (hx : x ∈ (a.slot i).q) : (a.slot i).st = .listening ∧ (a.slot i).inUse = true := by
  have hne : (a.slot i).q ≠ [] := List.ne_nil_of_mem hx
  refine ⟨(h.slots i).queue hne, ?_⟩
  by_contra hf
  exact hne ((h.slots i).free (by simpa using hf)).2.2.2.2.1

/-- The entries of a queue change without losing their addresses and pcbs. -/
theorem modEntries_disc (h : a.Disc) {i : SlotIdx} {e : EntId}
    {f : TnAcceptEntry → TnAcceptEntry}
    (hf : ∀ x, (f x).id = x.id ∧ (f x).newPcb = x.newPcb ∧ (f x).listeningSlot = x.listeningSlot) :
    (a.slotSet i { a.slot i with q := modEntries (a.slot i).q e f }).Disc := by
  let b := a.slotSet i { a.slot i with q := modEntries (a.slot i).q e f }
  have hbi : b.slot i = { a.slot i with q := modEntries (a.slot i).q e f } := by simp [b]
  have hbj : ∀ j, j ≠ i → b.slot j = a.slot j := by
    intro j hj
    simp [b, hj]
  have ids : ((modEntries (a.slot i).q e f).map TnAcceptEntry.id)
      = (a.slot i).q.map TnAcceptEntry.id := by
    unfold modEntries
    rw [List.map_map]
    refine List.map_congr_left fun x _ => ?_
    simp only [Function.comp_apply]
    split
    · exact (hf x).1
    · rfl
  -- every entry comes from one with the same address, pcb and slot, and the other way round
  have back : ∀ j, ∀ y ∈ (b.slot j).q, ∃ x ∈ (a.slot j).q,
      y.id = x.id ∧ y.newPcb = x.newPcb ∧ y.listeningSlot = x.listeningSlot := by
    intro j y hy
    by_cases hj : j = i
    · subst hj
      rw [hbi] at hy
      obtain ⟨x, hx, rfl⟩ := List.mem_map.mp hy
      refine ⟨x, hx, ?_⟩
      split
      · exact hf x
      · exact ⟨rfl, rfl, rfl⟩
    · rw [hbj j hj] at hy
      exact ⟨y, hy, rfl, rfl, rfl⟩
  have forth : ∀ j, ∀ x ∈ (a.slot j).q, ∃ y ∈ (b.slot j).q, y.id = x.id ∧ y.newPcb = x.newPcb := by
    intro j x hx
    by_cases hj : j = i
    · subst hj
      rw [hbi]
      refine ⟨_, List.mem_map.mpr ⟨x, hx, rfl⟩, ?_⟩
      split
      · exact ⟨(hf x).1, (hf x).2.1⟩
      · exact ⟨rfl, rfl⟩
    · exact ⟨x, by rw [hbj j hj]; exact hx, rfl, rfl⟩
  have tcp : ∀ j, (b.slot j).tcp = (a.slot j).tcp := by
    intro j
    by_cases hj : j = i
    · subst hj
      rw [hbi]
    · rw [hbj j hj]
  refine h.update (i := i) (fun _ => False) hbj (fun _ _ => rfl) rfl rfl ?_ ?_
    (fun _ _ _ _ hf => hf) ?_ ?_ (fun _ _ hf => hf.elim) (fun _ _ hc => hc) ?_ ?_
    (fun _ _ => Iff.rfl) ?_ (fun _ _ hj => hj) (fun _ _ hf => hf)
  · refine h.slotDisc_queue hbi ?_ (fun _ _ => rfl) rfl rfl rfl rfl
    intro hne
    obtain ⟨y, hy⟩ := List.exists_mem_of_ne_nil _ hne
    obtain ⟨x, hx, -⟩ := back i y (by rw [hbi]; exact hy)
    exact h.listening_of_mem hx
  · refine { queued := ?_, inHand := ?_, nodup := ?_, apart := ?_ }
    · intro j y hy
      obtain ⟨x, hx, h1, h2, h3⟩ := back j y hy
      obtain ⟨h4, p, c, h5, h6, h7⟩ := h.entries.queued j x hx
      exact ⟨h3.trans h4, p, c, h2.trans h5, h6, h1 ▸ h7⟩
    · intro x hx
      obtain ⟨h1, h2⟩ := h.entries.inHand x hx
      refine ⟨h1, fun j y hy => ?_⟩
      obtain ⟨z, hz, h3, -⟩ := back j y hy
      rw [h3]
      exact h2 j z hz
    · intro j
      by_cases hj : j = i
      · subst hj
        rw [hbi, ids]
        exact h.entries.nodup j
      · rw [hbj j hj]
        exact h.entries.nodup j
    · intro j k x hx y hy he
      obtain ⟨x', hx', h1, -⟩ := back j x hx
      obtain ⟨y', hy', h2, -⟩ := back k y hy
      exact h.entries.apart j k x' hx' y' hy' (by rw [← h1, ← h2]; exact he)
  · intro p _ hp
    rw [tcp]
    exact hp
  · rintro x p (⟨j, hj⟩ | hx) - -
    · obtain ⟨y, hy, h1, h2⟩ := forth j x hj
      exact Or.inl ⟨j, y, hy, h1, h2⟩
    · exact Or.inr ⟨x, hx, rfl, rfl⟩
  · refine h.conn_congr ?_ ?_ (fun x hx => Or.inl hx) rfl (fun _ _ _ hc => hc)
    · intro j p hp
      exact ⟨j, by rw [← tcp]; exact hp⟩
    · intro j y hy _
      obtain ⟨x, hx, -, h2, -⟩ := back j y hy
      exact ⟨j, x, hx, h2.symm⟩
  · exact h.sending_slot (i := i) rfl ⟨rfl, rfl, rfl⟩ rfl rfl (fun _ hj => hj)
      (fun _ hj => Or.inl hj)
  · intro hm
    rw [hbi]
    exact h.dying i hm

/-- The pcb of the entry in hand is not that of a queued entry. -/
theorem inHand_apart (h : a.Disc) {j : SlotIdx} {x y : TnAcceptEntry} {p : PcbId}
    (hx : a.tok.ent = some x) (hxp : x.newPcb = some p) (hy : y ∈ (a.slot j).q) :
    y.newPcb ≠ some p := by
  intro hyp
  obtain ⟨⟨p1, c1, h1, h2, h3⟩, hfresh⟩ := h.entries.inHand x hx
  obtain ⟨-, p2, c2, h4, h5, h6⟩ := h.entries.queued j y hy
  rw [hxp, Option.some.injEq] at h1
  rw [hyp, Option.some.injEq] at h4
  rw [← h1] at h2
  rw [← h4, h2, Option.some.injEq] at h5
  have he := h6.arg
  rw [← h5, h3.arg, CbArg.entry.injEq] at he
  exact hfresh j y hy he.symm

/-- A queued connection that nobody took goes out of its queue, with its pcb. -/
theorem entryOut (h : a.Disc) {i : SlotIdx} {x : TnAcceptEntry} {p : PcbId}
    {q : List TnAcceptEntry} (hx : x ∈ (a.slot i).q) (hxp : x.newPcb = some p)
    (hsub : q.Sublist (a.slot i).q) (hne : ∀ y ∈ q, y.id ≠ x.id)
    (hkeep : ∀ y ∈ (a.slot i).q, y.id ≠ x.id → y ∈ q) :
    ((a.slotSet i { a.slot i with q := q }).pcbSet p none).Disc := by
  obtain ⟨-, p1, c, h1, hc, hqd⟩ := h.entries.queued i x hx
  rw [hxp, Option.some.injEq] at h1
  subst h1
  let b := (a.slotSet i { a.slot i with q := q }).pcbSet p none
  have hbi : b.slot i = { a.slot i with q := q } := by simp [b]
  have hbj : ∀ j, j ≠ i → b.slot j = a.slot j := by
    intro j hj
    simp [b, hj]
  have hpcb : ∀ p', p' ≠ p → b.pcb p' = a.pcb p' := by
    intro p' hp'
    simp [b, hp']
  have back : ∀ j, ∀ y ∈ (b.slot j).q, y ∈ (a.slot j).q ∧ y.newPcb ≠ some p := by
    intro j y hy
    by_cases hj : j = i
    · subst hj
      rw [hbi] at hy
      exact ⟨hsub.subset hy, fun hyp =>
        hne y hy (h.entry_unique hx (hsub.subset hy) hxp hyp).2⟩
    · rw [hbj j hj] at hy
      exact ⟨hy, fun hyp => hj (h.entry_unique hx hy hxp hyp).1⟩
  -- `p` was the entry's alone, so no slot and no hand loses it.
  have noSlot : ∀ j, (a.slot j).tcp ≠ some p := fun j hj => h.slot_not_queued hj hc hqd
  have noConn : a.tok.conn ≠ some p := fun hcn => (h.conn p hcn).entries i x hx hxp
  have tcp : ∀ j, (b.slot j).tcp = (a.slot j).tcp := by
    intro j
    by_cases hj : j = i
    · subst hj
      rw [hbi]
    · rw [hbj j hj]
  refine h.update (i := i) (· = p) hbj hpcb rfl rfl ?_ ?_ ?_ ?_ ?_ ?_
    (fun _ _ hc => hc) ?_ ?_ (fun _ _ => Iff.rfl) ?_ (fun _ _ hj => hj) (fun _ _ hf => hf)
  · refine h.slotDisc_queue hbi (fun _ => h.listening_of_mem hx) ?_ rfl rfl rfl rfl
    intro p' hp'
    exact hpcb p' fun he => noSlot i (he ▸ hp')
  · refine { queued := ?_, inHand := ?_, nodup := ?_, apart := ?_ }
    · intro j y hy
      obtain ⟨hya, hyp⟩ := back j y hy
      obtain ⟨h4, p', c', h5, h6, h7⟩ := h.entries.queued j y hya
      exact ⟨h4, p', c', h5, by rw [hpcb p' fun he => hyp (he ▸ h5)]; exact h6, h7⟩
    · intro y hy
      obtain ⟨⟨p', c', h5, h6, h7⟩, h8⟩ := h.entries.inHand y hy
      refine ⟨⟨p', c', h5, ?_, h7⟩, fun j z hz => h8 j z (back j z hz).1⟩
      rw [hpcb p' fun he => h.inHand_apart hy h5 hx (he ▸ hxp)]
      exact h6
    · intro j
      by_cases hj : j = i
      · subst hj
        rw [hbi]
        exact (h.entries.nodup j).sublist (hsub.map _)
      · rw [hbj j hj]
        exact h.entries.nodup j
    · intro j k y hy z hz
      exact h.entries.apart j k y (back j y hy).1 z (back k z hz).1
  · rintro j - p' hp' rfl
    exact noSlot j hp'
  · intro p' _ hp'
    rw [tcp]
    exact hp'
  · rintro y p' (⟨j, hj⟩ | hy) hyp hp'
    · refine Or.inl ⟨j, y, ?_, rfl, rfl⟩
      by_cases hji : j = i
      · subst hji
        rw [hbi]
        refine hkeep y hj fun he => hp' ?_
        have hyx : y = x := by
          have hnd := h.entries.nodup j
          exact List.inj_on_of_nodup_map hnd hj hx he
        rw [hyx, hxp, Option.some.injEq] at hyp
        exact hyp.symm
      · rw [hbj j hji]
        exact hj
    · exact Or.inr ⟨y, hy, rfl, rfl⟩
  · rintro p' c' rfl hc'
    simp at hc'
  · refine h.conn_congr ?_ ?_ (fun x hx => Or.inl hx) rfl ?_
    · intro j p' hp'
      exact ⟨j, by rw [← tcp]; exact hp'⟩
    · intro j y hy _
      exact ⟨j, y, (back j y hy).1, rfl⟩
    · intro p' c' hcn hc'
      rw [hpcb p' fun he => noConn (he ▸ hcn)]
      exact hc'
  · exact h.sending_slot (i := i) rfl ⟨rfl, rfl, rfl⟩ rfl rfl (fun _ hj => hj)
      (fun _ hj => Or.inl hj)
  · intro hm
    rw [hbi]
    exact h.dying i hm

/-- A pcb that no slot and no queued entry holds goes away, out of hand if it was there. -/
theorem pcbOut (h : a.Disc) {p : PcbId} {t : Tok} (hslot : ∀ j, (a.slot j).tcp ≠ some p)
    (hq : ∀ j, ∀ y ∈ (a.slot j).q, y.newPcb ≠ some p)
    (hconn : t.conn = a.tok.conn ∧ a.tok.conn ≠ some p ∨ t.conn = none ∧ a.tok.conn = some p)
    (hent : t.ent = a.tok.ent ∧ (∀ x, a.tok.ent = some x → x.newPcb ≠ some p) ∨
      t.ent = none ∧ (∀ x, a.tok.ent = some x → x.newPcb = some p))
    (ht : t = { a.tok with conn := t.conn, ent := t.ent }) :
    ((a.pcbSet p none).setTok t).Disc := by
  have hpcb : ∀ p', p' ≠ p → ((a.pcbSet p none).setTok t).pcb p' = a.pcb p' := by
    intro p' hp'
    simp [hp']
  have htent : ∀ x, t.ent = some x → a.tok.ent = some x ∧ x.newPcb ≠ some p := by
    intro x hx
    rcases hent with ⟨h1, h2⟩ | ⟨h1, -⟩
    · rw [h1] at hx
      exact ⟨hx, h2 x hx⟩
    · rw [h1] at hx
      cases hx
  have htconn : ∀ p', t.conn = some p' → a.tok.conn = some p' ∧ p' ≠ p := by
    intro p' hp'
    rcases hconn with ⟨h1, h2⟩ | ⟨h1, -⟩
    · rw [h1] at hp'
      exact ⟨hp', fun he => h2 (he ▸ hp')⟩
    · rw [h1] at hp'
      cases hp'
  have hdy : t.dying = a.tok.dying := by rw [ht]
  refine h.update (i := 0) (· = p) (fun _ _ => rfl) hpcb rfl rfl ?_ ?_ ?_ (fun _ _ hp => hp) ?_ ?_
    ?_ ?_ ?_ (fun _ _ => by rw [← hdy]; exact Iff.rfl) ?_ (fun _ _ hj => by rw [ht]; exact hj)
    (fun _ _ hf => hf)
  · refine h.slotDisc_same rfl ?_ rfl rfl (by rw [ht]; rfl) (by rw [← hdy]; rfl)
    intro p' hp'
    exact hpcb p' fun he => hslot 0 (he ▸ hp')
  · refine { queued := ?_, inHand := ?_, nodup := h.entries.nodup, apart := h.entries.apart }
    · intro j y hy
      obtain ⟨h4, p', c', h5, h6, h7⟩ := h.entries.queued j y hy
      exact ⟨h4, p', c', h5, by rw [hpcb p' fun he => hq j y hy (he ▸ h5)]; exact h6, h7⟩
    · intro y hy
      obtain ⟨hya, hyp⟩ := htent y hy
      obtain ⟨⟨p', c', h5, h6, h7⟩, h8⟩ := h.entries.inHand y hya
      exact ⟨⟨p', c', h5, by rw [hpcb p' fun he => hyp (he ▸ h5)]; exact h6, h7⟩, h8⟩
  · rintro j - p' hp' rfl
    exact hslot j hp'
  · rintro y p' (⟨j, hj⟩ | hy) hyp hp'
    · exact Or.inl ⟨j, y, hj, rfl, rfl⟩
    · refine Or.inr ⟨y, ?_, rfl, rfl⟩
      rcases hent with ⟨h1, -⟩ | ⟨-, h2⟩
      · show t.ent = some y
        rw [h1]
        exact hy
      · rw [h2 y hy, Option.some.injEq] at hyp
        exact absurd hyp.symm hp'
  · rintro p' c' rfl hc'
    simp at hc'
  · intro p' hp' hc'
    show t.conn = some p'
    rcases hconn with ⟨h1, -⟩ | ⟨-, h2⟩
    · rw [h1]
      exact hc'
    · rw [h2, Option.some.injEq] at hc'
      exact absurd hc'.symm hp'
  · intro p' hp'
    obtain ⟨h1, h2⟩ := htconn p' hp'
    have hcn := h.conn p' h1
    exact
      { fresh := by rw [hpcb p' h2]; exact hcn.fresh
        slots := hcn.slots
        entries := hcn.entries
        inHand := fun x hx => hcn.inHand x (htent x hx).1 }
  · refine h.sending_rest rfl (by rw [ht]; rfl) ?_ (by rw [ht]; rfl) (by rw [← hdy]; rfl)
    intro s hs
    rw [ht]
    exact (h.sending s hs).hand
  · intro hm
    exact h.dying 0 (by rw [← hdy]; exact hm)

/-- A new slot takes a connection that was in hand. -/
theorem adopt (h : a.Disc) {j : SlotIdx} {p : PcbId} {c : PcbView} {s : SlotView} {t : Tok}
    (hj : (a.slot j).Blank) (hslot : ∀ k, (a.slot k).tcp ≠ some p)
    (hq : ∀ k, ∀ y ∈ (a.slot k).q, y.newPcb ≠ some p)
    (hs : s = { a.slot j with tcp := some p, st := s.st, rx := s.rx, hist := s.hist })
    (hst : s.st = .established ∨ s.st = .peerClosed) (hcl : c.listen = false)
    (hcs : c.state.synced = true)
    (hconn : t.conn = a.tok.conn ∧ a.tok.conn ≠ some p ∨ t.conn = none ∧ a.tok.conn = some p)
    (hent : t.ent = a.tok.ent ∧ (∀ x, a.tok.ent = some x → x.newPcb ≠ some p) ∨
      t.ent = none ∧ (∀ x, a.tok.ent = some x → x.newPcb = some p))
    (ht : t = { a.tok with conn := t.conn, ent := t.ent, owes := t.owes }) :
    (((a.slotSet j s).pcbSet p (some (c.forSlot j))).setTok t).Disc := by
  let b := ((a.slotSet j s).pcbSet p (some (c.forSlot j))).setTok t
  have hbj : b.slot j = s := by simp [b]
  have hbk : ∀ k, k ≠ j → b.slot k = a.slot k := by
    intro k hk
    simp [b, hk]
  have hbp : b.pcb p = some (c.forSlot j) := by simp [b]
  have hpcb : ∀ p', p' ≠ p → b.pcb p' = a.pcb p' := by
    intro p' hp'
    simp [b, hp']
  have htent : ∀ x, t.ent = some x → a.tok.ent = some x ∧ x.newPcb ≠ some p := by
    intro x hx
    rcases hent with ⟨h1, h2⟩ | ⟨h1, -⟩
    · rw [h1] at hx
      exact ⟨hx, h2 x hx⟩
    · rw [h1] at hx
      cases hx
  have q : ∀ k, (b.slot k).q = (a.slot k).q := by
    intro k
    by_cases hk : k = j
    · subst hk
      rw [hbj, hs]
    · rw [hbk k hk]
  have hdy : t.dying = a.tok.dying := by rw [ht]
  have hi := h.slots j
  have noSt : ∀ x, a.tok.sending = some x → x.i = j → x.writing = true → False :=
    fun x hx hxj hw => h.not_sending hj.st (by decide) hx hxj hw
  refine h.update (i := j) (· = p) hbk hpcb rfl rfl ?_ ?_ ?_ ?_ ?_ ?_ ?_ ?_ ?_
    (fun _ _ => by rw [← hdy]; exact Iff.rfl) ?_ (fun _ _ hj => by
      show t.joined = _
      rw [ht]
      exact hj) (fun _ _ hf => hf)
  -- The new slot is a connected stream with nothing queued or parked.
  · refine
      { free := ?_, pcb := ?_, stream := ?_, noPcb := ?_, queue := ?_, rx := ?_, connect := ?_,
        send := ?_, dgram := ?_, udp := ?_, raw := ?_ } <;> rw [hbj]
    · intro hf
      rw [hs] at hf
      have hf : (a.slot j).inUse = false := hf
      rw [hj.inUse] at hf
      cases hf
    · intro p' hp'
      rw [hs] at hp'
      cases hp'
      refine ⟨_, hbp, rfl, ?_⟩
      have hok : (c.forSlot j).listen = false ∧ (c.forSlot j).err = .slot ∧
          (c.forSlot j).recv ≠ .queued ∧ (c.forSlot j).state.synced = true :=
        ⟨hcl, rfl, by simp [PcbView.forSlot], hcs⟩
      rcases hst with hst | hst <;> rw [hst] <;> exact hok
    · intro _
      rw [hs]
      exact hj.type
    · intro hn
      rw [hs] at hn
      cases hn
    · intro hne
      rw [hs] at hne
      exact absurd hj.q hne
    · intro _
      exact Or.inr hst
    · intro hne
      rw [hs] at hne
      exact absurd (hj.pending _) hne
    · intro hne
      rw [hs] at hne
      exact absurd (hj.pending _) hne
    · rw [hs]
      exact hi.dgram
    · rw [hs]
      exact hi.udp
    · rw [hs]
      exact hi.raw
  -- `p` was in no queue, so the entries keep their pcbs.
  · refine { queued := ?_, inHand := ?_, nodup := ?_, apart := ?_ }
    · intro k y hy
      rw [q] at hy
      obtain ⟨h4, p', c', h5, h6, h7⟩ := h.entries.queued k y hy
      exact ⟨h4, p', c', h5, by rw [hpcb p' fun he => hq k y hy (he ▸ h5)]; exact h6, h7⟩
    · intro y hy
      obtain ⟨hya, hyp⟩ := htent y hy
      obtain ⟨⟨p', c', h5, h6, h7⟩, h8⟩ := h.entries.inHand y hya
      refine ⟨⟨p', c', h5, by rw [hpcb p' fun he => hyp (he ▸ h5)]; exact h6, h7⟩, ?_⟩
      intro k z hz
      rw [q] at hz
      exact h8 k z hz
    · intro k
      rw [q]
      exact h.entries.nodup k
    · intro k l
      rw [q, q]
      exact h.entries.apart k l
  · rintro k - p' hp' rfl
    exact hslot k hp'
  · intro p' _ hp'
    rw [hj.tcp] at hp'
    cases hp'
  · rintro y p' (⟨k, hk⟩ | hy) hyp hp'
    · exact Or.inl ⟨k, y, by rw [q]; exact hk, rfl, rfl⟩
    · refine Or.inr ⟨y, ?_, rfl, rfl⟩
      show t.ent = some y
      rcases hent with ⟨h1, -⟩ | ⟨-, h2⟩
      · rw [h1]
        exact hy
      · rw [h2 y hy, Option.some.injEq] at hyp
        exact absurd hyp.symm hp'
  -- From here on `p` belongs to the slot.
  · rintro p' c' rfl hc'
    rw [hbp, Option.some.injEq] at hc'
    subst hc'
    right
    show (b.slot j).tcp = some p'
    rw [hbj, hs]
  · intro p' hp' hc'
    show t.conn = some p'
    rcases hconn with ⟨h1, -⟩ | ⟨-, h2⟩
    · rw [h1]
      exact hc'
    · rw [h2, Option.some.injEq] at hc'
      exact absurd hc'.symm hp'
  -- A connection still in hand is another one.
  · intro p' hp'
    have hcp : a.tok.conn = some p' ∧ p' ≠ p := by
      have hp' : t.conn = some p' := hp'
      rcases hconn with ⟨h1, h2⟩ | ⟨h1, -⟩
      · rw [h1] at hp'
        exact ⟨hp', fun he => h2 (he ▸ hp')⟩
      · rw [h1] at hp'
        cases hp'
    have hcn := h.conn p' hcp.1
    refine { fresh := ?_, slots := ?_, entries := ?_, inHand := ?_ }
    · rw [hpcb p' hcp.2]
      exact hcn.fresh
    · intro k hk
      by_cases hkj : k = j
      · subst hkj
        rw [hbj, hs] at hk
        exact hcp.2 (by simpa using hk.symm)
      · rw [hbk k hkj] at hk
        exact hcn.slots k hk
    · intro k
      rw [q]
      exact hcn.entries k
    · exact fun x hx => hcn.inHand x (htent x hx).1
  · refine h.sending_state (i := j) (s := s) rfl (fun _ => by rw [hs]; exact hj.inUse) ?_
      (by rw [hs]) (by show t.sending = _ ∧ t.hand = _ ∧ t.refs = _ ∧ t.dying = _
                       rw [ht]
                       exact ⟨rfl, rfl, rfl, rfl⟩)
    exact fun x hx hxj hw => (noSt x hx hxj hw).elim
  · intro _
    rw [hbj, hs]
    exact hj.inUse

/-- A connection in hand is queued at a listener. -/
theorem pushEntry (h : a.Disc) {i : SlotIdx} {p : PcbId} {e : EntId} {c : PcbView} {t : Tok}
    (hu : (a.slot i).inUse = true) (hs : (a.slot i).st = .listening)
    (hp : a.tok.conn = some p) (hc : a.pcb p = some c) (he : a.FreshEntry e)
    (hn : a.tok.ent = none) (ht : t = { a.tok with conn := none, owes := t.owes }) :
    (((a.slotSet i { a.slot i with
        q := (a.slot i).q ++ [{ id := e, newPcb := some p, listeningSlot := i }] }).pcbSet p
      (some (c.forEntry e))).setTok t).Disc := by
  have hcn := h.conn p hp
  obtain ⟨c1, h1, hfr⟩ := hcn.fresh
  rw [hc, Option.some.injEq] at h1
  subst h1
  let q := (a.slot i).q ++ [{ id := e, newPcb := some p, listeningSlot := i }]
  let b := ((a.slotSet i { a.slot i with q := q }).pcbSet p (some (c.forEntry e))).setTok t
  have hbi : b.slot i = { a.slot i with q := q } := by simp [b]
  have hbj : ∀ j, j ≠ i → b.slot j = a.slot j := by
    intro j hj
    simp [b, hj]
  have hpcb : ∀ p', p' ≠ p → b.pcb p' = a.pcb p' := by
    intro p' hp'
    simp [b, hp']
  have hbp : b.pcb p = some (c.forEntry e) := by simp [b]
  have htent : t.ent = none := by rw [ht]; exact hn
  have htconn : t.conn = none := by rw [ht]
  have hdy : t.dying = a.tok.dying := by rw [ht]
  have back : ∀ j, ∀ y ∈ (b.slot j).q, y ∈ (a.slot j).q ∨
      (j = i ∧ y.id = e ∧ y.newPcb = some p ∧ y.listeningSlot = i) := by
    intro j y hy
    by_cases hj : j = i
    · subst hj
      rw [hbi] at hy
      rcases List.mem_append.mp hy with hy | hy
      · exact Or.inl hy
      · rw [List.mem_singleton] at hy
        subst hy
        exact Or.inr ⟨rfl, rfl, rfl, rfl⟩
    · rw [hbj j hj] at hy
      exact Or.inl hy
  have forth : ∀ j, ∀ x ∈ (a.slot j).q, x ∈ (b.slot j).q := by
    intro j x hx
    by_cases hj : j = i
    · subst hj
      rw [hbi]
      exact List.mem_append_left _ hx
    · rw [hbj j hj]
      exact hx
  have tcp : ∀ j, (b.slot j).tcp = (a.slot j).tcp := by
    intro j
    by_cases hj : j = i
    · subst hj
      rw [hbi]
    · rw [hbj j hj]
  refine h.update (i := i) (· = p) hbj hpcb rfl rfl ?_ ?_ ?_ ?_ ?_ ?_ ?_ ?_ ?_
    (fun _ _ => by rw [← hdy]; exact Iff.rfl) ?_ (fun _ _ hj => by
      show t.joined = _
      rw [ht]
      exact hj) (fun _ _ hf => hf)
  · refine h.slotDisc_queue hbi (fun _ => ⟨hs, hu⟩) ?_ rfl rfl (by show t.joined = _; rw [ht])
      (by show t.dying = _; rw [ht])
    intro p' hp'
    exact hpcb p' fun heq => hcn.slots i (heq ▸ hp')
  -- The new entry is the only one that holds `p`.
  · refine { queued := ?_, inHand := ?_, nodup := ?_, apart := ?_ }
    · intro j y hy
      rcases back j y hy with hya | ⟨rfl, h1, h2, h3⟩
      · obtain ⟨h4, p', c', h5, h6, h7⟩ := h.entries.queued j y hya
        exact ⟨h4, p', c', h5,
          by rw [hpcb p' fun heq => hcn.entries j y hya (heq ▸ h5)]; exact h6, h7⟩
      · exact ⟨h3, p, _, h2, hbp, hfr.listen, by rw [h1]; rfl, rfl, rfl, hfr.sent, hfr.poll,
          hfr.state⟩
    · intro y hy
      rw [show b.tok.ent = none from htent] at hy
      cases hy
    · intro j
      by_cases hj : j = i
      · subst hj
        rw [hbi]
        show (((a.slot j).q ++ [_]).map TnAcceptEntry.id).Nodup
        rw [List.map_append, List.nodup_append]
        refine ⟨h.entries.nodup j, List.nodup_singleton _, ?_⟩
        rintro x hx y hy rfl
        obtain ⟨z, hz, rfl⟩ := List.mem_map.mp hx
        exact he j z hz (by simpa using hy)
      · rw [hbj j hj]
        exact h.entries.nodup j
    · intro j k x hx y hy hxy
      rcases back j x hx with hx | ⟨hj, h1, -⟩ <;> rcases back k y hy with hy | ⟨hk, h2, -⟩
      · exact h.entries.apart j k x hx y hy hxy
      · exact absurd (hxy.trans h2) (he j x hx)
      · exact absurd (hxy.symm.trans h1) (he k y hy)
      · rw [hj, hk]
  · rintro j - p' hp' rfl
    exact hcn.slots j hp'
  · intro p' _ hp'
    rw [tcp]
    exact hp'
  · rintro y p' (⟨j, hj⟩ | hy) - -
    · exact Or.inl ⟨j, y, forth j y hj, rfl, rfl⟩
    · rw [hn] at hy
      cases hy
  · rintro p' c' rfl hc'
    rw [hbp, Option.some.injEq] at hc'
    subst hc'
    right
    left
    refine ⟨i, { id := e, newPcb := some p', listeningSlot := i }, ?_, rfl, rfl⟩
    rw [hbi]
    exact List.mem_append_right _ (List.mem_singleton.mpr rfl)
  · intro p' hp' hc'
    rw [hp, Option.some.injEq] at hc'
    exact absurd hc'.symm hp'
  · intro p' hp'
    rw [show b.tok.conn = none from htconn] at hp'
    cases hp'
  · refine h.sending_slot (i := i) rfl ⟨rfl, rfl, rfl⟩ (by show t.sending = _; rw [ht])
      (by show t.hand = _; rw [ht]) ?_ ?_
    · intro j hj
      have hj : j ∈ t.refs := hj
      rw [ht] at hj
      exact hj
    · intro j hj
      have hj : j ∈ t.dying := hj
      rw [hdy] at hj
      exact Or.inl hj
  · intro _
    rw [hbi]
    exact hu

/-- The first queued connection comes in hand. -/
theorem popEntry (h : a.Disc) {i : SlotIdx} {x : TnAcceptEntry} {rest : List TnAcceptEntry}
    (hq : (a.slot i).q = x :: rest) (hn : a.tok.ent = none) :
    ((a.slotSet i { a.slot i with q := rest }).setTok { a.tok with ent := some x }).Disc := by
  let b := (a.slotSet i { a.slot i with q := rest }).setTok { a.tok with ent := some x }
  have hx : x ∈ (a.slot i).q := by rw [hq]; exact List.mem_cons_self ..
  have hbi : b.slot i = { a.slot i with q := rest } := by simp [b]
  have hbj : ∀ j, j ≠ i → b.slot j = a.slot j := by
    intro j hj
    simp [b, hj]
  have hnd := h.entries.nodup i
  rw [hq, List.map_cons, List.nodup_cons] at hnd
  -- The entries that stay have other ids.
  have back : ∀ j, ∀ y ∈ (b.slot j).q, y ∈ (a.slot j).q ∧ y.id ≠ x.id := by
    intro j y hy
    by_cases hj : j = i
    · subst hj
      rw [hbi] at hy
      exact ⟨by rw [hq]; exact List.mem_cons_of_mem _ hy,
        fun he => hnd.1 (he ▸ List.mem_map_of_mem hy)⟩
    · rw [hbj j hj] at hy
      exact ⟨hy, fun he => hj (h.entries.apart j i y hy x hx he)⟩
  have tcp : ∀ j, (b.slot j).tcp = (a.slot j).tcp := by
    intro j
    by_cases hj : j = i
    · subst hj
      rw [hbi]
    · rw [hbj j hj]
  refine h.update (i := i) (fun _ => False) hbj (fun _ _ => rfl) rfl rfl ?_ ?_
    (fun _ _ _ _ hf => hf) ?_ ?_ (fun _ _ hf => hf.elim) (fun _ _ hc => hc) ?_ ?_
    (fun _ _ => Iff.rfl) ?_ (fun _ _ hj => hj) (fun _ _ hf => hf)
  · exact h.slotDisc_queue hbi (fun _ => h.listening_of_mem hx) (fun _ _ => rfl) rfl rfl rfl rfl
  · refine { queued := ?_, inHand := ?_, nodup := ?_, apart := ?_ }
    · intro j y hy
      exact h.entries.queued j y (back j y hy).1
    · intro y hy
      have hy : x = y := by simpa [b] using hy
      subst hy
      exact ⟨(h.entries.queued i x hx).2, fun j z hz => (back j z hz).2⟩
    · intro j
      by_cases hj : j = i
      · subst hj
        rw [hbi]
        exact hnd.2
      · rw [hbj j hj]
        exact h.entries.nodup j
    · intro j k y hy z hz
      exact h.entries.apart j k y (back j y hy).1 z (back k z hz).1
  · intro p _ hp
    rw [tcp]
    exact hp
  · rintro y p (⟨j, hj⟩ | hy) - -
    · by_cases hji : j = i
      · subst hji
        rw [hq] at hj
        rcases List.mem_cons.mp hj with hj | hj
        · exact Or.inr ⟨x, rfl, by rw [hj], by rw [hj]⟩
        · exact Or.inl ⟨j, y, by rw [hbi]; exact hj, rfl, rfl⟩
      · exact Or.inl ⟨j, y, by rw [hbj j hji]; exact hj, rfl, rfl⟩
    · rw [hn] at hy
      cases hy
  · refine h.conn_congr ?_ ?_ ?_ rfl (fun _ _ _ hc => hc)
    · intro j p hp
      exact ⟨j, by rw [← tcp]; exact hp⟩
    · intro j y hy _
      exact ⟨j, y, (back j y hy).1, rfl⟩
    · intro y hy
      have hy : x = y := by simpa [b] using hy
      exact Or.inr ⟨i, x, hx, by rw [hy]⟩
  · exact h.sending_slot (i := i) rfl ⟨rfl, rfl, rfl⟩ rfl rfl (fun _ hj => hj)
      (fun _ hj => Or.inl hj)
  · intro hm
    rw [hbi]
    exact h.dying i hm

/-- lwIP makes a pcb for an incoming connection. -/
theorem newConn (h : a.Disc) {p : PcbId} {c : PcbView} (hp : a.pcb p = none) (hc : c.Fresh)
    (hn : a.tok.conn = none) :
    ((a.pcbSet p (some c)).setTok { a.tok with conn := some p }).Disc := by
  have hpcb : ∀ p', p' ≠ p → (a.pcbSet p (some c)).pcb p' = a.pcb p' := by
    intro p' hp'
    simp [hp']
  have live : ∀ {p' c'}, a.pcb p' = some c' → p' ≠ p := by
    rintro p' c' hc' rfl
    rw [hp] at hc'
    cases hc'
  have noSlot : ∀ j, (a.slot j).tcp ≠ some p := by
    intro j hj
    obtain ⟨c', h1, -⟩ := (h.slots j).pcb p hj
    exact live h1 rfl
  have noEntry : ∀ j, ∀ y ∈ (a.slot j).q, y.newPcb ≠ some p := by
    intro j y hy he
    obtain ⟨-, p', c', h1, h2, -⟩ := h.entries.queued j y hy
    rw [he, Option.some.injEq] at h1
    exact live h2 h1.symm
  refine h.update (i := 0) (· = p) (fun _ _ => rfl) hpcb rfl rfl ?_ ?_ ?_ (fun _ _ hp => hp) ?_
    (fun p' c' he _ => Or.inl (by rw [he]; rfl)) ?_ ?_ ?_ (fun _ _ => Iff.rfl) (fun hm => h.dying 0 hm)
    (fun _ _ hj => hj) (fun _ _ hf => hf)
  · refine h.slotDisc_same rfl ?_ rfl rfl rfl rfl
    intro p' hp'
    exact hpcb p' fun he => noSlot 0 (he ▸ hp')
  · refine h.entries_congr (fun _ => rfl) rfl ?_
    intro p' c' _ hc' _
    show (a.pcbSet p (some c)).pcb p' = some c'
    rw [hpcb p' (live hc')]
    exact hc'
  · rintro j - p' hp' rfl
    exact noSlot j hp'
  · rintro y p' (⟨j, hj⟩ | hy) - -
    · exact Or.inl ⟨j, y, hj, rfl, rfl⟩
    · exact Or.inr ⟨y, hy, rfl, rfl⟩
  · intro p' _ hc'
    rw [hn] at hc'
    cases hc'
  · intro p' hp'
    have hp' : p = p' := by simpa using hp'
    subst hp'
    refine { fresh := ⟨c, by simp, hc⟩, slots := noSlot, entries := noEntry, inHand := ?_ }
    intro y hy he
    obtain ⟨⟨p', c', h1, h2, -⟩, -⟩ := h.entries.inHand y hy
    rw [he, Option.some.injEq] at h1
    exact live h2 h1.symm
  · exact h.sending_rest rfl rfl (fun s hs => (h.sending s hs).hand) rfl rfl

/-! ## Datagram pcbs -/

/-- A change of the datagram pcb of one slot keeps the discipline. -/
theorem dgramStep (h : a.Disc) {i : SlotIdx} {s : SlotView}
    (hslot : a'.slot = Function.update a.slot i s)
    (hs : s = { a.slot i with udp := s.udp, raw := s.raw })
    (hfree : (a.slot i).inUse = false → s.udp = none ∧ s.raw = none)
    (hd : s.udp.isSome = true ∨ s.raw.isSome = true → (a.slot i).type ≠ sockStream)
    (hudp : ∀ j p, (a'.slot j).udp = some p ↔ a'.udp p = some j)
    (hraw : ∀ j p, (a'.slot j).raw = some p ↔ a'.raw p = some j)
    (hpcb : a'.pcb = a.pcb) (ht : a'.tok = a.tok) (hlog : a'.log = a.log) : a'.Disc := by
  have hsi : a'.slot i = s := by rw [hslot, Function.update_self]
  have hsj : ∀ j, j ≠ i → a'.slot j = a.slot j := by
    intro j hj
    rw [hslot, Function.update_of_ne hj]
  have same : ∀ j, a'.slot j = { a.slot j with udp := (a'.slot j).udp, raw := (a'.slot j).raw } := by
    intro j
    by_cases hj : j = i
    · subst hj
      rw [hsi]
      exact hs
    · rw [hsj j hj]
  -- The clauses of streams read nothing that changed.
  have q : ∀ j, (a'.slot j).q = (a.slot j).q := fun j => by rw [same j]
  have tcp : ∀ j, (a'.slot j).tcp = (a.slot j).tcp := fun j => by rw [same j]
  have owned : ∀ p c, a.Owned p c → a'.Owned p c := by
    intro p c ho
    unfold Owned at ho ⊢
    rw [ht]
    split <;> rename_i hx <;> rw [hx] at ho
    · rw [tcp]
      exact ho
    · simp only [q]
      exact ho
    · exact ho
  refine
    { slots := ?_, entries := ?_, owned := ?_, conn := ?_, sending := ?_, dying := ?_,
      faults := by rw [hlog]; exact h.faults }
  · intro j
    have hj := h.slots j
    refine
      { free := ?_, pcb := ?_, stream := ?_, noPcb := ?_, queue := ?_, rx := ?_, connect := ?_,
        send := ?_, dgram := ?_, udp := hudp j, raw := hraw j }
    · intro hf
      rw [same j] at hf ⊢
      obtain ⟨h1, h2, h3, h4, h5, h6⟩ := hj.free hf
      by_cases hji : j = i
      · subst hji
        rw [hsi]
        exact ⟨h1, h2, (hfree hf).1, (hfree hf).2, h5, h6⟩
      · rw [hsj j hji]
        exact ⟨h1, h2, h3, h4, h5, h6⟩
    · rw [same j, hpcb]; exact hj.pcb
    · rw [same j]; exact hj.stream
    · rw [same j, ht]; exact hj.noPcb
    · rw [same j]; exact hj.queue
    · rw [same j]; exact hj.rx
    · rw [same j, ht]; exact hj.connect
    · rw [same j]; exact hj.send
    · by_cases hji : j = i
      · subst hji
        rw [hsi, hs]
        exact hd
      · rw [hsj j hji]
        exact hj.dgram
  · refine h.entries_congr q (by rw [ht]) ?_
    intro p c _ hc _
    rw [hpcb]
    exact hc
  · intro p c hc
    rw [hpcb] at hc
    rw [ht]
    exact (h.owned p c hc).imp_right (owned p c)
  · refine h.conn_congr ?_ ?_ (fun x hx => Or.inl (by rw [← ht]; exact hx)) (by rw [ht]) ?_
    · intro j p hp
      exact ⟨j, by rw [← tcp]; exact hp⟩
    · intro j y hy _
      exact ⟨j, y, by rw [← q]; exact hy, rfl⟩
    · intro p c _ hc
      rw [hpcb]
      exact hc
  · refine h.sending_slot hslot ?_ (by rw [ht]) (by rw [ht]) (by rw [ht]; exact fun _ hj => hj)
      (by rw [ht]; exact fun _ hj => Or.inl hj)
    rw [hs]
    exact ⟨rfl, rfl, rfl⟩
  · intro j hj
    rw [ht] at hj
    rw [same j]
    exact h.dying j hj

/-- Who holds a datagram pcb after slot `i` got or lost `p`. -/
theorem dgram_iff {f : SlotIdx → Option PcbId} {g : PcbId → Option SlotIdx} {i : SlotIdx}
    {p : PcbId} {v : Option PcbId} {u : Option SlotIdx} (hfg : ∀ j q, f j = some q ↔ g q = some j)
    (hv : v = some p ∧ u = some i ∧ f i = none ∧ g p = none ∨
      v = none ∧ u = none ∧ f i = some p) (j : SlotIdx) (q : PcbId) :
    Function.update f i v j = some q ↔ Function.update g p u q = some j := by
  by_cases hj : j = i <;> by_cases hq : q = p
  · subst hj hq
    rcases hv with ⟨rfl, rfl, -⟩ | ⟨rfl, rfl, -⟩ <;> simp
  · subst hj
    rw [Function.update_self, Function.update_of_ne hq]
    rcases hv with ⟨rfl, -, h1, -⟩ | ⟨rfl, -, h1⟩
    · rw [← hfg, h1]
      simp [Ne.symm hq]
    · rw [← hfg, h1]
      simp [Ne.symm hq]
  · subst hq
    rw [Function.update_of_ne hj, Function.update_self, hfg]
    rcases hv with ⟨-, rfl, -, h1⟩ | ⟨-, rfl, h1⟩
    · rw [h1]
      simp [Ne.symm hj]
    · rw [(hfg i q).mp h1]
      simp [Ne.symm hj]
  · rw [Function.update_of_ne hj, Function.update_of_ne hq, hfg]

/-- One field of a slot after one slot has changed. -/
theorem update_field {β : Type} (f : SlotView → β) (g : SlotIdx → SlotView) (i : SlotIdx)
    (s : SlotView) (j : SlotIdx) :
    f (Function.update g i s j) = Function.update (fun k => f (g k)) i (f s) j := by
  by_cases hj : j = i
  · subst hj
    simp
  · simp [hj]

/-! ## All acts -/

/-- The acts on connections keep the discipline. -/
theorem tcp {P : Label → Prop} (h : a.Disc) (ha : TcpAct P a a') : a'.Disc := by
  have retok : ∀ {b : Abs} {t : Tok}, b.Disc → t = { b.tok with owes := t.owes, serve := t.serve } →
      (b.setTok t).Disc := by
    intro b t hb ht
    refine hb.congr_rest rfl rfl rfl rfl (by rw [setTok_tok, ht]; exact ⟨rfl, rfl, rfl, rfl⟩)
      (hb.sending_rest rfl (by rw [setTok_tok, ht]) ?_ (by rw [setTok_tok, ht])
        (by rw [setTok_tok, ht])) (fun _ _ hf => hf)
    intro s hs
    rw [setTok_tok, ht]
    exact (hb.sending s hs).hand
  have inHandFacts : ∀ {x p c}, a.tok.ent = some x → x.newPcb = some p → a.pcb p = some c →
      (∀ k, (a.slot k).tcp ≠ some p) ∧ a.tok.conn ≠ some p ∧ Queued c x.id := by
    intro x p c hx hp hc
    obtain ⟨⟨p', c', h1, h2, h3⟩, -⟩ := h.entries.inHand x hx
    rw [hp, Option.some.injEq] at h1
    rw [← h1, hc, Option.some.injEq] at h2
    subst h2
    exact ⟨fun k hk => h.slot_not_queued hk hc h3, fun hcn => (h.conn p hcn).inHand x hx hp, h3⟩
  -- a slot that holds a pcb in state `CLOSED` has had no traffic
  have closedIdle : ∀ {i p}, (a.slot i).tcp = some p → (a.slot i).st = .closed →
      a.tok.joined ≠ some i → (a.slot i).rx = [] ∧ (a.slot i).pending .send = none ∧
      (a.slot i).pending .connect = none ∧ (a.slot i).q = [] := by
    intro i p ht hs hj
    have hi := h.slots i
    refine ⟨?_, ?_, ?_, ?_⟩ <;> by_contra hne
    · rcases hi.rx hne with h1 | h1 | h1
      · exact absurd (ht.symm.trans h1) (by simp)
      · exact absurd (hs.symm.trans h1) (by decide)
      · exact absurd (hs.symm.trans h1) (by decide)
    · rcases hi.send hne with h1 | h1 | h1
      · exact absurd (ht.symm.trans h1) (by simp)
      · exact absurd (hs.symm.trans h1) (by decide)
      · exact absurd (hs.symm.trans h1) (by decide)
    · rcases hi.connect hne with h1 | h1 | h1
      · exact absurd (hs.symm.trans h1) (by decide)
      · exact absurd (ht.symm.trans h1) (by simp)
      · exact hj h1
    · exact absurd (hs.symm.trans (hi.queue hne)) (by decide)
  cases ha with
  | new i p hu hp hl =>
    exact h.acquire hu.inUse hu.tcp hu.st hp hu.rx (hu.pending _) (hu.pending _) hu.type rfl rfl
      (by rw [show ({ a.slot i with tcp := some p } : SlotView).st = .closed from hu.st]
          exact ⟨rfl, rfl, by simp [PcbView.new], rfl⟩) hu.q
  | listen i p l c hu ht hs hc hl hsn hj hal =>
    obtain ⟨harg, hlk⟩ := h.slot_pcb ht hc
    rw [hs] at hlk
    have hi := h.slots i
    have hne : l ≠ p := by
      rintro rfl
      rw [hl] at hc
      cases hc
    have idle := closedIdle ht hs hj
    -- the slot lets go of its pcb, then takes the listen pcb
    have h1 : (((a.slotSet i { a.slot i with tcp := none }).pcbSet p none).setTok a.tok).Disc :=
      h.release hu ht (by simp) rfl (Or.inl hs)
        (fun hq => absurd ((hi.queue hq).symm.trans hs) (by decide)) (fun _ => Or.inl hsn) rfl
    have h2 := h1.acquire (i := i) (p := l) (c := .newListen i)
      (s := { a.slot i with tcp := some l, st := .listening }) (by simpa using hu) (by simp)
      (by simpa using hs) (by simp [hne, hl]) (by simpa using idle.1) (by simpa using idle.2.1)
      (by simpa using idle.2.2.1) (by simpa using hi.stream (by rw [ht]; rfl)) (by simp) rfl rfl
      (by simpa using idle.2.2.2)
    simpa [slotSet, pcbSet, setTok] using h2
  | connect i p c hu ht hs hc hj =>
    obtain ⟨harg, hlk⟩ := h.slot_pcb ht hc
    rw [hs] at hlk
    have hi := h.slots i
    have idle := closedIdle ht hs hj
    exact h.advance (t := a.tok) hu ht hc rfl ⟨hlk.1, hlk.2.1, by simp, rfl⟩
      (fun hq => absurd idle.2.2.2 hq) (fun hr => absurd idle.1 hr) (fun _ => Or.inl rfl)
      (fun hr => absurd idle.2.1 hr)
      (fun x hx hxi hw => (h.not_sending hs (by decide) hx hxi hw).elim) (fun _ _ hj => hj) rfl
  | regs i p c hu ht hs hc =>
    exact h.tweak hc ⟨rfl, rfl, rfl⟩ (Or.inl rfl) (Or.inr ⟨⟨i, ht⟩, Or.inr (by simp)⟩)
  | state p c st hc hs hs' =>
    exact h.tweak hc ⟨rfl, rfl, rfl⟩ (Or.inr ⟨hs, hs'⟩) (Or.inl ⟨rfl, rfl, rfl⟩)
  | space p c n q hc =>
    exact retok (h.tweak hc ⟨rfl, rfl, rfl⟩ (Or.inl rfl) (Or.inl ⟨rfl, rfl, rfl⟩)) rfl
  | gone p c hc ha hn =>
    have noSlot : ∀ j, (a.slot j).tcp ≠ some p := by
      intro j hj
      rw [(h.slot_pcb hj hc).1] at ha
      cases ha
    have noEnt : ∀ {e}, ¬ Queued c e := fun hx => by
      rw [hx.arg] at ha
      cases ha
    refine h.pcbOut (t := a.tok) noSlot ?_ (Or.inl ⟨rfl, by rw [hn]; simp⟩) (Or.inl ⟨rfl, ?_⟩) rfl
    · intro j y hy he
      obtain ⟨-, p', c', h1, h2, h3⟩ := h.entries.queued j y hy
      rw [he, Option.some.injEq] at h1
      rw [← h1, hc, Option.some.injEq] at h2
      exact noEnt (h2 ▸ h3)
    · intro y hy he
      obtain ⟨⟨p', c', h1, h2, h3⟩, -⟩ := h.entries.inHand y hy
      rw [he, Option.some.injEq] at h1
      rw [← h1, hc, Option.some.injEq] at h2
      exact noEnt (h2 ▸ h3)
  | connected i p c hu ht hc hcl hs hj =>
    obtain ⟨harg, hlk⟩ := h.slot_pcb ht hc
    have hst : (a.slot i).st = .connecting := by
      cases hx : (a.slot i).st with
      | connecting => rfl
      | closed =>
        rw [hx] at hlk
        exact absurd (hlk.2.2.2.symm.trans hs) (by decide)
      | established =>
        rw [hx] at hlk
        have := hlk.2.2.2
        rw [hs] at this
        cases this
      | peerClosed =>
        rw [hx] at hlk
        have := hlk.2.2.2
        rw [hs] at this
        cases this
      | listening =>
        rw [hx] at hlk
        rw [show c.listen = true from hlk] at hcl
        cases hcl
      | error =>
        rw [hx] at hlk
        exact hlk.elim
    rw [hst] at hlk
    have hi := h.slots i
    refine h.advance hu ht hc rfl ⟨hlk.1, hlk.2.1, hlk.2.2.1, rfl⟩
      (fun hq => absurd ((hi.queue hq).symm.trans hst) (by decide)) (fun _ => Or.inl rfl)
      (fun _ => Or.inr rfl) (fun _ => Or.inl rfl) (fun _ _ _ _ => Or.inl rfl) ?_ rfl
    intro j _ hj'
    rw [hj] at hj'
    cases hj'
  | joined i hj hp =>
    refine h.congr (fun _ => ⟨rfl, rfl, rfl, rfl, rfl, rfl, rfl⟩)
      (fun j hf => ⟨((h.slots j).free hf).1, ((h.slots j).free hf).2.2.2.2.2⟩)
      (fun j => (h.slots j).rx) ?_ (fun j => (h.slots j).send) rfl rfl rfl rfl rfl rfl
      (h.sending_rest rfl rfl (fun s hs => (h.sending s hs).hand) rfl rfl) (fun _ _ hf => hf)
    intro j hne
    rcases (h.slots j).connect hne with h1 | h1 | h1
    · exact Or.inl h1
    · exact Or.inr (Or.inl h1)
    · rw [hj, Option.some.injEq] at h1
      exact absurd (h1 ▸ hp) hne
  | fin i p hu ht hs =>
    obtain ⟨c, hc, harg, hlk⟩ := (h.slots i).pcb p ht
    have hi := h.slots i
    have hlk' : Linked c .peerClosed := by
      rcases hs with hs | hs <;> rw [hs] at hlk <;> exact hlk
    have hpc : (a.slotSet i { a.slot i with st := .peerClosed }).setTok
          ((a.tok.owe i .read).due i .recv) =
        ((a.slotSet i { a.slot i with st := .peerClosed }).pcbSet p (some c)).setTok
          ((a.tok.owe i .read).due i .recv) := by
      simp only [setTok, pcbSet, slotSet, ← hc, Function.update_eq_self]
    rw [hpc]
    refine h.advance hu ht hc rfl hlk' ?_ (fun _ => Or.inr rfl) ?_ (fun _ => Or.inr rfl)
      (fun _ _ _ _ => Or.inr rfl) (fun _ _ hj => hj) rfl
    · intro hq
      rcases hs with hs | hs <;> exact absurd ((hi.queue hq).symm.trans hs) (by decide)
    · intro hne
      rcases hi.connect hne with h1 | h1 | h1
      · rcases hs with hs | hs <;> exact absurd (h1.symm.trans hs) (by decide)
      · rw [ht] at h1
        cases h1
      · exact Or.inr h1
  | release i p o st wr er hu ht ho hc hls hst =>
    exact h.release hu ht ho rfl hst (fun hq => hls ((h.slots i).queue hq)) hc rfl
  | entData i e seg =>
    exact h.modEntries_disc fun x => ⟨rfl, rfl, rfl⟩
  | entFin i e =>
    exact h.modEntries_disc fun x => ⟨rfl, rfl, rfl⟩
  | entGone i x p hx hp =>
    refine h.entryOut hx hp (List.eraseP_sublist) ?_ (fun y hy hne => mem_eraseP_id hy hne)
    intro y hy he
    have hnd := h.entries.nodup i
    have herase : ((a.slot i).q.eraseP (·.id == x.id)).map TnAcceptEntry.id
        = ((a.slot i).q.map TnAcceptEntry.id).erase x.id := by
      rw [List.erase_eq_eraseP', List.eraseP_map]
      rfl
    have hmem : y.id ∈ ((a.slot i).q.map TnAcceptEntry.id).erase x.id := by
      rw [← herase]
      exact List.mem_map_of_mem hy
    exact ((hnd.mem_erase_iff).mp hmem).1 he
  | newConn p c hp hc hn => exact h.newConn hp hc hn
  | abortConn p hp =>
    have hcn := h.conn p hp
    exact h.pcbOut hcn.slots hcn.entries (Or.inr ⟨rfl, hp⟩) (Or.inl ⟨rfl, hcn.inHand⟩) rfl
  | pushEntry i p e c hu hs hd hp hc he hn => exact h.pushEntry hu hs hp hc he hn rfl
  | adopt j p c hj hp hc =>
    have hcn := h.conn p hp
    obtain ⟨c1, h1, hfr⟩ := hcn.fresh
    rw [hc, Option.some.injEq] at h1
    subst h1
    exact h.adopt hj hcn.slots hcn.entries rfl (Or.inl rfl) hfr.listen hfr.state
      (Or.inr ⟨rfl, hp⟩) (Or.inl ⟨rfl, hcn.inHand⟩) rfl
  | popEntry i x rest hq hn => exact h.popEntry hq hn
  | takeEntry j x p c hj hx hp hc =>
    obtain ⟨hslots, hconn, hqd⟩ := inHandFacts hx hp hc
    refine h.adopt hj hslots (fun k y hy => h.inHand_apart hx hp hy) rfl ?_ hqd.listen hqd.state
      (Or.inl ⟨rfl, hconn⟩) (Or.inr ⟨rfl, ?_⟩) rfl
    · show (if x.peerClosed then _ else _) = _ ∨ _
      cases x.peerClosed
      · exact Or.inl rfl
      · exact Or.inr rfl
    · intro y hy
      rw [hx, Option.some.injEq] at hy
      exact hy ▸ hp
  | freeEntry x p hx hp =>
    obtain ⟨⟨p', c, h1, hc, -⟩, -⟩ := h.entries.inHand x hx
    rw [hp, Option.some.injEq] at h1
    subst h1
    obtain ⟨hslots, hconn, -⟩ := inHandFacts hx hp hc
    refine h.pcbOut hslots (fun k y hy => h.inHand_apart hx hp hy) (Or.inl ⟨rfl, hconn⟩)
      (Or.inr ⟨rfl, ?_⟩) rfl
    intro y hy
    rw [hx, Option.some.injEq] at hy
    exact hy ▸ hp
  | dropEntry i x rest p hq hp =>
    have hnd := h.entries.nodup i
    rw [hq, List.map_cons, List.nodup_cons] at hnd
    refine h.entryOut (x := x) (by rw [hq]; exact List.mem_cons_self ..) hp
      (by rw [hq]; exact List.sublist_cons_self ..) ?_ ?_
    · intro y hy he
      exact hnd.1 (he ▸ List.mem_map_of_mem hy)
    · intro y hy hne
      rw [hq] at hy
      exact (List.mem_cons.mp hy).resolve_left fun he => hne (by rw [he])
  | newUdp i p hu ht hn hp =>
    refine h.dgramStep (i := i) rfl rfl ?_ (fun _ => ht) ?_ ?_ rfl rfl rfl
    · intro hf
      rw [hu] at hf
      cases hf
    · intro j q
      rw [slotSet_slot, update_field SlotView.udp]
      exact dgram_iff (fun j q => (h.slots j).udp q) (Or.inl ⟨rfl, rfl, hn, hp⟩) j q
    · intro j q
      rw [slotSet_slot, update_field SlotView.raw, Function.update_eq_self]
      exact (h.slots j).raw q
  | freeUdp i p hu =>
    refine h.dgramStep (i := i) rfl rfl ?_ ?_ ?_ ?_ rfl rfl rfl
    · intro hf
      exact ⟨rfl, ((h.slots i).free hf).2.2.2.1⟩
    · rintro (hd | hd)
      · cases hd
      · exact (h.slots i).dgram (Or.inr hd)
    · intro j q
      rw [slotSet_slot, update_field SlotView.udp]
      exact dgram_iff (fun j q => (h.slots j).udp q) (Or.inr ⟨rfl, rfl, hu⟩) j q
    · intro j q
      rw [slotSet_slot, update_field SlotView.raw, Function.update_eq_self]
      exact (h.slots j).raw q
  | newRaw i p hu ht hn hp =>
    refine h.dgramStep (i := i) rfl rfl ?_ (fun _ => ht) ?_ ?_ rfl rfl rfl
    · intro hf
      rw [hu] at hf
      cases hf
    · intro j q
      rw [slotSet_slot, update_field SlotView.udp, Function.update_eq_self]
      exact (h.slots j).udp q
    · intro j q
      rw [slotSet_slot, update_field SlotView.raw]
      exact dgram_iff (fun j q => (h.slots j).raw q) (Or.inl ⟨rfl, rfl, hn, hp⟩) j q
  | freeRaw i p hu =>
    refine h.dgramStep (i := i) rfl rfl ?_ ?_ ?_ ?_ rfl rfl rfl
    · intro hf
      exact ⟨((h.slots i).free hf).2.2.1, rfl⟩
    · rintro (hd | hd)
      · exact (h.slots i).dgram (Or.inl hd)
      · cases hd
    · intro j q
      rw [slotSet_slot, update_field SlotView.udp, Function.update_eq_self]
      exact (h.slots j).udp q
    · intro j q
      rw [slotSet_slot, update_field SlotView.raw]
      exact dgram_iff (fun j q => (h.slots j).raw q) (Or.inr ⟨rfl, rfl, hu⟩) j q

end Disc

end Abs

end Tolunnet
