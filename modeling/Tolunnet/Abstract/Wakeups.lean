import Tolunnet.Abstract.Sound

/-!
# `Tolunnet.Abstract.Wakeups`: every wakeup is sent or owed

A slot that becomes ready for reading, for writing or exceptionally has to be signalled at a moment
when it is. `Awake` compares with an earlier state: a slot that is ready now and was not then has
been signalled since, or the wakeup is still in `owes`. Every act either leaves the readiness as it
is, or takes some of it away, or owes the wakeup; and `tn_signal_socket` pays.
-/

set_option autoImplicit false

namespace Tolunnet

/-- Whether an event is a signal to slot `i` that finds it ready for `r`. -/
def Event.wakes (i : SlotIdx) (r : Ready) : Event → Bool
  | .signalSocket j canRead canWrite hasExcept =>
    j == i && (match r with
      | .read => canRead
      | .write => canWrite
      | .except => hasExcept)
  | _ => false

/-- `s'` is ready for no more than `s`, if their pcb has no more room. -/
structure SlotView.Within (s s' : SlotView) : Prop where
  inUse : s'.inUse = true → s.inUse = true
  type : s'.type = s.type
  st : s'.st = s.st
  tcp : s'.tcp = s.tcp
  shutWr : s'.shutWr = s.shutWr
  rx : s.rx = [] → s'.rx = []
  q : s.q = [] → s'.q = []
  send : s'.pending .send = none → s.pending .send = none
  err : s'.err = true → s.err = true

namespace Abs

variable {P : Label → Prop} {a a' : Abs} {i : SlotIdx} {l : List Event}
  {R : SlotIdx → Ready → Prop}

/-- No slot's pcb has more room than before. -/
def Roomless (a a' : Abs) : Prop :=
  ∀ i p c', (a.slot i).tcp = some p → a'.pcb p = some c' → c'.space = true →
    ∃ c, a.pcb p = some c ∧ c.space = true

theorem Roomless.same (h : a'.pcb = a.pcb) : a.Roomless a' :=
  fun _ _ c' _ hc hs => ⟨c', h ▸ hc, hs⟩

/-- A pcb changes that nobody has, or that has no more room afterwards. -/
theorem Roomless.set {p : PcbId} {o : Option PcbView} (h : a'.pcb = Function.update a.pcb p o)
    (ho : ∀ c', o = some c' → c'.space = true →
      (∃ c, a.pcb p = some c ∧ c.space = true) ∨ ∀ i, (a.slot i).tcp ≠ some p) :
    a.Roomless a' := by
  intro i q c' hq hc hs
  rw [h] at hc
  by_cases he : q = p
  · subst he
    rw [Function.update_self] at hc
    exact (ho c' hc hs).resolve_right fun none => none i hq
  · rw [Function.update_of_ne he] at hc
    exact ⟨c', hc, hs⟩

/-- A slot in bounds is ready for no more than before. -/
theorem ready_of_within (h : (a.slot i).Within (a'.slot i)) (hroom : a.Roomless a') (r : Ready)
    (hr : a'.ready i r = true) : a.ready i r = true := by
  have isEmpty : ∀ {α : Type} {l l' : List α}, (l = [] → l' = []) → (!l'.isEmpty) = true →
      (!l.isEmpty) = true := by
    intro α l l' hl hn
    cases l with
    | nil => rw [hl rfl] at hn; exact hn
    | cons => rfl
  cases r with
  | read =>
    simp only [ready, SlotView.canRead, Bool.and_eq_true, Bool.or_eq_true, h.st] at hr ⊢
    exact ⟨h.inUse hr.1, hr.2.imp (Or.imp_left (Or.imp_left (isEmpty h.rx)))
      (And.imp_right (isEmpty h.q))⟩
  | write =>
    simp only [ready, SlotView.canWrite, Bool.and_eq_true, Bool.or_eq_true, h.st, h.type, h.shutWr,
      h.tcp] at hr ⊢
    refine ⟨h.inUse hr.1, hr.2.imp_right (And.imp_right (Or.imp_right fun room => ?_))⟩
    cases ht : (a.slot i).tcp with
    | none => rw [ht] at room; cases room
    | some p =>
      rw [ht] at room
      simp only [Bool.and_eq_true, Option.isNone_iff_eq_none, Option.any_eq_true] at room ⊢
      obtain ⟨idle, c', hc, hs⟩ := room
      obtain ⟨c, hc', hs'⟩ := hroom i p c' ht hc hs
      exact ⟨h.send idle, c, hc', hs'⟩
  | except =>
    simp only [ready, SlotView.hasExcept, Bool.and_eq_true, Bool.or_eq_true, h.st] at hr ⊢
    exact ⟨h.inUse hr.1, hr.2.imp_right h.err⟩

/-- What was not ready when the log was `l`, and is now, has been signalled since or is owed. -/
structure Awake (l : List Event) (R : SlotIdx → Ready → Prop) (a : Abs) : Prop where
  suffix : l <:+ a.log
  woken : ∀ i r, (i, r) ∉ a.tok.owes → a.ready i r = true →
    R i r ∨ ∃ new, a.log = new ++ l ∧ ∃ e ∈ new, e.wakes i r = true

namespace Awake

/-- At the start. -/
theorem start (a : Abs) : Awake a.log (fun i r => a.ready i r = true) a :=
  ⟨List.suffix_rfl, fun _ _ _ hr => Or.inl hr⟩

/-- Nothing becomes ready without being owed. -/
theorem keep (h : a.Awake l R) (hlog : a.log <:+ a'.log) (howes : a.tok.owes ⊆ a'.tok.owes)
    (hr : ∀ i r, (i, r) ∉ a'.tok.owes → a'.ready i r = true → a.ready i r = true) :
    a'.Awake l R where
  suffix := h.suffix.trans hlog
  woken := fun i r hn hready => by
    refine (h.woken i r (fun ho => hn (howes ho)) (hr i r hn hready)).imp_right ?_
    rintro ⟨new, he, e, hm, hw⟩
    obtain ⟨more, hmore⟩ := hlog
    exact ⟨more ++ new, by rw [← hmore, he, List.append_assoc], e, List.mem_append_right _ hm, hw⟩

/-- No slot changes. -/
theorem same (h : a.Awake l R) (hslot : a'.slot = a.slot) (hroom : a.Roomless a')
    (hlog : a.log <:+ a'.log) (howes : a.tok.owes ⊆ a'.tok.owes) : a'.Awake l R :=
  h.keep hlog howes fun i r _ hr => ready_of_within
    (by rw [hslot]; exact ⟨id, rfl, rfl, rfl, rfl, id, id, id, id⟩) hroom r hr

/-- One slot changes. -/
theorem one (h : a.Awake l R) {s : SlotView} (hslot : a'.slot = Function.update a.slot i s)
    (hroom : a.Roomless a') (hlog : a.log <:+ a'.log) (howes : a.tok.owes ⊆ a'.tok.owes)
    (hs : ∀ r, (i, r) ∉ a'.tok.owes → a'.ready i r = true → a.ready i r = true) :
    a'.Awake l R := by
  refine h.keep hlog howes fun j r hn hr => ?_
  by_cases hj : j = i
  · subst hj
    exact hs r hn hr
  · refine ready_of_within ?_ hroom r hr
    rw [hslot, Function.update_of_ne hj]
    exact ⟨id, rfl, rfl, rfl, rfl, id, id, id, id⟩

/-- One slot changes and is ready for no more than before. -/
theorem field (h : a.Awake l R) {s : SlotView} (hslot : a'.slot = Function.update a.slot i s)
    (hroom : a.Roomless a') (hlog : a.log <:+ a'.log) (howes : a.tok.owes ⊆ a'.tok.owes)
    (hs : (a.slot i).Within s) : a'.Awake l R :=
  h.one hslot hroom hlog howes fun r _ hr => ready_of_within
    (by rw [hslot, Function.update_self]; exact hs) hroom r hr

/-- A field other than that of the send changes. -/
theorem within_setPend {s : SlotView} {k : Pend} {v : Option MsgId} (hk : k ≠ .send) :
    s.Within (s.setPend k v) :=
  ⟨id, rfl, rfl, rfl, rfl, id, id, fun hp => by simpa [SlotView.setPend, hk.symm] using hp, id⟩

/-- The acts on messages. -/
theorem msg (h : a.Awake l R) (ha : MsgAct P a a') : a'.Awake l R := by
  cases ha with
  | park i k m hm hs hu hk hw he hl =>
    exact h.field (i := i) rfl (.same rfl) List.suffix_rfl subset_rfl (within_setPend hk)
  | answer i k m r e hk hp =>
    exact h.field (i := i) rfl (.same rfl) (List.suffix_cons ..) subset_rfl (within_setPend hk)
  | take i m hp =>
    exact h.field (i := i) rfl (.same rfl) List.suffix_rfl subset_rfl
      (within_setPend (k := .accept) (by decide))
  | drop i k m hk hp hl =>
    exact h.field (i := i) rfl (.same rfl) List.suffix_rfl subset_rfl (within_setPend hk)
  | answerDns | answerStop | reply =>
    exact h.same rfl (.same rfl) (List.suffix_cons ..) subset_rfl
  | _ => exact h.same rfl (.same rfl) List.suffix_rfl subset_rfl

/-- A pcb that has been written to has no more room. -/
theorem wrote_space {data : List UInt8} {done : Nat} {bs : List (List UInt8)} {e : ErrT}
    {c c' : PcbView} (hb : Wrote data done bs e c c') (hs : c'.space = true) : c.space = true := by
  obtain ⟨n, q, hn, hq, rfl⟩ := hb.space
  simp only [PcbView.space, Bool.and_eq_true, decide_eq_true_eq] at hs ⊢
  omega

/-- A slot that loses its parked send may become writable if it has a pcb. -/
theorem ended {s : SlotView} (h : a.Awake l R) (hslot : a'.slot = Function.update a.slot i s)
    (hpcb : a'.pcb = a.pcb) (hlog : a.log <:+ a'.log)
    (htok : a'.tok = a.tok.oweSend i (a.slot i).tcp)
    (hs : s = { (a.slot i).setPend .send none with sendDone := 0, sendIov := none }) :
    a'.Awake l R := by
  have grown : a.tok.owes ⊆ a'.tok.owes := by
    rw [htok]
    show a.tok.owes ⊆ if (a.slot i).tcp.isSome then insert (i, .write) a.tok.owes else a.tok.owes
    split
    · exact Set.subset_insert ..
    · exact subset_rfl
  refine h.one hslot (.same hpcb) hlog grown fun r hn hr => ?_
  have here : a'.slot i = s := by rw [hslot, Function.update_self]
  cases r with
  | read => simpa [ready, here, hs, SlotView.canRead, SlotView.setPend] using hr
  | except => simpa [ready, here, hs, SlotView.hasExcept, SlotView.setPend] using hr
  | write =>
    cases ht : (a.slot i).tcp with
    | none => simpa [ready, here, hs, SlotView.canWrite, SlotView.setPend, ht] using hr
    | some p =>
      rw [htok, ht] at hn
      exact absurd (Set.mem_insert ..) hn

/-- The acts on stream sends. -/
theorem send (h : a.Awake l R) (ha : SendAct P a a') : a'.Awake l R := by
  cases ha with
  | start | cut | reply => exact h.same rfl (.same rfl) (List.suffix_cons ..) subset_rfl
  | passed => exact h.same rfl (.same rfl) List.suffix_rfl subset_rfl
  | write s p c c' bs e hs hw ht hc hb =>
    refine h.same rfl (.set (p := p) rfl fun c'' he hs => ?_) (List.suffix_append ..) subset_rfl
    cases he
    exact Or.inl ⟨c, hc, wrote_space hb hs⟩
  | resume i m p c c' bs e hu hm ht hc hb =>
    refine h.field (i := i) rfl (.set (p := p) rfl fun c'' he hs => ?_) (List.suffix_append ..)
      subset_rfl ⟨id, rfl, rfl, rfl, rfl, id, id, id, id⟩
    cases he
    exact Or.inl ⟨c, hc, wrote_space hb hs⟩
  | finish i m e hm he =>
    exact h.ended (i := i) rfl rfl ((List.suffix_cons ..).trans (List.suffix_cons ..)) rfl rfl
  | dropSend i m e hm hl => exact h.ended (i := i) rfl rfl (List.suffix_cons ..) rfl rfl
  | park s p c hs hm hw hp ht hc hl =>
    refine h.field (i := s.i) rfl (.set (p := p) rfl fun c'' he hs => ?_) List.suffix_rfl subset_rfl
      ⟨id, rfl, rfl, rfl, rfl, id, id, fun _ => hp, id⟩
    cases he
    exact Or.inl ⟨c, hc, hs⟩

/-- The acts on references. -/
theorem ref (h : a.Awake l R) (ha : RefAct P a a') : a'.Awake l R := by
  cases ha with
  | alloc i type hf =>
    -- everything about the new slot is owed
    exact h.one (i := i) rfl (.same rfl) List.suffix_rfl Set.subset_union_left
      fun r hn => absurd (Or.inr rfl) hn
  | clear i hd hp ht hu hr hq hx hl =>
    exact h.field (i := i) rfl (.same rfl) List.suffix_rfl subset_rfl
      ⟨(fun hu => by cases hu), rfl, rfl, rfl, rfl, id, id, id, id⟩
  | install | takeFd | condemn | dangle | register | unregister | closed =>
    exact h.same rfl (.same rfl) List.suffix_rfl subset_rfl
  | unref i | lastRef i | dup b n n' i | parkCopy i | parkMove b n i | obtain b n i =>
    exact h.field (i := i) rfl (.same rfl) List.suffix_rfl subset_rfl
      ⟨id, rfl, rfl, rfl, rfl, id, id, id, id⟩

/-- The acts on receive queues. -/
theorem rx (h : a.Awake l R) (ha : RxAct P a a') : a'.Awake l R := by
  cases ha with
  | push i pkt hu ho ht =>
    refine h.one (i := i) rfl (.same rfl) List.suffix_rfl (Set.subset_insert ..) fun r hn hr => ?_
    cases r with
    | read => exact absurd (Set.mem_insert ..) hn
    | write => simpa [ready, SlotView.canWrite] using hr
    | except => simpa [ready, SlotView.hasExcept] using hr
  | take i pkt rest n hq hn =>
    refine h.field (i := i) rfl (.same rfl) List.suffix_rfl subset_rfl
      ⟨id, rfl, rfl, rfl, rfl, fun none => ?_, id, id, id⟩
    rw [hq] at none
    cases none
  | pop i ht =>
    refine h.field (i := i) rfl (.same rfl) List.suffix_rfl subset_rfl
      ⟨id, rfl, rfl, rfl, rfl, fun none => ?_, id, id, id⟩
    show (a.slot i).rx.tail = []
    rw [none]
    rfl
  | drain i hd =>
    exact h.field (i := i) rfl (.same rfl) List.suffix_rfl subset_rfl
      ⟨id, rfl, rfl, rfl, rfl, fun _ => rfl, id, id, id⟩
  | shut i rd wr =>
    have grown : a.tok.owes ⊆ if wr then insert (i, Ready.write) a.tok.owes else a.tok.owes := by
      cases wr
      · exact subset_rfl
      · exact Set.subset_insert ..
    refine h.one (i := i) rfl (.same rfl) List.suffix_rfl grown fun r hn hr => ?_
    cases r with
    | read => simpa [ready, SlotView.canRead] using hr
    | except => simpa [ready, SlotView.hasExcept] using hr
    | write =>
      cases wr with
      | true => exact absurd (Set.mem_insert ..) hn
      | false => simpa [ready, SlotView.canWrite] using hr
  | clearErr i =>
    exact h.field (i := i) rfl (.same rfl) List.suffix_rfl subset_rfl
      ⟨id, rfl, rfl, rfl, rfl, id, id, id, fun he => by cases he⟩
  | window i | lost i | nonblock i =>
    exact h.field (i := i) rfl (.same rfl) List.suffix_rfl subset_rfl
      ⟨id, rfl, rfl, rfl, rfl, id, id, id, id⟩

/-- The acts on selectors, of which `tn_signal_socket` pays what is owed. -/
theorem sel (h : a.Awake l R) (ha : SelAct a a') : a'.Awake l R := by
  cases ha with
  | table t ht => exact h.same rfl (.same rfl) List.suffix_rfl subset_rfl
  | signal i hu =>
    refine ⟨h.suffix.trans (List.suffix_cons ..), fun j r hn hr => ?_⟩
    have ready : a.ready j r = true := hr
    obtain ⟨new, hnew⟩ := h.suffix
    by_cases hj : j = i
    · subst hj
      refine Or.inr ⟨.signalSocket j (a.ready j .read) (a.ready j .write) (a.ready j .except) :: new,
        ?_, _, List.mem_cons_self .., ?_⟩
      · show _ :: a.log = _
        rw [← hnew]
        rfl
      · cases r <;> simpa [Event.wakes] using ready
    · have old : (j, r) ∉ a.tok.owes := fun ho => hn ⟨ho, fun he => hj he⟩
      refine (h.woken j r old ready).imp_right ?_
      rintro ⟨new, he, e, hm, hw⟩
      refine ⟨.signalSocket i (a.ready i .read) (a.ready i .write) (a.ready i .except) :: new, ?_, e,
        List.mem_cons_of_mem _ hm, hw⟩
      show _ :: a.log = _
      rw [he]
      rfl
  | settle i r hr =>
    refine ⟨h.suffix, fun j r' hn hready => ?_⟩
    refine h.woken j r' (fun ho => hn ⟨ho, fun he => ?_⟩) hready
    obtain ⟨rfl, rfl⟩ := Prod.mk.inj he
    have ready : a.ready j r' = true := hready
    rw [hr] at ready
    cases ready
  | weaken D S hD hS => exact h.same rfl (.same rfl) List.suffix_rfl hD

/-- The acts on connections. -/
theorem tcp (h : a.Awake l R) (hd : a.Disc) (ha : TcpAct P a a') : a'.Awake l R := by
  -- a pcb that is not there belongs to no slot
  have nobody : ∀ {p}, a.pcb p = none → ∀ i, (a.slot i).tcp ≠ some p := by
    intro p hp i hi
    obtain ⟨c, hc, -⟩ := (hd.slots i).pcb p hi
    cases hp.symm.trans hc
  have fresh : ∀ {a' : Abs} {p c}, a.pcb p = none → a'.pcb = Function.update a.pcb p (some c) →
      a.Roomless a' := fun hp he => .set he fun _ _ _ => Or.inr (nobody hp)
  have kept : ∀ {a' : Abs} {p c c'}, a.pcb p = some c → a'.pcb = Function.update a.pcb p (some c') →
      c'.space = c.space → a.Roomless a' := fun {a' p c c'} hc he hs => .set he fun c'' h' hs' => by
    cases h'
    exact Or.inl ⟨c, hc, hs ▸ hs'⟩
  have lost : ∀ {a' : Abs} {p}, a'.pcb = Function.update a.pcb p none → a.Roomless a' :=
    fun he => .set he fun _ hn _ => by cases hn
  cases ha with
  | new i p hu hp hl =>
    refine h.one (i := i) rfl (fresh hp rfl) List.suffix_rfl subset_rfl fun r _ hr => ?_
    have st : (a.slot i).st = .closed := hu.st
    have type : (a.slot i).type = sockStream := hu.type
    cases r with
    | read => simpa [ready, SlotView.canRead] using hr
    | write => simp [ready, SlotView.canWrite, st, type, sockStream, sockDgram, sockRaw] at hr
    | except => simpa [ready, SlotView.hasExcept] using hr
  | listen i p l' c hu ht hs hc hl hsn hj hal =>
    have type : (a.slot i).type = sockStream := (hd.slots i).stream (by rw [ht]; rfl)
    have empty : (a.slot i).q = [] := by
      by_contra hq
      exact TnTcpState.noConfusion (hs.symm.trans ((hd.slots i).queue hq))
    have room : a.Roomless (((a.slotSet i { a.slot i with tcp := some l', st := .listening }).pcbSet p
        none).pcbSet l' (some (.newListen i))) := by
      intro j q c' hq hc' hs'
      have hql : q ≠ l' := fun he => nobody hl j (he ▸ hq)
      have hc' : Function.update (Function.update a.pcb p none) l' (some (.newListen i)) q
        = some c' := hc'
      rw [Function.update_of_ne hql] at hc'
      by_cases hqp : q = p
      · subst hqp
        simp at hc'
      · rw [Function.update_of_ne hqp] at hc'
        exact ⟨c', hc', hs'⟩
    refine h.one (i := i) rfl room List.suffix_rfl subset_rfl fun r _ hr => ?_
    cases r with
    | read => simpa [ready, SlotView.canRead, empty, hs] using hr
    | write => simp [ready, SlotView.canWrite, type, sockStream, sockDgram, sockRaw] at hr
    | except => simpa [ready, SlotView.hasExcept, hs] using hr
  | connect i p c hu ht hs hc hj =>
    have type : (a.slot i).type = sockStream := (hd.slots i).stream (by rw [ht]; rfl)
    refine h.one (i := i) rfl (kept hc rfl rfl) List.suffix_rfl subset_rfl fun r _ hr => ?_
    cases r with
    | read => simpa [ready, SlotView.canRead, hs] using hr
    | write => simp [ready, SlotView.canWrite, type, sockStream, sockDgram, sockRaw] at hr
    | except => simpa [ready, SlotView.hasExcept, hs] using hr
  | regs i p c hu ht hs hc => exact h.same rfl (kept hc rfl rfl) List.suffix_rfl subset_rfl
  | state p c st hc hs hs' => exact h.same rfl (kept hc rfl rfl) List.suffix_rfl subset_rfl
  | space p c n q hc =>
    -- every slot with the pcb is owed
    refine h.keep List.suffix_rfl Set.subset_union_left fun i r hn hr => ?_
    have other : (a.slot i).tcp ≠ some p := fun he => hn (Or.inr he)
    cases r with
    | read => exact hr
    | except => exact hr
    | write =>
      have same : ((a.pcbSet p (some { c with sndBuf := n, sndQueuelen := q })).setTok
          { a.tok with owes := a.tok.owes ∪ {x | (a.slot x.1).tcp = some p} }).ready i .write
          = a.ready i .write := by
        simp only [ready, SlotView.canWrite, setTok_slot, setTok_pcb, pcbSet_slot, pcbSet_pcb]
        cases ht : (a.slot i).tcp with
        | none => rfl
        | some p' =>
          have hne : p' ≠ p := fun he => other (he ▸ ht)
          simp only [Function.update_of_ne hne]
      exact same ▸ hr
  | gone p c hc ha hn => exact h.same rfl (lost rfl) List.suffix_rfl subset_rfl
  | connected i p c hu ht hc hl hs hj =>
    have st := hd.connecting_of_synSent ht hc hl hs
    refine h.one (i := i) rfl (kept hc rfl rfl) List.suffix_rfl (Set.subset_insert ..)
      fun r hn hr => ?_
    cases r with
    | read => simpa [ready, SlotView.canRead, st] using hr
    | write => exact absurd (Set.mem_insert ..) hn
    | except => simpa [ready, SlotView.hasExcept, st] using hr
  | joined i hj hp => exact h.same rfl (.same rfl) List.suffix_rfl subset_rfl
  | fin i p hu ht hs =>
    refine h.one (i := i) rfl (.same rfl) List.suffix_rfl (Set.subset_insert ..) fun r hn hr => ?_
    cases r with
    | read => exact absurd (Set.mem_insert ..) hn
    | write => rcases hs with hs | hs <;> simpa [ready, SlotView.canWrite, hs] using hr
    | except => rcases hs with hs | hs <;> simpa [ready, SlotView.hasExcept, hs] using hr
  | release i p o st wr er hu ht ho hc hls hst =>
    -- the pcb was the slot's own, and everything about the slot is owed
    refine h.keep List.suffix_rfl Set.subset_union_left fun j r hn hr => ?_
    have hj : j ≠ i := fun he => hn (Or.inr he)
    obtain ⟨c, hc, arg, -⟩ := (hd.slots i).pcb p ht
    have notHis : (a.slot j).tcp ≠ some p := fun he => by
      obtain ⟨c', hc', arg', -⟩ := (hd.slots j).pcb p he
      obtain rfl : c = c' := Option.some.inj (hc.symm.trans hc')
      exact hj (CbArg.slot.inj (arg'.symm.trans arg))
    cases r with
    | read => simpa [ready, hj] using hr
    | except => simpa [ready, hj] using hr
    | write =>
      simp only [ready, SlotView.canWrite, setTok_slot, setTok_pcb, pcbSet_slot, pcbSet_pcb,
        slotSet_slot, Function.update_of_ne hj] at hr ⊢
      cases ht' : (a.slot j).tcp with
      | none => rw [ht'] at hr; exact hr
      | some p' =>
        have hne : p' ≠ p := fun he => notHis (he ▸ ht')
        rw [ht'] at hr
        simpa only [slotSet_pcb, Function.update_of_ne hne] using hr
  | entData i e seg | entFin i e =>
    refine h.field (i := i) rfl (.same rfl) List.suffix_rfl subset_rfl
      ⟨id, rfl, rfl, rfl, rfl, id, fun none => ?_, id, id⟩
    simp only [modEntries, none, List.map_nil]
  | entGone i x p hx hp =>
    refine h.field (i := i) rfl (lost rfl) List.suffix_rfl subset_rfl
      ⟨id, rfl, rfl, rfl, rfl, id, fun none => ?_, id, id⟩
    simp only [none, List.eraseP_nil]
  | newConn p c hp hc hn => exact h.same rfl (fresh hp rfl) List.suffix_rfl subset_rfl
  | abortConn p hp => exact h.same rfl (lost rfl) List.suffix_rfl subset_rfl
  | pushEntry i p e c hu hs hdy hp hc he hn =>
    refine h.one (i := i) rfl (kept hc rfl rfl) List.suffix_rfl (Set.subset_insert ..)
      fun r hn hr => ?_
    cases r with
    | read => exact absurd (Set.mem_insert ..) hn
    | write => simpa [ready, SlotView.canWrite, hs] using hr
    | except => simpa [ready, SlotView.hasExcept, hs] using hr
  | adopt j p c hj hp hc =>
    exact h.one (i := j) rfl (kept hc rfl rfl) List.suffix_rfl Set.subset_union_left
      fun r hn => absurd (Or.inr rfl) hn
  | popEntry i x rest hq hn =>
    refine h.field (i := i) rfl (.same rfl) List.suffix_rfl subset_rfl
      ⟨id, rfl, rfl, rfl, rfl, id, fun none => ?_, id, id⟩
    rw [hq] at none
    cases none
  | takeEntry j x p c hj hx hp hc =>
    exact h.one (i := j) rfl (kept hc rfl rfl) List.suffix_rfl Set.subset_union_left
      fun r hn => absurd (Or.inr rfl) hn
  | freeEntry x p hx hp => exact h.same rfl (lost rfl) List.suffix_rfl subset_rfl
  | dropEntry i x rest p hq hp =>
    refine h.field (i := i) rfl (lost rfl) List.suffix_rfl subset_rfl
      ⟨id, rfl, rfl, rfl, rfl, id, fun none => ?_, id, id⟩
    rw [hq] at none
    cases none
  | newUdp i p | freeUdp i p | newRaw i p | freeRaw i p =>
    exact h.field (i := i) rfl (.same rfl) List.suffix_rfl subset_rfl
      ⟨id, rfl, rfl, rfl, rfl, id, id, id, id⟩

/-- Every act keeps the clients awake. -/
theorem act (h : a.Awake l R) (hs : a.Sound) (ha : Act P a a') : a'.Awake l R := by
  cases ha with
  | msg ha => exact h.msg ha
  | send ha => exact h.send ha
  | ref ha => exact h.ref ha
  | tcp ha => exact h.tcp hs.disc ha
  | rx ha => exact h.rx ha
  | sel ha => exact h.sel ha
  | broken hn => exact absurd hs hn

end Awake

end Abs

end Tolunnet
