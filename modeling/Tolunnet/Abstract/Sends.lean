import Tolunnet.Abstract.Books

/-!
# `Tolunnet.Abstract.Sends`: the data of stream sends

The log says which bytes a send has handed to lwIP. `Sends` ties it to the state: a send that is
parked or in hand has written exactly the bytes before its cursor, every other call has written
nothing or the first bytes of its data, and what it was answered fits them. On each pcb the
calls write one after the other, in the order in which they came in.
-/

set_option autoImplicit false

namespace Tolunnet

/-! ## Reading the log -/

/-- The bytes that call `c` has handed to lwIP, in order. The log has its last event first. -/
def wrote (c : CallNo) : List Event → List UInt8
  | [] => []
  | .tcpWrite _ c' b :: l => if c' = c then wrote c l ++ b else wrote c l
  | _ :: l => wrote c l

/-- The calls that have written on pcb `p`, the last one first. -/
def writers (p : PcbId) (l : List Event) : List CallNo :=
  l.filterMap fun
    | .tcpWrite p' c _ => if p' = p then some c else none
    | _ => none

/-- Whether an event is the start of a send or a write. -/
def Event.ofSend : Event → Bool
  | .sendStart _ _ | .tcpWrite _ _ _ => true
  | _ => false

theorem wrote_cons {e : Event} (he : e.ofSend = false) (c : CallNo) (l : List Event) :
    wrote c (e :: l) = wrote c l := by
  cases e <;> first | rfl | cases he

theorem writers_cons {e : Event} (he : e.ofSend = false) (p : PcbId) (l : List Event) :
    writers p (e :: l) = writers p l := by
  cases e <;> first | rfl | cases he

theorem start_cons {e : Event} (he : e.ofSend = false) {c : CallNo} {pl : List UInt8}
    {l : List Event} : .sendStart c pl ∈ e :: l ↔ .sendStart c pl ∈ l := by
  rw [List.mem_cons, or_iff_right]
  rintro rfl
  cases he

/-- A call whose reply is in the log is answered. -/
theorem replied_of_mem {c : CallNo} {r : Int} {e : Errno} {l : List Event}
    (h : .reply c r e ∈ l) : c ∈ l.filterMap Event.replied :=
  List.mem_filterMap.mpr ⟨_, h, rfl⟩

section WriteLog

variable {p : PcbId} {c : CallNo} {bs : List (List UInt8)} {e : ErrT} {l : List Event}

/-- The chunks of a call. -/
theorem wrote_chunks (p : PcbId) (c c' : CallNo) (bs : List (List UInt8)) (l : List Event) :
    wrote c' ((bs.map fun b => Event.tcpWrite p c b).reverse ++ l)
      = if c = c' then wrote c' l ++ bs.flatten else wrote c' l := by
  induction bs generalizing l with
  | nil => split <;> simp
  | cons b bs ih =>
    rw [List.map_cons, List.reverse_cons, List.append_assoc, ih]
    simp only [List.cons_append, List.nil_append, wrote]
    split
    · simp
    · rfl

/-- The bytes a call has handed to lwIP after a call of `tn_tcp_write_some`. -/
theorem wrote_writeLog (c' : CallNo) :
    wrote c' (writeLog p c bs e ++ l) = if c = c' then wrote c' l ++ bs.flatten else wrote c' l := by
  unfold writeLog
  split
  · exact wrote_chunks p c c' bs l
  · rw [List.append_assoc, List.singleton_append, wrote_cons rfl]
    exact wrote_chunks p c c' bs l

/-- The writers after a call of `tn_tcp_write_some`. -/
theorem writers_writeLog (p' : PcbId) :
    writers p' (writeLog p c bs e ++ l)
      = (if p = p' then List.replicate bs.length c else []) ++ writers p' l := by
  have chunks : ∀ l, writers p' ((bs.map fun b => Event.tcpWrite p c b).reverse ++ l)
      = (if p = p' then List.replicate bs.length c else []) ++ writers p' l := by
    intro l
    unfold writers
    rw [List.filterMap_append, ← List.map_reverse, List.filterMap_map]
    congr 1
    split
    · rename_i h
      subst h
      rw [List.filterMap_congr (g := fun _ => some c) (fun _ _ => by simp)]
      simp [List.filterMap_eq_map']
    · rename_i h
      rw [List.filterMap_eq_nil_iff]
      intro b _
      simp [h]
  unfold writeLog
  split
  · exact chunks l
  · rw [List.append_assoc, List.singleton_append, writers_cons rfl]
    exact chunks l

theorem mem_writeLog {ev : Event} (h : ev ∈ writeLog p c bs e) :
    (∃ b, ev = .tcpWrite p c b) ∨ ∃ e', ev = .tcpWriteErr p c e' := by
  unfold writeLog at h
  rw [List.mem_append, List.mem_reverse, List.mem_map] at h
  rcases h with h | ⟨b, -, rfl⟩
  · split at h
    · cases h
    · exact Or.inr ⟨e, List.mem_singleton.mp h⟩
  · exact Or.inl ⟨b, rfl⟩

end WriteLog

/-! ## The invariant -/

/-- Call `c` started with data `pl` and has written its first `n` bytes. -/
structure OnRecord (log : List Event) (c : CallNo) (pl : List UInt8) (n : Nat) : Prop where
  start : .sendStart c pl ∈ log
  le : n ≤ pl.length
  bytes : wrote c log = pl.take n

/-- The data of the send parked in slot `i`. -/
def Abs.parkedData (a : Abs) (i : SlotIdx) (m : MsgId) : List UInt8 :=
  sendPayload (a.msg m).buf (a.slot i).sendIov (a.msg m).len

/-- What the log says about sends agrees with the state. -/
structure Abs.Sends (a : Abs) : Prop where
  past : ∀ c pl, .sendStart c pl ∈ a.log → c < a.calls
  unique : ∀ c pl pl', .sendStart c pl ∈ a.log → .sendStart c pl' ∈ a.log → pl = pl'
  fresh : ∀ c, (∀ pl, .sendStart c pl ∉ a.log) → wrote c a.log = []
  plain : ∀ m ∈ a.tok.hand, (∀ s, a.tok.sending = some s → s.m ≠ m) →
    ∀ pl, .sendStart (a.callOf m) pl ∉ a.log
  elsewhere : ∀ pl m, a.held pl = some m → (∀ i, pl ≠ .slot i .send) →
    ∀ x, .sendStart (a.callOf m) x ∉ a.log
  parked : ∀ i m, (a.slot i).pending .send = some m →
    (a.parkedData i m).length = (a.msg m).len ∧
      OnRecord a.log (a.callOf m) (a.parkedData i m) (a.slot i).sendDone
  inHand : ∀ s, a.tok.sending = some s → s.payload.length = s.len ∧
    OnRecord a.log (a.callOf s.m) s.payload s.done ∧ a.callOf s.m + 1 = a.calls ∧
    (s.iov = none → (a.msg s.m).buf = s.buf)
  all : ∀ c pl, .sendStart c pl ∈ a.log → ∃ n, n ≤ pl.length ∧ wrote c a.log = pl.take n ∧
    ∀ r e, .reply c r e ∈ a.log → SendAnswer pl.length n r
  order : ∀ p, (writers p a.log).Pairwise (· ≥ ·)
  turn : ∀ i m p, (a.slot i).pending .send = some m → (a.slot i).tcp = some p →
    ∀ c ∈ writers p a.log, c ≤ a.callOf m
  known : ∀ p, ∀ c ∈ writers p a.log, c < a.calls

namespace Abs.Sends

variable {P : Label → Prop} {a a' : Abs}

/-- Acts that start no send and write nothing. Messages may change their places. -/
theorem keep (h : a.Sends)
    (hstart : ∀ c pl, .sendStart c pl ∈ a'.log ↔ .sendStart c pl ∈ a.log)
    (hwrote : ∀ c, wrote c a'.log = wrote c a.log)
    (hwriters : ∀ p, writers p a'.log = writers p a.log)
    (hreply : ∀ c pl, .sendStart c pl ∈ a.log →
      (∀ r e, .reply c r e ∈ a'.log → .reply c r e ∈ a.log) ∨
      ∃ n, n ≤ pl.length ∧ wrote c a.log = pl.take n ∧
        ∀ r e, .reply c r e ∈ a'.log → SendAnswer pl.length n r)
    (hcallOf : a'.callOf = a.callOf) (hcalls : a'.calls = a.calls)
    (hhand : ∀ m ∈ a'.tok.hand, (∀ s, a'.tok.sending = some s → s.m ≠ m) →
      (m ∈ a.tok.hand ∧ ∀ s, a.tok.sending = some s → s.m ≠ m) ∨
      ∃ i, (a.slot i).pending .accept = some m)
    (hheld : ∀ pl m, a'.held pl = some m → (∀ i, pl ≠ .slot i .send) →
      a.held pl = some m ∨ (m ∈ a.tok.hand ∧ ∀ s, a.tok.sending = some s → s.m ≠ m))
    (hpark : ∀ i m, (a'.slot i).pending .send = some m →
      (a.slot i).pending .send = some m ∧ (a'.slot i).sendDone = (a.slot i).sendDone ∧
      (a'.slot i).sendIov = (a.slot i).sendIov ∧ (a'.msg m).buf = (a.msg m).buf ∧
      (a'.msg m).len = (a.msg m).len ∧
      ∀ p, (a'.slot i).tcp = some p → (a.slot i).tcp = some p)
    (hsend : ∀ s, a'.tok.sending = some s → ∃ s0, a.tok.sending = some s0 ∧ s.m = s0.m ∧
      s.buf = s0.buf ∧ s.iov = s0.iov ∧ s.len = s0.len ∧ s.done = s0.done ∧
      (a'.msg s.m).buf = (a.msg s.m).buf) : a'.Sends where
  past := fun c pl hc => by rw [hcalls]; exact h.past c pl ((hstart c pl).mp hc)
  unique := fun c pl pl' hc hc' => h.unique c pl pl' ((hstart c pl).mp hc) ((hstart c pl').mp hc')
  fresh := fun c hc => by
    rw [hwrote]
    exact h.fresh c fun pl hp => hc pl ((hstart c pl).mpr hp)
  plain := fun m hm hs pl hp => by
    rw [hcallOf, hstart] at hp
    rcases hhand m hm hs with ⟨h1, h2⟩ | ⟨i, hi⟩
    · exact h.plain m h1 h2 pl hp
    · exact h.elsewhere (.slot i .accept) m hi (by simp) pl hp
  elsewhere := fun pl m hm hs x hx => by
    rw [hcallOf, hstart] at hx
    rcases hheld pl m hm hs with h1 | ⟨h1, h2⟩
    · exact h.elsewhere pl m h1 hs x hx
    · exact h.plain m h1 h2 x hx
  parked := fun i m hm => by
    obtain ⟨h1, h2, h3, h4, h5, -⟩ := hpark i m hm
    obtain ⟨k1, k2⟩ := h.parked i m h1
    have hd : a'.parkedData i m = a.parkedData i m := by simp only [parkedData, h3, h4, h5]
    rw [hd, h5, hcallOf, h2]
    exact ⟨k1, (hstart _ _).mpr k2.start, k2.le, by rw [hwrote]; exact k2.bytes⟩
  inHand := fun s hs => by
    obtain ⟨s0, h0, h1, h2, h3, h4, h5, h6⟩ := hsend s hs
    obtain ⟨k1, k2, k3, k4⟩ := h.inHand s0 h0
    have hd : s.payload = s0.payload := by simp only [Sending.payload, h2, h3, h4]
    rw [h6, hd, hcallOf, hcalls, h1, h2, h3, h4, h5]
    exact ⟨k1, ⟨(hstart _ _).mpr k2.start, k2.le, by rw [hwrote]; exact k2.bytes⟩, k3, k4⟩
  all := fun c pl hc => by
    rw [hstart] at hc
    rw [hwrote]
    rcases hreply c pl hc with hr | hr
    · obtain ⟨n, h1, h2, h3⟩ := h.all c pl hc
      exact ⟨n, h1, h2, fun r e he => h3 r e (hr r e he)⟩
    · exact hr
  order := fun p => by rw [hwriters]; exact h.order p
  turn := fun i m p hm hp => by
    obtain ⟨h1, -, -, -, -, h6⟩ := hpark i m hm
    rw [hwriters, hcallOf]
    exact h.turn i m p h1 (h6 p hp)
  known := fun p => by rw [hwriters, hcalls]; exact h.known p

/-- Acts that leave messages, sends and the log alone. -/
theorem keep_rest (h : a.Sends) (hlog : a'.log = a.log) (hcallOf : a'.callOf = a.callOf)
    (hcalls : a'.calls = a.calls) (hmsg : a'.msg = a.msg) (hdns : a'.dns = a.dns)
    (hstop : a'.stop = a.stop)
    (htok : a'.tok.hand = a.tok.hand ∧ a'.tok.sending = a.tok.sending)
    (hpend : ∀ i, (a'.slot i).pending = (a.slot i).pending)
    (hpark : ∀ i m, (a.slot i).pending .send = some m →
      (a'.slot i).sendDone = (a.slot i).sendDone ∧ (a'.slot i).sendIov = (a.slot i).sendIov ∧
      ∀ p, (a'.slot i).tcp = some p → (a.slot i).tcp = some p) : a'.Sends := by
  have hheld : a'.held = a.held := by
    funext pl
    cases pl with
    | slot i k => simp only [held, hpend]
    | dns k => simp only [held, hdns]
    | stop => exact hstop
  refine h.keep (fun _ _ => by rw [hlog]) (fun _ => by rw [hlog]) (fun _ => by rw [hlog])
    (fun _ _ _ => Or.inl fun _ _ he => by rw [hlog] at he; exact he) hcallOf hcalls ?_ ?_ ?_ ?_
  · intro m hm hs
    rw [htok.1] at hm
    rw [htok.2] at hs
    exact Or.inl ⟨hm, hs⟩
  · intro pl m hm _
    rw [hheld] at hm
    exact Or.inl hm
  · intro i m hm
    rw [hpend] at hm
    obtain ⟨h1, h2, h3⟩ := hpark i m hm
    exact ⟨hm, h1, h2, by rw [hmsg], by rw [hmsg], h3⟩
  · intro s hs
    rw [htok.2] at hs
    exact ⟨s, hs, rfl, rfl, rfl, rfl, rfl, by rw [hmsg]⟩

/-- The same for acts on one slot. -/
theorem keep_slot (h : a.Sends) {i : SlotIdx} {s : SlotView}
    (hslot : a'.slot = Function.update a.slot i s) (hp : s.pending = (a.slot i).pending)
    (hs : (a.slot i).pending .send = none ∨ (s.sendDone = (a.slot i).sendDone ∧
      s.sendIov = (a.slot i).sendIov ∧ ∀ p, s.tcp = some p → (a.slot i).tcp = some p))
    (hlog : a'.log = a.log) (hrest : a'.callOf = a.callOf ∧ a'.calls = a.calls ∧ a'.msg = a.msg ∧
      a'.dns = a.dns ∧ a'.stop = a.stop)
    (htok : a'.tok.hand = a.tok.hand ∧ a'.tok.sending = a.tok.sending) : a'.Sends := by
  refine h.keep_rest hlog hrest.1 hrest.2.1 hrest.2.2.1 hrest.2.2.2.1 hrest.2.2.2.2 htok ?_ ?_
  · intro j
    by_cases hj : j = i
    · subst hj
      rw [hslot, Function.update_self, hp]
    · rw [hslot, Function.update_of_ne hj]
  · intro j m hm
    by_cases hj : j = i
    · subst hj
      rw [hslot, Function.update_self]
      rcases hs with hs | hs
      · rw [hs] at hm
        cases hm
      · exact hs
    · rw [hslot, Function.update_of_ne hj]
      exact ⟨rfl, rfl, fun _ h => h⟩

/-- A slot whose parked send is as before, and whose connection is at most gone. -/
theorem same {i : SlotIdx} {s : SlotView} (h1 : s.sendDone = (a.slot i).sendDone)
    (h2 : s.sendIov = (a.slot i).sendIov) (h3 : s.tcp = (a.slot i).tcp ∨ s.tcp = none) :
    (a.slot i).pending .send = none ∨ (s.sendDone = (a.slot i).sendDone ∧
      s.sendIov = (a.slot i).sendIov ∧ ∀ p, s.tcp = some p → (a.slot i).tcp = some p) := by
  refine Or.inr ⟨h1, h2, fun p hp => ?_⟩
  rcases h3 with h3 | h3
  · rw [← h3]
    exact hp
  · rw [h3] at hp
    cases hp

/-- The acts on references. -/
theorem ref (h : a.Sends) (hd : a.Disc) (ha : RefAct P a a') : a'.Sends := by
  cases ha with
  | alloc i type hf =>
    have hfree := ((hd.slots i).free hf).1
    exact h.keep_slot (i := i) rfl (funext fun k => (hfree k).symm) (Or.inl (hfree .send)) rfl
      ⟨rfl, rfl, rfl, rfl, rfl⟩ ⟨rfl, rfl⟩
  | install | takeFd | condemn | dangle | register | unregister | closed => exact { h with }
  | unref i | lastRef i | dup _ _ _ i | parkCopy i | parkMove _ _ i | obtain _ _ i | clear i =>
    exact h.keep_slot (i := i) rfl rfl (same rfl rfl (Or.inl rfl)) rfl ⟨rfl, rfl, rfl, rfl, rfl⟩ ⟨rfl, rfl⟩

/-- The acts on receive queues. -/
theorem rx (h : a.Sends) (ha : RxAct P a a') : a'.Sends := by
  cases ha with
  | push i | take i | pop i | drain i | window i | shut i | lost i | clearErr i | nonblock i =>
    exact h.keep_slot (i := i) rfl rfl (same rfl rfl (Or.inl rfl)) rfl ⟨rfl, rfl, rfl, rfl, rfl⟩ ⟨rfl, rfl⟩

/-- The acts on connections. A slot that gets a pcb has no parked send. -/
theorem tcp (h : a.Sends) (hd : a.Disc) (ha : TcpAct P a a') : a'.Sends := by
  cases ha with
  | new i p hu hp hl =>
    exact h.keep_slot (i := i) rfl rfl (Or.inl (hu.pending .send)) rfl ⟨rfl, rfl, rfl, rfl, rfl⟩
      ⟨rfl, rfl⟩
  | listen i p l c hu ht hs hc hl hsn hj hal =>
    refine h.keep_slot (i := i) rfl rfl (Or.inl ?_) rfl ⟨rfl, rfl, rfl, rfl, rfl⟩ ⟨rfl, rfl⟩
    by_contra hp
    rcases (hd.slots i).send hp with h1 | h1 | h1
    · rw [ht] at h1
      cases h1
    · rw [hs] at h1
      cases h1
    · rw [hs] at h1
      cases h1
  | connect i | connected i | fin i | entData i | entFin i | entGone i | pushEntry i | popEntry i
  | dropEntry i | newUdp i | freeUdp i | newRaw i | freeRaw i =>
    exact h.keep_slot (i := i) rfl rfl (same rfl rfl (Or.inl rfl)) rfl ⟨rfl, rfl, rfl, rfl, rfl⟩
      ⟨rfl, rfl⟩
  | release i p o st wr er hu ht ho hc hls hst =>
    exact h.keep_slot (i := i) rfl rfl (same rfl rfl (Or.inr rfl)) rfl ⟨rfl, rfl, rfl, rfl, rfl⟩
      ⟨rfl, rfl⟩
  | adopt j p c hj hp hc =>
    exact h.keep_slot (i := j) rfl rfl (Or.inl (hj.pending .send)) rfl ⟨rfl, rfl, rfl, rfl, rfl⟩
      ⟨rfl, rfl⟩
  | takeEntry j x p c hj hx hp hc =>
    exact h.keep_slot (i := j) rfl rfl (Or.inl (hj.pending .send)) rfl ⟨rfl, rfl, rfl, rfl, rfl⟩
      ⟨rfl, rfl⟩
  | regs | state | space | gone | joined | newConn | abortConn | freeEntry => exact { h with }

/-- The acts on selectors. -/
theorem sel (h : a.Sends) (ha : SelAct a a') : a'.Sends := by
  cases ha with
  | table | settle | weaken => exact { h with }
  | signal i hu =>
    refine h.keep (fun _ _ => start_cons rfl) (fun c => wrote_cons rfl c _)
      (fun p => writers_cons rfl p _) (fun c pl _ => Or.inl fun r e he => ?_) rfl rfl
      (fun m hm hs => Or.inl ⟨hm, hs⟩) (fun pl m hm _ => Or.inl hm)
      (fun i m hm => ⟨hm, rfl, rfl, rfl, rfl, fun _ h => h⟩)
      (fun s hs => ⟨s, hs, rfl, rfl, rfl, rfl, rfl, rfl⟩)
    simpa using he

/-! ## Messages -/

/-- The fields after one other than `send` has changed. -/
theorem park_setPend {i : SlotIdx} {k : Pend} {v : Option MsgId} (hk : k ≠ .send)
    (hslot : a'.slot = Function.update a.slot i ((a.slot i).setPend k v)) (hmsg : a'.msg = a.msg)
    (j : SlotIdx) (m : MsgId) (hm : (a'.slot j).pending .send = some m) :
    (a.slot j).pending .send = some m ∧ (a'.slot j).sendDone = (a.slot j).sendDone ∧
      (a'.slot j).sendIov = (a.slot j).sendIov ∧ (a'.msg m).buf = (a.msg m).buf ∧
      (a'.msg m).len = (a.msg m).len ∧ ∀ p, (a'.slot j).tcp = some p → (a.slot j).tcp = some p := by
  rw [hmsg]
  by_cases hj : j = i
  · subst hj
    rw [hslot, Function.update_self] at hm ⊢
    have hp : ((a.slot j).setPend k v).pending .send = (a.slot j).pending .send :=
      Function.update_of_ne hk.symm _ _
    rw [hp] at hm
    exact ⟨hm, rfl, rfl, rfl, rfl, fun _ h => h⟩
  · rw [hslot, Function.update_of_ne hj] at hm ⊢
    exact ⟨hm, rfl, rfl, rfl, rfl, fun _ h => h⟩

/-- What a place holds after one field has been emptied. -/
theorem held_emptied {i : SlotIdx} {k : Pend} {pl : Place} {m : MsgId}
    (h : (a.slotSet i ((a.slot i).setPend k none)).held pl = some m) : a.held pl = some m := by
  rw [held_setPend i k none _ rfl] at h
  by_cases hp : pl = .slot i k
  · subst hp
    simp at h
  · rwa [Function.update_of_ne hp] at h

/-- A parked request other than a send is answered. -/
theorem emptied (h : a.Sends) {i : SlotIdx} {k : Pend} {log : List Event} {t : Tok}
    (hk : k ≠ .send) (hlog : log = a.log ∨ ∃ c r e, log = .reply c r e :: a.log ∧
      ∀ pl, .sendStart c pl ∉ a.log)
    (ht : t.sending = a.tok.sending ∧ ∀ m ∈ t.hand, m ∈ a.tok.hand ∨
      (a.slot i).pending .accept = some m) :
    ({ a.slotSet i ((a.slot i).setPend k none) with log := log, tok := t } : Abs).Sends := by
  have hl : (∀ c pl, Event.sendStart c pl ∈ log ↔ .sendStart c pl ∈ a.log) ∧
      (∀ c, wrote c log = wrote c a.log) ∧ (∀ p, writers p log = writers p a.log) ∧
      ∀ c pl, .sendStart c pl ∈ a.log → ∀ r e, Event.reply c r e ∈ log → .reply c r e ∈ a.log := by
    rcases hlog with rfl | ⟨c, r, e, rfl, hc⟩
    · exact ⟨fun _ _ => Iff.rfl, fun _ => rfl, fun _ => rfl, fun _ _ _ _ _ h => h⟩
    · refine ⟨fun _ _ => start_cons rfl, fun c => wrote_cons rfl c _, fun p => writers_cons rfl p _,
        fun c' pl hs r' e' he => ?_⟩
      rcases List.mem_cons.mp he with he | he
      · cases he
        exact absurd hs (hc pl)
      · exact he
  refine h.keep hl.1 hl.2.1 hl.2.2.1 (fun c pl hc => Or.inl (hl.2.2.2 c pl hc)) rfl rfl ?_ ?_
    (park_setPend hk rfl rfl) ?_
  · intro m hm hs
    rw [show ({ a.slotSet i ((a.slot i).setPend k none) with log := log, tok := t } : Abs).tok.sending
      = a.tok.sending from ht.1] at hs
    exact (ht.2 m hm).imp (fun h => ⟨h, hs⟩) fun h => ⟨i, h⟩
  · intro pl m hm _
    exact Or.inl (held_emptied hm)
  · intro s hs
    exact ⟨s, ht.1 ▸ hs, rfl, rfl, rfl, rfl, rfl, rfl⟩

/-- The log with one more reply, to a call that is no send. -/
theorem keep_reply (h : a.Sends) {c : CallNo} {r : Int} {e : Errno}
    (hc : ∀ pl, .sendStart c pl ∉ a.log) (hlog : a'.log = .reply c r e :: a.log)
    (hcallOf : a'.callOf = a.callOf) (hcalls : a'.calls = a.calls)
    (hhand : ∀ m ∈ a'.tok.hand, m ∈ a.tok.hand) (hslot : a'.slot = a.slot) (hmsg : a'.msg = a.msg)
    (hheld : ∀ pl m, a'.held pl = some m → a.held pl = some m)
    (hsend : a'.tok.sending = a.tok.sending) : a'.Sends := by
  refine h.keep (fun _ _ => by rw [hlog]; exact start_cons rfl)
    (fun c => by rw [hlog]; exact wrote_cons rfl c _)
    (fun p => by rw [hlog]; exact writers_cons rfl p _) (fun c' pl hs => Or.inl fun r' e' he => ?_)
    hcallOf hcalls (fun m hm hs => Or.inl ⟨hhand m hm, by rw [← hsend]; exact hs⟩)
    (fun pl m hm _ => Or.inl (hheld pl m hm))
    (fun i m hm => ⟨by rw [← hslot]; exact hm, by rw [hslot], by rw [hslot], by rw [hmsg],
      by rw [hmsg], by rw [hslot]; exact fun _ h => h⟩)
    (fun s hs => ⟨s, by rw [← hsend]; exact hs, rfl, rfl, rfl, rfl, rfl, by rw [hmsg]⟩)
  rw [hlog] at he
  rcases List.mem_cons.mp he with he | he
  · cases he
    exact absurd hs (hc pl)
  · exact he

/-- A message in hand is parked somewhere else than in a send field. -/
theorem keep_park (h : a.Sends) {pl : Place} {m : MsgId} (hm : m ∈ a.tok.hand)
    (hs : ∀ s, a.tok.sending = some s → s.m ≠ m)
    (hlog : a'.log = a.log) (hcallOf : a'.callOf = a.callOf) (hcalls : a'.calls = a.calls)
    (hhand : a'.tok.hand = a.tok.hand.erase m) (hsend : a'.tok.sending = a.tok.sending)
    (hheld : a'.held = Function.update a.held pl (some m)) (hmsg : a'.msg = a.msg)
    (hpark : ∀ i m, (a'.slot i).pending .send = some m →
      (a.slot i).pending .send = some m ∧ (a'.slot i).sendDone = (a.slot i).sendDone ∧
      (a'.slot i).sendIov = (a.slot i).sendIov ∧ (a'.msg m).buf = (a.msg m).buf ∧
      (a'.msg m).len = (a.msg m).len ∧
      ∀ p, (a'.slot i).tcp = some p → (a.slot i).tcp = some p) : a'.Sends := by
  refine h.keep (fun _ _ => by rw [hlog]) (fun _ => by rw [hlog]) (fun _ => by rw [hlog])
    (fun _ _ _ => Or.inl fun _ _ he => by rw [hlog] at he; exact he) hcallOf hcalls ?_ ?_ hpark
    (fun s hs => ⟨s, by rw [← hsend]; exact hs, rfl, rfl, rfl, rfl, rfl, by rw [hmsg]⟩)
  · intro m' hm' hs'
    rw [hhand] at hm'
    rw [hsend] at hs'
    exact Or.inl ⟨List.mem_of_mem_erase hm', hs'⟩
  · intro pl' m' hm' _
    rw [hheld] at hm'
    by_cases hp : pl' = pl
    · subst hp
      rw [Function.update_self, Option.some.injEq] at hm'
      subst hm'
      exact Or.inr ⟨hm, hs⟩
    · rw [Function.update_of_ne hp] at hm'
      exact Or.inl hm'

/-- A new message. -/
theorem receive (h : a.Sends) {m : MsgId} {x : MsgView} (hp : ∀ pl, a.held pl ≠ some m)
    (hs : a.tok.sending = none) (hmsg : a'.msg = Function.update a.msg m x)
    (hcallOf : a'.callOf = Function.update a.callOf m a.calls) (hcalls : a'.calls = a.calls + 1)
    (hlog : a'.log = a.log) (hslot : a'.slot = a.slot) (hheld : a'.held = a.held)
    (htok : a'.tok.hand = m :: a.tok.hand ∧ a'.tok.sending = none) : a'.Sends where
  past := fun c pl hc => by
    rw [hlog] at hc
    rw [hcalls]
    exact Nat.lt_succ_of_lt (h.past c pl hc)
  unique := by rw [hlog]; exact h.unique
  fresh := by rw [hlog]; exact h.fresh
  plain := fun m' hm' _ pl hc => by
    rw [htok.1] at hm'
    rw [hlog, hcallOf] at hc
    by_cases he : m' = m
    · subst he
      rw [Function.update_self] at hc
      exact absurd (h.past _ pl hc) (lt_irrefl _)
    · rw [Function.update_of_ne he] at hc
      exact h.plain m' ((List.mem_cons.mp hm').resolve_left he) (by simp [hs]) pl hc
  elsewhere := fun pl m' hm' hpl x' hc => by
    rw [hheld] at hm'
    have he : m' ≠ m := fun he => hp pl (he ▸ hm')
    rw [hlog, hcallOf, Function.update_of_ne he] at hc
    exact h.elsewhere pl m' hm' hpl x' hc
  parked := fun i m' hm' => by
    rw [hslot] at hm'
    have he : m' ≠ m := fun he => hp (.slot i .send) (he ▸ hm')
    simp only [parkedData, hmsg, hcallOf, hlog, hslot, Function.update_of_ne he]
    exact h.parked i m' hm'
  inHand := fun s hs0 => by
    rw [htok.2] at hs0
    cases hs0
  all := by rw [hlog]; exact h.all
  order := by rw [hlog]; exact h.order
  turn := fun i m' p hm' hp' => by
    rw [hslot] at hm' hp'
    have he : m' ≠ m := fun he => hp (.slot i .send) (he ▸ hm')
    rw [hcallOf, hlog, Function.update_of_ne he]
    exact h.turn i m' p hm' hp'
  known := fun p c hc => by
    rw [hlog] at hc
    rw [hcalls]
    exact Nat.lt_succ_of_lt (h.known p c hc)

/-- The acts on messages. -/
theorem msg (h : a.Sends) (ho : a.books.Once) (ha : MsgAct P a a') : a'.Sends := by
  cases ha with
  | receive m x hh hp hs hl => exact h.receive hp hs rfl rfl rfl rfl rfl rfl ⟨rfl, hs⟩
  | edit m x hm hs hb =>
    -- A parked send's message is not in hand.
    have hne : ∀ i m', (a.slot i).pending .send = some m' → m' ≠ m := fun i m' hm' he =>
      ho.out m hm (.slot i .send) (he ▸ hm')
    refine h.keep (fun _ _ => Iff.rfl) (fun _ => rfl) (fun _ => rfl)
      (fun _ _ _ => Or.inl fun _ _ he => he) rfl rfl (fun m hm hs => Or.inl ⟨hm, hs⟩)
      (fun pl m hm _ => Or.inl hm) ?_ ?_
    · intro i m' hm'
      have he : Function.update a.msg m x m' = a.msg m' := Function.update_of_ne (hne i m' hm') _ _
      exact ⟨hm', rfl, rfl, congrArg MsgView.buf he, congrArg MsgView.len he, fun _ h => h⟩
    · intro s hs'
      have he : Function.update a.msg m x s.m = a.msg s.m := Function.update_of_ne (hs s hs') _ _
      exact ⟨s, hs', rfl, rfl, rfl, rfl, rfl, congrArg MsgView.buf he⟩
  | park i k m hm hs hu hk hw he hl =>
    exact h.keep_park hm hs rfl rfl rfl rfl rfl (held_setPend i k (some m) _ rfl)
      rfl (park_setPend hk rfl rfl)
  | parkDns k m hm hs he =>
    exact h.keep_park hm hs rfl rfl rfl rfl rfl
      (held_setDns (a := a) k (some (some m, (a.msg m).base))) rfl
      (fun i m hm => ⟨hm, rfl, rfl, rfl, rfl, fun _ h => h⟩)
  | parkStop m hm hs he =>
    exact h.keep_park hm hs rfl rfl rfl rfl rfl (held_setStop (a := a) (some m)) rfl
      (fun i m hm => ⟨hm, rfl, rfl, rfl, rfl, fun _ h => h⟩)
  -- A send is answered elsewhere: this field holds another command.
  | answer i k m r e hk hp =>
    exact h.emptied hk (Or.inr ⟨_, r, e, rfl, h.elsewhere (.slot i k) m hp (by
      rintro j ⟨⟩
      exact hk rfl)⟩) ⟨rfl, fun _ h => Or.inl h⟩
  | answerDns k m b r e hp =>
    refine h.keep_reply (h.elsewhere (.dns k) m (by rw [held, hp]; rfl) (by simp)) rfl rfl rfl
      (fun _ h => h) rfl rfl ?_ rfl
    intro pl m' hm'
    have hm' : Abs.held { a with dns := Function.update a.dns k none } pl = some m' := hm'
    rw [held_noDns k] at hm'
    by_cases hpl : pl = .dns k
    · subst hpl
      simp at hm'
    · rwa [Function.update_of_ne hpl] at hm'
  | answerStop m r e hp =>
    refine h.keep_reply (h.elsewhere .stop m hp (by simp)) rfl rfl rfl (fun _ h => h) rfl rfl ?_ rfl
    intro pl m' hm'
    have hm' : Abs.held { a with stop := none } pl = some m' := hm'
    rw [held_setStop none] at hm'
    by_cases hpl : pl = .stop
    · subst hpl
      simp at hm'
    · rwa [Function.update_of_ne hpl] at hm'
  | take i m hp =>
    refine h.emptied (k := .accept) (by decide) (Or.inl rfl) ⟨rfl, fun m' hm' => ?_⟩
    rcases List.mem_cons.mp hm' with rfl | hm'
    · exact Or.inr hp
    · exact Or.inl hm'
  | reply m r e hm hs =>
    exact h.keep_reply (h.plain m hm hs) rfl rfl rfl (fun _ h => List.mem_of_mem_erase h) rfl rfl
      (fun _ _ h => h) rfl
  | drop i k m hk hp hl =>
    exact h.emptied hk (Or.inl rfl) ⟨rfl, fun _ h => Or.inl h⟩
  | dropDns k m b hp hl =>
    refine h.keep (fun _ _ => Iff.rfl) (fun _ => rfl) (fun _ => rfl)
      (fun _ _ _ => Or.inl fun _ _ he => he) rfl rfl (fun m hm hs => Or.inl ⟨hm, hs⟩) ?_
      (fun i m hm => ⟨hm, rfl, rfl, rfl, rfl, fun _ h => h⟩)
      (fun s hs => ⟨s, hs, rfl, rfl, rfl, rfl, rfl, rfl⟩)
    intro pl m' hm' _
    rw [held_noDns k] at hm'
    by_cases hpl : pl = .dns k
    · subst hpl
      simp at hm'
    · exact Or.inl (by rwa [Function.update_of_ne hpl] at hm')
  | forgetDns k b hp =>
    refine h.keep (fun _ _ => Iff.rfl) (fun _ => rfl) (fun _ => rfl)
      (fun _ _ _ => Or.inl fun _ _ he => he) rfl rfl (fun m hm hs => Or.inl ⟨hm, hs⟩) ?_
      (fun i m hm => ⟨hm, rfl, rfl, rfl, rfl, fun _ h => h⟩)
      (fun s hs => ⟨s, hs, rfl, rfl, rfl, rfl, rfl, rfl⟩)
    intro pl m' hm' _
    rw [held_noDns k] at hm'
    by_cases hpl : pl = .dns k
    · subst hpl
      simp at hm'
    · exact Or.inl (by rwa [Function.update_of_ne hpl] at hm')
  | served i k hw => exact { h with }

/-! ## Sends -/

/-- A send starts. -/
theorem start (h : a.Sends) (ho : a.books.Once) {s : Sending} (hn : a.tok.sending = none)
    (hm : s.m ∈ a.tok.hand) (hlen : s.payload.length = s.len) (h0 : s.done = 0)
    (hlast : a.callOf s.m + 1 = a.calls) (hbuf : s.iov = none → (a.msg s.m).buf = s.buf)
    (hlog : a'.log = .sendStart (a.callOf s.m) s.payload :: a.log)
    (hcallOf : a'.callOf = a.callOf) (hcalls : a'.calls = a.calls) (hslot : a'.slot = a.slot)
    (hheld : a'.held = a.held) (hmsg : a'.msg = a.msg)
    (htok : a'.tok.hand = a.tok.hand ∧ a'.tok.sending = some s) : a'.Sends := by
  have hnew : ∀ pl, .sendStart (a.callOf s.m) pl ∉ a.log := h.plain s.m hm (by simp [hn])
  have hwrote : ∀ c, wrote c a'.log = wrote c a.log := fun c => by rw [hlog]; rfl
  have hwriters : ∀ p, writers p a'.log = writers p a.log := fun p => by rw [hlog]; rfl
  have hstart : ∀ {c pl}, .sendStart c pl ∈ a'.log →
      (c = a.callOf s.m ∧ pl = s.payload) ∨ .sendStart c pl ∈ a.log := by
    intro c pl hc
    rw [hlog, List.mem_cons] at hc
    simpa using hc
  have hreply : ∀ {c r e}, .reply c r e ∈ a'.log → .reply c r e ∈ a.log := by
    intro c r e he
    rw [hlog, List.mem_cons] at he
    simpa using he
  -- whoever has the number of the new send is the new send
  have other : ∀ {m pl}, a.books.Has m → m ≠ s.m → (∀ pl, .sendStart (a.callOf m) pl ∉ a.log) →
      .sendStart (a.callOf m) pl ∉ a'.log := by
    intro m pl hh hne hno hc
    rcases hstart hc with ⟨h1, -⟩ | h1
    · exact hne (ho.inj m s.m hh (Or.inl hm) h1)
    · exact hno pl h1
  refine
    { past := ?_, unique := ?_, fresh := ?_, plain := ?_, elsewhere := ?_, parked := ?_,
      inHand := ?_, all := ?_, order := ?_, turn := ?_, known := ?_ }
  · intro c pl hc
    rw [hcalls]
    rcases hstart hc with ⟨rfl, -⟩ | h1
    · exact Nat.lt_of_succ_le (le_of_eq hlast)
    · exact h.past c pl h1
  · intro c pl pl' hc hc'
    rcases hstart hc with ⟨h1, h2⟩ | h1 <;> rcases hstart hc' with ⟨h3, h4⟩ | h3
    · rw [h2, h4]
    · exact absurd (h1 ▸ h3) (hnew pl')
    · exact absurd (h3 ▸ h1) (hnew pl)
    · exact h.unique c pl pl' h1 h3
  · intro c hc
    rw [hwrote]
    exact h.fresh c fun pl hp => hc pl (by rw [hlog]; exact List.mem_cons_of_mem _ hp)
  · intro m hm' hs pl
    rw [htok.1] at hm'
    rw [hcallOf]
    have hne : m ≠ s.m := fun he => hs s htok.2 he.symm
    exact other (Or.inl hm') hne (h.plain m hm' (by simp [hn]))
  · intro pl m hm' hpl x
    rw [hheld] at hm'
    rw [hcallOf]
    have hne : m ≠ s.m := fun he => ho.out s.m hm pl (he ▸ hm')
    exact other (Or.inr ⟨pl, hm'⟩) hne (h.elsewhere pl m hm' hpl)
  · intro i m hm'
    rw [hslot] at hm'
    obtain ⟨k1, k2⟩ := h.parked i m hm'
    have hd : a'.parkedData i m = a.parkedData i m := by simp only [parkedData, hmsg, hslot]
    rw [hd, hmsg, hcallOf, hslot]
    exact ⟨k1, by rw [hlog]; exact List.mem_cons_of_mem _ k2.start, k2.le, by
      rw [hwrote]; exact k2.bytes⟩
  · intro s' hs'
    rw [htok.2, Option.some.injEq] at hs'
    subst hs'
    rw [hcallOf, hcalls, hmsg]
    refine ⟨hlen, ⟨by rw [hlog]; exact List.mem_cons_self .., by rw [h0]; exact Nat.zero_le _, ?_⟩,
      hlast, hbuf⟩
    rw [hwrote, h0, List.take_zero]
    exact h.fresh _ hnew
  · intro c pl hc
    rw [hwrote]
    rcases hstart hc with ⟨rfl, rfl⟩ | h1
    · refine ⟨0, Nat.zero_le _, by rw [h.fresh _ hnew, List.take_zero], fun r e he => ?_⟩
      have hno : a.callOf s.m ∉ a.log.filterMap Event.replied := ho.unanswered s.m (Or.inl hm)
      exact absurd (replied_of_mem (hreply he)) hno
    · obtain ⟨n, h2, h3, h4⟩ := h.all c pl h1
      exact ⟨n, h2, h3, fun r e he => h4 r e (hreply he)⟩
  · intro p
    rw [hwriters]
    exact h.order p
  · intro i m p hm' hp
    rw [hslot] at hm' hp
    rw [hwriters, hcallOf]
    exact h.turn i m p hm' hp
  · intro p
    rw [hwriters, hcalls]
    exact h.known p

/-- A call of `tn_tcp_write_some` for the call with number `c`, whose data is `pl` and whose
cursor was at `n`. `hpark` and `hsend` say what became of the cursors. -/
theorem write (h : a.Sends) (hd : a.Disc) (ho : a.books.Once) {p : PcbId} {c : CallNo} {bs : List (List UInt8)}
    {e : ErrT} {pl : List UInt8} {n : Nat} {v v' : PcbView} {m : MsgId} (hrec : OnRecord a.log c pl n)
    (hw : Wrote pl n bs e v v') (hm : a.books.Has m) (hc : a.callOf m = c)
    (hturn : ∀ x ∈ writers p a.log, x ≤ c)
    (hlog : a'.log = writeLog p c bs e ++ a.log) (hcallOf : a'.callOf = a.callOf)
    (hcalls : a'.calls = a.calls) (hheld : a'.held = a.held) (hmsg : a'.msg = a.msg)
    (hhand : a'.tok.hand = a.tok.hand)
    (hpark : ∀ i m', (a'.slot i).pending .send = some m' → (a.slot i).pending .send = some m' ∧
      (a'.slot i).sendIov = (a.slot i).sendIov ∧ (a'.slot i).tcp = (a.slot i).tcp ∧
      ((m' ≠ m ∧ (a'.slot i).sendDone = (a.slot i).sendDone ∧
          ∀ q, (a.slot i).tcp = some q → q ≠ p) ∨
        (m' = m ∧ a.parkedData i m = pl ∧ (a'.slot i).sendDone = n + bs.flatten.length)))
    (hplain : ∀ m', (∀ s, a'.tok.sending = some s → s.m ≠ m') →
      ∀ s, a.tok.sending = some s → s.m ≠ m')
    (hsend : ∀ s, a'.tok.sending = some s → ∃ s0, a.tok.sending = some s0 ∧ s.m = s0.m ∧
      s.buf = s0.buf ∧ s.iov = s0.iov ∧ s.len = s0.len ∧
      ((s0.m ≠ m ∧ s.done = s0.done) ∨
        (s0.m = m ∧ s0.payload = pl ∧ s.done = n + bs.flatten.length))) : a'.Sends := by
  have hwrote : ∀ c', wrote c' a'.log = if c = c' then wrote c' a.log ++ bs.flatten
      else wrote c' a.log := fun c' => by rw [hlog]; exact wrote_writeLog c'
  have hwriters : ∀ p', writers p' a'.log
      = (if p = p' then List.replicate bs.length c else []) ++ writers p' a.log := fun p' => by
    rw [hlog]
    exact writers_writeLog p'
  have hstart : ∀ c' pl', .sendStart c' pl' ∈ a'.log ↔ .sendStart c' pl' ∈ a.log := by
    intro c' pl'
    rw [hlog, List.mem_append, or_iff_right]
    intro hx
    rcases mem_writeLog hx with ⟨b, hb⟩ | ⟨e', he'⟩
    · cases hb
    · cases he'
  have hreply : ∀ c' r e', .reply c' r e' ∈ a'.log → .reply c' r e' ∈ a.log := by
    intro c' r e' hx
    rw [hlog, List.mem_append] at hx
    refine hx.resolve_left fun hx => ?_
    rcases mem_writeLog hx with ⟨b, hb⟩ | ⟨e', he'⟩
    · cases hb
    · cases he'
  have hne : ∀ {m'}, a.books.Has m' → m' ≠ m → c ≠ a.callOf m' := fun hh hx he =>
    hx (ho.inj _ m hh hm (he ▸ hc).symm)
  -- the record of the writing call and of all others
  have hthis : OnRecord a'.log c pl (n + bs.flatten.length) := by
    refine ⟨(hstart _ _).mpr hrec.start, hw.fits, ?_⟩
    rw [hwrote, if_pos rfl, hrec.bytes, List.take_add]
    congr 1
    exact hw.bytes
  have hother : ∀ {c' pl' n'}, c ≠ c' → OnRecord a.log c' pl' n' → OnRecord a'.log c' pl' n' :=
    fun hcc hr => ⟨(hstart _ _).mpr hr.start, hr.le, by rw [hwrote, if_neg hcc]; exact hr.bytes⟩
  refine
    { past := ?_, unique := ?_, fresh := ?_, plain := ?_, elsewhere := ?_, parked := ?_,
      inHand := ?_, all := ?_, order := ?_, turn := ?_, known := ?_ }
  · intro c' pl' hx
    rw [hcalls]
    exact h.past c' pl' ((hstart _ _).mp hx)
  · intro c' pl' pl'' hx hx'
    exact h.unique c' pl' pl'' ((hstart _ _).mp hx) ((hstart _ _).mp hx')
  · intro c' hx
    have hcc : c ≠ c' := fun he => hx pl ((hstart _ _).mpr (he ▸ hrec.start))
    rw [hwrote, if_neg hcc]
    exact h.fresh c' fun pl' hp => hx pl' ((hstart _ _).mpr hp)
  · intro m' hm' hs pl' hx
    rw [hhand] at hm'
    rw [hcallOf, hstart] at hx
    exact h.plain m' hm' (hplain m' hs) pl' hx
  · intro pl' m' hm' hs x hx
    rw [hheld] at hm'
    rw [hcallOf, hstart] at hx
    exact h.elsewhere pl' m' hm' hs x hx
  · intro i m' hm'
    obtain ⟨h1, h2, -, h4⟩ := hpark i m' hm'
    obtain ⟨k1, k2⟩ := h.parked i m' h1
    have hpl : a'.parkedData i m' = a.parkedData i m' := by simp only [parkedData, h2, hmsg]
    rw [hpl, hmsg, hcallOf]
    refine ⟨k1, ?_⟩
    rcases h4 with ⟨h4, h5, -⟩ | ⟨rfl, h5, h6⟩
    · rw [h5]
      exact hother (hne (Or.inr ⟨.slot i .send, h1⟩) h4) k2
    · rw [h5, h6, hc]
      exact hthis
  · intro s hs
    obtain ⟨s0, h0, h1, h2, h3, h4, h5⟩ := hsend s hs
    obtain ⟨k1, k2, k3, k4⟩ := h.inHand s0 h0
    have hpl : s.payload = s0.payload := by simp only [Sending.payload, h2, h3, h4]
    rw [hpl, h4, hcallOf, hcalls, h1, hmsg, h2, h3]
    refine ⟨k1, ?_, k3, k4⟩
    rcases h5 with ⟨h5, h6⟩ | ⟨h5, h6, h7⟩
    · rw [h6]
      refine hother (fun hx => ?_) k2
      exact hne (Or.inl (hd.sending s0 h0).hand) h5 hx
    · rw [h5, hc, h6, h7]
      exact hthis
  · intro c' pl' hx
    rw [hstart] at hx
    by_cases hcc : c = c'
    · subst hcc
      obtain rfl := h.unique c pl pl' hrec.start hx
      refine ⟨n + bs.flatten.length, hthis.le, hthis.bytes, fun r e' he => ?_⟩
      have hno : c ∉ a.log.filterMap Event.replied := hc ▸ ho.unanswered m hm
      exact absurd (replied_of_mem (hreply _ _ _ he)) hno
    · rw [hwrote, if_neg hcc]
      obtain ⟨n', h2, h3, h4⟩ := h.all c' pl' hx
      exact ⟨n', h2, h3, fun r e' he => h4 r e' (hreply _ _ _ he)⟩
  · intro p'
    rw [hwriters, List.pairwise_append]
    refine ⟨?_, h.order p', ?_⟩
    · split
      · exact List.pairwise_replicate.mpr (Or.inr le_rfl)
      · exact List.Pairwise.nil
    · intro x hx y hy
      split at hx
      · rename_i hp
        subst hp
        rw [List.eq_of_mem_replicate hx]
        exact hturn y hy
      · cases hx
  · intro i m' p' hm' hp' x hx
    obtain ⟨h1, -, h3, h4⟩ := hpark i m' hm'
    rw [h3] at hp'
    rw [hwriters, List.mem_append] at hx
    rw [hcallOf]
    rcases hx with hx | hx
    · split at hx
      · rename_i hp
        subst hp
        rw [List.eq_of_mem_replicate hx]
        rcases h4 with ⟨-, -, h5⟩ | ⟨h5, -, -⟩
        · exact absurd rfl (h5 p hp')
        · rw [h5, hc]
      · cases hx
    · exact h.turn i m' p' h1 hp' x hx
  · intro p' x hx
    rw [hwriters, List.mem_append] at hx
    rw [hcalls]
    rcases hx with hx | hx
    · split at hx
      · rw [List.eq_of_mem_replicate hx, ← hc]
        exact ho.known m hm
      · cases hx
    · exact h.known p' x hx

/-- A parked send leaves its field, answered or not. -/
theorem unpark (h : a.Sends) (ho : a.books.Once) {i : SlotIdx} {m : MsgId} {e : Errno}
    {log : List Event} {t : Tok} (hm : (a.slot i).pending .send = some m)
    (hlog : log = .sendEnd (a.callOf m) e :: a.log ∨
      log = .reply (a.callOf m) (sendResult (a.slot i).sendDone e).1
        (sendResult (a.slot i).sendDone e).2 :: .sendEnd (a.callOf m) e :: a.log)
    (ht : t.hand = a.tok.hand ∧ t.sending = a.tok.sending) :
    ({ a.slotSet i { (a.slot i).setPend .send none with sendDone := 0, sendIov := none } with
      log := log, tok := t } : Abs).Sends := by
  obtain ⟨-, hrec⟩ := h.parked i m hm
  have hl : (∀ c pl, Event.sendStart c pl ∈ log ↔ .sendStart c pl ∈ a.log) ∧
      (∀ c, wrote c log = wrote c a.log) ∧ (∀ p, writers p log = writers p a.log) := by
    rcases hlog with rfl | rfl
    · exact ⟨fun _ _ => start_cons rfl, fun c => wrote_cons rfl c _, fun p => writers_cons rfl p _⟩
    · exact ⟨fun _ _ => (start_cons rfl).trans (start_cons rfl),
        fun c => (wrote_cons rfl c _).trans (wrote_cons rfl c _),
        fun p => (writers_cons rfl p _).trans (writers_cons rfl p _)⟩
  refine h.keep hl.1 hl.2.1 hl.2.2 ?_ rfl rfl ?_ ?_ ?_ ?_
  · intro c pl hc
    rcases hlog with rfl | rfl
    · exact Or.inl fun r e' he => by simpa using he
    · by_cases hcc : c = a.callOf m
      · subst hcc
        obtain rfl := h.unique _ _ _ hrec.start hc
        refine Or.inr ⟨(a.slot i).sendDone, hrec.le, hrec.bytes, fun r e' he => ?_⟩
        have hno : a.callOf m ∉ a.log.filterMap Event.replied :=
          ho.unanswered m (Or.inr ⟨.slot i .send, hm⟩)
        simp only [List.mem_cons, reduceCtorEq, false_or, Event.reply.injEq, true_and] at he
        rcases he with ⟨rfl, -⟩ | he
        · unfold SendAnswer sendResult
          split
          · simp_all
          · exact Or.inl (by simp_all)
        · exact absurd (replied_of_mem he) hno
      · refine Or.inl fun r e' he => ?_
        simpa [hcc] using he
  · intro m' hm' hs
    refine Or.inl ⟨ht.1 ▸ hm', fun s hs' => hs s ?_⟩
    show t.sending = some s
    rw [ht.2]
    exact hs'
  · intro pl m' hm' _
    have hx : (a.slotSet i { (a.slot i).setPend .send none with
      sendDone := 0, sendIov := none }).held pl = some m' := hm'
    rw [held_setPend i .send none _ rfl] at hx
    by_cases hp : pl = .slot i .send
    · subst hp
      simp at hx
    · exact Or.inl (by rwa [Function.update_of_ne hp] at hx)
  · intro j m' hm'
    by_cases hj : j = i
    · subst hj
      simp [SlotView.setPend] at hm'
    · have hs : ({ a.slotSet i { (a.slot i).setPend .send none with
          sendDone := 0, sendIov := none } with log := log, tok := t } : Abs).slot j = a.slot j :=
        Function.update_of_ne hj _ _
      rw [hs] at hm' ⊢
      exact ⟨hm', rfl, rfl, rfl, rfl, fun _ h => h⟩
  · intro s hs
    exact ⟨s, by rw [← ht.2]; exact hs, rfl, rfl, rfl, rfl, rfl, rfl⟩

/-- The send in hand is parked. -/
theorem park (h : a.Sends) (hd : a.Disc) (ho : a.books.Once) {s : Sending} {v : SlotView}
    (hs : a.tok.sending = some s) (hslot : a'.slot = Function.update a.slot s.i v)
    (hp : v.pending .send = some s.m) (hdone : v.sendDone = s.done) (hiov : v.sendIov = s.iov)
    (hheld : a'.held = Function.update a.held (.slot s.i .send) (some s.m))
    (hmsg : a'.msg = Function.update a.msg s.m { a.msg s.m with len := s.len })
    (hlog : a'.log = a.log) (hcallOf : a'.callOf = a.callOf) (hcalls : a'.calls = a.calls)
    (htok : a'.tok.hand = a.tok.hand.erase s.m ∧ a'.tok.sending = none) : a'.Sends := by
  obtain ⟨k1, k2, k3, k4⟩ := h.inHand s hs
  have hm := (hd.sending s hs).hand
  -- the parked data is the data in hand
  have hdata : sendPayload (a.msg s.m).buf s.iov s.len = s.payload := by
    unfold Sending.payload sendPayload
    cases hi : s.iov with
    | none => simp only [k4 hi]
    | some l => rfl
  -- a parked send is the new one or an old one
  have hcase : ∀ {i m'}, (a'.slot i).pending .send = some m' → (i = s.i ∧ m' = s.m) ∨
      (a'.slot i = a.slot i ∧ (a.slot i).pending .send = some m' ∧ m' ≠ s.m) := by
    intro i m' hm'
    by_cases hi : i = s.i
    · subst hi
      rw [hslot, Function.update_self, hp, Option.some.injEq] at hm'
      exact Or.inl ⟨rfl, hm'.symm⟩
    · have hsl : a'.slot i = a.slot i := by rw [hslot, Function.update_of_ne hi]
      rw [hsl] at hm'
      exact Or.inr ⟨hsl, hm', fun he => ho.out s.m hm (.slot i .send) (he ▸ hm')⟩
  refine
    { past := by rw [hlog, hcalls]; exact h.past
      unique := by rw [hlog]; exact h.unique
      fresh := by rw [hlog]; exact h.fresh
      plain := ?_
      elsewhere := ?_
      parked := ?_
      inHand := by rw [htok.2]; simp
      all := by rw [hlog]; exact h.all
      order := by rw [hlog]; exact h.order
      turn := ?_
      known := by rw [hlog, hcalls]; exact h.known }
  · intro m' hm' _
    rw [htok.1] at hm'
    rw [hcallOf, hlog]
    have hne : m' ≠ s.m := ((ho.nodup).mem_erase_iff.mp hm').1
    refine h.plain m' (List.mem_of_mem_erase hm') fun s' hs' => ?_
    rw [hs, Option.some.injEq] at hs'
    exact hs' ▸ hne.symm
  · intro pl m' hm' hpl
    rw [hheld, Function.update_of_ne (hpl s.i)] at hm'
    rw [hcallOf, hlog]
    exact h.elsewhere pl m' hm' hpl
  · intro i m' hm'
    unfold parkedData
    rw [hlog, hcallOf]
    rcases hcase hm' with ⟨rfl, rfl⟩ | ⟨h1, h2, h3⟩
    · simp only [hslot, hmsg, Function.update_self, hiov, hdone, hdata]
      exact ⟨k1, k2⟩
    · rw [h1, hmsg, Function.update_of_ne h3]
      exact h.parked i m' h2
  · intro i m' p hm' hp' x hx
    rw [hlog] at hx
    rw [hcallOf]
    rcases hcase hm' with ⟨rfl, rfl⟩ | ⟨h1, h2, -⟩
    · have hlt := h.known p x hx
      rw [← k3] at hlt
      exact Nat.lt_succ_iff.mp hlt
    · rw [h1] at hp'
      exact h.turn i m' p h2 hp' x hx

/-- The acts of the stream send path. -/
theorem sendAct (h : a.Sends) (hd : a.Disc) (ho : a.books.Once) (ha : SendAct P a a') :
    a'.Sends := by
  cases ha with
  | start s hn hm hu hrf hdy hlen h0 hw hlast hbuf hl =>
    exact h.start ho hn hm hlen h0 hlast hbuf rfl rfl rfl rfl rfl rfl ⟨rfl, rfl⟩
  -- A send that passed its checks has written nothing yet.
  | passed s hs hw hst hp =>
    refine h.keep (fun _ _ => Iff.rfl) (fun _ => rfl) (fun _ => rfl)
      (fun _ _ _ => Or.inl fun _ _ he => he) rfl rfl (fun m hm hs' => Or.inl ⟨hm, fun s' hx => ?_⟩)
      (fun pl m hm _ => Or.inl hm) (fun i m hm => ⟨hm, rfl, rfl, rfl, rfl, fun _ h => h⟩)
      (fun s' hx => ?_)
    · rw [hs, Option.some.injEq] at hx
      subst hx
      exact hs' { s with writing := true } rfl
    · obtain rfl : { s with writing := true } = s' := by simpa using hx
      exact ⟨s, hs, rfl, rfl, rfl, rfl, rfl, rfl⟩
  -- A burst is written by the send in hand, in its turn.
  | write s p c c' bs e hs hw ht hc hb =>
    obtain ⟨k1, k2, k3, k4⟩ := h.inHand s hs
    have hsd := hd.sending s hs
    refine h.write hd ho (m := s.m) k2 hb (Or.inl hsd.hand) rfl ?_ rfl rfl rfl rfl rfl rfl ?_ ?_ ?_
    · intro x hx
      have hlt := h.known p x hx
      rw [← k3] at hlt
      exact Nat.lt_succ_iff.mp hlt
    · intro i m' hm'
      have hold : (a.slot i).pending .send = some m' := hm'
      refine ⟨hold, rfl, rfl, Or.inl ⟨fun he => ?_, rfl, fun q hq he => ?_⟩⟩
      · exact ho.out s.m hsd.hand (.slot i .send) (he ▸ hold)
      -- A send parked at the same pcb would be parked in the slot of the send in hand.
      · subst he
        have hi : s.i = i := hd.slot_unique hq ht
        rw [← hi, hsd.pending hw] at hold
        cases hold
    · intro m' hs' s' hx
      rw [hs, Option.some.injEq] at hx
      subst hx
      exact hs' { s with done := s.done + bs.flatten.length, res := e } rfl
    · intro s' hx
      obtain rfl : { s with done := s.done + bs.flatten.length, res := e } = s' := by simpa using hx
      exact ⟨s, hs, rfl, rfl, rfl, rfl, Or.inr ⟨rfl, rfl, rfl⟩⟩
  -- A burst is written by the parked send of the slot.
  | resume i m p c c' bs e hu hm ht hc hb =>
    obtain ⟨-, k2⟩ := h.parked i m hm
    refine h.write hd ho (m := m) k2 hb (Or.inr ⟨.slot i .send, hm⟩) rfl (h.turn i m p hm ht)
      rfl rfl rfl ?_ rfl rfl ?_ (fun _ h => h) ?_
    · funext pl
      cases pl with
      | slot j k =>
        by_cases hj : j = i
        · subst hj
          simp [held]
        · simp [held, hj]
      | dns k => rfl
      | stop => rfl
    · intro j m' hm'
      by_cases hj : j = i
      · subst hj
        have hm' : (a.slot j).pending .send = some m' := by simpa using hm'
        rw [hm, Option.some.injEq] at hm'
        subst hm'
        refine ⟨hm, by simp, by simp, Or.inr ⟨rfl, rfl, by simp⟩⟩
      · have hold : (a.slot j).pending .send = some m' := by simpa [hj] using hm'
        refine ⟨hold, by simp [hj], by simp [hj], Or.inl ⟨fun he => ?_, by simp [hj], fun q hq he => ?_⟩⟩
        · rw [he] at hold
          have hpl := ho.apart (.slot j .send) (.slot i .send) m hold hm
          simp only [Place.slot.injEq, and_true] at hpl
          exact hj hpl
        · rw [he] at hq
          exact hj (hd.slot_unique ht hq)
    · intro s hs
      have hs : a.tok.sending = some s := hs
      exact ⟨s, hs, rfl, rfl, rfl, rfl, Or.inl ⟨fun he =>
        ho.out s.m (hd.sending s hs).hand (.slot i .send) (he ▸ hm), rfl⟩⟩
  | finish i m e hm he => exact h.unpark ho hm (Or.inr rfl) ⟨rfl, rfl⟩
  | dropSend i m e hm hl => exact h.unpark ho hm (Or.inl rfl) ⟨rfl, rfl⟩
  | park s p c hs hm hw hp ht hc hl =>
    exact h.park hd ho hs rfl (by simp [SlotView.setPend]) rfl rfl
      (held_setPend s.i .send (some s.m) _ rfl) rfl rfl rfl rfl ⟨rfl, rfl⟩
  | cut s e hs =>
    exact h.keep (fun _ _ => start_cons rfl) (fun c => wrote_cons rfl c _)
      (fun p => writers_cons rfl p _) (fun c pl _ => Or.inl fun r e he => by simpa using he) rfl rfl
      (fun m hm hs => Or.inl ⟨hm, hs⟩) (fun pl m hm _ => Or.inl hm)
      (fun i m hm => ⟨hm, rfl, rfl, rfl, rfl, fun _ h => h⟩)
      (fun s hs => ⟨s, hs, rfl, rfl, rfl, rfl, rfl, rfl⟩)
  -- The reply gives the number of bytes written.
  | reply s r e hs hm hr hl =>
    obtain ⟨k1, k2, k3, k4⟩ := h.inHand s hs
    refine h.keep (fun _ _ => start_cons rfl) (fun c => wrote_cons rfl c _)
      (fun p => writers_cons rfl p _) (fun c pl hc => ?_) rfl rfl (fun m' hm' _ => ?_)
      (fun pl m hm _ => Or.inl hm) (fun i m hm => ⟨hm, rfl, rfl, rfl, rfl, fun _ h => h⟩)
      (fun s' hx => by simp at hx)
    · by_cases hcc : c = a.callOf s.m
      · subst hcc
        obtain rfl := h.unique _ _ _ k2.start hc
        refine Or.inr ⟨s.done, k2.le, k2.bytes, fun r' e' he => ?_⟩
        -- Its call has no reply yet.
        have hno : a.callOf s.m ∉ a.log.filterMap Event.replied := ho.unanswered s.m (Or.inl hm)
        simp only [Abs.setTok_log, Abs.say_log, List.mem_cons, Event.reply.injEq, true_and] at he
        rcases he with ⟨rfl, -⟩ | he
        · rw [k1]
          exact hr
        · exact absurd (replied_of_mem he) hno
      · refine Or.inl fun r' e' he => ?_
        simpa [hcc] using he
    · refine Or.inl ⟨List.mem_of_mem_erase hm', fun s' hs' => ?_⟩
      rw [hs, Option.some.injEq] at hs'
      subst hs'
      exact ((ho.nodup).mem_erase_iff.mp hm').1.symm

end Abs.Sends

end Tolunnet
