import Tolunnet.Abstract.Sound

/-!
# `Tolunnet.Abstract.Histories`: the bytes of a stream

The history of a slot lists the bytes that have been taken from lwIP and the bytes that have been
handed to clients. On a stream that is read, the second list and what is still queued make up the
first one: nothing is lost, doubled or reordered, also not when a queued connection with early data
becomes a slot. The window that has been given back to the peer is what was handed out while there
was a connection.
-/

set_option autoImplicit false

namespace Tolunnet

/-- The history of a stream agrees with its queue. -/
structure RxHist.Agrees (h : RxHist) (rx : List TnRxPacket) : Prop where
  bytes : h.returned ++ rxBytes rx = h.accepted
  window : h.recved = h.attached

namespace RxHist.Agrees

variable {h : RxHist} {rx rest : List TnRxPacket} {pkt : TnRxPacket}

/-- A packet comes in. -/
theorem push (ha : h.Agrees rx) (pkt : TnRxPacket) (ho : pkt.offset = 0) :
    ({ h with accepted := h.accepted ++ pkt.p } : RxHist).Agrees (rx ++ [pkt]) where
  bytes := by
    have whole : pkt.rest = pkt.p := by
      unfold TnRxPacket.rest
      rw [ho, List.drop_zero]
    show h.returned ++ rxBytes (rx ++ [pkt]) = h.accepted ++ pkt.p
    rw [← ha.bytes, List.append_assoc]
    simp [rxBytes, whole]
  window := ha.window

/-- What is queued after `n` bytes of the first packet have been read. -/
theorem rxBytes_advanced (pkt : TnRxPacket) (rest : List TnRxPacket) (n : Nat) :
    rxBytes (advanced pkt rest n) = pkt.rest.drop n ++ rxBytes rest := by
  unfold advanced
  split
  · rename_i h
    have none : pkt.rest.drop n = [] := by
      unfold TnRxPacket.rest
      rw [List.drop_drop]
      exact List.drop_eq_nil_of_le h
    rw [none, List.nil_append]
  · simp [rxBytes, TnRxPacket.rest, List.drop_drop]

/-- Bytes are read. -/
theorem took (ha : h.Agrees (pkt :: rest)) (n : Nat) (attached : Bool) :
    (h.took pkt n attached).Agrees (advanced pkt rest n) where
  bytes := by
    show (h.returned ++ pkt.rest.take n) ++ rxBytes (advanced pkt rest n) = h.accepted
    rw [rxBytes_advanced, List.append_assoc, ← List.append_assoc (pkt.rest.take n),
      List.take_append_drop, ← ha.bytes]
    rfl
  window := by
    show h.recved + _ = h.attached + _
    rw [ha.window]

end RxHist.Agrees

namespace Abs

variable {P : Label → Prop} {a a' : Abs} {i : SlotIdx}

/-- The history of every stream that is read agrees with its queue, and so does that of the accept
entries. -/
structure Histories (a : Abs) : Prop where
  slots : ∀ i, (a.slot i).inUse = true → (a.slot i).type = sockStream →
    (a.slot i).shutRd = false → i ∉ a.tok.dying → (a.slot i).hist.Agrees (a.slot i).rx
  entries : ∀ i, ∀ x ∈ (a.slot i).q, x.hist.Agrees x.earlyRx
  inHand : ∀ x, a.tok.ent = some x → x.hist.Agrees x.earlyRx

namespace Histories

/-- No slot changes. -/
theorem same (h : a.Histories) (hslot : a'.slot = a.slot) (hent : a'.tok.ent = a.tok.ent)
    (hdying : a.tok.dying ⊆ a'.tok.dying) : a'.Histories where
  slots := fun i hu ht hs hd => by
    rw [hslot] at hu ht hs ⊢
    exact h.slots i hu ht hs fun hm => hd (hdying hm)
  entries := fun i x hx => by
    rw [hslot] at hx
    exact h.entries i x hx
  inHand := fun x hx => h.inHand x (hent ▸ hx)

/-- One slot changes. -/
theorem one (h : a.Histories) {s : SlotView} (hslot : a'.slot = Function.update a.slot i s)
    (hs : s.inUse = true → s.type = sockStream → s.shutRd = false → i ∉ a'.tok.dying →
      s.hist.Agrees s.rx)
    (hq : ∀ x ∈ s.q, x.hist.Agrees x.earlyRx)
    (hent : ∀ x, a'.tok.ent = some x → x.hist.Agrees x.earlyRx)
    (hdying : ∀ j, j ≠ i → j ∉ a'.tok.dying → j ∉ a.tok.dying) : a'.Histories where
  slots := fun j hu ht hsh hd => by
    by_cases hj : j = i
    · subst hj
      rw [hslot, Function.update_self] at hu ht hsh ⊢
      exact hs hu ht hsh hd
    · rw [hslot, Function.update_of_ne hj] at hu ht hsh ⊢
      exact h.slots j hu ht hsh (hdying j hj hd)
  entries := fun j x hx => by
    by_cases hj : j = i
    · subst hj
      rw [hslot, Function.update_self] at hx
      exact hq x hx
    · rw [hslot, Function.update_of_ne hj] at hx
      exact h.entries j x hx
  inHand := hent

/-- One slot changes, but neither its queue nor its accept entries. -/
theorem field (h : a.Histories) {s : SlotView} (hslot : a'.slot = Function.update a.slot i s)
    (hs : s.inUse = true → (a.slot i).inUse = true)
    (hf : s.type = (a.slot i).type ∧ s.rx = (a.slot i).rx ∧ s.q = (a.slot i).q)
    (hshut : s.shutRd = false → (a.slot i).shutRd = false)
    (hh : s.hist = (a.slot i).hist)
    (hent : a'.tok.ent = a.tok.ent) (hdying : a.tok.dying ⊆ a'.tok.dying) : a'.Histories := by
  refine h.one hslot (fun hu ht hsh hd => ?_) ?_ ?_ ?_
  · rw [hh, hf.2.1]
    exact h.slots i (hs hu) (hf.1 ▸ ht) (hshut hsh) fun hm => hd (hdying hm)
  · rw [hf.2.2]
    exact h.entries i
  · rw [hent]
    exact h.inHand
  · exact fun j _ hd hm => hd (hdying hm)

/-- The acts on messages. -/
theorem msg (h : a.Histories) (ha : MsgAct P a a') : a'.Histories := by
  cases ha <;> first
    | exact h.same rfl rfl (List.Subset.refl _)
    | exact h.field rfl id ⟨rfl, rfl, rfl⟩ id rfl rfl (List.Subset.refl _)

/-- The acts on stream sends. -/
theorem send (h : a.Histories) (ha : SendAct P a a') : a'.Histories := by
  cases ha <;> first
    | exact h.same rfl rfl (List.Subset.refl _)
    | exact h.field rfl id ⟨rfl, rfl, rfl⟩ id rfl rfl (List.Subset.refl _)

/-- The acts on selectors. -/
theorem sel (h : a.Histories) (ha : SelAct a a') : a'.Histories := by
  cases ha <;> exact h.same rfl rfl (List.Subset.refl _)

/-- The acts on references. -/
theorem ref (h : a.Histories) (ha : RefAct P a a') : a'.Histories := by
  cases ha with
  | alloc i type hf =>
    -- a new slot starts with an empty history
    exact h.one (i := i) rfl (fun _ _ _ _ => ⟨rfl, rfl⟩) (fun x hx => by cases hx) h.inHand
      fun _ _ hd => hd
  | lastRef i hi hu hr =>
    exact h.field (i := i) rfl id ⟨rfl, rfl, rfl⟩ id rfl rfl (List.subset_cons_self ..)
  | condemn i hi hu hr => exact h.same rfl rfl (List.subset_cons_self ..)
  | clear i hd hp ht hu hr hq hx hl =>
    refine h.one (i := i) rfl (fun hu => by cases hu) (h.entries i) h.inHand fun j hj hd hm => ?_
    exact hd (List.mem_filter.mpr ⟨hm, by simpa using hj⟩)
  | unref i | dup _ _ _ i | parkCopy i | parkMove _ _ i | obtain _ _ i =>
    exact h.field (i := i) rfl id ⟨rfl, rfl, rfl⟩ id rfl rfl (List.Subset.refl _)
  | install | takeFd | dangle | register | unregister | closed =>
    exact h.same rfl rfl (List.Subset.refl _)

/-- The acts on receive queues. -/
theorem rx (h : a.Histories) (ha : RxAct P a a') : a'.Histories := by
  cases ha with
  | push i pkt hu ho ht =>
    exact h.one (i := i) rfl (fun hu ht hs hd => (h.slots i hu ht hs hd).push pkt ho) (h.entries i)
      h.inHand fun _ _ hd => hd
  | take i pkt rest n hq hn =>
    refine h.one (i := i) rfl (fun hu ht hs hd => ?_) (h.entries i) h.inHand fun _ _ hd => hd
    have agrees := h.slots i hu ht hs hd
    rw [hq] at agrees
    exact agrees.took n _
  | pop i ht =>
    exact h.one (i := i) rfl (fun _ hs => absurd hs ht) (h.entries i) h.inHand fun _ _ hd => hd
  | drain i hd =>
    -- the queue is thrown away only when nobody will read it
    refine h.one (i := i) rfl (fun _ _ hs hd' => ?_) (h.entries i) h.inHand fun _ _ hd => hd
    rcases hd with hd | hd
    · rw [show (a.slot i).shutRd = false from hs] at hd
      cases hd
    · exact absurd hd hd'
  | window i n hd =>
    refine h.one (i := i) rfl (fun _ _ hs _ => ?_) (h.entries i) h.inHand fun _ _ hd => hd
    rw [show (a.slot i).shutRd = false from hs] at hd
    cases hd
  | shut i rd wr =>
    refine h.field (i := i) rfl id ⟨rfl, rfl, rfl⟩ (fun hs => ?_) rfl rfl (List.Subset.refl _)
    exact (Bool.or_eq_false_iff.mp hs).1
  | lost i =>
    refine h.one (i := i) rfl (fun hu ht hs hd => ?_) (h.entries i) h.inHand fun _ _ hd => hd
    have agrees := h.slots i hu ht hs hd
    exact ⟨agrees.bytes, agrees.window⟩
  | clearErr i => exact h.field (i := i) rfl id ⟨rfl, rfl, rfl⟩ id rfl rfl (List.Subset.refl _)
  | nonblock i v hl => exact h.field (i := i) rfl id ⟨rfl, rfl, rfl⟩ id rfl rfl (List.Subset.refl _)

/-- The accept entries after one of them has changed. -/
theorem mod_entries {q : List TnAcceptEntry} {e : EntId} {f : TnAcceptEntry → TnAcceptEntry}
    (hq : ∀ x ∈ q, x.hist.Agrees x.earlyRx)
    (hf : ∀ x : TnAcceptEntry, x.hist.Agrees x.earlyRx → (f x).hist.Agrees (f x).earlyRx) :
    ∀ x ∈ modEntries q e f, x.hist.Agrees x.earlyRx := by
  intro x hx
  obtain ⟨y, hy, rfl⟩ := List.mem_map.mp hx
  split
  · exact hf y (hq y hy)
  · exact hq y hy

/-- The acts on connections. -/
theorem tcp (h : a.Histories) (ha : TcpAct P a a') : a'.Histories := by
  -- the slot whose accept queue changes keeps its own history
  have queue : ∀ {a' : Abs} {i : SlotIdx} {q : List TnAcceptEntry},
      a'.slot = Function.update a.slot i { a.slot i with q := q } →
      (∀ x ∈ q, x.hist.Agrees x.earlyRx) →
      (∀ x, a'.tok.ent = some x → x.hist.Agrees x.earlyRx) → a'.tok.dying = a.tok.dying →
      a'.Histories := fun {a' i q} hslot hq hent hdying =>
    h.one hslot (fun hu ht hs hd => h.slots i hu ht hs (hdying ▸ hd)) hq hent
      fun _ _ hd => hdying ▸ hd
  cases ha with
  | entData i e seg =>
    exact queue (i := i) rfl (mod_entries (h.entries i) fun x hx => hx.push { p := seg } rfl)
      h.inHand rfl
  | entFin i e => exact queue (i := i) rfl (mod_entries (h.entries i) fun x hx => hx) h.inHand rfl
  | entGone i x p hx hp =>
    exact queue (i := i) rfl (fun y hy => h.entries i y (List.mem_of_mem_eraseP hy)) h.inHand rfl
  | pushEntry i p e c hu hs hdy hp hc he hn =>
    refine queue (i := i) rfl (fun x hx => ?_) h.inHand rfl
    rcases List.mem_append.mp hx with hx | hx
    · exact h.entries i x hx
    · obtain rfl := List.mem_singleton.mp hx
      exact ⟨rfl, rfl⟩
  | popEntry i x rest hq hn =>
    have mem : ∀ y ∈ x :: rest, y.hist.Agrees y.earlyRx := hq ▸ h.entries i
    refine queue (i := i) rfl (fun y hy => mem y (List.mem_cons_of_mem _ hy)) (fun y hy => ?_) rfl
    obtain rfl := Option.some.inj hy
    exact mem x (List.mem_cons_self ..)
  | takeEntry j x p c hj hx hp hc =>
    refine h.one (i := j) rfl (fun _ _ _ _ => h.inHand x hx) (fun y hy => ?_) (fun y hy => ?_)
      fun _ _ hd => hd
    · rw [show _ = _ from hj.q] at hy
      cases hy
    · cases hy
  | dropEntry i x rest p hq hp =>
    refine queue (i := i) rfl (fun y hy => ?_) h.inHand rfl
    exact h.entries i y (hq ▸ List.mem_cons_of_mem _ hy)
  | freeEntry x p hx hp =>
    exact ⟨h.slots, h.entries, fun y hy => by cases hy⟩
  | _ => first
    | exact h.same rfl rfl (List.Subset.refl _)
    | exact h.field rfl id ⟨rfl, rfl, rfl⟩ id rfl rfl (List.Subset.refl _)

/-- Every act keeps the histories. -/
theorem act (h : a.Histories) (hs : a.Sound) (ha : Act P a a') : a'.Histories := by
  cases ha with
  | msg ha => exact h.msg ha
  | send ha => exact h.send ha
  | ref ha => exact h.ref ha
  | tcp ha => exact h.tcp ha
  | rx ha => exact h.rx ha
  | sel ha => exact h.sel ha
  | broken hn => exact absurd hs hn

end Histories

end Abs

end Tolunnet
