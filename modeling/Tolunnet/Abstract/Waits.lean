import Tolunnet.Abstract.Sound

/-!
# `Tolunnet.Abstract.Waits`: parked requests have a reason to wait

A request that has been parked in a slot still has the reason it was parked for: a read waits for an
empty queue on an open connection, a connect for the handshake, an accept at a listener. In the
middle of a step that may not be so any more, and then the request is in `serve`, the list of those
that must be looked at before the step ends.
-/

set_option autoImplicit false

namespace Tolunnet

namespace Abs

variable {P : Label → Prop} {a a' : Abs} {i : SlotIdx}

/-- Every parked request has a reason to wait or is about to be looked at. -/
def Reasoned (a : Abs) : Prop :=
  ∀ i k m, (a.slot i).pending k = some m → (i, k) ∈ a.tok.serve ∨ (a.slot i).Waits k

namespace Reasoned

/-- The reasons of a slot do not depend on its other fields. -/
theorem waits_congr {s s' : SlotView} {k : Pend} (h : s.Waits k) (htype : s'.type = s.type)
    (hst : s'.st = s.st) (hrx : s'.rx = s.rx) (hshut : s'.shutRd = s.shutRd)
    (htcp : s'.tcp = s.tcp) : s'.Waits k := by
  cases k with
  | recv =>
    show s'.RecvWaits
    unfold SlotView.RecvWaits
    rw [htype, hrx, hst, hshut]
    exact h
  | connect =>
    show s'.ConnectWaits
    unfold SlotView.ConnectWaits
    rw [hst, htcp]
    exact h
  | accept => exact hst.trans h
  | send => trivial

/-- No slot changes, and nothing is taken off the list. -/
theorem same (h : a.Reasoned) (hslot : a'.slot = a.slot) (hserve : a.tok.serve ⊆ a'.tok.serve) :
    a'.Reasoned := fun i k m hp => by
  rw [hslot] at hp ⊢
  exact (h i k m hp).imp_left fun hs => hserve hs

/-- One slot changes. -/
theorem one (h : a.Reasoned) {s : SlotView} (hslot : a'.slot = Function.update a.slot i s)
    (hserve : a.tok.serve ⊆ a'.tok.serve)
    (hs : ∀ k m, s.pending k = some m → (i, k) ∈ a'.tok.serve ∨ s.Waits k) : a'.Reasoned := by
  intro j k m hp
  by_cases hj : j = i
  · subst hj
    rw [hslot, Function.update_self] at hp ⊢
    exact hs k m hp
  · rw [hslot, Function.update_of_ne hj] at hp ⊢
    exact (h j k m hp).imp_left fun hs => hserve hs

/-- One slot changes, but nothing its requests wait for. -/
theorem field (h : a.Reasoned) {s : SlotView} (hslot : a'.slot = Function.update a.slot i s)
    (hserve : a.tok.serve ⊆ a'.tok.serve)
    (hp : ∀ k m, s.pending k = some m → (a.slot i).pending k = some m)
    (hs : s.type = (a.slot i).type ∧ s.st = (a.slot i).st ∧ s.rx = (a.slot i).rx ∧
      s.shutRd = (a.slot i).shutRd ∧ s.tcp = (a.slot i).tcp) : a'.Reasoned :=
  h.one hslot hserve fun k m hm => (h i k m (hp k m hm)).imp (fun hs => hserve hs) fun hw =>
    waits_congr hw hs.1 hs.2.1 hs.2.2.1 hs.2.2.2.1 hs.2.2.2.2

/-- A field that is emptied waits for nothing. -/
theorem emptied {s : SlotView} {k k' : Pend} {m : MsgId}
    (hp : (s.setPend k none).pending k' = some m) : s.pending k' = some m := by
  by_cases hk : k' = k
  · subst hk
    simp [SlotView.setPend] at hp
  · simpa [SlotView.setPend, hk] using hp

/-- The acts on messages. -/
theorem msg (h : a.Reasoned) (ha : MsgAct P a a') : a'.Reasoned := by
  cases ha with
  | receive | edit | parkDns | parkStop | answerDns | answerStop | reply | dropDns | forgetDns =>
    exact h.same rfl subset_rfl
  | park i k m hm hs hu hk hw he hl =>
    refine h.one (i := i) rfl subset_rfl fun k' m' hp => ?_
    by_cases hkk : k' = k
    · -- the request that is parked has its reason
      subst hkk
      exact Or.inr (waits_congr hw rfl rfl rfl rfl rfl)
    · have old : (a.slot i).pending k' = some m' := by simpa [SlotView.setPend, hkk] using hp
      exact (h i k' m' old).imp_right fun hw => waits_congr hw rfl rfl rfl rfl rfl
  | answer i | take i | drop i =>
    exact h.field (i := i) rfl subset_rfl (fun _ _ => emptied) ⟨rfl, rfl, rfl, rfl, rfl⟩
  | served i k hw =>
    intro j k' m hp
    by_cases hjk : (j, k') = (i, k)
    · obtain ⟨rfl, rfl⟩ := Prod.mk.inj hjk
      refine Or.inr (hw.resolve_left fun none => ?_)
      rw [show (a.slot j).pending k' = some m from hp] at none
      cases none
    · exact (h j k' m hp).imp_left fun hs => ⟨hs, hjk⟩

/-- The acts on stream sends. -/
theorem send (h : a.Reasoned) (ha : SendAct P a a') : a'.Reasoned := by
  cases ha with
  | start | passed | write | cut | reply => exact h.same rfl subset_rfl
  | resume i m p c c' bs e hu hm ht hc hb =>
    exact h.field (i := i) rfl subset_rfl (fun _ _ => id) ⟨rfl, rfl, rfl, rfl, rfl⟩
  | finish i m e hm he =>
    exact h.field (i := i) rfl subset_rfl (fun _ _ => emptied) ⟨rfl, rfl, rfl, rfl, rfl⟩
  | dropSend i m e hm hl =>
    exact h.field (i := i) rfl subset_rfl (fun _ _ => emptied) ⟨rfl, rfl, rfl, rfl, rfl⟩
  | park s p c hs hm hw hp ht hc hl =>
    refine h.one (i := s.i) rfl subset_rfl fun k m hp => ?_
    by_cases hk : k = .send
    · subst hk
      exact Or.inr trivial
    · have old : (a.slot s.i).pending k = some m := by simpa [SlotView.setPend, hk] using hp
      exact (h s.i k m old).imp_right fun hw => waits_congr hw rfl rfl rfl rfl rfl

/-- The acts on references. -/
theorem ref (h : a.Reasoned) (ha : RefAct P a a') : a'.Reasoned := by
  cases ha with
  | alloc i type hf => exact h.one (i := i) rfl subset_rfl fun k m hp => by cases hp
  | install | takeFd | condemn | dangle | register | unregister | closed =>
    exact h.same rfl subset_rfl
  | unref i | lastRef i | dup _ _ _ i | parkCopy i | parkMove _ _ i | obtain _ _ i | clear i =>
    exact h.field (i := i) rfl subset_rfl (fun _ _ => id) ⟨rfl, rfl, rfl, rfl, rfl⟩

/-- The acts on receive queues. -/
theorem rx (h : a.Reasoned) (ha : RxAct P a a') : a'.Reasoned := by
  cases ha with
  | push i pkt hu ho ht =>
    -- the reader must be looked at
    refine h.one (i := i) rfl (Set.subset_insert ..) fun k m hp => ?_
    cases k with
    | recv => exact Or.inl (Set.mem_insert ..)
    | connect => exact (h i .connect m hp).imp (Set.mem_insert_of_mem _) id
    | accept => exact (h i .accept m hp).imp (Set.mem_insert_of_mem _) id
    | send => exact Or.inr trivial
  | take i pkt rest n hq hn =>
    refine h.one (i := i) rfl subset_rfl fun k m hp => ?_
    cases k with
    | recv =>
      refine (h i .recv m hp).imp_right fun hw => fun stream => ?_
      -- a reader that waits on a stream has found the queue empty
      have empty := (hw stream).1
      rw [hq] at empty
      cases empty
    | connect => exact h i .connect m hp
    | accept => exact h i .accept m hp
    | send => exact Or.inr trivial
  | pop i ht =>
    refine h.one (i := i) rfl subset_rfl fun k m hp => ?_
    cases k with
    | recv => exact Or.inr fun stream => absurd stream ht
    | connect => exact h i .connect m hp
    | accept => exact h i .accept m hp
    | send => exact Or.inr trivial
  | drain i hd =>
    refine h.one (i := i) rfl subset_rfl fun k m hp => ?_
    cases k with
    | recv => exact (h i .recv m hp).imp_right fun hw stream => ⟨rfl, (hw stream).2⟩
    | connect => exact h i .connect m hp
    | accept => exact h i .accept m hp
    | send => exact Or.inr trivial
  | window i | lost i | clearErr i | nonblock i =>
    exact h.field (i := i) rfl subset_rfl (fun _ _ => id) ⟨rfl, rfl, rfl, rfl, rfl⟩
  | shut i rd wr =>
    have more : a.tok.serve ⊆ if rd then insert (i, Pend.recv) a.tok.serve else a.tok.serve := by
      cases rd
      · exact subset_rfl
      · exact Set.subset_insert ..
    refine h.one (i := i) rfl more fun k m hp => ?_
    cases k with
    | recv =>
      cases rd with
      | true => exact Or.inl (Set.mem_insert ..)
      | false =>
        refine (h i .recv m hp).imp_right fun hw stream => ?_
        obtain ⟨empty, st, shut⟩ := hw stream
        exact ⟨empty, st, by simp [shut]⟩
    | connect => exact (h i .connect m hp).imp_left fun hs => more hs
    | accept => exact (h i .accept m hp).imp_left fun hs => more hs
    | send => exact Or.inr trivial

/-- The acts on selectors. -/
theorem sel (h : a.Reasoned) (ha : SelAct a a') : a'.Reasoned := by
  cases ha with
  | table | signal | settle => exact h.same rfl subset_rfl
  | weaken D S hD hS => exact h.same rfl hS

/-- On a slot that is closed, only the requests on the list are left. -/
theorem of_closed (h : a.Reasoned) (hs : (a.slot i).st = .closed)
    (ht : (a.slot i).type = sockStream) {k : Pend} {m : MsgId} (hk : k ≠ .send)
    (hp : (a.slot i).pending k = some m) : (i, k) ∈ a.tok.serve := by
  refine (h i k m hp).resolve_right fun hw => ?_
  cases k with
  | recv =>
    rcases (hw ht).2.1 with st | st
    · exact TnTcpState.noConfusion (hs.symm.trans st)
    · exact TnTcpState.noConfusion (hs.symm.trans st)
  | connect => exact TnTcpState.noConfusion (hs.symm.trans hw.1)
  | accept => exact TnTcpState.noConfusion (hs.symm.trans hw)
  | send => exact hk rfl

/-- The acts on connections. -/
theorem tcp (h : a.Reasoned) (hd : a.Disc) (ha : TcpAct P a a') : a'.Reasoned := by
  cases ha with
  | new i p hu hp hl =>
    exact h.one (i := i) rfl subset_rfl fun k m hm => by rw [show _ = _ from hu.pending k] at hm; cases hm
  | listen i p l c hu ht hs hc hl hsn hj hal =>
    have stream := (hd.slots i).stream (by rw [ht]; rfl)
    refine h.one (i := i) rfl subset_rfl fun k m hm => ?_
    by_cases hk : k = .send
    · subst hk
      exact Or.inr trivial
    · exact Or.inl (h.of_closed hs stream hk hm)
  | connect i p c hu ht hs hc hj =>
    have stream := (hd.slots i).stream (by rw [ht]; rfl)
    refine h.one (i := i) rfl subset_rfl fun k m hm => ?_
    by_cases hk : k = .send
    · subst hk
      exact Or.inr trivial
    · exact Or.inl (h.of_closed hs stream hk hm)
  | regs | state | space | gone | joined | newConn | abortConn | freeEntry =>
    exact h.same rfl subset_rfl
  | connected i p c hu ht hc hl hs hj =>
    have st := hd.connecting_of_synSent ht hc hl hs
    refine h.one (i := i) rfl (Set.subset_insert ..) fun k m hm => ?_
    cases k with
    | recv =>
      refine (h i .recv m hm).imp (Set.mem_insert_of_mem _) fun hw stream => ?_
      obtain ⟨empty, -, shut⟩ := hw stream
      exact ⟨empty, Or.inr rfl, shut⟩
    | connect => exact Or.inl (Set.mem_insert ..)
    | accept =>
      refine (h i .accept m hm).imp (Set.mem_insert_of_mem _) fun hw => ?_
      exact TnTcpState.noConfusion (st.symm.trans hw)
    | send => exact Or.inr trivial
  | fin i p hu ht hs =>
    refine h.one (i := i) rfl (Set.subset_insert ..) fun k m hm => ?_
    cases k with
    | recv => exact Or.inl (Set.mem_insert ..)
    | connect =>
      refine (h i .connect m hm).imp (Set.mem_insert_of_mem _) fun hw => ?_
      rcases hs with hs | hs
      · exact TnTcpState.noConfusion (hs.symm.trans hw.1)
      · exact TnTcpState.noConfusion (hs.symm.trans hw.1)
    | accept =>
      refine (h i .accept m hm).imp (Set.mem_insert_of_mem _) fun hw => ?_
      rcases hs with hs | hs
      · exact TnTcpState.noConfusion (hs.symm.trans hw)
      · exact TnTcpState.noConfusion (hs.symm.trans hw)
    | send => exact Or.inr trivial
  | release i p o st wr er hu ht ho hc hls hst =>
    refine h.one (i := i) rfl ((Set.subset_insert ..).trans (Set.subset_insert ..))
      fun k m hm => ?_
    cases k with
    | recv => exact Or.inl (Set.mem_insert_of_mem _ (Set.mem_insert ..))
    | connect => exact Or.inl (Set.mem_insert ..)
    | accept =>
      exact (h i .accept m hm).imp
        (fun hs => Set.mem_insert_of_mem _ (Set.mem_insert_of_mem _ hs)) hls
    | send => exact Or.inr trivial
  | entData i | entFin i | entGone i | pushEntry i | popEntry i | dropEntry i | newUdp i
  | freeUdp i | newRaw i | freeRaw i =>
    exact h.field (i := i) rfl subset_rfl (fun _ _ => id) ⟨rfl, rfl, rfl, rfl, rfl⟩
  | adopt j p c hj hp hc =>
    exact h.one (i := j) rfl subset_rfl fun k m hm => by rw [show _ = _ from hj.pending k] at hm; cases hm
  | takeEntry j x p c hj hx hp hc =>
    exact h.one (i := j) rfl subset_rfl fun k m hm => by rw [show _ = _ from hj.pending k] at hm; cases hm

/-- Every act keeps the reasons. -/
theorem act (h : a.Reasoned) (hs : a.Sound) (ha : Act P a a') : a'.Reasoned := by
  cases ha with
  | msg ha => exact h.msg ha
  | send ha => exact h.send ha
  | ref ha => exact h.ref ha
  | tcp ha => exact h.tcp hs.disc ha
  | rx ha => exact h.rx ha
  | sel ha => exact h.sel ha
  | broken hn => exact absurd hs hn

end Reasoned

end Abs

end Tolunnet
