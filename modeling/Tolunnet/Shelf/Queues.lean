import Tolunnet.Shelf.Quiet

/-!
# `Tolunnet.Shelf.Queues`: the functions that work on queues

Each function of `Tolunnet.Task.SlotTable` and `Tolunnet.Task.Recv` that touches a queue keeps the
queues in order and leaves the tables alone: it is `Still`.
-/

set_option autoImplicit false

namespace Tolunnet

open World

variable {w : World} {i : SlotIdx} {p : PcbId}

/-! ## Slots whose queues change -/

namespace Shelf

variable {d : Shelf} {v : Bin}

/-- Another queue in a slot that keeps its type and its datagram pcbs. -/
theorem Ok.setSlot (h : d.Ok) (hv : v.Ok) (hl : v.live = (d.slot i).live)
    (hk : v.kind = (d.slot i).kind) (hu : v.udp = (d.slot i).udp) (hr : v.raw = (d.slot i).raw) :
    (d.setSlot i v).Ok where
  slot := fun j => by
    by_cases hj : j = i
    · subst hj
      simpa [Shelf.setSlot] using hv
    · simpa [Shelf.setSlot, hj] using h.slot j
  udp := fun p j hj => by
    by_cases hji : j = i
    · subst hji
      simpa [Shelf.setSlot, hl, hk, hu] using h.udp p j hj
    · simpa [Shelf.setSlot, hji] using h.udp p j hj
  raw := fun p j hj => by
    by_cases hji : j = i
    · subst hji
      simpa [Shelf.setSlot, hl, hk, hr] using h.raw p j hj
    · simpa [Shelf.setSlot, hji] using h.raw p j hj
  unique := h.unique
  seats := h.seats

/-- Another slot where there was none. -/
theorem Ok.setFree (h : d.Ok) (hv : v.Ok) (hf : (d.slot i).live = false) : (d.setSlot i v).Ok where
  slot := fun j => by
    by_cases hj : j = i
    · subst hj
      simpa [Shelf.setSlot] using hv
    · simpa [Shelf.setSlot, hj] using h.slot j
  udp := fun p j hj => by
    have hji : j ≠ i := by
      rintro rfl
      exact absurd (h.udp p j hj).1 (by simp [hf])
    simpa [Shelf.setSlot, hji] using h.udp p j hj
  raw := fun p j hj => by
    have hji : j ≠ i := by
      rintro rfl
      exact absurd (h.raw p j hj).1 (by simp [hf])
    simpa [Shelf.setSlot, hji] using h.raw p j hj
  unique := h.unique
  seats := h.seats

end Shelf

/-- An assignment to the queues of a slot. -/
theorem Still.queue (f : TnSocketSlot → TnSocketSlot)
    (hl : (f (w.sockets i)).inUse = (w.sockets i).inUse)
    (hk : (f (w.sockets i)).type = (w.sockets i).type)
    (hu : (f (w.sockets i)).udpPcb = (w.sockets i).udpPcb)
    (hr : (f (w.sockets i)).rawPcb = (w.sockets i).rawPcb)
    (hv : (w.sockets i).onShelf.Ok → (f (w.sockets i)).onShelf.Ok) : Still w (w.modSlot i f) := by
  refine ⟨rfl, rfl, rfl, fun hok => ?_⟩
  rw [shelf_setSlot]
  exact hok.setSlot (hv (hok.slot i)) hl hk hu hr

/-! ## Receive queues -/

section RxOk

variable {kind : Int} {pkt : TnRxPacket} {rx : List TnRxPacket}

/-- An empty queue. -/
theorem RxOk.nil : RxOk kind [] := by
  constructor <;> simp

/-- A packet enters the queue. -/
theorem RxOk.push (h : RxOk kind rx) (hl : pkt.p.length ≤ 0xFFFF) (ho : pkt.offset = 0)
    (hs : kind = sockStream → pkt.p ≠ []) : RxOk kind (rx ++ [pkt]) where
  fits := fun q hq => by
    rcases List.mem_append.mp hq with hq | hq
    · exact h.fits q hq
    · rw [List.mem_singleton.mp hq]
      exact hl
  whole := fun q hq => by
    cases rx with
    | nil => exact nomatch hq
    | cons a rx =>
      rcases List.mem_append.mp (show q ∈ rx ++ [pkt] from hq) with hq | hq
      · exact h.whole q hq
      · rw [List.mem_singleton.mp hq]
        exact ho
  stream := fun hk q hq => by
    rcases List.mem_append.mp hq with hq | hq
    · exact h.stream hk q hq
    · rw [List.mem_singleton.mp hq, ho]
      exact List.length_pos_iff.mpr (hs hk)
  dgram := fun hk q hq => by
    rcases List.mem_append.mp hq with hq | hq
    · exact h.dgram hk q hq
    · rw [List.mem_singleton.mp hq]
      exact ho

/-- A packet leaves the queue. -/
theorem RxOk.tail (h : RxOk kind rx) : RxOk kind rx.tail where
  fits := fun q hq => h.fits q (List.mem_of_mem_tail hq)
  whole := fun q hq => h.whole q (List.mem_of_mem_tail hq)
  stream := fun hk q hq => h.stream hk q (List.mem_of_mem_tail hq)
  dgram := fun hk q hq => h.dgram hk q (List.mem_of_mem_tail hq)

/-- The first packet of a stream was read in part. -/
theorem RxOk.advance {n : Nat} (h : RxOk kind (pkt :: rx)) (hk : kind = sockStream)
    (hn : pkt.offset + n < pkt.p.length) :
    RxOk kind ({ pkt with offset := pkt.offset + n } :: rx) where
  fits := fun q hq => by
    rcases List.mem_cons.mp hq with rfl | hq
    · exact h.fits pkt (List.mem_cons_self ..)
    · exact h.fits q (List.mem_cons_of_mem _ hq)
  whole := h.whole
  stream := fun _ q hq => by
    rcases List.mem_cons.mp hq with rfl | hq
    · exact hn
    · exact h.stream hk q (List.mem_cons_of_mem _ hq)
  dgram := fun hne => absurd hk hne

/-- Early data becomes the queue of a stream. -/
theorem EarlyOk.rxOk {e : List TnRxPacket × Nat} (h : EarlyOk e) : RxOk sockStream e.1 where
  fits := h.fits
  whole := fun q hq => (h.fresh q (List.mem_of_mem_tail hq)).start
  stream := fun _ q hq => by
    rw [(h.fresh q hq).start]
    exact List.length_pos_iff.mpr (h.fresh q hq).bytes
  dgram := fun hne => absurd rfl hne

end RxOk

/-- A packet is queued; a stream takes no empty one. -/
theorem tnRxQueuePushEx_still {seg : List UInt8} (ip port : Nat) (capped : Bool)
    (hl : seg.length ≤ 0xFFFF) (hs : (w.sockets i).type = sockStream → seg ≠ []) :
    Still w (tnRxQueuePushEx w i seg ip port capped).1 := by
  unfold tnRxQueuePushEx
  dsimp only
  split_ifs
  · exact .refl w
  · refine Still.trans (.of_eq shelf_asked) ?_
    dsimp only
    refine Still.queue _ rfl rfl rfl rfl fun hok => ?_
    exact ⟨hok.rx.push hl rfl hs, by
      simpa [TnSocketSlot.onShelf] using hok.rxCount, hok.early, hok.acceptCount⟩
  · exact .of_eq shelf_asked

/-- The queue is emptied. -/
theorem tnRxQueueDrain_still : Still w (tnRxQueueDrain w i) :=
  .queue _ rfl rfl rfl rfl fun hok => ⟨.nil, rfl, hok.early, hok.acceptCount⟩

theorem rxPop_still : Still w (rxPop w i) :=
  .queue _ rfl rfl rfl rfl fun hok => ⟨hok.rx.tail, by
    simpa [TnSocketSlot.onShelf] using congrArg (· - 1) hok.rxCount, hok.early, hok.acceptCount⟩

/-- The first packet was read. -/
def Bin.advance (n : Nat) (v : Bin) : Bin :=
  match v.rx with
  | [] => v
  | pkt :: rest => { v with rx := { pkt with offset := pkt.offset + n } :: rest }

/-- The first packet is unlinked when it is exhausted. -/
def Bin.unlink (v : Bin) : Bin :=
  match v.rx with
  | [] => v
  | pkt :: rest =>
    if pkt.offset ≥ pkt.p.length then { v with rx := rest, rxCount := v.rxCount - 1 } else v

/-- A read moves the offset of the first packet. -/
theorem shelf_rxAdvance (n : Nat) :
    shelf (rxAdvance w i n) = (shelf w).setSlot i (((shelf w).slot i).advance n) := by
  rw [rxAdvance, shelf_setSlot]
  congr 1
  show _ = (w.sockets i).onShelf.advance n
  unfold Bin.advance TnSocketSlot.onShelf
  split <;> rename_i hrx <;> simp [hrx]

/-- A packet that is read to the end leaves the queue. -/
theorem shelf_rxUnlink : shelf (rxUnlink w i) = (shelf w).setSlot i ((shelf w).slot i).unlink := by
  rw [rxUnlink, shelf_setSlot]
  congr 1
  show _ = (w.sockets i).onShelf.unlink
  unfold Bin.unlink TnSocketSlot.onShelf
  split
  · rename_i hrx
    simp [hrx]
  · rename_i pkt rest hrx
    simp only [hrx]
    split <;> simp [hrx]

/-- A read of a stream: nothing between the advance and the unlinking is in the view. -/
theorem shelf_rxRead (n : Nat) {w' : World} (hw : shelf w' = shelf (rxAdvance w i n)) :
    shelf (rxUnlink w' i) = (shelf w).setSlot i (((shelf w).slot i).advance n).unlink := by
  rw [shelf_rxUnlink, hw, shelf_rxAdvance]
  simp

/-- A read of a stream leaves a proper queue. -/
theorem Bin.Ok.read {v : Bin} (n : Nat) (hok : v.Ok) (hk : v.kind = sockStream) :
    (v.advance n).unlink.Ok := by
  obtain ⟨live, kind, rx, rxCount, early, acceptCount, udp, raw⟩ := v
  cases rx with
  | nil => exact hok
  | cons pkt rest =>
    have count : rxCount = rest.length + 1 := hok.rxCount
    unfold Bin.unlink
    dsimp only [Bin.advance]
    split
    · exact ⟨hok.rx.tail, by dsimp only; omega, hok.early, hok.acceptCount⟩
    · rename_i more
      exact ⟨hok.rx.advance hk (Nat.lt_of_not_le more), count, hok.early, hok.acceptCount⟩

/-- A read changes nothing else of the slot. -/
theorem Bin.advance_unlink_frame (v : Bin) (n : Nat) :
    (v.advance n).unlink.live = v.live ∧ (v.advance n).unlink.kind = v.kind ∧
      (v.advance n).unlink.udp = v.udp ∧ (v.advance n).unlink.raw = v.raw := by
  obtain ⟨live, kind, rx, rxCount, early, acceptCount, udp, raw⟩ := v
  cases rx with
  | nil => exact ⟨rfl, rfl, rfl, rfl⟩
  | cons pkt rest =>
    unfold Bin.unlink
    dsimp only [Bin.advance]
    split <;> exact ⟨rfl, rfl, rfl, rfl⟩

/-- A read, whatever happens to the window. -/
theorem rxRead_still (n : Nat) {w' : World} (hk : (w.sockets i).type = sockStream)
    (hw : shelf w' = shelf (rxAdvance w i n)) : Still w (rxUnlink w' i) := by
  have view := shelf_rxRead n hw
  refine ⟨by rw [view]; rfl, by rw [view]; rfl, by rw [view]; rfl, fun hok => ?_⟩
  rw [view]
  obtain ⟨hl, hkind, hu, hr⟩ := Bin.advance_unlink_frame ((shelf w).slot i) n
  exact hok.setSlot ((hok.slot i).read n hk) hl hkind hu hr

theorem rxConsume_still (n : Nat) (hk : (w.sockets i).type = sockStream) :
    Still w (rxConsume w i n) := rxRead_still n hk (shelf_rxWindow i n)

/-! ## Accept queues -/

/-- Another accept queue whose entries are in order when the old ones are. -/
theorem Still.acceptQueue (f : TnSocketSlot → TnSocketSlot)
    (hl : (f (w.sockets i)).inUse = (w.sockets i).inUse)
    (hk : (f (w.sockets i)).type = (w.sockets i).type)
    (hu : (f (w.sockets i)).udpPcb = (w.sockets i).udpPcb)
    (hr : (f (w.sockets i)).rawPcb = (w.sockets i).rawPcb)
    (hrx : (f (w.sockets i)).rx = (w.sockets i).rx)
    (hrc : (f (w.sockets i)).rxCount = (w.sockets i).rxCount)
    (hq : (∀ ent ∈ (w.sockets i).acceptQ, EarlyOk ent.onShelf) →
      ∀ ent ∈ (f (w.sockets i)).acceptQ, EarlyOk ent.onShelf)
    (hc : (w.sockets i).acceptCount = (w.sockets i).acceptQ.length →
      (f (w.sockets i)).acceptCount = (f (w.sockets i)).acceptQ.length) :
    Still w (w.modSlot i f) := by
  refine Still.queue f hl hk hu hr fun hok => ⟨?_, ?_, ?_, ?_⟩
  · show RxOk (f (w.sockets i)).type (f (w.sockets i)).rx
    rw [hk, hrx]
    exact hok.rx
  · show (f (w.sockets i)).rxCount = (f (w.sockets i)).rx.length
    rw [hrc, hrx]
    exact hok.rxCount
  · intro e he
    obtain ⟨ent, hent, rfl⟩ := List.mem_map.mp he
    exact hq (fun ent hent => hok.early _ (List.mem_map_of_mem hent)) ent hent
  · have count := hc (by simpa [TnSocketSlot.onShelf] using hok.acceptCount)
    simpa [TnSocketSlot.onShelf] using count

/-- An entry is taken for a new socket. -/
theorem tnAcceptQueuePopEntry_still : Still w (tnAcceptQueuePopEntry w i) :=
  .acceptQueue _ rfl rfl rfl rfl rfl rfl (fun h ent he => h ent (List.mem_of_mem_tail he))
    fun h => by simp [h]

/-- An entry is lost. -/
theorem tnAcceptQueueRemove_still (e : EntId) : Still w (tnAcceptQueueRemove w i e) := by
  unfold tnAcceptQueueRemove
  split
  · rename_i hany
    refine .acceptQueue _ rfl rfl rfl rfl rfl rfl
      (fun h ent he => h ent (List.mem_of_mem_eraseP he)) fun h => ?_
    obtain ⟨ent, hent, hid⟩ := List.any_eq_true.mp hany
    rw [List.length_eraseP_of_mem hent hid, h]
  · exact .refl w

/-- An entry enters while there is room. -/
theorem tnAcceptQueuePush_still : Still w (tnAcceptQueuePush w i p).1 := by
  unfold tnAcceptQueuePush
  dsimp only
  split_ifs
  · exact .refl w
  · refine Still.trans (.of_eq shelf_asked) (Still.trans ?_
      (.of_eq (by simp only [shelf_tcpErr, shelf_tcpRecv, shelf_tcpArg]; rfl)))
    refine .acceptQueue _ rfl rfl rfl rfl rfl rfl (fun h ent he => ?_) fun h => by simp [h]
    rcases List.mem_append.mp he with he | he
    · exact h ent he
    · rw [List.mem_singleton.mp he]
      constructor <;> simp [TnAcceptEntry.onShelf]
  · exact .of_eq shelf_asked

/-- Early data of an entry. -/
theorem modEntry_still (e : EntId) (f : TnAcceptEntry → TnAcceptEntry)
    (hf : ∀ ent, EarlyOk ent.onShelf → EarlyOk (f ent).onShelf) : Still w (modEntry w i e f) := by
  refine .acceptQueue _ rfl rfl rfl rfl rfl rfl (fun h ent he => ?_) fun h => by simp [h]
  obtain ⟨old, hold, rfl⟩ := List.mem_map.mp he
  split
  · exact hf old (h old hold)
  · exact h old hold

/-- The head entries go one by one; the count follows at the end. -/
theorem tnAcceptQueueDrain_shelf :
    shelf (tnAcceptQueueDrain w i) =
      (shelf w).setSlot i { (shelf w).slot i with early := [], acceptCount := 0 } := by
  have drop : ∀ w, ∃ q, shelf (dropHeadEntry w i) =
      (shelf w).setSlot i { (shelf w).slot i with early := q } := fun w => by
    unfold dropHeadEntry
    split
    · rename_i ent rest hq
      refine ⟨rest.map TnAcceptEntry.onShelf, ?_⟩
      rw [shelf_tnAcceptEntryFree, shelf_setSlot]
      rfl
    · exact ⟨((shelf w).slot i).early, (Shelf.setSlot_self _ i).symm⟩
  have drops : ∀ (l : List TnAcceptEntry) (w : World), ∃ q,
      shelf (l.foldl (fun w _ => dropHeadEntry w i) w) =
        (shelf w).setSlot i { (shelf w).slot i with early := q } := by
    intro l
    induction l with
    | nil => exact fun w => ⟨((shelf w).slot i).early, (Shelf.setSlot_self _ i).symm⟩
    | cons ent l ih =>
      intro w
      obtain ⟨q, hq⟩ := drop w
      obtain ⟨q', hq'⟩ := ih (dropHeadEntry w i)
      refine ⟨q', ?_⟩
      rw [List.foldl_cons, hq', hq]
      simp
  have emptied : ∀ w : World, shelf (w.modSlot i fun s => { s with acceptQ := [], acceptCount := 0 })
      = (shelf w).setSlot i { (shelf w).slot i with early := [], acceptCount := 0 } := fun w =>
    shelf_setSlot i _
  obtain ⟨q, hq⟩ := drops (w.sockets i).acceptQ w
  rw [tnAcceptQueueDrain, emptied, hq]
  simp

/-! ## Datagram pcbs -/

@[simp] theorem shelf_setUdp (c : Option DgramPcb) :
    shelf (w.setUdp p c) = (shelf w).setUdp p (c.map DgramPcb.arg) := by
  unfold shelf Shelf.setUdp
  congr 1
  funext q
  by_cases hq : q = p
  · subst hq
    simp [World.setUdp]
  · simp [World.setUdp, hq]

@[simp] theorem shelf_setRaw (c : Option DgramPcb) :
    shelf (w.setRaw p c) = (shelf w).setRaw p (c.map DgramPcb.arg) := by
  unfold shelf Shelf.setRaw
  congr 1
  funext q
  by_cases hq : q = p
  · subst hq
    simp [World.setRaw]
  · simp [World.setRaw, hq]

namespace Shelf

variable {d : Shelf}

/-- A slot loses its UDP pcb. -/
def dropUdp (d : Shelf) (i : SlotIdx) : Shelf :=
  match (d.slot i).udp with
  | some p => (d.setUdp p none).setSlot i { d.slot i with udp := none }
  | none => d

/-- A slot loses its raw pcb. -/
def dropRaw (d : Shelf) (i : SlotIdx) : Shelf :=
  match (d.slot i).raw with
  | some p => (d.setRaw p none).setSlot i { d.slot i with raw := none }
  | none => d

/-- A slot is emptied. -/
def clear (d : Shelf) (i : SlotIdx) : Shelf :=
  d.setSlot i { d.slot i with
    live := false, rx := [], rxCount := 0, early := [], acceptCount := 0 }

/-- The UDP pcb of a slot goes on both sides. -/
theorem Ok.dropUdp (h : d.Ok) (i : SlotIdx) : (d.dropUdp i).Ok := by
  unfold Shelf.dropUdp
  split
  · rename_i p hp
    have gone : ∀ q j, (d.setUdp p none).udpArg q = some j → d.udpArg q = some j ∧ j ≠ i := by
      intro q j hq
      by_cases hqp : q = p
      · subst hqp
        simp [Shelf.setUdp] at hq
      · have hq : d.udpArg q = some j := by simpa [Shelf.setUdp, hqp] using hq
        refine ⟨hq, ?_⟩
        rintro rfl
        have := (h.udp q j hq).2.1
        rw [hp] at this
        exact hqp (Option.some.inj this).symm
    constructor
    · intro j
      by_cases hj : j = i
      · subst hj
        simpa using ⟨(h.slot j).rx, (h.slot j).rxCount, (h.slot j).early, (h.slot j).acceptCount⟩
      · simpa [Shelf.setSlot, Shelf.setUdp, hj] using h.slot j
    · intro q j hq
      obtain ⟨hq, hj⟩ := gone q j hq
      simpa [Shelf.setSlot, Shelf.setUdp, hj] using h.udp q j hq
    · intro q j hq
      have := h.raw q j hq
      by_cases hj : j = i
      · subst hj
        simpa [Shelf.setSlot] using this
      · simpa [Shelf.setSlot, Shelf.setUdp, hj] using this
    · exact h.unique
    · exact h.seats
  · exact h

/-- So does the raw pcb. -/
theorem Ok.dropRaw (h : d.Ok) (i : SlotIdx) : (d.dropRaw i).Ok := by
  unfold Shelf.dropRaw
  split
  · rename_i p hp
    have gone : ∀ q j, (d.setRaw p none).rawArg q = some j → d.rawArg q = some j ∧ j ≠ i := by
      intro q j hq
      by_cases hqp : q = p
      · subst hqp
        simp [Shelf.setRaw] at hq
      · have hq : d.rawArg q = some j := by simpa [Shelf.setRaw, hqp] using hq
        refine ⟨hq, ?_⟩
        rintro rfl
        have := (h.raw q j hq).2.1
        rw [hp] at this
        exact hqp (Option.some.inj this).symm
    constructor
    · intro j
      by_cases hj : j = i
      · subst hj
        simpa using ⟨(h.slot j).rx, (h.slot j).rxCount, (h.slot j).early, (h.slot j).acceptCount⟩
      · simpa [Shelf.setSlot, Shelf.setRaw, hj] using h.slot j
    · intro q j hq
      have := h.udp q j hq
      by_cases hj : j = i
      · subst hj
        simpa [Shelf.setSlot] using this
      · simpa [Shelf.setSlot, Shelf.setRaw, hj] using this
    · intro q j hq
      obtain ⟨hq, hj⟩ := gone q j hq
      simpa [Shelf.setSlot, Shelf.setRaw, hj] using h.raw q j hq
    · exact h.unique
    · exact h.seats
  · exact h

/-- A new UDP pcb for a slot that has none. -/
theorem Ok.gainUdp (h : d.Ok) (hl : (d.slot i).live = true) (hk : (d.slot i).kind ≠ sockStream)
    (hn : (d.slot i).udp = none) (p : PcbId) :
    ((d.setUdp p (some i)).setSlot i { d.slot i with udp := some p }).Ok := by
  constructor
  · intro j
    by_cases hj : j = i
    · subst hj
      simpa using ⟨(h.slot j).rx, (h.slot j).rxCount, (h.slot j).early, (h.slot j).acceptCount⟩
    · simpa [Shelf.setSlot, Shelf.setUdp, hj] using h.slot j
  · intro q j hq
    by_cases hqp : q = p
    · subst hqp
      have hij : i = j := by simpa [Shelf.setSlot, Shelf.setUdp] using hq
      subst hij
      simpa using ⟨hl, hk⟩
    · have hq : d.udpArg q = some j := by simpa [Shelf.setSlot, Shelf.setUdp, hqp] using hq
      have link := h.udp q j hq
      have hj : j ≠ i := by
        rintro rfl
        rw [hn] at link
        cases link.2.1
      simpa [Shelf.setSlot, Shelf.setUdp, hj] using link
  · intro q j hq
    have link := h.raw q j hq
    by_cases hj : j = i
    · subst hj
      simpa using link
    · simpa [Shelf.setSlot, Shelf.setUdp, hj] using link
  · exact h.unique
  · exact h.seats

/-- A new raw pcb for a slot that has none. -/
theorem Ok.gainRaw (h : d.Ok) (hl : (d.slot i).live = true) (hk : (d.slot i).kind ≠ sockStream)
    (hn : (d.slot i).raw = none) (p : PcbId) :
    ((d.setRaw p (some i)).setSlot i { d.slot i with raw := some p }).Ok := by
  constructor
  · intro j
    by_cases hj : j = i
    · subst hj
      simpa using ⟨(h.slot j).rx, (h.slot j).rxCount, (h.slot j).early, (h.slot j).acceptCount⟩
    · simpa [Shelf.setSlot, Shelf.setRaw, hj] using h.slot j
  · intro q j hq
    have link := h.udp q j hq
    by_cases hj : j = i
    · subst hj
      simpa using link
    · simpa [Shelf.setSlot, Shelf.setRaw, hj] using link
  · intro q j hq
    by_cases hqp : q = p
    · subst hqp
      have hij : i = j := by simpa [Shelf.setSlot, Shelf.setRaw] using hq
      subst hij
      simpa using ⟨hl, hk⟩
    · have hq : d.rawArg q = some j := by simpa [Shelf.setSlot, Shelf.setRaw, hqp] using hq
      have link := h.raw q j hq
      have hj : j ≠ i := by
        rintro rfl
        rw [hn] at link
        cases link.2.1
      simpa [Shelf.setSlot, Shelf.setRaw, hj] using link
  · exact h.unique
  · exact h.seats

@[simp] theorem udp_dropUdp (d : Shelf) (i : SlotIdx) : ((d.dropUdp i).slot i).udp = none := by
  unfold Shelf.dropUdp
  split
  · simp
  · assumption

@[simp] theorem udp_dropRaw (d : Shelf) (i : SlotIdx) :
    ((d.dropRaw i).slot i).udp = (d.slot i).udp := by
  unfold Shelf.dropRaw
  split <;> simp

@[simp] theorem raw_dropRaw (d : Shelf) (i : SlotIdx) : ((d.dropRaw i).slot i).raw = none := by
  unfold Shelf.dropRaw
  split
  · simp
  · assumption

/-- A slot without datagram pcbs is emptied. -/
theorem Ok.clear (h : d.Ok) (hu : (d.slot i).udp = none) (hr : (d.slot i).raw = none) :
    (d.clear i).Ok where
  slot := fun j => by
    by_cases hj : j = i
    · subst hj
      simpa [Shelf.clear] using (⟨.nil, rfl, by simp, rfl⟩ : Bin.Ok _)
    · simpa [Shelf.clear, Shelf.setSlot, hj] using h.slot j
  udp := fun q j hq => by
    have hji : j ≠ i := by
      rintro rfl
      have := (h.udp q j hq).2.1
      rw [hu] at this
      cases this
    simpa [Shelf.clear, Shelf.setSlot, hji] using h.udp q j hq
  raw := fun q j hq => by
    have hji : j ≠ i := by
      rintro rfl
      have := (h.raw q j hq).2.1
      rw [hr] at this
      cases this
    simpa [Shelf.clear, Shelf.setSlot, hji] using h.raw q j hq
  unique := h.unique
  seats := h.seats

end Shelf

/-- Freeing the UDP pcb of a slot. -/
theorem shelf_freeUdp : shelf (freeUdp w i) = (shelf w).dropUdp i := by
  have pcb : ((shelf w).slot i).udp = (w.sockets i).udpPcb := rfl
  unfold freeUdp Shelf.dropUdp
  cases hp : (w.sockets i).udpPcb with
  | some p =>
    simp only [pcb, hp]
    rw [shelf_setSlot, shelf_setUdp]
    rfl
  | none => simp only [pcb, hp]

/-- Freeing the raw pcb of a slot. -/
theorem shelf_freeRaw : shelf (freeRaw w i) = (shelf w).dropRaw i := by
  have pcb : ((shelf w).slot i).raw = (w.sockets i).rawPcb := rfl
  unfold freeRaw Shelf.dropRaw
  cases hp : (w.sockets i).rawPcb with
  | some p =>
    simp only [pcb, hp]
    rw [shelf_setSlot, shelf_setRaw]
    rfl
  | none => simp only [pcb, hp]

theorem shelf_tnRxQueueDrain :
    shelf (tnRxQueueDrain w i) = (shelf w).setSlot i { (shelf w).slot i with rx := [], rxCount := 0 } :=
  shelf_setSlot i _

theorem shelf_clearSlot :
    shelf (clearSlot w i) =
      (shelf w).setSlot i { (shelf w).slot i with rxCount := 0, live := false } :=
  shelf_setSlot i _

/-- A slot that is freed loses its pcbs and its queues. -/
theorem shelf_tnSlotFree :
    shelf (tnSlotFree w i) =
      if (w.sockets i).inUse then (((shelf w).dropUdp i).dropRaw i).clear i else shelf w := by
  unfold tnSlotFree
  split
  · simp [shelf_clearSlot, tnAcceptQueueDrain_shelf, shelf_tnRxQueueDrain, shelf_freeRaw,
      shelf_freeUdp, Shelf.clear]
  · rfl

/-- A slot that is freed holds no packets and no pcbs. -/
theorem tnSlotFree_still : Still w (tnSlotFree w i) := by
  have tables : ∀ d : Shelf, (((d.dropUdp i).dropRaw i).clear i).bases = d.bases ∧
      (((d.dropUdp i).dropRaw i).clear i).table = d.table ∧
      (((d.dropUdp i).dropRaw i).clear i).posts = d.posts := by
    intro d
    unfold Shelf.clear Shelf.dropRaw Shelf.dropUdp
    dsimp only [Shelf.setSlot]
    split <;> split <;> exact ⟨rfl, rfl, rfl⟩
  by_cases hu : (w.sockets i).inUse
  · have view := shelf_tnSlotFree (w := w) (i := i)
    rw [if_pos hu] at view
    refine ⟨by rw [view]; exact (tables _).1, by rw [view]; exact (tables _).2.1,
      by rw [view]; exact (tables _).2.2, fun hok => ?_⟩
    rw [view]
    exact ((hok.dropUdp i).dropRaw i).clear (by simp) (by simp)
  · refine .of_eq ?_
    rw [shelf_tnSlotFree, if_neg hu]

/-- The last reference frees the slot. -/
theorem tnSlotUnref_still : Still w (tnSlotUnref w i) := by
  unfold tnSlotUnref
  split
  · dsimp only
    have counted : Still w (w.modSlot i fun s => { s with refCount := s.refCount - 1 }) :=
      .of_eq (by simp)
    refine counted.trans ?_
    split
    · exact tnSlotFree_still
    · exact .refl _
  · exact .refl w

/-- A slot that is not in use is allocated. -/
theorem tnSlotAlloc_still (base : Option BaseId) (task : TaskId) (domain type protocol : Int)
    (hf : (w.sockets i).inUse = false) : Still w (tnSlotAlloc w i base task domain type protocol) := by
  refine ⟨rfl, rfl, rfl, fun hok => ?_⟩
  rw [tnSlotAlloc, shelf_setSlot]
  exact hok.setFree ⟨.nil, rfl, by simp [tnInitSocketSlot, TnSocketSlot.onShelf], rfl⟩ hf

/-- `freeSlot?` finds a slot that is not in use. -/
theorem freeSlot?_some {j : SlotIdx} (h : freeSlot? w = some j) : (w.sockets j).inUse = false := by
  simpa using List.find?_some h

/-- A datagram slot gets its UDP pcb. -/
theorem newUdp_still (hl : (w.sockets i).inUse = true) (hk : (w.sockets i).type ≠ sockStream)
    (hn : (w.sockets i).udpPcb = none) : Still w (newUdp w i).1 := by
  unfold newUdp
  split
  · dsimp only
    refine ⟨rfl, rfl, rfl, fun hok => ?_⟩
    rw [shelf_setSlot, shelf_setUdp]
    exact hok.gainUdp hl hk hn _
  · exact .of_eq shelf_asked

/-- A raw slot gets its raw pcb. -/
theorem newRaw_still (protocol : Int) (hl : (w.sockets i).inUse = true)
    (hk : (w.sockets i).type ≠ sockStream) (hn : (w.sockets i).rawPcb = none) :
    Still w (newRaw w i protocol).1 := by
  unfold newRaw
  split
  · dsimp only
    refine ⟨rfl, rfl, rfl, fun hok => ?_⟩
    rw [shelf_setSlot, shelf_setRaw]
    exact hok.gainRaw hl hk hn _
  · exact .of_eq shelf_asked

end Tolunnet
