import Tolunnet.Task.Daemon

/-!
# `Tolunnet.Shelf.State`: queues and descriptor tables

`shelf w` is what the daemon keeps for its clients to fetch: the receive queue and the accept queue
of every slot, the descriptor table of every base with its event words, and the events recorded so
far. The datagram pcbs are there with the slot they deliver to, because an empty datagram may stand
in a queue and an empty segment may not.

`Shelf.Ok` says that the queues are in order. `Grows` is all that the daemon does to the descriptor
tables while no descriptor is given up: a descriptor that is in use stays as it is, its events are
the ones it had and the ones recorded for its socket; a free one may get a socket.
-/

set_option autoImplicit false

namespace Tolunnet

open World

/-! ## The view -/

/-- What is seen of a slot. Of an accept entry it is the early queue with its count. -/
structure Bin where
  live : Bool
  kind : Int
  rx : List TnRxPacket
  rxCount : Nat
  early : List (List TnRxPacket × Nat)
  acceptCount : Nat
  udp : Option PcbId
  raw : Option PcbId

/-- The descriptor table of a base with its event words. -/
structure Table where
  fdMap : Nat → Option SlotIdx
  size : Nat
  events : Nat → Nat
  masks : Nat → Nat

/-- An event recorded for a slot of a base. -/
structure Post where
  base : BaseId
  slot : SlotIdx
  mask : Nat
  deriving DecidableEq, Repr

/-- Queues, tables and events, with the registry of the bases. `seats` says that there is a selector
table. -/
structure Shelf where
  slot : SlotIdx → Bin
  udpArg : PcbId → Option SlotIdx
  rawArg : PcbId → Option SlotIdx
  bases : Fin 16 → Option BaseId
  table : BaseId → Table
  posts : List Post
  seats : Bool

/-- An accept entry in the view. -/
def TnAcceptEntry.onShelf (ent : TnAcceptEntry) : List TnRxPacket × Nat :=
  (ent.earlyRx, ent.earlyRxCount)

/-- A slot in the view. -/
def TnSocketSlot.onShelf (s : TnSocketSlot) : Bin :=
  { live := s.inUse, kind := s.type, rx := s.rx, rxCount := s.rxCount,
    early := s.acceptQ.map TnAcceptEntry.onShelf, acceptCount := s.acceptCount,
    udp := s.udpPcb, raw := s.rawPcb }

/-- A base in the view. -/
def TnSocketBase.onShelf (b : TnSocketBase) : Table :=
  { fdMap := b.fdMap, size := b.dtablesize, events := b.events, masks := b.eventMasks }

/-- The event an output records. -/
def Output.post? : Output → Option Post
  | .event b i mask => some { base := b, slot := i, mask := mask }
  | _ => none

/-- The events recorded so far, the last one first. -/
def posts (w : World) : List Post := w.output.filterMap Output.post?

/-- The view of a world. -/
def shelf (w : World) : Shelf :=
  { slot := fun i => (w.sockets i).onShelf
    udpArg := fun p => (w.udpPcbs p).map DgramPcb.arg
    rawArg := fun p => (w.rawPcbs p).map DgramPcb.arg
    bases := w.openBases
    table := fun b => (w.bases b).onShelf
    posts := posts w
    seats := !w.selectors.isEmpty }

namespace Shelf

/-- A slot gets another content. -/
def setSlot (d : Shelf) (i : SlotIdx) (v : Bin) : Shelf :=
  { d with slot := Function.update d.slot i v }

/-- A UDP pcb delivers to another slot, or is gone. -/
def setUdp (d : Shelf) (p : PcbId) (v : Option SlotIdx) : Shelf :=
  { d with udpArg := Function.update d.udpArg p v }

/-- A raw pcb delivers to another slot, or is gone. -/
def setRaw (d : Shelf) (p : PcbId) (v : Option SlotIdx) : Shelf :=
  { d with rawArg := Function.update d.rawArg p v }

/-- A base gets another table. -/
def setTable (d : Shelf) (b : BaseId) (t : Table) : Shelf :=
  { d with table := Function.update d.table b t }

/-- A slot written with its own value. -/
@[simp] theorem setSlot_self (d : Shelf) (i : SlotIdx) : d.setSlot i (d.slot i) = d := by
  simp [setSlot]

/-- The slot written is read. -/
@[simp] theorem slot_setSlot (d : Shelf) (i : SlotIdx) (v : Bin) : (d.setSlot i v).slot i = v :=
  Function.update_self ..

/-- The second write to a slot stands. -/
@[simp] theorem setSlot_setSlot (d : Shelf) (i : SlotIdx) (v v' : Bin) :
    (d.setSlot i v).setSlot i v' = d.setSlot i v' := by
  simp [setSlot]

/-- A table written with its own value. -/
@[simp] theorem setTable_self (d : Shelf) (b : BaseId) : d.setTable b (d.table b) = d := by
  simp [setTable]

end Shelf

/-! ## Queues in order -/

/-- A packet of which nothing has been read. -/
structure TnRxPacket.Fresh (pkt : TnRxPacket) : Prop where
  start : pkt.offset = 0
  bytes : pkt.p ≠ []

/-- The receive queue of a slot. Only the first packet of a stream can have been read in part. -/
structure RxOk (kind : Int) (rx : List TnRxPacket) : Prop where
  fits : ∀ pkt ∈ rx, pkt.p.length ≤ 0xFFFF
  whole : ∀ pkt ∈ rx.tail, pkt.offset = 0
  stream : kind = sockStream → ∀ pkt ∈ rx, pkt.offset < pkt.p.length
  dgram : kind ≠ sockStream → ∀ pkt ∈ rx, pkt.offset = 0

/-- An early queue. -/
structure EarlyOk (e : List TnRxPacket × Nat) : Prop where
  count : e.2 = e.1.length
  fits : ∀ pkt ∈ e.1, pkt.p.length ≤ 0xFFFF
  fresh : ∀ pkt ∈ e.1, pkt.Fresh

/-- The queues of a slot are in order and counted. -/
structure Bin.Ok (v : Bin) : Prop where
  rx : RxOk v.kind v.rx
  rxCount : v.rxCount = v.rx.length
  early : ∀ e ∈ v.early, EarlyOk e
  acceptCount : v.acceptCount = v.early.length

/-- All queues are in order, a datagram pcb delivers to the slot that holds it, and no base is
registered twice. -/
structure Shelf.Ok (d : Shelf) : Prop where
  slot : ∀ i, (d.slot i).Ok
  udp : ∀ p i, d.udpArg p = some i →
    (d.slot i).live = true ∧ (d.slot i).udp = some p ∧ (d.slot i).kind ≠ sockStream
  raw : ∀ p i, d.rawArg p = some i →
    (d.slot i).live = true ∧ (d.slot i).raw = some p ∧ (d.slot i).kind ≠ sockStream
  unique : ∀ k k' b, d.bases k = some b → d.bases k' = some b → k = k'
  seats : d.seats = true

/-! ## Tables that grow -/

/-- Whether bit `k` was recorded for slot `i` of base `b`. -/
def recorded (l : List Post) (b : BaseId) (i : SlotIdx) (k : Nat) : Bool :=
  l.any fun p => p.base == b && p.slot == i && p.mask.testBit k

/-- Nothing posted, nothing recorded. -/
@[simp] theorem recorded_nil (b : BaseId) (i : SlotIdx) (k : Nat) : recorded [] b i k = false := rfl

/-- What either list of posts records. -/
theorem recorded_append (l l' : List Post) (b : BaseId) (i : SlotIdx) (k : Nat) :
    recorded (l ++ l') b i k = (recorded l b i k || recorded l' b i k) := List.any_append ..

/-- A table while no descriptor is given up and the events of `l` are recorded. -/
structure Table.Grows (l : List Post) (b : BaseId) (t t' : Table) : Prop where
  masks : t'.masks = t.masks
  size : t'.size = t.size
  kept : ∀ fd i, t.fdMap fd = some i → t'.fdMap fd = some i ∧
    ∀ k, (t'.events fd).testBit k =
      ((t.events fd).testBit k || decide (fd < t.size) && (t.masks fd).testBit k && recorded l b i k)
  free : ∀ fd, t.fdMap fd = none → (t'.fdMap fd = none ∧ t'.events fd = t.events fd) ∨
    ∃ i, t'.fdMap fd = some i ∧ ∀ k, (t'.events fd).testBit k = true →
      (t.events fd).testBit k = true ∨ ((t.masks fd).testBit k = true ∧ recorded l b i k = true)
  fits : ∀ fd, t.fdMap fd = none → t'.fdMap fd ≠ none → fd < t.size

/-- All tables grow. -/
def Shelf.Grows (d d' : Shelf) : Prop :=
  d'.bases = d.bases ∧
    ∃ l, d'.posts = l ++ d.posts ∧ ∀ b, Table.Grows l b (d.table b) (d'.table b)

/-- A table without posts grows nothing. -/
theorem Table.Grows.refl (b : BaseId) (t : Table) : Table.Grows [] b t t where
  masks := rfl
  size := rfl
  kept := fun fd i h => ⟨h, fun k => by simp⟩
  free := fun fd h => .inl ⟨h, rfl⟩
  fits := fun _ h h' => absurd h h'

/-- An open descriptor stays, with the events recorded before and since. -/
theorem Table.Grows.keeps {l l' : List Post} {b : BaseId} {t t' t'' : Table} {fd : Nat} {i : SlotIdx}
    (h' : Table.Grows l' b t' t'') (masks : t'.masks = t.masks) (size : t'.size = t.size)
    (hi : t'.fdMap fd = some i) (hev : ∀ k, (t'.events fd).testBit k =
      ((t.events fd).testBit k ||
        decide (fd < t.size) && (t.masks fd).testBit k && recorded l b i k)) :
    t''.fdMap fd = some i ∧ ∀ k, (t''.events fd).testBit k =
      ((t.events fd).testBit k ||
        decide (fd < t.size) && (t.masks fd).testBit k && recorded (l' ++ l) b i k) := by
  obtain ⟨hi', hev'⟩ := h'.kept fd i hi
  refine ⟨hi', fun k => ?_⟩
  rw [hev' k, hev k, masks, size, recorded_append]
  cases decide (fd < t.size) <;> cases (t.masks fd).testBit k <;> cases recorded l b i k <;>
    cases recorded l' b i k <;> simp

/-- A descriptor that was free, or opened since, has no events but those of its socket. -/
theorem Table.Grows.opens {l l' : List Post} {b : BaseId} {t t' t'' : Table} {fd : Nat}
    (h' : Table.Grows l' b t' t'') (masks : t'.masks = t.masks)
    (h : (t'.fdMap fd = none ∧ t'.events fd = t.events fd) ∨
      ∃ i, t'.fdMap fd = some i ∧ ∀ k, (t'.events fd).testBit k = true →
        (t.events fd).testBit k = true ∨
          ((t.masks fd).testBit k = true ∧ recorded l b i k = true)) :
    (t''.fdMap fd = none ∧ t''.events fd = t.events fd) ∨
      ∃ i, t''.fdMap fd = some i ∧ ∀ k, (t''.events fd).testBit k = true →
        (t.events fd).testBit k = true ∨
          ((t.masks fd).testBit k = true ∧ recorded (l' ++ l) b i k = true) := by
  rcases h with ⟨hn, hev⟩ | ⟨i, hi, hev⟩
  · rcases h'.free fd hn with ⟨hn', hev'⟩ | ⟨i, hi, hev'⟩
    · exact .inl ⟨hn', hev'.trans hev⟩
    · refine .inr ⟨i, hi, fun k hk => ?_⟩
      rw [recorded_append, Bool.or_eq_true]
      rcases hev' k hk with old | ⟨hm, hr⟩
      · exact .inl (hev ▸ old)
      · exact .inr ⟨masks ▸ hm, .inl hr⟩
  · obtain ⟨hi', hev'⟩ := h'.kept fd i hi
    refine .inr ⟨i, hi', fun k hk => ?_⟩
    rw [hev' k, Bool.or_eq_true, Bool.and_eq_true, Bool.and_eq_true, masks] at hk
    rw [recorded_append, Bool.or_eq_true]
    rcases hk with old | ⟨⟨-, hm⟩, hr⟩
    · exact (hev k old).imp_right fun h => ⟨h.1, .inr h.2⟩
    · exact .inr ⟨hm, .inl hr⟩

/-- Growth composes, posts appended. -/
theorem Table.Grows.trans {l l' : List Post} {b : BaseId} {t t' t'' : Table}
    (h : Table.Grows l b t t') (h' : Table.Grows l' b t' t'') :
    Table.Grows (l' ++ l) b t t'' where
  masks := h'.masks.trans h.masks
  size := h'.size.trans h.size
  kept := by
    intro fd i hi
    obtain ⟨hi', hev⟩ := h.kept fd i hi
    exact h'.keeps h.masks h.size hi' hev
  free := fun fd hn => h'.opens h.masks (h.free fd hn)
  fits := by
    intro fd hn hs
    by_cases hn' : t'.fdMap fd = none
    · exact h.size ▸ h'.fits fd hn' hs
    · exact h.fits fd hn hn'

/-- Growth of the whole view composes. -/
theorem Shelf.Grows.trans {d d' d'' : Shelf} (h : d.Grows d') (h' : d'.Grows d'') : d.Grows d'' := by
  obtain ⟨hb, l, hl, ht⟩ := h
  obtain ⟨hb', l', hl', ht'⟩ := h'
  exact ⟨hb'.trans hb, l' ++ l, by rw [hl', hl, List.append_assoc], fun b => (ht b).trans (ht' b)⟩

/-- A piece of code that keeps the queues in order and gives up no descriptor. -/
structure Tame (w w' : World) : Prop where
  run : (shelf w).Ok → (shelf w').Ok ∧ (shelf w).Grows (shelf w')

/-- A piece of code that keeps the queues in order and leaves the tables alone. -/
structure Still (w w' : World) : Prop where
  bases : (shelf w').bases = (shelf w).bases
  table : (shelf w').table = (shelf w).table
  posts : (shelf w').posts = (shelf w).posts
  ok : (shelf w).Ok → (shelf w').Ok

/-- The same view is still. -/
theorem Still.of_eq {w w' : World} (h : shelf w' = shelf w) : Still w w' :=
  ⟨by rw [h], by rw [h], by rw [h], fun hok => by rwa [h]⟩

/-- Nothing done is still. -/
theorem Still.refl (w : World) : Still w w := .of_eq rfl

/-- Stillness composes. -/
theorem Still.trans {w w' w'' : World} (h : Still w w') (h' : Still w' w'') : Still w w'' :=
  ⟨h'.bases.trans h.bases, h'.table.trans h.table, h'.posts.trans h.posts, fun hok => h'.ok (h.ok hok)⟩

/-- Still code is tame. -/
theorem Still.tame {w w' : World} (h : Still w w') : Tame w w' :=
  ⟨fun hok => ⟨h.ok hok, h.bases, [], h.posts, fun b => by rw [h.table]; exact .refl b _⟩⟩

namespace Tame

variable {w w' w'' : World}

/-- The same view is tame. -/
theorem of_eq (h : shelf w' = shelf w) : Tame w w' := (Still.of_eq h).tame

/-- Nothing done is tame. -/
theorem refl (w : World) : Tame w w := of_eq rfl

/-- Tame code composes. -/
theorem trans (h : Tame w w') (h' : Tame w' w'') : Tame w w'' :=
  ⟨fun hok => ⟨(h'.run (h.run hok).1).1, (h.run hok).2.trans (h'.run (h.run hok).1).2⟩⟩

/-- What is known of a state in order may be used. -/
theorem of_ok (h : (shelf w).Ok → Tame w w') : Tame w w' := ⟨fun hok => (h hok).run hok⟩

/-- No table gets another size. -/
theorem size (h : Tame w w') (hok : (shelf w).Ok) (b : BaseId) :
    (w'.bases b).dtablesize = (w.bases b).dtablesize := by
  obtain ⟨-, -, l, -, grows⟩ := h.run hok
  exact (grows b).size

/-- A loop of tame turns is tame. -/
theorem foldl {α : Type} (f : World → α → World) (l : List α)
    (hf : ∀ w, ∀ x ∈ l, Tame w (f w x)) (w : World) : Tame w (l.foldl f w) :=
  l.foldlRecOn (motive := Tame w) f (refl w) fun _ done x hx => done.trans (hf _ x hx)

end Tame

end Tolunnet
