import Mathlib.Logic.Relation
import Tolunnet.Task.Daemon

/-!
# `Tolunnet.Queue.State`: the slot table and its queues

`yard h w` is what the daemon keeps of its slots for the results about queues and about slots that
are used again: which slots are in use, the receive queue and the accept queue of each with their
counts, the backlog, and the table of multicast memberships. The entries of `h` have been taken out
of an accept queue and not been freed yet: they are in a local variable of a handler.

A `Move` is one operation on the yard under the name of an `Op`. The names are what is left of a run
when the states are forgotten. A piece of code `Works` when its effect on the yard is a list of
moves.
-/

set_option autoImplicit false

namespace Tolunnet

namespace Queues

open World

/-! ## The yard -/

/-- What is kept of a slot. -/
structure Bay where
  live : Bool := false
  rx : List TnRxPacket := []
  rxCount : Nat := 0
  queue : List TnAcceptEntry := []
  acceptCount : Nat := 0
  backlog : Nat := 0

/-- The slots, the memberships, and the entries in hand. -/
structure Yard where
  bay : SlotIdx → Bay
  joins : Fin 8 → McastJoin
  hand : List TnAcceptEntry

/-- An accept entry without the history of its bytes. -/
def plain (ent : TnAcceptEntry) : TnAcceptEntry := { ent with hist := {} }

/-- A slot in the view. -/
def bay (s : TnSocketSlot) : Bay :=
  { live := s.inUse, rx := s.rx, rxCount := s.rxCount, queue := s.acceptQ.map plain,
    acceptCount := s.acceptCount, backlog := s.listenBacklog }

/-- The yard of a world with the entries of `h` in hand. -/
def yard (h : List TnAcceptEntry) (w : World) : Yard :=
  { bay := fun i => bay (w.sockets i), joins := w.mcastJoins, hand := h.map plain }

/-- A record after slot `i` has left its groups. -/
def leftBy (i : SlotIdx) (r : McastJoin) : McastJoin :=
  if r.inUse ∧ r.slot = i then { r with inUse := false } else r

namespace Yard

/-- A slot gets another content. -/
def setBay (y : Yard) (i : SlotIdx) (b : Bay) : Yard :=
  { y with bay := Function.update y.bay i b }

/-- Join record `k` gets another content. -/
def setJoin (y : Yard) (k : Fin 8) (r : McastJoin) : Yard :=
  { y with joins := Function.update y.joins k r }

/-- Other entries are in hand. -/
def setHand (y : Yard) (h : List TnAcceptEntry) : Yard := { y with hand := h }

/-- No record of slot `i` is in use any more. -/
def leaveAll (y : Yard) (i : SlotIdx) : Yard := { y with joins := fun k => leftBy i (y.joins k) }

/-- A bay written with its own value. -/
@[simp] theorem setBay_self (y : Yard) (i : SlotIdx) : y.setBay i (y.bay i) = y := by
  simp [setBay]

/-- The bay written is read. -/
@[simp] theorem bay_setBay (y : Yard) (i : SlotIdx) (b : Bay) : (y.setBay i b).bay i = b :=
  Function.update_self ..

/-- The other bays are left. -/
theorem bay_setBay_of_ne (y : Yard) {i j : SlotIdx} (h : j ≠ i) (b : Bay) :
    (y.setBay i b).bay j = y.bay j := Function.update_of_ne h ..

/-- The second write to a bay stands. -/
@[simp] theorem setBay_setBay (y : Yard) (i : SlotIdx) (b b' : Bay) :
    (y.setBay i b).setBay i b' = y.setBay i b' := by
  simp [setBay]

end Yard

/-! ## Operations -/

/-- The names of the operations. -/
inductive Op where
  /-- `tn_slot_alloc`. -/
  | alloc (j : SlotIdx)
  /-- `tn_slot_free`, with its drains. -/
  | free (i : SlotIdx)
  /-- `listen` stores a backlog. -/
  | backlog (i : SlotIdx) (n : Nat)
  /-- `tn_rx_queue_push_ex`. -/
  | push (i : SlotIdx) (pkt : TnRxPacket)
  /-- `pkt->offset += n` on the first packet. -/
  | read (i : SlotIdx) (n : Nat)
  /-- A receive handler unlinks the first packet. -/
  | unlink (i : SlotIdx)
  /-- `tn_rx_queue_drain`. -/
  | drain (i : SlotIdx)
  /-- `tn_accept_queue_push` of connection `p` at address `e`, with the count that results and the
  backlog at that time. -/
  | queue (i : SlotIdx) (e : EntId) (p : PcbId) (count backlog : Nat)
  /-- `tn_tcp_queued_recv_cb` queues a segment. -/
  | early (i : SlotIdx) (e : EntId) (pkt : TnRxPacket)
  /-- `tn_tcp_queued_recv_cb` notes a FIN. -/
  | fin (i : SlotIdx) (e : EntId)
  /-- `tn_accept_queue_remove`, from the error callback. -/
  | forget (i : SlotIdx) (e : EntId)
  /-- `tn_accept_queue_pop_entry`. -/
  | pop (i : SlotIdx)
  /-- `tn_accept_entry_free(ent, TRUE)` on the entry in hand. -/
  | abort
  /-- The connection in hand and its early queue go to slot `j`. -/
  | hand (j : SlotIdx)
  /-- A multicast membership is recorded. -/
  | join (k : Fin 8) (i : SlotIdx)
  /-- A membership record ends. -/
  | leave (k : Fin 8)

namespace Bay

/-- The slot `tn_init_socket_slot` makes. -/
def fresh : Bay := { live := true, backlog := acceptQueueMax }

/-- A packet at the end of the queue. -/
def push (b : Bay) (pkt : TnRxPacket) : Bay :=
  { b with rx := b.rx ++ [pkt], rxCount := b.rxCount + 1 }

/-- The first packet is read. -/
def read (b : Bay) (n : Nat) : Bay :=
  match b.rx with
  | [] => b
  | pkt :: rest => { b with rx := { pkt with offset := pkt.offset + n } :: rest }

/-- The first packet leaves. -/
def unlink (b : Bay) : Bay := { b with rx := b.rx.tail, rxCount := b.rxCount - 1 }

/-- All packets leave. -/
def drain (b : Bay) : Bay := { b with rx := [], rxCount := 0 }

/-- A connection at the end of the queue. -/
def enqueue (b : Bay) (i : SlotIdx) (e : EntId) (p : PcbId) : Bay :=
  { b with queue := b.queue ++ [{ id := e, newPcb := some p, listeningSlot := i }],
           acceptCount := b.acceptCount + 1 }

/-- The entry at address `e` changes. -/
def modEntry (b : Bay) (e : EntId) (f : TnAcceptEntry → TnAcceptEntry) : Bay :=
  { b with queue := b.queue.map fun x => if x.id = e then f x else x }

/-- The entry at address `e` leaves. -/
def forget (b : Bay) (e : EntId) : Bay :=
  { b with queue := b.queue.eraseP (·.id == e), acceptCount := b.acceptCount - 1 }

/-- The first entry leaves. -/
def pop (b : Bay) : Bay := { b with queue := b.queue.tail, acceptCount := b.acceptCount - 1 }

/-- The early queue of an entry becomes the receive queue. -/
def take (b : Bay) (ent : TnAcceptEntry) : Bay :=
  { b with rx := ent.earlyRx, rxCount := ent.earlyRxCount }

end Bay

/-- A segment at the end of the early queue. -/
def addEarly (pkt : TnRxPacket) (x : TnAcceptEntry) : TnAcceptEntry :=
  { x with earlyRx := x.earlyRx ++ [pkt], earlyRxCount := x.earlyRxCount + 1 }

/-- The peer has closed. -/
def setFin (x : TnAcceptEntry) : TnAcceptEntry := { x with peerClosed := true }

/-- No queue has an entry at address `e`, and none is in hand. -/
def Yard.Unused (y : Yard) (e : EntId) : Prop :=
  (∀ i, ∀ x ∈ (y.bay i).queue, x.id ≠ e) ∧ ∀ x ∈ y.hand, x.id ≠ e

/-- One operation, with what the code knows when it performs it. -/
inductive Move : Op → Yard → Yard → Prop where
  | alloc (y : Yard) (j : SlotIdx) (hf : (y.bay j).live = false) :
      Move (.alloc j) y (y.setBay j .fresh)
  | free (y : Yard) (i : SlotIdx) (hl : (y.bay i).live = true) :
      Move (.free i) y ((y.leaveAll i).setBay i { backlog := (y.bay i).backlog })
  | backlog (y : Yard) (i : SlotIdx) (n : Nat) :
      Move (.backlog i n) y (y.setBay i { y.bay i with backlog := n })
  | push (y : Yard) (i : SlotIdx) (pkt : TnRxPacket) (hl : (y.bay i).live = true) :
      Move (.push i pkt) y (y.setBay i ((y.bay i).push pkt))
  | read (y : Yard) (i : SlotIdx) (n : Nat) : Move (.read i n) y (y.setBay i ((y.bay i).read n))
  | unlink (y : Yard) (i : SlotIdx) : Move (.unlink i) y (y.setBay i (y.bay i).unlink)
  | drain (y : Yard) (i : SlotIdx) : Move (.drain i) y (y.setBay i (y.bay i).drain)
  | queue (y : Yard) (i : SlotIdx) (e : EntId) (p : PcbId) (hl : (y.bay i).live = true)
      (hb : (y.bay i).acceptCount < (y.bay i).backlog) (he : y.Unused e) :
      Move (.queue i e p ((y.bay i).acceptCount + 1) (y.bay i).backlog) y
        (y.setBay i ((y.bay i).enqueue i e p))
  | early (y : Yard) (i : SlotIdx) (e : EntId) (pkt : TnRxPacket)
      (he : ∃ x ∈ (y.bay i).queue, x.id = e) :
      Move (.early i e pkt) y (y.setBay i ((y.bay i).modEntry e (addEarly pkt)))
  | fin (y : Yard) (i : SlotIdx) (e : EntId) (he : ∃ x ∈ (y.bay i).queue, x.id = e) :
      Move (.fin i e) y (y.setBay i ((y.bay i).modEntry e setFin))
  | forget (y : Yard) (i : SlotIdx) (e : EntId) (he : ∃ x ∈ (y.bay i).queue, x.id = e) :
      Move (.forget i e) y (y.setBay i ((y.bay i).forget e))
  | pop (y : Yard) (i : SlotIdx) (ent : TnAcceptEntry) (rest : List TnAcceptEntry)
      (hq : (y.bay i).queue = ent :: rest) :
      Move (.pop i) y ((y.setBay i (y.bay i).pop).setHand (ent :: y.hand))
  | abort (y : Yard) (ent : TnAcceptEntry) (h : List TnAcceptEntry) (hh : y.hand = ent :: h) :
      Move .abort y (y.setHand h)
  | hand (y : Yard) (j : SlotIdx) (ent : TnAcceptEntry) (h : List TnAcceptEntry)
      (hh : y.hand = ent :: h) (hr : (y.bay j).rx = []) :
      Move (.hand j) y ((y.setBay j ((y.bay j).take ent)).setHand h)
  | join (y : Yard) (k : Fin 8) (r : McastJoin) (hf : (y.joins k).inUse = false)
      (hu : r.inUse = true) (hl : (y.bay r.slot).live = true) :
      Move (.join k r.slot) y (y.setJoin k r)
  | leave (y : Yard) (k : Fin 8) :
      Move (.leave k) y (y.setJoin k { y.joins k with inUse := false })

/-- A list of operations, the first one first. -/
inductive Moves : List Op → Yard → Yard → Prop where
  | nil (y : Yard) : Moves [] y y
  | cons {o : Op} {l : List Op} {y y' y'' : Yard} (h : Move o y y') (hs : Moves l y' y'') :
      Moves (o :: l) y y''

/-- One move is a list of moves. -/
theorem Moves.one {o : Op} {y y' y'' : Yard} (h : Move o y y') (he : y'' = y') :
    Moves [o] y y'' := he ▸ .cons h (.nil _)

/-- Lists of moves are appended. -/
theorem Moves.append {l l' : List Op} {y y' y'' : Yard} (h : Moves l y y') (h' : Moves l' y' y'') :
    Moves (l ++ l') y y'' := by
  induction h with
  | nil => exact h'
  | cons hm _ ih => exact .cons hm (ih h')

/-- What every move keeps is kept by a list of them. -/
theorem Moves.induct {I : Yard → Prop} {l : List Op} {y y' : Yard}
    (hstep : ∀ o y y', I y → Move o y y' → I y') (hi : I y) (h : Moves l y y') : I y' := by
  induction h with
  | nil => exact hi
  | cons hm _ ih => exact ih (hstep _ _ _ hi hm)

/-! ## Code that works -/

/-- The effect of a piece of code on the yard is a list of moves. -/
def Works (h : List TnAcceptEntry) (w w' : World) : Prop :=
  ∃ l, Moves l (yard h w) (yard h w')

namespace Works

variable {h : List TnAcceptEntry} {w w' w'' : World}

/-- The same yard is no work. -/
theorem of_eq (he : yard h w' = yard h w) : Works h w w' := ⟨[], he ▸ .nil _⟩

/-- Nothing done is no work. -/
theorem refl (w : World) : Works h w w := of_eq rfl

/-- Works compose. -/
theorem trans (h₁ : Works h w w') (h₂ : Works h w' w'') : Works h w w'' := by
  obtain ⟨l, hl⟩ := h₁
  obtain ⟨l', hl'⟩ := h₂
  exact ⟨l ++ l', hl.append hl'⟩

/-- One move is work. -/
theorem one {o : Op} {y : Yard} (hm : Move o (yard h w) y) (he : yard h w' = y) : Works h w w' :=
  ⟨[o], .one hm he⟩

/-- A loop of turns that work. -/
theorem foldl {α : Type} (f : World → α → World) (l : List α)
    (hf : ∀ w, ∀ x ∈ l, Works h w (f w x)) (w : World) : Works h w (l.foldl f w) :=
  l.foldlRecOn (motive := Works h w) f (refl w) fun _ done x hx => done.trans (hf _ x hx)

/-- A result taken apart. -/
theorem of_pair {α : Type} {r : World × α} {a : α} (he : r = (w', a)) (hr : Works h w r.1) :
    Works h w w' := by
  rw [he] at hr
  exact hr

end Works

end Queues

end Tolunnet
