import Mathlib.Logic.Relation
import Tolunnet.Lib.Ledger
import Tolunnet.Task.Daemon

/-!
# `Tolunnet.Desk.State`: what the daemon keeps account of

A small abstract daemon: the requests it holds and has answered, the DNS records with their
counter, the parked sockets with the next id, and the multicast memberships beside lwIP's use
counts. `desk h w` reads it off a `World` while the messages of `h` are in hand, that is, taken
out of their place and not answered yet.

A `Move` is one entry in these accounts. The moves of a piece of code say all that it does to
them, so an account that every move keeps is kept by every run. Four moves are marked, because
only some steps make them: a socket is parked, a lookup is deferred, a group is left by a slot
that has no record of it, and a lookup of a client that has died is dropped. The policy `P` says
which marks are allowed.
-/

set_option autoImplicit false

namespace Tolunnet

open World
open Ledger (Books)

/-! ## The accounts -/

/-- The accounts. `lot` is the id under which a slot is parked, `use` what the daemon has added
to the use count of an interface and a group. -/
structure Desk where
  pend : SlotIdx → Pend → Option MsgId
  stop : Option MsgId
  dns : Fin 8 → TnDnsPending
  dnsCount : Nat
  late : Nat
  hand : List MsgId
  callOf : MsgId → CallNo
  calls : CallNo
  answered : List CallNo
  lot : SlotIdx → Option Int
  nextPark : Int
  joins : Fin 8 → McastJoin
  use : Nat × Nat → Int
  alive : TaskId → Bool

/-- The id under which a slot is parked. -/
def TnSocketSlot.parkedAs (s : TnSocketSlot) : Option Int :=
  if s.inUse && s.isParked then some s.parkId else none

/-- The accounts of a world with the messages of `h` in hand. -/
def desk (h : List MsgId) (w : World) : Desk :=
  { pend := fun i => (w.sockets i).pending
    stop := w.stopMsg
    dns := w.dnsPending
    dnsCount := w.dnsPendingCount
    late := w.dnsLateReplies
    hand := h
    callOf := w.callOf
    calls := w.calls
    answered := answered w
    lot := fun i => (w.sockets i).parkedAs
    nextPark := w.nextParkId
    joins := w.mcastJoins
    use := w.igmpUse
    alive := w.taskAlive }

namespace Desk

/-- A field of a slot gets another content. -/
def setPend (d : Desk) (i : SlotIdx) (k : Pend) (v : Option MsgId) : Desk :=
  { d with pend := Function.update d.pend i (Function.update (d.pend i) k v) }

/-- Other messages are in hand. -/
def setHand (d : Desk) (h : List MsgId) : Desk := { d with hand := h }

/-- A call is answered. -/
def say (d : Desk) (m : MsgId) : Desk := { d with answered := d.callOf m :: d.answered }

/-- A slot is parked under an id, or under none. -/
def setLot (d : Desk) (i : SlotIdx) (v : Option Int) : Desk :=
  { d with lot := Function.update d.lot i v }

/-- DNS record `k` gets another content. -/
def setDns (d : Desk) (k : Fin 8) (r : TnDnsPending) : Desk :=
  { d with dns := Function.update d.dns k r }

/-- DNS record `k` is emptied. -/
def clearDns (d : Desk) (k : Fin 8) : Desk :=
  { d.setDns k { d.dns k with inUse := false, imsg := none, base := none } with
    dnsCount := d.dnsCount - 1 }

/-- A lookup goes into DNS record `k`. -/
def fillDns (d : Desk) (k : Fin 8) (r : TnDnsPending) : Desk :=
  { d.setDns k r with dnsCount := if d.dnsCount < dnsPendingMax then d.dnsCount + 1 else d.dnsCount }

/-- Join record `k` gets another content. -/
def setJoin (d : Desk) (k : Fin 8) (r : McastJoin) : Desk :=
  { d with joins := Function.update d.joins k r }

/-- The use count of an interface and a group changes. -/
def addUse (d : Desk) (ifa grp : Nat) (n : Int) : Desk :=
  { d with use := Function.update d.use (ifa, grp) (d.use (ifa, grp) + n) }

/-- The message a place holds. -/
def held (d : Desk) : Place → Option MsgId
  | .slot i k => d.pend i k
  | .dns k => if (d.dns k).inUse then (d.dns k).imsg else none
  | .stop => d.stop

/-- The books on the requests. -/
def books (d : Desk) : Books Place MsgId :=
  { held := d.held, hand := d.hand, callOf := d.callOf, calls := d.calls, answered := d.answered }

end Desk

/-! ## Moves -/

/-- The marks of the moves that only some steps make. -/
inductive Mark where
  | release | lookup | stray | reap
  deriving DecidableEq, Repr

/-- One entry in the accounts. -/
inductive Move (P : Mark → Prop) : Desk → Desk → Prop where
  /-- A parked request comes in hand. -/
  | take (d : Desk) (i : SlotIdx) (k : Pend) (m : MsgId) (hp : d.pend i k = some m) :
      Move P d ((d.setPend i k none).setHand (m :: d.hand))
  /-- A field is emptied. -/
  | lose (d : Desk) (i : SlotIdx) (k : Pend) : Move P d (d.setPend i k none)
  /-- The request in hand is parked in a slot. -/
  | put (d : Desk) (i : SlotIdx) (k : Pend) (m : MsgId) (hm : m ∈ d.hand) :
      Move P d ((d.setPend i k (some m)).setHand (d.hand.erase m))
  /-- `STOP` is parked. -/
  | putStop (d : Desk) (m : MsgId) (hm : m ∈ d.hand) :
      Move P d { d with stop := some m, hand := d.hand.erase m }
  /-- The parked `STOP` is answered. -/
  | sayStop (d : Desk) (m : MsgId) (hp : d.stop = some m) : Move P d { d.say m with stop := none }
  /-- The request in hand is answered. -/
  | reply (d : Desk) (m : MsgId) (hm : m ∈ d.hand) :
      Move P d ((d.say m).setHand (d.hand.erase m))
  /-- A lookup is deferred. -/
  | lookup (d : Desk) (k : Fin 8) (m : MsgId) (r : TnDnsPending) (hm : m ∈ d.hand)
      (hf : (d.dns k).inUse = false) (hu : r.inUse = true) (hr : r.imsg = some m)
      (hl : P .lookup) : Move P d ((d.fillDns k r).setHand (d.hand.erase m))
  /-- A deferred lookup is answered. -/
  | found (d : Desk) (k : Fin 8) (m : MsgId) (hu : (d.dns k).inUse = true)
      (hr : (d.dns k).imsg = some m) : Move P d ((d.clearDns k).say m)
  /-- A record is dropped. -/
  | forget (d : Desk) (k : Fin 8) (hu : (d.dns k).inUse = true)
      (hr : (d.dns k).imsg = none ∨ P .reap) : Move P d (d.clearDns k)
  /-- An answer comes too late. -/
  | late (d : Desk) : Move P d { d with late := d.late + 1 }
  /-- A slot is not parked any more. -/
  | vacate (d : Desk) (i : SlotIdx) : Move P d (d.setLot i none)
  /-- A slot is parked under an id that no other slot has. -/
  | release (d : Desk) (i : SlotIdx) (id : Int) (hf : ∀ j, d.lot j ≠ some id)
      (hl : P .release) : Move P d (d.setLot i (some id))
  /-- The next id to give out is another positive LONG. -/
  | count (d : Desk) (n : Int) (hn : 0 < d.nextPark ∧ d.nextPark < 2 ^ 31 → 0 < n ∧ n < 2 ^ 31) :
      Move P d { d with nextPark := n }
  /-- A group is joined and recorded. -/
  | join (d : Desk) (k : Fin 8) (r : McastJoin) (hf : (d.joins k).inUse = false)
      (hu : r.inUse = true) : Move P d ((d.setJoin k r).addUse r.ifa r.grp 1)
  /-- A recorded group is left. -/
  | leave (d : Desk) (k : Fin 8) (hu : (d.joins k).inUse = true) :
      Move P d ((d.setJoin k { d.joins k with inUse := false }).addUse (d.joins k).ifa
        (d.joins k).grp (-1))
  /-- lwIP refuses to leave a recorded group, and the record is dropped. -/
  | stuck (d : Desk) (k : Fin 8) (hu : (d.joins k).inUse = true)
      (hn : d.use ((d.joins k).ifa, (d.joins k).grp) ≤ 0) :
      Move P d (d.setJoin k { d.joins k with inUse := false })
  /-- A group is left by a slot that has no record of it. -/
  | stray (d : Desk) (ifa grp : Nat) (hl : P .stray) : Move P d (d.addUse ifa grp (-1))

/-- Any number of moves. -/
abbrev Moves (P : Mark → Prop) : Desk → Desk → Prop := Relation.ReflTransGen (Move P)

/-- One move, with its outcome given in another form. -/
theorem Moves.one {P : Mark → Prop} {d d' d'' : Desk} (h : Move P d d') (he : d'' = d') :
    Moves P d d'' := he ▸ .single h

/-- The outcome in another form. -/
theorem Moves.congr {P : Mark → Prop} {d d' d'' : Desk} (h : Moves P d d') (he : d'' = d') :
    Moves P d d'' := he ▸ h

/-- No move at all. -/
theorem Moves.none {P : Mark → Prop} {d d' : Desk} (he : d' = d) : Moves P d d' := he ▸ .refl

end Tolunnet
