import Tolunnet.Desk.Steps
import Tolunnet.Lib.Tally

/-!
# `Tolunnet.Desk.Sound`: what every run keeps in the accounts

`Desk.Sound` collects what holds of the accounts between two steps: the books on the requests are
in order (`Ledger.Books.Once`), the counter of the DNS records is right and each record in use
holds a message, no two slots are parked under one id, and the next id is a positive LONG. Every
move keeps it, so every run does.
-/

set_option autoImplicit false

namespace Tolunnet

open World
open Ledger (Books)

variable {P : Mark → Prop} {d d' : Desk}

/-! ## Books -/

/-- A change of one slot field in the books. -/
theorem Desk.held_setPend (d : Desk) (i : SlotIdx) (k : Pend) (v : Option MsgId) :
    (d.setPend i k v).held = Function.update d.held (.slot i k) v := by
  funext pl
  cases pl with
  | slot j l =>
    by_cases hj : j = i
    · subst hj
      by_cases hl : l = k
      · subst hl
        simp [Desk.held, Desk.setPend]
      · simp [Desk.held, Desk.setPend, hl]
    · simp [Desk.held, Desk.setPend, hj]
  | dns l =>
    rw [Function.update_of_ne (by simp)]
    rfl
  | stop => simp [Desk.held, Desk.setPend]

/-- A change of one DNS record in the books. -/
theorem Desk.held_setDns (d : Desk) (k : Fin 8) (r : TnDnsPending) :
    (d.setDns k r).held = Function.update d.held (.dns k) (if r.inUse then r.imsg else none) := by
  funext pl
  cases pl with
  | slot j l => simp [Desk.held, Desk.setDns]
  | dns l =>
    by_cases hl : l = k
    · subst hl
      simp [Desk.held, Desk.setDns]
    · simp [Desk.held, Desk.setDns, hl]
  | stop => simp [Desk.held, Desk.setDns]

/-- A change of the parked `STOP` in the books. -/
theorem Desk.held_stop (d : Desk) (v : Option MsgId) :
    ({ d with stop := v } : Desk).held = Function.update d.held .stop v := by
  funext pl
  cases pl <;> simp [Desk.held]

/-- A move is a step of the books. -/
theorem Move.books (hm : Move P d d') : Books.Step True d.books d'.books := by
  cases hm with
  | take i k m hp =>
    refine (Books.Step.take d.books (.slot i k) m hp).congr ?_
    simp only [Desk.books, Books.take, Books.place, ← Desk.held_setPend]
    rfl
  | lose i k =>
    refine (Books.Step.drop d.books (.slot i k) trivial).congr ?_
    simp only [Desk.books, Books.place, ← Desk.held_setPend]
    rfl
  | put i k m hm =>
    refine (Books.Step.put d.books (.slot i k) m hm (Or.inr trivial)).congr ?_
    simp only [Desk.books, Books.put, Books.place, ← Desk.held_setPend]
    rfl
  | putStop m hm =>
    refine (Books.Step.put d.books .stop m hm (Or.inr trivial)).congr ?_
    simp only [Desk.books, Books.put, Books.place, ← Desk.held_stop]
    rfl
  | sayStop m hp =>
    refine (Books.Step.answer d.books .stop m hp).congr ?_
    simp only [Desk.books, Books.answer, Books.place, ← Desk.held_stop]
    rfl
  | reply m hm => exact Books.Step.reply d.books m hm
  | lookup k m r hm hf hu hr hl =>
    refine (Books.Step.put d.books (.dns k) m hm (Or.inr trivial)).congr ?_
    have held := Desk.held_setDns d k r
    rw [if_pos hu, hr] at held
    simp only [Desk.books, Books.put, Books.place, ← held]
    rfl
  | found k m hu hr =>
    have hp : d.books.held (.dns k) = some m := by
      show (if (d.dns k).inUse then (d.dns k).imsg else none) = some m
      rw [if_pos hu, hr]
    refine (Books.Step.answer d.books (.dns k) m hp).congr ?_
    have held := Desk.held_setDns d k { d.dns k with inUse := false, imsg := none, base := none }
    rw [if_neg Bool.false_ne_true] at held
    simp only [Desk.books, Books.answer, Books.place, ← held]
    rfl
  | forget k hu hr =>
    refine (Books.Step.drop d.books (.dns k) trivial).congr ?_
    have held := Desk.held_setDns d k { d.dns k with inUse := false, imsg := none, base := none }
    rw [if_neg Bool.false_ne_true] at held
    simp only [Desk.books, Books.place, ← held]
    rfl
  -- These move no request.
  | late => exact .same _
  | vacate i => exact .same _
  | release i id hf hl => exact .same _
  | count n hn => exact .same _
  | join k r hf hu => exact .same _
  | leave k hu => exact .same _
  | stuck k hu hn => exact .same _
  | stray ifa grp hl => exact .same _

/-! ## The invariant -/

/-- The number of DNS records in use. -/
def dnsInUse (dns : Fin 8 → TnDnsPending) : Nat :=
  tally (fun r => r.inUse = true) dns

/-- What holds of the accounts between two steps. -/
structure Desk.Sound (d : Desk) : Prop where
  once : d.books.Once
  count : d.dnsCount = dnsInUse d.dns
  msg : ∀ k, (d.dns k).inUse = true → ∃ m, (d.dns k).imsg = some m
  lot : ∀ i j id, d.lot i = some id → d.lot j = some id → i = j
  next : 0 < d.nextPark ∧ d.nextPark < 2 ^ 31

namespace Desk.Sound

theorem clearDns (hs : d.Sound) {k : Fin 8} (hu : (d.dns k).inUse = true) :
    (d.clearDns k).dnsCount = dnsInUse (d.clearDns k).dns ∧
      ∀ j, ((d.clearDns k).dns j).inUse = true → ∃ m, ((d.clearDns k).dns j).imsg = some m := by
  refine ⟨?_, fun j hj => ?_⟩
  · show d.dnsCount - 1 = _
    rw [hs.count]
    exact (tally_clear hu (by simp)).symm
  · by_cases hjk : j = k
    · subst hjk
      simp [Desk.clearDns, Desk.setDns] at hj
    · simp only [Desk.clearDns, Desk.setDns, Function.update_of_ne hjk] at hj ⊢
      exact hs.msg j hj

/-- Every move keeps the accounts sound. -/
theorem move (hs : d.Sound) (hm : Move P d d') : d'.Sound := by
  have once := hs.once.step hm.books
  cases hm with
  | lookup k m r hm hf hu hr hl =>
    refine { hs with once := once, count := ?_, msg := fun j hj => ?_ }
    · show (if d.dnsCount < dnsPendingMax then d.dnsCount + 1 else d.dnsCount)
        = dnsInUse (Function.update d.dns k r)
      have room : dnsInUse d.dns < dnsPendingMax := tally_lt (k := k) (by simp [hf])
      have filled : dnsInUse (Function.update d.dns k r) = dnsInUse d.dns + 1 :=
        tally_fill (by simp [hf]) hu
      rw [hs.count, if_pos room, filled]
    · by_cases hjk : j = k
      · subst hjk
        exact ⟨m, by simpa [Desk.setHand, Desk.fillDns, Desk.setDns] using hr⟩
      · simp only [Desk.setHand, Desk.fillDns, Desk.setDns, Function.update_of_ne hjk] at hj ⊢
        exact hs.msg j hj
  | found k m hu hr =>
    exact { hs with once := once, count := (hs.clearDns hu).1, msg := (hs.clearDns hu).2 }
  | forget k hu hr =>
    exact { hs with once := once, count := (hs.clearDns hu).1, msg := (hs.clearDns hu).2 }
  | vacate i =>
    refine { hs with once := once, lot := fun a b id ha hb => hs.lot a b id ?_ ?_ }
    · by_cases hi : a = i
      · subst hi
        simp [Desk.setLot] at ha
      · simpa [Desk.setLot, hi] using ha
    · by_cases hi : b = i
      · subst hi
        simp [Desk.setLot] at hb
      · simpa [Desk.setLot, hi] using hb
  | release i id hf hl =>
    refine { hs with once := once, lot := fun a b id' ha hb => ?_ }
    by_cases hai : a = i <;> by_cases hbi : b = i
    · rw [hai, hbi]
    · simp only [Desk.setLot, hai, Function.update_self, Function.update_of_ne hbi] at ha hb
      exact absurd (hb.trans ha.symm) (hf b)
    · simp only [Desk.setLot, hbi, Function.update_self, Function.update_of_ne hai] at ha hb
      exact absurd (ha.trans hb.symm) (hf a)
    · simp only [Desk.setLot, Function.update_of_ne hai, Function.update_of_ne hbi] at ha hb
      exact hs.lot a b id' ha hb
  | count n hn => exact { hs with once := once, next := hn hs.next }
  | _ => exact { hs with once := once }

theorem moves (hs : d.Sound) (hm : Moves P d d') : d'.Sound := by
  induction hm with
  | refl => exact hs
  | tail _ h ih => exact ih.move h

end Desk.Sound

/-! ## Runs -/

theorem sound_init : (desk [] tnSlotTableInit).Sound where
  once :=
    { apart := by
        intro pl _ m h
        cases pl <;> simp [Desk.books, Desk.held, desk, tnSlotTableInit] at h
      nodup := List.nodup_nil
      out := by simp [Desk.books, desk]
      known := by
        rintro m (h | ⟨pl, h⟩)
        · simp [Desk.books, desk] at h
        · cases pl <;> simp [Desk.books, Desk.held, desk, tnSlotTableInit] at h
      inj := by
        rintro m m' (h | ⟨pl, h⟩)
        · simp [Desk.books, desk] at h
        · cases pl <;> simp [Desk.books, Desk.held, desk, tnSlotTableInit] at h
      unanswered := by
        intro m _
        simp [Desk.books, desk, answered, tnSlotTableInit]
      past := by simp [Desk.books, desk, answered, tnSlotTableInit]
      once := by simp [Desk.books, desk, answered, tnSlotTableInit] }
  count := by decide
  msg := by simp [desk, tnSlotTableInit]
  lot := by simp [desk, tnSlotTableInit, TnSocketSlot.parkedAs]
  next := by decide

/-- The accounts hold what the places of the daemon hold. -/
theorem desk_held (h : List MsgId) (w : World) (pl : Place) : (desk h w).held pl = heldMsg w pl := by
  cases pl <;> rfl

/-- A message that nobody holds comes in hand. -/
theorem Desk.Sound.receive {w : World} {m : MsgId} {x : TnIpcMsg} (hs : (desk [] w).Sound)
    (hm : ∀ pl, heldMsg w pl ≠ some m) : (desk [m] (receive w m x)).Sound := by
  have once : ((desk [] w).books.receive m).Once :=
    hs.once.receive (List.not_mem_nil) fun pl => by
      rw [show (desk [] w).books.held pl = heldMsg w pl from desk_held [] w pl]
      exact hm pl
  exact { hs with once := once }

theorem Desk.Sound.entered {w : World} {inp : Input} (hs : (desk [] w).Sound)
    (ha : Admissible w inp) : (entered w inp).Sound := by
  cases inp with
  | ipc m x env => exact hs.receive ha.2.1
  | client c => exact { hs with }
  | _ => exact hs

/-- The accounts are sound in every state that is reached. -/
theorem Reach.sound {ok : World → Input → Prop} {w : World} (hr : Reach ok w) :
    (desk [] w).Sound := by
  induction hr with
  | init => exact sound_init
  | step _ ha _ ih => exact (ih.entered ha).moves (step_moves ha)

/-- When every call has been answered, nothing is held. -/
theorem Reach.idle {ok : World → Input → Prop} {w : World} (hr : Reach ok w)
    (hd : ∀ c < w.calls, c ∈ answered w) (pl : Place) (m : MsgId) : heldMsg w pl ≠ some m := by
  intro hp
  have has : (desk [] w).books.Has m := Or.inr ⟨pl, (desk_held [] w pl).trans hp⟩
  exact hr.sound.once.unanswered m has (hd _ (hr.sound.once.known m has))

/-- A client may send a message for its open base while the daemon holds nothing. -/
theorem Reach.admissible {ok : World → Input → Prop} {w : World} (hr : Reach ok w) {m : MsgId}
    {x : TnIpcMsg} {env : List Answer} {b : BaseId} (hm : m ≠ 0)
    (hd : ∀ c < w.calls, c ∈ answered w) (hb : x.socketBase = some b)
    (ho : ∃ k, w.openBases k = some b) : Admissible w (.ipc m x env) := by
  refine ⟨hm, fun pl => hr.idle hd pl m, fun b' hb' => Or.inl ?_⟩
  cases hb.symm.trans hb'
  exact ho

/-- It sends the message. -/
theorem Reach.request {ok : World → Input → Prop} {w : World} (hr : Reach ok w) (m : MsgId)
    (x : TnIpcMsg) (env : List Answer) (b : BaseId) (hm : m ≠ 0)
    (hd : ∀ c < w.calls, c ∈ answered w) (hb : x.socketBase = some b)
    (ho : ∃ k, w.openBases k = some b) (hok : ok w (.ipc m x env)) :
    Reach ok (Tolunnet.step w (.ipc m x env)) := .step hr (hr.admissible hm hd hb ho) hok

/-! ## A client -/

/-- A client has opened base 1. -/
def oneClient : World :=
  [.client (.newBase 1 {}), .ipc 1 { cmd := .open, socketBase := some 1 } []].foldl step
    tnSlotTableInit

/-- The two steps that lead there. -/
theorem oneClient_run {ok : World → Input → Prop}
    (hb : ok tnSlotTableInit (.client (.newBase 1 {})))
    (ho : ok (step tnSlotTableInit (.client (.newBase 1 {})))
      (.ipc 1 { cmd := .open, socketBase := some 1 } [])) : Reach ok oneClient := by
  have built : Reach ok (step tnSlotTableInit (.client (.newBase 1 {}))) := by
    refine .step .init ⟨?_, fun _ => rfl⟩ hb
    rintro ⟨k, hk⟩
    cases hk
  have admissible : Admissible (step tnSlotTableInit (.client (.newBase 1 {})))
      (.ipc 1 { cmd := .open, socketBase := some 1 } []) := by
    refine ⟨by decide, fun pl => built.idle (by decide) pl 1, fun b hb => Or.inr ⟨rfl, fun fd => ?_⟩⟩
    cases hb
    rfl
  exact .step built admissible ho

theorem oneClient_reach {ok : World → Input → Prop} (hok : ∀ w c, ok w (.client c))
    (ho : ∀ w m x env, x.cmd = .open → ok w (.ipc m x env)) : Reach ok oneClient :=
  oneClient_run (hok _ _) (ho _ _ _ _ rfl)

/-- The client asks for a datagram socket. -/
def dgramMsg : TnIpcMsg :=
  { cmd := .socket, socketBase := some 1, args := fun n => if n < 2 then 2 else 0 }

/-- A client with a datagram socket. -/
def dgramClient : World := step oneClient (.ipc 1 dgramMsg [{ id := 1 }])

theorem dgramClient_reach : Reachable dgramClient := by
  have opened : Reachable oneClient :=
    oneClient_reach (fun _ _ => trivial) fun _ _ _ _ _ => trivial
  exact opened.request 1 dgramMsg [{ id := 1 }] 1 (by decide) (by decide) rfl ⟨0, by decide⟩ trivial

/-- The client asks for a stream socket and connects descriptor 0. -/
def streamMsg : TnIpcMsg :=
  { cmd := .socket, socketBase := some 1,
    args := fun n => if n = 0 then 2 else if n = 1 then 1 else 0 }

def connectMsg : TnIpcMsg :=
  { cmd := .connect, socketBase := some 1, args := fun n => if n = 1 then 16 else 0,
    ptrs := fun _ => .mem fun _ => 2 }

/-- A client with a connection. -/
def streamClient : World :=
  [.ipc 1 streamMsg [{ id := 1 }], .ipc 1 connectMsg [], .lwip [.connected 1] []].foldl step
    oneClient

theorem streamClient_reach : Reachable streamClient := by
  have opened : Reachable oneClient :=
    oneClient_reach (fun _ _ => trivial) fun _ _ _ _ _ => trivial
  have connecting := (opened.request 1 streamMsg [{ id := 1 }] 1 (by decide) (by decide) rfl ⟨0, rfl⟩
    trivial).request 1 connectMsg [] 1 (by decide) (by decide) rfl ⟨0, by decide⟩ trivial
  have connected : Reachable (step _ (.lwip [.connected 1] [])) := .step connecting trivial trivial
  exact connected

/-- Bytes arrive on the connection. -/
def fed (bytes : List UInt8) : World := step streamClient (.lwip [.recv 1 bytes] [])

theorem fed_reach (bytes : List UInt8) : Reachable (fed bytes) :=
  .step streamClient_reach trivial trivial

end Tolunnet
