import Tolunnet.Abstract.Act
import Tolunnet.Abstract.Connections
import Tolunnet.Lib.Ledger

/-!
# `Tolunnet.Abstract.Books`: where the requests are

The books of the abstract daemon, in the terms of `Tolunnet.Lib.Ledger`: the places are the four
fields of every slot, the DNS records and the stop message, and a call is answered when its
reply is in the log. Each family of acts is a step of the books.
-/

set_option autoImplicit false

namespace Tolunnet

open Ledger (Books)

/-! ## The books of the abstract daemon -/

/-- The places, the hand and the answered calls. -/
def Abs.books (a : Abs) : Books Place MsgId :=
  { held := a.held, hand := a.tok.hand, callOf := a.callOf, calls := a.calls,
    answered := a.log.filterMap Event.replied }

/-- The policy allows a request to be lost. -/
def Lossy (P : Label → Prop) : Prop := (∃ i, P (.overwrite i)) ∨ ∃ m, P (.drop m)

namespace Abs

variable {P : Label → Prop} {a a' : Abs}

/-! ## The books after an act -/

/-- The books are the same when fields, hand, numbers and replies are. -/
theorem books_congr (hp : ∀ i k, (a'.slot i).pending k = (a.slot i).pending k)
    (hdns : a'.dns = a.dns) (hstop : a'.stop = a.stop) (hhand : a'.tok.hand = a.tok.hand)
    (hcallOf : a'.callOf = a.callOf) (hcalls : a'.calls = a.calls)
    (hlog : a'.log.filterMap Event.replied = a.log.filterMap Event.replied) :
    a'.books = a.books := by
  have held : a'.held = a.held := by
    funext pl
    cases pl with
    | slot i k => exact hp i k
    | dns k => simp only [Abs.held, hdns]
    | stop => exact hstop
  simp only [books, held, hhand, hcallOf, hcalls, hlog]

/-- One slot changes, its parked requests do not. -/
theorem pending_update {i : SlotIdx} {s : SlotView} (hslot : a'.slot = Function.update a.slot i s)
    (hs : s.pending = (a.slot i).pending) (j : SlotIdx) (k : Pend) :
    (a'.slot j).pending k = (a.slot j).pending k := by
  by_cases hj : j = i
  · subst hj
    rw [hslot, Function.update_self, hs]
  · rw [hslot, Function.update_of_ne hj]

/-- The acts on references do not touch the books. -/
theorem books_ref (h : a.Disc) (ha : RefAct P a a') : a'.books = a.books := by
  cases ha with
  | alloc i type hf =>
    refine books_congr (pending_update (i := i) rfl ?_) rfl rfl rfl rfl rfl rfl
    funext k
    exact (((h.slots i).free hf).1 k).symm
  | install | takeFd | condemn | dangle | register | unregister | closed => rfl
  | unref i | lastRef i | dup _ _ _ i | parkCopy i | parkMove _ _ i | obtain _ _ i | clear i =>
    exact books_congr (pending_update (i := i) rfl rfl) rfl rfl rfl rfl rfl rfl

/-- The acts on receive queues do not touch the books. -/
theorem books_rx (ha : RxAct P a a') : a'.books = a.books := by
  cases ha with
  | push i | take i | pop i | drain i | window i | shut i | lost i | clearErr i | nonblock i =>
    exact books_congr (pending_update (i := i) rfl rfl) rfl rfl rfl rfl rfl rfl

/-- The acts on connections do not touch the books. -/
theorem books_tcp (ha : TcpAct P a a') : a'.books = a.books := by
  cases ha with
  | new i | listen i | connect i | connected i | fin i | release i | entData i | entFin i
  | entGone i | pushEntry i | adopt i | popEntry i | takeEntry i | dropEntry i | newUdp i
  | freeUdp i | newRaw i | freeRaw i =>
    exact books_congr (pending_update (i := i) rfl rfl) rfl rfl rfl rfl rfl rfl
  | regs | state | space | gone | joined | newConn | abortConn | freeEntry => rfl

/-- The acts on selectors do not touch the books. -/
theorem books_sel (ha : SelAct a a') : a'.books = a.books := by
  cases ha with
  | table | signal | settle | weaken => rfl

/-- A slot with one field changed, as the places see it. -/
theorem held_setPend (i : SlotIdx) (k : Pend) (v : Option MsgId) (s : SlotView)
    (hs : s.pending = Function.update (a.slot i).pending k v) :
    (a.slotSet i s).held = Function.update a.held (.slot i k) v := by
  funext pl
  cases pl with
  | slot j k' =>
    by_cases hj : j = i
    · subst hj
      by_cases hk : k' = k
      · subst hk
        simp [Abs.held, hs]
      · simp [Abs.held, hs, hk]
    · simp [Abs.held, hj]
  | dns k' => simp [Abs.held]
  | stop => simp [Abs.held]

/-- A DNS record changed, as the places see it. -/
theorem held_setDns (k : Fin 8) (v : Option (Option MsgId × Option BaseId)) :
    Abs.held { a with dns := Function.update a.dns k v }
      = Function.update a.held (.dns k) (v.bind Prod.fst) := by
  funext pl
  cases pl with
  | slot i k' => simp [Abs.held]
  | dns k' =>
    by_cases hk : k' = k
    · subst hk
      simp [Abs.held]
    · simp [Abs.held, hk]
  | stop => simp [Abs.held]

/-- An emptied DNS record, as the places see it. -/
theorem held_noDns (k : Fin 8) :
    Abs.held { a with dns := Function.update a.dns k none }
      = Function.update a.held (.dns k) none :=
  held_setDns k none

/-- The stop message changed, as the places see it. -/
theorem held_setStop (v : Option MsgId) :
    Abs.held { a with stop := v } = Function.update a.held .stop v := by
  funext pl
  cases pl <;> simp [Abs.held]

/-- The acts on messages, as the books see them. -/
theorem books_msg (ha : MsgAct P a a') : Books.Step (Lossy P) a.books a'.books := by
  cases ha with
  | receive m x hh hp hs hl => exact .receive a.books m hh hp
  | edit m x hm hs hb => exact .same a.books
  | park i k m hm hs hu hk hw he hl =>
    refine (Books.Step.put a.books (.slot i k) m hm
      (he.imp_right fun ho => Or.inl ⟨i, ho.2⟩)).congr ?_
    simp only [books, Books.put, Books.place,
      ← held_setPend i k (some m) ((a.slot i).setPend k (some m)) rfl]
    rfl
  | parkDns k m hm hs he =>
    refine (Books.Step.put a.books (.dns k) m hm (Or.inl ?_)).congr ?_
    · show (a.dns k).bind Prod.fst = none
      rw [he]
      rfl
    · simp only [books, Books.put, Books.place]
      rw [show some m = (some (some m, (a.msg m).base)).bind Prod.fst from rfl, ← held_setDns k]
      rfl
  | parkStop m hm hs he =>
    refine (Books.Step.put a.books .stop m hm (Or.inl he)).congr ?_
    simp only [books, Books.put, Books.place, ← held_setStop]
    rfl
  | answer i k m r e hk hp =>
    refine (Books.Step.answer a.books (.slot i k) m hp).congr ?_
    simp only [books, Books.answer, Books.place,
      ← held_setPend i k none ((a.slot i).setPend k none) rfl]
    rfl
  | answerDns k m b r e hp =>
    refine (Books.Step.answer a.books (.dns k) m ?_).congr ?_
    · show (a.dns k).bind Prod.fst = some m
      rw [hp]
      rfl
    · simp only [books, Books.answer, Books.place, ← held_noDns k]
      rfl
  | answerStop m r e hp =>
    refine (Books.Step.answer a.books .stop m hp).congr ?_
    simp only [books, Books.answer, Books.place, ← held_setStop]
    rfl
  | take i m hp =>
    refine (Books.Step.take a.books (.slot i .accept) m hp).congr ?_
    simp only [books, Books.take, Books.place,
      ← held_setPend i .accept none ((a.slot i).setPend .accept none) rfl]
    rfl
  | reply m r e hm hs => exact .reply a.books m hm
  | drop i k m hk hp hl =>
    refine (Books.Step.drop a.books (.slot i k) (Or.inr ⟨m, hl⟩)).congr ?_
    simp only [books, Books.place,
      ← held_setPend i k none ((a.slot i).setPend k none) rfl]
    rfl
  | dropDns k m b hp hl =>
    refine (Books.Step.drop a.books (.dns k) (Or.inr ⟨m, hl⟩)).congr ?_
    simp only [books, Books.place, ← held_noDns k]
  | forgetDns k b hp =>
    refine (Books.Step.same a.books).congr ?_
    have empty : a.held (.dns k) = none := by
      show (a.dns k).bind Prod.fst = none
      rw [hp]
      rfl
    have same : Function.update a.held (.dns k) none = a.held := by
      rw [← empty, Function.update_eq_self]
    simp only [books, held_noDns k, same]
  | served i k hw => exact .same a.books

/-- Writes are no replies. -/
theorem writeLog_replied (p : PcbId) (c : CallNo) (bs : List (List UInt8)) (e : ErrT) :
    (writeLog p c bs e).filterMap Event.replied = [] := by
  rw [List.filterMap_eq_nil_iff]
  intro x hx
  unfold writeLog at hx
  split at hx
  all_goals
    simp only [List.nil_append, List.cons_append, List.mem_cons, List.mem_reverse,
      List.mem_map] at hx
  · obtain ⟨b, -, rfl⟩ := hx
    rfl
  · rcases hx with rfl | ⟨b, -, rfl⟩ <;> rfl

/-- The acts of the stream send path, as the books see them. -/
theorem books_send (ha : SendAct P a a') : Books.Step (Lossy P) a.books a'.books := by
  cases ha with
  | start | passed | cut => exact .same a.books
  | write s p c c' bs e hs hw ht hc hb =>
    refine (Books.Step.same a.books).congr (books_congr (fun _ _ => rfl) rfl rfl rfl rfl rfl ?_)
    show (writeLog p (a.callOf s.m) bs e ++ a.log).filterMap Event.replied = _
    rw [List.filterMap_append, writeLog_replied, List.nil_append]
  | resume i m p c c' bs e hu hm ht hc hb =>
    refine (Books.Step.same a.books).congr
      (books_congr (pending_update (i := i) rfl rfl) rfl rfl rfl rfl rfl ?_)
    show (writeLog p (a.callOf m) bs e ++ a.log).filterMap Event.replied = _
    rw [List.filterMap_append, writeLog_replied, List.nil_append]
  | finish i m e hm he =>
    refine (Books.Step.answer a.books (.slot i .send) m hm).congr ?_
    simp only [books, Books.answer, Books.place, ← held_setPend i .send none
      { (a.slot i).setPend .send none with sendDone := 0, sendIov := none } rfl]
    rfl
  | dropSend i m e hm hl =>
    refine (Books.Step.drop a.books (.slot i .send) (Or.inr ⟨m, hl⟩)).congr ?_
    simp only [books, Books.place, ← held_setPend i .send none
      { (a.slot i).setPend .send none with sendDone := 0, sendIov := none } rfl]
    rfl
  | park s p c hs hm hw hp ht hc hl =>
    refine (Books.Step.put a.books (.slot s.i .send) s.m hm (Or.inl hp)).congr ?_
    simp only [books, Books.put, Books.place, ← held_setPend s.i .send (some s.m)
      { (a.slot s.i).setPend .send (some s.m) with sendDone := s.done, sendIov := s.iov } rfl]
    rfl
  | reply s r e hs hm hr hl => exact .reply a.books s.m hm

end Abs

end Tolunnet
