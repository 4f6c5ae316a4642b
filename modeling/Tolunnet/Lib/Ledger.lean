import Mathlib.Data.List.Nodup
import Mathlib.Logic.Function.Basic

/-!
# `Tolunnet.Lib.Ledger`: books on who holds a request

A server receives requests, puts them into places, takes them out again and answers them. The
`Books` say where each request is: in one of the places, or in hand. Every request has a
number, and the answered numbers are listed.

`Once` says that no request is in two places, that none is answered twice and that what is
held has not been answered. Every operation keeps it, also the ones that lose a request by
overwriting or dropping it. `Complete` says that nothing is lost: each number is answered or
is still held. It is kept by every operation that does not throw a request away.
-/

set_option autoImplicit false

namespace Ledger

variable {Place Msg : Type}

/-- Where the requests are: in places, in hand, or answered. -/
structure Books (Place Msg : Type) where
  held : Place → Option Msg
  hand : List Msg
  callOf : Msg → Nat
  calls : Nat
  answered : List Nat

namespace Books

/-- The request is in hand or in a place. -/
def Has (b : Books Place Msg) (m : Msg) : Prop := m ∈ b.hand ∨ ∃ pl, b.held pl = some m

/-- No request is in two places, none is answered twice, none is held after its answer. -/
structure Once (b : Books Place Msg) : Prop where
  apart : ∀ pl pl' m, b.held pl = some m → b.held pl' = some m → pl = pl'
  nodup : b.hand.Nodup
  out : ∀ m ∈ b.hand, ∀ pl, b.held pl ≠ some m
  known : ∀ m, b.Has m → b.callOf m < b.calls
  inj : ∀ m m', b.Has m → b.Has m' → b.callOf m = b.callOf m' → m = m'
  unanswered : ∀ m, b.Has m → b.callOf m ∉ b.answered
  past : ∀ c ∈ b.answered, c < b.calls
  once : b.answered.Nodup

/-- Every request that has come in is held or answered. -/
def Complete (b : Books Place Msg) : Prop :=
  ∀ c < b.calls, c ∈ b.answered ∨ ∃ m, b.Has m ∧ b.callOf m = c

/-! ## Operations -/

variable [DecidableEq Place] [DecidableEq Msg]

/-- A place gets another content. -/
def place (b : Books Place Msg) (pl : Place) (v : Option Msg) : Books Place Msg :=
  { b with held := Function.update b.held pl v }

/-- A request comes in under the next number. -/
def receive (b : Books Place Msg) (m : Msg) : Books Place Msg :=
  { b with hand := m :: b.hand, callOf := Function.update b.callOf m b.calls,
           calls := b.calls + 1 }

/-- The request in hand goes into a place. -/
def put (b : Books Place Msg) (pl : Place) (m : Msg) : Books Place Msg :=
  { b.place pl (some m) with hand := b.hand.erase m }

/-- A request is taken out of its place. -/
def take (b : Books Place Msg) (pl : Place) (m : Msg) : Books Place Msg :=
  { b.place pl none with hand := m :: b.hand }

/-- The request in hand is answered. -/
def reply (b : Books Place Msg) (m : Msg) : Books Place Msg :=
  { b with hand := b.hand.erase m, answered := b.callOf m :: b.answered }

/-- A request is answered out of its place. -/
def answer (b : Books Place Msg) (pl : Place) (m : Msg) : Books Place Msg :=
  { b.place pl none with answered := b.callOf m :: b.answered }

theorem answer_eq_take_reply (b : Books Place Msg) (pl : Place) (m : Msg) :
    b.answer pl m = (b.take pl m).reply m := by
  simp [answer, take, reply, place]

omit [DecidableEq Msg] in
theorem has_place {b : Books Place Msg} {pl : Place} {v : Option Msg} {m : Msg}
    (h : (b.place pl v).Has m) : b.Has m ∨ v = some m := by
  rcases h with h | ⟨pl', h⟩
  · exact Or.inl (Or.inl h)
  · by_cases hp : pl' = pl
    · subst hp
      exact Or.inr (by simpa [place] using h)
    · exact Or.inl (Or.inr ⟨pl', by simpa [place, hp] using h⟩)

omit [DecidableEq Place] in
theorem has_of_reply {b : Books Place Msg} {m m' : Msg} (h : (b.reply m).Has m') : b.Has m' := by
  rcases h with h | h
  · exact Or.inl (List.mem_of_mem_erase h)
  · exact Or.inr h

theorem has_of_put {b : Books Place Msg} {pl : Place} {m m' : Msg} (hm : m ∈ b.hand)
    (h : (b.put pl m).Has m') : b.Has m' := by
  rcases h with h | ⟨pl', h⟩
  · exact Or.inl (List.mem_of_mem_erase h)
  · rcases has_place (v := some m) (Or.inr ⟨pl', h⟩) with h | h
    · exact h
    · cases h
      exact Or.inl hm

/-! ## `Once` is kept -/

namespace Once

variable {b : Books Place Msg} {pl : Place} {m : Msg}

omit [DecidableEq Msg] in
/-- Emptying a place loses at most what was in it. -/
theorem drop (hb : b.Once) (pl : Place) : (b.place pl none).Once := by
  have has : ∀ {x}, (b.place pl none).Has x → b.Has x := fun h =>
    (has_place h).resolve_right (by simp)
  have held : ∀ {pl' x}, (b.place pl none).held pl' = some x → b.held pl' = some x := by
    intro pl' x h
    by_cases hp : pl' = pl
    · subst hp
      simp [place] at h
    · simpa [place, hp] using h
  exact
    { apart := fun p q x h h' => hb.apart p q x (held h) (held h')
      nodup := hb.nodup
      out := fun x hx p h => hb.out x hx p (held h)
      known := fun x h => hb.known x (has h)
      inj := fun x y h h' => hb.inj x y (has h) (has h')
      unanswered := fun x h => hb.unanswered x (has h)
      past := hb.past
      once := hb.once }

omit [DecidableEq Place] in
/-- A request that is nowhere comes in. -/
theorem receive (hb : b.Once) (hh : m ∉ b.hand) (hp : ∀ pl, b.held pl ≠ some m) :
    (b.receive m).Once := by
  have hnot : ¬ b.Has m := by
    rintro (h | ⟨pl, h⟩)
    · exact hh h
    · exact hp pl h
  have has : ∀ {x}, (b.receive m).Has x → x = m ∨ (x ≠ m ∧ b.Has x) := by
    rintro x (h | ⟨pl, h⟩)
    · rcases List.mem_cons.mp h with h | h
      · exact Or.inl h
      · exact Or.inr ⟨fun he => hh (he ▸ h), Or.inl h⟩
    · exact Or.inr ⟨fun he => hp pl (he ▸ h), Or.inr ⟨pl, h⟩⟩
  have new : (b.receive m).callOf m = b.calls := by simp [Books.receive]
  have old : ∀ {x}, x ≠ m → (b.receive m).callOf x = b.callOf x := by
    intro x hx
    simp [Books.receive, hx]
  refine
    { apart := hb.apart
      nodup := List.nodup_cons.mpr ⟨hh, hb.nodup⟩
      out := ?_
      known := ?_
      inj := ?_
      unanswered := ?_
      past := fun c hc => Nat.lt_succ_of_lt (hb.past c hc)
      once := hb.once }
  · intro x hx pl
    rcases List.mem_cons.mp hx with h | h
    · exact h ▸ hp pl
    · exact hb.out x h pl
  · intro x hx
    show _ < b.calls + 1
    rcases has hx with h | ⟨hne, h⟩
    · rw [h, new]
      exact Nat.lt_succ_self _
    · rw [old hne]
      exact Nat.lt_succ_of_lt (hb.known x h)
  · intro x y hx hy he
    rcases has hx with h | ⟨hne, h⟩ <;> rcases has hy with h' | ⟨hne', h'⟩
    · rw [h, h']
    · rw [h, new, old hne'] at he
      exact absurd (hb.known y h') (by omega)
    · rw [h', new, old hne] at he
      exact absurd (hb.known x h) (by omega)
    · rw [old hne, old hne'] at he
      exact hb.inj x y h h' he
  · intro x hx hc
    rcases has hx with h | ⟨hne, h⟩
    · rw [h, new] at hc
      exact absurd (hb.past _ hc) (Nat.lt_irrefl _)
    · rw [old hne] at hc
      exact hb.unanswered x h hc

/-- The request in hand goes into a place, whatever the place held. -/
theorem put (hb : b.Once) (hm : m ∈ b.hand) (pl : Place) : (b.put pl m).Once := by
  have hd := hb.drop pl
  have held : ∀ {pl' x}, (b.put pl m).held pl' = some x →
      (pl' = pl ∧ x = m) ∨ (pl' ≠ pl ∧ b.held pl' = some x) := by
    intro pl' x h
    by_cases hp : pl' = pl
    · subst hp
      simp only [Books.put, place, Function.update_self, Option.some.injEq] at h
      exact Or.inl ⟨rfl, h.symm⟩
    · exact Or.inr ⟨hp, by simpa [Books.put, place, hp] using h⟩
  refine
    { apart := ?_
      nodup := hb.nodup.erase m
      out := ?_
      known := fun x h => hb.known x (has_of_put hm h)
      inj := fun x y h h' => hb.inj x y (has_of_put hm h) (has_of_put hm h')
      unanswered := fun x h => hb.unanswered x (has_of_put hm h)
      past := hb.past
      once := hb.once }
  · intro p q x h h'
    rcases held h with ⟨h1, h2⟩ | ⟨-, h1⟩ <;> rcases held h' with ⟨h3, h4⟩ | ⟨-, h3⟩
    · rw [h1, h3]
    · exact absurd (h2 ▸ h3) (hb.out m hm q)
    · exact absurd (h4 ▸ h1) (hb.out m hm p)
    · exact hb.apart p q x h1 h3
  · intro x hx p h
    have hx' := (hb.nodup.mem_erase_iff).mp hx
    rcases held h with ⟨-, h2⟩ | ⟨-, h1⟩
    · exact hx'.1 h2
    · exact hb.out x hx'.2 p h1

omit [DecidableEq Msg] in
/-- A request comes out of its place. -/
theorem take (hb : b.Once) (hp : b.held pl = some m) : (b.take pl m).Once := by
  have hnot : m ∉ b.hand := fun h => hb.out m h pl hp
  have has : ∀ {x}, (b.take pl m).Has x → b.Has x := by
    rintro x (h | ⟨p, h⟩)
    · rcases List.mem_cons.mp h with h | h
      · exact h ▸ Or.inr ⟨pl, hp⟩
      · exact Or.inl h
    · exact (has_place (v := none) (Or.inr ⟨p, h⟩)).resolve_right (by simp)
  have hd := hb.drop pl
  refine
    { apart := hd.apart
      nodup := List.nodup_cons.mpr ⟨hnot, hb.nodup⟩
      out := ?_
      known := fun x h => hb.known x (has h)
      inj := fun x y h h' => hb.inj x y (has h) (has h')
      unanswered := fun x h => hb.unanswered x (has h)
      past := hb.past
      once := hb.once }
  intro x hx p h
  rcases List.mem_cons.mp hx with hxm | hx
  · -- the place that still holds it would be the emptied one
    by_cases hpp : p = pl
    · subst hpp
      simp [Books.take, place] at h
    · exact hpp (hb.apart p pl m (by simpa [Books.take, place, hpp, hxm] using h) hp)
  · exact hd.out x hx p h

omit [DecidableEq Place] in
/-- The request in hand is answered. -/
theorem reply (hb : b.Once) (hm : m ∈ b.hand) : (b.reply m).Once := by
  have hHas : b.Has m := Or.inl hm
  have gone : ∀ {x}, (b.reply m).Has x → x ≠ m := by
    rintro x (h | ⟨pl, h⟩)
    · exact ((hb.nodup.mem_erase_iff).mp h).1
    · exact fun he => hb.out m hm pl (he ▸ h)
  exact
    { apart := hb.apart
      nodup := hb.nodup.erase m
      out := fun x hx => hb.out x (List.mem_of_mem_erase hx)
      known := fun x h => hb.known x (has_of_reply h)
      inj := fun x y h h' => hb.inj x y (has_of_reply h) (has_of_reply h')
      unanswered := by
        intro x h hc
        rcases List.mem_cons.mp hc with hc | hc
        · exact gone h (hb.inj x m (has_of_reply h) hHas hc)
        · exact hb.unanswered x (has_of_reply h) hc
      past := by
        intro c hc
        rcases List.mem_cons.mp hc with hc | hc
        · exact hc ▸ hb.known m hHas
        · exact hb.past c hc
      once := List.nodup_cons.mpr ⟨hb.unanswered m hHas, hb.once⟩ }

/-- A request is answered out of its place. -/
theorem answer (hb : b.Once) (hp : b.held pl = some m) : (b.answer pl m).Once := by
  rw [answer_eq_take_reply]
  exact (hb.take hp).reply (List.mem_cons_self ..)

end Once

/-! ## `Complete` is kept -/

namespace Complete

variable {b : Books Place Msg} {pl : Place} {m : Msg}

omit [DecidableEq Place] in
theorem receive (hc : b.Complete) (hh : m ∉ b.hand) (hp : ∀ pl, b.held pl ≠ some m) :
    (b.receive m).Complete := by
  intro c hlt
  have hlt : c < b.calls + 1 := hlt
  by_cases he : c = b.calls
  · exact Or.inr ⟨m, Or.inl (List.mem_cons_self ..), by simp [Books.receive, he]⟩
  · rcases hc c (by omega) with h | ⟨x, hx, rfl⟩
    · exact Or.inl h
    · have hne : x ≠ m := by
        rintro rfl
        rcases hx with h | ⟨pl, h⟩
        · exact hh h
        · exact hp pl h
      refine Or.inr ⟨x, ?_, by simp [Books.receive, hne]⟩
      rcases hx with h | h
      · exact Or.inl (List.mem_cons_of_mem _ h)
      · exact Or.inr h

/-- An empty place takes the request. -/
theorem put (hc : b.Complete) (he : b.held pl = none) :
    (b.put pl m).Complete := by
  intro c hlt
  rcases hc c hlt with h | ⟨x, hx, rfl⟩
  · exact Or.inl h
  · refine Or.inr ⟨x, ?_, rfl⟩
    by_cases hxm : x = m
    · exact Or.inr ⟨pl, by simp [Books.put, place, hxm]⟩
    · rcases hx with h | ⟨p, h⟩
      · exact Or.inl ((List.mem_erase_of_ne hxm).mpr h)
      · have hpp : p ≠ pl := by
          rintro rfl
          rw [he] at h
          cases h
        exact Or.inr ⟨p, by simpa [Books.put, place, hpp] using h⟩

omit [DecidableEq Msg] in
theorem take (hc : b.Complete) (hp : b.held pl = some m) : (b.take pl m).Complete := by
  intro c hlt
  rcases hc c hlt with h | ⟨x, hx, rfl⟩
  · exact Or.inl h
  · refine Or.inr ⟨x, ?_, rfl⟩
    rcases hx with h | ⟨p, h⟩
    · exact Or.inl (List.mem_cons_of_mem _ h)
    · by_cases hpp : p = pl
      · subst hpp
        rw [hp] at h
        cases h
        exact Or.inl (List.mem_cons_self ..)
      · exact Or.inr ⟨p, by simpa [Books.take, place, hpp] using h⟩

omit [DecidableEq Place] in
theorem reply (hc : b.Complete) : (b.reply m).Complete := by
  intro c hlt
  rcases hc c hlt with h | ⟨x, hx, rfl⟩
  · exact Or.inl (List.mem_cons_of_mem _ h)
  · by_cases hxm : x = m
    · subst hxm
      exact Or.inl (List.mem_cons_self ..)
    · refine Or.inr ⟨x, ?_, rfl⟩
      rcases hx with h | h
      · exact Or.inl ((List.mem_erase_of_ne hxm).mpr h)
      · exact Or.inr h

theorem answer (hc : b.Complete) (hp : b.held pl = some m) : (b.answer pl m).Complete := by
  rw [answer_eq_take_reply]
  exact (hc.take hp).reply

end Complete

/-! ## Steps -/

/-- One step of the server, as the books see it. Where `lossy` does not hold, a request is put
into empty places only and none is thrown away. -/
inductive Step (lossy : Prop) : Books Place Msg → Books Place Msg → Prop where
  | same (b : Books Place Msg) : Step lossy b b
  | receive (b : Books Place Msg) (m : Msg) (hh : m ∉ b.hand) (hp : ∀ pl, b.held pl ≠ some m) :
      Step lossy b (b.receive m)
  | put (b : Books Place Msg) (pl : Place) (m : Msg) (hm : m ∈ b.hand)
      (he : b.held pl = none ∨ lossy) : Step lossy b (b.put pl m)
  | take (b : Books Place Msg) (pl : Place) (m : Msg) (hp : b.held pl = some m) :
      Step lossy b (b.take pl m)
  | reply (b : Books Place Msg) (m : Msg) (hm : m ∈ b.hand) : Step lossy b (b.reply m)
  | answer (b : Books Place Msg) (pl : Place) (m : Msg) (hp : b.held pl = some m) :
      Step lossy b (b.answer pl m)
  | drop (b : Books Place Msg) (pl : Place) (hl : lossy) : Step lossy b (b.place pl none)

/-- A step whose outcome is given in another form. -/
theorem Step.congr {lossy : Prop} {b c c' : Books Place Msg} (h : Step lossy b c) (he : c' = c) :
    Step lossy b c' := he ▸ h

/-- Every step keeps `Once`. -/
theorem Once.step {lossy : Prop} {b b' : Books Place Msg} (hb : b.Once) (h : Step lossy b b') :
    b'.Once := by
  cases h with
  | same => exact hb
  | receive m hh hp => exact hb.receive hh hp
  | put pl m hm he => exact hb.put hm pl
  | take pl m hp => exact hb.take hp
  | reply m hm => exact hb.reply hm
  | answer pl m hp => exact hb.answer hp
  | drop pl hl => exact hb.drop pl

/-- A step that throws nothing away keeps `Complete`. -/
theorem Complete.step {lossy : Prop} {b b' : Books Place Msg} (hc : b.Complete)
    (h : Step lossy b b') (hl : ¬ lossy) : b'.Complete := by
  cases h with
  | same => exact hc
  | receive m hh hp => exact hc.receive hh hp
  | put pl m hm he => exact hc.put (he.resolve_right hl)
  | take pl m hp => exact hc.take hp
  | reply m hm => exact hc.reply
  | answer pl m hp => exact hc.answer hp
  | drop pl hl' => exact absurd hl' hl

end Books

end Ledger
