import Mathlib.Data.List.Infix
import Mathlib.Logic.Function.Iterate

/-!
# `Tolunnet.Lib.Feed`: decoders that are fed a stream in pieces

`run` is a machine that takes one symbol at a time and may emit some. A decoder that works on whole
buffers is called with a buffer, says how much of it it has taken, and is called again with the rest.
`Feeder` says that each such call does what the machine does on the symbols taken, and takes at least
one, as long as the state is `Ok`.

`feeding_spec` is the consequence: after any number of calls the decoder is where the machine is on
the symbols taken so far, whatever the way the stream is cut into buffers, and the calls come to an
end. A decoder that may stop taking symbols is only a `Follower`, and of these `following_spec` says
the first half. `Along P` says that all states of a run but possibly later ones satisfy `P`.
-/

set_option autoImplicit false

namespace Tolunnet.Feed

variable {σ α β : Type}

/-! ## Machines -/

/-- The state after some symbols, and what was emitted. -/
def run (step : σ → α → σ × List β) (s : σ) : List α → σ × List β
  | [] => (s, [])
  | a :: l => ((run step (step s a).1 l).1, (step s a).2 ++ (run step (step s a).1 l).2)

variable {step : σ → α → σ × List β} {s : σ} {a : α} {l l' : List α} {P : σ → Prop}

/-- Nothing fed. -/
@[simp] theorem run_nil : run step s [] = (s, []) := rfl

/-- The first element, then the rest. -/
theorem run_cons : run step s (a :: l)
    = ((run step (step s a).1 l).1, (step s a).2 ++ (run step (step s a).1 l).2) := rfl

/-- Two lists fed one after the other. -/
theorem run_append (step : σ → α → σ × List β) (s : σ) (l l' : List α) : run step s (l ++ l')
    = ((run step (run step s l).1 l').1, (run step s l).2 ++ (run step (run step s l).1 l').2) := by
  induction l generalizing s with
  | nil => simp
  | cons a l ih =>
    rw [List.cons_append, run_cons, ih, run_cons]
    simp

/-- Every state that a run passes satisfies `P`. -/
def Along (P : σ → Prop) (step : σ → α → σ × List β) (s : σ) (l : List α) : Prop :=
  ∀ p, p <+: l → P (run step s p).1

/-- Before anything is fed. -/
theorem along_nil : Along P step s [] ↔ P s := by
  constructor
  · exact fun h => h [] List.prefix_rfl
  · intro h p hp
    rw [List.prefix_nil.mp hp]
    exact h

/-- Along the first element and the rest. -/
theorem along_cons : Along P step s (a :: l) ↔ P s ∧ Along P step (step s a).1 l := by
  constructor
  · intro h
    refine ⟨h [] (List.nil_prefix), fun p hp => ?_⟩
    exact h (a :: p) (List.cons_prefix_cons.mpr ⟨rfl, hp⟩)
  · rintro ⟨h, ht⟩ p hp
    cases p with
    | nil => exact h
    | cons b p =>
      obtain ⟨rfl, tail⟩ := List.cons_prefix_cons.mp hp
      exact ht p tail

/-- Along two lists. -/
theorem along_append :
    Along P step s (l ++ l') ↔ Along P step s l ∧ Along P step (run step s l).1 l' := by
  induction l generalizing s with
  | nil =>
    rw [List.nil_append, along_nil]
    exact ⟨fun h => ⟨h [] List.nil_prefix, h⟩, fun h => h.2⟩
  | cons a l ih => rw [List.cons_append, along_cons, along_cons, ih, and_assoc, run_cons]

/-! ## Feeders -/

/-- Each call does what the machine does on the symbols it takes. -/
structure Follower (step : σ → α → σ × List β) (feed : σ → List α → σ × Nat × List β)
    (Ok : σ → Prop) : Prop where
  le : ∀ s l, Ok s → (feed s l).2.1 ≤ l.length
  exact : ∀ s l, Ok s → ((feed s l).1, (feed s l).2.2) = run step s (l.take (feed s l).2.1)

/-- Each call does what the machine does on the symbols it takes, and takes some of every buffer. -/
structure Feeder (step : σ → α → σ × List β) (feed : σ → List α → σ × Nat × List β)
    (Ok : σ → Prop) : Prop where
  le : ∀ s l, Ok s → (feed s l).2.1 ≤ l.length
  pos : ∀ s l, Ok s → l ≠ [] → 0 < (feed s l).2.1
  exact : ∀ s l, Ok s → ((feed s l).1, (feed s l).2.2) = run step s (l.take (feed s l).2.1)

/-- A decoder between two calls: its state, the symbols taken, the buffers left with the first cut
short by what was taken of it, and what was emitted. -/
structure Feeding (σ α β : Type) where
  st : σ
  eaten : List α
  left : List (List α)
  out : List β

/-- The next call, if there is a buffer left. -/
def Feeding.next (feed : σ → List α → σ × Nat × List β) (f : Feeding σ α β) : Feeding σ α β :=
  match f.left with
  | [] => f
  | b :: bs =>
    let r := feed f.st b
    { st := r.1
      eaten := f.eaten ++ b.take r.2.1
      left := if b.length ≤ r.2.1 then bs else b.drop r.2.1 :: bs
      out := f.out ++ r.2.2 }

/-- The decoder after `n` calls. -/
def after (feed : σ → List α → σ × Nat × List β) (s : σ) (bufs : List (List α)) (n : Nat) :
    Feeding σ α β :=
  (Feeding.next feed)^[n] { st := s, eaten := [], left := bufs, out := [] }

variable {feed : σ → List α → σ × Nat × List β} {Ok : σ → Prop} {bufs : List (List α)} {n : Nat}

/-- One more call. -/
theorem after_succ : after feed s bufs (n + 1) = (after feed s bufs n).next feed :=
  Function.iterate_succ_apply' ..

/-- A feeder follows its step. -/
theorem Feeder.follower (hF : Feeder step feed Ok) : Follower step feed Ok := ⟨hF.le, hF.exact⟩

/-- Where a decoder that follows the machine is between any two calls. -/
structure Followed (step : σ → α → σ × List β) (s : σ) (bufs : List (List α))
    (f : Feeding σ α β) : Prop where
  eaten : f.eaten ++ f.left.flatten = bufs.flatten
  exact : (f.st, f.out) = run step s f.eaten

/-- A state that is followed is allowed. -/
theorem Followed.ok (hok : Along Ok step s bufs.flatten) {f : Feeding σ α β}
    (h : Followed step s bufs f) : Ok f.st := by
  have taken : f.eaten <+: bufs.flatten := ⟨_, h.eaten⟩
  have state : f.st = (run step s f.eaten).1 := congrArg Prod.fst h.exact
  rw [state]
  exact hok _ taken

/-- The next call follows. -/
theorem Followed.next (hF : Follower step feed Ok) (hok : Along Ok step s bufs.flatten)
    {f : Feeding σ α β} (h : Followed step s bufs f) : Followed step s bufs (f.next feed) := by
  unfold Feeding.next
  split
  · exact h
  · rename_i b bs hl
    have ok := h.ok hok
    have exact := hF.exact f.st b ok
    have eaten := h.eaten
    have so_far := h.exact
    rw [hl, List.flatten_cons] at eaten
    dsimp only
    generalize feed f.st b = r at exact
    constructor
    · show (f.eaten ++ b.take r.2.1) ++ (if b.length ≤ r.2.1 then bs else b.drop r.2.1 :: bs).flatten = _
      rw [← eaten]
      split
      · rename_i all
        rw [List.take_of_length_le all, List.append_assoc]
      · rw [List.flatten_cons, List.append_assoc, ← List.append_assoc (b.take _), List.take_append_drop]
    · show (r.1, f.out ++ r.2.2) = run step s (f.eaten ++ b.take r.2.1)
      rw [run_append, ← so_far, ← exact]

/-- A decoder that follows the machine does so however the stream is cut. -/
theorem following_spec (hF : Follower step feed Ok) (hok : Along Ok step s bufs.flatten) (n : Nat) :
    Followed step s bufs (after feed s bufs n) := by
  induction n with
  | zero => exact ⟨rfl, rfl⟩
  | succ n ih =>
    rw [after_succ]
    exact ih.next hF hok

/-- What holds between any two calls. -/
structure Fed (step : σ → α → σ × List β) (s : σ) (bufs : List (List α)) (n : Nat)
    (f : Feeding σ α β) : Prop where
  eaten : f.eaten ++ f.left.flatten = bufs.flatten
  exact : (f.st, f.out) = run step s f.eaten
  nonempty : ∀ b ∈ f.left, b ≠ []
  progress : f.left ≠ [] → n ≤ f.eaten.length

/-- What is fed is followed. -/
theorem Fed.followed {f : Feeding σ α β} (h : Fed step s bufs n f) : Followed step s bufs f :=
  ⟨h.eaten, h.exact⟩

/-- The next call feeds. -/
theorem Fed.next (hF : Feeder step feed Ok) (hok : Along Ok step s bufs.flatten) {f : Feeding σ α β}
    (h : Fed step s bufs n f) : Fed step s bufs (n + 1) (f.next feed) := by
  obtain ⟨eaten, exact⟩ := h.followed.next hF.follower hok
  refine ⟨eaten, exact, ?_, ?_⟩
  all_goals
    unfold Feeding.next
    split
  · exact h.nonempty
  · rename_i b bs hl
    intro b' hb'
    dsimp only at hb'
    split at hb'
    · exact h.nonempty b' (by rw [hl]; exact List.mem_cons_of_mem b hb')
    · rename_i more
      obtain rfl | hb' := List.mem_cons.mp hb'
      · intro hnil
        exact more (List.drop_eq_nil_iff.mp hnil)
      · exact h.nonempty b' (by rw [hl]; exact List.mem_cons_of_mem b hb')
  · rename_i hl
    exact fun hne => absurd hl hne
  · rename_i b bs hl
    intro _
    have ok := h.followed.ok hok
    have hb : b ≠ [] := h.nonempty b (by rw [hl]; exact List.mem_cons_self)
    have le := hF.le f.st b ok
    have pos := hF.pos f.st b ok hb
    have := h.progress (by rw [hl]; exact List.cons_ne_nil b bs)
    show n + 1 ≤ (f.eaten ++ b.take (feed f.st b).2.1).length
    rw [List.length_append, List.length_take]
    omega

/-- The decoder follows the machine, however the stream is cut. -/
theorem feeding_spec (hF : Feeder step feed Ok) (hok : Along Ok step s bufs.flatten)
    (hne : ∀ b ∈ bufs, b ≠ []) (n : Nat) : Fed step s bufs n (after feed s bufs n) := by
  induction n with
  | zero => exact ⟨rfl, rfl, hne, fun _ => Nat.zero_le _⟩
  | succ n ih =>
    rw [after_succ]
    exact ih.next hF hok

/-- The calls come to an end. -/
theorem left_eq_nil (hF : Feeder step feed Ok) (hok : Along Ok step s bufs.flatten)
    (hne : ∀ b ∈ bufs, b ≠ []) (hn : bufs.flatten.length ≤ n) :
    (after feed s bufs n).left = [] := by
  have fed := feeding_spec hF hok hne n
  by_contra hl
  obtain ⟨b, bs, hb⟩ := List.exists_cons_of_ne_nil hl
  have progress := fed.progress hl
  have eaten := congrArg List.length fed.eaten
  have first := fed.nonempty b (by rw [hb]; exact List.mem_cons_self)
  rw [hb, List.flatten_cons, List.length_append, List.length_append] at eaten
  have : 0 < b.length := List.length_pos_iff.mpr first
  omega

end Tolunnet.Feed
