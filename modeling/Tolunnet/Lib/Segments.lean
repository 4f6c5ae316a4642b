import Mathlib.Data.List.Basic

/-!
# `Tolunnet.Lib.Segments`: a text as lines that may or may not be ended

An editor that keeps a text byte for byte has to know of each line whether its separator stands behind
it: only the last line can be without. `segments` cuts a text so, and `join` puts it together again.
They are inverse to each other, on the lists of segments that a text has (`Formed`).
-/

set_option autoImplicit false

namespace Segments

variable {α : Type} [DecidableEq α] (sep : α)

/-- A line, and whether its separator stands behind it. -/
structure Segment (α : Type) where
  text : List α
  ended : Bool
  deriving DecidableEq, Repr

/-- The segments of a text. -/
def segments : List α → List (Segment α)
  | [] => []
  | c :: cs =>
    if c = sep then ⟨[], true⟩ :: segments cs
    else
      match segments cs with
      | [] => [⟨[c], false⟩]
      | s :: ss => ⟨c :: s.text, s.ended⟩ :: ss

/-- A segment as it stands in the text. -/
def Segment.joined (s : Segment α) : List α := if s.ended then s.text ++ [sep] else s.text

/-- The text of some segments. -/
def join (ss : List (Segment α)) : List α := ss.flatMap (·.joined sep)

/-- The segments of a text: no line holds a separator, and only the last one may be without, which is
not empty then. -/
def Formed : List (Segment α) → Prop
  | [] => True
  | [s] => sep ∉ s.text ∧ (s.ended = true ∨ s.text ≠ [])
  | s :: s' :: ss => sep ∉ s.text ∧ s.ended = true ∧ Formed (s' :: ss)

variable {sep}

@[simp] theorem segments_nil : segments sep [] = [] := rfl

section
omit [DecidableEq α]

/-- A segment with its separator. -/
theorem Segment.joined_eq (s : Segment α) :
    s.joined sep = s.text ++ if s.ended then [sep] else [] := by
  unfold Segment.joined
  split <;> simp

@[simp] theorem join_nil : join sep ([] : List (Segment α)) = [] := rfl

@[simp] theorem join_cons (s : Segment α) (ss : List (Segment α)) :
    join sep (s :: ss) = s.joined sep ++ join sep ss := rfl

/-- Two lists of segments joined. -/
theorem join_append (ss ss' : List (Segment α)) : join sep (ss ++ ss') = join sep ss ++ join sep ss' :=
  List.flatMap_append

/-- What is left of the segments of a text are the segments of a text. -/
theorem Formed.tail {s : Segment α} {ss : List (Segment α)} (h : Formed sep (s :: ss)) :
    Formed sep ss := by
  cases ss with
  | nil => trivial
  | cons s' ss => exact h.2.2

/-- No separator is inside the first segment. -/
theorem Formed.not_mem {s : Segment α} {ss : List (Segment α)} (h : Formed sep (s :: ss)) :
    sep ∉ s.text := by
  cases ss with
  | nil => exact h.1
  | cons s' ss => exact h.1

/-- No separator is inside a segment. -/
theorem Formed.forall_not_mem {ss : List (Segment α)} (h : Formed sep ss) : ∀ s ∈ ss, sep ∉ s.text := by
  induction ss with
  | nil => exact fun s mem => nomatch mem
  | cons s ss ih =>
    intro s' mem
    rcases List.mem_cons.mp mem with rfl | mem
    · exact h.not_mem
    · exact ih h.tail s' mem

/-- Formed segments are not nothing. -/
theorem Formed.join_ne_nil {s : Segment α} {ss : List (Segment α)} (h : Formed sep (s :: ss)) :
    join sep (s :: ss) ≠ [] := by
  cases ended : s.ended with
  | true => simp [Segment.joined, ended]
  | false =>
    cases ss with
    | nil => simpa [Segment.joined, ended] using h.2.resolve_left (by simp [ended])
    | cons s' ss => exact absurd h.2.1 (by simp [ended])

/-- A text that ends in a separator has ended segments only. -/
theorem Formed.all_ended {ss : List (Segment α)} (h : Formed sep ss)
    (last : join sep ss = [] ∨ (join sep ss).getLast? = some sep) :
    ∀ s ∈ ss, sep ∉ s.text ∧ s.ended = true := by
  induction ss with
  | nil => exact fun s mem => nomatch mem
  | cons s ss ih =>
    have last := last.resolve_left h.join_ne_nil
    cases ss with
    | nil =>
      intro t mem
      obtain rfl := List.mem_singleton.mp mem
      refine ⟨h.1, ?_⟩
      by_contra open_
      have open_ : t.ended = false := by simpa using open_
      have eq : join sep [t] = t.text := by simp [Segment.joined, open_]
      rw [eq] at last
      exact h.1 (List.mem_of_getLast? last)
    | cons s' ss =>
      have more := h.tail.join_ne_nil
      rw [join_cons, List.getLast?_append_of_ne_nil _ more] at last
      intro t mem
      rcases List.mem_cons.mp mem with rfl | mem
      · exact ⟨h.1, h.2.1⟩
      · exact ih h.tail (.inr last) t mem

/-- Segments that are all ended may stand before any others. -/
theorem Formed.append {ss ss' : List (Segment α)} (all : ∀ s ∈ ss, sep ∉ s.text ∧ s.ended = true)
    (h : Formed sep ss') : Formed sep (ss ++ ss') := by
  induction ss with
  | nil => exact h
  | cons s ss ih =>
    obtain ⟨notIn, ended⟩ := all s List.mem_cons_self
    have rest := ih fun s' mem => all s' (List.mem_cons_of_mem s mem)
    rw [List.cons_append]
    generalize ss ++ ss' = l at rest ⊢
    cases l with
    | nil => exact ⟨notIn, .inl ended⟩
    | cons s' l => exact ⟨notIn, ended, rest⟩

/-- Lines that are changed each for itself. -/
theorem Formed.map {ss : List (Segment α)} {f : List α → List α}
    (lines : ∀ s ∈ ss, sep ∉ f s.text ∧ (s.text ≠ [] → f s.text ≠ [])) (h : Formed sep ss) :
    Formed sep (ss.map fun s => { s with text := f s.text }) := by
  induction ss with
  | nil => trivial
  | cons s ss ih =>
    have rest := ih (fun t mem => lines t (List.mem_cons_of_mem s mem)) h.tail
    obtain ⟨notIn, some⟩ := lines s List.mem_cons_self
    cases ss with
    | nil => exact ⟨notIn, h.2.imp_right some⟩
    | cons t ss => exact ⟨notIn, h.2.1, rest⟩

end

/-! ## Cutting and putting together -/

/-- An ended line comes first. -/
theorem segments_line_append {l : List α} (hl : sep ∉ l) (s : List α) :
    segments sep (l ++ sep :: s) = ⟨l, true⟩ :: segments sep s := by
  induction l with
  | nil => simp [segments]
  | cons c l ih =>
    rw [List.mem_cons, not_or] at hl
    simp [segments, Ne.symm hl.1, ih hl.2]

/-- A text without a separator is one segment, unless it is empty. -/
theorem segments_line {l : List α} (hl : sep ∉ l) (hne : l ≠ []) : segments sep l = [⟨l, false⟩] := by
  induction l with
  | nil => exact absurd rfl hne
  | cons c l ih =>
    rw [List.mem_cons, not_or] at hl
    cases l with
    | nil => simp [segments, Ne.symm hl.1]
    | cons c' l => rw [segments, if_neg (Ne.symm hl.1), ih hl.2 (List.cons_ne_nil _ _)]

/-- Cutting and joining gives the list back. -/
@[simp] theorem join_segments (s : List α) : join sep (segments sep s) = s := by
  induction s with
  | nil => rfl
  | cons c s ih =>
    unfold segments
    split
    · rename_i eq
      rw [join_cons, ih, eq]
      rfl
    · cases cut : segments sep s with
      | nil =>
        rw [cut] at ih
        rw [← ih]
        rfl
      | cons t ts =>
        rw [cut] at ih
        rw [← ih]
        cases ended : t.ended <;> simp [Segment.joined, ended]

/-- Joining and cutting gives the segments back. -/
theorem segments_join {ss : List (Segment α)} (h : Formed sep ss) : segments sep (join sep ss) = ss := by
  induction ss with
  | nil => rfl
  | cons s ss ih =>
    have rest := ih h.tail
    obtain ⟨text, ended⟩ := s
    cases ended with
    | true =>
      have line := segments_line_append h.not_mem (join sep ss)
      rw [rest] at line
      simpa [Segment.joined] using line
    | false =>
      cases ss with
      | nil => simpa [Segment.joined] using segments_line h.1 (h.2.resolve_left (by simp))
      | cons s' ss => cases h.2.1

/-- A cut list is formed. -/
theorem formed_segments (s : List α) : Formed sep (segments sep s) := by
  induction s with
  | nil => trivial
  | cons c s ih =>
    unfold segments
    split
    · have newline : ∀ s ∈ [(⟨[], true⟩ : Segment α)], sep ∉ s.text ∧ s.ended = true := by simp
      exact Formed.append newline ih
    · rename_i ne
      cases cut : segments sep s with
      | nil => exact ⟨by simpa using Ne.symm ne, .inr (List.cons_ne_nil _ _)⟩
      | cons t ts =>
        rw [cut] at ih
        cases ts with
        | nil => exact ⟨by simpa using ⟨Ne.symm ne, ih.1⟩, .inr (List.cons_ne_nil _ _)⟩
        | cons t' ts => exact ⟨by simpa using ⟨Ne.symm ne, ih.1⟩, ih.2⟩

/-- Text behind segments that are all ended is cut for itself. -/
theorem segments_join_append {ss : List (Segment α)} (all : ∀ s ∈ ss, sep ∉ s.text ∧ s.ended = true)
    (s : List α) : segments sep (join sep ss ++ s) = ss ++ segments sep s := by
  have formed := segments_join (Formed.append all (formed_segments s))
  rwa [join_append, join_segments] at formed

end Segments
