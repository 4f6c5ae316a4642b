import Mathlib.Data.List.Basic

/-!
# `Tolunnet.Lib.Lines`: texts as lines, and as the pieces a bounded read returns

`lines sep s` cuts a text behind every separator. `unlines` puts lines together again, each with
its separator. A text that ends in a separator has no further line behind it, so `lines` undoes
`unlines`, and a text without its last separator has the same lines.

`fgets n s` is what a reader sees that asks for at most `n` elements at a time and stops behind a
separator. A line that fits comes in one piece; a longer one comes in several. `foldl_fgets` says
that a reader who does not look at separators works through the lines one by one.
-/

set_option autoImplicit false

namespace Lines

variable {α β : Type} [DecidableEq α] (sep : α)

/-! ## Lines -/

/-- The lines of a text, without their separators. -/
def lines : List α → List (List α)
  | [] => []
  | c :: cs =>
    if c = sep then [] :: lines cs
    else
      match lines cs with
      | [] => [[c]]
      | l :: ls => (c :: l) :: ls

/-- Lines put together, each with a separator behind it. -/
def unlines (ls : List (List α)) : List α := ls.flatMap (· ++ [sep])

variable {sep}

@[simp] theorem lines_nil : lines sep [] = [] := rfl

/-- A line with its separator comes first. -/
theorem lines_line_append {l : List α} (hl : sep ∉ l) (s : List α) :
    lines sep (l ++ sep :: s) = l :: lines sep s := by
  induction l with
  | nil => simp [lines]
  | cons c l ih =>
    rw [List.mem_cons, not_or] at hl
    simp [lines, Ne.symm hl.1, ih hl.2]

/-- A text without a separator is one line, unless it is empty. -/
theorem lines_line {l : List α} (hl : sep ∉ l) (hne : l ≠ []) : lines sep l = [l] := by
  induction l with
  | nil => exact absurd rfl hne
  | cons c l ih =>
    rw [List.mem_cons, not_or] at hl
    cases l with
    | nil => simp [lines, Ne.symm hl.1]
    | cons c' l => rw [lines, if_neg (Ne.symm hl.1), ih hl.2 (List.cons_ne_nil _ _)]

omit [DecidableEq α] in
/-- A text is one line, or a line with its separator and a rest. -/
theorem eq_line_or (sep : α) (s : List α) : sep ∉ s ∨ ∃ l rest, sep ∉ l ∧ s = l ++ sep :: rest := by
  induction s with
  | nil => exact Or.inl List.not_mem_nil
  | cons c s ih =>
    by_cases hc : sep = c
    · exact Or.inr ⟨[], s, List.not_mem_nil, by rw [hc]; rfl⟩
    · rcases ih with h | ⟨l, rest, hl, rfl⟩
      · exact Or.inl (by simp [hc, h])
      · exact Or.inr ⟨c :: l, rest, by simp [hc, hl], rfl⟩

omit [DecidableEq α] in
/-- Induction along the lines of a text. -/
theorem line_induction (sep : α) {P : List α → Prop} (hline : ∀ l, sep ∉ l → P l)
    (happ : ∀ l s, sep ∉ l → P s → P (l ++ sep :: s)) (s : List α) : P s := by
  induction hn : s.length using Nat.strongRecOn generalizing s with
  | _ n ih =>
    rcases eq_line_or sep s with h | ⟨l, rest, hl, rfl⟩
    · exact hline s h
    · refine happ l rest hl (ih rest.length ?_ rest rfl)
      rw [← hn, List.length_append, List.length_cons]
      omega

/-- No line holds a separator. -/
theorem not_mem_of_mem_lines {s l : List α} (hl : l ∈ lines sep s) : sep ∉ l := by
  induction s using line_induction sep with
  | hline s hs =>
    cases s with
    | nil => cases hl
    | cons c s =>
      rw [lines_line hs (List.cons_ne_nil _ _), List.mem_singleton] at hl
      rwa [hl]
  | happ l' s hl' ih =>
    rw [lines_line_append hl', List.mem_cons] at hl
    rcases hl with rfl | hl
    · exact hl'
    · exact ih hl

/-- The elements of a line are elements of the text. -/
theorem mem_of_mem_lines {s l : List α} (hl : l ∈ lines sep s) {c : α} (hc : c ∈ l) : c ∈ s := by
  induction s using line_induction sep with
  | hline s hs =>
    cases s with
    | nil => cases hl
    | cons d s =>
      rw [lines_line hs (List.cons_ne_nil _ _), List.mem_singleton] at hl
      rwa [← hl]
  | happ l' s hl' ih =>
    rw [lines_line_append hl', List.mem_cons] at hl
    rcases hl with rfl | hl
    · exact List.mem_append_left _ hc
    · exact List.mem_append_right _ (List.mem_cons_of_mem _ (ih hl))

section
variable (sep)
omit [DecidableEq α]

@[simp] theorem unlines_nil : unlines sep ([] : List (List α)) = [] := rfl

@[simp] theorem unlines_cons (l : List α) (ls : List (List α)) :
    unlines sep (l :: ls) = l ++ sep :: unlines sep ls := by
  simp [unlines]

theorem unlines_append (ls ls' : List (List α)) :
    unlines sep (ls ++ ls') = unlines sep ls ++ unlines sep ls' := by
  simp [unlines]

/-- Lines put together end in a separator. -/
theorem getLast?_unlines {ls : List (List α)} (h : ls ≠ []) :
    (unlines sep ls).getLast? = some sep := by
  rcases List.eq_nil_or_concat ls with rfl | ⟨ls, l, rfl⟩
  · exact absurd rfl h
  · rw [List.concat_eq_append, unlines_append, unlines_cons, unlines_nil, ← List.append_assoc,
      List.getLast?_concat]

end

/-- The lines of lines put together come first. -/
theorem lines_unlines_append {ls : List (List α)} (h : ∀ l ∈ ls, sep ∉ l) (s : List α) :
    lines sep (unlines sep ls ++ s) = ls ++ lines sep s := by
  induction ls with
  | nil => rfl
  | cons l ls ih =>
    rw [unlines_cons, List.append_assoc, List.cons_append,
      lines_line_append (h l (List.mem_cons_self ..)),
      ih fun l hl => h l (List.mem_cons_of_mem _ hl), List.cons_append]

theorem lines_unlines {ls : List (List α)} (h : ∀ l ∈ ls, sep ∉ l) :
    lines sep (unlines sep ls) = ls := by
  have := lines_unlines_append h []
  rwa [List.append_nil, lines_nil, List.append_nil] at this

/-- The last separator can be missing. -/
theorem lines_dropLast_unlines {ls : List (List α)} (h : ∀ l ∈ ls, sep ∉ l)
    (hne : ∀ l ∈ ls, l ≠ []) : lines sep (unlines sep ls).dropLast = ls := by
  rcases List.eq_nil_or_concat ls with rfl | ⟨ls, l, rfl⟩
  · rfl
  · have hl : l ∈ ls ++ [l] := List.mem_append_right _ (List.mem_singleton_self l)
    have hdrop : (unlines sep (ls ++ [l])).dropLast = unlines sep ls ++ l := by
      rw [unlines_append, unlines_cons, unlines_nil, ← List.append_assoc, List.dropLast_concat]
    rw [List.concat_eq_append] at *
    rw [hdrop, lines_unlines_append (fun l hl => h l (List.mem_append_left _ hl)),
      lines_line (h l hl) (hne l hl)]

/-- Reading lines and writing them again adds at most one separator. -/
theorem length_unlines_lines_le (s : List α) :
    (unlines sep (lines sep s)).length ≤ s.length + 1 := by
  induction s using line_induction sep with
  | hline s hs =>
    cases s with
    | nil => simp
    | cons c s => rw [lines_line hs (List.cons_ne_nil _ _)]; simp
  | happ l s hl ih =>
    rw [lines_line_append hl]
    simp only [unlines_cons, List.length_append, List.length_cons]
    omega

omit [DecidableEq α] in
/-- Leaving out lines does not make a text longer. -/
theorem length_unlines_filter_le (p : List α → Bool) (ls : List (List α)) :
    (unlines sep (ls.filter p)).length ≤ (unlines sep ls).length := by
  induction ls with
  | nil => exact Nat.le_refl _
  | cons l ls ih =>
    rw [List.filter_cons]
    split
    · simp only [unlines_cons, List.length_append, List.length_cons]
      omega
    · simp only [unlines_cons, List.length_append, List.length_cons]
      omega

/-! ## Bounded reads -/

/-- The pieces of a text behind the `acc` that the current piece already has. -/
def fgetsLoop (sep : α) (n : Nat) (acc : List α) : List α → List (List α)
  | [] => if acc.isEmpty then [] else [acc]
  | c :: cs =>
    if c = sep ∨ acc.length + 1 = n then (acc ++ [c]) :: fgetsLoop sep n [] cs
    else fgetsLoop sep n (acc ++ [c]) cs

/-- The pieces of at most `n` elements that end behind a separator. -/
def fgets (sep : α) (n : Nat) (s : List α) : List (List α) := fgetsLoop sep n [] s

/-- A line that fits comes in one piece. -/
theorem fgetsLoop_short {n : Nat} {acc l : List α} (hl : sep ∉ l) (hn : acc.length + l.length ≤ n)
    (hne : acc ++ l ≠ []) : fgetsLoop sep n acc l = [acc ++ l] := by
  induction l generalizing acc with
  | nil =>
    rw [List.append_nil] at hne ⊢
    simp [fgetsLoop, hne]
  | cons c l ih =>
    rw [List.mem_cons, not_or] at hl
    rw [List.length_cons] at hn
    unfold fgetsLoop
    by_cases hfull : acc.length + 1 = n
    · have hnil : l = [] := List.length_eq_zero_iff.mp (by omega)
      subst hnil
      rw [if_pos (Or.inr hfull)]
      simp [fgetsLoop]
    · rw [if_neg (by simp [Ne.symm hl.1, hfull]), ih hl.2 (by simp; omega) (by simp)]
      simp

theorem fgets_short {n : Nat} {l : List α} (hl : sep ∉ l) (hn : l.length ≤ n) (hne : l ≠ []) :
    fgets sep n l = [l] :=
  fgetsLoop_short hl (by simpa using hn) (by simpa using hne)

section
variable {f : β → List α → β} (hsep : ∀ b l, f b (l ++ [sep]) = f b l) (hnil : ∀ b, f b [] = b)

include hsep hnil

/-- A reader that does not look at separators reads a line, then the rest. -/
theorem foldl_fgetsLoop_line {l : List α} (hl : sep ∉ l) (n : Nat) (acc s : List α) (b : β) :
    (fgetsLoop sep n acc (l ++ sep :: s)).foldl f b
      = (fgets sep n s).foldl f ((fgetsLoop sep n acc l).foldl f b) := by
  induction l generalizing acc b with
  | nil =>
    have hcut : fgetsLoop sep n acc (sep :: s) = (acc ++ [sep]) :: fgets sep n s :=
      if_pos (Or.inl rfl)
    rw [List.nil_append, hcut, List.foldl_cons, hsep]
    cases acc with
    | nil => rw [hnil]; rfl
    | cons c acc => rfl
  | cons c l ih =>
    rw [List.mem_cons, not_or] at hl
    rw [List.cons_append, fgetsLoop, fgetsLoop]
    split
    · rw [List.foldl_cons, List.foldl_cons]
      exact ih hl.2 [] _
    · exact ih hl.2 _ b

/-- Such a reader works through the lines one by one. -/
theorem foldl_fgets (n : Nat) (s : List α) (b : β) :
    (fgets sep n s).foldl f b
      = (lines sep s).foldl (fun b l => (fgets sep n l).foldl f b) b := by
  induction s using line_induction sep generalizing b with
  | hline s hs =>
    cases s with
    | nil => rfl
    | cons c s => rw [lines_line hs (List.cons_ne_nil _ _), List.foldl_cons, List.foldl_nil]
  | happ l s hl ih =>
    rw [lines_line_append hl, List.foldl_cons, ← ih]
    exact foldl_fgetsLoop_line hsep hnil hl n [] s b

end

end Lines
