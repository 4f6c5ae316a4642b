import Mathlib.Data.List.Basic

/-!
# `Tolunnet.Lib.Words`: a text as words with blanks between them

Two layouts of a text are compared by counting characters that are not blank: `marks` is the text
without its blanks, and a place in a layout is the number of marks in front of it. A place lies
`Within` a word when at least one mark of the word is in front of it and at least one behind. `Apart`
says that no blank of a layout stands within a word.
-/

set_option autoImplicit false

namespace Words

variable {α : Type} (blank : α → Bool)

/-- The words of a text. -/
def words (l : List α) : List (List α) := (l.splitOnP blank).filter fun w => !w.isEmpty

/-- A text without its blanks. -/
def marks (l : List α) : List α := l.filter fun c => !blank c

/-- Behind `n` marks is a place within a word that meets `P`. -/
def Within (P : List α → Prop) (ws : List (List α)) (n : Nat) : Prop :=
  ∃ before w behind, ws = before ++ w :: behind ∧ P w ∧
    before.flatten.length < n ∧ n < before.flatten.length + w.length

/-- No blank of `l` stands within a word. -/
def Apart (ws : List (List α)) (l : List α) : Prop :=
  ∀ x b y, l = x ++ b :: y → blank b = true → ¬ Within (fun _ => True) ws (marks blank x).length

variable {blank} {l m w rest : List α} {ws before behind : List (List α)} {P : List α → Prop} {n : Nat}

/-! ## Marks -/

@[simp] theorem marks_nil : marks blank [] = [] := rfl

@[simp] theorem marks_append (l m : List α) : marks blank (l ++ m) = marks blank l ++ marks blank m :=
  List.filter_append ..

theorem marks_blank {b : α} (h : blank b = true) (l : List α) : marks blank (b :: l) = marks blank l := by
  rw [marks, List.filter_cons_of_neg (by rw [h]; decide)]
  rfl

theorem marks_plain (plain : ∀ c ∈ l, blank c = false) : marks blank l = l := by
  refine List.filter_eq_self.mpr fun c mem => ?_
  rw [plain c mem]
  rfl

/-! ## Words -/

@[simp] theorem words_nil : words blank [] = [] := by
  rw [words, List.splitOnP_nil]
  rfl

theorem words_blank {b : α} (h : blank b = true) (l : List α) : words blank (b :: l) = words blank l := by
  have cut := List.splitOnP_append_cons [] l h
  rw [List.nil_append, List.splitOnP_nil] at cut
  rw [words, cut]
  rfl

theorem words_dropWhile (l : List α) : words blank (l.dropWhile blank) = words blank l := by
  induction l with
  | nil => rfl
  | cons c l ih =>
    rw [List.dropWhile_cons]
    split_ifs with h
    · rw [ih, words_blank h]
    · rfl

/-- What is not empty stays. -/
theorem filter_some (some : w ≠ []) (ws : List (List α)) :
    ((w :: ws).filter fun w => !w.isEmpty) = w :: ws.filter fun w => !w.isEmpty := by
  refine List.filter_cons_of_pos ?_
  rw [Bool.not_eq_true', List.isEmpty_eq_false_iff]
  exact some

/-- A run without blanks is a word when a blank or the end stands behind it. -/
theorem words_run (some : w ≠ []) (plain : ∀ c ∈ w, blank c = false)
    (stop : ∀ c ∈ rest.head?, blank c = true) : words blank (w ++ rest) = w :: words blank rest := by
  cases rest with
  | nil =>
    rw [List.append_nil, words_nil, words, List.splitOnP_eq_singleton plain, filter_some some]
    rfl
  | cons b rest =>
    have h := stop b rfl
    rw [words_blank h, words, List.splitOnP_append_cons_of_forall_mem plain b h, filter_some some]
    rfl

theorem flatten_filter (ws : List (List α)) : (ws.filter fun w => !w.isEmpty).flatten = ws.flatten := by
  induction ws with
  | nil => rfl
  | cons w ws ih =>
    cases w with
    | nil => exact ih
    | cons c w => rw [filter_some (List.cons_ne_nil c w), List.flatten_cons, List.flatten_cons, ih]

theorem flatten_splitOnP (l : List α) : (l.splitOnP blank).flatten = marks blank l := by
  induction l with
  | nil => rfl
  | cons c l ih =>
    rw [List.splitOnP_cons_eq_if_modifyHead]
    split_ifs with h
    · rw [marks_blank h]
      exact ih
    · obtain ⟨v, vs, parts⟩ := List.exists_cons_of_ne_nil (List.splitOnP_ne_nil blank l)
      have here : marks blank (c :: l) = c :: marks blank l :=
        List.filter_cons_of_pos (by rw [Bool.eq_false_iff.mpr h]; rfl)
      rw [here, ← ih, parts]
      rfl

theorem flatten_words (l : List α) : (words blank l).flatten = marks blank l := by
  rw [words, flatten_filter, flatten_splitOnP]

/-! ## Places -/

/-- A place behind whole words is not within one. -/
theorem not_within_border (before behind : List (List α)) :
    ¬ Within P (before ++ behind) before.flatten.length := by
  rintro ⟨b, w, e, same, -, above, below⟩
  obtain ⟨mid, left, right⟩ | ⟨mid, left, right⟩ := List.append_eq_append_iff.mp same
  · -- the border stands in front of `w`
    rw [left, List.flatten_append, List.length_append] at above
    omega
  · -- the border stands behind `w`, or in front of it again
    rw [left, List.flatten_append, List.length_append] at below
    cases mid with
    | nil =>
      rw [left, List.append_nil] at above
      omega
    | cons v mid =>
      obtain ⟨rfl, -⟩ := List.cons.inj right
      rw [List.flatten_cons, List.length_append] at below
      omega

/-- Within a given word the place belongs to no other one. -/
theorem within_iff (above : before.flatten.length < n) (below : n < before.flatten.length + w.length) :
    Within P (before ++ w :: behind) n ↔ P w := by
  constructor
  · rintro ⟨b, v, e, same, holds, above', below'⟩
    obtain ⟨mid, left, right⟩ | ⟨mid, left, right⟩ := List.append_eq_append_iff.mp same
    · cases mid with
      | nil =>
        obtain ⟨rfl, -⟩ := List.cons.inj right
        exact holds
      | cons u mid =>
        obtain ⟨rfl, -⟩ := List.cons.inj right
        rw [left, List.flatten_append, List.flatten_cons, List.length_append, List.length_append] at above'
        omega
    · cases mid with
      | nil =>
        obtain ⟨rfl, -⟩ := List.cons.inj right
        exact holds
      | cons u mid =>
        obtain ⟨rfl, -⟩ := List.cons.inj right
        rw [left, List.flatten_append, List.flatten_cons, List.length_append, List.length_append] at above
        omega
  · intro holds
    exact ⟨before, w, behind, rfl, holds, above, below⟩

/-! ## Blanks of a layout -/

theorem apart_nil : Apart blank ws [] := by
  intro x b y eq
  cases x <;> cases eq

/-- What holds no blank can follow. -/
theorem Apart.append (apart : Apart blank ws l) (plain : ∀ c ∈ m, blank c = false) :
    Apart blank ws (l ++ m) := by
  intro x b y eq isBlank
  obtain ⟨mid, left, right⟩ | ⟨mid, left, right⟩ := List.append_eq_append_iff.mp eq
  · -- the blank would be a character of `m`
    have mem : b ∈ m := by
      rw [right]
      exact List.mem_append_right _ List.mem_cons_self
    rw [plain b mem] at isBlank
    cases isBlank
  · cases mid with
    | nil =>
      have mem : b ∈ m := by
        rw [← List.nil_append m, ← show b :: y = [] ++ m from right]
        exact List.mem_cons_self
      rw [plain b mem] at isBlank
      cases isBlank
    | cons u mid =>
      obtain ⟨rfl, -⟩ := List.cons.inj right
      exact apart x b mid left isBlank

/-- A blank can follow behind whole words. -/
theorem Apart.gap {b : α} (apart : Apart blank ws l)
    (border : ¬ Within (fun _ => True) ws (marks blank l).length) : Apart blank ws (l ++ [b]) := by
  intro x c y eq isBlank
  obtain ⟨mid, left, right⟩ | ⟨mid, left, right⟩ := List.append_eq_append_iff.mp eq
  · cases mid with
    | nil =>
      rw [left, List.append_nil]
      exact border
    | cons u mid =>
      -- one character cannot hold two
      obtain ⟨-, none⟩ := List.cons.inj right
      cases mid <;> cases none
  · cases mid with
    | nil =>
      rw [List.append_nil] at left
      rw [← left]
      exact border
    | cons u mid =>
      obtain ⟨rfl, -⟩ := List.cons.inj right
      exact apart x c mid left isBlank

end Words
