import Mathlib.Data.List.Infix

/-!
# `Tolunnet.Lib.Pieces`: a text that comes in pieces

A reader gets a text as a list of pieces and looks for a word in each of them. What it finds are the
places of the word at which no two pieces meet (`exists_mem_infix_iff`): a word that lies across a
border is in the text and in no piece.
-/

set_option autoImplicit false

namespace Pieces

variable {α : Type} {word text : List α} {pieces : List (List α)} {p b : Nat}

/-- The word stands in the text at `p`. -/
def At (word text : List α) (p : Nat) : Prop := word <+: text.drop p

/-- The positions behind each piece. -/
def borders : List (List α) → List Nat
  | [] => []
  | piece :: pieces => piece.length :: (borders pieces).map (piece.length + ·)

/-- No border lies within the `n` elements from `p` on. -/
def Unbroken (pieces : List (List α)) (p n : Nat) : Prop :=
  ∀ b ∈ borders pieces, b ≤ p ∨ p + n ≤ b

theorem infix_iff_at : word <:+: text ↔ ∃ p, At word text p := by
  constructor
  · rintro ⟨front, back, rfl⟩
    refine ⟨front.length, back, ?_⟩
    rw [List.append_assoc, List.drop_left]
  · rintro ⟨p, back, hdrop⟩
    refine ⟨text.take p, back, ?_⟩
    rw [List.append_assoc, hdrop, List.take_append_drop]

theorem At.length_le (h : At word text p) (hne : word ≠ []) : p + word.length ≤ text.length := by
  have hlen := List.IsPrefix.length_le h
  have hpos := List.length_pos_iff.mpr hne
  rw [List.length_drop] at hlen
  omega

/-- A word in the front of a text. -/
theorem At.append_right (h : At word text p) (hne : word ≠ []) (back : List α) :
    At word (text ++ back) p := by
  have hp : p ≤ text.length := le_trans (Nat.le_add_right _ _) (h.length_le hne)
  unfold At
  rw [List.drop_append_of_le_length hp]
  exact List.IsPrefix.trans h (List.prefix_append _ _)

theorem at_of_append_right {back : List α} (h : At word (text ++ back) p)
    (hlen : p + word.length ≤ text.length) : At word text p := by
  unfold At at h ⊢
  rw [List.drop_append_of_le_length (by omega)] at h
  refine List.prefix_of_prefix_length_le h (List.prefix_append _ _) ?_
  rw [List.length_drop]
  omega

/-- A word behind the front of a text. -/
theorem at_append_left (front : List α) : At word (front ++ text) (front.length + p) ↔ At word text p := by
  unfold At
  rw [List.drop_append, List.drop_eq_nil_of_le (Nat.le_add_right _ _), List.nil_append,
    Nat.add_sub_cancel_left]

theorem mem_borders_cons {piece : List α} : b ∈ borders (piece :: pieces) ↔
    b = piece.length ∨ ∃ b' ∈ borders pieces, b = piece.length + b' := by
  rw [borders, List.mem_cons, List.mem_map]
  simp only [eq_comm]

/-- The borders do not depend on what the pieces hold. -/
theorem borders_map {β : Type} (f : α → β) (pieces : List (List α)) :
    borders (pieces.map (List.map f)) = borders pieces := by
  induction pieces with
  | nil => rfl
  | cons piece pieces ih => rw [List.map_cons, borders, borders, ih, List.length_map]

/-- A word is in one of the pieces if and only if it stands in the text where no pieces meet. -/
theorem exists_mem_infix_iff (pieces : List (List α)) (hne : word ≠ []) :
    (∃ piece ∈ pieces, word <:+: piece) ↔
      ∃ p, At word pieces.flatten p ∧ Unbroken pieces p word.length := by
  induction pieces with
  | nil =>
    constructor
    · rintro ⟨piece, hmem, -⟩
      cases hmem
    · rintro ⟨p, hat, -⟩
      exact absurd (List.prefix_nil.mp (List.drop_nil ▸ hat)) hne
  | cons piece pieces ih =>
    constructor
    · rintro ⟨found, hmem, hin⟩
      rcases List.mem_cons.mp hmem with rfl | hmem
      · -- in the first piece: every border is behind it
        obtain ⟨p, hat⟩ := infix_iff_at.mp hin
        have hlen := hat.length_le hne
        refine ⟨p, hat.append_right hne _, fun b hb => Or.inr ?_⟩
        rcases mem_borders_cons.mp hb with rfl | ⟨b', -, rfl⟩
        · exact hlen
        · omega
      · -- in a later one: the place and the borders move by the first piece
        obtain ⟨p, hat, hwhole⟩ := ih.mp ⟨found, hmem, hin⟩
        refine ⟨piece.length + p, (at_append_left piece).mpr hat, fun b hb => ?_⟩
        rcases mem_borders_cons.mp hb with rfl | ⟨b', hb', rfl⟩
        · exact Or.inl (Nat.le_add_right _ _)
        · rcases hwhole b' hb' with before | behind
          · exact Or.inl (Nat.add_le_add_left before _)
          · exact Or.inr (by omega)
    · rintro ⟨p, hat, hwhole⟩
      rcases hwhole piece.length (mem_borders_cons.mpr (Or.inl rfl)) with before | behind
      · obtain ⟨p, rfl⟩ := Nat.exists_eq_add_of_le before
        obtain ⟨found, hmem, hin⟩ := ih.mpr ⟨p, (at_append_left piece).mp hat, fun b hb => by
          have := hwhole (piece.length + b) (mem_borders_cons.mpr (Or.inr ⟨b, hb, rfl⟩))
          omega⟩
        exact ⟨found, List.mem_cons_of_mem _ hmem, hin⟩
      · exact ⟨piece, List.mem_cons_self, infix_iff_at.mpr ⟨p, at_of_append_right hat behind⟩⟩

end Pieces
