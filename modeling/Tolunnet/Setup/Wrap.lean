import Mathlib.Algebra.Order.Ring.Int
import Mathlib.Data.List.TakeWhile
import Mathlib.Tactic.SplitIfs

/-!
# `Tolunnet.Setup.Wrap`: the loops of the word wrap

`tn_wrap_rows` lays a text out in rows of at most 95 characters that measure at most `maxw` pixels. Its
two loops are one here: a turn with no word under way reads the next word, and a turn with one puts a
piece of it on the row, or ends the row. `Turned` says once what a turn can do.

The limit on rows only cuts the rows off (`tnWrapRows_eq`): `bodies` is what the loops would store
without it.
-/

set_option autoImplicit false

namespace Tolunnet

namespace Wrap

/-! ## The model -/

def WRAP_ROW_CAP : Nat := 96

/-- A space or a tab. -/
def isBlank (c : UInt8) : Bool := c == 32 || c == 9

/-- The callback with its user data, the width and the indent of a call. A null indent is an empty
one. -/
structure Call where
  measure : List UInt8 → Int
  maxw : Int
  indent : List UInt8

/-- The locals of the loops. -/
structure Loop where
  /-- What is behind the word under way. -/
  p : List UInt8
  /-- What is left of the word, empty between two words. -/
  word : List UInt8
  cur : List UInt8
  rowEmpty : Bool
  deriving DecidableEq, Repr

variable (c : Call) (s : Loop)

/-- The indent, clamped. -/
def margin : List UInt8 := c.indent.take (WRAP_ROW_CAP - 1)

/-- `maxw`, at least 1. -/
def width : Int := if c.maxw < 1 then 1 else c.maxw

/-- `max_body`. -/
def maxBody : Nat := WRAP_ROW_CAP - 1 - (margin c).length

/-- The width of a row with this body is measured and within the bound. -/
def Fits (body : List UInt8) : Prop := c.measure (margin c ++ body) ≤ width c

instance (body : List UInt8) : Decidable (Fits c body) := inferInstanceAs (Decidable (_ ≤ _))

/-- `room`: the characters that are left on the row. -/
def room : Nat := maxBody c - (s.cur.length + if s.rowEmpty then 0 else 1)

/-- `take`. -/
def takeLen : Nat := min s.word.length (room c s)

/-- The body of the candidate row. -/
def candidate (take : Nat) : List UInt8 :=
  if s.rowEmpty then s.word.take take else s.cur ++ 32 :: s.word.take take

/-- `fits`: the row takes the piece. -/
def Accepts : Prop := 0 < takeLen c s ∧ Fits c (candidate s (takeLen c s))

instance : Decidable (Accepts c s) := inferInstanceAs (Decidable (_ ∧ _))

/-- The loop that looks for the longest piece that fits, at least one character. -/
def pixelFit (word : List UInt8) : Nat → Nat
  | 0 => 1
  | 1 => 1
  | fit + 2 => if Fits c (word.take (fit + 2)) then fit + 2 else pixelFit word (fit + 1)

/-- One turn of the inner loop, and the body of the row that it stores. -/
def place : Loop × Option (List UInt8) :=
  let take := takeLen c s
  if Accepts c s then
    ({ s with cur := candidate s take, rowEmpty := false, word := s.word.drop take }, none)
  else if s.rowEmpty = false then
    ({ s with cur := [], rowEmpty := true }, some s.cur)
  else if take = 0 then
    ({ s with word := s.word.drop 1 }, some (s.word.take 1))
  else
    let fit := pixelFit c s.word take
    ({ s with word := s.word.drop fit }, some (s.word.take fit))

/-- The head of the outer loop: the next word, or nothing at the end of the text. -/
def nextWord : Option Loop :=
  let p := s.p.dropWhile isBlank
  if p = [] then none
  else some { s with word := p.takeWhile fun c => !isBlank c, p := p.dropWhile fun c => !isBlank c }

/-- A turn of either loop. -/
def turn : Option (Loop × Option (List UInt8)) :=
  if s.word = [] then (nextWord s).map fun s' => (s', none) else some (place c s)

/-- A stored row: indent and body, cut to 95 characters. -/
def rowText (body : List UInt8) : List UInt8 :=
  margin c ++ body.take (WRAP_ROW_CAP - 1 - (margin c).length)

/-- `row_store`. -/
def rowStore (rowMax : Nat) (rows : List (List UInt8)) (body : List UInt8) : List (List UInt8) :=
  if rows.length ≥ rowMax then rows else rows ++ [rowText c body]

/-- A bound for the turns that are left. -/
def weight : Nat := 3 * s.p.length + 2 * s.word.length + if s.rowEmpty then 0 else 1

/-! ## What a turn does -/

variable {c s}

theorem length_candidate (take : Nat) : (candidate s take).length =
    (if s.rowEmpty then 0 else s.cur.length + 1) + min take s.word.length := by
  rw [candidate]
  split_ifs
  · rw [List.length_take, Nat.zero_add]
  · rw [List.length_append, List.length_cons, List.length_take]
    omega

theorem pixelFit_pos (word : List UInt8) (fit : Nat) : 1 ≤ pixelFit c word fit := by
  induction fit using pixelFit.induct c word with
  | case1 => exact le_rfl
  | case2 => exact le_rfl
  | case3 fit fits =>
    rw [pixelFit, if_pos fits]
    omega
  | case4 fit wide ih =>
    rw [pixelFit, if_neg wide]
    exact ih

variable (c s)

/-- The turns, each with the loop behind it and the body that it stores. -/
inductive Turned : Loop → Option (List UInt8) → Prop
  | read (idle : s.word = []) (more : s.p.dropWhile isBlank ≠ []) :
      Turned { s with word := (s.p.dropWhile isBlank).takeWhile fun c => !isBlank c
                      p := (s.p.dropWhile isBlank).dropWhile fun c => !isBlank c } none
  | accept (busy : s.word ≠ []) (accepts : Accepts c s) :
      Turned { s with cur := candidate s (takeLen c s)
                      rowEmpty := false
                      word := s.word.drop (takeLen c s) } none
  | flush (busy : s.word ≠ []) (wide : ¬ Accepts c s) (begun : s.rowEmpty = false) :
      Turned { s with cur := [], rowEmpty := true } (some s.cur)
  | split (busy : s.word ≠ []) (wide : ¬ Accepts c s) (empty : s.rowEmpty = true) :
      Turned { s with word := s.word.drop (pixelFit c s.word (takeLen c s)) }
        (some (s.word.take (pixelFit c s.word (takeLen c s))))

variable {c s} {s' : Loop} {row : Option (List UInt8)}

theorem turned (h : turn c s = some (s', row)) : Turned c s s' row := by
  rw [turn] at h
  split_ifs at h with idle
  · -- the outer loop
    rw [nextWord] at h
    split_ifs at h with none
    · cases h
    · cases h
      exact .read idle none
  · rw [place] at h
    dsimp only at h
    by_cases accepts : Accepts c s
    · rw [if_pos accepts] at h
      cases h
      exact .accept idle accepts
    · rw [if_neg accepts] at h
      split_ifs at h with begun nothing
      · cases h
        exact .flush idle accepts begun
      · -- the margin fills the row
        have one : pixelFit c s.word (takeLen c s) = 1 := by rw [nothing, pixelFit]
        cases h
        have split := Turned.split idle accepts (Bool.not_eq_false _ ▸ begun)
        rw [one] at split
        exact split
      · cases h
        exact .split idle accepts (Bool.not_eq_false _ ▸ begun)

/-- The loop ends between two words, when only blanks are left. -/
theorem turn_none (h : turn c s = none) : s.word = [] ∧ s.p.dropWhile isBlank = [] := by
  rw [turn] at h
  split_ifs at h with idle
  rw [nextWord] at h
  split_ifs at h with none
  · exact ⟨idle, none⟩
  · cases h

/-- A word that is read has a character. -/
theorem takeWhile_ne_nil (more : s.p.dropWhile isBlank ≠ []) :
    ((s.p.dropWhile isBlank).takeWhile fun c => !isBlank c) ≠ [] := by
  obtain ⟨b, rest, parts⟩ := List.exists_cons_of_ne_nil more
  have first := List.head_dropWhile_not isBlank more
  simp only [parts, List.head_cons] at first
  rw [parts, List.takeWhile_cons_of_pos (by rw [first]; rfl)]
  exact List.cons_ne_nil _ _

/-- Every turn makes progress. -/
theorem weight_turned (h : Turned c s s' row) : weight s' + row.toList.length ≤ weight s ∧ weight s' < weight s := by
  cases h with
  | read idle more =>
    have shorter := (List.dropWhile_sublist isBlank (l := s.p)).length_le
    have parts := congrArg List.length
      (List.takeWhile_append_dropWhile (p := fun c => !isBlank c) (l := s.p.dropWhile isBlank))
    rw [List.length_append] at parts
    have some : 0 < (s.p.dropWhile isBlank).length := List.length_pos_iff.mpr more
    have first : 0 < ((s.p.dropWhile isBlank).takeWhile fun c => !isBlank c).length :=
      List.length_pos_iff.mpr (takeWhile_ne_nil more)
    simp only [weight, idle, List.length_nil, Option.toList_none]
    omega
  | accept busy accepts =>
    have positive := accepts.1
    have bound : takeLen c s ≤ s.word.length := min_le_left _ _
    simp only [weight, List.length_drop, Option.toList_none, List.length_nil]
    split_ifs <;> omega
  | flush busy wide begun =>
    simp only [weight, begun, Option.toList_some, List.length_singleton, if_true, Bool.false_eq_true, if_false]
    omega
  | split busy wide empty =>
    have positive := pixelFit_pos (c := c) s.word (takeLen c s)
    have some : 0 < s.word.length := List.length_pos_iff.mpr busy
    simp only [weight, List.length_drop, Option.toList_some, List.length_singleton]
    omega

/-! ## The run -/

/-- The two loops, with the rows that are stored. -/
def wrapLoop (c : Call) (rowMax : Nat) (s : Loop) (rows : List (List UInt8)) : Loop × List (List UInt8) :=
  if s.word = [] ∧ rows.length ≥ rowMax then (s, rows)
  else
    match _h : turn c s with
    | none => (s, rows)
    | some (s', row) => wrapLoop c rowMax s' (row.elim rows (rowStore c rowMax rows))
termination_by weight s
decreasing_by exact (weight_turned (turned _h)).2

/-- The loop in front of the first word. -/
def start (text : List UInt8) : Loop := { p := text, word := [], cur := [], rowEmpty := true }

/-- The last row, when it is begun. -/
def lastRow (s : Loop) : Option (List UInt8) := if s.rowEmpty = false ∧ s.cur ≠ [] then some s.cur else none

/-- `tn_wrap_rows`: the rows that are written. A null text is an empty one. -/
def tnWrapRows (c : Call) (text : List UInt8) (rowMax : Nat) : List (List UInt8) :=
  if rowMax = 0 then []
  else
    let (s, rows) := wrapLoop c rowMax (start text) []
    (lastRow s).elim rows (rowStore c rowMax rows)

/-- The bodies of the rows that are written from here on, when there is room for all of them. -/
def bodies (c : Call) (s : Loop) : List (List UInt8) :=
  match _h : turn c s with
  | none => (lastRow s).toList
  | some (s', row) => row.toList ++ bodies c s'
termination_by weight s
decreasing_by exact (weight_turned (turned _h)).2

theorem bodies_turn (h : turn c s = some (s', row)) : bodies c s = row.toList ++ bodies c s' := by
  rw [bodies]
  split
  · rename_i none
    rw [none] at h
    cases h
  · rename_i some
    rw [some] at h
    cases h
    rfl

theorem bodies_end (h : turn c s = none) : bodies c s = (lastRow s).toList := by
  rw [bodies]
  split
  · rfl
  · rename_i some
    rw [some] at h
    cases h

theorem length_lastRow (s : Loop) : (lastRow s).toList.length ≤ weight s := by
  rw [lastRow]
  split_ifs with begun
  · have one : weight s = 3 * s.p.length + 2 * s.word.length + 1 := by
      rw [weight, begun.1]
      rfl
    rw [one, Option.toList_some, List.length_singleton]
    omega
  · exact Nat.zero_le _

theorem length_bodies (c : Call) (s : Loop) : (bodies c s).length ≤ weight s := by
  induction bound : weight s using Nat.strong_induction_on generalizing s with
  | _ n ih =>
    cases h : turn c s with
    | none =>
      rw [bodies_end h, ← bound]
      exact length_lastRow s
    | some next =>
      obtain ⟨s', row⟩ := next
      obtain ⟨less, progress⟩ := weight_turned (turned h)
      have rest := ih (weight s') (bound ▸ progress) s' rfl
      rw [bodies_turn h, List.length_append]
      omega

/-! ## The limit on rows -/

variable {rowMax : Nat} {rows : List (List UInt8)}

/-- Storing a row is appending it and keeping the first `rowMax` rows. -/
theorem rowStore_eq (few : rows.length ≤ rowMax) (row : Option (List UInt8)) :
    row.elim rows (rowStore c rowMax rows) = (rows ++ row.toList.map (rowText c)).take rowMax := by
  cases row with
  | none =>
    rw [Option.elim_none, Option.toList_none, List.map_nil, List.append_nil, List.take_of_length_le few]
  | some body =>
    rw [Option.elim_some, rowStore, Option.toList_some, List.map_singleton]
    split_ifs with full
    · have same : rows.length = rowMax := le_antisymm few full
      rw [← same, List.take_left]
    · rw [List.take_of_length_le]
      rw [List.length_append, List.length_singleton]
      omega

theorem take_append_again (l rest : List (List UInt8)) :
    (l.take rowMax ++ rest).take rowMax = (l ++ rest).take rowMax := by
  have left : rowMax - min rowMax l.length = rowMax - l.length := by omega
  rw [List.take_append, List.take_append, List.take_take, min_self, List.length_take, left]

/-- With the last row, the loops write the rows that they have and the bodies from here on, as far as
there is room. -/
theorem wrapLoop_eq (few : rows.length ≤ rowMax) :
    (lastRow (wrapLoop c rowMax s rows).1).elim (wrapLoop c rowMax s rows).2
        (rowStore c rowMax (wrapLoop c rowMax s rows).2) =
      (rows ++ (bodies c s).map (rowText c)).take rowMax := by
  induction bound : weight s using Nat.strong_induction_on generalizing s rows with
  | _ n ih =>
    rw [wrapLoop]
    by_cases full : s.word = [] ∧ rows.length ≥ rowMax
    · -- no room for another row
      rw [if_pos full, rowStore_eq few]
      have same : rows.length = rowMax := le_antisymm few full.2
      rw [← same, List.take_left, List.take_left]
    · rw [if_neg full]
      split
      · rename_i h
        rw [bodies_end h]
        exact rowStore_eq few _
      · rename_i s' row h
        obtain ⟨-, progress⟩ := weight_turned (turned h)
        have kept : (row.elim rows (rowStore c rowMax rows)).length ≤ rowMax := by
          rw [rowStore_eq few]
          exact List.length_take_le _ _
        rw [ih (weight s') (bound ▸ progress) kept rfl, bodies_turn h, rowStore_eq few, take_append_again,
          List.map_append, List.append_assoc]

/-- The limit only cuts the rows off. -/
theorem tnWrapRows_eq (c : Call) (text : List UInt8) (rowMax : Nat) :
    tnWrapRows c text rowMax = ((bodies c (start text)).map (rowText c)).take rowMax := by
  rw [tnWrapRows]
  split_ifs with none
  · rw [none, List.take_zero]
  · exact wrapLoop_eq (Nat.zero_le _)

/-- More room gives no more rows. -/
def Suffices (c : Call) (text : List UInt8) (rowMax : Nat) : Prop :=
  ∀ more, rowMax ≤ more → tnWrapRows c text more = tnWrapRows c text rowMax

theorem suffices_iff (text : List UInt8) :
    Suffices c text rowMax ↔ (bodies c (start text)).length ≤ rowMax := by
  constructor
  · intro enough
    have all := congrArg List.length (enough (max rowMax (bodies c (start text)).length) (le_max_left _ _))
    rw [tnWrapRows_eq, tnWrapRows_eq, List.length_take, List.length_take, List.length_map] at all
    omega
  · intro few more le
    rw [tnWrapRows_eq, tnWrapRows_eq, List.take_of_length_le, List.take_of_length_le] <;>
      rw [List.length_map] <;> omega

theorem tnWrapRows_of_suffices {text : List UInt8} (enough : Suffices c text rowMax) :
    tnWrapRows c text rowMax = (bodies c (start text)).map (rowText c) := by
  rw [tnWrapRows_eq, List.take_of_length_le]
  rw [List.length_map]
  exact (suffices_iff text).mp enough

/-- Three rows for each character are always enough. -/
theorem suffices_of_length (text : List UInt8) : Suffices c text (3 * text.length) := by
  refine (suffices_iff text).mpr ((length_bodies c (start text)).trans_eq ?_)
  rfl

end Wrap

end Tolunnet
