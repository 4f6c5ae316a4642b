import Tolunnet.Lib.Words
import Tolunnet.Setup.Wrap

/-!
# `Tolunnet.Setup.WordWrap`: what the word wrap keeps

`Wrapped` is what the rows should be like: nothing is lost but blanks, no blank stands within a word, no
row is too long or too wide, and a word that fits on a row of its own is on one row.

A row that is begun takes a piece of such a word all the same, as soon as it is the characters that run
out and not the pixels (`Cuts`). And a width below 1 counts as 1 (`TooWide`). `wrapped_iff` says that
the rows are as they should be exactly when no turn does one or the other. `Base` is what holds of the
loops in any case, and `Good` what holds as long as no turn has done so.
-/

set_option autoImplicit false

namespace Tolunnet

namespace Wrap

open Words

/-! ## What is claimed -/

variable (c : Call) (text : List UInt8) (s : Loop)

/-- A word fits on a row of its own, in characters and pixels. -/
def FitsAlone (w : List UInt8) : Prop := c.indent.length + w.length ≤ 95 ∧ c.measure (c.indent ++ w) ≤ c.maxw

instance (w : List UInt8) : Decidable (FitsAlone c w) := inferInstanceAs (Decidable (_ ∧ _))

/-- What stands behind the indent of a row. -/
def body (row : List UInt8) : List UInt8 := row.drop c.indent.length

/-- The rows of a text as they should be. -/
structure Wrapped (rows : List (List UInt8)) : Prop where
  lossless : marks isBlank (rows.map (body c)).flatten = marks isBlank text
  apart : Apart isBlank (words isBlank text) (rows.map (body c)).flatten
  short : ∀ row ∈ rows, row.length ≤ 95
  narrow : ∀ row ∈ rows, c.measure row ≤ c.maxw ∨ (body c row).length = 1
  /-- Between two rows is no word that fits on one. -/
  undivided : ∀ before behind, rows = before ++ behind →
    ¬ Within (FitsAlone c) (words isBlank text) (marks isBlank (before.map (body c)).flatten).length

/-! ## What goes wrong -/

/-- A row that is begun takes the first characters of a word that fits on a row of its own, since it has
no room for the others. -/
def Cuts : Prop :=
  s.rowEmpty = false ∧ 0 < room c s ∧ room c s < s.word.length ∧ Fits c (candidate s (room c s)) ∧
    FitsAlone c s.word

/-- What the turn leaves on a row. -/
def placed : List UInt8 :=
  if Accepts c s then candidate s (takeLen c s)
  else if s.rowEmpty then s.word.take (pixelFit c s.word (takeLen c s)) else []

/-- The turn leaves more than one character on a row that is too wide. -/
def TooWide : Prop := 1 < (placed c s).length ∧ c.maxw < c.measure (margin c ++ placed c s)

/-- A turn of the inner loop that goes wrong. -/
def Slips : Prop := s.word ≠ [] ∧ (Cuts c s ∨ TooWide c s)

instance : Decidable (Cuts c s) := inferInstanceAs (Decidable (_ ∧ _))

instance : Decidable (TooWide c s) := inferInstanceAs (Decidable (_ ∧ _))

instance : Decidable (Slips c s) := inferInstanceAs (Decidable (_ ∧ _))

/-- The loop gets here, with these bodies stored. -/
inductive Reached : Loop → List (List UInt8) → Prop
  | first : Reached (start text) []
  | next {s s' row rows} (reached : Reached s rows) (step : turn c s = some (s', row)) :
      Reached s' (rows ++ row.toList)

variable {c text s} {s' : Loop} {row : Option (List UInt8)} {rows : List (List UInt8)}

/-! ## The margin -/

section
variable (short : c.indent.length ≤ 94)
include short

/-- A short indent is the margin. -/
theorem margin_eq : margin c = c.indent := List.take_of_length_le (by rw [WRAP_ROW_CAP]; omega)

/-- What is left of a row. -/
theorem maxBody_eq : maxBody c = 95 - c.indent.length := by rw [maxBody, margin_eq short, WRAP_ROW_CAP]

theorem maxBody_pos : 1 ≤ maxBody c := by
  rw [maxBody_eq short]
  omega

/-- A row is the indent and its text. -/
theorem rowText_eq {b : List UInt8} (le : b.length ≤ maxBody c) : rowText c b = c.indent ++ b := by
  rw [rowText, margin_eq short, List.take_of_length_le]
  rw [maxBody_eq short] at le
  rw [WRAP_ROW_CAP]
  exact le

/-- The text of a row is what was put there. -/
theorem body_rowText {b : List UInt8} (le : b.length ≤ maxBody c) : body c (rowText c b) = b := by
  rw [rowText_eq short le, body, List.drop_left]

end

/-- A row of its own is within the bound that the code compares with. -/
theorem FitsAlone.fits {w : List UInt8} (short : c.indent.length ≤ 94) (h : FitsAlone c w) : Fits c w := by
  have narrow := h.2
  rw [Fits, margin_eq short, width]
  split_ifs <;> omega

/-- A word that does not fit loses no more than what fits. -/
theorem pixelFit_le (word : List UInt8) (fit : Nat) : pixelFit c word fit ≤ max 1 fit := by
  induction fit using pixelFit.induct c word with
  | case1 => exact le_max_left _ _
  | case2 => exact le_max_left _ _
  | case3 fit fits =>
    rw [pixelFit, if_pos fits]
    exact le_max_right _ _
  | case4 fit wide ih =>
    rw [pixelFit, if_neg wide]
    omega

/-! ## What holds in any case -/

/-- The words `ws` are on rows, and the part `u` of the word under way. -/
structure Base (c : Call) (text : List UInt8) (ws : List (List UInt8)) (u : List UInt8) (s : Loop)
    (rows : List (List UInt8)) : Prop where
  read : words isBlank text =
    ws ++ if s.word = [] then words isBlank s.p else (u ++ s.word) :: words isBlank s.p
  marked : marks isBlank (rows.flatten ++ s.cur) = ws.flatten ++ u
  idle : s.word = [] → u = []
  plain : ∀ b ∈ s.word, isBlank b = false
  empty : s.rowEmpty = true → s.cur = []
  begun : s.rowEmpty = false → s.cur ≠ [] ∧ s.cur.length ≤ maxBody c
  /-- The rest of a word goes on the next row. -/
  full : s.rowEmpty = false → u ≠ [] → maxBody c ≤ s.cur.length
  stored : ∀ b ∈ rows, b.length ≤ maxBody c

/-- A word and its part `u`, when `k` more characters of the rest are placed. -/
inductive Moved (ws : List (List UInt8)) (u word : List UInt8) (k : Nat) :
    List (List UInt8) → List UInt8 → Prop
  | whole (all : word.length ≤ k) : Moved ws u word k (ws ++ [u ++ word]) []
  | part (some : 0 < k) (rest : k < word.length) : Moved ws u word k ws (u ++ word.take k)

variable {ws ws' : List (List UInt8)} {u u' : List UInt8} {k : Nat}

/-- Part of a word goes to the row. -/
theorem exists_moved {word : List UInt8} (some : 0 < k) : ∃ ws' u', Moved ws u word k ws' u' := by
  by_cases all : word.length ≤ k
  · exact ⟨_, _, .whole all⟩
  · exact ⟨_, _, .part some (by omega)⟩

/-- Nothing of the word is lost. -/
theorem Moved.flatten {word : List UInt8} (moved : Moved ws u word k ws' u') :
    ws'.flatten ++ u' = ws.flatten ++ u ++ word.take k := by
  cases moved with
  | whole all =>
    rw [List.take_of_length_le all, List.flatten_append, List.flatten_singleton, List.append_nil,
      List.append_assoc]
  | part some rest => rw [List.append_assoc]

/-- A word that is all placed is done with. -/
theorem Moved.idle {word : List UInt8} (moved : Moved ws u word k ws' u') (none : word.drop k = []) :
    u' = [] := by
  cases moved with
  | whole all => rfl
  | part some rest =>
    have length := congrArg List.length none
    rw [List.length_drop, List.length_nil] at length
    omega

/-- The words that are read are the words of the text. -/
theorem Moved.read {word : List UInt8} {rest : List (List UInt8)} (moved : Moved ws u word k ws' u') :
    ws ++ (u ++ word) :: rest = ws' ++ if word.drop k = [] then rest else (u' ++ word.drop k) :: rest := by
  cases moved with
  | whole all => rw [List.drop_of_length_le all, if_pos rfl, List.append_assoc, List.singleton_append]
  | part some left =>
    have more : word.drop k ≠ [] := by
      rw [Ne, List.drop_eq_nil_iff]
      omega
    rw [if_neg more, List.append_assoc, List.take_append_drop]

/-- A part that is placed belongs to the same word. -/
theorem Moved.word {word : List UInt8} (moved : Moved ws u word k ws' u') (some : u' ≠ []) :
    k < word.length ∧ u' ++ word.drop k = u ++ word := by
  cases moved with
  | whole all => exact absurd rfl some
  | part positive rest =>
    rw [List.append_assoc, List.take_append_drop]
    exact ⟨rest, rfl⟩

/-- A row that is begun has no room when a part of the word is on it, so what it takes begins a word. -/
theorem Base.first (base : Base c text ws u s rows) (begun : s.rowEmpty = false) (some : 0 < room c s) :
    u = [] := by
  by_contra more
  have full := base.full begun more
  rw [room, begun] at some
  omega

/-- What is accepted fits. -/
theorem length_accepted (base : Base c text ws u s rows) (some : 0 < takeLen c s) :
    (candidate s (takeLen c s)).length ≤ maxBody c ∧
      (takeLen c s < s.word.length → (candidate s (takeLen c s)).length = maxBody c) := by
  have used : (if s.rowEmpty then 0 else s.cur.length + 1) = s.cur.length + if s.rowEmpty then 0 else 1 := by
    split_ifs with empty
    · rw [base.empty empty, List.length_nil]
    · rfl
  rw [length_candidate, used]
  rw [takeLen, room] at *
  omega

/-- The text on the rows when a piece is taken. -/
theorem flat_accepted (base : Base c text ws u s rows) :
    rows.flatten ++ candidate s k =
      (rows.flatten ++ s.cur ++ if s.rowEmpty then [] else [32]) ++ s.word.take k := by
  rw [candidate]
  split_ifs with empty
  · rw [base.empty empty, List.append_nil, List.append_nil]
  · rw [List.append_assoc, List.append_assoc]
    rfl

/-! ## What holds as long as no turn goes wrong -/

/-- A row with this body is not too wide. -/
def Narrow (c : Call) (b : List UInt8) : Prop := c.measure (margin c ++ b) ≤ c.maxw ∨ b.length = 1

/-- Behind the first rows no word is cut that fits on one row. -/
def Whole (c : Call) (text : List UInt8) (rows : List (List UInt8)) : Prop :=
  ∀ before behind, rows = before ++ behind →
    ¬ Within (FitsAlone c) (words isBlank text) (marks isBlank before.flatten).length

structure Good (c : Call) (text : List UInt8) (u : List UInt8) (s : Loop) (rows : List (List UInt8)) :
    Prop where
  /-- Only a word that does not fit on a row is placed in parts. -/
  unfit : u ≠ [] → ¬ FitsAlone c (u ++ s.word)
  apart : Apart isBlank (words isBlank text) (rows.flatten ++ s.cur)
  begun : s.rowEmpty = false → Narrow c s.cur
  stored : ∀ b ∈ rows, Narrow c b
  whole : Whole c text rows

/-- One more row that is not the last. -/
theorem Whole.append {b : List UInt8} (whole : Whole c text rows)
    (last : ¬ Within (FitsAlone c) (words isBlank text) (marks isBlank (rows ++ [b]).flatten).length) :
    Whole c text (rows ++ [b]) := by
  intro before behind parts
  obtain ⟨mid, left, right⟩ | ⟨mid, left, right⟩ := List.append_eq_append_iff.mp parts
  · -- the new row is in front of the place, or behind it
    cases mid with
    | nil =>
      rw [left, List.append_nil]
      exact whole rows [] (List.append_nil _).symm
    | cons v mid =>
      obtain ⟨rfl, none⟩ := List.cons.inj right
      obtain ⟨rfl, -⟩ := List.append_eq_nil_iff.mp none.symm
      rw [left]
      exact last
  · exact whole before mid left

/-- Where the text on the rows ends, no word ends early that fits on a row. -/
theorem Base.not_within (base : Base c text ws u s rows) (unfit : u ≠ [] → ¬ FitsAlone c (u ++ s.word)) :
    ¬ Within (FitsAlone c) (words isBlank text) (ws.flatten ++ u).length := by
  by_cases none : u = []
  · rw [none, List.append_nil, base.read]
    exact not_within_border _ _
  · have busy : s.word ≠ [] := fun idle => none (base.idle idle)
    have some := List.length_pos_iff.mpr none
    have rest := List.length_pos_iff.mpr busy
    rw [base.read, if_neg busy, List.length_append, within_iff (by omega)]
    · exact unfit none
    · rw [List.length_append]
      omega

/-! ## One turn -/

/-- A quiet turn breaks no word that would fit. -/
theorem narrow_of_quiet (quiet : ¬ Slips c s) (busy : s.word ≠ []) (some : placed c s ≠ []) :
    Narrow c (placed c s) := by
  have length := List.length_pos_iff.mpr some
  by_contra wide
  rw [Narrow, not_or] at wide
  exact quiet ⟨busy, .inr ⟨by omega, by omega⟩⟩

section
variable (base : Base c text ws u s rows)
include base

/-- The next word is read. -/
theorem base_read (idle : s.word = []) (more : s.p.dropWhile isBlank ≠ []) :
    Base c text ws u { s with word := (s.p.dropWhile isBlank).takeWhile fun c => !isBlank c
                              p := (s.p.dropWhile isBlank).dropWhile fun c => !isBlank c } rows := by
  have some := takeWhile_ne_nil more
  have none := base.idle idle
  have plain : ∀ b ∈ (s.p.dropWhile isBlank).takeWhile fun c => !isBlank c, isBlank b = false := by
    intro b mem
    exact (Bool.not_eq_true' _).mp (List.mem_takeWhile_imp (p := fun c => !isBlank c) mem)
  have stop : ∀ b ∈ ((s.p.dropWhile isBlank).dropWhile fun c => !isBlank c).head?, isBlank b = true := by
    intro b head
    have first := List.head?_dropWhile_not (fun c => !isBlank c) (s.p.dropWhile isBlank)
    rw [Option.mem_def.mp head] at first
    exact (Bool.not_eq_false' _).mp first
  have next := words_run some plain stop
  rw [List.takeWhile_append_dropWhile, words_dropWhile] at next
  exact
    { base with
      read := by
        rw [base.read, if_pos idle, if_neg some, none, List.nil_append, next]
      idle := fun contrary => absurd contrary some
      plain := plain }

/-- A piece of the word goes on the row under way or on one of its own. -/
theorem base_accept (busy : s.word ≠ []) (accepts : Accepts c s)
    (moved : Moved ws u s.word (takeLen c s) ws' u') :
    Base c text ws' u'
      { s with cur := candidate s (takeLen c s)
               rowEmpty := false
               word := s.word.drop (takeLen c s) } rows := by
  have some := accepts.1
  obtain ⟨inside, fills⟩ := length_accepted base some
  have taken : ∀ b ∈ s.word.take (takeLen c s), isBlank b = false := fun b mem =>
    base.plain b (List.mem_of_mem_take mem)
  refine
    { read := ?_
      marked := ?_
      idle := moved.idle
      plain := fun b mem => base.plain b (List.mem_of_mem_drop mem)
      empty := nofun
      begun := fun _ => ⟨?_, inside⟩
      full := fun _ more => (fills (moved.word more).1).ge
      stored := base.stored }
  · rw [base.read, if_neg busy]
    exact moved.read
  · rw [moved.flatten, ← base.marked, flat_accepted base, marks_append, marks_append, marks_append,
      marks_plain taken]
    split_ifs
    · rw [marks_nil, List.append_nil]
    · rw [marks_blank rfl, marks_nil, List.append_nil]
  · have nonempty : 0 < (candidate s (takeLen c s)).length := by
      have rest := List.length_pos_iff.mpr busy
      rw [length_candidate]
      omega
    exact List.length_pos_iff.mp nonempty

/-- A row is full. -/
theorem base_flush (begun : s.rowEmpty = false) :
    Base c text ws u { s with cur := [], rowEmpty := true } (rows ++ [s.cur]) := by
  refine { base with marked := ?_, empty := fun _ => rfl, begun := nofun, full := nofun, stored := ?_ }
  · rw [List.append_nil, List.flatten_append, List.flatten_singleton]
    exact base.marked
  · intro b mem
    rcases List.mem_append.mp mem with old | new
    · exact base.stored b old
    · rw [List.mem_singleton.mp new]
      exact (base.begun begun).2

/-- A long word is broken. -/
theorem base_split (short : c.indent.length ≤ 94) (busy : s.word ≠ []) (empty : s.rowEmpty = true)
    (moved : Moved ws u s.word (pixelFit c s.word (takeLen c s)) ws' u') :
    Base c text ws' u' { s with word := s.word.drop (pixelFit c s.word (takeLen c s)) }
      (rows ++ [s.word.take (pixelFit c s.word (takeLen c s))]) := by
  have none := base.empty empty
  have taken : ∀ b ∈ s.word.take (pixelFit c s.word (takeLen c s)), isBlank b = false := fun b mem =>
    base.plain b (List.mem_of_mem_take mem)
  refine
    { read := ?_
      marked := ?_
      idle := moved.idle
      plain := fun b mem => base.plain b (List.mem_of_mem_drop mem)
      empty := base.empty
      begun := fun begun => by rw [empty] at begun; cases begun
      full := fun begun => by rw [empty] at begun; cases begun
      stored := ?_ }
  · rw [base.read, if_neg busy]
    exact moved.read
  · have marked := base.marked
    rw [none, List.append_nil] at marked
    rw [none, List.append_nil, moved.flatten, ← marked, List.flatten_append, List.flatten_singleton,
      marks_append, marks_plain taken]
  · intro b mem
    rcases List.mem_append.mp mem with old | new
    · exact base.stored b old
    · have bound := pixelFit_le (c := c) s.word (takeLen c s)
      have one := maxBody_pos short
      rw [List.mem_singleton.mp new, List.length_take]
      have room : takeLen c s ≤ maxBody c := (min_le_right _ _).trans (Nat.sub_le _ _)
      omega

/-- The next word is read, and all is well. -/
theorem good_read (good : Good c text u s rows) (idle : s.word = []) {p word : List UInt8} :
    Good c text u { s with word := word, p := p } rows :=
  { unfit := fun some => absurd (base.idle idle) some
    apart := good.apart
    begun := good.begun
    stored := good.stored
    whole := good.whole }

/-- The part of a word that a turn begins shows that it does not fit on a row. -/
theorem unfit_accept (good : Good c text u s rows) (quiet : ¬ Slips c s) (short : c.indent.length ≤ 94)
    (busy : s.word ≠ []) (accepts : Accepts c s) (rest : takeLen c s < s.word.length) :
    ¬ FitsAlone c (u ++ s.word) := by
  by_cases none : u = []
  · rw [none, List.nil_append]
    intro fits
    have limited : takeLen c s = room c s := by
      rw [takeLen] at rest ⊢
      omega
    cases empty : s.rowEmpty with
    | true =>
      -- the whole row is too short for the word
      have characters := fits.1
      rw [limited, room, empty, base.empty empty, maxBody_eq short, if_pos rfl, List.length_nil] at rest
      omega
    | false =>
      have positive := accepts.1
      have taken := accepts.2
      rw [limited] at rest positive taken
      exact quiet ⟨busy, .inl ⟨empty, positive, rest, taken, fits⟩⟩
  · exact good.unfit none

/-- A word is placed, and all is well. -/
theorem good_accept (good : Good c text u s rows) (quiet : ¬ Slips c s) (short : c.indent.length ≤ 94)
    (busy : s.word ≠ []) (accepts : Accepts c s) (moved : Moved ws u s.word (takeLen c s) ws' u') :
    Good c text u'
      { s with cur := candidate s (takeLen c s)
               rowEmpty := false
               word := s.word.drop (takeLen c s) } rows := by
  have here : placed c s = candidate s (takeLen c s) := if_pos accepts
  have taken : ∀ b ∈ s.word.take (takeLen c s), isBlank b = false := fun b mem =>
    base.plain b (List.mem_of_mem_take mem)
  refine
    { unfit := fun more => ?_
      apart := ?_
      begun := fun _ => ?_
      stored := good.stored
      whole := good.whole }
  · obtain ⟨rest, same⟩ := moved.word more
    rw [same]
    exact unfit_accept base good quiet short busy accepts rest
  · show Apart isBlank (words isBlank text) (rows.flatten ++ candidate s (takeLen c s))
    rw [flat_accepted base]
    refine Apart.append ?_ taken
    split_ifs with empty
    · rw [List.append_nil]
      exact good.apart
    · -- the blank stands behind whole words
      have none := base.first (Bool.eq_false_iff.mpr empty) (accepts.1.trans_le (min_le_right _ _))
      refine good.apart.gap ?_
      rw [base.marked, none, List.append_nil, base.read]
      exact not_within_border _ _
  · have some := (base_accept base busy accepts moved).begun rfl
    show Narrow c (candidate s (takeLen c s))
    rw [← here]
    refine narrow_of_quiet quiet busy ?_
    rw [here]
    exact some.1

/-- A row is full, and all is well. -/
theorem good_flush (good : Good c text u s rows) (begun : s.rowEmpty = false) :
    Good c text u { s with cur := [], rowEmpty := true } (rows ++ [s.cur]) := by
  have flat : (rows ++ [s.cur]).flatten = rows.flatten ++ s.cur := by
    rw [List.flatten_append, List.flatten_singleton]
  refine
    { unfit := good.unfit
      apart := ?_
      begun := nofun
      stored := ?_
      whole := good.whole.append ?_ }
  · rw [List.append_nil, flat]
    exact good.apart
  · intro b mem
    rcases List.mem_append.mp mem with old | new
    · exact good.stored b old
    · rw [List.mem_singleton.mp new]
      exact good.begun begun
  · rw [flat, base.marked]
    exact base.not_within good.unfit

/-- A word that is split at the pixels of a row of its own does not fit on it. -/
theorem unfit_split (good : Good c text u s rows) (short : c.indent.length ≤ 94) (busy : s.word ≠ [])
    (wide : ¬ Accepts c s) (empty : s.rowEmpty = true) : ¬ FitsAlone c (u ++ s.word) := by
  by_cases none : u = []
  · rw [none, List.nil_append]
    intro fits
    have characters := fits.1
    have some := List.length_pos_iff.mpr busy
    have all : takeLen c s = s.word.length := by
      rw [takeLen, room, empty, base.empty empty, maxBody_eq short, if_pos rfl, List.length_nil]
      omega
    refine wide ⟨by omega, ?_⟩
    rw [all, candidate, empty, if_pos rfl, List.take_length]
    exact fits.fits short
  · exact good.unfit none

/-- A long word is broken, and all is well. -/
theorem good_split (good : Good c text u s rows) (quiet : ¬ Slips c s) (short : c.indent.length ≤ 94)
    (busy : s.word ≠ []) (wide : ¬ Accepts c s) (empty : s.rowEmpty = true)
    (moved : Moved ws u s.word (pixelFit c s.word (takeLen c s)) ws' u') :
    Good c text u' { s with word := s.word.drop (pixelFit c s.word (takeLen c s)) }
      (rows ++ [s.word.take (pixelFit c s.word (takeLen c s))]) := by
  have here : placed c s = s.word.take (pixelFit c s.word (takeLen c s)) := by
    rw [placed, if_neg wide, if_pos empty]
  have after := base_split base short busy empty moved
  have none := base.empty empty
  have unfit : u' ≠ [] → ¬ FitsAlone c (u' ++ s.word.drop (pixelFit c s.word (takeLen c s))) := by
    intro more
    rw [(moved.word more).2]
    exact unfit_split base good short busy wide empty
  have apart := good.apart
  refine
    { unfit := unfit
      apart := ?_
      begun := fun begun => by rw [empty] at begun; cases begun
      stored := ?_
      whole := good.whole.append ?_ }
  · show Apart isBlank (words isBlank text) ((rows ++ [_]).flatten ++ s.cur)
    rw [none, List.append_nil] at apart ⊢
    rw [List.flatten_append, List.flatten_singleton]
    exact apart.append fun b mem => base.plain b (List.mem_of_mem_take mem)
  · intro b mem
    rcases List.mem_append.mp mem with old | new
    · exact good.stored b old
    · rw [List.mem_singleton.mp new, ← here]
      refine narrow_of_quiet quiet busy ?_
      have positive := pixelFit_pos (c := c) s.word (takeLen c s)
      have some := List.length_pos_iff.mpr busy
      rw [here, ← List.length_pos_iff, List.length_take]
      omega
  · have marked := after.marked
    have place := after.not_within unfit
    rw [show ({ s with word := s.word.drop (pixelFit c s.word (takeLen c s)) } : Loop).cur = s.cur from rfl,
      none, List.append_nil] at marked
    rw [marked]
    exact place

end

/-! ## The run -/

/-- What is stored before a turn and after it is what is stored in all. -/
theorem bodies_of_reached (reached : Reached c text s rows) :
    bodies c (start text) = rows ++ bodies c s := by
  induction reached with
  | first => rfl
  | next _ step ih => rw [ih, bodies_turn step, List.append_assoc]

/-- Nothing has been read. -/
theorem base_start : Base c text [] [] (start text) [] :=
  { read := rfl
    marked := rfl
    idle := fun _ => rfl
    plain := nofun
    empty := fun _ => rfl
    begun := nofun
    full := nofun
    stored := nofun }

/-- And all is well. -/
theorem good_start : Good c text [] (start text) [] := by
  refine
    { unfit := fun some => absurd rfl some
      apart := apart_nil
      begun := nofun
      stored := nofun
      whole := fun before behind parts => ?_ }
  obtain ⟨rfl, -⟩ := List.append_eq_nil_iff.mp parts.symm
  exact not_within_border [] _

/-- `Base` holds wherever the loops get, and `Good` when no turn on the way goes wrong. -/
theorem base_of_reached (short : c.indent.length ≤ 94) (reached : Reached c text s rows) :
    ∃ ws u, Base c text ws u s rows ∧
      ((∀ s rows, Reached c text s rows → ¬ Slips c s) → Good c text u s rows) := by
  induction reached with
  | first => exact ⟨_, _, base_start, fun _ => good_start⟩
  | @next s s' row rows reached step ih =>
    obtain ⟨ws, u, base, good⟩ := ih
    cases turned step with
    | read idle more =>
      rw [Option.toList_none, List.append_nil]
      exact ⟨ws, u, base_read base idle more, fun quiet => good_read base (good quiet) idle⟩
    | accept busy accepts =>
      obtain ⟨ws', u', moved⟩ : ∃ ws' u', Moved ws u s.word _ ws' u' := exists_moved accepts.1
      rw [Option.toList_none, List.append_nil]
      exact ⟨ws', u', base_accept base busy accepts moved, fun quiet =>
        good_accept base (good quiet) (quiet _ _ reached) short busy accepts moved⟩
    | flush busy wide begun =>
      exact ⟨ws, u, base_flush base begun, fun quiet => good_flush base (good quiet) begun⟩
    | split busy wide empty =>
      have positive := pixelFit_pos (c := c) s.word (takeLen c s)
      obtain ⟨ws', u', moved⟩ : ∃ ws' u', Moved ws u s.word _ ws' u' := exists_moved positive
      exact ⟨ws', u', base_split base short busy empty moved, fun quiet =>
        good_split base (good quiet) (quiet _ _ reached) short busy wide empty moved⟩

/-- The loops come to an end. -/
theorem exists_end (reached : Reached c text s rows) :
    ∃ s rows, Reached c text s rows ∧ turn c s = none := by
  induction bound : weight s using Nat.strong_induction_on generalizing s rows with
  | _ n ih =>
    cases step : turn c s with
    | none => exact ⟨s, rows, reached, step⟩
    | some next =>
      have less := (weight_turned (turned step)).2
      exact ih _ (bound ▸ less) (reached.next step) rfl

section
variable (short : c.indent.length ≤ 94)
include short

/-- Every row fits its buffer. -/
theorem stored_le (b : List UInt8) (mem : b ∈ bodies c (start text)) : b.length ≤ maxBody c := by
  have begun : Reached c text (start text) [] := .first
  obtain ⟨s, rows, reached, done⟩ := exists_end begun
  obtain ⟨ws, u, base, -⟩ := base_of_reached short reached
  rw [bodies_of_reached reached, bodies_end done] at mem
  rcases List.mem_append.mp mem with old | last
  · exact base.stored b old
  · rw [lastRow] at last
    split_ifs at last with begun
    · rw [List.mem_singleton.mp last]
      exact (base.begun begun.1).2
    · cases last

/-- The bodies can be read off the rows. -/
theorem map_body {l : List (List UInt8)} (le : ∀ b ∈ l, b.length ≤ maxBody c) :
    (l.map (rowText c)).map (body c) = l := by
  rw [List.map_map]
  refine Eq.trans (List.map_congr_left fun b mem => ?_) (List.map_id l)
  exact body_rowText short (le b mem)

/-- Where the loops end, everything is on rows. -/
theorem wrapped_of_quiet (quiet : ∀ s rows, Reached c text s rows → ¬ Slips c s) :
    Wrapped c text ((bodies c (start text)).map (rowText c)) := by
  have le : ∀ b ∈ bodies c (start text), b.length ≤ maxBody c := stored_le short
  have all := map_body short le
  have begun : Reached c text (start text) [] := .first
  -- The loops end, and at the end no word is in hand.
  obtain ⟨s, rows, reached, done⟩ := exists_end begun
  obtain ⟨ws, u, base, good⟩ := base_of_reached short reached
  replace good := good quiet
  obtain ⟨idle, nothing⟩ := turn_none done
  have none := base.idle idle
  have read : words isBlank text = ws := by
    rw [base.read, if_pos idle, ← words_dropWhile, nothing, words_nil, List.append_nil]
  have here := bodies_of_reached reached
  rw [bodies_end done] at here
  -- The rows stored and the last one are all that was read.
  have flat : (bodies c (start text)).flatten = rows.flatten ++ s.cur := by
    rw [here, lastRow, List.flatten_append]
    split_ifs with begun
    · rw [Option.toList_some, List.flatten_singleton]
    · cases empty : s.rowEmpty with
      | true => rw [base.empty empty, Option.toList_none, List.flatten_nil]
      | false => exact absurd ⟨empty, (base.begun empty).1⟩ begun
  have marked := base.marked
  rw [← flat, none, List.append_nil, ← read] at marked
  have narrow : ∀ b ∈ bodies c (start text), Narrow c b := by
    intro b mem
    rw [here] at mem
    rcases List.mem_append.mp mem with old | last
    · exact good.stored b old
    · rw [lastRow] at last
      split_ifs at last with begun
      · rw [List.mem_singleton.mp last]
        exact good.begun begun.1
      · cases last
  -- A word that stands on two rows would be one that no row has room for.
  have whole : Whole c text (bodies c (start text)) := by
    rw [here, lastRow]
    split_ifs with begun
    · refine good.whole.append ?_
      rw [List.flatten_append, List.flatten_singleton, base.marked]
      exact base.not_within good.unfit
    · rw [Option.toList_none, List.append_nil]
      exact good.whole
  refine
    { lossless := ?_
      apart := ?_
      short := ?_
      narrow := ?_
      undivided := ?_ }
  · rw [all, marked, flatten_words]
  · rw [all, flat]
    exact good.apart
  · intro row mem
    obtain ⟨b, stored, rfl⟩ := List.mem_map.mp mem
    have bound := le b stored
    rw [maxBody_eq short] at bound
    rw [rowText_eq short (le b stored), List.length_append]
    omega
  · intro row mem
    obtain ⟨b, stored, rfl⟩ := List.mem_map.mp mem
    rw [body_rowText short (le b stored), rowText_eq short (le b stored), ← margin_eq short]
    exact narrow b stored
  · intro before behind parts
    obtain ⟨l₁, l₂, same, rfl, rfl⟩ := List.map_eq_append_iff.mp parts
    have le₁ : ∀ b ∈ l₁, b.length ≤ maxBody c := fun b mem =>
      le b (by rw [same]; exact List.mem_append_left _ mem)
    rw [map_body short le₁]
    exact whole l₁ l₂ same

end

/-! ## When a turn goes wrong -/

/-- A word that fits is placed. -/
theorem turn_accept (busy : s.word ≠ []) (accepts : Accepts c s) :
    turn c s = some ({ s with cur := candidate s (takeLen c s)
                              rowEmpty := false
                              word := s.word.drop (takeLen c s) }, none) := by
  rw [turn, if_neg busy, place]
  dsimp only
  rw [if_pos accepts]

/-- A word that does not fit ends the row. -/
theorem turn_flush (busy : s.word ≠ []) (wide : ¬ Accepts c s) (begun : s.rowEmpty = false) :
    turn c s = some ({ s with cur := [], rowEmpty := true }, some s.cur) := by
  rw [turn, if_neg busy, place]
  dsimp only
  rw [if_neg wide, if_pos begun]

/-- A row that is begun is stored with what it holds. -/
theorem carried (begun : s.rowEmpty = false) (some : s.cur ≠ []) : ∃ b ∈ bodies c s, s.cur <+: b := by
  induction bound : weight s using Nat.strong_induction_on generalizing s with
  | _ n ih =>
    cases step : turn c s with
    | none =>
      refine ⟨s.cur, ?_, List.prefix_rfl⟩
      rw [bodies_end step, lastRow, if_pos ⟨begun, some⟩]
      exact List.mem_singleton_self _
    | some next =>
      obtain ⟨s', row⟩ := next
      have less := (weight_turned (turned step)).2
      rw [bodies_turn step]
      cases turned step with
      | read idle more => exact ih _ (bound ▸ less) begun some rfl
      | accept busy accepts =>
        have longer : candidate s (takeLen c s) = s.cur ++ 32 :: s.word.take (takeLen c s) :=
          if_neg (by rw [begun]; decide)
        have nonempty : candidate s (takeLen c s) ≠ [] := by
          rw [longer]
          exact List.append_ne_nil_of_left_ne_nil some _
        obtain ⟨b, mem, kept⟩ := ih _ (bound ▸ less) rfl nonempty rfl
        refine ⟨b, mem, List.IsPrefix.trans ?_ kept⟩
        show s.cur <+: candidate s (takeLen c s)
        rw [longer]
        exact List.prefix_append _ _
      | flush busy wide begun => exact ⟨s.cur, List.mem_cons_self, List.prefix_rfl⟩
      | split busy wide empty =>
        rw [empty] at begun
        cases begun

section
variable (short : c.indent.length ≤ 94)
include short

/-- A word that is cut stands on two rows. -/
theorem not_wrapped_of_cuts (reached : Reached c text s rows) (busy : s.word ≠ []) (cuts : Cuts c s) :
    ¬ Wrapped c text ((bodies c (start text)).map (rowText c)) := by
  obtain ⟨begun, some, rest, taken, fits⟩ := cuts
  obtain ⟨ws, u, base, -⟩ := base_of_reached short reached
  have none := base.first begun some
  have limited : takeLen c s = room c s := min_eq_right rest.le
  have accepts : Accepts c s := by
    rw [Accepts, limited]
    exact ⟨some, taken⟩
  have moved : Moved ws u s.word (takeLen c s) ws (u ++ s.word.take (takeLen c s)) :=
    .part accepts.1 (limited ▸ rest)
  have after := base_accept base busy accepts moved
  have step := turn_accept busy accepts
  -- the row is full, so it ends within the word
  have more : s.word.drop (takeLen c s) ≠ [] := by
    rw [Ne, List.drop_eq_nil_iff]
    omega
  have full : ¬ Accepts c { s with cur := candidate s (takeLen c s)
                                   rowEmpty := false
                                   word := s.word.drop (takeLen c s) } := by
    rintro ⟨positive, -⟩
    have begins := after.first rfl (positive.trans_le (min_le_right _ _))
    have length := congrArg List.length begins
    rw [List.length_append, List.length_take, List.length_nil] at length
    omega
  have ends := turn_flush more full rfl
  have stored := bodies_of_reached ((reached.next step).next ends)
  intro wrapped
  rw [Option.toList_none, List.append_nil, Option.toList_some] at stored
  have place := wrapped.undivided _ _ (by rw [stored, List.map_append])
  have le := (base_flush after rfl).stored
  have marked := after.marked
  rw [map_body short le, List.flatten_append, List.flatten_singleton, marked, base.read, if_neg busy, none,
    List.nil_append, List.nil_append, List.length_append, List.length_take, within_iff (by omega) (by omega)]
    at place
  exact place fits

/-- A row that is too wide stays so. -/
theorem not_wrapped_of_tooWide (mono : ∀ l m, c.measure l ≤ c.measure (l ++ m))
    (reached : Reached c text s rows) (busy : s.word ≠ []) (wide : TooWide c s) :
    ¬ Wrapped c text ((bodies c (start text)).map (rowText c)) := by
  obtain ⟨more, exceeds⟩ := wide
  have le : ∀ b ∈ bodies c (start text), b.length ≤ maxBody c := stored_le short
  have stays : ∃ b ∈ bodies c s, placed c s <+: b := by
    by_cases accepts : Accepts c s
    · have here : placed c s = candidate s (takeLen c s) := if_pos accepts
      have step := turn_accept busy accepts
      rw [here] at more ⊢
      have some : 0 < (candidate s (takeLen c s)).length := by omega
      rw [bodies_turn step]
      exact carried rfl (List.length_pos_iff.mp some)
    · rw [placed, if_neg accepts] at more ⊢
      split_ifs at more ⊢ with empty
      · cases step : turn c s with
        | none => exact absurd (turn_none step).1 busy
        | some next =>
          obtain ⟨s', row⟩ := next
          rw [bodies_turn step]
          cases turned step with
          | read idle more => exact absurd idle busy
          | accept busy accepts' => exact absurd accepts' accepts
          | flush busy wide begun =>
            rw [empty] at begun
            cases begun
          | split busy wide empty => exact ⟨_, List.mem_cons_self, List.prefix_rfl⟩
      · exact absurd more (by decide)
  obtain ⟨b, mem, rest, rfl⟩ := stays
  have stored : placed c s ++ rest ∈ bodies c (start text) := by
    rw [bodies_of_reached reached]
    exact List.mem_append_right _ mem
  intro wrapped
  have narrow := wrapped.narrow _ (List.mem_map_of_mem stored)
  rw [body_rowText short (le _ stored), rowText_eq short (le _ stored), ← List.append_assoc,
    List.length_append] at narrow
  have wider := mono (c.indent ++ placed c s) rest
  rw [margin_eq short] at exceeds
  omega

end

end Wrap

end Tolunnet
