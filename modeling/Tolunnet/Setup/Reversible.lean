import Tolunnet.Setup.Scripts

/-!
# `Tolunnet.Setup.Reversible`: disabling and restoring lines

A disabled line begins with `;`, so it is not a stack line any more, and it begins with the prefix, so
the other parser finds it. On a script without disabled lines the two parsers are inverse to each other,
and a line that neither of them changes can be replaced in between (`disable_reversible`).
-/

set_option autoImplicit false

namespace Tolunnet

namespace Stack

open Segments

namespace Parser

variable {q : Parser} {line l pre post text t : List Char}

/-! ## Lines -/

/-- The end of a line is put back. -/
theorem splitCr_append (line : List Char) :
    (splitCr line).1 ++ (if (splitCr line).2 then ['\r'] else []) = line := by
  unfold splitCr
  split
  · rename_i last
    obtain ⟨init, rfl⟩ := List.getLast?_eq_some_iff.mp last
    simp
  · simp

/-- The carriage return is the one of the last part. -/
theorem splitCr_of_append (front : List Char) (some : line ≠ []) :
    splitCr (front ++ line) = (front ++ (splitCr line).1, (splitCr line).2) := by
  unfold splitCr
  rw [List.getLast?_append_of_ne_nil _ some]
  split
  · rw [List.dropLast_append_of_ne_nil some]
  · rfl

/-- A line that begins with `;` is no stack line. -/
theorem not_stack_of_disabled (body : List Char) :
    isStackKeywordSlice (disabledPrefix ++ body) = false := by
  have head : disabledPrefix ++ body = ';' :: (" tolunnet-disabled: ".toList ++ body) := rfl
  have stays : (';' :: (" tolunnet-disabled: ".toList ++ body)).dropWhile isSpace =
      ';' :: (" tolunnet-disabled: ".toList ++ body) := rfl
  rw [head, isStackKeywordSlice, stays]
  simp

/-- What disabling makes of a line. -/
theorem changeText_disable (line : List Char) : disable.changeText line =
    if isStackKeywordSlice (splitCr line).1 then disabledPrefix ++ line else line := by
  have whole := splitCr_append line
  unfold changeText
  unfold change disableLine
  dsimp only
  split
  · simp only [List.flatten_cons, List.flatten_nil, List.append_nil, List.append_assoc, whole]
  · simpa using whole

/-- The lines that are disabled. -/
theorem affects_disable (line : List Char) :
    disable.affects line = isStackKeywordSlice (splitCr line).1 := by
  unfold affects
  unfold change disableLine
  dsimp only
  split
  · rename_i stack
    exact stack.symm
  · rename_i other
    simpa using other

/-- A line that starts a stack is not empty. -/
theorem ne_nil_of_stack (h : isStackKeywordSlice (splitCr line).1 = true) : line ≠ [] := by
  rintro rfl
  exact absurd h (by decide)

/-- A line that does not begin with the prefix is not restored. -/
theorem restoreLine_of_fresh (fresh : ¬ disabledPrefix <+: line) :
    restoreLine (splitCr line).1 = ([(splitCr line).1], false) := by
  rw [restoreLine, if_neg]
  intro begins
  refine fresh ((List.isPrefixOf_iff_prefix.mp begins).trans ?_)
  exact ⟨_, splitCr_append line⟩

/-- A line without the mark is not restored. -/
theorem changeText_restore_of_fresh (fresh : ¬ disabledPrefix <+: line) :
    restore.changeText line = line ∧ restore.affects line = false := by
  have same : restore.change (splitCr line).1 = ([(splitCr line).1], false) :=
    restoreLine_of_fresh fresh
  unfold changeText affects
  rw [same]
  exact ⟨by simpa using splitCr_append line, rfl⟩

/-- A disabled line is restored. -/
theorem changeText_restore_disabled (some : line ≠ []) :
    restore.changeText (disabledPrefix ++ line) = line ∧
      restore.affects (disabledPrefix ++ line) = true := by
  have back : restore.change (disabledPrefix ++ (splitCr line).1) = ([(splitCr line).1], true) := by
    show restoreLine _ = _
    rw [restoreLine, if_pos (by simp), List.drop_left]
  unfold changeText affects
  rw [splitCr_of_append _ some, back]
  exact ⟨by simpa using splitCr_append line, rfl⟩

/-- Restoring undoes disabling. -/
theorem restore_disable_line (fresh : ¬ disabledPrefix <+: line) :
    restore.changeText (disable.changeText line) = line ∧
      restore.affects (disable.changeText line) = disable.affects line := by
  rw [changeText_disable, affects_disable]
  cases stack : isStackKeywordSlice (splitCr line).1 with
  | true => exact changeText_restore_disabled (ne_nil_of_stack stack)
  | false => exact changeText_restore_of_fresh fresh

/-- Disabling a second time changes nothing. -/
theorem disable_disable_line (line : List Char) :
    disable.changeText (disable.changeText line) = disable.changeText line ∧
      disable.affects (disable.changeText line) = false := by
  have still : isStackKeywordSlice (splitCr (disable.changeText line)).1 = false := by
    rw [changeText_disable]
    cases stack : isStackKeywordSlice (splitCr line).1 with
    | true =>
      rw [if_pos rfl, splitCr_of_append _ (ne_nil_of_stack stack)]
      exact not_stack_of_disabled _
    | false => exact stack
  refine ⟨?_, (affects_disable _).trans still⟩
  rw [changeText_disable (disable.changeText line), still]
  rfl

/-! ## Scripts -/

/-- The lines of a disabled script. -/
theorem segments_disabled (text : List Char) : segments '\n' (disable.complete text) =
    (segments '\n' text).map fun s => { s with text := disable.changeText s.text } := by
  refine segments_join ((formed_segments text).map fun s mem => ?_)
  have notIn := (formed_segments text).forall_not_mem s mem
  have prefix_ : '\n' ∉ disabledPrefix := by decide
  rw [changeText_disable]
  split
  · exact ⟨fun mem => (List.mem_append.mp mem).elim prefix_ notIn, fun some => by simp [some]⟩
  · exact ⟨notIn, id⟩

/-- A character of a line is one of the text. -/
theorem mem_of_mem_segments {s : Segment Char} {c : Char} (mem : s ∈ segments '\n' text)
    (hc : c ∈ s.text) : c ∈ text := by
  have whole : join '\n' (segments '\n' text) = text := join_segments text
  rw [← whole]
  refine List.mem_flatMap.mpr ⟨s, mem, ?_⟩
  rw [Segment.joined_eq]
  exact List.mem_append_left _ hc

/-- Disabling brings no NUL. -/
theorem nul_disabled (nul : '\x00' ∉ text) : '\x00' ∉ disable.complete text := by
  rw [complete_eq]
  intro mem
  obtain ⟨s, there, mem⟩ := List.mem_flatMap.mp mem
  have line : '\x00' ∉ s.text := fun h => nul (mem_of_mem_segments there h)
  have prefix_ : '\x00' ∉ disabledPrefix := by decide
  unfold lineText at mem
  rw [changeText_disable] at mem
  rcases List.mem_append.mp mem with mem | mem
  · split at mem
    · exact (List.mem_append.mp mem).elim prefix_ line
    · exact line mem
  · split at mem
    · exact absurd mem (by decide)
    · cases mem

/-- No line of a script is a disabled line. -/
def Fresh (text : List Char) : Prop := ∀ s ∈ segments '\n' text, ¬ disabledPrefix <+: s.text

/-- Restoring what was disabled gives the text back. -/
theorem restore_disable (fresh : Fresh text) : restore.complete (disable.complete text) = text ∧
    restore.affected (disable.complete text) = disable.affected text := by
  unfold affected
  rw [complete_eq restore, segments_disabled, List.flatMap_map, List.countP_map]
  constructor
  · have lines : (segments '\n' text).flatMap (fun s => restore.lineText
        { s with text := disable.changeText s.text }) =
        (segments '\n' text).flatMap (·.joined '\n') := by
      refine List.flatMap_congr fun s mem => ?_
      rw [lineText, (restore_disable_line (fresh s mem)).1, Segment.joined_eq]
    exact lines.trans (join_segments text)
  · exact List.countP_congr fun s mem => by
      simp [(restore_disable_line (fresh s mem)).2]

/-- Disabling twice is disabling once. -/
theorem disable_disable (text : List Char) :
    disable.complete (disable.complete text) = disable.complete text ∧
      disable.affected (disable.complete text) = 0 := by
  unfold affected
  rw [complete_eq disable (disable.complete text), segments_disabled, List.flatMap_map, List.countP_map]
  constructor
  · rw [complete_eq]
    refine List.flatMap_congr fun s _ => ?_
    rw [lineText, (disable_disable_line s.text).1]
    rfl
  · rw [List.countP_eq_zero]
    intro s _
    simp [(disable_disable_line s.text).2]

/-! ## Lines that are left alone -/

/-- A line that is neither a stack line nor a disabled line. -/
structure Plain (l : List Char) : Prop where
  line : '\n' ∉ l
  nul : '\x00' ∉ l
  command : isStackKeywordSlice (splitCr l).1 = false
  fresh : ¬ disabledPrefix <+: l

/-- A plain line is left alone. -/
theorem Plain.unchanged (h : Plain l) (q : Parser) :
    q.changeText l = l ∧ q.affects l = false := by
  cases q with
  | disable => exact ⟨by rw [changeText_disable, h.command]; rfl, (affects_disable l).trans h.command⟩
  | restore => exact changeText_restore_of_fresh h.fresh

/-- A line stands between two texts when the first ends and the second begins with a newline. -/
structure Around (pre post : List Char) : Prop where
  before : pre = [] ∨ pre.getLast? = some '\n'
  behind : post = [] ∨ post.head? = some '\n'

/-- Lines behind a line feed are lines of their own. -/
theorem segments_append (before : pre = [] ∨ pre.getLast? = some '\n') (text : List Char) :
    segments '\n' (pre ++ text) = segments '\n' pre ++ segments '\n' text := by
  have ended := (formed_segments pre).all_ended (by rwa [join_segments])
  have cut := segments_join_append ended text
  rwa [join_segments] at cut

/-- The empty line is plain. -/
theorem plain_nil : Plain [] := ⟨by decide, by decide, by decide, by decide⟩

/-- A plain line in front of a newline stays. -/
theorem complete_line (h : Plain l) (behind : post = [] ∨ post.head? = some '\n') :
    q.complete (l ++ post) = l ++ q.complete post ∧ q.affected (l ++ post) = q.affected post := by
  obtain ⟨same, quiet⟩ := h.unchanged q
  obtain ⟨same', quiet'⟩ := plain_nil.unchanged q
  unfold affected
  rw [complete_eq, complete_eq]
  cases post with
  | nil =>
    rw [List.append_nil]
    by_cases none : l = []
    · simp [none]
    · simp [segments_line h.line none, lineText, same, quiet]
  | cons c rest =>
    have newline : c = '\n' := by simpa using behind
    subst newline
    have empty : segments '\n' ('\n' :: rest) = ⟨[], true⟩ :: segments '\n' rest :=
      segments_line_append List.not_mem_nil rest
    rw [segments_line_append h.line, empty]
    simp [lineText, same, quiet, same', quiet']

/-- A plain line goes through both parsers as it is. -/
theorem complete_around (around : Around pre post) (h : Plain l) :
    q.complete (pre ++ l ++ post) = q.complete pre ++ l ++ q.complete post ∧
      q.affected (pre ++ l ++ post) = q.affected pre + q.affected post := by
  obtain ⟨line, count⟩ := complete_line (q := q) h around.behind
  have front (text : List Char) : q.complete (pre ++ text) = q.complete pre ++ q.complete text ∧
      q.affected (pre ++ text) = q.affected pre + q.affected text := by
    unfold affected
    rw [complete_eq, complete_eq, complete_eq, segments_append around.before, List.flatMap_append,
      List.countP_append]
    exact ⟨rfl, rfl⟩
  rw [List.append_assoc, (front _).1, (front _).2, line, count, List.append_assoc]
  exact ⟨rfl, rfl⟩

/-! ## The result -/

/-- The loop that disables, with room for its result. -/
theorem run_disable (nul : '\x00' ∉ text) {m : Int} (room : disable.Room text m) (count : Nat) :
    tnParseStartupScript text m count = (disable.complete text, disable.affected text) :=
  run_of_room (q := disable) nul room

/-- The loop that restores, with room for its result. -/
theorem run_restore (nul : '\x00' ∉ text) {m : Int} (room : restore.Room text m) (count : Nat) :
    tnUncommentStartupScript text m count = (restore.complete text, restore.affected text) :=
  run_of_room (q := restore) nul room

/-- A line may be replaced by any other one that is left alone. -/
theorem run_around (q : Parser) (around : Around pre post) (nul : '\x00' ∉ pre ++ post) (h : Plain l)
    {m : Int} (room : q.Room (pre ++ l ++ post) m) (count : Nat) : q.run (pre ++ l ++ post) m count =
      (q.complete pre ++ l ++ q.complete post, q.affected pre + q.affected post) := by
  obtain ⟨text, number⟩ := complete_around (q := q) around h
  have nul : '\x00' ∉ pre ++ l ++ post := by
    simp only [List.mem_append, not_or] at nul ⊢
    exact ⟨⟨nul.1, h.nul⟩, nul.2⟩
  rw [run_of_room nul room, text, number]

/-- Only the other lines can be disabled lines. -/
theorem fresh_around (around : Around pre post) (h : Plain l) :
    Fresh (pre ++ l ++ post) ↔ Fresh pre ∧ Fresh post := by
  have line : Fresh (l ++ post) ↔ Fresh post := by
    unfold Fresh
    cases post with
    | nil =>
      rw [List.append_nil]
      by_cases none : l = []
      · simp [none]
      · simp [segments_line h.line none, h.fresh]
    | cons c rest =>
      have newline : c = '\n' := by simpa using around.behind
      subst newline
      have empty : segments '\n' ('\n' :: rest) = ⟨[], true⟩ :: segments '\n' rest :=
        segments_line_append List.not_mem_nil rest
      rw [segments_line_append h.line, empty]
      simp [h.fresh, plain_nil.fresh]
  rw [← line]
  unfold Fresh
  rw [List.append_assoc, segments_append around.before]
  simp only [List.mem_append, or_imp, forall_and]

/-- A script in which a plain line has been replaced after the others were disabled. -/
theorem restore_edited {l' : List Char} (around : Around pre post) (nul : '\x00' ∉ pre ++ l ++ post)
    (fresh : Fresh (pre ++ l ++ post)) (h : Plain l) (h' : Plain l') {m : Int}
    (room : restore.Room (disable.complete pre ++ l' ++ disable.complete post) m) (count : Nat) :
    tnUncommentStartupScript (disable.complete pre ++ l' ++ disable.complete post) m count =
      (pre ++ l' ++ post, disable.affected (pre ++ l ++ post)) := by
  obtain ⟨edited, number'⟩ := complete_around (q := disable) around h'
  have number := (complete_around (q := disable) around h).2
  have nul' : '\x00' ∉ pre ++ l' ++ post := by
    simp only [List.mem_append, not_or] at nul ⊢
    exact ⟨⟨nul.1.1, h'.nul⟩, nul.2⟩
  have fresh' : Fresh (pre ++ l' ++ post) :=
    (fresh_around around h').mpr ((fresh_around around h).mp fresh)
  obtain ⟨text, count'⟩ := restore_disable fresh'
  rw [← edited] at room ⊢
  rw [run_restore (nul_disabled nul') room, text, count', number', number]

/-- **Disabling is reversible.** On a script without disabled lines, and with room for the results:
restoring undoes disabling and counts the same lines; disabling once more changes nothing; a plain line
may be replaced by another one before either parser runs, and also in between. -/
theorem disable_reversible (text : List Char) (nul : '\x00' ∉ text) (fresh : Fresh text) :
    (∀ m c m' c', disable.Room text m → (text.length : Int) < m' →
      tnUncommentStartupScript (tnParseStartupScript text m c).1 m' c' =
        (text, (tnParseStartupScript text m c).2)) ∧
    (∀ m c m' c', disable.Room text m → disable.Room text m' →
      tnParseStartupScript (tnParseStartupScript text m c).1 m' c' =
        ((tnParseStartupScript text m c).1, 0)) ∧
    (∀ (q : Parser) pre post, Around pre post → '\x00' ∉ pre ++ post → ∃ a b n, ∀ l, Plain l →
      ∀ m c, q.Room (pre ++ l ++ post) m → q.run (pre ++ l ++ post) m c = (a ++ l ++ b, n)) ∧
    (∀ pre l post, text = pre ++ l ++ post → Around pre post → Plain l → ∃ a b n,
      (∀ m c, disable.Room text m → tnParseStartupScript text m c = (a ++ l ++ b, n)) ∧
      ∀ l', Plain l' → ∀ m c, ((pre ++ l' ++ post).length : Int) < m →
        tnUncommentStartupScript (a ++ l' ++ b) m c = (pre ++ l' ++ post, n)) := by
  obtain ⟨back, count⟩ := restore_disable fresh
  obtain ⟨same, none⟩ := disable_disable text
  refine ⟨fun m c m' c' room room' => ?_, fun m c m' c' room room' => ?_, ?_, ?_⟩
  · have room' : restore.Room (disable.complete text) m' := by rwa [Room, back]
    rw [run_disable nul room, run_restore (nul_disabled nul) room', back, count]
  · have room' : disable.Room (disable.complete text) m' := by rwa [Room, same]
    rw [run_disable nul room, run_disable (nul_disabled nul) room', same, none]
  -- what becomes of the lines around it does not depend on a plain line
  · intro q pre post around nul
    exact ⟨_, _, _, fun l h m c room => run_around q around nul h room c⟩
  -- so the plain line may be edited between the two runs
  · rintro pre l post rfl around h
    refine ⟨disable.complete pre, disable.complete post, disable.affected (pre ++ l ++ post), ?_, ?_⟩
    · intro m c room
      rw [run_disable nul room, (complete_around around h).1]
    · intro l' h' m c room
      refine restore_edited around nul fresh h h' ?_ c
      have edited := (complete_around (q := disable) around h').1
      have fresh' : Fresh (pre ++ l' ++ post) :=
        (fresh_around around h').mpr ((fresh_around around h).mp fresh)
      rw [Room, ← edited, (restore_disable fresh').1]
      exact room

/-- A script with a stack line and another one. -/
theorem disable_reversible_miami :
    tnUncommentStartupScript (tnParseStartupScript "Run C:Miami\r\nAssign T: RAM:".toList 100 0).1 100 0
      = ("Run C:Miami\r\nAssign T: RAM:".toList, 1) := by
  have h := (disable_reversible "Run C:Miami\r\nAssign T: RAM:".toList (by decide) (by
    unfold Fresh; decide)).1 100 0 100 0 (by unfold Room; decide) (by decide)
  rw [h]
  decide

end Parser

end Stack

end Tolunnet
