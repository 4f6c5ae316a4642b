import Tolunnet.Setup.Scripts

/-!
# `Tolunnet.Setup.Rewrite`: what a rewritten script holds

`rewrite_file_with_parser` gives a parser a buffer of twice the size of the file and 1024 bytes more. A
parser that meets a piece without room leaves it out and says nothing, so the caller installs what is
left. `whole_iff` says when the script is whole: when no line is changed, or the changed script and its
terminator fit. A disabled line is 21 bytes longer, so short lines outgrow the buffer.
-/

set_option autoImplicit false

namespace Tolunnet

namespace Stack

namespace Parser

variable {q : Parser} {old : List Char} {s : DosState}

/-- What a call leaves of a script: it is as it was, or it is what the parser has made, or the call
fails with the script in the previous generation. -/
theorem rewrite_cases (q : Parser) (file : s.disk .path = some old) :
    (rewriteFileWithParser q.run s).1.disk .path = some old ∨
    (0 < (q.run old (outMaxFor old.length) 0).2 ∧ (rewriteFileWithParser q.run s).1.disk .path =
      some (q.run old (outMaxFor old.length) 0).1) ∨
    ((rewriteFileWithParser q.run s).2 = false ∧
      (rewriteFileWithParser q.run s).1.disk .path = none ∧
      (rewriteFileWithParser q.run s).1.disk .bak = some old) := by
  unfold rewriteFileWithParser
  split
  · rename_i s₁ got
    exact .inl ((congrFun (disk_of_dosOpenOld got) _).trans file)
  · rename_i s₁ got
    have disk : s₁.disk .path = some old := (congrFun (disk_of_dosOpenOld got) _).trans file
    rw [show (s₁.disk .path).getD [] = old by rw [disk]; rfl]
    dsimp only
    have examined : (if (dosCall s₁).2 then dosCall (dosCall s₁).1 else ((dosCall s₁).1, false)).1.disk
        .path = some old := by
      split <;> exact disk
    generalize (if (dosCall s₁).2 then dosCall (dosCall s₁).1 else ((dosCall s₁).1, false)) = r
      at examined ⊢
    split
    · exact .inl examined
    split
    · exact .inl examined
    split
    · rename_i s₂ got'
      exact .inl ((congrFun (disk_of_dosCall got') _).trans examined)
    · rename_i s₂ got'
      have disk : s₂.disk .path = some old := (congrFun (disk_of_dosCall got') _).trans examined
      have read := (congrFun (readLoop_disk old.length [] old s₂) .path).trans disk
      have whole := @readLoop_whole s₂ old.length [] old
      generalize readLoop old.length [] old s₂ = got₂ at read whole ⊢
      split
      · exact .inl read
      · rename_i all
        rw [show got₂.2 = old from whole (by simpa using all)]
        split
        · rename_i s₃ got₃
          exact .inl ((congrFun (disk_of_dosCall got₃) _).trans read)
        · rename_i s₃ got₃
          have disk : s₃.disk .path = some old := (congrFun (disk_of_dosCall got₃) _).trans read
          split
          · rename_i changed
            obtain ⟨done, failed⟩ := installText_spec s₃ (q.run old (outMaxFor old.length) 0).1
            rw [disk] at failed
            cases ok : (installText s₃ (q.run old (outMaxFor old.length) 0).1).2 with
            | true => exact .inr (.inl ⟨changed.1, done ok⟩)
            | false => exact (failed ok).imp id fun moved => .inr ⟨rfl, moved⟩
          · exact .inl disk

/-- The parser is asked at least once, and what it makes is installed, when nothing is refused. -/
theorem rewrite_willing (q : Parser) (file : s.disk .path = some old) (h : s.answers = [])
    (filled : old ≠ []) : (rewriteFileWithParser q.run s).2 = true := by
  have call {s : DosState} (h : s.answers = []) : dosCall s = (s.asked, true) := by
    simp [dosCall, ask_willing h]
  have opened : dosOpenOld s .path = (s.asked, true) := by simp [dosOpenOld, ask_willing h, file]
  have h₁ := asked_willing h
  have h₂ := asked_willing h₁
  have h₃ := asked_willing h₂
  have h₄ := asked_willing h₃
  unfold rewriteFileWithParser
  rw [opened]
  dsimp only
  rw [show s.asked.disk .path = some old from file, call h₁]
  dsimp only [Option.getD_some]
  rw [if_pos rfl, call h₂]
  dsimp only
  rw [if_neg (by simp), if_neg filled, call h₃]
  dsimp only
  obtain ⟨h₅, whole⟩ := @readLoop_willing _ h₄ _ [] old (Nat.le_refl _)
  rw [List.nil_append] at whole
  simp only [whole]
  have h₆ : (dosClose (readLoop old.length [] old s.asked.asked.asked.asked).1).1.answers = [] :=
    asked_willing h₅
  rw [if_neg (by simp), call h₆]
  dsimp only
  split
  · exact installText_willing (asked_willing h₆)
  · rfl

/-- What a rewrite promises of a script, on every disk and whatever is refused: the script is complete
wherever it is, and once it is open, a buffer without room for the changed script is a failure. -/
structure Whole (q : Parser) (old : List Char) : Prop where
  installed : ∀ s, s.disk .path = some old →
    (rewriteFileWithParser q.run s).1.disk .path = some old ∨
    (rewriteFileWithParser q.run s).1.disk .path = some (q.complete old) ∨
    ((rewriteFileWithParser q.run s).2 = false ∧
      (rewriteFileWithParser q.run s).1.disk .path = none ∧
      (rewriteFileWithParser q.run s).1.disk .bak = some old)
  refused : ∀ s, s.disk .path = some old → s.ask.ok = true → 0 < q.affected old →
    ¬ q.Room old (outMaxFor old.length) → (rewriteFileWithParser q.run s).2 = false ∧
      (rewriteFileWithParser q.run s).1.disk .path = some old

/-- Without room the script is replaced, or nothing is done, and the call succeeds. -/
theorem not_whole (lines : 0 < q.affected old) (tight : ¬ q.Room old (outMaxFor old.length)) :
    ¬ q.Whole old := fun whole => by
  have filled : old ≠ [] := by
    rintro rfl
    exact absurd lines (Nat.lt_irrefl 0)
  have file : ({ disk := fun n => if n = .path then some old else none } : DosState).disk .path =
    some old := rfl
  have ok := rewrite_willing q file rfl filled
  rw [(whole.refused _ file rfl lines tight).1] at ok
  cases ok

/-- **When a rewritten script is whole.** No line of it is changed, or the changed script and its
terminator fit into the buffer. -/
theorem whole_iff (q : Parser) (old : List Char) (nul : '\x00' ∉ old) :
    q.Whole old ↔ q.affected old = 0 ∨ q.Room old (outMaxFor old.length) := by
  constructor
  -- lines that are affected and do not fit are lost
  · intro whole
    by_contra neither
    simp only [not_or] at neither
    exact not_whole (Nat.pos_of_ne_zero neither.1) neither.2 whole
  -- otherwise each outcome of the rewrite keeps them
  · intro fine
    refine ⟨fun s file => ?_, fun s file _ lines tight => ?_⟩
    · rcases rewrite_cases q file with same | ⟨changed, new⟩ | moved
      · exact .inl same
      · right
        left
        rcases fine with none | room
        · by_cases empty : outMaxFor old.length ≤ 0
          · rw [run_eq, rewriteScript, if_pos empty] at changed
            exact absurd changed (Nat.lt_irrefl 0)
          · rw [count_run nul (by omega), none] at changed
            exact absurd changed (Nat.lt_irrefl 0)
        · rw [new, run_of_room nul room]
      · exact .inr (.inr moved)
    · rcases fine with none | room
      · rw [none] at lines
        exact absurd lines (Nat.lt_irrefl 0)
      · exact absurd room tight

/-- One stack line in a script of two lines leaves room enough. -/
theorem whole_miami : disable.Whole "Run C:Miami\r\nAssign T: RAM:".toList :=
  (whole_iff disable _ (by decide)).mpr (.inr (by unfold Room; decide))

/-- A script of short lines that all start another stack. -/
def manyLines : List Char := (List.replicate 69 "miami\n".toList).flatten

theorem not_whole_manyLines : ¬ disable.Whole manyLines :=
  not_whole (by decide) (by unfold Room; decide +kernel)

end Parser

end Stack

end Tolunnet
