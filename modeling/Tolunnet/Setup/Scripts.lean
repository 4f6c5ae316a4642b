import Tolunnet.Setup.StackDetect

/-!
# `Tolunnet.Setup.Scripts`: what a parser is for

A parser changes a script line by line. `complete` is the changed script, without regard to the buffer;
`affected` counts the lines that are changed. With room for the changed script and a terminator a
parser gives exactly that (`run_of_room`). Without it some piece is missing, but the count of the
changed lines is the same (`count_run`).
-/

set_option autoImplicit false

namespace Tolunnet

namespace Stack

open Segments

/-- The two parsers. -/
inductive Parser where
  | disable | restore
  deriving DecidableEq, Repr

namespace Parser

variable {q : Parser} {line body text : List Char} {outMax : Int} {count : Nat}

/-- What a parser makes of a line. -/
def change : Parser → List Char → List (List Char) × Bool
  | disable => disableLine
  | restore => restoreLine

/-- The parser itself. -/
def run : Parser → List Char → Int → Nat → List Char × Nat
  | disable => tnParseStartupScript
  | restore => tnUncommentStartupScript

/-- A changed line, with its carriage return. -/
def changeText (q : Parser) (line : List Char) : List Char :=
  (q.change (splitCr line).1).1.flatten ++ if (splitCr line).2 then ['\r'] else []

/-- The changed script. -/
def complete (q : Parser) (text : List Char) : List Char :=
  join '\n' ((segments '\n' text).map fun s => { s with text := q.changeText s.text })

/-- Whether a line is changed. -/
def affects (q : Parser) (line : List Char) : Bool := (q.change (splitCr line).1).2

/-- How many lines are changed. -/
def affected (q : Parser) (text : List Char) : Nat :=
  (segments '\n' text).countP fun s => q.affects s.text

theorem run_eq (q : Parser) (text : List Char) (outMax : Int) (count : Nat) :
    q.run text outMax count = rewriteScript q.change text outMax count := by
  cases q <;> rfl

/-! ## Room -/

/-- Whether a buffer is large enough: it has room for the changed script and a terminator. -/
def Room (q : Parser) (text : List Char) (outMax : Int) : Prop :=
  ((q.complete text).length : Int) < outMax

theorem foldl_put {pieces : List (List Char)} {out : List Char}
    (room : (out.length : Int) + pieces.flatten.length < outMax) :
    pieces.foldl (put outMax) out = out ++ pieces.flatten := by
  induction pieces generalizing out with
  | nil => simp
  | cons piece pieces ih =>
    have fits : (out.length : Int) + piece.length < outMax := by
      simp only [List.flatten_cons, List.length_append] at room
      omega
    have rest : ((out ++ piece).length : Int) + pieces.flatten.length < outMax := by
      simp only [List.flatten_cons, List.length_append] at room ⊢
      omega
    rw [List.foldl_cons, put, if_pos fits, ih rest, List.flatten_cons, List.append_assoc]

theorem putEnd_of_room {out : List Char} {there : Bool} {c : Char}
    (room : (out.length : Int) + (if there then [c] else []).length < outMax) :
    putEnd outMax out there c = out ++ if there then [c] else [] := by
  unfold putEnd
  cases there with
  | true =>
    have room : (out.length : Int) < outMax - 1 := by
      simp only [if_true, List.length_singleton] at room
      omega
    rw [if_pos ⟨rfl, room⟩]
    rfl
  | false => simp

/-- A changed line with its end. -/
def lineText (q : Parser) (s : Segment Char) : List Char :=
  (q.changeText s.text) ++ if s.ended then ['\n'] else []

theorem complete_eq (q : Parser) (text : List Char) :
    q.complete text = (segments '\n' text).flatMap q.lineText := by
  unfold complete join
  rw [List.flatMap_map]
  exact List.flatMap_congr fun s _ => Segment.joined_eq _

/-- A line for which there is room. -/
theorem scriptLine_of_room {out : List Char} (s : Segment Char)
    (room : (out.length : Int) + (q.lineText s).length < outMax) :
    scriptLine q.change outMax (out, count) s =
      (out ++ q.lineText s, count + if q.affects s.text then 1 else 0) := by
  unfold scriptLine
  unfold lineText changeText affects at *
  dsimp only
  generalize splitCr s.text = line at room ⊢
  simp only [List.length_append] at room
  have pieces : (out.length : Int) + (q.change line.1).1.flatten.length < outMax := by omega
  have cr : ((out ++ (q.change line.1).1.flatten).length : Int) +
      (if line.2 then ['\r'] else []).length < outMax := by
    simp only [List.length_append]
    omega
  have nl : ((out ++ (q.change line.1).1.flatten ++ if line.2 then ['\r'] else []).length : Int) +
      (if s.ended then ['\n'] else []).length < outMax := by
    simp only [List.length_append]
    omega
  rw [foldl_put pieces, putEnd_of_room cr, putEnd_of_room nl]
  simp only [List.append_assoc]
  cases (q.change line.1).2 <;> rfl

/-- With room for the changed script a parser makes it. -/
theorem foldl_scriptLine {ss : List (Segment Char)} {out : List Char}
    (room : (out.length : Int) + (ss.flatMap q.lineText).length < outMax) :
    ss.foldl (scriptLine q.change outMax) (out, count) =
      (out ++ ss.flatMap q.lineText, count + ss.countP fun s => q.affects s.text) := by
  induction ss generalizing out count with
  | nil => simp
  | cons s ss ih =>
    simp only [List.flatMap_cons, List.length_append] at room
    rw [List.foldl_cons, scriptLine_of_room s (by omega), ih (by simp only [List.length_append]; omega),
      List.flatMap_cons, List.countP_cons, List.append_assoc]
    congr 1
    split <;> omega

theorem cString_of_no_nul (nul : '\x00' ∉ text) : cString text = text := by
  unfold cString
  rw [List.takeWhile_eq_self_iff]
  intro c mem
  simp only [decide_eq_true_eq]
  rintro rfl
  exact nul mem

/-- A parser with room for the changed script. -/
theorem run_of_room (nul : '\x00' ∉ text) (room : q.Room text outMax) :
    q.run text outMax count = (q.complete text, q.affected text) := by
  rw [Room, complete_eq] at room
  rw [complete_eq, run_eq, rewriteScript, if_neg (by omega), cString_of_no_nul nul]
  have done := @foldl_scriptLine q outMax 0 (segments '\n' text) [] (by simpa using room)
  rw [done, affected]
  simp

/-! ## Any room -/

/-- The count does not depend on the room. -/
theorem count_run (nul : '\x00' ∉ text) (room : 0 < outMax) :
    (q.run text outMax count).2 = q.affected text := by
  rw [run_eq, rewriteScript, if_neg (by omega), cString_of_no_nul nul, affected]
  have counted (ss : List (Segment Char)) (st : List Char × Nat) :
      (ss.foldl (scriptLine q.change outMax) st).2 = st.2 + ss.countP fun s => q.affects s.text := by
    induction ss generalizing st with
    | nil => rfl
    | cons s ss ih =>
      have turn : (scriptLine q.change outMax st s).2 =
          if q.affects s.text then st.2 + 1 else st.2 := rfl
      rw [List.foldl_cons, ih, turn, List.countP_cons]
      split <;> omega
  rw [counted]
  simp

end Parser

end Stack

end Tolunnet
