import Mathlib.Data.Nat.Digits.Defs
import Tolunnet.Common.LogFormat
import Tolunnet.Inet.QuadText

/-!
# `Tolunnet.Log.Formatted`: what the log formatter writes

`pieces` takes a format apart as the comment at the head of `log_format.c` describes it, and `textFrom` is
all that it stands for. `Emits` says that a part of the formatter appends a text, as much of it as fits.

The formatter writes the text of a format, cut to the buffer, unless it comes to a conversion that the end
of the format cuts behind its `%`, or to a width that is no `int` (`formats_iff`).
-/

set_option autoImplicit false

namespace Tolunnet

namespace LogFormat

open Http (isDigit)
open Numbers (bytesValue)
open Dns (digitsFrom take_take_append)
open Quads (le_digitsFrom digitsFrom_cons)

/-! ## The documented text -/

/-- A text in a field of spaces. -/
def field (left : Bool) (width : Nat) (text : List UInt8) : List UInt8 :=
  if left then text ++ List.replicate (width - text.length) 32
  else List.replicate (width - text.length) 32 ++ text

/-- A number in the radix that has the given letters. -/
def digitText (letters : List UInt8) (n : Nat) : List UInt8 :=
  if n = 0 then [48] else ((Nat.digits letters.length n).map fun d => letters.getD d 0).reverse

/-- A number in its field. Zeros stand between the sign and the digits. -/
def numberText (left zero : Bool) (width : Nat) (neg : Bool) (digits : List UInt8) : List UInt8 :=
  let sign := if neg then [45] else []
  if !left && zero then sign ++ (List.replicate (width - (sign ++ digits).length) 48 ++ digits)
  else field left width (sign ++ digits)

/-- A part of a format: a character, a conversion with its flags, width and letter, or a conversion that is
cut by the end of the format, behind its `%` or further inside. -/
inductive Piece where
  | char (c : UInt8)
  | conversion (left zero : Bool) (width : Nat) (c : UInt8)
  | cut (inside : Bool)

namespace Piece

/-- The text of a piece, for the next argument. -/
def text (args : Args) (k : Nat) : Piece → List UInt8
  | char c => [c]
  | conversion left zero width c =>
    let arg := args.ap k
    if c = 115 then field left width (if arg = 0 then [40, 110, 117, 108, 108, 41] else args.str arg)
    else if c = 100 ∨ c = 105 then
      numberText left zero width (arg.toInt < 0) (digitText (letters c) arg.toInt.natAbs)
    else if c = 117 ∨ c = 120 ∨ c = 88 ∨ c = 112 then
      numberText left zero width false (digitText (letters c) arg.toNat)
    else if c = 99 then field left width [UInt8.ofNat arg.toNat]
    else [c]
  | cut _ => []

/-- How many arguments a piece uses up. -/
def uses : Piece → Nat
  | conversion _ _ _ c =>
    if c = 115 then 1
    else if c = 100 ∨ c = 105 then 1
    else if c = 117 ∨ c = 120 ∨ c = 88 ∨ c = 112 then 1
    else if c = 99 then 1
    else 0
  | _ => 0

/-- A piece that is not cut inside, with a width that is an `int`. -/
def Complete : Piece → Prop
  | char _ => True
  | conversion _ _ width _ => width < 2 ^ 31
  | cut inside => inside = false

end Piece

/-- The text of the pieces, from the argument `k` on. -/
def textFrom (args : Args) (k : Nat) : List Piece → List UInt8
  | [] => []
  | piece :: ps => piece.text args k ++ textFrom args (k + piece.uses) ps

def isFlag (c : UInt8) : Bool := c == 45 || c == 48

/-- What follows flags and digits is no longer than the format. -/
theorem length_skipL_dropWhile (p : List UInt8) :
    (skipL ((p.dropWhile isFlag).dropWhile isDigit)).length ≤ p.length :=
  Nat.le_trans (skipL_length _) (Nat.le_trans (List.dropWhile_sublist isDigit).length_le
    (List.dropWhile_sublist isFlag).length_le)

/-- The pieces of a format. -/
def pieces (p : List UInt8) : List Piece :=
  match p with
  | [] => []
  | c :: p =>
    if c ≠ 37 then .char c :: pieces p
    else
      match p with
      | [] => [.cut false]
      | c :: p =>
        if c = 37 then .char 37 :: pieces p
        else
          let flags := (c :: p).takeWhile isFlag
          let width := bytesValue (((c :: p).dropWhile isFlag).takeWhile isDigit)
          match _letter : skipL (((c :: p).dropWhile isFlag).dropWhile isDigit) with
          | [] => [.cut true]
          | letter :: q => .conversion (flags.contains 45) (flags.contains 48) width letter :: pieces q
termination_by p.length
decreasing_by
  · exact Nat.lt_succ_self _
  · exact Nat.lt_succ_of_le (Nat.le_succ _)
  · have shorter := length_skipL_dropWhile (c :: p)
    rw [_letter, List.length_cons] at shorter
    exact Nat.lt_succ_of_lt shorter

/-! ## Writing -/

variable {cap k n width : Nat} {args : Args} {c : UInt8} {out s p x y : List UInt8} {left zero neg : Bool}
  {ps : List Piece}

/-- A part of the formatter appends `x`, as far as the buffer has room for it and the NUL. -/
def Emits (cap : Nat) (f : List UInt8 → Except Fault (List UInt8)) (x : List UInt8) : Prop :=
  ∀ out, out.length + 1 ≤ cap → f out = .ok ((out ++ x).take (cap - 1))

theorem length_take_lt (h : 1 ≤ cap) (l : List UInt8) : (l.take (cap - 1)).length + 1 ≤ cap := by
  have short := List.length_take_le (cap - 1) l
  omega

theorem put_ok (room : out.length < cap) (c : UInt8) : put cap out c = .ok (out ++ [c]) := if_pos room

theorem emits_nothing : Emits cap (fun out => pure out) [] := by
  intro out room
  rw [List.append_nil, List.take_of_length_le (by omega)]
  rfl

/-- One text after the other. -/
theorem Emits.seq {f g : List UInt8 → Except Fault (List UInt8)} (hf : Emits cap f x) (hg : Emits cap g y) :
    Emits cap (fun out => f out >>= g) (x ++ y) := by
  intro out room
  have next := hg _ (length_take_lt (by omega) (out ++ x))
  rw [take_take_append, List.append_assoc] at next
  show f out >>= g = _
  rw [hf out room]
  exact next

/-- The text of an argument is copied while there is room. -/
theorem emits_copy (cap : Nat) (s : List UInt8) : Emits cap (fun out => copyLoop cap out s) s := by
  intro out room
  dsimp only
  induction s generalizing out with
  | nil => exact emits_nothing out room
  | cons c s ih =>
    rw [copyLoop]
    by_cases more : out.length + 1 < cap
    · rw [if_pos more, put_ok (by omega)]
      show copyLoop cap (out ++ [c]) s = _
      rw [ih (out ++ [c]) (by rw [List.length_append]; exact more), List.append_assoc]
      rfl
    · have full : out.length = cap - 1 := by omega
      rw [if_neg more, ← full, List.take_left]

/-- The padding is written while there is room. -/
theorem emits_pad (cap : Nat) (c : UInt8) (n : Nat) : Emits cap (fun out => padLoop cap c out n) (List.replicate n c) := by
  intro out room
  dsimp only
  induction n generalizing out with
  | zero => exact emits_nothing out room
  | succ n ih =>
    rw [padLoop]
    by_cases more : out.length + 1 < cap
    · rw [if_pos more, put_ok (by omega)]
      show padLoop cap c (out ++ [c]) n = _
      rw [ih (out ++ [c]) (by rw [List.length_append]; exact more), List.append_assoc]
      rfl
    · have full : out.length = cap - 1 := by omega
      rw [if_neg more, ← full, List.take_left]

theorem emits_putIf (cap : Nat) (c : UInt8) : Emits cap (fun out => putIf cap out c) [c] := by
  intro out room
  show (if out.length + 1 < cap then put cap out c else .ok out) = _
  by_cases more : out.length + 1 < cap
  · rw [if_pos more, put_ok (by omega), List.take_of_length_le (by rw [List.length_append]; exact Nat.le_sub_one_of_lt more)]
  · have full : out.length = cap - 1 := by omega
    rw [if_neg more, ← full, List.take_left]

/-- The padding that the formatter computes. -/
theorem pad_eq (len width : Nat) : (if len < width then width - len else 0) = width - len := by
  split <;> omega

/-! ## Conversions -/

/-- A text goes out in its field. -/
theorem emits_string (s : List UInt8) : Emits cap (putString cap left width s) (field left width s) := by
  have pad := emits_pad cap 32 (width - s.length)
  have copy := emits_copy cap s
  intro out room
  rw [putString, pad_eq]
  cases left with
  | false =>
    have all := pad.seq (copy.seq emits_nothing) out room
    rw [List.append_nil] at all
    exact all
  | true => exact (emits_nothing.seq (copy.seq pad)) out room

/-- A character goes out in its field. -/
theorem emits_char (c : UInt8) : Emits cap (putChar cap left width c) (field left width [c]) := by
  have pad := emits_pad cap 32 (width - 1)
  have one := emits_putIf cap c
  have same : (if width > 1 then width - 1 else 0) = width - 1 := pad_eq 1 width
  intro out room
  rw [putChar, same]
  cases left with
  | false =>
    have all := pad.seq (one.seq emits_nothing) out room
    rw [List.append_nil] at all
    exact all
  | true => exact (emits_nothing.seq (one.seq pad)) out room

/-- The digits in `tmp` are those of the number, if there is room for them. -/
theorem tmpDigits_eq {letters : List UInt8} (radix : 1 < letters.length) (room : Nat) {uv : Nat}
    (fits : uv < letters.length ^ room) :
    tmpDigits letters room uv = (Nat.digits letters.length uv).map fun d => letters.getD d 0 := by
  induction room generalizing uv with
  | zero =>
    have zero : uv = 0 := by
      rw [Nat.pow_zero] at fits
      omega
    rw [zero, Nat.digits_zero]
    rfl
  | succ room ih =>
    rw [tmpDigits]
    by_cases some : uv > 0
    · have smaller : uv / letters.length < letters.length ^ room := by
        rw [Nat.pow_succ] at fits
        exact Nat.div_lt_of_lt_mul (by rw [Nat.mul_comm]; exact fits)
      rw [if_pos some, ih smaller, Nat.digits_def' radix some]
      rfl
    · have zero : uv = 0 := by omega
      rw [if_neg some, zero, Nat.digits_zero]
      rfl

/-- There are letters for every base. -/
theorem letters_length (c : UInt8) : 10 ≤ (letters c).length := by
  rw [letters]
  split
  · decide
  · split
    · decide
    · decide

/-- The digits are written from the last one on. -/
theorem tmp_eq (c : UInt8) {uv : Nat} (fits : uv < 2 ^ 32) : (tmp (letters c) uv).reverse = digitText (letters c) uv := by
  rw [tmp, digitText]
  split
  · rfl
  · have radix := letters_length c
    have room : 2 ^ 32 ≤ (letters c).length ^ 20 := Nat.le_trans (by decide) (Nat.pow_le_pow_left radix 20)
    rw [tmpDigits_eq (by omega) 20 (Nat.lt_of_lt_of_le fits room)]

/-- A number, for the digits in `tmp`. -/
theorem emits_number {t digits : List UInt8} (same : t.reverse = digits) :
    Emits cap (putNumber cap left zero width neg t) (numberText left zero width neg digits) := by
  have length : t.length = digits.length := by rw [← same, List.length_reverse]
  have copy := emits_copy cap digits
  intro out room
  rw [putNumber, same, length, pad_eq]
  have signs : Emits cap (putSign cap neg) (if neg then [45] else []) := by
    cases neg
    · exact emits_nothing
    · exact emits_putIf cap 45
  have total : digits.length + (if neg then 1 else 0) = ((if neg then [45] else []) ++ digits).length := by
    cases neg <;> rfl
  rw [total, numberText]
  dsimp only [field]
  generalize (if neg then [45] else [] : List UInt8) = sign at signs
  generalize width - (sign ++ digits).length = k
  have spaces := emits_pad cap 32 k
  have zeros := emits_pad cap 48 k
  cases left with
  | true =>
    have all := signs.seq (copy.seq spaces) out room
    rw [← List.append_assoc sign] at all
    exact all
  | false =>
    cases zero with
    | true =>
      have all := (signs.seq zeros).seq (copy.seq emits_nothing) out room
      rw [List.append_nil, List.append_assoc] at all
      exact all
    | false =>
      have all := (spaces.seq signs).seq (copy.seq emits_nothing) out room
      rw [List.append_nil, List.append_assoc] at all
      exact all

/-- The magnitude of a number fits its word. -/
theorem magnitude_eq (w : BitVec 32) : magnitude w.toInt = w.toInt.natAbs ∧ w.toInt.natAbs < 2 ^ 32 := by
  have low := BitVec.le_toInt w
  have high := BitVec.toInt_lt (x := w)
  rw [magnitude]
  split <;> omega

/-- One conversion, for a buffer that has room for a character. -/
theorem convert_eq (room : out.length + 1 < cap) (args : Args) (k : Nat) (left zero : Bool) (width : Nat)
    (c : UInt8) : convert cap args k left zero width c out =
      .ok ((out ++ (Piece.conversion left zero width c).text args k).take (cap - 1),
        k + (Piece.conversion left zero width c).uses) := by
  have fits : out.length + 1 ≤ cap := Nat.le_of_lt room
  obtain ⟨value, small⟩ := magnitude_eq (args.ap k)
  have word : (args.ap k).toNat < 2 ^ 32 := (args.ap k).isLt
  rw [convert, Piece.text, Piece.uses]
  dsimp only
  by_cases hs : c = 115
  · rw [if_pos hs, if_pos hs, if_pos hs, emits_string _ out fits]
    rfl
  · rw [if_neg hs, if_neg hs, if_neg hs]
    by_cases hd : c = 100 ∨ c = 105
    · rw [if_pos hd, if_pos hd, if_pos hd, value, emits_number (tmp_eq c small) out fits]
      rfl
    · rw [if_neg hd, if_neg hd, if_neg hd]
      by_cases hu : c = 117 ∨ c = 120 ∨ c = 88 ∨ c = 112
      · rw [if_pos hu, if_pos hu, if_pos hu, emits_number (tmp_eq c word) out fits]
        rfl
      · rw [if_neg hu, if_neg hu, if_neg hu]
        by_cases hc : c = 99
        · rw [if_pos hc, if_pos hc, if_pos hc, emits_char _ out fits]
          rfl
        · have whole : (out ++ [c]).take (cap - 1) = out ++ [c] :=
            List.take_of_length_le (by rw [List.length_append, List.length_singleton]; omega)
          rw [if_neg hc, if_neg hc, if_neg hc, whole, put_ok (by omega)]
          rfl

/-! ## The format -/

/-- The flags that were read. -/
theorem flagLoop_eq (left zero : Bool) (p : List UInt8) :
    flagLoop left zero p = (left || (p.takeWhile isFlag).contains 45, zero || (p.takeWhile isFlag).contains 48,
      p.dropWhile isFlag) := by
  induction p generalizing left zero with
  | nil => simp [flagLoop]
  | cons c p ih =>
    rw [flagLoop]
    by_cases minus : c = 45
    · rw [if_pos minus, ih, minus]
      simp [isFlag]
    · rw [if_neg minus]
      by_cases nought : c = 48
      · rw [if_pos nought, ih, nought]
        simp [isFlag]
      · have other : ¬isFlag c = true := by simp [isFlag, minus, nought]
        rw [if_neg nought, List.takeWhile_cons_of_neg other, List.dropWhile_cons_of_neg other]
        simp

/-- The width is read up to its end, unless it does not fit. -/
theorem widthLoop_eq (fits : width < 2 ^ 31) (p : List UInt8) :
    widthLoop width p =
      if digitsFrom width (p.takeWhile isDigit) < 2 ^ 31 then
        .ok (digitsFrom width (p.takeWhile isDigit), p.dropWhile isDigit)
      else .error .width := by
  induction p generalizing width with
  | nil => exact (if_pos fits).symm
  | cons c p ih =>
    rw [widthLoop]
    by_cases digit : isDigit c = true
    · rw [if_pos digit, List.takeWhile_cons_of_pos digit, List.dropWhile_cons_of_pos digit, digitsFrom_cons]
      by_cases large : width * 10 + (c.toNat - 48) ≥ 2 ^ 31
      · have later := le_digitsFrom (width * 10 + (c.toNat - 48)) (p.takeWhile isDigit)
        rw [if_pos large, if_neg (by omega)]
      · rw [if_neg large, ih (by omega)]
    · rw [if_neg digit, List.takeWhile_cons_of_neg digit, List.dropWhile_cons_of_neg digit]
      exact (if_pos fits).symm

/-- A directive is its flags, width and letter. -/
theorem directive_eq (p : List UInt8) :
    directive p =
      if bytesValue ((p.dropWhile isFlag).takeWhile isDigit) < 2 ^ 31 then
        match skipL ((p.dropWhile isFlag).dropWhile isDigit) with
        | [] => .error .read
        | c :: q => .ok ((p.takeWhile isFlag).contains 45, (p.takeWhile isFlag).contains 48,
            bytesValue ((p.dropWhile isFlag).takeWhile isDigit), c, q)
      else .error .width := by
  have value : digitsFrom 0 ((p.dropWhile isFlag).takeWhile isDigit) =
    bytesValue ((p.dropWhile isFlag).takeWhile isDigit) := rfl
  rw [directive, flagLoop_eq]
  dsimp only
  rw [widthLoop_eq (by decide), value, Bool.false_or, Bool.false_or]
  by_cases fits : bytesValue ((p.dropWhile isFlag).takeWhile isDigit) < 2 ^ 31
  · rw [if_pos fits, if_pos fits]
    rfl
  · rw [if_neg fits, if_neg fits]
    rfl

/-- The pieces that begin while there is room are complete. -/
def SoundFrom (cap : Nat) (args : Args) : Nat → Nat → List Piece → Prop
  | _, _, [] => True
  | k, n, piece :: ps =>
    cap ≤ n + 1 ∨ piece.Complete ∧ SoundFrom cap args (k + piece.uses) (n + (piece.text args k).length) ps

/-- A full buffer asks for nothing more. -/
theorem soundFrom_full (full : cap ≤ n + 1) (k : Nat) (ps : List Piece) : SoundFrom cap args k n ps := by
  cases ps with
  | nil => trivial
  | cons piece ps => exact Or.inl full

/-- What does not fit makes no difference to the pieces behind it. -/
theorem soundFrom_take (k : Nat) (out x : List UInt8) (ps : List Piece) :
    SoundFrom cap args k ((out ++ x).take (cap - 1)).length ps ↔
      SoundFrom cap args k (out.length + x.length) ps := by
  rw [List.length_take, List.length_append]
  by_cases fits : out.length + x.length ≤ cap - 1
  · rw [Nat.min_eq_right fits]
  · exact iff_of_true (soundFrom_full (by omega) k ps) (soundFrom_full (by omega) k ps)

/-- What the loop does with the rest of a format. -/
structure Written (cap : Nat) (args : Args) (k : Nat) (out p : List UInt8) : Prop where
  sound : SoundFrom cap args k out.length (pieces p) →
    formatLoop cap args k out p = .ok ((out ++ textFrom args k (pieces p)).take (cap - 1))
  unsound : ¬SoundFrom cap args k out.length (pieces p) → ∃ fault, formatLoop cap args k out p = .error fault

/-- A full buffer ends the loop. -/
theorem formatLoop_full (full : ¬out.length + 1 < cap) (p : List UInt8) : formatLoop cap args k out p = .ok out := by
  cases p with
  | nil => rw [formatLoop]
  | cons c p =>
    rw [formatLoop.eq_def]
    exact if_neg full

/-- It holds what was to be written. -/
theorem written_full (room : out.length + 1 ≤ cap) (full : ¬out.length + 1 < cap) (p : List UInt8) :
    Written cap args k out p := by
  have length : out.length = cap - 1 := by omega
  refine ⟨fun _ => ?_, fun unsound => absurd (soundFrom_full (by omega) k _) unsound⟩
  rw [formatLoop_full full, ← length, List.take_left]

/-- One complete piece is written, and the loop goes on with the rest. -/
theorem Written.step {piece : Piece} {q : List UInt8} (more : out.length + 1 < cap)
    (first : pieces p = piece :: pieces q) (complete : piece.Complete)
    (turn : formatLoop cap args k out p =
      formatLoop cap args (k + piece.uses) ((out ++ piece.text args k).take (cap - 1)) q)
    (rest : Written cap args (k + piece.uses) ((out ++ piece.text args k).take (cap - 1)) q) :
    Written cap args k out p := by
  have same : SoundFrom cap args k out.length (pieces p) ↔
      SoundFrom cap args (k + piece.uses) ((out ++ piece.text args k).take (cap - 1)).length (pieces q) := by
    rw [first, soundFrom_take, SoundFrom]
    constructor
    · rintro (full | ⟨-, sound⟩)
      · omega
      · exact sound
    · exact fun sound => Or.inr ⟨complete, sound⟩
  refine ⟨fun sound => ?_, fun unsound => ?_⟩
  · rw [turn, rest.sound (same.mp sound), take_take_append, first, List.append_assoc]
    rfl
  · rw [turn]
    exact rest.unsound fun sound => unsound (same.mpr sound)

/-- A piece that is cut inside or too wide stops the loop. -/
theorem Written.fault {piece : Piece} {ps : List Piece} (more : out.length + 1 < cap)
    (first : pieces p = piece :: ps) (incomplete : ¬piece.Complete)
    (turn : ∃ fault, formatLoop cap args k out p = .error fault) : Written cap args k out p := by
  refine ⟨fun sound => ?_, fun _ => turn⟩
  rw [first, SoundFrom] at sound
  rcases sound with full | ⟨complete, -⟩
  · omega
  · exact absurd complete incomplete

/-! ### One turn of the loop -/

variable {letter : UInt8} {q : List UInt8}

/-- A plain character is copied. -/
theorem formatLoop_char (more : out.length + 1 < cap) (plain : c ≠ 37) (p : List UInt8) :
    formatLoop cap args k out (c :: p) = formatLoop cap args k (out ++ [c]) p := by
  rw [formatLoop.eq_def]
  dsimp only
  rw [if_pos more, if_pos plain, put_ok (by omega)]
  rfl

/-- A percent sign at the end is dropped. -/
theorem formatLoop_last (more : out.length + 1 < cap) : formatLoop cap args k out [37] = .ok out := by
  rw [formatLoop.eq_def]
  dsimp only
  rw [if_pos more, if_neg (by decide)]

/-- Two of them write one. -/
theorem formatLoop_percent (more : out.length + 1 < cap) (p : List UInt8) :
    formatLoop cap args k out (37 :: 37 :: p) = formatLoop cap args k (out ++ [37]) p := by
  rw [formatLoop.eq_def]
  dsimp only
  rw [if_pos more, if_neg (by decide), if_pos rfl, put_ok (by omega)]
  rfl

/-- A directive that cannot be read ends the call. -/
theorem formatLoop_fault (more : out.length + 1 < cap) (other : c ≠ 37) {fault : Fault}
    (read : directive (c :: p) = .error fault) : formatLoop cap args k out (37 :: c :: p) = .error fault := by
  rw [formatLoop.eq_def]
  dsimp only
  rw [if_pos more, if_neg (by decide), if_neg other]
  split
  · next error =>
    rw [read] at error
    exact congrArg Except.error (Except.error.inj error).symm
  · next ok =>
    rw [read] at ok
    cases ok

/-- A directive writes its field. -/
theorem formatLoop_conversion (more : out.length + 1 < cap) (other : c ≠ 37)
    (read : directive (c :: p) = .ok (left, zero, width, letter, q)) :
    formatLoop cap args k out (37 :: c :: p) =
      formatLoop cap args (k + (Piece.conversion left zero width letter).uses)
        ((out ++ (Piece.conversion left zero width letter).text args k).take (cap - 1)) q := by
  rw [formatLoop.eq_def]
  dsimp only
  rw [if_pos more, if_neg (by decide), if_neg other]
  split
  · next error =>
    rw [read] at error
    cases error
  · next ok =>
    rw [read] at ok
    cases ok
    rw [convert_eq more]
    rfl

/-- A plain character is a piece. -/
theorem pieces_char (plain : c ≠ 37) (p : List UInt8) : pieces (c :: p) = .char c :: pieces p := by
  rw [pieces.eq_def]
  exact if_pos plain

theorem pieces_last : pieces [37] = [.cut false] := by
  rw [pieces.eq_def]
  rfl

theorem pieces_percent (p : List UInt8) : pieces (37 :: 37 :: p) = .char 37 :: pieces p := by
  rw [pieces.eq_def]
  rfl

/-- A directive without its letter is a piece that is cut. -/
theorem pieces_cut (other : c ≠ 37) (none : skipL (((c :: p).dropWhile isFlag).dropWhile isDigit) = []) :
    pieces (37 :: c :: p) = [.cut true] := by
  rw [pieces.eq_def]
  dsimp only
  rw [if_neg (by decide), if_neg other]
  split
  · rfl
  · next some =>
    rw [none] at some
    cases some

/-- A directive is a piece. -/
theorem pieces_conversion (other : c ≠ 37)
    (some : skipL (((c :: p).dropWhile isFlag).dropWhile isDigit) = letter :: q) :
    pieces (37 :: c :: p) = .conversion (((c :: p).takeWhile isFlag).contains 45)
      (((c :: p).takeWhile isFlag).contains 48) (bytesValue (((c :: p).dropWhile isFlag).takeWhile isDigit)) letter ::
        pieces q := by
  rw [pieces.eq_def]
  dsimp only
  rw [if_neg (by decide), if_neg other]
  split
  · next none =>
    rw [some] at none
    cases none
  · next same =>
    rw [some] at same
    obtain ⟨rfl, rfl⟩ := List.cons.inj same
    rfl

/-- One character more fits. -/
theorem take_one (more : out.length + 1 < cap) (c : UInt8) : (out ++ [c]).take (cap - 1) = out ++ [c] :=
  List.take_of_length_le (by rw [List.length_append, List.length_singleton]; omega)

/-- A format that stands for nothing more. -/
theorem Written.stop (room : out.length + 1 ≤ cap) (turn : formatLoop cap args k out p = .ok out)
    (nothing : textFrom args k (pieces p) = []) (sound : SoundFrom cap args k out.length (pieces p)) :
    Written cap args k out p := by
  refine ⟨fun _ => ?_, fun unsound => absurd sound unsound⟩
  rw [turn, nothing, List.append_nil, List.take_of_length_le (by omega)]

/-- A full buffer leaves nothing to show. -/
theorem Written.of_room (room : out.length + 1 ≤ cap) (h : out.length + 1 < cap → Written cap args k out p) :
    Written cap args k out p := by
  by_cases more : out.length + 1 < cap
  · exact h more
  · exact written_full room more p

/-- The loop writes the text of the pieces that are left, or runs into a fault at the first bad one. -/
theorem formatLoop_written (p : List UInt8) (room : out.length + 1 ≤ cap) : Written cap args k out p := by
  induction p using pieces.induct generalizing k out with
  | case1 =>
    have none : pieces [] = [] := by rw [pieces]
    refine Written.stop room (by rw [formatLoop]) ?_ ?_
    · rw [none]
      rfl
    · rw [none]
      trivial
  | case2 c p plain ih =>
    refine Written.of_room room fun more => ?_
    refine Written.step more (pieces_char plain p) trivial ?_ (ih (length_take_lt (by omega) _))
    exact (formatLoop_char more plain p).trans (congrArg (formatLoop cap args k · p) (take_one more c).symm)
  | case3 c percent =>
    obtain rfl := not_not.mp percent
    refine Written.of_room room fun more => ?_
    refine Written.stop room (formatLoop_last more) ?_ ?_
    · rw [pieces_last]
      rfl
    · rw [pieces_last]
      exact Or.inr ⟨rfl, trivial⟩
  | case4 c percent p ih =>
    obtain rfl := not_not.mp percent
    refine Written.of_room room fun more => ?_
    refine Written.step more (pieces_percent p) trivial ?_ (ih (length_take_lt (by omega) _))
    exact (formatLoop_percent more p).trans (congrArg (formatLoop cap args k · p) (take_one more 37).symm)
  | case5 c percent c' p other none =>
    obtain rfl := not_not.mp percent
    refine Written.of_room room fun more => ?_
    refine Written.fault more (pieces_cut other none) Bool.noConfusion ?_
    by_cases fits : bytesValue (((c' :: p).dropWhile isFlag).takeWhile isDigit) < 2 ^ 31
    · exact ⟨.read, formatLoop_fault more other (by rw [directive_eq, if_pos fits, none])⟩
    · exact ⟨.width, formatLoop_fault more other (by rw [directive_eq, if_neg fits])⟩
  | case6 c percent c' p other letter q read ih =>
    obtain rfl := not_not.mp percent
    refine Written.of_room room fun more => ?_
    by_cases fits : bytesValue (((c' :: p).dropWhile isFlag).takeWhile isDigit) < 2 ^ 31
    · refine Written.step more (pieces_conversion other read) fits ?_ (ih (length_take_lt (by omega) _))
      exact formatLoop_conversion more other (by rw [directive_eq, if_pos fits, read])
    · refine Written.fault more (pieces_conversion other read) fits ?_
      exact ⟨.width, formatLoop_fault more other (by rw [directive_eq, if_neg fits])⟩

/-! ## The result -/

/-- Pieces of which the ones that begin while there is room for a character are complete. -/
def Sound (cap : Nat) (args : Args) (ps : List Piece) : Prop :=
  ∀ front piece rest, ps = front ++ piece :: rest → (textFrom args 0 front).length + 1 < cap → piece.Complete

/-- Every piece that is reached must be complete. -/
theorem soundFrom_iff (k n : Nat) (ps : List Piece) : SoundFrom cap args k n ps ↔
    ∀ front piece rest, ps = front ++ piece :: rest → n + (textFrom args k front).length + 1 < cap →
      piece.Complete := by
  induction ps generalizing k n with
  | nil =>
    refine iff_of_true trivial fun front piece rest same => ?_
    cases front <;> cases same
  | cons first ps ih =>
    rw [SoundFrom, ih]
    constructor
    · rintro (full | ⟨complete, others⟩) front piece rest same more
      · omega
      · cases front with
        | nil =>
          obtain ⟨rfl, rfl⟩ := List.cons.inj same
          exact complete
        | cons _ front =>
          obtain ⟨rfl, rfl⟩ := List.cons.inj same
          refine others front piece rest rfl ?_
          rw [textFrom, List.length_append] at more
          omega
    · intro all
      by_cases full : cap ≤ n + 1
      · exact Or.inl full
      · refine Or.inr ⟨all [] first ps rfl (by rw [textFrom, List.length_nil]; omega), ?_⟩
        intro front piece rest same more
        refine all (first :: front) piece rest (by rw [same]; rfl) ?_
        rw [textFrom, List.length_append]
        omega

/-- The formatter reads nothing behind the format, writes `cap` bytes at most, the last one a NUL, and what it
writes is the text of the format as far as it fits. -/
def Formats (cap : Nat) (fmt : List UInt8) (args : Args) : Prop :=
  ∃ buf, tnLogfVformat cap fmt args = .ok buf ∧ buf.length ≤ cap ∧
    buf = (textFrom args 0 (pieces fmt)).take (cap - 1) ++ [0]

/-- The formatter does what it says just when each conversion that begins while there is room is not cut by
the end of the format, a lone `%` apart, and has a width that is an `int`. -/
theorem formats_iff {cap : Nat} (some : 1 ≤ cap) (fmt : List UInt8) (args : Args) :
    Formats cap fmt args ↔ Sound cap args (pieces fmt) := by
  have room : ([] : List UInt8).length + 1 ≤ cap := some
  have written : Written cap args 0 [] fmt := formatLoop_written fmt room
  have same : SoundFrom cap args 0 ([] : List UInt8).length (pieces fmt) ↔ Sound cap args (pieces fmt) := by
    rw [soundFrom_iff, List.length_nil]
    simp only [Nat.zero_add]
    exact Iff.rfl
  rw [Formats, tnLogfVformat, if_neg (by omega)]
  constructor
  -- a piece that is not complete makes the loop fail
  · rintro ⟨buf, run, -, -⟩
    by_contra bad
    obtain ⟨fault, failed⟩ := written.unsound fun sound => bad (same.mp sound)
    rw [failed] at run
    cases run
  -- otherwise the text that fits is written, and the zero behind it
  · intro sound
    have short := length_take_lt some (textFrom args 0 (pieces fmt))
    rw [written.sound (same.mpr sound), List.nil_append]
    refine ⟨_, put_ok (by omega) 0, ?_, rfl⟩
    rw [List.length_append]
    exact short

/-- `%-5s|` with the string at address 4. -/
theorem formats_iff_string :
    let args : Args := ⟨fun _ => 4, fun _ => [116, 99, 112]⟩
    Formats 16 [37, 45, 53, 115, 124] args ↔ Sound 16 args (pieces [37, 45, 53, 115, 124]) :=
  formats_iff (by decide) _ _

/-- `%5` is read past its end. -/
theorem not_forall_formats : ¬∀ cap fmt args, 1 ≤ cap → Formats cap fmt args := by
  intro all
  obtain ⟨buf, run, -, -⟩ := all 16 [37, 53] ⟨fun _ => 0, fun _ => []⟩ (by decide)
  have read : directive [53] = .error .read := by decide
  rw [tnLogfVformat, if_neg (by decide), formatLoop_fault (by decide) (by decide) read] at run
  cases run

end LogFormat

end Tolunnet
