import Mathlib.Data.List.Induction
import Mathlib.Data.List.TakeWhile
import Tolunnet.Http.Chunked

/-!
# `Tolunnet.Http.Lenient`: what the decoder takes for a body

The decoder skips what it does not know. A size line is everything up to the next LF, its size is
the number of the hexadecimal digits before a semicolon, and behind the data everything is skipped up
to the next LF. A `Reading` is an input taken apart in this way. `run_reading` and `Traced.reading`
say that the decoder comes to the end of a body exactly behind a reading.

So a line without a single digit has the size 0 and ends the body, and what stands between data and
the next LF goes unseen. `reported_iff` has these as the only ways in which a malformed body is
reported complete.
-/

set_option autoImplicit false

namespace Tolunnet

namespace Chunked

open Feed

/-! ## Readings -/

/-- The digits of a size line: those before a semicolon. -/
def lineDigits (line : List UInt8) : List UInt8 :=
  (line.takeWhile (· ≠ 59)).filter fun c => 0 ≤ hexOf c

/-- The number of some digits after `acc`. -/
def digitsNumber (acc : Nat) (digits : List UInt8) : Nat :=
  digits.foldl (fun n c => 16 * n + (hexOf c).toNat) acc

/-- The size of a size line. -/
def lineSize (line : List UInt8) : Nat := digitsNumber 0 (lineDigits line)

/-- A chunk with what is skipped in it: all of the line but its digits, and the gap behind the
data. -/
@[ext]
structure Block where
  line : List UInt8
  data : List UInt8
  gap : List UInt8
  noLf : 10 ∉ line
  gapNoLf : 10 ∉ gap
  size : data.length = lineSize line
  nonempty : data ≠ []
  bound : lineSize line ≤ 0x7FFFFFF

/-- The chunk as it was sent. -/
def Block.bytes (b : Block) : List UInt8 := b.line ++ 10 :: (b.data ++ (b.gap ++ [10]))

/-- Several chunks as they were sent, and their data. -/
def blockBytes (bs : List Block) : List UInt8 := (bs.map Block.bytes).flatten
def blockData (bs : List Block) : List UInt8 := (bs.map Block.data).flatten

/-- An input taken apart up to a size line of size 0. -/
@[ext]
structure Reading where
  blocks : List Block
  last : List UInt8
  noLf : 10 ∉ last
  zero : lineSize last = 0

namespace Reading

/-- The input up to that line. -/
def bytes (r : Reading) : List UInt8 := blockBytes r.blocks ++ (r.last ++ [10])

/-- The data of the chunks. -/
def data (r : Reading) : List UInt8 := blockData r.blocks

/-- The last size line has a digit, and the line end follows the data of each chunk. -/
def Proper (r : Reading) : Prop :=
  lineDigits r.last ≠ [] ∧ ∀ b ∈ r.blocks, b.gap = [] ∨ b.gap = [13]

end Reading

variable {st : TnChunkState} {c : UInt8} {p l line out : List UInt8} {bs bs' : List Block}

/-! ## Lines -/

theorem hexOf_lt (c : UInt8) : hexOf c < 16 := by
  unfold hexOf
  split_ifs with dec low up
  · have : c.toNat ≤ 57 := dec.2
    omega
  · have : c.toNat ≤ 102 := low.2
    omega
  · have : c.toNat ≤ 70 := up.2
    omega
  · decide

/-- A digit counts unless it stands behind a semicolon. -/
theorem lineDigits_append (line : List UInt8) (c : UInt8) : lineDigits (line ++ [c])
    = if 59 ∈ line ∨ hexOf c < 0 then lineDigits line else lineDigits line ++ [c] := by
  unfold lineDigits
  rw [List.takeWhile_append]
  by_cases ext : 59 ∈ line
  · have short : (line.takeWhile (· ≠ 59)).length ≠ line.length := fun h => by
      have all := (List.takeWhile_prefix (p := (· ≠ 59)) (l := line)).eq_of_length h
      simpa using List.takeWhile_eq_self_iff.mp all 59 ext
    rw [if_neg short, if_pos (Or.inl ext)]
  · have whole : line.takeWhile (· ≠ 59) = line := List.takeWhile_eq_self_iff.mpr fun d hd => by
      have : d ≠ 59 := fun h => ext (h ▸ hd)
      simpa using this
    rw [whole, if_pos rfl, List.filter_append]
    by_cases digit : hexOf c < 0
    · rw [if_pos (Or.inr digit)]
      by_cases hc : c = 59 <;> simp [hc, Int.not_le.mpr digit]
    · have : c ≠ 59 := fun h => digit (h ▸ by decide)
      rw [if_neg (by tauto)]
      simp [this, Int.not_lt.mp digit]

theorem lineSize_append (line : List UInt8) (c : UInt8) : lineSize (line ++ [c])
    = if 59 ∈ line ∨ hexOf c < 0 then lineSize line else 16 * lineSize line + (hexOf c).toNat := by
  unfold lineSize
  rw [lineDigits_append]
  split_ifs
  · rfl
  · rw [digitsNumber, List.foldl_append]
    rfl

/-- A size is 0 when its digits are. -/
theorem lineSize_eq_zero_iff : lineSize line = 0 ↔ ∀ c ∈ lineDigits line, hexOf c = 0 := by
  have digit : ∀ c ∈ lineDigits line, 0 ≤ hexOf c := fun c hc => by
    simpa using (List.mem_filter.mp hc).2
  unfold lineSize
  generalize lineDigits line = digits at digit ⊢
  have sum : ∀ acc, digitsNumber acc digits = 0 ↔ acc = 0 ∧ ∀ c ∈ digits, hexOf c = 0 := by
    induction digits with
    | nil => simp [digitsNumber]
    | cons c digits ih =>
      intro acc
      have first := digit c List.mem_cons_self
      have rest := ih (fun d hd => digit d (List.mem_cons_of_mem _ hd)) (16 * acc + (hexOf c).toNat)
      rw [show digitsNumber acc (c :: digits) = digitsNumber (16 * acc + (hexOf c).toNat) digits from rfl,
        rest, List.forall_mem_cons]
      constructor
      · rintro ⟨h, others⟩
        exact ⟨by omega, by omega, others⟩
      · rintro ⟨rfl, h, others⟩
        exact ⟨by omega, others⟩
  rw [sum 0]
  simp

/-- The state of the decoder inside a size line. -/
def lineState (line : List UInt8) : TnChunkState := ⟨.size, lineSize line, 0, decide (59 ∈ line)⟩

/-- One more byte of a size line: the size grows too large, or the line does. -/
theorem chunkStep_line (bound : lineSize line ≤ 0x7FFFFFF) (hc : c ≠ 10) :
    (0x7FFFFFF < lineSize (line ++ [c]) ∧ (chunkStep (lineState line) c).1.state = .error ∧
      (chunkStep (lineState line) c).2 = []) ∨
    (lineSize (line ++ [c]) ≤ 0x7FFFFFF ∧ chunkStep (lineState line) c = (lineState (line ++ [c]), [])) := by
  have pos := hexOf_lt c
  have member : 59 ∈ line ++ [c] ↔ 59 ∈ line ∨ c = 59 := by simp [eq_comm]
  by_cases skipped : 59 ∈ line ∨ hexOf c < 0
  · have size : lineSize (line ++ [c]) = lineSize line := by rw [lineSize_append, if_pos skipped]
    refine Or.inr ⟨size ▸ bound, ?_⟩
    by_cases semicolon : c = 59
    · simp [chunkStep, lineState, semicolon, ← size]
    · have no_digit : ¬ (hexOf c ≥ 0 ∧ decide (59 ∈ line) = false) := by
        rintro ⟨h, ext⟩
        obtain h' | h' := skipped
        · simp [h'] at ext
        · omega
      simp only [chunkStep, lineState, if_neg semicolon, if_neg no_digit, if_neg hc, size, member]
      simp [semicolon]
  · have digit : 0 ≤ hexOf c ∧ 59 ∉ line := by
      rw [not_or] at skipped
      exact ⟨by omega, skipped.1⟩
    have semicolon : c ≠ 59 := fun h => by
      rw [h] at digit
      exact absurd digit.1 (by decide)
    have size := lineSize_append line c
    rw [if_neg skipped] at size
    have taken : hexOf c ≥ 0 ∧ decide (59 ∈ line) = false := ⟨digit.1, by simp [digit.2]⟩
    by_cases large : lineSize line > 0x07FFFFF
    · refine Or.inl ⟨by omega, ?_⟩
      have : (lineSize line : Int) > 0x07FFFFF := by omega
      simp [chunkStep, lineState, semicolon, taken, this]
    · have fits : ¬ (lineSize line : Int) > 0x07FFFFF := by omega
      have shifted := shiftIn_eq (show lineSize line ≤ 0x7FFFFF by omega) ⟨(hexOf c).toNat, by omega⟩
      rw [show ((⟨(hexOf c).toNat, by omega⟩ : Fin 16).val : Int) = hexOf c by
        simp only
        omega] at shifted
      refine Or.inr ⟨by omega, ?_⟩
      simp only [chunkStep, lineState, if_neg semicolon, if_pos taken, if_neg fits, shifted, size]
      simp [digit.2, semicolon.symm]

/-- The end of a size line. -/
theorem chunkStep_lineEnd (line : List UInt8) : chunkStep (lineState line) 10 =
    (if lineSize line = 0 then ⟨.done, 0, 0, false⟩ else ⟨.data, lineSize line, lineSize line, false⟩,
      []) := by
  by_cases zero : lineSize line = 0
  · simp [chunkStep, lineState, no_digit, zero]
  · simp [chunkStep, lineState, no_digit, zero]

/-! ## The decoder on a reading -/

/-- A line grows no smaller. -/
theorem lineSize_le_append (line : List UInt8) (c : UInt8) : lineSize line ≤ lineSize (line ++ [c]) := by
  rw [lineSize_append]
  split <;> omega

theorem run_line (noLf : 10 ∉ line) (bound : lineSize line ≤ 0x7FFFFFF) :
    run chunkStep tnChunkInit line = (lineState line, []) := by
  induction line using List.reverseRecOn with
  | nil => rfl
  | append_singleton line c ih =>
    have before := Nat.le_trans (lineSize_le_append line c) bound
    have hc : c ≠ 10 := fun h => noLf (by simp [h])
    rw [run_append, ih (fun h => noLf (List.mem_append_left _ h)) before]
    obtain ⟨large, -⟩ | ⟨-, step⟩ := chunkStep_line before hc
    · omega
    · rw [run_cons, step]
      rfl

/-- What stands in a gap is skipped. -/
theorem run_gap (hs : st.state = .crlf) (noLf : 10 ∉ l) : run chunkStep st l = (st, []) := by
  induction l with
  | nil => rfl
  | cons c l ih =>
    have hc : c ≠ 10 := fun h => noLf (by simp [h])
    have still : chunkStep st c = (st, []) := by simp [chunkStep, hs, hc]
    rw [run_cons, still, ih fun h => noLf (List.mem_cons_of_mem _ h)]
    rfl

theorem run_block (b : Block) : run chunkStep tnChunkInit b.bytes = (tnChunkInit, b.data) := by
  have size_ne : lineSize b.line ≠ 0 := fun h => by
    rw [← b.size] at h
    exact b.nonempty (List.length_eq_zero_iff.mp h)
  have data := @run_data ⟨.data, lineSize b.line, lineSize b.line, false⟩ b.data rfl
    (by show 0 < (lineSize b.line : Int); omega) (Int.le_of_eq (by rw [b.size]))
  unfold Block.bytes
  rw [run_append, run_line b.noLf b.bound, run_cons, chunkStep_lineEnd, if_neg size_ne, run_append,
    data]
  simp only [b.size, if_true, Int.sub_self]
  rw [run_append, run_gap rfl b.gapNoLf]
  simp [run, chunkStep, tnChunkInit]

theorem run_blocks (bs : List Block) :
    run chunkStep tnChunkInit (blockBytes bs) = (tnChunkInit, blockData bs) := by
  induction bs with
  | nil => rfl
  | cons b bs ih =>
    show run chunkStep tnChunkInit (b.bytes ++ blockBytes bs) = (tnChunkInit, b.data ++ blockData bs)
    rw [run_append, run_block, ih]

/-- A reading is decoded to the end of the body. -/
theorem run_reading (r : Reading) : run chunkStep tnChunkInit r.bytes = (⟨.done, 0, 0, false⟩, r.data) := by
  unfold Reading.bytes
  rw [run_append, run_blocks, run_append, run_line r.noLf (by rw [r.zero]; omega), run_cons,
    chunkStep_lineEnd, if_pos r.zero]
  simp [Reading.data]

/-! ## Every state of the decoder -/

/-- Where the decoder can be after an input, and what of it that says. -/
inductive Traced : List UInt8 → TnChunkState → List UInt8 → Prop
  | size {bs : List Block} {line : List UInt8} (noLf : 10 ∉ line) (bound : lineSize line ≤ 0x7FFFFFF) :
      Traced (blockBytes bs ++ line) (lineState line) (blockData bs)
  | data {bs : List Block} {line got : List UInt8} (noLf : 10 ∉ line)
      (bound : lineSize line ≤ 0x7FFFFFF) (more : got.length < lineSize line) :
      Traced (blockBytes bs ++ (line ++ 10 :: got))
        ⟨.data, lineSize line, lineSize line - got.length, false⟩ (blockData bs ++ got)
  | crlf {bs : List Block} {line data gap : List UInt8} (noLf : 10 ∉ line)
      (bound : lineSize line ≤ 0x7FFFFFF) (size : data.length = lineSize line) (nonempty : data ≠ [])
      (gapNoLf : 10 ∉ gap) :
      Traced (blockBytes bs ++ (line ++ 10 :: (data ++ gap))) ⟨.crlf, lineSize line, 0, false⟩
        (blockData bs ++ data)
  | done {st : TnChunkState} (r : Reading) (tail : List UInt8) (hs : st.state = .done) :
      Traced (r.bytes ++ tail) st r.data
  | error {p out : List UInt8} {st : TnChunkState} (hs : st.state = .error) : Traced p st out

/-- One more byte. -/
theorem Traced.step (h : Traced p st out) (c : UInt8) :
    Traced (p ++ [c]) (chunkStep st c).1 (out ++ (chunkStep st c).2) := by
  cases h with
  | @size bs line noLf bound =>
    -- The line feed ends the size line.
    by_cases lf : c = 10
    · subst lf
      rw [chunkStep_lineEnd, List.append_nil, List.append_assoc]
      by_cases zero : lineSize line = 0
      · rw [if_pos zero]
        have whole := @Traced.done ⟨.done, 0, 0, false⟩ ⟨bs, line, noLf, zero⟩ [] rfl
        rwa [List.append_nil] at whole
      · rw [if_neg zero]
        have begun := @Traced.data bs line [] noLf bound (by simp; omega)
        simpa using begun
    · rw [List.append_assoc]
      obtain ⟨-, error, -⟩ | ⟨bound', step⟩ := chunkStep_line bound lf
      · exact .error error
      · rw [step, List.append_nil]
        exact .size (by simpa [noLf] using Ne.symm lf) bound'
  | @data bs line got noLf bound more =>
    have one : chunkStep ⟨.data, lineSize line, lineSize line - got.length, false⟩ c
        = (⟨if (lineSize line : Int) - got.length = 1 then .crlf else .data, lineSize line,
            lineSize line - got.length - 1, false⟩, [c]) := rfl
    have whole : blockBytes bs ++ (line ++ 10 :: got) ++ [c]
        = blockBytes bs ++ (line ++ 10 :: (got ++ [c])) := by simp
    rw [one, whole, List.append_assoc]
    -- The last byte of the block, or one before it.
    by_cases last : (lineSize line : Int) - got.length = 1
    · have full := @Traced.crlf bs line (got ++ [c]) [] noLf bound
        (by rw [List.length_append, List.length_singleton]; omega) (by simp) (by simp)
      rw [List.append_nil] at full
      rw [if_pos last, last]
      exact full
    · have next := @Traced.data bs line (got ++ [c]) noLf bound
        (by rw [List.length_append, List.length_singleton]; omega)
      rw [if_neg last]
      simpa [Int.sub_sub] using next
  | @crlf bs line data gap noLf bound size nonempty gapNoLf =>
    -- The line feed ends the block.
    by_cases lf : c = 10
    · subst lf
      let b : Block := ⟨line, data, gap, noLf, gapNoLf, size, nonempty, bound⟩
      have next := @Traced.size (bs ++ [b]) [] (by simp) (by decide)
      have bytes : blockBytes (bs ++ [b]) ++ [] = blockBytes bs ++ (line ++ 10 :: (data ++ gap)) ++ [10] := by
        simp [blockBytes, b, Block.bytes]
      have given : blockData (bs ++ [b]) = blockData bs ++ data ++ [] := by simp [blockData, b]
      rw [bytes, given] at next
      exact next
    · have still : chunkStep ⟨.crlf, lineSize line, 0, false⟩ c = (⟨.crlf, lineSize line, 0, false⟩, []) := by
        simp [chunkStep, lf]
      have next := @Traced.crlf bs line data (gap ++ [c]) noLf bound size nonempty
        (by simpa [gapNoLf] using Ne.symm lf)
      rw [still]
      simpa using next
  -- Nothing is read behind the end or an error.
  | done r tail hs =>
    have still : chunkStep st c = (st, []) := by simp [chunkStep, hs]
    rw [still, List.append_nil, List.append_assoc]
    exact .done r _ hs
  | error hs =>
    have still : chunkStep st c = (st, []) := by simp [chunkStep, hs]
    rw [still]
    exact .error hs

theorem traced_run (p : List UInt8) :
    Traced p (run chunkStep tnChunkInit p).1 (run chunkStep tnChunkInit p).2 := by
  induction p using List.reverseRecOn with
  | nil => exact @Traced.size [] [] (by simp) (by decide)
  | append_singleton p c ih =>
    rw [run_append, run_cons]
    simpa using ih.step c

/-- The decoder comes to the end only behind a reading. -/
theorem Traced.reading (h : Traced p st out) (hs : st.state = .done) :
    ∃ r : Reading, r.bytes <+: p ∧ out = r.data := by
  cases h with
  | size _ _ | data _ _ _ | crlf _ _ _ _ _ => exact nomatch hs
  | done r tail _ => exact ⟨r, ⟨tail, rfl⟩, rfl⟩
  | error he => rw [he] at hs; cases hs

/-- The decoder never has a negative number of bytes to go. -/
theorem Traced.left (h : Traced p st out) (hs : st.state = .data) : 0 < st.chunkRem := by
  cases h with
  | size _ _ | crlf _ _ _ _ _ => exact nomatch hs
  | data _ _ more =>
    dsimp only
    omega
  | done r tail hd => rw [hd] at hs; cases hs
  | error he => rw [he] at hs; cases hs

/-! ## There is one reading -/

/-- The first LF splits a text in one way. -/
theorem first_line {a a' u u' : List UInt8} (ha : 10 ∉ a) (ha' : 10 ∉ a')
    (h : a ++ 10 :: u = a' ++ 10 :: u') : a = a' ∧ u = u' := by
  induction a generalizing a' with
  | nil =>
    cases a' with
    | nil => exact ⟨rfl, (List.cons.inj h).2⟩
    | cons d a' => exact absurd (by rw [(List.cons.inj h).1]; exact List.mem_cons_self) ha'
  | cons c a ih =>
    cases a' with
    | nil => exact absurd (by rw [(List.cons.inj h).1]; exact List.mem_cons_self) ha
    | cons d a' =>
      obtain ⟨rfl, tails⟩ := List.cons.inj h
      obtain ⟨rfl, rfl⟩ := ih (fun h => ha (List.mem_cons_of_mem _ h))
        (fun h => ha' (List.mem_cons_of_mem _ h)) tails
      exact ⟨rfl, rfl⟩

theorem reading_unique {last last' t t' : List UInt8} (noLf : 10 ∉ last) (noLf' : 10 ∉ last')
    (zero : lineSize last = 0) (zero' : lineSize last' = 0)
    (h : blockBytes bs ++ (last ++ 10 :: t) = blockBytes bs' ++ (last' ++ 10 :: t')) :
    bs = bs' ∧ last = last' := by
  have split : ∀ (b : Block) bs l, blockBytes (b :: bs) ++ l
      = b.line ++ 10 :: (b.data ++ (b.gap ++ 10 :: (blockBytes bs ++ l))) := fun b bs l => by
    simp [blockBytes, Block.bytes]
  have size_ne : ∀ b : Block, lineSize b.line ≠ 0 := fun b h => by
    rw [← b.size] at h
    exact b.nonempty (List.length_eq_zero_iff.mp h)
  induction bs generalizing bs' with
  | nil =>
    cases bs' with
    | nil => exact ⟨rfl, (first_line noLf noLf' h).1⟩
    | cons b bs' =>
      rw [split] at h
      exact absurd ((first_line noLf b.noLf h).1 ▸ zero) (size_ne b)
  | cons b bs ih =>
    cases bs' with
    | nil =>
      rw [split] at h
      exact absurd ((first_line b.noLf noLf' h).1 ▸ zero') (size_ne b)
    | cons b' bs' =>
      rw [split, split] at h
      obtain ⟨line, rest⟩ := first_line b.noLf b'.noLf h
      obtain ⟨data, rest⟩ := List.append_inj rest (by rw [b.size, b'.size, line])
      obtain ⟨gap, rest⟩ := first_line b.gapNoLf b'.gapNoLf rest
      obtain ⟨rfl, rfl⟩ := ih rest
      exact ⟨congrArg (· :: bs) (Block.ext line data gap), rfl⟩

theorem Reading.unique {r r' : Reading} (h : r.bytes <+: l) (h' : r'.bytes <+: l) : r = r' := by
  obtain ⟨t, rfl⟩ := h
  obtain ⟨t', eq⟩ := h'
  have same : blockBytes r.blocks ++ (r.last ++ 10 :: t) = blockBytes r'.blocks ++ (r'.last ++ 10 :: t') := by
    simpa [Reading.bytes] using eq.symm
  obtain ⟨blocks, last⟩ := reading_unique r.noLf r'.noLf r.zero r'.zero same
  exact Reading.ext blocks last

/-! ## What is reported complete -/

/-- The bytes taken so far hold a whole body: chunks whose data has been given out in full, each
directly followed by its line end, and a size line with at least one digit and none but zeros. -/
def Whole (eaten out : List UInt8) : Prop :=
  ∃ r : Reading, r.bytes <+: eaten ∧ out = r.data ∧
    (lineDigits r.last ≠ [] ∧ ∀ c ∈ lineDigits r.last, hexOf c = 0) ∧
    ∀ b ∈ r.blocks, b.gap = [] ∨ b.gap = [13]

/-- However the input is cut into buffers, the decoder says `DONE` only behind a whole body. -/
def Reported (input : List UInt8) : Prop :=
  ∀ bufs : List (List UInt8), bufs.flatten = input → ∀ n,
    (after tnChunkFeed tnChunkInit bufs n).st.state = .done →
      Whole (after tnChunkFeed tnChunkInit bufs n).eaten (after tnChunkFeed tnChunkInit bufs n).out

/-- A call in any state that a run reaches. -/
theorem tnChunkFeed_follower :
    Follower chunkStep tnChunkFeed fun st => st.state = .data → 0 < st.chunkRem where
  le := fun st l h => by
    by_cases error : st.state = .error
    · cases l <;> simp [tnChunkFeed, feedLoop, error]
    · exact tnChunkFeed_feeder.le st l ⟨error, h⟩
  exact := fun st l h => by
    by_cases error : st.state = .error
    · cases l <;> simp [tnChunkFeed, feedLoop, error]
    · exact tnChunkFeed_feeder.exact st l ⟨error, h⟩

/-- What has been taken and given out, however the input is cut. -/
theorem followed_traced (bufs : List (List UInt8)) (n : Nat) :
    (after tnChunkFeed tnChunkInit bufs n).eaten <+: bufs.flatten ∧
    Traced (after tnChunkFeed tnChunkInit bufs n).eaten (after tnChunkFeed tnChunkInit bufs n).st
      (after tnChunkFeed tnChunkInit bufs n).out := by
  have ok : Along (fun st => st.state = .data → 0 < st.chunkRem) chunkStep tnChunkInit bufs.flatten :=
    fun p _ => (traced_run p).left
  have followed := following_spec tnChunkFeed_follower ok n
  refine ⟨⟨_, followed.eaten⟩, ?_⟩
  have := traced_run (after tnChunkFeed tnChunkInit bufs n).eaten
  rwa [← followed.exact] at this

/-- An input with a reading is decoded to the end of the body when it comes in one buffer. -/
theorem done_of_reading {r : Reading} (h : r.bytes <+: l) : ∃ n,
    (after tnChunkFeed tnChunkInit [l] n).st.state = .done := by
  obtain ⟨t, rfl⟩ := h
  have run_all : run chunkStep tnChunkInit (r.bytes ++ t) = (⟨.done, 0, 0, false⟩, r.data) := by
    rw [run_append, run_reading, run_done rfl, List.append_nil]
  have ready : Along Ready chunkStep tnChunkInit [r.bytes ++ t].flatten := by
    rintro p ⟨q, hq⟩
    refine ⟨fun error => ?_, (traced_run p).left⟩
    have stuck : (run chunkStep (run chunkStep tnChunkInit p).1 q).1.state = .error := by
      generalize (run chunkStep tnChunkInit p).1 = st at error
      clear hq run_all
      induction q with
      | nil => exact error
      | cons c q ih =>
        have still : chunkStep st c = (st, []) := by simp [chunkStep, error]
        rw [run_cons, still]
        exact ih
    rw [List.flatten_cons, List.flatten_nil, List.append_nil] at hq
    have all := congrArg (fun s => s.1.state) (run_append chunkStep tnChunkInit p q)
    rw [hq, run_all] at all
    have clash : TnChunkStateEnum.done = .error := all.trans stuck
    cases clash
  have nonempty : ∀ b ∈ [r.bytes ++ t], b ≠ [] := by simp [Reading.bytes]
  have fed := feeding_spec tnChunkFeed_feeder ready nonempty (r.bytes ++ t).length
  have left := left_eq_nil (n := (r.bytes ++ t).length) tnChunkFeed_feeder ready nonempty (by simp)
  refine ⟨(r.bytes ++ t).length, ?_⟩
  have eaten := fed.eaten
  rw [left, List.flatten_nil, List.append_nil, List.flatten_cons, List.flatten_nil, List.append_nil]
    at eaten
  have state := congrArg Prod.fst fed.exact
  rw [eaten, run_all] at state
  exact congrArg TnChunkState.state state

theorem Reported.proper {input : List UInt8} (h : Reported input) {r : Reading}
    (hr : r.bytes <+: input) : r.Proper := by
  obtain ⟨n, done⟩ := done_of_reading hr
  obtain ⟨r', taken, -, ⟨digit, -⟩, gaps⟩ := h [input] (by simp) n done
  have whole : r'.bytes <+: input := taken.trans (by simpa using (followed_traced [input] n).1)
  exact Reading.unique hr whole ▸ ⟨digit, gaps⟩

/-- A malformed body is reported complete exactly when the input has a reading whose last size line
has no digit, or which has something other than a line end behind the data of a chunk. -/
theorem reported_iff (input : List UInt8) :
    Reported input ↔ ∀ r : Reading, r.bytes <+: input → r.Proper := by
  refine ⟨fun h r hr => h.proper hr, ?_⟩
  -- a trace of the decoder is a reading, and every reading of the input is proper
  rintro h bufs rfl n done
  obtain ⟨taken, traced⟩ := followed_traced bufs n
  obtain ⟨r, hr, data⟩ := traced.reading done
  obtain ⟨digit, gaps⟩ := h r (hr.trans taken)
  exact ⟨r, hr, data, ⟨digit, lineSize_eq_zero_iff.mp r.zero⟩, gaps⟩

/-- An empty line is taken for the end of the body. -/
theorem not_forall_reported : ¬ ∀ input, Reported input := fun h => by
  let r : Reading := ⟨[], [], by simp, rfl⟩
  have taken : r.bytes <+: [10] := ⟨[], rfl⟩
  exact ((h [10]).proper taken).1 rfl

end Chunked

end Tolunnet
