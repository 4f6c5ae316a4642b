import Tolunnet.Common.HttpUrl
import Tolunnet.Lib.Feed

/-!
# `Tolunnet.Http.Chunked`: bodies sent in chunks

`chunkStep` is the decoder one byte at a time, and `tnChunkFeed` does on a buffer what it does on the
bytes it consumes (`tnChunkFeed_feeder`). A `ChunkedBody` is a body as a server may write it: sizes in
either case with any leading zeros, extensions, and lines that end in CRLF or in LF. `chunked_exact`
says that such a body is decoded to its data whatever the buffers it arrives in.

A size stays below 2^27 because the decoder refuses a further digit above `0x7FFFFF`. So the shift that
takes the digit in never overflows (`shiftIn_eq`).
-/

set_option autoImplicit false

namespace Tolunnet

namespace Chunked

open Feed

variable {st : TnChunkState} {c : UInt8} {l : List UInt8} {pos : Nat}

/-! ## One byte at a time -/

/-- The decoder on one byte. -/
def chunkStep (st : TnChunkState) (c : UInt8) : TnChunkState × List UInt8 :=
  match st.state with
  | .size =>
    if c = 59 then ({ st with inExt := true }, [])
    else if hexOf c ≥ 0 ∧ st.inExt = false then
      if st.chunkSize > 0x07FFFFF then ({ st with state := .error }, [])
      else ({ st with chunkSize := shiftIn st.chunkSize (hexOf c) }, [])
    else if c = 10 then
      if st.chunkSize = 0 then ({ st with inExt := false, state := .done }, [])
      else ({ st with inExt := false, chunkRem := st.chunkSize, state := .data }, [])
    else (st, [])
  | .data =>
    ({ st with chunkRem := st.chunkRem - 1, state := if st.chunkRem = 1 then .crlf else .data }, [c])
  | .crlf => if c = 10 then ({ st with chunkSize := 0, state := .size }, []) else (st, [])
  | .done | .error => (st, [])

/-- A state with something left to do for the next byte. -/
def Ready (st : TnChunkState) : Prop := st.state ≠ .error ∧ (st.state = .data → 0 < st.chunkRem)

/-- A stretch of chunk data. -/
theorem run_data (hs : st.state = .data) (hr : 0 < st.chunkRem) (hl : (l.length : Int) ≤ st.chunkRem) :
    run chunkStep st l = ({ st with chunkRem := st.chunkRem - l.length,
                                    state := if st.chunkRem = l.length then .crlf else .data }, l) := by
  induction l generalizing st with
  | nil =>
    have more : st.chunkRem ≠ 0 := by omega
    simp [more, ← hs]
  | cons c l ih =>
    rw [List.length_cons] at hl ⊢
    have first : chunkStep st c = ({ st with
        chunkRem := st.chunkRem - 1, state := if st.chunkRem = 1 then .crlf else .data }, [c]) := by
      unfold chunkStep
      rw [hs]
    rw [run_cons, first]
    rcases eq_or_ne l [] with rfl | hne
    · simp
    · have : 0 < l.length := List.length_pos_iff.mpr hne
      have more : st.chunkRem ≠ 1 := by omega
      simp only [more, if_false]
      rw [ih rfl (show 0 < st.chunkRem - 1 by omega) (show (l.length : Int) ≤ st.chunkRem - 1 by omega)]
      have rem : st.chunkRem - 1 - (l.length : Int) = st.chunkRem - ((l.length + 1 : Nat) : Int) := by
        omega
      have last : st.chunkRem - 1 = (l.length : Int) ↔ st.chunkRem = ((l.length + 1 : Nat) : Int) := by
        omega
      simp only [rem, last, List.singleton_append]

/-- Nothing follows the last chunk. -/
theorem run_done (hs : st.state = .done) : run chunkStep st l = (st, []) := by
  induction l with
  | nil => rfl
  | cons c l ih =>
    have still : chunkStep st c = (st, []) := by
      unfold chunkStep
      rw [hs]
    rw [run_cons, still, ih]
    rfl

/-- The loop takes `n` bytes and does on them what the machine does. -/
structure Takes (st : TnChunkState) (pos : Nat) (l : List UInt8) (n : Nat)
    (r : TnChunkState × Nat × List UInt8) : Prop where
  le : n ≤ l.length
  progress : l ≠ [] → 0 < n
  consumed : r.2.1 = pos + n
  exact : (r.1, r.2.2) = run chunkStep st (l.take n)

/-- A byte that the loop passes over on its way. -/
theorem Takes.cons {st' : TnChunkState} {n : Nat} {r : TnChunkState × Nat × List UInt8}
    (h : Takes st' (pos + 1) l n r) (hc : chunkStep st c = (st', [])) :
    Takes st pos (c :: l) (n + 1) r where
  le := Nat.succ_le_succ h.le
  progress := fun _ => Nat.succ_pos n
  consumed := by
    rw [h.consumed]
    omega
  exact := by
    rw [List.take_succ_cons, run_cons, hc, h.exact]
    rfl

/-- A byte that ends the call. -/
theorem Takes.last {st' : TnChunkState} (hc : chunkStep st c = (st', [])) :
    Takes st pos (c :: l) 1 (st', pos + 1, []) :=
  ⟨by simp, fun _ => Nat.one_pos, rfl, by rw [List.take_succ_cons, run_cons, hc]; simp⟩

theorem ready_size (h : st.state = .size) : Ready st :=
  ⟨by rw [h]; decide, fun hd => by rw [h] at hd; cases hd⟩

theorem ready_crlf (h : st.state = .crlf) : Ready st :=
  ⟨by rw [h]; decide, fun hd => by rw [h] at hd; cases hd⟩

theorem no_digit : hexOf 10 = -1 := rfl

/-- The loop takes bytes one by one. -/
theorem feedLoop_takes (l : List UInt8) (pos : Nat) (h : Ready st) :
    ∃ n, Takes st pos l n (feedLoop st pos l) := by
  induction l generalizing st pos with
  | nil => exact ⟨0, Nat.le_refl 0, fun hne => absurd rfl hne, rfl, rfl⟩
  | cons c l ih =>
    unfold feedLoop
    split
    · rename_i hs
      split_ifs with semicolon digit large newline last
      · have ready : Ready { st with inExt := true } := ready_size hs
        obtain ⟨n, taken⟩ := ih (pos + 1) ready
        exact ⟨n + 1, taken.cons (by simp [chunkStep, hs, semicolon])⟩
      · exact ⟨1, .last (by simp [chunkStep, hs, semicolon, digit, large])⟩
      · have ready : Ready { st with chunkSize := shiftIn st.chunkSize (hexOf c) } := ready_size hs
        obtain ⟨n, taken⟩ := ih (pos + 1) ready
        exact ⟨n + 1, taken.cons (by simp only [chunkStep, hs, semicolon, digit, large]; simp)⟩
      · subst newline
        exact ⟨1, .last (by simp [chunkStep, hs, last, no_digit])⟩
      · subst newline
        exact ⟨1, .last (by simp [chunkStep, hs, last, no_digit])⟩
      · obtain ⟨n, taken⟩ := ih (pos + 1) h
        exact ⟨n + 1, taken.cons (by simp only [chunkStep, hs, semicolon, digit, newline]; simp)⟩
    · rename_i hs
      have left := h.2 hs
      dsimp only
      generalize htake : (if (l.length : Int) + 1 < st.chunkRem then (l.length : Int) + 1
        else st.chunkRem) = take
      have bounds : 0 < take ∧ take ≤ l.length + 1 ∧ take ≤ st.chunkRem := by
        rw [← htake]
        split <;> omega
      rw [if_neg (by omega)]
      have count : (((c :: l).take take.toNat).length : Int) = take := by
        rw [List.length_take, List.length_cons]
        omega
      refine ⟨take.toNat, by rw [List.length_cons]; omega, fun _ => by omega, rfl, ?_⟩
      rw [run_data hs left (by omega), count]
      by_cases all : st.chunkRem = take
      · simp [all]
      · have some_left : st.chunkRem - take ≠ 0 := by omega
        simp [all, some_left, hs]
    · rename_i hs
      split_ifs with newline
      · have ready : Ready { st with chunkSize := 0, state := .size } := ready_size rfl
        obtain ⟨n, taken⟩ := ih (pos + 1) ready
        exact ⟨n + 1, taken.cons (by simp [chunkStep, hs, newline])⟩
      · obtain ⟨n, taken⟩ := ih (pos + 1) h
        exact ⟨n + 1, taken.cons (by simp [chunkStep, hs, newline])⟩
    · rename_i hs
      refine ⟨l.length + 1, Nat.le_refl _, fun _ => Nat.succ_pos _, rfl, ?_⟩
      rw [List.take_of_length_le (by simp), run_done hs]
    · rename_i hs
      exact absurd hs h.1

/-- A call does on its buffer what the machine does on the bytes that are consumed. -/
theorem tnChunkFeed_feeder : Feeder chunkStep tnChunkFeed Ready where
  le := fun st l h => by
    obtain ⟨n, taken⟩ := feedLoop_takes l 0 h
    rw [show (tnChunkFeed st l).2.1 = 0 + n from taken.consumed, Nat.zero_add]
    exact taken.le
  pos := fun st l h hl => by
    obtain ⟨n, taken⟩ := feedLoop_takes l 0 h
    rw [show (tnChunkFeed st l).2.1 = 0 + n from taken.consumed, Nat.zero_add]
    exact taken.progress hl
  exact := fun st l h => by
    obtain ⟨n, taken⟩ := feedLoop_takes l 0 h
    rw [show (tnChunkFeed st l).2.1 = 0 + n from taken.consumed, Nat.zero_add]
    exact taken.exact

/-! ## Bodies -/

/-- The digit `d`, in lower or upper case. -/
def digitByte (d : Fin 16 × Bool) : UInt8 :=
  if d.1.val < 10 then UInt8.ofNat (48 + d.1.val)
  else UInt8.ofNat ((if d.2 then 65 else 97) + (d.1.val - 10))

/-- The number that digits stand for after `acc`. -/
def hexNumber (acc : Nat) (digits : List (Fin 16 × Bool)) : Nat :=
  digits.foldl (fun n d => 16 * n + d.1.val) acc

/-- A size line: digits, an extension, and CRLF or LF. -/
structure SizeLine where
  digits : List (Fin 16 × Bool)
  ext : Option (List UInt8)
  cr : Bool
  nonempty : digits ≠ []
  noLf : ∀ x, ext = some x → 10 ∉ x

namespace SizeLine

/-- The size. -/
def value (line : SizeLine) : Nat := hexNumber 0 line.digits

/-- The text of the extension with its semicolon. -/
def extText (line : SizeLine) : List UInt8 :=
  match line.ext with
  | none => []
  | some x => 59 :: x

/-- What stands before LF at the end of a line. -/
def crText (cr : Bool) : List UInt8 := if cr then [13] else []

/-- The line up to its LF. -/
def head (line : SizeLine) : List UInt8 :=
  line.digits.map digitByte ++ (line.extText ++ crText line.cr)

end SizeLine

open SizeLine

/-- A chunk that is not the last one. -/
structure Chunk where
  line : SizeLine
  data : List UInt8
  cr : Bool
  size : line.value = data.length
  pos : 1 ≤ line.value
  bound : line.value ≤ 0x7FFFFFF

/-- The chunk as it is sent. -/
def Chunk.bytes (k : Chunk) : List UInt8 := k.line.head ++ (10 :: (k.data ++ (crText k.cr ++ [10])))

/-- A body up to the size line of its last chunk. -/
structure ChunkedBody where
  chunks : List Chunk
  last : SizeLine
  zero : last.value = 0

namespace ChunkedBody

/-- The body up to the LF of its last size line. -/
def head (body : ChunkedBody) : List UInt8 := (body.chunks.map Chunk.bytes).flatten ++ body.last.head

/-- The body up to its last size line. -/
def bytes (body : ChunkedBody) : List UInt8 := body.head ++ [10]

/-- The data of its chunks. -/
def data (body : ChunkedBody) : List UInt8 := (body.chunks.map Chunk.data).flatten

end ChunkedBody

/-! ## Decoding one -/

variable {st' st'' : TnChunkState} {l' out out' : List UInt8}

/-- The decoder has neither come to the end nor failed. -/
structure Live (st : TnChunkState) : Prop where
  ready : Ready st
  more : st.state ≠ .done

theorem live_size (h : st.state = .size) : Live st := ⟨ready_size h, by rw [h]; decide⟩

theorem live_crlf (h : st.state = .crlf) : Live st := ⟨ready_crlf h, by rw [h]; decide⟩

theorem live_data (h : st.state = .data) (hr : 0 < st.chunkRem) : Live st :=
  ⟨⟨by rw [h]; decide, fun _ => hr⟩, by rw [h]; decide⟩

/-- The bytes lead from one state to another, by live states only. -/
structure Passes (st : TnChunkState) (l : List UInt8) (st' : TnChunkState) (out : List UInt8) :
    Prop where
  live : Along Live chunkStep st l
  run : run chunkStep st l = (st', out)

theorem Passes.nil (h : Live st) : Passes st [] st [] := ⟨along_nil.mpr h, rfl⟩

/-- Two parts of a body. -/
theorem Passes.append (h : Passes st l st' out) (h' : Passes st' l' st'' out') :
    Passes st (l ++ l') st'' (out ++ out') where
  live := along_append.mpr ⟨h.live, by rw [h.run]; exact h'.live⟩
  run := by rw [run_append, h.run, h'.run]

/-- One byte and those after it. -/
theorem Passes.cons (h : Live st) (hc : chunkStep st c = (st', out)) (h' : Passes st' l st'' out') :
    Passes st (c :: l) st'' (out ++ out') where
  live := along_cons.mpr ⟨h, by rw [hc]; exact h'.live⟩
  run := by rw [run_cons, hc, h'.run]

/-- One byte that gives no data. -/
theorem Passes.one (h : Live st) (hc : chunkStep st c = (st', [])) (h' : Live st') :
    Passes st [c] st' [] := .cons h hc (.nil h')

theorem hexOf_digitByte : ∀ (d : Fin 16) (upper : Bool),
    hexOf (digitByte (d, upper)) = d.val ∧ digitByte (d, upper) ≠ 59 := by decide

theorem hexNumber_cons (acc : Nat) (d : Fin 16 × Bool) (digits : List (Fin 16 × Bool)) :
    hexNumber acc (d :: digits) = hexNumber (16 * acc + d.1.val) digits := rfl

/-- A size grows with its digits. -/
theorem le_hexNumber (acc : Nat) (digits : List (Fin 16 × Bool)) : acc ≤ hexNumber acc digits := by
  induction digits generalizing acc with
  | nil => exact Nat.le_refl acc
  | cons d digits ih =>
    rw [hexNumber_cons]
    exact Nat.le_trans (by omega) (ih (16 * acc + d.1.val))

/-- A digit is taken in without an overflow. -/
theorem shiftIn_eq {acc : Nat} (h : acc ≤ 0x7FFFFF) (d : Fin 16) :
    shiftIn acc d.val = ((16 * acc + d.val : Nat) : Int) := by
  have hd := d.isLt
  unfold shiftIn
  rw [Int.bmod_eq_of_le (by omega) (by omega)]
  push_cast
  omega

/-- The digits of a size within the bound. -/
theorem passes_digits (acc : Nat) (digits : List (Fin 16 × Bool))
    (hb : hexNumber acc digits ≤ 0x7FFFFFF) :
    Passes ⟨.size, acc, 0, false⟩ (digits.map digitByte) ⟨.size, hexNumber acc digits, 0, false⟩ [] := by
  induction digits generalizing acc with
  | nil => exact .nil (live_size rfl)
  | cons d digits ih =>
    rw [hexNumber_cons] at hb ⊢
    have small : acc ≤ 0x7FFFFF := by
      have := le_hexNumber (16 * acc + d.1.val) digits
      omega
    obtain ⟨value, semicolon⟩ := hexOf_digitByte d.1 d.2
    have step : chunkStep ⟨.size, acc, 0, false⟩ (digitByte d)
        = (⟨.size, ((16 * acc + d.1.val : Nat) : Int), 0, false⟩, []) := by
      have fits : ¬ (acc : Int) > 0x07FFFFF := by omega
      simp only [chunkStep, if_neg semicolon, value]
      rw [if_pos ⟨by omega, trivial⟩, if_neg fits, shiftIn_eq small]
    exact .cons (live_size rfl) step (ih _ hb)

/-- Text that a size line skips. -/
theorem passes_skipped (hs : st.state = .size) (x : List UInt8)
    (hx : ∀ c ∈ x, c ≠ 10 ∧ (st.inExt = true ∨ c ≠ 59 ∧ hexOf c < 0)) : Passes st x st [] := by
  induction x with
  | nil => exact .nil (live_size hs)
  | cons c x ih =>
    obtain ⟨newline, skip⟩ := hx c List.mem_cons_self
    have step : chunkStep st c = (st, []) := by
      obtain ⟨state, size, rem, inExt⟩ := st
      obtain rfl : state = .size := hs
      obtain ext | ⟨semicolon, digit⟩ := skip
      · obtain rfl : inExt = true := ext
        by_cases hc : c = 59
        · simp [chunkStep, hc]
        · simp [chunkStep, hc, newline]
      · simp [chunkStep, semicolon, show ¬ 0 ≤ hexOf c by omega, newline]
    exact .cons (live_size hs) step (ih fun c hc => hx c (List.mem_cons_of_mem _ hc))

/-- A size line up to its LF. -/
theorem passes_head (line : SizeLine) (hb : line.value ≤ 0x7FFFFFF) : ∃ ext,
    Passes tnChunkInit line.head ⟨.size, line.value, 0, ext⟩ [] := by
  have digits := passes_digits 0 line.digits hb
  have cr : ∀ ext, Passes ⟨.size, line.value, 0, ext⟩ (crText line.cr) ⟨.size, line.value, 0, ext⟩ [] := by
    intro ext
    refine passes_skipped rfl _ fun c hc => ?_
    unfold crText at hc
    split at hc
    · rw [List.mem_singleton.mp hc]
      exact ⟨by decide, Or.inr (by decide)⟩
    · cases hc
  unfold SizeLine.head extText
  cases hx : line.ext with
  | none => exact ⟨false, digits.append (cr false)⟩
  | some x =>
    have text : Passes ⟨.size, line.value, 0, true⟩ x ⟨.size, line.value, 0, true⟩ [] := by
      refine passes_skipped rfl x fun c hc => ⟨?_, Or.inl rfl⟩
      rintro rfl
      exact line.noLf x hx hc
    have semicolon : Passes ⟨.size, line.value, 0, false⟩ (59 :: x) ⟨.size, line.value, 0, true⟩ [] :=
      .cons (live_size rfl) rfl text
    exact ⟨true, digits.append (semicolon.append (cr true))⟩

/-- The data of a chunk. -/
theorem passes_data (size : Int) (data : List UInt8) (hd : data ≠ []) :
    Passes ⟨.data, size, data.length, false⟩ data ⟨.crlf, size, 0, false⟩ data := by
  have pos : 0 < (data.length : Int) := by
    have := List.length_pos_iff.mpr hd
    omega
  constructor
  · intro p hp
    have le : (p.length : Int) ≤ data.length := by
      have := hp.length_le
      omega
    rw [run_data rfl pos le]
    by_cases all : (data.length : Int) = p.length
    · exact live_crlf (by simp only [all, if_true])
    · exact live_data (by simp only [all, if_false]) (by dsimp only; omega)
  · rw [run_data rfl pos (Int.le_refl _)]
    simp

/-- A chunk leaves the decoder as it was at the start. -/
theorem passes_chunk (k : Chunk) : Passes tnChunkInit k.bytes tnChunkInit k.data := by
  obtain ⟨ext, head⟩ := passes_head k.line k.bound
  have data_ne : k.data ≠ [] := by
    intro h
    have size := k.size
    have pos := k.pos
    rw [h, List.length_nil] at size
    omega
  have value_ne : k.line.value ≠ 0 := Nat.ne_of_gt k.pos
  have newline : chunkStep ⟨.size, k.line.value, 0, ext⟩ 10
      = (⟨.data, k.line.value, k.data.length, false⟩, []) := by
    simp [chunkStep, no_digit, value_ne, ← k.size]
  have lineEnd : Passes ⟨.crlf, k.line.value, 0, false⟩ (crText k.cr ++ [10]) tnChunkInit [] := by
    have last : Passes ⟨.crlf, k.line.value, 0, false⟩ [10] tnChunkInit [] :=
      .one (live_crlf rfl) rfl (live_size rfl)
    unfold crText
    split
    · exact .cons (live_crlf rfl) rfl last
    · exact last
  have data := (passes_data k.line.value k.data data_ne).append lineEnd
  have all := head.append (.cons (live_size rfl) newline data)
  rw [List.append_nil] at all
  exact all

/-- A body up to the LF of its last size line. -/
theorem passes_body (body : ChunkedBody) : ∃ ext,
    Passes tnChunkInit body.head ⟨.size, 0, 0, ext⟩ body.data := by
  obtain ⟨ext, last⟩ := passes_head body.last (by rw [body.zero]; decide)
  have chunks : ∀ ks : List Chunk, Passes tnChunkInit (ks.map Chunk.bytes).flatten tnChunkInit
      (ks.map Chunk.data).flatten := by
    intro ks
    induction ks with
    | nil => exact .nil (live_size rfl)
    | cons k ks ih => exact (passes_chunk k).append ih
  have all := (chunks body.chunks).append last
  rw [List.append_nil, body.zero] at all
  exact ⟨ext, all⟩

/-- The machine on a body, up to and with its last LF. -/
theorem run_bytes (body : ChunkedBody) : ∃ st, st.state = .done ∧
    run chunkStep tnChunkInit body.bytes = (st, body.data) := by
  obtain ⟨ext, passes⟩ := passes_body body
  refine ⟨⟨.done, 0, 0, false⟩, rfl, ?_⟩
  have newline : run chunkStep ⟨.size, 0, 0, ext⟩ [10] = (⟨.done, 0, 0, false⟩, []) := by
    simp [run_cons, chunkStep, no_digit]
  rw [ChunkedBody.bytes, run_append, passes.run, newline, List.append_nil]

/-- The machine on a part of a stream that begins with a body: it is done just when it has seen the
last LF of the body. -/
theorem run_begun (body : ChunkedBody) {tail p : List UInt8} (hp : p <+: body.bytes ++ tail) :
    Ready (run chunkStep tnChunkInit p).1 ∧
    ((run chunkStep tnChunkInit p).1.state = .done ↔ body.bytes.length ≤ p.length) := by
  have len : body.bytes.length = body.head.length + 1 := List.length_append
  rcases Nat.lt_or_ge body.head.length p.length with hlt | hge
  · obtain ⟨q, rfl⟩ : body.bytes <+: p := by
      refine List.prefix_of_prefix_length_le (List.prefix_append _ _) hp ?_
      omega
    obtain ⟨st, hs, hrun⟩ := run_bytes body
    rw [run_append, hrun, run_done hs]
    exact ⟨⟨by rw [hs]; decide, fun hd => by rw [hs] at hd; cases hd⟩,
      iff_of_true hs (by rw [List.length_append]; omega)⟩
  · have inside : p <+: body.head := by
      rw [ChunkedBody.bytes, List.append_assoc] at hp
      exact List.prefix_of_prefix_length_le hp (List.prefix_append _ _) hge
    obtain ⟨ext, passes⟩ := passes_body body
    have live := passes.live p inside
    exact ⟨live.ready, iff_of_false live.more (by omega)⟩

/-- A body and what follows it, cut into buffers that are not empty. -/
structure Cut (body : ChunkedBody) where
  bufs : List (List UInt8)
  tail : List UInt8
  nonempty : ∀ b ∈ bufs, b ≠ []
  whole : bufs.flatten = body.bytes ++ tail

/-- A body is decoded to its data whatever the buffers it arrives in. Every call consumes some of its
buffer; the state is `DONE` just when the last size line has been consumed; what has been given out is
a beginning of the data, all of it once the state is `DONE`; and the calls come to the end of the
buffers. -/
theorem chunked_exact (body : ChunkedBody) (cut : Cut body) (n : Nat) :
    (∀ b ∈ (after tnChunkFeed tnChunkInit cut.bufs n).left.head?,
      0 < (tnChunkFeed (after tnChunkFeed tnChunkInit cut.bufs n).st b).2.1 ∧
      (tnChunkFeed (after tnChunkFeed tnChunkInit cut.bufs n).st b).2.1 ≤ b.length) ∧
    ((after tnChunkFeed tnChunkInit cut.bufs n).st.state = .done ↔
      body.bytes.length ≤ (after tnChunkFeed tnChunkInit cut.bufs n).eaten.length) ∧
    (after tnChunkFeed tnChunkInit cut.bufs n).out <+: body.data ∧
    ((after tnChunkFeed tnChunkInit cut.bufs n).st.state = .done →
      (after tnChunkFeed tnChunkInit cut.bufs n).out = body.data) ∧
    (cut.bufs.flatten.length ≤ n → (after tnChunkFeed tnChunkInit cut.bufs n).left = [] ∧
      (after tnChunkFeed tnChunkInit cut.bufs n).eaten = cut.bufs.flatten ∧
      (after tnChunkFeed tnChunkInit cut.bufs n).out = body.data) := by
  -- no byte is fed after the end, so the decoder is always ready
  have ready : Along Ready chunkStep tnChunkInit cut.bufs.flatten := fun p hp => by
    rw [cut.whole] at hp
    exact (run_begun body hp).1
  have fed := feeding_spec tnChunkFeed_feeder ready cut.nonempty n
  have ends := left_eq_nil (n := n) tnChunkFeed_feeder ready cut.nonempty
  generalize after tnChunkFeed tnChunkInit cut.bufs n = f at fed ends
  have state : f.st = (run chunkStep tnChunkInit f.eaten).1 := congrArg Prod.fst fed.exact
  have out : f.out = (run chunkStep tnChunkInit f.eaten).2 := congrArg Prod.snd fed.exact
  have taken : f.eaten <+: body.bytes ++ cut.tail := ⟨_, fed.eaten.trans cut.whole⟩
  obtain ⟨ok, done_iff⟩ := run_begun body taken
  rw [← state] at ok done_iff
  obtain ⟨st, hs, hrun⟩ := run_bytes body
  -- at the end all bytes of the body have been taken, and so has its data
  have all : f.st.state = .done → f.out = body.data := by
    intro hd
    obtain ⟨q, hq⟩ : body.bytes <+: f.eaten :=
      List.prefix_of_prefix_length_le (List.prefix_append _ _) taken (done_iff.mp hd)
    rw [out, ← hq, run_append, hrun, run_done hs, List.append_nil]
  refine ⟨fun b hb => ?_, done_iff, ?_, all, fun hn => ?_⟩
  · have mem := List.mem_of_mem_head? hb
    exact ⟨tnChunkFeed_feeder.pos f.st b ok (fed.nonempty b mem), tnChunkFeed_feeder.le f.st b ok⟩
  -- before the end the data is the beginning of the whole
  · obtain ⟨rest, hrest⟩ := taken
    have whole := run_append chunkStep tnChunkInit f.eaten rest
    rw [hrest, run_append, hrun, run_done hs, List.append_nil] at whole
    exact ⟨_, (out ▸ (congrArg Prod.snd whole).symm)⟩
  -- all of it was fed, so the end was reached
  · have left := ends hn
    have eaten : f.eaten = cut.bufs.flatten := by
      have := fed.eaten
      rw [left, List.flatten_nil, List.append_nil] at this
      exact this
    refine ⟨left, eaten, all (done_iff.mpr ?_)⟩
    rw [eaten, cut.whole, List.length_append]
    omega

/-- `0B;x CRLF hello world CRLF 0 LF`: a chunk with leading zeros, a capital digit and an extension. -/
def helloBody : ChunkedBody where
  chunks := [
    { line :=
        { digits := [(0, false), (11, true)], ext := some [120], cr := true
          nonempty := by decide, noLf := by simp }
      data := [104, 101, 108, 108, 111, 32, 119, 111, 114, 108, 100]
      cr := true
      size := by decide
      pos := by decide
      bound := by decide }]
  last := { digits := [(0, false)], ext := none, cr := false, nonempty := by decide, noLf := by simp }
  zero := by decide

/-- It arrives in four buffers: cut in the size line, in the data and in front of the last size line,
with two bytes of something else behind it. -/
def helloCut : Cut helloBody where
  bufs := [
    [48], [66, 59, 120, 13, 10, 104, 101, 108], [108, 111, 32, 119, 111, 114, 108, 100, 13, 10],
    [48, 10, 72, 84]]
  tail := [72, 84]
  nonempty := by decide
  whole := by decide

/-- After 23 calls at most the data is there. -/
theorem chunked_exact_hello :
    (after tnChunkFeed tnChunkInit helloCut.bufs 23).left = [] ∧
    (after tnChunkFeed tnChunkInit helloCut.bufs 23).out =
      [104, 101, 108, 108, 111, 32, 119, 111, 114, 108, 100] := by
  obtain ⟨-, -, -, -, ends⟩ := chunked_exact helloBody helloCut 23
  obtain ⟨left, -, out⟩ := ends (by decide)
  exact ⟨left, out⟩

end Chunked

end Tolunnet
