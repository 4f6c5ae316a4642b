import Mathlib.Data.List.TakeWhile
import Tolunnet.Common.HttpUrl

/-!
# `Tolunnet.Http.Headers`: headers apart from the body

The headers are parsed again each time more bytes have come. Everything that the parser reads stops
at a line end at the latest, and the headers end with one, so what they say does not depend on what
stands behind them (`headerLines_append`, `statusCode_append`).

Where they end does. The parser looks for CRLFCRLF in all of the buffer before it looks for LFLF, so
a CRLFCRLF in the body moves the end of headers that end with LFLF (`independent_iff`).
-/

set_option autoImplicit false

namespace Tolunnet

namespace Http

variable {pat buf s t mem : List UInt8} {c : UInt8} {n k off endOff lineLen : Nat} {out : TnHdrInfo}

/-! ## Ends of headers -/

/-- An occurrence of `pat` that ends at a position of a buffer. -/
def EndsAt (pat buf : List UInt8) (off : Nat) : Prop :=
  ∃ u v, buf = u ++ (pat ++ v) ∧ off = u.length + pat.length

/-- CRLFCRLF and LFLF. -/
def crlfcrlf : List UInt8 := [13, 10, 13, 10]
def lflf : List UInt8 := [10, 10]

/-- The position behind the first empty line. -/
def FirstEmptyLine (buf : List UInt8) (off : Nat) : Prop :=
  (EndsAt crlfcrlf buf off ∨ EndsAt lflf buf off) ∧
    ∀ k < off, ¬ (EndsAt crlfcrlf buf k ∨ EndsAt lflf buf k)

/-- The end lies in the buffer. -/
theorem EndsAt.bounds (h : EndsAt pat buf off) : pat.length ≤ off ∧ off ≤ buf.length := by
  obtain ⟨u, v, rfl, rfl⟩ := h
  simp

/-- More bytes move no end. -/
theorem EndsAt.append (h : EndsAt pat buf off) (t : List UInt8) : EndsAt pat (buf ++ t) off := by
  obtain ⟨u, v, rfl, rfl⟩ := h
  exact ⟨u, v ++ t, by simp, rfl⟩

theorem EndsAt.getElem? (h : EndsAt pat buf off) (hk : k < pat.length) :
    buf[off - pat.length + k]? = pat[k]? := by
  obtain ⟨u, v, rfl, rfl⟩ := h
  rw [Nat.add_sub_cancel, List.getElem?_append_right (by omega), Nat.add_sub_cancel_left,
    List.getElem?_append_left hk]

/-- An occurrence within the first bytes. -/
theorem EndsAt.of_append (h : EndsAt pat (buf ++ t) off) (hle : off ≤ buf.length) :
    EndsAt pat buf off := by
  obtain ⟨u, v, eq, rfl⟩ := h
  have taken : u ++ pat <+: buf ++ t := ⟨v, by rw [eq, List.append_assoc]⟩
  obtain ⟨w, rfl⟩ := List.prefix_of_prefix_length_le taken (List.prefix_append buf t)
    (by rw [List.length_append]; exact hle)
  exact ⟨u, w, by rw [List.append_assoc], rfl⟩

/-- A byte in front moves the occurrences that do not start with it. -/
theorem endsAt_cons (h : ¬ pat <+: c :: buf) : EndsAt pat (c :: buf) k ↔
    ∃ j, k = j + 1 ∧ EndsAt pat buf j := by
  constructor
  · rintro ⟨u, v, eq, rfl⟩
    cases u with
    | nil => exact absurd ⟨v, eq.symm⟩ h
    | cons d u =>
      obtain ⟨rfl, rfl⟩ := List.cons.inj eq
      exact ⟨u.length + pat.length, by simp only [List.length_cons]; omega, u, v, rfl, rfl⟩
  · rintro ⟨j, rfl, u, v, rfl, rfl⟩
    exact ⟨c :: u, v, rfl, by simp only [List.length_cons]; omega⟩

/-- The search finds the first occurrence. -/
theorem behind_some (h : behind pat buf = some k) :
    EndsAt pat buf k ∧ ∀ j < k, ¬ EndsAt pat buf j := by
  induction buf generalizing k with
  | nil => cases h
  | cons c buf ih =>
    unfold behind at h
    split_ifs at h with start
    · obtain ⟨v, eq⟩ := List.isPrefixOf_iff_prefix.mp start
      obtain rfl : pat.length = k := Option.some.inj h
      refine ⟨⟨[], v, eq.symm, by simp⟩, fun j hj ends => ?_⟩
      have := ends.bounds
      omega
    · have later := mt List.isPrefixOf_iff_prefix.mpr start
      obtain ⟨k, found, rfl⟩ := Option.map_eq_some_iff.mp h
      obtain ⟨ends, first⟩ := ih found
      refine ⟨(endsAt_cons later).mpr ⟨k, rfl, ends⟩, fun j hj earlier => ?_⟩
      obtain ⟨i, hi, before⟩ := (endsAt_cons later).mp earlier
      exact first i (by omega) before

/-- Without an end there is none. -/
theorem behind_none (hp : pat ≠ []) (h : behind pat buf = none) : ¬ EndsAt pat buf k := by
  induction buf generalizing k with
  | nil =>
    rintro ⟨u, v, eq, -⟩
    simp only [List.nil_eq, List.append_eq_nil_iff] at eq
    exact hp eq.2.1
  | cons c buf ih =>
    unfold behind at h
    split_ifs at h with start
    have later := mt List.isPrefixOf_iff_prefix.mpr start
    rw [endsAt_cons later]
    rintro ⟨j, rfl, ends⟩
    exact ih (Option.map_eq_none_iff.mp h) ends

/-- The first end is what is found. -/
theorem behind_eq_some_iff (hp : pat ≠ []) :
    behind pat buf = some k ↔ EndsAt pat buf k ∧ ∀ j < k, ¬ EndsAt pat buf j := by
  refine ⟨behind_some, fun ⟨ends, first⟩ => ?_⟩
  cases found : behind pat buf with
  | none => exact absurd ends (behind_none hp found)
  | some j =>
    obtain ⟨ends', first'⟩ := behind_some found
    obtain lt | eq | gt := Nat.lt_trichotomy j k
    · exact absurd ends' (first j lt)
    · rw [eq]
    · exact absurd ends (first' k gt)

/-! ## What stops at a line end -/

/-- Memory up to a line end, in which the scans below stop. -/
theorem ciStrncmp_append {word : List UInt8} (hs : 10 ∈ s) (hw : ∀ d ∈ word, toLower d ≠ 10) (n : Nat)
    (t : List UInt8) : ciStrncmp (s ++ t) word n = ciStrncmp s word n := by
  induction n generalizing s word with
  | zero => rfl
  | succ n ih =>
    obtain ⟨c, s, rfl⟩ := List.exists_cons_of_ne_nil (List.ne_nil_of_mem hs)
    by_cases stop : toLower c ≠ toLower (word.headD 0) ∨ c = 0 ∨ word.headD 0 = 0
    · rw [ciStrncmp, ciStrncmp]
      exact (if_pos stop).trans (if_pos stop).symm
    · have same := stop
      simp only [not_or, not_not] at same
      obtain ⟨d, word, rfl⟩ : ∃ d w, word = d :: w :=
        List.exists_cons_of_ne_nil fun h => same.2.2 (by rw [h]; rfl)
      have hc : c ≠ 10 := by
        rintro rfl
        exact hw d List.mem_cons_self same.1.symm
      rw [ciStrncmp, ciStrncmp]
      refine (if_neg stop).trans (Eq.trans ?_ (if_neg stop).symm)
      exact ih ((List.mem_cons.mp hs).resolve_left (Ne.symm hc))
        fun e he => hw e (List.mem_cons_of_mem _ he)

/-- A word is compared within its line. -/
theorem ciStarts_append (hs : 10 ∈ s) {word : String}
    (hw : ((ascii word).all fun d => toLower d != 10) = true) (t : List UInt8) :
    ciStarts (s ++ t) word = ciStarts s word := by
  unfold ciStarts
  rw [ciStrncmp_append hs fun d mem => by simpa using List.all_eq_true.mp hw d mem]

theorem strchr_append (hs : c ∈ s) (t : List UInt8) : strchr c (s ++ t) = strchr c s := by
  induction s with
  | nil => cases hs
  | cons d s ih =>
    rw [List.cons_append]
    unfold strchr
    by_cases hd : d = c
    · rw [if_pos hd, if_pos hd]
    · rw [if_neg hd, if_neg hd, ih ((List.mem_cons.mp hs).resolve_left (Ne.symm hd))]

/-- A character within the first bytes. -/
theorem strchr_append_lt (hk : k < s.length) (t : List UInt8) :
    strchr c (s ++ t) = some k ↔ strchr c s = some k := by
  induction s generalizing k with
  | nil => cases hk
  | cons d s ih =>
    rw [List.cons_append]
    unfold strchr
    split_ifs with hd nul
    · rfl
    · rfl
    · cases k with
      | zero => simp
      | succ k =>
        simp only [Option.map_eq_some_iff, Nat.add_right_cancel_iff, exists_eq_right]
        exact ih (Nat.lt_of_succ_lt_succ hk)

/-- The byte that is found. -/
theorem strchr_some (h : strchr c s = some k) : s[k]? = some c := by
  induction s generalizing k with
  | nil => cases h
  | cons d s ih =>
    unfold strchr at h
    split_ifs at h with hd nul
    · obtain rfl := Option.some.inj h
      rw [hd]
      rfl
    · obtain ⟨j, found, rfl⟩ := Option.map_eq_some_iff.mp h
      exact ih found

/-- What is skipped stays within the line. -/
theorem dropWhile_append {p : UInt8 → Bool} (hs : 10 ∈ s) (hp : p 10 = false) (t : List UInt8) :
    (s ++ t).dropWhile p = s.dropWhile p ++ t ∧ 10 ∈ s.dropWhile p := by
  have rest : 10 ∈ s.dropWhile p := by
    have whole := List.takeWhile_append_dropWhile (p := p) (l := s) ▸ hs
    refine (List.mem_append.mp whole).resolve_left fun h => ?_
    rw [List.mem_takeWhile_imp h] at hp
    cases hp
  refine ⟨?_, rest⟩
  rw [List.dropWhile_append]
  simp [List.ne_nil_of_mem rest]

/-- What is taken stays within the line. -/
theorem takeWhile_append {p : UInt8 → Bool} (hs : 10 ∈ s) (hp : p 10 = false) (t : List UInt8) :
    (s ++ t).takeWhile p = s.takeWhile p := by
  have short : (s.takeWhile p).length ≠ s.length := fun h => by
    have all := (List.takeWhile_prefix (p := p) (l := s)).eq_of_length h
    rw [List.takeWhile_eq_self_iff.mp all 10 hs] at hp
    cases hp
  rw [List.takeWhile_append, if_neg short]

theorem mem_drop (hs : s[k]? = some 10) (hn : n ≤ k) : 10 ∈ s.drop n := by
  refine List.mem_of_getElem? (i := k - n) ?_
  rw [List.getElem?_drop, Nat.add_sub_cancel' hn, hs]

theorem drop_append (hs : s[k]? = some 10) (hn : n ≤ k) (t : List UInt8) :
    (s ++ t).drop n = s.drop n ++ t := by
  have := (List.getElem?_eq_some_iff.mp hs).1
  rw [List.drop_append_of_le_length (by omega)]

/-- A header line reads no further than its line end. -/
theorem headerLine_append (hs : s[k]? = some 10) (hk : lineLen ≤ k) (out : TnHdrInfo) (t : List UInt8) :
    headerLine out (s ++ t) lineLen = headerLine out s lineLen := by
  have lf : 10 ∈ s := List.mem_of_getElem? hs
  have name : ∀ word ∈ ["content-length:", "transfer-encoding:", "location:", "accept-ranges:",
      "chunked", "bytes"], ((ascii word).all fun d => toLower d != 10) = true := by decide
  have gap : isGap 10 = false := rfl
  have value : ∀ n ≤ lineLen, (s ++ t).drop n = s.drop n ++ t ∧ 10 ∈ s.drop n :=
    fun n hn => ⟨drop_append hs (by omega) t, mem_drop hs (by omega)⟩
  unfold headerLine
  rw [ciStarts_append lf (name _ (by simp)), ciStarts_append lf (name _ (by simp)),
    ciStarts_append lf (name _ (by simp)), ciStarts_append lf (name _ (by simp))]
  refine ite_congr rfl (fun h => ?_) fun _ => ite_congr rfl (fun h => ?_) fun _ =>
    ite_congr rfl (fun h => ?_) fun _ => ite_congr rfl (fun h => ?_) fun _ => rfl
  · obtain ⟨val, lf⟩ := value 15 h.1
    obtain ⟨val', lf⟩ := dropWhile_append lf gap t
    rw [val, val', takeWhile_append lf rfl]
  · obtain ⟨val, lf⟩ := value 18 h.1
    obtain ⟨val', lf⟩ := dropWhile_append lf gap t
    rw [val, val', ciStarts_append lf (name _ (by simp))]
  · obtain ⟨val, lf⟩ := value 9 h.1
    simp only [val, takeWhile_append lf gap]
    generalize ((s.drop 9).takeWhile isGap).length = g
    by_cases hg : 9 + g ≤ lineLen
    · have len := (List.getElem?_eq_some_iff.mp hs).1
      rw [(value _ hg).1, List.take_append_of_le_length (by rw [List.length_drop]; omega)]
    · rw [Nat.sub_eq_zero_of_le (by omega), List.take_zero, List.take_zero]
  · obtain ⟨val, lf⟩ := value 14 h.1
    obtain ⟨val', lf⟩ := dropWhile_append lf gap t
    rw [val, val', ciStarts_append lf (name _ (by simp))]

/-- The lines of headers that end with a line end, whatever stands behind them. -/
theorem headerLines_append (turns : Nat) (hs : s ≠ [] → s.getLast? = some 10) (out : TnHdrInfo)
    (t : List UInt8) : headerLines out (s ++ t) s.length turns = headerLines out s s.length turns := by
  induction turns generalizing s out with
  | zero => rfl
  | succ turns ih =>
    unfold headerLines
    refine ite_congr rfl (fun _ => rfl) fun left => ?_
    have lf : 10 ∈ s := List.mem_of_getLast? (hs (by simpa using left))
    rw [strchr_append lf]
    cases found : strchr 10 s with
    | none => rfl
    | some eol =>
      have at10 := strchr_some found
      have len := (List.getElem?_eq_some_iff.mp at10).1
      simp only [Nat.not_le.mpr len, if_false]
      have cr : (s ++ t)[eol - 1]? = s[eol - 1]? := List.getElem?_append_left (by omega)
      rw [cr]
      have short : (if eol > 0 ∧ s[eol - 1]? = some 13 then eol - 1 else eol) ≤ eol := by
        split_ifs <;> omega
      rw [headerLine_append at10 short, List.drop_append_of_le_length (by omega),
        show s.length - (eol + 1) = (s.drop (eol + 1)).length by rw [List.length_drop]]
      refine ih (fun rest => ?_) _
      rw [List.getLast?_drop, if_neg (by simpa using rest)]
      exact hs (List.ne_nil_of_mem lf)

/-- Three digits in front of a line end. -/
theorem statusDigits_append {val : List UInt8} (hv : 10 ∈ val) (t : List UInt8) :
    statusDigits (val ++ t) = statusDigits val := by
  match val with
  | [] => cases hv
  | [a] =>
    obtain rfl := List.mem_singleton.mp hv
    match t with
    | [] | [_] | _ :: _ :: _ => rfl
  | [a, b] =>
    have stop : (isDigit a && isDigit b) = false := by
      obtain rfl | rfl : 10 = a ∨ 10 = b := by simpa using hv
      · rfl
      · exact Bool.and_false _
    match t with
    | [] => rfl
    | c :: t => simp [statusDigits, stop]
  | a :: b :: c :: val => rfl

/-- The status line's code is read in front of a line end. -/
theorem statusCode_append (hs : s.getLast? = some 10) (t : List UInt8) :
    statusCode (s ++ t) s.length = statusCode s s.length := by
  have lf : 10 ∈ s := List.mem_of_getLast? hs
  have found : ∀ sp < s.length, strchr 32 (s ++ t) = some sp ↔ strchr 32 s = some sp :=
    fun sp h => strchr_append_lt h t
  have within : ∀ sp, strchr 32 s = some sp → sp < s.length :=
    fun sp h => (List.getElem?_eq_some_iff.mp (strchr_some h)).1
  unfold statusCode
  rw [ciStarts_append lf (by decide)]
  refine ite_congr rfl (fun _ => ?_) fun _ => rfl
  cases short : strchr 32 s with
  | some sp =>
    have hsp := within sp short
    rw [(found sp hsp).mpr short]
    refine ite_congr rfl (fun _ => ?_) fun _ => rfl
    have end10 : s[s.length - 1]? = some 10 := by rw [← List.getLast?_eq_getElem?, hs]
    obtain ⟨val, lf⟩ := dropWhile_append (p := (· == 32)) (mem_drop (n := sp) end10 (by omega)) rfl t
    rw [drop_append (n := sp) end10 (by omega), val, statusDigits_append lf]
  | none =>
    cases long : strchr 32 (s ++ t) with
    | none => rfl
    | some sp =>
      refine if_neg fun h => ?_
      rw [(found sp h).mp long] at short
      cases short

/-- Received bytes that end with the headers, and the memory behind them. -/
theorem tnHttpParseHeaders_eq {r : List UInt8}
    (found : endOffset ((r ++ t).take n) = some r.length) (hr : r.getLast? = some 10) :
    tnHttpParseHeaders (r ++ t) n = some (r.length,
      headerLines
        { statusCode := (statusCode r r.length).getD (-1), contentLength := -1, isChunked := false,
          acceptRanges := false, location := [] } r r.length r.length) := by
  simp only [tnHttpParseHeaders, found, statusCode_append hr,
    headerLines_append r.length (fun _ => hr)]

/-- The received bytes up to the end of the headers. -/
theorem EndsAt.taken (h : EndsAt pat buf off) (lf : pat.getLast? = some 10) :
    ∃ r t, buf = r ++ t ∧ r.length = off ∧ r.getLast? = some 10 := by
  obtain ⟨u, v, rfl, rfl⟩ := h
  refine ⟨u ++ pat, v, by simp, by simp, ?_⟩
  rw [List.getLast?_append, lf]
  rfl

/-- Where the headers end. -/
theorem endOffset_iff : endOffset buf = some off ↔
    (EndsAt crlfcrlf buf off ∧ ∀ k < off, ¬ EndsAt crlfcrlf buf k) ∨
      (∀ k, ¬ EndsAt crlfcrlf buf k) ∧ EndsAt lflf buf off ∧ ∀ k < off, ¬ EndsAt lflf buf k := by
  unfold endOffset
  cases first : behind [13, 10, 13, 10] buf with
  | none =>
    have none : ∀ k, ¬ EndsAt crlfcrlf buf k := fun k => behind_none (by decide) first
    rw [Option.none_or, behind_eq_some_iff (by decide)]
    exact ⟨fun h => .inr ⟨none, h⟩, fun h => (h.resolve_left fun h => none off h.1).2⟩
  | some k =>
    obtain ⟨ends, before⟩ := behind_some first
    rw [Option.some_or, ← first, behind_eq_some_iff (by decide)]
    exact ⟨.inl, fun h => h.resolve_right fun h => h.1 k ends⟩

/-- Headers are parsed when their end is there. -/
theorem tnHttpParseHeaders_some {info : TnHdrInfo} (h : tnHttpParseHeaders mem n = some (off, info)) :
    endOffset (mem.take n) = some off := by
  unfold tnHttpParseHeaders at h
  cases found : endOffset (mem.take n) with
  | none =>
    rw [found] at h
    cases h
  | some endOff =>
    rw [found] at h
    simp only [Option.some.injEq, Prod.mk.injEq] at h
    rw [h.1]

/-- And then they are. -/
theorem tnHttpParseHeaders_of_endOffset (h : endOffset (mem.take n) = some off) :
    ∃ info, tnHttpParseHeaders mem n = some (off, info) := by
  unfold tnHttpParseHeaders
  rw [h]
  exact ⟨_, rfl⟩

/-- With the end of the headers unmoved, the parse is the same. -/
theorem parse_same {p e m m' : List UInt8} {info : TnHdrInfo}
    (h : tnHttpParseHeaders (p ++ m) p.length = some (off, info))
    (same : endOffset (p ++ e) = some off) :
    tnHttpParseHeaders (p ++ e ++ m') (p ++ e).length = some (off, info) := by
  have found := tnHttpParseHeaders_some h
  rw [List.take_left] at found
  obtain ⟨r, t, rfl, rfl, lf⟩ : ∃ r t, p = r ++ t ∧ r.length = off ∧ r.getLast? = some 10 := by
    obtain ⟨ends, -⟩ | ⟨-, ends, -⟩ := endOffset_iff.mp found
    · exact ends.taken rfl
    · exact ends.taken rfl
  have before := tnHttpParseHeaders_eq (r := r) (t := t ++ m) (n := (r ++ t).length)
    (by rwa [← List.append_assoc, List.take_left]) lf
  have after := tnHttpParseHeaders_eq (r := r) (t := t ++ e ++ m') (n := (r ++ t ++ e).length)
    (by rwa [← List.append_assoc, ← List.append_assoc, List.take_left]) lf
  simp only [← List.append_assoc] at before after
  rw [after, ← before, h]

/-- Headers that parse still parse, to the same, with more bytes behind them, and end with the first
empty line. -/
def Independent (r : List UInt8) : Prop :=
  ∀ p e, p ++ e = r → ∀ m off info, tnHttpParseHeaders (p ++ m) p.length = some (off, info) →
    ∀ m', tnHttpParseHeaders (r ++ m') r.length = some (off, info) ∧ FirstEmptyLine r off

/-- No end is one of both kinds. -/
theorem EndsAt.one_kind (h : EndsAt lflf buf off) : ¬ EndsAt crlfcrlf buf off := by
  intro cr
  have lf : buf[off - 2]? = some 10 := h.getElem? (k := 0) (by decide)
  have back := cr.bounds.1
  have : off - crlfcrlf.length + 2 = off - 2 := by
    simp only [crlfcrlf, List.length_cons, List.length_nil] at back ⊢
    omega
  have cr : buf[off - 2]? = some 13 := this ▸ cr.getElem? (k := 2) (by decide)
  rw [lf] at cr
  cases cr

/-- The parse does not depend on what follows exactly when no CRLFCRLF comes behind an LFLF that was
the first of both. -/
theorem independent_iff (r : List UInt8) : Independent r ↔
    ∀ j k, EndsAt lflf r j → EndsAt crlfcrlf r k → j < k → ∃ i < j, EndsAt crlfcrlf r i := by
  constructor
  · intro indep j k lf cr hjk
    by_contra none
    -- the response as received up to the LFLF
    have whole := List.take_append_drop j r
    have len : (r.take j).length = j := List.length_take_of_le lf.bounds.2
    have noCr : ∀ i, ¬ EndsAt crlfcrlf (r.take j) i := fun i ends => by
      have le := len ▸ ends.bounds.2
      have inR := whole ▸ ends.append (r.drop j)
      obtain hi | rfl := Nat.lt_or_eq_of_le le
      · exact none ⟨i, hi, inR⟩
      · exact lf.one_kind inR
    have lf' : EndsAt lflf (r.take j) j := EndsAt.of_append (whole.symm ▸ lf) len.ge
    obtain ⟨j', found⟩ := Option.ne_none_iff_exists'.mp fun h => behind_none (by decide) h lf'
    obtain ⟨ends, first⟩ := behind_some found
    have received : endOffset (((r.take j) ++ []).take (r.take j).length) = some j' := by
      rw [List.take_left]
      exact endOffset_iff.mpr (.inr ⟨noCr, ends, first⟩)
    obtain ⟨info, parsed⟩ := tnHttpParseHeaders_of_endOffset received
    have again := tnHttpParseHeaders_some (indep _ _ whole [] j' info parsed []).1
    rw [List.take_left] at again
    obtain ⟨cr', -⟩ | ⟨noCr', -⟩ := endOffset_iff.mp again
    · exact (whole ▸ ends.append (r.drop j)).one_kind cr'
    · exact noCr' k cr
  · rintro cond p e rfl m off info h m'
    have within : ∀ pat k, k ≤ p.length → EndsAt pat (p ++ e) k → EndsAt pat p k :=
      fun pat k hk ends => ends.of_append hk
    have found := tnHttpParseHeaders_some h
    rw [List.take_left] at found
    obtain ⟨cr, first⟩ | ⟨none, lf, first⟩ := endOffset_iff.mp found
    · have hoff := cr.bounds.2
      have first' : ∀ k < off, ¬ EndsAt crlfcrlf (p ++ e) k :=
        fun k hk ends => first k hk (within _ k (by omega) ends)
      refine ⟨parse_same h (endOffset_iff.mpr (.inl ⟨cr.append e, first'⟩)), .inl (cr.append e),
        fun k hk => ?_⟩
      rintro (ends | ends)
      · exact first' k hk ends
      · obtain ⟨i, hi, earlier⟩ := cond k off ends (cr.append e) hk
        exact first' i (by omega) earlier
    · have hoff := lf.bounds.2
      have first' : ∀ k < off, ¬ EndsAt lflf (p ++ e) k :=
        fun k hk ends => first k hk (within _ k (by omega) ends)
      have none' : ∀ k, ¬ EndsAt crlfcrlf (p ++ e) k := fun k ends => by
        by_cases hk : k ≤ p.length
        · exact none k (within _ k hk ends)
        · obtain ⟨i, hi, earlier⟩ := cond off k (lf.append e) ends (by omega)
          exact none i (within _ i (by omega) earlier)
      refine ⟨parse_same h (endOffset_iff.mpr (.inr ⟨none', lf.append e, first'⟩)),
        .inr (lf.append e), fun k hk => ?_⟩
      rintro (ends | ends)
      · exact none' k ends
      · exact first' k hk ends

/-- A response with bare line ends, received up to its headers and then with a body that holds
CRLFCRLF. -/
theorem not_forall_independent : ¬ ∀ r, Independent r := by
  intro h
  have later := (h (ascii "HTTP/1.1 200 OK\n\nbody\r\n\r\n") (ascii "HTTP/1.1 200 OK\n\n")
    (ascii "body\r\n\r\n") (by decide) [] 17
    { statusCode := 200, contentLength := -1, isChunked := false, acceptRanges := false,
      location := [] } (by decide) []).1
  exact absurd later (by decide)

end Http

end Tolunnet
