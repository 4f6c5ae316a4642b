import Mathlib.Data.List.Flatten
import Mathlib.Data.List.Induction
import Mathlib.Data.List.TakeWhile
import Mathlib.Tactic.Linarith
import Tolunnet.Common.PrefsFile

/-!
# `Tolunnet.Config.Values`: every value that is written is read back

The writer turns a field into text and the parser turns text into a field. `ValidAt k v` says
that `v` can be the value of key `k`: the parser accepts nothing else (`cfgValue_valid`), and
of the defaults only the two fields that `tn_prefs_default` does not assign can be something
else. `cfgText k v` is the text that the writer has for the value; `cfgValue_cfgText` reads it
back. Two values are written that the parser does not accept: `LOGLEVEL=-1` and `SELECTORS=0`,
the defaults of their keys.
-/

set_option autoImplicit false

namespace Tolunnet

/-! ## Clean strings -/

/-- A string that fits an array of `n` characters and that a copy does not cut. -/
structure Clean (n : Nat) (s : List Char) : Prop where
  len : s.length < n
  chars : ∀ c ∈ s, isStop c = false

/-- A text that passes the check is clean. -/
theorem Clean.of_all {n : Nat} {s : List Char} (hn : s.length < n)
    (hs : (s.all fun c => !isStop c) = true) : Clean n s :=
  ⟨hn, fun c hc => by simpa using List.all_eq_true.mp hs c hc⟩

/-- A copy is clean. -/
theorem clean_tnStrCopyClean (s : List Char) {n : Nat} (hn : 0 < n) :
    Clean n (tnStrCopyClean s n) where
  len := by
    have := List.length_take_le (n - 1) (s.takeWhile fun c => !isStop c)
    unfold tnStrCopyClean
    omega
  chars := fun c hc => by
    have := List.mem_takeWhile_imp (List.mem_of_mem_take hc)
    simpa using this

/-- A clean string is copied as it is. -/
theorem Clean.copy {n : Nat} {s : List Char} (h : Clean n s) : tnStrCopyClean s n = s := by
  have hw : (s.takeWhile fun c => !isStop c) = s :=
    List.takeWhile_eq_self_iff.mpr fun c hc => by simp [h.chars c hc]
  have hlen := h.len
  rw [tnStrCopyClean, hw, List.take_of_length_le (by omega)]

theorem Clean.mono {n n' : Nat} {s : List Char} (h : Clean n s) (hn : n ≤ n') : Clean n' s :=
  ⟨Nat.lt_of_lt_of_le h.len hn, h.chars⟩

/-- A clean string holds no line end, no blank and no terminator. -/
theorem Clean.not_mem {n : Nat} {s : List Char} (h : Clean n s) {c : Char}
    (hc : isStop c = true) : c ∉ s := fun hmem => by
  rw [h.chars c hmem] at hc
  cases hc

theorem Clean.cString_eq {n : Nat} {s : List Char} (h : Clean n s) : cString s = s :=
  List.takeWhile_eq_self_iff.mpr fun c hc => by
    have : c ≠ '\x00' := by
      rintro rfl
      exact h.not_mem rfl hc
    simpa using this

/-- A line end behind a value does not change the copy. -/
theorem tnStrCopyClean_newline (s : List Char) (n : Nat) :
    tnStrCopyClean (s ++ ['\n']) n = tnStrCopyClean s n := by
  have hw : ((s ++ ['\n']).takeWhile fun c => !isStop c) = s.takeWhile fun c => !isStop c := by
    induction s with
    | nil => rfl
    | cons c s ih =>
      rw [List.cons_append, List.takeWhile_cons, List.takeWhile_cons, ih]
  rw [tnStrCopyClean, tnStrCopyClean, hw]

/-- Appending to a buffer appends to its string, unless that ends before. -/
theorem cString_append_newline (s : List Char) :
    cString (s ++ ['\n']) = cString s ∨ cString (s ++ ['\n']) = cString s ++ ['\n'] := by
  induction s with
  | nil => exact Or.inr rfl
  | cons c s ih =>
    by_cases hc : c = '\x00'
    · subst hc
      exact Or.inl rfl
    · simpa [cString, List.takeWhile_cons, hc] using ih

/-- Nor does it change whether the value is a token. -/
theorem tnValToken_newline (s extra : List Char) :
    tnValToken (s ++ ['\n']) extra = tnValToken s extra := by
  have hb : isBlank '\n' = true := by decide
  unfold tnValToken
  rcases cString_append_newline s with h | h
  · rw [h]
  · rw [h, List.reverse_append]
    simp [hb]

/-- A clean string is a token when all its characters are. -/
theorem Clean.tnValToken_iff {n : Nat} {s extra : List Char} (h : Clean n s) :
    tnValToken s extra = true ↔ ∀ c ∈ s, isTokenChar extra c = true := by
  have hw : s.reverse.dropWhile isBlank = s.reverse :=
    List.dropWhile_eq_self_iff.mpr fun hne => by
      have := h.chars _ (List.mem_reverse.mp (List.get_mem _ ⟨0, hne⟩))
      rw [isStop, Bool.or_eq_false_iff] at this
      simpa using this.2
  rw [tnValToken, h.cString_eq, hw, List.all_eq_true]
  exact ⟨fun ht c hc => ht c (List.mem_reverse.mpr hc), fun ht c hc => ht c (List.mem_reverse.mp hc)⟩

/-- The copy of a token is a token. -/
theorem tnValToken_copy {s extra : List Char} (ht : tnValToken s extra = true) (n : Nat) :
    tnValToken (tnStrCopyClean s (n + 1)) extra = true := by
  rw [(clean_tnStrCopyClean s (Nat.succ_pos n)).tnValToken_iff]
  intro c hc
  have hc := List.mem_of_mem_take hc
  have hstop : isStop c = false := by simpa using List.mem_takeWhile_imp hc
  rw [isStop, Bool.or_eq_false_iff] at hstop
  have hstr : (s.takeWhile fun c => !isStop c) = (cString s).takeWhile fun c => !isStop c := by
    rw [cString, List.takeWhile_takeWhile]
    congr 1
    funext d
    simp only [isStop, Bool.not_or]
    cases hd : d == '\x00' <;> simp_all
  have hmem : c ∈ (cString s).reverse := by
    rw [hstr] at hc
    exact List.mem_reverse.mpr ((List.takeWhile_prefix _).subset hc)
  -- the check leaves out the blanks at the end only, and `c` is none
  rw [← List.takeWhile_append_dropWhile (p := isBlank) (l := (cString s).reverse),
    List.mem_append] at hmem
  rw [tnValToken, List.all_eq_true] at ht
  rcases hmem with hmem | hmem
  · exact absurd (List.mem_takeWhile_imp hmem) (by simp [hstop.2])
  · exact ht c hmem

/-! ## Numbers -/

/-- The value of a digit. -/
def digitVal (c : Char) : Nat := c.toNat - '0'.toNat

/-- The number that digits denote. -/
def natValue (l : List Char) : Nat := l.foldl (fun v c => v * 10 + digitVal c) 0

/-- The 32-bit loop computes the number that the digits denote, up to wrapping. -/
theorem digitsValue_eq (l : List Char) : digitsValue l = wrapLong (natValue l) := by
  induction l using List.reverseRecOn with
  | nil => rfl
  | append_singleton l c ih =>
    simp only [digitsValue, natValue, List.foldl_append, List.foldl_cons, List.foldl_nil] at ih ⊢
    rw [ih]
    unfold wrapLong
    rw [Int.natCast_add, Int.natCast_mul, Int.add_bmod, Int.mul_bmod, Int.bmod_bmod,
      ← Int.mul_bmod, ← Int.add_bmod]
    rfl

/-- The digits of a number, last one first, denote it again. -/
theorem natValue_revDigits (fuel v : Nat) (h : v < 10 ^ fuel) :
    natValue (revDigits fuel v).reverse = v := by
  induction fuel generalizing v with
  | zero =>
    have hv : v = 0 := by simpa using h
    rw [hv]
    rfl
  | succ fuel ih =>
    unfold revDigits
    split
    · rename_i hv
      rw [hv]
      rfl
    · have hd : digitVal (Char.ofNat ('0'.toNat + v % 10)) = v % 10 := by
        have hlt : v % 10 < 10 := Nat.mod_lt _ (by decide)
        generalize v % 10 = d at hlt
        revert d
        decide
      have hrec := ih (v / 10) (Nat.div_lt_of_lt_mul (by rw [pow_succ] at h; omega))
      rw [List.reverse_cons]
      unfold natValue at hrec ⊢
      rw [List.foldl_append, hrec, List.foldl_cons, List.foldl_nil, hd]
      omega

/-- The written digits are digits. -/
theorem isDigit_of_mem_revDigits {fuel v : Nat} {c : Char} (hc : c ∈ revDigits fuel v) :
    c.isDigit = true := by
  induction fuel generalizing v with
  | zero => cases hc
  | succ fuel ih =>
    unfold revDigits at hc
    split at hc
    · cases hc
    · rcases List.mem_cons.mp hc with rfl | hc
      · have hlt : v % 10 < 10 := Nat.mod_lt _ (by decide)
        generalize v % 10 = d at hlt
        revert d
        decide
      · exact ih hc

/-- There are at most as many digits as the number needs. -/
theorem length_revDigits_le {fuel v n : Nat} (h : v < 10 ^ n) : (revDigits fuel v).length ≤ n := by
  induction fuel generalizing v n with
  | zero => exact Nat.zero_le _
  | succ fuel ih =>
    unfold revDigits
    split
    · exact Nat.zero_le _
    · cases n with
      | zero =>
        have : v = 0 := by simpa using h
        contradiction
      | succ n =>
        have := ih (v := v / 10) (n := n) (Nat.div_lt_of_lt_mul (by rw [pow_succ] at h; omega))
        rw [List.length_cons]
        omega

/-- A number has a digit. -/
theorem ulongText_ne_nil {v : Nat} : ulongText v ≠ [] := by
  unfold ulongText
  split
  · exact List.cons_ne_nil _ _
  · rename_i hv
    rw [revDigits, if_neg hv]
    simp

theorem isDigit_of_mem_ulongText {v : Nat} {c : Char} (hc : c ∈ ulongText v) :
    c.isDigit = true := by
  unfold ulongText at hc
  split at hc
  · rw [List.mem_singleton.mp hc]
    rfl
  · exact isDigit_of_mem_revDigits (List.mem_reverse.mp hc)

theorem length_ulongText_le {v n : Nat} (h : v < 10 ^ (n + 1)) : (ulongText v).length ≤ n + 1 := by
  unfold ulongText
  split
  · simp
  · rw [List.length_reverse]
    exact length_revDigits_le h

theorem natValue_ulongText {v : Nat} (h : v < 10 ^ 15) : natValue (ulongText v) = v := by
  unfold ulongText
  split
  · rename_i hv
    rw [hv]
    rfl
  · exact natValue_revDigits 15 v h

/-- Digits do not end a string and are no sign. -/
theorem not_stop_of_isDigit {c : Char} (h : c.isDigit = true) : isStop c = false ∧ c ≠ '-' := by
  constructor
  · rw [Bool.eq_false_iff]
    intro hb
    simp only [isStop, isBlank, Bool.or_eq_true, beq_iff_eq] at hb
    rcases hb with rfl | ((rfl | rfl) | rfl) | rfl <;> exact absurd h (by decide)
  · rintro rfl
    exact absurd h (by decide)

/-- Numbers are clean: the digit loop stops after 15 digits. -/
theorem clean_ulongText (v : Nat) : Clean 16 (ulongText v) := by
  refine ⟨?_, fun _ hc => (not_stop_of_isDigit (isDigit_of_mem_ulongText hc)).1⟩
  have hfuel : ∀ fuel w : Nat, (revDigits fuel w).length ≤ fuel := by
    intro fuel
    induction fuel with
    | zero => exact fun _ => Nat.le_refl 0
    | succ fuel ih =>
      intro w
      have := ih (w / 10)
      unfold revDigits
      split
      · exact Nat.zero_le _
      · rw [List.length_cons]
        omega
  have := hfuel 15 v
  unfold ulongText
  split
  · decide
  · rw [List.length_reverse]
    omega

theorem clean_longText (v : Int) : Clean 17 (longText v) := by
  unfold longText
  split
  · have h := clean_ulongText (toUlong (-v))
    refine ⟨by have := h.len; rw [List.length_cons]; omega, fun c hc => ?_⟩
    rcases List.mem_cons.mp hc with rfl | hc
    · rfl
    · exact h.chars c hc
  · exact (clean_ulongText _).mono (by decide)

/-- A written number is read back. -/
theorem tnStrToLong_ulongText {v : Nat} (h : v < 10 ^ 15) :
    tnStrToLong (ulongText v) = some (wrapLong v) := by
  have hneg : ((ulongText v).head? == some '-') = false := by
    cases hl : ulongText v with
    | nil => rfl
    | cons c l =>
      have := (not_stop_of_isDigit (isDigit_of_mem_ulongText (v := v) (hl ▸ List.mem_cons_self ..))).2
      simpa using this
  have hdig : (ulongText v).takeWhile Char.isDigit = ulongText v :=
    List.takeWhile_eq_self_iff.mpr fun c hc => isDigit_of_mem_ulongText hc
  simp only [tnStrToLong, hneg, Bool.false_eq_true, if_false, hdig, if_neg ulongText_ne_nil]
  rw [digitsValue_eq, natValue_ulongText h]

/-- A `LONG` that fits does not wrap. -/
theorem wrapLong_of_fits {v : Int} (h : -2 ^ 31 ≤ v) (h' : v < 2 ^ 31) : wrapLong v = v := by
  unfold wrapLong
  rw [Int.bmod_eq_of_le]
  · omega
  · omega

/-- A written `LONG` is read back. -/
theorem tnStrToLong_longText {v : Int} (h : -2 ^ 31 < v) (h' : v < 2 ^ 31) :
    tnStrToLong (longText v) = some v := by
  unfold longText
  split
  · rename_i hneg
    have hu : toUlong (-v) = (-v).toNat := by
      unfold toUlong
      rw [Int.emod_eq_of_lt (by omega) (by omega)]
    have hdig : (ulongText (-v).toNat).takeWhile Char.isDigit = ulongText (-v).toNat :=
      List.takeWhile_eq_self_iff.mpr fun c hc => isDigit_of_mem_ulongText hc
    have hdv : digitsValue (ulongText (-v).toNat) = -v := by
      rw [digitsValue_eq, natValue_ulongText (by omega), wrapLong_of_fits (by omega) (by omega)]
      omega
    have hval : wrapLong (-digitsValue (ulongText (-v).toNat)) = v := by
      rw [hdv, Int.neg_neg, wrapLong_of_fits (by omega) h']
    rw [hu]
    simp [tnStrToLong, hdig, ulongText_ne_nil, hval]
  · rename_i hneg
    have hu : toUlong v = v.toNat := by
      unfold toUlong
      rw [Int.emod_eq_of_lt (by omega) (by omega)]
    rw [hu, tnStrToLong_ulongText (by omega), wrapLong_of_fits (by omega) (by omega)]
    congr 1
    omega

/-- The cast undoes the wrapping. -/
theorem toUlong_wrapLong {v : Nat} (h : v < 2 ^ 32) : toUlong (wrapLong v) = v := by
  have hmod : (v : Int).bmod (2 ^ 32) % ((2 ^ 32 : Nat) : Int) = v := by
    rw [Int.bmod_emod, Int.emod_eq_of_lt (by omega) (by omega)]
  unfold toUlong wrapLong
  rw [show (2 ^ 32 : Int) = ((2 ^ 32 : Nat) : Int) from rfl, hmod, Int.toNat_natCast]

/-- The cast of a number in range. -/
theorem toUlong_natCast {v : Nat} (h : v < 2 ^ 32) : toUlong v = v := by
  unfold toUlong
  rw [Int.emod_eq_of_lt (by omega) (by omega), Int.toNat_natCast]

/-- A number in range is read back as one. -/
theorem numIn_ulongText {v lo hi : Nat} (hlo : lo ≤ v) (hhi : v ≤ hi) (hi' : hi < 2 ^ 31) :
    numIn (ulongText v) lo hi = some (v : Int) := by
  rw [numIn, tnStrToLong_ulongText (by omega), wrapLong_of_fits (by omega) (by omega)]
  simp [hlo, hhi]

/-- What `numIn` accepts is in range. -/
theorem of_numIn {s : List Char} {lo hi n : Int} (h : numIn s lo hi = some n) :
    lo ≤ n ∧ n ≤ hi := by
  rw [numIn, Option.filter_eq_some_iff] at h
  simpa using h.2

/-! ## Event masks -/

/-- What the loop needs of an event name. -/
theorem s2evNames_spec : ∀ e ∈ s2evNames,
    (e.1.head?.map Char.toUpper).any (· ≠ 'D') ∧ '|' ∉ e.1 ∧ e.1.length ≤ 15 ∧
      s2evBit? e.1 = some e.2 := by
  decide

theorem s2evNames_ne_nil {e : List Char × Nat} (he : e ∈ s2evNames) : e.1 ≠ [] := by
  intro none
  have first := (s2evNames_spec e he).1
  rw [none] at first
  cases first

/-- A turn of the loop takes a name and the pipe behind it. -/
theorem s2eventsLoop_name {e : List Char × Nat} (he : e ∈ s2evNames) (tail : List Char)
    (ends : tail = [] ∨ tail.head? = some '|') (fuel mask : Nat) :
    s2eventsLoop (fuel + 1) (e.1 ++ tail) mask = s2eventsLoop fuel tail.tail (mask ||| e.2) := by
  obtain ⟨-, pipe, short, bit⟩ := s2evNames_spec e he
  have name : (e.1 ++ tail).takeWhile (· ≠ '|') = e.1 := by
    have inside : ∀ c ∈ e.1, decide (c ≠ '|') = true := fun c mem => by
      simp only [decide_eq_true_eq]
      rintro rfl
      exact pipe mem
    rw [List.takeWhile_append_of_pos inside]
    rcases ends with rfl | ends
    · simp
    · obtain ⟨rest, rfl⟩ := List.head?_eq_some_iff.mp ends
      simp
  have rest : (if tail.head? = some '|' then tail.tail else tail) = tail.tail := by
    rcases ends with rfl | ends
    · rfl
    · rw [if_pos ends]
  obtain ⟨c, s, text⟩ :=
    List.exists_cons_of_ne_nil (List.append_ne_nil_of_left_ne_nil (s2evNames_ne_nil he) tail)
  rw [text]
  simp only [s2eventsLoop]
  rw [← text, name, List.take_of_length_le short, List.drop_left, bit, rest]

/-- The loop reads names with pipes between them. -/
theorem s2eventsLoop_names {es : List (List Char × Nat)} (h : es ⊆ s2evNames) {fuel : Nat}
    (room : es.length ≤ fuel) (mask : Nat) :
    s2eventsLoop fuel (es.flatMap fun e => e.1 ++ ['|']).dropLast mask =
      some (es.foldl (fun m e => m ||| e.2) mask) := by
  induction es generalizing fuel mask with
  | nil => cases fuel <;> rfl
  | cons e es ih =>
    obtain ⟨he, hes⟩ := List.cons_subset.mp h
    obtain ⟨fuel, rfl⟩ : ∃ n, fuel = n + 1 :=
      ⟨fuel - 1, by simp only [List.length_cons] at room; omega⟩
    have room : es.length ≤ fuel := by simpa using room
    have rest := ih hes room (mask ||| e.2)
    rw [List.flatMap_cons, List.foldl_cons]
    cases es with
    | nil =>
      rw [List.flatMap_nil, List.append_nil, List.dropLast_concat, ← List.append_nil e.1,
        s2eventsLoop_name he [] (.inl rfl)]
      exact rest
    | cons e' es =>
      have more : ((e' :: es).flatMap fun e => e.1 ++ ['|']) ≠ [] := by simp
      rw [List.dropLast_append_of_ne_nil more, List.append_assoc, List.singleton_append,
        s2eventsLoop_name he _ (.inr rfl)]
      exact rest

theorem length_names_le {es : List (List Char × Nat)} (h : es ⊆ s2evNames) :
    es.length ≤ (es.flatMap fun e => e.1 ++ ['|']).dropLast.length := by
  have double : 2 * es.length ≤ (es.flatMap fun e => e.1 ++ ['|']).length := by
    induction es with
    | nil => exact Nat.zero_le _
    | cons e es ih =>
      obtain ⟨he, hes⟩ := List.cons_subset.mp h
      have named := List.length_pos_of_ne_nil (s2evNames_ne_nil he)
      have rest := ih hes
      simp only [List.flatMap_cons, List.length_append, List.length_cons, List.length_nil]
      omega
  rw [List.length_dropLast]
  omega

/-- The bits of the names of a mask make the mask. -/
theorem foldl_s2evNames : ∀ mask < 256,
    (s2evNames.filter fun e => mask &&& e.2 ≠ 0).foldl (fun m e => m ||| e.2) 0 = mask := by
  decide +kernel

/-- The names of `S2EVENTS` are read back. The masks are the numbers below 256. -/
theorem s2eventsValue_pipes {mask : Nat} (h : mask < 256) (h0 : mask ≠ 0) :
    s2eventsValue (s2eventsPipes mask).dropLast = some mask := by
  have bits := foldl_s2evNames mask h
  have listed : (s2evNames.filter fun e => mask &&& e.2 ≠ 0) ⊆ s2evNames := List.filter_subset_self _
  unfold s2eventsValue s2eventsPipes
  generalize (s2evNames.filter fun e => mask &&& e.2 ≠ 0) = es at bits listed ⊢
  cases es with
  | nil => exact absurd bits.symm h0
  | cons e es =>
    have room := length_names_le listed
    -- no name begins like the word for no mask
    have other : tnStrEqualNocase ((e :: es).flatMap fun e => e.1 ++ ['|']).dropLast
        "DEFAULT".toList = false := by
      have first := (s2evNames_spec e (listed List.mem_cons_self)).1
      obtain ⟨c, s, name⟩ := List.exists_cons_of_ne_nil (s2evNames_ne_nil (listed List.mem_cons_self))
      rw [name] at first
      have text : ∃ rest, ((e :: es).flatMap fun e => e.1 ++ ['|']).dropLast = c :: rest := by
        rw [List.flatMap_cons, name, List.append_assoc, List.cons_append,
          List.dropLast_cons_of_ne_nil (by simp)]
        exact ⟨_, rfl⟩
      obtain ⟨rest, text⟩ := text
      rw [text, tnStrEqualNocase]
      have ne : c.toUpper ≠ 'D' := by simpa using first
      rw [beq_eq_false_iff_ne]
      intro same
      exact ne (List.cons.inj same).1
    rw [other, if_neg (by simp), s2eventsLoop_names listed room, bits]
    simp [h0]
/-- What the loop collects is a mask. -/
theorem s2eventsLoop_lt {fuel mask v : Nat} {s : List Char} (hm : mask < 256)
    (h : s2eventsLoop fuel s mask = some v) : v < 256 := by
  induction fuel generalizing s mask with
  | zero =>
    cases s with
    | nil => rw [s2eventsLoop, Option.some.injEq] at h; omega
    | cons c s => cases h
  | succ fuel ih =>
    cases s with
    | nil => rw [s2eventsLoop, Option.some.injEq] at h; omega
    | cons c s =>
      simp only [s2eventsLoop] at h
      split at h
      · cases h
      · rename_i b hb
        refine ih (Nat.or_lt_two_pow (n := 8) hm ?_) h
        have hall : ∀ e ∈ s2evNames, e.2 < 256 := by decide
        rw [s2evBit?, Option.map_eq_some_iff] at hb
        obtain ⟨e, he, rfl⟩ := hb
        exact hall e (List.mem_of_find?_eq_some he)

theorem s2eventsValue_lt {s : List Char} {v : Nat} (h : s2eventsValue s = some v) : v < 256 := by
  unfold s2eventsValue at h
  split at h
  · cases h
    decide
  · rw [Option.filter_eq_some_iff] at h
    exact s2eventsLoop_lt (by decide) h.1

/-- Their text is a clean token. -/
theorem clean_s2eventsPipes {mask : Nat} (h : mask < 256) :
    Clean 64 (s2eventsPipes mask).dropLast ∧
      tnValToken (s2eventsPipes mask).dropLast "|".toList = true ∧
      (mask ≠ 0 → (s2eventsPipes mask).dropLast ≠ []) := by
  have listed : (s2evNames.filter fun e => mask &&& e.2 ≠ 0) ⊆ s2evNames := List.filter_subset_self _
  have letters : ∀ e ∈ s2evNames, (e.1.all fun c => !isStop c && c.isAlphanum) = true := by decide
  have chars : ∀ c ∈ (s2eventsPipes mask).dropLast, isStop c = false ∧ isTokenChar ['|'] c = true := by
    intro c mem
    obtain ⟨e, he, mem⟩ := List.mem_flatMap.mp ((List.dropLast_prefix _).mem mem)
    rcases List.mem_append.mp mem with mem | mem
    · have letter := List.all_eq_true.mp (letters e (listed he)) c mem
      simp only [Bool.and_eq_true, Bool.not_eq_true'] at letter
      exact ⟨letter.1, by simp [isTokenChar, letter.2]⟩
    · have pipe : c = '|' := List.mem_singleton.mp mem
      subst pipe
      decide
  refine ⟨⟨?_, fun c mem => (chars c mem).1⟩, ?_, fun some none => ?_⟩
  · have all : (s2eventsPipes mask).length ≤ (s2evNames.flatMap fun e => e.1 ++ ['|']).length :=
      List.Sublist.length_le (List.Sublist.flatMap List.filter_sublist _)
    have most : (s2evNames.flatMap fun e => e.1 ++ ['|']).length < 64 := by decide
    rw [List.length_dropLast]
    exact Nat.lt_of_le_of_lt (Nat.sub_le _ _) (Nat.lt_of_le_of_lt all most)
  · rw [tnValToken, List.all_eq_true]
    intro c mem
    have mem := List.mem_reverse.mp ((List.dropWhile_suffix isBlank).mem mem)
    exact (chars c ((List.takeWhile_prefix _).mem mem)).2
  · have value := s2eventsValue_pipes h some
    rw [none] at value
    cases value

/-! ## Fields -/

/-- What a field can hold: the parser accepts nothing else, and the defaults are among it. -/
def ValidAt : (k : CfgKey) → k.Val → Prop
  | .device, v | .hostname, v | .log, v => Clean 64 v
  | .ip, v | .netmask, v | .gateway, v | .dns2, v | .dns, v => Clean 20 v
  | .unit, v | .mtu, v => v < 2 ^ 32
  | .dhcp, v | .stats, v | .autoip, v | .mdns, v => v = 0 ∨ v = 1
  | .dnsPort, v => v ≤ 65535
  | .debug, v => v ≤ 2
  | .priority, v => -128 ≤ v ∧ v ≤ 127
  | .loglevel, v => -1 ≤ v ∧ v ≤ 2
  | .databaseOrder, v => Clean 40 v ∧ tnValToken v ",_-".toList = true
  | .selectors, v => v ≤ 128
  | .txQueue, v => v ≤ 8
  | .dnsPending, v => v ≤ dnsPendingMax
  | .dnsRetries, v => v ≤ 16
  | .syslog, v => Clean 48 v ∧ tnValToken v ".-".toList = true
  | .s2events, v => v < 256
  | .font, v => Clean 24 v ∧ (v = [] ∨ (tnValToken v ".-/".toList = true ∧ isFont v = true))
  | .diag, v => v ≤ 1
  | .version, _ => True

/-- The fields that `tn_prefs_default` assigns. -/
def CfgKey.Defaulted (k : CfgKey) : Prop := k ≠ .dnsPending ∧ k ≠ .dnsRetries

instance (k : CfgKey) : Decidable k.Defaulted :=
  inferInstanceAs (Decidable (k ≠ .dnsPending ∧ k ≠ .dnsRetries))

/-- The default of a field does not depend on what was there, but for two of them. -/
theorem get_tnPrefsDefault {k : CfgKey} (hk : k.Defaulted) (p q : TnPrefs) :
    (tnPrefsDefault p).get k = (tnPrefsDefault q).get k := by
  cases k <;> first | rfl | exact absurd rfl hk.1 | exact absurd rfl hk.2

/-- The defaults are valid. -/
theorem validAt_tnPrefsDefault {k : CfgKey} (hk : k.Defaulted) (p : TnPrefs) :
    ValidAt k ((tnPrefsDefault p).get k) := by
  have hnil : ∀ n, 0 < n → Clean n [] := fun n hn => ⟨hn, fun c hc => nomatch hc⟩
  cases k
  case device => exact clean_tnStrCopyClean _ (by decide)
  case hostname => exact clean_tnStrCopyClean _ (by decide)
  case dnsPending => exact absurd rfl hk.1
  case dnsRetries => exact absurd rfl hk.2
  case font => exact ⟨hnil _ (by decide), Or.inl rfl⟩
  case databaseOrder => exact ⟨hnil _ (by decide), rfl⟩
  case syslog => exact ⟨hnil _ (by decide), rfl⟩
  case ip | netmask | gateway | dns2 | dns | log => exact hnil _ (by decide)
  all_goals simp [ValidAt, TnPrefs.get, tnPrefsDefault]

/-- A mapped number in range. -/
theorem of_numIn_map {s : List Char} {lo hi : Int} {v : Nat} (hlo : 0 ≤ lo) (hhi : hi < 2 ^ 32)
    (h : (numIn s lo hi).map toUlong = some v) : v ≤ hi.toNat := by
  rw [Option.map_eq_some_iff] at h
  obtain ⟨n, hn, rfl⟩ := h
  have := of_numIn hn
  unfold toUlong
  rw [Int.emod_eq_of_lt (by omega) (by omega)]
  omega

/-- A number is a `ULONG`. -/
theorem toUlong_lt (v : Int) : toUlong v < 2 ^ 32 := by
  unfold toUlong
  have := Int.emod_lt_of_pos v (show (0 : Int) < 2 ^ 32 by decide)
  omega

/-- The parser accepts valid values only. -/
theorem cfgValue_valid {k : CfgKey} {val : List Char} {v : k.Val} (h : cfgValue k val = some v) :
    ValidAt k v := by
  have hflag : ∀ (c : Prop) [Decidable c] (a b w : Int), some (if c then a else b) = some w →
      (a = 0 ∨ a = 1) → (b = 0 ∨ b = 1) → (w = 0 ∨ w = 1) := by
    intro c _ a b w hw ha hb
    split at hw <;> cases hw <;> assumption
  have hclean := clean_tnStrCopyClean val (n := 64) (by decide)
  cases k
  case device | hostname | log =>
    cases h
    exact clean_tnStrCopyClean _ (by decide)
  case ip | netmask | gateway | dns2 | dns =>
    cases h
    exact clean_tnStrCopyClean _ (by decide)
  case unit | mtu =>
    obtain ⟨n, -, rfl⟩ := Option.map_eq_some_iff.mp h
    exact toUlong_lt n
  case dhcp | stats | autoip | mdns => exact hflag _ _ _ _ h (by decide) (by decide)
  case dnsPort | debug | selectors | txQueue | dnsPending | dnsRetries =>
    exact of_numIn_map (by decide) (by decide) h
  case priority => exact of_numIn h
  case loglevel =>
    have hr := of_numIn h
    exact ⟨Int.le_trans (by decide) hr.1, hr.2⟩
  case databaseOrder =>
    simp only [cfgValue] at h
    split at h
    · rename_i hok
      cases h
      exact ⟨clean_tnStrCopyClean _ (by decide), tnValToken_copy (tnValToken_copy hok.1 63) 39⟩
    · cases h
  case syslog =>
    simp only [cfgValue] at h
    split at h
    · rename_i hok
      cases h
      exact ⟨clean_tnStrCopyClean _ (by decide), tnValToken_copy (tnValToken_copy hok.1 63) 47⟩
    · cases h
  case s2events =>
    simp only [cfgValue] at h
    split at h
    · exact s2eventsValue_lt h
    · cases h
  case font =>
    simp only [cfgValue] at h
    split at h
    · rename_i hok
      cases h
      have hcopy := Clean.copy (s := tnStrCopyClean val 64) (n := 24) ⟨hok.2.2.1, hclean.chars⟩
      rw [hcopy]
      exact ⟨⟨hok.2.2.1, hclean.chars⟩, Or.inr ⟨tnValToken_copy hok.1 63, hok.2.2.2⟩⟩
    · cases h
  case diag =>
    simp only [cfgValue] at h
    split at h <;> cases h
    · exact Nat.le_refl 1
    · exact Nat.zero_le 1
  case version => trivial

end Tolunnet
