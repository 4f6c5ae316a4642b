import Mathlib.Data.List.Infix
import Mathlib.Data.List.TakeWhile
import Mathlib.Tactic.IntervalCases
import Tolunnet.Common.InetParse

/-!
# `Tolunnet.Inet.Aton`: the grammar of addresses

An address is one to four numbers with dots between them. `Numeral` is one of them: decimal, octal
behind a zero, or hexadecimal behind `0x`. All numbers but the last are bytes from the top, and the
last fills what is left of the 32 bits (`Aton`).

The digit loop stops with a number or, where 32 bits do not hold it, with nothing
(`digitsLoop_eq`): its test before each digit is exact, so the product that follows never wraps.
What it has read is the longest run of digits, which is the whole part because a dot is no digit.
-/

set_option autoImplicit false

namespace Tolunnet

namespace Inet

/-! ## Numbers -/

/-- The value of a digit, in either case, and 16 for any other character. -/
def digitValue (c : Char) : Nat := "0123456789abcdef".toList.idxOf c.toLower

/-- The number that digits stand for after `acc`. -/
def number (base acc : Nat) (digits : List Char) : Nat :=
  digits.foldl (fun n c => n * base + digitValue c) acc

/-- The three ways to write a number. -/
inductive Radix where
  | decimal | octal | hex

namespace Radix

/-- The base. -/
def base : Radix → Nat
  | decimal => 10
  | octal => 8
  | hex => 16

/-- What a number of the radix looks like: a leading zero makes it octal, and `0x` stands before
hexadecimal digits. -/
def Spells : Radix → List Char → List Char → Prop
  | decimal, text, digits => text = digits ∧ digits.head? ≠ some '0'
  | octal, text, digits => text = digits ∧ digits.head? = some '0'
  | hex, text, digits => text = '0' :: 'x' :: digits ∨ text = '0' :: 'X' :: digits

end Radix

/-- The text is the number `n` in one of the three ways. -/
def Numeral (text : List Char) (n : Nat) : Prop :=
  ∃ (r : Radix) (digits : List Char), r.Spells text digits ∧ digits ≠ [] ∧
    (∀ c ∈ digits, digitValue c < r.base) ∧ n = number r.base 0 digits

/-- Numbers with single dots between them. -/
inductive Dotted : List Char → List Nat → Prop
  | last {text : List Char} {n : Nat} : Numeral text n → Dotted text [n]
  | dot {text rest : List Char} {n : Nat} {ns : List Nat} :
      Numeral text n → Dotted rest ns → Dotted (text ++ '.' :: rest) (n :: ns)

/-- The bytes in front, from the top. -/
def leading (bytes : List Nat) : Nat := bytes.foldl (fun a v => 256 * a + v) 0

/-- The text is an address: every number but the last is a byte, and the last one has the bits that
are left. -/
def Aton (text : List Char) (addr : Nat) : Prop :=
  ∃ (bytes : List Nat) (last : Nat), Dotted text (bytes ++ [last]) ∧ bytes.length ≤ 3 ∧
    (∀ b ∈ bytes, b ≤ 255) ∧ last < 256 ^ (4 - bytes.length) ∧
    addr = leading bytes * 256 ^ (4 - bytes.length) + last

/-! ## Digits -/

variable {base acc k n : Nat} {c : Char} {p q s text digits rest : List Char} {ns : List Nat}

theorem digitValue_of_large (h : 128 ≤ c.toNat) : digitValue c = 16 := by
  have lower : c.toLower = c := by
    have above : ¬ c.val ≤ 'Z'.val := fun hc => by
      have : c.toNat ≤ 90 := hc
      omega
    exact dif_neg fun hc => above hc.2
  have small : ∀ d ∈ "0123456789abcdef".toList, d.toNat < 128 := by
    simp
  unfold digitValue
  rw [lower, List.idxOf_eq_length_iff.mpr fun hc => by have := small c hc; omega]
  rfl

/-- The digits of the three radices are those with a value below the base. -/
theorem digitIn_eq (r : Radix) (c : Char) :
    digitIn r.base c = if digitValue c < r.base then some (digitValue c) else none := by
  rcases Nat.lt_or_ge c.toNat 128 with small | large
  · have ascii : ∀ n < 128, ∀ b ∈ [8, 10, 16], digitIn b (Char.ofNat n)
        = if digitValue (Char.ofNat n) < b then some (digitValue (Char.ofNat n)) else none := by
      decide +kernel
    have base : r.base ∈ [8, 10, 16] := by cases r <;> decide
    have := ascii c.toNat small r.base base
    rwa [Char.ofNat_toNat] at this
  · have above : ∀ d : Char, d.toNat < 128 → ¬ c ≤ d := fun d hd hc => by
      have : c.toNat ≤ d.toNat := hc
      omega
    have none_of : digitIn r.base c = none := by
      simp [digitIn, above '9' (by decide), above 'f' (by decide), above 'F' (by decide)]
    have : ¬ 16 < r.base := by cases r <;> decide
    rw [none_of, digitValue_of_large large, if_neg (by omega)]

theorem number_cons : number base acc (c :: digits) = number base (acc * base + digitValue c) digits :=
  rfl

theorem le_number (hb : 0 < base) (acc : Nat) (digits : List Char) : acc ≤ number base acc digits := by
  induction digits generalizing acc with
  | nil => exact Nat.le_refl acc
  | cons c digits ih =>
    have : acc ≤ acc * base := Nat.le_mul_of_pos_right acc hb
    exact Nat.le_trans (by omega) (ih (acc * base + digitValue c))

/-- The test before a digit is taken in. -/
theorem overflow_iff (hb : 0 < base) (d : Nat) (hd : d < base) :
    (acc > 0xFFFFFFFF / base ∨ (acc = 0xFFFFFFFF / base ∧ d > 0xFFFFFFFF % base)) ↔
      2 ^ 32 ≤ acc * base + d := by
  have whole := Nat.div_add_mod 0xFFFFFFFF base
  have rem := Nat.mod_lt 0xFFFFFFFF hb
  generalize 0xFFFFFFFF / base = lim at *
  generalize 0xFFFFFFFF % base = limRem at *
  rw [Nat.mul_comm] at whole
  rcases Nat.lt_trichotomy acc lim with lt | eq | gt
  · have : (acc + 1) * base ≤ lim * base := Nat.mul_le_mul_right base lt
    rw [Nat.add_one_mul] at this
    omega
  · subst eq
    omega
  · have : (lim + 1) * base ≤ acc * base := Nat.mul_le_mul_right base gt
    rw [Nat.add_one_mul] at this
    omega

/-- The loop reads the digits in front and fails when 32 bits do not hold their number. -/
theorem digitsLoop_eq (r : Radix) (hacc : acc < 2 ^ 32) (k : Nat)
    (hd : ∀ c ∈ digits, digitValue c < r.base) (hr : ∀ c ∈ rest.head?, ¬ digitValue c < r.base) :
    digitsLoop r.base acc k (digits ++ rest) =
      if number r.base acc digits < 2 ^ 32 then
        some (number r.base acc digits, k + digits.length, rest)
      else none := by
  have pos : 0 < r.base := by cases r <;> decide
  induction digits generalizing acc k with
  | nil =>
    rw [List.nil_append, if_pos (show number r.base acc [] < 2 ^ 32 from hacc)]
    cases rest with
    | nil => rfl
    | cons c rest =>
      unfold digitsLoop
      rw [digitIn_eq, if_neg (hr c rfl)]
      rfl
  | cons c digits ih =>
    have digit := hd c List.mem_cons_self
    rw [List.cons_append, number_cons, List.length_cons]
    unfold digitsLoop
    rw [digitIn_eq, if_pos digit]
    simp only [overflow_iff pos _ digit]
    by_cases fits : acc * r.base + digitValue c < 2 ^ 32
    · rw [if_neg (by omega), Nat.mod_eq_of_lt fits,
        ih fits _ fun c hc => hd c (List.mem_cons_of_mem _ hc), Nat.add_assoc k 1, Nat.add_comm 1]
    · have above := le_number pos (acc * r.base + digitValue c) digits
      rw [if_pos (by omega), if_neg (by omega)]

/-! ## Parts -/

theorem inetDigits_cases (p : List Char) :
    (∃ q, (p = '0' :: 'x' :: q ∨ p = '0' :: 'X' :: q) ∧ inetDigits p = digitsLoop 16 0 0 q) ∨
    (∃ q, p = '0' :: q ∧ inetDigits p = digitsLoop 8 0 1 q) ∨
    (p.head? ≠ some '0' ∧ inetDigits p = digitsLoop 10 0 0 p) := by
  unfold inetDigits
  split
  · exact Or.inl ⟨_, Or.inl rfl, rfl⟩
  · exact Or.inl ⟨_, Or.inr rfl, rfl⟩
  · exact Or.inr (Or.inl ⟨_, rfl, rfl⟩)
  · rename_i other
    refine Or.inr (Or.inr ⟨fun zero => ?_, rfl⟩)
    obtain ⟨q, rfl⟩ := List.head?_eq_some_iff.mp zero
    exact other q rfl

/-- What the loop over digits has read, when it has read something. -/
theorem digitsLoop_some (r : Radix) {num : Nat} (h : digitsLoop r.base 0 k p = some (num, n, rest)) :
    ∃ digits, p = digits ++ rest ∧ (∀ c ∈ digits, digitValue c < r.base) ∧
      num = number r.base 0 digits ∧ num < 2 ^ 32 ∧ n = k + digits.length := by
  have run := List.takeWhile_append_dropWhile (p := fun c => decide (digitValue c < r.base)) (l := p)
  have digit : ∀ c ∈ p.takeWhile fun c => decide (digitValue c < r.base), digitValue c < r.base :=
    fun c hc => by simpa using List.mem_takeWhile_imp hc
  have stop : ∀ c ∈ (p.dropWhile fun c => decide (digitValue c < r.base)).head?,
      ¬ digitValue c < r.base := fun c hc => by
    have head := List.head?_dropWhile_not (fun c => decide (digitValue c < r.base)) p
    rw [Option.mem_def.mp hc] at head
    simpa using head
  rw [← run, digitsLoop_eq r (by decide) k digit stop] at h
  split at h
  · rename_i fits
    simp only [Option.some.injEq, Prod.mk.injEq] at h
    obtain ⟨rfl, rfl, rfl⟩ := h
    exact ⟨_, run.symm, digit, rfl, fits, rfl⟩
  · cases h

/-- A part that is read is a number. -/
theorem inetDigits_some {num : Nat} (h : inetDigits p = some (num, n, rest)) (hn : n ≠ 0) :
    ∃ text, p = text ++ rest ∧ Numeral text num ∧ num < 2 ^ 32 := by
  obtain ⟨q, hp, eq⟩ | ⟨q, rfl, eq⟩ | ⟨head, eq⟩ := inetDigits_cases p
  · rw [eq] at h
    obtain ⟨digits, rfl, digit, rfl, fits, rfl⟩ := digitsLoop_some .hex h
    have some_digit : digits ≠ [] := by
      rintro rfl
      exact hn rfl
    obtain rfl | rfl := hp
    · exact ⟨_, rfl, ⟨.hex, digits, Or.inl rfl, some_digit, digit, rfl⟩, fits⟩
    · exact ⟨_, rfl, ⟨.hex, digits, Or.inr rfl, some_digit, digit, rfl⟩, fits⟩
  · rw [eq] at h
    obtain ⟨digits, rfl, digit, rfl, fits, rfl⟩ := digitsLoop_some .octal h
    refine ⟨'0' :: digits, rfl, ⟨.octal, '0' :: digits, ⟨rfl, rfl⟩, List.cons_ne_nil _ _, ?_, rfl⟩,
      fits⟩
    exact List.forall_mem_cons.mpr ⟨by decide, digit⟩
  · rw [eq] at h
    obtain ⟨digits, rfl, digit, rfl, fits, rfl⟩ := digitsLoop_some .decimal h
    have some_digit : digits ≠ [] := by
      rintro rfl
      exact hn rfl
    refine ⟨digits, rfl, ⟨.decimal, digits, ⟨rfl, ?_⟩, some_digit, digit, rfl⟩, fits⟩
    rwa [List.head?_append_of_ne_nil _ some_digit] at head

/-- A part ends at the end of the text or at a dot. -/
def Ends (rest : List Char) : Prop := rest = [] ∨ ∃ q, rest = '.' :: q

theorem Ends.stop (h : Ends rest) (r : Radix) : ∀ c ∈ rest.head?, ¬ digitValue c < r.base := by
  obtain rfl | ⟨q, rfl⟩ := h
  · exact fun c hc => nomatch hc
  · intro c hc
    obtain rfl : '.' = c := Option.some.inj hc
    cases r <;> decide

/-- A number is read as a part. -/
theorem Numeral.inetDigits (h : Numeral text n) (fits : n < 2 ^ 32) (hr : Ends rest) :
    ∃ k ≠ 0, inetDigits (text ++ rest) = some (n, k, rest) := by
  obtain ⟨r, digits, spells, some_digit, digit, rfl⟩ := h
  have count : digits.length ≠ 0 := fun h => some_digit (List.length_eq_zero_iff.mp h)
  have loop := digitsLoop_eq r (show 0 < 2 ^ 32 by decide) 0 digit (hr.stop r)
  rw [if_pos fits, Nat.zero_add] at loop
  cases r with
  | hex => obtain rfl | rfl := spells <;> exact ⟨_, count, loop⟩
  | decimal =>
    obtain ⟨rfl, head⟩ := spells
    refine ⟨_, count, ?_⟩
    obtain ⟨q, hp, -⟩ | ⟨q, hp, -⟩ | ⟨-, eq⟩ := inetDigits_cases (text ++ rest)
    · exact absurd (by obtain hp | hp := hp <;> rw [← List.head?_append_of_ne_nil _ some_digit, hp] <;> rfl) head
    · exact absurd (by rw [← List.head?_append_of_ne_nil _ some_digit, hp]; rfl) head
    · rw [eq]
      exact loop
  | octal =>
    obtain ⟨rfl, head⟩ := spells
    obtain ⟨digits, rfl⟩ := List.head?_eq_some_iff.mp head
    have tail := fun c hc => digit c (List.mem_cons_of_mem _ hc)
    have loop := digitsLoop_eq .octal (show 0 < 2 ^ 32 by decide) 1 tail (hr.stop .octal)
    rw [if_pos (show number Radix.octal.base 0 digits < 2 ^ 32 from fits)] at loop
    refine ⟨1 + digits.length, by omega, ?_⟩
    have next : ∀ c, (digits ++ rest).head? = some c → digitValue c < 8 ∨ c = '.' := by
      intro c hc
      cases digits with
      | nil =>
        obtain rfl | ⟨q, rfl⟩ := hr
        · cases hc
        · exact Or.inr (Option.some.inj hc).symm
      | cons d digits => exact Or.inl (Option.some.inj hc ▸ tail d List.mem_cons_self)
    obtain ⟨q, hp, -⟩ | ⟨q, hp, eq⟩ | ⟨no, -⟩ := inetDigits_cases ('0' :: digits ++ rest)
    · obtain hp | hp := hp
      · exact absurd (next 'x' (congrArg List.head? (List.cons.inj hp).2)) (by decide)
      · exact absurd (next 'X' (congrArg List.head? (List.cons.inj hp).2)) (by decide)
    · rw [eq, ← (List.cons.inj hp).2]
      exact loop
    · exact absurd rfl no

theorem Numeral.ne_nil (h : Numeral text n) : text ≠ [] := by
  obtain ⟨r, digits, spells, some_digit, -⟩ := h
  cases r with
  | hex => obtain rfl | rfl := spells <;> exact List.cons_ne_nil _ _
  | decimal | octal => exact spells.1 ▸ some_digit

/-! ## Addresses -/

/-- What the loop over parts has read is numbers with dots between them. -/
theorem dotted_of_inetParts {m : Nat} (h : inetParts m s = some (ns, [])) (hs : s ≠ []) :
    Dotted s ns ∧ ns.length ≤ m ∧ ∀ v ∈ ns, v < 2 ^ 32 := by
  induction m generalizing s ns with
  | zero => simp [inetParts, hs] at h
  | succ m ih =>
    obtain ⟨c, s, rfl⟩ := List.exists_cons_of_ne_nil hs
    unfold inetParts at h
    split at h
    · cases h
    · rename_i num k rest read
      split_ifs at h with none_read
      obtain ⟨text, whole, numeral, fits⟩ := inetDigits_some read none_read
      rw [whole]
      split at h
      · simp only [Option.some.injEq, Prod.mk.injEq, and_true] at h
        subst h
        rw [List.append_nil]
        exact ⟨.last numeral, Nat.le_add_left .., by simpa using fits⟩
      · rename_i q
        split_ifs at h with trailing
        obtain ⟨r, parts, eq⟩ := Option.map_eq_some_iff.mp h
        obtain ⟨rfl, left⟩ := Prod.mk.inj eq
        obtain ⟨dotted, len, bound⟩ := ih (show inetParts m q = some (r.1, []) by rw [parts, ← left]) trailing
        exact ⟨.dot numeral dotted, Nat.succ_le_succ len, List.forall_mem_cons.mpr ⟨fits, bound⟩⟩
      · cases h

theorem Dotted.ne_nil (h : Dotted s ns) : s ≠ [] ∧ ns ≠ [] := by
  cases h with
  | last numeral => exact ⟨numeral.ne_nil, List.cons_ne_nil _ _⟩
  | dot numeral _ => exact ⟨by simp, List.cons_ne_nil _ _⟩

/-- Numbers with dots between them are read. -/
theorem Dotted.inetParts {m : Nat} (h : Dotted s ns) (len : ns.length ≤ m)
    (bound : ∀ v ∈ ns, v < 2 ^ 32) : inetParts m s = some (ns, []) := by
  induction h generalizing m with
  | @last text n numeral =>
    obtain ⟨m, rfl⟩ : ∃ m', m = m' + 1 := ⟨m - 1, by simp at len; omega⟩
    obtain ⟨k, some_digit, read⟩ := numeral.inetDigits (bound n (by simp)) (Or.inl rfl)
    rw [List.append_nil] at read
    obtain ⟨c, text, rfl⟩ := List.exists_cons_of_ne_nil numeral.ne_nil
    simp [Tolunnet.inetParts, read, some_digit]
  | @dot text rest n ns numeral dotted ih =>
    obtain ⟨m, rfl⟩ : ∃ m', m = m' + 1 := ⟨m - 1, by simp at len; omega⟩
    obtain ⟨k, some_digit, read⟩ := numeral.inetDigits (bound n (by simp))
      (show Ends ('.' :: rest) from Or.inr ⟨rest, rfl⟩)
    have others := ih (m := m) (by simpa using len) fun v hv => bound v (List.mem_cons_of_mem _ hv)
    obtain ⟨c, text, rfl⟩ := List.exists_cons_of_ne_nil numeral.ne_nil
    rw [List.cons_append] at read ⊢
    simp [Tolunnet.inetParts, read, some_digit, dotted.ne_nil.1, others]

/-- A field below others. -/
theorem or_field (a i mask : Nat) {b : Nat} (hm : mask = 2 ^ i - 1) (hb : b < 2 ^ i) :
    a <<< i ||| b &&& mask = a * 2 ^ i + b := by
  rw [hm, Nat.and_two_pow_sub_one_eq_mod, Nat.mod_eq_of_lt hb, ← Nat.shiftLeft_add_eq_or_of_lt hb,
    Nat.shiftLeft_eq]

/-- The parts of an address put together, when each fits its field. -/
theorem inetJoin_append {bytes : List Nat} {last : Nat} (len : bytes.length ≤ 3)
    (bound : last < 2 ^ 32) : inetJoin (bytes ++ [last]) =
      if (∀ b ∈ bytes, b ≤ 255) ∧ last < 256 ^ (4 - bytes.length) then
        some (leading bytes * 256 ^ (4 - bytes.length) + last)
      else none := by
  have under : ∀ a b i j : Nat, a <<< (i + j) ||| b <<< j = (a <<< i ||| b) <<< j := fun a b i j => by
    rw [Nat.shiftLeft_or_distrib, ← Nat.shiftLeft_add]
  match bytes, len with
  | [], _ => simpa [inetJoin, leading] using bound
  | [a], _ =>
    simp only [List.cons_append, List.nil_append, inetJoin, leading]
    by_cases fits : a ≤ 255 ∧ last < 2 ^ 24
    · rw [if_neg (by omega), if_pos (by simpa using fits), or_field a 24 0xFFFFFF rfl fits.2]
      simp
    · rw [if_pos (by omega), if_neg (by simpa using fits)]
  | [a, b], _ =>
    simp only [List.cons_append, List.nil_append, inetJoin, leading]
    by_cases fits : (a ≤ 255 ∧ b ≤ 255) ∧ last < 2 ^ 16
    · have byte : b < 2 ^ 8 := by omega
      rw [if_neg (by omega), if_pos (by simpa using fits), under a _ 8 16,
        or_field _ 16 0xFFFF rfl fits.2, or_field a 8 0xFF rfl byte]
      simp [Nat.mul_comm]
    · rw [if_pos (by omega), if_neg (by simpa [and_assoc] using fits)]
  | [a, b, c], _ =>
    simp only [List.cons_append, List.nil_append, inetJoin, leading]
    by_cases fits : (a ≤ 255 ∧ b ≤ 255 ∧ c ≤ 255) ∧ last < 2 ^ 8
    · have bytes : b < 2 ^ 8 ∧ c < 2 ^ 8 := by omega
      rw [if_neg (by omega), if_pos (by simpa using fits), under a _ 8 16, under _ _ 8 8,
        or_field _ 8 0xFF rfl fits.2, or_field _ 8 0xFF rfl bytes.2, or_field a 8 0xFF rfl bytes.1]
      simp [Nat.mul_comm]
    · rw [if_pos (by omega), if_neg (by simpa [and_assoc] using fits)]

/-- The parser accepts the grammar and nothing else, with the value of the grammar. -/
theorem tnInetAddrParseEx_iff (cp : List Char) (addr : Nat) :
    tnInetAddrParseEx cp = some addr ↔ Aton (cString cp) addr := by
  unfold tnInetAddrParseEx
  constructor
  · intro h
    split at h
    · rename_i vals parts
      rcases eq_or_ne (cString cp) [] with empty | some_text
      · rw [empty, inetParts] at parts
        cases parts
        cases h
      · obtain ⟨dotted, len, bound⟩ := dotted_of_inetParts parts some_text
        obtain nil | ⟨bytes, last, rfl⟩ := List.eq_nil_or_concat' vals
        · exact absurd nil dotted.ne_nil.2
        · have len : bytes.length ≤ 3 := by
            rw [List.length_append, List.length_singleton] at len
            omega
          rw [inetJoin_append len (bound last (by simp))] at h
          split_ifs at h with fits
          exact ⟨bytes, last, dotted, len, fits.1, fits.2, (Option.some.inj h).symm⟩
    · cases h
  · rintro ⟨bytes, last, dotted, len, byte, fits, rfl⟩
    have small : last < 2 ^ 32 := Nat.lt_of_lt_of_le fits (by
      rw [show 2 ^ 32 = 256 ^ 4 from rfl]
      exact Nat.pow_le_pow_right (by decide) (Nat.sub_le ..))
    have bound : ∀ v ∈ bytes ++ [last], v < 2 ^ 32 := fun v hv => by
      obtain hv | hv := List.mem_append.mp hv
      · have := byte v hv
        omega
      · rwa [List.mem_singleton.mp hv]
    have parts : (bytes ++ [last]).length ≤ 4 := by
      rw [List.length_append, List.length_singleton]
      omega
    rw [dotted.inetParts (m := 4) parts bound]
    show inetJoin (bytes ++ [last]) = _
    rw [inetJoin_append len small, if_pos ⟨byte, fits⟩]

/-! ## Printing -/

/-- An octet is printed as a decimal number. -/
theorem numeral_octet {v : Nat} (hv : v < 256) : Numeral (Nat.toDigits 10 v) v := by
  have all : ∀ v < 256, (v = 0 ∨ (Nat.toDigits 10 v).head? ≠ some '0') ∧ Nat.toDigits 10 v ≠ [] ∧
      ((Nat.toDigits 10 v).all fun c => digitValue c < 10) = true ∧
      v = number 10 0 (Nat.toDigits 10 v) := by
    decide +kernel
  obtain ⟨head, some_digit, digit, value⟩ := all v hv
  simp only [List.all_eq_true, decide_eq_true_eq] at digit
  obtain rfl | head := head
  · have zero : ∀ c ∈ ['0'], digitValue c < 8 := fun c mem => by
      rw [List.mem_singleton.mp mem]
      decide
    exact ⟨.octal, ['0'], ⟨rfl, rfl⟩, by decide, zero, rfl⟩
  · exact ⟨.decimal, _, ⟨rfl, head⟩, some_digit, digit, value⟩

theorem Numeral.no_nul (h : Numeral text n) : '\x00' ∉ text := by
  obtain ⟨r, digits, spells, -, digit, -⟩ := h
  have digits_no_nul : '\x00' ∉ digits := fun hc => by
    have := digit _ hc
    cases r <;> exact absurd this (by decide)
  cases r with
  | hex => obtain rfl | rfl := spells <;> simpa using digits_no_nul
  | decimal | octal => exact spells.1 ▸ digits_no_nul

theorem Dotted.no_nul (h : Dotted s ns) : '\x00' ∉ s := by
  induction h with
  | last numeral => exact numeral.no_nul
  | dot numeral _ ih => simpa using ⟨numeral.no_nul, ih⟩

/-- The text of an address is in the grammar. -/
theorem aton_tnLvoInetNtoa (ip : BitVec 32) : Aton (cString (tnLvoInetNtoa ip)) ip.toNat := by
  have octet : ∀ k, (ip >>> k &&& 0xFF).toNat = ip.toNat / 2 ^ k % 256 := fun k => by
    rw [BitVec.toNat_and, BitVec.toNat_ushiftRight, Nat.shiftRight_eq_div_pow]
    exact Nat.and_two_pow_sub_one_eq_mod _ 8
  have printed : ∀ k, Numeral (Nat.toDigits 10 (ip >>> k &&& 0xFF).toNat) (ip.toNat / 2 ^ k % 256) :=
    fun k => octet k ▸ numeral_octet (octet k ▸ Nat.mod_lt _ (by decide))
  have dotted : Dotted (tnLvoInetNtoa ip) ([ip.toNat / 2 ^ 24 % 256, ip.toNat / 2 ^ 16 % 256,
      ip.toNat / 2 ^ 8 % 256] ++ [ip.toNat / 2 ^ 0 % 256]) :=
    .dot (printed 24) (.dot (printed 16) (.dot (printed 8) (.last (printed 0))))
  have text : cString (tnLvoInetNtoa ip) = tnLvoInetNtoa ip :=
    List.takeWhile_eq_self_iff.mpr fun c hc => by
      have : c ≠ '\x00' := fun h => dotted.no_nul (h ▸ hc)
      simpa using this
  have size := ip.isLt
  refine ⟨_, _, text ▸ dotted, by simp, fun b hb => ?_, ?_, ?_⟩
  · simp only [List.mem_cons, List.not_mem_nil, or_false] at hb
    omega
  · show ip.toNat / 2 ^ 0 % 256 < 256
    omega
  · simp only [leading, List.foldl_cons, List.foldl_nil, List.length_cons, List.length_nil]
    omega

/-- The parser accepts the addresses of the grammar and nothing else, with their exact values, and
reads back the text of every address. -/
theorem inet_parse_exact :
    (∀ cp addr, tnInetAddrParseEx cp = some addr ↔ Aton (cString cp) addr) ∧
    ∀ ip, tnInetAddrParseEx (tnLvoInetNtoa ip) = some ip.toNat :=
  ⟨tnInetAddrParseEx_iff, fun ip => (tnInetAddrParseEx_iff _ _).mpr (aton_tnLvoInetNtoa ip)⟩

end Inet

end Tolunnet
