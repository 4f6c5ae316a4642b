import Tolunnet.Inet.Aton
import Tolunnet.Inet.QuadText

/-!
# `Tolunnet.Inet.Readers`: what the readers of addresses agree on

`tn_parse_ipv4` and the reverse names of `nslookup` take all parts as decimal numbers, and
`tn_inet_addr_parse_ex` takes a part with a zero in front as octal. Both accept a part such as `010`, and as
different numbers.

The two scanners differ where a run is a quad only up to dots behind it, and where a run merely ends in a
quad. They agree if such a run stands behind a run that both take, or if the one that goes on finds the
same address later (`readersAgree_iff`).
-/

set_option autoImplicit false

namespace Tolunnet

namespace Quads

open Http (isDigit)
open Inet (Numeral Dotted Aton Radix digitValue number leading)
open Numbers (bytesValue)
open Dns (dotted digitsFrom dnsOctet dnsPutQname wire)

/-! ## Scanners -/

/-- Two searches find the same: the first hit is one of both, or the other search finds the same later. -/
def Settled {α β : Type} (f g : α → Option β) : List α → Prop
  | [] => True
  | r :: rs =>
    match f r, g r with
    | none, none => Settled f g rs
    | some _, some _ => True
    | some v, none => rs.findSome? g = some v
    | none, some v => rs.findSome? f = some v

/-- Where the searches agree on each place that is one for both. -/
theorem findSome?_eq_iff {α β : Type} {f g : α → Option β}
    (both : ∀ r v w, f r = some v → g r = some w → v = w) (l : List α) :
    l.findSome? f = l.findSome? g ↔ Settled f g l := by
  induction l with
  | nil => exact iff_of_true rfl trivial
  | cons r rs ih =>
    rw [List.findSome?_cons, List.findSome?_cons, Settled]
    have same := both r
    cases hf : f r with
    | none =>
      cases hg : g r with
      | none => exact ih
      | some w => exact Iff.rfl
    | some v =>
      cases hg : g r with
      | none => exact eq_comm
      | some w => exact iff_of_true (congrArg some (same v w hf hg)) trivial

variable {n : Nat} {c : UInt8} {s p q r rest a : List UInt8} {ps : List (List UInt8)} {vs ws : List Nat}

/-- Each text that is a quad ends in a digit. -/
theorem getLast?_of_octets (found : octets q = some vs) : ∃ c, q.getLast? = some c ∧ isDigit c = true := by
  obtain ⟨ps, count, octets, rfl, -⟩ := octets_iff.mp found
  obtain ⟨p1, p2, p3, p4, rfl⟩ := List.length_eq_four.mp count
  have last := octets p4 (by simp)
  have some : p4 ≠ [] := fun none => by
    have := last.some
    rw [none] at this
    cases this
  refine ⟨p4.getLast some, ?_, last.digits _ (List.getLast_mem some)⟩
  have split : dotted [p1, p2, p3, p4] = (p1 ++ 46 :: (p2 ++ 46 :: (p3 ++ [46]))) ++ p4 := by
    simp [dotted]
  rw [split, List.getLast?_append_of_ne_nil _ some, List.getLast?_eq_getLast_of_ne_nil some]

/-- Dots in front of a run do not matter to what it ends in. -/
theorem endQuad_dropWhile (r : List UInt8) : endQuad r = endQuad (r.dropWhile (· == 46)) := by
  induction r with
  | nil => rfl
  | cons c r ih =>
    by_cases dot : (c == 46) = true
    · rw [List.dropWhile_cons_of_pos (p := (· == 46)) dot, ← ih, endQuad, List.tails, List.findSome?_cons, beq_iff_eq.mp dot,
        octets_dot]
      rfl
    · rw [List.dropWhile_cons_of_neg (p := (· == 46)) dot]

/-- A run that both scanners take is the same address for both. -/
theorem wholeQuad_endQuad (r : List UInt8) (vs ws : List Nat) (whole : wholeQuad r = some vs)
    (ends : endQuad r = some ws) : vs = ws := by
  rw [wholeQuad, trim] at whole
  rw [endQuad_dropWhile] at ends
  generalize r.dropWhile (· == 46) = r at whole ends
  have last : r.rdropWhile (· == 46) = r := by
    refine List.rdropWhile_eq_self_iff.mpr fun some dot => ?_
    -- what the run ends in has a digit for its last character, and the run has the same
    obtain ⟨q, mem, found⟩ := List.exists_of_findSome?_eq_some ends
    obtain ⟨c, last, digit⟩ := getLast?_of_octets found
    obtain ⟨front, rfl⟩ := (List.mem_tails q r).mp mem
    have more : q ≠ [] := fun none => by
      rw [none] at last
      cases last
    rw [List.getLast_append_of_ne_nil some more] at dot
    rw [List.getLast?_eq_getLast_of_ne_nil more] at last
    rw [Option.some.inj last, beq_iff_eq] at dot
    rw [dot] at digit
    cases digit
  rw [last] at whole
  have first : endQuad r = some vs := by
    rw [endQuad]
    cases r with
    | nil => cases whole
    | cons c r => rw [List.tails, List.findSome?_cons, whole]
  exact Option.some.inj (first.symm.trans ends)

/-- The scanners agree. -/
theorem scanners_iff (room : 16 ≤ n) (t : List UInt8) :
    scanIpv4 t = (tnParseFirstIpv4 t n).bind octets ↔ Settled wholeQuad endQuad (runs t) := by
  have some_room : n ≠ 0 := by omega
  rw [tnParseFirstIpv4, if_neg some_room, firstQuadInRange_eq room, scanIpv4_eq, eq_comm]
  exact findSome?_eq_iff wholeQuad_endQuad (runs t)

/-! ## Radix -/

/-- The characters of a string of bytes. -/
def text (t : List UInt8) : List Char := t.map fun b => Char.ofNat b.toNat

/-- A part with a zero in front has octal digits only. -/
def Octal (p : List UInt8) : Prop := p.head? = some 48 → ∀ c ∈ p, c < 56

/-- A part of three digits that is another number in octal. -/
def Ambiguous (p : List UInt8) : Prop := ∃ x y, p = [48, x, y] ∧ x ≠ 48

/-- The number that a part is in octal. -/
def octalValue (p : List UInt8) : Nat := p.foldl (fun v c => v * 8 + (c.toNat - 48)) 0

theorem isDigit_iff : isDigit c = true ↔ 48 ≤ c.toNat ∧ c.toNat ≤ 57 := by
  rw [isDigit, Bool.and_eq_true, decide_eq_true_eq, decide_eq_true_eq, UInt8.le_iff_toNat_le,
    UInt8.le_iff_toNat_le]
  rfl

theorem digitValue_digit (digit : isDigit c = true) : digitValue (Char.ofNat c.toNat) = c.toNat - 48 := by
  have all : ∀ n < 58, 48 ≤ n → digitValue (Char.ofNat n) = n - 48 := by decide
  obtain ⟨low, high⟩ := isDigit_iff.mp digit
  exact all c.toNat (by omega) low

/-- The value of the digits in any base. -/
theorem number_text (base : Nat) (digits : ∀ c ∈ p, isDigit c) (acc : Nat) :
    number base acc (text p) = p.foldl (fun v c => v * base + (c.toNat - 48)) acc := by
  induction p generalizing acc with
  | nil => rfl
  | cons c p ih =>
    have first := digitValue_digit (digits c List.mem_cons_self)
    show number base (acc * base + digitValue (Char.ofNat c.toNat)) (text p) = _
    rw [first, ih fun c mem => digits c (List.mem_cons_of_mem _ mem), List.foldl_cons]

theorem head?_text (digits : ∀ c ∈ p, isDigit c) : (text p).head? = some '0' ↔ p.head? = some 48 := by
  cases p with
  | nil => constructor <;> intro h <;> cases h
  | cons c p =>
    have all : ∀ n < 58, 48 ≤ n → (Char.ofNat n = '0' ↔ n = 48) := by decide
    obtain ⟨low, high⟩ := isDigit_iff.mp (digits c List.mem_cons_self)
    show some (Char.ofNat c.toNat) = some '0' ↔ some c = some 48
    rw [Option.some.injEq, Option.some.injEq, all c.toNat (by omega) low]
    exact UInt8.toNat_inj (b := 48)

/-- The number that the parser of `inet_addr` takes a part for. -/
theorem numeral_iff (octet : IsOctet p) {m : Nat} : Numeral (text p) m ↔
    Octal p ∧ m = if p.head? = some 48 then octalValue p else bytesValue p := by
  have value (base : Nat) := number_text base octet.digits 0
  have some : text p ≠ [] := fun none => by
    have length := octet.some
    rw [List.map_eq_nil_iff.mp none] at length
    cases length
  have digit {c : UInt8} (mem : c ∈ p) := digitValue_digit (octet.digits c mem)
  constructor
  · rintro ⟨radix, digits, spells, -, small, rfl⟩
    cases radix with
    | decimal =>
      obtain ⟨rfl, head⟩ := spells
      rw [ne_eq, head?_text octet.digits] at head
      rw [if_neg head]
      exact ⟨fun zero => absurd zero head, value 10⟩
    | octal =>
      obtain ⟨rfl, head⟩ := spells
      rw [head?_text octet.digits] at head
      rw [if_pos head]
      refine ⟨fun _ c mem => ?_, value 8⟩
      have low := small _ (List.mem_map_of_mem mem)
      rw [digit mem] at low
      have octal : c.toNat - 48 < 8 := low
      exact UInt8.lt_iff_toNat_lt.mpr (show c.toNat < 56 by omega)
    | hex =>
      -- no digit is an `x`
      have none : ∀ n < 58, Char.ofNat n ≠ 'x' ∧ Char.ofNat n ≠ 'X' := by decide
      have plain : 'x' ∉ text p ∧ 'X' ∉ text p := by
        constructor
        all_goals
          intro mem
          obtain ⟨c, inside, same⟩ := List.mem_map.mp mem
          have range := isDigit_iff.mp (octet.digits c inside)
          have other := none c.toNat (by omega)
        · exact other.1 same
        · exact other.2 same
      rcases spells with spelt | spelt
      · exact absurd (spelt ▸ List.mem_cons_of_mem _ List.mem_cons_self) plain.1
      · exact absurd (spelt ▸ List.mem_cons_of_mem _ List.mem_cons_self) plain.2
  · rintro ⟨octal, rfl⟩
    by_cases head : p.head? = Option.some 48
    · rw [if_pos head]
      refine ⟨.octal, text p, ⟨rfl, (head?_text octet.digits).mpr head⟩, some, ?_, (value 8).symm⟩
      intro c mem
      obtain ⟨b, inside, rfl⟩ := List.mem_map.mp mem
      have low := UInt8.lt_iff_toNat_lt.mp (octal head b inside)
      have small : b.toNat < 56 := low
      rw [digit inside]
      show b.toNat - 48 < 8
      omega
    · rw [if_neg head]
      refine ⟨.decimal, text p, ⟨rfl, fun zero => head ((head?_text octet.digits).mp zero)⟩, some, ?_,
        (value 10).symm⟩
      intro c mem
      obtain ⟨b, inside, rfl⟩ := List.mem_map.mp mem
      have range := isDigit_iff.mp (octet.digits b inside)
      rw [digit inside]
      show b.toNat - 48 < 10
      omega

/-- In octal a part is the same number unless it is ambiguous. -/
theorem octalValue_eq_iff (octet : IsOctet p) (head : p.head? = some 48) :
    octalValue p = bytesValue p ↔ ¬Ambiguous p := by
  match p, octet, head with
  | [c], _, head =>
    obtain rfl := Option.some.inj head
    refine iff_of_true rfl ?_
    rintro ⟨x, y, same, -⟩
    cases same
  | [c, y], _, head =>
    obtain rfl := Option.some.inj head
    refine iff_of_true (by simp [octalValue, bytesValue]) ?_
    rintro ⟨x, y, same, -⟩
    cases same
  | [c, x, y], octet, head =>
    obtain rfl := Option.some.inj head
    have range := isDigit_iff.mp (octet.digits x (by simp))
    have sums : octalValue [48, x, y] = bytesValue [48, x, y] ↔ x.toNat = 48 := by
      simp only [octalValue, bytesValue, List.foldl_cons, List.foldl_nil]
      have zero : (48 : UInt8).toNat = 48 := rfl
      omega
    rw [sums]
    constructor
    · rintro zero ⟨x', y', same, other⟩
      obtain ⟨rfl, rfl⟩ : x = x' ∧ y = y' := by simpa using same
      exact other (UInt8.toNat_inj.mp zero)
    · intro plain
      by_contra other
      exact plain ⟨x, y, rfl, fun zero => other (by rw [zero]; rfl)⟩
  | _ :: _ :: _ :: _ :: _, octet, _ =>
    have short := octet.short
    simp only [List.length_cons] at short
    omega

/-! ## Whole addresses -/

/-- A numeral has no dot. -/
theorem no_dot_of_numeral {l : List Char} {m : Nat} (h : Numeral l m) : '.' ∉ l := by
  obtain ⟨r, digits, spells, -, small, -⟩ := h
  have plain : '.' ∉ digits := fun mem => by
    have := small _ mem
    cases r <;> exact absurd this (by decide)
  cases r with
  | hex =>
    intro mem
    rcases spells with rfl | rfl
    all_goals
      simp only [List.mem_cons] at mem
      rcases mem with h | h | h
      · cases h
      · cases h
      · exact plain h
  | decimal => exact spells.1 ▸ plain
  | octal => exact spells.1 ▸ plain

/-- What comes before the first dot. -/
theorem append_dot_inj {l l' m m' : List Char} (same : l ++ '.' :: m = l' ++ '.' :: m') (h : '.' ∉ l)
    (h' : '.' ∉ l') : l = l' ∧ m = m' := by
  induction l generalizing l' with
  | nil =>
    cases l' with
    | nil => exact ⟨rfl, (List.cons.inj same).2⟩
    | cons c l' => exact absurd ((List.cons.inj same).1 ▸ List.mem_cons_self) h'
  | cons c l ih =>
    cases l' with
    | nil => exact absurd ((List.cons.inj same).1 ▸ List.mem_cons_self) h
    | cons c' l' =>
      obtain ⟨rfl, behind⟩ := List.cons.inj same
      obtain ⟨rfl, rfl⟩ := ih behind (fun mem => h (List.mem_cons_of_mem _ mem)) fun mem =>
        h' (List.mem_cons_of_mem _ mem)
      exact ⟨rfl, rfl⟩

theorem text_dot (digits : ∀ c ∈ p, isDigit c) : '.' ∉ text p := by
  intro mem
  obtain ⟨c, inside, same⟩ := List.mem_map.mp mem
  have all : ∀ n < 58, 48 ≤ n → Char.ofNat n ≠ '.' := by decide
  obtain ⟨low, high⟩ := isDigit_iff.mp (digits c inside)
  exact all c.toNat (by omega) low same

theorem text_cons_cons (p q : List UInt8) (ps : List (List UInt8)) :
    text (dotted (p :: q :: ps)) = text p ++ '.' :: text (dotted (q :: ps)) := by
  rw [dotted_cons_cons, text, List.map_append, List.map_cons]
  rfl

/-- The parser of `inet_addr` reads a quad part by part. -/
theorem dotted_iff (octets : ∀ p ∈ ps, IsOctet p) (some : ps ≠ []) :
    Dotted (text (dotted ps)) vs ↔ List.Forall₂ (fun p m => Numeral (text p) m) ps vs := by
  induction ps generalizing vs with
  | nil => exact absurd rfl some
  | cons p ps ih =>
    have octet := octets p List.mem_cons_self
    cases ps with
    | nil =>
      rw [dotted, List.flatMap_nil, List.append_nil]
      constructor
      · intro h
        generalize same : text p = l at h
        cases h with
        | last numeral => exact .cons (same ▸ numeral) .nil
        | dot numeral rest =>
          have mem : '.' ∈ text p := by
            rw [same]
            exact List.mem_append_right _ List.mem_cons_self
          exact absurd mem (text_dot octet.digits)
      · rintro (_ | ⟨numeral, _ | _⟩)
        exact .last numeral
    | cons q ps =>
      have others := @ih vs.tail (fun p mem => octets p (List.mem_cons_of_mem _ mem)) (List.cons_ne_nil q ps)
      rw [text_cons_cons]
      constructor
      · intro h
        generalize same : text p ++ '.' :: text (dotted (q :: ps)) = l at h
        cases h with
        | last numeral =>
          have mem : '.' ∈ l := by
            rw [← same]
            exact List.mem_append_right _ List.mem_cons_self
          exact absurd mem (no_dot_of_numeral numeral)
        | dot numeral rest =>
          obtain ⟨rfl, rfl⟩ := append_dot_inj same (text_dot octet.digits) (no_dot_of_numeral numeral)
          exact .cons numeral (others.mp rest)
      · rintro (_ | ⟨numeral, rest⟩)
        exact .dot numeral (others.mpr rest)

/-- The address that four octets are. -/
theorem foldl_shift (bytes : ∀ v ∈ vs, v ≤ 255) (acc : Nat) :
    vs.foldl (fun addr v => addr <<< 8 ||| v) acc = vs.foldl (fun addr v => 256 * addr + v) acc := by
  induction vs generalizing acc with
  | nil => rfl
  | cons v vs ih =>
    have byte := bytes v List.mem_cons_self
    have join : acc <<< 8 ||| v = 256 * acc + v := by
      rw [← Nat.shiftLeft_add_eq_or_of_lt (show v < 2 ^ 8 by omega), Nat.shiftLeft_eq, Nat.mul_comm]
    rw [List.foldl_cons, List.foldl_cons, join, ih fun v mem => bytes v (List.mem_cons_of_mem _ mem)]

/-- `tn_parse_ipv4` takes all parts as decimal. -/
theorem tnParseIpv4_iff {m : Nat} : tnParseIpv4 s = some m ↔ ∃ vs, Octets 4 s vs ∧ m = leading vs := by
  rw [tnParseIpv4_eq, Option.map_eq_some_iff]
  constructor
  · rintro ⟨vs, found, rfl⟩
    have quad := octets_iff.mp found
    refine ⟨vs, quad, foldl_shift (fun v mem => ?_) 0⟩
    obtain ⟨ps, -, octets, -, rfl⟩ := quad
    obtain ⟨p, inside, rfl⟩ := List.mem_map.mp mem
    exact (octets p inside).fits
  · rintro ⟨vs, quad, rfl⟩
    refine ⟨vs, octets_iff.mpr quad, foldl_shift (fun v mem => ?_) 0⟩
    obtain ⟨ps, -, octets, -, rfl⟩ := quad
    obtain ⟨p, inside, rfl⟩ := List.mem_map.mp mem
    exact (octets p inside).fits

/-- The number that the parser of `inet_addr` takes a part for. -/
def radixValue (p : List UInt8) : Nat := if p.head? = some 48 then octalValue p else bytesValue p

/-- The octal value is no larger. -/
theorem foldl_radix_le {v v' : Nat} (h : v ≤ v') (p : List UInt8) :
    p.foldl (fun v c => v * 8 + (c.toNat - 48)) v ≤ p.foldl (fun v c => v * 10 + (c.toNat - 48)) v' := by
  induction p generalizing v v' with
  | nil => exact h
  | cons c p ih => exact ih (show v * 8 + (c.toNat - 48) ≤ v' * 10 + (c.toNat - 48) by omega)

/-- Nor is it larger than an octet. -/
theorem radixValue_le (octet : IsOctet p) : radixValue p ≤ 255 := by
  rw [radixValue]
  split
  · exact Nat.le_trans (foldl_radix_le (Nat.le_refl 0) p) octet.fits
  · exact octet.fits

/-- The two values agree unless the part is ambiguous. -/
theorem radixValue_eq_iff (octet : IsOctet p) : radixValue p = bytesValue p ↔ ¬Ambiguous p := by
  rw [radixValue]
  by_cases head : p.head? = some 48
  · rw [if_pos head]
    exact octalValue_eq_iff octet head
  · rw [if_neg head]
    refine iff_of_true rfl ?_
    rintro ⟨x, y, rfl, -⟩
    exact head rfl

/-- The parts are numerals when they are octal. -/
theorem numerals_iff (octets : ∀ p ∈ ps, IsOctet p) : List.Forall₂ (fun p m => Numeral (text p) m) ps vs ↔
    (∀ p ∈ ps, Octal p) ∧ vs = ps.map radixValue := by
  induction ps generalizing vs with
  | nil =>
    rw [List.forall₂_nil_left_iff]
    exact ⟨fun none => ⟨nofun, none⟩, fun h => h.2⟩
  | cons p ps ih =>
    have first {m : Nat} := numeral_iff (octets p List.mem_cons_self) (m := m)
    have others {vs : List Nat} := @ih vs fun p mem => octets p (List.mem_cons_of_mem _ mem)
    rw [List.forall₂_cons_left_iff, List.forall_mem_cons]
    constructor
    · rintro ⟨m, vs, numeral, rest, rfl⟩
      obtain ⟨octal, rfl⟩ := first.mp numeral
      obtain ⟨octals, rfl⟩ := others.mp rest
      exact ⟨⟨octal, octals⟩, rfl⟩
    · rintro ⟨⟨octal, octals⟩, rfl⟩
      exact ⟨_, _, first.mpr ⟨octal, rfl⟩, others.mpr ⟨octals, rfl⟩, rfl⟩

/-- Four octets for the parser of `inet_addr`. -/
theorem tnInetAddrParseEx_octets (no_nul : ∀ c ∈ dotted ps, c ≠ 0) (count : ps.length = 4)
    (octets : ∀ p ∈ ps, IsOctet p) {m : Nat} : tnInetAddrParseEx (text (dotted ps)) = some m ↔
      (∀ p ∈ ps, Octal p) ∧ m = leading (ps.map radixValue) := by
  have some : ps ≠ [] := fun none => by
    rw [none] at count
    cases count
  have whole : cString (text (dotted ps)) = text (dotted ps) := by
    refine List.takeWhile_eq_self_iff.mpr fun c mem => ?_
    obtain ⟨b, inside, rfl⟩ := List.mem_map.mp mem
    have all : ∀ n < 256, Char.ofNat n = '\x00' → n = 0 := by decide +kernel
    have other : Char.ofNat b.toNat ≠ '\x00' := fun nul =>
      no_nul b inside (UInt8.toNat_inj.mp (all b.toNat b.toNat_lt nul))
    simpa using other
  rw [Inet.tnInetAddrParseEx_iff, whole]
  have read {vs : List Nat} : Dotted (text (dotted ps)) vs ↔ (∀ p ∈ ps, Octal p) ∧ vs = ps.map radixValue :=
    (dotted_iff octets some).trans (numerals_iff octets)
  have join (bytes : List Nat) (last : Nat) : leading bytes * 256 + last = leading (bytes ++ [last]) := by
    rw [leading, leading, List.foldl_append, Nat.mul_comm]
    rfl
  constructor
  · rintro ⟨bytes, last, parts, -, -, -, rfl⟩
    obtain ⟨octal, values⟩ := read.mp parts
    have three : bytes.length = 3 := by
      have length := congrArg List.length values
      rw [List.length_append, List.length_singleton, List.length_map, count] at length
      omega
    rw [three, ← values]
    exact ⟨octal, join bytes last⟩
  · rintro ⟨octal, rfl⟩
    have small : ∀ v ∈ ps.map radixValue, v ≤ 255 := fun v mem => by
      obtain ⟨p, inside, rfl⟩ := List.mem_map.mp mem
      exact radixValue_le (octets p inside)
    have length : (ps.map radixValue).length = 4 := by rw [List.length_map, count]
    have parts := read.mpr ⟨octal, rfl⟩
    generalize ps.map radixValue = vs at small length parts
    obtain ⟨a, b, c, d, rfl⟩ := List.length_eq_four.mp length
    refine ⟨[a, b, c], d, parts, Nat.le_refl 3, fun v mem => ?_, ?_, (join [a, b, c] d).symm⟩
    · exact small v (List.mem_append_left [d] mem)
    · exact Nat.lt_succ_of_le (small d (by simp))

/-- Four octets are known from their number. -/
theorem leading_inj (hv : vs.length = 4) (hw : ws.length = 4) (small : ∀ v ∈ vs, v ≤ 255)
    (small' : ∀ v ∈ ws, v ≤ 255) (same : leading vs = leading ws) : vs = ws := by
  obtain ⟨a, b, c, d, rfl⟩ := List.length_eq_four.mp hv
  obtain ⟨a', b', c', d', rfl⟩ := List.length_eq_four.mp hw
  simp only [List.forall_mem_cons, List.not_mem_nil, false_implies, implies_true, and_true] at small small'
  simp only [leading, List.foldl_cons, List.foldl_nil] at same
  obtain ⟨rfl, rfl, rfl, rfl⟩ : a = a' ∧ b = b' ∧ c = c' ∧ d = d' := by omega
  rfl

/-! ## Reverse names -/

/-- The name in a query for the host of an address. -/
def reverseName (addr : Nat) : List UInt8 :=
  wire [dnsOctet (addr % 256), dnsOctet (addr / 2 ^ 8 % 256), dnsOctet (addr / 2 ^ 16 % 256),
    dnsOctet (addr / 2 ^ 24 % 256), ascii "in-addr", ascii "arpa"] ++ [0]

/-- The digits of a part are read. -/
theorem ptrLoop_digits {parts : List Nat} (few : parts.length < 4) (digits : ∀ c ∈ p, isDigit c) {v idx : Nat}
    (short : idx + p.length ≤ 3) (s : List UInt8) :
    Dns.ptrLoop parts v idx (p ++ s) = Dns.ptrLoop parts (digitsFrom v p) (idx + p.length) s := by
  induction p generalizing v idx with
  | nil => rfl
  | cons c p ih =>
    have range := isDigit_iff.mp (digits c List.mem_cons_self)
    rw [List.length_cons] at short
    have plain : ¬c = 46 := fun dot => by
      rw [dot] at range
      exact absurd range (by decide)
    have other : ¬(c < 48 ∨ c > 57) := by
      rintro (low | high)
      · have := UInt8.lt_iff_toNat_lt.mp low
        exact absurd range.1 (Nat.not_le.mpr this)
      · have := UInt8.lt_iff_toNat_lt.mp high
        exact absurd range.2 (Nat.not_le.mpr this)
    rw [List.cons_append, Dns.ptrLoop, if_neg (by omega), if_neg plain, if_neg other, if_neg (by omega),
      ih (fun c mem => digits c (List.mem_cons_of_mem _ mem)) (by omega), digitsFrom_cons, List.length_cons,
      Nat.add_right_comm, Nat.add_assoc]

/-- The parts are read one by one. -/
theorem ptrLoop_dotted (parts : List Nat) (count : parts.length + ps.length = 4) (some : ps ≠ [])
    (octets : ∀ p ∈ ps, IsOctet p) :
    Dns.ptrLoop parts 0 0 (dotted ps) = Option.some (parts ++ ps.map bytesValue) := by
  induction ps generalizing parts with
  | nil => exact absurd rfl some
  | cons p ps ih =>
    have octet := octets p List.mem_cons_self
    have short : 0 + p.length ≤ 3 := by
      have := octet.short
      omega
    rw [List.length_cons] at count
    cases ps with
    | nil =>
      have three : parts.length = 3 := by
        rw [List.length_nil] at count
        omega
      rw [dotted, List.flatMap_nil, ptrLoop_digits (by omega) octet.digits short, Dns.ptrLoop, if_pos three]
      rfl
    | cons q ps =>
      rw [List.length_cons] at count
      rw [dotted_cons_cons, ptrLoop_digits (by omega) octet.digits short, Dns.ptrLoop, if_neg (by omega),
        if_pos rfl, ih _ _ (List.cons_ne_nil q ps) fun p mem => octets p (List.mem_cons_of_mem _ mem),
        List.append_assoc]
      · rfl
      · rw [List.length_append, List.length_singleton, List.length_cons]
        omega

/-- A quad is turned round. -/
theorem dnsPutQname_octets (quad : Octets 4 s vs) : dnsPutQname s true = some (reverseName (leading vs)) := by
  obtain ⟨ps, count, octets, rfl, rfl⟩ := quad
  have some : ps ≠ [] := fun none => by
    rw [none] at count
    cases count
  have read := ptrLoop_dotted [] (by rw [count]; rfl) some octets
  obtain ⟨p1, p2, p3, p4, rfl⟩ := List.length_eq_four.mp count
  have h1 := (octets p1 (by simp)).fits
  have h2 := (octets p2 (by simp)).fits
  have h3 := (octets p3 (by simp)).fits
  have h4 := (octets p4 (by simp)).fits
  have labels : ∀ v < 256, 1 ≤ (dnsOctet v).length ∧ (dnsOctet v).length ≤ 63 ∧ 46 ∉ dnsOctet v := by
    decide +kernel
  have query : Dns.queryText (dotted [p1, p2, p3, p4]) true =
      Option.some (Dns.arpaName (bytesValue p1) (bytesValue p2) (bytesValue p3) (bytesValue p4)) := by
    rw [Dns.queryText, if_pos rfl, read]
    simp [Dns.arpaName, dotted, ascii]
    rfl
  have each : ∀ l ∈ [dnsOctet (bytesValue p4), dnsOctet (bytesValue p3), dnsOctet (bytesValue p2),
      dnsOctet (bytesValue p1), ascii "in-addr", ascii "arpa"], 1 ≤ l.length ∧ l.length ≤ 63 ∧ 46 ∉ l := by
    simp only [List.forall_mem_cons]
    exact ⟨labels _ (by omega), labels _ (by omega), labels _ (by omega), labels _ (by omega), by decide,
      by decide, fun _ mem => absurd mem List.not_mem_nil⟩
  rw [dnsPutQname, query]
  show (Dns.qnameLoop _).map (· ++ [0]) = _
  rw [Dns.arpaName, Dns.qnameLoop_dotted each]
  have value : leading [bytesValue p1, bytesValue p2, bytesValue p3, bytesValue p4] =
      256 * (256 * (256 * bytesValue p1 + bytesValue p2) + bytesValue p3) + bytesValue p4 := by
    simp [leading]
  show _ = Option.some (reverseName (leading [bytesValue p1, bytesValue p2, bytesValue p3, bytesValue p4]))
  rw [value, reverseName]
  generalize bytesValue p1 = a at h1 ⊢
  generalize bytesValue p2 = b at h2 ⊢
  generalize bytesValue p3 = c at h3 ⊢
  generalize bytesValue p4 = d at h4 ⊢
  have d4 : (256 * (256 * (256 * a + b) + c) + d) % 256 = d := by omega
  have d3 : (256 * (256 * (256 * a + b) + c) + d) / 2 ^ 8 % 256 = c := by omega
  have d2 : (256 * (256 * (256 * a + b) + c) + d) / 2 ^ 16 % 256 = b := by omega
  have d1 : (256 * (256 * (256 * a + b) + c) + d) / 2 ^ 24 % 256 = a := by omega
  rw [d4, d3, d2, d1]
  rfl

/-! ## The result -/

/-- A C string: no byte of it is 0. -/
structure CText where
  chars : List UInt8
  no_nul : ∀ c ∈ chars, c ≠ 0

/-- The readers agree on a text. The scanner with a string for its result has a buffer of `n` bytes. -/
structure ReadersAgree (t : CText) (n : Nat) : Prop where
  parsers : ∀ a b, tnInetAddrParseEx (text t.chars) = some a → tnParseIpv4 t.chars = some b → a = b
  lookup : ∀ a, tnInetAddrParseEx (text t.chars) = some a ∨ tnParseIpv4 t.chars = some a →
    dnsIsIpv4 t.chars → dnsPutQname t.chars true = some (reverseName a)
  scanners : scanIpv4 t.chars = (tnParseFirstIpv4 t.chars n).bind octets

/-- No part of a quad that can be read in octal as well is ambiguous. -/
def Unambiguous (s : List UInt8) : Prop :=
  ∀ ps : List (List UInt8), ps.length = 4 → s = dotted ps → (∀ p ∈ ps, IsOctet p ∧ Octal p) → ∀ p ∈ ps, ¬Ambiguous p

/-- The two parsers agree. -/
theorem parsers_iff (t : CText) :
    (∀ a b, tnInetAddrParseEx (text t.chars) = some a → tnParseIpv4 t.chars = some b → a = b) ↔
      Unambiguous t.chars := by
  constructor
  · intro agree ps count same read p mem
    have octets : ∀ p ∈ ps, IsOctet p := fun p mem => (read p mem).1
    have no_nul := t.no_nul
    rw [same] at no_nul
    have first := (tnInetAddrParseEx_octets no_nul count octets).mpr ⟨fun p mem => (read p mem).2, rfl⟩
    have second := tnParseIpv4_iff.mpr ⟨_, ⟨ps, count, octets, same, rfl⟩, rfl⟩
    rw [← same] at first
    have values : ps.map radixValue = ps.map bytesValue := by
      refine leading_inj ?_ ?_ ?_ ?_ (agree _ _ first second)
      · rw [List.length_map, count]
      · rw [List.length_map, count]
      · rintro v mem
        obtain ⟨p, inside, rfl⟩ := List.mem_map.mp mem
        exact radixValue_le (octets p inside)
      · rintro v mem
        obtain ⟨p, inside, rfl⟩ := List.mem_map.mp mem
        exact (octets p inside).fits
    exact (radixValue_eq_iff (octets p mem)).mp (List.map_inj_left.mp values p mem)
  · intro plain a b first second
    obtain ⟨vs, ⟨ps, count, octets, same, rfl⟩, rfl⟩ := tnParseIpv4_iff.mp second
    have no_nul := t.no_nul
    rw [same] at no_nul first
    obtain ⟨octal, rfl⟩ := (tnInetAddrParseEx_octets no_nul count octets).mp first
    have each := plain ps count same fun p mem => ⟨octets p mem, octal p mem⟩
    exact congrArg leading (List.map_congr_left fun p mem => (radixValue_eq_iff (octets p mem)).mpr (each p mem))

/-- The readers agree on exactly the texts without an ambiguous part, in which each run that only one of the
scanners takes stands behind one that both take or has the address that the other scanner finds later. -/
theorem readersAgree_iff {n : Nat} (room : 16 ≤ n) (t : CText) :
    ReadersAgree t n ↔ Unambiguous t.chars ∧ Settled wholeQuad endQuad (runs t.chars) := by
  rw [← parsers_iff, ← scanners_iff room]
  constructor
  · intro agree
    exact ⟨agree.parsers, agree.scanners⟩
  -- the address that is accepted is the one the decimal reader finds
  · rintro ⟨parsers, scanners⟩
    refine ⟨parsers, fun a accepted isQuad => ?_, scanners⟩
    rw [dnsIsIpv4_eq] at isQuad
    obtain ⟨vs, found⟩ := Option.isSome_iff_exists.mp isQuad
    have quad := octets_iff.mp found
    have decimal : tnParseIpv4 t.chars = some (leading vs) := tnParseIpv4_iff.mpr ⟨vs, quad, rfl⟩
    have same : a = leading vs := by
      rcases accepted with octal | accepted
      · exact parsers a _ octal decimal
      · rw [decimal] at accepted
        exact (Option.some.inj accepted).symm
    rw [same]
    exact dnsPutQname_octets quad

/-- `10.0.2.15`. -/
theorem readersAgree_plain :
    let t : CText := ⟨[49, 48, 46, 48, 46, 50, 46, 49, 53], by simp⟩
    ReadersAgree t 32 ↔ Unambiguous t.chars ∧ Settled wholeQuad endQuad (runs t.chars) :=
  readersAgree_iff (by decide) _

/-- The scanners do not agree on `1234.5.6.7`. -/
theorem not_forall_readersAgree : ¬∀ t, ReadersAgree t 32 := by
  intro agree
  have scanners := (agree ⟨[49, 50, 51, 52, 46, 53, 46, 54, 46, 55], by simp⟩).scanners
  have first : tnParseFirstIpv4 [49, 50, 51, 52, 46, 53, 46, 54, 46, 55] 32 = none := by
    have none : isIpv4Span 0 0 0 (spanOf [49, 50, 51, 52, 46, 53, 46, 54, 46, 55]) = false := by decide
    rw [tnParseFirstIpv4, if_neg (by decide), firstQuadInRange, if_neg (by decide)]
    show (if isIpv4Span 0 0 0 _ then _ else firstQuadInRange 32 []) = _
    rw [none, firstQuadInRange]
    rfl
  have second : scanIpv4 [49, 50, 51, 52, 46, 53, 46, 54, 46, 55] = some [234, 5, 6, 7] := by decide
  rw [second, first] at scanners
  cases scanners

end Quads

end Tolunnet
