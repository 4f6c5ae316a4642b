import Tolunnet.Cmds.DnsNames
import Tolunnet.Common.Quads

/-!
# `Tolunnet.Inet.QuadText`: what the readers of quads read

A quad is four octets with dots between them, each of one to three digits and at most 255. `quadOctets` is
what all readers have in common (`quadOctets_iff`). The state machine `is_ipv4_span` accepts the same
texts.

A run is as many digits and dots as there are in a row. `tn_parse_first_ipv4` takes the first run that is a
quad up to dots around it. `scan_ipv4` takes the first run that ends in a quad, and of such a run the
longest quad at its end.
-/

set_option autoImplicit false

namespace Tolunnet

namespace Quads

open Http (isDigit)
open Numbers (bytesValue)
open Dns (dotted digitsFrom)

/-! ## Parts -/

/-- The digits of one octet. -/
structure IsOctet (p : List UInt8) : Prop where
  digits : ∀ c ∈ p, isDigit c
  some : 1 ≤ p.length
  short : p.length ≤ 3
  fits : bytesValue p ≤ 255

variable {n v k left : Nat} {c : UInt8} {s p q r rest a : List UInt8} {ps : List (List UInt8)} {vs : List Nat}

theorem digitsFrom_cons (v : Nat) (c : UInt8) (p : List UInt8) :
    digitsFrom v (c :: p) = digitsFrom (v * 10 + (c.toNat - 48)) p := by
  rw [digitsFrom, List.foldl_cons, digitsFrom]

theorem le_digitsFrom (v : Nat) (p : List UInt8) : v ≤ digitsFrom v p := by
  induction p generalizing v with
  | nil => exact Nat.le_refl v
  | cons c p ih =>
    have grows : v ≤ v * 10 + (c.toNat - 48) := by omega
    exact Nat.le_trans grows (ih (v * 10 + (c.toNat - 48)))

/-- One part is read to its end, unless it is too long or too large. -/
theorem quadPart_eq (hv : v ≤ 255) (hk : k ≤ 3) (s : List UInt8) :
    quadPart v k s =
      if digitsFrom v (s.takeWhile isDigit) ≤ 255 ∧ k + (s.takeWhile isDigit).length ≤ 3 then
        some (digitsFrom v (s.takeWhile isDigit), k + (s.takeWhile isDigit).length, s.dropWhile isDigit)
      else none := by
  induction s generalizing v k with
  | nil => exact (if_pos ⟨hv, hk⟩).symm
  | cons c s ih =>
    rw [quadPart]
    by_cases digit : isDigit c = true
    · rw [if_pos digit, List.takeWhile_cons_of_pos digit, List.dropWhile_cons_of_pos digit, List.length_cons,
        digitsFrom_cons]
      have later := le_digitsFrom (v * 10 + (c.toNat - 48)) (s.takeWhile isDigit)
      show (if v * 10 + (c.toNat - 48) > 255 then none
        else if k + 1 > 3 then none else quadPart (v * 10 + (c.toNat - 48)) (k + 1) s) = _
      by_cases large : v * 10 + (c.toNat - 48) > 255
      · rw [if_pos large, if_neg (by omega)]
      · rw [if_neg large]
        by_cases long : k + 1 > 3
        · rw [if_pos long, if_neg (by omega)]
        · rw [if_neg long, ih (by omega) (by omega), Nat.add_assoc k 1, Nat.add_comm 1]
    · rw [if_neg digit, List.takeWhile_cons_of_neg digit, List.dropWhile_cons_of_neg digit]
      exact (if_pos ⟨hv, hk⟩).symm

/-- The digits of an octet end where it ends. -/
theorem takeWhile_octet (octet : IsOctet p) (stop : rest.head?.any isDigit = false) :
    (p ++ rest).takeWhile isDigit = p ∧ (p ++ rest).dropWhile isDigit = rest := by
  rw [List.takeWhile_append_of_pos octet.digits, List.dropWhile_append_of_pos octet.digits]
  cases rest with
  | nil => exact ⟨List.append_nil p, rfl⟩
  | cons c rest =>
    have none : ¬isDigit c = true := Bool.eq_false_iff.mp stop
    rw [List.takeWhile_cons_of_neg none, List.dropWhile_cons_of_neg none]
    exact ⟨List.append_nil p, rfl⟩

/-- An octet is read as its value. -/
theorem quadPart_octet (octet : IsOctet p) (stop : rest.head?.any isDigit = false) :
    quadPart 0 0 (p ++ rest) = some (bytesValue p, p.length, rest) := by
  obtain ⟨taken, dropped⟩ := takeWhile_octet octet stop
  rw [quadPart_eq (by decide) (by decide), taken, dropped, Nat.zero_add]
  exact if_pos ⟨octet.fits, octet.short⟩

/-- What is read as a part is an octet, once it has a digit. -/
theorem octet_of_quadPart (read : quadPart 0 0 s = some (v, k, rest)) (some : k ≠ 0) :
    ∃ p, IsOctet p ∧ s = p ++ rest ∧ v = bytesValue p ∧ rest.head?.any isDigit = false := by
  rw [quadPart_eq (by decide) (by decide), Nat.zero_add] at read
  split at read
  · next fits =>
    obtain ⟨rfl, rfl, rfl⟩ : _ ∧ _ ∧ _ := by simpa using read
    refine ⟨s.takeWhile isDigit, ⟨fun c mem => List.mem_takeWhile_imp mem, by omega, fits.2, fits.1⟩,
      List.takeWhile_append_dropWhile.symm, rfl, ?_⟩
    cases stop : s.dropWhile isDigit with
    | nil => rfl
    | cons c rest =>
      have none := List.head_dropWhile_not isDigit (by rw [stop]; exact List.cons_ne_nil c rest)
      simpa [stop] using none
  · cases read

/-! ## Quads -/

/-- `n` octets with dots between them, and their values. -/
def Octets (n : Nat) (s : List UInt8) (vs : List Nat) : Prop :=
  ∃ ps : List (List UInt8), ps.length = n ∧ (∀ p ∈ ps, IsOctet p) ∧ s = dotted ps ∧ vs = ps.map bytesValue

theorem dotted_cons_cons (p q : List UInt8) (ps : List (List UInt8)) :
    dotted (p :: q :: ps) = p ++ 46 :: dotted (q :: ps) := by
  rw [dotted, List.flatMap_cons]
  rfl

/-- The loop reads what is made of octets. -/
theorem quadOctets_iff (left : Nat) : quadOctets (left + 1) s = some (vs, rest) ↔
    ∃ q, Octets (left + 1) q vs ∧ s = q ++ rest ∧ rest.head?.any isDigit = false := by
  -- The induction is on the octets that are left behind the first.
  induction left generalizing s vs with
  | zero =>
    constructor
    · intro read
      rw [quadOctets] at read
      split at read
      · cases read
      · next v k rest part =>
        split at read
        · cases read
        · next some =>
          obtain ⟨rfl, rfl⟩ : _ ∧ _ := by simpa using read
          obtain ⟨p, octet, rfl, rfl, stop⟩ := octet_of_quadPart part some
          have one : ∀ p' ∈ [p], IsOctet p' := fun p' mem => List.mem_singleton.mp mem ▸ octet
          exact ⟨p, ⟨[p], rfl, one, (List.append_nil p).symm, rfl⟩, rfl, stop⟩
    · rintro ⟨_, ⟨ps, one, octets, rfl, rfl⟩, rfl, stop⟩
      obtain ⟨p, rfl⟩ := List.length_eq_one_iff.mp one
      have octet := octets p List.mem_cons_self
      rw [quadOctets, dotted, List.flatMap_nil, List.append_nil, quadPart_octet octet stop]
      show (if p.length = 0 then none else some ([bytesValue p], rest)) = _
      rw [if_neg (Nat.ne_of_gt octet.some)]
      rfl
  | succ left ih =>
    constructor
    · intro read
      rw [quadOctets] at read
      split at read
      · cases read
      · next v k behind part =>
        split at read
        · cases read
        · next some =>
          rw [if_neg (Nat.succ_ne_zero left)] at read
          obtain ⟨p, octet, rfl, rfl, -⟩ := octet_of_quadPart part some
          split at read
          · cases read
          · next c s =>
            split at read
            case isFalse => cases read
            case isTrue dot =>
            subst dot
            obtain ⟨⟨vs, rest⟩, others, same⟩ := Option.map_eq_some_iff.mp read
            obtain ⟨rfl, rfl⟩ : _ ∧ _ := by simpa using same
            obtain ⟨_, ⟨ps, count, octets, rfl, rfl⟩, rfl, stop⟩ := ih.mp others
            obtain ⟨q, ps, rfl⟩ := List.exists_cons_of_length_eq_add_one count
            refine ⟨dotted (p :: q :: ps), ⟨p :: q :: ps, congrArg (· + 1) count, ?_, rfl, rfl⟩, ?_, stop⟩
            · intro p' mem
              rcases List.mem_cons.mp mem with rfl | mem
              · exact octet
              · exact octets p' mem
            · rw [dotted_cons_cons, List.append_assoc]
              rfl
    · rintro ⟨_, ⟨ps, count, octets, rfl, rfl⟩, rfl, stop⟩
      obtain ⟨p, ps, rfl⟩ := List.exists_cons_of_length_eq_add_one count
      obtain ⟨q, ps, rfl⟩ := List.exists_cons_of_length_eq_add_one (Nat.succ.inj count)
      have octet := octets p List.mem_cons_self
      have others := ih.mpr ⟨_, ⟨q :: ps, Nat.succ.inj count, fun p mem => octets p (List.mem_cons_of_mem _ mem),
        rfl, rfl⟩, rfl, stop⟩
      rw [quadOctets, dotted_cons_cons, List.append_assoc, quadPart_octet octet rfl]
      show (if p.length = 0 then none else if left + 1 = 0 then _ else
        (quadOctets (left + 1) (dotted (q :: ps) ++ rest)).map fun r => (bytesValue p :: r.1, r.2)) = _
      rw [if_neg (Nat.ne_of_gt octet.some), if_neg (Nat.succ_ne_zero left), others]
      rfl

/-- The octets of a whole text. -/
def octets (s : List UInt8) : Option (List Nat) :=
  match quadOctets 4 s with
  | some (vs, []) => some vs
  | _ => none

/-- A quad is read as its octets. -/
theorem octets_iff : octets s = some vs ↔ Octets 4 s vs := by
  constructor
  · intro read
    rw [octets] at read
    split at read
    · next vs parts =>
      obtain ⟨q, quad, rfl, -⟩ := (quadOctets_iff 3).mp parts
      rw [List.append_nil, ← Option.some.inj read]
      exact quad
    · cases read
  · intro quad
    have parts := (quadOctets_iff 3).mpr ⟨s, quad, (List.append_nil s).symm, rfl⟩
    rw [octets, parts]

/-- The parser of addresses. -/
theorem tnParseIpv4_eq (s : List UInt8) :
    tnParseIpv4 s = (octets s).map (·.foldl (fun addr v => addr <<< 8 ||| v) 0) := by
  rw [tnParseIpv4, octets]
  rcases quadOctets 4 s with _ | ⟨vs, _ | ⟨c, rest⟩⟩ <;> rfl

/-- The test of the resolver. -/
theorem dnsIsIpv4_eq (s : List UInt8) : dnsIsIpv4 s = (octets s).isSome := by
  rw [dnsIsIpv4, octets]
  rcases quadOctets 4 s with _ | ⟨vs, _ | ⟨c, rest⟩⟩ <;> rfl

/-! ## The state machine -/

/-- A part within `is_ipv4_span`. -/
theorem isIpv4Span_digits (hv : v ≤ 255) (hk : k ≤ 3) (o : Nat) (s : List UInt8) :
    isIpv4Span o k v s =
      match quadPart v k s with
      | some (v, k, rest) => isIpv4Span o k v rest
      | none => false := by
  induction s generalizing v k with
  | nil => rfl
  | cons c s ih =>
    rw [quadPart]
    by_cases digit : isDigit c = true
    · rw [isIpv4Span, if_pos digit, if_pos digit]
      by_cases large : v * 10 + (c.toNat - 48) > 255
      · rw [if_pos (Or.inr large)]
        dsimp only
        rw [if_pos large]
      · dsimp only
        rw [if_neg large]
        by_cases long : k + 1 > 3
        · rw [if_pos (Or.inl long), if_pos long]
        · rw [if_neg (not_or.mpr ⟨long, large⟩), if_neg long]
          exact ih (by omega) (by omega)
    · rw [if_neg digit]

/-- What is left behind a part does not begin with a digit. -/
theorem quadPart_stop {v' k' : Nat} (hv : v ≤ 255) (hk : k ≤ 3) (part : quadPart v k s = some (v', k', rest)) :
    rest.head?.any isDigit = false := by
  rw [quadPart_eq hv hk] at part
  split at part
  · obtain ⟨-, -, rfl⟩ : _ ∧ _ ∧ _ := by simpa using part
    cases stop : s.dropWhile isDigit with
    | nil => rfl
    | cons c rest =>
      have none := List.head_dropWhile_not isDigit (by rw [stop]; exact List.cons_ne_nil c rest)
      simpa [stop] using none
  · cases part

/-- The state machine behind a part. -/
def behindPart (o k : Nat) : List UInt8 → Bool
  | [] => decide (k > 0 ∧ o = 3)
  | c :: rest =>
    if c = 46 then if k = 0 then false else if o + 1 > 3 then false else isIpv4Span (o + 1) 0 0 rest else false

/-- What is not a digit ends the scan. -/
theorem isIpv4Span_stop (stop : rest.head?.any isDigit = false) (o k v : Nat) :
    isIpv4Span o k v rest = behindPart o k rest := by
  cases rest with
  | nil => rfl
  | cons c rest =>
    have none : ¬isDigit c = true := Bool.eq_false_iff.mp stop
    rw [isIpv4Span, if_neg none]
    rfl

/-- The state machine accepts what the loop over the parts accepts. -/
theorem isIpv4Span_eq (left : Nat) (h : left ≤ 3) (s : List UInt8) :
    isIpv4Span (3 - left) 0 0 s =
      match quadOctets (left + 1) s with
      | some (_, []) => true
      | _ => false := by
  induction left generalizing s with
  | zero =>
    rw [isIpv4Span_digits (by decide) (by decide), quadOctets]
    cases part : quadPart 0 0 s with
    | none => rfl
    | some r =>
      obtain ⟨v, k, rest⟩ := r
      have stop := quadPart_stop (by decide) (by decide) part
      show isIpv4Span 3 k v rest = match (if k = 0 then none else some ([v], rest)) with
        | some (_, []) => true
        | _ => false
      rw [isIpv4Span_stop stop]
      cases rest with
      | nil =>
        by_cases none : k = 0
        · rw [if_pos none, none]
          rfl
        · rw [if_neg none]
          exact decide_eq_true ⟨Nat.pos_of_ne_zero none, rfl⟩
      | cons c rest =>
        -- three dots have been read, so one more is not accepted
        by_cases none : k = 0
        · rw [if_pos none, none]
          exact ite_self false
        · rw [if_neg none, behindPart, if_neg none]
          exact ite_self false
  | succ left ih =>
    rw [isIpv4Span_digits (by decide) (by decide), quadOctets]
    cases part : quadPart 0 0 s with
    | none => rfl
    | some r =>
      obtain ⟨v, k, rest⟩ := r
      have stop := quadPart_stop (by decide) (by decide) part
      have next : 3 - (left + 1) + 1 = 3 - left := by omega
      have room : ¬3 - (left + 1) + 1 > 3 := by omega
      have more : ¬(k > 0 ∧ 3 - (left + 1) = 3) := by omega
      dsimp only
      rw [isIpv4Span_stop stop]
      by_cases none : k = 0
      · rw [if_pos none, none]
        cases rest with
        | nil => rfl
        | cons c rest => exact ite_self false
      · rw [if_neg none, if_neg (Nat.succ_ne_zero left)]
        cases rest with
        | nil => exact decide_eq_false more
        | cons c rest =>
          rw [behindPart, if_neg none, if_neg room, next, ih (by omega)]
          dsimp only
          by_cases dot : c = 46
          · rw [if_pos dot, if_pos dot]
            rcases quadOctets (left + 1) rest with _ | ⟨vs, _ | ⟨c, rest⟩⟩ <;> rfl
          · rw [if_neg dot, if_neg dot]

/-- `is_ipv4_span` accepts the quads. -/
theorem isIpv4Span_octets (s : List UInt8) : isIpv4Span 0 0 0 s = (octets s).isSome := by
  rw [← dnsIsIpv4_eq]
  exact isIpv4Span_eq 3 (Nat.le_refl 3) s

/-! ## Runs -/

/-- The runs of digits and dots of a text. -/
def runs (t : List UInt8) : List (List UInt8) := t.splitOnP fun c => !inRun c

/-- A run without the dots at its ends. -/
def trim (r : List UInt8) : List UInt8 := (r.dropWhile (· == 46)).rdropWhile (· == 46)

/-- The quad that a run is, up to dots around it. -/
def wholeQuad (r : List UInt8) : Option (List Nat) := octets (trim r)

/-- The longest quad that a run ends in. -/
def endQuad (r : List UInt8) : Option (List Nat) := r.tails.findSome? octets

theorem not_inRun_iff : (!inRun c) = false ↔ inRun c = true := by
  rw [Bool.not_eq_false']

theorem runs_of_inRun (all : ∀ c ∈ a, inRun c) : runs a = [a] :=
  List.splitOnP_eq_singleton fun c mem => not_inRun_iff.mpr (all c mem)

/-- A run ends where it is stopped. -/
theorem runs_append (all : ∀ c ∈ a, inRun c) (stop : inRun c = false) (s : List UInt8) :
    runs (a ++ c :: s) = a :: runs s :=
  List.splitOnP_append_cons_of_forall_mem (fun c mem => not_inRun_iff.mpr (all c mem)) c (by rw [stop]; rfl) s

/-- The first run of a text, and what the other runs are of. -/
theorem exists_run (t : List UInt8) : ∃ a rest, t = a ++ rest ∧ (∀ c ∈ a, inRun c) ∧
    rest.head?.any inRun = false := by
  refine ⟨t.takeWhile inRun, t.dropWhile inRun, List.takeWhile_append_dropWhile.symm,
    fun c mem => List.mem_takeWhile_imp mem, ?_⟩
  cases stop : t.dropWhile inRun with
  | nil => rfl
  | cons c rest =>
    have none := List.head_dropWhile_not inRun (by rw [stop]; exact List.cons_ne_nil c rest)
    simpa [stop] using none

/-- What a search of the runs behind the first one finds. -/
def behindRun (f : List UInt8 → Option (List Nat)) (rest : List UInt8) : Option (List Nat) :=
  match rest with
  | [] => none
  | _ :: s => (runs s).findSome? f

/-- The first run that is a quad. -/
theorem findSome?_runs (f : List UInt8 → Option (List Nat)) (all : ∀ c ∈ a, inRun c)
    (stop : rest.head?.any inRun = false) :
    (runs (a ++ rest)).findSome? f = (f a).or (behindRun f rest) := by
  cases rest with
  | nil =>
    rw [List.append_nil, runs_of_inRun all, List.findSome?_singleton]
    exact (Option.or_none).symm
  | cons c s =>
    rw [runs_append all stop, List.findSome?_cons]
    cases f a <;> rfl

theorem inRun_of_isDigit (h : isDigit c = true) : inRun c = true := by
  rw [inRun, h]
  rfl

/-- A quad is a run. -/
theorem inRun_of_octets (quad : Octets n q vs) : ∀ c ∈ q, inRun c := by
  obtain ⟨ps, -, octets, rfl, -⟩ := quad
  intro c mem
  cases ps with
  | nil => cases mem
  | cons p ps =>
    rcases List.mem_append.mp mem with first | others
    · exact inRun_of_isDigit ((octets p List.mem_cons_self).digits c first)
    · obtain ⟨p', mem', inside⟩ := List.mem_flatMap.mp others
      rcases List.mem_cons.mp inside with rfl | inside
      · rfl
      · exact inRun_of_isDigit ((octets p' (List.mem_cons_of_mem _ mem')).digits c inside)

/-! ## The scanner of the address check -/

/-- One attempt of `scan_ipv4`. It looks at the rest of the run only. -/
theorem quadOctets_run (all : ∀ c ∈ a, inRun c) (stop : rest.head?.any inRun = false) :
    octets a = some vs ↔ ∃ q, quadOctets 4 (a ++ rest) = some (vs, q) ∧ q.head?.any inRun = false := by
  have digit {q : List UInt8} (h : q.head?.any inRun = false) : q.head?.any isDigit = false := by
    cases q with
    | nil => rfl
    | cons c q =>
      rw [List.head?_cons, Option.any_some] at h ⊢
      rw [inRun, Bool.or_eq_false_iff] at h
      exact h.1
  rw [octets_iff]
  constructor
  · intro quad
    exact ⟨rest, (quadOctets_iff 3).mpr ⟨a, quad, rfl, digit stop⟩, stop⟩
  · rintro ⟨q, read, ends⟩
    obtain ⟨a', quad, whole, -⟩ := (quadOctets_iff 3).mp read
    -- both are the longest run at the start of the same text
    have run {a rest : List UInt8} (all : ∀ c ∈ a, inRun c) (stop : rest.head?.any inRun = false) :
        (a ++ rest).takeWhile inRun = a := by
      rw [List.takeWhile_append_of_pos all]
      cases rest with
      | nil => exact List.append_nil a
      | cons c rest =>
        have none : ¬inRun c = true := Bool.eq_false_iff.mp stop
        rw [List.takeWhile_cons_of_neg none]
        exact List.append_nil a
    have same := congrArg (List.takeWhile inRun) whole
    rw [run all stop, run (inRun_of_octets quad) ends] at same
    rw [same]
    exact quad

theorem octets_dot (s : List UInt8) : octets (46 :: s) = none := rfl

/-- `scan_ipv4` finds the first run that ends in a quad. -/
theorem scanIpv4_eq (t : List UInt8) : scanIpv4 t = (runs t).findSome? endQuad := by
  induction t with
  | nil => rfl
  | cons c s ih =>
    obtain ⟨a, rest, rfl, all, stop⟩ := exists_run s
    rw [findSome?_runs endQuad all stop] at ih
    by_cases run : inRun c = true
    · have all' : ∀ c' ∈ c :: a, inRun c' := fun c' mem => by
        rcases List.mem_cons.mp mem with rfl | mem
        · exact run
        · exact all c' mem
      have ends : endQuad (c :: a) = (octets (c :: a)).or (endQuad a) := by
        rw [endQuad, List.tails, List.findSome?_cons]
        cases octets (c :: a) <;> rfl
      show scanIpv4 (c :: (a ++ rest)) = (runs ((c :: a) ++ rest)).findSome? endQuad
      rw [findSome?_runs endQuad all' stop, ends, Option.or_assoc, ← ih, scanIpv4]
      by_cases digit : isDigit c = true
      · rw [if_pos digit]
        cases here : octets (c :: a) with
        | some vs =>
          obtain ⟨q, read, ends⟩ := (quadOctets_run all' stop).mp here
          have last : q.head?.any (fun c => isDigit c || c == 46) = false := ends
          have read : quadOctets 4 (c :: (a ++ rest)) = some (vs, q) := read
          rw [read]
          show (if q.head?.any (fun c => isDigit c || c == 46) then _ else some vs) = _
          rw [last]
          rfl
        | none =>
          cases read : quadOctets 4 (c :: (a ++ rest)) with
          | none => rfl
          | some r =>
            obtain ⟨vs, q⟩ := r
            have more : q.head?.any (fun c => isDigit c || c == 46) = true := by
              by_contra ends
              have found := (quadOctets_run all' stop).mpr ⟨q, read, Bool.eq_false_iff.mpr ends⟩
              rw [here] at found
              cases found
            show (if q.head?.any (fun c => isDigit c || c == 46) then _ else some vs) = _
            rw [more]
            rfl
      · have dot : c = 46 := by
          rw [inRun, Bool.or_eq_true] at run
          exact beq_iff_eq.mp (run.resolve_left digit)
        rw [if_neg digit, dot, octets_dot]
        rfl
    · have out : inRun c = false := Bool.eq_false_iff.mpr run
      have digit : ¬isDigit c = true := fun h => run (inRun_of_isDigit h)
      have empty : ∀ c ∈ ([] : List UInt8), inRun c := nofun
      have first : runs (c :: (a ++ rest)) = [] :: runs (a ++ rest) := runs_append empty out (a ++ rest)
      rw [scanIpv4, if_neg digit, ih, first, List.findSome?_cons, findSome?_runs endQuad all stop]
      rfl

/-! ## The scanner of the other values -/

/-- A quad has 15 characters at most. -/
theorem length_le_of_octets (quad : Octets 4 q vs) : q.length ≤ 15 := by
  obtain ⟨ps, count, octets, rfl, -⟩ := quad
  obtain ⟨p1, p2, p3, p4, rfl⟩ := List.length_eq_four.mp count
  have h1 := (octets p1 (by simp)).short
  have h2 := (octets p2 (by simp)).short
  have h3 := (octets p3 (by simp)).short
  have h4 := (octets p4 (by simp)).short
  simp only [dotted, List.flatMap_cons, List.flatMap_nil, List.length_append, List.length_cons, List.length_nil]
  omega

theorem wholeQuad_dots (dots : ∀ c ∈ a, c = 46) : wholeQuad a = none := by
  have none : a.dropWhile (· == 46) = [] := by
    rw [List.dropWhile_eq_nil_iff]
    exact fun c mem => beq_iff_eq.mpr (dots c mem)
  rw [wholeQuad, trim, none]
  rfl

/-- The dots that `first_quad_in_range` cuts off. -/
theorem span_append_dots (a : List UInt8) : ∃ dots : List UInt8,
    a = a.rdropWhile (· == 46) ++ dots ∧ ∀ c ∈ dots, c = 46 :=
  ⟨a.rtakeWhile (· == 46), List.rdropWhile_append_rtakeWhile.symm, fun _ mem =>
    beq_iff_eq.mp (List.mem_rtakeWhile_imp (p := (· == 46)) mem)⟩

/-- The run that begins with a digit. -/
theorem run_of_digit (digit : isDigit c = true) (s : List UInt8) : ∃ a rest, s = a ++ rest ∧
    (∀ c' ∈ c :: a, inRun c') ∧ rest.head?.any inRun = false ∧
    spanOf (c :: s) = (c :: a).rdropWhile (· == 46) ∧ wholeQuad (c :: a) = octets (spanOf (c :: s)) := by
  obtain ⟨a, rest, rfl, all, stop⟩ := exists_run s
  have all' : ∀ c' ∈ c :: a, inRun c' := fun c' mem => by
    rcases List.mem_cons.mp mem with rfl | mem
    · exact inRun_of_isDigit digit
    · exact all c' mem
  have taken : (c :: (a ++ rest)).takeWhile inRun = c :: a := by
    rw [← List.cons_append, List.takeWhile_append_of_pos all']
    cases rest with
    | nil => exact List.append_nil _
    | cons x rest =>
      have none : ¬inRun x = true := Bool.eq_false_iff.mp stop
      rw [List.takeWhile_cons_of_neg none]
      exact List.append_nil _
  have front : (c :: a).dropWhile (· == 46) = c :: a := by
    refine List.dropWhile_cons_of_neg fun dot => ?_
    rw [beq_iff_eq.mp dot] at digit
    cases digit
  refine ⟨a, rest, rfl, all', stop, ?_, ?_⟩
  · rw [spanOf, taken]
  · rw [wholeQuad, trim, front, spanOf, taken]

/-- `tn_parse_first_ipv4` finds the first run that is a quad up to dots around it. -/
theorem firstQuadInRange_eq (room : 16 ≤ n) (t : List UInt8) :
    (firstQuadInRange n t).bind octets = (runs t).findSome? wholeQuad := by
  induction t using firstQuadInRange.induct with
  | case1 =>
    rw [firstQuadInRange]
    rfl
  | case2 c s other ih =>
    rw [firstQuadInRange, if_pos other, ih]
    obtain ⟨a, rest, rfl, all, stop⟩ := exists_run s
    by_cases run : inRun c = true
    · -- a dot in front of a run
      have dot : c = 46 := by
        rw [inRun, Bool.or_eq_true] at run
        refine beq_iff_eq.mp (run.resolve_left ?_)
        rw [Bool.not_eq_true'] at other
        rw [other]
        exact Bool.false_ne_true
      have all' : ∀ c' ∈ c :: a, inRun c' := fun c' mem => by
        rcases List.mem_cons.mp mem with rfl | mem
        · exact run
        · exact all c' mem
      show _ = (runs ((c :: a) ++ rest)).findSome? wholeQuad
      rw [findSome?_runs wholeQuad all' stop, findSome?_runs wholeQuad all stop, dot]
      rfl
    · have out : inRun c = false := Bool.eq_false_iff.mpr run
      have empty : ∀ c ∈ ([] : List UInt8), inRun c := nofun
      have first : runs (c :: (a ++ rest)) = [] :: runs (a ++ rest) := runs_append empty out (a ++ rest)
      rw [first, List.findSome?_cons]
      rfl
  | case3 c s other span quad =>
    obtain ⟨a, rest, rfl, all, stop, -, whole⟩ := run_of_digit (by simpa using other) s
    rw [isIpv4Span_octets] at quad
    obtain ⟨vs, found⟩ := Option.isSome_iff_exists.mp quad
    have fits : span.take (n - 1) = span := by
      have short := length_le_of_octets (octets_iff.mp found)
      exact List.take_of_length_le (by omega)
    have accepted : isIpv4Span 0 0 0 span = true := by
      rw [isIpv4Span_octets]
      exact quad
    have taken : firstQuadInRange n (c :: (a ++ rest)) = some span := by
      rw [firstQuadInRange, if_neg other]
      show (if isIpv4Span 0 0 0 span then some (span.take (n - 1)) else _) = _
      rw [if_pos accepted, fits]
    show _ = (runs ((c :: a) ++ rest)).findSome? wholeQuad
    rw [findSome?_runs wholeQuad all stop, whole, taken]
    show octets span = (octets span).or _
    rw [found]
    rfl
  | case4 c s other span quad ih =>
    obtain ⟨a, rest, rfl, all, stop, cut, whole⟩ := run_of_digit (by simpa using other) s
    have skipped : firstQuadInRange n (c :: (a ++ rest)) = firstQuadInRange n ((a ++ rest).drop span.length) := by
      rw [firstQuadInRange, if_neg other]
      show (if isIpv4Span 0 0 0 span then _ else _) = _
      rw [if_neg quad]
    have none : octets span = none := by
      rw [isIpv4Span_octets] at quad
      exact Option.not_isSome_iff_eq_none.mp quad
    show _ = (runs ((c :: a) ++ rest)).findSome? wholeQuad
    rw [findSome?_runs wholeQuad all stop, whole, skipped, ih]
    show _ = (octets span).or _
    rw [none, Option.none_or]
    -- the next character behind the run is skipped as well
    obtain ⟨dots, run, only⟩ := span_append_dots (c :: a)
    rw [← cut] at run
    have left : (a ++ rest).drop span.length = (dots ++ rest).drop 1 := by
      show (c :: a ++ rest).drop (span.length + 1) = _
      rw [run, List.append_assoc, ← List.drop_drop, List.drop_left]
    rw [left]
    cases dots with
    | nil =>
      cases rest with
      | nil => rfl
      | cons x rest => rfl
    | cons d dots =>
      have dots_only : ∀ c ∈ dots, c = 46 := fun c mem => only c (List.mem_cons_of_mem d mem)
      have dots_run : ∀ c ∈ dots, inRun c := fun c mem => by
        rw [dots_only c mem]
        rfl
      show (runs (dots ++ rest)).findSome? wholeQuad = _
      rw [findSome?_runs wholeQuad dots_run stop, wholeQuad_dots dots_only]
      rfl

end Quads

end Tolunnet
