import Tolunnet.Client.Addrinfo
import Tolunnet.Config.Values
import Tolunnet.Http.Headers

/-!
# `Tolunnet.Inet.Numbers`: numbers from the network and from the user

Three places read a decimal number: `Content-Length`, the numeric keys of the configuration and the
service of `getaddrinfo`. All three multiply by ten in 32 bits and test the range afterwards, when
they test it. So they compute the number up to wrapping (`lengthValue_eq`, `tnStrToLong_eq`,
`servicePort_eq`), and `exact_iff_fits` says for which inputs what they store is the number.
-/

set_option autoImplicit false

namespace Tolunnet

namespace Numbers

variable {l : List Char} {m n : Int}

/-! ## Numbers up to wrapping -/

/-- The number that digits denote with a minus sign in front or none. -/
def signed (s : List Char) : Option Int :=
  let neg := s.head? == some '-'
  let digits := (if neg then s.tail else s).takeWhile Char.isDigit
  if digits = [] then none else some (if neg then -natValue digits else natValue digits)

theorem wrapLong_neg (v : Int) : wrapLong (-wrapLong v) = wrapLong (-v) := by
  unfold wrapLong
  rw [Int.neg_eq_neg_one_mul, Int.mul_bmod, Int.bmod_bmod, ← Int.mul_bmod, ← Int.neg_eq_neg_one_mul]

/-- `tn_str_to_long` computes the number up to wrapping. -/
theorem tnStrToLong_eq (s : List Char) : tnStrToLong s = (signed s).map wrapLong := by
  unfold tnStrToLong signed
  simp only [digitsValue_eq, wrapLong_neg]
  split_ifs <;> rfl

/-- The number that bytes denote which are digits. -/
def bytesValue (ds : List UInt8) : Nat := ds.foldl (fun v c => v * 10 + (c.toNat - 48)) 0

/-- The loop of `Content-Length` computes the number up to wrapping. -/
theorem lengthValue_eq {ds : List UInt8} (h : ∀ c ∈ ds, Http.isDigit c) :
    Http.lengthValue ds = wrapLong (bytesValue ds) := by
  induction ds using List.reverseRecOn with
  | nil => rfl
  | append_singleton ds c ih =>
    have digit : 48 ≤ c.toNat := by
      have := h c (by simp)
      simp only [Http.isDigit, Bool.and_eq_true, decide_eq_true_eq] at this
      exact UInt8.le_iff_toNat_le.mp this.1
    specialize ih fun c hc => h c (List.mem_append_left _ hc)
    simp only [Http.lengthValue, bytesValue, List.foldl_append, List.foldl_cons, List.foldl_nil]
      at ih ⊢
    rw [ih]
    unfold wrapLong
    rw [Int.natCast_add, Int.natCast_mul, Int.natCast_sub digit, Int.add_bmod, Int.mul_bmod,
      Int.bmod_bmod, ← Int.mul_bmod, ← Int.add_bmod]
    rfl

/-- The loop of a service computes the number up to wrapping. -/
theorem servicePort_eq (h : ∀ c ∈ l, c.isDigit) : servicePort l = wrapLong (natValue l) := by
  unfold servicePort
  rw [List.dropWhile_eq_nil_iff.mpr h, List.takeWhile_eq_self_iff.mpr h, digitsValue_eq]
  exact if_pos rfl

/-! ## Keys -/

/-- The keys whose value is a number. -/
inductive NumKey where
  | unit | mtu | dnsPort | debug | priority | loglevel | selectors | txQueue | dnsPending | dnsRetries
  deriving DecidableEq, Repr

namespace NumKey

def key : NumKey → CfgKey
  | unit => .unit | mtu => .mtu | dnsPort => .dnsPort | debug => .debug | priority => .priority
  | loglevel => .loglevel | selectors => .selectors | txQueue => .txQueue
  | dnsPending => .dnsPending | dnsRetries => .dnsRetries

/-- The field of a key. -/
def field (p : TnPrefs) : NumKey → Int
  | unit => p.unit | mtu => p.mtu | dnsPort => p.dnsPort | debug => p.debug
  | priority => p.priority | loglevel => p.logLevel | selectors => p.selectors
  | txQueue => p.txQueue | dnsPending => p.dnsPendingMax | dnsRetries => p.dnsRetries

/-- The documented range of a key. A unit is any `ULONG`. -/
def Documented (n : Int) : NumKey → Prop
  | unit => 0 ≤ n ∧ n < 2 ^ 32
  | mtu => n = 0 ∨ 576 ≤ n ∧ n ≤ 1500
  | dnsPort => 1 ≤ n ∧ n ≤ 65535
  | debug | loglevel => 0 ≤ n ∧ n ≤ 2
  | priority => -128 ≤ n ∧ n ≤ 127
  | selectors => 1 ≤ n ∧ n ≤ 128
  | txQueue => 0 ≤ n ∧ n ≤ 8
  | dnsPending => 1 ≤ n ∧ n ≤ dnsPendingMax
  | dnsRetries => 1 ≤ n ∧ n ≤ 16

/-- What the parser asks of a number: nothing for a unit and an MTU. -/
def Accepts (n : Int) : NumKey → Prop
  | unit | mtu => True
  | k => k.Documented n

/-- The assignment to the field of a key, with its cast. -/
def store (p : TnPrefs) (v : Int) : NumKey → TnPrefs
  | unit => { p with unit := toUlong v } | mtu => { p with mtu := toUlong v }
  | dnsPort => { p with dnsPort := toUlong v } | debug => { p with debug := toUlong v }
  | priority => { p with priority := v } | loglevel => { p with logLevel := v }
  | selectors => { p with selectors := toUlong v } | txQueue => { p with txQueue := toUlong v }
  | dnsPending => { p with dnsPendingMax := toUlong v }
  | dnsRetries => { p with dnsRetries := toUlong v }

/-- The parser on a line with a numeric key: what it reads is stored, or the line changes nothing. -/
theorem parse_cases (k : NumKey) (p : TnPrefs) {key : List Char} (val : List Char)
    (hk : cfgKey? (tnStrCopyClean key 32) = some k.key) :
    (∃ m, signed (tnStrCopyClean val 64) = some m ∧ k.Accepts (wrapLong m) ∧
        tnConfigParseLine p key val = k.store p (wrapLong m)) ∨
      (∀ m, signed (tnStrCopyClean val 64) = some m → ¬ k.Accepts (wrapLong m)) ∧
        tnConfigParseLine p key val = p := by
  unfold tnConfigParseLine
  rw [hk]
  have read := tnStrToLong_eq (tnStrCopyClean val 64)
  cases number : signed (tnStrCopyClean val 64) with
  | none =>
    rw [number, Option.map_none] at read
    refine Or.inr ⟨fun m h => (nomatch h), ?_⟩
    cases k <;> simp [NumKey.key, cfgValue, numIn, read]
  | some m =>
    rw [number, Option.map_some] at read
    have inside : ∀ lo hi, lo ≤ wrapLong m ∧ wrapLong m ≤ hi →
        numIn (tnStrCopyClean val 64) lo hi = some (wrapLong m) := fun lo hi h => by
      simp [numIn, read, h]
    have outside : ∀ lo hi, ¬ (lo ≤ wrapLong m ∧ wrapLong m ≤ hi) →
        numIn (tnStrCopyClean val 64) lo hi = none := fun lo hi h => by
      simp only [numIn, read, Option.filter_some]
      exact if_neg (by simpa using h)
    by_cases ok : k.Accepts (wrapLong m)
    · refine Or.inl ⟨m, rfl, ok, ?_⟩
      cases k <;> simp only [NumKey.key, cfgValue] <;> first
        | (rw [read]; rfl)
        | (rw [inside _ _ ok]; rfl)
    · refine Or.inr ⟨fun _ h => Option.some.inj h ▸ ok, ?_⟩
      cases k <;> first
        | exact absurd trivial ok
        | (simp only [NumKey.key, cfgValue]; rw [outside _ _ ok, Option.map_none])
        | (simp only [NumKey.key, cfgValue]; rw [outside _ _ ok])

/-- Every key has a text that names it. -/
theorem cfgKey?_key (k : NumKey) : ∃ key, cfgKey? (tnStrCopyClean key 32) = some k.key := by
  cases k
  · exact ⟨"UNIT".toList, by decide⟩
  · exact ⟨"MTU".toList, by decide⟩
  · exact ⟨"DNS_PORT".toList, by decide⟩
  · exact ⟨"DEBUG".toList, by decide⟩
  · exact ⟨"PRIORITY".toList, by decide⟩
  · exact ⟨"LOGLEVEL".toList, by decide⟩
  · exact ⟨"SELECTORS".toList, by decide⟩
  · exact ⟨"TX_QUEUE".toList, by decide⟩
  · exact ⟨"DNS_PENDING".toList, by decide⟩
  · exact ⟨"DNS_RETRIES".toList, by decide⟩

/-- A number that fits is stored. -/
theorem toUlong_wrapLong_of_fits (h : 0 ≤ n) (h' : n < 2 ^ 32) : (toUlong (wrapLong n) : Int) = n := by
  obtain ⟨n, rfl⟩ := Int.eq_ofNat_of_zero_le h
  exact congrArg Int.ofNat (toUlong_wrapLong (by omega))

/-- What a key stores of a number is the number up to wrapping. -/
theorem field_store_emod (k : NumKey) (p : TnPrefs) (n : Int) :
    k.field (k.store p (wrapLong n)) % 2 ^ 32 = n % 2 ^ 32 := by
  have wrapped : wrapLong n % 2 ^ 32 = n % 2 ^ 32 := Int.bmod_emod ..
  have cast : (toUlong (wrapLong n) : Int) % 2 ^ 32 = n % 2 ^ 32 := by
    unfold toUlong
    omega
  cases k <;> first | exact cast | exact wrapped

/-- A documented number fits a LONG or a ULONG. -/
theorem Documented.bounds {k : NumKey} (h : k.Documented n) : -2 ^ 31 ≤ n ∧ n < 2 ^ 32 := by
  have : dnsPendingMax = 8 := rfl
  cases k <;> simp only [Documented] at h <;> omega

/-- A number in the range of its key is stored as it is. -/
theorem field_store (k : NumKey) (p : TnPrefs) (h : k.Documented n) :
    k.field (k.store p (wrapLong n)) = n := by
  have : dnsPendingMax = 8 := rfl
  have cast : 0 ≤ n → n < 2 ^ 32 → (toUlong (wrapLong n) : Int) = n := toUlong_wrapLong_of_fits
  have same : -2 ^ 31 ≤ n → n < 2 ^ 31 → wrapLong n = n := wrapLong_of_fits
  cases k <;> simp only [Documented] at h <;> first
    | exact cast (by omega) (by omega)
    | exact same (by omega) (by omega)

end NumKey

/-! ## The kept part of a number -/

/-- More digits make no smaller number. -/
theorem natValue_le_append (l t : List Char) : natValue l ≤ natValue (l ++ t) := by
  induction t using List.reverseRecOn with
  | nil => rw [List.append_nil]
  | append_singleton t c ih =>
    rw [← List.append_assoc]
    simp only [natValue, List.foldl_append, List.foldl_cons, List.foldl_nil] at ih ⊢
    omega

/-- The digits that are left when a text is cut off. -/
theorem kept_digits (l : List Char) (k : Nat) :
    ((l.takeWhile fun c => !isStop c).take k).takeWhile Char.isDigit
      = (l.takeWhile Char.isDigit).take k := by
  have both : (fun c => decide (c.isDigit = true ∧ (!isStop c) = true)) = Char.isDigit :=
    funext fun c => by
      by_cases digit : c.isDigit
      · simp [digit, (not_stop_of_isDigit digit).1]
      · simp [digit]
  rw [← List.take_takeWhile, List.takeWhile_takeWhile, both]

/-- Fewer make no larger one. -/
theorem natValue_take_le (l : List Char) (k : Nat) : natValue (l.take k) ≤ natValue l := by
  have := natValue_le_append (l.take k) (l.drop k)
  rwa [List.take_append_drop] at this

/-- Cutting a text off behind 63 characters makes its number no larger. -/
theorem signed_clean {val : List Char} (hm : signed (tnStrCopyClean val 64) = some m) :
    ∃ n, signed val = some n ∧ (0 ≤ m ∧ m ≤ n ∨ n ≤ m ∧ m ≤ 0) := by
  cases val with
  | nil => cases hm
  | cons c val =>
    have go : isStop c = false := by
      by_contra stop
      simp [tnStrCopyClean, stop, signed] at hm
    have kept : tnStrCopyClean (c :: val) 64 = c :: (val.takeWhile fun c => !isStop c).take 62 := by
      simp [tnStrCopyClean, go]
    rw [kept] at hm
    by_cases neg : c = '-'
    · subst neg
      have smaller := natValue_take_le (val.takeWhile Char.isDigit) 62
      simp only [signed, List.head?_cons, beq_self_eq_true, if_true, List.tail_cons, kept_digits]
        at hm ⊢
      split_ifs at hm with some_digit
      obtain rfl := Option.some.inj hm
      rw [if_neg fun none => some_digit (by rw [none, List.take_nil])]
      exact ⟨_, rfl, Or.inr ⟨by omega, by omega⟩⟩
    · have smaller := natValue_take_le ((c :: val).takeWhile Char.isDigit) 63
      have digits := kept_digits (c :: val) 63
      rw [List.takeWhile_cons_of_pos (by simp [go]), List.take_succ_cons] at digits
      have plus : (some c == some '-') = false := by simp [neg]
      simp only [signed, List.head?_cons, plus, Bool.false_eq_true, if_false, digits] at hm ⊢
      split_ifs at hm with some_digit
      obtain rfl := Option.some.inj hm
      rw [if_neg fun none => some_digit (by rw [none, List.take_nil])]
      exact ⟨_, rfl, Or.inl ⟨by omega, by omega⟩⟩

/-! ## `Content-Length` -/

/-- The lines that the loop over the headers visits, with their lengths. -/
def visited (line : List UInt8) (left : Nat) : Nat → List (List UInt8 × Nat)
  | 0 => []
  | turns + 1 =>
    if left = 0 then []
    else
      match Http.strchr 10 line with
      | none => []
      | some eol =>
        if left ≤ eol then []
        else
          (line, if eol > 0 ∧ (line)[eol - 1]? = some 13 then eol - 1 else eol) ::
            visited (line.drop (eol + 1)) (left - (eol + 1)) turns

/-- The loop over the lines. -/
theorem headerLines_eq (out : TnHdrInfo) (line : List UInt8) (left turns : Nat) :
    Http.headerLines out line left turns =
      (visited line left turns).foldl (fun out l => Http.headerLine out l.1 l.2) out := by
  induction turns generalizing out line left with
  | zero => rfl
  | succ turns ih =>
    unfold Http.headerLines visited
    split_ifs
    · rfl
    · cases Http.strchr 10 line with
      | none => rfl
      | some eol =>
        simp only
        split_ifs
        · rfl
        · exact ih ..
        · exact ih ..

/-- The digits of a `Content-Length` line. -/
def lineDigits (l : List UInt8 × Nat) : Option (List UInt8) :=
  if l.2 ≥ 15 ∧ Http.ciStarts l.1 "content-length:" then
    some (((l.1.drop 15).dropWhile Http.isGap).takeWhile Http.isDigit)
  else none

/-- The digits of the last `Content-Length` line in the headers of a response. -/
def lengthDigits (mem : List UInt8) (endOff : Nat) : Option (List UInt8) :=
  ((visited mem endOff endOff).filterMap lineDigits).getLast?

/-- One line sets the length or leaves it. -/
theorem headerLine_contentLength (out : TnHdrInfo) (l : List UInt8 × Nat) :
    (Http.headerLine out l.1 l.2).contentLength =
      ((lineDigits l).map Http.lengthValue).getD out.contentLength := by
  unfold Http.headerLine lineDigits
  split_ifs <;> rfl

/-- The last line counts. -/
theorem contentLength_foldl (ls : List (List UInt8 × Nat)) (out : TnHdrInfo) :
    (ls.foldl (fun out l => Http.headerLine out l.1 l.2) out).contentLength =
      (((ls.filterMap lineDigits).getLast?).map Http.lengthValue).getD out.contentLength := by
  induction ls using List.reverseRecOn with
  | nil => rfl
  | append_singleton ls l ih =>
    rw [List.foldl_append, List.filterMap_append, List.foldl_cons, List.foldl_nil,
      headerLine_contentLength, ih]
    cases digits : lineDigits l <;> simp [digits]

/-- The parser stores the last `Content-Length`, up to wrapping. -/
theorem contentLength_eq {mem : List UInt8} {len off : Nat} {info : TnHdrInfo} {ds : List UInt8}
    (h : tnHttpParseHeaders mem len = some (off, info)) (hd : lengthDigits mem off = some ds) :
    info.contentLength = wrapLong (bytesValue ds) := by
  have digit : ∀ c ∈ ds, Http.isDigit c := by
    obtain ⟨l, -, hl⟩ := List.mem_filterMap.mp (List.mem_of_getLast? hd)
    unfold lineDigits at hl
    split_ifs at hl
    obtain rfl := Option.some.inj hl
    exact fun c hc => List.mem_takeWhile_imp hc
  have found := Http.tnHttpParseHeaders_some h
  unfold tnHttpParseHeaders at h
  simp only [found, Option.some.injEq, Prod.mk.injEq, true_and, headerLines_eq] at h
  unfold lengthDigits at hd
  rw [← h, contentLength_foldl, hd, ← lengthValue_eq digit]
  rfl

/-! ## Numbers that are stored -/

/-- The places that read a number, each with what it reads. -/
inductive Source where
  | contentLength (mem : List UInt8) (len : Nat)
  | key (k : NumKey) (val : List Char)
  | service (digits : List Char) (h : ∀ c ∈ digits, c.isDigit)

/-- What is stored is the number, and in its range. -/
def Exact : Source → Prop
  | .contentLength mem len => ∀ off info ds, tnHttpParseHeaders mem len = some (off, info) →
      lengthDigits mem off = some ds → info.contentLength = bytesValue ds
  | .key k val => ∀ p key, cfgKey? (tnStrCopyClean key 32) = some k.key →
      tnConfigParseLine p key val = p ∨ ∃ n, signed val = some n ∧ k.Documented n ∧
        k.field (tnConfigParseLine p key val) = n
  | .service digits _ => ∀ gethostbyname hostname hints room ai,
      tnLvoGetaddrinfo gethostbyname hostname (some digits) hints room = .ok ai →
        ai.sinPort = 0 ∨ ai.sinPort = natValue digits ∧ natValue digits < 65536

/-- The number fits where it goes. A value is cut off behind 63 characters, and a number that wraps
is no harm when the range test refuses what it wraps to. -/
def Fits : Source → Prop
  | .contentLength mem len => ∀ off ds, Http.endOffset (mem.take len) = some off →
      lengthDigits mem off = some ds → bytesValue ds < 2 ^ 31
  | .key k val => ∀ m, signed (tnStrCopyClean val 64) = some m → k.Accepts (wrapLong m) →
      signed val = some m ∧ k.Documented m
  | .service digits _ => 0 < wrapLong (natValue digits) → wrapLong (natValue digits) < 65536 →
      natValue digits < 65536

/-- A key is exact when its number fits. -/
theorem exact_key (k : NumKey) (val : List Char) : Exact (.key k val) ↔ Fits (.key k val) := by
  constructor
  · intro exact m hm accepted
    obtain ⟨key, hk⟩ := k.cfgKey?_key
    -- preferences whose field is not what the line stores
    let p := k.store {} (wrapLong (m + 1))
    have other : k.field p % 2 ^ 32 = (m + 1) % 2 ^ 32 := k.field_store_emod {} (m + 1)
    have stored := k.field_store_emod p m
    obtain ⟨m', hm', -, eq⟩ | ⟨refused, -⟩ := k.parse_cases p val hk
    · obtain rfl : m = m' := Option.some.inj (hm.symm.trans hm')
      obtain same | ⟨n, hn, doc, field⟩ := exact p key hk
      · rw [← eq, same] at stored
        omega
      · obtain ⟨n', hn', between⟩ := signed_clean hm
        obtain rfl : n = n' := Option.some.inj (hn.symm.trans hn')
        have bounds := doc.bounds
        rw [← eq, field] at stored
        obtain rfl : n = m := by omega
        exact ⟨hn, doc⟩
    · exact absurd accepted (refused m hm)
  · intro fits p key hk
    obtain ⟨m, hm, accepted, eq⟩ | ⟨-, eq⟩ := k.parse_cases p val hk
    · obtain ⟨whole, doc⟩ := fits m hm accepted
      exact Or.inr ⟨m, whole, doc, by rw [eq, k.field_store p doc]⟩
    · exact Or.inl eq

theorem wrapLong_lt (v : Int) : wrapLong v < 2 ^ 31 := by
  have := Int.bmod_lt (x := v) (m := 2 ^ 32) (by decide)
  unfold wrapLong
  omega

/-- A length is exact when it fits. -/
theorem exact_contentLength (mem : List UInt8) (len : Nat) :
    Exact (.contentLength mem len) ↔ Fits (.contentLength mem len) := by
  constructor
  · intro exact off ds found hd
    obtain ⟨info, parsed⟩ := Http.tnHttpParseHeaders_of_endOffset found
    have stored := contentLength_eq parsed hd
    rw [exact off info ds parsed hd] at stored
    have := wrapLong_lt (bytesValue ds)
    omega
  · intro fits off info ds parsed hd
    have small := fits off ds (Http.tnHttpParseHeaders_some parsed) hd
    rw [contentLength_eq parsed hd, wrapLong_of_fits (by omega) (by omega)]

/-- No service is called by a number. -/
theorem getservbyname_digits {digits : List Char} (h : ∀ c ∈ digits, c.isDigit) (hd : digits ≠ [])
    (proto : List Char) : tnLvoGetservbyname digits proto = none := by
  have letter : ∀ s ∈ gServices, 97 ≤ (s.name.headD '0').toLower.toNat := by decide
  obtain ⟨d, digits, rfl⟩ := List.exists_cons_of_ne_nil hd
  have digit : d.toLower.toNat ≤ 57 := by
    have range := h d List.mem_cons_self
    simp only [Char.isDigit, ge_iff_le, Bool.and_eq_true, decide_eq_true_eq] at range
    have upper : ¬ (d.val ≥ 'A'.val ∧ d.val ≤ 'Z'.val) := fun up =>
      absurd (UInt32.le_trans up.1 range.2) (by decide)
    have lower : d.toLower = d := dif_neg upper
    rw [lower]
    exact UInt32.le_iff_toNat_le.mp range.2
  refine List.find?_eq_none.mpr fun s hs found => ?_
  have lower := letter s hs
  cases name : s.name with
  | nil =>
    rw [name] at lower
    exact absurd lower (by decide)
  | cons c name' =>
    rw [name, List.headD_cons] at lower
    have differ : d.toLower ≠ c.toLower := fun same => by
      rw [same] at digit
      omega
    rw [name, tnStrcasecmp, if_pos differ, Bool.and_eq_true, beq_iff_eq] at found
    omega

/-- The port of a service. -/
theorem sinPort_digits {digits : List Char} (h : ∀ c ∈ digits, c.isDigit) (hd : digits ≠ [])
    (socktype : Int) : sinPort digits socktype =
      if 0 < wrapLong (natValue digits) ∧ wrapLong (natValue digits) < 65536 then
        (wrapLong (natValue digits)).toNat
      else 0 := by
  unfold sinPort
  simp only [servicePort_eq h, getservbyname_digits h hd]
  split_ifs <;> omega

/-- The port that is answered. -/
theorem getaddrinfo_sinPort {gethostbyname : List Char → Option Hostent} {room : Bool}
    {hostname servname : Option (List Char)} {hints : Option AddrHints} {ai : Addrinfo}
    (h : tnLvoGetaddrinfo gethostbyname hostname servname hints room = .ok ai) : ∃ socktype,
      ai.sinPort = if servname.getD [] ≠ [] then sinPort (servname.getD []) socktype else 0 := by
  unfold tnLvoGetaddrinfo at h
  dsimp only at h
  split at h
  · cases h
  split at h
  · cases h
  split at h
  · cases h
  split at h
  · cases h
  obtain rfl := Except.ok.inj h
  exact ⟨_, rfl⟩

/-- A service is exact when its number fits. -/
theorem exact_service (digits : List Char) (h : ∀ c ∈ digits, c.isDigit) :
    Exact (.service digits h) ↔ Fits (.service digits h) := by
  constructor
  · intro exact pos small
    have hd : digits ≠ [] := by
      rintro rfl
      exact absurd pos (by decide)
    obtain none | ⟨-, fits⟩ := exact (fun _ => none) none none true _ rfl
    · have port : sinPort digits sockStream = 0 := (if_pos hd).symm.trans none
      rw [sinPort_digits h hd, if_pos ⟨pos, small⟩] at port
      omega
    · exact fits
  · intro fits gethostbyname hostname hints room ai ok
    obtain ⟨socktype, port⟩ := getaddrinfo_sinPort ok
    rw [port]
    by_cases hd : digits = []
    · exact Or.inl (if_neg (not_not.mpr hd))
    · rw [if_pos (show (some digits).getD [] ≠ [] from hd), Option.getD_some, sinPort_digits h hd]
      split_ifs with stored
      · have small := fits stored.1 stored.2
        rw [wrapLong_of_fits (by omega) (by omega)]
        exact Or.inr ⟨rfl, small⟩
      · exact Or.inl rfl

/-- A source stores nothing but the number in its range exactly when the number fits. -/
theorem exact_iff_fits (s : Source) : Exact s ↔ Fits s := by
  cases s with
  | contentLength mem len => exact exact_contentLength mem len
  | key k val => exact exact_key k val
  | service digits h => exact exact_service digits h

/-- `UNIT=4294967296` stores 0. -/
theorem not_forall_number_exact : ¬ ∀ s, Exact s := by
  intro h
  obtain same | ⟨n, number, -, field⟩ :=
    h (.key .unit "4294967296".toList) { unit := 1 } "UNIT".toList (by decide)
  · exact absurd (congrArg TnPrefs.unit same) (by decide)
  · obtain rfl : 4294967296 = n :=
      Option.some.inj ((show signed "4294967296".toList = some 4294967296 by decide).symm.trans number)
    exact absurd field (by decide)

end Numbers

end Tolunnet
