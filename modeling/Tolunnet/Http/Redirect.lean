import Tolunnet.Common.HttpRedirect
import Tolunnet.Inet.Numbers
import Tolunnet.Lib.Uri

/-!
# `Tolunnet.Http.Redirect`: where a redirect leads

A `Location` is the value of a Location header in one of the forms that a server may send: an absolute
http URL, a reference with an authority, a path from the root, a path, or a query, and no fragment
behind it. `target` is the URL that it leads to from the current one. `Follows` says that the client goes there when the value, the
host and the path fit their buffers, and refuses the redirect when one of them does not.

The client takes everything that is not an absolute URL for a path, cuts the current path at its last
slash even behind the `?`, and keeps 255 bytes of a longer value. `follows_iff` says for which values
this does not matter.
-/

set_option autoImplicit false

namespace Tolunnet

namespace Http

open Numbers (bytesValue)
open Uri

/-! ## Locations -/

/-- The letters of a scheme in small letters. -/
def schemeWord : TnScheme → List UInt8
  | .http => ascii "http"
  | .https => ascii "https"

/-- The port of a scheme. -/
def defaultPort : TnScheme → Nat
  | .http => 80
  | .https => 443

/-- The bytes that end an authority. -/
def endsAuthority (c : UInt8) : Bool := c == 47 || c == 63 || c == 35

/-- A byte that a header value cannot hold within a URL. -/
def isBlank (c : UInt8) : Bool := isSpace c || c == 0

/-- An authority: a host with a colon in it is in brackets, and a port is at most 65535. -/
structure Authority where
  userinfo : Option (List UInt8)
  host : List UInt8
  port : Option (List UInt8)
  host_ne : host ≠ []
  host_plain : ∀ c ∈ host, endsAuthority c = false ∧ c ≠ 64 ∧ isBlank c = false
  host_colon : 58 ∈ host → host.head? = some 91 ∧ host.getLast? = some 93
  user_plain : ∀ u ∈ userinfo, ∀ c ∈ u, endsAuthority c = false ∧ c ≠ 64 ∧ isBlank c = false
  port_digit : ∀ p ∈ port, ∀ c ∈ p, isDigit c
  port_small : ∀ p ∈ port, bytesValue p ≤ 65535

namespace Authority

def text (a : Authority) : List UInt8 :=
  (a.userinfo.elim [] fun u => u ++ [64]) ++ (a.host ++ a.port.elim [] fun p => 58 :: p)

/-- The host and the number of the port, if one is written. -/
def site (a : Authority) : List UInt8 × Option Nat :=
  (a.host, (a.port.filter (· ≠ [])).map bytesValue)

end Authority

/-- The value of a Location header, in its parts. The scheme is written in letters of any case. A value
with a fragment is none of these forms and not covered: no part contains a `#`. -/
structure Location where
  scheme : Option (TnScheme × List UInt8)
  authority : Option Authority
  path : List UInt8
  query : Option (List UInt8)
  letters : ∀ s ∈ scheme, s.2.map toLower = schemeWord s.1
  full : scheme ≠ none → authority ≠ none
  rooted : authority ≠ none → path = [] ∨ path.head? = some 47
  single : authority = none → path.take 2 ≠ [47, 47]
  noScheme : scheme = none → authority = none → 58 ∉ path.takeWhile (· != 47)
  something : authority = none → path = [] → query ≠ none
  path_plain : ∀ c ∈ path, c ≠ 63 ∧ c ≠ 35 ∧ isBlank c = false
  query_plain : ∀ q ∈ query, ∀ c ∈ q, c ≠ 35 ∧ isBlank c = false

namespace Location

/-- What is behind the authority. -/
def tail (l : Location) : List UInt8 := l.path ++ queryText l.query

def text (l : Location) : List UInt8 :=
  (l.scheme.elim [] fun s => s.2 ++ [58]) ++ ((l.authority.elim [] fun a => 47 :: 47 :: a.text) ++ l.tail)

def reference (l : Location) : Reference TnScheme (List UInt8 × Option Nat) :=
  { scheme := l.scheme.map Prod.fst, authority := l.authority.map Authority.site, path := l.path, query := l.query }

end Location

/-- A byte of a path, in front of the query. -/
def isPathByte (c : UInt8) : Bool := c != 63 && c != 35

/-- The current URL as a base. -/
def base (cur : TnUrl) : Target TnScheme (List UInt8 × Option Nat) :=
  { scheme := cur.scheme
    authority := (cur.host, some cur.port)
    path := cur.path.takeWhile isPathByte
    query := some (cur.path.dropWhile isPathByte).tail }

/-- The URL that a redirect leads to. An empty path is requested as `/`. -/
def target (cur : TnUrl) (l : Location) : TnUrl :=
  let t := resolve (base cur) l.reference
  { scheme := t.scheme
    host := t.authority.1
    port := t.authority.2.getD (defaultPort t.scheme)
    path := (if t.path = [] then [47] else t.path) ++ queryText t.query }

/-- The value, the host and the path fit their buffers. -/
def Fits (cur : TnUrl) (l : Location) : Prop :=
  l.text.length ≤ 255 ∧ (target cur l).host.length ≤ 127 ∧ (target cur l).path.length ≤ 255

/-- The client goes to the target when it fits, and refuses the redirect when it does not. The header
parser keeps 255 bytes of the value. -/
def Follows (cur : TnUrl) (l : Location) : Prop :=
  (Fits cur l → tnHttpResolveRedirect cur (l.text.take 255) = some (target cur l)) ∧
  (¬ Fits cur l → tnHttpResolveRedirect cur (l.text.take 255) = none)

/-! ## Headers -/

/-! ## Letters of any case -/

variable {s t word : List UInt8} {c : UInt8} {n : Nat}

/-- The comparison, letter by letter. -/
theorem ciStrncmp_cons (s word : List UInt8) (d : UInt8) (n : Nat) : ciStrncmp s (d :: word) (n + 1) =
    if toLower (s.headD 0) ≠ toLower d ∨ s.headD 0 = 0 ∨ d = 0 then
      ((toLower (s.headD 0)).toNat : Int) - (toLower d).toNat
    else ciStrncmp s.tail word n := rfl

/-- The comparison finds a word without NUL exactly when memory starts with its letters. -/
theorem ciStrncmp_eq_zero (nonzero : ∀ d ∈ word, toLower d ≠ 0) :
    ciStrncmp s word word.length = 0 ↔ (s.take word.length).map toLower = word.map toLower := by
  induction word generalizing s with
  | nil => simp [ciStrncmp]
  | cons d word ih =>
    have first : toLower d ≠ 0 := nonzero d List.mem_cons_self
    have rest := ih (s := s.tail) fun e he => nonzero e (List.mem_cons_of_mem d he)
    rw [List.length_cons, ciStrncmp_cons]
    by_cases same : toLower (s.headD 0) = toLower d
    · have some : s.headD 0 ≠ 0 := by
        intro zero
        rw [zero] at same
        exact first same.symm
      have hd : d ≠ 0 := by
        rintro rfl
        exact first rfl
      obtain ⟨c, s, rfl⟩ : ∃ c s', s = c :: s' :=
        List.exists_cons_of_ne_nil fun empty => some (by rw [empty]; rfl)
      rw [if_neg (by simp only [not_or, not_not]; exact ⟨same, some, hd⟩), rest]
      rw [List.headD_cons] at same
      simp [same]
    · rw [if_pos (Or.inl same)]
      constructor
      · intro equal
        exact absurd (UInt8.toNat_inj.mp (by omega)) same
      · intro equal
        cases s with
        | nil => simp at equal
        | cons c s => exact absurd (List.cons.inj equal).1 same

/-- What the comparison with a word says. -/
theorem ciStarts_iff {word : String} (nonzero : ((ascii word).all fun d => toLower d != 0) = true) :
    ciStarts s word = true ↔ (s.take (ascii word).length).map toLower = (ascii word).map toLower := by
  rw [ciStarts, beq_iff_eq, ciStrncmp_eq_zero fun d hd => bne_iff_ne.mp (List.all_eq_true.mp nonzero d hd)]

/-- A URL with a scheme. -/
theorem ciStarts_uri {letters : List UInt8} {sch : TnScheme} (spelled : letters.map toLower = schemeWord sch)
    (t : List UInt8) : (ciStarts (letters ++ 58 :: 47 :: 47 :: t) "https://" = true ↔ sch = .https) ∧
      (ciStarts (letters ++ 58 :: 47 :: 47 :: t) "http://" = true ↔ sch = .http) := by
  rw [ciStarts_iff (by decide), ciStarts_iff (by decide), List.map_take, List.map_take, List.map_append, spelled]
  cases sch with
  | http =>
    refine ⟨⟨fun equal => ?_, nofun⟩, ⟨fun _ => rfl, fun _ => rfl⟩⟩
    -- the fifth byte is a colon
    have fifth : some (58 : UInt8) = some 115 := congrArg (fun l => l[4]?) equal
    exact absurd fifth (by decide)
  | https =>
    refine ⟨⟨fun _ => rfl, fun _ => rfl⟩, ⟨fun equal => ?_, nofun⟩⟩
    have fifth : some (115 : UInt8) = some 58 := congrArg (fun l => l[4]?) equal
    exact absurd fifth (by decide)

/-! ## URLs -/

/-- The digit loop of the port. -/
theorem portLoop_eq {v : Nat} (small : v ≤ 65535) (p : List UInt8) : portLoop v p =
    let n := (p.takeWhile isDigit).foldl (fun v c => v * 10 + (c.toNat - 48)) v
    if 65535 < n then none else some (n, p.dropWhile isDigit) := by
  have grows : ∀ (ds : List UInt8) (v : Nat), v ≤ ds.foldl (fun v c => v * 10 + (c.toNat - 48)) v := by
    intro ds
    induction ds with
    | nil => exact fun v => le_refl v
    | cons c ds ih =>
      intro v
      exact Nat.le_trans (by omega) (ih (v * 10 + (c.toNat - 48)))
  induction p generalizing v with
  | nil => exact (if_neg (Nat.not_lt.mpr small)).symm
  | cons c p ih =>
    rw [portLoop]
    by_cases digit : isDigit c = true
    · rw [if_pos digit, List.takeWhile_cons_of_pos digit, List.dropWhile_cons_of_pos digit, List.foldl_cons]
      by_cases large : v * 10 + (c.toNat - 48) > 65535
      · rw [if_pos large]
        exact (if_pos (Nat.lt_of_lt_of_le large (grows _ _))).symm
      · rw [if_neg large, ih (Nat.not_lt.mp large)]
    · rw [if_neg digit, List.takeWhile_cons_of_neg digit, List.dropWhile_cons_of_neg digit]
      exact (if_neg (Nat.not_lt.mpr small)).symm

/-- The text behind the scheme of a URL is refused for its host or its port. -/
def Refused (t : List UInt8) : Prop :=
  t.takeWhile isHostByte = [] ∨ 127 < (t.takeWhile isHostByte).length ∨
    ∃ after, t.dropWhile isHostByte = 58 :: after ∧
      (after.takeWhile isDigit = [] ∨ 65535 < bytesValue (after.takeWhile isDigit) ∨
        ∃ c ∈ (after.dropWhile isDigit).head?, c ≠ 47)

/-- What is behind the port, as a path. -/
def pathOf (p : List UInt8) : List UInt8 := if p = [] then [47] else p.takeWhile fun c => !isSpace c

/-- The port of the text behind a scheme, and the path. -/
def portPath (t : List UInt8) : Nat × List UInt8 :=
  match t.dropWhile isHostByte with
  | 58 :: after => (bytesValue (after.takeWhile isDigit), pathOf (after.dropWhile isDigit))
  | rest => (80, pathOf rest)

/-- A port is refused when it has no digit or exceeds 65535. -/
theorem urlPort_colon (after : List UInt8) : urlPort (58 :: after) =
    if after.takeWhile isDigit = [] ∨ 65535 < bytesValue (after.takeWhile isDigit) then none
    else some (bytesValue (after.takeWhile isDigit), after.dropWhile isDigit) := by
  have first : (after.head?.map isDigit).getD false = true ↔ after.takeWhile isDigit ≠ [] := by
    cases after with
    | nil => simp
    | cons c p =>
      show isDigit c = true ↔ _
      cases digit : isDigit c with
      | false => simp [digit]
      | true => simp [digit]
  rw [urlPort]
  by_cases none : after.takeWhile isDigit = []
  · rw [if_neg (mt first.mp (not_not.mpr none)), if_pos (Or.inl none)]
  · rw [if_pos (first.mpr none), portLoop_eq (Nat.zero_le _)]
    by_cases large : 65535 < bytesValue (after.takeWhile isDigit)
    · rw [if_pos (Or.inr large)]
      exact if_pos large
    · rw [if_neg (not_or.mpr ⟨none, large⟩)]
      exact if_neg large

/-- A path begins with a slash. -/
theorem urlPath_none {p : List UInt8} {c : UInt8} (head : c ∈ p.head?) (other : c ≠ 47) : urlPath p = none := by
  cases p with
  | nil => cases head
  | cons d p =>
    obtain rfl : d = c := Option.some.inj head
    rw [urlPath]
    · exact nofun
    · rintro q ⟨rfl, -⟩
      exact other rfl

/-- A path that fits is kept. -/
theorem urlPath_eq {p : List UInt8} (short : p.length ≤ 255) (slash : ∀ c ∈ p.head?, c = 47) :
    urlPath p = some (pathOf p) := by
  cases p with
  | nil => rfl
  | cons c p =>
    obtain rfl : c = 47 := slash c rfl
    have taken := (List.takeWhile_sublist (l := 47 :: p) fun c => !isSpace c).length_le
    exact if_neg (by omega)

theorem length_dropWhile_le (f : UInt8 → Bool) (t : List UInt8) : (t.dropWhile f).length ≤ t.length :=
  (List.dropWhile_sublist f).length_le

/-- `tn_http_parse_url` behind the scheme. -/
theorem tnHttpParseUrl_eq {sch : TnScheme} (start : urlScheme (s.dropWhile isSpace) = (sch, t))
    (short : t.length ≤ 255) : (Refused t → tnHttpParseUrl s = none) ∧
      (¬ Refused t → tnHttpParseUrl s =
        some { scheme := sch, host := t.takeWhile isHostByte, port := (portPath t).1, path := (portPath t).2 }) := by
  rw [tnHttpParseUrl, start]
  dsimp only
  -- The cases are those of the parser, in its order.
  by_cases long : (t.takeWhile isHostByte).length > 127
  · rw [if_pos long]
    exact ⟨fun _ => rfl, fun fine => absurd (Or.inr (Or.inl long)) fine⟩
  · rw [if_neg long]
    by_cases empty : (t.takeWhile isHostByte).length = 0
    · have none : t.takeWhile isHostByte = [] := List.length_eq_zero_iff.mp empty
      rw [if_pos empty]
      exact ⟨fun _ => rfl, fun fine => absurd (Or.inl none) fine⟩
    · rw [if_neg empty]
      have some : t.takeWhile isHostByte ≠ [] := fun none => empty (congrArg List.length none)
      have restShort : (t.dropWhile isHostByte).length ≤ 255 := Nat.le_trans (length_dropWhile_le _ t) short
      -- After the host comes nothing, a port or a path.
      cases rest : t.dropWhile isHostByte with
      | nil =>
        have port : portPath t = (80, [47]) := by rw [portPath, rest]; rfl
        rw [port]
        refine ⟨fun refused => ?_, fun _ => rfl⟩
        rcases refused with none | many | ⟨after, more, -⟩
        · exact absurd none some
        · exact absurd many long
        · rw [rest] at more
          cases more
      | cons c after =>
        rw [rest, List.length_cons] at restShort
        have stop : isHostByte c = false := by
          have := List.head_dropWhile_not isHostByte (l := t) (by rw [rest]; exact List.cons_ne_nil c after)
          simpa [rest] using this
        by_cases colon : c = 58
        · subst colon
          rw [urlPort_colon]
          by_cases bad : after.takeWhile isDigit = [] ∨ 65535 < bytesValue (after.takeWhile isDigit)
          · rw [if_pos bad]
            refine ⟨fun _ => rfl, fun fine => absurd (Or.inr (Or.inr ⟨after, rest, ?_⟩)) fine⟩
            exact bad.imp_right Or.inl
          · rw [if_neg bad]
            -- Behind the digits of a port only a slash is taken.
            by_cases slash : ∀ c ∈ (after.dropWhile isDigit).head?, c = 47
            · have pathShort := Nat.le_trans (length_dropWhile_le isDigit after) (by omega : after.length ≤ 255)
              have port : portPath t = (bytesValue (after.takeWhile isDigit), pathOf (after.dropWhile isDigit)) := by
                rw [portPath, rest]
                rfl
              rw [port]
              dsimp only [Option.bind_some, Option.bind_eq_bind]
              rw [urlPath_eq pathShort slash]
              refine ⟨fun refused => ?_, fun _ => rfl⟩
              rcases refused with none | many | ⟨after', more, wrong⟩
              · exact absurd none some
              · exact absurd many long
              · obtain ⟨-, rfl⟩ := List.cons.inj (rest.symm.trans more)
                rcases wrong with none | large | ⟨c, head, other⟩
                · exact absurd (Or.inl none) bad
                · exact absurd (Or.inr large) bad
                · exact absurd (slash c head) other
            · obtain ⟨c, head, other⟩ : ∃ c ∈ (after.dropWhile isDigit).head?, c ≠ 47 := by
                simpa using slash
              dsimp only [Option.bind_some, Option.bind_eq_bind]
              rw [urlPath_none head other]
              exact ⟨fun _ => rfl, fun fine =>
                absurd (Or.inr (Or.inr ⟨after, rest, Or.inr (Or.inr ⟨c, head, other⟩)⟩)) fine⟩
        · have slash : c = 47 := by
            simp only [isHostByte, Bool.and_eq_false_iff, bne_eq_false_iff_eq] at stop
            exact stop.resolve_left colon
          subst slash
          have port : portPath t = (80, pathOf (47 :: after)) := by rw [portPath, rest]; rfl
          have plain : urlPort (47 :: after) = Option.some (80, 47 :: after) := rfl
          rw [plain, port]
          dsimp only [Option.bind_some, Option.bind_eq_bind]
          have slash : ∀ c ∈ (47 :: after).head?, c = 47 := by
            intro c hc
            exact (Option.some.inj hc).symm
          rw [urlPath_eq (p := 47 :: after) restShort slash]
          refine ⟨fun refused => ?_, fun _ => rfl⟩
          rcases refused with none | many | ⟨after', more, -⟩
          · exact absurd none some
          · exact absurd many long
          · exact absurd (List.cons.inj (rest.symm.trans more)).1 (by decide)

/-- What an accepted text has in front of its path. -/
theorem authority_of_accepted (accepted : ¬ Refused t) : t.takeWhile (· != 47) = t.takeWhile isHostByte ∨
    ∃ ds, (∀ c ∈ ds, isDigit c) ∧ t.takeWhile (· != 47) = t.takeWhile isHostByte ++ 58 :: ds := by
  have split := List.takeWhile_append_dropWhile (p := isHostByte) (l := t)
  have host : ∀ c ∈ t.takeWhile isHostByte, (c != 47) = true := by
    intro c hc
    have byte := List.mem_takeWhile_imp hc
    simp only [isHostByte, Bool.and_eq_true] at byte
    exact byte.2
  have front : t.takeWhile (· != 47) =
      t.takeWhile isHostByte ++ (t.dropWhile isHostByte).takeWhile (· != 47) := by
    rw [← List.takeWhile_append_of_pos host, split]
  rw [front]
  cases rest : t.dropWhile isHostByte with
  | nil => exact Or.inl (List.append_nil _)
  | cons c after =>
    have stop : isHostByte c = false := by
      have := List.head_dropWhile_not isHostByte (l := t) (by rw [rest]; exact List.cons_ne_nil c after)
      simpa [rest] using this
    by_cases colon : c = 58
    · subst colon
      right
      refine ⟨after.takeWhile isDigit, fun c hc => List.mem_takeWhile_imp hc, ?_⟩
      -- what follows the digits is a slash or nothing
      have digits : ∀ c ∈ after.takeWhile isDigit, (c != 47) = true := by
        intro c hc
        have digit := List.mem_takeWhile_imp hc
        refine bne_iff_ne.mpr ?_
        rintro rfl
        exact absurd digit (by decide)
      have stops : (after.dropWhile isDigit).takeWhile (· != 47) = [] := by
        cases last : after.dropWhile isDigit with
        | nil => rfl
        | cons d p =>
          have slash : d = 47 := by
            by_contra other
            exact accepted (Or.inr (Or.inr ⟨after, rest, Or.inr (Or.inr ⟨d, by rw [last]; rfl, other⟩)⟩))
          rw [slash, List.takeWhile_cons_of_neg (by decide)]
      have whole := List.takeWhile_append_dropWhile (p := isDigit) (l := after)
      rw [List.takeWhile_cons_of_pos (by decide)]
      congr 2
      rw [← whole, List.takeWhile_append_of_pos digits, stops, List.append_nil, whole]
    · have slash : c = 47 := by
        simp only [isHostByte, Bool.and_eq_false_iff, bne_eq_false_iff_eq] at stop
        exact stop.resolve_left colon
      left
      rw [slash, List.takeWhile_cons_of_neg (by decide), List.append_nil]

/-! ## The bytes of a location -/

variable {l : Location} {a : Authority} {sch : TnScheme} {letters : List UInt8} {cur : TnUrl}

/-- A scheme has no blanks. -/
theorem isBlank_of_spelled (spelled : letters.map toLower = schemeWord sch) :
    ∀ c ∈ letters, isBlank c = false := by
  have small : ∀ c, isBlank c = true → toLower c = c := by
    intro c blank
    simp only [isBlank, isSpace, Bool.or_eq_true, beq_iff_eq] at blank
    rcases blank with (((rfl | rfl) | rfl) | rfl) | rfl <;> rfl
  have words : ∀ sch, ((schemeWord sch).all fun c => !isBlank c) = true := by
    intro sch
    cases sch <;> rfl
  intro c hc
  by_contra blank
  rw [Bool.not_eq_false] at blank
  have mem : c ∈ schemeWord sch := by
    rw [← spelled, ← small c blank]
    exact List.mem_map_of_mem hc
  have := List.all_eq_true.mp (words sch) c mem
  rw [blank] at this
  cases this

theorem isBlank_digit {c : UInt8} (digit : isDigit c = true) : isBlank c = false := by
  have all : ∀ c : UInt8, 48 ≤ c → isBlank c = false := by
    intro c low
    by_contra blank
    rw [Bool.not_eq_false] at blank
    simp only [isBlank, isSpace, Bool.or_eq_true, beq_iff_eq] at blank
    rcases blank with (((rfl | rfl) | rfl) | rfl) | rfl <;> exact absurd low (by decide)
  simp only [isDigit, Bool.and_eq_true, decide_eq_true_eq] at digit
  exact all c digit.1

/-- Nor has an authority. -/
theorem Authority.isBlank (a : Authority) : ∀ c ∈ a.text, isBlank c = false := by
  intro c hc
  rw [Authority.text, List.mem_append, List.mem_append] at hc
  rcases hc with user | host | port
  · cases info : a.userinfo with
    | none =>
      rw [info] at user
      cases user
    | some u =>
      rw [info] at user
      rcases List.mem_append.mp user with mem | mem
      · exact (a.user_plain u info c mem).2.2
      · rw [List.mem_singleton.mp mem]
        rfl
  · exact (a.host_plain c host).2.2
  · cases given : a.port with
    | none =>
      rw [given] at port
      cases port
    | some p =>
      rw [given] at port
      rcases List.mem_cons.mp port with rfl | mem
      · rfl
      · exact isBlank_digit (a.port_digit p given c mem)

/-- Nor has what follows it. -/
theorem Location.isBlank_tail (l : Location) : ∀ c ∈ l.tail, Http.isBlank c = false := by
  intro c hc
  rcases List.mem_append.mp hc with path | query
  · exact (l.path_plain c path).2.2
  · cases given : l.query with
    | none =>
      rw [given] at query
      cases query
    | some q =>
      rw [given] at query
      rcases List.mem_cons.mp query with rfl | mem
      · rfl
      · exact (l.query_plain q given c mem).2

/-- The value of a header has no blank in it. -/
theorem Location.isBlank (l : Location) : ∀ c ∈ l.text, Http.isBlank c = false := by
  intro c hc
  rw [Location.text, List.mem_append, List.mem_append] at hc
  rcases hc with scheme | authority | tail
  · cases given : l.scheme with
    | none =>
      rw [given] at scheme
      cases scheme
    | some s =>
      rw [given] at scheme
      rcases List.mem_append.mp scheme with mem | mem
      · exact isBlank_of_spelled (l.letters s given) c mem
      · rw [List.mem_singleton.mp mem]
        rfl
  · cases given : l.authority with
    | none =>
      rw [given] at authority
      cases authority
    | some a =>
      rw [given] at authority
      rcases List.mem_cons.mp authority with rfl | mem
      · rfl
      · rcases List.mem_cons.mp mem with rfl | mem
        · rfl
        · exact a.isBlank c mem
  · exact l.isBlank_tail c tail

theorem takeWhile_unspaced (plain : ∀ c ∈ s, isBlank c = false) : s.takeWhile (fun c => !isSpace c) = s := by
  refine List.takeWhile_eq_self_iff.mpr fun c hc => ?_
  have := plain c hc
  simp only [isBlank, Bool.or_eq_false_iff] at this
  rw [this.1]
  rfl

theorem dropWhile_unspaced (plain : ∀ c ∈ s, isBlank c = false) : s.dropWhile isSpace = s := by
  cases s with
  | nil => rfl
  | cons c s =>
    have := plain c List.mem_cons_self
    simp only [isBlank, Bool.or_eq_false_iff] at this
    exact List.dropWhile_cons_of_neg (by simp [this.1])

/-! ## References without a scheme -/

/-- A byte of a first segment. -/
def isSegmentByte (c : UInt8) : Bool := c != 47 && c != 63

/-- Without a colon in the first segment, a value is not taken for a URL. -/
theorem not_ciStarts (plain : 58 ∉ s.takeWhile isSegmentByte) :
    ciStarts s "http://" = false ∧ ciStarts s "https://" = false := by
  -- the letters of a scheme and its colon are bytes of a segment
  have key : ∀ (k : Nat) (word : List UInt8), (word.all isSegmentByte) = true → 58 ∈ word →
      (s.take k).map toLower ≠ word := by
    intro k word segment colon equal
    have same : ∀ c : UInt8, toLower c = 47 ∨ toLower c = 63 ∨ toLower c = 58 → toLower c = c := by
      intro c
      unfold toLower
      split
      · intro odd
        exfalso
        rename_i upper
        have value : (c + 32).toNat = c.toNat + 32 := by
          have := UInt8.le_iff_toNat_le.mp upper.2
          rw [UInt8.toNat_add]
          simp at this ⊢
          omega
        have low := UInt8.le_iff_toNat_le.mp upper.1
        rcases odd with odd | odd | odd <;> rw [odd] at value <;> simp at value low <;> omega
      · exact fun _ => rfl
    have front : ∀ c ∈ s.take k, isSegmentByte c = true := by
      intro c hc
      have byte := List.all_eq_true.mp segment (toLower c) (equal ▸ List.mem_map_of_mem hc)
      simp only [isSegmentByte, Bool.and_eq_true, bne_iff_ne] at byte ⊢
      constructor
      · rintro rfl
        exact byte.1 rfl
      · rintro rfl
        exact byte.2 rfl
    obtain ⟨c, hc, lower⟩ := List.mem_map.mp (equal ▸ colon)
    obtain rfl : c = 58 := by
      rw [← same c (Or.inr (Or.inr lower)), lower]
    refine plain ?_
    rw [← List.take_append_drop k s, List.takeWhile_append_of_pos front]
    exact List.mem_append_left _ hc
  constructor
  · rw [← Bool.not_eq_true, ciStarts_iff (by decide)]
    intro equal
    have five : (s.take 5).map toLower = ascii "http:" := by
      have := congrArg (List.take 5) equal
      rwa [← List.map_take, List.take_take] at this
    exact key 5 _ (by decide) (by decide) five
  · rw [← Bool.not_eq_true, ciStarts_iff (by decide)]
    intro equal
    have six : (s.take 6).map toLower = ascii "https:" := by
      have := congrArg (List.take 6) equal
      rwa [← List.map_take, List.take_take] at this
    exact key 6 _ (by decide) (by decide) six

/-- `tn_http_resolve_redirect` on a value that is not a URL. -/
theorem resolve_relative (blank : ∀ c ∈ s, isBlank c = false) (plain : 58 ∉ s.takeWhile isSegmentByte) :
    tnHttpResolveRedirect cur s =
      if s.head? = some 47 then if s.length > 255 then none else some { cur with path := s }
      else if (upToSlash cur.path).length + s.length ≥ 256 then none
      else some { cur with path := upToSlash cur.path ++ s } := by
  obtain ⟨http, https⟩ := not_ciStarts plain
  rw [tnHttpResolveRedirect]
  dsimp only
  rw [dropWhile_unspaced blank, takeWhile_unspaced blank, http, https, if_neg (by decide)]
  split
  · rfl
  · split
    · rw [if_pos (by omega)]
    · rfl

/-- What a current URL is: its host fits its buffer, and its path starts with a slash and fits. -/
theorem accepted_cur {url : List UInt8} (accepted : tnHttpParseUrl url = some cur) :
    cur.host.length ≤ 127 ∧ cur.path.head? = some 47 ∧ cur.path.length ≤ 255 := by
  rw [tnHttpParseUrl] at accepted
  generalize urlScheme (url.dropWhile isSpace) = start at accepted
  obtain ⟨sch, t⟩ := start
  dsimp only at accepted
  by_cases long : (t.takeWhile isHostByte).length > 127
  · rw [if_pos long] at accepted
    cases accepted
  · rw [if_neg long] at accepted
    by_cases empty : (t.takeWhile isHostByte).length = 0
    · rw [if_pos empty] at accepted
      cases accepted
    · rw [if_neg empty] at accepted
      obtain ⟨⟨port, p⟩, -, accepted⟩ := Option.bind_eq_some_iff.mp accepted
      obtain ⟨path, parsed, accepted⟩ := Option.bind_eq_some_iff.mp accepted
      obtain rfl := Option.some.inj accepted
      refine ⟨Nat.not_lt.mp long, ?_⟩
      dsimp only
      cases p with
      | nil =>
        obtain rfl := Option.some.inj parsed
        exact ⟨rfl, by decide⟩
      | cons c p =>
        by_cases slash : c = 47
        · subst slash
          replace parsed : (if ((47 :: p).takeWhile fun c => !isSpace c).length > 255 then none
            else some ((47 :: p).takeWhile fun c => !isSpace c)) = some path := parsed
          split at parsed
          · cases parsed
          · rename_i fits
            obtain rfl := Option.some.inj parsed
            exact ⟨rfl, Nat.not_lt.mp fits⟩
        · rw [urlPath_none (p := c :: p) rfl slash] at parsed
          cases parsed

/-! ## Absolute URLs -/

/-- What is behind the scheme and the slashes, as far as the header parser keeps it. -/
def behindScheme (letters : List UInt8) (a : Authority) (l : Location) : List UInt8 :=
  (a.text ++ l.tail).take (252 - letters.length)

/-- An absolute URL that the client reads as it is meant: a host without colon or user, a port or the
port 80 of http, and a path in front of a query. -/
structure Plain (sch : TnScheme) (a : Authority) (l : Location) : Prop where
  user : a.userinfo = none
  host : 58 ∉ a.host
  noPort : a.port = none → sch = .http
  port : a.port ≠ some []
  path : l.path = [] → l.query = none

/-- The text of an absolute URL. -/
theorem text_uri (scheme : l.scheme = some (sch, letters)) (authority : l.authority = some a) :
    l.text = letters ++ 58 :: 47 :: 47 :: (a.text ++ l.tail) := by
  rw [Location.text, scheme, authority]
  simp

/-- How an absolute URL is read. -/
theorem resolve_uri (scheme : l.scheme = some (sch, letters)) (authority : l.authority = some a) :
    urlScheme ((l.text.take 255).dropWhile isSpace) = (sch, behindScheme letters a l) ∧
      tnHttpResolveRedirect cur (l.text.take 255) = tnHttpParseUrl (l.text.take 255) := by
  have spelled := l.letters (sch, letters) scheme
  have length : letters.length = (schemeWord sch).length := by
    rw [← congrArg List.length spelled, List.length_map]
  have short : letters.length ≤ 5 := by
    rw [length]
    cases sch <;> decide
  have cut : l.text.take 255 = letters ++ 58 :: 47 :: 47 :: behindScheme letters a l := by
    rw [text_uri scheme authority, List.take_append, List.take_of_length_le (by omega), behindScheme]
    obtain ⟨k, hk⟩ : ∃ k, 255 - letters.length = k + 3 := ⟨252 - letters.length, by omega⟩
    have hk' : 252 - letters.length = k := by omega
    rw [hk, hk']
    rfl
  have plain : (l.text.take 255).dropWhile isSpace = l.text.take 255 :=
    dropWhile_unspaced fun c hc => l.isBlank c (List.mem_of_mem_take hc)
  obtain ⟨https, http⟩ := ciStarts_uri spelled (behindScheme letters a l)
  rw [tnHttpResolveRedirect, plain, cut]
  cases sch with
  | http =>
    have four : letters.length = 4 := length
    constructor
    · rw [urlScheme, if_neg (mt https.mp nofun), if_pos (http.mpr rfl), List.drop_append, four,
        List.drop_eq_nil_of_le (by omega)]
      rfl
    · exact if_pos (Or.inl (http.mpr rfl))
  | https =>
    have five : letters.length = 5 := length
    constructor
    · rw [urlScheme, if_pos (https.mpr rfl), List.drop_append, five, List.drop_eq_nil_of_le (by omega)]
      rfl
    · exact if_pos (Or.inr (https.mpr rfl))

/-- Where it leads. -/
theorem target_uri (scheme : l.scheme = some (sch, letters)) (authority : l.authority = some a) :
    target cur l = { scheme := sch, host := a.host, port := a.site.2.getD (defaultPort sch),
                     path := (if l.path = [] then [47] else l.path) ++ queryText l.query } := by
  rw [target, Location.reference, scheme, authority]
  rfl

/-- No byte of an authority ends it. -/
theorem Authority.plain (a : Authority) : ∀ c ∈ a.text, c ≠ 47 := by
  have host : ∀ c, endsAuthority c = false → c ≠ 47 := by
    rintro c ends rfl
    exact absurd ends (by decide)
  intro c hc
  rw [Authority.text, List.mem_append, List.mem_append] at hc
  rcases hc with user | mem | port
  · cases info : a.userinfo with
    | none =>
      rw [info] at user
      cases user
    | some u =>
      rw [info] at user
      rcases List.mem_append.mp user with mem | mem
      · exact host c (a.user_plain u info c mem).1
      · rw [List.mem_singleton.mp mem]
        decide
  · exact host c (a.host_plain c mem).1
  · cases given : a.port with
    | none =>
      rw [given] at port
      cases port
    | some p =>
      rw [given] at port
      rcases List.mem_cons.mp port with rfl | mem
      · decide
      · rintro rfl
        exact absurd (a.port_digit p given 47 mem) (by decide)

theorem not_isHostByte_digit {c : UInt8} (digit : isDigit c = true) : c ≠ 63 ∧ c ≠ 64 := by
  constructor <;>
  · rintro rfl
    exact absurd digit (by decide)

/-- A path in front of a query starts what is behind the authority. -/
theorem tail_head (authority : l.authority = some a) (path : l.path = [] → l.query = none) :
    ∀ c ∈ l.tail.head?, c = 47 := by
  intro c hc
  rcases l.rooted (by rw [authority]; exact nofun) with empty | slash
  · rw [Location.tail, empty, path empty] at hc
    cases hc
  · obtain ⟨p, text⟩ := List.head?_eq_some_iff.mp slash
    rw [Location.tail, text] at hc
    exact (Option.some.inj hc).symm

/-- How the client reads an authority without a user and with a host that has no colon. -/
theorem read_authority (user : a.userinfo = none) (host : 58 ∉ a.host)
    (tail : ∀ c ∈ l.tail.head?, c = 47) :
    (a.text ++ l.tail).takeWhile isHostByte = a.host ∧
      (a.text ++ l.tail).dropWhile isHostByte = (a.port.elim [] fun p => 58 :: p) ++ l.tail := by
  have bytes : ∀ c ∈ a.host, isHostByte c = true := by
    intro c hc
    obtain ⟨ends, -, -⟩ := a.host_plain c hc
    simp only [isHostByte, Bool.and_eq_true, bne_iff_ne]
    constructor
    · rintro rfl
      exact host hc
    · rintro rfl
      exact absurd ends (by decide)
  have text : a.text ++ l.tail = a.host ++ ((a.port.elim [] fun p => 58 :: p) ++ l.tail) := by
    rw [Authority.text, user]
    simp
  have stop : ∀ c ∈ ((a.port.elim [] fun p => 58 :: p) ++ l.tail).head?, isHostByte c = false := by
    intro c hc
    cases given : a.port with
    | none =>
      rw [given] at hc
      rw [tail c hc]
      rfl
    | some p =>
      rw [given] at hc
      obtain rfl : 58 = c := Option.some.inj hc
      rfl
  rw [text, List.takeWhile_append_of_pos bytes, List.dropWhile_append_of_pos bytes]
  generalize (a.port.elim [] fun p => 58 :: p) ++ l.tail = rest at stop
  cases rest with
  | nil => exact ⟨List.append_nil _, rfl⟩
  | cons c rest =>
    have := stop c rfl
    rw [List.takeWhile_cons_of_neg (by simp [this]), List.dropWhile_cons_of_neg (by simp [this]),
      List.append_nil]
    exact ⟨rfl, rfl⟩

/-- The digits of a port end at the path. -/
theorem read_digits {p : List UInt8} (given : a.port = some p) (tail : ∀ c ∈ l.tail.head?, c = 47) :
    (p ++ l.tail).takeWhile isDigit = p ∧ (p ++ l.tail).dropWhile isDigit = l.tail := by
  have digits := a.port_digit p given
  rw [List.takeWhile_append_of_pos digits, List.dropWhile_append_of_pos digits]
  cases rest : l.tail with
  | nil => exact ⟨List.append_nil _, rfl⟩
  | cons c rest =>
    obtain rfl : c = 47 := tail c (by rw [rest]; rfl)
    rw [List.takeWhile_cons_of_neg (by decide), List.dropWhile_cons_of_neg (by decide), List.append_nil]
    exact ⟨rfl, rfl⟩

/-- Where the client finds the host of an absolute URL, the URL is plain. -/
theorem plain_of_read (authority : l.authority = some a) (accepted : ¬ Refused (a.text ++ l.tail))
    (host : (a.text ++ l.tail).takeWhile isHostByte = a.host)
    (port : (portPath (a.text ++ l.tail)).1 = a.site.2.getD (defaultPort sch)) : Plain sch a l := by
  -- neither an at sign nor a question mark can be in front of the path
  have front : ∀ c ∈ (a.text ++ l.tail).takeWhile (· != 47), c ≠ 63 ∧ c ≠ 64 := by
    have hostPlain : ∀ c ∈ a.host, c ≠ 63 ∧ c ≠ 64 := by
      intro c hc
      obtain ⟨ends, at_, -⟩ := a.host_plain c hc
      refine ⟨?_, at_⟩
      rintro rfl
      exact absurd ends (by decide)
    intro c hc
    rcases authority_of_accepted accepted with all | ⟨ds, digits, all⟩
    · rw [all, host] at hc
      exact hostPlain c hc
    · rw [all, host, List.mem_append, List.mem_cons] at hc
      rcases hc with mem | rfl | mem
      · exact hostPlain c mem
      · decide
      · exact not_isHostByte_digit (digits c mem)
  have authorityIn : ∀ c ∈ a.text, (c != 47) = true := fun c hc => bne_iff_ne.mpr (a.plain c hc)
  rw [List.takeWhile_append_of_pos authorityIn] at front
  have colon : 58 ∉ a.host := by
    intro mem
    rw [← host] at mem
    exact absurd (List.mem_takeWhile_imp mem) (by decide)
  have user : a.userinfo = none := by
    cases info : a.userinfo with
    | none => rfl
    | some u =>
      have mem : (64 : UInt8) ∈ a.text := by
        rw [Authority.text, info]
        simp
      exact absurd rfl (front 64 (List.mem_append_left _ mem)).2
  have path : l.path = [] → l.query = none := by
    intro empty
    cases given : l.query with
    | none => rfl
    | some q =>
      have mark : l.tail = 63 :: q := by
        rw [Location.tail, empty, given]
        rfl
      rw [mark, List.takeWhile_cons_of_pos (by decide)] at front
      exact absurd rfl (front 63 (List.mem_append_right _ List.mem_cons_self)).1
  have slash := tail_head authority path
  obtain ⟨-, rest⟩ := read_authority user colon slash
  refine ⟨user, colon, fun none => ?_, fun empty => ?_, path⟩
  · -- the client takes 80 for the port
    have site : a.site.2 = Option.none := by
      rw [Authority.site, none]
      rfl
    rw [site, portPath, rest, none] at port
    have eighty : (80 : Nat) = defaultPort sch := by
      cases tail : l.tail with
      | nil =>
        rw [tail] at port
        exact port
      | cons c p =>
        obtain rfl : c = 47 := slash c (by rw [tail]; rfl)
        rw [tail] at port
        exact port
    cases sch with
    | http => rfl
    | https => exact absurd eighty (by decide)
  · -- a colon without a port is refused
    rw [empty] at rest
    refine accepted (Or.inr (Or.inr ⟨l.tail, rest, Or.inl ?_⟩))
    exact (read_digits empty slash).1

/-- A plain URL whose host fits is read as it is meant. -/
theorem read_of_plain (authority : l.authority = some a) (plain : Plain sch a l) (fits : a.host.length ≤ 127) :
    ¬ Refused (a.text ++ l.tail) ∧ (a.text ++ l.tail).takeWhile isHostByte = a.host ∧
      portPath (a.text ++ l.tail) = (a.site.2.getD (defaultPort sch),
        (if l.path = [] then [47] else l.path) ++ queryText l.query) := by
  have slash := tail_head authority plain.path
  obtain ⟨host, rest⟩ := read_authority plain.user plain.host slash
  have path : pathOf l.tail = (if l.path = [] then [47] else l.path) ++ queryText l.query := by
    rw [pathOf, takeWhile_unspaced l.isBlank_tail]
    by_cases empty : l.path = []
    · rw [if_pos empty, Location.tail, empty, plain.path empty]
      rfl
    · rw [if_neg empty, if_neg]
      · rfl
      · intro none
        exact empty (List.append_eq_nil_iff.mp none).1
  refine ⟨?_, host, ?_⟩
  · rintro (none | long | ⟨after, colon, wrong⟩)
    · exact a.host_ne (host ▸ none)
    · rw [host] at long
      omega
    · rw [rest] at colon
      cases given : a.port with
      | none =>
        rw [given] at colon
        have := slash 58 (by rw [show l.tail = 58 :: after from colon]; rfl)
        exact absurd this (by decide)
      | some p =>
        rw [given] at colon
        obtain rfl : p ++ l.tail = after := (List.cons.inj colon).2
        obtain ⟨taken, left⟩ := read_digits given slash
        rw [taken, left] at wrong
        rcases wrong with none | large | ⟨c, head, other⟩
        · exact plain.port (by rw [given, none])
        · exact absurd (a.port_small p given) (by omega)
        · exact other (slash c head)
  · rw [portPath, rest, ← path]
    cases given : a.port with
    | none =>
      have site : a.site.2 = Option.none := by
        rw [Authority.site, given]
        rfl
      rw [site, plain.noPort given]
      cases tail : l.tail with
      | nil => rfl
      | cons c p =>
        obtain rfl : c = 47 := slash c (by rw [tail]; rfl)
        rfl
    | some p =>
      have some : p ≠ [] := fun none => plain.port (by rw [given, none])
      have site : a.site.2 = Option.some (bytesValue p) := by
        rw [Authority.site, given]
        simp [some]
      obtain ⟨taken, left⟩ := read_digits given slash
      show (bytesValue ((p ++ l.tail).takeWhile isDigit), pathOf ((p ++ l.tail).dropWhile isDigit)) = _
      rw [taken, left, site]
      rfl

/-- The client follows an absolute URL that fits exactly when it is plain, and refuses one that does not
fit exactly when its authority, as far as it is kept, is refused. -/
theorem follows_uri (scheme : l.scheme = some (sch, letters)) (authority : l.authority = some a) :
    Follows cur l ↔ (Fits cur l → Plain sch a l) ∧ (¬ Fits cur l → Refused (behindScheme letters a l)) := by
  obtain ⟨start, resolved⟩ := @resolve_uri l a sch letters cur scheme authority
  have short : (behindScheme letters a l).length ≤ 255 := by
    rw [behindScheme, List.length_take]
    omega
  obtain ⟨refused, accepted⟩ := tnHttpParseUrl_eq start short
  have goal := @target_uri l a sch letters cur scheme authority
  -- what fits is kept whole
  have whole : Fits cur l → behindScheme letters a l = a.text ++ l.tail := by
    intro fits
    have length := fits.1
    rw [text_uri scheme authority, List.length_append] at length
    simp only [List.length_cons] at length
    rw [behindScheme, List.take_of_length_le (by omega)]
  rw [Follows, resolved]
  refine and_congr ⟨fun follows fits => ?_, fun plain fits => ?_⟩
    ⟨fun rejects large => ?_, fun bad large => refused (bad large)⟩
  · rw [whole fits] at refused accepted
    have read := follows fits
    have fine : ¬ Refused (a.text ++ l.tail) := by
      intro bad
      rw [refused bad] at read
      cases read
    rw [accepted fine, goal] at read
    have fields := TnUrl.mk.inj (Option.some.inj read)
    exact plain_of_read authority fine fields.2.1 fields.2.2.1
  · have host : a.host.length ≤ 127 := by
      have := fits.2.1
      rwa [goal] at this
    obtain ⟨fine, read, port⟩ := read_of_plain authority (plain fits) host
    rw [whole fits] at accepted
    rw [accepted fine, goal, read, port]
  · by_contra fine
    exact absurd ((accepted fine).symm.trans (rejects large)) nofun

/-! ## Paths and queries -/

/-- What is behind the path of the current URL: its query. -/
def afterPath (cur : TnUrl) : List UInt8 := cur.path.dropWhile isPathByte

/-- The base path and what follows it. -/
theorem path_split (cur : TnUrl) : (base cur).path ++ afterPath cur = cur.path :=
  List.takeWhile_append_dropWhile

theorem upToSlash_eq (slash : cur.path.head? = some 47) : upToSlash cur.path = directory cur.path :=
  if_pos (List.mem_of_head? slash)

/-- The base path begins with a slash. -/
theorem base_path_head (slash : cur.path.head? = some 47) : (base cur).path.head? = some 47 := by
  obtain ⟨p, path⟩ := List.head?_eq_some_iff.mp slash
  show (cur.path.takeWhile isPathByte).head? = some 47
  rw [path, List.takeWhile_cons_of_pos (by decide)]
  rfl

/-- A path with a slash has a directory. -/
theorem directory_pos {path : List UInt8} (slash : 47 ∈ path) : 0 < (directory path).length := by
  have := directory_length_lt (a := []) slash
  rwa [List.nil_append] at this

/-- The directory of the whole path is that of the path without the query, unless a slash is in the query. -/
theorem directory_cur (cur : TnUrl) :
    (47 ∉ afterPath cur → directory cur.path = directory (base cur).path) ∧
      (47 ∈ afterPath cur → (base cur).path.length < (directory cur.path).length) := by
  rw [← path_split cur]
  exact ⟨directory_append, directory_length_lt⟩

theorem mem_takeWhile_take {f : UInt8 → Bool} (mem : c ∈ (s.take n).takeWhile f) : c ∈ s.takeWhile f := by
  rw [← List.take_append_drop n s, List.takeWhile_append]
  split
  · exact List.mem_append_left _ (List.takeWhile_subset _ mem)
  · exact mem

/-- A reference that the client joins to the directory of the current path. -/
theorem follows_joined {D : List UInt8} (host : cur.host.length ≤ 127) (slash : cur.path.head? = some 47)
    (goal : target cur l = { cur with path := D ++ l.text }) (head : l.text.head? ≠ some 47)
    (plain : 58 ∉ l.text.takeWhile isSegmentByte) :
    (Fits cur l ↔ l.text.length ≤ 255 ∧ D.length + l.text.length ≤ 255) ∧
      (Follows cur l ↔ (Fits cur l → directory cur.path = D) ∧
        (¬ Fits cur l → 255 < (directory cur.path).length + l.text.length)) := by
  have fitsIff : Fits cur l ↔ l.text.length ≤ 255 ∧ D.length + l.text.length ≤ 255 := by
    rw [Fits, goal, List.length_append]
    exact and_congr_right fun _ => ⟨fun h => h.2, fun h => ⟨host, h⟩⟩
  have positive := directory_pos (List.mem_of_head? slash)
  have cutHead : (l.text.take 255).head? ≠ some 47 := by
    rw [List.head?_take]
    exact head
  have cutPlain : 58 ∉ (l.text.take 255).takeWhile isSegmentByte := fun mem =>
    plain (mem_takeWhile_take mem)
  have result := @resolve_relative _ cur (fun c hc => l.isBlank c (List.mem_of_mem_take hc)) cutPlain
  rw [if_neg cutHead, upToSlash_eq slash] at result
  refine ⟨fitsIff, ?_⟩
  rw [Follows, result, goal]
  refine and_congr (imp_congr_right fun fits => ?_) (imp_congr_right fun large => ?_)
  · obtain ⟨short, room⟩ := fitsIff.mp fits
    rw [List.take_of_length_le short]
    constructor
    · intro same
      split at same
      · cases same
      · exact List.append_cancel_right (TnUrl.mk.inj (Option.some.inj same)).2.2.2
    · rintro rfl
      rw [if_neg (by omega)]
  · rw [List.length_take]
    constructor
    · intro rejected
      split at rejected
      · omega
      · cases rejected
    · intro long
      rw [if_pos (by omega)]

theorem text_relative (scheme : l.scheme = none) (authority : l.authority = none) : l.text = l.tail := by
  rw [Location.text, scheme, authority]
  rfl

/-- A reference keeps the site of the base. -/
theorem target_relative (scheme : l.scheme = none) (authority : l.authority = none) :
    target cur l = { cur with path := (target cur l).path } := by
  rw [target, resolve, Location.reference, scheme, authority]
  dsimp only [Option.map_none]
  split_ifs <;> rfl

/-- The colon of a relative path is behind its first segment. -/
theorem plain_relative (scheme : l.scheme = none) (authority : l.authority = none) :
    58 ∉ l.text.takeWhile isSegmentByte := by
  rw [text_relative scheme authority, Location.tail]
  intro mem
  have first := l.noScheme scheme authority
  rw [List.takeWhile_append] at mem
  have path : ∀ x, x ∈ l.path.takeWhile isSegmentByte → x ∈ l.path.takeWhile (· != 47) := by
    have same : l.path.takeWhile isSegmentByte = l.path.takeWhile (· != 47) := by
      have plain := l.path_plain
      generalize l.path = p at plain
      induction p with
      | nil => rfl
      | cons c p ih =>
        have mark := (plain c List.mem_cons_self).1
        have byte : isSegmentByte c = (c != 47) := by
          rw [isSegmentByte, bne_iff_ne.mpr mark, Bool.and_true]
        rw [List.takeWhile_cons, List.takeWhile_cons, byte, ih fun d hd => plain d (List.mem_cons_of_mem c hd)]
    rw [same]
    exact fun _ h => h
  split at mem
  · rename_i all
    have whole := List.Sublist.eq_of_length (List.takeWhile_sublist isSegmentByte) all
    rcases List.mem_append.mp mem with mem | mem
    · rw [← whole] at mem
      exact first (path 58 mem)
    · cases given : l.query with
      | none =>
        rw [given] at mem
        cases mem
      | some q =>
        rw [given] at mem
        rw [queryText, Option.elim_some, List.takeWhile_cons_of_neg (by decide)] at mem
        cases mem
  · exact first (path 58 mem)

/-- The client never follows a reference with an authority: it takes it for a path. -/
theorem follows_network (scheme : l.scheme = none) (authority : l.authority = some a) : ¬ Follows cur l := by
  have text : l.text = 47 :: 47 :: (a.text ++ l.tail) := by
    rw [Location.text, scheme, authority]
    rfl
  have cut : l.text.take 255 = 47 :: (l.text.take 255).tail := by
    rw [text]
    rfl
  have plain : 58 ∉ (l.text.take 255).takeWhile isSegmentByte := by
    rw [cut, List.takeWhile_cons_of_neg (by decide)]
    exact List.not_mem_nil
  have result := @resolve_relative _ cur (fun c hc => l.isBlank c (List.mem_of_mem_take hc)) plain
  have head : (l.text.take 255).head? = some 47 := by rw [cut]; rfl
  have short : ¬ (l.text.take 255).length > 255 := by
    rw [List.length_take]
    omega
  rw [if_pos head, if_neg short] at result
  rintro ⟨follows, rejects⟩
  by_cases fits : Fits cur l
  · -- the path that the client requests is longer than the target's
    have same := follows fits
    have goal : (target cur l).path = (if l.path = [] then [47] else l.path) ++ queryText l.query := by
      rw [target, Location.reference, scheme, authority]
      rfl
    rw [result, List.take_of_length_le fits.1] at same
    have paths := congrArg TnUrl.path (Option.some.inj same)
    have lengths := congrArg List.length (paths.trans goal)
    have host : 0 < a.text.length := by
      have := List.length_pos_iff.mpr a.host_ne
      rw [Authority.text, List.length_append, List.length_append]
      omega
    dsimp only at lengths
    rw [text, Location.tail] at lengths
    split at lengths <;> simp only [List.length_cons, List.length_append, List.length_nil] at lengths <;> omega
  · exact absurd (result.symm.trans (rejects fits)) nofun

/-- A path from the root is followed when it fits. -/
theorem follows_root (host : cur.host.length ≤ 127) (scheme : l.scheme = none) (authority : l.authority = none)
    (root : l.path.head? = some 47) : Follows cur l ↔ l.text.length ≤ 255 := by
  have text := text_relative scheme authority
  have some : l.path ≠ [] := by
    intro none
    rw [none] at root
    cases root
  have path : (target cur l).path = l.text := by
    rw [target, resolve, Location.reference, scheme, authority, text]
    dsimp only [Option.map_none]
    rw [if_neg some, if_pos root]
    exact congrArg (· ++ _) (if_neg some)
  have head : (l.text.take 255).head? = Option.some 47 := by
    rw [List.head?_take, text, Location.tail, List.head?_append, root]
    rfl
  have plain : 58 ∉ (l.text.take 255).takeWhile isSegmentByte := fun mem =>
    plain_relative scheme authority (mem_takeWhile_take mem)
  have result := @resolve_relative _ cur (fun c hc => l.isBlank c (List.mem_of_mem_take hc)) plain
  have short : ¬ (l.text.take 255).length > 255 := by
    rw [List.length_take]
    omega
  rw [if_pos head, if_neg short] at result
  have goal := @target_relative l cur scheme authority
  rw [path] at goal
  constructor
  · rintro ⟨-, rejects⟩
    by_contra long
    exact absurd (result.symm.trans (rejects fun fits => long fits.1)) nofun
  · intro fitting
    have fits : Fits cur l := by
      rw [Fits, goal]
      exact ⟨fitting, host, fitting⟩
    refine ⟨fun _ => ?_, fun large => absurd fits large⟩
    rw [result, List.take_of_length_le fitting, goal]

/-- A path is merged with the current one where a slash in the current query does not get in between. -/
theorem follows_merge (host : cur.host.length ≤ 127) (slash : cur.path.head? = some 47)
    (scheme : l.scheme = none) (authority : l.authority = none) (nonempty : l.path ≠ [])
    (relative : l.path.head? ≠ some 47) : Follows cur l ↔ (Fits cur l → 47 ∉ afterPath cur) := by
  have text := text_relative scheme authority
  have baseSlash := List.mem_of_head? (base_path_head slash)
  have path : (target cur l).path = directory (base cur).path ++ l.text := by
    have full : directory (base cur).path ++ l.path ≠ [] := List.append_ne_nil_of_right_ne_nil _ nonempty
    rw [target, resolve, Location.reference, scheme, authority, text]
    dsimp only [Option.map_none]
    rw [if_neg nonempty, if_neg relative]
    dsimp only
    rw [if_neg full, List.append_assoc]
    rfl
  have goal := @target_relative l cur scheme authority
  rw [path] at goal
  have head : l.text.head? ≠ Option.some 47 := by
    obtain ⟨c, p, split⟩ := List.exists_cons_of_ne_nil nonempty
    rw [text, Location.tail, split]
    rw [split] at relative
    exact relative
  obtain ⟨fitsIff, joined⟩ := follows_joined host slash goal head (plain_relative scheme authority)
  obtain ⟨same, longer⟩ := directory_cur cur
  have shorter := (directory_start (base cur).path).length_le
  rw [joined]
  constructor
  · rintro ⟨follows, -⟩ fits inQuery
    have := longer inQuery
    rw [follows fits] at this
    omega
  · intro plain
    refine ⟨fun fits => same (plain fits), fun large => ?_⟩
    have positive := directory_pos (List.mem_of_head? slash)
    have atLeast : (directory (base cur).path).length ≤ (directory cur.path).length := by
      by_cases inQuery : 47 ∈ afterPath cur
      · have := longer inQuery
        omega
      · rw [same inQuery]
    rw [fitsIff] at large
    omega

/-- A query replaces the current one where the current path is a directory and the current query has no
slash. Otherwise it is joined to another path, or refused when that is too long. -/
theorem follows_query (host : cur.host.length ≤ 127) (slash : cur.path.head? = some 47)
    (scheme : l.scheme = none) (authority : l.authority = none) (empty : l.path = []) :
    Follows cur l ↔ (47 ∉ afterPath cur ∧ (base cur).path.getLast? = some 47) ∨
      (¬ Fits cur l ∧ 255 < (directory cur.path).length + l.text.length) := by
  have text := text_relative scheme authority
  obtain ⟨q, query⟩ := Option.ne_none_iff_exists'.mp (l.something authority empty)
  have baseSlash := base_path_head slash
  have some : (base cur).path ≠ [] := by
    intro nil
    rw [nil] at baseSlash
    cases baseSlash
  have mark : l.text = 63 :: q := by
    rw [text, Location.tail, empty, query]
    rfl
  have path : (target cur l).path = (base cur).path ++ l.text := by
    rw [target, resolve, Location.reference, scheme, authority, mark, query]
    dsimp only [Option.map_none]
    rw [if_pos empty]
    dsimp only
    rw [if_neg some]
    rfl
  have goal := @target_relative l cur scheme authority
  rw [path] at goal
  have head : l.text.head? ≠ Option.some 47 := by
    rw [mark, List.head?_cons]
    exact fun same => absurd (Option.some.inj same) (by decide)
  obtain ⟨fitsIff, joined⟩ := follows_joined host slash goal head (plain_relative scheme authority)
  obtain ⟨same, longer⟩ := directory_cur cur
  rw [joined]
  constructor
  · rintro ⟨follows, rejects⟩
    by_cases fits : Fits cur l
    · have whole := follows fits
      have outside : 47 ∉ afterPath cur := by
        intro inQuery
        have := longer inQuery
        rw [whole] at this
        omega
      refine Or.inl ⟨outside, ?_⟩
      rcases directory_getLast? (base cur).path with nil | last
      · exact absurd ((whole.symm.trans (same outside)).trans nil) some
      · rwa [← same outside, whole] at last
    · exact Or.inr ⟨fits, rejects fits⟩
  · rintro (⟨outside, last⟩ | ⟨large, long⟩)
    · have whole : directory cur.path = (base cur).path := by
        rw [same outside]
        obtain ⟨behind, split, plain⟩ := directory_spec (base cur).path
        cases behind using List.reverseRecOn with
        | nil => rw [List.append_nil] at split; exact split.symm
        | append_singleton behind c _ =>
          rw [split, ← List.append_assoc, List.getLast?_concat] at last
          obtain rfl : c = 47 := Option.some.inj last
          exact absurd (List.mem_append_right behind (List.mem_singleton_self 47)) plain
      refine ⟨fun _ => whole, fun large => ?_⟩
      have positive := directory_pos (List.mem_of_head? slash)
      rw [fitsIff, ← whole] at large
      omega
    · exact ⟨fun fits => absurd fits large, fun _ => long⟩

/-! ## The result -/

/-- The values with which the client goes to the target. -/
def Harmless (cur : TnUrl) (l : Location) : Prop :=
  match l.scheme, l.authority with
  | some (sch, letters), some a =>
    (Fits cur l → Plain sch a l) ∧ (¬ Fits cur l → Refused (behindScheme letters a l))
  | some _, none => True
  | none, some _ => False
  | none, none =>
    if l.path = [] then
      (47 ∉ afterPath cur ∧ (base cur).path.getLast? = some 47) ∨
        (¬ Fits cur l ∧ 255 < (directory cur.path).length + l.text.length)
    else if l.path.head? = some 47 then l.text.length ≤ 255
    else Fits cur l → 47 ∉ afterPath cur

/-- A redirect from a URL that was accepted leads to its target exactly for these values. -/
theorem follows_iff {url : List UInt8} {cur : TnUrl} (accepted : tnHttpParseUrl url = some cur) (l : Location) :
    Follows cur l ↔ Harmless cur l := by
  obtain ⟨host, slash, -⟩ := accepted_cur accepted
  rw [Harmless]
  -- by what the location begins with: a scheme, an authority, a path or a query
  cases scheme : l.scheme with
  | some s =>
    obtain ⟨sch, letters⟩ := s
    cases authority : l.authority with
    | some a => exact follows_uri scheme authority
    | none => exact absurd authority (l.full (by rw [scheme]; exact nofun))
  | none =>
    cases authority : l.authority with
    | some a => exact iff_false_intro (follows_network scheme authority)
    | none =>
      dsimp only
      split_ifs with empty root
      · exact follows_query host slash scheme authority empty
      · exact follows_root host scheme authority root
      · exact follows_merge host slash scheme authority empty root

/-- A path is merged with the current one, whatever the current query. -/
theorem follows_sibling :
    let cur : TnUrl := { scheme := .http, host := ascii "h", port := 80, path := ascii "/d/x?q=1" }
    let l : Location :=
      { scheme := none, authority := none, path := ascii "y", query := none, letters := nofun,
        full := fun h => absurd rfl h, rooted := fun h => absurd rfl h, single := by decide,
        noScheme := by decide, something := by decide,
        path_plain := List.forall_mem_singleton.mpr (by decide), query_plain := nofun }
    Follows cur l ∧ (target cur l).path = ascii "/d/y" :=
  ⟨(@follows_iff (ascii "http://h/d/x?q=1") _ (by decide) _).mpr fun _ => by decide, by decide⟩

/-- A reference with an authority is taken for a path on the same host. -/
theorem not_forall_follows : ¬ ∀ (url : List UInt8) (cur : TnUrl) (l : Location),
    tnHttpParseUrl url = some cur → Follows cur l := by
  intro h
  let cur : TnUrl := { scheme := .http, host := ascii "h", port := 80, path := ascii "/d/x" }
  let a : Authority :=
    { userinfo := none, host := ascii "e", port := none, host_ne := by decide,
      host_plain := List.forall_mem_singleton.mpr (by decide),
      host_colon := by decide, user_plain := nofun, port_digit := nofun, port_small := nofun }
  let l : Location :=
    { scheme := none, authority := some a, path := ascii "/p", query := none, letters := nofun,
      full := nofun, rooted := fun _ => Or.inr rfl, single := nofun, noScheme := nofun,
      something := nofun, query_plain := nofun,
      path_plain := List.forall_mem_cons.mpr ⟨by decide, List.forall_mem_singleton.mpr (by decide)⟩ }
  exact follows_network rfl rfl (h (ascii "http://h/d/x") cur l (by decide))

end Http

end Tolunnet
