import Mathlib.Data.List.Infix
import Mathlib.Data.List.TakeWhile
import Tolunnet.Inet.Numbers

/-!
# `Tolunnet.Cmds.Pasv`: the reply to PASV

`ftp_parse_pasv` takes six numbers behind the first `(` of a reply. `pasvParts` is its loop: a run of
digits, which may be empty, cut to 255, and a comma behind it if there is one. The first four numbers
are an address, which has to be that of the peer unless PASVANY is on, and the last two are a port.

A number above 255 is cut, not refused, and nothing is asked of what follows the sixth. So the reply
need not be one that a server should send (`not_forall_exactReply`). `lenient` says what the parser does
with numbers of any size.
-/

set_option autoImplicit false

namespace Tolunnet

namespace Ftp

open Http (isDigit)
open Numbers (bytesValue)

/-! ## The parser -/

/-- The digit loop, in 32 bits. -/
def digitRun (digits : List UInt8) : Nat :=
  digits.foldl (fun v c => (v * 10 + (c.toNat - 48)) % 2 ^ 32) 0

/-- The loop over the numbers, `n` of them at most. -/
def pasvParts : Nat → List UInt8 → List Nat
  | 0, _ => []
  | _ + 1, [] => []
  | n + 1, p =>
    let v := digitRun (p.takeWhile isDigit)
    let rest := p.dropWhile isDigit
    (if v > 255 then 255 else v) :: pasvParts n (if rest.head? = some 44 then rest.tail else rest)

/-- What `ftp_parse_pasv` returns: 0, with a message when the address is another one, or 1 and the
address and port that it stores. -/
inductive PasvResult where
  | malformed
  | refused (parsedIp peerIp : Nat)
  | ok (ip port : Nat)
  deriving Repr, DecidableEq

/-- `ftp_parse_pasv`. -/
def ftpParsePasv (resp : List UInt8) (peerIp : Nat) (pasvAny : Bool) : PasvResult :=
  match resp.dropWhile (· != 40) with
  | [] => .malformed
  | _ :: p =>
    match pasvParts 6 p with
    | [h1, h2, h3, h4, p1, p2] =>
      let parsedIp := h1 <<< 24 ||| h2 <<< 16 ||| h3 <<< 8 ||| h4
      let parsedPort := (p1 <<< 8 ||| p2) % 2 ^ 16
      if !pasvAny ∧ peerIp ≠ 0 ∧ parsedIp ≠ peerIp then .refused parsedIp peerIp
      else .ok parsedIp parsedPort
    | _ => .malformed

/-! ## Replies -/

/-- A decimal number. -/
structure IsNumber (digits : List UInt8) : Prop where
  nonempty : digits ≠ []
  digit : ∀ c ∈ digits, isDigit c

/-- Numbers with commas between them. -/
def commas : List (List UInt8) → List UInt8
  | [] => []
  | [field] => field
  | field :: fields => field ++ 44 :: commas fields

/-- A reply: what is in front of the first parenthesis, the numbers, and the rest. -/
structure Reply where
  before : List UInt8
  fields : List (List UInt8)
  rest : List UInt8
  open_ : 40 ∉ before
  number : ∀ field ∈ fields, IsNumber field
  stops : ∀ c ∈ rest.head?, isDigit c = false

namespace Reply

def text (r : Reply) : List UInt8 := r.before ++ 40 :: (commas r.fields ++ r.rest)

/-- The numbers of the reply. -/
def numbers (r : Reply) : List Nat := r.fields.map bytesValue

end Reply

/-- The address that four numbers denote. -/
def address : List Nat → Nat
  | h1 :: h2 :: h3 :: h4 :: _ => ((h1 * 256 + h2) * 256 + h3) * 256 + h4
  | _ => 0

/-- The port that the last two of six numbers denote. -/
def portOf : List Nat → Nat
  | [_, _, _, _, p1, p2] => p1 * 256 + p2
  | _ => 0

/-! ## What the loop takes -/

variable {c : UInt8} {p field rest : List UInt8} {fields : List (List UInt8)} {n peer : Nat}
  {any : Bool} {resp : List UInt8}

theorem digitRun_eq (digits : List UInt8) : digitRun digits = bytesValue digits % 2 ^ 32 := by
  induction digits using List.reverseRecOn with
  | nil => rfl
  | append_singleton ds c ih =>
    simp only [digitRun, bytesValue, List.foldl_append, List.foldl_cons, List.foldl_nil] at ih ⊢
    rw [ih]
    omega

/-- A comma ends a number. -/
theorem stops_comma (p : List UInt8) : ∀ c ∈ (44 :: p).head?, isDigit c = false := by
  intro c hc
  obtain rfl : 44 = c := Option.some.inj hc
  rfl

/-- A number is one turn of the loop. -/
theorem takeWhile_field (number : IsNumber field) (stops : ∀ c ∈ rest.head?, isDigit c = false) :
    (field ++ rest).takeWhile isDigit = field ∧ (field ++ rest).dropWhile isDigit = rest := by
  have all : field.takeWhile isDigit = field := List.takeWhile_eq_self_iff.mpr number.digit
  have none : field.dropWhile isDigit = [] := List.dropWhile_eq_nil_iff.mpr number.digit
  cases rest with
  | nil =>
    rw [List.append_nil]
    exact ⟨all, none⟩
  | cons c rest =>
    have stop : isDigit c = false := stops c rfl
    constructor
    · rw [List.takeWhile_append_of_pos number.digit, List.takeWhile_cons_of_neg (by simp [stop]),
        List.append_nil]
    · rw [List.dropWhile_append_of_pos number.digit, List.dropWhile_cons_of_neg (by simp [stop])]

theorem pasvParts_field (number : IsNumber field) (stops : ∀ c ∈ rest.head?, isDigit c = false) :
    pasvParts (n + 1) (field ++ rest) = min (bytesValue field % 2 ^ 32) 255 ::
      pasvParts n (if rest.head? = some 44 then rest.tail else rest) := by
  obtain ⟨taken, left⟩ := takeWhile_field number stops
  have cut : ∀ v : Nat, (if v > 255 then 255 else v) = min v 255 := by
    intro v
    split <;> omega
  obtain ⟨c, p, nonempty⟩ := List.exists_cons_of_ne_nil
    (List.append_ne_nil_of_left_ne_nil number.nonempty rest)
  rw [nonempty] at taken left ⊢
  rw [pasvParts, taken, left, digitRun_eq, cut]
  exact List.cons_ne_nil c p

/-- The loop takes the numbers one by one, each cut to 255. -/
theorem pasvParts_commas (number : ∀ field ∈ fields, IsNumber field)
    (stops : ∀ c ∈ rest.head?, isDigit c = false) (few : fields.length ≤ n)
    (full : fields.length < n → rest = []) :
    pasvParts n (commas fields ++ rest) = fields.map fun f => min (bytesValue f % 2 ^ 32) 255 := by
  induction fields generalizing n with
  | nil =>
    cases n with
    | zero => rfl
    | succ n =>
      rw [full (Nat.succ_pos n)]
      rfl
  | cons field fields ih =>
    obtain ⟨n, rfl⟩ := Nat.exists_eq_add_one_of_ne_zero (Nat.ne_of_gt (Nat.lt_of_lt_of_le (Nat.succ_pos _) few))
    have first := number field List.mem_cons_self
    have others := fun f hf => number f (List.mem_cons_of_mem field hf)
    have few' : fields.length ≤ n := Nat.le_of_succ_le_succ few
    cases fields with
    | nil =>
      show pasvParts (n + 1) (field ++ rest) = _
      rw [pasvParts_field first stops]
      -- behind the last number the loop is over, or the text is
      cases n with
      | zero => rfl
      | succ n =>
        rw [full (Nat.succ_lt_succ (Nat.succ_pos n))]
        rfl
    | cons second fields =>
      show pasvParts (n + 1) ((field ++ 44 :: commas (second :: fields)) ++ rest) = _
      rw [List.append_assoc, List.cons_append, pasvParts_field first (stops_comma _), List.head?_cons, if_pos rfl,
        List.tail_cons, ih others few' fun short => full (Nat.succ_lt_succ short)]
      rfl

/-- The text behind the first parenthesis. -/
theorem dropWhile_text (r : Reply) : r.text.dropWhile (· != 40) = 40 :: (commas r.fields ++ r.rest) := by
  have before : ∀ c ∈ r.before, (c != 40) = true := by
    intro c hc
    exact bne_iff_ne.mpr fun same => r.open_ (same ▸ hc)
  rw [Reply.text, List.dropWhile_append_of_pos before, List.dropWhile_cons_of_neg (by decide)]

/-- The digits behind the parenthesis are those of the first number. -/
theorem takeWhile_commas (r : Reply) (split : r.fields = field :: fields) :
    (commas r.fields ++ r.rest).takeWhile isDigit = field := by
  have number := r.number field (split ▸ List.mem_cons_self)
  rw [split]
  cases fields with
  | nil => exact (takeWhile_field number r.stops).1
  | cons second fields =>
    show ((field ++ 44 :: commas (second :: fields)) ++ r.rest).takeWhile isDigit = field
    rw [List.append_assoc, List.cons_append]
    exact (takeWhile_field number (stops_comma _)).1

theorem address_eq {a b c d : Nat} (hb : b < 256) (hc : c < 256) (hd : d < 256) :
    a <<< 24 ||| b <<< 16 ||| c <<< 8 ||| d = ((a * 256 + b) * 256 + c) * 256 + d := by
  have low : c <<< 8 ||| d = c * 256 + d := by
    rw [← Nat.shiftLeft_add_eq_or_of_lt (i := 8) hd, Nat.shiftLeft_eq]
  have mid : b <<< 16 ||| (c * 256 + d) = (b * 256 + c) * 256 + d := by
    rw [← Nat.shiftLeft_add_eq_or_of_lt (i := 16) (by omega), Nat.shiftLeft_eq]
    omega
  rw [Nat.or_assoc, Nat.or_assoc, low, mid, ← Nat.shiftLeft_add_eq_or_of_lt (i := 24) (by omega), Nat.shiftLeft_eq]
  omega

theorem port_eq {a b : Nat} (ha : a < 256) (hb : b < 256) : (a <<< 8 ||| b) % 2 ^ 16 = a * 256 + b := by
  rw [← Nat.shiftLeft_add_eq_or_of_lt (i := 8) hb, Nat.shiftLeft_eq]
  omega

/-! ## The result -/

/-- A reply as a server should send it. -/
def WellFormed (r : Reply) : Prop :=
  r.fields.length = 6 ∧ (∀ n ∈ r.numbers, n ≤ 255) ∧ r.rest.head? = some 41

/-- The parser takes exactly the well-formed replies, and those of the peer unless PASVANY is on. -/
def Exact (line : List UInt8) (peer : Nat) (any : Bool) : Prop :=
  ((∃ ip port, ftpParsePasv line peer any = .ok ip port) ↔
    ∃ r : Reply, r.text = line ∧ WellFormed r ∧ (any = true ∨ address r.numbers = peer)) ∧
  ∀ ip port, ftpParsePasv line peer any = .ok ip port →
    ∃ r : Reply, r.text = line ∧ WellFormed r ∧ ip = address r.numbers ∧ port = portOf r.numbers

/-- Numbers that are cut to a byte. -/
def cut (numbers : List Nat) : List Nat := numbers.map fun n => min n 255

/-- What the parser does with numbers of any size: those above 255 are taken as 255. A line that ends
before the sixth number is refused, and no address but that of the peer is taken while PASVANY is off.
A line that goes on where a number should be is not covered: an empty field counts as 0. -/
structure Lenient (line : List UInt8) (peer : Nat) (any : Bool) : Prop where
  taken : ∀ r : Reply, r.text = line → r.fields.length = 6 → (∀ n ∈ r.numbers, n < 2 ^ 32) →
    r.rest.head? = some 41 →
      ftpParsePasv line peer any =
        if any = true ∨ peer = 0 ∨ address (cut r.numbers) = peer then
          .ok (address (cut r.numbers)) (portOf (cut r.numbers))
        else .refused (address (cut r.numbers)) peer
  short : 40 ∉ line ∨ (∃ r : Reply, r.text = line ∧ r.fields.length < 6 ∧ r.rest = []) →
    ftpParsePasv line peer any = .malformed
  peer : ∀ ip port, ftpParsePasv line peer any = .ok ip port → any = false → peer ≠ 0 → ip = peer

/-- The test of the address. -/
theorem check_iff {ip : Nat} : (!any ∧ peer ≠ 0 ∧ ip ≠ peer) ↔ ¬ (any = true ∨ peer = 0 ∨ ip = peer) := by
  cases any <;> simp

/-- The parser on six numbers. -/
theorem ftpParsePasv_parts {h1 h2 h3 h4 p1 p2 : Nat} (open_ : resp.dropWhile (· != 40) = 40 :: p)
    (parts : pasvParts 6 p = [h1, h2, h3, h4, p1, p2])
    (bytes : h2 < 256 ∧ h3 < 256 ∧ h4 < 256 ∧ p1 < 256 ∧ p2 < 256) :
    ftpParsePasv resp peer any =
      if any = true ∨ peer = 0 ∨ address [h1, h2, h3, h4, p1, p2] = peer then
        .ok (address [h1, h2, h3, h4, p1, p2]) (portOf [h1, h2, h3, h4, p1, p2])
      else .refused (address [h1, h2, h3, h4, p1, p2]) peer := by
  obtain ⟨b2, b3, b4, b5, b6⟩ := bytes
  simp only [ftpParsePasv, open_, parts, address_eq b2 b3 b4, port_eq b5 b6]
  by_cases good : any = true ∨ peer = 0 ∨ ((h1 * 256 + h2) * 256 + h3) * 256 + h4 = peer
  · rw [if_neg fun test => check_iff.mp test good]
    exact (if_pos good).symm
  · rw [if_pos (check_iff.mpr good)]
    exact (if_neg good).symm

/-- `ftp_parse_pasv` on every line. -/
theorem lenient (line : List UInt8) (peer : Nat) (any : Bool) : Lenient line peer any where
  taken r := by
    rintro rfl six small close
    -- the six parts are the numbers, each cut to a byte
    have parts : pasvParts 6 (commas r.fields ++ r.rest) = cut r.numbers := by
      rw [pasvParts_commas r.number r.stops six.le fun few => absurd six few.ne, cut, Reply.numbers,
        List.map_map]
      refine List.map_congr_left fun f hf => ?_
      rw [Nat.mod_eq_of_lt (small _ (List.mem_map_of_mem hf))]
      rfl
    have byte : ∀ n ∈ cut r.numbers, n < 256 := by
      intro n hn
      obtain ⟨m, -, rfl⟩ := List.mem_map.mp hn
      omega
    have length : (cut r.numbers).length = 6 := by
      rw [cut, List.length_map, Reply.numbers, List.length_map, six]
    obtain ⟨h1, h2, h3, h4, p1, p2, list⟩ : ∃ h1 h2 h3 h4 p1 p2, cut r.numbers = [h1, h2, h3, h4, p1, p2] := by
      match cut r.numbers, length with
      | [h1, h2, h3, h4, p1, p2], _ => exact ⟨h1, h2, h3, h4, p1, p2, rfl⟩
    rw [list] at parts byte ⊢
    refine ftpParsePasv_parts (dropWhile_text r) parts ⟨?_, ?_, ?_, ?_, ?_⟩ <;> exact byte _ (by simp)
  short := by
    -- no parenthesis, or fewer than six parts
    rintro (none | ⟨r, rfl, few, rest⟩)
    · have all : ∀ c ∈ line, (c != 40) = true := by
        intro c hc
        exact bne_iff_ne.mpr fun same => none (same ▸ hc)
      rw [ftpParsePasv, List.dropWhile_eq_nil_iff.mpr all]
    · have parts := pasvParts_commas (n := 6) r.number r.stops few.le fun _ => rest
      rw [ftpParsePasv, dropWhile_text]
      have length := congrArg List.length parts
      rw [List.length_map] at length
      show (match pasvParts 6 (commas r.fields ++ r.rest) with
        | [h1, h2, h3, h4, p1, p2] => _
        | _ => PasvResult.malformed) = _
      split
      · rename_i list
        rw [list] at length
        exact absurd length.symm few.ne
      · rfl
  peer ip port := by
    -- an address that was accepted is the one of the peer, if that is known
    intro accepted off known
    rw [ftpParsePasv] at accepted
    split at accepted
    · cases accepted
    · split at accepted
      · dsimp only at accepted
        split at accepted
        · cases accepted
        · rename_i test
          obtain rfl := (PasvResult.ok.inj accepted).1
          by_contra other
          exact test ⟨by rw [off]; rfl, known, other⟩
      · cases accepted

/-- An address with a number above 255 is taken when PASVANY is on. -/
theorem not_forall_exactReply : ¬ ∀ line peer any, Exact line peer any := by
  intro h
  -- "(999,0,0,1,4,1)"
  obtain ⟨⟨found, -⟩, -⟩ := h [40, 57, 57, 57, 44, 48, 44, 48, 44, 49, 44, 52, 44, 49, 41] 0 true
  obtain ⟨r, text, ⟨six, small, -⟩, -⟩ := found ⟨0xFF000001, 1025, by decide⟩
  have tail := dropWhile_text r
  rw [text] at tail
  obtain ⟨field, fields, split⟩ := List.exists_cons_of_length_eq_add_one six
  have first : field = [57, 57, 57] := by
    have digits := takeWhile_commas r split
    rw [← List.tail_eq_of_cons_eq tail] at digits
    exact digits.symm
  have limit := small (bytesValue field) (List.mem_map_of_mem (split ▸ List.mem_cons_self))
  rw [first] at limit
  exact absurd limit (by decide)

end Ftp

end Tolunnet
