import Tolunnet.Cmds.Nslookup
import Tolunnet.Inet.Numbers

/-!
# `Tolunnet.Cmds.DnsNames`: names in queries and replies

`Encodes` is the wire format of names: labels and a root, where a pointer may lead to the rest of a
name anywhere in the packet. `PtrAnswer` is a reply with a PTR record, and `dnsParseReply_ptr` says
that its name is decoded, whatever pointers it goes through, to the labels with dots between them.

`dnsPutQname` writes names plainly. It drops a dot at the end, and of an address it writes the name
in `in-addr.arpa` (`dnsPutQname_host`, `dnsPutQname_ptr`).
-/

set_option autoImplicit false

namespace Tolunnet

namespace Dns

open Numbers (bytesValue)

/-! ## The wire format -/

/-- A name at `p2` that is the given labels, with `lim` the end of what may be read of it and `n`
pointers to go through. -/
inductive Encodes (pkt : List UInt8) : Nat → Nat → Nat → List (List UInt8) → Prop
  | root {p2 lim n : Nat} (here : p2 < lim) (byte : (pkt)[p2]? = some 0) : Encodes pkt p2 lim n []
  | label {p2 lim n : Nat} {label : List UInt8} {labels : List (List UInt8)} (length : 1 ≤ label.length)
      (short : label.length ≤ 63) (byte : (pkt)[p2]? = some (UInt8.ofNat label.length))
      (text : (pkt.drop (p2 + 1)).take label.length = label) (fits : p2 + 1 + label.length ≤ lim)
      (rest : Encodes pkt (p2 + 1 + label.length) lim n labels) : Encodes pkt p2 lim n (label :: labels)
  | pointer {p2 lim n : Nat} {hi lo : UInt8} {labels : List (List UInt8)} (here : p2 + 1 < lim)
      (first : (pkt)[p2]? = some hi) (pointer : hi &&& 0xC0 = 0xC0) (second : (pkt)[p2 + 1]? = some lo)
      (rest : Encodes pkt ((hi &&& 0x3F).toNat <<< 8 ||| lo.toNat) pkt.length n labels) :
      Encodes pkt p2 lim (n + 1) labels

/-- The end of a name at `off`, for a reader that skips it. -/
inductive NameEnds (pkt : List UInt8) : Nat → Nat → Prop
  | root {off : Nat} (byte : (pkt)[off]? = some 0) : NameEnds pkt off (off + 1)
  | pointer {off : Nat} {hi : UInt8} (first : (pkt)[off]? = some hi) (pointer : hi &&& 0xC0 = 0xC0)
      (second : off + 1 < pkt.length) : NameEnds pkt off (off + 2)
  | label {off off' : Nat} {l : UInt8} (byte : (pkt)[off]? = some l) (nonzero : l ≠ 0)
      (plain : l &&& 0xC0 = 0) (rest : NameEnds pkt (off + 1 + l.toNat) off') : NameEnds pkt off off'

/-- The 16-bit word at `off`. -/
def word (pkt : List UInt8) (off : Nat) : Nat := (pkt.getD off 0).toNat * 256 + (pkt.getD (off + 1) 0).toNat

/-- The end of `n` questions. -/
inductive Questions (pkt : List UInt8) : Nat → Nat → Nat → Prop
  | done {off : Nat} : Questions pkt 0 off off
  | next {n off o off' : Nat} (name : NameEnds pkt off o) (rest : Questions pkt n (o + 4) off') :
      Questions pkt (n + 1) off off'

/-- The first PTR record of `n` records at `off` has `rdlength` bytes of data at `rdo`. -/
inductive PtrRecord (pkt : List UInt8) : Nat → Nat → Nat → Nat → Prop
  | here {n off o : Nat} (name : NameEnds pkt off o) (type : word pkt o = 12)
      (fits : o + 10 + word pkt (o + 8) ≤ pkt.length) : PtrRecord pkt (n + 1) off (o + 10) (word pkt (o + 8))
  | later {n off o rdo rdlength : Nat} (name : NameEnds pkt off o) (type : word pkt o ≠ 12)
      (fits : o + 10 + word pkt (o + 8) ≤ pkt.length)
      (rest : PtrRecord pkt n (o + 10 + word pkt (o + 8)) rdo rdlength) :
      PtrRecord pkt (n + 1) off rdo rdlength

/-- A reply whose first PTR answer has `rdlength` bytes of data at `rdo`. -/
structure PtrAnswer (pkt : List UInt8) (rdo rdlength : Nat) : Prop where
  header : 12 ≤ pkt.length
  answers : ∃ off, Questions pkt (word pkt 4) 12 off ∧ PtrRecord pkt (word pkt 6) off rdo rdlength

/-- Labels with dots between them. -/
def dotted : List (List UInt8) → List UInt8
  | [] => []
  | label :: labels => label ++ labels.flatMap fun l => 46 :: l

/-! ## Replies -/

variable {pkt out name q : List UInt8} {off off' o outSize p2 lim guard2 n rdo rdlength : Nat} {l : UInt8}
  {labels : List (List UInt8)}

theorem rd16_word (inside : off + 1 < pkt.length) : rd16 pkt off = .ok (word pkt off) := by
  have first : pkt.getD off 0 = pkt[off] := by simp [Nat.lt_of_succ_lt inside]
  have second : pkt.getD (off + 1) 0 = pkt[off + 1] := by simp [inside]
  rw [rd16_ok inside, word, first, second,
    ← Nat.shiftLeft_add_eq_or_of_lt (i := 8) (UInt8.toNat_lt_size _), Nat.shiftLeft_eq]

/-- A read inside of the packet, from what the packet holds there. -/
theorem inside_of_some (byte : (pkt)[off]? = some l) : ∃ inside : off < pkt.length, pkt[off] = l :=
  List.getElem?_eq_some_iff.mp byte

theorem ne_zero_of_pointer (pointer : l &&& 0xC0 = 0xC0) : l ≠ 0 := by
  rintro rfl
  exact absurd pointer (by decide)

theorem not_pointer_of_plain (plain : l &&& 0xC0 = 0) : ¬ l &&& 0xC0 = 0xC0 := by
  rw [plain]
  decide

/-- A name that ends is skipped. -/
theorem dnsSkipName_ends (name : NameEnds pkt off o) : dnsSkipName pkt off = .ok (some o) := by
  induction name with
  | root byte =>
    obtain ⟨inside, zero⟩ := inside_of_some byte
    rw [dnsSkipName, dif_pos inside, rd_ok inside, ok_bind, if_pos zero]
    rfl
  | pointer first pointer second =>
    obtain ⟨inside, value⟩ := inside_of_some first
    rw [dnsSkipName, dif_pos inside, rd_ok inside, ok_bind, value, if_neg (ne_zero_of_pointer pointer),
      if_pos pointer, if_neg (Nat.not_le.mpr second)]
    rfl
  | label byte nonzero plain rest ih =>
    obtain ⟨inside, value⟩ := inside_of_some byte
    rw [dnsSkipName, dif_pos inside, rd_ok inside, ok_bind, value, if_neg nonzero,
      if_neg (not_pointer_of_plain plain), if_neg (not_not.mpr plain)]
    exact ih

/-- So are the questions. -/
theorem dnsQuestions_ends (questions : Questions pkt n off off') :
    dnsQuestions pkt n off = .ok (some off') := by
  induction questions with
  | done => rfl
  | next name rest ih =>
    rw [dnsQuestions, dnsSkipName_ends name, ok_bind]
    exact ih

/-- The loop of the answers comes to the PTR record. -/
theorem dnsAnswers_ptr (record : PtrRecord pkt n off rdo rdlength)
    (decoded : nameLoop pkt outSize rdo (rdo + rdlength) 0 [] = .ok (some out)) (room : Room outSize out) :
    dnsAnswers pkt 12 outSize n off = .ok (some out) := by
  induction record with
  | here name type fits =>
    rw [dnsAnswers, dnsSkipName_ends name, ok_bind]
    dsimp only
    rw [if_neg (by omega), rd16_word (by omega), ok_bind, rd16_word (by omega), ok_bind,
      if_neg (by omega), if_neg fun address => absurd address.2.2 (by decide), if_pos ⟨type, rfl⟩,
      decoded, ok_bind]
    dsimp only
    rw [put_ok room, ok_bind]
    rfl
  | later name type fits rest ih =>
    rw [dnsAnswers, dnsSkipName_ends name, ok_bind]
    dsimp only
    rw [if_neg (by omega), rd16_word (by omega), ok_bind, rd16_word (by omega), ok_bind,
      if_neg (by omega), if_neg fun address => absurd address.2.2 (by decide),
      if_neg fun ptr => type ptr.1]
    exact ih decoded

/-- The data of the record is in the packet. -/
theorem PtrRecord.inside (record : PtrRecord pkt n off rdo rdlength) : rdo + rdlength ≤ pkt.length := by
  induction record with
  | here _ _ fits => exact fits
  | later _ _ _ _ ih => exact ih

/-- There is a record. -/
theorem PtrRecord.some (record : PtrRecord pkt n off rdo rdlength) : n ≠ 0 := by
  cases record <;> exact Nat.succ_ne_zero _

/-! ## Names of replies -/

theorem byte_of_length {k : Nat} (short : k ≤ 63) : (UInt8.ofNat k).toNat = k := by
  rw [UInt8.toNat_ofNat', Nat.mod_eq_of_lt (by omega)]

/-- The byte in front of a label is neither a root nor a pointer. -/
theorem length_byte {k : Nat} (positive : 1 ≤ k) (short : k ≤ 63) :
    UInt8.ofNat k &&& 0xC0 = 0 ∧ UInt8.ofNat k ≠ 0 := by
  have all : ∀ k : Fin 64, 1 ≤ k.val → UInt8.ofNat k.val &&& 0xC0 = 0 ∧ UInt8.ofNat k.val ≠ 0 := by decide
  exact all ⟨k, by omega⟩ positive

/-- A name is decoded label by label, through any pointers that the counter allows. -/
theorem nameLoop_encodes (name : Encodes pkt p2 lim n labels) (inside : lim ≤ pkt.length)
    (room : Room outSize out) (few : guard2 + n ≤ 32) :
    nameLoop pkt outSize p2 lim guard2 out = .ok (some (labels.foldl (addLabel outSize) out)) := by
  have positive : 0 < outSize := Nat.lt_of_le_of_lt (Nat.zero_le _) room
  induction name generalizing guard2 out with
  | root here byte =>
    obtain ⟨_, zero⟩ := inside_of_some byte
    exact nameLoop_root inside here zero
  | label length short byte text fits rest ih =>
    obtain ⟨_, value⟩ := inside_of_some byte
    obtain ⟨plain, nonzero⟩ := length_byte length short
    have count := byte_of_length short
    rw [← value] at plain nonzero count
    rw [nameLoop_label inside room (by omega) plain nonzero (by omega), count, text, List.foldl_cons]
    exact ih inside (room_addLabel positive _ _) few
  | pointer here first pointer second rest ih =>
    obtain ⟨_, rfl⟩ := inside_of_some first
    obtain ⟨_, rfl⟩ := inside_of_some second
    rw [nameLoop_pointer inside here pointer (by omega)]
    exact ih le_rfl room (by omega)

/-- No label is empty. -/
theorem Encodes.full (name : Encodes pkt p2 lim n labels) : ∀ label ∈ labels, 1 ≤ label.length := by
  induction name with
  | root => nofun
  | label length _ _ _ _ _ ih =>
    intro d hd
    rcases List.mem_cons.mp hd with rfl | hd
    · exact length
    · exact ih d hd
  | pointer _ _ _ _ _ ih => exact ih

theorem take_take_append (k : Nat) (a b : List UInt8) : (a.take k ++ b).take k = (a ++ b).take k := by
  rw [List.take_append, List.take_append, List.take_take, Nat.min_self, List.length_take]
  congr 2
  omega

/-- A label behind others, as far as it fits. -/
theorem addLabel_take (large : 2 ≤ outSize) {text : List UInt8} (some : text ≠ []) (label : List UInt8) :
    addLabel outSize (text.take (outSize - 1)) label = (text ++ 46 :: label).take (outSize - 1) := by
  have left : text.take (outSize - 1) ≠ [] := by
    intro none
    rcases List.take_eq_nil_iff.mp none with zero | empty
    · omega
    · exact some empty
  rw [addLabel, if_neg left, take_take_append, List.append_assoc, take_take_append]
  rfl

/-- The labels that are written, as far as they fit. -/
theorem foldl_addLabel (large : 2 ≤ outSize) (full : ∀ label ∈ labels, 1 ≤ label.length) :
    labels.foldl (addLabel outSize) [] = (dotted labels).take (outSize - 1) := by
  -- behind a first label, each label brings its dot
  have key : ∀ (ls : List (List UInt8)) (text : List UInt8), text ≠ [] →
      ls.foldl (addLabel outSize) (text.take (outSize - 1))
        = (text ++ ls.flatMap fun l => 46 :: l).take (outSize - 1) := by
    intro ls
    induction ls with
    | nil =>
      intro text _
      rw [List.flatMap_nil, List.append_nil]
      rfl
    | cons l ls ih =>
      intro text some
      rw [List.foldl_cons, addLabel_take large some, ih _ (List.append_ne_nil_of_left_ne_nil some _),
        List.append_assoc]
      rfl
  cases labels with
  | nil => rw [dotted, List.take_nil]; rfl
  | cons first rest =>
    have some : first ≠ [] := List.length_pos_iff.mp (full first List.mem_cons_self)
    have start : addLabel outSize [] first = first.take (outSize - 1) := by
      rw [addLabel, if_pos rfl, List.take_nil, List.nil_append]
    rw [List.foldl_cons, start, key rest first some]
    rfl

/-- The name of a PTR answer is decoded to its labels with dots between them, cut to what `out` holds. -/
theorem dnsParseReply_ptr (large : 16 ≤ outSize) (answer : PtrAnswer pkt rdo rdlength)
    (name : Encodes pkt rdo (rdo + rdlength) n labels) (few : n ≤ 32) :
    dnsParseReply pkt 12 outSize = .ok (some ((dotted labels).take (outSize - 1))) := by
  have header := answer.header
  obtain ⟨off, questions, record⟩ := answer.answers
  have decoded := nameLoop_encodes name record.inside (show Room outSize [] from (by omega : 0 < outSize))
    (show 0 + n ≤ 32 by omega)
  rw [foldl_addLabel (by omega) name.full] at decoded
  rw [dnsParseReply, if_neg (by omega), rd16_word (by omega), ok_bind, rd16_word (by omega), ok_bind,
    if_neg record.some, dnsQuestions_ends questions, ok_bind]
  exact dnsAnswers_ptr record decoded (room_take (by omega) _)

/-! ## Names of queries -/

/-- The labels of a name on the wire. -/
def wire (labels : List (List UInt8)) : List UInt8 := labels.flatMap fun l => UInt8.ofNat l.length :: l

/-- A name without a dot at its end. -/
def stripDot (text : List UInt8) : List UInt8 := if text.getLast? = some 46 then text.dropLast else text

variable {text label p3 : List UInt8}

theorem dotted_cons (some : labels ≠ []) : dotted (label :: labels) = label ++ 46 :: dotted labels := by
  obtain ⟨l, ls, rfl⟩ := List.exists_cons_of_ne_nil some
  rfl

theorem stripDot_plain (plain : 46 ∉ text) : stripDot text = text :=
  if_neg fun last => plain (List.mem_of_getLast? last)

/-- The dots between labels stay. -/
theorem stripDot_append (some : p3 ≠ []) : stripDot (label ++ 46 :: p3) = label ++ 46 :: stripDot p3 := by
  have last : (label ++ 46 :: p3).getLast? = p3.getLast? := by
    rw [List.getLast?_append_of_ne_nil _ (List.cons_ne_nil 46 p3), List.getLast?_cons,
      List.getLast?_eq_some_getLast some]
    rfl
  rw [stripDot, stripDot, last]
  split
  · rw [List.dropLast_append_of_ne_nil (List.cons_ne_nil 46 p3), List.dropLast_cons_of_ne_nil some]
  · rfl

/-- A text up to its first dot. -/
theorem split_dot (text : List UInt8) : 46 ∉ text.takeWhile (· != 46) ∧
    (text.dropWhile (· != 46) = [] ∧ text.takeWhile (· != 46) = text ∨
      ∃ p3, text.dropWhile (· != 46) = 46 :: p3 ∧ text = text.takeWhile (· != 46) ++ 46 :: p3) := by
  have whole := List.takeWhile_append_dropWhile (p := (· != 46)) (l := text)
  refine ⟨fun mem => absurd (List.mem_takeWhile_imp mem) (by decide), ?_⟩
  cases rest : text.dropWhile (· != 46) with
  | nil =>
    rw [rest, List.append_nil] at whole
    exact Or.inl ⟨rfl, whole⟩
  | cons c p3 =>
    have dot : c = 46 := by
      have := List.head_dropWhile_not (· != 46) (l := text) (by rw [rest]; exact List.cons_ne_nil c p3)
      simpa [rest] using this
    subst dot
    rw [rest] at whole
    exact Or.inr ⟨p3, rfl, whole.symm⟩

/-- A name that is accepted is its labels with dots between them, and what is written are these. -/
theorem qnameLoop_spec (accepted : qnameLoop text = some q) : ∃ labels : List (List UInt8),
    (∀ l ∈ labels, 1 ≤ l.length ∧ l.length ≤ 63) ∧ q = wire labels ∧ dotted labels = stripDot text ∧
      (labels = [] ↔ text = []) := by
  induction size : text.length using Nat.strong_induction_on generalizing text q with
  | _ k ih =>
    rw [qnameLoop] at accepted
    by_cases empty : text = []
    · rw [if_pos empty] at accepted
      obtain rfl := Option.some.inj accepted
      exact ⟨[], nofun, rfl, by rw [empty]; rfl, by simp [empty]⟩
    · rw [if_neg empty] at accepted
      dsimp only at accepted
      split at accepted
      · cases accepted
      · rename_i length
        have lengths : 1 ≤ (text.takeWhile (· != 46)).length ∧ (text.takeWhile (· != 46)).length ≤ 63 := by
          omega
        obtain ⟨plain, split⟩ := split_dot text
        split at accepted
        · -- the last label
          rename_i rest
          obtain rfl := Option.some.inj accepted
          rcases split with ⟨-, all⟩ | ⟨p3, more, -⟩
          · refine ⟨[text.takeWhile (· != 46)], ?_, ?_, ?_, by simp [empty]⟩
            · intro l hl
              obtain rfl := List.mem_singleton.mp hl
              exact lengths
            · exact (List.append_nil _).symm
            · rw [all] at plain ⊢
              rw [stripDot_plain plain]
              exact List.append_nil text
          · rw [rest] at more
            cases more
        · -- a label with a dot behind it
          rename_i c p3 rest
          rcases split with ⟨none, -⟩ | ⟨p3', more, whole⟩
          · rw [rest] at none
            cases none
          · obtain ⟨rfl, rfl⟩ := List.cons.inj (rest.symm.trans more)
            cases inner : qnameLoop p3 with
            | none =>
              rw [inner] at accepted
              cases accepted
            | some q' =>
              rw [inner] at accepted
              obtain rfl := Option.some.inj accepted
              have shorter : p3.length < k := size ▸ length_dropWhile_lt rest
              obtain ⟨labels, each, rfl, joined, some_iff⟩ := ih _ shorter inner rfl
              refine ⟨text.takeWhile (· != 46) :: labels, ?_, rfl, ?_, by simp [empty]⟩
              · intro l hl
                rcases List.mem_cons.mp hl with rfl | hl
                · exact lengths
                · exact each l hl
              · generalize text.takeWhile (· != 46) = label at *
                subst whole
                by_cases last : p3 = []
                · -- the name ends in a dot
                  rw [some_iff.mpr last, last]
                  simp [dotted, stripDot]
                · rw [dotted_cons (mt some_iff.mp last), joined, stripDot_append last]

/-- Every text of labels is accepted. -/
theorem qnameLoop_dotted (each : ∀ l ∈ labels, 1 ≤ l.length ∧ l.length ≤ 63 ∧ 46 ∉ l) :
    qnameLoop (dotted labels) = some (wire labels) := by
  induction labels with
  | nil =>
    rw [dotted, qnameLoop]
    rfl
  | cons l ls ih =>
    obtain ⟨positive, short, plain⟩ := each l List.mem_cons_self
    have keep : ∀ c ∈ l, (c != 46) = true := fun c hc => bne_iff_ne.mpr fun same => plain (same ▸ hc)
    have some : l ≠ [] := List.length_pos_iff.mp positive
    cases ls with
    | nil =>
      have first : l.takeWhile (· != 46) = l := List.takeWhile_eq_self_iff.mpr keep
      have none : l.dropWhile (· != 46) = [] := List.dropWhile_eq_nil_iff.mpr keep
      show qnameLoop (l ++ []) = _
      rw [List.append_nil, qnameLoop, if_neg some, first]
      dsimp only
      rw [if_neg (by omega)]
      split
      · exact congrArg _ (List.append_nil _).symm
      · rename_i rest
        rw [none] at rest
        cases rest
    | cons l' ls =>
      have first : (l ++ 46 :: dotted (l' :: ls)).takeWhile (· != 46) = l := by
        rw [List.takeWhile_append_of_pos keep, List.takeWhile_cons_of_neg (by decide), List.append_nil]
      have second : (l ++ 46 :: dotted (l' :: ls)).dropWhile (· != 46) = 46 :: dotted (l' :: ls) := by
        rw [List.dropWhile_append_of_pos keep, List.dropWhile_cons_of_neg (by decide)]
      rw [dotted_cons (List.cons_ne_nil l' ls), qnameLoop,
        if_neg (List.append_ne_nil_of_left_ne_nil some _), first]
      dsimp only
      rw [if_neg (by omega)]
      split
      · rename_i rest
        rw [second] at rest
        cases rest
      · rename_i rest
        rw [second] at rest
        obtain ⟨-, rfl⟩ := List.cons.inj rest
        rw [ih fun d hd => each d (List.mem_cons_of_mem l hd)]
        rfl

/-- The byte at the start of what is encoded. -/
theorem byte_of_start {c : UInt8} {rest : List UInt8} (data : c :: rest <+: pkt.drop p2) :
    (pkt)[p2]? = some c := by
  obtain ⟨t, drop⟩ := data
  rw [← List.head?_drop, ← drop]
  rfl

/-- What is written encodes the labels, where it is found in a packet. -/
theorem encodes_wire (each : ∀ l ∈ labels, 1 ≤ l.length ∧ l.length ≤ 63)
    (data : wire labels ++ [0] <+: pkt.drop p2) (fits : p2 + (wire labels ++ [0]).length ≤ lim) :
    Encodes pkt p2 lim 0 labels := by
  induction labels generalizing p2 with
  | nil =>
    have here : p2 + 1 ≤ lim := fits
    exact .root here (byte_of_start data)
  | cons l ls ih =>
    obtain ⟨positive, short⟩ := each l List.mem_cons_self
    have text : wire (l :: ls) ++ [0] = UInt8.ofNat l.length :: (l ++ (wire ls ++ [0])) := by
      rw [← List.append_assoc]
      rfl
    rw [text] at data fits
    rw [List.length_cons, List.length_append] at fits
    have behind : ∃ t, pkt.drop (p2 + 1) = l ++ (wire ls ++ [0] ++ t) := by
      obtain ⟨t, drop⟩ := data
      refine ⟨t, ?_⟩
      rw [← List.tail_drop, ← drop, List.cons_append, List.tail_cons, List.append_assoc]
    obtain ⟨t, drop⟩ := behind
    have rest : wire ls ++ [0] <+: pkt.drop (p2 + 1 + l.length) := by
      rw [← List.drop_drop, drop, List.drop_left]
      exact List.prefix_append _ t
    have bytes : (pkt.drop (p2 + 1)).take l.length = l := by rw [drop, List.take_left]
    exact .label positive short (byte_of_start data) bytes (by omega)
      (ih (fun d hd => each d (List.mem_cons_of_mem l hd)) rest (by omega))

/-- What `dns_put_qname` writes is decoded to the text of the query without a dot at its end. -/
theorem dnsParseReply_qname {isPtr : Bool} (accepted : dnsPutQname name isPtr = some q) (large : 16 ≤ outSize)
    (answer : PtrAnswer pkt rdo q.length) (data : q <+: pkt.drop rdo) : ∃ tmp, queryText name isPtr = some tmp ∧
      dnsParseReply pkt 12 outSize = .ok (some ((stripDot tmp).take (outSize - 1))) := by
  obtain ⟨tmp, text, written⟩ := Option.bind_eq_some_iff.mp accepted
  obtain ⟨q', looped, rfl⟩ := Option.map_eq_some_iff.mp written
  obtain ⟨labels, each, rfl, joined, -⟩ := qnameLoop_spec looped
  refine ⟨tmp, text, ?_⟩
  rw [← joined]
  exact dnsParseReply_ptr large answer (encodes_wire each data le_rfl) (by omega)

/-! ## Names of addresses -/

/-- The number that digits denote, behind a number. -/
def digitsFrom (v : Nat) (ds : List UInt8) : Nat := ds.foldl (fun v c => v * 10 + (c.toNat - 48)) v

/-- An address that is accepted has four parts of three digits at most. -/
theorem ptrLoop_spec {parts vals : List Nat} {v idx : Nat} (accepted : ptrLoop parts v idx text = some vals) :
    ∃ (field : List UInt8) (fields : List (List UInt8)), text = dotted (field :: fields) ∧
      (∀ f ∈ field :: fields, ∀ c ∈ f, Http.isDigit c) ∧ (field = [] ∨ idx + field.length ≤ 3) ∧
      (∀ f ∈ fields, f.length ≤ 3) ∧ vals = parts ++ digitsFrom v field :: fields.map bytesValue ∧
      vals.length = 4 := by
  induction text generalizing parts v idx with
  | nil =>
    rw [ptrLoop] at accepted
    split at accepted
    · rename_i three
      obtain rfl := Option.some.inj accepted
      refine ⟨[], [], rfl, by simp, Or.inl rfl, nofun, rfl, ?_⟩
      rw [List.length_append, three]
      rfl
    · cases accepted
  | cons c s ih =>
    rw [ptrLoop] at accepted
    split_ifs at accepted with many dot other long
    · -- a dot: the part is complete
      obtain ⟨field, fields, rfl, digits, first, short, rfl, four⟩ := ih accepted
      refine ⟨[], field :: fields, by rw [dot]; rfl, ?_, Or.inl rfl, ?_, ?_, four⟩
      · intro f hf
        rcases List.mem_cons.mp hf with rfl | hf
        · nofun
        · exact digits f hf
      · intro f hf
        rcases List.mem_cons.mp hf with rfl | hf
        · rcases first with rfl | first
          · exact Nat.zero_le 3
          · omega
        · exact short f hf
      · rw [List.append_assoc]
        rfl
    · -- a digit
      obtain ⟨field, fields, rfl, digits, first, short, rfl, four⟩ := ih accepted
      refine ⟨c :: field, fields, rfl, ?_, Or.inr ?_, short, rfl, four⟩
      · intro f hf d hd
        rcases List.mem_cons.mp hf with rfl | hf
        · rcases List.mem_cons.mp hd with rfl | hd
          · simp only [Http.isDigit, Bool.and_eq_true, decide_eq_true_eq]
            exact ⟨UInt8.not_lt.mp fun low => other (Or.inl low), UInt8.not_lt.mp fun high => other (Or.inr high)⟩
          · exact digits field List.mem_cons_self d hd
        · exact digits f (List.mem_cons_of_mem field hf) d hd
      · rcases first with rfl | first
        · simp only [List.length_singleton]
          omega
        · rw [List.length_cons]
          omega

/-- The name of an address in `in-addr.arpa`. -/
def arpaName (a b c d : Nat) : List UInt8 :=
  dotted [dnsOctet d, dnsOctet c, dnsOctet b, dnsOctet a, ascii "in-addr", ascii "arpa"]

/-- The text of a query for an address is the name in `in-addr.arpa`. -/
theorem queryText_ptr (accepted : queryText name true = some text) : ∃ p1 p2 p3 p4 : List UInt8,
    name = dotted [p1, p2, p3, p4] ∧ (∀ p ∈ [p1, p2, p3, p4], p.length ≤ 3 ∧ ∀ c ∈ p, Http.isDigit c) ∧
      text = arpaName (bytesValue p1) (bytesValue p2) (bytesValue p3) (bytesValue p4) := by
  rw [queryText, if_pos rfl] at accepted
  split at accepted
  · rename_i vals a b c d parts
    obtain ⟨p1, fields, rfl, digits, first, short, vals, -⟩ := ptrLoop_spec parts
    have values : [a, b, c, d] = bytesValue p1 :: fields.map bytesValue := vals
    obtain ⟨rfl, from2⟩ := List.cons.inj values
    obtain ⟨p2, fields, rfl, rfl, from3⟩ := List.map_eq_cons_iff.mp from2.symm
    obtain ⟨p3, fields, rfl, rfl, from4⟩ := List.map_eq_cons_iff.mp from3
    obtain ⟨p4, fields, rfl, rfl, rest⟩ := List.map_eq_cons_iff.mp from4
    obtain rfl := List.map_eq_nil_iff.mp rest
    refine ⟨p1, p2, p3, p4, rfl, fun p hp => ⟨?_, digits p hp⟩, (Option.some.inj accepted).symm⟩
    rcases List.mem_cons.mp hp with rfl | hp
    · rcases first with rfl | first
      · exact Nat.zero_le 3
      · omega
    · exact short p hp
  · cases accepted

/-- A name that fits is asked for as it is. -/
theorem queryText_host (short : name.length ≤ 266) : queryText name false = some name := by
  rw [queryText, if_neg Bool.false_ne_true, List.take_of_length_le short]

/-- The reverse name ends without a dot. -/
theorem stripDot_arpaName (a b c d : Nat) : stripDot (arpaName a b c d) = arpaName a b c d := by
  have last : ∃ text, arpaName a b c d = text ++ ascii "arpa" := by
    refine ⟨dotted [dnsOctet d, dnsOctet c, dnsOctet b, dnsOctet a, ascii "in-addr"] ++ [46], ?_⟩
    simp [arpaName, dotted]
  obtain ⟨text, split⟩ := last
  rw [split, stripDot, List.getLast?_append_of_ne_nil _ (show ascii "arpa" ≠ [] by decide)]
  exact if_neg (by decide)

/-! ## The result -/

/-- A reply without a question and with one PTR answer for the root. -/
def ptrReply (data : List UInt8) : List UInt8 :=
  [0, 0, 0x81, 0x80, 0, 0, 0, 1, 0, 0, 0, 0, 0, 0, 12, 0, 1, 0, 0, 0, 0,
    UInt8.ofNat (data.length / 256), UInt8.ofNat data.length] ++ data

/-- A reply that answers. -/
theorem ptrReply_answer (data : List UInt8) (short : data.length < 65536) :
    PtrAnswer (ptrReply data) 23 data.length := by
  have questions : word (ptrReply data) 4 = 0 := by simp [word, ptrReply]
  have answers : word (ptrReply data) 6 = 1 := by simp [word, ptrReply]
  have type : word (ptrReply data) 13 = 12 := by simp [word, ptrReply]
  have rdlength : word (ptrReply data) 21 = data.length := by
    show (UInt8.ofNat (data.length / 256)).toNat * 256 + (UInt8.ofNat data.length).toNat = data.length
    rw [UInt8.toNat_ofNat', UInt8.toNat_ofNat']
    omega
  have length : (ptrReply data).length = 23 + data.length := by
    rw [ptrReply, List.length_append]
    rfl
  refine ⟨by omega, 12, ?_, ?_⟩
  · rw [questions]
    exact .done
  · have fits : 13 + 10 + word (ptrReply data) (13 + 8) ≤ (ptrReply data).length := by
      rw [rdlength, length]
    rw [answers, ← rdlength]
    exact .here (.root rfl) type fits

theorem ptrReply_data (data : List UInt8) : (ptrReply data).drop 23 = data := rfl

/-- What is said of names and replies: a reply is parsed within its bounds, a query is decoded to its
text, and the name of an answer is decoded through pointers. -/
structure Decoding : Prop where
  total : ∀ (pkt : List UInt8) (wantType outSize : Nat), 16 ≤ outSize →
    Bounded outSize (dnsParseReply pkt wantType outSize)
  host : ∀ (name q pkt : List UInt8) (rdo outSize : Nat), name.length ≤ 266 →
    dnsPutQname name false = some q → 16 ≤ outSize → PtrAnswer pkt rdo q.length → q <+: pkt.drop rdo →
      dnsParseReply pkt 12 outSize = .ok (some ((stripDot name).take (outSize - 1)))
  address : ∀ (name q pkt : List UInt8) (rdo outSize : Nat),
    dnsPutQname name true = some q → 16 ≤ outSize → PtrAnswer pkt rdo q.length → q <+: pkt.drop rdo →
      ∃ p1 p2 p3 p4 : List UInt8, name = dotted [p1, p2, p3, p4] ∧
        (∀ p ∈ [p1, p2, p3, p4], p.length ≤ 3 ∧ ∀ c ∈ p, Http.isDigit c) ∧
        dnsParseReply pkt 12 outSize = .ok (some ((arpaName (bytesValue p1) (bytesValue p2) (bytesValue p3)
          (bytesValue p4)).take (outSize - 1)))
  answer : ∀ (pkt : List UInt8) (rdo rdlength n outSize : Nat) (labels : List (List UInt8)),
    16 ≤ outSize → PtrAnswer pkt rdo rdlength → Encodes pkt rdo (rdo + rdlength) n labels → n ≤ 32 →
      dnsParseReply pkt 12 outSize = .ok (some ((dotted labels).take (outSize - 1)))

/-- Names and replies of `nslookup`. -/
theorem decoding : Decoding where
  total pkt wantType outSize large := dnsParseReply_bounded pkt wantType large
  host name q pkt rdo outSize short accepted large answer data := by
    obtain ⟨tmp, text, decoded⟩ := dnsParseReply_qname accepted large answer data
    rw [queryText_host short] at text
    obtain rfl := Option.some.inj text
    exact decoded
  address name q pkt rdo outSize accepted large answer data := by
    obtain ⟨tmp, text, decoded⟩ := dnsParseReply_qname accepted large answer data
    -- the text that was asked for is the reverse name of a quad
    obtain ⟨p1, p2, p3, p4, split, short, rfl⟩ := queryText_ptr text
    rw [stripDot_arpaName] at decoded
    exact ⟨p1, p2, p3, p4, split, short, decoded⟩
  answer pkt rdo rdlength n outSize labels large answer name few := dnsParseReply_ptr large answer name few

/-- An address is not given back: it is written as its name in `in-addr.arpa`. -/
theorem not_forall_decoded : ¬ ∀ (name q pkt : List UInt8) (isPtr : Bool) (rdo : Nat),
    dnsPutQname name isPtr = some q → PtrAnswer pkt rdo q.length → q <+: pkt.drop rdo →
      dnsParseReply pkt 12 256 = .ok (some ((stripDot name).take 255)) := by
  intro h
  -- 1.2.3.4
  let labels : List (List UInt8) := [[52], [51], [50], [49], ascii "in-addr", ascii "arpa"]
  have text : queryText [49, 46, 50, 46, 51, 46, 52] true = some (dotted labels) := by decide
  have looped : qnameLoop (dotted labels) = some (wire labels) := qnameLoop_dotted (by decide)
  have accepted : dnsPutQname [49, 46, 50, 46, 51, 46, 52] true = some (wire labels ++ [0]) := by
    rw [dnsPutQname, text, Option.bind_some, looped]
    rfl
  have answer := ptrReply_answer (wire labels ++ [0]) (by decide)
  have given := h _ _ _ true 23 accepted answer (ptrReply_data _ ▸ List.prefix_rfl)
  have data : wire labels ++ [0] <+: (ptrReply (wire labels ++ [0])).drop 23 :=
    (ptrReply_data _).symm ▸ List.prefix_rfl
  have name := encodes_wire (by decide) data le_rfl
  have written := dnsParseReply_ptr (show 16 ≤ 256 by decide) answer name (by decide)
  exact absurd (given.symm.trans written) (by decide)

end Dns

end Tolunnet
