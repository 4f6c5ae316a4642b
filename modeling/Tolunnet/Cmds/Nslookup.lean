import Mathlib.Algebra.Order.Ring.Int
import Tolunnet.Common.HttpUrl

/-!
# `Tolunnet.Cmds.Nslookup`: the queries and replies of `nslookup`

`dnsPutQname` writes the name of a query and `dnsParseReply` reads a reply. The packet is the list of
its `plen` bytes. Each read of the packet and each write to `out` is checked: one outside is a
`Fault`. `dnsParseReply_total` says that there is none, whatever the packet holds.

The name of a PTR answer may go on elsewhere in the packet, and pointers may form a loop. The counter
of pointers ends it, and between two pointers the position only grows.
-/

set_option autoImplicit false

namespace Tolunnet

namespace Dns

/-- An access outside of the packet, or outside of `out`. -/
inductive Fault where
  | read (off : Nat)
  | write (off : Nat)
  deriving Repr, DecidableEq

/-- `pkt[off]`. -/
def rd (pkt : List UInt8) (off : Nat) : Except Fault UInt8 :=
  match (pkt)[off]? with
  | some b => .ok b
  | none => .error (.read off)

/-- `(pkt[off] << 8) | pkt[off + 1]`. -/
def rd16 (pkt : List UInt8) (off : Nat) : Except Fault Nat := do
  let hi ← rd pkt off
  let lo ← rd pkt (off + 1)
  return hi.toNat <<< 8 ||| lo.toNat

/-- `out[o++] = c`, where `o` bytes are written. -/
def put (outSize : Nat) (out : List UInt8) (c : UInt8) : Except Fault (List UInt8) :=
  if out.length < outSize then .ok (out ++ [c]) else .error (.write out.length)

/-! ## Queries -/

/-- One octet of an address in decimal. -/
def dnsOctet (vv : Nat) : List UInt8 :=
  if vv ≥ 100 then
    [UInt8.ofNat (48 + vv / 100), UInt8.ofNat (48 + vv / 10 % 10), UInt8.ofNat (48 + vv % 10)]
  else if vv ≥ 10 then [UInt8.ofNat (48 + vv / 10), UInt8.ofNat (48 + vv % 10)]
  else [UInt8.ofNat (48 + vv)]

/-- The loop over the characters of an address: the parts that are complete, and the one under way
with the count of its digits. -/
def ptrLoop (parts : List Nat) (v idx : Nat) : List UInt8 → Option (List Nat)
  | [] => if parts.length = 3 then some (parts ++ [v]) else none
  | c :: s =>
    if parts.length ≥ 4 then none
    else if c = 46 then ptrLoop (parts ++ [v]) 0 0 s
    else if c < 48 ∨ c > 57 then none
    else if idx + 1 > 3 then none
    else ptrLoop parts (v * 10 + (c.toNat - 48)) (idx + 1) s

/-- The text of a query: the name, or `d.c.b.a.in-addr.arpa` for an address. -/
def queryText (name : List UInt8) (isPtr : Bool) : Option (List UInt8) :=
  if isPtr then
    match ptrLoop [] 0 0 name with
    | some [a, b, c, d] =>
      some (dnsOctet d ++ 46 :: (dnsOctet c ++ 46 :: (dnsOctet b ++ 46 :: (dnsOctet a
        ++ ascii ".in-addr.arpa"))))
    | _ => none
  else some (name.take (280 - 14))

/-- Behind a dot there is less text. -/
theorem length_dropWhile_lt {p2 p3 : List UInt8} {c : UInt8} (h : p2.dropWhile (· != 46) = c :: p3) :
    p3.length < p2.length := by
  have := (List.dropWhile_sublist (l := p2) (· != 46)).length_le
  rw [h, List.length_cons] at this
  omega

/-- The loop over the labels, or nothing for a bad name. -/
def qnameLoop (p2 : List UInt8) : Option (List UInt8) :=
  if p2 = [] then some []
  else
    let label := p2.takeWhile (· != 46)
    if label.length = 0 ∨ label.length > 63 then none
    else
      match _rest : p2.dropWhile (· != 46) with
      | [] => some (UInt8.ofNat label.length :: label)
      | _ :: p3 => (qnameLoop p3).map fun q => UInt8.ofNat label.length :: (label ++ q)
termination_by p2.length
decreasing_by exact length_dropWhile_lt _rest

/-- `dns_put_qname`: what it appends, or nothing for -1. -/
def dnsPutQname (name : List UInt8) (isPtr : Bool) : Option (List UInt8) :=
  (queryText name isPtr).bind fun tmp => (qnameLoop tmp).map (· ++ [0])

/-! ## Replies -/

/-- `dns_skip_name`. -/
def dnsSkipName (pkt : List UInt8) (off : Nat) : Except Fault (Option Nat) :=
  if _more : off < pkt.length then do
    let l ← rd pkt off
    if l = 0 then return some (off + 1)
    else if l &&& 0xC0 = 0xC0 then
      if off + 1 ≥ pkt.length then return none else return some (off + 2)
    else if l &&& 0xC0 ≠ 0 then return none
    else dnsSkipName pkt (off + 1 + l.toNat)
  else return none
termination_by pkt.length - off
decreasing_by omega

/-- The loop over the questions. -/
def dnsQuestions (pkt : List UInt8) : Nat → Nat → Except Fault (Option Nat)
  | 0, off => return some off
  | qd + 1, off => do
    match ← dnsSkipName pkt off with
    | none => return none
    | some off => dnsQuestions pkt qd (off + 4)

/-- The loop over the `l` bytes of a label at `k`. -/
def copyLabel (pkt : List UInt8) (outSize : Nat) : Nat → Nat → List UInt8 → Except Fault (List UInt8)
  | _, 0, out => return out
  | k, l + 1, out =>
    if out.length < outSize - 1 then do
      let out ← put outSize out (← rd pkt k)
      copyLabel pkt outSize (k + 1) l out
    else return out

/-- The dot in front of a label that is not the first. -/
def putDot (outSize : Nat) (out : List UInt8) : Except Fault (List UInt8) :=
  if out.length > 0 ∧ out.length < outSize - 1 then put outSize out 46 else .ok out

/-- The loop that decodes a name. -/
def nameLoop (pkt : List UInt8) (outSize p2 lim guard2 : Nat) (out : List UInt8) :
    Except Fault (Option (List UInt8)) :=
  if _stop : p2 ≥ lim then return none
  else do
    let l ← rd pkt p2
    if l = 0 then return some out
    else if l &&& 0xC0 = 0xC0 then
      if p2 + 1 ≥ lim then return none
      else
        let lo ← rd pkt (p2 + 1)
        if _many : guard2 + 1 > 32 then return none
        else nameLoop pkt outSize ((l &&& 0x3F).toNat <<< 8 ||| lo.toNat) pkt.length (guard2 + 1) out
    else if l &&& 0xC0 ≠ 0 then return none
    else if p2 + 1 + l.toNat > lim then return none
    else
      let out ← putDot outSize out
      let out ← copyLabel pkt outSize (p2 + 1) l.toNat out
      nameLoop pkt outSize (p2 + 1 + l.toNat) lim guard2 out
termination_by (33 - guard2, lim - p2)
decreasing_by
  · exact Prod.Lex.left _ _ (by omega)
  · exact Prod.Lex.right _ (by omega)

/-- `tn_cmd_ip_to_str`: the text without its end. The digits of an octet come out of a loop that
divides by ten. -/
def ipText (ip : Nat) : List UInt8 :=
  let octet := fun shift => (Nat.toDigits 10 (ip >>> shift &&& 0xFF)).map charByte
  octet 24 ++ 46 :: (octet 16 ++ 46 :: (octet 8 ++ 46 :: octet 0))

/-- `tn_cmd_ip_to_str`: the bytes that it writes. -/
def putAll (outSize : Nat) (out : List UInt8) : List UInt8 → Except Fault (List UInt8)
  | [] => .ok out
  | c :: text => do
    let out ← put outSize out c
    putAll outSize out text

/-- The loop over the answers. -/
def dnsAnswers (pkt : List UInt8) (wantType outSize : Nat) : Nat → Nat →
    Except Fault (Option (List UInt8))
  | 0, _ => return none
  | an + 1, off => do
    match ← dnsSkipName pkt off with
    | none => return none
    | some off =>
      if off + 10 > pkt.length then return none
      else
        let type ← rd16 pkt off
        let rdlength ← rd16 pkt (off + 8)
        let rdo := off + 10
        if rdo + rdlength > pkt.length then return none
        else if type = wantType ∧ rdlength = 4 ∧ wantType = 1 then
          let hi ← rd16 pkt rdo
          let lo ← rd16 pkt (rdo + 2)
          let _ ← putAll outSize [] (ipText (hi <<< 16 ||| lo) ++ [0])
          return some (ipText (hi <<< 16 ||| lo))
        else if type = 12 ∧ wantType = 12 then
          match ← nameLoop pkt outSize rdo (rdo + rdlength) 0 [] with
          | none => return none
          | some out =>
            let _ ← put outSize out 0
            return some out
        else dnsAnswers pkt wantType outSize an (rdo + rdlength)

/-- `dns_parse_reply`: the text in `out`, or nothing for -1. -/
def dnsParseReply (pkt : List UInt8) (wantType outSize : Nat) : Except Fault (Option (List UInt8)) :=
  if pkt.length < 12 then return none
  else do
    let qdcount ← rd16 pkt 4
    let ancount ← rd16 pkt 6
    if ancount = 0 then return none
    else
      match ← dnsQuestions pkt qdcount 12 with
      | none => return none
      | some off => dnsAnswers pkt wantType outSize ancount off

/-! ## No access outside -/

variable {pkt out text : List UInt8} {off outSize p2 lim guard2 k l n wantType : Nat}

theorem ok_bind {α β : Type} (a : α) (f : α → Except Fault β) : (Except.ok a >>= f) = f a := rfl

/-- A byte inside the packet is read. -/
theorem rd_ok (inside : off < pkt.length) : rd pkt off = .ok pkt[off] := by
  rw [rd, List.getElem?_eq_getElem inside]

/-- Two bytes inside the packet are read. -/
theorem rd16_ok (inside : off + 1 < pkt.length) :
    rd16 pkt off = .ok (pkt[off].toNat <<< 8 ||| pkt[off + 1].toNat) := by
  rw [rd16, rd_ok (Nat.lt_of_succ_lt inside), ok_bind, rd_ok inside, ok_bind]
  rfl

/-- A byte that has room is put. -/
theorem put_ok (room : out.length < outSize) (c : UInt8) : put outSize out c = .ok (out ++ [c]) :=
  if_pos room

/-- A name is skipped with reads inside of the packet only. -/
theorem dnsSkipName_ok (pkt : List UInt8) (off : Nat) : ∃ r, dnsSkipName pkt off = .ok r := by
  induction left : pkt.length - off using Nat.strong_induction_on generalizing off with
  | _ n ih =>
    rw [dnsSkipName]
    by_cases more : off < pkt.length
    · rw [dif_pos more, rd_ok more, ok_bind]
      split_ifs
      · exact ⟨_, rfl⟩
      · exact ⟨_, rfl⟩
      · exact ⟨_, rfl⟩
      · exact ⟨_, rfl⟩
      · exact ih _ (by omega) _ rfl
    · rw [dif_neg more]
      exact ⟨none, rfl⟩

/-- The questions are skipped without a fault. -/
theorem dnsQuestions_ok (pkt : List UInt8) (n off : Nat) : ∃ r, dnsQuestions pkt n off = .ok r := by
  induction n generalizing off with
  | zero => exact ⟨some off, rfl⟩
  | succ n ih =>
    obtain ⟨r, skipped⟩ := dnsSkipName_ok pkt off
    rw [dnsQuestions, skipped, ok_bind]
    cases r with
    | none => exact ⟨none, rfl⟩
    | some off' => exact ih (off' + 4)

/-- What is written so far leaves room for the end of the string. -/
def Room (outSize : Nat) (out : List UInt8) : Prop := out.length < outSize

/-- The bytes of a label, cut to what fits. -/
theorem copyLabel_ok (inside : k + l ≤ pkt.length) (room : Room outSize out) :
    copyLabel pkt outSize k l out = .ok ((out ++ (pkt.drop k).take l).take (outSize - 1)) := by
  have fits : out.length ≤ outSize - 1 := Nat.le_sub_one_of_lt room
  induction l generalizing k out with
  | zero => rw [copyLabel, List.take_zero, List.append_nil, List.take_of_length_le fits]; rfl
  | succ l ih =>
    have here : k < pkt.length := by omega
    rw [copyLabel]
    by_cases more : out.length < outSize - 1
    · rw [if_pos more, rd_ok here, ok_bind, put_ok (by omega), ok_bind]
      have longer : (out ++ [pkt[k]]).length ≤ outSize - 1 := by
        rw [List.length_append]
        exact more
      have room' : Room outSize (out ++ [pkt[k]]) := by
        show (out ++ [pkt[k]]).length < outSize
        omega
      rw [ih (by omega) room' longer, List.append_assoc, List.singleton_append,
        List.drop_eq_getElem_cons here, List.take_succ_cons]
    · have full : out.length = outSize - 1 := by omega
      rw [if_neg more, ← full, List.take_left]
      rfl

/-- A dot is put where there is room. -/
theorem putDot_ok (room : Room outSize out) :
    putDot outSize out = .ok ((if out = [] then out else out ++ [46]).take (outSize - 1)) := by
  have fits : out.length ≤ outSize - 1 := Nat.le_sub_one_of_lt room
  have some : out.length > 0 ↔ out ≠ [] := List.length_pos_iff
  rw [putDot]
  by_cases dot : out.length > 0 ∧ out.length < outSize - 1
  · have longer : (out ++ [46]).length ≤ outSize - 1 := by
      rw [List.length_append]
      exact dot.2
    rw [if_pos dot, put_ok room, if_neg (some.mp dot.1), List.take_of_length_le longer]
  · rw [if_neg dot]
    split
    · rw [List.take_of_length_le fits]
    · rename_i more
      have full : out.length = outSize - 1 := by
        have := some.mpr more
        omega
      rw [← full, List.take_left]

/-- A label behind what is written so far. -/
def addLabel (outSize : Nat) (out label : List UInt8) : List UInt8 :=
  ((if out = [] then out else out ++ [46]).take (outSize - 1) ++ label).take (outSize - 1)

/-- A cut text leaves room for its end. -/
theorem room_take (h : 0 < outSize) (out : List UInt8) : Room outSize (out.take (outSize - 1)) := by
  show (out.take (outSize - 1)).length < outSize
  rw [List.length_take]
  omega

/-- A label leaves room for the end. -/
theorem room_addLabel (h : 0 < outSize) (out label : List UInt8) : Room outSize (addLabel outSize out label) :=
  room_take h _

/-- A turn of the loop on a label. -/
theorem nameLoop_label (inside : lim ≤ pkt.length) (room : Room outSize out) (here : p2 < lim)
    (plain : pkt[p2] &&& 0xC0 = 0) (nonzero : pkt[p2] ≠ 0) (fits : p2 + 1 + pkt[p2].toNat ≤ lim) :
    nameLoop pkt outSize p2 lim guard2 out = nameLoop pkt outSize (p2 + 1 + pkt[p2].toNat) lim guard2
      (addLabel outSize out ((pkt.drop (p2 + 1)).take pkt[p2].toNat)) := by
  have positive : 0 < outSize := Nat.lt_of_le_of_lt (Nat.zero_le _) room
  have notPointer : ¬ pkt[p2] &&& 0xC0 = 0xC0 := by
    rw [plain]
    decide
  rw [nameLoop, dif_neg (Nat.not_le.mpr here), rd_ok (Nat.lt_of_lt_of_le here inside), ok_bind,
    if_neg nonzero, if_neg notPointer, if_neg (not_not.mpr plain), if_neg (Nat.not_lt.mpr fits),
    putDot_ok room, ok_bind, copyLabel_ok (Nat.le_trans fits inside) (room_take positive _), ok_bind]
  rfl

/-- A turn of the loop on a pointer. -/
theorem nameLoop_pointer (inside : lim ≤ pkt.length) (here : p2 + 1 < lim)
    (pointer : pkt[p2] &&& 0xC0 = 0xC0) (few : guard2 + 1 ≤ 32) :
    nameLoop pkt outSize p2 lim guard2 out = nameLoop pkt outSize
      ((pkt[p2] &&& 0x3F).toNat <<< 8 ||| pkt[p2 + 1].toNat) pkt.length (guard2 + 1) out := by
  have nonzero : pkt[p2] ≠ 0 := by
    intro zero
    rw [zero] at pointer
    exact absurd pointer (by decide)
  rw [nameLoop, dif_neg (by omega), rd_ok (by omega), ok_bind, if_neg nonzero, if_pos pointer,
    if_neg (by omega), rd_ok (by omega), ok_bind, dif_neg (by omega)]

/-- The root ends a name. -/
theorem nameLoop_root (inside : lim ≤ pkt.length) (here : p2 < lim) (zero : pkt[p2] = 0) :
    nameLoop pkt outSize p2 lim guard2 out = .ok (some out) := by
  rw [nameLoop, dif_neg (Nat.not_le.mpr here), rd_ok (Nat.lt_of_lt_of_le here inside), ok_bind,
    if_pos zero]
  rfl

/-- The text that a function returns leaves room for its end. -/
def Bounded (outSize : Nat) (m : Except Fault (Option (List UInt8))) : Prop :=
  ∃ r, m = .ok r ∧ ∀ text ∈ r, Room outSize text

/-- A refusal is within the buffer. -/
theorem bounded_none (outSize : Nat) : Bounded outSize (.ok none) := ⟨none, rfl, nofun⟩

/-- A name is decoded within the packet and within `out`. The induction is on the pointers that are
left, and within one stretch on the bytes up to its limit. -/
theorem nameLoop_bounded (inside : lim ≤ pkt.length) (room : Room outSize out) :
    Bounded outSize (nameLoop pkt outSize p2 lim guard2 out) := by
  have positive : 0 < outSize := Nat.lt_of_le_of_lt (Nat.zero_le _) room
  induction pointers : 33 - guard2 using Nat.strong_induction_on generalizing guard2 p2 lim out with
  | _ g again =>
    induction left : lim - p2 using Nat.strong_induction_on generalizing p2 out with
    | _ n ih =>
      by_cases stop : p2 ≥ lim
      · rw [nameLoop, dif_pos stop]
        exact bounded_none outSize
      · have here : p2 < lim := Nat.lt_of_not_le stop
        by_cases zero : pkt[p2] = 0
        · rw [nameLoop_root inside here zero]
          refine ⟨some out, rfl, fun text ht => ?_⟩
          obtain rfl : out = text := Option.some.inj ht
          exact room
        · by_cases pointer : pkt[p2] &&& 0xC0 = 0xC0
          · by_cases follow : p2 + 1 < lim ∧ guard2 + 1 ≤ 32
            · rw [nameLoop_pointer inside follow.1 pointer follow.2]
              exact again _ (by omega) le_rfl room rfl
            · -- the second byte is behind the limit, or it is one pointer too many
              rw [nameLoop, dif_neg stop, rd_ok (by omega), ok_bind, if_neg zero, if_pos pointer]
              by_cases second : p2 + 1 ≥ lim
              · rw [if_pos second]
                exact bounded_none outSize
              · rw [if_neg second, rd_ok (by omega), ok_bind, dif_pos (by omega)]
                exact bounded_none outSize
          · by_cases plain : pkt[p2] &&& 0xC0 = 0
            · by_cases fits : p2 + 1 + pkt[p2].toNat ≤ lim
              · rw [nameLoop_label inside room here plain zero fits]
                exact ih _ (by omega) (room_addLabel positive _ _) rfl
              · rw [nameLoop, dif_neg stop, rd_ok (by omega), ok_bind, if_neg zero, if_neg pointer,
                  if_neg (not_not.mpr plain), if_pos (by omega)]
                exact bounded_none outSize
            · rw [nameLoop, dif_neg stop, rd_ok (by omega), ok_bind, if_neg zero, if_neg pointer,
                if_pos plain]
              exact bounded_none outSize

/-- The text of an address is short. -/
theorem ipText_length (ip : Nat) : (ipText ip).length ≤ 15 := by
  have octet : ∀ shift, (Nat.toDigits 10 (ip >>> shift &&& 0xFF)).length ≤ 3 := by
    intro shift
    have : ip >>> shift &&& 0xFF ≤ 0xFF := Nat.and_le_right
    exact (Nat.length_toDigits_le_iff (by decide) (by decide)).mpr (by omega)
  simp only [ipText, List.length_append, List.length_cons, List.length_map]
  have := octet 24
  have := octet 16
  have := octet 8
  have := octet 0
  omega

/-- A text that fits is put. -/
theorem putAll_ok (room : out.length + text.length ≤ outSize) :
    putAll outSize out text = .ok (out ++ text) := by
  induction text generalizing out with
  | nil => rw [List.append_nil]; rfl
  | cons c text ih =>
    rw [List.length_cons] at room
    rw [putAll, put_ok (by omega), ok_bind, ih (by rw [List.length_append, List.length_singleton]; omega),
      List.append_assoc]
    rfl

/-- The text of an address and its end are sixteen bytes at most. -/
theorem ipText_bounded (large : 16 ≤ outSize) (ip : Nat) :
    Bounded outSize (putAll outSize [] (ipText ip ++ [0]) >>= fun _ => .ok (some (ipText ip))) := by
  have length := ipText_length ip
  have fits : ([] : List UInt8).length + (ipText ip ++ [0]).length ≤ outSize := by
    rw [List.length_append, List.length_nil, List.length_singleton]
    omega
  rw [putAll_ok fits, ok_bind]
  refine ⟨_, rfl, fun text ht => ?_⟩
  obtain rfl : ipText ip = text := Option.some.inj ht
  exact Nat.lt_of_le_of_lt length (by omega)

/-- The answers are read within the buffer. -/
theorem dnsAnswers_bounded (large : 16 ≤ outSize) (wantType n off : Nat) :
    Bounded outSize (dnsAnswers pkt wantType outSize n off) := by
  induction n generalizing off with
  | zero => exact bounded_none outSize
  | succ n ih =>
    obtain ⟨r, skipped⟩ := dnsSkipName_ok pkt off
    rw [dnsAnswers, skipped, ok_bind]
    cases r with
    | none => exact bounded_none outSize
    | some off =>
      dsimp only
      by_cases short : off + 10 > pkt.length
      · rw [if_pos short]
        exact bounded_none outSize
      · rw [if_neg short, rd16_ok (by omega), ok_bind, rd16_ok (by omega), ok_bind]
        generalize pkt[off].toNat <<< 8 ||| pkt[off + 1].toNat = type
        generalize pkt[off + 8].toNat <<< 8 ||| pkt[off + 8 + 1].toNat = rdlength
        by_cases cut : off + 10 + rdlength > pkt.length
        · rw [if_pos cut]
          exact bounded_none outSize
        · rw [if_neg cut]
          split
          · rename_i address
            rw [rd16_ok (by omega), ok_bind, rd16_ok (by omega), ok_bind]
            exact ipText_bounded large _
          · split
            · obtain ⟨r, decoded, room⟩ : Bounded outSize
                  (nameLoop pkt outSize (off + 10) (off + 10 + rdlength) 0 []) :=
                nameLoop_bounded (by omega) (show 0 < outSize by omega)
              rw [decoded, ok_bind]
              cases r with
              | none => exact bounded_none outSize
              | some out =>
                have roomy := room out rfl
                dsimp only
                rw [put_ok roomy, ok_bind]
                exact ⟨some out, rfl, room⟩
            · exact ih (off + 10 + rdlength)

/-- Every packet is parsed with reads inside of the packet and writes inside of `out` only, and the
text that is returned and its end fit into `out`. -/
theorem dnsParseReply_bounded (pkt : List UInt8) (wantType : Nat) (large : 16 ≤ outSize) :
    Bounded outSize (dnsParseReply pkt wantType outSize) := by
  rw [dnsParseReply]
  by_cases short : pkt.length < 12
  · rw [if_pos short]
    exact bounded_none outSize
  · rw [if_neg short, rd16_ok (by omega), ok_bind, rd16_ok (by omega), ok_bind]
    split
    · exact bounded_none outSize
    · obtain ⟨r, skipped⟩ := dnsQuestions_ok pkt (pkt[4].toNat <<< 8 ||| pkt[4 + 1].toNat) 12
      rw [skipped, ok_bind]
      cases r with
      | none => exact bounded_none outSize
      | some off => exact dnsAnswers_bounded large wantType _ off

end Dns

end Tolunnet
