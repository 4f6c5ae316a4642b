import Mathlib.Algebra.Group.Nat.Defs
import Tolunnet.Common.Bytes
import Tolunnet.Common.Prefs

/-!
# `Tolunnet.Common.HttpUrl`: the chunked decoder and the headers

`tn_chunk_feed` of `http_url.c` decodes a body sent in chunks. It is called with a buffer, says how
many bytes of it are consumed and gives out one piece of chunk data at most.

`tn_http_parse_headers` looks for the end of the headers in the bytes received so far and reads the
lines in front of it. A pointer into the buffer is the memory from there on, which goes on behind the
received bytes; what lies behind the end of the list reads as NUL.
-/

set_option autoImplicit false

namespace Tolunnet

/-- `enum TnChunkStateEnum`. -/
inductive TnChunkStateEnum where
  | size | data | crlf | done | error
  deriving DecidableEq, Repr

/-- `struct TnChunkState`. -/
structure TnChunkState where
  state : TnChunkStateEnum
  chunkSize : Int
  chunkRem : Int
  inExt : Bool
  deriving DecidableEq, Repr

/-- `tn_chunk_init`. -/
def tnChunkInit : TnChunkState := { state := .size, chunkSize := 0, chunkRem := 0, inExt := false }

/-- The value of a hexadecimal digit, or -1. -/
def hexOf (c : UInt8) : Int :=
  if 48 ≤ c ∧ c ≤ 57 then (c.toNat : Int) - 48
  else if 97 ≤ c ∧ c ≤ 102 then (c.toNat : Int) - 97 + 10
  else if 65 ≤ c ∧ c ≤ 70 then (c.toNat : Int) - 65 + 10
  else -1

/-- `(size << 4) | hex` on an `int32_t`. The shift leaves the low four bits for the digit. -/
def shiftIn (size hex : Int) : Int := (size * 16 + hex).bmod (2 ^ 32)

/-- The loop of `tn_chunk_feed` over the bytes that are left, `pos` bytes into the buffer: the state,
`*consumed`, and the bytes behind `*out_data`. The bytes are those of `';'` and `'\n'`. -/
def feedLoop (st : TnChunkState) (pos : Nat) : List UInt8 → TnChunkState × Nat × List UInt8
  | [] => (st, pos, [])
  | c :: rest =>
    match st.state with
    | .size =>
      if c = 59 then feedLoop { st with inExt := true } (pos + 1) rest
      else if hexOf c ≥ 0 ∧ st.inExt = false then
        if st.chunkSize > 0x07FFFFF then ({ st with state := .error }, pos + 1, [])
        else feedLoop { st with chunkSize := shiftIn st.chunkSize (hexOf c) } (pos + 1) rest
      else if c = 10 then
        if st.chunkSize = 0 then ({ st with inExt := false, state := .done }, pos + 1, [])
        else ({ st with inExt := false, chunkRem := st.chunkSize, state := .data }, pos + 1, [])
      else feedLoop st (pos + 1) rest
    | .data =>
      let avail : Int := rest.length + 1
      let take := if avail < st.chunkRem then avail else st.chunkRem
      if take < 0 then ({ st with state := .error }, pos, [])
      else
        let st := { st with chunkRem := st.chunkRem - take }
        (if st.chunkRem = 0 then { st with state := .crlf } else st, pos + take.toNat,
          (c :: rest).take take.toNat)
    | .crlf =>
      if c = 10 then feedLoop { st with chunkSize := 0, state := .size } (pos + 1) rest
      else feedLoop st (pos + 1) rest
    | .done => (st, pos + rest.length + 1, [])
    | .error => (st, 0, [])

/-- `tn_chunk_feed`. -/
def tnChunkFeed (st : TnChunkState) (input : List UInt8) : TnChunkState × Nat × List UInt8 :=
  feedLoop st 0 input

/-! ## Headers -/

/-- `struct TnHdrInfo`. -/
structure TnHdrInfo where
  statusCode : Int
  contentLength : Int
  isChunked : Bool
  acceptRanges : Bool
  location : List UInt8
  deriving DecidableEq, Repr

namespace Http

/-- `is_space`. -/
def isSpace (c : UInt8) : Bool := c == 32 || c == 9 || c == 13 || c == 10

/-- `to_lower`. -/
def toLower (c : UInt8) : UInt8 := if 65 ≤ c ∧ c ≤ 90 then c + 32 else c

/-- `ci_strncmp`. -/
def ciStrncmp (s1 s2 : List UInt8) : Nat → Int
  | 0 => 0
  | n + 1 =>
    let c1 := toLower (s1.headD 0)
    let c2 := toLower (s2.headD 0)
    if c1 ≠ c2 ∨ s1.headD 0 = 0 ∨ s2.headD 0 = 0 then (c1.toNat : Int) - c2.toNat
    else ciStrncmp s1.tail s2.tail n

/-- Whether memory starts with a word, in any case. -/
def ciStarts (s : List UInt8) (word : String) : Bool := ciStrncmp s (ascii word) (ascii word).length == 0

/-- `strchr`: how far away the character is. -/
def strchr (c : UInt8) : List UInt8 → Option Nat
  | [] => none
  | d :: s => if d = c then some 0 else if d = 0 then none else (strchr c s).map (· + 1)

/-- The position behind the first occurrence of `pat` in a buffer. -/
def behind (pat : List UInt8) : List UInt8 → Option Nat
  | [] => none
  | c :: buf => if pat.isPrefixOf (c :: buf) then some pat.length else (behind pat buf).map (· + 1)

/-- The end of the headers in the received bytes. -/
def endOffset (buf : List UInt8) : Option Nat := (behind [13, 10, 13, 10] buf).or (behind [10, 10] buf)

/-- A digit. -/
def isDigit (c : UInt8) : Bool := 48 ≤ c && c ≤ 57

/-- Whether a byte is a blank between a name and its value. -/
def isGap (c : UInt8) : Bool := c == 32 || c == 9

/-- The three digits of a status code. -/
def statusDigits : List UInt8 → Option Int
  | a :: b :: c :: _ =>
    if isDigit a && isDigit b && isDigit c then
      some (((a.toNat : Int) - 48) * 100 + ((b.toNat : Int) - 48) * 10 + ((c.toNat : Int) - 48))
    else none
  | _ => none

/-- The status code of the status line, when there is one. -/
def statusCode (mem : List UInt8) (endOff : Nat) : Option Int :=
  if ciStarts mem "HTTP/" then
    match strchr 32 mem with
    | none => none
    | some sp =>
      if sp < endOff then statusDigits ((mem.drop sp).dropWhile (· == 32)) else none
  else none

/-- The digit loop of `Content-Length`, in 32 bits. -/
def lengthValue (digits : List UInt8) : Int :=
  digits.foldl (fun clen c => wrapLong (clen * 10 + ((c.toNat : Int) - 48))) 0

/-- What a header line of `lineLen` bytes at `line` stores. -/
def headerLine (out : TnHdrInfo) (line : List UInt8) (lineLen : Nat) : TnHdrInfo :=
  if lineLen ≥ 15 ∧ ciStarts line "content-length:" then
    { out with contentLength := lengthValue (((line.drop 15).dropWhile isGap).takeWhile isDigit) }
  else if lineLen ≥ 18 ∧ ciStarts line "transfer-encoding:" then
    if ciStarts ((line.drop 18).dropWhile isGap) "chunked" then { out with isChunked := true } else out
  else if lineLen ≥ 9 ∧ ciStarts line "location:" then
    let gap := ((line.drop 9).takeWhile isGap).length
    let val := (line.drop (9 + gap)).take (lineLen - (9 + gap))
    { out with location := (val.takeWhile fun c => !isSpace c).take 255 }
  else if lineLen ≥ 14 ∧ ciStarts line "accept-ranges:" then
    if ciStarts ((line.drop 14).dropWhile isGap) "bytes" then { out with acceptRanges := true } else out
  else out

/-- The loop over the lines of the headers, which has `left` bytes to go. Each turn takes at least
one of them, so there are no more turns than that. -/
def headerLines (out : TnHdrInfo) (line : List UInt8) (left : Nat) : Nat → TnHdrInfo
  | 0 => out
  | turns + 1 =>
    if left = 0 then out
    else
      match strchr 10 line with
      | none => out
      | some eol =>
        if left ≤ eol then out
        else
          let lineLen := if eol > 0 ∧ (line)[eol - 1]? = some 13 then eol - 1 else eol
          headerLines (headerLine out line lineLen) (line.drop (eol + 1)) (left - (eol + 1)) turns

end Http

open Http in
/-- `tn_http_parse_headers` on the first `len` bytes of the memory at `hdr_buf`: the end of the
headers and what they say, or nothing for -1. -/
def tnHttpParseHeaders (mem : List UInt8) (len : Nat) : Option (Nat × TnHdrInfo) :=
  match endOffset (mem.take len) with
  | none => none
  | some endOff =>
    let out : TnHdrInfo :=
      { statusCode := (statusCode mem endOff).getD (-1), contentLength := -1, isChunked := false,
        acceptRanges := false, location := [] }
    some (endOff, headerLines out mem endOff endOff)

end Tolunnet
