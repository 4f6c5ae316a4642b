import Tolunnet.Lib.Segments
import Tolunnet.Setup.Files

/-!
# `Tolunnet.Setup.BootBlock`: the block in the startup script

`boot_block.c`. The editor reads the whole script, copies every line outside the `BEGIN tolunnet` and
`END tolunnet` markers, and puts its own block behind them when the program is enabled. The result goes
to `.tolunnet-new` and is moved into place; `.tolunnet-bak` keeps the first version that was met.
-/

set_option autoImplicit false

namespace Tolunnet

open Segments

/-! ## Lines -/

/-- `TN_BB_BEGIN` and `TN_BB_END`. -/
def bbBegin : List Char := "BEGIN tolunnet".toList
def bbEnd : List Char := "END tolunnet".toList

/-- `TN_BB_BLOCK`. -/
def bbBlock : List Char :=
  ("; BEGIN tolunnet\n" ++ "If EXISTS C:tolunnet\n" ++ "Stack 32768\n" ++
    "Run <NIL: >NIL: C:tolunnet\n" ++ "EndIf\n" ++ "; END tolunnet\n").toList

/-- `bb_is_marker`. -/
def bbIsMarker (line word : List Char) : Bool :=
  match line with
  | ';' :: rest =>
    let rest := rest.dropWhile isSpace
    word.isPrefixOf rest &&
      match rest.drop word.length with
      | [] => true
      | c :: _ => isSpace c || c == '\r'
  | _ => false

/-- One turn of the loop of `tn_boot_block_apply`, with `inside` and what is in `out_buf`. -/
def bootLine (st : Bool × List Char) (line : Segment Char) : Bool × List Char :=
  if bbIsMarker line.text bbBegin then (true, st.2)
  else if st.1 then (!bbIsMarker line.text bbEnd, st.2)
  else (st.1, st.2 ++ line.joined '\n')

/-- The newline that the last line may be without. -/
def terminate (out : List Char) : List Char :=
  if out.getLast?.any (· ≠ '\n') then out ++ ['\n'] else out

/-- What is written: `out_buf` for the content `in_buf`. -/
def bootEdit (content : List Char) (enable : Bool) : List Char :=
  let out := ((segments '\n' content).foldl bootLine (false, [])).2
  if enable then terminate out ++ bbBlock else out

/-! ## The file -/

/-- The files, and `.tolunnet-bak`. -/
structure BootState where
  dos : DosState
  bak : Option (List Char)

/-- `bb_suffix_path`, with a buffer of 300 bytes. -/
def bbSuffixPath (path suffix : List Char) : Option (List Char) :=
  if path = [] ∨ path.length + suffix.length + 1 > 300 then none else some (path ++ suffix)

/-- The loop of `bb_copy_once`: what is behind the place in the source, and what the copy holds. It is
true when the end is reached. -/
def bbCopyLoop : Nat → List Char → List Char → DosState → DosState × List Char × Bool
  | 0, _, copy, s => (s, copy, false)
  | fuel + 1, rest, copy, s =>
    match dosRead s rest 1024 with
    | (s, none) => (s, copy, false)
    | (s, some chunk) =>
      if chunk = [] then (s, copy, true)
      else if s.ask.ok then bbCopyLoop fuel (rest.drop chunk.length) (copy ++ chunk) s.asked
      else (s.asked, copy ++ chunk.take s.ask.cut, false)

/-- `bb_copy_once`. -/
def bbCopyOnce (s : BootState) : BootState :=
  match dosOpenOld s.dos .path with
  | (dos, false) => { s with dos }
  | (dos, true) =>
    match dosCall dos with
    | (dos, false) => { s with dos := (dosClose dos).1 }
    | (dos, true) =>
      let content := (dos.disk .path).getD []
      let (dos, copy, done) := bbCopyLoop (content.length + 1) content [] dos
      let dos := (dosClose (dosClose dos).1).1
      if done then ⟨dos, some copy⟩
      else if dos.ask.ok then ⟨dos.asked, none⟩ else ⟨dos.asked, some copy⟩

/-- Seeds `.tolunnet-bak` once. -/
def seedBak (s : BootState) : BootState :=
  if s.dos.ask.ok && s.bak.isSome then { s with dos := s.dos.asked }
  else bbCopyOnce { s with dos := s.dos.asked }

/-- The second half of `tn_boot_block_apply`: the file is open, or there is none. -/
def bootRewrite (enable : Bool) (file : Option (List Char)) (s : BootState) : BootState × Bool :=
  let close := fun dos => if file.isSome then (dosClose dos).1 else dos
  let content := file.getD []
  let (dos, inBuf) := dosCall s.dos
  let (dos, outBuf) := dosCall dos
  if inBuf = false ∨ outBuf = false then ({ s with dos := close dos }, false)
  else
    let (dos, buf) := readLoop content.length [] content dos
    let s := { s with dos := close dos }
    if buf.length ≠ content.length then (s, false)
    else
      let s := if file.isSome then seedBak s else s
      let (dos, ok) := installText s.dos (bootEdit buf enable)
      ({ s with dos }, ok)

/-- `tn_boot_block_apply`. -/
def tnBootBlockApply (path : List Char) (enable : Bool) (s : BootState) : BootState × Bool :=
  if bbSuffixPath path ".tolunnet-new".toList = none ∨
      bbSuffixPath path ".tolunnet-prev".toList = none ∨
      bbSuffixPath path ".tolunnet-bak".toList = none then (s, false)
  else
    match dosOpenOld s.dos .path with
    | (dos, true) =>
      match dosCall dos with
      | (dos, false) => ({ s with dos := (dosClose dos).1 }, false)
      | (dos, true) => bootRewrite enable (dos.disk .path) { s with dos }
    | (dos, false) =>
      match dosOpenOld dos .path with
      | (dos, true) => ({ s with dos }, false)
      | (dos, false) =>
        if enable then bootRewrite enable none { s with dos } else ({ s with dos }, true)

end Tolunnet
