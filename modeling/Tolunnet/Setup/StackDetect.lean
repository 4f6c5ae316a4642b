import Tolunnet.Lib.Segments
import Tolunnet.Setup.Files

/-!
# `Tolunnet.Setup.StackDetect`: the startup lines of other stacks

The part of `stack_detect.c` that works on scripts: which lines start another TCP/IP stack, the two
parsers that disable such lines and restore them, and the rewriting of a script file with one of them.

A parser copies piece by piece into a buffer of a given size. A piece that does not fit is left out,
and the next one is tried.
-/

set_option autoImplicit false

namespace Tolunnet

namespace Stack

open Segments

/-! ## Commands -/

/-- `next_token`: the token and what is behind it. -/
def nextToken (p : List Char) : List Char × List Char :=
  match p.dropWhile isSpace with
  | '"' :: s => (s.takeWhile (· ≠ '"'), (s.dropWhile (· ≠ '"')).tail)
  | s => (s.takeWhile (!isSpace ·), s.dropWhile (!isSpace ·))

/-- `token_is`. -/
def tokenIs (tok word : List Char) : Bool := tok.map Char.toLower == word

/-- What is behind the last `:` or `/`. -/
def basename (tok : List Char) : List Char :=
  (tok.reverse.takeWhile fun c => c ≠ ':' && c ≠ '/').reverse

/-- The names of the commands. -/
def names : List (List Char) :=
  ["miami".toList, "miamidx".toList, "miamiinit".toList, "amitcp".toList, "addnetinterface".toList,
    "configurenetinterface".toList, "netshutdown".toList, "genesis".toList, "startnet".toList,
    "stopnet".toList]

/-- The program behind `Run` or `Execute` and its redirections; each token that is passed over takes
a character at least. -/
def program : Nat → List Char → List Char
  | 0, _ => []
  | fuel + 1, p =>
    let (tok, p) := nextToken p
    match tok with
    | [] => []
    | c :: _ => if c = '<' ∨ c = '>' then program fuel p else tok

/-- `is_stack_keyword_slice`. -/
def isStackKeywordSlice (line : List Char) : Bool :=
  let p := line.dropWhile isSpace
  if p.head? = some ';' ∨ p.head? = some '#' then false
  else
    let (tok, p) := nextToken p
    let b := basename tok
    let tok := if tokenIs b "run".toList || tokenIs b "execute".toList || tok == [] then
        program (p.length + 1) p
      else tok
    tok != [] && names.any (tokenIs (basename tok))

/-! ## The parsers -/

/-- `"; tolunnet-disabled: "`. -/
def disabledPrefix : List Char := "; tolunnet-disabled: ".toList

/-- A piece is copied when it fits. -/
def put (outMax : Int) (out piece : List Char) : List Char :=
  if (out.length : Int) + piece.length < outMax then out ++ piece else out

/-- So is a character of a line end, when there is one. -/
def putEnd (outMax : Int) (out : List Char) (there : Bool) (c : Char) : List Char :=
  if there = true ∧ (out.length : Int) < outMax - 1 then out ++ [c] else out

/-- A line without its carriage return, and whether it has one. -/
def splitCr (line : List Char) : List Char × Bool :=
  if line.getLast? = some '\r' then (line.dropLast, true) else (line, false)

/-- One turn of the loop of a parser, which makes the pieces of a line with `change`. -/
def scriptLine (change : List Char → List (List Char) × Bool) (outMax : Int)
    (st : List Char × Nat) (line : Segment Char) : List Char × Nat :=
  let (body, cr) := splitCr line.text
  let (pieces, changed) := change body
  let out := pieces.foldl (put outMax) st.1
  (putEnd outMax (putEnd outMax out cr '\r') line.ended '\n', if changed then st.2 + 1 else st.2)

/-- The common frame of the parsers: what is in `out_buf`, and the count, which stays as it was when
there is no room at all. -/
def rewriteScript (change : List Char → List (List Char) × Bool) (content : List Char) (outMax : Int)
    (count : Nat) : List Char × Nat :=
  if outMax ≤ 0 then ([], count)
  else (segments '\n' (cString content)).foldl (scriptLine change outMax) ([], 0)

/-- What `tn_parse_startup_script` makes of a line. -/
def disableLine (body : List Char) : List (List Char) × Bool :=
  if isStackKeywordSlice body then ([disabledPrefix, body], true) else ([body], false)

/-- What `tn_uncomment_startup_script` makes of a line. -/
def restoreLine (body : List Char) : List (List Char) × Bool :=
  if disabledPrefix.isPrefixOf body then ([body.drop disabledPrefix.length], true) else ([body], false)

/-- `tn_parse_startup_script`. -/
def tnParseStartupScript (content : List Char) (outMax : Int) (count : Nat) : List Char × Nat :=
  rewriteScript disableLine content outMax count

/-- `tn_uncomment_startup_script`. -/
def tnUncommentStartupScript (content : List Char) (outMax : Int) (count : Nat) : List Char × Nat :=
  rewriteScript restoreLine content outMax count

/-! ## The file -/

/-- `out_cap - 1`, where `out_cap` is `file_size * 2 + 1024`. -/
def outMaxFor (size : Nat) : Int := wrapLong (wrapLong (size * 2 + 1024) - 1)

/-- `rewrite_file_with_parser`. -/
def rewriteFileWithParser (parser : List Char → Int → Nat → List Char × Nat) (s : DosState) :
    DosState × Bool :=
  match dosOpenOld s .path with
  | (s, false) =>
    let (s, exists_) := dosOpenOld s .path
    (s, !exists_)
  | (s, true) =>
    let content := (s.disk .path).getD []
    let (s, fib) := dosCall s
    let (s, examined) := if fib then dosCall s else (s, false)
    if examined = false then ((dosClose s).1, false)
    else if content = [] then ((dosClose s).1, true)
    else
      match dosCall s with
      | (s, false) => ((dosClose s).1, false)
      | (s, true) =>
        let (s, buf) := readLoop content.length [] content s
        let s := (dosClose s).1
        if buf.length ≠ content.length then (s, false)
        else
          match dosCall s with
          | (s, false) => (s, false)
          | (s, true) =>
            let (out, count) := parser buf (outMaxFor content.length) 0
            if count > 0 ∧ out ≠ [] then installText s out else (s, true)

end Stack

end Tolunnet
