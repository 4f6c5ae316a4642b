import Tolunnet.Common.HttpUrl

/-!
# `Tolunnet.Common.HttpRedirect`: URLs and redirects

`tn_http_parse_url` and `tn_http_resolve_redirect` of `http_url.c`. A C string is the list of its
bytes, without the NUL at the end.
-/

set_option autoImplicit false

namespace Tolunnet

/-- `TN_SCHEME_HTTP` and `TN_SCHEME_HTTPS`. -/
inductive TnScheme where
  | http | https
  deriving DecidableEq, Repr

/-- `struct TnUrl`. -/
structure TnUrl where
  scheme : TnScheme
  host : List UInt8
  port : Nat
  path : List UInt8
  deriving DecidableEq, Repr

namespace Http

/-- The scheme of a URL and what is behind it. A URL without one is taken for http. -/
def urlScheme (p : List UInt8) : TnScheme × List UInt8 :=
  if ciStarts p "https://" then (.https, p.drop 8)
  else if ciStarts p "http://" then (.http, p.drop 7)
  else (.http, p)

/-- A byte of the host. -/
def isHostByte (c : UInt8) : Bool := c != 58 && c != 47

/-- The digit loop of the port. It stops with -1 as soon as the number exceeds 65535. -/
def portLoop (port : Nat) : List UInt8 → Option (Nat × List UInt8)
  | [] => some (port, [])
  | c :: p =>
    if isDigit c then
      if port * 10 + (c.toNat - 48) > 65535 then none else portLoop (port * 10 + (c.toNat - 48)) p
    else some (port, c :: p)

/-- The port of a URL and what is behind it: 80 when there is none. -/
def urlPort (p : List UInt8) : Option (Nat × List UInt8) :=
  match p with
  | 58 :: p => if (p.head?.map isDigit).getD false then portLoop 0 p else none
  | p => some (80, p)

/-- The path of a URL, `/` when there is none. -/
def urlPath (p : List UInt8) : Option (List UInt8) :=
  match p with
  | [] => some [47]
  | 47 :: _ =>
    let path := p.takeWhile fun c => !isSpace c
    if path.length > 255 then none else some path
  | _ => none

end Http

open Http in
/-- `tn_http_parse_url`, or nothing for -1. -/
def tnHttpParseUrl (urlStr : List UInt8) : Option TnUrl := do
  let (scheme, p) := urlScheme (urlStr.dropWhile isSpace)
  let host := p.takeWhile isHostByte
  if host.length > 127 then none
  if host.length = 0 then none
  let (port, p) ← urlPort (p.dropWhile isHostByte)
  let path ← urlPath p
  return { scheme := scheme, host := host, port := port, path := path }

namespace Http

/-- `strrchr(path, '/')`: the path up to its last slash, or `/` when it has none. -/
def upToSlash (path : List UInt8) : List UInt8 :=
  if 47 ∈ path then (path.reverse.dropWhile (· != 47)).reverse else [47]

end Http

open Http in
/-- `tn_http_resolve_redirect`, or nothing for -1. -/
def tnHttpResolveRedirect (current : TnUrl) (location : List UInt8) : Option TnUrl :=
  let loc := location.dropWhile isSpace
  if ciStarts loc "http://" ∨ ciStarts loc "https://" then tnHttpParseUrl loc
  else
    let text := loc.takeWhile fun c => !isSpace c
    if loc.head? = some 47 then
      if text.length > 255 then none else some { current with path := text }
    else
      let base := upToSlash current.path
      if base.length ≥ 256 then none
      else if base.length + text.length ≥ 256 then none
      else some { current with path := base ++ text }

end Tolunnet
