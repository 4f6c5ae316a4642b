import Mathlib.Data.List.FinRange

/-!
# `Tolunnet.Task.Route`: static routes

`route.c` keeps up to 16 routes with their fields in network order. `route_hook.c` answers lwIP's two
questions from them: which interface a destination goes out of, and which gateway is the next hop.
The table works on the canonical value of the bytes, so the same code runs on the 68k and on the
little-endian host of the tests; `Endian` is the byte order of the machine.
-/

set_option autoImplicit false

namespace Tolunnet

namespace Route

/-! ## The table -/

/-- The byte order of the machine. -/
inductive Endian where
  | big | little
  deriving DecidableEq, Repr

/-- Byte `k` of a word in memory. -/
def byteAt (e : Endian) (v : BitVec 32) (k : Nat) : BitVec 32 :=
  match e with
  | .big => (v >>> (24 - 8 * k)) &&& 0xFF
  | .little => (v >>> (8 * k)) &&& 0xFF

/-- `be32`: the bytes of a word read as a big-endian integer. -/
def be32 (e : Endian) (v : BitVec 32) : BitVec 32 :=
  (byteAt e v 0 <<< 24) ||| (byteAt e v 1 <<< 16) ||| (byteAt e v 2 <<< 8) ||| byteAt e v 3

/-- `TnRoute`. -/
structure TnRoute where
  dest : BitVec 32 := 0
  mask : BitVec 32 := 0
  gw : BitVec 32 := 0
  inUse : Bool := false
  deriving DecidableEq, Repr

/-- `TN_MAX_ROUTES`. -/
abbrev RouteIdx := Fin 16

/-- `g_routes`. -/
abbrev RouteTable := RouteIdx → TnRoute

/-- The errors of `tn_route_add` and `tn_route_delete`. -/
inductive RouteErrno where
  | enoent | eexist | einval | enospc
  deriving DecidableEq, Repr

/-- `tn_route_init`. -/
def tnRouteInit (t : RouteTable) : RouteTable := fun i => { t i with inUse := false }

/-- `mask_is_contiguous`. -/
def maskIsContiguous (cmask : BitVec 32) : Bool :=
  let inv := ~~~ cmask
  (inv &&& (inv + 1)) == 0

/-- The entry in use for a prefix. -/
def findRoute (t : RouteTable) (dest mask : BitVec 32) : Option RouteIdx :=
  (List.finRange 16).find? fun i => (t i).inUse && (t i).dest == dest && (t i).mask == mask

/-- `tn_route_add`. -/
def tnRouteAdd (e : Endian) (t : RouteTable) (dest mask gw : BitVec 32) :
    RouteTable × Except RouteErrno Unit :=
  if maskIsContiguous (be32 e mask) = false ∨ be32 e dest &&& ~~~ be32 e mask ≠ 0 then
    (t, .error .einval)
  else
    match findRoute t dest mask with
    | some _ => (t, .error .eexist)
    | none =>
      match (List.finRange 16).find? fun i => !(t i).inUse with
      | some i =>
        (Function.update t i { dest := dest, mask := mask, gw := gw, inUse := true }, .ok ())
      | none => (t, .error .enospc)

/-- `tn_route_delete`. -/
def tnRouteDelete (t : RouteTable) (dest mask : BitVec 32) : RouteTable × Except RouteErrno Unit :=
  match findRoute t dest mask with
  | some i => (Function.update t i { t i with inUse := false }, .ok ())
  | none => (t, .error .enoent)

/-- The loop of `mask_prefix_len`, with the turns that are left. -/
def maskPrefixLoop : Nat → BitVec 32 → Nat → Nat
  | 0, _, n => n
  | turns + 1, cmask, n =>
    if cmask &&& 0x80000000 ≠ 0 then maskPrefixLoop turns (cmask <<< 1) (n + 1) else n

/-- `mask_prefix_len`. Each turn shifts a zero in, so there are at most 32. -/
def maskPrefixLen (cmask : BitVec 32) : Nat := maskPrefixLoop 33 cmask 0

/-- One turn of the loop of `tn_route_lookup`. -/
def lookupTurn (e : Endian) (t : RouteTable) (cdest : BitVec 32) (best : Option RouteIdx × Int)
    (i : RouteIdx) : Option RouteIdx × Int :=
  if (t i).inUse then
    let cmask := be32 e (t i).mask
    if cdest &&& cmask = be32 e (t i).dest then
      let len := maskPrefixLen cmask
      if (len : Int) > best.2 then (some i, len) else best
    else best
  else best

/-- `tn_route_lookup`, with `none` for -1. -/
def tnRouteLookup (e : Endian) (t : RouteTable) (dest : BitVec 32) : Option RouteIdx :=
  ((List.finRange 16).foldl (lookupTurn e t (be32 e dest)) (none, -1)).1

/-- `tn_route_at`, for an index of the table. -/
def tnRouteAt (t : RouteTable) (idx : RouteIdx) : Option TnRoute :=
  if (t idx).inUse then some (t idx) else none

/-! ## The hooks -/

/-- What the hooks read of a `struct netif`. -/
structure Netif where
  ipAddr : BitVec 32 := 0
  netmask : BitVec 32 := 0
  deriving DecidableEq, Repr

/-- A `struct netif *`. -/
abbrev NetifId := Nat

/-- lwIP's interfaces: the list, and `netif_default`, which may be NULL. -/
structure Netifs where
  list : List NetifId
  get : NetifId → Netif
  default : Option NetifId

/-- `ip4_addr_net_eq`. -/
def ip4AddrNetEq (a b mask : BitVec 32) : Bool := (a &&& mask) == (b &&& mask)

/-- `ip4_addr_isany_val`. -/
def ip4AddrIsany (a : BitVec 32) : Bool := a == 0

/-- The first interface with an address that passes a test (`NETIF_FOREACH`). The name of an
interface is an array, so the test of its address never stops the loop. -/
def firstNetif (ns : Netifs) (test : Netif → Bool) : Option NetifId :=
  ns.list.find? fun n => !ip4AddrIsany (ns.get n).ipAddr && test (ns.get n)

/-- `tn_route_hook_src` for a `dest` that is not NULL. -/
def tnRouteHookSrc (e : Endian) (t : RouteTable) (ns : Netifs) (dest : BitVec 32) :
    Option NetifId :=
  match firstNetif ns fun n => ip4AddrNetEq dest n.ipAddr n.netmask with
  | some _ => none
  | none =>
    match (tnRouteLookup e t dest).bind (tnRouteAt t) with
    | none => none
    | some r =>
      if r.gw = 0 then
        match firstNetif ns fun n => (r.mask &&& n.ipAddr) == r.dest with
        | some n => some n
        | none => ns.default
      else
        match firstNetif ns fun n => ip4AddrNetEq r.gw n.ipAddr n.netmask with
        | some n => some n
        | none => ns.default

/-- `tn_route_gw_get` for an `ipaddr` that is not NULL. The interface is not read. -/
def tnRouteGwGet (e : Endian) (t : RouteTable) (_netif : NetifId) (ipaddr : BitVec 32) :
    Option (BitVec 32) :=
  match (tnRouteLookup e t ipaddr).bind (tnRouteAt t) with
  | none => none
  | some r => if r.gw = 0 then none else some r.gw

end Route

end Tolunnet
