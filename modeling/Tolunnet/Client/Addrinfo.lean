import Tolunnet.Common.InetParse
import Tolunnet.Task.Exec

/-!
# `Tolunnet.Client.Addrinfo`: services and `getaddrinfo`

`getservbyname` and `getaddrinfo` of the library's vectors. `getaddrinfo` puts a service's port into
the address that it allocates: a text of digits is the port, any other text is looked up.

A port and an address are in host order, as the big-endian target has them. Looking up a host name
is a request to the daemon, and is a parameter here.
-/

set_option autoImplicit false

namespace Tolunnet

/-! ## Services -/

/-- `struct ServiceDef`. -/
structure ServiceDef where
  name : List Char
  proto : List Char
  port : Nat

/-- `g_services`. -/
def gServices : List ServiceDef :=
  [⟨"echo".toList, "tcp".toList, 7⟩, ⟨"echo".toList, "udp".toList, 7⟩,
   ⟨"ftp-data".toList, "tcp".toList, 20⟩, ⟨"ftp".toList, "tcp".toList, 21⟩,
   ⟨"ssh".toList, "tcp".toList, 22⟩, ⟨"telnet".toList, "tcp".toList, 23⟩,
   ⟨"smtp".toList, "tcp".toList, 25⟩, ⟨"time".toList, "tcp".toList, 37⟩,
   ⟨"time".toList, "udp".toList, 37⟩, ⟨"domain".toList, "udp".toList, 53⟩,
   ⟨"domain".toList, "tcp".toList, 53⟩, ⟨"gopher".toList, "tcp".toList, 70⟩,
   ⟨"finger".toList, "tcp".toList, 79⟩, ⟨"http".toList, "tcp".toList, 80⟩,
   ⟨"pop3".toList, "tcp".toList, 110⟩, ⟨"ntp".toList, "udp".toList, 123⟩,
   ⟨"imap".toList, "tcp".toList, 143⟩, ⟨"https".toList, "tcp".toList, 443⟩]

/-- `tn_strcasecmp`. -/
def tnStrcasecmp : List Char → List Char → Int
  | c1 :: s1, c2 :: s2 =>
    if c1.toLower ≠ c2.toLower then (c1.toLower.toNat : Int) - c2.toLower.toNat
    else tnStrcasecmp s1 s2
  | s1, s2 => ((s1.headD '\x00').toNat : Int) - (s2.headD '\x00').toNat

/-- `getservbyname` with a protocol. -/
def tnLvoGetservbyname (name proto : List Char) : Option ServiceDef :=
  gServices.find? fun s => tnStrcasecmp name s.name == 0 && tnStrcasecmp proto s.proto == 0

/-! ## Addresses -/

/-- The error numbers of `getaddrinfo`. -/
def eaiNoname : Int := -2
def eaiFamily : Int := -6
def eaiSocktype : Int := -7
def eaiMemory : Int := -10

/-- `AI_PASSIVE`, `AI_CANONNAME` and `AI_NUMERICHOST`. -/
def aiPassive : Nat := 1
def aiCanonname : Nat := 2
def aiNumerichost : Nat := 4

/-- The fields of `struct addrinfo` that hints set. -/
structure AddrHints where
  aiFlags : Nat
  aiFamily : Int
  aiSocktype : Int

/-- The fields of `struct hostent` that are read. -/
structure Hostent where
  hName : Option (List Char)
  hAddrList : List Nat

/-- `struct addrinfo`, with its `sockaddr_in` and its name. -/
structure Addrinfo where
  aiFlags : Nat
  aiFamily : Int
  aiSocktype : Int
  aiProtocol : Int
  sinAddr : Nat
  sinPort : Nat
  aiCanonname : Option (List Char)

/-- The digit loop of a service, in 32 bits; a text that is no number gives -1. -/
def servicePort (servname : List Char) : Int :=
  if (servname.dropWhile Char.isDigit).isEmpty then digitsValue (servname.takeWhile Char.isDigit)
  else -1

/-- The port of a service, which is looked up when it is no number. -/
def sinPort (servname : List Char) (socktype : Int) : Nat :=
  let port := servicePort servname
  let port :=
    if port < 0 then
      match tnLvoGetservbyname servname (if socktype = sockDgram then "udp" else "tcp").toList with
      | some se => se.port
      | none => 0
    else port
  if port > 0 ∧ port < 65536 then port.toNat else 0

/-- The address of a host name, with what the lookup gave. -/
def hostAddr (gethostbyname : List Char → Option Hostent) (hostname : List Char)
    (hints : Option AddrHints) : Except Int (Nat × Option Hostent) :=
  let flags := (hints.map (·.aiFlags)).getD 0
  if hostname ≠ [] then
    match tnInetAddrParseEx hostname with
    | some addr => if addr = 0xFFFFFFFF then byName flags else .ok (addr, none)
    | none => byName flags
  else .ok (if flags &&& aiPassive ≠ 0 then 0 else 0x7F000001, none)
where
  /-- A name that is no address. -/
  byName (flags : Nat) : Except Int (Nat × Option Hostent) :=
    if flags &&& aiNumerichost ≠ 0 then .error eaiNoname
    else
      match gethostbyname hostname with
      | some ⟨hName, addr :: addrs⟩ => .ok (addr, some ⟨hName, addr :: addrs⟩)
      | _ => .error eaiNoname

/-- `getaddrinfo` with a base and a place for the result; `room` says whether the allocation
succeeds. -/
def tnLvoGetaddrinfo (gethostbyname : List Char → Option Hostent)
    (hostname servname : Option (List Char)) (hints : Option AddrHints) (room : Bool) :
    Except Int Addrinfo :=
  let hint := hints.getD ⟨0, 0, 0⟩
  if hint.aiFamily ≠ afInet ∧ hint.aiFamily ≠ 0 then .error eaiFamily
  else if hint.aiSocktype ≠ 0 ∧ hint.aiSocktype ≠ sockStream ∧ hint.aiSocktype ≠ sockDgram ∧
      hint.aiSocktype ≠ sockRaw then .error eaiSocktype
  else
    let socktype := if hint.aiSocktype ≠ 0 then hint.aiSocktype else sockStream
    match hostAddr gethostbyname (hostname.getD []) hints with
    | .error e => .error e
    | .ok (addr, he) =>
      if room = false then .error eaiMemory
      else
        .ok {
          aiFlags := hint.aiFlags
          aiFamily := afInet
          aiSocktype := socktype
          aiProtocol := if socktype = sockDgram then 17 else 6
          sinAddr := addr
          sinPort := if servname.getD [] ≠ [] then sinPort (servname.getD []) socktype else 0
          aiCanonname :=
            if hint.aiFlags &&& aiCanonname ≠ 0 then
              ((he.bind (·.hName)).or hostname).map (·.take 254)
            else none }

end Tolunnet
