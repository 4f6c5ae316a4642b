import Mathlib.Algebra.Order.Ring.Int

/-!
# `Tolunnet.Common.Prefs`: the preferences and the `KEY=VALUE` parser

The first half of `config_text.c` with `TnPrefs` of `prefs.h`: the factory defaults, the string
helpers and `tn_config_parse_line`. A C string is the list of its characters; a character stands
for a byte, and nothing depends on the codes above 127. `ULONG` is `Nat`, `LONG` and `BOOL` are
`Int`; arithmetic that can leave 32 bits wraps (`wrapLong`, `toUlong`).

The parser of the source is one chain of comparisons with a branch for each key. Here the chain
is the table `cfgNames`, and a branch is split in two: `cfgValue` reads the value, or refuses it,
and `TnPrefs.put` stores it. `CfgKey.Val` is the type of the field that a key sets.
-/

set_option autoImplicit false

namespace Tolunnet

/-! ## Strings and numbers -/

/-- The C string in a buffer. -/
def cString (s : List Char) : List Char := s.takeWhile (· ≠ '\x00')

/-- White space and line ends. -/
def isBlank (c : Char) : Bool := c == '\r' || c == '\n' || c == ' ' || c == '\t'

/-- The characters at which `tn_str_copy_clean` stops. -/
def isStop (c : Char) : Bool := c == '\x00' || isBlank c

/-- `tn_str_copy_clean` into an array of `maxLen` characters. -/
def tnStrCopyClean (src : List Char) (maxLen : Nat) : List Char :=
  (src.takeWhile fun c => !isStop c).take (maxLen - 1)

/-- `tn_str_equal_nocase`. -/
def tnStrEqualNocase (s t : List Char) : Bool := s.map Char.toUpper == t.map Char.toUpper

/-- Whether a value is one of the listed words. -/
def isWord (v : List Char) (words : List String) : Bool :=
  words.any fun w => tnStrEqualNocase v w.toList

/-- Whether a character is a letter, a digit or one of `extra`. -/
def isTokenChar (extra : List Char) (c : Char) : Bool := c.isAlphanum || extra.contains c

/-- `tn_val_token`: the value without its trailing blanks consists of token characters. -/
def tnValToken (val extra : List Char) : Bool :=
  ((cString val).reverse.dropWhile isBlank).all (isTokenChar extra)

/-- A `LONG` result of an operation that may leave 32 bits. -/
def wrapLong (v : Int) : Int := v.bmod (2 ^ 32)

/-- The cast to `ULONG`. -/
def toUlong (v : Int) : Nat := (v % 2 ^ 32).toNat

/-- The digit loop of `tn_str_to_long`. -/
def digitsValue (digits : List Char) : Int :=
  digits.foldl (fun v c => wrapLong (v * 10 + (c.toNat - '0'.toNat : Nat))) 0

/-- `tn_str_to_long`: an optional minus sign and the digits that follow it. -/
def tnStrToLong (s : List Char) : Option Int :=
  let neg := s.head? == some '-'
  let digits := (if neg then s.tail else s).takeWhile Char.isDigit
  if digits = [] then none
  else some (if neg then wrapLong (-digitsValue digits) else digitsValue digits)

/-- A number in the range `lo` to `hi`. -/
def numIn (s : List Char) (lo hi : Int) : Option Int :=
  (tnStrToLong s).filter fun n => decide (lo ≤ n) && decide (n ≤ hi)

/-! ## The preferences -/

/-- `TnPrefs`. -/
structure TnPrefs where
  device : List Char := []
  unit : Nat := 0
  useDhcp : Int := 0
  ipAddr : List Char := []
  netmask : List Char := []
  gateway : List Char := []
  dnsServer : List Char := []
  hostname : List Char := []
  dns2 : List Char := []
  mtu : Nat := 0
  debug : Nat := 0
  priority : Int := 0
  logFile : List Char := []
  logLevel : Int := 0
  databaseOrder : List Char := []
  selectors : Nat := 0
  stats : Int := 0
  syslogHost : List Char := []
  s2events : Nat := 0
  dnsPort : Nat := 0
  dnsPendingMax : Nat := 0
  dnsRetries : Nat := 0
  txQueue : Nat := 0
  font : List Char := []
  diag : Nat := 0
  autoip : Int := 0
  mdns : Int := 0
  deriving DecidableEq, Repr

/-- `TN_DNS_PENDING_MAX`. -/
def dnsPendingMax : Nat := 8

/-- `tn_prefs_default`: every field but `dns_pending_max` and `dns_retries` is assigned. -/
def tnPrefsDefault (prefs : TnPrefs) : TnPrefs :=
  { prefs with
    device := tnStrCopyClean "ethernet.device".toList 64
    unit := 0
    useDhcp := 1
    ipAddr := []
    netmask := []
    gateway := []
    dnsServer := []
    hostname := tnStrCopyClean "amiga".toList 64
    dns2 := []
    mtu := 0
    debug := 0
    priority := 5
    logFile := []
    logLevel := -1
    databaseOrder := []
    selectors := 0
    stats := 1
    syslogHost := []
    s2events := 0
    dnsPort := 0
    diag := 0
    txQueue := 0
    font := []
    autoip := 0
    mdns := 0 }

/-! ## Keys -/

/-- The settings of a configuration file. -/
inductive CfgKey where
  | device | unit | dhcp | ip | netmask | gateway | dnsPort | dns2 | dns | hostname | mtu
  | debug | priority | log | loglevel | databaseOrder | selectors | txQueue | dnsPending
  | dnsRetries | stats | syslog | s2events | font | diag | autoip | mdns | version
  deriving DecidableEq, Repr

/-- The spellings of the keys, in the order in which the parser compares them. -/
def cfgNames : List (List Char × CfgKey) :=
  [("DEVICE".toList, .device), ("UNIT".toList, .unit),
   ("DHCP".toList, .dhcp), ("USE_DHCP".toList, .dhcp),
   ("IP".toList, .ip), ("IP_ADDR".toList, .ip),
   ("NETMASK".toList, .netmask), ("MASK".toList, .netmask),
   ("GATEWAY".toList, .gateway), ("GW".toList, .gateway),
   ("DNS_PORT".toList, .dnsPort), ("DNS2".toList, .dns2),
   ("DNS".toList, .dns), ("DNS1".toList, .dns), ("NAMESERVER".toList, .dns),
   ("HOSTNAME".toList, .hostname), ("MTU".toList, .mtu), ("DEBUG".toList, .debug),
   ("PRIORITY".toList, .priority), ("LOG".toList, .log), ("LOGLEVEL".toList, .loglevel),
   ("DATABASE_ORDER".toList, .databaseOrder), ("SELECTORS".toList, .selectors),
   ("TX_QUEUE".toList, .txQueue), ("DNS_PENDING".toList, .dnsPending),
   ("DNS_RETRIES".toList, .dnsRetries), ("STATS".toList, .stats), ("SYSLOG".toList, .syslog),
   ("S2EVENTS".toList, .s2events), ("FONT".toList, .font), ("DIAG".toList, .diag),
   ("AUTOIP".toList, .autoip), ("MDNS".toList, .mdns), ("VERSION".toList, .version)]

/-- The setting that a key names. -/
def cfgKey? (key : List Char) : Option CfgKey :=
  (cfgNames.find? fun e => tnStrEqualNocase key e.1).map Prod.snd

namespace CfgKey

/-- The type of the field that a key sets. `VERSION` sets none. -/
@[reducible] def Val : CfgKey → Type
  | device | ip | netmask | gateway | dns2 | dns | hostname | log | databaseOrder | syslog
  | font => List Char
  | unit | dnsPort | mtu | debug | selectors | txQueue | dnsPending | dnsRetries | s2events
  | diag => Nat
  | priority | loglevel | dhcp | stats | autoip | mdns => Int
  | version => Unit

end CfgKey

namespace TnPrefs

/-- The field of a key. -/
def get (p : TnPrefs) : (k : CfgKey) → k.Val
  | .device => p.device | .unit => p.unit | .dhcp => p.useDhcp | .ip => p.ipAddr
  | .netmask => p.netmask | .gateway => p.gateway | .dnsPort => p.dnsPort | .dns2 => p.dns2
  | .dns => p.dnsServer | .hostname => p.hostname | .mtu => p.mtu | .debug => p.debug
  | .priority => p.priority | .log => p.logFile | .loglevel => p.logLevel
  | .databaseOrder => p.databaseOrder | .selectors => p.selectors | .txQueue => p.txQueue
  | .dnsPending => p.dnsPendingMax | .dnsRetries => p.dnsRetries | .stats => p.stats
  | .syslog => p.syslogHost | .s2events => p.s2events | .font => p.font | .diag => p.diag
  | .autoip => p.autoip | .mdns => p.mdns | .version => ()

/-- An assignment to the field of a key. -/
def put (p : TnPrefs) : (k : CfgKey) → k.Val → TnPrefs
  | .device, v => { p with device := v } | .unit, v => { p with unit := v }
  | .dhcp, v => { p with useDhcp := v } | .ip, v => { p with ipAddr := v }
  | .netmask, v => { p with netmask := v } | .gateway, v => { p with gateway := v }
  | .dnsPort, v => { p with dnsPort := v } | .dns2, v => { p with dns2 := v }
  | .dns, v => { p with dnsServer := v } | .hostname, v => { p with hostname := v }
  | .mtu, v => { p with mtu := v } | .debug, v => { p with debug := v }
  | .priority, v => { p with priority := v } | .log, v => { p with logFile := v }
  | .loglevel, v => { p with logLevel := v } | .databaseOrder, v => { p with databaseOrder := v }
  | .selectors, v => { p with selectors := v } | .txQueue, v => { p with txQueue := v }
  | .dnsPending, v => { p with dnsPendingMax := v } | .dnsRetries, v => { p with dnsRetries := v }
  | .stats, v => { p with stats := v } | .syslog, v => { p with syslogHost := v }
  | .s2events, v => { p with s2events := v } | .font, v => { p with font := v }
  | .diag, v => { p with diag := v } | .autoip, v => { p with autoip := v }
  | .mdns, v => { p with mdns := v } | .version, _ => p

variable (p q : TnPrefs) (k k' : CfgKey)

@[simp] theorem get_put (v : k.Val) : (p.put k v).get k = v := by
  cases k <;> rfl

theorem get_put_of_ne (v : k.Val) (h : k' ≠ k) : (p.put k v).get k' = p.get k' := by
  cases k <;> cases k' <;> first | rfl | exact absurd rfl h

/-- Preferences are the same when all their settings are. -/
theorem ext_get {p q : TnPrefs} (h : ∀ k, p.get k = q.get k) : p = q := by
  have hk := fun k => h k
  cases p
  cases q
  simp only [mk.injEq]
  exact ⟨hk .device, hk .unit, hk .dhcp, hk .ip, hk .netmask, hk .gateway, hk .dns, hk .hostname,
    hk .dns2, hk .mtu, hk .debug, hk .priority, hk .log, hk .loglevel, hk .databaseOrder,
    hk .selectors, hk .stats, hk .syslog, hk .s2events, hk .dnsPort, hk .dnsPending,
    hk .dnsRetries, hk .txQueue, hk .font, hk .diag, hk .autoip, hk .mdns⟩

end TnPrefs

/-! ## Values -/

/-- `TN_S2EV_*`, with the names of `S2EVENTS` in the order in which the file has them. -/
def s2evNames : List (List Char × Nat) :=
  [("ONLINE".toList, 8), ("OFFLINE".toList, 16), ("ERROR".toList, 1), ("TX".toList, 2),
   ("RX".toList, 4), ("BUFF".toList, 32), ("HARDWARE".toList, 64), ("SOFTWARE".toList, 128)]

/-- The bit of an event name. An empty name has none. -/
def s2evBit? (name : List Char) : Option Nat :=
  (s2evNames.find? fun e => tnStrEqualNocase name e.1).map Prod.snd

/-- The loop over the names of `S2EVENTS`, at most `fuel` of them: a name has at most 15
characters, and one that is not known makes the whole value invalid. -/
def s2eventsLoop : Nat → List Char → Nat → Option Nat
  | _, [], mask => some mask
  | 0, _ :: _, _ => none
  | fuel + 1, s, mask =>
    let name := (s.takeWhile (· ≠ '|')).take 15
    let rest := s.drop name.length
    let rest := if rest.head? = some '|' then rest.tail else rest
    match s2evBit? name with
    | none => none
    | some b => s2eventsLoop fuel rest (mask ||| b)

/-- The value of `S2EVENTS`: each turn of the loop takes at least one character. -/
def s2eventsValue (cleanVal : List Char) : Option Nat :=
  if tnStrEqualNocase cleanVal "DEFAULT".toList then some 0
  else (s2eventsLoop cleanVal.length cleanVal 0).filter (· ≠ 0)

/-- `name/size` with a size of 6 to 24. -/
def isFont (cleanVal : List Char) : Bool :=
  match cleanVal.dropWhile (· ≠ '/') with
  | [] => false
  | _ :: sz => !sz.isEmpty && sz.all Char.isDigit && (numIn sz 6 24).isSome

/-- What a key makes of its value: the new content of the field, or nothing when the value is
not accepted. -/
def cfgValue (k : CfgKey) (val : List Char) : Option k.Val :=
  let cleanVal := tnStrCopyClean val 64
  match k with
  | .device | .hostname | .log => some (tnStrCopyClean cleanVal 64)
  | .ip | .netmask | .gateway | .dns2 | .dns => some (tnStrCopyClean cleanVal 20)
  | .unit | .mtu => (tnStrToLong cleanVal).map toUlong
  | .dhcp => some (if isWord cleanVal ["YES", "1", "TRUE", "DHCP"] then 1 else 0 : Int)
  | .dnsPort => (numIn cleanVal 1 65535).map toUlong
  | .debug => (numIn cleanVal 0 2).map toUlong
  | .priority => numIn cleanVal (-128) 127
  | .loglevel => numIn cleanVal 0 2
  | .databaseOrder =>
    if tnValToken val ",_-".toList ∧ cleanVal ≠ [] then some (tnStrCopyClean cleanVal 40)
    else none
  | .selectors => (numIn cleanVal 1 128).map toUlong
  | .txQueue => (numIn cleanVal 0 8).map toUlong
  | .dnsPending => (numIn cleanVal 1 dnsPendingMax).map toUlong
  | .dnsRetries => (numIn cleanVal 1 16).map toUlong
  | .stats | .autoip | .mdns =>
    some (if isWord cleanVal ["NO", "0", "FALSE", "OFF"] then 0 else 1 : Int)
  | .syslog =>
    if tnValToken val ".-".toList ∧ cleanVal ≠ [] ∧ cleanVal.length < 48 then
      some (tnStrCopyClean cleanVal 48)
    else none
  | .s2events =>
    if tnValToken val "|".toList ∧ cleanVal ≠ [] then s2eventsValue cleanVal else none
  | .font =>
    if tnValToken val ".-/".toList ∧ cleanVal ≠ [] ∧ cleanVal.length < 24 ∧ isFont cleanVal then
      some (tnStrCopyClean cleanVal 24)
    else none
  | .diag => some (if isWord cleanVal ["YES", "1", "TRUE", "ON"] then 1 else 0 : Nat)
  | .version => some ()

/-- `tn_config_parse_line`. -/
def tnConfigParseLine (prefs : TnPrefs) (key val : List Char) : TnPrefs :=
  match cfgKey? (tnStrCopyClean key 32) with
  | none => prefs
  | some k =>
    match cfgValue k val with
    | none => prefs
    | some v => prefs.put k v

end Tolunnet
