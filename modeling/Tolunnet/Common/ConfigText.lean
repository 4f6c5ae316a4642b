import Tolunnet.Common.Prefs
import Tolunnet.Lib.Lines

/-!
# `Tolunnet.Common.ConfigText`: writing, merging and comparing configurations

The second half of `config_text.c`: `tn_config_format` writes the preferences as text into a
buffer, `tn_config_merge_preserve` adds what must survive from the old text, and
`tn_recfg_diff` sorts the changed keys of a RECONFIG. A function of the source that returns -1
for a buffer that is too small returns `none`.
-/

set_option autoImplicit false

namespace Tolunnet

/-! ## Output -/

/-- `struct tn_cfg_out`; `buf` is what has been written so far. -/
structure TnCfgOut where
  size : Nat
  buf : List Char := []
  overflow : Bool := false

/-- One turn of the loop of `tn_cfg_put`. -/
def TnCfgOut.putChar (o : TnCfgOut) (c : Char) : TnCfgOut :=
  if o.buf.length + 1 < o.size then { o with buf := o.buf ++ [c] } else { o with overflow := true }

/-- `tn_cfg_put`. -/
def tnCfgPut (o : TnCfgOut) (s : List Char) : TnCfgOut := s.foldl TnCfgOut.putChar o

/-- The digit loop of `tn_cfg_put_kv_int`: at most `fuel` digits, the last one first. -/
def revDigits : Nat → Nat → List Char
  | 0, _ => []
  | fuel + 1, v => if v = 0 then [] else Char.ofNat ('0'.toNat + v % 10) :: revDigits fuel (v / 10)

/-- The decimal text of a `ULONG`. -/
def ulongText (v : Nat) : List Char := if v = 0 then ['0'] else (revDigits 15 v).reverse

/-- The decimal text of a `LONG`. -/
def longText (v : Int) : List Char :=
  if v < 0 then '-' :: ulongText (toUlong (-v)) else ulongText (toUlong v)

/-- `tn_cfg_put_kv_str`. -/
def tnCfgPutKvStr (o : TnCfgOut) (key val : List Char) : TnCfgOut :=
  tnCfgPut (tnCfgPut (tnCfgPut o key) val) ['\n']

/-- `tn_cfg_put_kv_int`. -/
def tnCfgPutKvInt (o : TnCfgOut) (key : List Char) (v : Nat) : TnCfgOut :=
  tnCfgPutKvStr o key (ulongText v)

/-- `tn_cfg_put_kv_long`. -/
def tnCfgPutKvLong (o : TnCfgOut) (key : List Char) (v : Int) : TnCfgOut :=
  tnCfgPutKvStr o key (longText v)

/-- `tn_cfg_put(&o, flag ? "YES\n" : "NO\n")` after the key. -/
def putYesNo (o : TnCfgOut) (key : List Char) (v : Int) : TnCfgOut :=
  tnCfgPut (tnCfgPut o key) (if v ≠ 0 then "YES\n".toList else "NO\n".toList)

/-- The event names of a mask, each with a pipe behind it. -/
def s2eventsPipes (mask : Nat) : List Char :=
  (s2evNames.filter fun e => mask &&& e.2 ≠ 0).flatMap fun e => e.1 ++ ['|']

/-- The `S2EVENTS` line: the pipe behind the last name is taken back. -/
def putS2events (o : TnCfgOut) (mask : Nat) : TnCfgOut :=
  let o := tnCfgPut (tnCfgPut o "S2EVENTS=".toList) (s2eventsPipes mask)
  tnCfgPut { o with buf := o.buf.dropLast } ['\n']

/-- `TN_CONFIG_TEXT_MAX`. -/
def configTextMax : Nat := 768

/-- `tn_config_format`. -/
def tnConfigFormat (prefs : TnPrefs) (bufSize : Nat) : Option (List Char) :=
  let o : TnCfgOut := { size := bufSize }
  let o := tnCfgPut o "# tolunnet configuration file\n".toList
  let o := tnCfgPut o "VERSION=1\n".toList
  let o := tnCfgPutKvStr o "DEVICE=".toList prefs.device
  let o := tnCfgPutKvInt o "UNIT=".toList prefs.unit
  let o := putYesNo o "DHCP=".toList prefs.useDhcp
  let o := tnCfgPutKvStr o "IP=".toList prefs.ipAddr
  let o := tnCfgPutKvStr o "NETMASK=".toList prefs.netmask
  let o := tnCfgPutKvStr o "GATEWAY=".toList prefs.gateway
  let o := tnCfgPutKvStr o "DNS=".toList prefs.dnsServer
  let o := tnCfgPutKvStr o "DNS2=".toList prefs.dns2
  let o := if prefs.dnsPort ≠ 0 then tnCfgPutKvInt o "DNS_PORT=".toList prefs.dnsPort else o
  let o := tnCfgPutKvStr o "HOSTNAME=".toList prefs.hostname
  let o := tnCfgPutKvInt o "MTU=".toList prefs.mtu
  let o := tnCfgPutKvInt o "DEBUG=".toList prefs.debug
  let o := tnCfgPutKvLong o "PRIORITY=".toList prefs.priority
  let o := if prefs.logFile ≠ [] then tnCfgPutKvStr o "LOG=".toList prefs.logFile else o
  let o := tnCfgPutKvLong o "LOGLEVEL=".toList prefs.logLevel
  let o := tnCfgPutKvInt o "SELECTORS=".toList prefs.selectors
  let o := if prefs.dnsPendingMax ≠ 0 then
    tnCfgPutKvInt o "DNS_PENDING=".toList prefs.dnsPendingMax else o
  let o := if prefs.dnsRetries ≠ 0 then
    tnCfgPutKvInt o "DNS_RETRIES=".toList prefs.dnsRetries else o
  let o := if prefs.txQueue ≠ 0 then tnCfgPutKvInt o "TX_QUEUE=".toList prefs.txQueue else o
  let o := putYesNo o "STATS=".toList prefs.stats
  let o := if prefs.databaseOrder ≠ [] then
    tnCfgPutKvStr o "DATABASE_ORDER=".toList prefs.databaseOrder else o
  let o := if prefs.syslogHost ≠ [] then tnCfgPutKvStr o "SYSLOG=".toList prefs.syslogHost else o
  let o := if prefs.s2events ≠ 0 then putS2events o prefs.s2events else o
  let o := if prefs.font ≠ [] then tnCfgPutKvStr o "FONT=".toList prefs.font else o
  let o := if prefs.autoip ≠ 0 then tnCfgPut o "AUTOIP=YES\n".toList else o
  let o := if prefs.mdns ≠ 0 then tnCfgPut o "MDNS=YES\n".toList else o
  if o.overflow then none else some o.buf

/-! ## Keeping what the old file has -/

/-- `g_cfg_keys`, the vocabulary of the checker. -/
def gCfgKeys : List (List Char) :=
  ["AUTOIP", "DATABASE_ORDER", "DEBUG", "DEVICE", "DIAG", "DHCP", "DNS", "DNS1",
   "DNS2", "DNS_PENDING", "DNS_PORT", "DNS_RETRIES", "FONT", "GATEWAY",
   "GW", "HOSTNAME", "IP", "IP_ADDR", "LOG", "LOGLEVEL", "MASK", "MDNS", "MTU",
   "NAMESERVER", "NETMASK", "PRIORITY", "S2EVENTS", "SELECTORS",
   "STATS", "SYSLOG", "TX_QUEUE", "UNIT", "USE_DHCP", "VERSION"].map String.toList

/-- `tn_config_key_known`. -/
def tnConfigKeyKnown (key : List Char) : Bool :=
  !key.isEmpty && gCfgKeys.any fun k => tnStrEqualNocase key k

/-- The longest line that the merge does not keep for its length alone. -/
def lineMax : Nat := 127

/-- The characters before the first `=`, at most 31. -/
def lineKey (line : List Char) : List Char := (line.take 31).takeWhile (· ≠ '=')

/-- Whether `tn_config_merge_preserve` carries a line over: it is too long for the reader, or it
is no comment and its key is not known. -/
def keepLine (line : List Char) : Bool :=
  decide (lineMax < line.length) ||
    (line.head? != some '#' && !(lineKey line).isEmpty &&
      !tnConfigKeyKnown (tnStrCopyClean (lineKey line) 32))

/-- The lines of a text. -/
def textLines (s : List Char) : List (List Char) := Lines.lines '\n' s

/-- The lines that a rewrite carries over. -/
def keptLines (s : List Char) : List (List Char) := (textLines s).filter keepLine

/-- One kept line: `none` when it does not fit. -/
def mergeLine (bufSize : Nat) (buf line : List Char) : Option (List Char) :=
  if bufSize - 1 < buf.length + line.length + 2 then none
  else
    let buf := if buf ≠ [] ∧ buf.getLast? ≠ some '\n' then buf ++ ['\n'] else buf
    some (buf ++ line ++ ['\n'])

/-- `tn_config_merge_preserve`. -/
def tnConfigMergePreserve (newText oldText : List Char) (bufSize : Nat) : Option (List Char) :=
  if bufSize = 0 then none
  else
    (keptLines oldText).foldlM (mergeLine bufSize) (newText.take (bufSize - 1))

/-! ## What a RECONFIG has to apply -/

/-- `TN_RECFG_*`. -/
def recfgDevice : Nat := 0x0001
def recfgUnit : Nat := 0x0002
def recfgDhcp : Nat := 0x0004
def recfgIp : Nat := 0x0008
def recfgNetmask : Nat := 0x0010
def recfgGateway : Nat := 0x0020
def recfgDns : Nat := 0x0040
def recfgDns2 : Nat := 0x0080
def recfgHostname : Nat := 0x0100
def recfgMtu : Nat := 0x0200
def recfgLoglevel : Nat := 0x0400
def recfgPriority : Nat := 0x0800
def recfgLog : Nat := 0x1000
def recfgDatabaseOrder : Nat := 0x2000
def recfgSelectors : Nat := 0x4000
def recfgStats : Nat := 0x8000
def recfgSyslog : Nat := 0x10000
def recfgS2events : Nat := 0x20000

/-- `tn_recfg_effective_loglevel`. -/
def tnRecfgEffectiveLoglevel (p : TnPrefs) : Int :=
  if 0 ≤ p.logLevel ∧ p.logLevel ≤ 2 then p.logLevel else 1 + (if p.debug > 0 then 1 else 0)

/-- `if (cond) mask |= bit;` -/
def orIf (mask : Nat) (cond : Prop) [Decidable cond] (bit : Nat) : Nat :=
  if cond then mask ||| bit else mask

/-- `tn_recfg_diff`: the mask of the keys that need a restart and that of the live keys. -/
def tnRecfgDiff (oldp newp : TnPrefs) : Nat × Nat :=
  let restart := 0
  let livem := 0
  let restart := orIf restart (oldp.device ≠ newp.device) recfgDevice
  let restart := orIf restart (oldp.unit ≠ newp.unit) recfgUnit
  let restart := orIf restart (oldp.useDhcp ≠ newp.useDhcp) recfgDhcp
  let restart := orIf restart (oldp.ipAddr ≠ newp.ipAddr) recfgIp
  let restart := orIf restart (oldp.netmask ≠ newp.netmask) recfgNetmask
  let restart := orIf restart (oldp.gateway ≠ newp.gateway) recfgGateway
  let livem := orIf livem (oldp.dnsServer ≠ newp.dnsServer ∨ oldp.dnsPort ≠ newp.dnsPort) recfgDns
  let livem := orIf livem (oldp.dns2 ≠ newp.dns2) recfgDns2
  let livem := orIf livem (oldp.hostname ≠ newp.hostname) recfgHostname
  let livem := orIf livem (oldp.mtu ≠ newp.mtu) recfgMtu
  let livem := orIf livem (tnRecfgEffectiveLoglevel oldp ≠ tnRecfgEffectiveLoglevel newp)
    recfgLoglevel
  let livem := orIf livem (oldp.priority ≠ newp.priority) recfgPriority
  let livem := orIf livem (oldp.logFile ≠ newp.logFile) recfgLog
  let livem := orIf livem (oldp.databaseOrder ≠ newp.databaseOrder) recfgDatabaseOrder
  let livem := orIf livem (oldp.selectors ≠ newp.selectors) recfgSelectors
  let livem := orIf livem (oldp.stats ≠ newp.stats) recfgStats
  let livem := orIf livem (oldp.syslogHost ≠ newp.syslogHost) recfgSyslog
  let restart := orIf restart (oldp.s2events ≠ newp.s2events) recfgS2events
  (restart, livem)

end Tolunnet
