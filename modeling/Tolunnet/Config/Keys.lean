import Tolunnet.Config.Diff
import Tolunnet.Task.Reconfig

/-!
# `Tolunnet.Config.Keys`: the keys of a RECONFIG reply

The reply to RECONFIG has three masks of keys. `Key` is what a bit stands for, `Names` says that a mask
has the bit, and `Differs` that two files disagree on the key. `names_restart_iff` and `names_live_iff`
read the two masks of `tn_recfg_diff` so.
-/

set_option autoImplicit false

namespace Tolunnet

open World

namespace Recfg

/-! ## Keys and masks -/

/-- The keys of a mask, `TN_RECFG_*`. -/
inductive Key where
  | device | unit | dhcp | ip | netmask | gateway | dns | dns2 | hostname | mtu | loglevel
  | priority | log | databaseOrder | selectors | stats | syslog | s2events
  deriving DecidableEq, Repr

namespace Key

/-- The number of the key's bit. -/
def pos : Key → Nat
  | device => 0 | unit => 1 | dhcp => 2 | ip => 3 | netmask => 4 | gateway => 5 | dns => 6
  | dns2 => 7 | hostname => 8 | mtu => 9 | loglevel => 10 | priority => 11 | log => 12
  | databaseOrder => 13 | selectors => 14 | stats => 15 | syslog => 16 | s2events => 17

/-- The bit of the key. -/
def bit : Key → Nat
  | device => recfgDevice | unit => recfgUnit | dhcp => recfgDhcp | ip => recfgIp
  | netmask => recfgNetmask | gateway => recfgGateway | dns => recfgDns | dns2 => recfgDns2
  | hostname => recfgHostname | mtu => recfgMtu | loglevel => recfgLoglevel
  | priority => recfgPriority | log => recfgLog | databaseOrder => recfgDatabaseOrder
  | selectors => recfgSelectors | stats => recfgStats | syslog => recfgSyslog
  | s2events => recfgS2events

/-- The keys of the interface, which only a restart puts in force. -/
def needsRestart : Key → Bool
  | device | unit | dhcp | ip | netmask | gateway | s2events => true
  | _ => false

/-- The two sets of preferences disagree on the key. The name server and its port are one key, and
`DEBUG` and `LOGLEVEL` count by the log tier. -/
def Differs (a b : TnPrefs) : Key → Prop
  | device => a.device ≠ b.device | unit => a.unit ≠ b.unit | dhcp => a.useDhcp ≠ b.useDhcp
  | ip => a.ipAddr ≠ b.ipAddr | netmask => a.netmask ≠ b.netmask | gateway => a.gateway ≠ b.gateway
  | dns => a.dnsServer ≠ b.dnsServer ∨ a.dnsPort ≠ b.dnsPort | dns2 => a.dns2 ≠ b.dns2
  | hostname => a.hostname ≠ b.hostname | mtu => a.mtu ≠ b.mtu
  | loglevel => tnRecfgEffectiveLoglevel a ≠ tnRecfgEffectiveLoglevel b
  | priority => a.priority ≠ b.priority | log => a.logFile ≠ b.logFile
  | databaseOrder => a.databaseOrder ≠ b.databaseOrder | selectors => a.selectors ≠ b.selectors
  | stats => a.stats ≠ b.stats | syslog => a.syslogHost ≠ b.syslogHost
  | s2events => a.s2events ≠ b.s2events

end Key

/-- The mask has the bit of the key. -/
def Names (mask : Nat) (k : Key) : Prop := inMask mask k.bit = true

instance (mask : Nat) (k : Key) : Decidable (Names mask k) :=
  inferInstanceAs (Decidable (inMask mask k.bit = true))

section
variable {mask mask' : Nat} {k : Key}

theorem inMask_two_pow (mask n : Nat) : inMask mask (2 ^ n) = mask.testBit n := by
  rw [inMask, Nat.and_two_pow]
  cases mask.testBit n with
  | true => simp
  | false => simp

theorem names_iff_testBit : Names mask k ↔ mask.testBit k.pos = true := by
  have hbit : k.bit = 2 ^ k.pos := by cases k <;> rfl
  rw [Names, hbit, inMask_two_pow]

theorem names_or : Names (mask ||| mask') k ↔ Names mask k ∨ Names mask' k := by
  simp only [names_iff_testBit, Nat.testBit_or, Bool.or_eq_true]

theorem not_names_zero : ¬ Names 0 k := by
  rw [names_iff_testBit, Nat.zero_testBit]
  exact Bool.false_ne_true

/-- `applied = live & ~failed` -/
theorem names_and_not :
    Names (mask &&& (0xFFFFFFFF ^^^ mask')) k ↔ Names mask k ∧ ¬ Names mask' k := by
  have hpos : k.pos < 32 := by cases k <;> decide
  have hones : (0xFFFFFFFF : Nat).testBit k.pos = true := by cases k <;> rfl
  simp only [names_iff_testBit, Nat.testBit_and, Nat.testBit_xor, hones, Bool.true_bne,
    Bool.and_eq_true, Bool.not_eq_true', Bool.not_eq_true]

theorem names_bit (j : Key) : Names j.bit k ↔ j = k := by
  have hpos : j.pos = k.pos ↔ j = k := by
    constructor
    · intro same
      cases j <;> cases k <;> first | rfl | cases same
    · intro same
      rw [same]
  have hbit : j.bit = 2 ^ j.pos := by cases j <;> rfl
  rw [names_iff_testBit, hbit, Nat.testBit_two_pow, decide_eq_true_iff, hpos]

theorem names_orIf {c : Prop} [Decidable c] (j : Key) :
    Names (orIf mask c j.bit) k ↔ Names mask k ∨ (c ∧ j = k) := by
  unfold orIf
  split
  · rename_i hc
    rw [names_or, names_bit]
    simp only [hc, true_and]
  · rename_i hc
    simp only [hc, false_and, or_false]

end

/-! ## The masks of a difference -/

/-- `needs_restart` has the keys of the interface that differ, and no others. -/
theorem names_restart_iff (a b : TnPrefs) (k : Key) :
    Names (tnRecfgDiff a b).1 k ↔ k.needsRestart = true ∧ k.Differs a b := by
  show Names (orIf _ _ (Key.bit .s2events)) k ↔ _
  rw [names_orIf]
  rw [show recfgGateway = Key.bit .gateway from rfl, names_orIf,
    show recfgNetmask = Key.bit .netmask from rfl, names_orIf,
    show recfgIp = Key.bit .ip from rfl, names_orIf,
    show recfgDhcp = Key.bit .dhcp from rfl, names_orIf,
    show recfgUnit = Key.bit .unit from rfl, names_orIf,
    show recfgDevice = Key.bit .device from rfl, names_orIf]
  cases k <;> simp [not_names_zero, Key.needsRestart, Key.Differs]

/-- The live mask has the other keys that differ. -/
theorem names_live_iff (a b : TnPrefs) (k : Key) :
    Names (tnRecfgDiff a b).2 k ↔ k.needsRestart = false ∧ k.Differs a b := by
  show Names (orIf _ _ (Key.bit .syslog)) k ↔ _
  rw [names_orIf]
  rw [show recfgStats = Key.bit .stats from rfl, names_orIf,
    show recfgSelectors = Key.bit .selectors from rfl, names_orIf,
    show recfgDatabaseOrder = Key.bit .databaseOrder from rfl, names_orIf,
    show recfgLog = Key.bit .log from rfl, names_orIf,
    show recfgPriority = Key.bit .priority from rfl, names_orIf,
    show recfgLoglevel = Key.bit .loglevel from rfl, names_orIf,
    show recfgMtu = Key.bit .mtu from rfl, names_orIf,
    show recfgHostname = Key.bit .hostname from rfl, names_orIf,
    show recfgDns2 = Key.bit .dns2 from rfl, names_orIf,
    show recfgDns = Key.bit .dns from rfl, names_orIf]
  cases k <;> simp [not_names_zero, Key.needsRestart, Key.Differs]

end Recfg

end Tolunnet
