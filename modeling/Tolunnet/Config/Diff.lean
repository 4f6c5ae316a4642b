import Mathlib.Data.Nat.Bitwise
import Tolunnet.Common.ConfigText

/-!
# `Tolunnet.Config.Diff`: which changes a RECONFIG notices

`tn_recfg_diff` compares two sets of preferences key by key. Both masks are 0 exactly when the keys
in `comparedKeys` and the effective log tier agree (`tnRecfgDiff_eq_zero_iff`); the keys in
`ignoredKeys` are not looked at. The masks have no bit in common and do not depend on which of the
two is the old one.
-/

set_option autoImplicit false

namespace Tolunnet

/-- The keys that are compared by value. -/
def comparedKeys : List CfgKey :=
  [.device, .unit, .dhcp, .ip, .netmask, .gateway, .dns, .dnsPort, .dns2, .hostname, .mtu,
   .priority, .log, .databaseOrder, .selectors, .stats, .syslog, .s2events]

/-- The keys that are not compared. -/
def ignoredKeys : List CfgKey :=
  [.txQueue, .dnsPending, .dnsRetries, .font, .diag, .autoip, .mdns]

/-- Agreement on every key, where `DEBUG` and `LOGLEVEL` count by the log tier that they give. -/
def AgreeUpToTier (a b : TnPrefs) : Prop :=
  (∀ k : CfgKey, k ≠ .debug → k ≠ .loglevel → a.get k = b.get k) ∧
    tnRecfgEffectiveLoglevel a = tnRecfgEffectiveLoglevel b

theorem orIf_eq_zero {mask bit : Nat} {c : Prop} [Decidable c] (hbit : bit ≠ 0) :
    orIf mask c bit = 0 ↔ mask = 0 ∧ ¬ c := by
  unfold orIf
  split
  · rename_i hc
    rw [Nat.or_eq_zero_iff]
    exact ⟨fun h => absurd h.2 hbit, fun h => absurd hc h.2⟩
  · rename_i hc
    exact ⟨fun h => ⟨h, hc⟩, And.left⟩

theorem orIf_and (mask bit x : Nat) (c : Prop) [Decidable c] :
    orIf mask c bit &&& x = orIf (mask &&& x) c (bit &&& x) := by
  unfold orIf
  split
  · exact Nat.and_or_distrib_right ..
  · rfl

theorem and_orIf (mask bit x : Nat) (c : Prop) [Decidable c] :
    x &&& orIf mask c bit = orIf (x &&& mask) c (x &&& bit) := by
  unfold orIf
  split
  · exact Nat.and_or_distrib_left ..
  · rfl

theorem orIf_zero (c : Prop) [Decidable c] : orIf 0 c 0 = 0 := by
  unfold orIf
  split <;> rfl

theorem orIf_ne_comm {α : Type} [DecidableEq α] (x y : α) (mask bit : Nat) :
    orIf mask (x ≠ y) bit = orIf mask (y ≠ x) bit := by
  unfold orIf
  simp only [ne_comm]

/-- The masks are 0 exactly when what is compared agrees. -/
theorem tnRecfgDiff_eq_zero_iff (a b : TnPrefs) :
    tnRecfgDiff a b = (0, 0) ↔
      (∀ k ∈ comparedKeys, a.get k = b.get k) ∧
        tnRecfgEffectiveLoglevel a = tnRecfgEffectiveLoglevel b := by
  simp only [tnRecfgDiff, Prod.mk.injEq, comparedKeys, List.forall_mem_cons]
  simp only [orIf_eq_zero (show recfgDevice ≠ 0 by decide), orIf_eq_zero (show recfgUnit ≠ 0 by decide),
    orIf_eq_zero (show recfgDhcp ≠ 0 by decide), orIf_eq_zero (show recfgIp ≠ 0 by decide),
    orIf_eq_zero (show recfgNetmask ≠ 0 by decide), orIf_eq_zero (show recfgGateway ≠ 0 by decide),
    orIf_eq_zero (show recfgDns ≠ 0 by decide), orIf_eq_zero (show recfgDns2 ≠ 0 by decide),
    orIf_eq_zero (show recfgHostname ≠ 0 by decide), orIf_eq_zero (show recfgMtu ≠ 0 by decide),
    orIf_eq_zero (show recfgLoglevel ≠ 0 by decide), orIf_eq_zero (show recfgPriority ≠ 0 by decide),
    orIf_eq_zero (show recfgLog ≠ 0 by decide),
    orIf_eq_zero (show recfgDatabaseOrder ≠ 0 by decide),
    orIf_eq_zero (show recfgSelectors ≠ 0 by decide), orIf_eq_zero (show recfgStats ≠ 0 by decide),
    orIf_eq_zero (show recfgSyslog ≠ 0 by decide), orIf_eq_zero (show recfgS2events ≠ 0 by decide),
    not_or, ne_eq, not_not, TnPrefs.get]
  tauto

/-- No key is in both masks. -/
theorem tnRecfgDiff_disjoint (a b : TnPrefs) : (tnRecfgDiff a b).1 &&& (tnRecfgDiff a b).2 = 0 := by
  simp only [tnRecfgDiff, orIf_and, and_orIf, Nat.zero_and, Nat.and_zero, recfgDevice, recfgUnit,
    recfgDhcp, recfgIp, recfgNetmask, recfgGateway, recfgDns, recfgDns2, recfgHostname, recfgMtu,
    recfgLoglevel, recfgPriority, recfgLog, recfgDatabaseOrder, recfgSelectors, recfgStats,
    recfgSyslog, recfgS2events, Nat.reduceAnd, orIf_zero]

/-- The masks do not depend on which preferences are the old ones. -/
theorem tnRecfgDiff_comm (a b : TnPrefs) : tnRecfgDiff a b = tnRecfgDiff b a := by
  have hdns : ∀ mask bit, orIf mask (a.dnsServer ≠ b.dnsServer ∨ a.dnsPort ≠ b.dnsPort) bit
      = orIf mask (b.dnsServer ≠ a.dnsServer ∨ b.dnsPort ≠ a.dnsPort) bit := by
    intro mask bit
    unfold orIf
    simp only [ne_comm]
  simp only [tnRecfgDiff, orIf_ne_comm a.device, orIf_ne_comm a.unit, orIf_ne_comm a.useDhcp,
    orIf_ne_comm a.ipAddr, orIf_ne_comm a.netmask, orIf_ne_comm a.gateway, hdns,
    orIf_ne_comm a.dns2, orIf_ne_comm a.hostname, orIf_ne_comm a.mtu,
    orIf_ne_comm (tnRecfgEffectiveLoglevel a), orIf_ne_comm a.priority, orIf_ne_comm a.logFile,
    orIf_ne_comm a.databaseOrder, orIf_ne_comm a.selectors, orIf_ne_comm a.stats,
    orIf_ne_comm a.syslogHost, orIf_ne_comm a.s2events]

/-- A key is compared, or ignored, or counts by the log tier. -/
theorem mem_comparedKeys_or (k : CfgKey) :
    k ∈ comparedKeys ∨ k ∈ ignoredKeys ∨ k = .debug ∨ k = .loglevel ∨ k = .version := by
  cases k <;> decide

/-- Empty masks mean that nothing changed if and only if the ignored keys agree, or something that
is compared does not. The masks are disjoint and symmetric in any case. -/
theorem tnRecfgDiff_complete_iff (a b : TnPrefs) :
    ((tnRecfgDiff a b = (0, 0) → AgreeUpToTier a b) ↔
      ((∀ k ∈ ignoredKeys, a.get k = b.get k) ∨ (∃ k ∈ comparedKeys, a.get k ≠ b.get k) ∨
        tnRecfgEffectiveLoglevel a ≠ tnRecfgEffectiveLoglevel b)) ∧
    (tnRecfgDiff a b).1 &&& (tnRecfgDiff a b).2 = 0 ∧
    tnRecfgDiff a b = tnRecfgDiff b a := by
  refine ⟨?_, tnRecfgDiff_disjoint a b, tnRecfgDiff_comm a b⟩
  rw [tnRecfgDiff_eq_zero_iff]
  constructor
  -- no mask means that no compared key differs; the ignored keys are left over
  · intro h
    by_cases hcmp : ∀ k ∈ comparedKeys, a.get k = b.get k
    · by_cases htier : tnRecfgEffectiveLoglevel a = tnRecfgEffectiveLoglevel b
      · left
        intro k hk
        have hne : k ≠ .debug ∧ k ≠ .loglevel := by
          revert k
          decide
        exact (h ⟨hcmp, htier⟩).1 k hne.1 hne.2
      · exact Or.inr (Or.inr htier)
    · right
      left
      simpa using hcmp
  -- a difference in a compared key or in the tier shows in the mask
  · rintro (hign | ⟨k, hk, hne⟩ | htier) ⟨hcmp, heq⟩
    · refine ⟨fun k hdebug hlog => ?_, heq⟩
      rcases mem_comparedKeys_or k with hk | hk | rfl | rfl | rfl
      · exact hcmp k hk
      · exact hign k hk
      · exact absurd rfl hdebug
      · exact absurd rfl hlog
      · rfl
    · exact absurd (hcmp k hk) hne
    · exact absurd heq htier

/-- A new `TX_QUEUE` goes unnoticed. -/
theorem not_forall_tnRecfgDiff :
    ¬ ∀ a b : TnPrefs, tnRecfgDiff a b = (0, 0) → AgreeUpToTier a b := by
  intro h
  have hq := (h (tnPrefsDefault {}) { tnPrefsDefault {} with txQueue := 4 } (by decide)).1
    .txQueue (by decide) (by decide)
  revert hq
  decide

end Tolunnet
