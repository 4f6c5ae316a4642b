import Tolunnet.Config.Diff
import Tolunnet.Config.Load
import Tolunnet.Task.Reconfig

/-!
# `Tolunnet.Config.Reconfig`: a RECONFIG that cannot load anything

`tn_prefs_load` writes the defaults into the live preferences before it knows whether a store can
be read, and `tn_ipc_cmd_reconfig` applies the difference whether or not it could. A failing
RECONFIG therefore puts the defaults in force (`prefs_of_failed`); it changes nothing exactly when
they already were, and the interface had its host name (`tnIpcCmdReconfig_failed_iff`).
-/

set_option autoImplicit false

namespace Tolunnet

open World

/-! ## Loading fails -/

/-- A file that is not accepted changes nothing. -/
theorem tnPrefsReadFile_of_false {junk : Junk} {q : TnPrefs} {content : List Char}
    (h : (tnPrefsReadFile junk q content).2 = false) : (tnPrefsReadFile junk q content).1 = q := by
  unfold tnPrefsReadFile at h ⊢
  split at h
  · rename_i hnil
    rw [if_pos hnil]
  · rename_i hnil
    rw [if_neg hnil]
    split at h
    · rename_i hb
      rw [if_pos hb]
      cases hr : tnPrefsReadBlob junk content with
      | none => rfl
      | some p =>
        rw [hr] at h
        cases h
    · rename_i hb
      rw [if_neg hb]
      exact readText_of_not_parsedAny h q

/-- A store that cannot be read leaves the prefs. -/
theorem readStore_of_false {junk : Junk} {q : TnPrefs} {o : Option StoreFile}
    (h : (readStore junk q o).2 = false) : (readStore junk q o).1 = q := by
  cases o with
  | none => rfl
  | some f => exact tnPrefsReadFile_of_false h

/-- A load that fails leaves the defaults. -/
theorem tnPrefsLoad_of_false {junk : Junk} {stores : ConfigStores} {p : TnPrefs}
    (h : (tnPrefsLoad junk stores p).2 = false) :
    (tnPrefsLoad junk stores p).1 = tnPrefsDefault p := by
  unfold tnPrefsLoad at h ⊢
  dsimp only at h ⊢
  split at h
  · rename_i h1
    rw [h1] at h
    cases h
  · rename_i h1
    rw [if_neg h1]
    have e1 := readStore_of_false (Bool.eq_false_iff.mpr h1)
    rw [e1] at h ⊢
    split at h
    · rename_i h2
      rw [h2] at h
      cases h
    · rename_i h2
      rw [if_neg h2]
      have e2 := readStore_of_false (Bool.eq_false_iff.mpr h2)
      rw [e2] at h ⊢
      exact readStore_of_false h

/-! ## What the application touches -/

section
variable (w : World) (live : Nat)

theorem prefs_applyLoglevel : (applyLoglevel w live).prefs = w.prefs := by
  unfold applyLoglevel
  split <;> rfl

theorem prefs_applyPriority : (applyPriority w live).prefs = w.prefs := by
  unfold applyPriority
  split <;> rfl

theorem prefs_applyLog : (applyLog w live).1.prefs = w.prefs := by
  unfold applyLog
  split
  · split
    · rfl
    · split <;> rfl
  · rfl

theorem prefs_tnSelectorTableGrow (newMax : Nat) :
    (tnSelectorTableGrow w newMax).prefs = w.prefs := by
  unfold tnSelectorTableGrow
  split
  · rfl
  · split <;> rfl

theorem prefs_applySelectors : (applySelectors w live).1.prefs = w.prefs := by
  unfold applySelectors
  split
  · dsimp only
    generalize (if w.prefs.selectors > 0 then w.prefs.selectors else maxSelectors) = want
    split
    · exact prefs_tnSelectorTableGrow w want
    · rfl
  · rfl

theorem prefs_applyStats : (applyStats w live).prefs = w.prefs := by
  unfold applyStats
  split <;> rfl

theorem prefs_tnSyslogApply (host : List Char) : (tnSyslogApply w host).1.prefs = w.prefs := by
  unfold tnSyslogApply
  dsimp only
  split
  · rfl
  · split
    · rfl
    · have hpcb : (if w.live.syslog.pcb = true then w else w.asked.modLive fun l =>
          { l with syslog := { l.syslog with pcb := true } }).prefs = w.prefs := by
        split <;> rfl
      generalize (if w.live.syslog.pcb = true then w else w.asked.modLive fun l =>
          { l with syslog := { l.syslog with pcb := true } }) = w1 at hpcb ⊢
      split
      · exact hpcb
      · split <;> exact hpcb

theorem prefs_applySyslog : (applySyslog w live).1.prefs = w.prefs := by
  have h := prefs_tnSyslogApply w w.prefs.syslogHost
  unfold applySyslog
  split
  · generalize tnSyslogApply w w.prefs.syslogHost = r at h ⊢
    obtain ⟨w', ok⟩ := r
    cases ok <;> exact h
  · rfl

theorem prefs_applyServer (n : Nat) (server : List Char) :
    (applyServer w n server).prefs = w.prefs := by
  unfold applyServer
  split
  · rfl
  · split <;> rfl

theorem prefs_tnApplyLiveConfig : (tnApplyLiveConfig w).prefs = w.prefs := by
  have hhost : ∀ w : World, (applyHostname w).prefs = w.prefs := fun w => by
    unfold applyHostname
    split <;> rfl
  have hmtu : ∀ w : World, (applyMtu w).prefs = w.prefs := fun w => by
    unfold applyMtu
    dsimp only
    split <;> rfl
  unfold tnApplyLiveConfig
  dsimp only
  rw [hmtu, hhost, prefs_applyServer, prefs_applyServer]
  split <;> rfl

/-- Applying settings does not change the preferences. -/
theorem prefs_applyLive : (applyLive w live).1.prefs = w.prefs := by
  simp only [applyLive, prefs_tnApplyLiveConfig, prefs_applySyslog, prefs_applyStats,
    prefs_applySelectors, prefs_applyLog, prefs_applyPriority, prefs_applyLoglevel]

end

/-- With no key in the mask, only what is applied unconditionally is. -/
theorem applyLive_zero (w : World) : (applyLive w 0).1 = tnApplyLiveConfig w := by
  have h : ∀ bit, inMask 0 bit = false := fun bit => by simp [inMask]
  simp [applyLive, applyLoglevel, applyPriority, applyLog, applySelectors, applyStats, applySyslog, h]

/-- The defaults have nothing to apply but the host name. -/
theorem tnApplyLiveConfig_default {w : World} (h : w.prefs = tnPrefsDefault w.prefs) :
    tnApplyLiveConfig w = w.modLive fun l => { l with hostnameSet := true } := by
  have hport : w.prefs.dnsPort = 0 := by rw [h]; rfl
  have hdns : w.prefs.dnsServer = [] := by rw [h]; rfl
  have hdns2 : w.prefs.dns2 = [] := by rw [h]; rfl
  have hhost : w.prefs.hostname ≠ [] := by rw [h]; exact (by decide : tnStrCopyClean "amiga".toList 64 ≠ [])
  have hmdns : w.prefs.mdns = 0 := by rw [h]; rfl
  have hmtu : w.prefs.mtu = 0 := by rw [h]; rfl
  simp [tnApplyLiveConfig, applyServer, applyHostname, applyMtu, World.modLive, hport, hdns, hdns2,
    hhost, hmdns, hmtu]

/-- The reply changes neither the preferences nor what is in force. -/
theorem reconfigReply_frame (w : World) (m : MsgId) (applied restart failed : Nat) :
    (reconfigReply w m applied restart failed).prefs = w.prefs ∧
      (reconfigReply w m applied restart failed).live = w.live ∧
      (reconfigReply w m applied restart failed).selectors = w.selectors := by
  unfold reconfigReply
  dsimp only
  split
  · exact ⟨rfl, rfl, rfl⟩
  · split <;> exact ⟨rfl, rfl, rfl⟩

/-! ## A failing RECONFIG -/

/-- What RECONFIG may change is as before: the preferences, the log tier and file, the task
priority, the statistics, the syslog target, the name servers, the host name and the MTU, and the
selector table. -/
structure SameConfig (w w' : World) : Prop where
  prefs : w'.prefs = w.prefs
  live : w'.live = w.live
  selectors : w'.selectors = w.selectors

/-- The configuration after RECONFIG, without the reply. -/
theorem tnIpcCmdReconfig_frame (w : World) (m : MsgId) :
    let r := tnPrefsLoad w.ask.junk w.ask.stores w.prefs
    let w' := (applyLive { w.asked with prefs := r.1 } (tnRecfgDiff w.prefs r.1).2).1
    (tnIpcCmdReconfig w m).1.prefs = r.1 ∧ (tnIpcCmdReconfig w m).1.live = w'.live ∧
      (tnIpcCmdReconfig w m).1.selectors = w'.selectors ∧
      ((tnIpcCmdReconfig w m).1.msgs m).result = if r.2 then 0 else -1 := by
  intro r w'
  have hw' : w'.prefs = r.1 := prefs_applyLive _ _
  have heq : ∃ wr : World, (wr.prefs = w'.prefs ∧ wr.live = w'.live ∧ wr.selectors = w'.selectors) ∧
      tnIpcCmdReconfig w m = if r.2 then done wr m 0 .ok else fail wr m .enoent :=
    ⟨_, reconfigReply_frame w' m _ _ _, rfl⟩
  obtain ⟨wr, ⟨hp, hl, hs⟩, heq⟩ := heq
  have hmsg : ∀ (x : Int) (e : Errno), ((wr.setReply m x e).msgs m).result = x := fun x e => by
    simp [setReply, modMsg]
  rw [heq]
  cases r.2 with
  | true => exact ⟨hp.trans hw', hl, hs, hmsg 0 .ok⟩
  | false => exact ⟨hp.trans hw', hl, hs, hmsg (-1) .enoent⟩

/-- A RECONFIG that could not load anything leaves the configuration alone if and only if the
defaults were in force and the interface had its host name. -/
theorem tnIpcCmdReconfig_failed_iff (w : World) (m : MsgId)
    (h : ((tnIpcCmdReconfig w m).1.msgs m).result = -1) :
    SameConfig w (tnIpcCmdReconfig w m).1 ↔
      w.prefs = tnPrefsDefault w.prefs ∧ w.live.hostnameSet = true := by
  obtain ⟨hprefs, hlive, hsel, hres⟩ := tnIpcCmdReconfig_frame w m
  have hfalse : (tnPrefsLoad w.ask.junk w.ask.stores w.prefs).2 = false := by
    rw [h] at hres
    cases hl : (tnPrefsLoad w.ask.junk w.ask.stores w.prefs).2 with
    | true =>
      rw [hl] at hres
      cases hres
    | false => rfl
  have hdef := tnPrefsLoad_of_false hfalse
  rw [hdef] at hprefs hlive hsel
  -- where the defaults were in force, nothing is left to apply but the host name
  have happly : w.prefs = tnPrefsDefault w.prefs →
      (tnIpcCmdReconfig w m).1.live = { w.live with hostnameSet := true } ∧
        (tnIpcCmdReconfig w m).1.selectors = w.selectors := by
    intro hd
    have hdiff : tnRecfgDiff w.prefs (tnPrefsDefault w.prefs) = (0, 0) := by
      rw [← hd, tnRecfgDiff_eq_zero_iff]
      exact ⟨fun _ _ => rfl, rfl⟩
    have happ := tnApplyLiveConfig_default (w := { w.asked with prefs := tnPrefsDefault w.prefs })
      (by rw [← hd]; exact hd)
    rw [hdiff, applyLive_zero, happ] at hlive hsel
    exact ⟨hlive, hsel⟩
  constructor
  · intro hsame
    have hd : w.prefs = tnPrefsDefault w.prefs := hsame.prefs.symm.trans hprefs
    refine ⟨hd, ?_⟩
    have hl := (happly hd).1
    rw [hsame.live] at hl
    exact congrArg TnLive.hostnameSet hl
  · rintro ⟨hd, hhost⟩
    obtain ⟨hl, hs⟩ := happly hd
    refine ⟨hprefs.trans hd.symm, hl.trans ?_, hs⟩
    generalize w.live = l at hhost
    cases l
    cases hhost
    rfl

/-- With nothing to load and the defaults in force, RECONFIG fails and changes nothing. -/
theorem tnIpcCmdReconfig_failed_default :
    SameConfig { tnSlotTableInit with prefs := tnPrefsDefault {}, live := { hostnameSet := true } }
      (tnIpcCmdReconfig { tnSlotTableInit with
        prefs := tnPrefsDefault {}, live := { hostnameSet := true } } 0).1 :=
  (tnIpcCmdReconfig_failed_iff _ 0 (by decide)).mpr ⟨rfl, rfl⟩

/-- With nothing to load and an address set, RECONFIG fails and the address is gone. -/
theorem not_forall_tnIpcCmdReconfig_failed :
    ¬ ∀ (w : World) (m : MsgId), ((tnIpcCmdReconfig w m).1.msgs m).result = -1 →
      SameConfig w (tnIpcCmdReconfig w m).1 := by
  intro h
  have hip := congrArg TnPrefs.ipAddr (h { tnSlotTableInit with
    prefs := { tnPrefsDefault {} with ipAddr := "10.0.2.15".toList } } 0 (by decide)).prefs
  revert hip
  decide

end Tolunnet
