import Tolunnet.Config.Stages

/-!
# `Tolunnet.Config.Applied`: what the reply to RECONFIG says

`tn_recfg_diff` makes the masks of the reply from two files, the one loaded last and the new one.
`Truthful` says what can be read from them: which keys changed, what an applied key is now, and what is
left of a failed one. `Loads` is the sequence of files that a daemon loads; the daemon may do anything
between two RECONFIGs but write its preferences.

Some keys have no way back. A name server, its port and a lower MTU stay when the file no longer sets
them, and the selector table does not shrink, so `Key.InForce` promises these only as far as they go.
-/

set_option autoImplicit false

namespace Tolunnet

open World

namespace Recfg

/-! ## One RECONFIG -/

/-- lwIP reads the texts of addresses as `ip4addr_aton` does: the syslog host and the name servers. -/
structure Honest (w : World) : Prop where
  host : Names (liveMask w) .syslog → ReadsHost (beforeSyslog w) (beforeSyslog w).prefs.syslogHost
  server : (beforeServers w).prefs.dnsServer ≠ [] →
    Reads (beforeServers w) (beforeServers w).prefs.dnsServer
  server2 : (betweenServers w).prefs.dns2 ≠ [] →
    Reads (betweenServers w) (betweenServers w).prefs.dns2

/-- The value of the new preferences is in force: `w` is the world before the RECONFIG and `w'` the one
after it. An MTU is, unless the interface had a lower one; the selectors are at least as many. -/
def Key.InForce (new : TnPrefs) (w w' : World) : Key → Prop
  | dns => (new.dnsPort ≠ 0 → w'.live.dnsDestPort = new.dnsPort % 2 ^ 16) ∧
      ∀ a, ip4addrAton new.dnsServer = some a → w'.live.dnsServer 0 = a
  | dns2 => ∀ a, ip4addrAton new.dns2 = some a → w'.live.dnsServer 1 = a
  | hostname => w'.prefs.hostname = new.hostname ∧ (new.hostname ≠ [] → w'.live.hostnameSet = true)
  | mtu => 576 ≤ new.mtu → new.mtu ≤ 1500 → new.mtu ≤ w.live.ifMtu → w'.live.ifMtu = new.mtu
  | loglevel => w'.live.logLevel = tnRecfgEffectiveLoglevel new
  | priority => w'.live.taskPri = new.priority.bmod 256
  | log => w'.live.logFile = if new.logFile = [] then none else some new.logFile
  | databaseOrder => w'.prefs.databaseOrder = new.databaseOrder
  | selectors => w'.selectors.length =
      if w.selectors.length < wantedSelectors new then min (wantedSelectors new) 128
      else w.selectors.length
  | stats => w'.live.stats.statsEnabled = new.stats
  | syslog => Target w'.live.syslog new.syslogHost
  | _ => False

/-- What is left of a key that failed: no log file, the selectors as they were, nothing forwarded. -/
def Key.Lapsed (w w' : World) : Key → Prop
  | log => w'.live.logFile = none
  | selectors => w'.selectors = w.selectors
  | syslog => ¬ Forwards w'.live.syslog
  | _ => False

/-- The masks of a reply: `applied`, `needs_restart` and `failed`. -/
structure Reply where
  applied : Nat
  restart : Nat
  failed : Nat

/-- The masks in the arguments of a message. -/
def reply (w : World) (m : MsgId) : Reply :=
  { applied := ((w.msgs m).args 0).toNat, restart := ((w.msgs m).args 1).toNat,
    failed := ((w.msgs m).args 2).toNat }

/-- A reply tells the truth about the change from `old` to `new`. -/
structure Truthful (old new : TnPrefs) (w w' : World) (r : Reply) : Prop where
  prefs : w'.prefs = new
  restart : ∀ k, Names r.restart k ↔ k.needsRestart = true ∧ k.Differs old new
  live : ∀ k, Names r.applied k ∨ Names r.failed k ↔ k.needsRestart = false ∧ k.Differs old new
  apart : ∀ k, ¬ (Names r.applied k ∧ Names r.failed k)
  applied : ∀ k, Names r.applied k → k.InForce new w w'
  failed : ∀ k, Names r.failed k → k.Lapsed w w'

section
variable (w : World) (m : MsgId)

theorem args_reconfigReply (applied restart failed : Nat) :
    ((reconfigReply w m applied restart failed).msgs m).args = fun k =>
      if k = 0 then (applied : Int) else if k = 1 then restart else if k = 2 then failed
      else (w.msgs m).args k := by
  unfold reconfigReply
  dsimp only
  split
  · simp [modMsg]
  · split
    · simp [modMsg, World.store, World.out]
    · simp [modMsg]

/-- The reply has the masks of the difference and of what failed. -/
theorem reply_tnIpcCmdReconfig : reply (tnIpcCmdReconfig w m).1 m =
    { applied := liveMask w &&& (0xFFFFFFFF ^^^ failedMask w),
      restart := (tnRecfgDiff w.prefs (loadedPrefs w)).1, failed := failedMask w } := by
  obtain ⟨wr, hwr, heq⟩ : ∃ wr : World, (wr.msgs m).args = (fun k =>
      if k = 0 then ((liveMask w &&& (0xFFFFFFFF ^^^ failedMask w) : Nat) : Int)
      else if k = 1 then ((tnRecfgDiff w.prefs (loadedPrefs w)).1 : Int)
      else if k = 2 then (failedMask w : Int) else ((settled w).msgs m).args k) ∧
      tnIpcCmdReconfig w m = if (tnPrefsLoad w.ask.junk w.ask.stores w.prefs).2 then
        done wr m 0 .ok else fail wr m .enoent :=
    ⟨_, args_reconfigReply (settled w) m _ _ _, rfl⟩
  have hset : ∀ (r : Int) (e : Errno), ((wr.setReply m r e).msgs m).args = (wr.msgs m).args :=
    fun r e => by simp [setReply, modMsg]
  have hargs : ((tnIpcCmdReconfig w m).1.msgs m).args = (wr.msgs m).args := by
    rw [heq]
    cases (tnPrefsLoad w.ask.junk w.ask.stores w.prefs).2 with
    | true => exact hset 0 .ok
    | false => exact hset (-1) .enoent
  unfold reply
  rw [hargs, hwr]
  rfl

/-- The world after the command is the settled one, but for the reply. -/
theorem settled_tnIpcCmdReconfig : (tnIpcCmdReconfig w m).1.prefs = loadedPrefs w ∧
    (tnIpcCmdReconfig w m).1.live = (settled w).live ∧
    (tnIpcCmdReconfig w m).1.selectors = (settled w).selectors := by
  obtain ⟨hprefs, hlive, hsel, -⟩ := tnIpcCmdReconfig_frame w m
  exact ⟨hprefs, hlive, hsel⟩

/-! ### Keys that fail -/

theorem applyLog_snd (live : Nat) : (applyLog w live).2 = 0 ∨ (applyLog w live).2 = recfgLog := by
  cases hin : inMask live recfgLog with
  | false => exact Or.inl (congrArg Prod.snd (applyLog_skip w live hin))
  | true => exact (applyLog_cases w live hin).imp And.left And.left

theorem applySelectors_snd (live : Nat) :
    (applySelectors w live).2 = 0 ∨ (applySelectors w live).2 = recfgSelectors := by
  cases hin : inMask live recfgSelectors with
  | false => exact Or.inl (congrArg Prod.snd (applySelectors_skip w live hin))
  | true => exact (applySelectors_cases w live hin).imp And.left And.left

theorem applySyslog_snd (live : Nat) :
    (applySyslog w live).2 = 0 ∨ (applySyslog w live).2 = recfgSyslog := by
  cases hin : inMask live recfgSyslog with
  | false => exact Or.inl (congrArg Prod.snd (applySyslog_skip w live hin))
  | true =>
    rw [applySyslog_eq w live hin]
    cases (tnSyslogApply w w.prefs.syslogHost).2 with
    | true => exact Or.inl rfl
    | false => exact Or.inr rfl

/-- A mask that is empty or has one key. -/
theorem names_of_snd {f : Nat} {j k : Key} (hf : f = 0 ∨ f = j.bit) :
    Names f k ↔ k = j ∧ f = j.bit := by
  rcases hf with rfl | rfl
  · have hbit : 0 ≠ j.bit := by cases j <;> decide
    exact ⟨fun named => absurd named not_names_zero, fun named => absurd named.2 hbit⟩
  · rw [names_bit]
    exact ⟨fun same => ⟨same.symm, rfl⟩, fun same => same.1.symm⟩

/-- Each stage fails with its own key. -/
theorem names_failedMask (k : Key) : Names (failedMask w) k ↔
    ((k = .log ∧ (applyLog (beforeLog w) (liveMask w)).2 = recfgLog) ∨
      (k = .selectors ∧ (applySelectors (beforeSelectors w) (liveMask w)).2 = recfgSelectors)) ∨
    (k = .syslog ∧ (applySyslog (beforeSyslog w) (liveMask w)).2 = recfgSyslog) := by
  unfold failedMask
  rw [names_or, names_or, names_of_snd (j := .log) (applyLog_snd _ _),
    names_of_snd (j := .selectors) (applySelectors_snd _ _),
    names_of_snd (j := .syslog) (applySyslog_snd _ _)]
  exact Iff.rfl

/-- Only live keys fail. -/
theorem names_live_of_failed {k : Key} (failed : Names (failedMask w) k) : Names (liveMask w) k := by
  show inMask (liveMask w) k.bit = true
  by_contra hout
  have hin : inMask (liveMask w) k.bit = false := Bool.eq_false_iff.mpr hout
  rcases (names_failedMask w k).mp failed with (⟨rfl, h⟩ | ⟨rfl, h⟩) | ⟨rfl, h⟩
  · rw [applyLog_skip _ _ hin] at h
    exact absurd h (show 0 ≠ recfgLog by decide)
  · rw [applySelectors_skip _ _ hin] at h
    exact absurd h (show 0 ≠ recfgSelectors by decide)
  · rw [applySyslog_skip _ _ hin] at h
    exact absurd h (show 0 ≠ recfgSyslog by decide)

end

/-! ### The truth of a reply -/

section
variable {w : World} {m : MsgId}

/-- What did not fail is in force. -/
theorem inForce_of_applied (honest : Honest w) {k : Key} (live : Names (liveMask w) k)
    (unfailed : ¬ Names (failedMask w) k) (hk : k.needsRestart = false) :
    k.InForce (loadedPrefs w) w (tnIpcCmdReconfig w m).1 := by
  obtain ⟨hprefs, hlive, hsel⟩ := settled_tnIpcCmdReconfig w m
  have unfailed := fun h => unfailed ((names_failedMask w k).mpr h)
  have honest_host := honest.host
  have honest_server := honest.server
  have honest_server2 := honest.server2
  -- The three calls of lwIP are honest about what the request loaded.
  rw [prefs_beforeSyslog] at honest_host
  rw [prefs_beforeServers] at honest_server
  rw [prefs_betweenServers] at honest_server2
  cases k with
  | dns =>
    refine ⟨fun set => ?_, fun a ha => ?_⟩
    · rw [hlive, live_settled, live_afterServers, live_beforeServers]
      exact if_pos set
    · rw [hlive]
      exact dnsServer_settled w honest_server ha
  | dns2 =>
    intro a ha
    rw [hlive]
    exact dns2_settled w honest_server2 ha
  | hostname =>
    refine ⟨congrArg TnPrefs.hostname hprefs, fun set => ?_⟩
    rw [hlive, live_settled]
    simp [set]
  | mtu =>
    intro low high below
    rw [hlive, ifMtu_settled]
    split
    · rfl
    · omega
  | loglevel =>
    show (tnIpcCmdReconfig w m).1.live.logLevel = _
    rw [hlive, live_settled, live_afterServers, live_beforeServers, live_beforeSyslog,
      live_beforeLog]
    exact if_pos live
  | priority =>
    show (tnIpcCmdReconfig w m).1.live.taskPri = _
    rw [hlive, live_settled, live_afterServers, live_beforeServers, live_beforeSyslog,
      live_beforeLog]
    exact if_pos live
  | log =>
    show (tnIpcCmdReconfig w m).1.live.logFile = _
    rw [hlive, logFile_settled]
    rcases applyLog_cases (beforeLog w) (liveMask w) live with ⟨-, h⟩ | ⟨h, -⟩
    · rw [h, prefs_beforeLog]
    · exact absurd (Or.inl (Or.inl ⟨rfl, h⟩)) unfailed
  | databaseOrder => exact congrArg TnPrefs.databaseOrder hprefs
  | selectors =>
    show (tnIpcCmdReconfig w m).1.selectors.length = _
    rw [hsel, selectors_settled]
    rcases applySelectors_cases (beforeSelectors w) (liveMask w) live with ⟨-, h⟩ | ⟨h, -⟩
    · rw [h, prefs_beforeSelectors, selectors_beforeSelectors]
    · exact absurd (Or.inl (Or.inr ⟨rfl, h⟩)) unfailed
  | stats =>
    show (tnIpcCmdReconfig w m).1.live.stats.statsEnabled = _
    rw [hlive, stats_settled, statsAfter_enabled _ _ live, prefs_applySelectors,
      prefs_beforeSelectors]
  | syslog =>
    show Target (tnIpcCmdReconfig w m).1.live.syslog _
    rw [hlive, syslog_settled, ← prefs_beforeSyslog]
    rw [← prefs_beforeSyslog] at honest_host
    rcases applySyslog_cases (beforeSyslog w) (liveMask w) live (honest_host live) with ⟨-, h⟩ | ⟨h, -⟩
    · exact h
    · exact absurd (Or.inr ⟨rfl, h⟩) unfailed
  -- These need a restart.
  | device | unit | dhcp | ip | netmask | gateway | s2events => cases hk

/-- What failed is gone, or as it was. -/
theorem lapsed_of_failed (honest : Honest w) {k : Key} (failed : Names (failedMask w) k) :
    k.Lapsed w (tnIpcCmdReconfig w m).1 := by
  obtain ⟨-, hlive, hsel⟩ := settled_tnIpcCmdReconfig w m
  have live := names_live_of_failed w failed
  rcases (names_failedMask w k).mp failed with (⟨rfl, h⟩ | ⟨rfl, h⟩) | ⟨rfl, h⟩
  · show (tnIpcCmdReconfig w m).1.live.logFile = none
    rw [hlive, logFile_settled]
    rcases applyLog_cases (beforeLog w) (liveMask w) live with ⟨h', -⟩ | ⟨-, none⟩
    · exact absurd (h'.symm.trans h) (by decide)
    · exact none
  · show (tnIpcCmdReconfig w m).1.selectors = w.selectors
    rw [hsel, selectors_settled]
    rcases applySelectors_cases (beforeSelectors w) (liveMask w) live with ⟨h', -⟩ | ⟨-, same⟩
    · exact absurd (h'.symm.trans h) (by decide)
    · rw [same, selectors_beforeSelectors]
  · show ¬ Forwards (tnIpcCmdReconfig w m).1.live.syslog
    rw [hlive, syslog_settled]
    rcases applySyslog_cases (beforeSyslog w) (liveMask w) live (honest.host live) with ⟨h', -⟩ | ⟨-, silent⟩
    · exact absurd (h'.symm.trans h) (by decide)
    · exact silent

/-- A reply to RECONFIG tells the truth about the change of the preferences. -/
theorem truthful_tnIpcCmdReconfig (honest : Honest w) :
    Truthful w.prefs (loadedPrefs w) w (tnIpcCmdReconfig w m).1
      (reply (tnIpcCmdReconfig w m).1 m) := by
  have hlive : ∀ k, Names (liveMask w) k ↔
      k.needsRestart = false ∧ k.Differs w.prefs (loadedPrefs w) :=
    names_live_iff w.prefs (loadedPrefs w)
  rw [reply_tnIpcCmdReconfig]
  constructor
  · exact (settled_tnIpcCmdReconfig w m).1
  · exact names_restart_iff w.prefs (loadedPrefs w)
  · intro k
    rw [← hlive, names_and_not]
    constructor
    · rintro (⟨live, -⟩ | failed)
      · exact live
      · exact names_live_of_failed w failed
    · intro live
      by_cases failed : Names (failedMask w) k
      · exact Or.inr failed
      · exact Or.inl ⟨live, failed⟩
  · rintro k ⟨applied, failed⟩
    exact (names_and_not.mp applied).2 failed
  · intro k applied
    obtain ⟨live, unfailed⟩ := names_and_not.mp applied
    exact inForce_of_applied honest live unfailed ((hlive k).mp live).1
  · exact fun k failed => lapsed_of_failed honest failed

end

/-! ## Sequences of files -/

/-- A daemon started with the preferences of `w0` has loaded some files since. Whatever it does
between two RECONFIGs leaves its preferences alone. -/
inductive Loads (w0 : World) : List TnPrefs → World → Prop
  | start : Loads w0 [] w0
  | reconfig {files : List TnPrefs} {w : World} (m : MsgId) (past : Loads w0 files w) :
      Loads w0 (files ++ [loadedPrefs w]) (tnIpcCmdReconfig w m).1
  | elsewhere {files : List TnPrefs} {w w' : World} (past : Loads w0 files w)
      (same : w'.prefs = w.prefs) : Loads w0 files w'

/-- The file that was loaded last, or what the daemon was started with. -/
def lastLoaded (w0 : World) (files : List TnPrefs) : TnPrefs := files.getLast?.getD w0.prefs

section
variable {w0 w : World} {files : List TnPrefs}

/-- A daemon runs with the file that it loaded last. -/
theorem Loads.prefs (loads : Loads w0 files w) : w.prefs = lastLoaded w0 files := by
  induction loads with
  | start => rfl
  | reconfig m past ih =>
    rw [(settled_tnIpcCmdReconfig _ m).1, lastLoaded, List.getLast?_concat]
    rfl
  | elsewhere past same ih => exact same.trans ih

/-- Whatever files were loaded, a reply to RECONFIG tells the truth about the change from the file
that was loaded last. -/
theorem Loads.truthful (loads : Loads w0 files w) (honest : Honest w) (m : MsgId) :
    Truthful (lastLoaded w0 files) (loadedPrefs w) w (tnIpcCmdReconfig w m).1
      (reply (tnIpcCmdReconfig w m).1 m) := by
  rw [← loads.prefs]
  exact truthful_tnIpcCmdReconfig honest

end

/-- A daemon with the defaults that is about to load a text; lwIP answers with 10.0.2.3. -/
def booted (text : List Char) : World :=
  { tnSlotTableInit with
    prefs := tnPrefsDefault {}
    live := { ifMtu := 1500 }
    env := [{ stores := { env := some { content := text } } }, { addr := 0x0A000203 }] }

/-- A file with a name server and an MTU: the reply names both as applied, and they are. -/
theorem Loads.truthful_booted :
    let w := booted "DNS=10.0.2.3\nMTU=1400\n".toList
    Names (reply (tnIpcCmdReconfig w 0).1 0).applied .mtu ∧
      (tnIpcCmdReconfig w 0).1.live.dnsServer 0 = 0x0A000203 ∧
      (tnIpcCmdReconfig w 0).1.live.ifMtu = 1400 := by
  intro w
  have honest : Honest w :=
    { host := fun named => absurd named (by decide +kernel)
      server := fun _ => by show _ = _; decide +kernel
      server2 := fun set => absurd (show _ = [] by decide +kernel) set }
  have truth := Loads.truthful Loads.start honest 0
  have dns : Names (reply (tnIpcCmdReconfig w 0).1 0).applied .dns := by decide +kernel
  have mtu : Names (reply (tnIpcCmdReconfig w 0).1 0).applied .mtu := by decide +kernel
  have new : (loadedPrefs w).mtu = 1400 := by decide +kernel
  refine ⟨mtu, (truth.applied .dns dns).2 _ (by decide +kernel), ?_⟩
  rw [truth.applied .mtu mtu (by rw [new]; decide) (by rw [new]; decide)
    (by rw [new]; decide), new]

/-- RECONFIGs compare with the file loaded last: what a restart is still needed for is not named again.
The table of selectors does not shrink, and a log file that cannot be opened costs the old one. -/
theorem not_forall_loads :
    (¬ ∀ (w0 w : World) (files : List TnPrefs) (m : MsgId) (k : Key), Loads w0 files w →
      (Names (reply (tnIpcCmdReconfig w m).1 m).restart k ↔
        k.needsRestart = true ∧ k.Differs w0.prefs (loadedPrefs w))) ∧
    (¬ ∀ (w : World) (m : MsgId), Names (reply (tnIpcCmdReconfig w m).1 m).applied .selectors →
      (tnIpcCmdReconfig w m).1.selectors.length = wantedSelectors (loadedPrefs w)) ∧
    ¬ ∀ (w : World) (m : MsgId), Names (reply (tnIpcCmdReconfig w m).1 m).failed .log →
      (tnIpcCmdReconfig w m).1.live.logFile = w.live.logFile := by
  refine ⟨fun restart => ?_, fun shrinks => ?_, fun log => ?_⟩
  · let w0 := booted "UNIT=1\n".toList
    let w : World := { (tnIpcCmdReconfig w0 0).1 with env := w0.env }
    have loads : Loads w0 [loadedPrefs w0] w := .elsewhere (.reconfig 0 .start) rfl
    have still : Key.unit.Differs w0.prefs (loadedPrefs w) :=
      show w0.prefs.unit ≠ (loadedPrefs w).unit by decide +kernel
    have named := (restart w0 w _ 0 .unit loads).mpr ⟨rfl, still⟩
    exact absurd named (by decide +kernel)
  · let w : World := { booted "SELECTORS=4\n".toList with selectors := List.replicate 8 {} }
    exact absurd (shrinks w 0 (by decide +kernel)) (by decide +kernel)
  · let w : World := { booted "LOG=T:new\n".toList with
      live := { logFile := some "T:old".toList }
      env := [{ stores := { env := some { content := "LOG=T:new\n".toList } } }, { ok := false }] }
    exact absurd (log w 0 (by decide +kernel)) (by decide +kernel)

end Recfg

end Tolunnet
