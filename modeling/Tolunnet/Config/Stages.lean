import Tolunnet.Common.InetParse
import Tolunnet.Config.Keys
import Tolunnet.Config.Reconfig

/-!
# `Tolunnet.Config.Stages`: the stages of a RECONFIG

A RECONFIG puts every live key in force by code of its own, one after the other. The worlds between the
stages have names here (`beforeLog`, `beforeSelectors` and so on, `settled` at the end). A stage is
described by what it writes, and what it does when it fails; `live_settled` and the lemmas behind it
put the stages together.
-/

set_option autoImplicit false

namespace Tolunnet

open World

namespace Recfg

/-! ## The stages of the application -/

/-- What a RECONFIG loads. -/
def loadedPrefs (w : World) : TnPrefs := (tnPrefsLoad w.ask.junk w.ask.stores w.prefs).1

/-- The live keys that a RECONFIG finds changed. -/
def liveMask (w : World) : Nat := (tnRecfgDiff w.prefs (loadedPrefs w)).2

/-- The world with the new preferences, and before the log file, the selectors and the syslog target. -/
def afterLoad (w : World) : World := { w.asked with prefs := loadedPrefs w }
def beforeLog (w : World) : World :=
  applyPriority (applyLoglevel (afterLoad w) (liveMask w)) (liveMask w)
def beforeSelectors (w : World) : World := (applyLog (beforeLog w) (liveMask w)).1
def beforeSyslog (w : World) : World :=
  applyStats (applySelectors (beforeSelectors w) (liveMask w)).1 (liveMask w)

/-- The world before the name servers, between the two, and after them. -/
def beforeServers (w : World) : World :=
  let w := (applySyslog (beforeSyslog w) (liveMask w)).1
  if w.prefs.dnsPort ≠ 0 then
    w.modLive fun l => { l with dnsDestPort := w.prefs.dnsPort % 2 ^ 16 } else w
def betweenServers (w : World) : World :=
  applyServer (beforeServers w) 0 (beforeServers w).prefs.dnsServer
def afterServers (w : World) : World :=
  applyServer (betweenServers w) 1 (betweenServers w).prefs.dns2

/-- The keys that a RECONFIG could not put in force. -/
def failedMask (w : World) : Nat :=
  (applyLog (beforeLog w) (liveMask w)).2 ||| (applySelectors (beforeSelectors w) (liveMask w)).2 |||
    (applySyslog (beforeSyslog w) (liveMask w)).2

/-- The stages, one after the other. -/
theorem applyLive_afterLoad (w : World) :
    applyLive (afterLoad w) (liveMask w) = (applyMtu (applyHostname (afterServers w)), failedMask w) :=
  rfl

/-! ## What a stage writes -/

section
variable (w : World) (live : Nat)

/-- The log level, when its bit is set. -/
theorem live_applyLoglevel : (applyLoglevel w live).live = { w.live with
    logLevel := if inMask live recfgLoglevel then tnRecfgEffectiveLoglevel w.prefs
      else w.live.logLevel } := by
  unfold applyLoglevel
  by_cases hin : inMask live recfgLoglevel = true
  · simp only [hin, if_true]
    rfl
  · simp only [hin]
    rfl

/-- The priority of the task, as a signed byte. -/
theorem live_applyPriority : (applyPriority w live).live = { w.live with
    taskPri := if inMask live recfgPriority then w.prefs.priority.bmod 256
      else w.live.taskPri } := by
  unfold applyPriority
  by_cases hin : inMask live recfgPriority = true
  · simp only [hin, if_true]
    rfl
  · simp only [hin]
    rfl

/-- What `LOG` leaves as the log file. -/
def logFileAfter (w : World) (live : Nat) : Option (List Char) := (applyLog w live).1.live.logFile

/-- The log file, opened or closed. -/
theorem live_applyLog :
    (applyLog w live).1.live = { w.live with logFile := logFileAfter w live } := by
  unfold logFileAfter applyLog
  split
  · split
    · rfl
    · split <;> rfl
  · rfl

/-- `LOG` fails, and there is no log file, or it has the file that the preferences name. -/
theorem applyLog_cases (hin : inMask live recfgLog = true) :
    ((applyLog w live).2 = 0 ∧
      logFileAfter w live = if w.prefs.logFile = [] then none else some w.prefs.logFile) ∨
    ((applyLog w live).2 = recfgLog ∧ logFileAfter w live = none) := by
  unfold logFileAfter applyLog
  rw [if_pos hin]
  by_cases hnil : w.prefs.logFile = []
  · rw [if_pos hnil, if_pos hnil]
    exact Or.inl ⟨rfl, rfl⟩
  · rw [if_neg hnil, if_neg hnil]
    split
    · exact Or.inl ⟨rfl, rfl⟩
    · exact Or.inr ⟨rfl, rfl⟩

/-- Without its bit the log file is left alone. -/
theorem applyLog_skip (hin : inMask live recfgLog = false) : applyLog w live = (w, 0) := by
  unfold applyLog
  rw [hin]
  rfl

/-- The number of selectors that preferences ask for. -/
def wantedSelectors (p : TnPrefs) : Nat := if p.selectors > 0 then p.selectors else maxSelectors

/-- The selector table grows to what is wanted. -/
theorem applySelectors_eq (hin : inMask live recfgSelectors = true) : applySelectors w live =
    if w.selectors.length < wantedSelectors w.prefs then
      (tnSelectorTableGrow w (wantedSelectors w.prefs), if w.ask.ok then 0 else recfgSelectors)
    else (w, 0) := by
  unfold applySelectors
  rw [if_pos hin]
  rfl

/-- The selector table is not asked for. -/
theorem applySelectors_skip (hin : inMask live recfgSelectors = false) :
    applySelectors w live = (w, 0) := by
  unfold applySelectors
  rw [hin]
  rfl

theorem live_tnSelectorTableGrow (newMax : Nat) : (tnSelectorTableGrow w newMax).live = w.live := by
  unfold tnSelectorTableGrow
  split
  · rfl
  · split <;> rfl

/-- A table that grows has at most 128 entries; without memory it stays. -/
theorem selectors_tnSelectorTableGrow {newMax : Nat} (hlt : w.selectors.length < newMax) :
    if w.ask.ok then (tnSelectorTableGrow w newMax).selectors.length = min newMax 128
    else (tnSelectorTableGrow w newMax).selectors = w.selectors := by
  unfold tnSelectorTableGrow
  rw [if_neg (Nat.not_le.mpr hlt)]
  by_cases hok : w.ask.ok = true
  · rw [if_pos hok, if_pos hok]
    show (w.selectors.take (min newMax 128) ++
      List.replicate (min newMax 128 - (w.selectors.take (min newMax 128)).length) _).length = _
    rw [List.length_append, List.length_replicate, List.length_take]
    omega
  · rw [if_neg hok, if_neg hok]
    rfl

/-- Growing the table is no live setting. -/
theorem live_applySelectors : (applySelectors w live).1.live = w.live := by
  cases hin : inMask live recfgSelectors with
  | false => rw [applySelectors_skip w live hin]
  | true =>
    rw [applySelectors_eq w live hin]
    split
    · exact live_tnSelectorTableGrow w _
    · rfl

/-- `SELECTORS` fails, and the table stays, or it is large enough already, or it grows to what is
wanted, 128 entries at most. -/
theorem applySelectors_cases (hin : inMask live recfgSelectors = true) :
    ((applySelectors w live).2 = 0 ∧
      (applySelectors w live).1.selectors.length =
        if w.selectors.length < wantedSelectors w.prefs then min (wantedSelectors w.prefs) 128
        else w.selectors.length) ∨
    ((applySelectors w live).2 = recfgSelectors ∧
      (applySelectors w live).1.selectors = w.selectors) := by
  rw [applySelectors_eq w live hin]
  by_cases hlt : w.selectors.length < wantedSelectors w.prefs
  · have grown := selectors_tnSelectorTableGrow w hlt
    rw [if_pos hlt, if_pos hlt]
    by_cases hok : w.ask.ok = true
    · rw [if_pos hok] at grown ⊢
      exact Or.inl ⟨rfl, grown⟩
    · rw [if_neg hok] at grown ⊢
      exact Or.inr ⟨rfl, grown⟩
  · left
    rw [if_neg hlt, if_neg hlt]
    exact ⟨rfl, rfl⟩

/-- The counters after `STATS`. -/
def statsAfter (w : World) (live : Nat) : TnStats := (applyStats w live).live.stats

/-- The statistics, from the next tick on. -/
theorem live_applyStats :
    (applyStats w live).live = { w.live with stats := statsAfter w live } := by
  unfold statsAfter applyStats
  split <;> rfl

/-- With its bit set the statistics follow the preferences. -/
theorem statsAfter_enabled (hin : inMask live recfgStats = true) :
    (statsAfter w live).statsEnabled = w.prefs.stats := by
  unfold statsAfter applyStats
  rw [if_pos hin]
  rfl

/-- The syslog target after `SYSLOG`. -/
def syslogAfter (w : World) (live : Nat) : TnSyslog := (applySyslog w live).1.live.syslog

end

/-! ## The syslog target -/

/-- lwIP's next answer is what `ip4addr_aton` says to the text. -/
def Reads (w : World) (text : List Char) : Prop :=
  (if w.ask.ok then some w.ask.addr else none) = ip4addrAton text

/-- A text that is read gives its address. -/
theorem Reads.addr {w : World} {text : List Char} {a : Nat} (reads : Reads w text)
    (ha : ip4addrAton text = some a) : w.ask.ok = true ∧ w.ask.addr = a := by
  rw [Reads, ha] at reads
  split at reads
  · rename_i hok
    exact ⟨hok, Option.some.inj reads⟩
  · cases reads

/-- The log is forwarded (`tn_syslog_sink`). -/
def Forwards (s : TnSyslog) : Prop := s.armed = true ∧ s.pcb = true

/-- The target is the host: a dotted quad is armed, a name may still be looked up. Without a host
nothing is forwarded. -/
def Target (s : TnSyslog) (host : List Char) : Prop :=
  if host = [] then ¬ Forwards s ∧ s.host = []
  else s.pcb = true ∧ s.host = tnStrCopyClean host 48 ∧
    ∀ a, ip4addrAton (tnStrCopyClean host 48) = some a → s.armed = true ∧ s.dst = a

section
variable (w : World) (live : Nat)

/-- `tn_syslog_apply` from where there is a pcb. -/
def syslogTarget (w : World) (host : List Char) : World × Bool :=
  let setLog := fun (w : World) (f : TnSyslog → TnSyslog) =>
    w.modLive fun l => { l with syslog := f l.syslog }
  let w := setLog w fun s => { s with host := tnStrCopyClean host 48 }
  let a := w.ask
  let w := w.asked
  if a.ok then (setLog w fun s => { s with dst := a.addr, armed := true }, true)
  else
    let w := setLog w fun s => { s with armed := false }
    let a := w.ask
    let w := w.asked
    if a.err = .ok then (setLog w fun s => { s with dst := a.addr, armed := true }, true)
    else (w, a.err == .inprogress)

/-- The world with a pcb: `udp_new` is called when there is none. -/
def withPcb (w : World) : World :=
  if w.live.syslog.pcb then w
  else w.asked.modLive fun l => { l with syslog := { l.syslog with pcb := true } }

/-- The remote log is closed for an empty host, and opened for an address. -/
theorem tnSyslogApply_eq (host : List Char) : tnSyslogApply w host =
    if host = [] then (w.modLive fun l =>
      { l with syslog := { l.syslog with pcb := false, armed := false, host := [] } }, true)
    else if !w.live.syslog.pcb && !w.ask.ok then (w.asked, false)
    else syslogTarget (withPcb w) host := rfl

/-- A text that lwIP reads is armed at once. For any other text the resolver decides. -/
theorem syslogTarget_cases (host : List Char) : ∃ s,
    (syslogTarget w host).1.live = { w.live with syslog := s } ∧
    s.pcb = w.live.syslog.pcb ∧ s.host = tnStrCopyClean host 48 ∧
    (w.ask.ok = true → (syslogTarget w host).2 = true ∧ s.armed = true ∧ s.dst = w.ask.addr) ∧
    ((syslogTarget w host).2 = false → s.armed = false) := by
  unfold syslogTarget
  dsimp only
  split
  · exact ⟨_, rfl, rfl, rfl, fun _ => ⟨rfl, rfl, rfl⟩, fun refused => (Bool.noConfusion refused)⟩
  · rename_i unread
    split
    · exact ⟨_, rfl, rfl, rfl, fun read => absurd read unread,
        fun refused => (Bool.noConfusion refused)⟩
    · exact ⟨_, rfl, rfl, rfl, fun read => absurd read unread, fun _ => rfl⟩

/-- Only the target is written. -/
theorem live_tnSyslogApply (host : List Char) :
    ∃ s, (tnSyslogApply w host).1.live = { w.live with syslog := s } := by
  rw [tnSyslogApply_eq]
  split
  · exact ⟨_, rfl⟩
  · split
    · exact ⟨_, rfl⟩
    · obtain ⟨s, target, -⟩ := syslogTarget_cases (withPcb w) host
      refine ⟨s, target.trans ?_⟩
      unfold withPcb
      split <;> rfl

/-- The host is read right, if `tn_syslog_apply` comes so far: there is one, and a pcb for it. -/
def ReadsHost (w : World) (host : List Char) : Prop :=
  host ≠ [] → w.live.syslog.pcb = true ∨ w.ask.ok = true →
    Reads (withPcb w) (tnStrCopyClean host 48)

/-- `tn_syslog_apply` sets the target, or it fails, and nothing is forwarded. -/
theorem tnSyslogApply_cases {host : List Char} (reads : ReadsHost w host) :
    ((tnSyslogApply w host).2 = true ∧ Target (tnSyslogApply w host).1.live.syslog host) ∨
    ((tnSyslogApply w host).2 = false ∧ ¬ Forwards (tnSyslogApply w host).1.live.syslog) := by
  rw [tnSyslogApply_eq]
  unfold Target
  split
  · exact Or.inl ⟨rfl, fun forwards => Bool.false_ne_true forwards.1, rfl⟩
  · rename_i hnil
    split
    · rename_i nopcb
      right
      refine ⟨rfl, fun forwards => ?_⟩
      have hpcb : w.live.syslog.pcb = true := forwards.2
      rw [hpcb] at nopcb
      cases nopcb
    · rename_i havepcb
      have come : w.live.syslog.pcb = true ∨ w.ask.ok = true := by
        by_contra none
        rw [not_or, Bool.not_eq_true, Bool.not_eq_true] at none
        exact havepcb (by rw [none.1, none.2]; rfl)
      have hpcb : (withPcb w).live.syslog.pcb = true := by
        unfold withPcb
        split
        · assumption
        · rfl
      obtain ⟨s, target, pcb, name, armed, refused⟩ := syslogTarget_cases (withPcb w) host
      rw [target]
      cases hok : (syslogTarget (withPcb w) host).2 with
      | true =>
        left
        refine ⟨rfl, pcb.trans hpcb, name, fun a ha => ?_⟩
        obtain ⟨read, rfl⟩ := (reads hnil come).addr ha
        exact (armed read).2
      | false =>
        right
        refine ⟨rfl, fun forwards => ?_⟩
        have set : s.armed = true := forwards.1
        rw [refused hok] at set
        cases set

/-- Without its bit the remote log is left alone. -/
theorem applySyslog_skip (hin : inMask live recfgSyslog = false) : applySyslog w live = (w, 0) := by
  unfold applySyslog
  rw [hin]
  rfl

/-- With its bit set the host is applied, and a failure reported. -/
theorem applySyslog_eq (hin : inMask live recfgSyslog = true) : applySyslog w live =
    ((tnSyslogApply w w.prefs.syslogHost).1,
      if (tnSyslogApply w w.prefs.syslogHost).2 then 0 else recfgSyslog) := by
  unfold applySyslog
  rw [if_pos hin]
  generalize tnSyslogApply w w.prefs.syslogHost = r
  obtain ⟨w', ok⟩ := r
  cases ok <;> rfl

/-- The remote log, opened, closed or left. -/
theorem live_applySyslog :
    (applySyslog w live).1.live = { w.live with syslog := syslogAfter w live } := by
  unfold syslogAfter
  cases hin : inMask live recfgSyslog with
  | false => rw [applySyslog_skip w live hin]
  | true =>
    rw [applySyslog_eq w live hin]
    obtain ⟨s, target⟩ := live_tnSyslogApply w w.prefs.syslogHost
    rw [target]

/-- `SYSLOG` sets the target, or it fails, and nothing is forwarded. -/
theorem applySyslog_cases (hin : inMask live recfgSyslog = true)
    (reads : ReadsHost w w.prefs.syslogHost) :
    ((applySyslog w live).2 = 0 ∧ Target (syslogAfter w live) w.prefs.syslogHost) ∨
    ((applySyslog w live).2 = recfgSyslog ∧ ¬ Forwards (syslogAfter w live)) := by
  unfold syslogAfter
  rw [applySyslog_eq w live hin]
  rcases tnSyslogApply_cases w reads with ⟨ok, target⟩ | ⟨refused, silent⟩
  · rw [ok]
    exact Or.inl ⟨rfl, target⟩
  · rw [refused]
    exact Or.inr ⟨rfl, silent⟩

end

/-! ## The keys that are always applied -/

section
variable (w : World) (n : Nat) (server : List Char)

/-- A server is set when its text is read; an empty one leaves the old server. -/
theorem live_applyServer : (applyServer w n server).live = { w.live with
    dnsServer := if server ≠ [] ∧ w.ask.ok = true then Function.update w.live.dnsServer n w.ask.addr
      else w.live.dnsServer } := by
  unfold applyServer
  by_cases hnil : server = []
  · rw [if_pos hnil, if_neg fun h => h.1 hnil]
  · rw [if_neg hnil]
    by_cases hok : w.ask.ok = true
    · rw [if_pos hok, if_pos ⟨hnil, hok⟩]
      rfl
    · rw [if_neg hok, if_neg fun h => hok h.2]
      rfl

/-- The name is set when there is one. -/
theorem live_applyHostname : (applyHostname w).live = { w.live with
    hostnameSet := w.live.hostnameSet || decide (w.prefs.hostname ≠ [])
    mdnsName := if w.prefs.hostname ≠ [] ∧ w.prefs.mdns ≠ 0 ∧ w.live.mdnsActive = true then
      w.prefs.hostname else w.live.mdnsName } := by
  unfold applyHostname
  by_cases hnil : w.prefs.hostname = []
  · simp [hnil]
  · by_cases hmdns : w.prefs.mdns ≠ 0 ∧ w.live.mdnsActive = true
    · simp [hnil, hmdns, modLive]
    · simp [hnil, hmdns, modLive]

/-- The MTU of the interface after `MTU`. -/
def mtuAfter (w : World) : Nat :=
  if 576 ≤ w.prefs.mtu ∧ w.prefs.mtu ≤ 1500 ∧ w.live.ifMtu ≠ 0 ∧ w.prefs.mtu < w.live.ifMtu then
    w.prefs.mtu
  else w.live.ifMtu

/-- The MTU is lowered only. -/
theorem live_applyMtu : (applyMtu w).live = { w.live with ifMtu := mtuAfter w } := by
  unfold applyMtu mtuAfter
  dsimp only
  split <;> rfl

theorem selectors_applyServer : (applyServer w n server).selectors = w.selectors := by
  unfold applyServer
  split
  · rfl
  · split <;> rfl

theorem selectors_applyHostname : (applyHostname w).selectors = w.selectors := by
  unfold applyHostname
  split <;> rfl

theorem selectors_applyMtu : (applyMtu w).selectors = w.selectors := by
  unfold applyMtu
  dsimp only
  split <;> rfl

end

/-! ## The preferences at each stage -/

section
variable (w : World)

/-- `LOG` is applied with the prefs loaded. -/
theorem prefs_beforeLog : (beforeLog w).prefs = loadedPrefs w := by
  unfold beforeLog
  rw [prefs_applyPriority, prefs_applyLoglevel]
  rfl

/-- `SELECTORS` is applied with them. -/
theorem prefs_beforeSelectors : (beforeSelectors w).prefs = loadedPrefs w := by
  unfold beforeSelectors
  rw [prefs_applyLog, prefs_beforeLog]

/-- `SYSLOG` is applied with them. -/
theorem prefs_beforeSyslog : (beforeSyslog w).prefs = loadedPrefs w := by
  unfold beforeSyslog
  rw [prefs_applyStats, prefs_applySelectors, prefs_beforeSelectors]

/-- So are the servers. -/
theorem prefs_beforeServers : (beforeServers w).prefs = loadedPrefs w := by
  unfold beforeServers
  dsimp only
  rw [apply_ite World.prefs]
  show (if _ then (applySyslog (beforeSyslog w) (liveMask w)).1.prefs else _) = _
  rw [ite_self, prefs_applySyslog, prefs_beforeSyslog]

/-- The second server as well. -/
theorem prefs_betweenServers : (betweenServers w).prefs = loadedPrefs w := by
  unfold betweenServers
  rw [prefs_applyServer, prefs_beforeServers]

/-- And what comes after the servers. -/
theorem prefs_afterServers : (afterServers w).prefs = loadedPrefs w := by
  unfold afterServers
  rw [prefs_applyServer, prefs_betweenServers]

/-! ## The settings at each stage -/

/-- What the stages before the log file have set. -/
theorem live_beforeLog : (beforeLog w).live = { w.live with
    logLevel := if inMask (liveMask w) recfgLoglevel then tnRecfgEffectiveLoglevel (loadedPrefs w)
      else w.live.logLevel
    taskPri := if inMask (liveMask w) recfgPriority then (loadedPrefs w).priority.bmod 256
      else w.live.taskPri } := by
  unfold beforeLog
  rw [live_applyPriority, prefs_applyLoglevel, live_applyLoglevel]
  rfl

/-- What the stages before the remote log have set. -/
theorem live_beforeSyslog : (beforeSyslog w).live = { (beforeLog w).live with
    logFile := logFileAfter (beforeLog w) (liveMask w)
    stats := statsAfter (applySelectors (beforeSelectors w) (liveMask w)).1 (liveMask w) } := by
  unfold beforeSyslog
  rw [live_applyStats, live_applySelectors]
  unfold beforeSelectors
  rw [live_applyLog]

/-- What the stages before the servers have set. -/
theorem live_beforeServers : (beforeServers w).live = { (beforeSyslog w).live with
    syslog := syslogAfter (beforeSyslog w) (liveMask w)
    dnsDestPort := if (loadedPrefs w).dnsPort ≠ 0 then (loadedPrefs w).dnsPort % 2 ^ 16
      else (beforeSyslog w).live.dnsDestPort } := by
  have hprefs : (applySyslog (beforeSyslog w) (liveMask w)).1.prefs = loadedPrefs w := by
    rw [prefs_applySyslog, prefs_beforeSyslog]
  unfold beforeServers
  dsimp only
  rw [hprefs]
  split
  · show ({ (applySyslog (beforeSyslog w) (liveMask w)).1.live with
        dnsDestPort := (loadedPrefs w).dnsPort % 2 ^ 16 } : TnLive) = _
    rw [live_applySyslog]
  · rw [live_applySyslog]

/-- The world when everything is applied. -/
def settled (w : World) : World := applyMtu (applyHostname (afterServers w))

/-- The servers change nothing else. -/
theorem live_afterServers : (afterServers w).live = { (beforeServers w).live with
    dnsServer := (afterServers w).live.dnsServer } := by
  unfold afterServers
  rw [live_applyServer]
  unfold betweenServers
  rw [live_applyServer]

/-- What is set at the end. -/
theorem live_settled : (settled w).live = { (afterServers w).live with
    hostnameSet := (afterServers w).live.hostnameSet || decide ((loadedPrefs w).hostname ≠ [])
    mdnsName := (applyHostname (afterServers w)).live.mdnsName
    ifMtu := mtuAfter (applyHostname (afterServers w)) } := by
  unfold settled
  rw [live_applyMtu, live_applyHostname, prefs_afterServers]

/-- They are the prefs at the end. -/
theorem prefs_settled : (settled w).prefs = loadedPrefs w := by
  have happly := prefs_applyLive (afterLoad w) (liveMask w)
  rw [applyLive_afterLoad] at happly
  exact happly

/-- The fields that one stage alone writes have in the end what that stage left. -/
theorem logFile_settled : (settled w).live.logFile = logFileAfter (beforeLog w) (liveMask w) := by
  rw [live_settled, live_afterServers, live_beforeServers, live_beforeSyslog]

/-- The remote log at the end. -/
theorem syslog_settled :
    (settled w).live.syslog = syslogAfter (beforeSyslog w) (liveMask w) := by
  rw [live_settled, live_afterServers, live_beforeServers]

/-- The statistics at the end. -/
theorem stats_settled : (settled w).live.stats =
    statsAfter (applySelectors (beforeSelectors w) (liveMask w)).1 (liveMask w) := by
  rw [live_settled, live_afterServers, live_beforeServers, live_beforeSyslog]

/-- The MTU at the end. -/
theorem ifMtu_settled : (settled w).live.ifMtu =
    if 576 ≤ (loadedPrefs w).mtu ∧ (loadedPrefs w).mtu ≤ 1500 ∧ w.live.ifMtu ≠ 0 ∧
        (loadedPrefs w).mtu < w.live.ifMtu then
      (loadedPrefs w).mtu
    else w.live.ifMtu := by
  have hmtu : (applyHostname (afterServers w)).live.ifMtu = w.live.ifMtu := by
    rw [live_applyHostname, live_afterServers, live_beforeServers, live_beforeSyslog, live_beforeLog]
  have hprefs : (applyHostname (afterServers w)).prefs = loadedPrefs w := prefs_settled w ▸ by
    unfold settled applyMtu
    dsimp only
    split <;> rfl
  rw [live_settled]
  show mtuAfter (applyHostname (afterServers w)) = _
  unfold mtuAfter
  rw [hmtu, hprefs]

/-- A name server that lwIP reads is in force. -/
theorem dnsServer_settled (honest : (loadedPrefs w).dnsServer ≠ [] →
      Reads (beforeServers w) (loadedPrefs w).dnsServer) {a : Nat}
    (ha : ip4addrAton (loadedPrefs w).dnsServer = some a) : (settled w).live.dnsServer 0 = a := by
  have hne : (loadedPrefs w).dnsServer ≠ [] := fun hnil => by
    rw [hnil] at ha
    cases ha
  obtain ⟨hok, haddr⟩ := (honest hne).addr ha
  have between : (betweenServers w).live.dnsServer 0 = a := by
    unfold betweenServers
    rw [live_applyServer, prefs_beforeServers]
    dsimp only
    rw [if_pos ⟨hne, hok⟩, Function.update_self, haddr]
  rw [live_settled]
  show (afterServers w).live.dnsServer 0 = a
  unfold afterServers
  rw [live_applyServer]
  dsimp only
  split
  · rw [Function.update_of_ne (by decide), between]
  · exact between

/-- A second server that can be read is in force. -/
theorem dns2_settled (honest : (loadedPrefs w).dns2 ≠ [] →
      Reads (betweenServers w) (loadedPrefs w).dns2) {a : Nat}
    (ha : ip4addrAton (loadedPrefs w).dns2 = some a) : (settled w).live.dnsServer 1 = a := by
  have hne : (loadedPrefs w).dns2 ≠ [] := fun hnil => by
    rw [hnil] at ha
    cases ha
  obtain ⟨hok, haddr⟩ := (honest hne).addr ha
  rw [live_settled]
  show (afterServers w).live.dnsServer 1 = a
  unfold afterServers
  rw [live_applyServer, prefs_betweenServers]
  dsimp only
  rw [if_pos ⟨hne, hok⟩, Function.update_self, haddr]

/-! ## The selectors at each stage -/

/-- The stages before leave the selector table. -/
theorem selectors_beforeSelectors : (beforeSelectors w).selectors = w.selectors := by
  have hlevel : (applyLoglevel (afterLoad w) (liveMask w)).selectors = w.selectors := by
    unfold applyLoglevel
    split <;> rfl
  have hpri : (beforeLog w).selectors = w.selectors := by
    rw [← hlevel]
    unfold beforeLog applyPriority
    split <;> rfl
  rw [← hpri]
  unfold beforeSelectors applyLog
  split
  · split
    · rfl
    · split <;> rfl
  · rfl

/-- The remote log grows no table. -/
theorem selectors_tnSyslogApply (host : List Char) :
    (tnSyslogApply w host).1.selectors = w.selectors := by
  have hpcb : (withPcb w).selectors = w.selectors := by
    unfold withPcb
    split <;> rfl
  rw [tnSyslogApply_eq]
  split
  · rfl
  · split
    · rfl
    · rw [← hpcb]
      unfold syslogTarget
      dsimp only
      split
      · rfl
      · split <;> rfl

/-- `SYSLOG` leaves the selector table. -/
theorem selectors_applySyslog (live : Nat) : (applySyslog w live).1.selectors = w.selectors := by
  cases hin : inMask live recfgSyslog with
  | false => rw [applySyslog_skip w live hin]
  | true =>
    rw [applySyslog_eq w live hin]
    exact selectors_tnSyslogApply w _

/-- The table at the end. -/
theorem selectors_settled : (settled w).selectors =
    (applySelectors (beforeSelectors w) (liveMask w)).1.selectors := by
  have hstats : (beforeSyslog w).selectors =
      (applySelectors (beforeSelectors w) (liveMask w)).1.selectors := by
    unfold beforeSyslog applyStats
    split <;> rfl
  have hservers : (beforeServers w).selectors = (beforeSyslog w).selectors := by
    rw [← selectors_applySyslog (beforeSyslog w) (liveMask w)]
    unfold beforeServers
    dsimp only
    split <;> rfl
  unfold settled afterServers betweenServers
  rw [selectors_applyMtu, selectors_applyHostname, selectors_applyServer, selectors_applyServer,
    hservers, hstats]

end

end Recfg

end Tolunnet
