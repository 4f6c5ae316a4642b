import Tolunnet.Config.Values

/-!
# `Tolunnet.Config.Format`: the text that the writer produces, setting by setting

`tn_config_format` is one long sequence of calls that append to a buffer. `putSetting` is the
part of it that writes one setting, so that the whole function is a fold over `cfgOrder`
(`tnConfigFormat_eq_foldl`). `Puts o o' s` says that `o'` comes from `o` by writing `s`: when the
buffer did not overflow, `s` stands behind what was there, and it does not overflow when `s` fits.

The result is `tnConfigFormat_eq`: the text is `configText`, the header line and the lines of the
settings that are written.
-/

set_option autoImplicit false

namespace Tolunnet

/-! ## The line of a setting -/

/-- The spelling that the writer has for a key. -/
def cfgName : CfgKey → List Char
  | .device => "DEVICE".toList | .unit => "UNIT".toList | .dhcp => "DHCP".toList
  | .ip => "IP".toList | .netmask => "NETMASK".toList | .gateway => "GATEWAY".toList
  | .dnsPort => "DNS_PORT".toList | .dns2 => "DNS2".toList | .dns => "DNS".toList
  | .hostname => "HOSTNAME".toList | .mtu => "MTU".toList | .debug => "DEBUG".toList
  | .priority => "PRIORITY".toList | .log => "LOG".toList | .loglevel => "LOGLEVEL".toList
  | .databaseOrder => "DATABASE_ORDER".toList | .selectors => "SELECTORS".toList
  | .txQueue => "TX_QUEUE".toList | .dnsPending => "DNS_PENDING".toList
  | .dnsRetries => "DNS_RETRIES".toList | .stats => "STATS".toList | .syslog => "SYSLOG".toList
  | .s2events => "S2EVENTS".toList | .font => "FONT".toList | .diag => "DIAG".toList
  | .autoip => "AUTOIP".toList | .mdns => "MDNS".toList | .version => "VERSION".toList

/-- Whether the writer has a line for a setting with this value. `DIAG` has none. -/
def cfgWritten : (k : CfgKey) → k.Val → Bool
  | .dnsPort, v | .dnsPending, v | .dnsRetries, v | .txQueue, v | .s2events, v => decide (v ≠ 0)
  | .log, v | .databaseOrder, v | .syslog, v | .font, v => decide (v ≠ [])
  | .autoip, v | .mdns, v => decide (v ≠ 0)
  | .diag, _ => false
  | .device, _ | .unit, _ | .dhcp, _ | .ip, _ | .netmask, _ | .gateway, _ | .dns2, _ | .dns, _
  | .hostname, _ | .mtu, _ | .debug, _ | .priority, _ | .loglevel, _ | .selectors, _ | .stats, _
  | .version, _ => true

/-- The text of a value. -/
def cfgText : (k : CfgKey) → k.Val → List Char
  | .device, v | .hostname, v | .log, v | .ip, v | .netmask, v | .gateway, v | .dns2, v | .dns, v
  | .databaseOrder, v | .syslog, v | .font, v => v
  | .unit, v | .mtu, v | .dnsPort, v | .debug, v | .selectors, v | .txQueue, v | .dnsPending, v
  | .dnsRetries, v => ulongText v
  | .priority, v | .loglevel, v => longText v
  | .dhcp, v | .stats, v => if v ≠ 0 then "YES".toList else "NO".toList
  | .autoip, _ | .mdns, _ => "YES".toList
  | .s2events, v => (s2eventsPipes v).dropLast
  | .version, _ => "1".toList
  | .diag, _ => []

/-- The line of a value. -/
def cfgLine (k : CfgKey) (v : k.Val) : List Char := cfgName k ++ '=' :: cfgText k v

/-- The settings in the order in which the writer has them. -/
def cfgOrder : List CfgKey :=
  [.version, .device, .unit, .dhcp, .ip, .netmask, .gateway, .dns, .dns2, .dnsPort, .hostname,
   .mtu, .debug, .priority, .log, .loglevel, .selectors, .dnsPending, .dnsRetries, .txQueue,
   .stats, .databaseOrder, .syslog, .s2events, .font, .autoip, .mdns]

/-- The settings that are written for `p`. -/
def writtenKeys (p : TnPrefs) : List CfgKey := cfgOrder.filter fun k => cfgWritten k (p.get k)

/-- The first line of a configuration file. -/
def headerLine : List Char := "# tolunnet configuration file".toList

/-- The lines of the text for `p`. -/
def configLines (p : TnPrefs) : List (List Char) :=
  headerLine :: (writtenKeys p).map fun k => cfgLine k (p.get k)

/-- The text for `p`. -/
def configText (p : TnPrefs) : List Char := Lines.unlines '\n' (configLines p)

/-- Every setting that has a line is in the order. -/
theorem mem_writtenKeys {p : TnPrefs} {k : CfgKey} :
    k ∈ writtenKeys p ↔ cfgWritten k (p.get k) = true := by
  rw [writtenKeys, List.mem_filter]
  refine ⟨And.right, fun h => ⟨?_, h⟩⟩
  cases k
  case diag => cases h
  all_goals decide

/-! ## Writing to a buffer -/

/-- `o'` comes from `o` by writing `s`. -/
structure Puts (o o' : TnCfgOut) (s : List Char) : Prop where
  size_eq : o'.size = o.size
  of_not_overflow : o'.overflow = false → o.overflow = false ∧ o'.buf = o.buf ++ s
  fits : o.overflow = false → o.buf.length + s.length < o.size → o'.overflow = false
  room : o'.overflow = false → s = [] ∨ o.buf.length + s.length < o.size

namespace Puts

variable {o o' o'' : TnCfgOut} {s t : List Char}

theorem refl (o : TnCfgOut) : Puts o o [] :=
  ⟨rfl, fun h => ⟨h, (List.append_nil _).symm⟩, fun h _ => h, fun _ => Or.inl rfl⟩

theorem trans (h : Puts o o' s) (h' : Puts o' o'' t) : Puts o o'' (s ++ t) where
  size_eq := h'.size_eq.trans h.size_eq
  of_not_overflow := fun ho => by
    obtain ⟨ho', hbuf'⟩ := h'.of_not_overflow ho
    obtain ⟨ho, hbuf⟩ := h.of_not_overflow ho'
    exact ⟨ho, by rw [hbuf', hbuf, List.append_assoc]⟩
  fits := fun ho hlen => by
    rw [List.length_append] at hlen
    have ho' := h.fits ho (by omega)
    have hbuf := (h.of_not_overflow ho').2
    refine h'.fits ho' ?_
    rw [hbuf, List.length_append, h.size_eq]
    omega
  room := fun ho => by
    have ho' := (h'.of_not_overflow ho).1
    have hbuf := (h.of_not_overflow ho').2
    rcases h'.room ho with rfl | hroom
    · rw [List.append_nil]
      exact h.room ho'
    · rw [hbuf, List.length_append, h.size_eq] at hroom
      rw [List.length_append]
      exact Or.inr (by omega)

theorem putChar (o : TnCfgOut) (c : Char) : Puts o (o.putChar c) [c] := by
  unfold TnCfgOut.putChar
  split
  · rename_i hroom
    exact ⟨rfl, fun h => ⟨h, rfl⟩, fun h _ => h, fun _ => Or.inr hroom⟩
  · rename_i hfull
    exact ⟨rfl, fun h => (by cases h), fun _ hlen => absurd hlen hfull, fun h => (by cases h)⟩

theorem put (o : TnCfgOut) (s : List Char) : Puts o (tnCfgPut o s) s := by
  induction s generalizing o with
  | nil => exact refl o
  | cons c s ih => exact (putChar o c).trans (ih _)

theorem kvStr (o : TnCfgOut) (key val : List Char) :
    Puts o (tnCfgPutKvStr o key val) (key ++ (val ++ ['\n'])) := by
  have h := ((put o key).trans (put _ val)).trans (put _ ['\n'])
  rwa [List.append_assoc] at h

theorem yesNo (o : TnCfgOut) (key : List Char) (v : Int) :
    Puts o (putYesNo o key v)
      (key ++ ((if v ≠ 0 then "YES".toList else "NO".toList) ++ ['\n'])) := by
  have h := (put o key).trans (put (tnCfgPut o key) (if v ≠ 0 then "YES\n".toList else "NO\n".toList))
  have ht : (if v ≠ 0 then "YES\n".toList else "NO\n".toList)
      = (if v ≠ 0 then "YES".toList else "NO".toList) ++ ['\n'] := by
    split <;> rfl
  rw [ht] at h
  rwa [putYesNo, ht]

/-- The `S2EVENTS` line. The pipe that is taken back makes room for the line end. -/
theorem s2events (o : TnCfgOut) {mask : Nat} (hne : s2eventsPipes mask ≠ []) :
    Puts o (putS2events o mask)
      ("S2EVENTS=".toList ++ ((s2eventsPipes mask).dropLast ++ ['\n'])) := by
  have h := (put o "S2EVENTS=".toList).trans (put _ (s2eventsPipes mask))
  unfold putS2events
  generalize tnCfgPut (tnCfgPut o "S2EVENTS=".toList) (s2eventsPipes mask) = o' at h ⊢
  have hn := put { o' with buf := o'.buf.dropLast } ['\n']
  have hlen : 0 < (s2eventsPipes mask).length := List.length_pos_of_ne_nil hne
  refine ⟨hn.size_eq.trans h.size_eq, fun hov => ?_, fun hov hroom => ?_, fun hov => ?_⟩
  · obtain ⟨hov', hbuf'⟩ := hn.of_not_overflow hov
    obtain ⟨hov, hbuf⟩ := h.of_not_overflow hov'
    refine ⟨hov, ?_⟩
    rw [hbuf', hbuf, ← List.append_assoc o.buf, List.dropLast_append_of_ne_nil hne]
    simp only [List.append_assoc]
  · simp only [List.length_append, List.length_dropLast, List.length_singleton] at hroom
    have hov' := h.fits hov (by rw [List.length_append]; omega)
    have hbuf := (h.of_not_overflow hov').2
    refine hn.fits hov' ?_
    rw [hbuf, List.length_dropLast, h.size_eq]
    simp only [List.length_append, List.length_singleton]
    omega
  · rcases h.room (hn.of_not_overflow hov).1 with hnil | hroom
    · exact absurd (List.append_eq_nil_iff.mp hnil).2 hne
    · simp only [List.length_append, List.length_dropLast, List.length_singleton] at hroom ⊢
      exact Or.inr (by omega)

end Puts

/-! ## The writer as a fold -/

/-- The part of `tn_config_format` that writes a setting. -/
def putSetting (prefs : TnPrefs) (o : TnCfgOut) : CfgKey → TnCfgOut
  | .version => tnCfgPut o "VERSION=1\n".toList
  | .device => tnCfgPutKvStr o "DEVICE=".toList prefs.device
  | .unit => tnCfgPutKvInt o "UNIT=".toList prefs.unit
  | .dhcp => putYesNo o "DHCP=".toList prefs.useDhcp
  | .ip => tnCfgPutKvStr o "IP=".toList prefs.ipAddr
  | .netmask => tnCfgPutKvStr o "NETMASK=".toList prefs.netmask
  | .gateway => tnCfgPutKvStr o "GATEWAY=".toList prefs.gateway
  | .dns => tnCfgPutKvStr o "DNS=".toList prefs.dnsServer
  | .dns2 => tnCfgPutKvStr o "DNS2=".toList prefs.dns2
  | .dnsPort => if prefs.dnsPort ≠ 0 then tnCfgPutKvInt o "DNS_PORT=".toList prefs.dnsPort else o
  | .hostname => tnCfgPutKvStr o "HOSTNAME=".toList prefs.hostname
  | .mtu => tnCfgPutKvInt o "MTU=".toList prefs.mtu
  | .debug => tnCfgPutKvInt o "DEBUG=".toList prefs.debug
  | .priority => tnCfgPutKvLong o "PRIORITY=".toList prefs.priority
  | .log => if prefs.logFile ≠ [] then tnCfgPutKvStr o "LOG=".toList prefs.logFile else o
  | .loglevel => tnCfgPutKvLong o "LOGLEVEL=".toList prefs.logLevel
  | .selectors => tnCfgPutKvInt o "SELECTORS=".toList prefs.selectors
  | .dnsPending => if prefs.dnsPendingMax ≠ 0 then
      tnCfgPutKvInt o "DNS_PENDING=".toList prefs.dnsPendingMax else o
  | .dnsRetries => if prefs.dnsRetries ≠ 0 then
      tnCfgPutKvInt o "DNS_RETRIES=".toList prefs.dnsRetries else o
  | .txQueue => if prefs.txQueue ≠ 0 then tnCfgPutKvInt o "TX_QUEUE=".toList prefs.txQueue else o
  | .stats => putYesNo o "STATS=".toList prefs.stats
  | .databaseOrder => if prefs.databaseOrder ≠ [] then
      tnCfgPutKvStr o "DATABASE_ORDER=".toList prefs.databaseOrder else o
  | .syslog => if prefs.syslogHost ≠ [] then
      tnCfgPutKvStr o "SYSLOG=".toList prefs.syslogHost else o
  | .s2events => if prefs.s2events ≠ 0 then putS2events o prefs.s2events else o
  | .font => if prefs.font ≠ [] then tnCfgPutKvStr o "FONT=".toList prefs.font else o
  | .autoip => if prefs.autoip ≠ 0 then tnCfgPut o "AUTOIP=YES\n".toList else o
  | .mdns => if prefs.mdns ≠ 0 then tnCfgPut o "MDNS=YES\n".toList else o
  | .diag => o

/-- `tn_config_format` writes the header and then one setting after the other. -/
theorem tnConfigFormat_eq_foldl (prefs : TnPrefs) (bufSize : Nat) :
    tnConfigFormat prefs bufSize =
      (let o := cfgOrder.foldl (putSetting prefs)
        (tnCfgPut { size := bufSize } "# tolunnet configuration file\n".toList)
       if o.overflow then none else some o.buf) := rfl

/-- What is written for a setting. -/
def settingText (p : TnPrefs) (k : CfgKey) : List Char :=
  if cfgWritten k (p.get k) = true then cfgLine k (p.get k) ++ ['\n'] else []

/-- A setting that is always written. -/
theorem settingText_of_written {p : TnPrefs} {k : CfgKey} (h : cfgWritten k (p.get k) = true) :
    settingText p k = (cfgName k ++ ['=']) ++ (cfgText k (p.get k) ++ ['\n']) := by
  rw [settingText, if_pos h, cfgLine]
  simp

/-- The event mask of valid preferences has names. -/
theorem s2eventsPipes_ne_nil {mask : Nat} (h : mask < 256) (h0 : mask ≠ 0) :
    s2eventsPipes mask ≠ [] := fun hnil =>
  (clean_s2eventsPipes h).2.2 h0 (by rw [hnil]; rfl)

/-- Writing a setting. -/
theorem puts_putSetting (p : TnPrefs) (hs2 : p.s2events < 256) (o : TnCfgOut) (k : CfgKey) :
    Puts o (putSetting p o k) (settingText p k) := by
  have hif : ∀ {c : Prop} [Decidable c] {o' : TnCfgOut} {t : List Char},
      (cfgWritten k (p.get k) = true ↔ c) → (c → Puts o o' t) →
      (c → settingText p k = t) → Puts o (if c then o' else o) (settingText p k) := by
    intro c _ o' t hw hp ht
    by_cases hc : c
    · rw [if_pos hc, ht hc]
      exact hp hc
    · rw [if_neg hc, settingText, if_neg (fun h => hc (hw.mp h))]
      exact Puts.refl o
  cases k
  case version => exact Puts.put o _
  case device | ip | netmask | gateway | dns | dns2 | hostname => exact Puts.kvStr o _ _
  case unit | mtu | debug | selectors | priority | loglevel => exact Puts.kvStr o _ _
  case dhcp | stats => exact Puts.yesNo o _ _
  case diag => exact Puts.refl o
  case log | databaseOrder | syslog | font =>
    exact hif decide_eq_true_iff (fun _ => Puts.kvStr o _ _)
      fun hc => settingText_of_written (decide_eq_true hc)
  case dnsPort | dnsPending | dnsRetries | txQueue =>
    exact hif decide_eq_true_iff (fun _ => Puts.kvStr o _ _)
      fun hc => settingText_of_written (decide_eq_true hc)
  case s2events =>
    exact hif decide_eq_true_iff (fun hc => Puts.s2events o (s2eventsPipes_ne_nil hs2 hc))
      fun hc => settingText_of_written (decide_eq_true hc)
  case autoip | mdns =>
    exact hif decide_eq_true_iff (fun _ => Puts.put o _)
      fun hc => settingText_of_written (decide_eq_true hc)

/-- Writing some settings. -/
theorem puts_foldl (p : TnPrefs) (hs2 : p.s2events < 256) (ks : List CfgKey) (o : TnCfgOut) :
    Puts o (ks.foldl (putSetting p) o) (ks.flatMap (settingText p)) := by
  induction ks generalizing o with
  | nil => exact Puts.refl o
  | cons k ks ih => exact (puts_putSetting p hs2 o k).trans (ih _)

/-- The settings that are written make the text. -/
theorem flatMap_settingText (p : TnPrefs) (ks : List CfgKey) :
    ks.flatMap (settingText p)
      = Lines.unlines '\n' ((ks.filter fun k => cfgWritten k (p.get k)).map
          fun k => cfgLine k (p.get k)) := by
  induction ks with
  | nil => rfl
  | cons k ks ih =>
    rw [List.flatMap_cons, ih, settingText, List.filter_cons]
    split
    · rw [List.map_cons, Lines.unlines_cons]
      simp
    · rfl

theorem configText_eq (p : TnPrefs) :
    configText p = "# tolunnet configuration file\n".toList ++ cfgOrder.flatMap (settingText p) := by
  have head : "# tolunnet configuration file\n".toList =
      "# tolunnet configuration file".toList ++ ['\n'] := by decide
  rw [flatMap_settingText, configText, configLines, Lines.unlines_cons, head, List.append_assoc]
  rfl

/-- The writer produces `configText`, or nothing when the buffer is too small. -/
theorem tnConfigFormat_eq (p : TnPrefs) (hs2 : p.s2events < 256) (bufSize : Nat) :
    tnConfigFormat p bufSize
      = if (configText p).length < bufSize then some (configText p) else none := by
  have h := (Puts.put { size := bufSize } "# tolunnet configuration file\n".toList).trans
    (puts_foldl p hs2 cfgOrder _)
  rw [← configText_eq] at h
  rw [tnConfigFormat_eq_foldl]
  generalize cfgOrder.foldl (putSetting p) _ = o at h ⊢
  cases hov : o.overflow with
  | false =>
    rcases h.room hov with hnil | hroom
    · exact absurd hnil (by rw [configText_eq]; simp)
    · have hbuf := (h.of_not_overflow hov).2
      have hroom' : (configText p).length < bufSize := by simpa using hroom
      rw [List.nil_append] at hbuf
      rw [if_pos hroom']
      simp [hov, hbuf]
  | true =>
    have hfull : ¬ (configText p).length < bufSize := fun hlt => by
      have := h.fits rfl (by simpa using hlt)
      rw [hov] at this
      cases this
    rw [if_neg hfull]
    simp [hov]

theorem tnConfigFormat_of_fits {p : TnPrefs} (hs2 : p.s2events < 256) {bufSize : Nat}
    (h : (configText p).length < bufSize) : tnConfigFormat p bufSize = some (configText p) := by
  rw [tnConfigFormat_eq p hs2, if_pos h]

theorem eq_configText {p : TnPrefs} (hs2 : p.s2events < 256) {bufSize : Nat} {text : List Char}
    (h : tnConfigFormat p bufSize = some text) :
    text = configText p ∧ (configText p).length < bufSize := by
  rw [tnConfigFormat_eq p hs2] at h
  split at h
  · exact ⟨(Option.some.inj h).symm, ‹_›⟩
  · cases h

end Tolunnet
