import Tolunnet.Config.Format

/-!
# `Tolunnet.Config.RoundTrip`: what is written is read again

The reader of `tn_prefs_read_file` works on the pieces that `FGets` returns. A line end behind a
piece makes no difference to it (`readChunk_newline`), so it works line by line, and a line of at
most 127 characters is one piece. `readChunk_cfgLine` reads the line of a setting back.

A setting is in one of three positions: its line gives the value back, its value is the default
that the reader starts from, or it is lost. `DIAG` has no line, and `DNS_PENDING` and
`DNS_RETRIES` have no default: these three are all that can be lost (`readText_tnConfigFormat_iff`).
-/

set_option autoImplicit false

namespace Tolunnet

/-! ## Reading back a value -/

/-- The text of a value is clean, whatever the two fields without a default hold. -/
theorem clean_cfgText {k : CfgKey} {v : k.Val} (h : k.Defaulted → ValidAt k v) :
    Clean 64 (cfgText k v) := by
  cases k
  case device | hostname | log => exact h (by decide)
  case ip | netmask | gateway | dns2 | dns => exact Clean.mono (h (by decide)) (by decide)
  case databaseOrder | syslog | font => exact (h (by decide)).1.mono (by decide)
  case unit | mtu | dnsPort | debug | selectors | txQueue | dnsPending | dnsRetries =>
    exact (clean_ulongText _).mono (by decide)
  case priority | loglevel => exact (clean_longText _).mono (by decide)
  case s2events => exact (clean_s2eventsPipes (h (by decide))).1
  case dhcp | stats =>
    simp only [cfgText]
    split <;> exact .of_all (by decide) (by decide)
  case autoip | mdns => exact show Clean 64 "YES".toList from .of_all (by decide) (by decide)
  case version => exact show Clean 64 "1".toList from .of_all (by decide) (by decide)
  case diag => exact show Clean 64 [] from .of_all (by decide) (by decide)

/-- The text of a valid value that is written gives the value back, or it is refused and the
value is the default. -/
theorem cfgValue_cfgText {k : CfgKey} {v : k.Val} (h : ValidAt k v) (hw : cfgWritten k v = true)
    (p : TnPrefs) :
    cfgValue k (cfgText k v) = some v ∨
      (cfgValue k (cfgText k v) = none ∧ v = (tnPrefsDefault p).get k) := by
  have hcopy := (@clean_cfgText k v fun _ => h).copy
  have hnum : ∀ lo hi n : Nat, lo ≤ n → n ≤ hi → hi < 2 ^ 31 →
      (numIn (ulongText n) lo hi).map toUlong = some n := by
    intro lo hi n hlo hhi hhi'
    rw [numIn_ulongText hlo hhi hhi', Option.map_some, toUlong_natCast (by omega)]
  have hlong : ∀ n : Nat, n < 2 ^ 32 → (tnStrToLong (ulongText n)).map toUlong = some n := by
    intro n hn
    rw [tnStrToLong_ulongText (by omega), Option.map_some, toUlong_wrapLong hn]
  have hpos : ∀ n : Nat, decide (n ≠ 0) = true → 1 ≤ n := fun n hn =>
    Nat.one_le_iff_ne_zero.mpr (of_decide_eq_true hn)
  cases k
  case device | hostname | log | ip | netmask | gateway | dns2 | dns =>
    left
    simp only [cfgValue, cfgText] at hcopy ⊢
    rw [hcopy, Clean.copy h]
  case unit | mtu =>
    left
    simp only [cfgValue, cfgText] at hcopy ⊢
    rw [hcopy, hlong _ h]
  case dhcp | stats =>
    left
    rcases h with rfl | rfl <;> rfl
  case autoip | mdns =>
    left
    rcases h with rfl | rfl
    · cases hw
    · rfl
  case dnsPort | txQueue | dnsPending | dnsRetries =>
    left
    simp only [cfgValue, cfgText] at hcopy ⊢
    rw [hcopy]
    exact hnum _ _ _ (by first | exact hpos _ hw | exact Nat.zero_le _) h (by decide)
  case debug =>
    left
    simp only [cfgValue, cfgText] at hcopy ⊢
    rw [hcopy]
    exact hnum 0 2 v (Nat.zero_le _) h (by decide)
  case priority =>
    left
    simp only [cfgValue, cfgText] at hcopy ⊢
    rw [hcopy, numIn, tnStrToLong_longText (Int.lt_of_lt_of_le (by decide) h.1)
      (Int.lt_of_le_of_lt h.2 (by decide))]
    simp [h.1, h.2]
  case loglevel =>
    -- the default of `LOGLEVEL` is written, but not accepted
    rcases eq_or_ne v (-1 : Int) with rfl | hne
    · exact Or.inr ⟨rfl, rfl⟩
    · left
      have hge : (0 : Int) ≤ v := by
        rcases Int.lt_or_eq_of_le h.1 with hlt | heq
        · exact hlt
        · exact absurd heq.symm hne
      simp only [cfgValue, cfgText] at hcopy ⊢
      rw [hcopy, numIn, tnStrToLong_longText (Int.lt_of_lt_of_le (by decide) h.1)
        (Int.lt_of_le_of_lt h.2 (by decide))]
      simp [hge, h.2]
  case selectors =>
    -- so is that of `SELECTORS`
    rcases eq_or_ne v (0 : Nat) with rfl | hne
    · exact Or.inr ⟨rfl, rfl⟩
    · left
      simp only [cfgValue, cfgText] at hcopy ⊢
      rw [hcopy]
      exact hnum 1 128 v (Nat.one_le_iff_ne_zero.mpr hne) h (by decide)
  case databaseOrder =>
    left
    show (if tnValToken v ",_-".toList ∧ tnStrCopyClean v 64 ≠ [] then
      some (tnStrCopyClean (tnStrCopyClean v 64) 40) else none) = some v
    rw [show tnStrCopyClean v 64 = v from hcopy, if_pos ⟨h.2, of_decide_eq_true hw⟩, h.1.copy]
  case syslog =>
    left
    show (if tnValToken v ".-".toList ∧ tnStrCopyClean v 64 ≠ [] ∧
      (tnStrCopyClean v 64).length < 48 then
      some (tnStrCopyClean (tnStrCopyClean v 64) 48) else none) = some v
    rw [show tnStrCopyClean v 64 = v from hcopy,
      if_pos ⟨h.2, of_decide_eq_true hw, h.1.len⟩, h.1.copy]
  case s2events =>
    left
    have hne : v ≠ (0 : Nat) := of_decide_eq_true hw
    have hc := clean_s2eventsPipes h
    have hcopy : tnStrCopyClean (s2eventsPipes v).dropLast 64 = (s2eventsPipes v).dropLast := hcopy
    show (if tnValToken (s2eventsPipes v).dropLast "|".toList ∧
      tnStrCopyClean (s2eventsPipes v).dropLast 64 ≠ [] then
      s2eventsValue (tnStrCopyClean (s2eventsPipes v).dropLast 64) else none) = some v
    rw [hcopy, if_pos ⟨hc.2.1, hc.2.2 hne⟩]
    exact s2eventsValue_pipes h hne
  case font =>
    left
    have hne : v ≠ [] := of_decide_eq_true hw
    obtain ⟨htok, hfont⟩ := h.2.resolve_left hne
    show (if tnValToken v ".-/".toList ∧ tnStrCopyClean v 64 ≠ [] ∧
      (tnStrCopyClean v 64).length < 24 ∧ isFont (tnStrCopyClean v 64) then
      some (tnStrCopyClean (tnStrCopyClean v 64) 24) else none) = some v
    rw [show tnStrCopyClean v 64 = v from hcopy,
      if_pos ⟨htok, hne, h.1.len, hfont⟩, h.1.copy]
  case version => exact Or.inl rfl
  case diag => cases hw

/-- A setting that is not written has its default, but for `DIAG`, `DNS_PENDING` and
`DNS_RETRIES`. -/
theorem eq_default_of_not_written {k : CfgKey} {v : k.Val} (hw : cfgWritten k v = false)
    (hk : k.Defaulted) (hdiag : k ≠ .diag) (p : TnPrefs) : v = (tnPrefsDefault p).get k := by
  cases k
  case dnsPending => exact absurd rfl hk.1
  case dnsRetries => exact absurd rfl hk.2
  case diag => exact absurd rfl hdiag
  case dnsPort | txQueue | s2events | log | databaseOrder | syslog | font | autoip | mdns =>
    exact of_not_not (of_decide_eq_false hw)
  all_goals cases hw

/-! ## What a piece sets -/

/-- A line end behind a value makes no difference. -/
theorem cfgValue_newline (k : CfgKey) (s : List Char) :
    cfgValue k (s ++ ['\n']) = cfgValue k s := by
  cases k <;> simp only [cfgValue, tnStrCopyClean_newline, tnValToken_newline]

/-- The setting that a piece names. -/
def chunkKey (chunk : List Char) : Option CfgKey :=
  if '=' ∈ cString chunk then
    cfgKey? (tnStrCopyClean ((cString chunk).takeWhile (· ≠ '=')) 32)
  else none

/-- The value in a piece. -/
def chunkVal (chunk : List Char) : List Char :=
  ((cString chunk).dropWhile (· ≠ '=')).tail.dropWhile fun c => c == ' ' || c == '\t'

/-- What a piece sets a setting to. -/
def chunkValue (k : CfgKey) (chunk : List Char) : Option k.Val :=
  if chunkKey chunk = some k then cfgValue k (chunkVal chunk) else none

/-- A line changes what it sets. -/
theorem get_tnConfigParseLine (q : TnPrefs) (key val : List Char) (k : CfgKey) :
    (tnConfigParseLine q key val).get k
      = (if cfgKey? (tnStrCopyClean key 32) = some k then cfgValue k val else none).getD
          (q.get k) := by
  unfold tnConfigParseLine
  cases hk : cfgKey? (tnStrCopyClean key 32) with
  | none => simp
  | some k' =>
    by_cases he : k' = k
    · subst he
      cases hv : cfgValue k' val <;> simp [hv]
    · have hne : (some k' = some k) = False := by simp [he]
      simp only [hne, if_false, Option.getD_none]
      cases cfgValue k' val with
      | none => rfl
      | some v => exact TnPrefs.get_put_of_ne _ _ _ _ (Ne.symm he)

/-- A piece changes what it sets. -/
theorem get_readChunk (q : TnPrefs) (chunk : List Char) (k : CfgKey) :
    (readChunk q chunk).get k = (chunkValue k chunk).getD (q.get k) := by
  unfold chunkValue chunkKey chunkVal
  cases hd : (cString chunk).dropWhile (fun c => decide (c ≠ '=')) with
  | nil =>
    have hno : '=' ∉ cString chunk := fun h => by
      have := List.dropWhile_eq_nil_iff.mp hd _ h
      simp at this
    simp only [readChunk, hd, if_neg hno]
    rfl
  | cons c val =>
    have hyes : '=' ∈ cString chunk := by
      by_contra hno
      have hall : ∀ c ∈ cString chunk, decide (c ≠ '=') = true := fun c hc =>
        decide_eq_true fun he => hno (he ▸ hc)
      rw [List.dropWhile_eq_nil_iff.mpr hall] at hd
      cases hd
    simp only [readChunk, hd, if_pos hyes, List.tail_cons, get_tnConfigParseLine]

/-- A line end behind a piece makes no difference. -/
theorem chunkValue_newline (k : CfgKey) (chunk : List Char) :
    chunkValue k (chunk ++ ['\n']) = chunkValue k chunk := by
  rcases cString_append_newline chunk with h | h
  · unfold chunkValue chunkKey chunkVal
    rw [h]
  · have hmem : '=' ∈ cString chunk ++ ['\n'] ↔ '=' ∈ cString chunk := by simp
    by_cases heq : '=' ∈ cString chunk
    · have hne : (cString chunk).dropWhile (· ≠ '=') ≠ [] := fun hnil => by
        have := List.dropWhile_eq_nil_iff.mp hnil _ heq
        simp at this
      have htake : (cString chunk ++ ['\n']).takeWhile (· ≠ '=')
          = (cString chunk).takeWhile (· ≠ '=') := by
        obtain ⟨key, val, hkey, hs⟩ := (Lines.eq_line_or '=' (cString chunk)).resolve_left
          (not_not.mpr heq)
        have hall : ∀ c ∈ key, decide (c ≠ '=') = true := fun c hc =>
          decide_eq_true fun he => hkey (he ▸ hc)
        rw [hs, List.append_assoc, List.takeWhile_append_of_pos hall,
          List.takeWhile_append_of_pos hall]
        simp
      have hval : chunkVal (chunk ++ ['\n']) = chunkVal chunk ++ ['\n'] := by
        unfold chunkVal
        rw [h, List.dropWhile_append, if_neg (by simpa using hne), List.tail_append_of_ne_nil hne,
          List.dropWhile_append]
        split
        · rename_i hemp
          rw [List.isEmpty_iff.mp hemp]
          rfl
        · rfl
      have hkey : chunkKey (chunk ++ ['\n']) = chunkKey chunk := by
        unfold chunkKey
        rw [h, htake]
        exact if_congr hmem rfl rfl
      rw [chunkValue, chunkValue, hkey, hval, cfgValue_newline]
    · have hnone : chunkKey (chunk ++ ['\n']) = none ∧ chunkKey chunk = none := by
        unfold chunkKey
        rw [h]
        exact ⟨if_neg (mt hmem.mp heq), if_neg heq⟩
      rw [chunkValue, chunkValue, hnone.1, hnone.2]
      simp

theorem readChunk_newline (q : TnPrefs) (chunk : List Char) :
    readChunk q (chunk ++ ['\n']) = readChunk q chunk :=
  TnPrefs.ext_get fun k => by rw [get_readChunk, get_readChunk, chunkValue_newline]

/-! ## What a text sets -/

/-- The last value that some pieces have for a setting. -/
def lastValue (k : CfgKey) (chunks : List (List Char)) : Option k.Val :=
  (chunks.filterMap (chunkValue k)).getLast?

@[simp] theorem lastValue_nil (k : CfgKey) : lastValue k [] = none := rfl

theorem lastValue_append (k : CfgKey) (chunks chunks' : List (List Char)) :
    lastValue k (chunks ++ chunks') = (lastValue k chunks').or (lastValue k chunks) := by
  simp [lastValue, List.getLast?_append]

theorem lastValue_cons (k : CfgKey) (chunk : List Char) (chunks : List (List Char)) :
    lastValue k (chunk :: chunks) = (lastValue k chunks).or (chunkValue k chunk) := by
  have h := lastValue_append k [chunk] chunks
  have h1 : lastValue k [chunk] = chunkValue k chunk := by
    unfold lastValue
    cases hv : chunkValue k chunk <;> simp [hv]
  rwa [h1] at h

/-- The last value wins. -/
theorem get_foldl_readChunk (k : CfgKey) (chunks : List (List Char)) (q : TnPrefs) :
    (chunks.foldl readChunk q).get k = (lastValue k chunks).getD (q.get k) := by
  induction chunks generalizing q with
  | nil => rfl
  | cons chunk chunks ih =>
    rw [List.foldl_cons, ih, get_readChunk, lastValue_cons]
    cases lastValue k chunks <;> rfl

/-- The pieces of a text, line by line. -/
def linePieces (lines : List (List Char)) : List (List Char) := lines.flatMap fgetsChunks

/-- The reader works line by line. -/
theorem readText_eq (q : TnPrefs) (content : List Char) :
    readText q content = (linePieces (textLines content)).foldl readChunk q := by
  have h := Lines.foldl_fgets readChunk_newline (fun _ => rfl) lineMax content q
  rw [readText, fgetsChunks, h, linePieces, List.foldl_flatMap]
  rfl

theorem get_readText (q : TnPrefs) (content : List Char) (k : CfgKey) :
    (readText q content).get k
      = (lastValue k (linePieces (textLines content))).getD (q.get k) := by
  rw [readText_eq, get_foldl_readChunk]

/-! ## Reading back a text -/

/-- What the lines of `p` need to be read back. The two fields without a default may hold any
`ULONG`. -/
structure Parsed (p : TnPrefs) : Prop where
  valid : ∀ k : CfgKey, k.Defaulted → ValidAt k (p.get k)
  pending : p.dnsPendingMax < 2 ^ 32
  retries : p.dnsRetries < 2 ^ 32

/-- The names of the writer are names of the parser, without a line end or an `=`. -/
theorem cfgName_ok (k : CfgKey) :
    cfgKey? (tnStrCopyClean (cfgName k) 32) = some k ∧ (cfgName k).length ≤ 14 ∧
      ∀ c ∈ cfgName k, c ≠ '\n' ∧ c ≠ '=' ∧ c ≠ '\x00' := by
  have chars : ((cfgName k).all fun c => decide (c ≠ '\n' ∧ c ≠ '=' ∧ c ≠ '\x00')) = true := by
    cases k <;> rfl
  refine ⟨?_, ?_, fun c hc => of_decide_eq_true (List.all_eq_true.mp chars c hc)⟩
  · cases k <;> rfl
  · cases k <;> decide

section
variable {k : CfgKey} {v : k.Val} (h : k.Defaulted → ValidAt k v)
include h

/-- A line of a setting is short. -/
theorem length_cfgLine_le : (cfgLine k v).length ≤ 78 := by
  have hn := (cfgName_ok k).2.1
  have ht := (clean_cfgText h).len
  simp only [cfgLine, List.length_append, List.length_cons]
  omega

theorem cfgLine_chars : '\n' ∉ cfgLine k v ∧ cString (cfgLine k v) = cfgLine k v := by
  have hn := (cfgName_ok k).2.2
  have ht := clean_cfgText h
  have hmem : ∀ c ∈ cfgLine k v, c ≠ '\n' ∧ c ≠ '\x00' := by
    intro c hc
    rw [cfgLine, List.mem_append, List.mem_cons] at hc
    rcases hc with hc | rfl | hc
    · exact ⟨(hn c hc).1, (hn c hc).2.2⟩
    · decide
    · constructor <;> rintro rfl
      · exact ht.not_mem rfl hc
      · exact ht.not_mem rfl hc
  exact ⟨fun hc => (hmem _ hc).1 rfl,
    List.takeWhile_eq_self_iff.mpr fun c hc => decide_eq_true (hmem c hc).2⟩

/-- A line is one piece. -/
theorem fgetsChunks_cfgLine : fgetsChunks (cfgLine k v) = [cfgLine k v] :=
  Lines.fgets_short (cfgLine_chars h).1 (Nat.le_trans (length_cfgLine_le h) (by decide))
    (by simp [cfgLine])

/-- A line names its setting and has its value. -/
theorem chunkValue_cfgLine (k' : CfgKey) :
    chunkValue k' (cfgLine k v)
      = if k = k' then cfgValue k' (cfgText k v) else none := by
  obtain ⟨hkey, -, hn⟩ := cfgName_ok k
  have hstr := (cfgLine_chars h).2
  have hall : ∀ c ∈ cfgName k, decide (c ≠ '=') = true := fun c hc =>
    decide_eq_true (hn c hc).2.1
  have hval : chunkVal (cfgLine k v) = cfgText k v := by
    unfold chunkVal
    rw [hstr, cfgLine, List.dropWhile_append_of_pos hall, List.dropWhile_cons_of_neg (by simp),
      List.tail_cons]
    refine List.dropWhile_eq_self_iff.mpr fun hlen => ?_
    have hc := (clean_cfgText h).chars _ (List.get_mem _ ⟨0, hlen⟩)
    simp only [isStop, isBlank, Bool.or_eq_false_iff] at hc
    simp only [List.get_eq_getElem] at hc
    simp [hc.2.1.2, hc.2.2]
  have hkey : chunkKey (cfgLine k v) = some k := by
    unfold chunkKey
    rw [hstr, cfgLine, if_pos (by simp), List.takeWhile_append_of_pos hall,
      List.takeWhile_cons_of_neg (by simp), List.append_nil, hkey]
  rw [chunkValue, hkey, hval]
  simp only [Option.some.injEq]

end

/-- What the lines for `p` say about a setting. -/
def writtenValue (p : TnPrefs) (k : CfgKey) : Option k.Val :=
  if cfgWritten k (p.get k) = true then cfgValue k (cfgText k (p.get k)) else none

section
variable {p : TnPrefs} (hp : ∀ k : CfgKey, k.Defaulted → ValidAt k (p.get k))
include hp

theorem not_newline_mem_configLines {l : List Char} (hl : l ∈ configLines p) : '\n' ∉ l := by
  rw [configLines, List.mem_cons, List.mem_map] at hl
  rcases hl with rfl | ⟨k, -, rfl⟩
  · decide
  · exact (cfgLine_chars (hp k)).1

/-- The lines for `p` are their own pieces. -/
theorem linePieces_configLines : linePieces (configLines p) = configLines p := by
  have hmap : ∀ ks : List CfgKey, linePieces (ks.map fun k => cfgLine k (p.get k))
      = ks.map fun k => cfgLine k (p.get k) := by
    intro ks
    induction ks with
    | nil => rfl
    | cons k ks ih =>
      unfold linePieces at ih ⊢
      rw [List.map_cons, List.flatMap_cons, ih, fgetsChunks_cfgLine (hp k)]
      rfl
  have hhead : fgetsChunks headerLine = [headerLine] :=
    Lines.fgets_short (by decide) (by decide) (by decide)
  have hcons : linePieces (configLines p) = fgetsChunks headerLine
      ++ linePieces ((writtenKeys p).map fun k => cfgLine k (p.get k)) := by
    rw [configLines, linePieces, List.flatMap_cons]
    rfl
  rw [hcons, hhead, hmap, configLines]
  rfl

/-- The last value that the lines for `p` have for a setting. -/
theorem lastValue_configLines (k : CfgKey) : lastValue k (configLines p) = writtenValue p k := by
  have hmap : ∀ ks : List CfgKey, lastValue k (ks.map fun k => cfgLine k (p.get k))
      = if k ∈ ks then cfgValue k (cfgText k (p.get k)) else none := by
    intro ks
    induction ks with
    | nil => rfl
    | cons k' ks ih =>
      rw [List.map_cons, lastValue_cons, ih, chunkValue_cfgLine (hp k')]
      by_cases he : k' = k
      · subst he
        by_cases hmem : k' ∈ ks
        · simp [hmem]
        · simp [hmem]
      · simp only [List.mem_cons, Ne.symm he, if_neg he, false_or, Option.or_none]
  have hhead : chunkValue k headerLine = none := rfl
  rw [configLines, lastValue_cons, hmap, hhead, Option.or_none, writtenValue]
  simp only [mem_writtenKeys]

/-- Reading the text for `p` and something behind it. -/
theorem get_readText_configText (q : TnPrefs) (s : List Char) (k : CfgKey) :
    (readText q (configText p ++ s)).get k
      = ((lastValue k (linePieces (textLines s))).or (writtenValue p k)).getD (q.get k) := by
  have hlines : textLines (configText p ++ s) = configLines p ++ textLines s :=
    Lines.lines_unlines_append (fun l hl => not_newline_mem_configLines hp hl) s
  have hpieces : linePieces (configLines p ++ textLines s)
      = configLines p ++ linePieces (textLines s) := by
    rw [linePieces, List.flatMap_append]
    exact congrArg (· ++ _) (linePieces_configLines hp)
  rw [get_readText, hlines, hpieces, lastValue_append, lastValue_configLines hp]

end

/-! ## The round trip -/

/-- Some calls of `tn_config_parse_line`, each with a key and a value. -/
def parseAll (q : TnPrefs) (calls : List (List Char × List Char)) : TnPrefs :=
  calls.foldl (fun q c => tnConfigParseLine q c.1 c.2) q

theorem Parsed.parseLine {q : TnPrefs} (h : Parsed q) (key val : List Char) :
    Parsed (tnConfigParseLine q key val) := by
  -- a field has its old value, or one that the parser accepts
  have hget : ∀ k, (tnConfigParseLine q key val).get k = q.get k ∨
      ∃ v, cfgValue k val = some v ∧ (tnConfigParseLine q key val).get k = v := by
    intro k
    rw [get_tnConfigParseLine]
    split
    · cases hv : cfgValue k val with
      | none => exact Or.inl rfl
      | some v => exact Or.inr ⟨v, rfl, rfl⟩
    · exact Or.inl rfl
  constructor
  · intro k hk
    rcases hget k with heq | ⟨v, hv, heq⟩
    · rw [heq]
      exact h.valid k hk
    · rw [heq]
      exact cfgValue_valid hv
  · show (tnConfigParseLine q key val).get .dnsPending < 2 ^ 32
    rcases hget .dnsPending with heq | ⟨v, hv, heq⟩
    · rw [heq]
      exact h.pending
    · rw [heq]
      exact Nat.lt_of_le_of_lt (cfgValue_valid hv) (by decide)
  · show (tnConfigParseLine q key val).get .dnsRetries < 2 ^ 32
    rcases hget .dnsRetries with heq | ⟨v, hv, heq⟩
    · rw [heq]
      exact h.retries
    · rw [heq]
      exact Nat.lt_of_le_of_lt (cfgValue_valid hv) (by decide)

theorem Parsed.parseAll {q : TnPrefs} (h : Parsed q) (calls : List (List Char × List Char)) :
    Parsed (parseAll q calls) := by
  induction calls generalizing q with
  | nil => exact h
  | cons c calls ih => exact ih (h.parseLine c.1 c.2)

theorem parsed_tnPrefsDefault {m : TnPrefs} (h : m.dnsPendingMax < 2 ^ 32)
    (h' : m.dnsRetries < 2 ^ 32) : Parsed (tnPrefsDefault m) :=
  ⟨fun _ hk => validAt_tnPrefsDefault hk m, h, h'⟩

/-- A number that is out of range, or not written, is not read back. -/
theorem numIn_ulongText_eq_none {n hi : Nat} (hn : n < 2 ^ 32)
    (h : ¬ (1 ≤ n ∧ n ≤ hi)) : numIn (ulongText n) 1 hi = none := by
  rw [numIn, tnStrToLong_ulongText (by omega), Option.filter_eq_none_iff]
  intro v hv
  obtain rfl := Option.some.inj hv
  have hw : wrapLong n = n ∨ wrapLong n < 0 := by
    by_cases hlt : n < 2 ^ 31
    · exact Or.inl (wrapLong_of_fits (by omega) (by omega))
    · right
      have heq : (n : Int).bmod (2 ^ 32) = (n : Int) - 2 ^ 32 := by
        rw [Int.bmod_def, Int.emod_eq_of_lt (by omega) (by omega), if_neg (by omega)]
        rfl
      unfold wrapLong
      omega
  simp only [Bool.and_eq_true, decide_eq_true_eq, not_and]
  omega

/-- What is read back of a setting with a default: its value, unless it is `DIAG`. -/
theorem writtenValue_getD {p : TnPrefs} (hp : ∀ k : CfgKey, k.Defaulted → ValidAt k (p.get k))
    {k : CfgKey} (hk : k.Defaulted) (hdiag : k ≠ .diag) (m : TnPrefs) :
    (writtenValue p k).getD ((tnPrefsDefault m).get k) = p.get k := by
  unfold writtenValue
  split
  · rename_i hw
    rcases cfgValue_cfgText (hp k hk) hw m with hv | ⟨hv, heq⟩
    · rw [hv]
      rfl
    · rw [hv, heq]
      rfl
  · rename_i hw
    exact (eq_default_of_not_written (Bool.eq_false_iff.mpr hw) hk hdiag m).symm

/-- What is read back of a number without a default: itself when it is in range, otherwise what
the structure held before. -/
theorem writtenValue_getD_num {n hi : Nat} (hn : n < 2 ^ 32)
    (hhi : hi < 2 ^ 31) (d : Nat) :
    (if decide (n ≠ 0) = true then (numIn (ulongText n) 1 hi).map toUlong else none).getD d
      = if 1 ≤ n ∧ n ≤ hi then n else d := by
  by_cases hr : 1 ≤ n ∧ n ≤ hi
  · have hv : numIn (ulongText n) 1 hi = some (n : Int) := numIn_ulongText hr.1 hr.2 hhi
    rw [if_pos (decide_eq_true (by omega)), if_pos hr, hv, Option.map_some, Option.getD_some,
      toUlong_natCast hn]
  · rw [if_neg hr, numIn_ulongText_eq_none hn hr]
    split <;> rfl

/-- The preferences that the parser made are given back by their text if and only if `DIAG` is
off and the two fields without a default are in range, or are already there. -/
theorem readText_tnConfigFormat_iff (m₀ m₁ p : TnPrefs) (h₀ : m₀.dnsPendingMax < 2 ^ 32)
    (h₀' : m₀.dnsRetries < 2 ^ 32) (calls : List (List Char × List Char))
    (hp : p = parseAll (tnPrefsDefault m₀) calls) (bufSize : Nat) (text : List Char)
    (ht : tnConfigFormat p bufSize = some text) :
    readText (tnPrefsDefault m₁) text = p ↔
      p.diag = 0 ∧
      ((1 ≤ p.dnsPendingMax ∧ p.dnsPendingMax ≤ dnsPendingMax) ∨
        m₁.dnsPendingMax = p.dnsPendingMax) ∧
      ((1 ≤ p.dnsRetries ∧ p.dnsRetries ≤ 16) ∨ m₁.dnsRetries = p.dnsRetries) := by
  -- the preferences were read from texts, so their numbers are ULONGs
  have hparsed : Parsed p := by
    rw [hp]
    exact (parsed_tnPrefsDefault h₀ h₀').parseAll calls
  have htext := (eq_configText (hparsed.valid .s2events (by decide)) ht).1
  have hget : ∀ k, (readText (tnPrefsDefault m₁) text).get k
      = (writtenValue p k).getD ((tnPrefsDefault m₁).get k) := by
    intro k
    have h := get_readText_configText hparsed.valid (tnPrefsDefault m₁) [] k
    rwa [List.append_nil, ← htext] at h
  -- the two numbers with a range are read back only inside it, else the default stays
  have hpend : (readText (tnPrefsDefault m₁) text).dnsPendingMax
      = if 1 ≤ p.dnsPendingMax ∧ p.dnsPendingMax ≤ dnsPendingMax then p.dnsPendingMax
        else m₁.dnsPendingMax := by
    refine (hget .dnsPending).trans ?_
    have hclean := (@clean_cfgText .dnsPending p.dnsPendingMax fun hk => absurd rfl hk.1).copy
    have hval : cfgValue .dnsPending (cfgText .dnsPending p.dnsPendingMax)
        = (numIn (ulongText p.dnsPendingMax) 1 dnsPendingMax).map toUlong := by
      simp only [cfgValue, cfgText] at hclean ⊢
      rw [hclean]
    rw [← writtenValue_getD_num hparsed.pending (by decide) m₁.dnsPendingMax, ← hval]
    rfl
  have hretr : (readText (tnPrefsDefault m₁) text).dnsRetries
      = if 1 ≤ p.dnsRetries ∧ p.dnsRetries ≤ 16 then p.dnsRetries else m₁.dnsRetries := by
    refine (hget .dnsRetries).trans ?_
    have hclean := (@clean_cfgText .dnsRetries p.dnsRetries fun hk => absurd rfl hk.2).copy
    have hval : cfgValue .dnsRetries (cfgText .dnsRetries p.dnsRetries)
        = (numIn (ulongText p.dnsRetries) 1 (16 : Nat)).map toUlong := by
      simp only [cfgValue, cfgText] at hclean ⊢
      rw [hclean]
      rfl
    rw [← writtenValue_getD_num hparsed.retries (by decide) m₁.dnsRetries, ← hval]
    rfl
  have hdiag : (readText (tnPrefsDefault m₁) text).diag = 0 := hget .diag
  -- the three keys that the default decides, and all the others at once
  constructor
  · intro heq
    rw [heq] at hpend hretr hdiag
    refine ⟨hdiag, ?_, ?_⟩
    · by_cases hr : 1 ≤ p.dnsPendingMax ∧ p.dnsPendingMax ≤ dnsPendingMax
      · exact Or.inl hr
      · rw [if_neg hr] at hpend
        exact Or.inr hpend.symm
    · by_cases hr : 1 ≤ p.dnsRetries ∧ p.dnsRetries ≤ 16
      · exact Or.inl hr
      · rw [if_neg hr] at hretr
        exact Or.inr hretr.symm
  · rintro ⟨hd, hpe, hre⟩
    refine TnPrefs.ext_get fun k => ?_
    by_cases hk : k.Defaulted ∧ k ≠ .diag
    · rw [hget, writtenValue_getD hparsed.valid hk.1 hk.2]
    · cases k
      case diag => exact hdiag.trans hd.symm
      case dnsPending =>
        refine hpend.trans ?_
        split
        · rfl
        · exact hpe.resolve_left ‹_›
      case dnsRetries =>
        refine hretr.trans ?_
        split
        · rfl
        · exact hre.resolve_left ‹_›
      all_goals exact absurd (by decide) hk

/-- A round trip that works: an address is set, and `DNS_PENDING` and `DNS_RETRIES` were 0 in both
structures. -/
theorem readText_tnConfigFormat_ip :
    ∃ p text, p = parseAll (tnPrefsDefault {}) [("IP".toList, "10.0.2.15".toList)] ∧
      tnConfigFormat p configTextMax = some text ∧ readText (tnPrefsDefault {}) text = p :=
  have ht := tnConfigFormat_of_fits
    (p := parseAll (tnPrefsDefault {}) [("IP".toList, "10.0.2.15".toList)]) (by decide +kernel)
    (show _ < configTextMax by decide +kernel)
  ⟨_, _, rfl, ht, (readText_tnConfigFormat_iff {} {} _ (by decide) (by decide) _ rfl _ _ ht).mpr
    (by decide +kernel)⟩

/-- `DIAG=YES` is not in the text, so the round trip is not the identity. -/
theorem not_forall_readText_tnConfigFormat :
    ¬ ∀ (m₀ m₁ : TnPrefs) (calls : List (List Char × List Char)) (text : List Char),
      tnConfigFormat (parseAll (tnPrefsDefault m₀) calls) configTextMax = some text →
      readText (tnPrefsDefault m₁) text = parseAll (tnPrefsDefault m₀) calls := by
  intro h
  have ht := tnConfigFormat_of_fits
    (p := parseAll (tnPrefsDefault {}) [("DIAG".toList, "YES".toList)]) (by decide +kernel)
    (show _ < configTextMax by decide +kernel)
  have hdiag := congrArg TnPrefs.diag (h {} {} _ _ ht)
  revert hdiag
  decide +kernel

end Tolunnet
