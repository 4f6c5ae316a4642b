import Tolunnet.Config.Crash
import Tolunnet.Config.Merge

/-!
# `Tolunnet.Config.Save`: which foreign lines outlive a save

A save reads the old file into a buffer of 1024 bytes before it merges. What it carries over is
therefore taken from the first 1023 bytes, and from nothing at all when the file cannot be read
(`seenPart`). The file that it writes is the new text and the kept lines of that part
(`path_of_saved`), and it can be longer than what the next save reads: the lines behind are cut or
lost then. `tnPrefsWrites_keeps_iff` says exactly when nothing is lost over any number of saves.
-/

set_option autoImplicit false

namespace Tolunnet

/-! ## Foreign lines -/

/-- A line that is not the program's own: one that the reader of settings skips for its length, or a
setting, no comment, whose key the reader does not know. -/
def foreignLine (line : List Char) : Bool :=
  decide (lineMax < line.length) ||
    (line.contains '=' && line.head? != some '#' && !(lineKey line).isEmpty &&
      !tnConfigKeyKnown (tnStrCopyClean (lineKey line) 32))

/-- The foreign lines are those a rewrite carries over, but for the short ones without `=`. -/
theorem foreignLine_eq (line : List Char) : foreignLine line =
    (keepLine line && (decide (lineMax < line.length) || line.contains '=')) := by
  rw [foreignLine, keepLine]
  cases decide (lineMax < line.length) <;> cases line.contains '=' <;> simp

/-- The foreign lines of a file. -/
def foreignLines (s : List Char) : List (List Char) := (textLines s).filter foreignLine

/-- The lines of the program's own text are not kept. -/
theorem keepLine_configLines {p : TnPrefs} (hp : p.Valid) {l : List Char}
    (hl : l ∈ configLines p) : keepLine l = false := by
  rw [configLines, List.mem_cons, List.mem_map] at hl
  rcases hl with rfl | ⟨k, -, rfl⟩
  · decide
  · have hlen := length_cfgLine_le (fun _ => hp k)
    have hc : ∀ c ∈ cfgName k, decide (c ≠ '=') = true :=
      fun c hc => decide_eq_true ((cfgName_ok k).2.2 c hc).2.1
    have hknown : tnConfigKeyKnown (tnStrCopyClean (cfgName k) 32) = true := by
      cases k <;> rfl
    have hkey : tnStrCopyClean (lineKey (cfgLine k (p.get k))) 32
        = tnStrCopyClean (cfgName k) 32 := by
      rw [tnStrCopyClean_lineKey, cfgLine, List.takeWhile_append_of_pos hc,
        List.takeWhile_cons_of_neg (by simp), List.append_nil]
    rw [keepLine, hkey, hknown]
    simp only [Bool.not_true, Bool.and_false, Bool.or_false, decide_eq_false_iff_not, not_lt]
    exact Nat.le_trans hlen (by decide)

/-- The most characters that the text of a value takes. -/
def textMax : CfgKey → Nat
  | .device | .hostname | .log => 63
  | .ip | .netmask | .gateway | .dns2 | .dns => 19
  | .unit | .mtu => 10
  | .dnsPort => 5
  | .dhcp | .stats | .autoip | .mdns => 3
  | .debug | .txQueue | .dnsPending | .version => 1
  | .dnsRetries => 2
  | .priority | .loglevel => 4
  | .selectors => 3
  | .databaseOrder => 39
  | .syslog => 47
  | .s2events => 63
  | .font => 23
  | .diag => 0

theorem length_cfgText_le {k : CfgKey} {v : k.Val} (h : ValidAt k v) :
    (cfgText k v).length ≤ textMax k := by
  have hlong : ∀ n : Int, -128 ≤ n → n ≤ 127 → (longText n).length ≤ 4 := by
    intro n hlo hhi
    unfold longText toUlong
    split
    · have := @length_ulongText_le (-n % 2 ^ 32).toNat 2 (by omega)
      rw [List.length_cons]
      omega
    · have := @length_ulongText_le (n % 2 ^ 32).toNat 2 (by omega)
      omega
  have hclean : ∀ {n : Nat} {s : List Char}, Clean (n + 1) s → s.length ≤ n := fun hc =>
    Nat.le_of_lt_succ hc.len
  cases k
  case device | hostname | log | ip | netmask | gateway | dns2 | dns => exact hclean h
  case databaseOrder | syslog | font => exact hclean h.1
  case unit | mtu => exact length_ulongText_le (Nat.lt_trans h (by decide))
  case dnsPort => exact length_ulongText_le (Nat.lt_of_le_of_lt h (by decide))
  case debug | txQueue | dnsPending => exact length_ulongText_le (Nat.lt_of_le_of_lt h (by decide))
  case dnsRetries => exact length_ulongText_le (Nat.lt_of_le_of_lt h (by decide))
  case selectors => exact length_ulongText_le (Nat.lt_of_le_of_lt h (by decide))
  case priority => exact hlong _ h.1 h.2
  case loglevel =>
    exact hlong _ (Int.le_trans (by decide) h.1) (Int.le_trans h.2 (by decide))
  case s2events => exact hclean (clean_s2eventsPipes h).1
  case dhcp | stats =>
    simp only [cfgText]
    split <;> decide
  case autoip | mdns => exact Nat.le_refl 3
  case version => exact Nat.le_refl 1
  case diag => exact Nat.le_refl 0

/-- The text of valid preferences fits its buffer. -/
theorem length_configText_lt {p : TnPrefs} (hp : p.Valid) :
    (configText p).length < configTextMax := by
  have hset : ∀ k, (settingText p k).length ≤ (cfgName k).length + textMax k + 2 := by
    intro k
    have := length_cfgText_le (hp k)
    unfold settingText cfgLine
    split
    · simp only [List.length_append, List.length_cons, List.length_nil]
      omega
    · exact Nat.zero_le _
  have hsum : ∀ ks : List CfgKey, (ks.flatMap (settingText p)).length
      ≤ (ks.map fun k => (cfgName k).length + textMax k + 2).sum := by
    intro ks
    induction ks with
    | nil => exact Nat.le_refl 0
    | cons k ks ih =>
      have := hset k
      rw [List.flatMap_cons, List.length_append, List.map_cons, List.sum_cons]
      omega
  have hmax : "# tolunnet configuration file\n".toList.length
      + (cfgOrder.map fun k => (cfgName k).length + textMax k + 2).sum < configTextMax := by
    decide +kernel
  have := hsum cfgOrder
  rw [configText_eq, List.length_append]
  omega

section
variable {p : TnPrefs} (hp : p.Valid)
include hp

/-- The lines of a saved file. -/
theorem textLines_saved {kept : List (List Char)} (hkept : ∀ l ∈ kept, '\n' ∉ l) :
    textLines (configText p ++ Lines.unlines '\n' kept) = configLines p ++ kept := by
  rw [textLines, configText, Lines.lines_unlines_append
    (fun l hl => not_newline_mem_configLines (fun k _ => hp k) hl), Lines.lines_unlines hkept]

/-- A text behind the program's own: only what stands there is kept. -/
theorem keptLines_configText_append (s : List Char) :
    keptLines (configText p ++ s) = keptLines s := by
  have hlines : textLines (configText p ++ s) = configLines p ++ textLines s :=
    Lines.lines_unlines_append
      (fun l hl => not_newline_mem_configLines (fun k _ => hp k) hl) s
  have hnone : (configLines p).filter keepLine = [] :=
    List.filter_eq_nil_iff.mpr fun l hl => by simp [keepLine_configLines hp hl]
  rw [keptLines, hlines, List.filter_append, hnone, List.nil_append, keptLines]

/-- The foreign lines of a saved file are those of the text it was merged with. -/
theorem foreignLines_saved (x : List Char) :
    foreignLines (configText p ++ Lines.unlines '\n' (keptLines x)) = foreignLines x := by
  have hnl : ∀ l ∈ keptLines x, '\n' ∉ l := fun l hl =>
    Lines.not_mem_of_mem_lines (List.mem_of_mem_filter hl)
  have hnone : (configLines p).filter foreignLine = [] :=
    List.filter_eq_nil_iff.mpr fun l hl => by simp [foreignLine_eq, keepLine_configLines hp hl]
  rw [foreignLines, textLines_saved hp hnl, List.filter_append, hnone, List.nil_append, keptLines,
    List.filter_filter, foreignLines]
  congr 1
  funext l
  simp [foreignLine_eq, Bool.and_comm, Bool.and_left_comm]

/-- There is no NUL in a saved file. -/
theorem nul_not_mem_saved {x : List Char} (hx : '\x00' ∉ x) :
    '\x00' ∉ configText p ++ Lines.unlines '\n' (keptLines x) := by
  have hlines : ∀ ls : List (List Char), (∀ l ∈ ls, '\x00' ∉ l) → '\x00' ∉ Lines.unlines '\n' ls := by
    intro ls hls hmem
    obtain ⟨l, hl, hmem⟩ := List.mem_flatMap.mp hmem
    rcases List.mem_append.mp hmem with hmem | hmem
    · exact hls l hl hmem
    · revert hmem
      decide
  rw [List.mem_append, not_or]
  refine ⟨hlines _ fun l hl => ?_, hlines _ fun l hl hmem =>
    hx (Lines.mem_of_mem_lines (List.mem_of_mem_filter hl) hmem)⟩
  rw [configLines, List.mem_cons, List.mem_map] at hl
  rcases hl with rfl | ⟨k, -, rfl⟩
  · decide
  · intro hmem
    have hstr := (@cfgLine_chars k (p.get k) fun _ => hp k).2
    rw [← hstr] at hmem
    exact absurd (List.mem_takeWhile_imp hmem) (by simp)

/-- A saved file that the next save reads whole, or but for the last line end. -/
theorem keptLines_take_of_le {x : List Char}
    (hlen : (configText p ++ Lines.unlines '\n' (keptLines x)).length ≤ 1024) :
    keptLines ((configText p ++ Lines.unlines '\n' (keptLines x)).take 1023) = keptLines x := by
  have hnl : ∀ l ∈ configLines p ++ keptLines x, '\n' ∉ l := fun l hl => by
    rcases List.mem_append.mp hl with hl | hl
    · exact not_newline_mem_configLines (fun k _ => hp k) hl
    · exact Lines.not_mem_of_mem_lines (List.mem_of_mem_filter hl)
  have hne : ∀ l ∈ configLines p ++ keptLines x, l ≠ [] := fun l hl => by
    rcases List.mem_append.mp hl with hl | hl
    · rw [configLines, List.mem_cons, List.mem_map] at hl
      rcases hl with rfl | ⟨k, -, rfl⟩
      · decide
      · simp [cfgLine]
    · rintro rfl
      exact absurd (List.of_mem_filter hl) (by decide)
  have hnew : configText p ++ Lines.unlines '\n' (keptLines x)
      = Lines.unlines '\n' (configLines p ++ keptLines x) := (Lines.unlines_append ..).symm
  have hlines : textLines ((configText p ++ Lines.unlines '\n' (keptLines x)).take 1023)
      = configLines p ++ keptLines x := by
    rw [hnew] at hlen ⊢
    by_cases hfit : (Lines.unlines '\n' (configLines p ++ keptLines x)).length ≤ 1023
    · rw [List.take_of_length_le hfit]
      exact Lines.lines_unlines hnl
    · have hdrop := List.dropLast_eq_take (l := Lines.unlines '\n' (configLines p ++ keptLines x))
      rw [show (Lines.unlines '\n' (configLines p ++ keptLines x)).length - 1 = 1023 by omega]
        at hdrop
      rw [← hdrop]
      exact Lines.lines_dropLast_unlines hnl hne
  have hnone : (configLines p).filter keepLine = [] :=
    List.filter_eq_nil_iff.mpr fun l hl => by simp [keepLine_configLines hp hl]
  rw [keptLines, hlines, List.filter_append, hnone, List.nil_append, keptLines, List.filter_filter]
  simp

/-- A saved file that is longer: the next one is not. -/
theorem length_saved_take_le (x : List Char) :
    (configText p ++ Lines.unlines '\n'
      (keptLines ((configText p ++ x).take 1023))).length ≤ 1024 := by
  have hfit := length_configText_lt hp
  have hmax : configTextMax ≤ 1023 := by decide
  have htake : (configText p ++ x).take 1023
      = configText p ++ x.take (1023 - (configText p).length) := by
    rw [List.take_append, List.take_of_length_le (by omega)]
  have h1 := @Lines.length_unlines_filter_le Char '\n' keepLine
    (textLines (x.take (1023 - (configText p).length)))
  have h2 := @Lines.length_unlines_lines_le Char _ '\n' (x.take (1023 - (configText p).length))
  have h3 := List.length_take_le (1023 - (configText p).length) x
  rw [htake, keptLines_configText_append hp, List.length_append]
  simp only [keptLines, textLines] at h1 h2 ⊢
  omega

end

/-! ## Saves -/

/-- Whether the answers let a save read the old file. -/
def Readable (answers : List DosAnswer) : Prop :=
  (answers.headD {}).ok = true ∧ (answers.tail.headD {}).ok = true

instance (answers : List DosAnswer) : Decidable (Readable answers) :=
  inferInstanceAs (Decidable (_ ∧ _))

/-- What a save sees of the old file. -/
def seenPart (answers : List DosAnswer) (old : List Char) : List Char :=
  if Readable answers then cString (old.take 1023) else []

theorem readPrev_prev {s : DosState} {old : List Char} (h : s.disk .path = some old) :
    (readPrev s).2 = seenPart s.answers old := by
  unfold readPrev
  simp only [h]
  by_cases h1 : s.ask.ok = true
  · by_cases h2 : s.asked.ask.ok = true
    · have hr : Readable s.answers := ⟨h1, h2⟩
      simp only [h1, h2, if_true, seenPart, if_pos hr]
    · have hr : ¬ Readable s.answers := fun hc => h2 hc.2
      simp only [h1, if_true, if_neg h2, seenPart, if_neg hr]
  · have hr : ¬ Readable s.answers := fun hc => h1 hc.1
    simp only [if_neg h1, seenPart, if_neg hr]

theorem nul_not_mem_seenPart (answers : List DosAnswer) (old : List Char) :
    '\x00' ∉ seenPart answers old := by
  unfold seenPart
  split
  · exact fun h => absurd (List.mem_takeWhile_imp h) (by simp)
  · exact List.not_mem_nil

theorem length_seenPart_le (answers : List DosAnswer) (old : List Char) :
    (seenPart answers old).length ≤ 1023 := by
  unfold seenPart
  split
  · have h1 := List.length_take_le 1023 old
    have h2 := (List.takeWhile_prefix (l := old.take 1023) (· ≠ '\x00')).length_le
    unfold cString
    omega
  · exact Nat.zero_le _

/-- Nothing that a save sees is too much for the merge. -/
theorem tnConfigMergePreserve_seenPart {p : TnPrefs} (hp : p.Valid) (answers : List DosAnswer)
    (old : List Char) :
    tnConfigMergePreserve (configText p) (seenPart answers old) mergedSize
      = some (configText p ++ Lines.unlines '\n' (keptLines (seenPart answers old))) := by
  have hfit := length_configText_lt hp
  have hmax : configTextMax + 1025 < mergedSize := by decide
  have h1 := @Lines.length_unlines_filter_le Char '\n' keepLine (textLines (seenPart answers old))
  have h2 := @Lines.length_unlines_lines_le Char _ '\n' (seenPart answers old)
  have h3 := length_seenPart_le answers old
  rw [tnConfigMergePreserve_eq _ (getLast?_configText p) (by omega), if_pos]
  right
  simp only [keptLines, textLines] at h1 h2 ⊢
  omega

/-- What a successful save puts at the path. -/
theorem path_of_saved {p : TnPrefs} (hp : p.Valid) {s : DosState} {old : List Char}
    (hold : s.disk .path = some old) (hok : (tnPrefsWriteOne s (configText p)).2 = true) :
    (tnPrefsWriteOne s (configText p)).1.disk .path
      = some (configText p ++ Lines.unlines '\n' (keptLines (seenPart s.answers old))) := by
  have hm := tnConfigMergePreserve_seenPart hp s.answers old
  rcases tnPrefsWriteOne_cases s (configText p) with
    ⟨-, hr⟩ | ⟨-, hno, -⟩ | ⟨-, hno, -⟩ | ⟨s1, merged, hm', -, -, -, htmp, hr⟩
  · rw [hr] at hok
    cases hok
  · rw [hno] at hok
    cases hok
  · rw [hno] at hok
    cases hok
  · rw [readPrev_prev hold, hm] at hm'
    rw [hr] at hok ⊢
    rw [(tnSafeReplace_spec htmp).1.saved hok, hm']

/-- A failed save leaves the target as it was, or in `.bak` when it could not be moved back. -/
theorem path_of_failed (s : DosState) (text : List Char)
    (h : (tnPrefsWriteOne s text).2 = false) :
    (tnPrefsWriteOne s text).1.disk .path = s.disk .path ∨
      ((tnPrefsWriteOne s text).1.disk .path = none ∧
        (tnPrefsWriteOne s text).1.disk .bak = s.disk .path) := by
  rcases tnPrefsWriteOne_cases s text with
    ⟨-, hr⟩ | ⟨-, -, hdisk, -⟩ | ⟨-, -, honly⟩ | ⟨s1, merged, -, -, -, honly, htmp, hr⟩
  · rw [hr, (readPrev_spec s).1]
    exact Or.inl rfl
  · rw [hdisk]
    exact Or.inl rfl
  · exact Or.inl (honly.disk .path (by decide))
  · rw [hr] at h ⊢
    have hp := honly.disk .path (by decide)
    have hspec := (tnSafeReplace_spec htmp).1.failed h
    rw [hp] at hspec
    exact hspec.imp_right fun hb => ⟨hb.1, hb.2.1⟩

/-- Saves of one text, one after the other, each with the answers that it gets. -/
def tnPrefsWrites (text : List Char) :
    Disk (List Char) → List (List DosAnswer) → List (DosState × Bool)
  | _, [] => []
  | d, a :: as =>
    let r := tnPrefsWriteOne { disk := d, answers := a } text
    r :: tnPrefsWrites text r.1.disk as

/-- What the next save makes of a saved file. -/
theorem saved_again_iff {p : TnPrefs} (hp : p.Valid) {x : List Char} (hx : '\x00' ∉ x)
    (answers : List DosAnswer) :
    configText p ++ Lines.unlines '\n' (keptLines (seenPart answers
        (configText p ++ Lines.unlines '\n' (keptLines x))))
      = configText p ++ Lines.unlines '\n' (keptLines x) ↔
    keptLines x = [] ∨ (Readable answers ∧
      (configText p).length + (Lines.unlines '\n' (keptLines x)).length ≤ 1024) := by
  have hfit := length_configText_lt hp
  have hmax : configTextMax ≤ 1023 := by decide
  have hstr : ∀ n, cString ((configText p ++ Lines.unlines '\n' (keptLines x)).take n)
      = (configText p ++ Lines.unlines '\n' (keptLines x)).take n := fun n =>
    List.takeWhile_eq_self_iff.mpr fun c hc => decide_eq_true fun he =>
      nul_not_mem_saved hp hx (he ▸ List.mem_of_mem_take hc)
  have hunl : ∀ ls : List (List Char), Lines.unlines '\n' ls = [] → ls = [] := by
    intro ls hls
    cases ls with
    | nil => rfl
    | cons l ls => simp at hls
  by_cases hr : Readable answers
  · rw [seenPart, if_pos hr, hstr]
    constructor
    · intro heq
      right
      have hle := length_saved_take_le hp (Lines.unlines '\n' (keptLines x))
      rw [heq, List.length_append] at hle
      exact ⟨hr, hle⟩
    · intro hcond
      rw [keptLines_take_of_le hp]
      rw [List.length_append]
      rcases hcond with hnil | ⟨-, hle⟩
      · rw [hnil, Lines.unlines_nil, List.length_nil]
        omega
      · exact hle
  · rw [seenPart, if_neg hr]
    constructor
    · intro heq
      left
      exact hunl _ (List.append_cancel_left heq).symm
    · rintro (hnil | ⟨hr', -⟩)
      · rw [hnil]
        rfl
      · exact absurd hr' hr

/-- Successful saves, one after the other, keep the foreign lines of the old file and do not
change the file again if and only if the first one sees all of them, and what it writes is read
whole by the others. A save that fails leaves the target alone. -/
theorem tnPrefsWrites_keeps_iff (p : TnPrefs) (hp : p.Valid) (text : List Char)
    (ht : tnConfigFormat p configTextMax = some text) (d : Disk (List Char)) (old : List Char)
    (hold : d .path = some old) (a : List DosAnswer) (more : List (List DosAnswer))
    (hok : ∀ r ∈ tnPrefsWrites text d (a :: more), r.2 = true) :
    ((∃ new, foreignLines new = foreignLines old ∧
        ∀ r ∈ tnPrefsWrites text d (a :: more), r.1.disk .path = some new) ↔
      foreignLines (seenPart a old) = foreignLines old ∧
      (more = [] ∨ keptLines (seenPart a old) = [] ∨
        ((∀ b ∈ more, Readable b) ∧
          text.length + (Lines.unlines '\n' (keptLines (seenPart a old))).length ≤ 1024))) ∧
    ∀ s : DosState, (tnPrefsWriteOne s text).2 = false →
      (tnPrefsWriteOne s text).1.disk .path = s.disk .path ∨
        ((tnPrefsWriteOne s text).1.disk .path = none ∧
          (tnPrefsWriteOne s text).1.disk .bak = s.disk .path) := by
  refine ⟨?_, fun s h => path_of_failed s text h⟩
  obtain ⟨rfl, -⟩ := eq_configText (hp .s2events) ht
  have hx := nul_not_mem_seenPart a old
  have hfirst := path_of_saved hp (s := { disk := d, answers := a }) hold
    (hok _ (List.mem_cons_self ..))
  -- the saves behind the first leave the file alone if and only if each of them does
  have hmore : ∀ (as : List (List DosAnswer)) (d' : Disk (List Char)),
      d' .path = some (configText p ++ Lines.unlines '\n' (keptLines (seenPart a old))) →
      (∀ r ∈ tnPrefsWrites (configText p) d' as, r.2 = true) →
      ((∀ r ∈ tnPrefsWrites (configText p) d' as, r.1.disk .path
          = some (configText p ++ Lines.unlines '\n' (keptLines (seenPart a old)))) ↔
        ∀ b ∈ as, keptLines (seenPart a old) = [] ∨ (Readable b ∧
          (configText p).length + (Lines.unlines '\n' (keptLines (seenPart a old))).length
            ≤ 1024)) := by
    intro as
    induction as with
    | nil => exact fun d' _ _ => ⟨fun _ b hb => (nomatch hb), fun _ r hr => (nomatch hr)⟩
    | cons b as ih =>
      intro d' hd' hok'
      have hnext := path_of_saved hp (s := { disk := d', answers := b }) hd'
        (hok' _ (List.mem_cons_self ..))
      have hstep := saved_again_iff hp hx b
      simp only [tnPrefsWrites, List.forall_mem_cons] at hok' ⊢
      rw [hnext, Option.some.injEq, hstep]
      refine and_congr_right fun hb => ih _ ?_ hok'.2
      rw [hnext, hstep.mpr hb]
  have hrest := hmore more _ hfirst fun r hr => hok r (List.mem_cons_of_mem _ hr)
  constructor
  · rintro ⟨new, hnew, hall⟩
    simp only [tnPrefsWrites, List.forall_mem_cons] at hall
    have heq := Option.some.inj (hfirst.symm.trans hall.1)
    subst heq
    rw [foreignLines_saved hp] at hnew
    refine ⟨hnew, ?_⟩
    have hb := hrest.mp hall.2
    by_cases hmore' : more = []
    · exact Or.inl hmore'
    · right
      by_cases hkept : keptLines (seenPart a old) = []
      · exact Or.inl hkept
      · right
        obtain ⟨b, hbm⟩ := List.exists_mem_of_ne_nil more hmore'
        exact ⟨fun b hb' => ((hb b hb').resolve_left hkept).1, ((hb b hbm).resolve_left hkept).2⟩
  · rintro ⟨hforeign, hcond⟩
    refine ⟨_, (foreignLines_saved hp _).trans hforeign, ?_⟩
    simp only [tnPrefsWrites, List.forall_mem_cons]
    refine ⟨hfirst, hrest.mpr fun b hb => ?_⟩
    rcases hcond with rfl | hkept | ⟨hread, hlen⟩
    · cases hb
    · exact Or.inl hkept
    · exact Or.inr ⟨hread b hb, hlen⟩

/-- Three saves over a file with a foreign line: all of them keep it. -/
theorem tnPrefsWrites_keeps_foo :
    ∃ text, tnConfigFormat (tnPrefsDefault {}) configTextMax = some text ∧
      ∃ new, foreignLines new = ["FOO=1".toList] ∧
        ∀ r ∈ tnPrefsWrites text (fun n => if n = .path then some "FOO=1\n".toList else none)
            [[], [], []], r.1.disk .path = some new := by
  have hvalid : (tnPrefsDefault {}).Valid := valid_tnPrefsDefault (by decide) (by decide)
  have ht := tnConfigFormat_of_fits (hvalid .s2events) (length_configText_lt hvalid)
  have h := (tnPrefsWrites_keeps_iff _ hvalid _ ht
    (fun n => if n = .path then some "FOO=1\n".toList else none) "FOO=1\n".toList rfl [] [[], []]
    (by decide +kernel)).1.mpr (by decide +kernel)
  exact ⟨_, ht, h⟩

/-- A file that begins with 1040 bytes of comments: the foreign line behind them is lost. -/
theorem not_forall_tnPrefsWrites_keeps :
    ¬ ∀ (p : TnPrefs) (text old : List Char), p.Valid →
      tnConfigFormat p configTextMax = some text → old.length < mergedSize →
      (tnPrefsWriteOne { disk := fun n => if n = .path then some old else none } text).2 = true →
      ∃ new, (tnPrefsWriteOne { disk := fun n => if n = .path then some old else none }
          text).1.disk .path = some new ∧ foreignLines new = foreignLines old := by
  intro h
  have hvalid : (tnPrefsDefault {}).Valid := valid_tnPrefsDefault (by decide) (by decide)
  have ht := tnConfigFormat_of_fits (hvalid .s2events) (length_configText_lt hvalid)
  obtain ⟨new, hnew, hforeign⟩ := h _ _
    ((List.replicate 520 "#\n".toList).flatten ++ "FOO=1\n".toList) hvalid ht (by decide +kernel)
    (by decide +kernel)
  rw [path_of_saved hvalid rfl (by decide +kernel)] at hnew
  rw [← Option.some.inj hnew, foreignLines_saved hvalid] at hforeign
  revert hforeign
  decide +kernel

end Tolunnet
