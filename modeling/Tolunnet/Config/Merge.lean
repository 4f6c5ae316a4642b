import Tolunnet.Config.RoundTrip

/-!
# `Tolunnet.Config.Merge`: what a rewrite carries over, and what the reader makes of it

`tn_config_merge_preserve` appends the kept lines of the old text to the new one
(`tnConfigMergePreserve_eq`). A kept line of at most 127 characters has a key that the parser does
not know, so the reader skips it (`chunkKey_of_kept`). A longer line is kept whatever its key is,
and the reader takes it apart into pieces of 127 characters: the values that it sees there are the
only ones that can stand against the new text (`tnPrefsReadFile_merge_iff`).
-/

set_option autoImplicit false

namespace Tolunnet

/-! ## The merged text -/

/-- Appending kept lines to a text that ends in a line end. -/
theorem foldlM_mergeLine (bufSize : Nat) (ls : List (List Char)) {buf : List Char}
    (hbuf : buf.getLast? = some '\n') :
    ls.foldlM (mergeLine bufSize) buf
      = if ls = [] ∨ buf.length + (Lines.unlines '\n' ls).length + 1 ≤ bufSize - 1 then
          some (buf ++ Lines.unlines '\n' ls)
        else none := by
  induction ls generalizing buf with
  | nil => simp
  | cons l ls ih =>
    have hne : ¬ (buf ≠ [] ∧ buf.getLast? ≠ some '\n') := fun h => h.2 hbuf
    have hlast : (buf ++ l ++ ['\n']).getLast? = some '\n' := List.getLast?_concat
    rw [List.foldlM_cons, mergeLine]
    simp only [if_neg hne]
    by_cases hfull : bufSize - 1 < buf.length + l.length + 2
    · rw [if_pos hfull, if_neg]
      · rfl
      · simp only [Lines.unlines_cons, List.length_append, List.length_cons]
        rintro (h | h)
        · cases h
        · omega
    · rw [if_neg hfull]
      show ls.foldlM (mergeLine bufSize) (buf ++ l ++ ['\n']) = _
      rw [ih hlast]
      have hlen : (buf ++ l ++ ['\n']).length + (Lines.unlines '\n' ls).length + 1
          = buf.length + (Lines.unlines '\n' (l :: ls)).length + 1 := by
        simp only [Lines.unlines_cons, List.length_append, List.length_cons, List.length_nil]
        omega
      have htext : buf ++ l ++ ['\n'] ++ Lines.unlines '\n' ls
          = buf ++ Lines.unlines '\n' (l :: ls) := by
        simp
      rw [hlen, htext]
      refine if_congr ⟨?_, ?_⟩ rfl rfl
      · rintro (rfl | h)
        · right
          simp only [Lines.unlines_cons, Lines.unlines_nil, List.length_append, List.length_cons,
            List.length_nil]
          omega
        · exact Or.inr h
      · rintro (h | h)
        · cases h
        · exact Or.inr h

/-- The merged text: the new one, and the kept lines of the old one. -/
theorem tnConfigMergePreserve_eq {text : List Char} (old : List Char) {bufSize : Nat}
    (hend : text.getLast? = some '\n') (hfit : text.length < bufSize) :
    tnConfigMergePreserve text old bufSize
      = if keptLines old = [] ∨
            text.length + (Lines.unlines '\n' (keptLines old)).length + 1 ≤ bufSize - 1 then
          some (text ++ Lines.unlines '\n' (keptLines old))
        else none := by
  rw [tnConfigMergePreserve, if_neg (by omega), List.take_of_length_le (by omega),
    foldlM_mergeLine _ _ hend]

theorem getLast?_configText (p : TnPrefs) : (configText p).getLast? = some '\n' :=
  Lines.getLast?_unlines '\n' (List.cons_ne_nil _ _)

/-! ## What the reader makes of kept lines -/

/-- Keys that the merge does not know are not known to the parser either. -/
theorem cfgKey?_of_not_known {key : List Char} (h : tnConfigKeyKnown key = false) :
    cfgKey? key = none := by
  have hnames : ∀ e ∈ cfgNames, e.1 ∈ gCfgKeys ∧ e.1 ≠ [] := by decide
  rw [cfgKey?, Option.map_eq_none_iff, List.find?_eq_none]
  intro e he heq
  obtain ⟨hmem, hne⟩ := hnames e he
  rw [tnConfigKeyKnown, Bool.and_eq_false_iff] at h
  rcases h with h | h
  · have hnil : key = [] := by simpa using h
    subst hnil
    have hlen := congrArg List.length (eq_of_beq heq)
    rw [List.length_map, List.length_map] at hlen
    exact hne (List.length_eq_zero_iff.mp hlen.symm)
  · exact absurd heq (by simpa using List.any_eq_false.mp h e.1 hmem)

/-- The key that the merge looks at is the one that the reader looks at. -/
theorem tnStrCopyClean_lineKey (line : List Char) :
    tnStrCopyClean (lineKey line) 32 = tnStrCopyClean (line.takeWhile (· ≠ '=')) 32 := by
  unfold tnStrCopyClean lineKey
  rw [← List.take_takeWhile, ← List.take_takeWhile, List.take_take, Nat.min_self]

/-- A short line that is kept has a key that the reader does not know. -/
theorem chunkKey_of_kept {line : List Char} (hnul : '\x00' ∉ line) (hlen : line.length ≤ lineMax)
    (h : keepLine line = true) : chunkKey line = none := by
  have hstr : cString line = line :=
    List.takeWhile_eq_self_iff.mpr fun c hc => decide_eq_true fun he => hnul (he ▸ hc)
  rw [keepLine, Bool.or_eq_true, decide_eq_true_eq] at h
  rcases h with h | h
  · omega
  · simp only [Bool.and_eq_true, Bool.not_eq_true'] at h
    unfold chunkKey
    rw [hstr, ← tnStrCopyClean_lineKey, cfgKey?_of_not_known h.2, ite_self]

/-- The lines that are kept for their length. -/
def longLines (s : List Char) : List (List Char) :=
  (textLines s).filter fun line => decide (lineMax < line.length)

/-- Of the kept lines only the long ones set something. -/
theorem lastValue_keptLines (k : CfgKey) {old : List Char} (hnul : '\x00' ∉ old) :
    lastValue k (linePieces (keptLines old)) = lastValue k (linePieces (longLines old)) := by
  have hmain : ∀ ls : List (List Char), (∀ l ∈ ls, '\n' ∉ l ∧ '\x00' ∉ l) →
      lastValue k (linePieces (ls.filter keepLine)) =
        lastValue k (linePieces (ls.filter fun line => decide (lineMax < line.length))) := by
    intro ls hls
    induction ls with
    | nil => rfl
    | cons l ls ih =>
      have ih := ih fun l hl => hls l (List.mem_cons_of_mem _ hl)
      obtain ⟨hnl, hz⟩ := hls l (List.mem_cons_self ..)
      rw [List.filter_cons, List.filter_cons]
      by_cases hlong : lineMax < l.length
      · have hkeep : keepLine l = true := by simp [keepLine, hlong]
        rw [if_pos hkeep, if_pos (decide_eq_true hlong)]
        simp only [linePieces, List.flatMap_cons, lastValue_append] at ih ⊢
        rw [ih]
      · rw [if_neg (show ¬ decide (lineMax < l.length) = true by simpa using hlong), ← ih]
        split
        · rename_i hkeep
          -- a short line is one piece, or none when it is empty
          have hpiece : lastValue k (fgetsChunks l) = none := by
            cases l with
            | nil => rfl
            | cons c l =>
              have hkey := chunkKey_of_kept hz (by omega) hkeep
              rw [fgetsChunks, Lines.fgets_short hnl (by omega) (List.cons_ne_nil _ _),
                lastValue_cons, chunkValue, hkey]
              rfl
          simp only [linePieces, List.flatMap_cons, lastValue_append] at ih ⊢
          rw [hpiece, Option.or_none]
        · rfl
  refine hmain _ fun l hl => ⟨Lines.not_mem_of_mem_lines hl, fun hz => hnul ?_⟩
  exact Lines.mem_of_mem_lines hl hz

/-! ## The rewrite is effective -/

/-- Preferences whose settings are all valid. -/
def TnPrefs.Valid (p : TnPrefs) : Prop := ∀ k : CfgKey, ValidAt k (p.get k)

theorem valid_tnPrefsDefault {m : TnPrefs} (h : m.dnsPendingMax ≤ dnsPendingMax)
    (h' : m.dnsRetries ≤ 16) : (tnPrefsDefault m).Valid := fun k => by
  by_cases hk : k.Defaulted
  · exact validAt_tnPrefsDefault hk m
  · cases k
    case dnsPending => exact h
    case dnsRetries => exact h'
    all_goals exact absurd (by decide) hk

theorem TnPrefs.Valid.put {p : TnPrefs} (hp : p.Valid) {k : CfgKey} {v : k.Val}
    (hv : ValidAt k v) : (p.put k v).Valid := fun k' => by
  by_cases he : k' = k
  · subst he
    rwa [TnPrefs.get_put]
  · rw [TnPrefs.get_put_of_ne _ _ _ _ he]
    exact hp k'

/-- What is read back of a setting that is written. -/
theorem writtenValue_getD_of_written {p : TnPrefs} (hp : p.Valid) {k : CfgKey}
    (hw : cfgWritten k (p.get k) = true) (m : TnPrefs) :
    (writtenValue p k).getD ((tnPrefsDefault m).get k) = p.get k := by
  rw [writtenValue, if_pos hw]
  rcases cfgValue_cfgText (hp k) hw m with hv | ⟨hv, heq⟩
  · rw [hv]
    rfl
  · rw [hv, heq]
    rfl

/-- A text for preferences is not taken for the image of a structure. -/
theorem tnPrefsReadFile_configText (junk : Junk) (q p : TnPrefs) (s : List Char) :
    (tnPrefsReadFile junk q (configText p ++ s)).1 = readText q (configText p ++ s) := by
  have htext : configText p ++ s = '#' :: ' ' :: ("tolunnet configuration file\n".toList
      ++ cfgOrder.flatMap (settingText p) ++ s) := by
    rw [configText_eq]
    rfl
  rw [htext]
  rfl

/-- A rewrite is effective if and only if the pieces of the over-long lines of the old text do
not set a setting that is written to something else. -/
theorem tnPrefsReadFile_merge_iff (p : TnPrefs) (hp : p.Valid) (old : List Char)
    (hold : '\x00' ∉ old) (textSize bufSize : Nat) (text merged : List Char)
    (ht : tnConfigFormat p textSize = some text) (hfit : text.length < bufSize)
    (hm : tnConfigMergePreserve text old bufSize = some merged) (junk : Junk) (m : TnPrefs) :
    (∀ k, cfgWritten k (p.get k) = true →
        (tnPrefsReadFile junk (tnPrefsDefault m) merged).1.get k = p.get k) ↔
      ∀ k, cfgWritten k (p.get k) = true →
        ∀ v, lastValue k (linePieces (longLines old)) = some v → v = p.get k := by
  obtain ⟨rfl, -⟩ := eq_configText (hp .s2events) ht
  rw [tnConfigMergePreserve_eq old (getLast?_configText p) hfit] at hm
  -- what fits is the new text with the kept lines behind it
  have hmerged : merged = configText p ++ Lines.unlines '\n' (keptLines old) := by
    split at hm
    · exact (Option.some.inj hm).symm
    · cases hm
  have hkept : textLines (Lines.unlines '\n' (keptLines old)) = keptLines old :=
    Lines.lines_unlines fun l hl => Lines.not_mem_of_mem_lines (List.mem_of_mem_filter hl)
  -- a key of a kept line is read last, so it wins over the new text
  refine forall_congr' fun k => forall_congr' fun hw => ?_
  rw [hmerged, tnPrefsReadFile_configText, get_readText_configText (fun k _ => hp k), hkept,
    lastValue_keptLines k hold]
  cases hv : lastValue k (linePieces (longLines old)) with
  | none =>
    rw [Option.none_or, writtenValue_getD_of_written hp hw]
    simp
  | some v => simp

/-- A rewrite over an old file with a setting of its own. -/
theorem tnPrefsReadFile_merge_foo :
    ∃ text merged, tnConfigFormat (tnPrefsDefault {}) configTextMax = some text ∧
      tnConfigMergePreserve text "FOO=1\nIP=9.9.9.9\n".toList mergedSize = some merged ∧
      ∀ k, cfgWritten k ((tnPrefsDefault {}).get k) = true →
        (tnPrefsReadFile {} (tnPrefsDefault {}) merged).1.get k = (tnPrefsDefault {}).get k := by
  have hvalid : (tnPrefsDefault {}).Valid := valid_tnPrefsDefault (by decide) (by decide)
  have ht := tnConfigFormat_of_fits (hvalid .s2events) (show _ < configTextMax by decide +kernel)
  have hm := tnConfigMergePreserve_eq "FOO=1\nIP=9.9.9.9\n".toList
    (getLast?_configText (tnPrefsDefault {})) (show _ < mergedSize by decide +kernel)
  rw [if_pos (by decide +kernel)] at hm
  exact ⟨_, _, ht, hm, (tnPrefsReadFile_merge_iff _ hvalid _ (by decide) _ _ _ _ ht
    (by decide +kernel) hm {} {}).mpr fun k _ v hv => by cases hv⟩

/-- An old line `IP=9.9.9.9` with 200 blanks behind it outlives the rewrite and wins. -/
theorem not_forall_tnPrefsReadFile_merge :
    ¬ ∀ (p : TnPrefs) (old text merged : List Char), p.Valid → '\x00' ∉ old →
      tnConfigFormat p configTextMax = some text →
      tnConfigMergePreserve text old mergedSize = some merged →
      ∀ k, cfgWritten k (p.get k) = true →
        (tnPrefsReadFile {} (tnPrefsDefault {}) merged).1.get k = p.get k := by
  intro h
  have hvalid : ((tnPrefsDefault {}).put .ip "10.0.2.15".toList).Valid :=
    (valid_tnPrefsDefault (by decide) (by decide)).put
      (show Clean 20 "10.0.2.15".toList from .of_all (by decide) (by decide))
  have ht := tnConfigFormat_of_fits (hvalid .s2events) (show _ < configTextMax by decide +kernel)
  have hm := tnConfigMergePreserve_eq ("IP=9.9.9.9".toList ++ List.replicate 200 ' ')
    (getLast?_configText ((tnPrefsDefault {}).put .ip "10.0.2.15".toList))
    (show _ < mergedSize by decide +kernel)
  rw [if_pos (by decide +kernel)] at hm
  have hip := h _ _ _ _ hvalid (by decide +kernel) ht hm .ip rfl
  revert hip
  decide +kernel

end Tolunnet
