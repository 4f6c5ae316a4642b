import Tolunnet.Lib.Pieces
import Tolunnet.Setup.StackDetect

/-!
# `Tolunnet.Setup.StackScan`: the search for other stacks in a startup script

`scan_script_file` of `stack_detect.c` reads a script into a buffer of 1023 bytes, again and again, and
looks for four keywords in the buffer alone. Nothing of a buffer is kept for the next one, so a keyword
that begins in one and ends in another is not found. `Reading` is a way in which `Read` hands out a
file; `scanScriptFile_iff` says for which readings the answer is right.
-/

set_option autoImplicit false

namespace Tolunnet

namespace Stack

open Pieces

/-! ## The search -/

/-- The inner loop of `case_slice_contains`, on what stands from `i` on. -/
def sliceMatches : List Char → List Char → Bool
  | _, [] => true
  | [], _ :: _ => false
  | h :: haystack, n :: needle =>
    if h.toLower ≠ n.toLower then false else sliceMatches haystack needle

/-- The outer loop, with the turns that are left. -/
def sliceLoop (needle : List Char) : Nat → List Char → Bool
  | 0, _ => false
  | turns + 1, haystack =>
    if sliceMatches haystack needle then true else sliceLoop needle turns haystack.tail

/-- `case_slice_contains`. -/
def caseSliceContains (haystack needle : List Char) : Bool :=
  if needle.length > haystack.length then false
  else sliceLoop needle (haystack.length - needle.length + 1) haystack

/-- What `scan_script_file` looks for. -/
def scanKeywords : List (List Char) :=
  ["miami".toList, "amitcp".toList, "addnetinterface".toList, "genesis".toList]

/-- `sizeof(buf) - 1` -/
def scanBuf : Nat := 1023

/-- The loop of `scan_script_file` over what `Read` returns. -/
def scanLoop : List (List Char) → Bool
  | [] => false
  | buf :: bufs => if scanKeywords.any (caseSliceContains buf) then true else scanLoop bufs

/-- `scan_script_file`: the buffers that `Read` fills, when `Open` gives a file. -/
def scanScriptFile (fh : Option (List (List Char))) : Bool :=
  match fh with
  | none => false
  | some bufs => scanLoop bufs

/-! ## What a buffer is searched for -/

section
variable {haystack needle : List Char}

theorem sliceMatches_iff : sliceMatches haystack needle = true ↔
    needle.map Char.toLower <+: haystack.map Char.toLower := by
  fun_induction sliceMatches haystack needle with
  | case1 haystack => simp
  | case2 n needle => simp
  | case3 h haystack n needle hne =>
    rw [List.map_cons, List.map_cons, List.cons_prefix_cons]
    constructor
    · intro matched
      cases matched
    · rintro ⟨heq, -⟩
      exact absurd heq.symm hne
  | case4 h haystack n needle heq ih =>
    rw [List.map_cons, List.map_cons, List.cons_prefix_cons, ih]
    exact (and_iff_right (not_ne_iff.mp heq).symm).symm

/-- The loop tries the first places of the haystack. -/
theorem sliceLoop_iff (turns : Nat) : sliceLoop needle turns haystack = true ↔
    ∃ p < turns, At (needle.map Char.toLower) (haystack.map Char.toLower) p := by
  induction turns generalizing haystack with
  | zero =>
    constructor
    · intro found
      cases found
    · rintro ⟨p, hp, -⟩
      exact absurd hp (Nat.not_lt_zero p)
  | succ turns ih =>
    have hloop : sliceLoop needle (turns + 1) haystack = true ↔
        sliceMatches haystack needle = true ∨ sliceLoop needle turns haystack.tail = true := by
      rw [sliceLoop]
      cases sliceMatches haystack needle <;> simp
    rw [hloop, sliceMatches_iff, ih]
    constructor
    · rintro (here | ⟨p, hp, later⟩)
      · exact ⟨0, Nat.succ_pos turns, here⟩
      · refine ⟨p + 1, Nat.succ_lt_succ hp, ?_⟩
        rw [At, List.map_tail, List.drop_tail] at later
        exact later
    · rintro ⟨p, hp, found⟩
      cases p with
      | zero => exact Or.inl found
      | succ p =>
        refine Or.inr ⟨p, Nat.lt_of_succ_lt_succ hp, ?_⟩
        rw [At, List.map_tail, List.drop_tail]
        exact found

/-- The needle is in the slice, whatever the case of the letters. -/
theorem caseSliceContains_iff (hne : needle ≠ []) : caseSliceContains haystack needle = true ↔
    needle.map Char.toLower <:+: haystack.map Char.toLower := by
  rw [infix_iff_at]
  unfold caseSliceContains
  split
  · rename_i hlong
    constructor
    · intro found
      cases found
    · rintro ⟨p, found⟩
      have hlen := found.length_le (mt List.map_eq_nil_iff.mp hne)
      rw [List.length_map, List.length_map] at hlen
      omega
  · rw [sliceLoop_iff]
    constructor
    · rintro ⟨p, -, found⟩
      exact ⟨p, found⟩
    · rintro ⟨p, found⟩
      have hlen := found.length_le (mt List.map_eq_nil_iff.mp hne)
      rw [List.length_map, List.length_map] at hlen
      exact ⟨p, by omega, found⟩

end

/-! ## Readings of a file -/

/-- A way in which `Read` hands out a file: the buffers in order, each with 1 to 1023 bytes. -/
structure Reading (content : List Char) where
  bufs : List (List Char)
  whole : bufs.flatten = content
  sizes : ∀ buf ∈ bufs, 0 < buf.length ∧ buf.length ≤ scanBuf

/-- A keyword stands in a file at `p`, in small or capital letters. -/
def KeywordAt (content : List Char) (k : List Char) (p : Nat) : Prop :=
  k ∈ scanKeywords ∧ At k (content.map Char.toLower) p

/-- The keywords are in small letters, and none is empty. -/
theorem lower_keyword {k : List Char} (hk : k ∈ scanKeywords) : k.map Char.toLower = k ∧ k ≠ [] := by
  have hall : ∀ k ∈ scanKeywords, k.map Char.toLower = k ∧ k ≠ [] := by decide
  exact hall k hk

theorem scanLoop_iff (bufs : List (List Char)) : scanLoop bufs = true ↔
    ∃ k ∈ scanKeywords, ∃ buf ∈ bufs, k <:+: buf.map Char.toLower := by
  induction bufs with
  | nil =>
    constructor
    · intro found
      cases found
    · rintro ⟨k, -, buf, hmem, -⟩
      cases hmem
  | cons buf bufs ih =>
    have hloop : scanLoop (buf :: bufs) = true ↔
        (∃ k ∈ scanKeywords, k <:+: buf.map Char.toLower) ∨ scanLoop bufs = true := by
      have hany : scanKeywords.any (caseSliceContains buf) = true ↔
          ∃ k ∈ scanKeywords, k <:+: buf.map Char.toLower := by
        rw [List.any_eq_true]
        refine exists_congr fun k => and_congr_right fun hk => ?_
        rw [caseSliceContains_iff (lower_keyword hk).2, (lower_keyword hk).1]
      rw [scanLoop, ← hany]
      cases scanKeywords.any (caseSliceContains buf) <;> simp
    rw [hloop, ih]
    constructor
    · rintro (⟨k, hk, hin⟩ | ⟨k, hk, found, hmem, hin⟩)
      · exact ⟨k, hk, buf, List.mem_cons_self, hin⟩
      · exact ⟨k, hk, found, List.mem_cons_of_mem _ hmem, hin⟩
    · rintro ⟨k, hk, found, hmem, hin⟩
      rcases List.mem_cons.mp hmem with rfl | hmem
      · exact Or.inl ⟨k, hk, hin⟩
      · exact Or.inr ⟨k, hk, found, hmem, hin⟩

variable {content : List Char}

/-- What the scan finds: a keyword that no border between two buffers divides. -/
theorem scanScriptFile_eq_true (r : Reading content) : scanScriptFile (some r.bufs) = true ↔
    ∃ k p, KeywordAt content k p ∧ Unbroken r.bufs p k.length := by
  have hflat : (r.bufs.map (List.map Char.toLower)).flatten = content.map Char.toLower := by
    rw [← List.map_flatten, r.whole]
  show scanLoop r.bufs = true ↔ _
  rw [scanLoop_iff]
  refine exists_congr fun k => ?_
  have hpieces : k ∈ scanKeywords → ((∃ buf ∈ r.bufs, k <:+: buf.map Char.toLower) ↔
      ∃ p, At k (content.map Char.toLower) p ∧ Unbroken r.bufs p k.length) := fun hk => by
    have hiff := exists_mem_infix_iff (r.bufs.map (List.map Char.toLower)) (lower_keyword hk).2
    have hmap : (∃ buf ∈ r.bufs, k <:+: buf.map Char.toLower) ↔
        ∃ piece ∈ r.bufs.map (List.map Char.toLower), k <:+: piece := by
      simp only [List.mem_map, exists_exists_and_eq_and]
    rw [hmap, hiff, hflat]
    unfold Unbroken
    rw [borders_map]
  constructor
  · rintro ⟨hk, found⟩
    obtain ⟨p, hat, hwhole⟩ := (hpieces hk).mp found
    exact ⟨p, ⟨hk, hat⟩, hwhole⟩
  · rintro ⟨p, ⟨hk, hat⟩, hwhole⟩
    exact ⟨hk, (hpieces hk).mpr ⟨p, hat, hwhole⟩⟩

/-- The scan says whether a keyword occurs in the file if and only if none does, or one of its places
is not divided by a border between two buffers. -/
theorem scanScriptFile_iff (content : List Char) (r : Reading content) :
    (scanScriptFile (some r.bufs) = true ↔ ∃ k p, KeywordAt content k p) ↔
      (∀ k p, ¬ KeywordAt content k p) ∨
        ∃ k p, KeywordAt content k p ∧ Unbroken r.bufs p k.length := by
  rw [scanScriptFile_eq_true]
  constructor
  -- right for this file: no keyword, or one that no read cuts
  · intro right
    by_cases occurs : ∃ k p, KeywordAt content k p
    · exact Or.inr (right.mpr occurs)
    · left
      intro k p hat
      exact occurs ⟨k, p, hat⟩
  · rintro (never | ⟨k, p, hat, hwhole⟩)
    · constructor
      · rintro ⟨k, p, hat, -⟩
        exact absurd hat (never k p)
      · rintro ⟨k, p, hat⟩
        exact absurd hat (never k p)
    · exact ⟨fun _ => ⟨k, p, hat⟩, fun _ => ⟨k, p, hat, hwhole⟩⟩

/-- 1022 blanks. -/
def blanks : List Char := List.replicate 1022 ' '

theorem map_toLower_blanks : blanks.map Char.toLower = blanks := List.map_replicate

/-- `miami` behind the blanks: the first buffer ends with its first letter. -/
def dividedMiami : Reading (blanks ++ "miami".toList) where
  bufs := [blanks ++ ['m'], "iami".toList]
  whole := by
    rw [List.flatten_cons, List.append_assoc]
    rfl
  sizes := by
    intro buf hmem
    have hlen : (blanks ++ ['m']).length = 1023 := by
      rw [List.length_append, blanks, List.length_replicate]
      rfl
    rcases List.mem_cons.mp hmem with rfl | hmem
    · rw [hlen]
      decide
    · rw [List.mem_singleton.mp hmem]
      decide

/-- A script that names another stack across a border is taken for one that does not. -/
theorem not_forall_scanScriptFile : ¬ ∀ (content : List Char) (r : Reading content),
    scanScriptFile (some r.bufs) = true ↔ ∃ k p, KeywordAt content k p := by
  intro hall
  have hoccurs : KeywordAt (blanks ++ "miami".toList) "miami".toList blanks.length := by
    refine ⟨by decide, ?_⟩
    rw [At, List.map_append, map_toLower_blanks, List.drop_left]
    decide
  obtain ⟨k, hk, buf, hmem, hin⟩ :=
    (scanLoop_iff dividedMiami.bufs).mp ((hall _ dividedMiami).mpr ⟨_, _, hoccurs⟩)
  rcases List.mem_cons.mp hmem with rfl | hmem
  · -- every keyword has a letter that the first buffer does not have
    have hletter : ∀ k ∈ scanKeywords, 'i' ∈ k ∨ 'a' ∈ k := by decide
    have hbuf : ∀ c ∈ (blanks ++ ['m']).map Char.toLower, c = ' ' ∨ c = 'm' := by
      intro c hc
      rw [List.map_append, map_toLower_blanks, List.mem_append] at hc
      exact hc.imp List.eq_of_mem_replicate List.mem_singleton.mp
    rcases hletter k hk with hi | ha
    · exact absurd (hbuf 'i' (hin.subset hi)) (by decide)
    · exact absurd (hbuf 'a' (hin.subset ha)) (by decide)
  · -- and the second is too short for any
    have hlong : ∀ k ∈ scanKeywords, 5 ≤ k.length := by decide
    have hlen := hin.length_le
    rw [List.mem_singleton.mp hmem] at hlen
    exact absurd (le_trans (hlong k hk) hlen) (by decide)

end Stack

end Tolunnet
