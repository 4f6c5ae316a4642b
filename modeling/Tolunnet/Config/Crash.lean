import Tolunnet.Config.Format

/-!
# `Tolunnet.Config.Crash`: which generation a power cut leaves behind

A save works on the name `<path>_tmp` until the new text is complete and closed, and only then
moves files (`tnPrefsWriteOne_cases`). `OnlyAt n` says that some calls touched one name: as long as
there is a file at the path, recovery opens that file whatever stands beside it.

The moves of `tn_safe_replace` are described by `ReplaceSpec`: on the way there may be no file at
the path, with the complete new text in `<path>_tmp` and the old one in `<path>.bak`. Recovery
prefers `_tmp`, which is right there. It is wrong in two situations: when a save begins without a
file at the path, so that `_tmp` is the half-written new text, and when `_tmp` of a failed save
cannot be removed and there is no file at the path. A run without the two recovers the last
generation, or the one in progress (`recover_of_saves`).
-/

set_option autoImplicit false

namespace Tolunnet

/-- What recovery opens. -/
abbrev recover (d : Disk (List Char)) : Option (List Char) := tnPrefsOpenRecover (fun _ => true) d

/-- The file itself is recovered. -/
theorem recover_of_path {d : Disk (List Char)} {c : List Char} (h : d .path = some c) :
    recover d = some c := by
  simp [recover, tnPrefsOpenRecover, h]

/-- Without it the new text is. -/
theorem recover_of_tmp {d : Disk (List Char)} {c : List Char} (h : d .path = none)
    (ht : d .tmp = some c) : recover d = some c := by
  simp only [recover, tnPrefsOpenRecover, h, ht, Option.filter, if_true]

/-- Without either the backup is. -/
theorem recover_of_bak {d : Disk (List Char)} (h : d .path = none) (ht : d .tmp = none) :
    recover d = d .bak := by
  simp only [recover, tnPrefsOpenRecover, h, ht, Option.filter_none]
  cases d .bak <;> rfl

/-! ## Calls that touch one name -/

/-- `s'` comes from `s` by calls that touch the file `n` only. -/
structure OnlyAt (n : DosName) (s s' : DosState) : Prop where
  disk : ∀ n', n' ≠ n → s'.disk n' = s.disk n'
  seen : ∀ d ∈ s'.seen, d ∈ s.seen ∨ ∀ n', n' ≠ n → d n' = s.disk n'

namespace OnlyAt

variable {n : DosName} {s s' s'' : DosState}

/-- Calls that write nothing. -/
theorem of_eq (hdisk : s'.disk = s.disk) (hseen : s'.seen = s.seen) : OnlyAt n s s' :=
  ⟨fun n' _ => by rw [hdisk], fun d hd => Or.inl (hseen ▸ hd)⟩

/-- Changes at one name compose. -/
theorem trans (h : OnlyAt n s s') (h' : OnlyAt n s' s'') : OnlyAt n s s'' where
  disk := fun n' hn => (h'.disk n' hn).trans (h.disk n' hn)
  seen := fun d hd => by
    rcases h'.seen d hd with hd | hd
    · exact h.seen d hd
    · exact Or.inr fun n' hn => (hd n' hn).trans (h.disk n' hn)

/-- A file is set. -/
theorem setFile (s : DosState) (n : DosName) (v : Option (List Char)) :
    OnlyAt n s (s.setFile n v) where
  disk := fun n' hn => Function.update_of_ne hn _ _
  seen := fun d hd => by
    rcases List.mem_cons.mp hd with rfl | hd
    · exact Or.inr fun n' hn => Function.update_of_ne hn _ _
    · exact Or.inl hd

/-- An answer of DOS is used up. -/
theorem asked (n : DosName) (s : DosState) : OnlyAt n s s.asked := of_eq rfl rfl

/-- A file is opened anew. -/
theorem dosOpenNew (s : DosState) (n : DosName) : OnlyAt n s (dosOpenNew s n).1 := by
  unfold Tolunnet.dosOpenNew
  split
  · exact (asked n s).trans (setFile _ n _)
  · exact asked n s

/-- A file is written. -/
theorem dosWrite (s : DosState) (n : DosName) (text : List Char) :
    OnlyAt n s (dosWrite s n text).1 := by
  have hpart := (asked n s).trans (setFile s.asked n (some (text.take s.ask.cut)))
  unfold Tolunnet.dosWrite
  split
  · exact hpart.trans (setFile _ n _)
  · exact hpart

/-- A file is closed. -/
theorem dosClose (n : DosName) (s : DosState) : OnlyAt n s (dosClose s).1 := asked n s

/-- A file is deleted. -/
theorem dosDeleteFile (s : DosState) (n : DosName) : OnlyAt n s (dosDeleteFile s n).1 := by
  unfold Tolunnet.dosDeleteFile
  split
  · exact (asked n s).trans (setFile _ n _)
  · exact asked n s

/-- The old file is read. -/
theorem readPrev (n : DosName) (s : DosState) : OnlyAt n s (readPrev s).1 := by
  unfold Tolunnet.readPrev
  split
  · exact asked n s
  · split
    · exact of_eq rfl rfl
    · exact asked n s

end OnlyAt

/-! ## The moves -/

/-- What `tn_safe_replace` can do to a disk with the old file `g` at the path and the new text
`c` in `_tmp`. -/
structure ReplaceSpec (g : Option (List Char)) (c : List Char) (s s' : DosState) (ok : Bool) :
    Prop where
  saved : ok = true → s'.disk .path = some c
  failed : ok = false → s'.disk .path = g ∨
    (s'.disk .path = none ∧ s'.disk .bak = g ∧ (s'.disk .tmp = none ∨ s'.disk .tmp = some c))
  seen : ∀ d ∈ s'.seen, d ∈ s.seen ∨ d .path = g ∨ d .path = some c ∨
    (d .path = none ∧ d .bak = g ∧ (d .tmp = none ∨ d .tmp = some c))

/-- `DeleteFile` removes the file or changes nothing. -/
theorem dosDeleteFile_disk (s : DosState) (n : DosName) :
    (dosDeleteFile s n).1.disk n = none ∨ (dosDeleteFile s n).1.disk = s.disk := by
  unfold dosDeleteFile
  split
  · exact Or.inl (Function.update_self ..)
  · exact Or.inr rfl

/-- A deletion shows the disk after it. -/
theorem dosDeleteFile_seen (s : DosState) (n : DosName) :
    ∀ d ∈ (dosDeleteFile s n).1.seen, d ∈ s.seen ∨ d = (dosDeleteFile s n).1.disk := by
  unfold dosDeleteFile
  split
  · exact fun d hd => (List.mem_cons.mp hd).symm
  · exact fun d hd => Or.inl hd

/-- `Rename` moves the file or changes nothing. -/
theorem dosRename_cases (s : DosState) (n n' : DosName) :
    ((dosRename s n n').2 = true ∧ s.ask.ok = true ∧ (s.disk n).isSome ∧ s.disk n' = none ∧
      (dosRename s n n').1
        = s.asked.leave (Function.update (Function.update s.disk n' (s.disk n)) n none)) ∨
    ((dosRename s n n').2 = false ∧ (dosRename s n n').1 = s.asked ∧
      ¬ (s.ask.ok = true ∧ (s.disk n).isSome ∧ s.disk n' = none)) := by
  unfold dosRename
  split
  · rename_i h
    exact Or.inl ⟨rfl, h.1, h.2.1, h.2.2, rfl⟩
  · rename_i h
    exact Or.inr ⟨rfl, rfl, h⟩

/-- The second half of `tn_safe_replace`, after the old file is moved away, or not. -/
def replaceTail (s : DosState) (had : Bool) : DosState × Bool :=
  match dosRename s .tmp .path with
  | (s, true) => (s, true)
  | (s, false) =>
    let s := if had then (dosRename s .bak .path).1 else s
    ((dosDeleteFile s .tmp).1, false)

/-- The moves of a save, the last one apart. -/
theorem tnSafeReplace_eq (s : DosState) :
    tnSafeReplace s = replaceTail (dosRename (dosDeleteFile s .bak).1 .path .bak).1
      (dosRename (dosDeleteFile s .bak).1 .path .bak).2 := rfl

/-- The new text takes the free name. -/
theorem replaceTail_of_renamed {s : DosState} (h : (dosRename s .tmp .path).2 = true)
    (had : Bool) : replaceTail s had = ((dosRename s .tmp .path).1, true) := by
  unfold replaceTail
  generalize dosRename s .tmp .path = r at h ⊢
  obtain ⟨s', ok⟩ := r
  cases h
  rfl

/-- It cannot take it. -/
theorem replaceTail_of_refused {s : DosState} (h : (dosRename s .tmp .path).2 = false)
    (hs : (dosRename s .tmp .path).1 = s.asked) (had : Bool) :
    replaceTail s had
      = ((dosDeleteFile (if had then (dosRename s.asked .bak .path).1 else s.asked) .tmp).1,
          false) := by
  unfold replaceTail
  generalize dosRename s .tmp .path = r at h hs ⊢
  obtain ⟨s', ok⟩ := r
  cases h
  cases hs
  rfl

/-- The second half when the old file was not moved away. -/
theorem replaceTail_kept {s : DosState} {c : List Char} (htmp : s.disk .tmp = some c) :
    ReplaceSpec (s.disk .path) c s (replaceTail s false).1 (replaceTail s false).2 ∧
      ((replaceTail s false).2 = false → (replaceTail s false).1.disk .path = s.disk .path) := by
  rcases dosRename_cases s .tmp .path with ⟨hr, -, -, -, hs⟩ | ⟨hr, hs, -⟩
  · have hpath : (dosRename s .tmp .path).1.disk .path = some c := by
      rw [hs]
      simp [DosState.leave, htmp]
    rw [replaceTail_of_renamed hr]
    refine ⟨⟨fun _ => hpath, fun h => (by cases h), fun d hd => ?_⟩, fun h => (by cases h)⟩
    rw [hs] at hd hpath
    rcases List.mem_cons.mp hd with rfl | hd
    · exact Or.inr (Or.inr (Or.inl hpath))
    · exact Or.inl hd
  · have hdel := (OnlyAt.asked .tmp s).trans (OnlyAt.dosDeleteFile s.asked .tmp)
    have hpath := hdel.disk .path (by decide)
    rw [replaceTail_of_refused hr hs]
    refine ⟨⟨fun h => (by cases h), fun _ => Or.inl hpath, fun d hd => ?_⟩, fun _ => hpath⟩
    rcases hdel.seen d hd with hd | hd
    · exact Or.inl hd
    · exact Or.inr (Or.inl (hd .path (by decide)))

/-- The second half when the old file `g` was moved away. -/
theorem replaceTail_moved {s : DosState} {g : Option (List Char)} {c : List Char}
    (hpath : s.disk .path = none) (hbak : s.disk .bak = g) (hg : g.isSome)
    (htmp : s.disk .tmp = some c) :
    ReplaceSpec g c s (replaceTail s true).1 (replaceTail s true).2 ∧
      ((replaceTail s true).2 = false → (replaceTail s true).1.disk .path = none →
        (replaceTail s true).1.disk .tmp ≠ none →
        s.ask.ok = false ∧ s.asked.ask.ok = false ∧ s.asked.asked.ask.ok = false) := by
  rcases dosRename_cases s .tmp .path with ⟨hr, -, -, -, hs⟩ | ⟨hr, hs, hno⟩
  · have hnew : (dosRename s .tmp .path).1.disk .path = some c := by
      rw [hs]
      simp [DosState.leave, htmp]
    rw [replaceTail_of_renamed hr]
    refine ⟨⟨fun _ => hnew, fun h => (by cases h), fun d hd => ?_⟩, fun h => (by cases h)⟩
    rw [hs] at hd hnew
    rcases List.mem_cons.mp hd with rfl | hd
    · exact Or.inr (Or.inr (Or.inl hnew))
    · exact Or.inl hd
  · rw [replaceTail_of_refused hr hs, if_pos rfl]
    have hno : s.ask.ok = false := by simpa [htmp, hpath] using hno
    rcases dosRename_cases s.asked .bak .path with ⟨-, -, -, -, hs'⟩ | ⟨-, hs', hno'⟩
    · -- the old file is back, and what happens to `_tmp` does not matter
      have hdel := OnlyAt.dosDeleteFile (dosRename s.asked .bak .path).1 .tmp
      have hback : (dosRename s.asked .bak .path).1.disk .path = g := by
        rw [hs']
        simpa [DosState.leave, DosState.asked] using hbak
      have hend := (hdel.disk .path (by decide)).trans hback
      refine ⟨⟨fun h => (by cases h), fun _ => Or.inl hend, fun d hd => ?_⟩, fun _ hn => ?_⟩
      · rcases hdel.seen d hd with hd | hd
        · rw [hs'] at hd hback
          rcases List.mem_cons.mp hd with rfl | hd
          · exact Or.inr (Or.inl hback)
          · exact Or.inl hd
        · exact Or.inr (Or.inl ((hd .path (by decide)).trans hback))
      · rw [hend] at hn
        rw [hn] at hg
        cases hg
    · rw [hs']
      have hdel := (OnlyAt.of_eq rfl rfl : OnlyAt .tmp s s.asked.asked).trans
        (OnlyAt.dosDeleteFile s.asked.asked .tmp)
      have hp := (hdel.disk .path (by decide)).trans hpath
      have hb := (hdel.disk .bak (by decide)).trans hbak
      have ht : (dosDeleteFile s.asked.asked .tmp).1.disk .tmp = none ∨
          (dosDeleteFile s.asked.asked .tmp).1.disk .tmp = some c := by
        rcases dosDeleteFile_disk s.asked.asked .tmp with h | h
        · exact Or.inl h
        · rw [h]
          exact Or.inr htmp
      refine ⟨⟨fun h => (by cases h), fun _ => Or.inr ⟨hp, hb, ht⟩, fun d hd => ?_⟩,
        fun _ _ hne => ⟨hno, by simpa [DosState.asked, hbak, hg, hpath] using hno', ?_⟩⟩
      · rcases dosDeleteFile_seen s.asked.asked .tmp d hd with hd | rfl
        · exact Or.inl hd
        · exact Or.inr (Or.inr (Or.inr ⟨hp, hb, ht⟩))
      · unfold dosDeleteFile at hne
        split at hne
        · exact (hne (by simp [DosState.setFile, DosState.leave])).elim
        · rename_i hrefused
          simpa [DosState.asked, htmp] using hrefused

/-- The answers to the moves that leave no file at the path and the new text in `_tmp`: the old
file is moved away, and it is refused to move the new one, to move the old one back and to remove
the new one. -/
def DosState.Stuck (s : DosState) : Prop :=
  (s.disk .bak = none ∨ s.ask.ok = true) ∧ s.asked.ask.ok = true ∧
    s.asked.asked.ask.ok = false ∧ s.asked.asked.asked.ask.ok = false ∧
    s.asked.asked.asked.asked.ask.ok = false

/-- What the moves do. -/
theorem tnSafeReplace_spec {s : DosState} {c : List Char} (htmp : s.disk .tmp = some c) :
    ReplaceSpec (s.disk .path) c s (tnSafeReplace s).1 (tnSafeReplace s).2 ∧
      ((tnSafeReplace s).2 = false → (s.disk .path).isSome → (tnSafeReplace s).1.disk .path = none →
        (tnSafeReplace s).1.disk .tmp ≠ none → s.Stuck) := by
  have h1 := OnlyAt.dosDeleteFile s .bak
  have hans : (dosDeleteFile s .bak).1.answers = s.asked.answers := by
    unfold dosDeleteFile
    split <;> rfl
  have hbak : (dosDeleteFile s .bak).1.disk .bak = none → s.disk .bak = none ∨ s.ask.ok = true := by
    unfold dosDeleteFile
    split
    · rename_i hok
      exact fun _ => Or.inr hok.1
    · exact Or.inl
  rw [tnSafeReplace_eq]
  generalize (dosDeleteFile s .bak).1 = s1 at h1 hans hbak ⊢
  have hpath1 := h1.disk .path (by decide)
  have htmp1 := (h1.disk .tmp (by decide)).trans htmp
  have hseen1 : ∀ d ∈ s1.seen, d ∈ s.seen ∨ d .path = s.disk .path := fun d hd =>
    (h1.seen d hd).imp_right fun h => h .path (by decide)
  rcases dosRename_cases s1 .path .bak with ⟨hr, hok1, hg, hbak1, hs2⟩ | ⟨hr, hs2, -⟩
  · -- the old file is moved away
    rw [hr, hs2]
    rw [hpath1] at hg
    have hp2 : (s1.asked.leave (Function.update (Function.update s1.disk .bak (s1.disk .path))
        .path none)).disk .path = none := by
      simp [DosState.leave]
    have hb2 : (s1.asked.leave (Function.update (Function.update s1.disk .bak (s1.disk .path))
        .path none)).disk .bak = s.disk .path := by
      simpa [DosState.leave] using hpath1
    have ht2 : (s1.asked.leave (Function.update (Function.update s1.disk .bak (s1.disk .path))
        .path none)).disk .tmp = some c := by
      simpa [DosState.leave] using htmp1
    obtain ⟨hspec, hstuck⟩ := replaceTail_moved hp2 hb2 hg ht2
    refine ⟨⟨hspec.saved, hspec.failed, fun d hd => ?_⟩, fun hf _ hn ht => ?_⟩
    · rcases hspec.seen d hd with hd | hd
      · rcases List.mem_cons.mp hd with rfl | hd
        · exact Or.inr (Or.inr (Or.inr ⟨hp2, hb2, Or.inr ht2⟩))
        · exact (hseen1 d hd).imp_right Or.inl
      · exact Or.inr hd
    · have h := hstuck hf hn ht
      simp only [DosState.ask, DosState.asked, DosState.leave, hans] at h hok1
      exact ⟨hbak hbak1, hok1, h⟩
  · -- it is not, and stays where it is
    rw [hr, hs2]
    obtain ⟨hspec, hkept⟩ := @replaceTail_kept s1.asked c htmp1
    rw [show s1.asked.disk .path = s.disk .path from hpath1] at hspec hkept
    refine ⟨⟨hspec.saved, hspec.failed, fun d hd => ?_⟩, fun hf hg hn => ?_⟩
    · rcases hspec.seen d hd with hd | hd
      · exact (hseen1 d hd).imp_right Or.inl
      · exact Or.inr hd
    · rw [hkept hf] at hn
      rw [hn] at hg
      cases hg

/-! ## A save -/

/-- Where the answer to `Open` of `_tmp` is: the calls before it read the old file. -/
def DosState.openTmpAt (s : DosState) : Nat :=
  if (s.disk .path).isSome ∧ s.ask.ok = true then 3 else 1

/-- The answer to a later call. -/
def DosState.askAt (s : DosState) (i : Nat) : DosAnswer := (s.answers.drop i).headD {}

/-- `Write` is done when it is answered so, and the file has the text then. -/
theorem dosWrite_spec (s : DosState) (n : DosName) (text : List Char) :
    (dosWrite s n text).2 = s.ask.ok ∧ (dosWrite s n text).1.answers = s.asked.answers ∧
      (s.ask.ok = true → (dosWrite s n text).1.disk n = some text) := by
  unfold dosWrite
  split
  · rename_i hok
    exact ⟨hok.symm, rfl, fun _ => Function.update_self ..⟩
  · rename_i hno
    exact ⟨(Bool.eq_false_iff.mpr hno).symm, rfl, fun h => absurd h hno⟩

/-- Reading the old file leaves no trace. -/
theorem readPrev_spec (s : DosState) :
    (readPrev s).1.disk = s.disk ∧ (readPrev s).1.seen = s.seen ∧
      (readPrev s).1.answers = s.answers.drop s.openTmpAt := by
  unfold readPrev DosState.openTmpAt
  cases hp : s.disk .path with
  | none => exact ⟨rfl, rfl, (List.drop_one ..).symm⟩
  | some content =>
    by_cases hok : s.ask.ok = true
    · simp only [hok, if_true]
      refine ⟨rfl, rfl, ?_⟩
      simp [DosState.asked, dosClose, ← List.drop_one]
    · simp only [hok]
      exact ⟨rfl, rfl, (List.drop_one ..).symm⟩

/-- How a save goes: the merge refuses it, or a call on `_tmp` fails, or it comes to the moves
with the merged text in `_tmp`. -/
theorem tnPrefsWriteOne_cases (s : DosState) (text : List Char) :
    (tnConfigMergePreserve text (readPrev s).2 mergedSize = none ∧
      tnPrefsWriteOne s text = ((readPrev s).1, false)) ∨
    ((s.askAt s.openTmpAt).ok = false ∧ (tnPrefsWriteOne s text).2 = false ∧
      (tnPrefsWriteOne s text).1.disk = s.disk ∧ (tnPrefsWriteOne s text).1.seen = s.seen) ∨
    ((s.askAt s.openTmpAt).ok = true ∧ (tnPrefsWriteOne s text).2 = false ∧
      OnlyAt .tmp s (tnPrefsWriteOne s text).1) ∨
    ∃ s1 merged, tnConfigMergePreserve text (readPrev s).2 mergedSize = some merged ∧
      (∀ i < 3, (s.askAt (s.openTmpAt + i)).ok = true) ∧
      s1.answers = s.answers.drop (s.openTmpAt + 3) ∧
      OnlyAt .tmp s s1 ∧ s1.disk .tmp = some merged ∧
      tnPrefsWriteOne s text = tnSafeReplace s1 := by
  have hread := OnlyAt.readPrev .tmp s
  obtain ⟨hdisk, hseen, hans⟩ := readPrev_spec s
  unfold tnPrefsWriteOne
  generalize readPrev s = r at hread hdisk hseen hans ⊢
  obtain ⟨s0, prev⟩ := r
  dsimp only at hread hdisk hseen hans ⊢
  have hask0 : s0.ask = s.askAt s.openTmpAt := by rw [DosState.ask, DosState.askAt, hans]
  cases hm : tnConfigMergePreserve text prev mergedSize with
  | none => exact Or.inl ⟨rfl, rfl⟩
  | some merged =>
    right
    -- Each call on `_tmp` takes the next answer of DOS: open, write, close.
    by_cases hopen : s0.ask.ok = true
    · right
      have hs1 : dosOpenNew s0 .tmp = (s0.asked.setFile .tmp (some []), true) := if_pos hopen
      simp only [hs1]
      have h1 : OnlyAt .tmp s (s0.asked.setFile .tmp (some [])) :=
        hread.trans ((OnlyAt.asked .tmp s0).trans (OnlyAt.setFile _ _ _))
      obtain ⟨hok2, hans2, htmp2⟩ := dosWrite_spec (s0.asked.setFile .tmp (some [])) .tmp merged
      have h2 := h1.trans (OnlyAt.dosWrite (s0.asked.setFile .tmp (some [])) .tmp merged)
      generalize dosWrite (s0.asked.setFile .tmp (some [])) .tmp merged = r at hok2 hans2 htmp2 h2 ⊢
      obtain ⟨s2, ok⟩ := r
      dsimp only at hok2 hans2 htmp2 h2
      have hask1 : (s0.asked.setFile .tmp (some [])).ask = s.askAt (s.openTmpAt + 1) := by
        simp only [DosState.ask, DosState.askAt, DosState.setFile, DosState.leave, DosState.asked,
          hans, List.tail_drop]
      have hans2 : s2.answers = s.answers.drop (s.openTmpAt + 2) := by
        rw [hans2]
        simp only [DosState.setFile, DosState.leave, DosState.asked, hans, List.tail_drop]
      have hask2 : s2.ask = s.askAt (s.openTmpAt + 2) := by
        rw [DosState.ask, DosState.askAt, hans2]
      cases ok with
      -- A write that failed leaves nothing but `_tmp`.
      | false =>
        left
        refine ⟨hask0 ▸ hopen, rfl, ?_⟩
        exact (h2.trans (OnlyAt.dosClose .tmp s2)).trans (OnlyAt.dosDeleteFile _ .tmp)
      | true =>
        have hclose : dosClose s2 = (s2.asked, s2.ask.ok) := rfl
        simp only [hclose]
        by_cases hc : s2.ask.ok = true
        · right
          refine ⟨s2.asked, merged, rfl, fun i hi => ?_, ?_, h2.trans (OnlyAt.asked .tmp s2),
            htmp2 hok2.symm, by rw [hc]⟩
          · match i, hi with
            | 0, _ => exact hask0 ▸ hopen
            | 1, _ => exact hask1 ▸ hok2.symm
            | 2, _ => exact hask2 ▸ hc
          · simp only [DosState.asked, hans2, List.tail_drop]
        · left
          rw [Bool.eq_false_iff.mpr hc]
          exact ⟨hask0 ▸ hopen, rfl, (h2.trans (OnlyAt.asked .tmp s2)).trans
            (OnlyAt.dosDeleteFile _ .tmp)⟩
    · left
      have hs1 : dosOpenNew s0 .tmp = (s0.asked, false) := if_neg hopen
      rw [hask0] at hopen
      exact ⟨Bool.eq_false_iff.mpr hopen, by simp only [hs1], by simp only [hs1]; exact hdisk,
        by simp only [hs1]; exact hseen⟩

/-! ## Runs of saves -/

/-- The store between two saves: the disk, and the text of the last save that returned TRUE. -/
structure Store where
  disk : Disk (List Char)
  last : Option (List Char)

/-- A save, with the answers that its calls get. -/
structure SaveCall where
  text : List Char
  answers : List DosAnswer := []

namespace Store

variable (st : Store) (c : SaveCall)

/-- The store when a save begins. -/
def begin : DosState := { disk := st.disk, answers := c.answers }

/-- What the save does. The disks that it leaves behind are those a power cut can find. -/
def result : DosState × Bool := tnPrefsWriteOne (st.begin c) c.text

/-- The text that the save puts into the file. -/
def newText : Option (List Char) :=
  tnConfigMergePreserve c.text (readPrev (st.begin c)).2 mergedSize

/-- The store after the save. -/
def after : Store :=
  { disk := (st.result c).1.disk, last := if (st.result c).2 then st.newText c else st.last }

/-- A save that recovery can cope with: there is a file at the path when it begins, or it cannot
even open `_tmp`; and it does not get stuck in the moves. -/
structure Safe : Prop where
  path : (st.disk .path).isSome ∨ ((st.begin c).askAt (st.begin c).openTmpAt).ok = false
  moves : ¬ ((∀ i < 3, ((st.begin c).askAt ((st.begin c).openTmpAt + i)).ok = true) ∧
    ({ disk := st.disk, answers := c.answers.drop ((st.begin c).openTmpAt + 3) } : DosState).Stuck)

end Store

/-- The stores that a run of saves reaches. A power cut leaves one of the disks of the save behind,
and the generation that is recovered from it is the last one then. -/
inductive Saves (st₀ : Store) : Store → Prop
  | init : Saves st₀ st₀
  | save {st : Store} {c : SaveCall} : Saves st₀ st → st.Safe c → Saves st₀ (st.after c)
  | cut {st : Store} {c : SaveCall} {d : Disk (List Char)} : Saves st₀ st → st.Safe c →
      d ∈ (st.result c).1.seen → Saves st₀ ⟨d, recover d⟩

/-- A save that finds a file at the path: what is recovered on the way and after it. -/
theorem recover_result {st : Store} {c : SaveCall} {g : List Char}
    (hpath : st.disk .path = some g) (hsafe : st.Safe c) :
    recover (st.after c).disk = (if (st.result c).2 then st.newText c else some g) ∧
      ∀ d ∈ (st.result c).1.seen, recover d = some g ∨
        (recover d = st.newText c ∧ (st.newText c).isSome) := by
  have hp : (st.begin c).disk .path = some g := hpath
  rcases tnPrefsWriteOne_cases (st.begin c) c.text with
    ⟨-, hr⟩ | ⟨-, hok, hdisk, hseen⟩ | ⟨-, hok, honly⟩ | ⟨s1, merged, hm, hthree, hans, honly, htmp, hr⟩
  · have honly := OnlyAt.readPrev .tmp (st.begin c)
    rw [Store.after, Store.result, hr]
    refine ⟨recover_of_path ((honly.disk .path (by decide)).trans hp), fun d hd => ?_⟩
    rcases honly.seen d hd with hd | hd
    · cases hd
    · exact Or.inl (recover_of_path ((hd .path (by decide)).trans hp))
  · rw [Store.after, Store.result, hok]
    refine ⟨recover_of_path (by rw [hdisk]; exact hp), fun d hd => ?_⟩
    rw [hseen] at hd
    cases hd
  · rw [Store.after, Store.result, hok]
    refine ⟨recover_of_path ((honly.disk .path (by decide)).trans hp), fun d hd => ?_⟩
    rcases honly.seen d hd with hd | hd
    · cases hd
    · exact Or.inl (recover_of_path ((hd .path (by decide)).trans hp))
  · -- the moves
    obtain ⟨hspec, hstuck⟩ := tnSafeReplace_spec htmp
    have hp1 := (honly.disk .path (by decide)).trans hp
    rw [hp1] at hspec hstuck
    have hnew : st.newText c = some merged := hm
    have hbak : s1.disk .bak = st.disk .bak := honly.disk .bak (by decide)
    have hnot : ¬ s1.Stuck := fun h => hsafe.moves ⟨hthree, by
      unfold DosState.Stuck DosState.ask DosState.asked at h ⊢
      rw [hans, hbak] at h
      exact h⟩
    rw [Store.after, Store.result, hr, hnew]
    constructor
    · cases hok : (tnSafeReplace s1).2 with
      | true => exact recover_of_path (hspec.saved hok)
      | false =>
        rcases hspec.failed hok with h | ⟨h, hb, ht⟩
        · exact recover_of_path h
        · have hnone : (tnSafeReplace s1).1.disk .tmp = none := by
            by_contra hne
            exact hnot (hstuck hok rfl h hne)
          exact (recover_of_bak h hnone).trans hb
    · intro d hd
      rcases hspec.seen d hd with hd | hd | hd | ⟨h, hb, ht | ht⟩
      · rcases honly.seen d hd with hd | hd
        · cases hd
        · exact Or.inl (recover_of_path ((hd .path (by decide)).trans hp))
      · exact Or.inl (recover_of_path hd)
      · exact Or.inr ⟨recover_of_path hd, rfl⟩
      · exact Or.inl ((recover_of_bak h ht).trans hb)
      · exact Or.inr ⟨recover_of_tmp h ht, rfl⟩

/-- A save that cannot open `_tmp` changes nothing. -/
theorem result_of_refused {st : Store} {c : SaveCall}
    (h : ((st.begin c).askAt (st.begin c).openTmpAt).ok = false) :
    (st.result c).2 = false ∧ (st.result c).1.disk = st.disk ∧ (st.result c).1.seen = [] := by
  unfold Store.result
  rcases tnPrefsWriteOne_cases (st.begin c) c.text with
    ⟨-, hr⟩ | ⟨-, hok, hdisk, hseen⟩ | ⟨hopen, -⟩ | ⟨s1, merged, -, hthree, -⟩
  · obtain ⟨hdisk, hseen, -⟩ := readPrev_spec (st.begin c)
    rw [hr]
    exact ⟨rfl, hdisk, hseen⟩
  · exact ⟨hok, hdisk, hseen⟩
  · rw [h] at hopen
    cases hopen
  · have hopen := hthree 0 (by decide)
    rw [Nat.add_zero, h] at hopen
    cases hopen

/-- One save of a run. -/
theorem recover_step {st : Store} (hinv : recover st.disk = st.last) {c : SaveCall}
    (hsafe : st.Safe c) :
    recover (st.after c).disk = (st.after c).last ∧
      ∀ d ∈ (st.result c).1.seen, recover d = st.last ∨
        (recover d = st.newText c ∧ (st.newText c).isSome) := by
  rcases hsafe.path with hpath | hrefused
  · obtain ⟨g, hg⟩ := Option.isSome_iff_exists.mp hpath
    have hlast : st.last = some g := hinv.symm.trans (recover_of_path hg)
    rw [show (st.after c).last = if (st.result c).2 then st.newText c else st.last from rfl, hlast]
    exact recover_result hg hsafe
  · obtain ⟨hok, hdisk, hseen⟩ := result_of_refused hrefused
    rw [hseen]
    refine ⟨?_, fun d hd => nomatch hd⟩
    show recover (st.result c).1.disk = if (st.result c).2 then st.newText c else st.last
    rw [hok, hdisk]
    exact hinv

/-- In a run of safe saves, what is recovered between two saves is the last generation, and what
is recovered after a power cut is the last generation or the complete one in progress. -/
theorem recover_of_saves {st₀ st : Store} (h₀ : recover st₀.disk = st₀.last)
    (h : Saves st₀ st) :
    recover st.disk = st.last ∧
      ∀ c : SaveCall, st.Safe c → ∀ d ∈ (st.result c).1.seen, recover d = st.last ∨
        (recover d = st.newText c ∧ (st.newText c).isSome) := by
  -- by induction on the run: a cut leaves what the disk says, a safe save its own text
  have hinv : recover st.disk = st.last := by
    induction h with
    | init => exact h₀
    | save _ hsafe ih => exact (recover_step ih hsafe).1
    | cut => rfl
  exact ⟨hinv, fun c hsafe => (recover_step hinv hsafe).2⟩

/-- A save over an existing file with every call done is safe. -/
theorem recover_of_saves_default :
    let st₀ : Store := ⟨fun n => if n = .path then some "VERSION=1\n".toList else none,
      some "VERSION=1\n".toList⟩
    let c : SaveCall := ⟨configText (tnPrefsDefault {}), []⟩
    Saves st₀ (st₀.after c) ∧ recover (st₀.after c).disk = (st₀.after c).last := by
  intro st₀ c
  have hsafe : st₀.Safe c :=
    ⟨Or.inl rfl, fun h => by cases h.2.2.2.1⟩
  have hrun : Saves st₀ (st₀.after c) := Saves.save Saves.init hsafe
  exact ⟨hrun, (recover_of_saves (recover_of_path rfl) hrun).1⟩

/-- The first save of all: when the power goes after `Open`, recovery opens the empty `_tmp`. -/
theorem not_forall_recover :
    ¬ ∀ (c : SaveCall), ∀ d ∈ (Store.result ⟨fun _ => none, none⟩ c).1.seen,
      recover d = none ∨
        recover d = Store.newText ⟨fun _ => none, none⟩ c := by
  intro h
  let st : Store := ⟨fun _ => none, none⟩
  let c : SaveCall := ⟨configText (tnPrefsDefault {}), []⟩
  have hseen : ((st.result c).1.seen.any fun d =>
      decide (d .path = none) && decide (d .tmp = some [])) = true := by
    decide
  obtain ⟨d, hd, hat⟩ := List.any_eq_true.mp hseen
  rw [Bool.and_eq_true, decide_eq_true_eq, decide_eq_true_eq] at hat
  have hrec : recover d = some [] := recover_of_tmp hat.1 hat.2
  rcases h c d hd with hnone | hnew
  · rw [hrec] at hnone
    cases hnone
  · rw [hrec] at hnew
    revert hnew
    decide

end Tolunnet
