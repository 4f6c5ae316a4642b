import Tolunnet.Config.Crash

/-!
# `Tolunnet.Setup.Files`: rewriting a script

What the two script editors of the setup program share: the calls that read a file, and the calls that
put a new text in its place. The names of a script are those of a store: the file itself, with
`.tolunnet-new` behind it and with `.tolunnet-prev` behind it.

`installText_spec`: a text is installed whole, or the old file is still there, under its own name or
under the one of the previous generation.
-/

set_option autoImplicit false

namespace Tolunnet

variable {s : DosState} {text : List Char}

/-- A blank or a tab. -/
def isSpace (c : Char) : Bool := c == ' ' || c == '\t'

/-! ## Reading -/

/-- A call that only succeeds or fails. -/
def dosCall (s : DosState) : DosState × Bool := (s.asked, s.ask.ok)

/-- `Open(n, MODE_OLDFILE)` and `Lock(n, ACCESS_READ)`. -/
def dosOpenOld (s : DosState) (n : DosName) : DosState × Bool :=
  (s.asked, s.ask.ok && (s.disk n).isSome)

/-- `Read` at a place with `rest` behind it: nothing when the call fails, else some of what is asked
for, and not nothing before the end of the file. -/
def dosRead (s : DosState) (rest : List Char) (size : Nat) : DosState × Option (List Char) :=
  if s.ask.ok then
    let most := min size rest.length
    (s.asked, some (rest.take (if s.ask.cut = 0 then most else min s.ask.cut most)))
  else (s.asked, none)

/-- The loop that reads a file of a known size: it ends early when a `Read` fails or brings nothing. -/
def readLoop : Nat → List Char → List Char → DosState → DosState × List Char
  | 0, buf, _, s => (s, buf)
  | fuel + 1, buf, rest, s =>
    if rest = [] then (s, buf)
    else
      match dosRead s rest rest.length with
      | (s, none) => (s, buf)
      | (s, some got) =>
        if got = [] then (s, buf) else readLoop fuel (buf ++ got) (rest.drop got.length) s

/-! ## Installing -/

/-- `Open(new, MODE_NEWFILE)`, `Write`, `Close` and `tn_safe_replace`. -/
def installText (s : DosState) (text : List Char) : DosState × Bool :=
  match dosOpenNew s .tmp with
  | (s, false) => (s, false)
  | (s, true) =>
    match dosWrite s .tmp text with
    | (s, false) => ((dosDeleteFile (dosClose s).1 .tmp).1, false)
    | (s, true) => tnSafeReplace (dosClose s).1

/-! ## What they do -/

@[simp] theorem dosCall_disk (s : DosState) : (dosCall s).1.disk = s.disk := rfl

@[simp] theorem dosOpenOld_disk (s : DosState) (n : DosName) : (dosOpenOld s n).1.disk = s.disk := rfl

@[simp] theorem dosClose_disk (s : DosState) : (dosClose s).1.disk = s.disk := rfl

theorem disk_of_dosCall {s' : DosState} {ok : Bool} (h : dosCall s = (s', ok)) : s'.disk = s.disk :=
  (congrArg (·.1.disk) h).symm

theorem disk_of_dosOpenOld {s' : DosState} {n : DosName} {ok : Bool}
    (h : dosOpenOld s n = (s', ok)) : s'.disk = s.disk :=
  (congrArg (·.1.disk) h).symm

theorem dosRead_disk (s : DosState) (rest : List Char) (size : Nat) :
    (dosRead s rest size).1.disk = s.disk := by
  unfold dosRead
  split <;> rfl

theorem readLoop_disk (fuel : Nat) (buf rest : List Char) (s : DosState) :
    (readLoop fuel buf rest s).1.disk = s.disk := by
  induction fuel generalizing buf rest s with
  | zero => rfl
  | succ fuel ih =>
    have same := dosRead_disk s rest rest.length
    unfold readLoop
    split
    · rfl
    · split
      · rename_i got
        rwa [got] at same
      · rename_i got
        rw [got] at same
        split
        · exact same
        · rw [ih, same]

/-- What `Read` brings is what stands next in the file. -/
theorem dosRead_some {rest got : List Char} {size : Nat} {s' : DosState}
    (h : dosRead s rest size = (s', some got)) : got ++ rest.drop got.length = rest := by
  unfold dosRead at h
  split at h
  · simp only [Prod.mk.injEq, Option.some.injEq] at h
    obtain ⟨-, rfl⟩ := h
    rw [List.length_take]
    generalize (if s.ask.cut = 0 then _ else _) = n
    rcases le_total n rest.length with short | long
    · rw [Nat.min_eq_left short, List.take_append_drop]
    · rw [Nat.min_eq_right long, List.drop_length, List.append_nil, List.take_of_length_le long]
  · simp at h

/-- A file that is read to its size is read as it is. -/
theorem readLoop_whole {fuel : Nat} {buf rest : List Char}
    (whole : (readLoop fuel buf rest s).2.length = (buf ++ rest).length) :
    (readLoop fuel buf rest s).2 = buf ++ rest := by
  induction fuel generalizing buf rest s with
  | zero =>
    have none : rest = [] := by simpa [readLoop] using whole
    simp [readLoop, none]
  | succ fuel ih =>
    by_cases done : rest = []
    · simp [readLoop, done]
    unfold readLoop at whole ⊢
    rw [if_neg done] at whole ⊢
    -- an early end leaves something of the file
    have early : ¬ buf.length = (buf ++ rest).length := by
      simpa using done
    cases read : dosRead s rest rest.length with
    | mk s' got =>
    rw [read] at whole
    cases got with
    | none => exact absurd whole early
    | some got =>
      dsimp only at whole ⊢
      by_cases none : got = []
      · rw [if_pos none] at whole
        exact absurd whole early
      · rw [if_neg none] at whole ⊢
        have eq : buf ++ got ++ rest.drop got.length = buf ++ rest := by
          rw [List.append_assoc, dosRead_some read]
        rw [← eq] at whole ⊢
        exact ih whole

/-- A text is installed whole, or the old file is where it was or in the previous generation. -/
theorem installText_spec (s : DosState) (text : List Char) :
    ((installText s text).2 = true → (installText s text).1.disk .path = some text) ∧
    ((installText s text).2 = false → (installText s text).1.disk .path = s.disk .path ∨
      ((installText s text).1.disk .path = none ∧ (installText s text).1.disk .bak = s.disk .path)) := by
  have opened := (OnlyAt.dosOpenNew s .tmp).disk .path (by decide)
  unfold installText
  split
  · rename_i got
    rw [got] at opened
    exact ⟨fun ok => (nomatch ok), fun _ => .inl opened⟩
  · rename_i s₁ got
    rw [got] at opened
    have written := ((OnlyAt.dosWrite s₁ .tmp text).disk .path (by decide)).trans opened
    split
    · rename_i s₂ got'
      rw [got'] at written
      have dropped := (OnlyAt.dosDeleteFile (dosClose s₂).1 .tmp).disk .path (by decide)
      exact ⟨fun ok => (nomatch ok), fun _ => .inl (dropped.trans written)⟩
    · rename_i s₂ got'
      rw [got'] at written
      have new : (dosClose s₂).1.disk .tmp = some text := by
        unfold dosWrite at got'
        split at got'
        · rw [← (Prod.mk.inj got').1]
          simp [DosState.setFile, DosState.leave]
        · simp at got'
      obtain ⟨spec, -⟩ := tnSafeReplace_spec new
      have old : (dosClose s₂).1.disk .path = s.disk .path := written
      rw [old] at spec
      exact ⟨spec.saved, fun failed => (spec.failed failed).imp_right fun h => ⟨h.1, h.2.1⟩⟩

/-! ## When nothing is refused -/

theorem asked_willing (h : s.answers = []) : s.asked.answers = [] := by
  rw [DosState.asked, h]
  rfl

theorem ask_willing (h : s.answers = []) : s.ask = {} := by
  rw [DosState.ask, h]
  rfl

theorem readLoop_willing (h : s.answers = []) {fuel : Nat} {buf rest : List Char}
    (room : rest.length ≤ fuel) :
    (readLoop fuel buf rest s).1.answers = [] ∧ (readLoop fuel buf rest s).2 = buf ++ rest := by
  cases fuel with
  | zero =>
    have none : rest = [] := by simpa using room
    exact ⟨h, by simp [readLoop, none]⟩
  | succ fuel =>
    by_cases none : rest = []
    · simp [readLoop, none, h]
    · have read : dosRead s rest rest.length = (s.asked, some rest) := by
        simp [dosRead, ask_willing h]
      unfold readLoop
      rw [if_neg none, read]
      dsimp only
      rw [if_neg none, List.drop_length]
      cases fuel with
      | zero => exact ⟨asked_willing h, rfl⟩
      | succ fuel => simp [readLoop, asked_willing h]

/-- Then a text is installed. -/
theorem installText_willing (h : s.answers = []) : (installText s text).2 = true := by
  have rename {s : DosState} (h : s.answers = []) (n n' : DosName) (there : (s.disk n).isSome)
      (free : s.disk n' = none) : (dosRename s n n').2 = true := by
    simp [dosRename, ask_willing h, there, free]
  have opened : dosOpenNew s .tmp = (s.asked.setFile .tmp (some []), true) := by
    simp [dosOpenNew, ask_willing h]
  have none₁ : (s.asked.setFile .tmp (some [])).answers = [] := asked_willing h
  unfold installText
  rw [opened]
  dsimp only
  generalize s.asked.setFile .tmp (some []) = s₁ at none₁
  have written : dosWrite s₁ .tmp text =
      ((s₁.asked.setFile .tmp (some (text.take s₁.ask.cut))).setFile .tmp (some text), true) := by
    simp [dosWrite, ask_willing none₁]
  rw [written]
  dsimp only
  have none₂ : (dosClose ((s₁.asked.setFile .tmp (some (text.take s₁.ask.cut))).setFile .tmp
      (some text))).1.answers = [] := asked_willing (asked_willing none₁)
  have new : ((dosClose ((s₁.asked.setFile .tmp (some (text.take s₁.ask.cut))).setFile .tmp
      (some text))).1.disk .tmp).isSome := by
    simp [dosClose, DosState.setFile, DosState.leave, DosState.asked]
  generalize (dosClose ((s₁.asked.setFile .tmp (some (text.take s₁.ask.cut))).setFile .tmp
      (some text))).1 = s₂ at none₂ new ⊢
  rw [tnSafeReplace_eq]
  -- the previous generation goes, the file takes its name, and the new text the file's
  have none₃ : (dosDeleteFile s₂ .bak).1.answers = [] := by
    unfold dosDeleteFile
    split
    · exact asked_willing none₂
    · exact asked_willing none₂
  have new₃ : ((dosDeleteFile s₂ .bak).1.disk .tmp).isSome := by
    rw [(OnlyAt.dosDeleteFile s₂ .bak).disk .tmp (by decide)]
    exact new
  have free₃ : (dosDeleteFile s₂ .bak).1.disk .bak = none := by
    unfold dosDeleteFile
    split
    · simp [DosState.setFile, DosState.leave]
    · rename_i refused
      simpa [ask_willing none₂, DosState.asked] using refused
  generalize (dosDeleteFile s₂ .bak).1 = s₃ at none₃ new₃ free₃ ⊢
  refine congrArg Prod.snd (replaceTail_of_renamed (rename ?_ .tmp .path ?_ ?_) _)
  · rcases dosRename_cases s₃ .path .bak with ⟨-, -, -, -, moved⟩ | ⟨-, kept, -⟩
    · rw [moved]
      exact asked_willing none₃
    · rw [kept]
      exact asked_willing none₃
  · rcases dosRename_cases s₃ .path .bak with ⟨-, -, -, -, moved⟩ | ⟨-, kept, -⟩
    · rw [moved]
      simpa [DosState.leave] using new₃
    · rw [kept]
      exact new₃
  · rcases dosRename_cases s₃ .path .bak with ⟨-, -, -, -, moved⟩ | ⟨-, kept, refused⟩
    · rw [moved]
      simp [DosState.leave]
    · rw [kept]
      simpa [ask_willing none₃, free₃, DosState.asked] using refused

end Tolunnet
