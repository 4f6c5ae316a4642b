import Tolunnet.Setup.StackLibrary

/-!
# `Tolunnet.Setup.Original`: where the original library is

A run of the setup program is a list of replacements, undos and new library files, with the answers that
the steps of each call get. A call ends where its answers end, so a power cut is a short list of answers.

A rename never loses a file, and a file that has one name is lost only when that name is deleted. The
code deletes the park name: before it parks the live library, and after an undo. `Event.Safe` says when
the original cannot be there, and `Event.Fine` when an undo finds it.
-/

set_option autoImplicit false

namespace Tolunnet

namespace Stack

open Directory

variable {d : LibDir} {answers : List Bool} {suffix : StackSuffix}
  {adm : Op LibName Outside → Bool → Prop}

/-! ## Runs -/

/-- What happens: a call, or a new library file under the live name. -/
inductive Event where
  | apply (ws : Option WizardState)
  | undo
  | place (id : Nat)

/-- No step fails. -/
def Granted : Op LibName Outside → Bool → Prop
  | .outside e, ok => e.fallible = true → ok = true
  | _, ok => ok = true

namespace Event

/-- The directory after an event. -/
def after (e : Event) (answers : List Bool) (d : LibDir) : LibDir :=
  match e with
  | apply ws => ((tnStackApplyReplacement ws).run answers d).1
  | undo => (tnStackUndoReplacement.run answers d).1
  | place id => d.write .live (.other id)

/-- The event is an undo that ends and in which no step fails. -/
def Undone (e : Event) (answers : List Bool) (d : LibDir) : Prop :=
  match e with
  | undo => tnStackUndoReplacement.Admitted Granted answers d ∧
      (tnStackUndoReplacement.run answers d).2.isSome
  | _ => False

end Event

/-- What a run promises: the original has a name after each event, and the live one after an undo in
which no step fails. -/
def Kept (d : LibDir) : List (Event × List Bool) → Prop
  | [] => True
  | (e, answers) :: rest =>
    (e.after answers d).Has .original ∧
      (e.Undone answers d → e.after answers d .live = some .original) ∧ Kept (e.after answers d) rest

/-! ## Conditions -/

/-- No backup is there. -/
def NoBackup (d : LibDir) : Prop := ∀ suffix, d (.backup suffix) = none

/-- What an undo has to bring back: the first backup, or what is there without one. -/
def toRestore (d : LibDir) : Option LibFile :=
  match suffixes.find? fun suffix => (d (.backup suffix)).isSome with
  | some suffix => d (.backup suffix)
  | none => d .live

namespace Event

/-- A replacement is asked for. -/
def Replaces (ws : Option WizardState) : Prop := ws.any (·.replaceStacks)

/-- An event does not meet the original where it deletes a file or writes one. -/
def Safe (e : Event) (d : LibDir) : Prop :=
  match e with
  | apply ws => Replaces ws → d .live ≠ none → d .park ≠ some .original
  | undo => ¬ NoBackup d → d .live ≠ none → d .park ≠ some .original ∧ d .live ≠ some .original
  | place _ => d .live ≠ some .original

end Event

/-- A run in which every event is safe, and in which an undo without a failing step finds the original as
the first backup, or at its place when there is no backup. -/
def Guarded (d : LibDir) : List (Event × List Bool) → Prop
  | [] => True
  | (e, answers) :: rest =>
    e.Safe d ∧ (e.Undone answers d → toRestore d = some .original) ∧ Guarded (e.after answers d) rest

/-! ## No loss -/

/-- The swap of a replacement. -/
theorem has_storeLibrary (there : d.Has .original) (safe : d .live ≠ none → d .park ≠ some .original) :
    (storeLibrary suffix).wp adm (·.Has .original) (fun _ d => d.Has .original) d := by
  -- after the deletion there are only renames
  have renames {d : LibDir} (there : d.Has .original) : Proc.wp adm (·.Has .original)
      (fun _ d => d.Has .original) (do
        if ← rename .live .park then
          if ← rename .park (.backup suffix) then return ()
          else
            let _ ← rename .park .live
            return ()
        else return ()) d := by
    rw [Proc.wp_bind]
    refine Proc.wp_rename there (fun _ free => ?_) there
    have there := there.move (a := .live) free
    rw [if_pos rfl, Proc.wp_bind]
    refine Proc.wp_rename there (fun _ free => there.move free) ?_
    rw [if_neg (by simp), Proc.wp_bind]
    exact Proc.wp_rename there (fun _ free => there.move free) there
  unfold storeLibrary
  rw [Proc.wp_bind]
  refine Proc.wp_exists there (fun live => ?_) there
  rw [if_pos rfl, Proc.wp_bind]
  exact Proc.wp_delete there (renames (there.erase (safe live))) (renames there)

/-- The swap of an undo. -/
theorem has_restoreLibrary (there : d.Has .original)
    (safe : d .live ≠ none → d .park ≠ some .original ∧ d .live ≠ some .original) :
    (restoreLibrary suffix).wp adm (·.Has .original) (fun _ d => d.Has .original) d := by
  -- the parked file is not the original
  have renames {d : LibDir} (there : d.Has .original) (other : d .live ≠ some .original) :
      Proc.wp adm (·.Has .original) (fun _ d => d.Has .original) (do
        if ← rename .live .park then
          if ← rename (.backup suffix) .live then
            let _ ← deleteFile .park
            return ()
          else
            let _ ← rename .park .live
            return ()
        else return ()) d := by
    rw [Proc.wp_bind]
    refine Proc.wp_rename there (fun _ free => ?_) there
    have there := there.move (a := .live) free
    rw [if_pos rfl, Proc.wp_bind]
    refine Proc.wp_rename there (fun _ free' => ?_) ?_
    · have there := there.move (a := .backup suffix) free'
      rw [if_pos rfl, Proc.wp_bind]
      refine Proc.wp_delete there (there.erase ?_) there
      simpa using other
    · rw [if_neg (by simp), Proc.wp_bind]
      exact Proc.wp_rename there (fun _ free => there.move free) there
  unfold restoreLibrary
  rw [Proc.wp_bind]
  refine Proc.wp_exists there (fun live => ?_) ?_
  · obtain ⟨park, other⟩ := safe live
    rw [if_pos rfl, Proc.wp_bind]
    exact Proc.wp_delete there (renames (there.erase park) (by simpa using other)) (renames there other)
  · rw [if_neg (by simp), Proc.wp_bind]
    exact Proc.wp_rename there (fun _ free => there.move free) there

/-- Putting a backup back loses nothing. -/
theorem has_restoreFirst (there : d.Has .original) (safe : Event.undo.Safe d) (ss : List StackSuffix) :
    (restoreFirst ss).wp adm (·.Has .original) (fun _ d => d.Has .original) d := by
  induction ss with
  | nil => exact there
  | cons suffix rest ih =>
    unfold restoreFirst
    rw [Proc.wp_bind]
    refine Proc.wp_exists there (fun backup => ?_) ?_
    · rw [if_pos rfl]
      exact has_restoreLibrary there (safe fun none => backup (none suffix))
    · rw [if_neg (by simp)]
      exact ih

/-! ## Elsewhere -/

theorem elsewhere_outside (e : Outside) : (outside e).Elsewhere := Proc.elsewhere_op e

/-- A file of the setup is rewritten elsewhere. -/
theorem elsewhere_rewriteIfThere (path : String) (q : Parser) : (rewriteIfThere path q).Elsewhere :=
  (elsewhere_outside _).bind fun a => by
    cases a with
    | true => exact elsewhere_outside _
    | false => exact trivial

theorem elsewhere_disableScripts : disableScripts.Elsewhere := by
  have backup : backupStartup.Elsewhere :=
    ((elsewhere_outside _).and ((elsewhere_outside _).map _)).bind fun a => by
      cases a with
      | true => exact elsewhere_outside _
      | false => exact trivial
  exact backup.and ((elsewhere_outside _).and ((elsewhere_outside _).and (elsewhere_rewriteIfThere _ _)))

theorem elsewhere_stackSuffix (ws : WizardState) : (stackSuffix ws).Elsewhere := by
  unfold stackSuffix
  split
  · exact trivial
  refine ((elsewhere_outside _).or (elsewhere_outside _)).bind fun a => ?_
  cases a with
  | true => exact trivial
  | false =>
    refine ((elsewhere_outside _).or ((elsewhere_outside _).or (elsewhere_outside _))).bind fun a => ?_
    cases a with
    | true => exact trivial
    | false =>
      refine ((elsewhere_outside _).or (elsewhere_outside _)).bind fun a => ?_
      cases a <;> exact trivial

/-- A granted step does not fail. -/
theorem outside_returns {e : Outside} (fails : e.fallible = true) :
    ¬ (outside e).Returns Granted false := by
  rintro ⟨ok, granted, eq⟩
  change ok = false at eq
  rw [granted fails] at eq
  cases eq

/-- Nor does a granted rewrite. -/
theorem rewriteIfThere_returns (path : String) (q : Parser) :
    ¬ (rewriteIfThere path q).Returns Granted false := by
  intro h
  obtain ⟨a, -, h⟩ := Proc.Returns.of_bind h
  cases a with
  | true => exact outside_returns rfl h
  | false => cases h

/-- When no step fails, the scripts are disabled. -/
theorem disableScripts_returns : ¬ disableScripts.Returns Granted false := by
  intro h
  rcases Proc.Returns.of_and h with h | h
  · obtain ⟨a, -, h⟩ := Proc.Returns.of_bind h
    cases a with
    | true => exact outside_returns rfl h
    | false => cases h
  rcases Proc.Returns.of_and h with h | h
  · exact outside_returns rfl h
  rcases Proc.Returns.of_and h with h | h
  · exact outside_returns rfl h
  · exact rewriteIfThere_returns _ _ h

/-- The scripts that are restored before the library. -/
abbrev restoreScripts : LibProc Bool :=
  rewriteIfThere "S:User-Startup" .restore <&&> rewriteIfThere "S:Network-Startup" .restore

theorem elsewhere_restoreScripts : restoreScripts.Elsewhere :=
  (elsewhere_rewriteIfThere _ _).and (elsewhere_rewriteIfThere _ _)

theorem restoreScripts_returns : ¬ restoreScripts.Returns Granted false := fun h =>
  (Proc.Returns.of_and h).elim (rewriteIfThere_returns _ _) (rewriteIfThere_returns _ _)

/-! ## A step that is safe -/

/-- A safe apply keeps the original. -/
theorem has_apply (ws : Option WizardState) (there : d.Has .original)
    (safe : (Event.apply ws).Safe d) :
    (tnStackApplyReplacement ws).wp adm (·.Has .original) (fun _ d => d.Has .original) d := by
  unfold tnStackApplyReplacement
  split
  · exact there
  · rename_i ws
    split
    · exact there
    · rename_i replaces
      have safe := safe (by simpa [Event.Replaces] using replaces)
      rw [Proc.wp_bind]
      refine Proc.wp_elsewhere elsewhere_disableScripts there fun a _ => ?_
      cases a with
      | false => exact there
      | true =>
        rw [if_pos rfl, Proc.wp_bind]
        refine Proc.wp_elsewhere (elsewhere_stackSuffix ws) there fun suffix _ => ?_
        rw [Proc.wp_bind]
        exact has_storeLibrary there safe

/-- So does a safe undo. -/
theorem has_undo (there : d.Has .original) (safe : Event.undo.Safe d) :
    tnStackUndoReplacement.wp adm (·.Has .original) (fun _ d => d.Has .original) d := by
  unfold tnStackUndoReplacement
  rw [Proc.wp_bind]
  refine Proc.wp_elsewhere elsewhere_restoreScripts there fun a _ => ?_
  cases a with
  | false => exact there
  | true =>
    rw [if_pos rfl, Proc.wp_bind]
    exact has_restoreFirst there safe suffixes

/-- After a safe event the original is still there. -/
theorem Event.has_after {e : Event} (there : d.Has .original) (safe : e.Safe d)
    (answers : List Bool) : (e.after answers d).Has .original := by
  have admitted {α : Type} (p : LibProc α) : p.Admitted (fun _ _ => True) answers d :=
    Proc.admitted_of_forall (fun _ _ => trivial) p answers d
  cases e with
  | apply ws => exact Proc.wp_run_keeps (has_apply ws there safe) (admitted _)
  | undo => exact Proc.wp_run_keeps (has_undo there safe) (admitted _)
  | place id => exact there.write safe

/-- The original never gets a second name. -/
theorem Event.single_after (h : d.Single .original) (e : Event) (answers : List Bool) :
    (e.after answers d).Single .original := by
  cases e with
  | apply ws => exact Proc.single_run h _ answers
  | undo => exact Proc.single_run h _ answers
  | place id => exact Dir.Single.write (g := .other id) h (fun eq => (nomatch eq)) .live

/-! ## An undo in which no step fails -/

/-- The directory when a backup has been brought back. -/
def swapped (suffix : StackSuffix) (d : LibDir) : LibDir :=
  if d .live = none then d.move (.backup suffix) .live
  else (((d.erase .park).move .live .park).move (.backup suffix) .live).erase .park

/-- The directory after an undo in which no step fails. -/
def undone (ss : List StackSuffix) (d : LibDir) : LibDir :=
  match ss.find? fun suffix => (d (.backup suffix)).isSome with
  | some suffix => swapped suffix d
  | none => d

/-- A granted restore swaps backup and library. -/
theorem restoreLibrary_granted (backup : d (.backup suffix) ≠ none) :
    (restoreLibrary suffix).wp Granted (fun _ => True) (fun _ d' => d' = swapped suffix d) d := by
  unfold restoreLibrary swapped
  rw [Proc.wp_bind]
  refine Proc.wp_exists_granted (fun _ h => h) trivial ?_
  split
  · rename_i live
    rw [live, if_neg (by simp), Proc.wp_bind]
    exact Proc.wp_rename_granted (fun _ h => h) trivial backup live rfl
  · rename_i live
    rw [if_pos (by simpa [Option.isSome_iff_ne_none] using live), Proc.wp_bind]
    refine Proc.wp_delete_granted (fun _ h => h) trivial fun _ => ?_
    rw [Proc.wp_bind]
    refine Proc.wp_rename_granted (fun _ h => h) trivial (by simpa using live) (by simp) ?_
    rw [if_pos rfl, Proc.wp_bind]
    refine Proc.wp_rename_granted (fun _ h => h) trivial (by simpa using backup) (by simp) ?_
    rw [if_pos rfl, Proc.wp_bind]
    exact Proc.wp_delete_granted (fun _ h => h) trivial fun _ => rfl

/-- The first backup that is found is put back. -/
theorem restoreFirst_granted (d : LibDir) (ss : List StackSuffix) :
    (restoreFirst ss).wp Granted (fun _ => True) (fun _ d' => d' = undone ss d) d := by
  induction ss with
  | nil => rfl
  | cons suffix rest ih =>
    unfold restoreFirst undone
    rw [Proc.wp_bind]
    refine Proc.wp_exists_granted (fun _ h => h) trivial ?_
    rw [List.find?_cons]
    cases there : (d (.backup suffix)).isSome with
    | true => exact restoreLibrary_granted (Option.isSome_iff_ne_none.mp there)
    | false => exact ih

/-- So an undo does, when every step is granted. -/
theorem undo_granted (d : LibDir) :
    tnStackUndoReplacement.wp Granted (fun _ => True) (fun _ d' => d' = undone suffixes d) d := by
  unfold tnStackUndoReplacement
  rw [Proc.wp_bind]
  refine Proc.wp_elsewhere elsewhere_restoreScripts trivial fun a returned => ?_
  cases a with
  | false => exact absurd returned restoreScripts_returns
  | true =>
    rw [if_pos rfl, Proc.wp_bind]
    exact restoreFirst_granted d suffixes

/-- What an undo leaves. -/
theorem Event.Undone.after_eq {e : Event} (h : e.Undone answers d) :
    e.after answers d = undone suffixes d := by
  cases e with
  | apply ws => exact h.elim
  | place id => exact h.elim
  | undo =>
    rcases Proc.wp_run (undo_granted d) h.1 with ⟨a, -, eq⟩ | ⟨cut, -⟩
    · exact eq
    · have ended := h.2
      rw [cut] at ended
      cases ended

theorem swapped_live (suffix : StackSuffix) (d : LibDir) :
    swapped suffix d .live = d (.backup suffix) := by
  unfold swapped
  split <;> simp

/-- An undo brings back what it finds. -/
theorem undone_live (d : LibDir) : undone suffixes d .live = toRestore d := by
  unfold undone toRestore
  cases suffixes.find? fun suffix => (d (.backup suffix)).isSome with
  | some suffix => exact swapped_live suffix d
  | none => rfl

/-! ## An event that is not safe -/

/-- A replacement that finds the original parked deletes it. -/
theorem storeLibrary_granted (single : d.Single .original) (park : d .park = some .original)
    (live : d .live ≠ none) : (storeLibrary suffix).wp Granted (fun _ => True)
      (fun _ d => ¬ d.Has .original) d := by
  unfold storeLibrary
  rw [Proc.wp_bind]
  refine Proc.wp_exists_granted (fun _ h => h) trivial ?_
  rw [if_pos (Option.isSome_iff_ne_none.mpr live), Proc.wp_bind]
  exact Proc.wp_delete_granted (fun _ h => h) trivial fun _ => Proc.wp_not_has (single.not_has_erase park) _

/-- A granted apply over a parked original destroys it. -/
theorem apply_granted {ws : Option WizardState} (replaces : Event.Replaces ws)
    (single : d.Single .original) (park : d .park = some .original) (live : d .live ≠ none) :
    (tnStackApplyReplacement ws).wp Granted (fun _ => True) (fun _ d => ¬ d.Has .original) d := by
  unfold tnStackApplyReplacement
  split
  · cases replaces
  · rename_i ws
    rw [if_neg (by simpa [Event.Replaces] using replaces), Proc.wp_bind]
    refine Proc.wp_elsewhere elsewhere_disableScripts trivial fun a returned => ?_
    cases a with
    | false => exact absurd returned disableScripts_returns
    | true =>
      rw [if_pos rfl, Proc.wp_bind]
      refine Proc.wp_elsewhere (elsewhere_stackSuffix ws) trivial fun suffix _ => ?_
      rw [Proc.wp_bind]
      exact storeLibrary_granted single park live

/-- An undo that finds the original live or parked beside a backup deletes it. -/
theorem not_has_swapped (single : d.Single .original) (live : d .live ≠ none)
    (there : d .park = some .original ∨ d .live = some .original) :
    ¬ (swapped suffix d).Has .original := by
  unfold swapped
  rw [if_neg live]
  rcases there with park | original
  · exact Dir.not_has_erase (Dir.not_has_move (Dir.not_has_move (single.not_has_erase park) _ _) _ _) _
  · have single := ((single.erase .park).move (a := .live) (b := .park) (by decide)).move
      (a := .backup suffix) (b := .live) (by simp)
    exact single.not_has_erase (by simpa using original)

/-- The backup an undo puts back. -/
theorem exists_backup (h : ¬ NoBackup d) : ∃ suffix, undone suffixes d = swapped suffix d := by
  unfold undone
  cases found : suffixes.find? fun suffix => (d (.backup suffix)).isSome with
  | some suffix => exact ⟨suffix, rfl⟩
  | none =>
    refine absurd (fun suffix => ?_) h
    have listed : suffix ∈ suffixes := by cases suffix <;> decide
    simpa using List.find?_eq_none.mp found suffix listed

/-- With some answers an event that is not safe loses the original. -/
theorem Event.exists_loss {e : Event} (single : d.Single .original) (h : ¬ e.Safe d) :
    ∃ answers, ¬ (e.after answers d).Has .original := by
  have granted (op : Op LibName Outside) : Granted op true := by
    cases op with
    | outside e => exact fun _ => rfl
    | _ => rfl
  cases e with
  | apply ws =>
    simp only [Safe, not_forall, not_not] at h
    obtain ⟨replaces, live, park⟩ := h
    obtain ⟨answers, admitted, ended⟩ := Proc.exists_run granted (tnStackApplyReplacement ws) d
    rcases Proc.wp_run (apply_granted replaces single park live) admitted with ⟨a, -, lost⟩ | ⟨cut, -⟩
    · exact ⟨answers, lost⟩
    · rw [cut] at ended
      cases ended
  | undo =>
    simp only [Safe, not_forall] at h
    obtain ⟨backup, live, there⟩ := h
    obtain ⟨answers, undone⟩ := Proc.exists_run granted tnStackUndoReplacement d
    obtain ⟨suffix, eq⟩ := exists_backup backup
    refine ⟨answers, ?_⟩
    rw [Undone.after_eq (e := .undo) undone, eq]
    refine not_has_swapped single live ?_
    by_contra neither
    exact there ⟨fun park => neither (.inl park), fun original => neither (.inr original)⟩
  | place id =>
    simp only [Safe, not_not] at h
    exact ⟨[], single.not_has_write h fun eq => (nomatch eq)⟩

/-! ## The result -/

/-- A directory before the first call: the original has the live name only. -/
structure Start (d : LibDir) : Prop where
  live : d .live = some .original
  only : ∀ n, d n = some .original → n = .live

/-- A guarded run keeps the original. -/
theorem kept_of_guarded {run : List (Event × List Bool)} (there : d.Has .original)
    (guarded : Guarded d run) : Kept d run := by
  induction run generalizing d with
  | nil => trivial
  | cons turn rest ih =>
    obtain ⟨safe, found, guarded⟩ := guarded
    have there := Event.has_after there safe turn.2
    refine ⟨there, fun undo => ?_, ih there guarded⟩
    rw [undo.after_eq, undone_live]
    exact found undo

/-- A run that keeps it whatever fails is guarded. -/
theorem guarded_of_kept {run : List (Event × List Bool)} (single : d.Single .original)
    (kept : ∀ run', run'.map Prod.fst = run.map Prod.fst → Kept d run') : Guarded d run := by
  induction run generalizing d with
  | nil => trivial
  | cons turn rest ih =>
    obtain ⟨e, answers⟩ := turn
    refine ⟨?_, fun undo => ?_, ih (Event.single_after single e answers) fun run' same => ?_⟩
    · by_contra loss
      obtain ⟨answers', lost⟩ := Event.exists_loss single loss
      exact lost (kept ((e, answers') :: rest) rfl).1
    · rw [← undone_live, ← undo.after_eq]
      exact (kept _ rfl).2.1 undo
    · exact (kept ((e, answers) :: run') (congrArg (e :: ·) same)).2.2

/-- **When the original is kept.** It is kept by every run whose events all meet the condition; and when
the same events keep it whatever the answers are, then they all meet the condition. -/
theorem original_kept (start : Start d) : (∀ run, Guarded d run → Kept d run) ∧
    ∀ events, (∀ run, run.map Prod.fst = events → Kept d run) ↔
      ∀ run, run.map Prod.fst = events → Guarded d run := by
  have there : d.Has .original := ⟨_, start.live⟩
  have single : d.Single .original := fun a b ha hb => (start.only a ha).trans (start.only b hb).symm
  -- a run that keeps the original for all answers of the disk never meets an unsafe event
  refine ⟨fun run => kept_of_guarded there, fun events => ⟨?_, ?_⟩⟩
  · rintro kept run rfl
    exact guarded_of_kept single kept
  · exact fun guarded run same => kept_of_guarded there (guarded run same)

/-- A directory with the original and nothing else. -/
def untouched : LibDir := fun n => if n = .live then some .original else none

theorem start_untouched : Start untouched :=
  ⟨rfl, fun n h => by
    by_contra other
    simp [untouched, other] at h⟩

/-- The wizard when it has found Roadshow. -/
def wizard : Option WizardState := some { replaceStacks := true, stackNames := ["Roadshow".toList] }

/-- A replacement, a new library and an undo, in which no step fails. -/
theorem original_kept_undo : Kept untouched [(.apply wizard, List.replicate 10 true), (.place 0, []),
    (.undo, List.replicate 11 true)] :=
  (original_kept start_untouched).1 _
    ⟨fun _ _ => by decide, False.elim, fun original => absurd original (by decide), False.elim,
      fun _ _ => ⟨by decide, by decide⟩, fun _ => by decide, trivial⟩

/-- A replacement that is cut off when the original is parked, a new library, and a second replacement. -/
def interrupted : List (Event × List Bool) :=
  [(.apply wizard, List.replicate 9 true), (.place 0, []), (.apply wizard, List.replicate 10 true)]

/-- The condition is needed. -/
theorem not_kept_interrupted : ¬ ∀ d, Start d → ∀ run, Kept d run := fun kept => by
  obtain ⟨n, there⟩ := (kept untouched start_untouched interrupted).2.2.2.2.1
  rcases n with - | - | suffix
  · exact absurd there (by decide)
  · exact absurd there (by decide)
  · cases suffix <;> exact absurd there (by decide)

end Stack

end Tolunnet
