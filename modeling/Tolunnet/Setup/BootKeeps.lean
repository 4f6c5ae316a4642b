import Mathlib.Data.List.Flatten
import Tolunnet.Setup.BootBlock

/-!
# `Tolunnet.Setup.BootKeeps`: what the boot block editor keeps

`outside` is what the editor is for: the lines that are not between a BEGIN marker and an END marker
behind it. What it copies is `copied`, which differs in one point: behind a BEGIN marker without an END
marker nothing is copied. So the two agree exactly on the scripts in which every BEGIN marker is
followed by an END marker (`copied_eq_outside`, `copied_short`).

`apply_iff` is the result about the files: the editor never loses a line exactly when the script is
`Closed`. The other refusal that matters is that of `Open` and `Lock` together, after which the file
counts as missing. Nothing else can go wrong: a failed call leaves the old text under its own name or
under the one of the previous generation.
-/

set_option autoImplicit false

namespace Tolunnet

namespace Boot

open Segments

variable {ss ss' : List (Segment Char)} {t : Segment Char} {text : List Char} {enable : Bool}

/-! ## Markers -/

/-- A BEGIN marker, and an END marker. -/
def isBegin (t : Segment Char) : Bool := bbIsMarker t.text bbBegin
def isEnd (t : Segment Char) : Bool := bbIsMarker t.text bbEnd

/-- No line is both. -/
theorem isEnd_of_isBegin (h : isBegin t = true) : isEnd t = false := by
  unfold isBegin isEnd at *
  generalize t.text = line at *
  unfold bbIsMarker at *
  split at h
  · rename_i rest
    simp only [Bool.and_eq_true] at h
    generalize rest.dropWhile isSpace = word at *
    obtain ⟨tail, rfl⟩ := List.isPrefixOf_iff_prefix.mp h.1
    rfl
  · cases h

/-- The lines that are not between a BEGIN marker and an END marker behind it; `between` says whether
the first line is. -/
def outside : Bool → List (Segment Char) → List (Segment Char)
  | _, [] => []
  | true, t :: ss => outside (!isEnd t) ss
  | false, t :: ss =>
    if isBegin t && ss.any isEnd then outside true ss else t :: outside false ss

/-- Every BEGIN marker is followed by an END marker. -/
def Closed : List (Segment Char) → Prop
  | [] => True
  | t :: ss => (isBegin t = true → ∃ e ∈ ss, isEnd e = true) ∧ Closed ss

instance decidableClosed : DecidablePred Closed
  | [] => .isTrue trivial
  | _ :: ss =>
    have := decidableClosed ss
    inferInstanceAs (Decidable (_ ∧ _))

/-- The lines that the editor copies. -/
def copied : Bool → List (Segment Char) → List (Segment Char)
  | _, [] => []
  | inside, t :: ss =>
    if isBegin t then copied true ss
    else if inside then copied (!isEnd t) ss
    else t :: copied false ss

/-- The loop copies them. -/
theorem foldl_bootLine (inside : Bool) (out : List Char) (ss : List (Segment Char)) :
    (ss.foldl bootLine (inside, out)).2 = out ++ join '\n' (copied inside ss) := by
  induction ss generalizing inside out with
  | nil => simp [copied]
  | cons t ss ih =>
    have turn : bootLine (inside, out) t =
        if isBegin t then (true, out)
        else if inside then (!isEnd t, out) else (inside, out ++ t.joined '\n') := rfl
    rw [List.foldl_cons, turn]
    cases first : isBegin t with
    | true => simp [copied, first, ih]
    | false => cases inside <;> simp [copied, first, ih]

/-- The edit by the pieces of the text. -/
theorem bootEdit_eq (content : List Char) (enable : Bool) : bootEdit content enable =
    let out := join '\n' (copied false (segments '\n' content))
    if enable then terminate out ++ bbBlock else out := by
  simp only [bootEdit, foldl_bootLine, List.nil_append]

/-- Without the block the edit is what is copied. -/
theorem bootEdit_false (content : List Char) :
    bootEdit content false = join '\n' (copied false (segments '\n' content)) := by
  rw [bootEdit_eq]
  rfl

/-! ## What is copied -/

/-- An `END` further on. -/
theorem exists_end (h : isEnd t = false) : (∃ e ∈ t :: ss, isEnd e = true) ↔ ∃ e ∈ ss, isEnd e = true := by
  simp [h]

/-- In a closed script exactly the lines outside are copied. -/
theorem copied_eq_outside (closed : Closed ss) : copied false ss = outside false ss ∧
    ((∃ e ∈ ss, isEnd e = true) → copied true ss = outside true ss) := by
  induction ss with
  | nil => exact ⟨rfl, fun _ => rfl⟩
  | cons t ss ih =>
    obtain ⟨ih, ihEnd⟩ := ih closed.2
    cases first : isBegin t with
    | true =>
      have ended := closed.1 first
      have any : ss.any isEnd = true := by simpa using ended
      have noEnd := isEnd_of_isBegin first
      simp [copied, outside, first, any, noEnd, ihEnd ended]
    | false =>
      refine ⟨by simp [copied, outside, first, ih], fun ended => ?_⟩
      cases last : isEnd t with
      | true => simp [copied, outside, first, last, ih]
      | false => simp [copied, outside, first, last, ihEnd ((exists_end last).mp ended)]

/-- Behind a BEGIN marker without an END marker nothing is copied. -/
theorem copied_true_of_no_end (h : ∀ e ∈ ss, isEnd e = false) : copied true ss = [] := by
  induction ss with
  | nil => rfl
  | cons t ss ih =>
    have rest := ih fun e mem => h e (List.mem_cons_of_mem t mem)
    cases first : isBegin t <;> simp [copied, first, h t List.mem_cons_self, rest]

/-- In a script that is not closed fewer lines are copied than stand outside. -/
theorem copied_short (open_ : ¬ Closed ss) :
    (copied false ss).length < (outside false ss).length ∧
    ((∃ e ∈ ss, isEnd e = true) → (copied true ss).length < (outside true ss).length) := by
  induction ss with
  | nil => exact absurd trivial open_
  | cons t ss ih =>
    cases first : isBegin t with
    | true =>
      have noEnd := isEnd_of_isBegin first
      by_cases ended : ∃ e ∈ ss, isEnd e = true
      · have rest := (ih fun closed => open_ ⟨fun _ => ended, closed⟩).2 ended
        have any : ss.any isEnd = true := by simpa using ended
        exact ⟨by simpa [copied, outside, first, any], fun _ => by
          simpa [copied, outside, first, noEnd]⟩
      · have any : ss.any isEnd = false := by simpa using ended
        have none := @copied_true_of_no_end ss (by simpa using ended)
        refine ⟨by simp [copied, outside, first, any, none], fun h => ?_⟩
        exact absurd ((exists_end noEnd).mp h) ended
    | false =>
      have rest := ih fun closed => open_ ⟨fun h => (by rw [first] at h; cases h), closed⟩
      refine ⟨by simpa [copied, outside, first] using rest.1, fun h => ?_⟩
      cases last : isEnd t with
      | true => simpa [copied, outside, first, last] using rest.1
      | false => simpa [copied, outside, first, last] using rest.2 ((exists_end last).mp h)

/-- Both lists are lines of the script, in its order. -/
theorem outside_sublist (between : Bool) (ss : List (Segment Char)) :
    (outside between ss).Sublist ss := by
  induction ss generalizing between with
  | nil => cases between <;> exact List.Sublist.refl _
  | cons t ss ih =>
    cases between with
    | true => exact (ih _).cons t
    | false =>
      unfold outside
      split
      · exact (ih true).cons t
      · exact (ih false).cons_cons t

/-- What is copied is part of what was there. -/
theorem copied_sublist (inside : Bool) (ss : List (Segment Char)) :
    (copied inside ss).Sublist ss := by
  induction ss generalizing inside with
  | nil => exact List.Sublist.refl _
  | cons t ss ih =>
    unfold copied
    split
    · exact (ih true).cons t
    split
    · exact (ih _).cons t
    · exact (ih false).cons_cons t

/-- No BEGIN marker is copied. -/
theorem isBegin_of_mem_copied {inside : Bool} (h : t ∈ copied inside ss) : isBegin t = false := by
  induction ss generalizing inside with
  | nil => cases h
  | cons s ss ih =>
    unfold copied at h
    split at h
    · exact ih h
    · split at h
      · exact ih h
      · rename_i no _
        rcases List.mem_cons.mp h with rfl | h
        · simpa using no
        · exact ih h

/-- Lines without a BEGIN marker are all copied. -/
theorem copied_append (none : ∀ t ∈ ss, isBegin t = false) (ss' : List (Segment Char)) :
    copied false (ss ++ ss') = ss ++ copied false ss' := by
  induction ss with
  | nil => rfl
  | cons t ss ih =>
    rw [List.cons_append, copied, none t List.mem_cons_self,
      ih fun s mem => none s (List.mem_cons_of_mem t mem)]
    rfl

/-! ## The text -/

/-- Part of a text is formed as the text is. -/
theorem formed_sublist (h : ss'.Sublist ss) (formed : Formed '\n' ss) : Formed '\n' ss' := by
  induction h with
  | slnil => trivial
  | cons t _ ih => exact ih formed.tail
  | @cons_cons ss' ss t sub ih =>
    have rest := ih formed.tail
    cases ss' with
    | nil =>
      cases ss with
      | nil => exact formed
      | cons s ss => exact ⟨formed.1, .inl formed.2.1⟩
    | cons s' ss' =>
      cases ss with
      | nil => cases sub
      | cons s ss => exact ⟨formed.1, formed.2.1, rest⟩

/-- So is what is copied. -/
theorem formed_copied (text : List Char) :
    Formed '\n' (copied false (segments '\n' text)) :=
  formed_sublist (copied_sublist false _) (formed_segments text)

/-- All lines ended. -/
def endAll (ss : List (Segment Char)) : List (Segment Char) := ss.map fun t => { t with ended := true }

/-- Lines that are all ended. -/
theorem mem_endAll (formed : Formed '\n' ss) : ∀ t ∈ endAll ss, '\n' ∉ t.text ∧ t.ended = true := by
  intro t mem
  obtain ⟨s, there, rfl⟩ := List.mem_map.mp mem
  exact ⟨formed.forall_not_mem s there, rfl⟩

/-- The last newline is all that the ended lines can have in addition. -/
theorem terminate_join (formed : Formed '\n' ss) :
    terminate (join '\n' ss) = join '\n' (endAll ss) ∧
      (terminate (join '\n' ss) = join '\n' ss ∨
        terminate (join '\n' ss) = join '\n' ss ++ ['\n']) := by
  refine ⟨?_, ?_⟩
  · induction ss with
    | nil => rfl
    | cons t ss ih =>
      cases ss with
      | nil =>
        obtain ⟨text, ended⟩ := t
        cases ended with
        | true => simp [terminate, endAll, Segment.joined, join]
        | false =>
          have some : text ≠ [] := formed.2.resolve_left (by simp)
          obtain ⟨init, last, rfl⟩ : ∃ init last, text = init ++ [last] :=
            ⟨_, _, (List.dropLast_append_getLast some).symm⟩
          have other : last ≠ '\n' := fun eq => formed.1 (by simp [eq])
          simp [terminate, endAll, Segment.joined, join, other]
      | cons s ss =>
        have ih := ih formed.tail
        have more : join '\n' (s :: ss) ≠ [] := by
          cases ss with
          | nil =>
            rcases formed.2.2.2 with ended | some
            · simp [Segment.joined, ended]
            · cases ended : s.ended <;> simp [Segment.joined, ended, some]
          | cons s' ss => simp [Segment.joined, formed.2.2.2.1]
        have last : (join '\n' (t :: s :: ss)).getLast? = (join '\n' (s :: ss)).getLast? := by
          rw [join_cons, List.getLast?_append_of_ne_nil _ more]
        have whole : (t.joined '\n' ++ join '\n' (s :: ss)) = join '\n' (t :: s :: ss) := rfl
        have front : t.joined '\n' = ({ t with ended := true } : Segment Char).joined '\n' := by
          simp [Segment.joined, formed.2.1]
        have eq : terminate (join '\n' (t :: s :: ss)) = t.joined '\n' ++ terminate (join '\n' (s :: ss)) := by
          unfold terminate
          rw [last]
          split
          · rw [← whole, List.append_assoc]
          · rfl
        rw [eq, ih, front]
        rfl
  · unfold terminate
    split
    · exact .inr rfl
    · exact .inl rfl

/-- The text in front of the block, as lines. -/
theorem segments_front (text : List Char) :
    segments '\n' (terminate (bootEdit text false)) = endAll (copied false (segments '\n' text)) := by
  have formed := formed_copied text
  rw [bootEdit_false, (terminate_join formed).1]
  have all := segments_join_append (mem_endAll formed) []
  simpa using all

/-- The text with the block, by its pieces. -/
theorem segments_enabled (text : List Char) : segments '\n' (bootEdit text true) =
    endAll (copied false (segments '\n' text)) ++ segments '\n' bbBlock := by
  have formed := formed_copied text
  rw [bootEdit_eq]
  show segments '\n' (terminate (join '\n' _) ++ bbBlock) = _
  rw [(terminate_join formed).1]
  exact segments_join_append (mem_endAll formed) bbBlock

/-- No line of what is copied begins a block. -/
theorem isBegin_of_mem_endAll (h : t ∈ endAll (copied false ss)) : isBegin t = false := by
  obtain ⟨s, there, rfl⟩ := List.mem_map.mp h
  exact isBegin_of_mem_copied (t := s) there

/-- Nothing of the block is copied. -/
theorem copied_block : copied false (segments '\n' bbBlock) = [] := by
  decide +kernel

/-- The block is one, and has one BEGIN marker. -/
theorem countP_block : (segments '\n' bbBlock).countP isBegin = 1 := by
  decide +kernel

/-- There is one block, which is the own one at the end. -/
theorem countP_enabled (text : List Char) :
    (segments '\n' (bootEdit text true)).countP isBegin = 1 := by
  rw [segments_enabled, List.countP_append, countP_block, List.countP_eq_zero.mpr]
  intro t mem
  simp [isBegin_of_mem_endAll mem]

/-- With the block the edit is what is copied, ended, and the block. -/
theorem bootEdit_true (text : List Char) :
    bootEdit text true = terminate (bootEdit text false) ++ bbBlock := by
  rw [bootEdit_eq, bootEdit_false]
  rfl

/-- The block goes when the program is disabled, and leaves a newline behind at most. -/
theorem disable_enable (text : List Char) :
    bootEdit (bootEdit text true) false = terminate (bootEdit text false) := by
  have formed := formed_copied text
  rw [bootEdit_false, segments_enabled, copied_append fun t mem => isBegin_of_mem_endAll mem, copied_block,
    List.append_nil, bootEdit_false]
  exact (terminate_join formed).1.symm

/-- At most a newline is added. -/
theorem terminate_bootEdit (text : List Char) :
    terminate (bootEdit text false) = bootEdit text false ∨
      terminate (bootEdit text false) = bootEdit text false ++ ['\n'] := by
  rw [bootEdit_false]
  exact (terminate_join (formed_copied text)).2

/-- The second newline is not. -/
theorem terminate_terminate (out : List Char) : terminate (terminate out) = terminate out := by
  unfold terminate
  split
  · simp
  · rfl

/-- Enabling twice is enabling once. -/
theorem enable_enable (text : List Char) : bootEdit (bootEdit text true) true = bootEdit text true := by
  rw [bootEdit_true (bootEdit text true), disable_enable, terminate_terminate, bootEdit_true]

/-! ## The calls -/

/-- Copying writes to neither file. -/
theorem bbCopyLoop_disk (fuel : Nat) (rest copy : List Char) (s : DosState) :
    (bbCopyLoop fuel rest copy s).1.disk = s.disk := by
  induction fuel generalizing rest copy s with
  | zero => rfl
  | succ fuel ih =>
    have same := dosRead_disk s rest 1024
    unfold bbCopyLoop
    split
    · rename_i got
      rwa [got] at same
    · rename_i got
      rw [got] at same
      split
      · exact same
      split
      · exact (ih _ _ _).trans same
      · exact same

/-- Nor does making the backup. -/
theorem seedBak_disk (s : BootState) : (seedBak s).dos.disk = s.dos.disk := by
  have copy (s : BootState) : (bbCopyOnce s).dos.disk = s.dos.disk := by
    unfold bbCopyOnce
    have opened := dosOpenOld_disk s.dos .path
    split
    · rename_i got
      rwa [got] at opened
    · rename_i dos got
      rw [got] at opened
      have called := (dosCall_disk dos).trans opened
      split
      · rename_i got'
        rwa [got'] at called
      · rename_i dos' got'
        rw [got'] at called
        dsimp only
        have looped := (bbCopyLoop_disk (((dos'.disk .path).getD []).length + 1)
          ((dos'.disk .path).getD []) [] dos').trans called
        split
        · exact looped
        split
        · exact looped
        · exact looped
  unfold seedBak
  split
  · rfl
  · exact copy _

/-- What a rewrite does: the new text is in place, or the old file is where it was or in the previous
generation. -/
theorem bootRewrite_spec (enable : Bool) (file : Option (List Char)) (s : BootState) :
    ((bootRewrite enable file s).2 = true →
      (bootRewrite enable file s).1.dos.disk .path = some (bootEdit (file.getD []) enable)) ∧
    ((bootRewrite enable file s).2 = false →
      (bootRewrite enable file s).1.dos.disk .path = s.dos.disk .path ∨
        (bootRewrite enable file s).1.dos.disk .bak = s.dos.disk .path) := by
  unfold bootRewrite
  extract_lets close content
  have closed (dos : DosState) : (close dos).disk = dos.disk := by
    unfold close
    split <;> rfl
  dsimp only
  split
  · exact ⟨fun ok => (nomatch ok), fun _ => .inl (congrFun (closed _) _)⟩
  · have read := readLoop_disk content.length [] content (dosCall (dosCall s.dos).1).1
    have whole := @readLoop_whole (dosCall (dosCall s.dos).1).1 content.length [] content
    generalize readLoop content.length [] content (dosCall (dosCall s.dos).1).1 = got at read whole ⊢
    have disk : (close got.1).disk = s.dos.disk := (closed _).trans read
    split
    · exact ⟨fun ok => (nomatch ok), fun _ => .inl (congrFun disk _)⟩
    · rename_i all
      have buf : got.2 = content := whole (by simpa using all)
      have seeded : (if file.isSome then seedBak { s with dos := close got.1 }
          else { s with dos := close got.1 }).dos.disk = s.dos.disk := by
        split
        · exact (seedBak_disk _).trans disk
        · exact disk
      generalize (if file.isSome then seedBak { s with dos := close got.1 }
          else { s with dos := close got.1 }) = s' at seeded ⊢
      obtain ⟨done, failed⟩ := installText_spec s'.dos (bootEdit got.2 enable)
      rw [seeded] at failed
      rw [buf] at done failed ⊢
      exact ⟨done, fun h => (failed h).imp_right (·.2)⟩

/-- Whether `bb_suffix_path` has room for the three names. -/
def PathFits (path : List Char) : Prop := path ≠ [] ∧ path.length ≤ 285

/-- The names fit when the path does. -/
theorem bbSuffixPath_fits {path : List Char} (fits : PathFits path) : ¬
    (bbSuffixPath path ".tolunnet-new".toList = none ∨
      bbSuffixPath path ".tolunnet-prev".toList = none ∨
      bbSuffixPath path ".tolunnet-bak".toList = none) := by
  have short (suffix : List Char) (h : suffix.length ≤ 14) : bbSuffixPath path suffix ≠ none := by
    obtain ⟨some, len⟩ := fits
    rw [bbSuffixPath, if_neg (by simp only [some, false_or]; omega)]
    simp
  have new : ".tolunnet-new".toList.length ≤ 14 := by decide
  have prev : ".tolunnet-prev".toList.length ≤ 14 := by decide
  have bak : ".tolunnet-bak".toList.length ≤ 14 := by decide
  simp only [short _ new, short _ prev, short _ bak, or_self, not_false_eq_true]

/-- They do not when it does not. -/
theorem bbSuffixPath_not_fits {path : List Char} (fits : ¬ PathFits path) :
    bbSuffixPath path ".tolunnet-prev".toList = none := by
  have len : ".tolunnet-prev".toList.length = 14 := by decide
  rw [bbSuffixPath, if_pos]
  rw [len]
  by_cases none : path = []
  · exact .inl none
  · right
    by_contra short
    exact fits ⟨none, by omega⟩

/-- The file is opened: it is there and the first call is not refused. -/
def Opened (s : BootState) : Prop := s.dos.ask.ok = true ∧ (s.dos.disk .path).isSome

/-- What a call leaves behind. -/
inductive Applied (path : List Char) (enable : Bool) (s : BootState) : BootState × Bool → Prop
  | edited (s' : BootState) (fits : PathFits path) (opened : Opened s)
      (examined : s.dos.asked.ask.ok = true)
      (new : s'.dos.disk .path = some (bootEdit ((s.dos.disk .path).getD []) enable)) :
      Applied path enable s (s', true)
  | created (s' : BootState) (fits : PathFits path) (missing : ¬ Opened s)
      (refused : s.dos.asked.ask.ok = false ∨ s.dos.disk .path = none) (on : enable = true)
      (new : s'.dos.disk .path = some (bootEdit [] enable)) : Applied path enable s (s', true)
  | absent (s' : BootState) (missing : ¬ Opened s) (off : enable = false)
      (same : s'.dos.disk .path = s.dos.disk .path) : Applied path enable s (s', true)
  | failed (s' : BootState) (kept : s'.dos.disk .path = s.dos.disk .path ∨
      s'.dos.disk .bak = s.dos.disk .path) : Applied path enable s (s', false)

/-- What the call does to the disk, step by step. -/
theorem applied (path : List Char) (enable : Bool) (s : BootState) :
    Applied path enable s (tnBootBlockApply path enable s) := by
  have rewritten (file : Option (List Char)) (s' : BootState) (same : s'.dos.disk = s.dos.disk)
      (done : ∀ s'', s''.dos.disk .path = some (bootEdit (file.getD []) enable) →
        Applied path enable s (s'', true)) : Applied path enable s (bootRewrite enable file s') := by
    obtain ⟨ok, failed⟩ := bootRewrite_spec enable file s'
    rw [same] at failed
    generalize bootRewrite enable file s' = r at ok failed ⊢
    obtain ⟨s'', result⟩ := r
    cases result with
    | true => exact done s'' (ok rfl)
    | false => exact .failed s'' (failed rfl)
  unfold tnBootBlockApply
  split
  · exact .failed s (.inl rfl)
  rename_i suffixes
  have fits : PathFits path := by
    by_contra long
    exact suffixes (.inr (.inl (bbSuffixPath_not_fits long)))
  have first : dosOpenOld s.dos .path =
    (s.dos.asked, s.dos.ask.ok && (s.dos.disk .path).isSome) := rfl
  rw [first]
  cases open_ : s.dos.ask.ok && (s.dos.disk .path).isSome with
  | true =>
    have opened : Opened s := by simpa [Opened] using open_
    have second : dosCall s.dos.asked = (s.dos.asked.asked, s.dos.asked.ask.ok) := rfl
    dsimp only
    rw [second]
    cases examined : s.dos.asked.ask.ok with
    | false => exact .failed _ (.inl rfl)
    | true =>
      exact rewritten (s.dos.disk .path) _ rfl fun s'' new => .edited s'' fits opened examined new
  | false =>
    have missing : ¬ Opened s := fun opened => by simp [opened.1, opened.2] at open_
    have second : dosOpenOld s.dos.asked .path =
      (s.dos.asked.asked, s.dos.asked.ask.ok && (s.dos.disk .path).isSome) := rfl
    dsimp only
    rw [second]
    cases lock : s.dos.asked.ask.ok && (s.dos.disk .path).isSome with
    | true => exact .failed _ (.inl rfl)
    | false =>
      have refused : s.dos.asked.ask.ok = false ∨ s.dos.disk .path = none := by
        cases ask : s.dos.asked.ask.ok with
        | true => simpa [ask] using lock
        | false => exact .inl rfl
      cases enable with
      | false => exact .absent _ missing rfl rfl
      | true => exact rewritten none _ rfl fun s'' new =>
        .created s'' fits missing refused rfl new

/-! ## When nothing more is refused -/

/-- The calls still to come are answered like this. -/
def answering (s : BootState) (answers : List DosAnswer) : BootState :=
  { s with dos := { s.dos with answers } }

/-- Copying asks for no more answers. -/
theorem bbCopyLoop_willing {s : DosState} (h : s.answers = []) (fuel : Nat) (rest copy : List Char) :
    (bbCopyLoop fuel rest copy s).1.answers = [] := by
  induction fuel generalizing rest copy s with
  | zero => exact h
  | succ fuel ih =>
    have read : (dosRead s rest 1024).1.answers = [] := by
      unfold dosRead
      split <;> exact asked_willing h
    unfold bbCopyLoop
    split
    · rename_i got
      rwa [got] at read
    · rename_i got
      rw [got] at read
      split
      · exact read
      split
      · exact ih (asked_willing read) _ _
      · exact asked_willing read

/-- Nor does the backup. -/
theorem seedBak_willing {s : BootState} (h : s.dos.answers = []) : (seedBak s).dos.answers = [] := by
  have copy {s : BootState} (h : s.dos.answers = []) : (bbCopyOnce s).dos.answers = [] := by
    unfold bbCopyOnce
    have opened : (dosOpenOld s.dos .path).1.answers = [] := asked_willing h
    split
    · rename_i got
      rwa [got] at opened
    · rename_i dos got
      rw [got] at opened
      have called : (dosCall dos).1.answers = [] := asked_willing opened
      split
      · rename_i got'
        rw [got'] at called
        exact asked_willing called
      · rename_i dos' got'
        rw [got'] at called
        dsimp only
        have looped := bbCopyLoop_willing called (((dos'.disk .path).getD []).length + 1)
          ((dos'.disk .path).getD []) []
        have closed := asked_willing (asked_willing looped)
        split
        · exact closed
        split
        · exact asked_willing closed
        · exact asked_willing closed
  unfold seedBak
  split
  · exact asked_willing h
  · exact copy (asked_willing h)

/-- Without refusals the file is rewritten. -/
theorem bootRewrite_willing {s : BootState} (h : s.dos.answers = []) (enable : Bool)
    (file : Option (List Char)) : (bootRewrite enable file s).2 = true := by
  unfold bootRewrite
  extract_lets close content
  have closed {dos : DosState} (h : dos.answers = []) : (close dos).answers = [] := by
    unfold close
    split
    · exact asked_willing h
    · exact h
  have memory : dosCall s.dos = (s.dos.asked, true) := by simp [dosCall, ask_willing h]
  have memory' : dosCall s.dos.asked = (s.dos.asked.asked, true) := by
    simp [dosCall, ask_willing (asked_willing h)]
  rw [memory]
  dsimp only
  rw [memory']
  dsimp only
  rw [if_neg (by simp)]
  obtain ⟨none, whole⟩ := @readLoop_willing _ (asked_willing (asked_willing h)) _ [] content (Nat.le_refl _)
  generalize readLoop content.length [] content s.dos.asked.asked = got at none whole ⊢
  rw [if_neg (by rw [whole]; simp)]
  refine installText_willing ?_
  split
  · exact seedBak_willing (closed none)
  · exact closed none

/-! ## The result -/

/-- The lines outside as they stand in the new script: the block that is put behind them ends the last
one, if it has no newline of its own. -/
def carried (enable : Bool) (old : List Char) : List (Segment Char) :=
  if enable then endAll (outside false (segments '\n' old)) else outside false (segments '\n' old)

/-- The lines outside are still there byte for byte, in their order; the block of an enabled program is
behind them. -/
def Keeps (enable : Bool) (old new : List Char) : Prop :=
  ∃ kept, new = kept ++ (if enable then bbBlock else []) ∧
    (carried enable old).Sublist (segments '\n' kept)

/-- A closed text keeps every line outside the block. -/
theorem keeps_edit (closed : Closed (segments '\n' text)) (enable : Bool) :
    Keeps enable text (bootEdit text enable) := by
  rw [Keeps, carried, ← (copied_eq_outside closed).1]
  cases enable with
  | true =>
    refine ⟨terminate (bootEdit text false), bootEdit_true text, ?_⟩
    rw [segments_front]
    exact List.Sublist.refl _
  | false =>
    refine ⟨bootEdit text false, (List.append_nil _).symm, ?_⟩
    rw [bootEdit_false, segments_join (formed_copied text)]
    exact List.Sublist.refl _

/-- A text that keeps them all is closed. -/
theorem closed_of_keeps (h : Keeps false text (bootEdit text false)) : Closed (segments '\n' text) := by
  obtain ⟨kept, eq, sub⟩ := h
  rw [show kept = bootEdit text false by simpa using eq.symm, bootEdit_false,
    segments_join (formed_copied text)] at sub
  have len : (outside false (segments '\n' text)).length ≤ (copied false (segments '\n' text)).length :=
    sub.length_le
  by_contra open_
  exact absurd (copied_short open_).1 (Nat.not_lt.mpr len)

/-- What a call on a script promises, with the answers `a` and `b` to its first two calls of
dos.library, whatever the later answers are. -/
structure Safe (path : List Char) (s : BootState) (a b : DosAnswer) : Prop where
  lines : ∀ enable rest, (tnBootBlockApply path enable (answering s (a :: b :: rest))).2 = true →
    Keeps enable ((s.dos.disk .path).getD [])
      (((tnBootBlockApply path enable (answering s (a :: b :: rest))).1.dos.disk .path).getD [])
  block : ∀ rest, (tnBootBlockApply path true (answering s (a :: b :: rest))).2 = true →
    ∃ front, (tnBootBlockApply path true (answering s (a :: b :: rest))).1.dos.disk .path =
        some (front ++ bbBlock) ∧ terminate front = front ∧
      (segments '\n' (front ++ bbBlock)).countP isBegin = 1
  again : ∀ rest c later, c.ok = true →
    ∀ first, first = tnBootBlockApply path true (answering s (a :: b :: rest)) →
    ∀ second, second = tnBootBlockApply path true (answering first.1 (c :: later)) →
    first.2 = true → second.2 = true → second.1.dos.disk .path = first.1.dos.disk .path
  undone : ∀ rest c later d more, c.ok = true → d.ok = true →
    ∀ first, first = tnBootBlockApply path true (answering s (a :: b :: rest)) →
    ∀ second, second = tnBootBlockApply path false (answering first.1 (c :: later)) →
    ∀ alone, alone = tnBootBlockApply path false (answering s (d :: more)) →
    first.2 = true → second.2 = true → alone.2 = true →
    (second.1.dos.disk .path).getD [] = (alone.1.dos.disk .path).getD [] ∨
      (second.1.dos.disk .path).getD [] = (alone.1.dos.disk .path).getD [] ++ ['\n']
  failed : ∀ enable rest, (tnBootBlockApply path enable (answering s (a :: b :: rest))).2 = false →
    (tnBootBlockApply path enable (answering s (a :: b :: rest))).1.dos.disk .path =
        s.dos.disk .path ∨
      (tnBootBlockApply path enable (answering s (a :: b :: rest))).1.dos.disk .bak =
        s.dos.disk .path

variable {path : List Char} {s : BootState} {a b : DosAnswer}

/-- Nothing is copied when nothing stands outside. -/
theorem bootEdit_of_outside (h : outside false (segments '\n' text) = []) : bootEdit text false = [] := by
  have none : copied false (segments '\n' text) = [] := by
    by_cases closed : Closed (segments '\n' text)
    · rw [(copied_eq_outside closed).1, h]
    · have short := (copied_short closed).1
      rw [h] at short
      exact absurd short (Nat.not_lt_zero _)
  rw [bootEdit_false, none]
  rfl

/-- The condition under which the editor keeps its promises. -/
def Fine (path : List Char) (old : Option (List Char)) (a b : DosAnswer) : Prop :=
  PathFits path →
    (a.ok = true → b.ok = true → Closed (segments '\n' (old.getD []))) ∧
    (a.ok = false → b.ok = false → outside false (segments '\n' (old.getD [])) = [])

/-- A file that counts as missing has no line outside. -/
theorem Fine.missing {rest : List DosAnswer} (fine : Fine path (s.dos.disk .path) a b)
    (fits : PathFits path) (missing : ¬ Opened (answering s (a :: b :: rest)))
    (refused : b.ok = false ∨ s.dos.disk .path = none) :
    outside false (segments '\n' ((s.dos.disk .path).getD [])) = [] := by
  cases file : s.dos.disk .path with
  | none => rfl
  | some old =>
    have there : (s.dos.disk .path).isSome := by simp [file]
    have closedDoor : a.ok = false := by
      cases ok : a.ok with
      | true => exact absurd ⟨ok, there⟩ missing
      | false => rfl
    have locked : b.ok = false := refused.resolve_right (by simp [file])
    rw [← file]
    exact (fine fits).2 closedDoor locked

/-- The call keeps the lines. -/
theorem Fine.lines (fine : Fine path (s.dos.disk .path) a b) (enable : Bool) (rest : List DosAnswer)
    (ok : (tnBootBlockApply path enable (answering s (a :: b :: rest))).2 = true) :
    Keeps enable ((s.dos.disk .path).getD [])
      (((tnBootBlockApply path enable (answering s (a :: b :: rest))).1.dos.disk .path).getD []) := by
  have done := applied path enable (answering s (a :: b :: rest))
  generalize tnBootBlockApply path enable (answering s (a :: b :: rest)) = r at ok done ⊢
  cases done with
  | edited s' fits opened examined new =>
    rw [new]
    exact keeps_edit ((fine fits).1 opened.1 examined) enable
  | created s' fits missing refused on new =>
    have none := fine.missing fits missing refused
    rw [new, on]
    refine ⟨[], rfl, ?_⟩
    rw [carried, none]
    exact List.nil_sublist _
  | absent s' missing off same =>
    rw [same, off]
    refine ⟨(s.dos.disk .path).getD [], (List.append_nil _).symm, ?_⟩
    exact outside_sublist false _
  | failed s' kept => cases ok

/-- An enabled script has its own block at the end. -/
theorem enabled (ok : (tnBootBlockApply path true s).2 = true) :
    ∃ text, (tnBootBlockApply path true s).1.dos.disk .path = some (bootEdit text true) ∧
      ((Opened s ∧ text = (s.dos.disk .path).getD []) ∨ (¬ Opened s ∧ PathFits path ∧ text = [] ∧
        (s.dos.asked.ask.ok = false ∨ s.dos.disk .path = none))) := by
  have done := applied path true s
  generalize tnBootBlockApply path true s = r at ok done ⊢
  cases done with
  | edited s' fits opened examined new => exact ⟨_, new, .inl ⟨opened, rfl⟩⟩
  | created s' fits missing refused on new => exact ⟨_, new, .inr ⟨missing, fits, rfl, refused⟩⟩
  | absent s' missing off same => cases off
  | failed s' kept => cases ok

/-- What a script that is opened becomes. -/
theorem edited {enable : Bool} (opened : Opened s) (ok : (tnBootBlockApply path enable s).2 = true) :
    (tnBootBlockApply path enable s).1.dos.disk .path =
      some (bootEdit ((s.dos.disk .path).getD []) enable) := by
  have done := applied path enable s
  generalize tnBootBlockApply path enable s = r at ok done ⊢
  cases done with
  | edited s' fits opened examined new => exact new
  | created s' fits missing refused on new => exact absurd opened missing
  | absent s' missing off same => exact absurd opened missing
  | failed s' kept => cases ok

/-- A call on a script that a call has left. -/
theorem edited_again {enable : Bool} {c : DosAnswer} {later : List DosAnswer} (door : c.ok = true)
    (new : s.dos.disk .path = some text)
    (ok : (tnBootBlockApply path enable (answering s (c :: later))).2 = true) :
    (tnBootBlockApply path enable (answering s (c :: later))).1.dos.disk .path =
      some (bootEdit text enable) := by
  have there : (s.dos.disk .path).isSome := by simp [new]
  have opened : Opened (answering s (c :: later)) := ⟨door, there⟩
  rw [edited opened ok, show (answering s (c :: later)).dos.disk .path = some text from new]
  rfl

/-- Such answers lose nothing. -/
theorem Fine.safe (fine : Fine path (s.dos.disk .path) a b) : Safe path s a b where
  lines := fine.lines
  block rest ok := by
    obtain ⟨text, new, -⟩ := enabled ok
    refine ⟨terminate (bootEdit text false), ?_, terminate_terminate _, ?_⟩
    · rw [new, bootEdit_true]
    · rw [← bootEdit_true]
      exact countP_enabled text
  again rest c later door first hfirst second hsecond ok ok' := by
    subst hfirst
    subst hsecond
    obtain ⟨text, new, -⟩ := enabled ok
    rw [edited_again door new ok', new, enable_enable]
  undone rest c later d more door door' first hfirst second hsecond alone halone ok ok' ok'' := by
    subst hfirst
    subst hsecond
    subst halone
    obtain ⟨text, new, origin⟩ := enabled ok
    rw [edited_again door new ok', disable_enable]
    cases file : s.dos.disk .path with
    | none =>
      -- there was no file: nothing is left but an empty one
      have empty : text = [] := by
        rcases origin with ⟨-, eq⟩ | ⟨-, -, eq, -⟩
        · rw [eq, show (answering s (a :: b :: rest)).dos.disk .path = none from file]
          rfl
        · exact eq
      have done := applied path false (answering s (d :: more))
      generalize tnBootBlockApply path false (answering s (d :: more)) = r at ok'' done ⊢
      rw [empty]
      left
      cases done with
      | edited s' fits opened examined new =>
        rw [new, show (answering s (d :: more)).dos.disk .path = none from file]
        rfl
      | created s' fits missing refused on new => cases on
      | absent s' missing off same =>
        rw [same, show (answering s (d :: more)).dos.disk .path = none from file]
        rfl
      | failed s' kept => cases ok''
    | some old =>
      rw [edited_again door' file ok'']
      rcases origin with ⟨-, eq⟩ | ⟨missing, fits, eq, refused⟩
      · rw [eq, show (answering s (a :: b :: rest)).dos.disk .path = some old from file]
        exact terminate_bootEdit old
      · have none := fine.missing fits missing refused
        rw [file] at none
        have gone : bootEdit old false = [] := bootEdit_of_outside none
        rw [eq, gone]
        exact .inl rfl
  failed enable rest ok := by
    have done := applied path enable (answering s (a :: b :: rest))
    generalize tnBootBlockApply path enable (answering s (a :: b :: rest)) = r at ok done ⊢
    cases done with
    | edited => cases ok
    | created => cases ok
    | absent => cases ok
    | failed s' kept => exact kept

/-- A script that is opened is edited, when no later call is refused. -/
theorem edits (fits : PathFits path) (enable : Bool) (door : a.ok = true) (examined : b.ok = true)
    {old : List Char} (file : s.dos.disk .path = some old) :
    (tnBootBlockApply path enable (answering s [a, b])).2 = true := by
  unfold tnBootBlockApply
  rw [if_neg (bbSuffixPath_fits fits)]
  have first : dosOpenOld (answering s [a, b]).dos .path = ((answering s [a, b]).dos.asked, true) := by
    simp [dosOpenOld, DosState.ask, answering, door, file]
  have second : dosCall (answering s [a, b]).dos.asked =
      ((answering s [a, b]).dos.asked.asked, true) := by
    simp [dosCall, DosState.ask, DosState.asked, answering, examined]
  rw [first]
  dsimp only
  rw [second]
  exact @bootRewrite_willing { answering s [a, b] with dos := (answering s [a, b]).dos.asked.asked }
    rfl enable _

/-- A script that counts as missing is created, when no later call is refused. -/
theorem creates (fits : PathFits path) (door : a.ok = false) (locked : b.ok = false) :
    (tnBootBlockApply path true (answering s [a, b])).2 = true := by
  unfold tnBootBlockApply
  rw [if_neg (bbSuffixPath_fits fits)]
  have first : dosOpenOld (answering s [a, b]).dos .path = ((answering s [a, b]).dos.asked, false) := by
    simp [dosOpenOld, DosState.ask, answering, door]
  have second : dosOpenOld (answering s [a, b]).dos.asked .path =
      ((answering s [a, b]).dos.asked.asked, false) := by
    simp [dosOpenOld, DosState.ask, DosState.asked, answering, locked]
  rw [first]
  dsimp only
  rw [second]
  exact @bootRewrite_willing { answering s [a, b] with dos := (answering s [a, b]).dos.asked.asked }
    rfl true none

/-- And no others do. -/
theorem Safe.fine (safe : Safe path s a b) : Fine path (s.dos.disk .path) a b := fun fits => by
  constructor
  · intro door examined
    cases file : s.dos.disk .path with
    | none => exact trivial
    | some old =>
      have ok := edits fits false door examined file
      have kept := safe.lines false [] ok
      have there : Opened (answering s [a, b]) := ⟨door, by simp [answering, file]⟩
      rw [edited there ok, show (answering s [a, b]).dos.disk .path = some old from file, file] at kept
      exact closed_of_keeps kept
  · intro door locked
    have ok := creates (s := s) fits door locked
    obtain ⟨text, new, origin⟩ := enabled ok
    have empty : text = [] := by
      rcases origin with ⟨opened, -⟩ | ⟨-, -, eq, -⟩
      · rw [show a.ok = true from opened.1] at door
        cases door
      · exact eq
    obtain ⟨kept, eq, sub⟩ := safe.lines true [] ok
    rw [new, empty] at eq
    have block : bootEdit [] true = bbBlock := rfl
    have none : kept = [] := by simpa [block] using eq
    rw [none] at sub
    simpa [carried, endAll] using sub

/-- **When the editor never loses a line.** A call keeps all its promises, whatever is refused later,
exactly when every BEGIN marker of a script that it opens is followed by an END marker, and no line of a
script that it takes for missing stands outside. -/
theorem apply_iff (path : List Char) (s : BootState) (a b : DosAnswer) :
    Safe path s a b ↔ Fine path (s.dos.disk .path) a b :=
  ⟨Safe.fine, Fine.safe⟩

/-- A script whose BEGIN marker has lost its END marker. -/
def openScript : BootState where
  dos := {
    disk := fun n => if n = .path then some "; BEGIN tolunnet\nAssign T: RAM:\n".toList else none }
  bak := none

/-- What follows the marker is lost. -/
theorem not_safe_openScript : ¬ Safe "S:User-Startup".toList openScript {} {} := fun safe => by
  have fine := safe.fine ⟨by decide, by decide⟩
  exact absurd (fine.1 rfl rfl) (by decide)

end Boot

end Tolunnet
