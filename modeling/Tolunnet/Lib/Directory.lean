import Mathlib.Logic.Function.Basic
import Mathlib.Tactic.Cases

/-!
# `Tolunnet.Lib.Directory`: programs that move files

A directory gives a file to some names. A program asks it for a file, moves a file to a free name,
deletes a file, or takes a step outside of the directory, and goes on with what the step has returned.
Every step can be refused, and the power can fail between two steps: `run` takes the answers one by one
and stops where they end.

`wp` is the weakest precondition of a program, with a property of the directories in which the power
can fail. `wp_run` is its meaning for the runs.
-/

set_option autoImplicit false

namespace Tolunnet

namespace Directory

/-- What file stands under each name. -/
abbrev Dir (N F : Type) := N → Option F

namespace Dir

variable {N F : Type} [DecidableEq N] {d : Dir N F} {a b n : N} {f : F}

/-- The file `n` is deleted. -/
def erase (d : Dir N F) (n : N) : Dir N F := Function.update d n none

/-- The file `a` gets the name `b`. -/
def move (d : Dir N F) (a b : N) : Dir N F := Function.update (d.erase a) b (d a)

/-- A file is written under the name `n`. -/
def write (d : Dir N F) (n : N) (f : F) : Dir N F := Function.update d n (some f)

@[simp] theorem erase_self (d : Dir N F) (n : N) : d.erase n n = none := Function.update_self ..

@[simp] theorem erase_of_ne (d : Dir N F) (h : a ≠ n) : d.erase n a = d a := Function.update_of_ne h ..

@[simp] theorem move_target (d : Dir N F) (a b : N) : d.move a b b = d a := Function.update_self ..

/-- A file that is moved is gone from its old name. -/
@[simp] theorem move_source (d : Dir N F) (h : a ≠ b) : d.move a b a = none :=
  (Function.update_of_ne h ..).trans (d.erase_self a)

@[simp] theorem move_of_ne (d : Dir N F) (ha : n ≠ a) (hb : n ≠ b) : d.move a b n = d n :=
  (Function.update_of_ne hb ..).trans (d.erase_of_ne ha)

@[simp] theorem write_self (d : Dir N F) (n : N) (f : F) : d.write n f n = some f :=
  Function.update_self ..

@[simp] theorem write_of_ne (d : Dir N F) (f : F) (h : a ≠ n) : d.write n f a = d a :=
  Function.update_of_ne h ..

/-- No two names have the file `f`. -/
def Single (f : F) (d : Dir N F) : Prop := ∀ a b, d a = some f → d b = some f → a = b

/-- The file `f` has a name. -/
def Has (f : F) (d : Dir N F) : Prop := ∃ n, d n = some f

omit [DecidableEq N] in
/-- A file under one name is under no other. -/
theorem Single.of_eq (h : d.Single f) (ha : d a = some f) (hb : b ≠ a) : d b ≠ some f :=
  fun there => hb (h b a there ha)

/-- Erasing makes no second copy. -/
theorem Single.erase (h : d.Single f) (n : N) : (d.erase n).Single f := by
  have old {a : N} (ha : d.erase n a = some f) : d a = some f := by
    by_cases same : a = n
    · simp [same] at ha
    · rwa [erase_of_ne _ same] at ha
  exact fun a b ha hb => h a b (old ha) (old hb)

/-- Moving makes no second copy. -/
theorem Single.move (h : d.Single f) (ne : a ≠ b) : (d.move a b).Single f := by
  -- the name that the file had before
  have old {n : N} (hn : d.move a b n = some f) : (n = b ∧ d a = some f) ∨ (n ≠ a ∧ d n = some f) := by
    by_cases target : n = b
    · exact .inl ⟨target, by rwa [target, move_target] at hn⟩
    by_cases source : n = a
    · rw [source, move_source _ ne] at hn
      cases hn
    · exact .inr ⟨source, by rwa [move_of_ne _ source target] at hn⟩
  intro m n hm hn
  rcases old hm with ⟨mb, hm⟩ | ⟨ma, hm⟩ <;> rcases old hn with ⟨nb, hn⟩ | ⟨na, hn⟩
  · exact mb.trans nb.symm
  · exact absurd (h n a hn hm) na
  · exact absurd (h m a hm hn) ma
  · exact h m n hm hn

/-- Writing another file makes no second copy. -/
theorem Single.write {g : F} (h : d.Single f) (new : g ≠ f) (n : N) : (d.write n g).Single f := by
  have old {a : N} (ha : d.write n g a = some f) : d a = some f := by
    by_cases same : a = n
    · rw [same, write_self] at ha
      exact absurd (Option.some.inj ha) new
    · rwa [write_of_ne _ _ same] at ha
  exact fun a b ha hb => h a b (old ha) (old hb)

/-- Erasing another file loses nothing. -/
theorem Has.erase (h : d.Has f) (other : d n ≠ some f) : (d.erase n).Has f := by
  obtain ⟨a, ha⟩ := h
  refine ⟨a, ?_⟩
  rwa [erase_of_ne]
  rintro rfl
  exact other ha

/-- A file that is moved to a free name replaces none. -/
theorem Has.move (h : d.Has f) (free : d b = none) : (d.move a b).Has f := by
  obtain ⟨n, hn⟩ := h
  by_cases source : n = a
  · exact ⟨b, by rwa [move_target, ← source]⟩
  · refine ⟨n, ?_⟩
    rwa [move_of_ne _ source]
    rintro rfl
    rw [free] at hn
    cases hn

/-- Writing over another file loses nothing. -/
theorem Has.write {g : F} (h : d.Has f) (other : d n ≠ some f) : (d.write n g).Has f := by
  obtain ⟨a, ha⟩ := h
  refine ⟨a, ?_⟩
  rwa [write_of_ne]
  rintro rfl
  exact other ha

/-- The only name of a file is deleted. -/
theorem Single.not_has_erase (h : d.Single f) (there : d n = some f) : ¬ (d.erase n).Has f := by
  rintro ⟨a, ha⟩
  by_cases same : a = n
  · simp [same] at ha
  · rw [erase_of_ne _ same] at ha
    exact h.of_eq there same ha

/-- The only name of a file is given to another one. -/
theorem Single.not_has_write {g : F} (h : d.Single f) (there : d n = some f) (new : g ≠ f) :
    ¬ (d.write n g).Has f := by
  rintro ⟨a, ha⟩
  by_cases same : a = n
  · rw [same, write_self] at ha
    exact new (Option.some.inj ha)
  · rw [write_of_ne _ _ same] at ha
    exact h.of_eq there same ha

/-- Erasing brings nothing back. -/
theorem not_has_erase (h : ¬ d.Has f) (n : N) : ¬ (d.erase n).Has f := by
  rintro ⟨a, ha⟩
  by_cases same : a = n
  · simp [same] at ha
  · rw [erase_of_ne _ same] at ha
    exact h ⟨a, ha⟩

/-- Moving brings nothing back. -/
theorem not_has_move (h : ¬ d.Has f) (a b : N) : ¬ (d.move a b).Has f := by
  rintro ⟨n, hn⟩
  by_cases target : n = b
  · rw [target, move_target] at hn
    exact h ⟨a, hn⟩
  by_cases source : n = a
  · rw [source, move_source _ (source ▸ target)] at hn
    cases hn
  · rw [move_of_ne _ source target] at hn
    exact h ⟨n, hn⟩

end Dir

/-! ## Programs -/

/-- A step, with the steps outside of the directory left open. -/
inductive Op (N E : Type) where
  | exists_ (n : N)
  | rename (a b : N)
  | delete (n : N)
  | outside (e : E)

/-- What a step does when it is granted or refused, and what it returns. -/
def Op.effect {N E F : Type} [DecidableEq N] (op : Op N E) (ok : Bool) (d : Dir N F) :
    Dir N F × Bool :=
  match op with
  | .exists_ n => (d, ok && (d n).isSome)
  | .rename a b => if ok && (d a).isSome && (d b).isNone then (d.move a b, true) else (d, false)
  | .delete n => if ok && (d n).isSome then (d.erase n, true) else (d, false)
  | .outside _ => (d, ok)

namespace Op

variable {N E F : Type} [DecidableEq N] {d : Dir N F} {f : F}

/-- A move that is made goes to a free name. -/
theorem effect_rename (a b : N) (ok : Bool) (d : Dir N F) :
    (d b = none ∧ d a ≠ none ∧ (rename a b : Op N E).effect ok d = (d.move a b, true)) ∨
      (rename a b : Op N E).effect ok d = (d, false) := by
  simp only [effect]
  split
  · rename_i made
    simp only [Bool.and_eq_true, Option.isNone_iff_eq_none, Option.isSome_iff_ne_none] at made
    exact .inl ⟨made.2, made.1.2, rfl⟩
  · exact .inr rfl

/-- A delete erases the name or does nothing. -/
theorem effect_delete (n : N) (ok : Bool) (d : Dir N F) :
    (delete n : Op N E).effect ok d = (d.erase n, true) ∨
      (delete n : Op N E).effect ok d = (d, false) := by
  simp only [effect]
  split
  · exact .inl rfl
  · exact .inr rfl

/-- A step leaves a single file single. -/
theorem single_effect (h : d.Single f) (op : Op N E) (ok : Bool) : (op.effect ok d).1.Single f := by
  cases op with
  | exists_ n => exact h
  | rename a b =>
    rcases @effect_rename N E F _ a b ok d with ⟨free, there, eq⟩ | eq
    · rw [eq]
      exact h.move fun same => there (same ▸ free)
    · rwa [eq]
  | delete n =>
    rcases @effect_delete N E F _ n ok d with eq | eq
    · rw [eq]
      exact h.erase n
    · rwa [eq]
  | outside e => exact h

/-- A step does not bring a file back. -/
theorem not_has_effect (h : ¬ d.Has f) (op : Op N E) (ok : Bool) : ¬ (op.effect ok d).1.Has f := by
  cases op with
  | exists_ n => exact h
  | rename a b =>
    rcases @effect_rename N E F _ a b ok d with ⟨-, -, eq⟩ | eq
    · rw [eq]
      exact Dir.not_has_move h a b
    · rwa [eq]
  | delete n =>
    rcases @effect_delete N E F _ n ok d with eq | eq
    · rw [eq]
      exact Dir.not_has_erase h n
    · rwa [eq]
  | outside e => exact h

end Op

/-- A program. -/
inductive Proc (N E α : Type) where
  | done (a : α)
  | step (op : Op N E) (next : Bool → Proc N E α)

namespace Proc

variable {N E F α β : Type}

def bind (p : Proc N E α) (f : α → Proc N E β) : Proc N E β :=
  match p with
  | done a => f a
  | step op next => step op fun r => (next r).bind f

instance : Monad (Proc N E) where
  pure := done
  bind := bind

/-- A program of one step. -/
def op (op : Op N E) : Proc N E Bool := step op done

variable [DecidableEq N]

/-- What is left when the program ends, or when the power fails at the end of the answers. -/
def run (p : Proc N E α) (answers : List Bool) (d : Dir N F) : Dir N F × Option α :=
  match p, answers with
  | done a, _ => (d, some a)
  | step _ _, [] => (d, none)
  | step op next, ok :: answers => (next (op.effect ok d).2).run answers (op.effect ok d).1

/-- Every answer that the program takes is admitted. -/
def Admitted (adm : Op N E → Bool → Prop) (p : Proc N E α) (answers : List Bool) (d : Dir N F) :
    Prop :=
  match p, answers with
  | done _, _ => True
  | step _ _, [] => True
  | step op next, ok :: answers =>
    adm op ok ∧ (next (op.effect ok d).2).Admitted adm answers (op.effect ok d).1

/-! ## The weakest precondition -/

/-- With the admitted answers the program ends with `Q`, and up to then the directory satisfies `I`. -/
def wp (adm : Op N E → Bool → Prop) (I : Dir N F → Prop) (Q : α → Dir N F → Prop) (p : Proc N E α)
    (d : Dir N F) : Prop :=
  match p with
  | done a => Q a d
  | step op next =>
    I d ∧ ∀ ok, adm op ok → (next (op.effect ok d).2).wp adm I Q (op.effect ok d).1

variable {adm : Op N E → Bool → Prop} {I : Dir N F → Prop} {Q : α → Dir N F → Prop}
  {p : Proc N E α} {d : Dir N F}

/-- What `wp` says of a run. -/
theorem wp_run {answers : List Bool} (h : p.wp adm I Q d) (admitted : p.Admitted adm answers d) :
    (∃ a, (p.run answers d).2 = some a ∧ Q a (p.run answers d).1) ∨
      ((p.run answers d).2 = none ∧ I (p.run answers d).1) := by
  induction p generalizing answers d with
  | done a => exact .inl ⟨a, rfl, h⟩
  | step op next ih =>
    cases answers with
    | nil => exact .inr ⟨rfl, h.1⟩
    | cons ok answers => exact ih _ (h.2 ok admitted.1) admitted.2

/-- A property that holds all the way holds where a run ends. -/
theorem wp_run_keeps {answers : List Bool} (h : p.wp adm I (fun _ => I) d)
    (admitted : p.Admitted adm answers d) : I (p.run answers d).1 := by
  rcases wp_run h admitted with ⟨a, -, kept⟩ | ⟨-, kept⟩
  · exact kept
  · exact kept

/-- Answers that are all allowed are admitted. -/
theorem admitted_of_forall (h : ∀ op ok, adm op ok) (p : Proc N E α) (answers : List Bool)
    (d : Dir N F) : p.Admitted adm answers d := by
  induction p generalizing answers d with
  | done a => trivial
  | step op next ih =>
    cases answers with
    | nil => trivial
    | cons ok answers => exact ⟨h op ok, ih _ _ _⟩

/-- When every step may be granted, some run ends. -/
theorem exists_run (granted : ∀ op, adm op true) (p : Proc N E α) (d : Dir N F) :
    ∃ answers, p.Admitted adm answers d ∧ (p.run answers d).2.isSome := by
  induction p generalizing d with
  | done a => exact ⟨[], trivial, rfl⟩
  | step op next ih =>
    obtain ⟨answers, admitted, ended⟩ := ih (op.effect true d).2 (op.effect true d).1
    exact ⟨true :: answers, ⟨granted op, admitted⟩, ended⟩

@[simp] theorem wp_pure (a : α) : (pure a : Proc N E α).wp adm I Q d ↔ Q a d := Iff.rfl

/-- The precondition of a sequence. -/
@[simp] theorem wp_bind (p : Proc N E α) (f : α → Proc N E β) {Q : β → Dir N F → Prop} :
    (p >>= f).wp adm I Q d ↔ p.wp adm I (fun a d => (f a).wp adm I Q d) d := by
  show (p.bind f).wp adm I Q d ↔ _
  induction p generalizing d with
  | done a => exact Iff.rfl
  | step op next ih => exact and_congr_right fun _ => forall_congr' fun ok => imp_congr_right fun _ => ih _

/-! ## Rules -/

section

variable {a b n : N} {Q : Bool → Dir N F → Prop}

/-- A test for existence may say no of a file that is there. -/
theorem wp_exists (here : I d) (yes : d n ≠ none → Q true d) (no : Q false d) :
    (op (.exists_ n) : Proc N E Bool).wp adm I Q d := by
  refine ⟨here, fun ok _ => ?_⟩
  show Q (ok && (d n).isSome) d
  cases found : ok && (d n).isSome with
  | true =>
    rw [Bool.and_eq_true] at found
    exact yes (Option.isSome_iff_ne_none.mp found.2)
  | false => exact no

/-- A rename moves a file to a free name or does nothing. -/
theorem wp_rename (here : I d) (moved : d a ≠ none → d b = none → Q true (d.move a b))
    (refused : Q false d) : (op (.rename a b) : Proc N E Bool).wp adm I Q d := by
  refine ⟨here, fun ok _ => ?_⟩
  rcases @Op.effect_rename N E F _ a b ok d with ⟨free, there, eq⟩ | eq
  · rw [eq]
    exact moved there free
  · rw [eq]
    exact refused

/-- A delete erases or does nothing. -/
theorem wp_delete (here : I d) (deleted : Q true (d.erase n)) (refused : Q false d) :
    (op (.delete n) : Proc N E Bool).wp adm I Q d := by
  refine ⟨here, fun ok _ => ?_⟩
  rcases @Op.effect_delete N E F _ n ok d with eq | eq
  · rw [eq]
    exact deleted
  · rw [eq]
    exact refused

/-! A step that is always granted. -/

/-- A test that is granted tells the truth. -/
theorem wp_exists_granted (granted : ∀ ok, adm (.exists_ n) ok → ok = true) (here : I d)
    (then_ : Q (d n).isSome d) : (op (.exists_ n) : Proc N E Bool).wp adm I Q d := by
  refine ⟨here, fun ok admitted => ?_⟩
  rw [granted ok admitted]
  exact then_

/-- A rename that is granted moves the file. -/
theorem wp_rename_granted (granted : ∀ ok, adm (.rename a b) ok → ok = true) (here : I d)
    (there : d a ≠ none) (free : d b = none) (then_ : Q true (d.move a b)) :
    (op (.rename a b) : Proc N E Bool).wp adm I Q d := by
  refine ⟨here, fun ok admitted => ?_⟩
  rw [granted ok admitted, Op.effect, if_pos]
  · exact then_
  · simp [Option.isSome_iff_ne_none, there, free]

/-- A file that is not there need not be deleted. -/
theorem wp_delete_granted (granted : ∀ ok, adm (.delete n) ok → ok = true) (here : I d)
    (then_ : ∀ r, Q r (d.erase n)) : (op (.delete n) : Proc N E Bool).wp adm I Q d := by
  refine ⟨here, fun ok admitted => ?_⟩
  rw [granted ok admitted, Op.effect]
  split
  · exact then_ true
  · rename_i absent
    have same : d.erase n = d := by
      rw [Dir.erase, Function.update_eq_self_iff]
      symm
      simpa using absent
    have rest := then_ false
    rwa [same] at rest

end

/-- A single file stays single. -/
theorem single_run {f : F} (h : d.Single f) (p : Proc N E α) (answers : List Bool) :
    (p.run answers d).1.Single f := by
  induction p generalizing answers d with
  | done a => exact h
  | step op next ih =>
    cases answers with
    | nil => exact h
    | cons ok answers => exact ih _ (Op.single_effect h op ok) answers

/-- A lost file stays lost. -/
theorem wp_not_has {f : F} (h : ¬ d.Has f) (p : Proc N E α) :
    p.wp adm (fun _ => True) (fun _ d => ¬ d.Has f) d := by
  induction p generalizing d with
  | done a => exact h
  | step op next ih => exact ⟨trivial, fun ok _ => ih _ (Op.not_has_effect h op ok)⟩

/-! ## Steps outside -/

/-- The program does not touch the directory. -/
def Elsewhere (p : Proc N E α) : Prop :=
  match p with
  | done _ => True
  | step op next => (∃ e, op = .outside e) ∧ ∀ ok, (next ok).Elsewhere

/-- The program can return `a`. -/
def Returns (adm : Op N E → Bool → Prop) (p : Proc N E α) (a : α) : Prop :=
  match p with
  | done b => b = a
  | step op next => ∃ ok, adm op ok ∧ (next ok).Returns adm a

omit [DecidableEq N] in
theorem elsewhere_op (e : E) : (op (.outside e) : Proc N E Bool).Elsewhere :=
  ⟨⟨e, rfl⟩, fun _ => trivial⟩

omit [DecidableEq N] in
/-- A sequence of steps elsewhere. -/
theorem Elsewhere.bind {p : Proc N E α} {f : α → Proc N E β} (h : p.Elsewhere)
    (h' : ∀ a, (f a).Elsewhere) : (p >>= f).Elsewhere := by
  show (p.bind f).Elsewhere
  induction p with
  | done a => exact h' a
  | step op next ih => exact ⟨h.1, fun ok => ih ok (h.2 ok)⟩

omit [DecidableEq N] in
/-- What a sequence returns its second part returns. -/
theorem Returns.of_bind {p : Proc N E α} {f : α → Proc N E β} {b : β}
    (h : (p >>= f).Returns adm b) : ∃ a, p.Returns adm a ∧ (f a).Returns adm b := by
  change (p.bind f).Returns adm b at h
  induction p with
  | done a => exact ⟨a, rfl, h⟩
  | step op next ih =>
    obtain ⟨ok, admitted, h⟩ := h
    obtain ⟨a, first, second⟩ := ih ok h
    exact ⟨a, ⟨ok, admitted, first⟩, second⟩

omit [DecidableEq N] in
/-- The result of steps elsewhere is changed. -/
theorem Elsewhere.map {p : Proc N E α} (h : p.Elsewhere) (f : α → β) : (f <$> p).Elsewhere :=
  h.bind fun _ => trivial

omit [DecidableEq N] in
/-- Both conditions are tested elsewhere. -/
theorem Elsewhere.and {p q : Proc N E Bool} (h : p.Elsewhere) (h' : q.Elsewhere) :
    (p <&&> q).Elsewhere :=
  h.bind fun a => by
    cases a with
    | true => exact h'
    | false => exact trivial

omit [DecidableEq N] in
/-- One of them is. -/
theorem Elsewhere.or {p q : Proc N E Bool} (h : p.Elsewhere) (h' : q.Elsewhere) :
    (p <||> q).Elsewhere :=
  h.bind fun a => by
    cases a with
    | true => exact trivial
    | false => exact h'

omit [DecidableEq N] in
/-- Where a conjunction fails one side does. -/
theorem Returns.of_and {p q : Proc N E Bool} (h : (p <&&> q).Returns adm false) :
    p.Returns adm false ∨ q.Returns adm false := by
  obtain ⟨a, first, second⟩ := Returns.of_bind h
  cases a with
  | true => exact .inr second
  | false => exact .inl first

/-- Steps elsewhere leave the directory as it is. -/
theorem wp_elsewhere (h : p.Elsewhere) (here : I d) (then_ : ∀ a, p.Returns adm a → Q a d) :
    p.wp adm I Q d := by
  induction p with
  | done a => exact then_ a rfl
  | step op next ih =>
    obtain ⟨⟨e, rfl⟩, rest⟩ := h
    exact ⟨here, fun ok admitted => ih ok (rest ok) fun a r => then_ a ⟨ok, admitted, r⟩⟩

end Proc

end Directory

end Tolunnet
