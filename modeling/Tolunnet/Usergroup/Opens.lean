import Tolunnet.Usergroup.Context

/-!
# `Tolunnet.Usergroup.Opens`: contexts follow the opens of their tasks

`Account` is what a task is promised, by its own calls alone: what it has set stays in force until it has
closed the library as often as it has opened it. `Follows` says that the contexts of the library keep
these promises.

They do in every run of `Orderly` steps. A step is not orderly in three ways. A context is freed though
the task has more opens, since one of them was not counted: its allocation failed. A task sets something
without having the library open, and a later `Open` finds it. And a context is inserted for a task that
has opened the library since it was looked for, so that it has two.
-/

set_option autoImplicit false

namespace Tolunnet

namespace Usergroup

open Keyed

/-! ## What is promised -/

/-- What a task has done, and what it has in force. -/
structure Account where
  opens : Nat := 0
  closes : Nat := 0
  settings : Settings := {}

/-- The account of a task after an event of its own. -/
def Account.close (a : Account) : Account :=
  if a.opens = a.closes + 1 then { a with closes := a.closes + 1, settings := {} }
  else { a with closes := a.closes + 1 }

/-- A call that has had a context changes what its caller has in force, and nothing else. -/
def Account.return (a : Account) (r : Return) : Account :=
  if r.served then { a with settings := (r.call.apply r.task a.settings).1 } else a

/-- The accounts after an event, with the call that has come to its end. -/
def next (acc : APTR → Account) (e : Event) (r : Option Return) : APTR → Account :=
  match e with
  | .open task _ => Function.update acc task { acc task with opens := (acc task).opens + 1 }
  | .close task => Function.update acc task (acc task).close
  | .call .. | .insert .. =>
    match r with
    | some r => Function.update acc r.task ((acc r.task).return r)
    | none => acc

/-- The task has the library open. -/
def Account.Open (a : Account) : Prop := a.closes < a.opens

/-- The settings that a task finds. -/
def settingsOf (l : List UgTaskContext) (task : APTR) : Settings := (findCtx l task).elim {} (·.own)

/-- A call that changes nothing. -/
def Call.reads : Call → Bool
  | .geterr | .getuid | .geteuid | .getgid | .getegid | .getgroups .. | .getumask | .getpgrp | .getlogin |
    .getcredentials _ => true
  | _ => false

/-- A task does one thing at a time, and closes what it has opened. A call waits for the lock, and names
another task in `getcredentials` only. -/
def Admissible (b : UserGroupBase) (acc : APTR → Account) : Event → Prop
  | .open task _ => task ≠ 0 ∧ ∀ call, b.making ≠ some (task, call)
  | .close task => task ≠ 0 ∧ (∀ call, b.making ≠ some (task, call)) ∧ (acc task).Open
  | .call task call => task ≠ 0 ∧ b.making = none ∧ (call.reads = false → call.target task = task)
  | .insert _ => True

/-- The steps that keep the promises. -/
def Orderly (b : UserGroupBase) (acc : APTR → Account) : Event → Prop
  | .open .. => True
  -- a context with settings is freed by the last close only
  | .close task => (acc task).closes + 1 < (acc task).opens →
      ∀ c, findCtx b.contexts task = some c → fewer c ≤ 0 → c.own = {}
  -- what is set is set with the library open
  | .call task call => call.reads = false → (acc task).Open
  -- a context is inserted where there is none
  | .insert ok => ok = true → ∀ task call, b.making = some (task, call) →
      findCtx b.contexts (call.target task) = none

/-- The task that an event is about. -/
def Event.actor (b : UserGroupBase) : Event → Option APTR
  | .open task _ | .close task | .call task _ => some task
  | .insert _ => b.making.map Prod.fst

/-- The contexts keep what the accounts promise. -/
structure Follows (b : UserGroupBase) (acc : APTR → Account) : Prop where
  /-- At most one context for each task. -/
  single : ∀ task ≠ 0, count UgTaskContext.task b.contexts task ≤ 1
  /-- What a task has set is in force. -/
  inForce : ∀ task ≠ 0, settingsOf b.contexts task = (acc task).settings
  /-- Another task changes nothing. -/
  apart : ∀ e task, Admissible b acc e → task ≠ 0 → e.actor b ≠ some task →
    settingsOf (b.step e).1.contexts task = settingsOf b.contexts task
  /-- The first `Open` finds defaults. -/
  fresh : ∀ task ok, task ≠ 0 → (acc task).opens = (acc task).closes →
    settingsOf (b.step (.open task ok)).1.contexts task = {}
  /-- A call tells what is in force, and one that gets no context tells so or has nothing to tell. -/
  answers : ∀ e r, Admissible b acc e → Orderly b acc e → (b.step e).2 = some r →
    (r.served = true → r.answer =
      (r.call.apply (r.call.target r.task) (acc (r.call.target r.task)).settings).2) ∧
    (r.served = false → r.call.reads = true → r.answer = .null ∨ r.answer = .long (-1) ∨
      r.answer = (r.call.apply r.task (acc r.task).settings).2)

/-- A run of the library with the accounts of its tasks, by admissible steps that all satisfy `ok`. -/
inductive Run (ok : UserGroupBase → (APTR → Account) → Event → Prop) :
    UserGroupBase → (APTR → Account) → Prop
  | init : Run ok {} fun _ => {}
  | step {b acc e} (run : Run ok b acc) (ha : Admissible b acc e) (hok : ok b acc e) :
      Run ok (b.step e).1 (next acc e (b.step e).2)

variable {b : UserGroupBase} {acc : APTR → Account} {e : Event} {l l' l'' : List UgTaskContext}
  {task : APTR} {call : Call} {c : UgTaskContext} {x y : Option UgTaskContext}

/-! ## One context changes -/

/-- The context of a task is replaced, and no other task notices. -/
structure Put (l l' : List UgTaskContext) (task : APTR) (x : Option UgTaskContext) : Prop where
  here : findCtx l' task = x
  others : ∀ u ≠ 0, u ≠ task → findCtx l' u = findCtx l u
  single : (∀ u ≠ 0, count UgTaskContext.task l u ≤ 1) → ∀ u ≠ 0, count UgTaskContext.task l' u ≤ 1

/-- Nothing happens. -/
theorem Put.refl (here : findCtx l task = x) : Put l l task x :=
  { here := here, others := fun _ _ _ => rfl, single := id }

/-- Two changes of one context. -/
theorem Put.trans (p : Put l l' task x) (q : Put l' l'' task y) : Put l l'' task y :=
  { here := q.here
    others := fun u some other => (q.others u some other).trans (p.others u some other)
    single := fun h => q.single (p.single h) }

/-- A context that changes its owner is counted elsewhere. -/
theorem count_modCtx {f : UgTaskContext → UgTaskContext} {k u : APTR} (found : findCtx l k = some c) :
    count UgTaskContext.task (modCtx f k l) u + (if k = u then 1 else 0) =
      count UgTaskContext.task l u + if (f c).task = u then 1 else 0 := count_modify found

/-- A context is changed in its place. -/
theorem put_mod {f : UgTaskContext → UgTaskContext} (found : findCtx l task = some c) (same : (f c).task = task) :
    Put l (modCtx f task l) task (some (f c)) := by
  refine { here := find_modify_self found same, others := fun u _ other => ?_, single := fun h u some => ?_ }
  · exact find_modify_of_ne found other (by rw [same]; exact other.symm)
  · have counted := count_modCtx (f := f) (u := u) found
    have one := h u some
    rw [same] at counted
    omega

/-- A spare context gets an owner. -/
theorem put_claimed {spare : UgTaskContext} (none : findCtx l task = none)
    (found : findCtx l 0 = some spare) :
    Put l (modCtx (fun _ => ugCtxInit task) 0 l) task (some (ugCtxInit task)) := by
  have fresh := find_eq_none_iff.mp none
  refine { here := ?_, others := fun u some other => ?_, single := fun h u some => ?_ }
  · exact find_modify_new found fresh rfl
  · exact find_modify_of_ne found some other.symm
  · have counted := count_modCtx (f := fun _ => ugCtxInit task) (u := u) found
    have one := h u some
    rw [if_neg some.symm] at counted
    by_cases here : task = u
    · subst here
      rw [if_pos (show (ugCtxInit task).task = task from rfl)] at counted
      omega
    · rw [if_neg (show (ugCtxInit task).task ≠ u from here)] at counted
      omega

/-- A context is given back. -/
theorem put_freed (nonzero : task ≠ 0) (single : ∀ u ≠ 0, count UgTaskContext.task l u ≤ 1)
    (found : findCtx l task = some c) : Put l (modCtx (fun _ => ugCtxInit 0) task l) task none := by
  have counted := fun u => count_modCtx (f := fun _ => ugCtxInit 0) (u := u) found
  refine { here := ?_, others := fun u some other => ?_, single := fun h u some => ?_ }
  · have gone := counted task
    have one := single task nonzero
    rw [if_pos rfl, if_neg (show (ugCtxInit 0).task ≠ task from nonzero.symm)] at gone
    exact find_eq_none_iff.mpr (by omega)
  · exact find_modify_of_ne found other some.symm
  · have fewer := counted u
    have one := h u some
    rw [if_neg (show (ugCtxInit 0).task ≠ u from some.symm)] at fewer
    omega

/-- A new context is added at the end. -/
theorem put_append (none : findCtx l task = none) (same : c.task = task) : Put l (l ++ [c]) task (some c) := by
  have fresh := find_eq_none_iff.mp none
  refine { here := find_append_new fresh same, others := fun u _ other => ?_, single := fun h u some => ?_ }
  · refine find_append_of_ne ?_
    rw [same]
    exact other.symm
  · have one := h u some
    rw [count_append_singleton, same]
    split_ifs with here
    · subst here
      omega
    · omega

/-- A context that is found or claimed. -/
theorem put_claim (claimed : claim l task = some l') :
    Put l l' task (some ((findCtx l task).getD (ugCtxInit task))) := by
  rw [claim] at claimed
  cases found : findCtx l task with
  | some c =>
    rw [found] at claimed
    cases claimed
    exact Put.refl found
  | none =>
    rw [found] at claimed
    cases spare : findCtx l 0 with
    | some c =>
      rw [spare] at claimed
      cases claimed
      exact put_claimed found spare
    | none =>
      rw [spare] at claimed
      cases claimed

/-- Without a context to claim the task has none. -/
theorem findCtx_of_claim_none (h : claim l task = none) : findCtx l task = none := by
  rw [claim] at h
  split at h
  · cases h
  · cases h
  · assumption

/-- A context belongs to its task. -/
theorem task_getD (l : List UgTaskContext) (task : APTR) :
    ((findCtx l task).getD (ugCtxInit task)).task = task := by
  cases found : findCtx l task with
  | none => rfl
  | some c => exact key_of_find found

/-- The settings a task has. -/
theorem own_getD (l : List UgTaskContext) (task : APTR) :
    ((findCtx l task).getD (ugCtxInit task)).own = settingsOf l task := by
  rw [settingsOf]
  cases findCtx l task <;> rfl

/-- An open counts, unless it gets no context. -/
theorem put_opened (l : List UgTaskContext) (task : APTR) (ok : Bool) :
    findCtx l task = none ∧ Put l (ugCtxOpened l task ok) task none ∨
      Put l (ugCtxOpened l task ok) task (some (opened ((findCtx l task).getD (ugCtxInit task)))) := by
  rw [ugCtxOpened]
  split
  · rename_i l' claimed
    have put := put_claim claimed
    have counted := put_mod (f := opened) put.here (task_getD l task)
    exact .inr (put.trans counted)
  · rename_i failed
    have none := findCtx_of_claim_none failed
    cases ok with
    | false => exact .inl ⟨none, Put.refl none⟩
    | true =>
      rw [none]
      exact .inr (put_append none rfl)

/-- A close counts down or frees the context. -/
theorem put_closed (nonzero : task ≠ 0) (single : ∀ u ≠ 0, count UgTaskContext.task l u ≤ 1) :
    findCtx l task = none ∧ Put l (ugCtxClosed l task) task none ∨
    ∃ c, findCtx l task = some c ∧
      (fewer c > 0 ∧ Put l (ugCtxClosed l task) task (some { c with opens := fewer c }) ∨
        fewer c ≤ 0 ∧ Put l (ugCtxClosed l task) task none) := by
  rw [ugCtxClosed]
  cases found : findCtx l task with
  | none => exact .inl ⟨rfl, Put.refl found⟩
  | some c =>
    refine .inr ⟨c, rfl, ?_⟩
    dsimp only
    split_ifs with more
    · refine .inl ⟨more, put_mod (f := fun c => { c with opens := fewer c }) found ?_⟩
      show c.task = task
      exact key_of_find found
    · exact .inr ⟨by omega, put_freed nonzero single found⟩

/-! ## What every step keeps -/

structure Sound (b : UserGroupBase) (acc : APTR → Account) : Prop where
  single : ∀ u ≠ 0, count UgTaskContext.task b.contexts u ≤ 1
  inForce : ∀ u ≠ 0, settingsOf b.contexts u = (acc u).settings
  closed : ∀ u, (acc u).opens = (acc u).closes → (acc u).settings = {}
  le : ∀ u, (acc u).closes ≤ (acc u).opens
  /-- A context counts some of the opens. -/
  counter : ∀ u ≠ 0, ∀ c, findCtx b.contexts u = some c →
    ∃ k : Nat, c.opens = (k : Int).bmod (2 ^ 32) ∧ k + (acc u).closes ≤ (acc u).opens
  making : ∀ u call, b.making = some (u, call) →
    u ≠ 0 ∧ (call.reads = false → call.target u = u ∧ (acc u).Open) ∧
      (call.target u = u → (acc u).settings = {})

theorem sound_init : Sound {} fun _ => {} :=
  { single := fun _ _ => Nat.zero_le _
    inForce := fun _ _ => rfl
    closed := fun _ _ => rfl
    le := fun _ => le_rfl
    counter := nofun
    making := nofun }

/-- One context is replaced, and the account of its task with it. -/
theorem Sound.put {a : Account} {making : Option (APTR × Call)} (sound : Sound b acc)
    (put : Put b.contexts l' task x) (inForce : x.elim {} (·.own) = a.settings)
    (closed : a.opens = a.closes → a.settings = {}) (le : a.closes ≤ a.opens)
    (counter : ∀ c, x = some c → ∃ k : Nat, c.opens = (k : Int).bmod (2 ^ 32) ∧ k + a.closes ≤ a.opens)
    (pending : ∀ u call, making = some (u, call) → b.making = some (u, call) ∧ u ≠ task) :
    Sound { contexts := l', making := making } (Function.update acc task a) := by
  refine
    { single := put.single sound.single
      inForce := fun u some => ?_
      closed := fun u => ?_
      le := fun u => ?_
      counter := fun u some => ?_
      making := fun u call under => ?_ }
  · by_cases here : u = task
    · subst here
      rw [Function.update_self, settingsOf, put.here]
      exact inForce
    · rw [Function.update_of_ne here, settingsOf, put.others u some here]
      exact sound.inForce u some
  · by_cases here : u = task
    · subst here
      rw [Function.update_self]
      exact closed
    · rw [Function.update_of_ne here]
      exact sound.closed u
  · by_cases here : u = task
    · subst here
      rw [Function.update_self]
      exact le
    · rw [Function.update_of_ne here]
      exact sound.le u
  · by_cases here : u = task
    · subst here
      rw [Function.update_self, put.here]
      exact counter
    · rw [Function.update_of_ne here, put.others u some here]
      exact sound.counter u some
  · obtain ⟨under, other⟩ := pending u call under
    rw [Function.update_of_ne other]
    exact sound.making u call under

/-! ## Steps -/

/-- A call that reads changes no settings. -/
theorem apply_reads (reads : call.reads = true) (task : APTR) (own : Settings) :
    (call.apply task own).1 = own := by
  cases call with
  | getgroups gidsetlen null =>
    rw [Call.apply]
    split_ifs <;> rfl
  | _ => first | exact absurd reads Bool.false_ne_true | rfl

/-- Nor does it change the context. -/
theorem on_reads (reads : call.reads = true) (c : UgTaskContext) : call.on c = c := by
  rw [Call.on, apply_reads reads]

/-- Nor does its return count. -/
theorem return_reads {a : Account} {r : Return} (reads : r.call.reads = true) : a.return r = a := by
  rw [Account.return]
  split_ifs
  · rw [apply_reads reads]
  · rfl

/-- A call that sets something without a context leaves the account. -/
theorem next_unserved {r : Return} (unserved : r.served = false) (a : Account) : a.return r = a := by
  rw [Account.return, unserved]
  rfl

/-- `OpenLibrary` counts, or fails to. -/
theorem sound_open (sound : Sound b acc) {ok : Bool} (ha : Admissible b acc (.open task ok)) :
    Sound (b.step (.open task ok)).1 (next acc (.open task ok) none) := by
  obtain ⟨nonzero, idle⟩ := ha
  have pending : ∀ u call, b.making = some (u, call) → b.making = some (u, call) ∧ u ≠ task := by
    intro u call under
    refine ⟨under, ?_⟩
    rintro rfl
    exact idle call under
  have closed : (acc task).opens + 1 = (acc task).closes → (acc task).settings = {} := by
    have le := sound.le task
    omega
  have le := Nat.le_succ_of_le (sound.le task)
  have inForce := sound.inForce task nonzero
  obtain ⟨none, put⟩ | put := put_opened b.contexts task ok
  · -- not counted
    rw [settingsOf, none] at inForce
    exact sound.put put inForce closed le nofun pending
  · refine sound.put put ?_ closed le ?_ pending
    · show ((findCtx b.contexts task).getD (ugCtxInit task)).own = _
      rw [own_getD]
      exact inForce
    · intro c same
      cases same
      cases found : findCtx b.contexts task with
      | none =>
        refine ⟨1, rfl, ?_⟩
        have := sound.le task
        show 1 + (acc task).closes ≤ (acc task).opens + 1
        omega
      | some c =>
        obtain ⟨k, counts, few⟩ := sound.counter task nonzero c found
        refine ⟨k + 1, ?_, ?_⟩
        · show (c.opens + 1).bmod (2 ^ 32) = _
          rw [counts, Int.bmod_add_bmod]
          rfl
        · show k + 1 + (acc task).closes ≤ (acc task).opens + 1
          omega

/-- A count goes down by one. -/
theorem fewer_eq {k : Nat} (counts : c.opens = (k : Int).bmod (2 ^ 32)) :
    fewer c = ((k : Int) - 1).bmod (2 ^ 32) := by
  rw [fewer, counts, Int.bmod_sub_bmod]

/-- `CloseLibrary` counts, and the last one gives the context back. -/
theorem sound_close (sound : Sound b acc) (ha : Admissible b acc (.close task))
    (orderly : Orderly b acc (.close task)) :
    Sound (b.step (.close task)).1 (next acc (.close task) none) := by
  obtain ⟨nonzero, idle, isOpen⟩ := ha
  have pending : ∀ u call, b.making = some (u, call) → b.making = some (u, call) ∧ u ≠ task := by
    intro u call under
    refine ⟨under, ?_⟩
    rintro rfl
    exact idle call under
  have inForce := sound.inForce task nonzero
  rw [Account.Open] at isOpen
  show Sound _ (Function.update acc task (acc task).close)
  by_cases last : (acc task).opens = (acc task).closes + 1
  · -- the last close: the context counts one open at most
    have account : (acc task).close = { acc task with closes := (acc task).closes + 1, settings := {} } :=
      if_pos last
    rw [account]
    have freed : Put b.contexts (ugCtxClosed b.contexts task) task none := by
      obtain ⟨-, put⟩ | ⟨c, found, ⟨more, -⟩ | ⟨-, put⟩⟩ := put_closed nonzero sound.single
      · exact put
      · obtain ⟨k, counts, few⟩ := sound.counter task nonzero c found
        rw [fewer_eq counts] at more
        have small : k = 0 ∨ k = 1 := by omega
        rcases small with rfl | rfl <;> exact absurd more (by decide)
      · exact put
    exact sound.put freed rfl (fun _ => rfl) last.ge nofun pending
  · have account : (acc task).close = { acc task with closes := (acc task).closes + 1 } := if_neg last
    rw [account]
    have more : (acc task).closes + 1 < (acc task).opens := by omega
    obtain ⟨none, put⟩ | ⟨c, found, ⟨positive, put⟩ | ⟨freed, put⟩⟩ := put_closed nonzero sound.single
    · rw [settingsOf, none] at inForce
      exact sound.put put inForce (fun same => absurd same last) more.le nofun pending
    · rw [settingsOf, found] at inForce
      refine sound.put put inForce (fun same => absurd same last) more.le ?_ pending
      intro c' same
      cases same
      obtain ⟨k, counts, few⟩ := sound.counter task nonzero c found
      have some : 1 ≤ k := by
        by_contra zero
        obtain rfl : k = 0 := by omega
        rw [fewer_eq counts] at positive
        exact absurd positive (by decide)
      refine ⟨k - 1, ?_, ?_⟩
      · show fewer c = _
        rw [fewer_eq counts, Nat.cast_sub some]
        rfl
      · show k - 1 + ((acc task).closes + 1) ≤ (acc task).opens
        omega
    · -- freed too early, with nothing to lose
      have nothing := orderly more c found freed
      rw [settingsOf, found] at inForce
      exact sound.put put (nothing.symm.trans inForce) (fun same => absurd same last) more.le nofun pending

/-- The task a call is about is not 0. -/
theorem target_ne (nonzero : task ≠ 0) : call.target task ≠ 0 := by
  cases call with
  | setupContextTagList owner tags =>
    show (if owner = 0 then task else owner) ≠ 0
    split_ifs with self
    · exact nonzero
    · exact self
  | getcredentials other =>
    show (if other = 0 then task else other) ≠ 0
    split_ifs with self
    · exact nonzero
    · exact self
  | _ => exact nonzero

/-- A call with a context that holds what its task has in force. -/
theorem Sound.served (sound : Sound b acc) (nonzero : task ≠ 0)
    (put : Put b.contexts l' (call.target task) (some (call.on c))) (same : c.task = call.target task)
    (own : c.own = settingsOf b.contexts (call.target task))
    (counts : ∃ k : Nat, c.opens = (k : Int).bmod (2 ^ 32) ∧
      k + (acc (call.target task)).closes ≤ (acc (call.target task)).opens)
    (sets : call.reads = false → call.target task = task ∧ (acc task).Open) {answer : Answer} :
    Sound { contexts := l', making := none } (Function.update acc task
      ((acc task).return { task := task, call := call, served := true, answer := answer })) := by
  rw [sound.inForce _ (target_ne nonzero)] at own
  cases reads : call.reads with
  | true =>
    rw [return_reads reads, Function.update_eq_self]
    rw [on_reads reads] at put
    have after : Sound { contexts := l', making := none }
        (Function.update acc (call.target task) (acc (call.target task))) :=
      sound.put put own (sound.closed _) (sound.le _) (fun c' same => by cases same; exact counts) nofun
    rw [Function.update_eq_self] at after
    exact after
  | false =>
    obtain ⟨self, isOpen⟩ := sets reads
    rw [self] at put same own counts
    rw [Account.Open] at isOpen
    refine sound.put put ?_ ?_ (sound.le task) ?_ nofun
    · show (call.apply c.task c.own).1 = (call.apply task (acc task).settings).1
      rw [same, own]
    · intro none
      have equal : (acc task).opens = (acc task).closes := none
      omega
    · intro c' same
      cases same
      exact counts

/-- The count of a context is what was opened. -/
theorem counts_getD (sound : Sound b acc) (nonzero : task ≠ 0) :
    ∃ k : Nat, ((findCtx b.contexts task).getD (ugCtxInit task)).opens = (k : Int).bmod (2 ^ 32) ∧
      k + (acc task).closes ≤ (acc task).opens := by
  cases found : findCtx b.contexts task with
  | none =>
    refine ⟨0, rfl, ?_⟩
    rw [Nat.zero_add]
    exact sound.le task
  | some c => exact sound.counter task nonzero c found

/-- A call changes the settings of its task. -/
theorem sound_call (sound : Sound b acc) (ha : Admissible b acc (.call task call))
    (orderly : Orderly b acc (.call task call)) :
    Sound (b.step (.call task call)).1 (next acc (.call task call) (b.step (.call task call)).2) := by
  obtain ⟨nonzero, free, self⟩ := ha
  have sets : call.reads = false → call.target task = task ∧ (acc task).Open := fun writes =>
    ⟨self writes, orderly writes⟩
  rw [UserGroupBase.step]
  cases claimed : claim b.contexts (call.target task) with
  | some l' =>
    have put := put_claim claimed
    have same := task_getD b.contexts (call.target task)
    have put := put.trans (put_mod (f := call.on) put.here same)
    dsimp only
    rw [free]
    exact sound.served nonzero put same (own_getD _ _) (counts_getD sound (target_ne nonzero)) sets
  | none =>
    refine { sound with making := ?_ }
    intro u call' under
    cases under
    refine ⟨nonzero, sets, fun here => ?_⟩
    have none := findCtx_of_claim_none claimed
    rw [here] at none
    show (acc task).settings = {}
    rw [← sound.inForce task nonzero, settingsOf, none]
    rfl

/-- A call that waited for its insert. -/
theorem sound_insert {ok : Bool} (sound : Sound b acc) (orderly : Orderly b acc (.insert ok)) :
    Sound (b.step (.insert ok)).1 (next acc (.insert ok) (b.step (.insert ok)).2) := by
  rw [UserGroupBase.step]
  cases under : b.making with
  | none =>
    dsimp only
    exact sound
  | some pair =>
    obtain ⟨task, call⟩ := pair
    obtain ⟨nonzero, sets, -⟩ := sound.making task call under
    dsimp only
    cases ok with
    | false =>
      rw [if_neg Bool.false_ne_true, next]
      dsimp only
      rw [next_unserved rfl, Function.update_eq_self]
      refine { sound with making := ?_ }
      intro u call' under
      cases under
    | true =>
      have none := orderly rfl task call under
      have own : (ugCtxInit (call.target task)).own = settingsOf b.contexts (call.target task) := by
        rw [settingsOf, none]
        rfl
      have target : call.target task ≠ 0 := target_ne nonzero
      have counts := counts_getD sound target
      rw [none, Option.getD_none] at counts
      rw [if_pos rfl]
      exact sound.served nonzero (put_append none rfl) rfl own counts sets

/-- Every orderly step keeps what holds. -/
theorem Sound.step (sound : Sound b acc) (ha : Admissible b acc e) (orderly : Orderly b acc e) :
    Sound (b.step e).1 (next acc e (b.step e).2) := by
  cases e with
  | «open» task ok => exact sound_open sound ha
  | close task => exact sound_close sound ha orderly
  | call task call => exact sound_call sound ha orderly
  | insert ok => exact sound_insert sound orderly

/-- Every orderly run is sound. -/
theorem sound_of_run (run : Run Orderly b acc) : Sound b acc := by
  induction run with
  | init => exact sound_init
  | step _ ha orderly ih => exact ih.step ha orderly

/-! ## Runs -/

/-- A context with defaults at the end of the list changes nothing: its task finds its first context, or
found none, which is the same as defaults. -/
theorem settingsOf_append_init (l : List UgTaskContext) (u task : APTR) :
    settingsOf (l ++ [ugCtxInit u]) task = settingsOf l task := by
  by_cases here : u = task
  · subst here
    cases found : findCtx l u with
    | none =>
      have fresh := find_eq_none_iff.mp found
      rw [settingsOf, settingsOf, found, findCtx, find_append_new fresh rfl]
      rfl
    | some c =>
      have first : findCtx (l ++ [ugCtxInit u]) u = some c := by
        rw [findCtx, find_append, show find UgTaskContext.task l u = some c from found]
        rfl
      rw [settingsOf, settingsOf, found, first]
  · rw [settingsOf, settingsOf, findCtx, find_append_of_ne (show (ugCtxInit u).task ≠ task from here)]

/-- A context that is replaced does not concern the other tasks. -/
theorem Put.settingsOf {u : APTR} (put : Put l l' u x) (nonzero : task ≠ 0) (other : task ≠ u) :
    settingsOf l' task = settingsOf l task := by
  rw [Usergroup.settingsOf, put.others task nonzero other, Usergroup.settingsOf]

/-- A call leaves the settings of other tasks alone. -/
theorem settingsOf_call {u : APTR} (ha : Admissible b acc (.call u call)) (nonzero : task ≠ 0)
    (other : task ≠ u) :
    settingsOf (b.step (.call u call)).1.contexts task = settingsOf b.contexts task := by
  rw [UserGroupBase.step]
  cases claimed : claim b.contexts (call.target u) with
  | none => rfl
  | some l' =>
    have put := put_claim claimed
    have same := task_getD b.contexts (call.target u)
    have put := put.trans (put_mod (f := call.on) put.here same)
    by_cases here : task = call.target u
    · -- only a call that reads is about another task than its caller
      have reads : call.reads = true := by
        rw [← Bool.not_eq_false]
        intro writes
        exact other (here.trans (ha.2.2 writes))
      rw [on_reads reads, ← here] at put
      rw [← here]
      show settingsOf (modCtx call.on task l') task = _
      rw [settingsOf, put.here, ← own_getD]
      rfl
    · exact put.settingsOf nonzero here

/-- So does an insert. -/
theorem settingsOf_insert (sound : Sound b acc) {ok : Bool}
    (other : Event.actor b (.insert ok) ≠ some task) :
    settingsOf (b.step (.insert ok)).1.contexts task = settingsOf b.contexts task := by
  rw [UserGroupBase.step]
  cases under : b.making with
  | none => rfl
  | some pair =>
    obtain ⟨u, call⟩ := pair
    obtain ⟨-, sets, -⟩ := sound.making u call under
    have other : u ≠ task := fun same => other (by rw [Event.actor, under, same]; rfl)
    cases ok with
    | false => rfl
    | true =>
      show settingsOf (b.contexts ++ [call.on (ugCtxInit (call.target u))]) task = _
      cases reads : call.reads with
      | true =>
        rw [on_reads reads]
        exact settingsOf_append_init ..
      | false =>
        obtain ⟨self, -⟩ := sets reads
        have apart : (call.on (ugCtxInit (call.target u))).task ≠ task := by
          show call.target u ≠ task
          rwa [self]
        rw [settingsOf, settingsOf, findCtx, find_append_of_ne apart]

/-- What one task does leaves the settings of the others. -/
theorem settingsOf_other (sound : Sound b acc) (ha : Admissible b acc e) (nonzero : task ≠ 0)
    (other : e.actor b ≠ some task) : settingsOf (b.step e).1.contexts task = settingsOf b.contexts task := by
  cases e with
  | «open» u ok =>
    have other : task ≠ u := fun same => other (by rw [same]; rfl)
    obtain ⟨-, put⟩ | put := put_opened b.contexts u ok <;> exact put.settingsOf nonzero other
  | close u =>
    have other : task ≠ u := fun same => other (by rw [same]; rfl)
    obtain ⟨-, put⟩ | ⟨c, -, ⟨-, put⟩ | ⟨-, put⟩⟩ := put_closed ha.1 sound.single <;>
      exact put.settingsOf nonzero other
  | call u call => exact settingsOf_call ha nonzero fun same => other (by rw [same]; rfl)
  | insert ok => exact settingsOf_insert sound other

/-- Opening changes no settings. -/
theorem settingsOf_opened (l : List UgTaskContext) (task : APTR) (ok : Bool) :
    settingsOf (ugCtxOpened l task ok) task = settingsOf l task := by
  obtain ⟨none, put⟩ | put := put_opened l task ok
  · rw [settingsOf, put.here, settingsOf, none]
  · rw [settingsOf, put.here, ← own_getD]
    rfl

/-- Without a context a call that reads tells so, or tells what a task without a context has in force. -/
theorem failed_reads (reads : call.reads = true) (task : APTR) : call.failed = .null ∨
    call.failed = .long (-1) ∨ call.target task = task ∧ call.failed = (call.apply task {}).2 := by
  cases call with
  | getcredentials other => exact .inl rfl
  | getgroups gidsetlen null => exact .inr (.inl rfl)
  | _ => first | exact absurd reads Bool.false_ne_true | exact .inr (.inr ⟨rfl, rfl⟩)

/-- A call is answered from the settings of its task. -/
theorem answer_served (sound : Sound b acc) (nonzero : task ≠ 0)
    (claimed : claim b.contexts (call.target task) = some l') :
    (Usergroup.served l' task call).answer =
      (call.apply (call.target task) (acc (call.target task)).settings).2 := by
  rw [Usergroup.served]
  dsimp only
  rw [(put_claim claimed).here, Option.elim_some, own_getD, sound.inForce _ (target_ne nonzero)]

/-- Every return is the answer that was promised. -/
theorem answers_of_sound (sound : Sound b acc) {r : Return} (ha : Admissible b acc e)
    (orderly : Orderly b acc e) (ends : (b.step e).2 = some r) :
    (r.served = true → r.answer =
      (r.call.apply (r.call.target r.task) (acc (r.call.target r.task)).settings).2) ∧
    (r.served = false → r.call.reads = true → r.answer = .null ∨ r.answer = .long (-1) ∨
      r.answer = (r.call.apply r.task (acc r.task).settings).2) := by
  cases e with
  | «open» task ok => cases ends
  | close task => cases ends
  | call task call =>
    rw [UserGroupBase.step] at ends
    split at ends
    · rename_i l' claimed
      cases ends
      -- The context was there.
      exact ⟨fun _ => answer_served sound ha.1 claimed, nofun⟩
    · cases ends
  | insert ok =>
    rw [UserGroupBase.step] at ends
    cases under : b.making with
    | none =>
      rw [under] at ends
      cases ends
    | some pair =>
      obtain ⟨task, call⟩ := pair
      obtain ⟨nonzero, -, nothing⟩ := sound.making task call under
      rw [under] at ends
      dsimp only at ends
      cases ok with
      -- Memory was there: the new context holds defaults, as the account does.
      | true =>
        cases ends
        have none := orderly rfl task call under
        have target : call.target task ≠ 0 := target_ne nonzero
        have inForce := sound.inForce _ target
        rw [settingsOf, none] at inForce
        refine ⟨fun _ => ?_, nofun⟩
        show (call.apply (call.target task) {}).2 = (call.apply (call.target task) _).2
        rw [← inForce]
        rfl
      -- It was not: the call reports that, or what is in force.
      | false =>
        cases ends
        refine ⟨nofun, fun _ reads => ?_⟩
        obtain null | error | ⟨self, same⟩ := failed_reads reads task
        · exact .inl null
        · exact .inr (.inl error)
        · refine .inr (.inr ?_)
          show call.failed = (call.apply task (acc task).settings).2
          rw [nothing self]
          exact same

/-- In a run of orderly steps the contexts follow the opens of their tasks. -/
theorem contexts_follow (run : Run Orderly b acc) : Follows b acc := by
  have sound := sound_of_run run
  refine
    { single := sound.single
      inForce := sound.inForce
      apart := fun e task ha some other => settingsOf_other sound ha some other
      fresh := fun task ok some equal => ?_
      answers := fun e r ha orderly ends => answers_of_sound sound ha orderly ends }
  -- a task that has closed all it opened starts anew
  · show settingsOf (ugCtxOpened b.contexts task ok) task = {}
    rw [settingsOf_opened, sound.inForce task some]
    exact sound.closed task equal

/-- A task opens the library twice, sets its user and closes it once: it has its user still. -/
theorem contexts_follow_twice :
    let events : List Event := [.open 1 true, .open 1 true, .call 1 (.setreuid 1000 1000), .close 1]
    let last := events.foldl (fun s e => ((s.1.step e).1, next s.2 e (s.1.step e).2))
      (({} : UserGroupBase), fun _ => ({} : Account))
    Follows last.1 last.2 ∧ (settingsOf last.1.contexts 1).creds.crRuid = 1000 := by
  have idle : ∀ call, (none : Option (APTR × Call)) ≠ some (1, call) := nofun
  have start : Run Orderly {} fun _ => {} := .init
  have one := Run.step (e := .open 1 true) start ⟨by decide, idle⟩ trivial
  have two := Run.step (e := .open 1 true) one ⟨by decide, idle⟩ trivial
  have set := Run.step (e := .call 1 (.setreuid 1000 1000)) two ⟨by decide, rfl, fun _ => rfl⟩
    fun _ => show 0 < 2 by decide
  have last := Run.step (e := .close 1) set ⟨by decide, idle, show 0 < 2 by decide⟩ fun _ c found freed => by
    -- the context counts both opens
    have two : c.opens = 2 := (congrArg (fun c => (c.map UgTaskContext.opens).getD 0) found).symm
    rw [fewer, two] at freed
    exact absurd freed (by decide)
  exact ⟨contexts_follow last, by decide⟩

/-- The first of two opens is not counted for want of memory, so the first close frees the context: the
task has become root with the library open. -/
theorem not_forall_contexts_follow : ¬ ∀ b acc, Run (fun _ _ _ => True) b acc → Follows b acc := by
  intro h
  have idle : ∀ call, (none : Option (APTR × Call)) ≠ some (1, call) := nofun
  have start : Run (fun _ _ _ => True) {} fun _ => {} := .init
  have one := Run.step (e := .open 1 false) start ⟨by decide, idle⟩ trivial
  have two := Run.step (e := .open 1 true) one ⟨by decide, idle⟩ trivial
  have set := Run.step (e := .call 1 (.setreuid 1000 1000)) two ⟨by decide, rfl, fun _ => rfl⟩ trivial
  have last := Run.step (e := .close 1) set ⟨by decide, idle, show 0 < 2 by decide⟩ trivial
  have user := congrArg (fun s => s.creds.crRuid) ((h _ _ last).inForce 1 (by decide))
  exact absurd user (by decide)

end Usergroup

end Tolunnet
