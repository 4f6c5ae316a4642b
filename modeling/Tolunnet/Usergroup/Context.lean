import Mathlib.Algebra.Order.Ring.Int
import Mathlib.Data.Fin.Basic
import Tolunnet.Lib.Keyed

/-!
# `Tolunnet.Usergroup.Context`: the contexts of `usergroup.library`

Each task has a context with its credentials and errno pointers. It is found by the address of the task
in a list; a context without a task is free and is claimed again. The `Open` vector counts the opens of
its task, and the last `Close` frees the context.

The vectors `Open` and `Close` run under `Forbid`, all at once. Any other call holds the lock of the
library while it looks for its context, and gives the lock back before it uses the context; when it has
to allocate one, other tasks run between the search and the insertion, and may open and close the
library. So such a call is two steps, and `making` is the call in between.
-/

set_option autoImplicit false

namespace Tolunnet

namespace Usergroup

open Keyed (find modify)

/-- The address of a task, 0 for `NULL`. -/
abbrev APTR : Type := Nat

abbrev NGROUPS : Nat := 32
def MAXLOGNAME : Nat := 32

/-- `struct UserGroupCredentials`, as `ug_ctx_init` leaves it. -/
structure UserGroupCredentials where
  crRuid : Int := 0
  crRgid : Int := 0
  crUmask : Nat := 0o22
  crEuid : Int := 0
  crNgroups : Int := 1
  crGroups : Fin NGROUPS → Int := fun _ => 0
  crSession : Int := 1
  crLogin : List Char := ['r', 'o', 'o', 't']

/-- What a task has set: its errno pointers, its break mask, its last error and its credentials. -/
structure Settings where
  errLptr : Nat := 0
  errWptr : Nat := 0
  errBptr : Nat := 0
  breakMask : Nat := 0
  lastErr : Int := 0
  creds : UserGroupCredentials := {}

/-- `struct UgTaskContext`. A context with task 0 is free. -/
structure UgTaskContext where
  task : APTR
  own : Settings := {}
  opens : Int := 0

/-! ## The calls -/

/-- A tag of `ug_SetupContextTagList`, the owner apart. -/
inductive Tag where
  | errnoBptr (p : Nat)
  | errnoWptr (p : Nat)
  | errnoLptr (p : Nat)
  | intrMask (mask : Nat)
  | other
  deriving DecidableEq

/-- The calls that use a context. -/
inductive Call where
  | setError (err : Int)
  | setupContextTagList (owner : APTR) (tags : List Tag)
  | geterr
  | getuid
  | geteuid
  | setreuid (real effective : Int)
  | getgid
  | getegid
  | setregid (real effective : Int)
  | getgroups (gidsetlen : Int) (null : Bool)
  | setgroups (gidsetlen : Int) (gidset : Option (Nat → Int))
  | initgroups (basegid : Int)
  | umask (mask : Nat)
  | getumask
  | setsid
  | getpgrp
  | getlogin
  | setlogin (name : Option (List Char))
  | getcredentials (task : APTR)

/-- `setuid` and `setgid`. -/
def Call.setuid (uid : Int) : Call := .setreuid uid uid
def Call.setgid (gid : Int) : Call := .setregid gid gid

/-- What a call gives back. -/
inductive Answer where
  | long (n : Int)
  | groups (gids : List Int)
  | login (name : List Char)
  | creds (c : UserGroupCredentials)
  | null
  /-- The error goes to these addresses. -/
  | stored (ptrs : List Nat)

/-- One turn of the second loop of `ug_SetupContextTagList`. -/
def applyTag (own : Settings) : Tag → Settings
  | .errnoBptr p => { own with errBptr := p }
  | .errnoWptr p => { own with errWptr := p }
  | .errnoLptr p => { own with errLptr := p }
  | .intrMask mask => { own with breakMask := mask }
  | .other => own

/-- `ug_lvo_setreuid`. -/
def setreuid (c : UserGroupCredentials) (real effective : Int) : UserGroupCredentials :=
  { c with crRuid := if real ≠ -1 then real else c.crRuid
           crEuid := if effective ≠ -1 then effective else c.crEuid }

/-- `ug_lvo_setregid`. -/
def setregid (c : UserGroupCredentials) (real effective : Int) : UserGroupCredentials :=
  let c := if real ≠ -1 then { c with crRgid := real } else c
  if effective ≠ -1 then
    { c with crGroups := Function.update c.crGroups 0 effective
             crNgroups := if c.crNgroups < 1 then 1 else c.crNgroups }
  else c

/-- `ug_lvo_setgroups`, for a length that is not negative. -/
def setgroups (c : UserGroupCredentials) (gidsetlen : Int) (gidset : Option (Nat → Int)) :
    UserGroupCredentials :=
  let n := min gidsetlen.toNat NGROUPS
  { c with crGroups := fun i => if i.val < n then gidset.elim 0 fun g => g i.val else c.crGroups i
           crNgroups := n }

/-- `ug_lvo_initgroups`. -/
def initgroups (c : UserGroupCredentials) (basegid : Int) : UserGroupCredentials :=
  { c with crRgid := basegid, crGroups := Function.update c.crGroups 0 basegid, crNgroups := 1 }

/-- `(LONG)((uintptr_t)ctx->task ^ 0xA5A50000UL)`. -/
def sessionOf (task : APTR) : Int := ((task ^^^ 0xA5A50000 : Nat) : Int).bmod (2 ^ 32)

/-- What a call does to the context that it has, and its answer. -/
def Call.apply (task : APTR) (own : Settings) : Call → Settings × Answer
  | .setError err =>
    ({ own with lastErr := err }, .stored ([own.errLptr, own.errWptr, own.errBptr].filter (· ≠ 0)))
  | .setupContextTagList _ tags => (tags.foldl applyTag own, .long 0)
  | .geterr => (own, .long own.lastErr)
  | .getuid => (own, .long own.creds.crRuid)
  | .geteuid => (own, .long own.creds.crEuid)
  | .setreuid real effective => ({ own with creds := Usergroup.setreuid own.creds real effective }, .long 0)
  | .getgid => (own, .long own.creds.crRgid)
  | .getegid => (own, .long (own.creds.crGroups 0))
  | .setregid real effective => ({ own with creds := Usergroup.setregid own.creds real effective }, .long 0)
  | .getgroups gidsetlen null =>
    if gidsetlen ≤ 0 ∨ null then (own, .long own.creds.crNgroups)
    else (own, .groups (((List.finRange NGROUPS).take (min own.creds.crNgroups gidsetlen).toNat).map
      own.creds.crGroups))
  | .setgroups gidsetlen gidset =>
    if gidsetlen < 0 then (own, .long (-1))
    else ({ own with creds := Usergroup.setgroups own.creds gidsetlen gidset }, .long 0)
  | .initgroups basegid => ({ own with creds := Usergroup.initgroups own.creds basegid }, .long 0)
  | .umask mask =>
    ({ own with creds := { own.creds with crUmask := mask &&& 0o777 } }, .long own.creds.crUmask)
  | .getumask => (own, .long own.creds.crUmask)
  | .setsid => ({ own with creds := { own.creds with crSession := sessionOf task } }, .long (sessionOf task))
  | .getpgrp => (own, .long own.creds.crSession)
  | .getlogin => (own, .login own.creds.crLogin)
  | .setlogin none => (own, .long (-1))
  | .setlogin (some name) =>
    ({ own with creds := { own.creds with crLogin := name.take (MAXLOGNAME - 1) } }, .long 0)
  | .getcredentials _ => (own, .creds own.creds)

/-- The answer of a call that gets no context. -/
def Call.failed : Call → Answer
  | .setError _ => .stored []
  | .geterr | .getuid | .geteuid | .getgid | .getegid => .long 0
  | .setupContextTagList .. | .setreuid .. | .setregid .. | .getgroups .. | .setgroups .. | .initgroups _ |
    .setlogin _ => .long (-1)
  | .umask _ | .getumask => .long 0o22
  | .setsid | .getpgrp => .long 1
  | .getlogin => .login ['r', 'o', 'o', 't']
  | .getcredentials _ => .null

/-- The task whose context a call is about: the caller, unless it names another one. -/
def Call.target (caller : APTR) : Call → APTR
  | .setupContextTagList owner _ => if owner = 0 then caller else owner
  | .getcredentials task => if task = 0 then caller else task
  | _ => caller

/-! ## The list of contexts -/

/-- The library: its contexts, and the call that has found no context and not inserted one yet. -/
structure UserGroupBase where
  contexts : List UgTaskContext := []
  making : Option (APTR × Call) := none

/-- `ug_ctx_init`. -/
def ugCtxInit (task : APTR) : UgTaskContext := { task := task }

abbrev findCtx (l : List UgTaskContext) (task : APTR) : Option UgTaskContext := find UgTaskContext.task l task

abbrev modCtx (f : UgTaskContext → UgTaskContext) (task : APTR) (l : List UgTaskContext) :
    List UgTaskContext := modify UgTaskContext.task f task l

/-- The first section of `ug_ctx_lookup`: the context of the task is there, or a free one is claimed. -/
def claim (l : List UgTaskContext) (task : APTR) : Option (List UgTaskContext) :=
  match findCtx l task, findCtx l 0 with
  | some _, _ => some l
  | none, some _ => some (modCtx (fun _ => ugCtxInit task) 0 l)
  | none, none => none

/-- One more open, in a `LONG`. -/
def opened (c : UgTaskContext) : UgTaskContext := { c with opens := (c.opens + 1).bmod (2 ^ 32) }

/-- `ug_ctx_opened`; `ok` says whether memory can be had. -/
def ugCtxOpened (l : List UgTaskContext) (task : APTR) (ok : Bool) : List UgTaskContext :=
  match claim l task with
  | some l => modCtx opened task l
  | none => if ok then l ++ [opened (ugCtxInit task)] else l

/-- `--ctx->opens`. -/
def fewer (c : UgTaskContext) : Int := (c.opens - 1).bmod (2 ^ 32)

/-- `ug_ctx_closed`. -/
def ugCtxClosed (l : List UgTaskContext) (task : APTR) : List UgTaskContext :=
  match findCtx l task with
  | none => l
  | some c => if fewer c > 0 then modCtx (fun c => { c with opens := fewer c }) task l
    else modCtx (fun _ => ugCtxInit 0) task l

/-- A call on a context that it has. -/
def Call.on (call : Call) (c : UgTaskContext) : UgTaskContext := { c with own := (call.apply c.task c.own).1 }

/-! ## Steps -/

/-- What a task does, or goes on doing. -/
inductive Event where
  | open (task : APTR) (ok : Bool)
  | close (task : APTR)
  /-- A call begins: it takes the lock and looks for its context. -/
  | call (task : APTR) (call : Call)
  /-- The call under way inserts the context that it has allocated, or fails. -/
  | insert (ok : Bool)

/-- A call that has come to its end: its caller, whether it had a context, and its answer. -/
structure Return where
  task : APTR
  call : Call
  served : Bool
  answer : Answer

/-- The answer of a call with the context that it has found. -/
def served (l : List UgTaskContext) (task : APTR) (call : Call) : Return :=
  let target := call.target task
  { task := task
    call := call
    served := true
    answer := ((findCtx l target).elim call.failed fun c => (call.apply target c.own).2) }

/-- One step of the library. -/
def UserGroupBase.step (b : UserGroupBase) : Event → UserGroupBase × Option Return
  | .open task ok => ({ b with contexts := ugCtxOpened b.contexts task ok }, none)
  | .close task => ({ b with contexts := ugCtxClosed b.contexts task }, none)
  | .call task call =>
    match claim b.contexts (call.target task) with
    | some l => ({ b with contexts := modCtx call.on (call.target task) l }, some (served l task call))
    | none => ({ b with making := some (task, call) }, none)
  | .insert ok =>
    match b.making with
    | none => (b, none)
    | some (task, call) =>
      let c := ugCtxInit (call.target task)
      if ok then
        ({ contexts := b.contexts ++ [call.on c], making := none },
          some { task := task, call := call, served := true, answer := (call.apply c.task c.own).2 })
      else
        ({ b with making := none },
          some { task := task, call := call, served := false, answer := call.failed })

end Usergroup

end Tolunnet
