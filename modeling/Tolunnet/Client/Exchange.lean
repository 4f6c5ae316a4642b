import Mathlib.Data.List.Perm.Basic
import Tolunnet.Client.Ipc

/-!
# `Tolunnet.Client.Exchange`: what the calls of exec can change

`Runs s s'` says what can happen to a client that only waits and takes messages from its port: the
others write, reply and signal, and nothing becomes outstanding. `Told` follows one message through
such a stretch: it is still with the daemon, or it has been replied with what it holds now.
-/

set_option autoImplicit false

namespace Tolunnet

namespace Ipc

open Requests

variable {s s' s'' : Machine} {m msg cancel : Addr} {old : List Event} {P : Event → Prop}
  {got : Option Addr}

/-! ## The record -/

/-- A reply, not a message that is sent. -/
def Event.IsReply : Event → Prop
  | .put _ _ => False
  | .reply _ _ => True

/-- A CANCEL that is sent. -/
def Event.IsCancel : Event → Prop
  | .put _ cmd => cmd = .cancel
  | .reply _ _ => False

/-- How often a message was sent. -/
def puts (m : Addr) (log : List Event) : Nat :=
  log.countP fun e => match e with
    | .put n _ => n == m
    | .reply _ _ => false

/-- How often a message was replied. -/
def replies (m : Addr) (log : List Event) : Nat :=
  log.countP fun e => match e with
    | .put _ _ => false
    | .reply n _ => n == m

@[simp] theorem puts_put (n : Addr) (cmd : TnIpcCmd) (log : List Event) :
    puts m (.put n cmd :: log) = puts m log + if n = m then 1 else 0 := by
  simp [puts, List.countP_cons]

@[simp] theorem puts_reply (n : Addr) (x : TnIpcMsg) (log : List Event) :
    puts m (.reply n x :: log) = puts m log := by
  simp [puts]

@[simp] theorem replies_put (n : Addr) (cmd : TnIpcCmd) (log : List Event) :
    replies m (.put n cmd :: log) = replies m log := by
  simp [replies]

@[simp] theorem replies_reply (n : Addr) (x : TnIpcMsg) (log : List Event) :
    replies m (.reply n x :: log) = replies m log + if n = m then 1 else 0 := by
  simp [replies, List.countP_cons]

theorem puts_append (a b : List Event) : puts m (a ++ b) = puts m a + puts m b :=
  List.countP_append

theorem replies_append (a b : List Event) : replies m (a ++ b) = replies m a + replies m b :=
  List.countP_append

/-- Replies send nothing. -/
theorem puts_isReply {log : List Event} (h : ∀ e ∈ log, e.IsReply) : puts m log = 0 := by
  induction log with
  | nil => rfl
  | cons e log ih =>
    have quiet : e.IsReply := h e List.mem_cons_self
    cases e with
    | put n cmd => exact quiet.elim
    | reply n x => rw [puts_reply, ih fun e mem => h e (List.mem_cons_of_mem _ mem)]

/-- The port is in order, and the daemon has each message that was sent once more than replied. -/
structure Sound (s : Machine) : Prop where
  port : s.io.Sound fun _ => ()
  tally : ∀ m, puts m s.log = replies m s.log + if s.io.place m = .device then 1 else 0

/-- Since the record was `old`, only what `P` allows was recorded, and message `m` is still with the
daemon or has been replied with what it holds now. -/
def Told (P : Event → Prop) (m : Addr) (old : List Event) (s : Machine) : Prop :=
  ∃ recent, s.log = recent ++ old ∧ (∀ e ∈ recent, P e) ∧
    (s.io.place m = .device ∨ .reply m (s.msgs m) ∈ recent)

/-- What is told under a weaker condition. -/
theorem Told.mono {Q : Event → Prop} (h : Told P m old s) (hPQ : ∀ e, P e → Q e) :
    Told Q m old s := by
  obtain ⟨recent, eq, all, told⟩ := h
  exact ⟨recent, eq, fun e mem => hPQ e (all e mem), told⟩

/-- A message that has come back was replied. -/
theorem Told.replied (h : Told P m old s) (back : ¬ s.io.Outstanding m) :
    ∃ recent, s.log = recent ++ old ∧ (∀ e ∈ recent, P e) ∧ .reply m (s.msgs m) ∈ recent := by
  obtain ⟨recent, eq, all, device | reply⟩ := h
  · exact (back fun ours => by rw [device] at ours; cases ours).elim
  · exact ⟨recent, eq, all, reply⟩

/-! ## What the others do -/

/-- What can happen while the client waits and takes messages. -/
structure Runs (s s' : Machine) : Prop where
  base : s'.base = s.base
  heap : s'.heap = s.heap
  fault : s'.fault = s.fault
  out : ∀ m, s'.io.Outstanding m → s.io.Outstanding m
  sound : Sound s → Sound s'
  told : ∀ P m old, (∀ e, e.IsReply → P e) → Told P m old s → Told P m old s'
  kept : ∀ m, ¬ s.io.Outstanding m → s'.msgs m = s.msgs m
  log : ∃ recent, s'.log = recent ++ s.log ∧ ∀ e ∈ recent, e.IsReply

namespace Runs

theorem refl (s : Machine) : Runs s s where
  base := rfl
  heap := rfl
  fault := rfl
  out _ h := h
  sound h := h
  told _ _ _ _ h := h
  kept _ _ := rfl
  log := ⟨[], rfl, by simp⟩

/-- Two stretches of what the others do. -/
theorem trans (h : Runs s s') (h' : Runs s' s'') : Runs s s'' where
  base := h'.base.trans h.base
  heap := h'.heap.trans h.heap
  fault := h'.fault.trans h.fault
  out m out := h.out m (h'.out m out)
  sound sound := h'.sound (h.sound sound)
  told P m old hP told := h'.told P m old hP (h.told P m old hP told)
  kept m ours := (h'.kept m fun out => ours (h.out m out)).trans (h.kept m ours)
  log := by
    obtain ⟨recent, eq, all⟩ := h.log
    obtain ⟨recent', eq', all'⟩ := h'.log
    refine ⟨recent' ++ recent, by rw [eq', eq, List.append_assoc], fun e mem => ?_⟩
    exact (List.mem_append.mp mem).elim (all' e) (all e)

/-- Nothing that the invariants speak of has changed. -/
theorem of_eq (base : s'.base = s.base) (heap : s'.heap = s.heap) (fault : s'.fault = s.fault)
    (io : s'.io = s.io) (msgs : s'.msgs = s.msgs) (log : s'.log = s.log) : Runs s s' where
  base := base
  heap := heap
  fault := fault
  out m h := io ▸ h
  sound h := ⟨io ▸ h.port, fun m => by rw [io, log]; exact h.tally m⟩
  told P m old _ h := by rwa [Told, io, msgs, log]
  kept m _ := by rw [msgs]
  log := ⟨[], log, by simp⟩

/-- Signals arrive. -/
theorem signals (s : Machine) (signals : UInt32) : Runs s { s with signals } :=
  of_eq rfl rfl rfl rfl rfl rfl

/-- The daemon writes into a message that it has. -/
theorem write (held : s.io.place m = .device) (x : TnIpcMsg) :
    Runs s { s with msgs := Function.update s.msgs m x } where
  base := rfl
  heap := rfl
  fault := rfl
  out _ h := h
  sound h := ⟨h.port, h.tally⟩
  told P n old _ h := by
    obtain ⟨recent, eq, all, told⟩ := h
    refine ⟨recent, eq, all, ?_⟩
    by_cases hn : n = m
    · exact .inl (hn ▸ held)
    · simpa [hn] using told
  kept n ours := by
    have hn : n ≠ m := fun eq => ours fun h => by rw [eq, held] at h; cases h
    simp [hn]
  log := ⟨[], rfl, by simp⟩

/-- The daemon replies a message that it has. -/
theorem reply (held : s.io.place m = .device) (signals : UInt32) :
    Runs s { s with
      io := s.io.reply (fun _ => ()) m
      signals
      log := .reply m (s.msgs m) :: s.log } where
  base := rfl
  heap := rfl
  fault := rfl
  out n h := Io.outstanding_reply.mp h
  sound h := by
    refine ⟨h.port.reply m, fun n => ?_⟩
    have tally := h.tally n
    by_cases hn : n = m
    · subst hn
      simp only [held, if_true] at tally
      simp [Io.reply, held, tally]
    · simp [Io.reply, held, hn, Ne.symm hn, tally]
  told P n old hP h := by
    obtain ⟨recent, eq, all, told⟩ := h
    refine ⟨.reply m (s.msgs m) :: recent, by simp [eq], ?_, ?_⟩
    · intro e mem
      rcases List.mem_cons.mp mem with rfl | mem
      · exact hP _ trivial
      · exact all e mem
    · by_cases hn : n = m
      · exact .inr (hn ▸ List.mem_cons_self)
      · rcases told with device | reply
        · exact .inl (by simp [Io.reply, held, hn, device])
        · exact .inr (List.mem_cons_of_mem _ reply)
  kept _ _ := rfl
  log := ⟨[.reply m (s.msgs m)], rfl, fun e mem => by
    rw [List.mem_singleton.mp mem]
    trivial⟩

/-- One step of the daemon or of the clock. -/
theorem move (s : Machine) (a : Move) : Runs s (s.move a) := by
  cases a with
  | write m x =>
    simp only [Machine.move]
    split
    · exact write ‹_› _
    · exact refl s
  | reply m =>
    simp only [Machine.move]
    split
    · exact reply ‹_› _
    · exact refl s
  | signal mask => exact signals s _
  | clock t => exact of_eq rfl rfl rfl rfl rfl rfl

/-- Several of them. -/
theorem moves (s : Machine) (now : List Move) (moves : List (List Move)) :
    Runs s (now.foldl Machine.move { s with moves }) := by
  have start : Runs s { s with moves } := of_eq rfl rfl rfl rfl rfl rfl
  refine start.trans ?_
  generalize ({ s with moves } : Machine) = s
  induction now generalizing s with
  | nil => exact refl s
  | cons a now ih => exact (move s a).trans (ih _)

end Runs

/-- What happens until a call looks again. -/
theorem tick_runs (h : s.tick = some s') : Runs s s' := by
  unfold Machine.tick at h
  split at h
  · cases h
  · exact Option.some.inj h ▸ Runs.moves _ _ _

/-! ## Calls of exec that wait or look -/

/-- A wait ends with one of its signals. -/
theorem waitOn_runs {mask fired : UInt32} {moves : List (List Move)}
    (h : Machine.waitOn mask moves s = some (fired, s')) : Runs s s' := by
  induction moves generalizing s with
  | nil => cases h
  | cons now moves ih =>
    have step := Runs.moves s now moves
    simp only [Machine.waitOn] at h
    split at h
    · obtain ⟨-, rfl⟩ := Prod.mk.inj (Option.some.inj h)
      exact step.trans (.signals _ _)
    · exact step.trans (ih h)

theorem wait_runs {mask fired : UInt32} (h : s.wait mask = some (fired, s')) : Runs s s' :=
  waitOn_runs h

/-- A wait at the port ends with a message there. -/
theorem waitPortOn_runs {moves : List (List Move)} {asleep : Bool}
    (h : Machine.waitPortOn moves asleep s = some s') : Runs s s' ∧ s'.io.queue () ≠ [] := by
  induction moves generalizing s asleep with
  | nil => cases h
  | cons now moves ih =>
    have step := Runs.moves s now moves
    simp only [Machine.waitPortOn] at h
    split at h
    · split at h
      · obtain ⟨runs, queued⟩ := ih h
        exact ⟨(step.trans (.signals _ _)).trans runs, queued⟩
      · exact ⟨step.trans (ih h).1, (ih h).2⟩
    · split at h
      · exact Option.some.inj h ▸ ⟨step, ‹_›⟩
      · exact ⟨step.trans (ih h).1, (ih h).2⟩

theorem waitPort_runs (h : s.waitPort = some s') : Runs s s' ∧ s'.io.queue () ≠ [] :=
  waitPortOn_runs h

theorem tnTicksNow_runs {t : UInt32} (h : s.tnTicksNow = some (t, s')) : Runs s s' := by
  simp only [Machine.tnTicksNow, Option.bind_eq_bind, Option.bind_eq_some_iff] at h
  obtain ⟨s₁, tick, eq⟩ := h
  obtain ⟨-, rfl⟩ := Prod.mk.inj (Option.some.inj eq)
  exact tick_runs tick

/-- The timer is given back. -/
theorem retireTimer_runs (h : s.retireTimer = some s') : Runs s s' := by
  simp only [Machine.retireTimer, Option.bind_eq_bind, Option.bind_eq_some_iff] at h
  obtain ⟨s₁, tick, eq⟩ := h
  exact (tick_runs tick).trans (Option.some.inj eq ▸ .signals _ _)

/-- A message that is taken is no longer outstanding. -/
theorem outstanding_getMsg {n : Addr} :
    (s.io.take (fun _ => ()) m).Outstanding n ↔ n ≠ m ∧ s.io.Outstanding n :=
  Io.outstanding_take

/-- Taking a message that has been replied. -/
theorem Runs.take (head : (s.io.queue ()).head? = some m) (sound : Sound s) :
    Runs s { s with io := s.io.take (fun _ => ()) m } where
  base := rfl
  heap := rfl
  fault := rfl
  out n h := (outstanding_getMsg.mp h).2
  sound h := by
    refine ⟨h.port.take m, fun n => ?_⟩
    have replied := (h.port.head head).1
    have tally := h.tally n
    by_cases hn : n = m
    · subst hn
      rw [replied] at tally
      simpa [Io.take] using tally
    · simpa [Io.take, hn] using tally
  told P n old _ h := by
    obtain ⟨recent, eq, all, told⟩ := h
    refine ⟨recent, eq, all, ?_⟩
    by_cases hn : n = m
    · have replied := (sound.port.head head).1
      refine .inr (told.resolve_left fun device => ?_)
      rw [hn, replied] at device
      cases device
    · simpa [Io.take, hn] using told
  kept _ _ := rfl
  log := ⟨[], rfl, by simp⟩

/-- What `GetMsg` gives was outstanding and is so no more. -/
theorem getMsg_runs (sound : Sound s) (h : s.getMsg = some (got, s')) :
    Runs s s' ∧ ∀ m, got = some m → s.io.Outstanding m ∧ ¬ s'.io.Outstanding m := by
  simp only [Machine.getMsg, Option.bind_eq_bind, Option.bind_eq_some_iff] at h
  obtain ⟨s₁, tick, eq⟩ := h
  have runs := tick_runs tick
  cases head : (s₁.io.queue ()).head? with
  | none =>
    simp only [head, Option.some.injEq, Prod.mk.injEq] at eq
    obtain ⟨rfl, rfl⟩ := eq
    exact ⟨runs, fun m hm => (Option.some_ne_none m hm.symm).elim⟩
  | some n =>
    simp only [head, Option.some.injEq, Prod.mk.injEq] at eq
    obtain ⟨rfl, rfl⟩ := eq
    have sound₁ := runs.sound sound
    refine ⟨runs.trans (.take head sound₁), fun m hm => ?_⟩
    obtain rfl := Option.some.inj hm
    have replied := (sound₁.port.head head).1
    refine ⟨runs.out n fun ours => ?_, fun out => (outstanding_getMsg.mp out).1 rfl⟩
    rw [replied] at ours
    cases ours

end Ipc

end Tolunnet
