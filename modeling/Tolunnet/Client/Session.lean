import Tolunnet.Client.Answers

/-!
# `Tolunnet.Client.Session`: from opening the library to closing it

A session opens the library, makes any calls, with the watchdog and the break mask set to anything
in between, and closes the library. `session_owns` says that in the whole session no message is
written, sent or freed while the daemon has it, and that no block is lost.

Closing frees the orphans. The daemon answers a CLOSE after it has answered everything else of the
base (`ClosesLast`), so they are the client's once the CLOSE is answered (`close_clean`). A CLOSE
that the watchdog gives up says nothing about them, and the client frees them all the same
(`closeExpired_fault`).
-/

set_option autoImplicit false

namespace Tolunnet

namespace Ipc

open Requests

variable {s s' : Machine} {m : Addr} {cmd : TnIpcCmd} {r : Int} {fuel : Nat}

/-! ## Opening -/

/-- A base that has its block and nothing else. -/
structure Fresh (s : Machine) : Prop where
  heap : s.heap = [embedded]
  place : ∀ m, s.io.place m = .ours
  queue : s.io.queue () = []
  clean : s.fault = false
  log : s.log = []
  orphan : s.base.ipcOrphan = []
  cancel : s.base.ipcCancelMsg = none
  off : s.base.ipcTimeoutMs = 0

theorem Fresh.clean_start (h : Fresh s) : Clean s where
  sound := by
    refine ⟨⟨fun p m => ?_, fun p => ?_⟩, fun m => ?_⟩
    · simp [h.queue, h.place]
    · simp [h.queue]
    · simp [h.log, h.place, puts, replies]
  clean := h.clean
  heap := by simp [h.heap, blocks, h.cancel, h.orphan]
  nodup := by simp [h.heap]
  out m out := (out (h.place m)).elim

/-- Frees of blocks that are ours. -/
theorem Clean.freeCancel (h : Clean s) : Clean s.freeCancel ∧
    s.freeCancel.base.ipcCancelMsg = none ∧ s.freeCancel.base.ipcOrphan = s.base.ipcOrphan ∧
    s.freeCancel.io = s.io := by
  unfold Machine.freeCancel
  split
  · exact ⟨h, ‹_›, rfl, rfl⟩
  · rename_i m hc
    have distinct := h.distinct
    have heap := h.heap
    rw [blocks, hc] at distinct heap
    have ours : ¬ s.io.Outstanding m := h.ours List.not_mem_nil fun mem => by simp [mem] at distinct
    have mem : m ∈ s.heap := heap.mem_iff.mpr (by simp)
    refine ⟨⟨⟨h.sound.port, h.sound.tally⟩, ?_, ?_, h.nodup.erase m, h.out⟩, rfl, rfl, rfl⟩
    · simp [Machine.modBase, Machine.freeVec, h.clean, ours, mem]
    · have swapped := (heap.trans (List.Perm.swap _ _ _)).erase m
      rwa [List.erase_cons_head] at swapped

/-- The block of the base is not the daemon's. -/
theorem Clean.embedded_ours (h : Clean s) : ¬ s.io.Outstanding embedded := by
  refine h.ours List.not_mem_nil fun mem => ?_
  exact (List.nodup_cons.mp h.distinct).1 (List.mem_append_right _ mem)

theorem Clean.embedded_mem (h : Clean s) : embedded ∈ s.heap :=
  h.heap.mem_iff.mpr List.mem_cons_self

/-- A library that opens is clean, and one that does not has not freed anything of the daemon's. -/
theorem tnLibOpen_clean {opened : Bool} (fresh : Fresh s) (h : s.tnLibOpen = some (opened, s')) :
    s'.fault = false ∧ (opened = true → Clean s') := by
  have start := fresh.clean_start
  unfold Machine.tnLibOpen at h
  generalize alloc : s.allocVec = allocated at h
  obtain ⟨cancel, s₁⟩ := allocated
  cases cancel with
  | none =>
    obtain ⟨rfl, rfl⟩ := Prod.mk.inj (Option.some.inj h)
    have eq := allocVec_none alloc
    have clean : Clean s₁ := eq ▸ start.runs (.of_eq rfl rfl rfl rfl rfl rfl)
    refine ⟨?_, by simp⟩
    simp [Machine.freeVec, clean.clean, clean.embedded_ours, clean.embedded_mem]
  | some cancel =>
    obtain ⟨new, eq⟩ := allocVec_some alloc
    have clean₁ : Clean (s₁.modBase fun b => { b with ipcCancelMsg := some cancel }) :=
      eq ▸ start.alloc_cancel new _ fresh.cancel
    have orphans : s₁.base.ipcOrphan = [] := by rw [eq]; exact fresh.orphan
    simp only [Option.bind_eq_bind, Option.bind_eq_some_iff, Prod.exists] at h
    obtain ⟨r, s₂, call, h⟩ := h
    have none_late : late (s₁.modBase fun b => { b with ipcCancelMsg := some cancel }) = 0 := by
      simp [late, Machine.modBase, orphans]
    have clean₂ := (call_outcome clean₁.findPort
      (fun _ => ((findPort_same _).2.2.trans none_late).trans_lt (by decide)) call).1
    split at h
    · obtain ⟨rfl, rfl⟩ := Prod.mk.inj (Option.some.inj h)
      have freed := clean₂.freeCancel.1
      refine ⟨?_, by simp⟩
      simp [Machine.freeVec, freed.clean, freed.embedded_ours, freed.embedded_mem]
    · obtain ⟨rfl, rfl⟩ := Prod.mk.inj (Option.some.inj h)
      exact ⟨clean₂.clean, fun _ => clean₂⟩

/-! ## Sessions -/

/-- The watchdog and the break mask are set. -/
def configure (s : Machine) (ms sigInt : UInt32) : Machine :=
  s.modBase fun b => { b with ipcTimeoutMs := ms, sigInt }

/-- The states of a base between two calls. Without the watchdog a call is made while fewer than
four orphans are late. -/
inductive Session : Machine → Prop
  | opened {s s' : Machine} (fresh : Fresh s) (h : s.tnLibOpen = some (true, s')) : Session s'
  | request {s s' : Machine} {cmd : TnIpcCmd} {args : Nat → Int} {ptrs : Nat → Ptr} {r : Int}
      (before : Session s) (few : s.base.ipcTimeoutMs = 0 → late s < 4)
      (h : s.request cmd args ptrs = some (r, s')) : Session s'
  | configured {s : Machine} (before : Session s) (ms sigInt : UInt32) :
      Session (configure s ms sigInt)

/-- A vector's call, with the arguments that it writes first. -/
theorem request_outcome {args : Nat → Int} {ptrs : Nat → Ptr} (clean : Clean s)
    (few : s.base.ipcTimeoutMs = 0 → late s < 4) (h : s.request cmd args ptrs = some (r, s')) :
    Clean s' ∧ Outcome s cmd r s' := by
  obtain ⟨clean', outcome⟩ := call_outcome (clean.modMsg clean.embedded_ours _) few h
  exact ⟨clean', outcome.earlier rfl ⟨[], rfl, by simp⟩⟩

theorem Session.clean (session : Session s) : Clean s := by
  induction session with
  | opened fresh h => exact (tnLibOpen_clean fresh h).2 rfl
  | request before few h ih => exact (request_outcome ih few h).1
  | configured before ms sigInt ih => exact ih.modBase rfl rfl

/-- In every state of a session only orphans are outstanding, no message was written, sent or freed
that was not the client's, and the blocks are those of the base, of the CANCEL message and of the
orphans, each once. The link of the chain is not a write in this sense: `orphan_next` of a message
that becomes an orphan is set while the daemon has it. -/
theorem session_owns (session : Session s) : s.fault = false ∧
    (∀ m, s.io.Outstanding m → m ∈ s.base.ipcOrphan) ∧
    s.heap.Perm (embedded :: (s.base.ipcCancelMsg.toList ++ s.base.ipcOrphan)) ∧ s.heap.Nodup := by
  have clean := session.clean
  exact ⟨clean.clean, fun m out => (clean.out m out).resolve_left List.not_mem_nil, clean.heap,
    clean.nodup⟩

/-- Every call of a session returns what the daemon replied to the message of this very call, or -1
with one of four errors. -/
theorem session_outcome {args : Nat → Int} {ptrs : Nat → Ptr} (session : Session s)
    (few : s.base.ipcTimeoutMs = 0 → late s < 4) (h : s.request cmd args ptrs = some (r, s')) :
    Outcome s cmd r s' :=
  (request_outcome session.clean few h).2

/-! ## Runs -/

/-- The moves around an OPEN that is answered at once. -/
def openMoves : List (List Move) := [[], [.write 0 { cmd := .open }, .reply 0], [], []]

/-- A base that will make these moves once it is open. -/
def opening (moves : List (List Move)) : Machine :=
  { moves := openMoves ++ moves, finds := [true, true]
    allocs := [some 1, some 2, some 3, some 4, some 5] }

theorem opening_fresh (moves : List (List Move)) : Fresh (opening moves) :=
  ⟨rfl, fun _ => rfl, rfl, rfl, rfl, rfl, rfl, rfl⟩

/-- A `recv`. -/
def recv (s : Machine) : Option (Int × Machine) := s.request .recv (fun _ => 0) fun _ => .null

/-- Ctrl-C comes first, and the daemon replies five bytes before it sees the CANCEL. -/
def raceMoves : List (List Move) :=
  [[], [.signal sigbreakfCtrlC], [.write 0 { cmd := .recv, result := 5 }, .reply 0], [], [],
    [.reply 1], []]

/-- A call that races with Ctrl-C. -/
def raceRun : Option (Bool × UInt32 × Nat × Int × Bool) := do
  let (opened, s) ← (opening raceMoves).tnLibOpen
  let (r, s') ← recv s
  some (opened, s.base.ipcTimeoutMs, late s, r, s'.fault)

/-- The five bytes are returned, not `EINTR`. -/
theorem session_outcome_race : ∃ s s', Session s ∧ Outcome s .recv 5 s' ∧ s'.fault = false := by
  have run : raceRun = some (true, 0, 0, 5, false) := by decide +kernel
  simp only [raceRun, Option.bind_eq_bind, Option.bind_eq_some_iff, Prod.exists, Option.some.injEq,
    Prod.mk.injEq] at run
  obtain ⟨opened, s, opens, r, s', call, rfl, -, few, rfl, clean⟩ := run
  have session : Session s := .opened (opening_fresh _) opens
  exact ⟨s, s', session, session_outcome session (fun _ => few ▸ by decide) call, clean⟩

/-- A call under the watchdog that the daemon does not answer, and neither its CANCEL. -/
def lostMoves : List (List Move) :=
  [[], [], [], [.signal 0x20000, .clock 1000], [], [], [], [], [], [.clock 2000]]

/-- A call that is lost. -/
def lostRun : Option (Bool × UInt32 × List Addr) := do
  let (opened, s) ← (opening lostMoves).tnLibOpen
  let (_, s') ← recv (configure s 100 0)
  some (opened, (configure s 100 0).base.ipcTimeoutMs, s'.base.ipcOrphan)

/-- The call and its CANCEL are on the chain then, and nothing is wrong. -/
theorem session_owns_lost : ∃ s, Session s ∧ s.base.ipcOrphan = [2, 1] ∧ s.fault = false := by
  have run : lostRun = some (true, 100, [2, 1]) := by decide +kernel
  simp only [lostRun, Option.bind_eq_bind, Option.bind_eq_some_iff, Prod.exists, Option.some.injEq,
    Prod.mk.injEq] at run
  obtain ⟨opened, s, opens, r, s', call, rfl, on, orphans⟩ := run
  have session : Session s' :=
    .request (.configured (.opened (opening_fresh _) opens) 100 0)
      (fun off => absurd (on.symm.trans off) (by decide)) call
  exact ⟨s', session, orphans, (session_owns session).1⟩

/-- Four late replies of two lost calls. The reply port was signalled before, so that the first look
at it finds nothing. -/
def lateMoves : List (List Move) :=
  lostMoves ++ [] :: lostMoves ++
    [[], [.signal 0x10000], [], [.reply 1, .reply 2, .reply 3, .reply 4]] ++ List.replicate 8 []

/-- Two lost calls, and a third without the watchdog. -/
def fourLateRun : Option (Bool × UInt32 × UInt32 × Nat × Int × Place) := do
  let (opened, s₁) ← (opening lateMoves).tnLibOpen
  let (_, s₂) ← recv (configure s₁ 100 0)
  let (_, s₃) ← recv s₂
  let (r, s') ← recv (configure s₃ 0 0)
  some (opened, (configure s₁ 100 0).base.ipcTimeoutMs, s₂.base.ipcTimeoutMs,
    late (configure s₃ 0 0), r, s'.io.place embedded)

/-- Without the watchdog the last loop gives up after five looks, and the call returns what its
message holds while the daemon still has it. Here that is the result of the OPEN. -/
theorem fourLate_stale : ∃ s r s', Session s ∧ s.base.ipcTimeoutMs = 0 ∧ late s = 4 ∧
    recv s = some (r, s') ∧ r = 0 ∧ s'.io.place embedded = .device := by
  have run : fourLateRun = some (true, 100, 100, 4, 0, .device) := by decide +kernel
  simp only [fourLateRun, Option.bind_eq_bind, Option.bind_eq_some_iff, Prod.exists,
    Option.some.injEq, Prod.mk.injEq] at run
  obtain ⟨opened, s₁, opens, r₁, s₂, call₁, r₂, s₃, call₂, r, s', call, rfl, on₁, on₂, four, rfl,
    place⟩ := run
  have session : Session s₃ :=
    .request (.request (.configured (.opened (opening_fresh _) opens) 100 0)
      (fun off => absurd (on₁.symm.trans off) (by decide)) call₁)
      (fun off => absurd (on₂.symm.trans off) (by decide)) call₂
  exact ⟨_, 0, s', .configured session 0 0, rfl, four, call, rfl, place⟩

/-! ## Closing -/

/-- The command that a message was last sent with. -/
def lastPut (m : Addr) : List Event → Option TnIpcCmd
  | [] => none
  | .put n cmd :: log => if n = m then some cmd else lastPut m log
  | .reply _ _ :: log => lastPut m log

/-- Every message that was sent has been replied. -/
def Settled (log : List Event) : Prop := ∀ m, puts m log = replies m log

/-- The daemon's side of CLOSE: when it is replied, every message that was sent has been replied. -/
def ClosesLast : List Event → Prop
  | [] => True
  | .put _ _ :: log => ClosesLast log
  | .reply m x :: log =>
    (lastPut m log = some .close → Settled (.reply m x :: log)) ∧ ClosesLast log

/-- The message of an event. -/
def Event.addr : Event → Addr
  | .put m _ => m
  | .reply m _ => m

/-- Only the messages of a record can be unsettled in it. -/
theorem settled_iff (log : List Event) :
    Settled log ↔ ∀ m ∈ log.map Event.addr, puts m log = replies m log := by
  refine ⟨fun h m _ => h m, fun h m => ?_⟩
  by_cases mem : m ∈ log.map Event.addr
  · exact h m mem
  · have none : ∀ e ∈ log, e.addr ≠ m := fun e he eq => mem (eq ▸ List.mem_map_of_mem he)
    have zero : puts m log = 0 ∧ replies m log = 0 := by
      constructor
      · refine List.countP_eq_zero.mpr fun e he => ?_
        cases e with
        | put n cmd => simpa [Event.addr] using none _ he
        | reply n x => simp
      · refine List.countP_eq_zero.mpr fun e he => ?_
        cases e with
        | put n cmd => simp
        | reply n x => simpa [Event.addr] using none _ he
    rw [zero.1, zero.2]

instance (log : List Event) : Decidable (Settled log) := decidable_of_iff _ (settled_iff log).symm

/-- Whether a record is the daemon's can be computed. -/
def decClosesLast : (log : List Event) → Decidable (ClosesLast log)
  | [] => .isTrue trivial
  | .put _ _ :: log => decClosesLast log
  | .reply m x :: log =>
    have := decClosesLast log
    inferInstanceAs
      (Decidable ((lastPut m log = some .close → Settled (.reply m x :: log)) ∧ ClosesLast log))

instance (log : List Event) : Decidable (ClosesLast log) := decClosesLast log

theorem ClosesLast.suffix {later log : List Event} (h : ClosesLast (later ++ log)) :
    ClosesLast log := by
  induction later with
  | nil => exact h
  | cons e later ih =>
    cases e with
    | put m cmd => exact ih h
    | reply m x => exact ih h.2

/-- Replies come after the message was sent. -/
theorem lastPut_replies {recent before : List Event} (quiet : ∀ e ∈ recent, e.IsReply) :
    lastPut m (recent ++ .put m cmd :: before) = some cmd := by
  induction recent with
  | nil => simp [lastPut]
  | cons e recent ih =>
    have head := quiet e List.mem_cons_self
    cases e with
    | put n cmd => exact head.elim
    | reply n x => exact ih fun e mem => quiet e (List.mem_cons_of_mem _ mem)

/-- After an answered CLOSE the daemon has nothing. -/
theorem answered_settled {x : TnIpcMsg} (sound : Sound s') (last : ClosesLast s'.log)
    (h : Answered s s' .close x) (n : Addr) : s'.io.place n ≠ .device := by
  obtain ⟨m, recent, before, eq, -, reply, -, quiet⟩ := h
  have quiet := quiet rfl
  obtain ⟨later, earlier, rfl⟩ := List.append_of_mem reply
  have parts : s'.log =
      later ++ .reply m x :: (earlier ++ .put m .close :: (before ++ s.log)) := by
    rw [eq]
    simp
  rw [parts] at last
  have settled := last.suffix.1 (lastPut_replies fun e mem =>
    quiet e (List.mem_append_right _ (List.mem_cons_of_mem _ mem))) n
  have none : puts n later = 0 := puts_isReply fun e mem => quiet e (List.mem_append_left _ mem)
  have tally := sound.tally n
  rw [parts, puts_append, replies_append, settled, none] at tally
  intro device
  simp only [device, if_true] at tally
  omega

theorem drainPort_queue (h : Machine.drainPort fuel s = some s') : s'.io.queue () = [] := by
  induction fuel generalizing s with
  | zero => cases h
  | succ fuel ih =>
    simp only [Machine.drainPort, Option.bind_eq_bind, Option.bind_eq_some_iff, Prod.exists] at h
    obtain ⟨got, s₁, get, h⟩ := h
    split at h
    · rename_i empty
      obtain rfl := Option.some.inj h
      simp only [Machine.getMsg, Option.bind_eq_bind, Option.bind_eq_some_iff] at get
      obtain ⟨s₂, tick, get⟩ := get
      cases head : (s₂.io.queue ()).head? with
      | none =>
        simp only [head, Option.some.injEq, Prod.mk.injEq] at get
        exact get.2 ▸ List.head?_eq_none_iff.mp head
      | some m =>
        simp only [head, Option.some.injEq, Prod.mk.injEq] at get
        exact absurd (get.1.trans empty) (Option.some_ne_none m)
    · exact ih h

/-- Frees blocks of a call, when nothing is outstanding. -/
theorem Holds.free_all {l mine sent : List Addr} (h : Holds s (l ++ mine) sent)
    (none : ∀ m, ¬ s.io.Outstanding m) :
    Holds (l.foldl Machine.freeVec s) mine sent ∧ (l.foldl Machine.freeVec s).io = s.io ∧
      (l.foldl Machine.freeVec s).base = s.base := by
  induction l generalizing s with
  | nil => exact ⟨h, rfl, rfl⟩
  | cons m l ih => exact ih (s := s.freeVec m) (h.free_mine (none m)) none

theorem foldl_freeVec_modBase (l : List Addr) (s : Machine) (f : Base → Base) :
    (l.foldl Machine.freeVec s).modBase f = l.foldl Machine.freeVec (s.modBase f) := by
  induction l generalizing s with
  | nil => rfl
  | cons m l ih => exact ih (s.freeVec m)

/-- Frees the chain of a clean base when nothing is outstanding: it is taken as blocks of the
running call, which are freed one after the other. -/
theorem Clean.freeOrphans (h : Clean s) (none : ∀ m, ¬ s.io.Outstanding m) :
    Clean s.freeOrphans ∧ s.freeOrphans.base.ipcOrphan = [] ∧ s.freeOrphans.io = s.io := by
  have mine : Holds (s.modBase fun b => { b with ipcOrphan := [] }) (s.base.ipcOrphan ++ []) [] :=
    { sound := ⟨h.sound.port, h.sound.tally⟩
      clean := h.clean
      heap := by simpa [blocks, Machine.modBase] using h.heap
      nodup := h.nodup
      out := fun m out => (none m out).elim }
  obtain ⟨freed, io, base⟩ := mine.free_all none
  unfold Machine.freeOrphans
  rw [foldl_freeVec_modBase]
  exact ⟨freed, congrArg Base.ipcOrphan base, io⟩

theorem closing_log (s : Machine) :
    (s.freeOrphans.freeCancel.freeVec embedded).log = s.log := by
  have fold : ∀ (l : List Addr) (s : Machine), (l.foldl Machine.freeVec s).log = s.log := by
    intro l
    induction l with
    | nil => exact fun s => rfl
    | cons m l ih => exact fun s => ih (s.freeVec m)
  have cancel : ∀ s : Machine, s.freeCancel.log = s.log := by
    intro s
    unfold Machine.freeCancel
    split <;> rfl
  exact (cancel s.freeOrphans).trans (fold _ s)

/-- A call that does not fail was answered. -/
theorem Outcome.answered_of_nonneg (o : Outcome s cmd r s') (nonneg : 0 ≤ r) :
    ∃ x, Answered s s' cmd x := by
  cases o with
  | unsent result => omega
  | answered x told => exact ⟨x, told⟩
  | interrupted x told _ _ _ result => omega
  | abandoned _ _ result => omega

/-- Closing after an answered CLOSE: nothing is freed that the daemon still has, nor twice, and
nothing is left, neither memory nor a message under way. -/
theorem close_clean {s₁ : Machine} (session : Session s)
    (few : s.base.ipcTimeoutMs = 0 → late s < 4) (call : s.tnIpcCall .close = some (r, s₁))
    (answered : 0 ≤ r) (h : s.tnLibClose = some s') (last : ClosesLast s'.log) :
    s'.fault = false ∧ s'.heap = [] ∧ ∀ m, ¬ s'.io.Outstanding m := by
  simp only [Machine.tnLibClose, call, Option.bind_eq_bind, Option.bind_some,
    Option.bind_eq_some_iff] at h
  obtain ⟨s₂, drain, h⟩ := h
  obtain ⟨clean₁, outcome⟩ := call_outcome session.clean few call
  have runs := drainPort_runs clean₁.sound drain
  have clean₂ : Clean s₂ := clean₁.runs runs
  have log : s'.log = s₂.log := Option.some.inj h ▸ closing_log s₂
  -- the answer to `CLOSE` came after everything else
  have told : ∃ x, Answered s s₂ .close x := by
    obtain ⟨x, m, recent, before, eq, replies, reply, follows, quiet⟩ :=
      outcome.answered_of_nonneg answered
    obtain ⟨after, eq', all⟩ := runs.log
    refine ⟨x, m, after ++ recent, before, by rw [eq', eq, List.append_assoc], replies,
      List.mem_append_right _ reply, fun e mem => ?_, fun parks e mem => ?_⟩
    · exact (List.mem_append.mp mem).elim (fun mem => .inl (all e mem)) (follows e)
    · exact (List.mem_append.mp mem).elim (all e) (quiet parks e)
  obtain ⟨x, told⟩ := told
  -- so nothing is outstanding: the server has answered all and the port is empty
  have none : ∀ m, ¬ s₂.io.Outstanding m := by
    intro m out
    have held := answered_settled clean₂.sound (log ▸ last) told m
    have replied : s₂.io.place m = .replied := by
      cases place : s₂.io.place m with
      | ours => exact (out place).elim
      | device => exact (held place).elim
      | replied => rfl
    have queued := (clean₂.sound.port.queued () m).mpr ⟨replied, rfl⟩
    rw [drainPort_queue drain] at queued
    cases queued
  -- what is left of the heap is freed block by block
  obtain ⟨clean₃, orphans, io₃⟩ := clean₂.freeOrphans none
  obtain ⟨clean₄, cancel, orphans₄, io₄⟩ := clean₃.freeCancel
  have heap : s₂.freeOrphans.freeCancel.heap = [embedded] := by
    have perm := clean₄.heap
    rw [blocks, cancel, orphans₄, orphans] at perm
    exact List.perm_singleton.mp perm
  obtain rfl := Option.some.inj h
  refine ⟨?_, ?_, ?_⟩
  · simp [Machine.freeVec, clean₄.clean, clean₄.embedded_ours, heap]
  · simp [Machine.freeVec, heap]
  · show ∀ m, ¬ s₂.freeOrphans.freeCancel.io.Outstanding m
    rw [io₄, io₃]
    exact none

/-- A CLOSE that is answered at once. -/
def closeMoves : List (List Move) := [[], [.write 0 { cmd := .close }, .reply 0], [], [], []]

/-- A library that is opened and closed. -/
def closeRun : Option (Bool × Nat × Bool × Bool) := do
  let (opened, s) ← (opening closeMoves).tnLibOpen
  let (r, _) ← s.tnIpcCall .close
  let s' ← s.tnLibClose
  some (opened, late s, decide (0 ≤ r), decide (ClosesLast s'.log))

theorem close_clean_demo : ∃ s s', Session s ∧ s.tnLibClose = some s' ∧ s'.fault = false ∧
    s'.heap = [] := by
  have run : closeRun = some (true, 0, true, true) := by decide +kernel
  simp only [closeRun, Option.bind_eq_bind, Option.bind_eq_some_iff, Prod.exists,
    Option.some.injEq, Prod.mk.injEq, decide_eq_true_eq] at run
  obtain ⟨opened, s, opens, r, s₁, call, s', closed, rfl, few, nonneg, last⟩ := run
  have session : Session s := .opened (opening_fresh _) opens
  obtain ⟨clean, empty, -⟩ :=
    close_clean session (fun _ => few ▸ by decide) call nonneg closed last
  exact ⟨s, s', session, closed, clean, empty⟩

/-- A library that is closed while the daemon does not answer. -/
def closeExpiredRun : Option (Bool × Place × Bool) := do
  let (opened, s) ← (opening (lostMoves ++ [[]])).tnLibOpen
  let s' ← (configure s 100 0).tnLibClose
  some (opened, s'.io.place 2, s'.fault)

/-- A CLOSE that the watchdog gives up: its message is freed while the daemon has it. -/
theorem closeExpired_fault : ∃ s s', Session s ∧ s.tnLibClose = some s' ∧
    s'.io.place 2 = .device ∧ s'.fault = true := by
  have run : closeExpiredRun = some (true, .device, true) := by decide +kernel
  simp only [closeExpiredRun, Option.bind_eq_bind, Option.bind_eq_some_iff, Prod.exists,
    Option.some.injEq, Prod.mk.injEq] at run
  obtain ⟨opened, s, opens, s', closed, rfl, place, fault⟩ := run
  exact ⟨_, s', .configured (.opened (opening_fresh _) opens) 100 0, closed, place, fault⟩

end Ipc

end Tolunnet
