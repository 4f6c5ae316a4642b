import Tolunnet.Client.Resizing
import Tolunnet.Lib.Rotation

/-!
# `Tolunnet.Client.Reports`: every event is reported once, and in turn

The daemon adds events to the event words of a base (`tn_record_socket_event`), and `GetSocketEvents`
takes them, one descriptor a call, going round from the descriptor that it took last. A call of either
is one step here, so that the two may alternate in any order. Whatever else the daemon does leaves the
event words and the masks alone (`Elsewhere`; `step_words` says so of its steps), and moves descriptors
as it likes.

`Watch` has the history beside the words: `heard` is what each call of `tn_record_socket_event` recorded
for a descriptor since it was reported, and `reports` the descriptors that the calls of a run return.
-/

set_option autoImplicit false

namespace Tolunnet

open World

namespace Reports

/-! ## The calls -/

/-- `tn_lvo_getsocketevents`: its result, and the event word that is taken. A call without an
`event_ptr` is refused with `EINVAL`. -/
def tnLvoGetsocketevents (base : TnSocketBase) (gseLastFd : Int) (eventPtr : Bool) :
    Int × Option (Nat × Nat) :=
  if eventPtr then
    match Tolunnet.tnLvoGetsocketevents base gseLastFd with
    | some (fd, word) => (fd, some (fd, word))
    | none => (-1, none)
  else (-1, none)

/-- What a call of `tn_record_socket_event` is to record for a descriptor: the events that its mask
lets through, when the descriptor has the socket. -/
def effective (w : World) (i : SlotIdx) (eventMask : Nat) (b : BaseId) (fd : Nat) : Nat :=
  if (w.sockets i).inUse = true ∧ (w.sockets i).ownerBase = some b ∧
      tnSlotOwnerAlive w b = true ∧ fd < (w.bases b).dtablesize ∧ (w.bases b).fdMap fd = some i then
    eventMask &&& (w.bases b).eventMasks fd
  else 0

/-! ## Interleavings -/

/-- The daemon and its clients. `heard` is history: what was recorded for each descriptor since it was
reported, the last record first. -/
structure Watch where
  w : World := tnSlotTableInit
  gseLastFd : BaseId → Int := fun _ => -1
  heard : BaseId → Nat → List Nat := fun _ _ => []

/-- What happens next. -/
inductive Move where
  /-- The daemon calls `tn_record_socket_event`. -/
  | record (i : SlotIdx) (eventMask : Nat)
  /-- The daemon does something else. -/
  | elsewhere (w : World)
  /-- A client calls `GetSocketEvents`. -/
  | getEvents (b : BaseId) (eventPtr : Bool)
  /-- A client sets the event mask of a descriptor. -/
  | eventMask (b : BaseId) (sock : Int) (optval : Option Mem) (optlen : Int)
  /-- A client resizes its table. -/
  | dtablesize (b : BaseId) (newsize : Nat)
  /-- A base is built. -/
  | libOpen (b : BaseId) (base : TnSocketBase)

/-- The event words, the masks and the sizes of all bases are the same. -/
def Elsewhere (w w' : World) : Prop :=
  ∀ b, (w'.bases b).events = (w.bases b).events ∧
    (w'.bases b).eventMasks = (w.bases b).eventMasks ∧
    (w'.bases b).dtablesize = (w.bases b).dtablesize

namespace Watch

/-- A call of `tn_record_socket_event`. -/
def record (s : Watch) (i : SlotIdx) (eventMask : Nat) : Watch :=
  { s with
    w := tnRecordSocketEvent s.w i eventMask
    heard := fun b fd =>
      if effective s.w i eventMask b fd = 0 then s.heard b fd
      else effective s.w i eventMask b fd :: s.heard b fd }

/-- A call of `GetSocketEvents`. -/
def getEvents (s : Watch) (b : BaseId) (eventPtr : Bool) : Watch :=
  match (tnLvoGetsocketevents (s.w.bases b) (s.gseLastFd b) eventPtr).2 with
  | none => s
  | some (fd, _) =>
    { w := s.w.modBase b fun base => { base with events := Function.update base.events fd 0 }
      gseLastFd := Function.update s.gseLastFd b fd
      heard := Function.update s.heard b (Function.update (s.heard b) fd []) }

/-- The `SO_EVENTMASK` branch of `setsockopt`. -/
def eventMask (s : Watch) (b : BaseId) (sock : Int) (optval : Option Mem) (optlen : Int) : Watch :=
  if eventMaskOk (s.w.bases b) sock optval optlen then
    { s with w := s.w.modBase b fun base =>
        { base with eventMasks :=
            Function.update base.eventMasks sock.toNat (be32 (optval.getD fun _ => 0) 0) } }
  else s

/-- The next state. The entries that a table loses take their history with them. -/
def next (s : Watch) : Move → Watch
  | .record i e => s.record i e
  | .elsewhere w => { s with w := w }
  | .getEvents b eventPtr => s.getEvents b eventPtr
  | .eventMask b sock optval optlen => s.eventMask b sock optval optlen
  | .dtablesize b n =>
    { s with
      w := s.w.modBase b fun base => Sbtc.swapTables base n
      heard := Function.update s.heard b fun fd =>
        if fd < min n (s.w.bases b).dtablesize then s.heard b fd else [] }
  | .libOpen b base =>
    { w := s.w.modBase b fun _ => base
      gseLastFd := Function.update s.gseLastFd b (-1)
      heard := Function.update s.heard b fun _ => [] }

/-- What can happen: the other work of the daemon leaves the event words alone, no table is cut below an
open descriptor, and a base is built with its tables empty. -/
def Allowed (s : Watch) : Move → Prop
  | .elsewhere w => Elsewhere s.w w
  | .dtablesize b n => ∀ fd, (s.w.bases b).fdMap fd ≠ none → fd < n
  | .libOpen _ base => Clients.Fresh base
  | _ => True

/-- A run from one state. -/
def Follows : Watch → List Move → Prop
  | _, [] => True
  | s, m :: ms => s.Allowed m ∧ Follows (s.next m) ms

/-- Where it ends. -/
def run (s : Watch) (ms : List Move) : Watch := ms.foldl next s

/-- The descriptor that a step reports to the client of `b`. -/
def reported (b : BaseId) (s : Watch) : Move → Option Nat
  | .getEvents b' eventPtr =>
    if b' = b then (tnLvoGetsocketevents (s.w.bases b) (s.gseLastFd b) eventPtr).2.map Prod.fst
    else none
  | _ => none

/-- The descriptors that the calls of a run report to the client of `b`, in order. -/
def reports (b : BaseId) : Watch → List Move → List Nat
  | _, [] => []
  | s, m :: ms => (reported b s m).toList ++ reports b (s.next m) ms

/-- The table of `b` has `n` entries in every state of a run, and the base is not built anew. -/
def SizeStays (b : BaseId) (n : Nat) : Watch → List Move → Prop
  | s, [] => (s.w.bases b).dtablesize = n
  | s, m :: ms => (s.w.bases b).dtablesize = n ∧ (∀ base, m ≠ .libOpen b base) ∧
      SizeStays b n (s.next m) ms

/-! ## The words are what was heard -/

/-- The event word of each descriptor is the union of what was heard since it was reported, and nothing
is heard that is empty. -/
structure Exact (s : Watch) : Prop where
  word : ∀ b fd k, ((s.w.bases b).events fd).testBit k = true ↔ ∃ e ∈ s.heard b fd, e.testBit k = true
  filled : ∀ b fd, ∀ e ∈ s.heard b fd, e ≠ 0

/-- A descriptor waits to be reported if and only if something was heard for it. -/
theorem Exact.waits {s : Watch} (h : s.Exact) (b : BaseId) (fd : Nat) :
    (s.w.bases b).events fd ≠ 0 ↔ s.heard b fd ≠ [] := by
  constructor
  · intro some_word none_heard
    apply some_word
    refine Nat.eq_of_testBit_eq fun k => ?_
    rw [Nat.zero_testBit, Bool.eq_false_iff]
    intro bit
    obtain ⟨e, mem, -⟩ := (h.word b fd k).mp bit
    rw [none_heard] at mem
    cases mem
  · intro some_heard no_word
    obtain ⟨e, l, heard⟩ := List.exists_cons_of_ne_nil some_heard
    have mem : e ∈ s.heard b fd := heard ▸ List.mem_cons_self
    obtain ⟨k, bit⟩ := Nat.exists_testBit_of_ne_zero (h.filled b fd e mem)
    have has := (h.word b fd k).mpr ⟨e, mem, bit⟩
    rw [no_word, Nat.zero_testBit] at has
    cases has

end Watch

/-- What a call of `tn_record_socket_event` does to the event words is to add what it records. -/
theorem events_record (w : World) (i : SlotIdx) (e : Nat) (b : BaseId) (fd : Nat) :
    ((tnRecordSocketEvent w i e).bases b).events fd =
      (w.bases b).events fd ||| effective w i e b fd := by
  unfold tnRecordSocketEvent effective
  dsimp only
  by_cases live : (w.sockets i).inUse = true
  swap
  · rw [if_neg live, if_neg (fun h => live h.1), Nat.or_zero]
  rw [if_pos live]
  cases owner : (w.sockets i).ownerBase with
  | none =>
    rw [if_neg (fun h => by cases h.2.1), Nat.or_zero]
  | some c =>
    dsimp only
    by_cases alive : tnSlotOwnerAlive w c = true
    swap
    · rw [if_neg alive, if_neg, Nat.or_zero]
      · rfl
      · rintro ⟨-, same, alive', -⟩
        exact alive (Option.some.inj same ▸ alive')
    rw [if_pos alive]
    -- the wakeup of the client is no part of its base
    have written : ∀ w1 : World, w1.bases = (w.modBase c fun base =>
        { base with events := fun fd =>
            if fd < base.dtablesize ∧ base.fdMap fd = some i then
              base.events fd ||| e &&& (w.bases c).eventMasks fd
            else base.events fd }).bases →
        (w1.bases b).events fd = (w.bases b).events fd |||
          if (w.sockets i).inUse = true ∧ some c = some b ∧ tnSlotOwnerAlive w b = true ∧
              fd < (w.bases b).dtablesize ∧ (w.bases b).fdMap fd = some i then
            e &&& (w.bases b).eventMasks fd
          else 0 := by
      intro w1 same_bases
      rw [same_bases]
      by_cases same : b = c
      · subst same
        simp only [World.modBase, Function.update_self, live, alive, true_and]
        by_cases here : fd < (w.bases b).dtablesize ∧ (w.bases b).fdMap fd = some i
        · rw [if_pos here, if_pos here]
        · rw [if_neg here, if_neg here, Nat.or_zero]
      · have other : ¬ c = b := fun h => same h.symm
        simp [World.modBase, same, other]
    split <;> exact written _ rfl

/-- `GetSocketEvents` goes round. -/
theorem tnLvoGetsocketevents_pick (base : TnSocketBase) (cursor : Int) :
    Tolunnet.tnLvoGetsocketevents base cursor =
      (Rotation.pick base.dtablesize (fun fd => base.events fd != 0) cursor).map
        fun fd => (fd, base.events fd) := by
  unfold Tolunnet.tnLvoGetsocketevents Rotation.pick
  rw [Option.map_map]
  rfl

/-- What a call with an `event_ptr` takes. -/
theorem taken {base : TnSocketBase} {cursor : Int} {fd word : Nat}
    (h : (tnLvoGetsocketevents base cursor true).2 = some (fd, word)) :
    Rotation.pick base.dtablesize (fun fd => base.events fd != 0) cursor = some fd ∧
      word = base.events fd ∧ (tnLvoGetsocketevents base cursor true).1 = fd := by
  unfold tnLvoGetsocketevents at h ⊢
  rw [if_pos rfl, tnLvoGetsocketevents_pick] at h ⊢
  cases picked : Rotation.pick base.dtablesize (fun fd => base.events fd != 0) cursor with
  | none =>
    rw [picked] at h
    cases h
  | some s =>
    rw [picked] at h
    cases h
    exact ⟨rfl, rfl, rfl⟩

/-- A call with an `event_ptr` returns -1 if and only if every event word of the table is empty,
wherever the cursor stands. -/
theorem minus_one_iff (base : TnSocketBase) (cursor : Int) :
    (tnLvoGetsocketevents base cursor true).1 = -1 ↔ ∀ fd < base.dtablesize, base.events fd = 0 := by
  have nothing : Rotation.pick base.dtablesize (fun fd => base.events fd != 0) cursor = none ↔
      ∀ fd < base.dtablesize, (base.events fd != 0) = false := Rotation.pick_eq_none
  simp only [bne_eq_false_iff_eq] at nothing
  rw [← nothing]
  unfold tnLvoGetsocketevents
  rw [if_pos rfl, tnLvoGetsocketevents_pick]
  cases Rotation.pick base.dtablesize (fun fd => base.events fd != 0) cursor with
  | none => simp
  | some s =>
    show (s : Int) = -1 ↔ _
    constructor
    · intro negative
      omega
    · exact fun h => by cases h

namespace Watch

variable {s : Watch} {b : BaseId} {m : Move} {fd : Nat}

/-- The empty descriptor table has heard nothing. -/
theorem exact_init : Exact {} where
  word := fun b fd k => by
    show Nat.testBit 0 k = true ↔ _
    simp
  filled := fun b fd e mem => by cases mem

/-- A step that writes one base. -/
theorem Exact.modBase (h : s.Exact) (b : BaseId) (base : TnSocketBase) (gse : BaseId → Int)
    {heard : Nat → List Nat}
    (word : ∀ fd k, (base.events fd).testBit k = true ↔ ∃ e ∈ heard fd, e.testBit k = true)
    (filled : ∀ fd, ∀ e ∈ heard fd, e ≠ 0) :
    Exact { w := s.w.modBase b fun _ => base, gseLastFd := gse,
            heard := Function.update s.heard b heard } where
  word := by
    intro c fd k
    by_cases same : c = b
    · subst same
      simpa [World.modBase] using word fd k
    · simpa [World.modBase, same] using h.word c fd k
  filled := by
    intro c fd e mem
    by_cases same : c = b
    · subst same
      exact filled fd e (by simpa using mem)
    · exact h.filled c fd e (by simpa [same] using mem)

theorem Exact.record (h : s.Exact) (i : SlotIdx) (e : Nat) : (s.record i e).Exact where
  word := by
    intro b fd k
    show (((tnRecordSocketEvent s.w i e).bases b).events fd).testBit k = true ↔
      ∃ x ∈ (if effective s.w i e b fd = 0 then s.heard b fd
        else effective s.w i e b fd :: s.heard b fd), x.testBit k = true
    rw [events_record, Nat.testBit_or, Bool.or_eq_true, h.word b fd k]
    split
    · rename_i none
      simp [none]
    · simp only [List.mem_cons, exists_eq_or_imp]
      exact or_comm
  filled := by
    intro b fd x mem
    have mem : x ∈ (if effective s.w i e b fd = 0 then s.heard b fd
      else effective s.w i e b fd :: s.heard b fd) := mem
    split at mem
    · exact h.filled b fd x mem
    · rename_i some_event
      rcases List.mem_cons.mp mem with rfl | mem
      · exact some_event
      · exact h.filled b fd x mem

theorem Exact.getEvents (h : s.Exact) (b : BaseId) (eventPtr : Bool) :
    (s.getEvents b eventPtr).Exact := by
  unfold Watch.getEvents
  split
  · exact h
  · rename_i fd word taken
    refine h.modBase b
      { s.w.bases b with events := Function.update (s.w.bases b).events fd 0 } _
      (fun fd' k => ?_) fun fd' e mem => ?_
    · by_cases same : fd' = fd
      · subst same
        simp
      · simpa [same] using h.word b fd' k
    · by_cases same : fd' = fd
      · subst same
        simp at mem
      · exact h.filled b fd' e (by simpa [same] using mem)

/-- Every step keeps the words in line with what was heard. -/
theorem Exact.next (h : s.Exact) (ha : s.Allowed m) : (s.next m).Exact := by
  cases m with
  | record i e => exact h.record i e
  | elsewhere w' =>
    refine ⟨fun b fd k => ?_, h.filled⟩
    show ((w'.bases b).events fd).testBit k = true ↔ _
    rw [(ha b).1]
    exact h.word b fd k
  | getEvents b eventPtr => exact h.getEvents b eventPtr
  | eventMask b sock optval optlen =>
    show (s.eventMask b sock optval optlen).Exact
    unfold Watch.eventMask
    split
    · let v := be32 (optval.getD fun _ => 0) 0
      have kept := h.modBase b
        { s.w.bases b with eventMasks := Function.update (s.w.bases b).eventMasks sock.toNat v }
        s.gseLastFd (h.word b) (h.filled b)
      rwa [Function.update_eq_self] at kept
    · exact h
  | dtablesize b n =>
    refine h.modBase b (Sbtc.swapTables (s.w.bases b) n) _ (fun fd k => ?_) fun fd e mem => ?_
    · have copied : (if n < (s.w.bases b).dtablesize then n else (s.w.bases b).dtablesize) =
          min n (s.w.bases b).dtablesize := by
        split <;> omega
      unfold Sbtc.swapTables
      rw [copied]
      dsimp only
      split
      · exact h.word b fd k
      · simp
    · split at mem
      · exact h.filled b fd e mem
      · cases mem
  | libOpen b base =>
    refine h.modBase b base _ (fun fd k => ?_) fun fd e mem => by cases mem
    rw [Clients.Fresh.events ha fd]
    simp

/-- They are in line in every state that a run reaches. -/
theorem Exact.run {ms : List Move} (h : s.Exact) (hf : Follows s ms) : (s.run ms).Exact := by
  induction ms generalizing s with
  | nil => exact h
  | cons m ms ih => exact ih (h.next hf.1) hf.2

/-! ## Turns -/

theorem reported_getEvents (b : BaseId) (s : Watch) (eventPtr : Bool) :
    reported b s (.getEvents b eventPtr) =
      (tnLvoGetsocketevents (s.w.bases b) (s.gseLastFd b) eventPtr).2.map Prod.fst :=
  if_pos rfl

/-- A descriptor goes on waiting while nothing is reported to the client of `b`, and the cursor stays
where it is. -/
theorem next_waits {n : Nat} (ha : s.Allowed m) (hn : (s.w.bases b).dtablesize = n)
    (hn' : ((s.next m).w.bases b).dtablesize = n) (hb : ∀ base, m ≠ .libOpen b base)
    (hr : reported b s m = none) (hfd : fd < n) (hw : (s.w.bases b).events fd ≠ 0) :
    ((s.next m).w.bases b).events fd ≠ 0 ∧ (s.next m).gseLastFd b = s.gseLastFd b := by
  have other : ∀ {c : BaseId} {f : TnSocketBase → TnSocketBase}, b ≠ c →
      (s.w.modBase c f).bases b = s.w.bases b := fun h => Function.update_of_ne h _ _
  cases m with
  | record i e =>
    refine ⟨?_, rfl⟩
    show ((tnRecordSocketEvent s.w i e).bases b).events fd ≠ 0
    rw [events_record]
    exact fun none => hw (Nat.or_eq_zero_iff.mp none).1
  | elsewhere w' =>
    refine ⟨?_, rfl⟩
    show (w'.bases b).events fd ≠ 0
    rwa [(ha b).1]
  | getEvents c eventPtr =>
    show ((s.getEvents c eventPtr).w.bases b).events fd ≠ 0 ∧ (s.getEvents c eventPtr).gseLastFd b = _
    unfold Watch.getEvents
    split
    · exact ⟨hw, rfl⟩
    · rename_i fd' word took
      have apart : b ≠ c := by
        rintro rfl
        rw [reported_getEvents, took] at hr
        cases hr
      exact ⟨by rwa [other apart], Function.update_of_ne apart _ _⟩
  | eventMask c sock optval optlen =>
    show ((s.eventMask c sock optval optlen).w.bases b).events fd ≠ 0 ∧
      (s.eventMask c sock optval optlen).gseLastFd b = _
    unfold Watch.eventMask
    split
    · refine ⟨?_, rfl⟩
      by_cases same : b = c
      · subst same
        simpa [World.modBase] using hw
      · rwa [other same]
    · exact ⟨hw, rfl⟩
  | dtablesize c k =>
    refine ⟨?_, rfl⟩
    show ((s.w.modBase c fun base => Sbtc.swapTables base k).bases b).events fd ≠ 0
    by_cases same : b = c
    · subst same
      -- the size is the same, so nothing is cut off
      have size : k = n := by
        have := hn'
        simp only [Watch.next, World.modBase, Function.update_self] at this
        exact this
      simp only [World.modBase, Function.update_self, Sbtc.swapTables]
      rw [if_pos (by split <;> omega)]
      exact hw
    · rwa [other same]
  | libOpen c base =>
    have apart : b ≠ c := by
      rintro rfl
      exact hb base rfl
    refine ⟨?_, Function.update_of_ne apart _ _⟩
    show ((s.w.modBase c fun _ => base).bases b).events fd ≠ 0
    rwa [other apart]

/-- A call that takes another descriptor leaves `fd` waiting, and its cursor is nearer to it. -/
theorem next_turn {n t : Nat} (hn : (s.w.bases b).dtablesize = n) (hr : reported b s m = some t)
    (ht : t ≠ fd) (hfd : fd < n) (hw : (s.w.bases b).events fd ≠ 0) :
    ((s.next m).w.bases b).events fd ≠ 0 ∧ (s.next m).gseLastFd b = t ∧
      Rotation.ahead n t fd < Rotation.ahead n (s.gseLastFd b) fd := by
  cases m with
  | getEvents c eventPtr =>
    by_cases same : c = b
    · subst same
      rw [reported_getEvents] at hr
      obtain ⟨⟨t', word⟩, took, rfl⟩ := Option.map_eq_some_iff.mp hr
      cases eventPtr with
      | false => cases took
      | true =>
        obtain ⟨picked, -, -⟩ := taken took
        show ((s.getEvents c true).w.bases c).events fd ≠ 0 ∧ (s.getEvents c true).gseLastFd c = _ ∧ _
        unfold Watch.getEvents
        rw [took]
        refine ⟨?_, Function.update_self .., ?_⟩
        · simpa [World.modBase, Ne.symm ht] using hw
        · rw [hn] at picked
          exact Rotation.ahead_falls picked hfd (by simpa using hw) ht
    · rw [reported, if_neg same] at hr
      cases hr
  | record => cases hr
  | elsewhere => cases hr
  | eventMask => cases hr
  | dtablesize => cases hr
  | libOpen => cases hr

/-- The descriptors that are reported while `fd` waits come nearer to it. -/
theorem reports_chain {n : Nat} {ms : List Move} (hf : Follows s ms) (hs : SizeStays b n s ms)
    (hfd : fd < n) (hw : (s.w.bases b).events fd ≠ 0) (hr : fd ∉ reports b s ms) :
    Rotation.Chain n fd (s.gseLastFd b) (reports b s ms) := by
  induction ms generalizing s with
  | nil => exact .nil _
  | cons m ms ih =>
    obtain ⟨size, fresh, stays⟩ := hs
    have size' : ((s.next m).w.bases b).dtablesize = n := by
      cases ms with
      | nil => exact stays
      | cons => exact stays.1
    unfold reports at hr ⊢
    cases hm : reported b s m with
    | none =>
      rw [hm] at hr
      obtain ⟨waits, cursor⟩ := next_waits hf.1 size size' fresh hm hfd hw
      have chain := ih hf.2 stays waits hr
      rwa [cursor] at chain
    | some t =>
      rw [hm] at hr
      have apart : t ≠ fd := by
        rintro rfl
        exact hr (List.mem_append_left _ (by simp))
      obtain ⟨waits, cursor, near⟩ := next_turn size hm apart hfd hw
      have chain := ih hf.2 stays waits fun mem => hr (List.mem_append_right _ mem)
      rw [cursor] at chain
      exact .cons near chain

/-! ## The law -/

/-- What holds of `GetSocketEvents` in a state. `refused` is about a call without an `event_ptr`, the
others about the calls that have one. -/
structure Truthful (s : Watch) : Prop where
  exact : ∀ b fd word, (tnLvoGetsocketevents (s.w.bases b) (s.gseLastFd b) true).2 = some (fd, word) →
    (tnLvoGetsocketevents (s.w.bases b) (s.gseLastFd b) true).1 = fd ∧
      ∀ k, word.testBit k = true ↔ ∃ e ∈ s.heard b fd, e.testBit k = true
  none : ∀ b cursor, (tnLvoGetsocketevents (s.w.bases b) cursor true).1 = -1 ↔
    ∀ fd < (s.w.bases b).dtablesize, s.heard b fd = []
  refused : ∀ b, (tnLvoGetsocketevents (s.w.bases b) (s.gseLastFd b) false).1 = -1 ∧
    s.next (.getEvents b false) = s
  fair : ∀ ms b fd, Follows s ms → fd < (s.w.bases b).dtablesize → s.heard b fd ≠ [] →
    SizeStays b (s.w.bases b).dtablesize s ms → fd ∉ reports b s ms → (reports b s ms).Nodup

/-- In every interleaving, a call reports exactly what was heard for a descriptor since it was reported,
it returns -1 if and only if nothing waits, and while a descriptor waits no other one is reported
twice. -/
theorem truthful_of_follows {ms : List Move} (hf : Follows {} ms) : Truthful (run {} ms) := by
  have exact_run : (run {} ms).Exact := exact_init.run hf
  generalize run {} ms = s at exact_run
  -- a descriptor is reported as long as something was heard on it
  have waits := exact_run.waits
  constructor
  · intro b fd word took
    obtain ⟨-, rfl, result⟩ := taken took
    exact ⟨result, exact_run.word b fd⟩
  · intro b cursor
    rw [minus_one_iff]
    have same : ∀ fd, (s.w.bases b).events fd = 0 ↔ s.heard b fd = [] :=
      fun fd => not_iff_not.mp (waits b fd)
    exact forall₂_congr fun fd _ => same fd
  · exact fun b => ⟨rfl, rfl⟩
  -- a chain of reports walks through the descriptors and repeats none
  · intro ms' b fd hf' hfd heard stays unreported
    exact (reports_chain hf' stays hfd ((waits b fd).mpr heard) unreported).nodup

/-- Base 1 is open and has a socket at descriptor 0. -/
def attached (i : SlotIdx) : World :=
  { tnSlotTableInit with
    openBases := fun k => if k.val = 0 then some 1 else none
    sockets := fun j => if j = i then { inUse := true, ownerBase := some 1 } else {}
    bases := fun b => if b = 1 then { fdMap := fun fd => if fd = 0 then some i else none } else {} }

/-- The client asks for read and write events of the socket, and the daemon records a read event and
one that the mask holds back. -/
def oneEvent (i : SlotIdx) : List Move :=
  [.elsewhere (attached i), .eventMask 1 0 (some fun o => if o = 3 then 0x18 else 0) 4,
    .record i 0x08, .record i 0x20]

theorem oneEvent_follows (i : SlotIdx) : Follows {} (oneEvent i) := by
  refine ⟨fun b => ?_, trivial, trivial, trivial, trivial⟩
  show ((attached i).bases b).events = (tnSlotTableInit.bases b).events ∧ _
  unfold attached
  dsimp only
  split <;> exact ⟨rfl, rfl, rfl⟩

theorem truthful_of_follows_oneEvent : Truthful (run {} (oneEvent 0)) :=
  truthful_of_follows (oneEvent_follows 0)

example : (tnLvoGetsocketevents ((run {} (oneEvent 0)).w.bases 1) (-1) true) = (0, some (0, 0x08)) := by
  decide

/-- A call without an `event_ptr` returns -1 while an event waits. -/
theorem not_forall_minus_one : ¬ ∀ ms, Follows {} ms → ∀ b eventPtr,
    (tnLvoGetsocketevents ((run {} ms).w.bases b) ((run {} ms).gseLastFd b) eventPtr).1 = -1 ↔
      ∀ fd < ((run {} ms).w.bases b).dtablesize, ((run {} ms).w.bases b).events fd = 0 := by
  intro hall
  have none := (hall (oneEvent 0) (oneEvent_follows 0) 1 false).mp rfl 0 (by decide)
  exact absurd none (by decide)

end Watch
end Reports
end Tolunnet
