import Mathlib.Tactic.Tauto
import Tolunnet.Client.Exchange

/-!
# `Tolunnet.Client.Ownership`: whose a message is

`Holds` is the invariant in the middle of a call. It says which messages may be outstanding and
which blocks of memory there are, so that each use of a message by the client can be checked against
it. Between two calls it is `Clean`: only orphans are outstanding, and every block is the base's,
the CANCEL message's or an orphan's.

The second half goes through the loops that take messages from the port. `awaitOwn_comes` is the one
where the number of turns matters.
-/

set_option autoImplicit false

namespace Tolunnet

namespace Ipc

open Requests

variable {s s' : Machine} {m msg cancel : Addr} {old : List Event} {P : Event → Prop}
  {mine sent : List Addr} {got : Option Addr} {fuel : Nat}

/-! ## Memory -/

/-- The blocks of a base, with those that only the running call knows. -/
def blocks (b : Base) (mine : List Addr) : List Addr :=
  embedded :: (b.ipcCancelMsg.toList ++ (mine ++ b.ipcOrphan))

/-- The invariant in the middle of a call: `mine` are the blocks that only this call knows, and
`sent` are the messages that may be outstanding besides the orphans. -/
structure Holds (s : Machine) (mine sent : List Addr) : Prop where
  sound : Sound s
  clean : s.fault = false
  heap : s.heap.Perm (blocks s.base mine)
  nodup : s.heap.Nodup
  out : ∀ m, s.io.Outstanding m → m ∈ sent ∨ m ∈ s.base.ipcOrphan

/-- The invariant between two calls. -/
def Clean (s : Machine) : Prop := Holds s [] []

namespace Holds

/-- No block is named twice. -/
theorem distinct (h : Holds s mine sent) : (blocks s.base mine).Nodup := h.heap.nodup_iff.mp h.nodup

/-- What the others do takes no block. -/
theorem runs (h : Holds s mine sent) (r : Runs s s') : Holds s' mine sent where
  sound := r.sound h.sound
  clean := r.fault.trans h.clean
  heap := by rw [r.heap, r.base]; exact h.heap
  nodup := r.heap ▸ h.nodup
  out m out := r.base ▸ h.out m (r.out m out)

/-- Neither of this call nor an orphan: the message is ours. -/
theorem ours (h : Holds s mine sent) (hs : m ∉ sent) (ho : m ∉ s.base.ipcOrphan) :
    ¬ s.io.Outstanding m := fun out => (h.out m out).elim hs ho

/-- What has come back is outstanding no more. -/
theorem back (h : Holds s mine (m :: sent)) (ours : ¬ s.io.Outstanding m) : Holds s mine sent where
  sound := h.sound
  clean := h.clean
  heap := h.heap
  nodup := h.nodup
  out n out := by
    rcases h.out n out with mem | orphan
    · rcases List.mem_cons.mp mem with rfl | mem
      · exact (ours out).elim
      · exact .inl mem
    · exact .inr orphan

/-- A block of ours is written. -/
theorem modMsg (h : Holds s mine sent) (ours : ¬ s.io.Outstanding m) (f : TnIpcMsg → TnIpcMsg) :
    Holds (s.modMsg m f) mine sent where
  sound := ⟨h.sound.port, h.sound.tally⟩
  clean := by simp [Machine.modMsg, Machine.touch, h.clean, ours]
  heap := h.heap
  nodup := h.nodup
  out := h.out

/-- An assignment that leaves the CANCEL message and the orphans alone. -/
theorem modBase (h : Holds s mine sent) {f : Base → Base}
    (cancel : (f s.base).ipcCancelMsg = s.base.ipcCancelMsg)
    (orphan : (f s.base).ipcOrphan = s.base.ipcOrphan) : Holds (s.modBase f) mine sent where
  sound := ⟨h.sound.port, h.sound.tally⟩
  clean := h.clean
  heap := by
    show s.heap.Perm (blocks (f s.base) mine)
    rw [blocks, cancel, orphan]
    exact h.heap
  nodup := h.nodup
  out m out := by
    show m ∈ sent ∨ m ∈ (f s.base).ipcOrphan
    rw [orphan]
    exact h.out m out

theorem setErrno (h : Holds s mine sent) (e : Nat) : Holds (s.setErrno e) mine sent :=
  h.modBase rfl rfl

theorem setSignal (h : Holds s mine sent) (mask : UInt32) : Holds (s.setSignal mask) mine sent :=
  h.runs (.signals s _)

/-- `find` only uses up an answer. -/
theorem find (h : Holds s mine sent) : Holds s.find.2 mine sent :=
  h.runs (.of_eq rfl rfl rfl rfl rfl rfl)

theorem findPort (h : Holds s mine sent) : Holds s.findPort.2 mine sent := by
  unfold Machine.findPort
  split
  · exact h
  · have found : Holds s.find.2 mine sent := h.find
    exact found.modBase (f := fun b => { b with tolunnetPort := s.find.1 }) rfl rfl

theorem tnEnsureTimer (h : Holds s mine sent) : Holds s.tnEnsureTimer.2 mine sent := by
  unfold Machine.tnEnsureTimer
  split
  · exact h
  · exact Holds.modBase (s := s.find.2) h.find (f := fun b => { b with timer := s.find.1 }) rfl rfl

/-- A message of this call goes to the chain, where it may be outstanding. -/
theorem orphan (h : Holds s (m :: mine) (m :: sent)) : Holds (s.orphan m) mine sent where
  sound := ⟨h.sound.port, h.sound.tally⟩
  clean := h.clean
  heap := by
    refine h.heap.trans (List.Perm.cons _ (List.Perm.append_left _ ?_))
    exact List.perm_middle.symm
  nodup := h.nodup
  out n out := by
    show n ∈ sent ∨ n ∈ m :: s.base.ipcOrphan
    have := h.out n out
    simp only [List.mem_cons] at this ⊢
    tauto

/-- The CANCEL message goes to the chain. -/
theorem orphanCancel (h : Holds s mine (cancel :: sent)) (hc : s.base.ipcCancelMsg = some cancel) :
    Holds ((s.orphan cancel).modBase fun b => { b with ipcCancelMsg := none }) mine sent where
  sound := ⟨h.sound.port, h.sound.tally⟩
  clean := h.clean
  heap := by
    have heap := h.heap
    rw [blocks, hc] at heap
    refine heap.trans (List.Perm.cons _ ?_)
    show (cancel :: (mine ++ s.base.ipcOrphan)).Perm (mine ++ cancel :: s.base.ipcOrphan)
    exact List.perm_middle.symm
  nodup := h.nodup
  out n out := by
    show n ∈ sent ∨ n ∈ cancel :: s.base.ipcOrphan
    have := h.out n out
    simp only [List.mem_cons] at this ⊢
    tauto

/-- `AllocVec` for this call. -/
theorem alloc_mine (h : Holds s mine sent) (fresh : m ∉ s.heap) (allocs : List (Option Addr)) :
    Holds { s with allocs, heap := m :: s.heap } (m :: mine) sent where
  sound := ⟨h.sound.port, h.sound.tally⟩
  clean := h.clean
  heap := by
    refine (h.heap.cons m).trans ((List.Perm.swap _ _ _).trans (List.Perm.cons _ ?_))
    exact List.perm_middle.symm
  nodup := List.nodup_cons.mpr ⟨fresh, h.nodup⟩
  out := h.out

/-- `AllocVec` for the CANCEL message. -/
theorem alloc_cancel (h : Holds s mine sent) (fresh : m ∉ s.heap) (allocs : List (Option Addr))
    (hc : s.base.ipcCancelMsg = none) :
    Holds (({ s with allocs, heap := m :: s.heap } : Machine).modBase fun b =>
      { b with ipcCancelMsg := some m }) mine sent where
  sound := ⟨h.sound.port, h.sound.tally⟩
  clean := h.clean
  heap := by
    have heap := h.heap
    rw [blocks, hc] at heap
    exact (heap.cons m).trans (List.Perm.swap _ _ _)
  nodup := List.nodup_cons.mpr ⟨fresh, h.nodup⟩
  out := h.out

/-- Freeing a block of this call that is ours. -/
theorem free_mine (h : Holds s (m :: mine) sent) (ours : ¬ s.io.Outstanding m) :
    Holds (s.freeVec m) mine sent where
  sound := ⟨h.sound.port, h.sound.tally⟩
  clean := by
    have mem : m ∈ s.heap := h.heap.mem_iff.mpr (by simp [blocks])
    simp [Machine.freeVec, h.clean, ours, mem]
  heap := by
    have swapped : s.heap.Perm (m :: blocks s.base mine) :=
      h.heap.trans ((List.Perm.cons _ List.perm_middle).trans (List.Perm.swap _ _ _))
    have := swapped.erase m
    rwa [List.erase_cons_head] at this
  nodup := h.nodup.erase m
  out := h.out

/-- A message is sent that is ours. It is with the daemon from then on. -/
theorem putMsg (h : Holds s mine sent) (ours : ¬ s.io.Outstanding m)
    (e : s.putMsg m = some s') :
    Holds s' mine (m :: sent) ∧ s'.base = s.base ∧
      (∃ before, (∀ e ∈ before, e.IsReply) ∧
        Told Event.IsReply m (.put m (s.msgs m).cmd :: (before ++ s.log)) s') ∧
      (∀ n before, n ≠ m → Told Event.IsReply n before s →
        Told (fun e => e.IsReply ∨ e = .put m (s.msgs m).cmd) n before s') ∧
      ∀ n, s'.io.Outstanding n → n = m ∨ s.io.Outstanding n := by
  simp only [Machine.putMsg, Option.bind_eq_bind, Option.bind_eq_some_iff] at e
  obtain ⟨s₁, tick, e⟩ := e
  obtain rfl := Option.some.inj e
  have runs := tick_runs tick
  have h₁ := h.runs runs
  have ours₁ : ¬ s₁.io.Outstanding m := fun out => ours (runs.out m out)
  have place : s₁.io.place m = .ours := not_not.mp ours₁
  have same : s₁.msgs m = s.msgs m := runs.kept m ours
  obtain ⟨replied, eq₁, all⟩ := runs.log
  refine ⟨⟨⟨h₁.sound.port.send ours₁, fun n => ?_⟩, ?_, h₁.heap, h₁.nodup, fun n out => ?_⟩,
    runs.base, ⟨replied, all, [], ?_, by simp, .inl ?_⟩, fun n before hn told => ?_,
    fun n out => ?_⟩
  · have tally := h₁.sound.tally n
    by_cases hn : n = m
    · subst hn
      simp only [place] at tally
      simpa [Io.send] using tally
    · simpa [Io.send, hn, Ne.symm hn] using tally
  · simp [Machine.touch, h₁.clean, ours₁]
  · rcases Io.outstanding_send.mp out with rfl | out
    · exact .inl List.mem_cons_self
    · exact (h₁.out n out).imp (List.mem_cons_of_mem _) id
  · rw [← same, ← eq₁]
    rfl
  · show (s₁.io.send m).place m = .device
    simp [Io.send]
  · obtain ⟨recent, eq, all, told⟩ := runs.told _ n before (fun _ reply => reply) told
    refine ⟨.put m (s₁.msgs m).cmd :: recent, by simp [eq], fun e mem => ?_, ?_⟩
    · rcases List.mem_cons.mp mem with rfl | mem
      · exact .inr (by rw [same])
      · exact .inl (all e mem)
    rcases told with device | reply
    · left
      show (s₁.io.send m).place n = .device
      simpa [Io.send, hn] using device
    · exact .inr (List.mem_cons_of_mem _ reply)
  · exact (Io.outstanding_send.mp out).imp id (runs.out n)

end Holds

/-- Without memory nothing changes. -/
theorem allocVec_none (h : s.allocVec = (none, s')) : s' = { s with allocs := s'.allocs } := by
  unfold Machine.allocVec at h
  split at h
  · exact (Prod.mk.inj h).2 ▸ rfl
  · exact (Prod.mk.inj h).2 ▸ rfl
  · split at h
    · exact (Prod.mk.inj h).2 ▸ rfl
    · cases (Prod.mk.inj h).1

/-- A new block is none of the old ones. -/
theorem allocVec_some (h : s.allocVec = (some m, s')) :
    m ∉ s.heap ∧ s' = { s with allocs := s'.allocs, heap := m :: s.heap } := by
  unfold Machine.allocVec at h
  split at h
  · cases (Prod.mk.inj h).1
  · cases (Prod.mk.inj h).1
  · split at h
    · cases (Prod.mk.inj h).1
    · rename_i fresh
      obtain ⟨eq, rfl⟩ := Prod.mk.inj h
      obtain rfl := Option.some.inj eq
      exact ⟨fresh, rfl⟩

/-! ## The loops -/

/-- What the flags of the drain say: a message that was got is not outstanding. -/
def Back (msg cancel : Addr) (gotMsg gotCancel : Bool) (s : Machine) : Prop :=
  (gotMsg = true → ¬ s.io.Outstanding msg) ∧ (gotCancel = true → ¬ s.io.Outstanding cancel)

/-- One message that is taken from the port, as the drain notes it. -/
theorem Back.take {gotMsg gotCancel : Bool} (b : Back msg cancel gotMsg gotCancel s) (r : Runs s s')
    (taken : ∀ m, got = some m → ¬ s'.io.Outstanding m) :
    Back msg cancel (gotMsg || got == some msg)
      (gotCancel || (got != some msg && got == some cancel)) s' := by
  constructor
  · intro h
    rcases Bool.or_eq_true_iff.mp h with before | now
    · exact fun out => b.1 before (r.out msg out)
    · exact taken msg (beq_iff_eq.mp now)
  · intro h
    rcases Bool.or_eq_true_iff.mp h with before | now
    · exact fun out => b.2 before (r.out cancel out)
    · exact taken cancel (beq_iff_eq.mp (Bool.and_eq_true_iff.mp now).2)

theorem Back.runs {gotMsg gotCancel : Bool} (b : Back msg cancel gotMsg gotCancel s)
    (r : Runs s s') : Back msg cancel gotMsg gotCancel s' :=
  ⟨fun h out => b.1 h (r.out msg out), fun h out => b.2 h (r.out cancel out)⟩

/-- The loop ends with the message back. -/
theorem takeBack_runs (sound : Sound s) (h : Machine.takeBack msg fuel s = some s') :
    Runs s s' ∧ ¬ s'.io.Outstanding msg := by
  induction fuel generalizing s with
  | zero => cases h
  | succ fuel ih =>
    simp only [Machine.takeBack, Option.bind_eq_bind, Option.bind_eq_some_iff, Prod.exists] at h
    obtain ⟨early, s₁, get, h⟩ := h
    obtain ⟨runs, taken⟩ := getMsg_runs sound get
    split at h
    · exact Option.some.inj h ▸ ⟨runs, (taken msg ‹_›).2⟩
    · obtain ⟨s₂, port, h⟩ := Option.bind_eq_some_iff.mp h
      have runs := runs.trans (waitPort_runs port).1
      obtain ⟨rest, back⟩ := ih (runs.sound sound) h
      exact ⟨runs.trans rest, back⟩

/-- The drain loop takes back what it finds. -/
theorem drain_runs {gotMsg gotCancel gotMsg' gotCancel' : Bool} (sound : Sound s)
    (b : Back msg cancel gotMsg gotCancel s)
    (h : Machine.drain msg cancel fuel gotMsg gotCancel s = some (gotMsg', gotCancel', s')) :
    Runs s s' ∧ Back msg cancel gotMsg' gotCancel' s' ∧ gotMsg' = true := by
  induction fuel generalizing s gotMsg gotCancel with
  | zero => cases h
  | succ fuel ih =>
    simp only [Machine.drain, Option.bind_eq_bind] at h
    split at h
    · rename_i done
      simp only [Option.some.injEq, Prod.mk.injEq] at h
      obtain ⟨rfl, rfl, rfl⟩ := h
      exact ⟨.refl _, b, (Bool.and_eq_true_iff.mp done).1⟩
    · simp only [Option.bind_eq_some_iff, Prod.exists] at h
      obtain ⟨s₁, port, early, s₂, get, h⟩ := h
      have runs := (waitPort_runs port).1
      obtain ⟨runs', taken⟩ := getMsg_runs (runs.sound sound) get
      have both := runs.trans runs'
      obtain ⟨rest, back, got⟩ := ih (both.sound sound) (b.take both fun m hm => (taken m hm).2) h
      exact ⟨both.trans rest, back, got⟩

/-- So does the bounded one. -/
theorem drainBounded_runs {t0 : UInt32} {gotMsg gotCancel gotMsg' gotCancel' : Bool}
    (sound : Sound s) (b : Back msg cancel gotMsg gotCancel s)
    (h : Machine.drainBounded msg cancel t0 fuel gotMsg gotCancel s =
      some (gotMsg', gotCancel', s')) :
    Runs s s' ∧ Back msg cancel gotMsg' gotCancel' s' := by
  induction fuel generalizing s gotMsg gotCancel with
  | zero => cases h
  | succ fuel ih =>
    have stop : ∀ {s : Machine}, Back msg cancel gotMsg gotCancel s →
        some (gotMsg, gotCancel, s) = some (gotMsg', gotCancel', s') →
        Runs s s' ∧ Back msg cancel gotMsg' gotCancel' s' := by
      intro s b h
      simp only [Option.some.injEq, Prod.mk.injEq] at h
      obtain ⟨rfl, rfl, rfl⟩ := h
      exact ⟨.refl _, b⟩
    simp only [Machine.drainBounded, Option.bind_eq_bind] at h
    split at h
    · exact stop b h
    · simp only [Option.bind_eq_some_iff, Prod.exists] at h
      obtain ⟨now, s₁, ticks, h⟩ := h
      have runs := tnTicksNow_runs ticks
      split at h
      · obtain ⟨rest, back⟩ := stop (b.runs runs) h
        exact ⟨runs.trans rest, back⟩
      · simp only [Option.bind_eq_some_iff, Prod.exists] at h
        obtain ⟨early, s₂, get, h⟩ := h
        obtain ⟨runs', taken⟩ := getMsg_runs (runs.sound sound) get
        have both := runs.trans runs'
        split at h
        · simp only [Option.bind_eq_some_iff, Prod.exists] at h
          obtain ⟨fired, s₃, wait, s₄, retire, h⟩ := h
          have all := (both.trans (wait_runs wait)).trans (retireTimer_runs retire)
          obtain ⟨rest, back⟩ := ih (all.sound sound) (b.runs all) h
          exact ⟨all.trans rest, back⟩
        · obtain ⟨rest, back⟩ := ih (both.sound sound) (b.take both fun m hm => (taken m hm).2) h
          exact ⟨both.trans rest, back⟩

/-- The drain of a CANCEL. Without a bound it only ends with the message. -/
theorem drainReplies_runs {bounded gotMsg gotCancel : Bool} (sound : Sound s)
    (h : s.drainReplies msg cancel bounded = some (gotMsg, gotCancel, s')) :
    Runs s s' ∧ Back msg cancel gotMsg gotCancel s' ∧ (bounded = false → gotMsg = true) := by
  have start : ∀ s : Machine, Back msg cancel false false s := fun s => ⟨by simp, by simp⟩
  unfold Machine.drainReplies at h
  split at h
  · simp only [Option.bind_eq_bind, Option.bind_eq_some_iff, Prod.exists] at h
    obtain ⟨s₁, retire, t0, s₂, ticks, h⟩ := h
    have runs := (retireTimer_runs retire).trans (tnTicksNow_runs ticks)
    obtain ⟨rest, back⟩ := drainBounded_runs (runs.sound sound) (start s₂) h
    exact ⟨runs.trans rest, back, fun unbounded => by simp_all⟩
  · obtain ⟨runs, back, got⟩ := drain_runs sound (start s) h
    exact ⟨runs, back, fun _ => got⟩

/-- Late replies are taken off. -/
theorem drainStale_runs (sound : Sound s) (h : Machine.drainStale fuel s = some s') :
    Runs s s' := by
  induction fuel generalizing s with
  | zero => cases h
  | succ fuel ih =>
    simp only [Machine.drainStale, Option.bind_eq_bind, Option.bind_eq_some_iff, Prod.exists] at h
    obtain ⟨early, s₁, get, h⟩ := h
    have runs := (getMsg_runs sound get).1
    cases early with
    | none => exact Option.some.inj h ▸ runs
    | some m =>
      dsimp only at h
      split at h
      · exact Option.some.inj h ▸ runs
      · exact runs.trans (ih (runs.sound sound) h)

theorem dropStale_runs (sound : Sound s) (h : s.dropStale = some s') : Runs s s' := by
  unfold Machine.dropStale at h
  split at h
  · exact Option.some.inj h ▸ .refl _
  · exact drainStale_runs sound h

/-- A wait under the watchdog. -/
theorem watch_runs {breakMask t0 budget : UInt32} {fired : Machine.Fired}
    (h : Machine.watch breakMask t0 budget fuel s = some (fired, s')) : Runs s s' := by
  induction fuel generalizing s with
  | zero => cases h
  | succ fuel ih =>
    simp only [Machine.watch, Option.bind_eq_bind, Option.bind_eq_some_iff, Prod.exists] at h
    obtain ⟨mask, s₁, wait, s₂, retire, h⟩ := h
    have runs := (wait_runs wait).trans (retireTimer_runs retire)
    split at h
    · exact (Prod.mk.inj (Option.some.inj h)).2 ▸ runs
    · split at h
      · exact (Prod.mk.inj (Option.some.inj h)).2 ▸ runs
      · simp only [Option.bind_eq_some_iff, Prod.exists] at h
        obtain ⟨now, s₃, ticks, h⟩ := h
        have runs := runs.trans (tnTicksNow_runs ticks)
        split at h
        · exact (Prod.mk.inj (Option.some.inj h)).2 ▸ runs
        · exact runs.trans (ih h)

/-- Only a command that may park is broken. -/
theorem watch_broken {breakMask t0 budget mask : UInt32}
    (h : Machine.watch breakMask t0 budget fuel s = some (.broken mask, s')) : breakMask ≠ 0 := by
  induction fuel generalizing s with
  | zero => cases h
  | succ fuel ih =>
    simp only [Machine.watch, Option.bind_eq_bind, Option.bind_eq_some_iff, Prod.exists] at h
    obtain ⟨fired, s₁, -, s₂, -, h⟩ := h
    split at h
    · rintro rfl
      rename_i broken
      exact broken (UInt32.and_zero)
    · split at h
      · cases (Prod.mk.inj (Option.some.inj h)).1
      · simp only [Option.bind_eq_some_iff, Prod.exists] at h
        obtain ⟨now, s₃, -, h⟩ := h
        split at h
        · cases (Prod.mk.inj (Option.some.inj h)).1
        · exact ih h

/-- The port is emptied. -/
theorem drainPort_runs (sound : Sound s) (h : Machine.drainPort fuel s = some s') : Runs s s' := by
  induction fuel generalizing s with
  | zero => cases h
  | succ fuel ih =>
    simp only [Machine.drainPort, Option.bind_eq_bind, Option.bind_eq_some_iff, Prod.exists] at h
    obtain ⟨got, s₁, get, h⟩ := h
    have runs := (getMsg_runs sound get).1
    split at h
    · exact Option.some.inj h ▸ runs
    · exact runs.trans (ih (runs.sound sound) h)

/-! ## The final loop -/

/-- How many orphans are outstanding: each may still come to the port. -/
def late (s : Machine) : Nat := s.base.ipcOrphan.countP fun m => decide (s.io.Outstanding m)

/-- No reply gets later. -/
theorem Runs.late_le (r : Runs s s') : late s' ≤ late s := by
  unfold late
  rw [r.base]
  exact List.countP_mono_left fun m _ h => decide_eq_true (r.out m (of_decide_eq_true h))

/-- A message that is sent is not late. -/
theorem late_put (base : s'.base = s.base)
    (out : ∀ n, s'.io.Outstanding n → n = m ∨ s.io.Outstanding n) (hm : m ∉ s.base.ipcOrphan) :
    late s' ≤ late s := by
  unfold late
  rw [base]
  refine List.countP_mono_left fun n mem h => decide_eq_true ?_
  exact (out n (of_decide_eq_true h)).resolve_left fun eq => hm (eq ▸ mem)

/-- An orphan that is taken from the port comes no more. -/
theorem Runs.late_lt (r : Runs s s') (orphan : m ∈ s.base.ipcOrphan) (out : s.io.Outstanding m)
    (ours : ¬ s'.io.Outstanding m) : late s' < late s := by
  unfold late
  rw [r.base]
  have le : ∀ l : List Addr, l.countP (fun n => decide (s'.io.Outstanding n)) ≤
      l.countP fun n => decide (s.io.Outstanding n) := fun l =>
    List.countP_mono_left fun n _ h => decide_eq_true (r.out n (of_decide_eq_true h))
  obtain ⟨front, rest, eq⟩ := List.append_of_mem orphan
  rw [eq, List.countP_append, List.countP_append, List.countP_cons, List.countP_cons]
  have := le front
  have := le rest
  simp only [out, ours, decide_true, decide_false, if_true, Bool.false_eq_true, if_false]
  omega

/-- What is in the queue stays there. -/
theorem move_queue (s : Machine) (a : Move) (h : s.io.queue () ≠ []) :
    (s.move a).io.queue () ≠ [] := by
  cases a with
  | write m x =>
    simp only [Machine.move]
    split <;> exact h
  | reply m =>
    simp only [Machine.move]
    split
    · rename_i held
      simp [Io.reply, held]
    · exact h
  | signal mask => exact h
  | clock t => exact h

/-- Only the client takes messages from its port. -/
theorem tick_queue (h : s.io.queue () ≠ []) (tick : s.tick = some s') : s'.io.queue () ≠ [] := by
  have fold : ∀ (now : List Move) (s : Machine), s.io.queue () ≠ [] →
      (now.foldl Machine.move s).io.queue () ≠ [] := by
    intro now
    induction now with
    | nil => exact fun _ h => h
    | cons a now ih => exact fun s h => ih _ (move_queue s a h)
  unfold Machine.tick at tick
  split at tick
  · cases tick
  · exact Option.some.inj tick ▸ fold _ _ h

/-- A queue with something in it gives it. -/
theorem getMsg_queue (h : s.io.queue () ≠ []) (get : s.getMsg = some (got, s')) : got ≠ none := by
  simp only [Machine.getMsg, Option.bind_eq_bind, Option.bind_eq_some_iff] at get
  obtain ⟨s₁, tick, eq⟩ := get
  have queued := tick_queue h tick
  cases head : (s₁.io.queue ()).head? with
  | none => exact (queued (List.head?_eq_none_iff.mp head)).elim
  | some m =>
    simp only [head, Option.some.injEq, Prod.mk.injEq] at eq
    rw [← eq.1]
    exact Option.some_ne_none m

/-- The last loop waits for its own message. -/
theorem awaitOwn_runs {n : Nat} {got' : Option Addr} (sound : Sound s)
    (back : got = some msg → ¬ s.io.Outstanding msg)
    (h : s.awaitOwn msg n got = some (got', s')) :
    Runs s s' ∧ (got' = some msg → ¬ s'.io.Outstanding msg) := by
  induction n generalizing s got with
  | zero =>
    obtain ⟨rfl, rfl⟩ := Prod.mk.inj (Option.some.inj h)
    exact ⟨.refl _, back⟩
  | succ n ih =>
    simp only [Machine.awaitOwn, Option.bind_eq_bind] at h
    split at h
    · obtain ⟨rfl, rfl⟩ := Prod.mk.inj (Option.some.inj h)
      exact ⟨.refl _, back⟩
    · simp only [Option.bind_eq_some_iff, Prod.exists] at h
      obtain ⟨s₁, port, early, s₂, get, h⟩ := h
      have runs := (waitPort_runs port).1
      obtain ⟨runs', taken⟩ := getMsg_runs (runs.sound sound) get
      have both := runs.trans runs'
      obtain ⟨rest, back⟩ := ih (both.sound sound) (fun hm => (taken msg hm).2) h
      exact ⟨both.trans rest, back⟩

/-- With fewer late messages than turns, the own message comes. -/
theorem awaitOwn_comes {n : Nat} {got' : Option Addr} (holds : Holds s mine [msg])
    (few : late s < n) (h : s.awaitOwn msg n got = some (got', s')) : got' = some msg := by
  induction n generalizing s got with
  | zero => cases few
  | succ n ih =>
    simp only [Machine.awaitOwn, Option.bind_eq_bind] at h
    split at h
    · rename_i own
      exact (Prod.mk.inj (Option.some.inj h)).1 ▸ own
    · simp only [Option.bind_eq_some_iff, Prod.exists] at h
      obtain ⟨s₁, port, early, s₂, get, h⟩ := h
      obtain ⟨runs, queued⟩ := waitPort_runs port
      have holds₁ := holds.runs runs
      obtain ⟨runs', taken⟩ := getMsg_runs holds₁.sound get
      obtain ⟨m, rfl⟩ := Option.ne_none_iff_exists'.mp (getMsg_queue queued get)
      by_cases own : m = msg
      · -- the loop looks at what it has before it waits again
        subst own
        cases n with
        | zero => exact (Prod.mk.inj (Option.some.inj h)).1.symm
        | succ n =>
          rw [Machine.awaitOwn, if_pos rfl] at h
          exact (Prod.mk.inj (Option.some.inj h)).1.symm
      · obtain ⟨out, ours⟩ := taken m rfl
        have orphan : m ∈ s₁.base.ipcOrphan :=
          (holds₁.out m out).resolve_left fun mem => own (List.mem_singleton.mp mem)
        have fewer := runs'.late_lt orphan out ours
        have := runs.late_le
        exact ih (holds₁.runs runs') (by omega) h

end Ipc

end Tolunnet
