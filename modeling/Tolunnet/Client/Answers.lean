import Tolunnet.Client.Ownership

/-!
# `Tolunnet.Client.Answers`: what a call returns

`call_outcome` is the main result about one call: it returns what the daemon replied to the very
message of this call, or it returns -1 with one of four errors and says which. Whatever happens, it
leaves the base `Clean`. Without a watchdog a call that was sent never returns anything but the
daemon's answer, also when a break came in between.

There is one exception. Without a watchdog the last loop takes five messages at most, so a base with
four late orphans can read its message while the daemon still has it (`fourLate_stale`).
-/

set_option autoImplicit false

namespace Tolunnet

namespace Ipc

open Requests

variable {s₀ s s' : Machine} {m msg cancel : Addr} {old : List Event} {P : Event → Prop}
  {mine sent : List Addr} {heap : Option Addr} {cmd : TnIpcCmd} {r : Int}

/-! ## Outcomes -/

/-- What is recorded after the message of a call was sent: replies, and CANCELs. -/
def Event.Follows (e : Event) : Prop := e.IsReply ∨ e.IsCancel

/-- The message of a call that began in `s` was sent with `cmd` and replied with `x`. Nothing else
was sent but CANCELs, which only follow a command that may park. -/
def Answered (s s' : Machine) (cmd : TnIpcCmd) (x : TnIpcMsg) : Prop :=
  ∃ m recent before, s'.log = recent ++ .put m cmd :: (before ++ s.log) ∧
    (∀ e ∈ before, e.IsReply) ∧ .reply m x ∈ recent ∧ (∀ e ∈ recent, e.Follows) ∧
    (tnCmdMayPark cmd = false → ∀ e ∈ recent, e.IsReply)

/-- The message of a call that began in `s` was sent with `cmd` and left on the chain. Nothing else
was sent but CANCELs. -/
def Abandoned (s s' : Machine) (cmd : TnIpcCmd) : Prop :=
  ∃ m recent before, s'.log = recent ++ .put m cmd :: (before ++ s.log) ∧
    (∀ e ∈ before, e.IsReply) ∧ (∀ e ∈ recent, e.Follows) ∧ m ∈ s'.base.ipcOrphan

/-- What a call returns. -/
inductive Outcome (s : Machine) (cmd : TnIpcCmd) (r : Int) (s' : Machine) : Prop where
  /-- There is no daemon, or no memory for the message. -/
  | unsent (result : r = -1) (log : ∃ recent, s'.log = recent ++ s.log ∧ ∀ e ∈ recent, e.IsReply)
      (refused : s'.base.refused = true)
      (why : s'.base.errno = enetdown ∨
        s.base.ipcTimeoutMs ≠ 0 ∧ s'.base.errno = Errno.enobufs.code)
  /-- The daemon's answer, which the embedded message holds as well. -/
  | answered (x : TnIpcMsg) (told : Answered s s' cmd x) (result : r = x.result)
      (errno : x.result < 0 → x.errNo ≠ .ok → s'.base.errno = x.errNo.code)
      (copy : mirror (s'.msgs embedded) x = s'.msgs embedded)
  /-- A failure of a command that was broken under the watchdog becomes `EINTR`. -/
  | interrupted (x : TnIpcMsg) (told : Answered s s' cmd x) (watchdog : s.base.ipcTimeoutMs ≠ 0)
      (parks : tnCmdMayPark cmd = true) (failed : x.result < 0 ∧ x.errNo ≠ .ok) (result : r = -1)
      (errno : s'.base.errno = Errno.eintr.code)
  /-- The watchdog has given the message up. -/
  | abandoned (left : Abandoned s s' cmd) (watchdog : s.base.ipcTimeoutMs ≠ 0) (result : r = -1)
      (why : tnCmdMayPark cmd = true ∧ s'.base.errno = Errno.eintr.code ∨
        s'.base.ipcTimeouts = s.base.ipcTimeouts + 1 ∧ s'.base.errno = Errno.etimedout.code)

/-! ## The middle of a call -/

/-- What a call does not change of its base before it ends. -/
def Base.core (b : Base) : Base :=
  { b with tolunnetPort := false, timer := false, ipcOrphan := [], ipcCancelMsg := none }

/-- A call that began in `s₀` has sent its message, `heap` or the embedded one. -/
structure Calling (P : Event → Prop) (s₀ : Machine) (cmd : TnIpcCmd) (heap : Option Addr)
    (s : Machine) : Prop where
  holds : Holds s heap.toList [heap.getD embedded]
  told : ∃ before, (∀ e ∈ before, e.IsReply) ∧
    Told P (heap.getD embedded) (.put (heap.getD embedded) cmd :: (before ++ s₀.log)) s
  core : s.base.core = s₀.base.core
  mode : heap.isSome = (s₀.base.ipcTimeoutMs != 0)

namespace Calling

/-- The call goes on while its message is out. -/
theorem runs (c : Calling P s₀ cmd heap s) (hP : ∀ e, e.IsReply → P e) (r : Runs s s') :
    Calling P s₀ cmd heap s' where
  holds := c.holds.runs r
  told := by
    obtain ⟨before, replies, told⟩ := c.told
    exact ⟨before, replies, r.told _ _ _ hP told⟩
  core := r.base ▸ c.core
  mode := c.mode

/-- A heap message means that there is a watchdog. -/
theorem watchdog (c : Calling P s₀ cmd heap s) (h : heap.isSome = true) :
    s₀.base.ipcTimeoutMs ≠ 0 := by
  rw [c.mode] at h
  exact bne_iff_ne.mp h

/-- A message that has come back was answered. -/
theorem answered (c : Calling P s₀ cmd heap s) (back : ¬ s.io.Outstanding (heap.getD embedded))
    (follows : ∀ e, P e → e.Follows) (quiet : tnCmdMayPark cmd = false → ∀ e, P e → e.IsReply)
    (log : s'.log = s.log) : Answered s₀ s' cmd (s.msgs (heap.getD embedded)) := by
  obtain ⟨before, replies, told⟩ := c.told
  obtain ⟨recent, eq, all, reply⟩ := told.replied back
  exact ⟨_, recent, before, log.trans eq, replies, reply, fun e mem => follows e (all e mem),
    fun parks e mem => quiet parks e (all e mem)⟩

end Calling

/-- A call that gives its message up. -/
theorem Calling.abandoned (c : Calling P s₀ cmd heap s) (follows : ∀ e, P e → e.Follows)
    (log : s'.log = s.log) (left : heap.getD embedded ∈ s'.base.ipcOrphan) :
    Abandoned s₀ s' cmd := by
  obtain ⟨before, replies, recent, eq, all, -⟩ := c.told
  exact ⟨_, recent, before, log.trans eq, replies, fun e mem => follows e (all e mem), left⟩

/-- A call that goes on has counted no timeout. -/
theorem Calling.timeouts (c : Calling P s₀ cmd heap s) :
    s.base.ipcTimeouts = s₀.base.ipcTimeouts := by
  show s.base.core.ipcTimeouts = s₀.base.core.ipcTimeouts
  rw [c.core]

/-! ## Releasing and giving up -/

/-- With the message back, the call has nothing left. -/
theorem release_clean (h : Holds s heap.toList [heap.getD embedded])
    (back : ¬ s.io.Outstanding (heap.getD embedded)) :
    Clean (s.tnIpcReleaseHeap heap) ∧ (s.tnIpcReleaseHeap heap).base = s.base ∧
      (s.tnIpcReleaseHeap heap).log = s.log ∧
      mirror ((s.tnIpcReleaseHeap heap).msgs embedded) (s.msgs (heap.getD embedded)) =
        (s.tnIpcReleaseHeap heap).msgs embedded := by
  cases heap with
  | none => exact ⟨h.back back, rfl, rfl, rfl⟩
  | some m =>
    have free := h.back back
    have distinct := h.distinct
    have ours : ¬ s.io.Outstanding embedded := by
      refine free.ours List.not_mem_nil fun mem => ?_
      exact (List.nodup_cons.mp distinct).1 (by simp [mem])
    have hm : m ≠ embedded := fun eq => (List.nodup_cons.mp distinct).1 (by simp [eq])
    refine ⟨(free.modMsg ours _).free_mine back, rfl, rfl, ?_⟩
    simp [Machine.tnIpcReleaseHeap, Machine.freeVec, Machine.modMsg, mirror]

/-- The message of a call with a watchdog goes to the chain. -/
theorem giveUp_clean (h : Holds s heap.toList [heap.getD embedded]) (timed : heap.isSome = true)
    (e : Errno) : Clean (s.giveUp heap e).2 ∧
      heap.getD embedded ∈ (s.giveUp heap e).2.base.ipcOrphan ∧
      (s.giveUp heap e).2.log = s.log ∧ (s.giveUp heap e).2.base.errno = e.code ∧
      (s.giveUp heap e).2.base.ipcTimeouts = s.base.ipcTimeouts := by
  obtain ⟨m, rfl⟩ := Option.isSome_iff_exists.mp timed
  exact ⟨(Holds.orphan h).setErrno e.code, List.mem_cons_self, rfl, rfl, rfl⟩

/-! ## CANCEL -/

/-- Writing another message is not told. -/
theorem Told.modMsg {n : Addr} (h : Told P n old s) (hn : n ≠ m) (f : TnIpcMsg → TnIpcMsg) :
    Told P n old (s.modMsg m f) := by
  obtain ⟨recent, eq, all, told⟩ := h
  exact ⟨recent, eq, all, by simpa [Machine.modMsg, Machine.touch, hn] using told⟩

/-- The timer is not part of a base's core. -/
theorem tnEnsureTimer_core (s : Machine) : s.tnEnsureTimer.2.base.core = s.base.core := by
  unfold Machine.tnEnsureTimer
  split <;> rfl

/-- The timer is not told. -/
theorem tnEnsureTimer_told (h : Told P m old s) : Told P m old s.tnEnsureTimer.2 := by
  unfold Machine.tnEnsureTimer
  split <;> exact h

/-- The call goes on with its timer. -/
theorem Calling.tnEnsureTimer (c : Calling P s₀ cmd heap s) :
    Calling P s₀ cmd heap s.tnEnsureTimer.2 where
  holds := c.holds.tnEnsureTimer
  told := by
    obtain ⟨before, replies, told⟩ := c.told
    exact ⟨before, replies, tnEnsureTimer_told told⟩
  core := (tnEnsureTimer_core s).trans c.core
  mode := c.mode

/-- The CANCEL message is not the call's own, and it is ours. -/
theorem Holds.cancel_ours (h : Holds s heap.toList [heap.getD embedded])
    (hc : s.base.ipcCancelMsg = some cancel) :
    cancel ≠ heap.getD embedded ∧ ¬ s.io.Outstanding cancel := by
  have distinct := h.distinct
  rw [blocks, hc] at distinct
  have other : cancel ≠ heap.getD embedded := by
    rintro rfl
    cases heap <;> simp at distinct
  refine ⟨other, h.ours (by simpa using other) fun mem => ?_⟩
  simp [mem] at distinct

/-- A CANCEL that has not come back goes to the chain, and a new one takes its place. -/
theorem renewCancel (h : Holds s mine (cancel :: sent)) (hc : s.base.ipcCancelMsg = some cancel)
    {fresh : Option Addr} (e : (s.orphan cancel).allocVec = (fresh, s')) :
    Holds (s'.modBase fun b => { b with ipcCancelMsg := fresh }) mine sent := by
  have h' := h.orphanCancel hc
  cases fresh with
  | none =>
    rw [allocVec_none e]
    exact h'.runs (.of_eq rfl rfl rfl rfl rfl rfl)
  | some m =>
    obtain ⟨new, eq⟩ := allocVec_some e
    rw [eq]
    exact h'.alloc_cancel (m := m) new s'.allocs rfl

/-- A CANCEL keeps track of the message that it is for. With a message that may not be given up it
ends only when this is back. -/
theorem tnIpcCancelInflight_spec {replied : Bool} (c : Calling Event.IsReply s₀ cmd heap s)
    (h : s.tnIpcCancelInflight (heap.getD embedded) heap.isSome = some (replied, s')) :
    Calling Event.Follows s₀ cmd heap s' ∧
      (replied = true → ¬ s'.io.Outstanding (heap.getD embedded)) ∧
      (heap.isSome = false → replied = true) := by
  -- A log of replies is also one of replies and of the cancel.
  have weaken : ∀ {s : Machine}, Calling Event.IsReply s₀ cmd heap s →
      Calling Event.Follows s₀ cmd heap s := fun c =>
    ⟨c.holds, c.told.imp fun _ => And.imp_right fun told => told.mono fun _ => .inl, c.core,
      c.mode⟩
  simp only [Machine.tnIpcCancelInflight] at h
  generalize timed : (if (heap.isSome && s.base.ipcTimeoutMs != 0) = true then s.tnEnsureTimer
    else (false, s)) = timer at h
  obtain ⟨bounded, s₁⟩ := timer
  have c₁ : Calling Event.IsReply s₀ cmd heap s₁ := by
    split at timed
    · have eq : s.tnEnsureTimer.2 = s₁ := congrArg Prod.snd timed
      exact eq ▸ c.tnEnsureTimer
    · exact (Prod.mk.inj timed).2 ▸ c
  have unbounded : heap.isSome = false → bounded = false := by
    intro none
    rw [none, Bool.false_and, if_neg Bool.false_ne_true] at timed
    exact (Prod.mk.inj timed).1.symm
  -- Without a `CANCEL` message the heap message is given up, and the embedded one awaited.
  cases hc : s₁.base.ipcCancelMsg with
  | none =>
    simp only [hc, Option.bind_eq_bind] at h
    split at h
    · rename_i abandon
      obtain ⟨rfl, rfl⟩ := Prod.mk.inj (Option.some.inj h)
      exact ⟨weaken c₁, by simp, by simp [abandon]⟩
    · obtain ⟨s₂, take, h⟩ := Option.bind_eq_some_iff.mp h
      obtain ⟨rfl, rfl⟩ := Prod.mk.inj (Option.some.inj h)
      obtain ⟨runs, back⟩ := takeBack_runs c₁.holds.sound take
      exact ⟨weaken (c₁.runs (fun _ reply => reply) runs), fun _ => back, fun _ => rfl⟩
  | some cancel =>
    obtain ⟨other, ours⟩ := c₁.holds.cancel_ours hc
    simp only [hc, Option.bind_eq_bind, Option.bind_eq_some_iff, Prod.exists] at h
    obtain ⟨s₂, put, gotMsg, gotCancel, s₃, drain, h⟩ := h
    have filled : ∀ f g, Holds ((s₁.modMsg cancel f).modMsg cancel g) heap.toList
        [heap.getD embedded] := fun f g => (c₁.holds.modMsg ours f).modMsg ours g
    obtain ⟨holds₂, base₂, -, told₂, -⟩ := (filled _ _).putMsg ours put
    obtain ⟨runs, back, got⟩ := drainReplies_runs holds₂.sound drain
    have holds₃ := holds₂.runs runs
    have base₃ : s₃.base = s₁.base := runs.base.trans base₂
    -- The `CANCEL` itself is the only request put since the call.
    have c₃ : ∃ before, (∀ e ∈ before, e.IsReply) ∧ Told Event.Follows (heap.getD embedded)
        (.put (heap.getD embedded) cmd :: (before ++ s₀.log)) s₃ := by
      obtain ⟨before, replies, told⟩ := c₁.told
      have told := told₂ _ _ other.symm ((told.modMsg other.symm _).modMsg other.symm _)
      have told : Told Event.Follows (heap.getD embedded)
          (.put (heap.getD embedded) cmd :: (before ++ s₀.log)) s₂ := by
        refine told.mono fun e he => he.imp id ?_
        rintro rfl
        simp [Event.IsCancel, Machine.modMsg]
      exact ⟨before, replies, runs.told _ _ _ (fun _ => .inl) told⟩
    split at h
    · rename_i done
      obtain ⟨rfl, rfl⟩ := Prod.mk.inj (Option.some.inj h)
      exact ⟨⟨holds₃.back (back.2 done), c₃, base₃ ▸ c₁.core, c₁.mode⟩, back.1,
        fun none => got (unbounded none)⟩
    -- The `CANCEL` is late too: it becomes an orphan and a new one is made for the next time.
    · generalize alloc : (s₃.orphan cancel).allocVec = renewed at h
      obtain ⟨fresh, s₄⟩ := renewed
      obtain ⟨rfl, rfl⟩ := Prod.mk.inj (Option.some.inj h)
      have holds₄ := renewCancel holds₃ (base₃ ▸ hc) alloc
      have eq : s₄ = { s₃.orphan cancel with allocs := s₄.allocs, heap := s₄.heap } := by
        cases fresh with
        | none => rw [allocVec_none alloc]
        | some m => rw [(allocVec_some alloc).2]
      refine ⟨⟨holds₄, ?_, ?_, c₁.mode⟩, ?_, fun none => got (unbounded none)⟩
      · rw [eq]
        exact c₃
      · rw [eq]
        exact (congrArg Base.core base₃).trans c₁.core
      · rw [eq]
        exact back.1

/-! ## How a call ends -/

/-- The watchdog counts its expiry and goes on. -/
theorem Calling.expire (c : Calling P s₀ cmd heap s) : Calling P s₀.expire cmd heap s.expire where
  holds := c.holds.modBase rfl rfl
  told := c.told
  core := by
    show { s.base.core with ipcTimeouts := s.base.core.ipcTimeouts + 1 } = _
    rw [c.core]
    rfl
  mode := c.mode

/-- The watchdog has expired. -/
theorem expired_outcome (c : Calling P s₀.expire cmd heap s) (follows : ∀ e, P e → e.Follows)
    (timed : heap.isSome = true) :
    Clean (s.giveUp heap .etimedout).2 ∧ Outcome s₀ cmd (-1) (s.giveUp heap .etimedout).2 := by
  obtain ⟨clean, left, log, errno, same⟩ := giveUp_clean c.holds timed .etimedout
  exact ⟨clean, .abandoned (c.abandoned follows log left) (c.watchdog timed) rfl
    (.inr ⟨same.trans c.timeouts, errno⟩)⟩

/-- A call that collects its reply. -/
theorem collect_outcome (c : Calling Event.IsReply s₀ cmd heap s) (few : heap = none → late s < 4)
    (h : s.collect heap = some (r, s')) : Clean s' ∧ Outcome s₀ cmd r s' := by
  simp only [Machine.collect, Option.bind_eq_bind, Option.bind_eq_some_iff, Prod.exists] at h
  obtain ⟨got, s₁, get, got', s₂, await, h⟩ := h
  obtain ⟨runs₁, taken⟩ := getMsg_runs c.holds.sound get
  have c₁ := c.runs (fun _ reply => reply) runs₁
  obtain ⟨runs₂, back⟩ := awaitOwn_runs c₁.holds.sound (fun own => (taken _ own).2) await
  have c₂ := c₁.runs (fun _ reply => reply) runs₂
  split at h
  · rename_i foreign
    obtain ⟨rfl, rfl⟩ := Prod.mk.inj (Option.some.inj h)
    exact expired_outcome c₂.expire (fun _ => .inl) (Bool.and_eq_true_iff.mp foreign).1
  · rename_i own
    have own : got' = some (heap.getD embedded) := by
      cases heap with
      | none => exact awaitOwn_comes c₁.holds (runs₁.late_le.trans_lt (few rfl)) await
      | some m => simpa using own
    obtain ⟨s₃, tick, h⟩ := Option.bind_eq_some_iff.mp h
    have runs₃ := tick_runs tick
    have c₃ := c₂.runs (fun _ reply => reply) runs₃
    have back₃ : ¬ s₃.io.Outstanding (heap.getD embedded) := fun out => back own (runs₃.out _ out)
    obtain ⟨rfl, rfl⟩ := Prod.mk.inj (Option.some.inj h)
    split
    · rename_i failed
      obtain ⟨clean, base, log, copy⟩ := release_clean
        (c₃.holds.setErrno (s₃.msgs (heap.getD embedded)).errNo.code) back₃
      have told := c₃.answered back₃ (fun _ => .inl) (fun _ _ reply => reply) log
      refine ⟨clean, .answered _ told rfl ?_ copy⟩
      intro _ _
      rw [base]
      rfl
    · rename_i passed
      obtain ⟨clean, base, log, copy⟩ := release_clean c₃.holds back₃
      have told := c₃.answered back₃ (fun _ => .inl) (fun _ _ reply => reply) log
      exact ⟨clean, .answered _ told rfl (fun neg err => (passed ⟨neg, err⟩).elim) copy⟩

/-- A break under the watchdog. -/
theorem brokenWatch_outcome {mask : UInt32} (c : Calling Event.IsReply s₀ cmd heap s)
    (timed : heap.isSome = true) (parks : tnCmdMayPark cmd = true)
    (h : s.brokenWatch heap mask = some (r, s')) : Clean s' ∧ Outcome s₀ cmd r s' := by
  simp only [Machine.brokenWatch, Option.bind_eq_bind, Option.bind_eq_some_iff, Prod.exists] at h
  obtain ⟨replied, s₁, inflight, h⟩ := h
  obtain ⟨c₁, back, -⟩ := tnIpcCancelInflight_spec c (timed ▸ inflight)
  split at h
  · obtain ⟨clean, left, log, errno, -⟩ := giveUp_clean (c₁.holds.setSignal mask) timed .eintr
    obtain ⟨rfl, rfl⟩ := Prod.mk.inj (Option.some.inj h)
    exact ⟨clean, .abandoned (c₁.abandoned (fun _ => id) log left) (c₁.watchdog timed) rfl
      (.inl ⟨parks, errno⟩)⟩
  · rename_i came
    have back := back (by simpa using came)
    have noisy : tnCmdMayPark cmd = false → ∀ e : Event, e.Follows → e.IsReply :=
      fun no => by simp [parks] at no
    obtain ⟨clean, base, log, copy⟩ := release_clean (c₁.holds.setSignal mask) back
    split at h
    · rename_i passed
      obtain ⟨rfl, rfl⟩ := Prod.mk.inj (Option.some.inj h)
      refine ⟨clean, .answered _ (c₁.answered back (fun _ => id) noisy log) rfl
        (fun neg err => ?_) copy⟩
      exact (passed.elim (fun pos => absurd neg (not_lt.mpr pos)) err).elim
    · rename_i failed
      obtain ⟨rfl, rfl⟩ := Prod.mk.inj (Option.some.inj h)
      rw [not_or, not_le] at failed
      exact ⟨clean.setErrno _, .interrupted _ (c₁.answered back (fun _ => id) noisy log)
        (c₁.watchdog timed) parks failed rfl rfl⟩

/-- A break without the watchdog. -/
theorem brokenWait_outcome {mask : UInt32} (c : Calling Event.IsReply s₀ cmd heap s)
    (parks : tnCmdMayPark cmd = true) (h : s.brokenWait heap mask = some (r, s')) :
    Clean s' ∧ Outcome s₀ cmd r s' := by
  simp only [Machine.brokenWait, Option.bind_eq_bind, Option.bind_eq_some_iff, Prod.exists] at h
  obtain ⟨replied, s₁, inflight, h⟩ := h
  have signalled : Calling Event.IsReply s₀ cmd heap (s.setSignal mask) :=
    c.runs (fun _ reply => reply) (.signals s _)
  obtain ⟨c₁, back, unbounded⟩ := tnIpcCancelInflight_spec signalled inflight
  split at h
  · rename_i lost
    have timed : heap.isSome = true := by
      cases heap with
      | none => simp [unbounded rfl] at lost
      | some m => rfl
    obtain ⟨clean, left, log, errno, -⟩ := giveUp_clean c₁.holds timed .eintr
    obtain ⟨rfl, rfl⟩ := Prod.mk.inj (Option.some.inj h)
    exact ⟨clean, .abandoned (c₁.abandoned (fun _ => id) log left) (c₁.watchdog timed) rfl
      (.inl ⟨parks, errno⟩)⟩
  · rename_i came
    have back := back (by simpa using came)
    have noisy : tnCmdMayPark cmd = false → ∀ e : Event, e.Follows → e.IsReply :=
      fun no => by simp [parks] at no
    obtain ⟨clean, base, log, copy⟩ := release_clean c₁.holds back
    split at h
    · obtain ⟨rfl, rfl⟩ := Prod.mk.inj (Option.some.inj h)
      exact ⟨clean.setErrno _, .answered _ (c₁.answered back (fun _ => id) noisy log) rfl
        (fun _ _ => rfl) copy⟩
    · rename_i interrupted
      obtain ⟨result, errno⟩ := not_not.mp interrupted
      obtain ⟨rfl, rfl⟩ := Prod.mk.inj (Option.some.inj h)
      exact ⟨clean.setErrno _, .answered _ (c₁.answered back (fun _ => id) noisy log) result.symm
        (fun _ _ => by rw [errno]; rfl) copy⟩

/-- A request and what comes of it. -/
theorem exchange_outcome (clean : Holds s heap.toList [])
    (ours : ¬ s.io.Outstanding (heap.getD embedded))
    (mode : heap.isSome = (s.base.ipcTimeoutMs != 0)) (few : heap = none → late s < 4)
    (h : s.exchange heap cmd = some (r, s')) : Clean s' ∧ Outcome s cmd r s' := by
  simp only [Machine.exchange, Option.bind_eq_bind, Option.bind_eq_some_iff] at h
  generalize hmask : (if tnCmdMayPark cmd = true then s.base.sigInt else 0) = breakMask at h
  have parks : breakMask ≠ 0 → tnCmdMayPark cmd = true := by
    intro set
    by_contra no
    exact set (hmask ▸ if_neg no)
  obtain ⟨s₁, put, h⟩ := h
  have filled : ∀ f, Holds (s.modMsg (heap.getD embedded) f) heap.toList [] :=
    fun f => clean.modMsg ours f
  obtain ⟨holds₁, base₁, ⟨before, replies, told₁⟩, -, out₁⟩ := (filled _).putMsg ours put
  have c₁ : Calling Event.IsReply s cmd heap s₁ := by
    refine ⟨holds₁, ⟨before, replies, ?_⟩, congrArg Base.core base₁, mode⟩
    simpa [Machine.fill, Machine.modMsg, Machine.touch] using told₁
  have few₁ : heap = none → late s₁ < 4 := by
    rintro rfl
    refine lt_of_le_of_lt (late_put base₁ out₁ fun mem => ?_) (few rfl)
    exact (List.nodup_cons.mp clean.distinct).1 (List.mem_append_right _ mem)
  generalize timer : (if heap.isSome = true then s₁.tnEnsureTimer else (false, s₁)) = timed at h
  obtain ⟨ready, s₂⟩ := timed
  have c₂ : Calling Event.IsReply s cmd heap s₂ := by
    split at timer
    · have eq : s₁.tnEnsureTimer.2 = s₂ := congrArg Prod.snd timer
      exact eq ▸ c₁.tnEnsureTimer
    · exact (Prod.mk.inj timer).2 ▸ c₁
  have few₂ : heap = none → late s₂ < 4 := by
    rintro rfl
    exact (Prod.mk.inj timer).2 ▸ few₁ rfl
  dsimp only at h
  split at h
  · rename_i ready
    have timed : heap.isSome = true := by
      by_contra none
      rw [if_neg none] at timer
      exact absurd ((Prod.mk.inj timer).1.trans ready) Bool.false_ne_true
    simp only [Option.bind_eq_some_iff, Prod.exists] at h
    obtain ⟨s₃, retire, t0, s₄, ticks, fired, s₅, watch, h⟩ := h
    have runs := ((retireTimer_runs retire).trans (tnTicksNow_runs ticks)).trans (watch_runs watch)
    have c₅ := c₂.runs (fun _ reply => reply) runs
    cases fired with
    | broken mask => exact brokenWatch_outcome c₅ timed (parks (watch_broken watch)) h
    | replied => exact collect_outcome c₅ (fun none => by simp [none] at timed) h
    | expired =>
      simp only [Option.bind_eq_some_iff, Prod.exists] at h
      obtain ⟨replied, s₆, inflight, h⟩ := h
      obtain ⟨rfl, rfl⟩ := Prod.mk.inj (Option.some.inj h)
      have c₆ := (tnIpcCancelInflight_spec c₅.expire (timed ▸ inflight)).1
      exact expired_outcome c₆ (fun _ => id) timed
  · simp only [Option.bind_eq_some_iff, Prod.exists] at h
    obtain ⟨fired, s₃, wait, h⟩ := h
    have runs := wait_runs wait
    have c₃ := c₂.runs (fun _ reply => reply) runs
    split at h
    · rename_i broken
      refine brokenWait_outcome c₃ (parks ?_) h
      rintro rfl
      exact broken UInt32.and_zero
    · exact collect_outcome c₃ (fun none => runs.late_le.trans_lt (few₂ none)) h

/-! ## The call -/

/-- What came before the message was sent does not matter for the outcome. -/
theorem Outcome.earlier (o : Outcome s cmd r s') (core : s.base.core = s₀.base.core)
    (log : ∃ recent, s.log = recent ++ s₀.log ∧ ∀ e ∈ recent, e.IsReply) :
    Outcome s₀ cmd r s' := by
  obtain ⟨earlier, eq, all⟩ := log
  have joined : ∀ before, (∀ e ∈ before, e.IsReply) → ∀ e ∈ before ++ earlier, e.IsReply :=
    fun before replies e mem => (List.mem_append.mp mem).elim (replies e) (all e)
  have ms : s.base.ipcTimeoutMs = s₀.base.ipcTimeoutMs := by
    show s.base.core.ipcTimeoutMs = s₀.base.core.ipcTimeoutMs
    rw [core]
  have timeouts : s.base.ipcTimeouts = s₀.base.ipcTimeouts := by
    show s.base.core.ipcTimeouts = s₀.base.core.ipcTimeouts
    rw [core]
  have answered : ∀ x, Answered s s' cmd x → Answered s₀ s' cmd x := by
    rintro x ⟨m, recent, before, log, replies, rest⟩
    exact ⟨m, recent, before ++ earlier, by rw [log, eq, List.append_assoc], joined _ replies, rest⟩
  cases o with
  | unsent result log refused why =>
    obtain ⟨recent, eq', all'⟩ := log
    exact .unsent result ⟨recent ++ earlier, by rw [eq', eq, List.append_assoc], joined _ all'⟩
      refused (ms ▸ why)
  | answered x told result errno copy => exact .answered x (answered x told) result errno copy
  | interrupted x told watchdog parks failed result errno =>
    exact .interrupted x (answered x told) (ms ▸ watchdog) parks failed result errno
  | abandoned left watchdog result why =>
    obtain ⟨m, recent, before, log, replies, rest⟩ := left
    refine .abandoned ⟨m, recent, before ++ earlier, ?_, joined _ replies, rest⟩ (ms ▸ watchdog)
      result (timeouts ▸ why)
    rw [log, eq, List.append_assoc]

/-- Looking for the daemon's port. -/
theorem findPort_same (s : Machine) : s.findPort.2.base.core = s.base.core ∧
    s.findPort.2.log = s.log ∧ late s.findPort.2 = late s := by
  unfold Machine.findPort
  split <;> exact ⟨rfl, rfl, rfl⟩

/-- The timeout is part of the core. -/
theorem ipcTimeoutMs_core (core : s.base.core = s₀.base.core) :
    s.base.ipcTimeoutMs = s₀.base.ipcTimeoutMs := by
  show s.base.core.ipcTimeoutMs = s₀.base.core.ipcTimeoutMs
  rw [core]

/-- The message of a call under the watchdog is new. -/
theorem alloc_outcome (clean : Clean s) (on : s.base.ipcTimeoutMs ≠ 0)
    (alloc : s.allocVec = (some m, s'))
    {s'' : Machine} {f : TnIpcMsg → TnIpcMsg}
    (h : (s'.modMsg m f).exchange (some m) cmd = some (r, s'')) :
    Clean s'' ∧ Outcome s cmd r s'' := by
  obtain ⟨fresh, eq⟩ := allocVec_some alloc
  have holds : Holds s' [m] [] := eq ▸ clean.alloc_mine fresh _
  have base : s'.base = s.base := by rw [eq]
  have log : s'.log = s.log := by rw [eq]
  have ours : ¬ s'.io.Outstanding m := by
    refine holds.ours List.not_mem_nil fun mem => ?_
    have distinct := holds.distinct
    simp [blocks, List.nodup_append, mem] at distinct
  have mode : (some m).isSome = ((s'.modMsg m f).base.ipcTimeoutMs != 0) := by
    simp [Machine.modMsg, Machine.touch, base, on]
  have held : Holds (s'.modMsg m f) (some m).toList [] := holds.modMsg ours f
  obtain ⟨clean', outcome⟩ := exchange_outcome held ours mode
    (fun none => (Option.some_ne_none m none).elim) h
  exact ⟨clean', outcome.earlier (congrArg Base.core base) ⟨[], log, by simp⟩⟩

/-- A call returns what the daemon replied to the message of this very call, or -1 with `ENETDOWN`,
`ENOBUFS`, `EINTR` or `ETIMEDOUT`; the last three only under the watchdog. It leaves nothing
outstanding but orphans, and it has not touched a message that was not its own. Without a watchdog
this needs fewer than four late orphans. -/
theorem call_outcome (clean : Clean s) (few : s.base.ipcTimeoutMs = 0 → late s < 4)
    (h : s.tnIpcCall cmd = some (r, s')) : Clean s' ∧ Outcome s cmd r s' := by
  simp only [Machine.tnIpcCall] at h
  have clean₁ : Clean s.findPort.2 := clean.findPort
  obtain ⟨core₁, log₁, late₁⟩ := findPort_same s
  generalize found : s.findPort.2 = s₁ at h clean₁ core₁ log₁ late₁
  have ms₁ := ipcTimeoutMs_core core₁
  have same : ∃ recent, s₁.log = recent ++ s.log ∧ ∀ e ∈ recent, e.IsReply :=
    ⟨[], log₁, by simp⟩
  split at h
  · obtain ⟨rfl, rfl⟩ := Prod.mk.inj (Option.some.inj h)
    exact ⟨clean₁.modBase rfl rfl, .unsent rfl same rfl (.inl rfl)⟩
  split at h
  · rename_i off
    have ours : ¬ s₁.io.Outstanding embedded := by
      refine clean₁.ours List.not_mem_nil fun mem => ?_
      exact (List.nodup_cons.mp clean₁.distinct).1 (List.mem_append_right _ mem)
    have held : Holds s₁ (none : Option Addr).toList [] := clean₁
    obtain ⟨clean', outcome⟩ := exchange_outcome held ours (by simp [off])
      (fun _ => late₁.trans_lt (few (ms₁ ▸ off))) h
    exact ⟨clean', outcome.earlier core₁ same⟩
  · rename_i on
    obtain ⟨s₂, stale, h⟩ := Option.bind_eq_some_iff.mp h
    have runs := dropStale_runs clean₁.sound stale
    have clean₂ := clean₁.runs runs
    have core₂ : s₂.base.core = s.base.core := runs.base ▸ core₁
    have log₂ : ∃ recent, s₂.log = recent ++ s.log ∧ ∀ e ∈ recent, e.IsReply := log₁ ▸ runs.log
    have on₂ : s₂.base.ipcTimeoutMs ≠ 0 := runs.base ▸ on
    generalize alloc : s₂.allocVec = allocated at h
    obtain ⟨heap, s₃⟩ := allocated
    cases heap with
    | none =>
      have eq := allocVec_none alloc
      have clean₃ : Clean s₃ := eq ▸ clean₂.runs (.of_eq rfl rfl rfl rfl rfl rfl)
      have log₃ : s₃.log = s₂.log := by rw [eq]
      obtain ⟨rfl, rfl⟩ := Prod.mk.inj (Option.some.inj h)
      exact ⟨clean₃.modBase rfl rfl, .unsent rfl (log₃ ▸ log₂) rfl (.inr ⟨ms₁ ▸ on, rfl⟩)⟩
    | some m =>
      obtain ⟨clean', outcome⟩ := alloc_outcome clean₂ on₂ alloc h
      exact ⟨clean', outcome.earlier core₂ log₂⟩

end Ipc

end Tolunnet
