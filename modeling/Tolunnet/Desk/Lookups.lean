import Tolunnet.Desk.Sound

/-!
# `Tolunnet.Desk.Lookups`: deferred name lookups

`GETHOSTBYNAME` parks its message in a DNS record while lwIP asks the server. The record ends in
one of four ways: lwIP answers, the client cancels, the base closes, or the client dies. A run
carries the set of the calls that were deferred beside it. Each of them is either in one record and
not answered, or answered once and in no record; only the death of a client loses a call.

lwIP keeps the callback of a cancelled request, and a client uses one message again and again, so an
answer is matched by its message and its name together. An answer without a match only counts as
late.
-/

set_option autoImplicit false

namespace Tolunnet

open World

variable {w : World} {m : MsgId} {x : TnIpcMsg} {env : List Answer} {c : CallNo} {d d' : Desk}

/-! ## Answers -/

/-- The loop compares the names up to case on the first `n` characters. -/
theorem dnsNameLoop_eq (n : Nat) (recName name : List Char) :
    dnsNameLoop n recName name = true ↔
      (recName.take n).map Char.toLower = (name.take n).map Char.toLower := by
  induction n generalizing recName name with
  | zero => simp [dnsNameLoop]
  | succ n ih =>
    cases recName with
    | nil => cases name <;> simp [dnsNameLoop]
    | cons a recName =>
      cases name with
      | nil => simp [dnsNameLoop]
      | cons b name =>
        by_cases hab : a.toLower = b.toLower
        · simp [dnsNameLoop, hab, ih]
        · simp [dnsNameLoop, hab]

/-- Record `k` waits for an answer to this message under this name, up to case on the first 63
characters. -/
def AnswerFor (w : World) (k : Fin 8) (m : MsgId) (name : List Char) : Prop :=
  (w.dnsPending k).inUse = true ∧ (w.dnsPending k).imsg = some m ∧
    ((w.dnsPending k).name.take 63).map Char.toLower = (name.take 63).map Char.toLower

/-- The search of `tn_dns_found_cb` finds such a record or there is none. -/
theorem tnDnsFoundCb_cases (w : World) (name : List Char) (addr : Option Nat) (m : MsgId) :
    ((∀ k, ¬ AnswerFor w k m name) ∧
      tnDnsFoundCb w name addr m = { w with dnsLateReplies := w.dnsLateReplies + 1 }) ∨
    ∃ k, AnswerFor w k m name ∧ tnDnsFoundCb w name addr m =
      match (w.dnsPending k).base, addr with
      | none, _ => (clearDns w k).replyMsg m
      | some b, some a =>
        (tnIpcFillHostentNow (clearDns w k) b name a).answerMsg m (hostentPtr b) .ok
      | some _, none => (clearDns w k).answerMsg m 0 .enoent := by
  unfold tnDnsFoundCb
  split
  · rename_i hno
    refine Or.inl ⟨?_, rfl⟩
    rintro k ⟨hu, hi, hn⟩
    have same : tnDnsNameMatches (w.dnsPending k).name name = true := (dnsNameLoop_eq 63 _ _).mpr hn
    exact List.find?_eq_none.mp hno k (List.mem_finRange k) (by simp [hu, hi, same])
  · rename_i k hk
    have hk := List.find?_some hk
    simp only [Bool.and_eq_true, beq_iff_eq] at hk
    exact Or.inr ⟨k, ⟨hk.1.1, hk.1.2, (dnsNameLoop_eq 63 _ _).mp hk.2⟩, rfl⟩

/-- Storing a result touches no other message. -/
theorem answerMsg_msgs {r : Int} {e : Errno} {m' : MsgId} (hm : m' ≠ m) :
    (w.answerMsg m r e).msgs m' = w.msgs m' := Function.update_of_ne hm _ _

/-- A found address is stored in one base. -/
theorem fillHostent_bases {b b' : BaseId} {name : List Char} {a : Nat} (hb : b' ≠ b) :
    (tnIpcFillHostentNow w b name a).bases b' = w.bases b' := Function.update_of_ne hb _ _

/-- An answer touches only the record it is for, its message and its base, and without a record it
is only counted. -/
theorem tnDnsFoundCb_frame (w : World) (name : List Char) (addr : Option Nat) (m : MsgId) :
    let w' := tnDnsFoundCb w name addr m
    (∀ k, w'.dnsPending k ≠ w.dnsPending k → AnswerFor w k m name) ∧
    (∀ m', w'.msgs m' ≠ w.msgs m' → m' = m ∧ ∃ k, AnswerFor w k m name) ∧
    (∀ b, w'.bases b ≠ w.bases b → ∃ k, AnswerFor w k m name ∧ (w.dnsPending k).base = some b) ∧
    ((∀ k, ¬ AnswerFor w k m name) →
      w' = { w with dnsLateReplies := w.dnsLateReplies + 1 }) := by
  obtain ⟨hno, heq⟩ | ⟨k, hk, heq⟩ := tnDnsFoundCb_cases w name addr m
  · rw [heq]
    exact ⟨fun k h => absurd rfl h, fun m' h => absurd rfl h, fun b h => absurd rfl h, fun _ => rfl⟩
  · have record : ∀ j, Function.update w.dnsPending k
        { w.dnsPending k with inUse := false, imsg := none, base := none } j ≠ w.dnsPending j →
        AnswerFor w j m name := by
      intro j hj
      by_cases hjk : j = k
      · exact hjk ▸ hk
      · exact absurd (Function.update_of_ne hjk _ _) hj
    rw [heq]
    -- The three ends of the callback differ in what they store, not in where.
    cases hb : (w.dnsPending k).base with
    | none =>
      exact ⟨record, fun m' h => absurd rfl h, fun b h => absurd rfl h, fun hno => absurd hk (hno k)⟩
    | some b =>
      cases addr with
      | none =>
        refine ⟨record, fun m' hm' => ⟨?_, k, hk⟩, fun b h => absurd rfl h,
          fun hno => absurd hk (hno k)⟩
        by_contra hne
        exact hm' (answerMsg_msgs hne)
      | some a =>
        refine ⟨record, fun m' hm' => ⟨?_, k, hk⟩, fun b' hb' => ⟨k, hk, ?_⟩,
          fun hno => absurd hk (hno k)⟩
        · by_contra hne
          exact hm' (answerMsg_msgs hne)
        · by_contra hne
          exact hb' (fillHostent_bases fun h => hne (by rw [hb, h]))

/-! ## Calls -/

/-- The record holds the message of this call. -/
abbrev Awaits (callOf : MsgId → CallNo) (c : CallNo) (r : TnDnsPending) : Prop :=
  r.inUse = true ∧ r.imsg.map callOf = some c

/-- The number of records that hold the message of a call. -/
def awaiting (w : World) (c : CallNo) : Nat := tally (Awaits w.callOf c) w.dnsPending

/-- A record with a message is a place that holds it. -/
theorem Desk.held_of_awaits {k : Fin 8} (ha : Awaits d.callOf c (d.dns k)) :
    ∃ m, d.books.held (.dns k) = some m ∧ d.callOf m = c := by
  obtain ⟨m, hm, hc⟩ := Option.map_eq_some_iff.mp ha.2
  exact ⟨m, by simp [Desk.books, Desk.held, ha.1, hm], hc⟩

/-- No call is in two records, and none is in a record after its answer. -/
theorem Desk.Sound.at_most_once (hs : d.Sound) (c : CallNo) :
    d.answered.count c + tally (Awaits d.callOf c) d.dns ≤ 1 := by
  have count : d.answered.count c ≤ 1 := List.nodup_iff_count_le_one.mp hs.once.once c
  by_cases hc : c ∈ d.answered
  · have none : tally (Awaits d.callOf c) d.dns = 0 := by
      refine tally_eq_zero fun k hk => ?_
      obtain ⟨m, hm, rfl⟩ := Desk.held_of_awaits hk
      exact hs.once.unanswered m (Or.inr ⟨_, hm⟩) hc
    omega
  · rw [List.count_eq_zero_of_not_mem hc, Nat.zero_add]
    refine tally_le_one fun k l hk hl => ?_
    obtain ⟨m, hm, hmc⟩ := Desk.held_of_awaits hk
    obtain ⟨m', hm', hmc'⟩ := Desk.held_of_awaits hl
    obtain rfl : m = m' :=
      hs.once.inj m m' (Or.inr ⟨_, hm⟩) (Or.inr ⟨_, hm'⟩) (hmc.trans hmc'.symm)
    exact Place.dns.inj (hs.once.apart _ _ m hm hm')

/-- The call has been answered or a record holds it. -/
def Desk.Kept (d : Desk) (c : CallNo) : Prop :=
  c ∈ d.answered ∨ ∃ k, Awaits d.callOf c (d.dns k)

/-- One move keeps a call that is kept, unless a dead client is reaped. -/
theorem Desk.Kept.move {P : Mark → Prop} (hk : d.Kept c) (hs : d.Sound) (hP : ¬ P .reap)
    (hm : Move P d d') : d'.Kept c := by
  -- A record that goes is answered in the same move; the others are as they were.
  have cleared : ∀ (k : Fin 8) (m : MsgId), (d.dns k).imsg = some m →
      ((d.clearDns k).say m).Kept c := by
    intro k m hkm
    obtain hc | ⟨j, hj⟩ := hk
    · exact Or.inl (List.mem_cons_of_mem _ hc)
    · by_cases hjk : j = k
      · subst hjk
        have hc : d.callOf m = c := by simpa [hkm] using hj.2
        exact Or.inl (by simp [Desk.say, Desk.clearDns, Desk.setDns, hc])
      · exact Or.inr ⟨j, by simpa [Desk.say, Desk.clearDns, Desk.setDns, hjk] using hj⟩
  cases hm with
  | sayStop m hp => exact hk.imp_left (List.mem_cons_of_mem _)
  | reply m hm => exact hk.imp_left (List.mem_cons_of_mem _)
  | lookup k m r hm hf hu hr hl =>
    obtain hc | ⟨j, hj⟩ := hk
    · exact Or.inl hc
    · have hjk : j ≠ k := by
        rintro rfl
        cases hf.symm.trans hj.1
      exact Or.inr ⟨j, by simpa [Desk.setHand, Desk.fillDns, Desk.setDns, hjk] using hj⟩
  | found k m hu hr => exact cleared k m hr
  | forget k hu hr =>
    obtain hnone | hreap := hr
    · obtain ⟨m, hm⟩ := hs.msg k hu
      cases hm.symm.trans hnone
    · exact absurd hreap hP
  | _ => exact hk

theorem Desk.Kept.moves {P : Mark → Prop} (hk : d.Kept c) (hs : d.Sound) (hP : ¬ P .reap)
    (hm : Moves P d d') : d'.Kept c := by
  induction hm with
  | refl => exact hk
  | tail hpre hm ih => exact ih.move (hs.moves hpre) hP hm

/-! ## Runs -/

/-- The step is a `GETHOSTBYNAME` whose answer is left to lwIP. -/
def Defers (w : World) : Input → Prop
  | .ipc m x env => x.cmd = .gethostbyname ∧
      (tnHandleIpc { receive w m x with env := env } m).2 = .defer
  | _ => False

/-- A run of the daemon with the calls that were deferred in it. -/
inductive LookupRun : World → Set CallNo → Prop where
  | init : LookupRun tnSlotTableInit ∅
  | step {w : World} {calls : Set CallNo} {inp : Input} :
      LookupRun w calls → Admissible w inp →
      LookupRun (step w inp) (calls ∪ { c | Defers w inp ∧ c = w.calls })

theorem LookupRun.reachable {calls : Set CallNo} (hr : LookupRun w calls) : Reachable w := by
  induction hr with
  | init => exact .init
  | step _ ha ih => exact .step ih ha trivial

/-- A handler that defers its message has made a record of it. -/
def Recorded (w : World) (m : MsgId) (r : World × TnIpcReplyAction) : Prop :=
  r.2 = .defer → r.1.callOf = w.callOf ∧ ∃ k, Awaits w.callOf (w.callOf m) (r.1.dnsPending k)

theorem deferDns_recorded (b : BaseId) (hostname : List Char) :
    Recorded w m (deferDns w m b hostname) := by
  unfold deferDns
  dsimp only
  split
  · exact nofun
  · split
    · rename_i k _
      exact fun _ => ⟨rfl, k, by simp [registerDns, Awaits]⟩
    · exact nofun

theorem tnIpcCmdGethostbyname_recorded : Recorded w m (tnIpcCmdGethostbyname w m) := by
  unfold tnIpcCmdGethostbyname
  dsimp only
  split
  · split
    · exact nofun
    · split
      · exact nofun
      · split
        · exact deferDns_recorded (w := w.asked) _ _
        · exact nofun
  · exact nofun

/-- After a step that defers, a record holds the call. -/
theorem step_kept {inp : Input} (hd : Defers w inp) : (desk [] (step w inp)).Kept w.calls := by
  cases inp with
  | ipc m x env =>
    obtain ⟨hc, hd⟩ := hd
    have handled : tnHandleIpc { receive w m x with env := env } m
        = tnIpcCmdGethostbyname (presented w m x env) m := by
      rw [tnHandleIpc_presented, if_neg (by rw [hc]; decide), if_neg (by rw [hc]; simp [needsBase]),
        if_neg (by rw [hc]; decide)]
      unfold handler
      rw [presented_msg, hc]
    have recorded := tnIpcCmdGethostbyname_recorded (w := presented w m x env) (m := m)
    rw [← handled] at recorded
    obtain ⟨callOf, k, hk⟩ := recorded hd
    have number : (presented w m x env).callOf m = w.calls := by
      simp [presented, setReply, modMsg, receive]
    rw [number] at hk
    have stepped : step w (.ipc m x env) = (tnHandleIpc { receive w m x with env := env } m).1 := by
      show handleMsg _ m = _
      unfold handleMsg
      split
      · rename_i heq
        rw [heq] at hd
        cases hd
      · rename_i heq
        rw [heq]
    rw [stepped]
    refine Or.inr ⟨k, ?_⟩
    show Awaits (tnHandleIpc _ m).1.callOf w.calls _
    rw [callOf]
    exact hk
  | _ => cases hd

/-- A message that arrives takes no call away. -/
theorem Desk.Kept.entered {inp : Input} (hk : (desk [] w).Kept c)
    (ha : Admissible w inp) : (entered w inp).Kept c := by
  cases inp with
  | ipc m x env =>
    obtain hans | ⟨k, hk⟩ := hk
    · exact Or.inl hans
    refine Or.inr ⟨k, hk.1, ?_⟩
    obtain ⟨m', hm', hc⟩ := Desk.held_of_awaits hk
    -- The record holds another message than the one that arrives.
    have hne : m' ≠ m := by
      rintro rfl
      exact ha.2.1 (.dns k) hm'
    have himsg : (w.dnsPending k).imsg = some m' := by
      have hu : (w.dnsPending k).inUse = true := hk.1
      simpa [Desk.books, Desk.held, desk, hu] using hm'
    show (w.dnsPending k).imsg.map (Function.update w.callOf m w.calls) = some c
    rw [himsg, Option.map_some, Function.update_of_ne hne]
    exact congrArg some hc
  | _ => exact hk

/-- While no client has died, every deferred call is answered or in a record. -/
theorem LookupRun.kept {calls : Set CallNo} (hr : LookupRun w calls)
    (halive : ∀ t, w.taskAlive t = true) : ∀ c ∈ calls, (desk [] w).Kept c := by
  induction hr with
  | init => exact fun c hc => absurd hc (Set.notMem_empty c)
  | @step w calls inp hr ha ih =>
    rintro c (hc | ⟨hd, rfl⟩)
    · -- Nobody comes back to life, so all were alive before the step.
      have before : ∀ t, w.taskAlive t = true := by
        intro t
        have alive : (Tolunnet.step w inp).taskAlive = (entered w inp).alive := (step_moves ha).alive
        have after := halive t
        rw [alive] at after
        cases inp with
        | client s =>
          cases s with
          | taskExit u =>
            by_cases hu : t = u
            · subst hu
              simp [Tolunnet.entered, clientStep] at after
            · simpa [Tolunnet.entered, clientStep, hu] using after
          | _ => exact after
        | _ => exact after
      have sound := hr.reachable.sound
      refine ((ih before c hc).entered ha).moves (sound.entered ha) ?_ (step_moves ha)
      rintro ⟨t, ht⟩
      cases ht.symm.trans (before t)
    · exact step_kept hd

/-- Deferred lookups are completed exactly once and by the right answer. In every state of every
run the counter is the number of records in use; a deferred call is never both answered and in a
record, answered twice or in two records; while no client has died it is one or the other; and an
answer of lwIP touches only a record that holds its message under its name, that message and the
base of that record, and without such a record nothing but the count of late answers. -/
theorem lookups_exactly_once {calls : Set CallNo} (hr : LookupRun w calls) :
    w.dnsPendingCount = dnsInUse w.dnsPending ∧
    (∀ c ∈ calls, (answered w).count c + awaiting w c ≤ 1) ∧
    ((∀ t, w.taskAlive t = true) → ∀ c ∈ calls, (answered w).count c + awaiting w c = 1) ∧
    ∀ v name addr m, let v' := tnDnsFoundCb v name addr m
      (∀ k, v'.dnsPending k ≠ v.dnsPending k → AnswerFor v k m name) ∧
      (∀ m', v'.msgs m' ≠ v.msgs m' → m' = m ∧ ∃ k, AnswerFor v k m name) ∧
      (∀ b, v'.bases b ≠ v.bases b → ∃ k, AnswerFor v k m name ∧ (v.dnsPending k).base = some b) ∧
      ((∀ k, ¬ AnswerFor v k m name) → v' = { v with dnsLateReplies := v.dnsLateReplies + 1 }) := by
  have sound := hr.reachable.sound
  refine ⟨sound.count, fun c _ => sound.at_most_once c, fun halive c hc => ?_, tnDnsFoundCb_frame⟩
  have most : (answered w).count c + awaiting w c ≤ 1 := sound.at_most_once c
  -- a lookup is answered or waits, and the tally allows only one of the two
  obtain hans | ⟨k, hk⟩ := hr.kept halive c hc
  · have some : 0 < (answered w).count c := List.count_pos_iff.mpr hans
    omega
  · have some : 0 < awaiting w c := tally_pos (k := k) hk
    omega

/-- The client looks up a name. -/
def lookupMsg : TnIpcMsg :=
  { cmd := .gethostbyname, socketBase := some 1, ptrs := fun _ => .str ['a'] }

/-- lwIP has to ask the server. -/
def lookedUp : World := step oneClient (.ipc 1 lookupMsg [{ ok := false, err := .inprogress }])

theorem Reach.exists_lookupRun (hr : Reachable w) : ∃ calls, LookupRun w calls := by
  induction hr with
  | init => exact ⟨_, .init⟩
  | step _ ha _ ih =>
    obtain ⟨calls, hrun⟩ := ih
    exact ⟨_, .step hrun ha⟩

/-- Call 1 is deferred, is not answered yet and is in one record; the answer that comes finishes
it. -/
theorem lookups_exactly_once_lookedUp :
    ∃ calls, LookupRun lookedUp calls ∧ 1 ∈ calls ∧
      (answered lookedUp).count 1 + awaiting lookedUp 1 = 1 ∧ 1 ∉ answered lookedUp ∧
      1 ∈ answered (step lookedUp (.lwip [.dnsFound ['A'] (some 5) 1] [])) := by
  have opened : Reachable oneClient :=
    oneClient_reach (fun _ _ => trivial) fun _ _ _ _ _ => trivial
  obtain ⟨calls, hrun⟩ := opened.exists_lookupRun
  have admissible : Admissible oneClient (.ipc 1 lookupMsg [{ ok := false, err := .inprogress }]) := by
    refine ⟨by decide, fun pl => opened.idle (by decide) pl 1, fun b hb => Or.inl ⟨0, ?_⟩⟩
    cases hb
    decide
  have run : LookupRun lookedUp _ := hrun.step admissible
  have deferred : Defers oneClient (.ipc 1 lookupMsg [{ ok := false, err := .inprogress }]) :=
    ⟨rfl, by decide⟩
  have mem : 1 ∈ calls ∪ { c | Defers oneClient (.ipc 1 lookupMsg
      [{ ok := false, err := .inprogress }]) ∧ c = oneClient.calls } := Or.inr ⟨deferred, by decide⟩
  exact ⟨_, run, mem, (lookups_exactly_once run).2.2.1 (fun _ => rfl) 1 mem, by decide, by decide⟩

end Tolunnet
