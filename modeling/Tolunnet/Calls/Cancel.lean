import Tolunnet.Task.Daemon

/-!
# `Tolunnet.Calls.Cancel`: what `CANCEL` takes back

A client that breaks off a blocking call names the message of the call in a `CANCEL`. `Holds` says
where the daemon can keep that message: in one of the four pending fields of a slot in use, or in a
DNS record in use. `cancelled` is the state in which that place alone has let go of the message and
the message has been answered. `Exact` says that `tnIpcCmdCancel` is this and nothing else.

The target is whatever the client wrote into the message. The search compares it with the fields as
they are, and an empty field is `NULL`, so a `NULL` target is found in the first slot that waits for
nothing. `tnSlotCancelParkedSend` refuses `NULL` before it searches; the other searches do not.
-/

set_option autoImplicit false

namespace Tolunnet

open World

variable {w w' : World} {m t : MsgId} {i : SlotIdx} {k : Pend} {n : Fin 8}

namespace Cancel

/-! ## The specification -/

/-- The address a `CANCEL` names: `args[0]` as a pointer. -/
def targetOf (w : World) (m : MsgId) : MsgId := ((w.msgs m).args 0 % 2 ^ 32).toNat

/-- Message `t` is held at a place. Address 0 is no message. -/
def Holds (w : World) (t : MsgId) : Place → Prop
  | .slot i k => t ≠ 0 ∧ (w.sockets i).inUse = true ∧ (w.sockets i).pending k = some t
  | .dns n => t ≠ 0 ∧ (w.dnsPending n).inUse = true ∧ (w.dnsPending n).imsg = some t
  | .stop => False

/-- The deadline and the cursor of a parked send are cleared. -/
def forgetSend (s : TnSocketSlot) : TnSocketSlot :=
  { s with sendDeadlineTick := 0, sendDone := 0, sendIov := none }

/-- The place lets go of its message, a send with its deadline and cursor. -/
def evict (w : World) : Place → World
  | .slot i .send => (w.setPending i .send none).modSlot i forgetSend
  | .slot i k => w.setPending i k none
  | .dns n => clearDns w n
  | .stop => w

/-- The answer of a cancelled request: `EINTR`, or what a send has queued so far. -/
def answerAt (w : World) : Place → Int × Errno
  | .slot i .send => sendResult (w.sockets i).sendDone .eintr
  | _ => (-1, .eintr)

/-- The end of a send's wait, which the trace notes before the reply. -/
def endsAt (w : World) (t : MsgId) : Place → World
  | .slot _ .send => w.emit (.sendEnd (w.callOf t) .eintr)
  | _ => w

/-- The place lets go of `t` and `t` is answered; nothing else happens. -/
def cancelled (w : World) (t : MsgId) (pl : Place) : World :=
  (endsAt (evict w pl) t pl).answerMsg t (answerAt w pl).1 (answerAt w pl).2

/-- Place `pl` is empty in `w'`, and every other place holds what it holds in `w`. -/
def OnlyEmpties (w w' : World) (pl : Place) : Prop :=
  ∀ pl', heldMsg w' pl' = if pl' = pl then none else heldMsg w pl'

/-- `CANCEL` answers its target and removes it from the place that holds it, or, when no place
holds it, changes nothing but its own reply. -/
def Exact (w : World) (m : MsgId) : Prop :=
  (∃ pl, Holds w (targetOf w m) pl ∧ OnlyEmpties w (tnIpcCmdCancel w m).1 pl ∧
    tnIpcCmdCancel w m = done (cancelled w (targetOf w m) pl) m 0 .ok) ∨
  ((∀ pl, ¬ Holds w (targetOf w m) pl) ∧ tnIpcCmdCancel w m = done w m 0 .ok)

/-- A field that a `NULL` target compares equal to. -/
def EmptyField (w : World) : Prop :=
  (∃ i k, (w.sockets i).inUse = true ∧ k ≠ .send ∧ (w.sockets i).pending k = none) ∨
  ∃ n, (w.dnsPending n).inUse = true ∧ (w.dnsPending n).imsg = none

/-! ## Only the holder is emptied -/

/-- The place is empty. -/
theorem heldMsg_evict_self (pl : Place) (h : Holds w t pl) : heldMsg (evict w pl) pl = none := by
  match pl, h with
  | .slot i k, _ => cases k <;> simp [evict, heldMsg, setPending, modSlot, forgetSend]
  | .dns n, _ => simp [evict, heldMsg, clearDns]

theorem heldMsg_setPending_of_ne {pl : Place} (hne : pl ≠ .slot i k) (v : Option MsgId) :
    heldMsg (w.setPending i k v) pl = heldMsg w pl := by
  match pl with
  | .slot j k' =>
    by_cases hj : j = i
    · subst hj
      have hk : k' ≠ k := fun h => hne (h ▸ rfl)
      simp [heldMsg, setPending, modSlot, hk]
    · simp [heldMsg, setPending, modSlot, hj]
  | .dns _ => rfl
  | .stop => rfl

theorem heldMsg_forgetSend (pl : Place) : heldMsg (w.modSlot i forgetSend) pl = heldMsg w pl := by
  match pl with
  | .slot j k =>
    by_cases hj : j = i
    · subst hj
      simp [heldMsg, modSlot, forgetSend]
    · simp [heldMsg, modSlot, hj]
  | .dns _ => rfl
  | .stop => rfl

/-- The other places are not. -/
theorem heldMsg_evict_of_ne {pl pl' : Place} (hne : pl' ≠ pl) :
    heldMsg (evict w pl) pl' = heldMsg w pl' := by
  match pl with
  | .slot i k =>
    cases k with
    | send =>
      exact (heldMsg_forgetSend pl').trans (heldMsg_setPending_of_ne hne none)
    | connect => exact heldMsg_setPending_of_ne hne none
    | accept => exact heldMsg_setPending_of_ne hne none
    | recv => exact heldMsg_setPending_of_ne hne none
  | .dns n =>
    match pl' with
    | .slot _ _ => rfl
    | .dns n' =>
      have hn : n' ≠ n := fun h => hne (h ▸ rfl)
      simp [evict, heldMsg, clearDns, hn]
    | .stop => rfl
  | .stop => rfl

/-- The answer empties no place. -/
theorem heldMsg_cancelled (t : MsgId) (pl pl' : Place) :
    heldMsg (cancelled w t pl) pl' = heldMsg (evict w pl) pl' := by
  match pl with
  | .slot _ k => cases k <;> cases pl' <;> rfl
  | .dns _ => cases pl' <;> rfl
  | .stop => cases pl' <;> rfl

/-- After a cancel the place of the target is empty and every other place holds what it held. -/
theorem cancelled_onlyEmpties {pl : Place} (h : Holds w t pl) :
    OnlyEmpties w (cancelled w t pl) pl := by
  intro pl'
  rw [heldMsg_cancelled]
  split
  · rename_i he
    rw [he, heldMsg_evict_self pl h]
  · rename_i hne
    exact heldMsg_evict_of_ne hne

/-! ## The searches -/

/-- What the search of the slots finds. -/
theorem cancelAt_some (ht : t ≠ 0) (hc : cancelAt w i t = some w') :
    ∃ pl, Holds w t pl ∧ w' = cancelled w t pl := by
  simp only [cancelAt, targetMsg, if_neg ht] at hc
  split_ifs at hc with hu hr hn ha
  · refine ⟨.slot i .recv, ⟨ht, hu, hr⟩, ?_⟩
    cases hc
    simp [cancelField, replyTarget, ht, cancelled, endsAt, evict, answerAt]
  · refine ⟨.slot i .connect, ⟨ht, hu, hn⟩, ?_⟩
    cases hc
    simp [cancelField, replyTarget, ht, cancelled, endsAt, evict, answerAt]
  · refine ⟨.slot i .accept, ⟨ht, hu, ha⟩, ?_⟩
    cases hc
    simp [cancelField, replyTarget, ht, cancelled, endsAt, evict, answerAt]

/-- What it does not. -/
theorem cancelAt_none (ht : t ≠ 0) (hc : cancelAt w i t = none) (hk : k ≠ .send) :
    ¬ Holds w t (.slot i k) := by
  rintro ⟨-, hu, hp⟩
  simp only [cancelAt, targetMsg, if_neg ht, if_pos hu] at hc
  split_ifs at hc with hr hn ha
  cases k with
  | recv => exact hr hp
  | connect => exact hn hp
  | accept => exact ha hp
  | send => exact hk rfl

/-- What the search of the sends finds. -/
theorem cancelParkedSendAt_some (hc : cancelParkedSendAt w i t = some w') :
    ∃ pl, Holds w t pl ∧ w' = cancelled w t pl := by
  unfold cancelParkedSendAt at hc
  split_ifs at hc with h
  refine ⟨.slot i .send, h, ?_⟩
  cases hc
  simp only [tnSlotReplySend, h.2.2]
  rfl

/-- What it does not. -/
theorem cancelParkedSendAt_none (hc : cancelParkedSendAt w i t = none) :
    ¬ Holds w t (.slot i .send) := by
  rintro ⟨ht, hu, hp⟩
  rw [cancelParkedSendAt, if_pos ⟨ht, hu, hp⟩] at hc
  cases hc

/-- What the search of the lookups finds. -/
theorem cancelDns_some (ht : t ≠ 0) (hc : cancelDns w t = some w') :
    ∃ pl, Holds w t pl ∧ w' = cancelled w t pl := by
  obtain ⟨n, hn, rfl⟩ := Option.map_eq_some_iff.mp hc
  have hn := List.find?_some hn
  simp only [Bool.and_eq_true, beq_iff_eq, targetMsg, if_neg ht] at hn
  refine ⟨.dns n, ⟨ht, hn⟩, ?_⟩
  simp [replyTarget, ht, cancelled, endsAt, evict, answerAt]

/-- What it does not. -/
theorem cancelDns_none (ht : t ≠ 0) (hc : cancelDns w t = none) : ¬ Holds w t (.dns n) := by
  rintro ⟨-, hu, hm⟩
  have hn := List.find?_eq_none.mp (Option.map_eq_none_iff.mp hc) n (List.mem_finRange n)
  simp [hu, hm, targetMsg, ht] at hn

/-- A target that is not `NULL` is found where it is held, or it is held nowhere. -/
theorem cancelTarget_exact (ht : t ≠ 0) :
    (∃ pl, Holds w t pl ∧ cancelTarget w t = cancelled w t pl) ∨
      (∀ pl, ¬ Holds w t pl) ∧ cancelTarget w t = w := by
  unfold cancelTarget
  cases hf : (List.finRange 64).findSome? fun i => cancelAt w i t with
  | some w' =>
    obtain ⟨i, -, hi⟩ := List.exists_of_findSome?_eq_some hf
    exact .inl (cancelAt_some ht hi)
  | none =>
    cases hs : (List.finRange 64).findSome? fun i => cancelParkedSendAt w i t with
    | some w' =>
      obtain ⟨i, -, hi⟩ := List.exists_of_findSome?_eq_some hs
      exact .inl (cancelParkedSendAt_some hi)
    | none =>
      cases hd : cancelDns w t with
      | some w' => exact .inl (cancelDns_some ht hd)
      | none =>
        refine .inr ⟨fun pl => ?_, rfl⟩
        match pl with
        | .slot i k =>
          by_cases hk : k = .send
          · rw [hk]
            exact cancelParkedSendAt_none (List.findSome?_eq_none_iff.mp hs i (List.mem_finRange i))
          · exact cancelAt_none ht (List.findSome?_eq_none_iff.mp hf i (List.mem_finRange i)) hk
        | .dns n => exact cancelDns_none ht hd
        | .stop => exact id

/-! ## A `NULL` target -/

theorem not_holds_null (pl : Place) : ¬ Holds w 0 pl := by
  match pl with
  | .slot _ _ => exact fun h => h.1 rfl
  | .dns _ => exact fun h => h.1 rfl
  | .stop => exact id

/-- A `NULL` target answers nobody in an empty field. -/
theorem cancelAt_null (hc : cancelAt w i 0 = some w') : w'.trace = .replyNull :: w.trace := by
  simp only [cancelAt] at hc
  split_ifs at hc <;> cases hc <;> rfl

/-- When there is no empty field. -/
theorem cancelAt_null_none : cancelAt w i 0 = none ↔
    ¬ ((w.sockets i).inUse = true ∧ ∃ k, k ≠ .send ∧ (w.sockets i).pending k = none) := by
  simp only [cancelAt, targetMsg, if_true]
  constructor
  · rintro hc ⟨hu, k, hk, hp⟩
    rw [if_pos hu] at hc
    split_ifs at hc with hr hn ha
    cases k with
    | recv => exact hr hp
    | connect => exact hn hp
    | accept => exact ha hp
    | send => exact hk rfl
  · intro h
    split_ifs with hu hr hn ha
    · exact absurd ⟨hu, .recv, by decide, hr⟩ h
    · exact absurd ⟨hu, .connect, by decide, hn⟩ h
    · exact absurd ⟨hu, .accept, by decide, ha⟩ h
    · rfl
    · rfl

/-- The same for the lookups. -/
theorem cancelDns_null (hc : cancelDns w 0 = some w') : w'.trace = .replyNull :: w.trace := by
  obtain ⟨n, -, rfl⟩ := Option.map_eq_some_iff.mp hc
  rfl

/-- When no lookup is empty. -/
theorem cancelDns_null_none : cancelDns w 0 = none ↔
    ¬ ∃ n, (w.dnsPending n).inUse = true ∧ (w.dnsPending n).imsg = none := by
  simp [cancelDns, List.find?_eq_none, targetMsg]

/-- `NULL` is answered if some field is empty, and goes unnoticed if none is. -/
theorem cancelTarget_null :
    (EmptyField w → (cancelTarget w 0).trace = .replyNull :: w.trace) ∧
      (¬ EmptyField w → cancelTarget w 0 = w) := by
  have hs : ((List.finRange 64).findSome? fun i => cancelParkedSendAt w i 0) = none :=
    List.findSome?_eq_none_iff.mpr fun i _ => by simp [cancelParkedSendAt]
  unfold cancelTarget
  rw [hs]
  cases hf : (List.finRange 64).findSome? fun i => cancelAt w i 0 with
  | some w' =>
    obtain ⟨i, -, hi⟩ := List.exists_of_findSome?_eq_some hf
    have hne : ¬ ¬ ((w.sockets i).inUse = true ∧ ∃ k, k ≠ .send ∧ (w.sockets i).pending k = none) :=
      fun h => by simp [cancelAt_null_none.mpr h] at hi
    obtain ⟨hu, k, hk⟩ := not_not.mp hne
    exact ⟨fun _ => cancelAt_null hi, fun h => absurd (.inl ⟨i, k, hu, hk⟩) h⟩
  | none =>
    have hslot : ¬ ∃ i k, (w.sockets i).inUse = true ∧ k ≠ .send ∧
        (w.sockets i).pending k = none := by
      rintro ⟨i, k, hu, hk⟩
      have hi := List.findSome?_eq_none_iff.mp hf i (List.mem_finRange i)
      exact cancelAt_null_none.mp hi ⟨hu, k, hk⟩
    cases hd : cancelDns w 0 with
    | some w' =>
      have hn : ¬ ¬ ∃ n, (w.dnsPending n).inUse = true ∧ (w.dnsPending n).imsg = none :=
        fun h => by simp [cancelDns_null_none.mpr h] at hd
      exact ⟨fun _ => cancelDns_null hd, fun h => absurd (.inr (not_not.mp hn)) h⟩
    | none =>
      have hn := cancelDns_null_none.mp hd
      exact ⟨fun h => (h.elim hslot hn).elim, fun _ => rfl⟩

/-! ## `CANCEL` -/

theorem tnIpcCmdCancel_eq (w : World) (m : MsgId) :
    tnIpcCmdCancel w m = done (cancelTarget w (targetOf w m)) m 0 .ok := rfl

/-- With a `NULL` target more is emptied than asked for. -/
theorem not_exact_of_null (ht : targetOf w m = 0) (hf : EmptyField w) : ¬ Exact w m := by
  rintro (⟨pl, hp, -, -⟩ | ⟨-, he⟩)
  · rw [ht] at hp
    exact not_holds_null pl hp
  · -- the reply to `NULL` is in the trace of the one state and not of the other
    rw [tnIpcCmdCancel_eq, ht] at he
    have htr : (cancelTarget w 0).trace = w.trace := congrArg (fun r => r.1.trace) he
    rw [cancelTarget_null.1 hf] at htr
    exact List.cons_ne_self _ _ htr

/-- `CANCEL` is exact unless its target is `NULL` and some field it searches is empty. -/
theorem exact_iff (w : World) (m : MsgId) :
    Exact w m ↔ ¬ (targetOf w m = 0 ∧ EmptyField w) := by
  constructor
  · rintro he ⟨ht, hf⟩
    exact not_exact_of_null ht hf he
  · intro h
    -- a `NULL` target finds nobody when no field is empty; any other is found where it waits
    by_cases ht : targetOf w m = 0
    · have hf : ¬ EmptyField w := fun hf => h ⟨ht, hf⟩
      refine .inr ⟨fun pl => ht ▸ not_holds_null pl, ?_⟩
      rw [tnIpcCmdCancel_eq, ht, cancelTarget_null.2 hf]
    · rcases cancelTarget_exact (w := w) ht with ⟨pl, hp, he⟩ | ⟨hn, he⟩
      · have hcmd : tnIpcCmdCancel w m = done (cancelled w (targetOf w m) pl) m 0 .ok := by
          rw [tnIpcCmdCancel_eq, he]
        refine .inl ⟨pl, hp, fun pl' => ?_, hcmd⟩
        rw [hcmd, ← cancelled_onlyEmpties hp pl']
        cases pl' <;> rfl
      · exact .inr ⟨hn, by rw [tnIpcCmdCancel_eq, he]⟩

/-- A daemon with one idle socket, and a `CANCEL` of `NULL` in message 7. -/
def oneIdle : World :=
  { tnSlotAlloc tnSlotTableInit firstSlot (some 1) 1 afInet sockStream 0 with
    msgs := fun _ => { cmd := .cancel } }

/-- The condition is needed. -/
theorem not_forall_exact : ¬ ∀ w m, Exact w m := by
  intro h
  have hs : (oneIdle.sockets 0).inUse = true := rfl
  exact not_exact_of_null rfl (.inl ⟨0, .recv, hs, by decide, rfl⟩) (h oneIdle 7)

end Cancel

end Tolunnet
