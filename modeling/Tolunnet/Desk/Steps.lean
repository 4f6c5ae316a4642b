import Tolunnet.Desk.Handlers

/-!
# `Tolunnet.Desk.Steps`: whole steps in the accounts

The handlers of bases, lookups, hand-over, `STOP`, `CANCEL` and `RECONFIG`, the dispatcher, and
with them every step of the daemon as moves. `Allowed w inp` says which marked moves a step can
make: a socket is parked only by `RELEASESOCKET`, a lookup is deferred only by `GETHOSTBYNAME`, a
group is left without a record only by an `IP_DROP_MEMBERSHIP` of that kind, and a lookup is
dropped only when a client has died.
-/

set_option autoImplicit false

namespace Tolunnet

open World

variable {P : Mark → Prop} {h : List MsgId} {w : World} {m : MsgId} {i : SlotIdx}

/-! ## Lookups -/

/-- A record of a closing base is answered; the reaper drops it. -/
theorem dnsCancelAt_moves (b : BaseId) (reply : Bool) (k : Fin 8) (hr : reply = false → P .reap) :
    Moves P (desk h w) (desk h (dnsCancelAt b reply w k)) := by
  unfold dnsCancelAt
  dsimp only
  split
  · rename_i hk
    simp only [Bool.and_eq_true, beq_iff_eq] at hk
    split
    · rename_i hm
      exact .one (.forget (desk h w) k hk.1 (Or.inl hm)) rfl
    · rename_i m hm
      cases reply with
      | true => exact .one (.found (desk h w) k m hk.1 hm) rfl
      | false => exact .one (.forget (desk h w) k hk.1 (Or.inr (hr rfl))) rfl
  · exact .refl

/-- A base's lookups are cancelled with their replies, or reaped without. -/
theorem tnDnsCancelForBase2_moves (b : BaseId) (reply : Bool) (hr : reply = false → P .reap) :
    Moves P (desk h w) (desk h (tnDnsCancelForBase2 w b reply)) :=
  desk_posts.foldl _ _ (fun _ k _ => dnsCancelAt_moves b reply k hr) w

/-- A lookup takes a free entry for the message. -/
theorem deferDns_handled (b : BaseId) (hostname : List Char) (hl : P .lookup) :
    Handled P m w (deferDns w m b hostname) := by
  unfold deferDns
  dsimp only
  split
  · exact .done .refl _ _
  · split
    · rename_i k hk
      have free : (w.dnsPending k).inUse = false := by simpa using List.find?_some hk
      refine Moves.one (.lookup (desk [m] w) k m
        { inUse := true, imsg := some m, base := some b, name := hostname.take 63,
          tick := w.mainloopTicks } (List.mem_cons_self ..) free rfl rfl hl) ?_
      simp only [desk, registerDns, Desk.setHand, Desk.fillDns, Desk.setDns, List.erase_cons_head]
      rfl
    · exact .done .refl _ _

/-- `GETHOSTBYNAME` answers, refuses or defers. -/
theorem tnIpcCmdGethostbyname_handled (hl : P .lookup) :
    Handled P m w (tnIpcCmdGethostbyname w m) := by
  unfold tnIpcCmdGethostbyname
  dsimp only
  split
  · split
    · exact .done .refl _ _
    · split
      · exact .done (.none (by simp [tnIpcFillHostentNow])) _ _
      · split
        · exact Handled.trans (.none desk_asked) (deferDns_handled _ _ hl)
        · exact .done (.none desk_asked) _ _
  · exact .done .refl _ _

/-! ## Bases -/

/-- A reference count is in no account. -/
@[simp] theorem desk_tnSlotRef (i : SlotIdx) : desk h (tnSlotRef w i) = desk h w :=
  (desk_blind h).tnSlotRef

/-- The registry is in no account. -/
@[simp] theorem desk_unregisterBase (b : Option BaseId) :
    desk h (unregisterBase w b) = desk h w := by
  unfold unregisterBase
  split <;> rfl

/-- A closed descriptor gives its slot up. -/
theorem closeFd_moves (b : BaseId) (fd : Nat) : Moves P (desk h w) (desk h (closeFd b w fd)) := by
  unfold closeFd
  split
  · exact .refl
  · split
    · exact (Moves.none (desk_setFd ..)).trans (tnSlotUnref_moves _)
    · exact .refl

/-- A closed base gives up its slots and its lookups. -/
theorem closeBase_moves (b : BaseId) : Moves P (desk h w) (desk h (closeBase w b)) := by
  unfold closeBase
  dsimp only
  have cancelled := (tnDnsCancelForBase2_moves (P := P) (h := h) (w := w) b true nofun).trans
    (desk_replies.tnRecvCancelForBase2 b true)
  refine Relation.ReflTransGen.trans ?_ (desk_posts.tnSlotClearOwnerBase b)
  refine Relation.ReflTransGen.trans ?_ (desk_posts.tnSelectorDisarmAllForBase b)
  exact (cancelled.trans (Moves.none (desk_unregisterBase _))).trans
    (desk_posts.foldl _ _ (fun _ fd _ => closeFd_moves b fd) _)

/-- `CLOSE` answers once its base is closed. -/
theorem tnIpcCmdClose_handled : Handled P m w (tnIpcCmdClose w m) := by
  unfold tnIpcCmdClose
  split
  · exact .done (closeBase_moves _) _ _
  · exact .done (.none (by simp)) _ _

/-- The moves leave it to the tasks who is alive. -/
theorem Moves.alive {d d' : Desk} (hm : Moves P d d') : d'.alive = d.alive := by
  induction hm with
  | refl => rfl
  | tail _ hm ih =>
    rw [← ih]
    cases hm <;> rfl

/-- A reaped base loses its lookups without a reply. -/
theorem reapBase_moves (b : BaseId) (hr : P .reap) :
    Moves P (desk h w) (desk h (reapBase w b)) := by
  unfold reapBase
  have cancelled := (tnDnsCancelForBase2_moves (P := P) (h := h) (w := w) b false fun _ => hr).trans
    (desk_replies.tnRecvCancelForBase2 b false)
  have dropped := cancelled.trans (desk_posts.foldl (dropPendingAt b) (List.finRange 64)
    (fun _ _ _ => desk_replies.dropPendingAt b) _)
  exact Moves.congr (dropped.trans (closeBase_moves b)) (desk_libOpenCnt _)

/-- A registry entry is reaped only when its task is dead. -/
theorem reapAt_moves (k : Fin 16) (hr : (∃ t, w.taskAlive t = false) → P .reap) :
    Moves P (desk h w) (desk h (reapAt w k)) := by
  unfold reapAt
  split
  · exact .refl
  · rename_i b _
    split
    · exact .refl
    · rename_i hd
      exact reapBase_moves b (hr ⟨_, by simpa using hd⟩)

/-- The reaper goes through the whole registry. -/
theorem tnReapDeadClients_moves (hr : (∃ t, w.taskAlive t = false) → P .reap) :
    Moves P (desk h w) (desk h (tnReapDeadClients w)) := by
  unfold tnReapDeadClients
  induction List.finRange 16 generalizing w with
  | nil => exact .refl
  | cons k l ih =>
    have first : Moves P (desk h w) (desk h (reapAt w k)) := reapAt_moves k hr
    have alive : (reapAt w k).taskAlive = w.taskAlive := first.alive
    exact first.trans (ih (by rw [alive]; exact hr))

/-- The host name is in no account. -/
@[simp] theorem desk_giveHostname (b : BaseId) : desk h (giveHostname w b) = desk h w :=
  (desk_blind h).giveHostname ..

/-- The registry is in no account. -/
@[simp] theorem desk_registerBase (k : Fin 16) (b : BaseId) :
    desk h (registerBase w k b) = desk h w := rfl

/-- `OPEN`, which reaps first. -/
theorem tnIpcCmdOpen_handled (hr : (∃ t, w.taskAlive t = false) → P .reap) :
    Handled P m w (tnIpcCmdOpen w m) := by
  unfold tnIpcCmdOpen
  split
  · exact .done .refl _ _
  · rename_i b _
    dsimp only
    have named : Moves P (desk [m] w) (desk [m] (giveHostname w b)) := .none (by simp)
    have alive : (giveHostname w b).taskAlive = w.taskAlive := named.alive
    rw [← alive] at hr
    refine Handled.trans named ?_
    generalize giveHostname w b = w1 at hr
    split
    · exact .done .refl _ _
    · split
      · exact .done (.none (by simp)) _ _
      · have reaped := tnReapDeadClients_moves (P := P) (h := [m]) hr
        split
        · exact .done (reaped.congr (by simp)) _ _
        · exact .fail reaped _

/-- A new connection is given to its slot, which no account shows. -/
theorem newPcb_moves (type protocol : Int) :
    Moves P (desk h w) (desk h (newPcb w i type protocol).1) := by
  unfold newPcb
  split
  · unfold newUdp
    dsimp only
    split <;> exact .none (by simp)
  · split
    · exact desk_wide.newTcp
    · unfold newRaw
      dsimp only
      split <;> exact .none (by simp)

/-- `SOCKET` answers or refuses. -/
theorem tnIpcCmdSocket_handled : Handled P m w (tnIpcCmdSocket w m) := by
  unfold tnIpcCmdSocket
  dsimp only
  split
  · exact .fail .refl _
  · split
    · exact .fail .refl _
    · rename_i b _
      split
      · exact .fail .refl _
      · split
        · exact .fail .refl _
        · rename_i j _
          refine Handled.trans (tnSlotAlloc_moves j (some b) (w.msgs m).clientTask
            ((w.msgs m).args 0) ((w.msgs m).args 1) ((w.msgs m).args 2)) ?_
          generalize tnSlotAlloc w j _ _ _ _ _ = w1
          have made := newPcb_moves (P := P) (h := [m]) (w := w1) (i := j) ((w.msgs m).args 1)
            ((w.msgs m).args 2)
          split
          · rename_i heq
            rw [heq] at made
            exact .fail (made.trans (tnSlotFree_moves j)) _
          · rename_i heq
            rw [heq] at made
            refine .done (made.congr ?_) _ _
            split <;> simp

/-- `CLOSESOCKET` answers what the slot held, then itself. -/
theorem tnIpcCmdClosesocket_handled (slot : Option SlotIdx) :
    Handled P m w (tnIpcCmdClosesocket w m slot) := by
  unfold tnIpcCmdClosesocket
  dsimp only
  split
  · rename_i i b _
    have own : Moves P (desk [m] w) (desk [m] (cancelOwn w i b)) := desk_replies.cancelOwn b
    exact .done (own.trans ((Moves.none (desk_setFd ..)).trans (tnSlotUnref_moves i))) _ _
  · exact .fail .refl _

/-- `DUP2` may close the descriptor it writes over. -/
theorem tnIpcCmdDup2_handled (slot : Option SlotIdx) : Handled P m w (tnIpcCmdDup2 w m slot) := by
  unfold tnIpcCmdDup2
  dsimp only
  split
  · split
    · exact .fail .refl _
    · split
      · exact .done .refl _ _
      · rename_i i b _ _ _
        have closed := closeFd_moves (P := P) (h := [m]) (w := w) b ((w.msgs m).args 1).toNat
        exact .done (closed.congr (by simp)) _ _
  · exact .fail .refl _

/-! ## The parking lot -/

/-- The slots that are parked, in the terms of the accounts. -/
theorem parkIdTaken_eq_false {id : Int} :
    parkIdTaken w id = false ↔ ∀ j, (desk h w).lot j ≠ some id := by
  unfold parkIdTaken
  rw [List.any_eq_false]
  constructor
  · intro hf j hj
    refine hf j (List.mem_finRange j) ?_
    have hj : (w.sockets j).parkedAs = some id := hj
    unfold TnSocketSlot.parkedAs at hj
    split at hj
    · rename_i hb
      rw [hb, Option.some.inj hj]
      simp
    · cases hj
  · intro hf j _ hj
    refine hf j ?_
    simp only [Bool.and_eq_true, beq_iff_eq] at hj
    show (w.sockets j).parkedAs = some id
    simp [TnSocketSlot.parkedAs, hj.1.1, hj.1.2, hj.2]

/-- The counter is a positive LONG. -/
theorem bumpParkId_pos :
    0 < (bumpParkId w).nextParkId ∧ (bumpParkId w).nextParkId < 2 ^ 31 := by
  show 0 < (if (w.nextParkId + 1).bmod (2 ^ 32) ≤ 0 then 1 else (w.nextParkId + 1).bmod (2 ^ 32)) ∧
    (if (w.nextParkId + 1).bmod (2 ^ 32) ≤ 0 then 1 else (w.nextParkId + 1).bmod (2 ^ 32)) < 2 ^ 31
  have lt : (w.nextParkId + 1).bmod (2 ^ 32) < (2 ^ 32 + 1) / 2 := Int.bmod_lt (by decide)
  split <;> omega

/-- The loop only moves the counter. -/
theorem uniqueParkId_eq (fuel : Nat) :
    ∃ n, (uniqueParkId fuel w).1 = { w with nextParkId := n } ∧
      (0 < w.nextParkId ∧ w.nextParkId < 2 ^ 31 → 0 < n ∧ n < 2 ^ 31) := by
  induction fuel generalizing w with
  | zero => exact ⟨w.nextParkId, rfl, id⟩
  | succ fuel ih =>
    unfold uniqueParkId
    split
    · obtain ⟨n, he, hn⟩ := ih (w := bumpParkId w)
      exact ⟨n, he, fun _ => hn bumpParkId_pos⟩
    · exact ⟨_, rfl, fun _ => bumpParkId_pos⟩

/-- The loop ends with an id that no slot has. -/
theorem uniqueParkId_free {fuel : Nat} {w' : World} {id : Int}
    (hu : uniqueParkId fuel w = (w', some id)) : parkIdTaken w id = false := by
  induction fuel generalizing w with
  | zero => cases hu
  | succ fuel ih =>
    unfold uniqueParkId at hu
    split at hu
    · have hf : parkIdTaken (bumpParkId w) id = false := ih hu
      exact hf
    · rename_i hf
      obtain ⟨-, he⟩ := Prod.mk.inj hu
      cases he
      simpa using hf

/-- A release gets an id that no slot has; only the counter moves. -/
theorem chooseParkId_eq (reqId : Int) :
    ∃ n, (chooseParkId w reqId).1 = { w with nextParkId := n } ∧
      (0 < w.nextParkId ∧ w.nextParkId < 2 ^ 31 → 0 < n ∧ n < 2 ^ 31) := by
  unfold chooseParkId
  split
  · obtain ⟨n, he, hn⟩ := uniqueParkId_eq (w := w) 65
    refine ⟨n, ?_, hn⟩
    rw [← he]
    split
    · rename_i heq
      rw [heq]
    · rename_i heq
      rw [heq]
  · refine ⟨w.nextParkId, ?_, id⟩
    split_ifs <;> rfl

/-- A chosen id is not taken. -/
theorem chooseParkId_free {reqId id : Int} {w' : World} (hc : chooseParkId w reqId = (w', .ok id)) :
    parkIdTaken w id = false := by
  unfold chooseParkId at hc
  split at hc
  · split at hc
    · rename_i heq
      obtain ⟨-, he⟩ := Prod.mk.inj hc
      cases he
      exact uniqueParkId_free heq
    · cases (Prod.mk.inj hc).2
  · split at hc
    · cases (Prod.mk.inj hc).2
    · split at hc
      · cases (Prod.mk.inj hc).2
      · rename_i hf
        obtain ⟨-, he⟩ := Prod.mk.inj hc
        cases he
        simpa using hf

/-- A refusal names its reason. -/
theorem chooseParkId_error {reqId : Int} {w' : World} {e : Errno}
    (hc : chooseParkId w reqId = (w', .error e)) : e ≠ .ok := by
  unfold chooseParkId at hc
  split_ifs at hc
  · split at hc
    · cases (Prod.mk.inj hc).2
    · cases (Prod.mk.inj hc).2
      decide
  · cases (Prod.mk.inj hc).2
    decide
  · cases (Prod.mk.inj hc).2
    decide
  · cases (Prod.mk.inj hc).2

/-- A slot is parked. -/
theorem desk_park (id : Int) (hu : (w.sockets i).inUse = true) :
    desk h (w.modSlot i fun s => { s with isParked := true, parkId := id })
      = (desk h w).setLot i (some id) := by
  unfold desk Desk.setLot
  congr 1 <;> funext j
  all_goals
    by_cases hj : j = i
    · subst hj
      simp [modSlot, TnSocketSlot.parkedAs, hu]
    · simp [modSlot, hj]

/-- `RELEASESOCKET` parks the slot under its id. -/
theorem tnIpcCmdReleasesocket_handled (hu : (w.sockets i).inUse = true) (hl : P .release) :
    Handled P m w (tnIpcCmdReleasesocket w m (some i)) := by
  unfold tnIpcCmdReleasesocket
  dsimp only
  cases (w.msgs m).socketBase with
  | none => exact .fail .refl _
  | some b =>
    dsimp only
    split
    · exact .fail .refl _
    · obtain ⟨n, he, hn⟩ := chooseParkId_eq (w := w) ((w.msgs m).args 1)
      have counted : Moves P (desk [m] w) (desk [m] { w with nextParkId := n }) :=
        .one (.count (desk [m] w) n hn) rfl
      split
      · rename_i w1 e heq
        rw [heq] at he
        obtain rfl : w1 = _ := he
        exact .fail counted _
      · rename_i w1 id heq
        have free := chooseParkId_free heq
        rw [heq] at he
        obtain rfl : w1 = _ := he
        rw [parkIdTaken_eq_false (h := [m])] at free
        have parked : Moves P (desk [m] w) (desk [m] (World.modSlot { w with nextParkId := n } i
            fun s => { s with isParked := true, parkId := id })) :=
          counted.trans (Moves.one (.release _ i id free hl) (desk_park id hu))
        refine .done (parked.congr ?_) _ _
        split <;> simp

/-- `OBTAINSOCKET` takes the slot out of the lot. -/
theorem tnIpcCmdObtainsocket_handled : Handled P m w (tnIpcCmdObtainsocket w m) := by
  unfold tnIpcCmdObtainsocket
  dsimp only
  split
  · exact .fail .refl _
  · split
    · exact .fail .refl _
    · rename_i i _
      split
      · exact .fail .refl _
      · split
        · exact .fail .refl _
        · refine .done (.one (.vacate _ i) ((desk_vacate i _ rfl ?_).trans (by simp))) _ _
          simp [TnSocketSlot.parkedAs]

/-! ## Queries -/

/-- `IOCTL` answers at once. -/
theorem tnIpcCmdIoctl_plain (slot : Option SlotIdx) : Plain w (tnIpcCmdIoctl w m slot) where
  now := by
    unfold tnIpcCmdIoctl
    dsimp only
    repeat' split
    all_goals rfl
  same h := Stock.tnIpcCmdIoctl (desk_same h) slot

/-- `GETSOCKNAME` answers at once. -/
theorem tnIpcCmdGetsockname_plain (slot : Option SlotIdx) :
    Plain w (tnIpcCmdGetsockname w m slot) where
  now := by
    unfold tnIpcCmdGetsockname
    dsimp only
    repeat' split
    all_goals rfl
  same h := Stock.tnIpcCmdGetsockname (desk_same h) slot

/-- `GETPEERNAME` answers at once. -/
theorem tnIpcCmdGetpeername_plain (slot : Option SlotIdx) :
    Plain w (tnIpcCmdGetpeername w m slot) where
  now := by
    unfold tnIpcCmdGetpeername peernameStream
    dsimp only
    repeat' split
    all_goals rfl
  same h := Stock.tnIpcCmdGetpeername (desk_same h) slot

/-- `ENUMSOCKETS` answers at once. -/
theorem tnIpcCmdEnumsockets_plain : Plain w (tnIpcCmdEnumsockets w m) where
  now := by
    unfold tnIpcCmdEnumsockets
    dsimp only
    repeat' split
    all_goals rfl
  same h := Stock.tnIpcCmdEnumsockets (desk_same h)

/-- A command answered by the environment. -/
theorem replyByAnswer_plain : Plain w (replyByAnswer w m) where
  now := by
    unfold replyByAnswer
    split <;> rfl
  same h := Stock.replyByAnswer (desk_same h)

/-- `IFCTL` may abort connections before it answers. -/
theorem tnIpcCmdIfctl_handled : Handled P m w (tnIpcCmdIfctl w m) :=
  Handled.trans (desk_posts.trans (desk_posts.asked w) (desk_callbacks.runErrs _))
    replyByAnswer_plain.handled

/-- `SYSLOG` answers at once. -/
theorem tnIpcCmdSyslog_plain : Plain w (tnIpcCmdSyslog w m) where
  now := by
    unfold tnIpcCmdSyslog
    dsimp only
    repeat' split
    all_goals rfl
  same h := Stock.tnIpcCmdSyslog (desk_same h)

/-- `RECONFIG` answers at once. -/
theorem tnIpcCmdReconfig_plain : Plain w (tnIpcCmdReconfig w m) where
  now := by
    unfold tnIpcCmdReconfig
    dsimp only
    split <;> rfl
  same h := Stock.tnIpcCmdReconfig (desk_same h)

/-! ## `STOP` and `CANCEL` -/

/-- `STOP`, which reaps first. -/
theorem tnIpcCmdStop_handled (hr : (∃ t, w.taskAlive t = false) → P .reap) :
    Handled P m w (tnIpcCmdStop w m) := by
  unfold tnIpcCmdStop
  dsimp only
  generalize hw1 : (if (w.setReply m 0 .ok).libOpenCnt > 0 then _ else w.setReply m 0 .ok) = w1
  have reaped : Moves P (desk [m] w) (desk [m] w1) := by
    rw [← hw1]
    split
    · exact (Moves.none rfl).trans (tnReapDeadClients_moves (w := w.setReply m 0 .ok) hr)
    · exact .refl
  split
  · exact .fail reaped _
  · split
    · exact .fail reaped _
    · refine Handled.trans reaped (Moves.one (.putStop _ m (List.mem_cons_self ..)) ?_)
      simp [desk, answered]

/-- A cancelled field replies once. -/
theorem cancelField_moves {k : Pend} {target : MsgId}
    (hp : (w.sockets i).pending k = targetMsg target) :
    Moves P (desk h w) (desk h (cancelField w i k target)) := by
  unfold cancelField replyTarget
  split
  · exact .one (.lose _ i k) ((desk_emit _ rfl).trans (desk_setPending ..))
  · rename_i hne
    rw [targetMsg, if_neg hne] at hp
    exact (moves_answer (d := desk h w) hp).congr (by simp)

/-- A cancel at a slot. -/
theorem cancelAt_moves {target : MsgId} {w' : World} (hc : cancelAt w i target = some w') :
    Moves P (desk h w) (desk h w') := by
  unfold cancelAt at hc
  dsimp only at hc
  split_ifs at hc with hu h1 h2 h3
  · cases hc
    exact cancelField_moves h1
  · cases hc
    exact cancelField_moves h2
  · cases hc
    exact cancelField_moves h3

/-- A cancelled parked send replies once. -/
theorem cancelParkedSendAt_moves {target : MsgId} {w' : World}
    (hc : cancelParkedSendAt w i target = some w') : Moves P (desk h w) (desk h w') := by
  unfold cancelParkedSendAt at hc
  split at hc
  · cases hc
    exact tnSlotReplySend_moves i _ _
  · cases hc

/-- A cancelled lookup replies once. -/
theorem cancelDns_moves {target : MsgId} {w' : World} (hc : cancelDns w target = some w') :
    Moves P (desk h w) (desk h w') := by
  unfold cancelDns at hc
  obtain ⟨k, hk, rfl⟩ := Option.map_eq_some_iff.mp hc
  have hk := List.find?_some hk
  simp only [Bool.and_eq_true, beq_iff_eq] at hk
  obtain ⟨hu, hm⟩ := hk
  unfold replyTarget
  split
  · rename_i hz
    rw [targetMsg, if_pos hz] at hm
    exact .one (.forget (desk h w) k hu (.inl hm)) (desk_emit _ rfl)
  · rename_i hne
    rw [targetMsg, if_neg hne] at hm
    exact .one (.found (desk h w) k target hu hm) rfl

/-- `CANCEL` takes its target from one place. -/
theorem cancelTarget_moves (target : MsgId) :
    Moves P (desk h w) (desk h (cancelTarget w target)) := by
  unfold cancelTarget
  split
  · rename_i hf
    obtain ⟨i, -, hi⟩ := List.exists_of_findSome?_eq_some hf
    exact cancelAt_moves hi
  · split
    · rename_i hf
      obtain ⟨i, -, hi⟩ := List.exists_of_findSome?_eq_some hf
      exact cancelParkedSendAt_moves hi
    · cases hd : cancelDns w target with
      | none => exact .refl
      | some w' => exact cancelDns_moves hd

/-! ## Dispatch -/

/-- What the policy must allow for the handler of a message. -/
structure Allows (P : Mark → Prop) (w : World) (m : MsgId) : Prop where
  release : (w.msgs m).cmd = .releasesocket → P .release
  lookup : (w.msgs m).cmd = .gethostbyname → P .lookup
  stray : (w.msgs m).cmd = .setsockopt → ∀ i,
    tnSlotLookup w (w.msgs m).socketBase ((w.msgs m).args 0) = some i → Strays w m i → P .stray
  reap : (∃ t, w.taskAlive t = false) → P .reap

/-- A handler that is called without a slot. -/
theorem handler_none_handled (ha : Allows P w m) (hn : needsFd (w.msgs m).cmd = false) :
    Handled P m w (handler w m none) := by
  unfold handler
  cases hc : (w.msgs m).cmd <;> rw [hc] at hn <;> cases hn
  · exact tnIpcCmdOpen_handled ha.reap
  · exact tnIpcCmdClose_handled
  · exact tnIpcCmdSocket_handled
  · exact tnIpcCmdGethostbyname_handled (ha.lookup hc)
  · exact .fail .refl _
  · exact tnIpcCmdWaitselect_plain.handled
  · exact replyByAnswer_plain.handled
  · exact tnIpcCmdReconfig_plain.handled
  · exact tnIpcCmdEnumsockets_plain.handled
  · exact tnIpcCmdObtainsocket_handled
  · exact tnIpcCmdSelectArm_plain.handled
  · exact tnIpcCmdSelectDisarm_plain.handled
  · exact replyByAnswer_plain.handled
  · exact replyByAnswer_plain.handled
  · exact tnIpcCmdIfctl_handled
  · exact tnIpcCmdStop_handled ha.reap
  · exact .done (cancelTarget_moves _) _ _
  · exact tnIpcCmdSyslog_plain.handled
  · exact .fail .refl _

/-- A handler that is called with the slot of a descriptor. -/
theorem handler_some_handled (ha : Allows P w m)
    (hl : tnSlotLookup w (w.msgs m).socketBase ((w.msgs m).args 0) = some i)
    (hm : (w.sockets i).pending .recv ≠ some m) (hn : needsFd (w.msgs m).cmd = true) :
    Handled P m w (handler w m (some i)) := by
  have hu := tnSlotLookup_inUse hl
  unfold handler
  cases hc : (w.msgs m).cmd <;> rw [hc] at hn <;> cases hn
  · exact (tnIpcCmdBind_plain _).handled
  · exact (tnIpcCmdListen_plain _).handled
  · exact tnIpcCmdAccept_handled _
  · exact tnIpcCmdConnect_handled hu
  · exact tnIpcCmdSendto_handled _
  · exact tnIpcCmdSend_handled _
  · exact Recvd.tnIpcCmdRecvfrom.handled hm
  · exact Recvd.tnIpcCmdRecv.handled hm
  · exact tnIpcCmdShutdown_handled _
  · exact tnIpcCmdSetsockopt_handled (ha.stray hc i hl)
  · exact (tnIpcCmdGetsockopt_plain _).handled
  · exact (tnIpcCmdGetsockname_plain _).handled
  · exact (tnIpcCmdGetpeername_plain _).handled
  · exact (tnIpcCmdIoctl_plain _).handled
  · exact tnIpcCmdClosesocket_handled _
  · exact tnIpcCmdDup2_handled _
  · exact tnIpcCmdSendmsg_handled _
  · exact Recvd.tnIpcCmdRecvmsg.handled hm
  · exact tnIpcCmdReleasesocket_handled hu (ha.release hc)

/-- The preset of the reply changes nothing a handler asks for. -/
theorem Allows.setReply (ha : Allows P w m) : Allows P (w.setReply m 0 .ok) m := by
  have same : ((w.setReply m 0 .ok).msgs m) = { w.msgs m with result := 0, errNo := .ok } := by
    simp [World.setReply, modMsg]
  refine ⟨?_, ?_, ?_, ha.reap⟩
  · rw [same]
    exact ha.release
  · rw [same]
    exact ha.lookup
  · unfold Strays
    rw [same]
    exact ha.stray

/-- A dispatched message is answered or held, whatever its command. -/
theorem tnHandleIpc_handled (ha : Allows P w m) (hm : ∀ i, (w.sockets i).pending .recv ≠ some m) :
    Handled P m w (tnHandleIpc w m) := by
  unfold tnHandleIpc
  have preset : Moves P (desk [m] w) (desk [m] (w.setReply m 0 .ok)) := .none rfl
  refine Handled.trans preset ?_
  have ha := ha.setReply
  have hm : ∀ i, ((w.setReply m 0 .ok).sockets i).pending .recv ≠ some m := hm
  generalize w.setReply m 0 .ok = w at ha hm
  dsimp only
  split
  · exact .fail .refl _
  · split
    · exact .fail .refl _
    · split
      · rename_i hn
        split
        · exact .fail .refl _
        · rename_i i hl
          exact handler_some_handled ha hl (hm i) hn
      · rename_i hn
        exact handler_none_handled ha (by simpa using hn)

/-- A message out of the hand is answered or held. -/
theorem handleMsg_moves (ha : Allows P w m) (hm : ∀ i, (w.sockets i).pending .recv ≠ some m) :
    Moves P (desk [m] w) (desk [] (handleMsg w m)) := by
  have handled := tnHandleIpc_handled ha hm
  unfold handleMsg
  split
  · rename_i w' heq
    rw [heq] at handled
    refine Relation.ReflTransGen.trans handled (Moves.one (.reply _ m (List.mem_cons_self ..)) ?_)
    simp [desk, Desk.say, Desk.setHand, replyMsg, emit, answered, Event.replied]
  · rename_i w' heq
    rw [heq] at handled
    exact handled

/-! ## Steps -/

/-- The marked moves a step can make. -/
def Allowed (w : World) (inp : Input) : Mark → Prop
  | .release => ∃ m x env, inp = .ipc m x env ∧ x.cmd = .releasesocket
  | .lookup => ∃ m x env, inp = .ipc m x env ∧ x.cmd = .gethostbyname
  | .stray => ∃ m x env i, inp = .ipc m x env ∧ x.cmd = .setsockopt ∧
      tnSlotLookup w x.socketBase (x.args 0) = some i ∧
      Strays { receive w m x with env := env } m i
  | .reap => ∃ t, w.taskAlive t = false

/-- The accounts when a step begins: a message has come in hand, or a task has ended. -/
def entered (w : World) : Input → Desk
  | .ipc m x _ => desk [m] (receive w m x)
  | .client c => { desk [] w with alive := (clientStep w c).taskAlive }
  | _ => desk [] w

/-- A shutdown reaps. -/
theorem shutdownAttempt_moves (hr : (∃ t, w.taskAlive t = false) → P .reap) :
    Moves P (desk [] w) (desk [] (shutdownAttempt w)) := by
  have reaped : Moves P (desk [] w) (desk [] (tnReapDeadClients { w with stopping := true })) :=
    (Moves.none rfl).trans (tnReapDeadClients_moves (w := { w with stopping := true }) hr)
  unfold shutdownAttempt
  dsimp only
  generalize tnReapDeadClients { w with stopping := true } = w1 at reaped
  split
  · split
    · rename_i m hm
      exact reaped.trans (Moves.one (.sayStop (desk [] w1) m hm) rfl)
    · exact reaped.congr rfl
  · exact reaped

/-- Ctrl-C is a shutdown attempt. -/
theorem ctrlC_moves (hr : (∃ t, w.taskAlive t = false) → P .reap) :
    Moves P (desk [] w) (desk [] (ctrlC w)) := by
  have reaped := tnReapDeadClients_moves (P := P) (h := []) hr
  unfold ctrlC
  dsimp only
  split
  · split
    · exact reaped.congr rfl
    · exact reaped
  · exact .refl

/-- Every step is a chain of moves that its input allows. -/
theorem step_moves {inp : Input} (ha : Admissible w inp) :
    Moves (Allowed w inp) (entered w inp) (desk [] (step w inp)) := by
  cases inp with
  | ipc m x env =>
    obtain ⟨-, hheld, -⟩ := ha
    have same : ((receive w m x).msgs m) = x := by simp [receive]
    refine (Moves.none rfl).trans
      (handleMsg_moves (w := { receive w m x with env := env }) ?_ fun i => hheld (.slot i .recv))
    have cmd : (({ receive w m x with env := env } : World).msgs m) = x := same
    refine ⟨?_, ?_, ?_, id⟩
    · rw [cmd]
      exact fun hc => ⟨m, x, env, rfl, hc⟩
    · rw [cmd]
      exact fun hc => ⟨m, x, env, rfl, hc⟩
    · rw [cmd]
      exact fun hc i hl hs => ⟨m, x, env, i, rfl, hc, hl, hs⟩
  | lwip evs env => exact (Moves.none rfl).trans (desk_wide.runEvs (w := { w with env := env }) evs)
  | tick evs env =>
    refine (Moves.none rfl).trans ((desk_wide.runEvs (w := { w with
      env := env, mainloopTicks := (w.mainloopTicks + 1) % 2 ^ 32 }) evs).trans
      desk_replies.tnSlotCheckRecvTimeouts)
  | ctrlC env => exact (Moves.none rfl).trans (ctrlC_moves (w := { w with env := env }) id)
  | shutdown env => exact (Moves.none rfl).trans (shutdownAttempt_moves (w := { w with env := env }) id)
  | client c => cases c <;> exact .refl

/-! ## Answered messages -/

section Answered

variable {x : TnIpcMsg} {env : List Answer}

/-- The daemon when the handler of a message is called: the reply is preset to success. -/
def presented (w : World) (m : MsgId) (x : TnIpcMsg) (env : List Answer) : World :=
  World.setReply { receive w m x with env := env } m 0 .ok

/-- The message as it comes in. -/
theorem presented_msg : (presented w m x env).msgs m = { x with result := 0, errNo := .ok } := by
  simp [presented, setReply, modMsg, receive]

/-- The dispatcher, for a message that has just arrived. -/
theorem tnHandleIpc_presented (w : World) (m : MsgId) (x : TnIpcMsg) (env : List Answer) :
    tnHandleIpc { receive w m x with env := env } m =
      if x.cmd = .unknown ∨ x.cmd = .gethostbyaddr then fail (presented w m x env) m .enosys
      else if needsBase x.cmd ∧ x.socketBase = none then fail (presented w m x env) m .einval
      else if needsFd x.cmd then
        match tnSlotLookup w x.socketBase (x.args 0) with
        | none => fail (presented w m x env) m .ebadf
        | some i => handler (presented w m x env) m (some i)
      else handler (presented w m x env) m none := by
  have preset : World.setReply { receive w m x with env := env } m 0 .ok = presented w m x env :=
    rfl
  unfold tnHandleIpc
  rw [preset]
  dsimp only
  rw [presented_msg]
  rfl

/-- A message that is answered at once. -/
theorem step_ipc_done {w' : World} {r : Int} {e : Errno}
    (hd : tnHandleIpc { receive w m x with env := env } m = done w' m r e) :
    step w (.ipc m x env) = w'.answerMsg m r e := by
  show handleMsg _ m = _
  unfold handleMsg
  rw [hd]
  rfl

/-- What the client reads in the answered message. -/
theorem answerMsg_reply {r : Int} {e : Errno} :
    ((w.answerMsg m r e).msgs m).result = r ∧ ((w.answerMsg m r e).msgs m).errNo = e := by
  simp [answerMsg, replyMsg, emit, setReply, modMsg]

/-- A refused request changes neither a slot nor a base. -/
structure Refused (w w' : World) (m : MsgId) : Prop where
  sockets : w'.sockets = w.sockets
  bases : w'.bases = w.bases
  result : (w'.msgs m).result = -1
  errNo : (w'.msgs m).errNo ≠ .ok

/-- A handler that refuses without a trace. -/
theorem Refused.of_fail {w' : World} {e : Errno}
    (hd : tnHandleIpc { receive w m x with env := env } m = fail w' m e)
    (hs : w'.sockets = w.sockets) (hb : w'.bases = w.bases) (he : e ≠ .ok) :
    Refused w (step w (.ipc m x env)) m := by
  rw [step_ipc_done hd]
  exact ⟨hs, hb, answerMsg_reply.1, by rw [answerMsg_reply.2]; exact he⟩

end Answered

end Tolunnet
