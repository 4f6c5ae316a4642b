import Mathlib.Data.Fintype.Pigeonhole
import Tolunnet.Desk.Sound

/-!
# `Tolunnet.Desk.HandOver`: the parking lot

`RELEASESOCKET` parks a slot under an id and `OBTAINSOCKET` takes it out again. A run of the daemon
carries a directory beside it that no handler reads: it remembers under each id the slot of the
last successful release, until an obtain of that id succeeds. Whatever happens in between, a parked
slot is the one the directory names, and with it every promise of the hand-over follows.

The loop that looks for an unused id has no bound in the source. It ends within 65 turns, because
the counter runs through 65 different ids before it repeats one and at most 64 of them are taken.
-/

set_option autoImplicit false

namespace Tolunnet

open World

variable {w : World} {m : MsgId} {x : TnIpcMsg} {env : List Answer} {i j : SlotIdx}

/-! ## Unused ids -/

/-- The counter after one turn. -/
def nextId (n : Int) : Int := if n + 1 < 2 ^ 31 then n + 1 else 1

/-- The counter moves to the next id. -/
theorem bumpParkId_next (hn : 0 < w.nextParkId ∧ w.nextParkId < 2 ^ 31) :
    (bumpParkId w).nextParkId = nextId w.nextParkId := by
  show (if (w.nextParkId + 1).bmod (2 ^ 32) ≤ 0 then 1 else (w.nextParkId + 1).bmod (2 ^ 32)) = _
  unfold nextId Int.bmod
  dsimp only
  split_ifs <;> omega

/-- The counter after `k` turns, for fewer turns than there are ids. -/
theorem nextId_iterate {n : Int} (hn : 0 < n ∧ n < 2 ^ 31) {k : Nat} (hk : k < 2 ^ 30) :
    nextId^[k] n = if n + k < 2 ^ 31 then n + k else n + k - (2 ^ 31 - 1) := by
  induction k with
  | zero =>
    rw [Function.iterate_zero_apply, if_pos (by simpa using hn.2)]
    simp
  | succ k ih =>
    rw [Function.iterate_succ_apply', ih (by omega)]
    unfold nextId
    push_cast
    split_ifs <;> omega

/-- A loop that gives up has seen only taken ids. -/
theorem uniqueParkId_none {fuel : Nat} (hn : 0 < w.nextParkId ∧ w.nextParkId < 2 ^ 31)
    (hu : (uniqueParkId fuel w).2 = none) {k : Nat} (hk : k < fuel) :
    parkIdTaken w (nextId^[k] w.nextParkId) = true := by
  induction fuel generalizing w k with
  | zero => omega
  | succ fuel ih =>
    unfold uniqueParkId at hu
    split at hu
    · rename_i ht
      cases k with
      | zero => exact ht
      | succ k =>
        have hb : parkIdTaken (bumpParkId w) (nextId^[k] (bumpParkId w).nextParkId) = true :=
          ih bumpParkId_pos hu (by omega)
        rw [bumpParkId_next hn] at hb
        exact hb
    · cases hu

/-- A taken id is the id of a slot. -/
theorem parkIdTaken_slot {id : Int} (ht : parkIdTaken w id = true) :
    ∃ i, (w.sockets i).parkId = id := by
  obtain ⟨i, -, hi⟩ := List.any_eq_true.mp ht
  simp only [Bool.and_eq_true, beq_iff_eq] at hi
  exact ⟨i, hi.2⟩

/-- The loop finds an id: 65 different ones cannot all belong to 64 slots. -/
theorem uniqueParkId_some (hn : 0 < w.nextParkId ∧ w.nextParkId < 2 ^ 31) :
    ∃ id, (uniqueParkId 65 w).2 = some id := by
  by_contra hno
  have hnone : (uniqueParkId 65 w).2 = none := by
    cases hu : (uniqueParkId 65 w).2 with
    | none => rfl
    | some id => exact absurd ⟨id, hu⟩ hno
  choose slot hslot using fun k : Fin 65 =>
    parkIdTaken_slot (uniqueParkId_none hn hnone k.isLt)
  obtain ⟨a, b, hab, he⟩ := Fintype.exists_ne_map_eq_of_card_lt slot (by simp)
  have hid : nextId^[a.val] w.nextParkId = nextId^[b.val] w.nextParkId := by
    rw [← hslot a, ← hslot b, he]
  rw [nextId_iterate hn (by omega), nextId_iterate hn (by omega)] at hid
  have hne : a.val ≠ b.val := fun h => hab (Fin.ext h)
  split_ifs at hid <;> omega

/-- The id it finds is positive. -/
theorem uniqueParkId_pos {fuel : Nat} {w' : World} {id : Int}
    (hn : 0 < w.nextParkId ∧ w.nextParkId < 2 ^ 31) (hu : uniqueParkId fuel w = (w', some id)) :
    0 < id := by
  induction fuel generalizing w with
  | zero => cases hu
  | succ fuel ih =>
    unfold uniqueParkId at hu
    split at hu
    · exact ih bumpParkId_pos hu
    · obtain ⟨-, he⟩ := Prod.mk.inj hu
      cases he
      exact hn.1

/-! ## A release -/

/-- The slot is parked under `id`: it was not parked, the id was free, and no other slot moves. -/
structure Parked (w w' : World) (m : MsgId) (x : TnIpcMsg) (i : SlotIdx) (id : Int) : Prop where
  lookup : tnSlotLookup w x.socketBase (x.args 0) = some i
  free : ∀ j, (w.sockets j).parkedAs ≠ some id
  lot : ∀ j, (w'.sockets j).parkedAs = if j = i then some id else (w.sockets j).parkedAs
  given : x.args 1 ≠ -1 → id = x.args 1
  pos : x.args 1 = -1 → 0 < id
  result : (w'.msgs m).result = id
  errNo : (w'.msgs m).errNo = .ok

/-- What parking does to a slot and to the descriptor of the client. -/
def parkSlot (w : World) (i : SlotIdx) (b : BaseId) (x : TnIpcMsg) (id : Int) : World :=
  let w := w.modSlot i fun s => { s with isParked := true, parkId := id }
  if x.args 2 % 65536 ≠ 0 then tnSlotRef w i else w.setFd b (x.args 0).toNat none

/-- The parking lot after it. -/
theorem parkSlot_lot {b : BaseId} {id : Int} (hu : (w.sockets i).inUse = true) :
    ((parkSlot w i b x id).sockets j).parkedAs
      = if j = i then some id else (w.sockets j).parkedAs := by
  have parked : desk [] (parkSlot w i b x id) = (desk [] w).setLot i (some id) := by
    unfold parkSlot
    dsimp only
    rw [← desk_park id hu]
    split <;> simp
  have lot := congrFun (congrArg Desk.lot parked) j
  simp only [Desk.setLot, Function.update_apply] at lot
  exact lot

/-- An id that is asked for is the one that is given. -/
theorem chooseParkId_given {reqId id : Int} {w' : World} (hq : reqId ≠ -1)
    (hc : chooseParkId w reqId = (w', .ok id)) : id = reqId := by
  unfold chooseParkId at hc
  rw [if_neg hq] at hc
  split_ifs at hc
  · cases (Prod.mk.inj hc).2
  · cases (Prod.mk.inj hc).2
  · cases (Prod.mk.inj hc).2
    rfl

/-- `UNIQUE_ID` always gets a positive id. -/
theorem chooseParkId_unique (hn : 0 < w.nextParkId ∧ w.nextParkId < 2 ^ 31) :
    ∃ w' id, chooseParkId w (-1) = (w', .ok id) ∧ 0 < id := by
  obtain ⟨id, hid⟩ := uniqueParkId_some hn
  have found : uniqueParkId 65 w = ((uniqueParkId 65 w).1, some id) := Prod.ext rfl hid
  refine ⟨(uniqueParkId 65 w).1, id, ?_, uniqueParkId_pos hn found⟩
  unfold chooseParkId
  rw [if_pos rfl, found]

/-- The handler parks the slot under a free id or refuses. -/
theorem tnIpcCmdReleasesocket_cases {b : BaseId} (hb : (w.msgs m).socketBase = some b)
    (hn : 0 < w.nextParkId ∧ w.nextParkId < 2 ^ 31) :
    (∃ e n, e ≠ .ok ∧ ((w.msgs m).args 1 = -1 → (w.sockets i).isParked = true) ∧
      tnIpcCmdReleasesocket w m (some i) = fail { w with nextParkId := n } m e) ∨
    ∃ id n, parkIdTaken w id = false ∧ ((w.msgs m).args 1 ≠ -1 → id = (w.msgs m).args 1) ∧
      ((w.msgs m).args 1 = -1 → 0 < id) ∧
      tnIpcCmdReleasesocket w m (some i)
        = done (parkSlot { w with nextParkId := n } i b (w.msgs m) id) m id .ok := by
  unfold tnIpcCmdReleasesocket
  dsimp only
  rw [hb]
  dsimp only
  split
  · rename_i hp
    exact Or.inl ⟨.ebusy, w.nextParkId, by decide, fun _ => hp, rfl⟩
  · obtain ⟨n, he, -⟩ := chooseParkId_eq (w := w) ((w.msgs m).args 1)
    split
    · rename_i w1 e heq
      rw [heq] at he
      obtain rfl : w1 = _ := he
      refine Or.inl ⟨e, n, chooseParkId_error heq, fun hq => ?_, rfl⟩
      obtain ⟨w2, id, hu, -⟩ := chooseParkId_unique hn
      rw [hq, hu] at heq
      cases (Prod.mk.inj heq).2
    · rename_i w1 id heq
      have free := chooseParkId_free heq
      have given := fun hq => chooseParkId_given hq heq
      have pos : (w.msgs m).args 1 = -1 → 0 < id := by
        intro hq
        obtain ⟨w2, id', hu, hpos⟩ := chooseParkId_unique hn
        rw [hq, hu] at heq
        cases (Prod.mk.inj heq).2
        exact hpos
      rw [heq] at he
      obtain rfl : w1 = _ := he
      exact Or.inr ⟨id, n, free, given, pos, rfl⟩

/-- A release parks the slot of the descriptor under a free id, or changes nothing. Only a slot
that is parked already keeps `UNIQUE_ID` from an id. -/
theorem step_release (m : MsgId) (env : List Answer) (hn : 0 < w.nextParkId ∧ w.nextParkId < 2 ^ 31)
    (hc : x.cmd = .releasesocket) :
    (Refused w (step w (.ipc m x env)) m ∧
      (x.args 1 = -1 → ∀ i, tnSlotLookup w x.socketBase (x.args 0) = some i →
        (w.sockets i).isParked = true)) ∨
    ∃ i id, Parked w (step w (.ipc m x env)) m x i id := by
  have dispatch := tnHandleIpc_presented w m x env
  rw [if_neg (by rw [hc]; decide)] at dispatch
  cases hb : x.socketBase with
  | none =>
    rw [if_pos ⟨by rw [hc]; rfl, hb⟩] at dispatch
    refine Or.inl ⟨Refused.of_fail dispatch rfl rfl (by decide), fun _ i hi => ?_⟩
    cases hi
  | some b =>
    rw [if_neg (by simp [hb]), if_pos (by rw [hc]; rfl)] at dispatch
    rw [← hb]
    cases hl : tnSlotLookup w x.socketBase (x.args 0) with
    | none =>
      rw [hl] at dispatch
      exact Or.inl ⟨Refused.of_fail dispatch rfl rfl (by decide), fun _ i hi => by cases hi⟩
    | some i =>
      rw [hl] at dispatch
      have released : tnHandleIpc { receive w m x with env := env } m
          = tnIpcCmdReleasesocket (presented w m x env) m (some i) := by
        rw [dispatch]
        unfold handler
        rw [presented_msg, hc]
      have cases := tnIpcCmdReleasesocket_cases (w := presented w m x env) (m := m) (i := i)
        (b := b) (by rw [presented_msg]; exact hb) hn
      rw [presented_msg, ← released] at cases
      obtain ⟨e, n, he, hp, hd⟩ | ⟨id, n, hfree, hgiven, hpos, hd⟩ := cases
      · refine Or.inl ⟨Refused.of_fail hd rfl rfl he, fun hq j hj => ?_⟩
        cases hj
        exact hp hq
      · have free := parkIdTaken_eq_false (h := []).mp hfree
        refine Or.inr ⟨i, id, hl, free, fun j => ?_, hgiven, hpos, ?_, ?_⟩
        · rw [step_ipc_done hd]
          exact parkSlot_lot (tnSlotLookup_inUse hl)
        · rw [step_ipc_done hd]
          exact answerMsg_reply.1
        · rw [step_ipc_done hd]
          exact answerMsg_reply.2

/-! ## An obtain -/

/-- The slot parked under the id is taken out and given to a descriptor of the client. -/
structure Obtained (w w' : World) (m : MsgId) (x : TnIpcMsg) (i : SlotIdx) : Prop where
  was : (w.sockets i).parkedAs = some (x.args 0)
  lot : ∀ j, (w'.sockets j).parkedAs = if j = i then none else (w.sockets j).parkedAs
  fd : tnSlotLookup w' x.socketBase (w'.msgs m).result = some i
  errNo : (w'.msgs m).errNo = .ok

/-- What taking a slot out does to it and to the descriptor. -/
def unparkSlot (w : World) (i : SlotIdx) (b : BaseId) (t : TaskId) (fd : Nat) : World :=
  (w.setFd b fd (some i)).modSlot i fun s =>
    { s with isParked := false, parkId := 0, ownerBase := some b, ownerTask := some t }

/-- Only the slot that is obtained leaves the parking lot. -/
theorem unparkSlot_lot {b : BaseId} {t : TaskId} {fd : Nat} :
    ((unparkSlot w i b t fd).sockets j).parkedAs
      = if j = i then none else (w.sockets j).parkedAs := by
  by_cases hj : j = i
  · subst hj
    simp [unparkSlot, modSlot, TnSocketSlot.parkedAs]
  · simp [unparkSlot, modSlot, setFd, modBase, hj]

/-- A descriptor that is picked is inside the table. -/
theorem pickFd?_lt {base : TnSocketBase} {pref : Int} {fd : Nat} (hp : pickFd? base pref = some fd) :
    fd < base.dtablesize := by
  unfold pickFd? at hp
  split at hp
  · cases hp
    omega
  · exact List.mem_range.mp (List.mem_of_find?_eq_some hp)

/-- The descriptor leads to the slot afterwards. -/
theorem unparkSlot_lookup {b : BaseId} {t : TaskId} {fd : Nat} (hf : fd < (w.bases b).dtablesize)
    (hu : (w.sockets i).inUse = true) :
    tnSlotLookup (unparkSlot w i b t fd) (some b) fd = some i := by
  simp [tnSlotLookup, unparkSlot, modSlot, setFd, modBase, hu, hf]

/-- The search for a parked slot. -/
theorem parkedSlot?_some {id : Int} (hp : parkedSlot? w id = some i) :
    (w.sockets i).inUse = true ∧ (w.sockets i).parkedAs = some id := by
  have hp := List.find?_some hp
  simp only [Bool.and_eq_true, beq_iff_eq] at hp
  exact ⟨hp.1.1, by simp [TnSocketSlot.parkedAs, hp.1.1, hp.1.2, hp.2]⟩

/-- The handler takes a parked slot out or refuses. -/
theorem tnIpcCmdObtainsocket_cases {b : BaseId} (hb : (w.msgs m).socketBase = some b) :
    (∃ e, e ≠ .ok ∧ (e ≠ .enoent → ∃ i, (w.sockets i).parkedAs = some ((w.msgs m).args 0)) ∧
      tnIpcCmdObtainsocket w m = fail w m e) ∨
    ∃ i fd, (w.sockets i).inUse = true ∧ (w.sockets i).parkedAs = some ((w.msgs m).args 0) ∧
      fd < (w.bases b).dtablesize ∧
      tnIpcCmdObtainsocket w m
        = done (unparkSlot w i b (w.msgs m).clientTask fd) m fd .ok := by
  unfold tnIpcCmdObtainsocket
  dsimp only
  rw [hb]
  dsimp only
  split
  · exact Or.inl ⟨.enoent, by decide, fun h => absurd rfl h, rfl⟩
  · rename_i i hi
    obtain ⟨hu, hp⟩ := parkedSlot?_some hi
    split
    · rename_i he
      exact Or.inl ⟨_, he, fun _ => ⟨i, hp⟩, rfl⟩
    · split
      · exact Or.inl ⟨.emfile, by decide, fun _ => ⟨i, hp⟩, rfl⟩
      · rename_i fd hfd
        exact Or.inr ⟨i, fd, hu, hp, pickFd?_lt hfd, rfl⟩

/-- An obtain takes out the slot parked under the id, or changes nothing. An id that no slot has
is refused with `ENOENT`. -/
theorem step_obtain (w : World) (m : MsgId) (env : List Answer) (hc : x.cmd = .obtainsocket) :
    (Refused w (step w (.ipc m x env)) m ∧
      (x.socketBase ≠ none → (∀ i, (w.sockets i).parkedAs ≠ some (x.args 0)) →
        ((step w (.ipc m x env)).msgs m).errNo = .enoent)) ∨
    ∃ i, Obtained w (step w (.ipc m x env)) m x i := by
  have dispatch := tnHandleIpc_presented w m x env
  rw [if_neg (by rw [hc]; decide)] at dispatch
  cases hb : x.socketBase with
  | none =>
    rw [if_pos ⟨by rw [hc]; rfl, hb⟩] at dispatch
    exact Or.inl ⟨Refused.of_fail dispatch rfl rfl (by decide), fun h => absurd rfl h⟩
  | some b =>
    rw [if_neg (by simp [hb]), if_neg (by rw [hc]; decide)] at dispatch
    have obtained : tnHandleIpc { receive w m x with env := env } m
        = tnIpcCmdObtainsocket (presented w m x env) m := by
      rw [dispatch]
      unfold handler
      rw [presented_msg, hc]
    have cases := tnIpcCmdObtainsocket_cases (w := presented w m x env) (m := m) (b := b)
      (by rw [presented_msg]; exact hb)
    rw [presented_msg, ← obtained] at cases
    obtain ⟨e, he, hp, hd⟩ | ⟨i, fd, hu, hp, hfd, hd⟩ := cases
    · refine Or.inl ⟨Refused.of_fail hd rfl rfl he, fun _ hno => ?_⟩
      rw [step_ipc_done hd, answerMsg_reply.2]
      by_contra hne
      obtain ⟨i, hi⟩ := hp hne
      exact hno i hi
    · refine Or.inr ⟨i, hp, fun j => ?_, ?_, ?_⟩
      · rw [step_ipc_done hd]
        exact unparkSlot_lot
      · rw [step_ipc_done hd, answerMsg_reply.1, hb]
        exact unparkSlot_lookup hfd hu
      · rw [step_ipc_done hd]
        exact answerMsg_reply.2

/-! ## The directory -/

/-- A directory: the slot last released under an id and not obtained since. -/
abbrev Directory := Int → Option SlotIdx

/-- The directory after a step. It reads nothing but the request and its answer: a successful
release enters the slot of the descriptor under the id in the answer, a successful obtain strikes
out its id. -/
def Directory.after (lot : Directory) (w : World) : Input → Directory
  | .ipc m x env =>
    if ((step w (.ipc m x env)).msgs m).errNo ≠ .ok then lot
    else if x.cmd = .releasesocket then
      Function.update lot ((step w (.ipc m x env)).msgs m).result
        (tnSlotLookup w x.socketBase (x.args 0))
    else if x.cmd = .obtainsocket then Function.update lot (x.args 0) none
    else lot
  | _ => lot

/-- A run of the daemon with the directory beside it. -/
inductive HandRun : World → Directory → Prop where
  | init : HandRun tnSlotTableInit fun _ => none
  | step {w : World} {lot : Directory} {inp : Input} :
      HandRun w lot → Admissible w inp → HandRun (step w inp) (lot.after w inp)

/-- The states of a run with a directory are reachable. -/
theorem HandRun.reachable {lot : Directory} (hr : HandRun w lot) : Reachable w := by
  induction hr with
  | init => exact .init
  | step _ ha ih => exact .step ih ha trivial

/-- Without a release the parking lot only empties. -/
theorem Moves.lot_of_no_release {P : Mark → Prop} {d d' : Desk} (hm : Moves P d d')
    (hP : ¬ P .release) {id : Int} (hi : d'.lot i = some id) : d.lot i = some id := by
  induction hm with
  | refl => exact hi
  | tail _ hm ih =>
    refine ih ?_
    cases hm with
    | vacate k =>
      by_cases hk : i = k
      · subst hk
        simp [Desk.setLot] at hi
      · simpa [Desk.setLot, hk] using hi
    | release k id' hf hl => exact absurd hl hP
    | _ => exact hi

/-- A step that is not a release parks nothing. -/
theorem step_lot {inp : Input} (ha : Admissible w inp)
    (hc : ∀ m x env, inp = .ipc m x env → x.cmd ≠ .releasesocket) {id : Int}
    (hi : ((step w inp).sockets i).parkedAs = some id) : (w.sockets i).parkedAs = some id := by
  have quiet : ¬ Allowed w inp .release := by
    rintro ⟨m, x, env, rfl, hx⟩
    exact hc m x env rfl hx
  have before : (entered w inp).lot i = some id := (step_moves ha).lot_of_no_release quiet hi
  cases inp <;> exact before

/-- A parked slot is the one the directory names. -/
theorem HandRun.names {lot : Directory} (hr : HandRun w lot) :
    ∀ i id, (w.sockets i).parkedAs = some id → lot id = some i := by
  induction hr with
  | init =>
    intro i id hi
    simp [tnSlotTableInit, TnSocketSlot.parkedAs] at hi
  | @step w lot inp hr ha ih =>
    intro i id hi
    have sound := hr.reachable.sound
    -- Only a release and an obtain change the directory.
    by_cases hipc : ∃ m x env, inp = .ipc m x env ∧ (x.cmd = .releasesocket ∨ x.cmd = .obtainsocket)
    · obtain ⟨m, x, env, rfl, hc⟩ := hipc
      obtain hc | hc := hc
      · obtain ⟨refused, -⟩ | ⟨j, id', parked⟩ := step_release m env sound.next hc
        · rw [refused.sockets] at hi
          simpa [Directory.after, refused.errNo] using ih i id hi
        · have after : lot.after w (.ipc m x env) = Function.update lot id' (some j) := by
            simp [Directory.after, parked.errNo, parked.result, parked.lookup, hc]
          rw [after]
          rw [parked.lot i] at hi
          split at hi
          · rename_i hij
            cases hi
            rw [Function.update_self, hij]
          -- The new id was free, so the other parked slots have other ones.
          · have hne : id ≠ id' := fun h => parked.free i (h ▸ hi)
            rw [Function.update_of_ne hne]
            exact ih i id hi
      · obtain ⟨refused, -⟩ | ⟨j, obtained⟩ := step_obtain w m env hc
        · rw [refused.sockets] at hi
          simpa [Directory.after, refused.errNo] using ih i id hi
        · have after : lot.after w (.ipc m x env) = Function.update lot (x.args 0) none := by
            simp [Directory.after, obtained.errNo, hc]
          rw [after]
          rw [obtained.lot i] at hi
          split at hi
          · cases hi
          -- Only the slot obtained had the id.
          · rename_i hij
            have hne : id ≠ x.args 0 :=
              fun h => hij (sound.lot i j (x.args 0) (h ▸ hi) obtained.was)
            rw [Function.update_of_ne hne]
            exact ih i id hi
    -- No other step parks a slot.
    · have other : ∀ m x env, inp = .ipc m x env → x.cmd ≠ .releasesocket ∧ x.cmd ≠ .obtainsocket :=
        fun m x env he => ⟨fun hc => hipc ⟨m, x, env, he, Or.inl hc⟩,
          fun hc => hipc ⟨m, x, env, he, Or.inr hc⟩⟩
      have after : lot.after w inp = lot := by
        cases inp with
        | ipc m x env => simp [Directory.after, other m x env rfl]
        | _ => rfl
      rw [after]
      exact ih i id (step_lot ha (fun m x env he => (other m x env he).1) hi)

/-- Every run has its directory. -/
theorem Reach.exists_handRun (hr : Reachable w) : ∃ lot, HandRun w lot := by
  induction hr with
  | init => exact ⟨_, .init⟩
  | step _ ha _ ih =>
    obtain ⟨lot, hrun⟩ := ih
    exact ⟨_, .step hrun ha⟩

/-- More turns of the loop change nothing once it has found an id. -/
theorem uniqueParkId_more {fuel n : Nat} {id : Int} (hu : (uniqueParkId fuel w).2 = some id)
    (hle : fuel ≤ n) : uniqueParkId n w = uniqueParkId fuel w := by
  induction fuel generalizing w n with
  | zero => cases hu
  | succ fuel ih =>
    obtain ⟨n, rfl⟩ : ∃ k, n = k + 1 := ⟨n - 1, by omega⟩
    unfold uniqueParkId at hu ⊢
    split
    · rename_i ht
      rw [if_pos ht] at hu
      exact ih hu (by omega)
    · rfl

/-- Hand-over happens exactly once. In every state of every run no two slots are parked under one
id; the `UNIQUE_ID` loop ends, and a release that asks for it gets a positive id that no parked slot
has; a successful release, with an id of its own too, parks the slot of its descriptor under the id
that it answers, which no slot had; a successful obtain leads to the slot last released under its id;
an id that has not been released since it was last obtained is refused with `ENOENT`; and a release or
an obtain that fails leaves every slot and every base as it was. -/
theorem handOver_exactly_once {lot : Directory} (hr : HandRun w lot) :
    (∀ i j id, (w.sockets i).parkedAs = some id → (w.sockets j).parkedAs = some id → i = j) ∧
    (∃ id, 0 < id ∧ parkIdTaken w id = false ∧
      ∀ fuel, 65 ≤ fuel → (uniqueParkId fuel w).2 = some id) ∧
    (∀ m x env i, x.cmd = .releasesocket → x.args 1 = -1 →
      tnSlotLookup w x.socketBase (x.args 0) = some i → (w.sockets i).isParked = false →
      let w' := step w (.ipc m x env)
      (w'.msgs m).errNo = .ok ∧ 0 < (w'.msgs m).result ∧
        (∀ j, (w.sockets j).parkedAs ≠ some (w'.msgs m).result) ∧
        (w'.sockets i).parkedAs = some (w'.msgs m).result) ∧
    (∀ m x env, x.cmd = .releasesocket →
      let w' := step w (.ipc m x env)
      (w'.msgs m).errNo = .ok →
      ∃ i, tnSlotLookup w x.socketBase (x.args 0) = some i ∧
        (x.args 1 ≠ -1 → (w'.msgs m).result = x.args 1) ∧
        (∀ j, (w.sockets j).parkedAs ≠ some (w'.msgs m).result) ∧
        ∀ j, (w'.sockets j).parkedAs =
          if j = i then some (w'.msgs m).result else (w.sockets j).parkedAs) ∧
    (∀ m x env, x.cmd = .obtainsocket →
      let w' := step w (.ipc m x env)
      (w'.msgs m).errNo = .ok →
      ∃ i, lot (x.args 0) = some i ∧ tnSlotLookup w' x.socketBase (w'.msgs m).result = some i ∧
        (w'.sockets i).parkedAs = none) ∧
    (∀ m x env, x.cmd = .obtainsocket → x.socketBase ≠ none → lot (x.args 0) = none →
      let w' := step w (.ipc m x env)
      (w'.msgs m).result = -1 ∧ (w'.msgs m).errNo = .enoent) ∧
    ∀ m x env, x.cmd = .releasesocket ∨ x.cmd = .obtainsocket →
      let w' := step w (.ipc m x env)
      (w'.msgs m).errNo ≠ .ok → w'.sockets = w.sockets ∧ w'.bases = w.bases := by
  have sound := hr.reachable.sound
  refine ⟨sound.lot, ?_, ?_, ?_, ?_, ?_, ?_⟩
  -- the search for an unused id, which does not fail with 65 turns: a slot has one id at most
  · obtain ⟨id, hid⟩ := uniqueParkId_some sound.next
    have found : uniqueParkId 65 w = ((uniqueParkId 65 w).1, some id) := Prod.ext rfl hid
    refine ⟨id, uniqueParkId_pos sound.next found, uniqueParkId_free found, fun fuel hf => ?_⟩
    rw [uniqueParkId_more hid hf, hid]
  -- a release that is asked for a descriptor of the caller and a free id
  · intro m x env i hc hq hl hp
    obtain ⟨-, why⟩ | ⟨j, id, parked⟩ := step_release m env sound.next hc
    · rw [why hq i hl] at hp
      cases hp
    · have same : j = i := Option.some.inj (parked.lookup.symm.trans hl)
      refine ⟨parked.errNo, ?_, ?_, ?_⟩
      · rw [parked.result]
        exact parked.pos hq
      · rw [parked.result]
        exact parked.free
      · rw [parked.result, parked.lot i, if_pos same.symm]
  -- whatever a successful release does, it parks under the id it answers
  · intro m x env hc w' hok
    obtain ⟨refused, -⟩ | ⟨i, id, parked⟩ := step_release m env sound.next hc
    · exact absurd hok refused.errNo
    · have result : (w'.msgs m).result = id := parked.result
      refine ⟨i, parked.lookup, fun given => ?_, ?_, ?_⟩
      · rw [result]
        exact parked.given given
      · rw [result]
        exact parked.free
      · rw [result]
        exact parked.lot
  -- an obtain takes the slot that the directory names
  · intro m x env hc w' hok
    obtain ⟨refused, -⟩ | ⟨i, obtained⟩ := step_obtain w m env hc
    · exact absurd hok refused.errNo
    · exact ⟨i, hr.names i _ obtained.was, obtained.fd, by rw [obtained.lot i, if_pos rfl]⟩
  -- without an entry in the directory no slot is parked under the id
  · intro m x env hc hb hlot
    obtain ⟨refused, why⟩ | ⟨i, obtained⟩ := step_obtain w m env hc
    · refine ⟨refused.result, why hb fun i hi => ?_⟩
      cases hlot.symm.trans (hr.names i _ hi)
    · cases hlot.symm.trans (hr.names i _ obtained.was)
  -- a refusal touches neither slots nor bases
  · intro m x env hc w' hne
    obtain hc | hc := hc
    · obtain ⟨refused, -⟩ | ⟨i, id, parked⟩ := step_release m env sound.next hc
      · exact ⟨refused.sockets, refused.bases⟩
      · exact absurd parked.errNo hne
    · obtain ⟨refused, -⟩ | ⟨i, obtained⟩ := step_obtain w m env hc
      · exact ⟨refused.sockets, refused.bases⟩
      · exact absurd obtained.errNo hne

/-- The client releases descriptor 0 under an id of the daemon's choice. -/
def releaseMsg : TnIpcMsg :=
  { cmd := .releasesocket, socketBase := some 1, args := fun n => if n = 1 then -1 else 0 }

/-- It asks for the socket parked under 1. -/
def obtainMsg : TnIpcMsg :=
  { cmd := .obtainsocket, socketBase := some 1, args := fun n => if n = 0 then 1 else 0 }

/-- The client has opened a socket and released it. -/
def released : World := [.ipc 1 dgramMsg [{}], .ipc 1 releaseMsg []].foldl step oneClient

/-- The socket it gets back is the one it has released. -/
theorem handOver_exactly_once_released : ∃ lot, HandRun released lot ∧ lot 1 = some 0 ∧
    tnSlotLookup (step released (.ipc 1 obtainMsg [])) (some 1) 0 = lot 1 := by
  have opened : Reachable oneClient :=
    oneClient_reach (fun _ _ => trivial) fun _ _ _ _ _ => trivial
  have run : Reachable released :=
    (opened.request 1 dgramMsg [{}] 1 (by decide) (by decide) rfl ⟨0, rfl⟩ trivial).request
      1 releaseMsg [] 1 (by decide) (by decide) rfl ⟨0, by decide⟩ trivial
  obtain ⟨lot, hr⟩ := run.exists_handRun
  obtain ⟨-, -, -, -, obtained, -⟩ := handOver_exactly_once hr
  obtain ⟨i, hi, hl, -⟩ := obtained 1 obtainMsg [] rfl (by decide)
  exact ⟨lot, hr, hr.names 0 1 (by decide), hl.trans hi.symm⟩

end Tolunnet
