import Tolunnet.Abstract.Selectors
import Tolunnet.Refine.Deferred

/-!
# `Tolunnet.Refine.Selectors`: who is woken

What always holds of the selector table of the daemon, and what that means for a client that waits.
`tn_signal_socket` looks at `selector_count` before it scans the table. `tn_ipc_cmd_select_arm` adds
one to the counter and then recounts the table before it marks the new entry, so the addition is
lost: as long as nothing recounts the table, the counter is too low by the entry that was armed
last. With one client in `WaitSelect` it is zero, and the scan that should wake the client does not
take place.
-/

set_option autoImplicit false

namespace Tolunnet

open World

variable {w v : World} {i : SlotIdx} {k : Nat} {sel : TnSelector} {b : BaseId} {t : TaskId}

/-- What holds of the selector table in every state: it has at most 128 entries, those in use belong
to different bases, and the counter is their number, less one after a fresh entry has been armed. -/
structure SelectorsRight (w : World) : Prop where
  size : w.selectors.length ≤ 128
  based : ∀ s ∈ w.selectors, s.inUse = true → s.base ≠ none
  apart : ∀ (k k' : Nat) (s s' : TnSelector), w.selectors[k]? = some s →
    w.selectors[k']? = some s' → s.inUse = true → s'.inUse = true → s.base = s'.base → k = k'
  count : w.selectorCount + w.armedSinceResync.toNat = selectorsInUse w.selectors ∨
    (w.selectorCount = 0 ∧ selectorsInUse w.selectors = 0)

/-- The table of the abstract daemon is right along every run. -/
theorem Reach.right {ok : World → Input → Prop} (hr : Reach ok w) :
    (abs (restTok Set.univ) w).tab.Right := by
  refine (hr.invariant (fun a => a.tab.Right) ?_
    (fun w inp _ _ _ _ => ⟨fun _ => True, ?_, ?_⟩) ?_).2
  · refine ⟨by decide, fun s hs hu => ?_, fun k k' s s' hk hk' hu => ?_, Or.inl rfl⟩
    · obtain rfl := (List.mem_replicate.mp hs).2
      cases hu
    · obtain rfl := (List.mem_replicate.mp (List.mem_of_getElem? hk)).2
      cases hu
  · exact grants_all fun _ _ _ _ _ _ _ => Set.mem_univ _
  · exact fun _ _ hs hi ha => Abs.right_act hi hs ha
  · intro w c _ _ hi
    obtain ⟨fd, dtab, he⟩ := abs_clientStep (restTok Set.univ) w c
    rw [he]
    exact hi

/-- In every state that the daemon reaches the selector table is as it should be, but for the
counter. -/
theorem reached_selectors (hr : Reachable w) : SelectorsRight w :=
  have right := hr.right
  ⟨right.size, right.based, right.apart, right.count⟩

/-! ## The scan -/

/-- A base waits for slot `i` with entry `sel`: the entry is in use, the base is open and a
descriptor of the set names the slot, which is ready. -/
structure WaitsFor (w : World) (i : SlotIdx) (sel : TnSelector) (b : BaseId) (t : TaskId) :
    Prop where
  inUse : sel.inUse = true
  base : sel.base = some b
  task : sel.task = some t
  sig : sel.sigSelect ≠ 0
  isOpen : tnSlotOwnerAlive w b = true
  ready : selectorMatch w sel b i = true

/-- What entry `k` sees stays as it was, and nothing that has been sent is taken back. -/
structure Seeing (k : Nat) (w v : World) : Prop where
  ready : ∀ sel b i, selectorMatch v sel b i = selectorMatch w sel b i
  openBases : v.openBases = w.openBases
  entry : v.selectors[k]? = w.selectors[k]?
  output : w.output <:+ v.output

namespace Seeing

theorem refl (w : World) : Seeing k w w := ⟨fun _ _ _ => rfl, rfl, rfl, List.suffix_rfl⟩

theorem trans {u : World} (h : Seeing k w v) (h' : Seeing k v u) : Seeing k w u :=
  ⟨fun sel b i => (h'.ready sel b i).trans (h.ready sel b i), h'.openBases.trans h.openBases,
    h'.entry.trans h.entry, h.output.trans h'.output⟩

/-- The turn of another entry. -/
theorem turn {k' : Nat} (hk : k' ≠ k) (w : World) : Seeing k w (signalSelector i w k') := by
  unfold signalSelector
  split
  · exact refl w
  · split
    · split
      · exact refl w
      · split
        · split
          · exact ⟨fun _ _ _ => rfl, rfl, rfl, List.suffix_cons ..⟩
          · exact refl w
        · exact ⟨fun _ _ _ => rfl, rfl, List.getElem?_set_ne hk, List.suffix_rfl⟩
    · exact refl w

/-- SIGIO and the owner of the slot do not matter to the sets. -/
theorem owner (w : World) (e : Event) :
    Seeing k w (signalOwner (dropStaleOwner (w.emit e) i) i) := by
  have dropped : Seeing k w (dropStaleOwner (w.emit e) i) := by
    unfold dropStaleOwner
    split
    · split
      · exact ⟨fun _ _ _ => rfl, rfl, rfl, List.suffix_rfl⟩
      · refine ⟨fun sel b j => ?_, rfl, rfl, List.suffix_rfl⟩
        have slot : ∀ v : World, selectorMatch (v.modSlot i fun s =>
            { s with ownerBase := none, ownerTask := none }) sel b j = selectorMatch v sel b j := by
          intro v
          unfold selectorMatch
          by_cases hj : j = i
          · subst hj
            simp only [World.modSlot, Function.update_self]
            rfl
          · simp only [World.modSlot, Function.update_of_ne hj]
            rfl
        exact slot (w.emit e)
    · exact ⟨fun _ _ _ => rfl, rfl, rfl, List.suffix_rfl⟩
  refine dropped.trans ?_
  unfold signalOwner
  split
  · split
    · exact ⟨fun _ _ _ => rfl, rfl, rfl, List.suffix_cons ..⟩
    · exact refl _
  · exact refl _

theorem waits (h : Seeing k w v) (hw : WaitsFor w i sel b t) : WaitsFor v i sel b t where
  inUse := hw.inUse
  base := hw.base
  task := hw.task
  sig := hw.sig
  isOpen := by
    unfold tnSlotOwnerAlive
    rw [h.openBases]
    exact hw.isOpen
  ready := (h.ready sel b i).trans hw.ready

end Seeing

/-- The turn of an entry that waits for the slot wakes its task. -/
theorem signalSelector_wakes (hk : w.selectors[k]? = some sel) (hw : WaitsFor w i sel b t) :
    signalSelector i w k = w.signal t sel.sigSelect := by
  unfold signalSelector
  rw [hk]
  dsimp only
  rw [hw.inUse, hw.base, hw.task]
  dsimp only
  rw [if_neg hw.sig, if_pos hw.isOpen, if_pos hw.ready]

/-- A signal is never taken back. -/
theorem signalSelector_output (w : World) (k : Nat) :
    w.output <:+ (signalSelector i w k).output := by
  unfold signalSelector
  split
  · exact List.suffix_rfl
  · split
    · split
      · exact List.suffix_rfl
      · split
        · split
          · exact List.suffix_cons ..
          · exact List.suffix_rfl
        · exact List.suffix_rfl
    · exact List.suffix_rfl

/-- The scan of the table wakes the task of every entry that waits for the slot. -/
theorem scan_wakes (l : List Nat) (hl : k ∈ l) (hk : w.selectors[k]? = some sel)
    (hw : WaitsFor w i sel b t) :
    ∃ o, w.output <:+ o ∧
      (.signal t sel.sigSelect :: o) <:+ (l.foldl (signalSelector i) w).output := by
  induction l generalizing w with
  | nil => cases hl
  | cons k' l ih =>
    rw [List.foldl_cons]
    by_cases he : k' = k
    · -- the turn of the entry itself; what follows only adds
      subst he
      rw [signalSelector_wakes hk hw]
      refine ⟨w.output, List.suffix_rfl, ?_⟩
      show (w.signal t sel.sigSelect).output <:+ _
      generalize w.signal t sel.sigSelect = v
      clear ih hl hk hw
      induction l generalizing v with
      | nil => exact List.suffix_rfl
      | cons k' l ih => exact (signalSelector_output v k').trans (ih _)
    · have turn : Seeing k w (signalSelector i w k') := .turn he w
      obtain ⟨o, ho, hs⟩ := ih ((List.mem_cons.mp hl).resolve_left (Ne.symm he))
        (turn.entry.trans hk) (turn.waits hw)
      exact ⟨o, turn.output.trans ho, hs⟩

theorem dropStaleOwner_count (w : World) (i : SlotIdx) :
    (dropStaleOwner w i).selectorCount = w.selectorCount := by
  unfold dropStaleOwner
  split
  · split <;> rfl
  · rfl

theorem signalOwner_count (w : World) (i : SlotIdx) :
    (signalOwner w i).selectorCount = w.selectorCount := by
  unfold signalOwner
  split
  · split <;> rfl
  · rfl

/-- `tn_signal_socket` wakes every client that waits for the slot, unless the counter is zero. Then
nobody is looked for; and it is zero exactly when the entry is the only one in use and has been
armed since the table was last recounted. -/
theorem tnSignalSocket_wakes (hr : Reachable w) (hu : (w.sockets i).inUse = true)
    (hk : w.selectors[k]? = some sel) (hw : WaitsFor w i sel b t) :
    (w.selectorCount ≠ 0 → ∃ o, w.output <:+ o ∧
      (.signal t sel.sigSelect :: o) <:+ (tnSignalSocket w i).output) ∧
    (w.selectorCount = 0 → tnSignalSocket w i = signalOwner (dropStaleOwner
      (w.emit (.signalSocket i (tnSelectCanRead (w.sockets i)) (tnSelectCanWrite w (w.sockets i))
        (tnSelectHasExcept (w.sockets i)))) i) i) ∧
    (w.selectorCount = 0 ↔ selectorsInUse w.selectors = 1 ∧ w.armedSinceResync = true) := by
  have right := hr.right
  have some : 0 < selectorsInUse w.selectors :=
    List.countP_pos_iff.mpr ⟨sel, List.mem_of_getElem? hk, hw.inUse⟩
  generalize he : Event.signalSocket i (tnSelectCanRead (w.sockets i))
    (tnSelectCanWrite w (w.sockets i)) (tnSelectHasExcept (w.sockets i)) = e
  have seen : Seeing k w (signalOwner (dropStaleOwner (w.emit e) i) i) := .owner w e
  have same : (signalOwner (dropStaleOwner (w.emit e) i) i).selectorCount = w.selectorCount := by
    rw [signalOwner_count, dropStaleOwner_count]
    rfl
  have signal : tnSignalSocket w i =
      if w.selectorCount = 0 then signalOwner (dropStaleOwner (w.emit e) i) i
      else (List.range (signalOwner (dropStaleOwner (w.emit e) i) i).selectors.length).foldl
        (signalSelector i) (signalOwner (dropStaleOwner (w.emit e) i) i) := by
    unfold tnSignalSocket
    rw [if_pos hu]
    dsimp only
    rw [he, same]
  generalize signalOwner (dropStaleOwner (w.emit e) i) i = v at seen same signal
  -- the scan reaches the selector unless it is skipped for a count of 0
  refine ⟨fun hc => ?_, fun hc => by rw [signal, if_pos hc], ?_⟩
  · have hkv : v.selectors[k]? = Option.some sel := seen.entry.trans hk
    have hlt : k < v.selectors.length := (List.getElem?_eq_some_iff.mp hkv).1
    obtain ⟨o, ho, hs⟩ := scan_wakes (i := i) (List.range v.selectors.length)
      (List.mem_range.mpr hlt) hkv (seen.waits hw)
    rw [signal, if_neg hc]
    exact ⟨o, seen.output.trans ho, hs⟩
  -- the count is one short after the first arm, until the next resync
  · have count : w.selectorCount + w.armedSinceResync.toNat = selectorsInUse w.selectors := by
      rcases right.count with he | ⟨-, none⟩
      · exact he
      · exact absurd none (Nat.ne_of_gt some)
    cases ha : w.armedSinceResync <;> rw [ha] at count <;>
      simp only [Bool.toNat_true, Bool.toNat_false] at count
    · constructor
      · intro hc
        omega
      · rintro ⟨-, h⟩
        cases h
    · constructor
      · intro hc
        exact ⟨by omega, rfl⟩
      · rintro ⟨h, -⟩
        omega

/-- A client waits with `WaitSelect` for a datagram, which arrives. -/
def selectArmMsg : TnIpcMsg :=
  { cmd := .selectArm, socketBase := some 1, clientTask := 7,
    args := fun n => if n < 2 then 1 else 0 }

def waitingClient : World :=
  [.client (.setMasks 1 (fun _ => 0) (fun _ => 0) 0 0 16), .ipc 1 dgramMsg [{ id := 1 }],
    .ipc 1 selectArmMsg [], .lwip [.udpRecv 1 [65] 0 0] []].foldl step oneClient

/-- The entry the client has armed. -/
def waitingSelector : TnSelector :=
  { inUse := true, base := some 1, task := some 7, sigSelect := 16, nfds := 1, readMask := 1 }

theorem waitingClient_reach : Reachable waitingClient := by
  have opened : Reachable oneClient :=
    oneClient_reach (fun _ _ => trivial) fun _ _ _ _ _ => trivial
  have masks :
      Reachable (step oneClient (.client (.setMasks 1 (fun _ => 0) (fun _ => 0) 0 0 16))) :=
    .step opened trivial trivial
  have socket : Reachable _ := masks.request 1 dgramMsg [{ id := 1 }] 1 (by decide) (by decide) rfl
    ⟨0, by decide⟩ trivial
  have armed : Reachable _ := socket.request 1 selectArmMsg [] 1 (by decide) (by decide) rfl
    ⟨0, by decide⟩ trivial
  have fed : Reachable (step _ (.lwip [.udpRecv 1 [65] 0 0] [])) := .step armed trivial trivial
  exact fed

/-- One entry is in use, and the counter is behind by it. -/
theorem reached_selectors_waiting : selectorsInUse waitingClient.selectors = 1 ∧
    SelectorsRight waitingClient :=
  ⟨by decide +kernel, reached_selectors waitingClient_reach⟩

theorem waitingClient_waits : WaitsFor waitingClient firstSlot waitingSelector 1 7 :=
  ⟨by decide, rfl, rfl, by decide, by decide +kernel, by decide +kernel⟩

/-- The datagram is there, the set asks for it, and the client has not been woken: its entry is the
only one, and the counter is zero. -/
theorem waitingClient_unwoken :
    .signal 7 16 ∉ waitingClient.output ∧ waitingClient.selectorCount = 0 ∧
    selectorsInUse waitingClient.selectors = 1 ∧ waitingClient.armedSinceResync = true :=
  have entry : waitingClient.selectors[0]? = some waitingSelector := by decide +kernel
  have zero : waitingClient.selectorCount = 0 := by decide +kernel
  have wakes := tnSignalSocket_wakes waitingClient_reach (by decide +kernel) entry waitingClient_waits
  ⟨by decide +kernel, zero, wakes.2.2.mp zero⟩

end Tolunnet
