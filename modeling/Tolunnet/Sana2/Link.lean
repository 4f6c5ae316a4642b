import Tolunnet.Sana2.Owner

/-!
# `Tolunnet.Sana2.Link`: the link when events are off

Link events are switched off for good by an event request that fails, and by the third full batch of
events. The link should then be up: reads are armed again only while it is, and only an event could
bring it up. `Tracked` says so. Neither exit looks at the link, so it fails when the last event before
was OFFLINE (`not_forall_tracked`).

`tracked_iff` says when it holds: in every state of a run exactly when every completion that switches
the events off leaves the link up (`Completion.Keeps`). `Tracking` is the invariant: the event request
is outstanding only while the events are on. A poll keeps it as long as its completions are like that,
and the first one that is not ends the poll.
-/

set_option autoImplicit false

namespace Tolunnet

namespace Sana2

open Requests

variable {m m' : Machine} {f : TnSana2If → TnSana2If} {p : Port} {r : Req}

/-! ## What the other calls keep -/

/-- The link and its tracking. -/
structure Link where
  linkDown : Bool
  linkUp : Bool
  eventSupported : Bool
  eventArmed : Bool
  eventStrikes : Nat
  taken : List Completion

namespace Machine

/-- The link and its tracking in a machine. -/
def link (m : Machine) : Link where
  linkDown := m.nif.linkDown
  linkUp := m.linkUp
  eventSupported := m.nif.eventSupported
  eventArmed := m.nif.eventArmed
  eventStrikes := m.nif.eventStrikes
  taken := m.taken

/-- A loop keeps the link state when each turn does. -/
theorem link_foldl {A : Type} {step : Machine → A → Machine} (hs : ∀ m a, (step m a).link = m.link)
    (l : List A) (m : Machine) : (l.foldl step m).link = m.link :=
  l.foldlRecOn (motive := fun n => n.link = m.link) step rfl fun _ same a _ => (hs _ a).trans same

/-- Two branches that keep it. -/
theorem link_ite {c : Prop} [Decidable c] {a b : Machine} {l : Link} (ha : a.link = l)
    (hb : b.link = l) : (if c then a else b).link = l := by
  split
  · exact ha
  · exact hb

/-- The driver answers, the link state stays. -/
@[simp] theorem driver_link (m : Machine) (a : Req × Reply) : (m.driver a).link = m.link := by
  unfold driver
  split <;> rfl

/-- So does a tick. -/
@[simp] theorem tick_link (m : Machine) : m.tick.link = m.link := by
  unfold tick
  split
  · rfl
  · exact link_foldl driver_link _ _

@[simp] theorem touch_link (m : Machine) (r : Req) : (m.touch r).link = m.link := rfl

@[simp] theorem write_link (m : Machine) (r : Req) (g : IOSana2Req → IOSana2Req) :
    (m.write r g).link = m.link := rfl

@[simp] theorem sendIo_link (m : Machine) (r : Req) : (m.sendIo r).link = m.link := tick_link m

@[simp] theorem waitIo_link (m : Machine) (r : Req) : (m.waitIo r).link = m.link := by
  show (driver _ _).link = m.link
  rw [driver_link]
  exact tick_link m

@[simp] theorem doIo_link (m : Machine) (r : Req) : (m.doIo r).link = m.link := by simp [doIo]

@[simp] theorem retire_link (m : Machine) (r : Req) : (m.retire r).link = m.link := by
  show (waitIo (if _ then m.tick else m.tick.tick) r).link = m.link
  rw [waitIo_link]
  split <;> simp

/-- A message is taken from a port. -/
theorem getMsg_link (m : Machine) (p : Port) : (m.getMsg p).2.link = m.link := by
  unfold getMsg
  dsimp only
  split
  · exact tick_link m
  · exact tick_link m

theorem alloc_link (m : Machine) : m.alloc.2.link = m.link := by
  unfold alloc
  split <;> rfl

/-- The drain loop, by induction on the turns. -/
@[simp] theorem txDrainLoop_link (turns : Nat) (m : Machine) : (m.txDrainLoop turns).link = m.link := by
  induction turns generalizing m with
  | zero => rfl
  | succ turns ih =>
    unfold txDrainLoop
    have same := getMsg_link m .tx
    split
    · rename_i got
      rwa [got] at same
    · rename_i got
      rw [got] at same
      split
      · rw [ih, same]
      · exact (ih _).trans same

@[simp] theorem tnS2TxDrain_link (m : Machine) : m.tnS2TxDrain.link = m.link := by
  unfold tnS2TxDrain
  split <;> simp

/-- Waiting for a TX slot. -/
@[simp] theorem awaitSlot_link (turns : Nat) (m : Machine) :
    (m.awaitSlot turns).2.link = m.link := by
  induction turns generalizing m with
  | zero =>
    unfold awaitSlot
    split <;> rfl
  | succ turns ih =>
    unfold awaitSlot
    split
    · rfl
    · simp [ih, waitPort]

/-- A frame is sent or dropped. -/
@[simp] theorem tnS2Send_link (m : Machine) (f : Frame) : (m.tnS2Send f).2.link = m.link := by
  unfold tnS2Send
  split
  · rfl
  split
  · have same := awaitSlot_link (m.moves.length + 1) m.tnS2TxDrain
    rw [tnS2TxDrain_link] at same
    split
    · rename_i got
      rwa [got] at same
    · rename_i got
      rw [got] at same
      exact (sendIo_link _ _).trans same
  · dsimp only
    split <;> simp

/-- A turn of lwIP. -/
@[simp] theorem lwip_link (m : Machine) : m.lwip.link = m.link := by
  unfold lwip
  split
  · rfl
  · exact link_foldl tnS2Send_link _ _

theorem freePool_link (m : Machine) (slots : Nat) : (m.freePool slots).link = m.link := by
  have ended (m : Machine) (k : Nat) : ((m.freeTxIo k).freeTxBuf k).link = m.link := by
    unfold freeTxBuf freeTxIo
    split <;> split <;> rfl
  exact link_foldl ended (List.range slots) m

/-- The TX pool is built, by induction on the slots that are left. -/
theorem txInitLoop_link (i left : Nat) (m : Machine) : (m.txInitLoop i left).2.link = m.link := by
  induction left generalizing i m with
  | zero => rfl
  | succ left ih =>
    unfold txInitLoop
    have same := alloc_link m
    split
    · rename_i got
      rw [got] at same
      exact (freePool_link _ _).trans same
    · rename_i got
      rw [got] at same
      extract_lets m₁ m₂
      have same' : m₂.alloc.2.link = m.link := (alloc_link m₂).trans same
      split
      · rename_i got'
        rw [got'] at same'
        exact (freePool_link _ _).trans same'
      · rename_i got'
        rw [got'] at same'
        exact (ih _ _).trans same'

theorem tnS2TxInit_link (m : Machine) (count : Nat) : (m.tnS2TxInit count).2.link = m.link := by
  unfold tnS2TxInit
  extract_lets n
  have same : m.alloc.2.alloc.2.link = m.link := (alloc_link _).trans (alloc_link m)
  split
  · rfl
  dsimp only
  split
  · exact same
  · exact (txInitLoop_link _ _ _).trans same

/-- The TX pool is aborted. -/
theorem tnS2TxAbortAll_link (m : Machine) : m.tnS2TxAbortAll.link = m.link := by
  have retired := link_foldl fun (m : Machine) (i : Nat) => show (m.retireTx i).link = m.link by
    unfold retireTx
    split
    · exact retire_link m (.tx i)
    · rfl
  unfold tnS2TxAbortAll
  split
  · rfl
  · extract_lets m₁ m₂
    have drained : m₂.link = m.link := (tnS2TxDrain_link m₁).trans (retired _ m)
    clear_value m₂
    exact (freePool_link m₂ _).trans drained

theorem freeRead_link (m : Machine) (k : Nat) : ((m.freeReadBuf k).freeReadIo k).link = m.link := by
  unfold freeReadIo freeReadBuf
  split <;> rfl

theorem unwindReads_link (m : Machine) (slots : Nat) : (m.unwindReads slots).link = m.link := by
  refine link_foldl (fun m k => ?_) (List.range slots) m
  unfold unwindRead
  extract_lets m₁
  refine (freeRead_link m₁ k).trans ?_
  unfold m₁
  split
  · exact (waitIo_link _ _).trans (tick_link m)
  · rfl

/-- The reads are armed, by induction on the slots that are left. -/
theorem armReadsLoop_link (i left : Nat) (m : Machine) : (m.armReadsLoop i left).2.link = m.link := by
  induction left generalizing i m with
  | zero => rfl
  | succ left ih =>
    unfold armReadsLoop
    have same := alloc_link m
    split
    · rename_i got
      rw [got] at same
      exact (unwindReads_link _ _).trans same
    · rename_i m₁ got
      rw [got] at same
      have same' : m₁.alloc.2.link = m.link := (alloc_link m₁).trans same
      split
      · rename_i got'
        rw [got'] at same'
        exact (unwindReads_link _ _).trans same'
      · rename_i got'
        rw [got'] at same'
        exact (ih _ _).trans ((sendIo_link _ _).trans same')

theorem tnS2ArmReads_link (m : Machine) : m.tnS2ArmReads.2.link = m.link := by
  unfold tnS2ArmReads
  split
  · rfl
  split
  · rfl
  have same := alloc_link m
  split
  · rename_i got
    rwa [got] at same
  · rename_i got
    rw [got] at same
    exact (armReadsLoop_link _ _ _).trans same

/-- The reads are armed again. -/
@[simp] theorem tnS2RearmReads_link (m : Machine) : m.tnS2RearmReads.link = m.link := by
  unfold tnS2RearmReads
  split
  · rfl
  · refine link_foldl (fun m i => ?_) _ m
    unfold rearmRead
    split
    · exact sendIo_link _ _
    · rfl

/-- A packet is handed to lwIP. -/
theorem receive_link (m : Machine) (r : Req) : (m.receive r).2.link = m.link := by
  unfold receive
  split
  · split
    · rfl
    · rfl
    · exact lwip_link _
    · rfl
  · rfl

/-- Packets are taken from the port, by induction on the turns. -/
theorem pollInputLoop_link (turns : Nat) (m : Machine) : (m.pollInputLoop turns).link = m.link := by
  induction turns generalizing m with
  | zero => rfl
  | succ turns ih =>
    unfold pollInputLoop
    have same := getMsg_link m .rx
    split
    · rename_i got
      rwa [got] at same
    · rename_i rio m₁ got
      rw [got] at same
      extract_lets slot armed m₂
      have put (m : Machine) (b : Bool) : (armed m b).link = m.link := by
        clear_value slot
        cases slot <;> rfl
      have first : m₂.link = m.link := (put _ _).trans same
      split
      · exact (ih _).trans first
      · have received : (m₂.receive rio).2.link = m.link := (receive_link _ _).trans first
        dsimp only
        split
        · exact (ih _).trans ((put _ _).trans ((sendIo_link _ _).trans received))
        · exact (ih _).trans received

theorem tnSana2PollInput_link (m : Machine) : m.tnSana2PollInput.link = m.link := by
  unfold tnSana2PollInput
  split
  · rfl
  · exact pollInputLoop_link _ _

/-! ## Closing and opening the events -/

/-- A port is emptied, by induction on the turns. -/
theorem emptyPort_link (p : Port) (turns : Nat) (m : Machine) :
    (m.emptyPort p turns).link = m.link := by
  induction turns generalizing m with
  | zero => rfl
  | succ turns ih =>
    unfold emptyPort
    have same := getMsg_link m p
    split
    · rename_i got
      rwa [got] at same
    · rename_i got
      rw [got] at same
      rw [ih, same]

/-- A read is aborted and given back. -/
theorem closeRead_link (m : Machine) (k : Nat) : (m.closeRead k).link = m.link := by
  unfold closeRead
  split
  · extract_lets m₁
    refine (freeRead_link m₁ k).trans ?_
    unfold m₁
    split
    · exact retire_link m (.read k)
    · rfl
  · rfl

theorem command_link (m : Machine) (g : IOSana2Req → IOSana2Req) : (m.command g).link = m.link := by
  simp [command]

/-- Closing changes the link state in one place. -/
theorem tnS2OfflineClose_link (m : Machine) : m.tnS2OfflineClose.link = m.closeEvents.link := by
  unfold tnS2OfflineClose
  extract_lets m₀ m₁ m₂ m₃ m₄ m₅ m₆ m₇ m₈
  -- behind each step only what it has kept is needed
  have aborted : m₁.link = m₀.link := tnS2TxAbortAll_link m₀
  clear_value m₁
  have commands : m₄.link = m₀.link :=
    (command_link m₃ _).trans ((command_link m₂ _).trans ((command_link m₁ _).trans aborted))
  clear_value m₄
  have offline : m₅.link = m₀.link := link_ite commands aborted
  clear_value m₅
  have reads : m₆.link = m₀.link := link_ite ((link_foldl closeRead_link _ m₅).trans offline) offline
  clear_value m₆
  have freed : m₇.link = m₀.link := link_ite reads reads
  clear_value m₇
  have rx : m₈.link = m₀.link := link_ite ((emptyPort_link _ _ m₇).trans freed) freed
  clear_value m₈
  exact link_ite ((emptyPort_link _ _ m₈).trans rx) rx

/-- What the end of the events leaves: the event request is not armed. -/
theorem closeEvents_link (m : Machine) : m.closeEvents.link = m.link ∨
    m.closeEvents.link = { m.link with eventArmed := false } := by
  unfold closeEvents
  extract_lets m₁ m₂
  have retired : m₁.link = m.link ∨ m₁.link = { m.link with eventArmed := false } := by
    unfold m₁
    split
    · rw [← retire_link m .event]
      exact .inr rfl
    · exact .inl rfl
  have freed : m₂.link = m.link ∨ m₂.link = { m.link with eventArmed := false } := by
    unfold m₂
    split
    · exact retired
    · exact .inl rfl
  split
  · have same : ((emptyPort .event (m₂.turns .event) m₂).put
        fun nif => { nif with eventPort := false }).link = m₂.link := emptyPort_link _ _ _
    rwa [same]
  · exact freed

/-- The event request is armed. -/
theorem sendEvent_link (m : Machine) : m.sendEvent.link = { m.link with eventArmed := true } := by
  have same (g : IOSana2Req → IOSana2Req) : ((m.write .event g).sendIo .event).link = m.link :=
    sendIo_link _ .event
  rw [← same fun r => { r with ioCommand := .onevent, wireError := m.nif.eventMask, ioError := 0 }]
  rfl

/-- The event request goes out with the events on, or nothing happens. -/
theorem tnS2ArmEvents_link (m : Machine) (mask : Nat) : (m.tnS2ArmEvents mask).2.link = m.link ∨
    (m.tnS2ArmEvents mask).2.link = { m.link with eventSupported := true, eventArmed := true } := by
  unfold tnS2ArmEvents
  split
  · exact .inl rfl
  split
  · exact .inl rfl
  split
  · exact .inl rfl
  have same := alloc_link m
  split
  · rename_i got
    rw [got] at same
    exact .inl same
  · rename_i m₁ got
    rw [got] at same
    have same' : m₁.alloc.2.link = m.link := (alloc_link m₁).trans same
    split
    · rename_i got'
      rw [got'] at same'
      exact .inl same'
    · rename_i m₂ got'
      rw [got'] at same'
      dsimp only
      rw [sendEvent_link, ← same']
      exact .inr rfl

/-! ## Events -/

/-- The link after an event. -/
def downAfter (linkDown : Bool) (bits : Nat) : Bool :=
  (linkDown || bits &&& s2eventOffline != 0) && bits &&& s2eventOnline == 0

/-- What an event does to the link: the netif follows it. -/
theorem tnS2HandleEventBits_link (up : m.linkUp = !m.nif.linkDown) (bits : Nat) :
    (m.tnS2HandleEventBits bits).link =
      { m.link with
        linkDown := downAfter m.nif.linkDown bits
        linkUp := !downAfter m.nif.linkDown bits } := by
  unfold tnS2HandleEventBits downAfter
  extract_lets down m₁ above m₂
  have first : m₁.link = { m.link with
      linkDown := m.nif.linkDown || bits &&& s2eventOffline != 0
      linkUp := !(m.nif.linkDown || bits &&& s2eventOffline != 0) } := by
    unfold m₁
    split
    · rename_i off
      rw [lwip_link, off.2]
      simp [link, put, off.1, down]
    · rename_i stays
      have same : (m.nif.linkDown || bits &&& s2eventOffline != 0) = m.nif.linkDown := by
        cases down : m.nif.linkDown with
        | true => rfl
        | false =>
          have quiet : bits &&& s2eventOffline = 0 := by simpa [down] using stays
          simp [quiet]
      rw [same, ← up]
      rfl
  have isDown : m₁.nif.linkDown = (m.nif.linkDown || bits &&& s2eventOffline != 0) :=
    congrArg Link.linkDown first
  split
  · rename_i on
    have isOn : (bits &&& s2eventOnline == 0) = false := by simpa using on.1
    have same : Machine.link { above with linkUp := true } =
        { m₁.link with linkDown := false, linkUp := true } := rfl
    rw [lwip_link, tnS2RearmReads_link, lwip_link, same, first, isOn, Bool.and_false]
    rfl
  · rename_i stays
    rw [first, ← isDown]
    cases down : m₁.nif.linkDown with
    | false => rfl
    | true =>
      have quiet : bits &&& s2eventOnline = 0 := by simpa [down] using stays
      rw [quiet]
      rfl

/-! ## The invariant -/

/-- When the events are off, the link is up, of the interface and of the netif, and every read is armed
again at the next turn. -/
def Tracked (m : Machine) : Prop :=
  m.nif.eventSupported = false → m.nif.linkDown = false ∧ m.linkUp = true ∧
    ∀ i < m.nif.nReadIos, m.nif.readIo i = true → m.tnS2RearmReads.nif.readArmed i = true

/-- A completion leaves the link up if it switches the events off: an error, or the last event of the
third full batch. -/
def Keeps (c : Completion) : Prop :=
  if c.ioError ≠ 0 then c.linkDown = false
  else c.handled + 1 ≥ eventBatch → (c.eventStrikes + 1) % 2 ^ 16 ≥ 3 →
    downAfter c.linkDown c.bits = false

/-- The netif follows the link, the event request is outstanding only while the events are on, and
when they are off the link is up. -/
structure Tracking (m : Machine) : Prop where
  owns : m.Owns
  up : m.linkUp = !m.nif.linkDown
  armed : m.nif.eventArmed = true → m.nif.eventSupported = true
  off : m.nif.eventSupported = false → m.nif.linkDown = false

/-- The events are off and the link is down. -/
def Stuck (m : Machine) : Prop := m.nif.eventSupported = false ∧ m.nif.linkDown = true

/-- A link that is stuck is not tracked. -/
theorem Stuck.not_tracked (h : m.Stuck) : ¬ m.Tracked := fun tracked => by
  have := (tracked h.1).1
  rw [h.2] at this
  cases this

/-- A read that is armed stays armed. -/
theorem rearmRead_armed (m : Machine) (k i : Nat) (set : m.nif.readArmed i = true) :
    (m.rearmRead k).nif.readArmed i = true := by
  unfold rearmRead
  split
  · by_cases eq : i = k
    · simp [put, eq]
    · simpa [put, eq] using set
  · exact set

/-- With the link up every read is armed. -/
theorem rearm_armed {l : List Nat} {i : Nat} (there : m.nif.readIo i = true)
    (h : i ∈ l ∨ m.nif.readArmed i = true) : (l.foldl rearmRead m).nif.readArmed i = true := by
  induction l generalizing m with
  | nil => exact h.resolve_left List.not_mem_nil
  | cons k l ih =>
    have there' : (m.rearmRead k).nif.readIo i = true := by
      unfold rearmRead
      split
      · simpa [put] using there
      · exact there
    refine ih there' ?_
    rcases h with mem | set
    · rcases List.mem_cons.mp mem with rfl | mem
      · right
        unfold rearmRead
        split
        · simp [put]
        · rename_i no
          simpa [there] using no
      · exact .inl mem
    · exact .inr (rearmRead_armed m k i set)

/-- While events are armed the link is tracked. -/
theorem Tracking.tracked (h : m.Tracking) : m.Tracked := fun off => by
  have down := h.off off
  refine ⟨down, by rw [h.up, down]; rfl, fun i hi there => ?_⟩
  unfold tnS2RearmReads
  rw [if_neg (by simp [down])]
  exact rearm_armed there (.inl (List.mem_range.mpr hi))

/-! ## A poll -/

/-- Without an event request in flight there is no completion. -/
theorem pollEventsLoop_idle (h : m.Owns) (idle : m.nif.eventArmed = false) (handled turns : Nat) :
    (m.pollEventsLoop handled turns).link = m.link := by
  cases turns with
  | zero => rfl
  | succ turns =>
    unfold pollEventsLoop
    cases got : m.getMsg .event with
    | mk msg m' =>
    cases msg with
    | none =>
      have same := getMsg_link m .event
      rwa [got] at same
    | some r =>
      rw [(h.takeEvent got handled).1] at idle
      cases idle

/-- What a call that takes the completions `new` does: the invariant stays when each of them keeps the
link, and else the link is stuck. -/
structure Polled (m m' : Machine) (new : List Completion) : Prop where
  taken : m'.taken = m.taken ++ new
  keeps : (∀ c ∈ new, Keeps c) → m'.Tracking
  stuck : (∃ c ∈ new, ¬ Keeps c) → m'.Stuck

/-- A poll that takes no completion. -/
theorem Tracking.polled_nil (h : m.Tracking) (owns : m'.Owns) (same : m'.link = m.link) :
    Polled m m' [] := by
  simp only [link, Link.mk.injEq] at same
  obtain ⟨down, up, supported, armed, -, taken⟩ := same
  refine ⟨by rw [taken, List.append_nil], fun _ => ⟨owns, ?_, ?_, ?_⟩, fun bad => ?_⟩
  · rw [up, down]
    exact h.up
  · rw [armed, supported]
    exact h.armed
  · rw [supported, down]
    exact h.off
  · obtain ⟨_, mem, -⟩ := bad
    cases mem

/-- A poll that takes one. -/
theorem Polled.single {c : Completion} (owns : m'.Owns) (taken : m'.taken = m.taken ++ [c])
    (up : m'.linkUp = !m'.nif.linkDown) (armed : m'.nif.eventArmed = true → m'.nif.eventSupported = true)
    (off : m'.nif.eventSupported = false → (Keeps c ↔ m'.nif.linkDown = false))
    (bad : ¬ Keeps c → m'.nif.eventSupported = false) : Polled m m' [c] := by
  refine ⟨taken, fun all => ⟨owns, up, armed, fun h => ?_⟩, fun some => ?_⟩
  · exact (off h).mp (all c (List.mem_singleton_self c))
  · obtain ⟨_, mem, not⟩ := some
    obtain rfl := List.mem_singleton.mp mem
    have isOff := bad not
    exact ⟨isOff, by simpa using mt (off isOff).mpr not⟩

/-- One completion and those after it. -/
theorem Polled.cons {m₁ : Machine} {c : Completion} {new : List Completion}
    (taken : m₁.taken = m.taken ++ [c]) (keeps : Keeps c) (h : Polled m₁ m' new) :
    Polled m m' (c :: new) := by
  refine ⟨?_, fun all => h.keeps fun d mem => all d (List.mem_cons_of_mem c mem), fun some => ?_⟩
  · rw [h.taken, taken, List.append_assoc, List.singleton_append]
  · obtain ⟨d, mem, not⟩ := some
    rcases List.mem_cons.mp mem with rfl | mem
    · exact absurd keeps not
    · exact h.stuck ⟨d, mem, not⟩

/-- A failed request leaves the link down at most. -/
theorem keeps_error {c : Completion} (h : c.ioError ≠ 0) : Keeps c ↔ c.linkDown = false := by
  rw [Keeps, if_pos h]

/-- Events leave the link as the last one said, unless they come too fast. -/
theorem keeps_event {c : Completion} (h : ¬ c.ioError ≠ 0) : Keeps c ↔
    (c.handled + 1 ≥ eventBatch → (c.eventStrikes + 1) % 2 ^ 16 ≥ 3 →
      downAfter c.linkDown c.bits = false) := by
  rw [Keeps, if_neg h]

/-- The events of one poll. The loop goes on only after a completion that is not an error, and then
the events are on. -/
theorem Tracking.pollEventsLoop (h : m.Tracking) (handled turns : Nat) :
    ∃ new, Polled m (m.pollEventsLoop handled turns) new := by
  have owned := h.owns.pollEventsLoop handled turns
  induction turns generalizing handled m with
  | zero => exact ⟨[], h.polled_nil h.owns rfl⟩
  | succ turns ih =>
    unfold Machine.pollEventsLoop at owned ⊢
    cases got : m.getMsg .event with
    | mk msg m' =>
    have same := getMsg_link m .event
    rw [got] at same owned
    cases msg with
    | none => exact ⟨[], h.polled_nil owned same⟩
    | some r =>
      obtain ⟨flagged, taken, there⟩ := h.owns.takeEvent got handled
      simp only [link, Link.mk.injEq] at same
      obtain ⟨down, up, supported, -, -, before⟩ := same
      -- the state after the completion is taken, in terms of its record
      have idle : (m'.takeEvent handled).nif.eventArmed = false := rfl
      have on : (m'.takeEvent handled).nif.eventSupported = true := supported.trans (h.armed flagged)
      have up : (m'.takeEvent handled).linkUp = !(m'.takeEvent handled).nif.linkDown :=
        up.trans (h.up.trans (congrArg _ down.symm))
      have record : (m'.takeEvent handled).taken = m.taken ++ [m'.completion handled] :=
        congrArg (· ++ _) before
      have error : ((m'.takeEvent handled).req .event).ioError = (m'.completion handled).ioError := rfl
      have bits : ((m'.takeEvent handled).req .event).wireError = (m'.completion handled).bits := rfl
      have down : (m'.takeEvent handled).nif.linkDown = (m'.completion handled).linkDown := rfl
      have strikes : (m'.takeEvent handled).nif.eventStrikes = (m'.completion handled).eventStrikes := rfl
      have count : (m'.completion handled).handled = handled := rfl
      dsimp only at owned ⊢
      generalize m'.takeEvent handled = m₁ at *
      generalize m'.completion handled = c at *
      rw [error] at owned ⊢
      split at owned
      · -- an error: the events are off, and nothing more comes
        rename_i failed
        rw [if_pos failed]
        have last := pollEventsLoop_idle (taken.put_tracking false m₁.nif.eventStrikes) idle handled turns
        simp only [link, Link.mk.injEq] at last
        obtain ⟨down', up', supported', armed', -, taken'⟩ := last
        refine ⟨[c], .single owned (taken'.trans record) ?_ ?_ ?_ fun _ => supported'⟩
        · exact up'.trans (up.trans (congrArg _ down'.symm))
        · exact fun set => absurd (set.symm.trans (armed'.trans idle)) (by decide)
        · intro _
          rw [keeps_error failed, ← down]
          exact ⟨down'.trans, down'.symm.trans⟩
      · rename_i event
        rw [if_neg event]
        obtain ⟨-, io, armed⟩ := taken.tnS2HandleEventBits (m₁.req .event).wireError
        rw [idle] at armed
        rw [there] at io
        have handledOwns := (taken.tnS2HandleEventBits (m₁.req .event).wireError).1
        have after := tnS2HandleEventBits_link up (m₁.req .event).wireError
        rw [bits, down] at after
        rw [bits] at owned armed io handledOwns ⊢
        simp only [link, Link.mk.injEq] at after
        obtain ⟨down', up', supported', -, strikes', taken'⟩ := after
        generalize m₁.tnS2HandleEventBits c.bits = m₂ at *
        have up' : m₂.linkUp = !m₂.nif.linkDown := by rw [up', down']
        split at owned
        · rename_i full
          rw [if_pos full]
          have counted : c.handled + 1 ≥ eventBatch := count ▸ full
          split at owned
          · -- the third full batch: the events are off
            rename_i struck
            rw [if_pos struck]
            have third : (c.eventStrikes + 1) % 2 ^ 16 ≥ 3 := by
              rw [← strikes, ← strikes']
              exact struck
            refine ⟨[c], .single owned (taken'.trans record) up' ?_ ?_ fun _ => rfl⟩
            · exact fun set => absurd (set.symm.trans armed) (by decide)
            · intro _
              rw [keeps_event event]
              exact ⟨fun keeps => down'.trans (keeps counted third),
                fun isUp _ _ => down'.symm.trans isUp⟩
          · rename_i few
            rw [if_neg few]
            have sent := sendEvent_link (m₂.put fun nif =>
              { nif with eventStrikes := (nif.eventStrikes + 1) % 2 ^ 16 })
            simp only [link, Link.mk.injEq] at sent
            obtain ⟨down₃, up₃, supported₃, -, -, taken₃⟩ := sent
            have on : m₂.nif.eventSupported = true := supported'.trans on
            refine ⟨[c], .single owned (taken₃.trans (taken'.trans record)) ?_ ?_ ?_ ?_⟩
            · exact up₃.trans (up'.trans (congrArg _ down₃.symm))
            · exact fun _ => supported₃.trans on
            · exact fun off => absurd (off.symm.trans (supported₃.trans on)) (by decide)
            · intro bad
              refine absurd ((keeps_event event).mpr fun _ third => absurd ?_ few) bad
              rw [← strikes, ← strikes'] at third
              exact third
        · rename_i more
          rw [if_neg more]
          have sent := sendEvent_link m₂
          simp only [link, Link.mk.injEq] at sent
          obtain ⟨down₃, up₃, supported₃, -, -, taken₃⟩ := sent
          have on : m₂.nif.eventSupported = true := supported'.trans on
          have next : m₂.sendEvent.Tracking := by
            refine ⟨(handledOwns.sendEvent armed io).1, ?_, fun _ => supported₃.trans on, fun off => ?_⟩
            · exact up₃.trans (up'.trans (congrArg _ down₃.symm))
            · exact absurd (off.symm.trans (supported₃.trans on)) (by decide)
          obtain ⟨new, polled⟩ := ih next (handled + 1) owned
          have keeps : Keeps c := (keeps_event event).mpr fun full => absurd (count ▸ full) more
          exact ⟨c :: new, polled.cons (taken₃.trans (taken'.trans record)) keeps⟩

/-! ## Runs -/

/-- The setup tracks the link. -/
theorem opened_tracking (mtu : Nat) (fate : Fate) : (opened mtu fate).Tracking :=
  ⟨opened_owns mtu fate, rfl, fun set => (nomatch set), fun _ => rfl⟩

/-- Closing the events completes nothing. -/
theorem Tracking.closeEvents (h : m.Tracking) (owns : m'.Owns) (same : m'.link = m.closeEvents.link) :
    Polled m m' [] := by
  rcases closeEvents_link m with closed | closed
  · exact h.polled_nil owns (same.trans closed)
  · rw [closed] at same
    simp only [link, Link.mk.injEq] at same
    obtain ⟨down, up, supported, armed, -, taken⟩ := same
    refine ⟨by rw [taken, List.append_nil], fun _ => ⟨owns, ?_, ?_, ?_⟩, fun bad => ?_⟩
    · rw [up, down, h.up]
    · exact fun set => nomatch armed.symm.trans set
    · rw [supported, down]
      exact h.off
    · obtain ⟨_, mem, -⟩ := bad
      cases mem

/-- Asking for events completes nothing. -/
theorem Tracking.tnS2ArmEvents (h : m.Tracking) (mask : Nat) :
    Polled m (m.tnS2ArmEvents mask).2 [] := by
  have owns := h.owns.tnS2ArmEvents mask
  rcases tnS2ArmEvents_link m mask with same | same
  · exact h.polled_nil owns same
  · simp only [link, Link.mk.injEq] at same
    obtain ⟨down, up, supported, -, -, taken⟩ := same
    refine ⟨by rw [taken, List.append_nil], fun _ => ⟨owns, ?_, fun _ => supported, ?_⟩, fun bad => ?_⟩
    · rw [up, down, h.up]
    · exact fun off => nomatch supported.symm.trans off
    · obtain ⟨_, mem, -⟩ := bad
      cases mem

/-- Every call is a poll, or takes no completion. -/
theorem Tracking.step (h : m.Tracking) (call : Call) : ∃ new, Polled m (m.step call) new := by
  have owns := h.owns.step call
  cases call with
  | txInit count => exact ⟨[], h.polled_nil owns (tnS2TxInit_link m count)⟩
  | txDrain => exact ⟨[], h.polled_nil owns (tnS2TxDrain_link m)⟩
  | txAbortAll => exact ⟨[], h.polled_nil owns (tnS2TxAbortAll_link m)⟩
  | send f => exact ⟨[], h.polled_nil owns (tnS2Send_link m f)⟩
  | armReads => exact ⟨[], h.polled_nil owns (tnS2ArmReads_link m)⟩
  | armEvents mask => exact ⟨[], h.tnS2ArmEvents mask⟩
  | rearmReads => exact ⟨[], h.polled_nil owns (tnS2RearmReads_link m)⟩
  | pollEvents =>
    show ∃ new, Polled m m.tnS2PollEvents new
    unfold Machine.tnS2PollEvents
    split
    · exact ⟨[], h.polled_nil h.owns rfl⟩
    · exact h.pollEventsLoop 0 _
  | pollInput => exact ⟨[], h.polled_nil owns (tnSana2PollInput_link m)⟩
  | offlineClose => exact ⟨[], h.closeEvents owns (tnS2OfflineClose_link m)⟩

/-- A poll adds to the completions. -/
theorem pollEventsLoop_taken (m : Machine) (handled turns : Nat) :
    m.taken <+: (m.pollEventsLoop handled turns).taken := by
  have sent (m : Machine) : m.sendEvent.taken = m.taken := congrArg Link.taken (sendEvent_link m)
  have handled' (m : Machine) (bits : Nat) : (m.tnS2HandleEventBits bits).taken = m.taken := by
    unfold tnS2HandleEventBits
    extract_lets down m₁ above m₂
    have first : m₁.taken = m.taken := by
      unfold m₁
      split
      · exact congrArg Link.taken (lwip_link _)
      · rfl
    split
    · have last : m₂.tnS2RearmReads.lwip.link = Machine.link { above with linkUp := true } :=
        (lwip_link _).trans ((tnS2RearmReads_link _).trans (lwip_link _))
      exact (congrArg Link.taken last).trans first
    · exact first
  induction turns generalizing handled m with
  | zero => exact List.prefix_rfl
  | succ turns ih =>
    unfold pollEventsLoop
    have same := congrArg Link.taken (getMsg_link m .event)
    split
    · rename_i got
      rw [got] at same
      exact (show _ = m.taken from same) ▸ List.prefix_rfl
    · rename_i m' got
      rw [got] at same
      have first : m.taken <+: (m'.takeEvent handled).taken :=
        ⟨[m'.completion handled], congrArg (· ++ _) same.symm⟩
      have second (bits : Nat) :
          m.taken <+: ((m'.takeEvent handled).tnS2HandleEventBits bits).taken := by
        rw [handled']
        exact first
      dsimp only
      split
      · exact first.trans (ih ((m'.takeEvent handled).put _) handled)
      · split
        · split
          · exact second _
          · rw [sent]
            exact second _
        · refine List.IsPrefix.trans ?_ (ih _ _)
          rw [sent]
          exact second _

/-- A step adds completions at the end. -/
theorem step_taken (m : Machine) (call : Call) : m.taken <+: (m.step call).taken := by
  have same {m' : Machine} (h : m'.link = m.link) : m.taken <+: m'.taken :=
    (show m'.taken = m.taken from congrArg Link.taken h) ▸ List.prefix_rfl
  cases call with
  | txInit count => exact same (tnS2TxInit_link m count)
  | txDrain => exact same (tnS2TxDrain_link m)
  | txAbortAll => exact same (tnS2TxAbortAll_link m)
  | send f => exact same (tnS2Send_link m f)
  | armReads => exact same (tnS2ArmReads_link m)
  | armEvents mask =>
    rcases tnS2ArmEvents_link m mask with h | h
    · exact same h
    · exact (show (m.tnS2ArmEvents mask).2.taken = m.taken from congrArg Link.taken h) ▸ List.prefix_rfl
  | rearmReads => exact same (tnS2RearmReads_link m)
  | pollEvents =>
    show m.taken <+: m.tnS2PollEvents.taken
    unfold Machine.tnS2PollEvents
    split
    · exact List.prefix_rfl
    · exact pollEventsLoop_taken m 0 _
  | pollInput => exact same (tnSana2PollInput_link m)
  | offlineClose =>
    have taken : m.closeEvents.link.taken = m.taken := by
      rcases closeEvents_link m with h | h
      · rw [h]
        rfl
      · rw [h]
        rfl
    have closed := congrArg Link.taken (tnS2OfflineClose_link m)
    exact (show (m.tnS2OfflineClose).taken = m.taken from closed.trans taken) ▸ List.prefix_rfl

/-- So does a run. -/
theorem run_taken (m : Machine) (calls : List Call) : m.taken <+: (m.run calls).taken := by
  induction calls generalizing m with
  | nil => exact List.prefix_rfl
  | cons call calls ih => exact (step_taken m call).trans (ih _)

/-- The run goes on from a state that is tracked as long as the completions keep the link. -/
theorem Tracking.run_iff (h : m.Tracking) (calls : List Call) :
    (∀ n, (m.run (calls.take n)).Tracked) ↔
      ∀ c, c ∈ (m.run calls).taken.drop m.taken.length → Keeps c := by
  induction calls generalizing m with
  | nil =>
    refine ⟨fun _ c mem => ?_, fun _ n => ?_⟩
    · simp [Machine.run] at mem
    · rw [List.take_nil]
      exact h.tracked
  | cons call calls ih =>
    obtain ⟨new, polled⟩ := h.step call
    obtain ⟨later, rest⟩ := run_taken (m.step call) calls
    have all : (m.run (call :: calls)).taken.drop m.taken.length = new ++ later := by
      show ((m.step call).run calls).taken.drop m.taken.length = _
      rw [← rest, polled.taken, List.append_assoc, List.drop_left]
    have after : ((m.step call).run calls).taken.drop (m.step call).taken.length = later := by
      rw [← rest, List.drop_left]
    rw [all]
    by_cases good : ∀ c ∈ new, Keeps c
    · have ih := ih (polled.keeps good)
      rw [after] at ih
      constructor
      · intro tracked c mem
        rcases List.mem_append.mp mem with mem | mem
        · exact good c mem
        · exact ih.mp (fun n => tracked (n + 1)) c mem
      · intro keeps n
        cases n with
        | zero => exact h.tracked
        | succ n => exact ih.mpr (fun c mem => keeps c (List.mem_append_right new mem)) n
    · have bad : ∃ c ∈ new, ¬ Keeps c := by simpa using good
      have stuck := polled.stuck bad
      obtain ⟨c, mem, not⟩ := bad
      refine ⟨fun tracked => absurd ?_ stuck.not_tracked, fun keeps => ?_⟩
      · have := tracked 1
        simpa [Machine.run] using this
      · exact absurd (keeps c (List.mem_append_left later mem)) not

/-- **When the link is tracked.** In every state of a run the events are on or the link is up, exactly
when no completion of the run switches the events off and leaves the link down. -/
theorem tracked_iff (mtu : Nat) (fate : Fate) (calls : List Call) :
    (∀ n, ((opened mtu fate).run (calls.take n)).Tracked) ↔
      ∀ c ∈ ((opened mtu fate).run calls).taken, Keeps c :=
  (opened_tracking mtu fate).run_iff calls

/-- An answer to the event request. -/
def eventReply (ioError : Int) (bits : Nat) : Req × Reply :=
  (.event, { ioError, wireError := bits, packetType := 0, dataLength := 0, srcAddr := [], dstAddr := [] })

/-- The device goes offline, and rejects the next event request. -/
def offlineThenError : Fate where
  moves := [[], [eventReply 0 s2eventOffline], [], [eventReply (-3) 0]]
  waits := []
  allocs := []
  frames := []
  pbufs := []

/-- The link stays down with the events off when an error comes after OFFLINE. -/
theorem not_forall_tracked : ¬ ∀ mtu fate calls n,
    ((opened mtu fate).run (List.take n calls)).Tracked := fun all =>
  Stuck.not_tracked (by unfold Stuck; decide) (all 1500 offlineThenError [.armEvents 0, .pollEvents] 2)

end Machine

end Sana2

end Tolunnet
