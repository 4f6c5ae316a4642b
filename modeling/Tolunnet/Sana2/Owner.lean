import Tolunnet.Sana2.Netif

/-!
# `Tolunnet.Sana2.Owner`: who owns a request

`tx_busy`, `read_armed` and `event_armed` say which requests the driver has. `Owns` is this, for every
request: the flag is set exactly while the request is outstanding, and no outstanding request has been
touched. Every call keeps it, whatever the driver does in between (`Owns.step`), and so does every run
(`owned_run`).

In the middle of a call the flags lag behind by a statement. `Holds` is the invariant there: it names
the outstanding requests as a set of its own, which a send and a reply that is taken change by one.
-/

set_option autoImplicit false

namespace Tolunnet

namespace Sana2

open Requests

variable {m m' : Machine} {f : Req → Bool} {p : Port} {q r : Req} {i k left : Nat} {b : Bool}

/-! ## Calls of exec -/

namespace Machine

/-- The outstanding requests are those of `f`, and none has been touched. -/
structure Holds (m : Machine) (f : Req → Bool) : Prop where
  sound : m.io.Sound Req.port
  clean : m.fault = false
  out : ∀ r, m.io.Outstanding r ↔ f r = true

/-- The driver answers, the interface stays. -/
@[simp] theorem driver_nif (a : Req × Reply) : (m.driver a).nif = m.nif := by
  unfold driver
  split <;> rfl

@[simp] theorem tick_nif (m : Machine) : m.tick.nif = m.nif := by
  unfold tick
  cases m.moves with
  | nil => rfl
  | cons now moves =>
    show (now.foldl driver { m with moves }).nif = ({ m with moves } : Machine).nif
    generalize ({ m with moves } : Machine) = m
    induction now generalizing m with
    | nil => rfl
    | cons a now ih => rw [List.foldl_cons, ih, driver_nif]

@[simp] theorem touch_nif (m : Machine) (r : Req) : (m.touch r).nif = m.nif := rfl

@[simp] theorem write_nif (m : Machine) (r : Req) (g : IOSana2Req → IOSana2Req) :
    (m.write r g).nif = m.nif := rfl

@[simp] theorem sendIo_nif (m : Machine) (r : Req) : (m.sendIo r).nif = m.nif := tick_nif m

@[simp] theorem waitIo_nif (m : Machine) (r : Req) : (m.waitIo r).nif = m.nif := by
  show (driver _ _).nif = m.nif
  rw [driver_nif]
  exact tick_nif m

@[simp] theorem doIo_nif (m : Machine) (r : Req) : (m.doIo r).nif = m.nif := by simp [doIo]

@[simp] theorem retire_nif (m : Machine) (r : Req) : (m.retire r).nif = m.nif := by
  show (waitIo (if _ then m.tick else m.tick.tick) r).nif = m.nif
  rw [waitIo_nif]
  split <;> simp

namespace Holds

/-- The driver leaves the ownership flags true. -/
theorem driver (h : m.Holds f) (a : Req × Reply) : (m.driver a).Holds f := by
  unfold Machine.driver
  split
  · exact ⟨h.sound.reply a.1, h.clean, fun r => Io.outstanding_reply.trans (h.out r)⟩
  · exact h

/-- So does a tick. -/
theorem tick (h : m.Holds f) : m.tick.Holds f := by
  unfold Machine.tick
  cases m.moves with
  | nil => exact h
  | cons now moves =>
    have h' : ({ m with moves } : Machine).Holds f := ⟨h.sound, h.clean, h.out⟩
    show (now.foldl Machine.driver { m with moves }).Holds f
    revert h'
    generalize ({ m with moves } : Machine) = m
    intro h
    induction now generalizing m with
    | nil => exact h
    | cons a now ih => exact ih _ (h.driver a)

/-- Software may touch a request it owns. -/
theorem touch (h : m.Holds f) (hr : f r = false) : (m.touch r).Holds f where
  sound := h.sound
  clean := by
    have ours : ¬ m.io.Outstanding r := fun out => by simp [(h.out r).mp out] at hr
    simp [Machine.touch, h.clean, ours]
  out := h.out

/-- It may write to a request it owns. -/
theorem write (h : m.Holds f) (hr : f r = false) (g : IOSana2Req → IOSana2Req) :
    (m.write r g).Holds f :=
  ⟨(h.touch hr).sound, (h.touch hr).clean, (h.touch hr).out⟩

/-- The driver's own fields. -/
theorem put (h : m.Holds f) (g : TnSana2If → TnSana2If) : (m.put g).Holds f :=
  ⟨h.sound, h.clean, h.out⟩

/-- A request that is sent belongs to the driver. -/
theorem sendIo (h : m.Holds f) (hr : f r = false) : (m.sendIo r).Holds (Function.update f r true) := by
  have h' := h.tick
  have ours : ¬ m.tick.io.Outstanding r := fun out => by simp [(h'.out r).mp out] at hr
  refine ⟨h'.sound.send ours, ?_, fun q => ?_⟩
  · simp [Machine.sendIo, h'.clean, ours]
  · rw [Machine.sendIo, Io.outstanding_send, h'.out]
    by_cases eq : q = r <;> simp [eq]

/-- A request that is taken from its port comes back. -/
theorem take (h : m.Holds f) (r : Req) :
    ({ m with io := m.io.take Req.port r } : Machine).Holds (Function.update f r false) := by
  refine ⟨h.sound.take r, h.clean, fun q => ?_⟩
  rw [Io.outstanding_take, h.out]
  by_cases eq : q = r <;> simp [eq]

/-- A request that is waited for comes back. -/
theorem waitIo (h : m.Holds f) (r : Req) : (m.waitIo r).Holds (Function.update f r false) := by
  have h' := h.tick
  have h'' : ({ m.tick with waits := m.tick.waits.tail } : Machine).Holds f :=
    ⟨h'.sound, h'.clean, h'.out⟩
  exact (h''.driver _).take r

/-- A request is sent and waited for. -/
theorem doIo (h : m.Holds f) (hr : f r = false) : (m.doIo r).Holds f := by
  have := (h.sendIo hr).waitIo r
  rwa [Function.update_idem, ← hr, Function.update_eq_self] at this

/-- An aborted request that is waited for comes back. -/
theorem retire (h : m.Holds f) (r : Req) : (m.retire r).Holds (Function.update f r false) := by
  show (Machine.waitIo (if _ then m.tick else m.tick.tick) r).Holds _
  refine Holds.waitIo ?_ r
  split
  · exact h.tick
  · exact h.tick.tick

/-- An allocation changes no owner. -/
theorem alloc (h : m.Holds f) (e : m.alloc = (b, m')) : m'.Holds f ∧ m'.nif = m.nif := by
  unfold Machine.alloc at e
  split at e
  · obtain ⟨-, rfl⟩ := Prod.mk.inj e
    exact ⟨h, rfl⟩
  · obtain ⟨-, rfl⟩ := Prod.mk.inj e
    exact ⟨⟨h.sound, h.clean, h.out⟩, rfl⟩

/-- An empty port gives no request back. -/
theorem getMsg_none (h : m.Holds f) (e : m.getMsg p = (none, m')) : m'.Holds f ∧ m'.nif = m.nif := by
  unfold Machine.getMsg at e
  cases head : (m.tick.io.queue p).head? with
  | none =>
    simp only [head, Prod.mk.injEq, true_and] at e
    exact e ▸ ⟨h.tick, tick_nif m⟩
  | some r => simp [head] at e

/-- What a port gives is a request that was outstanding. -/
theorem getMsg_some (h : m.Holds f) (e : m.getMsg p = (some r, m')) :
    f r = true ∧ r.port = p ∧ m'.Holds (Function.update f r false) ∧ m'.nif = m.nif := by
  unfold Machine.getMsg at e
  cases head : (m.tick.io.queue p).head? with
  | none => simp [head] at e
  | some r' =>
    simp only [head, Prod.mk.injEq, Option.some.injEq] at e
    obtain ⟨rfl, rfl⟩ := e
    obtain ⟨replied, port⟩ := h.tick.sound.head head
    refine ⟨(h.tick.out r').mp fun ours => ?_, port, h.tick.take r', tick_nif m⟩
    rw [replied] at ours
    cases ours

end Holds

/-! ## The flags -/

/-- The flag of a request. `nif->io` has none: it is only sent with `DoIO`. -/
def flag (nif : TnSana2If) : Req → Bool
  | .io => false
  | .tx i => nif.txBusy i
  | .read i => nif.readArmed i
  | .event => nif.eventArmed

/-- The flags of the TX slots. -/
theorem flag_tx (nif : TnSana2If) (i : Nat) (b txPending : Bool) :
    flag { nif with txBusy := Function.update nif.txBusy i b, txPending } =
      Function.update (flag nif) (.tx i) b := by
  funext r
  cases r with
  | tx k => by_cases hk : k = i <;> simp [flag, hk]
  | _ => simp [flag]

/-- The flags of the read slots. -/
theorem flag_read (nif : TnSana2If) (i : Nat) (b : Bool) :
    flag { nif with readArmed := Function.update nif.readArmed i b } =
      Function.update (flag nif) (.read i) b := by
  funext r
  cases r with
  | read k => by_cases hk : k = i <;> simp [flag, hk]
  | _ => simp [flag]

/-- The flag of the event request. -/
theorem flag_event (nif : TnSana2If) (b : Bool) :
    flag { nif with eventArmed := b } = Function.update (flag nif) .event b := by
  funext r
  cases r with
  | event => simp [flag]
  | _ => simp [flag]

/-- Only reads and event requests that exist are flagged. -/
structure Rest (nif : TnSana2If) : Prop where
  read : ∀ i, nif.readArmed i = true → i < nif.nReadIos ∧ nif.readIo i = true
  reads : nif.readIos = false → nif.nReadIos = 0
  event : nif.eventArmed = true → nif.eventIo = true

/-- Only requests that exist are flagged, and the slots of a TX pool all have a request. -/
structure Shape (nif : TnSana2If) : Prop extends Rest nif where
  tx : ∀ i, nif.txBusy i = true → nif.txIos = true ∧ i < nif.nTxIos
  full : nif.txIos = true → ∀ i < nif.nTxIos, nif.txIo i = true

/-- The flags say which requests are outstanding, and no outstanding request has been touched. -/
structure Owns (m : Machine) : Prop where
  holds : m.Holds (flag m.nif)
  shape : Shape m.nif

/-- Two interfaces that differ in the TX slots only. -/
def OnlyTx (a b : TnSana2If) : Prop :=
  ∃ txBusy txPending, b = { a with txBusy, txPending }

/-- Nothing changed is only the transmit slots changed. -/
theorem OnlyTx.refl (a : TnSana2If) : OnlyTx a a := ⟨_, _, rfl⟩

/-- Changes of the transmit slots compose. -/
theorem OnlyTx.trans {a b c : TnSana2If} (h : OnlyTx a b) (h' : OnlyTx b c) : OnlyTx a c := by
  obtain ⟨_, _, rfl⟩ := h
  obtain ⟨_, _, rfl⟩ := h'
  exact ⟨_, _, rfl⟩

/-! ## Sending -/

/-- The slot of a TX request is the one it belongs to. -/
theorem txSlot?_tx {nif : TnSana2If} (hi : i < nif.nTxIos) (set : nif.txIo i = true) :
    txSlot? nif (.tx i) = some i := by
  unfold txSlot?
  rw [List.find?_range_eq_some]
  refine ⟨by simp [set], List.mem_range.mpr hi, fun k hk => ?_⟩
  simp [Nat.ne_of_gt hk]

/-- Ownership depends on the machine and the flags. -/
theorem Owns.of_nif (h : m.Owns) (holds : m'.Holds (flag m.nif)) (same : m'.nif = m.nif) : m'.Owns :=
  ⟨same ▸ holds, same ▸ h.shape⟩

/-- The pool keeps its shape when a flag changes. -/
theorem Shape.put_tx {nif : TnSana2If} (h : Shape nif)
    (slot : b = true → nif.txIos = true ∧ i < nif.nTxIos) (txPending : Bool) :
    Shape { nif with txBusy := Function.update nif.txBusy i b, txPending } := by
  refine ⟨⟨h.read, h.reads, h.event⟩, fun k hk => ?_, h.full⟩
  by_cases eq : k = i
  · subst eq
    exact slot (by simpa using hk)
  · exact h.tx k (by simpa [eq] using hk)

/-- A TX slot gets another flag, with its request. -/
theorem Owns.put_tx (h : Shape m.nif) (holds : m.Holds (Function.update (flag m.nif) (.tx i) b))
    (slot : b = true → m.nif.txIos = true ∧ i < m.nif.nTxIos) (pending : Bool) :
    (m.put fun nif =>
      { nif with txBusy := Function.update nif.txBusy i b, txPending := pending }).Owns := by
  rw [← flag_tx m.nif i b pending] at holds
  exact ⟨holds.put _, h.put_tx slot pending⟩

/-- The drain loop frees the slots whose requests have come back, by induction on the turns. -/
theorem Owns.txDrainLoop (h : m.Owns) (turns : Nat) : (m.txDrainLoop turns).Owns ∧
    OnlyTx m.nif (m.txDrainLoop turns).nif ∧
    ∀ i, (m.txDrainLoop turns).nif.txBusy i = true → m.nif.txBusy i = true := by
  induction turns generalizing m with
  | zero => exact ⟨h, .refl _, fun _ => id⟩
  | succ turns ih =>
    unfold Machine.txDrainLoop
    cases got : m.getMsg .tx with
    | mk msg m' =>
      cases msg with
      | none =>
        obtain ⟨holds, same⟩ := h.holds.getMsg_none got
        exact ⟨h.of_nif holds same, same ▸ .refl _, fun i hi => same ▸ hi⟩
      | some r =>
        obtain ⟨flagged, port, holds, same⟩ := h.holds.getMsg_some got
        cases r with
        | io => cases flagged
        | read i => cases port
        | event => cases port
        | tx i =>
          obtain ⟨pool, hi⟩ := h.shape.tx i flagged
          have shape : Shape m'.nif := same.symm ▸ h.shape
          have found : txSlot? m'.nif (.tx i) = some i := by
            rw [same]
            exact txSlot?_tx hi (h.shape.full pool i hi)
          simp only [found]
          have next := Owns.put_tx (b := false) shape (same.symm ▸ holds) (fun set => nomatch set) false
          obtain ⟨owns, only, fewer⟩ := ih next
          refine ⟨owns, .trans (same ▸ ⟨_, _, rfl⟩) only, fun k hk => ?_⟩
          have := fewer k hk
          by_cases eq : k = i
          · simp [put, eq] at this
          · simpa [put, eq, same] using this

/-- Draining sets no slot busy. -/
theorem Owns.tnS2TxDrain (h : m.Owns) : m.tnS2TxDrain.Owns ∧ OnlyTx m.nif m.tnS2TxDrain.nif ∧
    ∀ i, m.tnS2TxDrain.nif.txBusy i = true → m.nif.txBusy i = true := by
  unfold Machine.tnS2TxDrain
  split
  · exact ⟨h, .refl _, fun _ => id⟩
  · exact h.txDrainLoop _

/-- A step of time. -/
theorem Owns.tick (h : m.Owns) : m.tick.Owns := h.of_nif h.holds.tick (tick_nif m)

/-- A free slot is in the pool and not busy. -/
theorem freeSlot?_some {nif : TnSana2If} (h : freeSlot? nif = some i) :
    i < nif.nTxIos ∧ nif.txBusy i = false := by
  obtain ⟨free, mem, -⟩ := List.find?_range_eq_some.mp h
  exact ⟨List.mem_range.mp mem, by simpa using free⟩

/-- Waiting for a slot only drains, and gives a slot that is free. -/
theorem Owns.awaitSlot (h : m.Owns) (turns : Nat) : (m.awaitSlot turns).2.Owns ∧
    OnlyTx m.nif (m.awaitSlot turns).2.nif ∧
    ∀ i, (m.awaitSlot turns).1 = some i → i < (m.awaitSlot turns).2.nif.nTxIos ∧
      (m.awaitSlot turns).2.nif.txBusy i = false := by
  induction turns generalizing m with
  | zero =>
    unfold Machine.awaitSlot
    cases free : freeSlot? m.nif with
    | none => exact ⟨h, .refl _, fun i hi => nomatch hi⟩
    | some slot => exact ⟨h, .refl _, fun i hi => freeSlot?_some (hi ▸ free)⟩
  | succ turns ih =>
    unfold Machine.awaitSlot
    cases free : freeSlot? m.nif with
    | none =>
      obtain ⟨drained, only, -⟩ := h.tick.tnS2TxDrain
      obtain ⟨owns, only', slot⟩ := ih drained
      rw [tick_nif] at only
      exact ⟨owns, only.trans only', slot⟩
    | some slot => exact ⟨h, .refl _, fun i hi => freeSlot?_some (hi ▸ free)⟩

/-- A frame takes a slot that is not in flight, or goes out with `DoIO`. -/
theorem Owns.tnS2Send (h : m.Owns) (f : Frame) :
    (m.tnS2Send f).2.Owns ∧ OnlyTx m.nif (m.tnS2Send f).2.nif := by
  unfold Machine.tnS2Send
  split
  · exact ⟨h, .refl _⟩
  split
  · rename_i pool
    obtain ⟨drained, only, -⟩ := h.tnS2TxDrain
    obtain ⟨owns, only', slot⟩ := drained.awaitSlot (m.moves.length + 1)
    have only := only.trans only'
    cases got : m.tnS2TxDrain.awaitSlot (m.moves.length + 1) with
    | mk free m' =>
      rw [got] at owns slot only
      cases free with
      | none => exact ⟨owns, only⟩
      | some slot' =>
        obtain ⟨hi, idle⟩ := slot slot' rfl
        have pool' : m'.nif.txIos = true := by
          obtain ⟨_, _, eq⟩ := only
          rw [eq]
          exact pool
        -- the fields, the flag, and then the request goes out
        have filled := (owns.holds.touch (r := .tx slot') idle).write (r := .tx slot') idle
          (·.forFrame f (.tx slot'))
        have flagged := owns.shape.put_tx (fun _ => ⟨pool', hi⟩) true (b := true)
        have sent := (filled.put fun nif => { nif with
          txBusy := Function.update nif.txBusy slot' true, txPending := true }).sendIo
            (r := .tx slot') idle
        rw [← flag_tx m'.nif slot' true true] at sent
        exact ⟨⟨by rw [sendIo_nif]; exact sent, by rw [sendIo_nif]; exact flagged⟩,
          only.trans (by rw [sendIo_nif]; exact ⟨_, _, rfl⟩)⟩
  · have holds : ((m.write .io (·.forFrame f .caller)).doIo .io).Holds (flag m.nif) :=
      (h.holds.write rfl _).doIo rfl
    have owns := h.of_nif holds (by simp)
    dsimp only
    split
    · exact ⟨owns, by simpa using .refl _⟩
    · exact ⟨owns, by simpa using .refl _⟩

/-- Frames that lwIP sends one after the other. -/
theorem Owns.sends (h : m.Owns) (now : List Frame) :
    (now.foldl (fun m f => (m.tnS2Send f).2) m).Owns ∧
      OnlyTx m.nif (now.foldl (fun m f => (m.tnS2Send f).2) m).nif := by
  induction now generalizing m with
  | nil => exact ⟨h, .refl _⟩
  | cons f now ih =>
    obtain ⟨sent, only⟩ := h.tnS2Send f
    obtain ⟨owns, only'⟩ := ih sent
    exact ⟨owns, only.trans only'⟩

/-- A turn of lwIP sends frames only. -/
theorem Owns.lwip (h : m.Owns) : m.lwip.Owns ∧ OnlyTx m.nif m.lwip.nif := by
  unfold Machine.lwip
  cases m.frames with
  | nil => exact ⟨h, .refl _⟩
  | cons now frames =>
    exact Owns.sends (m := { m with frames })
      ⟨⟨h.holds.sound, h.holds.clean, h.holds.out⟩, h.shape⟩ now

/-! ## The TX pool -/

/-- No TX slot is in flight, whatever else the pool is. -/
structure Parked (m : Machine) : Prop where
  holds : m.Holds (flag m.nif)
  idle : ∀ i, m.nif.txBusy i = false
  rest : Rest m.nif

/-- The pool that is being built depends on the machine and the flags. -/
theorem Parked.of_nif (h : m.Parked) (holds : m'.Holds (flag m.nif)) (same : m'.nif = m.nif) :
    m'.Parked :=
  ⟨same ▸ holds, same ▸ h.idle, same ▸ h.rest⟩

/-- The end of a TX request or buffer. -/
theorem Parked.free (h : m.Parked) (k : Nat) (txIo txBufs : Nat → Bool) :
    ((m.touch (.tx k)).put fun nif => { nif with txIo, txBufs }).Parked :=
  ⟨(h.holds.touch (r := .tx k) (h.idle k)).put _, h.idle, ⟨h.rest.read, h.rest.reads, h.rest.event⟩⟩

/-- A slot of the pool is given back. -/
theorem Parked.freeSlot (h : m.Parked) (k : Nat) : ((m.freeTxIo k).freeTxBuf k).Parked := by
  have first : (m.freeTxIo k).Parked := by
    unfold freeTxIo
    split
    · exact h.free k _ m.nif.txBufs
    · exact h
  unfold freeTxBuf
  split
  · exact first.free k (m.freeTxIo k).nif.txIo _
  · exact first

/-- So is the whole pool. -/
theorem Parked.freePool (h : m.Parked) (slots : Nat) : (m.freePool slots).Owns := by
  unfold Machine.freePool
  have free : ((List.range slots).foldl (fun m k => (m.freeTxIo k).freeTxBuf k) m).Parked :=
    List.foldlRecOn _ _ h fun _ h k _ => h.freeSlot k
  revert free
  generalize (List.range slots).foldl (fun m k => (m.freeTxIo k).freeTxBuf k) m = m'
  intro free
  refine ⟨?_, ⟨free.rest.read, free.rest.reads, free.rest.event⟩, fun _ set => (nomatch set), fun set => (nomatch set)⟩
  have same : flag (m'.put fun nif =>
      { nif with txIos := false, txIo := fun _ => false, txBusy := fun _ => false, nTxIos := 0 }).nif
        = flag m'.nif := by
    funext r
    cases r with
    | tx i => exact (free.idle i).symm
    | _ => rfl
  rw [same]
  exact free.holds.put _

/-- The pool is built slot by slot, or given back when memory runs out. -/
theorem Parked.txInitLoop (h : m.Parked) (pool : m.nif.txIos = true) (count : m.nif.nTxIos = i + left)
    (full : ∀ k < i, m.nif.txIo k = true) : (m.txInitLoop i left).2.Owns := by
  induction left generalizing i m with
  | zero =>
    refine ⟨h.holds, h.rest, fun k (set : m.nif.txBusy k = true) => ?_, fun _ k hk => full k ?_⟩
    · rw [h.idle k] at set
      cases set
    · exact lt_of_lt_of_eq hk count
  | succ left ih =>
    unfold Machine.txInitLoop
    cases got : m.alloc with
    | mk room m' =>
    obtain ⟨holds, same⟩ := h.holds.alloc got
    have first := h.of_nif holds same
    cases room with
    | false => exact first.freePool (i + 1)
    | true =>
      -- the request is there, and then its buffer
      have filled : ((m'.write (.tx i) fun _ => {}).put fun nif =>
          { nif with txIo := Function.update nif.txIo i true }).Parked :=
        ⟨(first.holds.write (r := .tx i) (first.idle i) _).put _, first.idle,
          ⟨first.rest.read, first.rest.reads, first.rest.event⟩⟩
      dsimp only
      revert filled
      generalize buf : ((m'.write (.tx i) fun _ => {}).put fun nif =>
          { nif with txIo := Function.update nif.txIo i true }) = m''
      intro filled
      have nif : m''.nif = { m.nif with txIo := Function.update m.nif.txIo i true } := by
        rw [← buf, ← same]
        rfl
      cases got' : m''.alloc with
      | mk room' m₃ =>
      obtain ⟨holds', same'⟩ := filled.holds.alloc got'
      have second := filled.of_nif holds' same'
      cases room' with
      | false => exact second.freePool (i + 1)
      | true =>
        refine ih (i := i + 1) ⟨second.holds.put _, second.idle, ⟨second.rest.read, second.rest.reads, second.rest.event⟩⟩
          ?_ ?_ fun k hk => ?_
        · show m₃.nif.txIos = true
          rw [same', nif]
          exact pool
        · show m₃.nif.nTxIos = i + 1 + left
          rw [same', nif]
          show m.nif.nTxIos = _
          omega
        · show m₃.nif.txIo k = true
          rw [same', nif]
          by_cases eq : k = i
          · simp [eq]
          · simpa [eq] using full k (by omega)

/-- The pool comes up whole or not at all. -/
theorem Owns.tnS2TxInit (h : m.Owns) (count : Nat) : (m.tnS2TxInit count).2.Owns := by
  unfold Machine.tnS2TxInit
  dsimp only
  generalize (if count = 0 ∨ count > 8 then 4 else count) = n
  split
  · exact h
  rename_i noPool
  have idle : ∀ i, m.nif.txBusy i = false := fun i => by
    by_contra busy
    exact noPool (h.shape.tx i (by simpa using busy)).1
  have parked : m.Parked := ⟨h.holds, idle, h.shape.toRest⟩
  cases got : m.alloc with
  | mk ios m' =>
  obtain ⟨holds, same⟩ := h.holds.alloc got
  have first := parked.of_nif holds same
  cases got' : m'.alloc with
  | mk busy m'' =>
  obtain ⟨holds', same'⟩ := first.holds.alloc got'
  have second := first.of_nif holds' same'
  dsimp only
  split
  · exact (h.of_nif holds same).of_nif holds' same'
  · have same : flag (m''.put fun nif =>
        { nif with txIos := true, txIo := fun _ => false, txBusy := fun _ => false, nTxIos := n }).nif
          = flag m''.nif := by
      funext r
      cases r with
      | tx i => exact (second.idle i).symm
      | _ => rfl
    refine Parked.txInitLoop (i := 0) ⟨?_, fun _ => rfl, ⟨second.rest.read, second.rest.reads, second.rest.event⟩⟩ rfl
      (Nat.zero_add n).symm fun k hk => absurd hk (Nat.not_lt_zero k)
    rw [same]
    exact second.holds.put _

/-- A slot's request is taken back, and its flag with it. -/
theorem Owns.retireTx (h : m.Owns) (i : Nat) : (m.retireTx i).Owns ∧ OnlyTx m.nif (m.retireTx i).nif ∧
    ∀ k, (m.retireTx i).nif.txBusy k = true → m.nif.txBusy k = true ∧ k ≠ i := by
  unfold Machine.retireTx
  split
  · have shape : Shape (m.retire (.tx i)).nif := (retire_nif m _).symm ▸ h.shape
    have holds := h.holds.retire (.tx i)
    rw [← retire_nif m (.tx i)] at holds
    refine ⟨Owns.put_tx (b := false) shape holds (fun set => nomatch set) _, ?_, fun k hk => ?_⟩
    · rw [← retire_nif m (.tx i)]
      exact ⟨_, _, rfl⟩
    · by_cases eq : k = i
      · simp [put, eq] at hk
      · exact ⟨by simpa [put, eq] using hk, eq⟩
  · rename_i not
    refine ⟨h, .refl _, fun k hk => ⟨hk, ?_⟩⟩
    rintro rfl
    obtain ⟨pool, lt⟩ := h.shape.tx k hk
    exact not (by simp [hk, h.shape.full pool k lt])

/-- Aborting the slots of a list makes each of them free. -/
theorem Owns.retireAll (h : m.Owns) (l : List Nat) : (l.foldl Machine.retireTx m).Owns ∧
    OnlyTx m.nif (l.foldl Machine.retireTx m).nif ∧
    ∀ k, (l.foldl Machine.retireTx m).nif.txBusy k = true → m.nif.txBusy k = true ∧ k ∉ l := by
  induction l generalizing m with
  | nil => exact ⟨h, .refl _, fun k hk => ⟨hk, List.not_mem_nil⟩⟩
  | cons i l ih =>
    obtain ⟨owns, only, fewer⟩ := h.retireTx i
    obtain ⟨owns', only', fewer'⟩ := ih owns
    refine ⟨owns', only.trans only', fun k hk => ?_⟩
    obtain ⟨busy, notIn⟩ := fewer' k hk
    obtain ⟨busy', ne⟩ := fewer k busy
    exact ⟨busy', fun mem => (List.mem_cons.mp mem).elim ne notIn⟩

/-- What is left in flight is taken back before anything is freed. -/
theorem Owns.tnS2TxAbortAll (h : m.Owns) :
    m.tnS2TxAbortAll.Owns ∧ ∀ i, m.tnS2TxAbortAll.nif.txBusy i = false := by
  unfold Machine.tnS2TxAbortAll
  split
  · rename_i none
    refine ⟨h, fun i => ?_⟩
    by_contra busy
    rw [(h.shape.tx i (by simpa using busy)).1] at none
    cases none
  · obtain ⟨retired, -, fewer⟩ := h.retireAll (List.range m.nif.nTxIos)
    obtain ⟨drained, -, fewer'⟩ := retired.tnS2TxDrain
    dsimp only
    revert fewer'
    generalize ((List.range m.nif.nTxIos).foldl Machine.retireTx m).tnS2TxDrain = m' at drained
    intro fewer'
    have idle : ∀ i, m'.nif.txBusy i = false := fun i => by
      by_contra busy
      obtain ⟨busy, notIn⟩ := fewer i (fewer' i (by simpa using busy))
      exact notIn (List.mem_range.mpr (h.shape.tx i busy).2)
    have freed := Parked.freePool ⟨drained.holds, idle, drained.shape.toRest⟩ m'.nif.nTxIos
    exact ⟨⟨freed.holds.put _, ⟨freed.shape.read, freed.shape.reads, freed.shape.event⟩, freed.shape.tx, freed.shape.full⟩,
      fun i => rfl⟩

/-! ## Reads -/

/-- A read gets another flag, with its request. -/
theorem Owns.put_read (h : Shape m.nif) (holds : m.Holds (Function.update (flag m.nif) (.read i) b))
    (slot : b = true → i < m.nif.nReadIos ∧ m.nif.readIo i = true) :
    (m.put fun nif => { nif with readArmed := Function.update nif.readArmed i b }).Owns := by
  rw [← flag_read m.nif i b] at holds
  refine ⟨holds.put _, ⟨fun k hk => ?_, h.reads, h.event⟩, h.tx, h.full⟩
  by_cases eq : k = i
  · subst eq
    exact slot (by simpa [put] using hk)
  · exact h.read k (by simpa [put, eq] using hk)

/-- Two interfaces that differ in the flags of the reads only. -/
def OnlyArmed (a b : TnSana2If) : Prop := ∃ readArmed, b = { a with readArmed }

/-- Only the armed reads are different. -/
theorem OnlyArmed.of_nif {a b : TnSana2If} (same : b = a) (readArmed : Nat → Bool) :
    OnlyArmed a { b with readArmed } := ⟨readArmed, by rw [same]⟩

/-- A read is armed again, and nothing else changes. -/
theorem Owns.rearmRead (h : m.Owns) (hi : i < m.nif.nReadIos) :
    (m.rearmRead i).Owns ∧ OnlyArmed m.nif (m.rearmRead i).nif := by
  unfold Machine.rearmRead
  split
  · rename_i unarmed
    rw [Bool.and_eq_true, Bool.not_eq_true'] at unarmed
    have sent := (h.holds.write (r := .read i) unarmed.2 (·.reread m.nif.mtu)).sendIo (r := .read i)
      unarmed.2
    have same : ((m.write (.read i) (·.reread m.nif.mtu)).sendIo (.read i)).nif = m.nif := sendIo_nif _ _
    refine ⟨Owns.put_read (b := true) (same.symm ▸ h.shape) (same.symm ▸ sent) fun _ => ?_,
      .of_nif same _⟩
    rw [same]
    exact ⟨hi, unarmed.1⟩
  · exact ⟨h, _, rfl⟩

/-- So are the reads of a list. -/
theorem Owns.rearm (h : m.Owns) {l : List Nat} (hl : ∀ i ∈ l, i < m.nif.nReadIos) :
    (l.foldl Machine.rearmRead m).Owns ∧ OnlyArmed m.nif (l.foldl Machine.rearmRead m).nif := by
  induction l generalizing m with
  | nil => exact ⟨h, _, rfl⟩
  | cons i l ih =>
    obtain ⟨owns, armed, eq⟩ := h.rearmRead (hl i List.mem_cons_self)
    obtain ⟨owns', armed', eq'⟩ := ih owns fun k hk => by
      rw [eq]
      exact hl k (List.mem_cons_of_mem _ hk)
    exact ⟨owns', armed', by rw [List.foldl_cons, eq', eq]⟩

/-- And all reads. -/
theorem Owns.tnS2RearmReads (h : m.Owns) :
    m.tnS2RearmReads.Owns ∧ OnlyArmed m.nif m.tnS2RearmReads.nif := by
  unfold Machine.tnS2RearmReads
  split
  · exact ⟨h, _, rfl⟩
  · exact h.rearm fun i hi => List.mem_range.mp hi

/-- The flags that are left when one is gone. -/
theorem left_of_update {a : Nat → Bool} (hk : Function.update a k false i = true) :
    a i = true ∧ i ≠ k := by
  by_cases eq : i = k
  · simp [eq] at hk
  · exact ⟨by simpa [eq] using hk, eq⟩

/-- The end of a slot that is not armed. -/
theorem Owns.freeRead (h : m.Owns) (idle : m.nif.readArmed k = false) :
    ((m.freeReadBuf k).freeReadIo k).Owns ∧
      ((m.freeReadBuf k).freeReadIo k).nif.readArmed = m.nif.readArmed ∧
      ((m.freeReadBuf k).freeReadIo k).nif.txBusy = m.nif.txBusy := by
  have first : (m.freeReadBuf k).Owns ∧ (m.freeReadBuf k).nif.readArmed = m.nif.readArmed ∧
      (m.freeReadBuf k).nif.txBusy = m.nif.txBusy := by
    unfold freeReadBuf
    split
    · exact ⟨⟨(h.holds.touch (r := .read k) idle).put _, ⟨h.shape.read, h.shape.reads, h.shape.event⟩,
        h.shape.tx, h.shape.full⟩, rfl, rfl⟩
    · exact ⟨h, rfl, rfl⟩
  obtain ⟨h, armed, busy⟩ := first
  rw [← armed] at idle
  refine ⟨⟨(h.holds.touch (r := .read k) idle).put _, ⟨fun i hi => ?_, h.shape.reads, h.shape.event⟩,
    h.shape.tx, h.shape.full⟩, armed, busy⟩
  obtain ⟨lt, set⟩ := h.shape.read i hi
  refine ⟨lt, ?_⟩
  have ne : i ≠ k := by
    rintro rfl
    rw [show (m.freeReadBuf i).nif.readArmed i = true from hi] at idle
    cases idle
  simpa [freeReadIo, put, ne] using set

/-- What the end of a slot comes to: it is not armed any more, and nothing else changes. -/
structure Ended (m m' : Machine) (k : Nat) : Prop where
  owns : m'.Owns
  armed : ∀ i, m'.nif.readArmed i = true → m.nif.readArmed i = true ∧ i ≠ k
  busy : m'.nif.txBusy = m.nif.txBusy

/-- A read that is not armed is given back. -/
theorem Owns.ended (h : m.Owns) (idle : m.nif.readArmed k = false) :
    Ended m ((m.freeReadBuf k).freeReadIo k) k := by
  obtain ⟨owns, armed, busy⟩ := h.freeRead idle
  refine ⟨owns, fun i hi => ?_, busy⟩
  rw [armed] at hi
  refine ⟨hi, ?_⟩
  rintro rfl
  rw [hi] at idle
  cases idle

/-- The end of a slot whose request has been taken back. -/
theorem Owns.ended_back (h : m.Owns) (holds : m'.Holds (Function.update (flag m.nif) (.read k) false))
    (same : m'.nif = m.nif) :
    Ended m (((m'.put fun nif => { nif with
      readArmed := Function.update nif.readArmed k false }).freeReadBuf k).freeReadIo k) k := by
  have owns := Owns.put_read (b := false) (same.symm ▸ h.shape) (same.symm ▸ holds)
    fun set => nomatch set
  obtain ⟨owns, armed, busy⟩ := owns.freeRead (k := k) (by simp [put])
  have sameBusy : m'.nif.txBusy = m.nif.txBusy := by rw [same]
  refine ⟨owns, fun i hi => ?_, busy.trans sameBusy⟩
  rw [armed] at hi
  have := left_of_update (a := m'.nif.readArmed) hi
  rwa [same] at this

/-- A read is given back while the others are being armed. -/
theorem Owns.unwindRead (h : m.Owns) (k : Nat) : Ended m (m.unwindRead k) k := by
  unfold Machine.unwindRead
  dsimp only
  split
  · have holds : ((m.abortIo (.read k)).waitIo (.read k)).Holds _ := h.holds.tick.waitIo (.read k)
    exact h.ended_back holds ((waitIo_nif _ _).trans (tick_nif m))
  · rename_i idle
    exact h.ended (by simpa using idle)

/-- A read is aborted, waited for and given back. -/
theorem Owns.closeRead (h : m.Owns) (k : Nat) : Ended m (m.closeRead k) k := by
  unfold Machine.closeRead
  split
  · dsimp only
    split
    · exact h.ended_back (h.holds.retire (.read k)) (retire_nif m _)
    · rename_i idle
      exact h.ended (by simpa using idle)
  · rename_i none
    refine ⟨h, fun i hi => ⟨hi, ?_⟩, rfl⟩
    rintro rfl
    exact none (h.shape.read i hi).2

/-- The loops that end the slots one by one. -/
theorem Owns.endAll {step : Machine → Nat → Machine} (hs : ∀ m, m.Owns → ∀ k, Ended m (step m k) k)
    (h : m.Owns) (l : List Nat) : (l.foldl step m).Owns ∧
      (∀ i, (l.foldl step m).nif.readArmed i = true → m.nif.readArmed i = true ∧ i ∉ l) ∧
      (l.foldl step m).nif.txBusy = m.nif.txBusy := by
  induction l generalizing m with
  | nil => exact ⟨h, fun i hi => ⟨hi, List.not_mem_nil⟩, rfl⟩
  | cons k l ih =>
    have one := hs m h k
    obtain ⟨owns, armed, busy⟩ := ih one.owns
    refine ⟨owns, fun i hi => ?_, busy.trans one.busy⟩
    obtain ⟨set, notIn⟩ := armed i hi
    obtain ⟨set, ne⟩ := one.armed i set
    exact ⟨set, fun mem => (List.mem_cons.mp mem).elim ne notIn⟩

/-- The end of the pool, when no read is armed. -/
theorem Owns.freeReads (h : m.Owns) (idle : ∀ i, m.nif.readArmed i = false) : m.freeReads.Owns := by
  refine ⟨h.holds.put _, ⟨fun i (hi : m.nif.readArmed i = true) => ?_, fun _ => rfl, h.shape.event⟩,
    h.shape.tx, h.shape.full⟩
  rw [idle i] at hi
  cases hi

/-- The reads from `i` on are given back. -/
theorem Owns.unwindReads (h : m.Owns) (idle : ∀ k, i ≤ k → m.nif.readArmed k = false) :
    (m.unwindReads i).Owns := by
  obtain ⟨owns, armed, -⟩ := h.endAll (fun _ h k => h.unwindRead k) (List.range i)
  refine owns.freeReads fun k => ?_
  by_contra set
  obtain ⟨set, notIn⟩ := armed k (by simpa using set)
  rw [idle k (by simpa using notIn)] at set
  cases set

/-- A read gets its request and buffer and is sent, or its slot stays empty. -/
theorem Owns.armRead (h : m.Owns) (idle : m.nif.readArmed i = false) (hi : i < m.nif.nReadIos) :
    (m.armRead i).Owns ∧ ∃ readIo readBufs, (m.armRead i).nif =
      { m.nif with readIo, readBufs, readArmed := Function.update m.nif.readArmed i true } := by
  unfold Machine.armRead
  extract_lets m₁ m₂ m₃
  have same : m₃.nif = { m.nif with
      readIo := Function.update m.nif.readIo i true
      readBufs := Function.update m.nif.readBufs i true } := sendIo_nif _ _
  have sent : m₃.Holds (Function.update (flag m₃.nif) (.read i) true) := by
    rw [same]
    exact ((h.holds.write (r := .read i) idle _).put _).sendIo (r := .read i) idle
  refine ⟨Owns.put_read (b := true) ?_ sent fun _ => ?_, _, _, by rw [put, same]⟩
  · rw [same]
    refine ⟨⟨fun k hk => ?_, h.shape.reads, h.shape.event⟩, h.shape.tx, h.shape.full⟩
    obtain ⟨lt, set⟩ := h.shape.read k hk
    refine ⟨lt, ?_⟩
    by_cases eq : k = i
    · simp [eq]
    · simpa [eq] using set
  · rw [same]
    exact ⟨hi, by simp⟩

/-- Each turn arms one slot, or takes all slots down again. -/
theorem Owns.armReadsLoop (h : m.Owns) (count : m.nif.nReadIos = i + left)
    (idle : ∀ k, i ≤ k → m.nif.readArmed k = false) : (m.armReadsLoop i left).2.Owns := by
  induction left generalizing i m with
  | zero => exact h
  | succ left ih =>
    unfold Machine.armReadsLoop
    cases got : m.alloc with
    | mk room m' =>
    obtain ⟨holds, same⟩ := h.holds.alloc got
    have first := h.of_nif holds same
    rw [← same] at idle count
    cases room with
    | false => exact first.unwindReads idle
    | true =>
      dsimp only
      cases got' : m'.alloc with
      | mk room' m₂ =>
      obtain ⟨holds', same'⟩ := first.holds.alloc got'
      have second := first.of_nif holds' same'
      rw [← same'] at idle count
      cases room' with
      | false =>
        have freed := second.holds.touch (r := .read i) (idle i (Nat.le_refl i))
        exact (second.of_nif freed rfl).unwindReads idle
      | true =>
        obtain ⟨owns, _, _, eq⟩ := second.armRead (idle i (Nat.le_refl i)) (by omega)
        refine ih owns ?_ fun k hk => ?_
        · rw [eq]
          show m₂.nif.nReadIos = _
          omega
        · rw [eq]
          simpa [Nat.ne_of_gt hk] using idle k (by omega)

/-- The reads are armed, or all of them are given back. -/
theorem Owns.tnS2ArmReads (h : m.Owns) : m.tnS2ArmReads.2.Owns := by
  unfold Machine.tnS2ArmReads
  split
  · exact h
  split
  · exact h
  rename_i none
  have idle : ∀ k, m.nif.readArmed k = false := fun k => by
    by_contra set
    have := (h.shape.read k (by simpa using set)).1
    rw [h.shape.reads (by simpa using none)] at this
    omega
  cases got : m.alloc with
  | mk room m' =>
  obtain ⟨holds, same⟩ := h.holds.alloc got
  have first := h.of_nif holds same
  rw [← same] at idle
  cases room with
  | false => exact first
  | true =>
    refine Owns.armReadsLoop (i := 0) ⟨first.holds.put _, ⟨fun k hk => ?_, fun set => (nomatch set),
      first.shape.event⟩, first.shape.tx, first.shape.full⟩ rfl fun k _ => idle k
    have set : m'.nif.readArmed k = true := hk
    rw [idle k] at set
    cases set

/-! ## Link events -/

/-- The event request gets another flag. -/
theorem Owns.put_event (h : Shape m.nif) (holds : m.Holds (Function.update (flag m.nif) .event b))
    (there : b = true → m.nif.eventIo = true) :
    (m.put fun nif => { nif with eventArmed := b }).Owns := by
  rw [← flag_event m.nif b] at holds
  exact ⟨holds.put _, ⟨h.read, h.reads, there⟩, h.tx, h.full⟩

/-- The event request is sent. -/
theorem Owns.sendEvent (h : m.Owns) (idle : m.nif.eventArmed = false) (there : m.nif.eventIo = true) :
    m.sendEvent.Owns ∧ m.sendEvent.nif = { m.nif with eventArmed := true } := by
  unfold Machine.sendEvent
  extract_lets m₁
  have same : (m₁.sendIo .event).nif = m.nif := sendIo_nif _ _
  have sent := (h.holds.write (r := .event) idle fun r =>
    { r with ioCommand := .onevent, wireError := m.nif.eventMask, ioError := 0 }).sendIo
      (r := .event) idle
  refine ⟨Owns.put_event (b := true) (same.symm ▸ h.shape) (same.symm ▸ sent) fun _ => ?_, ?_⟩
  · rw [same]
    exact there
  · rw [put, same]

/-- Link events are asked for. -/
theorem Owns.tnS2ArmEvents (h : m.Owns) (mask : Nat) : (m.tnS2ArmEvents mask).2.Owns := by
  unfold Machine.tnS2ArmEvents
  split
  · exact h
  split
  · exact h
  rename_i none
  split
  · exact h
  have idle : m.nif.eventArmed = false := by
    by_contra set
    exact none (h.shape.event (by simpa using set))
  cases got : m.alloc with
  | mk room m' =>
  obtain ⟨holds, same⟩ := h.holds.alloc got
  have first := h.of_nif holds same
  rw [← same] at idle
  cases room with
  | false => exact first
  | true =>
    dsimp only
    cases got' : m'.alloc with
    | mk room' m₂ =>
    obtain ⟨holds', same'⟩ := first.holds.alloc got'
    have second := first.of_nif holds' same'
    rw [← same'] at idle
    cases room' with
    | false => exact second
    | true =>
      have up : ((m₂.write .event fun _ => {}).put fun nif =>
          { nif with
            eventPort := true
            eventIo := true
            eventMask := if mask = 0 then s2eventOnline ||| s2eventOffline ||| 1 else mask
            eventSupported := true }).Owns :=
        ⟨(second.holds.write (r := .event) idle _).put _, ⟨second.shape.read, second.shape.reads,
          fun _ => rfl⟩, second.shape.tx, second.shape.full⟩
      exact (up.sendEvent idle rfl).1

/-- Two interfaces that differ in nothing that says whether an event request is there or is armed. -/
def SameEvent (a b : TnSana2If) : Prop := b.eventIo = a.eventIo ∧ b.eventArmed = a.eventArmed

/-- Sending leaves the event request alone. -/
theorem OnlyTx.sameEvent {a b : TnSana2If} (h : OnlyTx a b) : SameEvent a b := by
  obtain ⟨_, _, rfl⟩ := h
  exact ⟨rfl, rfl⟩

/-- The same event state, twice. -/
theorem SameEvent.trans {a b c : TnSana2If} (h : SameEvent a b) (h' : SameEvent b c) : SameEvent a c :=
  ⟨h'.1.trans h.1, h'.2.trans h.2⟩

/-- A change of the link flags and of `txPending`, which no request depends on. -/
theorem Owns.put_link (h : m.Owns) (linkDown txPending linkUp : Bool) :
    ({ m.put fun nif => { nif with linkDown, txPending } with linkUp } : Machine).Owns :=
  ⟨⟨h.holds.sound, h.holds.clean, h.holds.out⟩, ⟨h.shape.read, h.shape.reads, h.shape.event⟩,
    h.shape.tx, h.shape.full⟩

/-- The callback after a change of the link. -/
theorem Owns.link (h : m.Owns) (linkDown txPending linkUp : Bool) :
    (Machine.lwip { m.put fun nif => { nif with linkDown, txPending } with linkUp }).Owns ∧
      SameEvent m.nif
        (Machine.lwip { m.put fun nif => { nif with linkDown, txPending } with linkUp }).nif := by
  obtain ⟨owns, only⟩ := (h.put_link linkDown txPending linkUp).lwip
  exact ⟨owns, only.sameEvent⟩

/-- An event takes the link down or brings it up. -/
theorem Owns.tnS2HandleEventBits (h : m.Owns) (bits : Nat) :
    (m.tnS2HandleEventBits bits).Owns ∧ SameEvent m.nif (m.tnS2HandleEventBits bits).nif := by
  unfold Machine.tnS2HandleEventBits
  extract_lets down m₁ up m₂
  have first : m₁.Owns ∧ SameEvent m.nif m₁.nif := by
    unfold m₁
    split
    · exact h.link true m.nif.txPending false
    · exact ⟨h, rfl, rfl⟩
  split
  · obtain ⟨owns, same⟩ := first.1.link false false true
    obtain ⟨rearmed, _, eq⟩ := owns.tnS2RearmReads
    obtain ⟨last, only⟩ := rearmed.lwip
    refine ⟨last, (first.2.trans same).trans ?_⟩
    rw [eq] at only
    exact only.sameEvent
  · exact first

/-- The tracking of events, which no request depends on. -/
theorem Owns.put_tracking (h : m.Owns) (eventSupported : Bool) (eventStrikes : Nat) :
    (m.put fun nif => { nif with eventSupported, eventStrikes }).Owns :=
  ⟨h.holds.put _, ⟨h.shape.read, h.shape.reads, h.shape.event⟩, h.shape.tx, h.shape.full⟩

/-- What the event port gives is the event request, which is not armed from then on. -/
theorem Owns.takeEvent (h : m.Owns) (got : m.getMsg .event = (some r, m')) (handled : Nat) :
    m.nif.eventArmed = true ∧ (m'.takeEvent handled).Owns ∧
      (m'.takeEvent handled).nif.eventIo = true := by
  obtain ⟨flagged, port, holds, same⟩ := h.holds.getMsg_some got
  have event : r = .event := by
    cases r with
    | event => rfl
    | _ => cases port
  subst event
  rw [← same] at holds
  have taken := Owns.put_event (b := false) (same ▸ h.shape) holds fun set => (nomatch set)
  refine ⟨flagged, ⟨⟨taken.holds.sound, taken.holds.clean, taken.holds.out⟩, taken.shape⟩, ?_⟩
  show m'.nif.eventIo = true
  rw [same]
  exact h.shape.event flagged

/-- The event request is taken from its port, handled, and goes out once more. -/
theorem Owns.pollEventsLoop (h : m.Owns) (handled turns : Nat) :
    (m.pollEventsLoop handled turns).Owns := by
  induction turns generalizing handled m with
  | zero => exact h
  | succ turns ih =>
    unfold Machine.pollEventsLoop
    cases got : m.getMsg .event with
    | mk msg m' =>
    cases msg with
    | none =>
      obtain ⟨holds, same⟩ := h.holds.getMsg_none got
      exact h.of_nif holds same
    | some r =>
      obtain ⟨-, taken, there⟩ := h.takeEvent got handled
      have idle : (m'.takeEvent handled).nif.eventArmed = false := rfl
      dsimp only
      generalize m'.takeEvent handled = m₁ at taken idle there ⊢
      split
      · exact ih (taken.put_tracking false m₁.nif.eventStrikes) handled
      · obtain ⟨owns, io, armed⟩ := taken.tnS2HandleEventBits (m₁.req .event).wireError
        rw [there] at io
        rw [idle] at armed
        generalize m₁.tnS2HandleEventBits (m₁.req .event).wireError = m₂ at owns io armed ⊢
        split
        · have struck := owns.put_tracking m₂.nif.eventSupported ((m₂.nif.eventStrikes + 1) % 2 ^ 16)
          split
          · exact struck.put_tracking false _
          · exact (struck.sendEvent armed io).1
        · exact ih (owns.sendEvent armed io).1 (handled + 1)

/-- A poll takes the event request back and sends it again. -/
theorem Owns.tnS2PollEvents (h : m.Owns) : m.tnS2PollEvents.Owns := by
  unfold Machine.tnS2PollEvents
  split
  · exact h
  · exact h.pollEventsLoop _ _

/-! ## Receiving -/

/-- The slot of a read is the one it belongs to. -/
theorem readSlot?_read {nif : TnSana2If} (hi : i < nif.nReadIos) (set : nif.readIo i = true) :
    readSlot? nif (.read i) = some i := by
  unfold readSlot?
  rw [List.find?_range_eq_some]
  refine ⟨by simp [set], List.mem_range.mpr hi, fun k hk => ?_⟩
  simp [Nat.ne_of_gt hk]

/-- A frame that is passed on may be answered, which changes the TX slots only. -/
theorem Owns.receive (h : m.Owns) (r : Req) :
    (m.receive r).2.Owns ∧ OnlyTx m.nif (m.receive r).2.nif := by
  have next (pbufs : List Pbuf) : ({ m with pbufs } : Machine).Owns :=
    ⟨⟨h.holds.sound, h.holds.clean, h.holds.out⟩, h.shape⟩
  unfold Machine.receive
  split
  · split
    · exact ⟨h, .refl _⟩
    · exact ⟨next _, .refl _⟩
    · exact (next _).lwip
    · exact ⟨next _, .refl _⟩
  · exact ⟨h, .refl _⟩

/-- A read is taken from its port, and goes out once more unless it failed. -/
theorem Owns.pollInputLoop (h : m.Owns) (turns : Nat) : (m.pollInputLoop turns).Owns := by
  induction turns generalizing m with
  | zero => exact h
  | succ turns ih =>
    unfold Machine.pollInputLoop
    cases got : m.getMsg .rx with
    | mk msg m' =>
    cases msg with
    | none =>
      obtain ⟨holds, same⟩ := h.holds.getMsg_none got
      exact h.of_nif holds same
    | some r =>
      obtain ⟨flagged, port, holds, same⟩ := h.holds.getMsg_some got
      cases r with
      | io => cases flagged
      | tx i => cases port
      | event => cases port
      | read i =>
        obtain ⟨hi, set⟩ := h.shape.read i flagged
        rw [← same] at holds hi set
        have shape : Shape m'.nif := same ▸ h.shape
        simp only [readSlot?_read hi set]
        have taken := Owns.put_read (b := false) shape holds fun set => nomatch set
        have idle : (m'.put fun nif => { nif with
          readArmed := Function.update nif.readArmed i false }).nif.readArmed i = false := by simp [put]
        have there : i < (m'.put fun nif => { nif with
              readArmed := Function.update nif.readArmed i false }).nif.nReadIos ∧
            (m'.put fun nif => { nif with
              readArmed := Function.update nif.readArmed i false }).nif.readIo i = true := ⟨hi, set⟩
        revert taken idle there
        generalize (m'.put fun nif => { nif with
          readArmed := Function.update nif.readArmed i false }) = m₁
        intro taken idle there
        split
        · exact ih taken
        · obtain ⟨owns, _, _, only⟩ := taken.receive (.read i)
          rw [← show (m₁.receive (.read i)).2.nif.readArmed = m₁.nif.readArmed by rw [only]] at idle
          rw [← show (m₁.receive (.read i)).2.nif.nReadIos = m₁.nif.nReadIos by rw [only],
            ← show (m₁.receive (.read i)).2.nif.readIo = m₁.nif.readIo by rw [only]] at there
          generalize (m₁.receive (.read i)).2 = m₂ at owns idle there ⊢
          split
          · have sent := (owns.holds.write (r := .read i) idle (·.reread m₂.nif.mtu)).sendIo
              (r := .read i) idle
            have same : ((m₂.write (.read i) (·.reread m₂.nif.mtu)).sendIo (.read i)).nif = m₂.nif :=
              sendIo_nif _ _
            refine ih (Owns.put_read (b := true) (same.symm ▸ owns.shape) (same.symm ▸ sent) fun _ => ?_)
            rw [same]
            exact there
          · exact ih owns

/-- A poll takes reads back and sends them again. -/
theorem Owns.tnSana2PollInput (h : m.Owns) : m.tnSana2PollInput.Owns := by
  unfold Machine.tnSana2PollInput
  split
  · exact h
  · exact h.pollInputLoop _

/-! ## Closing -/

/-- A port without a flagged request is empty. -/
theorem Owns.emptyPort (h : m.Owns) (none : ∀ r, r.port = p → flag m.nif r = false) (turns : Nat) :
    (m.emptyPort p turns).Owns ∧ (m.emptyPort p turns).nif = m.nif := by
  cases turns with
  | zero => exact ⟨h, rfl⟩
  | succ turns =>
    unfold Machine.emptyPort
    cases got : m.getMsg p with
    | mk msg m' =>
    cases msg with
    | none =>
      obtain ⟨holds, same⟩ := h.holds.getMsg_none got
      exact ⟨h.of_nif holds same, same⟩
    | some r =>
      obtain ⟨flagged, port, -, -⟩ := h.holds.getMsg_some got
      rw [none r port] at flagged
      cases flagged

/-- The ports, `nif->io` and `online`, which no flag depends on. -/
theorem Owns.put_ports (h : m.Owns) (io online txPort rxPort eventPort : Bool) :
    (m.put fun nif => { nif with io, online, txPort, rxPort, eventPort }).Owns :=
  ⟨h.holds.put _, ⟨h.shape.read, h.shape.reads, h.shape.event⟩, h.shape.tx, h.shape.full⟩

/-- The event request is taken back before it is freed, so its port is empty. -/
theorem Owns.closeEvents (h : m.Owns) : m.closeEvents.Owns := by
  unfold Machine.closeEvents
  extract_lets m₁ m₂
  have retired : m.nif.eventIo = true → m₁.Owns ∧ m₁.nif.eventArmed = false := fun _ => by
    unfold m₁
    split
    · have same := retire_nif m .event
      exact ⟨Owns.put_event (b := false) (same.symm ▸ h.shape) (same.symm ▸ h.holds.retire .event)
        fun set => (nomatch set), rfl⟩
    · rename_i idle
      exact ⟨h, by simpa using idle⟩
  have freed : m₂.Owns ∧ m₂.nif.eventArmed = false := by
    unfold m₂
    split
    · rename_i there
      obtain ⟨owns, idle⟩ := retired there
      refine ⟨⟨(owns.holds.touch (r := .event) idle).put _, ⟨owns.shape.read, owns.shape.reads,
        fun set => ?_⟩, owns.shape.tx, owns.shape.full⟩, idle⟩
      rw [show m₁.nif.eventArmed = true from set] at idle
      cases idle
    · rename_i none
      refine ⟨h, ?_⟩
      by_contra set
      exact none (h.shape.event (by simpa using set))
  split
  · have empty := freed.1.emptyPort (p := .event) (fun r port => by
      cases r with
      | event => exact freed.2
      | _ => cases port) (m₂.turns .event)
    exact empty.1.put_ports _ _ _ _ false
  · exact freed.1

/-- A command is done at once. -/
theorem Owns.command (h : m.Owns) (g : IOSana2Req → IOSana2Req) :
    (m.command g).Owns ∧ (m.command g).nif = m.nif := by
  have holds : (m.command g).Holds (flag m.nif) := (h.holds.write rfl g).doIo rfl
  have same : (m.command g).nif = m.nif := by simp [Machine.command]
  exact ⟨h.of_nif holds same, same⟩

/-- The slots are ended one by one, and then the pool. -/
theorem Owns.closeReads (h : m.Owns) (l : List Nat) (hl : ∀ i, m.nif.readArmed i = true → i ∈ l) :
    (l.foldl Machine.closeRead m).freeReads.Owns ∧
      (∀ i, (l.foldl Machine.closeRead m).freeReads.nif.readArmed i = false) ∧
      (l.foldl Machine.closeRead m).freeReads.nif.txBusy = m.nif.txBusy := by
  obtain ⟨owns, armed, busy⟩ := h.endAll (fun _ h k => h.closeRead k) l
  have idle : ∀ i, (l.foldl Machine.closeRead m).nif.readArmed i = false := fun i => by
    by_contra set
    obtain ⟨set, notIn⟩ := armed i (by simpa using set)
    exact notIn (hl i set)
  exact ⟨owns.freeReads idle, idle, busy⟩

/-- The commands that take the device offline. -/
theorem Owns.goOffline (h : m.Owns) (f g k : IOSana2Req → IOSana2Req) :
    ((((m.command f).command g).command k).put fun nif => { nif with online := false }).Owns ∧
      (((m.command f).command g).command k).nif = m.nif := by
  obtain ⟨first, same⟩ := h.command f
  obtain ⟨second, same'⟩ := first.command g
  obtain ⟨third, same''⟩ := second.command k
  exact ⟨third.put_ports _ false _ _ _, same''.trans (same'.trans same)⟩

/-- Everything is taken back before it is freed, so the ports are empty at the end. -/
theorem Owns.tnS2OfflineClose (h : m.Owns) : m.tnS2OfflineClose.Owns := by
  unfold Machine.tnS2OfflineClose
  obtain ⟨aborted, idle⟩ := h.closeEvents.tnS2TxAbortAll
  extract_lets _ m₁ _ _ m₂ m₃ m₄ m₅ m₆
  -- The steps are those of the source, in its order.
  have offline : m₃.Owns ∧ ∀ i, m₃.nif.txBusy i = false := by
    unfold m₃
    split
    · obtain ⟨owns, same⟩ := aborted.goOffline _ _ _
      refine ⟨owns, fun i => ?_⟩
      show m₂.nif.txBusy i = false
      rw [same]
      exact idle i
    · exact ⟨aborted, idle⟩
  -- With the reads taken back none is armed.
  have reads : m₄.Owns ∧ (∀ i, m₄.nif.txBusy i = false) ∧ ∀ i, m₄.nif.readArmed i = false := by
    obtain ⟨owns, idle⟩ := offline
    unfold m₄
    split
    · obtain ⟨closed, armed, busy⟩ := owns.closeReads (List.range m₃.nif.nReadIos)
        fun i set => List.mem_range.mpr (owns.shape.read i set).1
      exact ⟨closed, fun i => busy ▸ idle i, armed⟩
    · rename_i none
      refine ⟨owns, idle, fun i => ?_⟩
      by_contra set
      have := (owns.shape.read i (by simpa using set)).1
      rw [owns.shape.reads (by simpa using none)] at this
      omega
  have freed : m₅.Owns ∧ (∀ i, m₅.nif.txBusy i = false) ∧ ∀ i, m₅.nif.readArmed i = false := by
    obtain ⟨owns, idle⟩ := reads
    unfold m₅
    split
    · exact ⟨(owns.of_nif (owns.holds.touch rfl) rfl).put_ports false _ _ _ _, idle⟩
    · exact ⟨owns, idle⟩
  -- So the port of the reads holds nothing to wait for.
  have rx : m₆.Owns ∧ ∀ i, m₆.nif.txBusy i = false := by
    obtain ⟨owns, idle, armed⟩ := freed
    unfold m₆
    split
    · obtain ⟨empty, same⟩ := owns.emptyPort (p := .rx) (fun r port => by
        cases r with
        | read i => exact armed i
        | _ => cases port) (m₅.turns .rx)
      exact ⟨empty.put_ports _ _ _ false _, fun i => (congrArg (·.txBusy i) same).trans (idle i)⟩
    · exact ⟨owns, idle⟩
  obtain ⟨owns, idle⟩ := rx
  split
  · obtain ⟨empty, -⟩ := owns.emptyPort (p := .tx) (fun r port => by
      cases r with
      | io => rfl
      | tx i => exact idle i
      | _ => cases port) (m₆.turns .tx)
    exact empty.put_ports _ _ false _ _
  · exact owns

/-! ## Runs -/

/-- After the setup the software owns every request. -/
theorem opened_owns (mtu : Nat) (fate : Fate) : (opened mtu fate).Owns where
  holds := by
    refine ⟨⟨fun p r => ?_, fun p => List.nodup_nil⟩, rfl, fun r => ?_⟩
    · constructor
      · intro mem
        cases mem
      · rintro ⟨replied, -⟩
        cases replied
    · cases r <;> simp [opened, flag, Io.Outstanding]
  shape := ⟨⟨fun i set => (nomatch set), fun _ => rfl, fun set => (nomatch set)⟩,
    fun i set => (nomatch set), fun set => (nomatch set)⟩

/-- Every call keeps the requests with their owners. -/
theorem Owns.step (h : m.Owns) (call : Call) : (m.step call).Owns := by
  cases call with
  | txInit count => exact h.tnS2TxInit count
  | txDrain => exact h.tnS2TxDrain.1
  | txAbortAll => exact h.tnS2TxAbortAll.1
  | send f => exact (h.tnS2Send f).1
  | armReads => exact h.tnS2ArmReads
  | armEvents mask => exact h.tnS2ArmEvents mask
  | rearmReads => exact h.tnS2RearmReads.1
  | pollEvents => exact h.tnS2PollEvents
  | pollInput => exact h.tnSana2PollInput
  | offlineClose => exact h.tnS2OfflineClose

/-- Every run keeps the ownership. -/
theorem Owns.run (h : m.Owns) (calls : List Call) : (m.run calls).Owns :=
  List.foldlRecOn calls _ h fun _ h call _ => h.step call

/-- **The flags are the outstanding requests.** After any calls, whatever the driver has replied and
when, a flag is set exactly while its request is outstanding; and no outstanding request has been
written, sent once more or freed, nor its buffer. -/
theorem owned_run (mtu : Nat) (fate : Fate) (calls : List Call) :
    (∀ i, ((opened mtu fate).run calls).nif.txBusy i = true ↔
      ((opened mtu fate).run calls).io.Outstanding (.tx i)) ∧
    (∀ i, ((opened mtu fate).run calls).nif.readArmed i = true ↔
      ((opened mtu fate).run calls).io.Outstanding (.read i)) ∧
    (((opened mtu fate).run calls).nif.eventArmed = true ↔
      ((opened mtu fate).run calls).io.Outstanding .event) ∧
    ((opened mtu fate).run calls).fault = false := by
  have owns := (opened_owns mtu fate).run calls
  exact ⟨fun i => (owns.holds.out (.tx i)).symm, fun i => (owns.holds.out (.read i)).symm,
    (owns.holds.out .event).symm, owns.holds.clean⟩

end Machine

end Sana2

end Tolunnet
