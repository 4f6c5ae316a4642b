import Tolunnet.Calls.Datagram
import Tolunnet.Lib.Fifo

/-!
# `Tolunnet.Calls.Delivery`: datagrams from the wire to the client

The queue of a UDP or RAW slot as a first-in first-out queue (`Tolunnet.Lib.Fifo`): lwIP puts datagrams
in by a callback, which may be refused for want of room or memory, and the three receive handlers take
them out, called by the client or, for a request that waits, from inside the callback. `Flow` is the
history of a slot with all of these in any order. `Flow.run` is the refinement and `Flow.delivers` what
follows from it.
-/

set_option autoImplicit false

namespace Tolunnet

open World

namespace Dgram

/-! ## The callback -/

/-- A datagram as the callback of the slot queues it. A raw socket has no port. -/
def packet (w : World) (i : SlotIdx) (seg : List UInt8) (ip port : Nat) : TnRxPacket :=
  { p := seg, srcIp := ip, srcPort := if (w.sockets i).type = sockDgram then port else 0 }

/-- lwIP hands a datagram to the callback of the slot. -/
def arrive (w : World) (i : SlotIdx) (seg : List UInt8) (ip port : Nat) : World :=
  if (w.sockets i).type = sockDgram then tnUdpRecvCb w i seg ip port else tnRawRecvCb w i seg ip

/-- Both callbacks up to `tn_rx_queue_push`, and whether the datagram was queued. -/
def pushDgram (w : World) (i : SlotIdx) (d : TnRxPacket) : World × Bool :=
  let s := w.sockets i
  if ¬ s.inUse ∨ s.rxCount ≥ maxRxQueuePerSocket ∨ tnDgramRcvbufFull s d.p then (w, false)
  else if w.ask.ok then tnRxQueuePushEx w.asked i d.p d.srcIp d.srcPort true
  else (w.asked, false)

/-- The bytes that are queued. -/
def queuedBytes (w : World) (i : SlotIdx) : Nat := ((w.sockets i).rx.map fun d => d.p.length).sum

section
variable {w : World} {i : SlotIdx}

/-- The callback is a push and what announces it. -/
theorem queueDgram_eq (w : World) (i : SlotIdx) (d : TnRxPacket) :
    queueDgram w i d.p d.srcIp d.srcPort =
      if (pushDgram w i d).2 then announceRecv (pushDgram w i d).1 i fdRead
      else (pushDgram w i d).1 := by
  unfold queueDgram pushDgram
  dsimp only
  split
  · rfl
  · split
    · generalize tnRxQueuePushEx w.asked i d.p d.srcIp d.srcPort true = r
      obtain ⟨w', pushed⟩ := r
      cases pushed <;> rfl
    · rfl

/-- What the first part of a callback does: it queues the datagram, or it leaves the slots alone. -/
inductive Pushes (w : World) (i : SlotIdx) (d : TnRxPacket) : World × Bool → Prop
  | queues {w' : World} (below : (w.sockets i).rxCount < maxRxQueuePerSocket)
      (fits : tnDgramRcvbufFull (w.sockets i) d.p = false)
      (slot : w'.sockets i = { w.sockets i with
        rx := (w.sockets i).rx ++ [{ p := d.p, srcIp := d.srcIp, srcPort := d.srcPort }]
        rxCount := (w.sockets i).rxCount + 1
        hist := (w'.sockets i).hist })
      (msgs : w'.msgs = w.msgs) (out : w'.output = w.output) : Pushes w i d (w', true)
  | drops {w' : World} (slots : w'.sockets = w.sockets) : Pushes w i d (w', false)

/-- A datagram enters the queue or is dropped. -/
theorem pushDgram_pushes (w : World) (i : SlotIdx) (d : TnRxPacket) :
    Pushes w i d (pushDgram w i d) := by
  unfold pushDgram tnRxQueuePushEx
  dsimp only
  split
  · exact .drops rfl
  · rename_i room
    rw [not_or, not_or] at room
    split
    · split
      · exact .drops rfl
      · split
        · refine .queues (Nat.lt_of_not_le room.2.1) (Bool.eq_false_iff.mpr room.2.2) ?_ rfl rfl
          simp [modSlot, asked]
        · exact .drops rfl
    · exact .drops rfl

/-- What decides whether a datagram is queued: the slot, and whether there is memory for the clone and
for its record. -/
theorem pushDgram_snd (w : World) (i : SlotIdx) (d : TnRxPacket) : (pushDgram w i d).2 =
    (decide (¬ (¬ (w.sockets i).inUse = true ∨ (w.sockets i).rxCount ≥ maxRxQueuePerSocket ∨
      tnDgramRcvbufFull (w.sockets i) d.p = true)) && (w.ask.ok && w.asked.ask.ok)) := by
  unfold pushDgram tnRxQueuePushEx
  dsimp only
  split
  · rename_i refused
    rw [decide_eq_false (not_not_intro refused)]
    rfl
  · rename_i room
    rw [decide_eq_true room]
    rw [not_or, not_or] at room
    cases w.ask.ok with
    | false => rfl
    | true =>
      have open' : (!(w.asked.sockets i).inUse ||
          true && decide (maxRxQueuePerSocket ≤ (w.asked.sockets i).rxCount)) = false := by
        have below : ¬ maxRxQueuePerSocket ≤ (w.sockets i).rxCount := room.2.1
        have used : (w.sockets i).inUse = true := not_not.mp room.1
        show (!(w.sockets i).inUse || true && decide (maxRxQueuePerSocket ≤ (w.sockets i).rxCount))
          = false
        rw [used, decide_eq_false below]
        rfl
      rw [if_pos rfl, open']
      cases w.asked.ask.ok <;> rfl

/-! ## Announcing -/

/-- A step that reads nothing: it tells clients something, and leaves the queue and the request that
waits for it alone. -/
structure Announces (i : SlotIdx) (w w' : World) : Prop where
  queue : queueOf w' i = queueOf w i
  pending : (w'.sockets i).pending = (w.sockets i).pending
  msgs : w'.msgs = w.msgs
  out : ∃ t, w'.output = t ++ w.output ∧ ∀ o ∈ t, o.tells = true

namespace Announces

theorem refl (w : World) : Announces i w w :=
  ⟨rfl, rfl, rfl, [], rfl, fun _ ho => (List.not_mem_nil ho).elim⟩

/-- Two steps that announce. -/
theorem trans {w' w'' : World} (h : Announces i w w') (h' : Announces i w' w'') :
    Announces i w w'' := by
  obtain ⟨t, out, told⟩ := h.out
  obtain ⟨t', out', told'⟩ := h'.out
  refine ⟨h'.queue.trans h.queue, h'.pending.trans h.pending, h'.msgs.trans h.msgs, t' ++ t, ?_,
    fun o ho => ?_⟩
  · rw [out', out, List.append_assoc]
  · rcases List.mem_append.mp ho with ho | ho
    · exact told' o ho
    · exact told o ho

theorem of_slots {w' : World} (slots : w'.sockets = w.sockets) (msgs : w'.msgs = w.msgs)
    (out : w'.output = w.output) : Announces i w w' :=
  ⟨by rw [queueOf, slots]; rfl, by rw [slots], msgs, [], out, fun _ ho => (List.not_mem_nil ho).elim⟩

theorem tell {o : Output} (told : o.tells = true) : Announces i w (w.out o) :=
  ⟨rfl, rfl, rfl, [o], rfl, fun o' ho => by rw [List.mem_singleton.mp ho]; exact told⟩

/-- The owner of a slot is forgotten. -/
theorem disown : Announces i w
    (w.modSlot i fun s => { s with ownerBase := none, ownerTask := none }) :=
  ⟨by simp [queueOf, modSlot], by simp [modSlot], rfl, [], rfl,
    fun _ ho => (List.not_mem_nil ho).elim⟩

/-- A loop announces when each turn does. -/
theorem foldl {α : Type} (f : World → α → World) (l : List α)
    (each : ∀ w a, Announces i w (f w a)) (w : World) : Announces i w (l.foldl f w) :=
  l.foldlRecOn (motive := Announces i w) f (refl w) fun _ done a _ => done.trans (each _ a)

/-- A selector that names the slot is signalled. -/
theorem signalSelector (j : SlotIdx) (k : Nat) : Announces i w (signalSelector j w k) := by
  unfold Tolunnet.signalSelector
  split
  · exact refl w
  · split
    · split
      · exact refl w
      · split
        · split
          · exact tell rfl
          · exact refl w
        · exact of_slots rfl rfl rfl
    · exact refl w

/-- The owner is woken. -/
theorem tnSignalSocket : Announces i w (tnSignalSocket w i) := by
  have drop : ∀ w : World, Announces i w (dropStaleOwner w i) := by
    intro w
    unfold dropStaleOwner
    split
    · split
      · exact refl w
      · exact disown
    · exact refl w
  have owner : ∀ w : World, Announces i w (signalOwner w i) := by
    intro w
    unfold signalOwner
    split
    · split
      · exact tell rfl
      · exact refl w
    · exact refl w
  have start : ∀ e : Event, Announces i w (signalOwner (dropStaleOwner (w.emit e) i) i) := by
    intro e
    refine trans (trans ?_ (drop (w.emit e))) (owner _)
    exact of_slots rfl rfl rfl
  unfold Tolunnet.tnSignalSocket
  dsimp only
  split
  · split
    · exact start _
    · exact (start _).trans (foldl _ _ (fun _ k => signalSelector i k) _)
  · exact refl w

/-- The event is recorded. -/
theorem tnRecordSocketEvent (e : Nat) : Announces i w (tnRecordSocketEvent w i e) := by
  unfold Tolunnet.tnRecordSocketEvent
  dsimp only
  split
  · split
    · exact refl w
    · split
      · split
        · refine trans (trans ?_ (tell rfl)) (tell rfl)
          exact of_slots rfl rfl rfl
        · refine trans ?_ (tell rfl)
          exact of_slots rfl rfl rfl
      · exact disown
  · exact refl w

end Announces

/-! ## A request that waits -/

/-- The answers that carry a datagram: not those that only peek, and no errors. -/
def handedOut (w w' : World) (m : MsgId) : List Delivery :=
  if 0 ≤ (w'.msgs m).result ∧ peeks (w.msgs m) = false then [delivery w w' m] else []

/-- The answer that the request waiting at the slot gets between two states, if it gets one. -/
def parkedOut (w w' : World) (i : SlotIdx) : List Delivery :=
  match (w.sockets i).pending .recv with
  | none => []
  | some m => if (w'.sockets i).pending .recv = none then handedOut w w' m else []

/-- What a request does to the queue, and what it hands out: the datagram at the head, or nothing. -/
inductive Serves (q : Queue) : Queue → List Delivery → Prop
  | hands {d : TnRxPacket} {rest : List TnRxPacket} {x : Delivery} (head : q.packets = d :: rest)
      (delivers : Delivers d x) : Serves q { q with packets := rest, count := q.count - 1 } [x]
  | keeps : Serves q q []

/-- A request that is served gets the first datagram. -/
theorem handedOut_serves {w' : World} {m : MsgId} {d : TnRxPacket} {rest : List TnRxPacket}
    (head : (w.sockets i).rx = d :: rest) (delivers : Delivers d (delivery w w' m))
    (queue : queueOf w' i = if peeks (w.msgs m) then queueOf w i
      else { queueOf w i with packets := rest, count := (queueOf w i).count - 1 }) :
    Serves (queueOf w i) (queueOf w' i) (handedOut w w' m) := by
  have given : 0 ≤ (w'.msgs m).result := by
    rw [show (w'.msgs m).result = _ from delivers.count]
    exact Int.natCast_nonneg _
  rw [queue]
  unfold handedOut
  cases peeks (w.msgs m) with
  | true =>
    rw [if_pos rfl, if_neg fun h => Bool.noConfusion h.2]
    exact .keeps
  | false =>
    rw [if_neg Bool.false_ne_true, if_pos ⟨given, rfl⟩]
    exact .hands head delivers

theorem handedOut_refused {w' : World} {m : MsgId} (refused : (w'.msgs m).result < 0) :
    handedOut w w' m = [] := if_neg fun h => absurd h.1 (Int.not_le.mpr refused)

/-- A request that has come in. -/
theorem Reads.serves {m : MsgId} {r : World × TnIpcReplyAction} (reads : Reads w m i r) :
    Serves (queueOf w i) (queueOf r.1 i) (if r.2 = .replyNow then handedOut w r.1 m else []) := by
  cases reads with
  | gives d rest head delivers writes queue => exact handedOut_serves head delivers queue
  | refuses refused queue =>
    rw [if_pos rfl, handedOut_refused refused, queue]
    exact .keeps
  | waits parked queue =>
    rw [queue]
    exact .keeps

/-- A waiting request that a handler has answered leaves its field. -/
def unpark (m : MsgId) (i : SlotIdx) : World × TnIpcReplyAction → World
  | (w, .replyNow) =>
    ((w.setPending i .recv none).modSlot i fun s => { s with recvDeadlineTick := 0 }).replyMsg m
  | (w, .defer) => w

/-- A parked read goes through the handler again. -/
theorem tnServicePendingRecv_eq {m : MsgId} (parked : (w.sockets i).pending .recv = some m) :
    tnServicePendingRecv w i = unpark m i (recvHandler w m i) := by
  unfold tnServicePendingRecv
  rw [parked]
  dsimp only
  obtain ⟨w', action⟩ := recvHandler w m i
  cases action <;> rfl

/-- What unparking leaves alone. -/
theorem unpark_replied (w : World) (m : MsgId) (i : SlotIdx) :
    ((unpark m i (w, .replyNow)).sockets i).pending .recv = none ∧
      queueOf (unpark m i (w, .replyNow)) i = queueOf w i ∧
      (unpark m i (w, .replyNow)).msgs = w.msgs ∧ (unpark m i (w, .replyNow)).output = w.output := by
  refine ⟨?_, ?_, rfl, rfl⟩
  · simp [unpark, replyMsg, emit, modSlot, setPending]
  · simp [unpark, queueOf, replyMsg, emit, modSlot, setPending]

/-- A request that waited is served after something was announced. -/
theorem Reads.serves_parked {w1 : World} {m : MsgId} {r : World × TnIpcReplyAction}
    (reads : Reads w1 m i r) (announces : Announces i w w1) :
    Serves (queueOf w i) (queueOf (unpark m i r) i)
      (if ((unpark m i r).sockets i).pending .recv = none then handedOut w (unpark m i r) m
        else []) := by
  obtain ⟨t, out, told⟩ := announces.out
  have same : (w1.sockets i).rx = (w.sockets i).rx := congrArg Queue.packets announces.queue
  cases reads with
  | @gives w' d rest head delivers writes queue =>
    obtain ⟨l, out'⟩ := writes
    obtain ⟨pending2, queue2, msgs2, out2⟩ := unpark_replied w' m i
    have reply : delivery w1 (unpark m i (w', .replyNow)) m = delivery w1 w' m := by
      unfold delivery
      rw [msgs2, added_of_append (out2.trans out'), added_of_append out']
    rw [if_pos pending2]
    refine handedOut_serves (same ▸ head)
      ((reply ▸ delivers).after told out announces.msgs (out2.trans out')) ?_
    rw [queue2, queue, announces.msgs, announces.queue]
  | @refuses w' refused queue =>
    obtain ⟨pending2, queue2, msgs2, -⟩ := unpark_replied w' m i
    rw [if_pos pending2, handedOut_refused (msgs2 ▸ refused), queue2, queue, announces.queue]
    exact .keeps
  | @waits w' parked queue =>
    rw [show unpark m i (w', .defer) = w' from rfl, if_neg parked, queue, announces.queue]
    exact .keeps

/-- After an announcement the parked read is served. -/
theorem announced_serves {w1 : World} (announces : Announces i w w1)
    (portless : (queueOf w i).Portless)
    (kind : (w.sockets i).type = sockDgram ∨ (w.sockets i).type = sockRaw) :
    Serves (queueOf w i) (queueOf (tnServicePendingRecv w1 i) i)
      (parkedOut w (tnServicePendingRecv w1 i) i) := by
  have kind1 : (w1.sockets i).type = sockDgram ∨ (w1.sockets i).type = sockRaw := by
    rw [show (w1.sockets i).type = (w.sockets i).type from congrArg Queue.kind announces.queue]
    exact kind
  unfold parkedOut
  rw [← announces.pending]
  cases parked : (w1.sockets i).pending .recv with
  | none =>
    rw [← announces.queue, tnServicePendingRecv, parked]
    exact .keeps
  | some m =>
    rw [tnServicePendingRecv_eq parked]
    exact (recvHandler_reads (announces.queue ▸ portless) kind1).serves_parked announces

end

/-! ## The queue over a step -/

/-- What holds of the queue of a datagram slot at all times. -/
structure Queue.Sound (q : Queue) : Prop where
  count : q.count = q.packets.length
  kind : q.kind = sockDgram ∨ q.kind = sockRaw
  portless : q.Portless

/-- A queue with one more datagram at its end. -/
def Queue.push (q : Queue) (d : TnRxPacket) : Queue :=
  { q with packets := q.packets ++ [d], count := q.count + 1 }

section
variable {q q' : Queue} {came : List TnRxPacket} {given out : List Delivery}

/-- A queue that is served stays sound. -/
theorem Serves.sound (serves : Serves q q' out) (sound : q.Sound) : q'.Sound := by
  cases serves with
  | hands head delivers =>
    refine ⟨?_, sound.kind, fun raw d hd => ?_⟩
    · show q.count - 1 = _
      rw [sound.count, head]
      rfl
    · refine sound.portless raw d ?_
      rw [head]
      exact List.mem_cons_of_mem _ hd
  | keeps => exact sound

/-- What is handed out is for the datagram at the head. -/
theorem Serves.run (serves : Serves q q' out) (run : Fifo.Run Delivers came given q.packets) :
    Fifo.Run Delivers came (given ++ out) q'.packets := by
  cases serves with
  | hands head delivers =>
    rw [head] at run
    exact run.pop delivers
  | keeps =>
    rw [List.append_nil]
    exact run

/-- So does one that gets a datagram. -/
theorem Queue.Sound.push (sound : q.Sound) {d : TnRxPacket}
    (port : q.kind ≠ sockDgram → d.srcPort = 0) : (q.push d).Sound := by
  refine ⟨?_, sound.kind, fun raw d' hd => ?_⟩
  · show q.count + 1 = (q.packets ++ [d]).length
    rw [sound.count, List.length_append]
    rfl
  · rcases List.mem_append.mp hd with hd | hd
    · exact sound.portless raw d' hd
    · rw [List.mem_singleton.mp hd]
      exact port raw

end

section
variable {w : World} {i : SlotIdx}

/-- The two callbacks differ in what lwIP does with the pbuf. -/
theorem arrive_eq (w : World) (i : SlotIdx) (seg : List UInt8) (ip port : Nat) :
    ∃ w1 : World, w1.sockets = w.sockets ∧ w1.msgs = w.msgs ∧ w1.output = w.output ∧
      (pushDgram w1 i (packet w i seg ip port)).2 = (pushDgram w i (packet w i seg ip port)).2 ∧
      arrive w i seg ip port =
        if (pushDgram w1 i (packet w i seg ip port)).2 then
          announceRecv (pushDgram w1 i (packet w i seg ip port)).1 i fdRead
        else (pushDgram w1 i (packet w i seg ip port)).1 := by
  unfold arrive
  by_cases udp : (w.sockets i).type = sockDgram
  · have same : packet w i seg ip port = { p := seg, srcIp := ip, srcPort := port } := by
      rw [packet, if_pos udp]
    refine ⟨w.emit (.pbufFree seg), rfl, rfl, rfl, ?_, ?_⟩
    · rw [pushDgram_snd, pushDgram_snd]
      rfl
    · rw [if_pos udp, same]
      exact queueDgram_eq (w.emit (.pbufFree seg)) i { p := seg, srcIp := ip, srcPort := port }
  · have same : packet w i seg ip port = { p := seg, srcIp := ip, srcPort := 0 } := by
      rw [packet, if_neg udp]
    refine ⟨w, rfl, rfl, rfl, rfl, ?_⟩
    rw [if_neg udp, same]
    exact queueDgram_eq w i { p := seg, srcIp := ip, srcPort := 0 }

/-- A datagram that is not queued changes nothing in any slot. -/
theorem sockets_arrive_of_dropped (seg : List UInt8) (ip port : Nat)
    (dropped : (pushDgram w i (packet w i seg ip port)).2 = false) :
    (arrive w i seg ip port).sockets = w.sockets := by
  obtain ⟨w1, slots, -, -, same, run⟩ := arrive_eq w i seg ip port
  rw [dropped] at same
  rw [run, same, if_neg Bool.false_ne_true]
  have pushes := pushDgram_pushes w1 i (packet w i seg ip port)
  generalize pushDgram w1 i (packet w i seg ip port) = r at pushes same
  cases pushes with
  | queues => cases same
  | drops slots' => exact slots'.trans slots

/-- What a parked read gets depends on three fields. -/
theorem parkedOut_congr {w1 w' : World} (slots : (w1.sockets i).pending = (w.sockets i).pending)
    (msgs : w1.msgs = w.msgs) (out : w1.output = w.output) :
    parkedOut w w' i = parkedOut w1 w' i := by
  unfold parkedOut handedOut delivery added
  rw [slots, msgs, out]

theorem parkedOut_of_pending {w' : World} (same : (w'.sockets i).pending = (w.sockets i).pending) :
    parkedOut w w' i = [] := by
  unfold parkedOut
  rw [same]
  cases (w.sockets i).pending .recv with
  | none => rfl
  | some m => exact if_neg (Option.some_ne_none m)

/-- A datagram that is queued is there for the request that waits. -/
theorem arrive_serves (sound : (queueOf w i).Sound) {seg : List UInt8} {ip port : Nat}
    (queued : (pushDgram w i (packet w i seg ip port)).2 = true) :
    Serves ((queueOf w i).push (packet w i seg ip port)) (queueOf (arrive w i seg ip port) i)
      (parkedOut w (arrive w i seg ip port) i) := by
  have pushed := sound.push (d := packet w i seg ip port) fun raw => if_neg raw
  obtain ⟨w1, slots, msgs, out, same, run⟩ := arrive_eq w i seg ip port
  rw [queued] at same
  rw [run, same, if_pos rfl]
  have pushes := pushDgram_pushes w1 i (packet w i seg ip port)
  generalize pushDgram w1 i (packet w i seg ip port) = r at pushes same
  cases pushes with
  | drops => cases same
  | @queues w2 below fits slot msgs2 out2 =>
    rw [slots] at slot
    have queue : queueOf w2 i = (queueOf w i).push (packet w i seg ip port) := by
      rw [queueOf, slot]
      rfl
    have pending : (w2.sockets i).pending = (w.sockets i).pending := by rw [slot]
    rw [← queue] at pushed ⊢
    rw [parkedOut_congr pending (msgs2.trans msgs) (out2.trans out)]
    exact announced_serves (Announces.tnSignalSocket.trans (Announces.tnRecordSocketEvent fdRead))
      pushed.portless pushed.kind

end

/-! ## Histories -/

/-- The history of a slot from `w0` on, with the datagrams that were queued and the answers that
carried one. A datagram arrives, with or without room and memory; `SO_RCVBUF` is set; a receive request
comes in; anything else happens that leaves the queue of the slot alone. -/
inductive Flow (i : SlotIdx) (w0 : World) : List TnRxPacket → List Delivery → World → Prop
  | start : Flow i w0 [] [] w0
  | arrives {came : List TnRxPacket} {given : List Delivery} {w : World} (seg : List UInt8)
      (ip port : Nat) (past : Flow i w0 came given w) :
      Flow i w0
        (came ++ if (pushDgram w i (packet w i seg ip port)).2 then [packet w i seg ip port] else [])
        (given ++ parkedOut w (arrive w i seg ip port) i) (arrive w i seg ip port)
  | rcvbuf {came : List TnRxPacket} {given : List Delivery} {w : World} (v : Int)
      (past : Flow i w0 came given w) :
      Flow i w0 came given (modOpts w i fun o => { o with rcvbuf := v })
  | call {came : List TnRxPacket} {given : List Delivery} {w : World} (m : MsgId)
      (past : Flow i w0 came given w) :
      Flow i w0 came
        (given ++ if (recvHandler w m i).2 = .replyNow then handedOut w (recvHandler w m i).1 m else [])
        (recvHandler w m i).1
  | elsewhere {came : List TnRxPacket} {given : List Delivery} {w w' : World}
      (past : Flow i w0 came given w) (same : queueOf w' i = queueOf w i) : Flow i w0 came given w'

/-- A UDP or RAW slot with nothing queued. -/
structure Idle (w : World) (i : SlotIdx) : Prop where
  kind : (w.sockets i).type = sockDgram ∨ (w.sockets i).type = sockRaw
  empty : (w.sockets i).rx = []
  count : (w.sockets i).rxCount = 0

section
variable {w0 w : World} {i : SlotIdx} {came : List TnRxPacket} {given : List Delivery}

/-- The slot is a first-in first-out queue at every point of its history. -/
theorem Flow.run (flow : Flow i w0 came given w) (idle : Idle w0 i) :
    (queueOf w i).Sound ∧ Fifo.Run Delivers came given (w.sockets i).rx := by
  induction flow with
  | start =>
    rw [idle.empty]
    refine ⟨⟨?_, idle.kind, fun _ d hd => ?_⟩, .empty⟩
    · show (w0.sockets i).rxCount = (w0.sockets i).rx.length
      rw [idle.count, idle.empty]
      rfl
    · rw [show (queueOf w0 i).packets = [] from idle.empty] at hd
      cases hd
  | @arrives came given w seg ip port past ih =>
    obtain ⟨sound, run⟩ := ih
    cases pushed : (pushDgram w i (packet w i seg ip port)).2 with
    | true =>
      have serves := arrive_serves sound pushed
      rw [if_pos rfl]
      have pushed' := sound.push (d := packet w i seg ip port) fun raw => if_neg raw
      exact ⟨serves.sound pushed', serves.run (run.push _)⟩
    | false =>
      have slots := sockets_arrive_of_dropped seg ip port pushed
      rw [if_neg Bool.false_ne_true, parkedOut_of_pending (by rw [slots]), List.append_nil,
        List.append_nil, queueOf, slots]
      exact ⟨sound, run⟩
  | @rcvbuf came given w v past ih =>
    have queue : queueOf (modOpts w i fun o => { o with rcvbuf := v }) i = queueOf w i := by
      simp [queueOf, modOpts, modSlot]
    rw [show ((modOpts w i fun o => { o with rcvbuf := v }).sockets i).rx = (w.sockets i).rx from
      congrArg Queue.packets queue, queue]
    exact ih
  | @call came given w m past ih =>
    obtain ⟨sound, run⟩ := ih
    have serves := (recvHandler_reads (m := m) sound.portless sound.kind).serves
    exact ⟨serves.sound sound, serves.run run⟩
  | @elsewhere came given w w' past same ih =>
    rw [same, show (w'.sockets i).rx = (w.sockets i).rx from congrArg Queue.packets same]
    exact ih

/-- What becomes of a datagram that arrives: it is queued behind the others, which are 31 at most, and
within the bound unless it is the first or there is none; or nothing changes. -/
structure Admits (w : World) (i : SlotIdx) (d : TnRxPacket) (r : World × Bool) (w' : World) :
    Prop where
  queued : r.2 = true → (r.1.sockets i).rx = (w.sockets i).rx ++ [d]
  count : r.2 = true → (r.1.sockets i).rx.length ≤ 32
  bytes : r.2 = true → (w.sockets i).rx ≠ [] → (w.sockets i).opts.rcvbuf ≠ 0 →
    (queuedBytes r.1 i : Int) ≤ (w.sockets i).opts.rcvbuf % 2 ^ 32
  dropped : r.2 = false → w'.sockets = w.sockets

/-- Every arrival is admitted. -/
theorem admits_arrive (sound : (queueOf w i).Sound) (seg : List UInt8) (ip port : Nat) :
    Admits w i (packet w i seg ip port) (pushDgram w i (packet w i seg ip port))
      (arrive w i seg ip port) := by
  have length : (w.sockets i).rxCount = (w.sockets i).rx.length := sound.count
  have dropped := sockets_arrive_of_dropped (w := w) (i := i) seg ip port
  have pushes := pushDgram_pushes w i (packet w i seg ip port)
  generalize pushDgram w i (packet w i seg ip port) = r at pushes dropped
  cases pushes with
  | drops => exact ⟨fun h => Bool.noConfusion h, fun h => Bool.noConfusion h,
      fun h => Bool.noConfusion h, dropped⟩
  | @queues w2 below fits slot =>
    have rx : (w2.sockets i).rx = (w.sockets i).rx ++ [packet w i seg ip port] := by
      rw [slot]
      rfl
    refine ⟨fun _ => rx, fun _ => ?_, fun _ some bound => ?_, fun h => Bool.noConfusion h⟩
    · rw [rx, List.length_append]
      have : (w.sockets i).rx.length < 32 := length ▸ below
      exact this
    · have room : ¬ ((w.sockets i).opts.rcvbuf != 0 && !(w.sockets i).rx.isEmpty && decide _) = true :=
        Bool.eq_false_iff.mp fits
      have bound' : ((w.sockets i).opts.rcvbuf != 0) = true := bne_iff_ne.mpr bound
      have some' : (!(w.sockets i).rx.isEmpty) = true := by simpa using some
      rw [bound', some', Bool.true_and, Bool.true_and, decide_eq_true_iff, not_lt] at room
      unfold queuedBytes
      rw [rx, List.map_append, List.sum_append]
      exact_mod_cast room

/-- Every answer carries the front of one datagram, in the order in which they were queued, and those
not handed out yet are still in the queue. -/
theorem Flow.delivers (flow : Flow i w0 came given w) (idle : Idle w0 i) :
    (∃ gone, came = gone ++ (w.sockets i).rx ∧ List.Forall₂ Delivers gone given) ∧
      ∀ (seg : List UInt8) (ip port : Nat),
        Admits w i (packet w i seg ip port) (pushDgram w i (packet w i seg ip port))
          (arrive w i seg ip port) := by
  obtain ⟨sound, run⟩ := flow.run idle
  exact ⟨run.conserved, admits_arrive sound⟩

end

/-- A table of UDP slots with nothing queued, and a request. -/
def udpSlots (x : TnIpcMsg) : World :=
  { tnSlotTableInit with
    sockets := fun _ => { inUse := true, type := sockDgram, refCount := 1 }
    msgs := fun _ => x }

/-- `recvfrom` with room for two bytes and no address wanted. -/
def twoBytes : TnIpcMsg :=
  { cmd := .recvfrom, args := fun k => if k = 1 then 2 else 0,
    ptrs := fun k => if k = 0 then .mem fun _ => 0 else .null }

/-- Of two datagrams the first is handed out, cut to two bytes, and the second one is left. -/
theorem Flow.delivers_first :
    let w := arrive (arrive (udpSlots twoBytes) 0 [7, 8, 9] 1 53) 0 [5] 2 99
    ∃ gone, [({ p := [7, 8, 9], srcIp := 1, srcPort := 53 } : TnRxPacket),
        { p := [5], srcIp := 2, srcPort := 99 }] = gone ++ [{ p := [5], srcIp := 2, srcPort := 99 }] ∧
      List.Forall₂ Delivers gone [delivery w (recvHandler w 1 0).1 1] := by
  intro w
  have idle : Flow 0 (udpSlots twoBytes) [] [] (udpSlots twoBytes) := .start
  have read := ((idle.arrives [7, 8, 9] 1 53).arrives [5] 2 99).call 1
  exact (Flow.delivers read ⟨.inl rfl, rfl, rfl⟩).1

/-- `recvmsg` with room for two bytes and for half an address. -/
def shortName : TnIpcMsg :=
  { cmd := .recvmsg,
    ptrs := fun _ => .msghdr
      { msgName := some fun _ => 0, msgNamelen := 8,
        msgIov := some [{ iovBase := some fun _ => 0, iovLen := 2 }] } }

/-- A negative `SO_RCVBUF` is a bound of nearly 2^32, and `recvmsg` gives no part of an address. -/
theorem not_forall_flow :
    (¬ ∀ (i : SlotIdx) (w0 w : World) (came : List TnRxPacket) (given : List Delivery),
      Idle w0 i → Flow i w0 came given w → ∀ (d : TnRxPacket), (pushDgram w i d).2 = true →
        (w.sockets i).rx ≠ [] → (w.sockets i).opts.rcvbuf ≠ 0 →
        (queuedBytes (pushDgram w i d).1 i : Int) ≤ (w.sockets i).opts.rcvbuf) ∧
    ¬ ∀ (i : SlotIdx) (w0 w : World) (came : List TnRxPacket) (given : List Delivery),
      Idle w0 i → Flow i w0 came given w → ∀ x ∈ given, ∀ h, x.req.cmd = .recvmsg →
        x.req.ptrs 0 = .msghdr h → h.msgName.isSome = true → 1 < h.msgNamelen →
        ∀ f, storedMem x.msg 1 f x.writes 1 = UInt8.ofNat afInet := by
  constructor
  · intro bound
    have idle : Flow 0 (udpSlots twoBytes) [] [] (udpSlots twoBytes) := .start
    have flow := (idle.rcvbuf (-1)).arrives [7] 1 53
    have held := bound 0 _ _ _ _ ⟨.inl rfl, rfl, rfl⟩ flow { p := [8] } (by decide) (by decide)
      (by decide)
    exact absurd held (by decide)
  · intro named
    have idle : Flow 0 (udpSlots shortName) [] [] (udpSlots shortName) := .start
    have flow := (idle.arrives [7] 1 53).call 1
    have held := named 0 _ _ _ _ ⟨.inl rfl, rfl, rfl⟩ flow _ (List.mem_singleton_self _) _ rfl rfl rfl
      (by decide) fun _ => 0
    exact absurd held (by decide)

end Dgram

end Tolunnet
