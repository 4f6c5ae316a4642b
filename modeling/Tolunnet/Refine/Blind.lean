import Tolunnet.Task.Daemon

/-!
# `Tolunnet.Refine.Blind`: relations that do not see

Several parts of this development say what a piece of code does to a world by a relation of their
own between the world before and the world after: the accounts, the shelf, the yard, the options of
a slot. Most functions of the daemon change nothing that such a relation is about, and the reason is
always the same: it does not look at what the function's statements assign to. `Mute`, `Blind`,
`Numb` and `Deaf` say so statement by statement. From that each function of the daemon that is quiet
has one lemma for all these relations.

Where the relation says that a view `v` of the world stays the same it is `Same v`.
-/

set_option autoImplicit false

namespace Tolunnet

open World

variable {R : World → World → Prop} {w w' : World} {i : SlotIdx} {m : MsgId} {p : PcbId}

/-! ## What is not seen -/

/-- An event of a base, which some views show. -/
def Output.isEvent : Output → Bool
  | .event _ _ _ => true
  | _ => false

/-- The fields of a slot that some relation is about, apart from the TCP pcb. -/
def TnSocketSlot.shown (s : TnSocketSlot) : Bool × Int × (Pend → Option MsgId) × (Bool × Int) ×
    (List TnRxPacket × Nat) × (List TnAcceptEntry × Nat × Nat) × Option PcbId × Option PcbId :=
  (s.inUse, s.type, s.pending, (s.isParked, s.parkId), (s.rx, s.rxCount),
    (s.acceptQ, s.acceptCount, s.listenBacklog), s.udpPcb, s.rawPcb)

/-- The fields of a base that some relation is about. -/
def TnSocketBase.shown (b : TnSocketBase) :
    (Nat → Option SlotIdx) × Nat × (Nat → Nat) × (Nat → Nat) :=
  (b.fdMap, b.dtablesize, b.events, b.eventMasks)

/-- The kind of a TCP pcb and the fields that an option is about. -/
def TcpPcb.kept (c : TcpPcb) : Bool × (Bool × Bool × Bool) × (Nat × Nat × Nat) × Nat × Nat × Nat :=
  (c.listen, (c.nagleOff, c.sofKeepalive, c.sofReuseaddr), (c.keepIdle, c.keepIntvl, c.keepCnt),
    c.mss, c.ttl, c.tos)

/-- The slot of a datagram pcb and the fields that an option is about. -/
def DgramPcb.kept (c : DgramPcb) : SlotIdx × Bool × Nat × Nat × Nat × Bool :=
  (c.arg, c.sofReuseaddr, c.ttl, c.tos, c.mcastTtl, c.mcastLoop)

/-- A relation that ignores answers, messages, settings and wakeups, and is about the fields in
`shown` of a base at most. -/
structure Mute (R : World → World → Prop) : Prop where
  refl : ∀ w, R w w
  trans : ∀ {w w' w''}, R w w' → R w' w'' → R w w''
  asked : ∀ w, R w w.asked
  modMsg : ∀ w m f, R w (w.modMsg m f)
  modBase : ∀ w b f, (f (w.bases b)).shown = (w.bases b).shown → R w (w.modBase b f)
  emit : ∀ w e, Event.replied e = none → R w (w.emit e)
  out : ∀ w o, o.isEvent = false → R w (w.out o)
  modLive : ∀ w f, R w (w.modLive f)
  sel : ∀ w l n a, l.isEmpty = w.selectors.isEmpty →
    R w { w with selectors := l, selectorCount := n, armedSinceResync := a }

/-- The relation ignores the handshakes, buffers and addresses of pcbs too, and that a TCP pcb or the
link to one is gone; of a slot it is about `shown` and the options. -/
structure Blind (R : World → World → Prop) : Prop extends Mute R where
  dropPcb : ∀ w p, R w (w.setPcb p none)
  keepPcb : ∀ w p c c', w.tcpPcbs p = some c → c'.kept = c.kept → R w (w.setPcb p (some c'))
  keepUdp : ∀ w p f, (∀ c, (f c).kept = c.kept) → R w (w.onUdp p f)
  keepRaw : ∀ w p f, (∀ c, (f c).kept = c.kept) → R w (w.onRaw p f)
  assign : ∀ w i f, (f (w.sockets i)).shown = (w.sockets i).shown →
    (f (w.sockets i)).opts = (w.sockets i).opts →
    ((f (w.sockets i)).tcpPcb = (w.sockets i).tcpPcb ∨ (f (w.sockets i)).tcpPcb = none) →
    R w (w.modSlot i f)

/-- Nor is the relation about options and TCP pcbs. -/
structure Numb (R : World → World → Prop) : Prop extends Blind R where
  setPcb : ∀ w p c, R w (w.setPcb p c)
  onUdp : ∀ w p f, (∀ c, (f c).arg = c.arg) → R w (w.onUdp p f)
  onRaw : ∀ w p f, (∀ c, (f c).arg = c.arg) → R w (w.onRaw p f)
  modSlot : ∀ w i f, (f (w.sockets i)).shown = (w.sockets i).shown → R w (w.modSlot i f)

/-- Nor is the relation about who waits and who is answered. -/
structure Deaf (R : World → World → Prop) : Prop extends Blind R where
  replyMsg : ∀ w m, R w (w.replyMsg m)
  setPending : ∀ w i k x, R w (w.setPending i k x)
  dns : ∀ w d n l, R w { w with dnsPending := d, dnsPendingCount := n, dnsLateReplies := l }
  park : ∀ w n, R w { w with nextParkId := n }

/-- A parked request may be answered or forgotten, and that is all the relation shows of it. -/
structure Replies (R : World → World → Prop) : Prop extends Blind R where
  reply : ∀ w i k r e, R w (replyPending w i k r e)
  replySend : ∀ w i e told, R w (tnSlotReplySend w i e told)
  clear : ∀ w i k, R w (w.setPending i k none)

/-! ## Views -/

section Views

variable {β : Type} {v : World → β}

/-- The view `v` stays the same. -/
abbrev Same (v : World → β) (w w' : World) : Prop := v w' = v w

end Views

/-- A statement that assigns to nothing the relation is about. -/
theorem Numb.of_mute (hr : Mute R) (setPcb : ∀ w p c, R w (w.setPcb p c))
    (onUdp : ∀ w p f, (∀ c, (f c).arg = c.arg) → R w (w.onUdp p f))
    (onRaw : ∀ w p f, (∀ c, (f c).arg = c.arg) → R w (w.onRaw p f))
    (modSlot : ∀ w i f, (f (w.sockets i)).shown = (w.sockets i).shown → R w (w.modSlot i f)) :
    Numb R where
  toMute := hr
  dropPcb w p := setPcb w p none
  keepPcb w p _ c' _ _ := setPcb w p (some c')
  keepUdp w p f hf := onUdp w p f fun c => congrArg Prod.fst (hf c)
  keepRaw w p f hf := onRaw w p f fun c => congrArg Prod.fst (hf c)
  assign w i f hf _ _ := modSlot w i f hf
  setPcb := setPcb
  onUdp := onUdp
  onRaw := onRaw
  modSlot := modSlot

/-! ## Larger relations -/

section Mono

variable {Q : World → World → Prop} (refl : ∀ w, R w w)
  (trans : ∀ {w w' w''}, R w w' → R w' w'' → R w w'') (larger : ∀ {w w'}, Q w w' → R w w')

include refl trans larger

/-- What a relation ignores a larger one ignores. -/
theorem Mute.mono (hr : Mute Q) : Mute R where
  refl := refl
  trans := trans
  asked w := larger (hr.asked w)
  modMsg w m f := larger (hr.modMsg w m f)
  modBase w b f hf := larger (hr.modBase w b f hf)
  emit w e he := larger (hr.emit w e he)
  out w o ho := larger (hr.out w o ho)
  modLive w f := larger (hr.modLive w f)
  sel w l n a hl := larger (hr.sel w l n a hl)

/-- Nor do pcbs become visible to a larger relation. -/
theorem Blind.mono (hr : Blind Q) : Blind R where
  toMute := hr.toMute.mono refl trans larger
  dropPcb w p := larger (hr.dropPcb w p)
  keepPcb w p c c' hc hk := larger (hr.keepPcb w p c c' hc hk)
  keepUdp w p f hf := larger (hr.keepUdp w p f hf)
  keepRaw w p f hf := larger (hr.keepRaw w p f hf)
  assign w i f hs ho ht := larger (hr.assign w i f hs ho ht)

/-- Nor do options. -/
theorem Numb.mono (hr : Numb Q) : Numb R where
  toBlind := hr.toBlind.mono refl trans larger
  setPcb w p c := larger (hr.setPcb w p c)
  onUdp w p f hf := larger (hr.onUdp w p f hf)
  onRaw w p f hf := larger (hr.onRaw w p f hf)
  modSlot w i f hf := larger (hr.modSlot w i f hf)

/-- Nor do the requests that wait. -/
theorem Deaf.mono (hr : Deaf Q) : Deaf R where
  toBlind := hr.toBlind.mono refl trans larger
  replyMsg w m := larger (hr.replyMsg w m)
  setPending w i k x := larger (hr.setPending w i k x)
  dns w d n l := larger (hr.dns w d n l)
  park w n := larger (hr.park w n)

end Mono

/-! ## Loops and results -/

/-- A result taken apart. -/
theorem of_pair {α : Type} {r : World × α} {a : α} (he : r = (w', a)) (hr : R w r.1) : R w w' := by
  rw [he] at hr
  exact hr

namespace Mute

/-- What each turn of a loop leaves alone the loop leaves alone. -/
theorem foldl (hr : Mute R) {α : Type} (f : World → α → World) (l : List α)
    (hf : ∀ w, ∀ x ∈ l, R w (f w x)) (w : World) : R w (l.foldl f w) :=
  l.foldlRecOn (motive := R w) f (hr.refl w) fun _ done x hx => hr.trans done (hf _ x hx)

/-- One branch of a conditional does nothing. -/
theorem ite (hr : Mute R) {c : Prop} [Decidable c] (h : R w w') : R w (if c then w' else w) := by
  split
  · exact h
  · exact hr.refl w

/-! ## Client memory -/

/-- A reply's words are written in the message. -/
theorem setReply (hr : Mute R) (r : Int) (e : Errno) : R w (w.setReply m r e) := hr.modMsg w m _

/-- An answer in the message is not seen. -/
theorem done (hr : Mute R) (h : R w w') (r : Int) (e : Errno) : R w (Tolunnet.done w' m r e).1 :=
  hr.trans h (hr.setReply r e)

/-- Neither is an error. -/
theorem fail (hr : Mute R) (h : R w w') (e : Errno) : R w (Tolunnet.fail w' m e).1 := hr.done h (-1) e

/-- A refusal. -/
theorem refuse (hr : Mute R) (e : Errno) : R w (Tolunnet.fail w m e).1 := hr.fail (hr.refl w) e

/-- An answer without more ado. -/
theorem accede (hr : Mute R) (r : Int) (e : Errno) : R w (Tolunnet.done w m r e).1 :=
  hr.done (hr.refl w) r e

/-- A signal is output. -/
theorem signal (hr : Mute R) (t : TaskId) (mask : Nat) : R w (w.signal t mask) := hr.out w _ rfl

/-- What is stored in client memory is not seen. -/
theorem store (hr : Mute R) (k off : Nat) (b : List UInt8) : R w (w.store m k off b) :=
  hr.out w _ rfl

/-- An address that goes to the client. -/
theorem tnStoreClientSockaddr (hr : Mute R) (ka kl port addr : Nat) :
    R w (tnStoreClientSockaddr w m ka kl port addr) := by
  unfold Tolunnet.tnStoreClientSockaddr
  split
  · exact hr.trans (hr.store ..) (hr.store ..)
  · exact hr.refl w

/-- The pieces of a packet that go to the buffers of the client, one after the other. -/
theorem storeChunks (hr : Mute R) (bytes : List UInt8) (l : List IovChunk) :
    R w (storeChunks w m bytes l) := by
  induction l generalizing w bytes with
  | nil => exact hr.refl w
  | cons c l ih => exact hr.trans (hr.out w _ rfl) (ih _)

/-- The length of an address goes to the client when the handler answers. -/
theorem storeFromlen (hr : Mute R) {r : World × TnIpcReplyAction} (h : R w r.1) :
    R w (storeFromlen r m).1 := by
  obtain ⟨w', act⟩ := r
  cases act with
  | replyNow =>
    unfold Tolunnet.storeFromlen
    dsimp only
    split
    · split
      · exact hr.trans h (hr.store ..)
      · exact h
    · exact h
  | defer => exact h

/-- The `hostent` of a base is not seen. -/
theorem tnIpcFillHostentNow (hr : Mute R) (b : BaseId) (name : List Char) (addr : Nat) :
    R w (tnIpcFillHostentNow w b name addr) := hr.modBase w b _ rfl

/-- Neither is the name that `OPEN` copies into the base. -/
theorem giveHostname (hr : Mute R) (b : BaseId) : R w (giveHostname w b) := by
  unfold Tolunnet.giveHostname
  split
  · exact hr.refl w
  · exact hr.modBase w b _ rfl

/-- A peer's name is written in client memory. -/
theorem storeName (hr : Mute R) (port addr : Nat) : R w (storeName w m port addr) :=
  hr.trans (hr.store ..) (hr.store ..)

/-- An option's value is written in client memory. -/
theorem writeOpt (hr : Mute R) (bytes : List UInt8) : R w (writeOpt w m bytes) :=
  hr.trans (hr.store ..) (hr.store ..)

/-- A descriptor set is written in client memory. -/
theorem tnFdsetPutResult (hr : Mute R) (k : Nat) (set : Nat × Nat) (nfds : Nat) :
    R w (tnFdsetPutResult w m k set nfds) := by
  unfold Tolunnet.tnFdsetPutResult
  split
  · dsimp only
    split
    · exact hr.trans (hr.store ..) (hr.store ..)
    · exact hr.store ..
  · exact hr.refl w

/-- The words past `nfds` that are cleared for the client. -/
theorem tnSelectClearTail (hr : Mute R) (k nfds reqNfds : Nat) :
    R w (tnSelectClearTail w m k nfds reqNfds) := by
  unfold Tolunnet.tnSelectClearTail
  split
  · exact hr.foldl _ _ (fun w x _ => hr.ite (hr.store ..)) w
  · exact hr.refl w

/-- The three sets that go back to the client. -/
theorem putResults (hr : Mute R) (res : SelResult) (nfds reqNfds : Nat) :
    R w (putResults w m res nfds reqNfds) := by
  unfold Tolunnet.putResults
  dsimp only
  refine hr.trans ?_ (hr.trans (hr.tnSelectClearTail ..)
    (hr.trans (hr.tnSelectClearTail ..) (hr.tnSelectClearTail ..)))
  exact hr.trans (hr.tnFdsetPutResult ..) (hr.trans (hr.tnFdsetPutResult ..) (hr.tnFdsetPutResult ..))

/-! ## Selectors and wakeups -/

/-- The selector count is made up from the table. -/
theorem tnSelectorCountResync (hr : Mute R) : R w (tnSelectorCountResync w) := hr.sel w _ _ _ rfl

/-- A list with one element replaced is empty when it was. -/
theorem isEmpty_set {α : Type} (l : List α) (k : Nat) (x : α) : (l.set k x).isEmpty = l.isEmpty := by
  cases l with
  | nil => rfl
  | cons y l => cases k <;> rfl

/-- A selector is overwritten, not added. -/
theorem setSelector (hr : Mute R) (k : Nat) (s : TnSelector) : R w (setSelector w k s) :=
  hr.sel w _ _ _ (isEmpty_set _ _ _)

/-- A selector that names the slot is signalled. -/
theorem signalSelector (hr : Mute R) (k : Nat) : R w (signalSelector i w k) := by
  unfold Tolunnet.signalSelector
  split
  · exact hr.refl w
  · split
    · split_ifs
      · exact hr.refl w
      · exact hr.signal ..
      · exact hr.refl w
      · exact hr.trans (hr.setSelector ..) hr.tnSelectorCountResync
    · exact hr.refl w

/-- The owner of a slot is signalled. -/
theorem signalOwner (hr : Mute R) : R w (signalOwner w i) := by
  unfold Tolunnet.signalOwner
  split
  · split
    · exact hr.signal ..
    · exact hr.refl w
  · exact hr.refl w

/-- A selector takes a free entry. -/
theorem armSelector (hr : Mute R) (k : Nat) (sel : TnSelector) : R w (armSelector w k sel) := by
  unfold Tolunnet.armSelector
  dsimp only
  split_ifs
  all_goals exact hr.sel w _ _ _ (isEmpty_set _ _ _)

/-- The selectors of a base are given up. -/
theorem disarmSelector (hr : Mute R) (b : BaseId) (k : Nat) : R w (disarmSelector b w k) := by
  unfold Tolunnet.disarmSelector
  split
  · exact hr.sel w _ _ _ (isEmpty_set _ _ _)
  · exact hr.refl w

/-- A base's selectors are disarmed. -/
theorem tnSelectorDisarmAllForBase (hr : Mute R) (b : BaseId) :
    R w (tnSelectorDisarmAllForBase w b) := by
  refine hr.foldl _ _ (fun w k _ => ?_) w
  unfold disarmSelectorForBase
  split
  · exact hr.sel w _ _ _ (isEmpty_set _ _ _)
  · exact hr.refl w

/-! ## Settings -/

/-- The remote log is opened and closed by lwIP. -/
theorem tnSyslogApply (hr : Mute R) (host : List Char) : R w (tnSyslogApply w host).1 := by
  unfold Tolunnet.tnSyslogApply
  dsimp only
  split
  · dsimp only
    exact hr.modLive w _
  · split
    · exact hr.asked w
    · generalize hw1 : (if w.live.syslog.pcb = true then w else _) = w1
      have opened : R w w1 := by
        rw [← hw1]
        split
        · exact hr.refl w
        · exact hr.trans (hr.asked w) (hr.modLive _ _)
      have asked : ∀ u f, R w u → R w (u.modLive f).asked := fun u f h =>
        hr.trans h (hr.trans (hr.modLive u f) (hr.asked _))
      split
      · dsimp only
        exact hr.trans (asked w1 _ opened) (hr.modLive _ _)
      · split
        · dsimp only
          exact hr.trans (asked _ _ (asked w1 _ opened)) (hr.modLive _ _)
        · exact asked _ _ (asked w1 _ opened)

/-- A name server is applied. -/
theorem applyServer (hr : Mute R) (n : Nat) (s : List Char) : R w (applyServer w n s) := by
  unfold Tolunnet.applyServer
  split_ifs
  · exact hr.refl w
  · exact hr.trans (hr.asked w) (hr.modLive _ _)
  · exact hr.asked w

/-- The host name is applied. -/
theorem applyHostname (hr : Mute R) : R w (applyHostname w) := by
  unfold Tolunnet.applyHostname
  split
  · exact hr.refl w
  · exact hr.modLive ..

/-- The MTU is applied. -/
theorem applyMtu (hr : Mute R) : R w (applyMtu w) := by
  unfold Tolunnet.applyMtu
  dsimp only
  exact hr.ite (hr.modLive ..)

/-- `tn_apply_live_config` sets servers, name and MTU, which are lwIP's. -/
theorem tnApplyLiveConfig (hr : Mute R) : R w (tnApplyLiveConfig w) := by
  unfold Tolunnet.tnApplyLiveConfig
  dsimp only
  refine hr.trans ?_ hr.applyMtu
  refine hr.trans ?_ hr.applyHostname
  refine hr.trans ?_ (hr.applyServer _ _)
  refine hr.trans ?_ (hr.applyServer _ _)
  exact hr.ite (hr.modLive ..)

/-- The log level is applied. -/
theorem applyLoglevel (hr : Mute R) (live : Nat) : R w (applyLoglevel w live) := by
  unfold Tolunnet.applyLoglevel
  exact hr.ite (hr.modLive ..)

/-- The task priority is applied. -/
theorem applyPriority (hr : Mute R) (live : Nat) : R w (applyPriority w live) := by
  unfold Tolunnet.applyPriority
  exact hr.ite (hr.modLive ..)

/-- The log file is opened and closed. -/
theorem applyLog (hr : Mute R) (live : Nat) : R w (applyLog w live).1 := by
  unfold Tolunnet.applyLog
  split_ifs
  all_goals dsimp only
  · exact hr.modLive w _
  · exact hr.trans (hr.asked w) (hr.modLive _ _)
  · exact hr.trans (hr.asked w) (hr.modLive _ _)
  · exact hr.refl w

/-- The counters that only count up are set to zero. -/
theorem applyStats (hr : Mute R) (live : Nat) : R w (applyStats w live) := by
  unfold Tolunnet.applyStats
  exact hr.ite (hr.modLive ..)

/-- The remote log host takes effect. -/
theorem applySyslog (hr : Mute R) (live : Nat) : R w (applySyslog w live).1 := by
  unfold Tolunnet.applySyslog
  split
  · split
    · rename_i heq
      exact of_pair heq (hr.tnSyslogApply _)
    · rename_i heq
      exact of_pair heq (hr.tnSyslogApply _)
  · exact hr.refl w

/-- Of what a `RECONFIG` puts in force, the relation is about the new selector table at most. -/
theorem applyLive (hr : Mute R) (grow : ∀ w n, R w (tnSelectorTableGrow w n)) (live : Nat) :
    R w (applyLive w live).1 := by
  have before : R w (Tolunnet.applyLog (Tolunnet.applyPriority (Tolunnet.applyLoglevel w live) live)
      live).1 :=
    hr.trans (hr.applyLoglevel live) (hr.trans (hr.applyPriority live) (hr.applyLog live))
  unfold Tolunnet.applyLive
  dsimp only
  generalize (Tolunnet.applyLog _ live).1 = w1 at before
  refine hr.trans before ?_
  refine hr.trans ?_ hr.tnApplyLiveConfig
  refine hr.trans (hr.trans ?_ (hr.applyStats live)) (hr.applySyslog live)
  unfold applySelectors
  dsimp only
  generalize (if w1.prefs.selectors > 0 then w1.prefs.selectors else maxSelectors) = want
  split
  · split
    · exact grow w1 _
    · exact hr.refl w1
  · exact hr.refl w1

/-- The three counts of `RECONFIG` go to the client. -/
theorem reconfigReply (hr : Mute R) (applied restart failed : Nat) :
    R w (reconfigReply w m applied restart failed) := by
  unfold Tolunnet.reconfigReply
  dsimp only
  split
  · exact hr.modMsg ..
  · split
    · exact hr.trans (hr.modMsg ..) (hr.store ..)
    · exact hr.modMsg ..

end Mute

namespace Blind

/-! ## TCP pcbs -/

/-- A pcb keeps its kind and its options. -/
theorem onPcb (hr : Blind R) {f : TcpPcb → TcpPcb} (hf : ∀ c, (f c).kept = c.kept) :
    R w (w.onPcb p f) := by
  unfold World.onPcb
  split
  · rename_i c hc
    exact hr.keepPcb w p c (f c) hc (hf c)
  · exact hr.emit w _ rfl

/-- The same for a call that a listening pcb must not get. -/
theorem onFull (hr : Blind R) {op : PcbOp} {f : TcpPcb → TcpPcb} (hf : ∀ c, (f c).kept = c.kept) :
    R w (w.onFull p op f) := by
  unfold World.onFull
  split
  · rename_i c hc
    split
    · exact hr.emit w _ rfl
    · exact hr.keepPcb w p c (f c) hc (hf c)
  · exact hr.emit w _ rfl

/-- A read of a full pcb is only checked. -/
theorem readFull (hr : Blind R) (op : PcbOp) : R w (w.readFull p op) := hr.onFull fun _ => rfl

/-- The callback argument is a pcb field. -/
theorem tcpArg (hr : Blind R) (a : CbArg) : R w (tcpArg w p a) := hr.onPcb fun _ => rfl

/-- The accept callback of a listening pcb. -/
theorem tcpAccept (hr : Blind R) (on : Bool) : R w (tcpAccept w p on) := by
  refine hr.onPcb fun c => ?_
  split <;> rfl

/-- The receive callback is a pcb field. -/
theorem tcpRecv (hr : Blind R) (fn : RecvFn) : R w (tcpRecv w p fn) := hr.onFull fun _ => rfl

/-- The sent callback is a pcb field. -/
theorem tcpSent (hr : Blind R) (on : Bool) : R w (tcpSent w p on) := hr.onFull fun _ => rfl

/-- The error callback is a pcb field. -/
theorem tcpErr (hr : Blind R) (fn : ErrFn) : R w (tcpErr w p fn) := hr.onFull fun _ => rfl

/-- The poll callback is a pcb field. -/
theorem tcpPoll (hr : Blind R) (on : Bool) : R w (tcpPoll w p on) := hr.onFull fun _ => rfl

/-- All callbacks are set for a slot. -/
theorem registerSlot (hr : Blind R) (j : SlotIdx) : R w (registerSlot w p j) :=
  hr.trans (hr.tcpArg _) (hr.trans (hr.tcpRecv _) (hr.trans (hr.tcpSent _) (hr.tcpErr _)))

/-- The callbacks of a pcb are taken off. -/
theorem tcpDetach (hr : Blind R) : R w (tcpDetach w p) := by
  refine hr.trans ?_ (hr.tcpPoll _)
  exact hr.trans (hr.tcpArg _) (hr.trans (hr.tcpRecv _) (hr.trans (hr.tcpSent _) (hr.tcpErr _)))

/-- lwIP frees the pcb or keeps it. -/
theorem tcpClose (hr : Blind R) : R w (tcpClose w p).1 := by
  unfold Tolunnet.tcpClose
  split
  · exact hr.emit w _ rfl
  · rename_i c hc
    have kept : ∀ st, R w (w.asked.setPcb p (some { c with state := st })) := fun st =>
      hr.trans (hr.asked w) (hr.keepPcb w.asked p c _ hc rfl)
    dsimp only
    split_ifs
    · exact hr.dropPcb ..
    · exact hr.asked w
    · exact hr.trans (hr.asked w) (hr.dropPcb ..)
    · exact kept _
    · exact kept _

/-- lwIP frees the pcb. -/
theorem tcpAbort (hr : Blind R) : R w (tcpAbort w p) := by
  unfold Tolunnet.tcpAbort
  split
  · split
    · exact hr.emit w _ rfl
    · exact hr.dropPcb ..
  · exact hr.emit w _ rfl

/-- A close that fails is an abort. -/
theorem tcpCloseOrAbort (hr : Blind R) : R w (tcpCloseOrAbort w p) := by
  unfold Tolunnet.tcpCloseOrAbort
  split
  · rename_i heq
    exact of_pair heq hr.tcpClose
  · rename_i heq
    exact hr.trans (of_pair heq hr.tcpClose) hr.tcpAbort

/-- A handshake begins, which is not seen. -/
theorem tcpConnect (hr : Blind R) (ip port : Nat) : R w (tcpConnect w p ip port).1 := by
  unfold Tolunnet.tcpConnect
  split
  · exact hr.emit w _ rfl
  · rename_i c hc
    split_ifs
    · exact hr.emit w _ rfl
    · exact hr.refl w
    · exact hr.trans (hr.asked w) (hr.keepPcb w.asked p c _ hc rfl)
    · exact hr.asked w

/-- The sending side is shut. -/
theorem tcpShutdownTx (hr : Blind R) : R w (tcpShutdownTx w p).1 := by
  unfold Tolunnet.tcpShutdownTx
  split
  · exact hr.emit w _ rfl
  · rename_i c hc
    dsimp only
    split_ifs
    · exact hr.emit w _ rfl
    · exact hr.trans (hr.asked w) (hr.keepPcb w.asked p c _ hc rfl)
    · exact hr.trans (hr.asked w) (hr.keepPcb w.asked p c _ hc rfl)
    · exact hr.asked w
    · exact hr.refl w

/-- Sending what is queued is left to lwIP. -/
theorem tcpOutput (hr : Blind R) : R w (tcpOutput w p) := hr.readFull _

/-- The window opens in lwIP. -/
theorem tcpRecved (hr : Blind R) : R w (tcpRecved w p) := hr.readFull _

/-- Bytes go to the send buffer of a pcb. -/
theorem tcpWrite (hr : Blind R) (c : CallNo) (bytes : List UInt8) :
    R w (tcpWrite w p c bytes).1 := by
  unfold Tolunnet.tcpWrite
  split
  · exact hr.emit w _ rfl
  · rename_i b hb
    dsimp only
    split_ifs
    · exact hr.emit w _ rfl
    · refine hr.trans (hr.trans (hr.asked w) (hr.keepPcb w.asked p b _ hb ?_)) (hr.emit _ _ rfl)
      rfl
    · exact hr.asked w
    · exact hr.trans (hr.asked w) (hr.emit _ _ rfl)

/-- A pcb gets its local address. -/
theorem tcpBind (hr : Blind R) (ip port : Nat) : R w (tcpBind w p ip port).1 := by
  unfold Tolunnet.tcpBind
  split
  · exact hr.trans (hr.asked w) (hr.onPcb fun _ => rfl)
  · exact hr.asked w

/-- The writing loop, by induction on the turns. -/
theorem tnTcpWriteSome (hr : Blind R) (c : CallNo) (buf : Mem) (len fuel : Nat)
    (iov : Option (List Iovec × Nat)) (d : Nat) :
    R w (tnTcpWriteSome p c buf len fuel w iov d).1 := by
  induction fuel generalizing w iov d with
  | zero => exact hr.refl w
  | succ fuel ih =>
    have reads : R w (w.readFull p .sndBuf) := hr.readFull _
    unfold Tolunnet.tnTcpWriteSome
    split
    · dsimp only
      generalize w.readFull p .sndBuf = w0 at reads
      split
      all_goals
        split
        · exact reads
        · split
          · exact reads
          · split
            · rename_i heq
              exact hr.trans (hr.trans reads (of_pair heq (hr.tcpWrite _ _))) (ih _ _)
            · rename_i heq
              exact hr.trans reads (of_pair heq (hr.tcpWrite _ _))
    · exact hr.refl w

/-! ## Slots -/

/-- A slot loses its TCP pcb, and other fields that the relation is not about change. -/
theorem dropLink (hr : Blind R) {f : TnSocketSlot → TnSocketSlot}
    (hs : (f (w.sockets i)).shown = (w.sockets i).shown)
    (ho : (f (w.sockets i)).opts = (w.sockets i).opts) (hn : (f (w.sockets i)).tcpPcb = none) :
    R w (w.modSlot i f) := hr.assign w i f hs ho (.inr hn)

/-- An owner that is dead is forgotten. -/
theorem dropStaleOwner (hr : Blind R) : R w (dropStaleOwner w i) := by
  unfold Tolunnet.dropStaleOwner
  split
  · split
    · exact hr.refl w
    · exact hr.assign w i _ rfl rfl (.inl rfl)
  · exact hr.refl w

/-- Wakeups are signals and the fields of selectors. -/
theorem tnSignalSocket (hr : Blind R) : R w (tnSignalSocket w i) := by
  unfold Tolunnet.tnSignalSocket
  dsimp only
  split
  · have told : ∀ e, Event.replied e = none →
        R w (Tolunnet.signalOwner (Tolunnet.dropStaleOwner (w.emit e) i) i) := fun e he =>
      hr.trans (hr.emit w e he) (hr.trans hr.dropStaleOwner hr.signalOwner)
    split
    · exact told _ rfl
    · exact hr.trans (told _ rfl) (hr.foldl _ _ (fun _ k _ => hr.signalSelector k) _)
  · exact hr.refl w

/-- A reference is counted, which no relation is about. -/
theorem tnSlotRef (hr : Blind R) : R w (tnSlotRef w i) := by
  unfold Tolunnet.tnSlotRef
  exact hr.ite (hr.assign w i _ rfl rfl (.inl rfl))

/-- The window opens by what a slot took. -/
theorem tcpRecvedFor (hr : Blind R) (n : Nat) : R w (tcpRecvedFor w i p n) :=
  hr.trans hr.tcpRecved (hr.assign _ i _ rfl rfl (.inl rfl))

/-- The window update that follows a read. -/
theorem rxWindow (hr : Blind R) (n : Nat) : R w (rxWindow w i n) := by
  unfold Tolunnet.rxWindow
  split
  · exact hr.tcpRecvedFor n
  · exact hr.refl w

/-- An entry that is freed takes its connection with it. -/
theorem tnAcceptEntryFree (hr : Blind R) (ent : TnAcceptEntry) : R w (tnAcceptEntryFree w ent) := by
  unfold Tolunnet.tnAcceptEntryFree
  split
  · exact hr.trans (hr.tcpArg _) (hr.trans (hr.tcpRecv _) (hr.trans (hr.tcpErr _) hr.tcpAbort))
  · exact hr.refl w

/-- The stream of a slot that is freed is closed or aborted. -/
theorem freeTcp (hr : Blind R) : R w (freeTcp w i) := by
  unfold Tolunnet.freeTcp
  split
  · exact hr.refl w
  · dsimp only
    have cut : R w (w.modSlot i fun s => { s with tcpPcb := none }) := hr.dropLink rfl rfl rfl
    refine hr.trans cut ?_
    split
    · exact hr.trans (hr.tcpArg _) (hr.trans (hr.tcpAccept _) hr.tcpClose)
    · exact hr.trans hr.tcpDetach hr.tcpCloseOrAbort

/-- The slots of a base lose their owner. -/
theorem tnSlotClearOwnerBase (hr : Blind R) (b : BaseId) : R w (tnSlotClearOwnerBase w b) := by
  refine hr.foldl _ _ (fun w i _ => ?_) w
  unfold clearOwnerAt
  exact hr.ite (hr.assign w i _ rfl rfl (.inl rfl))

/-- The deadline of a parked read starts again. -/
theorem restartRecv (hr : Blind R) : R w (restartRecv w i) := by
  unfold Tolunnet.restartRecv
  dsimp only
  split
  · exact hr.assign w i _ rfl rfl (.inl rfl)
  · exact hr.refl w

/-- The deadline of a parked send starts again. -/
theorem restartSend (hr : Blind R) : R w (restartSend w i) := by
  unfold Tolunnet.restartSend
  dsimp only
  split
  · exact hr.assign w i _ rfl rfl (.inl rfl)
  · exact hr.refl w

/-- The segment size is only read. -/
theorem readMss (hr : Blind R) : R w (readMss w i) := by
  unfold Tolunnet.readMss onFullOf
  dsimp only
  split
  · split
    · split
      · exact hr.onFull fun _ => rfl
      · exact hr.refl w
    · exact hr.refl w
  · exact hr.refl w

/-- The copying loop of a peeking `recvmsg`, by induction on the packets. -/
theorem recvmsgPeek (hr : Blind R) (iovs : List Iovec) (n : Nat) (segs : List (List UInt8))
    (pos : IovPos) (copied : Nat) : R w (recvmsgPeek iovs n m w segs pos copied).1 := by
  induction segs generalizing w pos copied with
  | nil => exact hr.refl w
  | cons seg segs ih =>
    unfold Tolunnet.recvmsgPeek
    split
    · exact hr.trans (hr.storeChunks _ _) (ih _ _)
    · exact hr.refl w

end Blind

namespace Numb

/-! ## Options -/

/-- Any change of a TCP pcb. -/
theorem onPcb (hr : Numb R) (f : TcpPcb → TcpPcb) : R w (w.onPcb p f) := by
  unfold World.onPcb
  split
  · exact hr.setPcb ..
  · exact hr.emit w _ rfl

/-- Any change of a full TCP pcb. -/
theorem onFull (hr : Numb R) (op : PcbOp) (f : TcpPcb → TcpPcb) : R w (w.onFull p op f) := by
  unfold World.onFull
  split
  · split
    · exact hr.emit w _ rfl
    · exact hr.setPcb ..
  · exact hr.emit w _ rfl

/-- Nagle is a pcb flag. -/
theorem tcpNagle (hr : Numb R) (off : Bool) : R w (tcpNagle w p off) := hr.onFull _ _

/-- A listening pcb takes the place of the full one. -/
theorem tcpListenWithBacklog (hr : Numb R) : R w (tcpListenWithBacklog w p).1 := by
  unfold Tolunnet.tcpListenWithBacklog
  split
  · exact hr.emit w _ rfl
  · dsimp only
    split_ifs
    · exact hr.refl w
    · exact hr.trans (hr.trans (hr.asked w) (hr.dropPcb ..)) (hr.setPcb ..)
    · exact hr.asked w

/-- An option is a field of the slot. -/
theorem modOpts (hr : Numb R) (f : TnSockOpts → TnSockOpts) : R w (modOpts w i f) :=
  hr.modSlot w i _ rfl

/-- An option is a field of the stream's pcb. -/
theorem onTcpOf (hr : Numb R) (f : TcpPcb → TcpPcb) : R w (onTcpOf w i f) := by
  unfold Tolunnet.onTcpOf
  split
  · exact hr.onPcb f
  · exact hr.refl w

/-- An option is a field of a full pcb. -/
theorem onFullOf (hr : Numb R) (op : PcbOp) (f : TcpPcb → TcpPcb) : R w (onFullOf w i op f) := by
  unfold Tolunnet.onFullOf
  split
  · exact hr.ite (hr.onFull op f)
  · exact hr.refl w

/-- An option is a field of the UDP pcb. -/
theorem onUdpOf (hr : Numb R) {f : DgramPcb → DgramPcb} (hf : ∀ c, (f c).arg = c.arg) :
    R w (onUdpOf w i f) := by
  unfold Tolunnet.onUdpOf
  split
  · exact hr.onUdp w _ f hf
  · exact hr.refl w

/-- An option is a field of the raw pcb. -/
theorem onRawOf (hr : Numb R) {f : DgramPcb → DgramPcb} (hf : ∀ c, (f c).arg = c.arg) :
    R w (onRawOf w i f) := by
  unfold Tolunnet.onRawOf
  split
  · exact hr.onRaw w _ f hf
  · exact hr.refl w

/-- The options of the listener go to the new connection. -/
theorem inheritPcb (hr : Numb R) (l : TnSockOpts) : R w (inheritPcb w p l) := by
  unfold Tolunnet.inheritPcb
  dsimp only
  refine hr.trans ?_ (hr.ite (hr.onFull _ _))
  refine hr.trans ?_ (hr.ite (hr.onFull _ _))
  exact hr.trans (hr.ite (hr.onFull _ _)) (hr.ite (hr.onFull _ _))

/-- A new connection is registered with its slot and gets the options. -/
theorem adoptPcb (hr : Numb R) (j : SlotIdx) : R w (adoptPcb w m i j p) := by
  unfold Tolunnet.adoptPcb
  dsimp only
  refine hr.trans ?_ (hr.tnStoreClientSockaddr ..)
  refine hr.trans (hr.trans ?_ (hr.registerSlot j)) (hr.readFull _)
  refine hr.trans ?_ (hr.inheritPcb _)
  exact hr.trans (hr.tcpNagle true) (hr.modSlot _ j _ rfl)

/-- A new connection is handed to the callback of its listener, or aborted. -/
theorem deliverAccept (hr : Numb R) (ha : ∀ w i, R w (tnTcpAcceptCb w i p).1) (l : TcpPcb)
    (ip port : Nat) : R w (deliverAccept w l p ip port) := by
  unfold Tolunnet.deliverAccept
  dsimp only
  generalize hw1 : w.setPcb p _ = w1
  refine hr.trans (hw1 ▸ hr.setPcb w p _) ?_
  split
  · split
    · rename_i heq
      exact hr.trans (of_pair heq (ha ..)) hr.tcpAbort
    · rename_i heq
      exact of_pair heq (ha ..)
  · exact hr.tcpAbort

end Numb

namespace Deaf

/-! ## Parked requests -/

/-- A message is answered. -/
theorem answerMsg (hr : Deaf R) (r : Int) (e : Errno) : R w (w.answerMsg m r e) :=
  hr.trans (hr.setReply r e) (hr.replyMsg ..)

/-- A parked request is answered. -/
theorem replyPending (hr : Deaf R) (k : Pend) (r : Int) (e : Errno) :
    R w (replyPending w i k r e) := by
  unfold Tolunnet.replyPending
  split
  · exact hr.refl w
  · dsimp only
    refine hr.trans (hr.trans (hr.setPending w i k none) ?_) (hr.answerMsg r e)
    exact hr.ite (hr.assign _ i _ rfl rfl (.inl rfl))

/-- A parked send is answered or thrown away. -/
theorem tnSlotReplySend (hr : Deaf R) (e : Errno) (reply : Bool) :
    R w (tnSlotReplySend w i e reply) := by
  unfold Tolunnet.tnSlotReplySend
  split
  · exact hr.refl w
  · dsimp only
    have freed : ∀ u ev r e', Event.replied ev = none → R w ((((w.setPending i .send none).setReply u r
        e').emit ev).modSlot i fun s =>
          { s with sendDone := 0, sendIov := none, sendDeadlineTick := 0 }) := fun u ev r e' hev =>
      hr.trans (hr.trans (hr.trans (hr.setPending w i .send none) (hr.setReply r e'))
        (hr.emit _ ev hev)) (hr.assign _ i _ rfl rfl (.inl rfl))
    split
    · exact hr.trans (freed _ _ _ _ rfl) (hr.replyMsg ..)
    · exact freed _ _ _ _ rfl

/-- A read is parked or refused. -/
theorem tnSlotParkRecv (hr : Deaf R) : R w (tnSlotParkRecv w i m).1 := by
  unfold Tolunnet.tnSlotParkRecv
  split
  · split
    · exact hr.refl w
    · exact hr.setReply ..
  · dsimp only
    exact hr.trans (hr.setPending w i .recv (some m)) (hr.assign _ i _ rfl rfl (.inl rfl))

/-- A lookup entry is cleared. -/
theorem clearDns (hr : Deaf R) (k : Fin 8) : R w (clearDns w k) := hr.dns w _ _ _

/-- The lookups of a base are answered or dropped. -/
theorem tnDnsCancelForBase2 (hr : Deaf R) (b : BaseId) (reply : Bool) :
    R w (tnDnsCancelForBase2 w b reply) := by
  refine hr.foldl _ _ (fun w k _ => ?_) w
  unfold dnsCancelAt
  dsimp only
  split
  · split
    · exact hr.clearDns k
    · split
      · exact hr.trans (hr.clearDns k) (hr.trans (hr.setReply ..) (hr.replyMsg ..))
      · exact hr.trans (hr.clearDns k) (hr.setReply ..)
  · exact hr.refl w

/-- A late answer is counted, another one finishes its lookup. -/
theorem tnDnsFoundCb (hr : Deaf R) (name : List Char) (addr : Option Nat) :
    R w (tnDnsFoundCb w name addr m) := by
  unfold Tolunnet.tnDnsFoundCb
  split
  · exact hr.dns w _ _ _
  · rename_i k _
    dsimp only
    split
    · exact hr.trans (hr.clearDns k) (hr.replyMsg ..)
    · exact hr.trans (hr.trans (hr.clearDns k) (hr.tnIpcFillHostentNow ..)) (hr.answerMsg ..)
    · exact hr.trans (hr.clearDns k) (hr.answerMsg ..)

/-- Only the counter moves. -/
theorem uniqueParkId (hr : Deaf R) (fuel : Nat) : R w (uniqueParkId fuel w).1 := by
  induction fuel generalizing w with
  | zero => exact hr.refl w
  | succ fuel ih =>
    unfold Tolunnet.uniqueParkId
    split
    · exact hr.trans (hr.park w _) ih
    · exact hr.park w _

/-- Only the counter moves. -/
theorem chooseParkId (hr : Deaf R) (id : Int) : R w (chooseParkId w id).1 := by
  unfold Tolunnet.chooseParkId
  split
  · split
    · rename_i heq
      exact of_pair heq (hr.uniqueParkId 65)
    · rename_i heq
      exact of_pair heq (hr.uniqueParkId 65)
  · split_ifs <;> exact hr.refl w

/-- Who does not see a request does not see its answer. -/
theorem replies (hr : Deaf R) : Replies R where
  toBlind := hr.toBlind
  reply _ _ k r e := hr.replyPending k r e
  replySend _ _ e told := hr.tnSlotReplySend e told
  clear w i k := hr.setPending w i k none

end Deaf

namespace Replies

/-! ## Answers to parked requests -/

/-- What ran out of time in one slot is answered. -/
theorem checkTimeoutsAt (hr : Replies R) : R w (checkTimeoutsAt w i) := by
  unfold Tolunnet.checkTimeoutsAt
  dsimp only
  exact hr.trans (hr.ite (hr.replySend ..)) (hr.ite (hr.reply ..))

/-- The tick answers what ran out of time. -/
theorem tnSlotCheckRecvTimeouts (hr : Replies R) : R w (tnSlotCheckRecvTimeouts w) :=
  hr.foldl _ _ (fun _ _ _ => hr.checkTimeoutsAt) w

/-- The requests of a base in one slot are answered or thrown away. -/
theorem recvCancelAt (hr : Replies R) (b : BaseId) (reply : Bool) : R w (recvCancelAt b reply w i) := by
  unfold Tolunnet.recvCancelAt
  dsimp only
  refine hr.trans (hr.ite ?_) (hr.ite (hr.replySend ..))
  split
  · exact hr.reply ..
  · split
    · refine hr.trans (hr.trans (hr.clear w i .recv) ?_) (hr.setReply ..)
      exact hr.assign _ i _ rfl rfl (.inl rfl)
    · exact hr.refl w

/-- The requests of a base are answered or thrown away. -/
theorem tnRecvCancelForBase2 (hr : Replies R) (b : BaseId) (reply : Bool) :
    R w (tnRecvCancelForBase2 w b reply) :=
  hr.foldl _ _ (fun _ _ _ => hr.recvCancelAt b reply) w

/-- `CLOSE` of a descriptor answers what the caller has parked there. -/
theorem cancelOwn (hr : Replies R) (b : BaseId) : R w (cancelOwn w i b) := by
  unfold Tolunnet.cancelOwn
  dsimp only
  exact hr.trans (hr.ite (hr.reply ..)) (hr.ite (hr.replySend ..))

/-- The reaper throws away what a dead client has parked. -/
theorem dropPendingAt (hr : Replies R) (b : BaseId) : R w (dropPendingAt b w i) := by
  unfold Tolunnet.dropPendingAt
  refine hr.ite ?_
  exact hr.trans (hr.trans (hr.clear w i .connect) (hr.clear _ i .accept))
    (hr.clear _ i .recv)

/-- A parked send goes on and is answered when it is done. -/
theorem tnTcpResumeSend (hr : Replies R) : R w (tnTcpResumeSend w i) := by
  unfold Tolunnet.tnTcpResumeSend
  dsimp only
  split
  · exact hr.refl w
  · rename_i m _
    split
    · exact hr.replySend ..
    · split
      · exact hr.replySend ..
      · rename_i p _
        generalize hv : Tolunnet.tnTcpWriteSome p (w.callOf m) _ _ _ w _ _ = r
        have wrote : R w r.1 := hv ▸ hr.tnTcpWriteSome ..
        generalize hw1 : World.modSlot (if r.2.1 ≠ _ then _ else r.1) i _ = w1
        have noted : R w w1 := by
          rw [← hw1]
          refine hr.trans ?_ (hr.assign _ i _ rfl rfl (.inl rfl))
          split
          · exact hr.trans wrote hr.tcpOutput
          · exact wrote
        split
        · exact noted
        · exact hr.trans noted (hr.replySend ..)

/-- A stream that both sides have closed lets go of its pcb. -/
theorem tnTcpDetachFinished (hr : Replies R) : R w (tnTcpDetachFinished w i p) := by
  unfold Tolunnet.tnTcpDetachFinished
  dsimp only
  refine hr.trans (hr.trans (hr.tcpDetach (p := p)) ?_) (hr.replySend ..)
  exact hr.dropLink rfl rfl rfl

end Replies

end Tolunnet
