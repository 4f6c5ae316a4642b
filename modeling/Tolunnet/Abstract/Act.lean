import Mathlib.Logic.Relation
import Tolunnet.Abstract.State

/-!
# `Tolunnet.Abstract.Act`: what the daemon can do

The acts of the abstract daemon. Each is one change that the code makes to slots, pcbs,
descriptors, messages or selectors, with what the code knows when it makes it. They come in
six families: messages, stream sends, references, connections, receive queues and selectors.

Some acts are marked with a `Label`, and happen only when the policy `P` allows the label: a
slot is freed, a parked message is replaced, a message is thrown away unanswered, a descriptor
is put into the table of a base that is not open or names a free slot, a send is answered short.
A result that depends on one of them not happening is proved for the policies that exclude it.

Two lists of `Tok` only ever hold too much: `owes` collects the wakeups that a change has made
due until `tn_signal_socket` is called, and `serve` the parked requests that must be looked at.
`weaken` lets them grow.
-/

set_option autoImplicit false

namespace Tolunnet

/-- The marks of the acts that not every policy allows. -/
inductive Label where
  /-- Something that only a handler does, never a callback of lwIP. -/
  | alter
  /-- Slot `i` becomes free. -/
  | clear (i : SlotIdx)
  /-- The accept field of slot `i` is overwritten. -/
  | overwrite (i : SlotIdx)
  /-- Message `m` is thrown away. -/
  | drop (m : MsgId)
  /-- A base that is not open gets a descriptor. -/
  | stray (b : BaseId)
  /-- A descriptor names a free slot. -/
  | dangle
  /-- Send `c` is answered before all of its data is queued. -/
  | short (c : CallNo)

/-- The bases in the registry. -/
def Abs.isOpen (a : Abs) (b : BaseId) : Prop := ∃ k, a.openB k = some b

namespace Tok

/-- A wakeup becomes due. -/
def owe (t : Tok) (i : SlotIdx) (r : Ready) : Tok := { t with owes := insert (i, r) t.owes }

/-- The slot loses its parked send, which kept it from being writable if it has a pcb. -/
def oweSend (t : Tok) (i : SlotIdx) (p : Option PcbId) : Tok :=
  { t with owes := if p.isSome then insert (i, .write) t.owes else t.owes }

/-- Every wakeup of a slot becomes due. -/
def oweAll (t : Tok) (i : SlotIdx) : Tok := { t with owes := t.owes ∪ {x | x.1 = i} }

/-- A parked request must be looked at. -/
def due (t : Tok) (i : SlotIdx) (k : Pend) : Tok := { t with serve := insert (i, k) t.serve }

/-- `tn_signal_socket` has been called on a slot. -/
def paid (t : Tok) (i : SlotIdx) : Tok := { t with owes := t.owes \ {x | x.1 = i} }

/-- A message goes out of hand. -/
def putDown (t : Tok) (m : MsgId) : Tok := { t with hand := t.hand.erase m }

/-- A message comes in hand. -/
def pickUp (t : Tok) (m : MsgId) : Tok := { t with hand := m :: t.hand }

end Tok

/-- A field of a slot with another message in it. -/
def SlotView.setPend (s : SlotView) (k : Pend) (v : Option MsgId) : SlotView :=
  { s with pending := Function.update s.pending k v }

/-! ## Messages -/

/-- The acts on messages. -/
inductive MsgAct (P : Label → Prop) : Abs → Abs → Prop where
  /-- A message arrives. -/
  | receive (a : Abs) (m : MsgId) (x : MsgView) (hh : m ∉ a.tok.hand)
      (hp : ∀ pl, a.held pl ≠ some m) (hs : a.tok.sending = none) (hl : P .alter) :
      MsgAct P a { a with msg := Function.update a.msg m x,
                          callOf := Function.update a.callOf m a.calls,
                          calls := a.calls + 1, tok := a.tok.pickUp m }
  /-- The handler re-shapes the message it works on. -/
  | edit (a : Abs) (m : MsgId) (x : MsgView) (hm : m ∈ a.tok.hand)
      (hs : ∀ s, a.tok.sending = some s → s.m ≠ m) (hb : x.base = (a.msg m).base) :
      MsgAct P a { a with msg := Function.update a.msg m x }
  /-- A request is parked in a slot. -/
  | park (a : Abs) (i : SlotIdx) (k : Pend) (m : MsgId) (hm : m ∈ a.tok.hand)
      (hs : ∀ s, a.tok.sending = some s → s.m ≠ m)
      (hu : (a.slot i).inUse = true) (hk : k ≠ .send) (hw : (a.slot i).Waits k)
      (he : (a.slot i).pending k = none ∨ (k = .accept ∧ P (.overwrite i)))
      (hl : k = .accept → P .alter) :
      MsgAct P a ((a.slotSet i ((a.slot i).setPend k (some m))).setTok (a.tok.putDown m))
  /-- A lookup is parked in a DNS record. -/
  | parkDns (a : Abs) (k : Fin 8) (m : MsgId) (hm : m ∈ a.tok.hand)
      (hs : ∀ s, a.tok.sending = some s → s.m ≠ m) (he : a.dns k = none) :
      MsgAct P a ({ a with dns := Function.update a.dns k (some (some m, (a.msg m).base)) }.setTok
        (a.tok.putDown m))
  /-- `STOP` is parked. -/
  | parkStop (a : Abs) (m : MsgId) (hm : m ∈ a.tok.hand)
      (hs : ∀ s, a.tok.sending = some s → s.m ≠ m) (he : a.stop = none) :
      MsgAct P a ({ a with stop := some m }.setTok (a.tok.putDown m))
  /-- A parked request is answered. -/
  | answer (a : Abs) (i : SlotIdx) (k : Pend) (m : MsgId) (r : Int) (e : Errno) (hk : k ≠ .send)
      (hp : (a.slot i).pending k = some m) :
      MsgAct P a ((a.slotSet i ((a.slot i).setPend k none)).say (.reply (a.callOf m) r e))
  /-- A parked lookup is answered. -/
  | answerDns (a : Abs) (k : Fin 8) (m : MsgId) (b : Option BaseId) (r : Int) (e : Errno)
      (hp : a.dns k = some (some m, b)) :
      MsgAct P a ({ a with dns := Function.update a.dns k none }.say (.reply (a.callOf m) r e))
  /-- The parked `STOP` is answered. -/
  | answerStop (a : Abs) (m : MsgId) (r : Int) (e : Errno) (hp : a.stop = some m) :
      MsgAct P a ({ a with stop := none }.say (.reply (a.callOf m) r e))
  /-- A parked `ACCEPT` is taken out to be worked on. -/
  | take (a : Abs) (i : SlotIdx) (m : MsgId) (hp : (a.slot i).pending .accept = some m) :
      MsgAct P a ((a.slotSet i ((a.slot i).setPend .accept none)).setTok (a.tok.pickUp m))
  /-- The message in hand is answered. -/
  | reply (a : Abs) (m : MsgId) (r : Int) (e : Errno) (hm : m ∈ a.tok.hand)
      (hs : ∀ s, a.tok.sending = some s → s.m ≠ m) :
      MsgAct P a ((a.say (.reply (a.callOf m) r e)).setTok (a.tok.putDown m))
  /-- A parked message is thrown away. -/
  | drop (a : Abs) (i : SlotIdx) (k : Pend) (m : MsgId) (hk : k ≠ .send)
      (hp : (a.slot i).pending k = some m) (hl : P (.drop m)) :
      MsgAct P a (a.slotSet i ((a.slot i).setPend k none))
  /-- A parked lookup is thrown away. -/
  | dropDns (a : Abs) (k : Fin 8) (m : MsgId) (b : Option BaseId)
      (hp : a.dns k = some (some m, b)) (hl : P (.drop m)) :
      MsgAct P a { a with dns := Function.update a.dns k none }
  /-- A record without a message is emptied. -/
  | forgetDns (a : Abs) (k : Fin 8) (b : Option BaseId) (hp : a.dns k = some (none, b)) :
      MsgAct P a { a with dns := Function.update a.dns k none }
  /-- A parked request has been looked at: it is gone, or it has a reason to wait. -/
  | served (a : Abs) (i : SlotIdx) (k : Pend)
      (hw : (a.slot i).pending k = none ∨ (a.slot i).Waits k) :
      MsgAct P a (a.setTok { a.tok with serve := a.tok.serve \ {(i, k)} })

/-! ## Stream sends -/

/-- The log of a call of `tn_tcp_write_some`: the chunks that lwIP took, then the hard error
that ended it, if there was one. -/
def writeLog (p : PcbId) (c : CallNo) (bs : List (List UInt8)) (e : ErrT) : List Event :=
  (if e = .ok ∨ e = .mem then [] else [.tcpWriteErr p c e]) ++
    (bs.map fun b => Event.tcpWrite p c b).reverse

/-- What a call of `tn_tcp_write_some` from byte `done` on can do: it hands the next bytes of
the data to lwIP in order, stops at the end, for want of space or at a hard error, and the
send space of the pcb shrinks. -/
structure Wrote (payload : List UInt8) (done : Nat) (bs : List (List UInt8)) (e : ErrT)
    (c c' : PcbView) : Prop where
  bytes : bs.flatten = (payload.drop done).take bs.flatten.length
  fits : done + bs.flatten.length ≤ payload.length
  ok : e = .ok → done + bs.flatten.length = payload.length
  space : ∃ n q, n ≤ c.sndBuf ∧ c.sndQueuelen ≤ q ∧ c' = { c with sndBuf := n, sndQueuelen := q }

/-- The errors that a send reports when it is interrupted: by a timeout, a cancel, a reset, a
shutdown or a close. The others are the ones of `tn_tcp_write_errno`. -/
def Errno.interrupts : Errno → Bool
  | .enobufs | .enotconn | .einval => false
  | _ => true

/-- A send ended early for a reason that the log shows. -/
def Interrupted (log : List Event) (c : CallNo) : Prop :=
  (∃ e, .sendEnd c e ∈ log ∧ e.interrupts = true) ∨ ∃ p e, .tcpWriteErr p c e ∈ log

/-- The answer of a send that queued `done` of `len` bytes. -/
def SendAnswer (len done : Nat) (r : Int) : Prop :=
  if 0 < done then r = done else r = -1 ∨ (len = 0 ∧ r = 0)

/-- The acts of the stream send path. -/
inductive SendAct (P : Label → Prop) : Abs → Abs → Prop where
  /-- A request enters the stream send path. -/
  | start (a : Abs) (s : Sending) (hn : a.tok.sending = none) (hm : s.m ∈ a.tok.hand)
      (hu : (a.slot s.i).inUse = true) (hrf : s.i ∉ a.tok.refs) (hdy : s.i ∉ a.tok.dying)
      (hlen : s.payload.length = s.len)
      (h0 : s.done = 0) (hw : s.writing = false) (hlast : a.callOf s.m + 1 = a.calls)
      (hbuf : s.iov = none → (a.msg s.m).buf = s.buf) (hl : P .alter) :
      SendAct P a ((a.say (.sendStart (a.callOf s.m) s.payload)).setTok
        { a.tok with sending := some s })
  /-- It has passed the checks. -/
  | passed (a : Abs) (s : Sending) (hs : a.tok.sending = some s) (hw : s.writing = false)
      (hst : (a.slot s.i).st = .established ∨ (a.slot s.i).st = .peerClosed)
      (hp : (a.slot s.i).pending .send = none) :
      SendAct P a (a.setTok { a.tok with sending := some { s with writing := true } })
  /-- It writes. -/
  | write (a : Abs) (s : Sending) (p : PcbId) (c c' : PcbView) (bs : List (List UInt8)) (e : ErrT)
      (hs : a.tok.sending = some s) (hw : s.writing = true) (ht : (a.slot s.i).tcp = some p)
      (hc : a.pcb p = some c) (hb : Wrote s.payload s.done bs e c c') :
      SendAct P a ({ a.pcbSet p (some c') with
          log := writeLog p (a.callOf s.m) bs e ++ a.log }.setTok
        { a.tok with sending := some { s with done := s.done + bs.flatten.length, res := e } })
  /-- A parked send writes. -/
  | resume (a : Abs) (i : SlotIdx) (m : MsgId) (p : PcbId) (c c' : PcbView)
      (bs : List (List UInt8)) (e : ErrT) (hu : (a.slot i).inUse = true)
      (hm : (a.slot i).pending .send = some m) (ht : (a.slot i).tcp = some p)
      (hc : a.pcb p = some c)
      (hb : Wrote (sendPayload (a.msg m).buf (a.slot i).sendIov (a.msg m).len)
        (a.slot i).sendDone bs e c c') :
      SendAct P a { (a.pcbSet p (some c')).slotSet i
          { a.slot i with sendDone := (a.slot i).sendDone + bs.flatten.length } with
        log := writeLog p (a.callOf m) bs e ++ a.log }
  /-- A parked send is answered. -/
  | finish (a : Abs) (i : SlotIdx) (m : MsgId) (e : Errno)
      (hm : (a.slot i).pending .send = some m)
      (he : e.interrupts = true ∨ (a.slot i).sendDone = (a.msg m).len ∨
        ∃ p e', .tcpWriteErr p (a.callOf m) e' ∈ a.log) :
      SendAct P a ((((a.slotSet i
          { (a.slot i).setPend .send none with sendDone := 0, sendIov := none }).say
        (.sendEnd (a.callOf m) e)).say
        (.reply (a.callOf m) (sendResult (a.slot i).sendDone e).1
          (sendResult (a.slot i).sendDone e).2)).setTok (a.tok.oweSend i (a.slot i).tcp))
  /-- A parked send is thrown away. -/
  | dropSend (a : Abs) (i : SlotIdx) (m : MsgId) (e : Errno)
      (hm : (a.slot i).pending .send = some m) (hl : P (.drop m)) :
      SendAct P a (((a.slotSet i
          { (a.slot i).setPend .send none with sendDone := 0, sendIov := none }).say
        (.sendEnd (a.callOf m) e)).setTok (a.tok.oweSend i (a.slot i).tcp))
  /-- The send in hand is parked. -/
  | park (a : Abs) (s : Sending) (p : PcbId) (c : PcbView) (hs : a.tok.sending = some s)
      (hm : s.m ∈ a.tok.hand) (hw : s.writing = true) (hp : (a.slot s.i).pending .send = none)
      (ht : (a.slot s.i).tcp = some p) (hc : a.pcb p = some c) (hl : P .alter) :
      SendAct P a ({ (a.pcbSet p (some { c with poll := true })).slotSet s.i
          { (a.slot s.i).setPend .send (some s.m) with sendDone := s.done, sendIov := s.iov } with
        msg := Function.update a.msg s.m { a.msg s.m with len := s.len } }.setTok
        { a.tok with hand := a.tok.hand.erase s.m, sending := none })
  /-- The connection is gone under the send in hand. -/
  | cut (a : Abs) (s : Sending) (e : Errno) (hs : a.tok.sending = some s) :
      SendAct P a (a.say (.sendEnd (a.callOf s.m) e))
  /-- The send in hand is answered. -/
  | reply (a : Abs) (s : Sending) (r : Int) (e : Errno) (hs : a.tok.sending = some s)
      (hm : s.m ∈ a.tok.hand) (hr : SendAnswer s.len s.done r)
      (hl : r = s.len ∨ (r = -1 ∧ e ≠ .ok) ∨ Interrupted a.log (a.callOf s.m) ∨
        P (.short (a.callOf s.m))) :
      SendAct P a ((a.say (.reply (a.callOf s.m) r e)).setTok
        { a.tok with hand := a.tok.hand.erase s.m, sending := none })

/-! ## References -/

/-- The slot `tn_slot_alloc` makes. -/
def SlotView.new (type : Int) : SlotView := { inUse := true, type := type, refs := 1 }

/-- The acts on references to slots. -/
inductive RefAct (P : Label → Prop) : Abs → Abs → Prop where
  /-- A free slot is allocated; its reference is in hand. -/
  | alloc (a : Abs) (i : SlotIdx) (type : Int) (hf : (a.slot i).inUse = false) :
      RefAct P a ((a.slotSet i (.new type)).setTok
        { a.tok.oweAll i with refs := i :: a.tok.refs })
  /-- The reference in hand goes into a descriptor. -/
  | install (a : Abs) (b : BaseId) (n : Nat) (i : SlotIdx) (hi : i ∈ a.tok.refs)
      (hu : (a.slot i).inUse = true) (hn : n < a.dtab b) (he : a.fd b n = none)
      (hb : a.isOpen b ∨ P (.stray b)) :
      RefAct P a ((a.fdSet b n (some i)).setTok { a.tok with refs := a.tok.refs.erase i })
  /-- A descriptor is emptied; its reference is in hand. -/
  | takeFd (a : Abs) (b : BaseId) (n : Nat) (i : SlotIdx) (he : a.fd b n = some i)
      (hs : a.tok.sending = none) :
      RefAct P a ((a.fdSet b n none).setTok { a.tok with refs := i :: a.tok.refs })
  /-- The reference in hand is given up; the slot lives on. -/
  | unref (a : Abs) (i : SlotIdx) (hi : i ∈ a.tok.refs) (hu : (a.slot i).inUse = true)
      (hr : (a.slot i).refs - 1 ≠ 0) :
      RefAct P a ((a.slotSet i { a.slot i with refs := (a.slot i).refs - 1 }).setTok
        { a.tok with refs := a.tok.refs.erase i })
  /-- The last reference, in hand, is given up. -/
  | lastRef (a : Abs) (i : SlotIdx) (hi : i ∈ a.tok.refs) (hu : (a.slot i).inUse = true)
      (hr : (a.slot i).refs - 1 = 0) :
      RefAct P a ((a.slotSet i { a.slot i with refs := 0 }).setTok
        { a.tok with refs := a.tok.refs.erase i, dying := i :: a.tok.dying })
  /-- The slot whose only reference is in hand is to be freed. -/
  | condemn (a : Abs) (i : SlotIdx) (hi : i ∈ a.tok.refs) (hu : (a.slot i).inUse = true)
      (hr : (a.slot i).refs = 1) :
      RefAct P a (a.setTok
        { a.tok with refs := a.tok.refs.erase i, dying := i :: a.tok.dying })
  /-- A descriptor is duplicated. -/
  | dup (a : Abs) (b : BaseId) (n n' : Nat) (i : SlotIdx) (hi : a.fd b n' = some i)
      (hn : n < a.dtab b) (hu : (a.slot i).inUse = true)
      (he : ∀ j, a.fd b n = some j → (a.slot j).inUse = false) (hb : a.isOpen b) :
      RefAct P a ((a.fdSet b n (some i)).slotSet i { a.slot i with refs := (a.slot i).refs + 1 })
  /-- A descriptor is duplicated over the last reference to its slot. -/
  | dangle (a : Abs) (b : BaseId) (n : Nat) (i : SlotIdx) (hl : P .dangle) :
      RefAct P a (a.fdSet b n (some i))
  /-- A slot is parked with a reference of its own. -/
  | parkCopy (a : Abs) (i : SlotIdx) (hu : (a.slot i).inUse = true)
      (hp : (a.slot i).parked = false) (hd : i ∉ a.tok.dying) :
      RefAct P a (a.slotSet i { a.slot i with parked := true, refs := (a.slot i).refs + 1 })
  /-- A descriptor moves into the parking lot. -/
  | parkMove (a : Abs) (b : BaseId) (n : Nat) (i : SlotIdx) (hu : (a.slot i).inUse = true)
      (hp : (a.slot i).parked = false) (hi : a.fd b n = some i) :
      RefAct P a ((a.fdSet b n none).slotSet i { a.slot i with parked := true })
  /-- A parked slot moves into a descriptor. -/
  | obtain (a : Abs) (b : BaseId) (n : Nat) (i : SlotIdx) (hu : (a.slot i).inUse = true)
      (hp : (a.slot i).parked = true) (hn : n < a.dtab b) (he : a.fd b n = none)
      (hb : a.isOpen b) :
      RefAct P a ((a.fdSet b n (some i)).slotSet i { a.slot i with parked := false })
  /-- A slot that has been emptied becomes free. -/
  | clear (a : Abs) (i : SlotIdx) (hd : i ∈ a.tok.dying)
      (hp : ∀ k, (a.slot i).pending k = none) (ht : (a.slot i).tcp = none)
      (hu : (a.slot i).udp = none) (hr : (a.slot i).raw = none) (hq : (a.slot i).q = [])
      (hx : (a.slot i).rx = []) (hl : P (.clear i)) :
      RefAct P a ((a.slotSet i { a.slot i with inUse := false, refs := 0, parked := false }).setTok
        { a.tok with dying := a.tok.dying.filter (· ≠ i) })
  /-- A base enters the registry. -/
  | register (a : Abs) (k : Fin 16) (b : BaseId) (hk : a.openB k = none) (hb : ¬ a.isOpen b)
      (he : ∀ n, a.fd b n = none) (hl : P .alter) :
      RefAct P a { a with openB := Function.update a.openB k (some b) }
  /-- A base leaves the registry. -/
  | unregister (a : Abs) (k : Fin 16) (b : BaseId) (hk : a.openB k = some b)
      (hc : a.tok.closing = none) (hl : P .alter) :
      RefAct P a ({ a with openB := Function.update a.openB k none }.setTok
        { a.tok with closing := some b })
  /-- The descriptors of the closing base have been worked through. -/
  | closed (a : Abs) (b : BaseId) (hc : a.tok.closing = some b)
      (he : ∀ n i, n < a.dtab b → a.fd b n = some i → (a.slot i).inUse = false) :
      RefAct P a (a.setTok { a.tok with closing := none })

/-! ## Connections -/

/-- The view of a pcb that a slot has just got from `tcp_new`. -/
def PcbView.new (i : SlotIdx) : PcbView := { arg := .slot i, err := .slot }

/-- The view of a new listen pcb. -/
def PcbView.newListen (i : SlotIdx) : PcbView :=
  { listen := true, state := .listen, arg := .slot i, accept := true }

/-- A pcb with the callbacks of a connected slot. -/
def PcbView.forSlot (c : PcbView) (i : SlotIdx) : PcbView :=
  { c with arg := .slot i, recv := .slot, err := .slot, sent := true }

/-- A pcb with the callbacks of an accept entry. -/
def PcbView.forEntry (c : PcbView) (e : EntId) : PcbView :=
  { c with arg := .entry e, recv := .queued, err := .queued }

/-- Changes the accept entries at address `e`. -/
def modEntries (q : List TnAcceptEntry) (e : EntId) (f : TnAcceptEntry → TnAcceptEntry) :
    List TnAcceptEntry :=
  q.map fun x => if x.id = e then f x else x

/-- An entry with one more early segment. -/
def TnAcceptEntry.push (x : TnAcceptEntry) (seg : List UInt8) : TnAcceptEntry :=
  { x with earlyRx := x.earlyRx ++ [{ p := seg }], earlyRxCount := x.earlyRxCount + 1,
           hist := { x.hist with accepted := x.hist.accepted ++ seg } }

/-- Whether no accept entry has address `e`. -/
def Abs.FreshEntry (a : Abs) (e : EntId) : Prop := ∀ i, ∀ x ∈ (a.slot i).q, x.id ≠ e

/-- The acts on connections. -/
inductive TcpAct (P : Label → Prop) : Abs → Abs → Prop where
  /-- A new slot gets a pcb. -/
  | new (a : Abs) (i : SlotIdx) (p : PcbId) (hu : (a.slot i).Blank) (hp : a.pcb p = none)
      (hl : P .alter) :
      TcpAct P a ((a.slotSet i { a.slot i with tcp := some p }).pcbSet p (some (.new i)))
  /-- A slot becomes a listener. -/
  | listen (a : Abs) (i : SlotIdx) (p l : PcbId) (c : PcbView) (hu : (a.slot i).inUse = true)
      (ht : (a.slot i).tcp = some p) (hs : (a.slot i).st = .closed) (hc : a.pcb p = some c)
      (hl : a.pcb l = none) (hsn : a.tok.sending = none) (hj : a.tok.joined ≠ some i)
      (hal : P .alter) :
      TcpAct P a (((a.slotSet i { a.slot i with tcp := some l, st := .listening }).pcbSet p
        none).pcbSet l (some (.newListen i)))
  /-- The SYN goes out. -/
  | connect (a : Abs) (i : SlotIdx) (p : PcbId) (c : PcbView) (hu : (a.slot i).inUse = true)
      (ht : (a.slot i).tcp = some p) (hs : (a.slot i).st = .closed) (hc : a.pcb p = some c)
      (hj : a.tok.joined ≠ some i) :
      TcpAct P a ((a.slotSet i { a.slot i with st := .connecting }).pcbSet p
        (some { c with state := .synSent, recv := .slot, sent := true, connected := true }))
  /-- The callbacks of a slot's pcb are registered. -/
  | regs (a : Abs) (i : SlotIdx) (p : PcbId) (c : PcbView) (hu : (a.slot i).inUse = true)
      (ht : (a.slot i).tcp = some p) (hs : (a.slot i).st ≠ .listening) (hc : a.pcb p = some c) :
      TcpAct P a (a.pcbSet p (some { c with recv := .slot, sent := true }))
  /-- A connection moves on. -/
  | state (a : Abs) (p : PcbId) (c : PcbView) (st : TcpState) (hc : a.pcb p = some c)
      (hs : c.state.synced = true) (hs' : st.synced = true) :
      TcpAct P a (a.pcbSet p (some { c with state := st }))
  /-- The peer acknowledges data. -/
  | space (a : Abs) (p : PcbId) (c : PcbView) (n q : Nat) (hc : a.pcb p = some c) :
      TcpAct P a ((a.pcbSet p (some { c with sndBuf := n, sndQueuelen := q })).setTok
        { a.tok with owes := a.tok.owes ∪ {x | (a.slot x.1).tcp = some p} })
  /-- lwIP frees a pcb that the daemon has let go of. -/
  | gone (a : Abs) (p : PcbId) (c : PcbView) (hc : a.pcb p = some c) (ha : c.arg = .null)
      (hn : a.tok.conn = none) :
      TcpAct P a (a.pcbSet p none)
  /-- The handshake is complete. -/
  | connected (a : Abs) (i : SlotIdx) (p : PcbId) (c : PcbView) (hu : (a.slot i).inUse = true)
      (ht : (a.slot i).tcp = some p) (hc : a.pcb p = some c) (hl : c.listen = false)
      (hs : c.state = .synSent) (hj : a.tok.joined = none) :
      TcpAct P a (((a.slotSet i { a.slot i with st := .established }).pcbSet p
        (some { c with state := .established })).setTok
        { (a.tok.owe i .write).due i .connect with joined := some i })
  /-- The request that waited for the handshake has been answered. -/
  | joined (a : Abs) (i : SlotIdx) (hj : a.tok.joined = some i)
      (hp : (a.slot i).pending .connect = none) :
      TcpAct P a (a.setTok { a.tok with joined := none })
  /-- The peer has closed its side. -/
  | fin (a : Abs) (i : SlotIdx) (p : PcbId) (hu : (a.slot i).inUse = true)
      (ht : (a.slot i).tcp = some p)
      (hs : (a.slot i).st = .established ∨ (a.slot i).st = .peerClosed) :
      TcpAct P a ((a.slotSet i { a.slot i with st := .peerClosed }).setTok
        ((a.tok.owe i .read).due i .recv))
  /-- A slot loses its pcb, which is freed or left to lwIP. -/
  | release (a : Abs) (i : SlotIdx) (p : PcbId) (o : Option PcbView) (st : TnTcpState)
      (wr er : Bool) (hu : (a.slot i).inUse = true) (ht : (a.slot i).tcp = some p)
      (ho : ∀ c, o = some c → c.Orphan)
      (hc : st = .closed → a.tok.sending = none ∨ i ∈ a.tok.dying)
      (hls : (a.slot i).st = .listening → st = .listening)
      (hst : st = .closed ∨ st = .peerClosed ∨ st = .error ∨
        (i ∈ a.tok.dying ∧ st = (a.slot i).st)) :
      TcpAct P a (((a.slotSet i
          { a.slot i with tcp := none, st := st, shutWr := wr, err := er }).pcbSet p o).setTok
        (((a.tok.oweAll i).due i .recv).due i .connect))
  /-- Early data arrives on a queued connection. -/
  | entData (a : Abs) (i : SlotIdx) (e : EntId) (seg : List UInt8) :
      TcpAct P a (a.slotSet i
        { a.slot i with q := modEntries (a.slot i).q e fun x => x.push seg })
  /-- The peer of a queued connection has closed its side. -/
  | entFin (a : Abs) (i : SlotIdx) (e : EntId) :
      TcpAct P a (a.slotSet i
        { a.slot i with q := modEntries (a.slot i).q e fun x => { x with peerClosed := true } })
  /-- A queued connection is gone. -/
  | entGone (a : Abs) (i : SlotIdx) (x : TnAcceptEntry) (p : PcbId) (hx : x ∈ (a.slot i).q)
      (hp : x.newPcb = some p) :
      TcpAct P a ((a.slotSet i
        { a.slot i with q := (a.slot i).q.eraseP (·.id == x.id) }).pcbSet p none)
  /-- lwIP makes a pcb for an incoming connection. -/
  | newConn (a : Abs) (p : PcbId) (c : PcbView) (hp : a.pcb p = none) (hc : c.Fresh)
      (hn : a.tok.conn = none) :
      TcpAct P a ((a.pcbSet p (some c)).setTok { a.tok with conn := some p })
  /-- An incoming connection is refused. -/
  | abortConn (a : Abs) (p : PcbId) (hp : a.tok.conn = some p) :
      TcpAct P a ((a.pcbSet p none).setTok { a.tok with conn := none })
  /-- An incoming connection is queued. -/
  | pushEntry (a : Abs) (i : SlotIdx) (p : PcbId) (e : EntId) (c : PcbView)
      (hu : (a.slot i).inUse = true) (hs : (a.slot i).st = .listening)
      (hd : i ∉ a.tok.dying) (hp : a.tok.conn = some p) (hc : a.pcb p = some c)
      (he : a.FreshEntry e) (hn : a.tok.ent = none) :
      TcpAct P a (((a.slotSet i { a.slot i with
          q := (a.slot i).q ++ [{ id := e, newPcb := some p, listeningSlot := i }] }).pcbSet p
        (some (c.forEntry e))).setTok { a.tok.owe i .read with conn := none })
  /-- A new slot takes an incoming connection. -/
  | adopt (a : Abs) (j : SlotIdx) (p : PcbId) (c : PcbView) (hj : (a.slot j).Blank)
      (hp : a.tok.conn = some p) (hc : a.pcb p = some c) :
      TcpAct P a (((a.slotSet j { a.slot j with tcp := some p, st := .established }).pcbSet p
        (some (c.forSlot j))).setTok { a.tok.oweAll j with conn := none })
  /-- The first queued connection is taken out of its queue. -/
  | popEntry (a : Abs) (i : SlotIdx) (x : TnAcceptEntry) (rest : List TnAcceptEntry)
      (hq : (a.slot i).q = x :: rest) (hn : a.tok.ent = none) :
      TcpAct P a ((a.slotSet i { a.slot i with q := rest }).setTok
        { a.tok with ent := some x })
  /-- A new slot takes the queued connection in hand. -/
  | takeEntry (a : Abs) (j : SlotIdx) (x : TnAcceptEntry) (p : PcbId) (c : PcbView)
      (hj : (a.slot j).Blank) (hx : a.tok.ent = some x) (hp : x.newPcb = some p)
      (hc : a.pcb p = some c) :
      TcpAct P a (((a.slotSet j { a.slot j with
          tcp := some p, st := if x.peerClosed then .peerClosed else .established,
          rx := x.earlyRx, hist := x.hist }).pcbSet p (some (c.forSlot j))).setTok
        { a.tok.oweAll j with ent := none })
  /-- The queued connection in hand is aborted. -/
  | freeEntry (a : Abs) (x : TnAcceptEntry) (p : PcbId) (hx : a.tok.ent = some x)
      (hp : x.newPcb = some p) :
      TcpAct P a ((a.pcbSet p none).setTok { a.tok with ent := none })
  /-- The first queued connection is aborted. -/
  | dropEntry (a : Abs) (i : SlotIdx) (x : TnAcceptEntry) (rest : List TnAcceptEntry) (p : PcbId)
      (hq : (a.slot i).q = x :: rest) (hp : x.newPcb = some p) :
      TcpAct P a ((a.slotSet i { a.slot i with q := rest }).pcbSet p none)
  /-- A new slot gets a UDP pcb. -/
  | newUdp (a : Abs) (i : SlotIdx) (p : PcbId) (hu : (a.slot i).inUse = true)
      (ht : (a.slot i).type ≠ sockStream) (hn : (a.slot i).udp = none) (hp : a.udp p = none) :
      TcpAct P a { a.slotSet i { a.slot i with udp := some p } with
        udp := Function.update a.udp p (some i) }
  /-- A slot loses its UDP pcb. -/
  | freeUdp (a : Abs) (i : SlotIdx) (p : PcbId) (hu : (a.slot i).udp = some p) :
      TcpAct P a { a.slotSet i { a.slot i with udp := none } with
        udp := Function.update a.udp p none }
  /-- A new slot gets a raw pcb. -/
  | newRaw (a : Abs) (i : SlotIdx) (p : PcbId) (hu : (a.slot i).inUse = true)
      (ht : (a.slot i).type ≠ sockStream) (hn : (a.slot i).raw = none) (hp : a.raw p = none) :
      TcpAct P a { a.slotSet i { a.slot i with raw := some p } with
        raw := Function.update a.raw p (some i) }
  /-- A slot loses its raw pcb. -/
  | freeRaw (a : Abs) (i : SlotIdx) (p : PcbId) (hu : (a.slot i).raw = some p) :
      TcpAct P a { a.slotSet i { a.slot i with raw := none } with
        raw := Function.update a.raw p none }

/-! ## Receive queues -/

/-- The queue after `n` bytes of its first packet have been read. -/
def advanced (pkt : TnRxPacket) (rest : List TnRxPacket) (n : Nat) : List TnRxPacket :=
  if pkt.offset + n ≥ pkt.p.length then rest else { pkt with offset := pkt.offset + n } :: rest

/-- The history after `n` bytes of the first packet have been read. -/
def RxHist.took (h : RxHist) (pkt : TnRxPacket) (n : Nat) (attached : Bool) : RxHist :=
  { h with returned := h.returned ++ pkt.rest.take n,
           attached := h.attached + (if attached then n else 0),
           recved := h.recved + (if attached then n else 0) }

/-- The acts on receive queues and on the flags of a slot. -/
inductive RxAct (P : Label → Prop) : Abs → Abs → Prop where
  /-- A packet is queued. -/
  | push (a : Abs) (i : SlotIdx) (pkt : TnRxPacket) (hu : (a.slot i).inUse = true)
      (ho : pkt.offset = 0)
      (ht : (a.slot i).type ≠ sockStream ∨
        ((a.slot i).tcp.isSome ∧
          ((a.slot i).st = .established ∨ (a.slot i).st = .peerClosed))) :
      RxAct P a ((a.slotSet i { a.slot i with
          rx := (a.slot i).rx ++ [pkt],
          hist := { (a.slot i).hist with accepted := (a.slot i).hist.accepted ++ pkt.p } }).setTok
        ((a.tok.owe i .read).due i .recv))
  /-- A client reads from the first packet of a stream. -/
  | take (a : Abs) (i : SlotIdx) (pkt : TnRxPacket) (rest : List TnRxPacket) (n : Nat)
      (hq : (a.slot i).rx = pkt :: rest) (hn : n ≤ pkt.rest.length) :
      RxAct P a (a.slotSet i { a.slot i with
        rx := advanced pkt rest n, hist := (a.slot i).hist.took pkt n (a.slot i).tcp.isSome })
  /-- A client reads a datagram. -/
  | pop (a : Abs) (i : SlotIdx) (ht : (a.slot i).type ≠ sockStream) :
      RxAct P a (a.slotSet i { a.slot i with rx := (a.slot i).rx.tail })
  /-- The queue is thrown away. -/
  | drain (a : Abs) (i : SlotIdx) (hd : (a.slot i).shutRd = true ∨ i ∈ a.tok.dying) :
      RxAct P a (a.slotSet i { a.slot i with rx := [] })
  /-- The window of data that nobody will read goes back to the peer. -/
  | window (a : Abs) (i : SlotIdx) (n : Nat) (hd : (a.slot i).shutRd = true) :
      RxAct P a (a.slotSet i { a.slot i with
        hist := { (a.slot i).hist with recved := (a.slot i).hist.recved + n } })
  /-- A side of a connection is shut down. -/
  | shut (a : Abs) (i : SlotIdx) (rd wr : Bool) :
      RxAct P a ((a.slotSet i { a.slot i with
          shutRd := (a.slot i).shutRd || rd, shutWr := (a.slot i).shutWr || wr }).setTok
        { a.tok with owes := if wr then insert (i, .write) a.tok.owes else a.tok.owes,
                     serve := if rd then insert (i, .recv) a.tok.serve else a.tok.serve })
  /-- The final segment of a finished connection finds no memory. -/
  | lost (a : Abs) (i : SlotIdx) :
      RxAct P a (a.slotSet i { a.slot i with hist := { (a.slot i).hist with dropped := true } })
  /-- A stored error has been read. -/
  | clearErr (a : Abs) (i : SlotIdx) : RxAct P a (a.slotSet i { a.slot i with err := false })
  /-- `FIONBIO`. -/
  | nonblock (a : Abs) (i : SlotIdx) (v : Bool) (hl : P .alter) :
      RxAct P a (a.slotSet i { a.slot i with nonblock := v })

/-! ## Selectors and wakeups -/

/-- The table after it has grown: the entries there are and fresh ones behind them. -/
def grown (l : List TnSelector) (n : Nat) : List TnSelector :=
  let kept := l.take (min n 128)
  kept ++ List.replicate (min n 128 - kept.length) ({} : TnSelector)

/-- The acts on the selector table. -/
inductive SelStep : SelTab → SelTab → Prop where
  /-- An entry is freed and the table recounted. -/
  | off (t : SelTab) (k : Nat) (s : TnSelector) (hk : t.sel[k]? = some s) :
      SelStep t { sel := t.sel.set k s.disarm,
                  count := selectorsInUse (t.sel.set k s.disarm), armed := false }
  /-- An entry in use is freed and the counter decremented. -/
  | dec (t : SelTab) (k : Nat) (s : TnSelector) (hk : t.sel[k]? = some s) (hu : s.inUse = true) :
      SelStep t { t with sel := t.sel.set k s.disarm, count := t.count - 1 }
  /-- An entry is armed: the base's own one, or a free one when it has none. -/
  | arm (t : SelTab) (k : Nat) (s s' : TnSelector) (b : BaseId) (hk : t.sel[k]? = some s)
      (hb : s'.base = some b) (hu : s'.inUse = true)
      (hs : (s.inUse = true ∧ s.base = some b) ∨
        (s.inUse = false ∧ ∀ x ∈ t.sel, x.inUse = true → x.base ≠ some b)) :
      SelStep t { sel := t.sel.set k s', count := selectorsInUse t.sel, armed := !s.inUse }
  /-- The table grows to at most 128 entries. -/
  | grow (t : SelTab) (n : Nat) (hn : t.sel.length < n) :
      SelStep t { t with sel := grown t.sel n }

/-- The acts on selectors, with the call of `tn_signal_socket` and the settling of wakeups
that are not due any more. -/
inductive SelAct : Abs → Abs → Prop where
  | table (a : Abs) (t : SelTab) (h : SelStep a.tab t) : SelAct a { a with tab := t }
  | signal (a : Abs) (i : SlotIdx) (hu : (a.slot i).inUse = true) :
      SelAct a ((a.say (.signalSocket i (a.ready i .read) (a.ready i .write)
        (a.ready i .except))).setTok (a.tok.paid i))
  | settle (a : Abs) (i : SlotIdx) (r : Ready) (hr : a.ready i r = false) :
      SelAct a (a.setTok { a.tok with owes := a.tok.owes \ {(i, r)} })
  | weaken (a : Abs) (D : Set (SlotIdx × Ready)) (S : Set (SlotIdx × Pend))
      (hD : a.tok.owes ⊆ D) (hS : a.tok.serve ⊆ S) :
      SelAct a (a.setTok { a.tok with owes := D, serve := S })

end Tolunnet
