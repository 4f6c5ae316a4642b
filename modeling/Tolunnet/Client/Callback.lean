import Tolunnet.Desk.HandOver
import Tolunnet.Shelf.Steps

/-!
# `Tolunnet.Client.Callback`: the descriptor callback

`SBTC_FDCALLBACK` installs a callback that the library tells of every descriptor it gives out
(`FDCB_ALLOC`) and takes back (`FDCB_FREE`), so that a C runtime can keep a table of its own beside
`fd_map`. `Mirror` says that the two tables name the same descriptors.

Seven vectors touch `fd_map`. The ones that open a descriptor tell after the daemon has answered, and
only of a success. `CloseSocket`, `ReleaseSocket` and `Dup2Socket` tell `FDCB_FREE` before they ask,
and take nothing back when the request fails. `mirrors_iff_tidies` says that these failures, and
requests that are given up and carried out all the same, are all that parts the two tables.

The daemon may be in any reachable state when it handles a request, as long as the base's table is
the one the client has: other clients and lwIP may have done anything else in between.
-/

set_option autoImplicit false

namespace Tolunnet

namespace Callback

/-! ## The call to the daemon -/

/-- A client's base with a callback. `told` are the descriptors told `FDCB_ALLOC` and not told
`FDCB_FREE` since, `waiting` is an `accept` without an answer, and `lost` says that a request was
given up which the daemon may still have. -/
structure Client where
  base : TnSocketBase
  told : Nat → Bool := fun _ => false
  waiting : Option MsgId := none
  lost : Bool := false

namespace Client

/-- `fd_callback(fd, FDCB_ALLOC)`. -/
def alloc (s : Client) (fd : Nat) : Client := { s with told := Function.update s.told fd true }

/-- `fd_callback(fd, FDCB_FREE)`. -/
def free (s : Client) (fd : Nat) : Client := { s with told := Function.update s.told fd false }

end Client

/-- What becomes of a request: it is not sent for want of a port or of memory, the daemon handles it
as message `m` in state `w`, or the library gives it up. -/
inductive Fate where
  | unsent (e : Errno)
  | served (w : World) (m : MsgId) (env : List Answer)
  | givenUp (e : Errno)

/-- What the application gets: a result with the error, or nothing yet. -/
inductive Reply where
  | now (res : Int) (e : Errno)
  | waits

/-- A call that returns an error. -/
def Reply.Fails : Reply → Prop
  | .now _ e => e ≠ .ok
  | .waits => False

/-- A request of the base, with the fields that `tn_ipc_call` fills in. -/
def request (b : BaseId) (base : TnSocketBase) (x : TnIpcMsg) : TnIpcMsg :=
  { x with socketBase := some b, clientTask := base.ownerTask }

/-- `tn_ipc_call`. -/
def tnIpcCall (b : BaseId) (s : Client) (x : TnIpcMsg) : Fate → Client × Reply
  | .unsent e => (s, .now (-1) e)
  | .givenUp e => ({ s with lost := true }, .now (-1) e)
  | .served w m env =>
    match tnHandleIpc { receive w m (request b s.base x) with env := env } m with
    | (w, .replyNow) => ({ s with base := w.bases b }, .now (w.msgs m).result (w.msgs m).errNo)
    | (w, .defer) => ({ s with base := w.bases b, waiting := some m }, .waits)

/-! ## The vectors -/

/-- The arguments of a message. -/
def argList (l : List Int) : Nat → Int := fun n => l.getD n 0

/-- The loop over `FDCB_CHECK`: the first free descriptor that the callback lets pass, or -1. -/
def preferredFd (base : TnSocketBase) (check : Nat → Bool) : Int :=
  match (List.range base.dtablesize).find? fun i => (base.fdMap i).isNone && check i with
  | some i => i
  | none => -1

/-- `if (res >= 0) fd_callback(res, FDCB_ALLOC)`. -/
def tellAlloc (r : Client × Reply) : Client × Reply :=
  match r with
  | (s, .now res e) => (if res ≥ 0 then s.alloc res.toNat else s, .now res e)
  | (s, .waits) => (s, .waits)

/-- `sock < dtablesize && fd_map[sock] >= 0`, for a `sock` that is not negative. -/
def isOpen (base : TnSocketBase) (sock : Int) : Bool :=
  decide (0 ≤ sock) && decide (sock < base.dtablesize) && (base.fdMap sock.toNat).isSome

/-- The seven vectors with their arguments. -/
inductive LibCall where
  | socket (domain type protocol : Int)
  | accept (sock : Int) (ptrs : Nat → Ptr)
  | obtainsocket (id domain type protocol : Int)
  | closesocket (sock : Int)
  | releasesocket (sock id : Int)
  | releasecopyofsocket (sock id : Int)
  | dup2socket (oldSock newSock : Int)

section

variable (b : BaseId) (check : Nat → Bool) (fate : Fate) (s : Client)

/-- `tn_lvo_socket`. -/
def tnLvoSocket (domain type protocol : Int) : Client × Reply :=
  tellAlloc (tnIpcCall b s
    { cmd := .socket, args := argList [domain, type, protocol, preferredFd s.base check] } fate)

/-- `tn_lvo_accept`. -/
def tnLvoAccept (sock : Int) (ptrs : Nat → Ptr) : Client × Reply :=
  if sock < 0 then (s, .now (-1) .ebadf)
  else
    tellAlloc (tnIpcCall b s
      { cmd := .accept, args := argList [sock, 0, 0, preferredFd s.base check], ptrs := ptrs } fate)

/-- `tn_lvo_obtainsocket`. -/
def tnLvoObtainsocket (id domain type protocol : Int) : Client × Reply :=
  tellAlloc (tnIpcCall b s
    { cmd := .obtainsocket,
      args := argList [id, domain, type, protocol, preferredFd s.base check] } fate)

/-- `tn_lvo_closesocket`. -/
def tnLvoClosesocket (sock : Int) : Client × Reply :=
  if sock < 0 then (s, .now (-1) .ebadf)
  else
    let s := if isOpen s.base sock then s.free sock.toNat else s
    tnIpcCall b s { cmd := .closesocket, args := argList [sock] } fate

/-- `tn_lvo_releasesocket`. -/
def tnLvoReleasesocket (sock id : Int) : Client × Reply :=
  if isOpen s.base sock then
    tnIpcCall b (s.free sock.toNat) { cmd := .releasesocket, args := argList [sock, id, 0] } fate
  else (s, .now (-1) .ebadf)

/-- `tn_lvo_releasecopyofsocket`. -/
def tnLvoReleasecopyofsocket (sock id : Int) : Client × Reply :=
  if isOpen s.base sock then
    tnIpcCall b s { cmd := .releasesocket, args := argList [sock, id, 1] } fate
  else (s, .now (-1) .ebadf)

end

/-- The descriptor that `Dup2Socket` writes, after its checks. For -1 it is the lowest free one. -/
def dup2Target (base : TnSocketBase) (oldSock newSock : Int) : Except Errno Int :=
  if oldSock < 0 ∨ oldSock ≥ base.dtablesize then .error .ebadf
  else
    let chosen : Option Int := if newSock = -1 then
        ((List.range base.dtablesize).find? fun i =>
          (base.fdMap i).isNone && decide ((i : Int) ≠ oldSock)).map fun i => (i : Int)
      else some newSock
    match chosen with
    | none => .error .emfile
    | some newSock =>
      if newSock < 0 ∨ newSock ≥ base.dtablesize then .error .ebadf
      else if (base.fdMap oldSock.toNat).isNone then .error .ebadf
      else .ok newSock

/-- `if (res >= 0) fd_callback(new_sock, FDCB_ALLOC)`. -/
def tellAllocAt (fd : Nat) (r : Client × Reply) : Client × Reply :=
  match r with
  | (s, .now res e) => (if res ≥ 0 then s.alloc fd else s, .now res e)
  | (s, .waits) => (s, .waits)

/-- `tn_lvo_dup2socket`. -/
def tnLvoDup2socket (b : BaseId) (fate : Fate) (s : Client) (oldSock newSock : Int) :
    Client × Reply :=
  match dup2Target s.base oldSock newSock with
  | .error e => (s, .now (-1) e)
  | .ok newSock =>
    if oldSock = newSock then (s, .now newSock .ok)
    else
      let s := if (s.base.fdMap newSock.toNat).isSome then s.free newSock.toNat else s
      tellAllocAt newSock.toNat
        (tnIpcCall b s { cmd := .dup2, args := argList [oldSock, newSock] } fate)

/-- The vector of a call. -/
def LibCall.run (b : BaseId) (check : Nat → Bool) (fate : Fate) (s : Client) :
    LibCall → Client × Reply
  | .socket domain type protocol => tnLvoSocket b check fate s domain type protocol
  | .accept sock ptrs => tnLvoAccept b check fate s sock ptrs
  | .obtainsocket id domain type protocol =>
    tnLvoObtainsocket b check fate s id domain type protocol
  | .closesocket sock => tnLvoClosesocket b fate s sock
  | .releasesocket sock id => tnLvoReleasesocket b fate s sock id
  | .releasecopyofsocket sock id => tnLvoReleasecopyofsocket b fate s sock id
  | .dup2socket oldSock newSock => tnLvoDup2socket b fate s oldSock newSock

/-! ## Runs -/

/-- What happens next: a call, the end of an `accept` that had to wait (lwIP has a connection for
listener `i`, the daemon answers with an error, or the library gives up), or the daemon carries out
requests that were given up. -/
inductive Doing where
  | call (c : LibCall) (check : Nat → Bool) (fate : Fate)
  | connection (w : World) (i : SlotIdx) (p : PcbId)
  | refusal (e : Errno)
  | giveUp (e : Errno)
  | behind (fdMap : Nat → Option SlotIdx)

/-- The next state and what the application gets. -/
def next (b : BaseId) (s : Client) : Doing → Client × Reply
  | .call c check fate => c.run b check fate s
  | .connection w i p =>
    let w' := (tnTcpAcceptCb w i p).1
    match s.waiting with
    | some m =>
      tellAlloc ({ s with base := w'.bases b, waiting := none },
        .now (w'.msgs m).result (w'.msgs m).errNo)
    | none => (s, .waits)
  | .refusal e => ({ s with waiting := none }, .now (-1) e)
  | .giveUp e => ({ s with waiting := none, lost := true }, .now (-1) e)
  | .behind fdMap => ({ s with base := { s.base with fdMap := fdMap } }, .waits)

/-- A state of the daemon with the table of the base as the client has it. -/
structure Serves (b : BaseId) (s : Client) (w : World) : Prop where
  reach : Reachable w
  fdMap : (w.bases b).fdMap = s.base.fdMap
  dtablesize : (w.bases b).dtablesize = s.base.dtablesize

/-- What can happen next. -/
def Allowed (b : BaseId) (s : Client) : Doing → Prop
  | .call _ _ (.served w _ _) => s.waiting = none ∧ Serves b s w
  | .call _ _ _ => s.waiting = none
  | .connection w i _ => Serves b s w ∧ (w.sockets i).inUse = true ∧
      (w.sockets i).tcpState = .listening ∧ ∃ m, s.waiting = some m ∧
        (w.sockets i).pending .accept = some m ∧ (w.msgs m).socketBase = some b
  | .refusal e | .giveUp e => s.waiting ≠ none ∧ e ≠ .ok
  | .behind _ => s.lost = true

/-- The descriptors told are those in use. -/
def Mirror (s : Client) : Prop := ∀ fd, s.told fd = (s.base.fdMap fd).isSome

/-- The same descriptors are told, and the same are in use. -/
def Same (s s' : Client) : Prop :=
  s'.told = s.told ∧ ∀ fd, (s'.base.fdMap fd).isSome = (s.base.fdMap fd).isSome

/-- The tables name the same descriptors all along a run, and a call that fails leaves both as they
were. -/
def Mirrors (b : BaseId) : Client → List Doing → Prop
  | s, [] => Mirror s
  | s, d :: ds => Mirror s ∧ ((next b s d).2.Fails → Same s (next b s d).1) ∧
      Mirrors b (next b s d).1 ds

/-- A slot that can be parked under an id. -/
def Releasable (w : World) (i : SlotIdx) (id : Int) : Prop :=
  (w.sockets i).isParked = false ∧ (id = -1 ∨ 0 ≤ id ∧ parkIdTaken w id = false)

/-- The daemon grants the request of a vector that tells `FDCB_FREE` first. -/
def Granted (b : BaseId) : LibCall → Fate → Prop
  | .closesocket sock, .served w _ _ => tnSlotLookup w (some b) sock ≠ none
  | .releasesocket sock id, .served w _ _ =>
    ∃ i, tnSlotLookup w (some b) sock = some i ∧ Releasable w i id
  | .dup2socket oldSock _, .served w _ _ => tnSlotLookup w (some b) oldSock ≠ none
  | _, _ => False

/-- The descriptor that is told `FDCB_FREE` before the daemon is asked. -/
def freedFirst (s : Client) : LibCall → Option Nat
  | .closesocket sock | .releasesocket sock _ => if isOpen s.base sock then some sock.toNat else none
  | .dup2socket oldSock newSock =>
    match dup2Target s.base oldSock newSock with
    | .ok newSock =>
      if oldSock ≠ newSock ∧ (s.base.fdMap newSock.toNat).isSome then some newSock.toNat else none
    | .error _ => none
  | _ => none

/-- What is told `FDCB_FREE` first is given up, and requests that were given up leave the table
alone. -/
def Tidy (b : BaseId) (s : Client) : Doing → Prop
  | .call c _ fate => freedFirst s c ≠ none → Granted b c fate
  | .behind fdMap => ∀ fd, (fdMap fd).isSome = (s.base.fdMap fd).isSome
  | _ => True

/-- All steps of a run can happen. -/
def Runs (b : BaseId) : Client → List Doing → Prop
  | _, [] => True
  | s, d :: ds => Allowed b s d ∧ Runs b (next b s d).1 ds

/-- All steps of a run are tidy. -/
def Tidies (b : BaseId) : Client → List Doing → Prop
  | _, [] => True
  | s, d :: ds => Tidy b s d ∧ Tidies b (next b s d).1 ds

/-! ## What the daemon does to the table -/

variable {w w' : World} {m : MsgId} {b : BaseId} {i : SlotIdx} {p : PcbId} {x : TnIpcMsg}
  {env : List Answer}

/-- A request for a descriptor is granted one, refused, or has to wait. -/
inductive Opens (b : BaseId) (m : MsgId) (w : World) : World × TnIpcReplyAction → Prop where
  | granted {w' : World} (fd : Nat) (j : SlotIdx)
      (hf : (w'.bases b).fdMap = Function.update (w.bases b).fdMap fd (some j)) :
      Opens b m w (done w' m fd .ok)
  | refused {w' : World} (e : Errno) (he : e ≠ .ok) (hf : (w'.bases b).fdMap = (w.bases b).fdMap) :
      Opens b m w (fail w' m e)
  | parked {w' : World} (hf : (w'.bases b).fdMap = (w.bases b).fdMap) : Opens b m w (w', .defer)

theorem fdMap_of_still (h : Still w w') (b : BaseId) : (w'.bases b).fdMap = (w.bases b).fdMap :=
  congrArg (fun t => (t b).fdMap) h.table

/-- One descriptor changes. -/
theorem fdMap_setFd (fd : Nat) (v : Option SlotIdx) :
    ((w.setFd b fd v).bases b).fdMap = Function.update (w.bases b).fdMap fd v := by
  simp [World.setFd, World.modBase]

/-- One descriptor changes, and quiet code runs. -/
theorem fdMap_enters {fd : Nat} {v : Option SlotIdx} (h : Enters b fd v w w') :
    (w'.bases b).fdMap = Function.update (w.bases b).fdMap fd v := by
  have table : (w'.bases b).fdMap = ((Function.update (shelf w).table b _) b).fdMap :=
    congrArg (fun t => (t b).fdMap) h.table
  rw [Function.update_self] at table
  exact table

theorem fdMap_record (e : Nat) :
    ((tnRecordSocketEvent w i e).bases b).fdMap = (w.bases b).fdMap :=
  (Meek.tnRecordSocketEvent e).only.fds b

theorem msgs_record (e : Nat) : (tnRecordSocketEvent w i e).msgs = w.msgs := by
  unfold tnRecordSocketEvent
  dsimp only
  split
  · split
    · rfl
    · split
      · split <;> rfl
      · rfl
  · rfl

/-- A reply that is set before an event is recorded is the one the client reads. -/
theorem record_reply {e : Nat} {r : Int} {err : Errno} :
    (((tnRecordSocketEvent (w.setReply m r err) i e).replyMsg m).msgs m).result = r ∧
      (((tnRecordSocketEvent (w.setReply m r err) i e).replyMsg m).msgs m).errNo = err := by
  have same : ((tnRecordSocketEvent (w.setReply m r err) i e).replyMsg m).msgs
      = (w.setReply m r err).msgs := msgs_record e
  rw [same]
  simp [World.setReply, World.modMsg]

/-- `SOCKET` opens a descriptor or none. -/
theorem tnIpcCmdSocket_opens (hb : (w.msgs m).socketBase = some b) :
    Opens b m w (tnIpcCmdSocket w m) := by
  unfold tnIpcCmdSocket
  dsimp only
  split
  · rename_i refusal
    exact .refused _ refusal rfl
  · rw [hb]
    dsimp only
    split
    · exact .refused _ (by decide) rfl
    · rename_i fd _
      split
      · exact .refused _ (by decide) rfl
      · rename_i i _
        generalize hw1 : tnSlotAlloc w i _ _ _ _ _ = w1
        have alloc : (w1.bases b).fdMap = (w.bases b).fdMap := by
          rw [← hw1]
          rfl
        have made := fdMap_newPcb (w := w1) (i := i) ((w.msgs m).args 1) ((w.msgs m).args 2) b
        split
        · rename_i w2 heq
          rw [heq] at made
          exact .refused _ (by decide) ((fdMap_of_still tnSlotFree_still b).trans (made.trans alloc))
        · rename_i w2 heq
          rw [heq] at made
          refine .granted fd i ?_
          rw [← alloc, ← made, ← fdMap_setFd]
          split
          · exact fdMap_record _
          · rfl

/-- `OBTAINSOCKET` opens a descriptor or none. -/
theorem tnIpcCmdObtainsocket_opens (hb : (w.msgs m).socketBase = some b) :
    Opens b m w (tnIpcCmdObtainsocket w m) := by
  rcases tnIpcCmdObtainsocket_cases hb with ⟨e, he, -, h⟩ | ⟨i, fd, -, -, -, h⟩
  · rw [h]
    exact .refused e he rfl
  · rw [h]
    exact .granted fd i (fdMap_setFd fd (some i))

theorem fdMap_takeEntry (j : SlotIdx) (ent : TnAcceptEntry) :
    ((takeEntry w m i j ent).bases b).fdMap = (w.bases b).fdMap := by
  unfold takeEntry
  dsimp only
  split
  · exact fdMap_of_shelf (shelf_adoptPcb m i j _) b
  · rfl

theorem fdMap_recordAccepted (j : SlotIdx) :
    ((recordAccepted w j).bases b).fdMap = (w.bases b).fdMap := by
  unfold recordAccepted
  dsimp only
  split
  · split
    · rw [fdMap_record, fdMap_record, fdMap_record]
    · rw [fdMap_record, fdMap_record]
  · exact fdMap_record _

/-- A queued connection opens a descriptor or none. -/
theorem acceptQueued_opens (hb : (w.msgs m).socketBase = some b) (ent : TnAcceptEntry) :
    Opens b m w (acceptQueued w m i ent) := by
  unfold acceptQueued
  dsimp only
  rw [hb]
  dsimp only [Option.getD_some]
  split
  · exact .refused _ (by decide) (fdMap_of_shelf (shelf_tnAcceptEntryFree ent) b)
  · rename_i j _
    generalize hw1 : tnSlotAlloc _ j _ _ _ _ _ = w1
    have alloc : (w1.bases b).fdMap = (w.bases b).fdMap := by
      rw [← hw1]
      rfl
    split
    · refine .refused _ (by decide) ?_
      rw [fdMap_of_shelf (shelf_tnAcceptEntryFree ent), fdMap_of_still tnSlotFree_still, alloc]
    · rename_i fd _
      refine .granted fd j ?_
      rw [fdMap_recordAccepted, fdMap_takeEntry, fdMap_setFd, alloc]

/-- `ACCEPT` opens one, or waits. -/
theorem tnIpcCmdAccept_opens (hb : (w.msgs m).socketBase = some b) (slot : Option SlotIdx) :
    Opens b m w (tnIpcCmdAccept w m slot) := by
  unfold tnIpcCmdAccept
  split
  · exact .refused _ (by decide) rfl
  · dsimp only
    split
    · exact .refused _ (by decide) rfl
    · split
      · exact acceptQueued_opens hb _
      · split
        · exact .refused _ (by decide) rfl
        · exact .parked rfl

/-- A connection for an `accept` that waits is answered in the same way. -/
theorem tnTcpAcceptCb_opens (hu : (w.sockets i).inUse = true)
    (hl : (w.sockets i).tcpState = .listening) (hp : (w.sockets i).pending .accept = some m)
    (hb : (w.msgs m).socketBase = some b) :
    (∃ fd j, (((tnTcpAcceptCb w i p).1.msgs m).result = (fd : Nat) ∧
      ((tnTcpAcceptCb w i p).1.msgs m).errNo = .ok) ∧
      ((tnTcpAcceptCb w i p).1.bases b).fdMap = Function.update (w.bases b).fdMap fd (some j)) ∨
    (((tnTcpAcceptCb w i p).1.msgs m).result = -1 ∧
      ((tnTcpAcceptCb w i p).1.msgs m).errNo ≠ .ok) ∧
      ((tnTcpAcceptCb w i p).1.bases b).fdMap = (w.bases b).fdMap := by
  have live : ¬ (¬ (w.sockets i).inUse = true ∨ (w.sockets i).tcpState ≠ .listening) := by
    simp [hu, hl]
  unfold tnTcpAcceptCb
  dsimp only
  rw [if_neg live, hp]
  dsimp only
  rw [hb]
  dsimp only [Option.getD_some]
  split
  · exact Or.inr ⟨⟨answerMsg_reply.1, by simp [answerMsg_reply.2]⟩, fdMap_of_shelf (by simp) b⟩
  · rename_i j _
    generalize hw1 : tnSlotAlloc _ j _ _ _ _ _ = w1
    have alloc : (w1.bases b).fdMap = (w.bases b).fdMap := by
      rw [← hw1]
      rfl
    split
    · refine Or.inr ⟨⟨answerMsg_reply.1, by simp [answerMsg_reply.2]⟩, ?_⟩
      dsimp only
      rw [fdMap_of_shelf (w := tnSlotFree w1 j) (by simp) b, fdMap_of_still tnSlotFree_still b, alloc]
    · rename_i fd _
      refine Or.inl ⟨fd, j, ?_, ?_⟩
      · exact record_reply
      · rw [fdMap_of_shelf (shelf_replyMsg m) b, fdMap_record, ← alloc, ← fdMap_setFd]
        exact fdMap_of_shelf (by simp) b

/-! ## One request -/

variable {s s' : Client} {fate : Fate} {check : Nat → Bool} {r : Client × Reply}

/-- The tables name the same descriptors after a call, and one that fails has left both alone. -/
def InStep (s : Client) (r : Client × Reply) : Prop :=
  Mirror r.1 ∧ (r.2.Fails → Same s r.1)

/-- Neither the callback nor the daemon has moved a descriptor. -/
structure Kept (s s' : Client) : Prop where
  told : s'.told = s.told
  fdMap : s'.base.fdMap = s.base.fdMap

theorem Kept.refl (s : Client) : Kept s s := ⟨rfl, rfl⟩

/-- The client changes nothing it told. -/
theorem Kept.same (h : Kept s s') : Same s s' := ⟨h.told, fun fd => by rw [h.fdMap]⟩

/-- What agrees goes on agreeing. -/
theorem Same.mirror (h : Same s s') (hm : Mirror s) : Mirror s' := by
  intro fd
  rw [h.1, h.2]
  exact hm fd

/-- A call that changes nothing stays in step. -/
theorem Kept.inStep {r : Reply} (h : Kept s s') (hm : Mirror s) : InStep s (s', r) :=
  ⟨h.same.mirror hm, fun _ => h.same⟩

/-- What a request for a descriptor comes to: a descriptor, or nothing has moved. -/
inductive Got (s : Client) : Client × Reply → Prop where
  | granted {s' : Client} (fd : Nat) (j : SlotIdx) (ht : s'.told = s.told)
      (hf : s'.base.fdMap = Function.update s.base.fdMap fd (some j)) : Got s (s', .now fd .ok)
  | refused {s' : Client} (e : Errno) (h : Kept s s') : Got s (s', .now (-1) e)
  | parked {s' : Client} (h : Kept s s') : Got s (s', .waits)

/-- The callback is told of just the descriptor that was got. -/
theorem Got.tellAlloc (h : Got s r) (hm : Mirror s) : InStep s (tellAlloc r) := by
  cases h with
  | @granted s' fd j ht hf =>
    refine ⟨fun fd' => ?_, fun hfail => absurd rfl hfail⟩
    show Function.update s'.told fd true fd' = (s'.base.fdMap fd').isSome
    rw [ht, hf]
    by_cases hfd : fd' = fd
    · subst hfd
      simp
    · rw [Function.update_of_ne hfd, Function.update_of_ne hfd]
      exact hm fd'
  | refused e h => exact h.inStep hm
  | parked h => exact h.inStep hm

/-- A request that is answered at once. -/
theorem tnIpcCall_done {res : Int} {e : Errno}
    (hd : tnHandleIpc { receive w m (request b s.base x) with env := env } m = done w' m res e) :
    tnIpcCall b s x (.served w m env) = ({ s with base := w'.bases b }, .now res e) := by
  unfold tnIpcCall
  dsimp only
  rw [hd]
  simp [done, World.setReply, World.modMsg]

/-- The client goes on with the table that the daemon leaves. -/
theorem tnIpcCall_base :
    (tnIpcCall b s x (.served w m env)).1.base
      = (step w (.ipc m (request b s.base x) env)).bases b := by
  show _ = (handleMsg { receive w m (request b s.base x) with env := env } m).bases b
  unfold tnIpcCall handleMsg
  dsimp only
  generalize tnHandleIpc _ m = h
  obtain ⟨w', act⟩ := h
  cases act <;> rfl

/-- What the client does with the new descriptor. -/
theorem Opens.got (hv : Serves b s w)
    (ho : Opens b m (presented w m (request b s.base x) env)
      (tnHandleIpc { receive w m (request b s.base x) with env := env } m)) :
    Got s (tnIpcCall b s x (.served w m env)) := by
  have base : ((presented w m (request b s.base x) env).bases b).fdMap = s.base.fdMap := hv.fdMap
  generalize hd : tnHandleIpc { receive w m (request b s.base x) with env := env } m = h at ho
  cases ho with
  | granted fd j hf =>
    rw [tnIpcCall_done hd]
    exact .granted fd j rfl (by rw [← base]; exact hf)
  | refused e he hf =>
    rw [tnIpcCall_done hd]
    exact .refused e ⟨rfl, hf.trans base⟩
  | parked hf =>
    unfold tnIpcCall
    dsimp only
    rw [hd]
    exact .parked ⟨rfl, hf.trans base⟩

/-- A request with a table entry of its own is dispatched on its command. -/
theorem tnHandleIpc_request (hk : x.cmd ≠ .unknown ∧ x.cmd ≠ .gethostbyaddr) :
    tnHandleIpc { receive w m (request b s.base x) with env := env } m =
      if needsFd x.cmd then
        match tnSlotLookup w (some b) (x.args 0) with
        | none => fail (presented w m (request b s.base x) env) m .ebadf
        | some i => handler (presented w m (request b s.base x) env) m (some i)
      else handler (presented w m (request b s.base x) env) m none := by
  have dispatch := tnHandleIpc_presented w m (request b s.base x) env
  have known : ¬ ((request b s.base x).cmd = .unknown ∨ (request b s.base x).cmd = .gethostbyaddr) :=
    fun h => h.elim hk.1 hk.2
  rw [if_neg known, if_neg (by simp [request])] at dispatch
  exact dispatch

/-- The request as the handler sees it. -/
theorem request_msg : (presented w m (request b s.base x) env).msgs m
    = { request b s.base x with result := 0, errNo := .ok } := presented_msg

/-- `Socket`, `Accept` and `ObtainSocket`. -/
theorem tnIpcCall_got (hv : ∀ w m env, fate = .served w m env → Serves b s w)
    (hx : x.cmd = .socket ∨ x.cmd = .accept ∨ x.cmd = .obtainsocket) :
    Got s (tnIpcCall b s x fate) := by
  cases fate with
  | unsent e => exact .refused e (.refl s)
  | givenUp e => exact .refused e ⟨rfl, rfl⟩
  | served w m env =>
    have owner : ((presented w m (request b s.base x) env).msgs m).socketBase = some b := by
      rw [request_msg]
      rfl
    have cmd : ((presented w m (request b s.base x) env).msgs m).cmd = x.cmd := by
      rw [request_msg]
      rfl
    refine Opens.got (hv w m env rfl) ?_
    rw [tnHandleIpc_request (by obtain h | h | h := hx <;> simp [h])]
    obtain hx | hx | hx := hx
    · rw [hx] at cmd ⊢
      rw [if_neg (by decide)]
      unfold handler
      rw [cmd]
      exact tnIpcCmdSocket_opens owner
    · rw [hx] at cmd ⊢
      rw [if_pos (by decide)]
      split
      · exact .refused _ (by decide) rfl
      · unfold handler
        rw [cmd]
        exact tnIpcCmdAccept_opens owner _
    · rw [hx] at cmd ⊢
      rw [if_neg (by decide)]
      unfold handler
      rw [cmd]
      exact tnIpcCmdObtainsocket_opens owner

/-- A request about a descriptor that the daemon does not know is refused. -/
theorem tnIpcCall_unknown (hk : x.cmd ≠ .unknown ∧ x.cmd ≠ .gethostbyaddr)
    (hn : needsFd x.cmd = true) (hl : tnSlotLookup w (some b) (x.args 0) = none) :
    tnIpcCall b s x (.served w m env) = ({ s with base := w.bases b }, .now (-1) .ebadf) := by
  have refused : tnHandleIpc { receive w m (request b s.base x) with env := env } m
      = done (presented w m (request b s.base x) env) m (-1) .ebadf := by
    rw [tnHandleIpc_request hk, if_pos hn, hl]
    rfl
  have call := tnIpcCall_done refused
  exact call

/-- A request about a descriptor that the daemon knows goes to its handler. -/
theorem tnHandleIpc_known (env : List Answer) (hk : x.cmd ≠ .unknown ∧ x.cmd ≠ .gethostbyaddr)
    (hn : needsFd x.cmd = true) (hl : tnSlotLookup w (some b) (x.args 0) = some i) :
    tnHandleIpc { receive w m (request b s.base x) with env := env } m
      = handler (presented w m (request b s.base x) env) m (some i) := by
  rw [tnHandleIpc_request hk, if_pos hn, hl]

/-! ## The requests that are told first -/

/-- The daemon has taken a descriptor back. -/
structure Dropped (fd : Nat) (s s' : Client) : Prop where
  told : s'.told = s.told
  fdMap : s'.base.fdMap = Function.update s.base.fdMap fd none

/-- A request that is granted, with its effect on the client, or not granted and without one. -/
inductive Asked (granted : Prop) (effect : Client → Client → Prop) (s : Client) :
    Client × Reply → Prop where
  | granted {s' : Client} (res : Int) (hr : 0 ≤ res) (hg : granted) (he : effect s s') :
      Asked granted effect s (s', .now res .ok)
  | refused {s' : Client} (e : Errno) (hg : ¬ granted) (h : Kept s s') :
      Asked granted effect s (s', .now (-1) e)

/-- A weaker effect. -/
theorem Asked.mono {granted : Prop} {effect effect' : Client → Client → Prop}
    (h : Asked granted effect s r) (he : ∀ {s'}, effect s s' → effect' s s') :
    Asked granted effect' s r := by
  cases h with
  | granted res hr hg h => exact .granted res hr hg (he h)
  | refused e hg hk => exact .refused e hg hk

/-- `CloseSocket` is told first and then asked. -/
theorem tnIpcCall_closesocket (hv : ∀ w m env, fate = .served w m env → Serves b s w) (sock : Int) :
    Asked (Granted b (.closesocket sock) fate) (Dropped sock.toNat) s
      (tnIpcCall b s { cmd := .closesocket, args := argList [sock] } fate) := by
  cases fate with
  | unsent e => exact .refused e id (.refl s)
  | givenUp e => exact .refused e id ⟨rfl, rfl⟩
  | served w m env =>
    have serves := hv w m env rfl
    cases hl : tnSlotLookup w (some b) sock with
    | none =>
      rw [tnIpcCall_unknown (by simp) rfl hl]
      exact .refused _ (fun hg => hg hl) ⟨rfl, serves.fdMap⟩
    | some i =>
      have closed := tnHandleIpc_known (m := m) (s := s)
        (x := { cmd := .closesocket, args := argList [sock] }) env (by simp) rfl hl
      generalize hw1 : presented w m (request b s.base _) env = w1 at closed
      have handled : handler w1 m (some i)
          = done (tnSlotUnref ((cancelOwn w1 i b).setFd b sock.toNat none) i) m 0 .ok := by
        subst hw1
        unfold handler
        rw [request_msg]
        unfold tnIpcCmdClosesocket
        rw [request_msg]
        rfl
      rw [tnIpcCall_done (closed.trans handled)]
      refine .granted 0 le_rfl (by simp [Granted, hl]) ⟨rfl, ?_⟩
      show ((tnSlotUnref ((cancelOwn w1 i b).setFd b sock.toNat none) i).bases b).fdMap = _
      rw [fdMap_of_still tnSlotUnref_still b, fdMap_setFd, fdMap_of_shelf (Replies.cancelOwn shelf_replies b) b]
      subst hw1
      exact congrArg (fun f => Function.update f sock.toNat none) serves.fdMap

/-- An id can be had just when it is asked for as `UNIQUE_ID` or is free. -/
theorem chooseParkId_ok (hn : 0 < w.nextParkId ∧ w.nextParkId < 2 ^ 31) (id : Int) :
    (∃ w' id', chooseParkId w id = (w', .ok id') ∧ 0 ≤ id') ∧
        (id = -1 ∨ 0 ≤ id ∧ parkIdTaken w id = false) ∨
      (∃ w' e, chooseParkId w id = (w', .error e)) ∧
        ¬ (id = -1 ∨ 0 ≤ id ∧ parkIdTaken w id = false) := by
  by_cases hu : id = -1
  · subst hu
    obtain ⟨w', id', h, hp⟩ := chooseParkId_unique hn
    exact Or.inl ⟨⟨w', id', h, by omega⟩, Or.inl rfl⟩
  · unfold chooseParkId
    rw [if_neg hu]
    split_ifs with hneg ht
    · exact Or.inr ⟨⟨w, _, rfl⟩, by omega⟩
    · refine Or.inr ⟨⟨w, _, rfl⟩, ?_⟩
      rintro (h | h)
      · exact hu h
      · rw [ht] at h
        cases h.2
    · exact Or.inl ⟨⟨w, id, rfl, by omega⟩, Or.inr ⟨by omega, by simpa using ht⟩⟩

/-- The handler parks the slot just when it is releasable. -/
theorem tnIpcCmdReleasesocket_iff (hb : (w.msgs m).socketBase = some b)
    (hn : 0 < w.nextParkId ∧ w.nextParkId < 2 ^ 31) :
    (Releasable w i ((w.msgs m).args 1) ∧ ∃ n id, 0 ≤ id ∧ tnIpcCmdReleasesocket w m (some i)
        = done (parkSlot { w with nextParkId := n } i b (w.msgs m) id) m id .ok) ∨
      ¬ Releasable w i ((w.msgs m).args 1) ∧ ∃ n e, tnIpcCmdReleasesocket w m (some i)
        = fail { w with nextParkId := n } m e := by
  unfold tnIpcCmdReleasesocket Releasable
  dsimp only
  rw [hb]
  dsimp only
  split
  · rename_i hp
    exact Or.inr ⟨fun h => by simp [h.1] at hp, w.nextParkId, .ebusy, rfl⟩
  · rename_i hp
    obtain ⟨n, moved, -⟩ := chooseParkId_eq (w := w) ((w.msgs m).args 1)
    obtain ⟨⟨w', id, chosen, pos⟩, hid⟩ | ⟨⟨w', e, chosen⟩, hid⟩ :=
      chooseParkId_ok hn ((w.msgs m).args 1)
    · rw [chosen] at moved ⊢
      obtain rfl : w' = _ := moved
      exact Or.inl ⟨⟨by simpa using hp, hid⟩, n, id, pos, rfl⟩
    · rw [chosen] at moved ⊢
      obtain rfl : w' = _ := moved
      exact Or.inr ⟨fun h => hid h.2, n, e, rfl⟩

/-- What a release does to the client. A copy leaves it the descriptor. -/
structure Parked (copy : Int) (fd : Nat) (s s' : Client) : Prop where
  told : s'.told = s.told
  fdMap : s'.base.fdMap
    = if copy % 65536 ≠ 0 then s.base.fdMap else Function.update s.base.fdMap fd none

/-- A copy stays where it is, the original goes. -/
theorem fdMap_parkSlot (id : Int) :
    ((parkSlot w i b x id).bases b).fdMap = if x.args 2 % 65536 ≠ 0 then (w.bases b).fdMap
      else Function.update (w.bases b).fdMap (x.args 0).toNat none := by
  unfold parkSlot
  dsimp only
  split
  · exact fdMap_of_shelf (shelf_tnSlotRef i) b
  · exact fdMap_setFd _ _

/-- `ReleaseSocket` is told first unless a copy is released. -/
theorem tnIpcCall_releasesocket (hv : ∀ w m env, fate = .served w m env → Serves b s w)
    (sock id copy : Int) :
    Asked (Granted b (.releasesocket sock id) fate) (Parked copy sock.toNat) s
      (tnIpcCall b s { cmd := .releasesocket, args := argList [sock, id, copy] } fate) := by
  cases fate with
  | unsent e => exact .refused e (fun hg => hg) (.refl s)
  | givenUp e => exact .refused e (fun hg => hg) ⟨rfl, rfl⟩
  | served w m env =>
    have serves := hv w m env rfl
    cases hl : tnSlotLookup w (some b) sock with
    | none =>
      rw [tnIpcCall_unknown (by simp) rfl hl]
      refine .refused _ (fun hg => ?_) ⟨rfl, serves.fdMap⟩
      obtain ⟨i, hi, -⟩ := hg
      rw [hl] at hi
      cases hi
    | some i =>
      have released := tnHandleIpc_known (m := m) (s := s)
        (x := { cmd := .releasesocket, args := argList [sock, id, copy] }) env (by simp) rfl hl
      generalize hx : request b s.base { cmd := .releasesocket, args := argList [sock, id, copy] } = x
        at released
      have handled : handler (presented w m x env) m (some i)
          = tnIpcCmdReleasesocket (presented w m x env) m (some i) := by
        subst hx
        unfold handler
        rw [request_msg]
        rfl
      have grants : Granted b (.releasesocket sock id) (.served w m env) ↔
          Releasable (presented w m x env) i id := by
        refine ⟨fun hg => ?_, fun hr => ⟨i, hl, hr⟩⟩
        obtain ⟨j, hj, hr⟩ := hg
        cases hj.symm.trans hl
        exact hr
      have outcome := tnIpcCmdReleasesocket_iff (w := presented w m x env) (m := m) (b := b) (i := i)
        (by rw [presented_msg, ← hx]; rfl) serves.reach.sound.next
      have args : ((presented w m x env).msgs m).args = argList [sock, id, copy] := by
        rw [presented_msg, ← hx]
        rfl
      rw [args, ← handled, ← released] at outcome
      subst hx
      obtain ⟨hr, n, id', hpos, hd⟩ | ⟨hr, n, e, hd⟩ := outcome
      · rw [tnIpcCall_done hd]
        refine .granted id' hpos (grants.mpr hr) ⟨rfl, ?_⟩
        show ((parkSlot _ i b _ id').bases b).fdMap = _
        rw [fdMap_parkSlot, args, ← serves.fdMap]
        rfl
      · rw [tnIpcCall_done hd]
        exact .refused e (fun hg => hr (grants.mp hg)) ⟨rfl, serves.fdMap⟩

/-- The entry a duplicate is written to. -/
structure Copied (fd : Nat) (s s' : Client) : Prop where
  told : s'.told = s.told
  fdMap : ∃ j : SlotIdx, s'.base.fdMap = Function.update s.base.fdMap fd (some j)

/-- The descriptor that is written lies inside the table. -/
theorem dup2Target_range {base : TnSocketBase} {oldSock newSock fd : Int}
    (h : dup2Target base oldSock newSock = .ok fd) : 0 ≤ fd ∧ fd < base.dtablesize := by
  unfold dup2Target at h
  split at h
  · cases h
  · dsimp only at h
    split at h
    · cases h
    · split at h
      · cases h
      · rename_i hr
        split at h
        · cases h
        · cases h
          omega

/-- `Dup2Socket` gives up the descriptor it writes over. -/
theorem tnIpcCall_dup2 (hv : ∀ w m env, fate = .served w m env → Serves b s w)
    {oldSock newSock : Int} (given : Int) (hn : 0 ≤ newSock ∧ newSock < s.base.dtablesize)
    (hne : oldSock ≠ newSock) :
    Asked (Granted b (.dup2socket oldSock given) fate) (Copied newSock.toNat) s
      (tnIpcCall b s { cmd := .dup2, args := argList [oldSock, newSock] } fate) := by
  cases fate with
  | unsent e => exact .refused e (fun hg => hg) (.refl s)
  | givenUp e => exact .refused e (fun hg => hg) ⟨rfl, rfl⟩
  | served w m env =>
    have serves := hv w m env rfl
    cases hl : tnSlotLookup w (some b) oldSock with
    | none =>
      rw [tnIpcCall_unknown (by simp) rfl hl]
      exact .refused _ (fun hg => hg hl) ⟨rfl, serves.fdMap⟩
    | some i =>
      have copied := tnHandleIpc_known (m := m) (s := s)
        (x := { cmd := .dup2, args := argList [oldSock, newSock] }) env (by simp) rfl hl
      generalize hw1 : presented w m (request b s.base _) env = w1 at copied
      have table : (w1.bases b).fdMap = s.base.fdMap := by
        subst hw1
        exact serves.fdMap
      have inside : ¬ (newSock < 0 ∨ newSock ≥ (w1.bases b).dtablesize) := by
        have size : (w1.bases b).dtablesize = s.base.dtablesize := by
          subst hw1
          exact serves.dtablesize
        rw [size]
        omega
      have handled : handler w1 m (some i) =
          if newSock < 0 ∨ newSock ≥ (w1.bases b).dtablesize then fail w1 m .ebadf
          else if oldSock = newSock then done w1 m newSock .ok
          else done (tnSlotRef ((closeFd b w1 newSock.toNat).setFd b newSock.toNat (some i)) i) m
            newSock .ok := by
        subst hw1
        unfold handler
        rw [request_msg]
        unfold tnIpcCmdDup2
        rw [request_msg]
        rfl
      rw [handled, if_neg inside, if_neg hne] at copied
      rw [tnIpcCall_done copied]
      refine .granted newSock hn.1 (by simp [Granted, hl]) ⟨rfl, i, ?_⟩
      show ((tnSlotRef _ i).bases b).fdMap = _
      rw [fdMap_of_shelf (shelf_tnSlotRef i) b, fdMap_enters (closeFd_enters _ i), table]

/-! ## One call -/

/-- A descriptor that is freed leaves the daemon's side alone. -/
theorem Serves.free (h : Serves b s w) (fd : Nat) : Serves b (s.free fd) w :=
  ⟨h.reach, h.fdMap, h.dtablesize⟩

/-- The callback is told of one descriptor. -/
theorem free_told (fd fd' : Nat) :
    (s.free fd).told fd' = if fd' = fd then false else s.told fd' := by
  unfold Client.free
  by_cases h : fd' = fd
  · subst h
    simp
  · simp [h]

/-- A descriptor that is told `FDCB_FREE` and stays in use. -/
theorem Kept.not_mirror {fd : Nat} (h : Kept (s.free fd) s') (ho : (s.base.fdMap fd).isSome = true) :
    ¬ Mirror s' := by
  intro hm
  have told := hm fd
  rw [h.told, h.fdMap, free_told, if_pos rfl] at told
  exact Bool.false_ne_true (told.trans ho)

/-- A descriptor that is told `FDCB_FREE` and taken back. -/
theorem Dropped.mirror {fd : Nat} (h : Dropped fd (s.free fd) s') (hm : Mirror s) : Mirror s' := by
  intro fd'
  rw [h.told, h.fdMap, free_told]
  by_cases hfd : fd' = fd
  · subst hfd
    simp
  · rw [if_neg hfd, Function.update_of_ne hfd]
    exact hm fd'

/-- A call that tells `FDCB_FREE` first keeps step just when it is granted. -/
theorem Asked.inStep_iff {fd : Nat} {granted : Prop} (h : Asked granted (Dropped fd) (s.free fd) r)
    (hm : Mirror s) (ho : (s.base.fdMap fd).isSome = true) : InStep s r ↔ granted := by
  cases h with
  | granted res hr hg he => exact ⟨fun _ => hg, fun _ => ⟨he.mirror hm, fun hf => absurd rfl hf⟩⟩
  | refused e hg hk => exact ⟨fun hi => absurd hi.1 (hk.not_mirror ho), fun h => absurd h hg⟩

/-- Any other request keeps step when its effect does. -/
theorem Asked.inStep {effect : Client → Client → Prop} {granted : Prop}
    (h : Asked granted effect s r) (hm : Mirror s)
    (he : ∀ s', granted → effect s s' → Mirror s') : InStep s r := by
  cases h with
  | granted res hr hg h => exact ⟨he _ hg h, fun hf => absurd rfl hf⟩
  | refused e hg hk => exact hk.inStep hm

/-- What the test of a descriptor says. -/
theorem isOpen_iff {sock : Int} :
    isOpen s.base sock = true ↔
      (0 ≤ sock ∧ sock < s.base.dtablesize) ∧ (s.base.fdMap sock.toNat).isSome = true := by
  simp [isOpen]

/-- The daemon does not know a descriptor that is not open. -/
theorem Serves.lookup_none (h : Serves b s w) {sock : Int} (ho : isOpen s.base sock = false) :
    tnSlotLookup w (some b) sock = none := by
  unfold tnSlotLookup
  dsimp only
  rw [h.dtablesize, h.fdMap]
  split
  · rfl
  · rename_i hr
    have inside : 0 ≤ sock ∧ sock < s.base.dtablesize := by omega
    cases hf : s.base.fdMap sock.toNat with
    | none => rfl
    | some i =>
      have opened := isOpen_iff.mpr ⟨inside, by rw [hf]; rfl⟩
      rw [ho] at opened
      cases opened

/-- `CloseSocket`. -/
theorem tnLvoClosesocket_inStep (hv : ∀ w m env, fate = .served w m env → Serves b s w)
    (hm : Mirror s) (sock : Int) :
    InStep s (tnLvoClosesocket b fate s sock) ↔
      (freedFirst s (.closesocket sock) ≠ none → Granted b (.closesocket sock) fate) := by
  unfold tnLvoClosesocket
  split
  · rename_i hneg
    have closed : isOpen s.base sock = false := by
      simp [isOpen, show ¬ 0 ≤ sock by omega]
    simp only [freedFirst, closed]
    exact iff_of_true ((Kept.refl s).inStep hm) (fun h => absurd rfl h)
  · cases ho : isOpen s.base sock with
    | true =>
      have asked := tnIpcCall_closesocket (fun w m env h => (hv w m env h).free sock.toNat) sock
      simp only [freedFirst, ho, if_true]
      rw [asked.inStep_iff hm (isOpen_iff.mp ho).2]
      simp
    | false =>
      simp only [freedFirst, ho]
      refine iff_of_true ?_ (fun h => absurd rfl h)
      show InStep s (tnIpcCall b s _ fate)
      refine (tnIpcCall_closesocket hv sock).inStep hm fun s' hg => ?_
      cases fate with
      | served w m env => exact absurd ((hv w m env rfl).lookup_none ho) hg
      | unsent e => cases hg
      | givenUp e => cases hg

/-- `ReleaseSocket`. -/
theorem tnLvoReleasesocket_inStep (hv : ∀ w m env, fate = .served w m env → Serves b s w)
    (hm : Mirror s) (sock id : Int) :
    InStep s (tnLvoReleasesocket b fate s sock id) ↔
      (freedFirst s (.releasesocket sock id) ≠ none → Granted b (.releasesocket sock id) fate) := by
  unfold tnLvoReleasesocket
  cases ho : isOpen s.base sock with
  | true =>
    have asked := tnIpcCall_releasesocket (fun w m env h => (hv w m env h).free sock.toNat) sock id 0
    simp only [freedFirst, ho, if_true]
    rw [Asked.inStep_iff (asked.mono fun h => ⟨h.told, h.fdMap⟩) hm (isOpen_iff.mp ho).2]
    simp
  | false =>
    simp only [freedFirst, ho]
    exact iff_of_true ((Kept.refl s).inStep hm) (fun h => absurd rfl h)

/-- `ReleaseCopyOfSocket`. -/
theorem tnLvoReleasecopyofsocket_inStep (hv : ∀ w m env, fate = .served w m env → Serves b s w)
    (hm : Mirror s) (sock id : Int) : InStep s (tnLvoReleasecopyofsocket b fate s sock id) := by
  unfold tnLvoReleasecopyofsocket
  split
  · refine (tnIpcCall_releasesocket hv sock id 1).inStep hm fun s' _ he => ?_
    have kept : Kept s s' := ⟨he.told, he.fdMap⟩
    exact kept.same.mirror hm
  · exact (Kept.refl s).inStep hm

/-- The entry a duplicate is written to is told, whatever the callback had for it before. -/
theorem Copied.mirror {fd : Nat} (h : Copied fd s s')
    (hm : ∀ fd', fd' ≠ fd → s.told fd' = (s.base.fdMap fd').isSome) : Mirror (s'.alloc fd) := by
  intro fd'
  obtain ⟨j, hf⟩ := h.fdMap
  show Function.update s'.told fd true fd' = (s'.base.fdMap fd').isSome
  rw [h.told, hf]
  by_cases hfd : fd' = fd
  · subst hfd
    simp
  · rw [Function.update_of_ne hfd, Function.update_of_ne hfd]
    exact hm fd' hfd

/-- A duplicate over a descriptor in use keeps step just when it is granted. -/
theorem Asked.copied_iff {fd : Nat} {granted : Prop}
    (h : Asked granted (Copied fd) (s.free fd) r) (hm : Mirror s)
    (ho : (s.base.fdMap fd).isSome = true) : InStep s (tellAllocAt fd r) ↔ granted := by
  cases h with
  | granted res hr hg he =>
    refine ⟨fun _ => hg, fun _ => ⟨?_, fun hf => absurd rfl hf⟩⟩
    dsimp only [tellAllocAt]
    rw [if_pos hr]
    refine he.mirror fun fd' hfd => ?_
    rw [free_told, if_neg hfd]
    exact hm fd'
  | refused e hg hk => exact ⟨fun hi => absurd hi.1 (hk.not_mirror ho), fun h => absurd h hg⟩

/-- A duplicate in a free entry always does. -/
theorem Asked.copied {fd : Nat} {granted : Prop} (h : Asked granted (Copied fd) s r)
    (hm : Mirror s) : InStep s (tellAllocAt fd r) := by
  cases h with
  | granted res hr hg he =>
    refine ⟨?_, fun hf => absurd rfl hf⟩
    dsimp only [tellAllocAt]
    rw [if_pos hr]
    exact he.mirror fun fd' _ => hm fd'
  | refused e hg hk => exact hk.inStep hm

/-- `Dup2Socket`. -/
theorem tnLvoDup2socket_inStep (hv : ∀ w m env, fate = .served w m env → Serves b s w)
    (hm : Mirror s) (oldSock newSock : Int) :
    InStep s (tnLvoDup2socket b fate s oldSock newSock) ↔
      (freedFirst s (.dup2socket oldSock newSock) ≠ none →
        Granted b (.dup2socket oldSock newSock) fate) := by
  unfold tnLvoDup2socket
  cases ht : dup2Target s.base oldSock newSock with
  | error e =>
    simp only [freedFirst, ht]
    exact iff_of_true ((Kept.refl s).inStep hm) (fun h => absurd rfl h)
  | ok fd =>
    simp only [freedFirst, ht]
    have inside := dup2Target_range ht
    by_cases hne : oldSock = fd
    · rw [if_pos hne, if_neg (fun h => h.1 hne)]
      exact iff_of_true ((Kept.refl s).inStep hm) (fun h => absurd rfl h)
    · rw [if_neg hne]
      by_cases ho : (s.base.fdMap fd.toNat).isSome = true
      · have asked := tnIpcCall_dup2 (fun w m env h => (hv w m env h).free fd.toNat) newSock
          inside hne
        rw [if_pos ho, if_pos ⟨hne, ho⟩, asked.copied_iff hm ho]
        simp
      · have asked := tnIpcCall_dup2 hv newSock inside hne
        rw [if_neg ho, if_neg (fun h => ho h.2)]
        exact iff_of_true (asked.copied hm) (fun h => absurd rfl h)

/-! ## Every run -/

/-- The end of an `accept` that had to wait is the end of a request. -/
theorem connection_got (hd : Allowed b s (.connection w i p)) :
    ∃ r, Got s r ∧ (next b s (.connection w i p)) = tellAlloc r := by
  obtain ⟨serves, hu, hl, m, hw, hp, hb⟩ := hd
  refine ⟨({ s with base := (tnTcpAcceptCb w i p).1.bases b, waiting := none },
    .now ((tnTcpAcceptCb w i p).1.msgs m).result ((tnTcpAcceptCb w i p).1.msgs m).errNo), ?_, ?_⟩
  · obtain ⟨fd, j, ⟨hr, he⟩, hf⟩ | ⟨⟨hr, he⟩, hf⟩ := tnTcpAcceptCb_opens (p := p) hu hl hp hb
    · rw [hr, he]
      exact .granted fd j rfl (by rw [← serves.fdMap]; exact hf)
    · rw [hr]
      exact .refused _ ⟨rfl, hf.trans serves.fdMap⟩
  · unfold next
    dsimp only
    rw [hw]

/-- One step keeps the tables in step just when it is tidy. -/
theorem next_inStep {d : Doing} (hd : Allowed b s d) (hm : Mirror s) :
    InStep s (next b s d) ↔ Tidy b s d := by
  cases d with
  | call c check fate =>
    have serves : ∀ w m env, fate = .served w m env → Serves b s w := by
      rintro w m env rfl
      exact hd.2
    show InStep s (c.run b check fate s) ↔ (freedFirst s c ≠ none → Granted b c fate)
    cases c with
    | socket domain type protocol =>
      refine iff_of_true ?_ (fun h => absurd rfl h)
      exact (tnIpcCall_got serves (Or.inl rfl)).tellAlloc hm
    | accept sock ptrs =>
      refine iff_of_true ?_ (fun h => absurd rfl h)
      show InStep s (tnLvoAccept b check fate s sock ptrs)
      unfold tnLvoAccept
      split
      · exact (Kept.refl s).inStep hm
      · exact (tnIpcCall_got serves (Or.inr (Or.inl rfl))).tellAlloc hm
    | obtainsocket id domain type protocol =>
      refine iff_of_true ?_ (fun h => absurd rfl h)
      exact (tnIpcCall_got serves (Or.inr (Or.inr rfl))).tellAlloc hm
    | closesocket sock => exact tnLvoClosesocket_inStep serves hm sock
    | releasesocket sock id => exact tnLvoReleasesocket_inStep serves hm sock id
    | releasecopyofsocket sock id =>
      refine iff_of_true ?_ (fun h => absurd rfl h)
      exact tnLvoReleasecopyofsocket_inStep serves hm sock id
    | dup2socket oldSock newSock => exact tnLvoDup2socket_inStep serves hm oldSock newSock
  | connection w i p =>
    obtain ⟨r, got, hr⟩ := connection_got hd
    rw [hr]
    exact iff_of_true (got.tellAlloc hm) trivial
  | refusal e => exact iff_of_true ((Kept.mk rfl rfl).inStep hm) trivial
  | giveUp e => exact iff_of_true ((Kept.mk rfl rfl).inStep hm) trivial
  | behind fdMap =>
    -- the request has returned to the application long ago, so there is no failure to undo
    refine ⟨fun hi fd => ?_, fun ht => ⟨fun fd => ?_, False.elim⟩⟩
    · exact (hi.1 fd).symm.trans (hm fd)
    · exact (hm fd).trans (ht fd).symm

/-- In every run the two tables agree. -/
theorem Mirrors.mirror {ds : List Doing} (h : Mirrors b s ds) : Mirror s := by
  cases ds with
  | nil => exact h
  | cons d ds => exact h.1

/-- The tables name the same descriptors all along a run, and its failed calls have changed none,
just when what is told `FDCB_FREE` before the daemon is asked is always given up. -/
theorem mirrors_iff_tidies {b : BaseId} {s : Client} {ds : List Doing} (hr : Runs b s ds)
    (hm : Mirror s) : Mirrors b s ds ↔ Tidies b s ds := by
  -- by induction on the calls: each one stays in step exactly when it is tidy
  induction ds generalizing s with
  | nil => exact iff_of_true hm trivial
  | cons d ds ih =>
    obtain ⟨hd, hr⟩ := hr
    have one := next_inStep hd hm
    constructor
    · rintro ⟨-, hf, hrest⟩
      exact ⟨one.mp ⟨hrest.mirror, hf⟩, (ih hr hrest.mirror).mp hrest⟩
    · rintro ⟨ht, hrest⟩
      obtain ⟨hm', hf⟩ := one.mpr ht
      exact ⟨hm, hf, (ih hr hm').mpr hrest⟩

/-- A client that has the callback installed from the start. -/
def installed : Client := { base := oneClient.bases 1 }

/-- Its first request is for a datagram socket. -/
def socketMsg : TnIpcMsg :=
  request 1 installed.base { cmd := .socket, args := argList [2, 2, 17, 0] }

/-- The daemon after it. -/
def socketOpened : World := step oneClient (.ipc 1 socketMsg [{ id := 1 }])

/-- The client opens a socket and releases it under `id`. -/
def releaseRun (id : Int) : List Doing :=
  [.call (.socket 2 2 17) (fun _ => true) (.served oneClient 1 [{ id := 1 }]),
    .call (.releasesocket 0 id) (fun _ => true) (.served socketOpened 2 [])]

theorem releaseRun_runs (id : Int) : Runs 1 installed (releaseRun id) := by
  have opened : Reachable oneClient :=
    oneClient_reach (fun _ _ => trivial) fun _ _ _ _ _ => trivial
  have reached : Reachable socketOpened :=
    opened.request 1 socketMsg [{ id := 1 }] 1 (by decide) (by decide) rfl ⟨0, rfl⟩ trivial
  refine ⟨⟨rfl, opened, rfl, rfl⟩, ⟨?_, reached, ?_, ?_⟩, trivial⟩
  · decide
  · exact congrArg TnSocketBase.fdMap (tnIpcCall_base (s := installed) (x := _)).symm
  · exact congrArg TnSocketBase.dtablesize (tnIpcCall_base (s := installed) (x := _)).symm

/-- A release under an id of the daemon's choice is granted, and all stays in step. -/
theorem mirrors_iff_tidies_unique : Mirrors 1 installed (releaseRun (-1)) := by
  refine (mirrors_iff_tidies (releaseRun_runs (-1)) fun _ => rfl).mpr ⟨fun h => absurd rfl h, ?_, trivial⟩
  exact fun _ => ⟨0, by decide, by decide, Or.inl rfl⟩

/-- Under the id -2 the daemon refuses it, and descriptor 0 is in use while the callback has been told
that it is free. -/
theorem not_forall_mirrors :
    ¬ ∀ (b : BaseId) (s : Client) (ds : List Doing), Runs b s ds → Mirror s → Mirrors b s ds := by
  intro h
  have mirrors := h 1 installed (releaseRun (-2)) (releaseRun_runs (-2)) fun _ => rfl
  have last : Mirror _ := mirrors.2.2.2.2
  have zero := last 0
  revert zero
  decide

end Callback

end Tolunnet
