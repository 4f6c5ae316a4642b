import Tolunnet.Desk.Sound
import Tolunnet.Shelf.Steps

/-!
# `Tolunnet.Client.Events`: event words and masks

The event words and the event masks of a base are the client's memory. The daemon adds to the event
words (`tn_record_socket_event`), `SO_EVENTMASK` writes the masks, `GetSocketEvents` takes the event
words, and `SBTC_DTABLESIZE` copies both. Nothing clears them when a descriptor gets another socket.

`Clients` is the daemon with the bases of its clients. `since` and `mask` are history: the events
recorded for the socket at a descriptor since it was placed there, and the mask the client set for it.
`clean_of_tidy` says that the memory holds no more than the history, in every run in which a
descriptor is given up with an empty event word and an empty mask, and a mask is set for an open
descriptor only.
-/

set_option autoImplicit false

namespace Tolunnet

open World

/-! ## The library -/

/-- `tn_lvo_getsocketevents`: the descriptor and its event word. -/
def tnLvoGetsocketevents (base : TnSocketBase) (gseLastFd : Int) : Option (Nat × Nat) :=
  let check := fun k : Nat => ((gseLastFd + 1 + k) % base.dtablesize).toNat
  ((List.range base.dtablesize).find? fun k => base.events (check k) != 0).map fun k =>
    (check k, base.events (check k))

/-- The `SO_EVENTMASK` branch of `tn_lvo_setsockopt`, when it succeeds. -/
def eventMaskOk (base : TnSocketBase) (sock : Int) (optval : Option Mem) (optlen : Int) : Bool :=
  decide (0 ≤ sock) && optval.isSome && decide (4 ≤ optlen) && decide (sock < base.dtablesize)

/-- The `SBTC_DTABLESIZE` branch of `tn_lvo_socketbasetaglist`: what both sizes have is copied, the
rest of the new tables is empty. -/
def resized (base : TnSocketBase) (newsize : Nat) : TnSocketBase :=
  let copy := fun (f : Nat → Nat) fd => if fd < min newsize base.dtablesize then f fd else 0
  { base with
    events := copy base.events
    eventMasks := copy base.eventMasks
    dtablesize := newsize }

/-! ## The clients and the daemon -/

/-- The daemon with its clients, and their history. -/
structure Clients where
  w : World := tnSlotTableInit
  gseLastFd : BaseId → Int := fun _ => -1
  since : BaseId → Nat → Nat → Prop := fun _ _ _ => False
  mask : BaseId → Nat → Nat := fun _ _ => 0

/-- What happens next: a step of the daemon, or one of a client on its own memory. -/
inductive Doing where
  | daemon (inp : Input)
  | libOpen (b : BaseId) (base : TnSocketBase)
  | eventMask (b : BaseId) (sock : Int) (optval : Option Mem) (optlen : Int)
  | getEvents (b : BaseId)
  | signals (b : BaseId) (sigIo sigEvent sigSelect : Nat)
  | dtablesize (b : BaseId) (newsize : Nat)
  | taskExit (t : TaskId)
  | openCnt (n : Nat)

/-- The events recorded between two states. -/
def newPosts (w w' : World) : List Post := (posts w').take ((posts w').length - (posts w).length)

namespace Clients

/-- A step of the daemon. A descriptor with another entry than before starts a new history. -/
def daemon (s : Clients) (inp : Input) : Clients :=
  let w' := step s.w inp
  { s with
    w := w'
    since := fun b fd k =>
      ((w'.bases b).fdMap fd = (s.w.bases b).fdMap fd ∧ s.since b fd k) ∨
        ∃ i, (w'.bases b).fdMap fd = some i ∧ recorded (newPosts s.w w') b i k = true
    mask := fun b fd =>
      if (w'.bases b).fdMap fd = (s.w.bases b).fdMap fd then s.mask b fd else 0 }

/-- A client sets the event mask of a descriptor. -/
def eventMask (s : Clients) (b : BaseId) (sock : Int) (optval : Option Mem) (optlen : Int) : Clients :=
  if eventMaskOk (s.w.bases b) sock optval optlen then
    let v := be32 (optval.getD fun _ => 0) 0
    { s with
      w := s.w.modBase b fun base =>
        { base with eventMasks := Function.update base.eventMasks sock.toNat v }
      mask := Function.update s.mask b (Function.update (s.mask b) sock.toNat v) }
  else s

/-- A client takes an event word. -/
def getEvents (s : Clients) (b : BaseId) : Clients :=
  match tnLvoGetsocketevents (s.w.bases b) (s.gseLastFd b) with
  | none => s
  | some (fd, _) =>
    { s with
      w := s.w.modBase b fun base => { base with events := Function.update base.events fd 0 }
      gseLastFd := Function.update s.gseLastFd b fd }

/-- A client changes the size of its tables. What they lose is forgotten. -/
def resize (s : Clients) (b : BaseId) (newsize : Nat) : Clients :=
  let kept := min newsize (s.w.bases b).dtablesize
  { s with
    w := s.w.modBase b fun base => resized base newsize
    since := Function.update s.since b fun fd k => fd < kept ∧ s.since b fd k
    mask := Function.update s.mask b fun fd => if fd < kept then s.mask b fd else 0 }

/-- The next state. -/
def next (s : Clients) : Doing → Clients
  | .daemon inp => s.daemon inp
  | .libOpen b base =>
    { w := s.w.modBase b fun _ => base
      gseLastFd := Function.update s.gseLastFd b (-1)
      since := Function.update s.since b fun _ _ => False
      mask := Function.update s.mask b fun _ => 0 }
  | .eventMask b sock optval optlen => s.eventMask b sock optval optlen
  | .getEvents b => s.getEvents b
  | .signals b sigIo sigEvent sigSelect =>
    { s with w := s.w.modBase b fun base =>
        { base with sigIo := sigIo, sigEvent := sigEvent, sigSelect := sigSelect } }
  | .dtablesize b newsize => s.resize b newsize
  | .taskExit t => { s with w := { s.w with taskAlive := Function.update s.w.taskAlive t false } }
  | .openCnt n => { s with w := { s.w with libOpenCnt := n } }

/-- A base as `tn_lib_open` builds it. -/
structure Fresh (base : TnSocketBase) : Prop where
  fdMap : ∀ fd, base.fdMap fd = none
  events : ∀ fd, base.events fd = 0
  masks : ∀ fd, base.eventMasks fd = 0

/-- What the library lets happen. `OPEN` is sent for a base that has just been built, and a
descriptor table is cut only above its last descriptor. -/
def Allowed (s : Clients) : Doing → Prop
  | .daemon inp => inp.isClient = false ∧ Admissible s.w inp ∧
      ∀ b, Opens inp b → Fresh (s.w.bases b)
  | .libOpen b base => ¬ registered s.w b ∧ Fresh base
  | .dtablesize b newsize => ∀ fd, newsize ≤ fd → (s.w.bases b).fdMap fd = none
  | _ => True

/-- The states reached by steps that all satisfy `ok`. -/
inductive Runs (ok : Clients → Doing → Prop) : Clients → Prop where
  | init : Runs ok {}
  | next {s : Clients} {d : Doing} : Runs ok s → s.Allowed d → ok s d → Runs ok (s.next d)

/-- Every open descriptor has the events recorded for its socket, and the mask set for it. -/
def Clean (s : Clients) : Prop :=
  ∀ b, registered s.w b → ∀ fd i, (s.w.bases b).fdMap fd = some i →
    (∀ k, ((s.w.bases b).events fd).testBit k = true → s.since b fd k) ∧
      (s.w.bases b).eventMasks fd = s.mask b fd

/-- `GetSocketEvents` reports events of the socket that is at the descriptor. -/
def ReportsOwn (s : Clients) : Prop :=
  ∀ b, registered s.w b → ∀ fd ev, tnLvoGetsocketevents (s.w.bases b) (s.gseLastFd b) = some (fd, ev) →
    (∃ i, (s.w.bases b).fdMap fd = some i) ∧ ∀ k, ev.testBit k = true → s.since b fd k

/-- A descriptor is given up with an empty event word and an empty mask, and a mask is set for an open
descriptor. -/
def Tidy (s : Clients) : Doing → Prop
  | .daemon inp => ∀ b fd, GaveUp s.w inp b fd →
      (s.w.bases b).events fd = 0 ∧ (s.w.bases b).eventMasks fd = 0
  | .eventMask b sock optval optlen => eventMaskOk (s.w.bases b) sock optval optlen = true →
      (s.w.bases b).fdMap sock.toNat ≠ none
  | _ => True

/-! ## What a run keeps -/

variable {s : Clients} {ok : Clients → Doing → Prop}

/-- Steps of the clients are steps of the system that the daemon is part of. -/
theorem Runs.reach (h : Runs ok s) : Reachable s.w := by
  induction h with
  | init => exact .init
  | @next s d _ ha _ ih =>
    have masks : ∀ b ev em io sev sel, Reachable (s.w.modBase b fun base =>
        { base with events := ev, eventMasks := em, sigIo := io, sigEvent := sev, sigSelect := sel }) :=
      fun b ev em io sev sel =>
        .step ih (show Admissible s.w (.client (.setMasks b ev em io sev sel)) from trivial) trivial
    cases d with
    | daemon inp => exact .step ih ha.2.1 trivial
    | libOpen b base =>
      have fresh : Admissible s.w (.client (.newBase b base)) := ⟨ha.1, ha.2.fdMap⟩
      exact .step ih fresh trivial
    | eventMask b sock optval optlen =>
      show Reachable (s.eventMask b sock optval optlen).w
      unfold Clients.eventMask
      split
      · exact masks b (s.w.bases b).events _ (s.w.bases b).sigIo (s.w.bases b).sigEvent
          (s.w.bases b).sigSelect
      · exact ih
    | getEvents b =>
      show Reachable (s.getEvents b).w
      unfold Clients.getEvents
      split
      · exact ih
      · exact masks b _ (s.w.bases b).eventMasks (s.w.bases b).sigIo (s.w.bases b).sigEvent
          (s.w.bases b).sigSelect
    | signals b io sev sel =>
      exact masks b (s.w.bases b).events (s.w.bases b).eventMasks io sev sel
    | dtablesize b n =>
      have copied := masks b (resized (s.w.bases b) n).events (resized (s.w.bases b) n).eventMasks
        (s.w.bases b).sigIo (s.w.bases b).sigEvent (s.w.bases b).sigSelect
      have cut : Reachable (step _ (.client (.resize b n))) :=
        .step copied (fun fd hfd => by simpa [World.modBase] using ha fd hfd) trivial
      have same : (s.next (.dtablesize b n)).w = step (s.w.modBase b fun base =>
          { base with events := (resized (s.w.bases b) n).events
                      eventMasks := (resized (s.w.bases b) n).eventMasks
                      sigIo := (s.w.bases b).sigIo
                      sigEvent := (s.w.bases b).sigEvent
                      sigSelect := (s.w.bases b).sigSelect }) (.client (.resize b n)) := by
        simp [Clients.next, Clients.resize, step, clientStep, World.modBase, resized]
      rw [same]
      exact cut
    | taskExit t => exact .step ih (show Admissible s.w (.client (.taskExit t)) from trivial) trivial
    | openCnt n => exact .step ih (show Admissible s.w (.client (.openCnt n)) from trivial) trivial

/-- A base with the history of its descriptors. -/
structure Keeps (base : TnSocketBase) (since : Nat → Nat → Prop) (mask : Nat → Nat) : Prop where
  free : ∀ fd, base.fdMap fd = none → base.events fd = 0 ∧ base.eventMasks fd = 0
  used : ∀ fd i, base.fdMap fd = some i →
    (∀ k, (base.events fd).testBit k = true → since fd k) ∧ base.eventMasks fd = mask fd

theorem Fresh.keeps {base : TnSocketBase} (h : Fresh base) (since : Nat → Nat → Prop)
    (mask : Nat → Nat) : Keeps base since mask where
  free := fun fd _ => ⟨h.events fd, h.masks fd⟩
  used := fun fd i hi => by
    rw [h.fdMap fd] at hi
    cases hi

/-- What the daemon does to a base keeps its history, when the descriptors that it gives up are
blank. -/
theorem Keeps.turn {base base' : TnSocketBase} {since : Nat → Nat → Prop} {mask : Nat → Nat}
    {S : Nat → Prop} {l : List Post} {b : BaseId} (h : Keeps base since mask)
    (ht : Table.Turn S l b base.onShelf base'.onShelf)
    (hS : ∀ fd, S fd → base.events fd = 0 ∧ base.eventMasks fd = 0) :
    Keeps base' (fun fd k => (base'.fdMap fd = base.fdMap fd ∧ since fd k) ∨
        ∃ i, base'.fdMap fd = some i ∧ recorded l b i k = true)
      (fun fd => if base'.fdMap fd = base.fdMap fd then mask fd else 0) := by
  have blank : ∀ fd, S fd ∨ base.fdMap fd = none → base.events fd = 0 ∧ base.eventMasks fd = 0 :=
    fun fd hfd => hfd.elim (hS fd) (h.free fd)
  have masks : base'.eventMasks = base.eventMasks := ht.masks
  -- a descriptor that was blank before has nothing after
  have moved : ∀ fd, S fd ∨ base.fdMap fd = none →
      base'.events fd = 0 ∧ base'.eventMasks fd = 0 := by
    intro fd hfd
    obtain ⟨no_event, no_mask⟩ := blank fd hfd
    rw [masks]
    refine ⟨?_, no_mask⟩
    rcases ht.moved fd hfd with ⟨-, same⟩ | ⟨i, -, bits⟩
    · exact same.trans no_event
    · refine Nat.eq_of_testBit_eq fun k => ?_
      rw [Nat.zero_testBit, Bool.eq_false_iff]
      intro hk
      rcases bits k hk with old | ⟨new, -⟩
      · rw [show base.onShelf.events fd = 0 from no_event, Nat.zero_testBit] at old
        cases old
      · rw [show base.onShelf.masks fd = 0 from no_mask, Nat.zero_testBit] at new
        cases new
  constructor
  · intro fd hn
    by_cases hfd : S fd ∨ base.fdMap fd = none
    · exact moved fd hfd
    · obtain ⟨not_given_up, used⟩ := not_or.mp hfd
      obtain ⟨i, hi⟩ := Option.ne_none_iff_exists'.mp used
      have kept := (ht.kept fd i not_given_up hi).1
      exact absurd (kept.symm.trans hn) (by simp)
  · intro fd i hi
    by_cases hfd : S fd ∨ base.fdMap fd = none
    · obtain ⟨no_event, no_mask⟩ := moved fd hfd
      refine ⟨fun k hk => ?_, ?_⟩
      · rw [no_event, Nat.zero_testBit] at hk
        cases hk
      · rw [no_mask]
        split
        · rename_i same
          rw [← (h.used fd i (same.symm.trans hi)).2, ← masks, no_mask]
        · rfl
    · obtain ⟨not_given_up, used⟩ := not_or.mp hfd
      obtain ⟨j, hj⟩ := Option.ne_none_iff_exists'.mp used
      obtain ⟨kept, bits⟩ := ht.kept fd j not_given_up hj
      have same : base'.fdMap fd = base.fdMap fd := kept.trans hj.symm
      refine ⟨fun k hk => ?_, ?_⟩
      · rw [show base'.events fd = base'.onShelf.events fd from rfl, bits k, Bool.or_eq_true,
          Bool.and_eq_true] at hk
        rcases hk with old | ⟨-, new⟩
        · exact .inl ⟨same, (h.used fd j hj).1 k old⟩
        · exact .inr ⟨j, kept, new⟩
      · rw [if_pos same, masks]
        exact (h.used fd j hj).2

/-- Every base that is open keeps its history. -/
def Inv (s : Clients) : Prop := ∀ b, registered s.w b → Keeps (s.w.bases b) (s.since b) (s.mask b)

theorem newPosts_eq {w w' : World} {l : List Post} (h : posts w' = l ++ posts w) :
    newPosts w w' = l := by
  rw [newPosts, h, List.length_append, Nat.add_sub_cancel, List.take_left]

theorem Inv.daemon {inp : Input} (hi : s.Inv) (hok : (shelf s.w).Ok) (hc : inp.isClient = false)
    (hf : ∀ b, Opens inp b → Fresh (s.w.bases b))
    (ht : ∀ b fd, GaveUp s.w inp b fd →
      (s.w.bases b).events fd = 0 ∧ (s.w.bases b).eventMasks fd = 0) : (s.daemon inp).Inv := by
  obtain ⟨l, hl, tables⟩ := (step_spec hc hok).tables
  intro b hr
  obtain ⟨before, turn⟩ := tables b hr
  have keeps : Keeps (s.w.bases b) (s.since b) (s.mask b) :=
    before.elim (hi b) fun opens => (hf b opens).keeps _ _
  have after := keeps.turn turn (ht b)
  rw [← newPosts_eq (w := s.w) hl] at after
  exact after

/-- A step of one client on its base. -/
theorem Inv.modBase {b : BaseId} {s' : Clients} {f : TnSocketBase → TnSocketBase} (hi : s.Inv)
    (hw : s'.w = s.w.modBase b f) (hs : ∀ c, c ≠ b → s'.since c = s.since c ∧ s'.mask c = s.mask c)
    (hb : registered s.w b → Keeps (f (s.w.bases b)) (s'.since b) (s'.mask b)) : s'.Inv := by
  intro c hr
  have same : registered s.w c := by
    rw [hw] at hr
    exact hr
  rw [hw]
  by_cases hc : c = b
  · subst hc
    rw [World.modBase]
    simpa using hb same
  · rw [(hs c hc).1, (hs c hc).2, World.modBase]
    simpa [hc] using hi c same

theorem Inv.eventMask {b : BaseId} {sock : Int} {optval : Option Mem} {optlen : Int} (hi : s.Inv)
    (ht : eventMaskOk (s.w.bases b) sock optval optlen = true →
      (s.w.bases b).fdMap sock.toNat ≠ none) : (s.eventMask b sock optval optlen).Inv := by
  unfold Clients.eventMask
  split
  · rename_i granted
    refine hi.modBase (b := b) (f := fun base => { base with
        eventMasks := Function.update base.eventMasks sock.toNat (be32 (optval.getD fun _ => 0) 0) })
      rfl (fun c hc => ⟨rfl, Function.update_of_ne hc _ _⟩) fun hr => ?_
    have keeps := hi b hr
    constructor
    · intro fd hn
      have other : fd ≠ sock.toNat := by
        rintro rfl
        exact ht granted hn
      simpa [other] using keeps.free fd hn
    · intro fd i hfd
      refine ⟨(keeps.used fd i hfd).1, ?_⟩
      dsimp only
      rw [Function.update_self]
      by_cases same : fd = sock.toNat
      · subst same
        simp
      · simpa [same] using (keeps.used fd i hfd).2
  · exact hi

theorem Inv.getEvents {b : BaseId} (hi : s.Inv) : (s.getEvents b).Inv := by
  unfold Clients.getEvents
  split
  · exact hi
  · rename_i taken _ _
    refine hi.modBase (b := b)
      (f := fun base => { base with events := Function.update base.events taken 0 })
      rfl (fun _ _ => ⟨rfl, rfl⟩) fun hr => ?_
    have keeps := hi b hr
    constructor
    · intro fd hn
      refine ⟨?_, (keeps.free fd hn).2⟩
      simp [Function.update_apply, (keeps.free fd hn).1]
    · intro fd i hfd
      refine ⟨fun k hk => ?_, (keeps.used fd i hfd).2⟩
      by_cases same : fd = taken
      · subst same
        simp at hk
      · exact (keeps.used fd i hfd).1 k (by simpa [same] using hk)

theorem Inv.resize {b : BaseId} {newsize : Nat} (hi : s.Inv) : (s.resize b newsize).Inv := by
  unfold Clients.resize
  refine hi.modBase (b := b) (f := fun base => resized base newsize) rfl
    (fun c hc => ⟨Function.update_of_ne hc _ _, Function.update_of_ne hc _ _⟩) fun hr => ?_
  have keeps := hi b hr
  dsimp only
  rw [Function.update_self, Function.update_self]
  constructor
  · intro fd hn
    have blank := keeps.free fd hn
    simp [resized, blank.1, blank.2]
  · intro fd i hfd
    have used := keeps.used fd i hfd
    unfold resized
    dsimp only
    by_cases kept : fd < min newsize (s.w.bases b).dtablesize
    · rw [if_pos kept, if_pos kept, if_pos kept]
      exact ⟨fun k hk => ⟨kept, used.1 k hk⟩, used.2⟩
    · rw [if_neg kept, if_neg kept, if_neg kept]
      exact ⟨fun k hk => by simp at hk, rfl⟩

/-- Every step keeps it. -/
theorem Inv.next {d : Doing} (hi : s.Inv) (hok : (shelf s.w).Ok) (ha : s.Allowed d) (ht : s.Tidy d) :
    (s.next d).Inv := by
  cases d with
  | daemon inp => exact hi.daemon hok ha.1 ha.2.2 ht
  | libOpen b base =>
    exact hi.modBase (b := b) (f := fun _ => base) rfl
      (fun c hc => ⟨Function.update_of_ne hc _ _, Function.update_of_ne hc _ _⟩)
      fun hr => absurd hr ha.1
  | eventMask b sock optval optlen => exact hi.eventMask ht
  | getEvents b => exact hi.getEvents
  | signals b io sev sel =>
    refine hi.modBase (b := b)
      (f := fun base => { base with sigIo := io, sigEvent := sev, sigSelect := sel })
      rfl (fun _ _ => ⟨rfl, rfl⟩) fun hr => ?_
    exact ⟨(hi b hr).free, (hi b hr).used⟩
  | dtablesize b n => exact hi.resize
  | taskExit t => exact hi
  | openCnt n => exact hi

theorem Runs.inv (h : Runs Tidy s) : s.Inv := by
  induction h with
  | init => exact fun b ⟨k, hk⟩ => by cases hk
  | next hr ha ht ih => exact ih.next hr.reach.shelf_ok ha ht

/-- What `GetSocketEvents` reports is an event word that is not empty. -/
theorem reported {base : TnSocketBase} {gse : Int} {fd ev : Nat}
    (h : tnLvoGetsocketevents base gse = some (fd, ev)) : ev = base.events fd ∧ ev ≠ 0 := by
  unfold tnLvoGetsocketevents at h
  obtain ⟨k, found, pair⟩ := Option.map_eq_some_iff.mp h
  obtain ⟨rfl, rfl⟩ := Prod.mk.inj pair
  exact ⟨rfl, by simpa using List.find?_some found⟩

/-- In every run in which a descriptor is given up with an empty event word and an empty mask, and a
mask is set for an open descriptor only, every descriptor has no other events and no other mask than
its socket's, and `GetSocketEvents` reports no other. -/
theorem clean_of_tidy (h : Runs Tidy s) : s.Clean ∧ s.ReportsOwn := by
  have inv := h.inv
  constructor
  · exact fun b hr => (inv b hr).used
  · intro b hr fd ev hev
    obtain ⟨rfl, some_event⟩ := reported hev
    -- the descriptor of a reported event: the table names the slot, or the word would be empty
    cases hfd : (s.w.bases b).fdMap fd with
    | none => exact absurd ((inv b hr).free fd hfd).1 some_event
    | some i => exact ⟨⟨i, rfl⟩, ((inv b hr).used fd i hfd).1⟩

/-- A client sends a request for its open base while the daemon holds nothing. -/
theorem Runs.request (h : Runs ok s) (m : MsgId) (x : TnIpcMsg) (env : List Answer) (b : BaseId)
    (hm : m ≠ 0) (hd : ∀ c < s.w.calls, c ∈ answered s.w) (hb : x.socketBase = some b)
    (hr : ∃ k, s.w.openBases k = some b) (ho : x.cmd ≠ .open)
    (hok : ok s (.daemon (.ipc m x env))) : Runs ok (s.next (.daemon (.ipc m x env))) := by
  refine .next h ⟨rfl, ⟨hm, fun pl => h.reach.idle hd pl m, fun b' hb' => .inl ?_⟩,
    fun _ opens => absurd opens.1 ho⟩ hok
  obtain rfl := Option.some.inj (hb.symm.trans hb')
  exact hr

/-- A client opens base 1 and asks for a datagram socket. -/
def oneOpen : Clients :=
  [.libOpen 1 {}, .daemon (.ipc 1 { cmd := .open, socketBase := some 1 } [])].foldl Clients.next {}

def oneSocket : Clients := oneOpen.next (.daemon (.ipc 1 dgramMsg [{ id := 1 }]))

theorem oneOpen_runs (hok : ∀ s m x env, x.cmd = .open → ok s (.daemon (.ipc m x env)))
    (hb : ∀ s b base, ok s (.libOpen b base)) : Runs ok oneOpen := by
  have fresh : Fresh {} := ⟨fun _ => rfl, fun _ => rfl, fun _ => rfl⟩
  have built : Runs ok (({} : Clients).next (.libOpen 1 {})) := by
    refine .next .init ⟨?_, fresh⟩ (hb _ _ _)
    rintro ⟨k, hk⟩
    cases hk
  have allowed : (({} : Clients).next (.libOpen 1 {})).Allowed
      (.daemon (.ipc 1 { cmd := .open, socketBase := some 1 } [])) := by
    refine ⟨rfl, ⟨by decide, fun pl => built.reach.idle (by decide) pl 1, ?_⟩, ?_⟩
    · intro b hb
      obtain rfl : 1 = b := Option.some.inj hb
      exact .inr ⟨rfl, fun fd => rfl⟩
    · rintro b ⟨-, hb⟩
      obtain rfl : 1 = b := Option.some.inj hb
      exact fresh
  exact .next built allowed (hok _ _ _ _ rfl)

theorem oneSocket_runs (hok : ∀ s m x env, x.cmd = .open ∨ x.cmd = .socket →
    ok s (.daemon (.ipc m x env))) (hb : ∀ s b base, ok s (.libOpen b base)) : Runs ok oneSocket :=
  (oneOpen_runs (fun s m x env h => hok s m x env (.inl h)) hb).request 1 dgramMsg [{ id := 1 }] 1
    (by decide) (by decide) rfl ⟨0, by decide⟩ (by decide) (hok _ _ _ _ (.inr rfl))

/-- The value of an `SO_EVENTMASK`. -/
def maskBytes (n : UInt8) : Option Mem := some fun o => if o = 3 then n else 0

/-- The client sets a mask, takes the event of a datagram, clears the mask and closes the socket. Its
next socket, with a mask of its own, gets a datagram. -/
def renewed : Clients :=
  [.eventMask 1 0 (maskBytes 255) 4,
   .daemon (.lwip [.udpRecv 1 [7] 0 0] []),
   .getEvents 1,
   .eventMask 1 0 (maskBytes 0) 4,
   .daemon (.ipc 1 { cmd := .closesocket, socketBase := some 1 } []),
   .daemon (.ipc 1 dgramMsg [{ id := 2 }]),
   .eventMask 1 0 (maskBytes 8) 4,
   .daemon (.lwip [.udpRecv 2 [8] 0 0] [])].foldl Clients.next oneSocket

/-- Only a request gives a descriptor up. -/
theorem tidy_lwip (s : Clients) (evs : List LwipEv) (env : List Answer) :
    Tidy s (.daemon (.lwip evs env)) := fun _ _ gives => gives.elim

theorem tidy_ipc {m : MsgId} {x : TnIpcMsg} {env : List Answer}
    (hc : x.cmd = .open ∨ x.cmd = .socket) : Tidy s (.daemon (.ipc m x env)) := by
  intro b fd gives
  have cmd := gives.cmd
  rw [msgs_arrived] at cmd
  rcases hc with hc | hc <;> (rw [hc] at cmd; exact absurd cmd (by decide))

/-- The event of the second socket is reported for it, and none of the first one's. -/
theorem clean_of_tidy_renewed : renewed.Clean ∧ renewed.ReportsOwn ∧
    tnLvoGetsocketevents (renewed.w.bases 1) (renewed.gseLastFd 1) = some (0, 8) := by
  have first : Runs Tidy oneSocket :=
    oneSocket_runs (fun _ _ _ _ hc => tidy_ipc hc) fun _ _ _ => trivial
  have masked := first.next (d := .eventMask 1 0 (maskBytes 255) 4) trivial
    fun _ => by decide
  have fed := masked.next (d := .daemon (.lwip [.udpRecv 1 [7] 0 0] []))
    ⟨rfl, trivial, fun _ opens => opens.elim⟩ (tidy_lwip _ _ _)
  have taken := fed.next (d := .getEvents 1) trivial trivial
  have cleared := taken.next (d := .eventMask 1 0 (maskBytes 0) 4) trivial fun _ => by decide
  have closed := cleared.request 1 { cmd := .closesocket, socketBase := some 1 } [] 1 (by decide)
    (by decide) rfl ⟨0, by decide⟩ (by decide) fun b fd gives => by
      -- the descriptor is 0, whose word and mask are empty
      cases gives with
      | close i _ hb _ hfd =>
        rw [msgs_arrived] at hb hfd
        obtain rfl : 1 = b := Option.some.inj hb
        obtain rfl : fd = 0 := hfd
        decide
      | release _ _ hc | dup2 _ _ hc =>
        rw [msgs_arrived] at hc
        cases hc
  have again := closed.request 1 dgramMsg [{ id := 2 }] 1 (by decide) (by decide) rfl ⟨0, by decide⟩
    (by decide) (tidy_ipc (.inr rfl))
  have remasked := again.next (d := .eventMask 1 0 (maskBytes 8) 4) trivial fun _ => by decide
  have run : Runs Tidy renewed := remasked.next (d := .daemon (.lwip [.udpRecv 2 [8] 0 0] []))
    ⟨rfl, trivial, fun _ opens => opens.elim⟩ (tidy_lwip _ _ _)
  obtain ⟨clean, own⟩ := clean_of_tidy run
  exact ⟨clean, own, by decide⟩

/-- The client sets a mask, a datagram comes, and the client closes the socket without taking the
event. Then it asks for another socket. -/
def reused : Clients :=
  [.eventMask 1 0 (maskBytes 255) 4,
   .daemon (.lwip [.udpRecv 1 [7] 0 0] []),
   .daemon (.ipc 1 { cmd := .closesocket, socketBase := some 1 } []),
   .daemon (.ipc 1 dgramMsg [{ id := 2 }])].foldl Clients.next oneSocket

/-- `GetSocketEvents` reports the read event of the first socket for the second. -/
theorem not_forall_clean : ¬ ∀ s, Runs (fun _ _ => True) s → s.Clean ∧ s.ReportsOwn := by
  intro hall
  have first : Runs (fun _ _ => True) oneSocket :=
    oneSocket_runs (fun _ _ _ _ _ => trivial) fun _ _ _ => trivial
  have masked := first.next (d := .eventMask 1 0 (maskBytes 255) 4)
    trivial trivial
  have fed := masked.next (d := .daemon (.lwip [.udpRecv 1 [7] 0 0] []))
    ⟨rfl, trivial, fun _ opens => opens.elim⟩ trivial
  have closed := fed.request 1 { cmd := .closesocket, socketBase := some 1 } [] 1 (by decide)
    (by decide) rfl ⟨0, by decide⟩ (by decide) trivial
  have run : Runs (fun _ _ => True) reused := closed.request 1 dgramMsg [{ id := 2 }] 1 (by decide)
    (by decide) rfl ⟨0, by decide⟩ (by decide) trivial
  have own := ((hall _ run).2 1 ⟨0, by decide⟩ 0 24 (by decide)).2 3 (by decide)
  rcases own with ⟨kept, -⟩ | ⟨i, -, now⟩
  · exact absurd kept (by decide)
  · exact absurd now (by revert i; decide)

end Clients

end Tolunnet
