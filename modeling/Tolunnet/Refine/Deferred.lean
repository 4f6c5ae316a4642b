import Tolunnet.Refine.Kinds

/-!
# `Tolunnet.Refine.Deferred`: what becomes of a request

Every request that comes in is answered once, or it waits in one place of the daemon. Along a run
the ledger of the abstract daemon says so, as long as no act throws a request away, and two things
in the code do that. `tn_ipc_cmd_accept` stores the request in the slot without looking whether
another one waits there already, which happens when two clients share a listening socket: the first
`ACCEPT` is then neither answered nor held. And the reaper discards the requests of a client whose
task has ended. A step is careful when it does neither. The other calls that wait look first:
`tn_slot_park_recv` answers `EALREADY` to a second reader.
-/

set_option autoImplicit false

namespace Tolunnet

open World Ledger

variable {t : Tok} {w : World} {m : MsgId} {i : SlotIdx} {x : TnIpcMsg} {env : List Answer}
  {inp : Input}

/-- Every request has been answered once and is nowhere, or is unanswered and in one place. -/
def Kept (w : World) : Prop :=
  ∀ c < w.calls,
    ((answered w).count c = 1 ∧ ∀ pl m, heldMsg w pl = some m → w.callOf m ≠ c) ∨
    (c ∉ answered w ∧ ∃! pl, ∃ m, heldMsg w pl = some m ∧ w.callOf m = c)

/-- No `ACCEPT` has to wait where another one waits, and the reaper finds no dead client. -/
def Careful (w : World) (inp : Input) : Prop :=
  (∀ m x env i, inp = .ipc m x env → ¬ Overwrites w x i) ∧ ¬ (inp.reaps = true ∧ Deadly w)

/-! ## The ledger at rest -/

/-- The log of the abstract daemon has all the replies. -/
theorem abs_answered (t : Tok) (w : World) : (abs t w).books.answered = answered w := by
  show (w.trace.filter Event.loud).filterMap Event.replied = w.trace.filterMap Event.replied
  rw [List.filterMap_filter]
  refine List.filterMap_congr fun e _ => ?_
  cases e <;> rfl

/-- Between two steps nothing is in hand, so what the daemon has is in a place. -/
theorem has_at_rest (ht : t.hand = []) (h : (abs t w).books.Has m) :
    ∃ pl, heldMsg w pl = some m := by
  rcases h with h | ⟨pl, h⟩
  · have hand : m ∈ t.hand := h
    rw [ht] at hand
    cases hand
  · exact ⟨pl, (abs_held t w pl).symm.trans h⟩

theorem has_of_held {pl : Place} (h : heldMsg w pl = some m) : (abs t w).books.Has m :=
  Or.inr ⟨pl, (abs_held t w pl).trans h⟩

/-- Complete books that list each request once keep every request. -/
theorem Kept.of_books (once : (abs t w).books.Once) (complete : (abs t w).books.Complete)
    (ht : t.hand = []) : Kept w := by
  intro c hc
  by_cases ha : c ∈ answered w
  · refine Or.inl ⟨?_, fun pl m hp he => ?_⟩
    · have nodup := once.once
      rw [abs_answered] at nodup
      exact List.count_eq_one_of_mem nodup ha
    · have unanswered := once.unanswered m (has_of_held hp)
      rw [abs_answered] at unanswered
      rw [← he] at ha
      exact unanswered ha
  · refine Or.inr ⟨ha, ?_⟩
    obtain ⟨m, hm, he⟩ := (complete c hc).resolve_left (by rwa [abs_answered])
    obtain ⟨pl, hp⟩ := has_at_rest ht hm
    refine ⟨pl, ⟨m, hp, he⟩, ?_⟩
    rintro pl' ⟨m', hp', he'⟩
    -- the number belongs to one message, and the message is in one place
    obtain rfl : m' = m :=
      once.inj m' m (has_of_held hp') hm ((show w.callOf m' = c from he').trans he.symm)
    exact once.apart pl' pl m' ((abs_held t w pl').trans hp') ((abs_held t w pl).trans hp)

theorem Kept.complete (h : Kept w) : (abs t w).books.Complete := by
  intro c hc
  rcases h c hc with ⟨once, -⟩ | ⟨-, pl, ⟨m, hp, he⟩, -⟩
  · refine Or.inl ?_
    rw [abs_answered]
    exact List.count_pos_iff.mp (by omega)
  · exact Or.inr ⟨m, has_of_held hp, he⟩

/-- In every state, also after a request has been lost, no call has been answered twice, no message
is in two places, and what is held has not been answered. -/
theorem reached_once (hr : Reachable w) : (answered w).Nodup ∧
    (∀ pl pl' m, heldMsg w pl = some m → heldMsg w pl' = some m → pl = pl') ∧
    ∀ pl m, heldMsg w pl = some m → w.callOf m < w.calls ∧ w.callOf m ∉ answered w := by
  have once := hr.abs_sound.once
  have answered : (abs (restTok Set.univ) w).books.answered = answered w := abs_answered _ w
  refine ⟨answered ▸ once.once, fun pl pl' m h h' => ?_, fun pl m h => ?_⟩
  · exact once.apart pl pl' m ((abs_held _ w pl).trans h) ((abs_held _ w pl').trans h')
  · have has := has_of_held (t := restTok Set.univ) h
    exact ⟨once.known m has, answered ▸ once.unanswered m has⟩

/-! ## Careful steps -/

/-- What a careful step may do: everything but replace a request or throw one away. -/
def Keeping : Label → Prop
  | .overwrite _ | .drop _ => False
  | _ => True

theorem Keeping.not_lossy : ¬ Lossy Keeping := by
  rintro (⟨i, h⟩ | ⟨m, h⟩)
  · exact h
  · exact h

theorem Careful.grants (h : Careful w inp) : Grants Keeping Set.univ w inp where
  alter := trivial
  clear := fun _ => trivial
  stray := fun _ _ => trivial
  drop := fun hr hd => absurd ⟨hr, hd⟩ h.2
  overwrite := fun m x env i he ho => absurd ho (h.1 m x env i he)
  dangle := fun _ _ _ _ _ => trivial
  short := fun _ _ _ _ _ => trivial
  strand := fun _ _ _ _ _ _ _ => Set.mem_univ _

/-- A careful step keeps every request. -/
theorem Careful.kept_step (hok : Careful w inp) (hs : (abs (restTok Set.univ) w).Sound)
    (ha : Admissible w inp) (hk : Kept w) : Kept (step w inp) := by
  by_cases hc : ∃ c, inp = .client c
  · obtain ⟨c, rfl⟩ := hc
    -- a client's own step does not touch the books
    obtain ⟨fd, dtab, he⟩ := abs_clientStep (restTok Set.univ) w c
    have books : (abs (restTok Set.univ) (clientStep w c)).books
        = (abs (restTok Set.univ) w).books := by
      rw [he]
      rfl
    exact .of_books (t := restTok Set.univ) (books ▸ hs.once) (books ▸ hk.complete) rfl
  · have acts := step_acts hok.grants ha fun c he => hc ⟨c, he⟩
    have kept := Acts.induct (I := fun a => a.books.Complete)
      (fun a a' hs hi ha => hi.step (Abs.books_act hs ha) Keeping.not_lossy) hs hk.complete acts
    exact .of_books kept.1.once kept.2 rfl

/-- Along a careful run no request is lost and none is answered twice. -/
theorem careful_kept (hr : Reach Careful w) : Kept w := by
  induction hr with
  | init => exact fun c hc => absurd hc (Nat.not_lt_zero c)
  | step hr ha hok ih => exact hok.kept_step hr.abs_sound ha ih

/-! ## The overwritten `ACCEPT` -/

/-- An `ACCEPT` that has to wait takes the field, whatever is in it. -/
theorem step_overwrites (ho : Overwrites w x i) (m : MsgId) (env : List Answer) :
    step w (.ipc m x env) = (presented w m x env).setPending i .accept (some m) := by
  obtain ⟨hcmd, hslot, listening, empty, blocking, -⟩ := ho
  have msg : (presented w m x env).msgs m = { x with result := 0, errNo := .ok } := presented_msg
  have base : ¬ (needsBase x.cmd ∧ x.socketBase = none) := by
    rintro ⟨-, hb⟩
    rw [slotOf, hb] at hslot
    cases hslot
  have same : ∀ j, (presented w m x env).sockets j = w.sockets j := fun _ => rfl
  have accept : tnIpcCmdAccept (presented w m x env) m (some i)
      = ((presented w m x env).setPending i .accept (some m), .defer) := by
    unfold tnIpcCmdAccept
    dsimp only
    rw [same, listening, empty, blocking]
    rfl
  have handled : tnHandleIpc { receive w m x with env := env } m
      = ((presented w m x env).setPending i .accept (some m), .defer) := by
    rw [tnHandleIpc_presented, if_neg (by simp [hcmd]), if_neg base,
      if_pos (by simp [hcmd, needsFd])]
    rw [slotOf] at hslot
    rw [hslot]
    dsimp only
    unfold handler
    rw [msg]
    dsimp only
    rw [hcmd]
    exact accept
  show handleMsg _ m = _
  unfold handleMsg
  rw [handled]

/-- What a place holds after one field has been written, when it is not what was written. -/
theorem held_setPending {k : Pend} {pl : Place} {m' : MsgId}
    (h : heldMsg (w.setPending i k (some m)) pl = some m') (hm : m ≠ m') :
    heldMsg w pl = some m' ∧ pl ≠ .slot i k := by
  cases pl with
  | slot j k' =>
    by_cases hj : j = i
    · subst hj
      by_cases hk : k' = k
      · subst hk
        simp only [heldMsg, World.setPending, World.modSlot, Function.update_self] at h
        exact absurd (Option.some.inj h) hm
      · refine ⟨?_, fun he => hk (Place.slot.inj he).2⟩
        simpa [heldMsg, World.setPending, World.modSlot, hk] using h
    · refine ⟨?_, fun he => hj (Place.slot.inj he).1⟩
      simpa [heldMsg, World.setPending, World.modSlot, hj] using h
  | dns k' => exact ⟨h, Place.noConfusion⟩
  | stop => exact ⟨h, Place.noConfusion⟩

/-- The request that waited is neither answered nor held after that. -/
theorem overwrites_lost (hs : (abs (restTok Set.univ) w).Sound)
    (ha : Admissible w (.ipc m x env)) (ho : Overwrites w x i) {m' : MsgId}
    (hp : (w.sockets i).pending .accept = some m') :
    w.callOf m' ∉ answered (step w (.ipc m x env)) ∧
      ∀ pl m₁, heldMsg (step w (.ipc m x env)) pl = some m₁ →
        (step w (.ipc m x env)).callOf m₁ ≠ w.callOf m' := by
  have here : heldMsg w (.slot i .accept) = some m' := hp
  have has := has_of_held (t := restTok Set.univ) here
  have known : w.callOf m' < w.calls := hs.once.known m' has
  rw [step_overwrites ho]
  refine ⟨?_, fun pl m₁ hp₁ he => ?_⟩
  · have unanswered := hs.once.unanswered m' has
    rwa [abs_answered] at unanswered
  · by_cases hm : m₁ = m
    · -- the new request has a number of its own
      subst hm
      have new : ((presented w m₁ x env).setPending i .accept (some m₁)).callOf m₁ = w.calls := by
        simp [presented, World.setPending, World.modSlot, setReply, modMsg, receive]
      exact absurd known (by rw [← he, new]; exact Nat.lt_irrefl _)
    · have old : ((presented w m x env).setPending i .accept (some m)).callOf m₁ = w.callOf m₁ := by
        simp [presented, World.setPending, World.modSlot, setReply, modMsg, receive, hm]
      rw [old] at he
      have there : heldMsg w pl = some m₁ ∧ pl ≠ .slot i .accept :=
        held_setPending hp₁ fun he => hm he.symm
      obtain rfl : m₁ = m' := hs.once.inj m₁ m' (has_of_held there.1) has he
      exact there.2 (hs.once.apart _ _ m₁ ((abs_held (restTok Set.univ) w pl).trans there.1)
        ((abs_held (restTok Set.univ) w _).trans here))

/-- A step that meets no dead client keeps the requests exactly when it overwrites none. -/
theorem kept_step_iff (hr : Reachable w) (hk : Kept w) (ha : Admissible w inp)
    (hd : ¬ (inp.reaps = true ∧ Deadly w)) :
    Kept (step w inp) ↔ ∀ m x env i, inp = .ipc m x env → ¬ Overwrites w x i := by
  have hs := hr.abs_sound
  constructor
  -- the request that is overwritten is known, not answered and held nowhere
  · rintro kept m x env i rfl ho
    obtain ⟨m', hp⟩ := Option.ne_none_iff_exists'.mp ho.2.2.2.2.2
    have here : heldMsg w (.slot i .accept) = some m' := hp
    have known : w.callOf m' < w.calls := hs.once.known m' (has_of_held here)
    have lost := overwrites_lost hs ha ho hp
    have calls : (step w (.ipc m x env)).calls = w.calls + 1 := by
      rw [step_overwrites ho]
      rfl
    have still : w.callOf m' < (step w (.ipc m x env)).calls := calls ▸ Nat.lt_succ_of_lt known
    rcases kept (w.callOf m') still with ⟨once, -⟩ | ⟨-, pl, ⟨m₁, hp₁, he⟩, -⟩
    · exact lost.1 (List.count_pos_iff.mp (by omega))
    · exact lost.2 pl m₁ hp₁ he
  -- any other step keeps every request
  · intro h
    exact Careful.kept_step ⟨h, hd⟩ hs ha hk

/-! ## Two clients at one listener -/

/-- The client makes its stream socket a listener. -/
def listenMsg : TnIpcMsg :=
  { cmd := .listen, socketBase := some 1, args := fun n => if n = 1 then 5 else 0 }

def acceptMsg (b : BaseId) : TnIpcMsg := { cmd := .accept, socketBase := some b }

/-- A client waits for a connection. -/
def acceptClient : World :=
  [.ipc 1 streamMsg [{ id := 1 }], .ipc 1 listenMsg [{ id := 2 }], .ipc 1 (acceptMsg 1) []].foldl
    step oneClient

/-- A request that is not `ACCEPT` and does not call the reaper is careful. -/
theorem careful_request (ha : x.cmd ≠ .accept) (ho : x.cmd ≠ .open) (hs : x.cmd ≠ .stop) :
    Careful w (.ipc m x env) := by
  refine ⟨?_, fun h => ?_⟩
  · rintro m x env i he ⟨hc, -⟩
    cases he
    exact ha hc
  · have reaps : (x.cmd == .open || x.cmd == .stop) = true := h.1
    simp [ho, hs] at reaps

theorem careful_client (c : ClientStep) : Careful w (.client c) := by
  refine ⟨?_, fun h => ?_⟩
  · intro m x env i he
    cases he
  · cases h.1

/-- An `ACCEPT` on a listener that holds no other one is careful. -/
theorem careful_accept (hc : x.cmd = .accept)
    (hp : ∀ i, slotOf w x = some i → (w.sockets i).pending .accept = none) :
    Careful w (.ipc m x env) := by
  refine ⟨?_, fun h => ?_⟩
  · rintro m x env i he ⟨-, hi, -, -, -, held⟩
    cases he
    exact held (hp i hi)
  · have reaps : (x.cmd == .open || x.cmd == .stop) = true := h.1
    simp [hc] at reaps

theorem acceptClient_run : Reach Careful acceptClient := by
  have opened : Reach Careful oneClient := by
    refine oneClient_run (careful_client _) ⟨?_, ?_⟩
    · rintro m x env i he ⟨hc, -⟩
      cases he
      cases hc
    · rintro ⟨-, k, b, hk, -⟩
      cases hk
  have socket : Reach Careful _ := opened.request 1 streamMsg [{ id := 1 }] 1 (by decide)
    (by decide) rfl ⟨0, rfl⟩ (careful_request (by decide) (by decide) (by decide))
  have listening : Reach Careful _ := socket.request 1 listenMsg [{ id := 2 }] 1 (by decide)
    (by decide) rfl ⟨0, by decide⟩ (careful_request (by decide) (by decide) (by decide))
  have accepting : Reach Careful _ := listening.request 1 (acceptMsg 1) [] 1 (by decide) (by decide)
    rfl ⟨0, by decide⟩ (careful_accept rfl fun i hi => by
      have slot : some firstSlot = some i := hi
      cases slot
      decide)
  exact accepting

/-- The `ACCEPT` of a lone client is parked and kept. -/
theorem acceptClient_kept : heldMsg acceptClient (.slot firstSlot .accept) = some 1 ∧
    Kept acceptClient :=
  ⟨by decide, careful_kept acceptClient_run⟩

/-- It releases a copy of the listener for another client. -/
def releaseCopyMsg : TnIpcMsg :=
  { cmd := .releasesocket, socketBase := some 1,
    args := fun n => if n = 1 then 7 else if n = 2 then 1 else 0 }

def obtainCopyMsg : TnIpcMsg :=
  { cmd := .obtainsocket, socketBase := some 2, args := fun n => if n = 0 then 7 else 0 }

/-- The run that leads to a connection asks for a base, a socket and the connection. -/
theorem streamClient_run {ok : World → Input → Prop}
    (hok : ∀ w inp, (∀ m x env, inp = .ipc m x env →
      x.cmd = .open ∨ x.cmd = .socket ∨ x.cmd = .connect) → ok w inp) : Reach ok streamClient := by
  have request : ∀ w m x env, (x.cmd = .open ∨ x.cmd = .socket ∨ x.cmd = .connect) →
      ok w (.ipc m x env) := by
    refine fun w m x env hx => hok w _ fun m' x' env' he => ?_
    cases he
    exact hx
  have opened : Reach ok oneClient :=
    oneClient_run (hok _ _ fun _ _ _ he => by cases he) (request _ _ _ _ (Or.inl rfl))
  have socket : Reach ok _ := opened.request 1 streamMsg [{ id := 1 }] 1 (by decide) (by decide) rfl
    ⟨0, rfl⟩ (request _ _ _ _ (Or.inr (Or.inl rfl)))
  have connecting : Reach ok _ := socket.request 1 connectMsg [] 1 (by decide) (by decide) rfl
    ⟨0, by decide⟩ (request _ _ _ _ (Or.inr (Or.inr rfl)))
  have connected : Reach ok (step _ (.lwip [.connected 1] [])) :=
    .step connecting trivial (hok _ _ fun _ _ _ he => by cases he)
  exact connected

/-- Two clients share a listener. -/
def twoHolders : World :=
  [.ipc 1 streamMsg [{ id := 1 }], .ipc 1 listenMsg [{ id := 2 }], .ipc 1 releaseCopyMsg [],
    .client (.newBase 2 {}), .ipc 2 { cmd := .open, socketBase := some 2 } [],
    .ipc 2 obtainCopyMsg []].foldl step oneClient

/-- The run that leads there has no `ACCEPT`. -/
theorem twoHolders_run {ok : World → Input → Prop}
    (hok : ∀ w inp, (∀ i, (w.sockets i).pending .accept = none) → ok w inp) :
    Reach ok twoHolders := by
  have opened : Reach ok oneClient := oneClient_run (hok _ _ (by decide)) (hok _ _ (by decide))
  have socket : Reach ok _ := opened.request 1 streamMsg [{ id := 1 }] 1 (by decide) (by decide)
    rfl ⟨0, rfl⟩ (hok _ _ (by decide))
  have listening : Reach ok _ := socket.request 1 listenMsg [{ id := 2 }] 1 (by decide)
    (by decide) rfl ⟨0, by decide⟩ (hok _ _ (by decide))
  have released : Reach ok _ := listening.request 1 releaseCopyMsg [] 1 (by decide) (by decide) rfl
    ⟨0, by decide⟩ (hok _ _ (by decide))
  have built : Reach ok (step _ (.client (.newBase 2 {}))) :=
    .step released ⟨fun ⟨k, hk⟩ => by revert k; decide, fun _ => rfl⟩ (hok _ _ (by decide))
  have second : Reach ok (step _ (.ipc 2 { cmd := .open, socketBase := some 2 } [])) :=
    .step built ⟨by decide, fun pl => built.idle (by decide) pl 2, fun b hb =>
      Or.inr ⟨rfl, fun fd => by cases hb; rfl⟩⟩ (hok _ _ (by decide))
  have obtained : Reach ok _ := second.request 2 obtainCopyMsg [] 2 (by decide) (by decide) rfl
    ⟨1, by decide⟩ (hok _ _ (by decide))
  exact obtained

/-- The first client waits for a connection. -/
def sharedListener : World := step twoHolders (.ipc 1 (acceptMsg 1) [])

theorem sharedListener_reach : Reachable sharedListener :=
  (twoHolders_run fun _ _ _ => trivial).request 1 (acceptMsg 1) [] 1 (by decide) (by decide) rfl
    ⟨0, by decide⟩ trivial

/-- Its request has not been answered. -/
theorem reached_once_shared : (answered sharedListener).Nodup ∧
    sharedListener.callOf 1 ∉ answered sharedListener :=
  have once := reached_once sharedListener_reach
  ⟨once.1, (once.2.2 (.slot firstSlot .accept) 1 (by decide)).2⟩

/-- A message whose last call has been answered is not held. -/
theorem Reach.unheld {ok : World → Input → Prop} (hr : Reach ok w) (ha : w.callOf m ∈ answered w)
    (pl : Place) : heldMsg w pl ≠ some m := fun hp => by
  have unanswered := hr.abs_sound.once.unanswered m (has_of_held hp)
  rw [abs_answered] at unanswered
  exact unanswered ha

/-- A state in which every call has been answered. -/
theorem kept_of_answered (hr : Reachable w) (all : ∀ c < w.calls, c ∈ answered w) : Kept w := by
  intro c hc
  refine Or.inl ⟨?_, fun pl m hp => absurd hp (hr.idle all pl m)⟩
  have nodup := hr.abs_sound.once.once
  rw [abs_answered] at nodup
  exact List.count_eq_one_of_mem nodup (all c hc)

/-- The first `ACCEPT` finds nobody waiting and is kept. When the second client waits as well, the
request of the first one is lost. -/
theorem kept_step_iff_shared :
    Kept sharedListener ∧ ¬ Kept (step sharedListener (.ipc 2 (acceptMsg 2) [])) := by
  have holders : Reachable twoHolders := twoHolders_run fun _ _ _ => trivial
  have first : Kept sharedListener := by
    have admissible : Admissible twoHolders (.ipc 1 (acceptMsg 1) []) := by
      refine ⟨by decide, fun pl => holders.idle (by decide) pl 1, fun b hb => Or.inl ⟨0, ?_⟩⟩
      cases hb
      decide
    refine (kept_step_iff holders (kept_of_answered holders (by decide)) admissible
      fun h => by cases h.1).mpr fun m x env i he => ?_
    cases he
    have nobody : ∀ i, (twoHolders.sockets i).pending .accept = none := by decide
    exact fun overwrites => overwrites.2.2.2.2.2 (nobody i)
  refine ⟨first, fun kept => ?_⟩
  have admissible : Admissible sharedListener (.ipc 2 (acceptMsg 2) []) := by
    refine ⟨by decide, sharedListener_reach.unheld (by decide), fun b hb => Or.inl ⟨1, ?_⟩⟩
    cases hb
    decide
  have overwrites : Overwrites sharedListener (acceptMsg 2) firstSlot :=
    ⟨rfl, by decide, by decide, by decide, by decide, by decide⟩
  exact (kept_step_iff sharedListener_reach first admissible fun h => by cases h.1).mp kept
    2 (acceptMsg 2) [] firstSlot rfl overwrites

end Tolunnet
