import Tolunnet.Desk.Lookups

/-!
# `Tolunnet.Desk.Waiters`: one lookup for a name

lwIP keeps one callback for each name that it asks the server for, so of two records with one name only
one would ever be completed. `tn_dns_found_cb` compares names up to case on the first 63 characters.
`GETHOSTBYNAME` looks for a record of the name before it makes one, but it compares the whole text, and
only with the records that `DNS_PENDING` leaves in use.

`Doubles` is a request that passes this test though a record has its name. `step_oneWaiter_iff` says
that such requests are all that makes a second record for a name.
-/

set_option autoImplicit false

namespace Tolunnet

open World

variable {w : World} {m : MsgId} {x : TnIpcMsg} {env : List Answer} {P : Mark → Prop} {d d' : Desk}
  {hostname a b : List Char} {inp : Input}

/-! ## Names -/

/-- The names of two records are compared on what the records hold. -/
theorem tnDnsNameMatches_iff : tnDnsNameMatches a b = true ↔
    (a.take 63).map Char.toLower = (b.take 63).map Char.toLower := dnsNameLoop_eq 63 a b

theorem tnDnsNameMatches_comm : tnDnsNameMatches a b = tnDnsNameMatches b a := by
  rw [Bool.eq_iff_iff, tnDnsNameMatches_iff, tnDnsNameMatches_iff]
  exact eq_comm

theorem tnDnsNameMatches_take : tnDnsNameMatches a (b.take 63) = tnDnsNameMatches a b := by
  rw [Bool.eq_iff_iff, tnDnsNameMatches_iff, tnDnsNameMatches_iff, List.take_take, min_self]

/-! ## The records -/

/-- No two records in use have one name. -/
def OneWaiter (dns : Fin 8 → TnDnsPending) : Prop :=
  ∀ k l, k ≠ l → (dns k).inUse = true → (dns l).inUse = true →
    tnDnsNameMatches (dns k).name (dns l).name = false

/-- A record in use has this name. -/
def NamePending (dns : Fin 8 → TnDnsPending) (hostname : List Char) : Prop :=
  ∃ k, (dns k).inUse = true ∧ tnDnsNameMatches (dns k).name hostname = true

/-- A record of the part that is in use has exactly this name. -/
def Listed (w : World) (hostname : List Char) : Prop :=
  ∃ k : Fin 8, k.val < dnsEff w ∧ (w.dnsPending k).inUse = true ∧ (w.dnsPending k).name = hostname

/-- A record of the part that is in use is free. -/
def HasRoom (w : World) : Prop := ∃ k : Fin 8, k.val < dnsEff w ∧ (w.dnsPending k).inUse = false

/-- A client looks up a name, and lwIP has to ask the server. -/
def Waits (hostname : List Char) : Input → Prop
  | .ipc _ x env => x.cmd = .gethostbyname ∧ x.socketBase ≠ none ∧ x.ptrs 0 = .str hostname ∧ hostname ≠ [] ∧
      (env.headD {}).ok = false ∧ (env.headD {}).err = .inprogress
  | _ => False

/-- A request for a name that is pending passes the test for duplicates. -/
def Doubles (w : World) (inp : Input) : Prop :=
  ∃ hostname, Waits hostname inp ∧ NamePending w.dnsPending hostname ∧ ¬ Listed w hostname ∧ HasRoom w

/-- Emptying a record leaves the others. -/
theorem OneWaiter.clear {dns : Fin 8 → TnDnsPending} (one : OneWaiter dns) (k : Fin 8) (r : TnDnsPending)
    (free : r.inUse = false) : OneWaiter (Function.update dns k r) := by
  intro i j differ used used'
  have ik : i ≠ k := by
    rintro rfl
    rw [Function.update_self, free] at used
    cases used
  have jk : j ≠ k := by
    rintro rfl
    rw [Function.update_self, free] at used'
    cases used'
  rw [Function.update_of_ne ik] at used ⊢
  rw [Function.update_of_ne jk] at used' ⊢
  exact one i j differ used used'

/-- A new record needs a name that no other one has. -/
theorem oneWaiter_fill_iff {dns : Fin 8 → TnDnsPending} (one : OneWaiter dns) {k : Fin 8} {r : TnDnsPending}
    (free : (dns k).inUse = false) (used : r.inUse = true) (name : r.name = hostname.take 63) :
    OneWaiter (Function.update dns k r) ↔ ¬ NamePending dns hostname := by
  have other : ∀ {j}, (dns j).inUse = true → j ≠ k := by
    rintro j inUse rfl
    rw [free] at inUse
    cases inUse
  constructor
  · rintro after ⟨j, inUse, same⟩
    have jk := other inUse
    have apart := after j k jk (by rw [Function.update_of_ne jk, inUse]) (by rw [Function.update_self, used])
    rw [Function.update_of_ne jk, Function.update_self, name, tnDnsNameMatches_take, same] at apart
    cases apart
  · intro none
    have apart : ∀ j, (dns j).inUse = true → tnDnsNameMatches (dns j).name r.name = false := by
      intro j inUse
      rw [name, tnDnsNameMatches_take]
      exact Bool.eq_false_iff.mpr fun same => none ⟨j, inUse, same⟩
    intro i j differ usedI usedJ
    by_cases ik : i = k
    · have jk : j ≠ k := fun jk => differ (ik.trans jk.symm)
      rw [Function.update_of_ne jk] at usedJ ⊢
      rw [ik, Function.update_self, tnDnsNameMatches_comm]
      exact apart j usedJ
    · rw [Function.update_of_ne ik] at usedI ⊢
      by_cases jk : j = k
      · rw [jk, Function.update_self]
        exact apart i usedI
      · rw [Function.update_of_ne jk] at usedJ ⊢
        exact one i j differ usedI usedJ

/-- Only a deferred lookup makes a record. -/
theorem OneWaiter.move (one : OneWaiter d.dns) (quiet : ¬ P .lookup) (move : Move P d d') :
    OneWaiter d'.dns := by
  cases move with
  | lookup k m r hm hf hu hr hl => exact absurd hl quiet
  | found k m hu hr => exact one.clear k _ rfl
  | forget k hu hr => exact one.clear k _ rfl
  | _ => exact one

theorem OneWaiter.moves (one : OneWaiter d.dns) (quiet : ¬ P .lookup) (moves : Moves P d d') :
    OneWaiter d'.dns := by
  induction moves with
  | refl => exact one
  | tail _ move ih => exact ih.move quiet move

/-! ## A lookup -/

theorem dnsPending_handleMsg : (handleMsg w m).dnsPending = (tnHandleIpc w m).1.dnsPending := by
  unfold handleMsg
  split
  · rename_i heq
    rw [heq]
    rfl
  · rename_i heq
    rw [heq]

/-- The request is answered at once, with `EAGAIN`. -/
structure AnsweredEagain (w : World) (m : MsgId) (x : TnIpcMsg) (env : List Answer) : Prop where
  answered : w.calls ∈ answered (step w (.ipc m x env))
  result : ((step w (.ipc m x env)).msgs m).result = 0
  errNo : ((step w (.ipc m x env)).msgs m).errNo = .ewouldblock
  unchanged : (step w (.ipc m x env)).dnsPending = w.dnsPending

theorem tnIpcCmdGethostbyname_waits {b : BaseId} (base : (w.msgs m).socketBase = some b)
    (ptr : (w.msgs m).ptrs 0 = .str hostname) (some : hostname ≠ []) (unresolved : w.ask.ok = false)
    (inprogress : w.ask.err = .inprogress) :
    tnIpcCmdGethostbyname w m = deferDns w.asked m b hostname := by
  unfold tnIpcCmdGethostbyname
  dsimp only
  rw [base, ptr]
  dsimp only
  have asks : ¬ (w.ask.ok = true ∨ w.ask.err = .ok) := by
    rw [unresolved, inprogress]
    decide
  rw [if_neg some, if_neg asks, if_pos inprogress]

/-- The handler looks for the name in the part that is in use, and then for a free record there. -/
theorem deferDns_cases (w : World) (m : MsgId) (b : BaseId) (hostname : List Char) :
    (Listed w hostname ∨ ¬ HasRoom w) ∧ deferDns w m b hostname = done w m 0 .ewouldblock ∨
    ¬ Listed w hostname ∧ ∃ k : Fin 8, k.val < dnsEff w ∧ (w.dnsPending k).inUse = false ∧
      deferDns w m b hostname = (registerDns w k m b hostname, .defer) := by
  unfold deferDns
  dsimp only
  have listed : (((List.finRange 8).filter fun k => decide (k.val < dnsEff w)).any fun k =>
      (w.dnsPending k).inUse && (w.dnsPending k).name == hostname) = true ↔ Listed w hostname := by
    simp [Listed, List.any_eq_true]
  split
  · rename_i found
    exact .inl ⟨.inl (listed.mp found), rfl⟩
  · rename_i absent
    have absent : ¬ Listed w hostname := fun h => absent (listed.mpr h)
    split
    · rename_i k found
      have free := List.find?_some found
      have mem := List.mem_filter.mp (List.mem_of_find?_eq_some found)
      exact .inr ⟨absent, k, of_decide_eq_true mem.2, (Bool.not_eq_true' _).mp free, rfl⟩
    · rename_i full
      refine .inl ⟨.inr ?_, rfl⟩
      rintro ⟨k, inside, free⟩
      have taken := List.find?_eq_none.mp full k
        (List.mem_filter.mpr ⟨List.mem_finRange k, decide_eq_true inside⟩)
      rw [free] at taken
      exact taken rfl

theorem dnsPending_answerMsg {r : Int} {e : Errno} : (w.answerMsg m r e).dnsPending = w.dnsPending := rfl

theorem dnsPending_asked : w.asked.dnsPending = w.dnsPending := rfl

theorem dnsPending_presented : (presented w m x env).dnsPending = w.dnsPending := rfl

theorem dnsPending_registerDns (w : World) (k : Fin 8) (b : BaseId) (hostname : List Char) :
    (registerDns w k m b hostname).dnsPending = Function.update w.dnsPending k
      { inUse := true, imsg := some m, base := some b, name := hostname.take 63, tick := w.mainloopTicks } :=
  rfl

/-- What a lookup does that lwIP has to ask the server for. -/
theorem lookup_cases (waits : Waits hostname (.ipc m x env)) :
    (Listed w hostname ∨ ¬ HasRoom w) ∧ AnsweredEagain w m x env ∨
    ¬ Listed w hostname ∧ ∃ (k : Fin 8) (r : TnDnsPending), k.val < dnsEff w ∧
      (w.dnsPending k).inUse = false ∧ r.inUse = true ∧ r.name = hostname.take 63 ∧
      (step w (.ipc m x env)).dnsPending = Function.update w.dnsPending k r := by
  obtain ⟨cmd, base, ptr, some, unresolved, inprogress⟩ := waits
  obtain ⟨b, base⟩ := Option.ne_none_iff_exists'.mp base
  have unbased : ¬ (needsBase x.cmd = true ∧ x.socketBase = none) := by
    rw [cmd]
    exact fun h => absurd h.1 (by decide)
  have handled : tnHandleIpc { receive w m x with env := env } m =
      deferDns (presented w m x env).asked m b hostname := by
    rw [tnHandleIpc_presented, if_neg (by rw [cmd]; decide), if_neg unbased, if_neg (by rw [cmd]; decide)]
    unfold handler
    rw [presented_msg, cmd]
    refine tnIpcCmdGethostbyname_waits ?_ ?_ some unresolved inprogress
    · rw [presented_msg]
      exact base
    · rw [presented_msg]
      exact ptr
  obtain ⟨refused, again⟩ | ⟨absent, k, inside, free, registers⟩ :=
    deferDns_cases (presented w m x env).asked m b hostname
  · refine .inl ⟨refused, ?_⟩
    have stepped := step_ipc_done (handled.trans again)
    refine { answered := ?_, result := ?_, errNo := ?_, unchanged := ?_ }
    · rw [stepped]
      have number : (presented w m x env).asked.callOf m = w.calls := by
        simp [presented, setReply, modMsg, receive, asked]
      simp [answerMsg, replyMsg, emit, answered, Event.replied, setReply, modMsg, number]
    · rw [stepped]
      exact answerMsg_reply.1
    · rw [stepped]
      exact answerMsg_reply.2
    · rw [stepped, dnsPending_answerMsg, dnsPending_asked, dnsPending_presented]
  · let r : TnDnsPending :=
      { inUse := true, imsg := .some m, base := .some b, name := hostname.take 63
        tick := (presented w m x env).asked.mainloopTicks }
    refine .inr ⟨absent, k, r, inside, free, rfl, rfl, ?_⟩
    show (handleMsg _ m).dnsPending = _
    rw [dnsPending_handleMsg, handled, registers]
    rw [dnsPending_registerDns, dnsPending_asked, dnsPending_presented]

theorem dnsPending_tnIpcCmdGethostbyname
    (resolved : ∀ b hostname, (w.msgs m).socketBase = some b → (w.msgs m).ptrs 0 = .str hostname →
      hostname ≠ [] → w.ask.ok = false → w.ask.err ≠ .inprogress) :
    (tnIpcCmdGethostbyname w m).1.dnsPending = w.dnsPending := by
  unfold tnIpcCmdGethostbyname
  dsimp only
  split
  · rename_i b hostname base ptr
    split
    · rfl
    · rename_i some
      split
      · rfl
      · rename_i unresolved
        rw [not_or, Bool.not_eq_true] at unresolved
        rw [if_neg (resolved b hostname base ptr some unresolved.1)]
        rfl
  · rfl

/-- A lookup that lwIP does not ask the server for makes no record. -/
theorem dnsPending_of_not_waits (cmd : x.cmd = .gethostbyname)
    (resolved : ∀ hostname, ¬ Waits hostname (.ipc m x env)) :
    (step w (.ipc m x env)).dnsPending = w.dnsPending := by
  have unbased : ¬ (needsBase x.cmd = true ∧ x.socketBase = none) := by
    rw [cmd]
    exact fun h => absurd h.1 (by decide)
  show (handleMsg _ m).dnsPending = _
  rw [dnsPending_handleMsg, tnHandleIpc_presented, if_neg (by rw [cmd]; decide), if_neg unbased,
    if_neg (by rw [cmd]; decide)]
  unfold handler
  rw [presented_msg, cmd]
  rw [dnsPending_tnIpcCmdGethostbyname, dnsPending_presented]
  rw [presented_msg]
  intro b hostname base ptr some unresolved inprogress
  refine resolved hostname ⟨cmd, ?_, ptr, some, unresolved, inprogress⟩
  rw [show x.socketBase = _ from base]
  exact Option.some_ne_none b

/-! ## Steps and runs -/

/-- A step keeps one record for each name exactly when it is no request that doubles one. -/
theorem step_oneWaiter_iff (one : OneWaiter w.dnsPending) (ha : Admissible w inp) :
    OneWaiter (step w inp).dnsPending ↔ ¬ Doubles w inp := by
  by_cases lookup : Allowed w inp .lookup
  · obtain ⟨m, x, env, rfl, cmd⟩ := lookup
    by_cases resolved : ∀ hostname, ¬ Waits hostname (.ipc m x env)
    · rw [dnsPending_of_not_waits cmd resolved]
      exact iff_of_true one fun ⟨hostname, waits, _⟩ => resolved hostname waits
    · rw [not_forall_not] at resolved
      obtain ⟨hostname, waits⟩ := resolved
      -- the request is for one name only
      have only : ∀ hostname', Waits hostname' (.ipc m x env) → hostname' = hostname := by
        intro hostname' waits'
        exact Ptr.str.inj (waits'.2.2.1.symm.trans waits.2.2.1)
      obtain ⟨refused, again⟩ | ⟨absent, k, r, inside, free, used, name, records⟩ := lookup_cases (w := w) waits
      · rw [again.unchanged]
        refine iff_of_true one ?_
        rintro ⟨hostname', waits', -, absent, room⟩
        rw [only hostname' waits'] at absent
        exact refused.elim absent fun full => full room
      · rw [records, oneWaiter_fill_iff one free used name, not_iff_not]
        constructor
        · intro pending
          exact ⟨hostname, waits, pending, absent, k, inside, free⟩
        · rintro ⟨hostname', waits', pending, -⟩
          rw [← only hostname' waits']
          exact pending
  · -- any other step makes no record
    have moves := step_moves ha
    have entered : OneWaiter (entered w inp).dns := by
      cases inp <;> exact one
    refine iff_of_true (entered.moves lookup moves) ?_
    rintro ⟨hostname, waits, -⟩
    cases inp with
    | ipc m x env => exact lookup ⟨m, x, env, rfl, waits.1⟩
    | _ => cases waits

/-- In a run without requests that double a name, no two records in use have one name, and the next
request for a name that is pending is answered at once. -/
theorem one_waiter (run : Reach (fun w inp => ¬ Doubles w inp) w) :
    OneWaiter w.dnsPending ∧ ∀ m x env hostname, ¬ Doubles w (.ipc m x env) →
      Waits hostname (.ipc m x env) → NamePending w.dnsPending hostname → AnsweredEagain w m x env := by
  constructor
  -- the invariant, by induction on the run
  · induction run with
    | init =>
      intro k l _ inUse
      cases inUse
    | step _ ha quiet ih => exact (step_oneWaiter_iff ih ha).mpr quiet
  -- a second lookup of the name finds the first one pending
  · intro m x env hostname quiet waits pending
    obtain ⟨-, again⟩ | ⟨absent, k, r, inside, free, -⟩ := lookup_cases (w := w) waits
    · exact again
    · exact absurd ⟨hostname, waits, pending, absent, k, inside, free⟩ quiet

/-- The second request for a name is refused. -/
theorem one_waiter_lookedUp :
    OneWaiter lookedUp.dnsPending ∧
      AnsweredEagain lookedUp 2 lookupMsg [{ ok := false, err := .inprogress }] := by
  have opened : Reach (fun w inp => ¬ Doubles w inp) oneClient :=
    oneClient_reach (fun _ _ ⟨_, waits, _⟩ => waits.elim) fun _ _ _ _ cmd ⟨_, waits, _⟩ => by
      rw [waits.1] at cmd
      cases cmd
  have nothing : ∀ hostname, ¬ NamePending oneClient.dnsPending hostname := by
    rintro hostname ⟨k, inUse, -⟩
    cases inUse
  have run : Reach (fun w inp => ¬ Doubles w inp) lookedUp :=
    opened.request 1 lookupMsg _ 1 (by decide) (by decide) rfl ⟨0, rfl⟩
      fun ⟨hostname, _, pending, _⟩ => nothing hostname pending
  have waits : Waits ['a'] (.ipc 2 lookupMsg [{ ok := false, err := .inprogress }]) :=
    ⟨rfl, by decide, rfl, by decide, rfl, rfl⟩
  have listed : Listed lookedUp ['a'] := ⟨0, by decide, by decide, by decide⟩
  obtain ⟨one, again⟩ := one_waiter run
  refine ⟨one, again 2 lookupMsg _ ['a'] ?_ waits ⟨0, by decide, by decide⟩⟩
  rintro ⟨hostname, waits', -, absent, -⟩
  rw [Ptr.str.inj (waits'.2.2.1.symm.trans waits.2.2.1)] at absent
  exact absent listed

/-- The name in capitals gets a record of its own. -/
theorem not_forall_oneWaiter : ¬ ∀ w, Reachable w → OneWaiter w.dnsPending := by
  intro h
  let x : TnIpcMsg := { lookupMsg with ptrs := fun _ => .str ['A'] }
  let env : List Answer := [{ ok := false, err := .inprogress }]
  have opened : Reachable oneClient :=
    oneClient_reach (fun _ _ => trivial) fun _ _ _ _ _ => trivial
  have run : Reachable lookedUp :=
    opened.request 1 lookupMsg _ 1 (by decide) (by decide) rfl ⟨0, rfl⟩ trivial
  have held : ∀ pl, heldMsg lookedUp pl ≠ some 2 := by
    intro pl holds
    have has : (desk [] lookedUp).books.Has 2 := Or.inr ⟨pl, (desk_held [] lookedUp pl).trans holds⟩
    exact run.sound.once.unanswered 2 has (by decide)
  have admissible : Admissible lookedUp (.ipc 2 x env) := by
    refine ⟨by decide, held, fun b hb => Or.inl ⟨0, ?_⟩⟩
    cases hb
    decide
  have one := h _ run
  have after := h _ (.step run admissible trivial)
  refine (step_oneWaiter_iff one admissible).mp after ⟨['A'], ?_, ⟨0, by decide, by decide⟩, ?_, 1, ?_, ?_⟩
  · exact ⟨rfl, by decide, rfl, by decide, rfl, rfl⟩
  · rintro ⟨k, inside, inUse, same⟩
    revert k
    decide
  · decide
  · decide

end Tolunnet
