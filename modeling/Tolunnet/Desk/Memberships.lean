import Tolunnet.Desk.Sound

/-!
# `Tolunnet.Desk.Memberships`: the join records and lwIP's use counts

The daemon keeps a record of every group a slot has joined, and lwIP counts for every interface
and group how often it was joined. Each join and each leave goes into both, so the part of the count
that comes from the daemon should be the number of records.

`IP_DROP_MEMBERSHIP` calls `igmp_leavegroup` before it looks for the record of the slot, and it
reports success when there is none. A slot without a record takes away the use of another slot, or
that of another part of the daemon. `Tidy` excludes just these requests, and in every run without
them the two accounts agree.
-/

set_option autoImplicit false

namespace Tolunnet

open World

variable {w : World} {m : MsgId} {x : TnIpcMsg} {env : List Answer} {i : SlotIdx} {grp ifa : Nat}

/-! ## The two accounts -/

/-- The record is about this interface and this group. -/
abbrev McastJoin.On (ifa grp : Nat) (r : McastJoin) : Prop :=
  r.inUse = true ∧ r.ifa = ifa ∧ r.grp = grp

/-- The number of records in use for an interface and a group. -/
def joined (w : World) (ifa grp : Nat) : Nat := tally (McastJoin.On ifa grp) w.mcastJoins

/-- The slot has a record of this membership. -/
def HasRecord (w : World) (i : SlotIdx) (grp ifa : Nat) : Prop :=
  ∃ k, (w.mcastJoins k).inUse = true ∧ (w.mcastJoins k).slot = i ∧ (w.mcastJoins k).grp = grp ∧
    (w.mcastJoins k).ifa = ifa

/-- In the accounts the uses are as many as the records. -/
def Desk.Balanced (d : Desk) : Prop :=
  ∀ ifa grp, d.use (ifa, grp) = tally (McastJoin.On ifa grp) d.joins

namespace Desk.Balanced

variable {d : Desk}

/-- A use and a record come together. -/
theorem join (hb : d.Balanced) {k : Fin 8} {r : McastJoin} (hf : (d.joins k).inUse = false)
    (hu : r.inUse = true) : ((d.setJoin k r).addUse r.ifa r.grp 1).Balanced := by
  intro ifa grp
  show Function.update d.use (r.ifa, r.grp) _ (ifa, grp)
    = tally (McastJoin.On ifa grp) (Function.update d.joins k r)
  have free : ¬ (d.joins k).On ifa grp := by simp [McastJoin.On, hf]
  by_cases hp : (ifa, grp) = (r.ifa, r.grp)
  · obtain ⟨rfl, rfl⟩ := Prod.mk.inj hp
    rw [Function.update_self, tally_fill free ⟨hu, rfl, rfl⟩]
    show d.use _ + 1 = _
    rw [hb r.ifa r.grp]
    rfl
  · rw [Function.update_of_ne hp, tally_same]
    · exact hb ifa grp
    · refine iff_of_false (fun hr => hp ?_) free
      rw [← hr.2.1, ← hr.2.2]

/-- A record that ends, with the use it stands for. -/
theorem leave (hb : d.Balanced) {k : Fin 8} (hu : (d.joins k).inUse = true) :
    ((d.setJoin k { d.joins k with inUse := false }).addUse (d.joins k).ifa (d.joins k).grp
      (-1)).Balanced := by
  intro ifa grp
  show Function.update d.use ((d.joins k).ifa, (d.joins k).grp) _ (ifa, grp)
    = tally (McastJoin.On ifa grp)
      (Function.update d.joins k { d.joins k with inUse := false })
  by_cases hp : (ifa, grp) = ((d.joins k).ifa, (d.joins k).grp)
  · obtain ⟨rfl, rfl⟩ := Prod.mk.inj hp
    have pos : 0 < tally (McastJoin.On (d.joins k).ifa (d.joins k).grp) d.joins :=
      tally_pos (k := k) ⟨hu, rfl, rfl⟩
    rw [Function.update_self, tally_clear ⟨hu, rfl, rfl⟩ (by simp [McastJoin.On])]
    show d.use _ + -1 = _
    rw [hb (d.joins k).ifa (d.joins k).grp]
    omega
  · rw [Function.update_of_ne hp, tally_same]
    · exact hb ifa grp
    · refine iff_of_false (by simp [McastJoin.On]) (fun hr => hp ?_)
      rw [← hr.2.1, ← hr.2.2]

/-- A recorded membership has a use, so lwIP does not refuse to end it. -/
theorem use_pos (hb : d.Balanced) {k : Fin 8} (hu : (d.joins k).inUse = true) :
    0 < d.use ((d.joins k).ifa, (d.joins k).grp) := by
  have pos : 0 < tally (McastJoin.On (d.joins k).ifa (d.joins k).grp) d.joins :=
    tally_pos (k := k) ⟨hu, rfl, rfl⟩
  rw [hb]
  exact_mod_cast pos

/-- Every move but a stray one keeps the balance. -/
theorem moves {P : Mark → Prop} {d' : Desk} (hb : d.Balanced) (hP : ¬ P .stray)
    (hm : Moves P d d') : d'.Balanced := by
  induction hm with
  | refl => exact hb
  | tail _ hm ih =>
    cases hm with
    | join k r hf hu => exact ih.join hf hu
    | leave k hu => exact ih.leave hu
    | stuck k hu hn => exact absurd (ih.use_pos hu) (by omega)
    | stray ifa grp hl => exact absurd hl hP
    | _ => exact ih

end Desk.Balanced

/-! ## Requests to leave a group -/

/-- The message is an `IP_DROP_MEMBERSHIP` of this slot for this group and interface, and it
passes the checks before the option is applied. -/
def DropsMembership (w : World) (x : TnIpcMsg) (i : SlotIdx) (grp ifa : Nat) : Prop :=
  x.cmd = .setsockopt ∧ tnSlotLookup w x.socketBase (x.args 0) = some i ∧
    ∃ f, (x.ptrs 0).mem? = some f ∧
      sockOpt (w.sockets i).type (x.args 1) (x.args 2) = .ok .dropMembership ∧ 8 ≤ x.args 3 ∧
      grp = be32 f 0 ∧ ifa = be32 f 4

/-- A slot drops only a membership of its own; for any other group no slot has a record and lwIP
refuses to leave it. -/
def Tidy (w : World) : Input → Prop
  | .ipc _ x env => ∀ i grp ifa, DropsMembership w x i grp ifa →
      HasRecord w i grp ifa ∨
        (∀ j, ¬ HasRecord w j grp ifa) ∧ (env.headD {}).err ≠ .ok
  | _ => True

theorem mcastOf?_eq_none : mcastOf? w i grp ifa = none ↔ ¬ HasRecord w i grp ifa := by
  unfold mcastOf? HasRecord
  rw [List.find?_eq_none]
  simp [and_assoc]

/-- Without a record of any slot the daemon has no use of the group. -/
theorem joined_eq_zero (hn : ∀ j, ¬ HasRecord w j grp ifa) : joined w ifa grp = 0 :=
  tally_eq_zero fun k hk => hn (w.mcastJoins k).slot ⟨k, hk.1, rfl, hk.2.2, hk.2.1⟩

theorem joined_pos {j : SlotIdx} (hj : HasRecord w j grp ifa) : 0 < joined w ifa grp := by
  obtain ⟨k, hu, -, hg, hi⟩ := hj
  exact tally_pos (k := k) ⟨hu, hi, hg⟩

/-- A tidy step takes no use away without its record. -/
theorem Tidy.not_stray {inp : Input} (ht : Tidy w inp)
    (hb : ∀ ifa grp, w.igmpUse (ifa, grp) = joined w ifa grp) : ¬ Allowed w inp .stray := by
  rintro ⟨m, x, env, i, rfl, hc, hl, f, hf, ho, hlen, hnone, hleft⟩
  have msg : (({ receive w m x with env := env } : World).msgs m) = x := by simp [receive]
  rw [msg] at hf ho hlen
  have record : ¬ HasRecord w i (be32 f 0) (be32 f 4) := mcastOf?_eq_none.mp hnone
  obtain own | ⟨hn, herr⟩ := ht i (be32 f 0) (be32 f 4) ⟨hc, hl, f, hf, ho, hlen, rfl, rfl⟩
  · exact record own
  · obtain huse | hok := hleft
    · have zero : w.igmpUse (be32 f 4, be32 f 0) = 0 := by rw [hb, joined_eq_zero hn]; rfl
      have pos : 0 < w.igmpUse (be32 f 4, be32 f 0) := huse
      omega
    · exact herr hok

/-! ## Runs -/

/-- In every tidy run the accounts agree. -/
theorem Reach.balanced (hr : Reach Tidy w) :
    ∀ ifa grp, w.igmpUse (ifa, grp) = joined w ifa grp := by
  induction hr with
  | init =>
    intro ifa grp
    have none : joined tnSlotTableInit ifa grp = 0 :=
      joined_eq_zero fun j hj => by
        obtain ⟨k, hu, -⟩ := hj
        cases hu
    rw [none]
    rfl
  | @step w inp _ ha ht ih =>
    have before : (entered w inp).Balanced := by
      cases inp <;> exact ih
    exact before.moves (ht.not_stray ih) (step_moves ha)

/-! ## A drop without a record -/

/-- The option as the handler applies it: without a record it is lwIP alone that decides. -/
theorem dropMembership_eq (hn : ¬ HasRecord w i grp ifa) :
    dropMembership w i grp ifa =
      if 0 < w.igmpUse (ifa, grp) ∨ w.ask.err = .ok then
        (.ok (w.asked.addUse ifa grp (-1)), w.asked.addUse ifa grp (-1))
      else (.error (igmpErrno w.ask.err), w.asked) := by
  have find : mcastOf? (w.asked.addUse ifa grp (-1)) i grp ifa = none := mcastOf?_eq_none.mpr hn
  unfold dropMembership igmpLeavegroup
  by_cases hleft : 0 < w.igmpUse (ifa, grp) ∨ w.ask.err = .ok
  · rw [if_pos hleft, if_pos hleft]
    dsimp only
    rw [find]
  · rw [if_neg hleft, if_neg hleft]
    split
    · rename_i heq
      exact absurd (Or.inr (Prod.mk.inj heq).2) hleft
    · rename_i heq
      obtain ⟨rfl, rfl⟩ := Prod.mk.inj heq
      rfl

/-- The handler on such a request. -/
theorem tnIpcCmdSetsockopt_drop {f : Mem} (hf : ((w.msgs m).ptrs 0).mem? = some f)
    (ho : sockOpt (w.sockets i).type ((w.msgs m).args 1) ((w.msgs m).args 2) = .ok .dropMembership)
    (hlen : 8 ≤ (w.msgs m).args 3) (hn : ¬ HasRecord w i (be32 f 0) (be32 f 4)) :
    tnIpcCmdSetsockopt w m (some i) =
      if 0 < w.igmpUse (be32 f 4, be32 f 0) ∨ w.ask.err = .ok then
        done (w.asked.addUse (be32 f 4) (be32 f 0) (-1)) m 0 .ok
      else fail w.asked m (igmpErrno w.ask.err) := by
  unfold tnIpcCmdSetsockopt
  dsimp only
  rw [hf]
  dsimp only
  rw [ho]
  dsimp only
  have long : ¬ ((w.msgs m).args 3 < (minOptlen .dropMembership : Int)) := by
    show ¬ (w.msgs m).args 3 < 8
    omega
  rw [if_neg (fun h => nomatch h.1), if_neg (fun h => long h.2.2)]
  have applied : applySockopt w i .dropMembership f ((w.msgs m).args 3)
      = dropMembership w i (be32 f 0) (be32 f 4) := rfl
  rw [applied, dropMembership_eq hn]
  split_ifs <;> rfl

/-- The step on such a request: when lwIP knows the group the client is told that all is well and
a use is gone, else the request is refused. -/
theorem step_drop (hd : DropsMembership w x i grp ifa) (hn : ¬ HasRecord w i grp ifa) :
    step w (.ipc m x env) =
      if 0 < w.igmpUse (ifa, grp) ∨ (env.headD {}).err = .ok then
        ((presented w m x env).asked.addUse ifa grp (-1)).answerMsg m 0 .ok
      else (presented w m x env).asked.answerMsg m (-1) (igmpErrno (env.headD {}).err) := by
  obtain ⟨hc, hl, f, hf, ho, hlen, rfl, rfl⟩ := hd
  have dispatch := tnHandleIpc_presented w m x env
  have base : x.socketBase ≠ none := by
    intro hb
    rw [hb] at hl
    cases hl
  rw [if_neg (by rw [hc]; decide), if_neg (fun h => base h.2), if_pos (by rw [hc]; rfl), hl] at dispatch
  dsimp only at dispatch
  have applied : handler (presented w m x env) m (some i)
      = tnIpcCmdSetsockopt (presented w m x env) m (some i) := by
    unfold handler
    rw [presented_msg, hc]
  rw [applied, tnIpcCmdSetsockopt_drop (w := presented w m x env) (f := f)
    (by rw [presented_msg]; exact hf) (by rw [presented_msg]; exact ho)
    (by rw [presented_msg]; exact hlen) hn] at dispatch
  have use : (presented w m x env).igmpUse = w.igmpUse := rfl
  have ask : (presented w m x env).ask = env.headD {} := rfl
  rw [use, ask] at dispatch
  split
  · rename_i hleft
    rw [if_pos hleft] at dispatch
    exact step_ipc_done dispatch
  · rename_i hleft
    rw [if_neg hleft] at dispatch
    exact step_ipc_done dispatch

/-- Neither an answer nor what comes before the handler touches the two accounts. -/
theorem answerMsg_accounts {r : Int} {e : Errno} :
    (w.answerMsg m r e).mcastJoins = w.mcastJoins ∧ (w.answerMsg m r e).igmpUse = w.igmpUse :=
  ⟨rfl, rfl⟩

theorem asked_accounts : w.asked.mcastJoins = w.mcastJoins ∧ w.asked.igmpUse = w.igmpUse :=
  ⟨rfl, rfl⟩

theorem presented_accounts :
    (presented w m x env).mcastJoins = w.mcastJoins ∧
      (presented w m x env).igmpUse = w.igmpUse := ⟨rfl, rfl⟩

theorem igmpErrno_ne_ok (e : ErrT) : igmpErrno e ≠ .ok := by
  unfold igmpErrno
  split <;> decide

/-- Such a request is refused just when it is tidy. -/
theorem step_drop_refused (hb : ∀ ifa grp, w.igmpUse (ifa, grp) = joined w ifa grp)
    (hd : DropsMembership w x i grp ifa) (hn : ¬ HasRecord w i grp ifa) :
    (((step w (.ipc m x env)).msgs m).errNo ≠ .ok ∧
      (step w (.ipc m x env)).mcastJoins = w.mcastJoins ∧
      (step w (.ipc m x env)).igmpUse = w.igmpUse) ↔ Tidy w (.ipc m x env) := by
  rw [step_drop hd hn]
  constructor
  · rintro ⟨herr, -⟩ j grp' ifa' hd'
    split at herr
    · exact absurd answerMsg_reply.2 herr
    · rename_i hleft
      obtain ⟨-, hl, f, hf, -, -, rfl, rfl⟩ := hd
      obtain ⟨-, hl', f', hf', -, -, rfl, rfl⟩ := hd'
      cases hf.symm.trans hf'
      refine Or.inr ⟨fun l hrec => hleft (Or.inl ?_), fun hok => hleft (Or.inr hok)⟩
      rw [hb]
      exact_mod_cast joined_pos hrec
  · intro ht
    obtain own | ⟨hnone, herr⟩ := ht i grp ifa hd
    · exact absurd own hn
    · have refused : ¬ (0 < w.igmpUse (ifa, grp) ∨ (env.headD {}).err = .ok) := by
        rintro (huse | hok)
        · rw [hb, joined_eq_zero hnone] at huse
          exact absurd huse (by decide)
        · exact herr hok
      rw [if_neg refused]
      simp only [answerMsg_accounts, asked_accounts, presented_accounts, answerMsg_reply.2]
      exact ⟨igmpErrno_ne_ok _, trivial, trivial⟩

/-- Membership accounting. In every state of a run in which each slot drops only memberships of
its own, or groups that nobody uses, the uses the daemon has in lwIP are as many as the join
records, for every interface and group; and a drop by a slot without a record fails and leaves both
accounts as they were if and only if it keeps to that rule. -/
theorem igmpUse_eq_joined (hr : Reach Tidy w) :
    (∀ ifa grp, w.igmpUse (ifa, grp) = joined w ifa grp) ∧
    ∀ m x env i grp ifa, DropsMembership w x i grp ifa → ¬ HasRecord w i grp ifa →
      ((((step w (.ipc m x env)).msgs m).errNo ≠ .ok ∧
        (step w (.ipc m x env)).mcastJoins = w.mcastJoins ∧
        (step w (.ipc m x env)).igmpUse = w.igmpUse) ↔ Tidy w (.ipc m x env)) :=
  ⟨hr.balanced, fun _ _ _ _ _ _ hd hn => step_drop_refused hr.balanced hd hn⟩

/-- The client sets an `IPPROTO_IP` option of a descriptor, with a group and an interface of zero
bytes. -/
def ipOptMsg (fd optname : Int) : TnIpcMsg :=
  { cmd := .setsockopt, socketBase := some 1,
    args := fun n => if n = 0 then fd else if n = 2 then optname else if n = 3 then 8 else 0,
    ptrs := fun _ => .mem fun _ => 0 }

/-- A client with two sockets has joined a group with the first. -/
def joinedOnce : World :=
  [.ipc 1 dgramMsg [{ id := 1 }], .ipc 1 dgramMsg [{ id := 2 }],
    .ipc 1 (ipOptMsg 0 12) []].foldl step oneClient

theorem joinedOnce_reach {ok : World → Input → Prop} (hok : ∀ w c, ok w (.client c))
    (ho : ∀ w m x env, x.cmd = .open → ok w (.ipc m x env))
    (hs : ∀ w m x env, x.cmd = .socket → ok w (.ipc m x env))
    (hj : ∀ w m env, ok w (.ipc m (ipOptMsg 0 12) env)) : Reach ok joinedOnce :=
  (((oneClient_reach hok ho).request 1 dgramMsg [{ id := 1 }] 1 (by decide) (by decide) rfl
    ⟨0, rfl⟩ (hs _ _ _ _ rfl)).request 1 dgramMsg [{ id := 2 }] 1 (by decide) (by decide) rfl
    ⟨0, by decide⟩ (hs _ _ _ _ rfl)).request 1 (ipOptMsg 0 12) [] 1 (by decide) (by decide) rfl
    ⟨0, by decide⟩ (hj _ _ _)

/-- After the join the accounts agree at one. -/
theorem igmpUse_eq_joined_joinedOnce :
    Reach Tidy joinedOnce ∧ joinedOnce.igmpUse (0, 0) = joined joinedOnce 0 0 ∧
      joined joinedOnce 0 0 = 1 := by
  have tidy : Reach Tidy joinedOnce := by
    refine joinedOnce_reach (fun _ _ => trivial) ?_ ?_ ?_
    · rintro w m x env hc i grp ifa ⟨hc', -⟩
      rw [hc] at hc'
      cases hc'
    · rintro w m x env hc i grp ifa ⟨hc', -⟩
      rw [hc] at hc'
      cases hc'
    · rintro w m env i grp ifa ⟨-, -, f, -, ho, -⟩
      exact absurd ho (by simp [sockOpt, ipOptMsg, solSocket, ipprotoTcp, ipprotoIp])
  exact ⟨tidy, (igmpUse_eq_joined tidy).1 0 0, by decide⟩

/-- The second socket drops the membership of the first: it is told that all is well, and lwIP has
no use of the group left beside the record. -/
theorem not_forall_igmpUse_eq_joined :
    ¬ ∀ w, Reachable w → ∀ ifa grp, w.igmpUse (ifa, grp) = joined w ifa grp := by
  intro hall
  have run : Reachable (step joinedOnce (.ipc 1 (ipOptMsg 1 13) [])) :=
    (joinedOnce_reach (fun _ _ => trivial) (fun _ _ _ _ _ => trivial) (fun _ _ _ _ _ => trivial)
      fun _ _ _ => trivial).request 1 (ipOptMsg 1 13) [] 1 (by decide) (by decide) rfl ⟨0, by decide⟩
      trivial
  exact absurd (hall _ run 0 0) (by decide)

end Tolunnet
