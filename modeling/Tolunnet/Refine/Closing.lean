import Tolunnet.Refine.Bases
import Tolunnet.Refine.Queries

/-!
# `Tolunnet.Refine.Closing`: the end of bases and requests

`CLOSE` and the reaper, `OPEN` and `STOP` that call the reaper, `CANCEL` and the timeouts as runs of
acts. `CLOSE` answers what it cancels. The reaper throws it away, so every step that may reap must
be allowed to drop messages when a base in the registry belongs to a task that has ended (`Deadly`).
-/

set_option autoImplicit false

namespace Tolunnet

open World

variable {P : Label → Prop} {t : Tok} {w w' : World} {m : MsgId} {i : SlotIdx} {b : BaseId}

/-! ## Cancelled lookups -/

/-- A record in use, as the abstract daemon sees it. -/
theorem dns_inUse (t : Tok) {k : Fin 8} (hu : (w.dnsPending k).inUse = true) :
    (abs t w).dns k = some ((w.dnsPending k).imsg, (w.dnsPending k).base) := by
  show (w.dnsPending k).view = _
  unfold TnDnsPending.view
  rw [if_pos hu]

/-- A lookup of the base is answered, or dropped by the reaper. -/
theorem dnsCancelAt_acts (b : BaseId) (reply : Bool)
    (hl : reply = false → ∀ m, P (.drop m)) (w : World) (k : Fin 8) :
    Acts P (abs t w) (abs t (dnsCancelAt b reply w k)) := by
  unfold dnsCancelAt
  dsimp only
  split
  · rename_i hu
    simp only [Bool.and_eq_true] at hu
    have held := dns_inUse t hu.1
    split
    · rename_i hm
      rw [hm] at held
      exact Acts.one (.msg (.forgetDns _ k _ held)) (abs_clearDns ..)
    · rename_i m hm
      rw [hm] at held
      split
      · refine Acts.one (.msg (.answerDns _ k m _ 0 .econnaborted held)) ?_
        exact (abs_answerMsg t (clearDns w k) m 0 .econnaborted).trans (by rw [abs_clearDns]; rfl)
      · rename_i hr
        refine Acts.one (.msg (.dropDns _ k m _ held (hl (by simpa using hr) m))) ?_
        rw [abs_setReply, abs_clearDns]
  · exact .refl

/-- All its lookups are. -/
theorem tnDnsCancelForBase2_acts (b : BaseId) (reply : Bool)
    (hl : reply = false → ∀ m, P (.drop m)) :
    Acts P (abs t w) (abs t (tnDnsCancelForBase2 w b reply)) :=
  acts_foldl _ _ (fun w k _ => dnsCancelAt_acts b reply hl w k) _

/-! ## Cancelled receives and sends -/

/-- The receive request of a slot is thrown away. -/
theorem dropPending_acts {k : Pend} (hk : k ≠ .send) (hl : ∀ m, P (.drop m)) :
    Acts P (abs t w) (abs t (w.setPending i k none)) := by
  cases hm : (w.sockets i).pending k with
  | some m => exact Acts.one (.msg (.drop _ i k m hk hm (hl m))) (abs_setPending ..)
  | none =>
    refine Acts.none (abs_modSlot_same _ _ _ _ ?_)
    show (w.sockets i).view.setPend k none = (w.sockets i).view
    unfold SlotView.setPend
    rw [Function.update_eq_self_iff.mpr hm.symm]

/-- A read and a send of the base are answered, or dropped. -/
theorem recvCancelAt_acts (ht : Lax t) (b : BaseId) (reply : Bool)
    (hl : reply = false → ∀ m, P (.drop m)) (w : World) (i : SlotIdx) :
    Acts P (abs t w) (abs t (recvCancelAt b reply w i)) := by
  -- the send field is worked on after the receive field
  have sends : ∀ w1, Acts P (abs t w) (abs t w1) → Acts P (abs t w) (abs t
      (if (w1.sockets i).inUse && pendingOf w1 i .send b then
        tnSlotReplySend w1 i .econnaborted reply else w1)) := by
    intro w1 recv
    split
    · cases reply with
      | true =>
        have sent := tnSlotReplySend_interrupt (P := P) (t := t) (w := w1) i (e := .econnaborted) rfl
        rw [ht.owe] at sent
        exact recv.trans sent
      | false =>
        have sent := tnSlotReplySend_drop (P := P) (t := t) (w := w1) i .econnaborted
          fun m _ => hl rfl m
        rw [ht.owe] at sent
        exact recv.trans sent
    · exact recv
  unfold recvCancelAt
  dsimp only
  refine sends _ ?_
  split
  · split
    · exact replyPending_acts i (by decide) _ _
    · rename_i hr
      split
      · refine (dropPending_acts (i := i) (k := .recv) (by decide) (hl (by simpa using hr))).trans
          (Acts.none ?_)
        rw [abs_setReply, abs_modSlot_same _ _ _ _ rfl]
      · exact .refl
  · exact .refl

/-- All of them are. -/
theorem tnRecvCancelForBase2_acts (ht : Lax t) (b : BaseId) (reply : Bool)
    (hl : reply = false → ∀ m, P (.drop m)) :
    Acts P (abs t w) (abs t (tnRecvCancelForBase2 w b reply)) :=
  acts_foldl _ _ (fun w i _ => recvCancelAt_acts ht b reply hl w i) _

/-! ## What cancelling leaves alone -/

/-- Registry and descriptors may only lose entries, and nothing comes into use. -/
structure Fewer (w w' : World) : Prop where
  openBases : ∀ k b, w'.openBases k = some b → w.openBases k = some b
  fds : ∀ b n, (w.bases b).fdMap n = none → (w'.bases b).fdMap n = none
  slots : ∀ i, (w.sockets i).inUse = false → (w'.sockets i).inUse = false
  dtab : ∀ b, (w'.bases b).dtablesize = (w.bases b).dtablesize
  owner : ∀ b, (w'.bases b).ownerTask = (w.bases b).ownerTask
  alive : w'.taskAlive = w.taskAlive
  msgs : ∀ m, (w'.msgs m).socketBase = (w.msgs m).socketBase

namespace Fewer

theorem refl (w : World) : Fewer w w :=
  ⟨fun _ _ h => h, fun _ _ h => h, fun _ h => h, fun _ => rfl, fun _ => rfl, rfl, fun _ => rfl⟩

/-- Two steps that cancel. -/
theorem trans {w'' : World} (h : Fewer w w') (h' : Fewer w' w'') : Fewer w w'' where
  openBases := fun k b hb => h.openBases k b (h'.openBases k b hb)
  fds := fun b n hn => h'.fds b n (h.fds b n hn)
  slots := fun i hi => h'.slots i (h.slots i hi)
  dtab := fun b => (h'.dtab b).trans (h.dtab b)
  owner := fun b => (h'.owner b).trans (h.owner b)
  alive := h'.alive.trans h.alive
  msgs := fun m => (h'.msgs m).trans (h.msgs m)

/-- The slots that changed were in use, or stayed as they were. -/
theorem of_only {S : Set SlotIdx} (h : Only S w w')
    (hs : ∀ i ∈ S, (w.sockets i).inUse = true ∨ (w'.sockets i).inUse = (w.sockets i).inUse) :
    Fewer w w' where
  openBases := fun k b hb => by rw [← h.rest.openBases]; exact hb
  fds := fun b n hn => by rw [h.fds]; exact hn
  slots := fun i hi => by
    by_cases hS : i ∈ S
    · rcases hs i hS with hu | hu
      · rw [hi] at hu
        cases hu
      · rw [hu, hi]
    · rw [h.slots i hS, hi]
  dtab := fun b => (h.rest.dtab b).1
  owner := fun b => (h.rest.dtab b).2
  alive := h.rest.taskAlive
  msgs := fun m => (h.rest.msgs m).2.1

/-- A gentle change parks nothing. -/
theorem of_meek (h : Meek i w w') : Fewer w w' :=
  of_only h.only fun _ hj => Or.inr (by rw [Set.mem_singleton_iff.mp hj]; exact h.slot.inUse)

/-- A loop cancels when each turn does. -/
theorem foldl {α : Type} (f : World → α → World) (l : List α) (h : ∀ w, ∀ x ∈ l, Fewer w (f w x))
    (w : World) : Fewer w (l.foldl f w) :=
  l.foldlRecOn (motive := Fewer w) f (refl w) fun _ done x hx => done.trans (h _ x hx)

/-- A descriptor is closed. -/
theorem setFd (b : BaseId) (n : Nat) : Fewer w (w.setFd b n none) :=
  { refl w with
    fds := fun c k hk => by
      by_cases hc : c = b
      · subst hc
        by_cases hkn : k = n
        · simp [World.setFd, World.modBase, hkn]
        · simp [World.setFd, World.modBase, hkn, hk]
      · simp [World.setFd, World.modBase, hc, hk]
    dtab := fun c => ((Beside.setFd (j := firstSlot) b n none).rest.dtab c).1
    owner := fun c => ((Beside.setFd (j := firstSlot) b n none).rest.dtab c).2 }

/-- The socket behind it goes with it. -/
theorem closeFd (b : BaseId) (n : Nat) : Fewer w (closeFd b w n) := by
  unfold Tolunnet.closeFd
  split
  · exact refl w
  · rename_i i he
    split
    · rename_i hu
      refine (setFd b n).trans (of_only (.tnSlotUnref (Set.mem_singleton i)) fun j hj => ?_)
      rw [Set.mem_singleton_iff.mp hj]
      exact Or.inl hu
    · exact refl w

/-- A lookup is cancelled. -/
theorem dnsCancelAt (b : BaseId) (reply : Bool) (k : Fin 8) : Fewer w (dnsCancelAt b reply w k) := by
  have cleared : Fewer w (clearDns w k) := { refl w with }
  have quiet : ∀ w' : World, Only ∅ (clearDns w k) w' → Fewer w w' := fun w' h =>
    cleared.trans (of_only h fun _ hj => absurd hj (Set.notMem_empty _))
  unfold Tolunnet.dnsCancelAt
  dsimp only
  split
  · split
    · exact cleared
    · split
      · exact quiet _ ((Only.setReply _ _ _).trans (Only.replyMsg _))
      · exact quiet _ (Only.setReply _ _ _)
  · exact refl w

/-- A read and a send are cancelled. -/
theorem recvCancelAt (b : BaseId) (reply : Bool) : Fewer w (recvCancelAt b reply w i) := by
  have sends : ∀ w1, Fewer w w1 → Fewer w
      (if (w1.sockets i).inUse && pendingOf w1 i .send b then
        tnSlotReplySend w1 i .econnaborted reply else w1) := by
    intro w1 recv
    split
    · exact recv.trans (of_meek (.tnSlotReplySend _ _))
    · exact recv
  unfold Tolunnet.recvCancelAt
  dsimp only
  refine sends _ ?_
  split
  · split
    · exact of_meek (.replyPending _ _ _)
    · split
      · exact of_meek (((Meek.unpark .recv).trans
          (.assign _ fun _ => by exact ⟨rfl, rfl, rfl, rfl, rfl, rfl⟩)).trans
          (.of_only (Only.setReply _ _ _)))
      · exact refl w
  · exact refl w

/-- The base is no longer registered. -/
theorem unregisterBase (b : Option BaseId) : Fewer w (unregisterBase w b) := by
  unfold Tolunnet.unregisterBase
  split
  · rename_i k _
    refine { refl w with openBases := fun k' c hc => ?_ }
    by_cases hk : k' = k
    · subst hk
      simp at hc
    · simpa [hk] using hc
  · exact refl w

/-- Its selectors are free. -/
theorem tnSelectorDisarmAllForBase (b : BaseId) : Fewer w (tnSelectorDisarmAllForBase w b) := by
  refine foldl _ _ (fun w k _ => ?_) w
  unfold disarmSelectorForBase
  split
  · exact { refl w with }
  · exact refl w

/-- Its slots have no owner. -/
theorem tnSlotClearOwnerBase (b : BaseId) : Fewer w (tnSlotClearOwnerBase w b) := by
  refine foldl _ _ (fun w i _ => ?_) w
  unfold clearOwnerAt
  split
  · exact of_meek (i := i) (.assign _ fun _ => by exact ⟨rfl, rfl, rfl, rfl, rfl, rfl⟩)
  · exact refl w

end Fewer

/-! ## `CLOSE` -/

/-- The owner of a slot in use is not kept. -/
theorem abs_tnSlotClearOwnerBase (t : Tok) (w : World) (b : BaseId) :
    abs t (tnSlotClearOwnerBase w b) = abs t w := by
  refine abs_foldl t _ _ w fun w i => ?_
  unfold clearOwnerAt
  split
  · rename_i h
    simp only [Bool.and_eq_true] at h
    exact abs_modSlot_same _ _ _ _ (by simp [TnSocketSlot.view, h.1])
  · rfl

/-- The loop over the descriptors of a base. -/
theorem closeFds_acts (hc : ∀ i, P (.clear i)) (hn : t.sending = none) (hd : t.dying = [])
    (b : BaseId) (l : List Nat) (w : World) :
    Acts P (abs t w) (abs t (l.foldl (closeFd b) w)) :=
  acts_foldl _ _ (fun _ n _ => closeFd_acts hc hn hd b n) w

/-- Every descriptor that the loop has reached is empty or names a free slot, and later turns do not
change that. -/
theorem closeFds_stale (b : BaseId) (l : List Nat) (w : World) {n : Nat}
    (hn : n ∈ l ∨ ∀ j, (w.bases b).fdMap n = some j → (w.sockets j).inUse = false) {j : SlotIdx}
    (hj : ((l.foldl (closeFd b) w).bases b).fdMap n = some j) :
    ((l.foldl (closeFd b) w).sockets j).inUse = false := by
  induction l generalizing w with
  | nil => exact hn.resolve_left (List.not_mem_nil) j hj
  | cons x l ih =>
    refine ih (closeFd b w x) ?_ hj
    have emptied := closeFd_emptied (w := w) b x
    by_cases hx : n = x
    · subst hx
      exact Or.inr emptied.stale
    · rcases hn with hn | hn
      · exact Or.inl ((List.mem_cons.mp hn).resolve_left hx)
      · refine Or.inr fun j hj => (Fewer.closeFd b x).slots j (hn j ?_)
        rw [emptied.fds b n (by simpa using hx)] at hj
        exact hj

/-- The base leaves the registry and its descriptors are closed. -/
theorem closeTable_acts (ha : P .alter) (hc : ∀ i, P (.clear i)) (hn : t.sending = none)
    (hd : t.dying = []) (hcl : t.closing = none) (b : BaseId) :
    Acts P (abs t w) (abs t ((List.range ((unregisterBase w (some b)).bases b).dtablesize).foldl
      (closeFd b) (unregisterBase w (some b)))) := by
  cases hk : baseIdx? w (some b) with
  | none =>
    rw [show unregisterBase w (some b) = w by unfold unregisterBase; rw [hk]]
    exact closeFds_acts hc hn hd b _ w
  | some k =>
    generalize hw1 : unregisterBase w (some b) = w1
    have gone : Acts P (abs t w) (abs { t with closing := some b } w1) := by
      refine Acts.one (.ref (.unregister (abs t w) k b (baseIdx?_some hk) hcl ha)) ?_
      rw [← hw1]
      unfold unregisterBase
      rw [hk]
      rfl
    refine gone.trans ((closeFds_acts (t := { t with closing := some b }) hc hn hd b
      (List.range (w1.bases b).dtablesize) w1).trans ?_)
    have same : (w1.bases b).dtablesize
        = (((List.range (w1.bases b).dtablesize).foldl (closeFd b) w1).bases b).dtablesize :=
      ((Fewer.foldl _ _ (fun _ n _ => Fewer.closeFd b n) w1).dtab b).symm
    refine Acts.one (.ref (.closed _ b rfl fun n j hlt hj => ?_)) ?_
    · refine closeFds_stale b _ w1 (Or.inl (List.mem_range.mpr ?_)) hj
      rw [same]
      exact hlt
    · show _ = abs { t with closing := none } _
      rw [← hcl]

/-- A base is closed: what waits is answered, then its descriptors go. -/
theorem closeBase_acts (ha : P .alter) (hc : ∀ i, P (.clear i)) (hn : t.sending = none)
    (ht : Lax t) (hcl : t.closing = none) (b : BaseId) :
    Acts P (abs t w) (abs t (closeBase w b)) := by
  unfold closeBase
  dsimp only
  have dns := tnDnsCancelForBase2_acts (P := P) (t := t) (w := w) b true (by simp)
  generalize tnDnsCancelForBase2 w b true = w1 at dns
  have requests := tnRecvCancelForBase2_acts (P := P) (t := t) (w := w1) ht b true (by simp)
  generalize tnRecvCancelForBase2 w1 b true = w2 at requests
  refine dns.trans (requests.trans ((closeTable_acts ha hc hn ht.dying hcl b).trans ?_))
  exact (tnSelectorDisarmAllForBase_acts b).trans (Acts.none (abs_tnSlotClearOwnerBase ..))

/-- A base that is closed parks nothing. -/
theorem Fewer.closeBase (b : BaseId) : Fewer w (closeBase w b) := by
  unfold Tolunnet.closeBase
  dsimp only
  have requests : Fewer w (tnRecvCancelForBase2 (tnDnsCancelForBase2 w b true) b true) :=
    (foldl _ _ (fun _ k _ => dnsCancelAt b true k) w).trans
      (foldl _ _ (fun _ _ _ => recvCancelAt b true) _)
  refine requests.trans ((unregisterBase (some b)).trans ?_)
  exact (foldl _ _ (fun _ n _ => closeFd b n) _).trans
    ((tnSelectorDisarmAllForBase b).trans (tnSlotClearOwnerBase b))

/-- A base that is `NULL` is looked for among the free entries, and the one found stays free. -/
theorem abs_unregisterNone (t : Tok) (w : World) : abs t (unregisterBase w none) = abs t w := by
  unfold unregisterBase
  split
  · rename_i k hk
    have free : Function.update w.openBases k none = w.openBases := by
      rw [← baseIdx?_some hk, Function.update_eq_self]
    show abs t { w with openBases := Function.update w.openBases k none } = _
    rw [free]
  · rfl

/-- `CLOSE` sends nothing. -/
theorem tnIpcCmdClose_carried (hP : Permits P w) (hn : t.sending = none) (ht : Lax t)
    (hcl : t.closing = none) : Carried P t w m (tnIpcCmdClose w m) := by
  unfold tnIpcCmdClose
  split
  · exact .done (closeBase_acts (t := t.pickUp m) hP.alter hP.clear hn (ht.pickUp m) hcl _) _ _
  · exact .done (.none (abs_unregisterNone ..)) _ _

/-! ## The reaper -/

/-- A base in the registry belongs to a task that has ended. -/
def Deadly (w : World) : Prop :=
  ∃ k b, w.openBases k = some b ∧ w.taskAlive (w.bases b).ownerTask = false

/-- The reaper drops what a dead client has parked. -/
theorem dropPendingAt_acts (hl : ∀ m, P (.drop m)) (b : BaseId) (w : World) (i : SlotIdx) :
    Acts P (abs t w) (abs t (dropPendingAt b w i)) := by
  unfold dropPendingAt
  split
  · exact ((dropPending_acts (by decide) hl).trans (dropPending_acts (by decide) hl)).trans
      (dropPending_acts (by decide) hl)
  · exact .refl

/-- A base is reaped: what waits is dropped, then its descriptors go. -/
theorem reapBase_acts (ha : P .alter) (hc : ∀ i, P (.clear i)) (hl : ∀ m, P (.drop m))
    (hn : t.sending = none) (ht : Lax t) (hcl : t.closing = none) (b : BaseId) :
    Acts P (abs t w) (abs t (reapBase w b)) := by
  unfold reapBase
  dsimp only
  have dns := tnDnsCancelForBase2_acts (P := P) (t := t) (w := w) b false fun _ => hl
  generalize tnDnsCancelForBase2 w b false = w1 at dns
  have requests := tnRecvCancelForBase2_acts (P := P) (t := t) (w := w1) ht b false fun _ => hl
  generalize tnRecvCancelForBase2 w1 b false = w2 at requests
  have fields := acts_foldl (P := P) (t := t) (dropPendingAt b) (List.finRange 64)
    (fun w i _ => dropPendingAt_acts hl b w i) w2
  generalize (List.finRange 64).foldl (dropPendingAt b) w2 = w3 at fields
  have closed := closeBase_acts (P := P) (t := t) (w := w3) ha hc hn ht hcl b
  generalize closeBase w3 b = w4 at closed
  exact dns.trans (requests.trans (fields.trans (closed.trans .refl)))

/-- A base that is reaped parks nothing. -/
theorem Fewer.reapBase (b : BaseId) : Fewer w (reapBase w b) := by
  unfold Tolunnet.reapBase
  dsimp only
  have requests : Fewer w (tnRecvCancelForBase2 (tnDnsCancelForBase2 w b false) b false) :=
    (foldl _ _ (fun _ k _ => dnsCancelAt b false k) w).trans
      (foldl _ _ (fun _ _ _ => recvCancelAt b false) _)
  generalize tnRecvCancelForBase2 (tnDnsCancelForBase2 w b false) b false = w1 at requests
  have fields : Fewer w1 ((List.finRange 64).foldl (dropPendingAt b) w1) := by
    refine foldl _ _ (fun w i _ => ?_) w1
    unfold dropPendingAt
    split
    · exact of_meek (i := i) (((Meek.unpark .connect).trans (.unpark .accept)).trans (.unpark .recv))
    · exact refl w
  have closed := requests.trans (fields.trans (closeBase b))
  generalize Tolunnet.closeBase ((List.finRange 64).foldl (dropPendingAt b) w1) b = w2 at closed
  exact closed.trans { refl w2 with }

/-- The reaper parks nothing. -/
theorem Fewer.tnReapDeadClients : Fewer w (tnReapDeadClients w) := by
  refine foldl _ _ (fun w k _ => ?_) w
  unfold reapAt
  split
  · exact refl w
  · split
    · exact refl w
    · exact reapBase _

/-- Without a dead client there is nothing to reap. -/
theorem tnReapDeadClients_idle (h : ¬ Deadly w) : tnReapDeadClients w = w := by
  have turn : ∀ k, reapAt w k = w := fun k => by
    unfold reapAt
    split
    · rfl
    · rename_i b hb
      split
      · rfl
      · rename_i hd
        exact absurd ⟨k, b, hb, by simpa using hd⟩ h
  unfold tnReapDeadClients
  induction List.finRange 16 with
  | nil => rfl
  | cons k l ih => rw [List.foldl_cons, turn, ih]

/-- The reaper drops only what a dead client has parked. -/
theorem tnReapDeadClients_acts (ha : P .alter) (hc : ∀ i, P (.clear i))
    (hl : Deadly w → ∀ m, P (.drop m)) (hn : t.sending = none) (ht : Lax t)
    (hcl : t.closing = none) : Acts P (abs t w) (abs t (tnReapDeadClients w)) := by
  by_cases hd : Deadly w
  · refine acts_foldl _ _ (fun w k _ => ?_) w
    unfold reapAt
    split
    · exact .refl
    · split
      · exact .refl
      · exact reapBase_acts ha hc (hl hd) hn ht hcl _
  · rw [tnReapDeadClients_idle hd]

/-! ## `OPEN` and `STOP` -/

/-- The name of the host is no account. -/
@[simp] theorem abs_giveHostname (t : Tok) (w : World) (b : BaseId) :
    abs t (giveHostname w b) = abs t w := by
  unfold giveHostname
  split
  · rfl
  · exact abs_modBase t w b _ rfl rfl

/-- A base that is not in the registry and has an empty table enters it. -/
theorem registerBase_acts (ha : P .alter) {k : Fin 16} (hk : w.openBases k = none)
    (hb : ∀ k, w.openBases k ≠ some b) (he : ∀ n, (w.bases b).fdMap n = none) :
    Acts P (abs t w) (abs t (registerBase w k b)) :=
  Acts.one (.ref (.register (abs t w) k b hk (fun ⟨k', hk'⟩ => hb k' hk') he ha)) rfl

/-- `OPEN` sends nothing. -/
theorem tnIpcCmdOpen_carried (hP : Permits P w) (hl : Deadly w → ∀ m, P (.drop m))
    (hn : t.sending = none) (ht : Lax t) (hcl : t.closing = none)
    (hb : ∀ b, (w.msgs m).socketBase = some b →
      registered w b ∨ ∀ n, (w.bases b).fdMap n = none) :
    Carried P t w m (tnIpcCmdOpen w m) := by
  unfold tnIpcCmdOpen
  split
  · exact .done .refl _ _
  · rename_i b hbase
    dsimp only
    have only : Only ∅ w (giveHostname w b) := by
      unfold giveHostname
      split
      · exact .refl w
      · exact .modBase _ _ rfl rfl rfl
    have named := abs_giveHostname (t.pickUp m) w b
    have deadly : Deadly (giveHostname w b) → Deadly w := by
      rintro ⟨k, c, hk, hd⟩
      rw [only.rest.openBases] at hk
      rw [only.rest.taskAlive, (only.rest.dtab c).2] at hd
      exact ⟨k, c, hk, hd⟩
    have opens := only.rest.openBases
    have fds := only.fds b
    generalize giveHostname w b = w1 at named deadly opens fds
    refine .trans (.none named) ?_
    split
    · exact .done .refl _ _
    · rename_i hreg
      have absent : ∀ k, w1.openBases k ≠ some b := baseIdx?_none (by simpa using hreg)
      have table : ∀ n, (w1.bases b).fdMap n = none := by
        rw [fds]
        exact (hb b hbase).resolve_left fun ⟨k, hk⟩ => absent k (by rw [opens]; exact hk)
      split
      · rename_i k hk
        exact .done (registerBase_acts hP.alter (baseIdx?_some hk) absent table) _ _
      · have reaped := tnReapDeadClients_acts (P := P) (t := t.pickUp m) (w := w1) hP.alter hP.clear
          (fun h => hl (deadly h)) hn (ht.pickUp m) hcl
        have fewer : Fewer w1 (tnReapDeadClients w1) := .tnReapDeadClients
        generalize tnReapDeadClients w1 = w2 at reaped fewer
        split
        · rename_i k hk
          exact .done (reaped.trans (registerBase_acts hP.alter (baseIdx?_some hk)
            (fun k' hk' => absent k' (fewer.openBases k' b hk'))
            (fun n => fewer.fds b n (table n)))) _ _
        · exact .fail reaped _

/-- `STOP` is parked or refused. -/
theorem tnIpcCmdStop_carried (hP : Permits P w) (hl : Deadly w → ∀ m, P (.drop m))
    (hn : t.sending = none) (ht : Lax t) (hcl : t.closing = none) :
    Carried P t w m (tnIpcCmdStop w m) := by
  unfold tnIpcCmdStop
  dsimp only
  have reaped : Acts P (abs (t.pickUp m) w) (abs (t.pickUp m)
      (if (w.setReply m 0 .ok).libOpenCnt > 0 then tnReapDeadClients (w.setReply m 0 .ok)
        else w.setReply m 0 .ok)) := by
    refine (Acts.none (abs_setReply _ w m 0 .ok)).trans ?_
    split
    · refine tnReapDeadClients_acts hP.alter hP.clear (fun hd => hl ?_) hn (ht.pickUp m) hcl
      exact hd
    · exact .refl
  generalize (if (w.setReply m 0 .ok).libOpenCnt > 0 then tnReapDeadClients (w.setReply m 0 .ok)
    else w.setReply m 0 .ok) = w1 at reaped
  refine .trans reaped ?_
  split
  · exact .refuse _
  · split
    · exact .refuse _
    · rename_i hs
      have free : w1.stopMsg = none := by simpa using hs
      refine .defer (Acts.one (.msg (.parkStop (abs (t.pickUp m) w1) m (List.mem_cons_self ..)
        (Tok.notSending hn m) free)) ?_)
      rw [abs_tok, Tok.pickUp_putDown]
      rfl

/-! ## `CANCEL` -/

/-- `NULL` names an empty field, and emptying that changes nothing. -/
theorem cancelField_acts {k : Pend} (hk : k ≠ .send) {target : MsgId}
    (hp : (w.sockets i).pending k = targetMsg target) :
    Acts P (abs t w) (abs t (cancelField w i k target)) := by
  unfold cancelField replyTarget
  unfold targetMsg at hp
  split at hp
  · rename_i h0
    rw [if_pos h0]
    refine Acts.none ((abs_emit_replyNull ..).trans (abs_modSlot_same _ _ _ _ ?_))
    show (w.sockets i).view.setPend k none = (w.sockets i).view
    unfold SlotView.setPend
    rw [Function.update_eq_self_iff.mpr hp.symm]
  · rename_i h0
    rw [if_neg h0]
    refine Acts.one (.msg (.answer (abs t w) i k target (-1) .eintr hk hp)) ?_
    rw [abs_answerMsg, abs_setPending]
    rfl

/-- The target waits in a slot and is answered. -/
theorem cancelAt_acts {target : MsgId} (h : cancelAt w i target = some w') :
    Acts P (abs t w) (abs t w') := by
  unfold cancelAt at h
  dsimp only at h
  split at h
  · split at h
    · rename_i hp
      cases h
      exact cancelField_acts (by decide) hp
    · split at h
      · rename_i hp
        cases h
        exact cancelField_acts (by decide) hp
      · split at h
        · rename_i hp
          cases h
          exact cancelField_acts (by decide) hp
        · cases h
  · cases h

/-- The target is a parked send and is answered. -/
theorem cancelParkedSendAt_acts (ht : Lax t) {target : MsgId}
    (h : cancelParkedSendAt w i target = some w') : Acts P (abs t w) (abs t w') := by
  unfold cancelParkedSendAt at h
  split at h
  · cases h
    have sent := tnSlotReplySend_interrupt (P := P) (t := t) (w := w) i (e := .eintr) rfl
    rwa [ht.owe] at sent
  · cases h

/-- The target is a lookup and is answered. -/
theorem cancelDns_acts {target : MsgId} (h : cancelDns w target = some w') :
    Acts P (abs t w) (abs t w') := by
  unfold cancelDns at h
  obtain ⟨k, hk, rfl⟩ := Option.map_eq_some_iff.mp h
  have found := List.find?_some hk
  simp only [Bool.and_eq_true, beq_iff_eq] at found
  have held := dns_inUse t found.1
  rw [found.2] at held
  unfold replyTarget
  unfold targetMsg at held
  split at held
  · rename_i h0
    rw [if_pos h0]
    exact Acts.one (.msg (.forgetDns _ k _ held)) ((abs_emit_replyNull ..).trans (abs_clearDns ..))
  · rename_i h0
    rw [if_neg h0]
    refine Acts.one (.msg (.answerDns _ k target _ (-1) .eintr held)) ?_
    exact (abs_answerMsg t (clearDns w k) target (-1) .eintr).trans (by rw [abs_clearDns]; rfl)

/-- The target is answered wherever it waits. -/
theorem cancelTarget_acts (ht : Lax t) (target : MsgId) :
    Acts P (abs t w) (abs t (cancelTarget w target)) := by
  unfold cancelTarget
  split
  · rename_i hf
    obtain ⟨i, -, hi⟩ := List.exists_of_findSome?_eq_some hf
    exact cancelAt_acts hi
  · split
    · rename_i hf
      obtain ⟨i, -, hi⟩ := List.exists_of_findSome?_eq_some hf
      exact cancelParkedSendAt_acts ht hi
    · cases hd : cancelDns w target with
      | none => exact .refl
      | some w' => exact cancelDns_acts hd

/-- `CANCEL` sends nothing. -/
theorem tnIpcCmdCancel_carried (ht : Lax t) : Carried P t w m (tnIpcCmdCancel w m) :=
  .done (cancelTarget_acts (t := t.pickUp m) (ht.pickUp m) _) _ _

/-! ## Timeouts -/

/-- What ran out of time in a slot is answered. -/
theorem checkTimeoutsAt_acts (ht : Lax t) (w : World) (i : SlotIdx) :
    Acts P (abs t w) (abs t (checkTimeoutsAt w i)) := by
  unfold checkTimeoutsAt
  dsimp only
  have send : Acts P (abs t w) (abs t (if (w.sockets i).inUse ∧ ((w.sockets i).pending .send).isSome ∧
      (w.sockets i).sendDeadlineTick ≠ 0 ∧
      tickReached w.mainloopTicks (w.sockets i).sendDeadlineTick then
      tnSlotReplySend w i .ewouldblock true else w)) := by
    split
    · have sent := tnSlotReplySend_interrupt (P := P) (t := t) (w := w) i (e := .ewouldblock) rfl
      rwa [ht.owe] at sent
    · exact .refl
  generalize (if (w.sockets i).inUse ∧ ((w.sockets i).pending .send).isSome ∧
      (w.sockets i).sendDeadlineTick ≠ 0 ∧
      tickReached w.mainloopTicks (w.sockets i).sendDeadlineTick then
      tnSlotReplySend w i .ewouldblock true else w) = w1 at send
  split
  · exact send.trans (replyPending_acts i (by decide) _ _)
  · exact send

/-- The tick answers what ran out of time. -/
theorem tnSlotCheckRecvTimeouts_acts (ht : Lax t) :
    Acts P (abs t w) (abs t (tnSlotCheckRecvTimeouts w)) :=
  acts_foldl _ _ (fun w i _ => checkTimeoutsAt_acts ht w i) w

end Tolunnet
