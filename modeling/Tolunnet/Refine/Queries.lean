import Tolunnet.Refine.Carry

/-!
# `Tolunnet.Refine.Queries`: lookups, selectors and status

The handlers that leave the sockets alone: `WAITSELECT` and the two that arm and disarm a selector,
`GETHOSTBYNAME`, the status queries, `IFCTL` and `RECONFIG`. To the abstract daemon they are acts on
the selector table, a lookup that is parked, connections that lwIP aborts, or nothing.
-/

set_option autoImplicit false

namespace Tolunnet

open World

variable {P : Label → Prop} {t : Tok} {w w' : World} {m : MsgId} {i : SlotIdx} {p : PcbId}

/-- A loop whose body changes nothing that is kept. -/
theorem abs_foldl {α : Type} (t : Tok) (f : World → α → World) (l : List α) (w : World)
    (hf : ∀ w x, abs t (f w x) = abs t w) : abs t (l.foldl f w) = abs t w :=
  l.foldlRecOn (motive := fun v => abs t v = abs t w) f rfl fun _ same x _ => (hf _ x).trans same

/-! ## `WAITSELECT` -/

@[simp] theorem abs_tnFdsetPutResult (t : Tok) (w : World) (m : MsgId) (k : Nat) (set : Nat × Nat)
    (nfds : Nat) : abs t (tnFdsetPutResult w m k set nfds) = abs t w := by
  unfold tnFdsetPutResult
  split
  · dsimp only
    split <;> rfl
  · rfl

@[simp] theorem abs_tnSelectClearTail (t : Tok) (w : World) (m : MsgId) (k nfds reqNfds : Nat) :
    abs t (tnSelectClearTail w m k nfds reqNfds) = abs t w := by
  unfold tnSelectClearTail
  split
  · refine abs_foldl t _ _ w fun w word => ?_
    split <;> rfl
  · rfl

@[simp] theorem abs_putResults (t : Tok) (w : World) (m : MsgId) (res : SelResult)
    (nfds reqNfds : Nat) : abs t (putResults w m res nfds reqNfds) = abs t w := by
  simp [putResults]

/-- `WAITSELECT` sends nothing. -/
theorem tnIpcCmdWaitselect_carried : Carried P t w m (tnIpcCmdWaitselect w m) := by
  unfold tnIpcCmdWaitselect
  dsimp only
  split
  · exact .refuse _
  · split
    · exact .refuse _
    · split
      · exact .refuse _
      · exact .same (fun _ => abs_putResults ..) _ _

/-! ## Selectors -/

/-- What `SELECT_ARM` finds is the entry of the base, or a free one when the base has none. -/
theorem findSelector_some {l : List TnSelector} {b : BaseId} {k : Nat}
    (h : findSelector l b = some k) : ∃ s, l[k]? = some s ∧ ((s.inUse = true ∧ s.base = some b) ∨
      (s.inUse = false ∧ ∀ x ∈ l, x.inUse = true → x.base ≠ some b)) := by
  unfold findSelector at h
  split at h
  · rename_i j hj
    cases h
    obtain ⟨hlt, hs, -⟩ := List.findIdx?_eq_some_iff_getElem.mp hj
    refine ⟨l[k], List.getElem?_eq_getElem hlt, Or.inl ?_⟩
    simpa using hs
  · rename_i hnone
    obtain ⟨hlt, hs, -⟩ := List.findIdx?_eq_some_iff_getElem.mp h
    refine ⟨l[k], List.getElem?_eq_getElem hlt, Or.inr ⟨by simpa using hs, fun x hx hu hb => ?_⟩⟩
    have missed := List.findIdx?_eq_none_iff.mp hnone x hx
    simp [hu, hb] at missed

/-- A selector is armed. -/
theorem armSelector_acts {k : Nat} {b : BaseId} {sel : TnSelector}
    (hk : findSelector w.selectors b = some k) (hb : sel.base = some b) (hu : sel.inUse = true) :
    Acts P (abs t w) (abs t (armSelector w k sel)) := by
  obtain ⟨s, hs, own⟩ := findSelector_some hk
  refine Acts.one (.sel (.table (abs t w) _ (.arm _ k s sel b hs hb hu own))) ?_
  unfold armSelector
  dsimp only
  rw [hs]
  dsimp only
  split <;> rfl

/-- `SELECT_ARM` sends nothing. -/
theorem tnIpcCmdSelectArm_carried : Carried P t w m (tnIpcCmdSelectArm w m) := by
  unfold tnIpcCmdSelectArm
  dsimp only
  split
  · exact .refuse _
  · split
    · exact .refuse _
    · split
      · exact .refuse _
      · split
        · exact .refuse _
        · split
          · exact .same (fun _ => abs_putResults ..) _ _
          · split
            · exact .refuse _
            · rename_i k hk
              exact .done (armSelector_acts hk rfl rfl) _ _

/-- An entry that is armed for a base. -/
theorem selectorOf_some {b : BaseId} {k : Nat} {s : TnSelector} (h : selectorOf w b k = some s) :
    w.selectors[k]? = some s ∧ s.inUse = true := by
  unfold selectorOf at h
  obtain ⟨hs, hu⟩ := Option.filter_eq_some_iff.mp h
  simp only [Bool.and_eq_true] at hu
  exact ⟨hs, hu.1⟩

/-- A selector of the base is freed. -/
theorem disarmSelector_acts (b : BaseId) (w : World) (k : Nat) :
    Acts P (abs t w) (abs t (disarmSelector b w k)) := by
  unfold disarmSelector
  split
  · rename_i s hs
    exact Acts.one (.sel (.table (abs t w) _ (.off _ k s (selectorOf_some hs).1))) rfl
  · exact .refl

/-- `SELECT_DISARM` sends nothing. -/
theorem tnIpcCmdSelectDisarm_carried : Carried P t w m (tnIpcCmdSelectDisarm w m) := by
  unfold tnIpcCmdSelectDisarm
  split
  · exact .done .refl _ _
  · exact .done (acts_foldl _ _ (fun w k _ => disarmSelector_acts _ w k) _) _ _

theorem disarmSelectorForBase_acts (b : BaseId) (w : World) (k : Nat) :
    Acts P (abs t w) (abs t (disarmSelectorForBase b w k)) := by
  unfold disarmSelectorForBase
  split
  · rename_i s hs
    obtain ⟨hk, hu⟩ := selectorOf_some hs
    exact Acts.one (.sel (.table (abs t w) _ (.dec _ k s hk hu))) rfl
  · exact .refl

/-- All of them are. -/
theorem tnSelectorDisarmAllForBase_acts (b : BaseId) :
    Acts P (abs t w) (abs t (tnSelectorDisarmAllForBase w b)) :=
  acts_foldl _ _ (fun w k _ => disarmSelectorForBase_acts b w k) _

/-- The table grows by free selectors. -/
theorem tnSelectorTableGrow_acts (n : Nat) :
    Acts P (abs t w) (abs t (tnSelectorTableGrow w n)) := by
  unfold tnSelectorTableGrow
  split
  · exact .refl
  · rename_i hn
    split
    · exact Acts.one (.sel (.table (abs t w) _ (.grow _ n (not_le.mp hn)))) rfl
    · exact .none (abs_asked ..)

/-! ## `GETHOSTBYNAME` -/

@[simp] theorem abs_tnIpcFillHostentNow (t : Tok) (w : World) (b : BaseId) (name : List Char)
    (addr : Nat) : abs t (tnIpcFillHostentNow w b name addr) = abs t w :=
  abs_modBase t w b _ rfl rfl

/-- A lookup waits in a record that was free. -/
theorem deferDns_carried (hn : t.sending = none) {b : BaseId} (hb : (w.msgs m).socketBase = some b)
    (hostname : List Char) : Carried P t w m (deferDns w m b hostname) := by
  unfold deferDns
  dsimp only
  split
  · exact .done .refl _ _
  · split
    · rename_i k hk
      have free : (w.dnsPending k).inUse = false := by simpa using List.find?_some hk
      have none : (abs (t.pickUp m) w).dns k = none := by
        show (w.dnsPending k).view = none
        simp [TnDnsPending.view, free]
      refine .defer (Acts.one (.msg (.parkDns (abs (t.pickUp m) w) k m (List.mem_cons_self ..)
        (Tok.notSending hn m) none)) ?_)
      rw [abs_tok, Tok.pickUp_putDown]
      unfold abs registerDns Abs.setTok
      congr 1
      funext j
      by_cases hj : j = k
      · subst hj
        simp [TnDnsPending.view, TnIpcMsg.view, hb]
      · simp [hj]
    · exact .done .refl _ _

/-- `GETHOSTBYNAME` sends nothing. -/
theorem tnIpcCmdGethostbyname_carried (hn : t.sending = none) :
    Carried P t w m (tnIpcCmdGethostbyname w m) := by
  unfold tnIpcCmdGethostbyname
  dsimp only
  split
  · rename_i b hostname hb _
    split
    · exact .done .refl _ _
    · split
      · exact .same (fun _ => (abs_tnIpcFillHostentNow ..).trans (abs_asked ..)) _ _
      · split
        · exact .trans (.none (abs_asked ..)) (deferDns_carried (w := w.asked) hn hb hostname)
        · exact .same (fun _ => abs_asked ..) _ _
  · exact .done .refl _ _

/-! ## Status -/

/-- A row reads the pcb of a slot, the full part only when the slot does not listen. -/
theorem abs_enumRow (hs : (abs t w).Sound) : abs t (enumRow w i) = abs t w := by
  unfold enumRow
  dsimp only
  split
  · split
    · rename_i p hp
      have base : abs t (w.onPcb p id) = abs t w := abs_onPcb (live_of_slot hs hp) id fun _ => rfl
      split
      · rename_i hl
        have full : (abs t w).Full p := full_of_slot hs hp hl
        have port : abs t ((w.onPcb p id).readFull p .remotePort) = abs t w :=
          (abs_readFull (base ▸ full) _).trans base
        exact (abs_readFull (port ▸ full) _).trans port
      · exact base
    · rfl
  · rfl

/-- The table of sockets goes to the client. -/
theorem tnIpcCmdEnumsockets_carried : Carried P t w m (tnIpcCmdEnumsockets w m) := by
  unfold tnIpcCmdEnumsockets
  dsimp only
  split
  · exact .refuse _
  · split
    · exact .refuse _
    · exact .done (acts_foldl _ _ (fun w i _ => Acts.of_sound fun hs => .none (abs_enumRow hs)) _) _ _

theorem replyByAnswer_carried : Carried P t w m (replyByAnswer w m) := by
  unfold replyByAnswer
  split
  · exact .same (fun _ => abs_asked ..) _ _
  · exact .fail (.none (abs_asked ..)) _

/-- An interface that goes down takes its connections with it. -/
theorem tnIpcCmdIfctl_carried (hP : Permits P w) (ht : Lax t) :
    Carried P t w m (tnIpcCmdIfctl w m) :=
  .trans ((Acts.none (abs_asked ..)).trans
    (runErrs_acts _ (hP.calm Only.asked.calm) (ht.pickUp m)).1) replyByAnswer_carried

theorem tnIpcCmdSyslog_carried : Carried P t w m (tnIpcCmdSyslog w m) := by
  unfold tnIpcCmdSyslog
  dsimp only
  split
  · split
    · exact .refuse _
    · exact .done .refl _ _
  · exact .refuse _

/-! ## `RECONFIG` -/

@[simp] theorem abs_modLive (t : Tok) (w : World) (f : TnLive → TnLive) :
    abs t (w.modLive f) = abs t w := rfl

theorem abs_tnApplyLiveConfig (t : Tok) (w : World) : abs t (tnApplyLiveConfig w) = abs t w := by
  have server : ∀ (w : World) (n : Nat) (s : List Char), abs t (applyServer w n s) = abs t w :=
    fun w n s => by
      unfold applyServer
      split_ifs <;> rfl
  have name : ∀ w : World, abs t (applyHostname w) = abs t w := fun w => by
    unfold applyHostname
    split <;> rfl
  have mtu : ∀ w : World, abs t (applyMtu w) = abs t w := fun w => by
    unfold applyMtu
    dsimp only
    split <;> rfl
  unfold tnApplyLiveConfig
  rw [mtu, name, server, server]
  split <;> rfl

/-- The remote log is no send. -/
theorem abs_tnSyslogApply (t : Tok) (w : World) (host : List Char) :
    abs t (tnSyslogApply w host).1 = abs t w := by
  unfold tnSyslogApply
  dsimp only
  split
  · rfl
  · split
    · rfl
    · generalize hw1 : (if w.live.syslog.pcb = true then w else _) = w1
      have opened : abs t w1 = abs t w := by
        rw [← hw1]
        split <;> rfl
      split
      · simpa using opened
      · split <;> simpa using opened

/-- Of the settings only the size of the selector table is kept. -/
theorem applyLive_acts (live : Nat) : Acts P (abs t w) (abs t (applyLive w live).1) := by
  have log : ∀ w : World, abs t (applyLog w live).1 = abs t w := fun w => by
    unfold applyLog
    split_ifs <;> rfl
  have sel : ∀ w : World, Acts P (abs t w) (abs t (applySelectors w live).1) := fun w => by
    unfold applySelectors
    dsimp only
    split
    · generalize (if w.prefs.selectors > 0 then w.prefs.selectors else maxSelectors) = want
      split
      · exact tnSelectorTableGrow_acts _
      · exact .refl
    · exact .refl
  have syslog : ∀ w : World, abs t (applySyslog w live).1 = abs t w := fun w => by
    unfold applySyslog
    have applied := abs_tnSyslogApply t w w.prefs.syslogHost
    split
    · split
      all_goals
        rename_i heq
        rw [heq] at applied
        exact applied
    · rfl
  have stats : ∀ w : World, abs t (applyStats w live) = abs t w := fun w => by
    unfold applyStats
    split <;> rfl
  have level : ∀ w : World, abs t (applyLoglevel w live) = abs t w := fun w => by
    unfold applyLoglevel
    split <;> rfl
  have pri : ∀ w : World, abs t (applyPriority w live) = abs t w := fun w => by
    unfold applyPriority
    split <;> rfl
  show Acts P (abs t w) (abs t (tnApplyLiveConfig (applySyslog (applyStats (applySelectors (applyLog
    (applyPriority (applyLoglevel w live) live) live).1 live).1 live) live).1))
  have before : abs t (applyLog (applyPriority (applyLoglevel w live) live) live).1 = abs t w := by
    rw [log, pri, level]
  exact (Acts.none before).trans ((sel _).trans
    (Acts.none (by rw [abs_tnApplyLiveConfig, syslog, stats])))

/-- The masks go into the request, whose length argument is one of them. -/
theorem reconfigReply_acts (hn : t.sending = none) (a r f : Nat) :
    Acts P (abs (t.pickUp m) w) (abs (t.pickUp m) (reconfigReply w m a r f)) := by
  unfold reconfigReply
  dsimp only
  generalize hw1 : w.modMsg m _ = w1
  have edited : Acts P (abs (t.pickUp m) w) (abs (t.pickUp m) w1) := by
    rw [← hw1, abs_modMsg]
    exact .single (.msg (.edit _ _ _ (List.mem_cons_self ..) (Tok.notSending hn m) rfl))
  split
  · exact edited
  · split
    · exact edited.trans (Acts.none (abs_store ..))
    · exact edited

/-- `RECONFIG` sends nothing. -/
theorem tnIpcCmdReconfig_carried (hn : t.sending = none) :
    Carried P t w m (tnIpcCmdReconfig w m) := by
  unfold tnIpcCmdReconfig
  dsimp only
  generalize hw1 : ({ w.asked with prefs := _ } : World) = w1
  have loaded : abs (t.pickUp m) w1 = abs (t.pickUp m) w := by
    rw [← hw1]
    rfl
  split
  · exact .done ((Acts.none loaded).trans ((applyLive_acts _).trans (reconfigReply_acts hn _ _ _))) _ _
  · exact .fail ((Acts.none loaded).trans ((applyLive_acts _).trans (reconfigReply_acts hn _ _ _))) _

end Tolunnet
