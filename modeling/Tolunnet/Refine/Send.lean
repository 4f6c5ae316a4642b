import Tolunnet.Refine.Recv

/-!
# `Tolunnet.Refine.Send`: the writing loop

`tn_tcp_write_some` hands the data of a send to lwIP chunk by chunk, from one buffer or from an
array of iovec entries with its own cursor. `SourceAt` says that the cursor stands where the
stream offset says it stands. Under it every chunk is the next piece of the data, and the loop
does what `Wrote` allows.
-/

set_option autoImplicit false

namespace Tolunnet

open World

/-! ## The source of a send -/

/-- The bytes of an iovec entry. -/
def Iovec.data (v : Iovec) : List UInt8 := memBytes (v.iovBase.getD fun _ => 0) 0 v.iovLen

@[simp] theorem length_memBytes (f : Mem) (off n : Nat) : (memBytes f off n).length = n := by
  simp [memBytes]

theorem Iovec.length_data (v : Iovec) : v.data.length = v.iovLen := length_memBytes ..

/-- A piece of a memory range. -/
theorem memBytes_shift (f : Mem) {off chunk n : Nat} (h : off + chunk ≤ n) :
    memBytes (fun k => f (off + k)) 0 chunk = ((memBytes f 0 n).drop off).take chunk := by
  apply List.ext_getElem
  · simp only [length_memBytes, List.length_take, List.length_drop]
    omega
  · intro k h1 h2
    simp [memBytes]

/-- The cursor: the plain buffer holds the data, or the array from the current entry on holds
the data from that entry's stream offset on. -/
def SourceAt (buf : Mem) (pl : List UInt8) (done : Nat) : Option (List Iovec × Nat) → Prop
  | none => pl = memBytes buf 0 pl.length
  | some (l, vbase) => vbase ≤ done ∧ pl.drop vbase = (l.map Iovec.data).flatten

/-- The cursor may stay behind. -/
theorem SourceAt.mono {buf : Mem} {pl : List UInt8} {done done' : Nat}
    {iov : Option (List Iovec × Nat)} (h : SourceAt buf pl done iov) (hd : done ≤ done') :
    SourceAt buf pl done' iov := by
  cases iov with
  | none => exact h
  | some x => exact ⟨h.1.trans hd, h.2⟩

/-- The data of a whole send, with the cursor at its start. -/
theorem sourceAt_start {buf : Mem} {iov : Option (List Iovec)} {len : Nat} (done : Nat)
    (hlen : (sendPayload buf iov len).length = len) :
    SourceAt buf (sendPayload buf iov len) done (iov.map fun l => (l, 0)) := by
  cases iov with
  | none =>
    show sendPayload buf none len = memBytes buf 0 (sendPayload buf none len).length
    rw [hlen]
    rfl
  | some l => exact ⟨Nat.zero_le _, rfl⟩

/-- The cursor moves on to the entry that holds byte `done`. -/
theorem skipIov_sourceAt {buf : Mem} {pl : List UInt8} {done : Nat} (hd : done < pl.length)
    (l : List Iovec) (vbase : Nat) (h : SourceAt buf pl done (some (l, vbase))) :
    ∃ v rest vb, skipIov done l vbase = some (v :: rest, vb) ∧ done - vb < v.iovLen ∧
      SourceAt buf pl done (some (v :: rest, vb)) := by
  induction l generalizing vbase with
  | nil =>
    obtain ⟨h1, h2⟩ := h
    have h3 : pl.length ≤ vbase := by simpa using h2
    omega
  | cons v rest ih =>
    unfold skipIov
    split
    · rename_i hlt
      exact ⟨v, rest, vbase, rfl, hlt, h⟩
    · rename_i hge
      obtain ⟨h1, h2⟩ := h
      refine ih (vbase + v.iovLen) ⟨by omega, ?_⟩
      rw [← List.drop_drop, h2, List.map_cons, List.flatten_cons]
      exact List.drop_left' v.length_data

/-- The next chunk is the next piece of the data. -/
theorem sendSource_bytes {buf : Mem} {pl : List UInt8} {done chunk : Nat}
    {iov : Option (List Iovec × Nat)} (h : SourceAt buf pl done iov) (hd : done < pl.length)
    (hi : ∀ l vb, iov = some (l, vb) → ∃ v rest, l = v :: rest ∧ done - vb < v.iovLen)
    (hc : chunk ≤ (sendSource buf iov pl.length done).2) :
    memBytes (sendSource buf iov pl.length done).1 0 chunk = (pl.drop done).take chunk ∧
      done + chunk ≤ pl.length := by
  cases iov with
  | none =>
    have h : pl = memBytes buf 0 pl.length := h
    have hc : chunk ≤ pl.length - done := hc
    refine ⟨?_, by omega⟩
    conv_rhs => rw [h]
    exact memBytes_shift buf (by omega)
  | some x =>
    obtain ⟨l, vb⟩ := x
    obtain ⟨v, rest, rfl, hlt⟩ := hi l vb rfl
    obtain ⟨h1, h2⟩ := h
    have hc : chunk ≤ v.iovLen - (done - vb) := hc
    have hdrop : pl.drop done = v.data.drop (done - vb) ++ (rest.map Iovec.data).flatten := by
      rw [show done = vb + (done - vb) by omega, ← List.drop_drop, h2, List.map_cons,
        List.flatten_cons, List.drop_append_of_le_length (by rw [v.length_data]; omega)]
      congr 2
      omega
    have hlen : (v.data.drop (done - vb)).length = v.iovLen - (done - vb) := by
      rw [List.length_drop, v.length_data]
    constructor
    · rw [hdrop, List.take_append_of_le_length (by rw [hlen]; exact hc)]
      exact memBytes_shift (v.iovBase.getD fun _ => 0) (by omega)
    · have h3 := congrArg List.length hdrop
      rw [List.length_drop, List.length_append, hlen] at h3
      omega

/-- There is always a next chunk before the end of the data. -/
theorem sendSource_pos (buf : Mem) {pl : List UInt8} {done : Nat}
    {iov : Option (List Iovec × Nat)} (hd : done < pl.length)
    (hi : ∀ l vb, iov = some (l, vb) → ∃ v rest, l = v :: rest ∧ done - vb < v.iovLen) :
    0 < (sendSource buf iov pl.length done).2 := by
  cases iov with
  | none =>
    show 0 < pl.length - done
    omega
  | some x =>
    obtain ⟨l, vb⟩ := x
    obtain ⟨v, rest, rfl, hlt⟩ := hi l vb rfl
    show 0 < v.iovLen - (done - vb)
    omega

/-! ## The writing loop -/

section Loop

variable {t : Tok} {p : PcbId} {c : CallNo} {buf : Mem} {pl : List UInt8}

/-- The state after a call of `tn_tcp_write_some`. -/
def Abs.afterWrite (a : Abs) (p : PcbId) (c : CallNo) (bs : List (List UInt8)) (e : ErrT)
    (v : PcbView) : Abs :=
  { a.pcbSet p (some v) with log := writeLog p c bs e ++ a.log }

/-- `tn_tcp_write_some` from byte `done` on, with result `r`, did what `Wrote` allows. -/
def WroteSome (t : Tok) (w : World) (p : PcbId) (c : CallNo) (pl : List UInt8) (done : Nat)
    (v : PcbView) (r : World × Nat × ErrT) : Prop :=
  ∃ bs v', Wrote pl done bs r.2.2 v v' ∧ r.2.1 = done + bs.flatten.length ∧
    abs t r.1 = (abs t w).afterWrite p c bs r.2.2 v'

/-- Nothing was written. -/
theorem wrote_nil {done : Nat} {e : ErrT} {v : PcbView} (hd : done ≤ pl.length)
    (he : e = .ok → done = pl.length) : Wrote pl done [] e v v where
  bytes := by simp
  fits := by simpa using hd
  ok := fun h => by simpa using he h
  space := ⟨v.sndBuf, v.sndQueuelen, le_rfl, le_rfl, rfl⟩

/-- The loop ends without a write. -/
theorem WroteSome.stop {w w' : World} {done : Nat} {e : ErrT} {v : PcbView}
    (hv : (abs t w).pcb p = some v) (hd : done ≤ pl.length) (he : e = .ok → done = pl.length)
    (hw : abs t w' = { abs t w with log := writeLog p c [] e ++ (abs t w).log }) :
    WroteSome t w p c pl done v (w', done, e) := by
  refine ⟨[], v, wrote_nil hd he, by simp, ?_⟩
  unfold Abs.afterWrite
  rw [pcbSet_same hv]
  exact hw

theorem writeLog_cons (p : PcbId) (c : CallNo) (b : List UInt8) (bs : List (List UInt8)) (e : ErrT) :
    writeLog p c (b :: bs) e = writeLog p c bs e ++ [.tcpWrite p c b] := by
  simp [writeLog]

/-- One more chunk before the rest of the loop. -/
theorem WroteSome.chunk {w w1 : World} {done : Nat} {b : List UInt8} {v v1 : PcbView}
    {r : World × Nat × ErrT} (hb : b = (pl.drop done).take b.length)
    (hv : ∃ q, v.sndQueuelen ≤ q ∧
      v1 = { v with sndBuf := v.sndBuf - b.length, sndQueuelen := q })
    (hw : abs t w1 = { (abs t w).pcbSet p (some v1) with log := .tcpWrite p c b :: (abs t w).log })
    (h : WroteSome t w1 p c pl (done + b.length) v1 r) : WroteSome t w p c pl done v r := by
  obtain ⟨bs, v', h1, h2, h3⟩ := h
  refine ⟨b :: bs, v', ⟨?_, ?_, ?_, ?_⟩, ?_, ?_⟩
  · rw [List.flatten_cons, List.length_append, List.take_add, List.drop_drop]
    conv_lhs => rw [hb, h1.bytes]
  · have := h1.fits
    rw [List.flatten_cons, List.length_append]
    omega
  · intro he
    have := h1.ok he
    rw [List.flatten_cons, List.length_append]
    omega
  · obtain ⟨q, hq, rfl⟩ := hv
    obtain ⟨n, q', hn, hq', rfl⟩ := h1.space
    exact ⟨n, q', hn.trans (Nat.sub_le _ _), hq.trans hq', rfl⟩
  · rw [h2, List.flatten_cons, List.length_append]
    omega
  · unfold Abs.afterWrite at h3 ⊢
    rw [h3, hw, writeLog_cons, List.append_assoc]
    simp [Abs.pcbSet]

/-- `tcp_write` on a full pcb. -/
theorem abs_tcpWrite {w : World} {v : PcbView} (hv : (abs t w).pcb p = some v)
    (hl : v.listen = false) (b : List UInt8) :
    (∃ q, v.sndQueuelen ≤ q ∧ (tcpWrite w p c b).2 = .ok ∧ abs t (tcpWrite w p c b).1
      = { (abs t w).pcbSet p (some { v with sndBuf := v.sndBuf - b.length, sndQueuelen := q }) with
          log := .tcpWrite p c b :: (abs t w).log }) ∨
    ((tcpWrite w p c b).2 ≠ .ok ∧ abs t (tcpWrite w p c b).1
      = { abs t w with log := writeLog p c [] (tcpWrite w p c b).2 ++ (abs t w).log }) := by
  obtain ⟨x, hx, rfl⟩ := abs_pcb_some.mp hv
  have hl : x.listen = false := hl
  unfold tcpWrite
  rw [hx]
  dsimp only
  rw [if_neg (by rw [hl]; decide)]
  by_cases h1 : w.ask.err = .ok
  · left
    refine ⟨max x.sndQueuelen w.ask.sndQueuelen, le_max_left _ _, ?_, ?_⟩
    · rw [if_pos h1]
    · rw [if_pos h1, abs_emit _ _ _ rfl, abs_setPcb, abs_asked]
      rfl
  · right
    rw [if_neg h1]
    by_cases h2 : w.ask.err = .mem
    · rw [if_pos h2]
      exact ⟨by simp, rfl⟩
    · rw [if_neg h2]
      refine ⟨h1, ?_⟩
      rw [abs_emit _ _ _ rfl, abs_asked]
      simp [writeLog, h1, h2, Abs.say]

/-- What the loop does after one `tcp_write` of `n` bytes. -/
def afterWrite (p : PcbId) (c : CallNo) (buf : Mem) (len fuel : Nat)
    (iov : Option (List Iovec × Nat)) (done n : Nat) : World × ErrT → World × Nat × ErrT
  | (w, .ok) => tnTcpWriteSome p c buf len fuel w iov (done + n)
  | (w, e) => (w, done, e)

theorem tnTcpWriteSome_wrote (fuel : Nat) (w : World) (iov : Option (List Iovec × Nat)) (done : Nat)
    (v : PcbView) (hf : pl.length - done ≤ fuel) (hd : done ≤ pl.length)
    (hs : SourceAt buf pl done iov) (hv : (abs t w).pcb p = some v) (hl : v.listen = false) :
    WroteSome t w p c pl done v (tnTcpWriteSome p c buf pl.length fuel w iov done) := by
  induction fuel generalizing w iov done v with
  | zero => exact .stop hv hd (fun _ => by omega) rfl
  | succ fuel ih =>
    unfold tnTcpWriteSome
    split
    · rename_i hlt
      dsimp only
      have hr : abs t (w.readFull p .sndBuf) = abs t w := abs_readFull ⟨v, hv, hl⟩ _
      generalize w.readFull p .sndBuf = w0 at hr
      have hv0 : (abs t w0).pcb p = some v := by rw [hr]; exact hv
      obtain ⟨x, hx, hxv⟩ := abs_pcb_some.mp hv0
      have hsnd : x.sndBuf = v.sndBuf := congrArg PcbView.sndBuf hxv
      rw [hx]
      dsimp only
      split
      · exact .stop hv hd (fun h => by cases h) hr
      · rename_i h0
        -- one turn, with the cursor on the entry that holds the next byte
        have turn : ∀ iov', SourceAt buf pl done iov' →
            (∀ l vb, iov' = some (l, vb) → ∃ v rest, l = v :: rest ∧ done - vb < v.iovLen) →
            WroteSome t w p c pl done v
              (afterWrite p c buf pl.length fuel iov' done
                (min (clip16 (sendSource buf iov' pl.length done).2) x.sndBuf)
                (tcpWrite w0 p c (memBytes (sendSource buf iov' pl.length done).1 0
                  (min (clip16 (sendSource buf iov' pl.length done).2) x.sndBuf)))) := by
          intro iov' hs' hi
          have hpos := sendSource_pos buf hlt hi
          generalize hsrc : sendSource buf iov' pl.length done = src at hpos
          have hbytes : ∀ chunk ≤ src.2, memBytes src.1 0 chunk = (pl.drop done).take chunk ∧
              done + chunk ≤ pl.length := by
            intro chunk hc
            rw [← hsrc] at hc ⊢
            exact sendSource_bytes hs' hlt hi hc
          obtain ⟨hb, hfit⟩ := hbytes (min (clip16 src.2) x.sndBuf) (by unfold clip16; omega)
          have hchunk : 0 < min (clip16 src.2) x.sndBuf := by unfold clip16; omega
          generalize hn : min (clip16 src.2) x.sndBuf = n at hb hfit hchunk
          have hlen : (memBytes src.1 0 n).length = n := length_memBytes ..
          rcases abs_tcpWrite (c := c) hv0 hl (memBytes src.1 0 n) with
            ⟨q, hq, hok, ha⟩ | ⟨hne, ha⟩
          · rw [hlen] at ha
            generalize hwr : tcpWrite w0 p c (memBytes src.1 0 n) = wr at hok ha
            obtain ⟨w1, e⟩ := wr
            obtain rfl : e = .ok := hok
            rw [hr] at ha
            refine WroteSome.chunk (b := memBytes src.1 0 n) (by rw [hlen]; exact hb)
              ⟨q, hq, by rw [hlen]⟩ ha ?_
            rw [hlen]
            exact ih w1 iov' (done + n) _ (by omega) hfit (hs'.mono (by omega)) (by rw [ha]; simp) hl
          · generalize hwr : tcpWrite w0 p c (memBytes src.1 0 n) = wr at hne ha
            obtain ⟨w1, e⟩ := wr
            have hne : e ≠ .ok := hne
            have hres : WroteSome t w p c pl done v (w1, done, e) :=
              .stop hv hd (fun h => absurd h hne) (by rw [← hr]; exact ha)
            cases e
            case ok => exact absurd rfl hne
            all_goals exact hres
        cases iov with
        | none => exact turn none hs (by simp)
        | some y =>
          obtain ⟨l, vbase⟩ := y
          obtain ⟨v', rest, vb, h1, h2, h3⟩ := skipIov_sourceAt hlt l vbase hs
          simp only [h1, Option.map_some]
          refine turn (some (v' :: rest, vb)) h3 ?_
          rintro l' vb' he
          cases he
          exact ⟨v', rest, rfl, h2⟩
    · exact .stop hv hd (fun _ => by omega) rfl

end Loop

/-! ## Resuming a parked send -/

section Resume

variable {P : Label → Prop} {t : Tok} {w : World} {i : SlotIdx} {p : PcbId}

theorem Only.tnTcpWriteSome {S : Set SlotIdx} (p : PcbId) (c : CallNo) (buf : Mem) (len fuel : Nat)
    (w : World) (iov : Option (List Iovec × Nat)) (done : Nat) :
    Only S w (tnTcpWriteSome p c buf len fuel w iov done).1 := by
  induction fuel generalizing w iov done with
  | zero => exact .refl w
  | succ fuel ih =>
    unfold Tolunnet.tnTcpWriteSome
    split
    · dsimp only
      have hr : Only S w (w.readFull p .sndBuf) := .readFull _
      generalize w.readFull p .sndBuf = w0 at hr
      have hw : ∀ b, Only S w0 (Tolunnet.tcpWrite w0 p c b).1 := fun b => .tcpWrite c b
      split
      all_goals
        split
        · exact hr
        · split
          · exact hr
          · split
            · rename_i w1 heq
              have h1 : Only S w0 w1 := by
                rw [show w1 = (w1, ErrT.ok).1 from rfl, ← heq]
                exact hw _
              exact hr.trans (h1.trans (ih _ _ _))
            · rename_i w1 e _ heq
              have h1 : Only S w0 w1 := by
                rw [show w1 = (w1, e).1 from rfl, ← heq]
                exact hw _
              exact hr.trans h1
    · exact .refl w

/-- A slot with a parked send and a pcb has a full one. -/
theorem full_of_send (hs : (abs t w).Sound) {m : MsgId}
    (hm : (w.sockets i).pending .send = some m) (hp : (w.sockets i).tcpPcb = some p) :
    ∃ v, (abs t w).pcb p = some v ∧ v.listen = false := by
  obtain ⟨v, hv, -, hl⟩ := (hs.disc.slots i).pcb p hp
  refine ⟨v, hv, hl.full ?_⟩
  rcases (hs.disc.slots i).send (by rw [abs_slot]; show (w.sockets i).pending .send ≠ none; rw [hm]; simp)
    with h | h | h
  · rw [show ((abs t w).slot i).tcp = some p from hp] at h
    cases h
  · rw [h]
    decide
  · rw [h]
    decide

/-- `tn_tcp_resume_send`. -/
theorem tnTcpResumeSend_acts (hu : (w.sockets i).inUse = true) :
    Acts P (abs t w) (abs (t.owe i .write) (tnTcpResumeSend w i)) := by
  refine Acts.of_sound fun hs => ?_
  unfold tnTcpResumeSend
  dsimp only
  split
  · exact acts_weaken (t.le_owe i .write)
  · rename_i m hm
    split
    · exact tnSlotReplySend_interrupt i rfl
    · split
      · exact tnSlotReplySend_interrupt i rfl
      · rename_i p hp
        obtain ⟨v, hv, hl⟩ := full_of_send hs hm hp
        obtain ⟨hlen, hrec⟩ := hs.sends.parked i m hm
        have hlen : (sendPayload (bufOf (w.msgs m)) (w.sockets i).sendIov
          ((w.msgs m).args 1).toNat).length = ((w.msgs m).args 1).toNat := hlen
        have hdone : (w.sockets i).sendDone ≤ ((w.msgs m).args 1).toNat := by
          have h := hrec.le
          exact hlen ▸ h
        have hwr := tnTcpWriteSome_wrote (t := t) (p := p) (c := w.callOf m)
          (((w.msgs m).args 1).toNat - (w.sockets i).sendDone) w
          ((w.sockets i).sendIov.map fun l => (l, 0)) (w.sockets i).sendDone v
          (by rw [hlen]) (by rw [hlen]; exact hdone) (sourceAt_start _ hlen) hv hl
        rw [hlen] at hwr
        have hmk := Only.tnTcpWriteSome (S := ∅) p (w.callOf m) (bufOf (w.msgs m))
          ((w.msgs m).args 1).toNat (((w.msgs m).args 1).toNat - (w.sockets i).sendDone) w
          ((w.sockets i).sendIov.map fun l => (l, 0)) (w.sockets i).sendDone
        generalize tnTcpWriteSome p (w.callOf m) (bufOf (w.msgs m)) ((w.msgs m).args 1).toNat
          (((w.msgs m).args 1).toNat - (w.sockets i).sendDone) w
          ((w.sockets i).sendIov.map fun l => (l, 0)) (w.sockets i).sendDone = r at hwr hmk
        obtain ⟨bs, v', hwrote, hdone', ha⟩ := hwr
        -- the output call is not seen, the new cursor is stored
        have hout : abs t (if r.2.1 ≠ (w.sockets i).sendDone then tcpOutput r.1 p else r.1)
            = abs t r.1 := by
          split
          · refine abs_tcpOutput ⟨v', ?_, ?_⟩
            · rw [ha]
              simp [Abs.afterWrite]
            · obtain ⟨n, q, -, -, rfl⟩ := hwrote.space
              exact hl
          · rfl
        have hmk' : Only ∅ w (if r.2.1 ≠ (w.sockets i).sendDone then tcpOutput r.1 p else r.1) := by
          split
          · exact hmk.trans (.readFull _)
          · exact hmk
        generalize (if r.2.1 ≠ (w.sockets i).sendDone then tcpOutput r.1 p else r.1) = w1 at hout hmk'
        have hstep : Acts P (abs t w)
            (abs t (w1.modSlot i fun s => { s with sendDone := r.2.1 })) := by
          refine Acts.one (.send (.resume (abs t w) i m p v v' bs r.2.2 hu hm hp hv hwrote)) ?_
          rw [abs_modSlot, hout, ha, hmk'.sockets, hdone']
          rfl
        split
        · exact hstep.trans (acts_weaken (t.le_owe i .write))
        · rename_i hne
          refine hstep.trans ((tnSlotReplySend_acts i _ fun m' hm' => ?_).trans
            (acts_weaken (t.oweSend_le i _)))
          obtain rfl : m = m' := by
            rw [sockets_modSlot, hmk'.sockets] at hm'
            exact Option.some.inj (hm.symm.trans hm')
          -- all is written, or there was a hard error
          by_cases hok : r.2.2 = .ok
          · refine Or.inr (Or.inl ?_)
            rw [sockets_modSlot]
            show r.2.1 = ((w1.msgs m).args 1).toNat
            rw [(hmk'.rest.msgs m).2.2.1, hdone', hwrote.ok hok, hlen]
          · refine Or.inr (Or.inr ⟨p, r.2.2, ?_⟩)
            have hmem : .tcpWriteErr p (w.callOf m) r.2.2 ∈ (abs t w1).log := by
              rw [hout, ha]
              simp [Abs.afterWrite, writeLog, hok, hne]
            have hc : (w1.modSlot i fun s => { s with sendDone := r.2.1 }).callOf = w.callOf :=
              hmk'.rest.callOf
            rw [hc]
            exact (List.mem_filter.mp hmem).1

end Resume

end Tolunnet
