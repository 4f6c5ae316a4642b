import Tolunnet.Refine.Deferred

/-!
# `Tolunnet.Refine.Sends`: what a stream send does

`send`, `sendto` and `sendmsg` on a connection end in `tn_tcp_send_stream`, which writes what fits
and parks the rest. A parked send is continued from the sent callback, the poll callback and the
timer, and it may be ended by any of five events. Whatever happens, lwIP gets the first bytes of the
data in order and once, the answer is their number, and on each connection the calls write one after
the other. A send that may wait writes everything unless it fails at once or is interrupted.
-/

set_option autoImplicit false

namespace Tolunnet

open World

variable {P : Label → Prop} {a a' : Abs} {w : World} {i : SlotIdx} {c : CallNo} {m : MsgId}
  {inp : Input}

/-- The log says of every send, and of every connection: -/
structure SendsExact (w : World) : Prop where
  /-- A send has written its first bytes, and its answer fits them. -/
  prefixes : ∀ c data, .sendStart c data ∈ w.trace → ∃ n, n ≤ data.length ∧
    wrote c w.trace = data.take n ∧ ∀ r e, .reply c r e ∈ w.trace → SendAnswer data.length n r
  /-- A call that is no send has written nothing. -/
  others : ∀ c, (∀ data, .sendStart c data ∉ w.trace) → wrote c w.trace = []
  /-- A parked send is at its cursor. -/
  parked : ∀ i m, (w.sockets i).pending .send = some m → ∃ data, .sendStart (w.callOf m) data ∈ w.trace ∧
    wrote (w.callOf m) w.trace = data.take (w.sockets i).sendDone ∧
    (w.sockets i).sendDone ≤ data.length
  /-- The calls write one after the other. -/
  turns : ∀ p, (writers p w.trace).Pairwise (· ≥ ·)

/-! ## The log of the abstract daemon -/

/-- The log without its quiet events shows the same writes. -/
theorem wrote_loud (c : CallNo) (l : List Event) : wrote c (l.filter Event.loud) = wrote c l := by
  induction l with
  | nil => rfl
  | cons e l ih =>
    have tail : ∀ l', wrote c l' = wrote c l → wrote c (e :: l') = wrote c (e :: l) := by
      intro l' h
      cases e <;> simp only [wrote, h]
    cases he : e.loud with
    | true =>
      rw [List.filter_cons_of_pos he]
      exact tail _ ih
    | false =>
      rw [List.filter_cons_of_neg (by simp [he]), ih]
      -- a quiet event is no write
      cases e <;> first | rfl | cases he

theorem writers_loud (p : PcbId) (l : List Event) :
    writers p (l.filter Event.loud) = writers p l := by
  unfold writers
  rw [List.filterMap_filter]
  refine List.filterMap_congr fun e _ => ?_
  cases e <;> rfl

theorem mem_loud {e : Event} (he : e.loud = true) {l : List Event} :
    e ∈ l.filter Event.loud ↔ e ∈ l := by
  rw [List.mem_filter, and_iff_left he]

/-- What always holds of stream sends. -/
theorem reached_sends (hr : Reachable w) : SendsExact w := by
  have sends := hr.abs_sound.sends
  have log : (abs (restTok Set.univ) w).log = w.trace.filter Event.loud := rfl
  constructor
  -- the abstract log is the trace without what is not about sends
  · intro c data hc
    obtain ⟨n, hn, hw, ha⟩ := sends.all c data ((mem_loud rfl).mpr hc)
    rw [log, wrote_loud] at hw
    exact ⟨n, hn, hw, fun r e he => ha r e ((mem_loud rfl).mpr he)⟩
  · intro c hc
    have none := sends.fresh c fun data hd => hc data ((mem_loud rfl).mp hd)
    rwa [log, wrote_loud] at none
  · intro i m hp
    obtain ⟨-, start, le, bytes⟩ := sends.parked i m hp
    rw [log] at start bytes
    rw [wrote_loud] at bytes
    exact ⟨_, (mem_loud rfl).mp start, bytes, le⟩
  · intro p
    have order := sends.order p
    rwa [log, writers_loud] at order

/-! ## Sends that may wait -/

namespace Abs

/-- If call `c` is a send of some data that has been answered, it has written all of it, has failed
at once or has been interrupted. -/
def Whole (c : CallNo) (a : Abs) : Prop :=
  ∀ data (r : Int) e, .sendStart c data ∈ a.log → data ≠ [] → .reply c r e ∈ a.log →
    r = data.length ∨ (r = -1 ∧ e ≠ .ok) ∨ Interrupted a.log c

namespace Whole

/-- A longer log shows the same interruptions. -/
theorem interrupted_mono {l l' : List Event} (h : l ⊆ l') (hi : Interrupted l c) :
    Interrupted l' c := by
  rcases hi with ⟨e, he, hi⟩ | ⟨p, e, he⟩
  · exact Or.inl ⟨e, h he, hi⟩
  · exact Or.inr ⟨p, e, h he⟩

/-- Acts that neither start nor answer call `c`. -/
theorem mono (h : a.Whole c) (hl : a.log ⊆ a'.log)
    (hs : ∀ data, .sendStart c data ∈ a'.log → .sendStart c data ∈ a.log)
    (hr : ∀ r e, .reply c r e ∈ a'.log → .reply c r e ∈ a.log) : a'.Whole c :=
  fun data r e hd hn he =>
    (h data r e (hs data hd) hn (hr r e he)).imp_right (Or.imp_right (interrupted_mono hl))

/-- A call that is no send is answered. -/
theorem told {c' : CallNo} {r : Int} {e : Errno} (h : a.Whole c)
    (hc : ∀ data, .sendStart c' data ∉ a.log) (hlog : a'.log = .reply c' r e :: a.log) :
    a'.Whole c := by
  intro data r' e' hd hn he
  rw [hlog] at hd he ⊢
  have started : .sendStart c data ∈ a.log := (start_cons rfl).mp hd
  rcases List.mem_cons.mp he with he | he
  · cases he
    exact absurd started (hc data)
  · exact (h data r' e' started hn he).imp_right
      (Or.imp_right (interrupted_mono (List.subset_cons_self ..)))

/-- The acts on messages answer no send. -/
theorem msg (h : a.Whole c) (hs : a.Sends) (ha : MsgAct P a a') : a'.Whole c := by
  cases ha with
  | answer i k m r e hk hp =>
    refine h.told (hs.elsewhere (.slot i k) m hp fun j he => ?_) rfl
    cases he
    exact hk rfl
  | answerDns k m b r e hp =>
    have held : a.held (.dns k) = some m := by
      rw [Abs.held, hp]
      rfl
    exact h.told (hs.elsewhere (.dns k) m held fun j he => by cases he) rfl
  | answerStop m r e hp =>
    exact h.told (hs.elsewhere .stop m hp fun j he => by cases he) rfl
  | reply m r e hm hn => exact h.told (hs.plain m hm hn) rfl
  | _ => exact h

/-- The acts on sends, of which an answer to call `c` before all has been written is not one. -/
theorem send (h : a.Whole c) (hs : a.Sends) (ho : a.books.Once) (hP : ¬ P (.short c))
    (ha : SendAct P a a') : a'.Whole c := by
  have write : ∀ {p c' bs e} {x : Abs}, x.log = writeLog p c' bs e ++ a.log → x.Whole c :=
    fun {p c' bs e x} hlog => h.mono (by rw [hlog]; exact List.subset_append_right ..)
      (fun data hd => by
        rw [hlog] at hd
        rcases List.mem_append.mp hd with hd | hd
        · rcases mem_writeLog hd with ⟨b, he⟩ | ⟨e', he⟩
          · cases he
          · cases he
        · exact hd)
      (fun r e he => by
        rw [hlog] at he
        rcases List.mem_append.mp he with he | he
        · rcases mem_writeLog he with ⟨b, he⟩ | ⟨e', he⟩
          · cases he
          · cases he
        · exact he)
  cases ha with
  | start s hn hm hu hrf hdy hlen h0 hw hlast hbuf hl =>
    intro data r e hd hn' he
    have answered : .reply c r e ∈ a.log := (List.mem_cons.mp he).resolve_left fun h => by cases h
    rcases List.mem_cons.mp hd with hd | hd
    · -- the call that starts has not been answered
      cases hd
      exact absurd (replied_of_mem answered) (ho.unanswered s.m (Or.inl hm))
    · exact (h data r e hd hn' answered).imp_right
        (Or.imp_right (interrupted_mono (List.subset_cons_self ..)))
  | passed | park => exact h
  | write s p v v' bs e => exact write rfl
  | resume i m p v v' bs e => exact write rfl
  | finish i m e hm he =>
    intro data r e' hd hn hr
    have started : .sendStart c data ∈ a.log := (start_cons rfl).mp ((start_cons rfl).mp hd)
    have grown : a.log ⊆ .reply (a.callOf m) (sendResult (a.slot i).sendDone e).1
        (sendResult (a.slot i).sendDone e).2 :: .sendEnd (a.callOf m) e :: a.log :=
      fun x hx => List.mem_cons_of_mem _ (List.mem_cons_of_mem _ hx)
    rcases List.mem_cons.mp hr with hr | hr
    · -- the parked send is answered
      cases hr
      rcases he with he | he | ⟨p, e', he⟩
      · exact Or.inr (Or.inr (Or.inl ⟨e, by simp, he⟩))
      · obtain ⟨len, record⟩ := hs.parked i m hm
        obtain rfl := hs.unique _ _ _ started record.start
        have pos : 0 < (a.slot i).sendDone := by
          rw [he, ← len]
          exact List.length_pos_iff.mpr hn
        refine Or.inl ?_
        rw [sendResult, if_pos pos, he, len]
      · exact Or.inr (Or.inr (Or.inr ⟨p, e', grown he⟩))
    · have answered : .reply c r e' ∈ a.log :=
        (List.mem_cons.mp hr).resolve_left fun h => by cases h
      exact (h data r e' started hn answered).imp_right (Or.imp_right (interrupted_mono grown))
  | dropSend i m e hm hl =>
    exact h.mono (List.subset_cons_self ..) (fun data hd => (start_cons rfl).mp hd)
      fun r e he => (List.mem_cons.mp he).resolve_left fun h => by cases h
  | cut s e hs =>
    exact h.mono (List.subset_cons_self ..) (fun data hd => (start_cons rfl).mp hd)
      fun r e he => (List.mem_cons.mp he).resolve_left fun h => by cases h
  | reply s r e hsend hm hr hl =>
    intro data r' e' hd hn he
    have started : .sendStart c data ∈ a.log := (start_cons rfl).mp hd
    have grown : a.log ⊆ .reply (a.callOf s.m) r e :: a.log := List.subset_cons_self ..
    rcases List.mem_cons.mp he with he | he
    · cases he
      obtain ⟨len, record, -⟩ := hs.inHand s hsend
      obtain rfl := hs.unique _ _ _ started record.start
      rcases hl with hl | hl | hl | hl
      · exact Or.inl (by rw [hl, len])
      · exact Or.inr (Or.inl hl)
      · exact Or.inr (Or.inr (interrupted_mono grown hl))
      · exact absurd hl hP
    · exact (h data r' e' started hn he).imp_right (Or.imp_right (interrupted_mono grown))

/-- Every act keeps it. -/
theorem act (h : a.Whole c) (hs : a.Sound) (hP : ¬ P (.short c)) (ha : Act P a a') :
    a'.Whole c := by
  cases ha with
  | msg ha => exact h.msg hs.sends ha
  | send ha => exact h.send hs.sends hs.once hP ha
  | ref ha => cases ha <;> exact h
  | tcp ha => cases ha <;> exact h
  | rx ha => cases ha <;> exact h
  | sel ha =>
    cases ha with
    | signal i hu =>
      exact h.mono (List.subset_cons_self ..) (fun data hd => (start_cons rfl).mp hd)
        fun r e he => (List.mem_cons.mp he).resolve_left fun h => by cases h
    | _ => exact h
  | broken hn => exact absurd hs hn

end Whole

end Abs

/-- Call `c` is not a send that must not wait. -/
def Patient (c : CallNo) (w : World) (inp : Input) : Prop :=
  ∀ m x env, inp = .ipc m x env → w.calls = c → ¬ Hurried w x

/-- What a patient step may do. -/
theorem Patient.grants (h : Patient c w inp) : Grants (· ≠ .short c) Set.univ w inp where
  alter := Label.noConfusion
  clear := fun _ => Label.noConfusion
  stray := fun _ _ => Label.noConfusion
  drop := fun _ _ _ => Label.noConfusion
  overwrite := fun _ _ _ _ _ _ => Label.noConfusion
  dangle := fun _ _ _ _ _ => Label.noConfusion
  short := fun m x env he hh heq => h m x env he (Label.short.inj heq) hh
  strand := fun _ _ _ _ _ _ _ => Set.mem_univ _

/-- A send that may wait is answered with the length of its data, fails before it has written
anything, or is interrupted: by its timeout, `CANCEL`, an error of the connection, `SHUTDOWN` or
`CLOSE`. -/
theorem patient_whole (hr : Reach (Patient c) w) {data : List UInt8} {r : Int} {e : Errno}
    (hs : .sendStart c data ∈ w.trace) (hd : data ≠ []) (ha : .reply c r e ∈ w.trace) :
    (r = data.length ∧ wrote c w.trace = data) ∨
      (r = -1 ∧ e ≠ .ok ∧ wrote c w.trace = []) ∨ Interrupted w.trace c := by
  have whole : (abs (restTok Set.univ) w).Sound ∧ (abs (restTok Set.univ) w).Whole c :=
    hr.invariant (fun a => a.Whole c) (fun data r e h => by cases h)
      (fun w inp hok _ _ _ => ⟨(· ≠ .short c), hok.grants,
        fun a a' hs hi ha => hi.act hs (fun h => h rfl) ha⟩)
      (fun w cs _ _ hi => by
        obtain ⟨fd, dtab, he⟩ := abs_clientStep (restTok Set.univ) w cs
        rw [he]
        exact hi)
  obtain ⟨n, le, bytes, answer⟩ := whole.1.sends.all c data ((mem_loud rfl).mpr hs)
  have answer : SendAnswer data.length n r := answer r e ((mem_loud rfl).mpr ha)
  have log : (abs (restTok Set.univ) w).log = w.trace.filter Event.loud := rfl
  rw [log, wrote_loud] at bytes
  have len : 0 < data.length := List.length_pos_iff.mpr hd
  rcases whole.2 data r e ((mem_loud rfl).mpr hs) hd ((mem_loud rfl).mpr ha) with h | h | h
  · refine Or.inl ⟨h, ?_⟩
    -- the answer is the number of bytes written
    have all : n = data.length := by
      unfold SendAnswer at answer
      split at answer <;> omega
    rw [bytes, all, List.take_length]
  · refine Or.inr (Or.inl ⟨h.1, h.2, ?_⟩)
    have none : n = 0 := by
      unfold SendAnswer at answer
      split at answer <;> omega
    rw [bytes, none, List.take_zero]
  · refine Or.inr (Or.inr ?_)
    rcases h with ⟨e, he, hi⟩ | ⟨p, e, he⟩
    · exact Or.inl ⟨e, (mem_loud rfl).mp he, hi⟩
    · exact Or.inr ⟨p, e, (mem_loud rfl).mp he⟩

/-! ## A send that is split -/

/-- Steps that a policy allows are steps. -/
theorem Reach.reachable {ok : World → Input → Prop} (hr : Reach ok w) : Reachable w := by
  induction hr with
  | init => exact .init
  | step _ ha _ ih => exact .step ih ha trivial

/-- The client sends four bytes. -/
def sendMsg : TnIpcMsg :=
  { cmd := .send, socketBase := some 1, args := fun n => if n = 1 then 4 else 0,
    ptrs := fun _ => .mem fun n => UInt8.ofNat n }

/-- There is room for two of them, and later for the others. -/
def splitSend : World :=
  [.lwip [.sent 1 2 0] [], .ipc 1 sendMsg [], .lwip [.sent 1 100 0] []].foldl step streamClient

theorem splitSend_run (c : CallNo) : Reach (Patient c) splitSend := by
  have connected : Reach (Patient c) streamClient := streamClient_run fun w inp hc => by
    rintro m x env he - ⟨send, -⟩
    have cmd := hc m x env he
    rcases send with send | send | send <;> rw [send] at cmd <;> simp at cmd
  have narrow : Reach (Patient c) (step streamClient (.lwip [.sent 1 2 0] [])) :=
    .step connected trivial fun m x env he => by cases he
  have parked : Reach (Patient c) _ := narrow.request 1 sendMsg [] 1 (by decide) (by decide) rfl
    ⟨0, by decide⟩ fun m x env he _ hh => by
      cases he
      obtain ⟨-, i, hi, waits⟩ := hh
      have slot : some firstSlot = some i := hi
      cases slot
      exact absurd waits (by decide)
  have resumed : Reach (Patient c) (step _ (.lwip [.sent 1 100 0] [])) :=
    .step parked trivial fun m x env he => by cases he
  exact resumed

/-- Two calls of `tcp_write` on behalf of one send. -/
theorem reached_sends_split : writers 1 splitSend.trace = [3, 3] ∧ SendsExact splitSend :=
  ⟨by decide, reached_sends (splitSend_run 3).reachable⟩

theorem patient_whole_split : wrote 3 splitSend.trace = [0, 1, 2, 3] :=
  have started : .sendStart 3 [0, 1, 2, 3] ∈ splitSend.trace := by decide
  have answered : .reply 3 4 .ok ∈ splitSend.trace := by decide
  have ended := patient_whole (splitSend_run 3) started (by decide) answered
  ended.elim And.right fun h => by decide

end Tolunnet
