import Mathlib.Data.List.GetD
import Tolunnet.Calls.Memory
import Tolunnet.Lib.Tiling

/-!
# `Tolunnet.Calls.Scatter`: `recvmsg` along its iovec array

The copy loops of `tn_ipc_cmd_recvmsg` work with two cursors, one in the queue and one in the
iovec array. On the line of `Tolunnet.Lib.Tiling` the second one is a single number, and it is
always the number of bytes copied so far. So the loops pour the queue into the array, packet by
packet, until the array is full or the count reaches the 32-bit total of the lengths; `poured` is
that count. It is exact unless the lengths add up to more than 32 bits.
-/

set_option autoImplicit false

namespace Tolunnet

open World Tiling

/-! ## The array as a line -/

/-- The lengths of the entries. -/
def iovLens (iovs : List Iovec) : List Nat := iovs.map Iovec.iovLen

/-- The number of bytes the array has room for. -/
def iovRoom (iovs : List Iovec) : Nat := (iovLens iovs).sum

/-- The place of a position on the line. -/
def IovPos.place (iovs : List Iovec) (pos : IovPos) : Nat := before (iovLens iovs) pos.cur + pos.off

/-- The offset of a position is within its entry. -/
def IovPos.Within (iovs : List Iovec) (pos : IovPos) : Prop :=
  pos.off ≤ (iovLens iovs).getD pos.cur 0

/-- A piece of a packet as a piece of the line. -/
def IovChunk.piece (c : IovChunk) : Piece := { bin := c.iov, off := c.off, len := c.len }

variable {iovs : List Iovec} {pos : IovPos}

/-- The chunks and their pieces are as long. -/
theorem chunksLen_eq (l : List IovChunk) : chunksLen l = total (l.map IovChunk.piece) := by
  simp [chunksLen, total, Function.comp_def, IovChunk.piece]

/-- The length of a vector entry. -/
theorem getD_iovLens {k : Nat} {v : Iovec} (hv : iovs[k]? = some v) :
    (iovLens iovs).getD k 0 = v.iovLen := by
  simp [iovLens, hv]

/-- A position within the array is not past its end. -/
theorem IovPos.Within.place_le (hp : pos.Within iovs) : pos.place iovs ≤ iovRoom iovs := by
  have next := before_succ (iovLens iovs) pos.cur
  have bound := before_le_sum (iovLens iovs) (pos.cur + 1)
  unfold IovPos.Within at hp
  unfold IovPos.place iovRoom
  omega

/-- Behind the last entry the array is full. -/
theorem IovPos.Within.full (hp : pos.Within iovs) (hc : iovs.length ≤ pos.cur) :
    pos.place iovs = iovRoom iovs := by
  have all : before (iovLens iovs) pos.cur = iovRoom iovs :=
    before_of_length_le (by simpa [iovLens] using hc)
  have at_end : (iovLens iovs).getD pos.cur 0 = 0 := by simp [iovLens, hc]
  unfold IovPos.Within at hp
  unfold IovPos.place
  omega

/-- The first place is within the vector. -/
theorem IovPos.Within.start : ({} : IovPos).Within iovs := Nat.zero_le _

/-- The first place is 0. -/
theorem IovPos.place_start : ({} : IovPos).place iovs = 0 := by
  simp [IovPos.place]

/-- The copy loop takes what is there and what has room, and its pieces tile the line. -/
theorem scatter_spec (fuel : Nat) (pos : IovPos) (avail : Nat) (hp : pos.Within iovs)
    (hf : avail + (iovs.length - pos.cur) ≤ fuel) :
    Tiles (iovLens iovs) (pos.place iovs) ((scatter iovs fuel pos avail).1.map IovChunk.piece)
        ((scatter iovs fuel pos avail).2.place iovs) ∧
      (scatter iovs fuel pos avail).2.Within iovs ∧
      (scatter iovs fuel pos avail).2.place iovs
        = pos.place iovs + min avail (iovRoom iovs - pos.place iovs) := by
  induction fuel generalizing pos avail with
  | zero =>
    have none_left : avail = 0 := by omega
    exact ⟨.nil _, hp, by simp [scatter, none_left]⟩
  | succ fuel ih =>
    unfold scatter
    cases hv : iovs[pos.cur]? with
    | none =>
      have full := hp.full (List.getElem?_eq_none_iff.mp hv)
      exact ⟨.nil _, hp, by dsimp only; omega⟩
    | some v =>
      have inside : pos.cur < iovs.length := (List.getElem?_eq_some_iff.mp hv).1
      have len := getD_iovLens hv
      have off_le : pos.off ≤ v.iovLen := by rw [← len]; exact hp
      dsimp only
      split
      · exact ⟨.nil _, hp, by simp [*]⟩
      · rename_i some_left
        split
        · rename_i no_space
          -- the entry is used up: the next one starts at the same place
          have used : pos.off = v.iovLen := by
            unfold clip16 at no_space
            omega
          have same : ({ cur := pos.cur + 1 } : IovPos).place iovs = pos.place iovs := by
            unfold IovPos.place
            rw [before_succ, len, used, Nat.add_zero]
          have next := ih { cur := pos.cur + 1 } avail (Nat.zero_le _) (by dsimp only; omega)
          rw [same] at next
          exact next
        · rename_i space
          obtain ⟨chunk, hchunk⟩ : ∃ chunk, chunk = min avail (clip16 (v.iovLen - pos.off)) :=
            ⟨_, rfl⟩
          rw [← hchunk]
          unfold clip16 at space hchunk
          have fits : pos.off + chunk ≤ v.iovLen := by omega
          have moved : ({ pos with off := pos.off + chunk } : IovPos).place iovs
              = pos.place iovs + chunk := by
            unfold IovPos.place
            dsimp only
            omega
          have within : ({ pos with off := pos.off + chunk } : IovPos).Within iovs := by
            unfold IovPos.Within
            dsimp only
            omega
          have room := within.place_le
          obtain ⟨tiles, ends, place⟩ := ih { pos with off := pos.off + chunk } (avail - chunk)
            within (by dsimp only; omega)
          rw [moved] at tiles place room
          refine ⟨.cons ⟨rfl, ?_⟩ tiles, ends, by dsimp only; omega⟩
          rw [← len] at fits
          exact fits

/-- What is copied from a packet of `avail` bytes. -/
theorem scatterAll_spec (hp : pos.Within iovs) (avail : Nat) :
    Tiles (iovLens iovs) (pos.place iovs) ((scatterAll iovs pos avail).1.map IovChunk.piece)
        ((scatterAll iovs pos avail).2.place iovs) ∧
      (scatterAll iovs pos avail).2.Within iovs ∧
      (scatterAll iovs pos avail).2.place iovs
        = pos.place iovs + min avail (iovRoom iovs - pos.place iovs) :=
  scatter_spec _ pos avail hp (by omega)

/-- The pieces hold what there is, or what fits. -/
theorem chunksLen_scatterAll (hp : pos.Within iovs) (avail : Nat) :
    chunksLen (scatterAll iovs pos avail).1 = min avail (iovRoom iovs - pos.place iovs) := by
  obtain ⟨tiles, -, place⟩ := scatterAll_spec hp avail
  have total := tiles.total_eq
  rw [chunksLen_eq]
  omega

/-! ## What is written -/

/-- The writes `l` put the bytes `data` at the places `[a, b)` of the array of message `m`, and
nothing elsewhere. -/
def Fills (iovs : List Iovec) (m : MsgId) (a b : Nat) (data : Nat → UInt8) (l : List Output) :
    Prop :=
  ∀ (k : Nat) (f : Mem) (o : Nat), storedIov m k f l o =
    if o < (iovLens iovs).getD k 0 ∧ a ≤ before (iovLens iovs) k + o ∧
        before (iovLens iovs) k + o < b
    then data (before (iovLens iovs) k + o) else f o

section Fills

variable {m : MsgId} {a b c : Nat} {data data' : Nat → UInt8} {l l' : List Output}

/-- No chunk fills nothing. -/
theorem Fills.nil : Fills iovs m a a data [] := by
  intro k f o
  rw [if_neg (by omega)]
  rfl

/-- Two stretches that follow each other. -/
theorem Fills.append (h : Fills iovs m a b data l) (h' : Fills iovs m b c data l') (hab : a ≤ b)
    (hbc : b ≤ c) : Fills iovs m a c data (l' ++ l) := by
  intro k f o
  rw [storedIov_append, h' k, h k f o]
  split_ifs <;> first | rfl | omega

/-- Only the data in between counts. -/
theorem Fills.congr (h : Fills iovs m a b data l) (hd : ∀ x, a ≤ x → x < b → data x = data' x) :
    Fills iovs m a b data' l := by
  intro k f o
  rw [h k f o]
  split_ifs with hx
  · exact hd _ hx.2.1 hx.2.2
  · rfl

/-- Only the bytes that are written matter. -/
theorem Fills.take {bytes : List UInt8} {n : Nat} (hn : n ≤ bytes.length)
    (h : Fills iovs m 0 n (fun x => bytes.getD x 0) l) :
    Fills iovs m 0 (bytes.take n).length (fun x => (bytes.take n).getD x 0) l := by
  rw [List.length_take, Nat.min_eq_left hn]
  refine h.congr fun x _ hx => ?_
  simp only [List.getD_eq_getElem?_getD, List.getElem?_take, if_pos hx]

/-- The write of one piece. -/
theorem Fills.piece {bytes : List UInt8} {ch : IovChunk} (hc : ch.piece.At (iovLens iovs) a)
    (hb : bytes.length = ch.len) :
    Fills iovs m a (a + ch.len) (fun x => bytes.getD (x - a) 0)
      [.storeIov m ch.iov ch.off bytes] := by
  intro k f o
  have start : before (iovLens iovs) ch.iov + ch.off = a := hc.start
  simp only [storedIov, true_and]
  by_cases ho : o < (iovLens iovs).getD k 0
  · have covers := Piece.covers_iff hc ho
    simp only [Piece.Covers, IovChunk.piece] at covers
    by_cases hk : ch.iov = k
    · rw [if_pos hk, poke_apply, hb]
      by_cases hin : ch.off ≤ o ∧ o < ch.off + ch.len
      · have line := covers.mp ⟨hk, hin⟩
        rw [if_pos hin, if_pos ⟨ho, line⟩]
        subst hk
        congr 1
        omega
      · rw [if_neg hin, if_neg fun h => hin (covers.mpr h.2).2]
    · rw [if_neg hk, if_neg fun h => hk (covers.mpr h.2).1]
  · -- a place behind the end of the entry is in no piece
    simp only [ho, false_and, if_false]
    split_ifs with hk
    · have fits : ch.off + ch.len ≤ (iovLens iovs).getD ch.iov 0 := hc.fits
      rw [poke_apply, hb, if_neg]
      subst hk
      omega
    · rfl

end Fills

/-- The writes of `storeChunks`, the last one first. -/
def chunkWrites (m : MsgId) : List UInt8 → List IovChunk → List Output
  | _, [] => []
  | bytes, c :: l =>
    chunkWrites m (bytes.drop c.len) l ++ [.storeIov m c.iov c.off (bytes.take c.len)]

/-- The pieces are stored one after the other. -/
theorem storeChunks_eq (w : World) (m : MsgId) (bytes : List UInt8) (l : List IovChunk) :
    storeChunks w m bytes l = { w with output := chunkWrites m bytes l ++ w.output } := by
  induction l generalizing w bytes with
  | nil => rfl
  | cons c l ih =>
    rw [storeChunks, ih, chunkWrites, List.append_assoc]
    rfl

/-- The pieces of a packet carry its bytes in order. -/
theorem fills_chunkWrites {m : MsgId} {l : List IovChunk} {a b : Nat} {bytes : List UInt8}
    (ht : Tiles (iovLens iovs) a (l.map IovChunk.piece) b) (hb : b - a ≤ bytes.length) :
    Fills iovs m a b (fun x => bytes.getD (x - a) 0) (chunkWrites m bytes l) := by
  induction l generalizing a bytes with
  | nil =>
    cases ht
    exact .nil
  | cons c l ih =>
    cases ht with
    | cons hc ht =>
      have len_le : a + c.len ≤ b := ht.le
      have first : Fills iovs m a (a + c.len) (fun x => bytes.getD (x - a) 0)
          [.storeIov m c.iov c.off (bytes.take c.len)] := by
        refine (Fills.piece hc (by simp only [List.length_take]; omega)).congr fun x hx hx' => ?_
        simp only [List.getD_eq_getElem?_getD, List.getElem?_take]
        rw [if_pos (by omega)]
      have rest : Fills iovs m (a + c.len) b (fun x => bytes.getD (x - a) 0)
          (chunkWrites m (bytes.drop c.len) l) := by
        refine (ih ht (by simp only [List.length_drop, IovChunk.piece]; omega)).congr
          fun x hx hx' => ?_
        simp only [List.getD_eq_getElem?_getD, List.getElem?_drop, IovChunk.piece]
        congr 2
        simp only [IovChunk.piece] at hx
        omega
      exact first.append rest (Nat.le_add_right _ _) len_le

/-! ## The count -/

/-- The count of a loop that pours lots into `room` places and looks at the mark before each
lot. -/
def poured (mark room : Nat) : List Nat → Nat → Nat
  | [], copied => copied
  | a :: l, copied =>
    if copied < mark then poured mark room l (copied + min a (room - copied)) else copied

section Poured

variable {mark room copied : Nat} {l : List Nat}

/-- The bytes poured are no fewer than those copied. -/
theorem le_poured : copied ≤ poured mark room l copied := by
  induction l generalizing copied with
  | nil => exact Nat.le_refl _
  | cons a l ih =>
    unfold poured
    split
    · exact Nat.le_trans (Nat.le_add_right _ _) ih
    · exact Nat.le_refl _

/-- Nothing is counted twice. -/
theorem poured_le_add_sum (copied : Nat) : poured mark room l copied ≤ copied + l.sum := by
  induction l generalizing copied with
  | nil => exact Nat.le_refl _
  | cons a l ih =>
    unfold poured
    rw [List.sum_cons]
    split
    · have := ih (copied + min a (room - copied))
      omega
    · omega

/-- A full array takes nothing more. -/
theorem poured_full (hm : mark ≤ room) : poured mark room l room = room := by
  cases l with
  | nil => rfl
  | cons a l =>
    unfold poured
    rw [if_neg (by omega)]

/-- Every lot that has something to give and finds room starts below the mark. -/
def BelowMark (mark room : Nat) (l : List Nat) (copied : Nat) : Prop :=
  ∀ pre a post, l = pre ++ a :: post → 0 < a → copied + pre.sum < room → copied + pre.sum < mark

/-- A sum that fits in 32 bits stops nothing. -/
theorem belowMark_of_lt (hr : room < 2 ^ 32) : BelowMark (room % 2 ^ 32) room l copied := by
  rw [Nat.mod_eq_of_lt hr]
  exact fun _ _ _ _ _ below => below

/-- One piece and those after it. -/
theorem belowMark_cons {a : Nat} (hc : copied < mark) :
    BelowMark mark room (a :: l) copied ↔ BelowMark mark room l (copied + a) := by
  constructor
  · intro h pre b post hl hb hr
    have := h (a :: pre) b post (by rw [hl]; rfl) hb (by rw [List.sum_cons]; omega)
    rw [List.sum_cons] at this
    omega
  · intro h pre b post hl hb hr
    cases pre with
    | nil => simpa using hc
    | cons a' pre =>
      cases hl
      have := h pre b post rfl hb (by rw [List.sum_cons] at hr; omega)
      rw [List.sum_cons]
      omega

/-- Past the mark nothing more may be there to give. -/
theorem belowMark_past (hc : mark ≤ copied) (hr : copied < room) :
    BelowMark mark room l copied ↔ l.sum = 0 := by
  induction l with
  | nil => simp [BelowMark]
  | cons a l ih =>
    rcases Nat.eq_zero_or_pos a with rfl | ha
    · rw [List.sum_cons, Nat.zero_add, ← ih]
      constructor
      · intro h pre b post hl hb hr
        simpa using h (0 :: pre) b post (by rw [hl]; rfl) hb (by simpa using hr)
      · intro h pre b post hl hb hr
        cases pre with
        | nil =>
          cases hl
          cases hb
        | cons a' pre =>
          cases hl
          simpa using h pre b post rfl hb (by simpa using hr)
    · constructor
      · intro h
        have := h [] a l rfl ha (by simpa using hr)
        simp only [List.sum_nil] at this
        omega
      · intro h
        rw [List.sum_cons] at h
        omega

/-- The count is exact just when the mark stops no lot. -/
theorem poured_eq_iff (hm : mark ≤ room) (hc : copied ≤ room) :
    poured mark room l copied = min (copied + l.sum) room ↔ BelowMark mark room l copied := by
  induction l generalizing copied with
  | nil => simp [poured, BelowMark, hc]
  | cons a l ih =>
    unfold poured
    rw [List.sum_cons]
    split
    · rename_i below
      rcases Nat.lt_or_ge (room - copied) a with cut | whole
      · -- the lot is cut: the array is full
        have full : copied + min a (room - copied) = room := by omega
        rw [full, poured_full hm]
        refine iff_of_true (by omega) ?_
        intro pre b post hl hb hr
        cases pre with
        | nil => simpa using below
        | cons a' pre =>
          cases hl
          rw [List.sum_cons] at hr
          omega
      · rw [Nat.min_eq_left whole, belowMark_cons below, ← ih (by omega), Nat.add_assoc]
    · rename_i past
      rcases Nat.lt_or_ge copied room with has | full
      · rw [belowMark_past (Nat.le_of_not_lt past) has, List.sum_cons]
        omega
      · refine iff_of_true (by omega) ?_
        intro pre b post hl hb hr
        omega

end Poured

/-! ## The loops -/

section Loops

variable {mark : Nat} {m : MsgId}

/-- The guard of the copy loops is the mark alone. -/
theorem guard_iff (hm : mark ≤ iovRoom iovs) (hp : pos.Within iovs) :
    (pos.cur < iovs.length ∧ pos.place iovs < mark) ↔ pos.place iovs < mark := by
  refine ⟨And.right, fun below => ⟨Nat.lt_of_not_le fun past => ?_, below⟩⟩
  have full := hp.full past
  omega

/-- The bytes of a first segment and of those behind it, while nothing has been cut. -/
theorem Fills.cons_seg {copied c n : Nat} {seg : List UInt8} {segs : List (List UInt8)}
    {l l' : List Output} (hc : c ≤ seg.length)
    (h : Fills iovs m copied (copied + c) (fun x => seg.getD (x - copied) 0) l)
    (h' : Fills iovs m (copied + c) n (fun x => segs.flatten.getD (x - (copied + c)) 0) l')
    (hn : copied + c ≤ n) (hcut : c = seg.length ∨ n = copied + c) :
    Fills iovs m copied n (fun x => (seg :: segs).flatten.getD (x - copied) 0) (l' ++ l) := by
  have first : Fills iovs m copied (copied + c)
      (fun x => (seg :: segs).flatten.getD (x - copied) 0) l := by
    refine h.congr fun x hx hx' => ?_
    rw [List.flatten_cons, List.getD_append _ _ _ _ (by omega)]
  have rest : Fills iovs m (copied + c) n
      (fun x => (seg :: segs).flatten.getD (x - copied) 0) l' := by
    refine h'.congr fun x hx hx' => ?_
    rw [List.flatten_cons, List.getD_append_right _ _ _ _ (by omega)]
    congr 1
    omega
  exact first.append rest (Nat.le_add_right _ _) hn

/-- The peeking loop. -/
theorem recvmsgPeek_spec (hm : mark ≤ iovRoom iovs) (w : World) (segs : List (List UInt8))
    (pos : IovPos) (hp : pos.Within iovs) :
    ∃ l, recvmsgPeek iovs mark m w segs pos (pos.place iovs) =
        ({ w with output := l ++ w.output },
          poured mark (iovRoom iovs) (segs.map List.length) (pos.place iovs)) ∧
      Fills iovs m (pos.place iovs)
        (poured mark (iovRoom iovs) (segs.map List.length) (pos.place iovs))
        (fun x => segs.flatten.getD (x - pos.place iovs) 0) l := by
  induction segs generalizing w pos with
  | nil => exact ⟨[], rfl, .nil⟩
  | cons seg segs ih =>
    unfold recvmsgPeek
    simp only [List.map_cons, poured, guard_iff hm hp]
    split
    · obtain ⟨tiles, within, place⟩ := scatterAll_spec hp seg.length
      have count := chunksLen_scatterAll hp seg.length
      generalize scatterAll iovs pos seg.length = r at tiles within place count
      rw [count, ← place, storeChunks_eq]
      obtain ⟨l, run, fills⟩ := ih { w with output := chunkWrites m seg r.1 ++ w.output } r.2 within
      refine ⟨l ++ chunkWrites m seg r.1, ?_, ?_⟩
      · rw [run, List.append_assoc]
      · rw [place] at fills tiles ⊢
        refine Fills.cons_seg (Nat.min_le_left _ _) (fills_chunkWrites tiles (by omega)) fills
          le_poured ?_
        rcases Nat.le_total seg.length (iovRoom iovs - pos.place iovs) with whole | cut
        · exact .inl (Nat.min_eq_left whole)
        · have bound := hp.place_le
          have full : pos.place iovs + min seg.length (iovRoom iovs - pos.place iovs)
              = iovRoom iovs := by omega
          rw [full]
          exact .inr (poured_full hm)
    · exact ⟨[], rfl, .nil⟩

end Loops

/-! ## Consuming -/

/-- The queue after `n` bytes of its first packet were read. -/
def eat (n : Nat) : List TnRxPacket → List TnRxPacket
  | [] => []
  | pkt :: rest =>
    if pkt.p.length ≤ pkt.offset + n then rest
    else { pkt with offset := pkt.offset + n } :: rest

/-- The statements of one turn of the consuming loop: the window goes back once for a packet that
gave something. -/
def rxTake (w : World) (i : SlotIdx) (n : Nat) : World :=
  rxUnlink (if n > 0 then rxWindow (rxAdvance w i n) i n else rxAdvance w i n) i

section Consuming

variable {w : World} {i : SlotIdx} {n : Nat} {m : MsgId} {mark : Nat}

/-- A pcb's field is not output. -/
@[simp] theorem output_onFull (p : PcbId) (op : PcbOp) (f : TcpPcb → TcpPcb) :
    (w.onFull p op f).output = w.output := by
  unfold onFull
  split
  · split <;> rfl
  · rfl

/-- A pcb's field is not in the slots. -/
@[simp] theorem sockets_onFull (p : PcbId) (op : PcbOp) (f : TcpPcb → TcpPcb) :
    (w.onFull p op f).sockets = w.sockets := by
  unfold onFull
  split
  · split <;> rfl
  · rfl

/-- The window is not output. -/
@[simp] theorem output_rxWindow : (rxWindow w i n).output = w.output := by
  unfold rxWindow
  split
  · exact output_onFull ..
  · rfl

/-- The window leaves the queue. -/
theorem rx_rxWindow : ((rxWindow w i n).sockets i).rx = (w.sockets i).rx := by
  unfold rxWindow
  split
  · simp [tcpRecvedFor, modSlot, tcpRecved, readFull]
  · rfl

/-- Taking bytes is not output. -/
theorem output_rxTake : (rxTake w i n).output = w.output := by
  unfold rxTake rxUnlink
  split <;> simp [modSlot, rxAdvance]

/-- Advancing moves the offset of the head. -/
theorem rx_rxAdvance {pkt : TnRxPacket} {rest : List TnRxPacket} (h : (w.sockets i).rx = pkt :: rest) :
    ((rxAdvance w i n).sockets i).rx = { pkt with offset := pkt.offset + n } :: rest := by
  simp [rxAdvance, modSlot, h]

/-- A packet that is read to the end leaves the queue. -/
theorem rx_rxUnlink {pkt : TnRxPacket} {rest : List TnRxPacket}
    (h : (w.sockets i).rx = pkt :: rest) :
    ((rxUnlink w i).sockets i).rx = if pkt.p.length ≤ pkt.offset then rest else pkt :: rest := by
  simp only [rxUnlink, modSlot, Function.update_self, h]
  split <;> simp [h]

/-- One turn reads `n` bytes of the first packet. -/
theorem rx_rxTake {pkt : TnRxPacket} {rest : List TnRxPacket}
    (h : (w.sockets i).rx = pkt :: rest) : ((rxTake w i n).sockets i).rx = eat n (pkt :: rest) := by
  have advanced : ((if n > 0 then rxWindow (rxAdvance w i n) i n else rxAdvance w i n).sockets i).rx
      = { pkt with offset := pkt.offset + n } :: rest := by
    split
    · rw [rx_rxWindow, rx_rxAdvance h]
    · exact rx_rxAdvance h
  rw [rxTake, rx_rxUnlink advanced]
  rfl

/-- The bytes of a queue, packet by packet. -/
theorem rxBytes_cons (pkt : TnRxPacket) (rest : List TnRxPacket) :
    rxBytes (pkt :: rest) = pkt.rest ++ rxBytes rest := rfl

/-- What is left of the queue. -/
theorem eat_cons (pkt : TnRxPacket) (rest : List TnRxPacket) :
    eat n (pkt :: rest) =
      if pkt.p.length ≤ pkt.offset + n then rest
      else { pkt with offset := pkt.offset + n } :: rest := rfl

/-- What is left of a packet. -/
theorem length_rest (pkt : TnRxPacket) : pkt.rest.length = pkt.p.length - pkt.offset :=
  List.length_drop

/-- What is left of the queue after `n` bytes of its first packet. -/
theorem rxBytes_eat {pkt : TnRxPacket} (rest : List TnRxPacket) (hn : n ≤ pkt.rest.length) :
    rxBytes (eat n (pkt :: rest)) = (rxBytes (pkt :: rest)).drop n := by
  rw [rxBytes_cons, List.drop_append_of_le_length hn, eat_cons]
  split
  · rename_i done
    have all : pkt.rest.length ≤ n := by
      rw [length_rest]
      omega
    rw [List.drop_eq_nil_of_le all, List.nil_append]
  · rw [rxBytes_cons]
    simp [TnRxPacket.rest, List.drop_drop]

/-- A packet that gave everything is unlinked. -/
theorem eat_all {pkt : TnRxPacket} {rest : List TnRxPacket} (hn : pkt.rest.length ≤ n) :
    eat n (pkt :: rest) = rest := by
  rw [length_rest] at hn
  rw [eat_cons, if_pos (by omega)]

/-- One turn of the consuming loop. -/
theorem recvmsgTake_succ {pkt : TnRxPacket} {rest : List TnRxPacket} {copied : Nat} (fuel : Nat)
    (h : (w.sockets i).rx = pkt :: rest) (hg : pos.cur < iovs.length ∧ copied < mark) :
    recvmsgTake iovs mark m i (fuel + 1) w pos copied =
      recvmsgTake iovs mark m i fuel
        (rxTake (storeChunks w m pkt.rest (scatterAll iovs pos pkt.rest.length).1) i
          (chunksLen (scatterAll iovs pos pkt.rest.length).1))
        (scatterAll iovs pos pkt.rest.length).2
        (copied + chunksLen (scatterAll iovs pos pkt.rest.length).1) := by
  rw [recvmsgTake]
  simp only [h, if_pos hg]
  rfl

/-- The consuming loop. A packet that is cut stays at the head of the queue, and then the array is
full. -/
theorem recvmsgTake_spec (hm : mark ≤ iovRoom iovs) (fuel : Nat) (w : World) (pos : IovPos)
    (hp : pos.Within iovs) (hf : (w.sockets i).rx.length ≤ fuel ∨ mark ≤ pos.place iovs)
    {r : World × Nat} (hr : recvmsgTake iovs mark m i fuel w pos (pos.place iovs) = r) :
    r.2 = poured mark (iovRoom iovs) ((w.sockets i).rx.map fun pkt => pkt.rest.length)
        (pos.place iovs) ∧
      rxBytes (r.1.sockets i).rx = (rxBytes (w.sockets i).rx).drop (r.2 - pos.place iovs) ∧
      ∃ l, r.1.output = l ++ w.output ∧ Fills iovs m (pos.place iovs) r.2
        (fun x => (rxBytes (w.sockets i).rx).getD (x - pos.place iovs) 0) l := by
  have stopped : r = (w, pos.place iovs) →
      poured mark (iovRoom iovs) ((w.sockets i).rx.map fun pkt => pkt.rest.length) (pos.place iovs)
        = pos.place iovs →
      r.2 = poured mark (iovRoom iovs) ((w.sockets i).rx.map fun pkt => pkt.rest.length)
          (pos.place iovs) ∧
        rxBytes (r.1.sockets i).rx = (rxBytes (w.sockets i).rx).drop (r.2 - pos.place iovs) ∧
        ∃ l, r.1.output = l ++ w.output ∧ Fills iovs m (pos.place iovs) r.2
          (fun x => (rxBytes (w.sockets i).rx).getD (x - pos.place iovs) 0) l := by
    rintro rfl num
    exact ⟨num.symm, by simp, [], rfl, .nil⟩
  by_cases below : pos.place iovs < mark
  · cases fuel with
    | zero =>
      have empty : (w.sockets i).rx = [] :=
        List.length_eq_zero_iff.mp (Nat.le_zero.mp (hf.resolve_right (by omega)))
      exact stopped hr.symm (by rw [empty]; rfl)
    | succ fuel =>
      cases hq : (w.sockets i).rx with
      | nil =>
        rw [hq] at stopped
        refine stopped ?_ rfl
        rw [recvmsgTake] at hr
        simpa only [hq] using hr.symm
      | cons pkt rest =>
        obtain ⟨tiles, within, place⟩ := scatterAll_spec hp pkt.rest.length
        have count := chunksLen_scatterAll hp pkt.rest.length
        rw [recvmsgTake_succ fuel hq ((guard_iff hm hp).mpr below)] at hr
        generalize scatterAll iovs pos pkt.rest.length = s at tiles within place count hr
        generalize chunksLen s.1 = c at count hr
        have moved : s.2.place iovs = pos.place iovs + c := by rw [place, count]
        have c_le : c ≤ pkt.rest.length := by omega
        -- the queue and the writes after this turn
        obtain ⟨w1, hw1⟩ : ∃ w1, w1 = rxTake (storeChunks w m pkt.rest s.1) i c := ⟨_, rfl⟩
        have eaten : (w1.sockets i).rx = eat c (pkt :: rest) := by
          rw [hw1]
          exact rx_rxTake (by rw [storeChunks_eq]; exact hq)
        have wrote : w1.output = chunkWrites m pkt.rest s.1 ++ w.output := by
          rw [hw1, output_rxTake, storeChunks_eq]
        have left := rxBytes_eat rest c_le
        have room := hp.place_le
        have whole_or_full : pkt.rest.length ≤ c ∨ s.2.place iovs = iovRoom iovs := by omega
        have turns : (w1.sockets i).rx.length ≤ fuel ∨ mark ≤ s.2.place iovs := by
          rcases whole_or_full with whole | full
          · rw [hq] at hf
            rw [eaten, eat_all whole]
            exact .inl (Nat.le_of_succ_le_succ (hf.resolve_right (by omega)))
          · exact .inr (by omega)
        rw [← hw1, ← moved] at hr
        obtain ⟨num, queue, l, out, fills⟩ := recvmsgTake_spec hm fuel w1 s.2 within turns hr
        rw [eaten, left] at queue fills
        rw [eaten] at num
        have le_num : s.2.place iovs ≤ r.2 := by
          rw [num]
          exact le_poured
        refine ⟨?_, ?_, l ++ chunkWrites m pkt.rest s.1, by rw [out, wrote, List.append_assoc], ?_⟩
        · rw [num, List.map_cons, poured, if_pos below, ← count, ← moved]
          rcases whole_or_full with whole | full
          · rw [eat_all whole]
          · rw [full, poured_full hm, poured_full hm]
        · rw [queue, List.drop_drop]
          congr 1
          omega
        · rw [moved] at tiles fills le_num
          refine Fills.append (b := pos.place iovs + c) ?_ ?_ (Nat.le_add_right _ _) le_num
          · refine (fills_chunkWrites tiles (by omega)).congr fun x hx hx' => ?_
            rw [rxBytes_cons, List.getD_append _ _ _ _ (by omega)]
          · refine fills.congr fun x hx hx' => ?_
            rw [List.getD_eq_getElem?_getD, List.getElem?_drop, ← List.getD_eq_getElem?_getD]
            congr 1
            omega
  · have past : ∀ q : List Nat, poured mark (iovRoom iovs) q (pos.place iovs) = pos.place iovs := by
      intro q
      cases q with
      | nil => rfl
      | cons a q => rw [poured, if_neg below]
    refine stopped ?_ (past _)
    cases fuel with
    | zero => exact hr.symm
    | succ fuel =>
      rw [← hr, recvmsgTake]
      cases (w.sockets i).rx with
      | nil => rfl
      | cons pkt rest => simp only [below, and_false, if_false]
termination_by fuel

end Consuming

end Tolunnet
