import Mathlib.Algebra.BigOperators.Fin
import Tolunnet.Calls.Memory
import Tolunnet.Desk.Sound
import Tolunnet.Lib.WordSet
import Tolunnet.Shelf.Steps

/-!
# `Tolunnet.Calls.Select`: `SELECT_ARM` and `WAITSELECT`

Two handlers look for ready descriptors. `SELECT_ARM` takes the low words of the sets from its
arguments and leaves a selector behind when nothing is ready; `WAITSELECT` reads all words through
the pointers. Their scans are one function (`armScan_eq`), and `scan_spec` says what it finds.

A set is a `WordSet` of 32-bit words. The daemon evaluates at most two of them and clears the rest,
up to the word of the last descriptor asked for. It counts the words with `(nfds + 31) / 32` on a
LONG: from `2 ^ 31 - 31` descriptors on, the sum is negative and nothing is cleared.
-/

set_option autoImplicit false

namespace Tolunnet

open World WordSet

/-! ## Scans -/

/-- The question that set `k` asks about a slot. -/
def askReady (w : World) (k : Fin 3) (s : TnSocketSlot) : Bool :=
  match k with
  | 0 => tnSelectCanRead s
  | 1 => tnSelectCanWrite w s
  | 2 => tnSelectHasExcept s

/-- Whether descriptor `fd` of base `b` is open, and ready in the sense of set `k`. -/
def readyFd (w : World) (b : BaseId) (k : Fin 3) (fd : Nat) : Bool :=
  match tnSlotLookup w (some b) fd with
  | some i => askReady w k (w.sockets i)
  | none => false

/-- Set `k` of a select call. -/
def SelSets.set (q : SelSets) : Fin 3 → Nat × Nat
  | 0 => q.r
  | 1 => q.w
  | 2 => q.e

/-- Result set `k`. -/
def SelResult.set (r : SelResult) : Fin 3 → Nat × Nat
  | 0 => r.r
  | 1 => r.w
  | 2 => r.e

/-- A two-word set as words. -/
def twoWords (s : Nat × Nat) : Nat → Nat
  | 0 => s.1
  | 1 => s.2
  | _ => 0

variable {w w' : World} {m : MsgId} {b : BaseId} {q : SelSets}

/-- The two branches of the scan of `SELECT_ARM` are the one of `WAITSELECT`. -/
theorem armScanFd_eq (w : World) (b : BaseId) (q : SelSets) (acc : SelResult) (fd : Nat) :
    armScanFd w b q acc fd = selectScanFd w b q acc fd := by
  have high : (fd - 32) % 32 = fd % 32 ∨ fd < 32 := by omega
  unfold armScanFd selectScanFd maskBit putBit
  by_cases h : fd < 32
  · have h' : ¬ fd ≥ 32 := Nat.not_le.mpr h
    simp only [h, h', if_true, if_false, Nat.testBit_or]
  · have h' : fd ≥ 32 := Nat.not_lt.mp h
    simp only [h, h', if_true, if_false, Nat.testBit_or, high.resolve_right h]

/-- Both calls scan in the same way. -/
theorem armScan_eq (w : World) (b : BaseId) (q : SelSets) (n : Nat) :
    armScan w b q n = selectScan w b q n := by
  unfold armScan selectScan
  rw [show armScanFd w b q = selectScanFd w b q from
    funext fun acc => funext fun fd => armScanFd_eq w b q acc fd]

/-- The bit of a descriptor in two words. -/
theorem has_twoWords {s : Nat × Nat} {fd : Nat} (h : fd < 64) :
    has 32 (twoWords s) fd = maskBit s.1 s.2 fd := by
  unfold has maskBit
  split
  · rw [show fd / 32 = 1 by omega]
    rfl
  · rw [show fd / 32 = 0 by omega]
    rfl

/-- `putBit` adds its descriptor. -/
theorem has_putBit {s : Nat × Nat} {fd x : Nat} (h : fd < 64) (hx : x < 64) :
    has 32 (twoWords (putBit s fd)) x = (has 32 (twoWords s) x || decide (x = fd)) := by
  rw [has_twoWords hx, has_twoWords hx]
  unfold maskBit putBit
  have same : ∀ {x fd : Nat}, x / 32 = fd / 32 → (decide (fd % 32 = x % 32) = decide (x = fd)) :=
    fun {x fd} hword => by
      rw [decide_eq_decide]
      constructor
      · omega
      · rintro rfl
        rfl
  by_cases hf : fd ≥ 32 <;> by_cases hx32 : x ≥ 32 <;>
    simp only [hf, hx32, if_true, if_false, Nat.testBit_or, Nat.testBit_two_pow]
  · rw [same (by omega)]
  · rw [decide_eq_false (by omega), Bool.or_false]
  · rw [decide_eq_false (by omega), Bool.or_false]
  · rw [same (by omega)]

/-- The three assignments of the scan for a ready descriptor: `g k` says that set `k` gets it. -/
theorem scan_assignments (g : Fin 3 → Bool) (acc : SelResult) (fd : Nat) {res : SelResult}
    (h : (let acc := if g 0 = true then
            { acc with r := putBit acc.r fd, readyCnt := acc.readyCnt + 1 } else acc
          let acc := if g 1 = true then
            { acc with w := putBit acc.w fd, readyCnt := acc.readyCnt + 1 } else acc
          if g 2 = true then
            { acc with e := putBit acc.e fd, readyCnt := acc.readyCnt + 1 } else acc) = res) :
    (∀ k, res.set k = if g k = true then putBit (acc.set k) fd else acc.set k) ∧
      res.readyCnt = acc.readyCnt + ∑ k, (g k).toNat := by
  dsimp only at h
  rw [Fin.sum_univ_three]
  cases h0 : g 0 <;> cases h1 : g 1 <;> cases h2 : g 2 <;>
    simp only [h0, h1, h2, Bool.false_eq_true, if_true, if_false] at h
  all_goals
    subst h
    refine ⟨fun k => ?_, rfl⟩
    match k with
    | 0 => simp [SelResult.set, h0]
    | 1 => simp [SelResult.set, h1]
    | 2 => simp [SelResult.set, h2]

/-- What a descriptor of the scan adds to result set `k`, and to the count. -/
theorem selectScanFd_some {acc res : SelResult} {fd : Nat} (h : selectScanFd w b q acc fd = some res) :
    (∀ k, res.set k = if (maskBit (q.set k).1 (q.set k).2 fd && readyFd w b k fd) = true then
      putBit (acc.set k) fd else acc.set k) ∧
    res.readyCnt = acc.readyCnt +
      ∑ k, (maskBit (q.set k).1 (q.set k).2 fd && readyFd w b k fd).toNat := by
  unfold selectScanFd at h
  dsimp only at h
  split at h
  · split at h
    · cases h
    · rename_i i hi
      have ready : ∀ k, readyFd w b k fd = askReady w k (w.sockets i) := fun k => by
        unfold readyFd
        rw [hi]
      simp only [ready]
      exact scan_assignments (fun k => maskBit (q.set k).1 (q.set k).2 fd &&
        askReady w k (w.sockets i)) acc fd (Option.some.inj h)
  · rename_i idle
    obtain rfl : acc = res := Option.some.inj h
    have none : ∀ k, maskBit (q.set k).1 (q.set k).2 fd = false := fun k => by
      simp only [Bool.or_eq_true, not_or, Bool.not_eq_true] at idle
      match k with
      | 0 => exact idle.1.1
      | 1 => exact idle.1.2
      | 2 => exact idle.2
    simp [none]

/-- The scan stops at a descriptor that is asked for and not open. -/
theorem selectScanFd_isSome {acc : SelResult} {fd : Nat} :
    (selectScanFd w b q acc fd).isSome ↔
      ∀ k, maskBit (q.set k).1 (q.set k).2 fd = true → (tnSlotLookup w (some b) fd).isSome := by
  have any : (∃ k, maskBit (q.set k).1 (q.set k).2 fd = true) ↔
      (maskBit q.r.1 q.r.2 fd || maskBit q.w.1 q.w.2 fd || maskBit q.e.1 q.e.2 fd) = true := by
    simp only [Bool.or_eq_true, SelSets.set, Fin.exists_fin_succ]
    simp [or_assoc]
  have either : (∀ k, maskBit (q.set k).1 (q.set k).2 fd = true →
      (tnSlotLookup w (some b) fd).isSome) ↔
      ((∃ k, maskBit (q.set k).1 (q.set k).2 fd = true) → (tnSlotLookup w (some b) fd).isSome) :=
    ⟨fun h ⟨k, hk⟩ => h k hk, fun h k hk => h ⟨k, hk⟩⟩
  rw [either, any]
  unfold selectScanFd
  dsimp only
  cases tnSlotLookup w (some b) fd with
  | none =>
    split
    · rename_i asked
      simp [asked]
    · rename_i idle
      simp [idle]
  | some i => split <;> simp

/-- What the scan of `n` descriptors has found: the ready ones of those asked for, and their number.
-/
structure Scanned (w : World) (b : BaseId) (q : SelSets) (n : Nat) (res : SelResult) : Prop where
  has_set : ∀ k, ∀ x < 64, has 32 (twoWords (res.set k)) x =
    (decide (x < n) && (maskBit (q.set k).1 (q.set k).2 x && readyFd w b k x))
  count : res.readyCnt = ∑ k, ((Finset.range n).filter fun x =>
    (maskBit (q.set k).1 (q.set k).2 x && readyFd w b k x) = true).card

/-- The scan finds all ready descriptors, or meets one that is asked for and not open. The induction
is on the number of descriptors. -/
theorem selectScan_spec {n : Nat} (hn : n ≤ 64) :
    (∀ res, selectScan w b q n = some res → Scanned w b q n res) ∧
    ((selectScan w b q n).isSome ↔
      ∀ x < n, ∀ k, maskBit (q.set k).1 (q.set k).2 x = true →
        (tnSlotLookup w (some b) x).isSome) := by
  induction n with
  | zero =>
    refine ⟨fun res h => ?_, by simp [selectScan]⟩
    obtain rfl : {} = res := Option.some.inj h
    constructor
    · intro k x hx
      match k with
      | 0 | 1 | 2 => simp [has_twoWords hx, SelResult.set, maskBit]
    · simp
  | succ n ih =>
    obtain ⟨found, whole⟩ := ih (Nat.le_of_succ_le hn)
    -- One more descriptor is one more turn of the loop.
    have unrolled : selectScan w b q (n + 1) = (selectScan w b q n).bind fun acc =>
        selectScanFd w b q acc n := by
      unfold selectScan
      rw [List.range_succ, List.foldlM_append]
      simp
    have last : (∀ x < n + 1, ∀ k, maskBit (q.set k).1 (q.set k).2 x = true →
        (tnSlotLookup w (some b) x).isSome) ↔
        (∀ x < n, ∀ k, maskBit (q.set k).1 (q.set k).2 x = true →
          (tnSlotLookup w (some b) x).isSome) ∧
        ∀ k, maskBit (q.set k).1 (q.set k).2 n = true → (tnSlotLookup w (some b) n).isSome := by
      constructor
      · intro h
        exact ⟨fun x hx => h x (Nat.lt_succ_of_lt hx), h n (Nat.lt_succ_self n)⟩
      · rintro ⟨h, hn⟩ x hx
        rcases Nat.lt_succ_iff_lt_or_eq.mp hx with hx | rfl
        · exact h x hx
        · exact hn
    rw [unrolled, last, ← whole]
    cases hacc : selectScan w b q n with
    | none => simp
    | some acc =>
      obtain ⟨members, count⟩ := found acc hacc
      rw [Option.bind_some]
      refine ⟨fun res h => ?_, ?_⟩
      · obtain ⟨sets, added⟩ := selectScanFd_some h
        constructor
        · intro k x hx
          rw [sets k]
          -- The last descriptor, and those before it.
          rcases eq_or_ne x n with rfl | hne
          · split
            · rename_i got
              simp [has_putBit hx hx, got]
            · rename_i missed
              simp [members k x hx, missed]
          · have before : decide (x < n + 1) = decide (x < n) := by
              rw [decide_eq_decide]
              omega
            rw [before, ← members k x hx]
            split
            · rw [has_putBit (by omega) hx, decide_eq_false hne, Bool.or_false]
            · rfl
        · rw [added, count, ← Finset.sum_add_distrib]
          exact Finset.sum_congr rfl fun k _ => (card_filter_range_succ _ n).symm
      · rw [selectScanFd_isSome]
        simp

/-! ## Words of client memory -/

/-- A word that was stored. -/
theorem be32_poke (f : Mem) (j j' v : Nat) :
    be32 (poke f (4 * j) (bytes32 v)) (4 * j') = if j' = j then v % 2 ^ 32 else be32 f (4 * j') := by
  have len : (bytes32 v).length = 4 := rfl
  unfold be32 be16
  simp only [poke_apply, len]
  by_cases same : j' = j
  · subst same
    have byte : ∀ o < 4, (4 * j' ≤ 4 * j' + o ∧ 4 * j' + o < 4 * j' + 4) ∧ 4 * j' + o - 4 * j' = o :=
      fun o ho => ⟨by omega, by omega⟩
    have b0 := byte 0 (by decide)
    rw [Nat.add_zero] at b0
    rw [if_pos b0.1, if_pos (byte 1 (by decide)).1, if_pos (byte 2 (by decide)).1,
      if_pos (byte 3 (by decide)).1, b0.2, (byte 1 (by decide)).2, (byte 2 (by decide)).2,
      (byte 3 (by decide)).2, if_pos rfl]
    simp only [bytes32, List.getD_cons_zero, List.getD_cons_succ, UInt8.toNat_ofNat']
    omega
  · rw [if_neg same, if_neg (by omega), if_neg (by omega), if_neg (by omega), if_neg (by omega)]

/-- `w'` is `w` after writes that turn the words behind pointer `k`, whatever they were, by `g`. -/
def PutsWords (w w' : World) (m : MsgId) (k : Nat) (g : (Nat → Nat) → Nat → Nat) : Prop :=
  ∃ l, w' = { w with output := l ++ w.output } ∧
    ∀ f j, be32 (storedMem m k f l) (4 * j) = g (fun j => be32 f (4 * j)) j

namespace PutsWords

variable {w'' : World} {k : Nat} {g g' : (Nat → Nat) → Nat → Nat}

theorem refl (w : World) : PutsWords w w m k id := ⟨[], rfl, fun _ _ => rfl⟩

/-- Two steps that write words. -/
theorem trans (h : PutsWords w w' m k g) (h' : PutsWords w' w'' m k g') : PutsWords w w'' m k fun f => g' (g f) := by
  obtain ⟨l, rfl, words⟩ := h
  obtain ⟨l', rfl, words'⟩ := h'
  refine ⟨l' ++ l, by rw [List.append_assoc], fun f j => ?_⟩
  rw [storedMem_append, words']
  exact congrArg (fun f => g' f j) (funext fun j => words f j)

/-- A word stored behind the pointer. -/
theorem store (j v : Nat) : PutsWords w (w.store m k (4 * j) (bytes32 v)) m k fun f =>
    Function.update f j (v % 2 ^ 32) := by
  refine ⟨[.store m k (4 * j) (bytes32 v)], rfl, fun f j' => ?_⟩
  rw [storedMem_store, be32_poke]
  simp only [Function.update_apply]
  rfl

/-- A word stored behind another pointer. -/
theorem store_other {k' : Nat} (hk : k' ≠ k) (off : Nat) (bytes : List UInt8) :
    PutsWords w (w.store m k' off bytes) m k id := by
  refine ⟨[.store m k' off bytes], rfl, fun f j' => ?_⟩
  rw [storedMem_store_of_ne hk]
  rfl

/-- What is written depends on the words. -/
theorem congr (h : PutsWords w w' m k g) (hg : ∀ f j, g f j = g' f j) : PutsWords w w' m k g' := by
  obtain ⟨l, hl, words⟩ := h
  exact ⟨l, hl, fun f j => (words f j).trans (hg _ j)⟩

/-- A write behind another pointer comes first, or last. -/
theorem after (h : PutsWords w w' m k id) (h' : PutsWords w' w'' m k g) : PutsWords w w'' m k g := h.trans h'

/-- A step that writes nothing after it. -/
theorem before (h : PutsWords w w' m k g) (h' : PutsWords w' w'' m k id) : PutsWords w w'' m k g := h.trans h'

theorem msgs (h : PutsWords w w' m k g) : w'.msgs = w.msgs := by
  obtain ⟨l, rfl, -⟩ := h
  rfl

end PutsWords

section Results

variable {k k' : Nat} {f : Mem} {nfds reqNfds : Nat}

/-- The result words of a set. -/
theorem puts_fdsetPutResult (nfds : Nat) (hp : (w.msgs m).ptrs k = .mem f) (set : Nat × Nat) :
    PutsWords w (tnFdsetPutResult w m k set nfds) m k fun f j =>
      if j < firstTailWord nfds then twoWords set j % 2 ^ 32 else f j := by
  unfold tnFdsetPutResult firstTailWord
  rw [hp]
  dsimp only
  have low := PutsWords.store (w := w) (m := m) (k := k) 0 set.1
  split
  · have both := low.trans (.store 1 set.2)
    convert both using 3 with f j
    rcases j with _ | _ | j
    · simp [twoWords]
    · simp [twoWords]
    · simp
  · convert low using 3 with f j
    rcases j with _ | j
    · simp [twoWords]
    · simp

/-- The other sets stay. -/
theorem puts_fdsetPutResult_other (hk : k' ≠ k) (set : Nat × Nat) :
    PutsWords w (tnFdsetPutResult w m k' set nfds) m k id := by
  unfold tnFdsetPutResult
  split
  · dsimp only
    split
    · exact (PutsWords.store_other hk _ _).trans (.store_other hk _ _)
    · exact .store_other hk _ _
  · exact .refl w

/-- The words behind them, up to the last one asked for. -/
theorem puts_selectClearTail (nfds reqNfds : Nat) (hp : (w.msgs m).ptrs k = .mem f) :
    PutsWords w (tnSelectClearTail w m k nfds reqNfds) m k fun f j =>
      if firstTailWord nfds ≤ j ∧ j < tailWords reqNfds then 0 else f j := by
  unfold tnSelectClearTail
  rw [hp]
  dsimp only
  generalize tailWords reqNfds = n
  induction n with
  | zero =>
    exact (PutsWords.refl w).congr fun f j => (if_neg fun h => Nat.not_lt_zero j h.2).symm
  | succ n ih =>
    rw [List.range_succ, List.foldl_append, List.foldl_cons, List.foldl_nil]
    split
    · rename_i tail
      convert ih.trans (.store n 0) using 3 with f j
      simp only [Function.update_apply]
      split_ifs <;> omega
    · rename_i before
      convert ih using 3 with f j
      congr 1
      simp only [eq_iff_iff, and_congr_right_iff]
      omega

/-- So do their last words. -/
theorem puts_selectClearTail_other (hk : k' ≠ k) :
    PutsWords w (tnSelectClearTail w m k' nfds reqNfds) m k id := by
  unfold tnSelectClearTail
  split
  · generalize tailWords reqNfds = n
    induction n with
    | zero => exact .refl w
    | succ n ih =>
      rw [List.range_succ, List.foldl_append, List.foldl_cons, List.foldl_nil]
      split
      · exact ih.trans (.store_other hk _ _)
      · exact ih
  · exact .refl w

/-- Every set gets its result words. -/
theorem puts_results (nfds : Nat) (res : SelResult) (k : Fin 3) (hp : (w.msgs m).ptrs k = .mem f) :
    PutsWords w (tnFdsetPutResult (tnFdsetPutResult (tnFdsetPutResult w m 0 res.r nfds) m 1 res.w nfds)
      m 2 res.e nfds) m k fun f j =>
      if j < firstTailWord nfds then twoWords (res.set k) j % 2 ^ 32 else f j := by
  match k with
  | 0 =>
    have own := puts_fdsetPutResult nfds hp res.r
    exact (own.before (puts_fdsetPutResult_other (by decide) _)).before
      (puts_fdsetPutResult_other (by decide) _)
  | 1 =>
    have first : PutsWords w (tnFdsetPutResult w m 0 res.r nfds) m 1 id :=
      puts_fdsetPutResult_other (by decide) _
    have own := puts_fdsetPutResult nfds (by rw [first.msgs]; exact hp) res.w
    exact (first.after own).before (puts_fdsetPutResult_other (by decide) _)
  | 2 =>
    have first : PutsWords w (tnFdsetPutResult (tnFdsetPutResult w m 0 res.r nfds) m 1 res.w nfds) m 2 id :=
      (puts_fdsetPutResult_other (by decide) _).before (puts_fdsetPutResult_other (by decide) _)
    have own := puts_fdsetPutResult nfds (by rw [first.msgs]; exact hp) res.e
    exact first.after own

/-- Every set gets its tail cleared. -/
theorem puts_tails (k : Fin 3) (hp : (w.msgs m).ptrs k = .mem f) :
    PutsWords w (tnSelectClearTail (tnSelectClearTail (tnSelectClearTail w m 0 nfds reqNfds) m 1 nfds
      reqNfds) m 2 nfds reqNfds) m k fun f j =>
      if firstTailWord nfds ≤ j ∧ j < tailWords reqNfds then 0 else f j := by
  match k with
  | 0 =>
    have own := puts_selectClearTail nfds reqNfds hp
    exact (own.before (puts_selectClearTail_other (by decide))).before
      (puts_selectClearTail_other (by decide))
  | 1 =>
    have first : PutsWords w (tnSelectClearTail w m 0 nfds reqNfds) m 1 id :=
      puts_selectClearTail_other (by decide)
    have own := puts_selectClearTail nfds reqNfds
      (by rw [first.msgs]; exact hp)
    exact (first.after own).before (puts_selectClearTail_other (by decide))
  | 2 =>
    have first : PutsWords w (tnSelectClearTail (tnSelectClearTail w m 0 nfds reqNfds) m 1 nfds reqNfds)
        m 2 id :=
      (puts_selectClearTail_other (by decide)).before (puts_selectClearTail_other (by decide))
    have own := puts_selectClearTail nfds reqNfds
      (by rw [first.msgs]; exact hp)
    exact first.after own

/-- What a set holds after the reply. -/
theorem puts_putResults (res : SelResult) (k : Fin 3) (hp : (w.msgs m).ptrs k = .mem f) :
    PutsWords w (putResults w m res nfds reqNfds) m k fun f j =>
      if j < firstTailWord nfds then twoWords (res.set k) j % 2 ^ 32
      else if j < tailWords reqNfds then 0 else f j := by
  have put := puts_results nfds res k hp
  refine (put.trans (puts_tails k
    (by rw [put.msgs]; exact hp))).congr fun f j => ?_
  dsimp only
  split_ifs <;> first | rfl | omega

end Results

/-! ## The two calls -/

/-- A select request: the sets behind the pointers, their low words in the arguments as well. -/
structure AsksSelect (w : World) (m : MsgId) (b : BaseId) (nfds : Int) : Prop where
  base : (w.msgs m).socketBase = some b
  asks : (w.msgs m).args 0 = nfds
  long : nfds < 2 ^ 31
  low : ∀ k < 3, ((w.msgs m).args (k + 1) % 2 ^ 32).toNat = tnFdsetWordGet ((w.msgs m).ptrs k) 0

/-- The number of descriptors evaluated: `min(nfds, 64, dtablesize)`. -/
def evaluated (w : World) (b : BaseId) (nfds : Int) : Nat :=
  min (min nfds.toNat 64) (w.bases b).dtablesize

/-- The words up to the one that holds bit `nfds - 1`, at most 256 bits. -/
def fdWords (nfds : Int) : Nat := min ((nfds.toNat + 31) / 32) 8

/-- Whether set `k` of request `m` asks for descriptor `fd`. -/
def wanted (w : World) (m : MsgId) (k : Fin 3) (fd : Nat) : Bool :=
  has 32 (tnFdsetWordGet ((w.msgs m).ptrs k)) fd

/-- The words of set `k` after the writes `l`. -/
def wordAfter (w : World) (m : MsgId) (k : Fin 3) (l : List Output) (j : Nat) : Nat :=
  match (w.msgs m).ptrs k with
  | .mem f => be32 (storedMem m k f l) (4 * j)
  | _ => 0

/-- Set `k` as the caller finds it in state `w'`, up to the last word asked for. -/
def resultSet (w w' : World) (m : MsgId) (nfds : Int) (k : Fin 3) : Finset Nat :=
  members 32 (wordAfter w m k (added w w')) (fdWords nfds)

/-- Some descriptor is ready. -/
def SomeReady (w : World) (m : MsgId) (b : BaseId) (nfds : Int) : Prop :=
  ∃ fd < evaluated w b nfds, ∃ k, wanted w m k fd = true ∧ readyFd w b k fd = true

/-- Every descriptor asked for is open. -/
def AllOpen (w : World) (m : MsgId) (b : BaseId) (nfds : Int) : Prop :=
  ∀ fd < evaluated w b nfds, ∀ k, wanted w m k fd = true → (tnSlotLookup w (some b) fd).isSome

/-- The words behind the evaluated ones are empty. -/
def TailClean (w : World) (m : MsgId) (b : BaseId) (nfds : Int) : Prop :=
  ∀ k : Fin 3, ∀ j < 8, firstTailWord (evaluated w b nfds) ≤ j →
    tnFdsetWordGet ((w.msgs m).ptrs k) j = 0

/-- What a select call promises: the sets that come back hold some of the descriptors that were
evaluated and asked for, and as many as it says; an error changes nothing. -/
structure SelectReply (w : World) (m : MsgId) (b : BaseId) (nfds : Int) (w' : World) : Prop where
  subset : 0 < (w'.msgs m).result → ∀ k, ∀ fd ∈ resultSet w w' m nfds k,
    fd < evaluated w b nfds ∧ wanted w m k fd = true
  count : 0 < (w'.msgs m).result → (w'.msgs m).result = ∑ k, ((resultSet w w' m nfds k).card : Int)
  failed : (w'.msgs m).errNo ≠ .ok → (∀ k f, storedMem m k f (added w w') = f) ∧
    w'.selectors = w.selectors ∧ w'.selectorCount = w.selectorCount

/-- The two handlers agree, and each keeps its promise. -/
structure SelectsAlike (w : World) (m : MsgId) (b : BaseId) (nfds : Int) : Prop where
  same : SomeReady w m b nfds →
    ((tnIpcCmdSelectArm w m).1.msgs m).result = ((tnIpcCmdWaitselect w m).1.msgs m).result ∧
    ((tnIpcCmdSelectArm w m).1.msgs m).errNo = ((tnIpcCmdWaitselect w m).1.msgs m).errNo ∧
    ∀ k f, storedMem m k f (added w (tnIpcCmdSelectArm w m).1) =
      storedMem m k f (added w (tnIpcCmdWaitselect w m).1)
  armed : SelectReply w m b nfds (tnIpcCmdSelectArm w m).1
  waited : SelectReply w m b nfds (tnIpcCmdWaitselect w m).1

variable {nfds : Int}

/-- The sets that both handlers scan. -/
def askedSets (w : World) (m : MsgId) (n : Nat) : SelSets :=
  { r := (tnFdsetWordGet ((w.msgs m).ptrs 0) 0, hiWord ((w.msgs m).ptrs 0) n)
    w := (tnFdsetWordGet ((w.msgs m).ptrs 1) 0, hiWord ((w.msgs m).ptrs 1) n)
    e := (tnFdsetWordGet ((w.msgs m).ptrs 2) 0, hiWord ((w.msgs m).ptrs 2) n) }

/-- `WAITSELECT` by the scan. -/
theorem waitselect_eq (ha : AsksSelect w m b nfds) (hn : 0 ≤ nfds) :
    tnIpcCmdWaitselect w m =
      match selectScan w b (askedSets w m (evaluated w b nfds)) (evaluated w b nfds) with
      | none => fail w m .ebadf
      | some res => done (putResults w m res (evaluated w b nfds) nfds.toNat) m res.readyCnt .ok := by
  unfold tnIpcCmdWaitselect
  dsimp only
  rw [ha.base]
  dsimp only
  rw [ha.asks, if_neg (Int.not_lt.mpr hn)]
  rfl

/-- `SELECT_ARM` answers as `WAITSELECT` does unless nothing is ready. -/
theorem selectArm_eq (ha : AsksSelect w m b nfds) (hn : 0 ≤ nfds) (hs : w.selectors ≠ []) :
    ∃ idle : World × TnIpcReplyAction,
      (idle = fail w m .enobufs ∨ ∃ k sel, idle = done (armSelector w k sel) m 0 .ok) ∧
      tnIpcCmdSelectArm w m =
        match selectScan w b (askedSets w m (evaluated w b nfds)) (evaluated w b nfds) with
        | none => fail w m .ebadf
        | some res =>
          if res.readyCnt > 0 then
            done (putResults w m res (evaluated w b nfds) nfds.toNat) m res.readyCnt .ok
          else idle := by
  have sets : ({ r := (((w.msgs m).args 1 % 2 ^ 32).toNat,
                   hiWord ((w.msgs m).ptrs 0) (evaluated w b nfds)),
                 w := (((w.msgs m).args 2 % 2 ^ 32).toNat,
                   hiWord ((w.msgs m).ptrs 1) (evaluated w b nfds)),
                 e := (((w.msgs m).args 3 % 2 ^ 32).toNat,
                   hiWord ((w.msgs m).ptrs 2) (evaluated w b nfds)) } : SelSets) =
      askedSets w m (evaluated w b nfds) := by
    rw [ha.low 0 (by decide), ha.low 1 (by decide), ha.low 2 (by decide)]
    rfl
  unfold tnIpcCmdSelectArm
  dsimp only
  rw [ha.base]
  dsimp only
  rw [if_neg hs, ha.asks, if_neg (Int.not_lt.mpr hn),
    show tnSelectClampNfds w b nfds.toNat = evaluated w b nfds from rfl, sets, armScan_eq]
  cases findSelector w.selectors b with
  | none => exact ⟨_, .inl rfl, rfl⟩
  | some k => exact ⟨_, .inr ⟨k, _, rfl⟩, rfl⟩

/-- A refusal. -/
theorem selectReply_fail {e : Errno} : SelectReply w m b nfds (fail w m e).1 := by
  have result : ((fail w m e).1.msgs m).result = -1 := by
    simp [fail, done, World.setReply, modMsg]
  have nothing : added w (fail w m e).1 = [] := added_of_append rfl
  constructor
  · rw [result]
    intro h
    exact absurd h (by decide)
  · rw [result]
    intro h
    exact absurd h (by decide)
  · rw [nothing]
    exact fun _ => ⟨fun _ _ => rfl, rfl, rfl⟩

/-- A reply of 0 promises nothing. -/
theorem selectReply_zero : SelectReply w m b nfds (done w' m 0 .ok).1 := by
  have reply : ((done w' m 0 .ok).1.msgs m).result = 0 ∧ ((done w' m 0 .ok).1.msgs m).errNo = .ok := by
    simp [done, World.setReply, modMsg]
  constructor
  · rw [reply.1]
    intro h
    exact absurd h (by decide)
  · rw [reply.1]
    intro h
    exact absurd h (by decide)
  · exact fun h => absurd reply.2 h

/-- The scan reads the sets that are asked for. -/
theorem maskBit_askedSets {n x : Nat} (k : Fin 3) (hx : x < n) (hn : n ≤ 64) :
    maskBit ((askedSets w m n).set k).1 ((askedSets w m n).set k).2 x = wanted w m k x := by
  have bit : ∀ p : Ptr, maskBit (tnFdsetWordGet p 0) (hiWord p n) x = has 32 (tnFdsetWordGet p) x := by
    intro p
    unfold maskBit hiWord has
    split
    · rw [if_pos (by omega), show x / 32 = 1 by omega]
    · rw [show x / 32 = 0 by omega]
  match k with
  | 0 => exact bit _
  | 1 => exact bit _
  | 2 => exact bit _

/-- What is looked at. -/
theorem evaluated_le (w : World) (b : BaseId) (nfds : Int) :
    evaluated w b nfds ≤ 64 ∧ evaluated w b nfds ≤ nfds.toNat := by
  unfold evaluated
  omega

/-- A bit of a set after the reply. -/
theorem has_wordAfter {res : SelResult} {n req x : Nat} {w1 : World} (k : Fin 3) (hn : n ≤ 64)
    (hres : Scanned w b (askedSets w m n) n res)
    (hw : w1 = (done (putResults w m res n req) m res.readyCnt .ok).1) :
    has 32 (wordAfter w m k (added w w1)) x =
      if x / 32 < firstTailWord n then decide (x < n) && (wanted w m k x && readyFd w b k x)
      else if x / 32 < tailWords req then false else wanted w m k x := by
  have small : x / 32 < firstTailWord n → x < 64 := by
    unfold firstTailWord
    split <;> omega
  cases hp : (w.msgs m).ptrs k with
  | mem f =>
    obtain ⟨l, hl, words⟩ := puts_putResults res k hp
    have writes : added w w1 = l := added_of_append (by rw [hw, done]; exact congrArg World.output hl)
    have word : wordAfter w m k (added w w1) (x / 32) = be32 (storedMem m k f l) (4 * (x / 32)) := by
      rw [writes, wordAfter, hp]
    have asked : wanted w m k x = (be32 f (4 * (x / 32))).testBit (x % 32) := by
      rw [wanted, hp]
      rfl
    rw [has, word, words]
    dsimp only
    split
    · rename_i evaluated
      have bit : (twoWords (res.set k) (x / 32) % 2 ^ 32).testBit (x % 32) =
          has 32 (twoWords (res.set k)) x := by
        rw [Nat.testBit_mod_two_pow, decide_eq_true (Nat.mod_lt x (by decide)), Bool.true_and, has]
      rw [bit, hres.has_set k x (small evaluated)]
      by_cases hx : x < n
      · rw [maskBit_askedSets k hx hn]
      · simp [hx]
    · split
      · exact Nat.zero_testBit _
      · exact asked.symm
  | _ =>
    have empty : has 32 (wordAfter w m k (added w w1)) x = false := by
      rw [has, wordAfter, hp]
      exact Nat.zero_testBit _
    have idle : wanted w m k x = false := by
      rw [wanted, hp]
      exact Nat.zero_testBit _
    simp [empty, idle]

/-- The words that are counted on a LONG. -/
theorem tailWords_eq {req : Nat} (h : req + 31 < 2 ^ 31) : tailWords req = fdWords req := by
  unfold tailWords fdWords toLong
  rw [Nat.mod_eq_of_lt (by omega), if_pos (by omega), Int.tdiv_eq_ediv_of_nonneg (by omega)]
  omega

/-- The sum overflows. -/
theorem tailWords_overflow {req : Nat} (h : 2 ^ 31 ≤ req + 31) (hr : req < 2 ^ 31) :
    tailWords req = 0 := by
  unfold tailWords toLong
  have negative : ((req + 31 : Nat) : Int) - 2 ^ 32 = -(2 ^ 32 - (req + 31 : Nat) : Nat) := by omega
  rw [Nat.mod_eq_of_lt (by omega), if_neg (by omega), negative, Int.neg_tdiv,
    Int.tdiv_eq_ediv_of_nonneg (by omega)]
  omega

section Reply

variable {res : SelResult} {w1 : World}

/-- The set that comes back, unless words behind the evaluated ones were left as they are. -/
theorem resultSet_eq (hn : 0 ≤ nfds)
    (hc : nfds + 31 < 2 ^ 31 ∨ TailClean w m b nfds)
    (hres : Scanned w b (askedSets w m (evaluated w b nfds)) (evaluated w b nfds) res)
    (hw : w1 = (done (putResults w m res (evaluated w b nfds) nfds.toNat) m res.readyCnt .ok).1)
    (k : Fin 3) :
    resultSet w w1 m nfds k = (Finset.range (evaluated w b nfds)).filter fun x =>
      (wanted w m k x && readyFd w b k x) = true := by
  obtain ⟨le64, le_nfds⟩ := evaluated_le w b _
  ext x
  rw [resultSet, mem_members, has_wordAfter k le64 hres hw, Finset.mem_filter, Finset.mem_range]
  have covers : x < evaluated w b nfds → x / 32 < firstTailWord (evaluated w b nfds) ∧
      x < 32 * fdWords nfds := fun hx => by
    unfold firstTailWord fdWords
    split <;> omega
  by_cases first : x / 32 < firstTailWord (evaluated w b nfds)
  · rw [if_pos first]
    simp only [Bool.and_eq_true, decide_eq_true_eq]
    exact ⟨And.right, fun h => ⟨(covers h.1).2, h⟩⟩
  · have outside : ¬ x < evaluated w b nfds := fun hx => first (covers hx).1
    rw [if_neg first]
    constructor
    · rintro ⟨within, left⟩
      exfalso
      split at left
      · cases left
      · rename_i tail
        rcases hc with fits | clean
        · rw [tailWords_eq (by omega)] at tail
          unfold fdWords at tail within
          omega
        · have word := clean k (x / 32) (by unfold fdWords at within; omega) (Nat.not_lt.mp first)
          rw [wanted, has, word, Nat.zero_testBit] at left
          cases left
    · exact fun h => absurd h.1 outside

/-- The reply keeps its promise when the words behind the evaluated ones are dealt with. -/
theorem selectReply_results (hn : 0 ≤ nfds)
    (hc : nfds + 31 < 2 ^ 31 ∨ TailClean w m b nfds)
    (hres : Scanned w b (askedSets w m (evaluated w b nfds)) (evaluated w b nfds) res)
    (hw : w1 = (done (putResults w m res (evaluated w b nfds) nfds.toNat) m res.readyCnt .ok).1) :
    SelectReply w m b nfds w1 := by
  have sets := resultSet_eq hn hc hres hw
  have le64 := (evaluated_le w b nfds).1
  have reply : (w1.msgs m).result = res.readyCnt ∧ (w1.msgs m).errNo = .ok := by
    subst hw
    simp [done, World.setReply, modMsg]
  constructor
  · intro _ k fd hfd
    rw [sets k] at hfd
    obtain ⟨lt, got⟩ := Finset.mem_filter.mp hfd
    exact ⟨Finset.mem_range.mp lt, (Bool.and_eq_true _ _ ▸ got).1⟩
  · intro _
    rw [reply.1, hres.count]
    push_cast
    refine Finset.sum_congr rfl fun k _ => ?_
    rw [sets k]
    congr 2
    refine Finset.filter_congr fun x hx => ?_
    rw [maskBit_askedSets k (Finset.mem_range.mp hx) le64]
  · exact fun h => absurd reply.2 h

/-- It does not when the number of words overflows and one of them was not empty. -/
theorem not_selectReply_results (ha : AsksSelect w m b nfds)
    (hlong : ¬ nfds + 31 < 2 ^ 31) (hc : ¬ TailClean w m b nfds)
    (hres : Scanned w b (askedSets w m (evaluated w b nfds)) (evaluated w b nfds) res)
    (hpos : 0 < res.readyCnt)
    (hw : w1 = (done (putResults w m res (evaluated w b nfds) nfds.toNat) m res.readyCnt .ok).1) :
    ¬ SelectReply w m b nfds w1 := by
  intro reply
  have le64 := (evaluated_le w b nfds).1
  have long := ha.long
  unfold TailClean at hc
  push Not at hc
  obtain ⟨k, j, hj, first, dirty⟩ := hc
  have word : tnFdsetWordGet ((w.msgs m).ptrs k) j < 2 ^ 32 := by
    unfold tnFdsetWordGet
    split
    · rename_i f _
      have h0 := (f (4 * j)).toNat_lt
      have h1 := (f (4 * j + 1)).toNat_lt
      have h2 := (f (4 * j + 2)).toNat_lt
      have h3 := (f (4 * j + 2 + 1)).toNat_lt
      unfold be32 be16
      omega
    · decide
  obtain ⟨x, hx, bit⟩ := exists_has (b := 32) (by decide) word dirty
  have positive : 0 < (w1.msgs m).result := by
    subst hw
    simpa [done, World.setReply, modMsg] using hpos
  have left : x ∈ resultSet w w1 m nfds k := by
    rw [resultSet, mem_members, has_wordAfter k le64 hres hw, if_neg (by omega),
      tailWords_overflow (by omega) (by omega), if_neg (by omega)]
    refine ⟨?_, bit⟩
    unfold fdWords
    omega
  have := (reply.subset positive k x left).1
  unfold firstTailWord at first
  split at first <;> omega

end Reply

/-- The count is positive when some descriptor is ready. -/
theorem readyCnt_pos {res : SelResult}
    (hres : Scanned w b (askedSets w m (evaluated w b nfds)) (evaluated w b nfds) res) :
    0 < res.readyCnt ↔ SomeReady w m b nfds := by
  have le64 := (evaluated_le w b nfds).1
  rw [hres.count, Nat.pos_iff_ne_zero, Ne, Finset.sum_eq_zero_iff]
  unfold SomeReady
  constructor
  · intro some_set
    by_contra none
    push Not at none
    refine some_set fun k _ => Finset.card_eq_zero.mpr (Finset.filter_eq_empty_iff.mpr fun x hx => ?_)
    rw [maskBit_askedSets k (Finset.mem_range.mp hx) le64, Bool.and_eq_true]
    exact fun ⟨asked, ready⟩ => none x (Finset.mem_range.mp hx) k asked ready
  · rintro ⟨x, hx, k, asked, ready⟩ all_empty
    have empty := Finset.filter_eq_empty_iff.mp
      (Finset.card_eq_zero.mp (all_empty k (Finset.mem_univ k))) (Finset.mem_range.mpr hx)
    rw [maskBit_askedSets k hx le64, asked, ready] at empty
    exact empty rfl

/-- The scan comes to its end when every descriptor asked for is open. -/
theorem selectScan_isSome :
    (selectScan w b (askedSets w m (evaluated w b nfds)) (evaluated w b nfds)).isSome ↔
      AllOpen w m b nfds := by
  have le64 := (evaluated_le w b nfds).1
  rw [(selectScan_spec le64).2]
  constructor
  · intro h x hx k asked
    exact h x hx k (by rw [maskBit_askedSets k hx le64, asked])
  · intro h x hx k asked
    exact h x hx k (by rw [← maskBit_askedSets k hx le64, asked])

/-- A request that asks for nothing is refused by both. -/
theorem selectsAlike_negative (ha : AsksSelect w m b nfds) (hn : nfds < 0) :
    SelectsAlike w m b nfds ∧ ¬ SomeReady w m b nfds := by
  have armed : ∃ e, tnIpcCmdSelectArm w m = fail w m e := by
    unfold tnIpcCmdSelectArm
    dsimp only
    rw [ha.base]
    dsimp only
    rw [ha.asks, if_pos hn]
    split
    · exact ⟨_, rfl⟩
    · exact ⟨_, rfl⟩
  have waited : tnIpcCmdWaitselect w m = fail w m .einval := by
    unfold tnIpcCmdWaitselect
    dsimp only
    rw [ha.base]
    dsimp only
    rw [ha.asks, if_pos hn]
  have idle : ¬ SomeReady w m b nfds := by
    rintro ⟨fd, hfd, -⟩
    unfold evaluated at hfd
    omega
  obtain ⟨e, armed⟩ := armed
  refine ⟨⟨fun h => absurd h idle, ?_, ?_⟩, idle⟩
  · rw [armed]
    exact selectReply_fail
  · rw [waited]
    exact selectReply_fail

/-- Without a selector table `SELECT_ARM` refuses everything. -/
theorem selectArm_noTable (ha : AsksSelect w m b nfds) (hs : w.selectors = []) :
    tnIpcCmdSelectArm w m = fail w m .enobufs := by
  unfold tnIpcCmdSelectArm
  dsimp only
  rw [ha.base]
  dsimp only
  rw [if_pos hs]

theorem errNo_done (r : Int) (e : Errno) : ((done w' m r e).1.msgs m).errNo = e := by
  simp [done, World.setReply, modMsg]

/-- Two replies that are the same reply. -/
theorem selectsAlike_of_eq (he : tnIpcCmdSelectArm w m = tnIpcCmdWaitselect w m) :
    SelectsAlike w m b nfds ↔ SelectReply w m b nfds (tnIpcCmdWaitselect w m).1 := by
  constructor
  · exact SelectsAlike.waited
  · intro reply
    exact ⟨fun _ => by simp [he], by rw [he]; exact reply, reply⟩

/-- The two handlers agree and keep their promise, for every request, if and only if the daemon has
a selector table and either the number of words does not overflow or the words behind the evaluated
ones are empty. (When nothing is ready, or a descriptor that is asked for is not open, the words do
not matter.) -/
theorem selectsAlike_iff (ha : AsksSelect w m b nfds) :
    SelectsAlike w m b nfds ↔
      (SomeReady w m b nfds → w.selectors ≠ [] ∧
        (AllOpen w m b nfds → nfds + 31 < 2 ^ 31 ∨ TailClean w m b nfds)) := by
  rcases Int.lt_or_le nfds 0 with negative | hn
  · obtain ⟨alike, idle⟩ := selectsAlike_negative ha negative
    exact ⟨fun _ h => absurd h idle, fun _ => alike⟩
  have le64 := (evaluated_le w b nfds).1
  have found := (selectScan_spec (w := w) (b := b) (q := askedSets w m (evaluated w b nfds)) le64).1
  have opened : (selectScan w b (askedSets w m (evaluated w b nfds)) (evaluated w b nfds)).isSome ↔
      AllOpen w m b nfds := selectScan_isSome
  have waits := waitselect_eq ha hn
  by_cases hs : w.selectors = []
  · -- the one refuses, the other scans
    have arms := selectArm_noTable ha hs
    have other : ((tnIpcCmdWaitselect w m).1.msgs m).errNo ≠ .enobufs := by
      rw [waits]
      split
      · rw [fail, errNo_done]
        decide
      · rw [errNo_done]
        decide
    constructor
    · intro alike ready
      have same := (alike.same ready).2.1
      rw [arms, fail, errNo_done] at same
      exact absurd same.symm other
    · intro h
      have idle : ¬ SomeReady w m b nfds := fun ready => (h ready).1 hs
      refine ⟨fun ready => absurd ready idle, by rw [arms]; exact selectReply_fail, ?_⟩
      rw [waits]
      split
      · exact selectReply_fail
      · rename_i res hscan
        have zero : res.readyCnt = 0 := Nat.eq_zero_of_not_pos fun hpos =>
          idle ((readyCnt_pos (found res hscan)).mp hpos)
        rw [zero]
        exact selectReply_zero
  obtain ⟨idle, hidle, arms⟩ := selectArm_eq ha hn hs
  cases hscan : selectScan w b (askedSets w m (evaluated w b nfds)) (evaluated w b nfds) with
  | none =>
    rw [hscan] at arms waits opened
    have closed : ¬ AllOpen w m b nfds := fun h => by simpa using opened.mpr h
    rw [selectsAlike_of_eq (arms.trans waits.symm), waits]
    exact ⟨fun _ _ => ⟨hs, fun h => absurd h closed⟩, fun _ => selectReply_fail⟩
  | some res =>
    rw [hscan] at arms waits opened
    dsimp only at arms waits
    have ready := readyCnt_pos (found res hscan)
    have all_open : AllOpen w m b nfds := opened.mp rfl
    by_cases hpos : 0 < res.readyCnt
    · rw [if_pos hpos] at arms
      rw [selectsAlike_of_eq (arms.trans waits.symm), waits]
      constructor
      · intro reply _
        refine ⟨hs, fun _ => ?_⟩
        by_contra spilt
        obtain ⟨long, dirty⟩ := not_or.mp spilt
        exact not_selectReply_results ha long dirty (found res hscan) hpos rfl reply
      · intro h
        exact selectReply_results hn ((h (ready.mp hpos)).2 all_open) (found res hscan) rfl
    · have none_ready : ¬ SomeReady w m b nfds := fun h => hpos (ready.mpr h)
      have zero : res.readyCnt = 0 := Nat.eq_zero_of_not_pos hpos
      rw [if_neg hpos] at arms
      refine ⟨fun _ h => absurd h none_ready, fun _ => ⟨fun h => absurd h none_ready, ?_, ?_⟩⟩
      · rw [arms]
        rcases hidle with rfl | ⟨k, sel, rfl⟩
        · exact selectReply_fail
        · exact selectReply_zero
      · rw [waits, zero]
        exact selectReply_zero

/-- It asks whether it can write to descriptor 0. Its set goes on with ones from the third word. -/
def selectMsg (nfds : Int) : TnIpcMsg :=
  { cmd := .selectArm, socketBase := some 1,
    args := fun n => if n = 0 then nfds else if n = 2 then 1 else 0,
    ptrs := fun n => if n = 1 then .mem fun o => if o = 3 ∨ 8 ≤ o then 1 else 0 else .null }

theorem asksSelect_selectMsg {nfds : Int} (hn : nfds < 2 ^ 31) :
    AsksSelect (arrived dgramClient 1 (selectMsg nfds) []) 1 1 nfds := by
  refine ⟨by rw [msgs_arrived]; rfl, by rw [msgs_arrived]; rfl, hn, fun k hk => ?_⟩
  rw [msgs_arrived]
  match k with
  | 0 => rfl
  | 1 => rfl
  | 2 => rfl

/-- A hundred descriptors: both say that one is ready. -/
theorem selectsAlike_iff_hundred :
    SelectsAlike (arrived dgramClient 1 (selectMsg 100) []) 1 1 100 :=
  (selectsAlike_iff (asksSelect_selectMsg (by decide))).mpr fun _ =>
    ⟨by decide, fun _ => .inl (by decide)⟩

/-- `2 ^ 31 - 1` descriptors: the ones in the third word come back. -/
theorem not_forall_selectsAlike :
    ¬ ∀ w, Reachable w → ∀ m x env b nfds, AsksSelect (arrived w m x env) m b nfds →
      SelectsAlike (arrived w m x env) m b nfds := by
  intro hall
  have alike := hall _ dgramClient_reach 1 (selectMsg (2 ^ 31 - 1)) [] 1 (2 ^ 31 - 1)
    (asksSelect_selectMsg (by decide))
  have left : 64 ∈ resultSet (arrived dgramClient 1 (selectMsg (2 ^ 31 - 1)) [])
      (tnIpcCmdWaitselect (arrived dgramClient 1 (selectMsg (2 ^ 31 - 1)) []) 1).1 1 (2 ^ 31 - 1) 1 :=
    mem_members.mpr ⟨by decide, by decide⟩
  exact absurd (alike.waited.subset (by decide) 1 64 left).1 (by decide)

end Tolunnet
