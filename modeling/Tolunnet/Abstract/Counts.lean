import Mathlib.Data.Set.Card
import Tolunnet.Abstract.Sound

/-!
# `Tolunnet.Abstract.Counts`: references to slots

A slot counts its references. What it counts are the descriptors that name it, its stay in the
parking lot and, in the middle of a step, the references in hand. `Counts` says that the number is
right for every slot, that a descriptor names a slot in use, and that only the tables of open bases,
and of the one being closed, have descriptors.

Every act keeps this except two: a connection that goes into the table of a base that is not open
(`stray`) is counted by a descriptor that nobody will close, and a descriptor that is duplicated
over the last reference to its slot (`dangle`) names a free slot. Policies without these two are
`Strict`.
-/

set_option autoImplicit false

namespace Tolunnet

/-- The policy lets no descriptor go astray. -/
def Strict (P : Label → Prop) : Prop := (∀ b, ¬ P (.stray b)) ∧ ¬ P .dangle

/-- The references to one slot: `names` are its descriptors, `n` the number of references in hand,
and `d` says that it is being freed. -/
structure SlotView.Counted (s : SlotView) (names : Set (BaseId × Nat)) (n : Nat) (d : Prop) :
    Prop where
  finite : names.Finite
  count : s.inUse = true → ¬ d → s.refs = names.ncard + s.parked.toNat + n
  pos : s.inUse = true → ¬ d → 1 ≤ s.refs
  dying : d → names = ∅ ∧ s.parked = false ∧ n = 0
  free : s.inUse = false → names = ∅ ∧ s.parked = false ∧ n = 0 ∧ ¬ d

namespace SlotView.Counted

variable {s : SlotView} {names : Set (BaseId × Nat)} {n : Nat} {d : Prop} {x : BaseId × Nat}

/-- A slot in use that is not being freed. -/
theorem of_alive (hf : names.Finite) (hu : s.inUse = true) (hd : ¬ d)
    (hc : s.refs = names.ncard + s.parked.toNat + n) (hp : 1 ≤ s.refs) : s.Counted names n d where
  finite := hf
  count := fun _ _ => hc
  pos := fun _ _ => hp
  dying := fun h => absurd h hd
  free := fun h => by
    rw [hu] at h
    cases h

/-- A slot that is being freed. -/
theorem of_dying (hu : s.inUse = true) (hd : d) (hn : names = ∅) (hp : s.parked = false)
    (h0 : n = 0) : s.Counted names n d where
  finite := hn ▸ Set.finite_empty
  count := fun _ h => absurd hd h
  pos := fun _ h => absurd hd h
  dying := fun _ => ⟨hn, hp, h0⟩
  free := fun h => by
    rw [hu] at h
    cases h

/-- A slot that has a reference in hand is in use and is not being freed. -/
theorem alive (h : s.Counted names n d) (hn : 0 < n) : s.inUse = true ∧ ¬ d := by
  constructor
  · by_contra hu
    have none := (h.free (by simpa using hu)).2.2.1
    omega
  · intro hd
    have none := (h.dying hd).2.2
    omega

/-- A slot whose last reference is in hand has no descriptor and is not parked. -/
theorem last (h : s.Counted names n d) (hn : 0 < n) (hr : s.refs ≤ 1) :
    names = ∅ ∧ s.parked = false ∧ n = 1 := by
  obtain ⟨inUse, alive⟩ := h.alive hn
  have count := h.count inUse alive
  have card : names.ncard = 0 := by omega
  have parked : s.parked.toNat = 0 := by omega
  refine ⟨(Set.ncard_eq_zero h.finite).mp card, ?_, by omega⟩
  cases hp : s.parked with
  | false => rfl
  | true =>
    rw [hp] at parked
    cases parked

end SlotView.Counted

namespace Abs

variable {P : Label → Prop} {a a' : Abs} {i j : SlotIdx} {b : BaseId} {n : Nat}

/-- The descriptors that name slot `i`. -/
def names (a : Abs) (i : SlotIdx) : Set (BaseId × Nat) := {x | a.fd x.1 x.2 = some i}

/-- The base is open, or being closed. -/
def Tabled (a : Abs) (b : BaseId) : Prop := a.isOpen b ∨ a.tok.closing = some b

/-- Slot `i` counts right. -/
def CountsAt (a : Abs) (i : SlotIdx) : Prop :=
  (a.slot i).Counted (a.names i) (a.tok.refs.count i) (i ∈ a.tok.dying)

/-- Every slot counts right. -/
structure Counts (a : Abs) : Prop where
  slots : ∀ i, a.CountsAt i
  entry : ∀ b n i, a.fd b n = some i → a.Tabled b ∧ n < a.dtab b

/-- Descriptors, registry and references are as they were. -/
structure Unmoved (a a' : Abs) : Prop where
  fd : a'.fd = a.fd
  dtab : a'.dtab = a.dtab
  openB : a'.openB = a.openB
  closing : a'.tok.closing = a.tok.closing
  refs : a'.tok.refs = a.tok.refs
  dying : a'.tok.dying = a.tok.dying
  slot : ∀ i, (a'.slot i).inUse = (a.slot i).inUse ∧ (a'.slot i).refs = (a.slot i).refs ∧
    (a'.slot i).parked = (a.slot i).parked

namespace Unmoved

/-- No slot changes. -/
theorem same (hs : a'.slot = a.slot) (hfd : a'.fd = a.fd) (hdtab : a'.dtab = a.dtab)
    (hopen : a'.openB = a.openB) (hclosing : a'.tok.closing = a.tok.closing)
    (hrefs : a'.tok.refs = a.tok.refs) (hdying : a'.tok.dying = a.tok.dying) : Unmoved a a' :=
  ⟨hfd, hdtab, hopen, hclosing, hrefs, hdying, fun i => by rw [hs]; exact ⟨rfl, rfl, rfl⟩⟩

/-- One slot changes, and keeps its references. -/
theorem one {s : SlotView} (hs : a'.slot = Function.update a.slot i s)
    (hi : s.inUse = (a.slot i).inUse ∧ s.refs = (a.slot i).refs ∧ s.parked = (a.slot i).parked)
    (hfd : a'.fd = a.fd) (hdtab : a'.dtab = a.dtab)
    (hopen : a'.openB = a.openB) (hclosing : a'.tok.closing = a.tok.closing)
    (hrefs : a'.tok.refs = a.tok.refs) (hdying : a'.tok.dying = a.tok.dying) : Unmoved a a' := by
  refine ⟨hfd, hdtab, hopen, hclosing, hrefs, hdying, fun j => ?_⟩
  by_cases hj : j = i
  · subst hj
    rw [hs, Function.update_self]
    exact hi
  · rw [hs, Function.update_of_ne hj]
    exact ⟨rfl, rfl, rfl⟩

/-- The acts on messages move no reference. -/
theorem msg (ha : MsgAct P a a') : Unmoved a a' := by
  cases ha <;> first
    | exact same rfl rfl rfl rfl rfl rfl rfl
    | exact one rfl ⟨rfl, rfl, rfl⟩ rfl rfl rfl rfl rfl rfl

/-- The acts on stream sends move no reference. -/
theorem send (ha : SendAct P a a') : Unmoved a a' := by
  cases ha <;> first
    | exact same rfl rfl rfl rfl rfl rfl rfl
    | exact one rfl ⟨rfl, rfl, rfl⟩ rfl rfl rfl rfl rfl rfl

/-- The acts on connections move no reference. -/
theorem tcp (ha : TcpAct P a a') : Unmoved a a' := by
  cases ha <;> first
    | exact same rfl rfl rfl rfl rfl rfl rfl
    | exact one rfl ⟨rfl, rfl, rfl⟩ rfl rfl rfl rfl rfl rfl

/-- The acts on receive queues move no reference. -/
theorem rx (ha : RxAct P a a') : Unmoved a a' := by
  cases ha <;> exact one rfl ⟨rfl, rfl, rfl⟩ rfl rfl rfl rfl rfl rfl

/-- The acts on selectors move no reference. -/
theorem sel (ha : SelAct a a') : Unmoved a a' := by
  cases ha <;> exact same rfl rfl rfl rfl rfl rfl rfl

end Unmoved

namespace Counts

/-- A descriptor names a slot in use that is not being freed. -/
theorem named (h : a.Counts) (he : a.fd b n = some i) :
    (a.slot i).inUse = true ∧ i ∉ a.tok.dying := by
  have mem : (b, n) ∈ a.names i := he
  constructor
  · by_contra hu
    rw [((h.slots i).free (by simpa using hu)).1] at mem
    exact mem
  · intro hd
    rw [((h.slots i).dying hd).1] at mem
    exact mem

/-! ## Two ways to keep it -/

/-- An act that leaves descriptors, registry and references alone keeps the counts. -/
theorem congr (h : a.Counts) (u : Unmoved a a') : a'.Counts where
  slots := fun i => by
    obtain ⟨inUse, refs, parked⟩ := u.slot i
    have counted := h.slots i
    unfold CountsAt names at *
    rw [u.fd, u.refs, u.dying]
    exact
      { finite := counted.finite
        count := by rw [inUse, refs, parked]; exact counted.count
        pos := by rw [inUse, refs]; exact counted.pos
        dying := by rw [parked]; exact counted.dying
        free := by rw [inUse, parked]; exact counted.free }
  entry := fun b n i he => by
    rw [u.fd] at he
    obtain ⟨tabled, hn⟩ := h.entry b n i he
    unfold Tabled isOpen at *
    rw [u.openB, u.closing, u.dtab]
    exact ⟨tabled, hn⟩

/-- An act that changes the references to slot `i` only keeps the counts when it keeps those of `i`.
-/
theorem at_slot (h : a.Counts) (i : SlotIdx) (hi : a'.CountsAt i)
    (hslot : ∀ j, j ≠ i → a'.slot j = a.slot j)
    (hnames : ∀ j, j ≠ i → a'.names j = a.names j)
    (hrefs : ∀ j, j ≠ i → a'.tok.refs.count j = a.tok.refs.count j)
    (hdying : ∀ j, j ≠ i → (j ∈ a'.tok.dying ↔ j ∈ a.tok.dying))
    (hopen : a'.openB = a.openB) (hclosing : a'.tok.closing = a.tok.closing)
    (hdtab : a'.dtab = a.dtab)
    (hentry : ∀ b n, a'.fd b n = some i → a.Tabled b ∧ n < a.dtab b) : a'.Counts where
  slots := fun j => by
    by_cases hj : j = i
    · exact hj ▸ hi
    · have counted := h.slots j
      unfold CountsAt at *
      rw [hslot j hj, hnames j hj, hrefs j hj]
      simpa only [hdying j hj] using counted
  entry := fun b n j he => by
    have tabled : a.Tabled b ∧ n < a.dtab b := by
      by_cases hj : j = i
      · exact hentry b n (hj ▸ he)
      · have mem : (b, n) ∈ a'.names j := he
        rw [hnames j hj] at mem
        exact h.entry b n j mem
    unfold Tabled isOpen at *
    rw [hopen, hclosing, hdtab]
    exact tabled

end Counts

/-! ## Descriptors -/

theorem names_fdSet_some (he : a.fd b n = none) (j : SlotIdx) :
    (a.fdSet b n (some i)).names j = if j = i then insert (b, n) (a.names i) else a.names j := by
  ext ⟨b', n'⟩
  by_cases hb : b' = b
  · by_cases hn : n' = n
    · subst hb hn
      by_cases hj : j = i
      · simp [names, hj]
      · simp [names, hj, he, Ne.symm hj]
    · by_cases hj : j = i <;> simp [names, hb, hn, hj]
  · by_cases hj : j = i <;> simp [names, hb, hj]

theorem names_fdSet_none (he : a.fd b n = some i) (j : SlotIdx) :
    (a.fdSet b n none).names j = if j = i then a.names i \ {(b, n)} else a.names j := by
  ext ⟨b', n'⟩
  by_cases hb : b' = b
  · by_cases hn : n' = n
    · subst hb hn
      by_cases hj : j = i
      · simp [names, hj]
      · simp [names, hj, he, Ne.symm hj]
    · by_cases hj : j = i <;> simp [names, hb, hn, hj]
  · by_cases hj : j = i <;> simp [names, hb, hj]

/-- The table of a base without descriptors in use is empty. -/
theorem Counts.table (h : a.Counts)
    (he : ∀ n i, n < a.dtab b → a.fd b n = some i → (a.slot i).inUse = false) (n : Nat) :
    a.fd b n = none := by
  cases hn : a.fd b n with
  | none => rfl
  | some i =>
    have unused := he n i (h.entry b n i hn).2 hn
    rw [(h.named hn).1] at unused
    cases unused

/-! ## The acts on references -/

/-- A descriptor is filled: it leads to slot `i`, and its base has a table. -/
theorem Counts.filled (h : a.Counts) (he : a.fd b n = none) (hn : n < a.dtab b) (hb : a.isOpen b)
    (b' : BaseId) (n' : Nat) (hf : (a.fdSet b n (some i)).fd b' n' = some i) :
    a.Tabled b' ∧ n' < a.dtab b' := by
  have mem : (b', n') ∈ (a.fdSet b n (some i)).names i := hf
  rw [names_fdSet_some he, if_pos rfl] at mem
  rcases Set.mem_insert_iff.mp mem with he' | he'
  · cases he'
    exact ⟨Or.inl hb, hn⟩
  · exact h.entry b' n' i he'

/-- The number of descriptors that name slot `i` after one more has been filled. -/
theorem Counts.card_filled (h : a.Counts) (he : a.fd b n = none) :
    ((a.fdSet b n (some i)).names i).Finite ∧
      ((a.fdSet b n (some i)).names i).ncard = (a.names i).ncard + 1 := by
  have fresh : (b, n) ∉ a.names i := fun hm => by
    rw [show a.fd b n = some i from hm] at he
    cases he
  have finite := (h.slots i).finite
  rw [names_fdSet_some he, if_pos rfl]
  exact ⟨finite.insert _, Set.ncard_insert_of_notMem fresh finite⟩

/-- The number of descriptors that name slot `i` after one of them has been emptied. -/
theorem Counts.card_emptied (h : a.Counts) (he : a.fd b n = some i) :
    ((a.fdSet b n none).names i).Finite ∧
      ((a.fdSet b n none).names i).ncard + 1 = (a.names i).ncard := by
  have mem : (b, n) ∈ a.names i := he
  have finite := (h.slots i).finite
  rw [names_fdSet_none he, if_pos rfl]
  exact ⟨finite.sdiff, Set.ncard_sdiff_singleton_add_one mem finite⟩

/-- The other descriptors stay when one is emptied. -/
theorem Counts.emptied (h : a.Counts) (he : a.fd b n = some i) (b' : BaseId) (n' : Nat)
    (hf : (a.fdSet b n none).fd b' n' = some i) : a.Tabled b' ∧ n' < a.dtab b' := by
  have mem : (b', n') ∈ (a.fdSet b n none).names i := hf
  rw [names_fdSet_none he, if_pos rfl] at mem
  exact h.entry b' n' i mem.1

/-- The acts on references keep the counts. -/
theorem Counts.ref (h : a.Counts) (hP : Strict P) (ha : RefAct P a a') : a'.Counts := by
  cases ha with
  | alloc i type hf =>
    obtain ⟨none, -, refs, alive⟩ := (h.slots i).free hf
    refine h.at_slot i ?_ (fun j hj => Function.update_of_ne hj ..) (fun _ _ => rfl)
      (fun j hj => List.count_cons_of_ne hj.symm) (fun _ _ => Iff.rfl) rfl rfl rfl fun b n he =>
        h.entry b n i he
    show (Function.update a.slot i (.new type) i).Counted (a.names i) ((i :: a.tok.refs).count i)
      (i ∈ a.tok.dying)
    rw [Function.update_self, none, List.count_cons_self, refs]
    exact .of_alive Set.finite_empty rfl alive (by simp [SlotView.new]) (Nat.le_refl 1)
  | install b n i hi hu hn he hb =>
    have counted := h.slots i
    have some := List.count_pos_iff.mpr hi
    obtain ⟨-, alive⟩ := counted.alive some
    obtain ⟨finite, card⟩ := h.card_filled (i := i) he
    refine h.at_slot i ?_ (fun _ _ => rfl) (fun j hj => (names_fdSet_some he j).trans (if_neg hj))
      (fun j hj => List.count_erase_of_ne hj) (fun _ _ => Iff.rfl) rfl rfl rfl
      (h.filled he hn (hb.resolve_right (hP.1 b)))
    show (a.slot i).Counted ((a.fdSet b n (Option.some i)).names i) ((a.tok.refs.erase i).count i)
      (i ∈ a.tok.dying)
    rw [List.count_erase_self]
    refine .of_alive finite hu alive ?_ (counted.pos hu alive)
    have count := counted.count hu alive
    omega
  | takeFd b n i he hs =>
    have counted := h.slots i
    obtain ⟨hu, alive⟩ := h.named he
    obtain ⟨finite, card⟩ := h.card_emptied he
    refine h.at_slot i ?_ (fun _ _ => rfl) (fun j hj => (names_fdSet_none he j).trans (if_neg hj))
      (fun j hj => List.count_cons_of_ne hj.symm) (fun _ _ => Iff.rfl) rfl rfl rfl (h.emptied he)
    show (a.slot i).Counted ((a.fdSet b n none).names i) ((i :: a.tok.refs).count i)
      (i ∈ a.tok.dying)
    rw [List.count_cons_self]
    refine .of_alive finite hu alive ?_ (counted.pos hu alive)
    have count := counted.count hu alive
    omega
  | unref i hi hu hr =>
    have counted := h.slots i
    have some := List.count_pos_iff.mpr hi
    obtain ⟨-, alive⟩ := counted.alive some
    refine h.at_slot i ?_ (fun j hj => Function.update_of_ne hj ..) (fun _ _ => rfl)
      (fun j hj => List.count_erase_of_ne hj) (fun _ _ => Iff.rfl) rfl rfl rfl fun b' n' he' =>
        h.entry b' n' i he'
    show (Function.update a.slot i { a.slot i with refs := (a.slot i).refs - 1 } i).Counted
      (a.names i) ((a.tok.refs.erase i).count i) (i ∈ a.tok.dying)
    rw [Function.update_self, List.count_erase_self]
    refine .of_alive counted.finite hu alive ?_ (Nat.one_le_iff_ne_zero.mpr hr)
    have count := counted.count hu alive
    show (a.slot i).refs - 1 = (a.names i).ncard + (a.slot i).parked.toNat + _
    omega
  | lastRef i hi hu hr =>
    have counted := h.slots i
    obtain ⟨none, parked, one⟩ := counted.last (List.count_pos_iff.mpr hi) (by omega)
    refine h.at_slot i ?_ (fun j hj => Function.update_of_ne hj ..) (fun _ _ => rfl)
      (fun j hj => List.count_erase_of_ne hj) (fun j hj => by simp [hj]) rfl rfl rfl
      fun b' n' he' => h.entry b' n' i he'
    show (Function.update a.slot i { a.slot i with refs := 0 } i).Counted
      (a.names i) ((a.tok.refs.erase i).count i) (i ∈ i :: a.tok.dying)
    rw [Function.update_self, List.count_erase_self, one]
    exact .of_dying hu (List.mem_cons_self ..) none parked rfl
  | condemn i hi hu hr =>
    have counted := h.slots i
    obtain ⟨none, parked, one⟩ := counted.last (List.count_pos_iff.mpr hi) (by omega)
    refine h.at_slot i ?_ (fun _ _ => rfl) (fun _ _ => rfl)
      (fun j hj => List.count_erase_of_ne hj) (fun j hj => by simp [hj]) rfl rfl rfl
      fun b' n' he' => h.entry b' n' i he'
    show (a.slot i).Counted (a.names i) ((a.tok.refs.erase i).count i) (i ∈ i :: a.tok.dying)
    rw [List.count_erase_self, one]
    exact .of_dying hu (List.mem_cons_self ..) none parked rfl
  | dup b n n' i hi hn hu he hb =>
    have counted := h.slots i
    obtain ⟨-, alive⟩ := h.named hi
    -- a descriptor that names no slot in use is empty
    have empty : a.fd b n = none := by
      cases hf : a.fd b n with
      | none => rfl
      | some j =>
        have unused := he j hf
        rw [(h.named hf).1] at unused
        cases unused
    obtain ⟨finite, card⟩ := h.card_filled (i := i) empty
    refine h.at_slot i ?_ (fun j hj => Function.update_of_ne hj ..)
      (fun j hj => (names_fdSet_some empty j).trans (if_neg hj)) (fun _ _ => rfl)
      (fun _ _ => Iff.rfl) rfl rfl rfl (h.filled empty hn hb)
    show (Function.update a.slot i { a.slot i with refs := (a.slot i).refs + 1 } i).Counted
      ((a.fdSet b n (some i)).names i) (a.tok.refs.count i) (i ∈ a.tok.dying)
    rw [Function.update_self]
    refine .of_alive finite hu alive ?_ (Nat.le_add_left ..)
    have count := counted.count hu alive
    show (a.slot i).refs + 1
      = ((a.fdSet b n (some i)).names i).ncard + (a.slot i).parked.toNat + _
    omega
  | dangle b n i hl => exact absurd hl hP.2
  | parkCopy i hu hp hd =>
    have counted := h.slots i
    refine h.at_slot i ?_ (fun j hj => Function.update_of_ne hj ..) (fun _ _ => rfl)
      (fun _ _ => rfl) (fun _ _ => Iff.rfl) rfl rfl rfl fun b' n' he' => h.entry b' n' i he'
    show (Function.update a.slot i
      { a.slot i with parked := true, refs := (a.slot i).refs + 1 } i).Counted (a.names i)
        (a.tok.refs.count i) (i ∈ a.tok.dying)
    rw [Function.update_self]
    refine .of_alive counted.finite hu hd ?_ (Nat.le_add_left ..)
    have count := counted.count hu hd
    rw [hp] at count
    show (a.slot i).refs + 1 = (a.names i).ncard + 1 + _
    have zero : false.toNat = 0 := rfl
    omega
  | parkMove b n i hu hp hi =>
    have counted := h.slots i
    obtain ⟨-, alive⟩ := h.named hi
    obtain ⟨finite, card⟩ := h.card_emptied hi
    refine h.at_slot i ?_ (fun j hj => Function.update_of_ne hj ..)
      (fun j hj => (names_fdSet_none hi j).trans (if_neg hj)) (fun _ _ => rfl)
      (fun _ _ => Iff.rfl) rfl rfl rfl (h.emptied hi)
    show (Function.update a.slot i { a.slot i with parked := true } i).Counted
      ((a.fdSet b n none).names i) (a.tok.refs.count i) (i ∈ a.tok.dying)
    rw [Function.update_self]
    refine .of_alive finite hu alive ?_ (counted.pos hu alive)
    have count := counted.count hu alive
    rw [hp] at count
    show (a.slot i).refs = ((a.fdSet b n none).names i).ncard + 1 + _
    have zero : false.toNat = 0 := rfl
    omega
  | obtain b n i hu hp hn he hb =>
    have counted := h.slots i
    have alive : i ∉ a.tok.dying := fun hd => by
      rw [((counted.dying hd).2.1)] at hp
      cases hp
    obtain ⟨finite, card⟩ := h.card_filled (i := i) he
    refine h.at_slot i ?_ (fun j hj => Function.update_of_ne hj ..)
      (fun j hj => (names_fdSet_some he j).trans (if_neg hj)) (fun _ _ => rfl)
      (fun _ _ => Iff.rfl) rfl rfl rfl (h.filled he hn hb)
    show (Function.update a.slot i { a.slot i with parked := false } i).Counted
      ((a.fdSet b n (some i)).names i) (a.tok.refs.count i) (i ∈ a.tok.dying)
    rw [Function.update_self]
    refine .of_alive finite hu alive ?_ (counted.pos hu alive)
    have count := counted.count hu alive
    rw [hp] at count
    show (a.slot i).refs = ((a.fdSet b n (some i)).names i).ncard + 0 + _
    have one : true.toNat = 1 := rfl
    omega
  | clear i hd hp ht hu hr hq hx hl =>
    have counted := h.slots i
    obtain ⟨none, parked, zero⟩ := counted.dying hd
    refine h.at_slot i ?_ (fun j hj => Function.update_of_ne hj ..) (fun _ _ => rfl)
      (fun _ _ => rfl) (fun j hj => by simp [hj]) rfl rfl rfl fun b' n' he' => h.entry b' n' i he'
    show (Function.update a.slot i
      { a.slot i with inUse := false, refs := 0, parked := false } i).Counted (a.names i)
        (a.tok.refs.count i) (i ∈ a.tok.dying.filter (· ≠ i))
    have gone : i ∉ a.tok.dying.filter (· ≠ i) := by simp
    rw [Function.update_self]
    exact
      { finite := counted.finite
        count := fun hf => by cases hf
        pos := fun hf => by cases hf
        dying := fun h => absurd h gone
        free := fun _ => ⟨none, rfl, zero, gone⟩ }
  | register k b hk hb he hl =>
    refine ⟨h.slots, fun b' n i hf => ?_⟩
    obtain ⟨tabled, hn⟩ := h.entry b' n i hf
    refine ⟨tabled.imp_left ?_, hn⟩
    rintro ⟨k', hk'⟩
    have hne : k' ≠ k := by
      rintro rfl
      rw [hk] at hk'
      cases hk'
    exact ⟨k', (Function.update_of_ne hne ..).trans hk'⟩
  | unregister k b hk hc hl =>
    refine ⟨h.slots, fun b' n i hf => ?_⟩
    obtain ⟨tabled, hn⟩ := h.entry b' n i hf
    refine ⟨?_, hn⟩
    rcases tabled with ⟨k', hk'⟩ | hcl
    · by_cases hkk : k' = k
      · -- the base that leaves the registry is the one being closed
        subst hkk
        exact Or.inr (hk.symm.trans hk')
      · exact Or.inl ⟨k', (Function.update_of_ne hkk ..).trans hk'⟩
    · rw [hc] at hcl
      cases hcl
  | closed b hc he =>
    refine ⟨h.slots, fun b' n i hf => ?_⟩
    obtain ⟨tabled, hn⟩ := h.entry b' n i hf
    refine ⟨Or.inl (tabled.resolve_right fun hcl => ?_), hn⟩
    -- the table of the base that has been closed is empty
    obtain rfl : b = b' := Option.some.inj (hc.symm.trans hcl)
    have empty := h.table he n
    rw [show a.fd b n = some i from hf] at empty
    cases empty

/-- Every act of a strict policy keeps the counts. -/
theorem Counts.act (h : a.Counts) (hs : a.Sound) (hP : Strict P) (ha : Act P a a') :
    a'.Counts := by
  cases ha with
  | msg ha => exact h.congr (.msg ha)
  | send ha => exact h.congr (.send ha)
  | ref ha => exact h.ref hP ha
  | tcp ha => exact h.congr (.tcp ha)
  | rx ha => exact h.congr (.rx ha)
  | sel ha => exact h.congr (.sel ha)
  | broken hn => exact absurd hs hn

end Abs

end Tolunnet
