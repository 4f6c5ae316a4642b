import Tolunnet.Abstract.Counts
import Tolunnet.Refine.Deferred

/-!
# `Tolunnet.Refine.Counts`: reference counts of slots

`ref_count` of every slot in use is the number of descriptors that name it in the tables of open
bases, and one more while it is parked. So a slot is freed exactly when the last of them goes, and
no descriptor leads to a slot that has been freed or given to somebody else.

The count is right along every run in which no `ACCEPT` waits for a base that has been closed.
`CLOSE` cancels the receives and sends of a base, but an `ACCEPT` that is parked in a listener which
other clients still hold stays, and the next connection puts a descriptor into the table of the
closed base.
-/

set_option autoImplicit false

namespace Tolunnet

open World

variable {S : Set (SlotIdx × Pend)} {w : World} {i : SlotIdx} {inp : Input}

/-- The descriptors of open bases that name slot `i`. -/
def descriptors (w : World) (i : SlotIdx) : Set (BaseId × Nat) :=
  {x | registered w x.1 ∧ x.2 < (w.bases x.1).dtablesize ∧ (w.bases x.1).fdMap x.2 = some i}

/-- Every slot in use counts its descriptors and its stay in the parking lot, at least one; a free
slot has none, and every descriptor is one of an open base and names a slot in use. -/
structure RefCounts (w : World) : Prop where
  finite : ∀ i, (descriptors w i).Finite
  count : ∀ i, (w.sockets i).inUse = true →
    (w.sockets i).refCount = (descriptors w i).ncard + if (w.sockets i).isParked then 1 else 0
  pos : ∀ i, (w.sockets i).inUse = true → 1 ≤ (w.sockets i).refCount
  free : ∀ i, (w.sockets i).inUse = false → descriptors w i = ∅ ∧ (w.sockets i).isParked = false
  entry : ∀ b n i, (w.bases b).fdMap n = some i →
    registered w b ∧ n < (w.bases b).dtablesize ∧ (w.sockets i).inUse = true

/-- No `ACCEPT` waits for a base that is not open. -/
def Gathered (w : World) (_ : Input) : Prop := ∀ b, ¬ Strayed w b

/-! ## A policy for such steps -/

/-- Everything but a descriptor that goes astray. -/
def Gathering : Label → Prop
  | .stray _ | .dangle => False
  | _ => True

theorem Gathering.strict : Strict Gathering := ⟨fun _ h => h, fun h => h⟩

/-- A slot with two descriptors has more than one reference. -/
theorem Abs.Counts.two_refs {a : Abs} (h : a.Counts) {b : BaseId} {n n' : Nat}
    (hn : a.fd b n = some i) (hn' : a.fd b n' = some i) (hne : n ≠ n') : 2 ≤ (a.slot i).refs := by
  obtain ⟨hu, alive⟩ := h.named hn
  have counted := h.slots i
  have pair : ({(b, n), (b, n')} : Set (BaseId × Nat)) ⊆ a.names i := by
    rintro x (rfl | rfl)
    · exact hn
    · exact hn'
  have card : ({(b, n), (b, n')} : Set (BaseId × Nat)).ncard = 2 :=
    Set.ncard_pair fun he => hne (Prod.mk.inj he).2
  have le := Set.ncard_le_ncard pair counted.finite
  have count := counted.count hu alive
  omega

/-- `DUP2` never closes the last reference to the slot it duplicates. -/
theorem Abs.Counts.not_dangles (h : (abs (restTok S) w).Counts) {x : TnIpcMsg} :
    ¬ Dangles w x := by
  rintro ⟨-, i, b, hslot, hb, hnew, hrefs, hne, hnonneg⟩
  have old : (w.bases b).fdMap (x.args 0).toNat = some i ∧ 0 ≤ x.args 0 := by
    unfold slotOf tnSlotLookup at hslot
    rw [hb] at hslot
    dsimp only at hslot
    split at hslot
    · cases hslot
    · rename_i range
      split at hslot
      · cases hslot
      · rename_i j hj
        split at hslot
        · cases hslot
          exact ⟨hj, by omega⟩
        · cases hslot
  have two : 2 ≤ (w.sockets i).refCount := h.two_refs old.1 hnew (by omega)
  omega

theorem Gathered.grants (h : Gathered w inp) (hc : (abs (restTok S) w).Counts) (hs : S = Set.univ) :
    Grants Gathering S w inp where
  alter := trivial
  clear := fun _ => trivial
  stray := fun b hb => absurd hb (h b)
  drop := fun _ _ _ => trivial
  overwrite := fun _ _ _ _ _ _ => trivial
  dangle := fun _ _ _ _ hd => absurd hd hc.not_dangles
  short := fun _ _ _ _ _ => trivial
  strand := fun _ _ _ _ _ _ _ => hs ▸ Set.mem_univ _

/-! ## Clients and the start -/

/-- Tables may be cut above their last descriptor. -/
theorem Abs.Counts.retable {a a' : Abs} (h : a.Counts) (hslot : a'.slot = a.slot)
    (htok : a'.tok = a.tok) (hopen : a'.openB = a.openB) (hfd : a'.fd = a.fd)
    (hdtab : ∀ b n i, a.fd b n = some i → n < a'.dtab b) : a'.Counts where
  slots := fun i => by
    have counted := h.slots i
    unfold Abs.CountsAt Abs.names at *
    rw [hslot, htok, hfd]
    exact counted
  entry := fun b n i he => by
    rw [hfd] at he
    refine ⟨?_, hdtab b n i he⟩
    have tabled := (h.entry b n i he).1
    unfold Abs.Tabled Abs.isOpen at *
    rw [hopen, htok]
    exact tabled

/-- What a client does to its own table keeps the counts. -/
theorem clientStep_counts {c : ClientStep} (h : (abs (restTok S) w).Counts)
    (ha : Admissible w (.client c)) : (abs (restTok S) (clientStep w c)).Counts := by
  have below : ∀ b n i, (w.bases b).fdMap n = some i → n < (w.bases b).dtablesize :=
    fun b n i he => (h.entry b n i he).2
  cases c with
  | newBase b base =>
    obtain ⟨closed, empty⟩ := ha
    -- the table of a base that is not open was empty before
    have table : ∀ n, (w.bases b).fdMap n = none := fun n => by
      cases hn : (w.bases b).fdMap n with
      | none => rfl
      | some i =>
        rcases (h.entry b n i hn).1 with hopen | hclosing
        · exact absurd hopen closed
        · cases hclosing
    refine h.retable rfl rfl rfl ?_ fun b' n i he => ?_
    · funext b' n
      show ((w.modBase b fun _ => base).bases b').fdMap n = (w.bases b').fdMap n
      by_cases hb : b' = b
      · subst hb
        rw [table]
        simpa [World.modBase] using empty n
      · simp [World.modBase, hb]
    · have hb : b' ≠ b := by
        rintro rfl
        have none := table n
        rw [show (w.bases b').fdMap n = some i from he] at none
        cases none
      show n < ((w.modBase b fun _ => base).bases b').dtablesize
      simpa [World.modBase, hb] using below b' n i he
  | setMasks b events eventMasks sigIo sigEvent sigSelect =>
    refine h.retable rfl rfl rfl ?_ fun b' n i he => ?_
    · funext b' n
      by_cases hb : b' = b
      · subst hb
        simp [abs, clientStep, World.modBase]
      · simp [abs, clientStep, World.modBase, hb]
    · have lt := below b' n i he
      by_cases hb : b' = b
      · subst hb
        simpa [abs, clientStep, World.modBase] using lt
      · simpa [abs, clientStep, World.modBase, hb] using lt
  | resize b size =>
    refine h.retable rfl rfl rfl ?_ fun b' n i he => ?_
    · funext b' n
      by_cases hb : b' = b
      · subst hb
        simp [abs, clientStep, World.modBase]
      · simp [abs, clientStep, World.modBase, hb]
    · by_cases hb : b' = b
      · subst hb
        have lt : n < size := by
          by_contra hge
          have none := ha n (by omega)
          rw [show (w.bases b').fdMap n = some i from he] at none
          cases none
        simpa [abs, clientStep, World.modBase] using lt
      · simpa [abs, clientStep, World.modBase, hb] using below b' n i he
  | taskExit t => exact h
  | openCnt n => exact h

/-- At the start there is nothing to count. -/
theorem counts_init : (abs (restTok S) tnSlotTableInit).Counts where
  slots := fun i => by
    have none : (abs (restTok S) tnSlotTableInit).names i = ∅ := by
      ext x
      simp [Abs.names, abs, tnSlotTableInit]
    unfold Abs.CountsAt
    rw [none]
    exact
      { finite := Set.finite_empty
        count := fun h => by cases h
        pos := fun h => by cases h
        dying := fun h => by cases h
        free := fun _ => ⟨rfl, rfl, rfl, fun h => by cases h⟩ }
  entry := fun b n i he => by cases he

/-! ## Runs -/

/-- Right counts at rest, in the daemon's own terms. -/
theorem RefCounts.of_counts (h : (abs (restTok S) w).Counts) : RefCounts w := by
  have same : ∀ i, descriptors w i = (abs (restTok S) w).names i := fun i => by
    ext ⟨b, n⟩
    refine ⟨fun hx => hx.2.2, fun hx => ?_⟩
    obtain ⟨tabled, hn⟩ := h.entry b n i hx
    refine ⟨?_, hn, hx⟩
    rcases tabled with hopen | hclosing
    · exact hopen
    · cases hclosing
  have alive : ∀ i, i ∉ (abs (restTok S) w).tok.dying := fun i hi => by cases hi
  exact
    { finite := fun i => by
        rw [same]
        exact (h.slots i).finite
      count := fun i hu => by
        have count := (h.slots i).count hu (alive i)
        rw [same]
        show (w.sockets i).refCount = _
        rw [show (w.sockets i).refCount = _ + (w.sockets i).isParked.toNat + 0 from count]
        cases (w.sockets i).isParked <;> rfl
      pos := fun i hu => (h.slots i).pos hu (alive i)
      free := fun i hu => by
        obtain ⟨none, parked, -⟩ := (h.slots i).free hu
        rw [same]
        exact ⟨none, parked⟩
      entry := fun b n i he => by
        have entry := same i ▸ (show (b, n) ∈ (abs (restTok S) w).names i from he)
        exact ⟨entry.1, entry.2.1, (h.named he).1⟩ }

/-- Along a run in which no `ACCEPT` waits for a closed base, every slot counts its references. -/
theorem gathered_refCounts (hr : Reach Gathered w) : RefCounts w :=
  .of_counts (S := Set.univ) (hr.invariant (fun a => a.Counts) counts_init
    (fun _ _ hok _ _ hi => ⟨Gathering, hok.grants hi rfl, fun _ _ hs hi ha =>
      hi.act hs Gathering.strict ha⟩)
    fun _ _ _ ha hi => clientStep_counts hi ha).2

/-- Two clients hold a listener: it has two references. -/
theorem gathered_refCounts_shared :
    (twoHolders.sockets firstSlot).refCount = 2 ∧ RefCounts twoHolders :=
  ⟨by decide, gathered_refCounts (twoHolders_run fun w _ none b ⟨i, m, hp, _⟩ => by
    rw [none i] at hp
    cases hp)⟩

/-- The client whose `ACCEPT` waits closes its base, and a connection arrives. -/
def strayAccept : World :=
  step (step sharedListener (.ipc 3 { cmd := .close, socketBase := some 1 } []))
    (.lwip [.accept 2 3 0 0] [])

/-- A descriptor of the closed base leads to the new slot. -/
theorem strayAccept_uncounted : Reachable strayAccept ∧ ¬ RefCounts strayAccept := by
  have closing : Admissible sharedListener (.ipc 3 { cmd := .close, socketBase := some 1 } []) := by
    refine ⟨by decide, sharedListener_reach.unheld (by decide), fun b hb => Or.inl ⟨0, ?_⟩⟩
    cases hb
    decide
  refine ⟨.step (.step sharedListener_reach closing trivial) trivial trivial, fun counts => ?_⟩
  obtain ⟨⟨k, hk⟩, -⟩ := counts.entry 1 0 1 (by decide +kernel)
  revert k
  decide +kernel

end Tolunnet
