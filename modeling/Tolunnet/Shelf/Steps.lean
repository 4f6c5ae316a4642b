import Tolunnet.Shelf.Tables

/-!
# `Tolunnet.Shelf.Steps`: closing, moving and the steps

The handlers that take a socket away from a descriptor, the ones that close a base, and with them
every step of the daemon. `Turns S` is what a step does to the tables of the bases that stay
registered when it may give up the descriptors of `S`; a base that leaves the registry takes its
table with it. The queues are in order in every reachable state.
-/

set_option autoImplicit false

namespace Tolunnet

open World

variable {w : World} {i : SlotIdx} {p : PcbId} {m : MsgId}

/-! ## Tables that turn -/

/-- A table while the descriptors of `S` may be given up and the events of `l` are recorded. -/
structure Table.Turn (S : Nat → Prop) (l : List Post) (b : BaseId) (t t' : Table) : Prop where
  masks : t'.masks = t.masks
  size : t'.size = t.size
  kept : ∀ fd i, ¬ S fd → t.fdMap fd = some i → t'.fdMap fd = some i ∧
    ∀ k, (t'.events fd).testBit k =
      ((t.events fd).testBit k || decide (fd < t.size) && (t.masks fd).testBit k && recorded l b i k)
  moved : ∀ fd, S fd ∨ t.fdMap fd = none → (t'.fdMap fd = none ∧ t'.events fd = t.events fd) ∨
    ∃ i, t'.fdMap fd = some i ∧ ∀ k, (t'.events fd).testBit k = true →
      (t.events fd).testBit k = true ∨ ((t.masks fd).testBit k = true ∧ recorded l b i k = true)
  fits : ∀ fd, t.fdMap fd = none → t'.fdMap fd ≠ none → fd < t.size

/-- A base is in the registry. -/
def Shelf.Registered (d : Shelf) (b : BaseId) : Prop := ∃ k, d.bases k = some b

/-- A piece of code that keeps the queues in order, registers no base and gives up only the
descriptors of `S`. -/
structure Turns (S : BaseId → Nat → Prop) (w w' : World) : Prop where
  run : (shelf w).Ok → (shelf w').Ok ∧ ∃ l, (shelf w').posts = l ++ (shelf w).posts ∧
    ∀ b, (shelf w').Registered b → (shelf w).Registered b ∧
      Table.Turn (S b) l b ((shelf w).table b) ((shelf w').table b)

/-- A table that grows turns as well. -/
theorem Table.Grows.turn {l : List Post} {b : BaseId} {t t' : Table} (h : Table.Grows l b t t')
    {S : Nat → Prop} (hS : ∀ fd, S fd → t.fdMap fd = none) : Table.Turn S l b t t' where
  masks := h.masks
  size := h.size
  kept := fun fd i _ hi => h.kept fd i hi
  moved := fun fd hfd => h.free fd (hfd.elim (hS fd) id)
  fits := h.fits

/-- Events that are recorded after a descriptor has moved are those of its new socket. -/
theorem Table.Turn.grows {S : Nat → Prop} {l l' : List Post} {b : BaseId} {t t' t'' : Table}
    (h : Table.Turn S l b t t') (h' : Table.Grows l' b t' t'') :
    Table.Turn S (l' ++ l) b t t'' where
  masks := h'.masks.trans h.masks
  size := h'.size.trans h.size
  kept := by
    intro fd i hS hi
    obtain ⟨hi', hev⟩ := h.kept fd i hS hi
    exact h'.keeps h.masks h.size hi' hev
  moved := fun fd hfd => h'.opens h.masks (h.moved fd hfd)
  fits := by
    intro fd hn hs
    by_cases hn' : t'.fdMap fd = none
    · exact h.size ▸ h'.fits fd hn' hs
    · exact h.fits fd hn hn'

namespace Turns

variable {S : BaseId → Nat → Prop} {w' w'' : World}

/-- A turn and quiet code after it. -/
theorem tame (h : Turns S w w') (h' : Tame w' w'') : Turns S w w'' := by
  refine ⟨fun hok => ?_⟩
  obtain ⟨hok', l, hl, ht⟩ := h.run hok
  obtain ⟨hok'', hb, l', hl', ht'⟩ := h'.run hok'
  refine ⟨hok'', l' ++ l, by rw [hl', hl, List.append_assoc], fun b hr => ?_⟩
  have hr' : (shelf w').Registered b := by
    obtain ⟨k, hk⟩ := hr
    exact ⟨k, by rw [← hb]; exact hk⟩
  exact ⟨(ht b hr').1, (ht b hr').2.grows (ht' b)⟩

/-- Quiet code before a turn. -/
theorem after (h : shelf w' = shelf w) (h' : Turns S w' w'') : Turns S w w'' :=
  ⟨fun hok => by rw [← h] at hok ⊢; exact h'.run hok⟩

end Turns

/-- Code that gives up no descriptor. -/
theorem Tame.turns {w' : World} (h : Tame w w') {S : BaseId → Nat → Prop}
    (hS : ∀ b fd, S b fd → (w.bases b).fdMap fd = none) : Turns S w w' := by
  refine ⟨fun hok => ?_⟩
  obtain ⟨hok', hb, l, hl, ht⟩ := h.run hok
  refine ⟨hok', l, hl, fun b hr => ⟨?_, (ht b).turn (hS b)⟩⟩
  obtain ⟨k, hk⟩ := hr
  exact ⟨k, by rw [← hb]; exact hk⟩

/-! ## One descriptor -/

/-- A table with another entry. -/
def Table.setEntry (t : Table) (fd : Nat) (v : Option SlotIdx) : Table :=
  { t with fdMap := Function.update t.fdMap fd v }

/-- The last assignment to a descriptor counts. -/
@[simp] theorem Table.setEntry_setEntry (t : Table) (fd : Nat) (v v' : Option SlotIdx) :
    (t.setEntry fd v).setEntry fd v' = t.setEntry fd v' := by
  simp [Table.setEntry]

/-- One entry of a base's table is written, and the queues stay in order. -/
structure Enters (b : BaseId) (fd : Nat) (v : Option SlotIdx) (w w' : World) : Prop where
  bases : (shelf w').bases = (shelf w).bases
  table : (shelf w').table =
    Function.update (shelf w).table b (((shelf w).table b).setEntry fd v)
  posts : (shelf w').posts = (shelf w).posts
  ok : (shelf w).Ok → (shelf w').Ok

/-- An assignment to one descriptor. -/
theorem setFd_enters (b : BaseId) (fd : Nat) (v : Option SlotIdx) :
    Enters b fd v w (w.setFd b fd v) where
  bases := rfl
  table := by
    funext c
    by_cases hc : c = b
    · subst hc
      simp [shelf, setFd, modBase, TnSocketBase.onShelf, Table.setEntry]
    · simp [shelf, setFd, modBase, hc]
  posts := rfl
  ok := fun hok => hok.congr rfl rfl rfl rfl rfl

namespace Enters

variable {b : BaseId} {fd : Nat} {v v' : Option SlotIdx} {w' w'' : World}

/-- An assignment and quiet code after it. -/
theorem still (h : Enters b fd v w w') (h' : Still w' w'') : Enters b fd v w w'' :=
  ⟨h'.bases.trans h.bases, h'.table.trans h.table, h'.posts.trans h.posts, fun hok => h'.ok (h.ok hok)⟩

theorem after (h : Still w w') (h' : Enters b fd v w' w'') : Enters b fd v w w'' :=
  ⟨h'.bases.trans h.bases, by rw [h'.table, h.table], h'.posts.trans h.posts,
    fun hok => h'.ok (h.ok hok)⟩

/-- Two assignments to one descriptor. -/
theorem trans (h : Enters b fd v w w') (h' : Enters b fd v' w' w'') : Enters b fd v' w w'' :=
  ⟨h'.bases.trans h.bases, by rw [h'.table, h.table]; simp, h'.posts.trans h.posts,
    fun hok => h'.ok (h.ok hok)⟩

/-- The descriptor is given up or gets another socket, unless it had this one before. -/
theorem turns {S : BaseId → Nat → Prop} (h : Enters b fd v w w')
    (hS : ∀ c fd', S c fd' → (c = b ∧ fd' = fd) ∨ (w.bases c).fdMap fd' = none)
    (hv : (w.bases b).fdMap fd = v ∨ (w.bases b).fdMap fd = none ∨ S b fd)
    (hd : v = none ∨ fd < (w.bases b).dtablesize) : Turns S w w' := by
  refine ⟨fun hok => ⟨h.ok hok, [], h.posts, fun c hr => ⟨?_, ?_⟩⟩⟩
  · obtain ⟨k, hk⟩ := hr
    exact ⟨k, by rw [← h.bases]; exact hk⟩
  rw [h.table]
  by_cases hc : c = b
  · subst hc
    rw [Function.update_self]
    constructor
    · rfl
    · rfl
    · intro fd' i hn hi
      refine ⟨?_, fun k => by simp [Table.setEntry]⟩
      by_cases hne : fd' = fd
      · subst hne
        have same : (w.bases c).fdMap fd' = v := by
          rcases hv with hv | hv | hv
          · exact hv
          · rw [show (w.bases c).fdMap fd' = some i from hi] at hv
            cases hv
          · exact absurd hv hn
        exact (Function.update_self ..).trans (same.symm.trans hi)
      · exact (Function.update_of_ne hne _ _).trans hi
    · intro fd' hfd'
      by_cases hne : fd' = fd
      · subst hne
        cases v with
        | none => exact .inl ⟨by simp [Table.setEntry], rfl⟩
        | some j => exact .inr ⟨j, by simp [Table.setEntry], fun k hk => .inl hk⟩
      · have free : (w.bases c).fdMap fd' = none :=
          hfd'.elim (fun h => (hS c fd' h).elim (fun h => absurd h.2 hne) id) id
        exact .inl ⟨(Function.update_of_ne hne _ _).trans free, rfl⟩
    · intro fd' hn hs
      by_cases hne : fd' = fd
      · subst hne
        exact hd.resolve_left fun h => hs ((Function.update_self ..).trans h)
      · exact absurd ((Function.update_of_ne hne _ _).trans hn) hs
  · rw [Function.update_of_ne hc]
    exact (Table.Grows.refl c _).turn fun fd' h => (hS c fd' h).elim (fun h => absurd h.1 hc) id

end Enters

/-! ## Descriptors that are given up -/

/-- The descriptors a message makes the daemon give up, in the state in which its handler starts:
`CLOSESOCKET` and a `RELEASESOCKET` that keeps no copy give up their own, `DUP2` the one it writes,
when another socket is there. -/
inductive GivesUp (w : World) (m : MsgId) (b : BaseId) (fd : Nat) : Prop where
  | close (i : SlotIdx) (hc : (w.msgs m).cmd = .closesocket) (hb : (w.msgs m).socketBase = some b)
      (hl : tnSlotLookup w (some b) ((w.msgs m).args 0) = some i)
      (hfd : fd = ((w.msgs m).args 0).toNat)
  | release (i : SlotIdx) (id : Int) (hc : (w.msgs m).cmd = .releasesocket)
      (hb : (w.msgs m).socketBase = some b)
      (hl : tnSlotLookup w (some b) ((w.msgs m).args 0) = some i)
      (hp : (w.sockets i).isParked = false) (hid : (chooseParkId w ((w.msgs m).args 1)).2 = .ok id)
      (hk : (w.msgs m).args 2 % 65536 = 0) (hfd : fd = ((w.msgs m).args 0).toNat)
  | dup2 (i j : SlotIdx) (hc : (w.msgs m).cmd = .dup2) (hb : (w.msgs m).socketBase = some b)
      (hl : tnSlotLookup w (some b) ((w.msgs m).args 0) = some i)
      (hr : 0 ≤ (w.msgs m).args 1 ∧ (w.msgs m).args 1 < (w.bases b).dtablesize)
      (hfd : fd = ((w.msgs m).args 1).toNat) (hj : (w.bases b).fdMap fd = some j) (hij : j ≠ i)

/-- `CLOSESOCKET` gives up the descriptor of the request. -/
theorem tnIpcCmdClosesocket_turns (hc : (w.msgs m).cmd = .closesocket)
    (hl : tnSlotLookup w (w.msgs m).socketBase ((w.msgs m).args 0) = some i) :
    Turns (GivesUp w m) w (tnIpcCmdClosesocket w m (some i)).1 := by
  unfold tnIpcCmdClosesocket
  dsimp only
  cases hb : (w.msgs m).socketBase with
  | none => rw [hb] at hl; cases hl
  | some b =>
    rw [hb] at hl
    have entered : Enters b ((w.msgs m).args 0).toNat none w (tnSlotUnref ((cancelOwn w i b).setFd b
        ((w.msgs m).args 0).toNat none) i) :=
      .after (.of_eq (Replies.cancelOwn shelf_replies b)) ((setFd_enters _ _ _).still tnSlotUnref_still)
    refine (entered.turns (fun c fd hS => ?_) (.inr (.inr ?_)) (.inl rfl)).tame (.done (.refl _) _ _)
    · cases hS with
      | close _ _ hb' _ hfd => exact .inl ⟨(Option.some.inj (hb'.symm.trans hb)), hfd⟩
      | release _ _ hc' => rw [hc] at hc'; cases hc'
      | dup2 _ _ hc' => rw [hc] at hc'; cases hc'
    · exact .close i hc hb hl rfl

/-- The entry a duplicate is written to is emptied first. -/
theorem closeFd_enters {b : BaseId} (fd : Nat) (j : SlotIdx) :
    Enters b fd (some j) w ((closeFd b w fd).setFd b fd (some j)) := by
  unfold closeFd
  split
  · exact setFd_enters _ _ _
  · split
    · exact ((setFd_enters b fd none).still tnSlotUnref_still).trans (setFd_enters _ _ _)
    · exact setFd_enters _ _ _

/-- `DUP2` gives up the descriptor it writes over. -/
theorem tnIpcCmdDup2_turns (hc : (w.msgs m).cmd = .dup2)
    (hl : tnSlotLookup w (w.msgs m).socketBase ((w.msgs m).args 0) = some i) :
    Turns (GivesUp w m) w (tnIpcCmdDup2 w m (some i)).1 := by
  have quiet : ∀ c fd, GivesUp w m c fd → ∃ j, (w.msgs m).socketBase = some c ∧
      0 ≤ (w.msgs m).args 1 ∧ (w.msgs m).args 1 < (w.bases c).dtablesize ∧
      fd = ((w.msgs m).args 1).toNat ∧ (w.bases c).fdMap fd = some j ∧ j ≠ i := by
    intro c fd hS
    cases hS with
    | close _ hc' => rw [hc] at hc'; cases hc'
    | release _ _ hc' => rw [hc] at hc'; cases hc'
    | dup2 i' j _ hb' hl' hr hfd hj hij =>
      rw [hb'] at hl
      exact ⟨j, hb', hr.1, hr.2, hfd, hj, fun h => hij (h.trans (Option.some.inj (hl.symm.trans hl')))⟩
  unfold tnIpcCmdDup2
  dsimp only
  cases hb : (w.msgs m).socketBase with
  | none => rw [hb] at hl; cases hl
  | some b =>
    rw [hb] at hl quiet
    dsimp only
    split
    · rename_i hr
      refine Tame.turns (.fail (.refl w) _) fun c fd hS => ?_
      obtain ⟨j, hcb, h0, h1, -⟩ := quiet c fd hS
      cases hcb
      omega
    · split
      · -- a descriptor that is copied to itself has the socket it had
        rename_i _ hsame
        refine Tame.turns (.done (.refl w) _ _) fun c fd hS => ?_
        obtain ⟨j, hcb, -, -, hfd, hj, hij⟩ := quiet c fd hS
        cases hcb
        unfold tnSlotLookup at hl
        simp only [hsame, ← hfd, hj] at hl
        split_ifs at hl
        exact absurd (Option.some.inj hl) hij
      · have entered := closeFd_enters (w := w) (b := b) ((w.msgs m).args 1).toNat i
        refine (entered.turns (fun c fd hS => ?_) ?_ (.inr (by omega))).tame
          (.done (.of_eq (by simp)) _ _)
        · obtain ⟨j, hcb, -, -, hfd, -⟩ := quiet c fd hS
          exact .inl ⟨(Option.some.inj hcb).symm, hfd⟩
        · rename_i hr _
          cases hj : (w.bases b).fdMap ((w.msgs m).args 1).toNat with
          | none => exact .inr (.inl rfl)
          | some j =>
            by_cases hij : j = i
            · exact .inl (by rw [hij])
            · exact .inr (.inr (.dup2 i j hc hb hl (by omega) rfl hj hij))

/-- `RELEASESOCKET` gives up the descriptor unless a copy is released. -/
theorem tnIpcCmdReleasesocket_turns (hc : (w.msgs m).cmd = .releasesocket)
    (hl : tnSlotLookup w (w.msgs m).socketBase ((w.msgs m).args 0) = some i) :
    Turns (GivesUp w m) w (tnIpcCmdReleasesocket w m (some i)).1 := by
  have quiet : ∀ c fd, GivesUp w m c fd → (w.msgs m).socketBase = some c ∧
      fd = ((w.msgs m).args 0).toNat ∧ (w.sockets i).isParked = false ∧
      (∃ id, (chooseParkId w ((w.msgs m).args 1)).2 = .ok id) ∧ (w.msgs m).args 2 % 65536 = 0 := by
    intro c fd hS
    cases hS with
    | close _ hc' => rw [hc] at hc'; cases hc'
    | dup2 _ _ hc' => rw [hc] at hc'; cases hc'
    | release i' id _ hb' hl' hp hid hk hfd =>
      rw [hb'] at hl
      cases hl.symm.trans hl'
      exact ⟨hb', hfd, hp, ⟨id, hid⟩, hk⟩
  unfold tnIpcCmdReleasesocket
  dsimp only
  cases hb : (w.msgs m).socketBase with
  | none => rw [hb] at hl; cases hl
  | some b =>
    rw [hb] at hl quiet
    dsimp only
    split
    · rename_i hp
      refine Tame.turns (.fail (.refl w) _) fun c fd hS => ?_
      rw [(quiet c fd hS).2.2.1] at hp
      cases hp
    · rename_i hp
      have chosen : shelf (chooseParkId w ((w.msgs m).args 1)).1 = shelf w :=
        Deaf.chooseParkId shelf_deaf _
      split
      · rename_i w1 e heq
        rw [heq] at chosen
        refine Tame.turns (.fail (.of_eq chosen) _) fun c fd hS => ?_
        obtain ⟨-, -, -, ⟨id, hid⟩, -⟩ := quiet c fd hS
        rw [heq] at hid
        cases hid
      · rename_i w1 id heq
        rw [heq] at chosen
        generalize hw2 : w1.modSlot i _ = w2
        have parked : shelf w2 = shelf w := by
          rw [← hw2, ← chosen]
          simp
        split
        · rename_i hk
          refine Tame.turns (.done (.of_eq (by simpa using parked)) _ _) fun c fd hS => ?_
          exact absurd (quiet c fd hS).2.2.2.2 hk
        · rename_i hk
          refine ((Enters.after (.of_eq parked) (setFd_enters b _ none)).turns (fun c fd hS => ?_)
            (.inr (.inr ?_)) (.inl rfl)).tame (.done (.refl _) _ _)
          · exact .inl ⟨(Option.some.inj (quiet c fd hS).1).symm, (quiet c fd hS).2.1⟩
          · exact .release i id hc hb hl (by simpa using hp) (by rw [heq]) (not_not.mp hk) rfl

/-! ## Bases that are closed -/

/-- Code that closes bases: the table of a base that stays registered, or was not, is the same. -/
structure Reaps (w w' : World) : Prop where
  run : (shelf w).Ok → (shelf w').Ok ∧ (shelf w').posts = (shelf w).posts ∧
    (∀ k c, (shelf w').bases k = some c → (shelf w).bases k = some c) ∧
    ∀ c, (shelf w').Registered c ∨ ¬ (shelf w).Registered c →
      (shelf w').table c = (shelf w).table c

namespace Reaps

variable {w' w'' : World}

theorem refl (w : World) : Reaps w w :=
  ⟨fun hok => ⟨hok, rfl, fun _ _ h => h, fun _ _ => rfl⟩⟩

/-- Two bases that are reaped. -/
theorem trans (h : Reaps w w') (h' : Reaps w' w'') : Reaps w w'' := by
  refine ⟨fun hok => ?_⟩
  obtain ⟨hok', hp, hb, ht⟩ := h.run hok
  obtain ⟨hok'', hp', hb', ht'⟩ := h'.run hok'
  refine ⟨hok'', hp'.trans hp, fun k c hk => hb k c (hb' k c hk), fun c hc => ?_⟩
  rcases hc with ⟨k, hk⟩ | hc
  · exact (ht' c (.inl ⟨k, hk⟩)).trans (ht c (.inl ⟨k, hb' k c hk⟩))
  · have gone : ¬ (shelf w').Registered c := fun hr => by
      obtain ⟨k, hk⟩ := hr
      exact hc ⟨k, hb k c hk⟩
    exact (ht' c (.inr gone)).trans (ht c (.inr hc))

theorem of_eq (h : shelf w' = shelf w) : Reaps w w' := by
  refine ⟨fun hok => ?_⟩
  rw [h]
  exact ⟨hok, rfl, fun _ _ h => h, fun _ _ => rfl⟩

/-- A loop reaps when each turn does. -/
theorem foldl {α : Type} (f : World → α → World) (l : List α) (hf : ∀ w x, Reaps w (f w x))
    (w : World) : Reaps w (l.foldl f w) :=
  l.foldlRecOn (motive := Reaps w) f (refl w) fun _ done x _ => done.trans (hf _ x)

/-- A base that has left takes its table with it. -/
theorem turns {S : BaseId → Nat → Prop} (h : Reaps w w')
    (hS : ∀ b fd, S b fd → (w.bases b).fdMap fd = none) : Turns S w w' := by
  refine ⟨fun hok => ?_⟩
  obtain ⟨hok', hp, hb, ht⟩ := h.run hok
  refine ⟨hok', [], hp, fun c hr => ⟨?_, ?_⟩⟩
  · obtain ⟨k, hk⟩ := hr
    exact ⟨k, hb k c hk⟩
  · rw [ht c (.inl hr)]
    exact (Table.Grows.refl c _).turn (hS c)

end Reaps

/-- The descriptors of base `b` are closed. -/
theorem closeFds_spec (b : BaseId) (l : List Nat) :
    (shelf (l.foldl (closeFd b) w)).bases = (shelf w).bases ∧
      (shelf (l.foldl (closeFd b) w)).posts = (shelf w).posts ∧
      (∀ c, c ≠ b → (shelf (l.foldl (closeFd b) w)).table c = (shelf w).table c) ∧
      ((shelf w).Ok → (shelf (l.foldl (closeFd b) w)).Ok) := by
  induction l generalizing w with
  | nil => exact ⟨rfl, rfl, fun _ _ => rfl, id⟩
  | cons fd l ih =>
    obtain ⟨hb, hp, ht, ho⟩ := ih (w := closeFd b w fd)
    rw [List.foldl_cons]
    have one : closeFd b w fd = w ∨ Enters b fd none w (closeFd b w fd) := by
      unfold closeFd
      split
      · exact .inl rfl
      · split
        · exact .inr ((setFd_enters b fd none).still tnSlotUnref_still)
        · exact .inl rfl
    rcases one with h | h
    · rw [h] at hb hp ht ho ⊢
      exact ⟨hb, hp, ht, ho⟩
    · refine ⟨hb.trans h.bases, hp.trans h.posts, fun c hc => ?_, fun hok => ho (h.ok hok)⟩
      rw [ht c hc, h.table, Function.update_of_ne hc]

/-- The base leaves the registry and nothing else changes. -/
theorem unregisterBase_spec (b : BaseId) :
    (shelf (unregisterBase w (some b))).table = (shelf w).table ∧
      (shelf (unregisterBase w (some b))).posts = (shelf w).posts ∧
      (∀ k c, (shelf (unregisterBase w (some b))).bases k = some c → (shelf w).bases k = some c) ∧
      ((shelf w).Ok → (shelf (unregisterBase w (some b))).Ok ∧
        ¬ (shelf (unregisterBase w (some b))).Registered b) := by
  unfold unregisterBase
  split
  · rename_i k hk
    have sub : ∀ k' c, Function.update w.openBases k none k' = some c → w.openBases k' = some c := by
      intro k' c h
      by_cases hkk : k' = k
      · subst hkk
        rw [Function.update_self] at h
        cases h
      · rwa [Function.update_of_ne hkk] at h
    refine ⟨rfl, rfl, sub, fun hok => ⟨⟨hok.slot, hok.udp, hok.raw, ?_, hok.seats⟩, ?_⟩⟩
    · intro k1 k2 c h1 h2
      exact hok.unique k1 k2 c (sub k1 c h1) (sub k2 c h2)
    · rintro ⟨k', hk'⟩
      have same : k' = k := hok.unique k' k b (sub k' b hk') (baseIdx?_some hk)
      rw [same] at hk'
      simp [shelf] at hk'
  · rename_i hn
    refine ⟨rfl, rfl, fun _ _ h => h, fun hok => ⟨hok, ?_⟩⟩
    rintro ⟨k, hk⟩
    exact baseIdx?_none hn k hk

/-- A closed base is out of the registry, and no other base is touched. -/
theorem closeBase_spec (b : BaseId) (hok : (shelf w).Ok) :
    (shelf (closeBase w b)).Ok ∧ ¬ (shelf (closeBase w b)).Registered b ∧
      (shelf (closeBase w b)).posts = (shelf w).posts ∧
      (∀ k c, (shelf (closeBase w b)).bases k = some c → (shelf w).bases k = some c) ∧
      ∀ c, c ≠ b → (shelf (closeBase w b)).table c = (shelf w).table c := by
  unfold closeBase
  dsimp only
  rw [shelf_tnSlotClearOwnerBase, shelf_tnSelectorDisarmAllForBase]
  generalize hw1 : tnRecvCancelForBase2 (tnDnsCancelForBase2 w b true) b true = w1
  have quiet : shelf w1 = shelf w := by
    rw [← hw1]
    simp
  rw [← quiet] at hok ⊢
  obtain ⟨ht, hp, hb, ho⟩ := unregisterBase_spec (w := w1) b
  obtain ⟨hok', gone⟩ := ho hok
  generalize List.range _ = l
  obtain ⟨hb', hp', ht', ho'⟩ := closeFds_spec (w := unregisterBase w1 (some b)) b l
  refine ⟨ho' hok', ?_, hp'.trans hp, fun k c hk => ?_, fun c hc => ?_⟩
  · rintro ⟨k, hk⟩
    exact gone ⟨k, by rw [← hb']; exact hk⟩
  · rw [hb'] at hk
    exact hb k c hk
  · rw [ht' c hc, ht]

/-- The base of a dead task is reaped. -/
theorem reapAt_reaps (k : Fin 16) : Reaps w (reapAt w k) := by
  unfold reapAt
  split
  · exact .refl w
  · rename_i b hb
    split
    · exact .refl w
    · unfold reapBase
      dsimp only
      generalize hw1 : List.foldl (dropPendingAt b) _ _ = w1
      have quiet : shelf w1 = shelf w := by
        rw [← hw1]
        refine (Mute.foldl shelf_mute _ _ (fun _ _ _ => Replies.dropPendingAt shelf_replies b) _).trans ?_
        simp
      refine .trans (.of_eq quiet) ⟨fun hok => ?_⟩
      rw [shelf_libOpenCnt]
      obtain ⟨hok', gone, hp, hsub, ht⟩ := closeBase_spec b hok
      refine ⟨hok', hp, hsub, fun c hc => ht c ?_⟩
      rintro rfl
      rcases hc with hc | hc
      · exact gone hc
      · exact hc ⟨k, by rw [quiet]; exact hb⟩

/-- The reaper looks at every base. -/
theorem tnReapDeadClients_reaps : Reaps w (tnReapDeadClients w) :=
  .foldl _ _ (fun _ k => reapAt_reaps k) w

/-! ## Handlers -/

/-- `CLOSE` gives up every descriptor of its base. -/
theorem tnIpcCmdClose_turns (hc : (w.msgs m).cmd = .close) (hb : (w.msgs m).socketBase ≠ none) :
    Turns (GivesUp w m) w (tnIpcCmdClose w m).1 := by
  have none : ∀ c fd, ¬ GivesUp w m c fd := by
    rintro c fd (⟨_, hc'⟩ | ⟨_, _, hc'⟩ | ⟨_, _, hc'⟩) <;> rw [hc] at hc' <;> cases hc'
  unfold tnIpcCmdClose
  split
  · rename_i b _
    refine ⟨fun hok => ?_⟩
    obtain ⟨hok', gone, hp, hsub, ht⟩ := closeBase_spec b hok
    unfold done
    rw [shelf_setReply]
    refine ⟨hok', [], hp, fun c hr => ⟨?_, ?_⟩⟩
    · obtain ⟨k, hk⟩ := hr
      exact ⟨k, hsub k c hk⟩
    · have other : c ≠ b := by
        rintro rfl
        exact gone hr
      rw [ht c other]
      exact (Table.Grows.refl c _).turn fun fd h => absurd h (none c fd)
  · rename_i h
    exact absurd h hb

/-- `STOP` reaps at most. -/
theorem tnIpcCmdStop_reaps : Reaps w (tnIpcCmdStop w m).1 := by
  unfold tnIpcCmdStop
  dsimp only
  have preset : Reaps w (w.setReply m 0 .ok) := .of_eq (by simp)
  generalize hw1 : (if (w.setReply m 0 .ok).libOpenCnt > 0 then _ else _) = w1
  have reaped : Reaps w w1 := by
    rw [← hw1]
    split
    · exact preset.trans tnReapDeadClients_reaps
    · exact preset
  split
  · exact reaped.trans (.of_eq (by simp [fail, done]))
  · split
    · exact reaped.trans (.of_eq (by simp [fail, done]))
    · exact reaped.trans (.of_eq rfl)

/-- `OPEN` may close the bases of dead tasks, and the new base enters with the table it has. -/
theorem tnIpcCmdOpen_spec {b : BaseId} (hb : (w.msgs m).socketBase = some b) (hok : (shelf w).Ok) :
    (shelf (tnIpcCmdOpen w m).1).Ok ∧ (shelf (tnIpcCmdOpen w m).1).posts = (shelf w).posts ∧
      ∀ c, (shelf (tnIpcCmdOpen w m).1).Registered c →
        ((shelf w).Registered c ∨ c = b) ∧
        (shelf (tnIpcCmdOpen w m).1).table c = (shelf w).table c := by
  have entered : ∀ (w' : World) (k : Fin 16), Reaps w w' → (∀ k, w'.openBases k ≠ some b) →
      ¬ (shelf w).Registered b →
      (shelf (registerBase w' k b)).Ok ∧ (shelf (registerBase w' k b)).posts = (shelf w).posts ∧
        ∀ c, (shelf (registerBase w' k b)).Registered c →
          ((shelf w).Registered c ∨ c = b) ∧
          (shelf (registerBase w' k b)).table c = (shelf w).table c := by
    intro w' k hr hn hnew
    obtain ⟨hok', hp, hsub, ht⟩ := hr.run hok
    have entry : ∀ k' c, Function.update w'.openBases k (some b) k' = some c →
        (k' = k ∧ c = b) ∨ w'.openBases k' = some c := by
      intro k' c h
      by_cases hkk : k' = k
      · subst hkk
        rw [Function.update_self] at h
        exact .inl ⟨rfl, (Option.some.inj h).symm⟩
      · exact .inr (by rwa [Function.update_of_ne hkk] at h)
    refine ⟨⟨hok'.slot, hok'.udp, hok'.raw, ?_, hok'.seats⟩, hp, ?_⟩
    · intro k1 k2 c h1 h2
      rcases entry k1 c h1 with ⟨rfl, rfl⟩ | h1' <;> rcases entry k2 c h2 with ⟨h, h'⟩ | h2'
      · exact h.symm
      · exact absurd h2' (hn k2)
      · exact absurd (h' ▸ h1') (hn k1)
      · exact hok'.unique k1 k2 c h1' h2'
    · rintro c ⟨k', hk'⟩
      rcases entry k' c hk' with ⟨-, rfl⟩ | hk'
      · exact ⟨.inr rfl, ht c (.inr hnew)⟩
      · exact ⟨.inl ⟨k', hsub k' c hk'⟩, ht c (.inl ⟨k', hk'⟩)⟩
  have hostname : shelf (giveHostname w b) = shelf w := by
    unfold giveHostname
    split
    · rfl
    · exact shelf_modBase b _ rfl
  have quiet : ∀ w' : World, Reaps w w' →
      (shelf w').Ok ∧ (shelf w').posts = (shelf w).posts ∧ ∀ c, (shelf w').Registered c →
        ((shelf w).Registered c ∨ c = b) ∧ (shelf w').table c = (shelf w).table c := by
    intro w' hr
    obtain ⟨hok', hp, hsub, ht⟩ := hr.run hok
    exact ⟨hok', hp, fun c ⟨k, hk⟩ => ⟨.inl ⟨k, hsub k c hk⟩, ht c (.inl ⟨k, hk⟩)⟩⟩
  unfold tnIpcCmdOpen
  rw [hb]
  dsimp only [done, fail]
  split
  · rw [shelf_setReply]
    exact quiet _ (.of_eq hostname)
  · rename_i hnew
    have hnew : baseIdx? (giveHostname w b) (some b) = none := by simpa using hnew
    have fresh : ¬ (shelf w).Registered b := by
      rintro ⟨k, hk⟩
      rw [← hostname] at hk
      exact baseIdx?_none hnew k hk
    split
    · rename_i k _
      rw [shelf_setReply]
      exact entered _ k (.of_eq hostname) (baseIdx?_none hnew) fresh
    · have reaped : Reaps w (tnReapDeadClients (giveHostname w b)) :=
        .trans (.of_eq hostname) tnReapDeadClients_reaps
      split
      · rename_i k _
        rw [shelf_setReply]
        refine entered _ k reaped (fun k' hk' => ?_) fresh
        exact fresh ⟨k', (reaped.run hok).2.2.1 k' b hk'⟩
      · rw [shelf_setReply]
        exact quiet _ reaped

/-! ## Steps -/

/-- Which requests give a descriptor up. -/
theorem GivesUp.cmd {b : BaseId} {fd : Nat} (h : GivesUp w m b fd) :
    (w.msgs m).cmd = .closesocket ∨ (w.msgs m).cmd = .releasesocket ∨ (w.msgs m).cmd = .dup2 := by
  cases h with
  | close _ hc => exact .inl hc
  | release _ _ hc => exact .inr (.inl hc)
  | dup2 _ _ hc => exact .inr (.inr hc)

/-- They come with a slot or a table. -/
theorem GivesUp.lookup {b : BaseId} {fd : Nat} (h : GivesUp w m b fd) :
    ∃ i, tnSlotLookup w (w.msgs m).socketBase ((w.msgs m).args 0) = some i := by
  cases h with
  | close i _ hb hl => exact ⟨i, hb ▸ hl⟩
  | release i _ _ hb hl => exact ⟨i, hb ▸ hl⟩
  | dup2 i _ _ hb hl => exact ⟨i, hb ▸ hl⟩

/-- A message of another kind gives up no descriptor. -/
theorem GivesUp.not_of_cmd (h1 : (w.msgs m).cmd ≠ .closesocket)
    (h2 : (w.msgs m).cmd ≠ .releasesocket) (h3 : (w.msgs m).cmd ≠ .dup2) (b : BaseId) (fd : Nat)
    (h : GivesUp w m b fd) : (w.bases b).fdMap fd = none :=
  absurd h.cmd (by simp [h1, h2, h3])

/-- Every handler, by its command. -/
theorem handler_turns (slot : Option SlotIdx) (ho : (w.msgs m).cmd ≠ .open)
    (hb : needsBase (w.msgs m).cmd = true → (w.msgs m).socketBase ≠ none)
    (hl : needsFd (w.msgs m).cmd = true →
      ∃ i, slot = some i ∧ tnSlotLookup w (w.msgs m).socketBase ((w.msgs m).args 0) = some i) :
    Turns (GivesUp w m) w (handler w m slot).1 := by
  -- Only three commands give descriptors up.
  have gives : ∀ {c : TnIpcCmd}, (w.msgs m).cmd = c → c ∉ [.closesocket, .releasesocket, .dup2] →
      ∀ b fd, GivesUp w m b fd → (w.bases b).fdMap fd = none := fun hc hn =>
    GivesUp.not_of_cmd (fun h => hn (by simp [← hc, h])) (fun h => hn (by simp [← hc, h]))
      fun h => hn (by simp [← hc, h])
  unfold handler
  split <;> rename_i hc
  · exact absurd hc ho
  · exact tnIpcCmdClose_turns hc (hb (by rw [hc]; rfl))
  · exact tnIpcCmdSocket_tame.turns (gives hc (by decide))
  · exact (Broad.tnIpcCmdBind tame_broad slot).turns (gives hc (by decide))
  · exact (Broad.tnIpcCmdListen tame_broad slot).turns (gives hc (by decide))
  · exact (Broad.tnIpcCmdAccept tame_broad slot).turns (gives hc (by decide))
  · exact (Broad.tnIpcCmdConnect tame_broad slot).turns (gives hc (by decide))
  · exact (Broad.tnIpcCmdSendto tame_broad slot).turns (gives hc (by decide))
  · exact (Broad.tnIpcCmdSend tame_broad slot).turns (gives hc (by decide))
  · exact (Routine.tnIpcCmdRecvfrom tame_routine slot).turns (gives hc (by decide))
  · exact (Routine.tnIpcCmdRecv tame_routine slot).turns (gives hc (by decide))
  · exact (Callbacks.tnIpcCmdShutdown tame_callbacks slot).turns (gives hc (by decide))
  · obtain ⟨i, rfl, hi⟩ := hl (by rw [hc]; rfl)
    refine (Broad.tnIpcCmdSetsockopt tame_broad (some i) fun j hj => ?_).turns (gives hc (by decide))
    cases hj
    exact tnSlotLookup_inUse hi
  · exact (Stock.tnIpcCmdGetsockopt tame_stock slot).turns (gives hc (by decide))
  · exact (Stock.tnIpcCmdGetsockname tame_stock slot).turns (gives hc (by decide))
  · exact (Stock.tnIpcCmdGetpeername tame_stock slot).turns (gives hc (by decide))
  · exact (Stock.tnIpcCmdIoctl tame_stock slot).turns (gives hc (by decide))
  · obtain ⟨i, rfl, hi⟩ := hl (by rw [hc]; rfl)
    exact tnIpcCmdClosesocket_turns hc hi
  · exact (Routine.tnIpcCmdGethostbyname tame_routine).turns (gives hc (by decide))
  · exact (Stock.tnIpcCmdWaitselect tame_stock).turns (gives hc (by decide))
  · obtain ⟨i, rfl, hi⟩ := hl (by rw [hc]; rfl)
    exact tnIpcCmdDup2_turns hc hi
  · exact (Stock.tnIpcCmdReconfig tame_stock).turns (gives hc (by decide))
  · exact (Stock.tnIpcCmdEnumsockets tame_stock).turns (gives hc (by decide))
  · exact (Broad.tnIpcCmdSendmsg tame_broad slot).turns (gives hc (by decide))
  · exact (Routine.tnIpcCmdRecvmsg tame_routine slot).turns (gives hc (by decide))
  · obtain ⟨i, rfl, hi⟩ := hl (by rw [hc]; rfl)
    exact tnIpcCmdReleasesocket_turns hc hi
  · refine (Routine.tnIpcCmdObtainsocket tame_routine ?_).turns (gives hc (by decide))
    exact fun _ _ i _ hf => setFd_tame (pickFd?_some hf) i
  · exact (Stock.tnIpcCmdSelectArm tame_stock).turns (gives hc (by decide))
  · exact (Stock.tnIpcCmdSelectDisarm tame_stock).turns (gives hc (by decide))
  · exact (Stock.replyByAnswer tame_stock).turns (gives hc (by decide))
  · exact (Stock.replyByAnswer tame_stock).turns (gives hc (by decide))
  · exact (Stock.replyByAnswer tame_stock).turns (gives hc (by decide))
  · exact (Callbacks.tnIpcCmdIfctl tame_callbacks).turns (gives hc (by decide))
  · exact tnIpcCmdStop_reaps.turns (gives hc (by decide))
  · exact (Routine.tnIpcCmdCancel tame_routine).turns (gives hc (by decide))
  · exact (Stock.tnIpcCmdSyslog tame_stock).turns (gives hc (by decide))
  · exact Tame.turns (.fail (.refl w) _) (gives hc (by decide))
  · exact Tame.turns (.fail (.refl w) _) (gives hc (by decide))

/-- The state in which the handler of a message starts. -/
def arrived (w : World) (m : MsgId) (x : TnIpcMsg) (env : List Answer) : World :=
  ({ receive w m x with env := env } : World).setReply m 0 .ok

theorem shelf_arrived (x : TnIpcMsg) (env : List Answer) : shelf (arrived w m x env) = shelf w := rfl

@[simp] theorem msgs_arrived (x : TnIpcMsg) (env : List Answer) :
    (arrived w m x env).msgs m = { x with result := 0, errNo := .ok } := by
  simp [arrived, receive, setReply, modMsg]

/-- The descriptors a step makes the daemon give up. -/
def GaveUp (w : World) : Input → BaseId → Nat → Prop
  | .ipc m x env => GivesUp (arrived w m x env) m
  | _ => fun _ _ => False

/-- The base a step opens. -/
def Opens : Input → BaseId → Prop
  | .ipc _ x _, b => x.cmd = .open ∧ x.socketBase = some b
  | _, _ => False

/-- A step of a client on its own base. -/
def Input.isClient : Input → Bool
  | .client _ => true
  | _ => false

/-- What one step of the daemon does to the queues and to the tables of the bases that are
registered after it. -/
structure StepSpec (w : World) (inp : Input) (w' : World) : Prop where
  ok : (shelf w').Ok
  tables : ∃ l, (shelf w').posts = l ++ (shelf w).posts ∧
    ∀ b, (shelf w').Registered b → ((shelf w).Registered b ∨ Opens inp b) ∧
      Table.Turn (GaveUp w inp b) l b ((shelf w).table b) ((shelf w').table b)

/-- A turn meets the specification of the step. -/
theorem Turns.stepSpec {inp : Input} {w' : World} (h : Turns (GaveUp w inp) w w')
    (hok : (shelf w).Ok) : StepSpec w inp w' := by
  obtain ⟨hok', l, hl, ht⟩ := h.run hok
  exact ⟨hok', l, hl, fun b hr => ⟨.inl (ht b hr).1, (ht b hr).2⟩⟩

/-- The dispatcher, without `OPEN`. -/
theorem tnHandleIpc_turns (hm : (w.msgs m).cmd ≠ .open) :
    Turns (GivesUp (w.setReply m 0 .ok) m) w (tnHandleIpc w m).1 := by
  unfold tnHandleIpc
  dsimp only
  have preset : shelf (w.setReply m 0 .ok) = shelf w := by simp
  refine .after preset ?_
  generalize hw1 : w.setReply m 0 .ok = w1
  have cmd : (w1.msgs m).cmd ≠ .open := by
    rw [← hw1]
    simpa [setReply, modMsg] using hm
  split
  · rename_i hc
    refine Tame.turns (.fail (.refl w1) _) (GivesUp.not_of_cmd ?_ ?_ ?_) <;> rcases hc with hc | hc <;>
      rw [hc] <;> decide
  · split
    · rename_i hb
      refine Tame.turns (.fail (.refl w1) _) fun b fd h => ?_
      obtain ⟨i, hi⟩ := h.lookup
      rw [hb.2] at hi
      cases hi
    · rename_i hb
      have based : needsBase (w1.msgs m).cmd = true → (w1.msgs m).socketBase ≠ none :=
        fun h h' => hb ⟨h, h'⟩
      split
      · split
        · rename_i hl
          refine Tame.turns (.fail (.refl w1) _) fun b fd h => ?_
          obtain ⟨i, hi⟩ := h.lookup
          rw [hl] at hi
          cases hi
        · rename_i i hl
          exact handler_turns (some i) cmd based fun _ => ⟨i, rfl, hl⟩
      · rename_i hf
        exact handler_turns none cmd based fun h => absurd h hf

/-- The answer is on no shelf. -/
theorem shelf_handleMsg : shelf (handleMsg w m) = shelf (tnHandleIpc w m).1 := by
  unfold handleMsg
  split
  · rename_i heq
    rw [heq]
    exact shelf_replyMsg m
  · rename_i heq
    rw [heq]

/-- The tick moves no descriptor. -/
theorem timerTick_tame (evs : List LwipEv) : Tame w (timerTick w evs) := by
  unfold timerTick
  have ticked : Tame w { w with mainloopTicks := (w.mainloopTicks + 1) % 2 ^ 32 } := .of_eq rfl
  exact (ticked.trans (Wide.runEvs tame_wide evs)).trans
    (Replies.tnSlotCheckRecvTimeouts (Callbacks.toReplies tame_callbacks))

/-- Ctrl-C reaps at most. -/
theorem ctrlC_reaps : Reaps w (ctrlC w) := by
  unfold ctrlC
  dsimp only
  split
  · split
    · exact tnReapDeadClients_reaps.trans (.of_eq rfl)
    · exact tnReapDeadClients_reaps
  · exact .of_eq rfl

/-- So does the end of the daemon. -/
theorem shutdownAttempt_reaps : Reaps w (shutdownAttempt w) := by
  unfold shutdownAttempt
  dsimp only
  have stopping : Reaps w { w with stopping := true } := .of_eq rfl
  have reaped := stopping.trans tnReapDeadClients_reaps
  split
  · split
    · exact reaped.trans (.of_eq rfl)
    · exact reaped.trans (.of_eq rfl)
  · exact reaped

/-- Every step of the daemon. -/
theorem step_spec {inp : Input} (hc : inp.isClient = false) (hok : (shelf w).Ok) :
    StepSpec w inp (step w inp) := by
  have nothing : ∀ {inp : Input}, GaveUp w inp = (fun _ _ => False) →
      ∀ b fd, GaveUp w inp b fd → (w.bases b).fdMap fd = none := fun h b fd hg => by
    rw [h] at hg
    exact hg.elim
  cases inp with
  | client c => cases hc
  | lwip evs env =>
    exact (Tame.turns (Tame.trans (.of_eq (shelf_env env)) (Wide.runEvs tame_wide evs)) (nothing rfl)).stepSpec hok
  | tick evs env =>
    exact (Tame.turns (Tame.trans (.of_eq (shelf_env env)) (timerTick_tame evs)) (nothing rfl)).stepSpec hok
  | ctrlC env =>
    exact (Reaps.turns (.trans (.of_eq (shelf_env env)) ctrlC_reaps) (nothing rfl)).stepSpec hok
  | shutdown env =>
    exact (Reaps.turns (.trans (.of_eq (shelf_env env)) shutdownAttempt_reaps) (nothing rfl)).stepSpec hok
  | ipc m x env =>
    by_cases ho : x.cmd = .open
    · cases hb : x.socketBase with
      -- Without a base `OPEN` is refused before its handler runs.
      | none =>
        have refused : shelf (step w (.ipc m x env)) = shelf w := by
          show shelf (handleMsg _ m) = _
          rw [shelf_handleMsg]
          unfold tnHandleIpc
          dsimp only
          rw [show ({ receive w m x with env := env } : World).setReply m 0 .ok = arrived w m x env
            from rfl, msgs_arrived]
          simp only [ho, hb, needsBase, fail, done]
          simp [shelf_arrived]
        refine (Tame.turns (.of_eq refused) ?_).stepSpec hok
        exact GivesUp.not_of_cmd (w := arrived w m x env) (by simp [ho]) (by simp [ho]) (by simp [ho])
      -- `OPEN` gives its base a new table.
      | some b =>
        have opened : shelf (step w (.ipc m x env)) =
            shelf (tnIpcCmdOpen (arrived w m x env) m).1 := by
          show shelf (handleMsg _ m) = _
          rw [shelf_handleMsg]
          unfold tnHandleIpc
          dsimp only
          rw [show ({ receive w m x with env := env } : World).setReply m 0 .ok = arrived w m x env
            from rfl, msgs_arrived]
          simp only [ho, hb, needsBase, needsFd, handler, msgs_arrived]
          simp
        obtain ⟨hok', hp, ht⟩ := tnIpcCmdOpen_spec (w := arrived w m x env) (m := m) (b := b)
          (by simp [hb]) hok
        refine ⟨opened ▸ hok', [], ?_, fun c hr => ?_⟩
        · rw [opened, hp]
          rfl
        · rw [opened] at hr ⊢
          obtain ⟨hreg, htab⟩ := ht c hr
          refine ⟨hreg.imp_right fun (h : c = b) => ⟨ho, by rw [h]; exact hb⟩, ?_⟩
          rw [htab]
          exact (Table.Grows.refl c _).turn (GivesUp.not_of_cmd (w := arrived w m x env)
            (by simp [ho]) (by simp [ho]) (by simp [ho]) c)
    -- No other command changes who is registered.
    · have handled : Turns (GaveUp w (.ipc m x env)) { receive w m x with env := env }
          (step w (.ipc m x env)) :=
        (tnHandleIpc_turns (by simpa [receive] using ho)).tame (.of_eq shelf_handleMsg)
      have received : shelf ({ receive w m x with env := env } : World) = shelf w := rfl
      exact (Turns.after received handled).stepSpec hok

theorem shelf_init : (shelf tnSlotTableInit).Ok where
  slot := fun i => ⟨.nil, rfl, by simp [shelf, tnSlotTableInit, TnSocketSlot.onShelf], rfl⟩
  udp := fun p i h => by cases h
  raw := fun p i h => by cases h
  unique := fun k k' b h => by cases h
  seats := rfl

/-- The queues are in order in every reachable state. -/
theorem Reach.shelf_ok {ok : World → Input → Prop} {w : World} (h : Reach ok w) : (shelf w).Ok := by
  induction h with
  | init => exact shelf_init
  | @step w inp _ _ _ ih =>
    cases inp with
    | client c => cases c <;> exact ih.congr rfl rfl rfl rfl rfl
    | _ => exact (step_spec rfl ih).ok

/-- They are when a message has arrived. -/
theorem Reach.arrived_ok {ok : World → Input → Prop} {w : World} (h : Reach ok w) (m : MsgId)
    (x : TnIpcMsg) (env : List Answer) : (shelf (arrived w m x env)).Ok := h.shelf_ok

end Tolunnet
