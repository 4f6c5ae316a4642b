import Tolunnet.Client.Events
import Tolunnet.Client.Taglist

/-!
# `Tolunnet.Client.Resizing`: a descriptor table of another size

`SBTC_DTABLESIZE` replaces the tables of a base while the daemon and the other calls of the library
use them. `Fits` is what holds of a table at all times: its size is within the limits, and no
descriptor is open above it. A resize relies on it, since it looks for open descriptors below the
size only, and keeps it; the daemon opens descriptors below the size (`Table.Turn.fits`).

`Library` is the daemon with the bases of its clients, the library's part of each base and the memory
of the clients. `resizing_transparent` says what a resize does in any state that a run reaches.
-/

set_option autoImplicit false

namespace Tolunnet

open World

namespace Sbtc

variable {c c' : Caller} {base base' : TnSocketBase} {x : Texts} {tag : TagItem} {alloc : Allocs}

/-! ## Tables -/

/-- The table of a base is within its limits, and its open descriptors are in it. -/
structure Fits (base : TnSocketBase) : Prop where
  low : 4 ≤ base.dtablesize
  high : base.dtablesize ≤ maxFdsPerTask
  above : ∀ fd, base.fdMap fd ≠ none → fd < base.dtablesize

/-- Every open descriptor has its slot, its events and its mask, and no other one is open. -/
structure Keeps (base base' : TnSocketBase) : Prop where
  fdMap : base'.fdMap = base.fdMap
  events : ∀ fd, base.fdMap fd ≠ none → base'.events fd = base.events fd
  masks : ∀ fd, base.fdMap fd ≠ none → base'.eventMasks fd = base.eventMasks fd

/-- The entries that `base'` has and `base` has not are free, with no events and no mask. -/
def Gains (base base' : TnSocketBase) : Prop :=
  ∀ fd, base.dtablesize ≤ fd → fd < base'.dtablesize →
    base'.fdMap fd = none ∧ base'.events fd = 0 ∧ base'.eventMasks fd = 0

/-- Nothing done keeps the tables. -/
theorem Keeps.refl (base : TnSocketBase) : Keeps base base := ⟨rfl, fun _ _ => rfl, fun _ _ => rfl⟩

/-- Tables kept twice are kept. -/
theorem Keeps.trans {base'' : TnSocketBase} (h : Keeps base base') (h' : Keeps base' base'') :
    Keeps base base'' where
  fdMap := h'.fdMap.trans h.fdMap
  events := fun fd hfd => (h'.events fd (by rwa [h.fdMap])).trans (h.events fd hfd)
  masks := fun fd hfd => (h'.masks fd (by rwa [h.fdMap])).trans (h.masks fd hfd)

/-- The size that is asked for is within the limits afterwards. -/
theorem clampSize_bounds (n : Int) : 4 ≤ clampSize n ∧ clampSize n ≤ maxFdsPerTask := by
  unfold clampSize maxFdsPerTask
  dsimp only
  split_ifs <;> omega

/-- The search from the top finds the highest descriptor. -/
theorem highestOpen_lt {n : Int} (hn : 0 ≤ n) (h : Fits base) :
    ¬ n < highestOpen base + 1 ↔ ∀ fd, base.fdMap fd ≠ none → (fd : Int) < n := by
  have below : ∀ fd, base.fdMap fd ≠ none → fd ∈ (List.range base.dtablesize).reverse := by
    intro fd hfd
    rw [List.mem_reverse, List.mem_range]
    exact h.above fd hfd
  unfold highestOpen
  split
  · rename_i top found
    have is_open : base.fdMap top ≠ none := by
      intro free
      have := List.find?_some found
      simp [free] at this
    constructor
    · intro small fd hfd
      -- the list is read from the top, so whatever comes before the first hit is free
      obtain ⟨-, pre, post, split_at, free⟩ := List.find?_eq_some_iff_append.mp found
      have mem := below fd hfd
      rw [split_at, List.mem_append, List.mem_cons] at mem
      rcases mem with mem | rfl | mem
      · have no := free fd mem
        simp [hfd] at no
      · omega
      · have sorted : (pre ++ top :: post).Pairwise (· > ·) := by
          rw [← split_at, List.pairwise_reverse]
          exact List.pairwise_lt_range
        have lower : top > fd :=
          (List.pairwise_cons.mp (List.pairwise_append.mp sorted).2.1).1 fd mem
        omega
    · intro all
      have := all top is_open
      omega
  · rename_i none_open
    constructor
    · intro _ fd hfd
      have no := List.find?_eq_none.mp none_open fd (below fd hfd)
      simp [hfd] at no
    · intro _
      omega

/-- The tables that replace those of a base keep its open descriptors, when there is room for them,
and are empty elsewhere. -/
theorem swapTables_spec {n : Nat} (h : Fits base) (room : ∀ fd, base.fdMap fd ≠ none → fd < n) :
    Keeps base (swapTables base n) ∧ Gains base (swapTables base n) := by
  have copied : ∀ fd, base.fdMap fd ≠ none →
      fd < if n < base.dtablesize then n else base.dtablesize := by
    intro fd hfd
    split
    · exact room fd hfd
    · exact h.above fd hfd
  refine ⟨⟨?_, fun fd hfd => if_pos (copied fd hfd), fun fd hfd => if_pos (copied fd hfd)⟩, ?_⟩
  · funext fd
    by_cases hfd : base.fdMap fd = none
    · rw [hfd]
      show (if _ then base.fdMap fd else none) = none
      rw [hfd, ite_self]
    · exact if_pos (copied fd hfd)
  · intro fd old new
    have beyond : ¬ fd < if n < base.dtablesize then n else base.dtablesize := by
      split <;> omega
    exact ⟨if_neg beyond, if_neg beyond, if_neg beyond⟩

/-- Tables of another size fit. -/
theorem Fits.swapTables {n : Nat} (h : Fits base) (room : ∀ fd, base.fdMap fd ≠ none → fd < n)
    (low : 4 ≤ n) (high : n ≤ maxFdsPerTask) : Fits (swapTables base n) where
  low := low
  high := high
  above := fun fd hfd => room fd (by rwa [(swapTables_spec h room).1.fdMap] at hfd)

/-! ## One tag -/

/-- How many bytes the error variable of the client has. -/
def errnoSize (lib : LibPart) : Nat :=
  if lib.errnoPtr = 0 then 0 else if lib.errnoWidth = 1 then 1 else if lib.errnoWidth = 2 then 2 else 4

/-- Nothing but the error number is different. -/
structure OnlyErrno (err : BitVec 32) (c c' : Caller) : Prop where
  base : c'.base = c.base
  lib : c'.lib = { c.lib with taskErrno := err }
  mem : ∀ a, a < c.lib.errnoPtr.toNat ∨ c.lib.errnoPtr.toNat + errnoSize c.lib ≤ a →
    c'.mem a = c.mem a

/-- Setting the error number changes nothing else. -/
theorem tnSetErrnoVal_only (c : Caller) (err : BitVec 32) : OnlyErrno err c (tnSetErrnoVal c err) where
  base := rfl
  lib := rfl
  mem := by
    intro a outside
    unfold errnoSize at outside
    unfold tnSetErrnoVal
    dsimp only
    split_ifs at outside ⊢ with null byte word
    · rfl
    all_goals
      unfold poke
      refine if_neg fun inside => ?_
      simp only [List.length_cons, List.length_nil, bytes16, bytes32] at inside
      omega

/-- What a request for a table of `n` entries comes to. -/
inductive Outcome (c : Caller) (n : Nat) (alloc : Allocs) : Except Caller Caller → Prop where
  | refused (fd : Nat) (c' : Caller) (used : c.base.fdMap fd ≠ none) (hn : n ≤ fd)
      (only : OnlyErrno einval c c') : Outcome c n alloc (.error c')
  | failed (c' : Caller) (room : ∀ fd, c.base.fdMap fd ≠ none → fd < n) (hn : n ≠ c.base.dtablesize)
      (short : (alloc.nm && alloc.ne && alloc.nk) = false) (only : OnlyErrno enomem c c') :
      Outcome c n alloc (.error c')
  | resized (base' : TnSocketBase) (room : ∀ fd, c.base.fdMap fd ≠ none → fd < n)
      (size : base'.dtablesize = n) (fits : Fits base') (keeps : Keeps c.base base')
      (gains : Gains c.base base') : Outcome c n alloc (.ok { c with base := base' })

/-- A request for a table of another size is refused, or fails for want of memory, or gives the table
the size that was asked for. -/
theorem setDtablesize_outcome (h : Fits c.base) (newsize : Int) (alloc : Allocs) :
    Outcome c (clampSize newsize).toNat alloc (setDtablesize c newsize alloc) := by
  obtain ⟨low, high⟩ := clampSize_bounds newsize
  obtain ⟨n, hn⟩ := Int.eq_ofNat_of_zero_le (by omega : 0 ≤ clampSize newsize)
  have lift : ∀ fd : Nat, (fd : Int) < n ↔ fd < n := fun fd => Int.ofNat_lt
  unfold setDtablesize
  dsimp only
  rw [hn] at low high ⊢
  rw [Int.toNat_natCast]
  have search := highestOpen_lt (n := (n : Int)) (by omega) h
  split_ifs with refuse other memory
  · -- a descriptor would be cut off
    have := mt search.mpr (not_not.mpr refuse.2)
    push Not at this
    obtain ⟨fd, used, hfd⟩ := this
    exact .refused fd _ used (by omega) (tnSetErrnoVal_only c einval)
  all_goals
    have room : ∀ fd, c.base.fdMap fd ≠ none → fd < n := by
      intro fd hfd
      by_cases small : (n : Int) ≤ c.base.dtablesize
      · exact (lift fd).mp (search.mp (fun lt => refuse ⟨small, lt⟩) fd hfd)
      · have := h.above fd hfd
        omega
  · obtain ⟨keeps, gains⟩ := swapTables_spec h room
    exact .resized _ room rfl (h.swapTables room (by omega) (by omega)) keeps gains
  · exact .failed _ room (by omega) (by simpa using memory) (tnSetErrnoVal_only c enomem)
  · have same : c.base.dtablesize = n := by omega
    exact .resized c.base room same h (.refl _) fun fd old new => absurd old (by omega)

/-- A tag that asks for a table of another size. -/
def IsResize (tag : TagItem) : Prop :=
  TnSbtc.ofCode? (sbtmCode tag.tiTag) = some .dtablesize ∧ (tag.tiTag &&& sbtfSet != 0) = true

/-- The size it asks for, within the limits. -/
def askedEntries (mem : Mem) (tag : TagItem) : Nat :=
  (clampSize (askedSize mem tag tag.tiData)).toNat

/-- The tables are the same. -/
structure SameTables (base base' : TnSocketBase) : Prop where
  fdMap : base'.fdMap = base.fdMap
  dtablesize : base'.dtablesize = base.dtablesize
  events : base'.events = base.events
  masks : base'.eventMasks = base.eventMasks

/-- The same tables are kept. -/
theorem SameTables.keeps (h : SameTables base base') : Keeps base base' :=
  ⟨h.fdMap, fun _ _ => by rw [h.events], fun _ _ => by rw [h.masks]⟩

/-- The same tables fit. -/
theorem SameTables.fits (h : SameTables base base') (hf : Fits base) : Fits base' where
  low := h.dtablesize ▸ hf.low
  high := h.dtablesize ▸ hf.high
  above := by
    rw [h.fdMap, h.dtablesize]
    exact hf.above

/-- No operation but the resize touches the tables, or fails. -/
theorem applyOp_other (x : Texts) (c : Caller) (tag : TagItem) (alloc : Allocs) {r : TnSbtcResult}
    (h : r.op ≠ .setDtablesize) :
    ∃ c' tag', applyOp x c tag r alloc = .ok (c', tag') ∧ SameTables c.base c'.base := by
  have put : ∀ isRef v, SameTables c.base (putBack c tag isRef v).1.base := by
    intro isRef v
    unfold putBack
    split <;> exact ⟨rfl, rfl, rfl, rfl⟩
  unfold applyOp
  cases hop : r.op
  case setDtablesize => exact absurd hop h
  case get => exact ⟨_, _, rfl, put _ _⟩
  case getErrnoStr => exact ⟨_, _, rfl, put _ _⟩
  case getHerrnoStr => exact ⟨_, _, rfl, put _ _⟩
  case getIoerrnoStr => exact ⟨_, _, rfl, put _ _⟩
  case getS2errnoStr => exact ⟨_, _, rfl, put _ _⟩
  case getS2werrnoStr => exact ⟨_, _, rfl, put _ _⟩
  all_goals exact ⟨_, _, rfl, rfl, rfl, rfl, rfl⟩

/-- The tag is dispatched as a resize. -/
theorem dispatch_resize (h : IsResize tag) (st : TnSbtcState) :
    tnSbtcDispatchTag tag.tiTag tag.tiData st =
      { op := .setDtablesize, isRef := tag.tiTag &&& sbtfRef != 0, value := tag.tiData } := by
  unfold tnSbtcDispatchTag
  simp only [h.1, h.2, if_true]

/-- A tag that is not a resize is another operation. -/
theorem dispatch_other (h : ¬ IsResize tag) (st : TnSbtcState) :
    (tnSbtcDispatchTag tag.tiTag tag.tiData st).op ≠ .setDtablesize := by
  unfold IsResize at h
  unfold tnSbtcDispatchTag
  dsimp only
  split <;> rename_i code
  case h_7 =>
    rw [if_neg fun set => h ⟨code, set⟩]
    exact TnSbtcOp.noConfusion
  all_goals (try split) <;> exact TnSbtcOp.noConfusion

/-- A resize, in the loop. -/
theorem tagTurn_resize (h : Fits c.base) (hs : IsResize tag) (alloc : Allocs) :
    ∃ out, Outcome c (askedEntries c.mem tag) alloc out ∧
      tagTurn x c tag alloc = out.map fun c => (c, tag) := by
  refine ⟨_, setDtablesize_outcome h (askedSize c.mem tag tag.tiData) alloc, ?_⟩
  unfold tagTurn
  rw [dispatch_resize hs]
  rfl

/-- Every turn of the loop that goes on keeps what is open. -/
theorem tagTurn_keeps {tag' : TagItem} (h : Fits c.base)
    (ht : tagTurn x c tag alloc = .ok (c', tag')) : Keeps c.base c'.base ∧ Fits c'.base := by
  by_cases hs : IsResize tag
  · obtain ⟨out, outcome, same⟩ := tagTurn_resize (x := x) h hs alloc
    rw [ht] at same
    cases outcome with
    | refused => cases same
    | failed => cases same
    | resized base' room size fits keeps gains =>
      cases same
      exact ⟨keeps, fits⟩
  · unfold tagTurn at ht
    dsimp only at ht
    split at ht
    · obtain ⟨c1, tag1, ok, same⟩ := applyOp_other x c tag alloc
        (dispatch_other hs (c.state x))
      rw [ok] at ht
      cases ht
      exact ⟨same.keeps, same.fits h⟩
    · cases ht

/-- A turn that ends the call changes no more than the error number. -/
theorem tagTurn_error (h : Fits c.base) (ht : tagTurn x c tag alloc = .error c') :
    c'.base = c.base := by
  by_cases hs : IsResize tag
  · obtain ⟨out, outcome, same⟩ := tagTurn_resize (x := x) h hs alloc
    rw [ht] at same
    cases outcome with
    | refused fd c1 used hn only =>
      cases same
      exact only.base
    | failed c1 room hn short only =>
      cases same
      exact only.base
    | resized => cases same
  · unfold tagTurn at ht
    dsimp only at ht
    split at ht
    · obtain ⟨c1, tag1, ok, same⟩ := applyOp_other x c tag alloc
        (dispatch_other hs (c.state x))
      rw [ok] at ht
      cases ht
    · cases ht
      rfl

/-! ## The call -/

/-- A tag that fails ends the call. -/
theorem tagLoop_error {tags : List TagItem} {env : List Allocs} (idx : Int)
    (h : tagTurn x c tag (env.headD {}) = .error c') :
    tagLoop x (tag :: tags) env idx c = (idx + 1, c', tag :: tags) := by
  rw [tagLoop, h]

/-- After a tag that succeeds come the others. -/
theorem tagLoop_ok {tags : List TagItem} {env : List Allocs} (idx : Int) {p : Caller × TagItem}
    (h : tagTurn x c tag (env.headD {}) = .ok p) :
    tagLoop x (tag :: tags) env idx c =
      ((tagLoop x tags env.tail (idx + 1) p.1).1, (tagLoop x tags env.tail (idx + 1) p.1).2.1,
        p.2 :: (tagLoop x tags env.tail (idx + 1) p.1).2.2) := by
  rw [tagLoop, h]

/-- The loop keeps what is open, however it ends. -/
theorem tagLoop_keeps (x : Texts) (tags : List TagItem) :
    ∀ (env : List Allocs) (idx : Int) (c : Caller), Fits c.base →
      Keeps c.base (tagLoop x tags env idx c).2.1.base ∧ Fits (tagLoop x tags env idx c).2.1.base := by
  induction tags with
  | nil =>
    intro env idx c h
    exact ⟨.refl _, h⟩
  | cons tag tags ih =>
    intro env idx c h
    cases ht : tagTurn x c tag (env.headD {}) with
    | error c1 =>
      rw [tagLoop_error idx ht]
      show Keeps c.base c1.base ∧ Fits c1.base
      rw [tagTurn_error h ht]
      exact ⟨.refl _, h⟩
    | ok p =>
      rw [tagLoop_ok idx ht]
      obtain ⟨keeps, fits⟩ := tagTurn_keeps h ht
      obtain ⟨keeps', fits'⟩ := ih env.tail (idx + 1) p.1 fits
      exact ⟨keeps.trans keeps', fits'⟩

/-- The loop goes on from where the first tags have brought it. The index counts from zero, so a
call that stops does not return 0. -/
theorem tagLoop_append (rest : List TagItem) (pre : List TagItem) :
    ∀ (env : List Allocs) (idx : Int) (c cn : Caller) (handled : List TagItem), 0 ≤ idx →
      tagLoop x pre env idx c = (0, cn, handled) →
      tagLoop x (pre ++ rest) env idx c =
        ((tagLoop x rest (env.drop pre.length) (idx + pre.length) cn).1,
          (tagLoop x rest (env.drop pre.length) (idx + pre.length) cn).2.1,
          handled ++ (tagLoop x rest (env.drop pre.length) (idx + pre.length) cn).2.2) := by
  induction pre with
  | nil =>
    intro env idx c cn handled _ hp
    cases hp
    simp
  | cons tag pre ih =>
    intro env idx c cn handled hidx hp
    rw [List.cons_append]
    cases ht : tagTurn x c tag (env.headD {}) with
    | error c1 =>
      rw [tagLoop_error idx ht] at hp
      have zero : idx + 1 = 0 := congrArg Prod.fst hp
      omega
    | ok p =>
      rw [tagLoop_ok idx ht] at hp
      obtain ⟨result, state, handled_eq⟩ : _ = (0 : Int) ∧ _ = cn ∧ _ = handled :=
        ⟨congrArg Prod.fst hp, congrArg (·.2.1) hp, congrArg (·.2.2) hp⟩
      rw [tagLoop_ok idx ht, ih env.tail (idx + 1) p.1 cn _ (by omega)
        (Prod.ext result (Prod.ext state rfl)), ← handled_eq]
      have here : idx + 1 + (pre.length : Int) = idx + ((tag :: pre).length : Int) := by
        rw [List.length_cons]
        omega
      rw [here, List.drop_tail, List.length_cons, List.cons_append]

/-- What a resize does, wherever it stands in a call: `pre` are the tags before it, which the call has
handled, and `post` the tags after it. -/
structure Transparent (x : Texts) (c : Caller) : Prop where
  fits : Fits c.base
  keeps : ∀ env tags, Keeps c.base (tnLvoSocketbasetaglist x c env tags).2.1.base ∧
    Fits (tnLvoSocketbasetaglist x c env tags).2.1.base
  resize : ∀ env pre tag post cn handled,
    tnLvoSocketbasetaglist x c env (some pre) = (0, cn, handled) → IsResize tag →
      (∃ c', Outcome cn (askedEntries cn.mem tag) (env.getD pre.length {}) (.ok c') ∧
        tnLvoSocketbasetaglist x c env (some (pre ++ [tag])) = (0, c', handled ++ [tag])) ∨
      ∃ c', Outcome cn (askedEntries cn.mem tag) (env.getD pre.length {}) (.error c') ∧
        tnLvoSocketbasetaglist x c env (some (pre ++ tag :: post)) =
          ((pre.length : Int) + 1, c', handled ++ tag :: post)

/-- What a call does to the tables. -/
theorem transparent (x : Texts) (h : Fits c.base) : Transparent x c where
  fits := h
  keeps := by
    intro env tags
    cases tags with
    | none => exact ⟨.refl _, h⟩
    | some tags => exact tagLoop_keeps x tags env 0 c h
  resize := by
    intro env pre tag post cn handled before hs
    have hn : Fits cn.base := by
      have fits := (tagLoop_keeps x pre env 0 c h).2
      rwa [show tagLoop x pre env 0 c = (0, cn, handled) from before] at fits
    have next : ∀ l, tnLvoSocketbasetaglist x c env (some (pre ++ l)) = _ :=
      fun l => tagLoop_append l pre env 0 c cn handled (le_refl 0) before
    have answer : (env.drop pre.length).headD {} = env.getD pre.length {} := by
      rw [List.headD_eq_head?_getD, List.head?_drop, List.getD_eq_getElem?_getD]
    obtain ⟨out, outcome, turn⟩ := tagTurn_resize (x := x) hn hs (env.getD pre.length {})
    rw [← answer] at turn
    cases out with
    | ok c1 =>
      refine .inl ⟨c1, outcome, ?_⟩
      rw [next, tagLoop_ok _ turn]
      rfl
    | error c1 =>
      refine .inr ⟨c1, outcome, ?_⟩
      rw [next, tagLoop_error _ turn, zero_add]

/-! ## Runs -/

/-- The daemon and its clients, with the library's part of each base and the memory of the clients. -/
structure Library where
  s : Clients := {}
  lib : BaseId → LibPart := fun _ => {}
  mem : Mem := fun _ => 0

/-- What happens next. A call of `SocketBaseTagList` that others interrupt between two tags comes to
the same as several calls with fewer tags. -/
inductive LibStep where
  | other (d : Doing)
  | own (b : BaseId) (lib : LibPart) (mem : Mem)
  | taglist (b : BaseId) (env : List Allocs) (tags : Option (List TagItem))

namespace Library

/-- A client, as the call sees it. -/
def caller (l : Library) (b : BaseId) : Caller :=
  { base := l.s.w.bases b, lib := l.lib b, mem := l.mem }

/-- What a call leaves of the client. -/
def put (l : Library) (b : BaseId) (c : Caller) : Library :=
  { s := { l.s with w := l.s.w.modBase b fun _ => c.base }
    lib := Function.update l.lib b c.lib
    mem := c.mem }

/-- The next state. -/
def next (x : Texts) (l : Library) : LibStep → Library
  | .other d => { l with s := l.s.next d }
  | .own b lib mem => { l with lib := Function.update l.lib b lib, mem := mem }
  | .taglist b env tags => l.put b (tnLvoSocketbasetaglist x (l.caller b) env tags).2.1

/-- What the library lets happen. A base is opened with the default size, and its tables get another
size in `SocketBaseTagList` only. -/
def Allowed (l : Library) : LibStep → Prop
  | .other (.dtablesize _ _) => False
  | .other (.daemon inp) => l.s.Allowed (.daemon inp) ∧
      ∀ b, Opens inp b → (l.s.w.bases b).dtablesize = defaultDtablesize
  | .other d => l.s.Allowed d
  | _ => True

/-- The states that a run reaches. -/
inductive Runs (x : Texts) : Library → Prop where
  | init : Runs x {}
  | next {l : Library} {d : LibStep} : Runs x l → l.Allowed d → Runs x (l.next x d)

end Library

/-- The tables of every base that is open fit. -/
structure TablesFit (w : World) : Prop where
  shelf : (shelf w).Ok
  fits : ∀ b, registered w b → Fits (w.bases b)

/-- A client changes its base. -/
theorem TablesFit.modBase {w : World} {b : BaseId} {f : TnSocketBase → TnSocketBase} (h : TablesFit w)
    (hf : Fits (w.bases b) → Fits (f (w.bases b))) : TablesFit (w.modBase b f) where
  shelf := h.shelf.congr rfl rfl rfl rfl rfl
  fits := by
    intro b' hr
    have before : Fits (w.bases b') := h.fits b' hr
    show Fits (Function.update w.bases b (f (w.bases b)) b')
    by_cases same : b' = b
    · subst same
      rw [Function.update_self]
      exact hf before
    · rwa [Function.update_of_ne same]

/-- The daemon opens descriptors below the size of a table, and does not resize it. -/
theorem TablesFit.daemon {w : World} {inp : Input} (h : TablesFit w) (hc : inp.isClient = false)
    (ho : ∀ b, Opens inp b → Clients.Fresh (w.bases b) ∧ (w.bases b).dtablesize = defaultDtablesize) :
    TablesFit (step w inp) := by
  have spec := step_spec hc h.shelf
  refine ⟨spec.ok, fun b hr => ?_⟩
  obtain ⟨l, -, tables⟩ := spec.tables
  obtain ⟨before, turn⟩ := tables b hr
  have fits : Fits (w.bases b) := by
    rcases before with known | opens
    · exact h.fits b known
    · obtain ⟨fresh, size⟩ := ho b opens
      exact ⟨by rw [size]; decide, by rw [size]; decide, fun fd open_ => absurd (fresh.fdMap fd) open_⟩
  have size : ((step w inp).bases b).dtablesize = (w.bases b).dtablesize := turn.size
  refine ⟨size ▸ fits.low, size ▸ fits.high, fun fd hfd => ?_⟩
  rw [size]
  by_cases was : (w.bases b).fdMap fd = none
  · exact turn.fits fd was hfd
  · exact fits.above fd was

/-- A step of the daemon or of a client that is not a resize. -/
theorem TablesFit.next {s : Clients} {d : Doing} (h : TablesFit s.w)
    (ha : Library.Allowed { s := s } (.other d)) : TablesFit (s.next d).w := by
  cases d with
  | daemon inp => exact h.daemon ha.1.1 fun b opens => ⟨ha.1.2.2 b opens, ha.2 b opens⟩
  | libOpen b base =>
    have closed : ¬ registered s.w b := ha.1
    refine ⟨h.shelf.congr rfl rfl rfl rfl rfl, fun b' hr => ?_⟩
    have other : b' ≠ b := fun same => closed (same ▸ hr)
    show Fits (Function.update s.w.bases b base b')
    rw [Function.update_of_ne other]
    exact h.fits b' hr
  | eventMask b sock optval optlen =>
    show TablesFit (s.eventMask b sock optval optlen).w
    unfold Clients.eventMask
    split
    · exact h.modBase
        (f := fun base => { base with eventMasks := Function.update base.eventMasks sock.toNat _ })
        fun fits => ⟨fits.low, fits.high, fits.above⟩
    · exact h
  | getEvents b =>
    show TablesFit (s.getEvents b).w
    unfold Clients.getEvents
    split
    · exact h
    · exact h.modBase (f := fun base => { base with events := Function.update base.events _ 0 })
        fun fits => ⟨fits.low, fits.high, fits.above⟩
  | signals b io sev sel =>
    exact h.modBase (f := fun base => { base with sigIo := io, sigEvent := sev, sigSelect := sel })
      fun fits => ⟨fits.low, fits.high, fits.above⟩
  | dtablesize b n => exact ha.elim
  | taskExit t => exact ⟨h.shelf.congr rfl rfl rfl rfl rfl, h.fits⟩
  | openCnt n => exact ⟨h.shelf.congr rfl rfl rfl rfl rfl, h.fits⟩

/-- The tables fit in every state that a run reaches. -/
theorem Library.Runs.tablesFit {l : Library} (h : Library.Runs x l) : TablesFit l.s.w := by
  induction h with
  | init =>
    refine ⟨shelf_init, fun b hr => ?_⟩
    obtain ⟨k, hk⟩ := hr
    cases hk
  | @next l d _ ha ih =>
    cases d with
    | other d => exact ih.next (by cases d <;> exact ha)
    | own b lib mem => exact ih
    | taglist b env tags =>
      exact ih.modBase (f := fun _ => (tnLvoSocketbasetaglist x (l.caller b) env tags).2.1.base)
        fun fits => ((transparent (c := l.caller b) x fits).keeps env tags).2

/-- In every state that a run reaches, the table of an open base is within its limits and above its
open descriptors. A resize keeps every open descriptor with its events and its mask, and gains free
entries, or it is refused or fails, which sets the error number and ends the call with the index of
the tag. -/
theorem resizing_transparent (x : Texts) {l : Library} (h : Library.Runs x l) {b : BaseId}
    (hr : registered l.s.w b) : Transparent x (l.caller b) :=
  transparent x (h.tablesFit.fits b hr)

/-- One client has opened its base. -/
def firstClient : Library := { s := Clients.oneOpen }

/-- The first client is reached. -/
theorem firstClient_runs (x : Texts) : Library.Runs x firstClient := by
  have fresh : Clients.Fresh {} := ⟨fun _ => rfl, fun _ => rfl, fun _ => rfl⟩
  have closed : ¬ registered ({} : Clients).w 1 := by
    rintro ⟨k, hk⟩
    cases hk
  have built : Library.Runs x { s := ({} : Clients).next (.libOpen 1 {}) } :=
    .next (d := .other (.libOpen 1 {})) .init ⟨closed, fresh⟩
  have first : (({} : Clients).next (.libOpen 1 {})).Allowed
      (.daemon (.ipc 1 { cmd := .open, socketBase := some 1 } [])) := by
    refine ⟨rfl, ⟨by decide, fun pl => ?_, ?_⟩, ?_⟩
    · rcases pl with ⟨i, k⟩ | k | _
      · exact fun held => by cases held
      · exact fun held => by cases held
      · exact fun held => by cases held
    · intro b hb
      exact .inr ⟨rfl, fun fd => by obtain rfl : 1 = b := Option.some.inj hb; rfl⟩
    · rintro b ⟨-, hb⟩
      obtain rfl : 1 = b := Option.some.inj hb
      exact fresh
  have usual : ∀ b, Opens (.ipc 1 { cmd := .open, socketBase := some 1 } []) b →
      ((({} : Clients).next (.libOpen 1 {})).w.bases b).dtablesize = defaultDtablesize := by
    rintro b ⟨-, hb⟩
    obtain rfl : 1 = b := Option.some.inj hb
    rfl
  exact built.next (d := .other (.daemon (.ipc 1 { cmd := .open, socketBase := some 1 } [])))
    ⟨first, usual⟩

/-- A library whose texts are all at address 1. -/
def oneText : Texts where
  tnStrerror := fun _ => 1
  tnHstrerror := fun _ => 1
  tnIoerror := fun _ => 1
  tnS2error := fun _ => 1
  tnS2werror := fun _ => 1
  release := 1

/-- The client's own table. -/
theorem resizing_transparent_firstClient : Transparent oneText (firstClient.caller 1) :=
  resizing_transparent oneText (firstClient_runs oneText) ⟨0, by decide⟩

end Sbtc

end Tolunnet
