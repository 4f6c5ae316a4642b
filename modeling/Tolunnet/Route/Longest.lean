import Mathlib.Tactic.IntervalCases
import Tolunnet.Lib.Netmask
import Tolunnet.Task.Route

/-!
# `Tolunnet.Route.Longest`: longest-prefix routing

`Sound` is what `tn_route_add` and `tn_route_delete` keep: a route in use has a netmask and no host
bits, and no two have the same prefix. `Best` is the answer a routing table should give, a matching
route that is longer than any other match. `tnRouteLookup_longest` says that the lookup finds it after
every history, that the order of the history does not matter, and that a failed call changes nothing.
-/

set_option autoImplicit false

namespace Tolunnet

namespace Route

open Netmask

variable {e : Endian} {t t' : RouteTable} {i j : RouteIdx} {v v' dest mask gw : BitVec 32} {n n' : Nat}

/-! ## Bytes -/

/-- The bit of the word in memory that is bit `k` of its canonical value. -/
def bitOf : Endian → Nat → Nat
  | .big, k => k
  | .little, k => 8 * (3 - k / 8) + k % 8

/-- The bits of the address in order. -/
theorem getLsbD_be32 {k : Nat} (hk : k < 32) : (be32 e v).getLsbD k = v.getLsbD (bitOf e k) := by
  cases e with
  | big =>
    interval_cases k <;> simp [be32, byteAt, bitOf]
  | little =>
    interval_cases k <;> simp [be32, byteAt, bitOf]

theorem bitOf_lt {k : Nat} (hk : k < 32) : bitOf e k < 32 := by
  cases e with
  | big => exact hk
  | little =>
    show 8 * (3 - k / 8) + k % 8 < 32
    omega

/-- Turning the bits twice. -/
theorem bitOf_bitOf {k : Nat} (hk : k < 32) : bitOf e (bitOf e k) = k := by
  cases e with
  | big => rfl
  | little =>
    show 8 * (3 - (8 * (3 - k / 8) + k % 8) / 8) + (8 * (3 - k / 8) + k % 8) % 8 = k
    omega

/-- Two words are the same when their canonical values are. -/
theorem be32_inj (h : be32 e v = be32 e v') : v = v' := by
  refine BitVec.eq_of_getLsbD_eq fun k hk => ?_
  have bit := congrArg (fun x => x.getLsbD (bitOf e k)) h
  simp only [getLsbD_be32 (bitOf_lt hk), bitOf_bitOf hk] at bit
  exact bit

/-! ## Prefixes -/

/-- A contiguous mask is one of the 33. -/
theorem maskIsContiguous_iff : maskIsContiguous v = true ↔ ∃ n ≤ 32, v = netmask 32 n := by
  rw [← isNetmask_iff]
  unfold maskIsContiguous
  exact beq_iff_eq

/-- The sign bit ends the loop of `mask_prefix_len`. -/
theorem topBit_iff : v &&& 0x80000000 ≠ 0 ↔ v.msb = true := by
  have top : (0x80000000 : BitVec 32) = BitVec.twoPow 32 31 := rfl
  rw [top, BitVec.and_twoPow, BitVec.msb_eq_getLsbD_last]
  cases v.getLsbD 31 <;> simp [BitVec.twoPow]

/-- The loop counts the ones of a mask. -/
theorem maskPrefixLoop_netmask {turns acc : Nat} (ht : n < turns) (hn : n ≤ 32) :
    maskPrefixLoop turns (netmask 32 n) acc = acc + n := by
  induction turns generalizing n acc with
  | zero => omega
  | succ turns ih =>
    unfold maskPrefixLoop
    cases n with
    | zero => rw [if_neg (by rw [topBit_iff, msb_netmask (by omega)]; simp), Nat.add_zero]
    | succ n =>
      rw [if_pos (by rw [topBit_iff, msb_netmask (by omega)]; simp),
        netmask_shiftLeft_one (by omega), ih (by omega) (by omega)]
      omega

/-- The length of a netmask is the number of its ones. -/
theorem maskPrefixLen_netmask (hn : n ≤ 32) : maskPrefixLen (netmask 32 n) = n := by
  unfold maskPrefixLen
  rw [maskPrefixLoop_netmask (by omega) hn, Nat.zero_add]

/-- A route for the first `n` bits of a destination. -/
def TnRoute.HasLen (e : Endian) (r : TnRoute) (n : Nat) : Prop :=
  n ≤ 32 ∧ be32 e r.mask = netmask 32 n

/-- The destination has the prefix of the route. -/
def TnRoute.Matches (e : Endian) (r : TnRoute) (dest : BitVec 32) : Prop :=
  be32 e dest &&& be32 e r.mask = be32 e r.dest

/-- The length of a route is what is counted. -/
theorem TnRoute.HasLen.maskPrefixLen {r : TnRoute} (h : r.HasLen e n) :
    maskPrefixLen (be32 e r.mask) = n := by
  rw [h.2, maskPrefixLen_netmask h.1]

/-- Routes of one length that match the same destination have the same prefix. -/
theorem TnRoute.Matches.prefix_unique {r r' : TnRoute} (hm : r.Matches e dest)
    (hm' : r'.Matches e dest) (hl : r.HasLen e n) (hl' : r'.HasLen e n) :
    r.dest = r'.dest ∧ r.mask = r'.mask := by
  have mask : r.mask = r'.mask := be32_inj (e := e) (hl.2.trans hl'.2.symm)
  refine ⟨be32_inj (e := e) ?_, mask⟩
  rw [← hm, ← hm', mask]

/-! ## What the table keeps -/

/-- Every route in use has a netmask and no host bits, and no two have the same prefix. -/
structure Sound (e : Endian) (t : RouteTable) : Prop where
  len : ∀ i, (t i).inUse = true → ∃ n, (t i).HasLen e n
  hostBits : ∀ i, (t i).inUse = true → be32 e (t i).dest &&& ~~~ be32 e (t i).mask = 0
  unique : ∀ i j, (t i).inUse = true → (t j).inUse = true → (t i).dest = (t j).dest →
    (t i).mask = (t j).mask → i = j

theorem sound_tnRouteInit : Sound e (tnRouteInit t) :=
  ⟨fun _ h => absurd h Bool.false_ne_true, fun _ h => absurd h Bool.false_ne_true,
    fun _ _ h => absurd h Bool.false_ne_true⟩

/-- A route that is not found is not in the table. -/
theorem findRoute_none (h : findRoute t dest mask = none) (hu : (t i).inUse = true)
    (hd : (t i).dest = dest) : (t i).mask ≠ mask := by
  intro hm
  have other := List.find?_eq_none.mp h i (List.mem_finRange i)
  simp [hu, hd, hm] at other

/-- An `ADD` changes nothing, or it fills a free entry with a new prefix. -/
theorem tnRouteAdd_cases (e : Endian) (t : RouteTable) (dest mask gw : BitVec 32) :
    (∃ err, tnRouteAdd e t dest mask gw = (t, .error err)) ∨
    ∃ i, maskIsContiguous (be32 e mask) = true ∧ be32 e dest &&& ~~~ be32 e mask = 0 ∧
      findRoute t dest mask = none ∧ tnRouteAdd e t dest mask gw
        = (Function.update t i { dest := dest, mask := mask, gw := gw, inUse := true }, .ok ()) := by
  unfold tnRouteAdd
  split
  · exact Or.inl ⟨.einval, rfl⟩
  · rename_i hc
    obtain ⟨contiguous, host⟩ := not_or.mp hc
    split
    · exact Or.inl ⟨.eexist, rfl⟩
    · rename_i hf
      split
      · rename_i i _
        exact Or.inr ⟨i, by simpa using contiguous, not_not.mp host, hf, rfl⟩
      · exact Or.inl ⟨.enospc, rfl⟩

/-- A table with one more route, of a new prefix. -/
theorem Sound.fill (h : Sound e t) (i : RouteIdx) (hc : maskIsContiguous (be32 e mask) = true)
    (hd : be32 e dest &&& ~~~ be32 e mask = 0) (hf : findRoute t dest mask = none) :
    Sound e (Function.update t i { dest := dest, mask := mask, gw := gw, inUse := true }) := by
  constructor
  · intro j hj
    by_cases hji : j = i
    · subst hji
      rw [Function.update_self]
      obtain ⟨n, hn, hm⟩ := maskIsContiguous_iff.mp hc
      exact ⟨n, hn, hm⟩
    · rw [Function.update_of_ne hji] at hj ⊢
      exact h.len j hj
  · intro j hj
    by_cases hji : j = i
    · subst hji
      rw [Function.update_self]
      exact hd
    · rw [Function.update_of_ne hji] at hj ⊢
      exact h.hostBits j hj
  · intro j k hj hk hd' hm'
    by_cases hji : j = i
    · by_cases hki : k = i
      · exact hji.trans hki.symm
      · subst hji
        rw [Function.update_of_ne hki] at hk hd' hm'
        rw [Function.update_self] at hd' hm'
        exact absurd hm'.symm (findRoute_none hf hk hd'.symm)
    · by_cases hki : k = i
      · subst hki
        rw [Function.update_of_ne hji] at hj hd' hm'
        rw [Function.update_self] at hd' hm'
        exact absurd hm' (findRoute_none hf hj hd')
      · rw [Function.update_of_ne hji] at hj hd' hm'
        rw [Function.update_of_ne hki] at hk hd' hm'
        exact h.unique j k hj hk hd' hm'

/-- A delete frees one entry or none. -/
theorem tnRouteDelete_cases (t : RouteTable) (dest mask : BitVec 32) :
    (∃ err, tnRouteDelete t dest mask = (t, .error err)) ∨
    ∃ i, tnRouteDelete t dest mask = (Function.update t i { t i with inUse := false }, .ok ()) := by
  unfold tnRouteDelete
  split
  · exact Or.inr ⟨_, rfl⟩
  · exact Or.inl ⟨_, rfl⟩

/-- A table with one route out of use. -/
theorem Sound.drop (h : Sound e t) (i : RouteIdx) :
    Sound e (Function.update t i { t i with inUse := false }) := by
  have still : ∀ j, (Function.update t i { t i with inUse := false } j).inUse = true →
      Function.update t i { t i with inUse := false } j = t j := by
    intro j hj
    by_cases hji : j = i
    · subst hji
      rw [Function.update_self] at hj
      exact absurd hj Bool.false_ne_true
    · exact Function.update_of_ne hji ..
  constructor
  · intro j hj
    have same := still j hj
    rw [same] at hj ⊢
    exact h.len j hj
  · intro j hj
    have same := still j hj
    rw [same] at hj ⊢
    exact h.hostBits j hj
  · intro j k hj hk
    have same := still j hj
    have same' := still k hk
    rw [same] at hj ⊢
    rw [same'] at hk ⊢
    exact h.unique j k hj hk

/-- A call that changes the table. -/
inductive RouteCall where
  | add (dest mask gw : BitVec 32)
  | delete (dest mask : BitVec 32)

/-- The table after a call, and its outcome. -/
def RouteCall.run (e : Endian) (t : RouteTable) : RouteCall → RouteTable × Except RouteErrno Unit
  | .add dest mask gw => tnRouteAdd e t dest mask gw
  | .delete dest mask => tnRouteDelete t dest mask

/-- The table after `tn_route_init` and a history of calls. -/
def history (e : Endian) (t : RouteTable) (calls : List RouteCall) : RouteTable :=
  calls.foldl (fun t c => (c.run e t).1) (tnRouteInit t)

/-- Every call keeps the table sound. -/
theorem Sound.run (h : Sound e t) (c : RouteCall) : Sound e (c.run e t).1 := by
  cases c with
  | add dest mask gw =>
    show Sound e (tnRouteAdd e t dest mask gw).1
    obtain ⟨err, hr⟩ | ⟨i, hc, hd, hf, hr⟩ := tnRouteAdd_cases e t dest mask gw
    · rw [hr]
      exact h
    · rw [hr]
      exact h.fill i hc hd hf
  | delete dest mask =>
    show Sound e (tnRouteDelete t dest mask).1
    obtain ⟨err, hr⟩ | ⟨i, hr⟩ := tnRouteDelete_cases t dest mask
    · rw [hr]
      exact h
    · rw [hr]
      exact h.drop i

/-- The table is sound after every history. -/
theorem sound_history (e : Endian) (t : RouteTable) (calls : List RouteCall) :
    Sound e (history e t calls) := by
  have run : ∀ (t : RouteTable), Sound e t →
      Sound e (calls.foldl (fun t c => (c.run e t).1) t) := by
    induction calls with
    | nil => exact fun t h => h
    | cons c calls ih => exact fun t h => ih _ (h.run c)
  exact run _ sound_tnRouteInit

/-- A call that fails changes nothing. -/
theorem run_error {c : RouteCall} {err : RouteErrno} (h : (c.run e t).2 = .error err) :
    (c.run e t).1 = t := by
  cases c with
  | add dest mask gw =>
    obtain ⟨err', hr⟩ | ⟨i, -, -, -, hr⟩ := tnRouteAdd_cases e t dest mask gw
    · exact congrArg Prod.fst hr
    · cases (congrArg Prod.snd hr).symm.trans h
  | delete dest mask =>
    obtain ⟨err', hr⟩ | ⟨i, hr⟩ := tnRouteDelete_cases t dest mask
    · exact congrArg Prod.fst hr
    · cases (congrArg Prod.snd hr).symm.trans h

/-! ## The lookup -/

/-- The routes of a table that match a destination. -/
def Hit (e : Endian) (t : RouteTable) (dest : BitVec 32) (i : RouteIdx) : Prop :=
  (t i).inUse = true ∧ (t i).Matches e dest

/-- A matching route that is longer than any other match. -/
structure Best (e : Endian) (t : RouteTable) (dest : BitVec 32) (i : RouteIdx) : Prop where
  hit : Hit e t dest i
  longest : ∀ j, Hit e t dest j → j ≠ i →
    ∀ n n', (t j).HasLen e n → (t i).HasLen e n' → n < n'

/-- The loop of the lookup picks the first match with the longest mask. -/
theorem tnRouteLookup_eq (e : Endian) (t : RouteTable) (dest : BitVec 32) :
    tnRouteLookup e t dest = ((List.finRange 16).filter fun i => (t i).inUse &&
      (be32 e dest &&& be32 e (t i).mask == be32 e (t i).dest)).argmax
        fun i => maskPrefixLen (be32 e (t i).mask) := by
  have turn : lookupTurn e t (be32 e dest) = keepBest
      (fun i => (t i).inUse && (be32 e dest &&& be32 e (t i).mask == be32 e (t i).dest))
      fun i => maskPrefixLen (be32 e (t i).mask) := by
    funext best i
    unfold lookupTurn keepBest
    by_cases hu : (t i).inUse = true
    · simp [hu]
    · simp [hu]
  unfold tnRouteLookup
  rw [turn, foldl_keepBest]
  rfl

/-- The hits of the scan. -/
theorem mem_hits : i ∈ (List.finRange 16).filter (fun i => (t i).inUse &&
    (be32 e dest &&& be32 e (t i).mask == be32 e (t i).dest)) ↔ Hit e t dest i := by
  simp [Hit, TnRoute.Matches]

/-- Nothing is found when nothing matches. -/
theorem tnRouteLookup_none : tnRouteLookup e t dest = none ↔ ∀ i, ¬ Hit e t dest i := by
  rw [tnRouteLookup_eq, List.argmax_eq_none, List.eq_nil_iff_forall_not_mem]
  exact forall_congr' fun i => not_congr mem_hits

/-- What is found is the longest match. -/
theorem Sound.best (h : Sound e t) (hl : tnRouteLookup e t dest = some i) : Best e t dest i := by
  rw [tnRouteLookup_eq] at hl
  have hit : Hit e t dest i := mem_hits.mp (List.argmax_mem hl)
  refine ⟨hit, fun j hj hne n n' hn hn' => ?_⟩
  have le : maskPrefixLen (be32 e (t j).mask) ≤ maskPrefixLen (be32 e (t i).mask) :=
    List.le_of_mem_argmax (f := fun i => maskPrefixLen (be32 e (t i).mask)) (mem_hits.mpr hj) hl
  rw [hn.maskPrefixLen, hn'.maskPrefixLen] at le
  refine Nat.lt_of_le_of_ne le fun same => hne ?_
  -- one length and one destination: the same prefix, so the same entry
  subst same
  obtain ⟨hd, hm⟩ := hj.2.prefix_unique hit.2 hn hn'
  exact h.unique j i hj.1 hit.1 hd hm

/-- There is one best route. -/
theorem Best.unique (h : Sound e t) (hi : Best e t dest i) (hj : Best e t dest j) : i = j := by
  by_contra hne
  obtain ⟨n, hn⟩ := h.len i hi.hit.1
  obtain ⟨n', hn'⟩ := h.len j hj.hit.1
  have lt := hi.longest j hj.hit (Ne.symm hne) n' n hn' hn
  have gt := hj.longest i hi.hit hne n n' hn hn'
  omega

/-- A route as the answer to a lookup: without its place in the table. -/
def TnRoute.answer (r : TnRoute) : BitVec 32 × BitVec 32 × BitVec 32 := (r.dest, r.mask, r.gw)

/-- The routes of a table. -/
def routes (t : RouteTable) : Set (BitVec 32 × BitVec 32 × BitVec 32) :=
  { r | ∃ i, (t i).inUse = true ∧ (t i).answer = r }

/-- The lookup finds the best route. -/
theorem Sound.tnRouteLookup_iff (h : Sound e t) :
    tnRouteLookup e t dest = some i ↔ Best e t dest i := by
  refine ⟨h.best, fun hb => ?_⟩
  cases hl : tnRouteLookup e t dest with
  | none => exact absurd hb.hit (tnRouteLookup_none.mp hl i)
  | some j => rw [Best.unique h (h.best hl) hb]

/-- What the answer says of a route is all that a match depends on. -/
theorem Hit.of_answer (h : Hit e t dest i) (hu : (t' j).inUse = true)
    (ha : (t' j).answer = (t i).answer) : Hit e t' dest j := by
  simp only [TnRoute.answer, Prod.mk.injEq] at ha
  refine ⟨hu, ?_⟩
  unfold TnRoute.Matches
  rw [ha.1, ha.2.1]
  exact h.2

/-- The answer decides the length. -/
theorem TnRoute.HasLen.of_answer {r r' : TnRoute} (h : r.HasLen e n) (ha : r'.answer = r.answer) :
    r'.HasLen e n := by
  simp only [TnRoute.answer, Prod.mk.injEq] at ha
  exact ⟨h.1, by rw [ha.2.1]; exact h.2⟩

/-- The best route of one table is the best of every table with the same routes. -/
theorem Best.of_routes (hb : Best e t dest i) (hr : routes t' = routes t)
    (hu : (t' j).inUse = true) (ha : (t' j).answer = (t i).answer) (h' : Sound e t') :
    Best e t' dest j := by
  refine ⟨hb.hit.of_answer hu ha, fun k hk hne n n' hn hn' => ?_⟩
  obtain ⟨k', hk', same⟩ : (t' k).answer ∈ routes t := hr ▸ ⟨k, hk.1, rfl⟩
  refine hb.longest k' (hk.of_answer hk' same) ?_ n n' (hn.of_answer same) (hn'.of_answer ha.symm)
  rintro rfl
  -- the two entries of the other table would have one prefix
  have both : (t' k).answer = (t' j).answer := same.symm.trans ha.symm
  simp only [TnRoute.answer, Prod.mk.injEq] at both
  exact hne (h'.unique k j hk.1 hu both.1 both.2.1)

/-- The answer for a destination: prefix and gateway of the route found. -/
def lookupAnswer (e : Endian) (t : RouteTable) (dest : BitVec 32) :
    Option (BitVec 32 × BitVec 32 × BitVec 32) :=
  (tnRouteLookup e t dest).map fun i => (t i).answer

/-- The answer is a function of the set of routes. -/
theorem lookupAnswer_congr (h : Sound e t) (h' : Sound e t') (hr : routes t' = routes t)
    (dest : BitVec 32) : lookupAnswer e t' dest = lookupAnswer e t dest := by
  unfold lookupAnswer
  cases hl : tnRouteLookup e t dest with
  | none =>
    have none' : tnRouteLookup e t' dest = none := by
      refine tnRouteLookup_none.mpr fun k hk => ?_
      obtain ⟨k', hk', same⟩ : (t' k).answer ∈ routes t := hr ▸ ⟨k, hk.1, rfl⟩
      exact tnRouteLookup_none.mp hl k' (hk.of_answer hk' same)
    rw [none']
    rfl
  | some i =>
    have best := h.best hl
    obtain ⟨j, hj, same⟩ : (t i).answer ∈ routes t' := hr ▸ ⟨i, best.hit.1, rfl⟩
    rw [h'.tnRouteLookup_iff.mpr (best.of_routes hr hj same h')]
    exact congrArg some same

/-- Longest-prefix routing after every history of calls. Every stored route has a netmask and no
host bits, and no two have the same prefix. The lookup fails just when no route matches, and finds
just the matching route that is longer than every other. Histories that leave the same routes answer
alike, and a call that fails changes nothing. -/
theorem tnRouteLookup_longest (e : Endian) (start : RouteTable) (calls : List RouteCall) :
    (∀ i, (history e start calls i).inUse = true →
      (∃ n, (history e start calls i).HasLen e n) ∧
      be32 e (history e start calls i).dest &&& ~~~ be32 e (history e start calls i).mask = 0) ∧
    (∀ i j, (history e start calls i).inUse = true → (history e start calls j).inUse = true →
      (history e start calls i).dest = (history e start calls j).dest →
      (history e start calls i).mask = (history e start calls j).mask → i = j) ∧
    (∀ dest, (tnRouteLookup e (history e start calls) dest = none ↔
        ∀ i, ¬ Hit e (history e start calls) dest i) ∧
      ∀ i, tnRouteLookup e (history e start calls) dest = some i ↔
        Best e (history e start calls) dest i) ∧
    (∀ start' calls', routes (history e start' calls') = routes (history e start calls) →
      ∀ dest, lookupAnswer e (history e start' calls') dest
        = lookupAnswer e (history e start calls) dest) ∧
    ∀ (c : RouteCall) err, (c.run e (history e start calls)).2 = .error err →
      (c.run e (history e start calls)).1 = history e start calls := by
  -- the invariant of the table carries all of it
  have sound := sound_history e start calls
  refine ⟨fun i hi => ⟨sound.len i hi, sound.hostBits i hi⟩, sound.unique, fun dest => ?_,
    fun start' calls' hr dest => ?_, fun c err => run_error⟩
  · exact ⟨tnRouteLookup_none, fun i => sound.tnRouteLookup_iff⟩
  · exact lookupAnswer_congr sound (sound_history e start' calls') hr dest

/-- A default route and a longer one, in the byte order of the host tests. -/
example : lookupAnswer .little (history .little (fun _ => {})
    [.add 0 0 0x0102000A, .add 0x0000090A 0x0000FFFF 0x0202000A]) 0x0709090A
      = some (0x0000090A, 0x0000FFFF, 0x0202000A) := by decide

end Route

end Tolunnet
