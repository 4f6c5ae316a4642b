import Tolunnet.Route.Longest

/-!
# `Tolunnet.Route.Hooks`: the two hooks of lwIP

lwIP asks one hook for the interface of a destination and another for its gateway. Both ask the same
table, so both answers are functions of the one route that the table finds (`srcFor`, `gwFor`).
`hooks_agree` puts them together: a gateway is reached over the interface it comes with, unless no
interface reaches it.

Without a default interface the first hook has nothing to fall back to. It then answers NULL for a
destination that has a route and is on no link.
-/

set_option autoImplicit false

namespace Tolunnet

namespace Route

variable {e : Endian} {t : RouteTable} {ns ns' : Netifs} {n : NetifId} {a dest : BitVec 32}

/-! ## Links -/

/-- An interface with an address that reaches `a` without a gateway. -/
def OnLink (ns : Netifs) (a : BitVec 32) (n : NetifId) : Prop :=
  (ns.get n).ipAddr ≠ 0 ∧ a &&& (ns.get n).netmask = (ns.get n).ipAddr &&& (ns.get n).netmask

/-- The interfaces with an address, in the order of the list. -/
def configured (ns : Netifs) : List NetifId := ns.list.filter fun n => !ip4AddrIsany (ns.get n).ipAddr

theorem firstNetif_some {test : Netif → Bool} (h : firstNetif ns test = some n) :
    n ∈ ns.list ∧ (ns.get n).ipAddr ≠ 0 ∧ test (ns.get n) = true := by
  have found := List.find?_some h
  simp only [ip4AddrIsany, Bool.and_eq_true, Bool.not_eq_true', beq_eq_false_iff_ne] at found
  exact ⟨List.mem_of_find?_eq_some h, found⟩

theorem firstNetif_none {test : Netif → Bool} (h : firstNetif ns test = none) (hn : n ∈ ns.list)
    (ha : (ns.get n).ipAddr ≠ 0) : test (ns.get n) = false := by
  have other := List.find?_eq_none.mp h n hn
  simp only [ip4AddrIsany, beq_eq_false_iff_ne.mpr ha, Bool.not_false, Bool.true_and] at other
  simpa using other

/-- The search sees nothing but the interfaces with an address. -/
theorem firstNetif_eq (test : Netif → Bool) :
    firstNetif ns test = (configured ns).find? fun n => test (ns.get n) := by
  unfold firstNetif configured
  rw [List.find?_filter]
  congr 1
  funext n
  rw [Bool.decide_and, Bool.decide_eq_true, Bool.decide_eq_true]

theorem firstNetif_congr (hc : configured ns' = configured ns)
    (hg : ∀ n ∈ configured ns, ns'.get n = ns.get n) (test : Netif → Bool) :
    firstNetif ns' test = firstNetif ns test := by
  rw [firstNetif_eq, firstNetif_eq, hc, ← List.head?_filter, ← List.head?_filter]
  refine congrArg List.head? (List.filter_congr fun n hn => ?_)
  rw [hg n hn]

/-! ## One route for both -/

/-- The interface for a destination that has the route `o`. -/
def srcFor (ns : Netifs) (dest : BitVec 32) (o : Option TnRoute) : Option NetifId :=
  match firstNetif ns fun n => ip4AddrNetEq dest n.ipAddr n.netmask, o with
  | some _, _ | none, none => none
  | none, some r =>
    (firstNetif ns fun n => if r.gw = 0 then (r.mask &&& n.ipAddr) == r.dest
      else ip4AddrNetEq r.gw n.ipAddr n.netmask).or ns.default

/-- The gateway of the route `o`. -/
def gwFor (o : Option TnRoute) : Option (BitVec 32) :=
  o.bind fun r => if r.gw = 0 then none else some r.gw

/-- The route that the table finds. -/
def foundRoute (e : Endian) (t : RouteTable) (dest : BitVec 32) : Option TnRoute :=
  (tnRouteLookup e t dest).map t

/-- An index that the lookup gives is in use. -/
theorem tnRouteAt_lookup (e : Endian) (t : RouteTable) (dest : BitVec 32) :
    (tnRouteLookup e t dest).bind (tnRouteAt t) = foundRoute e t dest := by
  unfold foundRoute
  cases hl : tnRouteLookup e t dest with
  | none => rfl
  | some i =>
    rw [tnRouteLookup_eq] at hl
    have hit := mem_hits.mp (List.argmax_mem hl)
    show tnRouteAt t i = some (t i)
    unfold tnRouteAt
    rw [if_pos hit.1]

theorem tnRouteHookSrc_eq : tnRouteHookSrc e t ns dest = srcFor ns dest (foundRoute e t dest) := by
  unfold tnRouteHookSrc srcFor
  rw [tnRouteAt_lookup]
  split
  · rename_i h
    rw [h]
  · rename_i h
    rw [h]
    cases foundRoute e t dest with
    | none => rfl
    | some r =>
      by_cases hg : r.gw = 0
      · simp only [hg, if_true]
        cases firstNetif ns fun n => (r.mask &&& n.ipAddr) == r.dest <;> rfl
      · simp only [hg, if_false]
        cases firstNetif ns fun n => ip4AddrNetEq r.gw n.ipAddr n.netmask <;> rfl

theorem tnRouteGwGet_eq : tnRouteGwGet e t n dest = gwFor (foundRoute e t dest) := by
  unfold tnRouteGwGet gwFor
  rw [tnRouteAt_lookup]
  cases foundRoute e t dest <;> rfl

/-! ## What the hooks agree on -/

theorem onLink_of_netEq (h : ip4AddrNetEq a (ns.get n).ipAddr (ns.get n).netmask = true)
    (ha : (ns.get n).ipAddr ≠ 0) : OnLink ns a n :=
  ⟨ha, by simpa [ip4AddrNetEq] using h⟩

/-- No interface of the list reaches `a` when the search for one fails. -/
theorem not_onLink_of_none
    (h : (firstNetif ns fun n => ip4AddrNetEq a n.ipAddr n.netmask) = none) :
    ∀ n ∈ ns.list, ¬ OnLink ns a n := by
  intro n hn ⟨ha, hm⟩
  have other := firstNetif_none h hn ha
  rw [ip4AddrNetEq, hm, beq_self_eq_true] at other
  cases other

/-- A gateway is reached over its interface, unless it is reached over none. -/
theorem srcFor_gwFor {o : Option TnRoute} {g : BitVec 32} (hs : srcFor ns dest o = some n)
    (hg : gwFor o = some g) :
    OnLink ns g n ∨ (∀ m ∈ ns.list, ¬ OnLink ns g m) ∧ ns.default = some n := by
  cases o with
  | none => cases hg
  | some r =>
    have gw : r.gw ≠ 0 ∧ r.gw = g := by simpa [gwFor] using hg
    unfold srcFor at hs
    split at hs
    · cases hs
    · cases hs
    · rename_i r' _ heq
      obtain rfl : r = r' := Option.some.inj heq
      simp only [gw.1, if_false] at hs
      rw [gw.2] at hs
      cases hf : firstNetif ns fun n => ip4AddrNetEq g n.ipAddr n.netmask with
      | none =>
        rw [hf] at hs
        exact Or.inr ⟨not_onLink_of_none hf, hs⟩
      | some m =>
        rw [hf] at hs
        obtain rfl : m = n := Option.some.inj hs
        obtain ⟨-, ha, htest⟩ := firstNetif_some hf
        exact Or.inl (onLink_of_netEq htest ha)

/-- NULL means a destination on a link, no route, or no interface to fall back to. -/
theorem srcFor_none {o : Option TnRoute} (hs : srcFor ns dest o = none) :
    (∃ n ∈ ns.list, OnLink ns dest n) ∨ o = none ∨ ns.default = none := by
  unfold srcFor at hs
  split at hs
  · rename_i m hf
    obtain ⟨hm, ha, htest⟩ := firstNetif_some hf
    exact Or.inl ⟨m, hm, onLink_of_netEq htest ha⟩
  · exact Or.inr (Or.inl rfl)
  · exact Or.inr (Or.inr (Option.or_eq_none_iff.mp hs).2)

/-- An interface without an address is passed over. -/
theorem srcFor_congr (hc : configured ns' = configured ns)
    (hg : ∀ n ∈ configured ns, ns'.get n = ns.get n) (hd : ns'.default = ns.default)
    (o : Option TnRoute) : srcFor ns' dest o = srcFor ns dest o := by
  unfold srcFor
  rw [firstNetif_congr hc hg, hd]
  simp only [firstNetif_congr hc hg]

/-- An interface without an address is the answer only as the default one. -/
theorem srcFor_some {o : Option TnRoute} (hs : srcFor ns dest o = some n) :
    n ∈ ns.list ∧ (ns.get n).ipAddr ≠ 0 ∨ ns.default = some n := by
  unfold srcFor at hs
  split at hs
  · cases hs
  · cases hs
  · rename_i r _
    obtain found | ⟨-, fallback⟩ := Option.or_eq_some_iff.mp hs
    · obtain ⟨hm, ha, -⟩ := firstNetif_some found
      exact Or.inl ⟨hm, ha⟩
    · exact Or.inr fallback

/-- The hooks agree for every table, list of interfaces and destination. The gateway of a destination
is on the link of its interface, or on no link and the interface is the default one. NULL as the
interface means that the destination is on a link or has no route, or that there is no default
interface. An interface without an address changes nothing and is the answer only as the default one.
Both hooks go by the longest matching route. -/
theorem hooks_agree (e : Endian) (start : RouteTable) (calls : List RouteCall) (ns : Netifs)
    (dest : BitVec 32) :
    (∀ n g, tnRouteHookSrc e (history e start calls) ns dest = some n →
      tnRouteGwGet e (history e start calls) n dest = some g →
      OnLink ns g n ∨ (∀ m ∈ ns.list, ¬ OnLink ns g m) ∧ ns.default = some n) ∧
    (tnRouteHookSrc e (history e start calls) ns dest = none →
      (∃ n ∈ ns.list, OnLink ns dest n) ∨ (∀ i, ¬ Hit e (history e start calls) dest i) ∨
        ns.default = none) ∧
    (∀ ns', configured ns' = configured ns → (∀ n ∈ configured ns, ns'.get n = ns.get n) →
      ns'.default = ns.default → tnRouteHookSrc e (history e start calls) ns' dest
        = tnRouteHookSrc e (history e start calls) ns dest) ∧
    (∀ n, tnRouteHookSrc e (history e start calls) ns dest = some n →
      n ∈ ns.list ∧ (ns.get n).ipAddr ≠ 0 ∨ ns.default = some n) ∧
    ∃ o : Option RouteIdx, (∀ i, o = some i ↔ Best e (history e start calls) dest i) ∧
      tnRouteHookSrc e (history e start calls) ns dest
        = srcFor ns dest (o.map (history e start calls)) ∧
      ∀ n, tnRouteGwGet e (history e start calls) n dest = gwFor (o.map (history e start calls)) := by
  have sound := sound_history e start calls
  refine ⟨fun n g hs hg => ?_, fun hs => ?_, fun ns' hc hg hd => ?_, fun n hs => ?_, ?_⟩
  · rw [tnRouteHookSrc_eq] at hs
    rw [tnRouteGwGet_eq] at hg
    exact srcFor_gwFor hs hg
  · rw [tnRouteHookSrc_eq] at hs
    -- no source is given for a neighbour, without a route, or without a default interface
    obtain link | unrouted | fallback := srcFor_none hs
    · exact Or.inl link
    · exact Or.inr (Or.inl (tnRouteLookup_none.mp (Option.map_eq_none_iff.mp unrouted)))
    · exact Or.inr (Or.inr fallback)
  · rw [tnRouteHookSrc_eq, tnRouteHookSrc_eq]
    exact srcFor_congr hc hg hd _
  · rw [tnRouteHookSrc_eq] at hs
    exact srcFor_some hs
  · exact ⟨tnRouteLookup e (history e start calls) dest, fun i => sound.tnRouteLookup_iff,
      tnRouteHookSrc_eq, fun n => tnRouteGwGet_eq⟩

/-- Before there is an interface, a default route matches and the hook still answers NULL. -/
theorem not_forall_hookSrc_none :
    ¬ ∀ (e : Endian) (start : RouteTable) (calls : List RouteCall) (ns : Netifs) (dest : BitVec 32),
      tnRouteHookSrc e (history e start calls) ns dest = none →
      (∃ n ∈ ns.list, OnLink ns dest n) ∨ ∀ i, ¬ Hit e (history e start calls) dest i := by
  intro h
  obtain ⟨n, hn, -⟩ | unmatched := h .big (fun _ => {}) [.add 0 0 0x0A000201]
    { list := [], get := fun _ => {}, default := none } 0x08080808 (by decide)
  · cases hn
  · refine unmatched 0 ⟨by decide, ?_⟩
    unfold TnRoute.Matches
    decide

end Route

end Tolunnet
