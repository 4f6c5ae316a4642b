import Tolunnet.Options.State
import Tolunnet.Refine.Kinds

/-!
# `Tolunnet.Options.Setting`: `SETSOCKOPT` and what it leaves

An option is stored in the slot and again in the pcb. `reported` is what `GETSOCKOPT` gives back,
`carried` the value of a `SETSOCKOPT` request, and `Mirrors` says that a full pcb of the slot has the
value that is stored. A request that is granted stores the value it carries and makes the pcb mirror
it, with one exception: neither `SO_REUSEADDR` nor `IP_MULTICAST_LOOP` is copied to a raw pcb
(`Unreached`). A request that is refused changes nothing.
-/

set_option autoImplicit false

namespace Tolunnet

open World

/-! ## Options -/

/-- The options whose value has to be in force. -/
def SockOpt.Kept : SockOpt → Prop
  | .keepalive | .reuseaddr | .linger | .rcvtimeo | .sndtimeo | .rcvbuf | .sndbuf => True
  | .nodelay | .maxseg | .keepidle | .keepintvl | .keepcnt => True
  | .ttl | .tos | .multicastTtl | .multicastLoop => True
  | _ => False

/-- The options that `GETSOCKOPT` reads from a full TCP pcb. -/
def SockOpt.FromPcb : SockOpt → Prop
  | .maxseg | .keepidle | .keepintvl | .keepcnt => True
  | _ => False

instance (o : SockOpt) : Decidable o.Kept := by cases o <;> unfold SockOpt.Kept <;> infer_instance

instance (o : SockOpt) : Decidable o.FromPcb := by
  cases o <;> unfold SockOpt.FromPcb <;> infer_instance

/-- What `GETSOCKOPT` reports: two words for `SO_LINGER` and the timeouts, one for the others. -/
def reported (w : World) (i : SlotIdx) : SockOpt → Int × Int
  | .linger => ((w.sockets i).opts.lingerOnoff, (w.sockets i).opts.lingerLinger)
  | .rcvtimeo => ((w.sockets i).opts.rcvtimeoSecs, (w.sockets i).opts.rcvtimeoMicro)
  | .sndtimeo => ((w.sockets i).opts.sndtimeoSecs, (w.sockets i).opts.sndtimeoMicro)
  | o => (optValue w i o, 0)

/-- The timeout in seconds and microseconds that two words or a number of milliseconds give. -/
def carriedTimeout (f : Mem) (optlen : Int) : Int × Int :=
  if optlen ≥ 8 then (be32 f 0, be32 f 4)
  else ((tnLoadOptInt f).tdiv 1000, (tnLoadOptInt f).tmod 1000 * 1000)

/-- The value that a `SETSOCKOPT` request carries. -/
def carried (f : Mem) (optlen : Int) : SockOpt → Int × Int
  | .keepalive | .reuseaddr | .nodelay => (bit (tnLoadOptInt f != 0), 0)
  | .multicastLoop => (bit (loadMcast f optlen != 0), 0)
  | .multicastTtl => (loadMcast f optlen, 0)
  | .linger => (toLong (be32 f 0), toLong (be32 f 4))
  | .rcvtimeo | .sndtimeo => carriedTimeout f optlen
  | _ => (tnLoadOptInt f, 0)

/-- The values an option is meant for. -/
def InRange (v : Int × Int) : SockOpt → Prop
  | .ttl | .tos | .multicastTtl => 0 ≤ v.1 ∧ v.1 ≤ 255
  | .rcvbuf | .sndbuf => v.1 ≠ 0
  | .rcvtimeo | .sndtimeo => 0 ≤ v.1 ∧ 0 ≤ v.2
  | _ => True

/-- A full pcb of slot `i` has the value of `o` that the slot stores. -/
def Mirrors (w : World) (i : SlotIdx) (o : SockOpt) : Prop :=
  ∀ v, InPcb w i o v → storedOpt (w.sockets i).opts o = (v, 0)

/-- Slot `i` has a raw pcb to which the value `v` of `o` is not copied. -/
def Unreached (w : World) (i : SlotIdx) (o : SockOpt) (v : Int) : Prop :=
  (o = .reuseaddr ∨ o = .multicastLoop) ∧ ∃ p c, (w.sockets i).rawPcb = some p ∧
    w.rawPcbs p = some c ∧ dgramField c o ≠ some v

variable {w w' : World} {m : MsgId} {i j : SlotIdx} {x : TnIpcMsg} {f : Mem} {n : Int} {o : SockOpt}
  {p : PcbId}

/-! ## The statements of `SETSOCKOPT` -/

@[simp] theorem sockets_onTcpOf (g : TcpPcb → TcpPcb) : (onTcpOf w i g).sockets = w.sockets := by
  unfold onTcpOf onPcb
  split
  · split <;> rfl
  · rfl

@[simp] theorem sockets_onFullOf (op : PcbOp) (g : TcpPcb → TcpPcb) :
    (onFullOf w i op g).sockets = w.sockets := by
  unfold onFullOf
  split
  · split
    · exact (Only.onFull (S := ∅) _ _).sockets
    · rfl
  · rfl

@[simp] theorem sockets_onUdpOf (g : DgramPcb → DgramPcb) :
    (onUdpOf w i g).sockets = w.sockets := by
  unfold onUdpOf
  split <;> rfl

@[simp] theorem sockets_onRawOf (g : DgramPcb → DgramPcb) :
    (onRawOf w i g).sockets = w.sockets := by
  unfold onRawOf
  split <;> rfl

@[simp] theorem sockets_modOpts (g : TnSockOpts → TnSockOpts) :
    (modOpts w i g).sockets i = { w.sockets i with opts := g (w.sockets i).opts } := by
  simp [modOpts, World.modSlot]

@[simp] theorem tcpPcbs_onUdpOf (g : DgramPcb → DgramPcb) :
    (onUdpOf w i g).tcpPcbs = w.tcpPcbs := by
  unfold onUdpOf
  split <;> rfl

@[simp] theorem tcpPcbs_onRawOf (g : DgramPcb → DgramPcb) :
    (onRawOf w i g).tcpPcbs = w.tcpPcbs := by
  unfold onRawOf
  split <;> rfl

@[simp] theorem udpPcbs_onRawOf (g : DgramPcb → DgramPcb) :
    (onRawOf w i g).udpPcbs = w.udpPcbs := by
  unfold onRawOf
  split <;> rfl

@[simp] theorem rawPcbs_onTcpOf (g : TcpPcb → TcpPcb) : (onTcpOf w i g).rawPcbs = w.rawPcbs := by
  unfold onTcpOf onPcb
  split
  · split <;> rfl
  · rfl

@[simp] theorem rawPcbs_onUdpOf (g : DgramPcb → DgramPcb) :
    (onUdpOf w i g).rawPcbs = w.rawPcbs := by
  unfold onUdpOf
  split <;> rfl

/-- A field of the TCP pcb of a slot is written. -/
theorem tcpPcbs_onTcpOf {g : TcpPcb → TcpPcb} (hp : (w.sockets i).tcpPcb = some p) :
    (onTcpOf w i g).tcpPcbs p = (w.tcpPcbs p).map g := by
  unfold onTcpOf onPcb
  rw [hp]
  cases hc : w.tcpPcbs p <;> simp [setPcb, hc, emit]

/-- A field of the UDP pcb of a slot is written. -/
theorem udpPcbs_onUdpOf {g : DgramPcb → DgramPcb} (hp : (w.sockets i).udpPcb = some p) :
    (onUdpOf w i g).udpPcbs p = (w.udpPcbs p).map g := by
  unfold onUdpOf
  rw [hp]
  simp [onUdp]

/-- A field of the raw pcb of a slot is written. -/
theorem rawPcbs_onRawOf {g : DgramPcb → DgramPcb} (hp : (w.sockets i).rawPcb = some p) :
    (onRawOf w i g).rawPcbs p = (w.rawPcbs p).map g := by
  unfold onRawOf
  rw [hp]
  simp [onRaw]

/-- A full-pcb field of a live pcb is written, if the slot does not listen. -/
theorem tcpPcbs_onFullOf {op : PcbOp} {g : TcpPcb → TcpPcb} {c : TcpPcb}
    (hp : (w.sockets i).tcpPcb = some p) (hl : (w.sockets i).tcpState ≠ .listening)
    (hc : w.tcpPcbs p = some c) (full : c.listen = false) :
    (onFullOf w i op g).tcpPcbs p = some (g c) := by
  unfold onFullOf
  simp [hp, hl, onFull, hc, full, setPcb]

/-- A full-pcb field is only read. -/
theorem stored_onFullOf_id (op : PcbOp) : stored (onFullOf w i op id) = stored w := by
  unfold onFullOf onFull
  cases (w.sockets i).tcpPcb with
  | none => rfl
  | some p =>
    dsimp only
    split_ifs
    · cases hc : w.tcpPcbs p with
      | none => rfl
      | some c =>
        dsimp only
        split_ifs
        · rfl
        · simp [stored, setPcb, ← hc]
    · rfl

/-- Reading the segment size stores nothing. -/
theorem stored_readMss (w : World) (i : SlotIdx) : stored (readMss w i) = stored w := by
  unfold readMss
  dsimp only
  split_ifs
  · exact stored_onFullOf_id _
  · rfl

/-! ## The values of a request -/

/-- An option value is a positive LONG or less. -/
theorem tnLoadOptInt_lt (f : Mem) : tnLoadOptInt f < 2 ^ 31 := by
  have b0 := (f 0).toNat_lt
  have b1 := (f 1).toNat_lt
  have b2 := (f 2).toNat_lt
  have b3 := (f 3).toNat_lt
  have word : be32 f 0 < 2 ^ 32 := by
    show ((f 0).toNat * 256 + (f 1).toNat) * 65536 + ((f 2).toNat * 256 + (f 3).toNat) < 2 ^ 32
    omega
  unfold tnLoadOptInt toLong
  split <;> omega

/-- The timeout stored is the one carried when the latter is not negative. -/
theorem loadTimeout_carried (h0 : 0 ≤ (carriedTimeout f n).1) (h1 : 0 ≤ (carriedTimeout f n).2) :
    (((loadTimeout f n).1 : Int), ((loadTimeout f n).2 : Int)) = carriedTimeout f n := by
  unfold carriedTimeout at h0 h1 ⊢
  unfold loadTimeout
  by_cases long : n ≥ 8
  · simp only [if_pos long]
  · simp only [if_neg long] at h0 h1 ⊢
    have parts := Int.mul_tdiv_add_tmod (tnLoadOptInt f) 1000
    have small := Int.tmod_lt_of_pos (tnLoadOptInt f) (show (0 : Int) < 1000 by decide)
    have word := tnLoadOptInt_lt f
    refine Prod.ext ?_ ?_
    · show (((tnLoadOptInt f).tdiv 1000 % 2 ^ 32).toNat : Int) = _
      omega
    · show (((tnLoadOptInt f).tmod 1000 * 1000 % 2 ^ 32).toNat : Int) = _
      omega

theorem keepOk_iff {v : Int} : keepOk v = true ↔ 0 < v ∧ v ≤ 4294967 := by simp [keepOk]

/-! ## What a granted request stores -/

/-- A request that is granted stores the value it carries. -/
theorem storedOpt_applySockopt {u : World} (hk : o.Kept) (hr : InRange (carried f n o) o)
    (ha : applySockopt w i o f n = (.ok w', u)) :
    storedOpt (w'.sockets i).opts o = carried f n o := by
  cases o with
  | keepalive | nodelay | reuseaddr | linger | sndbuf | rcvbuf =>
    obtain ⟨h, -⟩ := Prod.mk.inj ha
    obtain rfl := Except.ok.inj h
    simp [storedOpt, carried]
  | multicastLoop =>
    obtain ⟨h, -⟩ := Prod.mk.inj ha
    obtain rfl := Except.ok.inj h
    cases hl : loadMcast f n != 0 <;> simp [storedOpt, carried, bit, hl]
  | ttl | tos =>
    obtain ⟨h, -⟩ := Prod.mk.inj ha
    obtain rfl := Except.ok.inj h
    have range : 0 ≤ tnLoadOptInt f ∧ tnLoadOptInt f ≤ 255 := hr
    simp [storedOpt, carried]
    omega
  | multicastTtl =>
    obtain ⟨h, -⟩ := Prod.mk.inj ha
    obtain rfl := Except.ok.inj h
    have range : 0 ≤ loadMcast f n ∧ loadMcast f n ≤ 255 := hr
    simp [storedOpt, carried]
    omega
  | rcvtimeo =>
    obtain ⟨h, -⟩ := Prod.mk.inj ha
    obtain rfl := Except.ok.inj h
    rw [show carried f n .rcvtimeo = carriedTimeout f n from rfl, ← loadTimeout_carried hr.1 hr.2]
    unfold restartRecv
    split <;> simp [storedOpt, World.modSlot]
  | sndtimeo =>
    obtain ⟨h, -⟩ := Prod.mk.inj ha
    obtain rfl := Except.ok.inj h
    rw [show carried f n .sndtimeo = carriedTimeout f n from rfl, ← loadTimeout_carried hr.1 hr.2]
    unfold restartSend
    split <;> simp [storedOpt, World.modSlot]
  | keepidle | keepintvl | keepcnt =>
    simp only [applySockopt] at ha
    split at ha
    · obtain ⟨h, -⟩ := Prod.mk.inj ha
      obtain rfl := Except.ok.inj h
      simp [storedOpt, carried]
    · cases (Prod.mk.inj ha).1
  | maxseg =>
    simp only [applySockopt] at ha
    split at ha
    · cases (Prod.mk.inj ha).1
    · rename_i bounds
      obtain ⟨h, -⟩ := Prod.mk.inj ha
      obtain rfl := Except.ok.inj h
      have positive : 0 ≤ tnLoadOptInt f := by omega
      simp [storedOpt, carried, positive]
  | _ => exact absurd hk id

/-- The pcb of a slot is live, and a listen pcb exactly when the slot listens. -/
def Fits (w : World) (i : SlotIdx) : Prop :=
  ∀ p, (w.sockets i).tcpPcb = some p →
    ∃ c, w.tcpPcbs p = some c ∧ (c.listen = true ↔ (w.sockets i).tcpState = .listening)

/-- A slot in use has the pcb of its kind. -/
theorem Kinds.fits (h : Kinds w) (hu : (w.sockets i).inUse = true) : Fits w i := by
  intro p hp
  obtain ⟨c, hc⟩ := h.live i p (.inl hp)
  refine ⟨c, hc, fun hl => ((h.listening i).mpr ⟨p, c, hp, hc, hl⟩).2, fun hs => ?_⟩
  obtain ⟨q, d, hq, hd, hl⟩ := (h.listening i).mp ⟨hu, hs⟩
  obtain rfl : p = q := Option.some.inj (hp.symm.trans hq)
  rwa [Option.some.inj (hc.symm.trans hd)]

/-- What is stored decides whether the kinds fit. -/
theorem Fits.congr (h : Fits w i) (hs : stored w' = stored w) : Fits w' i := by
  obtain ⟨slots, pcbs⟩ := Prod.mk.inj hs
  unfold Fits
  rw [slots, (Prod.mk.inj pcbs).1]
  exact h

/-- Where no pcb has a field for an option there is nothing to mirror. -/
theorem Mirrors.of_none (ht : ∀ c, tcpField c o = none) (hd : ∀ c, dgramField c o = none) :
    Mirrors w i o := by
  rintro v (⟨p, c, -, -, -, hv⟩ | ⟨p, c, -, -, hv⟩ | ⟨p, c, -, -, hv⟩)
  · rw [ht] at hv
    cases hv
  · rw [hd] at hv
    cases hv
  · rw [hd] at hv
    cases hv

/-- The TCP pcb of the slot is one to which the value has been copied. -/
theorem eq_of_onTcpOf {g : TcpPcb → TcpPcb} {c : TcpPcb} (hp : (w.sockets i).tcpPcb = some p)
    (hc : (onTcpOf w i g).tcpPcbs p = some c) : ∃ c0, g c0 = c := by
  rw [tcpPcbs_onTcpOf hp] at hc
  obtain ⟨c0, -, h⟩ := Option.map_eq_some_iff.mp hc
  exact ⟨c0, h⟩

/-- The UDP pcb after the assignment is one that was assigned. -/
theorem eq_of_onUdpOf {g : DgramPcb → DgramPcb} {c : DgramPcb} (hp : (w.sockets i).udpPcb = some p)
    (hc : (onUdpOf w i g).udpPcbs p = some c) : ∃ c0, g c0 = c := by
  rw [udpPcbs_onUdpOf hp] at hc
  obtain ⟨c0, -, h⟩ := Option.map_eq_some_iff.mp hc
  exact ⟨c0, h⟩

/-- So is the raw pcb. -/
theorem eq_of_onRawOf {g : DgramPcb → DgramPcb} {c : DgramPcb} (hp : (w.sockets i).rawPcb = some p)
    (hc : (onRawOf w i g).rawPcbs p = some c) : ∃ c0, g c0 = c := by
  rw [rawPcbs_onRawOf hp] at hc
  obtain ⟨c0, -, h⟩ := Option.map_eq_some_iff.mp hc
  exact ⟨c0, h⟩

/-- The same for a full-pcb field: the pcb of a listener is not written, and it is no full pcb. -/
theorem eq_of_onFullOf {op : PcbOp} {g : TcpPcb → TcpPcb} {c : TcpPcb} (hfit : Fits w i)
    (hp : (w.sockets i).tcpPcb = some p) (hc : (onFullOf w i op g).tcpPcbs p = some c)
    (full : c.listen = false) : ∃ c0, g c0 = c := by
  obtain ⟨c0, hc0, kind⟩ := hfit p hp
  by_cases hs : (w.sockets i).tcpState = .listening
  · have same : (onFullOf w i op g).tcpPcbs p = w.tcpPcbs p := by
      unfold onFullOf
      simp [hp, hs]
    rw [same, hc0, Option.some.injEq] at hc
    rw [← hc, kind.mpr hs] at full
    cases full
  · have full0 : c0.listen = false := by
      by_contra hl
      exact hs (kind.mp (by simpa using hl))
    rw [tcpPcbs_onFullOf hp hs hc0 full0, Option.some.injEq] at hc
    exact ⟨c0, hc⟩

/-- The assignment to the option block leaves the pcb of the slot as it is. -/
theorem Fits.modOpts (h : Fits w i) (g : TnSockOpts → TnSockOpts) : Fits (modOpts w i g) i := by
  intro p hp
  rw [sockets_modOpts] at hp ⊢
  exact h p hp

/-- A value copied to a full-pcb field is the one that is stored. -/
theorem Mirrors.onFullOf {op : PcbOp} {g : TnSockOpts → TnSockOpts} {h : TcpPcb → TcpPcb}
    (hfit : Fits w i) (hd : ∀ c, dgramField c o = none)
    (hv : ∀ c v, tcpField (h c) o = some v → storedOpt (g (w.sockets i).opts) o = (v, 0)) :
    Mirrors (onFullOf (Tolunnet.modOpts w i g) i op h) i o := by
  rintro v (⟨p, c, hp, hc, full, hf⟩ | ⟨p, c, -, -, hf⟩ | ⟨p, c, -, -, hf⟩)
  · rw [sockets_onFullOf] at hp ⊢
    obtain ⟨c0, rfl⟩ := eq_of_onFullOf (hfit.modOpts g) hp hc full
    rw [sockets_modOpts]
    exact hv c0 v hf
  · rw [hd] at hf
    cases hf
  · rw [hd] at hf
    cases hf

/-- A request that is granted makes the pcb mirror the value, if it reaches the pcb. -/
theorem Mirrors.applySockopt {u : World} (hfit : Fits w i) (hk : o.Kept)
    (ha : applySockopt w i o f n = (.ok w', u)) (hr : ¬ Unreached w i o (carried f n o).1) :
    Mirrors w' i o := by
  cases o with
  | linger | sndbuf | rcvbuf | rcvtimeo | sndtimeo => exact .of_none (fun _ => rfl) fun _ => rfl
  | keepalive =>
    obtain ⟨h, -⟩ := Prod.mk.inj ha
    obtain rfl := Except.ok.inj h
    rintro v (⟨p, c, hp, hc, -, hv⟩ | ⟨p, c, -, -, hv⟩ | ⟨p, c, -, -, hv⟩)
    · obtain ⟨c0, rfl⟩ := eq_of_onTcpOf (by simpa using hp) hc
      cases hv
      simp [storedOpt]
    · cases hv
    · cases hv
  | reuseaddr =>
    obtain ⟨h, -⟩ := Prod.mk.inj ha
    obtain rfl := Except.ok.inj h
    rintro v (⟨p, c, hp, hc, -, hv⟩ | ⟨p, c, hp, hc, hv⟩ | ⟨p, c, hp, hc, hv⟩)
    · simp only [tcpPcbs_onUdpOf] at hc
      obtain ⟨c0, rfl⟩ := eq_of_onTcpOf (by simpa using hp) hc
      cases hv
      simp [storedOpt]
    · obtain ⟨c0, rfl⟩ := eq_of_onUdpOf (by simpa using hp) hc
      cases hv
      simp [storedOpt]
    · -- the flag of a raw pcb is not written, so it must have the value before
      have held : dgramField c .reuseaddr = some (carried f n .reuseaddr).1 := by
        by_contra hne
        refine hr ⟨.inl rfl, p, c, by simpa using hp, ?_, hne⟩
        simpa [modOpts, World.modSlot] using hc
      rw [hv, Option.some.injEq] at held
      simp [storedOpt, held, carried]
  | nodelay =>
    obtain ⟨h, -⟩ := Prod.mk.inj ha
    obtain rfl := Except.ok.inj h
    refine .onFullOf hfit (fun _ => rfl) fun c v hv => ?_
    cases hv
    rfl
  | keepidle | keepintvl =>
    simp only [Tolunnet.applySockopt] at ha
    split at ha
    · rename_i ok
      obtain ⟨h, -⟩ := Prod.mk.inj ha
      obtain rfl := Except.ok.inj h
      have positive : 0 < tnLoadOptInt f := (keepOk_iff.mp ok).1
      refine .onFullOf hfit (fun _ => rfl) fun c v hv => ?_
      cases hv
      simp only [storedOpt, Prod.mk.injEq, and_true]
      omega
    · cases (Prod.mk.inj ha).1
  | keepcnt =>
    simp only [Tolunnet.applySockopt] at ha
    split at ha
    · rename_i positive
      obtain ⟨h, -⟩ := Prod.mk.inj ha
      obtain rfl := Except.ok.inj h
      refine .onFullOf hfit (fun _ => rfl) fun c v hv => ?_
      cases hv
      simp only [storedOpt, Prod.mk.injEq, and_true]
      omega
    · cases (Prod.mk.inj ha).1
  | maxseg =>
    simp only [Tolunnet.applySockopt] at ha
    split at ha
    · cases (Prod.mk.inj ha).1
    · obtain ⟨h, -⟩ := Prod.mk.inj ha
      obtain rfl := Except.ok.inj h
      refine .onFullOf (hfit.congr (stored_readMss w i)) (fun _ => rfl) fun c v hv => ?_
      cases hv
      rfl
  | ttl | tos =>
    obtain ⟨h, -⟩ := Prod.mk.inj ha
    obtain rfl := Except.ok.inj h
    rintro v (⟨p, c, hp, hc, -, hv⟩ | ⟨p, c, hp, hc, hv⟩ | ⟨p, c, hp, hc, hv⟩)
    · simp only [tcpPcbs_onUdpOf, tcpPcbs_onRawOf] at hc
      obtain ⟨c0, rfl⟩ := eq_of_onTcpOf (by simpa using hp) hc
      cases hv
      simp [storedOpt]
    · simp only [udpPcbs_onRawOf] at hc
      obtain ⟨c0, rfl⟩ := eq_of_onUdpOf (by simpa using hp) hc
      cases hv
      simp [storedOpt]
    · obtain ⟨c0, rfl⟩ := eq_of_onRawOf (by simpa using hp) hc
      cases hv
      simp [storedOpt]
  | multicastTtl =>
    obtain ⟨h, -⟩ := Prod.mk.inj ha
    obtain rfl := Except.ok.inj h
    rintro v (⟨p, c, hp, hc, -, hv⟩ | ⟨p, c, hp, hc, hv⟩ | ⟨p, c, hp, hc, hv⟩)
    · cases hv
    · simp only [udpPcbs_onRawOf] at hc
      obtain ⟨c0, rfl⟩ := eq_of_onUdpOf (by simpa using hp) hc
      cases hv
      simp [storedOpt]
    · obtain ⟨c0, rfl⟩ := eq_of_onRawOf (by simpa using hp) hc
      cases hv
      simp [storedOpt]
  | multicastLoop =>
    obtain ⟨h, -⟩ := Prod.mk.inj ha
    obtain rfl := Except.ok.inj h
    have value : ((loadMcast f n != 0).toNat : Int) = bit (loadMcast f n != 0) := by
      cases loadMcast f n != 0 <;> rfl
    rintro v (⟨p, c, hp, hc, -, hv⟩ | ⟨p, c, hp, hc, hv⟩ | ⟨p, c, hp, hc, hv⟩)
    · cases hv
    · obtain ⟨c0, rfl⟩ := eq_of_onUdpOf (by simpa using hp) hc
      cases hv
      simp [storedOpt, value]
    · have held : dgramField c .multicastLoop = some (carried f n .multicastLoop).1 := by
        by_contra hne
        refine hr ⟨.inr rfl, p, c, by simpa using hp, ?_, hne⟩
        simpa [modOpts, World.modSlot] using hc
      rw [hv, Option.some.injEq] at held
      simp [storedOpt, held, carried, value]
  | _ => exact absurd hk id

/-! ## What is reported -/

/-- The bytes of a value: a timeout is given in milliseconds when there is room for one word only. -/
def valueBytes (v : Int × Int) (olen : Nat) : SockOpt → List UInt8
  | .linger => intBytes v.1 ++ intBytes v.2
  | .rcvtimeo | .sndtimeo =>
    if olen ≥ 8 then intBytes v.1 ++ intBytes v.2 else intBytes (v.1 * 1000 + v.2 / 1000)
  | _ => intBytes v.1

/-- A word is stored without the bits beyond its four bytes. -/
theorem intBytes_natCast (n : Nat) : intBytes n = bytes32 n := by
  have word : ((n : Int) % 2 ^ 32).toNat = n % 2 ^ 32 := by omega
  have byte : ∀ a b : Nat, a % 2 ^ 8 = b % 2 ^ 8 → UInt8.ofNat a = UInt8.ofNat b := by
    intro a b h
    rw [← UInt8.ofNat_mod_size, h, UInt8.ofNat_mod_size]
  unfold intBytes bytes32
  rw [word, byte (n % 2 ^ 32 / 2 ^ 24) (n / 2 ^ 24) (by omega),
    byte (n % 2 ^ 32 / 2 ^ 16) (n / 2 ^ 16) (by omega),
    byte (n % 2 ^ 32 / 2 ^ 8) (n / 2 ^ 8) (by omega), byte (n % 2 ^ 32) n (by omega)]

/-- `GETSOCKOPT` gives back what is `reported`, if there is room for it. -/
theorem getSockopt_reported {olen : Nat} (hk : o.Kept)
    (room : 4 ≤ olen ∧ (o = .linger → 8 ≤ olen)) :
    getSockopt w m i o olen =
      done (writeOpt (readOpt w i o) m (valueBytes (reported w i o) olen o)) m 0 .ok := by
  obtain ⟨word, two⟩ := room
  have short : ¬ olen < 4 := by omega
  cases o with
  | linger =>
    have both : ¬ olen < 8 := by
      have := two rfl
      omega
    simp only [getSockopt, if_neg both]
    rfl
  | rcvtimeo | sndtimeo =>
    by_cases pair : olen ≥ 8
    · simp only [getSockopt, if_neg short, if_pos pair, valueBytes, reported, intBytes_natCast]
      rfl
    · simp only [getSockopt, if_neg short, if_neg pair, valueBytes]
      rfl
  | keepalive | reuseaddr | sndbuf | rcvbuf | nodelay | maxseg | keepidle | keepintvl | keepcnt | ttl
  | tos | multicastTtl | multicastLoop =>
    simp only [getSockopt, if_neg short]
    rfl
  | _ => exact absurd hk id

/-- What is stored is reported, unless it is the segment size of a stream without a pcb. -/
theorem reported_eq {v : Int × Int} (hfit : Fits w i) (hk : o.Kept)
    (hm : o = .maxseg → (w.sockets i).tcpState = .listening ∨ (w.sockets i).tcpPcb ≠ none)
    (mirrors : Mirrors w i o) (hv : storedOpt (w.sockets i).opts o = v)
    (hz : o = .rcvbuf ∨ o = .sndbuf ∨ o = .maxseg → v.1 ≠ 0) : reported w i o = v := by
  -- a value that is read from the pcb
  have fromPcb : ∀ (field : TcpPcb → Int) (d : Int), storedOpt (w.sockets i).opts o = (d, 0) →
      (∀ c, tcpField c o = some (field c)) → tcpOptValue w i field d = d := by
    intro field d hd hfield
    unfold tcpOptValue
    cases hp : (w.sockets i).tcpPcb with
    | none => rfl
    | some p =>
      obtain ⟨c, hc, kind⟩ := hfit p hp
      dsimp only
      by_cases hs : (w.sockets i).tcpState = .listening
      · rw [if_neg (not_not.mpr hs)]
      · rw [if_pos hs, hc]
        have full : c.listen = false := by
          by_contra hl
          exact hs (kind.mp (by simpa using hl))
        have same := mirrors _ (.tcp p c hp hc full (hfield c))
        exact (Prod.mk.inj (hd.symm.trans same)).1.symm
  subst hv
  cases o with
  | sndbuf =>
    have nonzero : (w.sockets i).opts.sndbuf ≠ 0 := hz (.inr (.inl rfl))
    simp [reported, optValue, storedOpt, nonzero]
  | rcvbuf =>
    have nonzero : (w.sockets i).opts.rcvbuf ≠ 0 := hz (.inl rfl)
    simp [reported, optValue, storedOpt, nonzero]
  | keepidle | keepintvl | keepcnt => exact Prod.ext (fromPcb _ _ rfl fun _ => rfl) rfl
  | maxseg =>
    have nonzero : (w.sockets i).opts.mss ≠ 0 := by
      have h : ((w.sockets i).opts.mss : Int) ≠ 0 := hz (.inr (.inr rfl))
      exact_mod_cast h
    by_cases hs : (w.sockets i).tcpState = .listening
    · simp [reported, optValue, storedOpt, hs, nonzero]
    · have value := fromPcb (fun c => c.mss) (w.sockets i).opts.mss rfl fun _ => rfl
      have read : tcpOptValue w i (fun c => c.mss) tcpMss = (w.sockets i).opts.mss := by
        unfold tcpOptValue at value ⊢
        cases hp : (w.sockets i).tcpPcb with
        | none => exact absurd hp ((hm rfl).resolve_left hs)
        | some p =>
          rw [hp] at value
          simpa [hs] using value
      simp [reported, optValue, storedOpt, hs, read]
  | keepalive | reuseaddr | linger | rcvtimeo | sndtimeo | nodelay | ttl | tos | multicastTtl
  | multicastLoop => rfl
  | _ => exact absurd hk id

/-- The value in a full pcb is reported when the slot stores it, and anyway when it is read from
there. -/
theorem reported_of_inPcb {v : Int} (hfit : Fits w i) (hk : o.Kept)
    (mirrors : ¬ o.FromPcb → Mirrors w i o) (hv : InPcb w i o v) : reported w i o = (v, 0) := by
  by_cases ho : o.FromPcb
  · cases hv with
    | tcp p c hp hc full hf =>
      obtain ⟨c', hc', kind⟩ := hfit p hp
      obtain rfl : c' = c := Option.some.inj (hc'.symm.trans hc)
      have hs : (w.sockets i).tcpState ≠ .listening := fun hs => by
        rw [kind.mpr hs] at full
        cases full
      cases o <;> first | exact absurd ho id | skip
      all_goals
        cases hf
        simp [reported, optValue, tcpOptValue, hp, hs, hc]
    | udp p c _ _ hf => cases o <;> first | exact absurd ho id | cases hf
    | raw p c _ _ hf => cases o <;> first | exact absurd ho id | cases hf
  · refine reported_eq hfit hk (fun h => absurd (h ▸ trivial) ho) (mirrors ho) (mirrors ho v hv) ?_
    -- the buffer sizes are in no pcb
    rintro (rfl | rfl | rfl)
    · rcases hv with ⟨_, _, _, _, _, hf⟩ | ⟨_, _, _, _, hf⟩ | ⟨_, _, _, _, hf⟩ <;> cases hf
    · rcases hv with ⟨_, _, _, _, _, hf⟩ | ⟨_, _, _, _, hf⟩ | ⟨_, _, _, _, hf⟩ <;> cases hf
    · exact absurd trivial ho

end Tolunnet
