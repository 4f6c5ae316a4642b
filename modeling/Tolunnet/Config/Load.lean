import Mathlib.Data.List.GetD
import Tolunnet.Config.RoundTrip

/-!
# `Tolunnet.Config.Load`: what a load takes from the files, and what it does not

`tn_prefs_default` assigns every field but `dns_pending_max` and `dns_retries`, so a load that
reads text leaves there what the structure held before, unless the text sets both keys
(`parseAll_alike_iff`). An older binary image goes over a local structure: what it does not cover
is the default, but for the two fields and for a `font` that the image cuts in the middle
(`readBlob_alike_iff`). `tnPrefsLoad_alike_iff` puts the two together along the order in which the
stores are tried.
-/

set_option autoImplicit false

namespace Tolunnet

/-! ## Fields that are set and fields that are not -/

/-- A reader that sets the fields in `S` and leaves the others alone gives the same preferences
whatever was in the structure if and only if it sets the two fields without a default. -/
theorem alike_iff {F : TnPrefs → TnPrefs} {S : CfgKey → Prop}
    (h : ∀ k : CfgKey, (S k ∧ ∃ v : k.Val, ∀ q, (F q).get k = v) ∨
      (¬ S k ∧ ∀ q, (F q).get k = q.get k)) :
    (∀ p p', F (tnPrefsDefault p) = F (tnPrefsDefault p')) ↔ S .dnsPending ∧ S .dnsRetries := by
  constructor
  · intro hall
    constructor
    · rcases h .dnsPending with ⟨hs, -⟩ | ⟨-, hid⟩
      · exact hs
      · have heq := congrArg (TnPrefs.get · .dnsPending) (hall {} { dnsPendingMax := 1 })
        simp only [hid] at heq
        cases heq
    · rcases h .dnsRetries with ⟨hs, -⟩ | ⟨-, hid⟩
      · exact hs
      · have heq := congrArg (TnPrefs.get · .dnsRetries) (hall {} { dnsRetries := 1 })
        simp only [hid] at heq
        cases heq
  · rintro ⟨hpend, hretr⟩ p p'
    refine TnPrefs.ext_get fun k => ?_
    rcases h k with ⟨-, v, hv⟩ | ⟨hs, hid⟩
    · rw [hv, hv]
    · rw [hid, hid]
      refine get_tnPrefsDefault ⟨?_, ?_⟩ p p'
      · rintro rfl
        exact hs hpend
      · rintro rfl
        exact hs hretr

/-! ## Lines -/

/-- Whether some calls of the parser set a key. -/
def SetBy (calls : List (List Char × List Char)) (k : CfgKey) : Prop :=
  ∃ c ∈ calls, cfgKey? (tnStrCopyClean c.1 32) = some k ∧ (cfgValue k c.2).isSome

/-- A field after some calls: what the last accepted one set, if there is one. -/
theorem get_parseAll_cases (k : CfgKey) (calls : List (List Char × List Char)) :
    (SetBy calls k ∧ ∃ v : k.Val, ∀ q, (parseAll q calls).get k = v) ∨
      (¬ SetBy calls k ∧ ∀ q, (parseAll q calls).get k = q.get k) := by
  induction calls with
  | nil => exact Or.inr ⟨fun h => (by obtain ⟨c, hc, -⟩ := h; cases hc), fun _ => rfl⟩
  | cons c calls ih =>
    have hcons : SetBy (c :: calls) k ↔
        (cfgKey? (tnStrCopyClean c.1 32) = some k ∧ (cfgValue k c.2).isSome) ∨ SetBy calls k := by
      simp only [SetBy, List.exists_mem_cons_iff]
    have hstep : ∀ q, parseAll q (c :: calls) = parseAll (tnConfigParseLine q c.1 c.2) calls :=
      fun _ => rfl
    rcases ih with ⟨hset, v, hv⟩ | ⟨hset, hv⟩
    · exact Or.inl ⟨hcons.mpr (Or.inr hset), v, fun q => by rw [hstep, hv]⟩
    · by_cases hc : cfgKey? (tnStrCopyClean c.1 32) = some k ∧ (cfgValue k c.2).isSome
      · obtain ⟨v, hval⟩ := Option.isSome_iff_exists.mp hc.2
        refine Or.inl ⟨hcons.mpr (Or.inl hc), v, fun q => ?_⟩
        rw [hstep, hv, get_tnConfigParseLine, if_pos hc.1, hval]
        rfl
      · refine Or.inr ⟨fun h => (hcons.mp h).elim hc hset, fun q => ?_⟩
        rw [hstep, hv, get_tnConfigParseLine]
        split
        · rename_i hk
          have hnone : cfgValue k c.2 = none := by
            simpa using fun h => hc ⟨hk, h⟩
          rw [hnone]
          rfl
        · rfl

/-- Parsing onto the defaults does not depend on what was there if and only if both keys without a
default are set. -/
theorem parseAll_alike_iff (calls : List (List Char × List Char)) :
    (∀ p p', parseAll (tnPrefsDefault p) calls = parseAll (tnPrefsDefault p') calls) ↔
      SetBy calls .dnsPending ∧ SetBy calls .dnsRetries :=
  alike_iff fun k => get_parseAll_cases k calls

/-- Whether a file sets a key when it is read as text. -/
def SetIn (content : List Char) (k : CfgKey) : Prop :=
  ∃ chunk ∈ fgetsChunks content, (chunkValue k chunk).isSome

theorem readText_alike_iff (content : List Char) :
    (∀ p p', readText (tnPrefsDefault p) content = readText (tnPrefsDefault p') content) ↔
      SetIn content .dnsPending ∧ SetIn content .dnsRetries := by
  refine @alike_iff (readText · content) (SetIn content) fun k => ?_
  have hget : ∀ q, (readText q content).get k = (lastValue k (fgetsChunks content)).getD (q.get k) :=
    fun q => get_foldl_readChunk k _ q
  have hset : SetIn content k ↔ lastValue k (fgetsChunks content) ≠ none := by
    simp only [SetIn, lastValue, ne_eq, List.getLast?_eq_none_iff, List.filterMap_eq_nil_iff,
      not_forall, exists_prop, Option.isSome_iff_ne_none]
  cases hv : lastValue k (fgetsChunks content) with
  | none =>
    refine Or.inr ⟨fun h => hset.mp h hv, fun q => ?_⟩
    rw [hget, hv]
    rfl
  | some v =>
    refine Or.inl ⟨hset.mpr (by rw [hv]; exact Option.some_ne_none v), v, fun q => ?_⟩
    rw [hget, hv]
    rfl

/-! ## Images -/

/-- The stores of `tn_prefs_default` into a structure. -/
def defaultPokes : List (Nat × List UInt8) :=
  let str := fun off (s : List Char) => (off, s.map charByte ++ [0])
  [str 0 (tnPrefsDefault {}).device, (64, bytes32 0), (68, bytes16 1), str 70 [], str 90 [],
   str 110 [], str 130 [], str 150 (tnPrefsDefault {}).hostname, str 214 [], (234, bytes32 0),
   (238, bytes32 0), (242, bytes32 5), str 246 [], (310, bytes32 0xFFFFFFFF), str 314 [],
   (354, bytes32 0), (358, bytes16 1), str 360 [], (408, bytes32 0), (412, bytes32 0),
   (424, bytes32 0), str 428 [], (452, bytes32 0), (456, bytes16 0), (458, bytes16 0)]

theorem defaultImage_eq (f : Mem) :
    defaultImage f = defaultPokes.foldl (fun f e => poke f e.1 e.2) f := rfl

/-- A byte is stored, or it is what was there. -/
theorem foldl_poke_cases (ps : List (Nat × List UInt8)) (x : Nat) :
    (∀ f : Mem, ps.foldl (fun f e => poke f e.1 e.2) f x = f x) ∨
      ∀ f f' : Mem, ps.foldl (fun f e => poke f e.1 e.2) f x
        = ps.foldl (fun f e => poke f e.1 e.2) f' x := by
  induction ps with
  | nil => exact Or.inl fun _ => rfl
  | cons e ps ih =>
    simp only [List.foldl_cons]
    rcases ih with hid | hconst
    · by_cases hx : e.1 ≤ x ∧ x < e.1 + e.2.length
      · right
        intro f f'
        rw [hid, hid, poke, poke, if_pos hx, if_pos hx]
      · left
        intro f
        rw [hid, poke, if_neg hx]
    · exact Or.inr fun f f' => hconst _ _

/-- The bytes that `tn_prefs_default` stores from `tx_queue` on, and those of the two fields
without a default. -/
theorem defaultImage_bytes :
    (∀ x, 424 ≤ x → x < 429 → ∀ f f', defaultImage f x = defaultImage f' x) ∧
    (∀ x, 452 ≤ x → x < 460 → ∀ f f', defaultImage f x = defaultImage f' x) ∧
    (∀ x, 416 ≤ x → x < 424 → ∀ f, defaultImage f x = f x) ∧
    (∀ x, 429 ≤ x → x < 452 → ∀ f, defaultImage f x = f x) := by
  -- whether a byte is stored shows on two images
  have hstored : ∀ x, defaultImage (fun _ => 0) x = defaultImage (fun _ => 1) x →
      ∀ f f', defaultImage f x = defaultImage f' x := by
    intro x h
    rcases foldl_poke_cases defaultPokes x with hid | hconst
    · rw [defaultImage_eq, defaultImage_eq, hid, hid] at h
      cases h
    · intro f f'
      rw [defaultImage_eq, defaultImage_eq]
      exact hconst f f'
  have hkept : ∀ x, defaultImage (fun _ => 0) x ≠ defaultImage (fun _ => 1) x →
      ∀ f, defaultImage f x = f x := by
    intro x h
    rcases foldl_poke_cases defaultPokes x with hid | hconst
    · intro f
      rw [defaultImage_eq]
      exact hid f
    · rw [defaultImage_eq, defaultImage_eq] at h
      exact absurd (hconst _ _) h
  have hbytes : (∀ x < 460, 424 ≤ x → x < 429 →
        defaultImage (fun _ => 0) x = defaultImage (fun _ => 1) x) ∧
      (∀ x < 460, 452 ≤ x → defaultImage (fun _ => 0) x = defaultImage (fun _ => 1) x) ∧
      (∀ x < 460, 416 ≤ x → x < 424 →
        defaultImage (fun _ => 0) x ≠ defaultImage (fun _ => 1) x) ∧
      (∀ x < 460, 429 ≤ x → x < 452 →
        defaultImage (fun _ => 0) x ≠ defaultImage (fun _ => 1) x) := by
    decide +kernel
  obtain ⟨h1, h2, h3, h4⟩ := hbytes
  refine ⟨fun x h h' => ?_, fun x h h' => ?_, fun x h h' => ?_, fun x h h' => ?_⟩
  · exact hstored x (h1 x (by omega) h h')
  · exact hstored x (h2 x h' h)
  · exact hkept x (h3 x (by omega) h h')
  · exact hkept x (h4 x (by omega) h h')

section
variable {f f' : Mem}

theorem be16_congr {off : Nat} (h : ∀ x, off ≤ x → x < off + 2 → f x = f' x) :
    be16 f off = be16 f' off := by
  rw [be16, be16, h off (by omega) (by omega), h (off + 1) (by omega) (by omega)]

theorem be32_congr {off : Nat} (h : ∀ x, off ≤ x → x < off + 4 → f x = f' x) :
    be32 f off = be32 f' off := by
  rw [be32, be32, be16_congr fun x h1 h2 => h x h1 (by omega),
    be16_congr fun x h1 h2 => h x (by omega) (by omega)]

/-- A string that ends before the images differ. -/
theorem cstrAt_congr {off size n : Nat} (h : ∀ x, off ≤ x → x < n → f x = f' x)
    (hend : off + size ≤ n ∨ ∃ x, off ≤ x ∧ x < n ∧ x < off + size ∧ f x = 0) :
    cstrAt f off size = cstrAt f' off size := by
  unfold cstrAt
  congr 1
  rcases hend with hall | ⟨z, hz, hzn, hzs, hzero⟩
  · congr 1
    refine List.map_congr_left fun k hk => h _ (by omega) ?_
    rw [List.mem_range] at hk
    omega
  · -- both lists are cut at the first zero, which is in the part where they agree
    have hsplit : List.range size = List.range (z - off + 1)
        ++ (List.range (size - (z - off + 1))).map (z - off + 1 + ·) := by
      rw [← List.range_add]
      congr 1
      omega
    have heq : ((List.range (z - off + 1)).map fun k => f (off + k))
        = (List.range (z - off + 1)).map fun k => f' (off + k) := by
      refine List.map_congr_left fun k hk => h _ (by omega) ?_
      rw [List.mem_range] at hk
      omega
    have hcut : ∀ g : Mem, g z = 0 → (((List.range (z - off + 1)).map fun k => g (off + k)).takeWhile
        (· ≠ 0)).length ≠ ((List.range (z - off + 1)).map fun k => g (off + k)).length := by
      intro g hg hlen
      have hself := List.takeWhile_prefix (l := (List.range (z - off + 1)).map fun k => g (off + k))
        (p := (· ≠ 0)) |>.eq_of_length hlen
      have hmem : g z ∈ (List.range (z - off + 1)).map fun k => g (off + k) :=
        List.mem_map.mpr ⟨z - off, List.mem_range.mpr (by omega), by congr 1; omega⟩
      rw [← hself] at hmem
      exact absurd (List.mem_takeWhile_imp hmem) (by simp [hg])
    have hzero' : f' z = 0 := (h z hz hzn).symm.trans hzero
    rw [hsplit, List.map_append, List.map_append, List.takeWhile_append, List.takeWhile_append,
      if_neg (hcut f hzero), if_neg (hcut f' hzero'), heq]

end

/-- The bytes of a file that go over the structure. -/
def blobBytes (content : List Char) : List UInt8 := (content.take sizeofPrefs).map charByte

/-- The preferences in the image of a file over the defaults. -/
def blobPrefs (tmp : Mem) (content : List Char) : TnPrefs :=
  decodePrefs (poke (defaultImage tmp) 0 (blobBytes content))

/-- Whether a file covers what the defaults do not: both fields without a default, and `font` up
to its end if it touches it at all. -/
def BlobCovers (content : List Char) : Prop :=
  424 ≤ (blobBytes content).length ∧
    ((blobBytes content).length ≤ 428 ∨ 452 ≤ (blobBytes content).length ∨
      ∃ b ∈ (blobBytes content).drop 428, b = 0)

section
variable (content : List Char)

/-- A byte that the file has. -/
theorem blob_of_lt (tmp : Mem) {x : Nat} (h : x < (blobBytes content).length) :
    poke (defaultImage tmp) 0 (blobBytes content) x = (blobBytes content).getD x 0 := by
  rw [poke, if_pos ⟨Nat.zero_le x, by omega⟩]
  rfl

/-- A byte that it does not have. -/
theorem blob_of_le (tmp : Mem) {x : Nat} (h : (blobBytes content).length ≤ x) :
    poke (defaultImage tmp) 0 (blobBytes content) x = defaultImage tmp x := by
  rw [poke, if_neg (by omega)]

/-- Without the last byte of `dns_retries` it shows what was there. -/
theorem blobPrefs_ne_of_short (h : (blobBytes content).length < 424) :
    blobPrefs (fun _ => 0) content ≠ blobPrefs (fun _ => 1) content := by
  intro heq
  have hretr : be32 (poke (defaultImage fun _ => 0) 0 (blobBytes content)) 420
      = be32 (poke (defaultImage fun _ => 1) 0 (blobBytes content)) 420 :=
    congrArg TnPrefs.dnsRetries heq
  have hle : ∀ x, 420 ≤ x → x < 424 →
      (poke (defaultImage fun _ => 0) 0 (blobBytes content) x).toNat
        ≤ (poke (defaultImage fun _ => 1) 0 (blobBytes content) x).toNat := by
    intro x hx hx'
    by_cases hlt : x < (blobBytes content).length
    · rw [blob_of_lt _ _ hlt, blob_of_lt _ _ hlt]
    · rw [blob_of_le _ _ (by omega), blob_of_le _ _ (by omega),
        defaultImage_bytes.2.2.1 x (by omega) hx', defaultImage_bytes.2.2.1 x (by omega) hx']
      decide
  have hlast : (poke (defaultImage fun _ => 0) 0 (blobBytes content) 423).toNat = 0 ∧
      (poke (defaultImage fun _ => 1) 0 (blobBytes content) 423).toNat = 1 := by
    rw [blob_of_le _ _ (by omega), blob_of_le _ _ (by omega),
      defaultImage_bytes.2.2.1 423 (by omega) (by omega),
      defaultImage_bytes.2.2.1 423 (by omega) (by omega)]
    decide
  have h0 := hle 420 (by omega) (by omega)
  have h1 := hle 421 (by omega) (by omega)
  have h2 := hle 422 (by omega) (by omega)
  simp only [be32, be16, Nat.reduceAdd] at hretr
  omega

/-- A `font` without an end shows what stands behind it. -/
theorem blobPrefs_ne_of_font (h : 428 < (blobBytes content).length)
    (h' : (blobBytes content).length < 452) (hno : ∀ b ∈ (blobBytes content).drop 428, b ≠ 0) :
    blobPrefs (fun _ => 0) content ≠ blobPrefs (fun _ => 1) content := by
  intro heq
  have hfont : cstrAt (poke (defaultImage fun _ => 0) 0 (blobBytes content)) 428 24
      = cstrAt (poke (defaultImage fun _ => 1) 0 (blobBytes content)) 428 24 :=
    congrArg TnPrefs.font heq
  -- over ones the string fills the array
  have hfull : (cstrAt (poke (defaultImage fun _ => 1) 0 (blobBytes content)) 428 24).length
      = 24 := by
    have hall : ∀ b ∈ (List.range 24).map fun k =>
        poke (defaultImage fun _ => 1) 0 (blobBytes content) (428 + k), decide (b ≠ 0) = true := by
      intro b hb
      obtain ⟨k, hk, rfl⟩ := List.mem_map.mp hb
      rw [List.mem_range] at hk
      by_cases hlt : 428 + k < (blobBytes content).length
      · have hmem : (blobBytes content).getD (428 + k) 0 ∈ (blobBytes content).drop 428 := by
          rw [List.getD_eq_getElem _ _ hlt]
          exact List.mem_drop_iff_getElem.mpr ⟨k, by omega, rfl⟩
        rw [blob_of_lt _ _ hlt]
        exact decide_eq_true (hno _ hmem)
      · rw [blob_of_le _ _ (by omega), defaultImage_bytes.2.2.2 _ (by omega) (by omega)]
        decide
    unfold cstrAt
    rw [List.takeWhile_eq_self_iff.mpr hall]
    simp
  -- over zeroes it ends where the file ends
  have hcut : (cstrAt (poke (defaultImage fun _ => 0) 0 (blobBytes content)) 428 24).length
      ≠ 24 := by
    intro hlen
    have hself := (List.takeWhile_prefix (l := (List.range 24).map fun k =>
      poke (defaultImage fun _ => 0) 0 (blobBytes content) (428 + k)) (p := (· ≠ 0))).eq_of_length
      (by simpa [cstrAt] using hlen)
    have hmem : poke (defaultImage fun _ => 0) 0 (blobBytes content) (blobBytes content).length
        ∈ (List.range 24).map fun k =>
          poke (defaultImage fun _ => 0) 0 (blobBytes content) (428 + k) :=
      List.mem_map.mpr ⟨(blobBytes content).length - 428, List.mem_range.mpr (by omega), by
        rw [Nat.add_sub_of_le (by omega)]⟩
    have hzero : poke (defaultImage fun _ => 0) 0 (blobBytes content) (blobBytes content).length
        = 0 := by
      rw [blob_of_le _ _ (Nat.le_refl _), defaultImage_bytes.2.2.2 _ (by omega) (by omega)]
    rw [← hself] at hmem
    exact absurd (List.mem_takeWhile_imp hmem) (by simp [hzero])
  rw [hfont] at hcut
  exact hcut hfull

/-- A file that covers everything. -/
theorem blobPrefs_eq_of_covers (h : BlobCovers content) (tmp tmp' : Mem) :
    blobPrefs tmp content = blobPrefs tmp' content := by
  obtain ⟨hlen, hfont⟩ := h
  have hlow : ∀ x, x < 424 → poke (defaultImage tmp) 0 (blobBytes content) x
      = poke (defaultImage tmp') 0 (blobBytes content) x := fun x hx => by
    rw [blob_of_lt _ _ (by omega), blob_of_lt _ _ (by omega)]
  have hmid : ∀ x, x < 429 → poke (defaultImage tmp) 0 (blobBytes content) x
      = poke (defaultImage tmp') 0 (blobBytes content) x := fun x hx => by
    by_cases hlt : x < (blobBytes content).length
    · rw [blob_of_lt _ _ hlt, blob_of_lt _ _ hlt]
    · rw [blob_of_le _ _ (by omega), blob_of_le _ _ (by omega)]
      exact defaultImage_bytes.1 x (by omega) hx _ _
  have hhigh : ∀ x, 452 ≤ x → x < 460 → poke (defaultImage tmp) 0 (blobBytes content) x
      = poke (defaultImage tmp') 0 (blobBytes content) x := fun x hx hx' => by
    by_cases hlt : x < (blobBytes content).length
    · rw [blob_of_lt _ _ hlt, blob_of_lt _ _ hlt]
    · rw [blob_of_le _ _ (by omega), blob_of_le _ _ (by omega)]
      exact defaultImage_bytes.2.1 x hx hx' _ _
  have hstr : ∀ off size, off + size ≤ 424 →
      cstrAt (poke (defaultImage tmp) 0 (blobBytes content)) off size
        = cstrAt (poke (defaultImage tmp') 0 (blobBytes content)) off size := fun off size hs =>
    cstrAt_congr (n := 424) (fun x _ hx => hlow x hx) (Or.inl hs)
  have hlong : ∀ off, off + 4 ≤ 428 →
      be32 (poke (defaultImage tmp) 0 (blobBytes content)) off
        = be32 (poke (defaultImage tmp') 0 (blobBytes content)) off := fun off hs =>
    be32_congr fun x _ hx => hmid x (by omega)
  have hshort : ∀ off, off + 2 ≤ 428 →
      be16 (poke (defaultImage tmp) 0 (blobBytes content)) off
        = be16 (poke (defaultImage tmp') 0 (blobBytes content)) off := fun off hs =>
    be16_congr fun x _ hx => hmid x (by omega)
  have hfontEq : cstrAt (poke (defaultImage tmp) 0 (blobBytes content)) 428 24
      = cstrAt (poke (defaultImage tmp') 0 (blobBytes content)) 428 24 := by
    have hagree : ∀ x, x < (blobBytes content).length →
        poke (defaultImage tmp) 0 (blobBytes content) x
          = poke (defaultImage tmp') 0 (blobBytes content) x := fun x hx => by
      rw [blob_of_lt _ _ hx, blob_of_lt _ _ hx]
    rcases hfont with hle | hge | ⟨b, hb, rfl⟩
    · -- the image ends before `font`, and the default is empty
      refine cstrAt_congr (n := 429) (fun x _ hx => hmid x hx)
        (Or.inr ⟨428, by omega, by omega, by omega, ?_⟩)
      rw [blob_of_le _ _ (by omega)]
      exact (defaultImage_bytes.1 428 (by omega) (by omega) tmp fun _ => 0).trans (by decide +kernel)
    · exact cstrAt_congr (n := (blobBytes content).length) (fun x _ hx => hagree x hx)
        (Or.inl (by omega))
    · obtain ⟨k, hk, hzero⟩ := List.mem_drop_iff_getElem.mp hb
      by_cases hlen' : 452 ≤ (blobBytes content).length
      · exact cstrAt_congr (n := (blobBytes content).length) (fun x _ hx => hagree x hx)
          (Or.inl (by omega))
      · refine cstrAt_congr (n := (blobBytes content).length) (fun x _ hx => hagree x hx)
          (Or.inr ⟨428 + k, by omega, by omega, by omega, ?_⟩)
        rw [blob_of_lt _ _ (by omega), List.getD_eq_getElem _ _ (by omega)]
        exact hzero
  unfold blobPrefs decodePrefs
  simp only [hstr 0 64 (by omega), hstr 70 20 (by omega), hstr 90 20 (by omega),
    hstr 110 20 (by omega), hstr 130 20 (by omega), hstr 150 64 (by omega), hstr 214 20 (by omega),
    hstr 246 64 (by omega), hstr 314 40 (by omega), hstr 360 48 (by omega), hfontEq,
    hlong 64 (by omega), hlong 234 (by omega), hlong 238 (by omega), hlong 242 (by omega),
    hlong 310 (by omega), hlong 354 (by omega), hlong 408 (by omega), hlong 412 (by omega),
    hlong 416 (by omega), hlong 420 (by omega), hlong 424 (by omega), hshort 68 (by omega),
    hshort 358 (by omega), be32_congr fun x h1 h2 => hhigh x h1 (Nat.lt_of_lt_of_le h2 (by decide)),
    be16_congr fun x h1 h2 => hhigh x (Nat.le_trans (by decide : 452 ≤ 456) h1)
      (Nat.lt_of_lt_of_le h2 (by decide)),
    be16_congr fun x h1 h2 => hhigh x (Nat.le_trans (by decide : 452 ≤ 458) h1)
      (Nat.lt_of_lt_of_le h2 (by decide))]

/-- The preferences in an image depend on nothing else if and only if it covers what the defaults
do not. -/
theorem blobPrefs_alike_iff :
    (∀ tmp tmp', blobPrefs tmp content = blobPrefs tmp' content) ↔ BlobCovers content := by
  refine ⟨fun hall => ?_, blobPrefs_eq_of_covers content⟩
  by_contra hno
  by_cases hshort : (blobBytes content).length < 424
  · exact blobPrefs_ne_of_short content hshort (hall _ _)
  · have hfont : ¬ ((blobBytes content).length ≤ 428 ∨ 452 ≤ (blobBytes content).length ∨
        ∃ b ∈ (blobBytes content).drop 428, b = 0) := fun h => hno ⟨by omega, h⟩
    rw [not_or, not_or] at hfont
    refine blobPrefs_ne_of_font content (by omega) (by omega) (fun b hb hz => ?_) (hall _ _)
    exact hfont.2.2 ⟨b, hb, hz⟩

end

/-! ## Stores -/

/-- Whether the header of a file looks like an image, when the variable for the second byte of a
file with one byte holds something printable. -/
def looksBinary (content : List Char) : Bool := isBlob { header1 := 32 } content

/-- Whether a file is accepted as a configuration. -/
def accepted (content : List Char) : Bool :=
  !content.isEmpty &&
    if looksBinary content then decide (offsetofHostname ≤ (blobBytes content).length)
    else parsedAny content

/-- Only for a file with one byte the header depends on the variable. -/
theorem isBlob_eq {junk : Junk} {content : List Char}
    (h : content.length ≠ 1 ∨ junk.header1 = 32) : isBlob junk content = looksBinary content := by
  unfold looksBinary
  match content, h with
  | [], _ => rfl
  | [c], h =>
    have hj := h.resolve_left (fun hne => hne rfl)
    simp only [isBlob, hj]
  | c :: c' :: cs, _ => rfl

/-- Reading a text without an `=` changes nothing. -/
theorem readText_of_not_parsedAny {content : List Char} (h : parsedAny content = false)
    (q : TnPrefs) : readText q content = q := by
  refine TnPrefs.ext_get fun k => ?_
  have hnone : (fgetsChunks content).filterMap (chunkValue k) = [] :=
    List.filterMap_eq_nil_iff.mpr fun chunk hc => by
      have hno := List.any_eq_false.mp h chunk hc
      have hkey : chunkKey chunk = none := if_neg (by simpa using hno)
      rw [chunkValue, hkey]
      rfl
  rw [readText, get_foldl_readChunk, lastValue, hnone]
  rfl

/-- The length of what is read of an image. -/
theorem length_blobBytes_le (content : List Char) : (blobBytes content).length ≤ sizeofPrefs := by
  rw [blobBytes, List.length_map]
  exact List.length_take_le ..

/-- `tn_prefs_read_file` on a file whose header does not depend on the variable. -/
theorem tnPrefsReadFile_eq {junk : Junk} {content : List Char}
    (h : content.length ≠ 1 ∨ junk.header1 = 32) (q : TnPrefs) :
    tnPrefsReadFile junk q content =
      if accepted content then
        (if looksBinary content then blobPrefs junk.tmp content else readText q content, true)
      else (q, false) := by
  have hlen := length_blobBytes_le content
  unfold tnPrefsReadFile accepted
  rw [isBlob_eq h]
  by_cases hnil : content = []
  · simp [hnil]
  · rw [if_neg hnil]
    have hne : (!content.isEmpty) = true := by simpa using hnil
    simp only [hne, Bool.true_and]
    cases hb : looksBinary content with
    | true =>
      simp only [if_true]
      by_cases hsize : offsetofHostname ≤ (blobBytes content).length
      · have hread : tnPrefsReadBlob junk content = some (blobPrefs junk.tmp content) :=
          if_pos ⟨hsize, hlen⟩
        simp [hread, hsize]
      · have hread : tnPrefsReadBlob junk content = none := if_neg fun hc => hsize hc.1
        simp [hread, hsize]
    | false =>
      cases hp : parsedAny content with
      | true => simp
      | false => simp [readText_of_not_parsedAny hp]

/-- A file that is not accepted is not accepted with any header variable. -/
theorem tnPrefsReadFile_of_not_accepted {junk : Junk} {content : List Char}
    (h : accepted content = false) (q : TnPrefs) : tnPrefsReadFile junk q content = (q, false) := by
  by_cases hone : content.length ≠ 1 ∨ junk.header1 = 32
  · rw [tnPrefsReadFile_eq hone, h]
    rfl
  · -- one byte is too short for an image, and as a text it has no `=`
    rw [not_or, not_not] at hone
    obtain ⟨c, rfl⟩ := List.length_eq_one_iff.mp hone.1
    have hshort : tnPrefsReadBlob junk [c] = none := by
      simp [tnPrefsReadBlob, sizeofPrefs, offsetofHostname]
    unfold tnPrefsReadFile
    rw [if_neg (List.cons_ne_nil _ _), hshort]
    by_cases hb : isBlob junk [c] = true
    · rw [if_pos hb]
    · rw [if_neg hb]
      have hbin : looksBinary [c] = false := by
        rw [Bool.not_eq_true, isBlob, Bool.or_eq_false_iff] at hb
        simp only [looksBinary, isBlob, hb.1, Bool.false_or]
        decide
      have hp : parsedAny [c] = false := by
        simpa [accepted, hbin] using h
      rw [readText_of_not_parsedAny hp, hp]

/-- The file that a load takes: the first one that is accepted. -/
def chosenFile (stores : ConfigStores) : Option (List Char) :=
  (([firstStore stores, tnPrefsOpenRecover StoreFile.openable stores.envarc,
    stores.legacy.filter StoreFile.openable].filterMap id).map StoreFile.content).find? accepted

/-- Reading stores one after the other until one is accepted. -/
def loadFrom (junk : Junk) (q : TnPrefs) : List (Option StoreFile) → TnPrefs
  | [] => q
  | o :: os =>
    let r := readStore junk q o
    if r.2 then r.1 else loadFrom junk r.1 os

theorem tnPrefsLoad_eq (junk : Junk) (stores : ConfigStores) (p : TnPrefs) :
    (tnPrefsLoad junk stores p).1 = loadFrom junk (tnPrefsDefault p)
      [firstStore stores, tnPrefsOpenRecover StoreFile.openable stores.envarc,
        stores.legacy.filter StoreFile.openable] := by
  simp only [tnPrefsLoad, loadFrom]
  split
  · rfl
  · split
    · rfl
    · split <;> rfl

/-- What an accepted file makes of the preferences. -/
def readAs (tmp : Mem) (q : TnPrefs) (content : List Char) : TnPrefs :=
  if looksBinary content then blobPrefs tmp content else readText q content

/-- What comes of it. The header variable matters only to a file with one byte. -/
theorem loadFrom_eq (junk : Junk) {os : List (Option StoreFile)} {chosen : Option (List Char)}
    (hc : ((os.filterMap id).map StoreFile.content).find? accepted = chosen)
    (h : (∀ c ∈ chosen, c.length ≠ 1) ∨ junk.header1 = 32) (q : TnPrefs) :
    loadFrom junk q os = chosen.elim q (readAs junk.tmp q) := by
  induction os with
  | nil =>
    cases hc
    rfl
  | cons o os ih =>
    cases o with
    | none => exact ih hc
    | some f =>
      simp only [List.filterMap_cons, id, List.map_cons, List.find?_cons] at hc
      cases ha : accepted f.content with
      | true =>
        rw [ha] at hc
        subst hc
        have hone : f.content.length ≠ 1 ∨ junk.header1 = 32 := h.imp_left fun h => h _ rfl
        simp only [loadFrom, readStore, tnPrefsReadFile_eq hone, ha, if_true]
        rfl
      | false =>
        rw [ha] at hc
        simp only [loadFrom, readStore, tnPrefsReadFile_of_not_accepted ha]
        exact ih hc

/-- A file whose content decides every field. -/
def Decisive (content : List Char) : Prop :=
  if looksBinary content then BlobCovers content
  else SetIn content .dnsPending ∧ SetIn content .dnsRetries

/-- A file with one byte decides nothing. -/
theorem length_ne_one_of_decisive {content : List Char} (h : Decisive content) :
    content.length ≠ 1 := by
  intro hone
  obtain ⟨c, rfl⟩ := List.length_eq_one_iff.mp hone
  unfold Decisive at h
  split at h
  · exact absurd h.1 (by simp [blobBytes, sizeofPrefs])
  · obtain ⟨⟨chunk, hchunk, hset⟩, -⟩ := h
    have hpiece : fgetsChunks [c] = [[c]] := by
      simp [fgetsChunks, Lines.fgets, Lines.fgetsLoop, lineMax]
    rw [hpiece, List.mem_singleton] at hchunk
    subst hchunk
    have hkey : chunkKey [c] = none := by
      by_cases heq : c = '='
      · subst heq
        decide
      · refine if_neg fun hmem => heq ?_
        exact (List.mem_singleton.mp ((List.takeWhile_prefix _).subset hmem)).symm
    rw [chunkValue, hkey] at hset
    cases hset

/-- A load depends on nothing but the files if and only if it takes one that decides every field;
and parsing lines onto the defaults does if and only if `DNS_PENDING` and `DNS_RETRIES` are both
set. -/
theorem tnPrefsLoad_alike_iff (stores : ConfigStores) (calls : List (List Char × List Char)) :
    ((∀ (junk junk' : Junk) (p p' : TnPrefs),
        (tnPrefsLoad junk stores p).1 = (tnPrefsLoad junk' stores p').1) ↔
      ∃ content, chosenFile stores = some content ∧ Decisive content) ∧
    ((∀ p p', parseAll (tnPrefsDefault p) calls = parseAll (tnPrefsDefault p') calls) ↔
      SetBy calls .dnsPending ∧ SetBy calls .dnsRetries) := by
  refine ⟨?_, parseAll_alike_iff calls⟩
  simp only [tnPrefsLoad_eq]
  constructor
  · intro hall
    -- with a printable header variable the chosen file is read, and what is left is what it leaves
    have hload : ∀ (tmp : Mem) (p : TnPrefs), loadFrom { header1 := 32, tmp := tmp }
        (tnPrefsDefault p) [firstStore stores, tnPrefsOpenRecover StoreFile.openable stores.envarc,
          stores.legacy.filter StoreFile.openable]
        = (chosenFile stores).elim (tnPrefsDefault p) (readAs tmp (tnPrefsDefault p)) :=
      fun tmp p => loadFrom_eq { header1 := 32, tmp := tmp } rfl (Or.inr rfl) (tnPrefsDefault p)
    have heq := fun tmp tmp' p p' => (hload tmp p).symm.trans
      ((hall { header1 := 32, tmp := tmp } { header1 := 32, tmp := tmp' } p p').trans (hload tmp' p'))
    cases hc : chosenFile stores with
    | none =>
      have h := heq (fun _ => 0) (fun _ => 0) {} { dnsPendingMax := 1 }
      rw [hc] at h
      cases congrArg TnPrefs.dnsPendingMax h
    | some content =>
      rw [hc] at heq
      simp only [Option.elim_some, readAs] at heq
      refine ⟨content, rfl, ?_⟩
      unfold Decisive
      cases hb : looksBinary content with
      | true =>
        simp only [hb, if_true] at heq
        exact (blobPrefs_alike_iff content).mp fun tmp tmp' => heq tmp tmp' {} {}
      | false =>
        simp only [hb] at heq
        exact (readText_alike_iff content).mp fun p p' => heq (fun _ => 0) (fun _ => 0) p p'
  · rintro ⟨content, hc, hdec⟩ junk junk' p p'
    have hone : ∀ c ∈ some content, c.length ≠ 1 := fun c hmem => by
      rw [← Option.mem_some_iff.mp hmem]
      exact length_ne_one_of_decisive hdec
    rw [loadFrom_eq junk hc (Or.inl hone), loadFrom_eq junk' hc (Or.inl hone)]
    simp only [Option.elim_some, readAs]
    unfold Decisive at hdec
    cases hb : looksBinary content with
    | true =>
      rw [hb, if_pos rfl] at hdec
      exact (blobPrefs_alike_iff content).mpr hdec _ _
    | false =>
      rw [hb] at hdec
      exact (readText_alike_iff content).mpr hdec _ _

/-- The file `IP=10.0.2.15` after one with `DNS_PENDING=3`: the removed key keeps its value. -/
theorem not_forall_tnPrefsLoad_alike :
    ¬ ∀ (stores : ConfigStores) (junk : Junk) (p p' : TnPrefs),
      (tnPrefsLoad junk stores p).1 = (tnPrefsLoad junk stores p').1 := by
  intro h
  have heq := congrArg TnPrefs.dnsPendingMax
    (h { devs := fun n => if n = .path then some { content := "IP=10.0.2.15\n".toList } else none }
      {} {} { dnsPendingMax := 3 })
  revert heq
  decide +kernel

end Tolunnet
