import Tolunnet.Config.Load

/-!
# `Tolunnet.Config.Fallback`: which store a load takes

A load reads one of `ENV:` and `DEVS:`, then the copy in `ENVARC:`, then the file of an old installation,
until one of them parses. A file that does not parse leaves no trace, so the load is the first good file of
these three over the defaults (`tnPrefsLoad_tried`).

`FallsBack` asks for more: all four stores count, and the newer of `ENV:` and `DEVS:` comes first. But
`CompareDates` is positive when its second date is the later one, so of two files the load reads the older,
and never the other one (`fallsBack_iff`).
-/

set_option autoImplicit false

namespace Tolunnet

/-! ## Stores -/

/-- The file that is opened for `DEVS:tolunnet.config`. -/
def ConfigStores.devsFile (stores : ConfigStores) : Option StoreFile :=
  tnPrefsOpenRecover StoreFile.openable stores.devs

def ConfigStores.envFile (stores : ConfigStores) : Option StoreFile := stores.env.filter StoreFile.openable

def ConfigStores.envarcFile (stores : ConfigStores) : Option StoreFile :=
  tnPrefsOpenRecover StoreFile.openable stores.envarc

def ConfigStores.legacyFile (stores : ConfigStores) : Option StoreFile :=
  stores.legacy.filter StoreFile.openable

/-- The files that can be opened, one for each store at most. -/
def ConfigStores.files (stores : ConfigStores) : List StoreFile :=
  stores.devsFile.toList ++ stores.envFile.toList ++ stores.envarcFile.toList ++ stores.legacyFile.toList

/-- The newer of `ENV:` and `DEVS:`, which is `DEVS:` when they are of one date. -/
def ConfigStores.newer (stores : ConfigStores) : Option StoreFile :=
  match stores.devsFile, stores.envFile with
  | some devs, some env => if devs.date < env.date then some env else some devs
  | some devs, none => some devs
  | none, env => env

/-- The files that a load reads until one parses. -/
def ConfigStores.tried (stores : ConfigStores) : List StoreFile :=
  (firstStore stores).toList ++ stores.envarcFile.toList ++ stores.legacyFile.toList

section

variable (junk : Junk) (stores : ConfigStores) (p : TnPrefs)

/-- `tn_prefs_read_file` returns TRUE on the file. -/
def Parses (f : StoreFile) : Bool := (tnPrefsReadFile junk (tnPrefsDefault p) f.content).2

/-- The file over the defaults. -/
def contentOf (f : StoreFile) : TnPrefs := (tnPrefsReadFile junk (tnPrefsDefault p) f.content).1

/-- A load falls back completely. -/
structure FallsBack : Prop where
  loaded : (tnPrefsLoad junk stores p).2 = true ↔ ∃ f ∈ stores.files, Parses junk p f = true
  content : (tnPrefsLoad junk stores p).2 = true →
    ∃ f ∈ stores.files, Parses junk p f = true ∧ (tnPrefsLoad junk stores p).1 = contentOf junk p f
  newer : ∀ f ∈ stores.newer, Parses junk p f = true → (tnPrefsLoad junk stores p).1 = contentOf junk p f

/-- No good store is passed over: a store that parses is not the one of `ENV:` and `DEVS:` that is not
read, unless another one parses; and the newer of the two is read if it parses, or what is read has the
same preferences. -/
structure Reached : Prop where
  some_ : (∃ f ∈ stores.files, Parses junk p f = true) → ∃ f ∈ stores.tried, Parses junk p f = true
  newer : ∀ f ∈ stores.newer, Parses junk p f = true →
    ∀ g ∈ stores.tried.find? (Parses junk p), contentOf junk p g = contentOf junk p f

end

variable {junk : Junk} {stores : ConfigStores} {p q : TnPrefs} {content : List Char} {f : StoreFile}

/-! ## The load -/

/-- A file that does not parse leaves no trace. -/
theorem readFile_of_false (h : (tnPrefsReadFile junk q content).2 = false) :
    (tnPrefsReadFile junk q content).1 = q := by
  rw [tnPrefsReadFile] at h ⊢
  by_cases empty : content = []
  · rw [if_pos empty]
  rw [if_neg empty] at h ⊢
  by_cases blob : isBlob junk content = true
  · rw [if_pos blob] at h ⊢
    cases read : tnPrefsReadBlob junk content with
    | none => rfl
    | some prefs =>
      rw [read] at h
      cases h
  · rw [if_neg blob] at h ⊢
    exact readText_of_not_parsedAny h q

/-- What a load has after the files that it has tried. -/
def loadedFrom (junk : Junk) (p : TnPrefs) (found : Option StoreFile) : TnPrefs × Bool :=
  found.elim (tnPrefsDefault p, false) fun f => (contentOf junk p f, true)

theorem readStore_eq (junk : Junk) (p : TnPrefs) (o : Option StoreFile) :
    readStore junk (tnPrefsDefault p) o = loadedFrom junk p (o.toList.find? (Parses junk p)) := by
  cases o with
  | none => rfl
  | some f =>
    rw [Option.toList_some, List.find?_singleton]
    cases parses : Parses junk p f with
    | true => exact Prod.ext rfl parses
    | false => exact Prod.ext (readFile_of_false parses) parses

/-- A load is the first good file of those it tries. -/
theorem tnPrefsLoad_tried (junk : Junk) (stores : ConfigStores) (p : TnPrefs) :
    tnPrefsLoad junk stores p = loadedFrom junk p (stores.tried.find? (Parses junk p)) := by
  have first := readStore_eq junk p (firstStore stores)
  have envarc := readStore_eq junk p stores.envarcFile
  have legacy := readStore_eq junk p stores.legacyFile
  rw [ConfigStores.tried, List.find?_append, List.find?_append, tnPrefsLoad]
  dsimp only
  rw [first]
  cases (firstStore stores).toList.find? (Parses junk p) with
  | some f => rfl
  | none =>
    show (if (readStore junk (tnPrefsDefault p) stores.envarcFile).2 = true then
        readStore junk (tnPrefsDefault p) stores.envarcFile
      else readStore junk (readStore junk (tnPrefsDefault p) stores.envarcFile).1 stores.legacyFile) = _
    rw [envarc]
    cases stores.envarcFile.toList.find? (Parses junk p) with
    | some f => rfl
    | none => exact legacy

theorem mem_files (h : f ∈ stores.devsFile ∨ f ∈ stores.envFile) : f ∈ stores.files := by
  rw [ConfigStores.files, List.mem_append, List.mem_append, List.mem_append]
  rcases h with devs | env
  · exact .inl (.inl (.inl (Option.mem_toList.mpr devs)))
  · exact .inl (.inl (.inr (Option.mem_toList.mpr env)))

theorem newer_mem (h : f ∈ stores.newer) : f ∈ stores.files := by
  refine mem_files ?_
  rw [ConfigStores.newer] at h
  split at h
  · rename_i devs env hd he
    split_ifs at h with newer
    · exact .inr (he.trans h)
    · exact .inl (hd.trans h)
  · rename_i devs hd he
    exact .inl (hd.trans h)
  · exact .inr h

/-- What is examined first was opened. -/
theorem firstStore_mem (h : f ∈ firstStore stores) : f ∈ stores.files := by
  refine mem_files ?_
  rw [firstStore] at h
  split at h
  · rename_i devs env hd he
    split_ifs at h with newer
    · cases h
      exact .inr (Option.filter_eq_some_iff.mp he).1
    · cases h
      exact .inl (Option.filter_eq_some_iff.mp hd).1
  · rename_i devs hd he
    cases h
    exact .inl (Option.filter_eq_some_iff.mp hd).1
  · exact .inr (Option.filter_eq_some_iff.mp h).1

theorem tried_subset (mem : f ∈ stores.tried) : f ∈ stores.files := by
  rw [ConfigStores.tried, List.mem_append, List.mem_append] at mem
  rcases mem with (first | envarc) | legacy
  · exact firstStore_mem (Option.mem_toList.mp first)
  · rw [ConfigStores.files]
    exact List.mem_append_left _ (List.mem_append_right _ envarc)
  · exact List.mem_append_right _ legacy

/-! ## When it falls back -/

/-- A load falls back completely just when no good store is passed over. -/
theorem fallsBack_iff (junk : Junk) (stores : ConfigStores) (p : TnPrefs) :
    FallsBack junk stores p ↔ Reached junk stores p := by
  have load := tnPrefsLoad_tried junk stores p
  -- by the first file that parses, if there is one
  cases found : stores.tried.find? (Parses junk p) with
  | none =>
    rw [found] at load
    have none := List.find?_eq_none.mp found
    have failed : (tnPrefsLoad junk stores p).2 = false := by
      rw [load]
      rfl
    constructor
    · intro falls
      have bad : ¬ ∃ f ∈ stores.files, Parses junk p f = true := fun good => by
        rw [falls.loaded.mpr good] at failed
        cases failed
      exact
        { some_ := fun good => absurd good bad
          newer := fun _ _ _ g mem => by
            rw [found] at mem
            cases mem }
    · intro reached
      have bad : ¬ ∃ f ∈ stores.files, Parses junk p f = true := fun good => by
        obtain ⟨f, mem, good⟩ := reached.some_ good
        exact none f mem good
      constructor
      case loaded => rw [failed]; exact ⟨nofun, fun good => absurd good bad⟩
      case content => rw [failed]; exact nofun
      case newer => exact fun f newer parses => absurd ⟨f, newer_mem newer, parses⟩ bad
  | some g =>
    rw [found] at load
    have here : g ∈ stores.tried := List.mem_of_find?_eq_some found
    have good : Parses junk p g = true := List.find?_some found
    have loaded : (tnPrefsLoad junk stores p).2 = true := by
      rw [load]
      rfl
    have content : (tnPrefsLoad junk stores p).1 = contentOf junk p g := by
      rw [load]
      rfl
    constructor
    · intro falls
      constructor
      case some_ => exact fun _ => ⟨g, here, good⟩
      case newer =>
        intro f newer parses g' mem
        rw [found] at mem
        cases mem
        exact content.symm.trans (falls.newer f newer parses)
    · intro reached
      constructor
      case loaded => exact ⟨fun _ => ⟨g, tried_subset here, good⟩, fun _ => loaded⟩
      case content => exact fun _ => ⟨g, tried_subset here, good, content⟩
      case newer =>
        intro f newer parses
        exact content.trans (reached.newer f newer parses g found)

/-- Of two files of one date, the good one in `ENV:` is not looked at. -/
theorem not_forall_fallsBack : ¬ ∀ junk stores p, FallsBack junk stores p := by
  intro h
  let env : StoreFile := { content := "IP=10.0.2.15\n".toList }
  have falls := h {} { devs := fun n => if n = .path then some { content := "x".toList } else none,
                       env := some env } {}
  have good := falls.loaded.mpr ⟨env, .tail _ (.head _), by decide +kernel⟩
  revert good
  decide +kernel

end Tolunnet
