import Mathlib.Data.List.TakeWhile

/-!
# `Tolunnet.Lib.Uri`: the resolution of references

References and targets of RFC 3986 without fragments, over any schemes and authorities. `resolve` is
the transformation of its section 5.2.2 without the removal of dot segments: what a reference does not
give comes from the base, and a path that does not start at the root replaces what is behind the last
slash of the base path.
-/

set_option autoImplicit false

namespace Tolunnet.Uri

variable {S A : Type}

/-- A target, or a base. -/
structure Target (S A : Type) where
  scheme : S
  authority : A
  path : List UInt8
  query : Option (List UInt8)

/-- A reference. -/
structure Reference (S A : Type) where
  scheme : Option S
  authority : Option A
  path : List UInt8
  query : Option (List UInt8)

/-- A query with its mark. -/
def queryText (query : Option (List UInt8)) : List UInt8 := query.elim [] fun q => 63 :: q

/-- The path up to its last slash. -/
def directory (path : List UInt8) : List UInt8 := (path.reverse.dropWhile (· != 47)).reverse

/-- The target of a reference. -/
def resolve (base : Target S A) (r : Reference S A) : Target S A :=
  match r.scheme, r.authority with
  | some s, a => { scheme := s, authority := a.getD base.authority, path := r.path, query := r.query }
  | none, some a => { scheme := base.scheme, authority := a, path := r.path, query := r.query }
  | none, none =>
    if r.path = [] then { base with query := r.query.or base.query }
    else if r.path.head? = some 47 then { base with path := r.path, query := r.query }
    else { base with path := directory base.path ++ r.path, query := r.query }

variable {path a b : List UInt8}

/-- A path splits behind its last slash. -/
theorem directory_spec (path : List UInt8) : ∃ last, path = directory path ++ last ∧ 47 ∉ last := by
  have split := List.takeWhile_append_dropWhile (p := (· != 47)) (l := path.reverse)
  refine ⟨(path.reverse.takeWhile (· != 47)).reverse, ?_, ?_⟩
  · rw [directory, ← List.reverse_append, split, List.reverse_reverse]
  · rw [List.mem_reverse]
    exact fun mem => absurd (List.mem_takeWhile_imp mem) (by decide)

theorem directory_getLast? (path : List UInt8) : directory path = [] ∨ (directory path).getLast? = some 47 := by
  rw [directory, List.getLast?_reverse]
  cases rest : path.reverse.dropWhile (· != 47) with
  | nil => exact Or.inl rfl
  | cons c l =>
    have slash := List.head_dropWhile_not (· != 47) (l := path.reverse) (by rw [rest]; exact List.cons_ne_nil c l)
    right
    simpa [rest] using slash

/-- What is behind the last slash does not matter. -/
theorem directory_append (plain : 47 ∉ b) : directory (a ++ b) = directory a := by
  have skip : ∀ c ∈ b.reverse, (c != 47) = true := by
    intro c hc
    rw [List.mem_reverse] at hc
    exact bne_iff_ne.mpr fun same => plain (same ▸ hc)
  rw [directory, List.reverse_append, List.dropWhile_append_of_pos skip, directory]

/-- A later slash makes the directory longer. -/
theorem directory_length_lt (slash : 47 ∈ b) : a.length < (directory (a ++ b)).length := by
  obtain ⟨last, split, plain⟩ := directory_spec (a ++ b)
  by_contra short
  have cut := congrArg (List.drop a.length) split
  rw [List.drop_left, List.drop_append, List.drop_eq_nil_of_le (Nat.not_lt.mp short), List.nil_append] at cut
  exact plain (List.mem_of_mem_drop (cut ▸ slash))

theorem directory_start (path : List UInt8) : directory path <+: path := by
  obtain ⟨last, split, -⟩ := directory_spec path
  exact ⟨last, split.symm⟩

end Tolunnet.Uri
