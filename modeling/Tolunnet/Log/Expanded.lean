import Mathlib.Data.List.TakeWhile
import Tolunnet.Client.SyslogExpand

/-!
# `Tolunnet.Log.Expanded`: the argument stream of `vsyslog`

`tokens` takes a format apart into characters and whole specifications. `RawDoFmt` takes its arguments for
the specifications one after the other, and each specification says by itself what it takes
(`argTypes`).

`tn_syslog_expand_m` writes the expansion of the first tokens of the format, as many as fit. The error text
has each `%` twice, so no specification begins in it, and what comes behind it is read as before
(`tnSyslogExpandM_tokens`).
-/

set_option autoImplicit false

namespace Tolunnet

namespace Syslog

open Http (isDigit)

/-! ## Tokens -/

/-- A part of a format: a character, `%m`, `%%`, another specification, or one that the end of the format
cuts. -/
inductive Token where
  | char (c : UInt8)
  | errno
  | percent
  | spec (body : List UInt8) (letter : UInt8)
  | cut (body : List UInt8)

namespace Token

/-- The token in the format. -/
def text : Token → List UInt8
  | char c => [c]
  | errno => [37, 109]
  | percent => [37, 37]
  | spec body letter => 37 :: (body ++ [letter])
  | cut body => 37 :: body

/-- The token in the result: `%m` is the error text, with `%` doubled. -/
def expand (e : List UInt8) : Token → List UInt8
  | errno => doubled e
  | t => t.text

/-- The types of the arguments that `RawDoFmt` takes for a token, when `takes` says what it takes for a
specification. Neither `%%` nor `%m` is one of its conversions. -/
def types {α : Type} (takes : List UInt8 → Option UInt8 → List α) : Token → List α
  | spec body letter => takes body (some letter)
  | cut body => takes body none
  | _ => []

/-- A token that is read for what it is, whatever stands behind it. -/
def Ends : Token → Prop
  | char c => c ≠ 37
  | errno => True
  | percent => True
  | spec body letter => (∀ c ∈ body, inSpec c) ∧ inSpec letter = false ∧ (body = [] → letter ≠ 37 ∧ letter ≠ 109)
  | cut _ => False

end Token

/-- The specification with the given letter. -/
def token (body : List UInt8) (letter : UInt8) : Token :=
  if body = [] ∧ letter = 37 then .percent
  else if body = [] ∧ letter = 109 then .errno
  else .spec body letter

/-- The tokens of a format. -/
def tokens (fmt : List UInt8) : List Token :=
  match fmt with
  | [] => []
  | c :: p =>
    if c ≠ 37 then .char c :: tokens p
    else
      match _rest : p.dropWhile inSpec with
      | [] => [.cut (p.takeWhile inSpec)]
      | letter :: q => token (p.takeWhile inSpec) letter :: tokens q
termination_by fmt.length
decreasing_by
  · exact Nat.lt_succ_self _
  · have shorter := (List.dropWhile_sublist (l := p) inSpec).length_le
    rw [_rest, List.length_cons] at shorter
    exact Nat.lt_succ_of_lt shorter

/-- The types of the arguments that `RawDoFmt` takes for a format. -/
def argTypes {α : Type} (takes : List UInt8 → Option UInt8 → List α) (fmt : List UInt8) : List α :=
  (tokens fmt).flatMap (Token.types takes)

variable {cap : Int} {e out fmt p q body : List UInt8} {c letter : UInt8} {t : Token} {ts : List Token}

/-- Tokens that are read one by one: only the last one may be cut. -/
inductive Formed : List Token → Prop
  | nil : Formed []
  | cut {body : List UInt8} (plain : ∀ c ∈ body, inSpec c) : Formed [.cut body]
  | cons {t : Token} {ts : List Token} (ends : t.Ends) (rest : Formed ts) : Formed (t :: ts)

/-- A character that is no `%` stands for itself. -/
theorem tokens_char (h : c ≠ 37) (p : List UInt8) : tokens (c :: p) = .char c :: tokens p := by
  rw [tokens, if_pos h]

/-- A conversion ends with its letter. -/
theorem tokens_spec (body p : List UInt8) (plain : ∀ c ∈ body, inSpec c) (letter : UInt8)
    (last : inSpec letter = false) : tokens (37 :: (body ++ letter :: p)) = token body letter :: tokens p := by
  have stop : ¬inSpec letter = true := Bool.eq_false_iff.mp last
  have taken : (body ++ letter :: p).takeWhile inSpec = body := by
    rw [List.takeWhile_append_of_pos plain, List.takeWhile_cons_of_neg stop, List.append_nil]
  have dropped : (body ++ letter :: p).dropWhile inSpec = letter :: p := by
    rw [List.dropWhile_append_of_pos plain, List.dropWhile_cons_of_neg stop]
  rw [tokens, if_neg (by decide)]
  split
  · next none =>
    rw [dropped] at none
    cases none
  · next letter' q rest =>
    rw [dropped] at rest
    obtain ⟨rfl, rfl⟩ := List.cons.inj rest
    rw [taken]

/-- A conversion that the end cuts off. -/
theorem tokens_cut (plain : ∀ c ∈ body, inSpec c) : tokens (37 :: body) = [.cut body] := by
  have taken : body.takeWhile inSpec = body := List.takeWhile_eq_self_iff.mpr plain
  have dropped : body.dropWhile inSpec = [] := List.dropWhile_eq_nil_iff.mpr plain
  rw [tokens, if_neg (by decide)]
  split
  · rw [taken]
  · next rest =>
    rw [dropped] at rest
    cases rest

/-- A token is read back. -/
theorem tokens_text (ends : t.Ends) (p : List UInt8) : tokens (t.text ++ p) = t :: tokens p := by
  have empty : ∀ c ∈ ([] : List UInt8), inSpec c := nofun
  cases t with
  | char c => exact tokens_char ends p
  | errno => exact tokens_spec [] p empty 109 rfl
  | percent => exact tokens_spec [] p empty 37 rfl
  | spec body letter =>
    obtain ⟨plain, last, other⟩ := ends
    have read := tokens_spec body p plain letter last
    have spec : token body letter = .spec body letter := by
      rw [token, if_neg fun h => (other h.1).1 h.2, if_neg fun h => (other h.1).2 h.2]
    rw [spec] at read
    show tokens (37 :: ((body ++ [letter]) ++ p)) = _
    rw [List.append_assoc]
    exact read
  | cut body => exact ends.elim

/-- Tokens are read back from their text. -/
theorem tokens_flatMap (formed : Formed ts) : tokens (ts.flatMap Token.text) = ts := by
  induction formed with
  | nil => rw [List.flatMap_nil, tokens]
  | cut plain =>
    rw [List.flatMap_singleton]
    exact tokens_cut plain
  | cons ends rest ih => rw [List.flatMap_cons, tokens_text ends, ih]

/-- What stands behind a `%`: characters of a specification, and its letter if there is one. -/
theorem split_spec {rest : List UInt8} (read : p.dropWhile inSpec = rest) :
    p = p.takeWhile inSpec ++ rest ∧ (∀ c ∈ p.takeWhile inSpec, inSpec c) ∧ rest.head?.any inSpec = false := by
  subst read
  refine ⟨List.takeWhile_append_dropWhile.symm, fun c mem => List.mem_takeWhile_imp mem, ?_⟩
  cases stop : p.dropWhile inSpec with
  | nil => rfl
  | cons c rest =>
    have none := List.head_dropWhile_not inSpec (by rw [stop]; exact List.cons_ne_nil c rest)
    simpa [stop] using none

/-- A conversion's token ends there, and its text is its own. -/
theorem token_ends (plain : ∀ c ∈ body, inSpec c) (last : inSpec letter = false) :
    (token body letter).Ends ∧ (token body letter).text = 37 :: (body ++ [letter]) := by
  rw [token]
  split
  · next percent =>
    rw [percent.1, percent.2]
    exact ⟨trivial, rfl⟩
  · next noPercent =>
    split
    · next errno =>
      rw [errno.1, errno.2]
      exact ⟨trivial, rfl⟩
    · next noErrno =>
      exact ⟨⟨plain, last, fun none => ⟨fun h => noPercent ⟨none, h⟩, fun h => noErrno ⟨none, h⟩⟩⟩, rfl⟩

/-- Tokens of a format are formed. -/
theorem formed_tokens (fmt : List UInt8) : Formed (tokens fmt) := by
  induction fmt using tokens.induct with
  | case1 =>
    rw [tokens]
    exact .nil
  | case2 c p plain ih =>
    rw [tokens_char plain]
    exact .cons plain ih
  | case3 c p percent read =>
    obtain ⟨whole, plain, -⟩ := split_spec read
    rw [List.append_nil] at whole
    rw [not_not.mp percent, whole, tokens_cut plain]
    exact .cut plain
  | case4 c p percent letter q read ih =>
    obtain ⟨whole, plain, last⟩ := split_spec read
    rw [not_not.mp percent, whole, tokens_spec _ q plain letter last]
    exact .cons (token_ends plain last).1 ih

/-- The front of formed tokens is formed. -/
theorem Formed.front {rest : List Token} (formed : Formed (ts ++ rest)) : Formed ts := by
  induction ts with
  | nil => exact .nil
  | cons t ts ih =>
    rw [List.cons_append] at formed
    generalize same : ts ++ rest = all at formed
    cases formed with
    | cut plain =>
      obtain ⟨rfl, -⟩ := List.append_eq_nil_iff.mp same
      exact .cut plain
    | cons ends behind => exact .cons ends (ih (same ▸ behind))

/-- What the code copies is one token. -/
theorem chunk_token (c : UInt8) (p : List UInt8) (noErrno : ¬(c = 37 ∧ p.head? = some 109)) :
    ∃ t, tokens (c :: p) = t :: tokens ((c :: p).drop (chunkLength (c :: p))) ∧
      (c :: p).take (chunkLength (c :: p)) = t.text ∧ chunkLength (c :: p) = t.text.length ∧
      ∀ e, t.expand e = t.text := by
  rw [chunkLength]
  by_cases percent : c = 37
  · subst percent
    rw [if_pos rfl]
    by_cases double : p.head? = some 37
    · obtain ⟨p, rfl⟩ := List.head?_eq_some_iff.mp double
      exact ⟨.percent, tokens_spec [] p (fun _ mem => absurd mem List.not_mem_nil) 37 rfl, rfl, rfl, fun _ => rfl⟩
    · rw [if_neg double]
      dsimp only
      cases read : p.dropWhile inSpec with
      | nil =>
        obtain ⟨whole, plain, -⟩ := split_spec read
        rw [List.append_nil] at whole
        generalize p.takeWhile inSpec = body at whole plain
        subst whole
        have length : 1 + p.length = (37 :: p).length := Nat.add_comm 1 p.length
        refine ⟨.cut p, ?_, ?_, length, fun _ => rfl⟩
        · rw [tokens_cut plain]
          show _ = _ :: tokens ((37 :: p).drop (1 + p.length))
          rw [length, List.drop_length, tokens]
        · show (37 :: p).take (1 + p.length) = _
          rw [length, List.take_length]
          rfl
      | cons letter q =>
        obtain ⟨whole, plain, last⟩ := split_spec read
        generalize p.takeWhile inSpec = body at whole plain
        subst whole
        have spec : token body letter = .spec body letter := by
          rw [token, if_neg, if_neg]
          · rintro ⟨rfl, rfl⟩
            exact noErrno ⟨rfl, rfl⟩
          · rintro ⟨rfl, rfl⟩
            exact double rfl
        have read := tokens_spec body q plain letter last
        rw [spec] at read
        have whole : 37 :: (body ++ letter :: q) = (37 :: (body ++ [letter])) ++ q := by
          rw [List.cons_append, List.append_assoc]
          rfl
        have length : 1 + body.length + 1 = (37 :: (body ++ [letter])).length := by
          rw [List.length_cons, List.length_append, List.length_singleton, Nat.add_comm 1]
        refine ⟨.spec body letter, ?_, ?_, length, fun _ => rfl⟩
        · show _ = _ :: tokens ((37 :: (body ++ letter :: q)).drop (1 + body.length + 1))
          rw [read, whole, length, List.drop_left]
        · show (37 :: (body ++ letter :: q)).take (1 + body.length + 1) = _
          rw [whole, length, List.take_left]
          rfl
  · rw [if_neg percent]
    exact ⟨.char c, tokens_char percent p, rfl, rfl, fun _ => rfl⟩

/-! ## The loop -/

/-- Characters that fit are appended. -/
theorem foldlM_put (fits : (out.length : Int) + p.length ≤ cap) : p.foldlM (put cap) out = some (out ++ p) := by
  induction p generalizing out with
  | nil =>
    rw [List.append_nil]
    rfl
  | cons c p ih =>
    rw [List.length_cons] at fits
    have first : put cap out c = some (out ++ [c]) := if_pos (by omega)
    have length : (out ++ [c]).length = out.length + 1 := by rw [List.length_append, List.length_singleton]
    rw [List.foldlM_cons, first]
    show p.foldlM (put cap) (out ++ [c]) = _
    rw [ih (by omega), List.append_assoc]
    rfl

/-- The bytes needed are those of the doubled text. -/
theorem foldl_need (n : Nat) (e : List UInt8) :
    e.foldl (fun n c => n + if c = 37 then 2 else 1) n = n + (doubled e).length := by
  induction e generalizing n with
  | nil => rfl
  | cons c e ih =>
    have first : (doubled (c :: e)).length = (if c = 37 then 2 else 1) + (doubled e).length := by
      rw [doubled, List.flatMap_cons, List.length_append]
      split <;> rfl
    rw [List.foldl_cons, ih, first, Nat.add_assoc]

/-- So is the room that is asked for. -/
theorem need_eq (e : List UInt8) : need e = (doubled e).length := by
  rw [need, foldl_need, Nat.zero_add]

/-- What the loop has written, and what is left of the format. -/
structure Expanded (cap : Int) (e out fmt : List UInt8) (ts rest : List Token) : Prop where
  front : tokens fmt = ts ++ rest
  run : expandLoop cap e out fmt = some (out ++ ts.flatMap (Token.expand e) ++ [0])
  fits : ((out ++ ts.flatMap (Token.expand e)).length : Int) + 1 ≤ cap
  full : ∀ t ∈ rest.head?, cap ≤ (out ++ ts.flatMap (Token.expand e)).length + (t.expand e).length

/-- The loop stops in front of a token that does not fit. -/
theorem Expanded.stop (room : (out.length : Int) + 1 ≤ cap) (turn : expandLoop cap e out fmt = put cap out 0)
    (full : ∀ t ∈ (tokens fmt).head?, cap ≤ out.length + (t.expand e).length) :
    Expanded cap e out fmt [] (tokens fmt) := by
  have last : put cap out 0 = some (out ++ [0]) := if_pos (by omega)
  refine ⟨rfl, ?_, ?_, ?_⟩
  · rw [turn, last, List.flatMap_nil, List.append_nil]
  · rw [List.flatMap_nil, List.append_nil]
    exact room
  · rw [List.flatMap_nil, List.append_nil]
    exact full

/-- One token is written, and the loop goes on behind it. -/
theorem Expanded.step {rest : List Token} (first : tokens fmt = t :: tokens q)
    (turn : expandLoop cap e out fmt = expandLoop cap e (out ++ t.expand e) q)
    (behind : Expanded cap e (out ++ t.expand e) q ts rest) : Expanded cap e out fmt (t :: ts) rest := by
  have whole : out ++ (t :: ts).flatMap (Token.expand e) =
      out ++ t.expand e ++ ts.flatMap (Token.expand e) := by rw [List.flatMap_cons, List.append_assoc]
  refine ⟨by rw [first, behind.front]; rfl, ?_, ?_, ?_⟩
  · rw [turn, whole, behind.run]
  · rw [whole]
    exact behind.fits
  · rw [whole]
    exact behind.full

/-- The expansion goes token by token. -/
theorem expandLoop_expanded (fmt : List UInt8) (room : (out.length : Int) + 1 ≤ cap) :
    ∃ ts rest, Expanded cap e out fmt ts rest := by
  induction h : fmt.length using Nat.strong_induction_on generalizing out fmt with
  | _ n ih =>
    cases fmt with
    | nil =>
      have none : tokens [] = [] := by rw [tokens]
      exact ⟨[], _, Expanded.stop room (by rw [expandLoop]) fun t mem => by rw [none] at mem; cases mem⟩
    | cons c p =>
      by_cases errno : c = 37 ∧ p.head? = some 109
      · obtain ⟨rfl, first⟩ := errno
        obtain ⟨p, rfl⟩ := List.head?_eq_some_iff.mp first
        have first : tokens (37 :: 109 :: p) = .errno :: tokens p :=
          tokens_spec [] p (fun _ mem => absurd mem List.not_mem_nil) 109 rfl
        have both : (37 : UInt8) = 37 ∧ (109 :: p).head? = some 109 := ⟨rfl, rfl⟩
        have size := need_eq e
        by_cases full : (out.length : Int) + need e ≥ cap
        · refine ⟨[], _, Expanded.stop room ?_ fun t mem => ?_⟩
          · rw [expandLoop, if_pos both, if_pos full]
          · rw [first] at mem
            obtain rfl := Option.some.inj mem
            show cap ≤ out.length + (doubled e).length
            omega
        · have put : (doubled e).foldlM (put cap) out = some (out ++ doubled e) := foldlM_put (by omega)
          have turn : expandLoop cap e out (37 :: 109 :: p) = expandLoop cap e (out ++ doubled e) p := by
            rw [expandLoop, if_pos both, if_neg full, put]
            rfl
          have room : ((out ++ doubled e).length : Int) + 1 ≤ cap := by
            rw [List.length_append]
            omega
          have shorter : p.length < n := by
            rw [← h]
            exact Nat.lt_succ_of_lt (Nat.lt_succ_self _)
          obtain ⟨ts, rest, behind⟩ := ih p.length shorter p room rfl
          exact ⟨.errno :: ts, rest, Expanded.step first turn behind⟩
      · obtain ⟨t, first, text, size, plain⟩ := chunk_token c p errno
        by_cases full : (out.length : Int) + chunkLength (c :: p) ≥ cap
        · refine ⟨[], _, Expanded.stop room ?_ fun t mem => ?_⟩
          · rw [expandLoop, if_neg errno, if_pos full]
          · rw [first] at mem
            obtain rfl := Option.some.inj mem
            rw [plain e]
            omega
        · have put : t.text.foldlM (put cap) out = some (out ++ t.text) := foldlM_put (by omega)
          have turn : expandLoop cap e out (c :: p) =
              expandLoop cap e (out ++ t.expand e) ((c :: p).drop (chunkLength (c :: p))) := by
            rw [expandLoop, if_neg errno, if_neg full, text, put, plain e]
            rfl
          have room : ((out ++ t.expand e).length : Int) + 1 ≤ cap := by
            rw [List.length_append, plain e]
            omega
          have shorter : ((c :: p).drop (chunkLength (c :: p))).length < n := by
            have some := chunkLength_pos c p
            rw [← h, List.length_drop, List.length_cons]
            omega
          obtain ⟨ts, rest, behind⟩ := ih _ shorter _ room rfl
          exact ⟨t :: ts, rest, Expanded.step first turn behind⟩

/-! ## The result -/

/-- What is read in the doubled error text. -/
def plainTokens (e : List UInt8) : List Token := e.map fun c => if c = 37 then .percent else .char c

/-- A doubled text reads as itself. -/
theorem tokens_doubled (e p : List UInt8) : tokens (doubled e ++ p) = plainTokens e ++ tokens p := by
  induction e with
  | nil => rfl
  | cons c e ih =>
    rw [doubled, List.flatMap_cons, List.append_assoc, plainTokens, List.map_cons, List.cons_append]
    by_cases percent : c = 37
    · rw [if_pos percent, if_pos percent, percent]
      have read := tokens_text (t := .percent) trivial (doubled e ++ p)
      rw [ih] at read
      exact read
    · rw [if_neg percent, if_neg percent]
      have read := tokens_text (t := .char c) percent (doubled e ++ p)
      rw [ih] at read
      exact read

/-- The tokens of the result: those of the format, with characters for `%m`. -/
def resultTokens (e : List UInt8) : Token → List Token
  | .errno => plainTokens e
  | t => [t]

/-- The tokens of an expansion. -/
theorem tokens_expand (formed : Formed ts) :
    tokens (ts.flatMap (Token.expand e)) = ts.flatMap (resultTokens e) := by
  induction formed with
  | nil => rw [List.flatMap_nil, List.flatMap_nil, tokens]
  | cut plain =>
    rw [List.flatMap_singleton, List.flatMap_singleton]
    exact tokens_cut plain
  | @cons t ts ends rest ih =>
    rw [List.flatMap_cons, List.flatMap_cons, ← ih]
    cases t with
    | errno => exact tokens_doubled e _
    | char c => exact tokens_text ends _
    | percent => exact tokens_text ends _
    | spec body letter => exact tokens_text ends _
    | cut body => exact ends.elim

/-- A format is the text of its tokens. -/
theorem text_tokens (fmt : List UInt8) : (tokens fmt).flatMap Token.text = fmt := by
  induction fmt using tokens.induct with
  | case1 =>
    rw [tokens]
    rfl
  | case2 c p plain ih =>
    rw [tokens_char plain, List.flatMap_cons, ih]
    rfl
  | case3 c p percent read =>
    obtain ⟨whole, plain, -⟩ := split_spec read
    rw [List.append_nil] at whole
    rw [not_not.mp percent, whole, tokens_cut plain, List.flatMap_singleton]
    rfl
  | case4 c p percent letter q read ih =>
    obtain ⟨whole, plain, last⟩ := split_spec read
    rw [not_not.mp percent, whole, tokens_spec _ q plain letter last, List.flatMap_cons, ih,
      (token_ends plain last).2, List.cons_append, List.append_assoc]
    rfl

section

variable {α : Type} (takes : List UInt8 → Option UInt8 → List α)

/-- The error text takes no arguments. -/
theorem types_plainTokens (e : List UInt8) : (plainTokens e).flatMap (Token.types takes) = [] := by
  rw [List.flatMap_eq_nil_iff]
  intro t mem
  obtain ⟨c, -, rfl⟩ := List.mem_map.mp mem
  split <;> rfl

/-- An expansion takes the arguments of the format. -/
theorem argTypes_expand (e : List UInt8) (formed : Formed ts) :
    argTypes takes (ts.flatMap (Token.expand e)) = argTypes takes (ts.flatMap Token.text) := by
  rw [argTypes, argTypes, tokens_expand formed, tokens_flatMap formed, List.flatMap_assoc]
  refine congrArg (ts.flatMap ·) (funext fun t => ?_)
  cases t with
  | errno => exact types_plainTokens takes e
  | char c => exact List.flatMap_singleton _ _
  | percent => exact List.flatMap_singleton _ _
  | spec body letter => exact List.flatMap_singleton _ _
  | cut body => exact List.flatMap_singleton _ _

/-- `tn_syslog_expand_m` writes `cap` bytes at most, the NUL included: the expansion of the first tokens of the
format, up to one that does not fit. `RawDoFmt` takes the same arguments for it as for that part of the
format. -/
theorem tnSyslogExpandM_tokens (room : 1 ≤ cap) (fmt e : List UInt8) :
    ∃ ts rest, tokens fmt = ts ++ rest ∧ fmt = ts.flatMap Token.text ++ rest.flatMap Token.text ∧
      tnSyslogExpandM cap fmt e = some (ts.flatMap (Token.expand e) ++ [0]) ∧
      ((ts.flatMap (Token.expand e)).length : Int) + 1 ≤ cap ∧
      (∀ t ∈ rest.head?, cap ≤ (ts.flatMap (Token.expand e)).length + (t.expand e).length) ∧
      argTypes takes (ts.flatMap (Token.expand e)) = argTypes takes (ts.flatMap Token.text) := by
  have empty : (([] : List UInt8).length : Int) + 1 ≤ cap := room
  obtain ⟨ts, rest, front, run, fits, full⟩ := expandLoop_expanded (e := e) fmt empty
  -- the tokens that were reached are formed as all of them are
  have formed : Formed ts := by
    have all := formed_tokens fmt
    rw [front] at all
    exact all.front
  have whole : fmt = ts.flatMap Token.text ++ rest.flatMap Token.text := by
    rw [← List.flatMap_append, ← front, text_tokens]
  exact ⟨ts, rest, front, whole, run, fits, full, argTypes_expand takes e formed⟩

end

/-- `%s: %m` for an error text with a `%`. -/
theorem tnSyslogExpandM_tokens_percent :
    ∃ ts rest, tokens [37, 115, 58, 37, 109] = ts ++ rest ∧
      tnSyslogExpandM 128 [37, 115, 58, 37, 109] [53, 37] = some (ts.flatMap (Token.expand [53, 37]) ++ [0]) ∧
      ((ts.flatMap (Token.expand [53, 37])).length : Int) + 1 ≤ 128 := by
  have all := tnSyslogExpandM_tokens (fun body letter => [(body, letter)]) (by decide : (1 : Int) ≤ 128)
    [37, 115, 58, 37, 109] [53, 37]
  obtain ⟨ts, rest, front, -, run, fits, -⟩ := all
  exact ⟨ts, rest, front, run, fits⟩

end Syslog

end Tolunnet
