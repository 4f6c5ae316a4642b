import Mathlib.Data.List.Chain
import Tolunnet.Lib.Feed

/-!
# `Tolunnet.Cmds.Telnet`: what `telnet` sends and what it would receive

`tnToNvt` turns the bytes of the console, or of a file, into those of the network virtual terminal:
an end of line is CR LF and a byte 255 is doubled. `rxStep` is the receive filter of `main` on one
byte. It writes bytes to the console and hands option commands to `tnHandleOpt`.

A file is read in chunks, and `tnToNvt` starts anew with each of them. So a line end that is already
CR LF gets a second CR when the chunk ends in between. `survives_iff` says that this is all that can
go wrong.
-/

set_option autoImplicit false

namespace Tolunnet

namespace Telnet

open Feed

/-! ## The terminal -/

def IAC : UInt8 := 255
def DONT : UInt8 := 254
def DO : UInt8 := 253
def WONT : UInt8 := 252
def WILL : UInt8 := 251
def SB : UInt8 := 250
def SE : UInt8 := 240
def OPT_ECHO : UInt8 := 1
def OPT_SGA : UInt8 := 3
def CR : UInt8 := 13
def LF : UInt8 := 10

/-- An option of the server side. -/
inductive Him where
  | no
  | yes
  | wantyes
  deriving Repr, DecidableEq

def tnWantHim (opt : UInt8) : Bool := opt = OPT_ECHO ∨ opt = OPT_SGA

/-- `tn_him` after an option command, and the answer. -/
def tnHandleOpt (him : UInt8 → Him) (cmd opt : UInt8) : (UInt8 → Him) × List UInt8 :=
  let set h := fun o => if o = opt then h else him o
  if cmd = WILL then
    match him opt with
    | .wantyes => (set .yes, [])
    | .no => if tnWantHim opt then (set .yes, [IAC, DO, opt]) else (him, [IAC, DONT, opt])
    | .yes => (him, [])
  else if cmd = WONT then
    match him opt with
    | .yes => (set .no, [IAC, DONT, opt])
    | .wantyes => (set .no, [])
    | .no => (him, [])
  else if cmd = DO then (him, [IAC, WONT, opt])
  else (him, [])

/-! ## Sending -/

/-- The loop of `tn_to_nvt`, with the byte of this chunk before the next one. -/
def nvtLoop (prev : Option UInt8) : List UInt8 → List UInt8
  | [] => []
  | c :: l =>
    (if c = LF ∧ prev ≠ some CR then [CR, c] else if c = IAC then [IAC, c] else [c])
      ++ nvtLoop (some c) l

/-- The bytes that are sent for a chunk. -/
def tnToNvt (chunk : List UInt8) : List UInt8 := nvtLoop none chunk

/-- The bytes that are sent for a file that is read in these chunks. -/
def sentFor (chunks : List (List UInt8)) : List UInt8 := chunks.flatMap tnToNvt

/-! ## Receiving -/

/-- The states of the protocol parser. -/
inductive TnState where
  | data
  | iac
  | opt
  | sb
  | sbIac
  deriving Repr, DecidableEq

/-- The state of the receive filter. -/
structure Rx where
  tnState : TnState
  pendingCmd : UInt8
  him : UInt8 → Him

/-- What a received byte leads to. -/
inductive Effect where
  | write (c : UInt8)
  | option (cmd opt : UInt8) (answer : List UInt8)
  deriving Repr, DecidableEq

/-- The receive filter on one byte. -/
def rxStep (rx : Rx) (c : UInt8) : Rx × List Effect :=
  match rx.tnState with
  | .data => if c = IAC then ({ rx with tnState := .iac }, []) else (rx, [.write c])
  | .iac =>
    if c = IAC then ({ rx with tnState := .data }, [.write IAC])
    else if c = SB then ({ rx with tnState := .sb }, [])
    else if c = DO ∨ c = DONT ∨ c = WILL ∨ c = WONT then
      ({ rx with tnState := .opt, pendingCmd := c }, [])
    else ({ rx with tnState := .data }, [])
  | .opt =>
    let (him, answer) := tnHandleOpt rx.him rx.pendingCmd c
    ({ rx with tnState := .data, him := him }, [.option rx.pendingCmd c answer])
  | .sb => if c = IAC then ({ rx with tnState := .sbIac }, []) else (rx, [])
  | .sbIac => if c = SE then ({ rx with tnState := .data }, []) else ({ rx with tnState := .sb }, [])

/-! ## What survives -/

/-- A stream in which every LF that does not follow a CR is replaced by CR LF. -/
def withCrlf (prev : Option UInt8) : List UInt8 → List UInt8
  | [] => []
  | c :: l => (if c = LF ∧ prev ≠ some CR then [CR, c] else [c]) ++ withCrlf (some c) l

variable {prev : Option UInt8} {a b chunk : List UInt8} {chunks : List (List UInt8)} {c : UInt8} {rx : Rx}

/-- A byte of the data, from its encoding. -/
theorem run_data_byte (data : rx.tnState = .data) :
    run rxStep rx (if c = LF ∧ prev ≠ some CR then [CR, c] else if c = IAC then [IAC, c] else [c])
      = (rx, (if c = LF ∧ prev ≠ some CR then [CR, c] else [c]).map .write) := by
  -- a byte that is not IAC is written as it is
  have plain : ∀ d : UInt8, d ≠ IAC → rxStep rx d = (rx, [.write d]) := by
    intro d hd
    rw [rxStep, data]
    exact if_neg hd
  by_cases bare : c = LF ∧ prev ≠ some CR
  · obtain ⟨rfl, -⟩ := id bare
    rw [if_pos bare, if_pos bare, run_cons, plain CR (by decide), run_cons, plain LF (by decide)]
    rfl
  · rw [if_neg bare, if_neg bare]
    by_cases iac : c = IAC
    · have escaped : rxStep rx IAC = ({ rx with tnState := .iac }, []) := by
        rw [rxStep, data]
        exact if_pos rfl
      have back : rxStep { rx with tnState := .iac } IAC = (rx, [.write IAC]) := by
        show (({ rx with tnState := .data } : Rx), [Effect.write IAC]) = _
        rw [← data]
      rw [if_pos iac, iac, run_cons, escaped, run_cons, back]
      rfl
    · rw [if_neg iac, run_cons, plain c iac]
      rfl

/-- The filter undoes the encoding, whatever the byte before. -/
theorem run_nvtLoop (data : rx.tnState = .data) (prev : Option UInt8) (chunk : List UInt8) :
    run rxStep rx (nvtLoop prev chunk) = (rx, (withCrlf prev chunk).map .write) := by
  induction chunk generalizing prev with
  | nil => rfl
  | cons c l ih =>
    rw [nvtLoop, withCrlf, run_append, run_data_byte data, ih, List.map_append]

/-- Each chunk is decoded by itself. -/
theorem run_sentFor (data : rx.tnState = .data) (chunks : List (List UInt8)) :
    run rxStep rx (sentFor chunks) = (rx, (chunks.flatMap (withCrlf none)).map .write) := by
  induction chunks with
  | nil => rfl
  | cons chunk chunks ih =>
    show run rxStep rx (nvtLoop none chunk ++ sentFor chunks) = _
    rw [run_append, run_nvtLoop data, ih, List.flatMap_cons, List.map_append]

/-- No byte becomes more than two. -/
theorem tnToNvt_length (chunk : List UInt8) : (tnToNvt chunk).length ≤ 2 * chunk.length := by
  have key : ∀ (prev : Option UInt8) (l : List UInt8), (nvtLoop prev l).length ≤ 2 * l.length := by
    intro prev l
    induction l generalizing prev with
    | nil => exact le_refl 0
    | cons c l ih =>
      rw [nvtLoop, List.length_append, List.length_cons]
      have := ih (some c)
      split
      · simp only [List.length_cons, List.length_nil]
        omega
      · split <;> simp only [List.length_cons, List.length_nil] <;> omega
  exact key none chunk

/-! ## Borders -/

theorem nvtLoop_append (prev : Option UInt8) (a b : List UInt8) :
    nvtLoop prev (a ++ b) = nvtLoop prev a ++ nvtLoop (a.getLast?.or prev) b := by
  induction a generalizing prev with
  | nil => rfl
  | cons c a ih =>
    rw [List.cons_append, nvtLoop, ih, nvtLoop, List.append_assoc, List.getLast?_cons]
    cases a.getLast? <;> rfl

theorem withCrlf_append (prev : Option UInt8) (a b : List UInt8) :
    withCrlf prev (a ++ b) = withCrlf prev a ++ withCrlf (a.getLast?.or prev) b := by
  induction a generalizing prev with
  | nil => rfl
  | cons c a ih =>
    rw [List.cons_append, withCrlf, ih, withCrlf, List.append_assoc, List.getLast?_cons]
    cases a.getLast? <;> rfl

/-- The byte before a chunk and the chunk do not share a line end. -/
def Apart (prev : Option UInt8) (chunk : List UInt8) : Prop := ¬ (prev = some CR ∧ chunk.head? = some LF)

/-- A chunk is sent as it would be behind the byte before, unless the two share a line end. -/
theorem nvtLoop_none (apart : Apart prev chunk) : nvtLoop none chunk = nvtLoop prev chunk := by
  cases chunk with
  | nil => rfl
  | cons c l =>
    rw [nvtLoop, nvtLoop]
    congr 1
    by_cases lf : c = LF
    · have fresh : prev ≠ some CR := fun cr => apart ⟨cr, congrArg some lf⟩
      rw [if_pos ⟨lf, nofun⟩, if_pos ⟨lf, fresh⟩]
    · rw [if_neg fun h : c = LF ∧ _ => lf h.1, if_neg fun h : c = LF ∧ _ => lf h.1]

theorem withCrlf_none (apart : Apart prev chunk) : withCrlf none chunk = withCrlf prev chunk := by
  cases chunk with
  | nil => rfl
  | cons c l =>
    rw [withCrlf, withCrlf]
    congr 1
    by_cases lf : c = LF
    · have fresh : prev ≠ some CR := fun cr => apart ⟨cr, congrArg some lf⟩
      rw [if_pos ⟨lf, nofun⟩, if_pos ⟨lf, fresh⟩]
    · rw [if_neg fun h : c = LF ∧ _ => lf h.1, if_neg fun h : c = LF ∧ _ => lf h.1]

/-- Where they share one, the line end gets a second CR. -/
theorem withCrlf_shared (shared : ¬ Apart prev chunk) : withCrlf none chunk = CR :: withCrlf prev chunk := by
  obtain ⟨rfl, head⟩ := Decidable.not_not.mp shared
  cases chunk with
  | nil => cases head
  | cons c l =>
    obtain rfl : c = LF := Option.some.inj head
    rfl

theorem withCrlf_none_length (prev : Option UInt8) (chunk : List UInt8) :
    (withCrlf prev chunk).length ≤ (withCrlf none chunk).length := by
  by_cases apart : Apart prev chunk
  · rw [withCrlf_none apart]
  · rw [withCrlf_shared apart, List.length_cons]
    exact Nat.le_succ _

/-- No border of the chunks lies within a CR LF. -/
def Uncut (chunks : List (List UInt8)) : Prop := chunks.IsChain fun a b => Apart a.getLast? b

instance : DecidablePred Uncut := fun chunks =>
  inferInstanceAs (Decidable (chunks.IsChain fun a b => ¬ (a.getLast? = some CR ∧ b.head? = some LF)))

/-- The chunks behind a byte are sent like the rest of one stream when no border lies within a CR LF. -/
theorem sentFor_eq (full : ∀ chunk ∈ chunks, chunk ≠ []) (first : ∀ b ∈ chunks.head?, Apart prev b)
    (uncut : Uncut chunks) : sentFor chunks = nvtLoop prev chunks.flatten := by
  induction chunks generalizing prev with
  | nil => rfl
  | cons chunk chunks ih =>
    show nvtLoop none chunk ++ sentFor chunks = nvtLoop prev (chunk ++ chunks.flatten)
    have last : chunk.getLast?.or prev = chunk.getLast? := by
      rw [List.getLast?_eq_some_getLast (full chunk List.mem_cons_self)]
      rfl
    obtain ⟨next, rest⟩ := List.isChain_cons.mp uncut
    rw [nvtLoop_append, last, nvtLoop_none (first chunk rfl),
      ih (fun b hb => full b (List.mem_cons_of_mem _ hb)) next rest]

/-- The decoded chunks are longer than the stream when a border lies within a CR LF. -/
theorem withCrlf_flatten (full : ∀ chunk ∈ chunks, chunk ≠ [])
    (same : chunks.flatMap (withCrlf none) = withCrlf prev chunks.flatten) :
    (∀ b ∈ chunks.head?, Apart prev b) ∧ Uncut chunks := by
  -- each chunk may only become longer by itself
  have grows : ∀ (cs : List (List UInt8)), (∀ b ∈ cs, b ≠ []) → ∀ p : Option UInt8,
      (withCrlf p cs.flatten).length ≤ (cs.flatMap (withCrlf none)).length := by
    intro cs
    induction cs with
    | nil => exact fun _ _ => le_refl 0
    | cons b cs ih =>
      intro full p
      rw [List.flatten_cons, withCrlf_append, List.flatMap_cons, List.length_append, List.length_append]
      exact Nat.add_le_add (withCrlf_none_length p b)
        (ih (fun d hd => full d (List.mem_cons_of_mem _ hd)) _)
  induction chunks generalizing prev with
  | nil => exact ⟨nofun, List.isChain_nil⟩
  | cons chunk chunks ih =>
    have fullRest : ∀ b ∈ chunks, b ≠ [] := fun b hb => full b (List.mem_cons_of_mem _ hb)
    have last : chunk.getLast?.or prev = chunk.getLast? := by
      rw [List.getLast?_eq_some_getLast (full chunk List.mem_cons_self)]
      rfl
    rw [List.flatMap_cons, List.flatten_cons, withCrlf_append, last] at same
    have apart : Apart prev chunk := by
      by_contra shared
      have lengths := congrArg List.length same
      rw [withCrlf_shared shared, List.length_append, List.length_append, List.length_cons] at lengths
      have := grows chunks fullRest chunk.getLast?
      omega
    rw [withCrlf_none apart] at same
    obtain ⟨next, uncut⟩ := ih fullRest (List.append_cancel_left same)
    refine ⟨fun b hb => ?_, List.isChain_cons.mpr ⟨next, uncut⟩⟩
    obtain rfl : chunk = b := Option.some.inj hb
    exact apart

/-! ## The result -/

/-- What is sent for a file survives the filter: it is decoded to the file with CR LF for every bare
LF, without a command, and to the end. It is what would be sent for the file as one chunk, and no
chunk grows beyond twice its length. -/
def Survives (chunks : List (List UInt8)) : Prop :=
  (∀ rx : Rx, rx.tnState = .data → run rxStep rx (sentFor chunks)
      = (rx, (withCrlf none chunks.flatten).map .write)) ∧
    sentFor chunks = tnToNvt chunks.flatten ∧
    ∀ chunk ∈ chunks, (tnToNvt chunk).length ≤ 2 * chunk.length

/-- The output of a file survives exactly when no chunk ends within a CR LF. -/
theorem survives_iff (chunks : List (List UInt8)) (read : ∀ chunk ∈ chunks, 1 ≤ chunk.length ∧ chunk.length ≤ 512) :
    Survives chunks ↔ Uncut chunks := by
  have full : ∀ chunk ∈ chunks, chunk ≠ [] := fun chunk hc =>
    List.length_pos_iff.mp (read chunk hc).1
  constructor
  · rintro ⟨decoded, -, -⟩
    -- a decoder that starts afresh shows what was sent
    have first := decoded ⟨.data, 0, fun _ => .no⟩ rfl
    rw [run_sentFor rfl] at first
    have same := List.map_injective_iff.mpr (fun _ _ h => Effect.write.inj h) (congrArg Prod.snd first)
    exact (withCrlf_flatten full same).2
  · intro uncut
    have sent : sentFor chunks = tnToNvt chunks.flatten := sentFor_eq full (fun _ _ cr => nomatch cr.1) uncut
    refine ⟨fun rx data => ?_, sent, fun chunk _ => tnToNvt_length chunk⟩
    rw [sent]
    exact run_nvtLoop data none chunks.flatten

/-- A file with a line end in the middle, read in two chunks. -/
theorem survives_two : Survives [[72, 13, 10], [255, 10]] :=
  (survives_iff [[72, 13, 10], [255, 10]] (by decide)).mpr (by decide)

/-- A line end with the border of two chunks in it gets a second CR. -/
theorem not_forall_survives :
    ¬ ∀ chunks : List (List UInt8), (∀ chunk ∈ chunks, 1 ≤ chunk.length ∧ chunk.length ≤ 512) →
      Survives chunks := by
  intro h
  obtain ⟨-, sent, -⟩ := h [[72, 13], [10]] (by decide)
  have twice : sentFor [[72, 13], [10]] = [72, 13, 13, 10] := rfl
  have once : tnToNvt [72, 13, 10] = [72, 13, 10] := rfl
  rw [twice] at sent
  exact absurd (sent.trans once) (by decide)

end Telnet

end Tolunnet
