import Tolunnet.Task.Daemon

/-!
# `Tolunnet.Calls.Memory`: client memory after a call

The daemon writes through the pointers of a message, and each write is an entry of `output`, the
last one first. `added w w'` are the writes between two states, `storedMem` is the memory behind
a pointer argument after them and `storedIov` the memory of an iovec entry.
-/

set_option autoImplicit false

namespace Tolunnet

open World

/-- The writes between two states. -/
def added (w w' : World) : List Output := w'.output.take (w'.output.length - w.output.length)

theorem added_of_append {w w' : World} {l : List Output} (h : w'.output = l ++ w.output) :
    added w w' = l := by
  rw [added, h, List.length_append, Nat.add_sub_cancel, List.take_left]

/-- The memory behind pointer `k` of message `m`, which held `f` before the writes. -/
def storedMem (m : MsgId) (k : Nat) (f : Mem) : List Output → Mem
  | [] => f
  | .store m' k' off bytes :: l =>
    if m' = m ∧ k' = k then poke (storedMem m k f l) off bytes else storedMem m k f l
  | _ :: l => storedMem m k f l

/-- The memory of iovec entry `k` of message `m`, which held `f` before the writes. -/
def storedIov (m : MsgId) (k : Nat) (f : Mem) : List Output → Mem
  | [] => f
  | .storeIov m' k' off bytes :: l =>
    if m' = m ∧ k' = k then poke (storedIov m k f l) off bytes else storedIov m k f l
  | _ :: l => storedIov m k f l

section

variable {m : MsgId} {k off : Nat} {f : Mem} {bytes : List UInt8} {l : List Output}

theorem storedMem_store :
    storedMem m k f (.store m k off bytes :: l) = poke (storedMem m k f l) off bytes := by
  simp [storedMem]

theorem storedMem_store_of_ne {k' : Nat} (hk : k' ≠ k) :
    storedMem m k f (.store m k' off bytes :: l) = storedMem m k f l := by
  simp [storedMem, hk]

theorem storedIov_append (l' : List Output) :
    storedIov m k f (l ++ l') = storedIov m k (storedIov m k f l') l := by
  induction l with
  | nil => rfl
  | cons o l ih =>
    cases o with
    | storeIov m' k' off bytes => simp only [List.cons_append, storedIov, ih]
    | signal t mask => simpa only [List.cons_append, storedIov] using ih
    | event b i mask => simpa only [List.cons_append, storedIov] using ih
    | datagram p ip port bytes => simpa only [List.cons_append, storedIov] using ih
    | store m' k' off bytes => simpa only [List.cons_append, storedIov] using ih

theorem storedMem_append (l' : List Output) :
    storedMem m k f (l ++ l') = storedMem m k (storedMem m k f l') l := by
  induction l with
  | nil => rfl
  | cons o l ih =>
    cases o with
    | store m' k' off bytes => simp only [List.cons_append, storedMem, ih]
    | signal t mask => simpa only [List.cons_append, storedMem] using ih
    | event b i mask => simpa only [List.cons_append, storedMem] using ih
    | datagram p ip port bytes => simpa only [List.cons_append, storedMem] using ih
    | storeIov m' k' off bytes => simpa only [List.cons_append, storedMem] using ih

/-- A byte of memory with something stored in it. -/
theorem poke_apply (o : Nat) :
    poke f off bytes o = if off ≤ o ∧ o < off + bytes.length then bytes.getD (o - off) 0 else f o :=
  rfl

end

end Tolunnet
