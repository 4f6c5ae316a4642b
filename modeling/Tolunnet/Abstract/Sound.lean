import Tolunnet.Abstract.Sends

/-!
# `Tolunnet.Abstract.Sound`: acts, runs of acts and what always holds

`Sound` is the part of the invariants that holds without any condition on the clients:
connections have their owners (`Disc`), requests are held and answered at most once (the
ledger's `Once`, on the books of the abstract daemon) and sends know their data (`Sends`). `Act`
joins the six families of acts. It has one more constructor, `broken`, by which an unsound state
may do anything; so whoever decomposes a handler into acts may take the present state to be
sound. `Acts.induct` is the rule by which every further invariant is carried along a run of acts.
-/

set_option autoImplicit false

namespace Tolunnet

open Ledger (Books)

/-- What holds in every state. -/
structure Abs.Sound (a : Abs) : Prop where
  disc : a.Disc
  once : a.books.Once
  sends : a.Sends

/-- One act of the daemon. -/
inductive Act (P : Label → Prop) : Abs → Abs → Prop where
  | msg {a a' : Abs} (h : MsgAct P a a') : Act P a a'
  | send {a a' : Abs} (h : SendAct P a a') : Act P a a'
  | ref {a a' : Abs} (h : RefAct P a a') : Act P a a'
  | tcp {a a' : Abs} (h : TcpAct P a a') : Act P a a'
  | rx {a a' : Abs} (h : RxAct P a a') : Act P a a'
  | sel {a a' : Abs} (h : SelAct a a') : Act P a a'
  | broken {a a' : Abs} (h : ¬ a.Sound) : Act P a a'

/-- A run of acts. -/
abbrev Acts (P : Label → Prop) : Abs → Abs → Prop := Relation.ReflTransGen (Act P)

namespace Abs

variable {P : Label → Prop} {a a' : Abs}

/-- Every act is a step of the books. -/
theorem books_act (h : a.Sound) (ha : Act P a a') : Books.Step (Lossy P) a.books a'.books := by
  cases ha with
  | msg ha => exact books_msg ha
  | send ha => exact books_send ha
  | ref ha => rw [books_ref h.disc ha]; exact .same _
  | tcp ha => rw [books_tcp ha]; exact .same _
  | rx ha => rw [books_rx ha]; exact .same _
  | sel ha => rw [books_sel ha]; exact .same _
  | broken hn => exact absurd h hn

/-! ## Soundness along a run -/

/-- Every act keeps the discipline. -/
theorem Disc.act (h : a.Sound) (ha : Act P a a') : a'.Disc := by
  cases ha with
  | msg ha => exact h.disc.msg ha
  | send ha => exact h.disc.sendAct ha
  | ref ha => exact h.disc.ref ha
  | tcp ha => exact h.disc.tcp ha
  | rx ha => exact h.disc.rxAct ha
  | sel ha => exact h.disc.sel ha
  | broken hn => exact absurd h hn

/-- Every act keeps what the log says about sends. -/
theorem Sends.act (h : a.Sound) (ha : Act P a a') : a'.Sends := by
  cases ha with
  | msg ha => exact h.sends.msg h.once ha
  | send ha => exact h.sends.sendAct h.disc h.once ha
  | ref ha => exact h.sends.ref h.disc ha
  | tcp ha => exact h.sends.tcp h.disc ha
  | rx ha => exact h.sends.rx ha
  | sel ha => exact h.sends.sel ha
  | broken hn => exact absurd h hn

/-- Every act keeps a sound state sound. -/
theorem Sound.act (h : a.Sound) (ha : Act P a a') : a'.Sound :=
  ⟨Disc.act h ha, h.once.step (books_act h ha), Sends.act h ha⟩

end Abs

/-- An invariant that every act keeps in a sound state is kept by every run of acts. -/
theorem Acts.induct {P : Label → Prop} {I : Abs → Prop} {a a' : Abs}
    (hstep : ∀ x y, x.Sound → I x → Act P x y → I y) (h : a.Sound) (hi : I a)
    (ha : Acts P a a') : a'.Sound ∧ I a' := by
  induction ha with
  | refl => exact ⟨h, hi⟩
  | tail _ hact ih => exact ⟨ih.1.act hact, hstep _ _ ih.1 ih.2 hact⟩

/-- A run of acts keeps a sound state sound. -/
theorem Acts.sound {P : Label → Prop} {a a' : Abs} (ha : Acts P a a') (h : a.Sound) : a'.Sound :=
  (Acts.induct (I := fun _ => True) (fun _ _ _ _ _ => trivial) h trivial ha).1

/-- The log only grows. -/
theorem Act.log_suffix {P : Label → Prop} {a a' : Abs} (hs : a.Sound) (h : Act P a a') :
    a.log <:+ a'.log := by
  cases h with
  | msg h => cases h <;> first | exact List.suffix_rfl | exact List.suffix_cons ..
  | send h =>
    cases h with
    | start | cut | reply => exact List.suffix_cons ..
    | passed | park => exact List.suffix_rfl
    | write | resume => exact List.suffix_append ..
    | finish => exact (List.suffix_cons ..).trans (List.suffix_cons ..)
    | dropSend => exact List.suffix_cons ..
  | ref h => cases h <;> exact List.suffix_rfl
  | tcp h => cases h <;> exact List.suffix_rfl
  | rx h => cases h <;> exact List.suffix_rfl
  | sel h => cases h <;> first | exact List.suffix_rfl | exact List.suffix_cons ..
  | broken h => exact absurd hs h

/-- What has been logged stays in the log. -/
theorem Acts.log_mem {P : Label → Prop} {a a' : Abs} (ha : Acts P a a') (h : a.Sound) {e : Event}
    (he : e ∈ a.log) : e ∈ a'.log :=
  (Acts.induct (I := fun a => e ∈ a.log) (fun _ _ hs hi ha => (ha.log_suffix hs).subset hi) h he
    ha).2

/-- Whoever looks for a run of acts may take the state to be sound. -/
theorem Acts.of_sound {P : Label → Prop} {a a' : Abs} (h : a.Sound → Acts P a a') :
    Acts P a a' := by
  by_cases hs : a.Sound
  · exact h hs
  · exact .single (.broken hs)

end Tolunnet
