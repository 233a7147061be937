/-
  SeerDIOBoard.Lib.Trace — computations that record what they touch.

  `Traced ι α` is a value with the list of things touched (places read or written) on the
  way to it. A program is written once more over it, each access `touch`ing its place;
  `val` of the result is the plain program (the erasure), and `Within P` says that every
  place touched is one of `P`.
-/

import Mathlib.Data.List.Basic

namespace Lib.Trace

variable {ι α β : Type}

structure Traced (ι α : Type) where
  val : α
  trace : List ι

instance : Monad (Traced ι) where
  pure a := ⟨a, []⟩
  bind x f := ⟨(f x.val).val, x.trace ++ (f x.val).trace⟩

/-- An access of `i` that yields `a`. -/
def touch (i : ι) (a : α) : Traced ι α := ⟨a, [i]⟩

@[simp] theorem val_pure (a : α) : (pure a : Traced ι α).val = a := rfl

@[simp] theorem val_bind (x : Traced ι α) (f : α → Traced ι β) : (x >>= f).val = (f x.val).val := rfl

/-! ## Every place touched is one of `P` -/

def Within (P : ι → Prop) (x : Traced ι α) : Prop := ∀ i ∈ x.trace, P i

variable {P : ι → Prop}

@[simp] theorem within_pure (a : α) : Within P (pure a : Traced ι α) := fun _ h => nomatch h

@[simp] theorem within_touch (i : ι) (a : α) : Within P (touch i a) ↔ P i := by simp [Within, touch]

@[simp] theorem within_bind (x : Traced ι α) (f : α → Traced ι β) :
    Within P (x >>= f) ↔ Within P x ∧ Within P (f x.val) := by
  constructor
  · intro h
    exact ⟨fun i hi => h i (List.mem_append_left _ hi), fun i hi => h i (List.mem_append_right _ hi)⟩
  · intro h i hi
    rcases List.mem_append.mp hi with hx | hf
    · exact h.1 i hx
    · exact h.2 i hf

theorem within_ite {c : Prop} [Decidable c] {x y : Traced ι α} (hx : c → Within P x) (hy : ¬ c → Within P y) :
    Within P (if c then x else y) := by
  split
  case isTrue h => exact hx h
  case isFalse h => exact hy h

@[simp] theorem val_ite (c : Prop) [Decidable c] (x y : Traced ι α) :
    (if c then x else y).val = if c then x.val else y.val := apply_ite Traced.val c x y

/-! ## Loops -/

/-- `f` on each element in turn. -/
def forEach (f : α → Traced ι β) : List α → Traced ι (List β)
  | [] => pure []
  | a :: l => do
    let b ← f a
    let bs ← forEach f l
    pure (b :: bs)

@[simp] theorem val_forEach (f : α → Traced ι β) (l : List α) : (forEach f l).val = l.map fun a => (f a).val := by
  induction l with
  | nil => rfl
  | cons a l ih => simp only [forEach, val_bind, val_pure, ih, List.map_cons]

@[simp] theorem within_forEach (f : α → Traced ι β) (l : List α) :
    Within P (forEach f l) ↔ ∀ a ∈ l, Within P (f a) := by
  induction l with
  | nil => simp [forEach]
  | cons a l ih => simp only [forEach, within_bind, within_pure, ih, List.forall_mem_cons, and_true]

end Lib.Trace
