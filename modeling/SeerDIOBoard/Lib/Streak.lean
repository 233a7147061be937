/-
  SeerDIOBoard.Lib.Streak — how often in a row the last reading has been repeated.

  A watch holds the last reading and a count: a reading equal to the last one counts up,
  any other starts again from zero. `tally` counts without a bound and `lt_streak_iff` is
  what it counts. A counter of fixed width (`Watch.next`) holds that count modulo its size
  (`run_wrap`), so from there on it may fall below a threshold that the count has passed.
-/

import Mathlib.Data.List.Induction
import SeerDIOBoard.Lib.Machine

namespace Lib.Streak

open Lib.Machine

variable {α : Type}

/-! ## Repeats -/

/-- The last reading has been repeated more than `k` times in a row. -/
def Repeated (k : Nat) (l : List α) : Prop := ∃ x, List.replicate (k + 2) x <:+ l

theorem snoc_suffix {p q : List α} {x : α} : q ++ [x] <:+ p ++ [x] ↔ q <:+ p := by
  constructor
  · rintro ⟨t, ht⟩
    rw [← List.append_assoc] at ht
    exact ⟨t, (List.append_inj' ht rfl).1⟩
  · rintro ⟨t, rfl⟩
    exact ⟨t, by simp⟩

theorem last_of_replicate {k : Nat} {x : α} {l : List α} (h : List.replicate (k + 1) x <:+ l) : l.getLast? = some x := by
  obtain ⟨t, rfl⟩ := h
  rw [List.replicate_succ', ← List.append_assoc, List.getLast?_concat]

/-! ## Watches -/

structure Watch (α : Type) where
  last : α
  count : Nat
  deriving DecidableEq

/-- As a counter of size `m` holds it. -/
def Watch.wrap (m : Nat) (w : Watch α) : Watch α := ⟨w.last, w.count % m⟩

variable [DecidableEq α]

/-- One reading, with a counter that wraps at `m`. -/
def Watch.next (m : Nat) (w : Watch α) (x : α) : Watch α := ⟨x, if x = w.last then (w.count + 1) % m else 0⟩

def tally (w : Watch α) (x : α) : Watch α := ⟨x, if x = w.last then w.count + 1 else 0⟩

/-- The repeats at the end of the readings `l` after `a`. -/
def streak (a : α) (l : List α) : Nat := (run tally ⟨a, 0⟩ l).count

/-! ## What is counted -/

theorem tally_last (l : List α) (w : Watch α) : (w.last :: l).getLast? = some (run tally w l).last := by
  induction l generalizing w with
  | nil => rfl
  | cons x l ih => rw [List.getLast?_cons_cons]; exact ih (tally w x)

theorem le_streak_iff (a : α) (l : List α) (k : Nat) :
    k ≤ streak a l ↔ List.replicate (k + 1) (run tally ⟨a, 0⟩ l).last <:+ a :: l := by
  induction l using List.reverseRecOn generalizing k with
  | nil =>
    constructor
    · intro h
      rw [Nat.le_zero.mp h]
      exact List.suffix_refl [a]
    · intro h
      have hlen := h.length_le
      rw [List.length_replicate] at hlen
      exact Nat.le_of_succ_le_succ hlen
  | append_singleton l x ih =>
    unfold streak at ih ⊢
    have hlast : (a :: l).getLast? = some (run tally ⟨a, 0⟩ l).last := tally_last l ⟨a, 0⟩
    rw [run_snoc, ← List.cons_append]
    generalize run tally ⟨a, 0⟩ l = w at ih hlast
    cases k with
    | zero =>
      have hone : List.replicate (0 + 1) (tally w x).last <:+ (a :: l) ++ [x] := List.suffix_append _ _
      exact iff_of_true (Nat.zero_le _) hone
    | succ k =>
      show k + 1 ≤ (if x = w.last then w.count + 1 else 0) ↔ List.replicate (k + 1 + 1) x <:+ a :: l ++ [x]
      rw [List.replicate_succ', snoc_suffix]
      by_cases hx : x = w.last
      · rw [if_pos hx, hx, Nat.succ_le_succ_iff]
        exact ih k
      · rw [if_neg hx]
        refine iff_of_false (Nat.not_succ_le_zero k) ?_
        intro hsuf
        have hend := last_of_replicate hsuf
        rw [hlast] at hend
        exact hx (Option.some.inj hend).symm

theorem lt_streak_iff (a : α) (l : List α) (k : Nat) : k < streak a l ↔ Repeated k (a :: l) := by
  constructor
  · intro h
    exact ⟨_, (le_streak_iff a l (k + 1)).mp h⟩
  · rintro ⟨x, hx⟩
    have hlast : (a :: l).getLast? = some (run tally ⟨a, 0⟩ l).last := tally_last l ⟨a, 0⟩
    rw [last_of_replicate hx] at hlast
    rw [Option.some.inj hlast] at hx
    exact (le_streak_iff a l (k + 1)).mpr hx

theorem streak_le (a : α) (l : List α) : streak a l ≤ l.length := by
  have h := ((le_streak_iff a l (streak a l)).mp (Nat.le_refl _)).length_le
  rw [List.length_replicate, List.length_cons] at h
  exact Nat.le_of_succ_le_succ h

theorem streak_replicate {a x : α} (h : a ≠ x) (n : Nat) : streak a (List.replicate (n + 1) x) = n := by
  have hrun : run tally ⟨a, 0⟩ (List.replicate (n + 1) x) = ⟨x, n⟩ := by
    induction n with
    | zero => simp [tally, Ne.symm h]
    | succ n ih => rw [List.replicate_succ', run_snoc, ih]; simp [tally]
  rw [streak, hrun]

/-! ## A counter of fixed width -/

theorem next_wrap (m : Nat) (w : Watch α) (x : α) : (w.wrap m).next m x = (tally w x).wrap m := by
  unfold Watch.next Watch.wrap tally
  by_cases hx : x = w.last
  · simp only [if_pos hx, Nat.mod_add_mod]
  · simp only [if_neg hx, Nat.zero_mod]

theorem run_wrap (m : Nat) (l : List α) (w : Watch α) : run (Watch.next m) (w.wrap m) l = (run tally w l).wrap m := by
  induction l generalizing w with
  | nil => rfl
  | cons x l ih => rw [run_cons, next_wrap, ih, run_cons]

/-- From zero the counter holds the streak modulo its size. -/
theorem count_run (m : Nat) (a : α) (l : List α) : (run (Watch.next m) ⟨a, 0⟩ l).count = streak a l % m := by
  have h := run_wrap m l ⟨a, 0⟩
  rw [show Watch.wrap m (⟨a, 0⟩ : Watch α) = ⟨a, 0⟩ by simp [Watch.wrap]] at h
  rw [h]
  rfl

end Lib.Streak
