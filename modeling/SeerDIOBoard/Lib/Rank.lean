/-
  SeerDIOBoard.Lib.Rank — numbers that share keys.

  `rank key i` is how many of the numbers in front of `i` have its key. Numbers come in
  pairs when each even one has a key that is new and each odd one the key of the one in
  front of it; then, and only then, the rank is the number's parity (`rank_parity_iff`).
-/

import Mathlib.Data.Nat.Count

namespace Lib.Rank

variable {κ : Type} [DecidableEq κ]

def rank (key : Nat → κ) (i : Nat) : Nat := Nat.count (fun l => key l = key i) i

/-- The first `n` numbers come in pairs. -/
structure Paired (key : Nat → κ) (n : Nat) : Prop where
  new : ∀ i, i < n → i % 2 = 0 → ∀ l, l < i → key l ≠ key i
  same : ∀ i, i < n → i % 2 = 1 → key i = key (i - 1)

variable {key : Nat → κ} {n : Nat}

theorem rank_of_new {i : Nat} (h : ∀ l, l < i → key l ≠ key i) : rank key i = 0 := Nat.count_iff_forall_not.mpr h

/-- The one in front is the only one with the key. -/
theorem rank_of_same {i : Nat} (hkey : key (i + 1) = key i) (hnew : ∀ l, l < i → key l ≠ key i) :
    rank key (i + 1) = 1 := by
  rw [rank, hkey, Nat.count_succ, Nat.count_iff_forall_not.mpr hnew, if_pos rfl]

theorem rank_of_paired (h : Paired key n) {i : Nat} (hi : i < n) : rank key i = i % 2 := by
  rcases Nat.mod_two_eq_zero_or_one i with heven | hodd
  · rw [heven]
    exact rank_of_new (h.new i hi heven)
  · obtain ⟨i, rfl⟩ := Nat.exists_eq_succ_of_ne_zero (by omega : i ≠ 0)
    rw [hodd]
    exact rank_of_same (h.same (i + 1) hi hodd) (h.new i (by omega) (by omega))

/-- Two in front with the key are too many for rank 1. -/
theorem two_le_rank {i j l : Nat} (hj : j < i) (hl : l < j) (hkj : key j = key i) (hkl : key l = key i) : 2 ≤ rank key i := by
  have hone : Nat.count (fun l => key l = key i) j ≠ 0 := Nat.count_ne_iff_exists.mpr ⟨l, hl, hkl⟩
  have hsucc : Nat.count (fun l => key l = key i) (j + 1) = Nat.count (fun l => key l = key i) j + 1 :=
    Nat.count_succ_eq_succ_count hkj
  have hmono : Nat.count (fun l => key l = key i) (j + 1) ≤ rank key i := Nat.count_monotone _ (by omega)
  omega

theorem paired_of_rank (h : ∀ i, i < n → rank key i = i % 2) : Paired key n := by
  have hnew : ∀ i, i < n → i % 2 = 0 → ∀ l, l < i → key l ≠ key i := by
    intro i hi heven
    exact Nat.count_iff_forall_not.mp ((h i hi).trans heven)
  refine ⟨hnew, ?_⟩
  -- below an odd number all others are already in pairs, so whatever has its key in front
  -- of the last one has a partner with the key
  intro i
  induction i using Nat.strong_induction_on with
  | h i ih =>
    intro hi hodd
    have hrank := (h i hi).trans hodd
    by_contra hne
    obtain ⟨j, hj, hkj⟩ : ∃ j, j < i ∧ key j = key i := Nat.count_ne_iff_exists.mp (by rw [rank] at hrank; omega)
    have hji : j ≠ i - 1 := fun he => hne (by rw [← hkj, he])
    rcases Nat.mod_two_eq_zero_or_one j with hje | hjo
    · have hpartner := ih (j + 1) (by omega) (by omega) (by omega)
      have htwo : 2 ≤ rank key i := two_le_rank (by omega) (Nat.lt_succ_self j) (hpartner.trans hkj) hkj
      omega
    · have hpartner := ih j hj (by omega) hjo
      have htwo : 2 ≤ rank key i := two_le_rank hj (by omega) hkj (hpartner.symm.trans hkj)
      omega

theorem rank_parity_iff : (∀ i, i < n → rank key i = i % 2) ↔ Paired key n :=
  ⟨paired_of_rank, fun h _ hi => rank_of_paired h hi⟩

end Lib.Rank
