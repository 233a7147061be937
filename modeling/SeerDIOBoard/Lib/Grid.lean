/-
  SeerDIOBoard.Lib.Grid — a counter that goes through a grid cell by cell, row by row.

  `cells k a len` are the cells a counter passes that counts `len` up from `a`, in rows of
  `k`. Rows that are gone through from the first cell to the last are covered, and a
  counter that started later has missed the first cell (`covers_cells_iff`).
-/

import Mathlib.Data.List.Basic

namespace Lib.Grid

/-- The row and the place in it of cell `c`. -/
def cell (k c : Nat) : Nat × Nat := (c / k, c % k)

def cells (k a len : Nat) : List (Nat × Nat) := (List.range' a len).map (cell k)

/-- Every cell of the first `n` rows. -/
def Covers (k n : Nat) (l : List (Nat × Nat)) : Prop := ∀ i, i < n → ∀ j, j < k → (i, j) ∈ l

variable {k : Nat}

theorem cells_snoc (k a len : Nat) : cells k a len ++ [cell k (a + len)] = cells k a (len + 1) := by
  unfold cells
  rw [List.range'_1_concat, List.map_append, List.map_singleton]

theorem cell_mul_add {j : Nat} (hj : j < k) (i : Nat) : cell k (k * i + j) = (i, j) := by
  have hdiv : (k * i + j) / k = i := by
    rw [Nat.mul_add_div (Nat.zero_lt_of_lt hj), Nat.div_eq_of_lt hj, Nat.add_zero]
  have hmod : (k * i + j) % k = j := by rw [Nat.mul_add_mod, Nat.mod_eq_of_lt hj]
  rw [cell, hdiv, hmod]

theorem mem_cells {j : Nat} (hj : j < k) (i a len : Nat) : (i, j) ∈ cells k a len ↔ a ≤ k * i + j ∧ k * i + j < a + len := by
  unfold cells
  rw [List.mem_map]
  constructor
  · rintro ⟨c', hmem, heq⟩
    obtain ⟨rfl, rfl⟩ := Prod.mk.inj heq
    rw [Nat.div_add_mod]
    exact List.mem_range'_1.mp hmem
  · exact fun h => ⟨k * i + j, List.mem_range'_1.mpr h, cell_mul_add hj i⟩

theorem covers_cells_iff (hk : 0 < k) {n : Nat} (hn : 0 < n) (a len : Nat) :
    Covers k n (cells k a len) ↔ a = 0 ∧ k * n ≤ len := by
  constructor
  · intro h
    have hfirst := (mem_cells hk 0 a len).mp (h 0 hn 0 hk)
    have hlast := (mem_cells (Nat.sub_lt hk Nat.one_pos) (n - 1) a len).mp (h (n - 1) (by omega) (k - 1) (by omega))
    have hrow : k * n = k * (n - 1) + k := by rw [← Nat.mul_succ, Nat.succ_eq_add_one, Nat.sub_add_cancel hn]
    omega
  · rintro ⟨rfl, hlen⟩ i hi j hj
    have hrow : k * i + k ≤ k * n := by rw [← Nat.mul_succ]; exact Nat.mul_le_mul_left k hi
    exact (mem_cells hj i 0 len).mpr (by omega)

end Lib.Grid
