/-
  SeerDIOBoard.Lib.Crc — check registers over bits.

  A register of `w` bits is shifted once for every bit of a message: the bit is added to
  the cell that leaves next, and when a one leaves, the polynomial `p` is added to the
  rest (`remainder`). `shift` empties the register at its low end; `shiftUp`, at its high
  end, is the same register read backwards (`reverse_shiftUp`).
  - A shift is linear (`shift_xor`), so the remainder of a sum of two messages is the sum
    of their remainders (`remainder_xor`).
  - Where the top cell of `p` is set, only the empty register is shifted to the empty one
    (`shift_eq_zero`): a register that an error has reached stays wrong however many
    zeros follow.
  - At most `w` bits enter an empty register as they are and are then shifted
    (`remainder_eq`), so a message whose ones lie within `w` consecutive bits leaves a
    remainder (`remainder_burst`), and such an error is always seen (`burst_detected`).
-/

import Mathlib.Logic.Function.Iterate

namespace Lib.Crc

variable {w : Nat} {p x y s t : BitVec w} {l m : List Bool}

/-- One place down; a one that leaves adds the polynomial. -/
def shift (p x : BitVec w) : BitVec w := if x.getLsbD 0 then (x >>> 1) ^^^ p else x >>> 1

theorem shift_xor : shift p (x ^^^ y) = shift p x ^^^ shift p y := by
  unfold shift
  rw [BitVec.getLsbD_xor, BitVec.ushiftRight_xor_distrib]
  cases x.getLsbD 0 <;> cases y.getLsbD 0
  · rfl
  · exact BitVec.xor_assoc _ _ _
  · show x >>> 1 ^^^ y >>> 1 ^^^ p = x >>> 1 ^^^ p ^^^ y >>> 1
    rw [BitVec.xor_assoc, BitVec.xor_comm (y >>> 1), ← BitVec.xor_assoc]
  · show x >>> 1 ^^^ y >>> 1 = x >>> 1 ^^^ p ^^^ (y >>> 1 ^^^ p)
    rw [BitVec.xor_assoc, BitVec.xor_comm (y >>> 1), ← BitVec.xor_assoc p, BitVec.xor_self, BitVec.zero_xor]

theorem shift_zero : shift p 0#w = 0#w := by simp [shift]

theorem shift_eq_zero (hp : p.msb = true) (h : shift p x = 0#w) : x = 0#w := by
  have hw : 0 < w := by
    rcases Nat.eq_zero_or_pos w with rfl | hw
    · rw [BitVec.eq_nil p] at hp
      cases hp
    · exact hw
  unfold shift at h
  split at h
  · -- the top cell of `x >>> 1` is empty, that of `p` is not
    have hxp : x >>> 1 = p := by rwa [BitVec.xor_eq_zero_iff] at h
    have htop : (x >>> 1).msb = false := by
      rw [BitVec.msb_eq_getLsbD_last, BitVec.getLsbD_ushiftRight]
      exact BitVec.getLsbD_of_ge x _ (by omega)
    rw [hxp, hp] at htop
    cases htop
  · rename_i h0
    apply BitVec.eq_of_getLsbD_eq
    intro i hi
    rw [BitVec.getLsbD_zero]
    cases i with
    | zero => simpa using h0
    | succ i =>
      have hbit := congrArg (fun z => BitVec.getLsbD z i) h
      simpa [Nat.add_comm] using hbit

theorem shifts_eq_zero (hp : p.msb = true) {n : Nat} (h : (shift p)^[n] x = 0#w) : x = 0#w := by
  induction n generalizing x with
  | zero => exact h
  | succ n ih => exact shift_eq_zero hp (ih h)

theorem shift_shiftLeft (h : x.msb = false) : shift p (x <<< 1) = x := by
  have h0 : (x <<< 1).getLsbD 0 = false := by simp
  rw [shift, h0, if_neg Bool.false_ne_true]
  apply BitVec.eq_of_getLsbD_eq
  intro i hi
  rw [BitVec.getLsbD_ushiftRight, BitVec.getLsbD_shiftLeft, Nat.add_sub_cancel_left]
  by_cases hlast : 1 + i < w
  · simp [hlast]
  · have hi' : i = w - 1 := by omega
    rw [BitVec.msb_eq_getLsbD_last, ← hi'] at h
    simp [hlast, h]

/-! ## Bits into the register -/

def cell (b : Bool) : BitVec w := if b then 1#w else 0#w

/-- The register that holds `l`, its first bit in the cell that leaves next. -/
def word : List Bool → BitVec w
  | [] => 0#w
  | b :: l => cell b ^^^ word l <<< 1

theorem getLsbD_word {i : Nat} (h : i < w) : (word l : BitVec w).getLsbD i = l[i]?.getD false := by
  induction l generalizing i with
  | nil => simp [word]
  | cons b l ih =>
    rw [word, BitVec.getLsbD_xor, BitVec.getLsbD_shiftLeft]
    cases i with
    | zero => cases b <;> simp [cell, h]
    | succ i =>
      have hcell : (cell b : BitVec w).getLsbD (i + 1) = false := by cases b <;> simp [cell]
      rw [hcell, Nat.add_sub_cancel, ih (by omega)]
      simp [h]

/-- The register after the bits of a message. -/
def remainder (p s : BitVec w) (l : List Bool) : BitVec w := l.foldl (fun s b => shift p (s ^^^ cell b)) s

theorem remainder_append : remainder p s (l ++ m) = remainder p (remainder p s l) m := List.foldl_append

/-- Up to `w` bits enter the register as they are, and are then shifted. -/
theorem remainder_eq (h : l.length ≤ w) : remainder p s l = (shift p)^[l.length] (s ^^^ word l) := by
  induction l generalizing s with
  | nil => simp [remainder, word]
  | cons b l ih =>
    rw [List.length_cons] at h
    have htop : (word l : BitVec w).msb = false := by
      rw [BitVec.msb_eq_getLsbD_last, getLsbD_word (by omega), List.getElem?_eq_none (by omega)]
      rfl
    calc remainder p s (b :: l) = (shift p)^[l.length] (shift p (s ^^^ cell b) ^^^ word l) := ih (by omega)
      _ = (shift p)^[l.length] (shift p (s ^^^ cell b) ^^^ shift p (word l <<< 1)) := by
        rw [shift_shiftLeft htop]
      _ = (shift p)^[(b :: l).length] (s ^^^ word (b :: l)) := by
        rw [← shift_xor, BitVec.xor_assoc]
        rfl

theorem remainder_zeros (n : Nat) : remainder p s (List.replicate n false) = (shift p)^[n] s := by
  induction n generalizing s with
  | zero => rfl
  | succ n ih =>
    show remainder p (shift p (s ^^^ cell false)) (List.replicate n false) = _
    rw [ih, cell, if_neg Bool.false_ne_true, BitVec.xor_zero]
    rfl

theorem cell_xor (a b : Bool) : (cell (a ^^ b) : BitVec w) = cell a ^^^ cell b := by
  cases a <;> cases b <;> simp [cell]

theorem remainder_xor (h : l.length = m.length) :
    remainder p (s ^^^ t) (List.zipWith xor l m) = remainder p s l ^^^ remainder p t m := by
  induction l generalizing s t m with
  | nil =>
    cases m with
    | nil => rfl
    | cons _ _ => cases h
  | cons a l ih =>
    cases m with
    | nil => cases h
    | cons b m =>
      have hadd : s ^^^ t ^^^ cell (a ^^ b) = s ^^^ cell a ^^^ (t ^^^ cell b) := by
        rw [cell_xor, BitVec.xor_assoc, BitVec.xor_assoc, ← BitVec.xor_assoc t, BitVec.xor_comm t,
          BitVec.xor_assoc]
      show remainder p (shift p (s ^^^ t ^^^ cell (a ^^ b))) (List.zipWith xor l m) = _
      rw [hadd, shift_xor, ih (Nat.succ.inj h)]
      rfl

/-! ## Bursts -/

/-- The ones of `l` lie within `n` consecutive bits. -/
def Within (n : Nat) (l : List Bool) : Prop := ∃ s, ∀ i : Nat, l[i]? = some true → s ≤ i ∧ i < s + n

theorem zeros_of_forall (h : ∀ i : Nat, l[i]? ≠ some true) : l = List.replicate l.length false := by
  refine List.eq_replicate_of_mem fun b hb => ?_
  obtain ⟨i, hi⟩ := List.mem_iff_getElem?.mp hb
  cases b with
  | false => rfl
  | true => exact absurd hi (h i)

theorem word_ne_zero (h : l.length ≤ w) (hc : true ∈ l) : (word l : BitVec w) ≠ 0#w := by
  obtain ⟨i, hi⟩ := List.mem_iff_getElem?.mp hc
  have hlt : i < l.length := (List.getElem?_eq_some_iff.mp hi).1
  intro h0
  have hbit := getLsbD_word (l := l) (show i < w by omega)
  rw [h0, hi] at hbit
  simp at hbit

theorem Within.split {n : Nat} (h : Within n l) : ∃ a b m, l = a ++ (b ++ m) ∧
    (∀ i : Nat, a[i]? ≠ some true) ∧ b.length ≤ n ∧ ∀ i : Nat, m[i]? ≠ some true := by
  obtain ⟨s, h⟩ := h
  refine ⟨l.take s, (l.drop s).take n, (l.drop s).drop n, ?_, fun i hi => ?_, List.length_take_le _ _, fun i hi => ?_⟩
  · rw [List.take_append_drop, List.take_append_drop]
  · rw [List.getElem?_take] at hi
    split at hi
    · have := (h i hi).1
      omega
    · cases hi
  · rw [List.getElem?_drop, List.getElem?_drop] at hi
    have := (h _ hi).2
    omega

theorem remainder_burst (hp : p.msb = true) (hc : true ∈ l) (h : Within w l) : remainder p 0#w l ≠ 0#w := by
  obtain ⟨a, b, m, rfl, ha, hb, hd⟩ := h.split
  have hbt : true ∈ b := by
    rw [List.mem_append, List.mem_append] at hc
    rcases hc with hm | hm | hm
    · obtain ⟨i, hi⟩ := List.mem_iff_getElem?.mp hm
      exact absurd hi (ha i)
    · exact hm
    · obtain ⟨i, hi⟩ := List.mem_iff_getElem?.mp hm
      exact absurd hi (hd i)
  have hfix : (shift p)^[a.length] 0#w = 0#w := Function.iterate_fixed shift_zero _
  rw [remainder_append, remainder_append, zeros_of_forall ha, remainder_zeros, hfix, remainder_eq hb,
    zeros_of_forall hd, remainder_zeros, BitVec.zero_xor]
  intro h0
  exact word_ne_zero hb hbt (shifts_eq_zero hp (shifts_eq_zero hp h0))

theorem burst_detected {e : List Bool} (hp : p.msb = true) (hlen : l.length = e.length) (he : true ∈ e)
    (h : Within w e) : remainder p s (List.zipWith xor l e) ≠ remainder p s l := by
  intro heq
  have hsum := remainder_xor (p := p) (s := s) (t := 0#w) hlen
  rw [BitVec.xor_zero, heq] at hsum
  refine remainder_burst hp he h ?_
  calc remainder p 0#w e = remainder p s l ^^^ (remainder p s l ^^^ remainder p 0#w e) := by
        rw [← BitVec.xor_assoc, BitVec.xor_self, BitVec.zero_xor]
    _ = 0#w := by rw [← hsum, BitVec.xor_self]

/-! ## The other end -/

/-- One place up; a one that leaves adds the polynomial. -/
def shiftUp (p x : BitVec w) : BitVec w := if x.msb then (x <<< 1) ^^^ p else x <<< 1

theorem reverse_xor : (x ^^^ y).reverse = x.reverse ^^^ y.reverse := by
  apply BitVec.eq_of_getLsbD_eq
  intro i _
  simp only [BitVec.getLsbD_xor, BitVec.getLsbD_reverse, BitVec.getMsbD_xor]

theorem reverse_shiftLeft : (x <<< 1).reverse = x.reverse >>> 1 := by
  apply BitVec.eq_of_getLsbD_eq
  intro i hi
  rw [BitVec.getLsbD_reverse, BitVec.getLsbD_ushiftRight, BitVec.getLsbD_reverse, BitVec.getMsbD_shiftLeft,
    Nat.add_comm]

theorem reverse_shiftUp : (shiftUp p x).reverse = shift p.reverse x.reverse := by
  have hout : x.reverse.getLsbD 0 = x.msb := BitVec.getLsbD_reverse
  rw [shiftUp, shift, hout]
  split
  · rw [reverse_xor, reverse_shiftLeft]
  · exact reverse_shiftLeft

end Lib.Crc
