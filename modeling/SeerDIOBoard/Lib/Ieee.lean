/-
  SeerDIOBoard.Lib.Ieee — binary floating-point numbers, rounded to the nearest, ties to even.

  A value (`Val`) is a rational, an infinity or no number at all. The sign of a zero is left
  out, so a quotient by zero is no number here, and whoever divides has to rule it out. The
  operations on values are exact; `Format.round` brings a value into a format, and an
  operation of the machine is the two together.

  - `nearest_closest`, `nearest_mono`: rounding picks a closest number of the format, and
    keeps the order.
  - `abs_nearest_sub_le`: by how much it moves a number of a given size.
  - `Bounded`: one value is no greater than another wherever that one is finite. The
    operations and rounding keep it (`bounded_round` and the lemmas beside it), so a whole
    computation is bounded by the same computation on the sizes.
  - `AtLeast`: a value from a number on, infinity included.
  - `round_eq_zero_iff`: what is rounded to zero. `round_ofBits`: the value of a bit pattern
    is one of the format.
-/

import Mathlib.Data.Int.Log
import Mathlib.Data.Rat.Floor
import Mathlib.Tactic.FieldSimp
import Mathlib.Tactic.Linarith
import Mathlib.Tactic.NormNum
import Mathlib.Tactic.Positivity
import Mathlib.Tactic.Ring

namespace Lib.Ieee

/-! ## Values -/

inductive Val where
  | fin (q : ℚ)
  | inf (negative : Bool)
  | nan
  deriving DecidableEq

namespace Val

instance : Zero Val := ⟨fin 0⟩

def ofInt (n : Int) : Val := fin n

def neg : Val → Val
  | fin q => fin (-q)
  | inf s => inf (!s)
  | nan => nan

def abs : Val → Val
  | fin q => fin |q|
  | inf _ => inf false
  | nan => nan

def add : Val → Val → Val
  | fin a, fin b => fin (a + b)
  | fin _, inf t => inf t
  | inf s, fin _ => inf s
  | inf s, inf t => if s = t then inf s else nan
  | nan, _ => nan
  | _, nan => nan

def mul : Val → Val → Val
  | fin a, fin b => fin (a * b)
  | fin a, inf t => if a = 0 then nan else inf (decide (a < 0) ^^ t)
  | inf s, fin b => if b = 0 then nan else inf (s ^^ decide (b < 0))
  | inf s, inf t => inf (s ^^ t)
  | nan, _ => nan
  | _, nan => nan

def div : Val → Val → Val
  | fin a, fin b => if b = 0 then nan else fin (a / b)
  | fin _, inf _ => fin 0
  | inf s, fin b => if b = 0 then nan else inf (s ^^ decide (b < 0))
  | inf _, inf _ => nan
  | nan, _ => nan
  | _, nan => nan

instance : Neg Val := ⟨neg⟩
instance : Add Val := ⟨add⟩
instance : Sub Val := ⟨fun a b => add a (neg b)⟩
instance : Mul Val := ⟨mul⟩
instance : Div Val := ⟨div⟩

/-- `<`; nothing is less than `nan`, and `nan` less than nothing. -/
def lt : Val → Val → Bool
  | fin a, fin b => decide (a < b)
  | fin _, inf t => !t
  | inf s, fin _ => s
  | inf s, inf t => s && !t
  | nan, _ => false
  | _, nan => false

/-- `<=`. -/
def le : Val → Val → Bool
  | fin a, fin b => decide (a ≤ b)
  | fin _, inf t => !t
  | inf s, fin _ => s
  | inf s, inf t => s || !t
  | nan, _ => false
  | _, nan => false

end Val

/-! ## Formats -/

/-- The bits of the fraction and of the exponent. -/
structure Format where
  fracBits : Nat
  expBits : Nat
  deriving DecidableEq

def binary32 : Format := ⟨23, 8⟩
def binary64 : Format := ⟨52, 11⟩

/-- The nearest integer, of two the even one. -/
def nearestEven (q : ℚ) : Int :=
  if Int.fract q < 1 / 2 ∨ Int.fract q = 1 / 2 ∧ ⌊q⌋ % 2 = 0 then ⌊q⌋ else ⌊q⌋ + 1

namespace Format

def bias (f : Format) : Int := 2 ^ (f.expBits - 1) - 1

/-- The exponent of the smallest number. -/
def emin (f : Format) : Int := 1 - f.bias - f.fracBits

/-- The exponent of the last place of a number of the size of `q`. -/
def place (f : Format) (q : ℚ) : Int := max (Int.log 2 |q| - f.fracBits) f.emin

def nearest (f : Format) (q : ℚ) : ℚ := nearestEven (q / 2 ^ f.place q) * 2 ^ f.place q

def round (f : Format) : Val → Val
  | .fin q => if (2 : ℚ) ^ (f.bias + 1) ≤ |f.nearest q| then .inf (decide (q < 0)) else .fin (f.nearest q)
  | v => v

/-- The value of a bit pattern. -/
def ofBits (f : Format) (b : Nat) : Val :=
  let frac := b % 2 ^ f.fracBits
  let expo := b / 2 ^ f.fracBits % 2 ^ f.expBits
  let negative := b / 2 ^ (f.fracBits + f.expBits) % 2 = 1
  if expo = 2 ^ f.expBits - 1 then
    if frac = 0 then .inf (decide negative) else .nan
  else
    let size : ℚ := if expo = 0 then frac * 2 ^ f.emin else (2 ^ f.fracBits + frac : Nat) * 2 ^ (f.emin + expo - 1)
    .fin (if negative then -size else size)

/-- The numbers of the format, and those too great for it. -/
def Rep (f : Format) (q : ℚ) : Prop := ∃ m e : Int, |m| ≤ 2 ^ (f.fracBits + 1) ∧ f.emin ≤ e ∧ q = m * 2 ^ e

end Format

/-! ## Rounding to an integer -/

/-- At most a half away, and even where it is a half. -/
def IsNearestEven (q : ℚ) (n : Int) : Prop := |n - q| < 1 / 2 ∨ |n - q| = 1 / 2 ∧ n % 2 = 0

theorem isNearestEven_nearestEven (q : ℚ) : IsNearestEven q (nearestEven q) := by
  have hq := Int.floor_add_fract q
  have hlo := Int.fract_nonneg q
  have hhi := Int.fract_lt_one q
  have hfloor : |(⌊q⌋ : ℚ) - q| = Int.fract q := by
    rw [abs_of_nonpos (by linarith)]
    linarith
  have hnext : |((⌊q⌋ + 1 : Int) : ℚ) - q| = 1 - Int.fract q := by
    push_cast
    rw [abs_of_nonneg (by linarith)]
    linarith
  unfold IsNearestEven nearestEven
  split
  case isTrue h =>
    rw [hfloor]
    exact h
  case isFalse h =>
    simp only [not_or, not_and, not_lt] at h
    rw [hnext]
    rcases lt_or_eq_of_le h.1 with hgt | heq
    · exact .inl (by linarith)
    · have hodd := h.2 heq.symm
      exact .inr ⟨by linarith, by omega⟩

theorem IsNearestEven.le {q : ℚ} {n : Int} (h : IsNearestEven q n) : |n - q| ≤ 1 / 2 := by
  rcases h with h | ⟨h, -⟩
  · exact h.le
  · exact h.le

theorem eq_of_abs_sub_lt {q : ℚ} {n k : Int} (hn : |n - q| < 1 / 2) (hk : |k - q| ≤ 1 / 2) : n = k := by
  rw [abs_lt] at hn
  rw [abs_le] at hk
  have hlt : (n : ℚ) < k + 1 := by linarith
  have hgt : (k : ℚ) < n + 1 := by linarith
  norm_cast at hlt hgt
  omega

theorem IsNearestEven.unique {q : ℚ} {n k : Int} (hn : IsNearestEven q n) (hk : IsNearestEven q k) : n = k := by
  have hnk := hn.le
  have hkn := hk.le
  rcases hn with hn | ⟨-, heven⟩
  · exact eq_of_abs_sub_lt hn hkn
  rcases hk with hk | ⟨-, heven'⟩
  · exact (eq_of_abs_sub_lt hk hnk).symm
  rw [abs_le] at hnk hkn
  have hle : (n : ℚ) ≤ k + 1 := by linarith
  have hge : (k : ℚ) ≤ n + 1 := by linarith
  norm_cast at hle hge
  omega

theorem abs_nearestEven_sub_le (q : ℚ) : |nearestEven q - q| ≤ 1 / 2 := (isNearestEven_nearestEven q).le

theorem nearestEven_intCast (n : Int) : nearestEven n = n :=
  (isNearestEven_nearestEven n).unique (.inl (by simp))

theorem nearestEven_neg (q : ℚ) : nearestEven (-q) = -nearestEven q := by
  refine (isNearestEven_nearestEven (-q)).unique ?_
  have habs : |((-nearestEven q : Int) : ℚ) - -q| = |nearestEven q - q| := by
    rw [← abs_neg]
    push_cast
    ring_nf
  unfold IsNearestEven
  rw [habs, Int.neg_emod_two]
  exact isNearestEven_nearestEven q

/-- No integer is closer. -/
theorem nearestEven_closest (q : ℚ) (n : Int) : |nearestEven q - q| ≤ |n - q| := by
  rcases le_or_gt (1 / 2) |n - q| with h | h
  · exact (abs_nearestEven_sub_le q).trans h
  · rw [(isNearestEven_nearestEven q).unique (.inl h)]

/-! ## Rounding to a format -/

namespace Format

variable (f : Format)

theorem two_zpow_pos (e : Int) : (0 : ℚ) < 2 ^ e := zpow_pos two_pos e

theorem place_neg (q : ℚ) : f.place (-q) = f.place q := by rw [place, abs_neg, place]

theorem nearest_neg (q : ℚ) : f.nearest (-q) = -f.nearest q := by
  unfold nearest
  rw [place_neg, neg_div, nearestEven_neg]
  push_cast
  ring

/-- No multiple of the last place is closer. -/
theorem nearest_closest_mul (q : ℚ) (n : Int) : |f.nearest q - q| ≤ |n * 2 ^ f.place q - q| := by
  have hu := two_zpow_pos (f.place q)
  have hscale : ∀ k : Int, |k * 2 ^ f.place q - q| = |k - q / 2 ^ f.place q| * 2 ^ f.place q := by
    intro k
    rw [← abs_of_pos hu, ← abs_mul, abs_of_pos hu, sub_mul, div_mul_cancel₀ q hu.ne']
  rw [nearest, hscale, hscale]
  exact mul_le_mul_of_nonneg_right (nearestEven_closest _ n) hu.le

/-- Half a place. -/
theorem abs_nearest_sub_le_place (q : ℚ) : |f.nearest q - q| ≤ 2 ^ f.place q / 2 := by
  have hu := two_zpow_pos (f.place q)
  have heq : f.nearest q - q = (nearestEven (q / 2 ^ f.place q) - q / 2 ^ f.place q) * 2 ^ f.place q := by
    rw [nearest, sub_mul, div_mul_cancel₀ q hu.ne']
  rw [heq, abs_mul, abs_of_pos hu]
  have hhalf := mul_le_mul_of_nonneg_right (abs_nearestEven_sub_le (q / 2 ^ f.place q)) hu.le
  linarith

/-- The largest power of two that is no more. -/
theorem zpow_log_le {q : ℚ} (h : q ≠ 0) : (2 : ℚ) ^ Int.log 2 |q| ≤ |q| :=
  Int.zpow_log_le_self (by decide) (abs_pos.mpr h)

theorem nearest_zero : f.nearest 0 = 0 := by
  rw [nearest, zero_div]
  have h : nearestEven 0 = 0 := by exact_mod_cast nearestEven_intCast 0
  rw [h, Int.cast_zero, zero_mul]

theorem lt_zpow_log (q : ℚ) : |q| < (2 : ℚ) ^ (Int.log 2 |q| + 1) := Int.lt_zpow_succ_log_self (by decide) |q|

theorem abs_lt_place (q : ℚ) : |q / 2 ^ f.place q| < 2 ^ (f.fracBits + 1) := by
  have hu := two_zpow_pos (f.place q)
  rw [abs_div, abs_of_pos hu, div_lt_iff₀ hu]
  refine (lt_zpow_log q).trans_le ?_
  rw [← zpow_natCast, ← zpow_add₀ two_ne_zero]
  refine zpow_le_zpow_right₀ one_le_two ?_
  have hle : Int.log 2 |q| - f.fracBits ≤ f.place q := le_max_left _ _
  push_cast
  omega

theorem rep_nearest (q : ℚ) : f.Rep (f.nearest q) := by
  refine ⟨nearestEven (q / 2 ^ f.place q), f.place q, ?_, le_max_right _ _, rfl⟩
  have hlt := abs_lt_place f q
  have hhalf := abs_nearestEven_sub_le (q / 2 ^ f.place q)
  have htri := abs_sub_abs_le_abs_sub (nearestEven (q / 2 ^ f.place q) : ℚ) (q / 2 ^ f.place q)
  have hint : ((|nearestEven (q / 2 ^ f.place q)| : Int) : ℚ) < ((2 ^ (f.fracBits + 1) + 1 : Int) : ℚ) := by
    push_cast
    linarith
  have h := Int.cast_lt.mp hint
  omega

/-- No number of the format is closer. -/
theorem nearest_closest {q r : ℚ} (hr : f.Rep r) : |f.nearest q - q| ≤ |r - q| := by
  obtain ⟨m, e, hm, he, rfl⟩ := hr
  rcases le_or_gt (f.place q) e with hle | hlt
  · -- a multiple of the last place of `q`
    obtain ⟨k, rfl⟩ := Int.le.dest hle
    have hmul : (m : ℚ) * 2 ^ (f.place q + k) = ((m * 2 ^ k : Int) : ℚ) * 2 ^ f.place q := by
      rw [zpow_add₀ two_ne_zero, zpow_natCast]
      push_cast
      ring
    rw [hmul]
    exact f.nearest_closest_mul q _
  · -- no greater than the power of two below `q`, which is such a multiple
    by_cases hq : q = 0
    · rw [hq, nearest_zero, sub_zero, abs_zero]
      exact abs_nonneg _
    have hplace : f.place q = Int.log 2 |q| - f.fracBits := by
      unfold place at hlt ⊢
      omega
    have hpow : ((2 ^ f.fracBits : Int) : ℚ) * 2 ^ f.place q = 2 ^ Int.log 2 |q| := by
      push_cast
      rw [hplace, ← zpow_natCast, ← zpow_add₀ two_ne_zero, add_sub_cancel]
    have hbelow := zpow_log_le hq
    have hr : |(m : ℚ) * 2 ^ e| ≤ 2 ^ Int.log 2 |q| := by
      rw [abs_mul, abs_of_pos (two_zpow_pos e)]
      have hm' : |(m : ℚ)| ≤ 2 ^ ((f.fracBits : Int) + 1) := by exact_mod_cast hm
      refine (mul_le_mul_of_nonneg_right hm' (two_zpow_pos e).le).trans ?_
      rw [← zpow_add₀ two_ne_zero]
      exact zpow_le_zpow_right₀ one_le_two (by omega)
    rw [abs_le] at hr
    rcases lt_or_gt_of_ne hq with hneg | hpos
    · refine (f.nearest_closest_mul q (-2 ^ f.fracBits)).trans ?_
      rw [abs_of_neg hneg] at hbelow hr hpow
      rw [Int.cast_neg, neg_mul, hpow, abs_of_nonneg (by linarith)]
      exact le_trans (by linarith) (le_abs_self _)
    · refine (f.nearest_closest_mul q (2 ^ f.fracBits)).trans ?_
      rw [abs_of_pos hpos] at hbelow hr hpow
      rw [hpow, abs_of_nonpos (by linarith), abs_sub_comm]
      exact le_trans (by linarith) (le_abs_self _)

theorem nearest_of_rep {q : ℚ} (h : f.Rep q) : f.nearest q = q := by
  have hle : |f.nearest q - q| ≤ |q - q| := f.nearest_closest h
  rw [sub_self, abs_zero, abs_nonpos_iff, sub_eq_zero] at hle
  exact hle

theorem nearest_mono {q r : ℚ} (h : q ≤ r) : f.nearest q ≤ f.nearest r := by
  by_contra hgt
  rw [not_le] at hgt
  have hq : |f.nearest q - q| ≤ |f.nearest r - q| := f.nearest_closest (f.rep_nearest r)
  have hr : |f.nearest r - r| ≤ |f.nearest q - r| := f.nearest_closest (f.rep_nearest q)
  -- neither is on its own side of the midpoint, so they are equal
  have hmid : q = r := by
    rw [← sq_le_sq] at hq hr
    nlinarith
  rw [hmid] at hgt
  exact lt_irrefl _ hgt

theorem le_nearest_of_rep {q r : ℚ} (hr : f.Rep r) (h : r ≤ q) : r ≤ f.nearest q :=
  (f.nearest_of_rep hr).symm.trans_le (f.nearest_mono h)

theorem nearest_nonneg {q : ℚ} (h : 0 ≤ q) : 0 ≤ f.nearest q := f.nearest_zero.symm.trans_le (f.nearest_mono h)

theorem abs_nearest (q : ℚ) : |f.nearest q| = f.nearest |q| := by
  rcases le_total 0 q with h | h
  · rw [abs_of_nonneg h, abs_of_nonneg (f.nearest_nonneg h)]
  · have hneg := f.nearest_nonneg (neg_nonneg.mpr h)
    rw [nearest_neg] at hneg
    rw [abs_of_nonpos h, nearest_neg, abs_of_nonpos (neg_nonneg.mp hneg)]

theorem abs_nearest_le {q r : ℚ} (h : |q| ≤ r) : |f.nearest q| ≤ f.nearest r := by
  rw [abs_nearest]
  exact f.nearest_mono h

/-- How far a number below a power of two is moved. -/
theorem abs_nearest_sub_le {q : ℚ} {k : Int} (hk : f.emin + f.fracBits < k) (h : |q| < 2 ^ k) :
    |f.nearest q - q| ≤ 2 ^ (k - 1 - f.fracBits) / 2 := by
  by_cases hq : q = 0
  · rw [hq, nearest_zero, sub_zero, abs_zero]
    exact (half_pos (two_zpow_pos _)).le
  refine (f.abs_nearest_sub_le_place q).trans (div_le_div_of_nonneg_right ?_ zero_le_two)
  refine zpow_le_zpow_right₀ one_le_two ?_
  have hlog : Int.log 2 |q| < k := (zpow_lt_zpow_iff_right₀ one_lt_two).mp ((zpow_log_le hq).trans_lt h)
  unfold place
  omega

theorem round_fin {q : ℚ} (h : |f.nearest q| < 2 ^ (f.bias + 1)) : f.round (.fin q) = .fin (f.nearest q) :=
  if_neg (not_le.mpr h)

theorem round_eq_fin {v : Val} {y : ℚ} (h : f.round v = .fin y) :
    ∃ q, v = .fin q ∧ f.nearest q = y ∧ |y| < 2 ^ (f.bias + 1) := by
  cases v with
  | fin q =>
    unfold round at h
    dsimp only at h
    split at h
    case isTrue => cases h
    case isFalse hlt =>
      cases h
      exact ⟨q, rfl, rfl, not_le.mp hlt⟩
  | inf s => cases h
  | nan => cases h

theorem rep_of_round {v : Val} {y : ℚ} (h : f.round v = .fin y) : f.Rep y := by
  obtain ⟨q, -, rfl, -⟩ := f.round_eq_fin h
  exact f.rep_nearest q

end Format

/-! ## Signs -/

namespace Val

@[simp] theorem neg_fin (q : ℚ) : -fin q = fin (-q) := rfl
@[simp] theorem neg_inf (s : Bool) : -inf s = inf (!s) := rfl
@[simp] theorem neg_nan : -nan = nan := rfl
@[simp] theorem fin_add (a b : ℚ) : fin a + fin b = fin (a + b) := rfl
@[simp] theorem fin_sub (a b : ℚ) : fin a - fin b = fin (a - b) := by rw [sub_eq_add_neg]; rfl
@[simp] theorem fin_mul (a b : ℚ) : fin a * fin b = fin (a * b) := rfl

theorem fin_div (a : ℚ) {b : ℚ} (hb : b ≠ 0) : fin a / fin b = fin (a / b) := if_neg hb

protected theorem neg_neg (a : Val) : - -a = a := by
  cases a with
  | fin q => simp
  | inf s => simp
  | nan => rfl

protected theorem zero_add (a : Val) : 0 + a = a := by
  cases a with
  | fin q => exact congrArg fin (zero_add q)
  | inf s => rfl
  | nan => rfl

protected theorem neg_one_mul (a : Val) : ofInt (-1) * a = -a := by
  cases a with
  | fin q =>
    show fin (((-1 : Int) : ℚ) * q) = fin (-q)
    push_cast
    ring_nf
  | inf s =>
    show (if ((-1 : Int) : ℚ) = 0 then nan else inf (decide (((-1 : Int) : ℚ) < 0) ^^ s)) = inf (!s)
    rw [if_neg (by norm_num), decide_eq_true (by norm_num), Bool.true_xor]
  | nan => rfl

@[simp] protected theorem neg_eq_zero {a : Val} : -a = 0 ↔ a = 0 := by
  cases a with
  | fin q =>
    show fin (-q) = fin 0 ↔ fin q = fin 0
    rw [fin.injEq, fin.injEq, neg_eq_zero]
  | inf s => exact iff_of_false (fun h => by cases h) (fun h => by cases h)
  | nan => exact Iff.rfl

theorem neg_add_fin (a : Val) (d : ℚ) : -(a + fin d) = -a - fin d := by
  cases a with
  | fin q => simp [sub_eq_add_neg, add_comm]
  | inf s => rfl
  | nan => rfl

theorem decide_pos {q : ℚ} (h : q ≠ 0) : decide (0 < q) = !decide (q < 0) := by
  rcases lt_or_gt_of_ne h with hneg | hpos
  · simp [hneg, hneg.le]
  · simp [hpos, hpos.le]

protected theorem neg_mul (a b : Val) : -a * b = -(a * b) := by
  cases a with
  | fin p =>
    cases b with
    | fin q => simp
    | inf t =>
      show mul (fin (-p)) (inf t) = neg (mul (fin p) (inf t))
      by_cases hp : p = 0
      · simp [mul, neg, hp]
      · simp [mul, neg, hp, decide_pos hp]
    | nan => rfl
  | inf s =>
    cases b with
    | fin q =>
      show mul (inf !s) (fin q) = neg (mul (inf s) (fin q))
      by_cases hq : q = 0
      · simp [mul, neg, hq]
      · simp [mul, neg, hq]
    | inf t => cases s <;> cases t <;> rfl
    | nan => rfl
  | nan => cases b <;> rfl

protected theorem mul_comm (a b : Val) : a * b = b * a := by
  cases a with
  | fin p =>
    cases b with
    | fin q => exact congrArg fin (Rat.mul_comm p q)
    | inf t =>
      show mul (fin p) (inf t) = mul (inf t) (fin p)
      simp only [mul, Bool.xor_comm]
    | nan => rfl
  | inf s =>
    cases b with
    | fin q =>
      show mul (inf s) (fin q) = mul (fin q) (inf s)
      simp only [mul, Bool.xor_comm]
    | inf t => exact congrArg inf (Bool.xor_comm s t)
    | nan => rfl
  | nan => cases b <;> rfl

protected theorem mul_neg (a b : Val) : a * -b = -(a * b) := by rw [Val.mul_comm, Val.neg_mul, Val.mul_comm]

protected theorem one_mul (a : Val) : ofInt 1 * a = a := by
  rw [show ofInt 1 = -ofInt (-1) from congrArg fin (by norm_num), Val.neg_mul, Val.neg_one_mul, Val.neg_neg]

protected theorem neg_div (a b : Val) : -a / b = -(a / b) := by
  cases a with
  | fin p =>
    cases b with
    | fin q =>
      by_cases hq : q = 0
      · subst hq
        rfl
      · rw [neg_fin, fin_div _ hq, fin_div _ hq, neg_fin, neg_div]
    | inf t => exact congrArg fin neg_zero.symm
    | nan => rfl
  | inf s =>
    cases b with
    | fin q =>
      show div (inf !s) (fin q) = neg (div (inf s) (fin q))
      by_cases hq : q = 0
      · simp [div, neg, hq]
      · simp [div, neg, hq]
    | inf t => rfl
    | nan => rfl
  | nan => cases b <;> rfl

protected theorem div_neg (a b : Val) : a / -b = -(a / b) := by
  cases a with
  | fin p =>
    cases b with
    | fin q =>
      by_cases hq : q = 0
      · subst hq
        rfl
      · rw [neg_fin, fin_div _ hq, fin_div _ (neg_ne_zero.mpr hq), neg_fin, div_neg]
    | inf t => exact congrArg fin neg_zero.symm
    | nan => rfl
  | inf s =>
    cases b with
    | fin q =>
      show div (inf s) (fin (-q)) = neg (div (inf s) (fin q))
      by_cases hq : q = 0
      · simp [div, neg, hq]
      · simp [div, neg, hq, decide_pos hq]
    | inf t => rfl
    | nan => rfl
  | nan => cases b <;> rfl

/-- A value is its size or the negative of it. -/
theorem eq_abs_or (a : Val) : a = abs a ∨ a = -abs a := by
  cases a with
  | fin q =>
    rcases le_total 0 q with h | h
    · exact .inl (congrArg fin (abs_of_nonneg h).symm)
    · refine .inr (congrArg fin ?_)
      rw [abs_of_nonpos h, neg_neg]
  | inf s =>
    cases s with
    | false => exact .inl rfl
    | true => exact .inr rfl
  | nan => exact .inl rfl

end Val

theorem Format.round_neg (f : Format) (v : Val) : f.round (-v) = -f.round v := by
  cases v with
  | fin q =>
    by_cases h : (2 : ℚ) ^ (f.bias + 1) ≤ |f.nearest q|
    · have hq : q ≠ 0 := by
        rintro rfl
        rw [nearest_zero, abs_zero] at h
        exact absurd h (not_le.mpr (two_zpow_pos _))
      have hneg : (2 : ℚ) ^ (f.bias + 1) ≤ |f.nearest (-q)| := by
        rw [nearest_neg, abs_neg]
        exact h
      show (if _ then _ else _) = Val.neg (if _ then _ else _)
      rw [if_pos h, if_pos hneg]
      simp [Val.neg, Val.decide_pos hq]
    · have hneg : |f.nearest (-q)| < 2 ^ (f.bias + 1) := by
        rw [nearest_neg, abs_neg]
        exact not_le.mp h
      rw [Val.neg_fin, f.round_fin hneg, f.round_fin (not_le.mp h), nearest_neg, Val.neg_fin]
  | inf s => rfl
  | nan => rfl

/-! ## The order -/

namespace Val

theorem lt_nan (a : Val) : lt a nan = false := by cases a <;> rfl

/-- What exceeds a value that is not below `q` exceeds `q`. -/
theorem lt_of_not_lt {a b : Val} {q : ℚ} (h : lt a (fin q) = false) (hab : lt a b = true) : lt (fin q) b = true := by
  cases b with
  | fin r =>
    cases a with
    | fin p =>
      have hle : q ≤ p := not_lt.mp (of_decide_eq_false h)
      exact decide_eq_true (hle.trans_lt (of_decide_eq_true hab))
    | inf s => exact absurd (hab.symm.trans h) (by decide)
    | nan => cases hab
  | inf t =>
    cases a with
    | fin p => exact hab
    | inf s =>
      cases s with
      | false => cases hab
      | true => cases h
    | nan => cases hab
  | nan =>
    rw [lt_nan] at hab
    cases hab

/-- The negative of a value that is neither positive nor zero; `a` rules out `nan`. -/
theorem neg_pos_of_not_pos {a b : Val} (h : ¬ lt 0 b = true) (hb : b ≠ 0) (hab : lt a (-b) = true) : lt 0 (-b) = true := by
  cases b with
  | fin q =>
    have hle : q ≤ 0 := not_lt.mp fun hq => h (decide_eq_true hq)
    have hne : q ≠ 0 := fun hq => hb (congrArg fin hq)
    exact decide_eq_true (neg_pos.mpr (lt_of_le_of_ne hle hne))
  | inf s =>
    cases s with
    | false => exact absurd rfl h
    | true => rfl
  | nan =>
    rw [neg_nan, lt_nan] at hab
    cases hab

theorem ne_zero_of_pos {a : Val} (h : lt 0 a = true) : a ≠ 0 := by
  rintro rfl
  exact absurd h (by decide)

end Val

/-! ## Sizes -/

/-- Wherever `b` is finite, `a` is finite and no greater. -/
def Bounded (a b : Val) : Prop := ∀ y, b = .fin y → ∃ x, a = .fin x ∧ |x| ≤ y

theorem bounded_fin {q r : ℚ} (h : |q| ≤ r) : Bounded (.fin q) (.fin r) := by
  intro y hy
  cases hy
  exact ⟨q, rfl, h⟩

theorem bounded_round (f : Format) {a b : Val} (h : Bounded a b) : Bounded (f.round a) (f.round b) := by
  intro y hy
  obtain ⟨q, rfl, rfl, hlt⟩ := f.round_eq_fin hy
  obtain ⟨x, rfl, hx⟩ := h q rfl
  have hle := f.abs_nearest_le hx
  exact ⟨f.nearest x, f.round_fin ((hle.trans (le_abs_self _)).trans_lt hlt), hle⟩

theorem bounded_mul {a b : Val} (h : Bounded a b) (c : Val) : Bounded (a * c) (b * c.abs) := by
  intro y hy
  cases b with
  | fin q =>
    obtain ⟨x, rfl, hx⟩ := h q rfl
    cases c with
    | fin r =>
      cases hy
      refine ⟨x * r, rfl, ?_⟩
      rw [abs_mul]
      exact mul_le_mul_of_nonneg_right hx (abs_nonneg r)
    | inf t =>
      change (if q = 0 then Val.nan else _) = _ at hy
      split at hy <;> cases hy
    | nan => cases hy
  | inf s =>
    cases c with
    | fin r =>
      change (if |r| = 0 then Val.nan else _) = _ at hy
      split at hy <;> cases hy
    | inf t => cases hy
    | nan => cases hy
  | nan => cases c <;> cases hy

theorem bounded_div {a b : Val} (h : Bounded a b) (c : Val) : Bounded (a / c) (b / c.abs) := by
  intro y hy
  cases b with
  | fin q =>
    obtain ⟨x, rfl, hx⟩ := h q rfl
    cases c with
    | fin r =>
      by_cases hr : r = 0
      · subst hr
        cases hy
      rw [Val.abs, Val.fin_div q (abs_ne_zero.mpr hr)] at hy
      cases hy
      refine ⟨x / r, Val.fin_div x hr, ?_⟩
      rw [abs_div]
      exact div_le_div_of_nonneg_right hx (abs_nonneg r)
    | inf t =>
      cases hy
      exact ⟨0, rfl, abs_zero.le⟩
    | nan => cases hy
  | inf s =>
    cases c with
    | fin r =>
      change (if |r| = 0 then Val.nan else _) = _ at hy
      split at hy <;> cases hy
    | inf t => cases hy
    | nan => cases hy
  | nan => cases c <;> cases hy

theorem fin_of_add {a b : Val} {y : ℚ} (h : a + b = .fin y) : ∃ p q, a = .fin p ∧ b = .fin q ∧ p + q = y := by
  cases a with
  | fin p =>
    cases b with
    | fin q =>
      cases h
      exact ⟨p, q, rfl, rfl, rfl⟩
    | inf t => cases h
    | nan => cases h
  | inf s =>
    cases b with
    | fin q => cases h
    | inf t =>
      change (if s = t then Val.inf s else .nan) = _ at h
      split at h <;> cases h
    | nan => cases h
  | nan => cases b <;> cases h

theorem bounded_sub {a b a' b' : Val} (h : Bounded a b) (h' : Bounded a' b') : Bounded (a - a') (b + b') := by
  intro y hy
  obtain ⟨p, q, rfl, rfl, rfl⟩ := fin_of_add hy
  obtain ⟨x, rfl, hx⟩ := h p rfl
  obtain ⟨x', rfl, hx'⟩ := h' q rfl
  refine ⟨x - x', Val.fin_sub x x', ?_⟩
  exact (abs_sub x x').trans (add_le_add hx hx')

/-! ## Finite values -/

namespace Val

/-- Finite, and no greater than `r`. -/
def Within (r : ℚ) : Val → Prop
  | fin q => |q| ≤ r
  | _ => False

def IsFin : Val → Prop
  | fin _ => True
  | _ => False

/-- From `c` on, the infinity included. -/
def AtLeast (c : ℚ) : Val → Prop
  | fin q => c ≤ q
  | inf s => s = false
  | nan => False

instance (r : ℚ) : (a : Val) → Decidable (a.Within r)
  | fin q => inferInstanceAs (Decidable (|q| ≤ r))
  | inf _ => .isFalse id
  | nan => .isFalse id

instance : (a : Val) → Decidable a.IsFin
  | fin _ => .isTrue trivial
  | inf _ => .isFalse id
  | nan => .isFalse id

theorem exists_of_isFin {a : Val} (h : a.IsFin) : ∃ q, a = fin q := by
  cases a with
  | fin q => exact ⟨q, rfl⟩
  | inf s => exact h.elim
  | nan => exact h.elim

end Val

theorem Bounded.within {a b : Val} {r : ℚ} (h : Bounded a b) (hb : b.Within r) : a.Within r := by
  cases b with
  | fin y =>
    obtain ⟨x, rfl, hx⟩ := h y rfl
    exact hx.trans ((le_abs_self y).trans hb)
  | inf s => exact hb.elim
  | nan => exact hb.elim

namespace Val

theorem Within.isFin {a : Val} {r : ℚ} (h : a.Within r) : a.IsFin := by
  cases a with
  | fin q => trivial
  | inf s => exact h
  | nan => exact h

theorem within_neg {a : Val} {r : ℚ} : (-a).Within r ↔ a.Within r := by
  cases a with
  | fin q =>
    show |-q| ≤ r ↔ |q| ≤ r
    rw [abs_neg]
  | inf s => exact Iff.rfl
  | nan => exact Iff.rfl

theorem isFin_of_abs {a : Val} (h : (abs a).IsFin) : a.IsFin := by
  cases a with
  | fin q => trivial
  | inf s => exact h
  | nan => exact h

theorem isFin_of_add {a b : Val} (h : (a + b).IsFin) : a.IsFin ∧ b.IsFin := by
  obtain ⟨y, hy⟩ := exists_of_isFin h
  obtain ⟨p, q, rfl, rfl, -⟩ := fin_of_add hy
  exact ⟨trivial, trivial⟩

theorem isFin_of_sub {a b : Val} (h : (a - b).IsFin) : a.IsFin ∧ b.IsFin := by
  obtain ⟨ha, hb⟩ := isFin_of_add (b := -b) h
  refine ⟨ha, ?_⟩
  cases b with
  | fin q => trivial
  | inf s => exact hb
  | nan => exact hb

theorem isFin_of_mul {a b : Val} (h : (a * b).IsFin) : a.IsFin ∧ b.IsFin := by
  cases a with
  | fin p =>
    cases b with
    | fin q => exact ⟨trivial, trivial⟩
    | inf t =>
      change (if p = 0 then nan else _).IsFin at h
      split at h
      · exact h.elim
      · exact h.elim
    | nan => exact h.elim
  | inf s =>
    cases b with
    | fin q =>
      change (if q = 0 then nan else _).IsFin at h
      split at h
      · exact h.elim
      · exact h.elim
    | inf t => exact h.elim
    | nan => exact h.elim
  | nan => cases b <;> exact h.elim

/-- The divisor of a finite quotient may be infinite. -/
theorem isFin_of_div {a b : Val} (h : (a / b).IsFin) : a.IsFin := by
  cases a with
  | fin p => trivial
  | inf s =>
    cases b with
    | fin q =>
      change (if q = 0 then nan else _).IsFin at h
      split at h
      · exact h.elim
      · exact h.elim
    | inf t => exact h.elim
    | nan => exact h.elim
  | nan => cases b <;> exact h.elim

end Val

namespace Format

variable (f : Format)

theorem isFin_of_round {v : Val} (h : (f.round v).IsFin) : v.IsFin := by
  cases v with
  | fin q => trivial
  | inf s => exact h
  | nan => exact h

/-- A value of the format stays as it is. -/
theorem round_round (v : Val) : f.round (f.round v) = f.round v := by
  cases v with
  | fin q =>
    by_cases h : |f.nearest q| < 2 ^ (f.bias + 1)
    · rw [f.round_fin h, f.round_fin (by rwa [f.nearest_of_rep (f.rep_nearest q)]), f.nearest_of_rep (f.rep_nearest q)]
    · have hinf : f.round (.fin q) = .inf (decide (q < 0)) := if_pos (not_lt.mp h)
      rw [hinf]
      rfl
  | inf s => rfl
  | nan => rfl

theorem nearest_eq_zero_iff {q : ℚ} : f.nearest q = 0 ↔ |q| ≤ 2 ^ (f.emin - 1) := by
  have hhalf : (2 : ℚ) ^ f.emin = 2 * 2 ^ (f.emin - 1) := by
    rw [← zpow_one_add₀ two_ne_zero, add_sub_cancel]
  have hpos := two_zpow_pos (f.emin - 1)
  constructor
  · intro h
    -- the smallest number of the sign of `q` would be closer than zero
    have hsmall : ∀ m : Int, |m| ≤ 1 → |q| ≤ |m * 2 ^ f.emin - q| := by
      intro m hm
      have hrep : f.Rep (m * 2 ^ f.emin) := ⟨m, f.emin, hm.trans (one_le_pow₀ one_le_two), le_rfl, rfl⟩
      have hle : |f.nearest q - q| ≤ |m * 2 ^ f.emin - q| := f.nearest_closest hrep
      rwa [h, zero_sub, abs_neg] at hle
    by_contra hgt
    rw [not_le] at hgt
    rcases le_total 0 q with hq | hq
    · have hle := hsmall 1 (by decide)
      rw [abs_of_nonneg hq] at hle hgt
      rw [Int.cast_one, one_mul, hhalf, le_abs] at hle
      rcases hle with hle | hle <;> linarith
    · have hle := hsmall (-1) (by decide)
      rw [abs_of_nonpos hq] at hle hgt
      rw [Int.cast_neg, Int.cast_one, neg_one_mul, hhalf, le_abs] at hle
      rcases hle with hle | hle <;> linarith
  · intro h
    have hle : |f.nearest q| ≤ f.nearest (2 ^ (f.emin - 1)) := f.abs_nearest_le h
    have hplace : f.place (2 ^ (f.emin - 1)) = f.emin := by
      have hlog : Int.log 2 |(2 : ℚ) ^ (f.emin - 1)| = f.emin - 1 := by
        rw [abs_of_pos hpos]
        exact_mod_cast Int.log_zpow (R := ℚ) (b := 2) (by decide) (f.emin - 1)
      unfold place
      rw [hlog]
      omega
    have hzero : f.nearest (2 ^ (f.emin - 1)) = 0 := by
      have hquot : (2 : ℚ) ^ (f.emin - 1) / 2 ^ f.emin = 1 / 2 := by
        rw [hhalf]
        field_simp
      have heven : nearestEven (1 / 2) = 0 := by decide +kernel
      rw [nearest, hplace, hquot, heven, Int.cast_zero, zero_mul]
    rw [hzero] at hle
    exact abs_nonpos_iff.mp hle

theorem round_eq_zero_iff {v : Val} : f.round v = .fin 0 ↔ v.Within (2 ^ (f.emin - 1)) := by
  cases v with
  | fin q =>
    constructor
    · intro h
      obtain ⟨_, hq, hzero, -⟩ := f.round_eq_fin h
      cases hq
      exact f.nearest_eq_zero_iff.mp hzero
    · intro h
      have hzero := f.nearest_eq_zero_iff.mpr h
      rw [f.round_fin (by rw [hzero, abs_zero]; exact two_zpow_pos _), hzero]
  | inf s => exact iff_of_false (fun h => by cases h) id
  | nan => exact iff_of_false (fun h => by cases h) id

theorem within_round_of_rep {v : Val} {r : ℚ} (hrep : f.Rep r) (hlt : r < 2 ^ (f.bias + 1)) (h : v.Within r) :
    (f.round v).Within r := by
  cases v with
  | fin q =>
    have hle : |f.nearest q| ≤ r := (f.abs_nearest_le h).trans_eq (f.nearest_of_rep hrep)
    rw [f.round_fin (hle.trans_lt hlt)]
    exact hle
  | inf s => exact h
  | nan => exact h

/-- From a power of two on, a number of the format is a multiple of that power's last place. -/
theorem Rep.multiple {f : Format} {q : ℚ} (h : f.Rep q) {k : Int} (hk : 2 ^ k ≤ |q|) :
    ∃ n : Int, q = n * 2 ^ (k - f.fracBits) := by
  have hq : q ≠ 0 := abs_pos.mp ((two_zpow_pos k).trans_le hk)
  have hlog : k ≤ Int.log 2 |q| := by
    have hlt := (zpow_lt_zpow_iff_right₀ one_lt_two).mp (hk.trans_lt (lt_zpow_log q))
    omega
  obtain ⟨d, hd⟩ := Int.le.dest (show k - f.fracBits ≤ f.place q by unfold place; omega)
  obtain ⟨n, hn⟩ : ∃ n : Int, q = n * 2 ^ f.place q := ⟨_, (f.nearest_of_rep h).symm⟩
  refine ⟨n * 2 ^ d, hn.trans ?_⟩
  rw [← hd, zpow_add₀ two_ne_zero, zpow_natCast]
  push_cast
  ring

theorem Rep.multiple_min {f : Format} {q : ℚ} (h : f.Rep q) : ∃ n : Int, q = n * 2 ^ f.emin := by
  obtain ⟨m, e, -, he, rfl⟩ := h
  obtain ⟨d, rfl⟩ := Int.le.dest he
  refine ⟨m * 2 ^ d, ?_⟩
  rw [zpow_add₀ two_ne_zero, zpow_natCast]
  push_cast
  ring

end Format

/-! ## Values from a number on -/

namespace Val

theorem AtLeast.mono {a : Val} {c d : ℚ} (h : a.AtLeast c) (hd : d ≤ c) : a.AtLeast d := by
  cases a with
  | fin q => exact hd.trans h
  | inf s => exact h
  | nan => exact h

theorem AtLeast.pos {a : Val} {c : ℚ} (h : a.AtLeast c) (hc : 0 < c) : lt 0 a = true := by
  cases a with
  | fin q => exact decide_eq_true (hc.trans_le h)
  | inf s => exact congrArg (!·) h
  | nan => exact h.elim

theorem AtLeast.mul {a b : Val} {c d : ℚ} (ha : a.AtLeast c) (hb : b.AtLeast d) (hc : 0 < c) (hd : 0 < d) :
    (a * b).AtLeast (c * d) := by
  cases a with
  | fin p =>
    have hp : 0 < p := hc.trans_le ha
    cases b with
    | fin q => exact mul_le_mul ha hb hd.le hp.le
    | inf t =>
      change AtLeast _ (if p = 0 then nan else _)
      rw [if_neg hp.ne', decide_eq_false hp.not_gt, Bool.false_xor]
      exact hb
    | nan => exact hb.elim
  | inf s =>
    cases b with
    | fin q =>
      have hq : 0 < q := hd.trans_le hb
      change AtLeast _ (if q = 0 then nan else _)
      rw [if_neg hq.ne', decide_eq_false hq.not_gt, Bool.xor_false]
      exact ha
    | inf t =>
      change (s ^^ t) = false
      rw [show s = false from ha, show t = false from hb]
      rfl
    | nan => exact hb.elim
  | nan => exact ha.elim

theorem AtLeast.div {a : Val} {c d : ℚ} (ha : a.AtLeast c) (hd : 0 < d) : (a / fin d).AtLeast (c / d) := by
  cases a with
  | fin p =>
    rw [fin_div p hd.ne']
    exact div_le_div_of_nonneg_right ha hd.le
  | inf s =>
    change AtLeast _ (if d = 0 then nan else _)
    rw [if_neg hd.ne', decide_eq_false hd.not_gt, Bool.xor_false]
    exact ha
  | nan => exact ha.elim

theorem AtLeast.sub {a : Val} {c : ℚ} (ha : a.AtLeast c) (d : ℚ) : (a - fin d).AtLeast (c - d) := by
  cases a with
  | fin p =>
    rw [fin_sub]
    exact sub_le_sub_right ha d
  | inf s => exact ha
  | nan => exact ha.elim

end Val

theorem Format.atLeast_round (f : Format) {a : Val} {c : ℚ} (h : a.AtLeast c) (hc : 0 ≤ c) :
    (f.round a).AtLeast (f.nearest c) := by
  cases a with
  | fin q =>
    unfold round
    dsimp only
    split
    case isTrue => exact decide_eq_false (not_lt.mpr (hc.trans h))
    case isFalse => exact f.nearest_mono h
  | inf s => exact h
  | nan => exact h

theorem Format.atLeast_round_of_rep (f : Format) {a : Val} {c : ℚ} (hrep : f.Rep c) (h : a.AtLeast c) (hc : 0 ≤ c) :
    (f.round a).AtLeast c := by
  have hround := f.atLeast_round h hc
  rwa [f.nearest_of_rep hrep] at hround

/-! ## Bit patterns -/

namespace Format

variable (f : Format)

/-- A number of the format that is not too great is a value of it. -/
theorem round_of_rep {q : ℚ} (h : f.Rep q) (hlt : |q| < 2 ^ (f.bias + 1)) : f.round (.fin q) = .fin q := by
  rw [f.round_fin (by rwa [f.nearest_of_rep h]), f.nearest_of_rep h]

theorem round_ne_nan (q : ℚ) : f.round (.fin q) ≠ .nan := by
  unfold round
  dsimp only
  split
  · exact fun h => by cases h
  · exact fun h => by cases h

/-- A value of a format is one of a wider format too. -/
theorem round_round_of_le {f g : Format} (hfrac : f.fracBits ≤ g.fracBits) (hmin : g.emin ≤ f.emin) (hbias : f.bias ≤ g.bias)
    (v : Val) : g.round (f.round v) = f.round v := by
  generalize hr : f.round v = r
  cases r with
  | fin q =>
    obtain ⟨_, -, -, hlt⟩ := f.round_eq_fin hr
    obtain ⟨m, e, hm, he, hq⟩ := f.rep_of_round hr
    have hrep : g.Rep q := ⟨m, e, hm.trans (pow_le_pow_right₀ one_le_two (by omega)), hmin.trans he, hq⟩
    exact g.round_of_rep hrep (hlt.trans_le (zpow_le_zpow_right₀ one_le_two (by omega)))
  | inf s => rfl
  | nan => rfl

theorem two_pow_expBits (hexp : 1 < f.expBits) : (2 : Int) ^ f.expBits = 2 * (f.bias + 1) := by
  obtain ⟨k, hk⟩ := Nat.exists_eq_succ_of_ne_zero (Nat.ne_zero_of_lt hexp)
  rw [bias, hk]
  show (2 : Int) ^ (k + 1) = 2 * (2 ^ k - 1 + 1)
  ring

theorem bias_pos (hexp : 1 < f.expBits) : 0 < f.bias := by
  have htwo : (1 : Int) < 2 ^ (f.expBits - 1) := one_lt_pow₀ one_lt_two (by omega)
  unfold bias
  omega

theorem round_size {m : Nat} {e : Int} (hm : m < 2 ^ (f.fracBits + 1)) (he : f.emin ≤ e) (hle : e + f.fracBits ≤ f.bias)
    (negative : Prop) [Decidable negative] :
    f.round (.fin (if negative then -((m : ℚ) * 2 ^ e) else m * 2 ^ e)) =
      .fin (if negative then -((m : ℚ) * 2 ^ e) else m * 2 ^ e) := by
  have hrep : f.Rep (m * 2 ^ e) := ⟨m, e, by rw [Nat.abs_cast]; exact_mod_cast hm.le, he, by push_cast; rfl⟩
  have hlt : |(m : ℚ) * 2 ^ e| < 2 ^ (f.bias + 1) := by
    have hcast : (m : ℚ) < 2 ^ ((f.fracBits : Int) + 1) := by exact_mod_cast hm
    rw [abs_of_nonneg (mul_nonneg (Nat.cast_nonneg m) (two_zpow_pos e).le)]
    refine (mul_lt_mul_of_pos_right hcast (two_zpow_pos e)).trans_le ?_
    rw [← zpow_add₀ two_ne_zero]
    exact zpow_le_zpow_right₀ one_le_two (by omega)
  have hpos := f.round_of_rep hrep hlt
  split
  · rw [← Val.neg_fin, f.round_neg, hpos]
  · exact hpos

theorem round_ofBits (hexp : 1 < f.expBits) (b : Nat) : f.round (f.ofBits b) = f.ofBits b := by
  have hfrac : b % 2 ^ f.fracBits < 2 ^ f.fracBits := Nat.mod_lt _ (by positivity)
  have hexpo : b / 2 ^ f.fracBits % 2 ^ f.expBits < 2 ^ f.expBits := Nat.mod_lt _ (by positivity)
  have htwo := f.two_pow_expBits hexp
  have hbias := f.bias_pos hexp
  unfold ofBits
  generalize b % 2 ^ f.fracBits = frac at hfrac ⊢
  generalize b / 2 ^ f.fracBits % 2 ^ f.expBits = expo at hexpo ⊢
  dsimp only
  split
  case isTrue =>
    split
    · rfl
    · rfl
  case isFalse htop =>
    by_cases hzero : expo = 0
    · have hm : frac < 2 ^ (f.fracBits + 1) := by
        rw [Nat.pow_succ]
        omega
      rw [if_pos hzero]
      exact f.round_size hm le_rfl (by unfold emin; omega) _
    · have hm : 2 ^ f.fracBits + frac < 2 ^ (f.fracBits + 1) := by
        rw [Nat.pow_succ]
        omega
      have hlt : (expo : Int) + 2 ≤ 2 ^ f.expBits := by
        have hcast : ((2 ^ f.expBits : Nat) : Int) = 2 ^ f.expBits := by push_cast; rfl
        omega
      rw [if_neg hzero]
      exact f.round_size hm (by omega) (by unfold emin; omega) _

end Format

end Lib.Ieee
