/-
  SeerDIOBoard.Mileage.Valid — which 0xA005 messages leave parameters that a two-wheeled
  chassis can drive with.

  `Valid` is a condition on the fields of the message and on the scales that were there
  before. `sane_iff_valid`: after an accepted message the parameters are sane exactly when
  it is valid. A distance of the wheels of 500 units of the smallest `float`, and a radius
  of 79, still come out as zero in metres.
-/

import SeerDIOBoard.Mileage.Usable

namespace SeerDIOBoard.Mileage.Floats

open Function (update)
open Lib.Ieee
open SeerDIOBoard.Can

namespace CMileage

/-- The scales after the message; a wheel it does not go over keeps the one it had. -/
def scaleAfter (m : CMileage) (pbMsg : ChassisConfig) (i : Nat) : Val :=
  if m.chassisType ≠ singleSteerPrec ∧ i < pbMsg.driveIDCount then pbMsg.wheelScale i else m.scale i

structure Valid (m : CMileage) (pbMsg : ChassisConfig) : Prop where
  e : ¬ pbMsg.e.Within (1000 / 2 ^ 150)
  encoderLines : toInt32 (pbMsg.encoderLines * 4) ≠ 0
  reductionRatio : pbMsg.reductionRatio ≠ 0
  r : ∀ i, i < 2 →
    if m.chassisType ≠ singleSteerPrec ∧ i < pbMsg.driveIDCount then ¬ (pbMsg.r i).Within (79 / 2 ^ 149)
    else m.scale i ≠ 0
  limit : 0 ≤ pbMsg.motorMaxSpeedRpm * pbMsg.encoderLines ∨ ¬ pbMsg.e.IsFin ∨
    ¬ (single (pbMsg.posReduceRate * .ofInt 10)).IsFin
  turn : (greatestTurn (single (pbMsg.e / .ofInt 1000)) pbMsg.posReduceRate (m.scaleAfter pbMsg)).Within (2 ^ 27)

/-- The object after an accepted message. -/
structure Configured (m : CMileage) (pbMsg : ChassisConfig) (m' : CMileage) : Prop where
  e : m'.e = single (pbMsg.e / .ofInt 1000)
  posReduceRate : m'.posReduceRate = pbMsg.posReduceRate
  velReduceScale : m'.velReduceScale = single (pbMsg.posReduceRate * .ofInt 10)
  motorMaxSpeed : m'.motorMaxSpeed = pbMsg.motorMaxSpeed
  scale : m'.scale = m.scaleAfter pbMsg
  angle : m'.angle = 0
  firstIn : m'.firstIn = true

theorem setWheels_eq (m : CMileage) (pbMsg : ChassisConfig) (n : Nat) :
    m.setWheels pbMsg n = { m with scale := fun i => if i < n then pbMsg.wheelScale i else m.scale i } := by
  induction n with
  | zero => rfl
  | succ n ih =>
    rw [setWheels, ih]
    refine congrArg (fun scale => { m with scale := scale }) (funext fun i => ?_)
    by_cases hi : i = n
    · subst hi
      rw [Function.update_self, if_pos (Nat.lt_succ_self i)]
    · rw [Function.update_of_ne hi]
      exact if_congr (by omega) rfl rfl

theorem configured_of_accepted {hasDriver : Bool} {m m' : CMileage} {pbMsg : Option ChassisConfig}
    (h : initializeParam hasDriver m pbMsg = some (0, m')) : ∃ c, pbMsg = some c ∧ Configured m c m' := by
  cases pbMsg with
  | none => cases h
  | some c =>
    refine ⟨c, rfl, ?_⟩
    unfold initializeParam at h
    dsimp only at h
    split at h
    case isTrue htype =>
      cases h
      exact ⟨rfl, rfl, rfl, rfl, funext fun i => (if_neg fun hi => hi.1 htype.symm).symm, rfl, rfl⟩
    case isFalse htype =>
      split at h
      case isTrue => cases h
      case isFalse =>
        rw [setWheels_eq] at h
        cases h
        refine ⟨rfl, rfl, rfl, rfl, funext fun i => ?_, rfl, rfl⟩
        exact if_congr (iff_and_self.mpr fun _ hm => htype hm.symm) rfl rfl

/-! ## What rounds to zero -/

theorem e_eq_zero_iff (pbMsg : ChassisConfig) : single (pbMsg.e / .ofInt 1000) = 0 ↔ pbMsg.e.Within (1000 / 2 ^ 150) := by
  refine binary32.round_eq_zero_iff.trans ?_
  cases pbMsg.e with
  | fin q =>
    rw [Val.ofInt, Val.fin_div q (by norm_num)]
    show |q / ((1000 : Int) : ℚ)| ≤ _ ↔ |q| ≤ _
    rw [abs_div, show binary32.emin - 1 = -150 by decide]
    push_cast
    rw [div_le_iff₀ (by norm_num), zpow_neg]
    norm_num
  | inf s => exact iff_of_false id id
  | nan => exact iff_of_false id id

theorem exists_single_ofInt (n : Int) (hn : n ≠ 0) {q : ℚ} (h : single (.ofInt n) = .fin q) : 1 ≤ |q| := by
  obtain ⟨_, hv, rfl, -⟩ := binary32.round_eq_fin h
  cases hv
  have hone : (1 : ℚ) ≤ |(n : ℚ)| := by exact_mod_cast Int.one_le_abs hn
  rw [Format.abs_nearest]
  exact binary32.le_nearest_of_rep ⟨1, 0, by decide, by decide, by norm_num⟩ hone

/-- The smallest `float`. -/
theorem le_abs_of_single {q : ℚ} (h : single (.fin q) = .fin q) (hq : q ≠ 0) : 1 / 2 ^ 149 ≤ |q| := by
  obtain ⟨n, hn⟩ := (binary32.rep_of_round h).multiple_min
  rw [show binary32.emin = -149 by decide] at hn
  have hn0 : n ≠ 0 := by
    rintro rfl
    exact hq (by rw [hn, Int.cast_zero, zero_mul])
  have hone : (1 : ℚ) ≤ |(n : ℚ)| := by exact_mod_cast Int.one_le_abs hn0
  rw [hn, abs_mul, abs_of_pos (Format.two_zpow_pos _), zpow_neg, one_div]
  exact le_mul_of_one_le_left (by positivity) hone

theorem posReduceRate_ne_zero {pbMsg : ChassisConfig} (hlines : toInt32 (pbMsg.encoderLines * 4) ≠ 0)
    (hratio : pbMsg.reductionRatio ≠ 0) : pbMsg.posReduceRate ≠ 0 := by
  intro hzero
  have hwithin := binary32.round_eq_zero_iff.mp hzero
  obtain ⟨hl, hr⟩ := Val.isFin_of_mul hwithin.isFin
  obtain ⟨a, ha⟩ := Val.exists_of_isFin hl
  obtain ⟨b, hb⟩ := Val.exists_of_isFin hr
  have hsingle := pbMsg.reductionRatio_single
  rw [hb] at hsingle hratio
  have hle : |a * b| ≤ 2 ^ (binary32.emin - 1) := by
    rw [ha, hb] at hwithin
    exact hwithin
  have ha1 := exists_single_ofInt _ hlines ha
  have hb1 := le_abs_of_single hsingle fun h => hratio (congrArg Val.fin h)
  have hprod : 1 * (1 / 2 ^ 149) ≤ |a| * |b| := mul_le_mul ha1 hb1 (by positivity) (abs_nonneg a)
  rw [abs_mul, show binary32.emin - 1 = -150 by decide, zpow_neg] at hle
  norm_num at hle hprod
  linarith

/-- A product with a zero is zero or no number. -/
theorem posReduceRate_of_zero {pbMsg : ChassisConfig}
    (h : toInt32 (pbMsg.encoderLines * 4) = 0 ∨ pbMsg.reductionRatio = 0) :
    pbMsg.posReduceRate = 0 ∨ pbMsg.posReduceRate = .nan := by
  have hzero : ∀ v : Val, single (.fin 0 * v) = 0 ∨ single (.fin 0 * v) = .nan := by
    intro v
    cases v with
    | fin q => exact .inl (by rw [Val.fin_mul, zero_mul]; exact single_zero)
    | inf s => exact .inr rfl
    | nan => exact .inr rfl
  unfold ChassisConfig.posReduceRate
  rcases h with h | h
  · rw [h, show single (.ofInt 0) = .fin 0 from single_zero]
    exact hzero _
  · rw [h, Val.mul_comm]
    exact hzero _

/-- A turn that is a number has a rate that is one. -/
theorem rate_ne_nan {e rate : Val} {scale : Nat → Val} {r : ℚ} (h : (greatestTurn e rate scale).Within r) : rate ≠ .nan := by
  rintro rfl
  have hsum := binary32.isFin_of_round (Val.isFin_of_div (binary32.isFin_of_round h.isFin))
  have hway := binary32.isFin_of_round (Val.isFin_of_add hsum).1
  generalize single (.ofInt 2000000 * (scale 1).abs) = v at hway
  cases v <;> exact hway

/-! ## The limit -/

theorem speedLimit_neg_left (rpm lines : Val) : speedLimit (-rpm) lines = -speedLimit rpm lines := by
  simp only [speedLimit, Val.mul_neg, Val.neg_mul, Val.neg_div, double_neg, single_neg]

theorem speedLimit_neg_right (rpm lines : Val) : speedLimit rpm (-lines) = -speedLimit rpm lines := by
  simp only [speedLimit, Val.mul_neg, Val.neg_mul, double_neg, single_neg]

/-- Positive operands leave a positive limit. -/
theorem speedLimit_atLeast {rpm lines : Val} (hrpm : rpm.AtLeast 1) (hlines : lines.AtLeast 1) :
    (speedLimit rpm lines).AtLeast (1 / 2) := by
  have hround : ∀ (k : Nat) (v : Val), k ≤ 6 → v.AtLeast (1 / 2 ^ k) → (double v).AtLeast (1 / 2 ^ k) := by
    intro k v hk hv
    refine binary64.atLeast_round_of_rep ⟨1, -k, by decide, ?_, by simp⟩ hv (by positivity)
    rw [show binary64.emin = -1074 by decide]
    omega
  have hint : ∀ n : Nat, (Val.ofInt n).AtLeast n := fun n => (Int.cast_natCast n).symm.le
  have hsixty : Val.ofInt 60 = .fin 60 := by norm_num [Val.ofInt]
  have hcast := hround 0 (.ofInt 1 * rpm) (by decide) (((hint 1).mul hrpm (by norm_num) one_pos).mono (by norm_num))
  have hsecond := hround 6 (_ / .ofInt 60) (by decide) (by
    rw [hsixty]
    exact (hcast.div (by norm_num)).mono (by norm_num))
  have hfour := hround 4 _ (by decide) ((hsecond.mul (hint 4) (by norm_num) (by norm_num)).mono (by norm_num))
  have hlines := hround 4 _ (by decide) ((hfour.mul hlines (by norm_num) one_pos).mono (by norm_num))
  have hten := hround 1 _ (by decide) ((hlines.mul (hint 10) (by norm_num) (by norm_num)).mono (by norm_num))
  exact binary32.atLeast_round_of_rep ⟨1, -1, by decide, by decide, by norm_num⟩ (hten.mono (by norm_num)) (by norm_num)

theorem speedLimit_zero_left (lines : Val) : Val.lt (speedLimit 0 lines) 0 = false := by
  have hzero : double (double (double (.ofInt 1 * 0) / .ofInt 60) * .ofInt 4) = .fin 0 := by decide +kernel
  unfold speedLimit
  rw [hzero]
  cases lines with
  | fin q =>
    rw [Val.fin_mul, zero_mul]
    decide +kernel
  | inf s => rfl
  | nan => rfl

theorem speedLimit_zero_right (rpm : Val) : Val.lt (speedLimit rpm 0) 0 = false := by
  unfold speedLimit
  cases double (double (double (.ofInt 1 * rpm) / .ofInt 60) * .ofInt 4) with
  | fin q =>
    show Val.lt (single (double (double (.fin q * .fin 0) * .ofInt 10))) 0 = false
    rw [Val.fin_mul, mul_zero]
    decide +kernel
  | inf s => rfl
  | nan => rfl

theorem ofInt_atLeast {n : Int} (h : 0 < n) : (Val.ofInt n).AtLeast 1 := by
  show (1 : ℚ) ≤ n
  exact_mod_cast h

theorem ofInt_neg (n : Int) : Val.ofInt (-n) = -Val.ofInt n := congrArg Val.fin (Int.cast_neg n)

theorem lt_zero_of_atLeast {v : Val} (h : v.AtLeast (1 / 2)) : Val.lt v 0 = false ∧ Val.lt (-v) 0 = true := by
  cases v with
  | fin q =>
    have hq : 1 / 2 ≤ q := h
    exact ⟨decide_eq_false (by linarith), decide_eq_true (by linarith)⟩
  | inf s =>
    cases h
    exact ⟨rfl, rfl⟩
  | nan => exact h.elim

/-- The limit is below zero exactly when one of its factors is. -/
theorem motorMaxSpeed_neg_iff (pbMsg : ChassisConfig) :
    Val.lt pbMsg.motorMaxSpeed 0 = true ↔ pbMsg.motorMaxSpeedRpm * pbMsg.encoderLines < 0 := by
  unfold ChassisConfig.motorMaxSpeed
  generalize pbMsg.motorMaxSpeedRpm = rpm
  generalize pbMsg.encoderLines = lines
  -- either factor is the negative of a positive one
  have hpos : ∀ {a b : Int}, 0 < a → 0 < b → Val.lt (speedLimit (.ofInt a) (.ofInt b)) 0 = false ∧
      Val.lt (-speedLimit (.ofInt a) (.ofInt b)) 0 = true := fun ha hb =>
    lt_zero_of_atLeast (speedLimit_atLeast (ofInt_atLeast ha) (ofInt_atLeast hb))
  have hsigned : ∀ {n : Int}, n ≠ 0 → ∃ a, 0 < a ∧ (n = a ∨ n = -a) := fun hn => ⟨_, abs_pos.mpr hn, eq_or_eq_neg_of_abs_eq rfl⟩
  by_cases hr : rpm = 0
  · rw [hr, zero_mul, show Val.ofInt 0 = 0 from rfl, speedLimit_zero_left]
    exact iff_of_false (by decide) (lt_irrefl 0)
  by_cases hl : lines = 0
  · rw [hl, mul_zero, show Val.ofInt 0 = 0 from rfl, speedLimit_zero_right]
    exact iff_of_false (by decide) (lt_irrefl 0)
  obtain ⟨a, ha, rfl | rfl⟩ := hsigned hr
  · obtain ⟨b, hb, rfl | rfl⟩ := hsigned hl
    · rw [(hpos ha hb).1]
      exact iff_of_false (by decide) (mul_pos ha hb).not_gt
    · rw [ofInt_neg, speedLimit_neg_right, (hpos ha hb).2, mul_neg]
      exact iff_of_true rfl (neg_neg_of_pos (mul_pos ha hb))
  · obtain ⟨b, hb, rfl | rfl⟩ := hsigned hl
    · rw [ofInt_neg, speedLimit_neg_left, (hpos ha hb).2, neg_mul]
      exact iff_of_true rfl (neg_neg_of_pos (mul_pos ha hb))
    · rw [ofInt_neg, ofInt_neg, speedLimit_neg_left, speedLimit_neg_right, Val.neg_neg, (hpos ha hb).1, neg_mul_neg]
      exact iff_of_false (by decide) (mul_pos ha hb).not_gt

/-! ## The scale of a wheel -/

/-- In `double`, before the sign. -/
def wheelWay (r : Val) : Val := double (double (double (.ofInt 2 * PI) * r) / .ofInt 1000)

theorem wheelWay_neg (r : Val) : wheelWay (-r) = -wheelWay r := by
  simp only [wheelWay, Val.mul_neg, Val.neg_div, double_neg]

theorem double_double (v : Val) : double (double v) = double v := binary64.round_round v

theorem wheelScale_eq_zero_iff_way (pbMsg : ChassisConfig) (i : Nat) :
    pbMsg.wheelScale i = 0 ↔ (wheelWay (pbMsg.r i)).Within (1 / 2 ^ 150) := by
  have hround : single (wheelWay (pbMsg.r i)) = 0 ↔ (wheelWay (pbMsg.r i)).Within (1 / 2 ^ 150) := by
    have h := binary32.round_eq_zero_iff (v := wheelWay (pbMsg.r i))
    rwa [show binary32.emin - 1 = -150 by decide, zpow_neg, ← one_div] at h
  have hway : double (wheelWay (pbMsg.r i)) = wheelWay (pbMsg.r i) := double_double _
  show single (double (wheelWay (pbMsg.r i) * .ofInt (Mileage.CMileage.sign (pbMsg.inverse i)))) = 0 ↔ _
  rw [← hround, Val.mul_comm]
  cases pbMsg.inverse i with
  | false => rw [show Mileage.CMileage.sign false = 1 from rfl, Val.one_mul, hway]
  | true =>
    rw [show Mileage.CMileage.sign true = -1 from rfl, Val.neg_one_mul, double_neg, hway, single_neg]
    exact Val.neg_eq_zero

theorem rep_small {q : ℚ} (m : Int) (k : Nat) (hm : |m| ≤ 2 ^ 53) (hk : k ≤ 1074) (hq : q = m / 2 ^ k) :
    binary64.Rep q := by
  refine ⟨m, -k, hm, ?_, by rw [hq, zpow_neg, zpow_natCast, div_eq_mul_inv]⟩
  rw [show binary64.emin = -1074 by decide]
  omega

theorem wheelWay_small {r : Val} (h : r.Within (79 / 2 ^ 149)) : (wheelWay r).Within (1 / 2 ^ 150) := by
  obtain ⟨q, rfl⟩ := Val.exists_of_isFin h.isFin
  have hq : |q| ≤ 79 / 2 ^ 149 := h
  have hturn : (Val.fin turn * .fin q).Within (497 / 2 ^ 149) := by
    show |turn * q| ≤ 497 / 2 ^ 149
    obtain ⟨hlo, hhi⟩ := turn_bounds
    rw [abs_mul, abs_of_nonneg (by linarith)]
    refine (mul_le_mul hhi hq (abs_nonneg q) (by norm_num)).trans ?_
    norm_num
  have hround := binary64.within_round_of_rep (rep_small 497 149 (by decide) (by decide) (by norm_num))
    (by decide +kernel) hturn
  obtain ⟨x, hx⟩ := Val.exists_of_isFin hround.isFin
  have hquot : (Val.fin x / .ofInt 1000).Within (1 / 2 ^ 150) := by
    have hxle : |x| ≤ 497 / 2 ^ 149 := by
      rw [hx] at hround
      exact hround
    rw [show Val.ofInt 1000 = .fin 1000 by norm_num [Val.ofInt], Val.fin_div x (by norm_num)]
    show |x / 1000| ≤ 1 / 2 ^ 150
    rw [abs_div, div_le_iff₀ (by norm_num)]
    refine hxle.trans ?_
    norm_num
  unfold wheelWay
  rw [two_PI_eq, show double (.fin turn * .fin q) = .fin x from hx]
  exact binary64.within_round_of_rep (rep_small 1 150 (by decide) (by decide) (by norm_num))
    (by decide +kernel) hquot

theorem wheelWay_atLeast {r : Val} (h : r.AtLeast (80 / 2 ^ 149)) : (wheelWay r).AtLeast (513 / 2 ^ 159) := by
  have hturn : (Val.fin turn * r).AtLeast (502 / 2 ^ 149) := by
    have hfin : (Val.fin turn).AtLeast (6283185 / 1000000) := turn_bounds.1
    refine (hfin.mul h (by norm_num) (by norm_num)).mono ?_
    norm_num
  have hround := binary64.atLeast_round_of_rep (rep_small 502 149 (by decide) (by decide) (by norm_num))
    hturn (by norm_num)
  have hquot : (double (Val.fin turn * r) / .ofInt 1000).AtLeast (513 / 2 ^ 159) := by
    rw [show Val.ofInt 1000 = .fin 1000 by norm_num [Val.ofInt]]
    refine (hround.div (d := 1000) (by norm_num)).mono ?_
    norm_num
  unfold wheelWay
  rw [two_PI_eq]
  exact binary64.atLeast_round_of_rep (rep_small 513 159 (by decide) (by decide) (by norm_num)) hquot
    (by norm_num)

/-- Between 79 and 80 units there is no `float`. -/
theorem wheelScale_eq_zero_iff (pbMsg : ChassisConfig) (i : Nat) :
    pbMsg.wheelScale i = 0 ↔ (pbMsg.r i).Within (79 / 2 ^ 149) := by
  rw [wheelScale_eq_zero_iff_way]
  refine ⟨fun h => ?_, wheelWay_small⟩
  have hsingle := pbMsg.r_single i
  have hfin : (pbMsg.r i).IsFin := by
    have hquot := Val.isFin_of_div (binary64.isFin_of_round h.isFin)
    exact (Val.isFin_of_mul (binary64.isFin_of_round hquot)).2
  obtain ⟨q, hq⟩ := Val.exists_of_isFin hfin
  rw [hq] at hsingle h ⊢
  by_contra hfar
  have hfar : 79 / 2 ^ 149 < |q| := not_le.mp hfar
  have hsize : 80 / 2 ^ 149 ≤ |q| := by
    obtain ⟨n, hn⟩ := (binary32.rep_of_round hsingle).multiple_min
    have habs : |q| = ((|n| : Int) : ℚ) / 2 ^ 149 := by
      rw [hn, show binary32.emin = -149 by decide, abs_mul, abs_of_pos (Format.two_zpow_pos _), zpow_neg, Int.cast_abs,
        div_eq_mul_inv]
      norm_num
    rw [habs, div_lt_div_iff_of_pos_right (by positivity)] at hfar
    rw [habs, div_le_div_iff_of_pos_right (by positivity)]
    exact_mod_cast hfar
  have hway : (wheelWay (.fin q)).AtLeast (513 / 2 ^ 159) ∨ (-wheelWay (.fin q)).AtLeast (513 / 2 ^ 159) := by
    rcases le_abs.mp hsize with hpos | hneg
    · exact .inl (wheelWay_atLeast hpos)
    · refine .inr ?_
      rw [← wheelWay_neg]
      exact wheelWay_atLeast hneg
  obtain ⟨x, hx⟩ := Val.exists_of_isFin h.isFin
  rw [hx] at h hway
  have hle : |x| ≤ 1 / 2 ^ 150 := h
  have hge : 513 / 2 ^ 159 ≤ |x| := by
    rcases hway with hpos | hneg
    · exact (show 513 / 2 ^ 159 ≤ x from hpos).trans (le_abs_self x)
    · exact (show 513 / 2 ^ 159 ≤ -x from hneg).trans (neg_le_abs x)
  have hlt := hge.trans hle
  norm_num at hlt

/-! ## Sane and valid -/

theorem e_isFin_iff (pbMsg : ChassisConfig) : (single (pbMsg.e / .ofInt 1000)).IsFin ↔ pbMsg.e.IsFin := by
  refine ⟨fun h => Val.isFin_of_div (binary32.isFin_of_round h), fun h => ?_⟩
  obtain ⟨q, hq⟩ := Val.exists_of_isFin h
  have hsingle := pbMsg.e_single
  rw [hq] at hsingle ⊢
  have hbound : Bounded (.fin q / .ofInt 1000) (.fin |q|) := by
    rw [show Val.ofInt 1000 = .fin 1000 by norm_num [Val.ofInt], Val.fin_div q (by norm_num)]
    refine bounded_fin ?_
    rw [abs_div]
    exact div_le_self (abs_nonneg q) (by norm_num)
  have habs : single (.fin |q|) = .fin |q| := by
    rcases abs_choice q with h | h
    · rw [h, hsingle]
    · rw [h, ← Val.neg_fin, single_neg, hsingle]
  obtain ⟨x, hx, -⟩ := bounded_round binary32 hbound |q| habs
  rw [single, hx]
  trivial

variable {m m' : CMileage} {pbMsg : ChassisConfig}

theorem sane_iff_valid (h : Configured m pbMsg m') : Sane m' ↔ Valid m pbMsg := by
  have hscale : ∀ i, m'.scale i ≠ 0 ↔
      if m.chassisType ≠ singleSteerPrec ∧ i < pbMsg.driveIDCount then ¬ (pbMsg.r i).Within (79 / 2 ^ 149)
      else m.scale i ≠ 0 := by
    intro i
    rw [h.scale, scaleAfter]
    split
    case isTrue => exact not_congr (wheelScale_eq_zero_iff pbMsg i)
    case isFalse => exact Iff.rfl
  have hlimit : (Val.lt m'.motorMaxSpeed 0 = false ∨ ¬ m'.e.IsFin ∨ ¬ m'.velReduceScale.IsFin) ↔
      (0 ≤ pbMsg.motorMaxSpeedRpm * pbMsg.encoderLines ∨ ¬ pbMsg.e.IsFin ∨
        ¬ (single (pbMsg.posReduceRate * .ofInt 10)).IsFin) := by
    rw [h.motorMaxSpeed, h.e, h.velReduceScale, e_isFin_iff, ← not_lt, ← motorMaxSpeed_neg_iff, Bool.not_eq_true]
  have hturn : (greatestTurn m'.e m'.posReduceRate m'.scale).Within (2 ^ 27) ↔
      (greatestTurn (single (pbMsg.e / .ofInt 1000)) pbMsg.posReduceRate (m.scaleAfter pbMsg)).Within (2 ^ 27) := by
    rw [h.e, h.posReduceRate, h.scale]
  constructor
  · intro hs
    have hrate := hs.posReduceRate
    rw [h.posReduceRate] at hrate
    have hnumber : ¬ (toInt32 (pbMsg.encoderLines * 4) = 0 ∨ pbMsg.reductionRatio = 0) := by
      intro hzero
      rcases posReduceRate_of_zero hzero with hz | hnan
      · exact hrate hz
      · exact rate_ne_nan hs.turn (h.posReduceRate.trans hnan)
    obtain ⟨hlines, hratio⟩ := not_or.mp hnumber
    have he := hs.e
    rw [h.e] at he
    exact ⟨fun hw => he ((e_eq_zero_iff pbMsg).mpr hw), hlines, hratio, fun i hi => (hscale i).mp (hs.scale i hi),
      hlimit.mp hs.limit, hturn.mp hs.turn⟩
  · intro hv
    refine ⟨?_, ?_, fun i hi => (hscale i).mpr (hv.r i hi), hlimit.mpr hv.limit, hturn.mpr hv.turn⟩
    · rw [h.posReduceRate]
      exact posReduceRate_ne_zero hv.encoderLines hv.reductionRatio
    · rw [h.e]
      exact fun hzero => hv.e ((e_eq_zero_iff pbMsg).mp hzero)

/-- A chassis drives with what an accepted message left exactly when the message is valid. -/
theorem usable_iff_valid (h : Configured m pbMsg m') (htype : m'.chassisType = doubleDiff) : Usable m' ↔ Valid m pbMsg := by
  rw [← sane_iff_valid h]
  refine ⟨sane_of_usable htype h.firstIn h.angle, fun hs => usable_of_driving ⟨hs, htype, ?_⟩⟩
  rw [h.angle]
  exact abs_zero.trans_le (by norm_num)

end CMileage

end SeerDIOBoard.Mileage.Floats
