/-
  SeerDIOBoard.Mileage.Usable — which parameters of `CMileage` a two-wheeled chassis can
  drive with.

  A `Use` is an encoder sample or a velocity command. It is safe when nothing it divides by
  is zero, and when an angle that is handed to the two loops of `doCalc` is finite and the
  loops come to an end (`Safe`). `Sane` says of the parameters alone that every use is safe,
  over every run (`Usable`):

  - `usable_of_driving`: from sane parameters and a reset angle, every use that is reached is
    safe.
  - `sane_of_usable`: and from no others. Standing still finds a limit below zero, and of two
    samples the second finds a divisor that is zero and a turn that is too great.
-/

import SeerDIOBoard.Mileage.FloatLoops

namespace SeerDIOBoard.Mileage.Floats

open Function (update)
open Lib.Ieee
open SeerDIOBoard.Can

/-- What the chassis goes on with. -/
inductive Use where
  | sample (p : Nat → Int) (theta : Val)
  | command (vx w : Val)

namespace CMileage

/-- `none` where a loop makes more turns than `fuel`. -/
def use (fuel : Nat) (m : CMileage) : Use → Option CMileage
  | .sample p theta => (doCalc fuel theta m p).map (·.2)
  | .command _ _ => some m

/-- Everything a use divides by: a sample that is handed to the kinematics, and a command
    with the limiter if a wheel is over the limit. -/
def divisors (m : CMileage) : Use → List Val
  | .sample p theta => if (addTheta theta m p).1 = 0 then [m.posReduceRate, m.e] else []
  | .command vx w =>
    let (overspeedFlag, maxSpeed) := m.overspeed (m.inverseKinematicsTransDiff vx w)
    if overspeedFlag then [m.scale 0, m.scale 1, maxSpeed] else [m.scale 0, m.scale 1]

/-- The angle that the two loops receive. -/
def received (m : CMileage) : Use → Option Val
  | .sample p theta => if (addTheta theta m p).1 = 0 then some (addTheta theta m p).2.angle else none
  | .command _ _ => none

structure Safe (m : CMileage) (u : Use) : Prop where
  divisors : ∀ v ∈ divisors m u, v ≠ 0
  angle : ∀ a, received m u = some a → a.IsFin ∧ ∃ fuel b, normalise fuel a = some b

/-- Every use is safe in every state that uses lead to. -/
def Usable (m : CMileage) : Prop :=
  ∀ (fuel : Nat) (us : List Use) (m' : CMileage), us.foldlM (use fuel) m = some m' → ∀ u, Safe m' u

/-- How far a wheel goes with the greatest encoder difference that is believed. -/
def travel (rate scale : Val) : Val := single (single (.ofInt 2000000 * scale.abs) / rate.abs)

/-- The rotation when both wheels go that far, against each other. -/
def greatestTurn (e rate : Val) (scale : Nat → Val) : Val :=
  single (single (travel rate (scale 1) + travel rate (scale 0)) / e.abs)

/-- Parameters that are safe for every use. -/
structure Sane (m : CMileage) : Prop where
  posReduceRate : m.posReduceRate ≠ 0
  e : m.e ≠ 0
  scale : ∀ i, i < 2 → m.scale i ≠ 0
  limit : Val.lt m.motorMaxSpeed 0 = false ∨ ¬ m.e.IsFin ∨ ¬ m.velReduceScale.IsFin
  turn : (greatestTurn m.e m.posReduceRate m.scale).Within (2 ^ 27)

variable {m : CMileage}

theorem numOfWheel_diff (h : m.chassisType = doubleDiff) : m.numOfWheel = 2 := by
  rw [numOfWheel, h]
  rfl

theorem single_zero : single (.fin 0) = .fin 0 :=
  binary32.round_eq_zero_iff.mpr (abs_zero.trans_le (Format.two_zpow_pos _).le)

/-! ## The limiter -/

/-- A wheel over the limit leaves a speed to divide by, unless it stands still over a limit
    below zero. -/
theorem checkSpeed_pos {s : Bool × Val} {v : Val} (hv : single v = v) (h : Val.lt m.motorMaxSpeed 0 = false ∨ v ≠ 0)
    (hs : Val.lt 0 s.2 = true ∨ s = (false, 0)) :
    Val.lt 0 (m.checkSpeed s v).2 = true ∨ m.checkSpeed s v = (false, 0) := by
  have hpos : ∀ temp, temp = (if Val.lt 0 v then v else single (.ofInt (-1) * v)) → Val.lt m.motorMaxSpeed temp = true →
      Val.lt 0 temp = true := by
    rintro _ rfl hover
    rw [Val.neg_one_mul, single_neg, hv] at hover ⊢
    rcases h with hlimit | hv0
    · exact Val.lt_of_not_lt hlimit hover
    split at hover
    case isTrue hgt => rwa [if_pos hgt]
    case isFalse hgt =>
      rw [if_neg hgt]
      exact Val.neg_pos_of_not_pos hgt hv0 hover
  unfold checkSpeed
  generalize htemp : (if Val.lt 0 v then v else single (.ofInt (-1) * v)) = temp
  dsimp only
  split
  case isFalse => exact hs
  case isTrue hover =>
    have hgt := hpos temp htemp.symm hover
    refine .inl ?_
    dsimp only
    split
    case isTrue => exact hgt
    case isFalse hle =>
      rcases hs with hs | rfl
      · exact hs
      · exact absurd hgt hle

theorem overspeed_pos {wheelVel : Nat → Val} (hsingle : ∀ i, single (wheelVel i) = wheelVel i)
    (h : Val.lt m.motorMaxSpeed 0 = false ∨ ∀ i, i < m.numOfWheel → wheelVel i ≠ 0)
    (hover : (m.overspeed wheelVel).1 = true) : (m.overspeed wheelVel).2 ≠ 0 := by
  have hfold : ∀ (vs : List Val) (s : Bool × Val),
      (∀ v ∈ vs, single v = v ∧ (Val.lt m.motorMaxSpeed 0 = false ∨ v ≠ 0)) → (Val.lt 0 s.2 = true ∨ s = (false, 0)) →
      Val.lt 0 (vs.foldl m.checkSpeed s).2 = true ∨ vs.foldl m.checkSpeed s = (false, 0) := by
    intro vs
    induction vs with
    | nil => exact fun s _ hs => hs
    | cons v vs ih =>
      intro s hvs hs
      obtain ⟨hv, hlimit⟩ := hvs v List.mem_cons_self
      exact ih _ (fun v hv => hvs v (List.mem_cons_of_mem _ hv)) (checkSpeed_pos hv hlimit hs)
  have hend := hfold ((List.range m.numOfWheel).map wheelVel) (false, 0) ?_ (.inr rfl)
  · rcases hend with hpos | hnone
    · exact Val.ne_zero_of_pos hpos
    · rw [overspeed, hnone] at hover
      cases hover
  · intro v hv
    obtain ⟨i, hi, rfl⟩ := List.mem_map.mp hv
    exact ⟨hsingle i, h.imp_right fun hne => hne i (List.mem_range.mp hi)⟩

/-- Without a distance of the wheels, or without a scale of the velocities, that is a number
    no wheel stands still. -/
theorem wheelVel_ne_zero (h : ¬ m.e.IsFin ∨ ¬ m.velReduceScale.IsFin) (vx w : Val) {i : Nat} (hi : i < 2) :
    m.inverseKinematicsTransDiff vx w i ≠ 0 := by
  have hparts : ∀ v l s : Val, single (single (v * l) / s) = 0 → v.IsFin ∧ l.IsFin := by
    intro v l s hzero
    have hfin : (single (single (v * l) / s)).IsFin := by
      rw [hzero]
      trivial
    exact Val.isFin_of_mul (binary32.isFin_of_round (Val.isFin_of_div (binary32.isFin_of_round hfin)))
  have hturn : ∀ l : Val, (single (single l * .fin (1 / 2))).IsFin → l.IsFin := fun l hl =>
    binary32.isFin_of_round (Val.isFin_of_mul (binary32.isFin_of_round hl)).1
  intro hzero
  have hfin : m.velReduceScale.IsFin ∧ m.e.IsFin := by
    obtain rfl | rfl : i = 0 ∨ i = 1 := by omega
    · obtain ⟨hv, hl⟩ := hparts _ _ _ hzero
      exact ⟨hv, (Val.isFin_of_mul (binary32.isFin_of_round (Val.isFin_of_sub (hturn _ hl)).2)).1⟩
    · obtain ⟨hv, hl⟩ := hparts _ _ _ hzero
      exact ⟨hv, (Val.isFin_of_mul (binary32.isFin_of_round (Val.isFin_of_add (hturn _ hl)).2)).1⟩
  rcases h with he | hv
  · exact he hfin.2
  · exact hv hfin.1

theorem wheelVel_single (m : CMileage) (vx w : Val) (i : Nat) :
    single (m.inverseKinematicsTransDiff vx w i) = m.inverseKinematicsTransDiff vx w i := by
  unfold inverseKinematicsTransDiff
  by_cases h1 : i = 1
  · subst h1
    exact binary32.round_round _
  by_cases h0 : i = 0
  · subst h0
    exact binary32.round_round _
  · rw [Function.update_of_ne h1, Function.update_of_ne h0]
    exact single_zero

theorem wheelVel_still (he : m.e.IsFin) (hvel : m.velReduceScale.IsFin)
    (hscale : ∀ i, i < 2 → (m.scale i).IsFin ∧ m.scale i ≠ 0) {i : Nat} (hi : i < 2) :
    m.inverseKinematicsTransDiff 0 0 i = 0 := by
  obtain ⟨e, he⟩ := Val.exists_of_isFin he
  obtain ⟨v, hv⟩ := Val.exists_of_isFin hvel
  have hzero : (0 : Val) = .fin 0 := rfl
  have hside : ∀ i, i < 2 → single (single (m.velReduceScale * .fin 0) / m.scale i) = .fin 0 := by
    intro i hi
    obtain ⟨hfin, hne⟩ := hscale i hi
    obtain ⟨s, hs⟩ := Val.exists_of_isFin hfin
    have hs0 : s ≠ 0 := by
      rintro rfl
      exact hne hs
    rw [hv, hs, Val.fin_mul, mul_zero, single_zero, Val.fin_div 0 hs0, zero_div, single_zero]
  have hforward : single (.ofInt 2 * 0) = .fin 0 := by
    rw [hzero, Val.ofInt, Val.fin_mul, mul_zero, single_zero]
  have hturn : single (m.e * 0) = .fin 0 := by rw [he, hzero, Val.fin_mul, mul_zero, single_zero]
  have hhalf : single (single (.fin 0) * .fin (1 / 2)) = .fin 0 := by rw [single_zero, Val.fin_mul, zero_mul, single_zero]
  unfold inverseKinematicsTransDiff
  rw [hforward, hturn, Val.fin_sub, sub_zero, Val.fin_add, add_zero, hhalf]
  obtain rfl | rfl : i = 0 ∨ i = 1 := by omega
  · exact hside 0 hi
  · exact hside 1 hi

/-- A command to stand still exceeds a negative limit, at no speed. -/
theorem overspeed_still (htype : m.chassisType = doubleDiff) (hneg : Val.lt m.motorMaxSpeed 0 = true) (he : m.e.IsFin)
    (hvel : m.velReduceScale.IsFin) (hscale : ∀ i, i < 2 → (m.scale i).IsFin ∧ m.scale i ≠ 0) :
    m.overspeed (m.inverseKinematicsTransDiff 0 0) = (true, 0) := by
  have hcheck : ∀ b : Bool, m.checkSpeed (b, 0) 0 = (true, 0) := by
    intro b
    have hzero : (if Val.lt 0 0 then 0 else single (.ofInt (-1) * 0)) = (0 : Val) := by decide +kernel
    unfold checkSpeed
    rw [hzero]
    dsimp only
    rw [if_pos hneg]
    rfl
  unfold overspeed
  rw [numOfWheel_diff htype]
  show m.checkSpeed (m.checkSpeed (false, 0) (m.inverseKinematicsTransDiff 0 0 0)) (m.inverseKinematicsTransDiff 0 0 1) = _
  rw [wheelVel_still he hvel hscale (by decide), wheelVel_still he hvel hscale (by decide), hcheck, hcheck]

/-! ## The angle that the loops receive -/

theorem double_single (v : Val) : double (single v) = single v :=
  Format.round_round_of_le (by decide) (by decide) (by decide) v

theorem Fabs_single (v : Val) : Fabs (single v) = (single v).abs := by
  have hneg : single (double (.ofInt (-1) * single v)) = -single v := by
    rw [Val.neg_one_mul, double_neg, double_single, single_neg]
    exact congrArg Neg.neg (binary32.round_round v)
  rw [Fabs, hneg]
  cases single v with
  | fin q =>
    show (if decide (0 ≤ q) = true then _ else _) = _
    rcases le_or_gt 0 q with h | h
    · rw [if_pos (decide_eq_true h), Val.abs, abs_of_nonneg h]
    · rw [if_neg (by simpa using h), Val.abs, abs_of_neg h, Val.neg_fin]
  | inf s => cases s <;> rfl
  | nan => rfl

/-- A difference that is believed. -/
theorem within_of_not_jumps {delta : Int} (h : jumps delta = false) : (single (.ofInt delta)).Within 2000000 := by
  rw [jumps, Fabs_single] at h
  generalize hv : single (.ofInt delta) = v at h ⊢
  cases v with
  | fin q => exact not_lt.mp (of_decide_eq_false h)
  | inf s => cases h
  | nan => exact absurd hv (binary32.round_ne_nan delta)

/-- The loop over the wheels writes the references, and hands on only what is believed. -/
theorem diffWheels_true {p : Nat → Int} {k i : Nat} {m m' : CMileage} {wheelPos wheelPos' : Nat → Val}
    (h : diffWheels p k i m wheelPos = (true, m', wheelPos')) (hw : ∀ j, j < i → (wheelPos j).Within 2000000) :
    (∃ staticP, m' = { m with staticP := staticP }) ∧ ∀ j, j < i + k → (wheelPos' j).Within 2000000 := by
  induction k generalizing i m wheelPos with
  | zero =>
    cases h
    exact ⟨⟨_, rfl⟩, hw⟩
  | succ k ih =>
    rw [diffWheels] at h
    split at h
    case isTrue => cases h
    case isFalse hjump =>
      obtain ⟨⟨staticP, rfl⟩, hrest⟩ := ih h fun j hj => by
        by_cases hji : j = i
        · rw [hji, Function.update_self]
          exact within_of_not_jumps (Bool.eq_false_iff.mpr hjump)
        · rw [Function.update_of_ne hji]
          exact hw j (by omega)
      exact ⟨⟨staticP, rfl⟩, fun j hj => hrest j (by omega)⟩

theorem diffWheels_false {p : Nat → Int} {k i : Nat} {m m' : CMileage} {wheelPos wheelPos' : Nat → Val}
    (h : diffWheels p k i m wheelPos = (false, m', wheelPos')) : ∃ staticP, m' = { m with staticP := staticP } := by
  induction k generalizing i m wheelPos with
  | zero => cases h
  | succ k ih =>
    rw [diffWheels] at h
    split at h
    case isTrue =>
      cases h
      exact ⟨_, rfl⟩
    case isFalse =>
      obtain ⟨staticP, rfl⟩ := ih h
      exact ⟨staticP, rfl⟩

/-- What `doCalc` does before its loops: it returns, or it has added the rotation that the
    wheels stand for. -/
theorem addTheta_cases (htype : m.chassisType = doubleDiff) (theta : Val) (p : Nat → Int) :
    ((addTheta theta m p).1 ≠ 0 ∧
        ∃ firstIn staticP, (addTheta theta m p).2 = { m with firstIn := firstIn, staticP := staticP }) ∨
      ∃ staticP wheelPos, (∀ i, i < 2 → (wheelPos i).Within 2000000) ∧
        addTheta theta m p =
          (0, { m with staticP := staticP, angle := single (m.angle + m.forwardKinematicsTransDiff wheelPos) }) := by
  unfold addTheta
  split
  case isTrue => exact .inl ⟨show (1 : Int) ≠ 0 by decide, _, _, rfl⟩
  case isFalse =>
    rcases hd : diffWheels p m.numOfWheel 0 m fun _ => 0 with ⟨ok, m', wheelPos⟩
    cases ok with
    | false =>
      obtain ⟨staticP, rfl⟩ := diffWheels_false hd
      exact .inl ⟨show (2 : Int) ≠ 0 by decide, m.firstIn, staticP, rfl⟩
    | true =>
      obtain ⟨⟨staticP, rfl⟩, hw⟩ := diffWheels_true hd fun j hj => absurd hj (Nat.not_lt_zero j)
      rw [numOfWheel_diff htype] at hw
      refine .inr ⟨staticP, wheelPos, fun i hi => hw i (by omega), ?_⟩
      dsimp only
      rw [forwardKinematicsTrans, if_pos htype.symm]
      rfl

/-! ## The greatest turn -/

/-- No rotation is greater. -/
theorem bounded_theta {wheelPos : Nat → Val} (h : ∀ i, i < 2 → (wheelPos i).Within 2000000) :
    Bounded (m.forwardKinematicsTransDiff wheelPos) (greatestTurn m.e m.posReduceRate m.scale) := by
  have hway : ∀ i, i < 2 →
      Bounded (single (single (wheelPos i * m.scale i) / m.posReduceRate)) (travel m.posReduceRate (m.scale i)) := by
    intro i hi
    have hpos : Bounded (wheelPos i) (.ofInt 2000000) := by
      obtain ⟨q, hq⟩ := Val.exists_of_isFin (h i hi).isFin
      have hle := h i hi
      rw [hq] at hle ⊢
      exact bounded_fin hle
    exact bounded_round _ (bounded_div (bounded_round _ (bounded_mul hpos _)) _)
  exact bounded_round _ (bounded_div (bounded_round _ (bounded_sub (hway 1 (by decide)) (hway 0 (by decide)))) _)

theorem within_sum {a b : Val} (ha : a.Within 4) (hb : b.Within (2 ^ 27)) : (single (a + b)).Within (2 ^ 27) := by
  obtain ⟨p, rfl⟩ := Val.exists_of_isFin ha.isFin
  obtain ⟨q, rfl⟩ := Val.exists_of_isFin hb.isFin
  have hsum : |p + q| ≤ 2 ^ 27 + 4 := by
    have hp : |p| ≤ 4 := ha
    have hq : |q| ≤ 2 ^ 27 := hb
    have htri := abs_add_le p q
    linarith
  have hle : |binary32.nearest (p + q)| ≤ binary32.nearest (2 ^ 27 + 4) := binary32.abs_nearest_le hsum
  rw [show binary32.nearest (2 ^ 27 + 4) = 2 ^ 27 by decide +kernel] at hle
  rw [Val.fin_add, single, binary32.round_fin (hle.trans_lt (by decide +kernel))]
  exact hle

/-! ## Sane parameters are safe -/

/-- What a run keeps. -/
structure Driving (m : CMileage) : Prop where
  sane : Sane m
  chassisType : m.chassisType = doubleDiff
  angle : m.angle.Within 4

theorem received_within (h : Driving m) {u : Use} {a : Val} (ha : received m u = some a) : a.Within (2 ^ 27) := by
  cases u with
  | sample p theta =>
    obtain ⟨hret, -⟩ | ⟨staticP, wheelPos, hw, heq⟩ := addTheta_cases h.chassisType theta p
    · rw [received, if_neg hret] at ha
      cases ha
    · rw [received, heq] at ha
      cases ha
      exact within_sum h.angle ((bounded_theta hw).within h.sane.turn)
  | command vx w => cases ha

theorem driving_use (h : Driving m) {fuel : Nat} {u : Use} {m' : CMileage} (hu : use fuel m u = some m') : Driving m' := by
  obtain ⟨⟨hrate, he, hscale, hlimit, hturn⟩, htype, hangle⟩ := h
  cases u with
  | sample p theta =>
    obtain ⟨⟨r, m''⟩, hcalc, rfl⟩ := Option.map_eq_some_iff.mp hu
    obtain ⟨hret, firstIn, staticP, heq⟩ | ⟨staticP, wheelPos, hw, heq⟩ := addTheta_cases htype theta p
    · rw [doCalc] at hcalc
      dsimp only at hcalc
      rw [if_neg hret, heq] at hcalc
      cases hcalc
      exact ⟨⟨hrate, he, hscale, hlimit, hturn⟩, htype, hangle⟩
    · rw [doCalc, heq] at hcalc
      obtain ⟨b, hb, heq'⟩ := Option.map_eq_some_iff.mp hcalc
      cases heq'
      exact ⟨⟨hrate, he, hscale, hlimit, hturn⟩, htype, normalise_some (within_sum hangle ((bounded_theta hw).within hturn)) hb⟩
  | command vx w =>
    cases hu
    exact ⟨⟨hrate, he, hscale, hlimit, hturn⟩, htype, hangle⟩

theorem safe_of_driving (h : Driving m) (u : Use) : Safe m u := by
  refine ⟨fun v hv => ?_, fun a ha => ?_⟩
  · cases u with
    | sample p theta =>
      unfold divisors at hv
      dsimp only at hv
      split at hv
      case isTrue =>
        obtain rfl | rfl : v = m.posReduceRate ∨ v = m.e := by simpa using hv
        · exact h.sane.posReduceRate
        · exact h.sane.e
      case isFalse => exact absurd hv List.not_mem_nil
    | command vx w =>
      have hlimit := h.sane.limit.imp_right fun hnan i (hi : i < m.numOfWheel) =>
        wheelVel_ne_zero hnan vx w (hi.trans_eq (numOfWheel_diff h.chassisType))
      have hpos := overspeed_pos (wheelVel_single m vx w) hlimit
      unfold divisors at hv
      dsimp only at hv
      split at hv
      case isTrue hover =>
        obtain rfl | rfl | rfl : v = m.scale 0 ∨ v = m.scale 1 ∨ v = (m.overspeed (m.inverseKinematicsTransDiff vx w)).2 := by
          simpa using hv
        · exact h.sane.scale 0 (by decide)
        · exact h.sane.scale 1 (by decide)
        · exact hpos hover
      case isFalse =>
        obtain rfl | rfl : v = m.scale 0 ∨ v = m.scale 1 := by simpa using hv
        · exact h.sane.scale 0 (by decide)
        · exact h.sane.scale 1 (by decide)
  · have hwithin := received_within h ha
    exact ⟨hwithin.isFin, normalise_ends hwithin⟩

/-- Over every run. -/
theorem usable_of_driving (h : Driving m) : Usable m := by
  intro fuel us
  induction us generalizing m with
  | nil =>
    intro m' hrun u
    cases hrun
    exact safe_of_driving h u
  | cons v us ih =>
    intro m' hrun u
    rw [List.foldlM_cons] at hrun
    obtain ⟨m₁, hv, hrest⟩ := Option.bind_eq_some_iff.mp hrun
    exact ih (driving_use h hv) m' hrest u

/-! ## And no others -/

/-- Either way, and with either sign of the scale and of the rate. -/
theorem exists_way (m : CMileage) (i : Nat) (backward : Bool) :
    ∃ d : Int, (d = 2000000 ∨ d = -2000000) ∧
      single (single (single (.ofInt d) * m.scale i) / m.posReduceRate) = if backward then -travel m.posReduceRate (m.scale i)
        else travel m.posReduceRate (m.scale i) := by
  have hfar : single (.ofInt 2000000) = .ofInt 2000000 := by decide +kernel
  have hback : single (.ofInt (-2000000)) = -.ofInt 2000000 := by decide +kernel
  have hforth : ∃ s : Bool, single (single (.ofInt 2000000 * m.scale i) / m.posReduceRate) =
      if s then -travel m.posReduceRate (m.scale i) else travel m.posReduceRate (m.scale i) := by
    unfold travel
    rcases Val.eq_abs_or (m.scale i) with hs | hs
    · rcases Val.eq_abs_or m.posReduceRate with hr | hr
      · exact ⟨false, by rw [← hs, ← hr]; rfl⟩
      · refine ⟨true, ?_⟩
        rw [← hs]
        conv_lhs => rw [hr]
        rw [Val.div_neg, single_neg]
        rfl
    · rcases Val.eq_abs_or m.posReduceRate with hr | hr
      · refine ⟨true, ?_⟩
        rw [← hr]
        conv_lhs => rw [hs]
        rw [Val.mul_neg, single_neg, Val.neg_div, single_neg]
        rfl
      · refine ⟨false, ?_⟩
        conv_lhs => rw [hs, hr]
        rw [Val.mul_neg, single_neg, Val.neg_div, Val.div_neg, Val.neg_neg]
        rfl
  obtain ⟨s, hs⟩ := hforth
  by_cases hsb : s = backward
  · refine ⟨2000000, .inl rfl, ?_⟩
    rw [hfar, hs, hsb]
  · refine ⟨-2000000, .inr rfl, ?_⟩
    rw [hback, Val.neg_mul, single_neg, Val.neg_div, single_neg, hs]
    obtain rfl : backward = !s := Bool.eq_not_iff.mpr fun h => hsb h.symm
    cases s with
    | false => rfl
    | true => exact Val.neg_neg _

/-- The greatest turn is made. -/
theorem exists_turn (m : CMileage) : ∃ p : Nat → Int, (∀ i, p i = 2000000 ∨ p i = -2000000) ∧
    ((m.forwardKinematicsTransDiff fun i => single (.ofInt (p i))) = greatestTurn m.e m.posReduceRate m.scale ∨
      (m.forwardKinematicsTransDiff fun i => single (.ofInt (p i))) = -greatestTurn m.e m.posReduceRate m.scale) := by
  obtain ⟨l, hl, hlway⟩ := exists_way m 0 true
  obtain ⟨r, hr, hrway⟩ := exists_way m 1 false
  refine ⟨fun i => if i = 0 then l else r, fun i => ?_, ?_⟩
  · dsimp only
    split
    · exact hl
    · exact hr
  · have hsum : ∀ a b : Val, a - -b = a + b := by
      intro a b
      show Val.add a (- -b) = Val.add a b
      rw [Val.neg_neg]
    have htheta : (m.forwardKinematicsTransDiff fun i => single (.ofInt (if i = 0 then l else r))) =
        single (single (travel m.posReduceRate (m.scale 1) + travel m.posReduceRate (m.scale 0)) / m.e) := by
      rw [← hsum]
      unfold forwardKinematicsTransDiff
      dsimp only
      rw [if_pos rfl, if_neg one_ne_zero, hlway, hrway]
      rfl
    rw [htheta, greatestTurn]
    rcases Val.eq_abs_or m.e with he | he
    · exact .inl (by rw [← he])
    · refine .inr ?_
      conv_lhs => rw [he]
      rw [Val.div_neg, single_neg]

/-- The second of two samples is handed to the loops, from any reset state. -/
theorem addTheta_second (htype : m.chassisType = doubleDiff) (hfirst : m.firstIn = false)
    (hstatic : ∀ i, i < 2 → m.staticP i = 0) {p : Nat → Int} (hp : ∀ i, p i = 2000000 ∨ p i = -2000000) (theta : Val) :
    ∃ staticP, addTheta theta m p =
      (0, { m with
        staticP := staticP
        angle := single (m.angle + m.forwardKinematicsTransDiff fun i => single (.ofInt (p i))) }) := by
  have hmoves : ∀ k i (m : CMileage) wheelPos, m.staticP i = 0 → diffWheels p (k + 1) i m wheelPos =
      diffWheels p k (i + 1) { m with staticP := update m.staticP i (p i) } (update wheelPos i (single (.ofInt (p i)))) := by
    intro k i m wheelPos hzero
    have hdelta : toInt32 (p i - m.staticP i) = p i ∧ jumps (p i) = false := by
      rw [hzero]
      rcases hp i with h | h
      · rw [h]
        decide +kernel
      · rw [h]
        decide +kernel
    rw [diffWheels, hdelta.1, hdelta.2]
    rfl
  have hloop : ∃ staticP, diffWheels p 2 0 m (fun _ => 0) =
      (true, { m with staticP := staticP },
        update (update (fun _ => 0) 0 (single (.ofInt (p 0)))) 1 (single (.ofInt (p 1)))) :=
    ⟨_, (hmoves 1 0 m _ (hstatic 0 (by decide))).trans (hmoves 0 1 _ _ (hstatic 1 (by decide)))⟩
  obtain ⟨staticP, hloop⟩ := hloop
  refine ⟨staticP, ?_⟩
  unfold addTheta
  rw [if_neg (by rw [hfirst]; decide), numOfWheel_diff htype, hloop]
  dsimp only
  rw [forwardKinematicsTrans, if_pos htype.symm]
  rfl

/-- A first sample that reads zero everywhere. -/
def referenced (m : CMileage) : CMileage :=
  { m with firstIn := false, staticP := Mileage.CMileage.copyWheels m.numOfWheel (fun _ => 0) m.staticP }

theorem use_first (hfirst : m.firstIn = true) (fuel : Nat) : use fuel m (.sample (fun _ => 0) 0) = some m.referenced := by
  have hadd : addTheta 0 m (fun _ => 0) = (1, m.referenced) := if_pos hfirst.symm
  rw [use, doCalc, hadd]
  rfl

/-- Standing still, and two samples with the greatest turn between them, are enough to tell. -/
theorem sane_of_usable (htype : m.chassisType = doubleDiff) (hfirst : m.firstIn = true) (hangle : m.angle = 0)
    (h : Usable m) : Sane m := by
  have hstill := (h 0 [] m rfl (.command 0 0)).divisors
  have hscale : ∀ i, i < 2 → m.scale i ≠ 0 := by
    intro i hi
    refine hstill _ ?_
    unfold divisors
    dsimp only
    obtain rfl | rfl : i = 0 ∨ i = 1 := by omega
    · split <;> simp
    · split <;> simp
  obtain ⟨p, hp, hturn⟩ := exists_turn m
  have hrun : [Use.sample (fun _ => 0) 0].foldlM (use 0) m = some m.referenced := by
    rw [List.foldlM_cons, use_first hfirst]
    rfl
  have hstatic : ∀ i, i < 2 → m.referenced.staticP i = 0 := by
    intro i hi
    show Mileage.CMileage.copyWheels m.numOfWheel (fun _ => 0) m.staticP i = 0
    rw [numOfWheel_diff htype]
    exact if_pos hi
  obtain ⟨staticP, hsecond⟩ := addTheta_second (m := m.referenced) htype rfl hstatic hp 0
  have hsafe := h 0 _ _ hrun (.sample p 0)
  have hdivisors := hsafe.divisors
  unfold divisors at hdivisors
  dsimp only at hdivisors
  rw [hsecond, if_pos rfl] at hdivisors
  -- the angle that the loops receive is the greatest turn, one way or the other
  set theta := m.forwardKinematicsTransDiff fun i => single (.ofInt (p i)) with htheta
  have hsingle : single theta = theta := binary32.round_round _
  have hreceived : received m.referenced (.sample p 0) = some theta := by
    rw [received, hsecond, if_pos rfl]
    show some (single (m.angle + theta)) = some theta
    rw [hangle, Val.zero_add, hsingle]
  obtain ⟨hfin, hends⟩ := hsafe.angle theta hreceived
  have hwithin : theta.Within (2 ^ 27) := (normalise_ends_iff hsingle hfin).mp hends
  have hgreatest : (greatestTurn m.e m.posReduceRate m.scale).Within (2 ^ 27) := by
    rcases hturn with hturn | hturn
    · rwa [hturn] at hwithin
    · rw [hturn] at hwithin
      exact Val.within_neg.mp hwithin
  refine ⟨hdivisors _ (by simp [referenced]), hdivisors _ (by simp [referenced]), hscale, ?_, hgreatest⟩
  by_contra hlimit
  simp only [not_or, not_not, Bool.not_eq_false] at hlimit
  obtain ⟨hneg, he, hvel⟩ := hlimit
  have htravel := Val.isFin_of_add (binary32.isFin_of_round (Val.isFin_of_div (binary32.isFin_of_round hgreatest.isFin)))
  have hfinite : ∀ i, i < 2 → (m.scale i).IsFin := by
    intro i hi
    have hway : (travel m.posReduceRate (m.scale i)).IsFin := by
      obtain rfl | rfl : i = 0 ∨ i = 1 := by omega
      · exact htravel.2
      · exact htravel.1
    have hprod := binary32.isFin_of_round (Val.isFin_of_div (binary32.isFin_of_round hway))
    exact Val.isFin_of_abs (Val.isFin_of_mul hprod).2
  refine hstill 0 ?_ rfl
  unfold divisors
  dsimp only
  rw [overspeed_still htype hneg he hvel fun i hi => ⟨hfinite i hi, hscale i hi⟩]
  simp

end CMileage

end SeerDIOBoard.Mileage.Floats
