/-
  SeerDIOBoard.Chassis.RollOver — an encoder that runs over the end of its 32 bits.

  `CChassisDevice::report` takes the raw positions through `setPos`, `getPositions` and
  `doCalc`. The sign of a wheel is put on with an `int32_t` multiplication and the
  displacement is an `int32_t` difference, and both wrap: -2^31 has no negative, and the
  ends of the range meet. The wraps cancel (`toInt32_sub_turned`), so that a wheel that has
  moved by `d` is seen to have moved by `d` in its own sign, wherever the encoder stood
  (`rollOver_transparent`).
-/

import SeerDIOBoard.Chassis.DrivePath
import SeerDIOBoard.Mileage.Samples

namespace SeerDIOBoard.Mileage.CMileage

open Function (update)
open SeerDIOBoard.Can

/-! ## The readings -/

/-- The sign `getPositions` gives a wheel, before `m_inverse`. -/
def wheelSign (numOfWheel i : Nat) : Int :=
  if numOfWheel = 2 ∧ i = 0 ∨ numOfWheel = 4 ∧ (i = 1 ∨ i = 2) then -1 else 1

theorem wheelSign_unit (n i : Nat) : wheelSign n i = 1 ∨ wheelSign n i = -1 := by
  unfold wheelSign
  split
  case isTrue => exact .inr rfl
  case isFalse => exact .inl rfl

/-- The chassis types `getPositions` knows. -/
def Counted (m : CMileage) : Prop := m.numOfWheel = 2 ∨ m.numOfWheel = 3 ∨ m.numOfWheel = 4

theorem getPositions_eq {m : CMileage} (h : m.Counted) (ar : Arith) (p : Nat → Int) {i : Nat} (hi : i < m.numOfWheel) :
    m.getPositions ar p i = ar.int32 (wheelSign m.numOfWheel i * m.inverse * m.pos i) := by
  unfold getPositions
  rcases h with hn | hn | hn
  · rw [hn] at hi ⊢
    obtain rfl | rfl : i = 0 ∨ i = 1 := by omega
    · rfl
    · show ar.int32 (m.inverse * m.pos 1) = ar.int32 (1 * m.inverse * m.pos 1)
      rw [one_mul]
  · rw [hn] at hi ⊢
    show (if i < 3 then _ else _) = _
    rw [if_pos hi, wheelSign, if_neg (by omega), one_mul]
  · rw [hn] at hi ⊢
    obtain rfl | rfl | rfl | rfl : i = 0 ∨ i = 1 ∨ i = 2 ∨ i = 3 := by omega
    · show ar.int32 (m.inverse * m.pos 0) = ar.int32 (1 * m.inverse * m.pos 0)
      rw [one_mul]
    · rfl
    · rfl
    · show ar.int32 (m.inverse * m.pos 3) = ar.int32 (1 * m.inverse * m.pos 3)
      rw [one_mul]

/-- Only the positions of the wheels in use are written. -/
theorem readPos_eq (m : CMileage) (pos : Nat → Int) :
    m.readPos pos = { m with pos := copyWheels m.numOfWheel pos m.pos } := by
  have hloop : ∀ n : Nat, (List.range n).foldl (fun m i => m.setPos i (pos i)) m =
      { m with pos := copyWheels n pos m.pos } := by
    intro n
    induction n with
    | zero => rfl
    | succ n ih =>
      rw [List.range_succ, List.foldl_append, ih]
      show { m with pos := update (copyWheels n pos m.pos) n (pos n) } = _
      congr 1
      funext i
      rcases Nat.lt_trichotomy i n with hlt | rfl | hgt
      · rw [Function.update_of_ne (Nat.ne_of_lt hlt), copyWheels_lt pos m.pos hlt, copyWheels_lt pos m.pos (by omega)]
      · rw [Function.update_self, copyWheels_lt pos m.pos (Nat.lt_succ_self i)]
      · rw [Function.update_of_ne (Nat.ne_of_gt hgt)]
        unfold copyWheels
        rw [if_neg (by omega), if_neg (by omega)]
  exact hloop m.numOfWheel

theorem reading_eq {m : CMileage} (h : m.Counted) (ar : Arith) (pos : Nat → Int) {i : Nat} (hi : i < m.numOfWheel) :
    m.reading ar pos i = ar.int32 (wheelSign m.numOfWheel i * m.inverse * pos i) := by
  rw [reading, readPos_eq]
  refine (getPositions_eq (m := { m with pos := copyWheels m.numOfWheel pos m.pos }) h ar _ hi).trans ?_
  show ar.int32 (wheelSign m.numOfWheel i * m.inverse * copyWheels m.numOfWheel pos m.pos i) = _
  rw [copyWheels_lt pos m.pos hi]

/-! ## Wrapping -/

theorem toInt32_small {d : Int} (h : |d| ≤ encoderMaxDiff) : toInt32 d = d := by
  have habs : -2000000 ≤ d ∧ d ≤ 2000000 := abs_le.mp h
  exact Int.bmod_eq_of_le_mul_two (by omega) (by omega)

/-- The wraps of the two readings and of their difference cancel. -/
theorem toInt32_sub_turned (s q d : Int) :
    toInt32 (toInt32 (s * toInt32 (q + d)) - toInt32 (s * q)) = toInt32 (s * d) := by
  unfold toInt32
  rw [Int.sub_bmod_bmod, Int.mul_bmod_bmod, Int.bmod_sub_bmod]
  congr 1
  ring

/-! ## Two reports -/

/-- The call of `doCalc` in `CChassisDevice::report`, with the motors at `pos`. -/
def odoSample (ar : Arith) (m : CMileage) (pos : Nat → Int) (planarPos : PlanarPos) : Sample where
  p := m.reading ar pos
  planarPos := planarPos

/-- What `CChassisDevice::report` leaves. -/
def odo (ar : Arith) (m : CMileage) (pos : Nat → Int) (planarPos : PlanarPos) : CMileage :=
  sample ar (m.readPos pos) (m.odoSample ar pos planarPos)

variable {ar : Arith} {m : CMileage}

/-- After a report the wheels are where it was taken. -/
theorem odo_staticP (pos : Nat → Int) (planarPos : PlanarPos) {i : Nat} (hi : i < m.numOfWheel) :
    (odo ar m pos planarPos).staticP i = m.reading ar pos i := by
  have hi' : i < (m.readPos pos).numOfWheel := by
    rw [readPos_eq]
    exact hi
  exact sample_staticP hi'

theorem odo_frame (pos : Nat → Int) (planarPos : PlanarPos) :
    (odo ar m pos planarPos).firstIn = false ∧ (odo ar m pos planarPos).chassisType = m.chassisType ∧
      (odo ar m pos planarPos).inverse = m.inverse := by
  obtain ⟨_, _, _, _, _, _, _, _, h⟩ : ∃ _ _ _ _ _ _ _ _, odo ar m pos planarPos = _ := sample_writes
  rw [h, readPos_eq]
  exact ⟨rfl, rfl, rfl⟩

/-- The sign a wheel is read with. -/
def readSign (m : CMileage) (i : Nat) : Int := wheelSign m.numOfWheel i * m.inverse

theorem abs_readSign (m : CMileage) (i : Nat) : |m.readSign i| = 1 := by
  unfold readSign
  rw [abs_mul]
  rcases wheelSign_unit m.numOfWheel i with hs | hs
  all_goals rcases m.inverse_unit with hinv | hinv
  all_goals rw [hs, hinv]; rfl

theorem odo_wheelDelta (har : ar.TwosComplement) (hn : m.Counted) {pos pos' d : Nat → Int} {i : Nat} (hi : i < m.numOfWheel)
    (hd : |d i| ≤ encoderMaxDiff) (hpos : pos' i = toInt32 (pos i + d i)) (planarPos : PlanarPos) :
    wheelDelta ar ((odo ar m pos planarPos).reading ar pos') (odo ar m pos planarPos).staticP i = m.readSign i * d i := by
  obtain ⟨-, htype, hinv⟩ : _ ∧ (odo ar m pos planarPos).chassisType = m.chassisType ∧ _ := odo_frame pos planarPos
  have hwheels : (odo ar m pos planarPos).numOfWheel = m.numOfWheel := congrArg Mileage.numOfWheel htype
  have hcounted : (odo ar m pos planarPos).Counted := by
    unfold Counted
    rw [hwheels]
    exact hn
  have hsize : |m.readSign i * d i| ≤ encoderMaxDiff := by
    rw [abs_mul, abs_readSign, one_mul]
    exact hd
  rw [wheelDelta, odo_staticP pos planarPos hi, reading_eq hcounted ar pos' (by rw [hwheels]; exact hi),
    reading_eq hn ar pos hi, hwheels, hinv, har, har, har, hpos]
  exact (toInt32_sub_turned (m.readSign i) (pos i) (d i)).trans (toInt32_small hsize)

theorem rollOver_transparent (ar : Arith) (har : ar.TwosComplement) (m : CMileage) (hn : m.Counted)
    (pos pos' d : Nat → Int) (hd : ∀ i, i < m.numOfWheel → |d i| ≤ encoderMaxDiff)
    (hpos : ∀ i, i < m.numOfWheel → pos' i = toInt32 (pos i + d i)) (planarPos planarPos' : PlanarPos) :
    let m₁ := odo ar m pos planarPos
    result ar (m₁.readPos pos') (m₁.odoSample ar pos' planarPos') = 0 ∧
      ∃ wheelPos, handed ar (m₁.readPos pos') (m₁.odoSample ar pos' planarPos') = some wheelPos ∧
        ∀ i, i < m.numOfWheel → wheelPos i = (wheelSign m.numOfWheel i * m.inverse * d i : Int) := by
  intro m₁
  obtain ⟨hfirst, htype, -⟩ : m₁.firstIn = false ∧ m₁.chassisType = m.chassisType ∧ _ := odo_frame pos planarPos
  have hwheels : m₁.numOfWheel = m.numOfWheel := congrArg Mileage.numOfWheel htype
  have hread : m₁.readPos pos' = { m₁ with pos := copyWheels m₁.numOfWheel pos' m₁.pos } := readPos_eq m₁ pos'
  have hdelta : ∀ i, i < m.numOfWheel →
      wheelDelta ar (m₁.odoSample ar pos' planarPos').p (m₁.readPos pos').staticP i = m.readSign i * d i := by
    intro i hi
    rw [hread]
    exact odo_wheelDelta har hn hi (hd i hi) (hpos i hi) planarPos
  have hwheels' : (m₁.readPos pos').numOfWheel = m.numOfWheel := by
    rw [hread]
    exact hwheels
  obtain ⟨hres, w, sp, st, hw, -, hin⟩ : result ar (m₁.readPos pos') (m₁.odoSample ar pos' planarPos') = 0 ∧ _ := by
    refine ok_sample (by rw [hread]; exact hfirst) fun i hi => ?_
    rw [hwheels'] at hi
    rw [hdelta i hi, abs_mul, abs_readSign, one_mul]
    exact hd i hi
  refine ⟨hres, w, hw, fun i hi => ?_⟩
  rw [(hin i (by rw [hwheels']; exact hi)).1, hdelta i hi]
  rfl

/-- The left wheel from -2^31 backwards, the right one from 2^31 - 1 forwards. -/
theorem rollOver_bothEnds :
    let m₁ := odo board (new 0) (fun i => if i = 0 then -2147483648 else 2147483647) ⟨0, 0, 0⟩
    let pos' : Nat → Int := fun i => if i = 0 then 2147483643 else -2147483642
    ∃ wheelPos, handed board (m₁.readPos pos') (m₁.odoSample board pos' ⟨0, 0, 0⟩) = some wheelPos ∧
      wheelPos 0 = 5 ∧ wheelPos 1 = 7 := by
  have hmove : ∀ i, i < (new 0).numOfWheel → |(fun i => if i = 0 then -5 else 7 : Nat → Int) i| ≤ encoderMaxDiff := by
    decide
  obtain ⟨-, w, hw, hin⟩ := rollOver_transparent board (fun _ => rfl) (new 0) (.inl rfl)
    (fun i => if i = 0 then -2147483648 else 2147483647) (fun i => if i = 0 then 2147483643 else -2147483642)
    (fun i => if i = 0 then -5 else 7) hmove (by decide) ⟨0, 0, 0⟩ ⟨0, 0, 0⟩
  refine ⟨w, hw, (hin 0 (by decide)).trans ?_, (hin 1 (by decide)).trans ?_⟩
  · rfl
  · rfl

end SeerDIOBoard.Mileage.CMileage
