/-
  SeerDIOBoard.Mileage.Heading — the heading of a two-wheeled chassis does not depend on how
  its motion is sampled.

  `doCalc` brings the angle back into (-PI, PI] after every sample, by two loops
  (`normalised`). The wheel positions enter the rotation linearly, so between two samples
  only multiples of a full turn are lost: over a run the angle is that of the wheels'
  whole displacement (`Turned`), brought into the range once.

  `heading_of_readings`: two runs from a reset between the same two readings end with the
  same angle, and it is the only one in the range that differs from the rotation of the
  displacement by full turns.
-/

import Mathlib.Algebra.Order.ToIntervalMod
import SeerDIOBoard.Chassis.DrivePath
import SeerDIOBoard.Mileage.Samples

namespace SeerDIOBoard.Mileage

open Lib.Machine

theorem Arith.turn_pos (ar : Arith) : 0 < 2 * ar.pi := mul_pos two_pos ar.pi_pos

namespace CMileage

variable {ar : Arith}

/-! ## The two loops -/

theorem raiseAngle_mod (angle : ℚ) :
    toIocMod ar.turn_pos (-ar.pi) (raiseAngle ar angle) = toIocMod ar.turn_pos (-ar.pi) angle := by
  induction angle using raiseAngle.induct ar with
  | case1 angle h ih =>
    rw [raiseAngle, if_pos h, ih]
    exact toIocMod_add_right ar.turn_pos _ _
  | case2 angle h => rw [raiseAngle, if_neg h]

theorem raiseAngle_gt (angle : ℚ) : -ar.pi < raiseAngle ar angle := by
  induction angle using raiseAngle.induct ar with
  | case1 angle h ih =>
    rw [raiseAngle, if_pos h]
    exact ih
  | case2 angle h =>
    rw [raiseAngle, if_neg h]
    exact not_le.mp h

theorem lowerAngle_mod (angle : ℚ) :
    toIocMod ar.turn_pos (-ar.pi) (lowerAngle ar angle) = toIocMod ar.turn_pos (-ar.pi) angle := by
  induction angle using lowerAngle.induct ar with
  | case1 angle h ih =>
    rw [lowerAngle, if_pos h, ih]
    exact toIocMod_sub ar.turn_pos _ _
  | case2 angle h => rw [lowerAngle, if_neg h]

/-- Lowering by a turn from above PI stays above -PI. -/
theorem lowerAngle_mem {angle : ℚ} (h : -ar.pi < angle) : lowerAngle ar angle ∈ Set.Ioc (-ar.pi) ar.pi := by
  induction angle using lowerAngle.induct ar with
  | case1 angle hgt ih =>
    rw [lowerAngle, if_pos hgt]
    exact ih (by linarith)
  | case2 angle hle =>
    rw [lowerAngle, if_neg hle]
    exact ⟨h, not_lt.mp hle⟩

theorem lowerAngle_le (angle : ℚ) : lowerAngle ar angle ≤ ar.pi := by
  induction angle using lowerAngle.induct ar with
  | case1 angle h ih =>
    rw [lowerAngle, if_pos h]
    exact ih
  | case2 angle h =>
    rw [lowerAngle, if_neg h]
    exact not_lt.mp h

/-- Raising by a turn from -PI or below stays at most PI. -/
theorem raiseAngle_mem {angle : ℚ} (h : angle ≤ ar.pi) : raiseAngle ar angle ∈ Set.Ioc (-ar.pi) ar.pi := by
  induction angle using raiseAngle.induct ar with
  | case1 angle hle ih =>
    rw [raiseAngle, if_pos hle]
    exact ih (by linarith)
  | case2 angle hgt =>
    rw [raiseAngle, if_neg hgt]
    exact ⟨not_le.mp hgt, h⟩

theorem range_eq : -ar.pi + 2 * ar.pi = ar.pi := by ring

/-- The two loops together. -/
theorem normalised (angle : ℚ) :
    lowerAngle ar (raiseAngle ar angle) = toIocMod ar.turn_pos (-ar.pi) angle := by
  have hmem : lowerAngle ar (raiseAngle ar angle) ∈ Set.Ioc (-ar.pi) ar.pi := lowerAngle_mem (raiseAngle_gt angle)
  rw [← raiseAngle_mod, ← lowerAngle_mod]
  refine ((toIocMod_eq_self ar.turn_pos).mpr ?_).symm
  rw [range_eq]
  exact hmem

/-- Wrapping before a rotation is added changes nothing. -/
theorem toIocMod_add_wrapped (a b : ℚ) :
    toIocMod ar.turn_pos (-ar.pi) (toIocMod ar.turn_pos (-ar.pi) a + b) = toIocMod ar.turn_pos (-ar.pi) (a + b) := by
  refine (toIocMod_eq_toIocMod ar.turn_pos).mpr ⟨toIocDiv ar.turn_pos (-ar.pi) a, ?_⟩
  rw [add_sub_add_right_eq_sub, self_sub_toIocMod]

/-! ## Rotations -/

/-- The rotation that goes with a displacement of the wheels. -/
def rotation (m : CMileage) (d : Nat → ℚ) : ℚ := (m.forwardKinematicsTransDiff d).theta

/-- Only the two wheels matter. -/
theorem rotation_congr (m : CMileage) {a b : Nat → ℚ} (h : ∀ i, i < 2 → a i = b i) : m.rotation a = m.rotation b := by
  unfold rotation forwardKinematicsTransDiff
  rw [h 0 (by decide), h 1 (by decide)]

theorem rotation_add (m : CMileage) {a b c : Nat → ℚ} (h : ∀ i, i < 2 → c i = a i + b i) :
    m.rotation c = m.rotation a + m.rotation b := by
  unfold rotation forwardKinematicsTransDiff
  rw [h 0 (by decide), h 1 (by decide)]
  ring

theorem rotation_zero (m : CMileage) {d : Nat → ℚ} (h : ∀ i, i < 2 → d i = 0) : m.rotation d = 0 := by
  unfold rotation forwardKinematicsTransDiff
  rw [h 0 (by decide), h 1 (by decide)]
  simp

/-! ## Runs -/

/-- The object after samples that started from `m`, none of them the first and none rejected. -/
structure Turned (ar : Arith) (m m' : CMileage) : Prop where
  params : SameParams m m'
  firstIn : m'.firstIn = false
  angle : m'.angle =
    toIocMod ar.turn_pos (-ar.pi) (m.angle + m.rotation fun i => (m'.staticP i : ℚ) - m.staticP i)

theorem turned_refl {m : CMileage} (hfirst : m.firstIn = false) (hangle : m.angle ∈ Set.Ioc (-ar.pi) ar.pi) :
    Turned ar m m := by
  refine ⟨⟨rfl, rfl, rfl, rfl⟩, hfirst, ?_⟩
  rw [rotation_zero m fun i _ => sub_self _, add_zero]
  refine ((toIocMod_eq_self ar.turn_pos).mpr ?_).symm
  rw [range_eq]
  exact hangle

theorem turned_sample (har : ar.Exact) {m m' : CMileage} (htype : m.chassisType = doubleDiff) (h : Turned ar m m')
    {e : Sample} (hok : result ar m' e ≠ 2) : Turned ar m (sample ar m' e) := by
  have htype' : m'.chassisType = doubleDiff := h.params.chassisType.trans htype
  have hwheels := numOfWheel_diff htype'
  have hno : ∀ i, i < m'.numOfWheel → |wheelDelta ar e.p m'.staticP i| ≤ encoderMaxDiff := by
    by_contra hjump
    obtain ⟨j, hj⟩ := exists_firstJump hjump
    exact hok (jump_sample h.firstIn hj).1
  obtain ⟨-, w, sp, st, -, hm, hw⟩ := ok_sample h.firstIn hno
  rw [hwheels] at hw
  rw [hm]
  refine ⟨⟨h.params.chassisType, h.params.e, h.params.scale, h.params.posReduceRate⟩, h.firstIn, ?_⟩
  show lowerAngle ar (raiseAngle ar (m'.angle + (m'.forwardKinematicsTrans w e.planarPos).theta)) = _
  have hturn : (m'.forwardKinematicsTrans w e.planarPos).theta = m.rotation w := by
    rw [forwardKinematicsTrans, if_pos htype'.symm, h.params.forward]
    rfl
  have hadd : m.rotation (fun i => (sp i : ℚ) - m.staticP i) =
      m.rotation (fun i => (m'.staticP i : ℚ) - m.staticP i) + m.rotation w := by
    refine rotation_add m fun i hi => ?_
    rw [(hw i hi).1, (hw i hi).2, wheelDelta, har]
    push_cast
    ring
  rw [normalised, hturn, h.angle, toIocMod_add_wrapped, add_assoc, ← hadd]
  rfl

/-- No sample of the run is rejected. -/
def NoneRejected (ar : Arith) (m : CMileage) (es : List Sample) : Prop :=
  Along (sample ar) (fun m' e => result ar m' e ≠ 2) m es

theorem turned_run (har : ar.Exact) {m : CMileage} (htype : m.chassisType = doubleDiff) (hfirst : m.firstIn = false)
    (hangle : m.angle ∈ Set.Ioc (-ar.pi) ar.pi) (es : List Sample) (hok : NoneRejected ar m es) :
    Turned ar m (run (sample ar) m es) :=
  inv_run (I := Turned ar m) (fun _ _ h => turned_sample har htype h) es m (turned_refl hfirst hangle) hok

/-- From a reset, the whole run is one rotation. -/
theorem run_heading (har : ar.Exact) {m : CMileage} (htype : m.chassisType = doubleDiff) (es : List Sample)
    (hok : NoneRejected ar m.reset es) :
    (run (sample ar) m.reset es).angle = toIocMod ar.turn_pos (-ar.pi)
      (m.rotation fun i => (lastReading m.reset es i : ℚ) - firstReading m.reset es i) := by
  have hzero : (0 : ℚ) ∈ Set.Ioc (-ar.pi) ar.pi := ⟨neg_lt_zero.mpr ar.pi_pos, ar.pi_pos.le⟩
  cases es with
  | nil =>
    have hstill : m.rotation (fun i => (lastReading m.reset [] i : ℚ) - firstReading m.reset [] i) = 0 :=
      rotation_zero m fun i _ => sub_self _
    rw [hstill]
    refine ((toIocMod_eq_self ar.turn_pos).mpr ?_).symm
    rw [range_eq]
    exact hzero
  | cons e es =>
    have hwheels := numOfWheel_diff htype
    have hm : sample ar m.reset e = { m.reset with firstIn := false, staticP := copyWheels m.numOfWheel e.p m.staticP } :=
      (first_sample rfl).2
    have hturned := turned_run har (m := sample ar m.reset e) (by rw [hm]; exact htype) (by rw [hm])
      (by rw [hm]; exact hzero) es hok.2
    have hangle := hturned.angle
    have hstart : (sample ar m.reset e).angle = 0 := by rw [hm]; rfl
    have hparams : (sample ar m.reset e).rotation = m.rotation := by rw [hm]; rfl
    rw [hstart, hparams, zero_add] at hangle
    have hdisplaced : m.rotation (fun i => ((run (sample ar) (sample ar m.reset e) es).staticP i : ℚ) -
        (sample ar m.reset e).staticP i) =
        m.rotation fun i => (lastReading m.reset (e :: es) i : ℚ) - firstReading m.reset (e :: es) i := by
      refine rotation_congr m fun i hi => ?_
      have hi' : i < m.reset.numOfWheel := by
        show i < m.numOfWheel
        rw [hwheels]
        exact hi
      rw [sample_staticP hi', ← run_cons, run_staticP (e :: es) hi']
      rfl
    rw [run_cons, hangle, hdisplaced]

/-- The angle `a` is the rotation `r`, brought into the range by full turns. -/
structure Heading (ar : Arith) (r a : ℚ) : Prop where
  mem : a ∈ Set.Ioc (-ar.pi) ar.pi
  turns : ∃ k : Int, a = r + k * (2 * ar.pi)
  only : ∀ b ∈ Set.Ioc (-ar.pi) ar.pi, (∃ k : Int, b = r + k * (2 * ar.pi)) → b = a

theorem heading_toIocMod (ar : Arith) (r : ℚ) : Heading ar r (toIocMod ar.turn_pos (-ar.pi) r) := by
  have hturns : ∀ {b : ℚ}, (∃ k : Int, b = r + k * (2 * ar.pi)) ↔ ∃ z : Int, r = b + z • (2 * ar.pi) := by
    intro b
    constructor
    · rintro ⟨k, rfl⟩
      exact ⟨-k, by rw [zsmul_eq_mul]; push_cast; ring⟩
    · rintro ⟨z, hz⟩
      exact ⟨-z, by rw [hz, zsmul_eq_mul]; push_cast; ring⟩
  have hiff : ∀ {b : ℚ}, toIocMod ar.turn_pos (-ar.pi) r = b ↔
      b ∈ Set.Ioc (-ar.pi) ar.pi ∧ ∃ k : Int, b = r + k * (2 * ar.pi) := by
    intro b
    rw [toIocMod_eq_iff, range_eq, hturns]
  exact ⟨(hiff.mp rfl).1, (hiff.mp rfl).2, fun b hb hk => (hiff.mpr ⟨hb, hk⟩).symm⟩

theorem heading_of_readings (ar : Arith) (har : ar.Exact) (m : CMileage) (htype : m.chassisType = doubleDiff)
    (es es' : List Sample) (hfirst : ∀ i, i < 2 → firstReading m.reset es i = firstReading m.reset es' i)
    (hlast : ∀ i, i < 2 → lastReading m.reset es i = lastReading m.reset es' i) (hok : NoneRejected ar m.reset es)
    (hok' : NoneRejected ar m.reset es') :
    (run (sample ar) m.reset es').angle = (run (sample ar) m.reset es).angle ∧
      Heading ar (m.rotation fun i => (lastReading m.reset es i : ℚ) - firstReading m.reset es i)
        (run (sample ar) m.reset es).angle := by
  have hsame : m.rotation (fun i => (lastReading m.reset es' i : ℚ) - firstReading m.reset es' i) =
      m.rotation fun i => (lastReading m.reset es i : ℚ) - firstReading m.reset es i :=
    rotation_congr m fun i hi => by rw [hfirst i hi, hlast i hi]
  rw [run_heading har htype es hok, run_heading har htype es' hok', hsame]
  exact ⟨rfl, heading_toIocMod ar _⟩

/-- Four radians to the left, in one sample and in three. -/
theorem heading_fourRadians :
    (run (sample Chassis.exact) (new 0).reset [both 7 7, both 2 22, both 12 12, both 7 27]).angle =
      (run (sample Chassis.exact) (new 0).reset [both 7 7, both 7 27]).angle := by
  refine (heading_of_readings Chassis.exact (fun _ => rfl) (new 0) rfl [both 7 7, both 7 27]
    [both 7 7, both 2 22, both 12 12, both 7 27] (fun _ _ => rfl) (fun _ _ => rfl) ?_ ?_).1
  · exact ⟨by decide +kernel, by decide +kernel, trivial⟩
  · exact ⟨by decide +kernel, by decide +kernel, by decide +kernel, by decide +kernel, trivial⟩

end CMileage

end SeerDIOBoard.Mileage
