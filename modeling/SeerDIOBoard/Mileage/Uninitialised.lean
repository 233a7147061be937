/-
  SeerDIOBoard.Mileage.Uninitialised — what the pose owes to a local that is not written.

  `doCalc` leaves it to `forwardKinematicsTrans` to fill its `planarPos`, and that does so
  for one chassis type only. With any other one the local is added to the pose as the
  stack left it, for every sample that is neither the first one nor rejected.

  `pose_determined_iff`: the pose is a function of the readings exactly for the two-wheeled
  type, and where no reading gets that far (`NoneUsed`).
-/

import SeerDIOBoard.Mileage.Heading

namespace SeerDIOBoard.Mileage.CMileage

open Lib.Machine

/-- The readings `ps`, the calls finding their local as in `g`. -/
def samples (ps : List (Nat → Int)) (g : List PlanarPos) : List Sample := List.zipWith Sample.mk ps g

def pose (m : CMileage) : PlanarPos := { x := m.x, y := m.y, theta := m.angle }

/-- Whatever the locals hold, the pose comes out the same. -/
def Determined (ar : Arith) (m : CMileage) (ps : List (Nat → Int)) : Prop :=
  ∀ g g' : List PlanarPos, g.length = ps.length → g'.length = ps.length →
    (run (sample ar) m (samples ps g)).pose = (run (sample ar) m (samples ps g')).pose

/-- In each of the readings one of `n` wheels has jumped since the one before, the first
    of them being `q`. -/
def AllJump (ar : Arith) (n : Nat) : (Nat → Int) → List (Nat → Int) → Prop
  | _, [] => True
  | q, p :: ps => (∃ j, j < n ∧ encoderMaxDiff < |wheelDelta ar p q j|) ∧ AllJump ar n p ps

/-- No reading gets as far as the pose: at most the first one is without a jump, where it
    is the first after a reset. -/
def NoneUsed (ar : Arith) (m : CMileage) (ps : List (Nat → Int)) : Prop :=
  if m.firstIn = true then
    match ps with
    | [] => True
    | p :: ps => AllJump ar m.numOfWheel p ps
  else AllJump ar m.numOfWheel m.staticP ps

variable {ar : Arith}

theorem allJump_congr {n : Nat} {q q' : Nat → Int} (h : ∀ j, j < n → q j = q' j) (ps : List (Nat → Int)) :
    AllJump ar n q ps ↔ AllJump ar n q' ps := by
  cases ps with
  | nil => exact Iff.rfl
  | cons p ps =>
    refine and_congr_left fun _ => exists_congr fun j => and_congr_right fun hj => ?_
    unfold wheelDelta
    rw [h j hj]

/-- A call that does not get as far as the pose: the first one, or one with a jump. -/
def Unused (ar : Arith) (m : CMileage) (p : Nat → Int) : Prop :=
  m.firstIn = true ∨ ∃ j, j < m.numOfWheel ∧ encoderMaxDiff < |wheelDelta ar p m.staticP j|

theorem noneUsed_cons (m : CMileage) (p : Nat → Int) (pp : PlanarPos) (ps : List (Nat → Int)) :
    NoneUsed ar m (p :: ps) ↔ Unused ar m p ∧ NoneUsed ar (sample ar m ⟨p, pp⟩) ps := by
  have hrest : NoneUsed ar (sample ar m ⟨p, pp⟩) ps ↔ AllJump ar m.numOfWheel p ps := by
    unfold NoneUsed
    rw [sample_firstIn, if_neg Bool.false_ne_true, sample_numOfWheel]
    exact allJump_congr (fun j hj => sample_staticP hj) ps
  rw [hrest]
  unfold NoneUsed Unused
  by_cases hfirst : m.firstIn = true
  · rw [if_pos hfirst]
    exact ⟨fun h => ⟨.inl hfirst, h⟩, fun h => h.2⟩
  · rw [if_neg hfirst]
    exact ⟨fun h => ⟨.inr h.1, h.2⟩, fun h => ⟨h.1.resolve_left hfirst, h.2⟩⟩

/-! ## One call -/

/-- A call that is not used does not look at its local. -/
theorem sample_unused {m : CMileage} {p : Nat → Int} (h : Unused ar m p) :
    ∃ m', m'.angle = m.angle ∧ m'.chassisType = m.chassisType ∧ ∀ a, sample ar m ⟨p, a⟩ = m' := by
  rcases h with hfirst | hjump
  · exact ⟨{ m with firstIn := false, staticP := copyWheels m.numOfWheel p m.staticP }, rfl, rfl,
      fun a => (first_sample hfirst).2⟩
  by_cases hfirst : m.firstIn = true
  · exact ⟨{ m with firstIn := false, staticP := copyWheels m.numOfWheel p m.staticP }, rfl, rfl,
      fun a => (first_sample hfirst).2⟩
  have hno : ¬ ∀ i, i < m.numOfWheel → |wheelDelta ar p m.staticP i| ≤ encoderMaxDiff := by
    obtain ⟨j, hj, hlt⟩ := hjump
    exact fun hall => absurd (hall j hj) (not_le.mpr hlt)
  obtain ⟨j, hj⟩ := exists_firstJump hno
  obtain ⟨st, w, heq, -⟩ := diffWheels_jump ar p m.numOfWheel 0 m (fun _ => 0) (Nat.zero_le j)
    (by rw [Nat.zero_add]; exact hj.lt) (by rw [Nat.zero_add]) hj.jumps fun l _ => hj.before l
  refine ⟨{ m with staticP := copyWheels m.numOfWheel p m.staticP, stopped := st }, rfl, rfl, fun a => ?_⟩
  unfold sample doCalc
  rw [if_neg fun he => hfirst he.symm, heq]

/-- One that is used hands it to the kinematics. -/
theorem sample_used {m : CMileage} {p : Nat → Int} (h : ¬ Unused ar m p) :
    ∃ sp st w, ∀ a, sample ar m ⟨p, a⟩ =
      addPose ar { m with staticP := sp, stopped := st } (m.forwardKinematicsTrans w a) := by
  obtain ⟨hfirst, hjump⟩ := not_or.mp h
  obtain ⟨sp, st, w, heq, -⟩ := diffWheels_ok ar p m.numOfWheel 0 m (fun _ => 0) fun j _ hj =>
    not_lt.mp fun hlt => hjump ⟨j, by omega, hlt⟩
  refine ⟨sp, st, w, fun a => ?_⟩
  unfold sample doCalc
  rw [if_neg fun he => hfirst he.symm, heq]
  rfl

theorem sample_chassisType (m : CMileage) (e : Sample) : (sample ar m e).chassisType = m.chassisType := by
  obtain ⟨_, _, _, _, _, _, _, _, h⟩ := @sample_writes ar m e
  rw [h]

theorem sample_determined {m : CMileage} {p : Nat → Int} (h : m.chassisType = doubleDiff ∨ Unused ar m p)
    (a b : PlanarPos) : sample ar m ⟨p, a⟩ = sample ar m ⟨p, b⟩ := by
  by_cases hu : Unused ar m p
  · obtain ⟨m', -, -, hm⟩ := sample_unused hu
    rw [hm, hm]
  · obtain ⟨sp, st, w, hm⟩ := sample_used hu
    have htype := h.resolve_right hu
    rw [hm, hm, forwardKinematicsTrans, forwardKinematicsTrans, if_pos htype.symm, if_pos htype.symm]

/-! ## Runs -/

theorem run_determined {m : CMileage} {ps : List (Nat → Int)} (h : m.chassisType = doubleDiff ∨ NoneUsed ar m ps)
    {g g' : List PlanarPos} (hg : g.length = ps.length) (hg' : g'.length = ps.length) :
    run (sample ar) m (samples ps g) = run (sample ar) m (samples ps g') := by
  induction ps generalizing m g g' with
  | nil => rfl
  | cons p ps ih =>
    cases g with
    | nil => cases hg
    | cons a g =>
      cases g' with
      | nil => cases hg'
      | cons b g' =>
        have hone : m.chassisType = doubleDiff ∨ Unused ar m p := h.imp_right fun hn => ((noneUsed_cons m p a ps).mp hn).1
        have hrest : (sample ar m ⟨p, a⟩).chassisType = doubleDiff ∨ NoneUsed ar (sample ar m ⟨p, a⟩) ps :=
          h.imp (fun ht => (sample_chassisType m _).trans ht) fun hn => ((noneUsed_cons m p a ps).mp hn).2
        show run (sample ar) (sample ar m ⟨p, a⟩) (samples ps g) = run (sample ar) (sample ar m ⟨p, b⟩) (samples ps g')
        rw [← sample_determined hone a b]
        exact ih hrest (Nat.succ.inj hg) (Nat.succ.inj hg')

/-- The angle, brought into the range. -/
def heading (ar : Arith) (m : CMileage) : ℚ := lowerAngle ar (raiseAngle ar m.angle)

theorem heading_used {m : CMileage} {p : Nat → Int} (ht : m.chassisType ≠ doubleDiff) (h : ¬ Unused ar m p)
    (a : PlanarPos) : heading ar (sample ar m ⟨p, a⟩) = lowerAngle ar (raiseAngle ar (m.angle + a.theta)) := by
  obtain ⟨sp, st, w, hm⟩ := sample_used h
  rw [hm, forwardKinematicsTrans, if_neg fun he => ht he.symm]
  show lowerAngle ar (raiseAngle ar (lowerAngle ar (raiseAngle ar (m.angle + a.theta)))) = _
  rw [normalised, lowerAngle_mod, raiseAngle_mod, ← normalised]

/-- A local that holds zero leaves the heading alone. -/
theorem heading_zero {m : CMileage} (ht : m.chassisType ≠ doubleDiff) (p : Nat → Int) :
    heading ar (sample ar m ⟨p, ⟨0, 0, 0⟩⟩) = heading ar m := by
  by_cases hu : Unused ar m p
  · obtain ⟨m', hangle, -, hm⟩ := sample_unused hu
    rw [hm, heading, hangle]
    rfl
  · rw [heading_used ht hu, add_zero]
    rfl

def zeros (n : Nat) : List PlanarPos := List.replicate n ⟨0, 0, 0⟩

theorem heading_zeros {m : CMileage} (ht : m.chassisType ≠ doubleDiff) (ps : List (Nat → Int)) :
    heading ar (run (sample ar) m (samples ps (zeros ps.length))) = heading ar m := by
  induction ps generalizing m with
  | nil => rfl
  | cons p ps ih =>
    show heading ar (run (sample ar) (sample ar m ⟨p, ⟨0, 0, 0⟩⟩) (samples ps (zeros ps.length))) = _
    rw [ih fun he => ht ((sample_chassisType m _).symm.trans he), heading_zero ht]

/-- Where a reading is used, half a turn in its local turns the heading by as much. -/
theorem heading_halfTurn {m : CMileage} (ht : m.chassisType ≠ doubleDiff) {ps : List (Nat → Int)}
    (h : ¬ NoneUsed ar m ps) :
    ∃ g : List PlanarPos, g.length = ps.length ∧
      heading ar (run (sample ar) m (samples ps g)) = lowerAngle ar (raiseAngle ar (m.angle + ar.pi)) := by
  induction ps generalizing m with
  | nil =>
    refine absurd ?_ h
    unfold NoneUsed
    split <;> trivial
  | cons p ps ih =>
    have htype (a : PlanarPos) : (sample ar m ⟨p, a⟩).chassisType ≠ doubleDiff :=
      fun he => ht ((sample_chassisType m _).symm.trans he)
    by_cases hu : Unused ar m p
    · obtain ⟨m', hangle, -, hm⟩ := sample_unused hu
      have hrest : ¬ NoneUsed ar (sample ar m ⟨p, ⟨0, 0, 0⟩⟩) ps := fun hn => h ((noneUsed_cons m p _ ps).mpr ⟨hu, hn⟩)
      obtain ⟨g, hlen, hg⟩ := ih (htype ⟨0, 0, 0⟩) hrest
      refine ⟨⟨0, 0, 0⟩ :: g, by rw [List.length_cons, List.length_cons, hlen], ?_⟩
      rw [hm, hangle] at hg
      show heading ar (run (sample ar) (sample ar m ⟨p, ⟨0, 0, 0⟩⟩) (samples ps g)) = _
      rw [hm]
      exact hg
    · refine ⟨⟨0, 0, ar.pi⟩ :: zeros ps.length, by simp [zeros], ?_⟩
      show heading ar (run (sample ar) (sample ar m ⟨p, ⟨0, 0, ar.pi⟩⟩) (samples ps (zeros ps.length))) = _
      rw [heading_zeros (htype _), heading_used ht hu]

theorem halfTurn_ne (ar : Arith) (a : ℚ) :
    lowerAngle ar (raiseAngle ar (a + ar.pi)) ≠ lowerAngle ar (raiseAngle ar a) := by
  rw [normalised, normalised]
  intro h
  obtain ⟨n, hn⟩ := (toIocMod_eq_toIocMod ar.turn_pos).mp h
  rw [zsmul_eq_mul] at hn
  have hodd : ((2 * n + 1 : Int) : ℚ) * ar.pi = 0 := by
    push_cast
    linarith
  rcases mul_eq_zero.mp hodd with h0 | h0
  · rw [Int.cast_eq_zero] at h0
    omega
  · exact ar.pi_pos.ne' h0

theorem pose_determined_iff (ar : Arith) (m : CMileage) (chassisType : Int) (ps : List (Nat → Int)) :
    Determined ar (m.setChassisType chassisType) ps ↔
      chassisType = doubleDiff ∨ NoneUsed ar (m.setChassisType chassisType) ps := by
  constructor
  · intro hdet
    by_contra hno
    obtain ⟨ht, hu⟩ := not_or.mp hno
    obtain ⟨g, hlen, hg⟩ := heading_halfTurn (m := m.setChassisType chassisType) ht hu
    have hsame := hdet (zeros ps.length) g (by simp [zeros]) hlen
    have hangle := congrArg (fun q : PlanarPos => lowerAngle ar (raiseAngle ar q.theta)) hsame
    exact halfTurn_ne ar _ (hg.symm.trans (hangle.symm.trans (heading_zeros (m := m.setChassisType chassisType) ht ps)))
  · intro h g g' hg hg'
    exact congrArg pose (run_determined h hg hg')

/-! ## A chassis type no kinematics writes for -/

/-- Two equal readings, and what the stack may hold. -/
theorem quadSteer_undetermined : ¬ Determined Chassis.exact ((new 0).setChassisType quadSteer) [fun _ => 0, fun _ => 0] := by
  intro h
  have hx := congrArg PlanarPos.x (h [⟨0, 0, 0⟩, ⟨0, 0, 0⟩] [⟨0, 0, 0⟩, ⟨1, 0, 0⟩] rfl rfl)
  exact absurd hx (by decide +kernel)

end SeerDIOBoard.Mileage.CMileage
