/-
  SeerDIOBoard.Mileage.Samples — `doCalc` over runs of encoder samples, with any number of
  wheels.

  A sample is the first one after a reset, accepted, or rejected because a wheel jumped.
  The reference position of every wheel is the reading just passed in all three cases. A
  rejected sample leaves the pose and the last motion alone, but the loop has taken the
  wheels before the one that jumped for moving by then: `m_stopped` can be cleared
  (`doCalc_jump`).

  `samples_sound_iff`: that is all that can go wrong. What accepted samples hand to the
  forward kinematics (`handed`) adds up to the last reading less the first and less what
  the rejected ones moved by, in `int32_t` arithmetic, and as it stands when no difference
  of two readings wraps.
-/

import SeerDIOBoard.Lib.Machine
import SeerDIOBoard.Mileage.KinematicsProofs

namespace SeerDIOBoard.Mileage

open Function (update)
open Lib.Machine
open SeerDIOBoard.Can

/-- `int32_t` results wrap in two's complement. -/
def Arith.TwosComplement (ar : Arith) : Prop := ∀ n, ar.int32 n = toInt32 n

namespace CMileage

/-! ## A sample with a jump -/

/-- The wheel moved by more than the filter lets through. -/
def Jumps (ar : Arith) (m : CMileage) (p : Nat → Int) (i : Nat) : Prop :=
  encoderMaxDiff < |wheelDelta ar p m.staticP i|

instance (ar : Arith) (m : CMileage) (p : Nat → Int) (i : Nat) : Decidable (Jumps ar m p i) :=
  inferInstanceAs (Decidable (_ < _))

theorem copyWheels_update {n : Nat} (p staticP : Nat → Int) {i : Nat} (hi : i < n) :
    copyWheels n p (update staticP i (p i)) = copyWheels n p staticP := by
  funext j
  unfold copyWheels
  by_cases hj : j < n
  · rw [if_pos hj, if_pos hj]
  · rw [if_neg hj, if_neg hj, Function.update_of_ne (by omega)]

theorem moveWheel_stopped (m : CMileage) (i : Nat) (q d : Int) :
    (m.moveWheel i q d).stopped = true ↔ m.stopped = true ∧ |(d : ℚ)| ≤ m.criticalDelta := by
  show (if m.criticalDelta < |(d : ℚ)| then false else m.stopped) = true ↔ _
  by_cases h : m.criticalDelta < |(d : ℚ)|
  · rw [if_pos h]
    exact iff_of_false Bool.false_ne_true fun hs => absurd h (not_lt.mpr hs.2)
  · rw [if_neg h, and_iff_left (not_lt.mp h)]

/-- The loop stops at wheel `j`: the wheels before it have been taken for moving or not. -/
theorem diffWheels_jump (ar : Arith) (p : Nat → Int) {j : Nat} (k : Nat) :
    ∀ (i : Nat) (m : CMileage) (wheelPos : Nat → ℚ), i ≤ j → j < i + k → i + k ≤ m.numOfWheel → Jumps ar m p j →
      (∀ l, i ≤ l → l < j → ¬ Jumps ar m p l) →
      ∃ st wheelPos', diffWheels ar p k i m wheelPos =
          (false, { m with staticP := copyWheels m.numOfWheel p m.staticP, stopped := st }, wheelPos') ∧
        (st = true ↔
          m.stopped = true ∧ ∀ l, i ≤ l → l < j → |(wheelDelta ar p m.staticP l : ℚ)| ≤ m.criticalDelta) := by
  induction k with
  | zero => exact fun i m w h1 h2 => absurd h2 (by omega)
  | succ k ih =>
    intro i m w hij hjk hn hjump hbefore
    rcases Nat.eq_or_lt_of_le hij with rfl | hlt
    · refine ⟨m.stopped, w, ?_, ?_⟩
      · rw [diffWheels]
        exact if_pos hjump
      · rw [and_iff_left fun l h1 h2 => absurd h2 (by omega)]
    · have hmove : ∀ l, i < l → wheelDelta ar p (m.moveWheel i (p i) (wheelDelta ar p m.staticP i)).staticP l =
          wheelDelta ar p m.staticP l := fun l hl => wheelDelta_moveWheel ar p m i _ _ hl
      obtain ⟨st, w', heq, hst⟩ := ih (i + 1) (m.moveWheel i (p i) (wheelDelta ar p m.staticP i))
        (update w i (wheelDelta ar p m.staticP i)) hlt (by omega)
        (show i + 1 + k ≤ m.numOfWheel by omega)
        (show encoderMaxDiff < _ by rw [hmove j hlt]; exact hjump)
        fun l h1 h2 => show ¬ encoderMaxDiff < _ by rw [hmove l h1]; exact hbefore l (by omega) h2
      refine ⟨st, w', ?_, ?_⟩
      · rw [diffWheels]
        refine (if_neg (hbefore i (Nat.le_refl i) hlt)).trans (heq.trans ?_)
        show (false, { m with staticP := copyWheels m.numOfWheel p (update m.staticP i (p i)), stopped := st }, w') = _
        rw [copyWheels_update p m.staticP (by omega)]
      · rw [hst, moveWheel_stopped, and_assoc]
        refine and_congr_right fun _ => ⟨fun h l h1 h2 => ?_, fun h => ⟨h i (Nat.le_refl i) hlt, fun l h1 h2 => ?_⟩⟩
        · rcases Nat.eq_or_lt_of_le h1 with rfl | h1
          · exact h.1
          · rw [← hmove l h1]
            exact h.2 l h1 h2
        · rw [hmove l h1]
          exact h l (by omega) h2

/-- The wheel the loop stops at. -/
structure FirstJump (ar : Arith) (m : CMileage) (p : Nat → Int) (j : Nat) : Prop where
  lt : j < m.numOfWheel
  jumps : Jumps ar m p j
  before : ∀ l, l < j → ¬ Jumps ar m p l

theorem FirstJump.unique {ar : Arith} {m : CMileage} {p : Nat → Int} {j k : Nat} (hj : FirstJump ar m p j)
    (hk : FirstJump ar m p k) : k = j := by
  rcases Nat.lt_trichotomy k j with hlt | heq | hgt
  · exact absurd hk.jumps (hj.before k hlt)
  · exact heq
  · exact absurd hj.jumps (hk.before j hgt)

theorem exists_firstJump {ar : Arith} {m : CMileage} {p : Nat → Int}
    (h : ¬ ∀ i, i < m.numOfWheel → |wheelDelta ar p m.staticP i| ≤ encoderMaxDiff) : ∃ j, FirstJump ar m p j := by
  have hex : ∃ j, j < m.numOfWheel ∧ Jumps ar m p j := by
    by_contra hno
    exact h fun i hi => not_lt.mp fun hj => hno ⟨i, hi, hj⟩
  have hj := Nat.find_spec hex
  exact ⟨Nat.find hex, hj.1, hj.2, fun l hl hjump => Nat.find_min hex hl ⟨by omega, hjump⟩⟩

theorem doCalc_first (ar : Arith) (planarPos : PlanarPos) (m : CMileage) (p : Nat → Int) (hfirst : m.firstIn = true) :
    doCalc ar planarPos m p = (1, { m with firstIn := false, staticP := copyWheels m.numOfWheel p m.staticP }) :=
  if_pos hfirst.symm

theorem doCalc_jump {ar : Arith} {m : CMileage} {p : Nat → Int} {j : Nat} (planarPos : PlanarPos)
    (hfirst : m.firstIn = false) (h : FirstJump ar m p j) :
    ∃ st, doCalc ar planarPos m p =
        (2, { m with staticP := copyWheels m.numOfWheel p m.staticP, stopped := st }) ∧
      (st = true ↔ m.stopped = true ∧ ∀ l, l < j → |(wheelDelta ar p m.staticP l : ℚ)| ≤ m.criticalDelta) := by
  obtain ⟨st, w, heq, hst⟩ := diffWheels_jump ar p m.numOfWheel 0 m (fun _ => 0) (Nat.zero_le j)
    (by rw [Nat.zero_add]; exact h.lt) (by rw [Nat.zero_add]) h.jumps fun l _ => h.before l
  refine ⟨st, ?_, ?_⟩
  · unfold doCalc
    rw [if_neg (by rw [hfirst]; exact Bool.noConfusion), heq]
  · rw [hst]
    exact and_congr_right fun _ => ⟨fun hl l => hl l (Nat.zero_le l), fun hl l _ => hl l⟩

/-! ## Samples -/

/-- A call of `doCalc`: the readings, and the local it starts with. -/
structure Sample where
  p : Nat → Int
  planarPos : PlanarPos

variable (ar : Arith)

def sample (m : CMileage) (e : Sample) : CMileage := (doCalc ar e.planarPos m e.p).2

def result (m : CMileage) (e : Sample) : Int := (doCalc ar e.planarPos m e.p).1

/-- What the call hands to `forwardKinematicsTrans`, if it gets there. -/
def handed (m : CMileage) (e : Sample) : Option (Nat → ℚ) :=
  if true = m.firstIn then none
  else
    match diffWheels ar e.p m.numOfWheel 0 m fun _ => 0 with
    | (false, _, _) => none
    | (true, _, wheelPos) => some wheelPos

/-- What it moved wheel `i` by. -/
def accepted (i : Nat) (m : CMileage) (e : Sample) : ℚ := (handed ar m e).elim 0 fun wheelPos => wheelPos i

/-- What wheel `i` had moved by when the sample was rejected. -/
def rejected (i : Nat) (m : CMileage) (e : Sample) : ℚ := if result ar m e = 2 then e.p i - m.staticP i else 0

/-- What `int32_t` leaves out of the difference of an accepted sample. -/
def wrapped (i : Nat) (m : CMileage) (e : Sample) : ℚ :=
  if result ar m e = 0 then (e.p i - m.staticP i : Int) - wheelDelta ar e.p m.staticP i else 0

/-- No difference of an accepted sample wraps. -/
def Fits (m : CMileage) (e : Sample) : Prop :=
  result ar m e = 0 → ∀ i, i < m.numOfWheel → wheelDelta ar e.p m.staticP i = e.p i - m.staticP i

/-- All wheels or none: every reference is the reading passed, and a rejected sample leaves the rest. -/
structure Sound (m : CMileage) (e : Sample) : Prop where
  static : ∀ i, i < m.numOfWheel → (sample ar m e).staticP i = e.p i
  pose : result ar m e = 2 → (sample ar m e).x = m.x ∧ (sample ar m e).y = m.y ∧ (sample ar m e).angle = m.angle
  deltas : result ar m e = 2 →
    (sample ar m e).deltaX = m.deltaX ∧ (sample ar m e).deltaY = m.deltaY ∧ (sample ar m e).deltaAngle = m.deltaAngle
  stopped : result ar m e = 2 → (sample ar m e).stopped = m.stopped

/-- No wheel before the first one that jumped is taken for moving, or the flag is down anyway. -/
def Unmoved (m : CMileage) (e : Sample) : Prop :=
  m.firstIn = false → ∀ j, FirstJump ar m e.p j →
    m.stopped = false ∨ ∀ l, l < j → |(wheelDelta ar e.p m.staticP l : ℚ)| ≤ m.criticalDelta

/-! ## One sample -/

theorem no_jumps {ar : Arith} {m : CMileage} {p : Nat → Int}
    (hno : ∀ i, i < m.numOfWheel → |wheelDelta ar p m.staticP i| ≤ encoderMaxDiff) (j : Nat) : ¬ FirstJump ar m p j :=
  fun h => absurd h.jumps (not_lt.mpr (hno j h.lt))

variable {ar} {m : CMileage} {e : Sample}

theorem first_handed (h : m.firstIn = true) : handed ar m e = none := if_pos h.symm

theorem jump_handed (hfirst : m.firstIn = false) {j : Nat} (h : FirstJump ar m e.p j) : handed ar m e = none := by
  obtain ⟨st, w, heq, -⟩ := diffWheels_jump ar e.p m.numOfWheel 0 m (fun _ => 0) (Nat.zero_le j)
    (by rw [Nat.zero_add]; exact h.lt) (by rw [Nat.zero_add]) h.jumps fun l _ => h.before l
  unfold handed
  rw [if_neg (by rw [hfirst]; exact Bool.noConfusion), heq]

/-- A sample with no jump: what is handed to the kinematics, and what is made of it. -/
theorem ok_sample (hfirst : m.firstIn = false)
    (hno : ∀ i, i < m.numOfWheel → |wheelDelta ar e.p m.staticP i| ≤ encoderMaxDiff) :
    result ar m e = 0 ∧ ∃ wheelPos sp st, handed ar m e = some wheelPos ∧
      sample ar m e = addPose ar { m with staticP := sp, stopped := st } (m.forwardKinematicsTrans wheelPos e.planarPos) ∧
      ∀ i, i < m.numOfWheel → wheelPos i = wheelDelta ar e.p m.staticP i ∧ sp i = e.p i := by
  obtain ⟨sp, st, w, heq, hin, -⟩ := diffWheels_ok ar e.p m.numOfWheel 0 m (fun _ => 0) fun j _ hj =>
    hno j (by omega)
  have hmoving : ¬ true = m.firstIn := by
    rw [hfirst]
    exact Bool.noConfusion
  have hcalc : doCalc ar e.planarPos m e.p =
      (0, addPose ar { m with staticP := sp, stopped := st } (m.forwardKinematicsTrans w e.planarPos)) := by
    unfold doCalc
    rw [if_neg hmoving, heq]
    rfl
  refine ⟨congrArg Prod.fst hcalc, w, sp, st, ?_, congrArg Prod.snd hcalc, fun i hi => hin i (Nat.zero_le i) (by omega)⟩
  unfold handed
  rw [if_neg hmoving, heq]

theorem first_sample (h : m.firstIn = true) :
    result ar m e = 1 ∧ sample ar m e = { m with firstIn := false, staticP := copyWheels m.numOfWheel e.p m.staticP } :=
  Prod.ext_iff.mp (doCalc_first ar e.planarPos m e.p h)

theorem jump_sample (hfirst : m.firstIn = false) {j : Nat} (h : FirstJump ar m e.p j) :
    result ar m e = 2 ∧
      ∃ st, sample ar m e = { m with staticP := copyWheels m.numOfWheel e.p m.staticP, stopped := st } ∧
        (st = true ↔ m.stopped = true ∧ ∀ l, l < j → |(wheelDelta ar e.p m.staticP l : ℚ)| ≤ m.criticalDelta) := by
  obtain ⟨st, heq, hst⟩ := doCalc_jump e.planarPos hfirst h
  exact ⟨congrArg Prod.fst heq, st, congrArg Prod.snd heq, hst⟩

theorem copyWheels_lt {n : Nat} (p staticP : Nat → Int) {i : Nat} (hi : i < n) : copyWheels n p staticP i = p i :=
  if_pos hi

/-- After any sample the wheels are where it was taken. -/
theorem sample_staticP {i : Nat} (hi : i < m.numOfWheel) : (sample ar m e).staticP i = e.p i := by
  cases hfirst : m.firstIn with
  | true =>
    rw [(first_sample hfirst).2]
    exact copyWheels_lt e.p m.staticP hi
  | false =>
    by_cases hno : ∀ i, i < m.numOfWheel → |wheelDelta ar e.p m.staticP i| ≤ encoderMaxDiff
    · obtain ⟨-, w, sp, st, -, hm, hw⟩ := ok_sample hfirst hno
      rw [hm]
      exact (hw i hi).2
    · obtain ⟨j, hj⟩ := exists_firstJump hno
      obtain ⟨-, st, hm, -⟩ := jump_sample hfirst hj
      rw [hm]
      exact copyWheels_lt e.p m.staticP hi

/-- What a sample can change. -/
theorem sample_writes : ∃ x y angle staticP stopped deltaX deltaY deltaAngle, sample ar m e =
    { m with
      x := x, y := y, angle := angle, firstIn := false, staticP := staticP, stopped := stopped, deltaX := deltaX
      deltaY := deltaY, deltaAngle := deltaAngle } := by
  cases hfirst : m.firstIn with
  | true =>
    rw [(first_sample hfirst).2]
    exact ⟨_, _, _, _, _, _, _, _, rfl⟩
  | false =>
    by_cases hno : ∀ i, i < m.numOfWheel → |wheelDelta ar e.p m.staticP i| ≤ encoderMaxDiff
    · obtain ⟨-, w, sp, st, -, hm, -⟩ := ok_sample hfirst hno
      rw [hm, ← hfirst]
      exact ⟨_, _, _, _, _, _, _, _, rfl⟩
    · obtain ⟨j, hj⟩ := exists_firstJump hno
      obtain ⟨-, st, hm, -⟩ := jump_sample hfirst hj
      rw [hm, ← hfirst]
      exact ⟨_, _, _, _, _, _, _, _, rfl⟩

theorem sample_firstIn : (sample ar m e).firstIn = false := by
  obtain ⟨_, _, _, _, _, _, _, _, h⟩ := sample_writes (m := m) (e := e)
  rw [h]

theorem sample_numOfWheel : (sample ar m e).numOfWheel = m.numOfWheel := by
  obtain ⟨_, _, _, _, _, _, _, _, h⟩ := sample_writes (m := m) (e := e)
  rw [h]
  rfl

/-- A sample that is not rejected has nothing to leave alone. -/
theorem sound_of_result (h : result ar m e ≠ 2) : Sound ar m e :=
  ⟨fun _ => sample_staticP, fun h2 => absurd h2 h, fun h2 => absurd h2 h, fun h2 => absurd h2 h⟩

theorem sound_iff : Sound ar m e ↔ Unmoved ar m e := by
  cases hfirst : m.firstIn with
  | true =>
    refine iff_of_true (sound_of_result (by rw [(first_sample hfirst).1]; decide)) fun hf => ?_
    rw [hfirst] at hf
    cases hf
  | false =>
    by_cases hno : ∀ i, i < m.numOfWheel → |wheelDelta ar e.p m.staticP i| ≤ encoderMaxDiff
    · exact iff_of_true (sound_of_result (by rw [(ok_sample hfirst hno).1]; decide)) fun _ j hj =>
        absurd hj (no_jumps hno j)
    · obtain ⟨j, hj⟩ := exists_firstJump hno
      obtain ⟨hres, st, hm, hst⟩ := jump_sample hfirst hj
      constructor
      · intro h _ k hk
        have hstopped := h.stopped hres
        rw [hm] at hstopped
        cases hflag : m.stopped with
        | false => exact .inl rfl
        | true =>
          rw [hj.unique hk]
          exact .inr (hst.mp (hstopped.trans hflag)).2
      · intro h
        refine ⟨fun i => sample_staticP, fun _ => ?_, fun _ => ?_, fun _ => ?_⟩
        · rw [hm]
          exact ⟨rfl, rfl, rfl⟩
        · rw [hm]
          exact ⟨rfl, rfl, rfl⟩
        · rw [hm]
          show st = m.stopped
          rw [Bool.eq_iff_iff, hst]
          refine and_iff_left_of_imp fun hflag => (h hfirst j hj).resolve_left fun hf => ?_
          rw [hflag] at hf
          cases hf

/-- After the first sample every wheel's reference moves by what is accepted, rejected and cut off. -/
theorem sample_adds (hfirst : m.firstIn = false) {i : Nat} (hi : i < m.numOfWheel) :
    ((sample ar m e).staticP i : ℚ) =
      m.staticP i + (accepted ar i m e + (rejected ar i m e + wrapped ar i m e)) := by
  rw [sample_staticP hi]
  unfold accepted rejected wrapped
  by_cases hno : ∀ i, i < m.numOfWheel → |wheelDelta ar e.p m.staticP i| ≤ encoderMaxDiff
  · obtain ⟨hres, w, sp, st, hw, -, hin⟩ := ok_sample hfirst hno
    rw [hw, if_pos hres, if_neg (by rw [hres]; decide), Option.elim_some, (hin i hi).1]
    push_cast
    ring
  · obtain ⟨j, hj⟩ := exists_firstJump hno
    have hres := (jump_sample hfirst hj).1
    rw [jump_handed hfirst hj, if_pos hres, if_neg (by rw [hres]; decide), Option.elim_none]
    ring

/-! ## Runs -/

/-- The reading the run starts from: its first one if there is none before. -/
def firstReading (m : CMileage) (es : List Sample) (i : Nat) : Int :=
  if m.firstIn then (es.head?.map fun e => e.p i).getD (m.staticP i) else m.staticP i

def lastReading (m : CMileage) (es : List Sample) (i : Nat) : Int :=
  (es.getLast?.map fun e => e.p i).getD (m.staticP i)

theorem run_numOfWheel (es : List Sample) : (run (sample ar) m es).numOfWheel = m.numOfWheel :=
  inv_run_all (I := fun m' => m'.numOfWheel = m.numOfWheel) (fun _ _ h => sample_numOfWheel.trans h) es m rfl

theorem run_staticP (es : List Sample) {i : Nat} (hi : i < m.numOfWheel) :
    (run (sample ar) m es).staticP i = lastReading m es i := by
  rcases List.eq_nil_or_concat es with rfl | ⟨es, e, rfl⟩
  · rfl
  · rw [List.concat_eq_append, run_snoc, sample_staticP (by rw [run_numOfWheel]; exact hi), lastReading,
      List.getLast?_append, List.getLast?_singleton]
    rfl

/-- The accounts of a run behind the first sample. -/
theorem run_accounts (hfirst : m.firstIn = false) (es : List Sample) {i : Nat} (hi : i < m.numOfWheel) :
    ((run (sample ar) m es).staticP i : ℚ) =
      m.staticP i + (total (sample ar) (accepted ar i) m es +
        (total (sample ar) (rejected ar i) m es + total (sample ar) (wrapped ar i) m es)) := by
  rw [← total_add, ← total_add]
  exact total_of_step (I := fun m' => m'.firstIn = false ∧ i < m'.numOfWheel) (g := fun m' => (m'.staticP i : ℚ))
    (fun m' e h => ⟨sample_firstIn, by rw [sample_numOfWheel]; exact h.2⟩) (fun m' e h => sample_adds h.1 h.2) es m
    ⟨hfirst, hi⟩

variable (ar) in
/-- What wheel `i` is moved by adds up to where it is, but for what was rejected; in `int32_t`
    arithmetic, and as it stands when nothing wraps. -/
def Accounted (m : CMileage) (es : List Sample) (i : Nat) : Prop :=
  ∃ k : Int, total (sample ar) (accepted ar i) m es =
      lastReading m es i - firstReading m es i - total (sample ar) (rejected ar i) m es - (2 ^ 32 * k : Int) ∧
    (Along (sample ar) (Fits ar) m es → k = 0)

theorem wrapped_multiple (har : ar.TwosComplement) (i : Nat) (m : CMileage) (e : Sample) :
    ∃ k : Int, wrapped ar i m e = (2 ^ 32 * k : Int) := by
  unfold wrapped
  split
  case isTrue =>
    refine ⟨(e.p i - m.staticP i).bdiv (2 ^ 32), ?_⟩
    rw [wheelDelta, har, toInt32, Int.bmod_eq_self_sub_mul_bdiv, ← Int.cast_sub, sub_sub_cancel]
    push_cast
    rfl
  case isFalse => exact ⟨0, by norm_num⟩

theorem wrapped_fits {i : Nat} {m : CMileage} {e : Sample} (h : Fits ar m e) (hi : i < m.numOfWheel) :
    wrapped ar i m e = 0 := by
  unfold wrapped
  split
  case isTrue hres => rw [h hres i hi, sub_self]
  case isFalse => rfl

theorem accounted_moving (har : ar.TwosComplement) (hfirst : m.firstIn = false) (es : List Sample) {i : Nat}
    (hi : i < m.numOfWheel) : Accounted ar m es i := by
  have hsum : ((run (sample ar) m es).staticP i : ℚ) = _ := run_accounts hfirst es hi
  obtain ⟨k, hk⟩ : ∃ k : Int, total (sample ar) (wrapped ar i) m es = (2 ^ 32 * k : Int) := by
    refine total_of_along (P := fun _ _ => True) (p := fun a : ℚ => ∃ k : Int, a = (2 ^ 32 * k : Int)) ⟨0, by norm_num⟩ ?_
      (fun m e _ => wrapped_multiple har i m e) es m (along_of_all (fun _ _ => trivial) es m)
    rintro a b ⟨k, rfl⟩ ⟨l, rfl⟩
    exact ⟨k + l, by push_cast; ring⟩
  refine ⟨k, ?_, fun hfits => ?_⟩
  · rw [run_staticP es hi, hk] at hsum
    rw [firstReading, hfirst, if_neg Bool.false_ne_true, hsum]
    ring
  · have hzero : Along (sample ar) (fun m' e => wrapped ar i m' e = 0) m es :=
      along_of_inv (I := fun m' => i < m'.numOfWheel) (fun m' e h _ => by rw [sample_numOfWheel]; exact h)
        (fun m' e h hf => wrapped_fits hf h) es m hi hfits
    have hnone : total (sample ar) (wrapped ar i) m es = 0 :=
      total_of_along (p := fun a : ℚ => a = 0) rfl (fun a b ha hb => by rw [ha, hb, add_zero]) (fun _ _ h => h) es m hzero
    rw [hk] at hnone
    have hprod : (2 : Int) ^ 32 * k = 0 := by exact_mod_cast hnone
    omega

theorem accounted (har : ar.TwosComplement) (m : CMileage) (es : List Sample) {i : Nat} (hi : i < m.numOfWheel) :
    Accounted ar m es i := by
  cases hfirst : m.firstIn with
  | false => exact accounted_moving har hfirst es hi
  | true =>
    cases es with
    | nil =>
      refine ⟨0, ?_, fun _ => rfl⟩
      rw [firstReading, if_pos hfirst]
      simp [lastReading]
    | cons e es =>
      -- the first sample brings nothing, and the rest starts from its readings
      obtain ⟨k, hk, hfits⟩ := accounted_moving har (sample_firstIn (e := e)) es (m := sample ar m e) (i := i)
        (by rw [sample_numOfWheel]; exact hi)
      have hlast : lastReading m (e :: es) i = lastReading (sample ar m e) es i := by
        unfold lastReading
        rw [List.getLast?_cons, sample_staticP hi]
        cases es.getLast? <;> rfl
      refine ⟨k, ?_, fun h => hfits h.2⟩
      rw [firstReading, (sample_firstIn (e := e)), if_neg Bool.false_ne_true, sample_staticP hi] at hk
      rw [total_cons, total_cons, hk, hlast, firstReading, if_pos hfirst]
      show accepted ar i m e + _ = _ - (e.p i : ℚ) - (rejected ar i m e + _) - _
      rw [accepted, rejected, first_handed hfirst, (first_sample hfirst).1, if_neg (by decide), Option.elim_none]
      ring

variable (ar) in
/-- A run that is integrated sample by sample for all wheels or for none. -/
structure AllOrNone (m : CMileage) (es : List Sample) : Prop where
  sound : Along (sample ar) (Sound ar) m es
  accounted : ∀ i, i < m.numOfWheel → Accounted ar m es i

theorem samples_sound_iff (ar : Arith) (har : ar.TwosComplement) (m : CMileage) (es : List Sample) :
    AllOrNone ar m es ↔ Along (sample ar) (Unmoved ar) m es := by
  have hstep : Along (sample ar) (Sound ar) m es ↔ Along (sample ar) (Unmoved ar) m es :=
    along_iff_of_inv (I := fun _ => True) (fun _ _ _ _ => trivial) (fun _ _ _ => sound_iff) es m trivial
  exact ⟨fun h => hstep.mp h.sound, fun h => ⟨hstep.mpr h, fun i hi => accounted har m es hi⟩⟩

theorem pi_pos : 0 < Mileage.pi := by norm_num [Mileage.pi]

/-- The board's integers, and the math library to first order. -/
def board : Arith := { int32 := toInt32, cos := fun _ => 1, sin := id, pi := Mileage.pi, pi_pos := pi_pos }

/-- Two wheels read. -/
def both (p q : Int) : Sample := { p := fun i => if i = 0 then p else q, planarPos := { x := 0, y := 0, theta := 0 } }

/-- Driving on, then a jump of the second wheel while the first one moves. -/
theorem samples_sound_driving : AllOrNone board (.new 0) [both 5 5, both 25 30, both 45 3000030] := by
  refine (samples_sound_iff board (fun _ => rfl) _ _).mpr ⟨?_, ?_, ?_, trivial⟩
  · intro hf
    cases hf
  · intro _ j hj
    exact absurd hj (no_jumps (by decide) j)
  · exact fun _ _ _ => .inl (by decide +kernel)

/-- The same jump while standing still. -/
theorem jump_clears_stopped : ¬ AllOrNone board (.new 0) [both 5 5, both 15 3000005] := by
  intro h
  have hstopped := h.sound.2.1.stopped (by decide +kernel)
  exact absurd hstopped (by decide +kernel)

end CMileage

end SeerDIOBoard.Mileage
