/-
  SeerDIOBoard.Chassis.Config — the two configuration messages of the host: 0xA004
  (`configChassisTypeFunc`, src/task_commanddispatch.cxx) selects the driver brand and
  the chassis type, 0xA005 (`CMileage::initializeParam`, src/Mileage.cxx) sets the
  kinematic parameters and the CAN ids of the motors.

  Both work on the chassis device and on the mileage object (`Devices`). They take what
  `pb_decode` made of the payload, `none` where it failed. `initializeParam` goes through
  `Protocol()` for every entry of `driveID`; its result is `none` where it does so with
  no driver selected.

  What they do, for the rest of the development:
  - `setProtocol_eq`: a brand that is selected already changes nothing, any other
    replaces the driver by a new one (`builtDriver`).
  - `configChassisTypeFunc_acts` / `_idle`: 0xA004.
  - `initializeParam_ids`, and what 0xA005 never changes (`initializeParam_frame`).
-/

import SeerDIOBoard.Mileage.Param
import SeerDIOBoard.Chassis.Device

namespace SeerDIOBoard.Chassis

open Function (update)
open SeerDIOBoard.Can SeerDIOBoard.Mileage

structure ChassisDemandConfig where
  bChassisExist : Int
  chassisType : Int
  driverBrand : Int
  deriving DecidableEq, Repr

structure Devices (F : Type) where
  chassis : CChassisDevice F
  mileage : CMileage

variable {F : Type}

/-! ## 0xA004 -/

/-- `(uint8_t)pbMsg.driverBrand`. -/
def brandArg (driverBrand : Int) : Nat := (driverBrand % 2 ^ 8).toNat

def configChassisTypeFunc (s : Devices F) : Option ChassisDemandConfig → Int × Devices F
  | none => (-1, s)
  | some pbMsg =>
    if 20 = pbMsg.bChassisExist then
      let chassis := (s.chassis.setProtocol (brandArg pbMsg.driverBrand) s.mileage.numOfWheel).2
      (0, { chassis := chassis.setStart, mileage := s.mileage.setChassisType pbMsg.chassisType })
    else (0, s)

/-! ## 0xA005 -/

/-- An entry of `driveID` as the `uint16_t` that `calcRxID` and `calcTxID` take. -/
def idArg (driveID : Int) : Nat := (driveID % 2 ^ 16).toNat

/-- What a turn of the loop over the motors does to the driver. -/
def configMotor (pbMsg : ChassisConfig) (i : Nat) (id : Int) (d : CDriverCanProtocol) : CDriverCanProtocol :=
  let d := d.setMotorRxId i (d.calcRxID (idArg id))
  let d := d.setMotorTxId i (d.calcTxID (idArg id))
  d.setMotorInverse i (pbMsg.inverse i)

/-- The loop over the motors, from motor `i` on. -/
def configMotors (pbMsg : ChassisConfig) : Nat → List Int → Devices F → Option (Devices F)
  | _, [], s => some s
  | i, id :: ids, s =>
    match s.chassis.driverProtocol with
    | none => none
    | some d =>
      configMotors pbMsg (i + 1) ids
        { chassis := { s.chassis with driverProtocol := some (configMotor pbMsg i id d) }
          mileage := s.mileage.setWheel pbMsg i }

/-- `initializeParam`, where `int32_t` results become `int32` of them. -/
def initializeParamBy (int32 : Int → Int) (s : Devices F) : Option ChassisConfig → Option (Int × Devices F)
  | none => some (-1, { s with mileage := s.mileage.doInit })
  | some pbMsg =>
    let s := { s with mileage := s.mileage.doInit.setParam int32 pbMsg }
    if singleSteerPrec = s.mileage.chassisType then
      some (0, { s with mileage := { s.mileage with paramInited := true } })
    else
      match configMotors pbMsg 0 pbMsg.driveID s with
      | none => none
      | some s => some (0, { s with mileage := s.mileage.setInited })

def initializeParam (s : Devices F) (pbMsg : Option ChassisConfig) : Option (Int × Devices F) :=
  initializeParamBy toInt32 s pbMsg

/-! ## The driver that a brand stands for -/

/-- The brands whose driver is built. -/
def supported (brand : Nat) : Prop :=
  brand = CChassisDevice.protocolCanOpen ∨ brand = CChassisDevice.protocolCanOpenPosition ∨
    brand = CChassisDevice.protocolJingZhiCanopen

instance (brand : Nat) : Decidable (supported brand) := inferInstanceAs (Decidable (_ ∨ _ ∨ _))

def builtDriver (brand n : Nat) : Option CDriverCanProtocol :=
  if brand = CChassisDevice.protocolCanOpen then some (.new (.copleyCAN .speedMode) n)
  else if brand = CChassisDevice.protocolCanOpenPosition then some (.new (.copleyCAN .positionMode) n)
  else if brand = CChassisDevice.protocolJingZhiCanopen then some (.new (.jingZhiCanopen .speedMode) n)
  else none

theorem builtDriver_isSome (brand n : Nat) : (builtDriver brand n).isSome ↔ supported brand := by
  unfold builtDriver supported
  split
  · simp [*]
  split
  · simp [*]
  split <;> simp [*]

theorem builtDriver_new {brand n : Nat} {d : CDriverCanProtocol} (h : builtDriver brand n = some d) :
    ∃ cls, d = .new cls n := by
  unfold builtDriver at h
  split at h
  · exact ⟨_, (Option.some.inj h).symm⟩
  split at h
  · exact ⟨_, (Option.some.inj h).symm⟩
  split at h
  · exact ⟨_, (Option.some.inj h).symm⟩
  · cases h

theorem builtDriver_none {brand n : Nat} (h2 : brand ≠ 2) (h5 : brand ≠ 5) (h12 : brand ≠ 12) :
    builtDriver brand n = none := by
  unfold builtDriver
  rw [if_neg (show ¬ brand = CChassisDevice.protocolCanOpen from h2),
    if_neg (show ¬ brand = CChassisDevice.protocolCanOpenPosition from h5),
    if_neg (show ¬ brand = CChassisDevice.protocolJingZhiCanopen from h12)]

theorem setProtocol_eq (c : CChassisDevice F) (brand n : Nat) :
    (c.setProtocol brand n).2 =
      if c.protocol = brand then c else { c with protocol := brand, driverProtocol := builtDriver brand n } := by
  unfold CChassisDevice.setProtocol
  by_cases hp : c.protocol = brand
  · rw [if_pos hp, if_pos hp]
  rw [if_neg hp, if_neg hp]
  by_cases h2 : brand = 2
  · subst h2; rfl
  by_cases h5 : brand = 5
  · subst h5; rfl
  by_cases h12 : brand = 12
  · subst h12; rfl
  dsimp only
  rw [builtDriver_none h2 h5 h12, if_neg (show ¬ CChassisDevice.protocolCanOpen = brand from fun h => h2 h.symm),
    if_neg (show ¬ CChassisDevice.protocolCanOpenPosition = brand from fun h => h5 h.symm),
    if_neg (show ¬ CChassisDevice.protocolJingZhiCanopen = brand from fun h => h12 h.symm)]
  simp only [apply_ite Prod.snd, ite_self]

/-! ## What the two messages do -/

/-- The 0xA004 messages that are acted on. -/
def acts (pbMsg : Option ChassisDemandConfig) : Option ChassisDemandConfig :=
  pbMsg.filter fun m => decide (20 = m.bChassisExist)

theorem configChassisTypeFunc_idle (s : Devices F) (pbMsg : Option ChassisDemandConfig) (h : acts pbMsg = none) :
    (configChassisTypeFunc s pbMsg).2 = s := by
  cases pbMsg with
  | none => rfl
  | some m =>
    have hm : 20 ≠ m.bChassisExist := by simpa [acts, Option.filter] using h
    simp only [configChassisTypeFunc, if_neg hm]

theorem configChassisTypeFunc_acts (s : Devices F) (pbMsg : Option ChassisDemandConfig) (m : ChassisDemandConfig)
    (h : acts pbMsg = some m) :
    (configChassisTypeFunc s pbMsg).2 =
      { chassis := ((s.chassis.setProtocol (brandArg m.driverBrand) s.mileage.numOfWheel).2).setStart
        mileage := s.mileage.setChassisType m.chassisType } := by
  cases pbMsg with
  | none => cases h
  | some m' =>
    obtain ⟨hm, rfl⟩ : 20 = m'.bChassisExist ∧ m' = m := by simpa [acts, Option.filter] using h
    simp only [configChassisTypeFunc, if_pos hm]

/-- What a 0xA004 message can change of the chassis device. -/
theorem configChassisTypeFunc_frame (s : Devices F) (pbMsg : Option ChassisDemandConfig) :
    ∃ p d n, (configChassisTypeFunc s pbMsg).2.chassis =
      { s.chassis with protocol := p, driverProtocol := d, openSem := n } := by
  cases h : acts pbMsg with
  | none =>
    rw [configChassisTypeFunc_idle s pbMsg h]
    exact ⟨_, _, _, rfl⟩
  | some m =>
    rw [configChassisTypeFunc_acts s pbMsg m h, setProtocol_eq]
    split
    · exact ⟨_, _, _, rfl⟩
    · exact ⟨_, _, _, rfl⟩

/-- Entry `j` of an id table after entries `i`, `i + 1`, .. were set to `f` of the drive ids. -/
def assigned (f : Int → Nat) (ids : List Int) (i : Nat) (old : Nat → Option Nat) (j : Nat) : Option Nat :=
  if i ≤ j then (ids[j - i]?.map f).or (old j) else old j

theorem assigned_cons (f : Int → Nat) (id : Int) (ids : List Int) (i : Nat) (old : Nat → Option Nat) (j : Nat) :
    assigned f ids (i + 1) (update old i (some (f id))) j = assigned f (id :: ids) i old j := by
  unfold assigned
  rcases Nat.lt_trichotomy j i with h | rfl | h
  · rw [if_neg (by omega), if_neg (by omega), Function.update_of_ne (by omega)]
  · rw [if_neg (by omega), if_pos (Nat.le_refl j), Function.update_self, Nat.sub_self]
    rfl
  · rw [if_pos (by omega), if_pos (by omega), Function.update_of_ne (by omega),
      show j - i = j - (i + 1) + 1 by omega, List.getElem?_cons_succ]

theorem assigned_of_some {f : Int → Nat} {ids : List Int} {old : Nat → Option Nat} {j : Nat} {id : Int}
    (h : ids[j]? = some id) : assigned f ids 0 old j = some (f id) := by
  simp only [assigned, Nat.zero_le, if_true, Nat.sub_zero, h, Option.map_some, Option.some_or]

theorem assigned_of_none {f : Int → Nat} {ids : List Int} {old : Nat → Option Nat} {j : Nat}
    (h : ids[j]? = none) : assigned f ids 0 old j = old j := by
  simp only [assigned, Nat.zero_le, if_true, Nat.sub_zero, h, Option.map_none, Option.none_or]

/-- What the loop over the motors leaves: the ids of the motors it went over are set,
    the rest of the driver and of the chassis device is as before. -/
structure Assigned (ids : List Int) (i : Nat) (d : CDriverCanProtocol) (s s' : Devices F) : Prop where
  chassis : ∃ d', s'.chassis = { s.chassis with driverProtocol := some d' } ∧ d'.cls = d.cls ∧
    d'.motorRxId = assigned (fun id => d.calcRxID (idArg id)) ids i d.motorRxId ∧
    d'.motorTxId = assigned (fun id => d.calcTxID (idArg id)) ids i d.motorTxId
  chassisType : s'.mileage.chassisType = s.mileage.chassisType

theorem configMotors_some (pbMsg : ChassisConfig) (ids : List Int) :
    ∀ (i : Nat) (s : Devices F) (d : CDriverCanProtocol), s.chassis.driverProtocol = some d →
      ∃ s', configMotors pbMsg i ids s = some s' ∧ Assigned ids i d s s' := by
  induction ids with
  | nil =>
    intro i s d hd
    refine ⟨s, rfl, ⟨d, ?_, rfl, ?_, ?_⟩, rfl⟩
    · rw [← hd]
    · funext j; simp [assigned]
    · funext j; simp [assigned]
  | cons id ids ih =>
    intro i s d hd
    obtain ⟨s', hs', ⟨d', hc, hcls, hrx, htx⟩, ht⟩ :=
      ih (i + 1) { chassis := { s.chassis with driverProtocol := some (configMotor pbMsg i id d) }
                   mileage := s.mileage.setWheel pbMsg i } _ rfl
    refine ⟨s', ?_, ⟨d', hc, hcls, ?_, ?_⟩, ht⟩
    · simp only [configMotors, hd, hs']
    · rw [hrx]
      funext j
      exact assigned_cons _ id ids i d.motorRxId j
    · rw [htx]
      funext j
      exact assigned_cons _ id ids i d.motorTxId j

/-- Entry `j` of `m_scale` after the loop went over motors `i`, .., `i + k - 1`. -/
def scaled (pbMsg : ChassisConfig) (i k : Nat) (old : Nat → ℚ) (j : Nat) : ℚ :=
  if i ≤ j ∧ j < i + k then 2 * pi * pbMsg.r j / 1000 * CMileage.sign (pbMsg.inverse j) else old j

theorem scaled_cons (pbMsg : ChassisConfig) (i k : Nat) (old : Nat → ℚ) :
    scaled pbMsg (i + 1) k (update old i (2 * pi * pbMsg.r i / 1000 * CMileage.sign (pbMsg.inverse i))) =
      scaled pbMsg i (k + 1) old := by
  funext j
  unfold scaled
  rcases Nat.lt_trichotomy j i with h | rfl | h
  · rw [if_neg (by omega), if_neg (by omega), Function.update_of_ne (by omega)]
  · rw [if_neg (by omega), if_pos (by omega), Function.update_self]
  · by_cases hk : j < i + 1 + k
    · rw [if_pos (by omega), if_pos (by omega)]
    · rw [if_neg (by omega), if_neg (by omega), Function.update_of_ne (by omega)]

theorem configMotors_mileage (pbMsg : ChassisConfig) (ids : List Int) :
    ∀ (i : Nat) (s s' : Devices F), configMotors pbMsg i ids s = some s' →
      ∃ inv, s'.mileage = { s.mileage with scale := scaled pbMsg i ids.length s.mileage.scale, invOne := inv } := by
  induction ids with
  | nil =>
    intro i s s' h
    cases h
    refine ⟨s.mileage.invOne, ?_⟩
    have hold : scaled pbMsg i 0 s.mileage.scale = s.mileage.scale := funext fun j => if_neg (by omega)
    rw [List.length_nil, hold]
  | cons id ids ih =>
    intro i s s' h
    rw [configMotors] at h
    cases hd : s.chassis.driverProtocol with
    | none => rw [hd] at h; cases h
    | some d =>
      rw [hd] at h
      obtain ⟨inv, hm⟩ := ih (i + 1) _ s' h
      refine ⟨inv, ?_⟩
      rw [hm, List.length_cons, ← scaled_cons]
      rfl

theorem configMotors_nil (pbMsg : ChassisConfig) (i : Nat) (s : Devices F) : configMotors pbMsg i [] s = some s := rfl

theorem configMotors_none {pbMsg : ChassisConfig} {ids : List Int} {i : Nat} {s : Devices F} (hids : ids ≠ [])
    (h : s.chassis.driverProtocol = none) : configMotors pbMsg i ids s = none := by
  cases ids with
  | nil => exact absurd rfl hids
  | cons id ids => simp only [configMotors, h]

/-- The state the loop over the motors starts in. -/
def withParam (int32 : Int → Int) (s : Devices F) (pbMsg : ChassisConfig) : Devices F :=
  { s with mileage := s.mileage.doInit.setParam int32 pbMsg }

theorem initializeParamBy_eq (int32 : Int → Int) (s : Devices F) (pbMsg : ChassisConfig)
    (ht : s.mileage.chassisType ≠ singleSteerPrec) :
    initializeParamBy int32 s (some pbMsg) =
      (configMotors pbMsg 0 pbMsg.driveID (withParam int32 s pbMsg)).map fun s' =>
        (0, { s' with mileage := s'.mileage.setInited }) := by
  simp only [initializeParamBy]
  rw [if_neg fun h => ht h.symm]
  unfold withParam
  cases configMotors pbMsg 0 pbMsg.driveID { s with mileage := s.mileage.doInit.setParam int32 pbMsg } <;> rfl

/-- The parameters after an accepted message. -/
theorem initializeParamBy_mileage {int32 : Int → Int} {s s' : Devices F} {pbMsg : ChassisConfig} {r : Int}
    (ht : s.mileage.chassisType ≠ singleSteerPrec) (h : initializeParamBy int32 s (some pbMsg) = some (r, s')) :
    ∃ inv, s'.mileage = CMileage.setInited
      { s.mileage.doInit.setParam int32 pbMsg with
        scale := scaled pbMsg 0 pbMsg.driveID.length s.mileage.scale, invOne := inv } := by
  rw [initializeParamBy_eq int32 s pbMsg ht] at h
  obtain ⟨t, hc, ht⟩ := Option.map_eq_some_iff.mp h
  obtain ⟨rfl, rfl⟩ := Prod.mk.inj ht
  obtain ⟨inv, hm⟩ := configMotors_mileage pbMsg pbMsg.driveID 0 _ t hc
  exact ⟨inv, congrArg CMileage.setInited hm⟩

/-- A 0xA005 message starts the odometry over, whether it is accepted or not; the velocities
    and positions of the motors stay. -/
theorem initializeParam_reset {s s' : Devices F} {pbMsg : Option ChassisConfig} {r : Int}
    (h : initializeParam s pbMsg = some (r, s')) :
    s'.mileage.firstIn = true ∧ s'.mileage.angle = 0 ∧ s'.mileage.vel = s.mileage.vel ∧ s'.mileage.pos = s.mileage.pos := by
  cases pbMsg with
  | none =>
    obtain ⟨-, rfl⟩ := Prod.mk.inj (Option.some.inj h)
    exact ⟨rfl, rfl, rfl, rfl⟩
  | some m =>
    by_cases ht : s.mileage.chassisType = singleSteerPrec
    · rw [initializeParam, initializeParamBy] at h
      dsimp only at h
      rw [if_pos (show singleSteerPrec = (s.mileage.doInit.setParam toInt32 m).chassisType from ht.symm)] at h
      obtain ⟨-, rfl⟩ := Prod.mk.inj (Option.some.inj h)
      exact ⟨rfl, rfl, rfl, rfl⟩
    · obtain ⟨inv, hm⟩ := initializeParamBy_mileage ht h
      rw [hm]
      exact ⟨rfl, rfl, rfl, rfl⟩

/-- `SINGLE_STEER_PREC`: the ids of the motors are not touched. -/
theorem initializeParam_prec (s : Devices F) (pbMsg : ChassisConfig)
    (ht : s.mileage.chassisType = singleSteerPrec) :
    ∃ s', initializeParam s (some pbMsg) = some (0, s') ∧ s'.chassis = s.chassis ∧
      s'.mileage.chassisType = s.mileage.chassisType ∧ s'.mileage.paramInited = true := by
  refine ⟨{ s with mileage := { s.mileage.doInit.setParam toInt32 pbMsg with paramInited := true } }, ?_, rfl, rfl,
    rfl⟩
  simp only [initializeParam, initializeParamBy]
  rw [if_pos (show singleSteerPrec = (s.mileage.doInit.setParam toInt32 pbMsg).chassisType from ht.symm)]

theorem initializeParam_ids (s : Devices F) (pbMsg : ChassisConfig) (d : CDriverCanProtocol)
    (ht : s.mileage.chassisType ≠ singleSteerPrec) (hd : s.chassis.driverProtocol = some d) :
    ∃ s', initializeParam s (some pbMsg) = some (0, s') ∧ Assigned pbMsg.driveID 0 d s s' ∧
      s'.mileage.paramInited = true := by
  obtain ⟨s', hs', hc, hm⟩ := configMotors_some pbMsg pbMsg.driveID 0 (withParam toInt32 s pbMsg) d hd
  refine ⟨{ s' with mileage := s'.mileage.setInited }, ?_, ⟨hc, hm⟩, rfl⟩
  rw [initializeParam, initializeParamBy_eq toInt32 s pbMsg ht, hs', Option.map_some]

/-- With no driver the message is taken all the same where it names no motor. -/
theorem initializeParam_noMotor (s : Devices F) (pbMsg : ChassisConfig)
    (ht : s.mileage.chassisType ≠ singleSteerPrec) (hids : pbMsg.driveID = []) :
    ∃ s', initializeParam s (some pbMsg) = some (0, s') ∧ s'.chassis = s.chassis ∧
      s'.mileage.chassisType = s.mileage.chassisType ∧ s'.mileage.paramInited = true := by
  refine ⟨{ s with mileage := (s.mileage.doInit.setParam toInt32 pbMsg).setInited }, ?_, rfl, rfl, rfl⟩
  rw [initializeParam, initializeParamBy_eq toInt32 s pbMsg ht, hids, configMotors_nil, Option.map_some]
  rfl

theorem initializeParam_null (s : Devices F) (pbMsg : ChassisConfig)
    (ht : s.mileage.chassisType ≠ singleSteerPrec) (hids : pbMsg.driveID ≠ [])
    (hd : s.chassis.driverProtocol = none) : initializeParam s (some pbMsg) = none := by
  rw [initializeParam, initializeParamBy_eq toInt32 s pbMsg ht,
    configMotors_none hids (s := withParam toInt32 s pbMsg) hd, Option.map_none]

theorem initializeParam_none_iff (s : Devices F) (pbMsg : Option ChassisConfig) :
    initializeParam s pbMsg = none ↔ ∃ m, pbMsg = some m ∧ s.mileage.chassisType ≠ singleSteerPrec ∧ m.driveID ≠ [] ∧
      s.chassis.driverProtocol = none := by
  cases pbMsg with
  | none => simp [initializeParam, initializeParamBy]
  | some m =>
    simp only [Option.some.injEq, exists_eq_left']
    by_cases ht : s.mileage.chassisType = singleSteerPrec
    · obtain ⟨t, hs, _⟩ := initializeParam_prec s m ht
      simp [hs, ht]
    by_cases hids : m.driveID = []
    · obtain ⟨t, hs, _⟩ := initializeParam_noMotor s m ht hids
      simp [hs, hids]
    cases hd : s.chassis.driverProtocol with
    | none => simp [initializeParam_null s m ht hids hd, ht, hids]
    | some d =>
      obtain ⟨t, hs, _⟩ := initializeParam_ids s m d ht hd
      simp [hs]

/-- What a 0xA005 message leaves as it was. -/
structure SameButIds (s s' : Devices F) : Prop where
  chassis : s'.chassis = { s.chassis with driverProtocol := s'.chassis.driverProtocol }
  driver : s'.chassis.driverProtocol.isSome = s.chassis.driverProtocol.isSome
  chassisType : s'.mileage.chassisType = s.mileage.chassisType

theorem SameButIds.of_chassis {s s' : Devices F} (h : s'.chassis = s.chassis)
    (ht : s'.mileage.chassisType = s.mileage.chassisType) : SameButIds s s' :=
  ⟨by rw [h], by rw [h], ht⟩

theorem SameButIds.of_assigned {ids : List Int} {i : Nat} {d : CDriverCanProtocol} {s s' : Devices F}
    (hd : s.chassis.driverProtocol = some d) (h : Assigned ids i d s s') : SameButIds s s' := by
  obtain ⟨⟨d', hc, _⟩, ht⟩ := h
  refine ⟨?_, ?_, ht⟩
  · rw [hc]
  · rw [hc, hd]
    rfl

theorem initializeParam_frame {s : Devices F} {pbMsg : Option ChassisConfig} {r : Int} {s' : Devices F}
    (h : initializeParam s pbMsg = some (r, s')) : SameButIds s s' := by
  cases pbMsg with
  | none =>
    obtain ⟨rfl, rfl⟩ : -1 = r ∧ { s with mileage := s.mileage.doInit } = s' := by
      simpa [initializeParam, initializeParamBy] using h
    exact .of_chassis rfl rfl
  | some pbMsg =>
    by_cases ht : s.mileage.chassisType = singleSteerPrec
    · obtain ⟨t, hs, hc, htype, _⟩ := initializeParam_prec s pbMsg ht
      obtain ⟨_, rfl⟩ : 0 = r ∧ t = s' := by simpa [hs] using h
      exact .of_chassis hc htype
    by_cases hids : pbMsg.driveID = []
    · obtain ⟨t, hs, hc, htype, _⟩ := initializeParam_noMotor s pbMsg ht hids
      obtain ⟨_, rfl⟩ : 0 = r ∧ t = s' := by simpa [hs] using h
      exact .of_chassis hc htype
    cases hd : s.chassis.driverProtocol with
    | none =>
      rw [initializeParam_null s pbMsg ht hids hd] at h
      cases h
    | some d =>
      obtain ⟨t, hs, ha, _⟩ := initializeParam_ids s pbMsg d ht hd
      obtain ⟨_, rfl⟩ : 0 = r ∧ t = s' := by simpa [hs] using h
      exact .of_assigned hd ha

end SeerDIOBoard.Chassis
