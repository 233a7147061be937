/-
  SeerDIOBoard.Chassis.MotorIds — the CAN ids of the motors over a run of configuration
  messages.

  A run is any list of 0xA004 and 0xA005 messages that decode, with brands whose driver
  is built, and with a driver selected whenever a 0xA005 comes in (`Admitted`). The ids
  the wheels in use should have are those of the last 0xA005, 0x601 + i and 0x581 + i
  for the wheels it does not name (`IdsRight`).

  The ids live in the driver object, and nobody writes them again when it is replaced or
  when the number of wheels grows: a 0xA004 with another brand after the 0xA005 loses
  the drive ids, and a chassis with more wheels than the constructor counted has wheels
  without any id. `motorIds_iff` says exactly which runs keep the ids right: those whose
  messages all meet `IdsKept`.
-/

import SeerDIOBoard.Lib.Machine
import SeerDIOBoard.Chassis.Config

namespace SeerDIOBoard.Chassis.MotorIds

open Lib.Machine
open SeerDIOBoard.Can SeerDIOBoard.Mileage

variable {F : Type}

inductive Msg where
  | demand (m : ChassisDemandConfig)
  | param (m : ChassisConfig)

/-- The devices and the last 0xA005 that was taken. -/
structure Setup (F : Type) where
  devices : Devices F
  lastParam : Option ChassisConfig

def powerUp [Zero F] (protocol : Nat) (retVal : Nat → Int) (retTyp : Nat → MotorDriverCmdType) (encoderLines : Int) :
    Setup F where
  devices := { chassis := .new protocol retVal retTyp, mileage := .new encoderLines }
  lastParam := none

def step (s : Setup F) : Msg → Setup F
  | .demand m => { s with devices := (configChassisTypeFunc s.devices (some m)).2 }
  | .param m =>
    match initializeParam s.devices (some m) with
    | some (_, devices) => { devices := devices, lastParam := some m }
    | none => s

/-- Supported brands only, and no 0xA005 before a driver is selected. -/
def Admitted (s : Setup F) : Msg → Prop
  | .demand m => supported (brandArg m.driverBrand)
  | .param _ => s.devices.chassis.driverProtocol.isSome

instance (s : Setup F) : (e : Msg) → Decidable (Admitted s e)
  | .demand m => inferInstanceAs (Decidable (supported (brandArg m.driverBrand)))
  | .param _ => inferInstanceAs (Decidable (s.devices.chassis.driverProtocol.isSome = true))

/-! ## The ids the wheels should have -/

def wantedRx (d : CDriverCanProtocol) (cfg : ChassisConfig) (i : Nat) : Nat :=
  match cfg.driveID[i]? with
  | some id => d.calcRxID (idArg id)
  | none => 0x601 + i

def wantedTx (d : CDriverCanProtocol) (cfg : ChassisConfig) (i : Nat) : Nat :=
  match cfg.driveID[i]? with
  | some id => d.calcTxID (idArg id)
  | none => 0x581 + i

/-- The driver that is selected has the ids of `cfg` for wheel `i`. -/
def Carries (c : CChassisDevice F) (cfg : ChassisConfig) (i : Nat) : Prop :=
  ∃ d, c.driverProtocol = some d ∧ d.motorRxId i = some (wantedRx d cfg i) ∧ d.motorTxId i = some (wantedTx d cfg i)

/-- Every wheel in use has the ids of the last 0xA005, once there was one. There was a
    0xA004 before it then: no driver is selected at power-up. -/
def IdsRight (s : Setup F) : Prop :=
  ∀ cfg, s.lastParam = some cfg → ∀ i, i < s.devices.mileage.numOfWheel → Carries s.devices.chassis cfg i

/-- The messages that keep the ids right, by the state they find. A 0xA004 that acts, with
    a 0xA005 before it: a new brand puts in use no more wheels than before, and they have
    their default drive numbers; with the old brand the wheels that come into use have
    their ids already. A 0xA005: the wheels whose ids it does not write have them already. -/
def IdsKept (s : Setup F) : Msg → Prop
  | .demand m =>
    20 = m.bChassisExist → ∀ cfg, s.lastParam = some cfg →
      if s.devices.chassis.protocol = brandArg m.driverBrand then
        ∀ i, s.devices.mileage.numOfWheel ≤ i → i < numOfWheel m.chassisType → Carries s.devices.chassis cfg i
      else
        numOfWheel m.chassisType ≤ s.devices.mileage.numOfWheel ∧
          ∀ i id, i < numOfWheel m.chassisType → cfg.driveID[i]? = some id → idArg id = i + 1
  | .param m =>
    ∀ i, i < s.devices.mileage.numOfWheel →
      s.devices.mileage.chassisType = singleSteerPrec ∨ m.driveID.length ≤ i → Carries s.devices.chassis m i

/-! ## One message -/

theorem calcRxID_eq (d : CDriverCanProtocol) (id : Nat) : d.calcRxID id = (0x600 + id) % 2 ^ 16 := by
  unfold CDriverCanProtocol.calcRxID
  cases d.cls <;> rfl

theorem calcTxID_eq (d : CDriverCanProtocol) (id : Nat) : d.calcTxID id = (0x580 + id) % 2 ^ 16 := by
  unfold CDriverCanProtocol.calcTxID
  cases d.cls <;> rfl

theorem idArg_lt (id : Int) : idArg id < 2 ^ 16 := by
  unfold idArg
  omega

/-- A new driver has the ids of `cfg` for the wheels that were counted, where the drive
    numbers are the default ones. -/
theorem carries_new (c : CChassisDevice F) (cfg : ChassisConfig) (cls : DriverClass) (n i : Nat) (hi : i < 4)
    (hc : c.driverProtocol = some (.new cls n)) :
    Carries c cfg i ↔ i < n ∧ ∀ id, cfg.driveID[i]? = some id → idArg id = i + 1 := by
  unfold Carries wantedRx wantedTx
  constructor
  · rintro ⟨d, hd, hrx, _⟩
    rw [hc] at hd
    obtain rfl : CDriverCanProtocol.new cls n = d := Option.some.inj hd
    have hn : i < n := by
      by_contra h
      simp only [CDriverCanProtocol.new, if_neg h] at hrx
      cases hrx
    refine ⟨hn, ?_⟩
    intro id hid
    have := idArg_lt id
    simp only [CDriverCanProtocol.new, if_pos hn, hid, calcRxID_eq, Option.some.injEq] at hrx
    omega
  · rintro ⟨hn, hid⟩
    refine ⟨_, hc, ?_⟩
    simp only [CDriverCanProtocol.new, if_pos hn, calcRxID_eq, calcTxID_eq, Option.some.injEq]
    cases h : cfg.driveID[i]? with
    | none => exact ⟨rfl, rfl⟩
    | some id =>
      dsimp only
      rw [hid id h]
      constructor <;> omega

theorem carries_congr {c c' : CChassisDevice F} (h : c'.driverProtocol = c.driverProtocol) (cfg : ChassisConfig)
    (i : Nat) : Carries c' cfg i ↔ Carries c cfg i := by
  unfold Carries
  rw [h]

/-- A 0xA005 writes the ids of the motors it names and no others. -/
theorem carries_assigned {cfg : ChassisConfig} {d : CDriverCanProtocol} {s s' : Devices F}
    (hd : s.chassis.driverProtocol = some d) (h : Assigned cfg.driveID 0 d s s') (i : Nat) :
    Carries s'.chassis cfg i ↔ cfg.driveID.length ≤ i → Carries s.chassis cfg i := by
  obtain ⟨⟨d', hc, hcls, hrx, htx⟩, _⟩ := h
  have hd' : s'.chassis.driverProtocol = some d' := by rw [hc]
  have hwr : wantedRx d' cfg i = wantedRx d cfg i := by simp only [wantedRx, calcRxID_eq]
  have hwt : wantedTx d' cfg i = wantedTx d cfg i := by simp only [wantedTx, calcTxID_eq]
  have hsome : ∀ (c : CChassisDevice F) (e : CDriverCanProtocol), c.driverProtocol = some e →
      (Carries c cfg i ↔ e.motorRxId i = some (wantedRx e cfg i) ∧ e.motorTxId i = some (wantedTx e cfg i)) := by
    intro c e he
    unfold Carries
    simp only [he, Option.some.injEq, exists_eq_left']
  rw [hsome _ _ hd', hsome _ _ hd, hwr, hwt, hrx, htx]
  cases hi : cfg.driveID[i]? with
  | none =>
    rw [assigned_of_none hi, assigned_of_none hi]
    have : cfg.driveID.length ≤ i := List.getElem?_eq_none_iff.mp hi
    simp only [this, true_imp_iff]
  | some id =>
    rw [assigned_of_some hi, assigned_of_some hi]
    have hlt : ¬ cfg.driveID.length ≤ i := by
      have := (List.getElem?_eq_some_iff.mp hi).1
      omega
    simp only [wantedRx, wantedTx, hi, hlt, false_imp_iff, and_self]

theorem demand_step (s : Setup F) (m : ChassisDemandConfig) (hm : 20 = m.bChassisExist) :
    (step s (.demand m)).lastParam = s.lastParam ∧
      (step s (.demand m)).devices.mileage.numOfWheel = numOfWheel m.chassisType ∧
      (step s (.demand m)).devices.chassis.driverProtocol =
        if s.devices.chassis.protocol = brandArg m.driverBrand then s.devices.chassis.driverProtocol
        else builtDriver (brandArg m.driverBrand) s.devices.mileage.numOfWheel := by
  have hacts : acts (some m) = some m := by simp [acts, Option.filter, hm]
  simp only [step, configChassisTypeFunc_acts _ _ _ hacts, setProtocol_eq]
  refine ⟨trivial, rfl, ?_⟩
  split <;> rfl

theorem demand_kept (s : Setup F) (m : ChassisDemandConfig) (hs : IdsRight s) (hok : Admitted s (.demand m)) :
    IdsRight (step s (.demand m)) ↔ IdsKept s (.demand m) := by
  unfold IdsRight IdsKept
  by_cases hm : 20 = m.bChassisExist
  · obtain ⟨hlast, hn, hd⟩ := demand_step s m hm
    rw [hlast, hn]
    simp only [hm, true_imp_iff]
    refine forall₂_congr ?_
    intro cfg hcfg
    split
    case isTrue hp =>
      -- the driver stays
      rw [if_pos hp] at hd
      simp only [carries_congr hd]
      refine ⟨fun h i _ hi => h i hi, ?_⟩
      intro h i hi
      by_cases hold : i < s.devices.mileage.numOfWheel
      · exact hs cfg hcfg i hold
      · exact h i (by omega) hi
    case isFalse hp =>
      -- a new driver, with the ids of the wheels counted before
      rw [if_neg hp] at hd
      obtain ⟨d, hb⟩ := Option.isSome_iff_exists.mp
        ((builtDriver_isSome (brandArg m.driverBrand) s.devices.mileage.numOfWheel).mpr hok)
      obtain ⟨cls, rfl⟩ := builtDriver_new hb
      rw [hb] at hd
      have hnew : ∀ i, i < numOfWheel m.chassisType → _ := fun i hi =>
        carries_new _ cfg cls _ i (by have := numOfWheel_le m.chassisType; omega) hd
      constructor
      · intro h
        refine ⟨?_, fun i id hi => ((hnew i hi).mp (h i hi)).2 id⟩
        by_contra hlt
        have := ((hnew s.devices.mileage.numOfWheel (by omega)).mp (h _ (by omega))).1
        omega
      · rintro ⟨hle, hid⟩ i hi
        exact (hnew i hi).mpr ⟨by omega, fun id => hid i id hi⟩
  · have hacts : acts (some m) = none := by simp [acts, Option.filter, hm]
    have hstep : step s (.demand m) = s := by simp only [step, configChassisTypeFunc_idle _ _ hacts]
    rw [hstep]
    exact ⟨fun _ h => absurd h hm, fun _ => hs⟩

theorem param_kept (s : Setup F) (m : ChassisConfig) (hok : Admitted s (.param m)) :
    IdsRight (step s (.param m)) ↔ IdsKept s (.param m) := by
  obtain ⟨d, hd⟩ := Option.isSome_iff_exists.mp hok
  unfold IdsRight IdsKept
  by_cases ht : s.devices.mileage.chassisType = singleSteerPrec
  · obtain ⟨s', hs', hc, htype, _⟩ := initializeParam_prec s.devices m ht
    have hn : s'.mileage.numOfWheel = s.devices.mileage.numOfWheel := by simp only [CMileage.numOfWheel, htype]
    simp only [step, hs', hn, Option.some.injEq, forall_eq', ht, true_or, true_imp_iff, carries_congr (congrArg _ hc)]
  · obtain ⟨s', hs', ha, _⟩ := initializeParam_ids s.devices m d ht hd
    have hn : s'.mileage.numOfWheel = s.devices.mileage.numOfWheel := by
      simp only [CMileage.numOfWheel, ha.chassisType]
    simp only [step, hs', hn, Option.some.injEq, forall_eq', ht, false_or, carries_assigned hd ha]

theorem idsKept_iff (s : Setup F) (e : Msg) (hs : IdsRight s) (hok : Admitted s e) :
    IdsRight (step s e) ↔ IdsKept s e := by
  cases e with
  | demand m => exact demand_kept s m hs hok
  | param m => exact param_kept s m hok

/-! ## Runs -/

theorem idsRight_powerUp [Zero F] (protocol : Nat) (retVal : Nat → Int) (retTyp : Nat → MotorDriverCmdType)
    (encoderLines : Int) : IdsRight (powerUp protocol retVal retTyp encoderLines : Setup F) := by
  intro cfg h
  cases h

theorem motorIds_iff [Zero F] (protocol : Nat) (retVal : Nat → Int) (retTyp : Nat → MotorDriverCmdType)
    (encoderLines : Int) (es : List Msg)
    (h : Along step Admitted (powerUp protocol retVal retTyp encoderLines : Setup F) es) :
    (∀ p, p <+: es → IdsRight (run step (powerUp protocol retVal retTyp encoderLines : Setup F) p)) ↔
      Along step IdsKept (powerUp protocol retVal retTyp encoderLines : Setup F) es := by
  refine reached_iff_along (J := fun _ => True) (fun _ _ _ _ => trivial) ?_ es _ trivial
    (idsRight_powerUp protocol retVal retTyp encoderLines) h
  intro s e _ hok hs
  exact idsKept_iff s e hs hok

/-! ## A brand change after the parameters -/

def copley : ChassisDemandConfig := { bChassisExist := 20, chassisType := doubleDiff, driverBrand := 2 }

def jingZhi : ChassisDemandConfig := { bChassisExist := 20, chassisType := doubleDiff, driverBrand := 12 }

/-- Two motors with drive numbers 5 and 6. -/
def motors56 : ChassisConfig where
  e := 500
  r _ := 100
  driveID := [5, 6]
  driveID_le := by decide
  encoderLines := 2500
  reductionRatio := 20
  motorMaxSpeedRpm := 3000
  inverse _ := false

def idle : Setup ℚ := powerUp 0 (fun _ => 0) (fun _ => .null) 0

theorem motorIds_same_brand :
    (∀ p, p <+: [Msg.demand copley, .param motors56] → IdsRight (run step idle p)) ↔
      Along step IdsKept idle [Msg.demand copley, .param motors56] :=
  motorIds_iff 0 (fun _ => 0) (fun _ => .null) 0 _ ⟨by decide, by decide, trivial⟩

theorem ids_lost :
    ¬ (Along step Admitted idle [Msg.demand copley, .param motors56, .demand jingZhi] →
      IdsRight (run step idle [Msg.demand copley, .param motors56, .demand jingZhi])) := by
  intro h
  obtain ⟨d, hd, hrx, _⟩ := h ⟨by decide, by decide, by decide, trivial⟩ motors56 rfl 0 (by decide)
  obtain rfl : CDriverCanProtocol.new (.jingZhiCanopen .speedMode) 2 = d := Option.some.inj hd
  revert hrx
  decide

end SeerDIOBoard.Chassis.MotorIds
