/-
  SeerDIOBoard.Chassis.DriverPresence — when the driver that the board dereferences is
  there, over every run of the chassis task with the configuration messages.

  Whether there is a driver is decided by the brands alone (`present_step`): the last one
  must be built, and the first driver comes with the first brand that is not the value
  the constructor left in `_protocol`. Nothing else is checked on the way to a dereference:
  the start semaphore is posted and the parameters are taken with no driver.
-/

import SeerDIOBoard.Chassis.TaskProofs

namespace SeerDIOBoard.Chassis.Task

open Lib.Machine
open SeerDIOBoard.Can SeerDIOBoard.Mileage

variable {F : Type}

/-- The brands accepted so far have left a driver: the last is one whose driver is built,
    and not all of them are the value `_protocol` had at power-up. -/
def BuiltBy (protocol : Nat) (brands : List Nat) : Prop :=
  (∃ b, brands.getLast? = some b ∧ supported b) ∧ ∃ b, b ∈ brands ∧ b ≠ protocol

/-- The driver is there by the history of the brands. -/
structure Present (protocol : Nat) (s : Task F) : Prop where
  selected : s.chassis.protocol = s.brands.getLast?.getD protocol
  driver : s.chassis.driverProtocol.isSome = true ↔ BuiltBy protocol s.brands

theorem present_congr {protocol : Nat} {s s' : Task F} (h : Present protocol s) (hb : s'.brands = s.brands)
    (hp : s'.chassis.protocol = s.chassis.protocol)
    (hd : s'.chassis.driverProtocol.isSome = s.chassis.driverProtocol.isSome) : Present protocol s' := by
  refine ⟨?_, ?_⟩
  · rw [hp, hb]
    exact h.selected
  · rw [hd, hb]
    exact h.driver

theorem builtBy_snoc (protocol : Nat) (brands : List Nat) (b : Nat) :
    BuiltBy protocol (brands ++ [b]) ↔ supported b ∧ ((∃ c, c ∈ brands ∧ c ≠ protocol) ∨ b ≠ protocol) := by
  unfold BuiltBy
  simp only [List.getLast?_append, List.getLast?_singleton, Option.some_or, Option.some.injEq, exists_eq_left',
    List.mem_append, List.mem_singleton, or_and_right, exists_or, exists_eq_left]

/-- A brand that is selected again adds nothing to the history. -/
theorem builtBy_again {protocol : Nat} {brands : List Nat} {b : Nat} (hb : brands.getLast?.getD protocol = b) :
    BuiltBy protocol (brands ++ [b]) ↔ BuiltBy protocol brands := by
  rw [builtBy_snoc]
  unfold BuiltBy
  cases hlast : brands.getLast? with
  | none =>
    rw [hlast] at hb
    have hnil : brands = [] := List.getLast?_eq_none_iff.mp hlast
    simp only [Option.getD_none] at hb
    simp [hnil, hb]
  | some l =>
    rw [hlast] at hb
    obtain rfl : l = b := hb
    have hmem : l ∈ brands := List.mem_of_getLast? hlast
    simp only [Option.some.injEq, exists_eq_left']
    refine and_congr_right fun _ => ⟨?_, Or.inl⟩
    intro h
    rcases h with h | h
    · exact h
    · exact ⟨l, hmem, h⟩

/-- A brand that replaces another is preceded by one that is not the first value, or is not
    it itself. -/
theorem builtBy_other {protocol : Nat} {brands : List Nat} {b : Nat} (hb : brands.getLast?.getD protocol ≠ b) :
    BuiltBy protocol (brands ++ [b]) ↔ supported b := by
  rw [builtBy_snoc]
  refine and_iff_left_of_imp fun _ => ?_
  by_cases hp : b = protocol
  · cases hlast : brands.getLast? with
    | none =>
      rw [hlast, hp] at hb
      exact absurd rfl hb
    | some l =>
      rw [hlast, hp] at hb
      exact Or.inl ⟨l, List.mem_of_getLast? hlast, hb⟩
  · exact Or.inr hp

/-- One 0xA004 message: the brand it selects takes its place in the history. -/
theorem present_demand {protocol : Nat} {s : Task F} (h : Present protocol s) (pbMsg : Option ChassisDemandConfig) :
    Present protocol (s.demandStep pbMsg) := by
  unfold demandStep
  split
  case isFalse => exact h
  cases hm : acts pbMsg with
  | none =>
    have hidle := configChassisTypeFunc_idle s.devices pbMsg hm
    exact present_congr h (by simp) (by simp only [chassis, hidle]) (by simp only [chassis, hidle])
  | some m =>
    have hsel := h.selected
    refine ⟨?_, ?_⟩
    · simp only [chassis, configChassisTypeFunc_acts _ _ _ hm, setProtocol_eq, Option.toList_some, List.map_cons,
        List.map_nil, List.getLast?_append, List.getLast?_singleton, Option.some_or, Option.getD_some]
      split
      case isTrue heq => exact heq
      case isFalse => rfl
    · simp only [chassis, configChassisTypeFunc_acts _ _ _ hm, setProtocol_eq, Option.toList_some, List.map_cons,
        List.map_nil]
      split
      case isTrue heq =>
        rw [builtBy_again (hsel.symm.trans heq)]
        exact h.driver
      case isFalse hne =>
        rw [builtBy_other fun he => hne (hsel.trans he)]
        exact builtDriver_isSome _ _

theorem present_step {protocol : Nat} (s : Task F) (e : Ev F) (h : Present protocol s) :
    Present protocol (s.step e) := by
  by_cases hcfg : NotConfig e
  · have hs := sameConfig_step s e hcfg
    exact present_congr h hs.brands hs.protocol (congrArg _ hs.driver)
  unfold step
  split
  · exact h
  cases e with
  | demand pbMsg => exact present_demand h pbMsg
  | param pbMsg =>
    simp only [paramStep]
    split
    · split
      case h_1 r devices hr =>
        have hc := initializeParam_frame hr
        exact present_congr h rfl (by simp only [chassis]; rw [hc.chassis]) hc.driver
      · exact present_congr h rfl rfl rfl
    · exact h
  | _ => exact absurd trivial hcfg

/-! ## Runs -/

theorem present_powerUp [Zero F] (protocol : Nat) (retVal : Nat → Int) (retTyp : Nat → MotorDriverCmdType)
    (encoderLines : Int) : Present protocol (powerUp protocol retVal retTyp encoderLines : Task F) := by
  refine ⟨rfl, ?_⟩
  simp [powerUp, chassis, CChassisDevice.new, BuiltBy]

/-- Over every run: the driver is there at every dereference exactly when the brands
    accepted before it have left one. -/
theorem driver_present_iff [Zero F] (protocol : Nat) (retVal : Nat → Int) (retTyp : Nat → MotorDriverCmdType)
    (encoderLines : Int) (es : List (Ev F)) :
    Along step (fun s e => Derefs s e → s.chassis.driverProtocol ≠ none)
        (powerUp protocol retVal retTyp encoderLines) es ↔
      Along step (fun s e => Derefs s e → BuiltBy protocol s.brands)
        (powerUp protocol retVal retTyp encoderLines) es := by
  refine along_iff_of_inv (I := Present protocol) (fun s e hi _ => present_step s e hi) ?_ es _
    (present_powerUp protocol retVal retTyp encoderLines)
  intro s e hi
  rw [← hi.driver, Option.isSome_iff_ne_none]

/-- A brand whose driver is not built starts the task, and the parameters need no driver
    when they name no motor: `doInit` dereferences null. -/
theorem started_without_driver :
    ¬ Along step (fun s e => Derefs s e → s.chassis.driverProtocol ≠ none)
      (powerUp 0 (fun _ => 0) (fun _ => .null) 0 : Task ℚ)
      [.demand (some { bChassisExist := 20, chassisType := doubleDiff, driverBrand := 1 }), .task,
        .param (some { e := 500, r := fun _ => 100, driveID := [], driveID_le := by decide, encoderLines := 2500,
                       reductionRatio := 20, motorMaxSpeedRpm := 3000, inverse := fun _ => false }),
        .task, .opened true, .task] := by
  rintro ⟨-, -, -, -, -, h, -⟩
  exact h ⟨rfl, Or.inl rfl⟩ rfl

end SeerDIOBoard.Chassis.Task
