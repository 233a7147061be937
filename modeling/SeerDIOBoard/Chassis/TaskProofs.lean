/-
  SeerDIOBoard.Chassis.TaskProofs — what the steps of the chassis task's model leave as it
  is, and which of them end in a null dereference (see `SeerDIOBoard.Chassis.Task`).

  - `sameConfig_step`: only the two configuration messages touch the driver, the brand and
    the chassis type.
  - `onlyConfig_demandStep`, `onlyConfig_paramStep`: and they touch nothing else of the wait
    and of the commands.
  - `fault_iff`: a run ends at a dereference (`Derefs`) with no driver, and only there.
-/

import SeerDIOBoard.Chassis.Task

namespace SeerDIOBoard.Chassis.Task

open SeerDIOBoard.Can SeerDIOBoard.Mileage

variable {F : Type}

/-! ## The configuration -/

structure SameConfig (s s' : Task F) : Prop where
  protocol : s'.chassis.protocol = s.chassis.protocol
  driver : s'.chassis.driverProtocol = s.chassis.driverProtocol
  chassisType : s'.devices.mileage.chassisType = s.devices.mileage.chassisType
  brands : s'.brands = s.brands

theorem SameConfig.refl (s : Task F) : SameConfig s s := ⟨rfl, rfl, rfl, rfl⟩

theorem SameConfig.numOfWheel {s s' : Task F} (h : SameConfig s s') : s'.numOfWheel = s.numOfWheel := by
  simp only [Task.numOfWheel, CMileage.numOfWheel, h.chassisType]

theorem setPos_chassisType (f : Nat → Int) (l : List Nat) (m : CMileage) :
    (l.foldl (fun m i => m.setPos i (f i)) m).chassisType = m.chassisType := by
  induction l generalizing m with
  | nil => rfl
  | cons i l ih => exact ih _

/-- The loop over the wheels hands every wheel in use the value of its own entry. -/
theorem setPositions_pos (s : Devices F) (i : Nat) (hi : i < s.mileage.numOfWheel) :
    (setPositions s).mileage.pos i = s.chassis.retVal i := by
  have key : ∀ (n : Nat) (m : CMileage), i < n →
      ((List.range n).foldl (fun m i => m.setPos i (s.chassis.retVal i)) m).pos i = s.chassis.retVal i := by
    intro n
    induction n with
    | zero =>
      intro m h
      omega
    | succ n ih =>
      intro m h
      rw [List.range_succ, List.foldl_append]
      by_cases hin : i = n
      · rw [hin]
        exact Function.update_self _ _ _
      · exact (Function.update_of_ne hin _ _).trans (ih m (by omega))
  exact key _ _ hi

theorem sameConfig_encodes {s next : Task F} (h : SameConfig s next) : SameConfig s (s.encodes next) := by
  unfold encodes
  split
  · exact ⟨h.protocol, h.driver, h.chassisType, h.brands⟩
  · exact h

theorem sameConfig_taskStep (s : Task F) (pc : Pc) : SameConfig s (s.taskStep pc) := by
  cases pc with
  | sendSpeed => exact sameConfig_encodes ⟨rfl, rfl, rfl, rfl⟩
  | sendQuery => exact sameConfig_encodes ⟨rfl, rfl, rfl, rfl⟩
  | report => exact ⟨rfl, rfl, setPos_chassisType _ _ _, rfl⟩
  | waitStart => simp only [taskStep]; split <;> exact ⟨rfl, rfl, rfl, rfl⟩
  | waitInited => simp only [taskStep]; split <;> exact ⟨rfl, rfl, rfl, rfl⟩
  | initMsg => simp only [taskStep]; split <;> exact ⟨rfl, rfl, rfl, rfl⟩
  | semWait => simp only [taskStep]; split <;> exact ⟨rfl, rfl, rfl, rfl⟩
  | _ => exact ⟨rfl, rfl, rfl, rfl⟩

theorem sameConfig_readStep (s : Task F) (ct : MotorDriverCmdType) (i : Nat) (r : Read) :
    SameConfig s (s.readStep ct i r) := by
  cases r with
  | frame msg => simp only [readStep]; split <;> exact ⟨rfl, rfl, rfl, rfl⟩
  | err status hs => simp only [readStep]; split <;> exact ⟨rfl, rfl, rfl, rfl⟩

theorem sameConfig_tickStep (s : Task F) : SameConfig s s.tickStep := by
  unfold tickStep
  split
  · dsimp only
    split <;> exact ⟨rfl, rfl, rfl, rfl⟩
  · exact .refl s

/-- The events that are not configuration messages. -/
def NotConfig : Ev F → Prop
  | .demand _ | .param _ => False
  | _ => True

theorem sameConfig_step (s : Task F) (e : Ev F) (he : NotConfig e) : SameConfig s (s.step e) := by
  unfold step
  split
  · exact .refl s
  cases e with
  | demand pbMsg => exact he.elim
  | param pbMsg => exact he.elim
  | store x y w => simp only [storeStep]; split <;> exact ⟨rfl, rfl, rfl, rfl⟩
  | setFlag => simp only [setFlagStep]; split <;> exact ⟨rfl, rfl, rfl, rfl⟩
  | post => simp only [postStep]; split <;> exact ⟨rfl, rfl, rfl, rfl⟩
  | tick => exact sameConfig_tickStep s
  | task => exact sameConfig_taskStep s s.pc
  | opened ok => dsimp only; split <;> exact ⟨rfl, rfl, rfl, rfl⟩
  | read r =>
    dsimp only
    split
    · exact sameConfig_readStep s _ _ r
    · exact .refl s

/-- What the configuration messages leave of the task and its device. -/
structure OnlyConfig (s s' : Task F) : Prop where
  pc : s'.pc = s.pc
  hpc : s'.hpc = s.hpc
  took : s'.took = s.took
  lastRead : s'.lastRead = s.lastRead
  round : s'.round = s.round
  chassis : ∃ p d n, s'.chassis = { s.chassis with protocol := p, driverProtocol := d, openSem := n }

theorem OnlyConfig.refl (s : Task F) : OnlyConfig s s := ⟨rfl, rfl, rfl, rfl, rfl, _, _, _, rfl⟩

theorem onlyConfig_demandStep (s : Task F) (pbMsg : Option ChassisDemandConfig) : OnlyConfig s (s.demandStep pbMsg) := by
  unfold demandStep
  split
  · exact ⟨rfl, rfl, rfl, rfl, rfl, configChassisTypeFunc_frame s.devices pbMsg⟩
  · exact .refl s

theorem onlyConfig_paramStep (s : Task F) (pbMsg : Option ChassisConfig) : OnlyConfig s (s.paramStep pbMsg) := by
  unfold paramStep
  split
  · split
    case h_1 r devices hr =>
      exact ⟨rfl, rfl, rfl, rfl, rfl, s.chassis.protocol, devices.chassis.driverProtocol, s.chassis.openSem,
        (initializeParam_frame hr).chassis⟩
    · exact ⟨rfl, rfl, rfl, rfl, rfl, _, _, _, rfl⟩
  · exact .refl s

/-! ## Null dereferences -/

/-- The step goes through `Protocol()` or `_driverProtocol`: `initializeParam` for the
    first motor, `doInit`, `encode` in `sendSpeedCmd` and `sendQueryCmd`, `decode` in
    `waitCmdRet`. -/
def Derefs (s : Task F) (e : Ev F) : Prop :=
  s.fault = false ∧
    match e with
    | .param (some pbMsg) =>
      s.hpc = .idle ∧ s.devices.mileage.chassisType ≠ singleSteerPrec ∧ pbMsg.driveID ≠ []
    | .task => s.pc = .initMsg ∨ (s.pc = .sendSpeed ∨ s.pc = .sendQuery) ∧ 0 < s.numOfWheel
    | .read (.frame _) => ∃ ct i, s.pc = .reading ct i
    | _ => False

theorem paramStep_fault (s : Task F) (pbMsg : Option ChassisConfig) (hf : s.fault = false) :
    (s.paramStep pbMsg).fault = true ↔ Derefs s (.param pbMsg) ∧ s.chassis.driverProtocol = none := by
  unfold paramStep Derefs
  by_cases hh : s.hpc = .idle
  · rw [if_pos hh]
    have hnone := initializeParam_none_iff s.devices pbMsg
    cases pbMsg with
    | none => simp [initializeParam, initializeParamBy, hf]
    | some m =>
      simp only [Option.some.injEq, exists_eq_left'] at hnone
      simp only [hf, hh, true_and, and_assoc]
      refine Iff.trans ?_ hnone
      cases initializeParam s.devices (some m) with
      | none => exact ⟨fun _ => rfl, fun _ => rfl⟩
      | some r => simp
  · rw [if_neg hh]
    cases pbMsg <;> simp [hf, hh]

theorem encodes_fault (s next : Task F) (hf : next.fault = false) :
    (s.encodes next).fault = true ↔ s.chassis.driverProtocol = none ∧ 0 < s.numOfWheel := by
  unfold encodes
  split
  case isTrue h => exact ⟨fun _ => h, fun _ => rfl⟩
  case isFalse h =>
    rw [hf]
    refine ⟨?_, fun h' => absurd h' h⟩
    intro h'
    cases h'

theorem taskStep_fault (s : Task F) (hf : s.fault = false) :
    (s.taskStep s.pc).fault = true ↔ Derefs s .task ∧ s.chassis.driverProtocol = none := by
  unfold Derefs
  cases hpc : s.pc with
  | initMsg =>
    simp only [taskStep]
    cases s.chassis.driverProtocol <;> simp [hf]
  | sendSpeed =>
    simp only [taskStep]
    rw [encodes_fault _ _ (by exact hf)]
    simp [hf, and_comm]
  | sendQuery =>
    simp only [taskStep]
    rw [encodes_fault _ _ (by exact hf)]
    simp [hf, and_comm]
  | waitStart => simp only [taskStep]; split <;> simp [hf, goto, setChassis]
  | waitInited => simp only [taskStep]; split <;> simp [hf, goto]
  | semWait => simp only [taskStep]; split <;> simp [hf, goto, setChassis]
  | _ => simp [taskStep, hf, goto, setChassis]

theorem readStep_fault (s : Task F) (ct : MotorDriverCmdType) (i : Nat) (r : Read) (hf : s.fault = false)
    (hpc : s.pc = .reading ct i) :
    (s.readStep ct i r).fault = true ↔ Derefs s (.read r) ∧ s.chassis.driverProtocol = none := by
  unfold Derefs
  cases r with
  | frame msg =>
    simp only [readStep]
    cases s.chassis.driverProtocol <;> simp [hf, hpc, setChassis]
  | err status hs =>
    simp only [readStep]
    split <;> simp [hf, goto]

/-- A run ends at a dereference with no driver, and only there. -/
theorem fault_iff (s : Task F) (e : Ev F) (hf : s.fault = false) :
    (s.step e).fault = true ↔ Derefs s e ∧ s.chassis.driverProtocol = none := by
  unfold step
  rw [if_neg (by rw [hf]; simp)]
  cases e with
  | param pbMsg => exact paramStep_fault s pbMsg hf
  | task => exact taskStep_fault s hf
  | store x y w => simp only [storeStep, Derefs]; split <;> simp [hf, setChassis]
  | setFlag => simp only [setFlagStep, Derefs]; split <;> simp [hf, setChassis]
  | post => simp only [postStep, Derefs]; split <;> simp [hf, setChassis]
  | demand pbMsg => simp only [demandStep, Derefs]; split <;> simp [hf]
  | tick =>
    simp only [tickStep, Derefs]
    split
    · split <;> simp [hf, setChassis, goto]
    · simp [hf]
  | opened ok => simp only [Derefs]; split <;> simp [hf, goto]
  | read r =>
    dsimp only
    split
    case h_1 ct i hpc => exact readStep_fault s ct i r hf hpc
    case h_2 hno =>
      unfold Derefs
      cases r with
      | frame msg => simpa [hf] using fun ct i hpc => absurd hpc (hno ct i)
      | err status hs => simp [hf]

end SeerDIOBoard.Chassis.Task
