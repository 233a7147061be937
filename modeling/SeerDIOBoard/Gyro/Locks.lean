/-
  SeerDIOBoard.Gyro.Locks — the two mutexes of the board, one taken inside the other.

  `rcvFrame` decodes with `gyro_mut` held, and a frame that is due makes `Decode_frame` call
  `report`, which takes `reporter_mut`. The chassis task reports the odometer and the DIO
  task its inputs with `reporter_mut` alone, and the config task and the dispatcher take
  `gyro_mut` alone.

  The board is the tasks of Gyro/Sharing and the reporters of Reporter/Buffer, and the gyro
  task is one of both. Decoding touches nothing that others use, so what has been read is
  decoded at once; the reports it leads to are made one after the other before the mutex is
  released.

  - `tasks_run`, `reporters_run`: a run of the board is a run of either.
  - `no_deadlock`: in no run does a task wait for a mutex while all that could free one wait
    as well.
-/

import SeerDIOBoard.Gyro.Sharing
import SeerDIOBoard.Reporter.Buffer

namespace SeerDIOBoard.Gyro.Locks

open Lib.Machine Lib.Mutex
open SeerDIOBoard.Gyro.Receiver (CGyroDevice calls)
open SeerDIOBoard.Gyro.Sharing (Tasks)
open SeerDIOBoard.Reporter (Reporters Instance)

inductive Who where
  | gyro
  | config
  | dispatcher
  | odometer
  | dio
  deriving DecidableEq, Repr

structure Board where
  tasks : Tasks
  reporters : Reporters Instance
  /-- The reports that the bytes read still lead to. -/
  reports : Nat

/-- `ret` is also what `socket` returns. -/
structure Act where
  who : Who
  ret : Int
  buf : List UInt8

def reportsIn (device : CGyroDevice) (buf : List UInt8) : Nat :=
  (calls device buf).countP fun c => (c.map (·.reported)).getD false

namespace Board

/-- The gyro task is in the decoding loop and has a report to make. -/
def Reporting (s : Board) : Prop := s.tasks.gyro = .unlock ∧ 0 < s.reports

instance (s : Board) : Decidable s.Reporting := inferInstanceAs (Decidable (_ ∧ _))

def start (gyroMut reporterMut : Bool) (usartFd : Int) (device : CGyroDevice) : Board where
  tasks := .start gyroMut usartFd device
  reporters := Reporter.start reporterMut
  reports := 0

def gyroStep (s : Board) (ret : Int) (buf : List UInt8) : Board :=
  if s.Reporting then
    { s with
      reporters := Reporter.step s.reporters ⟨.gyro, ret⟩
      reports := if s.reporters.pc .gyro = .mutexUnlock then s.reports - 1 else s.reports }
  else
    { s with
      tasks := s.tasks.step ⟨.gyro, ret, buf⟩
      reports := if s.tasks.gyro = .read then reportsIn s.tasks.device buf else s.reports }

def step (s : Board) (e : Act) : Board :=
  match e.who with
  | .gyro => s.gyroStep e.ret e.buf
  | .config => { s with tasks := s.tasks.step ⟨.config, e.ret, e.buf⟩ }
  | .dispatcher => { s with tasks := s.tasks.step ⟨.dispatcher, e.ret, e.buf⟩ }
  | .odometer => { s with reporters := Reporter.step s.reporters ⟨.odometer, e.ret⟩ }
  | .dio => { s with reporters := Reporter.step s.reporters ⟨.dio, e.ret⟩ }

/-! ## Runs of the board -/

/-- What a step of the board is for the tasks, if it is one. -/
def taskActs (s : Board) (e : Act) : List Sharing.Act :=
  match e.who with
  | .gyro => if s.Reporting then [] else [⟨.gyro, e.ret, e.buf⟩]
  | .config => [⟨.config, e.ret, e.buf⟩]
  | .dispatcher => [⟨.dispatcher, e.ret, e.buf⟩]
  | .odometer | .dio => []

def reporterActs (s : Board) (e : Act) : List (Reporter.Act Instance) :=
  match e.who with
  | .gyro => if s.Reporting then [⟨.gyro, e.ret⟩] else []
  | .config | .dispatcher => []
  | .odometer => [⟨.odometer, e.ret⟩]
  | .dio => [⟨.dio, e.ret⟩]

theorem tasks_step (s : Board) (e : Act) : (s.step e).tasks = run Tasks.step s.tasks (s.taskActs e) := by
  unfold step taskActs
  cases e.who with
  | gyro =>
    dsimp only
    rw [gyroStep]
    split
    · rfl
    · rfl
  | _ => rfl

theorem reporters_step (s : Board) (e : Act) :
    (s.step e).reporters = run Reporter.step s.reporters (s.reporterActs e) := by
  unfold step reporterActs
  cases e.who with
  | gyro =>
    dsimp only
    rw [gyroStep]
    split
    · rfl
    · rfl
  | _ => rfl

theorem tasks_run (es : List Act) (s : Board) :
    (run step s es).tasks = run Tasks.step s.tasks (expansion step taskActs s es) :=
  run_expansion (I := fun _ => True) tasks (fun _ _ _ => trivial) (fun s e _ => tasks_step s e) es s trivial

theorem reporters_run (es : List Act) (s : Board) :
    (run step s es).reporters = run Reporter.step s.reporters (expansion step reporterActs s es) :=
  run_expansion (I := fun _ => True) reporters (fun _ _ _ => trivial) (fun s e _ => reporters_step s e) es s trivial

/-! ## Whoever locks a mutex holds it -/

/-- The gyro's mutex has still to be initialised, or whoever locked it holds it. -/
def GyroMut (s : Tasks) : Prop := s.gyro = .mutexInit ∨ Held s.mutex

theorem gyroMut_step (s : Tasks) (e : Sharing.Act) (h : GyroMut s) : GyroMut (s.step e) := by
  rcases h with hinit | hheld
  · by_cases hwho : e.who = .gyro
    · refine Or.inr ?_
      have hop : s.opOf e = some .init := by
        unfold Tasks.opOf
        rw [hwho, hinit]
      rw [Tasks.mutex_step, hop]
      exact held_init s.mutex
    · exact Or.inl ((Tasks.gyro_of_other hwho).trans hinit)
  · refine Or.inr ?_
    rw [Tasks.mutex_step]
    split
    case h_1 op _ => exact held_apply hheld op
    case h_2 => exact hheld

/-- No instance has come past the initialisation of the reporters' mutex, or whoever locked
    it holds it. -/
def ReporterMut (s : Reporters Instance) : Prop :=
  (∀ i, s.socketN i < 0 ∧ (s.pc i = .idle ∨ s.pc i = .mutexInit)) ∨ Held (Reporter.mutex s)

theorem reporterMut_step (s : Reporters Instance) (e : Reporter.Act Instance) (h : ReporterMut s) :
    ReporterMut (Reporter.step s e) := by
  rcases h with hfresh | hheld
  · obtain ⟨hsock, hidle | hinit⟩ := hfresh e.who
    · refine Or.inl fun i => ?_
      rw [Reporter.step, hidle, Reporter.stepAt, if_pos hsock]
      refine ⟨(hfresh i).1, ?_⟩
      by_cases hi : i = e.who
      · rw [hi]
        exact Or.inr (Function.update_self ..)
      · rw [show (Reporter.goto s e.who .mutexInit).pc i = s.pc i from Function.update_of_ne hi ..]
        exact (hfresh i).2
    · refine Or.inr ?_
      have hop : Reporter.opOf s e = some .init := by
        unfold Reporter.opOf
        rw [hinit]
      rw [Reporter.mutex_step, hop]
      exact held_init (Reporter.mutex s)
  · refine Or.inr ?_
    rw [Reporter.mutex_step]
    split
    case h_1 op _ => exact held_apply hheld op
    case h_2 => exact hheld

/-! ## The gyro task in both -/

/-- It is in `report` only where the decoding loop has a report to make. -/
def Nested (s : Board) : Prop := s.reporters.pc .gyro ≠ .idle → s.Reporting

theorem pc_of_other {s : Reporters Instance} {e : Reporter.Act Instance} {i : Instance} (hi : i ≠ e.who) :
    (Reporter.step s e).pc i = s.pc i := by
  have hgoto : ∀ {r : Reporters Instance} (pc), r.pc = s.pc → (Reporter.goto r e.who pc).pc i = s.pc i := by
    intro r pc hr
    rw [← hr]
    exact Function.update_of_ne hi ..
  unfold Reporter.step
  cases s.pc e.who with
  | mutexLock =>
    rw [Reporter.stepAt]
    split
    · rfl
    · exact hgoto _ rfl
  | upload => exact hgoto _ (Reporter.upload_frame s e.who e.socket).1
  | _ => exact hgoto _ rfl

theorem nested_gyro {s : Board} (h : Nested s) (ret : Int) (buf : List UInt8) : Nested (s.gyroStep ret buf) := by
  unfold gyroStep
  by_cases hrep : s.Reporting
  · rw [if_pos hrep]
    intro hpc
    refine ⟨hrep.1, ?_⟩
    dsimp only at hpc ⊢
    split
    case isTrue hunlock =>
      -- the report is over
      have hidle : (Reporter.step s.reporters ⟨.gyro, ret⟩).pc .gyro = .idle := by
        rw [Reporter.step, hunlock]
        exact Function.update_self Instance.gyro Reporter.Pc.idle s.reporters.pc
      exact absurd hidle hpc
    case isFalse => exact hrep.2
  · rw [if_neg hrep]
    exact fun hpc => absurd (h hpc) hrep

theorem nested_step (s : Board) (e : Act) (h : Nested s) : Nested (s.step e) := by
  have htasks : ∀ {a : Sharing.Act}, a.who ≠ .gyro → Nested { s with tasks := s.tasks.step a } := by
    intro a ha hpc
    obtain ⟨hunlock, hpos⟩ := h hpc
    exact ⟨(Tasks.gyro_of_other ha).trans hunlock, hpos⟩
  have hreporters : ∀ {a : Reporter.Act Instance}, a.who ≠ .gyro →
      Nested { s with reporters := Reporter.step s.reporters a } := by
    intro a ha hpc
    rw [show (Reporter.step s.reporters a).pc .gyro = s.reporters.pc .gyro from pc_of_other ha.symm] at hpc
    exact h hpc
  unfold step
  cases e.who with
  | gyro => exact nested_gyro h e.ret e.buf
  | config => exact htasks Sharing.Party.noConfusion
  | dispatcher => exact htasks Sharing.Party.noConfusion
  | odometer => exact hreporters Instance.noConfusion
  | dio => exact hreporters Instance.noConfusion

/-! ## No deadlock -/

inductive Lock where
  | gyroMut
  | reporterMut
  deriving DecidableEq, Repr

def locked (s : Board) : Lock → Bool
  | .gyroMut => s.tasks.gyroMut
  | .reporterMut => s.reporters.reporterMut

/-- The mutex that the task's next operation locks. -/
def locks (s : Board) : Who → Option Lock
  | .gyro =>
    if s.Reporting then if s.reporters.pc .gyro = .mutexLock then some .reporterMut else none
    else if s.tasks.gyro = .lock then some .gyroMut else none
  | .config => if s.tasks.config = .lock then some .gyroMut else none
  | .dispatcher => if s.tasks.dispatcher = .lock then some .gyroMut else none
  | .odometer => if s.reporters.pc .odometer = .mutexLock then some .reporterMut else none
  | .dio => if s.reporters.pc .dio = .mutexLock then some .reporterMut else none

def holds (s : Board) : Lock → Who → Bool
  | .gyroMut, .gyro => s.tasks.inside .gyro
  | .gyroMut, .config => s.tasks.inside .config
  | .gyroMut, .dispatcher => s.tasks.inside .dispatcher
  | .reporterMut, .gyro => (s.reporters.pc .gyro).inside
  | .reporterMut, .odometer => (s.reporters.pc .odometer).inside
  | .reporterMut, .dio => (s.reporters.pc .dio).inside
  | _, _ => false

/-- The task waits for a mutex. -/
def Waits (s : Board) (w : Who) : Prop := ∃ l, s.locks w = some l ∧ s.locked l = true

/-- The task can free one: it holds one, or has the gyro's still to initialise. -/
def Frees (s : Board) (w : Who) : Prop := (∃ l, s.holds l w = true) ∨ (w = .gyro ∧ s.tasks.gyro = .mutexInit)

def Deadlocked (s : Board) : Prop := (∃ w, s.Waits w) ∧ ∀ w, s.Frees w → s.Waits w

/-- Who is inside `report` is past the lock. -/
theorem locks_of_holds {s : Board} (h : Nested s) {w : Who} (hw : s.holds .reporterMut w = true) : s.locks w = none := by
  have hpast : ∀ {i}, (s.reporters.pc i).inside = true → s.reporters.pc i ≠ .mutexLock ∧ s.reporters.pc i ≠ .idle := by
    intro i hi
    refine ⟨fun hpc => ?_, fun hpc => ?_⟩
    · rw [hpc] at hi
      cases hi
    · rw [hpc] at hi
      cases hi
  cases w with
  | gyro =>
    obtain ⟨hlock, hidle⟩ := hpast hw
    rw [locks, if_pos (h hidle), if_neg hlock]
  | odometer => exact if_neg (hpast hw).1
  | dio => exact if_neg (hpast hw).1
  | config => cases hw
  | dispatcher => cases hw

/-- Who waits for the reporters' mutex waits for a holder. -/
theorem reporterMut_held {s : Board} (h : ReporterMut s.reporters) {w : Who} (hw : s.locks w = some .reporterMut)
    (hlocked : s.locked .reporterMut = true) : ∃ q, s.holds .reporterMut q = true := by
  have hlock : ∃ i, s.reporters.pc i = .mutexLock := by
    by_contra hnone
    have hne : ∀ i, s.reporters.pc i ≠ .mutexLock := fun i hi => hnone ⟨i, hi⟩
    cases w with
    | gyro => simp [locks, hne] at hw
    | odometer => simp [locks, hne] at hw
    | dio => simp [locks, hne] at hw
    | config => simp [locks] at hw
    | dispatcher => simp [locks] at hw
  rcases h with hfresh | hheld
  · obtain ⟨i, hi⟩ := hlock
    rcases (hfresh i).2 with hpc | hpc
    · rw [hi] at hpc
      cases hpc
    · rw [hi] at hpc
      cases hpc
  · obtain ⟨i, hi⟩ := hheld hlocked
    cases i with
    | gyro => exact ⟨.gyro, hi⟩
    | odometer => exact ⟨.odometer, hi⟩
    | dio => exact ⟨.dio, hi⟩

/-- Who waits for the gyro's waits for a task that is past it. -/
theorem gyroMut_held {s : Board} (h : GyroMut s.tasks) (hlocked : s.locked .gyroMut = true) :
    ∃ q, s.Frees q ∧ s.locks q ≠ some .gyroMut := by
  rcases h with hinit | hheld
  · refine ⟨.gyro, Or.inr ⟨rfl, hinit⟩, ?_⟩
    simp [locks, hinit]
  · obtain ⟨p, hp⟩ := hheld hlocked
    cases p with
    | gyro =>
      refine ⟨.gyro, Or.inl ⟨.gyroMut, hp⟩, ?_⟩
      have hne : s.tasks.gyro ≠ .lock := by
        intro hpc
        rw [show (Tasks.mutex s.tasks).holds .gyro = s.tasks.gyro.inside from rfl, hpc] at hp
        cases hp
      simp [locks, hne]
    | config =>
      refine ⟨.config, Or.inl ⟨.gyroMut, hp⟩, ?_⟩
      have hne : s.tasks.config ≠ .lock := by
        intro hpc
        rw [show (Tasks.mutex s.tasks).holds .config = s.tasks.config.inside from rfl, hpc] at hp
        cases hp
      simp [locks, hne]
    | dispatcher =>
      refine ⟨.dispatcher, Or.inl ⟨.gyroMut, hp⟩, ?_⟩
      have hne : s.tasks.dispatcher ≠ .lock := by
        intro hpc
        rw [show (Tasks.mutex s.tasks).holds .dispatcher = s.tasks.dispatcher.inside from rfl, hpc] at hp
        cases hp
      simp [locks, hne]

theorem not_deadlocked {s : Board} (hg : GyroMut s.tasks) (hr : ReporterMut s.reporters) (hn : Nested s) : ¬ s.Deadlocked := by
  intro h
  obtain ⟨⟨w, l, hw, hlocked⟩, hall⟩ := h
  -- the inner mutex first: its holder waits for nothing
  have hinner : ∀ w, s.locks w = some .reporterMut → s.locked .reporterMut ≠ true := by
    intro w hw hlocked
    obtain ⟨q, hq⟩ := reporterMut_held hr hw hlocked
    obtain ⟨l, hl, -⟩ := hall q (Or.inl ⟨_, hq⟩)
    rw [locks_of_holds hn hq] at hl
    cases hl
  cases l with
  | reporterMut => exact hinner w hw hlocked
  | gyroMut =>
    obtain ⟨q, hfrees, hq⟩ := gyroMut_held hg hlocked
    obtain ⟨l, hl, hll⟩ := hall q hfrees
    cases l with
    | gyroMut => exact hq hl
    | reporterMut => exact hinner q hl hll

theorem no_deadlock (gyroMut reporterMut : Bool) (usartFd : Int) (device : CGyroDevice) (es : List Act) :
    ¬ (run step (start gyroMut reporterMut usartFd device) es).Deadlocked := by
  refine not_deadlocked ?_ ?_ ?_
  · rw [tasks_run]
    exact inv_run_all gyroMut_step _ _ (Or.inl rfl)
  · rw [reporters_run]
    exact inv_run_all reporterMut_step _ _ (Or.inl fun _ => ⟨(by decide : (-1 : Int) < 0), Or.inl rfl⟩)
  · exact inv_run_all nested_step es _ (fun h => absurd rfl h)

end Board

end SeerDIOBoard.Gyro.Locks
