/-
  SeerDIOBoard.Gyro.Sharing — the tasks that share the gyro (`CGyroDevice::doInit`,
  `rcvFrame`, `doCalibration`, `gyroCmdDispatcher`, src/Gyro.cxx; task_gyro.cxx, `doConfig`
  of task_config.cxx).

  The gyro task initialises `gyro_mut` and opens the UART in `doInit`; then it calls
  `rcvFrame` over and over, which reads the UART and decodes what it has read with the mutex
  held. The config task calls `doCalibration` for a calibration command, if `isOpen`. The
  dispatcher calls `gyroCmdDispatcher`, open or not, which takes the mutex, does nothing with
  the command and releases it.

  A step is one task's next operation. `ret` is what the system call in it returns (0 for the
  null of `malloc`), `buf` what `read` has read: it waits until there is something. `writes`
  has the calls of `write`. What `gyro_mut`, `usart_fd` and the rest are at power-up, nobody
  has set.

  - `uart_exclusive`: the tasks exclude each other in the runs where the dispatcher is not
    inside when the mutex is initialised. And while the gyro task waits for bytes, neither of
    the others gets in: a gyro command keeps the dispatcher, and with it every other command,
    for as long as the gyro sends nothing.
  - `zeros_step`, `written_of_sound`: the open UART has been sent the init command and then
    one set-zero command for each calibration gone on with, the one in hand apart; one that
    is not open has been sent no set-zero command.
-/

import SeerDIOBoard.Gyro.Receiver
import SeerDIOBoard.Lib.Machine
import SeerDIOBoard.Lib.Mutex

namespace SeerDIOBoard.Gyro.Sharing

open Lib.Machine Lib.Mutex
open SeerDIOBoard.Gyro.Receiver (CGyroDevice feed gyroInitDataBuffer)

def setZeroBuffer : List UInt8 := [0xA5, 0x5A, 0x04, 0xEE, 0xF2, 0xAA]

inductive Party where
  | gyro
  | config
  | dispatcher
  deriving DecidableEq, Repr

/-- What the gyro task does next: `doInit`, then `rcvFrame`. -/
inductive GyroPc where
  | mutexInit
  | malloc
  | openDev
  | writeInit
  | setInited
  | lock
  | read
  | unlock
  | exited
  deriving DecidableEq, Repr

inductive ConfigPc where
  | idle
  | lock
  | write
  | unlock
  deriving DecidableEq, Repr

inductive DispatcherPc where
  | idle
  | lock
  | unlock
  deriving DecidableEq, Repr

/-! Between the two mutex calls. -/

def GyroPc.inside : GyroPc → Bool
  | .read | .unlock => true
  | _ => false

def ConfigPc.inside : ConfigPc → Bool
  | .write | .unlock => true
  | _ => false

def DispatcherPc.inside : DispatcherPc → Bool
  | .unlock => true
  | _ => false

structure Tasks where
  gyroMut : Bool
  usartFd : Int
  bInited : Bool
  device : CGyroDevice
  writes : List (Int × List UInt8)
  gyro : GyroPc
  config : ConfigPc
  dispatcher : DispatcherPc

structure Act where
  who : Party
  ret : Int
  buf : List UInt8

namespace Tasks

def start (gyroMut : Bool) (usartFd : Int) (device : CGyroDevice) : Tasks where
  gyroMut := gyroMut
  usartFd := usartFd
  bInited := false
  device := device
  writes := []
  gyro := .mutexInit
  config := .idle
  dispatcher := .idle

def gyroStep (s : Tasks) (ret : Int) (buf : List UInt8) : Tasks :=
  match s.gyro with
  | .mutexInit => { s with gyroMut := false, gyro := .malloc }
  | .malloc => { s with gyro := if ret = 0 then .exited else .openDev }
  | .openDev => { s with usartFd := ret, gyro := if ret < 0 then .exited else .writeInit }
  | .writeInit =>
    { s with writes := s.writes ++ [(s.usartFd, gyroInitDataBuffer)], gyro := if ret < 0 then .exited else .setInited }
  | .setInited => { s with bInited := true, gyro := .lock }
  | .lock => if s.gyroMut = true then s else { s with gyroMut := true, gyro := .read }
  | .read => { s with device := feed s.device buf, gyro := .unlock }
  | .unlock => { s with gyroMut := false, gyro := .lock }
  | .exited => s

/-- In front of a call there is a calibration command, and `isOpen` decides. -/
def configStep (s : Tasks) : Tasks :=
  match s.config with
  | .idle => if s.bInited = true then { s with config := .lock } else s
  | .lock => if s.gyroMut = true then s else { s with gyroMut := true, config := .write }
  | .write => { s with writes := s.writes ++ [(s.usartFd, setZeroBuffer)], config := .unlock }
  | .unlock => { s with gyroMut := false, config := .idle }

def dispatcherStep (s : Tasks) : Tasks :=
  match s.dispatcher with
  | .idle => { s with dispatcher := .lock }
  | .lock => if s.gyroMut = true then s else { s with gyroMut := true, dispatcher := .unlock }
  | .unlock => { s with gyroMut := false, dispatcher := .idle }

def step (s : Tasks) (e : Act) : Tasks :=
  match e.who with
  | .gyro => s.gyroStep e.ret e.buf
  | .config => s.configStep
  | .dispatcher => s.dispatcherStep

/-- Only the gyro task gets itself on. -/
theorem gyro_of_other {s : Tasks} {e : Act} (he : e.who ≠ .gyro) : (s.step e).gyro = s.gyro := by
  unfold step
  cases hwho : e.who with
  | gyro => exact absurd hwho he
  | config =>
    dsimp only
    unfold configStep
    cases s.config with
    | idle | lock =>
      dsimp only
      split
      · rfl
      · rfl
    | write | unlock => rfl
  | dispatcher =>
    dsimp only
    unfold dispatcherStep
    cases s.dispatcher with
    | lock =>
      dsimp only
      split
      · rfl
      · rfl
    | idle | unlock => rfl

def inside (s : Tasks) : Party → Bool
  | .gyro => s.gyro.inside
  | .config => s.config.inside
  | .dispatcher => s.dispatcher.inside

def Exclusive (s : Tasks) : Prop := ∀ p q, s.inside p = true → s.inside q = true → p = q

/-- The dispatcher is not inside when the mutex is initialised. -/
def QuietInit (s : Tasks) (e : Act) : Prop := e.who = .gyro → s.gyro = .mutexInit → s.inside .dispatcher = false

/-! ## The mutex -/

def mutex (s : Tasks) : St Party := { locked := s.gyroMut, holds := s.inside }

/-- The mutex operation a step is, if it is one. -/
def opOf (s : Tasks) (e : Act) : Option (Op Party) :=
  match e.who with
  | .gyro =>
    match s.gyro with
    | .mutexInit => some .init
    | .lock => some (.acquire .gyro)
    | .unlock => some (.release .gyro)
    | _ => none
  | .config =>
    match s.config with
    | .lock => some (.acquire .config)
    | .unlock => some (.release .config)
    | _ => none
  | .dispatcher =>
    match s.dispatcher with
    | .lock => some (.acquire .dispatcher)
    | .unlock => some (.release .dispatcher)
    | _ => none

theorem mutex_ext {s : Tasks} {m : St Party} (hl : s.gyroMut = m.locked) (hg : s.inside .gyro = m.holds .gyro)
    (hc : s.inside .config = m.holds .config) (hd : s.inside .dispatcher = m.holds .dispatcher) : mutex s = m := by
  obtain ⟨locked, holds⟩ := m
  have hholds : s.inside = holds := by
    funext p
    cases p with
    | gyro => exact hg
    | config => exact hc
    | dispatcher => exact hd
  unfold mutex
  rw [hholds]
  exact congrArg (St.mk · holds) hl

/-- A `doInit` that fails or goes on has not come to the lock. -/
theorem inside_doInit (c : Prop) [Decidable c] {pc : GyroPc} (h : pc.inside = false) :
    (if c then GyroPc.exited else pc).inside = false := by
  split
  · rfl
  · exact h

/-- Every step is an operation on the mutex or none of its business. -/
theorem mutex_step (s : Tasks) (e : Act) :
    mutex (s.step e) = match s.opOf e with
      | some op => apply (mutex s) op
      | none => mutex s := by
  obtain ⟨gyroMut, usartFd, bInited, device, writes, gyro, config, dispatcher⟩ := s
  obtain ⟨who, ret, buf⟩ := e
  cases who with
  | gyro =>
    cases gyro with
    | mutexInit => exact mutex_ext rfl rfl rfl rfl
    | malloc => exact mutex_ext rfl (inside_doInit (ret = 0) rfl) rfl rfl
    | openDev => exact mutex_ext rfl (inside_doInit (ret < 0) rfl) rfl rfl
    | writeInit => exact mutex_ext rfl (inside_doInit (ret < 0) rfl) rfl rfl
    | setInited => exact mutex_ext rfl rfl rfl rfl
    | lock =>
      cases gyroMut with
      | true => exact mutex_ext rfl rfl rfl rfl
      | false => exact mutex_ext rfl rfl rfl rfl
    | read => exact mutex_ext rfl rfl rfl rfl
    | unlock => exact mutex_ext rfl rfl rfl rfl
    | exited => exact mutex_ext rfl rfl rfl rfl
  | config =>
    cases config with
    | idle =>
      cases bInited with
      | true => exact mutex_ext rfl rfl rfl rfl
      | false => exact mutex_ext rfl rfl rfl rfl
    | lock =>
      cases gyroMut with
      | true => exact mutex_ext rfl rfl rfl rfl
      | false => exact mutex_ext rfl rfl rfl rfl
    | write => exact mutex_ext rfl rfl rfl rfl
    | unlock => exact mutex_ext rfl rfl rfl rfl
  | dispatcher =>
    cases dispatcher with
    | idle => exact mutex_ext rfl rfl rfl rfl
    | lock =>
      cases gyroMut with
      | true => exact mutex_ext rfl rfl rfl rfl
      | false => exact mutex_ext rfl rfl rfl rfl
    | unlock => exact mutex_ext rfl rfl rfl rfl

/-! ## What is written -/

/-- In `rcvFrame`. -/
def Receiving (s : Tasks) : Prop := s.gyro = .lock ∨ s.gyro = .read ∨ s.gyro = .unlock

/-- The call that sends the init command. -/
def initWrite (s : Tasks) : Int × List UInt8 := (s.usartFd, gyroInitDataBuffer)

/-- The call that sends the set-zero command. -/
def zeroWrite (s : Tasks) : Int × List UInt8 := (s.usartFd, setZeroBuffer)

/-- What `doInit` has written when it has come to `pc`. -/
def InitWritten (s : Tasks) : GyroPc → Prop
  | .setInited => s.writes = [s.initWrite]
  | .exited => s.writes = [] ∨ s.writes = [s.initWrite]
  | _ => s.writes = []

theorem prefix_of_initWritten {s : Tasks} {pc : GyroPc} (h : s.InitWritten pc) : s.writes <+: [s.initWrite] := by
  have hnil : s.writes = [] → s.writes <+: [s.initWrite] := fun hw => hw ▸ List.nil_prefix
  have hone : s.writes = [s.initWrite] → s.writes <+: [s.initWrite] := fun hw => hw ▸ List.prefix_rfl
  cases pc with
  | setInited => exact hone h
  | exited =>
    rcases h with h | h
    · exact hnil h
    · exact hone h
  | _ => exact hnil h

/-- A gyro that is not open (yet). -/
structure Closed (s : Tasks) : Prop where
  config : s.config = .idle
  gyro : ¬ s.Receiving
  writes : s.InitWritten s.gyro

structure Open (s : Tasks) : Prop where
  gyro : s.Receiving
  writes : ∃ n, s.writes = s.initWrite :: List.replicate n s.zeroWrite

def Sound (s : Tasks) : Prop := (s.bInited = false ∧ s.Closed) ∨ (s.bInited = true ∧ s.Open)

theorem closed_gyro {s : Tasks} (h : Closed s) (hopen : s.bInited = false) (ret : Int) (buf : List UInt8) :
    Sound (s.gyroStep ret buf) := by
  have hwrites := h.writes
  unfold gyroStep
  cases hg : s.gyro with
  | mutexInit =>
    rw [hg] at hwrites
    exact Or.inl ⟨hopen, h.config, by simp [Receiving], hwrites⟩
  | malloc =>
    rw [hg] at hwrites
    dsimp only
    split
    · exact Or.inl ⟨hopen, h.config, by simp [Receiving], Or.inl hwrites⟩
    · exact Or.inl ⟨hopen, h.config, by simp [Receiving], hwrites⟩
  | openDev =>
    rw [hg] at hwrites
    dsimp only
    split
    · exact Or.inl ⟨hopen, h.config, by simp [Receiving], Or.inl hwrites⟩
    · exact Or.inl ⟨hopen, h.config, by simp [Receiving], hwrites⟩
  | writeInit =>
    rw [hg] at hwrites
    have hone : s.writes ++ [(s.usartFd, gyroInitDataBuffer)] = [s.initWrite] := by
      rw [show s.writes = [] from hwrites]
      rfl
    dsimp only
    split
    · exact Or.inl ⟨hopen, h.config, by simp [Receiving], Or.inr hone⟩
    · exact Or.inl ⟨hopen, h.config, by simp [Receiving], hone⟩
  | setInited =>
    rw [hg] at hwrites
    exact Or.inr ⟨rfl, Or.inl rfl, 0, hwrites⟩
  | lock => exact absurd (Or.inl hg) h.gyro
  | read => exact absurd (Or.inr (Or.inl hg)) h.gyro
  | unlock => exact absurd (Or.inr (Or.inr hg)) h.gyro
  | exited => exact Or.inl ⟨hopen, h⟩

theorem open_gyro {s : Tasks} (h : Open s) (hopen : s.bInited = true) (ret : Int) (buf : List UInt8) :
    Sound (s.gyroStep ret buf) := by
  unfold gyroStep
  rcases h.gyro with hg | hg | hg
  · rw [hg]
    dsimp only
    split
    · exact Or.inr ⟨hopen, h⟩
    · exact Or.inr ⟨hopen, Or.inr (Or.inl rfl), h.writes⟩
  · rw [hg]
    exact Or.inr ⟨hopen, Or.inr (Or.inr rfl), h.writes⟩
  · rw [hg]
    exact Or.inr ⟨hopen, Or.inl rfl, h.writes⟩

theorem sound_config {s : Tasks} (h : Sound s) : Sound s.configStep := by
  unfold configStep
  rcases h with ⟨hopen, hc⟩ | ⟨hopen, ho⟩
  · rw [hc.config]
    dsimp only
    rw [if_neg (by rw [hopen]; exact Bool.false_ne_true)]
    exact Or.inl ⟨hopen, hc⟩
  · cases hpc : s.config with
    | idle =>
      dsimp only
      rw [if_pos hopen]
      exact Or.inr ⟨hopen, ho.gyro, ho.writes⟩
    | lock =>
      dsimp only
      split
      · exact Or.inr ⟨hopen, ho⟩
      · exact Or.inr ⟨hopen, ho.gyro, ho.writes⟩
    | write =>
      obtain ⟨n, hn⟩ := ho.writes
      refine Or.inr ⟨hopen, ho.gyro, n + 1, ?_⟩
      show s.writes ++ [s.zeroWrite] = s.initWrite :: List.replicate (n + 1) s.zeroWrite
      rw [hn, List.replicate_succ']
      rfl
    | unlock => exact Or.inr ⟨hopen, ho.gyro, ho.writes⟩

theorem sound_dispatcher {s : Tasks} (h : Sound s) : Sound s.dispatcherStep := by
  have hsame : ∀ {gyroMut dispatcher}, Sound { s with gyroMut := gyroMut, dispatcher := dispatcher } := by
    intro gyroMut dispatcher
    rcases h with ⟨hopen, hc⟩ | ⟨hopen, ho⟩
    · exact Or.inl ⟨hopen, hc.config, hc.gyro, hc.writes⟩
    · exact Or.inr ⟨hopen, ho.gyro, ho.writes⟩
  unfold dispatcherStep
  cases s.dispatcher with
  | idle => exact hsame
  | lock =>
    dsimp only
    split
    · exact h
    · exact hsame
  | unlock => exact hsame

theorem sound_step (s : Tasks) (e : Act) (h : Sound s) : Sound (s.step e) := by
  unfold step
  cases e.who with
  | gyro =>
    rcases h with ⟨hopen, hc⟩ | ⟨hopen, ho⟩
    · exact closed_gyro hc hopen e.ret e.buf
    · exact open_gyro ho hopen e.ret e.buf
  | config => exact sound_config h
  | dispatcher => exact sound_dispatcher h

theorem sound_start (gyroMut : Bool) (usartFd : Int) (device : CGyroDevice) : Sound (start gyroMut usartFd device) :=
  Or.inl ⟨rfl, rfl, by simp [Receiving, start], rfl⟩

/-! ## Calibrations -/

/-- A calibration that is gone on with. -/
def asked (s : Tasks) (e : Act) : Nat := if e.who = .config ∧ s.config = .idle ∧ s.bInited = true then 1 else 0

/-- The one in hand. -/
def inHand (s : Tasks) : Nat := if s.config = .lock ∨ s.config = .write then 1 else 0

/-- The calls behind the one for the init command. -/
def zeros (s : Tasks) : Nat := s.writes.length - 1

theorem gyroStep_config (s : Tasks) (ret : Int) (buf : List UInt8) : (s.gyroStep ret buf).config = s.config := by
  unfold gyroStep
  cases s.gyro with
  | lock =>
    dsimp only
    split
    · rfl
    · rfl
  | _ => rfl

/-- The first call is not counted, and the gyro task makes no other. -/
theorem gyroStep_zeros {s : Tasks} (h : Sound s) (ret : Int) (buf : List UInt8) : (s.gyroStep ret buf).zeros = s.zeros := by
  unfold gyroStep
  cases hg : s.gyro with
  | lock =>
    dsimp only
    split
    · rfl
    · rfl
  | writeInit =>
    rcases h with ⟨-, hc⟩ | ⟨-, ho⟩
    · have hwrites := hc.writes
      rw [hg] at hwrites
      have hnil : s.writes = [] := hwrites
      simp only [zeros, hnil]
      rfl
    · have hrcv := ho.gyro
      rw [Receiving, hg] at hrcv
      simp at hrcv
  | _ => rfl

theorem zeros_configStep {s : Tasks} (h : Sound s) :
    s.configStep.zeros + s.configStep.inHand =
      s.zeros + s.inHand + if s.config = .idle ∧ s.bInited = true then 1 else 0 := by
  unfold configStep
  cases hpc : s.config with
  | idle =>
    by_cases hopen : s.bInited = true
    · simp [zeros, inHand, hpc, hopen]
    · simp [zeros, inHand, hpc, hopen]
  | lock =>
    by_cases hmut : s.gyroMut = true
    · simp [zeros, inHand, hpc, hmut]
    · simp [zeros, inHand, hpc, hmut]
  | write =>
    -- only an open gyro gets here, and then the first call has been made
    rcases h with ⟨-, hc⟩ | ⟨-, ho⟩
    · rw [hc.config] at hpc
      cases hpc
    · obtain ⟨n, hn⟩ := ho.writes
      simp [zeros, inHand, hpc, hn]
  | unlock => simp [zeros, inHand, hpc]

theorem dispatcherStep_frame (s : Tasks) :
    s.dispatcherStep.zeros = s.zeros ∧ s.dispatcherStep.inHand = s.inHand := by
  unfold dispatcherStep
  cases s.dispatcher with
  | lock =>
    dsimp only
    split
    · exact ⟨rfl, rfl⟩
    · exact ⟨rfl, rfl⟩
  | _ => exact ⟨rfl, rfl⟩

theorem zeros_step (s : Tasks) (e : Act) (h : Sound s) :
    (s.step e).zeros + (s.step e).inHand = s.zeros + s.inHand + s.asked e := by
  unfold step asked
  cases e.who with
  | gyro =>
    dsimp only
    rw [gyroStep_zeros h, inHand, gyroStep_config]
    rfl
  | config =>
    simp only [true_and]
    exact zeros_configStep h
  | dispatcher =>
    dsimp only
    rw [(dispatcherStep_frame s).1, (dispatcherStep_frame s).2]
    rfl

/-- What has been written, when `n` calibrations have been gone on with. -/
structure Written (s : Tasks) (n : Nat) : Prop where
  opened : s.bInited = true → ∃ k, n = k + s.inHand ∧ s.writes = s.initWrite :: List.replicate k s.zeroWrite
  closed : s.bInited = false → n = 0 ∧ s.writes <+: [s.initWrite]

theorem written_of_sound {s : Tasks} {n : Nat} (h : Sound s) (hn : s.zeros + s.inHand = n) : Written s n := by
  refine ⟨?_, ?_⟩
  · intro hopen
    rcases h with ⟨hclosed, -⟩ | ⟨-, ho⟩
    · rw [hopen] at hclosed
      cases hclosed
    · obtain ⟨k, hk⟩ := ho.writes
      have hzeros : s.zeros = k := by
        rw [zeros, hk, List.length_cons, List.length_replicate]
        rfl
      exact ⟨k, by omega, hk⟩
  · intro hopen
    rcases h with ⟨-, hc⟩ | ⟨hset, -⟩
    · have hprefix : s.writes <+: [s.initWrite] := prefix_of_initWritten hc.writes
      have hlen := hprefix.length_le
      have hhand : s.inHand = 0 := by
        rw [inHand, hc.config]
        rfl
      refine ⟨?_, hprefix⟩
      rw [zeros] at hn
      simp only [List.length_singleton] at hlen
      omega
    · rw [hopen] at hset
      cases hset

/-! ## Who is inside -/

/-- When the mutex is initialised, the gyro is not open, and so the config task is idle. -/
theorem proper_of_quiet {s : Tasks} {e : Act} (h : Sound s) (hq : QuietInit s e) :
    ∀ op, s.opOf e = some op → Proper (mutex s) op := by
  intro op hop
  unfold opOf at hop
  cases hwho : e.who with
  | gyro =>
    rw [hwho] at hop
    cases hg : s.gyro with
    | mutexInit =>
      rw [hg] at hop
      obtain rfl : Op.init = op := Option.some.inj hop
      have hclosed : s.Closed := by
        rcases h with ⟨-, hc⟩ | ⟨-, ho⟩
        · exact hc
        · have hrcv := ho.gyro
          rw [Receiving, hg] at hrcv
          simp at hrcv
      intro p
      cases p with
      | gyro => exact congrArg GyroPc.inside hg
      | config => exact congrArg ConfigPc.inside hclosed.config
      | dispatcher => exact hq hwho hg
    | lock =>
      rw [hg] at hop
      obtain rfl : Op.acquire .gyro = op := Option.some.inj hop
      trivial
    | unlock =>
      rw [hg] at hop
      obtain rfl : Op.release .gyro = op := Option.some.inj hop
      exact congrArg GyroPc.inside hg
    | malloc | openDev | writeInit | setInited | read | exited =>
      rw [hg] at hop
      cases hop
  | config =>
    rw [hwho] at hop
    cases hc : s.config with
    | lock =>
      rw [hc] at hop
      obtain rfl : Op.acquire .config = op := Option.some.inj hop
      trivial
    | unlock =>
      rw [hc] at hop
      obtain rfl : Op.release .config = op := Option.some.inj hop
      exact congrArg ConfigPc.inside hc
    | idle | write =>
      rw [hc] at hop
      cases hop
  | dispatcher =>
    rw [hwho] at hop
    cases hd : s.dispatcher with
    | lock =>
      rw [hd] at hop
      obtain rfl : Op.acquire .dispatcher = op := Option.some.inj hop
      trivial
    | unlock =>
      rw [hd] at hop
      obtain rfl : Op.release .dispatcher = op := Option.some.inj hop
      exact congrArg DispatcherPc.inside hd
    | idle =>
      rw [hd] at hop
      cases hop

theorem mutex_inv_step {s : Tasks} {e : Act} (h : Inv (mutex s)) (hs : Sound s) (hq : QuietInit s e) :
    Inv (mutex (s.step e)) := by
  rw [mutex_step]
  split
  case h_1 op hop => exact inv_apply h op (proper_of_quiet hs hq op hop)
  case h_2 => exact h

/-! ## While the gyro task waits -/

/-- The gyro task has the mutex, and the others do not get in. -/
structure Waiting (s : Tasks) : Prop where
  gyroMut : s.gyroMut = true
  config : s.inside .config = false
  dispatcher : s.inside .dispatcher = false

theorem waiting_of_inv {s : Tasks} (h : Inv (mutex s)) (hin : s.inside .gyro = true) : Waiting s := by
  have hout : ∀ p, p ≠ .gyro → s.inside p = false := by
    intro p hp
    cases hpin : s.inside p with
    | false => rfl
    | true => exact absurd (h.excl p .gyro hpin hin) hp
  exact ⟨h.locked .gyro hin, hout .config (by decide), hout .dispatcher (by decide)⟩

theorem waiting_step {s : Tasks} {e : Act} (h : Waiting s) (he : e.who ≠ .gyro) : Waiting (s.step e) := by
  obtain ⟨hmut, hc, hd⟩ := h
  unfold step
  cases hwho : e.who with
  | gyro => exact absurd hwho he
  | config =>
    dsimp only
    unfold configStep
    cases hpc : s.config with
    | idle =>
      dsimp only
      split
      · exact ⟨hmut, rfl, hd⟩
      · exact ⟨hmut, hc, hd⟩
    | lock =>
      dsimp only
      rw [if_pos hmut]
      exact ⟨hmut, hc, hd⟩
    | write => rw [inside, hpc] at hc; cases hc
    | unlock => rw [inside, hpc] at hc; cases hc
  | dispatcher =>
    dsimp only
    unfold dispatcherStep
    cases hpc : s.dispatcher with
    | idle => exact ⟨hmut, hc, rfl⟩
    | lock =>
      dsimp only
      rw [if_pos hmut]
      exact ⟨hmut, hc, hd⟩
    | unlock => rw [inside, hpc] at hd; cases hd

theorem waiting_run (es : List Act) (s : Tasks) (h : Waiting s) (hes : ∀ e, e ∈ es → e.who ≠ .gyro) :
    Waiting (run step s es) := by
  induction es generalizing s with
  | nil => exact h
  | cons e es ih =>
    exact ih (s.step e) (waiting_step h (hes e List.mem_cons_self)) fun e' he' => hes e' (List.mem_cons_of_mem _ he')

theorem uart_exclusive (gyroMut : Bool) (usartFd : Int) (device : CGyroDevice) (es : List Act)
    (h : Along step QuietInit (start gyroMut usartFd device) es) :
    let s := run step (start gyroMut usartFd device) es
    s.Exclusive ∧
      (s.gyro = .read → ∀ q, (∀ e, e ∈ q → e.who ≠ .gyro) → ∀ p, p ≠ .gyro → (run step s q).inside p = false) := by
  intro s
  have hstart : Inv (mutex (start gyroMut usartFd device)) := by
    refine inv_of_free ?_
    intro p
    cases p <;> rfl
  have hinv : Inv (mutex s) ∧ Sound s :=
    inv_run (I := fun s => Inv (mutex s) ∧ Sound s)
      (fun s e hs hq => ⟨mutex_inv_step hs.1 hs.2 hq, sound_step s e hs.2⟩) es _
      ⟨hstart, sound_start gyroMut usartFd device⟩ h
  refine ⟨hinv.1.excl, ?_⟩
  intro hread q hq p hp
  have hwaiting : Waiting (run step s q) := waiting_run q s (waiting_of_inv hinv.1 (congrArg GyroPc.inside hread)) hq
  cases p with
  | gyro => exact absurd rfl hp
  | config => exact hwaiting.config
  | dispatcher => exact hwaiting.dispatcher

/-- A gyro command comes first, and has to wait when the gyro task reads. -/
def silentGyro : List Act := ⟨.dispatcher, 0, []⟩ :: List.replicate 6 ⟨.gyro, 3, []⟩

theorem uart_exclusive_silent :
    let s := run step (start false 0 default) silentGyro
    s.Exclusive ∧
      (s.gyro = .read → ∀ q, (∀ e, e ∈ q → e.who ≠ .gyro) → ∀ p, p ≠ .gyro → (run step s q).inside p = false) :=
  uart_exclusive false 0 default silentGyro
    ⟨fun _ _ => rfl, fun _ _ => rfl, fun _ _ => rfl, fun _ _ => rfl, fun _ _ => rfl, fun _ _ => rfl, fun _ _ => rfl, trivial⟩

example : (run step (start false 0 default) silentGyro).gyro = .read := rfl

end Tasks

end SeerDIOBoard.Gyro.Sharing
