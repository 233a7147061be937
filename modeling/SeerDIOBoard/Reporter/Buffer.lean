/-
  SeerDIOBoard.Reporter.Buffer — the reporters and the buffer they share
  (`CReporter_base`, src/Reporter.h, src/Reporter.cxx; `report` of `CGyroDevice`,
  `CMileage` and `CDIODevice`).

  `transBuff_` and `reporter_mut` are static: all instances have the same. A `report`
  call goes through `reportLock`, writes the message-type word and then the body, sends
  the buffer with `upload` and calls `reportUnlock`. `reportLock` initialises the mutex
  first when the instance has no socket yet, and an instance has none until a `socket`
  call of its own `upload` has succeeded.

  `ι` is the instances. A step is one instance's next operation; the ones between two lock
  operations touch the buffer and nothing else that is shared. For the buffer the state
  keeps who wrote the word and who wrote the body, and `sent` has both for every datagram.

  Proved: the instances exclude each other, and every datagram is of one of them, in the
  runs where no `reportLock` initialises the mutex while another instance is inside
  (`report_exclusive`). Two first reports are enough to break both (`first_reports_mix`).
-/

import SeerDIOBoard.Lib.Machine
import SeerDIOBoard.Lib.Mutex

namespace SeerDIOBoard.Reporter

open Function (update)
open Lib.Machine
open Lib.Mutex

variable {ι : Type} [DecidableEq ι]

/-- Where an instance is in `report`: the operation it does next. -/
inductive Pc where
  | idle
  | mutexInit
  | mutexLock
  | writeType
  | writeBody
  | upload
  | mutexUnlock
  deriving DecidableEq, Repr

/-- Between the return of `reportLock` and `reportUnlock`. -/
def Pc.inside : Pc → Bool
  | .writeType | .writeBody | .upload | .mutexUnlock => true
  | _ => false

structure Reporters (ι : Type) where
  pc : ι → Pc
  socketN : ι → Int
  reporterMut : Bool
  /-- Who wrote the message-type word in `transBuff_`, and who the body. -/
  typeOf : Option ι
  bodyOf : Option ι
  sent : List (Option ι × Option ι)

/-- Before the first report. What `reporter_mut` is then, nobody has set. -/
def start (reporterMut : Bool) : Reporters ι where
  pc _ := .idle
  socketN _ := -1
  reporterMut := reporterMut
  typeOf := none
  bodyOf := none
  sent := []

/-- The next operation of `who`. `socket` is what `socket` returns if it is called. -/
structure Act (ι : Type) where
  who : ι
  socket : Int

def goto (s : Reporters ι) (i : ι) (pc : Pc) : Reporters ι := { s with pc := update s.pc i pc }

/-- `upload`: an instance without a socket makes one; with none to be had it sends nothing. -/
def upload (s : Reporters ι) (i : ι) (socket : Int) : Reporters ι :=
  if s.socketN i < 0 then
    let s := { s with socketN := update s.socketN i socket }
    if socket < 0 then s else { s with sent := s.sent ++ [(s.typeOf, s.bodyOf)] }
  else { s with sent := s.sent ++ [(s.typeOf, s.bodyOf)] }

def stepAt (s : Reporters ι) (i : ι) (socket : Int) : Pc → Reporters ι
  | .idle => goto s i (if s.socketN i < 0 then .mutexInit else .mutexLock)
  | .mutexInit => goto { s with reporterMut := false } i .mutexLock
  | .mutexLock => if s.reporterMut = true then s else goto { s with reporterMut := true } i .writeType
  | .writeType => goto { s with typeOf := some i } i .writeBody
  | .writeBody => goto { s with bodyOf := some i } i .upload
  | .upload => goto (upload s i socket) i .mutexUnlock
  | .mutexUnlock => goto { s with reporterMut := false } i .idle

def step (s : Reporters ι) (e : Act ι) : Reporters ι := stepAt s e.who e.socket (s.pc e.who)

/-- At most one instance is inside. -/
def Exclusive (s : Reporters ι) : Prop := ∀ i j, (s.pc i).inside = true → (s.pc j).inside = true → i = j

/-- The word and the body of every datagram are from the same instance. -/
def Whole (s : Reporters ι) : Prop := ∀ m, m ∈ s.sent → ∃ i, m = (some i, some i)

/-- The mutex is not initialised while an instance is inside. -/
def NoReinit (s : Reporters ι) (e : Act ι) : Prop := s.pc e.who = .mutexInit → ∀ j, (s.pc j).inside = false

/-! ## The mutex -/

/-- The reporters, as users of a mutex. -/
def mutex (s : Reporters ι) : St ι := { locked := s.reporterMut, holds := fun i => (s.pc i).inside }

/-- The mutex operation a step is, if it is one. -/
def opOf (s : Reporters ι) (e : Act ι) : Option (Op ι) :=
  match s.pc e.who with
  | .mutexInit => some .init
  | .mutexLock => some (.acquire e.who)
  | .mutexUnlock => some (.release e.who)
  | _ => none

theorem inside_goto (s : Reporters ι) (i : ι) (pc : Pc) :
    (fun j => ((goto s i pc).pc j).inside) = update (fun j => (s.pc j).inside) i pc.inside := by
  funext j
  by_cases hj : j = i
  · rw [hj, Function.update_self]
    simp only [goto, Function.update_self]
  · rw [Function.update_of_ne hj]
    simp only [goto, Function.update_of_ne hj]

/-- A step to another place on the same side of the lock is none of the mutex's. -/
theorem mutex_goto (s : Reporters ι) (i : ι) (pc : Pc) (h : pc.inside = (s.pc i).inside) :
    mutex (goto s i pc) = mutex s := by
  unfold mutex
  rw [inside_goto, h, Function.update_eq_self]
  rfl

theorem upload_frame (s : Reporters ι) (i : ι) (socket : Int) :
    (upload s i socket).pc = s.pc ∧ (upload s i socket).reporterMut = s.reporterMut ∧
      (upload s i socket).typeOf = s.typeOf ∧ (upload s i socket).bodyOf = s.bodyOf ∧
      ∀ m, m ∈ (upload s i socket).sent → m ∈ s.sent ∨ m = (s.typeOf, s.bodyOf) := by
  unfold upload
  split
  · split
    · exact ⟨rfl, rfl, rfl, rfl, fun m hm => Or.inl hm⟩
    · exact ⟨rfl, rfl, rfl, rfl, fun m hm => by simpa using hm⟩
  · exact ⟨rfl, rfl, rfl, rfl, fun m hm => by simpa using hm⟩

/-- Every step of the reporters is an operation on the mutex or none of its business. -/
theorem mutex_step (s : Reporters ι) (e : Act ι) :
    mutex (step s e) = match opOf s e with
      | some op => apply (mutex s) op
      | none => mutex s := by
  unfold step opOf
  cases hpc : s.pc e.who with
  | idle =>
    refine mutex_goto s e.who _ ?_
    rw [hpc]
    split <;> rfl
  | mutexInit => exact mutex_goto { s with reporterMut := false } e.who .mutexLock (by rw [hpc]; rfl)
  | mutexLock =>
    by_cases hl : s.reporterMut = true
    · rw [stepAt, if_pos hl]
      exact (acquire_locked (s := mutex s) hl e.who).symm
    · rw [stepAt, if_neg hl]
      refine Eq.trans ?_ (acquire_free (s := mutex s) hl e.who).symm
      unfold mutex
      rw [inside_goto]
      rfl
  | writeType => exact mutex_goto { s with typeOf := some e.who } e.who .writeBody (by rw [hpc]; rfl)
  | writeBody => exact mutex_goto { s with bodyOf := some e.who } e.who .upload (by rw [hpc]; rfl)
  | upload =>
    obtain ⟨hp, hm, _⟩ := upload_frame s e.who e.socket
    have hu : mutex (upload s e.who e.socket) = mutex s := by simp only [mutex, hp, hm]
    exact (mutex_goto (upload s e.who e.socket) e.who .mutexUnlock (by rw [hp, hpc]; rfl)).trans hu
  | mutexUnlock =>
    simp only [stepAt, apply, mutex]
    rw [inside_goto]
    rfl

omit [DecidableEq ι] in
theorem proper_of_noReinit {s : Reporters ι} {e : Act ι} (h : NoReinit s e) :
    ∀ op, opOf s e = some op → Proper (mutex s) op := by
  intro op hop
  unfold opOf at hop
  cases hpc : s.pc e.who with
  | mutexInit =>
    rw [hpc] at hop
    obtain rfl : Op.init = op := Option.some.inj hop
    exact h hpc
  | mutexLock =>
    rw [hpc] at hop
    obtain rfl : Op.acquire e.who = op := Option.some.inj hop
    trivial
  | mutexUnlock =>
    rw [hpc] at hop
    obtain rfl : Op.release e.who = op := Option.some.inj hop
    show (s.pc e.who).inside = true
    rw [hpc]
    rfl
  | idle => rw [hpc] at hop; cases hop
  | writeType => rw [hpc] at hop; cases hop
  | writeBody => rw [hpc] at hop; cases hop
  | upload => rw [hpc] at hop; cases hop

theorem mutex_inv_step {s : Reporters ι} {e : Act ι} (h : Inv (mutex s)) (he : NoReinit s e) :
    Inv (mutex (step s e)) := by
  rw [mutex_step]
  split
  · exact inv_apply h _ (proper_of_noReinit he _ ‹_›)
  · exact h

/-! ## The buffer -/

/-- An instance that has written the word, or the body, is the last that did. -/
structure Owned (s : Reporters ι) : Prop where
  typeOf : ∀ i, s.pc i = .writeBody ∨ s.pc i = .upload → s.typeOf = some i
  bodyOf : ∀ i, s.pc i = .upload → s.bodyOf = some i
  whole : Whole s

/-- A step that writes nothing, to a place where nothing needs to have been written. -/
theorem owned_goto {s : Reporters ι} (h : Owned s) (i : ι) (pc : Pc) (hb : pc ≠ .writeBody) (hu : pc ≠ .upload) :
    Owned (goto s i pc) := by
  have hpc : ∀ j, (goto s i pc).pc j = .writeBody ∨ (goto s i pc).pc j = .upload → (goto s i pc).pc j = s.pc j := by
    intro j hj
    by_cases hji : j = i
    · simp only [goto, hji, Function.update_self] at hj
      rcases hj with hj | hj
      · exact absurd hj hb
      · exact absurd hj hu
    · simp only [goto, Function.update_of_ne hji]
  refine ⟨?_, ?_, h.whole⟩
  · intro j hj
    rw [hpc j hj] at hj
    exact h.typeOf j hj
  · intro j hj
    rw [hpc j (Or.inr hj)] at hj
    exact h.bodyOf j hj

/-- Whoever is inside after a step of an instance that was inside is that instance. -/
theorem only_inside {s : Reporters ι} (h : Inv (mutex s)) {i j : ι} {pc : Pc} (hi : (s.pc i).inside = true)
    (hj : ((goto s i pc).pc j).inside = true) : j = i := by
  by_cases hji : j = i
  · exact hji
  · simp only [goto, Function.update_of_ne hji] at hj
    exact h.excl j i hj hi

theorem inside_of_written {pc : Pc} (h : pc = .writeBody ∨ pc = .upload) : pc.inside = true := by
  rcases h with h | h <;> rw [h] <;> rfl

theorem owned_step {s : Reporters ι} {e : Act ι} (hm : Inv (mutex s)) (h : Owned s) : Owned (step s e) := by
  unfold step
  cases hpc : s.pc e.who with
  | idle =>
    refine owned_goto h e.who _ ?_ ?_
    · split <;> simp
    · split <;> simp
  | mutexInit =>
    have h' : Owned { s with reporterMut := false } := ⟨h.typeOf, h.bodyOf, h.whole⟩
    exact owned_goto h' e.who .mutexLock (by simp) (by simp)
  | mutexLock =>
    simp only [stepAt]
    split
    · exact h
    · have h' : Owned { s with reporterMut := true } := ⟨h.typeOf, h.bodyOf, h.whole⟩
      exact owned_goto h' e.who .writeType (by simp) (by simp)
  | writeType =>
    -- nobody else is inside, so nobody else relies on the word
    have hi : (s.pc e.who).inside = true := by rw [hpc]; rfl
    refine ⟨?_, ?_, h.whole⟩
    · intro j hj
      rw [only_inside hm hi (inside_of_written hj)]
      rfl
    · intro j hj
      obtain rfl : j = e.who := only_inside hm hi (inside_of_written (Or.inr hj))
      simp [stepAt, goto] at hj
  | writeBody =>
    have hi : (s.pc e.who).inside = true := by rw [hpc]; rfl
    refine ⟨?_, ?_, h.whole⟩
    · intro j hj
      rw [only_inside hm hi (inside_of_written hj)]
      exact h.typeOf e.who (Or.inl hpc)
    · intro j hj
      rw [only_inside hm hi (inside_of_written (Or.inr hj))]
      rfl
  | upload =>
    obtain ⟨hp, _, ht, hb, hsent⟩ := upload_frame s e.who e.socket
    have h' : Owned (upload s e.who e.socket) := by
      refine ⟨?_, ?_, ?_⟩
      · rw [hp, ht]
        exact h.typeOf
      · rw [hp, hb]
        exact h.bodyOf
      · intro m hmem
        rcases hsent m hmem with hold | hnew
        · exact h.whole m hold
        · exact ⟨e.who, by rw [hnew, h.typeOf e.who (Or.inr hpc), h.bodyOf e.who hpc]⟩
    exact owned_goto h' e.who .mutexUnlock (by simp) (by simp)
  | mutexUnlock =>
    have h' : Owned { s with reporterMut := false } := ⟨h.typeOf, h.bodyOf, h.whole⟩
    exact owned_goto h' e.who .idle (by simp) (by simp)

/-! ## Runs -/

theorem report_exclusive (reporterMut : Bool) (es : List (Act ι)) (h : Along step NoReinit (start reporterMut) es) :
    Exclusive (run step (start reporterMut) es) ∧ Whole (run step (start reporterMut) es) := by
  have hstart : Inv (mutex (start reporterMut : Reporters ι)) ∧ Owned (start reporterMut : Reporters ι) :=
    ⟨inv_of_free fun _ => rfl, by simp [start], by simp [start], by simp [Whole, start]⟩
  have hinv := inv_run (P := NoReinit) (I := fun s : Reporters ι => Inv (mutex s) ∧ Owned s)
    (fun s e hi he => ⟨mutex_inv_step hi.1 he, owned_step hi.1 hi.2⟩) es _ hstart h
  exact ⟨hinv.1.excl, hinv.2.whole⟩

/-- The instances of the board. -/
inductive Instance where
  | gyro
  | odometer
  | dio
  deriving DecidableEq, Repr

/-- `n` operations of one instance. -/
def acts (i : Instance) (n : Nat) : List (Act Instance) := List.replicate n ⟨i, 3⟩

/-- The gyro and the DIO report one after the other. -/
theorem report_in_turn :
    Exclusive (run step (start true) (acts .gyro 7 ++ acts .dio 7)) ∧
      Whole (run step (start true) (acts .gyro 7 ++ acts .dio 7)) := by
  refine report_exclusive true _ ?_
  simp only [acts, List.replicate, List.cons_append, List.nil_append, Along]
  refine ⟨?_, ?_, ?_, ?_, ?_, ?_, ?_, ?_, ?_, ?_, ?_, ?_, ?_, ?_, trivial⟩
  all_goals
    intro hpc
    first
    | exact absurd hpc (by decide)
    | (intro j; cases j <;> rfl)

/-- The first reports of the gyro and of the DIO: the DIO initialises the mutex while the
    gyro writes, and the gyro sends its body under the word of the DIO. -/
theorem first_reports_mix :
    ¬ (Exclusive (run step (start true) (acts .gyro 4 ++ acts .dio 4 ++ acts .gyro 2)) ∧
      Whole (run step (start true) (acts .gyro 4 ++ acts .dio 4 ++ acts .gyro 2))) := by
  rintro ⟨_, hwhole⟩
  obtain ⟨i, hi⟩ := hwhole (some .dio, some .gyro) (by decide)
  cases i <;> simp at hi

end SeerDIOBoard.Reporter
