/-
  SeerDIOBoard.Lib.Mutex — a mutex that can be initialised again while it is in use.

  `locked` is the mutex, `holds i` says that party `i` has come back from the lock
  operation and has not released. `acquire` does nothing while the mutex is locked: the
  party blocks. `init` sets the mutex to unlocked and takes nobody's hold away.

  The parties exclude each other (`Inv.excl`) as long as nobody releases without holding
  and no `init` comes while a party holds (`inv_apply`). Whatever they do, a mutex that is
  locked has a holder (`held_apply`).
-/

import Mathlib.Logic.Function.Basic

namespace Lib.Mutex

open Function (update)

variable {ι : Type}

structure St (ι : Type) where
  locked : Bool
  holds : ι → Bool

inductive Op (ι : Type) where
  | init
  | acquire (i : ι)
  | release (i : ι)

def apply [DecidableEq ι] (s : St ι) : Op ι → St ι
  | .init => { s with locked := false }
  | .acquire i => if s.locked = true then s else { locked := true, holds := update s.holds i true }
  | .release i => { locked := false, holds := update s.holds i false }

/-- The operations that keep the exclusion. -/
def Proper (s : St ι) : Op ι → Prop
  | .init => ∀ i, s.holds i = false
  | .acquire _ => True
  | .release i => s.holds i = true

structure Inv (s : St ι) : Prop where
  excl : ∀ i j, s.holds i = true → s.holds j = true → i = j
  locked : ∀ i, s.holds i = true → s.locked = true

theorem inv_of_free {s : St ι} (h : ∀ i, s.holds i = false) : Inv s := by
  refine ⟨?_, ?_⟩
  · intro i j hi _
    rw [h i] at hi
    cases hi
  · intro i hi
    rw [h i] at hi
    cases hi

variable [DecidableEq ι]

theorem acquire_locked {s : St ι} (h : s.locked = true) (i : ι) : apply s (.acquire i) = s := if_pos h

theorem acquire_free {s : St ι} (h : ¬ s.locked = true) (i : ι) :
    apply s (.acquire i) = { locked := true, holds := update s.holds i true } := if_neg h

theorem inv_acquire {s : St ι} (h : Inv s) (i : ι) : Inv (apply s (.acquire i)) := by
  by_cases hfree : s.locked = true
  · rw [acquire_locked hfree]
    exact h
  · rw [acquire_free hfree]
    -- the mutex was free, so nobody held it
    have hnone : ∀ j, s.holds j ≠ true := fun j hj => hfree (h.locked j hj)
    have honly : ∀ j, update s.holds i true j = true → j = i := by
      intro j hj
      by_cases hji : j = i
      · exact hji
      · rw [Function.update_of_ne hji] at hj
        exact absurd hj (hnone j)
    refine ⟨?_, fun _ _ => rfl⟩
    intro j k hj hk
    rw [honly j hj, honly k hk]

theorem inv_release {s : St ι} (h : Inv s) (i : ι) (hi : s.holds i = true) : Inv (apply s (.release i)) := by
  refine inv_of_free ?_
  intro j
  by_cases hji : j = i
  · simp only [apply, hji, Function.update_self]
  · simp only [apply, Function.update_of_ne hji]
    cases hj : s.holds j with
    | false => rfl
    | true => exact absurd (h.excl j i hj hi) hji

theorem inv_apply {s : St ι} (h : Inv s) (op : Op ι) (hop : Proper s op) : Inv (apply s op) := by
  cases op with
  | init => exact inv_of_free hop
  | acquire i => exact inv_acquire h i
  | release i => exact inv_release h i hop

/-- A locked mutex has a holder: the party that locked it last. -/
def Held (s : St ι) : Prop := s.locked = true → ∃ i, s.holds i = true

theorem held_init (s : St ι) : Held (apply s .init) := by
  intro hlocked
  cases hlocked

theorem held_apply {s : St ι} (h : Held s) (op : Op ι) : Held (apply s op) := by
  cases op with
  | init => exact held_init s
  | acquire i =>
    by_cases hfree : s.locked = true
    · rw [acquire_locked hfree]
      exact h
    · rw [acquire_free hfree]
      exact fun _ => ⟨i, Function.update_self ..⟩
  | release i =>
    intro hlocked
    cases hlocked

end Lib.Mutex
