/-
  SeerDIOBoard.Utils.Singleton — `NormalSingleton` (src/Singleton.h), with which all tasks
  get at the devices.

  `Instance` reads `ins`, makes an object if that is null, stores it, and reads `ins` again
  for what it returns. Nothing keeps two tasks apart there, so a step is one task's next
  access. `ι` is the tasks. An object is the number of those made before it (`new` gives
  each its own place, and none is released), `made` has who made them and `returned` what
  the calls have returned, null for `none`.

  - `instance_shared`: no task makes two objects and no call returns null; and what has been
    returned is, at every time, what `Instance` returns then, exactly in the runs that store
    no object after the first return.
  - `one_object`: where one call comes back before any other starts, there is one object. It
    is so for the gyro, the chassis, the mileage and the time synchronisation: the handlers
    in task_commanddispatch.cxx are globals that call `Instance`, and `seer_main` runs
    `up_cxxinitialize` before it creates a task.
-/

import SeerDIOBoard.Lib.Machine

namespace SeerDIOBoard.Utils

open Function (update)
open Lib.Machine

variable {ι : Type} [DecidableEq ι]

namespace NormalSingleton

/-- What a task does next. Between two calls it is in front of the test. -/
inductive Pc where
  | test
  | new
  | store (obj : Nat)
  | ret
  deriving DecidableEq, Repr

structure St (ι : Type) where
  ins : Option Nat
  made : List ι
  returned : List (Option Nat)
  pc : ι → Pc

def start : St ι := { ins := none, made := [], returned := [], pc := fun _ => .test }

def goto (s : St ι) (i : ι) (pc : Pc) : St ι := { s with pc := update s.pc i pc }

def stepAt (s : St ι) (i : ι) : Pc → St ι
  | .test => goto s i (if s.ins = none then .new else .ret)
  | .new => goto { s with made := s.made ++ [i] } i (.store s.made.length)
  | .store obj => goto { s with ins := some obj } i .ret
  | .ret => goto { s with returned := s.returned ++ [s.ins] } i .test

def step (s : St ι) (i : ι) : St ι := stepAt s i (s.pc i)

/-- What the tasks have is what `Instance` returns now. -/
def Shared (s : St ι) : Prop := ∀ r, r ∈ s.returned → r = s.ins

/-- The task does not store an object when one has been returned already. -/
def NoLateStore (s : St ι) (i : ι) : Prop := ∀ obj, s.pc i = .store obj → s.returned = []

/-! ## The invariant -/

structure Inv (s : St ι) : Prop where
  nodup : s.made.Nodup
  /-- A task that is about to make an object has made none. -/
  first : ∀ i, s.pc i = .new → i ∉ s.made
  /-- One that has made an object stores it, and `ins` is never null again. -/
  stored : ∀ i, i ∈ s.made → (∃ obj, s.pc i = .store obj) ∨ s.ins ≠ none
  own : ∀ i obj, s.pc i = .store obj → s.made[obj]? = some i
  /-- An object that is not stored yet is in nobody's hands. -/
  unseen : ∀ i obj, s.pc i = .store obj → s.ins ≠ some obj ∧ some obj ∉ s.returned
  known : ∀ obj, s.ins = some obj ∨ some obj ∈ s.returned → obj < s.made.length
  set : ∀ i, s.pc i = .ret → s.ins ≠ none
  nonnull : none ∉ s.returned

omit [DecidableEq ι] in
theorem inv_start : Inv (start : St ι) where
  nodup := List.nodup_nil
  first i h := by cases h
  stored i h := by cases h
  own i obj h := by cases h
  unseen i obj h := by cases h
  known obj h := by
    rcases h with h | h
    · cases h
    · cases h
  set i h := by cases h
  nonnull := List.not_mem_nil

theorem pc_goto_self (s : St ι) (i : ι) (pc : Pc) : (goto s i pc).pc i = pc := Function.update_self ..

theorem pc_goto_other {s : St ι} {i j : ι} (pc : Pc) (h : j ≠ i) : (goto s i pc).pc j = s.pc j :=
  Function.update_of_ne h ..

/-- Where a task is after a step of `i`. -/
theorem pc_goto {s : St ι} {i j : ι} {pc pc' : Pc} (h : (goto s i pc).pc j = pc') :
    (j = i ∧ pc = pc') ∨ (j ≠ i ∧ s.pc j = pc') := by
  by_cases hj : j = i
  · rw [hj, pc_goto_self] at h
    exact Or.inl ⟨hj, h⟩
  · rw [pc_goto_other pc hj] at h
    exact Or.inr ⟨hj, h⟩

theorem inv_test {s : St ι} (h : Inv s) {i : ι} (hpc : s.pc i = .test) :
    Inv (goto s i (if s.ins = none then .new else .ret)) where
  nodup := h.nodup
  first j hj := by
    rcases pc_goto hj with ⟨rfl, hnew⟩ | ⟨-, hj⟩
    · intro hmade
      -- it would be storing the object, or have stored it
      rcases h.stored j hmade with ⟨obj, hstore⟩ | hset
      · rw [hpc] at hstore
        cases hstore
      · rw [if_neg hset] at hnew
        cases hnew
    · exact h.first j hj
  stored j hj := by
    rcases h.stored j hj with ⟨obj, hstore⟩ | hset
    · have hji : j ≠ i := by
        intro he
        rw [he, hpc] at hstore
        cases hstore
      exact Or.inl ⟨obj, (pc_goto_other _ hji).trans hstore⟩
    · exact Or.inr hset
  own j obj hj := by
    rcases pc_goto hj with ⟨-, hpc'⟩ | ⟨-, hj⟩
    · split at hpc'
      · cases hpc'
      · cases hpc'
    · exact h.own j obj hj
  unseen j obj hj := by
    rcases pc_goto hj with ⟨-, hpc'⟩ | ⟨-, hj⟩
    · split at hpc'
      · cases hpc'
      · cases hpc'
    · exact h.unseen j obj hj
  known := h.known
  set j hj := by
    rcases pc_goto hj with ⟨-, hret⟩ | ⟨-, hj⟩
    · split at hret
      · cases hret
      case isFalse hset => exact hset
    · exact h.set j hj
  nonnull := h.nonnull

theorem inv_new {s : St ι} (h : Inv s) {i : ι} (hpc : s.pc i = .new) :
    Inv (goto { s with made := s.made ++ [i] } i (.store s.made.length)) where
  nodup := by
    refine List.nodup_append.mpr ⟨h.nodup, List.pairwise_singleton _ i, ?_⟩
    intro j hj k hk hjk
    rw [List.mem_singleton.mp hk] at hjk
    exact h.first i hpc (hjk ▸ hj)
  first j hj := by
    rcases pc_goto hj with ⟨-, hstore⟩ | ⟨hji, hj⟩
    · cases hstore
    · intro hmade
      rcases List.mem_append.mp hmade with hold | hnew
      · exact h.first j hj hold
      · exact hji (List.mem_singleton.mp hnew)
  stored j hj := by
    by_cases hji : j = i
    · exact Or.inl ⟨s.made.length, hji ▸ pc_goto_self ..⟩
    · rcases List.mem_append.mp hj with hold | hnew
      · rcases h.stored j hold with ⟨obj, hstore⟩ | hset
        · exact Or.inl ⟨obj, (pc_goto_other _ hji).trans hstore⟩
        · exact Or.inr hset
      · exact absurd (List.mem_singleton.mp hnew) hji
  own j obj hj := by
    rcases pc_goto hj with ⟨rfl, hstore⟩ | ⟨-, hj⟩
    · obtain rfl := Pc.store.inj hstore
      exact List.getElem?_concat_length
    · have hmade := h.own j obj hj
      rw [← hmade]
      exact List.getElem?_append_left (List.getElem?_eq_some_iff.mp hmade).1
  unseen j obj hj := by
    rcases pc_goto hj with ⟨-, hstore⟩ | ⟨-, hj⟩
    · obtain rfl := Pc.store.inj hstore
      exact ⟨fun hins => absurd (h.known _ (Or.inl hins)) (Nat.lt_irrefl _),
        fun hret => absurd (h.known _ (Or.inr hret)) (Nat.lt_irrefl _)⟩
    · exact h.unseen j obj hj
  known obj hobj := by
    show obj < (s.made ++ [i]).length
    rw [List.length_append]
    exact Nat.lt_add_right _ (h.known obj hobj)
  set j hj := by
    rcases pc_goto hj with ⟨-, hret⟩ | ⟨-, hj⟩
    · cases hret
    · exact h.set j hj
  nonnull := h.nonnull

theorem inv_store {s : St ι} (h : Inv s) {i : ι} {obj : Nat} (hpc : s.pc i = .store obj) :
    Inv (goto { s with ins := some obj } i .ret) where
  nodup := h.nodup
  first j hj := by
    rcases pc_goto hj with ⟨-, hret⟩ | ⟨-, hj⟩
    · cases hret
    · exact h.first j hj
  stored _ _ := Or.inr (Option.some_ne_none obj)
  own j k hj := by
    rcases pc_goto hj with ⟨-, hret⟩ | ⟨-, hj⟩
    · cases hret
    · exact h.own j k hj
  unseen j k hj := by
    rcases pc_goto hj with ⟨-, hret⟩ | ⟨hji, hj⟩
    · cases hret
    · refine ⟨?_, (h.unseen j k hj).2⟩
      -- one object has one maker
      intro hk
      obtain rfl := Option.some.inj hk
      exact hji (Option.some.inj ((h.own j obj hj).symm.trans (h.own i obj hpc)))
  known k hk := by
    rcases hk with hk | hk
    · obtain rfl := Option.some.inj hk
      exact (List.getElem?_eq_some_iff.mp (h.own i obj hpc)).1
    · exact h.known k (Or.inr hk)
  set _ _ := Option.some_ne_none obj
  nonnull := h.nonnull

theorem inv_ret {s : St ι} (h : Inv s) {i : ι} (hpc : s.pc i = .ret) :
    Inv (goto { s with returned := s.returned ++ [s.ins] } i .test) where
  nodup := h.nodup
  first j hj := by
    rcases pc_goto hj with ⟨-, htest⟩ | ⟨-, hj⟩
    · cases htest
    · exact h.first j hj
  stored _ _ := Or.inr (h.set i hpc)
  own j obj hj := by
    rcases pc_goto hj with ⟨-, htest⟩ | ⟨-, hj⟩
    · cases htest
    · exact h.own j obj hj
  unseen j obj hj := by
    rcases pc_goto hj with ⟨-, htest⟩ | ⟨-, hj⟩
    · cases htest
    · obtain ⟨hins, hret⟩ := h.unseen j obj hj
      refine ⟨hins, fun hmem => ?_⟩
      rcases List.mem_append.mp hmem with hold | hnew
      · exact hret hold
      · exact hins (List.mem_singleton.mp hnew).symm
  known obj hobj := by
    rcases hobj with hins | hmem
    · exact h.known obj (Or.inl hins)
    · rcases List.mem_append.mp hmem with hold | hnew
      · exact h.known obj (Or.inr hold)
      · exact h.known obj (Or.inl (List.mem_singleton.mp hnew).symm)
  set j hj := by
    rcases pc_goto hj with ⟨-, htest⟩ | ⟨-, hj⟩
    · cases htest
    · exact h.set j hj
  nonnull hmem := by
    rcases List.mem_append.mp hmem with hold | hnew
    · exact h.nonnull hold
    · exact h.set i hpc (List.mem_singleton.mp hnew).symm

theorem inv_step (s : St ι) (i : ι) (h : Inv s) : Inv (step s i) := by
  unfold step
  cases hpc : s.pc i with
  | test => exact inv_test h hpc
  | new => exact inv_new h hpc
  | store obj => exact inv_store h hpc
  | ret => exact inv_ret h hpc

/-! ## What the tasks share -/

theorem shared_step_iff {s : St ι} (i : ι) (h : Inv s) (hs : Shared s) : Shared (step s i) ↔ NoLateStore s i := by
  unfold step NoLateStore
  cases hpc : s.pc i with
  | test => exact iff_of_true hs (fun obj h => by cases h)
  | new => exact iff_of_true hs (fun obj h => by cases h)
  | store obj =>
    constructor
    · intro hshared _ _
      refine List.eq_nil_iff_forall_not_mem.mpr fun r hr => ?_
      exact (h.unseen i obj hpc).1 ((hs r hr).symm.trans (hshared r hr))
    · intro hnone r hr
      have hnil : s.returned = [] := hnone obj rfl
      change r ∈ s.returned at hr
      rw [hnil] at hr
      cases hr
  | ret =>
    refine iff_of_true ?_ (fun obj h => by cases h)
    intro r hr
    rcases List.mem_append.mp hr with hold | hnew
    · exact hs r hold
    · exact List.mem_singleton.mp hnew

theorem instance_shared (es : List ι) :
    ((run step start es).made.Nodup ∧ none ∉ (run step start es).returned) ∧
      ((∀ p, p <+: es → Shared (run step start p)) ↔ Along step NoLateStore start es) := by
  have hinv : Inv (run step start es) := inv_run_all inv_step es start inv_start
  refine ⟨⟨hinv.nodup, hinv.nonnull⟩, ?_⟩
  refine reached_iff_along (P := fun _ _ => True) (J := Inv) (fun s i h _ => inv_step s i h) ?_ es start inv_start ?_
    (along_of_all (fun _ _ => trivial) es start)
  · intro s i h _ hs
    exact shared_step_iff i h hs
  · intro r hr
    cases hr

/-- Two first calls at a time: the other task keeps an object of its own. -/
example : (run step start [true, false, true, false, true, true, false, false]).returned = [some 0, some 1] := rfl

/-! ## After the static constructors -/

/-- Nobody is making an object, and there is one. -/
structure Settled (i : ι) (s : St ι) : Prop where
  ins : s.ins = some 0
  made : s.made = [i]
  pc : ∀ j, s.pc j = .test ∨ s.pc j = .ret
  returned : ∀ r, r ∈ s.returned → r = some 0

theorem settled_goto {i : ι} {s : St ι} (h : Settled i s) (j : ι) {pc : Pc} (hpc : pc = .test ∨ pc = .ret) :
    Settled i (goto s j pc) := by
  refine ⟨h.ins, h.made, ?_, h.returned⟩
  intro k
  by_cases hk : k = j
  · rw [hk, pc_goto_self]
    exact hpc
  · rw [pc_goto_other pc hk]
    exact h.pc k

theorem settled_step {i : ι} (s : St ι) (j : ι) (h : Settled i s) : Settled i (step s j) := by
  unfold step
  rcases h.pc j with hpc | hpc
  · rw [hpc, stepAt, if_neg (h.ins ▸ Option.some_ne_none 0)]
    exact settled_goto h j (Or.inr rfl)
  · have hreturned : Settled i { s with returned := s.returned ++ [s.ins] } := by
      refine ⟨h.ins, h.made, h.pc, ?_⟩
      intro r hr
      rcases List.mem_append.mp hr with hold | hnew
      · exact h.returned r hold
      · exact (List.mem_singleton.mp hnew).trans h.ins
    rw [hpc, stepAt]
    exact settled_goto hreturned j (Or.inl rfl)

/-- The first call, with nobody else about. -/
theorem settled_call (i : ι) : Settled i (run step start [i, i, i, i]) := by
  have hrun : run step start [i, i, i, i] =
      goto { ins := some 0, made := [i], returned := [some 0], pc := fun _ => .test } i .test := by
    simp [run, step, stepAt, goto, start]
  rw [hrun]
  exact settled_goto ⟨rfl, rfl, fun _ => Or.inl rfl, fun r hr => List.mem_singleton.mp hr⟩ i (Or.inl rfl)

theorem one_object (i : ι) (es : List ι) : Settled i (run step start ([i, i, i, i] ++ es)) := by
  rw [run_append]
  exact inv_run_all settled_step es _ (settled_call i)

end NormalSingleton

end SeerDIOBoard.Utils
