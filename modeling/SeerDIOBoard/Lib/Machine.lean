/-
  SeerDIOBoard.Lib.Machine — runs of a state machine given by a step function.

  A machine is `step : σ → ε → σ`; an event that cannot happen in a state leaves the
  state as it is. `run` is the state after a list of events. `Along P` says that every
  event of a run meets `P` in the state that event finds: it states what a run is
  assumed to do (`P` a condition on the state before the step and on the event) and
  what a run is shown to do (`P` a property of one step).

  - `inv_run`: an invariant that each step meeting `P` keeps holds after a run along `P`.
  - `along_of_inv` / `along_iff_of_inv`: under such an invariant, what `P` says of a step
    carries over to what another property says of it, over the whole run.
  - `reached_iff_along`: which runs keep a property in every state, where it is known
    which steps keep it.
  - `run_expansion`: a machine whose steps are short runs of another one.
  - `reached_of_rank`: steps that bring a rank down get somewhere.
  - `total` adds up what the events of a run bring in, and `total_of_step` says what that
    is worth where every step adds it to some amount.
-/

import Mathlib.Algebra.Group.Basic
import Mathlib.Data.List.Basic

namespace Lib.Machine

variable {σ ε : Type} (step : σ → ε → σ)

/-- The state after the events `es`. -/
def run (s : σ) (es : List ε) : σ := es.foldl step s

@[simp] theorem run_nil (s : σ) : run step s [] = s := rfl

@[simp] theorem run_cons (s : σ) (e : ε) (es : List ε) : run step s (e :: es) = run step (step s e) es := rfl

theorem run_append (s : σ) (p q : List ε) : run step s (p ++ q) = run step (run step s p) q := by
  simp [run, List.foldl_append]

@[simp] theorem run_snoc (s : σ) (p : List ε) (e : ε) : run step s (p ++ [e]) = step (run step s p) e := by
  simp [run_append]

/-- Every event of the run meets `P` in the state it finds. -/
def Along (P : σ → ε → Prop) : σ → List ε → Prop
  | _, [] => True
  | s, e :: es => P s e ∧ Along P (step s e) es

variable {step} {P Q : σ → ε → Prop} {I : σ → Prop}

instance decidableAlong [∀ s e, Decidable (P s e)] : ∀ es s, Decidable (Along step P s es)
  | [], _ => .isTrue trivial
  | e :: es, s =>
    have := decidableAlong es (step s e)
    inferInstanceAs (Decidable (P s e ∧ Along step P (step s e) es))

theorem along_and {es : List ε} {s : σ} (hp : Along step P s es) (hq : Along step Q s es) :
    Along step (fun s e => P s e ∧ Q s e) s es := by
  induction es generalizing s with
  | nil => trivial
  | cons e es ih => exact ⟨⟨hp.1, hq.1⟩, ih hp.2 hq.2⟩

theorem along_append (p q : List ε) (s : σ) :
    Along step P s (p ++ q) ↔ Along step P s p ∧ Along step P (run step s p) q := by
  induction p generalizing s with
  | nil => exact ⟨fun h => ⟨trivial, h⟩, fun h => h.2⟩
  | cons e p ih =>
    constructor
    · intro h
      obtain ⟨hp, hq⟩ := (ih (step s e)).mp h.2
      exact ⟨⟨h.1, hp⟩, hq⟩
    · intro h
      exact ⟨h.1.1, (ih (step s e)).mpr ⟨h.1.2, h.2⟩⟩

/-- Event by event: each in the state that the ones before it leave. -/
theorem along_iff_forall (es : List ε) (s : σ) :
    Along step P s es ↔ ∀ p e q, es = p ++ e :: q → P (run step s p) e := by
  induction es generalizing s with
  | nil => exact iff_of_true trivial fun p e q h => absurd h.symm (by simp)
  | cons x es ih =>
    constructor
    · intro h p e q he
      cases p with
      | nil =>
        obtain ⟨rfl, -⟩ := List.cons.inj he
        exact h.1
      | cons y p =>
        obtain ⟨rfl, htail⟩ := List.cons.inj he
        exact (ih _).mp h.2 p e q htail
    · intro h
      exact ⟨h [] x es rfl, (ih _).mpr fun p e q he => h (x :: p) e q (by rw [he]; rfl)⟩

/-- A step that keeps `I` whenever it meets `P` keeps it over every run along `P`. -/
theorem inv_run (hstep : ∀ s e, I s → P s e → I (step s e)) :
    ∀ (es : List ε) (s : σ), I s → Along step P s es → I (run step s es) := by
  intro es
  induction es with
  | nil => intro s h _; exact h
  | cons e es ih => intro s h hp; exact ih _ (hstep s e h hp.1) hp.2

/-- An invariant that every step keeps holds after every run. -/
theorem inv_run_all (hstep : ∀ s e, I s → I (step s e)) (es : List ε) (s : σ) (h : I s) : I (run step s es) := by
  induction es generalizing s with
  | nil => exact h
  | cons e es ih => exact ih _ (hstep s e h)

/-- Under an invariant, a run along `P` is a run along whatever `P` implies. -/
theorem along_of_inv (hstep : ∀ s e, I s → P s e → I (step s e)) (hpq : ∀ s e, I s → P s e → Q s e) :
    ∀ (es : List ε) (s : σ), I s → Along step P s es → Along step Q s es := by
  intro es
  induction es with
  | nil => intro s _ _; trivial
  | cons e es ih => intro s h hp; exact ⟨hpq s e h hp.1, ih _ (hstep s e h hp.1) hp.2⟩

/-- Two step properties that agree where the invariant holds are met by the same runs. -/
theorem along_iff_of_inv (hstep : ∀ s e, I s → P s e → I (step s e)) (hpq : ∀ s e, I s → (P s e ↔ Q s e))
    (es : List ε) (s : σ) (h : I s) : Along step P s es ↔ Along step Q s es :=
  ⟨along_of_inv hstep (fun s e hi => (hpq s e hi).mp) es s h,
    along_of_inv (fun s e hi hq => hstep s e hi ((hpq s e hi).mpr hq)) (fun s e hi => (hpq s e hi).mpr) es s h⟩

/-- A property of the states reached, where `Q` says of one step exactly whether it keeps
    the property (given the invariant `J`): it holds throughout the runs along `Q`. -/
theorem reached_iff_along {J : σ → Prop} (hJ : ∀ s e, J s → P s e → J (step s e))
    (hpq : ∀ s e, J s → P s e → I s → (I (step s e) ↔ Q s e)) (es : List ε) (s : σ) (hj : J s) (hi : I s)
    (hp : Along step P s es) : (∀ p, p <+: es → I (run step s p)) ↔ Along step Q s es := by
  induction es generalizing s with
  | nil =>
    refine ⟨fun _ => trivial, ?_⟩
    intro _ p h
    rw [List.prefix_nil.mp h]
    exact hi
  | cons e es ih =>
    have hstep := hpq s e hj hp.1 hi
    constructor
    · intro h
      have he : I (step s e) := h [e] ⟨es, rfl⟩
      refine ⟨hstep.mp he, (ih _ (hJ s e hj hp.1) he hp.2).mp ?_⟩
      intro p hpre
      exact h (e :: p) (List.cons_prefix_cons.mpr ⟨rfl, hpre⟩)
    · intro h p hpre
      cases p with
      | nil => exact hi
      | cons x p =>
        obtain ⟨rfl, hps⟩ := List.cons_prefix_cons.mp hpre
        exact (ih _ (hJ s _ hj hp.1) (hstep.mpr h.1) hp.2).mpr h.2 p hps

/-- A machine in which another runs: its runs along what the other is assumed to do are
    the other's. -/
theorem along_image {τ φ : Type} {step' : τ → φ → τ} {R : τ → φ → Prop} (f : σ → τ) (g : ε → φ)
    (hstep : ∀ s e, f (step s e) = step' (f s) (g e)) (es : List ε) (s : σ) :
    Along step (fun s e => R (f s) (g e)) s es ↔ Along step' R (f s) (es.map g) := by
  induction es generalizing s with
  | nil => exact Iff.rfl
  | cons e es ih =>
    show R (f s) (g e) ∧ _ ↔ R (f s) (g e) ∧ _
    rw [ih, hstep]

/-! ## Refinement -/

/-- The events of another machine that a run amounts to, each event in the state it finds. -/
def expansion {φ : Type} (step : σ → ε → σ) (expand : σ → ε → List φ) : σ → List ε → List φ
  | _, [] => []
  | s, e :: es => expand s e ++ expansion step expand (step s e) es

/-- A machine whose steps are short runs of another one: its runs are runs of the other. -/
theorem run_expansion {τ φ : Type} {step' : τ → φ → τ} {expand : σ → ε → List φ} (f : σ → τ)
    (hstep : ∀ s e, I s → I (step s e)) (hsim : ∀ s e, I s → f (step s e) = run step' (f s) (expand s e)) (es : List ε)
    (s : σ) (h : I s) : f (run step s es) = run step' (f s) (expansion step expand s es) := by
  induction es generalizing s with
  | nil => rfl
  | cons e es ih => rw [run_cons, ih _ (hstep s e h), hsim s e h, expansion, run_append]

/-! ## Progress -/

section Rank

variable {G : σ → Prop} (rank : σ → Nat)

/-- Steps that bring a rank down until `G` is reached, one of which can be done until then:
    every run of as many of them gets to `G`. -/
theorem reached_of_rank (hmove : ∀ s, I s → ¬ G s → ∃ e, P s e)
    (hdown : ∀ s e, I s → ¬ G s → P s e → I (step s e) ∧ rank (step s e) < rank s) (es : List ε) (s : σ) (h : I s)
    (hp : Along step P s es) (hlen : rank s ≤ es.length) : ∃ p, p <+: es ∧ G (run step s p) := by
  induction es generalizing s with
  | nil =>
    refine ⟨[], List.prefix_rfl, ?_⟩
    by_contra hg
    obtain ⟨e, he⟩ := hmove s h hg
    have hlt := (hdown s e h hg he).2
    have hzero : rank s ≤ 0 := hlen
    omega
  | cons e es ih =>
    by_cases hg : G s
    · exact ⟨[], List.nil_prefix, hg⟩
    · obtain ⟨hi, hlt⟩ := hdown s e h hg hp.1
      rw [List.length_cons] at hlen
      obtain ⟨p, hpre, hgoal⟩ := ih _ hi hp.2 (by omega)
      exact ⟨e :: p, List.cons_prefix_cons.mpr ⟨rfl, hpre⟩, hgoal⟩

/-- And there is such a run. -/
theorem exists_run_of_rank (hmove : ∀ s, I s → ¬ G s → ∃ e, P s e)
    (hdown : ∀ s e, I s → ¬ G s → P s e → I (step s e) ∧ rank (step s e) < rank s) (s : σ) (h : I s) :
    ∃ es, Along step P s es ∧ G (run step s es) := by
  induction hn : rank s using Nat.strongRecOn generalizing s with
  | ind n ih =>
    by_cases hg : G s
    · exact ⟨[], trivial, hg⟩
    · obtain ⟨e, he⟩ := hmove s h hg
      obtain ⟨hi, hlt⟩ := hdown s e h hg he
      obtain ⟨es, hes, hgoal⟩ := ih _ (by omega) _ hi rfl
      exact ⟨e :: es, ⟨he, hes⟩, hgoal⟩

end Rank

/-! ## Amounts -/

section Amounts

variable {A : Type} [AddMonoid A]

/-- What the events bring in, each in the state it finds. -/
def total (step : σ → ε → σ) (f : σ → ε → A) : σ → List ε → A
  | _, [] => 0
  | s, e :: es => f s e + total step f (step s e) es

@[simp] theorem total_nil (f : σ → ε → A) (s : σ) : total step f s [] = 0 := rfl

@[simp] theorem total_cons (f : σ → ε → A) (s : σ) (e : ε) (es : List ε) :
    total step f s (e :: es) = f s e + total step f (step s e) es := rfl

/-- An amount `g` to which each step adds what `f` says of it. -/
theorem total_of_step {f : σ → ε → A} {g : σ → A} (hstep : ∀ s e, I s → I (step s e))
    (hadd : ∀ s e, I s → g (step s e) = g s + f s e) (es : List ε) (s : σ) (h : I s) :
    g (run step s es) = g s + total step f s es := by
  induction es generalizing s with
  | nil => rw [run_nil, total_nil, add_zero]
  | cons e es ih => rw [run_cons, ih _ (hstep s e h), hadd s e h, total_cons, add_assoc]

/-- What the amounts of a run along `P` have, and adding keeps, the total has. -/
theorem total_of_along {f : σ → ε → A} {p : A → Prop} (hzero : p 0) (hadd : ∀ a b, p a → p b → p (a + b))
    (hf : ∀ s e, P s e → p (f s e)) (es : List ε) (s : σ) (h : Along step P s es) : p (total step f s es) := by
  induction es generalizing s with
  | nil => exact hzero
  | cons e es ih => exact hadd _ _ (hf s e h.1) (ih _ h.2)

theorem along_of_all (hp : ∀ s e, P s e) (es : List ε) (s : σ) : Along step P s es := by
  induction es generalizing s with
  | nil => trivial
  | cons e es ih => exact ⟨hp s e, ih _⟩

end Amounts

theorem total_add {A : Type} [AddCommMonoid A] (f g : σ → ε → A) (es : List ε) (s : σ) :
    total step (fun s e => f s e + g s e) s es = total step f s es + total step g s es := by
  induction es generalizing s with
  | nil => exact (add_zero 0).symm
  | cons e es ih => rw [total_cons, ih, total_cons, total_cons, add_add_add_comm]

end Lib.Machine
