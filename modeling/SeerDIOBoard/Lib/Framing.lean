/-
  SeerDIOBoard.Lib.Framing — a stream cut up by a two-symbol header.

  Frames on the line are announced by the pair `a b`. There is no escaping: the pair
  announces a frame wherever it stands. `scan` follows the stream one symbol at a time
  and keeps what a receiver can know of it: whether a header has been seen, the symbols
  since the last one (since the start while there was none) and whether the last symbol
  is an `a` that a `b` would complete.

  - `pair_set`, `around_pair_set`: where one changed symbol brings in a pair.
  - `run_noPair`: behind a header, a body with no pair inside is taken in whole.
  - `scan_true`: what the stream looks like when `scan` has seen a header: the last one is
    where `scan` says, and no pair stands after it.
  - `scan_after_header`: whatever follows a header, what `scan` holds is its tail.
-/

import Mathlib.Data.List.Induction
import SeerDIOBoard.Lib.Machine

namespace Lib.Framing

open Lib.Machine

variable {α : Type}

/-! ## Pairs -/

section

variable {a b : α}

theorem pair_snoc {p : List α} {x : α} (hp : p.getLast? = some a) (hx : x = b) : [a, b] <:+: p ++ [x] := by
  obtain ⟨q, rfl⟩ := List.getLast?_eq_some_iff.mp hp
  subst hx
  exact ⟨q, [], by simp⟩

theorem noPair_of_snoc {p : List α} {x : α} (h : ¬ [a, b] <:+: p ++ [x]) : ¬ [a, b] <:+: p :=
  fun hp => h (hp.trans (List.infix_append' [] p [x]))

/-- The pair completed by `x` is not inside what came before. -/
theorem noPair_snoc {p : List α} {x : α} (hp : ¬ [a, b] <:+: p) (hx : ¬ (x = b ∧ p.getLast? = some a)) :
    ¬ [a, b] <:+: p ++ [x] := by
  rintro ⟨u, v, h⟩
  rcases List.eq_nil_or_concat v with rfl | ⟨w, y, rfl⟩
  · have h' : (u ++ [a]) ++ [b] = p ++ [x] := by simpa using h
    obtain ⟨rfl, hb⟩ := List.append_inj' h' rfl
    exact hx ⟨by simpa using hb.symm, by simp⟩
  · have h' : (u ++ [a, b] ++ w) ++ [y] = p ++ [x] := by simpa using h
    obtain ⟨h1, -⟩ := List.append_inj' h' rfl
    exact hp ⟨u, w, h1⟩

/-- A pair that one changed symbol brings in has that symbol in it. -/
theorem pair_set {l u v : List α} {i : Nat} {x : α} (hl : ¬ [a, b] <:+: l) (h : l.set i x = u ++ a :: b :: v) :
    u.length ≤ i ∧ i ≤ u.length + 1 := by
  constructor
  · by_contra hlt
    have htail : l.drop (i + 1) = u.drop (i + 1) ++ a :: b :: v := by
      rw [← List.drop_set_of_lt (Nat.lt_succ_self i) (a := x), h, List.drop_append_of_le_length (by omega)]
    exact hl (List.IsInfix.trans ⟨u.drop (i + 1), v, by rw [htail]; simp⟩ (List.drop_suffix (i + 1) l).isInfix)
  · by_contra hgt
    have hfront : l.take i = (u ++ [a, b]) ++ v.take (i - (u.length + 2)) := by
      rw [← List.take_set_of_le (Nat.le_refl i) (a := x), h, show u ++ a :: b :: v = (u ++ [a, b]) ++ v by simp,
        List.take_append, List.take_of_length_le (by simp; omega)]
      simp
    exact hl (List.IsInfix.trans ⟨u, _, by rw [hfront]⟩ (List.take_prefix i l).isInfix)

/-- What stands before and after it is as it was. -/
theorem around_pair_set {l u v : List α} {i : Nat} {x : α} (hl : ¬ [a, b] <:+: l) (h : l.set i x = u ++ a :: b :: v) :
    u <+: l ∧ v <:+ l := by
  obtain ⟨hle, hge⟩ := pair_set hl h
  constructor
  · have hu : u = l.take u.length := by
      rw [← List.take_set_of_le hle (a := x), h, List.take_left]
    rw [hu]
    exact List.take_prefix _ l
  · have hv : v = l.drop (u.length + 2) := by
      rw [← List.drop_set_of_lt (show i < u.length + 2 by omega) (a := x), h,
        show u ++ a :: b :: v = (u ++ [a, b]) ++ v by simp, List.drop_left' (by simp)]
    rw [hv]
    exact List.drop_suffix _ l

end

/-! ## The scan -/

structure Seg (α : Type) where
  header : Bool
  body : List α
  half : Bool
  deriving DecidableEq

def Seg.start : Seg α := ⟨false, [], false⟩

variable [DecidableEq α] (a b : α)

def next (g : Seg α) (x : α) : Seg α :=
  if x = b ∧ g.half = true then ⟨true, [], false⟩ else ⟨g.header, g.body ++ [x], x = a⟩

def scan (xs : List α) : Seg α := run (next a b) Seg.start xs

variable {a b}

theorem next_pair (g : Seg α) (h : g.half = true) : next a b g b = ⟨true, [], false⟩ := by simp [next, h]

theorem next_other (g : Seg α) {x : α} (h : ¬ (x = b ∧ g.half = true)) :
    next a b g x = ⟨g.header, g.body ++ [x], x = a⟩ := by simp only [next, if_neg h]

theorem next_half (hab : a ≠ b) (g : Seg α) : (next a b g a).half = true := by
  rw [next_other g fun h => hab h.1]; simp

/-- A body with no pair inside is taken in whole. -/
theorem run_noPair (h : Bool) (p body : List α) (hb : ¬ [a, b] <:+: body) :
    run (next a b) ⟨h, p, false⟩ body = ⟨h, p ++ body, body.getLast? = some a⟩ := by
  induction body using List.reverseRecOn with
  | nil => simp
  | append_singleton q x ih =>
    rw [run_snoc, ih (noPair_of_snoc hb)]
    have hx : ¬ (x = b ∧ decide (q.getLast? = some a) = true) := fun hx => hb (pair_snoc (by simpa using hx.2) hx.1)
    rw [next_other _ hx]
    simp

/-! ## Where the last header stands -/

theorem scan_snoc (xs : List α) (x : α) : scan a b (xs ++ [x]) = next a b (scan a b xs) x := run_snoc _ _ _ _

theorem scan_half (hab : a ≠ b) (xs : List α) : (scan a b xs).half = true ↔ xs.getLast? = some a := by
  induction xs using List.reverseRecOn with
  | nil => simp [scan, Seg.start]
  | append_singleton p x _ =>
    rw [scan_snoc]
    by_cases h : x = b ∧ (scan a b p).half = true
    · obtain ⟨rfl, h⟩ := h
      rw [next_pair _ h]
      simpa using fun e : x = a => hab e.symm
    · rw [next_other _ h]; simp

/-- After a header: the stream ends with the last one and the body held, which
    contains no pair. -/
theorem scan_true (hab : a ≠ b) (xs : List α) (h : (scan a b xs).header = true) :
    ∃ pre, xs = pre ++ a :: b :: (scan a b xs).body ∧ ¬ [a, b] <:+: (scan a b xs).body := by
  induction xs using List.reverseRecOn with
  | nil => cases h
  | append_singleton p x ih =>
    rw [scan_snoc] at h ⊢
    by_cases hx : x = b ∧ (scan a b p).half = true
    · obtain ⟨rfl, hx⟩ := hx
      rw [next_pair _ hx]
      obtain ⟨q, rfl⟩ := List.getLast?_eq_some_iff.mp ((scan_half hab p).mp hx)
      exact ⟨q, by simp, fun hi => by simpa using hi.length_le⟩
    · rw [next_other _ hx] at h ⊢
      obtain ⟨pre, h1, h2⟩ := ih h
      refine ⟨pre, ?_, noPair_snoc h2 fun hl => hx ⟨hl.1, (scan_half hab p).mpr ?_⟩⟩
      · calc p ++ [x] = (pre ++ a :: b :: (scan a b p).body) ++ [x] := congrArg (· ++ [x]) h1
          _ = _ := by simp
      · rw [h1]
        simp only [List.getLast?_append, List.getLast?_cons, hl.2]
        rfl

/-- A header puts the scan at its start, whatever came before. -/
theorem scan_header (hab : a ≠ b) (pre : List α) : scan a b (pre ++ [a, b]) = ⟨true, [], false⟩ := by
  rw [show pre ++ [a, b] = (pre ++ [a]) ++ [b] by simp, scan_snoc, scan_snoc, next_pair _ (next_half hab _)]

/-- Whatever follows a header, a header has been seen and the body held is a tail of it. -/
theorem scan_after_header (hab : a ≠ b) (pre body : List α) :
    (scan a b (pre ++ a :: b :: body)).header = true ∧ (scan a b (pre ++ a :: b :: body)).body <:+ body := by
  induction body using List.reverseRecOn with
  | nil => rw [scan_header hab]; simp
  | append_singleton p x ih =>
    rw [show pre ++ a :: b :: (p ++ [x]) = (pre ++ a :: b :: p) ++ [x] by simp, scan_snoc]
    obtain ⟨h1, h2⟩ := ih
    by_cases hx : x = b ∧ (scan a b (pre ++ a :: b :: p)).half = true
    · rw [hx.1, next_pair _ hx.2]; exact ⟨rfl, List.nil_suffix⟩
    · rw [next_other _ hx]
      obtain ⟨q, hq⟩ := h2
      exact ⟨h1, q, by rw [← List.append_assoc, hq]⟩

end Lib.Framing
