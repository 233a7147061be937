/-
  SeerDIOBoard.Lib.Servers — a client that asks several servers and reads their replies
  from one queue.

  A server handles its requests in order, at its own speed, and a reply goes to the end of
  the queue (`reply`); the client reads from the front (`take`). Beside the replies it waits
  for there may be strays, from requests it has sent earlier and did not wait for.

  In a round every server is asked for one thing. `Waiting k i` says that `i` of the `k`
  replies have been read, and that of each of the others the request or the reply is still
  there, behind strays only (`Due`).
  - `Waiting.reply`, `Waiting.take`: what the steps of the servers and of the client do.
  - `Waiting.request`: what a server can find in its queue.
  - `Waiting.all`: with the last reply read, nothing but strays is left.
  - `Waiting.pending`: before that there is a request to handle or a reply to read.
-/

import Mathlib.Data.Finset.Card
import Mathlib.Logic.Function.Basic

namespace Lib.Servers

open Function (update)

variable {α β : Type}

structure Net (α β : Type) where
  requests : Nat → List α
  inbox : List β

namespace Net

def empty : Net α β := ⟨fun _ => [], []⟩

def ask (n : Net α β) (j : Nat) (a : α) : Net α β := { n with requests := update n.requests j (n.requests j ++ [a]) }

/-- Server `i` is done with its first request. -/
def reply (n : Net α β) (i : Nat) (o : Option β) : Net α β where
  requests := update n.requests i (n.requests i).tail
  inbox := n.inbox ++ o.toList

def take (n : Net α β) : Net α β := { n with inbox := n.inbox.tail }

theorem ask_other (n : Net α β) {i j : Nat} (h : j ≠ i) (a : α) : (n.ask i a).requests j = n.requests j :=
  Function.update_of_ne h _ _

theorem ask_self (n : Net α β) (j : Nat) (a : α) : (n.ask j a).requests j = n.requests j ++ [a] :=
  Function.update_self _ _ _

theorem reply_other (n : Net α β) {i j : Nat} (h : j ≠ i) (o : Option β) : (n.reply i o).requests j = n.requests j :=
  Function.update_of_ne h _ _

theorem reply_self (n : Net α β) (i : Nat) (o : Option β) : (n.reply i o).requests i = (n.requests i).tail :=
  Function.update_self _ _ _

theorem mem_reply {n : Net α β} {i : Nat} {o : Option β} {b : β} (h : b ∈ (n.reply i o).inbox) : b ∈ n.inbox ∨ b ∈ o := by
  rcases List.mem_append.mp h with h | h
  · exact Or.inl h
  · exact Or.inr (Option.mem_toList.mp h)

end Net

/-! ## One server -/

section Server

-- where a reply is from, which requests and replies are strays, the request of a round, and
-- its reply
variable (src : β → Nat) (P : α → Prop) (Q : β → Prop) (A : Nat → α → Prop) (B : Nat → β → Prop)

/-- Nothing but strays of server `j`. -/
structure Quiet (n : Net α β) (j : Nat) : Prop where
  requests : ∀ a ∈ n.requests j, P a
  inbox : ∀ b ∈ n.inbox, src b = j → Q b

/-- The request that server `j` was sent in this round, or its reply, behind strays only. -/
inductive Due (n : Net α β) (j : Nat) : Prop
  | asked (l : List α) (a : α) (hreq : n.requests j = l ++ [a]) (hl : ∀ x ∈ l, P x) (ha : A j a)
      (hin : ∀ b ∈ n.inbox, src b = j → Q b)
  | answered (p : List β) (b : β) (q : List β) (hreq : n.requests j = []) (hin : n.inbox = p ++ b :: q) (hsrc : src b = j)
      (hb : B j b) (hp : ∀ x ∈ p, src x = j → Q x) (hq : ∀ x ∈ q, src x ≠ j)

end Server

variable {src : β → Nat} {P : α → Prop} {Q : β → Prop} {A : Nat → α → Prop} {B B' : Nat → β → Prop}
variable {n : Net α β} {i j : Nat}

theorem Quiet.ask_other (h : Quiet src P Q n j) (hij : j ≠ i) (a : α) : Quiet src P Q (n.ask i a) j :=
  ⟨by rw [n.ask_other hij]; exact h.requests, h.inbox⟩

theorem Quiet.ask_stray (h : Quiet src P Q n j) {a : α} (ha : P a) : Quiet src P Q (n.ask i a) j := by
  by_cases hij : j = i
  · subst hij
    refine ⟨fun x hx => ?_, h.inbox⟩
    rw [n.ask_self] at hx
    rcases List.mem_append.mp hx with hx | hx
    · exact h.requests x hx
    · rw [List.mem_singleton.mp hx]
      exact ha
  · exact h.ask_other hij a

theorem Quiet.ask (h : Quiet src P Q n j) {a : α} (ha : A j a) : Due src P Q A B (n.ask j a) j :=
  .asked (n.requests j) a (n.ask_self j a) h.requests ha h.inbox

theorem Due.ask_other (h : Due src P Q A B n j) (hij : j ≠ i) (a : α) : Due src P Q A B (n.ask i a) j := by
  cases h with
  | asked l x hreq hl hx hin => exact .asked l x (by rw [n.ask_other hij, hreq]) hl hx hin
  | answered p b q hreq hin hsrc hb hp hq => exact .answered p b q (by rw [n.ask_other hij, hreq]) hin hsrc hb hp hq

/-! ## A reply -/

/-- Whoever replies, a server with nothing to say but strays says no more than that. -/
theorem Quiet.reply (h : Quiet src P Q n j) {o : Option β} (hsrc : ∀ b ∈ o, src b = i) {a : α} {rest : List α}
    (hreq : n.requests i = a :: rest) (hstray : P a → ∀ b ∈ o, Q b) : Quiet src P Q (n.reply i o) j := by
  by_cases hij : j = i
  · subst hij
    refine ⟨fun x hx => ?_, fun b hb hj => ?_⟩
    · rw [n.reply_self, hreq] at hx
      exact h.requests x (by rw [hreq]; exact List.mem_cons_of_mem a hx)
    · rcases Net.mem_reply hb with hb | hb
      · exact h.inbox b hb hj
      · exact hstray (h.requests a (by rw [hreq]; exact List.mem_cons_self)) b hb
  · refine ⟨by rw [n.reply_other hij]; exact h.requests, fun b hb hj => ?_⟩
    rcases Net.mem_reply hb with hb | hb
    · exact h.inbox b hb hj
    · exact absurd (hj.symm.trans (hsrc b hb)) hij

theorem Due.reply_other (h : Due src P Q A B n j) (hij : j ≠ i) {o : Option β} (hsrc : ∀ b ∈ o, src b = i)
    (hB : ∀ b, B j b → B' j b) : Due src P Q A B' (n.reply i o) j := by
  have hnot : ∀ b ∈ o, src b ≠ j := fun b hb hj => hij (hj.symm.trans (hsrc b hb))
  cases h with
  | asked l a hreq hl ha hin =>
    refine .asked l a (by rw [n.reply_other hij, hreq]) hl ha fun b hb hj => ?_
    rcases Net.mem_reply hb with hb | hb
    · exact hin b hb hj
    · exact absurd hj (hnot b hb)
  | answered p b q hreq hin hb hj hp hq =>
    refine .answered p b (q ++ o.toList) (by rw [n.reply_other hij, hreq]) ?_ hb (hB b hj) hp fun x hx => ?_
    · show n.inbox ++ o.toList = _
      rw [hin, List.append_assoc, List.cons_append]
    · rcases List.mem_append.mp hx with hx | hx
      · exact hq x hx
      · exact hnot x (Option.mem_toList.mp hx)

/-- The server handles a stray in front of the request of the round, or the request itself. -/
theorem Due.reply (h : Due src P Q A B n j) {o : Option β} (hsrc : ∀ b ∈ o, src b = j) {a : α} {rest : List α}
    (hreq : n.requests j = a :: rest) (hstray : P a → ∀ b ∈ o, Q b) (hgood : A j a → ∃ b, o = some b ∧ B' j b) :
    Due src P Q A B' (n.reply j o) j := by
  cases h with
  | answered p b q hnone => rw [hreq] at hnone; cases hnone
  | asked l x hasked hl hx hin =>
    rw [hreq] at hasked
    have hreq' : (n.reply j o).requests j = rest := by rw [n.reply_self, hreq, List.tail_cons]
    cases l with
    | nil =>
      obtain ⟨rfl, rfl⟩ := List.cons.inj hasked
      obtain ⟨b, rfl, hb⟩ := hgood hx
      refine .answered n.inbox b [] hreq' rfl (hsrc b rfl) hb hin fun y hy => ?_
      cases hy
    | cons y l =>
      obtain ⟨rfl, rfl⟩ := List.cons.inj hasked
      refine .asked l x hreq' (fun y hy => hl y (List.mem_cons_of_mem a hy)) hx fun b hb hj => ?_
      rcases Net.mem_reply hb with hb | hb
      · exact hin b hb hj
      · exact hstray (hl a List.mem_cons_self) b hb

/-! ## A read -/

theorem Quiet.take (h : Quiet src P Q n j) : Quiet src P Q n.take j :=
  ⟨h.requests, fun b hb => h.inbox b (List.mem_of_mem_tail hb)⟩

theorem Due.take_other (h : Due src P Q A B n j) {b : β} {rest : List β} (hin : n.inbox = b :: rest) (hb : src b ≠ j) :
    Due src P Q A B n.take j := by
  cases h with
  | asked l a hreq hl ha hstray => exact .asked l a hreq hl ha fun x hx => hstray x (List.mem_of_mem_tail hx)
  | answered p x q hreq heq hx hgood hp hq =>
    rw [hin] at heq
    cases p with
    | nil =>
      obtain ⟨rfl, -⟩ := List.cons.inj heq
      exact absurd hx hb
    | cons y p =>
      obtain ⟨-, rfl⟩ := List.cons.inj heq
      refine .answered p x q hreq ?_ hx hgood (fun z hz => hp z (List.mem_cons_of_mem y hz)) hq
      show n.inbox.tail = _
      rw [hin]
      rfl

/-- What is read is a stray, or the reply of the round, and then nothing else is left of the server. -/
theorem Due.take (h : Due src P Q A B n j) {b : β} {rest : List β} (hin : n.inbox = b :: rest) (hb : src b = j) :
    Q b ∧ Due src P Q A B n.take j ∨ B j b ∧ Quiet src P Q n.take j := by
  have htail : n.take.inbox = rest := by
    show n.inbox.tail = rest
    rw [hin, List.tail_cons]
  cases h with
  | asked l a hreq hl ha hstray =>
    refine Or.inl ⟨hstray b (by rw [hin]; exact List.mem_cons_self) hb, ?_⟩
    exact .asked l a hreq hl ha fun x hx => hstray x (List.mem_of_mem_tail hx)
  | answered p x q hreq heq hx hgood hp hq =>
    rw [hin] at heq
    cases p with
    | nil =>
      obtain ⟨rfl, rfl⟩ := List.cons.inj heq
      refine Or.inr ⟨hgood, ⟨fun a ha => ?_, fun y hy hj => ?_⟩⟩
      · rw [show n.take.requests j = [] from hreq] at ha
        cases ha
      · rw [htail] at hy
        exact absurd hj (hq y hy)
    | cons y p =>
      obtain ⟨rfl, rfl⟩ := List.cons.inj heq
      refine Or.inl ⟨hp b List.mem_cons_self hb, ?_⟩
      exact .answered p x q hreq htail hx hgood (fun z hz => hp z (List.mem_cons_of_mem b hz)) hq

/-! ## Rounds -/

/-- Of `k` servers `i` have been read, and what that is to have done is `D`. -/
def Waiting (src : β → Nat) (P : α → Prop) (Q : β → Prop) (A : Nat → α → Prop) (B : Nat → β → Prop) (D : Nat → Prop)
    (n : Net α β) (k i : Nat) : Prop :=
  ∃ w : Finset Nat, w ⊆ Finset.range k ∧ w.card + i = k ∧ (∀ j ∈ w, Due src P Q A B n j) ∧
    ∀ j, j < k → j ∉ w → Quiet src P Q n j ∧ D j

variable {D D' : Nat → Prop} {k : Nat}

/-- Every server has been asked, and nothing has been read. -/
theorem Waiting.of_due (h : ∀ j, j < k → Due src P Q A B n j) : Waiting src P Q A B D n k 0 := by
  refine ⟨Finset.range k, Finset.Subset.refl _, by rw [Finset.card_range, Nat.add_zero], ?_, ?_⟩
  · intro j hj
    exact h j (Finset.mem_range.mp hj)
  · intro j hj hnot
    exact absurd (Finset.mem_range.mpr hj) hnot

theorem Waiting.reply (h : Waiting src P Q A B D n k i) {j : Nat} {o : Option β} (hsrc : ∀ b ∈ o, src b = j) {a : α}
    {rest : List α} (hreq : n.requests j = a :: rest) (hstray : P a → ∀ b ∈ o, Q b)
    (hgood : A j a → ∃ b, o = some b ∧ B' j b) (hB : ∀ l, l ≠ j → ∀ b, B l b → B' l b)
    (hD : ∀ l, (l = j → P a) → D l → D' l) : Waiting src P Q A B' D' (n.reply j o) k i := by
  obtain ⟨w, hw, hcard, hdue, hquiet⟩ := h
  refine ⟨w, hw, hcard, fun l hl => ?_, fun l hl hnot => ?_⟩
  · by_cases hlj : l = j
    · subst hlj
      exact (hdue l hl).reply hsrc hreq hstray hgood
    · exact (hdue l hl).reply_other hlj hsrc (hB l hlj)
  · obtain ⟨hq, hd⟩ := hquiet l hl hnot
    refine ⟨hq.reply hsrc hreq hstray, hD l ?_ hd⟩
    intro heq
    subst heq
    exact hq.requests a (by rw [hreq]; exact List.mem_cons_self)

/-- A read takes a stray, or it counts. -/
theorem Waiting.take (h : Waiting src P Q A B D n k i) {b : β} {rest : List β} (hin : n.inbox = b :: rest)
    (hb : src b < k) :
    Q b ∧ Waiting src P Q A B D n.take k i ∨
      B (src b) b ∧ ∀ D' : Nat → Prop, D' (src b) → (∀ l, l ≠ src b → D l → D' l) →
        Waiting src P Q A B D' n.take k (i + 1) := by
  obtain ⟨w, hw, hcard, hdue, hquiet⟩ := h
  have hothers : ∀ l ∈ w, l ≠ src b → Due src P Q A B n.take l := fun l hl hne =>
    (hdue l hl).take_other hin (Ne.symm hne)
  have hquiet' : ∀ l, l < k → l ∉ w → Quiet src P Q n.take l ∧ D l := fun l hl hnot =>
    ⟨(hquiet l hl hnot).1.take, (hquiet l hl hnot).2⟩
  by_cases hmem : src b ∈ w
  · rcases (hdue _ hmem).take hin rfl with ⟨hq, hd⟩ | ⟨hgood, hq⟩
    · refine Or.inl ⟨hq, w, hw, hcard, fun l hl => ?_, hquiet'⟩
      by_cases hl' : l = src b
      · rw [hl']
        exact hd
      · exact hothers l hl hl'
    · refine Or.inr ⟨hgood, fun D' hD' hD => ⟨w.erase (src b), ?_, ?_, fun l hl => ?_, fun l hl hnot => ?_⟩⟩
      · exact (Finset.erase_subset _ _).trans hw
      · have hpos := Finset.card_pos.mpr ⟨_, hmem⟩
        rw [Finset.card_erase_of_mem hmem]
        omega
      · obtain ⟨hne, hl⟩ := Finset.mem_erase.mp hl
        exact hothers l hl hne
      · by_cases hl' : l = src b
        · rw [hl']
          exact ⟨hq, hD'⟩
        · obtain ⟨hq', hd⟩ := hquiet' l hl fun hw' => hnot (Finset.mem_erase.mpr ⟨hl', hw'⟩)
          exact ⟨hq', hD l hl' hd⟩
  · refine Or.inl ⟨(hquiet _ hb hmem).1.inbox b (by rw [hin]; exact List.mem_cons_self) rfl, w, hw, hcard, fun l hl => ?_,
      hquiet'⟩
    refine hothers l hl ?_
    intro heq
    subst heq
    exact hmem hl

/-- What a server is asked is a stray or the request of the round. -/
theorem Waiting.request (h : Waiting src P Q A B D n k i) {j : Nat} (hj : j < k) {a : α} (ha : a ∈ n.requests j) :
    P a ∨ A j a := by
  obtain ⟨w, -, -, hdue, hquiet⟩ := h
  by_cases hmem : j ∈ w
  · cases hdue j hmem with
    | asked l x hreq hl hx =>
      rw [hreq] at ha
      rcases List.mem_append.mp ha with ha | ha
      · exact Or.inl (hl a ha)
      · obtain rfl := List.mem_singleton.mp ha
        exact Or.inr hx
    | answered p b q hreq =>
      rw [hreq] at ha
      cases ha
  · exact Or.inl ((hquiet j hj hmem).1.requests a ha)

theorem Waiting.all (h : Waiting src P Q A B D n k k) : ∀ j, j < k → Quiet src P Q n j ∧ D j := by
  obtain ⟨w, -, hcard, -, hquiet⟩ := h
  have hw : w = ∅ := Finset.card_eq_zero.mp (by omega)
  intro j hj
  refine hquiet j hj ?_
  rw [hw]
  exact Finset.notMem_empty j

/-- Something is left to do before the count is complete. -/
theorem Waiting.pending (h : Waiting src P Q A B D n k i) (hi : i < k) :
    n.inbox ≠ [] ∨ ∃ j, j < k ∧ n.requests j ≠ [] := by
  obtain ⟨w, hw, hcard, hdue, -⟩ := h
  obtain ⟨j, hj⟩ : w.Nonempty := Finset.card_pos.mp (by omega)
  cases hdue j hj with
  | asked l a hreq =>
    refine Or.inr ⟨j, Finset.mem_range.mp (hw hj), ?_⟩
    rw [hreq]
    exact List.append_ne_nil_of_right_ne_nil l (List.cons_ne_nil a [])
  | answered p b q _ hin =>
    refine Or.inl ?_
    rw [hin]
    exact List.append_ne_nil_of_right_ne_nil p (List.cons_ne_nil b q)

end Lib.Servers
