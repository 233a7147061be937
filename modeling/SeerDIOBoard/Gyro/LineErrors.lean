/-
  SeerDIOBoard.Gyro.LineErrors — a frame with one byte changed on the line.

  Behind the length byte no changed byte passes the checksum (`sumCheck_changed`). But
  nothing is escaped: a byte changed next to the right neighbour makes an A5 5A in the
  middle of the frame, and what follows is taken for a frame of its own, which may have a
  good checksum (`slipped_frame_accepted`). That is the only way for the error to reach
  the sensors (`line_error_silent`).

  Which bytes are taken for a frame depends on what has been received since the header,
  `Fresh`; `Sensing` says of a byte that it completes one that is stored in the sensor
  fields.
-/

import SeerDIOBoard.Gyro.Stale
import SeerDIOBoard.Lib.Bytes

namespace SeerDIOBoard.Gyro.Receiver

open Function (update)
open Lib.Machine
open Lib.Framing
open Lib.Bytes

/-! ## The bytes that reach the sensors -/

/-- Angles and motion are the only types that are stored. -/
def Stored (t : UInt8) : Prop := t = 0xa1 ∨ t = 0xa2

instance (t : UInt8) : Decidable (Stored t) := inferInstanceAs (Decidable (_ ∨ _))

theorem route_sensors {s : CGyroDevice} (h : ¬ Stored (s.rxBuffer 1)) : sensors (route s).1 = sensors s := by
  have h1 : ¬ s.rxBuffer 1 = 0xa1 := fun ht => h (.inl ht)
  have h2 : ¬ s.rxBuffer 1 = 0xa2 := fun ht => h (.inr ht)
  unfold route
  rw [if_neg h1, if_neg h2]
  repeat' split
  all_goals rfl

/-- `b` completes a frame with a good checksum; its type, if it is among the bytes
    received since the header, is one that is stored. -/
structure Sensing (w : UInt8) (g : Fresh) (b : UInt8) : Prop where
  tail : b ≠ 0xa5 ∧ b ≠ 0x5a
  full : g.index + 1 = ((g.store b).getD 0 0).toNat
  sum : sumCheck (memOf w (g.store b)) = true
  stored : 1 < (g.store b).length → Stored ((g.store b).getD 1 0)

theorem sensors_next {g : Fresh} {s : CGyroDevice} (h : Knows g s) {b : UInt8}
    (hb : ¬ Sensing (s.rxBuffer (-1)) g b) : sensors (decodeFrame s b).1 = sensors s := by
  have hi := h.index_le
  have hlen := Fresh.length_store h.wf b
  by_cases hcall : b ≠ 0xa5 ∧ b ≠ 0x5a ∧ g.index + 1 = ((g.store b).getD 0 0).toNat ∧
      sumCheck (memOf (s.rxBuffer (-1)) (g.store b)) = true
  · obtain ⟨ha, hb', hfull, hsum⟩ := hcall
    obtain ⟨h1, hother⟩ : 1 < (g.store b).length ∧ ¬ Stored ((g.store b).getD 1 0) := by
      by_contra hnot
      exact hb ⟨⟨ha, hb'⟩, hfull, hsum, fun hlt => by_contra fun ht => hnot ⟨hlt, ht⟩⟩
    have h0 : update s.rxBuffer s.rxWrIndex b 0 = (g.store b).getD 0 0 := h.stored b 0 (by omega)
    have htype : update s.rxBuffer s.rxWrIndex b 1 = (g.store b).getD 1 0 := h.stored b 1 h1
    obtain ⟨n, f, hq⟩ := decode_complete hi ha hb' (by rw [h0, h.index, hfull]) (by rw [h.sumCheck_eq hfull, hsum])
    rw [sensors_of_core hq.core_eq, route_sensors]
    · rfl
    · show ¬ Stored (update s.rxBuffer s.rxWrIndex b 1)
      rw [htype]
      exact hother
  · exact sensors_of_core (decode_core_quiet h hcall)

theorem sensors_feed (xs : List UInt8) {g : Fresh} {s : CGyroDevice} (h : Knows g s)
    (hxs : Along Fresh.next (fun g b => ¬ Sensing (s.rxBuffer (-1)) g b) g xs) : sensors (feed s xs) = sensors s := by
  induction xs generalizing g s with
  | nil => rfl
  | cons b xs ih =>
    have hi := h.index_le
    obtain ⟨hb, hrest⟩ := hxs
    rw [← decode_below hi b] at hrest
    exact (ih (knows_next h b) hrest).trans (sensors_next h hb)

/-! ## The checksum -/

theorem getD_set_ne {l : List UInt8} {i j : Nat} (h : i ≠ j) (x : UInt8) : (l.set i x).getD j 0 = l.getD j 0 := by
  rw [List.getD_eq_getElem?_getD, List.getElem?_set_ne h, List.getD_eq_getElem?_getD]

theorem getD_set_zero (body : List UInt8) {i : Nat} (hpos : 1 ≤ i) (x : UInt8) :
    (body.set i x).getD 0 0 = body.getD 0 0 := getD_set_ne (by omega) x

theorem getD_set_self {l : List UInt8} {i : Nat} (h : i < l.length) (x : UInt8) : (l.set i x).getD i 0 = x := by
  rw [List.getD_eq_getElem?_getD, List.getElem?_set_self h, Option.getD_some]

theorem getD_take {l : List UInt8} {i n : Nat} (h : i < n) : (l.take n).getD i 0 = l.getD i 0 := by
  rw [List.getD_eq_getElem?_getD, List.getElem?_take_of_lt h, List.getD_eq_getElem?_getD]

/-- Behind the length byte every changed byte shows. -/
theorem sumCheck_changed (w : UInt8) {body : List UInt8} (hframe : IsFrame body) {i : Nat} (hpos : 1 ≤ i)
    (hi : i + 2 ≤ body.length) {x : UInt8} (hx : x ≠ body.getD i 0) : sumCheck (memOf w (body.set i x)) = false := by
  have hlen : (body.set i x).length = body.length := List.length_set
  have hfirst : ((body.set i x).getD 0 0).toNat = (body.set i x).length := by
    rw [getD_set_zero body hpos, hlen, hframe.lengthByte]
  have hold := hframe.checksum
  refine Bool.eq_false_of_not_eq_true ?_
  intro hsum
  rw [sumCheck_memOf w _ (by omega) hfirst, hlen] at hsum
  by_cases hlast : i = body.length - 2
  · -- the checksum itself
    rw [← hlast, getD_set_self (by omega), List.take_set_of_le (Nat.le_refl i)] at hsum
    rw [← hlast] at hold
    exact hx (UInt8.toNat_inj.mp (hsum.trans hold.symm))
  · have hin : i < (body.take (body.length - 2)).length := by
      rw [List.length_take]
      omega
    rw [getD_set_ne hlast, hold, List.take_set] at hsum
    exact byteSum_set_mod hin (by rwa [getD_take (by omega)]) hsum.symm

/-! ## A frame inside the frame -/

/-- Somewhere in `body` stands a header, and what follows passes for a frame whose type,
    as the buffer then has it, is stored. -/
def Forged (w : UInt8) (body : List UInt8) : Prop :=
  ∃ u inner rest, body = u ++ 0xa5 :: 0x5a :: (inner ++ rest) ∧ Passes w inner ∧
    Stored ((overlay (u ++ [0xa5]) inner).getD 1 0)

theorem not_forged_of_noPair {w : UInt8} {body : List UInt8} (h : ¬ [0xa5, 0x5a] <:+: body) : ¬ Forged w body := by
  rintro ⟨u, inner, rest, rfl, -, -⟩
  exact h ⟨u, inner ++ rest, by simp⟩

theorem run_header {u : List UInt8} (hpair : ¬ [0xa5, 0x5a] <:+: u) (h49 : u.length ≤ 49) :
    run Fresh.next Fresh.header (u ++ [0xa5, 0x5a]) = ⟨u ++ [0xa5], 0, false⟩ := by
  have hidx : min u.length 49 = u.length := by omega
  have hstore : Fresh.store ⟨u, u.length, u.getLast? = some 0xa5⟩ 0xa5 = u ++ [0xa5] := if_neg (Nat.lt_irrefl _)
  have hfirst : Fresh.next ⟨u, u.length, u.getLast? = some 0xa5⟩ 0xa5 = ⟨u ++ [0xa5], min (u.length + 1) 49, true⟩ := by
    unfold Fresh.next
    rw [if_neg fun h => absurd h.1 (by decide), hstore]
    rfl
  rw [show u ++ [0xa5, 0x5a] = (u ++ [0xa5]) ++ [0x5a] by simp, run_snoc, run_snoc, fresh_run hpair (by omega), hidx,
    hfirst]
  rfl

/-- A call on the bytes behind an inner header is one on a frame forged there. -/
theorem passes_of_sensing {w : UInt8} {k v : List UInt8} {e : UInt8} {f : Bool}
    (h : Sensing w ⟨overlay k v, v.length, f⟩ e) (h50 : v.length + 1 ≤ 50) (hk : 1 < k.length) :
    Passes w (v ++ [e]) ∧ Stored ((overlay k (v ++ [e])).getD 1 0) := by
  obtain ⟨⟨ha, hb⟩, hfull, hsum, hstored⟩ := h
  rw [store_overlay] at hfull hsum hstored
  have hcover : ∀ i, i < v.length + 1 → (overlay k (v ++ [e])).getD i 0 = (v ++ [e]).getD i 0 := by
    intro i hi
    exact List.getD_append _ _ _ _ (by rw [List.length_append, List.length_singleton]; exact hi)
  rw [hcover 0 (by omega)] at hfull
  dsimp only at hfull
  refine ⟨⟨e, by simp, ha, hb, ?_, ?_⟩, hstored ?_⟩
  · unfold Full
    rw [← hfull, List.length_append, List.length_singleton]
    omega
  · rw [← hsum]
    refine sumCheck_congr ?_ rfl ?_ ?_
    · show memOf w _ ((0 : Nat) : Int) = memOf w _ ((0 : Nat) : Int)
      rw [memOf_nat, memOf_nat, hcover 0 (by omega)]
    · show 0 < (memOf w _ ((0 : Nat) : Int)).toNat
      rw [memOf_nat, ← hfull]
      omega
    · intro i hi
      have h0 : memOf w (v ++ [e]) 0 = (v ++ [e]).getD 0 0 := memOf_nat w _ 0
      rw [h0, ← hfull] at hi
      rw [memOf_nat, memOf_nat, hcover i (by omega)]
  · unfold overlay
    rw [List.length_append, List.length_append, List.length_drop, List.length_singleton]
    omega

/-! ## One changed byte -/

/-- Behind a header that the changed byte makes, a call is one on a forged frame. -/
theorem forged_of_sensing {w : UInt8} {body : List UInt8} (hframe : IsFrame body) (hpair : ¬ [0xa5, 0x5a] <:+: body)
    {i : Nat} (hpos : 1 ≤ i) {x : UInt8} {u v q : List UInt8} {e : UInt8}
    (hset : body.set i x = u ++ 0xa5 :: 0x5a :: (v ++ e :: q))
    (hsense : Sensing w (run Fresh.next Fresh.header (u ++ [0xa5, 0x5a] ++ v)) e) : Forged w (body.set i x) := by
  have h50 := hframe.le_fifty
  have hL := hframe.lengthByte
  obtain ⟨hu, hv⟩ := around_pair_set hpair hset
  have hupair : ¬ [0xa5, 0x5a] <:+: u := fun h => hpair (h.trans hu.isInfix)
  have hvpair : ¬ [0xa5, 0x5a] <:+: v := fun h => hpair ((h.trans ⟨[], e :: q, by simp⟩).trans hv.isInfix)
  have hlen : body.length = u.length + v.length + q.length + 3 := by
    rw [← List.length_set, hset]
    simp only [List.length_append, List.length_cons]
    omega
  have hune : 0 < u.length := by
    -- the length byte is no A5
    refine List.length_pos_iff.mpr ?_
    intro heq
    subst heq
    rw [← getD_set_zero body hpos x, hset] at hL
    have h165 : body.length = 165 := hL.symm
    omega
  have hidx : min v.length 49 = v.length := by omega
  rw [run_append, run_header hupair (by omega), run_overlay _ hvpair (by omega), hidx] at hsense
  have hknown : 1 < (u ++ [0xa5]).length := by
    rw [List.length_append, List.length_singleton]
    omega
  obtain ⟨hpass, hstored⟩ := passes_of_sensing hsense (by omega) hknown
  exact ⟨u, v ++ [e], q, by rw [hset]; simp, hpass, hstored⟩

/-- No byte of the changed frame reaches the sensors, unless it completes a forged one. -/
theorem changed_not_sensing (w : UInt8) {body : List UInt8} (hframe : IsFrame body) (hpair : ¬ [0xa5, 0x5a] <:+: body)
    {i : Nat} (hpos : 1 ≤ i) (hi : i + 2 ≤ body.length) {x : UInt8} (hx : x ≠ body.getD i 0)
    (hno : ¬ Forged w (body.set i x)) :
    Along Fresh.next (fun g b => ¬ Sensing w g b) Fresh.header (body.set i x) := by
  refine (along_iff_forall _ _).mpr ?_
  intro p e q he hsense
  by_cases hp : [0xa5, 0x5a] <:+: p
  · obtain ⟨u, v, rfl⟩ := hp
    have hset : body.set i x = u ++ 0xa5 :: 0x5a :: (v ++ e :: q) := by
      rw [he]
      simp
    exact hno (forged_of_sensing hframe hpair hpos hset hsense)
  · -- the whole frame, and its checksum is wrong
    have hlen : (body.set i x).length = body.length := List.length_set
    obtain ⟨-, hfull, hsum, -⟩ := hsense
    have hfirst : ((body.set i x).getD 0 0).toNat = (body.set i x).length := by
      rw [getD_set_zero body hpos, hframe.lengthByte, hlen]
    obtain ⟨-, hstore⟩ := full_last (by rw [hlen]; exact hframe.le_fifty) hfirst hp he hfull
    rw [hstore, sumCheck_changed w hframe hpos hi hx] at hsum
    exact Bool.false_ne_true hsum

theorem line_error_silent (s : CGyroDevice) (hs : s.rxWrIndex ≤ 49) (body : List UInt8) (hframe : IsFrame body)
    (hpair : ¬ [0xa5, 0x5a] <:+: body) (i : Nat) (hpos : 1 ≤ i) (hi : i + 2 ≤ body.length) (x : UInt8)
    (hx : x ≠ body.getD i 0) (hno : ¬ Forged (s.rxBuffer (-1)) (body.set i x)) :
    sensors (feed s (0xa5 :: 0x5a :: body.set i x)) = sensors s := by
  have hknows := knows_header hs
  have hbelow := (sim_header s hs).below
  have halong := changed_not_sensing _ hframe hpair hpos hi hx hno
  rw [← hbelow] at halong
  have hbody := sensors_feed _ hknows halong
  exact hbody.trans (sensors_of_core (header_quiet s).core_eq)

/-- An angle frame of six bytes whose yaw is changed. -/
theorem line_error_silent_angles :
    sensors (feed (default : CGyroDevice) (0xa5 :: 0x5a :: [6, 0xa1, 0, 0, 0xa7, 0xaa].set 2 1)) =
      sensors (default : CGyroDevice) :=
  line_error_silent default (by decide) [6, 0xa1, 0, 0, 0xa7, 0xaa] ⟨by decide, by decide, by decide, by decide⟩
    (by decide) 2 (by decide) (by decide) 1 (by decide) (not_forged_of_noPair (by decide))

/-- Sent as .. 00 5A 04 A1 A5 00 ..; with the first of these an A5 the next four bytes
    after the header pass for an angle frame. -/
def skidding : Motion := ⟨90, 1185, -9472, 0, 0, 0, 0, 0, 0⟩

theorem slipped_frame_accepted : IsFrame skidding.frame ∧ ¬ [0xa5, 0x5a] <:+: skidding.frame ∧
    skidding.frame.getD 2 0 = 0 ∧
    (sensors (feed (default : CGyroDevice) (0xa5 :: 0x5a :: skidding.frame.set 2 0xa5))).yaw ≠
      (sensors (default : CGyroDevice)).yaw := by
  refine ⟨skidding.isFrame, by decide, by decide, ?_⟩
  decide +kernel

end SeerDIOBoard.Gyro.Receiver
