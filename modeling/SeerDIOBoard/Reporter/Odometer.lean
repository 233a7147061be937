/-
  SeerDIOBoard.Reporter.Odometer — the odometer message (`CMileage::report`,
  src/Mileage.cxx): how it is filled, over a sequence of calls. The locks around it and the
  buffer it is encoded into are in Reporter.Buffer.

  The message should carry the time of the call and the velocities since the call before.
  The timestamp is the difference of the clock reading and itself, so that `data_nsec` is
  the NTP base offset alone. And `xTimeLast` is compared with zero and subtracted, but
  nothing ever assigns it: every call takes 10 ms for the time that has passed.

  `real_time_iff`: no message from the second one on has the time of its call, and its
  velocities are right where the chassis stood still or 10 ms have passed.
-/

import Mathlib.Algebra.GroupWithZero.Units.Basic
import SeerDIOBoard.Dispatch.TimeSync
import SeerDIOBoard.Mileage.Samples

namespace SeerDIOBoard.Reporter

open Lib.Machine
open SeerDIOBoard.Mileage
open SeerDIOBoard.Dispatch (Timeval)

/-! ## CMileage::report -/

/-- `rbk_protocol_Message_Odometer`, with the `data_nsec` of its header. -/
structure Odometer where
  dataNsec : UInt64
  cycle : Nat
  x : ℚ
  y : ℚ
  angle : ℚ
  isStop : Bool
  velX : ℚ
  velY : ℚ
  velRotate : ℚ
  /-- The first `encoder_count` entries. -/
  encoder : List Int
  steerAngle : ℚ
  spinAngle : ℚ
  deriving DecidableEq, Repr

/-- What a call finds: the object, the clock, and the offset of the time synchronisation. -/
structure Call where
  mileage : CMileage
  steerAngle : ℚ
  steerVel : ℚ
  now : Timeval
  ntpBaseOffset_ns : UInt64

/-- What `report` keeps: `timestamp_nsec_` and `car_rotate` of the object, and the statics. -/
structure Timing where
  timestampNsec : UInt64
  carRotate : ℚ
  prevTime : UInt64
  xTimeLast : Timeval
  xTimeCur : Timeval

/-- At start-up. The two fields of the object are as the memory is. -/
def Timing.start (timestampNsec : UInt64) (carRotate : ℚ) : Timing where
  timestampNsec := timestampNsec
  carRotate := carRotate
  prevTime := 1
  xTimeLast := ⟨0, 0⟩
  xTimeCur := ⟨0, 0⟩

/-- The nanoseconds from `b` to `a`, in the 32 bits of `time_t` and `long`. -/
def diff_ns (a b : Timeval) : UInt64 :=
  ((a.tv_sec - b.tv_sec) * 1000000000 + (a.tv_usec - b.tv_usec) * 1000).toUInt64

def Timing.deltatime (s : Timing) : UInt64 :=
  if s.xTimeLast.tv_usec = 0 ∧ s.xTimeLast.tv_sec = 0 then 10000000 else diff_ns s.xTimeCur s.xTimeLast

def report (ar : Arith) (s : Timing) (c : Call) : Odometer × Timing :=
  let m := c.mileage
  let timestampNsec := diff_ns c.now c.now
  let pbMsg : Odometer :=
    { dataNsec := timestampNsec + c.ntpBaseOffset_ns
      cycle := 0
      x := m.x
      y := m.y
      angle := m.angle
      isStop := m.stopped
      velX := 0
      velY := 0
      velRotate := 0
      encoder := (List.range m.numOfWheel).map fun i => ar.int32 (m.staticP i * m.invOne i)
      steerAngle := c.steerAngle
      spinAngle := 0 }
  let s := { s with timestampNsec := timestampNsec, xTimeCur := c.now }
  if 0 < s.deltatime then
    let seconds : ℚ := s.deltatime.toNat / 1000000000
    let carRotate := m.deltaAngle / seconds
    ({ pbMsg with
        velX := if singleSteerPrec = m.chassisType then c.steerVel else m.deltaX / seconds
        velY := m.deltaY / seconds
        velRotate := carRotate },
      { s with carRotate := carRotate, prevTime := timestampNsec })
  else (pbMsg, { s with prevTime := timestampNsec })

def reported (ar : Arith) (s : Timing) (c : Call) : Timing := (report ar s c).2

/-! ## Real time -/

/-- From one call to the next, in seconds. -/
def elapsed (a c : Call) : ℚ := ((c.now.ns : ℚ) - a.now.ns) / 1000000000

/-- The velocities of a call that follows `a`. -/
structure Velocities (ar : Arith) (s : Timing) (a c : Call) : Prop where
  velX : (report ar s c).1.velX = c.mileage.deltaX / elapsed a c
  velY : (report ar s c).1.velY = c.mileage.deltaY / elapsed a c
  velRotate : (report ar s c).1.velRotate = c.mileage.deltaAngle / elapsed a c

/-- The message carries the time of its call, and the velocities since the one before. -/
structure RealTime (ar : Arith) (s : Timing) (a c : Call) : Prop where
  velocities : Velocities ar s a c
  dataNsec : (report ar s c).1.dataNsec = UInt64.ofNat c.now.ns + c.ntpBaseOffset_ns

/-- Every message from the second one on. -/
def AllRealTime (ar : Arith) (s : Timing) (cs : List Call) : Prop :=
  ∀ p a c q, cs = p ++ a :: c :: q → RealTime ar (run (reported ar) s (p ++ [a])) a c

/-- Nothing has moved since the call before. -/
def Still (m : CMileage) : Prop := m.deltaX = 0 ∧ m.deltaY = 0 ∧ m.deltaAngle = 0

theorem diff_ns_self (t : Timeval) : diff_ns t t = 0 := by
  unfold diff_ns
  rw [UInt32.sub_self, UInt32.sub_self, UInt32.zero_mul, UInt32.zero_mul, UInt32.add_zero]
  decide

/-- `xTimeLast` is not assigned. -/
theorem reported_xTimeLast (ar : Arith) (s : Timing) (c : Call) : (reported ar s c).xTimeLast = s.xTimeLast := by
  simp only [reported, report, apply_ite Prod.snd, apply_ite Timing.xTimeLast, ite_self]

theorem run_xTimeLast (ar : Arith) (cs : List Call) (s : Timing) :
    (run (reported ar) s cs).xTimeLast = s.xTimeLast :=
  inv_run_all (I := fun s' : Timing => s'.xTimeLast = s.xTimeLast)
    (fun s' c h => (reported_xTimeLast ar s' c).trans h) cs s rfl

theorem report_dataNsec (ar : Arith) (s : Timing) (c : Call) : (report ar s c).1.dataNsec = c.ntpBaseOffset_ns := by
  have h : (report ar s c).1.dataNsec = diff_ns c.now c.now + c.ntpBaseOffset_ns := by
    unfold report
    dsimp only
    rw [apply_ite Prod.fst, apply_ite Odometer.dataNsec, ite_self]
  rw [h, diff_ns_self, UInt64.zero_add]

/-- While `xTimeLast` is zero, 10 ms have passed. -/
theorem report_tenMs (ar : Arith) {s : Timing} (hs : s.xTimeLast = ⟨0, 0⟩) (c : Call)
    (htype : c.mileage.chassisType ≠ singleSteerPrec) :
    (report ar s c).1.velX = c.mileage.deltaX / (1 / 100) ∧ (report ar s c).1.velY = c.mileage.deltaY / (1 / 100) ∧
      (report ar s c).1.velRotate = c.mileage.deltaAngle / (1 / 100) := by
  have hdelta : ({ s with timestampNsec := diff_ns c.now c.now, xTimeCur := c.now } : Timing).deltatime = 10000000 := by
    unfold Timing.deltatime
    rw [if_pos ⟨congrArg Timeval.tv_usec hs, congrArg Timeval.tv_sec hs⟩]
  have hseconds : (((10000000 : UInt64).toNat : Nat) : ℚ) / 1000000000 = 1 / 100 := by
    rw [show (10000000 : UInt64).toNat = 10000000 from rfl]
    norm_num
  unfold report
  dsimp only
  rw [hdelta, if_pos (by decide), if_neg fun h => htype h.symm, hseconds]
  exact ⟨rfl, rfl, rfl⟩

/-- A distance in two times. -/
theorem div_eq_div_iff_still (d t u : ℚ) : d / t = d / u ↔ d = 0 ∨ t = u := by
  by_cases hd : d = 0
  · rw [hd, zero_div, zero_div]
    exact iff_of_true rfl (.inl rfl)
  · rw [div_eq_mul_inv, div_eq_mul_inv, mul_right_inj' hd, inv_inj]
    exact (or_iff_right hd).symm

theorem velocities_iff (ar : Arith) {s : Timing} (hs : s.xTimeLast = ⟨0, 0⟩) (a c : Call)
    (htype : c.mileage.chassisType ≠ singleSteerPrec) :
    Velocities ar s a c ↔ Still c.mileage ∨ elapsed a c = 1 / 100 := by
  obtain ⟨hx, hy, hrotate⟩ := report_tenMs ar hs c htype
  constructor
  · intro h
    by_cases ht : elapsed a c = 1 / 100
    · exact .inr ht
    · have hzero : ∀ d : ℚ, d / (1 / 100) = d / elapsed a c → d = 0 := fun d hd =>
        ((div_eq_div_iff_still d _ _).mp hd).resolve_right (Ne.symm ht)
      exact .inl ⟨hzero _ (hx.symm.trans h.velX), hzero _ (hy.symm.trans h.velY),
        hzero _ (hrotate.symm.trans h.velRotate)⟩
  · intro h
    have hdiv : ∀ d : ℚ, (Still c.mileage → d = 0) → d / (1 / 100) = d / elapsed a c := fun d hd =>
      (div_eq_div_iff_still d _ _).mpr (h.imp hd Eq.symm)
    exact ⟨hx.trans (hdiv _ fun hstill => hstill.1), hy.trans (hdiv _ fun hstill => hstill.2.1),
      hrotate.trans (hdiv _ fun hstill => hstill.2.2)⟩

/-- A message with no time in it has the right one only at the clock's zero. -/
theorem dataNsec_iff (ar : Arith) (s : Timing) (c : Call) :
    (report ar s c).1.dataNsec = UInt64.ofNat c.now.ns + c.ntpBaseOffset_ns ↔ c.now.ns = 0 := by
  rw [report_dataNsec, eq_comm, UInt64.add_eq_right, ← UInt64.toNat_inj, UInt64.toNat_ofNat',
    Nat.mod_eq_of_lt (c.now.ns_lt)]
  rfl

theorem real_time_iff (ar : Arith) (timestampNsec : UInt64) (carRotate : ℚ) (cs : List Call)
    (hclock : cs.Pairwise fun a c => a.now.ns < c.now.ns)
    (htype : ∀ c ∈ cs, c.mileage.chassisType ≠ singleSteerPrec) :
    (AllRealTime ar (.start timestampNsec carRotate) cs ↔ cs.length < 2) ∧
      ∀ p a c q, cs = p ++ a :: c :: q →
        (Velocities ar (run (reported ar) (.start timestampNsec carRotate) (p ++ [a])) a c ↔
          Still c.mileage ∨ elapsed a c = 1 / 100) := by
  refine ⟨⟨fun h => ?_, fun hlen p a c q he => ?_⟩, fun p a c q he => ?_⟩
  · by_contra hlen
    match cs, hlen with
    | [], hlen => exact absurd Nat.zero_lt_two hlen
    | [a], hlen => exact absurd Nat.one_lt_two hlen
    | a :: c :: q, _ =>
      have hlt : a.now.ns < c.now.ns := (List.pairwise_cons.mp hclock).1 c (List.mem_cons_self ..)
      have hzero := (dataNsec_iff ar _ c).mp (h [] a c q rfl).dataNsec
      omega
  · have hlong : 2 ≤ cs.length := by
      rw [he, List.length_append, List.length_cons, List.length_cons]
      omega
    omega
  · refine velocities_iff ar ((run_xTimeLast ar (p ++ [a]) _).trans rfl) a c (htype c ?_)
    rw [he]
    simp

/-- A call of a new object whose last sample moved it by 2 cm. -/
def callAt (now : Timeval) : Call where
  mileage := { CMileage.new 0 with deltaX := 1 / 50 }
  steerAngle := 0
  steerVel := 0
  now := now
  ntpBaseOffset_ns := 0

/-- Calls 10 ms apart: the velocities happen to be right. -/
theorem real_time_tenMs :
    ¬ AllRealTime CMileage.board (.start 0 0) [callAt ⟨1, 0⟩, callAt ⟨1, 10000⟩] ∧
      Velocities CMileage.board (run (reported CMileage.board) (.start 0 0) [callAt ⟨1, 0⟩]) (callAt ⟨1, 0⟩)
        (callAt ⟨1, 10000⟩) := by
  have htype : ∀ c ∈ [callAt ⟨1, 0⟩, callAt ⟨1, 10000⟩], c.mileage.chassisType ≠ singleSteerPrec := by
    intro c hc
    obtain rfl | rfl : c = callAt ⟨1, 0⟩ ∨ c = callAt ⟨1, 10000⟩ := by simpa using hc
    · decide
    · decide
  obtain ⟨hall, hvel⟩ := real_time_iff CMileage.board 0 0 [callAt ⟨1, 0⟩, callAt ⟨1, 10000⟩] (by decide) htype
  have hlast : (callAt ⟨1, 10000⟩).now.ns = 1010000000 := by decide
  have hfirst : (callAt ⟨1, 0⟩).now.ns = 1000000000 := by decide
  refine ⟨fun h => absurd (hall.mp h) (by decide), (hvel [] _ _ [] rfl).mpr (.inr ?_)⟩
  rw [elapsed, hlast, hfirst]
  norm_num

/-- 20 ms apart: no time, and twice the velocity. -/
theorem twentyMs_not_real_time :
    ¬ AllRealTime CMileage.board (.start 0 0) [callAt ⟨1, 0⟩, callAt ⟨1, 20000⟩] ∧
      ¬ Velocities CMileage.board (run (reported CMileage.board) (.start 0 0) [callAt ⟨1, 0⟩]) (callAt ⟨1, 0⟩)
        (callAt ⟨1, 20000⟩) := by
  have hlast : (callAt ⟨1, 20000⟩).now.ns = 1020000000 := by decide
  have hfirst : (callAt ⟨1, 0⟩).now.ns = 1000000000 := by decide
  constructor
  · intro h
    have hzero := (dataNsec_iff CMileage.board _ _).mp (h [] (callAt ⟨1, 0⟩) (callAt ⟨1, 20000⟩) [] rfl).dataNsec
    omega
  · intro h
    rcases (velocities_iff CMileage.board rfl _ _ (by decide)).mp h with hstill | ht
    · have hx : (1 / 50 : ℚ) = 0 := hstill.1
      norm_num at hx
    · rw [elapsed, hlast, hfirst] at ht
      norm_num at ht

end SeerDIOBoard.Reporter
