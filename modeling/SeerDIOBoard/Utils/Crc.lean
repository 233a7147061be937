/-
  SeerDIOBoard.Utils.Crc — the two CRC-8 routines (src/src/Utils.cxx).

  The message is a list of 16-bit words that each hold a byte. `checkCRC8` shifts its
  accumulator down and reads a byte from its least significant bit on; `checkCRC8_2`
  shifts up and reads it from the most significant bit on. Both are a register of eight
  bits over the message's bits (`checkCRC8_eq`, `checkCRC8_2_eq`):
  - the 16-bit accumulator of `checkCRC8` never leaves the byte values
    (`checkCRC8Bit_wide`);
  - the high bits that `checkCRC8_2` carries within a byte never come back into its low
    eight (`low_checkCRC8_2Bit`), and are masked away at the byte's end.
  A non-zero error within eight consecutive bits changes either check byte (`crc8_burst`).
-/

import SeerDIOBoard.Lib.Crc

namespace SeerDIOBoard.Utils

open Lib.Crc

/-- The body of the bit loop of `checkCRC8`. -/
def checkCRC8Bit (crc : UInt16) : UInt16 :=
  if crc &&& 0x01 ≠ 0 then (crc >>> 1) ^^^ 0x8C else crc >>> 1

/-- The list is the `len` words from `ptr` on. -/
def checkCRC8 (ptr : List UInt16) : UInt16 :=
  ptr.foldl (fun crc w => checkCRC8Bit^[8] (crc ^^^ w)) 0

/-- The body of the bit loop of `checkCRC8_2`. -/
def checkCRC8_2Bit (CRC : UInt16) : UInt16 :=
  if CRC &&& 0x80 ≠ 0 then (CRC <<< 1) ^^^ 0x07 else CRC <<< 1

/-- The list is the `datalen` words from `data` on. -/
def checkCRC8_2 (data : List UInt16) : UInt16 :=
  data.foldl (fun CRC c => checkCRC8_2Bit^[8] (CRC ^^^ c) &&& 0xff) 0

/-! ## The low eight bits -/

def low (c : UInt16) : BitVec 8 := c.toBitVec.setWidth 8

def wide (x : BitVec 8) : UInt16 := ⟨x.setWidth 16⟩

theorem low_wide (x : BitVec 8) : low (wide x) = x := by
  simp [low, wide, BitVec.setWidth_setWidth_of_le]

theorem wide_injective {x y : BitVec 8} (h : wide x = wide y) : x = y := by
  rw [← low_wide x, h, low_wide]

theorem wide_le (x : BitVec 8) : wide x ≤ 255 := by
  have hx := x.isLt
  have hnat : (wide x).toNat = x.toNat := by
    show (x.setWidth 16).toNat = _
    rw [BitVec.toNat_setWidth]
    omega
  rw [UInt16.le_iff_toNat_le, hnat]
  exact Nat.le_of_lt_succ hx

theorem wide_low (c : UInt16) : wide (low c) = c &&& 0xff := by
  apply UInt16.toNat_inj.mp
  have hmod : (wide (low c)).toNat = c.toNat % 2 ^ 8 := by
    show (BitVec.setWidth 16 (BitVec.setWidth 8 c.toBitVec)).toNat = _
    rw [BitVec.toNat_setWidth, BitVec.toNat_setWidth]
    simp
    omega
  rw [hmod, UInt16.toNat_and]
  exact (Nat.and_two_pow_sub_one_eq_mod c.toNat 8).symm

theorem wide_low_of_le {c : UInt16} (h : c ≤ 255) : wide (low c) = c := by
  rw [wide_low]
  apply UInt16.toNat_inj.mp
  have hc : c.toNat < 2 ^ 8 := Nat.lt_succ_of_le (UInt16.le_iff_toNat_le.mp h)
  rw [UInt16.toNat_and]
  exact (Nat.and_two_pow_sub_one_eq_mod c.toNat 8).trans (Nat.mod_eq_of_lt hc)

theorem low_xor (a b : UInt16) : low (a ^^^ b) = low a ^^^ low b := by
  simp [low]

theorem wide_xor (x y : BitVec 8) : wide (x ^^^ y) = wide x ^^^ wide y := by
  apply UInt16.toBitVec_inj.mp
  simp [wide]

theorem checkCRC8Bit_wide (x : BitVec 8) : checkCRC8Bit (wide x) = wide (shift 0x8C#8 x) := by
  revert x
  decide

theorem low_shiftLeft (c : UInt16) : low (c <<< 1) = low c <<< 1 :=
  BitVec.setWidth_shiftLeft_of_le (by decide)

theorem msb_low (c : UInt16) : (low c).msb = true ↔ c &&& 0x80 ≠ 0 := by
  have hand : (c &&& 0x80).toBitVec = if c.toBitVec.getLsbD 7 then BitVec.twoPow 16 7 else 0#16 :=
    BitVec.and_twoPow c.toBitVec 7
  have hmsb : (low c).msb = c.toBitVec.getLsbD 7 := by
    rw [BitVec.msb_eq_getLsbD_last, low, BitVec.getLsbD_setWidth]
    rfl
  rw [hmsb, ne_eq, ← UInt16.toBitVec_inj, hand]
  cases c.toBitVec.getLsbD 7 <;> decide

theorem low_checkCRC8_2Bit (c : UInt16) : low (checkCRC8_2Bit c) = shiftUp 0x07#8 (low c) := by
  unfold checkCRC8_2Bit shiftUp
  by_cases h : c &&& 0x80 ≠ 0
  · rw [if_pos h, if_pos ((msb_low c).mpr h), low_xor, low_shiftLeft]
    rfl
  · rw [if_neg h, if_neg fun hm => h ((msb_low c).mp hm), low_shiftLeft]

/-! ## The bits of a message -/

/-- The bits of a byte, the least significant first. -/
def lsbFirst (c : UInt16) : List Bool := (List.range 8).map c.toNat.testBit

/-- The bits of a byte, the most significant first. -/
def msbFirst (c : UInt16) : List Bool := (lsbFirst c).reverse

theorem word_lsbFirst (c : UInt16) : word (lsbFirst c) = low c := by
  apply BitVec.eq_of_getLsbD_eq
  intro i hi
  rw [getLsbD_word hi, lsbFirst, List.getElem?_map, List.getElem?_range hi, low, BitVec.getLsbD_setWidth]
  simp [hi, BitVec.getLsbD]

theorem word_msbFirst (c : UInt16) : word (msbFirst c) = (low c).reverse := by
  apply BitVec.eq_of_getLsbD_eq
  intro i hi
  rw [getLsbD_word hi, BitVec.getLsbD_reverse, BitVec.getMsbD_eq_getLsbD, msbFirst,
    List.getElem?_reverse (by simpa [lsbFirst] using hi), ← word_lsbFirst, getLsbD_word (by omega)]
  simp [hi, lsbFirst]

/-- One byte of `checkCRC8`. -/
theorem checkCRC8_byte (s : BitVec 8) {c : UInt16} (hc : c ≤ 255) :
    checkCRC8Bit^[8] (wide s ^^^ c) = wide (remainder 0x8C#8 s (lsbFirst c)) := by
  have hbits (n : Nat) (x : BitVec 8) : checkCRC8Bit^[n] (wide x) = wide ((shift 0x8C#8)^[n] x) :=
    (Function.Semiconj.iterate_right (fun y => (checkCRC8Bit_wide y).symm) n x).symm
  rw [← wide_low_of_le hc, ← wide_xor, hbits, wide_low_of_le hc, remainder_eq (by simp [lsbFirst]),
    word_lsbFirst]
  simp [lsbFirst]

/-- One byte of `checkCRC8_2`: the same register read from its other end. -/
theorem checkCRC8_2_byte (s : BitVec 8) (c : UInt16) :
    checkCRC8_2Bit^[8] (wide s.reverse ^^^ c) &&& 0xff = wide (remainder 0xE0#8 s (msbFirst c)).reverse := by
  have hbits (n : Nat) (x : UInt16) : (low (checkCRC8_2Bit^[n] x)).reverse = (shift 0xE0#8)^[n] (low x).reverse := by
    refine Function.Semiconj.iterate_right (f := fun y => (low y).reverse) (fun y => ?_) n x
    show (low (checkCRC8_2Bit y)).reverse = _
    rw [low_checkCRC8_2Bit, reverse_shiftUp]
    rfl
  rw [← wide_low, remainder_eq (by simp [msbFirst, lsbFirst]), word_msbFirst]
  have hin : (low (wide s.reverse ^^^ c)).reverse = s ^^^ (low c).reverse := by
    rw [low_xor, low_wide, reverse_xor, BitVec.reverse_reverse_eq]
  have hlen : (msbFirst c).length = 8 := by simp [msbFirst, lsbFirst]
  rw [hlen, ← hin, ← hbits, BitVec.reverse_reverse_eq]

theorem checkCRC8_eq {ptr : List UInt16} (h : ∀ c ∈ ptr, c ≤ 255) :
    checkCRC8 ptr = wide (remainder 0x8C#8 0#8 (ptr.flatMap lsbFirst)) := by
  suffices hs : ∀ s, ptr.foldl (fun crc w => checkCRC8Bit^[8] (crc ^^^ w)) (wide s) =
      wide (remainder 0x8C#8 s (ptr.flatMap lsbFirst)) from hs 0#8
  induction ptr with
  | nil => exact fun s => rfl
  | cons c ptr ih =>
    intro s
    rw [List.forall_mem_cons] at h
    rw [List.foldl_cons, checkCRC8_byte s h.1, ih h.2, List.flatMap_cons, remainder_append]

theorem checkCRC8_2_eq (data : List UInt16) :
    checkCRC8_2 data = wide (remainder 0xE0#8 0#8 (data.flatMap msbFirst)).reverse := by
  suffices hs : ∀ s : BitVec 8, data.foldl (fun CRC c => checkCRC8_2Bit^[8] (CRC ^^^ c) &&& 0xff) (wide s.reverse) =
      wide (remainder 0xE0#8 s (data.flatMap msbFirst)).reverse from hs 0#8
  induction data with
  | nil => exact fun s => rfl
  | cons c data ih =>
    intro s
    rw [List.foldl_cons, checkCRC8_2_byte, ih, List.flatMap_cons, remainder_append]

/-! ## Errors -/

/-- An error pattern of bytes, added to a message of its length. -/
def corrupt (ptr e : List UInt16) : List UInt16 := List.zipWith (· ^^^ ·) ptr e

theorem lsbFirst_xor (a b : UInt16) : lsbFirst (a ^^^ b) = List.zipWith xor (lsbFirst a) (lsbFirst b) := by
  simp [lsbFirst, List.zipWith_map, List.zipWith_self, Nat.testBit_xor]

theorem msbFirst_xor (a b : UInt16) : msbFirst (a ^^^ b) = List.zipWith xor (msbFirst a) (msbFirst b) := by
  rw [msbFirst, lsbFirst_xor, List.reverse_zipWith (by simp [lsbFirst])]
  rfl

/-- `r` reads eight bits from a byte and adds as the bytes do. -/
theorem flatMap_corrupt {r : UInt16 → List Bool} (hlen : ∀ c, (r c).length = 8)
    (hxor : ∀ a b, r (a ^^^ b) = List.zipWith xor (r a) (r b)) {ptr e : List UInt16}
    (h : ptr.length = e.length) :
    (corrupt ptr e).flatMap r = List.zipWith xor (ptr.flatMap r) (e.flatMap r) ∧
      (ptr.flatMap r).length = (e.flatMap r).length := by
  induction ptr generalizing e with
  | nil =>
    cases e with
    | nil => exact ⟨rfl, rfl⟩
    | cons _ _ => cases h
  | cons a ptr ih =>
    cases e with
    | nil => cases h
    | cons b e =>
      obtain ⟨heq, hl⟩ := ih (Nat.succ.inj h)
      have hab : (r a).length = (r b).length := (hlen a).trans (hlen b).symm
      constructor
      · show r (a ^^^ b) ++ (corrupt ptr e).flatMap r = _
        rw [heq, hxor, List.flatMap_cons, List.flatMap_cons, List.zipWith_append hab]
      · rw [List.flatMap_cons, List.flatMap_cons, List.length_append, List.length_append, hab, hl]

theorem true_mem_lsbFirst {c : UInt16} (h : c ≤ 255) (h0 : c ≠ 0) : true ∈ lsbFirst c := by
  by_contra hno
  have hbit (i : Nat) (hi : i < 8) : c.toNat.testBit i = false := by
    cases hb : c.toNat.testBit i with
    | false => rfl
    | true => exact absurd (List.mem_map.mpr ⟨i, List.mem_range.mpr hi, hb⟩) hno
  have hlow : low c = 0#8 := BitVec.eq_of_getLsbD_eq fun i hi => by
    rw [low, BitVec.getLsbD_setWidth, BitVec.getLsbD_zero]
    simpa [BitVec.getLsbD] using fun _ => hbit i hi
  rw [← wide_low_of_le h, hlow] at h0
  exact h0 rfl

theorem xor_le {a b : UInt16} (ha : a ≤ 255) (hb : b ≤ 255) : a ^^^ b ≤ 255 := by
  rw [← wide_low_of_le ha, ← wide_low_of_le hb, ← wide_xor]
  exact wide_le _

theorem corrupt_le {ptr e : List UInt16} (hptr : ∀ c ∈ ptr, c ≤ 255) (he : ∀ c ∈ e, c ≤ 255) :
    ∀ c ∈ corrupt ptr e, c ≤ 255 := by
  induction ptr generalizing e with
  | nil => exact fun c hc => absurd hc List.not_mem_nil
  | cons a ptr ih =>
    cases e with
    | nil => exact fun c hc => absurd hc List.not_mem_nil
    | cons b e =>
      rw [List.forall_mem_cons] at hptr he
      exact List.forall_mem_cons.mpr ⟨xor_le hptr.1 he.1, ih hptr.2 he.2⟩

/-- A non-zero error whose changed bits, in the order the message is read, lie within eight consecutive ones. -/
structure Burst (bits : UInt16 → List Bool) (e : List UInt16) : Prop where
  changed : ∃ c ∈ e, c ≠ 0
  within : Within 8 (e.flatMap bits)

theorem Burst.true_mem {bits : UInt16 → List Bool} {e : List UInt16} (h : Burst bits e) (he : ∀ c ∈ e, c ≤ 255)
    (hbits : ∀ c, c ≤ 255 → c ≠ 0 → true ∈ bits c) : true ∈ e.flatMap bits := by
  obtain ⟨c, hc, h0⟩ := h.changed
  exact List.mem_flatMap.mpr ⟨c, hc, hbits c (he c hc) h0⟩

theorem checkCRC8_burst {ptr e : List UInt16} (hptr : ∀ c ∈ ptr, c ≤ 255) (he : ∀ c ∈ e, c ≤ 255)
    (hlen : ptr.length = e.length) (h : Burst lsbFirst e) : checkCRC8 (corrupt ptr e) ≠ checkCRC8 ptr := by
  obtain ⟨hsum, hbl⟩ := flatMap_corrupt (r := lsbFirst) (fun c => by simp [lsbFirst]) lsbFirst_xor hlen
  have hmem : true ∈ e.flatMap lsbFirst := h.true_mem he fun _ => true_mem_lsbFirst
  rw [checkCRC8_eq (corrupt_le hptr he), checkCRC8_eq hptr, hsum]
  exact fun heq => burst_detected (by decide) hbl hmem h.within (wide_injective heq)

theorem checkCRC8_2_burst {data e : List UInt16} (he : ∀ c ∈ e, c ≤ 255) (hlen : data.length = e.length)
    (h : Burst msbFirst e) : checkCRC8_2 (corrupt data e) ≠ checkCRC8_2 data := by
  obtain ⟨hsum, hbl⟩ := flatMap_corrupt (r := msbFirst) (fun c => by simp [msbFirst, lsbFirst]) msbFirst_xor hlen
  have hmem : true ∈ e.flatMap msbFirst :=
    h.true_mem he fun _ hc h0 => List.mem_reverse.mpr (true_mem_lsbFirst hc h0)
  rw [checkCRC8_2_eq, checkCRC8_2_eq, hsum]
  intro heq
  have hrev := congrArg BitVec.reverse (wide_injective heq)
  rw [BitVec.reverse_reverse_eq, BitVec.reverse_reverse_eq] at hrev
  exact burst_detected (by decide) hbl hmem h.within hrev

/-- Both routines see every error within eight consecutive bits. -/
theorem crc8_burst {l e : List UInt16} (hl : ∀ c ∈ l, c ≤ 255) (he : ∀ c ∈ e, c ≤ 255) (hlen : l.length = e.length) :
    (Burst lsbFirst e → checkCRC8 (corrupt l e) ≠ checkCRC8 l) ∧
      (Burst msbFirst e → checkCRC8_2 (corrupt l e) ≠ checkCRC8_2 l) :=
  ⟨checkCRC8_burst hl he hlen, checkCRC8_2_burst he hlen⟩

/-- A burst over the border of two bytes, for either order of the bits. -/
theorem crc8_burst_across : Burst lsbFirst [0, 0x80, 0x01] ∧ Burst msbFirst [0, 0x01, 0x80] ∧
    checkCRC8 (corrupt [0x12, 0x34, 0x56] [0, 0x80, 0x01]) ≠ checkCRC8 [0x12, 0x34, 0x56] ∧
    checkCRC8_2 (corrupt [0x12, 0x34, 0x56] [0, 0x01, 0x80]) ≠ checkCRC8_2 [0x12, 0x34, 0x56] := by
  have hw (l : List Bool) (h : ∀ i : Fin l.length, l[i] = true → 15 ≤ i.val ∧ i.val < 23) : Within 8 l := by
    refine ⟨15, fun i hi => ?_⟩
    obtain ⟨hlt, hi⟩ := List.getElem?_eq_some_iff.mp hi
    exact h ⟨i, hlt⟩ hi
  have hlsb : Burst lsbFirst [0, 0x80, 0x01] := ⟨⟨0x80, by decide⟩, hw _ (by decide)⟩
  have hmsb : Burst msbFirst [0, 0x01, 0x80] := ⟨⟨0x01, by decide⟩, hw _ (by decide)⟩
  exact ⟨hlsb, hmsb, (crc8_burst (l := [0x12, 0x34, 0x56]) (e := [0, 0x80, 0x01]) (by simp) (by simp) rfl).1 hlsb,
    (crc8_burst (l := [0x12, 0x34, 0x56]) (e := [0, 0x01, 0x80]) (by simp) (by simp) rfl).2 hmsb⟩

end SeerDIOBoard.Utils
