/-
  SeerDIOBoard.Pb.Records — what the encoder writes, one record at a time, and what the
  decoder makes of it.

  A record is a tag and a value. The lemmas here say of each kind of value that it is read
  back, whatever stands behind it, and that a table without the tag skips it.
-/

import SeerDIOBoard.Pb.Decode
import SeerDIOBoard.Pb.Encode

namespace SeerDIOBoard.Pb

open Lib.Bytes Lib.Varint

/-! ## Tags -/

theorem tagWord {wireType : Nat} (h : wireType < 8) (tag : Nat) : tag <<< 3 ||| wireType = 8 * tag + wireType := by
  have hor := Nat.two_pow_add_eq_or_of_lt (i := 3) h tag
  rw [Nat.shiftLeft_eq, Nat.mul_comm, ← hor]

theorem decodeTag_tagBytes {wireType tag : Nat} (hw : wireType < 8) (h0 : 0 < tag) (ht : tag < 256) (s : Istream) :
    decodeTag (tagBytes wireType tag ++ s) = .tag wireType tag s := by
  have hlow : (8 * tag + wireType) &&& 7 = wireType := by
    have hand := Nat.and_two_pow_sub_one_eq_mod (8 * tag + wireType) 3
    rw [show (7 : Nat) = 2 ^ 3 - 1 from rfl, hand]
    omega
  have hhigh : (8 * tag + wireType) >>> 3 = tag := by
    rw [Nat.shiftRight_eq_div_pow]
    omega
  rw [decodeTag, tagBytes, tagWord hw, decodeVarint32_varintBytes (by omega)]
  dsimp only
  rw [if_neg (by omega), hlow, hhigh]

/-! ## Values -/

theorem littleEndian_leBytes_toNat {n v : Nat} (h : v < 2 ^ (8 * n)) : littleEndian (leBytes n v) = v := by
  have hle := littleEndian_leBytes n v
  rw [Int.emod_eq_of_lt (Int.natCast_nonneg v) (by exact_mod_cast h)] at hle
  exact_mod_cast hle

theorem read_append {n : Nat} {bs : List UInt8} (h : bs.length = n) (s : Istream) : read n (bs ++ s) = .ok bs s := by
  subst h
  rw [read, if_neg (by simp), List.take_left, List.drop_left]

theorem signed_unsigned_32 {v : Int} (hlo : -2 ^ 31 ≤ v) (hhi : v < 2 ^ 31) : signed 32 (unsigned v) = v := by
  unfold signed unsigned
  rw [Int.toNat_of_nonneg (Int.emod_nonneg v (by decide)), Int.bmod_def]
  omega

/-- A signed value of `data_size` bytes, and what the decoder casts it to. -/
theorem cast_unsigned (ty : PbType) (v : ty.Mem) :
    (if ty.dataSize = 8 then signed 64 (unsigned v.toInt) else signed 32 (unsigned v.toInt)) = v.toInt ∧
      -2 ^ 63 ≤ v.toInt ∧ v.toInt < 2 ^ 63 := by
  have hlo := BitVec.le_toInt v
  have hhi := BitVec.toInt_lt (x := v)
  have hsize : ty.dataSize = 8 ∨ ty.dataSize = 4 ∨ ty.dataSize = 1 := by cases ty <;> decide
  generalize v.toInt = x at *
  rcases hsize with hs | hs | hs
  · rw [hs] at hlo hhi
    rw [if_pos hs]
    exact ⟨signed_unsigned hlo hhi, hlo, hhi⟩
  · rw [hs] at hlo hhi
    rw [if_neg (by omega)]
    refine ⟨signed_unsigned_32 hlo hhi, ?_, ?_⟩ <;> omega
  · rw [hs] at hlo hhi
    rw [if_neg (by omega)]
    refine ⟨signed_unsigned_32 ?_ ?_, ?_, ?_⟩ <;> omega

theorem decVarint_unsigned (ty : PbType) (v : ty.Mem) (s : Istream) : decVarint ty (unsigned v.toInt) s = ⟨v, none, s⟩ := by
  unfold decVarint
  dsimp only
  rw [(cast_unsigned ty v).1, BitVec.ofInt_toInt, if_pos rfl]

theorem decodeScalar_scalarBytes (ty : PbType) (v : ty.Mem) (s : Istream) (dest : ty.Mem) :
    decodeScalar ty (scalarBytes ty v ++ s) dest = ⟨v, none, s⟩ := by
  have hv := v.isLt
  have hsize : ty.dataSize ≤ 8 := by cases ty <;> decide
  have h64 : v.toNat < 2 ^ 64 := Nat.lt_of_lt_of_le hv (Nat.pow_le_pow_right (by decide) (by omega))
  unfold decodeScalar scalarBytes
  cases hl : ty.ltype with
  | varint =>
    dsimp only
    rw [decodeVarint_varintBytes (unsigned_lt _)]
    exact decVarint_unsigned ty v s
  | uvarint =>
    dsimp only
    rw [decodeVarint_varintBytes h64, Read.elim, decUvarint, BitVec.ofNat_toNat, BitVec.setWidth_eq, if_pos rfl]
  | svarint =>
    obtain ⟨-, hlo, hhi⟩ := cast_unsigned ty v
    dsimp only
    rw [decodeVarint_varintBytes (zigzag_lt _), Read.elim, unzigzag_zigzag hlo hhi, decSvarint, BitVec.ofInt_toInt, if_pos rfl]
  | fixed32 =>
    have hw : ty.dataSize = 4 := by cases ty <;> first | rfl | cases hl
    have hval : littleEndian (leBytes 4 v.toNat) = v.toNat := littleEndian_leBytes_toNat (Nat.lt_of_lt_of_eq hv (by rw [hw]))
    dsimp only
    rw [read_append (leBytes_length 4 _), Read.elim, hval, BitVec.ofNat_toNat, BitVec.setWidth_eq]
  | fixed64 =>
    have hw : ty.dataSize = 8 := by cases ty <;> first | rfl | cases hl
    have hval : littleEndian (leBytes 8 v.toNat) = v.toNat := littleEndian_leBytes_toNat (Nat.lt_of_lt_of_eq hv (by rw [hw]))
    dsimp only
    rw [read_append (leBytes_length 8 _), Read.elim, hval, BitVec.ofNat_toNat, BitVec.setWidth_eq]

theorem scalarBytes_ne_nil (ty : PbType) (v : ty.Mem) : scalarBytes ty v ≠ [] := by
  have hv := v.isLt
  have hsize : ty.dataSize ≤ 8 := by cases ty <;> decide
  have h64 : v.toNat < 2 ^ 64 := Nat.lt_of_lt_of_le hv (Nat.pow_le_pow_right (by decide) (by omega))
  unfold scalarBytes
  split
  · exact varintBytes_ne_nil (unsigned_lt _)
  · exact varintBytes_ne_nil h64
  · exact varintBytes_ne_nil (zigzag_lt _)
  · exact List.cons_ne_nil _ _
  · exact List.cons_ne_nil _ _

theorem makeStringSubstream_sized {bs : List UInt8} (h : bs.length < 2 ^ 32) (s : Istream) :
    ∃ open_, makeStringSubstream (sized bs ++ s) = .ok (bs, s) open_ := by
  refine ⟨(bs ++ s).take ((bs ++ s).length - bs.length), ?_⟩
  rw [makeStringSubstream, sized, List.append_assoc, decodeVarint32_varintBytes h]
  dsimp only
  rw [if_neg (by simp), List.take_left, List.drop_left]

/-! ## Arrays -/

theorem packedLoop_itemsBytes (ty : PbType) (vs : List ty.Mem) :
    ∀ {room : Nat} {items : List ty.Mem}, vs.length ≤ room →
      packedLoop ty room items (itemsBytes ty vs) = ⟨items ++ vs, none, []⟩ := by
  induction vs with
  | nil =>
    intro room items _
    rw [List.append_nil]
    cases room <;> rfl
  | cons v vs ih =>
    intro room items hroom
    obtain ⟨room, rfl⟩ : ∃ k, room = k + 1 := ⟨room - 1, by rw [List.length_cons] at hroom; omega⟩
    have hne : itemsBytes ty (v :: vs) ≠ [] := by simp [itemsBytes, scalarBytes_ne_nil]
    rw [packedLoop, if_neg hne, itemsBytes, List.flatMap_cons, decodeScalar_scalarBytes]
    dsimp only
    have hrest := @ih room (items ++ [v]) (Nat.le_of_succ_le_succ hroom)
    rw [itemsBytes] at hrest
    rw [hrest, List.append_assoc, List.singleton_append]

/-- An array that is too long is not read to its end. -/
theorem packedLoop_overflow (ty : PbType) (vs : List ty.Mem) :
    ∀ {room : Nat} {items : List ty.Mem}, room < vs.length → (packedLoop ty room items (itemsBytes ty vs)).stream ≠ [] := by
  induction vs with
  | nil => intro room items h; exact absurd h (Nat.not_lt_zero room)
  | cons v vs ih =>
    intro room items h
    have hne : itemsBytes ty (v :: vs) ≠ [] := by simp [itemsBytes, scalarBytes_ne_nil]
    cases room with
    | zero => exact hne
    | succ room =>
      rw [packedLoop, if_neg hne, itemsBytes, List.flatMap_cons, decodeScalar_scalarBytes]
      exact ih (Nat.lt_of_succ_lt_succ h)

def Repeated.append {α : Type} {n k : Nat} (r : Repeated α n) (q : Repeated α k)
    (h : r.items.length + q.items.length ≤ n) : Repeated α n where
  items := r.items ++ q.items
  items_le := by rwa [List.length_append]

theorem itemsBytes_lt {ty : PbType} {k : Nat} (hk : k < 256) (q : Repeated ty.Mem k) :
    (itemsBytes ty q.items).length < 2 ^ 32 := by
  have hlen := @itemsBytes_length ty q.items 10 fun v _ => scalarBytes_length_le_ten ty v
  have hle := q.items_le
  have hmul := Nat.mul_le_mul_right 10 hle
  omega

theorem decodeArray_packed {n k : Nat} (hk : k < 256) (ty : PbType) (r : Repeated ty.Mem n) (q : Repeated ty.Mem k)
    (s : Istream) (h : r.items.length + q.items.length ≤ n) :
    decodeArray ty wtString (sized (itemsBytes ty q.items) ++ s) r = ⟨r.append q h, none, s⟩ := by
  obtain ⟨_, hsub⟩ := makeStringSubstream_sized (itemsBytes_lt hk q) s
  have hloop := @packedLoop_itemsBytes ty q.items (n - r.items.length) r.items (by omega)
  have hdest : r.packed ty (itemsBytes ty q.items) = r.append q h := Repeated.ext (by rw [Repeated.packed]; simp only [hloop]; rfl)
  rw [decodeArray, if_pos rfl, hsub]
  dsimp only
  rw [hdest, hloop, if_neg (by simp)]

theorem decodeArray_overflow {n k : Nat} (hk : k < 256) (ty : PbType) (r : Repeated ty.Mem n) (q : Repeated ty.Mem k)
    (s : Istream) (h : ¬ r.items.length + q.items.length ≤ n) :
    (decodeArray ty wtString (sized (itemsBytes ty q.items) ++ s) r).error = some .arrayOverflow := by
  obtain ⟨_, hsub⟩ := makeStringSubstream_sized (itemsBytes_lt hk q) s
  have hle := r.items_le
  have hloop := @packedLoop_overflow ty q.items (n - r.items.length) r.items (by omega)
  rw [decodeArray, if_pos rfl, hsub]
  dsimp only
  rw [if_pos hloop]

/-! ## Skipping -/

theorem skipVarint_closed {w : List UInt8} (hw : Closed w) (s : Istream) : skipVarint (w ++ s) = .ok () s := by
  induction w with
  | nil => exact absurd rfl hw.ne_nil
  | cons b w ih =>
    rw [List.cons_append, skipVarint]
    by_cases hb : b.toNat < 128
    · have hnil : w = [] := by
        by_contra hne
        have hgo := ((closed_cons hne).mp hw).1
        omega
      rw [if_pos ((and_top_eq_zero b).mpr hb), hnil]
      rfl
    · rw [if_neg (fun h => hb ((and_top_eq_zero b).mp h))]
      exact ih (hw.tail (by omega))

theorem skip_append {n : Nat} {bs : List UInt8} (h : bs.length = n) (s : Istream) : skip n (bs ++ s) = .ok () s := by
  subst h
  rw [skip, if_neg (by simp), List.drop_left]

theorem skipField_scalarBytes (ty : PbType) (v : ty.Mem) (s : Istream) :
    skipField (wireTypeOf ty) (scalarBytes ty v ++ s) = .ok () s := by
  have hv := v.isLt
  have hsize : ty.dataSize ≤ 8 := by cases ty <;> decide
  have h64 : v.toNat < 2 ^ 64 := Nat.lt_of_lt_of_le hv (Nat.pow_le_pow_right (by decide) (by omega))
  unfold wireTypeOf scalarBytes
  cases ty.ltype with
  | varint => exact skipVarint_closed (closed_varintBytes (unsigned_lt _)) s
  | uvarint => exact skipVarint_closed (closed_varintBytes h64) s
  | svarint => exact skipVarint_closed (closed_varintBytes (zigzag_lt _)) s
  | fixed32 => exact skip_append (leBytes_length 4 _) s
  | fixed64 => exact skip_append (leBytes_length 8 _) s

theorem skipField_sized {bs : List UInt8} (h : bs.length < 2 ^ 32) (s : Istream) :
    skipField wtString (sized bs ++ s) = .ok () s := by
  show skipString (sized bs ++ s) = _
  rw [skipString, sized, List.append_assoc, decodeVarint32_varintBytes h]
  exact skip_append rfl s

/-- A tag that the table does not have. -/
theorem decodeField_unknown {fs : Fields} {tag : Nat} (h : tag ∉ fs.tags) {wireType : Nat} {m : fs.Msg} {s rest : Istream}
    (hs : skipField wireType s = .ok () rest) : decodeField fs tag wireType m s = ⟨m, none, rest⟩ := by
  induction fs with
  | last => rw [decodeField, hs]; rfl
  | singular t ty fs ih =>
    obtain ⟨v, m⟩ := m
    obtain ⟨hne, hrest⟩ := not_or.mp (fun hmem => h (List.mem_cons.mpr hmem))
    rw [decodeField, if_neg (Ne.symm hne), ih hrest]
    rfl
  | repeated t ty n fs ih =>
    obtain ⟨v, m⟩ := m
    obtain ⟨hne, hrest⟩ := not_or.mp (fun hmem => h (List.mem_cons.mpr hmem))
    rw [decodeField, if_neg (Ne.symm hne), ih hrest]
    rfl
  | message t sub fs _ ih =>
    obtain ⟨v, m⟩ := m
    obtain ⟨hne, hrest⟩ := not_or.mp (fun hmem => h (List.mem_cons.mpr hmem))
    rw [decodeField, if_neg (Ne.symm hne), ih hrest]
    rfl

/-! ## Records -/

section

variable {α : Type} {field : Nat → Nat → α → Istream → Outcome α}

theorem decodeNoinit_record (hfield : ∀ tag wireType m s, (field tag wireType m s).ReadsFrom s) {wireType tag : Nat}
    (hw : wireType < 8) (h0 : 0 < tag) (ht : tag < 256) {m m' : α} {value s : List UInt8}
    (h : field tag wireType m (value ++ s) = ⟨m', none, s⟩) :
    decodeNoinit field m (tagBytes wireType tag ++ value ++ s) = decodeNoinit field m' s := by
  rw [List.append_assoc, decodeNoinit_tag hfield (decodeTag_tagBytes hw h0 ht _), h]

theorem decodeNoinit_record_error (hfield : ∀ tag wireType m s, (field tag wireType m s).ReadsFrom s) {wireType tag : Nat}
    (hw : wireType < 8) (h0 : 0 < tag) (ht : tag < 256) {m : α} {value s : List UInt8} {e : Error}
    (h : (field tag wireType m (value ++ s)).error = some e) :
    (decodeNoinit field m (tagBytes wireType tag ++ value ++ s)).error = some e := by
  rw [List.append_assoc, decodeNoinit_tag hfield (decodeTag_tagBytes hw h0 ht _)]
  cases hf : field tag wireType m (value ++ s) with
  | mk m' error rest =>
    rw [hf] at h
    cases error with
    | none => cases h
    | some x => exact h

end

end SeerDIOBoard.Pb
