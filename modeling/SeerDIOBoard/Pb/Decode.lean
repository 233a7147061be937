/-
  SeerDIOBoard.Pb.Decode — the decoder (`pb_decode`, protobuffer/pb_decode.c).

  A field of the stream is a tag and a value. The tag is looked up in the table, and the
  table's entry decides how the value is read; the wire type of the tag only tells a packed
  array from a single entry, and how to skip a field that the table does not have. A stream
  that ends inside a tag counts as ended, and so does one with a zero tag.

  - `decodeNoinit_tag`: the loop's own equation. The fuel it is defined with, a unit for each
    byte, never runs out (`decodeLoop_fuel`).
-/

import SeerDIOBoard.Pb.Fields
import SeerDIOBoard.Pb.Stream

namespace SeerDIOBoard.Pb

open Lib.Bytes Lib.Varint

/-- What a decoder leaves: the memory it writes to, the error if it returns false, and the
    stream. -/
structure Outcome (α : Type) where
  dest : α
  error : Option Error
  stream : Istream
  deriving Repr

def Outcome.map {α β : Type} (f : α → β) (o : Outcome α) : Outcome β := ⟨f o.dest, o.error, o.stream⟩

/-! ## One value -/

/-- `pb_dec_varint`, on the number read. What is smaller than 64 bits goes through `int32_t`. -/
def decVarint (ty : PbType) (value : Nat) (s : Istream) : Outcome ty.Mem :=
  let svalue := if ty.dataSize = 8 then signed 64 value else signed 32 value
  let dest := BitVec.ofInt (8 * ty.dataSize) svalue
  ⟨dest, if dest.toInt = svalue then none else some .integerTooLarge, s⟩

def decUvarint (ty : PbType) (value : Nat) (s : Istream) : Outcome ty.Mem :=
  let dest := BitVec.ofNat (8 * ty.dataSize) value
  ⟨dest, if dest.toNat = value then none else some .integerTooLarge, s⟩

def decSvarint (ty : PbType) (value : Int) (s : Istream) : Outcome ty.Mem :=
  let dest := BitVec.ofInt (8 * ty.dataSize) value
  ⟨dest, if dest.toInt = value then none else some .integerTooLarge, s⟩

/-- What comes after a read: `k` of the value, or the error with the memory as it was. -/
def Read.elim {α β : Type} (r : Read α) (dest : β) (k : α → Istream → Outcome β) : Outcome β :=
  match r with
  | .ok a s => k a s
  | .error e s => ⟨dest, some e, s⟩

/-- `PB_DECODERS`. -/
def decodeScalar (ty : PbType) (s : Istream) (dest : ty.Mem) : Outcome ty.Mem :=
  match ty.ltype with
  | .varint => (decodeVarint s).elim dest (decVarint ty)
  | .uvarint => (decodeVarint s).elim dest (decUvarint ty)
  | .svarint => (decodeVarint s).elim dest fun value s => decSvarint ty (unzigzag value) s
  | .fixed32 => (read 4 s).elim dest fun bytes s => ⟨BitVec.ofNat _ (littleEndian bytes), none, s⟩
  | .fixed64 => (read 8 s).elim dest fun bytes s => ⟨BitVec.ofNat _ (littleEndian bytes), none, s⟩

/-! ## Arrays -/

/-- The loop over a packed array; `room` entries are free. -/
def packedLoop (ty : PbType) : Nat → List ty.Mem → Istream → Outcome (List ty.Mem)
  | 0, items, s => ⟨items, none, s⟩
  | room + 1, items, s =>
    if s = [] then ⟨items, none, s⟩
    else
      match decodeScalar ty s 0 with
      | ⟨v, none, s⟩ => packedLoop ty room (items ++ [v]) s
      | ⟨_, some e, s⟩ => ⟨items, some e, s⟩

theorem packedLoop_length (ty : PbType) (room : Nat) (items : List ty.Mem) (s : Istream) :
    (packedLoop ty room items s).dest.length ≤ items.length + room := by
  induction room generalizing items s with
  | zero => exact Nat.le_refl _
  | succ room ih =>
    rw [packedLoop]
    split
    · exact Nat.le_add_right _ _
    · split
      case h_1 v s' _ =>
        have hlen := ih (items ++ [v]) s'
        rw [List.length_append, List.length_singleton] at hlen
        omega
      case h_2 => exact Nat.le_add_right _ _

def Repeated.packed {n : Nat} (ty : PbType) (r : Repeated ty.Mem n) (s : Istream) : Repeated ty.Mem n where
  items := (packedLoop ty (n - r.items.length) r.items s).dest
  items_le := by
    have hlen := packedLoop_length ty (n - r.items.length) r.items s
    have hle := r.items_le
    omega

def Repeated.push {α : Type} {n : Nat} (r : Repeated α n) (v : α) (h : r.items.length < n) : Repeated α n where
  items := r.items ++ [v]
  items_le := by rwa [List.length_append, List.length_singleton]

/-- `decode_static_field` of an array. The count goes up before a single entry is read. -/
def decodeArray {n : Nat} (ty : PbType) (wireType : Nat) (s : Istream) (r : Repeated ty.Mem n) : Outcome (Repeated ty.Mem n) :=
  if wireType = wtString then
    match makeStringSubstream s with
    | .error e s => ⟨r, some e, s⟩
    | .ok (substream, closed) s =>
      let o := packedLoop ty (n - r.items.length) r.items substream
      if o.stream ≠ [] then ⟨r.packed ty substream, some .arrayOverflow, s⟩
      else ⟨r.packed ty substream, o.error, closed⟩
  else if h : r.items.length < n then (decodeScalar ty s 0).map fun v => r.push v h
  else ⟨r, some .arrayOverflow, s⟩

/-! ## Messages -/

/-- The loop of `pb_decode_noinit`; `field` reads the field with this tag and wire type. -/
def decodeLoop {α : Type} (field : Nat → Nat → α → Istream → Outcome α) : Nat → α → Istream → Outcome α
  | 0, m, s => ⟨m, none, s⟩
  | fuel + 1, m, s =>
    if s = [] then ⟨m, none, s⟩
    else
      match decodeTag s with
      | .eof s => ⟨m, none, s⟩
      | .error e s => ⟨m, some e, s⟩
      | .tag wireType tag s =>
        match field tag wireType m s with
        | ⟨m, none, s⟩ => decodeLoop field fuel m s
        | failed => failed

/-- `pb_dec_submessage`, with `decode` the `pb_decode_noinit` of the submessage. -/
def decodeSubmessage {α : Type} (decode : α → Istream → Outcome α) (s : Istream) (v : α) : Outcome α :=
  match makeStringSubstream s with
  | .error e s => ⟨v, some e, s⟩
  | .ok (substream, closed) _ =>
    let o := decode v substream
    ⟨o.dest, o.error, closed⟩

/-- `pb_field_iter_find` and `decode_field`; at the end of the table nothing was found. -/
def decodeField : (fs : Fields) → Nat → Nat → fs.Msg → Istream → Outcome fs.Msg
  | .last, _, wireType, m, s => (skipField wireType s).elim m fun _ s => ⟨m, none, s⟩
  | .singular t ty rest, tag, wireType, (v, m), s =>
    if t = tag then (decodeScalar ty s v).map fun v => (v, m)
    else (decodeField rest tag wireType m s).map fun m => (v, m)
  | .repeated t ty _ rest, tag, wireType, (r, m), s =>
    if t = tag then (decodeArray ty wireType s r).map fun r => (r, m)
    else (decodeField rest tag wireType m s).map fun m => (r, m)
  | .message t sub rest, tag, wireType, (v, m), s =>
    if t = tag then
      (decodeSubmessage (fun v s => decodeLoop (decodeField sub) s.length v s) s v).map fun v => (v, m)
    else (decodeField rest tag wireType m s).map fun m => (v, m)

/-- One unit of fuel for each byte. -/
def decodeNoinit {α : Type} (field : Nat → Nat → α → Istream → Outcome α) (m : α) (s : Istream) : Outcome α :=
  decodeLoop field s.length m s

def pbDecodeNoinit (fs : Fields) (m : fs.Msg) (s : Istream) : Outcome fs.Msg := decodeNoinit (decodeField fs) m s

/-- `pb_decode` into a struct. -/
def pbDecode (fs : Fields) (s : Istream) : Outcome fs.Msg := pbDecodeNoinit fs fs.initZero s

/-! ## What is left of the stream -/

/-- A successful decoder has read the front of its stream. -/
def Outcome.ReadsFrom {α : Type} (o : Outcome α) (s : Istream) : Prop := o.error = none → o.stream <:+ s

theorem Outcome.ReadsFrom.map {α β : Type} {o : Outcome α} {s : Istream} (h : o.ReadsFrom s) (f : α → β) :
    (o.map f).ReadsFrom s := h

theorem decodeVarint_suffix {s rest : Istream} {v : Nat} (h : decodeVarint s = .ok v rest) : rest <:+ s := by
  obtain ⟨w, rfl, -⟩ := (decodeVarint_iff s rest v).mp h
  exact List.suffix_append w rest

theorem decodeVarint32_suffix {s rest : Istream} {v : Nat} (h : decodeVarint32 s = .ok v rest) :
    rest <:+ s ∧ rest.length < s.length := by
  obtain ⟨w, rfl, hw, -⟩ := (decodeVarint32_iff s rest v).mp h
  have hpos := List.length_pos_of_ne_nil hw.ne_nil
  refine ⟨List.suffix_append w rest, ?_⟩
  rw [List.length_append]
  omega

theorem read_suffix {n : Nat} {s rest : Istream} {bytes : List UInt8} (h : read n s = .ok bytes rest) : rest <:+ s := by
  unfold read at h
  split at h
  · cases h
  · cases h
    exact List.drop_suffix n s

theorem skip_suffix {n : Nat} {s rest : Istream} (h : skip n s = .ok () rest) : rest <:+ s := by
  unfold skip at h
  split at h
  · cases h
  · cases h
    exact List.drop_suffix n s

theorem skipVarint_suffix {s rest : Istream} (h : skipVarint s = .ok () rest) : rest <:+ s := by
  induction s with
  | nil => cases h
  | cons b s ih =>
    rw [skipVarint] at h
    split at h
    · cases h
      exact List.suffix_cons b _
    · exact (ih h).trans (List.suffix_cons b s)

theorem skipString_suffix {s rest : Istream} (h : skipString s = .ok () rest) : rest <:+ s := by
  unfold skipString at h
  split at h
  · cases h
  case h_2 hv => exact (skip_suffix h).trans (decodeVarint32_suffix hv).1

theorem skipField_suffix {wireType : Nat} {s rest : Istream} (h : skipField wireType s = .ok () rest) : rest <:+ s := by
  unfold skipField at h
  repeat' split at h
  · exact skipVarint_suffix h
  · exact skip_suffix h
  · exact skipString_suffix h
  · exact skip_suffix h
  · cases h

theorem decodeTag_shrinks {s rest : Istream} {wireType tag : Nat} (h : decodeTag s = .tag wireType tag rest) :
    rest.length < s.length := by
  unfold decodeTag at h
  split at h
  · split at h <;> cases h
  case h_2 hv =>
    split at h
    · cases h
    · cases h
      exact (decodeVarint32_suffix hv).2

theorem makeStringSubstream_suffix {s sub closed rest : Istream} (h : makeStringSubstream s = .ok (sub, closed) rest) :
    closed <:+ s := by
  unfold makeStringSubstream at h
  split at h
  · cases h
  case h_2 hv =>
    split at h
    · cases h
    · cases h
      exact (List.drop_suffix _ _).trans (decodeVarint32_suffix hv).1

theorem Read.elim_readsFrom {α β : Type} {r : Read α} {s : Istream} (hr : ∀ {a rest}, r = .ok a rest → rest <:+ s)
    {dest : β} {k : α → Istream → Outcome β} (hk : ∀ a rest, (k a rest).stream = rest) : (r.elim dest k).ReadsFrom s := by
  cases r with
  | error e rest => intro h; cases h
  | ok a rest =>
    intro _
    show (k a rest).stream <:+ s
    rw [hk]
    exact hr rfl

theorem decodeScalar_readsFrom (ty : PbType) (s : Istream) (dest : ty.Mem) : (decodeScalar ty s dest).ReadsFrom s := by
  unfold decodeScalar
  split
  · exact Read.elim_readsFrom decodeVarint_suffix fun _ _ => rfl
  · exact Read.elim_readsFrom decodeVarint_suffix fun _ _ => rfl
  · exact Read.elim_readsFrom decodeVarint_suffix fun _ _ => rfl
  · exact Read.elim_readsFrom read_suffix fun _ _ => rfl
  · exact Read.elim_readsFrom read_suffix fun _ _ => rfl

theorem decodeArray_readsFrom {n : Nat} (ty : PbType) (wireType : Nat) (s : Istream) (r : Repeated ty.Mem n) :
    (decodeArray ty wireType s r).ReadsFrom s := by
  unfold decodeArray
  split
  · split
    · intro h; cases h
    case h_2 hsub =>
      dsimp only
      split
      · intro h; cases h
      · exact fun _ => makeStringSubstream_suffix hsub
  · split
    · exact (decodeScalar_readsFrom ty s 0).map _
    · intro h; cases h

theorem decodeSubmessage_readsFrom {α : Type} (decode : α → Istream → Outcome α) (s : Istream) (v : α) :
    (decodeSubmessage decode s v).ReadsFrom s := by
  unfold decodeSubmessage
  split
  · intro h; cases h
  case h_2 hsub => exact fun _ => makeStringSubstream_suffix hsub

theorem decodeField_readsFrom (fs : Fields) (tag wireType : Nat) (m : fs.Msg) (s : Istream) :
    (decodeField fs tag wireType m s).ReadsFrom s := by
  induction fs with
  | last => exact Read.elim_readsFrom skipField_suffix fun _ _ => rfl
  | singular t ty rest ih =>
    obtain ⟨v, m⟩ := m
    rw [decodeField]
    split
    · exact (decodeScalar_readsFrom ty s _).map _
    · exact (ih _).map _
  | repeated t ty n rest ih =>
    obtain ⟨v, m⟩ := m
    rw [decodeField]
    split
    · exact (decodeArray_readsFrom ty wireType s _).map _
    · exact (ih _).map _
  | message t sub rest _ ih =>
    obtain ⟨v, m⟩ := m
    rw [decodeField]
    split
    · exact (decodeSubmessage_readsFrom _ s _).map _
    · exact (ih _).map _

/-! ## The loop -/

section

variable {α : Type} {field : Nat → Nat → α → Istream → Outcome α}

/-- With a unit for each byte, more fuel changes nothing. -/
theorem decodeLoop_fuel (hfield : ∀ tag wireType m s, (field tag wireType m s).ReadsFrom s) (fuel : Nat) :
    ∀ (m : α) (s : Istream), s.length ≤ fuel → decodeLoop field fuel m s = decodeNoinit field m s := by
  induction fuel using Nat.strongRecOn with
  | ind fuel ih =>
    intro m s hs
    unfold decodeNoinit
    cases fuel with
    | zero => rw [List.eq_nil_of_length_eq_zero (Nat.le_zero.mp hs)]; rfl
    | succ fuel =>
      cases s with
      | nil => rfl
      | cons b s =>
        rw [List.length_cons, decodeLoop, decodeLoop]
        cases htag : decodeTag (b :: s) with
        | eof rest => rfl
        | error e rest => rfl
        | tag wireType tag rest =>
          have hshrink := decodeTag_shrinks htag
          rw [List.length_cons] at hshrink hs
          have hread := hfield tag wireType m rest
          dsimp only
          cases hf : field tag wireType m rest with
          | mk m' error rest' =>
            cases error with
            | some e => rfl
            | none =>
              rw [hf] at hread
              have hlen : rest'.length ≤ rest.length := (hread rfl).length_le
              dsimp only
              rw [ih fuel (Nat.lt_succ_self fuel) m' rest' (by omega), ih s.length (by omega) m' rest' (by omega)]

theorem decodeNoinit_nil (m : α) : decodeNoinit field m [] = ⟨m, none, []⟩ := rfl

theorem decodeNoinit_tag (hfield : ∀ tag wireType m s, (field tag wireType m s).ReadsFrom s) {m : α} {s rest : Istream}
    {wireType tag : Nat} (h : decodeTag s = .tag wireType tag rest) :
    decodeNoinit field m s =
      match field tag wireType m rest with
      | ⟨m, none, s⟩ => decodeNoinit field m s
      | failed => failed := by
  cases s with
  | nil => cases h
  | cons b s =>
    have hshrink := decodeTag_shrinks h
    rw [List.length_cons] at hshrink
    have hread := hfield tag wireType m rest
    rw [decodeNoinit, List.length_cons, decodeLoop, if_neg (List.cons_ne_nil b s), h]
    dsimp only
    cases hf : field tag wireType m rest with
    | mk m' error rest' =>
      cases error with
      | some e => rfl
      | none =>
        rw [hf] at hread
        have hlen : rest'.length ≤ rest.length := (hread rfl).length_le
        exact decodeLoop_fuel hfield s.length m' rest' (by omega)

end

end SeerDIOBoard.Pb
