/-
  SeerDIOBoard.Pb.Fields — field tables and the messages they describe (`pb_field_t`,
  protobuffer/pb.h; the `PB_FIELD` rows of the `message_*.pb.c`).

  A table ends with `PB_LAST_FIELD`. A message is what the table makes of the struct: a
  field is its memory, `data_size` bytes of it, and an array is its entries up to the
  count, of which there are at most `array_size`. A submessage is a message in the struct.

  Left out: optional fields with a `has_` member, required fields, oneofs, extensions,
  callbacks, pointers, bytes and strings, and arrays of submessages; no table that the
  board encodes or decodes has one. Entries behind the count keep what was there.
-/

import Mathlib.Data.List.Basic

namespace SeerDIOBoard.Pb

/-- The packable `PB_LTYPE`s. -/
inductive LType where
  | varint
  | uvarint
  | svarint
  | fixed32
  | fixed64
  deriving DecidableEq, Repr

/-- The type a `PB_FIELD` row names. -/
inductive PbType where
  | float
  | double
  | int32
  | int64
  | uint32
  | uint64
  | sint32
  | sint64
  | bool
  deriving DecidableEq, Repr

namespace PbType

/-- `PB_LTYPE_MAP_`. -/
def ltype : PbType → LType
  | float => .fixed32
  | double => .fixed64
  | int32 | int64 | bool => .varint
  | uint32 | uint64 => .uvarint
  | sint32 | sint64 => .svarint

def dataSize : PbType → Nat
  | bool => 1
  | float | int32 | uint32 | sint32 => 4
  | double | int64 | uint64 | sint64 => 8

/-- The memory of a field, as a word. -/
abbrev Mem (ty : PbType) : Type := BitVec (8 * ty.dataSize)

end PbType

inductive Fields where
  | last
  | singular (tag : Nat) (ty : PbType) (rest : Fields)
  | repeated (tag : Nat) (ty : PbType) (arraySize : Nat) (rest : Fields)
  | message (tag : Nat) (sub rest : Fields)
  deriving DecidableEq, Repr

/-- A static array with its count. -/
structure Repeated (α : Type) (arraySize : Nat) where
  items : List α
  items_le : items.length ≤ arraySize

namespace Repeated

variable {α : Type} {arraySize : Nat}

def empty : Repeated α arraySize := ⟨[], Nat.zero_le _⟩

@[ext] theorem ext {r q : Repeated α arraySize} (h : r.items = q.items) : r = q := by
  cases r
  cases q
  cases h
  rfl

end Repeated

namespace Fields

@[reducible] def Msg : Fields → Type
  | last => Unit
  | singular _ ty rest => ty.Mem × rest.Msg
  | repeated _ ty arraySize rest => Repeated ty.Mem arraySize × rest.Msg
  | message _ sub rest => sub.Msg × rest.Msg

/-- `pb_message_set_to_defaults`, and the `_init_zero` of the table. -/
def initZero : (fs : Fields) → fs.Msg
  | last => ()
  | singular _ _ rest => (0, rest.initZero)
  | repeated _ _ _ rest => (Repeated.empty, rest.initZero)
  | message _ sub rest => (sub.initZero, rest.initZero)

/-- `pb_check_proto3_default_value` over the fields of a submessage. An array is one
    `data_size` to it, its first entry. -/
def isDefault : (fs : Fields) → fs.Msg → Bool
  | last, _ => true
  | singular _ _ rest, (v, m) => v = 0 && rest.isDefault m
  | repeated _ _ _ rest, (r, m) => r.items.headD 0 = 0 && rest.isDefault m
  | message _ sub rest, (v, m) => sub.isDefault v && rest.isDefault m

theorem isDefault_initZero (fs : Fields) : fs.isDefault fs.initZero = true := by
  induction fs with
  | last => rfl
  | singular tag ty rest ih => simp [isDefault, initZero, ih]
  | repeated tag ty n rest ih => simp [isDefault, initZero, Repeated.empty, ih]
  | message tag sub rest ihs ih => simp [isDefault, initZero, ihs, ih]

def tags : Fields → List Nat
  | last => []
  | singular t _ rest => t :: rest.tags
  | repeated t _ _ rest => t :: rest.tags
  | message t _ rest => t :: rest.tags

/-- No arrays. -/
def plain : Fields → Bool
  | last => true
  | singular _ _ rest => rest.plain
  | repeated _ _ _ _ => false
  | message _ sub rest => sub.plain && rest.plain

theorem eq_initZero_of_isDefault {fs : Fields} (hfs : fs.plain = true) {m : fs.Msg} (h : fs.isDefault m = true) :
    m = fs.initZero := by
  induction fs with
  | last => rfl
  | singular tag ty rest ih =>
    obtain ⟨v, m⟩ := m
    simp only [isDefault, Bool.and_eq_true, decide_eq_true_eq] at h
    obtain ⟨rfl, hm⟩ := h
    rw [ih hfs hm]
    rfl
  | repeated tag ty n rest ih => cases hfs
  | message tag sub rest ihs ih =>
    obtain ⟨v, m⟩ := m
    simp only [plain, Bool.and_eq_true] at hfs
    simp only [isDefault, Bool.and_eq_true] at h
    rw [ihs hfs.1 h.1, ih hfs.2 h.2]
    rfl

end Fields

end SeerDIOBoard.Pb
