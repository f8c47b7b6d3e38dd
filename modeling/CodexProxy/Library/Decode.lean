import CodexProxy.Library.Portable
import Mathlib.Data.List.Nodup

/-! Reading and writing JSON text, and decoding JSON into records. The text layer
is a parameter: a `Codec` is any reader and writer with the documented laws of one,
so results about a program that uses a JSON library hold of that library. The
record layer follows derived decoders: fields come from a map or, by position,
from a sequence, unknown fields are ignored and absent ones may have a default. -/
namespace Json

/-- A JSON reader with its compact and indented writers. `sliceError` and
`valueError` render a failed decoding of a text or of a value, for a named target. -/
structure Codec where
  read : List UInt8 → Option Json
  write : Json → String
  writePretty : Json → String
  sliceError : String → List UInt8 → String
  valueError : String → Json → String
  read_write : ∀ v, v.Portable → read (Text.utf8 (write v)) = some v
  read_writePretty : ∀ v, v.Portable → read (Text.utf8 (writePretty v)) = some v
  /-- Whitespace around a text does not matter. -/
  read_trimAscii : ∀ bs v, read bs = some v → read (Bytes.trimAscii bs) = some v
  read_nil : read [] = none
  /-- No JSON value begins with a capital letter. -/
  read_letter : ∀ c rest, 65 ≤ c → c ≤ 90 → read (91 :: c :: rest) = none
  /-- Control characters are written as escapes. -/
  write_visible : ∀ v, ∀ b ∈ Text.utf8 (write v), 32 ≤ b

namespace Codec

/-- The octets of a compact text. -/
def toVec (codec : Codec) (v : Json) : List UInt8 := Text.utf8 (codec.write v)

/-- Read a text as a value. -/
def fromSlice (codec : Codec) (bs : List UInt8) : Option Json := (codec.read bs).map normalize

variable (codec : Codec)

theorem read_toVec (portable : Portable v) : codec.read (codec.toVec v) = some v :=
  codec.read_write v portable

end Codec

namespace Decode

/-- The fields a record decoder finds, by name. -/
abbrev Fields := String → Option Json

/-- A map must not repeat a known field; a sequence must not be longer than the record. -/
def record (names : List String) : Json → Option Fields
  | .object ms =>
    if names.all fun k => (ms.filter (·.1 == k)).length ≤ 1 then some fun k => ms.lookup k
    else none
  | .array items =>
    if items.length ≤ names.length then some fun k => items[names.idxOf k]? else none
  | _ => none

def required (decode : Json → Option α) (field : Option Json) : Option α := field.bind decode

def defaulted (decode : Json → Option α) (default : α) : Option Json → Option α
  | none => some default
  | some v => decode v

def nullable (decode : Json → Option α) : Json → Option (Option α)
  | .null => some none
  | v => (decode v).map some

def each (decode : Json → Option α) : Json → Option (List α)
  | .array items => items.mapM decode
  | _ => none

/-- Without repeated members the fields are the members. -/
theorem record_object {ms : Members} (distinct : (ms.map Prod.fst).Nodup)
    (names : List String) : record names (.object ms) = some fun k => ms.lookup k := by
  rw [record, if_pos]
  rw [List.all_eq_true]
  intro k _
  have once : ((ms.map Prod.fst).filter (· == k)).length ≤ 1 :=
    List.nodup_iff_count_le_one.mp distinct k |>.trans' (by
      rw [List.count_eq_countP, List.countP_eq_length_filter])
  rw [List.filter_map, List.length_map] at once
  exact decide_eq_true once

@[simp] theorem defaulted_none (decode : Json → Option α) (default : α) :
    defaulted decode default none = some default := rfl

@[simp] theorem defaulted_some (decode : Json → Option α) (default : α) (v : Json) :
    defaulted decode default (some v) = decode v := rfl

@[simp] theorem nullable_null (decode : Json → Option α) : nullable decode .null = some none := rfl

@[simp] theorem nullable_string (decode : Json → Option α) (s : String) :
    nullable decode (.string s) = (decode (.string s)).map some := rfl

@[simp] theorem nullable_array (decode : Json → Option α) (items : List Json) :
    nullable decode (.array items) = (decode (.array items)).map some := rfl

@[simp] theorem nullable_object (decode : Json → Option α) (ms : Members) :
    nullable decode (.object ms) = (decode (.object ms)).map some := rfl

theorem nullable_isSome (decode : Json → Option α) (v : Json) :
    (nullable decode v).isSome = (v.isNull || (decode v).isSome) := by
  cases v <;> simp [nullable, isNull]

theorem nullable_eq_some {decode : Json → Option α} {v : Json} {result : Option α}
    (read : nullable decode v = some result) :
    v = .null ∧ result = none ∨ ∃ a, decode v = some a ∧ result = some a := by
  cases v with
  | null => exact .inl ⟨rfl, (Option.some.inj read).symm⟩
  | _ =>
    obtain ⟨a, decoded, same⟩ := Option.map_eq_some_iff.mp read
    exact .inr ⟨a, decoded, same.symm⟩

/-- A field that may be absent or null, for a decoder that accepts no null. -/
theorem defaulted_nullable {decode : Json → Option α} (null : decode .null = none)
    {field : Option Json} {result : Option α}
    (read : defaulted (nullable decode) none field = some result) : result = field.bind decode := by
  cases field with
  | none => exact (Option.some.inj read).symm
  | some v =>
    rw [defaulted_some] at read
    rcases nullable_eq_some read with ⟨rfl, rfl⟩ | ⟨a, decoded, rfl⟩
    · exact null.symm
    · exact decoded.symm

@[simp] theorem each_array (decode : Json → Option α) (items : List Json) :
    each decode (.array items) = items.mapM decode := rfl

end Decode
end Json
