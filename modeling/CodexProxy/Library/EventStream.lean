import CodexProxy.Library.Bytes

/-! The octet format of a server-sent event stream as a producer writes it: pings,
which are comments, and data frames whose payload is spread over one field per
line. A string of complete frames decodes to these frames, so framing is injective. -/
namespace EventStream
open Bytes

inductive Frame where
  | ping
  | data (payload : List UInt8)
deriving DecidableEq

def pingLine : List UInt8 := Text.utf8 ": ping"
def dataField : List UInt8 := Text.utf8 "data: "

/-- The lines of a frame, without their newlines. -/
def Frame.rows : Frame → List (List UInt8)
  | .ping => [pingLine, []]
  | .data payload => (lines payload).map (dataField ++ ·) ++ [[]]

/-- Every line ends in a newline. -/
def terminated (rows : List (List UInt8)) : List UInt8 := rows.flatMap (· ++ [newline])

def Frame.encode (f : Frame) : List UInt8 := terminated f.rows

def encode (fs : List Frame) : List UInt8 := fs.flatMap Frame.encode

/-- Read rows into frames; `gathered` holds the payload lines of an open frame. The
last row is what follows the last newline, which is nothing. -/
def decodeRows (gathered : List (List UInt8)) : List (List UInt8) → Option (List Frame)
  | [] => none
  | row :: rows =>
    if dataField.isPrefixOf row then
      decodeRows (gathered ++ [row.drop dataField.length]) rows
    else if gathered ≠ [] then
      if row = [] then (decodeRows [] rows).map (.data (unlines gathered) :: ·) else none
    else if row = [] then if rows = [] then some [] else none
    else if row = pingLine then
      match rows with
      | [] :: rest => (decodeRows [] rest).map (.ping :: ·)
      | _ => none
    else none

def decode (bs : List UInt8) : Option (List Frame) := decodeRows [] (lines bs)

/-- The payloads of the data frames. -/
def payloads (fs : List Frame) : List (List UInt8) :=
  fs.filterMap fun
    | .ping => none
    | .data payload => some payload

/-- A stream of frames with its pings removed. -/
def withoutPings (bs : List UInt8) : Option (List UInt8) :=
  (decode bs).map fun fs => encode (fs.filter (· ≠ .ping))

@[simp] theorem encode_nil : encode [] = [] := rfl

@[simp] theorem encode_append (fs gs : List Frame) : encode (fs ++ gs) = encode fs ++ encode gs := by
  simp [encode]

@[simp] theorem payloads_append (fs gs : List Frame) :
    payloads (fs ++ gs) = payloads fs ++ payloads gs := by
  simp [payloads]

@[simp] theorem payloads_ping : payloads [.ping] = [] := rfl

@[simp] theorem payloads_data (p : List UInt8) : payloads [.data p] = [p] := rfl

@[simp] theorem payloads_map_data (ps : List (List UInt8)) : payloads (ps.map .data) = ps := by
  induction ps with
  | nil => rfl
  | cons p ps ih => exact congrArg (p :: ·) ih

/-- Without pings a stream is its payloads. -/
theorem filter_ping (fs : List Frame) : fs.filter (· ≠ .ping) = (payloads fs).map .data := by
  induction fs with
  | nil => rfl
  | cons f fs ih =>
    cases f with
    | ping => simpa [payloads] using ih
    | data p => simpa [payloads] using ih

theorem mem_payloads {fs : List Frame} : p ∈ payloads fs ↔ .data p ∈ fs := by
  rw [payloads, List.mem_filterMap]
  constructor
  · rintro ⟨f, member, found⟩
    cases f with
    | ping => contradiction
    | data q =>
      cases found
      exact member
  · intro member
    exact ⟨_, member, rfl⟩

theorem rows_clean (f : Frame) : ∀ row ∈ f.rows, newline ∉ row := by
  intro row member
  cases f with
  | ping =>
    simp only [Frame.rows, List.mem_cons, List.not_mem_nil, or_false] at member
    rcases member with rfl | rfl <;> decide
  | data payload =>
    simp only [Frame.rows, List.mem_append, List.mem_map, List.mem_singleton] at member
    rcases member with ⟨line, member, rfl⟩ | rfl
    · rw [List.mem_append, not_or]
      exact ⟨by decide, newline_not_mem_lines member⟩
    · simp

theorem lines_terminated {rows : List (List UInt8)} (clean : ∀ row ∈ rows, newline ∉ row)
    (bs : List UInt8) : lines (terminated rows ++ bs) = rows ++ lines bs := by
  induction rows with
  | nil => rfl
  | cons row rows ih =>
    have here := clean row List.mem_cons_self
    have later := ih fun r member => clean r (List.mem_cons_of_mem _ member)
    simp only [terminated, List.flatMap_cons, List.append_assoc, List.cons_append,
      List.nil_append] at later ⊢
    rw [lines_line_append here, later]

/-- The field name marks a data row, whatever the payload. -/
theorem isPrefixOf_dataField (line : List UInt8) : dataField.isPrefixOf (dataField ++ line) := by
  simp

theorem decodeRows_data (gathered more : List (List UInt8)) (rows : List (List UInt8)) :
    decodeRows gathered (more.map (dataField ++ ·) ++ rows) =
      decodeRows (gathered ++ more) rows := by
  induction more generalizing gathered with
  | nil => simp
  | cons line more ih =>
    have opened : decodeRows gathered ((dataField ++ line) :: (more.map (dataField ++ ·) ++ rows)) =
        decodeRows (gathered ++ [line]) (more.map (dataField ++ ·) ++ rows) := by
      rw [decodeRows.eq_def]
      dsimp only
      rw [if_pos (isPrefixOf_dataField line), List.drop_left]
    rw [List.map_cons, List.cons_append, opened, ih, List.append_assoc, List.singleton_append]

theorem decodeRows_close {gathered : List (List UInt8)} (opened : gathered ≠ [])
    (rows : List (List UInt8)) :
    decodeRows gathered ([] :: rows) =
      (decodeRows [] rows).map (.data (unlines gathered) :: ·) := by
  rw [decodeRows.eq_def]
  dsimp only
  rw [if_neg (by decide), if_pos opened, if_pos rfl]

theorem decodeRows_frame (f : Frame) (rows : List (List UInt8)) :
    decodeRows [] (f.rows ++ rows) = (decodeRows [] rows).map (f :: ·) := by
  cases f with
  | ping => rfl
  | data payload =>
    rw [Frame.rows, List.append_assoc, decodeRows_data, List.nil_append, List.singleton_append,
      decodeRows_close (lines_ne_nil payload), unlines_lines]

/-- Decoding recovers the frames that were written. -/
theorem decode_encode (fs : List Frame) : decode (encode fs) = some fs := by
  suffices spec : decodeRows [] (lines (encode fs ++ [])) = some fs by
    rwa [List.append_nil] at spec
  induction fs with
  | nil => rfl
  | cons f fs ih =>
    have split : encode (f :: fs) ++ [] = terminated f.rows ++ (encode fs ++ []) := by
      simp [encode, Frame.encode]
    rw [split, lines_terminated (rows_clean f), decodeRows_frame, ih, Option.map_some]

theorem withoutPings_encode (fs : List Frame) :
    withoutPings (encode fs) = some (encode ((payloads fs).map .data)) := by
  rw [withoutPings, decode_encode, Option.map_some, filter_ping]

example : decode (encode [.data (Text.utf8 "a\nb"), .ping]) =
    some [.data (Text.utf8 "a\nb"), .ping] := by decide +kernel

end EventStream
