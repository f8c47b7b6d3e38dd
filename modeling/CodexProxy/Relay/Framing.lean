import CodexProxy.Relay.Events
import CodexProxy.Library.EventStream
import CodexProxy.Library.Decode

/-! The reader inverts the writer: the events of a stream of data frames are the
payloads of the frames. A payload line that ends in `\r` is the one exception, since
the reader takes that octet for a part of the line break. -/
namespace CodexProxy.Relay
open Bytes EventStream

/-- No line of the payload ends in a carriage return. -/
def Framable (payload : List UInt8) : Prop :=
  ∀ line ∈ lines payload, line.getLast? ≠ some carriageReturn

namespace SseEventReader

theorem stripReturn_eq {line : List UInt8} (plain : line.getLast? ≠ some carriageReturn) :
    stripReturn line = line := by
  rw [stripReturn, if_neg plain]

theorem dataRow_last {line : List UInt8} (plain : line.getLast? ≠ some carriageReturn) :
    (dataField ++ line).getLast? ≠ some carriageReturn := by
  rw [List.getLast?_append]
  cases last : line.getLast? with
  | none => decide
  | some b =>
    rw [last] at plain
    exact plain

/-- A data row is visible: it begins with the name of its field. -/
theorem dataRow_visible (line : List UInt8) : trimAscii (dataField ++ line) ≠ [] := by
  intro blank
  have kept : (dataField ++ line).dropWhile isAsciiWhitespace = dataField ++ line := rfl
  rw [trimAscii, kept, List.rdropWhile_eq_nil_iff] at blank
  exact absurd (blank 100 (List.mem_append_left _ (by decide))) (by decide)

theorem processLine_dataRow (reader : SseEventReader) {line : List UInt8}
    (plain : line.getLast? ≠ some carriageReturn) :
    reader.processLine (dataField ++ line) =
      ({ reader with dataLines := reader.dataLines ++ [line] }, false) := by
  have comment : (Text.utf8 ":").isPrefixOf (dataField ++ line) = false := rfl
  have field : stripPrefix (Text.utf8 "data:") (dataField ++ line) =
      some (Text.utf8 " " ++ line) := by
    have split : dataField ++ line = Text.utf8 "data:" ++ (Text.utf8 " " ++ line) := rfl
    rw [stripPrefix, split, if_pos (by simp), List.drop_left]
  have space : stripPrefix (Text.utf8 " ") (Text.utf8 " " ++ line) = some line := by
    rw [stripPrefix, if_pos (by simp), List.drop_left]
  simp only [processLine, stripReturn_eq (dataRow_last plain), if_neg (dataRow_visible line),
    comment, Bool.false_eq_true, if_false, field, space, Option.getD_some]

theorem closeLine_dataRow (reader : SseEventReader) {line : List UInt8}
    (plain : line.getLast? ≠ some carriageReturn) :
    reader.closeLine (dataField ++ line) =
      ({ reader with dataLines := reader.dataLines ++ [line] }, []) := by
  simp only [closeLine, processLine_dataRow reader plain, Bool.false_eq_true, if_false]

theorem closeLine_blank (reader : SseEventReader) :
    reader.closeLine [] = (reader.takePendingEvent.1, reader.takePendingEvent.2.toList) := rfl

/-- By induction on the rows, which gather in the reader. -/
theorem scan_dataRows (rows : List (List UInt8)) (gathered : List (List UInt8))
    (clean : ∀ line ∈ rows, newline ∉ line)
    (plain : ∀ line ∈ rows, line.getLast? ≠ some carriageReturn) :
    ({ dataLines := gathered } : SseEventReader).scan (terminated (rows.map (dataField ++ ·))) =
      ({ dataLines := gathered ++ rows }, []) := by
  induction rows generalizing gathered with
  | nil => simp [terminated]
  | cons line rows ih =>
    have noNewline : newline ∉ dataField ++ line := by
      rw [List.mem_append, not_or]
      exact ⟨by decide, clean line List.mem_cons_self⟩
    have first := scan_line ({ dataLines := gathered } : SseEventReader) noNewline
    rw [List.nil_append, closeLine_dataRow _ (plain line List.mem_cons_self)] at first
    have later := ih (gathered ++ [line]) (fun l member => clean l (List.mem_cons_of_mem _ member))
      fun l member => plain l (List.mem_cons_of_mem _ member)
    rw [List.map_cons, terminated, List.flatMap_cons, ← terminated, scan_append, first]
    dsimp only
    rw [later, List.append_assoc]
    rfl

theorem scan_frame {payload : List UInt8} (framable : Framable payload) :
    ({} : SseEventReader).scan (Frame.data payload).encode = ({}, [payload]) := by
  have rows := scan_dataRows (lines payload) [] (fun line => newline_not_mem_lines) framable
  have closing := scan_line ({ dataLines := lines payload } : SseEventReader)
    (show newline ∉ ([] : List UInt8) by simp)
  have boundary : ({ dataLines := lines payload } : SseEventReader).closeLine [] =
      ({}, [payload]) := by
    rw [closeLine_blank, takePendingEvent, if_neg (lines_ne_nil payload), unlines_lines]
    rfl
  rw [List.nil_append, List.nil_append, boundary] at closing
  have split : (Frame.data payload).encode =
      terminated ((lines payload).map (dataField ++ ·)) ++ [newline] := by
    simp [Frame.encode, Frame.rows, terminated]
  rw [split, scan_append, rows]
  dsimp only
  rw [List.nil_append, closing]
  rfl

/-- A ping is a comment and a blank line: nothing is gathered. -/
theorem scan_ping : ({} : SseEventReader).scan Frame.ping.encode = ({}, []) := by rfl

end SseEventReader

/-- The events of a stream of frames are the payloads of its data frames, wherever the
pings stand and however it ends. -/
theorem eventsOf_frames (frames : List Frame) (ending : Ending)
    (framable : ∀ p ∈ payloads frames, Framable p) :
    eventsOf (encode frames) ending = payloads frames := by
  have scanned : ({} : SseEventReader).scan (encode frames) = ({}, payloads frames) := by
    induction frames with
    | nil => rfl
    | cons f fs ih =>
      rw [encode, List.flatMap_cons, ← encode, SseEventReader.scan_append]
      cases f with
      | ping =>
        rw [SseEventReader.scan_ping]
        exact ih framable
      | data p =>
        have here : Framable p := framable p (mem_payloads.mpr List.mem_cons_self)
        have later : ∀ q ∈ payloads fs, Framable q := fun q member =>
          framable q (mem_payloads.mpr (List.mem_cons_of_mem _ (mem_payloads.mp member)))
        rw [SseEventReader.scan_frame here]
        dsimp only
        rw [ih later]
        rfl
  rw [eventsOf]
  cases ending with
  | eof =>
    rw [SseEventReader.remaining, scanned]
    exact List.append_nil _
  | failed message => rw [SseEventReader.remaining, scanned]

theorem eventsOf_encode (payloads : List (List UInt8)) (ending : Ending)
    (framable : ∀ p ∈ payloads, Framable p) :
    eventsOf (encode (payloads.map .data)) ending = payloads := by
  rw [eventsOf_frames _ _ (by rwa [payloads_map_data]), payloads_map_data]

/-- Compact JSON has no control characters, so it can be framed. -/
theorem framable_toVec (codec : Json.Codec) (v : Json) : Framable (codec.toVec v) := by
  have single : lines (unlines [codec.toVec v]) = [codec.toVec v] := by
    refine lines_unlines ?_ (by simp)
    intro l member inside
    rw [List.mem_singleton.mp member] at inside
    exact absurd (codec.write_visible v _ inside) (by decide)
  intro line member last
  rw [show codec.toVec v = unlines [codec.toVec v] by simp [unlines], single,
    List.mem_singleton] at member
  rw [member] at last
  exact absurd (codec.write_visible v _ (List.mem_of_getLast? last)) (by decide)

/-- The sentinel is a payload of one clean line. -/
theorem framable_done : Framable (Text.utf8 "[DONE]") := by
  unfold Framable
  decide

/-- An upstream that sends JSON events, in one read. -/
def streamOf (codec : Json.Codec) (values : List Json) : List (List UInt8) :=
  [encode ((values.map codec.toVec).map .data)]

theorem eventsOf_streamOf (codec : Json.Codec) (values : List Json) (ending : Ending) :
    eventsOf (streamOf codec values).flatten ending = values.map codec.toVec := by
  rw [streamOf, List.flatten_singleton, eventsOf_encode]
  intro p member
  obtain ⟨v, _, rfl⟩ := List.mem_map.mp member
  exact framable_toVec codec v

end CodexProxy.Relay
