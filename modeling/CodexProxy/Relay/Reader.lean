import CodexProxy.Library.Bytes
import CodexProxy.Library.Polling

/-! The incremental SSE event reader. `advance` is one turn of the reader's loop
down to a single `fill_buf` of the buffered upstream, so a select may cancel it
between any two turns; `feed` is its abstraction, an automaton over single octets
that knows nothing of reads. -/
namespace CodexProxy.Relay
open Bytes

abbrev Event := List UInt8

/-- How the upstream ends once all its octets were read. -/
inductive Ending where
  | eof
  | failed (message : String)
deriving DecidableEq

/-- A buffered upstream: octets at hand, reads still to come, and the ending. A
read without octets is skipped, as by the stream adapter. -/
structure Upstream where
  buffer : List UInt8 := []
  reads : List (List UInt8)
  ending : Ending

/-- The octets not yet taken from the buffer. -/
def Upstream.rest (u : Upstream) : List UInt8 := u.buffer ++ u.reads.flatten

structure SseEventReader where
  line : List UInt8 := []
  dataLines : List (List UInt8) := []
  eof : Bool := false

namespace SseEventReader

def takePendingEvent (reader : SseEventReader) : SseEventReader × Option Event :=
  if reader.dataLines = [] then (reader, none)
  else ({ reader with dataLines := [] }, some (unlines reader.dataLines))

/-- Remove a prefix, if it is there. -/
def stripPrefix (front : List UInt8) (bs : List UInt8) : Option (List UInt8) :=
  if front.isPrefixOf bs then some (bs.drop front.length) else none

/-- One trailing `\r` is stripped. -/
def stripReturn (line : List UInt8) : List UInt8 :=
  if line.getLast? = some carriageReturn then line.dropLast else line

/-- Process a line without its newline; `true` on a blank line, the event boundary.
Comments and fields other than `data:` are ignored. -/
def processLine (reader : SseEventReader) (line : List UInt8) : SseEventReader × Bool :=
  let line := stripReturn line
  if trimAscii line = [] then (reader, true)
  else if (Text.utf8 ":").isPrefixOf line then (reader, false)
  else match stripPrefix (Text.utf8 "data:") line with
    | some payload =>
      -- one optional space after the colon
      let payload := (stripPrefix (Text.utf8 " ") payload).getD payload
      ({ reader with dataLines := reader.dataLines ++ [payload] }, false)
    | none => (reader, false)

@[simp] theorem processLine_line (reader : SseEventReader) (line : List UInt8) :
    (reader.processLine line).1.line = reader.line := by
  unfold processLine
  dsimp only
  split
  · rfl
  split
  · rfl
  split <;> rfl

@[simp] theorem processLine_eof (reader : SseEventReader) (line : List UInt8) :
    (reader.processLine line).1.eof = reader.eof := by
  unfold processLine
  dsimp only
  split
  · rfl
  split
  · rfl
  split <;> rfl

@[simp] theorem takePendingEvent_line (reader : SseEventReader) :
    reader.takePendingEvent.1.line = reader.line := by
  unfold takePendingEvent
  split <;> rfl

/-- What the reader holds back: an event whose boundary has not come. -/
def pending (reader : SseEventReader) : Nat := if reader.dataLines = [] then 0 else 1

theorem pending_le (reader : SseEventReader) : reader.pending ≤ 1 := by
  unfold pending
  split <;> omega

end SseEventReader

/-- The reader over its upstream, with the octets that the `read_until` call in
flight has appended. The line buffer never holds a newline between turns. -/
structure Reading where
  reader : SseEventReader
  upstream : Upstream
  count : Nat := 0
  clean : newline ∉ reader.line

namespace Reading

def new (reads : List (List UInt8)) (ending : Ending) : Reading where
  reader := {}
  upstream := { reads, ending }
  clean := by simp

/-- The call in flight is dropped and its count is lost, the line buffer is not. -/
def cancel (r : Reading) : Reading := { r with count := 0 }

/-- After a complete line was processed: an event at a boundary, if one is pending. -/
def lineDone (processed : SseEventReader × Bool) (upstream : Upstream)
    (clean : newline ∉ processed.1.line) : Polling.Progress Reading Event Ending :=
  if processed.2 then
    match processed.1.takePendingEvent.2 with
    | some event => .item event
        { reader := processed.1.takePendingEvent.1, upstream, clean := by simpa using clean }
    | none => .more { reader := processed.1, upstream, clean }
  else .more { reader := processed.1, upstream, clean }

/-- After `read_until` returned `n`, with the line still in the buffer. -/
def lineRead (reader : SseEventReader) (upstream : Upstream) (n : Nat) :
    Polling.Progress Reading Event Ending :=
  let line := reader.line
  let taken := { reader with line := [] }
  if n = 0 ∨ line.getLast? ≠ some newline then
    let ended := { taken with eof := true }
    if line = [] then .more { reader := ended, upstream, clean := by simp [ended, taken] }
    else .more { reader := (ended.processLine line).1, upstream, clean := by simp [ended, taken] }
  else lineDone (taken.processLine line.dropLast) upstream (by simp [taken])

/-- One turn of `next_event`, with at most one `fill_buf`. -/
def advance (r : Reading) : Polling.Progress Reading Event Ending :=
  if r.reader.eof then
    match r.reader.takePendingEvent.2 with
    | some event => .item event
        { r with reader := r.reader.takePendingEvent.1, clean := by simpa using r.clean }
    | none => .done .eof
  else match _found : r.upstream.buffer.dropWhile (· != newline) with
    | _ :: rest =>
      let front := r.upstream.buffer.takeWhile (· != newline)
      lineRead { r.reader with line := r.reader.line ++ front ++ [newline] }
        { r.upstream with buffer := rest } (r.count + front.length + 1)
    | [] =>
      if r.upstream.buffer ≠ [] then
        .more {
          reader := { r.reader with line := r.reader.line ++ r.upstream.buffer }
          upstream := { r.upstream with buffer := [] }
          count := r.count + r.upstream.buffer.length
          clean := by
            have := r.clean
            simp only [List.dropWhile_eq_nil_iff, bne_iff_ne, ne_eq] at _found
            simp only [List.mem_append, not_or]
            exact ⟨this, fun member => _found _ member rfl⟩ }
      else match r.upstream.reads with
        | read :: reads =>
          .more { r with upstream := { r.upstream with buffer := read, reads } }
        | [] =>
          match r.upstream.ending with
          | .failed message => .done (.failed message)
          | .eof => lineRead r.reader r.upstream r.count

end Reading
end CodexProxy.Relay
