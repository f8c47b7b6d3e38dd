import CodexProxy.Relay.Reader

/-! What the reader yields: the events of an octet string, by an automaton over
single octets. The reader over buffered reads is a polled source of exactly these
events, for every division into reads and every cancellation. -/
namespace CodexProxy.Relay
open Bytes

namespace SseEventReader

/-- The event that a complete line closes. -/
def closeLine (reader : SseEventReader) (line : List UInt8) : SseEventReader × List Event :=
  let processed := reader.processLine line
  if processed.2 then (processed.1.takePendingEvent.1, processed.1.takePendingEvent.2.toList)
  else (processed.1, [])

/-- Take one octet. -/
def feed (reader : SseEventReader) (b : UInt8) : SseEventReader × List Event :=
  if b = newline then { reader with line := [] }.closeLine reader.line
  else ({ reader with line := reader.line ++ [b] }, [])

/-- Take octets in order, collecting the events they complete. -/
def scan (reader : SseEventReader) : List UInt8 → SseEventReader × List Event
  | [] => (reader, [])
  | b :: bs => ((reader.feed b).1.scan bs |>.1, (reader.feed b).2 ++ ((reader.feed b).1.scan bs).2)

/-- The event left at the end of the octets: an unterminated line is still a line. -/
def finish (reader : SseEventReader) : List Event :=
  let last := if reader.line = [] then reader
    else ({ reader with line := [] }.processLine reader.line).1
  last.takePendingEvent.2.toList

/-- The events still to come from these octets and this ending. -/
def remaining (reader : SseEventReader) (bs : List UInt8) : Ending → List Event
  | .eof => (reader.scan bs).2 ++ (reader.scan bs).1.finish
  | .failed _ => (reader.scan bs).2

@[simp] theorem scan_nil (reader : SseEventReader) : reader.scan [] = (reader, []) := rfl

theorem scan_append (reader : SseEventReader) (bs cs : List UInt8) :
    reader.scan (bs ++ cs) =
      (((reader.scan bs).1.scan cs).1, (reader.scan bs).2 ++ ((reader.scan bs).1.scan cs).2) := by
  induction bs generalizing reader with
  | nil => rfl
  | cons b bs ih => simp only [List.cons_append, scan, ih, List.append_assoc]

theorem scan_clean (reader : SseEventReader) {bs : List UInt8} (clean : newline ∉ bs) :
    reader.scan bs = ({ reader with line := reader.line ++ bs }, []) := by
  induction bs generalizing reader with
  | nil => simp
  | cons b bs ih =>
    simp only [List.mem_cons, not_or] at clean
    have fed : reader.feed b = ({ reader with line := reader.line ++ [b] }, []) := by
      rw [feed, if_neg (Ne.symm clean.1)]
    rw [scan, fed, ih _ clean.2]
    simp

/-- A line's own octets and its newline amount to closing that line. -/
theorem scan_line (reader : SseEventReader) {front : List UInt8} (clean : newline ∉ front) :
    reader.scan (front ++ [newline]) =
      { reader with line := [] }.closeLine (reader.line ++ front) := by
  rw [scan_append, scan_clean reader clean, scan, scan_nil, feed, if_pos rfl]
  simp

theorem remaining_append (reader : SseEventReader) (bs cs : List UInt8) (ending : Ending) :
    reader.remaining (bs ++ cs) ending =
      (reader.scan bs).2 ++ (reader.scan bs).1.remaining cs ending := by
  cases ending <;> simp [remaining, scan_append]

end SseEventReader

/-- The events of an octet string that ends so. -/
def eventsOf (bs : List UInt8) (ending : Ending) : List Event :=
  ({} : SseEventReader).remaining bs ending

namespace Reading

/-- The events a reading has still to yield. -/
def events (r : Reading) : List Event :=
  if r.reader.eof then r.reader.takePendingEvent.2.toList
  else r.reader.remaining r.upstream.rest r.upstream.ending

def ending (r : Reading) : Ending := if r.reader.eof then .eof else r.upstream.ending

/-- A bound on the turns left: every turn takes an octet, a read, the end of the
upstream or a pending event. -/
def size (r : Reading) : Nat :=
  2 * r.upstream.rest.length + r.upstream.reads.length + (if r.reader.eof then 0 else 2) +
    r.reader.pending

/-- What one turn guarantees. -/
def Advances (r : Reading) : Polling.Progress Reading Event Ending → Prop
  | .more r' => r'.events = r.events ∧ r'.ending = r.ending ∧ r'.size < r.size
  | .item e r' => r.events = e :: r'.events ∧ r'.ending = r.ending ∧ r'.size < r.size
  | .done x => r.events = [] ∧ r.ending = x

theorem takePendingEvent_some {reader : SseEventReader} {event : Event}
    (taken : reader.takePendingEvent.2 = some event) :
    reader.pending = 1 ∧ reader.takePendingEvent.1.pending = 0 ∧
      reader.takePendingEvent.1.eof = reader.eof ∧
      reader.takePendingEvent.1.takePendingEvent.2 = none := by
  unfold SseEventReader.takePendingEvent at taken ⊢
  split at taken
  · contradiction
  · rename_i some
    simp [SseEventReader.pending, some]

theorem takePendingEvent_none {reader : SseEventReader}
    (taken : reader.takePendingEvent.2 = none) : reader.takePendingEvent.1 = reader := by
  unfold SseEventReader.takePendingEvent at taken ⊢
  split at taken <;> simp_all

/-- A processed line yields what closing it yields, at the price of its octets. -/
theorem lineDone_spec {r : Reading} {processed : SseEventReader × Bool} {upstream : Upstream}
    {clean : newline ∉ processed.1.line} (running : r.reader.eof = false)
    (notEnded : processed.1.eof = false) (sameEnding : upstream.ending = r.upstream.ending)
    (events : r.events = (if processed.2 then processed.1.takePendingEvent.2.toList else []) ++
      (if processed.2 then processed.1.takePendingEvent.1 else processed.1).remaining
        upstream.rest upstream.ending)
    (large : 2 * upstream.rest.length + upstream.reads.length + 4 ≤ r.size) :
    r.Advances (lineDone processed upstream clean) := by
  have bound := processed.1.pending_le
  have ending : r.ending = upstream.ending := by simp [Reading.ending, running, sameEnding]
  unfold lineDone
  split
  · rename_i boundary
    rw [if_pos boundary, if_pos boundary] at events
    split
    · rename_i event taken
      obtain ⟨_, fewer, ended, _⟩ := takePendingEvent_some taken
      rw [notEnded] at ended
      refine ⟨?_, ?_, ?_⟩
      · rw [events, taken]
        simp [Reading.events, ended]
      · simp [Reading.ending, ended, running, sameEnding]
      · simp only [size, ended, fewer] at large ⊢
        simp only [Bool.false_eq_true, if_false]
        omega
    · rename_i taken
      have same := takePendingEvent_none taken
      refine ⟨?_, ?_, ?_⟩
      · rw [events, taken, same]
        simp [Reading.events, notEnded]
      · simp [Reading.ending, notEnded, running, sameEnding]
      · simp only [size, notEnded] at large ⊢
        simp only [Bool.false_eq_true, if_false]
        omega
  · rename_i inside
    rw [if_neg inside, if_neg inside] at events
    refine ⟨?_, ?_, ?_⟩
    · rw [events]
      simp [Reading.events, notEnded]
    · simp [Reading.ending, notEnded, running, sameEnding]
    · simp only [size, notEnded] at large ⊢
      simp only [Bool.false_eq_true, if_false]
      omega

theorem lineRead_line {r : Reading} {front rest : List UInt8} (running : r.reader.eof = false)
    (clean : newline ∉ front) (buffer : r.upstream.buffer = front ++ newline :: rest) :
    r.Advances (lineRead { r.reader with line := r.reader.line ++ front ++ [newline] }
      { r.upstream with buffer := rest } (r.count + front.length + 1)) := by
  have split : r.upstream.rest = (front ++ [newline]) ++ (rest ++ r.upstream.reads.flatten) := by
    simp [Upstream.rest, buffer]
  have length : r.upstream.rest.length =
      front.length + 1 + (rest ++ r.upstream.reads.flatten).length := by
    rw [split, List.length_append, List.length_append, List.length_singleton]
  simp only [lineRead, List.getLast?_append, List.getLast?_singleton, Option.some_or, ne_eq,
    not_true_eq_false, or_false, Nat.add_eq_zero_iff, Nat.one_ne_zero, and_false, if_false,
    List.dropLast_concat]
  apply lineDone_spec running
  · simpa using running
  · rfl
  · rw [Reading.events, if_neg (by simp [running]), split, SseEventReader.remaining_append,
      SseEventReader.scan_line _ clean, SseEventReader.closeLine]
    split <;> rfl
  · simp only [size, running, length, Bool.false_eq_true, if_false]
    simp only [Upstream.rest]
    omega

/-- At the end of the upstream the reader turns to its leftover line. -/
theorem lineRead_eof {r : Reading} (running : r.reader.eof = false)
    (empty : r.upstream.rest = []) (eof : r.upstream.ending = .eof) :
    r.Advances (lineRead r.reader r.upstream r.count) := by
  have unterminated : r.count = 0 ∨ r.reader.line.getLast? ≠ some newline := by
    right
    intro last
    exact r.clean (List.mem_of_getLast? last)
  have events : r.events = r.reader.finish := by
    simp [Reading.events, running, empty, eof, SseEventReader.remaining]
  simp only [lineRead, if_pos unterminated]
  split
  · rename_i blank
    refine ⟨?_, ?_, ?_⟩
    · rw [events]
      simp [Reading.events, SseEventReader.finish, blank, SseEventReader.takePendingEvent]
      split <;> rfl
    · simp [Reading.ending, running, eof]
    · simp [size, running, SseEventReader.pending]
  · rename_i partialLine
    refine ⟨?_, ?_, ?_⟩
    · rw [events]
      simp only [Reading.events, SseEventReader.processLine_eof, if_true, SseEventReader.finish,
        if_neg partialLine]
      unfold SseEventReader.processLine SseEventReader.takePendingEvent
      dsimp only
      split
      · split <;> rfl
      split
      · split <;> rfl
      split <;> split <;> rfl
    · simp [Reading.ending, running, eof]
    · have bound := (({ dataLines := r.reader.dataLines, eof := true } : SseEventReader).processLine
        r.reader.line).1.pending_le
      simp only [size, running, SseEventReader.processLine_eof]
      simp
      omega

theorem advance_spec (r : Reading) : r.Advances r.advance := by
  unfold advance
  split
  · rename_i ended
    split
    · rename_i event taken
      obtain ⟨one, none, eof, empty⟩ := takePendingEvent_some taken
      refine ⟨?_, ?_, ?_⟩
      · simp [Reading.events, ended, eof, taken, empty]
      · simp [Reading.ending, eof]
      · simp only [size, eof, one, none]
        omega
    · rename_i taken
      exact ⟨by simp [Reading.events, ended, taken], by simp [Reading.ending, ended]⟩
  · rename_i notEnded
    have running : r.reader.eof = false := by simpa using notEnded
    split
    · rename_i b rest found
      have atNewline : b = newline := by
        have := List.head?_dropWhile_not (· != newline) r.upstream.buffer
        rw [found] at this
        simpa using this
      subst atNewline
      apply lineRead_line running
      · intro member
        simpa using List.mem_takeWhile_imp member
      · rw [← found, List.takeWhile_append_dropWhile]
    · rename_i found
      split
      · rename_i nonempty
        have clean : newline ∉ r.upstream.buffer := by
          simp only [List.dropWhile_eq_nil_iff, bne_iff_ne, ne_eq] at found
          exact fun member => found _ member rfl
        refine ⟨?_, ?_, ?_⟩
        · simp [Reading.events, running, Upstream.rest, SseEventReader.remaining_append,
            SseEventReader.scan_clean _ clean]
        · simp [Reading.ending, running]
        · have := List.length_pos_iff.mpr nonempty
          simp [size, running, Upstream.rest, SseEventReader.pending]
          omega
      · rename_i empty
        simp only [ne_eq, Decidable.not_not] at empty
        split
        · rename_i read reads more
          refine ⟨?_, ?_, ?_⟩
          · simp [Reading.events, running, Upstream.rest, empty, more]
          · simp [Reading.ending, running]
          · simp [size, running, Upstream.rest, empty, more]
        · rename_i noReads
          have exhausted : r.upstream.rest = [] := by simp [Upstream.rest, empty, noReads]
          split
          · rename_i message failed
            refine ⟨?_, ?_⟩
            · simp [Reading.events, running, exhausted, failed, SseEventReader.remaining]
            · simp [Reading.ending, running, failed]
          · rename_i eof
            exact lineRead_eof running exhausted eof

/-- The reader as a source of events. -/
def source : Polling.Source Reading Event Ending where
  advance := advance
  cancel := cancel
  items := events
  ending := ending
  size := size
  more {r r'} step := by
    have spec := r.advance_spec
    rw [step] at spec
    exact spec
  item {r e r'} step := by
    have spec := r.advance_spec
    rw [step] at spec
    exact spec
  done {r x} step := by
    have spec := r.advance_spec
    rw [step] at spec
    exact spec
  cancelled r := ⟨rfl, rfl, Nat.le_refl _⟩

@[simp] theorem source_items_new (reads : List (List UInt8)) (ending : Ending) :
    source.items (new reads ending) = eventsOf reads.flatten ending := by
  simp [source, events, new, eventsOf, Upstream.rest]

@[simp] theorem source_ending_new (reads : List (List UInt8)) (ending : Ending) :
    source.ending (new reads ending) = ending := rfl

end Reading
end CodexProxy.Relay
