import CodexProxy.Relay.Refinement
import CodexProxy.Relay.Framing

/-! Reading what was written. The reader gets back the payloads of a frame stream, and
so it reads from a pass-through relay's output what it would have read upstream. Of a
line the reader strips one carriage return only, so a line with two at its end is the
one that does not survive a second reading. -/
namespace CodexProxy.Relay
open Bytes EventStream Polling

/-- Take events until the reader has no more. -/
def collector : Handler (List Event) Event Ending Ending where
  onItem event events := .next (events ++ [event])
  onDone ending events := (events, ending)

/-- All events of an upstream, and how it ended. -/
def readAll (reads : List (List UInt8)) (ending : Ending) : List Event × Ending :=
  collector.drive Reading.source (Reading.new reads ending) []

theorem collector_fold (events before : List Event) (ending : Ending) :
    collector.fold events ending before = (before ++ events, ending) := by
  induction events generalizing before with
  | nil =>
    rw [List.append_nil]
    rfl
  | cons event events ih =>
    rw [Handler.fold]
    simp only [collector] at ih ⊢
    rw [ih, List.append_assoc, List.singleton_append]

theorem readAll_eq (reads : List (List UInt8)) (ending : Ending) :
    readAll reads ending = (eventsOf reads.flatten ending, ending) := by
  rw [readAll, Handler.drive_eq_fold, Reading.source_items_new, Reading.source_ending_new,
    collector_fold, List.nil_append]

def writeFrame : Frame → Write
  | .ping => writePing
  | .data payload => writeDataFrame payload

theorem writeFrame_spec (frame : Frame) : (writeFrame frame).Appends frame.encode := by
  cases frame with
  | ping => exact writePing_spec
  | data payload => exact writeDataFrame_spec payload

theorem writeFrame_heals (frame : Frame) : (writeFrame frame).Heals := by
  cases frame with
  | ping => exact writePing_heals
  | data payload => exact writeDataFrame_heals payload

/-- Frames whose writing succeeded were written in full. -/
theorem writeFrames_written {frames : List Frame} {d d' : Downstream}
    (wrote : Write.all (frames.map writeFrame) d = (d', .ok ())) :
    d'.written = d.written ++ encode frames := by
  have heals : (Write.all (frames.map writeFrame)).Heals := by
    apply Write.all_heals
    intro w member
    obtain ⟨frame, _, rfl⟩ := List.mem_map.mp member
    exact writeFrame_heals frame
  obtain ⟨d₁, performed, _, written⟩ :=
    Write.all_map_spec writeFrame_spec frames d.heal d.heal_healthy
  rw [heals d d' wrote] at performed
  cases performed
  exact written

/-- No line ends in two carriage returns. -/
def SingleReturns (bs : List UInt8) : Prop :=
  ∀ line ∈ lines bs, ¬ [carriageReturn, carriageReturn] <:+ line

namespace SseEventReader

/-- A payload line that survives being written and read. -/
def PlainLine (line : List UInt8) : Prop :=
  newline ∉ line ∧ line.getLast? ≠ some carriageReturn

theorem PlainLine.suffix {line tail : List UInt8} (plain : PlainLine line)
    (suffix : tail <:+ line) : PlainLine tail := by
  obtain ⟨front, rfl⟩ := suffix
  obtain ⟨clean, last⟩ := plain
  refine ⟨fun inside => clean (List.mem_append_right _ inside), ?_⟩
  intro ends
  rw [List.getLast?_append, ends, Option.some_or] at last
  exact last rfl

theorem stripReturn_plain {line : List UInt8} (clean : newline ∉ line)
    (single : ¬ [carriageReturn, carriageReturn] <:+ line) : PlainLine (stripReturn line) := by
  rw [stripReturn]
  split
  · rename_i ends
    obtain ⟨front, rfl⟩ : ∃ front, line = front ++ [carriageReturn] :=
      ⟨line.dropLast, (List.dropLast_append_getLast? _ ends).symm⟩
    rw [List.dropLast_concat]
    refine ⟨fun inside => clean (List.mem_append_left _ inside), ?_⟩
    intro again
    apply single
    obtain ⟨rest, rfl⟩ : ∃ rest, front = rest ++ [carriageReturn] :=
      ⟨front.dropLast, (List.dropLast_append_getLast? _ again).symm⟩
    exact ⟨rest, by simp⟩
  · rename_i other
    exact ⟨clean, other⟩

theorem stripPrefix_suffix {front bs rest : List UInt8} (found : stripPrefix front bs = some rest) :
    rest <:+ bs := by
  rw [stripPrefix] at found
  split at found
  · rw [← Option.some.inj found]
    exact List.drop_suffix _ _
  · cases found

/-- The gathered lines stay plain. -/
theorem processLine_plain {reader : SseEventReader} {line : List UInt8}
    (gathered : ∀ l ∈ reader.dataLines, PlainLine l) (clean : newline ∉ line)
    (single : ¬ [carriageReturn, carriageReturn] <:+ line) :
    ∀ l ∈ (reader.processLine line).1.dataLines, PlainLine l := by
  have plain := stripReturn_plain clean single
  rw [processLine]
  generalize stripReturn line = stripped at plain
  dsimp only
  split
  · exact gathered
  split
  · exact gathered
  split
  · rename_i payload found
    intro l member
    rcases List.mem_append.mp member with old | new
    · exact gathered l old
    · rw [List.mem_singleton.mp new]
      have part := plain.suffix (stripPrefix_suffix found)
      cases space : stripPrefix (Text.utf8 " ") payload with
      | none => exact part
      | some rest => exact part.suffix (stripPrefix_suffix space)
  · exact gathered

/-- An event of plain lines has them as its lines. -/
theorem takePendingEvent_framable {reader : SseEventReader}
    (gathered : ∀ l ∈ reader.dataLines, PlainLine l) :
    ∀ event ∈ reader.takePendingEvent.2, Framable event := by
  intro event taken
  rw [takePendingEvent] at taken
  split at taken
  · cases taken
  · rename_i some
    rw [← Option.some.inj taken]
    intro line member
    rw [lines_unlines (fun l inside => (gathered l inside).1) some] at member
    exact (gathered line member).2

theorem takePendingEvent_plain {reader : SseEventReader}
    (gathered : ∀ l ∈ reader.dataLines, PlainLine l) :
    ∀ l ∈ reader.takePendingEvent.1.dataLines, PlainLine l := by
  rw [takePendingEvent]
  split
  · exact gathered
  · intro l member
    cases member

/-- By induction on the octets; the open line and what follows it are the lines still
to be processed. -/
theorem remaining_framable (reader : SseEventReader) (bs : List UInt8) (ending : Ending)
    (gathered : ∀ l ∈ reader.dataLines, PlainLine l) (clean : newline ∉ reader.line)
    (single : SingleReturns (reader.line ++ bs)) :
    ∀ event ∈ reader.remaining bs ending, Framable event := by
  induction bs generalizing reader with
  | nil =>
    intro event member
    cases ending with
    | failed message => cases member
    | eof =>
      rw [remaining, scan_nil, List.nil_append, finish, Option.mem_toList] at member
      rw [List.append_nil] at single
      dsimp only at member
      split at member
      · exact takePendingEvent_framable gathered event member
      · have last : reader.line ∈ lines reader.line := by
          have one : ∀ l ∈ [reader.line], newline ∉ l := by simpa using clean
          have alone := lines_unlines one (List.cons_ne_nil _ _)
          rw [show unlines [reader.line] = reader.line by simp [unlines]] at alone
          rw [alone]
          exact List.mem_singleton_self _
        have plain : ∀ l ∈ (({ reader with line := [] } : SseEventReader).processLine
            reader.line).1.dataLines, PlainLine l :=
          processLine_plain gathered clean (single _ last)
        exact takePendingEvent_framable plain event member
  | cons b bs ih =>
    have step : reader.remaining (b :: bs) ending =
        (reader.feed b).2 ++ (reader.feed b).1.remaining bs ending := by
      have split := reader.remaining_append [b] bs ending
      simpa [scan] using split
    rw [step]
    intro event member
    rw [feed] at member
    split at member
    · rename_i ends
      subst ends
      rw [SingleReturns, lines_line_append clean] at single
      have here := single _ List.mem_cons_self
      have later : SingleReturns bs := fun l inside => single l (List.mem_cons_of_mem _ inside)
      have plain : ∀ l ∈ (({ reader with line := [] } : SseEventReader).processLine
          reader.line).1.dataLines, PlainLine l := processLine_plain gathered clean here
      rw [closeLine] at member
      split at member
      · rcases List.mem_append.mp member with taken | rest
        · exact takePendingEvent_framable plain event (Option.mem_toList.mp taken)
        · refine ih _ (takePendingEvent_plain plain) ?_ ?_ event rest
          · simp
          · simpa using later
      · refine ih _ plain ?_ ?_ event (by simpa using member)
        · simp
        · simpa using later
    · rename_i inside
      rw [List.nil_append] at member
      refine ih { reader with line := reader.line ++ [b] } gathered ?_ ?_ event member
      · rw [List.mem_append, List.mem_singleton, not_or]
        exact ⟨clean, Ne.symm inside⟩
      · rwa [List.append_assoc, List.singleton_append]

end SseEventReader

theorem eventsOf_framable {bs : List UInt8} (single : SingleReturns bs) (ending : Ending) :
    ∀ event ∈ eventsOf bs ending, Framable event :=
  SseEventReader.remaining_framable {} bs ending (by simp) (by simp) single

/-- The payloads of the frames that are copied: none is empty. -/
def copied (events : List Event) : List (List UInt8) :=
  (events.map passThroughPayload).filter (· ≠ [])

theorem passThrough_fold (events : List Event) (ending : Ending) (sent : List (List UInt8)) :
    (passThrough.fold events ending sent).1 = sent ++ copied events := by
  induction events generalizing sent with
  | nil => cases ending <;> simp [Handler.fold, passThrough, copied]
  | cons event events ih =>
    rw [Handler.fold]
    simp only [passThrough] at ih ⊢
    rw [ih, List.append_assoc]
    by_cases empty : passThroughPayload event = []
    · simp [copied, empty]
    · simp [copied, empty]

theorem copied_framable {events : List Event} (framable : ∀ e ∈ events, Framable e) :
    ∀ p ∈ copied events, Framable p := by
  intro p member
  obtain ⟨event, inside, rfl⟩ := List.mem_map.mp (List.mem_filter.mp member).1
  rw [passThroughPayload]
  split
  · exact framable_done
  · exact framable event inside

namespace Downstream

/-- The write failed. -/
def Vanished (outcome : Outcome) : Prop := ∃ message, outcome = .error (.downstreamWrite message)

theorem attempt_heal {w : Write} (heals : w.Heals) (d : Downstream)
    (accepted : (d.attempt w).Accepts (¬ Vanished ·)) :
    d.heal.attempt w = (d.attempt w).map heal := by
  cases performed : w d with
  | mk d' result =>
    cases result with
    | ok =>
      have healed := heals _ _ performed
      simp only [attempt, performed, healed]
      rfl
    | error message =>
      simp only [attempt, performed] at accepted
      exact absurd ⟨message, rfl⟩ accepted

end Downstream

/-- A relay whose client took every write has copied the upstream's events. -/
theorem passThrough_written {downstream : Downstream} {config : RelayConfig} {turns : List Turn}
    (empty : downstream.written = [])
    (returned : passThroughSseStream reads ending downstream config turns = .stopped d outcome)
    (stayed : ¬ Downstream.Vanished outcome) :
    ∃ frames, d.written = encode frames ∧
      payloads frames = copied (eventsOf reads.flatten ending) := by
  have healed := Loop.run_map passThroughLoop Reading.source Downstream.heal
    (¬ Downstream.Vanished ·)
    (fun d accepted => Downstream.attempt_heal writePing_heals d accepted)
    (fun event d accepted => by
      simp only [passThroughLoop] at accepted ⊢
      split
      · rfl
      · rename_i some
        rw [if_neg some] at accepted
        exact Downstream.attempt_heal (writeDataFrame_heals _) d accepted)
    (fun ending d _ => by cases ending <;> rfl) stayed returned
  obtain ⟨_, _, frames, written, sent⟩ :=
    passThrough_spec downstream.heal_healthy (by simpa using empty) healed
  rw [passThrough_fold, List.nil_append] at sent
  exact ⟨frames, written, sent⟩

/-- Frames with plain payload lines are read back as their payloads, wherever pings
stand between them; and a pass-through relay's output is read as the upstream would
have been, for every division into reads on either side and every schedule, except for
the empty payloads and the spelling of the sentinel. -/
theorem frames_read_back :
    (∀ (frames : List Frame) (d d' : Downstream) (reads : List (List UInt8)) (ending : Ending),
      (∀ p ∈ payloads frames, Framable p) → d.written = [] →
      Write.all (frames.map writeFrame) d = (d', .ok ()) → reads.flatten = d'.written →
      readAll reads ending = (payloads frames, ending)) ∧
    ∀ (upstream reads : List (List UInt8)) (ending ending' : Ending) (config : RelayConfig)
      (turns : List Turn) (d d' : Downstream) (outcome : Outcome),
      SingleReturns upstream.flatten → d.written = [] →
      passThroughSseStream upstream ending d config turns = .stopped d' outcome →
      ¬ Downstream.Vanished outcome → reads.flatten = d'.written →
      readAll reads ending' = (copied (readAll upstream ending).1, ending') := by
  constructor
  · intro frames d d' reads ending framable empty wrote same
    have written := writeFrames_written wrote
    rw [empty, List.nil_append] at written
    rw [readAll_eq, same, written, eventsOf_frames frames ending framable]
  · intro upstream reads ending ending' config turns d d' outcome single empty returned stayed same
    obtain ⟨frames, written, sent⟩ := passThrough_written empty returned stayed
    have framable : ∀ p ∈ payloads frames, Framable p := by
      rw [sent]
      exact copied_framable (eventsOf_framable single ending)
    rw [readAll_eq, readAll_eq, same, written, eventsOf_frames frames ending' framable, sent]

/-- Two payloads with a ping between them, and a sentinel with a space behind it. -/
theorem frames_read_back_two :
    let frames := [.data (Text.utf8 "a\n:b"), .ping, .data []]
    let upstream := [Text.utf8 "data: [DONE] \r\n", Text.utf8 "\n"]
    let client : Downstream := { sink := fun _ => none }
    readAll [(Write.all (frames.map writeFrame) client).1.written] .eof =
        (payloads frames, .eof) ∧
      ∃ turns d outcome, passThroughSseStream upstream .eof client {} turns = .stopped d outcome ∧
        readAll [d.written] .eof = ([Text.utf8 "[DONE]"], .eof) := by
  intro frames upstream client
  constructor
  · have plain : ∀ p ∈ payloads frames, ∀ line ∈ lines p,
        line.getLast? ≠ some carriageReturn := by decide
    exact frames_read_back.1 frames client _ _ .eof plain rfl rfl (List.append_nil _)
  · have single : ∀ line ∈ lines upstream.flatten,
        ¬ [carriageReturn, carriageReturn] <:+ line := by decide
    let turns := List.replicate ((Reading.new upstream .eof).size + 1) Turn.poll
    obtain ⟨d, outcome, returned⟩ := passThrough_returns upstream .eof client {} turns
      (by rw [List.count_replicate_self]; omega)
    have stayed : ¬ Downstream.Vanished outcome := by
      rw [(passThrough_spec (fun _ => rfl) rfl returned).1]
      rintro ⟨message, vanished⟩
      have ok : (passThrough.fold (eventsOf upstream.flatten .eof) .eof []).2 = .ok () := rfl
      rw [ok] at vanished
      cases vanished
    refine ⟨turns, d, outcome, returned, ?_⟩
    rw [frames_read_back.2 upstream [d.written] .eof .eof {} turns client d outcome single rfl
      returned stayed (List.append_nil _), readAll_eq]
    rfl

end CodexProxy.Relay
