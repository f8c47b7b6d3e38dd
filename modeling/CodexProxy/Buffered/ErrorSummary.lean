import CodexProxy.Buffered.Responses
import CodexProxy.Library.Slices

/-! What is shown of a stream's last error. Of a stream that ends early only the code and
the message of its last error event are rendered; the message is cut to a limit, at the
position of a character, and the code is not. -/
namespace CodexProxy.Buffered
open Relay Polling

/-- Cut at the position of the first character too many; none when the cut panics. -/
def truncateMessage (msg : String) : Option String :=
  match (Text.charIndices 0 msg.toList)[UPSTREAM_ERROR_MESSAGE_LIMIT]? with
  | some (cutoff, _) => (Text.sliceTo msg cutoff).map (· ++ "…")
  | none => some msg

/-- The code and the message of an error event. -/
def diagnosis (payload : Json) : Option String × Option String :=
  ((payload.get? "code").bind Json.asString, (payload.get? "message").bind Json.asString)

/-- The summary of a code and of a message that has been cut. -/
def renderSummary (code message : Option String) : String :=
  let summary := match code, message with
    | some code, some message => code ++ ": " ++ message
    | some code, none => code
    | none, some message => message
    | none, none => "unparseable"
  " (last upstream error: " ++ summary ++ ")"

/-- The summary with the cut made by position. -/
def summarizeSliced (payload : Json) : Option String :=
  match diagnosis payload with
  | (code, some msg) => (truncateMessage msg).map fun message => renderSummary code (some message)
  | (code, none) => some (renderSummary code none)

/-- The text of a stream's failure, with the cut made by position. -/
def displaySliced (upstreamError : Option Json) : Option String :=
  match upstreamError with
  | none => some "responses stream ended without a terminal response event"
  | some payload => (summarizeSliced payload).map
      ("responses stream ended without a terminal response event" ++ ·)

/-- The error event that is remembered. -/
def lastError (payloads : List Json) : Option Json :=
  (payloads.filter (eventTypeOf · = "error")).getLast?

variable (codec : Json.Codec)

/-- The payloads of a stream that ends. -/
def endedPayloads (reads : List (List UInt8)) : List Json :=
  payloadsOf codec (eventsOf reads.flatten .eof)

/-- The stream ends without a terminal response event. -/
def Unfinished (reads : List (List UInt8)) : Prop := finalResponse (endedPayloads codec reads) = none

/-- The stream fails with its last error and renders it as the text. -/
def Renders (reads : List (List UInt8)) (text : String) : Prop :=
  ∃ upstreamError,
    bufferResponsesResponse codec reads .eof = .error (.missingTerminalEvent upstreamError) ∧
      displaySliced upstreamError = some text ∧
      BufferError.display (.missingTerminalEvent upstreamError) = text

/-- Among some streams every failure is rendered within one bound, from nothing but the code
and the message of the last error. -/
structure Summarizes (streams : List (List UInt8) → Prop) : Prop where
  bounded : ∃ bound, ∀ reads, streams reads → Unfinished codec reads →
    ∃ text, Renders codec reads text ∧ text.toList.length ≤ bound
  determined : ∀ reads reads' text, streams reads → streams reads' → Unfinished codec reads →
    Unfinished codec reads' →
    (lastError (endedPayloads codec reads)).map diagnosis =
      (lastError (endedPayloads codec reads')).map diagnosis →
    Renders codec reads text → Renders codec reads' text

/-- One length that no code of a last error exceeds. -/
def CodesBounded (streams : List (List UInt8) → Prop) : Prop :=
  ∃ longest, ∀ reads, streams reads → Unfinished codec reads →
    ∀ payload code, lastError (endedPayloads codec reads) = some payload →
      payload.get? "code" = some (.string code) → code.toList.length ≤ longest

/-- A message as it is rendered. -/
def shorten (msg : String) : String :=
  if UPSTREAM_ERROR_MESSAGE_LIMIT < msg.toList.length then
    String.ofList (msg.toList.take UPSTREAM_ERROR_MESSAGE_LIMIT) ++ "…"
  else msg

/-- The cut is at a character's position, and it keeps as many characters as the limit. -/
theorem truncateMessage_eq (msg : String) : truncateMessage msg = some (shorten msg) := by
  rw [truncateMessage, shorten]
  cases found : (Text.charIndices 0 msg.toList)[UPSTREAM_ERROR_MESSAGE_LIMIT]? with
  | none =>
    rw [Text.charIndices_get, Option.map_eq_none_iff, List.getElem?_eq_none_iff] at found
    rw [if_neg (Nat.not_lt.mpr found)]
  | some position =>
    have long : UPSTREAM_ERROR_MESSAGE_LIMIT < msg.toList.length := by
      rw [Text.charIndices_get, Option.map_eq_some_iff] at found
      obtain ⟨c, present, _⟩ := found
      exact (List.getElem?_eq_some_iff.mp present).1
    rw [if_pos long]
    dsimp only
    rw [Text.sliceTo_charIndices found, Option.map_some]

theorem summarizeUpstreamError_eq (payload : Json) : summarizeUpstreamError payload =
    renderSummary (diagnosis payload).1 ((diagnosis payload).2.map shorten) := rfl

theorem summarizeSliced_eq (payload : Json) :
    summarizeSliced payload = some (summarizeUpstreamError payload) := by
  rw [summarizeUpstreamError_eq, summarizeSliced]
  obtain ⟨code, message⟩ := diagnosis payload
  cases message with
  | none => rfl
  | some msg =>
    dsimp only
    rw [truncateMessage_eq, Option.map_some, Option.map_some]

/-- No cut panics. -/
theorem displaySliced_eq (upstreamError : Option Json) : displaySliced upstreamError =
    some (BufferError.display (.missingTerminalEvent upstreamError)) := by
  cases upstreamError with
  | none => rfl
  | some payload =>
    rw [displaySliced, summarizeSliced_eq]
    rfl

theorem shorten_length (msg : String) :
    (shorten msg).toList.length ≤ UPSTREAM_ERROR_MESSAGE_LIMIT + 1 := by
  have mark : "…".toList.length = 1 := by decide
  rw [shorten]
  split
  · rw [String.toList_append, List.length_append, String.toList_ofList, mark]
    exact Nat.add_le_add_right (List.length_take_le _ _) 1
  · omega

/-- The characters around the code and the message. -/
theorem renderSummary_length (code message : Option String) :
    (code.getD "").toList.length ≤ (renderSummary code message).toList.length ∧
      (renderSummary code message).toList.length ≤
        35 + (code.getD "").toList.length + (message.getD "").toList.length := by
  have front : " (last upstream error: ".toList.length = 23 := by decide
  have back : ")".toList.length = 1 := by decide
  have colon : ": ".toList.length = 2 := by decide
  have other : "unparseable".toList.length = 11 := by decide
  unfold renderSummary
  simp only [String.toList_append, List.length_append, front, back]
  cases code <;> cases message <;>
    simp only [Option.getD_some, Option.getD_none, String.toList_append, List.length_append, colon,
      other, String.toList_empty, List.length_nil] <;> omega

/-- The text of a failure is as long as its code, up to a constant. -/
theorem display_length (upstreamError : Option Json) :
    let text := BufferError.display (.missingTerminalEvent upstreamError)
    let code := (upstreamError.bind fun payload => (diagnosis payload).1).getD ""
    code.toList.length ≤ text.toList.length ∧ text.toList.length ≤ code.toList.length + 300 := by
  have base : "responses stream ended without a terminal response event".toList.length = 56 := by
    decide
  unfold BufferError.display
  simp only [String.toList_append, List.length_append, base]
  cases upstreamError with
  | none => simp
  | some payload =>
    obtain ⟨longer, shorter⟩ :=
      renderSummary_length (diagnosis payload).1 ((diagnosis payload).2.map shorten)
    have message : (((diagnosis payload).2.map shorten).getD "").toList.length ≤ 201 := by
      cases (diagnosis payload).2 with
      | none => simp
      | some msg => exact shorten_length msg
    rw [Option.map_some, Option.getD_some, Option.bind_some, summarizeUpstreamError_eq]
    omega

/-- By induction on the events: the last error of a stream without a terminal event is kept. -/
theorem responses_fold_unfinished (events : List Event) (upstreamError : Option Json)
    (unfinished : finalResponse (payloadsOf codec events) = none) :
    ((responsesHandler codec).fold events .eof upstreamError).2 =
      .error (.missingTerminalEvent ((lastError (payloadsOf codec events)).or upstreamError)) := by
  induction events generalizing upstreamError with
  | nil => rfl
  | cons event events ih =>
    rw [Handler.fold]
    cases decoded : codec.fromSlice event with
    | none =>
      rw [payloadsOf_skip events decoded] at unfinished ⊢
      simp only [responsesHandler, decoded]
      exact ih upstreamError unfinished
    | some payload =>
      rw [payloadsOf_cons events decoded, finalResponse, List.findSome?_cons] at unfinished
      cases terminal : terminalResponse payload with
      | some response =>
        rw [terminal] at unfinished
        cases unfinished
      | none =>
        rw [terminal] at unfinished
        simp only [responsesHandler, decoded, payloadsOf_cons events decoded, terminal, lastError]
        by_cases error : eventTypeOf payload = "error"
        · rw [if_pos error, List.filter_cons_of_pos (by simp [error]), List.getLast?_cons]
          refine (ih (some payload) unfinished).trans ?_
          rw [lastError]
          cases (List.filter (eventTypeOf · = "error") (payloadsOf codec events)).getLast? <;> rfl
        · rw [if_neg error, List.filter_cons_of_neg (by simp [error])]
          exact ih upstreamError unfinished

variable {codec} in
theorem bufferResponsesResponse_unfinished {reads : List (List UInt8)}
    (unfinished : Unfinished codec reads) : bufferResponsesResponse codec reads .eof =
      .error (.missingTerminalEvent (lastError (endedPayloads codec reads))) := by
  rw [bufferResponsesResponse, Handler.drive_eq_fold, Reading.source_items_new,
    Reading.source_ending_new, responses_fold_unfinished codec _ none unfinished, Option.or_none,
    endedPayloads]

variable {codec} in
/-- What an unfinished stream renders. -/
theorem renders_iff {reads : List (List UInt8)} (unfinished : Unfinished codec reads) (text : String) :
    Renders codec reads text ↔
      BufferError.display (.missingTerminalEvent (lastError (endedPayloads codec reads))) = text := by
  rw [Renders, bufferResponsesResponse_unfinished unfinished]
  constructor
  · rintro ⟨upstreamError, same, _, display⟩
    cases same
    exact display
  · intro display
    exact ⟨_, rfl, by rw [displaySliced_eq, display], display⟩

/-- The text is a function of the code and the message. -/
theorem display_diagnosis {one other : Option Json} (same : one.map diagnosis = other.map diagnosis) :
    BufferError.display (.missingTerminalEvent one) =
      BufferError.display (.missingTerminalEvent other) := by
  have summary : one.map summarizeUpstreamError = other.map summarizeUpstreamError := by
    have render (e : Option Json) : e.map summarizeUpstreamError =
        (e.map diagnosis).map fun found => renderSummary found.1 (found.2.map shorten) := by
      rw [Option.map_map]
      rfl
    rw [render, render, same]
  unfold BufferError.display
  dsimp only
  rw [summary]

variable {codec} in
/-- A bound on the texts is a bound on the codes. -/
theorem Summarizes.codesBounded {streams : List (List UInt8) → Prop}
    (summarizes : Summarizes codec streams) : CodesBounded codec streams := by
  obtain ⟨bound, short⟩ := summarizes.bounded
  refine ⟨bound, fun reads listed unfinished payload code last found => ?_⟩
  obtain ⟨text, renders, fits⟩ := short reads listed unfinished
  have longer := (display_length (lastError (endedPayloads codec reads))).1
  rw [(renders_iff unfinished text).mp renders, last, Option.bind_some, diagnosis, found,
    Option.bind_some, Json.asString_string, Option.getD_some] at longer
  exact longer.trans fits

/-- Any streams: their failures are rendered within one bound if and only if the codes of
their last errors, which are not cut, have a bound. -/
theorem summarizes_iff (streams : List (List UInt8) → Prop) :
    Summarizes codec streams ↔ CodesBounded codec streams := by
  constructor
  · exact Summarizes.codesBounded
  · rintro ⟨longest, codes⟩
    constructor
    · refine ⟨longest + 300, fun reads listed unfinished => ?_⟩
      refine ⟨_, (renders_iff unfinished _).mpr rfl, ?_⟩
      refine (display_length (lastError (endedPayloads codec reads))).2.trans ?_
      refine Nat.add_le_add_right ?_ 300
      cases last : lastError (endedPayloads codec reads) with
      | none => exact Nat.zero_le longest
      | some payload =>
        rw [Option.bind_some, diagnosis]
        cases found : (payload.get? "code").bind Json.asString with
        | none => exact Nat.zero_le longest
        | some code =>
          obtain ⟨v, member, text⟩ := Option.bind_eq_some_iff.mp found
          rw [Json.asString_eq_some.mp text] at member
          exact codes reads listed unfinished payload code last member
    · intro reads reads' text _ _ unfinished unfinished' same renders
      rw [renders_iff unfinished] at renders
      rw [renders_iff unfinished', ← renders]
      exact (display_diagnosis same).symm

/-- An error event with a code and no message. -/
def codedError (code : String) : Json :=
  .object [("code", .string code), ("type", .string "error")]

theorem endedPayloads_codedError (code : String) :
    endedPayloads codec (streamOf codec [codedError code]) = [codedError code] := by
  have portable : ∀ v ∈ [codedError code], v.Portable := by
    intro v member
    rw [List.mem_singleton.mp member]
    exact ⟨rfl, by simp [codedError, Json.depth, Json.depthMembers, Json.maxDepth]⟩
  rw [endedPayloads, payloadsOf_streamOf codec _ portable]
  rfl

/-- No bound holds of the failures of all streams, since codes can be of any length. -/
theorem summary_unbounded : ¬ Summarizes JsonText.codec fun _ => True := by
  intro summarizes
  obtain ⟨longest, codes⟩ := summarizes.codesBounded
  let code := String.ofList (List.replicate (longest + 1) 'x')
  have payloads := endedPayloads_codedError JsonText.codec code
  have unfinished : Unfinished JsonText.codec (streamOf JsonText.codec [codedError code]) := by
    rw [Unfinished, payloads]
    rfl
  have last : lastError (endedPayloads JsonText.codec (streamOf JsonText.codec [codedError code])) =
      some (codedError code) := by
    rw [payloads]
    rfl
  have short := codes _ trivial unfinished _ code last rfl
  rw [String.toList_ofList, List.length_replicate] at short
  omega

end CodexProxy.Buffered
