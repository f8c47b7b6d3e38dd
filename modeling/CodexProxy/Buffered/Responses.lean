import CodexProxy.Buffered.Aggregate
import CodexProxy.Relay.Framing
import CodexProxy.Library.ReferenceCodec

/-! Non-streaming `/v1/responses`: the stream is read up to the first terminal event
with a response object, which is returned as it stands. -/
namespace CodexProxy.Buffered
open Relay Polling

def UPSTREAM_ERROR_MESSAGE_LIMIT : Nat := 200

/-- The code and the message of an upstream error, cut to a limit. -/
def summarizeUpstreamError (payload : Json) : String :=
  let code := (payload.get? "code").bind Json.asString
  let message := ((payload.get? "message").bind Json.asString).map fun msg =>
    if UPSTREAM_ERROR_MESSAGE_LIMIT < msg.toList.length then
      String.ofList (msg.toList.take UPSTREAM_ERROR_MESSAGE_LIMIT) ++ "…"
    else msg
  let summary := match code, message with
    | some code, some message => code ++ ": " ++ message
    | some code, none => code
    | none, some message => message
    | none, none => "unparseable"
  " (last upstream error: " ++ summary ++ ")"

def BufferError.display : BufferError → String
  | .read message => "error scanning SSE stream: " ++ message
  | .transform error => "failed to transform SSE event: " ++ error.display
  | .missingTerminalEvent upstreamError =>
    "responses stream ended without a terminal response event" ++
      (upstreamError.map summarizeUpstreamError).getD ""

def RESPONSES_TERMINAL_EVENTS : List String :=
  ["response.completed", "response.failed", "response.incomplete"]

def eventTypeOf (payload : Json) : String := ((payload.get? "type").bind Json.asString).getD ""

/-- The response of a terminal event. -/
def terminalResponse (payload : Json) : Option Json :=
  if eventTypeOf payload ∈ RESPONSES_TERMINAL_EVENTS then
    (payload.get? "response").filter Json.isObject
  else none

variable (codec : Json.Codec)

/-- The state is the last upstream error. -/
def responsesHandler : Handler (Option Json) Event Ending (Except BufferError Json) where
  onItem event upstreamError :=
    match codec.fromSlice event with
    | none => .next upstreamError
    | some payload =>
      if eventTypeOf payload = "error" then .next (some payload)
      else match terminalResponse payload with
        | some response => .stop upstreamError (.ok response)
        | none => .next upstreamError
  onDone
    | .eof, upstreamError => (upstreamError, .error (.missingTerminalEvent upstreamError))
    | .failed message, upstreamError => (upstreamError, .error (.read message))

def bufferResponsesResponse (reads : List (List UInt8)) (ending : Ending) :
    Except BufferError Json :=
  ((responsesHandler codec).drive Reading.source (Reading.new reads ending) none).2

/-- The payloads of a stream that are JSON. -/
def payloadsOf (events : List Event) : List Json := events.filterMap codec.fromSlice

/-- The item of an `output_item.done` event. -/
def doneItem (payload : Json) : Option Json :=
  if eventTypeOf payload = "response.output_item.done" then payload.get? "item" else none

/-- The items delivered before the terminal event. -/
def deliveredItems (payloads : List Json) : List Json :=
  (payloads.takeWhile fun p => (terminalResponse p).isNone).filterMap doneItem

/-- The response of the first terminal event. -/
def finalResponse (payloads : List Json) : Option Json := payloads.findSome? terminalResponse

def outputItems (response : Json) : List Json :=
  ((response.get? "output").bind Json.asArray).getD []

/-- The caller of the buffered path gets every delivered item, in order. -/
def LosesNothing (delivered : List Json) (response : Json) : Prop :=
  delivered.Sublist (outputItems response)

theorem terminalResponse_error {payload : Json} (error : eventTypeOf payload = "error") :
    terminalResponse payload = none := by
  rw [terminalResponse, error, if_neg (by decide)]

variable {codec} in
/-- An event that is not JSON is skipped. -/
theorem payloadsOf_skip (events : List Event) (decoded : codec.fromSlice event = none) :
    payloadsOf codec (event :: events) = payloadsOf codec events :=
  List.filterMap_cons_none decoded

variable {codec} in
theorem payloadsOf_cons (events : List Event) (decoded : codec.fromSlice event = some payload) :
    payloadsOf codec (event :: events) = payload :: payloadsOf codec events :=
  List.filterMap_cons_some decoded

/-- By induction on the events: the first terminal response is returned. -/
theorem responses_fold (events : List Event) (ending : Ending) (upstreamError : Option Json) :
    (∀ response, finalResponse (payloadsOf codec events) = some response →
      ((responsesHandler codec).fold events ending upstreamError).2 = .ok response) ∧
    (finalResponse (payloadsOf codec events) = none →
      ∃ err, ((responsesHandler codec).fold events ending upstreamError).2 = .error err) := by
  induction events generalizing upstreamError with
  | nil =>
    constructor
    · intro response found
      cases found
    · intro _
      cases ending <;> exact ⟨_, rfl⟩
  | cons event events ih =>
    rw [Handler.fold]
    cases decoded : codec.fromSlice event with
    | none =>
      simp only [responsesHandler, decoded, payloadsOf_skip events decoded]
      exact ih upstreamError
    | some payload =>
      simp only [responsesHandler, decoded, payloadsOf_cons events decoded, finalResponse,
        List.findSome?_cons]
      by_cases error : eventTypeOf payload = "error"
      · simp only [if_pos error, terminalResponse_error error]
        exact ih (some payload)
      · rw [if_neg error]
        cases terminalResponse payload with
        | none => exact ih upstreamError
        | some response =>
          constructor
          · intro r found
            cases found
            rfl
          · intro missing
            cases missing

theorem bufferResponsesResponse_ok {reads : List (List UInt8)} {ending : Ending} {response : Json} :
    bufferResponsesResponse codec reads ending = .ok response ↔
      finalResponse (payloadsOf codec (eventsOf reads.flatten ending)) = some response := by
  rw [bufferResponsesResponse, Handler.drive_eq_fold, Reading.source_items_new,
    Reading.source_ending_new]
  obtain ⟨found, missing⟩ := responses_fold codec (eventsOf reads.flatten ending) ending none
  cases final : finalResponse (payloadsOf codec (eventsOf reads.flatten ending)) with
  | some r => simp [found r final]
  | none =>
    obtain ⟨err, result⟩ := missing final
    simp [result]

/-- The terminal response repeats the items that were delivered before it. -/
def TerminalRepeats (payloads : List Json) : Prop :=
  ∀ response, finalResponse payloads = some response →
    (deliveredItems payloads).Sublist (outputItems response)

/-- Nothing is lost exactly when the terminal response repeats what was delivered; on
a stream whose terminal response has an empty output, as under `store: false`,
exactly when nothing was delivered. -/
theorem responses_lose_nothing_iff (reads : List (List UInt8)) (ending : Ending) :
    let payloads := payloadsOf codec (eventsOf reads.flatten ending)
    ((∀ response, bufferResponsesResponse codec reads ending = .ok response →
        LosesNothing (deliveredItems payloads) response) ↔ TerminalRepeats payloads) ∧
    ((∃ response, finalResponse payloads = some response ∧ outputItems response = []) →
      (TerminalRepeats payloads ↔ deliveredItems payloads = [])) := by
  intro payloads
  constructor
  · exact forall_congr' fun response => imp_congr (bufferResponsesResponse_ok codec) Iff.rfl
  · rintro ⟨response, final, empty⟩
    constructor
    · intro repeats
      have sublist := repeats response final
      rwa [empty, List.sublist_nil] at sublist
    · intro none r _
      rw [none]
      exact List.nil_sublist _

/-- A message that is delivered and missing from the terminal response. -/
def storeFalseEvents : List Json :=
  [.object [("type", .string "response.output_item.done"),
      ("item", .object [("type", .string "message")])],
    .object [("type", .string "response.completed"), ("response", .object [("output", .array [])])]]

theorem payloadsOf_streamOf (values : List Json) (portable : ∀ v ∈ values, v.Portable)
    (ending : Ending) :
    payloadsOf codec (eventsOf (streamOf codec values).flatten ending) =
      values.map Json.normalize := by
  rw [eventsOf_streamOf]
  induction values with
  | nil => rfl
  | cons v vs ih =>
    have first : codec.fromSlice (codec.toVec v) = some v.normalize := by
      rw [Json.Codec.fromSlice, codec.read_toVec (portable v List.mem_cons_self), Option.map_some]
    have later := ih fun w member => portable w (List.mem_cons_of_mem _ member)
    rw [payloadsOf] at later
    rw [List.map_cons, payloadsOf, List.filterMap_cons, first, later]
    rfl

theorem storeFalse_loses :
    ∃ response, bufferResponsesResponse JsonText.codec
        (streamOf JsonText.codec storeFalseEvents) .eof = .ok response ∧
      ¬ LosesNothing (deliveredItems (payloadsOf JsonText.codec
        (eventsOf (streamOf JsonText.codec storeFalseEvents).flatten .eof))) response := by
  have payloads := payloadsOf_streamOf JsonText.codec storeFalseEvents (by decide) .eof
  refine ⟨.object [("output", .array [])], ?_, ?_⟩
  · rw [bufferResponsesResponse_ok, payloads]
    rfl
  · have delivered : deliveredItems (storeFalseEvents.map Json.normalize) =
        [.object [("type", .string "message")]] := rfl
    rw [payloads, delivered, LosesNothing]
    intro sublist
    cases sublist

end CodexProxy.Buffered
