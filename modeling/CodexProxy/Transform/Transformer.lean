import CodexProxy.Transform.Upstream
import Mathlib.Data.List.AList

/-! The stateful transformer from upstream events to chat-completion chunks. A
handler maps the state before an event to the state after it and its result;
frames stay typed (`transformChunks`) until `transform` writes their octets. -/
namespace CodexProxy.Transform

inductive TransformError where
  | invalidJson (message : String)
  | marshalError (message : String)
deriving DecidableEq

def TransformError.display : TransformError → String
  | .invalidJson message => "invalid upstream JSON chunk: " ++ message
  | .marshalError message => "failed to marshal chunk: " ++ message

/-- Frames to send, nothing to send, or the end of the stream. -/
inductive TransformResult (F : Type) where
  | emitted (frames : List F)
  | swallowed
  | done

def TransformResult.map (f : F → G) : TransformResult F → TransformResult G
  | .emitted frames => .emitted (frames.map f)
  | .swallowed => .swallowed
  | .done => .done

def TransformResult.frames : TransformResult F → List F
  | .emitted frames => frames
  | .swallowed | .done => []

abbrev HashMap (β : Type) := AList fun _ : String => β

structure SSETransformer where
  model : String
  responseId : String := ""
  roleSent : Bool := false
  toolIndexByItemId : HashMap Nat := ∅
  toolIdByItemId : HashMap String := ∅
  toolNameByItemId : HashMap String := ∅
  nextToolIndex : Nat := 0
  sawToolCalls : Bool := false
  reasoningItems : Nat := 0
  reasoningEncryptedBytes : Nat := 0
  reasoningSummaryPresent : Bool := false

def DEFAULT_MODEL : String := "gpt-5"

/-- What a handler returns: the state after the event, and the result. -/
abbrev Handled (F : Type) := SSETransformer × Except TransformError (TransformResult F)

namespace SSETransformer

def new (model : String) : SSETransformer :=
  let model := Text.trim model
  { model := if model = "" then DEFAULT_MODEL else model }

def resetResponseState (t : SSETransformer) : SSETransformer :=
  { t with
    roleSent := false
    toolIndexByItemId := ∅
    toolIdByItemId := ∅
    toolNameByItemId := ∅
    nextToolIndex := 0
    sawToolCalls := false
    reasoningItems := 0
    reasoningEncryptedBytes := 0
    reasoningSummaryPresent := false }

/-- Writing a chunk cannot fail: its keys are strings and its numbers integers. -/
def makeChunk (t : SSETransformer) (seq : Option UInt64) (delta : ChunkDelta)
    (finishReason : Option String) (usage : Option Usage) : ChatCompletionChunk where
  id := t.responseId
  object := "chat.completion.chunk"
  created := seq
  model := t.model
  choices := [{ index := 0, delta, finishReason }]
  usage

/-- The role frame, once per response. -/
def sendRole (t : SSETransformer) (seq : Option UInt64) :
    SSETransformer × List ChatCompletionChunk :=
  if t.roleSent then (t, [])
  else ({ t with roleSent := true }, [t.makeChunk seq { role := some "assistant" } none none])

/-- A body frame, preceded by the role frame when that is still due. -/
def emitDelta (t : SSETransformer) (seq : Option UInt64) (delta : ChunkDelta) :
    Handled ChatCompletionChunk :=
  let (t', role) := t.sendRole seq
  (t', .ok (.emitted (role ++ [t'.makeChunk seq delta none none])))

def noteReasoningItem (t : SSETransformer) (e : EventEnvelope) : SSETransformer :=
  match reasoningItemFromOutputItemDone e with
  | none => t
  | some item =>
    { t with
      reasoningItems := t.reasoningItems + 1
      reasoningEncryptedBytes := t.reasoningEncryptedBytes +
        (item.encryptedContent.map fun enc => (Text.utf8 enc).length).getD 0
      reasoningSummaryPresent := t.reasoningSummaryPresent || item.summaryText.isSome }

/-- The reset happens before the payload is looked at. -/
def handleCreated (t : SSETransformer) (e : EventEnvelope) : Handled ChatCompletionChunk :=
  let t := t.resetResponseState
  match CreatedPayload.decode e.extra with
  | none => (t, .ok .swallowed)
  | some payload =>
    if payload.response.id = "" then (t, .ok .swallowed)
    else ({ t with responseId := "chatcmpl-" ++ payload.response.id }, .ok .swallowed)

variable (codec : Json.Codec)

/-- A typed payload that does not decode. -/
def invalidPayload (target : String) (e : EventEnvelope) : TransformError :=
  .invalidJson (codec.valueError target e.extra)

def handleTextDelta (t : SSETransformer) (e : EventEnvelope) (seq : Option UInt64) :
    Handled ChatCompletionChunk :=
  match OutputTextDeltaPayload.decode e.extra with
  | none => (t, .error (invalidPayload codec "OutputTextDeltaPayload" e))
  | some payload => t.emitDelta seq { content := some payload.delta }

def handleCompleted (t : SSETransformer) (e : EventEnvelope) (seq : Option UInt64) :
    Handled ChatCompletionChunk :=
  match CompletedPayload.decode e.extra with
  | none => (t, .error (invalidPayload codec "CompletedPayload" e))
  | some payload =>
    let finish := if t.sawToolCalls then "tool_calls" else "stop"
    let usage := match payload.response.usage with
      | some u => u.toOpenai
      | none => Usage.new 0 0
    (t, .ok (.emitted [t.makeChunk seq {} (some finish) (some usage)]))

/-- Only `.delta` events of the first reasoning item carry text. -/
def handleReasoning (t : SSETransformer) (e : EventEnvelope) (seq : Option UInt64) :
    Handled ChatCompletionChunk :=
  if 0 < e.outputIndex.getD 0 then (t, .ok .swallowed)
  else if !Text.contains e.eventType ".delta" then (t, .ok .swallowed)
  else match e.extractReasoningContent with
    | none => (t, .ok .swallowed)
    | some text => t.emitDelta seq { reasoningContent := some text }

/-- Announce a function call: its index is kept when the item was seen before. -/
def announce (t : SSETransformer) (itemId callId name : String) : SSETransformer × Nat :=
  let (index, indices, next) := match t.toolIndexByItemId.lookup itemId with
    | some i => (i, t.toolIndexByItemId, t.nextToolIndex)
    | none => (t.nextToolIndex, t.toolIndexByItemId.insert itemId t.nextToolIndex,
        t.nextToolIndex + 1)
  ({ t with
    toolIndexByItemId := indices
    nextToolIndex := next
    toolIdByItemId := t.toolIdByItemId.insert itemId callId
    toolNameByItemId := t.toolNameByItemId.insert itemId name
    sawToolCalls := true }, index)

/-- The first delta of a function call: id and name, and empty arguments. -/
def startDelta (index : Nat) (callId name : String) : ChunkDelta where
  toolCalls := some [{
    index := usize index
    id := some callId
    callType := some "function"
    function := some { name := some name, arguments := some "" } }]

def argumentsDelta (index : Nat) (arguments : String) : ChunkDelta where
  toolCalls := some [{
    index := usize index
    id := none
    callType := none
    function := some { name := none, arguments := some arguments } }]

def handleOutputItemAdded (t : SSETransformer) (e : EventEnvelope) (seq : Option UInt64) :
    Handled ChatCompletionChunk :=
  match OutputItemAddedPayload.decode e.extra with
  | none => (t, .error (invalidPayload codec "OutputItemAddedPayload" e))
  | some { item := none } => (t, .ok .swallowed)
  | some { item := some item } =>
    if item.itemType ≠ "function_call" then (t, .ok .swallowed)
    -- no entry is recorded under an empty key
    else if item.id = "" ∨ item.name = "" then (t, .ok .swallowed)
    else
      let callId := if item.callId = "" then "call_" ++ item.id else item.callId
      let (t', index) := t.announce item.id callId item.name
      t'.emitDelta seq (startDelta index callId item.name)

def handleFunctionCallArgsDelta (t : SSETransformer) (e : EventEnvelope) (seq : Option UInt64) :
    Handled ChatCompletionChunk :=
  match FunctionCallArgsDeltaPayload.decode e.extra with
  | none => (t, .error (invalidPayload codec "FunctionCallArgsDeltaPayload" e))
  | some payload =>
    match t.toolIndexByItemId.lookup payload.itemId with
    | none => (t, .ok .swallowed)
    | some index => t.emitDelta seq (argumentsDelta index payload.delta)

/-- Dispatch on the event type; reasoning events match by prefix. -/
def handle (t : SSETransformer) (e : EventEnvelope) : Handled ChatCompletionChunk :=
  let seq := e.sequenceNumber
  if Text.startsWith e.eventType "response.reasoning" then t.handleReasoning e seq
  else match e.eventType with
    | "response.created" => t.handleCreated e
    | "response.output_text.delta" => t.handleTextDelta codec e seq
    | "response.completed" => t.handleCompleted codec e seq
    | "response.output_item.added" => t.handleOutputItemAdded codec e seq
    | "response.function_call_arguments.delta" => t.handleFunctionCallArgsDelta codec e seq
    | "response.output_item.done" => (t.noteReasoningItem e, .ok .swallowed)
    -- `*.done` events and unknown events are handled without emission
    | _ => (t, .ok .swallowed)

/-- The sentinel payload of the chat-completions protocol. -/
def doneMarker : List UInt8 := Text.utf8 "[DONE]"

/-- What a payload is, before any state is consulted. -/
inductive Payload where
  | blank
  | done
  | undecodable (error : TransformError)
  | event (e : EventEnvelope)

def classify (data : List UInt8) : Payload :=
  let trimmed := Bytes.trimAscii data
  if trimmed = [] then .blank
  else if trimmed = doneMarker then .done
  else match (codec.read trimmed).bind EventEnvelope.decode with
    | none => .undecodable (.invalidJson (codec.sliceError "EventEnvelope" trimmed))
    | some e => .event e

def transformChunks (t : SSETransformer) (data : List UInt8) : Handled ChatCompletionChunk :=
  match classify codec data with
  | .blank => (t, .ok .swallowed)
  | .done => (t, .ok .done)
  | .undecodable error => (t, .error error)
  | .event e => t.handle codec e

def frame (chunk : ChatCompletionChunk) : List UInt8 := codec.toVec chunk.toJson

def transform (t : SSETransformer) (data : List UInt8) : Handled (List UInt8) :=
  let (t', result) := t.transformChunks codec data
  (t', result.map (·.map (frame codec)))

end SSETransformer
end CodexProxy.Transform
