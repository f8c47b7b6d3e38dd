import CodexProxy.Transform.Transformer

/-! The meaning of an upstream payload apart from the transformer's state. Every
payload denotes one action, and a transform call applies that action: whether an
event is rejected, which segment it belongs to and what it carries never depend on
the history, only the index, the role frame and the finish reason do. -/
namespace CodexProxy.Transform

inductive Action where
  | ignore
  | stop
  | reject (error : TransformError)
  | note (e : EventEnvelope)
  | reset (id : String)
  | text (seq : Option UInt64) (delta : String)
  | reasoning (seq : Option UInt64) (part : String)
  | announce (seq : Option UInt64) (itemId callId name : String)
  | arguments (seq : Option UInt64) (itemId delta : String)
  | finish (seq : Option UInt64) (usage : Usage)

namespace Action

/-- One step of the state machine. -/
def apply (t : SSETransformer) : Action → Handled ChatCompletionChunk
  | .ignore => (t, .ok .swallowed)
  | .stop => (t, .ok .done)
  | .reject error => (t, .error error)
  | .note e => (t.noteReasoningItem e, .ok .swallowed)
  | .reset id =>
    if id = "" then (t.resetResponseState, .ok .swallowed)
    else ({ t.resetResponseState with responseId := "chatcmpl-" ++ id }, .ok .swallowed)
  | .text seq delta => t.emitDelta seq { content := some delta }
  | .reasoning seq part => t.emitDelta seq { reasoningContent := some part }
  | .announce seq itemId callId name =>
    let (t', index) := t.announce itemId callId name
    t'.emitDelta seq (SSETransformer.startDelta index callId name)
  | .arguments seq itemId delta =>
    match t.toolIndexByItemId.lookup itemId with
    | none => (t, .ok .swallowed)
    | some index => t.emitDelta seq (SSETransformer.argumentsDelta index delta)
  | .finish seq usage =>
    (t, .ok (.emitted [t.makeChunk seq {}
      (some (if t.sawToolCalls then "tool_calls" else "stop")) (some usage)]))

end Action

variable (codec : Json.Codec)

def interpretReasoning (e : EventEnvelope) : Action :=
  if 0 < e.outputIndex.getD 0 then .ignore
  else if !Text.contains e.eventType ".delta" then .ignore
  else match e.extractReasoningContent with
    | none => .ignore
    | some part => .reasoning e.sequenceNumber part

def interpretCreated (e : EventEnvelope) : Action :=
  match CreatedPayload.decode e.extra with
  | none => .reset ""
  | some payload => .reset payload.response.id

def interpretTextDelta (e : EventEnvelope) : Action :=
  match OutputTextDeltaPayload.decode e.extra with
  | none => .reject (SSETransformer.invalidPayload codec "OutputTextDeltaPayload" e)
  | some payload => .text e.sequenceNumber payload.delta

def interpretCompleted (e : EventEnvelope) : Action :=
  match CompletedPayload.decode e.extra with
  | none => .reject (SSETransformer.invalidPayload codec "CompletedPayload" e)
  | some payload => .finish e.sequenceNumber
      ((payload.response.usage.map (·.toOpenai)).getD (Usage.new 0 0))

def interpretOutputItemAdded (e : EventEnvelope) : Action :=
  match OutputItemAddedPayload.decode e.extra with
  | none => .reject (SSETransformer.invalidPayload codec "OutputItemAddedPayload" e)
  | some { item := none } => .ignore
  | some { item := some item } =>
    if item.itemType ≠ "function_call" then .ignore
    else if item.id = "" ∨ item.name = "" then .ignore
    else .announce e.sequenceNumber item.id
      (if item.callId = "" then "call_" ++ item.id else item.callId) item.name

def interpretFunctionCallArgsDelta (e : EventEnvelope) : Action :=
  match FunctionCallArgsDeltaPayload.decode e.extra with
  | none => .reject (SSETransformer.invalidPayload codec "FunctionCallArgsDeltaPayload" e)
  | some payload => .arguments e.sequenceNumber payload.itemId payload.delta

def interpretEvent (e : EventEnvelope) : Action :=
  if Text.startsWith e.eventType "response.reasoning" then interpretReasoning e
  else match e.eventType with
    | "response.created" => interpretCreated e
    | "response.output_text.delta" => interpretTextDelta codec e
    | "response.completed" => interpretCompleted codec e
    | "response.output_item.added" => interpretOutputItemAdded codec e
    | "response.function_call_arguments.delta" => interpretFunctionCallArgsDelta codec e
    | "response.output_item.done" => .note e
    | _ => .ignore

/-- The action a payload denotes. -/
def interpret (data : List UInt8) : Action :=
  match SSETransformer.classify codec data with
  | .blank => .ignore
  | .done => .stop
  | .undecodable error => .reject error
  | .event e => interpretEvent codec e

namespace SSETransformer

theorem handleReasoning_eq (t : SSETransformer) (e : EventEnvelope) :
    t.handleReasoning e e.sequenceNumber = (interpretReasoning e).apply t := by
  unfold handleReasoning interpretReasoning
  split
  · rfl
  split
  · rfl
  cases e.extractReasoningContent <;> rfl

theorem handleCreated_eq (t : SSETransformer) (e : EventEnvelope) :
    t.handleCreated e = (interpretCreated e).apply t := by
  unfold handleCreated interpretCreated
  cases CreatedPayload.decode e.extra with
  | none => rfl
  | some payload => rfl

theorem handleTextDelta_eq (t : SSETransformer) (e : EventEnvelope) :
    t.handleTextDelta codec e e.sequenceNumber = (interpretTextDelta codec e).apply t := by
  unfold handleTextDelta interpretTextDelta
  cases OutputTextDeltaPayload.decode e.extra <;> rfl

theorem handleCompleted_eq (t : SSETransformer) (e : EventEnvelope) :
    t.handleCompleted codec e e.sequenceNumber = (interpretCompleted codec e).apply t := by
  unfold handleCompleted interpretCompleted
  cases CompletedPayload.decode e.extra with
  | none => rfl
  | some payload =>
    obtain ⟨⟨usage⟩⟩ := payload
    cases usage <;> rfl

theorem handleOutputItemAdded_eq (t : SSETransformer) (e : EventEnvelope) :
    t.handleOutputItemAdded codec e e.sequenceNumber =
      (interpretOutputItemAdded codec e).apply t := by
  unfold handleOutputItemAdded interpretOutputItemAdded
  cases OutputItemAddedPayload.decode e.extra with
  | none => rfl
  | some payload =>
    obtain ⟨item⟩ := payload
    cases item with
    | none => rfl
    | some item =>
      dsimp only
      split
      · rfl
      split
      · rfl
      rfl

theorem handleFunctionCallArgsDelta_eq (t : SSETransformer) (e : EventEnvelope) :
    t.handleFunctionCallArgsDelta codec e e.sequenceNumber =
      (interpretFunctionCallArgsDelta codec e).apply t := by
  unfold handleFunctionCallArgsDelta interpretFunctionCallArgsDelta
  cases FunctionCallArgsDeltaPayload.decode e.extra <;> rfl

theorem handle_eq (t : SSETransformer) (e : EventEnvelope) :
    t.handle codec e = (interpretEvent codec e).apply t := by
  unfold handle interpretEvent
  by_cases reasoning : Text.startsWith e.eventType "response.reasoning" = true
  · simp only [reasoning, if_true]
    exact handleReasoning_eq t e
  by_cases created : e.eventType = "response.created"
  · simp only [created]
    exact handleCreated_eq t e
  by_cases text : e.eventType = "response.output_text.delta"
  · simp only [text]
    exact handleTextDelta_eq codec t e
  by_cases completed : e.eventType = "response.completed"
  · simp only [completed]
    exact handleCompleted_eq codec t e
  by_cases added : e.eventType = "response.output_item.added"
  · simp only [added]
    exact handleOutputItemAdded_eq codec t e
  by_cases arguments : e.eventType = "response.function_call_arguments.delta"
  · simp only [arguments]
    exact handleFunctionCallArgsDelta_eq codec t e
  by_cases done : e.eventType = "response.output_item.done"
  · simp only [done]
    rfl
  simp only [reasoning]
  rfl

/-- The transformer refines the action machine, for every state and payload. -/
theorem transformChunks_eq (t : SSETransformer) (data : List UInt8) :
    t.transformChunks codec data = (interpret codec data).apply t := by
  unfold transformChunks interpret
  cases classify codec data with
  | blank | done | undecodable => rfl
  | event e => exact handle_eq codec t e

theorem transform_eq (t : SSETransformer) (data : List UInt8) :
    t.transform codec data =
      (((interpret codec data).apply t).1,
        ((interpret codec data).apply t).2.map (·.map (frame codec))) := by
  rw [transform, transformChunks_eq]

end SSETransformer
end CodexProxy.Transform
