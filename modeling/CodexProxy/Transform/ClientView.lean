import CodexProxy.Transform.SegmentRuns

/-! The two ends of a transformer: what an upstream payload says, taken from its typed
payload, and what a client reads of a frame, taken from the frame as JSON. Between them
stands the action of the payload. -/
namespace CodexProxy.Transform
open SSETransformer

variable (codec : Json.Codec)

/-- The typed payload of the events of one type. -/
def payloadOf (type : String) (decode : Json → Option α) (data : List UInt8) : Option α :=
  match classify codec data with
  | .event e => if e.eventType = type then decode e.extra else none
  | _ => none

/-- The text of an `output_text.delta` event. -/
def textOf (data : List UInt8) : Option String :=
  (payloadOf codec "response.output_text.delta" OutputTextDeltaPayload.decode data).map (·.delta)

/-- The call that an event announces: an item of type `function_call` with id and name. -/
def callOf (data : List UInt8) : Option FunctionCallItem :=
  ((payloadOf codec "response.output_item.added" OutputItemAddedPayload.decode data).bind
    (·.item)).filter fun item => item.itemType = "function_call" ∧ item.id ≠ "" ∧ item.name ≠ ""

/-- The arguments that an event adds to an item. -/
def argumentsOf (itemId : String) (data : List UInt8) : Option String :=
  ((payloadOf codec "response.function_call_arguments.delta" FunctionCallArgsDeltaPayload.decode
    data).filter (·.itemId = itemId)).map (·.delta)

/-- The arguments for an item that come after its announcement. -/
def argumentsAfter (itemId : String) (segment : List (List UInt8)) : List String :=
  (segment.dropWhile fun data => (callOf codec data).map (·.id) ≠ some itemId).filterMap
    (argumentsOf codec itemId)

/-- The id that the call is given downstream. -/
def FunctionCallItem.downstreamId (item : FunctionCallItem) : String :=
  if item.callId = "" then "call_" ++ item.id else item.callId

namespace Action

def text? : Action → Option String
  | .text _ delta => some delta
  | _ => none

def call? : Action → Option (String × String × String)
  | .announce _ itemId callId name => some (itemId, callId, name)
  | _ => none

def arguments? : Action → Option (String × String)
  | .arguments _ itemId delta => some (itemId, delta)
  | _ => none

/-- Neither text nor a part of a call, nor the end of the stream. -/
def Quiet (a : Action) : Prop :=
  a.text? = none ∧ a.call? = none ∧ a.arguments? = none ∧ a ≠ .stop

theorem announces_eq (a : Action) : a.announces = a.call?.map (·.1) := by cases a <;> rfl

end Action

/-- The types of the events that carry text or a part of a call. -/
def CARRIERS : List String :=
  ["response.output_text.delta", "response.output_item.added",
    "response.function_call_arguments.delta"]

theorem interpretReasoning_quiet (e : EventEnvelope) : (interpretReasoning e).Quiet := by
  rw [interpretReasoning]
  split
  · exact ⟨rfl, rfl, rfl, by simp⟩
  split
  · exact ⟨rfl, rfl, rfl, by simp⟩
  cases e.extractReasoningContent <;> exact ⟨rfl, rfl, rfl, by simp⟩

/-- The three handlers that carry something, and the rest. -/
theorem interpretEvent_kind (e : EventEnvelope) :
    (e.eventType = "response.output_text.delta" ∧
      interpretEvent codec e = interpretTextDelta codec e) ∨
    (e.eventType = "response.output_item.added" ∧
      interpretEvent codec e = interpretOutputItemAdded codec e) ∨
    (e.eventType = "response.function_call_arguments.delta" ∧
      interpretEvent codec e = interpretFunctionCallArgsDelta codec e) ∨
    (e.eventType ∉ CARRIERS ∧ (interpretEvent codec e).Quiet) := by
  unfold interpretEvent
  split
  · rename_i reasoning
    have other : e.eventType ∉ CARRIERS := by
      intro carrier
      simp only [CARRIERS, List.mem_cons, List.not_mem_nil, or_false] at carrier
      rcases carrier with type | type | type <;> rw [type] at reasoning <;>
        exact absurd reasoning (by decide)
    exact .inr (.inr (.inr ⟨other, interpretReasoning_quiet e⟩))
  · split <;> rename_i type
    · refine .inr (.inr (.inr ⟨by rw [type]; decide, ?_⟩))
      rw [interpretCreated]
      split <;> exact ⟨rfl, rfl, rfl, by simp⟩
    · exact .inl ⟨type, rfl⟩
    · refine .inr (.inr (.inr ⟨by rw [type]; decide, ?_⟩))
      rw [interpretCompleted]
      split <;> exact ⟨rfl, rfl, rfl, by simp⟩
    · exact .inr (.inl ⟨type, rfl⟩)
    · exact .inr (.inr (.inl ⟨type, rfl⟩))
    · exact .inr (.inr (.inr ⟨by rw [type]; decide, rfl, rfl, rfl, by simp⟩))
    · rename_i _ _ notText _ notAdded notArguments
      refine .inr (.inr (.inr ⟨?_, rfl, rfl, rfl, by simp⟩))
      simp only [CARRIERS, List.mem_cons, List.not_mem_nil, or_false, not_or]
      exact ⟨notText, notAdded, notArguments⟩

theorem interpretTextDelta_text (e : EventEnvelope) :
    (interpretTextDelta codec e).text? = (OutputTextDeltaPayload.decode e.extra).map (·.delta) ∧
    (interpretTextDelta codec e).call? = none ∧
    (interpretTextDelta codec e).arguments? = none := by
  rw [interpretTextDelta]
  cases OutputTextDeltaPayload.decode e.extra <;> exact ⟨rfl, rfl, rfl⟩

theorem interpretOutputItemAdded_call (e : EventEnvelope) :
    (interpretOutputItemAdded codec e).text? = none ∧
    (interpretOutputItemAdded codec e).call? =
      (((OutputItemAddedPayload.decode e.extra).bind (·.item)).filter fun item =>
        item.itemType = "function_call" ∧ item.id ≠ "" ∧ item.name ≠ "").map
          (fun item => (item.id, item.downstreamId, item.name)) ∧
    (interpretOutputItemAdded codec e).arguments? = none := by
  rw [interpretOutputItemAdded]
  cases OutputItemAddedPayload.decode e.extra with
  | none => exact ⟨rfl, rfl, rfl⟩
  | some payload =>
    obtain ⟨item⟩ := payload
    cases item with
    | none => exact ⟨rfl, rfl, rfl⟩
    | some item =>
      dsimp only [Option.bind_some]
      split
      · rename_i type
        rw [Option.filter_some_neg (by simp [type])]
        exact ⟨rfl, rfl, rfl⟩
      · rename_i type
        split
        · rename_i empty
          rw [Option.filter_some_neg (by simp; tauto)]
          exact ⟨rfl, rfl, rfl⟩
        · rename_i named
          rw [Option.filter_some_pos (by simp; tauto)]
          exact ⟨rfl, rfl, rfl⟩

theorem interpretFunctionCallArgsDelta_arguments (e : EventEnvelope) :
    (interpretFunctionCallArgsDelta codec e).text? = none ∧
    (interpretFunctionCallArgsDelta codec e).call? = none ∧
    (interpretFunctionCallArgsDelta codec e).arguments? =
      (FunctionCallArgsDeltaPayload.decode e.extra).map (fun p => (p.itemId, p.delta)) := by
  rw [interpretFunctionCallArgsDelta]
  cases FunctionCallArgsDeltaPayload.decode e.extra <;> exact ⟨rfl, rfl, rfl⟩

/-- An event's payloads are what its action carries. -/
theorem interpret_carries (data : List UInt8) :
    (interpret codec data).text? = textOf codec data ∧
    (interpret codec data).call? =
      (callOf codec data).map (fun item => (item.id, item.downstreamId, item.name)) ∧
    ∀ itemId, ((interpret codec data).arguments?.filter (·.1 = itemId)).map (·.2) =
      argumentsOf codec itemId data := by
  unfold interpret textOf callOf argumentsOf payloadOf
  cases classify codec data with
  | blank | done | undecodable => exact ⟨rfl, rfl, fun _ => rfl⟩
  | event e =>
    dsimp only
    rcases interpretEvent_kind codec e with ⟨type, same⟩ | ⟨type, same⟩ | ⟨type, same⟩ | ⟨other, quiet⟩
    · obtain ⟨text, call, arguments⟩ := interpretTextDelta_text codec e
      rw [same, text, call, arguments]
      simp [type]
    · obtain ⟨text, call, arguments⟩ := interpretOutputItemAdded_call codec e
      rw [same, text, call, arguments]
      simp [type]
    · obtain ⟨text, call, arguments⟩ := interpretFunctionCallArgsDelta_arguments codec e
      rw [same, text, call, arguments]
      refine ⟨by simp [type], by simp [type], ?_⟩
      intro itemId
      rw [if_pos type]
      cases FunctionCallArgsDeltaPayload.decode e.extra with
      | none => rfl
      | some p => by_cases own : p.itemId = itemId <;> simp [Option.filter_some, own]
    · obtain ⟨text, call, arguments, _⟩ := quiet
      simp only [CARRIERS, List.mem_cons, List.not_mem_nil, or_false, not_or] at other
      rw [text, call, arguments]
      simp [other]

/-- The deltas of a chunk's choices. -/
def deltasOf (chunk : Json) : List Json :=
  (((chunk.get? "choices").bind Json.asArray).getD []).filterMap (·.get? "delta")

def contentsOf (chunk : Json) : List String :=
  (deltasOf chunk).filterMap fun delta => (delta.get? "content").bind Json.asString

def toolCallsOf (chunk : Json) : List Json :=
  (deltasOf chunk).flatMap fun delta => ((delta.get? "tool_calls").bind Json.asArray).getD []

def indexOf (call : Json) : Option UInt64 := (call.get? "index").bind Json.asUInt64

/-- The argument fragments under an index. -/
def fragmentsAt (index : UInt64) (chunk : Json) : List String :=
  ((toolCallsOf chunk).filter (indexOf · = some index)).filterMap fun call =>
    ((call.get? "function").bind (·.get? "arguments")).bind Json.asString

/-- Index, id and name of the calls that a chunk starts. -/
def startsOf (chunk : Json) : List (UInt64 × String × String) :=
  (toolCallsOf chunk).filterMap fun call => do
    let index ← indexOf call
    let id ← (call.get? "id").bind Json.asString
    let name ← ((call.get? "function").bind (·.get? "name")).bind Json.asString
    return (index, id, name)

namespace ToolCallDelta
variable (call : ToolCallDelta)

@[simp] theorem indexOf_toJson : indexOf call.toJson = some call.index := by
  simp [indexOf, toJson]

@[simp] theorem id_toJson : (call.toJson.get? "id").bind Json.asString = call.id := by
  cases id : call.id <;>
    simp [toJson, List.lookup_append, lookup_skipNone, Json.Members.lookup_cons, id]

@[simp] theorem name_toJson : ((call.toJson.get? "function").bind (·.get? "name")).bind
    Json.asString = call.function.bind (·.name) := by
  rcases function : call.function with _ | ⟨_ | name, arguments⟩ <;>
    simp [toJson, FunctionDelta.toJson, List.lookup_append, lookup_skipNone,
      Json.Members.lookup_cons, function]

@[simp] theorem arguments_toJson : ((call.toJson.get? "function").bind (·.get? "arguments")).bind
    Json.asString = call.function.bind (·.arguments) := by
  rcases function : call.function with _ | ⟨name, _ | arguments⟩ <;>
    simp [toJson, FunctionDelta.toJson, List.lookup_append, lookup_skipNone,
      Json.Members.lookup_cons, function]

end ToolCallDelta

namespace SSETransformer
variable (t : SSETransformer) (seq : Option UInt64) (delta : ChunkDelta) (finish : Option String)
  (usage : Option Usage)

theorem deltasOf_makeChunk :
    deltasOf (t.makeChunk seq delta finish usage).toJson = [delta.toJson] := by
  simp [deltasOf, ChatCompletionChunk.toJson, makeChunk, ChunkChoice.toJson,
    Json.Members.lookup_cons]

theorem contentsOf_makeChunk :
    contentsOf (t.makeChunk seq delta finish usage).toJson = delta.content.toList := by
  rw [contentsOf, deltasOf_makeChunk]
  cases content : delta.content with
  | none => simp [ChunkDelta.toJson, List.lookup_append, lookup_skipNone, content]
  | some text => simp [ChunkDelta.toJson, List.lookup_append, lookup_skipNone, content]

theorem toolCallsOf_makeChunk :
    toolCallsOf (t.makeChunk seq delta finish usage).toJson =
      (delta.toolCalls.getD []).map (·.toJson) := by
  rw [toolCallsOf, deltasOf_makeChunk]
  cases calls : delta.toolCalls with
  | none => simp [ChunkDelta.toJson, List.lookup_append, lookup_skipNone, calls]
  | some calls' => simp [ChunkDelta.toJson, List.lookup_append, lookup_skipNone, calls]

theorem startsOf_start (index : Nat) (callId name : String) :
    startsOf (t.makeChunk seq (startDelta index callId name) finish usage).toJson =
      [(usize index, callId, name)] := by
  simp [startsOf, toolCallsOf_makeChunk, startDelta]

theorem startsOf_arguments (index : Nat) (arguments : String) :
    startsOf (t.makeChunk seq (argumentsDelta index arguments) finish usage).toJson = [] := by
  simp [startsOf, toolCallsOf_makeChunk, argumentsDelta]

theorem fragmentsAt_start (index : Nat) (callId name : String) (slot : UInt64) :
    fragmentsAt slot (t.makeChunk seq (startDelta index callId name) finish usage).toJson =
      if usize index = slot then [""] else [] := by
  by_cases same : usize index = slot
  · simp [fragmentsAt, toolCallsOf_makeChunk, startDelta, same]
  · simp [fragmentsAt, toolCallsOf_makeChunk, startDelta, same]

theorem fragmentsAt_arguments (index : Nat) (arguments : String) (slot : UInt64) :
    fragmentsAt slot (t.makeChunk seq (argumentsDelta index arguments) finish usage).toJson =
      if usize index = slot then [arguments] else [] := by
  by_cases same : usize index = slot
  · simp [fragmentsAt, toolCallsOf_makeChunk, argumentsDelta, same]
  · simp [fragmentsAt, toolCallsOf_makeChunk, argumentsDelta, same]

/-- Without tool calls there is nothing to read of them. -/
theorem silent_makeChunk (none' : delta.toolCalls = none) :
    startsOf (t.makeChunk seq delta finish usage).toJson = [] ∧
      ∀ slot, fragmentsAt slot (t.makeChunk seq delta finish usage).toJson = [] := by
  simp [startsOf, fragmentsAt, toolCallsOf_makeChunk, none']

/-- A view that skips role frames reads of a body delta its own frame. -/
theorem flatMap_bodyFrames (view : Json → List α)
    (skips : ∀ u : SSETransformer,
      view (u.makeChunk seq { role := some "assistant" } none none).toJson = []) :
    ∃ u : SSETransformer, (t.bodyFrames seq delta).flatMap (fun c => view c.toJson) =
      view (u.makeChunk seq delta none none).toJson := by
  refine ⟨(t.sendRole seq).1, ?_⟩
  rw [bodyFrames, List.flatMap_append, List.flatMap_singleton, sendRole]
  split
  · rfl
  · rw [List.flatMap_singleton, skips, List.nil_append]

end SSETransformer

namespace Action

theorem contents_apply (a : Action) (t : SSETransformer) :
    (a.apply t).frames.flatMap (fun c => contentsOf c.toJson) = a.text?.toList := by
  have skips (seq : Option UInt64) (u : SSETransformer) :
      contentsOf (u.makeChunk seq { role := some "assistant" } none none).toJson = [] :=
    contentsOf_makeChunk u seq _ none none
  have body (t : SSETransformer) (seq : Option UInt64) (delta : ChunkDelta) :
      (t.bodyFrames seq delta).flatMap (fun c => contentsOf c.toJson) = delta.content.toList := by
    obtain ⟨u, same⟩ := flatMap_bodyFrames t seq delta contentsOf (skips seq)
    rw [same, contentsOf_makeChunk]
  cases a with
  | ignore | stop | reject | note => rfl
  | reset id =>
    simp only [apply]
    split <;> rfl
  | text seq text =>
    simp only [apply, emitDelta_eq]
    exact body t seq _
  | reasoning seq part =>
    simp only [apply, emitDelta_eq]
    exact body t seq _
  | announce seq itemId callId name =>
    simp only [apply, emitDelta_eq]
    exact body _ seq _
  | arguments seq itemId text =>
    simp only [apply]
    split
    · rfl
    · rw [emitDelta_eq]
      exact body t seq _
  | finish seq usage =>
    simp only [apply, Handled.frames, TransformResult.frames, List.flatMap_singleton]
    exact contentsOf_makeChunk t seq _ _ _

/-- The calls that an action starts. -/
def starts (t : SSETransformer) : Action → List (UInt64 × String × String)
  | .announce _ itemId callId name => [(usize (t.announce itemId callId name).2, callId, name)]
  | _ => []

/-- The argument fragments that an action sends under an index. -/
def fragments (t : SSETransformer) (slot : UInt64) : Action → List String
  | .announce _ itemId callId name =>
    if usize (t.announce itemId callId name).2 = slot then [""] else []
  | .arguments _ itemId delta =>
    match t.toolIndexByItemId.lookup itemId with
    | some index => if usize index = slot then [delta] else []
    | none => []
  | _ => []

theorem calls_apply (a : Action) (t : SSETransformer) :
    (a.apply t).frames.flatMap (fun c => startsOf c.toJson) = a.starts t ∧
    ∀ slot, (a.apply t).frames.flatMap (fun c => fragmentsAt slot c.toJson) =
      a.fragments t slot := by
  have role (seq : Option UInt64) (u : SSETransformer) := silent_makeChunk u seq
    { role := some "assistant" } none none rfl
  have plain (t : SSETransformer) (seq : Option UInt64) {delta : ChunkDelta}
      (none' : delta.toolCalls = none) :
      (t.bodyFrames seq delta).flatMap (fun c => startsOf c.toJson) = [] ∧
      ∀ slot, (t.bodyFrames seq delta).flatMap (fun c => fragmentsAt slot c.toJson) = [] := by
    constructor
    · obtain ⟨u, same⟩ := flatMap_bodyFrames t seq delta startsOf fun u => (role seq u).1
      rw [same, (silent_makeChunk u seq delta none none none').1]
    · intro slot
      obtain ⟨u, same⟩ := flatMap_bodyFrames t seq delta (fragmentsAt slot)
        fun u => (role seq u).2 slot
      rw [same, (silent_makeChunk u seq delta none none none').2]
  cases a with
  | ignore | stop | reject | note => exact ⟨rfl, fun _ => rfl⟩
  | reset id =>
    simp only [apply]
    split <;> exact ⟨rfl, fun _ => rfl⟩
  | text seq text =>
    simp only [apply, emitDelta_eq]
    exact plain t seq rfl
  | reasoning seq part =>
    simp only [apply, emitDelta_eq]
    exact plain t seq rfl
  | announce seq itemId callId name =>
    simp only [apply, emitDelta_eq, Handled.frames, TransformResult.frames, starts, fragments]
    constructor
    · obtain ⟨u, same⟩ := flatMap_bodyFrames (t.announce itemId callId name).1 seq
        (startDelta (t.announce itemId callId name).2 callId name) startsOf fun u => (role seq u).1
      rw [same, startsOf_start]
    · intro slot
      obtain ⟨u, same⟩ := flatMap_bodyFrames (t.announce itemId callId name).1 seq
        (startDelta (t.announce itemId callId name).2 callId name) (fragmentsAt slot)
        fun u => (role seq u).2 slot
      rw [same, fragmentsAt_start]
  | arguments seq itemId text =>
    cases found : t.toolIndexByItemId.lookup itemId with
    | none =>
      simp only [apply, fragments, found]
      exact ⟨rfl, fun _ => rfl⟩
    | some index =>
      simp only [apply, fragments, found, emitDelta_eq, Handled.frames, TransformResult.frames,
        starts]
      constructor
      · obtain ⟨u, same⟩ := flatMap_bodyFrames t seq (argumentsDelta index text) startsOf
          fun u => (role seq u).1
        rw [same, startsOf_arguments]
      · intro slot
        obtain ⟨u, same⟩ := flatMap_bodyFrames t seq (argumentsDelta index text) (fragmentsAt slot)
          fun u => (role seq u).2 slot
        rw [same, fragmentsAt_arguments]
  | finish seq usage =>
    simp only [apply, Handled.frames, TransformResult.frames, List.flatMap_singleton]
    exact silent_makeChunk t seq {} _ _ rfl

end Action

end CodexProxy.Transform
