import CodexProxy.Buffered.Chunk
import CodexProxy.Relay.Events

/-! Non-streaming chat completions: the upstream is consumed to its end, through the
transformer, and the frames it emits are aggregated into one completion object. -/
namespace CodexProxy.Buffered
open Transform Relay Polling

inductive BufferError where
  | read (message : String)
  | transform (error : TransformError)
  | missingTerminalEvent (upstreamError : Option Json)

structure ToolCallAccumulator where
  id : String := ""
  name : String := ""
  arguments : String := ""

/-- A map ordered by index. -/
abbrev ToolCalls := List (Usize × ToolCallAccumulator)

/-- Update the entry at an index, which is created empty when it is missing. -/
def ToolCalls.entry (index : Usize) (f : ToolCallAccumulator → ToolCallAccumulator) :
    ToolCalls → ToolCalls
  | [] => [(index, f {})]
  | (i, acc) :: rest =>
    if index = i then (i, f acc) :: rest
    else if index < i then (index, f {}) :: (i, acc) :: rest
    else (i, acc) :: ToolCalls.entry index f rest

/-- What is accumulated over the frames. -/
structure Aggregation where
  responseId : String := ""
  streamModel : String := ""
  created : Int64 := 0
  role : String := ""
  content : String := ""
  reasoningContent : String := ""
  finishReason : String := ""
  toolCalls : ToolCalls := []
  usage : Option Json := none

/-- A later text replaces an earlier one unless it is empty. -/
def lastNonEmpty (old : String) (new : Option String) : String :=
  match new with
  | some s => if s = "" then old else s
  | none => old

/-- The first text that is not empty stays. -/
def firstNonEmpty (old new : String) : String := if old = "" then new else old

def ToolCallAccumulator.absorb (acc : ToolCallAccumulator) (tc : ToolCallDelta) :
    ToolCallAccumulator where
  id := lastNonEmpty acc.id tc.id
  name := lastNonEmpty acc.name (tc.function.bind (·.name))
  arguments := acc.arguments ++ (tc.function.bind (·.arguments)).getD ""

namespace Aggregation

def absorbToolCall (s : Aggregation) (tc : ToolCallDelta) : Aggregation :=
  { s with toolCalls := s.toolCalls.entry tc.index (·.absorb tc) }

def absorbChoice (s : Aggregation) (choice : StreamingChoice) : Aggregation :=
  (choice.delta.toolCalls.getD []).foldl absorbToolCall
    { s with
      role := firstNonEmpty s.role (choice.delta.role.getD "")
      content := s.content ++ choice.delta.content.getD ""
      reasoningContent := s.reasoningContent ++ choice.delta.reasoningContent.getD ""
      finishReason := lastNonEmpty s.finishReason choice.finishReason }

def absorb (s : Aggregation) (chunk : StreamingChunk) : Aggregation :=
  chunk.choices.foldl absorbChoice
    { s with
      responseId := firstNonEmpty s.responseId chunk.id
      streamModel := firstNonEmpty s.streamModel chunk.model
      created := if s.created = 0 then chunk.created else s.created
      usage := chunk.usage.or s.usage }

variable (codec : Json.Codec)

/-- Frames that are not chunks are skipped. -/
def absorbFrame (s : Aggregation) (frame : List UInt8) : Aggregation :=
  match StreamingChunk.fromFrame codec frame with
  | some chunk => s.absorb chunk
  | none => s

end Aggregation

def ToolCallAccumulator.toJson (acc : ToolCallAccumulator) : Json :=
  Json.buildObject [("id", .string acc.id), ("type", .string "function"),
    ("function", Json.buildObject [("name", .string acc.name), ("arguments", .string acc.arguments)])]

namespace Aggregation

/-- The finish reason, with its default. -/
def reason (s : Aggregation) : String := firstNonEmpty s.finishReason "stop"

def message (s : Aggregation) : Json :=
  Json.buildObject ([("role", .string (firstNonEmpty s.role "assistant")),
      ("content", .string s.content)] ++
    (if s.toolCalls = [] then [] else
      [("tool_calls", .array (s.toolCalls.map (·.2.toJson)))]) ++
    (if s.reasoningContent = "" then [] else
      [("reasoning_content", .string s.reasoningContent)]))

/-- The completion, with defaults for what no frame gave. `now` is the clock. -/
def response (s : Aggregation) (model : String) (now : Int64) : Json :=
  Json.buildObject ([("id", .string (firstNonEmpty s.responseId "chatcmpl-buffered")),
      ("object", .string "chat.completion"),
      ("created", .ofInt64 (if s.created = 0 then now else s.created)),
      ("model", .string (firstNonEmpty s.streamModel model)),
      ("choices", .array [Json.buildObject [("index", .ofInt64 0), ("message", s.message),
        ("finish_reason", .string s.reason)]])] ++
    skipNone "usage" s.usage)

end Aggregation

structure ChatBuffer where
  transformer : SSETransformer
  aggregation : Aggregation := {}

variable (codec : Json.Codec)

/-- The loop of the buffered path; `[DONE]` does not stop it. -/
def chatHandler (model : String) (now : Int64) :
    Handler ChatBuffer Event Ending (Except BufferError Json) where
  onItem event s :=
    match s.transformer.transform codec event with
    | (transformer, .error err) => .stop { s with transformer } (.error (.transform err))
    | (transformer, .ok (.emitted frames)) =>
      .next { transformer, aggregation := frames.foldl (·.absorbFrame codec ·) s.aggregation }
    | (transformer, .ok .done) | (transformer, .ok .swallowed) => .next { s with transformer }
  onDone
    | .eof, s => (s, .ok (s.aggregation.response model now))
    | .failed message, s => (s, .error (.read message))

def bufferChatCompletion (reads : List (List UInt8)) (ending : Ending) (model : String)
    (now : Int64) : Except BufferError Json :=
  ((chatHandler codec model now).drive Reading.source (Reading.new reads ending)
    { transformer := SSETransformer.new model }).2

end CodexProxy.Buffered
