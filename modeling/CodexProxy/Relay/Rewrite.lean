import CodexProxy.Relay.Downstream
import CodexProxy.Relay.Events
import CodexProxy.Transform.Transformer

/-! The two relay loops. Each is a select between the next upstream event and the
keepalive deadline; the loop body after the select runs to its end. Where the
deadline falls is left to the schedule, except that a zero interval disables it. -/
namespace CodexProxy.Relay
open Bytes EventStream Transform Polling

structure RelayConfig where
  keepaliveInterval : Nat := 15000

inductive RelayError where
  | upstreamRead (message : String)
  | downstreamWrite (message : String)
  | transform (error : TransformError)
deriving DecidableEq

/-- The observer sees every accepted event with its result, and keeps a log. -/
abbrev Observer (O : Type) := List UInt8 → TransformResult (List UInt8) → O → O

structure RewriteState (O : Type) where
  transformer : SSETransformer
  downstream : Downstream
  observed : O

abbrev Outcome := Except RelayError Unit

def isOpenaiChunk (value : Json) : Bool :=
  (value.get? "object").bind Json.asString = some "chat.completion.chunk"

/-- A value without a string `type`. -/
def isTypeless (value : Json) : Bool := ((value.get? "type").bind Json.asString).isNone

variable (codec : Json.Codec)

/-- The frame that a swallowed event passes through, if it is an OpenAI chunk. -/
def passThroughOpenaiChunk (event : Event) : Option (List UInt8) :=
  match codec.fromSlice (trimAscii event) with
  | some value => if isOpenaiChunk value then some (trimAscii event) else none
  | none => none

namespace RewriteState

/-- Write and go on; the relay returns when a write fails. -/
def write (s : RewriteState O) (w : Write) : Step (RewriteState O) Outcome :=
  match w s.downstream with
  | (d, .ok ()) => .next { s with downstream := d }
  | (d, .error message) => .stop { s with downstream := d } (.error (.downstreamWrite message))

/-- Write and return. -/
def finishWith (s : RewriteState O) (w : Write) : RewriteState O × Outcome :=
  match w s.downstream with
  | (d, .ok ()) => ({ s with downstream := d }, .ok ())
  | (d, .error message) => ({ s with downstream := d }, .error (.downstreamWrite message))

/-- Terminate best effort and return the error that ended the stream. -/
def failWith (s : RewriteState O) (message : String) (error : RelayError) :
    RewriteState O × Outcome :=
  ({ s with downstream := terminateWithError codec message s.downstream }, .error error)

/-- What the loop does with one upstream event. -/
def handleEvent (observe : Observer O) (event : Event) (s : RewriteState O) :
    Step (RewriteState O) Outcome :=
  let (transformer, result) := s.transformer.transform codec event
  let s := { s with transformer }
  match result with
  | .ok result =>
    let s := { s with observed := observe event result s.observed }
    match result with
    | .done =>
      let (s, outcome) := s.finishWith (writeDataFrame (Text.utf8 "[DONE]"))
      .stop s outcome
    | .emitted frames => s.write (.all (frames.map writeDataFrame))
    | .swallowed =>
      match passThroughOpenaiChunk codec event with
      | some payload => s.write (writeDataFrame payload)
      | none => .next s
  | .error err =>
    match codec.fromSlice event with
    | some value =>
      -- valid JSON without a string `type` is an unknown event, not an error
      if isTypeless value then
        if isOpenaiChunk value then s.write (writeDataFrame (trimAscii event)) else .next s
      else
        let (s, outcome) := s.failWith codec err.display (.transform err)
        .stop s outcome
    | none =>
      let (s, outcome) := s.failWith codec err.display (.transform err)
      .stop s outcome

def handleEnd (ending : Ending) (s : RewriteState O) : RewriteState O × Outcome :=
  match ending with
  | .eof => s.finishWith (writeDataFrame (Text.utf8 "[DONE]"))
  | .failed message => s.failWith codec message (.upstreamRead message)

/-- The keepalive branch of the select. -/
def keepalive (s : RewriteState O) : Step (RewriteState O) Outcome := s.write writePing

end RewriteState

def rewriteLoop (observe : Observer O) : Loop (RewriteState O) Event Ending Outcome where
  onItem := RewriteState.handleEvent codec observe
  onDone := RewriteState.handleEnd codec
  onTick := RewriteState.keepalive

/-- The turns that a configuration allows. -/
def RelayConfig.schedule (config : RelayConfig) (turns : List Turn) : List Turn :=
  if config.keepaliveInterval = 0 then turns.filter (· = .poll) else turns

def rewriteSseStreamWithCallback (observe : Observer O) (observed : O)
    (reads : List (List UInt8)) (ending : Ending) (downstream : Downstream) (model : String)
    (config : RelayConfig) (turns : List Turn) : Config Reading (RewriteState O) Outcome :=
  (rewriteLoop codec observe).run Reading.source
    (.running (Reading.new reads ending)
      { transformer := SSETransformer.new model, downstream, observed })
    (config.schedule turns)

/-- The relay without an observer. -/
def rewriteSseStream (reads : List (List UInt8)) (ending : Ending) (downstream : Downstream)
    (model : String) (config : RelayConfig) (turns : List Turn) :
    Config Reading (RewriteState Unit) Outcome :=
  rewriteSseStreamWithCallback codec (fun _ _ u => u) () reads ending downstream model config turns

/-- The payload that is copied: a sentinel loses its surrounding whitespace. -/
def passThroughPayload (event : Event) : List UInt8 :=
  if trimAscii event = Text.utf8 "[DONE]" then Text.utf8 "[DONE]" else event

def Downstream.attempt (d : Downstream) (w : Write) : Step Downstream Outcome :=
  match w d with
  | (d', .ok ()) => .next d'
  | (d', .error message) => .stop d' (.error (.downstreamWrite message))

/-- Empty payloads are skipped; nothing is added at the end. -/
def passThroughLoop : Loop Downstream Event Ending Outcome where
  onItem event d :=
    if passThroughPayload event = [] then .next d
    else d.attempt (writeDataFrame (passThroughPayload event))
  onDone
    | .eof, d => (d, .ok ())
    | .failed message, d => (d, .error (.upstreamRead message))
  onTick d := d.attempt writePing

def passThroughSseStream (reads : List (List UInt8)) (ending : Ending) (downstream : Downstream)
    (config : RelayConfig) (turns : List Turn) : Config Reading Downstream Outcome :=
  passThroughLoop.run Reading.source (.running (Reading.new reads ending) downstream)
    (config.schedule turns)

@[simp] theorem RelayConfig.schedule_polls (config : RelayConfig) (turns : List Turn) :
    (config.schedule turns).count .poll = turns.count .poll := by
  unfold schedule
  split
  · rw [List.count_filter (by decide)]
  · rfl

end CodexProxy.Relay
