import CodexProxy.Relay.Rewrite
import CodexProxy.Transform.Wire

/-! What a relay is for: a fold of the upstream's events into payloads. The rewrite
loop over a healthy sink simulates this fold, with the payloads as its data frames;
pings are invisible in it, and so are reads. -/
namespace CodexProxy.Relay
open Bytes EventStream Transform Polling

/-- The relay's answer to one event. -/
inductive Reply where
  | send (payloads : List (List UInt8))
  | close
  | fail (error : TransformError)

variable (codec : Json.Codec)

/-- The answer to an event that the transformer rejects. -/
def recover (event : Event) (error : TransformError) : Reply :=
  match codec.fromSlice event with
  | some value =>
    if isTypeless value then .send (if isOpenaiChunk value then [trimAscii event] else [])
    else .fail error
  | none => .fail error

def reply (event : Event) : Except TransformError (TransformResult (List UInt8)) → Reply
  | .ok .done => .close
  | .ok (.emitted frames) => .send frames
  | .ok .swallowed => .send (passThroughOpenaiChunk codec event).toList
  | .error error => recover codec event error

/-- The last frames of a stream, and what the relay returns after them. -/
structure Closing where
  frames : List (List UInt8)
  outcome : Outcome

def Closing.ok : Closing where
  frames := [Text.utf8 "[DONE]"]
  outcome := .ok ()

def Closing.failed (message : String) (error : RelayError) : Closing where
  frames := [codec.toVec (errorPayload message), Text.utf8 "[DONE]"]
  outcome := .error error

/-- The relay as a handler of events that collects the payloads it sends. -/
def relay : Handler (SSETransformer × List (List UInt8)) Event Ending Closing where
  onItem event s :=
    let (t, result) := s.1.transform codec event
    match reply codec event result with
    | .send payloads => .next (t, s.2 ++ payloads)
    | .close => .stop (t, s.2) .ok
    | .fail error => .stop (t, s.2) (.failed codec error.display (.transform error))
  onDone
    | .eof, s => (s, .ok)
    | .failed message, s => (s, .failed codec message (.upstreamRead message))

/-- The data sent so far; pings may stand between the frames. -/
def Sent (d : Downstream) (sent : List (List UInt8)) : Prop :=
  d.Healthy ∧ ∃ frames, d.written = encode frames ∧ payloads frames = sent

/-- The closing frames come last, with nothing between or after them. -/
def Closed (d : Downstream) (sent closing : List (List UInt8)) : Prop :=
  ∃ frames, d.written = encode (frames ++ closing.map .data) ∧ payloads frames = sent

theorem sent_new {d : Downstream} (healthy : d.Healthy) (empty : d.written = []) : Sent d [] :=
  ⟨healthy, [], by simp [empty], rfl⟩

/-- Writing frames extends what was sent by their payloads. -/
theorem Sent.write {d : Downstream} {w : Write} (sent : Sent d ps)
    (writes : w.Appends (encode frames)) :
    ∃ d', w d = (d', .ok ()) ∧ Sent d' (ps ++ payloads frames) := by
  obtain ⟨healthy, before, written, rfl⟩ := sent
  obtain ⟨d', performed, healthy', written'⟩ := writes d healthy
  refine ⟨d', performed, healthy', before ++ frames, ?_, payloads_append _ _⟩
  rw [written', written, encode_append]

theorem Sent.close {d : Downstream} {w : Write} (closing : List (List UInt8)) (sent : Sent d ps)
    (writes : w.Appends (encode (closing.map .data))) :
    ∃ d', w d = (d', .ok ()) ∧ Closed d' ps closing := by
  obtain ⟨healthy, before, written, rfl⟩ := sent
  obtain ⟨d', performed, _, written'⟩ := writes d healthy
  refine ⟨d', performed, before, ?_, rfl⟩
  rw [written', written, encode_append]

theorem Sent.terminate {d : Downstream} (sent : Sent d ps) (message : String) (error : RelayError) :
    Closed (terminateWithError codec message d) ps (Closing.failed codec message error).frames := by
  obtain ⟨healthy, before, written, rfl⟩ := sent
  refine ⟨before, ?_, rfl⟩
  rw [(terminateWithError_spec codec message healthy).2, written, encode_append]
  rfl

theorem frames_appends (ps : List (List UInt8)) :
    (Write.all (ps.map writeDataFrame)).Appends (encode (ps.map .data)) := by
  have written := Write.all_map_spec writeDataFrame_spec ps
  simpa [encode, List.flatMap_map] using written

theorem frame_appends (p : List UInt8) :
    (writeDataFrame p).Appends (encode [.data p]) := by
  simpa [encode] using writeDataFrame_spec p

theorem ping_appends : writePing.Appends (encode [.ping]) := by
  simpa [encode] using writePing_spec

namespace RewriteState

/-- A loop state that matches an abstract one. -/
def Matches (s : RewriteState O) (t : SSETransformer × List (List UInt8)) : Prop :=
  s.transformer = t.1 ∧ Sent s.downstream t.2

def MatchesFinal (final : RewriteState O × Outcome)
    (abstract : (SSETransformer × List (List UInt8)) × Closing) : Prop :=
  final.2 = abstract.2.outcome ∧
    Closed final.1.downstream abstract.1.2 abstract.2.frames

theorem write_spec {s : RewriteState O} {w : Write} (sent : Sent s.downstream ps)
    (writes : w.Appends (encode frames)) :
    ∃ d, s.write w = .next { s with downstream := d } ∧ Sent d (ps ++ payloads frames) := by
  obtain ⟨d, performed, sent'⟩ := sent.write writes
  exact ⟨d, by simp only [write, performed], sent'⟩

theorem finishWith_spec {s : RewriteState O} (sent : Sent s.downstream ps) :
    ∃ d, s.finishWith (writeDataFrame (Text.utf8 "[DONE]")) = ({ s with downstream := d }, .ok ()) ∧
      Closed d ps Closing.ok.frames := by
  obtain ⟨d, performed, closed⟩ := sent.close Closing.ok.frames (frame_appends _)
  exact ⟨d, by simp only [finishWith, performed], closed⟩

/-- A frame sent on both sides. -/
theorem write_related {s : RewriteState O} {w : Write} (sent : Sent s.downstream ps)
    (writes : w.Appends (encode frames)) :
    (s.write w).Related Matches MatchesFinal
      (.next (s.transformer, ps ++ payloads frames) : Step _ Closing) := by
  obtain ⟨d, performed, sent'⟩ := write_spec sent writes
  rw [performed]
  exact ⟨rfl, sent'⟩

/-- A stream failed on both sides. -/
theorem failWith_related {s : RewriteState O} (sent : Sent s.downstream ps) (message : String)
    (error : RelayError) :
    (Step.stop (s.failWith codec message error).1 (s.failWith codec message error).2).Related
      Matches MatchesFinal (.stop (t, ps) (Closing.failed codec message error)) :=
  ⟨rfl, sent.terminate codec message error⟩

/-- One event: the loop body answers as the abstract relay does. -/
theorem handleEvent_spec (observe : Observer O) {s : RewriteState O} (same : s.Matches t)
    (event : Event) :
    (s.handleEvent codec observe event).Related Matches MatchesFinal
      ((relay codec).onItem event t) := by
  obtain ⟨transformer, sent⟩ := same
  unfold handleEvent
  simp only [relay, transformer]
  generalize t.1.transform codec event = answer
  obtain ⟨t', result⟩ := answer
  cases result with
  | ok r =>
    cases r with
    | done =>
      obtain ⟨d, performed, closed⟩ := finishWith_spec (s :=
        { transformer := t', downstream := s.downstream,
          observed := observe event .done s.observed }) sent
      simp only [reply, performed]
      exact ⟨rfl, closed⟩
    | emitted frames =>
      have related := write_related (s :=
        { transformer := t', downstream := s.downstream,
          observed := observe event (.emitted frames) s.observed }) sent (frames_appends frames)
      rwa [payloads_map_data] at related
    | swallowed =>
      simp only [reply]
      cases passThroughOpenaiChunk codec event with
      | some payload =>
        exact write_related (s :=
          { transformer := t', downstream := s.downstream,
            observed := observe event .swallowed s.observed }) sent (frame_appends payload)
      | none =>
        rw [Option.toList_none, List.append_nil]
        exact ⟨rfl, sent⟩
  | error err =>
    simp only [reply, recover]
    cases codec.fromSlice event with
    | none => exact failWith_related codec sent err.display (.transform err)
    | some value =>
      by_cases typeless : isTypeless value
      · simp only [typeless, if_true]
        by_cases chunk : isOpenaiChunk value
        · simp only [chunk, if_true]
          exact write_related (s := { s with transformer := t' }) sent
            (frame_appends (trimAscii event))
        · simp only [chunk, Bool.false_eq_true, if_false, List.append_nil]
          exact ⟨rfl, sent⟩
      · simp only [typeless, Bool.false_eq_true, if_false]
        exact failWith_related codec sent err.display (.transform err)

theorem handleEnd_spec {s : RewriteState O} (same : s.Matches t) (ending : Ending) :
    MatchesFinal (s.handleEnd codec ending) ((relay codec).onDone ending t) := by
  obtain ⟨_, sent⟩ := same
  cases ending with
  | eof =>
    obtain ⟨d, performed, closed⟩ := finishWith_spec sent
    simp only [handleEnd, performed]
    exact ⟨rfl, closed⟩
  | failed message => exact ⟨rfl, sent.terminate codec message (.upstreamRead message)⟩

theorem keepalive_spec {s : RewriteState O} (same : s.Matches t) :
    ∃ s', s.keepalive = .next s' ∧ s'.Matches t := by
  obtain ⟨transformer, sent⟩ := same
  obtain ⟨d, performed, sent'⟩ := write_spec sent ping_appends
  exact ⟨_, performed, transformer, by simpa using sent'⟩

end RewriteState

/-- The rewrite loop simulates the abstract relay. -/
def rewriteSimulation (observe : Observer O) :
    Simulation (rewriteLoop codec observe) (relay codec) where
  rel := RewriteState.Matches
  final := RewriteState.MatchesFinal
  tick same := RewriteState.keepalive_spec same
  item same event := RewriteState.handleEvent_spec codec observe same event
  done same ending := RewriteState.handleEnd_spec codec same ending

/-- What the relay does with an upstream, as a function of its octets alone. -/
def relayAll (model : String) (bs : List UInt8) (ending : Ending) :
    (SSETransformer × List (List UInt8)) × Closing :=
  (relay codec).fold (eventsOf bs ending) ending (SSETransformer.new model, [])

/-- Every run that returns has relayed its upstream. -/
theorem rewrite_spec (observe : Observer O) {downstream : Downstream} {config : RelayConfig}
    {turns : List Turn} (healthy : downstream.Healthy) (empty : downstream.written = [])
    (returned : rewriteSseStreamWithCallback codec observe observed reads ending downstream model
      config turns = .stopped s outcome) :
    RewriteState.MatchesFinal (s, outcome) (relayAll codec model reads.flatten ending) := by
  have start : RewriteState.Matches
      { transformer := SSETransformer.new model, downstream, observed }
      (SSETransformer.new model, []) := ⟨rfl, sent_new healthy empty⟩
  have final := (rewriteSimulation codec observe).run Reading.source start returned
  rwa [Reading.source_items_new, Reading.source_ending_new] at final

/-- With enough polls every run returns. -/
theorem rewrite_returns (observe : Observer O) (observed : O) (reads : List (List UInt8))
    (ending : Ending) (downstream : Downstream) (model : String) (config : RelayConfig)
    (turns : List Turn) (polls : (Reading.new reads ending).size < turns.count .poll) :
    ∃ s outcome, rewriteSseStreamWithCallback codec observe observed reads ending downstream model
      config turns = .stopped s outcome := by
  apply Loop.run_stops
  rwa [RelayConfig.schedule_polls]

/-- The pass-through relay as a handler of events. -/
def passThrough : Handler (List (List UInt8)) Event Ending Outcome where
  onItem event sent :=
    .next (sent ++ if passThroughPayload event = [] then [] else [passThroughPayload event])
  onDone
    | .eof, sent => (sent, .ok ())
    | .failed message, sent => (sent, .error (.upstreamRead message))

theorem Sent.attempt {d : Downstream} {w : Write} (sent : Sent d ps)
    (writes : w.Appends (encode frames)) :
    ∃ d', d.attempt w = .next d' ∧ Sent d' (ps ++ payloads frames) := by
  obtain ⟨d', performed, sent'⟩ := sent.write writes
  exact ⟨d', by simp only [Downstream.attempt, performed], sent'⟩

def passThroughSimulation : Simulation passThroughLoop passThrough where
  rel := Sent
  final final abstract := final.2 = abstract.2 ∧ Sent final.1 abstract.1
  tick {d ps} sent := by
    obtain ⟨d', performed, sent'⟩ := sent.attempt ping_appends
    exact ⟨d', performed, by simpa using sent'⟩
  item {d ps} sent event := by
    simp only [passThroughLoop, passThrough]
    split
    · rw [List.append_nil]
      exact sent
    · obtain ⟨d', performed, sent'⟩ := sent.attempt (frame_appends (passThroughPayload event))
      rw [performed]
      exact sent'
  done {d ps} sent ending := by
    cases ending with
    | eof | failed => exact ⟨rfl, sent⟩

theorem passThrough_spec {downstream : Downstream} {config : RelayConfig} {turns : List Turn}
    (healthy : downstream.Healthy) (empty : downstream.written = [])
    (returned : passThroughSseStream reads ending downstream config turns = .stopped d outcome) :
    outcome = (passThrough.fold (eventsOf reads.flatten ending) ending []).2 ∧
      Sent d (passThrough.fold (eventsOf reads.flatten ending) ending []).1 := by
  have final := passThroughSimulation.run Reading.source (sent_new healthy empty) returned
  rwa [Reading.source_items_new, Reading.source_ending_new] at final

theorem passThrough_returns (reads : List (List UInt8)) (ending : Ending)
    (downstream : Downstream) (config : RelayConfig) (turns : List Turn)
    (polls : (Reading.new reads ending).size < turns.count .poll) :
    ∃ d outcome, passThroughSseStream reads ending downstream config turns =
      .stopped d outcome := by
  apply Loop.run_stops
  rwa [RelayConfig.schedule_polls]

end CodexProxy.Relay
