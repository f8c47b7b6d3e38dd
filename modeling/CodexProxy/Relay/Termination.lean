import CodexProxy.Relay.Refinement
import CodexProxy.Library.ReferenceCodec

/-! Guaranteed termination. The payloads that a relay sends on the way are completion
chunks; neither the sentinel nor an error payload reads as one, so both occur only
among the closing frames. -/
namespace CodexProxy.Relay
open Bytes EventStream Transform Polling

variable (codec : Json.Codec)

/-- A payload whose value is a completion chunk. -/
def IsChunkPayload (p : List UInt8) : Prop :=
  ∃ value, codec.fromSlice p = some value ∧ isOpenaiChunk value = true

theorem IsChunkPayload.ne_done {p : List UInt8} (chunk : IsChunkPayload codec p) :
    p ≠ Text.utf8 "[DONE]" := by
  rintro rfl
  obtain ⟨value, decoded, _⟩ := chunk
  have unreadable := SSETransformer.read_doneMarker codec
  rw [SSETransformer.doneMarker] at unreadable
  rw [Json.Codec.fromSlice, unreadable] at decoded
  cases decoded

theorem errorPayload_portable (message : String) : (errorPayload message).Portable := by
  have within : (errorPayload message).Within 1 := by simp [errorPayload]
  exact within.portable (by decide)

theorem fromSlice_errorPayload (message : String) :
    codec.fromSlice (codec.toVec (errorPayload message)) = some (errorPayload message) := by
  rw [Json.Codec.fromSlice, codec.read_toVec (errorPayload_portable message)]
  rfl

theorem IsChunkPayload.ne_error {p : List UInt8} (chunk : IsChunkPayload codec p)
    (message : String) : p ≠ codec.toVec (errorPayload message) := by
  rintro rfl
  obtain ⟨value, decoded, isChunk⟩ := chunk
  rw [fromSlice_errorPayload] at decoded
  cases decoded
  simp [isOpenaiChunk, errorPayload, Json.Members.lookup_cons] at isChunk

theorem errorPayload_ne_done (message : String) :
    codec.toVec (errorPayload message) ≠ Text.utf8 "[DONE]" := by
  intro same
  have read := codec.read_toVec (errorPayload_portable message)
  rw [same, ← SSETransformer.doneMarker, SSETransformer.read_doneMarker] at read
  cases read

/-- A chunk's frame reads as a completion chunk. -/
theorem frame_isChunkPayload {c : ChatCompletionChunk} (chunk : c.IsChunk) :
    IsChunkPayload codec (SSETransformer.frame codec c) := by
  refine ⟨c.toJson.normalize, by rw [Json.Codec.fromSlice, SSETransformer.read_frame]; rfl, ?_⟩
  have member : (c.toJson.normalize).get? "object" = some (.string "chat.completion.chunk") := by
    rw [ChatCompletionChunk.toJson, Json.normalize, Json.get?_object,
      Json.lookup_normalizeMembers_last, chunk]
    cases c.usage <;> simp [skipNone, Json.Members.lookup_cons, Json.normalize]
  simp [isOpenaiChunk, member]

theorem passThroughOpenaiChunk_isChunkPayload {event : Event}
    (passed : p ∈ (passThroughOpenaiChunk codec event).toList) : IsChunkPayload codec p := by
  unfold passThroughOpenaiChunk at passed
  split at passed
  · rename_i value decoded
    split at passed
    · rename_i chunk
      rw [Option.toList_some, List.mem_singleton] at passed
      exact ⟨value, passed ▸ decoded, chunk⟩
    · cases passed
  · cases passed

/-- Every payload of an answer is a chunk, and a failure names its error. -/
theorem reply_spec (t : SSETransformer) (event : Event)
    (answer : reply codec event (t.transform codec event).2 = .send ps) :
    ∀ p ∈ ps, IsChunkPayload codec p := by
  cases result : (t.transform codec event).2 with
  | ok r =>
    rw [result] at answer
    cases r with
    | done => cases answer
    | emitted frames =>
      cases answer
      intro p member
      obtain ⟨c, chunk, rfl⟩ := SSETransformer.transform_isChunk codec t event result p member
      exact frame_isChunkPayload codec chunk
    | swallowed =>
      cases answer
      intro p member
      exact passThroughOpenaiChunk_isChunkPayload codec member
  | error err =>
    rw [result, reply, recover] at answer
    cases decoded : codec.fromSlice event with
    | none =>
      rw [decoded] at answer
      cases answer
    | some value =>
      rw [decoded] at answer
      dsimp only at answer
      split at answer
      · cases answer
        intro p member
        split at member
        · rename_i chunk
          rw [List.mem_singleton.mp member]
          refine ⟨value, ?_, chunk⟩
          obtain ⟨text, read, rfl⟩ := Option.map_eq_some_iff.mp decoded
          rw [Json.Codec.fromSlice, codec.read_trimAscii event text read, Option.map_some]
        · cases member
      · cases answer

/-- The error a stream failed with, and the message of its error frame. -/
def ErrorMessage : RelayError → String → Prop
  | .upstreamRead message, shown => shown = message
  | .transform error, shown => shown = error.display
  | .downstreamWrite _, _ => False

/-- The two ways a relay closes a stream. -/
inductive Closes : Closing → Prop where
  | ok : Closes .ok
  | failed {error : RelayError} {message : String} (shown : ErrorMessage error message) :
      Closes (.failed codec message error)

/-- By induction on the events: chunks before, closing frames at the end. -/
theorem relay_spec (events : List Event) (ending : Ending)
    (s : SSETransformer × List (List UInt8)) (chunks : ∀ p ∈ s.2, IsChunkPayload codec p) :
    (∀ p ∈ ((relay codec).fold events ending s).1.2, IsChunkPayload codec p) ∧
      Closes codec ((relay codec).fold events ending s).2 := by
  induction events generalizing s with
  | nil =>
    cases ending with
    | eof => exact ⟨chunks, .ok⟩
    | failed message => exact ⟨chunks, .failed rfl⟩
  | cons event events ih =>
    rw [Handler.fold]
    cases answer : reply codec event (s.1.transform codec event).2 with
    | send payloads =>
      have each := reply_spec codec s.1 event answer
      simp only [relay, answer]
      apply ih
      intro p member
      rcases List.mem_append.mp member with before | sent
      · exact chunks p before
      · exact each p sent
    | close =>
      simp only [relay, answer]
      exact ⟨chunks, .ok⟩
    | fail error =>
      simp only [relay, answer]
      exact ⟨chunks, .failed rfl⟩

/-- A data frame that reports an error. -/
def IsErrorFrame (f : Frame) : Prop :=
  ∃ message, f = .data (codec.toVec (errorPayload message))

/-- What the frames before the sentinel look like, given the relay's result. -/
def WellEnded (before : List Frame) : Outcome → Prop
  | .ok () => ∀ f ∈ before, ¬ IsErrorFrame codec f
  | .error error => ∃ front message, ErrorMessage error message ∧
      before = front ++ [.data (codec.toVec (errorPayload message))]

/-- Whatever the upstream, its reads and the ticks, a relay to a client that accepts
every write returns, and what it wrote is a sequence of complete frames whose only
sentinel is the last one, after an error frame exactly when it failed. -/
theorem rewrite_terminates (reads : List (List UInt8)) (ending : Ending) (model : String)
    (config : RelayConfig) (downstream : Downstream) (healthy : downstream.Healthy)
    (empty : downstream.written = []) :
    ∃ polls, ∀ turns : List Turn, polls ≤ turns.count .poll →
      ∃ s outcome, rewriteSseStream codec reads ending downstream model config turns =
          .stopped s outcome ∧
        ∃ before, decode s.downstream.written = some (before ++ [.data (Text.utf8 "[DONE]")]) ∧
          .data (Text.utf8 "[DONE]") ∉ before ∧ WellEnded codec before outcome := by
  refine ⟨(Reading.new reads ending).size + 1, fun turns polls => ?_⟩
  obtain ⟨s, outcome, stopped⟩ := rewrite_returns codec (fun _ _ u => u) () reads ending downstream
    model config turns polls
  refine ⟨s, outcome, stopped, ?_⟩
  obtain ⟨same, frames, written, sent⟩ := rewrite_spec codec (fun _ _ u => u) healthy empty stopped
  obtain ⟨chunks, closes⟩ := relay_spec codec (eventsOf reads.flatten ending) ending
    (SSETransformer.new model, []) (by simp)
  rw [← relayAll] at chunks closes
  generalize relayAll codec model reads.flatten ending = final at same written sent chunks closes
  obtain ⟨⟨t, payloads'⟩, closing⟩ := final
  simp only at same written sent chunks closes
  have noDone : .data (Text.utf8 "[DONE]") ∉ frames := by
    intro member
    rw [← mem_payloads, sent] at member
    exact (chunks _ member).ne_done codec rfl
  cases closes with
  | ok =>
    refine ⟨frames, by rw [written, decode_encode]; rfl, noDone, ?_⟩
    rw [show outcome = .ok () from same]
    rintro f member ⟨message, rfl⟩
    rw [← mem_payloads, sent] at member
    exact (chunks _ member).ne_error codec message rfl
  | failed shown =>
    rename_i error message
    refine ⟨frames ++ [.data (codec.toVec (errorPayload message))], ?_, ?_, ?_⟩
    · rw [written, decode_encode]
      simp [Closing.failed]
    · rw [List.mem_append, List.mem_singleton, not_or]
      refine ⟨noDone, fun same => ?_⟩
      exact errorPayload_ne_done codec message (Frame.data.inj same).symm
    · rw [show outcome = .error error from same]
      exact ⟨frames, message, shown, rfl⟩

/-- For instance a connection that is reset in the middle of a line. -/
theorem rewrite_terminates_reset :
    ∃ polls, ∀ turns : List Turn, polls ≤ turns.count .poll →
      ∃ s outcome, rewriteSseStream JsonText.codec [Text.utf8 "data: [1,"]
          (.failed "reset") { sink := fun _ => none } "gpt-5" {} turns = .stopped s outcome ∧
        ∃ before, decode s.downstream.written = some (before ++ [.data (Text.utf8 "[DONE]")]) ∧
          .data (Text.utf8 "[DONE]") ∉ before ∧ WellEnded JsonText.codec before outcome :=
  rewrite_terminates JsonText.codec [Text.utf8 "data: [1,"] (.failed "reset") "gpt-5" {}
    { sink := fun _ => none } (fun _ => rfl) rfl

end CodexProxy.Relay
