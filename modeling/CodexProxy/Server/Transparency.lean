import CodexProxy.Server.Handlers

/-! Asking for a stream. The backend hears nothing of it: it is sent the same octets. A
caller that does not stream gets the response that one who does can pick from the stream. -/
namespace CodexProxy.Server
open EventStream Relay Polling Request Router Upstream Buffered

section
variable {k : String} {v : Json} {ms : Json.Members} (sorted : ms.Sorted)
include sorted

theorem sorted_filter (keep : String × Json → Bool) : Json.Members.Sorted (ms.filter keep) :=
  (List.Pairwise.sublist (List.Sublist.map Prod.fst List.filter_sublist) sorted)

theorem sorted_insertMissing : Json.Members.Sorted (insertMissing k v ms) := by
  unfold insertMissing
  split
  · exact sorted
  · exact Json.Members.sorted_insert sorted

theorem sorted_setReasoning (settings : Json.Members) :
    Json.Members.Sorted (setReasoning settings ms) := by
  unfold setReasoning
  split
  · exact sorted_filter sorted _
  · exact Json.Members.sorted_insert sorted

theorem sorted_sanitize : Json.Members.Sorted (sanitizeResponsesInput ms) := by
  unfold sanitizeResponsesInput
  split
  · exact sorted
  · exact Json.Members.sorted_insert sorted

theorem sorted_withPromptCacheKey (env : Environment) (model instructions : String) :
    Json.Members.Sorted (withPromptCacheKey env model instructions ms) := by
  unfold withPromptCacheKey
  split
  · exact sorted
  · dsimp only
    split
    · exact sorted
    · exact Json.Members.sorted_insert sorted

/-- The rewriting keeps the members in order. -/
theorem sorted_rewritten (env : Environment) (requestedModel requestedEffort : String) :
    Json.Members.Sorted (Json.Members.retain (CODEX_RESPONSES_KEYS.contains ·)
      (rewriteResponsesMembers env ms requestedModel requestedEffort)) := by
  refine sorted_filter ?_ _
  unfold rewriteResponsesMembers
  refine sorted_withPromptCacheKey (sorted_setReasoning (sorted_insertMissing
    (sorted_insertMissing (Json.Members.sorted_insert (sorted_sanitize ?_)))) _) env _ _
  refine Json.Members.sorted_insert (Json.Members.sorted_insert (sorted_filter ?_ _))
  exact Json.Members.sorted_insert (Json.Members.sorted_insert (Json.Members.sorted_insert sorted))

end

/-- What is read off octets is sorted. -/
theorem sorted_fromSlice {codec : Json.Codec} {bs : List UInt8} {ms : Json.Members}
    (read : codec.fromSlice bs = some (.object ms)) : ms.Sorted := by
  obtain ⟨v, _, normal⟩ := Option.map_eq_some_iff.mp read
  cases v with
  | object ms' =>
    rw [Json.normalize] at normal
    rw [← Json.object.inj normal]
    exact Json.sorted_normalizeMembers .nil
  | _ => simp [Json.normalize] at normal

variable (env : Environment)

section
variable {request request' : Json.Members}
  (alike : ∀ k, k ≠ "stream" → request'.lookup k = request.lookup k)
include alike

/-- Neither endpoint reads whether a stream is asked for. -/
theorem alike_members {keys : List String} (unread : "stream" ∉ keys) :
    Alike keys (.object request) (.object request') :=
  fun k listed => alike k fun same => unread (same ▸ listed)

theorem chat_octets : buildCodexRequestBody env (.object request') =
    buildCodexRequestBody env (.object request) :=
  chat_congr env (alike_members alike (by decide))

theorem responses_octets (sorted : request.Sorted) (sorted' : request'.Sorted) :
    responsesTarget env (.object request') = responsesTarget env (.object request) :=
  congrArg Json.object ((sorted_rewritten sorted' env _ _).ext (sorted_rewritten sorted env _ _)
    fun k => responses_congr env (alike_members alike (by decide)) k)

end

/-- The sentinel is no value, and what is copied reads as what it is a copy of. -/
theorem fromSlice_passThrough (codec : Json.Codec) (event : Relay.Event) :
    codec.fromSlice (passThroughPayload event) = codec.fromSlice event := by
  rw [passThroughPayload]
  split
  · rename_i done
    have unread : codec.read (Text.utf8 "[DONE]") = none :=
      codec.read_letter 68 _ (by decide) (by decide)
    have unread' : codec.read event = none := by
      rw [Option.eq_none_iff_forall_ne_some]
      intro v read
      have trimmed := codec.read_trimAscii event v read
      rw [done, unread] at trimmed
      cases trimmed
    rw [Json.Codec.fromSlice, Json.Codec.fromSlice, unread, unread']
  · rfl

/-- The values in a copied stream are the upstream's. -/
theorem payloadsOf_copied (codec : Json.Codec) (events : List Relay.Event) :
    payloadsOf codec (copied events) = payloadsOf codec events := by
  have empty : codec.fromSlice [] = none := by
    rw [Json.Codec.fromSlice, codec.read_nil]
    rfl
  induction events with
  | nil => rfl
  | cons event events ih =>
    have source : payloadsOf codec (event :: events) =
        ((codec.fromSlice (passThroughPayload event)).toList ++ payloadsOf codec events) := by
      rw [fromSlice_passThrough, payloadsOf, List.filterMap_cons]
      cases codec.fromSlice event <;> rfl
    rw [source, ← ih]
    by_cases blank : passThroughPayload event = []
    · have dropped : copied (event :: events) = copied events := by simp [copied, blank]
      rw [dropped, blank, empty, Option.toList_none, List.nil_append]
    · have kept : copied (event :: events) = passThroughPayload event :: copied events := by
        simp [copied, blank]
      rw [kept, payloadsOf, List.filterMap_cons]
      cases codec.fromSlice (passThroughPayload event) <;> rfl

/-- A response that a relay copies, or that is put back together. -/
def Streamed (asked : Except UpstreamError UpstreamResponse) (resp : UpstreamResponse) : Prop :=
  asked = .ok resp ∧ resp.status < 400 ∧ isEventStream resp = true

/-- The reply that the values of a stream amount to. -/
def collapsed (values : List Json) : Reply :=
  match finalResponse values with
  | some response => jsonReply env OK response
  | none => jsonReply env INTERNAL_SERVER_ERROR (errorBody "Failed to process streaming response")

/-- A copied stream is one of complete frames with the upstream's values. -/
theorem passThrough_delivers {codec : Json.Codec} {reads : List (List UInt8)} {ending : Ending}
    {sent : List UInt8} (delivers : (ReplyBody.relayed .passThrough reads ending).Delivers codec sent) :
    ∃ frames, EventStream.decode sent = some frames ∧
      payloadsOf codec (payloads frames) = payloadsOf codec (eventsOf reads.flatten ending) := by
  obtain ⟨config, turns, d, outcome, returned, rfl⟩ := delivers
  obtain ⟨_, _, frames, written, values⟩ := passThrough_spec (fun _ => rfl) rfl returned
  refine ⟨frames, by rw [written, decode_encode], ?_⟩
  rw [values, passThrough_fold, List.nil_append, payloadsOf_copied]

/-- A relay that is polled often enough delivers something. -/
theorem passThrough_some (codec : Json.Codec) (reads : List (List UInt8)) (ending : Ending) :
    ∃ sent, (ReplyBody.relayed .passThrough reads ending).Delivers codec sent := by
  obtain ⟨d, outcome, returned⟩ := passThrough_returns reads ending { sink := fun _ => none }
    { keepaliveInterval := 1 } (List.replicate ((Reading.new reads ending).size + 1) .poll)
    (by simp)
  exact ⟨d.written, _, _, d, outcome, returned, rfl⟩

theorem buffered_collapsed (resp : UpstreamResponse) :
    answer env (match bufferResponsesResponse env.codec resp.reads resp.ending with
      | .ok response => .ok (jsonReply env OK response)
      | .error _ => .error (.api (.internal "Failed to process streaming response"))) =
      collapsed env (payloadsOf env.codec (eventsOf resp.reads.flatten resp.ending)) := by
  cases buffered : bufferResponsesResponse env.codec resp.reads resp.ending with
  | ok response => rw [collapsed, (bufferResponsesResponse_ok env.codec).mp buffered, answer]
  | error err =>
    cases final : finalResponse (payloadsOf env.codec (eventsOf resp.reads.flatten resp.ending)) with
    | none => rw [collapsed, final, answer, HandlerError.intoResponse]
    | some response =>
      rw [(bufferResponsesResponse_ok env.codec).mpr final] at buffered
      cases buffered

variable (send : SendWithRetry)

section
variable {env send} {body : List UInt8} {request : Json} {resp : UpstreamResponse}
  (read : env.codec.fromSlice body = some request)
include read

theorem responses_streaming (streams : wantsStream request = true)
    (streamed : Streamed (send (env.codec.toVec (responsesTarget env request))) resp) :
    responses env send body = .ok (relayResponse resp .passThrough) := by
  obtain ⟨asked, success, events⟩ := streamed
  rw [responses_ok read asked, if_neg (by simp [success, events]), if_pos streams]

theorem responses_waiting (waits : wantsStream request = false)
    (streamed : Streamed (send (env.codec.toVec (responsesTarget env request))) resp) :
    answer env (responses env send body) =
      collapsed env (payloadsOf env.codec (eventsOf resp.reads.flatten resp.ending)) := by
  obtain ⟨asked, success, events⟩ := streamed
  rw [responses_ok read asked, if_neg (by simp [success, events]), if_neg (by simp [waits])]
  exact buffered_collapsed env resp

/-- Any other answer reaches both callers as it is. -/
theorem responses_unstreamed
    (other : ∀ resp, ¬ Streamed (send (env.codec.toVec (responsesTarget env request))) resp) :
    responses env send body =
      match send (env.codec.toVec (responsesTarget env request)) with
      | .ok resp => .ok (mirrorResponse env resp)
      | .error error => .error (.upstream error) := by
  cases asked : send (env.codec.toVec (responsesTarget env request)) with
  | error error => exact responses_error read asked
  | ok resp =>
    have unlike := other resp
    rw [Streamed, not_and, not_and] at unlike
    rw [responses_ok read asked, if_pos]
    by_cases failed : 400 ≤ resp.status
    · exact .inl failed
    · exact .inr (Bool.eq_false_iff.mpr (unlike asked (not_le.mp failed)))

end

/-- Every two requests that read as objects and differ in `stream` alone, one asking for a
stream and one not: the backend is sent the same octets, by either endpoint. The responses
endpoint gives both the same reply, unless the upstream streams a success; then the one who
streams gets complete frames whatever the relay's schedule, and the other the reply that
these amount to. -/
theorem stream_transparent {body body' : List UInt8} {request request' : Json.Members}
    (read : env.codec.fromSlice body = some (.object request))
    (read' : env.codec.fromSlice body' = some (.object request'))
    (alike : ∀ k, k ≠ "stream" → request'.lookup k = request.lookup k)
    (streams : wantsStream (.object request) = true)
    (waits : wantsStream (.object request') = false) :
    buildCodexRequestBody env (.object request') = buildCodexRequestBody env (.object request) ∧
    responsesTarget env (.object request') = responsesTarget env (.object request) ∧
    ((∀ resp, ¬ Streamed (send (env.codec.toVec (responsesTarget env (.object request)))) resp) →
      responses env send body' = responses env send body) ∧
    ∀ resp, Streamed (send (env.codec.toVec (responsesTarget env (.object request)))) resp →
      (∃ sent, (answer env (responses env send body)).body.Delivers env.codec sent) ∧
      ∀ sent, (answer env (responses env send body)).body.Delivers env.codec sent →
        ∃ frames, EventStream.decode sent = some frames ∧
          answer env (responses env send body') =
            collapsed env (payloadsOf env.codec (payloads frames)) := by
  have same := responses_octets env alike (sorted_fromSlice read) (sorted_fromSlice read')
  refine ⟨chat_octets env alike, same, fun other => ?_, fun resp streamed => ?_⟩
  · have other' : ∀ resp, ¬ Streamed
        (send (env.codec.toVec (responsesTarget env (.object request')))) resp := by
      rw [same]
      exact other
    rw [responses_unstreamed read other, responses_unstreamed read' other', same]
  · rw [responses_streaming read streams streamed]
    refine ⟨passThrough_some env.codec resp.reads resp.ending, fun sent delivers => ?_⟩
    obtain ⟨frames, decodes, values⟩ := passThrough_delivers delivers
    rw [← same] at streamed
    exact ⟨frames, decodes, by rw [responses_waiting read' waits streamed, values]⟩

namespace Sample

def asking (stream : Bool) : List UInt8 :=
  Request.Sample.plain.codec.toVec (.object (Request.Sample.streaming stream))

def completed : Json :=
  .object [("response", .object []), ("type", .string "response.completed")]

def events : UpstreamResponse :=
  ⟨OK, [("content-type", Text.utf8 "text/event-stream")], streamOf JsonText.codec [completed], .eof⟩

theorem events_streamed : isEventStream events = true := by
  have typed : events.headers.lookup "content-type" = some (Text.utf8 "text/event-stream") := rfl
  have text : headerText (Text.utf8 "text/event-stream") = some "text/event-stream" := by decide
  rw [isEventStream, typed, Option.bind_some, text]
  decide

theorem asking_read (stream : Bool) : Request.Sample.plain.codec.fromSlice (asking stream) =
    some (.object (Request.Sample.streaming stream)) := by
  have portable : (Json.object (Request.Sample.streaming stream)).Portable := by
    cases stream <;> decide
  rw [asking, Json.Codec.fromSlice, Json.Codec.read_toVec _ portable]
  cases stream <;> rfl

end Sample

/-- The caller who waits gets the response that the other one's stream ends with. -/
theorem stream_transparent_completed :
    (∃ sent, (answer Request.Sample.plain (responses Request.Sample.plain
      (fun _ => .ok Sample.events) (Sample.asking true))).body.Delivers
        Request.Sample.plain.codec sent) ∧
    ∀ sent, (answer Request.Sample.plain (responses Request.Sample.plain
      (fun _ => .ok Sample.events) (Sample.asking true))).body.Delivers
        Request.Sample.plain.codec sent →
      ∃ frames, EventStream.decode sent = some frames ∧
        answer Request.Sample.plain (responses Request.Sample.plain
          (fun _ => .ok Sample.events) (Sample.asking false)) =
        collapsed Request.Sample.plain
          (payloadsOf Request.Sample.plain.codec (payloads frames)) := by
  have alike : ∀ k, k ≠ "stream" → (Request.Sample.streaming false).lookup k =
      (Request.Sample.streaming true).lookup k := by
    intro k other
    simp [Request.Sample.streaming, Json.Members.lookup_cons, other]
  obtain ⟨_, _, _, streamed⟩ := stream_transparent Request.Sample.plain
    (fun _ => .ok Sample.events) (Sample.asking_read true) (Sample.asking_read false) alike
    (by decide) (by decide)
  exact streamed Sample.events ⟨rfl, by decide, Sample.events_streamed⟩

end CodexProxy.Server
