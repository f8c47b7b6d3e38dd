import CodexProxy.Buffered.Agreement
import CodexProxy.Buffered.Responses
import CodexProxy.Relay.RoundTrip
import CodexProxy.Request.Footprint
import CodexProxy.Router.Proxy
import CodexProxy.Upstream.BareToken
import CodexProxy.Upstream.Retry

/-! The handlers of the data plane, from the octets of a request to a reply. What the
retrying call makes of the forwarded body is given. The body of a reply is there as a
whole, or a relay is still to write it. -/
namespace CodexProxy.Server
open Relay Polling Request Router Upstream Buffered

/-- A response of the upstream, whose body comes in reads. -/
structure UpstreamResponse where
  status : Nat
  headers : HeaderMap
  reads : List (List UInt8)
  ending : Ending

inductive RelayMode where
  | rewrite (model : String)
  | passThrough

inductive ReplyBody where
  | whole (octets : List UInt8)
  | relayed (mode : RelayMode) (reads : List (List UInt8)) (ending : Ending)

structure Reply where
  status : Nat
  headers : HeaderMap
  body : ReplyBody

/-- What fails in a handler. -/
inductive HandlerError where
  | api (error : ApiError)
  | upstream (error : UpstreamError)

def OK : Nat := 200
def INTERNAL_SERVER_ERROR : Nat := 500
def BAD_GATEWAY : Nat := 502
def SERVICE_UNAVAILABLE : Nat := 503

/-- The new value takes the place of all others. -/
def insertHeader (name value : String) (headers : HeaderMap) : HeaderMap :=
  headers.filter (·.1 ≠ name) ++ [(name, Text.utf8 value)]

/-- The media type without its parameters. -/
def isEventStream (resp : UpstreamResponse) : Bool :=
  match (resp.headers.lookup "content-type").bind headerText with
  | some ct =>
    eqIgnoreAsciiCase (Text.trim (String.ofList ((ct.toList.splitOn ';').headD []))) "text/event-stream"
  | none => false

def relayResponse (resp : UpstreamResponse) (mode : RelayMode) : Reply where
  status := resp.status
  headers := insertHeader "cache-control" "no-cache"
    (insertHeader "content-type" "text/event-stream; charset=utf-8" (sanitizedHeaders resp.headers))
  body := .relayed mode resp.reads resp.ending

def UpstreamError.display : UpstreamError → String
  | .credentials error => "failed to get credentials: " ++ error.display
  | .refreshFailed error => "token expired and refresh failed: " ++ error.display
  | .request message => "failed to send request: " ++ message

def errorBody (message : String) : Json := Json.buildObject [("error", .string message)]

variable (env : Environment)

def jsonReply (status : Nat) (value : Json) : Reply :=
  ⟨status, [("content-type", Text.utf8 "application/json")], .whole (env.codec.toVec value)⟩

/-- A body that cannot be read to its end is not passed on. -/
def mirrorResponse (resp : UpstreamResponse) : Reply :=
  match resp.ending with
  | .eof => ⟨resp.status, sanitizedHeaders resp.headers, .whole resp.reads.flatten⟩
  | .failed _ => jsonReply env BAD_GATEWAY (errorBody "Failed to read upstream response body")

def HandlerError.intoResponse : HandlerError → Reply
  | .api (.badRequest message) => jsonReply env BAD_REQUEST (errorBody message)
  | .api (.unauthorized message) => jsonReply env UNAUTHORIZED (errorBody message)
  | .api .adminNotConfigured =>
    jsonReply env INTERNAL_SERVER_ERROR (errorBody "Admin API not configured")
  | .api (.internal message) => jsonReply env INTERNAL_SERVER_ERROR (errorBody message)
  | .upstream error => jsonReply env SERVICE_UNAVAILABLE
      (errorBody ("Failed to communicate with upstream API: " ++ UpstreamError.display error))

/-- Only an explicit `true` asks for a stream. -/
def wantsStream (request : Json) : Bool := ((request.get? "stream").bind Json.asBool).getD false

/-- What the retrying call makes of a forwarded body. -/
abbrev SendWithRetry := List UInt8 → Except UpstreamError UpstreamResponse

variable (send : SendWithRetry)

def chatCompletions (now : Int64) (body : List UInt8) : Except HandlerError Reply := do
  let request ← match env.codec.fromSlice body with
    | some request => .ok request
    | none => .error (.api (.badRequest "Failed to parse request body"))
  let stream := wantsStream request
  let target := buildCodexRequestBody env request
  let normalizedModel := ((target.get? "model").bind Json.asString).getD GPT5
  let resp ← (send (env.codec.toVec target)).mapError .upstream
  if stream then
    if resp.status ≠ OK then return mirrorResponse env resp
    return relayResponse resp (.rewrite normalizedModel)
  if resp.status ≠ OK then return mirrorResponse env resp
  match bufferChatCompletion env.codec resp.reads resp.ending normalizedModel now with
  | .ok completion => return jsonReply env OK completion
  | .error _ => .error (.api (.internal "Failed to process streaming response"))

def responses (body : List UInt8) : Except HandlerError Reply := do
  let request ← match env.codec.fromSlice body with
    | some request => .ok request
    | none => .error (.api (.badRequest "Failed to parse request body"))
  let clientWantsStream := wantsStream request
  let resp ← (send (env.codec.toVec (responsesTarget env request))).mapError .upstream
  if 400 ≤ resp.status then return mirrorResponse env resp
  if !isEventStream resp then return mirrorResponse env resp
  if clientWantsStream then return relayResponse resp .passThrough
  match bufferResponsesResponse env.codec resp.reads resp.ending with
  | .ok response => return jsonReply env OK response
  | .error _ => .error (.api (.internal "Failed to process streaming response"))

/-- What the client gets. -/
def answer : Except HandlerError Reply → Reply
  | .ok reply => reply
  | .error error => error.intoResponse env

/-- The octets that a client gets which takes whatever is written. -/
def ReplyBody.Delivers (codec : Json.Codec) (sent : List UInt8) : ReplyBody → Prop
  | .whole octets => sent = octets
  | .relayed (.rewrite model) reads ending => ∃ config turns s outcome,
    rewriteSseStream codec reads ending { sink := fun _ => none } model config turns =
      .stopped s outcome ∧ s.downstream.written = sent
  | .relayed .passThrough reads ending => ∃ config turns d outcome,
    passThroughSseStream reads ending { sink := fun _ => none } config turns =
      .stopped d outcome ∧ d.written = sent

/-- Either relay delivers complete frames. -/
theorem relayed_decodes {codec : Json.Codec} {mode : RelayMode} {reads : List (List UInt8)}
    {ending : Ending} {sent : List UInt8}
    (delivers : (ReplyBody.relayed mode reads ending).Delivers codec sent) :
    ∃ frames, EventStream.decode sent = some frames := by
  cases mode with
  | rewrite model =>
    obtain ⟨config, turns, s, outcome, returned, rfl⟩ := delivers
    obtain ⟨_, frames, written, _⟩ :=
      rewrite_spec codec (fun _ _ u => u) (fun _ => rfl) rfl returned
    exact ⟨_, by rw [written, EventStream.decode_encode]⟩
  | passThrough =>
    obtain ⟨config, turns, d, outcome, returned, rfl⟩ := delivers
    obtain ⟨_, _, frames, written, _⟩ := passThrough_spec (fun _ => rfl) rfl returned
    exact ⟨_, by rw [written, EventStream.decode_encode]⟩

/-- An error as a client reads it. -/
def errorObject (message : String) : Json := .object [("error", .string message)]

/-- A reply that is what it says it is: a copy of the upstream's response, a JSON value, or a
stream of events. -/
inductive Shows (codec : Json.Codec) (asked : Except UpstreamError UpstreamResponse) :
    Reply → Prop where
  | mirrored {resp : UpstreamResponse} (responded : asked = .ok resp) (complete : resp.ending = .eof) :
      Shows codec asked ⟨resp.status, crossing resp.headers, .whole resp.reads.flatten⟩
  | json {reply : Reply} (value : Json)
      (typed : reply.headers.lookup "content-type" = some (Text.utf8 "application/json"))
      (delivers : ∀ sent, reply.body.Delivers codec sent ↔ sent = codec.toVec value)
      (failed : 400 ≤ reply.status → ∃ message, value = errorObject message) : Shows codec asked reply
  | events {reply : Reply}
      (typed : reply.headers.lookup "content-type" =
        some (Text.utf8 "text/event-stream; charset=utf-8"))
      (delivers : ∀ sent, reply.body.Delivers codec sent →
        ∃ frames, EventStream.decode sent = some frames) : Shows codec asked reply

/-- A reply to a forwarded body. -/
structure Honest (codec : Json.Codec) (asked : Except UpstreamError UpstreamResponse)
    (reply : Reply) : Prop where
  shows : Shows codec asked reply
  clean : ∀ name, Dropped name → reply.headers.lookup name = none
  success : reply.status < 400 → ∃ resp, asked = .ok resp ∧ resp.status < 400
  failure : ∀ resp, asked = .ok resp → 400 ≤ resp.status →
    reply.status = if resp.ending = .eof then resp.status else 502

/-- The reply to a body that is not JSON. -/
def refusal (codec : Json.Codec) : Reply :=
  ⟨400, [("content-type", Text.utf8 "application/json")],
    .whole (codec.toVec (errorObject "Failed to parse request body"))⟩

theorem lookup_crossing_dropped (headers : HeaderMap) {name : String} (dropped : Dropped name) :
    (crossing headers).lookup name = none := by
  rw [List.lookup_eq_none_iff]
  intro header member
  have kept := (List.mem_filter.mp member).2
  rw [bne_iff_ne]
  rintro rfl
  simp [dropped] at kept

theorem lookup_insertHeader (name value : String) (headers : HeaderMap) (k : String) :
    (insertHeader name value headers).lookup k =
      if k = name then some (Text.utf8 value) else headers.lookup k := by
  rw [insertHeader, List.lookup_append]
  by_cases same : k = name
  · subst same
    have none : (headers.filter (·.1 ≠ k)).lookup k = none := by
      rw [List.lookup_eq_none_iff]
      intro header member
      have kept := (List.mem_filter.mp member).2
      rw [bne_iff_ne]
      rintro rfl
      simp at kept
    rw [none, if_pos rfl, Option.none_or, List.lookup_cons_self]
  · rw [if_neg same]
    have last : List.lookup k [(name, Text.utf8 value)] = none := by
      rw [List.lookup_cons, beq_eq_false_iff_ne.mpr same]
      rfl
    rw [last, Option.or_none]
    induction headers with
    | nil => rfl
    | cons header rest ih =>
      obtain ⟨n, v⟩ := header
      by_cases dropped : n = name
      · rw [List.filter_cons_of_neg (by simp [dropped]), ih, List.lookup_cons,
          beq_eq_false_iff_ne.mpr (dropped ▸ same)]
      · rw [List.filter_cons_of_pos (by simp [dropped]), List.lookup_cons, List.lookup_cons, ih]

section
variable {env : Environment} {asked : Except UpstreamError UpstreamResponse}

theorem jsonReply_delivers (status : Nat) (value : Json) (sent : List UInt8) :
    (jsonReply env status value).body.Delivers env.codec sent ↔ sent = env.codec.toVec value := .rfl

theorem jsonReply_clean (status : Nat) (value : Json) :
    ∀ name, Dropped name → (jsonReply env status value).headers.lookup name = none := by
  rintro _ (rfl | rfl | rfl | rfl | rfl) <;> rfl

/-- An error that is the proxy's own. -/
theorem honest_error {status : Nat} (message : String) (failed : 400 ≤ status)
    (failure : ∀ resp, asked = .ok resp → 400 ≤ resp.status →
      status = if resp.ending = .eof then resp.status else 502) :
    Honest env.codec asked (jsonReply env status (errorBody message)) where
  shows := .json _ rfl (jsonReply_delivers _ _) fun _ => ⟨message, rfl⟩
  clean := jsonReply_clean _ _
  success below := absurd below (not_lt.mpr failed)
  failure := failure

/-- A value that the upstream's stream amounts to. -/
theorem honest_value {resp : UpstreamResponse} (value : Json) (responded : asked = .ok resp)
    (success : resp.status < 400) : Honest env.codec asked (jsonReply env OK value) where
  shows := .json _ rfl (jsonReply_delivers _ _) fun failed => absurd failed (show ¬ 400 ≤ OK by decide)
  clean := jsonReply_clean _ _
  success _ := ⟨resp, responded, success⟩
  failure resp' responded' failed := by
    rw [responded] at responded'
    cases responded'
    omega

theorem honest_mirror {resp : UpstreamResponse} (responded : asked = .ok resp) :
    Honest env.codec asked (mirrorResponse env resp) := by
  unfold mirrorResponse
  cases ending : resp.ending with
  | eof =>
    rw [sanitizedHeaders_crossing]
    refine ⟨.mirrored responded ending, fun name dropped => lookup_crossing_dropped _ dropped,
      fun success => ⟨resp, responded, success⟩, fun resp' responded' failed => ?_⟩
    rw [responded] at responded'
    cases responded'
    rw [if_pos ending]
  | failed message =>
    refine honest_error _ (by decide) fun resp' responded' failed => ?_
    rw [responded] at responded'
    cases responded'
    rw [if_neg (by rw [ending]; rintro ⟨⟩)]
    rfl

theorem honest_relay {resp : UpstreamResponse} (mode : RelayMode) (responded : asked = .ok resp)
    (success : resp.status < 400) : Honest env.codec asked (relayResponse resp mode) where
  shows := by
    refine .events ?_ fun sent delivers => relayed_decodes delivers
    rw [relayResponse, lookup_insertHeader, if_neg (by decide), lookup_insertHeader, if_pos rfl]
  clean name dropped := by
    have others : name ≠ "cache-control" ∧ name ≠ "content-type" := by
      rcases dropped with rfl | rfl | rfl | rfl | rfl <;> decide
    obtain ⟨cache, content⟩ := others
    rw [relayResponse, lookup_insertHeader, if_neg cache, lookup_insertHeader, if_neg content,
      sanitizedHeaders_crossing, lookup_crossing_dropped _ dropped]
  success _ := ⟨resp, responded, success⟩
  failure resp' responded' failed := by
    rw [responded] at responded'
    cases responded'
    omega

end

/-- The model that the chunks of a chat request name. -/
def chatModel (request : Json) : String :=
  (((buildCodexRequestBody env request).get? "model").bind Json.asString).getD GPT5

section
variable {env send} {body : List UInt8} {request : Json} {resp : UpstreamResponse}

theorem chat_refused (now : Int64) (unread : env.codec.fromSlice body = none) :
    chatCompletions env send now body =
      .error (.api (.badRequest "Failed to parse request body")) := by
  simp only [chatCompletions, unread, bind, Except.bind]

theorem chat_error (now : Int64) (read : env.codec.fromSlice body = some request)
    (asked : send (env.codec.toVec (buildCodexRequestBody env request)) = .error error) :
    chatCompletions env send now body = .error (.upstream error) := by
  simp only [chatCompletions, read, asked, Except.mapError, bind, Except.bind]

theorem chat_ok (now : Int64) (read : env.codec.fromSlice body = some request)
    (asked : send (env.codec.toVec (buildCodexRequestBody env request)) = .ok resp) :
    chatCompletions env send now body =
      if resp.status ≠ OK then .ok (mirrorResponse env resp)
      else if wantsStream request then .ok (relayResponse resp (.rewrite (chatModel env request)))
      else match bufferChatCompletion env.codec resp.reads resp.ending (chatModel env request) now with
        | .ok completion => .ok (jsonReply env OK completion)
        | .error _ => .error (.api (.internal "Failed to process streaming response")) := by
  simp only [chatCompletions, read, asked, Except.mapError, bind, Except.bind, pure, Except.pure,
    chatModel]
  by_cases status : resp.status = OK <;> cases wantsStream request <;> simp [status]

theorem responses_refused (unread : env.codec.fromSlice body = none) :
    responses env send body = .error (.api (.badRequest "Failed to parse request body")) := by
  simp only [responses, unread, bind, Except.bind]

theorem responses_error (read : env.codec.fromSlice body = some request)
    (asked : send (env.codec.toVec (responsesTarget env request)) = .error error) :
    responses env send body = .error (.upstream error) := by
  simp only [responses, read, asked, Except.mapError, bind, Except.bind]

theorem responses_ok (read : env.codec.fromSlice body = some request)
    (asked : send (env.codec.toVec (responsesTarget env request)) = .ok resp) :
    responses env send body =
      if 400 ≤ resp.status ∨ isEventStream resp = false then .ok (mirrorResponse env resp)
      else if wantsStream request then .ok (relayResponse resp .passThrough)
      else match bufferResponsesResponse env.codec resp.reads resp.ending with
        | .ok response => .ok (jsonReply env OK response)
        | .error _ => .error (.api (.internal "Failed to process streaming response")) := by
  simp only [responses, read, asked, Except.mapError, bind, Except.bind, pure, Except.pure]
  by_cases status : 400 ≤ resp.status <;> cases isEventStream resp <;>
    cases wantsStream request <;> simp [status]

end

theorem chat_honest (now : Int64) {body : List UInt8} {request : Json}
    (read : env.codec.fromSlice body = some request) :
    Honest env.codec (send (env.codec.toVec (buildCodexRequestBody env request)))
      (answer env (chatCompletions env send now body)) := by
  cases asked : send (env.codec.toVec (buildCodexRequestBody env request)) with
  | error error =>
    rw [chat_error now read asked]
    exact honest_error _ (by decide) fun _ responded => nomatch responded
  | ok resp =>
    rw [chat_ok now read asked]
    by_cases status : resp.status = OK
    · have success : resp.status < 400 := by
        rw [status]
        decide
      rw [if_neg (not_not.mpr status)]
      split
      · exact honest_relay _ rfl success
      · split
        · exact honest_value _ rfl success
        · refine honest_error _ (by decide) fun resp' responded failed => ?_
          cases responded
          omega
    · rw [if_pos status]
      exact honest_mirror rfl

theorem responses_honest {body : List UInt8} {request : Json}
    (read : env.codec.fromSlice body = some request) :
    Honest env.codec (send (env.codec.toVec (responsesTarget env request)))
      (answer env (responses env send body)) := by
  cases asked : send (env.codec.toVec (responsesTarget env request)) with
  | error error =>
    rw [responses_error read asked]
    exact honest_error _ (by decide) fun _ responded => nomatch responded
  | ok resp =>
    rw [responses_ok read asked]
    split
    · exact honest_mirror rfl
    · rename_i other
      have success : resp.status < 400 := by
        rw [not_or] at other
        omega
      split
      · exact honest_relay _ rfl success
      · split
        · exact honest_value _ rfl success
        · refine honest_error _ (by decide) fun resp' responded failed => ?_
          cases responded
          omega

/-- Every request body to either endpoint and every answer of the upstream: a body that is
not JSON is refused and not forwarded; every other reply shows what it is, carries none of
the headers that are dropped, is a success only if the upstream's response was one, and has
the status of a failed response unless that could not be read. -/
theorem replies_honest (now : Int64) (body : List UInt8) :
    (env.codec.fromSlice body = none → ∀ send',
      answer env (chatCompletions env send' now body) = refusal env.codec ∧
      answer env (responses env send' body) = refusal env.codec) ∧
    ∀ request, env.codec.fromSlice body = some request →
      Honest env.codec (send (env.codec.toVec (buildCodexRequestBody env request)))
        (answer env (chatCompletions env send now body)) ∧
      Honest env.codec (send (env.codec.toVec (responsesTarget env request)))
        (answer env (responses env send body)) := by
  refine ⟨fun unread send' => ?_, fun request read =>
    ⟨chat_honest env send now read, responses_honest env send read⟩⟩
  rw [chat_refused now unread, responses_refused unread]
  exact ⟨rfl, rfl⟩

end CodexProxy.Server
