import Mathlib.Data.List.Infix
import CodexProxy.Router.Conversation
import CodexProxy.Router.Pool

/-! One attempt at one account: the request to its pod, and what is made of the pod's
answer. -/
namespace CodexProxy.Router

/-- A body as far as it can be read. -/
structure Body where
  octets : List UInt8
  /-- Reading fails after the octets. -/
  broken : Bool

/-- A pod's response. -/
structure PodResponse where
  status : Nat
  headers : HeaderMap
  body : Body

structure Response where
  status : Nat
  headers : HeaderMap
  body : Body

structure PodRequest where
  url : String
  headers : HeaderMap
  body : List UInt8

def FORWARDED_HEADERS : List String := ["traceparent", "tracestate"]

def proxyToPod (baseUrl pathAndQuery bearer : String) (inbound : HeaderMap) (body : List UInt8) :
    PodRequest where
  url := baseUrl ++ pathAndQuery
  headers := [("authorization", Text.utf8 ("Bearer " ++ bearer)),
      ("content-type", Text.utf8 "application/json")] ++
    FORWARDED_HEADERS.filterMap fun name => (inbound.lookup name).map (name, ·)
  body := body

/-- What a pod may be sent by way of headers. -/
inductive Forwarded (key : String) (client : HeaderMap) : String × List UInt8 → Prop where
  | authorization : Forwarded key client ("authorization", Text.utf8 ("Bearer " ++ key))
  | contentType : Forwarded key client ("content-type", Text.utf8 "application/json")
  | trace (listed : name = "traceparent" ∨ name = "tracestate")
      (sent : client.lookup name = some value) : Forwarded key client (name, value)

theorem proxyToPod_headers (baseUrl pathAndQuery bearer : String) (client : HeaderMap)
    (body : List UInt8) (header : String × List UInt8) :
    header ∈ (proxyToPod baseUrl pathAndQuery bearer client body).headers ↔
      Forwarded bearer client header := by
  have traced : header ∈ FORWARDED_HEADERS.filterMap (fun name =>
      (client.lookup name).map (name, ·)) ↔ ∃ name value,
      (name = "traceparent" ∨ name = "tracestate") ∧ client.lookup name = some value ∧
        (name, value) = header := by
    simp only [FORWARDED_HEADERS, List.mem_filterMap, List.mem_cons, List.not_mem_nil, or_false,
      Option.map_eq_some_iff, exists_and_left]
  rw [proxyToPod, List.mem_append, traced]
  constructor
  · rintro (own | ⟨name, value, listed, sent, rfl⟩)
    · rcases List.mem_cons.mp own with rfl | rest
      · exact .authorization
      · rw [List.mem_singleton.mp rest]
        exact .contentType
    · exact .trace listed sent
  · rintro (_ | _ | ⟨listed, sent⟩)
    · exact .inl List.mem_cons_self
    · exact .inl (List.mem_cons_of_mem _ List.mem_cons_self)
    · exact .inr ⟨_, _, listed, sent, rfl⟩

/-- Headers that do not cross the proxy. -/
def DROPPED_HEADERS : List String :=
  ["content-length", "transfer-encoding", "connection", "set-cookie", "content-encoding"]

def sanitizedHeaders (upstream : HeaderMap) : HeaderMap :=
  upstream.filter fun (name, _) => name ∉ DROPPED_HEADERS

def proxyResponse (resp : PodResponse) : Response :=
  ⟨resp.status, sanitizedHeaders resp.headers, resp.body⟩

def TOO_MANY_REQUESTS : Nat := 429
def BAD_REQUEST : Nat := 400

def isRetryable (status : Nat) : Bool :=
  status = TOO_MANY_REQUESTS || (500 ≤ status && status < 600)

def TIER_GATE_MARKER : String :=
  "model is not supported when using Codex with a ChatGPT account"

/-- A 400 whose body has been read. -/
structure Buffered400 where
  headers : HeaderMap
  body : List UInt8
  tierGate : Bool

def Buffered400.intoResponse (buffered : Buffered400) : Response :=
  ⟨BAD_REQUEST, buffered.headers, ⟨buffered.body, false⟩⟩

/-- A body that cannot be read counts as empty. The marker is ASCII, which lossy decoding
keeps, so it is looked for among the octets. -/
def classify400 (resp : PodResponse) : Buffered400 :=
  let body := if resp.body.broken then [] else resp.body.octets
  ⟨sanitizedHeaders resp.headers, body, decide (Text.utf8 TIER_GATE_MARKER <:+: body)⟩

inductive FallbackBody where
  | response (resp : PodResponse)
  | buffered (body : Buffered400)

def FallbackBody.intoResponse : FallbackBody → Response
  | .response resp => proxyResponse resp
  | .buffered body => body.intoResponse

/-- An attempt that did not connect has only a message. -/
abbrev SendError := String
abbrev Fallback := Except SendError FallbackBody

inductive Primary where
  | terminal (response : Response)
  | retry (fallback : Fallback) (tierGate : Bool)

def classify : Except SendError PodResponse → Primary
  | .error err => .retry (.error err) false
  | .ok resp =>
    if resp.status = BAD_REQUEST then
      let buffered := classify400 resp
      if buffered.tierGate then .retry (.ok (.buffered buffered)) true
      else .terminal buffered.intoResponse
    else if isRetryable resp.status then .retry (.ok (.response resp)) false
    else .terminal (proxyResponse resp)

/-- The pod's answer names a model that its account has not. -/
def PodResponse.TierGated (resp : PodResponse) : Prop :=
  resp.status = BAD_REQUEST ∧ resp.body.broken = false ∧
  Text.utf8 TIER_GATE_MARKER <:+: resp.body.octets

/-- What happened to one attempt. -/
structure Attempt where
  account : Account
  model : String
  request : PodRequest
  result : Except SendError PodResponse

namespace Attempt
variable (attempt : Attempt)

/-- 429, 5xx, or no connection. -/
def Unhealthy : Prop :=
  match attempt.result with
  | .error _ => True
  | .ok resp => resp.status = 429 ∨ 500 ≤ resp.status ∧ resp.status < 600

def Gated : Prop :=
  match attempt.result with
  | .error _ => False
  | .ok resp => resp.TierGated

/-- The answer is final. -/
def Terminal : Prop := ¬ attempt.Unhealthy ∧ ¬ attempt.Gated

end Attempt

/-- A header of one connection, of one origin, or of the octets as they were sent. -/
abbrev Dropped (name : String) : Prop := name = "content-length" ∨ name = "transfer-encoding" ∨
  name = "connection" ∨ name = "set-cookie" ∨ name = "content-encoding"

/-- The headers that cross a proxy. -/
def crossing (headers : HeaderMap) : HeaderMap := headers.filter fun header => ¬ Dropped header.1

/-- A response as it leaves the router: its status, the headers that cross a proxy, and its
body; a 400 has been read before, and counts as empty where it broke off. -/
def PodResponse.relayed (resp : PodResponse) : Response where
  status := resp.status
  headers := crossing resp.headers
  body :=
    if resp.status ≠ 400 then resp.body
    else if resp.body.broken then ⟨[], false⟩
    else ⟨resp.body.octets, false⟩

/-- What is kept of an attempt answers with its response, if it had one. -/
def Attempt.Leaves (attempt : Attempt) : Fallback → Prop
  | .error message => attempt.result = .error message
  | .ok body => ∃ resp, attempt.result = .ok resp ∧ body.intoResponse = resp.relayed

theorem classify400_tierGate (resp : PodResponse) (bad : resp.status = BAD_REQUEST) :
    (classify400 resp).tierGate = true ↔ resp.TierGated := by
  have marked : ¬ Text.utf8 TIER_GATE_MARKER <:+: [] := by
    rw [List.infix_nil]
    decide
  cases broken : resp.body.broken <;> simp [classify400, PodResponse.TierGated, bad, broken, marked]

theorem dropped_iff {name : String} : name ∈ DROPPED_HEADERS ↔ Dropped name := by
  simp only [DROPPED_HEADERS, List.mem_cons, List.not_mem_nil, or_false]

theorem sanitizedHeaders_crossing (headers : HeaderMap) :
    sanitizedHeaders headers = crossing headers := by
  simp only [sanitizedHeaders, crossing, dropped_iff]

theorem classify400_relayed (resp : PodResponse) (bad : resp.status = BAD_REQUEST) :
    (classify400 resp).intoResponse = resp.relayed := by
  have status : resp.status = 400 := bad
  rw [PodResponse.relayed, status, if_neg (not_not.mpr rfl)]
  cases broken : resp.body.broken <;>
    simp [Buffered400.intoResponse, classify400, sanitizedHeaders_crossing, BAD_REQUEST, broken]

theorem isRetryable_iff (status : Nat) :
    isRetryable status = true ↔ status = 429 ∨ 500 ≤ status ∧ status < 600 := by
  simp only [isRetryable, Bool.or_eq_true, Bool.and_eq_true, decide_eq_true_eq]
  rfl

theorem relayed_other (resp : PodResponse) (other : resp.status ≠ BAD_REQUEST) :
    resp.relayed = proxyResponse resp := by
  have status : resp.status ≠ 400 := other
  rw [PodResponse.relayed, if_pos status, proxyResponse, sanitizedHeaders_crossing]

namespace Attempt

theorem terminal_of_classify (attempt : Attempt)
    (final : classify attempt.result = .terminal response) :
    attempt.Terminal ∧ ∃ resp, attempt.result = .ok resp ∧ response = resp.relayed := by
  cases result : attempt.result with
  | error message =>
    rw [result] at final
    cases final
  | ok resp =>
    rw [result, classify] at final
    simp only [Terminal, Unhealthy, Gated, result]
    split at final
    · rename_i bad
      dsimp only at final
      split at final
      · cases final
      · rename_i ungated
        cases final
        rw [classify400_tierGate resp bad] at ungated
        refine ⟨⟨?_, ungated⟩, resp, rfl, classify400_relayed resp bad⟩
        rw [bad]
        decide
    · rename_i other
      split at final
      · cases final
      · rename_i final'
        cases final
        rw [isRetryable_iff] at final'
        exact ⟨⟨final', fun gated => other gated.1⟩, resp, rfl, (relayed_other resp other).symm⟩

/-- An attempt that is not final failed at the scope that is cooled for it. -/
theorem failed_of_classify (attempt : Attempt)
    (failed : classify attempt.result = .retry fallback tierGate) :
    (if tierGate then attempt.Gated else attempt.Unhealthy) ∧ attempt.Leaves fallback := by
  cases result : attempt.result with
  | error message =>
    rw [result] at failed
    cases failed
    simp [Unhealthy, Leaves, result]
  | ok resp =>
    rw [result, classify] at failed
    simp only [Unhealthy, Gated, result]
    split at failed
    · rename_i bad
      dsimp only at failed
      split at failed
      · rename_i gated
        cases failed
        exact ⟨(classify400_tierGate resp bad).mp gated, resp, result,
          classify400_relayed resp bad⟩
      · cases failed
    · rename_i other
      split at failed
      · rename_i unhealthy
        cases failed
        exact ⟨(isRetryable_iff _).mp unhealthy, resp, result, (relayed_other resp other).symm⟩
      · cases failed

theorem not_terminal_of_classify (attempt : Attempt)
    (failed : classify attempt.result = .retry fallback tierGate) :
    ¬ attempt.Terminal := by
  obtain ⟨scope, _⟩ := attempt.failed_of_classify failed
  rintro ⟨healthy, ungated⟩
  cases tierGate with
  | false => exact healthy scope
  | true => exact ungated scope

end Attempt
end CodexProxy.Router
