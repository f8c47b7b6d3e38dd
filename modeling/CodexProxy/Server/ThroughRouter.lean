import CodexProxy.Server.Deployment
import CodexProxy.Server.Handlers

/-! A client in front of a router. It gets what a pod replied to the client's own body, as if
it had been let in at the pod; the router takes off headers and completes a refusal that
broke off. -/
namespace CodexProxy.Server
open Request Router Transition

/-- A backend process as one request finds it, with what its retrying call makes of a body. -/
structure Pod where
  env : Environment
  adminApiKey : Option String
  send : SendWithRetry
  now : Int64

/-- A target without its query. -/
def pathOf (target : String) : String := String.ofList (target.toList.takeWhile (· ≠ '?'))

namespace Pod
variable (pod : Pod)

/-- The data plane behind the gate. -/
def dataPlane (path : String) (body : List UInt8) : Option (Except HandlerError Reply) :=
  if path = "/v1/chat/completions" then some (chatCompletions pod.env pod.send pod.now body)
  else if path = "/v1/responses" then some (responses pod.env pod.send body)
  else none

/-- What a data-plane route replies to a request. -/
def reply (target : String) (request : PodRequest) : Option Reply :=
  (pod.dataPlane (pathOf target) request.body).map fun result =>
    match adminAuth pod.adminApiKey request.headers () with
    | .ok () => answer pod.env result
    | .error error => answer pod.env (.error (.api error))

end Pod

/-- Headers that the connection sets. -/
def CONNECTION_HEADERS : List String :=
  ["date", "content-length", "transfer-encoding", "connection"]

/-- A reply as it is read at the other end of the connection. -/
structure Reply.Arrives (codec : Json.Codec) (reply : Reply) (resp : PodResponse) : Prop where
  status : resp.status = reply.status
  headers : ∀ name ∉ CONNECTION_HEADERS, resp.headers.lookup name = reply.headers.lookup name
  body : resp.body.broken = false → reply.body.Delivers codec resp.body.octets

/-- What a pod answers to an attempt is its reply. -/
def Pod.Answers (pod : Pod) (attempt : Attempt) : Prop :=
  ∀ resp, attempt.result = .ok resp → ∃ target reply,
    attempt.request.url = attempt.account.url ++ target ∧
    pod.reply target attempt.request = some reply ∧ reply.Arrives pod.env.codec resp

/-- A reply as it leaves the router. Only a 400 is read to its end before, and one that breaks
off is empty. -/
structure Reply.Reaches (codec : Json.Codec) (reply : Reply) (response : Response) : Prop where
  status : response.status = reply.status
  headers : ∀ name ∉ CONNECTION_HEADERS, ¬ Dropped name →
    response.headers.lookup name = reply.headers.lookup name
  clean : ∀ name, Dropped name → response.headers.lookup name = none
  body : response.body.broken = false → reply.body.Delivers codec response.body.octets ∨
    reply.status = BAD_REQUEST ∧ response.body.octets = []

theorem lookup_crossing (headers : HeaderMap) {name : String} (kept : ¬ Dropped name) :
    (crossing headers).lookup name = headers.lookup name := by
  induction headers with
  | nil => rfl
  | cons header headers ih =>
    obtain ⟨n, value⟩ := header
    rw [crossing] at ih ⊢
    by_cases dropped : Dropped n
    · have other : name ≠ n := fun same => kept (same ▸ dropped)
      rw [List.filter_cons_of_neg (by simp [dropped]), ih, List.lookup_cons,
        beq_eq_false_iff_ne.mpr other]
    · rw [List.filter_cons_of_pos (by simp [dropped]), List.lookup_cons, List.lookup_cons, ih]

/-- What arrives at the router reaches the client. -/
theorem Reply.Arrives.reaches {codec : Json.Codec} {reply : Reply} {resp : PodResponse}
    (arrives : reply.Arrives codec resp) : reply.Reaches codec resp.relayed where
  status := arrives.status
  headers name own kept :=
    (lookup_crossing resp.headers kept).trans (arrives.headers name own)
  clean name dropped := lookup_crossing_dropped resp.headers dropped
  body whole := by
    rw [PodResponse.relayed] at whole ⊢
    dsimp only at whole ⊢
    split at whole
    · rename_i other
      rw [if_pos other]
      exact .inl (arrives.body whole)
    · rename_i bad
      rw [if_neg bad]
      cases broken : resp.body.broken with
      | true => exact .inr ⟨arrives.status ▸ not_not.mp bad, rfl⟩
      | false => exact .inl (arrives.body broken)

/-- The request of an attempt at a pod that has the router's key gets past the gate. -/
theorem reply_toPod {pod : Pod} {route : Route} {account : Account} {target : String}
    (configured : pod.adminApiKey = some route.bearer) (nonempty : route.bearer ≠ "")
    (presentable : Presentable route.bearer) :
    pod.reply target (route.toPod account) =
      (pod.dataPlane (pathOf target) route.body).map (answer pod.env) := by
  have opens : adminAuth pod.adminApiKey (route.toPod account).headers () = .ok () :=
    (pod_opens ..).mpr ⟨configured, nonempty, presentable⟩
  rw [Pod.reply, opens]
  rfl

/-- Every run of a router whose pods have its key, and answer what this program replies, to each
request as it finds them: what a client is answered is what one pod of the pool replies to the
client's own target and body past its gate, with the dropped headers off, in full unless it
breaks off; only a 400 that breaks off is answered with nothing for it. The router answers with
an error of its own only when no pod was reached. -/
theorem router_transparent (env : Environment) {w₀ w : World} (starts : w₀.Starts)
    (reached : Run (step env) (fun _ _ => True) w₀ w) (pods : Nat → Account → Pod) {key : String}
    (configured : w₀.state.adminApiKey = some key) (nonempty : key ≠ "")
    (presentable : Presentable key)
    (keys : ∀ t, ∀ account ∈ w₀.state.pods, (pods t account).adminApiKey = some key)
    (answers : ∀ t, ∀ attempt ∈ w.attempts t, (pods t attempt.account).Answers attempt) :
    ∀ t route result, w.handlers t = .admitted route (.done result) →
      ∃ inbound, accept env w₀.state inbound = .ok route ∧
      match result with
      | .error _ => ∀ attempt ∈ w.attempts t, ∃ message, attempt.result = .error message
      | .ok response => ∃ account ∈ w₀.state.pods, ∃ replied,
          (pods t account).dataPlane (pathOf (inbound.pathAndQuery.getD inbound.path))
            inbound.body = some replied ∧
          (answer (pods t account).env replied).Reaches (pods t account).env.codec response := by
  intro t route result here
  have routed := routed_run starts reached t
  obtain ⟨inbound, guarded⟩ := routed.accepted route _ here
  obtain ⟨bearer, target, _, body⟩ := accept_ok guarded
  obtain rfl : key = route.bearer := Option.some.inj (configured.symm.trans bearer)
  have reported := ((accounted_run starts reached).1 t).reported
  rw [here] at reported
  refine ⟨inbound, guarded, ?_⟩
  cases result with
  | error error => exact reported.2
  | ok response =>
    obtain ⟨attempt, made, resp, answered, rfl⟩ := reported.2
    obtain ⟨route', stage, same, forwards⟩ := routed.sent attempt made
    rw [here] at same
    cases same
    obtain ⟨target', reply, url, replied, arrives⟩ := answers t attempt made resp answered
    have pod := keys t attempt.account forwards.account
    rw [forwards.request] at url replied
    rw [reply_toPod pod nonempty presentable, body] at replied
    obtain ⟨result, plane, rfl⟩ := Option.map_eq_some_iff.mp replied
    have asked : target' = route.target := by
      have urls : attempt.account.url ++ target' = attempt.account.url ++ route.target := url.symm
      rwa [String.append_right_inj] at urls
    rw [asked, target] at plane
    exact ⟨attempt.account, forwards.account, result, plane, arrives.reaches⟩

namespace Sample

/-- A pod whose upstream answers with nothing. -/
def pod (status : Nat) : Pod :=
  ⟨Router.Sample.env, some "secret", fun _ => .ok ⟨status, [], [], .eof⟩, 0⟩

/-- The upstream answers the second of two equal requests otherwise. -/
def pods (t : Nat) (_ : Account) : Pod := pod (if t = 1 then 404 else 200)

/-- The first account answers both. -/
def served : List Action :=
  [Router.Sample.arrive 0, Router.Sample.arrive 1, .read 0 true, .choose 0 fun _ => 0,
    .respond 0 0 (Router.Sample.answer 200), .put 0 true, .read 1 true, .choose 1 fun _ => 0,
    .respond 1 0 (Router.Sample.answer 404), .put 1 true]

theorem served_run : Run (step Router.Sample.env) (fun _ _ => True) Router.Sample.world
    (Router.Sample.after served) :=
  have taken : served.foldlM (step Router.Sample.env) Router.Sample.world =
    some (Router.Sample.after served) := rfl
  .replay (fun _ _ _ => trivial) taken

theorem secret_presentable : Presentable "secret" := by simp [Presentable, HeaderValue.Plain]

def attempt (status : Nat) : Attempt :=
  Router.Sample.route.attempt ⟨"a", "http://a"⟩ (Router.Sample.answer status)

theorem pod_answers (status : Nat) : (pod status).Answers (attempt status) := by
  rintro _ ⟨⟩
  refine ⟨"/v1/responses", ⟨status, [], .whole []⟩, rfl, ?_, rfl, fun _ _ => rfl, fun _ => rfl⟩
  have gated : (pod status).reply "/v1/responses" (Router.Sample.route.toPod ⟨"a", "http://a"⟩) = _ :=
    reply_toPod rfl (by decide) secret_presentable
  have path : pathOf "/v1/responses" = "/v1/responses" := by decide
  have read : (pod status).env.codec.fromSlice Router.Sample.route.body = some (.object []) := rfl
  have asked (body : List UInt8) : (pod status).send body = .ok ⟨status, [], [], .eof⟩ := rfl
  have plain : isEventStream ⟨status, [], [], .eof⟩ = false := rfl
  refine gated.trans ?_
  rw [Pod.dataPlane, path, if_neg (by decide), if_pos rfl, Option.map_some,
    responses_ok read (asked _), if_pos (.inr plain)]
  rfl

theorem served_answers : ∀ t, ∀ made ∈ (Router.Sample.after served).attempts t,
    (pods t made.account).Answers made := by
  have attempts : (Router.Sample.after served).attempts =
    Function.update (Function.update (fun _ => []) 0 [attempt 200]) 1 [attempt 404] := rfl
  rw [attempts]
  intro t made member
  by_cases second : t = 1
  · subst second
    rw [List.mem_singleton.mp member]
    exact pod_answers 404
  · rw [Function.update_of_ne second] at member
    by_cases first : t = 0
    · subst first
      rw [List.mem_singleton.mp member]
      exact pod_answers 200
    · rw [Function.update_of_ne first] at member
      cases member

/-- A client of the router gets the empty response that a pod got. -/
def Serves (status : Nat) : Prop := ∃ account ∈ Router.Sample.world.state.pods, ∃ replied,
  (pod status).dataPlane "/v1/responses" Router.Sample.route.body = some replied ∧
  (answer (pod status).env replied).Reaches (pod status).env.codec ⟨status, [], ⟨[], false⟩⟩

end Sample

/-- Two clients send the same at the same time, and each gets what the pod replied to it. -/
theorem router_transparent_served : Sample.Serves 200 ∧ Sample.Serves 404 := by
  have path : pathOf Router.Sample.route.target = "/v1/responses" := by decide
  have first : (Router.Sample.after Sample.served).handlers 0 =
    .admitted Router.Sample.route (.done (.ok ⟨200, [], ⟨[], false⟩⟩)) := rfl
  have second : (Router.Sample.after Sample.served).handlers 1 =
    .admitted Router.Sample.route (.done (.ok ⟨404, [], ⟨[], false⟩⟩)) := rfl
  have served := router_transparent Router.Sample.env Router.Sample.starts Sample.served_run
    Sample.pods rfl (by decide) Sample.secret_presentable (fun _ _ _ => rfl) Sample.served_answers
  obtain ⟨inbound, guarded, account, member, replied, plane, reaches⟩ := served 0 _ _ first
  obtain ⟨inbound', guarded', account', member', replied', plane', reaches'⟩ := served 1 _ _ second
  obtain ⟨_, target, _, body⟩ := accept_ok guarded
  obtain ⟨_, target', _, body'⟩ := accept_ok guarded'
  rw [← target, ← body, path] at plane
  rw [← target', ← body', path] at plane'
  exact ⟨⟨account, member, replied, plane, reaches⟩, account', member', replied', plane', reaches'⟩

end CodexProxy.Server
