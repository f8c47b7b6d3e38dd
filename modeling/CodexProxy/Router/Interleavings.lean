import CodexProxy.Router.Pins
import CodexProxy.Router.Progress

/-! Any number of requests at once. What a client sent, the pool and the pins are never mixed
up: an attempt is one request's, at an account of the pool; a pin is what a final answer
left; and a conversation that is not disturbed stays where it is. -/
namespace CodexProxy.Router
open Request Transition

/-- The accounts that a router was started with. -/
def AppState.pods (state : AppState) : List Account := state.setting.1.getD []

/-- An attempt sends what the client sent to one of the pods: to the pod's own base url, under
the router's key, and of the client's headers those of the trace. -/
structure Attempt.Forwards (attempt : Attempt) (pods : List Account) (route : Route) : Prop where
  account : attempt.account ∈ pods
  model : attempt.model = route.model
  request : attempt.request = route.toPod attempt.account
  url : attempt.request.url = attempt.account.url ++ route.target
  body : attempt.request.body = route.body
  headers : ∀ header,
    header ∈ attempt.request.headers ↔ Forwarded route.bearer route.headers header

/-- The request was let in as its client sent it, by a router with that key. -/
structure Route.Keeps (route : Route) (inbound : Inbound) (adminApiKey : Option String) :
    Prop where
  key : adminApiKey = some route.bearer
  target : route.target = inbound.pathAndQuery.getD inbound.path
  headers : route.headers = inbound.headers
  body : route.body = inbound.body

/-- The account that a request is being sent to. -/
def Stage.target : Stage → Option Account
  | .sending account _ => some account
  | .resending _ _ alt => some alt
  | _ => none

/-- A request was let in as it came; where it is sent and was sent is in the pool. -/
structure Handler.Routed (env : Environment) (start : AppState) (attempts : List Attempt)
    (handler : Handler) : Prop where
  accepted : ∀ route stage, handler = .admitted route stage →
    ∃ inbound, accept env start inbound = .ok route
  target : ∀ route stage account, handler = .admitted route stage → stage.target = some account →
    account ∈ start.pods
  sent : ∀ attempt ∈ attempts, ∃ route stage, handler = .admitted route stage ∧
    attempt.Forwards start.pods route

/-- The conversation's pin is what the final answer to a request of it left. -/
def World.Leaves (w : World) (key : String) (pin : Pin) : Prop :=
  ∃ t route stage, ∃ attempt ∈ w.attempts t, w.handlers t = .admitted route stage ∧
    route.key = some key ∧ attempt.Terminal ∧ pin = ⟨attempt.account.slug, route.model⟩

section
variable {env : Environment} {start : AppState} {w w' : World} {a : Action}

theorem accept_ok {state : AppState} {inbound : Inbound} {route : Route}
    (guarded : accept env state inbound = .ok route) : route.Keeps inbound state.adminApiKey := by
  rw [accept] at guarded
  split at guarded
  · cases guarded
  · cases guarded
  · cases guarded
  · cases guarded
    exact ⟨by assumption, rfl, rfl, rfl⟩

/-- What is worked out for a request depends on the accounts and the key. -/
theorem accept_setting {state : AppState} (same : state.setting = start.setting)
    (inbound : Inbound) : accept env state inbound = accept env start inbound := by
  obtain ⟨accounts, key⟩ := Prod.mk.inj same
  have configured : state.accounts.isSome = start.accounts.isSome := by
    have mapped := congrArg Option.isSome accounts
    rwa [Option.isSome_map, Option.isSome_map] at mapped
  rw [accept, accept, key]
  cases here : state.accounts with
  | none =>
    cases there : start.accounts with
    | none => rfl
    | some => simp [here, there] at configured
  | some =>
    cases there : start.accounts with
    | none => simp [here, there] at configured
    | some =>
      cases start.adminApiKey with
      | none => rfl
      | some => cases env.codec.fromSlice inbound.body <;> rfl

theorem AccountPool.pick_mem_accounts {pool pool' : AccountPool} {clock : Nat → Instant}
    (picked : pool.pick clock exclude model = (some account, pool')) :
    account ∈ pool.accounts := by
  obtain ⟨account', member, found⟩ := pool.pick_mem clock exclude model
  rw [picked] at found
  cases found
  exact member

theorem AccountPool.primary_mem {pool pool' : AccountPool} {clock : Nat → Instant}
    (chosen : pool.primary stored clock slug model = (some (account, source), pool')) :
    account ∈ pool.accounts := by
  simp only [primary] at chosen
  split at chosen
  · rename_i found
    cases chosen
    obtain ⟨_, _, live⟩ := Option.bind_eq_some_iff.mp found
    rw [pinned] at live
    obtain ⟨_, live⟩ := Option.ite_none_left_eq_some.mp live
    exact List.mem_of_find?_eq_some live
  · rw [Prod.mk.injEq, Option.map_eq_some_iff] at chosen
    obtain ⟨⟨_, picked, same⟩, _⟩ := chosen
    cases same
    exact pick_mem_accounts (Prod.ext picked rfl)

theorem AppState.pods_eq {state : AppState} (same : state.setting = start.setting)
    (accounts : state.accounts = some pool) : start.pods = pool.accounts := by
  rw [pods, ← same, setting, accounts]
  rfl

/-- A request that goes on as it was let in, with the same attempts. -/
theorem Handler.Routed.goes {attempts : List Attempt} {stage : Stage}
    (routed : (Handler.admitted route stage).Routed env start attempts)
    (target : ∀ account, stage'.target = some account → account ∈ start.pods) :
    (Handler.admitted route stage').Routed env start attempts where
  accepted := by
    rintro _ _ ⟨⟩
    exact routed.accepted route stage rfl
  target := by
    rintro _ _ account ⟨⟩
    exact target account
  sent := by
    intro attempt made
    obtain ⟨_, _, ⟨⟩, forwards⟩ := routed.sent attempt made
    exact ⟨route, stage', rfl, forwards⟩

/-- The attempt that a request was at is made. -/
theorem Handler.Routed.made {attempts : List Attempt} {stage : Stage}
    (routed : (Handler.admitted route stage).Routed env start attempts)
    (at' : stage.target = some account) (result : Except SendError PodResponse) :
    (Handler.admitted route stage).Routed env start (route.attempt account result :: attempts) where
  accepted := routed.accepted
  target := routed.target
  sent := by
    intro attempt made
    rcases List.mem_cons.mp made with rfl | earlier
    · exact ⟨route, stage, rfl, routed.target route stage account rfl at', rfl, rfl, rfl, rfl,
        fun _ => proxyToPod_headers ..⟩
    · exact routed.sent attempt earlier

/-- Where a step leaves its own request. -/
theorem routed_go (w : World) (t : Nat) (route : Route) (stage : Stage) :
    ((w.go t route stage).handlers t).Routed env start ((w.go t route stage).attempts t) ↔
      (Handler.admitted route stage).Routed env start (w.attempts t) := by
  rw [World.go_here]
  rfl

theorem routed_step (settled : w.state.setting = start.setting)
    (routed : ∀ t, (w.handlers t).Routed env start (w.attempts t))
    (taken : step env w a = some w') (t : Nat) :
    (w'.handlers t).Routed env start (w'.attempts t) := by
  have rule := step_spec env taken
  by_cases own : a.request = some t
  · have known := routed t
    cases rule with
    | expire => cases own
    | refuse here =>
      cases own
      rw [World.become_here]
      refine ⟨(by rintro _ _ ⟨⟩), (by rintro _ _ _ ⟨⟩), fun attempt made => ?_⟩
      obtain ⟨_, _, absent, _⟩ := known.sent attempt made
      rw [here] at absent
      cases absent
    | accept here guarded =>
      cases own
      rw [routed_go]
      refine ⟨?_, ?_, fun attempt made => ?_⟩
      · rintro _ _ ⟨⟩
        exact ⟨_, accept_setting settled _ ▸ guarded⟩
      · rintro _ _ _ ⟨⟩ ⟨⟩
      · obtain ⟨_, _, absent, _⟩ := known.sent attempt made
        rw [here] at absent
        cases absent
    | read here =>
      cases own
      rw [here] at known
      simp only [routed_go, World.logged_rest]
      exact known.goes (by rintro _ ⟨⟩)
    | choose here accounts chosen =>
      cases own
      rw [here] at known
      refine (routed_go ..).mpr (known.goes ?_)
      rintro _ ⟨⟩
      rw [AppState.pods_eq settled accounts]
      exact AccountPool.primary_mem chosen
    | repick here accounts picked =>
      cases own
      rw [here] at known
      refine (routed_go ..).mpr (known.goes ?_)
      rintro _ ⟨⟩
      rw [AppState.pods_eq settled accounts]
      exact AccountPool.pick_mem_accounts picked
    | finish here | fail here | finishAgain here | failAgain here | loseAgain here =>
      cases own
      rw [here] at known
      simp only [routed_go, World.withPool_rest, World.tried_here]
      exact (known.made rfl _).goes (by rintro _ ⟨⟩)
    | clear here | single here | putLost here =>
      cases own
      rw [here] at known
      exact (routed_go ..).mpr (known.goes (by rintro _ ⟨⟩))
    | put here =>
      cases own
      rw [here] at known
      simp only [routed_go, World.withState_rest, World.logged_rest]
      exact known.goes (by rintro _ ⟨⟩)
  · obtain ⟨handler, attempts⟩ := rule.frame own
    rw [handler, attempts]
    exact routed t

theorem routed_run {good : World → Action → Prop} (starts : w₀.Starts)
    (reached : Run (step env) good w₀ w) (t : Nat) :
    (w.handlers t).Routed env w₀.state (w.attempts t) := by
  let inv (w : World) : Prop := w.state.setting = w₀.state.setting ∧
    ∀ t, (w.handlers t).Routed env w₀.state (w.attempts t)
  have initially : inv w₀ := by
    refine ⟨rfl, fun t => ?_⟩
    rw [starts.absent, starts.unattempted]
    exact ⟨(by rintro _ _ ⟨⟩), (by rintro _ _ _ ⟨⟩), (by rintro _ ⟨⟩)⟩
  have holds : inv w := reached.invariant initially fun known _ taken =>
    ⟨(step_spec env taken).setting.trans known.1, routed_step known.1 known.2 taken⟩
  exact holds.2 t

/-- A pin that an answer left stays explained. -/
theorem World.Leaves.step (leaves : w.Leaves key pin) (rule : Step env w a w') :
    w'.Leaves key pin := by
  obtain ⟨t, route, stage, attempt, made, here, keyed, final, same⟩ := leaves
  obtain ⟨stage', here'⟩ := rule.admitted here
  exact ⟨t, route, stage', attempt, rule.attempts_subset t made, here', keyed, final, same⟩

/-- What a step does to the pins, whatever explains the earlier ones. -/
theorem pins_step {earlier : String → Pin → Prop} (accounted : w.Accounted)
    (taken : step env w a = some w')
    (pins : ∀ key pin, w.state.pin (some key) = some pin → earlier key pin ∨ w.Leaves key pin)
    (found : w'.state.pin (some key) = some pin) : earlier key pin ∨ w'.Leaves key pin := by
  have rule := step_spec env taken
  have kept (known : w.state.pin (some key) = some pin) :
      earlier key pin ∨ w'.Leaves key pin :=
    (pins key pin known).imp_right fun leaves => leaves.step rule
  cases rule with
  | read => exact kept (by simpa using found)
  | @clear _ _ _ _ answered =>
    cases answered with
    | false => exact kept found
    | true => exact kept (AppState.pin_of_cleared found)
  | expire => exact kept (AppState.pin_of_cleared found)
  | @put t route slug source response here =>
    rcases AppState.pin_of_maybePin found with known | ⟨keyed, rfl, _⟩
    · exact kept known
    · obtain ⟨_, last, latest, final, rfl, _⟩ := accounted.admitted here
      refine .inr ⟨t, route, .done (.ok response), last, ?_, by simp, keyed, final, rfl⟩
      simpa using List.mem_of_mem_head? latest
  | _ => exact kept found

/-- Whatever the interleaving, a pin is from the start or was left by a final answer. -/
theorem pins_run {good : World → Action → Prop} (starts : w₀.Starts)
    (reached : Run (step env) good w₀ w) (found : w.state.pin (some key) = some pin) :
    w₀.state.pin (some key) = some pin ∨ w.Leaves key pin := by
  let inv (w : World) : Prop := w.Accounted ∧ ∀ key pin, w.state.pin (some key) = some pin →
    w₀.state.pin (some key) = some pin ∨ w.Leaves key pin
  have initially : inv w₀ := ⟨.initial starts, fun _ _ => .inl⟩
  have holds : inv w := reached.invariant initially fun known _ taken =>
    ⟨known.1.step taken, fun _ _ found => pins_step known.1 taken known.2 found⟩
  exact holds.2 key pin found

/-- Under every interleaving of any number of requests, with whatever the pods and the store
answer: a request makes at most two attempts, at different accounts, and what it answers is
one of their answers; each attempt is at an account of the pool and sends what that request's
client sent, with the router's own key; what cools has failed; and a pin that was not there
at the start is what a final answer to a request of its conversation left. -/
theorem interleaved (starts : w₀.Starts) (reached : Run (step env) (fun _ _ => True) w₀ w) :
    (∀ t, (w.handlers t).Reported (w.attempts t)) ∧
    (∀ t, ∀ attempt ∈ w.attempts t, ∃ inbound route stage,
      accept env w₀.state inbound = .ok route ∧ route.Keeps inbound w₀.state.adminApiKey ∧
      w.handlers t = .admitted route stage ∧ attempt.Forwards w₀.state.pods route) ∧
    (∀ pool, w.state.accounts = some pool → w.Cools pool) ∧
    ∀ key pin, w.state.pin (some key) = some pin →
      w₀.state.pin (some key) = some pin ∨ w.Leaves key pin := by
  obtain ⟨accounted, cooling⟩ := accounted_run starts reached
  refine ⟨fun t => (accounted t).reported, ?_, cooling, fun _ _ found =>
    pins_run starts reached found⟩
  intro t attempt made
  have routed := routed_run starts reached t
  obtain ⟨route, stage, here, forwards⟩ := routed.sent attempt made
  obtain ⟨inbound, guarded⟩ := routed.accepted route stage here
  exact ⟨inbound, route, stage, guarded, accept_ok guarded, here, forwards⟩

end

/-- The answer that request 1 gets from the second account is the conversation's pin, while
request 0 is still at the first. -/
theorem interleaved_overtaken : (Sample.after Sample.overtaken).Leaves "k" ⟨"b", ""⟩ := by
  have explained := (interleaved Sample.starts Sample.overtaken_run).2.2.2 "k" ⟨"b", ""⟩ rfl
  exact explained.resolve_left (by rintro ⟨⟩)

end CodexProxy.Router
