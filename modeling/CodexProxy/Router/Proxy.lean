import CodexProxy.Router.Attempt

/-! The router's handler, cut where it awaits. Each cut is a step, and the steps of many
requests interleave. A request that its client gives up takes no further step. -/
namespace CodexProxy.Router
open Request
variable (env : Environment)

inductive ApiError where
  | badRequest (message : String)
  | unauthorized (message : String)
  | adminNotConfigured
  | internal (message : String)

structure Pin where
  slug : String
  model : String
  deriving DecidableEq

/-- The pins, by conversation. -/
abbrev AffinityStore := String → Option Pin

structure AppState where
  accounts : Option AccountPool
  adminApiKey : Option String
  affinity : Option AffinityStore

namespace AppState
variable (state : AppState)

/-- The pin of a request's conversation. -/
def pin : Option String → Option Pin
  | none => none
  | some key => state.affinity.bind (· key)

def setPin (key : Option String) (pin : Option Pin) : AppState :=
  match key with
  | none => state
  | some key => { state with affinity := state.affinity.map (Function.update · key pin) }

end AppState

structure Inbound where
  headers : HeaderMap
  path : String
  pathAndQuery : Option String
  body : List UInt8

/-- What the handler has worked out before it routes. -/
structure Route where
  key : Option String
  model : String
  target : String
  bearer : String
  headers : HeaderMap
  body : List UInt8

def accept (state : AppState) (inbound : Inbound) : Except ApiError Route :=
  match state.accounts, state.adminApiKey, env.codec.fromSlice inbound.body with
  | none, _, _ => .error (.internal "router mode: no account pool configured")
  | some _, none, _ => .error .adminNotConfigured
  | some _, some _, none => .error (.badRequest "Failed to parse request body")
  | some _, some bearer, some request => .ok {
      key := (resolveConversationKey env inbound.headers request).map (·.key)
      model := ((request.get? "model").bind Json.asString).getD ""
      target := inbound.pathAndQuery.getD inbound.path
      bearer := bearer
      headers := inbound.headers
      body := inbound.body }

def Route.toPod (route : Route) (account : Account) : PodRequest :=
  proxyToPod account.url route.target route.bearer route.headers route.body

def Route.attempt (route : Route) (account : Account) (result : Except SendError PodResponse) :
    Attempt :=
  ⟨account, route.model, route.toPod account, result⟩

/-- How a request came to its account. -/
inductive Source where
  | pinned
  | new
  | fallback
  | repinned
  deriving DecidableEq

/-- The live pin if it is usable, else a fresh pick. -/
def AccountPool.primary (pool : AccountPool) (stored : Bool) (clock : Nat → Instant)
    (slug : Option String) (model : String) : Option (Account × Source) × AccountPool :=
  match slug.bind (pool.pinned clock · model) with
  | some account => (some (account, .pinned), pool)
  | none =>
    let (picked, pool) := pool.pick (fun i => clock (i + 2)) none model
    (picked.map (·, if stored then .new else .fallback), pool)

/-- A tier gate cools the pair, anything else the account. -/
def AccountPool.cool (pool : AccountPool) (slug model : String) (tierGate : Bool)
    (now : Instant) : AccountPool :=
  if tierGate then pool.cooldownModel slug model now else pool.cooldown slug now

/-- What is left to answer with when there is no second response. -/
def fallbackOr (message : String) : Fallback → Except ApiError Response
  | .ok body => .ok body.intoResponse
  | .error _ => .error (.internal message)

def fallbackOrError : Fallback → Except ApiError Response :=
  fallbackOr "router: all codex accounts unreachable"

def fallbackOrErrorSingle : Fallback → Except ApiError Response :=
  fallbackOr "router: codex account unreachable"

/-- The store does not hear of a request that was routed without it. -/
def AppState.maybePin (state : AppState) (route : Route) (slug : String) (source : Source) :
    AppState :=
  if source = .fallback then state else state.setPin route.key (some ⟨slug, route.model⟩)

/-- Where an admitted request is. -/
inductive Stage where
  | looking
  | choosing (slug : Option String)
  | sending (account : Account) (source : Source)
  | clearing (account : Account) (fallback : Fallback)
  | repicking (account : Account) (fallback : Fallback)
  | resending (account : Account) (fallback : Fallback) (alt : Account)
  | pinning (slug : String) (source : Source) (response : Response)
  | done (result : Except ApiError Response)

inductive Handler where
  | absent
  | refused (error : ApiError)
  | admitted (route : Route) (stage : Stage)

inductive Event where
  /-- A lookup; one that fails finds nothing. -/
  | read (t : Nat) (key : String) (found : Option Pin) (answered : Bool)
  /-- A pin is stored. -/
  | put (t : Nat) (key : String) (pin : Pin)
  deriving DecidableEq

/-- Attempts and events have the latest first. -/
structure World where
  state : AppState
  handlers : Nat → Handler
  attempts : Nat → List Attempt
  log : List Event

/-- An operation of the store that is not answered has no effect. -/
inductive Action where
  | arrive (t : Nat) (inbound : Inbound)
  | read (t : Nat) (answered : Bool)
  | choose (t : Nat) (clock : Nat → Instant)
  /-- The attempt is over. -/
  | respond (t : Nat) (now : Instant) (result : Except SendError PodResponse)
  | clear (t : Nat) (answered : Bool)
  | repick (t : Nat) (clock : Nat → Instant)
  | put (t : Nat) (answered : Bool)
  /-- A pin reaches its time to live. -/
  | expire (key : String)

namespace World
variable (w : World)

def become (t : Nat) (handler : Handler) : World :=
  { w with handlers := Function.update w.handlers t handler }

def go (t : Nat) (route : Route) (stage : Stage) : World := w.become t (.admitted route stage)

def withState (state : AppState) : World := { w with state := state }

def withPool (pool : AccountPool) : World :=
  w.withState { w.state with accounts := some pool }

def tried (t : Nat) (route : Route) (account : Account) (result : Except SendError PodResponse) :
    World :=
  let attempts := route.attempt account result :: w.attempts t
  { w with attempts := Function.update w.attempts t attempts }

/-- Only what the store is asked is noted. -/
def logged (event : String → Event) (key : Option String) : World :=
  match w.state.affinity, key with
  | some _, some key => { w with log := event key :: w.log }
  | _, _ => w

end World

def step (w : World) : Action → Option World
  | .arrive t inbound =>
    match w.handlers t, accept env w.state inbound with
    | .absent, .error error => some (w.become t (.refused error))
    | .absent, .ok route => some (w.go t route .looking)
    | _, _ => none
  | .read t answered =>
    match w.handlers t with
    | .admitted route .looking =>
      let found := if answered then w.state.pin route.key else none
      some ((w.logged (.read t · found answered) route.key).go t route
        (.choosing (found.map (·.slug))))
    | _ => none
  | .choose t clock =>
    match w.handlers t, w.state.accounts with
    | .admitted route (.choosing slug), some pool =>
      match pool.primary w.state.affinity.isSome clock slug route.model with
      | (some (account, source), pool) =>
        some ((w.withPool pool).go t route (.sending account source))
      | (none, pool) => some ((w.withPool pool).go t route
          (.done (.error (.internal "router mode: account pool is empty"))))
    | _, _ => none
  | .respond t now result =>
    match w.handlers t, w.state.accounts with
    | .admitted route (.sending account source), some pool =>
      match classify result with
      | .terminal response =>
        some ((w.tried t route account result).go t route (.pinning account.slug source response))
      | .retry fallback tierGate =>
        some (((w.tried t route account result).withPool
          (pool.cool account.slug route.model tierGate now)).go t route
          (.clearing account fallback))
    | .admitted route (.resending _ fallback alt), some pool =>
      match classify result with
      | .terminal response =>
        some ((w.tried t route alt result).go t route (.pinning alt.slug .repinned response))
      | .retry (.ok body) tierGate =>
        some (((w.tried t route alt result).withPool
          (pool.cool alt.slug route.model tierGate now)).go t route (.done (.ok body.intoResponse)))
      -- a pod that was not reached is not cooled here
      | .retry (.error _) _ =>
        some ((w.tried t route alt result).go t route (.done (fallbackOrError fallback)))
    | _, _ => none
  | .clear t answered =>
    match w.handlers t with
    | .admitted route (.clearing account fallback) =>
      some ((w.withState (if answered then w.state.setPin route.key none else w.state)).go t route
        (.repicking account fallback))
    | _ => none
  | .repick t clock =>
    match w.handlers t, w.state.accounts with
    | .admitted route (.repicking account fallback), some pool =>
      match pool.pick clock (some account.slug) route.model with
      | (some alt, pool) =>
        if alt.slug ≠ account.slug then
          some ((w.withPool pool).go t route (.resending account fallback alt))
        else some ((w.withPool pool).go t route (.done (fallbackOrErrorSingle fallback)))
      | (none, pool) => some ((w.withPool pool).go t route (.done (fallbackOrErrorSingle fallback)))
    | _, _ => none
  | .put t answered =>
    match w.handlers t with
    | .admitted route (.pinning slug source response) =>
      let pinned := (w.logged (.put t · ⟨slug, route.model⟩) route.key).withState
        (w.state.maybePin route slug source)
      some ((if answered then pinned else w).go t route (.done (.ok response)))
    | _ => none
  | .expire key => some (w.withState (w.state.setPin (some key) none))

/-- The rules that `step` computes. A pick always finds an account. -/
inductive Step (w : World) : Action → World → Prop where
  | refuse (here : w.handlers t = .absent) (guarded : accept env w.state inbound = .error error) :
      Step w (.arrive t inbound) (w.become t (.refused error))
  | accept (here : w.handlers t = .absent) (guarded : accept env w.state inbound = .ok route) :
      Step w (.arrive t inbound) (w.go t route .looking)
  | read (here : w.handlers t = .admitted route .looking)
      (looked : found = if answered then w.state.pin route.key else none) :
      Step w (.read t answered) ((w.logged (.read t · found answered) route.key).go t route
        (.choosing (found.map (·.slug))))
  | choose (here : w.handlers t = .admitted route (.choosing slug))
      (accounts : w.state.accounts = some pool)
      (chosen : pool.primary w.state.affinity.isSome clock slug route.model =
        (some (account, source), pool')) :
      Step w (.choose t clock) ((w.withPool pool').go t route (.sending account source))
  | finish (here : w.handlers t = .admitted route (.sending account source))
      (final : classify result = .terminal response) :
      Step w (.respond t now result)
        ((w.tried t route account result).go t route (.pinning account.slug source response))
  | fail (here : w.handlers t = .admitted route (.sending account source))
      (accounts : w.state.accounts = some pool)
      (failed : classify result = .retry fallback tierGate) :
      Step w (.respond t now result) (((w.tried t route account result).withPool
        (pool.cool account.slug route.model tierGate now)).go t route (.clearing account fallback))
  | finishAgain (here : w.handlers t = .admitted route (.resending account fallback alt))
      (final : classify result = .terminal response) :
      Step w (.respond t now result)
        ((w.tried t route alt result).go t route (.pinning alt.slug .repinned response))
  | failAgain (here : w.handlers t = .admitted route (.resending account fallback alt))
      (accounts : w.state.accounts = some pool)
      (failed : classify result = .retry (.ok body) tierGate) :
      Step w (.respond t now result) (((w.tried t route alt result).withPool
        (pool.cool alt.slug route.model tierGate now)).go t route (.done (.ok body.intoResponse)))
  | loseAgain (here : w.handlers t = .admitted route (.resending account fallback alt))
      (failed : classify result = .retry (.error message) tierGate) :
      Step w (.respond t now result)
        ((w.tried t route alt result).go t route (.done (fallbackOrError fallback)))
  | clear (here : w.handlers t = .admitted route (.clearing account fallback)) :
      Step w (.clear t answered)
        ((w.withState (if answered then w.state.setPin route.key none else w.state)).go t route
          (.repicking account fallback))
  | repick (here : w.handlers t = .admitted route (.repicking account fallback))
      (accounts : w.state.accounts = some pool)
      (picked : pool.pick clock (some account.slug) route.model = (some alt, pool'))
      (other : alt.slug ≠ account.slug) :
      Step w (.repick t clock) ((w.withPool pool').go t route (.resending account fallback alt))
  | single (here : w.handlers t = .admitted route (.repicking account fallback))
      (accounts : w.state.accounts = some pool)
      (picked : pool.pick clock (some account.slug) route.model = (some account', pool'))
      (same : account'.slug = account.slug) :
      Step w (.repick t clock)
        ((w.withPool pool').go t route (.done (fallbackOrErrorSingle fallback)))
  | put (here : w.handlers t = .admitted route (.pinning slug source response)) :
      Step w (.put t true) (((w.logged (.put t · ⟨slug, route.model⟩) route.key).withState
        (w.state.maybePin route slug source)).go t route (.done (.ok response)))
  | putLost (here : w.handlers t = .admitted route (.pinning slug source response)) :
      Step w (.put t false) (w.go t route (.done (.ok response)))
  | expire : Step w (.expire key) (w.withState (w.state.setPin (some key) none))

/-- A request is always given an account. -/
theorem AccountPool.primary_some (pool : AccountPool) (stored : Bool) (clock : Nat → Instant)
    (slug : Option String) (model : String) :
    ∃ chosen, (pool.primary stored clock slug model).1 = some chosen := by
  simp only [primary]
  split
  · exact ⟨_, rfl⟩
  · obtain ⟨account, _, picked⟩ := pool.pick_mem (fun i => clock (i + 2)) none model
    exact ⟨_, by rw [picked]; rfl⟩

theorem step_spec {w w' : World} {a : Action} (taken : step env w a = some w') :
    Step env w a w' := by
  cases a with
  | arrive t inbound =>
    simp only [step] at taken
    split at taken
    · cases taken; exact .refuse ‹_› ‹_›
    · cases taken; exact .accept ‹_› ‹_›
    · cases taken
  | read t answered =>
    simp only [step] at taken
    split at taken
    · cases taken; exact .read ‹_› rfl
    · cases taken
  | choose t clock =>
    simp only [step] at taken
    split at taken
    · rename_i route slug pool here accounts
      split at taken
      · cases taken; exact .choose here accounts ‹_›
      · rename_i missed
        obtain ⟨chosen, found⟩ := pool.primary_some w.state.affinity.isSome clock slug route.model
        rw [missed] at found
        cases found
    · cases taken
  | respond t now result =>
    simp only [step] at taken
    split at taken
    · rename_i here accounts
      split at taken
      · cases taken; exact .finish here ‹_›
      · cases taken; exact .fail here accounts ‹_›
    · rename_i here accounts
      split at taken
      · cases taken; exact .finishAgain here ‹_›
      · cases taken; exact .failAgain here accounts ‹_›
      · cases taken; exact .loseAgain here ‹_›
    · cases taken
  | clear t answered =>
    simp only [step] at taken
    split at taken
    · cases taken; exact .clear ‹_›
    · cases taken
  | repick t clock =>
    simp only [step] at taken
    split at taken
    · rename_i route account fallback pool here accounts
      split at taken
      · rename_i picked
        split at taken
        · cases taken; exact .repick here accounts picked ‹_›
        · cases taken; exact .single here accounts picked (not_not.mp ‹_›)
      · rename_i missed
        obtain ⟨account', _, found⟩ := pool.pick_mem clock (some account.slug) route.model
        rw [missed] at found
        cases found
    · cases taken
  | put t answered =>
    simp only [step] at taken
    split at taken
    · rename_i here
      cases answered with
      | true => cases taken; exact .put here
      | false => cases taken; exact .putLost here
    · cases taken
  | expire key => cases taken; exact .expire

theorem AppState.setPin_accounts (state : AppState) (key : Option String) (pin : Option Pin) :
    (state.setPin key pin).accounts = state.accounts := by
  cases key <;> rfl

theorem AppState.maybePin_accounts (state : AppState) (route : Route) (slug : String)
    (source : Source) : (state.maybePin route slug source).accounts = state.accounts := by
  simp only [maybePin]
  split
  · rfl
  · exact state.setPin_accounts ..

theorem AppState.setPin_pin (state : AppState) (key key' : String) (pin : Option Pin) :
    (state.setPin (some key) pin).pin (some key') =
      if key' = key then state.affinity.bind fun _ => pin else state.pin (some key') := by
  cases stored : state.affinity with
  | none => simp [setPin, AppState.pin, stored]
  | some store =>
    by_cases same : key' = key
    · simp [setPin, AppState.pin, stored, same]
    · simp [setPin, AppState.pin, stored, same]

/-- Clearing a pin leaves no pin where there was none. -/
theorem AppState.pin_cleared {state : AppState} {key : Option String}
    (unpinned : key = key' ∨ state.pin key' = none) : (state.setPin key none).pin key' = none := by
  cases key' with
  | none => rfl
  | some k' =>
    cases key with
    | none => exact unpinned.resolve_left (by rintro ⟨⟩)
    | some k =>
      rw [setPin_pin]
      split
      · exact Option.bind_fun_none _
      · rename_i other
        exact unpinned.resolve_left (by rintro ⟨⟩; exact other rfl)

theorem AppState.setPin_affinity_none {state : AppState} (none : state.affinity = none)
    (key : Option String) (pin : Option Pin) : (state.setPin key pin).affinity = .none := by
  cases key with
  | none => exact none
  | some key => simp [setPin, none]

/-- Choosing an account moves the round robin only. -/
theorem AccountPool.primary_cooldownUntil {pool pool' : AccountPool} {clock : Nat → Instant}
    (chosen : pool.primary stored clock slug model = (account, pool')) :
    pool'.cooldownUntil = pool.cooldownUntil ∧
    pool'.modelCooldownUntil = pool.modelCooldownUntil := by
  simp only [primary] at chosen
  split at chosen
  · cases chosen
    exact ⟨rfl, rfl⟩
  · cases chosen
    exact pick_cooldownUntil Prod.mk.eta.symm

namespace World
variable (w : World) (t : Nat) (route : Route)

@[simp] theorem become_here (handler : Handler) : (w.become t handler).handlers t = handler :=
  Function.update_self ..

@[simp] theorem go_here (stage : Stage) : (w.go t route stage).handlers t = .admitted route stage :=
  Function.update_self ..

@[simp] theorem go_rest (stage : Stage) : (w.go t route stage).attempts = w.attempts ∧
    (w.go t route stage).state = w.state ∧ (w.go t route stage).log = w.log :=
  ⟨rfl, rfl, rfl⟩

@[simp] theorem tried_here (account : Account) (result : Except SendError PodResponse) :
    (w.tried t route account result).attempts t = route.attempt account result :: w.attempts t :=
  Function.update_self ..

@[simp] theorem withState_rest (state : AppState) : (w.withState state).attempts = w.attempts ∧
    (w.withState state).state = state ∧ (w.withState state).log = w.log :=
  ⟨rfl, rfl, rfl⟩

@[simp] theorem withPool_rest (pool : AccountPool) : (w.withPool pool).attempts = w.attempts ∧
    (w.withPool pool).state.accounts = some pool ∧
    (w.withPool pool).state.affinity = w.state.affinity ∧ (w.withPool pool).log = w.log :=
  ⟨rfl, rfl, rfl, rfl⟩

theorem logged_eq (event : String → Event) (key : Option String) :
    ∃ log, w.logged event key = { w with log := log } := by
  simp only [logged]
  split
  · exact ⟨_, rfl⟩
  · exact ⟨_, rfl⟩

@[simp] theorem logged_rest (event : String → Event) (key : Option String) :
    (w.logged event key).handlers = w.handlers ∧ (w.logged event key).attempts = w.attempts ∧
    (w.logged event key).state = w.state := by
  obtain ⟨log, same⟩ := w.logged_eq event key
  rw [same]
  exact ⟨rfl, rfl, rfl⟩

end World

/-- The request that a step is of. -/
def Action.request : Action → Option Nat
  | .arrive t _ | .read t _ | .choose t _ | .respond t _ _ | .clear t _ | .repick t _ | .put t _ =>
    some t
  | .expire _ => none

/-- A step leaves the other requests where they are. -/
theorem Step.frame {env : Environment} {w w' : World} {a : Action} (rule : Step env w a w')
    (other : a.request ≠ some u) :
    w'.handlers u = w.handlers u ∧ w'.attempts u = w.attempts u := by
  have apart {t : Nat} (here : a.request = some t) : u ≠ t :=
    fun same => other (same ▸ here)
  cases rule with
  | expire => exact ⟨rfl, rfl⟩
  | _ =>
    have apart := apart rfl
    simp [World.go, World.become, World.tried, World.withState, World.withPool, apart]

/-- No attempt is forgotten. -/
theorem Step.attempts_subset {env : Environment} {w w' : World} {a : Action}
    (rule : Step env w a w') (t : Nat) : w.attempts t ⊆ w'.attempts t := by
  by_cases own : a.request = some t
  · cases rule with
    | expire => cases own
    | _ =>
      cases own
      simp [World.become]
  · rw [(rule.frame own).2]
    exact List.Subset.refl _

/-- No step sets a store up. -/
theorem Step.affinity_none {env : Environment} {w w' : World} {a : Action} (rule : Step env w a w')
    (none : w.state.affinity = none) : w'.state.affinity = .none := by
  cases rule with
  | read => simpa using none
  | clear =>
    simp only [World.go_rest, World.withState_rest]
    split
    · exact AppState.setPin_affinity_none none ..
    · exact none
  | put =>
    simp only [World.go_rest, World.withState_rest, AppState.maybePin]
    split
    · exact none
    · exact AppState.setPin_affinity_none none ..
  | expire => exact AppState.setPin_affinity_none none ..
  | _ => exact none

end CodexProxy.Router
