import CodexProxy.Credentials.System

/-! The retrying upstream call. A request fetches credentials and sends them; on 401 it
forces a refresh, fetches again and sends once more. Between its calls the store is free
for others. -/
namespace CodexProxy.Upstream
open Credentials Transition
variable (codec : Json.Codec)

inductive UpstreamError where
  | credentials (error : CredentialsError)
  | refreshFailed (error : CredentialsError)
  | request (message : String)

def UNAUTHORIZED : Nat := 401

/-- Where a request is suspended in `send_with_retry`. A response is its status. -/
inductive Request where
  | absent
  | fetching
  | sending (initial : Credentials)
  | refreshing (initial : Credentials)
  | refetching (initial : Credentials)
  | resending (initial refreshed : Credentials)
  | finished (result : Except UpstreamError Nat)
  | dropped

/-- The store's operation that a request waits for. -/
def Request.calls : Request → Option Refresher
  | .fetching | .refetching _ => some .getCredentials
  | .refreshing _ => some .refreshCredentials
  | _ => none

/-- The upstream has a POST of the request. -/
def Request.sent : Request → Bool
  | .sending _ | .resending _ _ => true
  | _ => false

/-- What happens to one request. -/
inductive Event where
  | posted (creds : Credentials)
  | replied (status : Nat)
  /-- The write of its forced refresh takes effect. -/
  | persisted (accessToken : String)
  /-- `refresh_credentials` returns without an error. -/
  | refreshed

/-- A request calls the store under its own number; the store's other calls have the
numbers of no request. Histories have the oldest event first. -/
structure World where
  store : System
  requests : Nat → Request
  history : Nat → List Event

inductive Action where
  | store (a : Credentials.Action)
  | arrive (t : Nat)
  /-- The store's call returns. -/
  | resume (t : Nat)
  | reply (t : Nat) (status : Nat)
  | lose (t : Nat) (message : String)
  /-- The client disconnects. -/
  | drop (t : Nat)

namespace World

def become (w : World) (t : Nat) (request : Request) : World :=
  { w with requests := Function.update w.requests t request }

def log (w : World) (t : Nat) (event : Event) : World :=
  { w with history := Function.update w.history t (w.history t ++ [event]) }

/-- A call of the store. -/
def call (w : World) (t : Nat) (op : Refresher) (request : Request) : World :=
  { w.become t request with store := w.store.put t (.locking (.refresher op)) }

/-- `send_codex_request`. -/
def post (w : World) (t : Nat) (creds : Credentials) (request : Request) : World :=
  { (w.become t request).log t (.posted creds) with store := w.store.put t .idle }

def finish (w : World) (t : Nat) (result : Except UpstreamError Nat) : World :=
  { w.become t (.finished result) with store := w.store.put t .idle }

/-- The store has taken a step; the write of a forced refresh is noted. -/
def observe (w : World) (a : Credentials.Action) (store : System) : World :=
  match a with
  | .rename t =>
    match w.requests t, w.store.tasks t with
    | .refreshing _, .dispatched job _ => { w.log t (.persisted job.accessToken) with store }
    | _, _ => { w with store }
  | _ => { w with store }

/-- Others neither make nor drop the calls of a request. -/
def permits (w : World) : Credentials.Action → Bool
  | .start t _ | .drop t => match w.requests t with | .absent => true | _ => false
  | _ => true

end World

def step (w : World) : Action → Option World
  | .store a => if w.permits a then (Credentials.step codec w.store a).map (w.observe a) else none
  | .arrive t =>
    match w.requests t, w.store.tasks t with
    | .absent, .idle => some (w.call t .getCredentials .fetching)
    | _, _ => none
  | .resume t =>
    match w.requests t, w.store.tasks t with
    | .fetching, .done (.credentials (.ok initial)) => some (w.post t initial (.sending initial))
    | .refreshing initial, .done (.refreshed (.ok _)) =>
      some ((w.log t .refreshed).call t .getCredentials (.refetching initial))
    | .refreshing _, .done (.refreshed (.error error)) =>
      some (w.finish t (.error (.refreshFailed error)))
    | .refetching initial, .done (.credentials (.ok refreshed)) =>
      some (w.post t refreshed (.resending initial refreshed))
    | .fetching, .done (.credentials (.error error))
    | .refetching _, .done (.credentials (.error error)) =>
      some (w.finish t (.error (.credentials error)))
    | _, _ => none
  | .reply t status =>
    let replied := w.log t (.replied status)
    match w.requests t with
    | .sending initial =>
      if status = UNAUTHORIZED then some (replied.call t .refreshCredentials (.refreshing initial))
      else some (replied.finish t (.ok status))
    | .resending _ _ => some (replied.finish t (.ok status))
    | _ => none
  | .lose t message =>
    match w.requests t with
    | .sending _ | .resending _ _ => some (w.finish t (.error (.request message)))
    | _ => none
  | .drop t =>
    match w.requests t with
    | .absent | .finished _ | .dropped => none
    | .sending _ | .resending _ _ => some (w.become t .dropped)
    | .fetching | .refreshing _ | .refetching _ =>
      (Credentials.step codec w.store (.drop t)).map fun store =>
        { w.become t .dropped with store }

/-- The rules that `step` computes. -/
inductive Step (w : World) : Action → World → Prop where
  | store (permitted : w.permits a = true) (taken : Credentials.step codec w.store a = some store) :
      Step w (.store a) (w.observe a store)
  | arrive (here : w.requests t = .absent) (free : w.store.tasks t = .idle) :
      Step w (.arrive t) (w.call t .getCredentials .fetching)
  | fetched (here : w.requests t = .fetching)
      (returned : w.store.tasks t = .done (.credentials (.ok initial))) :
      Step w (.resume t) (w.post t initial (.sending initial))
  | refreshed (here : w.requests t = .refreshing initial)
      (returned : w.store.tasks t = .done (.refreshed (.ok ()))) :
      Step w (.resume t) ((w.log t .refreshed).call t .getCredentials (.refetching initial))
  | refreshFailed (here : w.requests t = .refreshing initial)
      (returned : w.store.tasks t = .done (.refreshed (.error error))) :
      Step w (.resume t) (w.finish t (.error (.refreshFailed error)))
  | refetched (here : w.requests t = .refetching initial)
      (returned : w.store.tasks t = .done (.credentials (.ok refreshed))) :
      Step w (.resume t) (w.post t refreshed (.resending initial refreshed))
  | fetchFailed (here : (w.requests t).calls = some .getCredentials)
      (returned : w.store.tasks t = .done (.credentials (.error error))) :
      Step w (.resume t) (w.finish t (.error (.credentials error)))
  | unauthorized (here : w.requests t = .sending initial) : Step w (.reply t UNAUTHORIZED)
      ((w.log t (.replied UNAUTHORIZED)).call t .refreshCredentials (.refreshing initial))
  | answered (here : w.requests t = .sending initial) (other : status ≠ UNAUTHORIZED) :
      Step w (.reply t status) ((w.log t (.replied status)).finish t (.ok status))
  | answeredAgain (here : w.requests t = .resending initial refreshed) :
      Step w (.reply t status) ((w.log t (.replied status)).finish t (.ok status))
  | lose (here : (w.requests t).sent = true) :
      Step w (.lose t message) (w.finish t (.error (.request message)))
  | dropPost (here : (w.requests t).sent = true) :
      Step w (.drop t) (w.become t .dropped)
  | drop (here : (w.requests t).calls.isSome = true)
      (taken : Credentials.step codec w.store (.drop t) = some store) :
      Step w (.drop t) { w.become t .dropped with store }

theorem step_spec {w w' : World} {a : Action} (taken : step codec w a = some w') :
    Step codec w a w' := by
  cases a with
  | store a =>
    simp only [step] at taken
    split at taken
    · rename_i permitted
      obtain ⟨store, moved, same⟩ := Option.map_eq_some_iff.mp taken
      exact same ▸ .store permitted moved
    · cases taken
  | arrive t =>
    simp only [step] at taken
    split at taken
    · cases taken; exact .arrive ‹_› ‹_›
    · cases taken
  | resume t =>
    simp only [step] at taken
    split at taken
    · cases taken; exact .fetched ‹_› ‹_›
    · cases taken; exact .refreshed ‹_› ‹_›
    · cases taken; exact .refreshFailed ‹_› ‹_›
    · cases taken; exact .refetched ‹_› ‹_›
    · rename_i here _; cases taken; exact .fetchFailed (by rw [here]; rfl) ‹_›
    · rename_i here _; cases taken; exact .fetchFailed (by rw [here]; rfl) ‹_›
    · cases taken
  | reply t status =>
    simp only [step] at taken
    split at taken
    · split at taken
      · rename_i here same
        cases taken
        exact same ▸ .unauthorized here
      · cases taken; exact .answered ‹_› ‹_›
    · cases taken; exact .answeredAgain ‹_›
    · cases taken
  | lose t message =>
    simp only [step] at taken
    split at taken
    · rename_i here; cases taken; exact .lose (by rw [here]; rfl)
    · rename_i here; cases taken; exact .lose (by rw [here]; rfl)
    · cases taken
  | drop t =>
    simp only [step] at taken
    split at taken
    · cases taken
    · cases taken
    · cases taken
    · rename_i here; cases taken; exact .dropPost (by rw [here]; rfl)
    · rename_i here; cases taken; exact .dropPost (by rw [here]; rfl)
    all_goals
      rename_i here
      obtain ⟨store, moved, rfl⟩ := Option.map_eq_some_iff.mp taken
      exact .drop (by rw [here]; rfl) moved

theorem step_complete {w w' : World} {a : Action} (rule : Step codec w a w') :
    step codec w a = some w' := by
  cases rule with
  | store permitted taken => simp only [step, permitted, taken, if_true, Option.map_some]
  | arrive here free => simp only [step, here, free]
  | fetched here returned | refreshed here returned | refreshFailed here returned
  | refetched here returned => simp only [step, here, returned]
  | @fetchFailed t error here returned =>
    simp only [step, returned]
    cases request : w.requests t with
    | fetching | refetching => rfl
    | _ => simp [request, Request.calls] at here
  | unauthorized here => simp only [step, here, if_true]
  | answered here other => simp only [step, here, if_neg other]
  | answeredAgain here => simp only [step, here]
  | @lose t message here =>
    simp only [step]
    cases request : w.requests t with
    | sending | resending => rfl
    | _ => simp [request, Request.sent] at here
  | @dropPost t here =>
    simp only [step]
    cases request : w.requests t with
    | sending | resending => rfl
    | _ => simp [request, Request.sent] at here
  | @drop t store here taken =>
    simp only [step, taken, Option.map_some]
    cases request : w.requests t with
    | fetching | refreshing | refetching => rfl
    | _ => simp [request, Request.calls] at here

namespace World
variable (w : World) (t : Nat)

@[simp] theorem become_here (request : Request) : (w.become t request).requests t = request :=
  Function.update_self ..

@[simp] theorem log_here (event : Event) : (w.log t event).history t = w.history t ++ [event] :=
  Function.update_self ..

@[simp] theorem call_here (op : Refresher) (request : Request) :
    (w.call t op request).requests t = request ∧
    (w.call t op request).store.tasks t = .locking (.refresher op) ∧
    (w.call t op request).history = w.history :=
  ⟨Function.update_self .., Function.update_self .., rfl⟩

@[simp] theorem post_here (creds : Credentials) (request : Request) :
    (w.post t creds request).requests t = request ∧
    (w.post t creds request).store.tasks t = .idle ∧
    (w.post t creds request).history t = w.history t ++ [.posted creds] :=
  ⟨Function.update_self .., Function.update_self .., Function.update_self ..⟩

@[simp] theorem finish_here (result : Except UpstreamError Nat) :
    (w.finish t result).requests t = .finished result ∧ (w.finish t result).store.tasks t = .idle ∧
    (w.finish t result).history = w.history :=
  ⟨Function.update_self .., Function.update_self .., rfl⟩

/-- A request is where it was. -/
def Untouched (w w' : World) (u : Nat) : Prop :=
  w'.requests u = w.requests u ∧ w'.history u = w.history u ∧
  w'.store.tasks u = w.store.tasks u

section
variable {w t} {u : Nat}

theorem Untouched.trans {w' w'' : World} (first : w.Untouched w' u) (second : w'.Untouched w'' u) :
    w.Untouched w'' u :=
  ⟨second.1.trans first.1, second.2.1.trans first.2.1, second.2.2.trans first.2.2⟩

theorem become_other (request : Request) (other : u ≠ t) : w.Untouched (w.become t request) u :=
  ⟨Function.update_of_ne other .., rfl, rfl⟩

theorem log_untouched (event : Event) (other : u ≠ t) : w.Untouched (w.log t event) u :=
  ⟨rfl, Function.update_of_ne other .., rfl⟩

theorem call_other (op : Refresher) (request : Request) (other : u ≠ t) :
    w.Untouched (w.call t op request) u :=
  ⟨Function.update_of_ne other .., rfl, Function.update_of_ne other ..⟩

theorem post_other (creds : Credentials) (request : Request) (other : u ≠ t) :
    w.Untouched (w.post t creds request) u :=
  ⟨Function.update_of_ne other .., Function.update_of_ne other .., Function.update_of_ne other ..⟩

theorem finish_other (result : Except UpstreamError Nat) (other : u ≠ t) :
    w.Untouched (w.finish t result) u :=
  ⟨Function.update_of_ne other .., rfl, Function.update_of_ne other ..⟩

end

@[simp] theorem observe_store (a : Credentials.Action) (store : System) :
    (w.observe a store).store = store := by
  simp only [observe]
  split
  · split
    · rfl
    · rfl
  · rfl

@[simp] theorem observe_requests (a : Credentials.Action) (store : System) :
    (w.observe a store).requests = w.requests := by
  simp only [observe]
  split
  · split
    · rfl
    · rfl
  · rfl

/-- Only the write of a forced refresh is noted. -/
theorem observe_other {a : Credentials.Action} (store : System)
    (other : ∀ initial, a = .rename t → w.requests t ≠ .refreshing initial) :
    (w.observe a store).history t = w.history t := by
  simp only [observe]
  split
  · rename_i u
    split
    · rename_i initial _ _ here _
      by_cases same : t = u
      · subst same
        exact (other initial rfl here).elim
      · exact (log_untouched _ same).2.1
    · rfl
  · rfl

theorem observe_rename (store : System) {initial : Credentials} {job : Job} {auth : FsAuth}
    (here : w.requests t = .refreshing initial) (dispatched : w.store.tasks t = .dispatched job auth) :
    (w.observe (.rename t) store).history t = w.history t ++ [.persisted job.accessToken] := by
  simp only [observe, here, dispatched]
  exact log_here ..

end World

/-- Steps that a call takes once it is begun. -/
def internal : Credentials.Action → Prop
  | .start _ _ | .drop _ => False
  | _ => True

theorem permits_internal {w : World} {a : Credentials.Action} (inside : internal a) :
    w.permits a = true := by
  cases a with
  | start | drop => exact inside.elim
  | _ => rfl

/-- What the store does by itself it does between the requests. -/
theorem store_run (allowed : World → Action → Prop) {good : System → Credentials.Action → Prop}
    {w : World} {s : System} (run : Run (Credentials.step codec) good w.store s)
    (lifts : ∀ w' a, w'.requests = w.requests → good w'.store a →
      internal a ∧ allowed w' (.store a)) :
    ∃ w', Run (step codec) allowed w w' ∧ w'.store = s ∧ w'.requests = w.requests := by
  induction run with
  | here => exact ⟨w, .here, rfl, rfl⟩
  | @step s s' a _ good' taken ih =>
    obtain ⟨w', run, rfl, requests⟩ := ih
    obtain ⟨inside, allowed'⟩ := lifts w' a requests good'
    exact ⟨_, run.step allowed' (step_complete codec (.store (permits_internal inside) taken)),
      w'.observe_store a s', (w'.observe_requests a s').trans requests⟩

end CodexProxy.Upstream
