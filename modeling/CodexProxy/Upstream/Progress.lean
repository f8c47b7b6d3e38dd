import CodexProxy.Credentials.Progress
import CodexProxy.Upstream.Rejected

/-! From wherever it is, a request to the upstream can reach its answer. It waits for the mutex
at most, and the call that has the mutex waits for no other. Who of those that wait gets the
mutex is left open, so the runs of a fair queue are among these. -/
namespace CodexProxy.Upstream
open Credentials Transition

/-- The request, or the other call of the store, that takes a step. -/
def Action.call : Action → Option Nat
  | .store a => a.call
  | .arrive t | .resume t | .reply t _ | .lose t _ | .drop t => some t

/-- The steps that a request has still to take, with its call of the store. -/
def Request.remaining (phase : Phase) : Request → Nat
  | .absent => 30
  | .fetching => phase.remaining + 21
  | .sending _ => 20
  | .refreshing _ => phase.remaining + 11
  | .refetching _ => phase.remaining + 2
  | .resending _ _ => 1
  | .finished _ | .dropped => 0

def World.remaining (w : World) (t : Nat) : Nat := (w.requests t).remaining (w.store.tasks t)

/-- The steps that another call has to take before it leaves the mutex. -/
def World.ahead (w : World) (t : Nat) : Nat :=
  match w.store.holder with
  | none => 0
  | some u => if u = t then 0 else (w.store.tasks u).remaining

/-- A request that waits for the store has its call there, and one that does not has none. -/
structure World.Attended (w : World) : Prop where
  coherent : w.store.Coherent
  serves : ∀ t op, (w.requests t).calls = some op → (w.store.tasks t).Serves op
  idle : ∀ t, (w.requests t).calls = none → w.requests t ≠ .absent → w.store.tasks t = .idle

section
variable {codec : Json.Codec} {w w' : World} {a : Action} {t : Nat}

theorem World.remaining_le (present : w.requests t ≠ .absent) : w.remaining t ≤ 29 := by
  have bound := (w.store.tasks t).remaining_le
  cases request : w.requests t with
  | absent => exact (present request).elim
  | _ =>
    simp only [World.remaining, Request.remaining, request]
    omega

/-- One request takes a result or makes a call. -/
theorem World.Attended.advance (attended : w.Attended) (phase : Phase) (request : Request)
    (store : w'.store = w.store.put t phase)
    (requests : w'.requests = Function.update w.requests t request)
    (outside : (w.store.tasks t).holds = false) (outside' : phase.holds = false)
    (serves : ∀ op, request.calls = some op → phase.Serves op)
    (idle : request.calls = none → phase = .idle) : w'.Attended where
  coherent := store ▸ attended.coherent.put outside outside'
  serves u op := by
    rw [requests, store]
    by_cases same : u = t
    · subst same
      rw [Function.update_self, System.put_tasks_here]
      exact serves op
    · rw [Function.update_of_ne same, System.put_tasks_other _ _ _ same]
      exact attended.serves u op
  idle u := by
    rw [requests, store]
    by_cases same : u = t
    · subst same
      rw [Function.update_self, System.put_tasks_here]
      exact fun calls _ => idle calls
    · rw [Function.update_of_ne same, System.put_tasks_other _ _ _ same]
      exact attended.idle u

theorem World.Attended.sent (attended : w.Attended) (here : (w.requests t).sent = true) :
    w.store.tasks t = .idle := by
  cases request : w.requests t with
  | sending | resending => exact attended.idle t (by rw [request]; rfl) (by simp [request])
  | _ => simp [request, Request.sent] at here

theorem permits_present {a : Credentials.Action} (permitted : w.permits a = true)
    (present : w.requests t ≠ .absent) : a ≠ .drop t ∧ ∀ op, a ≠ .start t op := by
  constructor
  · rintro rfl
    cases here : w.requests t <;> simp [World.permits, here] at permitted present
  · rintro op rfl
    cases here : w.requests t <;> simp [World.permits, here] at permitted present

theorem World.Attended.step (attended : w.Attended) (taken : step codec w a = some w') :
    w'.Attended := by
  cases step_spec codec taken with
  | @store a store permitted moved =>
    constructor
    · rw [World.observe_store]
      exact attended.coherent.step moved
    · rw [World.observe_store, World.observe_requests]
      intro t op calls
      have present : w.requests t ≠ .absent := by
        intro absent
        rw [absent] at calls
        cases calls
      exact (attended.serves t op calls).step (permits_present permitted present).1 moved
    · rw [World.observe_store, World.observe_requests]
      intro t calls present
      exact idle_step (attended.idle t calls present) (permits_present permitted present).2 moved
  | arrive here free =>
    exact attended.advance _ _ rfl rfl (by rw [free]; rfl) rfl (by rintro _ ⟨⟩; rfl) (by rintro ⟨⟩)
  | refreshed here returned =>
    exact attended.advance _ _ rfl rfl (by rw [returned]; rfl) rfl (by rintro _ ⟨⟩; rfl)
      (by rintro ⟨⟩)
  | fetched _ returned | refetched _ returned | refreshFailed _ returned | fetchFailed _ returned =>
    exact attended.advance _ _ rfl rfl (by rw [returned]; rfl) rfl (by rintro _ ⟨⟩) (fun _ => rfl)
  | unauthorized here =>
    exact attended.advance _ _ rfl rfl (by rw [attended.sent (by rw [here]; rfl)]; rfl) rfl
      (by rintro _ ⟨⟩; rfl) (by rintro ⟨⟩)
  | answered here | answeredAgain here =>
    exact attended.advance _ _ rfl rfl (by rw [attended.sent (by rw [here]; rfl)]; rfl) rfl
      (by rintro _ ⟨⟩) (fun _ => rfl)
  | lose here =>
    exact attended.advance _ _ rfl rfl (by rw [attended.sent here]; rfl) rfl (by rintro _ ⟨⟩)
      (fun _ => rfl)
  | @dropPost t here =>
    have idle := attended.sent here
    have same : w.store = w.store.put t .idle := by
      rw [System.put, ← idle, Function.update_eq_self]
    exact attended.advance .idle .dropped same rfl (by rw [idle]; rfl) rfl (by rintro _ ⟨⟩)
      (fun _ => rfl)
  | @drop t store here moved =>
    obtain ⟨idle, others⟩ := drop_step moved
    refine ⟨attended.coherent.step moved, ?_, ?_⟩
    all_goals
      intro u
      by_cases same : u = t
    · simp [same, World.become, Request.calls]
    · simpa [same, World.become, others u same] using attended.serves u
    · simpa [same, World.become] using fun _ => idle
    · simpa [same, World.become, others u same] using attended.idle u

theorem World.Attended.initial (initial : Initial w) : w.Attended where
  coherent t := by simp [initial.idle, initial.free, Phase.holds]
  serves t op calls := by
    rw [initial.requests] at calls
    cases calls
  idle t _ present := (present (initial.requests t)).elim

/-- A step changes the request, or the other call, whose it is. -/
theorem World.step_frame (taken : step codec w a = some w') :
    (∀ u, a.call ≠ some u → w'.requests u = w.requests u ∧
      w'.store.tasks u = w.store.tasks u) ∧
    (w'.store.holder = w.store.holder ∨ w'.store.holder = none ∨
      w'.store.holder = a.call) := by
  have untouched {u v : Nat} (other : some v ≠ some u) : u ≠ v := by
    rintro rfl
    exact other rfl
  cases step_spec codec taken with
  | store permitted moved =>
    rw [World.observe_store, World.observe_requests]
    obtain ⟨tasks, holder⟩ := Credentials.step_frame moved
    exact ⟨fun u other => ⟨rfl, tasks u other⟩, holder⟩
  | drop here moved =>
    obtain ⟨tasks, holder⟩ := Credentials.step_frame moved
    exact ⟨fun u other => ⟨Function.update_of_ne (untouched other) .., tasks u other⟩, holder⟩
  | dropPost =>
    exact ⟨fun u other => ⟨Function.update_of_ne (untouched other) .., rfl⟩, .inl rfl⟩
  | _ =>
    exact ⟨fun u other => ⟨Function.update_of_ne (untouched other) ..,
      Function.update_of_ne (untouched other) ..⟩, .inl rfl⟩

/-- Every step of a request brings it nearer to its end. -/
theorem World.Attended.remaining_step (attended : w.Attended)
    (taken : Upstream.step codec w a = some w') (own : a.call = some t)
    (present : w.requests t ≠ .absent) : w'.remaining t < w.remaining t := by
  cases step_spec codec taken with
  | @store a store permitted moved =>
    have fewer := Credentials.remaining_step moved own (permits_present permitted present).2
    rw [World.remaining, World.remaining, World.observe_store, World.observe_requests]
    have idle := attended.idle t
    cases request : w.requests t with
    | absent => exact (present request).elim
    | fetching | refreshing | refetching =>
      simp only [Request.remaining]
      omega
    | sending | resending | finished | dropped =>
      rw [idle (by rw [request]; rfl) present] at fewer
      cases fewer
  | arrive here => cases own; exact (present here).elim
  | fetchFailed here returned =>
    cases own
    cases request : w.requests t with
    | fetching | refetching => simp [World.remaining, Request.remaining, request]
    | _ => simp [request, Request.calls] at here
  | lose here | dropPost here =>
    cases own
    cases request : w.requests t with
    | sending | resending => simp [World.remaining, Request.remaining, request]
    | _ => simp [request, Request.sent] at here
  | drop here moved =>
    cases own
    cases request : w.requests t with
    | fetching | refreshing | refetching => simp [World.remaining, Request.remaining, request]
    | _ => simp [request, Request.calls] at here
  | fetched here returned | refreshed here returned | refreshFailed here returned
  | refetched here returned =>
    cases own
    simp [World.remaining, Request.remaining, here, returned, Phase.remaining]
  | unauthorized here | answered here | answeredAgain here =>
    cases own
    simp [World.remaining, Request.remaining, here, Phase.remaining]

theorem present_step (present : w.requests t ≠ .absent) (taken : step codec w a = some w') :
    w'.requests t ≠ .absent := by
  by_cases own : a.call = some t
  · cases step_spec codec taken with
    | store => rwa [World.observe_requests]
    | _ => cases own; simp [World.become]
  · rw [((World.step_frame taken).1 t own).1]
    exact present

variable (codec) in
/-- The call that has the mutex goes on whatever it is answered. -/
theorem awaited_taken {u : Nat} {b : Credentials.Action}
    (awaits : (w.store.tasks u).Awaits u b) : ∃ w', step codec w (.store b) = some w' := by
  obtain ⟨store, moved⟩ : ∃ store, Credentials.step codec w.store b = some store := awaits.taken
  have permitted : w.permits b = true := by
    cases b with
    | start v op => exact ((awaits.ne v).2 op rfl).elim
    | drop v => exact ((awaits.ne v).1 rfl).elim
    | _ => rfl
  exact ⟨_, step_complete codec (.store permitted moved)⟩

variable (codec) in
/-- A request that is not done can take a step that does not give it up, unless another call
has the mutex. -/
theorem World.Attended.goesOn (attended : w.Attended) (present : w.requests t ≠ .absent)
    (busy : w.remaining t ≠ 0) :
    (∃ a w', a.call = some t ∧ Upstream.step codec w a = some w' ∧ w'.requests t ≠ .dropped) ∨
    ∃ u, u ≠ t ∧ w.store.holder = some u := by
  have calling {op : Refresher} (here : (w.requests t).calls = some op)
      (returns : ∀ outcome, outcome.Serves op → w.store.tasks t = .done outcome →
        ∃ w', Upstream.step codec w (.resume t) = some w' ∧ w'.requests t ≠ .dropped) :
      (∃ a w', a.call = some t ∧ Upstream.step codec w a = some w' ∧ w'.requests t ≠ .dropped) ∨
      ∃ u, u ≠ t ∧ w.store.holder = some u := by
    have undropped : w.requests t ≠ .dropped := by
      intro dropped
      rw [dropped] at here
      cases here
    have serves := attended.serves t op here
    cases holds : (w.store.tasks t).holds with
    | true =>
      obtain ⟨b, awaits⟩ := Phase.awaits (t := t) holds
      obtain ⟨w', taken⟩ := awaited_taken codec awaits
      refine .inl ⟨.store b, w', awaits.call, taken, ?_⟩
      cases step_spec codec taken with
      | store => rwa [World.observe_requests]
    | false =>
      cases phase : w.store.tasks t with
      | done outcome =>
        obtain ⟨w', taken, undropped⟩ := returns outcome (by rwa [phase] at serves) phase
        exact .inl ⟨.resume t, w', rfl, taken, undropped⟩
      | locking waiting =>
        cases free : w.store.holder with
        | none =>
          have moved := Credentials.step_complete codec (.acquire free phase)
          refine .inl ⟨.store (.acquire t), _, rfl, step_complete codec (.store rfl moved), ?_⟩
          rwa [World.observe_requests]
        | some u =>
          refine .inr ⟨u, ?_, rfl⟩
          rintro rfl
          rw [(attended.coherent u).mpr free] at holds
          cases holds
      | idle | readingFull => rw [phase] at serves; exact serves.elim
      | _ => rw [phase] at holds; cases holds
  cases request : w.requests t with
  | absent => exact (present request).elim
  | finished | dropped => simp [World.remaining, Request.remaining, request] at busy
  | sending initial | resending initial =>
    refine .inl ⟨.lose t "", _, rfl, step_complete codec (.lose (by rw [request]; rfl)), ?_⟩
    simp
  | fetching =>
    refine calling (by rw [request]; rfl) fun outcome serves returned => ?_
    cases outcome with
    | credentials result =>
      cases result with
      | ok => exact ⟨_, step_complete codec (.fetched request returned), by simp⟩
      | error =>
        exact ⟨_, step_complete codec (.fetchFailed (by rw [request]; rfl) returned), by simp⟩
    | _ => exact serves.elim
  | refreshing =>
    refine calling (by rw [request]; rfl) fun outcome serves returned => ?_
    cases outcome with
    | refreshed result =>
      cases result with
      | ok => exact ⟨_, step_complete codec (.refreshed request returned), by simp⟩
      | error => exact ⟨_, step_complete codec (.refreshFailed request returned), by simp⟩
    | _ => exact serves.elim
  | refetching =>
    refine calling (by rw [request]; rfl) fun outcome serves returned => ?_
    cases outcome with
    | credentials result =>
      cases result with
      | ok => exact ⟨_, step_complete codec (.refetched request returned), by simp⟩
      | error =>
        exact ⟨_, step_complete codec (.fetchFailed (by rw [request]; rfl) returned), by simp⟩
    | _ => exact serves.elim

/-- The request's own steps leave it no further from the mutex. -/
theorem ahead_own (taken : step codec w a = some w') (own : a.call = some t) :
    w'.ahead t ≤ w.ahead t := by
  obtain ⟨tasks, holder⟩ := World.step_frame taken
  rw [own] at holder
  rcases holder with same | free | here
  · simp only [World.ahead, same]
    cases w.store.holder with
    | none => exact Nat.le_refl 0
    | some u =>
      by_cases mine : u = t
      · simp [mine]
      · simp only [if_neg mine]
        have other : a.call ≠ some u := by
          rw [own]
          rintro ⟨⟩
          exact mine rfl
        rw [(tasks u other).2]
  · simp [World.ahead, free]
  · simp [World.ahead, here]

/-- Whoever has the mutex comes nearer to leaving it. -/
theorem ahead_other {u : Nat} {b : Credentials.Action} (holder : w.store.holder = some u)
    (other : u ≠ t) (awaits : (w.store.tasks u).Awaits u b)
    (taken : step codec w (.store b) = some w') : w'.ahead t < w.ahead t := by
  obtain ⟨_, holder'⟩ := World.step_frame taken
  cases step_spec codec taken with
  | @store _ store permitted moved =>
    rw [World.observe_store] at holder'
    have fewer := remaining_step moved awaits.call (awaits.ne u).2
    have before : w.ahead t = (w.store.tasks u).remaining := by
      simp only [World.ahead, holder, if_neg other]
    rw [before, World.ahead, World.observe_store]
    rcases holder' with same | free | own
    · simpa only [same, holder, if_neg other] using fewer
    · simp only [free]
      omega
    · simpa only [own, Action.call, awaits.call, if_neg other] using fewer

/-- Steps of the request and of the calls ahead of it. -/
def Ahead (t : Nat) (w : World) (a : Action) : Prop :=
  a.call = some t ∨ w.store.holder ≠ none ∧ a.call = w.store.holder

theorem World.Attended.finishes (attended : w.Attended) (present : w.requests t ≠ .absent)
    (kept : w.requests t ≠ .dropped) :
    ∃ w' result, Run (Upstream.step codec) (Ahead t) w w' ∧
      w'.requests t = .finished result ∧ ∀ u, u ≠ t → w'.requests u = w.requests u := by
  let measure (w : World) : Nat := if w.remaining t = 0 then 0 else w.remaining t + w.ahead t
  let inv (w' : World) : Prop := w'.Attended ∧ w'.requests t ≠ .absent ∧
    w'.requests t ≠ .dropped ∧ ∀ u, u ≠ t → w'.requests u = w.requests u
  have descends (w₁ : World) (holds : inv w₁) (busy : measure w₁ ≠ 0) :
      ∃ a w₂, Ahead t w₁ a ∧ Upstream.step codec w₁ a = some w₂ ∧ inv w₂ ∧
        measure w₂ < measure w₁ := by
    obtain ⟨attended₁, present₁, kept₁, others⟩ := holds
    have unsettled : w₁.remaining t ≠ 0 := fun none => busy (if_pos none)
    simp only [measure, if_neg unsettled]
    rcases attended₁.goesOn codec present₁ unsettled with
      ⟨a, w₂, own, taken, kept₂⟩ | ⟨u, other, holder⟩
    · have fewer := attended₁.remaining_step taken own present₁
      have ahead := ahead_own taken own
      refine ⟨a, w₂, .inl own, taken, ⟨attended₁.step taken, present_step present₁ taken, kept₂,
        fun v apart => ?_⟩, ?_⟩
      · rw [((World.step_frame taken).1 v (by rw [own]; rintro ⟨⟩; exact apart rfl)).1]
        exact others v apart
      · split <;> omega
    · have holds := (attended₁.coherent u).mpr holder
      obtain ⟨b, awaits⟩ := Phase.awaits (t := u) holds
      obtain ⟨w₂, taken⟩ := awaited_taken codec awaits
      have ahead := ahead_other holder other awaits taken
      have requests : w₂.requests = w₁.requests := by
        cases step_spec codec taken with
        | store => exact World.observe_requests ..
      have apart : Action.call (.store b) ≠ some t := by
        rw [Action.call, awaits.call]
        rintro ⟨⟩
        exact other rfl
      have same : w₂.remaining t = w₁.remaining t := by
        rw [World.remaining, World.remaining, requests, ((World.step_frame taken).1 t apart).2]
      refine ⟨.store b, w₂, .inr ⟨by simp [holder], ?_⟩, taken, ⟨attended₁.step taken,
        requests ▸ present₁, requests ▸ kept₁, fun v apart => requests ▸ others v apart⟩, ?_⟩
      · rw [Action.call, awaits.call, holder]
      · rw [same, if_neg unsettled]
        omega
  obtain ⟨w', reached, ⟨_, present', kept', others⟩, settled⟩ := Run.settles measure descends
    ⟨attended, present, kept, fun _ _ => rfl⟩
  have none : w'.remaining t = 0 := by
    simp only [measure] at settled
    split at settled <;> omega
  cases request : w'.requests t with
  | finished result => exact ⟨w', result, reached, request, others⟩
  | absent => exact (present' request).elim
  | dropped => exact (kept' request).elim
  | _ => simp [World.remaining, Request.remaining, request] at none

/-- Under every interleaving of requests, background refreshes and pushes, with whatever the
endpoint, the file system and the upstream answer and whichever call gets the mutex: the call
that has it can go on whatever it is answered, so nobody need have it for good; a request takes
at most the steps that its place leaves it, thirty in all; and it can reach its answer by its
own steps and those of the calls ahead of it, which leave the other requests where they are. -/
theorem never_stuck (codec : Json.Codec) {w₀ w : World} (initial : Initial w₀)
    (reached : Run (step codec) (fun _ _ => True) w₀ w) :
    (∀ u, w.store.holder = some u → (∃ b, (w.store.tasks u).Awaits u b) ∧
      ∀ b, (w.store.tasks u).Awaits u b → ∃ w', step codec w (.store b) = some w') ∧
    (∀ t (actions : List Action) (w' : World), w.requests t ≠ .absent →
      actions.foldlM (step codec) w = some w' →
      actions.countP (·.call = some t) + w'.remaining t ≤ w.remaining t ∧ w.remaining t ≤ 29) ∧
    ∀ t, w.requests t ≠ .absent → w.requests t ≠ .dropped →
      ∃ w' result, Run (step codec) (Ahead t) w w' ∧ w'.requests t = .finished result ∧
        ∀ u, u ≠ t → w'.requests u = w.requests u := by
  have attended : w.Attended :=
    reached.invariant (.initial initial) fun attended _ taken => attended.step taken
  refine ⟨fun u holder => ?_, ?_, fun t present kept => attended.finishes present kept⟩
  · exact ⟨Phase.awaits ((attended.coherent u).mpr holder), fun b awaits => awaited_taken codec awaits⟩
  · intro t actions w' present taken
    have descends (w : World) (a : Action) (w' : World)
        (holds : w.Attended ∧ w.requests t ≠ .absent) (taken : step codec w a = some w') :
        (w'.Attended ∧ w'.requests t ≠ .absent) ∧
          w'.remaining t + (if decide (a.call = some t) then 1 else 0) ≤ w.remaining t := by
      obtain ⟨attended, present⟩ := holds
      refine ⟨⟨attended.step taken, present_step present taken⟩, ?_⟩
      by_cases own : a.call = some t
      · simpa [own] using Nat.succ_le_of_lt (attended.remaining_step taken own present)
      · obtain ⟨request, task⟩ := (World.step_frame taken).1 t own
        simp [own, World.remaining, request, task]
    exact ⟨own_steps_le (World.remaining · t) _ descends ⟨attended, present⟩ taken,
      World.remaining_le present⟩

end

namespace Sample
variable (codec : Json.Codec)

/-- Two requests have come, and the second has the mutex. -/
def queued : World :=
  let called := ((start codec).call 0 .getCredentials .fetching).call 1 .getCredentials .fetching
  called.observe (.acquire 1) (called.store.proceed 1 (.reading .getCredentials))

theorem queued_run : Run (step codec) (fun _ _ => True) (start codec) (queued codec) := by
  have first : step codec (start codec) (.arrive 0) = some _ := step_complete codec (.arrive rfl rfl)
  have second : step codec ((start codec).call 0 .getCredentials .fetching) (.arrive 1) = some _ :=
    step_complete codec (.arrive rfl rfl)
  have called : Run (step codec) (fun _ _ => True) (start codec) _ := Run.here.step trivial first
  have waiting := called.step trivial second
  refine waiting.step (a := .store (.acquire 1)) trivial (step_complete codec (.store rfl ?_))
  have here (s : System) : (s.put 1 (.locking (.refresher .getCredentials))).tasks 1 =
    .locking (.refresher .getCredentials) := System.put_tasks_here ..
  exact Credentials.step_complete codec (.acquire rfl (here _))

end Sample

/-- The first of two requests can reach its answer after the second, which was quicker to the
mutex. -/
theorem never_stuck_queued : ∃ w' result,
    Run (step JsonText.codec) (Ahead 0) (Sample.queued JsonText.codec) w' ∧
    w'.requests 0 = .finished result ∧ w'.requests 1 = .fetching := by
  obtain ⟨_, _, answered⟩ := never_stuck JsonText.codec (Sample.initial _) (Sample.queued_run _)
  obtain ⟨w', result, ran, finished, others⟩ := answered 0 (by rintro ⟨⟩) (by rintro ⟨⟩)
  exact ⟨w', result, ran, finished, others 1 (by decide)⟩

end CodexProxy.Upstream
