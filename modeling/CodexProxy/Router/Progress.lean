import CodexProxy.Router.Outcomes

/-! No request waits for another. A request that is under way is always at one step, which
can be taken whatever the others do and whatever the store and the pods answer; and a
request takes eight steps at most. -/
namespace CodexProxy.Router
open Request Transition

/-- The step that a request is at, whatever comes of it. -/
inductive Stage.Awaits (t : Nat) : Stage → Action → Prop where
  | read : Awaits t .looking (.read t answered)
  | choose : Awaits t (.choosing slug) (.choose t clock)
  | respond {source : Source} : Awaits t (.sending account source) (.respond t now result)
  | clear : Awaits t (.clearing account fallback) (.clear t answered)
  | repick : Awaits t (.repicking account fallback) (.repick t clock)
  | respondAgain : Awaits t (.resending account fallback alt) (.respond t now result)
  | put {source : Source} : Awaits t (.pinning slug source response) (.put t answered)

/-- The most steps that are left. -/
def Stage.remaining : Stage → Nat
  | .looking => 7
  | .choosing _ => 6
  | .sending _ _ => 5
  | .clearing _ _ => 4
  | .repicking _ _ => 3
  | .resending _ _ _ => 2
  | .pinning _ _ _ => 1
  | .done _ => 0

def Handler.remaining : Handler → Nat
  | .absent => 8
  | .refused _ => 0
  | .admitted _ stage => stage.remaining

theorem Stage.Awaits.request {stage : Stage} (awaits : stage.Awaits t a) : a.request = some t := by
  cases awaits <;> rfl

section
variable {env : Environment} {w w' : World} {a : Action}

/-- The step that a request is at can be taken. -/
theorem Stage.Awaits.taken {stage : Stage} (awaits : stage.Awaits t a)
    (here : w.handlers t = .admitted route stage) (accounts : w.state.accounts = some pool) :
    ∃ w', step env w a = some w' := by
  cases awaits with
  | read | clear | put =>
    simp only [step, here]
    exact ⟨_, rfl⟩
  | choose =>
    simp only [step, here, accounts]
    split <;> exact ⟨_, rfl⟩
  | respond =>
    simp only [step, here, accounts]
    split <;> exact ⟨_, rfl⟩
  | repick =>
    simp only [step, here, accounts]
    split
    · split <;> exact ⟨_, rfl⟩
    · exact ⟨_, rfl⟩
  | respondAgain =>
    simp only [step, here, accounts]
    split <;> exact ⟨_, rfl⟩

/-- A request that is under way is at a step. -/
theorem Stage.awaits (t : Nat) (stage : Stage) :
    (∃ a, stage.Awaits t a) ∨ ∃ result, stage = .done result := by
  cases stage with
  | looking => exact .inl ⟨.read t true, .read⟩
  | choosing => exact .inl ⟨.choose t fun _ => 0, .choose⟩
  | sending => exact .inl ⟨.respond t 0 (.error ""), .respond⟩
  | clearing => exact .inl ⟨.clear t true, .clear⟩
  | repicking => exact .inl ⟨.repick t fun _ => 0, .repick⟩
  | resending => exact .inl ⟨.respond t 0 (.error ""), .respondAgain⟩
  | pinning => exact .inl ⟨.put t true, .put⟩
  | done result => exact .inr ⟨result, rfl⟩

/-- A step takes its own request further. -/
theorem Step.remaining_lt (rule : Step env w a w') (own : a.request = some t) :
    (w'.handlers t).remaining < (w.handlers t).remaining := by
  cases rule with
  | expire => cases own
  | refuse here =>
    cases own
    rw [here, World.become_here]
    simp [Handler.remaining]
  | accept here | read here | choose here | finish here | fail here | finishAgain here
  | failAgain here | loseAgain here | clear here | repick here | single here | put here
  | putLost here =>
    cases own
    rw [here, World.go_here]
    simp [Handler.remaining, Stage.remaining]

/-- An admitted request stays admitted, with what was worked out for it. -/
theorem Step.admitted (rule : Step env w a w') (here : w.handlers t = .admitted route stage) :
    ∃ stage', w'.handlers t = .admitted route stage' := by
  by_cases own : a.request = some t
  · cases rule with
    | expire => cases own
    | refuse here' | accept here' =>
      cases own
      rw [here'] at here
      cases here
    | read here' | choose here' | finish here' | fail here' | finishAgain here'
    | failAgain here' | loseAgain here' | clear here' | repick here' | single here' | put here'
    | putLost here' =>
      cases own
      rw [here'] at here
      cases here
      exact ⟨_, World.go_here ..⟩
  · exact ⟨stage, (rule.frame own).1 ▸ here⟩

/-- The accounts that a router routes to, and its key. -/
def AppState.setting (state : AppState) : Option (List Account) × Option String :=
  (state.accounts.map (·.accounts), state.adminApiKey)

theorem AccountPool.cool_accounts (pool : AccountPool) (slug model : String) (tierGate : Bool)
    (now : Instant) : (pool.cool slug model tierGate now).accounts = pool.accounts := by
  cases tierGate with
  | false => rfl
  | true =>
    simp only [cool, cooldownModel, if_true]
    split <;> rfl

theorem AccountPool.pick_accounts {pool pool' : AccountPool} {clock : Nat → Instant}
    (picked : pool.pick clock exclude model = (account, pool')) :
    pool'.accounts = pool.accounts := by
  simp only [pick, if_neg pool.filled] at picked
  cases picked
  rfl

theorem AccountPool.primary_accounts {pool pool' : AccountPool} {clock : Nat → Instant}
    (chosen : pool.primary stored clock slug model = (account, pool')) :
    pool'.accounts = pool.accounts := by
  simp only [primary] at chosen
  split at chosen
  · cases chosen
    rfl
  · cases chosen
    exact pick_accounts Prod.mk.eta.symm

theorem AppState.setPin_setting (state : AppState) (key : Option String) (pin : Option Pin) :
    (state.setPin key pin).setting = state.setting := by
  cases key <;> rfl

theorem AppState.maybePin_setting (state : AppState) (route : Route) (slug : String)
    (source : Source) : (state.maybePin route slug source).setting = state.setting := by
  simp only [maybePin]
  split
  · rfl
  · exact state.setPin_setting ..

theorem World.withPool_setting (w : World) {pool pool' : AccountPool}
    (accounts : w.state.accounts = some pool) (same : pool'.accounts = pool.accounts) :
    (w.withPool pool').state.setting = w.state.setting := by
  simp [AppState.setting, World.withPool, World.withState, accounts, same]

/-- The accounts and the key are those that the router was started with. -/
theorem Step.setting (rule : Step env w a w') : w'.state.setting = w.state.setting := by
  cases rule with
  | choose _ accounts chosen =>
    exact w.withPool_setting accounts (AccountPool.primary_accounts chosen)
  | repick _ accounts picked | single _ accounts picked =>
    exact w.withPool_setting accounts (AccountPool.pick_accounts picked)
  | fail _ accounts | failAgain _ accounts =>
    exact (World.withPool_setting _ accounts (AccountPool.cool_accounts ..))
  | read => simp
  | clear =>
    simp only [World.go_rest, World.withState_rest]
    split
    · exact AppState.setPin_setting ..
    · rfl
  | put => exact AppState.maybePin_setting ..
  | expire => exact AppState.setPin_setting ..
  | _ => rfl

/-- Any step leaves a request no more steps than it had. -/
theorem remaining_step (t : Nat) (w : World) (a : Action) (w' : World)
    (taken : step env w a = some w') :
    (w'.handlers t).remaining + (if a.request = some t then 1 else 0) ≤
      (w.handlers t).remaining := by
  have rule := step_spec env taken
  by_cases own : a.request = some t
  · rw [if_pos own]
    exact rule.remaining_lt own
  · rw [if_neg own, (rule.frame own).1]
    exact Nat.le_refl _

/-- Only a router with accounts admits a request. -/
def World.Served (w : World) : Prop :=
  ∀ t route stage, w.handlers t = .admitted route stage → ∃ pool, w.state.accounts = some pool

theorem World.Served.step (served : w.Served) (taken : step env w a = some w') : w'.Served := by
  have rule := step_spec env taken
  intro t route stage here'
  have kept (pool : AccountPool) (accounts : w.state.accounts = some pool) :
      ∃ pool', w'.state.accounts = some pool' := by
    have same := congrArg Prod.fst rule.setting
    simp only [AppState.setting, accounts] at same
    obtain ⟨pool', accounts', _⟩ := Option.map_eq_some_iff.mp same
    exact ⟨pool', accounts'⟩
  by_cases own : a.request = some t
  · cases rule with
    | expire => cases own
    | refuse =>
      cases own
      rw [become_here] at here'
      cases here'
    | @accept _ inbound route _ guarded =>
      rw [Router.accept] at guarded
      cases accounts : w.state.accounts with
      | none => simp [accounts] at guarded
      | some pool => exact kept pool accounts
    | read here | choose here | finish here | fail here | finishAgain here | failAgain here
    | loseAgain here | clear here | repick here | single here | put here | putLost here =>
      obtain ⟨pool, accounts⟩ := served _ _ _ here
      exact kept pool accounts
  · rw [(rule.frame own).1] at here'
    obtain ⟨pool, accounts⟩ := served t route stage here'
    exact kept pool accounts

theorem served_run {good : World → Action → Prop} (starts : w₀.Starts)
    (reached : Run (Router.step env) good w₀ w) : w.Served := by
  refine reached.invariant ?_ fun served _ taken => served.step taken
  intro t route stage here
  rw [starts.absent] at here
  cases here

/-- Steps of one request, with the rest where it is. -/
theorem finishes (served : w.Served) (here : w.handlers t = .admitted route stage) :
    ∃ w' result, Run (step env) (fun _ a => a.request = some t) w w' ∧
      w'.handlers t = .admitted route (.done result) ∧
      ∀ u, u ≠ t → w'.handlers u = w.handlers u ∧ w'.attempts u = w.attempts u := by
  let inv (w' : World) : Prop := w'.Served ∧ (∃ stage', w'.handlers t = .admitted route stage') ∧
    ∀ u, u ≠ t → w'.handlers u = w.handlers u ∧ w'.attempts u = w.attempts u
  have descends (w₁ : World) (holds : inv w₁) (busy : (w₁.handlers t).remaining ≠ 0) :
      ∃ a w₂, a.request = some t ∧ step env w₁ a = some w₂ ∧ inv w₂ ∧
        (w₂.handlers t).remaining < (w₁.handlers t).remaining := by
    obtain ⟨served₁, ⟨stage₁, here₁⟩, others⟩ := holds
    rcases stage₁.awaits t with ⟨a, awaits⟩ | ⟨result, rfl⟩
    · obtain ⟨pool, accounts⟩ := served₁ t route stage₁ here₁
      obtain ⟨w₂, taken⟩ : ∃ w₂, step env w₁ a = some w₂ := awaits.taken here₁ accounts
      have rule := step_spec env taken
      refine ⟨a, w₂, awaits.request, taken, ⟨served₁.step taken, rule.admitted here₁, ?_⟩,
        rule.remaining_lt awaits.request⟩
      intro u other
      have apart : a.request ≠ some u := by
        rw [awaits.request]
        rintro ⟨⟩
        exact other rfl
      obtain ⟨handler, attempts⟩ := rule.frame apart
      obtain ⟨handler', attempts'⟩ := others u other
      exact ⟨handler.trans handler', attempts.trans attempts'⟩
    · rw [here₁] at busy
      exact (busy rfl).elim
  have initially : inv w := ⟨served, ⟨stage, here⟩, fun _ _ => ⟨rfl, rfl⟩⟩
  obtain ⟨w', reached, ⟨_, ⟨stage', here'⟩, others⟩, none⟩ := Run.settles _ descends initially
  rcases stage'.awaits t with ⟨a, awaits⟩ | ⟨result, rfl⟩
  · rw [here'] at none
    cases awaits <;> cases none
  · exact ⟨w', result, reached, here', others⟩

/-- Under every interleaving: a request that is under way can take the step that it is at,
whatever is answered to it, so nobody blocks it; it takes at most the steps that its place
leaves it, eight in all; and it gets its answer by its own steps alone, which leave the
other requests where they are. -/
theorem unblocked (starts : w₀.Starts) (reached : Run (step env) (fun _ _ => True) w₀ w) :
    (∀ t route stage, w.handlers t = .admitted route stage →
      ∀ a, stage.Awaits t a → ∃ w', step env w a = some w') ∧
    (∀ t (actions : List Action) (w' : World), actions.foldlM (step env) w = some w' →
      actions.countP (·.request = some t) + (w'.handlers t).remaining ≤
        (w.handlers t).remaining ∧ (w.handlers t).remaining ≤ 8) ∧
    ∀ t route stage, w.handlers t = .admitted route stage →
      ∃ w' result, Run (step env) (fun _ a => a.request = some t) w w' ∧
        w'.handlers t = .admitted route (.done result) ∧
        ∀ u, u ≠ t → w'.handlers u = w.handlers u ∧ w'.attempts u = w.attempts u := by
  have served := served_run starts reached
  refine ⟨?_, ?_, fun t route stage here => finishes served here⟩
  · intro t route stage here a awaits
    obtain ⟨pool, accounts⟩ := served t route stage here
    exact awaits.taken here accounts
  · intro t actions w' taken
    constructor
    · have descends (w : World) (a : Action) (w' : World) (_ : True)
          (taken : step env w a = some w') : True ∧ (w'.handlers t).remaining +
            (if decide (a.request = some t) then 1 else 0) ≤ (w.handlers t).remaining :=
        ⟨trivial, by simpa using remaining_step t w a w' taken⟩
      exact own_steps_le (fun w => (w.handlers t).remaining) _ descends trivial taken
    · cases w.handlers t with
      | absent | refused => simp [Handler.remaining]
      | admitted route stage => cases stage <;> simp [Handler.remaining, Stage.remaining]

end

/-- A request whose first account was rate-limited and whose second has just answered. -/
theorem unblocked_refused : ∃ w' result, Run (step Sample.env) (fun _ a => a.request = some 0)
      (Sample.after (Sample.arrive 0 :: Sample.repinning)) w' ∧
    w'.handlers 0 = .admitted Sample.route (.done result) := by
  have reached : Run (step Sample.env) (fun _ _ => True) Sample.world
      (Sample.after (Sample.arrive 0 :: Sample.repinning)) :=
    have taken : (Sample.arrive 0 :: Sample.repinning).foldlM (step Sample.env) Sample.world =
      some (Sample.after (Sample.arrive 0 :: Sample.repinning)) := rfl
    .replay (fun _ _ _ => trivial) taken
  obtain ⟨w', result, own, ended, _⟩ :=
    (unblocked Sample.starts reached).2.2 0 Sample.route _ rfl
  exact ⟨w', result, own, ended⟩

end CodexProxy.Router
