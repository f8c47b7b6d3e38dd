import CodexProxy.Router.Interleavings

/-! What the router is for: a conversation stays at its account. As long as its account does
not fail it and is not cooling when it is chosen, every request of the conversation goes to
that account, whatever becomes of other conversations in between. -/
namespace CodexProxy.Router
open Request Transition

/-- The request is of the conversation. -/
def World.Concerns (w : World) (key : String) (t : Nat) : Prop :=
  ∃ route stage, w.handlers t = .admitted route stage ∧ route.key = some key

/-- The conversation is not disturbed: its lookups are answered, its account does not cool
when it is chosen, its attempts get final answers, and its pin does not expire. -/
def Smooth (key slug : String) (w : World) : Action → Prop
  | .read t answered => w.Concerns key t → answered = true
  | .choose t clock => ∀ route stage pool, w.handlers t = .admitted route stage →
      route.key = some key → w.state.accounts = some pool →
      pool.isCooling slug (clock 0) = false ∧ pool.isModelCooling slug route.model (clock 1) = false
  | .respond t _ result => w.Concerns key t → ∃ response, classify result = .terminal response
  | .expire key' => key' ≠ key
  | _ => True

/-- A request of the conversation is on its way to the account, or past it. -/
def Stage.At (slug : String) : Stage → Prop
  | .looking | .done _ => True
  | .choosing found => found = some slug
  | .sending account _ => account.slug = slug
  | .pinning slug' _ _ => slug' = slug
  | .clearing _ _ | .repicking _ _ | .resending _ _ _ => False

/-- The pin names the account, and nothing of the conversation is elsewhere. -/
structure World.Sticks (key slug : String) (w : World) : Prop where
  pinned : ∃ pin, w.state.pin (some key) = some pin ∧ pin.slug = slug
  known : ∃ account ∈ w.state.pods, account.slug = slug
  here : ∀ t route stage, w.handlers t = .admitted route stage → route.key = some key →
    stage.At slug
  attempts : ∀ t, w.Concerns key t → ∀ attempt ∈ w.attempts t,
    attempt.account.slug = slug ∧ attempt.Terminal
  /-- Nobody else has attempts yet. -/
  fresh : ∀ t, w.handlers t = .absent → w.attempts t = []

section
variable {env : Environment} {w w' : World} {a : Action}

/-- A pin that is known and not cooling is taken. -/
theorem AccountPool.primary_pinned {pool pool' : AccountPool} {clock : Nat → Instant}
    (chosen : pool.primary stored clock (some slug) model = (some (account, source), pool'))
    (cool : pool.isCooling slug (clock 0) = false)
    (ungated : pool.isModelCooling slug model (clock 1) = false)
    (known : ∃ account ∈ pool.accounts, account.slug = slug) : account.slug = slug := by
  obtain ⟨account', member, same⟩ := known
  have found : (pool.accounts.find? (·.slug = slug)).isSome := by
    rw [List.find?_isSome]
    exact ⟨account', member, by simpa using same⟩
  obtain ⟨pinned, found⟩ := Option.isSome_iff_exists.mp found
  have live : pool.pinned clock slug model = some pinned := by
    simp only [AccountPool.pinned, cool, ungated, Bool.or_self, Bool.false_eq_true, if_false, found]
  simp only [primary, Option.bind_some, live] at chosen
  cases chosen
  simpa using List.find?_some found

/-- Pins of other conversations come and go. -/
theorem AppState.setPin_other {state : AppState} {changed : Option String} {pin : Option Pin}
    (other : changed ≠ some key) : (state.setPin changed pin).pin (some key) = state.pin (some key) := by
  by_contra differs
  exact other (AppState.setPin_changes differs)

theorem World.Sticks.pinned_step (sticks : w.Sticks key slug) (allowed : Smooth key slug w a)
    (rule : Step env w a w') : ∃ pin, w'.state.pin (some key) = some pin ∧ pin.slug = slug := by
  have kept (same : w'.state.pin (some key) = w.state.pin (some key)) :
      ∃ pin, w'.state.pin (some key) = some pin ∧ pin.slug = slug :=
    same ▸ sticks.pinned
  cases rule with
  | read => exact kept (by simp)
  | @clear t route account fallback answered here =>
    cases answered with
    | false => exact kept rfl
    | true =>
      refine kept (AppState.setPin_other ?_)
      exact fun keyed => sticks.here t route _ here keyed
  | expire =>
    refine kept (AppState.setPin_other ?_)
    rintro ⟨⟩
    exact allowed rfl
  | @put t route slug' source response here =>
    by_cases keyed : route.key = some key
    · obtain rfl : slug' = slug := sticks.here t route _ here keyed
      simp only [go_rest, withState_rest, AppState.maybePin]
      split
      · exact sticks.pinned
      · rw [keyed, AppState.setPin_pin, if_pos rfl]
        obtain ⟨pin, found, _⟩ := sticks.pinned
        obtain ⟨store, stored, _⟩ := Option.bind_eq_some_iff.mp found
        exact ⟨⟨slug', route.model⟩, by rw [stored]; rfl, rfl⟩
    · refine kept ?_
      simp only [go_rest, withState_rest, AppState.maybePin]
      split
      · rfl
      · exact AppState.setPin_other keyed
  | fail | failAgain => exact kept (World.pin_withPool ..)
  | choose | repick | single => exact kept (w.pin_withPool ..)
  | _ => exact kept rfl

theorem World.Sticks.here_step (sticks : w.Sticks key slug) (allowed : Smooth key slug w a)
    (rule : Step env w a w') (here' : w'.handlers t = .admitted route stage)
    (keyed : route.key = some key) : stage.At slug := by
  by_cases own : a.request = some t
  · cases rule with
    | expire => cases own
    | refuse =>
      cases own
      rw [become_here] at here'
      cases here'
    | accept | put | putLost =>
      cases own
      rw [go_here] at here'
      cases here'
      trivial
    | read here looked =>
      cases own
      rw [go_here] at here'
      cases here'
      obtain ⟨pin, found, rfl⟩ := sticks.pinned
      obtain rfl := allowed ⟨route, .looking, here, keyed⟩
      rw [looked, if_pos rfl, keyed, found]
      rfl
    | choose here accounts chosen =>
      cases own
      rw [go_here] at here'
      cases here'
      obtain rfl := sticks.here _ _ _ here keyed
      obtain ⟨cool, ungated⟩ := allowed _ _ _ here keyed accounts
      refine AccountPool.primary_pinned chosen cool ungated ?_
      rw [← AppState.pods_eq rfl accounts]
      exact sticks.known
    | finish here =>
      cases own
      rw [go_here] at here'
      cases here'
      have sent := sticks.here _ _ _ here keyed
      exact sent
    | fail here _ failed =>
      cases own
      rw [go_here] at here'
      cases here'
      obtain ⟨response, final⟩ := allowed ⟨_, _, here, keyed⟩
      rw [failed] at final
      cases final
    | finishAgain here | failAgain here | loseAgain here | clear here | repick here | single here =>
      cases own
      rw [go_here] at here'
      cases here'
      exact (sticks.here _ _ _ here keyed).elim
  · rw [(rule.frame own).1] at here'
    exact sticks.here t route stage here' keyed

theorem World.Sticks.attempts_step (sticks : w.Sticks key slug) (allowed : Smooth key slug w a)
    (rule : Step env w a w') (concerns : w'.Concerns key t) :
    ∀ attempt ∈ w'.attempts t, attempt.account.slug = slug ∧ attempt.Terminal := by
  obtain ⟨route, stage, here', keyed⟩ := concerns
  by_cases own : a.request = some t
  · cases rule with
    | expire => cases own
    | refuse =>
      cases own
      rw [become_here] at here'
      cases here'
    | accept here =>
      cases own
      simp only [go_rest, sticks.fresh t here, List.not_mem_nil, false_implies, implies_true]
    | read here | put here =>
      cases own
      rw [go_here] at here'
      cases here'
      simpa using sticks.attempts t ⟨_, _, here, keyed⟩
    | choose here | clear here | repick here | single here | putLost here =>
      cases own
      rw [go_here] at here'
      cases here'
      exact sticks.attempts t ⟨_, _, here, keyed⟩
    | @finish _ _ account _ result _ _ here final =>
      cases own
      rw [go_here] at here'
      cases here'
      simp only [go_rest, tried_here, List.forall_mem_cons]
      refine ⟨⟨sticks.here _ _ _ here keyed, ?_⟩, sticks.attempts t ⟨_, _, here, keyed⟩⟩
      exact ((route.attempt account result).terminal_of_classify final).1
    | fail here _ failed =>
      cases own
      rw [go_here] at here'
      cases here'
      obtain ⟨response, final⟩ := allowed ⟨_, _, here, keyed⟩
      rw [failed] at final
      cases final
    | finishAgain here | failAgain here | loseAgain here =>
      cases own
      rw [go_here] at here'
      cases here'
      exact (sticks.here _ _ _ here keyed).elim
  · obtain ⟨handler, attempts⟩ := rule.frame own
    rw [handler] at here'
    rw [attempts]
    exact sticks.attempts t ⟨route, stage, here', keyed⟩

/-- A request that has not arrived stays without attempts. -/
theorem Step.fresh (rule : Step env w a w') (fresh : ∀ t, w.handlers t = .absent → w.attempts t = [])
    (absent : w'.handlers t = .absent) : w'.attempts t = [] := by
  by_cases own : a.request = some t
  · cases rule with
    | expire => cases own
    | refuse =>
      cases own
      rw [World.become_here] at absent
      cases absent
    | _ =>
      cases own
      rw [World.go_here] at absent
      cases absent
  · obtain ⟨handler, attempts⟩ := rule.frame own
    rw [attempts]
    exact fresh t (handler ▸ absent)

theorem World.Sticks.step (sticks : w.Sticks key slug) (allowed : Smooth key slug w a)
    (taken : step env w a = some w') : w'.Sticks key slug := by
  have rule := step_spec env taken
  refine ⟨sticks.pinned_step allowed rule, ?_, fun t route stage here keyed =>
    sticks.here_step allowed rule here keyed, fun t concerns => sticks.attempts_step allowed rule concerns,
    fun t absent => rule.fresh sticks.fresh absent⟩
  rw [AppState.pods, rule.setting]
  exact sticks.known

/-- Two attempts are at different accounts. -/
theorem Tried.at_one {attempts : List Attempt} (tried : Tried attempts)
    (same : ∀ attempt ∈ attempts, attempt.account.slug = slug) : ∃ attempt, attempts = [attempt] := by
  obtain ⟨first, rest, rfl⟩ := List.exists_cons_of_ne_nil tried.made
  cases rest with
  | nil => exact ⟨first, rfl⟩
  | cons second rest =>
    have distinct := tried.distinct
    simp [same first (by simp), same second (by simp)] at distinct

/-- A conversation with a pin at one of the accounts stays there, whatever the interleaving:
while it is not disturbed, all attempts of all its requests are at that account, their
answers are the account's own, and the pin keeps naming it. -/
theorem sticky (starts : w₀.Starts) (pinned : w₀.state.pin (some key) = some pin)
    (known : ∃ account ∈ w₀.state.pods, account.slug = pin.slug)
    (reached : Run (step env) (Smooth key pin.slug) w₀ w) :
    (∀ t, w.Concerns key t → ∀ attempt ∈ w.attempts t, attempt.account.slug = pin.slug) ∧
    (∀ t route result, w.handlers t = .admitted route (.done result) → route.key = some key →
      ∃ attempt resp, w.attempts t = [attempt] ∧ attempt.account.slug = pin.slug ∧
        attempt.result = .ok resp ∧ result = .ok resp.relayed) ∧
    ∃ pin', w.state.pin (some key) = some pin' ∧ pin'.slug = pin.slug := by
  have initially : w₀.Sticks key pin.slug := {
    pinned := ⟨pin, pinned, rfl⟩
    known := known
    here := by
      intro t route stage here
      rw [starts.absent] at here
      cases here
    attempts := by
      rintro t ⟨route, stage, here, _⟩
      rw [starts.absent] at here
      cases here
    fresh := fun t _ => starts.unattempted t }
  have sticks : w.Sticks key pin.slug :=
    reached.invariant initially fun sticks allowed taken => sticks.step allowed taken
  refine ⟨fun t concerns attempt made => (sticks.attempts t concerns attempt made).1, ?_,
    sticks.pinned⟩
  intro t route result here keyed
  have attempts := sticks.attempts t ⟨route, _, here, keyed⟩
  obtain ⟨tried, answers⟩ := (accounted_run starts reached).1.admitted here
  obtain ⟨attempt, single⟩ := tried.at_one fun attempt made => (attempts attempt made).1
  have made : attempt ∈ w.attempts t := single ▸ List.mem_singleton_self _
  obtain ⟨same, final⟩ := attempts attempt made
  cases result with
  | error =>
    obtain ⟨message, unreached⟩ := answers attempt made
    exact (final.1 (by simp [Attempt.Unhealthy, unreached])).elim
  | ok response =>
    obtain ⟨other, made', resp, answered, rfl⟩ := answers
    rw [single, List.mem_singleton] at made'
    exact ⟨attempt, resp, single, same, made' ▸ answered, rfl⟩

end

namespace Sample

/-- The conversation is at the second account. -/
def returning : World :=
  ⟨⟨some pool, some "secret", some (Function.update (fun _ => none) "k" (some ⟨"b", ""⟩))⟩,
    fun _ => .absent, fun _ => [], []⟩

theorem returning_starts : returning.Starts where
  absent _ := rfl
  unattempted _ := rfl
  log := rfl
  healthy := starts.healthy

/-- Where actions lead from there. -/
def afterwards (actions : List Action) : World := (actions.foldlM (step env) returning).getD returning

/-- The request finds the pin. -/
def asking : List Action := [arrive 0, .read 0 true]

/-- Its account answers. -/
def answering : List Action := [.respond 0 0 (answer 200), .put 0 true]

theorem answering_run : Run (step env) (Smooth "k" "b") returning
    (afterwards (asking ++ .choose 0 (fun _ => 0) :: answering)) := by
  have asked : ∀ a ∈ asking, ∀ w, Smooth "k" "b" w a := by
    simp [asking, arrive, Smooth]
  have answered : ∀ a ∈ answering, ∀ w, Smooth "k" "b" w a := by
    have final : ∃ response, classify (answer 200) = .terminal response := ⟨_, rfl⟩
    simp [answering, Smooth, final]
  have cool : Smooth "k" "b" (afterwards asking) (.choose 0 fun _ => 0) := by
    rintro _ _ _ _ _ ⟨⟩
    exact ⟨rfl, by simp [AccountPool.isModelCooling, pool]⟩
  have found : asking.foldlM (step env) returning = some (afterwards asking) := rfl
  have chosen : step env (afterwards asking) (.choose 0 fun _ => 0) =
    some (afterwards (asking ++ [.choose 0 fun _ => 0])) := rfl
  have returned : answering.foldlM (step env) (afterwards (asking ++ [.choose 0 fun _ => 0])) =
    some (afterwards (asking ++ .choose 0 (fun _ => 0) :: answering)) := rfl
  exact ((Run.replay asked found).step cool chosen).trans (.replay answered returned)

end Sample

/-- The second account answers the request although the first is next. -/
theorem sticky_returning : ∃ attempt resp,
    (Sample.afterwards (Sample.asking ++ .choose 0 (fun _ => 0) :: Sample.answering)).attempts 0 =
      [attempt] ∧ attempt.account.slug = "b" ∧ attempt.result = .ok resp := by
  have known : ⟨"b", "http://b"⟩ ∈ Sample.returning.state.pods := by
    simp [AppState.pods, AppState.setting, Sample.returning, Sample.pool]
  have pinned : Sample.returning.state.pin (some "k") = some ⟨"b", ""⟩ := rfl
  have sticks := sticky Sample.returning_starts pinned ⟨_, known, rfl⟩ Sample.answering_run
  obtain ⟨attempt, resp, single, same, answered, _⟩ := sticks.2.1 0 Sample.route _ rfl rfl
  exact ⟨attempt, resp, single, same, answered⟩

end CodexProxy.Router
