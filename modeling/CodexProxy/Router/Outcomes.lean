import CodexProxy.Router.Proxy
import CodexProxy.Library.Transition
import CodexProxy.Library.ReferenceCodec

/-! What requests that are handled one after another leave behind: their attempts and
answers, the accounts that cool, and the pins of their conversations. -/
namespace CodexProxy.Router
open Request Transition

/-- Nothing has arrived, and nothing cools. The store may have pins. -/
structure World.Starts (w : World) : Prop where
  absent : ∀ t, w.handlers t = .absent
  unattempted : ∀ t, w.attempts t = []
  log : w.log = []
  healthy : ∀ pool, w.state.accounts = some pool →
    (∀ slug, pool.cooldownUntil slug = none) ∧ ∀ pair, pool.modelCooldownUntil pair = none

/-- Not under way. -/
def Handler.settled : Handler → Bool
  | .absent | .refused _ | .admitted _ (.done _) => true
  | .admitted _ _ => false

/-- A request arrives when no other is under way, and the store answers. -/
def OneByOne (w : World) : Action → Prop
  | .arrive _ _ => ∀ t, (w.handlers t).settled = true
  | .read _ answered | .clear _ answered | .put _ answered => answered = true
  | .choose _ _ | .respond _ _ _ | .repick _ _ | .expire _ => True

/-- One attempt or two, at different accounts. -/
structure Tried (attempts : List Attempt) : Prop where
  made : attempts ≠ []
  few : attempts.length ≤ 2
  distinct : (attempts.map (·.account.slug)).Nodup

/-- An error if no pod answered, otherwise one of the answers. -/
def Answers (attempts : List Attempt) : Except ApiError Response → Prop
  | .error _ => ∀ attempt ∈ attempts, ∃ message, attempt.result = .error message
  | .ok response => ∃ attempt ∈ attempts, ∃ resp,
    attempt.result = .ok resp ∧ response = resp.relayed

/-- What cools was tried and failed, at the scope at which it cools. -/
structure World.Cools (w : World) (pool : AccountPool) : Prop where
  account : ∀ slug, pool.cooldownUntil slug ≠ none →
    ∃ t, ∃ attempt ∈ w.attempts t, attempt.account.slug = slug ∧ attempt.Unhealthy
  model : ∀ slug model, pool.modelCooldownUntil (slug, model) ≠ none →
    ∃ t, ∃ attempt ∈ w.attempts t,
      attempt.account.slug = slug ∧ attempt.model = model ∧ attempt.Gated

/-- The conversation has the pin that the last attempt calls for. -/
def World.Pinned (w : World) (t : Nat) (route : Route) : Prop :=
  ∀ key store, route.key = some key → w.state.affinity = some store →
    ∃ last, (w.attempts t).head? = some last ∧
      (last.Terminal → store key = some ⟨last.account.slug, route.model⟩) ∧
      (¬ last.Terminal → store key = none)

theorem Tried.once (attempt : Attempt) : Tried [attempt] := ⟨by simp, by simp, by simp⟩

theorem Tried.twice {first second : Attempt} (other : second.account.slug ≠ first.account.slug) :
    Tried [second, first] := ⟨by simp, by simp, by simp [other]⟩

/-- There was one attempt, and it failed. -/
def FailedOnce (account : Account) (fallback : Fallback) (attempts : List Attempt) : Prop :=
  ∃ attempt, attempts = [attempt] ∧ attempt.account = account ∧ ¬ attempt.Terminal ∧
    attempt.Leaves fallback

/-- What the attempts of an admitted request are, by where it is. -/
def Stage.Accounts (attempts : List Attempt) : Stage → Prop
  | .looking | .choosing _ | .sending _ _ => attempts = []
  | .clearing account fallback | .repicking account fallback =>
    FailedOnce account fallback attempts
  | .resending account fallback alt =>
    FailedOnce account fallback attempts ∧ alt.slug ≠ account.slug
  | .pinning slug _ response =>
    Tried attempts ∧ ∃ last, attempts.head? = some last ∧ last.Terminal ∧
      last.account.slug = slug ∧ ∃ resp, last.result = .ok resp ∧ response = resp.relayed
  | .done result => Tried attempts ∧ Answers attempts result

def Handler.Accounts (attempts : List Attempt) : Handler → Prop
  | .absent | .refused _ => attempts = []
  | .admitted _ stage => stage.Accounts attempts

def World.Accounted (w : World) : Prop := ∀ t, (w.handlers t).Accounts (w.attempts t)

/-- What was kept of failed attempts is the answer; the message is for no answer at all. -/
theorem Answers.fallback {attempts : List Attempt} {attempt : Attempt} {fallback : Fallback}
    (made : attempt ∈ attempts) (leaves : attempt.Leaves fallback)
    (others : ∀ other ∈ attempts, other ≠ attempt → ∃ message, other.result = .error message)
    (message : String) : Answers attempts (fallbackOr message fallback) := by
  cases fallback with
  | ok body =>
    obtain ⟨resp, answered, same⟩ := leaves
    exact ⟨attempt, made, resp, answered, same⟩
  | error unreached =>
    intro other member
    by_cases same : other = attempt
    · exact ⟨unreached, same ▸ leaves⟩
    · exact others other member same

section
variable {env : Environment} {w w' : World} {a : Action}

theorem World.Accounted.admitted (accounted : w.Accounted)
    (here : w.handlers t = .admitted route stage) : stage.Accounts (w.attempts t) := by
  have known := accounted t
  rwa [here] at known

/-- Where a step leaves its own request. -/
theorem accounts_go (w : World) (t : Nat) (route : Route) (stage : Stage) :
    ((w.go t route stage).handlers t).Accounts ((w.go t route stage).attempts t) ↔
      stage.Accounts (w.attempts t) := by
  rw [World.go_here]
  rfl

theorem FailedOnce.of_classify (attempt : Attempt)
    (failed : classify attempt.result = .retry fallback tierGate) :
    FailedOnce attempt.account fallback [attempt] :=
  ⟨attempt, rfl, rfl, attempt.not_terminal_of_classify failed,
    (attempt.failed_of_classify failed).2⟩

theorem World.Accounted.step (accounted : w.Accounted) (taken : step env w a = some w') :
    w'.Accounted := by
  have rule := step_spec env taken
  intro u
  by_cases own : a.request = some u
  · cases rule with
    | expire => cases own
    | refuse here =>
      cases own
      have unattempted := accounted u
      rw [here] at unattempted
      rw [World.become_here]
      exact unattempted
    | accept here =>
      cases own
      have unattempted := accounted u
      rw [here] at unattempted
      exact (accounts_go ..).mpr unattempted
    | read here =>
      cases own
      simp only [accounts_go, World.logged_rest]
      have unattempted : w.attempts u = [] := accounted.admitted here
      exact unattempted
    | choose here =>
      cases own
      have unattempted : w.attempts u = [] := accounted.admitted here
      exact (accounts_go ..).mpr unattempted
    | @finish u route account source result response now here final =>
      cases own
      have unattempted : w.attempts u = [] := accounted.admitted here
      rw [accounts_go, World.tried_here, unattempted]
      obtain ⟨terminal, answer⟩ := (route.attempt account result).terminal_of_classify final
      exact ⟨.once _, _, rfl, terminal, rfl, answer⟩
    | @fail u route account source pool result fallback tierGate now here _ failed =>
      cases own
      have unattempted : w.attempts u = [] := accounted.admitted here
      simp only [accounts_go, World.withPool_rest, World.tried_here, unattempted]
      exact .of_classify (route.attempt account result) failed
    | @finishAgain u route account fallback alt result response now here final =>
      cases own
      obtain ⟨⟨first, attempts, rfl, _, _⟩, other⟩ := accounted.admitted here
      obtain ⟨terminal, answer⟩ := (route.attempt alt result).terminal_of_classify final
      rw [accounts_go, World.tried_here, attempts]
      exact ⟨.twice other, _, rfl, terminal, rfl, answer⟩
    | @failAgain u route account fallback alt pool result body tierGate now here _ failed =>
      cases own
      obtain ⟨⟨first, attempts, rfl, _, _⟩, other⟩ := accounted.admitted here
      obtain ⟨_, resp, answered, same⟩ := (route.attempt alt result).failed_of_classify failed
      simp only [accounts_go, World.withPool_rest, World.tried_here, attempts]
      exact ⟨.twice other, _, List.mem_cons_self, resp, answered, same⟩
    | @loseAgain u route account fallback alt result message tierGate now here failed =>
      cases own
      obtain ⟨⟨first, attempts, rfl, _, leaves⟩, other⟩ := accounted.admitted here
      obtain ⟨_, unreached⟩ := (route.attempt alt result).failed_of_classify failed
      simp only [accounts_go, World.tried_here, attempts]
      refine ⟨.twice other, .fallback (by simp) leaves ?_ _⟩
      intro second member apart
      obtain rfl | same := List.mem_cons.mp member
      · exact ⟨message, unreached⟩
      · exact (apart (List.mem_singleton.mp same)).elim
    | clear here =>
      cases own
      have failed := accounted.admitted here
      exact (accounts_go ..).mpr failed
    | repick here _ _ other =>
      cases own
      have failed := accounted.admitted here
      exact (accounts_go ..).mpr ⟨failed, other⟩
    | single here =>
      cases own
      obtain ⟨attempt, attempts, rfl, _, leaves⟩ := accounted.admitted here
      simp only [accounts_go, World.withPool_rest, attempts]
      refine ⟨.once _, .fallback (by simp) leaves ?_ _⟩
      intro other member apart
      exact (apart (List.mem_singleton.mp member)).elim
    | put here =>
      cases own
      obtain ⟨tried, last, latest, _, _, resp, answered, same⟩ := accounted.admitted here
      simp only [accounts_go, World.withState_rest, World.logged_rest]
      exact ⟨tried, last, List.mem_of_mem_head? latest, resp, answered, same⟩
    | putLost here =>
      cases own
      obtain ⟨tried, last, latest, _, _, resp, answered, same⟩ := accounted.admitted here
      exact (accounts_go ..).mpr ⟨tried, last, List.mem_of_mem_head? latest, resp, answered, same⟩
  · obtain ⟨handler, attempts⟩ := rule.frame own
    rw [handler, attempts]
    exact accounted u

def World.Cooling (w : World) : Prop := ∀ pool, w.state.accounts = some pool → w.Cools pool

theorem World.Cools.mono {pool pool' : AccountPool} (cools : w.Cools pool)
    (kept : ∀ t, w.attempts t ⊆ w'.attempts t)
    (same : pool'.cooldownUntil = pool.cooldownUntil ∧
      pool'.modelCooldownUntil = pool.modelCooldownUntil) : w'.Cools pool' where
  account slug cooling := by
    obtain ⟨t, attempt, made, failed⟩ := cools.account slug (same.1 ▸ cooling)
    exact ⟨t, attempt, kept t made, failed⟩
  model slug model cooling := by
    obtain ⟨t, attempt, made, failed⟩ := cools.model slug model (same.2 ▸ cooling)
    exact ⟨t, attempt, kept t made, failed⟩

/-- A failed attempt accounts for what is cooled after it. -/
theorem World.Cools.cool {pool : AccountPool} {attempt : Attempt} (cools : w.Cools pool)
    (made : attempt ∈ w.attempts t)
    (failed : if tierGate then attempt.Gated else attempt.Unhealthy) (now : Instant) :
    w.Cools (pool.cool attempt.account.slug attempt.model tierGate now) := by
  cases tierGate with
  | false =>
    refine ⟨fun slug cooling => ?_, cools.model⟩
    by_cases same : slug = attempt.account.slug
    · exact ⟨t, attempt, made, same.symm, failed⟩
    · refine cools.account slug ?_
      simpa [AccountPool.cool, AccountPool.cooldown, same] using cooling
  | true =>
    simp only [AccountPool.cool, AccountPool.cooldownModel, if_true]
    split
    · exact cools
    · refine ⟨cools.account, fun slug model cooling => ?_⟩
      by_cases same : (slug, model) = (attempt.account.slug, attempt.model)
      · obtain ⟨slug, model⟩ := Prod.mk.inj same
        exact ⟨t, attempt, made, slug.symm, model.symm, failed⟩
      · refine cools.model slug model ?_
        simpa only [Function.update_of_ne same] using cooling

theorem World.Cooling.step (cooling : w.Cooling) (taken : step env w a = some w') :
    w'.Cooling := by
  have rule := step_spec env taken
  have kept := rule.attempts_subset
  -- most steps leave the pool alone
  have unchanged (same : w'.state.accounts = w.state.accounts) : w'.Cooling :=
    fun pool accounts => (cooling pool (same ▸ accounts)).mono kept ⟨rfl, rfl⟩
  cases rule with
  | refuse | accept | finish | finishAgain | loseAgain | putLost => exact unchanged rfl
  | read => exact unchanged (by simp)
  | clear =>
    refine unchanged ?_
    simp only [World.go_rest, World.withState_rest]
    split
    · exact AppState.setPin_accounts ..
    · rfl
  | put => exact unchanged (AppState.maybePin_accounts ..)
  | expire => exact unchanged (AppState.setPin_accounts ..)
  | choose _ accounts chosen =>
    rintro pool' ⟨⟩
    exact (cooling _ accounts).mono kept (AccountPool.primary_cooldownUntil chosen)
  | repick _ accounts picked | single _ accounts picked =>
    rintro pool' ⟨⟩
    exact (cooling _ accounts).mono kept (AccountPool.pick_cooldownUntil picked)
  | @fail t route account _ _ result _ _ _ _ accounts failed =>
    rintro pool' ⟨⟩
    obtain ⟨scope, _⟩ := (route.attempt account result).failed_of_classify failed
    have made : route.attempt account result ∈ (w.tried t route account result).attempts t := by
      simp
    exact ((cooling _ accounts).mono kept ⟨rfl, rfl⟩).cool made scope _
  | @failAgain t route _ _ alt _ result _ _ _ _ accounts failed =>
    rintro pool' ⟨⟩
    obtain ⟨scope, _⟩ := (route.attempt alt result).failed_of_classify failed
    have made : route.attempt alt result ∈ (w.tried t route alt result).attempts t := by simp
    exact ((cooling _ accounts).mono kept ⟨rfl, rfl⟩).cool made scope _

/-- The request has failed once and cleared its pin. -/
def Stage.failed : Stage → Bool
  | .repicking _ _ | .resending _ _ _ => true
  | _ => false

def Stage.source : Stage → Option Source
  | .sending _ source | .pinning _ source _ => some source
  | _ => none

structure World.InTurn (w : World) : Prop where
  alone : ∀ t u, (w.handlers t).settled = false → (w.handlers u).settled = false → t = u
  unpinned : ∀ t route stage, w.handlers t = .admitted route stage → stage.failed = true →
    w.state.pin route.key = none
  /-- A request is routed without the store only when there is none. -/
  unstored : ∀ t route stage, w.handlers t = .admitted route stage →
    stage.source = some .fallback → w.state.affinity = none

/-- A request takes steps while it is under way. -/
theorem Step.under_way (rule : Step env w a w') (own : a.request = some t) :
    (∃ inbound, a = .arrive t inbound) ∨ (w.handlers t).settled = false := by
  cases rule with
  | expire => cases own
  | refuse | accept => cases own; exact .inl ⟨_, rfl⟩
  | read here | choose here | finish here | fail here | finishAgain here | failAgain here
  | loseAgain here | clear here | repick here | single here | put here | putLost here =>
    cases own
    right
    rw [here]
    rfl

/-- After a step of one request, no other is under way. -/
theorem World.InTurn.own (inTurn : w.InTurn) (allowed : OneByOne w a) (rule : Step env w a w')
    (own : a.request = some t) (unsettled : (w'.handlers u).settled = false) : u = t := by
  by_contra other
  have apart : a.request ≠ some u := by
    rw [own]
    rintro ⟨⟩
    exact other rfl
  rw [(rule.frame apart).1] at unsettled
  rcases rule.under_way own with ⟨inbound, rfl⟩ | busy
  · have settled := allowed u
    rw [unsettled] at settled
    cases settled
  · exact other (inTurn.alone u t unsettled busy)

theorem World.pin_withPool (w : World) (pool : AccountPool) (key : Option String) :
    (w.withPool pool).state.pin key = w.state.pin key := by
  cases key <;> rfl

theorem World.InTurn.unpinned_step (inTurn : w.InTurn) (allowed : OneByOne w a)
    (rule : Step env w a w') (here' : w'.handlers t = .admitted route stage)
    (failed : stage.failed = true) : w'.state.pin route.key = none := by
  have unsettled : (w'.handlers t).settled = false := by
    rw [here']
    cases stage with
    | repicking | resending => rfl
    | _ => cases failed
  cases own : a.request with
  | none =>
    have unpinned := inTurn.unpinned t route stage
    cases rule with
    | expire => exact AppState.pin_cleared (.inr (unpinned here' failed))
    | _ => cases own
  | some s =>
    obtain rfl := inTurn.own allowed rule own unsettled
    cases rule with
    | expire => cases own
    | refuse =>
      cases own
      rw [World.become_here] at here'
      cases here'
    | clear =>
      cases own
      rw [World.go_here] at here'
      cases here'
      obtain rfl := allowed
      exact AppState.pin_cleared (.inl rfl)
    | repick here =>
      cases own
      rw [World.go_here] at here'
      cases here'
      simp only [World.go_rest]
      rw [World.pin_withPool]
      exact inTurn.unpinned _ _ _ here rfl
    | _ =>
      cases own
      rw [World.go_here] at here'
      cases here'
      cases failed

theorem AccountPool.primary_fallback {pool pool' : AccountPool} {clock : Nat → Instant}
    (chosen : pool.primary stored clock slug model = (some (account, .fallback), pool')) :
    stored = false := by
  simp only [primary] at chosen
  split at chosen
  · cases chosen
  · rw [Prod.mk.injEq, Option.map_eq_some_iff] at chosen
    obtain ⟨⟨_, _, same⟩, _⟩ := chosen
    cases stored with
    | false => rfl
    | true => cases same

theorem World.InTurn.unstored_step (inTurn : w.InTurn) (rule : Step env w a w')
    (here' : w'.handlers t = .admitted route stage) (source : stage.source = some .fallback) :
    w'.state.affinity = none := by
  by_cases own : a.request = some t
  · cases rule with
    | expire => cases own
    | refuse =>
      cases own
      rw [World.become_here] at here'
      cases here'
    | choose _ _ chosen =>
      cases own
      rw [World.go_here] at here'
      cases here'
      cases source
      exact Option.not_isSome_iff_eq_none.mp (by simp [AccountPool.primary_fallback chosen])
    | finish here =>
      cases own
      rw [World.go_here] at here'
      cases here'
      cases source
      exact inTurn.unstored _ _ _ here rfl
    | _ =>
      cases own
      rw [World.go_here] at here'
      cases here'
      cases source
  · rw [(rule.frame own).1] at here'
    exact rule.affinity_none (inTurn.unstored t route stage here' source)

theorem World.InTurn.step (inTurn : w.InTurn) (allowed : OneByOne w a)
    (taken : step env w a = some w') : w'.InTurn := by
  have rule := step_spec env taken
  refine ⟨fun t u first second => ?_, fun t route stage here' failed =>
    inTurn.unpinned_step allowed rule here' failed, fun t route stage here' source =>
    inTurn.unstored_step rule here' source⟩
  cases own : a.request with
  | some s =>
    rw [inTurn.own allowed rule own first, inTurn.own allowed rule own second]
  | none =>
    cases rule with
    | expire => exact inTurn.alone t u first second
    | _ => cases own

theorem World.Pinned.failed (unpinned : w.state.pin route.key = none)
    (latest : (w.attempts t).head? = some last) (failed : ¬ last.Terminal) : w.Pinned t route := by
  intro key store keyed stored
  refine ⟨last, latest, fun terminal => (failed terminal).elim, fun _ => ?_⟩
  simpa [AppState.pin, keyed, stored] using unpinned

theorem AppState.maybePin_pin {state : AppState} {store : AffinityStore}
    (other : source ≠ .fallback) (keyed : route.key = some key)
    (stored : (state.maybePin route slug source).affinity = some store) :
    store key = some ⟨slug, route.model⟩ := by
  simp only [maybePin, if_neg other, keyed, setPin, Option.map_eq_some_iff] at stored
  obtain ⟨_, _, rfl⟩ := stored
  exact Function.update_self ..

/-- The step that ends a request leaves the pin that its last attempt calls for. -/
theorem World.Pinned.of_step (accounted : w.Accounted) (inTurn : w.InTurn)
    (allowed : OneByOne w a) (rule : Step env w a w') (busy : (w.handlers t).settled = false)
    (ended : w'.handlers t = .admitted route (.done result)) : w'.Pinned t route := by
  have own : a.request = some t := by
    by_contra other
    rw [← (rule.frame other).1, ended] at busy
    cases busy
  cases rule with
  | expire => cases own
  | refuse =>
    cases own
    rw [become_here] at ended
    cases ended
  | @failAgain t route account fallback alt pool result body tierGate now here _ failed =>
    cases own
    rw [go_here] at ended
    cases ended
    refine .failed ?_ (by simp) ((route.attempt alt result).not_terminal_of_classify failed)
    simp only [go_rest]
    rw [pin_withPool]
    exact inTurn.unpinned _ _ _ here rfl
  | @loseAgain t route account fallback alt result message tierGate now here failed =>
    cases own
    rw [go_here] at ended
    cases ended
    refine .failed ?_ (by simp) ((route.attempt alt result).not_terminal_of_classify failed)
    exact inTurn.unpinned _ _ _ here rfl
  | single here =>
    cases own
    rw [go_here] at ended
    cases ended
    obtain ⟨attempt, attempts, _, failed, _⟩ := accounted.admitted here
    refine .failed ?_ (by simp [attempts]) failed
    simp only [go_rest]
    rw [pin_withPool]
    exact inTurn.unpinned _ _ _ here rfl
  | put here =>
    cases own
    rw [go_here] at ended
    cases ended
    obtain ⟨_, last, latest, terminal, rfl, _⟩ := accounted.admitted here
    intro key store keyed stored
    refine ⟨last, by simpa using latest, fun _ => ?_, fun failed => (failed terminal).elim⟩
    refine AppState.maybePin_pin ?_ keyed stored
    rintro rfl
    have none := inTurn.unstored _ _ _ here rfl
    simp [AppState.maybePin, none] at stored
  | putLost => cases allowed
  | _ =>
    cases own
    rw [go_here] at ended
    cases ended

theorem World.Accounted.initial (starts : w.Starts) : w.Accounted := by
  intro t
  rw [starts.absent, starts.unattempted]
  rfl

theorem World.Cooling.initial (starts : w.Starts) : w.Cooling := by
  intro pool accounts
  obtain ⟨healthy, ungated⟩ := starts.healthy pool accounts
  exact ⟨fun slug cooling => (cooling (healthy slug)).elim,
    fun slug model cooling => (cooling (ungated (slug, model))).elim⟩

theorem World.InTurn.initial (starts : w.Starts) : w.InTurn where
  alone t u unsettled := by
    rw [starts.absent] at unsettled
    cases unsettled
  unpinned t route stage here := by
    rw [starts.absent] at here
    cases here
  unstored t route stage here := by
    rw [starts.absent] at here
    cases here

/-- Whatever the interleaving, the attempts of a request suit where it is. -/
theorem accounted_run {good : World → Action → Prop} (starts : w₀.Starts)
    (reached : Run (step env) good w₀ w) : w.Accounted ∧ w.Cooling :=
  ⟨reached.invariant (.initial starts) fun accounted _ taken => accounted.step taken,
    reached.invariant (.initial starts) fun cooling _ taken => cooling.step taken⟩

theorem inTurn_run (starts : w₀.Starts) (reached : Run (step env) OneByOne w₀ w) : w.InTurn :=
  reached.invariant (.initial starts) fun inTurn allowed taken => inTurn.step allowed taken

/-- A request under way or done has made two attempts at most, and done at least one. -/
def Handler.Reported (attempts : List Attempt) : Handler → Prop
  | .absent | .refused _ => attempts = []
  | .admitted _ (.done result) => Tried attempts ∧ Answers attempts result
  | .admitted _ _ => attempts = [] ∨ Tried attempts

theorem FailedOnce.tried {attempts : List Attempt} (failed : FailedOnce account fallback attempts) :
    Tried attempts := by
  obtain ⟨attempt, rfl, _⟩ := failed
  exact .once attempt

theorem Handler.Accounts.reported {attempts : List Attempt} {handler : Handler}
    (accounts : handler.Accounts attempts) : handler.Reported attempts := by
  cases handler with
  | absent | refused => exact accounts
  | admitted route stage =>
    cases stage with
    | looking | choosing | sending => exact .inl accounts
    | clearing | repicking => exact .inr (FailedOnce.tried accounts)
    | resending => exact .inr accounts.1.tried
    | pinning => exact .inr accounts.1
    | done => exact accounts

/-- Requests that are handled one after another: each that gets past the handler's guards
makes one attempt or two at different accounts, and a refused one makes none; what cools
has failed; and a request leaves its conversation pinned to the account of its last
attempt if that was final, and otherwise unpinned. -/
theorem outcomes (starts : w₀.Starts) (reached : Run (step env) OneByOne w₀ w) :
    (∀ t, (w.handlers t).Reported (w.attempts t)) ∧
    (∀ pool, w.state.accounts = some pool → w.Cools pool) ∧
    ∀ a w' t route result, OneByOne w a → step env w a = some w' →
      (w.handlers t).settled = false → w'.handlers t = .admitted route (.done result) →
      w'.Pinned t route := by
  obtain ⟨accounted, cooling⟩ := accounted_run starts reached
  have inTurn := inTurn_run starts reached
  refine ⟨fun t => (accounted t).reported, cooling, ?_⟩
  intro a w' t route result allowed taken busy ended
  exact .of_step accounted inTurn allowed (step_spec env taken) busy ended

end

namespace Sample

def env : Environment := ⟨JsonText.codec, "", "", id⟩

/-- Two accounts, of which the first is next. -/
def pool : AccountPool :=
  ⟨[⟨"a", "http://a"⟩, ⟨"b", "http://b"⟩], 0, fun _ => none, fun _ => none, by decide, by decide⟩

def world : World :=
  ⟨⟨some pool, some "secret", some fun _ => none⟩, fun _ => .absent, fun _ => [], []⟩

theorem starts : world.Starts where
  absent _ := rfl
  unattempted _ := rfl
  log := rfl
  healthy := by
    rintro _ ⟨⟩
    exact ⟨fun _ => rfl, fun _ => rfl⟩

def inbound (body : String) : Inbound :=
  ⟨[("x-conversation-id", Text.utf8 "k")], "/v1/responses", none, Text.utf8 body⟩

/-- A request with an empty object. -/
def arrive (t : Nat) : Action := .arrive t (inbound "\x7b\x7d")

def route : Route :=
  ⟨some "k", "", "/v1/responses", "secret", (inbound "").headers, Text.utf8 "\x7b\x7d"⟩

def answer (status : Nat) : Except SendError PodResponse := .ok ⟨status, [], ⟨[], false⟩⟩

/-- Where actions lead. -/
def after (actions : List Action) : World := (actions.foldlM (step env) world).getD world

/-- The first account is rate-limited and the second answers. -/
def repinning : List Action :=
  [.read 0 true, .choose 0 fun _ => 0, .respond 0 0 (answer 429), .clear 0 true,
    .repick 0 fun _ => 0, .respond 0 0 (answer 200)]

end Sample

/-- The second account's answer is final and the conversation is pinned to it. -/
theorem outcomes_repinned : ∃ w w' response, Run (step Sample.env) OneByOne Sample.world w ∧
    step Sample.env w (.put 0 true) = some w' ∧
    w'.handlers 0 = .admitted Sample.route (.done (.ok response)) ∧ w'.Pinned 0 Sample.route := by
  have alone : OneByOne Sample.world (Sample.arrive 0) := fun _ => rfl
  have arrived : step Sample.env Sample.world (Sample.arrive 0) =
    some (Sample.world.go 0 Sample.route .looking) := rfl
  have allowed : ∀ a ∈ Sample.repinning, ∀ w, OneByOne w a := by
    simp [Sample.repinning, OneByOne]
  let w := Sample.after (Sample.arrive 0 :: Sample.repinning)
  have reached : Run (step Sample.env) OneByOne Sample.world w :=
    .head alone arrived (.replay allowed rfl)
  have taken : step Sample.env w (.put 0 true) =
    some (Sample.after (Sample.arrive 0 :: Sample.repinning ++ [.put 0 true])) := rfl
  have answers : OneByOne w (.put 0 true) := rfl
  exact ⟨w, _, ⟨200, [], ⟨[], false⟩⟩, reached, taken, rfl,
    (outcomes Sample.starts reached).2.2 _ _ _ _ _ answers taken rfl rfl⟩

/-- A request whose body is not JSON is answered without an attempt. -/
theorem refused_without_attempt : ¬ ∀ (env : Environment) (w₀ w : World) (t : Nat), w₀.Starts →
    Run (step env) OneByOne w₀ w → w.handlers t ≠ .absent → (w.handlers t).settled = true →
    (w.attempts t).length = 1 ∨ (w.attempts t).length = 2 := by
  intro claimed
  let w := Sample.world.become 0 (.refused (.badRequest "Failed to parse request body"))
  have alone : OneByOne Sample.world (.arrive 0 (Sample.inbound "")) := fun _ => rfl
  have arrived : step Sample.env Sample.world (.arrive 0 (Sample.inbound "")) = some w := rfl
  have refused : w.handlers 0 = .refused (.badRequest "Failed to parse request body") := rfl
  have attempted := claimed Sample.env Sample.world w 0 Sample.starts (.step .here alone arrived)
    (by rw [refused]; rintro ⟨⟩) (by rw [refused]; rfl)
  exact absurd attempted (by decide)

end CodexProxy.Router
