import CodexProxy.Router.Outcomes

/-! Who removes a pin. A failed request clears its conversation's pin by name, whatever it
says by then; so a pin is removed by a request that did not find it, because it was not
there yet or the lookup failed, or that found it and went to its account or past it. -/
namespace CodexProxy.Router
open Request Transition

/-- The request has looked its pin up and not cleared it. -/
def Stage.looked : Stage → Bool
  | .choosing _ | .sending _ _ | .clearing _ _ => true
  | _ => false

/-- Whatever pin the conversation has, the request has found it, unless another stored it
later or the lookup failed. -/
def World.Looked (w : World) (t : Nat) (key : String) : Prop :=
  ∃ after before found answered, w.log = after ++ .read t key found answered :: before ∧
    ∀ pin, w.state.pin (some key) = some pin →
      (∃ u, u ≠ t ∧ .put u key pin ∈ after) ∨ found = some pin ∨ answered = false

def World.Traced (w : World) : Prop :=
  ∀ t route stage key, w.handlers t = .admitted route stage → stage.looked = true →
    route.key = some key → w.state.affinity ≠ none → w.Looked t key

section
variable {env : Environment} {w w' : World} {a : Action}

/-- Pins that others store do no harm. -/
theorem World.Looked.later {new : List Event} (looked : w.Looked t key)
    (log : w'.log = new ++ w.log)
    (pins : ∀ pin, w'.state.pin (some key) = some pin →
      w.state.pin (some key) = some pin ∨ ∃ u, u ≠ t ∧ .put u key pin ∈ new) : w'.Looked t key := by
  obtain ⟨after, before, found, answered, same, known⟩ := looked
  refine ⟨new ++ after, before, found, answered, by rw [log, same, List.append_assoc], ?_⟩
  intro pin had
  rcases pins pin had with kept | ⟨u, other, stored⟩
  · refine (known pin kept).imp_left ?_
    rintro ⟨u, other, stored⟩
    exact ⟨u, other, List.mem_append_right _ stored⟩
  · exact .inl ⟨u, other, List.mem_append_left _ stored⟩

theorem World.logged_log (w : World) (event : String → Event)
    (stored : w.state.affinity = some store) (key : String) : (w.logged event (some key)).log = event key :: w.log := by
  simp only [logged, stored]

/-- Events are only ever added. -/
theorem World.logged_later (w : World) (event : String → Event) (key : Option String) :
    ∃ new, (w.logged event key).log = new ++ w.log := by
  simp only [logged]
  split
  · exact ⟨[_], rfl⟩
  · exact ⟨[], rfl⟩

/-- Clearing leaves only pins that were there. -/
theorem AppState.pin_of_cleared {state : AppState} {cleared : Option String} {kept : Pin}
    (found : (state.setPin cleared none).pin key = some kept) : state.pin key = some kept := by
  cases known : state.pin key with
  | none =>
    rw [AppState.pin_cleared (.inr known)] at found
    cases found
  | some pin' =>
    cases cleared with
    | none => rwa [setPin, known] at found
    | some cleared =>
      cases key with
      | none => cases known
      | some key =>
        rw [setPin_pin, known] at found
        split at found
        · rw [Option.bind_fun_none] at found
          cases found
        · exact found

/-- Pinning leaves pins that were there and the one that it stores. -/
theorem AppState.pin_of_maybePin {state : AppState} {kept : Pin}
    (found : (state.maybePin route slug source).pin (some key) = some kept) :
    state.pin (some key) = some kept ∨
      route.key = some key ∧ kept = ⟨slug, route.model⟩ ∧ state.affinity.isSome = true := by
  simp only [maybePin] at found
  split at found
  · exact .inl found
  · cases keyed : route.key with
    | none =>
      rw [keyed] at found
      exact .inl found
    | some key' =>
      rw [keyed, setPin_pin] at found
      split at found
      · rename_i same
        obtain ⟨store, stored, stores⟩ := Option.bind_eq_some_iff.mp found
        exact .inr ⟨congrArg some same.symm, (Option.some.inj stores).symm, by simp [stored]⟩
      · exact .inl found

/-- A pin after a step was there before, or the step has stored it. -/
theorem Step.stores (rule : Step env w a w') : ∃ new, w'.log = new ++ w.log ∧
    ∀ key pin, w'.state.pin (some key) = some pin → w.state.pin (some key) = some pin ∨
      ∃ t, a.request = some t ∧ .put t key pin ∈ new := by
  cases rule with
  | read =>
    obtain ⟨new, log⟩ := w.logged_later ..
    exact ⟨new, log, fun key pin found => .inl (by simpa using found)⟩
  | @clear _ _ _ _ answered =>
    refine ⟨[], rfl, fun key pin found => .inl ?_⟩
    cases answered with
    | false => exact found
    | true => exact AppState.pin_of_cleared found
  | expire => exact ⟨[], rfl, fun key pin found => .inl (AppState.pin_of_cleared found)⟩
  | @put t route slug source response here =>
    obtain ⟨new, log⟩ := w.logged_later (.put t · ⟨slug, route.model⟩) route.key
    refine ⟨new, log, fun key pin found => ?_⟩
    rcases AppState.pin_of_maybePin found with known | ⟨keyed, rfl, stored⟩
    · exact .inl known
    · obtain ⟨store, stored⟩ := Option.isSome_iff_exists.mp stored
      rw [keyed, w.logged_log _ stored key] at log
      have stores : [.put t key ⟨slug, route.model⟩] = new := List.append_cancel_right log
      exact .inr ⟨t, rfl, stores ▸ List.mem_singleton_self _⟩
  | _ => exact ⟨[], rfl, fun _ _ found => .inl found⟩

theorem World.Traced.step (traced : w.Traced) (taken : step env w a = some w') : w'.Traced := by
  have rule := step_spec env taken
  intro t route stage key here' looked keyed stored'
  have stored : w.state.affinity ≠ none := fun none => stored' (rule.affinity_none none)
  by_cases own : a.request = some t
  · cases rule with
    | expire => cases own
    | refuse =>
      cases own
      rw [become_here] at here'
      cases here'
    | @read _ _ found answered here read =>
      cases own
      rw [go_here] at here'
      cases here'
      obtain ⟨store, stored⟩ := Option.ne_none_iff_exists'.mp stored
      refine ⟨[], w.log, found, answered, ?_, fun pin had => .inr ?_⟩
      · simp only [go_rest, keyed]
        exact w.logged_log _ stored key
      · simp only [go_rest, logged_rest] at had
        cases answered with
        | false => exact .inr rfl
        | true => exact .inl (by rw [read, if_pos rfl, keyed, had])
    | choose here | fail here =>
      cases own
      rw [go_here] at here'
      cases here'
      have same := (w.log.nil_append).symm
      exact (traced t _ _ key here rfl keyed stored).later same fun _ => .inl
    | _ =>
      cases own
      rw [go_here] at here'
      cases here'
      cases looked
  · rw [(rule.frame own).1] at here'
    obtain ⟨new, log, pins⟩ := rule.stores
    refine (traced t route stage key here' looked keyed stored).later log fun pin found => ?_
    refine (pins key pin found).imp_right ?_
    rintro ⟨u, request, stores⟩
    exact ⟨u, fun same => own (same ▸ request), stores⟩

theorem World.Traced.initial (starts : w.Starts) : w.Traced := by
  intro t route stage key here
  rw [starts.absent] at here
  cases here

theorem traced_run {good : World → Action → Prop} (starts : w₀.Starts)
    (reached : Run (step env) good w₀ w) : w.Traced :=
  reached.invariant (.initial starts) fun traced _ taken => traced.step taken

/-- Only the pin that is set changes. -/
theorem AppState.setPin_changes {state : AppState} {changed : Option String} {pin : Option Pin}
    (differs : (state.setPin changed pin).pin (some key) ≠ state.pin (some key)) :
    changed = some key := by
  cases changed with
  | none => exact (differs rfl).elim
  | some key' =>
    by_contra other
    refine differs ((setPin_pin ..).trans (if_neg ?_))
    rintro rfl
    exact other rfl

theorem AppState.maybePin_ne_none {state : AppState} {kept : Pin}
    (had : state.pin (some key) = some kept) (route : Route) (slug : String) (source : Source) :
    (state.maybePin route slug source).pin (some key) ≠ none := by
  simp only [maybePin]
  split
  · simp [had]
  · cases route.key with
    | none => simp [setPin, had]
    | some key' =>
      obtain ⟨store, stored, _⟩ := Option.bind_eq_some_iff.mp had
      rw [setPin_pin]
      split
      · simp [stored]
      · simp [had]

/-- A pin is removed when it expires, or by a request that failed once and then clears what
its conversation has. That pin was stored by another request after this one had looked it
up, or this one had found it, or its lookup failed. A pin of an account other than the one
that failed, if found, had been passed over. -/
theorem removed_pin (starts : w₀.Starts) (reached : Run (step env) (fun _ _ => True) w₀ w)
    (taken : step env w a = some w') (had : w.state.pin (some key) = some pin)
    (removed : w'.state.pin (some key) = none) :
    a = .expire key ∨ ∃ t route account fallback attempt,
      a = .clear t true ∧ w.handlers t = .admitted route (.clearing account fallback) ∧
      route.key = some key ∧ w.attempts t = [attempt] ∧ attempt.account = account ∧
      ¬ attempt.Terminal ∧
      ∃ after before found answered, w.log = after ++ .read t key found answered :: before ∧
        ((∃ u, u ≠ t ∧ .put u key pin ∈ after) ∨ found = some pin ∨ answered = false) := by
  have changed : w'.state.pin (some key) ≠ w.state.pin (some key) := by
    rw [had, removed]
    rintro ⟨⟩
  have rule := step_spec env taken
  cases rule with
  | @expire key' =>
    left
    obtain ⟨⟩ : some key' = some key := AppState.setPin_changes changed
    rfl
  | @clear t route account fallback answered here =>
    right
    cases answered with
    | false => exact (changed rfl).elim
    | true =>
      have keyed : route.key = some key := AppState.setPin_changes changed
      obtain ⟨attempt, attempts, same, failed, _⟩ :=
        (accounted_run starts reached).1.admitted here
      have stored : w.state.affinity ≠ none := by
        intro none
        simp [AppState.pin, none] at had
      obtain ⟨after, before, found, answered, log, known⟩ :=
        traced_run starts reached t route _ key here rfl keyed stored
      exact ⟨t, route, account, fallback, attempt, rfl, here, keyed, attempts, same, failed,
        after, before, found, answered, log, known pin had⟩
  | put => exact (AppState.maybePin_ne_none had _ _ _ removed).elim
  | read => exact (changed (by simp)).elim
  | _ => exact (changed rfl).elim

end

namespace Sample

/-- Request 1 is answered by the second account between the lookup of request 0 and its
failure on the first. -/
def overtaken : List Action :=
  [arrive 0, arrive 1, .read 0 true, .choose 0 fun _ => 0, .read 1 true, .choose 1 fun _ => 0,
    .respond 1 0 (answer 200), .put 1 true, .respond 0 0 (answer 429)]

theorem overtaken_run : Run (step env) (fun _ _ => True) world (after overtaken) :=
  have taken : overtaken.foldlM (step env) world = some (after overtaken) := rfl
  .replay (fun _ _ _ => trivial) taken

theorem overtaken_cleared :
    step env (after overtaken) (.clear 0 true) = some (after (overtaken ++ [.clear 0 true])) := rfl

/-- Request 1 is answered by the second account, and the first may be tried again. -/
def settled : List Action :=
  [arrive 1, .read 1 true, .choose 1 fun _ => 0, .respond 1 0 (answer 429), .clear 1 true,
    .repick 1 fun _ => 0, .respond 1 0 (answer 200), .put 1 true]

/-- Then the second account fails for a request without a conversation, and request 0
passes the pin over. -/
def passedOver : List Action :=
  settled ++ [.arrive 2 ⟨[], "/v1/responses", none, Text.utf8 "\x7b\x7d"⟩, .read 2 true,
    .choose 2 fun _ => 0, .respond 2 COOLDOWN (answer 500), arrive 0, .read 0 true,
    .choose 0 fun _ => COOLDOWN, .respond 0 COOLDOWN (answer 429)]

/-- The store does not answer request 0. -/
def missed : List Action :=
  settled ++ [arrive 0, .read 0 false, .choose 0 fun _ => COOLDOWN,
    .respond 0 COOLDOWN (answer 429)]

end Sample

/-- Each of the three ways to lose a pin is one that a run takes. -/
example : ∀ actions ∈ [Sample.overtaken, Sample.passedOver, Sample.missed],
    (Sample.after actions).state.pin (some "k") = some ⟨"b", ""⟩ ∧
    (Sample.after (actions ++ [.clear 0 true])).state.pin (some "k") = none := by
  decide +kernel

theorem removed_pin_overtaken : ∃ t route account fallback attempt,
    Action.clear 0 true = .clear t true ∧
    (Sample.after Sample.overtaken).handlers t = .admitted route (.clearing account fallback) ∧
    route.key = some "k" ∧ (Sample.after Sample.overtaken).attempts t = [attempt] ∧
    attempt.account = account ∧ ¬ attempt.Terminal ∧
    ∃ after before found answered,
      (Sample.after Sample.overtaken).log = after ++ .read t "k" found answered :: before ∧
        ((∃ u, u ≠ t ∧ .put u "k" ⟨"b", ""⟩ ∈ after) ∨ found = some ⟨"b", ""⟩ ∨
          answered = false) :=
  (removed_pin Sample.starts Sample.overtaken_run Sample.overtaken_cleared rfl rfl).resolve_left
    (by rintro ⟨⟩)

/-- The pin of the account that has just answered another request goes. -/
theorem newer_pin_removed : ¬ ∀ (env : Environment) (w₀ w w' : World) (t u : Nat) (route : Route)
    (account : Account) (fallback : Fallback) (key : String) (pin : Pin), w₀.Starts →
    Run (step env) (fun _ _ => True) w₀ w → step env w (.clear t true) = some w' →
    w.handlers t = .admitted route (.clearing account fallback) → route.key = some key →
    u ≠ t → .put u key pin ∈ w.log →
    (∃ attempt ∈ w.attempts u, attempt.Terminal ∧ attempt.account.slug = pin.slug) →
    pin.slug ≠ account.slug → w.state.pin (some key) = some pin →
    w'.state.pin (some key) = some pin := by
  intro claimed
  have here : (Sample.after Sample.overtaken).handlers 0 = .admitted Sample.route
    (.clearing ⟨"a", "http://a"⟩ (.ok (.response ⟨429, [], ⟨[], false⟩⟩))) := rfl
  have stored : Event.put 1 "k" ⟨"b", ""⟩ ∈ (Sample.after Sample.overtaken).log := by decide
  have attempts : (Sample.after Sample.overtaken).attempts 1 =
    [Sample.route.attempt ⟨"b", "http://b"⟩ (Sample.answer 200)] := rfl
  have terminal : (Sample.route.attempt ⟨"b", "http://b"⟩ (Sample.answer 200)).Terminal := by
    simp [Attempt.Terminal, Attempt.Unhealthy, Attempt.Gated, PodResponse.TierGated,
      Route.attempt, Sample.answer, BAD_REQUEST]
  have succeeded : ∃ attempt ∈ (Sample.after Sample.overtaken).attempts 1,
      attempt.Terminal ∧ attempt.account.slug = "b" :=
    ⟨_, attempts ▸ List.mem_singleton_self _, terminal, rfl⟩
  have kept := claimed _ _ _ _ 0 1 _ _ _ "k" ⟨"b", ""⟩ Sample.starts Sample.overtaken_run
    Sample.overtaken_cleared here rfl (by decide) stored succeeded (by decide) rfl
  exact absurd kept (by decide)

end CodexProxy.Router
