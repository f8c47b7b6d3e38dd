import CodexProxy.Credentials.Calls
import CodexProxy.Credentials.Rotation
import CodexProxy.Credentials.Tokens
import CodexProxy.Upstream.Retry

/-! A rejected access token is not sent again. By the time of the second POST the
request's own refresh has replaced it in the file, and nothing that could bring it back
is on its way. -/
namespace CodexProxy.Upstream
open Credentials Transition

section
variable {β : Type} (view : String → β) (codec : Json.Codec) (origin : File)

/-- What may happen to a request, up to any point. -/
inductive Trail : List Event → Prop where
  | begun : Trail []
  | posted : Trail [.posted first]
  | replied : Trail [.posted first, .replied status]
  | persisted : Trail [.posted first, .replied UNAUTHORIZED, .persisted token]
  | refreshed : Trail [.posted first, .replied UNAUTHORIZED, .persisted token, .refreshed]
  | reposted (different : view second.token ≠ view first.token) : Trail
      [.posted first, .replied UNAUTHORIZED, .persisted token, .refreshed, .posted second]
  | answered (different : view second.token ≠ view first.token) : Trail
      [.posted first, .replied UNAUTHORIZED, .persisted token, .refreshed, .posted second,
        .replied status]

/-- How far a request has come, by where it is suspended. -/
def Request.Tracked (s : System) (phase : Phase) (history : List Event) : Request → Prop
  | .absent | .fetching => history = []
  | .sending initial => history = [.posted initial] ∧ s.Settled view codec origin initial.token
  | .refreshing initial => s.Settled view codec origin initial.token ∧
    (history = [.posted initial, .replied UNAUTHORIZED] ∧ ¬ phase.Persisted ∨
      ∃ token, history = [.posted initial, .replied UNAUTHORIZED, .persisted token] ∧
        phase.Written ∧ s.Replaced view codec initial.token)
  | .refetching initial => s.Settled view codec origin initial.token ∧
    s.Replaced view codec initial.token ∧
    (∀ token ∈ phase.held, view token ≠ view initial.token) ∧ ∃ token,
      history = [.posted initial, .replied UNAUTHORIZED, .persisted token, .refreshed]
  | .resending initial refreshed => view refreshed.token ≠ view initial.token ∧ ∃ token, history =
      [.posted initial, .replied UNAUTHORIZED, .persisted token, .refreshed, .posted refreshed]
  | .finished _ | .dropped => Trail view history

structure Tracked (w : World) : Prop where
  tokens : Tokens view codec origin w.store
  /-- A request that waits for the store has a call there, and the others have none. -/
  serves : ∀ t op, (w.requests t).calls = some op → (w.store.tasks t).Serves op
  idle : ∀ t, (w.requests t).calls = none → w.requests t ≠ .absent → w.store.tasks t = .idle
  tracked : ∀ t, (w.requests t).Tracked view codec origin w.store (w.store.tasks t) (w.history t)

/-- The endpoint repeats no access token, and nothing is pushed. -/
def Unrepeated (w : World) : Action → Prop
  | .store a => Distinct view codec origin w.store a
  | _ => True

/-- No request has come, and no call is under way. -/
structure Initial (w : World) : Prop where
  requests : ∀ t, w.requests t = .absent
  history : ∀ t, w.history t = []
  idle : ∀ t, w.store.tasks t = .idle
  free : w.store.holder = none
  renames : w.store.renames = []

end

section
variable {β : Type} {view : String → β} {codec : Json.Codec} {origin : File} {w w' : World}

theorem Request.Tracked.trail {request : Request} {s : System} {phase : Phase}
    {history : List Event} (tracked : request.Tracked view codec origin s phase history) :
    Trail view history := by
  cases request with
  | absent | fetching => exact tracked ▸ .begun
  | sending => exact tracked.1 ▸ .posted
  | refreshing =>
    obtain ⟨_, ⟨rfl, _⟩ | ⟨token, rfl, _⟩⟩ := tracked
    · exact .replied
    · exact .persisted
  | refetching =>
    obtain ⟨_, _, _, token, rfl⟩ := tracked
    exact .refreshed
  | resending =>
    obtain ⟨different, token, rfl⟩ := tracked
    exact .reposted different
  | finished | dropped => exact tracked

/-- What others do to the store changes nothing for a request. -/
theorem Request.Tracked.keep {request : Request} {s s' : System} {t : Nat} {history : List Event}
    (tracked : request.Tracked view codec origin s (s.tasks t) history)
    (effect : Effect view codec origin s s')
    (persisted : ∀ initial, request = .refreshing initial → (s'.tasks t).Persisted →
      (s.tasks t).Persisted)
    (written : ∀ initial, request = .refreshing initial → (s.tasks t).Written →
      (s'.tasks t).Written) :
    request.Tracked view codec origin s' (s'.tasks t) history := by
  cases request with
  | sending => exact ⟨tracked.1, effect.settled tracked.2⟩
  | refreshing initial =>
    obtain ⟨settled, ⟨early, unwritten⟩ | ⟨token, late, done, replaced⟩⟩ := tracked
    · exact ⟨effect.settled settled, .inl ⟨early, fun now => unwritten (persisted _ rfl now)⟩⟩
    · exact ⟨effect.settled settled, .inr ⟨token, late, written _ rfl done,
        effect.replaced settled replaced⟩⟩
  | refetching initial =>
    obtain ⟨settled, replaced, avoids, late⟩ := tracked
    exact ⟨effect.settled settled, effect.replaced settled replaced,
      effect.avoids settled replaced avoids, late⟩
  | _ => exact tracked

/-- A POST is the first event, or comes after the refresh that the first one forced. -/
theorem Trail.orderly {history before : List Event} {second : Credentials}
    (trail : Trail view history) (posted : before ++ [.posted second] <+: history) :
    before = [] ∨ ∃ first token,
      before = [.posted first, .replied UNAUTHORIZED, .persisted token, .refreshed] ∧
      view second.token ≠ view first.token := by
  obtain ⟨rest, rfl⟩ := posted
  generalize whole : before ++ [.posted second] ++ rest = history at trail
  -- by the number of events before the POST
  rcases before with _ | ⟨a, _ | ⟨b, _ | ⟨c, _ | ⟨d, _ | ⟨e, _ | ⟨f, before⟩⟩⟩⟩⟩⟩
  · exact .inl rfl
  all_goals cases trail <;> simp_all

def Event.isPost : Event → Bool
  | .posted _ => true
  | _ => false

theorem Trail.countP_le {history : List Event} (trail : Trail view history) :
    history.countP Event.isPost ≤ 2 := by
  cases trail <;> simp [List.countP_cons, Event.isPost]

theorem Tracked.effect (tracked : Tracked view codec origin w) {a : Action}
    (unrepeated : Unrepeated view codec origin w a) (taken : step codec w a = some w') :
    Effect view codec origin w.store w'.store ∧ Tokens view codec origin w'.store := by
  have tokens := tracked.tokens
  -- a request takes a result or makes a call where it has nothing under way
  have put {t : Nat} {phase phase' : Phase} (here : w.store.tasks t = phase)
      (outside : phase.holds = false) (outside' : phase'.holds = false) (held : phase'.held = none)
      (shaped : phase'.Shaped) : Effect view codec origin w.store (w.store.put t phase') ∧
        Tokens view codec origin (w.store.put t phase') :=
    ⟨tokens.effect_put (here ▸ outside) held, tokens.put (here ▸ outside) outside' held shaped⟩
  have sent {t : Nat} (here : (w.requests t).sent = true) : w.store.tasks t = .idle := by
    cases request : w.requests t with
    | sending | resending => exact tracked.idle t (by rw [request]; rfl) (by simp [request])
    | _ => simp [request, Request.sent] at here
  cases step_spec codec taken with
  | store permitted moved =>
    rw [World.observe_store]
    exact ⟨tokens.effect unrepeated moved, tokens.step unrepeated moved⟩
  | arrive here free => exact put free rfl rfl rfl trivial
  | refreshed here returned => exact put returned rfl rfl rfl trivial
  | fetched _ returned | refetched _ returned | refreshFailed _ returned
  | fetchFailed _ returned => exact put returned rfl rfl rfl trivial
  | unauthorized here => exact put (sent (by rw [here]; rfl)) rfl rfl rfl trivial
  | answered here | answeredAgain here => exact put (sent (by rw [here]; rfl)) rfl rfl rfl trivial
  | lose here => exact put (sent here) rfl rfl rfl trivial
  | dropPost here => exact ⟨tokens.effect_refl, tokens⟩
  | drop here moved => exact
    ⟨tokens.effect (a := .drop _) trivial moved, tokens.step (a := .drop _) trivial moved⟩

/-- One request goes on. -/
theorem Tracked.advance (tracked : Tracked view codec origin w)
    (effect : Effect view codec origin w.store w'.store)
    (tokens : Tokens view codec origin w'.store) {t : Nat}
    (others : ∀ u, u ≠ t → w.Untouched w' u)
    (serves : ∀ op, (w'.requests t).calls = some op → (w'.store.tasks t).Serves op)
    (idle : (w'.requests t).calls = none → w'.requests t ≠ .absent → w'.store.tasks t = .idle)
    (here : (w'.requests t).Tracked view codec origin w'.store (w'.store.tasks t) (w'.history t)) :
    Tracked view codec origin w' where
  tokens := tokens
  serves u := by
    by_cases same : u = t
    · exact same ▸ serves
    · obtain ⟨request, _, task⟩ := others u same
      rw [request, task]
      exact tracked.serves u
  idle u := by
    by_cases same : u = t
    · exact same ▸ idle
    · obtain ⟨request, _, task⟩ := others u same
      rw [request, task]
      exact tracked.idle u
  tracked u := by
    by_cases same : u = t
    · exact same ▸ here
    · obtain ⟨request, history, task⟩ := others u same
      rw [request, history]
      exact (tracked.tracked u).keep effect (fun _ _ => task ▸ id) (fun _ _ => task ▸ id)

/-- The write of a forced refresh replaces the rejected token. -/
theorem Request.Tracked.rename {s s' : System} {t : Nat} {initial : Credentials} {job : Job}
    {auth : FsAuth} {history : List Event} (tokens : Tokens view codec origin s)
    (here : s.tasks t = .dispatched job auth)
    (tracked : (Request.refreshing initial).Tracked view codec origin s (s.tasks t) history)
    (effect : Effect view codec origin s s') (file : s'.file = some (auth.toVecPretty codec))
    (task : s'.tasks t = .syncing job) :
    (Request.refreshing initial).Tracked view codec origin s' (s'.tasks t)
      (history ++ [.persisted job.accessToken]) := by
  obtain ⟨settled, ⟨rfl, _⟩ | ⟨_, _, written, _⟩⟩ := tracked
  · refine ⟨effect.settled settled, .inr ⟨job.accessToken, rfl, ?_, ?_⟩⟩
    · rw [task]
      trivial
    · intro stored read
      rw [file] at read
      rw [storedAccess_written (here ▸ tokens.shaped t) read]
      exact settled.ne_carried (tokens.released here rfl rfl).1
  · rw [here] at written
    exact written.elim

theorem Tracked.store (tracked : Tracked view codec origin w) {a : Credentials.Action}
    {store : System} (permitted : w.permits a = true)
    (distinct : Distinct view codec origin w.store a)
    (moved : Credentials.step codec w.store a = some store) :
    Tracked view codec origin (w.observe a store) := by
  have effect := tracked.tokens.effect distinct moved
  have mine {u : Nat} (request : w.requests u ≠ .absent) : a ≠ .drop u ∧ ∀ op, a ≠ .start u op := by
    constructor
    · rintro rfl
      cases here : w.requests u <;> simp [World.permits, here] at permitted request
    · rintro op rfl
      cases here : w.requests u <;> simp [World.permits, here] at permitted request
  constructor
  · rw [World.observe_store]
    exact tracked.tokens.step distinct moved
  · intro u op calls
    rw [World.observe_requests] at calls
    rw [World.observe_store]
    refine (tracked.serves u op calls).step (mine ?_).1 moved
    intro absent
    rw [absent] at calls
    cases calls
  · intro u
    rw [World.observe_requests, World.observe_store]
    intro calls request
    exact idle_step (tracked.idle u calls request) (mine request).2 moved
  · intro u
    rw [World.observe_requests, World.observe_store]
    by_cases renames : a = .rename u ∧ ∃ initial, w.requests u = .refreshing initial
    · obtain ⟨rfl, initial, request⟩ := renames
      have before := tracked.tracked u
      rw [request] at before ⊢
      cases Credentials.step_spec codec moved with
      | rename here =>
        rw [w.observe_rename _ _ request here]
        exact before.rename tracked.tokens here effect rfl (System.proceed_tasks_here ..)
    · rw [w.observe_other]
      · refine (tracked.tracked u).keep effect ?_ ?_
        · intro initial request
          exact persisted_step (fun same => renames ⟨same, initial, request⟩) moved
        · intro initial request written
          exact written.step (mine (by simp [request])).1 moved
      · intro initial same request
        exact renames ⟨same, initial, request⟩

/-- A request that is done makes no call any more. -/
theorem Tracked.finish (tracked : Tracked view codec origin w) {t : Nat} {request : Request}
    (effect : Effect view codec origin w.store w'.store)
    (tokens : Tokens view codec origin w'.store) (others : ∀ u, u ≠ t → w.Untouched w' u)
    (here : w'.requests t = request)
    (ended : request = .dropped ∨ ∃ result, request = .finished result)
    (idle : w'.store.tasks t = .idle) (trail : Trail view (w'.history t)) :
    Tracked view codec origin w' := by
  subst here
  refine tracked.advance effect tokens others ?_ (fun _ _ => idle) ?_
  all_goals
    rcases ended with dropped | ⟨result, finished⟩
    · simp [*, Request.calls, Request.Tracked]
    · simp [*, Request.calls, Request.Tracked]

theorem Tracked.step (tracked : Tracked view codec origin w) {a : Action}
    (unrepeated : Unrepeated view codec origin w a) (taken : step codec w a = some w') :
    Tracked view codec origin w' := by
  obtain ⟨effect, tokens⟩ := tracked.effect unrepeated taken
  have before (t : Nat) := tracked.tracked t
  have held {t : Nat} {creds : Credentials}
      (returned : w.store.tasks t = .done (.credentials (.ok creds))) :
      creds.token ∈ (w.store.tasks t).held := by
    rw [returned]
    rfl
  cases step_spec codec taken with
  | store permitted moved => exact tracked.store permitted unrepeated moved
  | @arrive t here free =>
    have before := before t
    rw [here] at before
    refine tracked.advance effect tokens (fun u => World.call_other _ _) ?_ ?_ ?_ <;>
      simp only [World.call_here]
    · rintro _ ⟨⟩
      rfl
    · rintro ⟨⟩
    · exact before
  | @fetched t initial here returned =>
    have before := before t
    rw [here] at before
    refine tracked.advance effect tokens (fun u => World.post_other _ _) ?_ ?_ ?_ <;>
      simp only [World.post_here]
    · rintro _ ⟨⟩
    · intros
      trivial
    · rw [show w.history t = [] from before]
      exact ⟨rfl, effect.settled (tracked.tokens.held t _ (held returned))⟩
  | @refreshed t initial here returned =>
    have before := before t
    rw [here] at before
    obtain ⟨settled, ⟨_, unwritten⟩ | ⟨token, late, _, replaced⟩⟩ := before
    · rw [returned] at unwritten
      exact (unwritten trivial).elim
    · refine tracked.advance effect tokens
        (fun u other => (World.log_untouched _ other).trans (World.call_other _ _ other)) ?_ ?_ ?_ <;>
        simp only [World.call_here]
      · rintro _ ⟨⟩
        rfl
      · rintro ⟨⟩
      · rw [World.log_here, late]
        exact ⟨effect.settled settled, effect.replaced settled replaced, by rintro _ ⟨⟩, token, rfl⟩
  | @refetched t initial refreshed here returned =>
    have before := before t
    rw [here] at before
    obtain ⟨_, _, avoids, token, late⟩ := before
    refine tracked.advance effect tokens (fun u => World.post_other _ _) ?_ ?_ ?_ <;>
      simp only [World.post_here]
    · rintro _ ⟨⟩
    · intros
      trivial
    · rw [late]
      exact ⟨avoids _ (held returned), token, rfl⟩
  | @unauthorized t initial here =>
    have before := before t
    rw [here] at before
    obtain ⟨posted, settled⟩ := before
    refine tracked.advance effect tokens
      (fun u other => (World.log_untouched _ other).trans (World.call_other _ _ other)) ?_ ?_ ?_ <;>
      simp only [World.call_here]
    · rintro _ ⟨⟩
      rfl
    · rintro ⟨⟩
    · rw [World.log_here, posted]
      exact ⟨effect.settled settled, .inl ⟨rfl, id⟩⟩
  | @answered t initial status here _ =>
    have before := before t
    rw [here] at before
    refine tracked.finish effect tokens
      (fun u other => (World.log_untouched _ other).trans (World.finish_other _ other))
      (World.finish_here ..).1 (.inr ⟨_, rfl⟩) (World.finish_here ..).2.1 ?_
    rw [(World.finish_here ..).2.2, World.log_here, before.1]
    exact .replied
  | @answeredAgain t initial refreshed status here =>
    have before := before t
    rw [here] at before
    obtain ⟨different, token, late⟩ := before
    refine tracked.finish effect tokens
      (fun u other => (World.log_untouched _ other).trans (World.finish_other _ other))
      (World.finish_here ..).1 (.inr ⟨_, rfl⟩) (World.finish_here ..).2.1 ?_
    rw [(World.finish_here ..).2.2, World.log_here, late]
    exact .answered different
  | refreshFailed | fetchFailed | lose =>
    exact tracked.finish effect tokens (fun u => World.finish_other _) (World.finish_here ..).1
      (.inr ⟨_, rfl⟩) (World.finish_here ..).2.1 (before _).trail
  | @dropPost t here =>
    refine tracked.finish effect tokens (fun u => World.become_other _) (World.become_here ..)
      (.inl rfl) ?_ (before t).trail
    cases request : w.requests t with
    | sending | resending => exact tracked.idle t (by rw [request]; rfl) (by simp [request])
    | _ => simp [request, Request.sent] at here
  | @drop t store here moved =>
    obtain ⟨idle, others⟩ := drop_step moved
    exact tracked.finish effect tokens
      (fun u other => ⟨Function.update_of_ne other .., rfl, others u other⟩)
      (World.become_here ..) (.inl rfl) idle (before t).trail

theorem Tracked.initial (initial : Initial w) : Tracked view codec w.store.file w where
  tokens := .initial initial.idle initial.free initial.renames
  serves t op calls := by
    rw [initial.requests] at calls
    cases calls
  idle t _ request := (request (initial.requests t)).elim
  tracked t := by
    rw [initial.requests]
    exact initial.history t

end

/-- A request sends a second time only after a 401 and a refresh of its own that was
persisted, and then sends another access token than the one that was rejected. -/
theorem second_post_differs {β : Type} (view : String → β) (codec : Json.Codec)
    {start w : World} (initial : Initial start)
    (run : Run (step codec) (Unrepeated view codec start.store.file) start w) (t : Nat) :
    (w.history t).countP Event.isPost ≤ 2 ∧
    ∀ before second, before ++ [.posted second] <+: w.history t → before = [] ∨
      ∃ first token, before = [.posted first, .replied UNAUTHORIZED, .persisted token, .refreshed] ∧
        view second.token ≠ view first.token := by
  have tracked : Tracked view codec start.store.file w :=
    run.invariant (Tracked.initial initial) fun tracked allowed taken => tracked.step allowed taken
  have trail := (tracked.tracked t).trail
  exact ⟨trail.countP_le, fun before second posted => trail.orderly posted⟩

namespace Sample
variable (codec : Json.Codec)

def auth : FsAuth where
  tokens := ⟨"", "access-0", "refresh-0", "account", 864000000⟩

def creds : OAuthCredentials := ⟨"access-0", "refresh-0", 864000000, "account"⟩

/-- A stored token that is not due, and no request. -/
def start : World where
  store := { Credentials.Sample.start codec with file := some (auth.toVecPretty codec) }
  requests _ := .absent
  history _ := []

theorem stored : readFile codec (start codec).store.file = .ok creds := readFile_written codec auth

theorem initial : Initial (start codec) where
  requests _ := rfl
  history _ := rfl
  idle _ := rfl
  free := rfl
  renames := rfl

def answer : TokenAnswer := .granted "refresh-1" (Credentials.Sample.body codec "access-1")

theorem taken : refreshToken codec (answer codec) = .ok ⟨"access-1", "refresh-1", 864000⟩ := by
  simp only [answer, refreshToken, Credentials.Sample.response_read]
  simp

/-- A request whose first token is rejected sends again. -/
theorem resent_run : ∃ w second, Run (step codec) (Unrepeated id codec (start codec).store.file)
    (start codec) w ∧ w.requests 0 = .resending creds.bearer second := by
  let quiet (s : System) (a : Credentials.Action) : Prop :=
    internal a ∧ Distinct id codec (start codec).store.file s a
  have lift {w : World} {s : System} (run : Run (Credentials.step codec) quiet w.store s) :
      ∃ w', Run (step codec) (Unrepeated id codec (start codec).store.file) w w' ∧
        w'.store = s ∧ w'.requests = w.requests := store_run codec _ run fun _ _ _ good => good
  -- it fetches the stored token and sends it
  obtain ⟨_, fetch, free, file, answers, _, tasks⟩ := fetch_run quiet 0 0
    (s := ((start codec).call 0 .getCredentials .fetching).store) rfl
    (World.call_here ..).2.1 (stored codec) (by decide) (by
      rintro s a _ (rfl | rfl)
      · exact ⟨trivial, trivial⟩
      · exact ⟨trivial, trivial⟩)
  obtain ⟨w₁, fetched, rfl, requests⟩ := lift fetch
  have here : w₁.requests 0 = .fetching := requests ▸ (World.call_here ..).1
  have returned : w₁.store.tasks 0 = .done (.credentials (.ok creds.bearer)) :=
    tasks ▸ Function.update_self ..
  have arrived : step codec (start codec) (.arrive 0) = some _ := step_complete codec (.arrive rfl rfl)
  have posted := step_complete codec (.fetched here returned)
  have rejected := step_complete codec (.unauthorized
    (World.post_here w₁ 0 creds.bearer (.sending creds.bearer)).1)
  -- the token is rejected, and its own refresh replaces it
  obtain ⟨_, refresh, free, _, stored₂, tasks⟩ := refresh_run quiet 0 0 864000000
    (s := (((w₁.post 0 creds.bearer (.sending creds.bearer)).log 0 (.replied UNAUTHORIZED)).call 0
      .refreshCredentials (.refreshing creds.bearer)).store)
    free (World.call_here ..).2.1 ((congrArg _ file).trans (stored codec)) rfl (taken codec) rfl (by
      rintro s a _ (rfl | rfl | rfl | rfl | rfl)
      all_goals exact ⟨trivial, trivial⟩) (by
      intro s none
      refine ⟨trivial, ?_⟩
      intro token issued known
      have origin : storedAccess codec (start codec).store.file = some "access-0" := by
        rw [storedAccess, stored]
        rfl
      rw [System.known, none.trans (answers.trans rfl : _ = []), origin] at known
      rw [TokenAnswer.accessToken, taken] at issued
      cases issued
      simp at known) (fun _ => ⟨trivial, trivial⟩)
  obtain ⟨w₂, refreshed, rfl, requests⟩ := lift refresh
  have here : w₂.requests 0 = .refreshing creds.bearer := requests ▸ (World.call_here ..).1
  have returned : w₂.store.tasks 0 = .done (.refreshed (.ok ())) := tasks ▸ Function.update_self ..
  have resumed := step_complete codec (.refreshed here returned)
  -- it fetches the new token and sends that
  obtain ⟨_, refetch, _, _, _, _, tasks⟩ := fetch_run quiet 0 0
    (s := ((w₂.log 0 .refreshed).call 0 .getCredentials (.refetching creds.bearer)).store) free
    (World.call_here ..).2.1 stored₂ (by decide) (by
      rintro s a _ (rfl | rfl)
      · exact ⟨trivial, trivial⟩
      · exact ⟨trivial, trivial⟩)
  obtain ⟨w₃, refetched, rfl, requests⟩ := lift refetch
  have here : w₃.requests 0 = .refetching creds.bearer := requests ▸ (World.call_here ..).1
  have returned := step_complete codec (.refetched here (tasks ▸ Function.update_self ..))
  have sent := (fetched.head trivial arrived).step (by trivial) posted
    |>.step (by trivial) rejected
  exact ⟨_, _, ((sent.trans refreshed).step (by trivial) resumed).trans refetched
    |>.step (by trivial) returned,
    (World.post_here ..).1⟩

end Sample

theorem second_post_differs_resent : ∃ w before first second,
    Run (step JsonText.codec) (Unrepeated id JsonText.codec (Sample.start JsonText.codec).store.file)
      (Sample.start JsonText.codec) w ∧
    before ++ [.posted second] <+: w.history 0 ∧ .posted first ∈ before ∧
    second.token ≠ first.token := by
  obtain ⟨w, second, run, here⟩ := Sample.resent_run JsonText.codec
  have tracked : Tracked id JsonText.codec (Sample.start JsonText.codec).store.file w :=
    run.invariant (Tracked.initial (Sample.initial _)) fun tracked allowed taken =>
      tracked.step allowed taken
  have history := tracked.tracked 0
  rw [here] at history
  obtain ⟨_, token, history⟩ := history
  have posted : [.posted Sample.creds.bearer, .replied UNAUTHORIZED, .persisted token, .refreshed] ++
      [.posted second] <+: w.history 0 := by
    rw [history]
    exact List.prefix_rfl
  rcases (second_post_differs id JsonText.codec (Sample.initial _) run 0).2 _ second posted with
    none | ⟨first, _, same, different⟩
  · cases none
  · exact ⟨w, _, first, second, run, posted, by rw [same]; exact List.mem_cons_self, different⟩

end CodexProxy.Upstream
