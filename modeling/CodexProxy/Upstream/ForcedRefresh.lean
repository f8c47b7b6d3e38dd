import CodexProxy.Upstream.Rejected

/-! Requests that were sent with one token and rejected together. A forced refresh does
not look whether the rejected token is still the stored one, so each of them asks the
endpoint; they ask once only if no other gets its turn after the first. -/
namespace CodexProxy.Upstream
open Credentials Transition

section
variable (codec : Json.Codec)

/-- A response that is taken up. -/
def Succeeds (answer : TokenAnswer) : Prop :=
  ∃ parsed, refreshToken codec answer = .ok parsed ∧ 0 < parsed.expiresIn

variable (token : String)

/-- The first POSTs are out, with one token, and the store is at rest. -/
structure SentTogether (w : World) : Prop where
  requests : ∀ t, w.requests t = .absent ∨
    ∃ accountId, w.requests t = .sending ⟨token, accountId⟩
  idle : ∀ t, w.store.tasks t = .idle
  free : w.store.holder = none
  renames : w.store.renames = []
  unasked : w.store.presented = []

/-- Every first POST is answered with 401; the file system works and the endpoint succeeds. -/
def AllRejected (w : World) : Action → Prop
  | .store (.read _ _ failure) => failure = none
  | .store (.answer _ answer) => Succeeds codec answer
  | .store a => internal a ∧ (∀ t message, a ≠ .lose t message) ∧ ∀ t message, a ≠ .fail t message
  | .arrive _ => False
  | .reply t status => ∀ initial, w.requests t = .sending initial → status = UNAUTHORIZED
  | .lose t _ => ∀ initial, w.requests t ≠ .sending initial
  | .resume _ | .drop _ => True

/-- A forced refresh still finds the rejected token, which the endpoint does not issue
again, a fetch finds one that is not due, and no request is dropped on the way from asking
the endpoint to the rename. -/
def StillStored (w : World) : Action → Prop
  | .store (.read t nowMs _) => ∀ creds, readFile codec w.store.file = .ok creds →
      (w.store.tasks t = .reading .refreshCredentials → creds.accessToken = token) ∧
      (w.store.tasks t = .reading .getCredentials → tokenExpired creds.expiresAtMs nowMs = false)
  | .store (.answer _ answer) => answer.accessToken codec ≠ some token
  | .drop t => (w.store.tasks t).presented = none ∧ (w.store.tasks t).carried codec = none
  | _ => True

/-- Nobody has asked, or the file has another token. -/
def Calm (s : System) : Prop :=
  s.presented = [] ∨ s.presented.length = 1 ∧ s.Replaced id codec token

/-- What the holder of the mutex is doing about the one refresh. -/
def Phase.Asks (s : System) : Phase → Prop
  | .idle | .reading _ => Calm codec token s
  | .posting _ _ => s.presented.length = 1 ∧ Readable codec s.file
  | .answered _ _ answer =>
    s.presented.length = 1 ∧ Readable codec s.file ∧ Succeeds codec answer ∧
    answer.accessToken codec ≠ some token
  | .updating job =>
    s.presented.length = 1 ∧ Readable codec s.file ∧ job.Shaped ∧ job.accessToken ≠ token
  | .writing job auth | .dispatched job auth =>
    s.presented.length = 1 ∧ (Phase.dispatched job auth).Shaped ∧ job.accessToken ≠ token
  | .syncing _ => s.presented.length = 1 ∧ s.Replaced id codec token
  | _ => False

/-- A request that has the one token, if any. -/
def Request.Shares : Request → Prop
  | .fetching => False
  | .sending initial | .refreshing initial | .refetching initial => initial.token = token
  | _ => True

structure AskedOnce (w : World) : Prop where
  coherent : w.store.Coherent
  asks : Phase.Asks codec token w.store w.store.current
  renames : w.store.renames = []
  serves : ∀ t op, (w.requests t).calls = some op → (w.store.tasks t).Serves op
  idle : ∀ t, (w.requests t).calls = none → w.store.tasks t = .idle
  shares : ∀ t, (w.requests t).Shares token

end

section
variable {codec : Json.Codec} {token : String} {w w' : World} {s : System}

theorem Calm.proceed {t : Nat} {phase : Phase} (calm : Calm codec token s)
    (unasking : phase.presented = none) : Calm codec token (s.proceed t phase) := by
  rw [Calm, System.proceed, unasking]
  exact calm

theorem AskedOnce.holding (once : AskedOnce codec token w) {t : Nat} {phase : Phase}
    (here : w.store.tasks t = phase) (holds : phase.holds = true) :
    Phase.Asks codec token w.store phase := by
  rw [← here, ← once.coherent.current_eq (here ▸ holds)]
  exact once.asks

/-- Only requests call the store. -/
theorem AskedOnce.serving (once : AskedOnce codec token w) {t : Nat} {phase : Phase}
    (here : w.store.tasks t = phase) (busy : phase ≠ .idle) :
    ∃ op, (w.requests t).calls = some op ∧ phase.Serves op := by
  cases calls : (w.requests t).calls with
  | none => exact (busy (here ▸ once.idle t calls)).elim
  | some op => exact ⟨op, rfl, here ▸ once.serves t op calls⟩

theorem asks_proceed {t : Nat} {phase : Phase} (presented : phase.presented = none)
    (ends : phase.holds = false → Calm codec token s)
    (goesOn : phase.holds = true → Phase.Asks codec token s phase) :
    Phase.Asks codec token (s.proceed t phase) (s.proceed t phase).current := by
  have same : Phase.Asks codec token (s.proceed t phase) = Phase.Asks codec token s := by
    funext phase'
    cases phase' <;> simp [Phase.Asks, Calm, System.Replaced, System.proceed, System.put, presented]
  rw [System.current_proceed, same]
  split
  · rename_i holds
    exact goesOn holds
  · rename_i released
    exact ends (Bool.eq_false_iff.mpr released)

theorem AskedOnce.asks_read (once : AskedOnce codec token w) {t : Nat} {op : Refresher}
    {nowMs : Int64} (here : w.store.tasks t = .reading op)
    (still : StillStored codec token w (.store (.read t nowMs none))) :
    Phase.Asks codec token
      (w.store.proceed t (afterRead op nowMs (readFile codec w.store.file)))
      (w.store.proceed t (afterRead op nowMs (readFile codec w.store.file))).current := by
  have calm : Calm codec token w.store := once.holding here rfl
  cases found : readFile codec w.store.file with
  | error error => exact asks_proceed rfl (fun _ => calm) (by rintro ⟨⟩)
  | ok creds =>
    obtain ⟨stored, current⟩ := still creds found
    cases fresh : op.fresh creds nowMs with
    | some outcome =>
      simp only [afterRead, fresh]
      exact asks_proceed rfl (fun _ => calm) (by rintro ⟨⟩)
    | none =>
      simp only [afterRead, fresh]
      obtain ⟨auth, raw, _⟩ := readFile_ok codec found
      rw [System.current_proceed]
      rcases calm with unasked | ⟨_, replaced⟩
      · exact ⟨by simp [System.proceed, Phase.presented, unasked], auth, raw⟩
      · obtain ⟨op', calls, serves⟩ := once.serving here (by simp)
        obtain rfl : op = op' := serves
        cases op with
        | refreshCredentials =>
          refine (replaced creds.accessToken ?_ (stored here)).elim
          rw [storedAccess, found]
          rfl
        | getCredentials => simp [Refresher.fresh, current here] at fresh
        | checkAndRefresh => cases request : w.requests t <;> simp [request, Request.calls] at calls

theorem AskedOnce.asks_store (once : AskedOnce codec token w) {a : Credentials.Action}
    {store : System} (rejected : AllRejected codec w (.store a))
    (still : StillStored codec token w (.store a))
    (moved : Credentials.step codec w.store a = some store) :
    Phase.Asks codec token store store.current ∧ store.renames = [] := by
  have none := once.renames
  cases Credentials.step_spec codec moved with
  | start | dropWaiting | dropPost | dropRename | drop => exact rejected.1.elim
  | losePost | loseAnswer => exact (rejected.2.1 _ _ rfl).elim
  | failWrite | failSync => exact (rejected.2.2 _ _ rfl).elim
  | @acquire t op free here =>
    have calm := once.asks
    rw [System.current, free] at calm
    obtain ⟨op', _, serves⟩ := once.serving here (by simp)
    obtain rfl : op = .refresher op' := serves
    exact ⟨asks_proceed rfl (by rintro ⟨⟩) fun _ => calm, none⟩
  | read here =>
    obtain rfl := rejected
    exact ⟨once.asks_read here still, none⟩
  | readFull here =>
    obtain ⟨_, _, serves⟩ := once.serving here (by simp)
    exact serves.elim
  | reread here =>
    obtain rfl := rejected
    obtain ⟨asked, ⟨auth, raw⟩, shaped, other⟩ := once.holding here rfl
    rw [contents, raw]
    exact ⟨asks_proceed rfl (by rintro ⟨⟩) fun _ => ⟨asked, ⟨shaped, rfl⟩, other⟩, none⟩
  | answer here =>
    obtain ⟨asked, readable⟩ := once.holding here rfl
    rw [System.proceed_renames, System.exchange_renames]
    obtain ⟨parsed, taken, positive⟩ := id rejected
    refine ⟨?_, none⟩
    rename_i answer
    cases answer with
    | refused => cases taken
    | granted issued body =>
      exact asks_proceed rfl (by rintro ⟨⟩) fun _ => ⟨asked, readable, rejected, still⟩
  | @deliver t op creds answer nowMs here =>
    obtain ⟨asked, readable, ⟨parsed, taken, positive⟩, other⟩ := once.holding here rfl
    rcases afterAnswer_carries codec op creds nowMs answer with
      ⟨error, gaveUp⟩ | ⟨job, updating, shaped, issued⟩
    · obtain ⟨expiresAtMs, expiry⟩ := expiresAtFrom_ok nowMs positive
      simp only [afterAnswer, taken, bind, Except.bind, expiry, pure, Except.pure] at gaveUp
      cases gaveUp
    · rw [updating]
      exact ⟨asks_proceed rfl (by rintro ⟨⟩) fun _ => ⟨asked, readable, shaped,
        fun same => other (same ▸ issued)⟩, none⟩
  | dispatch here =>
    have writing := once.holding here rfl
    exact ⟨asks_proceed rfl (by rintro ⟨⟩) fun _ => writing, none⟩
  | @rename t job auth here =>
    obtain ⟨asked, shaped, other⟩ := once.holding here rfl
    refine ⟨asks_proceed (s := w.store.install codec job auth) rfl (by rintro ⟨⟩) fun _ =>
      ⟨asked, ?_⟩, none⟩
    intro stored read
    rw [storedAccess_written shaped read]
    exact other
  | finish here =>
    have replaced := once.holding here rfl
    exact ⟨asks_proceed rfl (fun _ => .inr replaced) (by rintro ⟨⟩), none⟩
  | @orphanAnswer i presented answer =>
    have asks := once.asks
    rw [System.exchange_renames]
    cases answer <;> exact ⟨asks, none⟩
  | orphanRename here =>
    rw [none] at here
    cases here

/-- A request may be dropped where it has asked nothing or has been answered for good. -/
theorem AskedOnce.asks_drop (once : AskedOnce codec token w) {t : Nat} {store : System}
    (still : StillStored codec token w (.drop t))
    (moved : Credentials.step codec w.store (.drop t) = some store) :
    Phase.Asks codec token store store.current ∧ store.renames = [] := by
  have none := once.renames
  obtain ⟨unasking, empty⟩ := still
  cases Credentials.step_spec codec moved with
  | dropWaiting here =>
    rw [once.coherent.current_put (by rw [here]; rfl)]
    have asks := once.asks
    exact ⟨asks, none⟩
  | dropPost here =>
    rw [here] at unasking
    cases unasking
  | dropRename here =>
    rw [here] at empty
    cases empty
  | drop holds =>
    refine ⟨asks_proceed rfl (fun _ => ?_) (by rintro ⟨⟩), none⟩
    have asks := once.holding rfl holds
    cases phase : w.store.tasks t with
    | reading => rw [phase] at asks; exact asks
    | syncing => rw [phase] at asks; exact .inr asks
    | answered op creds answer =>
      rw [phase] at asks empty
      obtain ⟨_, _, ⟨parsed, taken, _⟩, _⟩ := asks
      simp [Phase.carried, TokenAnswer.accessToken, taken, Except.toOption] at empty
    | readingFull => rw [phase] at asks; exact asks.elim
    | posting => rw [phase] at unasking; cases unasking
    | updating | writing | dispatched => rw [phase] at empty; cases empty
    | idle | locking | done => rw [phase] at holds; cases holds

theorem asks_put {t : Nat} {phase : Phase} (coherent : s.Coherent)
    (outside : (s.tasks t).holds = false) (asks : Phase.Asks codec token s s.current) :
    Phase.Asks codec token (s.put t phase) (s.put t phase).current := by
  rw [coherent.current_put outside]
  cases phase : s.current <;> rw [phase] at asks <;> exact asks

/-- A request takes a result or makes a call. -/
theorem AskedOnce.advance (once : AskedOnce codec token w) (t : Nat) (phase : Phase)
    (request : Request) (store : w'.store = w.store.put t phase)
    (requests : w'.requests = Function.update w.requests t request)
    (outside : (w.store.tasks t).holds = false) (outside' : phase.holds = false)
    (serves : ∀ op, request.calls = some op → phase.Serves op)
    (idle : request.calls = none → phase = .idle) (shares : request.Shares token) :
    AskedOnce codec token w' where
  coherent := store ▸ once.coherent.put outside outside'
  asks := store ▸ asks_put once.coherent outside once.asks
  renames := store ▸ once.renames
  serves u op := by
    rw [requests, store]
    by_cases same : u = t
    · subst same
      rw [Function.update_self, System.put_tasks_here]
      exact serves op
    · rw [Function.update_of_ne same, System.put_tasks_other _ _ _ same]
      exact once.serves u op
  idle u := by
    rw [requests, store]
    by_cases same : u = t
    · subst same
      rw [Function.update_self, System.put_tasks_here]
      exact idle
    · rw [Function.update_of_ne same, System.put_tasks_other _ _ _ same]
      exact once.idle u
  shares u := by
    rw [requests]
    by_cases same : u = t
    · subst same
      rw [Function.update_self]
      exact shares
    · rw [Function.update_of_ne same]
      exact once.shares u

theorem AskedOnce.step (once : AskedOnce codec token w) {a : Action}
    (rejected : AllRejected codec w a) (still : StillStored codec token w a)
    (taken : step codec w a = some w') : AskedOnce codec token w' := by
  have sent {t : Nat} (here : (w.requests t).sent = true) : w.store.tasks t = .idle := by
    refine once.idle t ?_
    cases request : w.requests t with
    | sending | resending => rfl
    | _ => simp [request, Request.sent] at here
  have shares (t : Nat) := once.shares t
  cases step_spec codec taken with
  | @store a store permitted moved =>
    obtain ⟨asks, renames⟩ := once.asks_store rejected still moved
    have inside : internal a := by
      cases a with
      | start | drop => exact rejected.1
      | _ => trivial
    constructor
    · rw [World.observe_store]
      exact once.coherent.step moved
    · rwa [World.observe_store]
    · rwa [World.observe_store]
    · rw [World.observe_store, World.observe_requests]
      intro t op calls
      exact (once.serves t op calls).step (by rintro rfl; exact inside) moved
    · rw [World.observe_store, World.observe_requests]
      intro t calls
      exact idle_step (once.idle t calls) (by rintro _ rfl; exact inside) moved
    · rw [World.observe_requests]
      exact once.shares
  | arrive => exact rejected.elim
  | @fetched t initial here =>
    have fetching := shares t
    rw [here] at fetching
    exact fetching.elim
  | @refreshed t initial here returned =>
    have same := shares t
    rw [here] at same
    exact once.advance t (.locking (.refresher .getCredentials))
      (.refetching initial) rfl rfl (by rw [returned]; rfl) rfl
      (by rintro _ ⟨⟩; rfl) (by rintro ⟨⟩) same
  | @unauthorized t initial here =>
    have same := shares t
    rw [here] at same
    exact once.advance t (.locking (.refresher .refreshCredentials))
      (.refreshing initial) rfl rfl (by rw [sent (by rw [here]; rfl)]; rfl) rfl
      (by rintro _ ⟨⟩; rfl) (by rintro ⟨⟩) same
  | refetched _ returned | refreshFailed _ returned | fetchFailed _ returned =>
    exact once.advance _ _ _ rfl rfl (by rw [returned]; rfl) rfl (by rintro _ ⟨⟩) (fun _ => rfl) trivial
  | answered here | answeredAgain here =>
    exact once.advance _ _ _ rfl rfl (by rw [sent (by rw [here]; rfl)]; rfl) rfl (by rintro _ ⟨⟩)
      (fun _ => rfl) trivial
  | lose here =>
    exact once.advance _ _ _ rfl rfl (by rw [sent here]; rfl) rfl (by rintro _ ⟨⟩) (fun _ => rfl) trivial
  | @dropPost t here =>
    have idle := sent here
    have same : w.store = w.store.put t .idle := by
      rw [System.put, ← idle, Function.update_eq_self]
    exact once.advance t .idle .dropped same rfl (by rw [idle]; rfl) rfl (by rintro _ ⟨⟩)
      (fun _ => rfl) trivial
  | @drop t store here moved =>
    obtain ⟨asks, renames⟩ := once.asks_drop still moved
    obtain ⟨idle, others⟩ := drop_step moved
    refine ⟨once.coherent.step moved, asks, renames, ?_, ?_, ?_⟩
    all_goals
      intro u
      by_cases same : u = t
    · simp [same, World.become, Request.calls]
    · simpa [same, World.become, others u same] using once.serves u
    · simpa [same, World.become] using fun _ => idle
    · simpa [same, World.become, others u same] using once.idle u
    · simp [same, World.become, Request.Shares]
    · simpa [same, World.become] using once.shares u

theorem AskedOnce.initial (together : SentTogether token w) : AskedOnce codec token w where
  coherent t := by simp [together.idle, together.free, Phase.holds]
  asks := by
    rw [System.current, together.free]
    exact .inl together.unasked
  renames := together.renames
  serves t op calls := by
    rcases together.requests t with absent | ⟨accountId, sending⟩
    · simp [absent, Request.calls] at calls
    · simp [sending, Request.calls] at calls
  idle t _ := together.idle t
  shares t := by
    rcases together.requests t with absent | ⟨accountId, sending⟩
    · rw [absent]
      trivial
    · rw [sending]
      rfl

theorem AskedOnce.presented_le (once : AskedOnce codec token w) :
    w.store.presented.length ≤ 1 := by
  have asks := once.asks
  have calm (calm : Calm codec token w.store) : w.store.presented.length ≤ 1 := by
    rcases calm with unasked | ⟨asked, _⟩
    · rw [unasked]
      exact Nat.zero_le 1
    · exact asked.le
  cases phase : w.store.current with
  | idle | reading =>
    rw [phase] at asks
    exact calm asks
  | posting | answered | updating | writing | dispatched | syncing =>
    rw [phase] at asks
    exact asks.1.le
  | locking | readingFull | done =>
    rw [phase] at asks
    exact asks.elim

end

namespace Sample
variable (codec : Json.Codec)

/-- Two requests are out with the stored token. -/
def sent : World where
  store := (start codec).store
  requests t := if t < 2 then .sending creds.bearer else .absent
  history _ := []

theorem together : SentTogether "access-0" (sent codec) where
  requests t := by
    by_cases early : t < 2
    · exact .inr ⟨"account", if_pos early⟩
    · exact .inl (if_neg early)
  idle _ := rfl
  free := rfl
  renames := rfl
  unasked := rfl

/-- Both are rejected. -/
def rejected : World :=
  (((sent codec).log 0 (.replied UNAUTHORIZED)).call 0 .refreshCredentials
    (.refreshing creds.bearer)).log 1 (.replied UNAUTHORIZED) |>.call 1 .refreshCredentials
      (.refreshing creds.bearer)

theorem rejected_run (good : World → Action → Prop)
    (replies : ∀ w t, good w (.reply t UNAUTHORIZED)) :
    Run (step codec) good (sent codec) (rejected codec) :=
  have first : (sent codec).requests 0 = .sending creds.bearer := rfl
  have second : (((sent codec).log 0 (.replied UNAUTHORIZED)).call 0 .refreshCredentials
      (.refreshing creds.bearer)).requests 1 = .sending creds.bearer := rfl
  .step (.step .here (replies _ 0) (step_complete codec (.unauthorized first)))
    (replies _ 1) (step_complete codec (.unauthorized second))

theorem succeeds : Succeeds codec (answer codec) := ⟨_, taken codec, by decide⟩

/-- The first forced refresh replaces the token. -/
theorem replaced_run (good : System → Credentials.Action → Prop)
    (allowed : ∀ s a, s.file = (sent codec).store.file → a = .acquire 0 ∨ a = .read 0 0 none ∨
      a = .deliver 0 0 ∨ a = .dispatch 0 ∨ a = .rename 0 → good s a)
    (answers : ∀ s, good s (.answer 0 (answer codec))) (finishes : ∀ s, good s (.finish 0)) :
    ∃ s, Run (Credentials.step codec) good (rejected codec).store s ∧ s.holder = none ∧
      s.presented = ["refresh-0"] ∧
      readFile codec s.file = .ok ⟨"access-1", "refresh-1", 864000000, "account"⟩ ∧
      s.tasks 1 = .locking (.refresher .refreshCredentials) := by
  obtain ⟨s, run, free, presented, file, tasks⟩ := refresh_run good 0 0 864000000
    (s := (rejected codec).store) rfl rfl (stored codec) rfl (taken codec) rfl allowed
    (fun s _ => answers s) finishes
  exact ⟨s, run, free, presented, file, tasks ▸ rfl⟩

end Sample

/-- Where no other request gets its turn after the token has been replaced, the endpoint
is asked at most once for all of them. -/
theorem asked_once_while_stored (codec : Json.Codec) (token : String) {start w : World}
    (together : SentTogether token start)
    (run : Run (step codec) (fun w a => AllRejected codec w a ∧ StillStored codec token w a)
      start w) : w.store.presented.length ≤ 1 := by
  have once : AskedOnce codec token w := run.invariant (AskedOnce.initial together)
    fun once allowed taken => once.step allowed.1 allowed.2 taken
  exact once.presented_le

theorem asked_once_while_stored_first : ∃ w, Run (step JsonText.codec)
    (fun w a => AllRejected JsonText.codec w a ∧ StillStored JsonText.codec "access-0" w a)
    (Sample.sent JsonText.codec) w ∧ w.store.presented = ["refresh-0"] ∧
    w.store.presented.length ≤ 1 := by
  let allowed (w : World) (a : Action) : Prop :=
    AllRejected JsonText.codec w a ∧ StillStored JsonText.codec "access-0" w a
  let good (s : System) (a : Credentials.Action) : Prop :=
    internal a ∧ ∀ w : World, w.store = s → allowed w (.store a)
  have first := Sample.replaced_run JsonText.codec good ?_ ?_ ?_
  · obtain ⟨s, first, _, presented, _⟩ := first
    obtain ⟨w, run, rfl, _⟩ := store_run _ allowed first
      fun w a _ good => ⟨good.1, good.2 w rfl⟩
    have whole := (Sample.rejected_run JsonText.codec allowed ?_).trans run
    · exact ⟨w, whole, presented, asked_once_while_stored _ _ (Sample.together _) whole⟩
    · exact fun _ _ => ⟨fun _ _ => rfl, trivial⟩
  · intro s a file steps
    have found (w : World) (same : w.store = s) (nowMs : Int64) (zero : nowMs = 0) :
        StillStored JsonText.codec "access-0" w (.store (.read 0 nowMs none)) := by
      intro creds read
      rw [same, file, show readFile JsonText.codec (Sample.sent JsonText.codec).store.file =
        .ok Sample.creds from Sample.stored _] at read
      cases read
      exact ⟨fun _ => rfl, fun _ => by rw [zero]; decide⟩
    rcases steps with rfl | rfl | rfl | rfl | rfl
    case inr.inl => exact ⟨trivial, fun w same => ⟨rfl, found w same 0 rfl⟩⟩
    all_goals simp [good, allowed, internal, AllRejected, StillStored]
  · intro s
    refine ⟨trivial, fun w _ => ⟨Sample.succeeds _, ?_⟩⟩
    simp [StillStored, TokenAnswer.accessToken, Sample.taken, Except.toOption]
  · intro s
    simp [good, allowed, internal, AllRejected, StillStored]

/-- The second of two rejected requests refreshes again, though the token it was rejected
with has been replaced. -/
theorem forced_refresh_asks_again : ¬ ∀ token (start w : World), SentTogether token start →
    Run (step JsonText.codec) (AllRejected JsonText.codec) start w →
    w.store.presented.length ≤ 1 := by
  intro claimed
  let good (_ : System) (a : Credentials.Action) : Prop :=
    internal a ∧ ∀ w, AllRejected JsonText.codec w (.store a)
  have quiet {t : Nat} {a : Credentials.Action} (steps : a = .acquire t ∨ a = .read t 0 none ∨
      a = .deliver t 0 ∨ a = .dispatch t ∨ a = .rename t) (s : System) : good s a := by
    rcases steps with rfl | rfl | rfl | rfl | rfl
    all_goals simp [good, internal, AllRejected]
  have answers (s : System) (t : Nat) : good s (.answer t (Sample.answer JsonText.codec)) :=
    ⟨trivial, fun _ => Sample.succeeds _⟩
  have finishes (s : System) (t : Nat) : good s (.finish t) := by
    simp [good, internal, AllRejected]
  obtain ⟨s, first, free, presented, file, waiting⟩ := Sample.replaced_run JsonText.codec
    good (fun s _ _ steps => quiet steps s) (answers · 0) (finishes · 0)
  obtain ⟨s', second, _, presented', _, _⟩ := refresh_run good 1 0 864000000 free
    waiting file rfl (Sample.taken _) rfl (fun s _ _ steps => quiet steps s)
    (fun s _ => answers s 1) (finishes · 1)
  obtain ⟨w, run, rfl, _⟩ := store_run _ (AllRejected JsonText.codec)
    (first.trans second) fun _ _ _ good => ⟨good.1, good.2 _⟩
  have asked := claimed _ _ _ (Sample.together _) ((Sample.rejected_run _ _ fun _ _ _ _ => rfl).trans run)
  rw [presented', presented] at asked
  exact absurd asked (by decide)

end CodexProxy.Upstream
