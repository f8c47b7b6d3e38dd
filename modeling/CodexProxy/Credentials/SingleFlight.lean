import CodexProxy.Credentials.Rotation
import Mathlib.Algebra.Order.BigOperators.Group.Finset

/-! Single flight. When the stored token is due, whoever gets the mutex first asks the
endpoint; the others find the new token in the file, because it is persisted before the
mutex is released and what was persisted is what the expiry test reads. -/
namespace CodexProxy.Credentials
open Transition

/-- The operations that refresh only what is due. -/
def Refresher.Lazy : Refresher → Prop
  | .refreshCredentials => False
  | _ => True

section
variable (codec : Json.Codec) (opening closing : Int64) (creds : OAuthCredentials)

/-- An answer that is taken up, with an expiry that is not due before the run closes. -/
def Outlasts (issued : String) (body : List UInt8) : Prop :=
  ∃ parsed, refreshToken codec (.granted issued body) = .ok parsed ∧
    ∀ nowMs, opening ≤ nowMs → nowMs ≤ closing → ∃ expiresAtMs,
      expiresAtFrom nowMs parsed.expiresIn = .ok expiresAtMs ∧
      tokenExpired expiresAtMs closing = false

/-- The steps of concurrent calls while the file system works and the endpoint answers. -/
def Concurrent (_ : System) : Action → Prop
  | .start _ (.refresher op) => op.Lazy
  | .acquire _ | .dispatch _ | .rename _ | .finish _ => True
  | .read _ nowMs failure => failure = none ∧ opening ≤ nowMs ∧ nowMs ≤ closing
  | .answer _ answer => ∃ issued body, answer = .granted issued body ∧
      Outlasts codec opening closing issued body
  | .deliver _ nowMs => opening ≤ nowMs ∧ nowMs ≤ closing
  | _ => False

/-- Nothing is under way, and the stored token is inside the expiry buffer. -/
structure Expiring (s : System) : Prop where
  idle : ∀ t, s.tasks t = .idle
  free : s.holder = none
  unasked : s.presented = []
  unanswered : s.answers = []
  stored : readFile codec s.file = .ok creds
  due : tokenExpired creds.expiresAtMs opening = true

/-- The endpoint was asked once, and its response has this access token. -/
def System.Answered (s : System) (token : String) : Prop :=
  s.presented = [creds.refreshToken] ∧ ∃ issued body parsed,
    s.answers = [.granted issued body] ∧
    refreshToken codec (.granted issued body) = .ok parsed ∧ parsed.accessToken = token

/-- Nobody has asked yet. -/
def System.Unrefreshed (s : System) : Prop :=
  readFile codec s.file = .ok creds ∧ s.presented = [] ∧ s.answers = []

/-- The response is in the file. -/
def System.Renewed (s : System) (token : String) : Prop :=
  s.Answered codec creds token ∧ ∃ stored, readFile codec s.file = .ok stored ∧
    stored.bearer = ⟨token, creds.userId⟩ ∧ tokenExpired stored.expiresAtMs closing = false

/-- A refresher's write of the response. -/
def Job.Carries (job : Job) (token : String) : Prop :=
  job.accessToken = token ∧ token ≠ "" ∧ tokenExpired job.expiresAtMs closing = false ∧
    ∃ op : Refresher, op.Lazy ∧ job.writer = .refresher op creds.userId

/-- What the holder of the mutex has to do with the flight; nobody holds it in `idle`. -/
def Phase.Flies (s : System) : Phase → Prop
  | .idle => s.Unrefreshed codec creds ∨ ∃ token, s.Renewed codec closing creds token
  | .reading op =>
    op.Lazy ∧ (s.Unrefreshed codec creds ∨ ∃ token, s.Renewed codec closing creds token)
  | .posting op creds' => op.Lazy ∧ creds' = creds ∧ readFile codec s.file = .ok creds ∧
      s.presented = [creds.refreshToken] ∧ s.answers = []
  | .answered op creds' answer => op.Lazy ∧ creds' = creds ∧ readFile codec s.file = .ok creds ∧
      s.presented = [creds.refreshToken] ∧ s.answers = [answer] ∧
      ∃ issued body, answer = .granted issued body ∧ Outlasts codec opening closing issued body
  | .updating job => ∃ token, s.Answered codec creds token ∧ job.Carries closing creds token ∧
      readFile codec s.file = .ok creds
  | .writing job auth | .dispatched job auth => ∃ token, s.Answered codec creds token ∧
      job.Carries closing creds token ∧
      auth.credentials = .ok ⟨token, job.refreshToken, job.expiresAtMs, creds.userId⟩
  | .syncing job => ∃ token, s.Renewed codec closing creds token ∧ job.Carries closing creds token
  | _ => False

/-- A call outside its critical section waits for a lazy refresh, or has returned the one
response. -/
def Phase.Rests (s : System) : Phase → Prop
  | .locking op => ∃ lazily : Refresher, lazily.Lazy ∧ op = .refresher lazily
  | .done outcome => ∃ token, s.Answered codec creds token ∧
      ∀ result, outcome = .credentials result → result = .ok ⟨token, creds.userId⟩
  | _ => True

structure Flight (s : System) : Prop where
  coherent : s.Coherent
  flies : s.current.Flies codec opening closing creds s
  rests : ∀ t, (s.tasks t).Rests codec creds s

end

section
variable {codec : Json.Codec} {opening closing : Int64} {creds : OAuthCredentials} {s : System}

theorem tokenExpired_later {expiresAtMs nowMs later : Int64} (le : nowMs ≤ later)
    (expired : tokenExpired expiresAtMs nowMs = true) : tokenExpired expiresAtMs later = true := by
  simp only [tokenExpired, decide_eq_true_eq] at expired ⊢
  exact Int64.le_trans expired le

theorem Refresher.fresh_due {op : Refresher} {nowMs : Int64}
    (due : tokenExpired creds.expiresAtMs nowMs = true) : op.fresh creds nowMs = none := by
  cases op <;> simp [Refresher.fresh, due]

/-- A lazy call that finds a token which is not due returns it. -/
theorem Refresher.fresh_lazy {op : Refresher} (lazily : op.Lazy) {nowMs : Int64}
    (fresh : tokenExpired creds.expiresAtMs nowMs = false) :
    ∃ outcome, op.fresh creds nowMs = some outcome ∧
      ∀ result, outcome = .credentials result → result = .ok creds.bearer := by
  cases op with
  | refreshCredentials => exact lazily.elim
  | getCredentials =>
    refine ⟨_, by simp only [Refresher.fresh, fresh]; rfl, ?_⟩
    intro result same
    cases same
    rfl
  | checkAndRefresh =>
    refine ⟨_, by simp only [Refresher.fresh, fresh]; rfl, ?_⟩
    intro result same
    cases same

/-- A response is taken up as a write of its tokens. -/
theorem afterAnswer_outlasts (creds : OAuthCredentials) {op : Refresher} (lazily : op.Lazy) {nowMs : Int64}
    {issued : String} {body : List UInt8} (opened : opening ≤ nowMs) (open' : nowMs ≤ closing)
    (outlasts : Outlasts codec opening closing issued body) :
    ∃ job parsed, afterAnswer op creds nowMs (refreshToken codec (.granted issued body)) =
      .updating job ∧ refreshToken codec (.granted issued body) = .ok parsed ∧
      job.Carries closing creds parsed.accessToken := by
  obtain ⟨parsed, taken, lasts⟩ := outlasts
  obtain ⟨expiresAtMs, expiry, fresh⟩ := lasts nowMs opened open'
  refine ⟨⟨parsed.accessToken, rotatedToken creds.refreshToken parsed.refreshToken, expiresAtMs,
    .refresher op creds.userId⟩, parsed, ?_, taken, rfl, refreshToken_nonempty taken, fresh,
    op, lazily, rfl⟩
  rw [afterAnswer, taken]
  simp only [bind, Except.bind, expiry, pure, Except.pure]

/-- A lazy writer returns the token that it wrote. -/
theorem Job.Carries.written {job : Job} {token : String} (carries : job.Carries closing creds token)
    (written : Except CredentialsError Unit) :
    ∀ result, job.written written = .credentials result → result = .ok ⟨token, creds.userId⟩ := by
  obtain ⟨rfl, _, _, op, lazily, writer⟩ := carries
  intro result same
  cases op with
  | refreshCredentials => exact lazily.elim
  | getCredentials =>
    simp only [Job.written, writer, Outcome.credentials.injEq] at same
    exact same.symm
  | checkAndRefresh => simp [Job.written, writer] at same

/-- The phase of the holder. -/
theorem Flight.holding (flight : Flight codec opening closing creds s) {t : Nat} {phase : Phase}
    (here : s.tasks t = phase) (holds : phase.holds = true) :
    s.holder = some t ∧ phase.Flies codec opening closing creds s := by
  rw [← here] at holds
  refine ⟨(flight.coherent t).mp holds, ?_⟩
  rw [← here, ← flight.coherent.current_eq holds]
  exact flight.flies

/-- Before the answer nobody has returned. -/
theorem Phase.Rests.waiting {phase : Phase} (rests : phase.Rests codec creds s)
    (early : s.presented = [] ∨ s.answers = []) (s' : System) : phase.Rests codec creds s' := by
  cases phase with
  | done outcome =>
    obtain ⟨token, ⟨asked, issued, body, parsed, answered, _⟩, _⟩ := rests
    rcases early with none | none
    · rw [none] at asked
      cases asked
    · rw [none] at answered
      cases answered
  | _ => exact rests

/-- Who has returned need not look again at a system with the same exchange. -/
theorem Phase.Rests.keep {s' : System} {phase : Phase} (rests : phase.Rests codec creds s)
    (presented : s'.presented = s.presented) (answers : s'.answers = s.answers) :
    phase.Rests codec creds s' := by
  cases phase with
  | done outcome =>
    obtain ⟨token, ⟨asked, issued, body, parsed, answered, taken⟩, returned⟩ := rests
    exact ⟨token, ⟨presented.trans asked, issued, body, parsed, answers.trans answered, taken⟩,
      returned⟩
  | _ => exact rests

/-- A move of the call that has the mutex, or takes it. -/
theorem Flight.proceed {t : Nat} {phase : Phase} (coherent : s.Coherent)
    (free : s.holder = none ∨ s.holder = some t)
    (flies : (if phase.holds then phase else .idle).Flies codec opening closing creds
      (s.proceed t phase))
    (here : phase.Rests codec creds (s.proceed t phase))
    (others : ∀ u, (s.tasks u).Rests codec creds (s.proceed t phase)) :
    Flight codec opening closing creds (s.proceed t phase) where
  coherent := coherent.proceed free
  flies := by
    rw [System.current_proceed]
    exact flies
  rests u := by
    by_cases same : u = t
    · subst same
      rw [System.proceed_tasks_here]
      exact here
    · rw [System.proceed_tasks_other _ _ _ same]
      exact others u

/-- What a read finds: the old token, which is due, or the new one, which is not. -/
theorem Flight.read (flight : Flight codec opening closing creds s) {t : Nat} {op : Refresher}
    {nowMs : Int64} (due : tokenExpired creds.expiresAtMs opening = true)
    (here : s.tasks t = .reading op) (opened : opening ≤ nowMs) (open' : nowMs ≤ closing) :
    Flight codec opening closing creds
      (s.proceed t (afterRead op nowMs (readFile codec s.file))) := by
  obtain ⟨holder, lazily, unrefreshed | ⟨token, renewed⟩⟩ := flight.holding here rfl
  · obtain ⟨stored, unasked, unanswered⟩ := unrefreshed
    rw [stored]
    simp only [afterRead, Refresher.fresh_due (tokenExpired_later opened due)]
    refine .proceed flight.coherent (.inr holder) ?_ trivial fun u =>
      (flight.rests u).waiting (.inl unasked) _
    refine ⟨lazily, rfl, stored, ?_, unanswered⟩
    simp [System.proceed, System.put, Phase.presented, unasked]
  · obtain ⟨answered, stored, found, bearer, fresh⟩ := id renewed
    rw [found]
    have fresh' : tokenExpired stored.expiresAtMs nowMs = false := by
      rw [Bool.eq_false_iff] at fresh ⊢
      exact fun expired => fresh (tokenExpired_later open' expired)
    obtain ⟨outcome, returns, result⟩ := Refresher.fresh_lazy lazily fresh'
    simp only [afterRead, returns]
    refine .proceed flight.coherent (.inr holder) (.inr ⟨token, renewed⟩)
      ⟨token, answered, ?_⟩ fun u => (flight.rests u).keep rfl rfl
    rwa [bearer] at result

theorem Flight.answer (flight : Flight codec opening closing creds s) {t : Nat} {op : Refresher}
    {creds' : OAuthCredentials} {issued : String} {body : List UInt8}
    (here : s.tasks t = .posting op creds')
    (outlasts : Outlasts codec opening closing issued body) :
    Flight codec opening closing creds
      ((s.exchange creds'.refreshToken (.granted issued body)).proceed t
        (.answered op creds' (.granted issued body))) := by
  obtain ⟨holder, lazily, same, stored, asked, unanswered⟩ := flight.holding here rfl
  refine .proceed (flight.coherent.exchange _ _) (.inr holder) ?_ trivial fun u =>
    (flight.rests u).waiting (.inr unanswered) _
  refine ⟨lazily, same, stored, asked, ?_, issued, body, rfl, outlasts⟩
  simp [System.proceed, System.put, System.exchange, unanswered]

/-- Every step of concurrent calls keeps the flight. -/
theorem Flight.step {s' : System} (flight : Flight codec opening closing creds s) {a : Action}
    (due : tokenExpired creds.expiresAtMs opening = true)
    (allowed : Concurrent codec opening closing s a) (taken : step codec s a = some s') :
    Flight codec opening closing creds s' := by
  cases step_spec codec taken with
  | @start t op here =>
    refine ⟨flight.coherent.put (by rw [here]; rfl) rfl, ?_, ?_⟩
    · rw [flight.coherent.current_put (by rw [here]; rfl)]
      exact flight.flies
    · intro u
      by_cases same : u = t
      · subst same
        rw [System.put_tasks_here]
        cases op with
        | refresher op => exact ⟨op, allowed, rfl⟩
        | fullCredentials | updateTokens => exact allowed.elim
      · rw [System.put_tasks_other _ _ _ same]
        exact (flight.rests u).keep rfl rfl
  | @acquire t op free here =>
    have waits := flight.rests t
    rw [here] at waits
    obtain ⟨op, lazily, rfl⟩ := waits
    have open' := flight.flies
    rw [System.current, free] at open'
    exact .proceed flight.coherent (.inl free) ⟨lazily, open'⟩ trivial fun u =>
      (flight.rests u).keep rfl rfl
  | read here =>
    obtain ⟨rfl, opened, open'⟩ := allowed
    exact flight.read due here opened open'
  | readFull here => exact (flight.holding here rfl).2.elim
  | reread here =>
    obtain ⟨rfl, _⟩ := allowed
    obtain ⟨holder, token, answered, carries, stored⟩ := flight.holding here rfl
    cases raw : readRaw codec s.file with
    | error err =>
      rw [readFile, raw] at stored
      cases stored
    | ok auth =>
      rw [readFile, raw] at stored
      have written := FsAuth.credentials_updateTokens stored carries.2.1
      rw [contents, raw]
      refine .proceed flight.coherent (.inr holder) ⟨token, answered, carries, ?_⟩ trivial
        fun u => (flight.rests u).keep rfl rfl
      rw [carries.1]
      exact written _ _
  | answer here =>
    obtain ⟨issued, body, rfl, outlasts⟩ := allowed
    exact flight.answer here outlasts
  | deliver here =>
    obtain ⟨opened, open'⟩ := allowed
    obtain ⟨holder, lazily, rfl, stored, asked, answers, issued, body, rfl, outlasts⟩ :=
      flight.holding here rfl
    obtain ⟨job, parsed, updating, parse, carries⟩ :=
      afterAnswer_outlasts _ lazily opened open' outlasts
    rw [updating]
    exact .proceed flight.coherent (.inr holder)
      ⟨parsed.accessToken, ⟨asked, issued, body, parsed, answers, parse, rfl⟩, carries, stored⟩
      trivial fun u => (flight.rests u).keep rfl rfl
  | losePost | loseAnswer | failWrite | failSync | dropWaiting | dropPost | dropRename | drop
  | orphanAnswer | orphanRename => exact allowed.elim
  | dispatch here =>
    obtain ⟨holder, flies⟩ := flight.holding here rfl
    exact .proceed flight.coherent (.inr holder) flies trivial fun u =>
      (flight.rests u).keep rfl rfl
  | @rename t job auth here =>
    obtain ⟨holder, token, answered, carries, written⟩ := flight.holding here rfl
    refine .proceed (s := s.install codec job auth) flight.coherent (.inr holder) ?_ trivial
      fun u => (flight.rests u).keep rfl rfl
    refine ⟨token, ⟨answered, _, (readFile_written codec auth).trans written, rfl, carries.2.2.1⟩,
      carries⟩
  | finish here =>
    obtain ⟨holder, token, renewed, carries⟩ := flight.holding here rfl
    exact .proceed flight.coherent (.inr holder) (.inr ⟨token, renewed⟩)
      ⟨token, renewed.1, carries.written _⟩ fun u => (flight.rests u).keep rfl rfl

theorem Flight.initial (expiring : Expiring codec opening creds s) :
    Flight codec opening closing creds s where
  coherent t := by simp [expiring.idle, expiring.free, Phase.holds]
  flies := by
    rw [System.current, expiring.free]
    exact .inl ⟨expiring.stored, expiring.unasked, expiring.unanswered⟩
  rests t := by
    rw [expiring.idle]
    trivial

theorem Flight.of_run {start : System} (expiring : Expiring codec opening creds start)
    (run : Run (Credentials.step codec) (Concurrent codec opening closing) start s) :
    Flight codec opening closing creds s :=
  run.invariant (Flight.initial expiring) fun flight allowed taken =>
    flight.step expiring.due allowed taken

/-- Nobody asks twice. -/
theorem Flight.presented_le (flight : Flight codec opening closing creds s) :
    s.presented.length ≤ 1 := by
  have one (token : String) (asked : s.presented = [token]) : s.presented.length ≤ 1 := by
    rw [asked, List.length_singleton]
  have settled (early : s.Unrefreshed codec creds ∨ ∃ token, s.Renewed codec closing creds token) :
      s.presented.length ≤ 1 := by
    rcases early with ⟨_, unasked, _⟩ | ⟨token, ⟨asked, _⟩, _⟩
    · rw [unasked]
      exact Nat.zero_le 1
    · exact one _ asked
  have flies := flight.flies
  cases phase : s.current with
  | idle =>
    rw [phase] at flies
    exact settled flies
  | reading op =>
    rw [phase] at flies
    exact settled flies.2
  | posting | answered =>
    rw [phase] at flies
    exact one _ flies.2.2.2.1
  | updating | writing | dispatched =>
    rw [phase] at flies
    obtain ⟨token, ⟨asked, _⟩, _⟩ := flies
    exact one _ asked
  | syncing =>
    rw [phase] at flies
    obtain ⟨token, ⟨⟨asked, _⟩, _⟩, _⟩ := flies
    exact one _ asked
  | locking | readingFull | done =>
    rw [phase] at flies
    exact flies.elim

end

/-- The steps that a call has still to take. -/
def Phase.remaining : Phase → Nat
  | .locking _ => 8
  | .reading _ => 7
  | .posting _ _ => 6
  | .answered _ _ _ => 5
  | .updating _ => 4
  | .writing _ _ => 3
  | .dispatched _ _ => 2
  | .syncing _ | .readingFull => 1
  | .idle | .done _ => 0

/-- The steps that the first calls have still to take. -/
def System.remaining (s : System) (n : Nat) : Nat :=
  ∑ t ∈ Finset.range n, (s.tasks t).remaining

section
variable {codec : Json.Codec} {opening closing : Int64} {creds : OAuthCredentials} {s : System}

theorem System.remaining_lt {s' : System} {t n : Nat} {phase : Phase} (bound : t < n)
    (moved : s'.tasks = Function.update s.tasks t phase)
    (fewer : phase.remaining < (s.tasks t).remaining) : s'.remaining n < s.remaining n := by
  rw [System.remaining, System.remaining, moved]
  refine Finset.sum_lt_sum ?_ ⟨t, Finset.mem_range.mpr bound, ?_⟩
  · intro u _
    by_cases same : u = t
    · subst same
      rw [Function.update_self]
      exact fewer.le
    · rw [Function.update_of_ne same]
  · rwa [Function.update_self]

/-- While a call is under way, one of them can go on. -/
theorem Flight.progress (flight : Flight codec opening closing creds s) (order : opening ≤ closing)
    {issued : String} {body : List UInt8} (outlasts : Outlasts codec opening closing issued body)
    {u : Nat} (busy : (s.tasks u).remaining ≠ 0) :
    ∃ a t phase s', Concurrent codec opening closing s a ∧ Credentials.step codec s a = some s' ∧
      s'.tasks = Function.update s.tasks t phase ∧ phase ≠ .idle ∧
      phase.remaining < (s.tasks t).remaining := by
  have within : opening ≤ opening ∧ opening ≤ closing := ⟨Int64.le_refl _, order⟩
  cases holder : s.holder with
  | none =>
    have outside : (s.tasks u).holds = false := by
      rw [Bool.eq_false_iff]
      intro holds
      rw [(flight.coherent u).mp holds] at holder
      cases holder
    cases here : s.tasks u with
    | locking op =>
      have waits := flight.rests u
      rw [here] at waits
      obtain ⟨op', _, rfl⟩ := waits
      refine ⟨.acquire u, u, .reading op', _, trivial, step_complete codec (.acquire holder here),
        rfl, by simp, ?_⟩
      simp [here, Phase.remaining]
    | idle | done => simp [here, Phase.remaining] at busy
    | _ => simp [here, Phase.holds] at outside
  | some t =>
    have holds := (flight.coherent t).mpr holder
    have flies := flight.flies
    rw [flight.coherent.current_eq holds] at flies
    cases here : s.tasks t with
    | idle | locking | done => simp [here, Phase.holds] at holds
    | readingFull =>
      rw [here] at flies
      exact flies.elim
    | reading op =>
      refine ⟨.read t opening none, t, _, _, ⟨rfl, within⟩, step_complete codec (.read here), rfl, ?_⟩
      rw [here, afterRead.eq_def]
      split
      · simp [Phase.remaining]
      · split
        · simp [Phase.remaining]
        · simp [Phase.remaining]
    | posting op creds' =>
      refine ⟨.answer t (.granted issued body), t, .answered op creds' (.granted issued body), _,
        ⟨issued, body, rfl, outlasts⟩,
        step_complete codec (.answer here), rfl, by simp, ?_⟩
      simp [here, Phase.remaining]
    | answered op creds' answer =>
      rw [here] at flies
      obtain ⟨lazily, _, _, _, _, issued', body', rfl, outlasts'⟩ := flies
      obtain ⟨job, _, updating, _, _⟩ := afterAnswer_outlasts creds' lazily within.1 within.2 outlasts'
      have delivered := step_complete codec (a := .deliver t opening) (.deliver here)
      rw [updating] at delivered
      refine ⟨.deliver t opening, t, .updating job, _, within, delivered, rfl, by simp, ?_⟩
      simp [here, Phase.remaining]
    | updating job =>
      refine ⟨.read t opening none, t, _, _, ⟨rfl, within⟩, step_complete codec (.reread here), rfl,
        ?_⟩
      rw [here, afterReread.eq_def]
      split
      · simp [Phase.remaining]
      · simp [Phase.remaining]
    | writing job auth =>
      refine ⟨.dispatch t, t, .dispatched job auth, _, trivial,
        step_complete codec (.dispatch here), rfl, by simp, ?_⟩
      simp [here, Phase.remaining]
    | dispatched job auth =>
      refine ⟨.rename t, t, .syncing job, _, trivial,
        step_complete codec (.rename here), rfl, by simp, ?_⟩
      simp [here, Phase.remaining]
    | syncing job =>
      refine ⟨.finish t, t, .done (job.written (.ok ())), _, trivial,
        step_complete codec (.finish here), rfl, by simp, ?_⟩
      simp [here, Phase.remaining]

/-- A step is the step of one call. -/
theorem tasks_step {s' : System} {a : Action} (taken : step codec s a = some s') :
    ∃ t, ∀ u, u ≠ t → s'.tasks u = s.tasks u := by
  cases step_spec codec taken with
  | @answer t op creds answer here =>
    refine ⟨t, fun u other => ?_⟩
    rw [System.proceed_tasks_other _ _ _ other]
    cases answer <;> rfl
  | @orphanAnswer i token answer here =>
    refine ⟨0, fun u _ => ?_⟩
    cases answer <;> rfl
  | orphanRename here => exact ⟨0, fun u _ => rfl⟩
  | _ => exact ⟨_, fun u other => Function.update_of_ne other ..⟩

/-- Only so many calls have been started. -/
theorem started_of_run {good : System → Action → Prop} {start : System}
    (idle : ∀ t, start.tasks t = .idle) (run : Run (step codec) good start s) :
    ∃ n, ∀ t, n ≤ t → s.tasks t = .idle := by
  induction run with
  | here => exact ⟨0, fun t _ => idle t⟩
  | step _ _ taken ih =>
    obtain ⟨n, bounded⟩ := ih
    obtain ⟨t, others⟩ := tasks_step taken
    refine ⟨max n (t + 1), ?_⟩
    intro u above
    rw [others u (by omega)]
    exact bounded u (by omega)

theorem Phase.settled {phase : Phase} (settled : phase.remaining = 0) (started : phase ≠ .idle) :
    ∃ outcome, phase = .done outcome := by
  cases phase with
  | idle => exact (started rfl).elim
  | done outcome => exact ⟨outcome, rfl⟩
  | _ => cases settled

/-- Every call that has been started returns in some continuation. -/
theorem Flight.returns (flight : Flight codec opening closing creds s)
    (due : tokenExpired creds.expiresAtMs opening = true) (order : opening ≤ closing)
    {issued : String} {body : List UInt8} (outlasts : Outlasts codec opening closing issued body)
    {n : Nat} (bounded : ∀ t, n ≤ t → s.tasks t = .idle) :
    ∃ s', Run (Credentials.step codec) (Concurrent codec opening closing) s s' ∧
      ∀ t, s.tasks t ≠ .idle → ∃ outcome, s'.tasks t = .done outcome := by
  let inv (s' : System) : Prop := Flight codec opening closing creds s' ∧
    (∀ t, n ≤ t → s'.tasks t = .idle) ∧ ∀ t, s.tasks t ≠ .idle → s'.tasks t ≠ .idle
  have descends (s₁ : System) (inv₁ : inv s₁) (unsettled : s₁.remaining n ≠ 0) :
      ∃ a s₂, Concurrent codec opening closing s₁ a ∧ Credentials.step codec s₁ a = some s₂ ∧
        inv s₂ ∧ s₂.remaining n < s₁.remaining n := by
    obtain ⟨flight₁, bounded₁, started₁⟩ := inv₁
    obtain ⟨u, _, busy⟩ := Finset.exists_ne_zero_of_sum_ne_zero unsettled
    obtain ⟨a, t, phase, s₂, allowed, taken, moved, notIdle, fewer⟩ :=
      flight₁.progress order outlasts busy
    have below : t < n := by
      by_contra above
      rw [bounded₁ t (by omega)] at fewer
      simp [Phase.remaining] at fewer
    refine ⟨a, s₂, allowed, taken, ⟨flight₁.step due allowed taken, ?_, ?_⟩,
      System.remaining_lt below moved fewer⟩
    · intro v above
      rw [moved, Function.update_of_ne (by omega)]
      exact bounded₁ v above
    · intro v started
      rw [moved]
      by_cases same : v = t
      · rw [same, Function.update_self]
        exact notIdle
      · rw [Function.update_of_ne same]
        exact started₁ v started
  obtain ⟨s', run, ⟨_, bounded', started⟩, zero⟩ :=
    Run.settles _ descends ⟨flight, bounded, fun _ started => started⟩
  refine ⟨s', run, ?_⟩
  intro t busy
  refine Phase.settled ?_ (started t busy)
  by_cases below : t < n
  · exact Finset.sum_eq_zero_iff.mp zero t (Finset.mem_range.mpr below)
  · rw [bounded' t (by omega)]
    rfl

end

/-- Calls that find the stored token due ask the endpoint once between them, and each
that returns credentials returns those of the one response. All of them can return. -/
theorem single_flight (codec : Json.Codec) (opening closing : Int64) (creds : OAuthCredentials)
    {start s : System} (expiring : Expiring codec opening creds start)
    (run : Run (step codec) (Concurrent codec opening closing) start s) :
    s.presented.length ≤ 1 ∧
    (∀ t outcome, s.tasks t = .done outcome → ∃ issued body parsed,
      s.presented = [creds.refreshToken] ∧ s.answers = [.granted issued body] ∧
      refreshToken codec (.granted issued body) = .ok parsed ∧
      ∀ result, outcome = .credentials result → result = .ok ⟨parsed.accessToken, creds.userId⟩) ∧
    (opening ≤ closing → (∃ issued body, Outlasts codec opening closing issued body) →
      ∃ s', Run (step codec) (Concurrent codec opening closing) s s' ∧
        ∀ t, s.tasks t ≠ .idle → ∃ outcome, s'.tasks t = .done outcome) := by
  have flight := Flight.of_run expiring run
  refine ⟨flight.presented_le, ?_, ?_⟩
  · intro t outcome here
    have rests := flight.rests t
    rw [here] at rests
    obtain ⟨token, ⟨asked, issued, body, parsed, answered, taken, rfl⟩, returned⟩ := rests
    exact ⟨issued, body, parsed, asked, answered, taken, returned⟩
  · rintro order ⟨issued, body, outlasts⟩
    obtain ⟨n, bounded⟩ := started_of_run expiring.idle run
    exact flight.returns expiring.due order outlasts bounded

namespace Sample
variable (codec : Json.Codec)

theorem expiring : Expiring codec 0 creds (start codec) where
  idle _ := rfl
  free := rfl
  unasked := rfl
  unanswered := rfl
  stored := readFile_written codec auth
  due := by decide

theorem outlasts : Outlasts codec 0 0 "refresh-1" (body codec "access-1") := by
  refine ⟨⟨"access-1", "refresh-1", 864000⟩, ?_, ?_⟩
  · simp only [refreshToken, response_read]
    simp
  · intro nowMs opened open'
    rw [Int64.le_antisymm open' opened]
    exact ⟨864000000, rfl, by decide⟩

/-- Two calls wait for the mutex. -/
def waiting : System :=
  ((start codec).put 0 (.locking (.refresher .getCredentials))).put 1
    (.locking (.refresher .checkAndRefresh))

theorem waiting_run : Run (step codec) (Concurrent codec 0 0) (start codec) (waiting codec) :=
  .step (a := .start 1 (.refresher .checkAndRefresh))
    (.step (a := .start 0 (.refresher .getCredentials)) .here trivial
      (step_complete codec (.start rfl)))
    trivial (step_complete codec (.start rfl))

end Sample

theorem single_flight_two : ∃ s, Run (step JsonText.codec) (Concurrent JsonText.codec 0 0)
    (Sample.start JsonText.codec) s ∧ s.presented = ["refresh-0"] ∧
    (∃ outcome, s.tasks 0 = .done outcome) ∧ ∃ outcome, s.tasks 1 = .done outcome := by
  have waiting := Sample.waiting_run JsonText.codec
  obtain ⟨_, _, returns⟩ := single_flight JsonText.codec 0 0 Sample.creds (Sample.expiring _) waiting
  obtain ⟨s, later, settled⟩ := returns (Int64.le_refl 0) ⟨_, _, Sample.outlasts _⟩
  have first : ∃ outcome, s.tasks 0 = .done outcome := settled 0 (by simp [Sample.waiting, System.put])
  have second : ∃ outcome, s.tasks 1 = .done outcome := settled 1 (by simp [Sample.waiting, System.put])
  obtain ⟨outcome, here⟩ := first
  obtain ⟨_, _, _, presented, _⟩ := (single_flight JsonText.codec 0 0 Sample.creds
    (Sample.expiring _) (waiting.trans later)).2.1 0 outcome here
  exact ⟨s, waiting.trans later, presented, ⟨outcome, here⟩, second⟩

end CodexProxy.Credentials
