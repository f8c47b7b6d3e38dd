import CodexProxy.Credentials.System

/-! One call of the store, whatever the others do. -/
namespace CodexProxy.Credentials
open Transition

/-- The kind of result that an operation returns. -/
def Outcome.Serves : Refresher → Outcome → Prop
  | .getCredentials, .credentials _ => True
  | .refreshCredentials, .refreshed _ => True
  | .checkAndRefresh, .ticked => True
  | _, _ => False

/-- A phase of a call of this operation. -/
def Phase.Serves (op : Refresher) : Phase → Prop
  | .locking op' => op' = .refresher op
  | .reading op' | .posting op' _ | .answered op' _ _ => op' = op
  | .updating job | .writing job _ | .dispatched job _ | .syncing job =>
    ∃ userId, job.writer = .refresher op userId
  | .done outcome => outcome.Serves op
  | .idle | .readingFull => False

section
variable {codec : Json.Codec} {s s' : System} {op : Refresher}

theorem Refresher.serves_readFailed (op : Refresher) (error : CredentialsError) :
    (op.readFailed error).Serves op := by cases op <;> trivial

theorem Refresher.serves_refreshFailed (op : Refresher) (creds : OAuthCredentials)
    (error : CredentialsError) : (op.refreshFailed creds error).Serves op := by
  cases op <;> trivial

theorem Refresher.serves_fresh {op : Refresher} {creds : OAuthCredentials} {nowMs : Int64}
    {outcome : Outcome} (fresh : op.fresh creds nowMs = some outcome) : outcome.Serves op := by
  cases op with
  | refreshCredentials => cases fresh
  | getCredentials | checkAndRefresh =>
    simp only [Refresher.fresh] at fresh
    split at fresh
    · cases fresh
    · cases fresh
      trivial

theorem Job.serves_written {job : Job} {userId : String}
    (writer : job.writer = .refresher op userId) (result : Except CredentialsError Unit) :
    (job.written result).Serves op := by
  rw [Job.written, writer]
  cases op <;> trivial

theorem serves_afterRead (op : Refresher) (nowMs : Int64)
    (read : Except CredentialsError OAuthCredentials) : (afterRead op nowMs read).Serves op := by
  cases read with
  | error error => exact op.serves_readFailed error
  | ok creds =>
    cases fresh : op.fresh creds nowMs with
    | none =>
      simp only [afterRead, fresh]
      rfl
    | some outcome =>
      simp only [afterRead, fresh]
      exact Refresher.serves_fresh fresh

theorem serves_afterAnswer (op : Refresher) (creds : OAuthCredentials) (nowMs : Int64)
    (answer : Except CredentialsError TokenRefreshResponse) :
    (afterAnswer op creds nowMs answer).Serves op := by
  simp only [afterAnswer]
  split
  · exact op.serves_refreshFailed creds _
  · exact ⟨creds.userId, rfl⟩

theorem serves_afterReread {job : Job} {userId : String}
    (writer : job.writer = .refresher op userId) (read : Except CredentialsError FsAuth) :
    (afterReread job read).Serves op := by
  cases read with
  | error => exact Job.serves_written writer _
  | ok auth => exact ⟨userId, writer⟩

/-- A call stays what it is until it is dropped. -/
theorem Phase.Serves.step {t : Nat} (serves : (s.tasks t).Serves op) {a : Action}
    (stays : a ≠ .drop t) (taken : step codec s a = some s') : (s'.tasks t).Serves op := by
  have moves {b : System} {u : Nat} {phase : Phase} (tasks : b.tasks = s.tasks)
      (here : t = u → phase.Serves op) : ((b.proceed u phase).tasks t).Serves op :=
    s.proceed_phase u phase (Phase.Serves op) tasks here serves
  have before {u : Nat} {phase : Phase} (here : s.tasks u = phase) (same : t = u) :
      phase.Serves op := by rwa [same, here] at serves
  cases step_spec codec taken with
  | start here => exact s.put_phase _ _ _ (fun same => (before here same).elim) serves
  | acquire free here =>
    refine moves rfl fun same => ?_
    obtain rfl := before here same
    rfl
  | read here =>
    refine moves rfl fun same => ?_
    obtain rfl := before here same
    exact serves_afterRead ..
  | readFull here => exact moves rfl fun same => (before here same).elim
  | reread here =>
    refine moves rfl fun same => ?_
    obtain ⟨userId, writer⟩ := before here same
    exact serves_afterReread writer _
  | answer here =>
    refine moves (s.exchange_tasks ..) fun same => ?_
    have posting := before here same
    exact posting
  | deliver here =>
    refine moves rfl fun same => ?_
    obtain rfl := before here same
    exact serves_afterAnswer ..
  | losePost here | loseAnswer here =>
    refine moves rfl fun same => ?_
    obtain rfl := before here same
    exact Refresher.serves_refreshFailed ..
  | dispatch here | rename here =>
    refine moves rfl fun same => ?_
    have writing := before here same
    exact writing
  | finish here | failSync here =>
    refine moves rfl fun same => ?_
    obtain ⟨userId, writer⟩ := before here same
    exact Job.serves_written writer _
  | failWrite here =>
    refine moves rfl fun same => ?_
    rcases here with here | here
    all_goals
      obtain ⟨userId, writer⟩ := before here same
      exact Job.serves_written writer _
  | dropWaiting => exact s.put_phase _ _ _ (fun same => (stays (same ▸ rfl)).elim) serves
  | dropPost | dropRename | drop => exact moves rfl fun same => (stays (same ▸ rfl)).elim
  | orphanAnswer =>
    rw [System.exchange_tasks]
    exact serves
  | orphanRename => exact serves

/-- A call that is not begun. -/
theorem idle_step {t : Nat} (idle : s.tasks t = .idle) {a : Action} (stays : ∀ op, a ≠ .start t op)
    (taken : step codec s a = some s') : s'.tasks t = .idle := by
  have moves {b : System} {u : Nat} {phase : Phase} (tasks : b.tasks = s.tasks)
      (here : s.tasks u ≠ .idle) : (b.proceed u phase).tasks t = .idle :=
    s.proceed_phase u phase (· = .idle) tasks (fun same => (here (same ▸ idle)).elim) idle
  cases step_spec codec taken with
  | start => exact s.put_phase _ _ (· = .idle) (fun same => (stays _ (by rw [same])).elim) idle
  | dropWaiting here =>
    exact s.put_phase _ _ (· = .idle) (fun _ => rfl) idle
  | answer here => exact moves (s.exchange_tasks ..) (by simp [here])
  | failWrite here => exact moves rfl (by rcases here with here | here <;> simp [here])
  | drop holds =>
    refine moves rfl fun none => ?_
    rw [none] at holds
    cases holds
  | orphanAnswer =>
    rw [System.exchange_tasks]
    exact idle
  | orphanRename => exact idle
  | acquire _ here | read here | readFull here | reread here | deliver here | losePost here
  | loseAnswer here | dispatch here | rename here | finish here | failSync here | dropPost here
  | dropRename here => exact moves rfl (by simp [here])

/-- A dropped call is gone, and no other is touched. -/
theorem drop_step {t : Nat} (taken : step codec s (.drop t) = some s') :
    s'.tasks t = .idle ∧ ∀ u, u ≠ t → s'.tasks u = s.tasks u := by
  cases step_spec codec taken with
  | dropWaiting => exact ⟨s.put_tasks_here .., fun _ other => s.put_tasks_other _ _ other⟩
  | dropPost | dropRename | drop =>
    exact ⟨System.proceed_tasks_here .., fun _ other => System.proceed_tasks_other _ _ _ other⟩

/-- The write has taken effect, and no error has been met since. -/
def Phase.Persisted : Phase → Prop
  | .syncing _ | .done (.refreshed (.ok _)) => True
  | _ => False

theorem Job.persisted_written {job : Job} {result : Except CredentialsError Unit}
    (persisted : (Phase.done (job.written result)).Persisted) : result = .ok () := by
  simp only [Job.written] at persisted
  split at persisted
  · exact persisted.elim
  · cases result with
    | ok => rfl
    | error => exact persisted.elim
  · exact persisted.elim
  · exact persisted.elim

theorem persisted_afterLock {file : File} {op : Operation} :
    ¬ (afterLock file op).Persisted := by
  cases op with
  | refresher | fullCredentials => exact id
  | updateTokens =>
    simp only [afterLock]
    split
    · exact id
    · split
      · exact id
      · exact id
    · exact id

theorem persisted_afterRead {op : Refresher} {nowMs : Int64}
    {read : Except CredentialsError OAuthCredentials} : ¬ (afterRead op nowMs read).Persisted := by
  cases read with
  | error => cases op <;> exact id
  | ok creds =>
    cases op with
    | refreshCredentials => exact id
    | getCredentials | checkAndRefresh =>
      simp only [afterRead, Refresher.fresh]
      cases tokenExpired creds.expiresAtMs nowMs <;> exact id

theorem persisted_afterAnswer {op : Refresher} {creds : OAuthCredentials} {nowMs : Int64}
    {answer : Except CredentialsError TokenRefreshResponse} :
    ¬ (afterAnswer op creds nowMs answer).Persisted := by
  simp only [afterAnswer]
  split
  · cases op <;> exact id
  · exact id

/-- Only the rename makes a write effective. -/
theorem persisted_step {t : Nat} {a : Action} (stays : a ≠ .rename t)
    (taken : step codec s a = some s') (persisted : (s'.tasks t).Persisted) :
    (s.tasks t).Persisted := by
  revert persisted
  have moves {b : System} {u : Nat} {phase : Phase} (tasks : b.tasks = s.tasks)
      (here : t = u → phase.Persisted → (s.tasks t).Persisted) :
      ((b.proceed u phase).tasks t).Persisted → (s.tasks t).Persisted :=
    s.proceed_phase u phase (fun p => p.Persisted → (s.tasks t).Persisted) tasks here id
  cases step_spec codec taken with
  | start | dropWaiting =>
    exact s.put_phase _ _ (fun p => p.Persisted → (s.tasks t).Persisted) (fun _ => False.elim) id
  | acquire => exact moves rfl fun _ persisted => (persisted_afterLock persisted).elim
  | read => exact moves rfl fun _ persisted => (persisted_afterRead persisted).elim
  | @reread u job nowMs failure here =>
    refine moves rfl fun _ persisted => ?_
    cases read : contents codec s.file failure with
    | ok => exact (read ▸ persisted).elim
    | error =>
      rw [read] at persisted
      cases Job.persisted_written persisted
  | answer here => exact moves (s.exchange_tasks ..) fun _ => False.elim
  | deliver here => exact moves rfl fun _ persisted => (persisted_afterAnswer persisted).elim
  | @losePost u op | @loseAnswer u op =>
    refine moves rfl fun _ persisted => ?_
    cases op <;> exact persisted.elim
  | rename => exact moves rfl fun same => (stays (same ▸ rfl)).elim
  | finish here =>
    refine moves rfl fun same _ => ?_
    rw [same, here]
    trivial
  | failWrite here | failSync here =>
    refine moves rfl fun _ persisted => ?_
    cases Job.persisted_written persisted
  | orphanAnswer =>
    rw [System.exchange_tasks]
    exact id
  | orphanRename => exact id
  | readFull | dispatch | dropPost | dropRename | drop => exact moves rfl fun _ => False.elim

/-- The write has taken effect, or the call has returned. -/
def Phase.Written : Phase → Prop
  | .syncing _ | .done _ => True
  | _ => False

theorem Phase.Written.step {t : Nat} (written : (s.tasks t).Written) {a : Action}
    (stays : a ≠ .drop t) (taken : step codec s a = some s') : (s'.tasks t).Written := by
  have moves {b : System} {u : Nat} {phase : Phase} (tasks : b.tasks = s.tasks)
      (here : t = u → phase.Written) : ((b.proceed u phase).tasks t).Written :=
    s.proceed_phase u phase Phase.Written tasks here written
  have before {u : Nat} {phase : Phase} (here : s.tasks u = phase) (same : t = u) :
      phase.Written := by rwa [same, here] at written
  cases step_spec codec taken with
  | start here | dropWaiting here =>
    exact s.put_phase _ _ Phase.Written (fun same => (before here same).elim) written
  | finish | failSync | failWrite => exact moves rfl fun _ => trivial
  | rename => exact moves rfl fun _ => trivial
  | answer here => exact moves (s.exchange_tasks ..) fun same => (before here same).elim
  | drop => exact moves rfl fun same => (stays (same ▸ rfl)).elim
  | orphanAnswer =>
    rw [System.exchange_tasks]
    exact written
  | orphanRename => exact written
  | acquire _ here | read here | readFull here | reread here | deliver here | losePost here
  | loseAnswer here | dispatch here | dropPost here | dropRename here =>
    exact moves rfl fun same => (before here same).elim

/-- It finds a token that is not due. -/
theorem fetch_run (good : System → Action → Prop) (t : Nat) (nowMs : Int64)
    {creds : OAuthCredentials} (free : s.holder = none)
    (here : s.tasks t = .locking (.refresher .getCredentials))
    (stored : readFile codec s.file = .ok creds)
    (fresh : tokenExpired creds.expiresAtMs nowMs = false)
    (allowed : ∀ s' a, s'.file = s.file → a = .acquire t ∨ a = .read t nowMs none → good s' a) :
    ∃ s', Run (step codec) good s s' ∧ s'.holder = none ∧ s'.file = s.file ∧
      s'.answers = s.answers ∧ s'.presented = s.presented ∧
      s'.tasks = Function.update s.tasks t (.done (.credentials (.ok creds.bearer))) := by
  have read := step_complete codec (a := .read t nowMs none)
    (.read (System.proceed_tasks_here s t (.reading .getCredentials)))
  rw [System.proceed_file, show (contents codec s.file none).bind FsAuth.credentials = .ok creds
    from stored] at read
  simp only [afterRead, Refresher.fresh, fresh, Bool.false_eq_true, if_false] at read
  refine ⟨_, .head (allowed _ _ rfl (.inl rfl)) (step_complete codec (.acquire free here))
    (.head (allowed _ _ rfl (.inr rfl)) read .here), rfl, rfl, rfl, rfl, ?_⟩
  simp [System.proceed, System.put]

/-- It refreshes what is due. -/
theorem refresh_run (good : System → Action → Prop) (t : Nat) (nowMs expiresAtMs : Int64)
    {op : Refresher} {creds : OAuthCredentials} {answer : TokenAnswer}
    {parsed : TokenRefreshResponse} (free : s.holder = none) (here : s.tasks t = .locking (.refresher op))
    (stored : readFile codec s.file = .ok creds) (due : op.fresh creds nowMs = none)
    (taken : refreshToken codec answer = .ok parsed)
    (expiry : expiresAtFrom nowMs parsed.expiresIn = .ok expiresAtMs)
    (allowed : ∀ s' a, s'.file = s.file → a = .acquire t ∨ a = .read t nowMs none ∨
      a = .deliver t nowMs ∨ a = .dispatch t ∨ a = .rename t → good s' a)
    (answers : ∀ s', s'.answers = s.answers → good s' (.answer t answer))
    (finishes : ∀ s', good s' (.finish t)) :
    ∃ s', Run (step codec) good s s' ∧ s'.holder = none ∧
      s'.presented = creds.refreshToken :: s.presented ∧
      readFile codec s'.file = .ok ⟨parsed.accessToken,
        rotatedToken creds.refreshToken parsed.refreshToken, expiresAtMs, creds.userId⟩ ∧
      s'.tasks = Function.update s.tasks t (.done (Job.written ⟨parsed.accessToken,
        rotatedToken creds.refreshToken parsed.refreshToken, expiresAtMs,
        .refresher op creds.userId⟩ (.ok ()))) := by
  obtain ⟨auth, raw, found⟩ := readFile_ok codec stored
  let job : Job := ⟨parsed.accessToken, rotatedToken creds.refreshToken parsed.refreshToken,
    expiresAtMs, .refresher op creds.userId⟩
  have written := FsAuth.credentials_updateTokens found (refreshToken_nonempty taken)
    job.refreshToken expiresAtMs
  cases answer with
  | refused => cases taken
  | granted issued body =>
    let asked := (s.proceed t (.reading op)).proceed t (.posting op creds)
    let answered := (asked.exchange creds.refreshToken (.granted issued body)).proceed t
      (.answered op creds (.granted issued body))
    let renewed := auth.updateTokens job.accessToken job.refreshToken expiresAtMs
    let writing := (answered.proceed t (.updating job)).proceed t (.writing job renewed)
    let dispatched := writing.proceed t (.dispatched job renewed)
    let syncing := (dispatched.install codec job renewed).proceed t (.syncing job)
    have read := step_complete codec (a := .read t nowMs none)
      (.read (System.proceed_tasks_here s t (.reading op)))
    rw [System.proceed_file, show (contents codec s.file none).bind FsAuth.credentials = .ok creds
      from stored] at read
    simp only [afterRead, due] at read
    have delivered := step_complete codec (a := .deliver t nowMs)
      (.deliver (System.proceed_tasks_here _ t (.answered op creds (.granted issued body)))
        (s := answered))
    simp only [afterAnswer, taken, bind, Except.bind, expiry, pure, Except.pure] at delivered
    have reread := step_complete codec (a := .read t nowMs none)
      (.reread (System.proceed_tasks_here answered t (.updating job)))
    rw [contents, System.proceed_file, show readRaw codec answered.file = .ok auth from raw] at reread
    have answeredFile : answered.file = s.file := System.proceed_file ..
    have writingFile : writing.file = s.file :=
      (System.proceed_file ..).trans ((System.proceed_file ..).trans answeredFile)
    have dispatchedFile : dispatched.file = s.file := (System.proceed_file ..).trans writingFile
    have asking : Run (step codec) good s answered :=
      .head (allowed _ _ rfl (.inl rfl)) (step_complete codec (.acquire free here))
        (.head (allowed _ _ rfl (.inr (.inl rfl))) read
          (.head (answers _ rfl) (step_complete codec (.answer (System.proceed_tasks_here ..)))
            .here))
    have updating : Run (step codec) good answered writing :=
      .head (allowed _ _ answeredFile (.inr (.inr (.inl rfl)))) delivered
        (.head (allowed _ _ ((System.proceed_file ..).trans answeredFile) (.inr (.inl rfl))) reread
          .here)
    have dispatching : Run (step codec) good writing dispatched :=
      .head (allowed _ _ writingFile (.inr (.inr (.inr (.inl rfl)))))
        (step_complete codec (.dispatch (System.proceed_tasks_here ..))) .here
    have renamed : Run (step codec) good dispatched syncing :=
      .head (allowed _ _ dispatchedFile (.inr (.inr (.inr (.inr rfl)))))
        (step_complete codec (.rename (System.proceed_tasks_here ..))) .here
    have finishing : Run (step codec) good syncing
        (syncing.proceed t (.done (job.written (.ok ())))) :=
      .head (finishes _) (step_complete codec (.finish (System.proceed_tasks_here ..))) .here
    have reached := asking.trans (updating.trans (dispatching.trans (renamed.trans finishing)))
    refine ⟨_, reached, ?_, ?_, ?_, ?_⟩
    · rfl
    · rfl
    · exact (readFile_written codec _).trans written
    · simp [syncing, dispatched, writing, answered, asked, job, System.proceed, System.put,
        System.exchange, System.install]

end
end CodexProxy.Credentials
