import CodexProxy.Credentials.SingleFlight

/-! One call with the file to itself: the others only come and go at the mutex. What a
refresh leaves in the file depends on the answer and not on the operation. -/
namespace CodexProxy.Credentials
open Transition

/-- The call moves by itself. -/
def Action.Moves (t : Nat) : Action → Prop
  | .acquire u | .read u _ _ | .answer u _ | .deliver u _ | .lose u _ | .dispatch u | .rename u
  | .finish u | .fail u _ => u = t
  | .start _ _ | .drop _ | .orphanAnswer _ _ | .orphanRename _ => False

/-- The others come, and may go before they get the mutex. -/
def Alone (t : Nat) (s : System) (a : Action) : Prop :=
  a.Moves t ∨ ∃ u, u ≠ t ∧ ((∃ op, a = .start u op) ∨ a = .drop u ∧ (s.tasks u).holds = false)

/-- The endpoint gives this answer, and it arrives; the file is read and written without
failure. The clock shows `readMs` at the reads and `nowMs` when the answer arrives. -/
def Handling (t : Nat) (answer : TokenAnswer) (readMs nowMs : Int64) (s : System) (a : Action) :
    Prop :=
  Alone t s a ∧
    match a with
    | .read _ clock failure => clock = readMs ∧ failure = none
    | .answer _ given => given = answer
    | .deliver _ clock => clock = nowMs
    | .lose _ _ | .fail _ _ => False
    | _ => True

/-- The tokens that are taken from an answer, with their expiry. -/
def newTokens (codec : Json.Codec) (answer : TokenAnswer) (nowMs : Int64) :
    Except CredentialsError (TokenRefreshResponse × Int64) := do
  let parsed ← refreshToken codec answer
  let expiresAtMs ← expiresAtFrom nowMs parsed.expiresIn
  return (parsed, expiresAtMs)

/-- The file after an answer: as it was, or with the tokens that were taken. -/
def leaves (codec : Json.Codec) (file : File) (auth : FsAuth) (answer : TokenAnswer)
    (nowMs : Int64) : File :=
  match newTokens codec answer nowMs with
  | .error _ => file
  | .ok (parsed, expiresAtMs) => some ((auth.updateTokens parsed.accessToken
      (rotatedToken auth.tokens.refreshToken parsed.refreshToken) expiresAtMs).toVecPretty codec)

section
variable {codec : Json.Codec} {s s' : System} {t : Nat}

/-- What the others do while they wait touches neither the call nor what it works on. -/
theorem Alone.step {a : Action} (alone : Alone t s a) (taken : step codec s a = some s') :
    a.Moves t ∨ (s'.tasks t = s.tasks t ∧ s'.file = s.file ∧ s'.presented = s.presented) := by
  rcases alone with moves | ⟨u, other, ⟨op, rfl⟩ | ⟨rfl, outside⟩⟩
  · exact .inl moves
  · cases step_spec codec taken with
    | start => exact .inr ⟨s.put_tasks_other _ _ other.symm, rfl, rfl⟩
  · cases step_spec codec taken with
    | dropWaiting => exact .inr ⟨s.put_tasks_other _ _ other.symm, rfl, rfl⟩
    | dropPost here | dropRename here =>
      rw [here] at outside
      cases outside
    | drop holds =>
      rw [outside] at holds
      cases holds

/-- The token that is sent and the token that is kept are the file's. -/
theorem FsAuth.credentials_refreshToken {auth : FsAuth} {creds : OAuthCredentials}
    (stored : auth.credentials = .ok creds) : creds.refreshToken = auth.tokens.refreshToken := by
  simp only [FsAuth.credentials] at stored
  generalize (if auth.tokens.accessToken = "" then auth.tokens.idToken
    else auth.tokens.accessToken) = token at stored
  split at stored
  · cases stored
  · cases stored
    rfl

/-- Where the call stands with its answer, and what is in the file by then. -/
def Phase.Handles (codec : Json.Codec) (op : Refresher) (creds : OAuthCredentials)
    (answer : TokenAnswer) (nowMs : Int64) (auth : FsAuth) (file now : File) : Phase → Prop
  | .locking op' => op' = .refresher op ∧ now = file
  | .reading op' => op' = op ∧ now = file
  | .posting op' creds' => op' = op ∧ creds' = creds ∧ now = file
  | .answered op' creds' answer' => op' = op ∧ creds' = creds ∧ answer' = answer ∧ now = file
  | .updating job => now = file ∧ leaves codec file auth answer nowMs =
      some ((auth.updateTokens job.accessToken job.refreshToken job.expiresAtMs).toVecPretty codec)
  | .writing _ auth' | .dispatched _ auth' =>
    leaves codec file auth answer nowMs = some (auth'.toVecPretty codec)
  | .syncing _ | .done _ => now = leaves codec file auth answer nowMs
  | .idle | .readingFull => False

section
variable {op : Refresher} {creds : OAuthCredentials} {answer : TokenAnswer} {readMs nowMs : Int64}
  {auth : FsAuth} {file : File}

theorem handles_afterAnswer (stored : auth.credentials = .ok creds) :
    (afterAnswer op creds nowMs (refreshToken codec answer)).Handles codec op creds answer nowMs auth
      file file := by
  have kept := FsAuth.credentials_refreshToken stored
  cases taken : newTokens codec answer nowMs with
  | error error =>
    have refused : afterAnswer op creds nowMs (refreshToken codec answer) =
        .done (op.refreshFailed creds error) := by
      rw [newTokens] at taken
      rw [afterAnswer, taken]
    rw [refused]
    simp only [Phase.Handles, leaves, taken]
  | ok tokens =>
    have accepted : afterAnswer op creds nowMs (refreshToken codec answer) =
        .updating ⟨tokens.1.accessToken, rotatedToken creds.refreshToken tokens.1.refreshToken,
          tokens.2, .refresher op creds.userId⟩ := by
      rw [newTokens] at taken
      rw [afterAnswer, taken]
    rw [accepted, kept]
    simp only [Phase.Handles, leaves, taken, and_self]

theorem Phase.Handles.step (raw : readRaw codec file = .ok auth)
    (stored : auth.credentials = .ok creds) (due : op.fresh creds readMs = none)
    (handles : (s.tasks t).Handles codec op creds answer nowMs auth file s.file) {a : Action}
    (allowed : Handling t answer readMs nowMs s a) (taken : Credentials.step codec s a = some s') :
    (s'.tasks t).Handles codec op creds answer nowMs auth file s'.file := by
  obtain ⟨alone, smooth⟩ := allowed
  rcases alone.step taken with moves | ⟨tasks, kept, _⟩
  case inr =>
    rw [tasks, kept]
    exact handles
  cases step_spec codec taken with
  | start | dropWaiting | dropPost | dropRename | drop | orphanAnswer | orphanRename =>
    exact moves.elim
  | losePost | loseAnswer | failWrite | failSync => exact smooth.elim
  | acquire _ here =>
    obtain rfl := moves
    rw [here] at handles
    obtain ⟨rfl, kept⟩ := handles
    rw [System.proceed_tasks_here]
    exact ⟨rfl, kept⟩
  | read here =>
    obtain rfl := moves
    obtain ⟨rfl, rfl⟩ := smooth
    rw [here] at handles
    obtain ⟨rfl, kept⟩ := handles
    rw [System.proceed_tasks_here, contents, kept, raw]
    simp only [Except.bind, stored, afterRead, due]
    exact ⟨rfl, rfl, kept⟩
  | readFull here =>
    obtain rfl := moves
    rw [here] at handles
    exact handles.elim
  | reread here =>
    obtain rfl := moves
    obtain ⟨rfl, rfl⟩ := smooth
    rw [here] at handles
    obtain ⟨kept, installs⟩ := handles
    rw [System.proceed_tasks_here, contents, kept, raw]
    exact installs
  | answer here =>
    obtain rfl := moves
    obtain rfl := smooth
    rw [here] at handles
    obtain ⟨rfl, rfl, kept⟩ := handles
    rw [System.proceed_tasks_here]
    exact ⟨rfl, rfl, rfl, (s.exchange_file ..).trans kept⟩
  | deliver here =>
    obtain rfl := moves
    obtain rfl := smooth
    rw [here] at handles
    obtain ⟨rfl, rfl, rfl, kept⟩ := handles
    rw [System.proceed_tasks_here, System.proceed_file, kept]
    exact handles_afterAnswer stored
  | dispatch here =>
    obtain rfl := moves
    rw [here] at handles
    rw [System.proceed_tasks_here]
    exact handles
  | rename here =>
    obtain rfl := moves
    rw [here] at handles
    rw [System.proceed_tasks_here]
    exact handles.symm
  | finish here =>
    obtain rfl := moves
    rw [here] at handles
    rw [System.proceed_tasks_here]
    exact handles

/-- A call that is next at the mutex finds these credentials, for which a refresh is due. -/
structure Ready (codec : Json.Codec) (t : Nat) (op : Refresher) (creds : OAuthCredentials)
    (auth : FsAuth) (readMs : Int64) (s : System) : Prop where
  free : s.holder = none
  waits : s.tasks t = .locking (.refresher op)
  raw : readRaw codec s.file = .ok auth
  stored : auth.credentials = .ok creds
  due : op.fresh creds readMs = none

theorem Ready.handles (ready : Ready codec t op creds auth readMs s)
    (reached : Run (Credentials.step codec) (Handling t answer readMs nowMs) s s') :
    (s'.tasks t).Handles codec op creds answer nowMs auth s.file s'.file := by
  induction reached with
  | here =>
    rw [ready.waits]
    exact ⟨rfl, rfl⟩
  | step _ allowed taken ih => exact ih.step ready.raw ready.stored ready.due allowed taken

/-- What a returned call leaves in the file. -/
theorem Ready.left (ready : Ready codec t op creds auth readMs s)
    (reached : Run (Credentials.step codec) (Handling t answer readMs nowMs) s s')
    {outcome : Outcome} (returned : s'.tasks t = .done outcome) :
    s'.file = leaves codec s.file auth answer nowMs := by
  have handles := ready.handles reached
  rw [returned] at handles
  exact handles

/-- The call has not returned, or has handled its answer; it has the mutex or can get it. -/
structure Underway (codec : Json.Codec) (t : Nat) (op : Refresher) (creds : OAuthCredentials)
    (answer : TokenAnswer) (nowMs : Int64) (auth : FsAuth) (file : File) (s : System) : Prop where
  handles : (s.tasks t).Handles codec op creds answer nowMs auth file s.file
  free : ∀ op, s.tasks t = .locking op → s.holder = none

/-- The call can always go on. -/
theorem Underway.progress (raw : readRaw codec file = .ok auth)
    (stored : auth.credentials = .ok creds) (due : op.fresh creds readMs = none)
    (underway : Underway codec t op creds answer nowMs auth file s)
    (busy : (s.tasks t).remaining ≠ 0) :
    ∃ (a : Action) (b : System) (phase : Phase), Handling t answer readMs nowMs s a ∧
      Credentials.step codec s a = some (b.proceed t phase) ∧
      (∀ op, phase ≠ .locking op) ∧ phase.remaining < (s.tasks t).remaining := by
  obtain ⟨handles, free⟩ := underway
  cases here : s.tasks t with
  | idle | done =>
    rw [here] at busy
    exact (busy rfl).elim
  | readingFull =>
    rw [here] at handles
    exact handles.elim
  | locking =>
    rw [here] at handles
    obtain ⟨rfl, _⟩ := handles
    exact ⟨.acquire t, _, _, ⟨.inl rfl, trivial⟩, step_complete codec (.acquire (free _ here) here),
      by simp [afterLock],
      by simp [afterLock, Phase.remaining]⟩
  | reading =>
    rw [here] at handles
    obtain ⟨rfl, kept⟩ := handles
    have asks := step_complete codec (a := .read t readMs none) (.read here)
    rw [contents, kept, raw] at asks
    simp only [Except.bind, stored, afterRead, due] at asks
    exact ⟨.read t readMs none, _, _, ⟨.inl rfl, rfl, rfl⟩, asks, by simp, by simp [Phase.remaining]⟩
  | posting =>
    exact ⟨.answer t answer, _, _, ⟨.inl rfl, rfl⟩, step_complete codec (.answer here), by simp,
      by simp [Phase.remaining]⟩
  | answered op' creds' answer' =>
    refine ⟨.deliver t nowMs, _, _, ⟨.inl rfl, rfl⟩, step_complete codec (.deliver here), ?_, ?_⟩
    all_goals
      simp only [afterAnswer]
      split
    · simp
    · simp
    · simp [Phase.remaining]
    · simp [Phase.remaining]
  | updating job =>
    rw [here] at handles
    have rereads := step_complete codec (a := .read t readMs none) (.reread here)
    rw [contents, handles.1, raw] at rereads
    exact ⟨.read t readMs none, _, _, ⟨.inl rfl, rfl, rfl⟩, rereads, by simp [afterReread],
      by simp [afterReread, Phase.remaining]⟩
  | writing =>
    exact ⟨.dispatch t, _, _, ⟨.inl rfl, trivial⟩, step_complete codec (.dispatch here), by simp,
      by simp [Phase.remaining]⟩
  | dispatched =>
    exact ⟨.rename t, _, _, ⟨.inl rfl, trivial⟩, step_complete codec (.rename here), by simp,
      by simp [Phase.remaining]⟩
  | syncing =>
    exact ⟨.finish t, _, _, ⟨.inl rfl, trivial⟩, step_complete codec (.finish here), by simp,
      by simp [Phase.remaining]⟩

/-- The call returns. -/
theorem Ready.returns (ready : Ready codec t op creds auth readMs s) (answer : TokenAnswer)
    (nowMs : Int64) : ∃ s' outcome, Run (Credentials.step codec) (Handling t answer readMs nowMs) s s' ∧
      s'.tasks t = .done outcome := by
  have descends : ∀ b, Underway codec t op creds answer nowMs auth s.file b →
      (b.tasks t).remaining ≠ 0 → ∃ a c, Handling t answer readMs nowMs b a ∧
        Credentials.step codec b a = some c ∧ Underway codec t op creds answer nowMs auth s.file c ∧
        (c.tasks t).remaining < (b.tasks t).remaining := by
    intro b underway busy
    obtain ⟨a, c, phase, allowed, taken, beyond, fewer⟩ :=
      underway.progress ready.raw ready.stored ready.due busy
    have handles := underway.handles.step ready.raw ready.stored ready.due allowed taken
    refine ⟨a, _, allowed, taken, ⟨handles, ?_⟩, ?_⟩
    · rw [System.proceed_tasks_here]
      exact fun op same => (beyond op same).elim
    · rwa [System.proceed_tasks_here]
  obtain ⟨s', reached, ⟨handles, _⟩, settled⟩ := Run.settles _ descends
    ⟨ready.handles .here, fun _ _ => ready.free⟩
  cases here : s'.tasks t with
  | done outcome => exact ⟨s', outcome, reached, here⟩
  | idle =>
    rw [here] at handles
    exact handles.elim
  | _ =>
    rw [here] at settled
    cases settled

end
end
end CodexProxy.Credentials
