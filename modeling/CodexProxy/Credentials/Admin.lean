import CodexProxy.Router.Proxy
import CodexProxy.Credentials.Rotation
import CodexProxy.Credentials.Handling

/-! Credentials that are pushed from outside: over a file that is there, or as the first. -/
namespace CodexProxy.Credentials
open Transition Router

structure UpdateCredentialsBody where
  accessToken : String
  refreshToken : String
  expiresAt : Int64
  userId : Option String

/-- The update that a request is forwarded as. -/
def UpdateCredentialsBody.updateCredentials (body : UpdateCredentialsBody) :
    Except ApiError Operation :=
  if body.accessToken = "" ∨ body.refreshToken = "" ∨ body.expiresAt = 0 then
    .error (.badRequest "Missing required fields: accessToken, refreshToken, expiresAt")
  else .ok (.updateTokens body.accessToken body.refreshToken body.expiresAt body.userId)

theorem UpdateCredentialsBody.forwarded {body : UpdateCredentialsBody} {op : Operation}
    (forwarded : body.updateCredentials = .ok op) : body.accessToken ≠ "" ∧
      op = .updateTokens body.accessToken body.refreshToken body.expiresAt body.userId := by
  rw [updateCredentials] at forwarded
  split at forwarded
  · cases forwarded
  · rename_i whole
    cases forwarded
    exact ⟨fun empty => whole (.inl empty), rfl⟩

section
variable {codec : Json.Codec} {s s' : System} {t : Nat} {body : UpdateCredentialsBody}
  {file : File} {auth : FsAuth}

def UpdateCredentialsBody.job (body : UpdateCredentialsBody) : Job where
  accessToken := body.accessToken
  refreshToken := body.refreshToken
  expiresAtMs := body.expiresAt
  writer := .push

/-- The contents that a push makes of a file. Only a file that is created takes its account
from the push, and needs one. -/
inductive Pushed (codec : Json.Codec) (body : UpdateCredentialsBody) : File → FsAuth → Prop where
  | created {userId : String} (account : body.userId = some userId) (named : userId ≠ "") :
      Pushed codec body none
        (.init ⟨body.accessToken, body.refreshToken, body.expiresAt, userId⟩)
  | updated {bytes : List UInt8} {auth : FsAuth} (raw : readRaw codec (some bytes) = .ok auth) :
      Pushed codec body (some bytes)
        (auth.updateTokens body.accessToken body.refreshToken body.expiresAt)

theorem Pushed.over {bytes : List UInt8} {old : FsAuth} (pushed : Pushed codec body (some bytes) auth)
    (raw : readRaw codec (some bytes) = .ok old) :
    auth = old.updateTokens body.accessToken body.refreshToken body.expiresAt := by
  cases pushed with
  | updated found =>
    cases found.symm.trans raw
    rfl

/-- Where a push stands, and what is in the file by then. -/
def Phase.Pushes (codec : Json.Codec) (body : UpdateCredentialsBody) (file now : File) :
    Phase → Prop
  | .locking op =>
    op = .updateTokens body.accessToken body.refreshToken body.expiresAt body.userId ∧ now = file
  | .updating job => job = body.job ∧ now = file ∧ file ≠ none
  | .writing job auth | .dispatched job auth => job = body.job ∧ Pushed codec body file auth
  | .syncing job => job = body.job ∧ ∃ auth, Pushed codec body file auth ∧
      now = some (auth.toVecPretty codec)
  | .done outcome => outcome = .updated (.ok ()) → ∃ auth, Pushed codec body file auth ∧
      now = some (auth.toVecPretty codec)
  | _ => False

theorem pushes_failed (error : CredentialsError) (now : File) :
    (Phase.done (body.job.written (.error error))).Pushes codec body file now :=
  fun succeeded => by cases succeeded

theorem pushes_afterLock : (afterLock file (.updateTokens body.accessToken body.refreshToken
    body.expiresAt body.userId)).Pushes codec body file file := by
  cases file with
  | some => exact ⟨rfl, rfl, by simp⟩
  | none =>
    cases account : body.userId with
    | none => exact pushes_failed _ _
    | some userId =>
      simp only [afterLock]
      split
      · exact pushes_failed _ _
      · rename_i named
        exact ⟨rfl, .created account named⟩

theorem Phase.Pushes.step (pushes : (s.tasks t).Pushes codec body file s.file) {a : Action}
    (alone : Alone t s a) (taken : Credentials.step codec s a = some s') :
    (s'.tasks t).Pushes codec body file s'.file := by
  rcases alone.step taken with moves | ⟨tasks, kept, _⟩
  case inr =>
    rw [tasks, kept]
    exact pushes
  cases step_spec codec taken with
  | acquire _ here =>
    obtain rfl := moves
    rw [here] at pushes
    obtain ⟨rfl, kept⟩ := pushes
    rw [System.proceed_tasks_here, System.proceed_file, kept]
    exact pushes_afterLock
  | @reread _ job nowMs failure here =>
    obtain rfl := moves
    rw [here] at pushes
    obtain ⟨rfl, kept, exists'⟩ := pushes
    rw [System.proceed_tasks_here, System.proceed_file, kept]
    cases read : contents codec file failure with
    | error error => exact pushes_failed _ _
    | ok auth =>
      obtain ⟨bytes, rfl⟩ := Option.ne_none_iff_exists'.mp exists'
      cases failure with
      | some => cases read
      | none => exact ⟨rfl, .updated read⟩
  | dispatch here =>
    obtain rfl := moves
    rw [here] at pushes
    rw [System.proceed_tasks_here]
    exact pushes
  | rename here =>
    obtain rfl := moves
    rw [here] at pushes
    obtain ⟨rfl, pushed⟩ := pushes
    rw [System.proceed_tasks_here]
    exact ⟨rfl, _, pushed, rfl⟩
  | finish here =>
    obtain rfl := moves
    rw [here] at pushes
    rw [System.proceed_tasks_here]
    exact fun _ => pushes.2
  | failWrite here =>
    obtain rfl := moves
    rw [System.proceed_tasks_here]
    rcases here with here | here
    all_goals
      rw [here] at pushes
      obtain ⟨rfl, _⟩ := pushes
      exact pushes_failed _ _
  | failSync here =>
    obtain rfl := moves
    rw [here] at pushes
    obtain ⟨rfl, _⟩ := pushes
    rw [System.proceed_tasks_here]
    exact pushes_failed _ _
  | read here | readFull here | answer here | deliver here | losePost here | loseAnswer here =>
    obtain rfl := moves
    rw [here] at pushes
    exact pushes.elim
  | start | dropWaiting | dropPost | dropRename | drop | orphanAnswer | orphanRename =>
    exact moves.elim

/-- What a push that succeeded has left in the file. -/
theorem pushed_run {op : Operation} (forwarded : body.updateCredentials = .ok op)
    (waits : s.tasks t = .locking op) (reached : Run (step codec) (Alone t) s s')
    (acknowledged : s'.tasks t = .done (.updated (.ok ()))) :
    ∃ auth, Pushed codec body s.file auth ∧ s'.file = some (auth.toVecPretty codec) := by
  have pushes : (s'.tasks t).Pushes codec body s.file s'.file := by
    clear acknowledged
    induction reached with
    | here =>
      rw [waits]
      exact ⟨(UpdateCredentialsBody.forwarded forwarded).2, rfl⟩
    | step _ alone taken ih => exact ih.step alone taken
  rw [acknowledged] at pushes
  exact pushes rfl

/-- With an access token, contents are read back exactly when they have an account. -/
theorem FsAuth.credentials_access {auth : FsAuth} (nonempty : auth.tokens.accessToken ≠ "") :
    auth.credentials = if auth.tokens.accountId = "" then
      .error (.unavailable "missing token or account_id in credentials file")
    else .ok ⟨auth.tokens.accessToken, auth.tokens.refreshToken, auth.tokens.expiresAt,
      auth.tokens.accountId⟩ := by
  simp only [FsAuth.credentials, nonempty, if_false, false_or]

/-- An acknowledged push can be read back exactly when it has created the file or the
file has an account. -/
theorem push_usable_iff {op : Operation} (forwarded : body.updateCredentials = .ok op)
    (waits : s.tasks t = .locking op) (reached : Run (step codec) (Alone t) s s')
    (acknowledged : s'.tasks t = .done (.updated (.ok ()))) :
    (∃ userId, userId ≠ "" ∧ readFile codec s'.file =
        .ok ⟨body.accessToken, body.refreshToken, body.expiresAt, userId⟩) ↔
      s.file = none ∨ ∃ auth, readRaw codec s.file = .ok auth ∧ auth.tokens.accountId ≠ "" := by
  obtain ⟨nonempty, _⟩ := UpdateCredentialsBody.forwarded forwarded
  obtain ⟨auth, pushed, written⟩ := pushed_run forwarded waits reached acknowledged
  rw [written, readFile_written]
  generalize s.file = file at pushed ⊢
  cases pushed with
  | @created userId account named =>
    rw [FsAuth.credentials_access nonempty]
    exact iff_of_true ⟨userId, named, if_neg named⟩ (.inl rfl)
  | @updated bytes auth raw =>
    rw [FsAuth.credentials_access nonempty, raw]
    by_cases account : auth.tokens.accountId = ""
    · refine iff_of_false ?_ ?_
      · rintro ⟨userId, _, read⟩
        cases (if_pos account).symm.trans read
      · rintro (⟨⟨⟩⟩ | ⟨_, ⟨⟩, named⟩)
        exact named account
    · exact iff_of_true ⟨auth.tokens.accountId, account, if_neg account⟩
        (.inr ⟨auth, rfl, account⟩)

/-- What has been prepared is written. -/
theorem write_run {job : Job} (writing : s.tasks t = .writing job auth) :
    ∃ s', Run (step codec) (Alone t) s s' ∧ s'.tasks t = .done (job.written (.ok ())) := by
  have dispatched := step_complete codec (.dispatch writing)
  have renamed := step_complete codec (.rename (System.proceed_tasks_here s t (.dispatched job auth)))
  have finished := step_complete codec (.finish (System.proceed_tasks_here
    ((s.proceed t (.dispatched job auth)).install codec job auth) t (.syncing job)))
  exact ⟨_, .head (a := Action.dispatch t) (.inl rfl) dispatched
    (.head (a := Action.rename t) (.inl rfl) renamed
      (.head (a := Action.finish t) (.inl rfl) finished .here)), System.proceed_tasks_here ..⟩

/-- A push that has something to make of the file can succeed. -/
theorem push_returns {op : Operation} (forwarded : body.updateCredentials = .ok op)
    (free : s.holder = none) (waits : s.tasks t = .locking op)
    (pushed : Pushed codec body s.file auth) :
    ∃ s', Run (step codec) (Alone t) s s' ∧ s'.tasks t = .done (.updated (.ok ())) := by
  obtain ⟨_, rfl⟩ := UpdateCredentialsBody.forwarded forwarded
  have acquired := step_complete codec (.acquire free waits)
  have prepares : ∃ b, Run (step codec) (Alone t) s b ∧ b.tasks t = .writing body.job auth := by
    cases present : s.file with
    | none =>
      rw [present] at pushed acquired
      cases pushed with
      | @created userId account named =>
        refine ⟨_, .step (a := Action.acquire t) .here (.inl rfl) acquired, ?_⟩
        rw [System.proceed_tasks_here, account]
        simp only [afterLock, if_neg named]
        rfl
    | some bytes =>
      rw [present] at pushed acquired
      cases pushed with
      | @updated bytes auth raw =>
        have reread := step_complete codec (a := .read t 0 none)
          (.reread (System.proceed_tasks_here s t (.updating body.job)))
        rw [contents, System.proceed_file, present, raw] at reread
        exact ⟨_, .head (a := Action.acquire t) (.inl rfl) acquired
          (.head (a := Action.read t 0 none) (.inl rfl) reread .here), System.proceed_tasks_here ..⟩
  obtain ⟨b, reached, writing⟩ := prepares
  obtain ⟨s', later, returned⟩ : ∃ s', Run (step codec) (Alone t) b s' ∧ _ := write_run writing
  exact ⟨s', reached.trans later, returned⟩

end

namespace Sample
variable (codec : Json.Codec)

/-- A push that names an account. -/
def push : UpdateCredentialsBody := ⟨"access-2", "refresh-2", 1700864000000, some "account"⟩

theorem forwarded : push.updateCredentials =
    .ok (.updateTokens "access-2" "refresh-2" 1700864000000 (some "account")) := rfl

def nameless : FsAuth where
  tokens := { accessToken := "access-0", refreshToken := "refresh-0" }

/-- The push waits for the mutex. -/
def pushing (file : File) : System where
  __ := (start codec).put 0
    (.locking (.updateTokens "access-2" "refresh-2" 1700864000000 (some "account")))
  file := file

theorem pushing_waits (file : File) : (pushing codec file).tasks 0 =
    .locking (.updateTokens "access-2" "refresh-2" 1700864000000 (some "account")) :=
  (start codec).put_tasks_here 0 _

theorem push_run {file : File} {auth : FsAuth} (pushed : Pushed codec push file auth) :
    ∃ s', Run (step codec) (Alone 0) (pushing codec file) s' ∧
      s'.tasks 0 = .done (.updated (.ok ())) :=
  push_returns forwarded rfl (pushing_waits codec file) pushed

end Sample

theorem push_usable_iff_first : ∃ s' userId, Run (step JsonText.codec) (Alone 0)
    (Sample.pushing JsonText.codec none) s' ∧ s'.tasks 0 = .done (.updated (.ok ())) ∧
    readFile JsonText.codec s'.file = .ok ⟨"access-2", "refresh-2", 1700864000000, userId⟩ := by
  obtain ⟨s', reached, acknowledged⟩ := Sample.push_run JsonText.codec (.created rfl (by decide))
  obtain ⟨userId, _, read⟩ := (push_usable_iff Sample.forwarded (Sample.pushing_waits ..)
    reached acknowledged).mpr (.inl rfl)
  exact ⟨s', userId, reached, acknowledged, read⟩

/-- Over a file without an account the push is acknowledged, and no read succeeds. -/
theorem nameless_push_unusable : ∃ s', Run (step JsonText.codec) (Alone 0)
    (Sample.pushing JsonText.codec (some (Sample.nameless.toVecPretty JsonText.codec))) s' ∧
    s'.tasks 0 = .done (.updated (.ok ())) ∧ ∀ creds, readFile JsonText.codec s'.file ≠ .ok creds := by
  have raw : readRaw JsonText.codec (some (Sample.nameless.toVecPretty JsonText.codec)) =
      .ok Sample.nameless := by
    rw [readRaw, FsAuth.fromSlice_toVecPretty]
  obtain ⟨s', reached, acknowledged⟩ := Sample.push_run JsonText.codec (.updated raw)
  refine ⟨s', reached, acknowledged, fun creds read => ?_⟩
  obtain ⟨auth, pushed, written⟩ := pushed_run Sample.forwarded
    (Sample.pushing_waits ..) reached acknowledged
  rw [written, readFile_written] at read
  rw [pushed.over raw] at read
  simp [FsAuth.credentials, FsAuth.updateTokens, Sample.nameless] at read

end CodexProxy.Credentials
