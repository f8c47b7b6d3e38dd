import Mathlib.Logic.Function.Basic
import CodexProxy.Credentials.Fetcher
import CodexProxy.Library.Transition

/-! The refreshing store at work: any number of calls, the mutex, the file and the token
endpoint. Steps come in any order, and a call may be dropped where it is suspended. -/
namespace CodexProxy.Credentials
variable (codec : Json.Codec)

/-- The fields from `presented` on record what the endpoint has seen and done; lists have
the newest first. -/
structure System where
  file : File
  holder : Option Nat
  tasks : Nat → Phase
  /-- Presented tokens whose caller has gone. -/
  posts : List String
  /-- Renames whose caller has gone; the blocking thread runs them all the same. -/
  renames : List (Job × FsAuth)
  /-- The token of every request to the endpoint. -/
  presented : List String
  answers : List TokenAnswer
  consumed : List String
  /-- The refresh token most recently issued, or pushed into the file. -/
  latest : Option String

inductive Action where
  | start (t : Nat) (op : Operation)
  | acquire (t : Nat)
  /-- The file is read, unless the operating system reports a failure. -/
  | read (t : Nat) (nowMs : Int64) (failure : Option String)
  /-- The endpoint answers. -/
  | answer (t : Nat) (answer : TokenAnswer)
  /-- The answer arrives. -/
  | deliver (t : Nat) (nowMs : Int64)
  /-- The request or its answer is lost. -/
  | lose (t : Nat) (message : String)
  | dispatch (t : Nat)
  | rename (t : Nat)
  | finish (t : Nat)
  /-- Writing, renaming or the last sync fails. -/
  | fail (t : Nat) (message : String)
  | drop (t : Nat)
  | orphanAnswer (i : Nat) (answer : TokenAnswer)
  | orphanRename (i : Nat)

namespace System

/-- A call is set to another phase, with the mutex left alone. -/
def put (s : System) (t : Nat) (phase : Phase) : System :=
  { s with tasks := Function.update s.tasks t phase }

/-- The call that has the mutex goes on to another phase; the guard goes with the last. -/
def proceed (s : System) (t : Nat) (phase : Phase) : System :=
  { s.put t phase with
    holder := if phase.holds then some t else none
    presented := phase.presented.toList ++ s.presented }

/-- A success consumes the presented token. -/
def exchange (s : System) (presented : String) : TokenAnswer → System
  | .refused status body => { s with answers := .refused status body :: s.answers }
  | .granted issued body => { s with
      answers := .granted issued body :: s.answers
      consumed := presented :: s.consumed
      latest := some issued }

/-- The rename takes effect; a pushed token becomes known to the store. -/
def install (s : System) (job : Job) (auth : FsAuth) : System where
  __ := s
  file := some (auth.toVecPretty codec)
  latest := match job.writer with
    | .refresher _ _ => s.latest
    | .push => some auth.tokens.refreshToken

/-- The phase of the call that has the mutex. -/
def current (s : System) : Phase :=
  match s.holder with
  | none => .idle
  | some t => s.tasks t

end System

/-- What a read returns. -/
def contents (file : File) : Option String → Except CredentialsError FsAuth
  | none => readRaw codec file
  | some failure => .error (.storage failure)

def step (s : System) : Action → Option System
  | .start t op =>
    match s.tasks t with
    | .idle => some (s.put t (.locking op))
    | _ => none
  | .acquire t =>
    match s.holder, s.tasks t with
    | none, .locking op => some (s.proceed t (afterLock s.file op))
    | _, _ => none
  | .read t nowMs failure =>
    let raw := contents codec s.file failure
    match s.tasks t with
    | .reading op => some (s.proceed t (afterRead op nowMs (raw.bind FsAuth.credentials)))
    | .readingFull => some (s.proceed t (.done (.full (raw.bind FsAuth.credentials))))
    | .updating job => some (s.proceed t (afterReread job raw))
    | _ => none
  | .answer t answer =>
    match s.tasks t with
    | .posting op creds =>
      some ((s.exchange creds.refreshToken answer).proceed t (.answered op creds answer))
    | _ => none
  | .deliver t nowMs =>
    match s.tasks t with
    | .answered op creds answer =>
      some (s.proceed t (afterAnswer op creds nowMs (refreshToken codec answer)))
    | _ => none
  | .lose t message =>
    match s.tasks t with
    | .posting op creds => some ({ s with posts := creds.refreshToken :: s.posts }.proceed t
        (.done (op.refreshFailed creds (.refresh message))))
    | .answered op creds _ => some (s.proceed t (.done (op.refreshFailed creds (.refresh message))))
    | _ => none
  | .dispatch t =>
    match s.tasks t with
    | .writing job auth => some (s.proceed t (.dispatched job auth))
    | _ => none
  | .rename t =>
    match s.tasks t with
    | .dispatched job auth => some ((s.install codec job auth).proceed t (.syncing job))
    | _ => none
  | .finish t =>
    match s.tasks t with
    | .syncing job => some (s.proceed t (.done (job.written (.ok ()))))
    | _ => none
  | .fail t message =>
    match s.tasks t with
    | .writing job _ | .dispatched job _ | .syncing job =>
      some (s.proceed t (.done (job.written (.error (.storage message)))))
    | _ => none
  | .drop t =>
    match s.tasks t with
    | .idle | .done _ => none
    | .locking _ => some (s.put t .idle)
    | .posting _ creds => some ({ s with posts := creds.refreshToken :: s.posts }.proceed t .idle)
    | .dispatched job auth =>
      some ({ s with renames := (job, auth) :: s.renames }.proceed t .idle)
    | _ => some (s.proceed t .idle)
  | .orphanAnswer i answer =>
    (s.posts[i]?).map fun token => { s with posts := s.posts.eraseIdx i }.exchange token answer
  | .orphanRename i =>
    (s.renames[i]?).map fun (job, auth) =>
      { s with renames := s.renames.eraseIdx i }.install codec job auth

/-- The rules that `step` computes. -/
inductive Step (s : System) : Action → System → Prop where
  | start (here : s.tasks t = .idle) : Step s (.start t op) (s.put t (.locking op))
  | acquire (free : s.holder = none) (here : s.tasks t = .locking op) :
      Step s (.acquire t) (s.proceed t (afterLock s.file op))
  | read {failure : Option String} (here : s.tasks t = .reading op) : Step s (.read t nowMs failure)
      (s.proceed t (afterRead op nowMs ((contents codec s.file failure).bind FsAuth.credentials)))
  | readFull {failure : Option String} (here : s.tasks t = .readingFull) :
      Step s (.read t nowMs failure)
      (s.proceed t (.done (.full ((contents codec s.file failure).bind FsAuth.credentials))))
  | reread {failure : Option String} (here : s.tasks t = .updating job) :
      Step s (.read t nowMs failure)
      (s.proceed t (afterReread job (contents codec s.file failure)))
  | answer (here : s.tasks t = .posting op creds) : Step s (.answer t answer)
      ((s.exchange creds.refreshToken answer).proceed t (.answered op creds answer))
  | deliver (here : s.tasks t = .answered op creds answer) : Step s (.deliver t nowMs)
      (s.proceed t (afterAnswer op creds nowMs (refreshToken codec answer)))
  | losePost (here : s.tasks t = .posting op creds) : Step s (.lose t message)
      ({ s with posts := creds.refreshToken :: s.posts }.proceed t
        (.done (op.refreshFailed creds (.refresh message))))
  | loseAnswer (here : s.tasks t = .answered op creds answer) : Step s (.lose t message)
      (s.proceed t (.done (op.refreshFailed creds (.refresh message))))
  | dispatch (here : s.tasks t = .writing job auth) : Step s (.dispatch t)
      (s.proceed t (.dispatched job auth))
  | rename (here : s.tasks t = .dispatched job auth) : Step s (.rename t)
      ((s.install codec job auth).proceed t (.syncing job))
  | finish (here : s.tasks t = .syncing job) : Step s (.finish t)
      (s.proceed t (.done (job.written (.ok ()))))
  | failWrite (here : s.tasks t = .writing job auth ∨ s.tasks t = .dispatched job auth) :
      Step s (.fail t message) (s.proceed t (.done (job.written (.error (.storage message)))))
  | failSync (here : s.tasks t = .syncing job) :
      Step s (.fail t message) (s.proceed t (.done (job.written (.error (.storage message)))))
  | dropWaiting (here : s.tasks t = .locking op) : Step s (.drop t) (s.put t .idle)
  | dropPost (here : s.tasks t = .posting op creds) : Step s (.drop t)
      ({ s with posts := creds.refreshToken :: s.posts }.proceed t .idle)
  | dropRename (here : s.tasks t = .dispatched job auth) : Step s (.drop t)
      ({ s with renames := (job, auth) :: s.renames }.proceed t .idle)
  | drop (holds : (s.tasks t).holds = true) (notPosting : (s.tasks t).presented = none)
      (notRenaming : ∀ job auth, s.tasks t ≠ .dispatched job auth) :
      Step s (.drop t) (s.proceed t .idle)
  | orphanAnswer (here : s.posts[i]? = some token) : Step s (.orphanAnswer i answer)
      ({ s with posts := s.posts.eraseIdx i }.exchange token answer)
  | orphanRename (here : s.renames[i]? = some (job, auth)) : Step s (.orphanRename i)
      ({ s with renames := s.renames.eraseIdx i }.install codec job auth)

theorem step_drop {s s' : System} {t : Nat} (taken : step codec s (.drop t) = some s') :
    Step codec s (.drop t) s' := by
  simp only [step] at taken
  cases here : s.tasks t with
  | idle | done => simp [here] at taken
  | locking =>
    simp only [here, Option.some.injEq] at taken
    exact taken ▸ .dropWaiting here
  | posting =>
    simp only [here, Option.some.injEq] at taken
    exact taken ▸ .dropPost here
  | dispatched =>
    simp only [here, Option.some.injEq] at taken
    exact taken ▸ .dropRename here
  | _ =>
    simp only [here, Option.some.injEq] at taken
    exact taken ▸ .drop (by rw [here]; rfl) (by rw [here]; rfl) (by simp [here])

theorem step_spec {s s' : System} {a : Action} (taken : step codec s a = some s') :
    Step codec s a s' := by
  cases a with
  | drop t => exact step_drop codec taken
  | orphanAnswer i answer =>
    simp only [step, Option.map_eq_some_iff] at taken
    obtain ⟨token, here, same⟩ := taken
    exact same ▸ .orphanAnswer here
  | orphanRename i =>
    simp only [step, Option.map_eq_some_iff] at taken
    obtain ⟨⟨job, auth⟩, here, same⟩ := taken
    exact same ▸ .orphanRename here
  | start t op =>
    simp only [step] at taken
    split at taken
    · cases taken; exact .start ‹_›
    · cases taken
  | acquire t =>
    simp only [step] at taken
    split at taken
    · cases taken; exact .acquire ‹_› ‹_›
    · cases taken
  | read t nowMs failure =>
    simp only [step] at taken
    split at taken
    · cases taken; exact .read ‹_›
    · cases taken; exact .readFull ‹_›
    · cases taken; exact .reread ‹_›
    · cases taken
  | answer t answer =>
    simp only [step] at taken
    split at taken
    · cases taken; exact .answer ‹_›
    · cases taken
  | deliver t nowMs =>
    simp only [step] at taken
    split at taken
    · cases taken; exact .deliver ‹_›
    · cases taken
  | lose t message =>
    simp only [step] at taken
    split at taken
    · cases taken; exact .losePost ‹_›
    · cases taken; exact .loseAnswer ‹_›
    · cases taken
  | dispatch t =>
    simp only [step] at taken
    split at taken
    · cases taken; exact .dispatch ‹_›
    · cases taken
  | rename t =>
    simp only [step] at taken
    split at taken
    · cases taken; exact .rename ‹_›
    · cases taken
  | finish t =>
    simp only [step] at taken
    split at taken
    · cases taken; exact .finish ‹_›
    · cases taken
  | fail t message =>
    simp only [step] at taken
    split at taken
    · cases taken; exact .failWrite (.inl ‹_›)
    · cases taken; exact .failWrite (.inr ‹_›)
    · cases taken; exact .failSync ‹_›
    · cases taken

theorem step_complete {s s' : System} {a : Action} (rule : Step codec s a s') :
    step codec s a = some s' := by
  cases rule with
  | acquire free here => simp only [step, free, here]
  | failWrite here => rcases here with here | here <;> simp only [step, here]
  | drop holds notPosting notRenaming =>
    simp only [step]
    cases here : s.tasks _ with
    | idle | locking | done => rw [here] at holds; cases holds
    | posting => rw [here] at notPosting; cases notPosting
    | dispatched job auth => exact absurd here (notRenaming job auth)
    | _ => rfl
  | orphanAnswer here | orphanRename here => simp only [step, here, Option.map_some]
  | _ here => simp only [step, here]

namespace System
variable (s : System) (t : Nat) (phase : Phase)

@[simp] theorem put_tasks_here : (s.put t phase).tasks t = phase := Function.update_self ..
@[simp] theorem put_holder : (s.put t phase).holder = s.holder := rfl
@[simp] theorem put_file : (s.put t phase).file = s.file := rfl
@[simp] theorem proceed_tasks_here : (s.proceed t phase).tasks t = phase := Function.update_self ..
@[simp] theorem proceed_file : (s.proceed t phase).file = s.file := rfl
@[simp] theorem proceed_renames : (s.proceed t phase).renames = s.renames := rfl
@[simp] theorem proceed_consumed : (s.proceed t phase).consumed = s.consumed := rfl

@[simp] theorem exchange_tasks (presented : String) (answer : TokenAnswer) :
    (s.exchange presented answer).tasks = s.tasks := by cases answer <;> rfl

@[simp] theorem exchange_file (presented : String) (answer : TokenAnswer) :
    (s.exchange presented answer).file = s.file := by cases answer <;> rfl

@[simp] theorem exchange_holder (presented : String) (answer : TokenAnswer) :
    (s.exchange presented answer).holder = s.holder := by cases answer <;> rfl

@[simp] theorem exchange_renames (presented : String) (answer : TokenAnswer) :
    (s.exchange presented answer).renames = s.renames := by cases answer <;> rfl

theorem proceed_tasks_other {u : Nat} (other : u ≠ t) : (s.proceed t phase).tasks u = s.tasks u :=
  Function.update_of_ne other ..

theorem put_tasks_other {u : Nat} (other : u ≠ t) : (s.put t phase).tasks u = s.tasks u :=
  Function.update_of_ne other ..

/-- A property of every phase, after one call has moved. -/
theorem proceed_phase (P : Phase → Prop) {b : System} {u : Nat} (tasks : b.tasks = s.tasks)
    (here : u = t → P phase) (other : P (s.tasks u)) : P ((b.proceed t phase).tasks u) := by
  by_cases same : u = t
  · rw [same, proceed_tasks_here]
    exact here same
  · rwa [proceed_tasks_other _ _ _ same, tasks]

theorem put_phase (P : Phase → Prop) {u : Nat} (here : u = t → P phase)
    (other : P (s.tasks u)) : P ((s.put t phase).tasks u) := by
  by_cases same : u = t
  · rw [same, put_tasks_here]
    exact here same
  · rwa [put_tasks_other _ _ _ same]

end System

/-- No call is under way. -/
structure Initial (s : System) : Prop where
  idle : ∀ t, s.tasks t = .idle
  free : s.holder = none
  posts : s.posts = []
  renames : s.renames = []
  unspent : ∀ token ∈ storedToken codec s.file, token ∉ s.consumed
  latest : storedToken codec s.file = s.latest

/-- What is asked of the environment: a success is accepted, arrives and issues a token
that is not spent; the update of the file succeeds; a pushed token is not spent when it
reaches the file. -/
def Served (s : System) : Action → Prop
  | .answer t answer => ∀ issued body presented, answer = .granted issued body →
      (s.tasks t).presented = some presented →
      Accepted codec issued body ∧ issued ∉ presented :: s.consumed
  | .read t _ failure => failure ≠ none → (s.tasks t).pending = none
  | .lose t _ | .fail t _ => (s.tasks t).pending = none
  | .rename t => ∀ job auth, s.tasks t = .dispatched job auth →
      job.issued = none → auth.tokens.refreshToken ∉ s.consumed
  | .orphanRename i => ∀ job auth, s.renames[i]? = some (job, auth) →
      job.issued = none → auth.tokens.refreshToken ∉ s.consumed
  | _ => True

/-- No call is dropped, and what is not answered consumes nothing. -/
def Uncancelled (s : System) (a : Action) : Prop :=
  Served codec s a ∧
    match a with
    | .drop _ => False
    | .orphanAnswer _ (.granted _ _) => False
    | _ => True

/-- No call is dropped between the grant and the rename, and an abandoned request gets
no success while its token is in use. -/
def Undisturbed (s : System) (a : Action) : Prop :=
  Served codec s a ∧
    match a with
    | .drop t => (s.tasks t).pending = none
    | .orphanAnswer i (.granted _ _) => ∀ token, s.posts[i]? = some token →
        storedToken codec s.file ≠ some token ∧
        s.current.presented ≠ some token ∧ s.current.pending ≠ some token
    | _ => True

theorem Uncancelled.undisturbed {s : System} {a : Action} (uncancelled : Uncancelled codec s a) :
    Undisturbed codec s a := by
  obtain ⟨served, quiet⟩ := uncancelled
  refine ⟨served, ?_⟩
  cases a with
  | drop t => exact quiet.elim
  | orphanAnswer i answer =>
    cases answer with
    | refused => exact quiet
    | granted => exact quiet.elim
  | _ => exact quiet

end CodexProxy.Credentials
