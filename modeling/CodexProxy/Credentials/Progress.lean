import CodexProxy.Credentials.Calls
import CodexProxy.Credentials.SingleFlight

/-! A call goes on by itself, however the file system and the endpoint answer; it waits for
nothing but the mutex, and whoever has that goes on too. -/
namespace CodexProxy.Credentials
open Transition

/-- The call that takes a step; what has been abandoned is nobody's. -/
def Action.call : Action → Option Nat
  | .start t _ | .acquire t | .read t _ _ | .answer t _ | .deliver t _ | .lose t _ | .dispatch t
  | .rename t | .finish t | .fail t _ | .drop t => some t
  | .orphanAnswer _ _ | .orphanRename _ => none

/-- What may come next for a call that has the mutex. -/
inductive Phase.Awaits (t : Nat) : Phase → Action → Prop where
  | read : Awaits t (.reading op) (.read t nowMs failure)
  | readFull : Awaits t .readingFull (.read t nowMs failure)
  | answer : Awaits t (.posting op creds) (.answer t answer)
  | losePost : Awaits t (.posting op creds) (.lose t message)
  | deliver : Awaits t (.answered op creds answer) (.deliver t nowMs)
  | loseAnswer : Awaits t (.answered op creds answer) (.lose t message)
  | reread : Awaits t (.updating job) (.read t nowMs failure)
  | dispatch : Awaits t (.writing job auth) (.dispatch t)
  | failWrite : Awaits t (.writing job auth) (.fail t message)
  | rename : Awaits t (.dispatched job auth) (.rename t)
  | failRename : Awaits t (.dispatched job auth) (.fail t message)
  | finish : Awaits t (.syncing job) (.finish t)
  | failSync : Awaits t (.syncing job) (.fail t message)

section
variable {codec : Json.Codec} {s s' : System} {t : Nat} {phase : Phase} {a : Action}

theorem Phase.awaits (holds : phase.holds = true) : ∃ a, phase.Awaits t a := by
  cases phase with
  | idle | locking | done => cases holds
  | reading | readingFull | updating => exact ⟨.read t 0 none, by constructor⟩
  | posting => exact ⟨.lose t "", .losePost⟩
  | answered => exact ⟨.deliver t 0, .deliver⟩
  | writing => exact ⟨.dispatch t, .dispatch⟩
  | dispatched => exact ⟨.rename t, .rename⟩
  | syncing => exact ⟨.finish t, .finish⟩

theorem Phase.Awaits.call (awaits : phase.Awaits t a) : a.call = some t := by
  cases awaits <;> rfl

/-- A call neither begins nor gives up here. -/
theorem Phase.Awaits.ne (awaits : phase.Awaits t a) (u : Nat) :
    a ≠ .drop u ∧ ∀ op, a ≠ .start u op := by
  cases awaits <;> simp

/-- The call can take each of these steps. -/
theorem Phase.Awaits.taken (awaits : (s.tasks t).Awaits t a) : ∃ s', step codec s a = some s' := by
  cases here : s.tasks t <;> rw [here] at awaits <;> cases awaits <;>
    exact ⟨_, by simp only [step, here]; rfl⟩

/-- A step is the step of one call, and the mutex stays where it is or goes through its
hands. -/
theorem step_frame (taken : step codec s a = some s') :
    (∀ u, a.call ≠ some u → s'.tasks u = s.tasks u) ∧
    (s'.holder = s.holder ∨ s'.holder = none ∨ s'.holder = a.call) := by
  have moves {b : System} {t : Nat} {phase : Phase} (tasks : b.tasks = s.tasks)
      (own : a.call = some t) :
      (∀ u, a.call ≠ some u → (b.proceed t phase).tasks u = s.tasks u) ∧
      ((b.proceed t phase).holder = s.holder ∨ (b.proceed t phase).holder = none ∨
        (b.proceed t phase).holder = a.call) := by
    constructor
    · intro u other
      rw [b.proceed_tasks_other t phase (by rintro rfl; exact other own), tasks]
    · cases holds : phase.holds with
      | true => exact .inr (.inr (by simp [System.proceed, holds, own]))
      | false => exact .inr (.inl (by simp [System.proceed, holds]))
  have puts {t : Nat} {phase : Phase} (own : a.call = some t) :
      ∀ u, a.call ≠ some u → (s.put t phase).tasks u = s.tasks u :=
    fun u other => s.put_tasks_other t phase (by rintro rfl; exact other own)
  cases step_spec codec taken with
  | start | dropWaiting => exact ⟨puts rfl, .inl rfl⟩
  | answer => exact moves (s.exchange_tasks ..) rfl
  | orphanAnswer => exact ⟨fun _ _ => by rw [System.exchange_tasks], .inl (by simp)⟩
  | orphanRename => exact ⟨fun _ _ => rfl, .inl rfl⟩
  | acquire | read | readFull | reread | deliver | losePost | loseAnswer | dispatch | rename
  | finish | failWrite | failSync | dropPost | dropRename | drop => exact moves rfl rfl

theorem Phase.remaining_le (phase : Phase) : phase.remaining ≤ 8 := by
  cases phase <;> simp [Phase.remaining]

theorem remaining_afterRead (op : Refresher) (nowMs : Int64)
    (read : Except CredentialsError OAuthCredentials) : (afterRead op nowMs read).remaining ≤ 6 := by
  rw [afterRead.eq_def]
  split
  · simp [Phase.remaining]
  · split <;> simp [Phase.remaining]

theorem remaining_afterAnswer (op : Refresher) (creds : OAuthCredentials) (nowMs : Int64)
    (answer : Except CredentialsError TokenRefreshResponse) :
    (afterAnswer op creds nowMs answer).remaining ≤ 4 := by
  simp only [afterAnswer]
  split <;> simp [Phase.remaining]

theorem remaining_afterReread (job : Job) (raw : Except CredentialsError FsAuth) :
    (afterReread job raw).remaining ≤ 3 := by
  cases raw <;> simp [afterReread, Phase.remaining]

theorem remaining_afterLock (file : File) (op : Operation) : (afterLock file op).remaining ≤ 7 := by
  cases op with
  | refresher | fullCredentials => simp [afterLock, Phase.remaining]
  | updateTokens =>
    simp only [afterLock]
    split
    · simp [Phase.remaining]
    · split <;> simp [Phase.remaining]
    · simp [Phase.remaining]

/-- Every step of a call that is under way brings it nearer to its end. -/
theorem remaining_step (taken : step codec s a = some s') (own : a.call = some t)
    (begun : ∀ op, a ≠ .start t op) : (s'.tasks t).remaining < (s.tasks t).remaining := by
  cases step_spec codec taken with
  | start => cases own; exact (begun _ rfl).elim
  | acquire _ here =>
    cases own
    have bound := remaining_afterLock s.file (by assumption)
    rw [System.proceed_tasks_here, here]
    exact Nat.lt_succ_of_le bound
  | read here =>
    cases own
    rw [System.proceed_tasks_here, here]
    exact Nat.lt_succ_of_le (remaining_afterRead ..)
  | reread here =>
    cases own
    rw [System.proceed_tasks_here, here]
    exact Nat.lt_succ_of_le (remaining_afterReread ..)
  | deliver here =>
    cases own
    rw [System.proceed_tasks_here, here]
    exact Nat.lt_succ_of_le (remaining_afterAnswer ..)
  | readFull here | answer here | losePost here | loseAnswer here | dispatch here | rename here
  | finish here | failSync here | dropPost here | dropRename here =>
    cases own
    rw [System.proceed_tasks_here, here]
    simp [Phase.remaining]
  | failWrite here =>
    cases own
    rw [System.proceed_tasks_here]
    rcases here with here | here <;> simp [here, Phase.remaining]
  | dropWaiting here =>
    cases own
    rw [System.put_tasks_here, here]
    simp [Phase.remaining]
  | drop holds =>
    cases own
    rw [System.proceed_tasks_here]
    cases here : s.tasks t <;> simp [here, Phase.holds, Phase.remaining] at holds ⊢
  | orphanAnswer | orphanRename => cases own

end

end CodexProxy.Credentials
