import CodexProxy.Credentials.Persistence
import CodexProxy.Credentials.System

/-! A write on the file system is what the store takes it for: a rename and a last sync,
or a failure. -/
namespace CodexProxy.Credentials.Fs
open Calls

/-- The errors of a program come from the file system. -/
def StorageErrors (p : Io A) : Prop :=
  ∀ fs e fs', Returns Answers p fs (.error e) fs' → ∃ message, e = .storage message

namespace StorageErrors

theorem done (a : A) : StorageErrors (.done (.ok a) : Io A) := by
  intro fs e fs' returned
  cases (Returns.done_iff.mp returned).1

theorem attempt (c : Syscall) : StorageErrors (attempt c) := by
  intro fs e fs' returned
  obtain ⟨r, t, answered, finished⟩ := Returns.call_iff.mp returned
  cases r with
  | ok => cases (Returns.done_iff.mp finished).1
  | error message =>
    cases (Returns.done_iff.mp finished).1
    exact ⟨message, rfl⟩

/-- Before the program something is done that cannot fail. -/
theorem after {p : Program Syscall Answer A} {f : A → Io B} (next : ∀ a, StorageErrors (f a)) :
    StorageErrors (p.bind f) := by
  intro fs e fs' returned
  obtain ⟨a, t, _, later⟩ := Returns.bind_iff.mp returned
  exact next a t e fs' later

theorem andThen {p : Io A} {f : A → Io B} (first : StorageErrors p)
    (next : ∀ a, StorageErrors (f a)) : StorageErrors (p.andThen f) := by
  intro fs e fs' returned
  obtain ⟨result, t, earlier, later⟩ := Returns.bind_iff.mp returned
  cases result with
  | ok a => exact next a t e fs' later
  | error e' =>
    cases (Returns.done_iff.mp later).1
    exact first fs e t earlier

theorem onError {p : Io A} {cleanup : Program Syscall Answer Unit} (first : StorageErrors p) :
    StorageErrors (p.onError cleanup) := by
  intro fs e fs' returned
  obtain ⟨result, t, earlier, later⟩ := Returns.bind_iff.mp returned
  cases result with
  | ok a => cases (Returns.done_iff.mp later).1
  | error e' =>
    obtain ⟨_, _, _, finished⟩ := Returns.bind_iff.mp later
    cases (Returns.done_iff.mp finished).1
    exact first fs e t earlier

theorem withParent {f : Path → Io Unit} (each : ∀ parent, StorageErrors (f parent)) :
    StorageErrors (withParent path f) := by
  unfold Fs.withParent
  cases path.parent with
  | none => exact done ()
  | some parent =>
    dsimp only
    split
    · exact done ()
    · exact each parent

/-- By induction on the directories. -/
theorem createDirs (dirs : List Path) : StorageErrors (createDirs dirs) := by
  induction dirs with
  | nil => exact done ()
  | cons dir rest ih => exact (attempt _).andThen fun _ => (attempt _).andThen fun _ => ih

theorem createParents (path : Path) : StorageErrors (createParents path) := by
  refine withParent fun parent => after fun found => ?_
  cases found with
  | true => exact done ()
  | false => exact after fun missing => createDirs _

theorem writeRaw (codec : Json.Codec) (file : FsAuthFile) (uuid : String) (auth : FsAuth) :
    StorageErrors (file.writeRaw codec uuid auth) :=
  (createParents _).andThen fun _ => (attempt _).andThen fun _ =>
    (onError ((attempt _).andThen fun _ => (attempt _).andThen fun _ => attempt _)).andThen fun _ =>
      withParent fun _ => (attempt _).andThen fun _ => attempt _

end StorageErrors

section
variable {codec : Json.Codec} {s : System} {t : Nat} {job : Job} {auth : FsAuth}

/-- What a call does with the file while it has tokens to write. -/
def Writes (t : Nat) (_ : System) : Action → Prop
  | .dispatch t' | .rename t' | .finish t' | .fail t' _ => t' = t
  | _ => False

theorem fails (writing : s.tasks t = .writing job auth) (message : String) :
    ∃ s', Transition.Run (step codec) (Writes t) s s' ∧
      s'.tasks t = .done (job.written (.error (.storage message))) ∧ s'.file = s.file := by
  have failed : Step codec s (.fail t message) _ := .failWrite (.inl writing)
  exact ⟨_, .step (a := .fail t message) .here rfl (step_complete codec failed),
    System.proceed_tasks_here .., rfl⟩

/-- After the rename the write still succeeds or fails. -/
theorem renames (writing : s.tasks t = .writing job auth) (result : Except CredentialsError Unit)
    (storage : ∀ e, result = .error e → ∃ message, e = .storage message) :
    ∃ s', Transition.Run (step codec) (Writes t) s s' ∧
      s'.tasks t = .done (job.written result) ∧ s'.file = some (auth.toVecPretty codec) := by
  let dispatched := s.proceed t (.dispatched job auth)
  let renamed := (dispatched.install codec job auth).proceed t (.syncing job)
  have dispatch : step codec s (.dispatch t) = some dispatched := step_complete codec (.dispatch writing)
  have rename : step codec dispatched (.rename t) = some renamed :=
    step_complete codec (.rename (System.proceed_tasks_here ..))
  have ran : Transition.Run (step codec) (Writes t) s renamed :=
    .step (a := .rename t) (.step (a := .dispatch t) .here rfl dispatch) rfl rename
  have syncing : renamed.tasks t = .syncing job := System.proceed_tasks_here ..
  cases result with
  | ok =>
    have finish := step_complete codec (.finish syncing)
    exact ⟨_, .step (a := .finish t) ran rfl finish, System.proceed_tasks_here .., rfl⟩
  | error e =>
    obtain ⟨message, rfl⟩ := storage e rfl
    have failed : Step codec renamed (.fail t message) _ := .failSync syncing
    exact ⟨_, .step (a := .fail t message) ran rfl (step_complete codec failed),
      System.proceed_tasks_here .., rfl⟩

/-- A write that ends has a run of the store that ends in the same way. -/
theorem writeRaw_refines {file : FsAuthFile} {start fs : FileSystem}
    (returned : Returns Answers (file.writeRaw codec uuid auth) start result fs)
    (writing : s.tasks t = .writing job auth) (same : s.file = start.contents file.path) :
    ∃ s', Transition.Run (step codec) (Writes t) s s' ∧
      s'.tasks t = .done (job.written result) ∧ s'.file = fs.contents file.path := by
  have storage (e : CredentialsError) (failed : result = .error e) : ∃ message, e = .storage message :=
    StorageErrors.writeRaw codec file uuid auth start e fs (failed ▸ returned)
  obtain ⟨history, ran⟩ := returned
  obtain ⟨whole, outcome⟩ := (writeRaw_meets codec file uuid auth start).run ran
  have new (placed : fs file.path = some (.file 0o600 (auth.toVecPretty codec) [])) :
      fs.contents file.path = some (auth.toVecPretty codec) := by
    simp only [FileSystem.contents, placed]
  cases result with
  | ok =>
    obtain ⟨s', taken, done, stored⟩ := renames writing (.ok ()) storage
    exact ⟨s', taken, done, stored.trans (new (outcome.replaced rfl)).symm⟩
  | error e =>
    rcases whole with old | placed
    · obtain ⟨message, rfl⟩ := storage e rfl
      obtain ⟨s', taken, done, kept⟩ := fails writing message
      refine ⟨s', taken, done, kept.trans (same.trans ?_)⟩
      simp only [FileSystem.contents, old]
    · obtain ⟨s', taken, done, stored⟩ := renames writing (.error e) storage
      exact ⟨s', taken, done, stored.trans (new placed).symm⟩

end

namespace Sample

def pushed : Job := ⟨"access", "refresh", 0, .push⟩
def created : FsAuth := .init ⟨"access", "refresh", 0, "user"⟩

/-- A push that creates the file is about to write it. -/
def creating : System where
  file := none
  holder := some 0
  tasks := Function.update (fun _ => .idle) 0 (.writing pushed created)
  posts := []
  renames := []
  presented := []
  answers := []
  consumed := []
  latest := none

end Sample

/-- The file of a first push is there on the file system and in the store. -/
theorem writeRaw_refines_created : ∃ (s' : System) (fs : FileSystem),
    Transition.Run (step JsonText.codec) (Writes 0) Sample.creating s' ∧
    s'.tasks 0 = .done (.updated (.ok ())) ∧ s'.file = fs.contents ⟨false, ["auth.json"]⟩ := by
  let file : FsAuthFile := ⟨⟨false, ["auth.json"]⟩⟩
  have writable : file.Writable "id" fun _ => none :=
    ⟨(fun parent found empty => by cases found; cases empty), by decide, rfl, by simp⟩
  obtain ⟨fs, returned, _⟩ :
      ∃ fs, Returns Answers (file.writeRaw JsonText.codec "id" Sample.created) (fun _ => none)
        (.ok ()) fs ∧ _ := writeRaw_returns writable Sample.created
  have writing : Sample.creating.tasks 0 = .writing Sample.pushed Sample.created := rfl
  have absent : Sample.creating.file = FileSystem.contents (fun _ => none) file.path := rfl
  obtain ⟨s', taken, done, same⟩ := writeRaw_refines returned writing absent
  exact ⟨s', fs, taken, done, same⟩

end CodexProxy.Credentials.Fs
