/-! Programs that call an operating system. A call can be answered in several ways, each
with an effect of its own, and a program can stop before any call. `Meets` states of a
program what holds wherever it stops and what holds once it is done; both may depend on
the calls made so far and on how they were answered. -/
namespace Calls
variable {C R S A B E : Type}

/-- A program is done, or it makes a call and goes on with the answer. -/
inductive Program (C R A : Type) where
  | done (value : A)
  | call (c : C) (next : R → Program C R A)

/-- The calls of a run with their answers, the oldest first. -/
abbrev History (C R : Type) := List (C × R)

namespace Program

def bind : Program C R A → (A → Program C R B) → Program C R B
  | .done a, f => f a
  | .call c next, f => .call c fun r => (next r).bind f

instance : Monad (Program C R) where
  pure := .done
  bind := .bind

/-- A call on its own. -/
def ask (c : C) : Program C R R := .call c .done

end Program

/-- A program with a result that may be an error; the bind of its monad is the early return. -/
def Fallible (C R E A : Type) := Program C R (Except E A)

namespace Fallible

def andThen (p : Fallible C R E A) (f : A → Fallible C R E B) : Fallible C R E B :=
  Program.bind p fun
    | .ok a => f a
    | .error e => .done (.error e)

instance : Monad (Fallible C R E) where
  pure a := .done (.ok a)
  bind := andThen

/-- On an error something is done before it is returned. -/
def onError (p : Fallible C R E A) (cleanup : Program C R Unit) : Fallible C R E A :=
  Program.bind p fun
    | .ok a => .done (.ok a)
    | .error e => cleanup.bind fun _ => .done (.error e)

end Fallible

/-- How calls may be answered, and what state an answer leaves. -/
abbrev Answers (C R S : Type) := C → S → R → S → Prop

/-- A run from a program and a state to what is left of the program and the state there. -/
inductive Run (answers : Answers C R S) :
    Program C R A → S → History C R → Program C R A → S → Prop where
  | here (p : Program C R A) (s : S) : Run answers p s [] p s
  | call {next : R → Program C R A} (answered : answers c s r t)
      (later : Run answers (next r) t history q u) :
      Run answers (.call c next) s ((c, r) :: history) q u

/-- A run to the end. -/
def Returns (answers : Answers C R S) (p : Program C R A) (s : S) (a : A) (t : S) : Prop :=
  ∃ history, Run answers p s history (.done a) t

/-- What holds wherever the program stops, and what holds when it is done. -/
def Meets (answers : Answers C R S) (always : History C R → S → Prop)
    (ends : A → History C R → S → Prop) : Program C R A → History C R → S → Prop
  | .done a, past, s => always past s ∧ ends a past s
  | .call c next, past, s => always past s ∧
      ∀ r t, answers c s r t → Meets answers always ends (next r) (past ++ [(c, r)]) t

namespace Meets
variable {answers : Answers C R S} {always : History C R → S → Prop}
  {ends mid : A → History C R → S → Prop}

theorem now {p : Program C R A} (meets : Meets answers always ends p past s) : always past s := by
  cases p with
  | done => exact meets.1
  | call => exact meets.1

/-- By induction on the run: what is left of a program meets what the program meets. -/
theorem run {p q : Program C R A} (meets : Meets answers always ends p past s)
    (ran : Run answers p s history q t) : Meets answers always ends q (past ++ history) t := by
  induction ran generalizing past with
  | here => rwa [List.append_nil]
  | call answered _ ih =>
    have later := ih (meets.2 _ _ answered)
    rwa [List.append_assoc] at later

theorem ask {c : C} {ends : R → History C R → S → Prop} (now : always past s)
    (answered : ∀ r t, answers c s r t → always (past ++ [(c, r)]) t ∧ ends r (past ++ [(c, r)]) t) :
    Meets answers always ends (.ask c) past s := ⟨now, answered⟩

theorem returns {p : Program C R A} (meets : Meets answers always ends p [] s)
    (returned : Returns answers p s a t) : ∃ history, ends a history t := by
  obtain ⟨history, ran⟩ := returned
  exact ⟨history, (meets.run ran).2⟩

/-- By induction on the program. -/
theorem mono {always' : History C R → S → Prop} {ends' : A → History C R → S → Prop}
    {p : Program C R A} (meets : Meets answers always ends p past s)
    (stops : ∀ past s, always past s → always' past s)
    (final : ∀ a past s, ends a past s → ends' a past s) : Meets answers always' ends' p past s := by
  induction p generalizing past s with
  | done a => exact ⟨stops _ _ meets.1, final _ _ _ meets.2⟩
  | call c next ih => exact ⟨stops _ _ meets.1, fun r t answered => ih r (meets.2 r t answered)⟩

/-- What the first program ends in is what the second starts from. -/
theorem bind {ends : B → History C R → S → Prop} {p : Program C R A} {f : A → Program C R B}
    (meets : Meets answers always mid p past s)
    (next : ∀ a past s, always past s → mid a past s → Meets answers always ends (f a) past s) :
    Meets answers always ends (p.bind f) past s := by
  induction p generalizing past s with
  | done a => exact next _ _ _ meets.1 meets.2
  | call c rest ih => exact ⟨meets.1, fun r t answered => ih r (meets.2 r t answered)⟩

section
variable {mid : Except E A → History C R → S → Prop} {p : Fallible C R E A}

/-- The second program runs after a success; an error is the result as it is. -/
theorem andThen {ends : Except E B → History C R → S → Prop} {f : A → Fallible C R E B}
    (meets : Meets answers always mid p past s)
    (next : ∀ a past s, always past s → mid (.ok a) past s → Meets answers always ends (f a) past s)
    (failed : ∀ e past s, mid (.error e) past s → ends (.error e) past s) :
    Meets answers always ends (p.andThen f) past s := by
  refine meets.bind fun result past s now reached => ?_
  cases result with
  | ok a => exact next a past s now reached
  | error e => exact ⟨now, failed e past s reached⟩

/-- The cleanup starts from the error, which stays the result. -/
theorem onError {ends : Except E A → History C R → S → Prop} {cleanup : Program C R Unit}
    (meets : Meets answers always mid p past s)
    (kept : ∀ a past s, mid (.ok a) past s → ends (.ok a) past s)
    (cleaned : ∀ e past s, always past s → mid (.error e) past s →
      Meets answers always (fun _ => ends (.error e)) cleanup past s) :
    Meets answers always ends (p.onError cleanup) past s := by
  refine meets.bind fun result past s now reached => ?_
  cases result with
  | ok a => exact ⟨now, kept a past s reached⟩
  | error e => exact (cleaned e past s now reached).bind fun _ past s now final => ⟨now, final⟩

end
end Meets

/-- A program that keeps an invariant at every call. -/
def Keeps (answers : Answers C R S) (inv : History C R → S → Prop) (p : Program C R A) : Prop :=
  ∀ past s, inv past s → Meets answers inv (fun _ => inv) p past s

namespace Keeps
variable {answers : Answers C R S} {inv : History C R → S → Prop}

theorem done (a : A) : Keeps answers inv (.done a) := fun _ _ now => ⟨now, now⟩

theorem bind {p : Program C R A} {f : A → Program C R B} (first : Keeps answers inv p)
    (next : ∀ a, Keeps answers inv (f a)) : Keeps answers inv (p.bind f) :=
  fun past s now => (first past s now).bind fun a past s _ reached => next a past s reached

theorem andThen {p : Fallible C R E A} {f : A → Fallible C R E B} (first : Keeps answers inv p)
    (next : ∀ a, Keeps answers inv (f a)) : Keeps answers inv (p.andThen f) := by
  refine first.bind fun result => ?_
  cases result with
  | ok a => exact next a
  | error e => exact done (Except.error e)

theorem ask {c : C} (kept : ∀ past s r t, inv past s → answers c s r t → inv (past ++ [(c, r)]) t) :
    Keeps answers inv (.ask c) :=
  fun past s now => Meets.ask now fun r t answered =>
    ⟨kept past s r t now answered, kept past s r t now answered⟩

end Keeps

namespace Returns
variable {answers : Answers C R S}

theorem done_iff : Returns answers (.done a : Program C R A) s b t ↔ b = a ∧ t = s := by
  constructor
  · rintro ⟨history, ran⟩
    cases ran
    exact ⟨rfl, rfl⟩
  · rintro ⟨rfl, rfl⟩
    exact ⟨[], .here _ _⟩

theorem call_iff {next : R → Program C R A} :
    Returns answers (.call c next) s a u ↔ ∃ r t, answers c s r t ∧ Returns answers (next r) t a u := by
  constructor
  · rintro ⟨history, ran⟩
    cases ran with
    | call answered later => exact ⟨_, _, answered, _, later⟩
  · rintro ⟨r, t, answered, history, later⟩
    exact ⟨_, .call answered later⟩

/-- By induction on the first program. -/
theorem bind_iff {p : Program C R A} {f : A → Program C R B} :
    Returns answers (p.bind f) s b u ↔
      ∃ a t, Returns answers p s a t ∧ Returns answers (f a) t b u := by
  induction p generalizing s with
  | done a =>
    constructor
    · exact fun second => ⟨a, s, done_iff.mpr ⟨rfl, rfl⟩, second⟩
    · rintro ⟨a', t, first, second⟩
      obtain ⟨rfl, rfl⟩ := done_iff.mp first
      exact second
  | call c next ih =>
    simp only [Program.bind, call_iff, ih]
    constructor
    · rintro ⟨r, t, answered, a, t', first, second⟩
      exact ⟨a, t', ⟨r, t, answered, first⟩, second⟩
    · rintro ⟨a, t', ⟨r, t, answered, first⟩, second⟩
      exact ⟨r, t, answered, a, t', first, second⟩

/-- A success is a success of both programs. -/
theorem andThen_iff {p : Fallible C R E A} {f : A → Fallible C R E B} :
    Returns answers (p.andThen f) s (.ok b) u ↔
      ∃ a t, Returns answers p s (.ok a) t ∧ Returns answers (f a) t (.ok b) u := by
  refine bind_iff.trans ⟨?_, ?_⟩
  · rintro ⟨result, t, first, second⟩
    cases result with
    | ok a => exact ⟨a, t, first, second⟩
    | error => exact nomatch (done_iff.mp second).1
  · rintro ⟨a, t, first, second⟩
    exact ⟨.ok a, t, first, second⟩

end Returns
end Calls
