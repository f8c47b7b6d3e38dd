/-! Labelled transition systems whose steps are partial functions, and their runs. A
run may be restricted by a condition on the steps it takes; an invariant that the
conditioned steps preserve holds wherever such a run gets. -/
namespace Transition
variable {S A : Type} {step : S → A → Option S} {good : S → A → Prop}

/-- The states that are reached by steps which meet a condition. -/
inductive Run (step : S → A → Option S) (good : S → A → Prop) (start : S) : S → Prop where
  | here : Run step good start start
  | step {s t : S} {a : A} (earlier : Run step good start s) (allowed : good s a)
      (taken : step s a = some t) : Run step good start t

namespace Run

/-- By induction on the run. -/
theorem invariant {inv : S → Prop} (reached : Run step good start s) (initially : inv start)
    (preserved : ∀ {s a t}, inv s → good s a → step s a = some t → inv t) : inv s := by
  induction reached with
  | here => exact initially
  | step _ allowed taken ih => exact preserved ih allowed taken

/-- A weaker condition allows more runs. -/
theorem mono {good' : S → A → Prop} (reached : Run step good start s)
    (weaker : ∀ s a, good s a → good' s a) : Run step good' start s := by
  induction reached with
  | here => exact .here
  | step _ allowed taken ih => exact .step ih (weaker _ _ allowed) taken

/-- A run may be taken up at its first step. -/
theorem head (allowed : good start a) (taken : step start a = some s)
    (later : Run step good s t) : Run step good start t := by
  induction later with
  | here => exact .step .here allowed taken
  | step _ allowed' taken' ih => exact .step ih allowed' taken'

theorem trans (earlier : Run step good start s) (later : Run step good s t) :
    Run step good start t := by
  induction later with
  | here => exact earlier
  | step _ allowed taken ih => exact .step ih allowed taken

/-- Steps that are allowed anywhere, in the order of a list. -/
theorem replay {actions : List A} (allowed : ∀ a ∈ actions, ∀ s, good s a)
    (taken : actions.foldlM step start = some t) : Run step good start t := by
  induction actions generalizing start with
  | nil =>
    cases taken
    exact .here
  | cons a actions ih =>
    rw [List.foldlM_cons, Option.bind_eq_bind, Option.bind_eq_some_iff] at taken
    obtain ⟨s, first, rest⟩ := taken
    have later := ih (fun a member => allowed a (List.mem_cons_of_mem _ member)) rest
    exact later.head (allowed a List.mem_cons_self start) first

/-- What an allowed step can always bring down, some run brings to zero. The induction
is on the measure. -/
theorem settles {inv : S → Prop} (measure : S → Nat)
    (descends : ∀ s, inv s → measure s ≠ 0 → ∃ a t, good s a ∧ step s a = some t ∧ inv t ∧
      measure t < measure s) (initially : inv start) :
    ∃ s, Run step good start s ∧ inv s ∧ measure s = 0 := by
  induction bound : measure start using Nat.strongRecOn generalizing start with
  | _ n ih =>
    by_cases zero : measure start = 0
    · exact ⟨start, .here, initially, zero⟩
    · obtain ⟨a, t, allowed, taken, holds, fewer⟩ := descends start initially zero
      obtain ⟨s, later, ends⟩ := ih (measure t) (bound ▸ fewer) holds rfl
      exact ⟨s, later.head allowed taken, ends⟩

end Run

/-- What every own step brings down, and no other step brings up, bounds the own steps of a
run. By induction on the steps. -/
theorem own_steps_le {inv : S → Prop} (measure : S → Nat) (own : A → Bool)
    (descends : ∀ s a t, inv s → step s a = some t →
      inv t ∧ measure t + (if own a then 1 else 0) ≤ measure s)
    (initially : inv start) {actions : List A} (taken : actions.foldlM step start = some s) :
    actions.countP own + measure s ≤ measure start := by
  induction actions generalizing start with
  | nil =>
    cases taken
    simp
  | cons a actions ih =>
    rw [List.foldlM_cons, Option.bind_eq_bind, Option.bind_eq_some_iff] at taken
    obtain ⟨t, first, rest⟩ := taken
    obtain ⟨holds, fewer⟩ := descends start a t initially first
    have later := ih holds rest
    rw [List.countP_cons]
    omega

end Transition
