import CodexProxy.Server.RateLimit
import CodexProxy.Library.Transition

/-! The gauges that show the quota windows of the upstream. Many responses are observed at
once, and each gauge is set on its own. -/
namespace CodexProxy.Server
open Credentials Router Transition

/-- What one gauge is set to, under its two labels. -/
structure Setting where
  gauge : Gauge
  account : String
  kind : WindowKind
  value : Rat

/-- A series that was never set is not there. -/
abbrev Gauges := Gauge → String → WindowKind → Option Rat

def Gauges.set (gauges : Gauges) (s : Setting) : Gauges := fun gauge account kind =>
  if gauge = s.gauge ∧ account = s.account ∧ kind = s.kind then some s.value
  else gauges gauge account kind

variable (doubles : Doubles)

def observeWindow (account : String) (kind : WindowKind) (window : Window) : List Setting :=
  let windowSeconds := window.windowMinutes.map (saturatingMul · 60)
  [⟨.usedPercent, account, kind, window.usedPercent⟩] ++
    (windowSeconds.map fun seconds =>
      (⟨.windowSeconds, account, kind, doubles.ofInt64 seconds⟩ : Setting)).toList ++
    (window.resetAt.map fun resetAt =>
      (⟨.resetTimestampSeconds, account, kind, doubles.ofInt64 resetAt⟩ : Setting)).toList

/-- What observing a response sets, in this order. -/
def observeHeaders (account : String) (headers : HeaderMap) : List Setting :=
  let limits := RateLimits.fromHeaders doubles headers
  if limits.isEmpty then []
  else (limits.primary.toList.flatMap (observeWindow doubles account .primary)) ++
    limits.secondary.toList.flatMap (observeWindow doubles account .secondary)

/-- The handlers that are observing a response, with what is left to set, and the responses
that were observed. -/
structure Observers where
  gauges : Gauges
  pending : Nat → List Setting
  observed : List (String × HeaderMap)

inductive Observation where
  | observe (t : Nat) (account : String) (headers : HeaderMap)
  | set (t : Nat)

namespace Observers

def new : Observers := ⟨fun _ _ _ => none, fun _ => [], []⟩

def step (w : Observers) : Observation → Option Observers
  | .observe t account headers =>
    if w.pending t = [] then
      some { w with
        pending := Function.update w.pending t (observeHeaders doubles account headers)
        observed := (account, headers) :: w.observed }
    else none
  | .set t =>
    match w.pending t with
    | [] => none
    | s :: later => some { w with
        gauges := w.gauges.set s
        pending := Function.update w.pending t later }

end Observers

theorem clamp_range (value : Rat) {lower upper : Rat} (range : lower ≤ upper) :
    lower ≤ clamp value lower upper ∧ clamp value lower upper ≤ upper := by
  rw [clamp]
  split
  · exact ⟨Rat.le_refl, range⟩
  · rename_i above
    split
    · exact ⟨range, Rat.le_refl⟩
    · rename_i below
      exact ⟨Rat.not_lt.mp above, Rat.not_lt.mp below⟩

theorem reading_range {headers : HeaderMap} {kind : WindowKind} {value : Rat}
    (read : reading doubles headers .usedPercent kind = some value) : 0 ≤ value ∧ value ≤ 100 := by
  obtain ⟨window, found, same⟩ := Option.bind_eq_some_iff.mp read
  obtain ⟨percent, _, rfl⟩ := Option.map_eq_some_iff.mp found
  obtain rfl := Option.some.inj same
  exact clamp_range percent (by decide)

theorem mem_observeWindow {account : String} {kind : WindowKind} {window : Window} {s : Setting} :
    s ∈ observeWindow doubles account kind window ↔
      s.account = account ∧ s.kind = kind ∧ Window.reading doubles window s.gauge = some s.value := by
  obtain ⟨gauge, account', kind', value⟩ := s
  obtain ⟨percent, minutes, resetAt⟩ := window
  cases gauge <;> cases minutes <;> cases resetAt <;>
    simp [observeWindow, Window.reading, eq_comm]

/-- What is set for a response is what it says. -/
theorem mem_observeHeaders {account : String} {headers : HeaderMap} {s : Setting} :
    s ∈ observeHeaders doubles account headers ↔
      s.account = account ∧ reading doubles headers s.gauge s.kind = some s.value := by
  have empty : (RateLimits.fromHeaders doubles headers).isEmpty = true ↔
      ∀ kind, Window.fromHeaders doubles headers kind = none := by
    rw [RateLimits.isEmpty, Bool.and_eq_true, Option.isNone_iff_eq_none, Option.isNone_iff_eq_none]
    constructor
    · rintro ⟨primary, secondary⟩ (_ | _)
      · exact primary
      · exact secondary
    · exact fun none => ⟨none .primary, none .secondary⟩
  rw [observeHeaders]
  split
  · rename_i none
    rw [reading, empty.mp none]
    simp
  · rw [List.mem_append, List.mem_flatMap, List.mem_flatMap, reading]
    simp only [Option.mem_toList, mem_observeWindow, RateLimits.fromHeaders]
    constructor
    · rintro (⟨window, found, rfl, kind, read⟩ | ⟨window, found, rfl, kind, read⟩)
      all_goals exact ⟨rfl, Option.bind_eq_some_iff.mpr ⟨window, kind ▸ found, read⟩⟩
    · rintro ⟨rfl, read⟩
      obtain ⟨window, found, read⟩ := Option.bind_eq_some_iff.mp read
      cases kind : s.kind with
      | primary => exact .inl ⟨window, kind ▸ found, rfl, rfl, read⟩
      | secondary => exact .inr ⟨window, kind ▸ found, rfl, rfl, read⟩

theorem set_present {gauges : Gauges} {s : Setting} {gauge : Gauge} {account : String}
    {kind : WindowKind} (present : gauges gauge account kind ≠ none) :
    gauges.set s gauge account kind ≠ none := by
  rw [Gauges.set]
  split
  · exact Option.some_ne_none _
  · exact present

/-- What a series shows after settings that agree on it. -/
theorem foldl_set {settings : List Setting} {gauge : Gauge} {account : String} {kind : WindowKind}
    {read : Option Rat}
    (agree : ∀ s ∈ settings, s.gauge = gauge → s.account = account → s.kind = kind →
      read = some s.value)
    (complete : ∀ value, read = some value → ⟨gauge, account, kind, value⟩ ∈ settings)
    (gauges : Gauges) :
    settings.foldl Gauges.set gauges gauge account kind = read.or (gauges gauge account kind) := by
  -- What was set already is either the reading or still to be set.
  suffices general : ∀ (settings : List Setting) (gauges : Gauges),
      (∀ s ∈ settings, s.gauge = gauge → s.account = account → s.kind = kind →
        read = some s.value) →
      (∀ value, read = some value → ⟨gauge, account, kind, value⟩ ∈ settings ∨
        gauges gauge account kind = some value) →
      ∀ old, (read = none → gauges gauge account kind = old) →
      settings.foldl Gauges.set gauges gauge account kind = read.or old from
    general settings gauges agree (fun value same => .inl (complete value same)) _ fun _ => rfl
  intro settings
  induction settings with
  | nil =>
    intro gauges _ complete old kept
    cases same : read with
    | none => exact kept same
    | some value =>
      rcases complete value same with inside | shown
      · cases inside
      · exact shown
  | cons s settings ih =>
    intro gauges agree complete old kept
    rw [List.foldl_cons]
    refine ih (gauges.set s) (fun s' member => agree s' (List.mem_cons_of_mem _ member)) ?_ old ?_
    · intro value same
      by_cases here : gauge = s.gauge ∧ account = s.account ∧ kind = s.kind
      · right
        rw [Gauges.set, if_pos here, ← same]
        exact (agree s List.mem_cons_self here.1.symm here.2.1.symm here.2.2.symm).symm
      · rw [Gauges.set, if_neg here]
        refine (complete value same).imp_left fun inside => ?_
        refine (List.mem_cons.mp inside).resolve_left ?_
        rintro rfl
        exact here ⟨rfl, rfl, rfl⟩
    · intro unread
      rw [Gauges.set, if_neg, kept unread]
      rintro ⟨rfl, rfl, rfl⟩
      rw [agree s List.mem_cons_self rfl rfl rfl] at unread
      cases unread

/-- A response shows on the gauges of its account what it says, and nothing else. -/
theorem observeHeaders_foldl (account : String) (headers : HeaderMap) (gauges : Gauges)
    (gauge : Gauge) (account' : String) (kind : WindowKind) :
    (observeHeaders doubles account headers).foldl Gauges.set gauges gauge account' kind =
      (if account' = account then reading doubles headers gauge kind else none).or
        (gauges gauge account' kind) := by
  refine foldl_set ?_ ?_ gauges
  · rintro s member rfl rfl rfl
    obtain ⟨same, read⟩ := (mem_observeHeaders doubles).mp member
    rw [if_pos same, read]
  · intro value same
    split at same
    · rename_i own
      exact (mem_observeHeaders doubles).mpr ⟨own, same⟩
    · cases same

/-- Settings before each of which the usage of its window is there. -/
def Led (gauges : Gauges) : List Setting → Prop
  | [] => True
  | s :: later => (s.gauge = .usedPercent ∨ gauges .usedPercent s.account s.kind ≠ none) ∧
      Led (gauges.set s) later

/-- No series without that of the usage. -/
def Anchored (gauges : Gauges) : Prop := ∀ gauge account kind,
  gauges gauge account kind ≠ none → gauges .usedPercent account kind ≠ none

theorem Led.mono {gauges gauges' : Gauges} {settings : List Setting} (led : Led gauges settings)
    (more : ∀ account kind, gauges .usedPercent account kind ≠ none →
      gauges' .usedPercent account kind ≠ none) : Led gauges' settings := by
  induction settings generalizing gauges gauges' with
  | nil => trivial
  | cons s settings ih =>
    obtain ⟨first, later⟩ := led
    refine ⟨first.imp_right (more _ _), ih later fun account kind present => ?_⟩
    rw [Gauges.set] at present ⊢
    split at present
    · rename_i here
      rw [if_pos here]
      exact Option.some_ne_none _
    · rename_i other
      rw [if_neg other]
      exact more account kind present

theorem led_append {gauges : Gauges} {front back : List Setting} :
    Led gauges (front ++ back) ↔ Led gauges front ∧ Led (front.foldl Gauges.set gauges) back := by
  induction front generalizing gauges with
  | nil => simp [Led]
  | cons s front ih => rw [List.cons_append, Led, Led, ih, List.foldl_cons, and_assoc]

theorem led_of_present {gauges : Gauges} {settings : List Setting}
    (present : ∀ s ∈ settings, gauges .usedPercent s.account s.kind ≠ none) :
    Led gauges settings := by
  induction settings generalizing gauges with
  | nil => trivial
  | cons s settings ih =>
    obtain ⟨first, later⟩ := List.forall_mem_cons.mp present
    exact ⟨.inr first, ih fun s' member => set_present (later s' member)⟩

theorem observeWindow_led (gauges : Gauges) (account : String) (kind : WindowKind)
    (window : Window) : Led gauges (observeWindow doubles account kind window) := by
  have labels (s : Setting) (member : s ∈ observeWindow doubles account kind window) :
      s.account = account ∧ s.kind = kind := by
    obtain ⟨account', kind', _⟩ := (mem_observeWindow doubles).mp member
    exact ⟨account', kind'⟩
  rw [observeWindow, List.append_assoc, List.singleton_append] at labels ⊢
  refine ⟨.inl rfl, led_of_present fun s member => ?_⟩
  obtain ⟨same, kind'⟩ := labels s (List.mem_cons_of_mem _ member)
  rw [Gauges.set, if_pos ⟨rfl, same, kind'⟩]
  exact Option.some_ne_none _

theorem observeHeaders_led (gauges : Gauges) (account : String) (headers : HeaderMap) :
    Led gauges (observeHeaders doubles account headers) := by
  rw [observeHeaders]
  split
  · trivial
  · rw [led_append]
    constructor
    · cases (RateLimits.fromHeaders doubles headers).primary with
      | none => trivial
      | some window =>
        rw [Option.toList_some, List.flatMap_singleton]
        exact observeWindow_led doubles _ account .primary window
    · cases (RateLimits.fromHeaders doubles headers).secondary with
      | none => trivial
      | some window =>
        rw [Option.toList_some, List.flatMap_singleton]
        exact observeWindow_led doubles _ account .secondary window

/-- A value that a response of the account has reported. -/
def Reported (observed : List (String × HeaderMap)) (gauge : Gauge) (account : String)
    (kind : WindowKind) (value : Rat) : Prop :=
  ∃ headers, (account, headers) ∈ observed ∧ Says doubles headers kind gauge value

theorem Reported.later {observed : List (String × HeaderMap)} {gauge : Gauge} {account : String}
    {kind : WindowKind} {value : Rat} (reported : Reported doubles observed gauge account kind value)
    (response : String × HeaderMap) :
    Reported doubles (response :: observed) gauge account kind value := by
  obtain ⟨headers, inside, read⟩ := reported
  exact ⟨headers, List.mem_cons_of_mem _ inside, read⟩

namespace Observers

/-- What is shown and what is still to be set were reported, and a usage leads each window. -/
structure Sound (w : Observers) : Prop where
  shown : ∀ gauge account kind value, w.gauges gauge account kind = some value →
    Reported doubles w.observed gauge account kind value
  anchored : Anchored w.gauges
  pending : ∀ t, ∀ s ∈ w.pending t, Reported doubles w.observed s.gauge s.account s.kind s.value
  led : ∀ t, Led w.gauges (w.pending t)

theorem sound_new : new.Sound doubles where
  shown _ _ _ _ shown := nomatch shown
  anchored _ _ _ present := absurd rfl present
  pending _ _ member := nomatch member
  led _ := trivial

/-- A response is taken up. -/
theorem Sound.observe {w : Observers} (sound : w.Sound doubles) (t : Nat) (account : String)
    (headers : HeaderMap) :
    Sound doubles { w with
      pending := Function.update w.pending t (observeHeaders doubles account headers)
      observed := (account, headers) :: w.observed } where
  shown gauge account' kind value shown :=
    (sound.shown gauge account' kind value shown).later doubles _
  anchored := sound.anchored
  pending := by
    refine (Function.forall_update_iff w.pending fun _ settings => ∀ s ∈ settings,
      Reported doubles ((account, headers) :: w.observed) s.gauge s.account s.kind s.value).mpr
      ⟨fun s member => ?_, fun t' _ s member => (sound.pending t' s member).later doubles _⟩
    obtain ⟨same, read⟩ := (mem_observeHeaders doubles).mp member
    exact ⟨headers, same ▸ List.mem_cons_self, (reading_iff doubles headers).mp read⟩
  led := (Function.forall_update_iff w.pending fun _ settings => Led w.gauges settings).mpr
    ⟨observeHeaders_led doubles _ account headers, fun t' _ => sound.led t'⟩

/-- A gauge is set. -/
theorem Sound.set {w : Observers} (sound : w.Sound doubles) {t : Nat} {s : Setting}
    {later : List Setting} (here : w.pending t = s :: later) :
    Sound doubles { w with
      gauges := w.gauges.set s
      pending := Function.update w.pending t later } := by
  have led := sound.led t
  have reported := sound.pending t
  rw [here] at led reported
  have grows (account : String) (kind : WindowKind)
      (present : w.gauges .usedPercent account kind ≠ none) :
      w.gauges.set s .usedPercent account kind ≠ none := set_present present
  refine ⟨fun gauge account kind value shown => ?_, fun gauge account kind present => ?_, ?_, ?_⟩
  · dsimp only at shown
    rw [Gauges.set] at shown
    split at shown
    · rename_i own
      obtain ⟨rfl, rfl, rfl⟩ := own
      obtain rfl := Option.some.inj shown
      exact reported s List.mem_cons_self
    · exact sound.shown gauge account kind value shown
  · dsimp only at present ⊢
    rw [Gauges.set] at present
    split at present
    · rename_i own
      obtain ⟨-, rfl, rfl⟩ := own
      rcases led.1 with usage | there
      · rw [Gauges.set, if_pos ⟨usage.symm, rfl, rfl⟩]
        exact Option.some_ne_none _
      · exact grows _ _ there
    · exact grows _ _ (sound.anchored gauge account kind present)
  · exact (Function.forall_update_iff w.pending fun _ settings => ∀ s ∈ settings,
      Reported doubles w.observed s.gauge s.account s.kind s.value).mpr
      ⟨fun s' member => reported s' (List.mem_cons_of_mem _ member), fun t' _ => sound.pending t'⟩
  · exact (Function.forall_update_iff w.pending fun _ settings => Led (w.gauges.set s) settings).mpr
      ⟨led.2, fun t' _ => (sound.led t').mono grows⟩

theorem Sound.step {w w' : Observers} {a : Observation} (sound : w.Sound doubles)
    (taken : w.step doubles a = some w') : w'.Sound doubles := by
  cases a with
  | observe t account headers =>
    rw [Observers.step] at taken
    split at taken
    · cases taken
      exact sound.observe doubles t account headers
    · cases taken
  | set t =>
    rw [Observers.step] at taken
    cases here : w.pending t with
    | nil => simp [here] at taken
    | cons s later =>
      rw [here] at taken
      cases taken
      exact sound.set doubles here

/-- Observing a response without interruption. By induction on what is left to set. -/
theorem sets {t : Nat} {settings : List Setting} {w : Observers} (here : w.pending t = settings) :
    (List.replicate settings.length (.set t)).foldlM (step doubles) w =
      some { w with
        gauges := settings.foldl Gauges.set w.gauges
        pending := Function.update w.pending t [] } := by
  induction settings generalizing w with
  | nil =>
    have idle : Function.update w.pending t [] = w.pending := by
      rw [← here, Function.update_eq_self]
    rw [idle]
    rfl
  | cons s settings ih =>
    rw [List.length_cons, List.replicate_succ, List.foldlM_cons, step, here]
    refine (ih (w := { w with
      gauges := w.gauges.set s, pending := Function.update w.pending t settings }) ?_).trans ?_
    · exact Function.update_self ..
    · rw [Function.update_idem]
      rfl

/-- A response that is observed by itself. -/
theorem observes {w : Observers} {t : Nat} (idle : w.pending t = []) (account : String)
    (headers : HeaderMap) :
    (Observation.observe t account headers ::
        List.replicate (observeHeaders doubles account headers).length (.set t)).foldlM
          (step doubles) w =
      some ⟨(observeHeaders doubles account headers).foldl Gauges.set w.gauges,
        Function.update w.pending t [], (account, headers) :: w.observed⟩ := by
  rw [List.foldlM_cons, step, if_pos idle]
  refine (sets doubles (w := { w with
    pending := Function.update w.pending t (observeHeaders doubles account headers)
    observed := (account, headers) :: w.observed }) (Function.update_self ..)).trans ?_
  rw [Function.update_idem]

end Observers

/-- Every run of any number of handlers that observe responses at once, each setting gauge
after gauge: a series shows what a response of its account has reported for its window, the
usage is a percentage, and no window or reset is shown without a usage. A response that is
observed without interruption shows all that it says, and leaves every other series. -/
theorem gauges_sound {w : Observers}
    (reached : Run (Observers.step doubles) (fun _ _ => True) Observers.new w) :
    (∀ gauge account kind value, w.gauges gauge account kind = some value →
      Reported doubles w.observed gauge account kind value ∧
      (gauge = .usedPercent → 0 ≤ value ∧ value ≤ 100) ∧
      w.gauges .usedPercent account kind ≠ none) ∧
    ∀ t account headers, w.pending t = [] → ∃ sets w',
      (Observation.observe t account headers :: List.replicate sets (.set t)).foldlM
        (Observers.step doubles) w = some w' ∧ w'.pending t = [] ∧
      ∀ gauge account' kind,
        (∀ value, account' = account → Says doubles headers kind gauge value →
          w'.gauges gauge account' kind = some value) ∧
        ((account' = account → ∀ value, ¬ Says doubles headers kind gauge value) →
          w'.gauges gauge account' kind = w.gauges gauge account' kind) := by
  have sound : w.Sound doubles := reached.invariant (Observers.sound_new doubles)
    fun sound _ taken => sound.step doubles taken
  refine ⟨fun gauge account kind value shown => ⟨sound.shown _ _ _ _ shown, ?_, ?_⟩, ?_⟩
  · rintro rfl
    obtain ⟨headers, _, said⟩ := sound.shown _ _ _ _ shown
    exact reading_range doubles ((reading_iff doubles headers).mpr said)
  · exact sound.anchored gauge account kind (by rw [shown]; exact Option.some_ne_none _)
  · intro t account headers idle
    refine ⟨_, _, Observers.observes doubles idle account headers, Function.update_self ..,
      fun gauge account' kind => ?_⟩
    dsimp only
    rw [observeHeaders_foldl]
    constructor
    · intro value own said
      rw [if_pos own, (reading_iff doubles headers).mpr said, Option.some_or]
    · intro silent
      split
      · rename_i own
        have none : reading doubles headers gauge kind = none := by
          rw [Option.eq_none_iff_forall_ne_some]
          exact fun value read => silent own value ((reading_iff doubles headers).mp read)
        rw [none, Option.none_or]
      · rw [Option.none_or]

namespace Sample

/-- Whole numbers that a double holds exactly. -/
def wholes : Doubles where
  fromStr text := (int64FromStr text).map fun n => .finite n.toInt
  ofInt64 n := n.toInt

def overused : HeaderMap := [("x-codex-primary-used-percent", Text.utf8 "150")]

theorem overused_says : Says wholes overused .primary .usedPercent 100 := by
  have said : SaysNumber wholes overused (headerOf .primary .usedPercent) 150 := by
    rw [← parseF64_iff]
    decide +kernel
  have most : (100 : Rat) = max 0 (min 150 100) := by norm_num
  rw [most]
  exact .usage said

end Sample

/-- An account that is over its quota is shown at a hundred percent. -/
theorem gauges_sound_overused : ∃ w : Observers,
    w.gauges .usedPercent "main" .primary = some 100 ∧
    Reported Sample.wholes w.observed .usedPercent "main" .primary 100 := by
  obtain ⟨_, alone⟩ := gauges_sound Sample.wholes .here
  obtain ⟨sets, w, taken, _, shows⟩ := alone 0 "main" Sample.overused rfl
  have shown := (shows .usedPercent "main" .primary).1 _ rfl Sample.overused_says
  have reached : Run (Observers.step Sample.wholes) (fun _ _ => True) Observers.new w :=
    Run.replay (fun _ _ _ => trivial) taken
  exact ⟨w, shown, ((gauges_sound Sample.wholes reached).1 _ _ _ _ shown).1⟩

end CodexProxy.Server
