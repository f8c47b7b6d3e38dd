import CodexProxy.Credentials.OAuth
import CodexProxy.Router.Conversation
import Mathlib.Data.Nat.Digits.Defs

/-! The quota windows that the headers of an upstream response report, and what they say
header by header. How doubles are read, and what an integer becomes as a double, are given. -/
namespace CodexProxy.Server
open Credentials Router

/-- Finite doubles have their values; the two zeros are one. -/
inductive Double where
  | finite (value : Rat)
  | infinite (negative : Bool)
  | nan

structure Doubles where
  fromStr : String → Option Double
  ofInt64 : Int64 → Rat

def Double.finite? : Double → Option Rat
  | .finite value => some value
  | _ => none

def clamp (value lower upper : Rat) : Rat :=
  if value < lower then lower else if upper < value then upper else value

/-- Decimal digits behind at most one sign. -/
def int64FromStr (s : String) : Option Int64 :=
  let (negative, digits) : Bool × List Char := match s.toList with
    | '-' :: digits => (true, digits)
    | '+' :: digits => (false, digits)
    | digits => (false, digits)
  if digits = [] ∨ ¬ digits.all Char.isDigit then none
  else
    let n := digits.foldl (fun (n : Int) c => 10 * n + (c.toNat - 48)) 0
    let n := if negative then -n else n
    if -2 ^ 63 ≤ n ∧ n < 2 ^ 63 then some (Int64.ofInt n) else none

inductive WindowKind where
  | primary
  | secondary
  deriving DecidableEq

def WindowKind.label : WindowKind → String
  | .primary => "primary"
  | .secondary => "secondary"

structure Window where
  usedPercent : Rat
  windowMinutes : Option Int64
  resetAt : Option Int64

variable (doubles : Doubles)

def parseF64 (headers : HeaderMap) (name : String) : Option Rat :=
  ((headers.lookup name).bind headerText).bind fun text =>
    (doubles.fromStr (Text.trim text)).bind Double.finite?

def parseI64 (headers : HeaderMap) (name : String) : Option Int64 :=
  ((headers.lookup name).bind headerText).bind fun text => int64FromStr (Text.trim text)

/-- The usage is the anchor of a window. -/
def Window.fromHeaders (headers : HeaderMap) (kind : WindowKind) : Option Window :=
  (parseF64 doubles headers ("x-codex-" ++ kind.label ++ "-used-percent")).map fun usedPercent =>
    { usedPercent := clamp usedPercent 0 100
      windowMinutes := parseI64 headers ("x-codex-" ++ kind.label ++ "-window-minutes")
      resetAt := parseI64 headers ("x-codex-" ++ kind.label ++ "-reset-at") }

structure RateLimits where
  primary : Option Window
  secondary : Option Window

def RateLimits.fromHeaders (headers : HeaderMap) : RateLimits where
  primary := Window.fromHeaders doubles headers .primary
  secondary := Window.fromHeaders doubles headers .secondary

def RateLimits.isEmpty (limits : RateLimits) : Bool :=
  limits.primary.isNone && limits.secondary.isNone

inductive Gauge where
  | usedPercent
  | windowSeconds
  | resetTimestampSeconds
  deriving DecidableEq

/-- The header behind a gauge. -/
def headerOf : WindowKind → Gauge → String
  | .primary, .usedPercent => "x-codex-primary-used-percent"
  | .primary, .windowSeconds => "x-codex-primary-window-minutes"
  | .primary, .resetTimestampSeconds => "x-codex-primary-reset-at"
  | .secondary, .usedPercent => "x-codex-secondary-used-percent"
  | .secondary, .windowSeconds => "x-codex-secondary-window-minutes"
  | .secondary, .resetTimestampSeconds => "x-codex-secondary-reset-at"

/-- A header in visible characters, the whitespace around it aside. -/
def Carries (headers : HeaderMap) (name text : String) : Prop :=
  ∃ value raw, headers.lookup name = some value ∧ headerText value = some raw ∧ text = Text.trim raw

/-- An integer in decimal digits, behind at most one sign. -/
def Denotes (text : String) (n : Int) : Prop :=
  ∃ sign digits, text.toList = sign ++ digits ∧ digits ≠ [] ∧ (∀ d ∈ digits, d.isDigit = true) ∧
    (sign = [] ∨ sign = ['+'] ∨ sign = ['-']) ∧
    n = (if sign = ['-'] then -1 else 1) *
      (Nat.ofDigits 10 (digits.reverse.map fun d => d.toNat - 48) : Nat)

/-- A header that says a finite number. -/
def SaysNumber (headers : HeaderMap) (name : String) (value : Rat) : Prop :=
  ∃ text, Carries headers name text ∧ doubles.fromStr text = some (.finite value)

/-- A header that says an integer of 64 bits. -/
def SaysInteger (headers : HeaderMap) (name : String) (n : Int64) : Prop :=
  ∃ text, Carries headers name text ∧ Denotes text n.toInt

/-- What the headers say for a gauge: the usage within a hundred percent, and beside it the
window's minutes as seconds, no more than fit, and its reset. -/
inductive Says (headers : HeaderMap) (kind : WindowKind) : Gauge → Rat → Prop where
  | usage {value : Rat} (said : SaysNumber doubles headers (headerOf kind .usedPercent) value) :
      Says headers kind .usedPercent (max 0 (min value 100))
  | window {value : Rat} {minutes seconds : Int64}
      (anchor : SaysNumber doubles headers (headerOf kind .usedPercent) value)
      (said : SaysInteger headers (headerOf kind .windowSeconds) minutes)
      (fits : seconds.toInt = max (-2 ^ 63) (min (60 * minutes.toInt) (2 ^ 63 - 1))) :
      Says headers kind .windowSeconds (doubles.ofInt64 seconds)
  | reset {value : Rat} {resetAt : Int64}
      (anchor : SaysNumber doubles headers (headerOf kind .usedPercent) value)
      (said : SaysInteger headers (headerOf kind .resetTimestampSeconds) resetAt) :
      Says headers kind .resetTimestampSeconds (doubles.ofInt64 resetAt)

/-- The digits of a decimal numeral. -/
theorem foldl_digits (digits : List Char) (all : ∀ d ∈ digits, d.isDigit = true) :
    digits.foldl (fun (n : Int) c => 10 * n + (c.toNat - 48)) 0 =
      (Nat.ofDigits 10 (digits.reverse.map fun d => d.toNat - 48) : Nat) := by
  induction digits using List.reverseRecOn with
  | nil => rfl
  | append_singleton digits d ih =>
    obtain ⟨front, last⟩ := List.forall_mem_append.mp all
    have digit := last d (List.mem_singleton_self d)
    have low : 48 ≤ d.toNat := by
      simp only [Char.isDigit, Bool.and_eq_true, decide_eq_true_eq] at digit
      exact digit.1
    rw [List.foldl_append, List.foldl_cons, List.foldl_nil, ih front, List.reverse_concat,
      List.map_cons, Nat.ofDigits_cons]
    push_cast
    omega

/-- What is read of a sign and digits. -/
theorem int64FromStr_signed {s : String} {negative : Bool} {digits : List Char}
    (split : (match s.toList with
      | '-' :: digits => (true, digits)
      | '+' :: digits => (false, digits)
      | digits => (false, digits)) = (negative, digits)) (n : Int64) :
    int64FromStr s = some n ↔ digits ≠ [] ∧ (∀ d ∈ digits, d.isDigit = true) ∧
      n.toInt = (if negative then -1 else 1) *
        (Nat.ofDigits 10 (digits.reverse.map fun d => d.toNat - 48) : Nat) := by
  rw [int64FromStr, split]
  dsimp only
  split
  · rename_i malformed
    refine iff_of_false (by simp) ?_
    rintro ⟨some, all, _⟩
    exact malformed.elim some fun other => other (List.all_eq_true.mpr all)
  · rename_i wellFormed
    rw [not_or, not_not] at wellFormed
    obtain ⟨some, all⟩ := wellFormed
    have digit : ∀ d ∈ digits, d.isDigit = true := List.all_eq_true.mp all
    rw [foldl_digits digits digit]
    have signed (m : Int) : (if negative then -m else m) = (if negative then -1 else 1) * m := by
      cases negative <;> simp
    rw [signed]
    generalize (if negative then (-1 : Int) else 1) * _ = m
    have low := n.le_toInt
    have high := n.toInt_lt
    split
    · rename_i fits
      refine ⟨fun same => ⟨some, digit, ?_⟩, fun ⟨_, _, same⟩ => ?_⟩
      · rw [← Option.some.inj same, Int64.toInt_ofInt_of_le fits.1 fits.2]
      · rw [← same, Int64.ofInt_toInt]
    · rename_i large
      refine iff_of_false (by simp) ?_
      rintro ⟨_, _, same⟩
      exact large (same ▸ ⟨low, high⟩)

/-- What is read is what the text denotes. -/
theorem int64FromStr_iff {s : String} {n : Int64} : int64FromStr s = some n ↔ Denotes s n.toInt := by
  constructor
  · intro read
    -- the sign that is split off, and the rest
    obtain ⟨sign, digits, chars, signed, split⟩ : ∃ sign digits, s.toList = sign ++ digits ∧
        (sign = [] ∨ sign = ['+'] ∨ sign = ['-']) ∧ (match s.toList with
          | '-' :: digits => (true, digits)
          | '+' :: digits => (false, digits)
          | digits => (false, digits)) = (decide (sign = ['-']), digits) := by
      split
      · rename_i digits chars
        exact ⟨['-'], digits, chars, .inr (.inr rfl), rfl⟩
      · rename_i digits chars
        exact ⟨['+'], digits, chars, .inr (.inl rfl), rfl⟩
      · exact ⟨[], _, rfl, .inl rfl, rfl⟩
    obtain ⟨some, all, value⟩ := (int64FromStr_signed split n).mp read
    refine ⟨sign, digits, chars, some, all, signed, ?_⟩
    rw [value]
    simp only [decide_eq_true_eq]
  · rintro ⟨sign, digits, chars, some, all, signed, value⟩
    have split : (match s.toList with
        | '-' :: digits => (true, digits)
        | '+' :: digits => (false, digits)
        | digits => (false, digits)) = (decide (sign = ['-']), digits) := by
      rcases signed with rfl | rfl | rfl
      · obtain ⟨d, rest, rfl⟩ := List.exists_cons_of_ne_nil some
        have digit := all d List.mem_cons_self
        rw [chars]
        split
        · rename_i same
          obtain ⟨rfl, _⟩ := List.cons.inj same
          exact absurd digit (by decide)
        · rename_i same
          obtain ⟨rfl, _⟩ := List.cons.inj same
          exact absurd digit (by decide)
        · rfl
      · rw [chars]
        rfl
      · rw [chars]
        rfl
    rw [int64FromStr_signed split n]
    refine ⟨some, all, ?_⟩
    rw [value]
    simp only [decide_eq_true_eq]

variable (doubles : Doubles) (headers : HeaderMap)

theorem carries_iff {name text : String} : Carries headers name text ↔
    (((headers.lookup name).bind headerText).map Text.trim) = some text := by
  rw [Carries, Option.map_eq_some_iff]
  constructor
  · rintro ⟨value, raw, found, read, rfl⟩
    exact ⟨raw, by rw [found, Option.bind_some, read], rfl⟩
  · rintro ⟨raw, read, rfl⟩
    obtain ⟨value, found, read⟩ := Option.bind_eq_some_iff.mp read
    exact ⟨value, raw, found, read, rfl⟩

theorem parseF64_iff {name : String} {value : Rat} :
    parseF64 doubles headers name = some value ↔ SaysNumber doubles headers name value := by
  rw [SaysNumber]
  simp only [carries_iff, Option.map_eq_some_iff]
  rw [parseF64, Option.bind_eq_some_iff]
  constructor
  · rintro ⟨raw, read, parsed⟩
    obtain ⟨double, denoted, finite⟩ := Option.bind_eq_some_iff.mp parsed
    cases double with
    | finite v =>
      obtain rfl := Option.some.inj finite
      exact ⟨_, ⟨raw, read, rfl⟩, denoted⟩
    | infinite | nan => cases finite
  · rintro ⟨_, ⟨raw, read, rfl⟩, parsed⟩
    exact ⟨raw, read, by rw [parsed]; rfl⟩

theorem parseI64_iff {name : String} {n : Int64} :
    parseI64 headers name = some n ↔ SaysInteger headers name n := by
  rw [SaysInteger]
  simp only [carries_iff, Option.map_eq_some_iff, ← int64FromStr_iff]
  rw [parseI64, Option.bind_eq_some_iff]
  constructor
  · rintro ⟨raw, read, parsed⟩
    exact ⟨_, ⟨raw, read, rfl⟩, parsed⟩
  · rintro ⟨_, ⟨raw, read, rfl⟩, parsed⟩
    exact ⟨raw, read, parsed⟩

theorem clamp_eq (value : Rat) : clamp value 0 100 = max 0 (min value 100) := by
  rw [clamp]
  split
  · rename_i low
    rw [min_eq_left (by linarith), max_eq_left low.le]
  split
  · rename_i high
    rw [min_eq_right high.le, max_eq_right (by norm_num)]
  · rename_i low high
    rw [min_eq_left (not_lt.mp high), max_eq_right (not_lt.mp low)]

/-- What a window says for a gauge. -/
def Window.reading (window : Window) : Gauge → Option Rat
  | .usedPercent => some window.usedPercent
  | .windowSeconds => (window.windowMinutes.map (saturatingMul · 60)).map doubles.ofInt64
  | .resetTimestampSeconds => window.resetAt.map doubles.ofInt64

/-- What a response is read to say for a gauge. -/
def reading (gauge : Gauge) (kind : WindowKind) : Option Rat :=
  (Window.fromHeaders doubles headers kind).bind (Window.reading doubles · gauge)

theorem headerOf_eq (kind : WindowKind) :
    headerOf kind .usedPercent = "x-codex-" ++ kind.label ++ "-used-percent" ∧
    headerOf kind .windowSeconds = "x-codex-" ++ kind.label ++ "-window-minutes" ∧
    headerOf kind .resetTimestampSeconds = "x-codex-" ++ kind.label ++ "-reset-at" := by
  cases kind <;> decide

theorem saturatingMul_toInt (minutes : Int64) : (saturatingMul minutes 60).toInt =
    max (-2 ^ 63) (min (60 * minutes.toInt) (2 ^ 63 - 1)) := by
  have sixty : (60 : Int64).toInt = 60 := by decide
  rw [saturatingMul, saturate, sixty, Int.mul_comm]
  exact Int64.toInt_ofInt_of_le (by omega) (by omega)

/-- What is read is what the headers say. -/
theorem reading_iff {gauge : Gauge} {kind : WindowKind} {value : Rat} :
    reading doubles headers gauge kind = some value ↔ Says doubles headers kind gauge value := by
  obtain ⟨usage, window, reset⟩ := headerOf_eq kind
  rw [reading, Window.fromHeaders, Option.bind_eq_some_iff]
  simp only [Option.map_eq_some_iff, exists_exists_and_eq_and, ← usage, ← window, ← reset,
    parseF64_iff]
  constructor
  · rintro ⟨percent, anchor, read⟩
    cases gauge with
    | usedPercent =>
      rw [← Option.some.inj read, clamp_eq]
      exact .usage anchor
    | windowSeconds =>
      obtain ⟨seconds, multiplied, rfl⟩ := Option.map_eq_some_iff.mp read
      obtain ⟨minutes, said, rfl⟩ := Option.map_eq_some_iff.mp multiplied
      exact .window anchor ((parseI64_iff headers).mp said) (saturatingMul_toInt minutes)
    | resetTimestampSeconds =>
      obtain ⟨resetAt, said, rfl⟩ := Option.map_eq_some_iff.mp read
      exact .reset anchor ((parseI64_iff headers).mp said)
  · rintro (said | ⟨anchor, said, fits⟩ | ⟨anchor, said⟩)
    · exact ⟨_, said, congrArg some (clamp_eq _)⟩
    · refine ⟨_, anchor, ?_⟩
      rw [Window.reading, (parseI64_iff headers).mpr said, Option.map_some, Option.map_some,
        Int64.toInt_inj.mp ((saturatingMul_toInt _).trans fits.symm)]
    · refine ⟨_, anchor, ?_⟩
      rw [Window.reading, (parseI64_iff headers).mpr said, Option.map_some]

end CodexProxy.Server
