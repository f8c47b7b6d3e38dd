import CodexProxy.Library.Bytes
import Mathlib.Data.List.Defs

/-! Model names and reasoning efforts. Names and efforts are strings, as callers send
them; every string is mapped to one of the known models, and an effort is clamped to
what its model accepts. -/
namespace CodexProxy.Request

@[match_pattern] abbrev GPT5 : String := "gpt-5"
@[match_pattern] abbrev GPT5_CODEX : String := "gpt-5-codex"
@[match_pattern] abbrev GPT5_1 : String := "gpt-5.1"
@[match_pattern] abbrev GPT5_1_CODEX : String := "gpt-5.1-codex"
@[match_pattern] abbrev GPT5_1_CODEX_MAX : String := "gpt-5.1-codex-max"
@[match_pattern] abbrev GPT5_2 : String := "gpt-5.2"
@[match_pattern] abbrev GPT5_4 : String := "gpt-5.4"
@[match_pattern] abbrev GPT5_2_CODEX : String := "gpt-5.2-codex"
@[match_pattern] abbrev GPT5_3_CODEX : String := "gpt-5.3-codex"
@[match_pattern] abbrev GPT5_3_CODEX_SPARK : String := "gpt-5.3-codex-spark"
@[match_pattern] abbrev GPT5_5 : String := "gpt-5.5"
@[match_pattern] abbrev GPT5_6_SOL : String := "gpt-5.6-sol"
@[match_pattern] abbrev GPT5_6_TERRA : String := "gpt-5.6-terra"
@[match_pattern] abbrev GPT5_6_LUNA : String := "gpt-5.6-luna"
@[match_pattern] abbrev GPT6_ASTRA : String := "gpt-6-astra"
@[match_pattern] abbrev GPT5_CODEX_MINI : String := "gpt-5-codex-mini"
@[match_pattern] abbrev GPT5_1_CODEX_MINI : String := "gpt-5.1-codex-mini"
@[match_pattern] abbrev GPT5_4_MINI : String := "gpt-5.4-mini"

def EFFORT_SUFFIXES : List String :=
  ["-ultra", "-xhigh", "-high", "-medium", "-low", "-minimal", "-max"]

def KNOWN_MODELS : List String :=
  [GPT6_ASTRA, GPT5_6_SOL, GPT5_6_TERRA, GPT5_6_LUNA, GPT5_5, GPT5_4, GPT5_4_MINI,
    GPT5_3_CODEX_SPARK, GPT5_3_CODEX, GPT5_2_CODEX, GPT5_2, GPT5_1_CODEX_MAX,
    GPT5_1_CODEX_MINI, GPT5_1_CODEX, GPT5_1, GPT5_CODEX_MINI, GPT5_CODEX, GPT5]

/-- The lookup of an id that is already in lower case. -/
def exactModel (id : String) : Option String := KNOWN_MODELS.find? (· = id)

def modelAllowedEfforts : String → Option (List String)
  | GPT5 => some ["minimal", "low", "medium", "high"]
  | GPT5_2 | GPT5_4 | GPT5_4_MINI | GPT5_2_CODEX | GPT5_3_CODEX | GPT5_3_CODEX_SPARK | GPT5_5 =>
    some ["low", "medium", "high", "xhigh"]
  | GPT6_ASTRA | GPT5_6_SOL | GPT5_6_TERRA => some ["low", "medium", "high", "xhigh", "max", "ultra"]
  | GPT5_6_LUNA => some ["low", "medium", "high", "xhigh", "max"]
  | GPT5_CODEX => some ["minimal", "low", "medium", "high"]
  | GPT5_1 | GPT5_1_CODEX => some ["low", "medium", "high"]
  | GPT5_1_CODEX_MAX => some ["low", "medium", "high", "xhigh"]
  | GPT5_CODEX_MINI | GPT5_1_CODEX_MINI => some ["medium", "high"]
  | _ => none

def modelDefaultEffort : String → Option String
  | GPT5_1 | GPT5_1_CODEX | GPT5_1_CODEX_MAX | GPT5_6_SOL | GPT6_ASTRA => some "low"
  | GPT5_2 | GPT5_4 | GPT5_4_MINI | GPT5_2_CODEX | GPT5_3_CODEX | GPT5_5 | GPT5_CODEX_MINI
  | GPT5_1_CODEX_MINI | GPT5_6_TERRA | GPT5_6_LUNA => some "medium"
  | GPT5_3_CODEX_SPARK => some "high"
  | _ => none

/-- The bare alias, a tier of it, or a point release. -/
def isGpt6Family (id : String) : Bool :=
  id = "gpt-6" || Text.startsWith id "gpt-6-" || Text.startsWith id "gpt-6."

/-- The effort that a model id's suffix encodes; a known id encodes none. -/
def effortSuffix (model : String) : Option String :=
  let lower := Text.toAsciiLowercase (Text.trim model)
  if (exactModel lower).isSome then none
  else match EFFORT_SUFFIXES.find? (Text.endsWith lower) with
    | some suffix => if lower = suffix then none else some (String.ofList (suffix.toList.drop 1))
    | none => none

def stripEffortSuffix (lower : String) : String :=
  (EFFORT_SUFFIXES.findSome? (Text.stripSuffix lower)).getD lower

/-- The families of a name that is not a known id, most specific first. -/
def modelFamily (lower : String) : String :=
  if isGpt6Family lower then GPT6_ASTRA
  else if lower = "gpt-5.6" || Text.startsWith lower "gpt-5.6-" then GPT5_6_SOL
  else if Text.contains lower "gpt-5.2-codex" then GPT5_2_CODEX
  else if Text.contains lower "gpt-5.3-codex-spark" then GPT5_3_CODEX_SPARK
  else if Text.contains lower "gpt-5.3-codex" then GPT5_3_CODEX
  else if Text.contains lower "gpt-5.4-mini" then GPT5_4_MINI
  else if Text.contains lower "gpt-5.4" then GPT5_4
  else if Text.contains lower "gpt-5.2" then GPT5_2
  else if Text.contains lower "gpt-5.1-codex-max" then GPT5_1_CODEX_MAX
  else if Text.contains lower "gpt-5.1-codex-mini" then GPT5_1_CODEX_MINI
  else if Text.contains lower "gpt-5.1-codex" then GPT5_1_CODEX
  else if Text.contains lower "gpt-5.1" then GPT5_1
  else if Text.contains lower "gpt-5-codex-mini" then GPT5_CODEX_MINI
  else if Text.contains lower "mini" then GPT5_1_CODEX_MINI
  else if Text.contains lower "4o" then GPT5_1_CODEX_MINI
  else if Text.contains lower "gpt-5-codex" || Text.contains lower "codex" then GPT5_CODEX
  else GPT5

/-- A known id is looked up before and after its effort suffix is stripped. -/
def normalizeModel (model : String) : String :=
  let lower := Text.toAsciiLowercase (Text.trim model)
  match exactModel lower with
  | some known => known
  | none =>
    let lower := stripEffortSuffix lower
    if lower = "" then GPT5
    else match exactModel lower with
      | some known => known
      | none => modelFamily lower

def normalizeReasoningEffort (effort : String) : String :=
  match Text.toAsciiLowercase (Text.trim effort) with
  | "minimal" => "minimal"
  | "low" => "low"
  | "medium" => "medium"
  | "high" => "high"
  | "xhigh" => "xhigh"
  | "max" => "max"
  | "ultra" => "ultra"
  | "none" => "low"
  | _ => ""

/-- An effort that the model does not allow becomes its default, if it has one. -/
def clampReasoningEffortForModel (effort backendModel : String) : String :=
  let effort := Text.trim effort
  let backendModel := Text.trim backendModel
  if effort = "" then (modelDefaultEffort backendModel).getD ""
  else match modelAllowedEfforts backendModel with
    | none => effort
    | some allowed =>
      if effort ∈ allowed then effort else (modelDefaultEffort backendModel).getD effort

/-- The efforts that a string can be normalized to. -/
def EFFORTS : List String := ["minimal", "low", "medium", "high", "xhigh", "max", "ultra"]

theorem exactModel_known {id : String} (found : exactModel id = some known) :
    known = id ∧ known ∈ KNOWN_MODELS :=
  ⟨by simpa using List.find?_some found, List.mem_of_find?_eq_some found⟩

theorem ite_known {c : Prop} [Decidable c] (yes : a ∈ KNOWN_MODELS) (no : b ∈ KNOWN_MODELS) :
    (if c then a else b) ∈ KNOWN_MODELS := by
  split
  · exact yes
  · exact no

theorem modelFamily_known (lower : String) : modelFamily lower ∈ KNOWN_MODELS := by
  rw [modelFamily]
  iterate 16 refine ite_known (by decide) ?_
  decide

/-- Every string names a known model. -/
theorem normalizeModel_known (model : String) : normalizeModel model ∈ KNOWN_MODELS := by
  unfold normalizeModel
  dsimp only
  split
  · rename_i known found
    exact (exactModel_known found).2
  · split
    · simp [KNOWN_MODELS]
    · split
      · rename_i known found
        exact (exactModel_known found).2
      · exact modelFamily_known _

/-- Every string names an effort or none. -/
theorem normalizeReasoningEffort_known (effort : String) :
    normalizeReasoningEffort effort = "" ∨ normalizeReasoningEffort effort ∈ EFFORTS := by
  unfold normalizeReasoningEffort
  split <;> simp [EFFORTS]

/-- The table of allowed efforts is total on the known models. -/
theorem modelAllowedEfforts_known {model : String} (known : model ∈ KNOWN_MODELS) :
    ∃ allowed, modelAllowedEfforts model = some allowed := by
  have total : ∀ m ∈ KNOWN_MODELS, (modelAllowedEfforts m).isSome := by decide
  exact Option.isSome_iff_exists.mp (total model known)

/-- The models without a default. -/
theorem modelDefaultEffort_none {model : String} (known : model ∈ KNOWN_MODELS) :
    modelDefaultEffort model = none ↔ model = GPT5 ∨ model = GPT5_CODEX := by
  have table : ∀ m ∈ KNOWN_MODELS,
      modelDefaultEffort m = none ↔ m = GPT5 ∨ m = GPT5_CODEX := by decide
  exact table model known

/-- Every default passes its own check. -/
theorem modelDefaultEffort_allowed {model : String} (known : model ∈ KNOWN_MODELS)
    (default : modelDefaultEffort model = some effort) :
    effort ∈ (modelAllowedEfforts model).getD [] := by
  have table : ∀ m ∈ KNOWN_MODELS, ∀ e ∈ modelDefaultEffort m,
      e ∈ (modelAllowedEfforts m).getD [] := by decide
  exact table model known effort default

theorem trim_known {model : String} (known : model ∈ KNOWN_MODELS) : Text.trim model = model := by
  have table : ∀ m ∈ KNOWN_MODELS, Text.trim m = m := by decide
  exact table model known

theorem trim_effort {effort : String} (known : effort = "" ∨ effort ∈ EFFORTS) :
    Text.trim effort = effort := by
  have table : ∀ e ∈ "" :: EFFORTS, Text.trim e = e := by decide
  exact table effort (List.mem_cons.mpr known)

end CodexProxy.Request
