import Mathlib.Data.Rat.Defs

/-!
# Completion configuration

`CompletionConfig` (`domain/model/completion.py`): which model to call and how.
The bounds pydantic checks when a configuration is built are fields of the
structure, so a configuration that violates one does not exist.
-/

/-- `output_config`: a pydantic class.  The domain never looks inside it; the
store writes its JSON schema, so here the class is its schema text. -/
structure OutputModel where
  /-- `json.dumps(model_json_schema(), indent=2)`. -/
  schemaStr : String
deriving DecidableEq, Repr

/-- `CompletionConfig`. -/
structure CompletionConfig where
  provider : String
  model : String
  maxTokens : ℕ
  systemPrompt : Option String := none
  systemPromptPath : Option String := none
  temperature : Option ℚ := none
  topK : Option ℕ := none
  topP : Option ℚ := none
  stopSequences : Option (List String) := none
  outputConfig : Option OutputModel := none
  outputConfigPath : Option String := none
  provider_ne : provider ≠ "" := by decide
  model_ne : model ≠ "" := by decide
  maxTokens_pos : 1 ≤ maxTokens := by decide
  temperature_mem : ∀ t ∈ temperature, 0 ≤ t ∧ t ≤ 1 := by simp
  topP_mem : ∀ p ∈ topP, 0 ≤ p ∧ p ≤ 1 := by simp
deriving DecidableEq

namespace CompletionConfig

/-- `__copy__`: the same configuration, forgetting where its texts were loaded
from. -/
def copy (c : CompletionConfig) : CompletionConfig :=
  { c with systemPromptPath := none, outputConfigPath := none }

/-- A configuration to evaluate runs with. -/
def sample : CompletionConfig := { provider := "p", model := "m", maxTokens := 1 }

@[simp] theorem copy_provider (c : CompletionConfig) : c.copy.provider = c.provider := rfl

@[simp] theorem copy_model (c : CompletionConfig) : c.copy.model = c.model := rfl

@[simp] theorem copy_systemPrompt (c : CompletionConfig) :
    c.copy.systemPrompt = c.systemPrompt := rfl

end CompletionConfig
