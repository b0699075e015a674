import ChatServer.Domain.Completion
import ChatServer.Lib.PathText
import ChatServer.Python.Basic

/-!
# Storing a completion configuration

`serialize_completion_config` and `resolve_completion_config` of
`common/config_loader.py`.  The system prompt and the output schema of a
configuration go to files of their own next to the session; what is left is
stored with the names of these files in place of their texts.

Serialising makes a list of calls, so that it can be interrupted between any two
of them; after the first of them it dumps the configuration, which fails if the
output model cannot be dumped.  What a hash or a JSON schema is made of does not
matter here: they come from the class `ConfigCodec`.
-/

open FileTree

/-- The exception Python raises for an error of the operating system. -/
def PyExc.ofErrno (message : String) : Errno → PyExc
  | .notFound => .fileNotFoundError message
  | .alreadyExists => .fileExistsError message
  | .denied => .permissionError message
  | .notADirectory => .osError message
  | .isADirectory => .osError message
  | .other => .osError message

/-- What the libraries do with the parts of a configuration. -/
class ConfigCodec where
  /-- The first eight hexadecimal digits of `hashlib.md5(text)`, as a number. -/
  digest : String → ℕ
  /-- `create_model_from_schema(json.loads(text), "OutputModel")`. -/
  loadSchema : String → Except PyExc OutputModel
  /-- `model_dump(mode="json")` of a model class. -/
  dumpModel : OutputModel → Except PyExc Unit

/-- What reading a file as text makes of its line ends. -/
def universalNewlines : List Char → List Char
  | [] => []
  | '\r' :: '\n' :: cs => '\n' :: universalNewlines cs
  | '\r' :: cs => '\n' :: universalNewlines cs
  | c :: cs => c :: universalNewlines cs

/-- `_load_resource`. -/
def loadResource (t : FileTree) (path : List String) (resourceName : String) :
    Except PyExc String :=
  match t.read path with
  | .ok content => .ok (String.ofList (universalNewlines content.toList))
  | .error .notFound =>
      .error (.systemExit s!"File with {resourceName} not found: '{pathText path}'")
  | .error .denied =>
      .error (.systemExit s!"Permission denied when reading {resourceName}: '{pathText path}'")
  | .error e => .error (.ofErrno (pathText path) e)

/-- `raw.get(key)` of a path, when it is not empty. -/
def truthyText : Option String → Option String
  | some s => if s ≠ "" then some s else none
  | none => none

section

variable [ConfigCodec]

/-- The first half of `resolve_completion_config`. -/
def resolveSystemPrompt (t : FileTree) (raw : CompletionConfig) (baseDir : List String) :
    Except PyExc CompletionConfig :=
  match truthyText raw.systemPromptPath with
  | some path => do
      let text ← loadResource t (join baseDir path) "system_prompt"
      return { raw with systemPrompt := some text }
  | none => .ok raw

/-- The second half of `resolve_completion_config`. -/
def resolveOutputConfig (t : FileTree) (raw : CompletionConfig) (baseDir : List String) :
    Except PyExc CompletionConfig :=
  match truthyText raw.outputConfigPath with
  | some path => do
      let schemaText ← loadResource t (join baseDir path) "output_config"
      let outputConfig ← ConfigCodec.loadSchema schemaText
      return { raw with outputConfig := some outputConfig }
  | none => .ok raw

/-- `resolve_completion_config`. -/
def resolveCompletionConfig (t : FileTree) (raw : CompletionConfig) (baseDir : List String) :
    Except PyExc CompletionConfig := do
  let raw ← resolveSystemPrompt t raw baseDir
  resolveOutputConfig t raw baseDir

/-- The file a system prompt is written to. -/
def systemPromptFile (c : CompletionConfig) (prompt : String) : String :=
  (truthyText c.systemPromptPath).getD
    ("system_prompt_" ++ String.ofList (Py.hexDigits 8 (ConfigCodec.digest prompt)) ++ ".txt")

/-- The file an output schema is written to. -/
def outputConfigFile (c : CompletionConfig) (schemaStr : String) : String :=
  (truthyText c.outputConfigPath).getD
    ("output_config_" ++ String.ofList (Py.hexDigits 8 (ConfigCodec.digest schemaStr)) ++ ".json")

/-- `config.model_dump(mode="json")`: the only part of it that can fail is the output
model. -/
def dumpConfig (c : CompletionConfig) : Except PyExc Unit :=
  match c.outputConfig with
  | some model => ConfigCodec.dumpModel model
  | none => .ok ()

/-- The files `serialize_completion_config` writes. -/
def resourceWrites (c : CompletionConfig) (saveDir : List String) : List Action :=
  (match truthyText c.systemPrompt with
    | some prompt => [.write (join saveDir (systemPromptFile c prompt)) prompt]
    | none => []) ++
  (match c.outputConfig with
    | some model => [.write (join saveDir (outputConfigFile c model.schemaStr)) model.schemaStr]
    | none => [])

/-- The calls of `serialize_completion_config` on the file system, when the configuration
can be dumped. -/
def serializeActions (c : CompletionConfig) (saveDir : List String) : List Action :=
  .ensureDir saveDir :: resourceWrites c saveDir

/-- The dictionary `serialize_completion_config` returns, as the configuration it
reads as. -/
def serializedConfig (c : CompletionConfig) : CompletionConfig :=
  let c' := match truthyText c.systemPrompt with
    | some prompt =>
        { c with systemPrompt := none, systemPromptPath := some (systemPromptFile c prompt) }
    | none => c
  match c.outputConfig with
  | some model =>
      { c' with outputConfig := none,
                outputConfigPath := some (outputConfigFile c model.schemaStr) }
  | none => c'

/-- `serialize_completion_config`. -/
def serializeCompletionConfig (t : FileTree) (c : CompletionConfig) (saveDir : List String)
    (faults : List (Option Fault)) : FileTree × Except PyExc CompletionConfig :=
  match t.exec [.ensureDir saveDir] faults with
  | (t, some e) => (t, .error (.ofErrno (pathText saveDir) e))
  | (t, none) =>
      match dumpConfig c with
      | .error e => (t, .error e)
      | .ok () =>
          match t.exec (resourceWrites c saveDir) faults.tail with
          | (t, some e) => (t, .error (.ofErrno (pathText saveDir) e))
          | (t, none) => (t, .ok (serializedConfig c))

/-- A dump only fails on the output model. -/
theorem exists_of_dumpConfig {c : CompletionConfig} {e : PyExc} (h : dumpConfig c = .error e) :
    ∃ model, ConfigCodec.dumpModel model = .error e := by
  unfold dumpConfig at h
  split at h
  · exact ⟨_, h⟩
  · cases h

/-- What is written is the prompt or the schema. -/
theorem mem_resourceWrites {c : CompletionConfig} {dir : List String} {action : Action}
    (h : action ∈ resourceWrites c dir) :
    (∃ prompt, truthyText c.systemPrompt = some prompt ∧
        action = .write (join dir (systemPromptFile c prompt)) prompt) ∨
      ∃ model, c.outputConfig = some model ∧
        action = .write (join dir (outputConfigFile c model.schemaStr)) model.schemaStr := by
  rcases List.mem_append.mp h with h | h
  · cases hprompt : truthyText c.systemPrompt with
    | none =>
        rw [hprompt] at h
        exact absurd h List.not_mem_nil
    | some prompt =>
        rw [hprompt] at h
        exact .inl ⟨prompt, rfl, List.mem_singleton.mp h⟩
  · cases hmodel : c.outputConfig with
    | none =>
        rw [hmodel] at h
        exact absurd h List.not_mem_nil
    | some model =>
        rw [hmodel] at h
        exact .inr ⟨model, rfl, List.mem_singleton.mp h⟩

/-- A configuration is serialised exactly if it can be dumped and every call goes
through. -/
theorem serializeCompletionConfig_eq_ok_iff {t t' : FileTree} {c c' : CompletionConfig}
    {dir : List String} {faults : List (Option Fault)} :
    serializeCompletionConfig t c dir faults = (t', .ok c') ↔
      dumpConfig c = .ok () ∧ t.exec (serializeActions c dir) faults = (t', none) ∧
        c' = serializedConfig c := by
  rw [serializeCompletionConfig, serializeActions, exec, exec]
  rcases (Action.ensureDir dir).runWith t faults.head?.join with ⟨t₁, _ | e⟩
  · simp only [exec]
    cases hdump : dumpConfig c with
    | error e =>
        constructor
        · intro h
          cases h
        · rintro ⟨h, -⟩
          cases h
    | ok _ =>
        rcases t₁.exec (resourceWrites c dir) faults.tail with ⟨t₂, _ | e⟩
        · simp [eq_comm]
        · simp
  · simp

end
