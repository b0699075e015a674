import ChatServer.Service.RawSession
import ChatServer.Web.Registry

/-!
# Starting the server

`app_factory.create_app` with what it reads: `get_server_config` and
`load_message_context_strategies` of `common/config_loader.py`, and the pricing file of
`ModelBillingFactoryAdapter`.  The files may hold anything; of two entries for one model, or
for one strategy, the later one counts, and an entry that is not accepted keeps the server from
starting.

Nothing is built at the start: whether a session can be made of the defaults is found out by
the first request.  It is a matter of the files alone (`App.Configured`): a server whose files
are wrong in that respect starts, and never makes a session
(`Server.never_created_of_start`).

What pydantic and `pathlib` do is up to the class `StartupCodec`.  `log_level`, `host` and
`port` of the configuration are left out: `main` hands them to `logging` and `uvicorn`.
-/

open FileTree

/-! ## Reading the files -/

/-- `ServerConfig`. -/
structure ServerConfig where
  defaultCompletionConfig : CompletionConfig
  modelsBillingPath : String
  sessionStoragePath : String
  messageContextStrategiesPath : String
  defaultMessageContextStrategy : String
  modelsBillingPath_ne : modelsBillingPath ≠ ""
  sessionStoragePath_ne : sessionStoragePath ≠ ""
  messageContextStrategiesPath_ne : messageContextStrategiesPath ≠ ""
  defaultMessageContextStrategy_ne : defaultMessageContextStrategy ≠ ""

/-- What pydantic and `pathlib` do at the start. -/
class StartupCodec extends SchemaCodec where
  validateCost : Json → Except String ModelCostDTO
  validateConfig : RawConfig → Except String CompletionConfig
  /-- The second argument is the configuration that was resolved. -/
  validateServerConfig : Json → Option RawConfig → Except String ServerConfig
  /-- The text of the `ValidationError` for a strategy type that is none. -/
  typeMessage : Json → String
  /-- `Path.exists`. -/
  pathExists : List String → Bool
  /-- `str(Path(p))`. -/
  pathStr : String → String
  /-- `Path.resolve`. -/
  resolve : List String → List String
  /-- `Path.mkdir` of the storage path, and the adapter on the directory. -/
  openStore : String → Except PyExc SessionFileAdapter

namespace Disk

/-- `json.load` of a file that is opened, with the exceptions that are raised in place of
`FileNotFoundError`, `PermissionError` and `JSONDecodeError`. -/
def openJson [SchemaCodec] (disk : Disk) (path : List String) (absent denied invalid : PyExc) :
    Except PyExc Json :=
  match disk path with
  | .absent => .error absent
  | .denied => .error denied
  | .failed message => .error (.osError message)
  | .undecodable message => .error (.valueError message)
  | .text content =>
      match SchemaCodec.loads content with
      | .ok v => .ok v
      | .error (.decodeError _) => .error invalid
      | .error (.other e) => .error e

variable [StartupCodec] (disk : Disk) (cwd : List String)

/-- A file that has to exist before it is opened, with the exception for one that does not. -/
def openExisting (filePath : String) (absent denied invalid : PyExc) : Except PyExc Json :=
  let path := join cwd filePath
  if StartupCodec.pathExists path then
    -- it may be gone by now
    disk.openJson path (.fileNotFoundError
      s!"[Errno 2] No such file or directory: '{StartupCodec.pathStr filePath}'") denied invalid
  else .error absent

/-- `get_server_config`. -/
def getServerConfig (filePath : String) : Except PyExc ServerConfig := do
  let path := StartupCodec.pathStr filePath
  let data ← disk.openExisting cwd filePath
    (.fileNotFoundError s!"Server config file not found: {filePath}")
    (.permissionError s!"Permission denied when reading server config file: {path}")
    (.valueError s!"Invalid JSON in server config file: {path}")
  let baseDir := (join cwd filePath).dropLast
  let found ← data.contains "default_completion_config"
  let resolved ← if found then do
      let raw ← data.getItem "default_completion_config"
      (disk.resolveCompletionConfig raw baseDir).map some
    else .ok none
  validated (StartupCodec.validateServerConfig data resolved)

/-- The entry at an index of the pricing file. -/
def readCost (item : Json × ℕ) : Except PyExc ModelCostDTO :=
  match StartupCodec.validateCost item.1 with
  | .ok dto => .ok dto
  | .error message => .error (.valueError s!"Invalid pricing entry at index {item.2}: {message}")

/-- The first half of `ModelBillingFactoryAdapter.__init__`. -/
def openPricing (filePath : String) : Except PyExc Json :=
  disk.openExisting cwd filePath
    (.fileNotFoundError s!"Model billing file not found: {filePath}")
    (.permissionError s!"Permission denied when reading pricing file: {filePath}")
    (.valueError s!"Invalid JSON in pricing file: {filePath}")

/-- `ModelBillingFactoryAdapter.__init__`. -/
def loadPricing (filePath : String) : Except PyExc ModelBillingFactoryAdapter := do
  let data ← disk.openPricing cwd filePath
  let modelsCost ← data.getItem "models_cost"
  match modelsCost with
  | .arr items => do
      let pricing ← OrderedDict.collect readCost (fun dto ↦ (dto.provider, dto.model))
        items.zipIdx ∅
      return ⟨pricing⟩
  | _ => .error (.valueError
      "Model billing file must contain JSON attribute models_cost as an array")

/-- `dict(entry)`.  Keys that are no texts are left out: nobody asks for them. -/
def entryDict (entry : Json) : Except PyExc (OrderedDict String Json) := do
  let pairs ← entry.toDict
  return pairs.foldl (fun d e ↦ match e.1 with
    | .str key => d.set key e.2
    | _ => d) ∅

/-- `entry.pop(key)`. -/
def popItem (entry : OrderedDict String Json) (key : String) :
    Except PyExc (Json × OrderedDict String Json) :=
  match entry.get? key with
  | some v => .ok (v, entry.filterKeys (· ≠ key))
  | none => .error (.keyError key)

/-- The metadata of an entry from which type and configuration have been taken. -/
def strategyMetadata (baseDir : List String) (entry : OrderedDict String Json) :
    Except PyExc (OrderedDict String Json) := do
  let promptPath := (entry.get? "prompt_path").getD .null
  let entry := entry.filterKeys (· ≠ "prompt_path")
  let metadata ← match promptPath with
    | .null => .ok ∅
    | v => do
        let path ← osPathJoin baseDir v
        let text ← disk.loadResource path "summarization_prompt"
        .ok ((∅ : OrderedDict String Json).set "summarization_prompt" (.str text))
  let metadata := match entry.get? "window_size" with
    | some v => metadata.set "window_size" v
    | none => metadata
  let entry := entry.filterKeys (· ≠ "window_size")
  return entry.entries.foldl (fun d e ↦ d.set e.1 e.2) metadata

/-- `MessageContextStrategyDefaults(...)`. -/
def initDefaults (strategyType : Json) (completionConfig : CompletionConfig)
    (metadata : OrderedDict String Json) : Except PyExc MessageContextStrategyDefaults :=
  match strategyType with
  | .str type =>
      if h : type ≠ "" then .ok { type, completionConfig, metadata, type_ne := h }
      else .error (.valueError (StartupCodec.typeMessage strategyType))
  | v => .error (.valueError (StartupCodec.typeMessage v))

/-- One turn of the loop of `load_message_context_strategies`. -/
def readStrategy (baseDir : List String) (entry : Json) :
    Except PyExc MessageContextStrategyDefaults := do
  let entry ← entryDict entry
  let (strategyType, entry) ← popItem entry "type"
  let (rawCompletionConfig, entry) ← popItem entry "completion_config"
  let metadata ← disk.strategyMetadata baseDir entry
  let resolvedConfig ← disk.resolveCompletionConfig rawCompletionConfig baseDir
  let completionConfig ← validated (StartupCodec.validateConfig resolvedConfig)
  initDefaults strategyType completionConfig metadata

/-- The entries of the strategies file. -/
def strategyEntries (filePath : String) : Except PyExc (List Json) := do
  let data ← disk.openJson (join cwd filePath)
    (.systemExit s!"Message context strategies file not found: '{filePath}'")
    (.systemExit
      s!"Permission denied when reading message context strategies file: '{filePath}'")
    (.valueError s!"Invalid JSON in message context strategies file: {filePath}")
  let entries ← data.get "message_context_strategies"
  let entries := entries.getD (.arr [])
  match entries.elements? with
  | some items => .ok items
  | none => .error (.typeError s!"'{entries.typeName}' object is not iterable")

/-- `load_message_context_strategies`. -/
def loadMessageContextStrategies (filePath : String) (baseDir : List String) :
    Except PyExc (OrderedDict String MessageContextStrategyDefaults) := do
  let entries ← disk.strategyEntries cwd filePath
  OrderedDict.collect (disk.readStrategy baseDir) (·.type) entries ∅

/-- The directory the paths in the strategies file are relative to. -/
def configsDir (filePath : String) : List String :=
  StartupCodec.resolve (join cwd filePath).dropLast

/-- `create_app`, up to the routes. -/
def createApp (config : ServerConfig) : Except PyExc App := do
  let repository ← StartupCodec.openStore config.sessionStoragePath
  let modelBillingFactory ← disk.loadPricing cwd config.modelsBillingPath
  let strategyDefaults ← disk.loadMessageContextStrategies cwd config.messageContextStrategiesPath
    (configsDir cwd config.messageContextStrategiesPath)
  return { repository, modelBillingFactory,
           defaultCompletionConfig := config.defaultCompletionConfig, strategyDefaults,
           defaultStrategyType := config.defaultMessageContextStrategy }

/-- `main`, up to `uvicorn.run`. -/
def main (filePath : String) : Except PyExc App := do
  let config ← disk.getServerConfig cwd filePath
  disk.createApp cwd config

end Disk

/-! ## A start to evaluate -/

namespace Startup

/-- A field that has to hold a text that is not empty. -/
def textField (v : Option Json) (key : String) : Except String { text : String // text ≠ "" } :=
  match v with
  | some (.str text) =>
      if h : text ≠ "" then .ok ⟨text, h⟩
      else .error s!"{key}: String should have at least 1 character"
  | some _ => .error s!"{key}: Input should be a valid string"
  | none => .error s!"{key}: Field required"

/-- A field that has to hold a number that is not negative. -/
def numberField (v : Option Json) (key : String) : Except String ℕ :=
  match v with
  | some (.int n) =>
      if 0 ≤ n then .ok n.toNat
      else .error s!"{key}: Input should be greater than or equal to 0"
  | some _ => .error s!"{key}: Input should be a valid integer"
  | none => .error s!"{key}: Field required"

/-- A field that has to hold a positive number. -/
def positiveField (v : Option Json) (key : String) : Except String { n : ℕ // 1 ≤ n } := do
  let n ← numberField v key
  if h : 1 ≤ n then .ok ⟨n, h⟩
  else .error s!"{key}: Input should be greater than or equal to 1"

/-- A price, in whole numbers. -/
def validateCost : Json → Except String ModelCostDTO
  | .obj entries => do
      let provider ← textField (entries.lookup "provider") "provider"
      let model ← textField (entries.lookup "model") "model"
      let tokens ← positiveField (entries.lookup "tokens_per_price") "tokens_per_price"
      let input ← numberField (entries.lookup "base_input_tokens") "base_input_tokens"
      let output ← numberField (entries.lookup "output_tokens") "output_tokens"
      return ⟨provider, model, tokens, input, output, provider.2, model.2, tokens.2⟩
  | _ => .error "Input should be a valid dictionary or instance of ModelCostDTO"

/-- A configuration without optional fields. -/
def validateConfig (raw : RawConfig) : Except String CompletionConfig := do
  let provider ← textField (Json.getLast raw.entries "provider") "provider"
  let model ← textField (Json.getLast raw.entries "model") "model"
  let tokens ← positiveField (Json.getLast raw.entries "max_tokens") "max_tokens"
  return { CompletionConfig.sample with
           provider, model, maxTokens := tokens, systemPrompt := raw.systemPrompt,
           outputConfig := raw.outputConfig, provider_ne := provider.2, model_ne := model.2,
           maxTokens_pos := tokens.2 }

/-- The configuration of a server. -/
def validateServerConfig : Json → Option RawConfig → Except String ServerConfig
  | .obj entries, some raw => do
      let config ← validateConfig raw
      let billing ← textField (entries.lookup "models_billing_path") "models_billing_path"
      let storage ← textField (entries.lookup "session_storage_path") "session_storage_path"
      let strategies ← textField (entries.lookup "message_context_strategies_path")
        "message_context_strategies_path"
      let strategy ← textField (entries.lookup "default_message_context_strategy")
        "default_message_context_strategy"
      return ⟨config, billing, storage, strategies, strategy, billing.2, storage.2, strategies.2,
        strategy.2⟩
  | _, _ => .error "default_completion_config: Field required"

/-- A model configuration. -/
def configJson : Json :=
  .obj [("provider", .str "p"), ("model", .str "m"), ("max_tokens", .int 1)]

/-- The price of a number of tokens. -/
def costJson (tokens : ℤ) : Json :=
  .obj [("provider", .str "p"), ("model", .str "m"), ("tokens_per_price", .int tokens),
    ("base_input_tokens", .int 1), ("output_tokens", .int 2)]

/-- The three files: their names, texts and values. -/
def files : List (String × String × Json) :=
  [("server.json", "\x7b\"host\": \"h\", \"port\": 1, \"default_completion_config\": " ++
      "\x7b\"provider\": \"p\", \"model\": \"m\", \"max_tokens\": 1\x7d, " ++
      "\"models_billing_path\": \"prices.json\", \"session_storage_path\": \"sessions\", " ++
      "\"message_context_strategies_path\": \"strategies.json\", " ++
      "\"default_message_context_strategy\": \"dummy\"\x7d",
    .obj [("host", .str "h"), ("port", .int 1), ("default_completion_config", configJson),
      ("models_billing_path", .str "prices.json"), ("session_storage_path", .str "sessions"),
      ("message_context_strategies_path", .str "strategies.json"),
      ("default_message_context_strategy", .str "dummy")]),
   ("prices.json", "\x7b\"models_cost\": [\x7b\"provider\": \"p\", \"model\": \"m\", " ++
      "\"tokens_per_price\": 2, \"base_input_tokens\": 1, \"output_tokens\": 2\x7d, " ++
      "\x7b\"provider\": \"p\", \"model\": \"m\", " ++
      "\"tokens_per_price\": 3, \"base_input_tokens\": 1, \"output_tokens\": 2\x7d]\x7d",
    .obj [("models_cost", .arr [costJson 2, costJson 3])]),
   ("strategies.json", "\x7b\"message_context_strategies\": [\x7b\"type\": \"dummy\", " ++
      "\"completion_config\": \x7b\"provider\": \"p\", \"model\": \"m\", " ++
      "\"max_tokens\": 1\x7d\x7d]\x7d",
    .obj [("message_context_strategies", .arr
      [.obj [("type", .str "dummy"), ("completion_config", configJson)]])])]

/-- The directory with the three files. -/
def disk : Disk
  | [name] => match files.lookup name with
    | some (text, _) => .text text
    | none => .absent
  | _ => .absent

/-- The libraries on the three files. -/
@[reducible] def codec : StartupCodec where
  loads text := match files.find? (·.2.1 = text) with
    | some (_, _, v) => .ok v
    | none => .error (.decodeError "Expecting value: line 1 column 1 (char 0)")
  createModel _ _ := .ok ⟨"\x7b\x7d"⟩
  recursionLimit := 1000
  validateCost := validateCost
  validateConfig := validateConfig
  validateServerConfig := validateServerConfig
  typeMessage _ := "type: Input should be a valid string"
  pathExists path := (files.map fun file ↦ [file.1]).contains path
  pathStr path := path
  resolve path := path
  openStore _ := .ok .sampleStore

end Startup

/-! ## The pricing file -/

namespace ModelBillingFactoryAdapter

/-- The price of the last entry for a provider and a model. -/
def lastPrice (dtos : List ModelCostDTO) (provider model : String) : Option ModelBilling :=
  (dtos.reverse.find? fun dto ↦ (dto.provider, dto.model) = (provider, model)).map fun dto ↦
    ⟨dto.tokensPerPrice, dto.baseInputTokens, dto.outputTokens, dto.tokensPerPrice_pos⟩

theorem create_init (dtos : List ModelCostDTO) (provider model : String) :
    (init dtos).create provider model = lastPrice dtos provider model := by
  rw [create, init, OrderedDict.get?_foldl_set (fun dto : ModelCostDTO ↦ (dto.provider, dto.model)),
    OrderedDict.get?_empty, Option.or_none]
  rfl

end ModelBillingFactoryAdapter

/-- The index of an element is how many come before it. -/
theorem snd_of_zipIdx {α : Type} {as : List α} {before after : List (α × ℕ)} {p : α × ℕ}
    (h : as.zipIdx = before ++ p :: after) : p.2 = before.length := by
  have hget : as.zipIdx[before.length]? = some p := by
    rw [h, List.getElem?_append_right le_rfl, Nat.sub_self, List.getElem?_cons_zero]
  rw [List.getElem?_zipIdx] at hget
  obtain ⟨v, -, rfl⟩ := Option.map_eq_some_iff.mp hget
  exact Nat.zero_add _

section

variable [StartupCodec] {disk : Disk} {cwd : List String} {filePath : String}

theorem readCost_eq_ok {item : Json × ℕ} {dto : ModelCostDTO} :
    Disk.readCost item = .ok dto ↔ StartupCodec.validateCost item.1 = .ok dto := by
  rw [Disk.readCost]
  cases StartupCodec.validateCost item.1 with
  | ok dto' => simp
  | error message => simp

/-- **The pricing file.**  One that holds a list is read to its end, and then every model has
the price of its last entry and no other model has one; or the first entry that is not accepted
is named. -/
theorem loadPricing_of_items {data : Json} {items : List Json}
    (hdata : disk.openPricing cwd filePath = .ok data)
    (hitems : data.getItem "models_cost" = .ok (.arr items)) :
    (∃ dtos, List.Forall₂ (fun item dto ↦ StartupCodec.validateCost item = .ok dto) items dtos ∧
        disk.loadPricing cwd filePath = .ok (.init dtos) ∧
        ∀ provider model, (ModelBillingFactoryAdapter.init dtos).create provider model =
          ModelBillingFactoryAdapter.lastPrice dtos provider model) ∨
      ∃ before item after message, items = before ++ item :: after ∧
        (∀ b ∈ before, ∃ dto, StartupCodec.validateCost b = .ok dto) ∧
        StartupCodec.validateCost item = .error message ∧
        disk.loadPricing cwd filePath =
          .error (.valueError s!"Invalid pricing entry at index {before.length}: {message}") := by
  have hload : disk.loadPricing cwd filePath =
      (OrderedDict.collect Disk.readCost (fun dto ↦ (dto.provider, dto.model)) items.zipIdx ∅).map
        ModelBillingFactoryAdapter.mk := by
    rw [Disk.loadPricing, hdata]
    simp only [bind, Except.bind, hitems]
    rfl
  rw [hload]
  cases hcollect : OrderedDict.collect Disk.readCost (fun dto ↦ (dto.provider, dto.model))
    items.zipIdx ∅ with
  | ok pricing =>
      obtain ⟨dtos, hdtos, rfl⟩ := OrderedDict.exists_of_collect_eq_ok hcollect
      refine Or.inl ⟨dtos, ?_, rfl, ModelBillingFactoryAdapter.create_init dtos⟩
      have hfst := hdtos.imp fun item dto h ↦ readCost_eq_ok.mp h
      rw [← List.zipIdx_map_fst 0 items]
      exact List.forall₂_map_left_iff.mpr hfst
  | error e =>
      obtain ⟨before, item, after, hsplit, hbefore, he⟩ :=
        OrderedDict.exists_of_collect_eq_error hcollect
      have hitems' : items = before.map Prod.fst ++ item.1 :: after.map Prod.fst := by
        rw [← List.zipIdx_map_fst 0 items, hsplit, List.map_append, List.map_cons]
      cases hvalidate : StartupCodec.validateCost item.1 with
      | ok dto =>
          rw [readCost_eq_ok.mpr hvalidate] at he
          cases he
      | error message =>
          refine Or.inr ⟨before.map Prod.fst, item.1, after.map Prod.fst, message, hitems', ?_,
            hvalidate, ?_⟩
          · intro b hb
            obtain ⟨p, hp, rfl⟩ := List.mem_map.mp hb
            obtain ⟨dto, hdto⟩ := hbefore p hp
            exact ⟨dto, readCost_eq_ok.mp hdto⟩
          · rw [Disk.readCost, hvalidate, snd_of_zipIdx hsplit] at he
            rw [List.length_map, ← Except.error.inj he]
            rfl

end

set_option maxRecDepth 10000 in
/-- Of two entries for one model the second counts. -/
theorem loadPricing_prices : ∃ f,
    @Disk.loadPricing Startup.codec Startup.disk [] "prices.json" = .ok f ∧
      f.create "p" "m" = some ⟨3, 1, 2, by decide⟩ := by
  obtain ⟨dtos, hdtos, hload, hcreate⟩ | ⟨before, item, after, message, -, -, -, hload⟩ :=
    @loadPricing_of_items Startup.codec Startup.disk [] "prices.json"
      (.obj [("models_cost", .arr [Startup.costJson 2, Startup.costJson 3])])
      [Startup.costJson 2, Startup.costJson 3] rfl rfl
  · refine ⟨.init dtos, hload, (hcreate "p" "m").trans ?_⟩
    cases hdtos with
    | cons hfirst hrest =>
        cases hrest with
        | cons hsecond hnil =>
            cases hnil
            cases hfirst
            cases hsecond
            rfl
  · have hok : (@Disk.loadPricing Startup.codec Startup.disk [] "prices.json").isOk = true := by
      rfl
    rw [hload] at hok
    cases hok

/-! ## Whether a session can be made -/

namespace RawStrategy

open MessageContextStrategyFactory (parseAnchor)

/-- Metadata a strategy of a type can be built with. -/
inductive Fits (metadata : OrderedDict String Json) (strategyType : String) : Prop where
  | dummy (htype : strategyType = "dummy")
  | summary (htype : strategyType = "summary") (windowSize : ℤ) (anchor : Option UUID)
      (hwindow : ((metadata.get? "window_size").getD (.int 4)).toInt = .ok windowSize)
      (hanchor : parseAnchor metadata = .ok anchor) (hpos : 1 ≤ windowSize)
      (hprompt : isBlank ((metadata.get? "summarization_prompt").getD (.str "")) = false)
  | slidingWindow (htype : strategyType = "sliding_window") (windowSize : ℤ)
      (hwindow : ((metadata.get? "window_size").getD (.int 8)).toInt = .ok windowSize)
      (hpos : 1 ≤ windowSize)

theorem initSummary_isOk_iff {windowSize : ℤ} {prompt text : Json} {anchor : Option UUID} :
    (∃ s, initSummary windowSize prompt text anchor = .ok s) ↔
      1 ≤ windowSize ∧ isBlank prompt = false := by
  rw [initSummary]
  split
  · refine iff_of_false ?_ (by omega)
    rintro ⟨s, hs⟩
    cases hs
  · split
    · rename_i hblank
      refine iff_of_false ?_ ?_
      · rintro ⟨s, hs⟩
        cases hs
      · rintro ⟨-, hprompt⟩
        cases hblank.symm.trans hprompt
    · rename_i hblank
      exact iff_of_true ⟨_, rfl⟩ ⟨by omega, eq_false_of_ne_true hblank⟩

theorem initSlidingWindow_isOk_iff {windowSize : ℤ} :
    (∃ s, initSlidingWindow windowSize = .ok s) ↔ 1 ≤ windowSize := by
  rw [initSlidingWindow]
  split
  · refine iff_of_false ?_ (by omega)
    rintro ⟨s, hs⟩
    cases hs
  · exact iff_of_true ⟨_, rfl⟩ (by omega)

/-- Whether a strategy can be built is a matter of its type and metadata. -/
theorem build_isOk_iff {metadata : OrderedDict String Json} {strategyType : String} :
    (∃ s, build strategyType metadata = .ok s) ↔ Fits metadata strategyType := by
  rw [build]
  split
  · rename_i htype
    exact iff_of_true ⟨_, rfl⟩ (.dummy htype)
  · rename_i hdummy
    split
    · rename_i htype
      constructor
      · rintro ⟨s, hs⟩
        obtain ⟨windowSize, hwindow, hs⟩ := Py.bind_eq_ok.mp hs
        obtain ⟨anchor, hanchor, hs⟩ := Py.bind_eq_ok.mp hs
        obtain ⟨hpos, hprompt⟩ := initSummary_isOk_iff.mp ⟨s, hs⟩
        exact .summary htype windowSize anchor hwindow hanchor hpos hprompt
      · intro hfits
        cases hfits with
        | dummy htype => exact absurd htype hdummy
        | slidingWindow hsliding => exact absurd (htype.symm.trans hsliding) (by decide)
        | summary _ windowSize anchor hwindow hanchor hpos hprompt =>
            obtain ⟨s, hs⟩ := initSummary_isOk_iff.mpr ⟨hpos, hprompt⟩
            exact ⟨s, Py.bind_eq_ok.mpr ⟨windowSize, hwindow,
              Py.bind_eq_ok.mpr ⟨anchor, hanchor, hs⟩⟩⟩
    · rename_i hsummary
      split
      · rename_i htype
        constructor
        · rintro ⟨s, hs⟩
          obtain ⟨windowSize, hwindow, hs⟩ := Py.bind_eq_ok.mp hs
          exact .slidingWindow htype windowSize hwindow (initSlidingWindow_isOk_iff.mp ⟨s, hs⟩)
        · intro hfits
          cases hfits with
          | dummy htype => exact absurd htype hdummy
          | summary htype => exact absurd htype hsummary
          | slidingWindow _ windowSize hwindow hpos =>
              obtain ⟨s, hs⟩ := initSlidingWindow_isOk_iff.mpr hpos
              exact ⟨s, Py.bind_eq_ok.mpr ⟨windowSize, hwindow, hs⟩⟩
      · rename_i hsliding
        refine iff_of_false ?_ ?_
        · rintro ⟨s, hs⟩
          cases hs
        · intro hfits
          cases hfits with
          | dummy htype => exact hdummy htype
          | summary htype => exact hsummary htype
          | slidingWindow htype => exact hsliding htype

/-- A prompt that is no text is taken as it is. -/
example : ∃ s, build "summary" ((∅ : OrderedDict String Json).set "summarization_prompt"
    (.int 5)) = .ok s := ⟨_, rfl⟩

/-- The texts of the metadata are texts. -/
def Textual (metadata : OrderedDict String Json) : Prop :=
  (∃ text, MessageContextStrategyFactory.getText metadata "summary_text" = .ok text) ∧
    ∃ prompt, MessageContextStrategyFactory.getText metadata "summarization_prompt" = .ok prompt

/-- On texts the domain builds a strategy where the factory does. -/
theorem exists_of_textual {metadata : OrderedDict String Json} {strategyType : String}
    (htext : Textual metadata) {r : RawStrategy} (h : build strategyType metadata = .ok r)
    (records : List MessageRecord) (llm : LlmPort) (completionConfig : CompletionConfig) :
    ∃ s, MessageContextStrategyFactory.build strategyType metadata records llm completionConfig =
      .ok s := by
  obtain ⟨⟨text, htext⟩, prompt, hprompt⟩ := htext
  have hboth : Py.Both Is (build strategyType metadata) (MessageContextStrategyFactory.build
      strategyType metadata records llm completionConfig) := both_build htext hprompt
  rw [h] at hboth
  obtain ⟨s, hs, -⟩ := hboth.exists_eq_ok
  exact ⟨s, hs⟩

end RawStrategy

namespace App

open RawStrategy (Fits Textual)

/-- The default strategy is one of those that were loaded, and the factory builds it. -/
def Configured (app : App) : Prop :=
  ∃ defaults, app.strategyDefaults.get? app.defaultStrategyType = some defaults ∧
    ∃ r, RawStrategy.build app.defaultStrategyType defaults.metadata = .ok r

/-- The texts in the metadata of the default strategy are texts. -/
def TextualDefaults (app : App) : Prop :=
  ∀ defaults, app.strategyDefaults.get? app.defaultStrategyType = some defaults →
    Textual defaults.metadata

section

variable [LlmPortFactory] {app : App} {id : String} {now : Datetime} {ref : StatsRef}

/-- A session can be made of the default strategy, if the two adapters can. -/
theorem buildRaw_isOk_iff : (∃ raw, app.buildRaw id now = .ok raw) ↔
    ∃ defaults, app.strategyDefaults.get? app.defaultStrategyType = some defaults ∧
      (∃ llm, LlmPortFactory.create id app.defaultCompletionConfig.copy = .ok llm) ∧
      (∃ llm, LlmPortFactory.create id defaults.completionConfig.copy = .ok llm) ∧
      ∃ r, RawStrategy.build app.defaultStrategyType defaults.metadata = .ok r := by
  rw [buildRaw]
  cases app.strategyDefaults.get? app.defaultStrategyType with
  | none =>
      refine iff_of_false ?_ ?_
      · rintro ⟨raw, hraw⟩
        cases hraw
      · rintro ⟨defaults, hdefaults, -⟩
        cases hdefaults
  | some defaults =>
      simp only [Option.some.injEq, exists_eq_left']
      constructor
      · rintro ⟨raw, h⟩
        obtain ⟨llm, hllm, h⟩ := Py.bind_eq_ok.mp h
        obtain ⟨strategyLlm, hstrategyLlm, h⟩ := Py.bind_eq_ok.mp h
        obtain ⟨r, hr, -⟩ := Py.bind_eq_ok.mp h
        exact ⟨⟨llm, hllm⟩, ⟨strategyLlm, hstrategyLlm⟩, r, hr⟩
      · rintro ⟨⟨llm, hllm⟩, ⟨strategyLlm, hstrategyLlm⟩, r, hr⟩
        exact ⟨_, Py.bind_eq_ok.mpr ⟨llm, hllm, Py.bind_eq_ok.mpr ⟨strategyLlm, hstrategyLlm,
          Py.bind_eq_ok.mpr ⟨r, hr, rfl⟩⟩⟩⟩

theorem configured_of_buildSession {s : Session} (h : app.buildSession id now ref = .ok s) :
    app.Configured := by
  obtain ⟨raw, hraw, -⟩ := exists_of_buildSession h
  obtain ⟨defaults, hdefaults, -, -, hr⟩ := buildRaw_isOk_iff.mp ⟨raw, hraw⟩
  exact ⟨defaults, hdefaults, hr⟩

theorem buildSession_of_configured (htext : app.TextualDefaults) (h : app.Configured)
    (hllm : ∀ config, ∃ llm, LlmPortFactory.create id config = .ok llm) :
    ∃ s, app.buildSession id now ref = .ok s ∧ s.id = id ∧ s.createdAt = now := by
  obtain ⟨defaults, hdefaults, r, hr⟩ := h
  obtain ⟨llm, hcreate⟩ := hllm app.defaultCompletionConfig.copy
  obtain ⟨strategyLlm, hcreate'⟩ := hllm defaults.completionConfig.copy
  obtain ⟨strategy, hstrategy⟩ := RawStrategy.exists_of_textual (htext defaults hdefaults) hr []
    (.decorated (.port strategyLlm) ref (app.modelBillingFactory.create
      defaults.completionConfig.copy.provider defaults.completionConfig.copy.model))
    defaults.completionConfig.copy
  simp only [buildSession, hdefaults, bind, Except.bind, hcreate, hcreate', Session.create,
    hstrategy]
  exact ⟨_, rfl, rfl, rfl⟩

end

/-- What is left of the strategies file: of the entries for a type the last. -/
def lastDefaults (entries : List MessageContextStrategyDefaults) (type : String) :
    Option MessageContextStrategyDefaults :=
  entries.reverse.find? (·.type = type)

/-- **Starting.**  A server that has started makes sessions exactly if the last entry for its
default type in the strategies file is there and fits, and the two adapters can be made. -/
theorem makes_iff_of_main [StartupCodec] [LlmPortFactory] {disk : Disk} {cwd : List String}
    {filePath : String} {app : App} (h : disk.main cwd filePath = .ok app) :
    ∃ config entries defaults, disk.getServerConfig cwd filePath = .ok config ∧
      disk.strategyEntries cwd config.messageContextStrategiesPath = .ok entries ∧
      List.Forall₂ (fun entry d ↦ disk.readStrategy
        (Disk.configsDir cwd config.messageContextStrategiesPath) entry = .ok d)
        entries defaults ∧
      ∀ id now, (∃ raw, app.buildRaw id now = .ok raw) ↔
        ∃ d, lastDefaults defaults config.defaultMessageContextStrategy = some d ∧
          Fits d.metadata config.defaultMessageContextStrategy ∧
          (∃ llm, LlmPortFactory.create id config.defaultCompletionConfig.copy = .ok llm) ∧
          ∃ llm, LlmPortFactory.create id d.completionConfig.copy = .ok llm := by
  obtain ⟨config, hconfig, h⟩ := Py.bind_eq_ok.mp h
  obtain ⟨repository, -, h⟩ := Py.bind_eq_ok.mp h
  obtain ⟨billing, -, h⟩ := Py.bind_eq_ok.mp h
  obtain ⟨strategyDefaults, hload, h⟩ := Py.bind_eq_ok.mp h
  cases h
  obtain ⟨entries, hentries, hcollect⟩ := Py.bind_eq_ok.mp hload
  obtain ⟨defaults, hdefaults, rfl⟩ := OrderedDict.exists_of_collect_eq_ok hcollect
  refine ⟨config, entries, defaults, hconfig, hentries, hdefaults, fun id now ↦ ?_⟩
  have hlast (type : String) : OrderedDict.get? (defaults.foldl (fun d v ↦
      OrderedDict.set d v.type v) ∅) type = lastDefaults defaults type := by
    rw [OrderedDict.get?_foldl_set, OrderedDict.get?_empty, Option.or_none, lastDefaults]
  rw [buildRaw_isOk_iff, ← hlast]
  refine exists_congr fun d ↦ and_congr Iff.rfl ?_
  rw [RawStrategy.build_isOk_iff]
  constructor
  · rintro ⟨hmain, hsummary, hfits⟩
    exact ⟨hfits, hmain, hsummary⟩
  · rintro ⟨hfits, hmain, hsummary⟩
    exact ⟨hmain, hsummary, hfits⟩

set_option maxRecDepth 10000 in
theorem makes_main : ∃ app raw,
    @Disk.main Startup.codec Startup.disk [] "server.json" = .ok app ∧
      @buildRaw sampleFactory app "s" ⟨0⟩ = .ok raw := by
  obtain ⟨app, hmain⟩ : ∃ app, @Disk.main Startup.codec Startup.disk [] "server.json" = .ok app :=
    ⟨_, rfl⟩
  obtain ⟨config, entries, defaults, hconfig, hentries, hdefaults, hiff⟩ :=
    @makes_iff_of_main Startup.codec sampleFactory Startup.disk [] "server.json" app hmain
  cases hconfig
  cases hentries
  cases hdefaults with
  | cons hentry hnil =>
      cases hnil
      cases hentry
      obtain ⟨raw, hraw⟩ := (hiff "s" ⟨0⟩).mpr ⟨_, rfl, .dummy rfl, ⟨_, rfl⟩, _, rfl⟩
      exact ⟨app, raw, hmain, hraw⟩

end App

/-! ## Making sessions -/

theorem App.createSession_of_not_configured [LlmPortFactory] [SessionCodec] {app : App}
    (h : ¬ app.Configured) (t : FileTree) (id : String) (now : Datetime) (ref : StatsRef)
    (faults : List (Option Fault)) :
    ∃ e, app.createSession t id now ref faults = (t, .error e) := by
  unfold App.createSession
  split
  · rename_i e _
    exact ⟨e, rfl⟩
  · rename_i session hbuild
    exact absurd (App.configured_of_buildSession hbuild) h

/-- The configuration with another default strategy. -/
def ServerConfig.withDefault (config : ServerConfig) (type : String) (hne : type ≠ "") :
    ServerConfig :=
  { config with defaultMessageContextStrategy := type, defaultMessageContextStrategy_ne := hne }

namespace Server

/-- No session is made: no request is answered with 201, and no directory made. -/
def NeverCreates (o : List Obs) : Prop :=
  (∀ r id createdAt n, .answers r (.summary id createdAt n) ∉ o) ∧ ∀ id k, .makes id k ∉ o

/-- In no run of a server whose default strategy cannot be built is a request answered with
201, or a directory made. -/
theorem NeverCreates.of_run [LlmPortFactory] [SessionCodec] [UnicodeData] {app : App}
    (hnot : ¬ app.Configured) {t : FileTree} {is : List Input} {w : Server} {o : List Obs}
    (h : (machine app).run (.start t) is = some (w, o)) : NeverCreates o := by
  have hrun : (∀ r id k, ¬ w.At r (.created id k)) ∧ NeverCreates o := by
    refine Mealy.run_induction (P := fun _ w o ↦ (∀ r id k, ¬ w.At r (.created id k)) ∧
      NeverCreates o) ?_ ?_ h
    · exact ⟨fun r id k hat ↦ (by cases hat), fun r id createdAt n ↦ List.not_mem_nil,
        fun id k ↦ List.not_mem_nil⟩
    · rintro _ w o i w' o' ⟨hcreated, hsummary, hmakes⟩ hs
      refine ⟨fun r id k hat ↦ ?_, fun r id createdAt n hmem ↦ ?_, fun id k hmem ↦ ?_⟩
      · rcases (Step.of_step hs).created hat with hsame | ⟨-, now, ref, faults, s, -, hcreate, -⟩
        · exact hcreated r id k hsame
        · obtain ⟨e, he⟩ := App.createSession_of_not_configured hnot w.tree id now ref faults
          cases (Prod.mk.inj (he.symm.trans hcreate)).2
      · rcases List.mem_append.mp hmem with hmem | hmem
        · exact hsummary r id createdAt n hmem
        · obtain ⟨k, hat, -⟩ := created_of_summary hs hmem fun r id k hat ↦
            absurd hat (hcreated r id k)
          exact hcreated r id k hat
      · rcases List.mem_append.mp hmem with hmem | hmem
        · exact hmakes id k hmem
        · rcases (Step.of_step hs).told hmem with hordinary |
            ⟨r, id', now, ref, faults, -, -, hbefore, hafter, -⟩ | ⟨r, id', fault, -, -, hob⟩
          · exact hordinary
          · obtain ⟨e, he⟩ := App.createSession_of_not_configured hnot w.tree id' now ref faults
            rw [he] at hafter
            exact hbefore hafter
          · unfold deleteReply at hob
            split at hob <;> cases hob
  exact hrun.2

/-- **Starting all the same.**  With another default strategy the start ends as before, whatever
strategies there are; but of a server whose default strategy cannot be built no run makes a
session. -/
theorem never_created_of_start [StartupCodec] [LlmPortFactory] [SessionCodec] [UnicodeData]
    {disk : Disk} {cwd : List String} {config : ServerConfig} {type : String} (hne : type ≠ "") :
    disk.createApp cwd (config.withDefault type hne) =
        (disk.createApp cwd config).map (fun app ↦ { app with defaultStrategyType := type }) ∧
      ∀ app, disk.createApp cwd (config.withDefault type hne) = .ok app → ¬ app.Configured →
        ∀ t is w o, (machine app).run (.start t) is = some (w, o) → NeverCreates o := by
  constructor
  · simp only [Disk.createApp, ServerConfig.withDefault, bind, Except.bind, pure, Except.pure]
    cases StartupCodec.openStore config.sessionStoragePath with
    | error e => rfl
    | ok repository =>
        cases disk.loadPricing cwd config.modelsBillingPath with
        | error e => rfl
        | ok billing =>
            cases disk.loadMessageContextStrategies cwd config.messageContextStrategiesPath
              (Disk.configsDir cwd config.messageContextStrategiesPath) with
            | error e => rfl
            | ok strategies => rfl
  · intro app _ hnot t is w o hrun
    exact NeverCreates.of_run hnot hrun

set_option maxRecDepth 10000 in
/-- A server with a default strategy that was not loaded. -/
theorem never_created_main : ∃ config app w o,
    @Disk.getServerConfig Startup.codec Startup.disk [] "server.json" = .ok config ∧
      @Disk.createApp Startup.codec Startup.disk [] (config.withDefault "summary" (by decide)) =
        .ok app ∧
      (@machine App.sampleFactory App.sampleCodec .asciiOnly app).run
        (.start App.sampleTree) [.post "s", .creates 0 ⟨0⟩ ⟨0⟩ []] = some (w, o) ∧
      o ≠ [] ∧ NeverCreates o := by
  obtain ⟨config, hconfig⟩ : ∃ config,
      @Disk.getServerConfig Startup.codec Startup.disk [] "server.json" = .ok config := ⟨_, rfl⟩
  obtain ⟨app, happ⟩ : ∃ app, @Disk.createApp Startup.codec Startup.disk []
      (config.withDefault "summary" (by decide)) = .ok app := by
    cases hconfig
    exact ⟨_, rfl⟩
  have hmissing : app.strategyDefaults.get? app.defaultStrategyType = none := by
    cases hconfig
    cases happ
    rfl
  obtain ⟨⟨w, o⟩, hrun, ho⟩ := Option.map_eq_some_iff.mp
    (show ((@machine App.sampleFactory App.sampleCodec .asciiOnly app).run
      (.start App.sampleTree) [.post "s", .creates 0 ⟨0⟩ ⟨0⟩ []]).map (·.2.isEmpty) =
        some false by
      cases hconfig
      cases happ
      rfl)
  refine ⟨config, app, w, o, hconfig, happ, hrun, ?_, (@never_created_of_start Startup.codec
    App.sampleFactory App.sampleCodec .asciiOnly Startup.disk [] config "summary"
    (by decide)).2 app happ ?_ _ _ w o hrun⟩
  · rintro rfl
    cases ho
  · rintro ⟨defaults, hdefaults, -⟩
    cases hmissing.symm.trans hdefaults

/-- Where the store takes the session and the providers are known, a request for a new session
is answered with 201 exactly if the default strategy can be built. -/
theorem created_iff_configured [LlmPortFactory] [SessionCodec] [UnicodeData] {app : App}
    {w : Server} {id : String} {now : Datetime} {ref : StatsRef} {faults : List (Option Fault)}
    (htext : app.TextualDefaults) (hid : id ≠ "")
    (hfree : w.sessions.get? id = none)
    (hllm : ∀ config, ∃ llm, LlmPortFactory.create id config = .ok llm)
    (hstore : ∀ s, app.buildSession id now ref = .ok s →
      (app.repository.createSession w.tree s faults).2 = .ok ()) :
    (∃ w' o, (machine app).run w [.post id, .creates w.requests.length now ref faults,
        .resumes w.requests.length] = some (w', o) ∧
      .answers w.requests.length (.summary id now 0) ∈ o) ↔ app.Configured := by
  have hpost : step app w (.post id) = some (w.addRequest (.creating id), []) := by
    simp only [step, onPost, if_neg hid, hfree]
  have hat : (w.addRequest (.creating id)).requests[w.requests.length]? = some (.creating id) :=
    at_addRequest.mpr (Or.inr ⟨rfl, rfl⟩)
  constructor
  · rintro ⟨w', o, hrun, -⟩
    by_contra hnot
    obtain ⟨w₁, o₁, o₂, hs₁, hrun₁, -⟩ := Mealy.exists_of_run_cons hrun
    cases Option.some.inj (hpost.symm.trans hs₁)
    obtain ⟨w₂, o₃, o₄, hs₂, hrun₂, -⟩ := Mealy.exists_of_run_cons hrun₁
    obtain ⟨w₃, o₅, o₆, hs₃, -, -⟩ := Mealy.exists_of_run_cons hrun₂
    -- the request is over, so nothing resumes it
    have hended : w₂.At w.requests.length .ended := by
      have hstep : step app (w.addRequest (.creating id))
          (.creates w.requests.length now ref faults) = some (w₂, o₃) := hs₂
      cases Step.of_step hstep with
      | creates _ id' _ _ _ tree s o hr hcreate ho =>
          obtain ⟨e, he⟩ := App.createSession_of_not_configured hnot w.tree id' now ref faults
          cases (Prod.mk.inj (he.symm.trans hcreate)).2
      | createsFails _ id' _ _ _ tree e o ob hr hcreate ho hob =>
          exact (at_setRequest hr).mpr (Or.inl ⟨rfl, rfl⟩)
    have hresumes : step app w₂ (.resumes w.requests.length) = none := by
      simp only [step, show w₂.requests[w.requests.length]? = some .ended from hended, onResumes]
    cases hresumes.symm.trans hs₃
  · intro hconfigured
    obtain ⟨s, hbuild, rfl, hnow⟩ : ∃ s, app.buildSession id now ref = .ok s ∧ s.id = id ∧
        s.createdAt = now := App.buildSession_of_configured htext hconfigured hllm
    have houtcome := hstore s hbuild
    obtain ⟨tree, hcreate⟩ : ∃ tree, app.createSession w.tree s.id now ref faults =
        (tree, .ok s) := by
      cases hrepository : app.repository.createSession w.tree s faults with
      | mk tree outcome =>
          rw [hrepository] at houtcome
          obtain rfl : outcome = .ok () := houtcome
          refine ⟨tree, ?_⟩
          simp only [App.createSession, hbuild, hrepository]
    let w₀ := { w.addRequest (.creating s.id) with tree }.addObject s
    let w₁ := w₀.setRequest w.requests.length (.created s.id w.objects.length)
    have hcreates : ∃ o, step app (w.addRequest (.creating s.id))
        (.creates w.requests.length now ref faults) = some (w₁, o) := by
      have hcreate' : app.createSession (w.addRequest (.creating s.id)).tree s.id now ref faults =
          (tree, .ok s) := hcreate
      simp only [step, hat, onCreates, hcreate', handleStorageErrors]
      exact ⟨_, rfl⟩
    obtain ⟨o, hcreates⟩ := hcreates
    have hat₀ : w₀.At w.requests.length (.creating s.id) := hat
    have hcreated : w₁.requests[w.requests.length]? = some (.created s.id w.objects.length) :=
      (at_setRequest hat₀).mpr (Or.inl ⟨rfl, rfl⟩)
    have hobject : w₁.objects[w.objects.length]? = some (.fresh s) :=
      List.getElem?_concat_iff.mpr (Or.inr ⟨rfl, rfl⟩)
    have hresumes : step app w₁ (.resumes w.requests.length) =
        some ((w₁.register s.id w.objects.length).setRequest w.requests.length .ended,
          [.answers w.requests.length (.summary s.id now 0)]) := by
      simp only [step, hcreated, onResumes, hobject, Option.map_some, ← hnow]
      rfl
    have hrun : (machine app).run w₁ [.resumes w.requests.length] =
        some (_, [.answers w.requests.length (.summary s.id now 0)] ++ []) :=
      Mealy.run_cons hresumes rfl
    exact ⟨_, _, Mealy.run_cons hpost (Mealy.run_cons hcreates hrun), by simp⟩

/-- The sample app is configured. -/
theorem created_sample : ∃ w' o, sampleMachine.run sampleStart
      [.post "s", .creates 0 ⟨0⟩ ⟨0⟩ [], .resumes 0] = some (w', o) ∧
    .answers 0 (.summary "s" ⟨0⟩ 0) ∈ o := by
  have hconfigured : App.sample.Configured := ⟨_, rfl, _, rfl⟩
  have htext : App.sample.TextualDefaults := by
    rintro defaults ⟨⟩
    exact ⟨⟨_, rfl⟩, _, rfl⟩
  have hstore : ∀ s, @App.buildSession App.sampleFactory App.sample "s" ⟨0⟩ ⟨0⟩ = .ok s →
      (@SessionFileAdapter.createSession App.sampleCodec App.sample.repository
        sampleStart.tree s []).2 = .ok () := by
    intro s hs
    have hstored : (@App.buildSession App.sampleFactory App.sample "s" ⟨0⟩ ⟨0⟩).toOption.map
        (fun s ↦ (@SessionFileAdapter.createSession App.sampleCodec
          App.sample.repository sampleStart.tree s []).2.toOption) = some (some ()) := by
      decide +kernel
    rw [hs] at hstored
    cases hcreate : (@SessionFileAdapter.createSession App.sampleCodec
      App.sample.repository sampleStart.tree s []).2 with
    | ok u => rfl
    | error e => simp [Except.toOption, hcreate] at hstored
  have hiff := @created_iff_configured App.sampleFactory App.sampleCodec .asciiOnly
    App.sample sampleStart "s" ⟨0⟩ ⟨0⟩ [] htext (by decide) rfl (fun config ↦ ⟨_, rfl⟩) hstore
  exact hiff.mpr hconfigured

end Server
