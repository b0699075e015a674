import ChatServer.Storage.ReadBack

/-!
# Making and loading sessions

`create_session.py`, `get_session.py` and `send_message.py`, with the price table
of `model_billing_factory_adapter.py` they look rates up in.  `App` is what
`app_factory.create_app` wires them with: one store, one price table.

`ILlmPortFactory` is the boundary to the providers and stays a parameter.  What it
returns keeps no statistics of ours, so it is only named.
-/

open FileTree

/-! ## The price table -/

/-- `ModelCostDTO`. -/
structure ModelCostDTO where
  provider : String
  model : String
  tokensPerPrice : ℕ
  baseInputTokens : ℚ≥0
  outputTokens : ℚ≥0
  provider_ne : provider ≠ "" := by decide
  model_ne : model ≠ "" := by decide
  tokensPerPrice_pos : 1 ≤ tokensPerPrice := by decide

/-- `ModelBillingFactoryAdapter`: its `_pricing`. -/
structure ModelBillingFactoryAdapter where
  pricing : OrderedDict (String × String) ModelCostDTO

namespace ModelBillingFactoryAdapter

/-- `ModelBillingFactoryAdapter.__init__`, on the validated entries of the file: a
later entry replaces an earlier one. -/
def init (modelsCost : List ModelCostDTO) : ModelBillingFactoryAdapter :=
  ⟨modelsCost.foldl (fun pricing dto ↦ pricing.set (dto.provider, dto.model) dto) ∅⟩

/-- `create`. -/
def create (f : ModelBillingFactoryAdapter) (provider model : String) : Option ModelBilling :=
  (f.pricing.get? (provider, model)).map fun dto ↦
    ⟨dto.tokensPerPrice, dto.baseInputTokens, dto.outputTokens, dto.tokensPerPrice_pos⟩

end ModelBillingFactoryAdapter

/-- The bounds of an entry are those `ModelBilling.__init__` checks. -/
theorem ModelCostDTO.init_ok (dto : ModelCostDTO) :
    ModelBilling.init dto.tokensPerPrice dto.baseInputTokens dto.outputTokens =
      .ok ⟨dto.tokensPerPrice, dto.baseInputTokens, dto.outputTokens, dto.tokensPerPrice_pos⟩ := by
  have htokens : ¬ (dto.tokensPerPrice : ℤ) < 1 := by
    have := dto.tokensPerPrice_pos
    omega
  refine (dif_neg htokens).trans ((dif_neg ?_).trans ((dif_neg ?_).trans rfl))
  · exact not_lt.mpr dto.baseInputTokens.2
  · exact not_lt.mpr dto.outputTokens.2

/-! ## The use cases -/

/-- `ILlmPortFactory`: the name of the `LlmAdapter` it creates, or the exception it
raises. -/
class LlmPortFactory where
  create : String → CompletionConfig → Except PyExc String

/-- `MessageContextStrategyDefaults`. -/
structure MessageContextStrategyDefaults where
  type : String
  completionConfig : CompletionConfig
  metadata : OrderedDict String Json := ∅
  type_ne : type ≠ "" := by decide

/-- What `create_app` wires the use cases with. -/
structure App where
  repository : SessionFileAdapter
  modelBillingFactory : ModelBillingFactoryAdapter
  defaultCompletionConfig : CompletionConfig
  strategyDefaults : OrderedDict String MessageContextStrategyDefaults
  defaultStrategyType : String

namespace App

section

variable [LlmPortFactory]

/-- `CreateSessionUseCase.execute`, up to the store. -/
def buildSession (app : App) (sessionId : String) (now : Datetime) (ref : StatsRef) :
    Except PyExc Session :=
  let completionConfig := app.defaultCompletionConfig.copy
  match app.strategyDefaults.get? app.defaultStrategyType with
  | none => .error (.valueError s!"Unknown default strategy type: '{app.defaultStrategyType}'")
  | some defaults => do
      let strategyCompletionConfig := defaults.completionConfig.copy
      let llm ← LlmPortFactory.create sessionId completionConfig
      let strategyLlm ← LlmPortFactory.create sessionId strategyCompletionConfig
      let billing :=
        app.modelBillingFactory.create completionConfig.provider completionConfig.model
      let strategyBilling := app.modelBillingFactory.create strategyCompletionConfig.provider
        strategyCompletionConfig.model
      Session.create (.port llm) sessionId completionConfig billing app.defaultStrategyType
        defaults.metadata (.port strategyLlm) strategyCompletionConfig strategyBilling now ref

/-- `GetSessionUseCase.execute`, from the state the store returned. -/
def restoreSession (app : App) (sessionId : String) (state : SessionState) (ref : StatsRef) :
    Except PyExc Session := do
  let llm ← LlmPortFactory.create sessionId state.completionConfig
  let strategyLlm ← LlmPortFactory.create sessionId state.strategyCompletionConfig
  let billing := app.modelBillingFactory.create state.completionConfig.provider
    state.completionConfig.model
  let strategyBilling := app.modelBillingFactory.create state.strategyCompletionConfig.provider
    state.strategyCompletionConfig.model
  let usageStats := SessionUsageStats.init state.statistics
  let strategyLlmStats := LlmPort.decorated (.port strategyLlm) ref strategyBilling
  let strategy ← MessageContextStrategyFactory.build state.strategyType state.strategyMetadata
    state.strategyRecords strategyLlmStats state.strategyCompletionConfig
  return .init (.port llm) state.id state.createdAt state.completionConfig billing ref usageStats
    strategy

variable [SessionCodec]

/-- `CreateSessionUseCase.execute`. -/
def createSession (app : App) (t : FileTree) (sessionId : String) (now : Datetime)
    (ref : StatsRef) (faults : List (Option Fault)) : FileTree × Except PyExc Session :=
  match app.buildSession sessionId now ref with
  | .error e => (t, .error e)
  | .ok session =>
      match app.repository.createSession t session faults with
      | (t, .error e) => (t, .error e)
      | (t, .ok ()) => (t, .ok session)

/-- `GetSessionUseCase.execute`. -/
def getSession (app : App) (t : FileTree) (sessionId : String) (ref : StatsRef) :
    Except PyExc Session := do
  let state ← app.repository.getSession t sessionId
  app.restoreSession sessionId state ref

end

/-! ## What the use cases make -/

/-- The rates a session is billed at are those of its own configurations. -/
def rates (app : App) (s : Session) : Session.Role → Option ModelBilling
  | .main => app.modelBillingFactory.create s.completionConfig.provider s.completionConfig.model
  | .summary => app.modelBillingFactory.create s.messageContextStrategy.completionConfig.provider
      s.messageContextStrategy.completionConfig.model

section

variable [LlmPortFactory]

theorem createSession_ok [SessionCodec] {app : App} {t t' : FileTree} {sessionId : String}
    {now : Datetime} {ref : StatsRef} {faults : List (Option Fault)} {s : Session}
    (h : app.createSession t sessionId now ref faults = (t', .ok s)) :
    app.buildSession sessionId now ref = .ok s ∧ app.repository.Written t' s := by
  unfold createSession at h
  split at h
  · cases h
  · rename_i session hbuild
    split at h
    · cases h
    · rename_i hcreate
      cases h
      exact ⟨hbuild, .of_createSession hcreate⟩

/-- What a session that was made or loaded looks like: the handles of its two LLMs,
wired to its own statistics, and its strategy. -/
structure Built (app : App) (sessionId : String) (s : Session) : Prop where
  main : ∃ llm, LlmPortFactory.create sessionId s.completionConfig = .ok llm ∧
    s.llmStats = .decorated (.port llm) s.usageStatsRef (app.rates s .main)
  summary : ∃ llm, LlmPortFactory.create sessionId s.messageContextStrategy.completionConfig =
      .ok llm ∧ s.messageContextStrategy.llm =
        .decorated (.port llm) s.usageStatsRef (app.rates s .summary)

/-- A strategy that was built on the LLM of its own configuration. -/
theorem summary_of_base {app : App} {sessionId strategyLlm : String} {ref : StatsRef}
    {config : CompletionConfig} {records : List MessageRecord}
    {strategy : MessageContextStrategy}
    (hllm : LlmPortFactory.create sessionId config = .ok strategyLlm)
    (hbase : strategy.base = ⟨.decorated (.port strategyLlm) ref
      (app.modelBillingFactory.create config.provider config.model), config, records⟩) :
    ∃ llm, LlmPortFactory.create sessionId strategy.completionConfig = .ok llm ∧
      strategy.llm = .decorated (.port llm) ref (app.modelBillingFactory.create
        strategy.completionConfig.provider strategy.completionConfig.model) := by
  have hconfig : strategy.completionConfig = config :=
    congrArg StrategyBase.completionConfig hbase
  rw [hconfig]
  exact ⟨strategyLlm, hllm, congrArg StrategyBase.llm hbase⟩

theorem Built.of_buildSession {app : App} {sessionId : String} {now : Datetime} {ref : StatsRef}
    {s : Session} (h : app.buildSession sessionId now ref = .ok s) :
    app.Built sessionId s ∧ s.id = sessionId ∧ s.messages = [] ∧
      s.usageStats.lifecycleTotalData = ∅ := by
  unfold buildSession at h
  simp only at h
  split at h
  · cases h
  · obtain ⟨llm, hllm, h⟩ := Py.bind_eq_ok.mp h
    obtain ⟨strategyLlm, hstrategyLlm, h⟩ := Py.bind_eq_ok.mp h
    obtain ⟨strategy, hbuild, h⟩ := Py.bind_eq_ok.mp h
    cases h
    have hbase := MessageContextStrategyFactory.base_build hbuild
    exact ⟨⟨⟨llm, hllm, rfl⟩, summary_of_base hstrategyLlm hbase⟩, rfl,
      congrArg StrategyBase.records hbase, rfl⟩

theorem Built.of_restoreSession {app : App} {sessionId : String} {state : SessionState}
    {ref : StatsRef} {s : Session} (h : app.restoreSession sessionId state ref = .ok s) :
    app.Built sessionId s ∧ s.id = state.id ∧
      s.usageStats.lifecycleTotalData = state.statistics.getD ∅ := by
  obtain ⟨llm, hllm, h⟩ := Py.bind_eq_ok.mp h
  obtain ⟨strategyLlm, hstrategyLlm, h⟩ := Py.bind_eq_ok.mp h
  obtain ⟨strategy, hbuild, h⟩ := Py.bind_eq_ok.mp h
  cases h
  have hbase := MessageContextStrategyFactory.base_build hbuild
  exact ⟨⟨⟨llm, hllm, rfl⟩, summary_of_base hstrategyLlm hbase⟩, rfl, rfl⟩

end

/-! ## An app to evaluate runs on -/

/-- One priced model, and sessions that send their whole history. -/
def sample : App where
  repository := .sampleStore
  modelBillingFactory := .init
    [{ provider := "p"
       model := "m"
       tokensPerPrice := 2
       baseInputTokens := 1
       outputTokens := 2
       provider_ne := CompletionConfig.sample.provider_ne
       model_ne := CompletionConfig.sample.model_ne
       tokensPerPrice_pos := Nat.two_pos }]
  defaultCompletionConfig := .sample
  strategyDefaults := (∅ : OrderedDict _ _).set "dummy" ⟨"dummy", .sample, ∅, by decide⟩
  defaultStrategyType := "dummy"

/-- A factory with an adapter for every provider. -/
@[reducible] def sampleFactory : LlmPortFactory := ⟨fun _ c ↦ .ok c.provider⟩

/-- The tree before `sample` has stored anything. -/
def sampleTree : FileTree := ⟨(∅ : OrderedDict _ _).set ["sessions"] .dir⟩

/-- The price of one token in and two tokens out. -/
def sampleStats : StatsData :=
  (∅ : StatsData).set "p" ((∅ : OrderedDict String ModelStats).set "m"
    ⟨⟨1, 2⟩, some ⟨1 / 2, 2, 5 / 2⟩⟩)

/-- The information of the session `s`, with or without a first call. -/
def sampleInfo (statistics : Option StatsData) : SessionInfoDto where
  id := "s"
  createdAt := ⟨0⟩
  completionConfig := .sample
  statistics := statistics
  messageContextStrategy := some ⟨"dummy", ∅, .sample⟩
  id_ne := by decide

/-- The records of that call. -/
def sampleRecords : List MessageRecordDto :=
  [⟨"00000000-0000-0000-0000-000000000001", none, Message.of "user" "hi"⟩,
    ⟨"00000000-0000-0000-0000-000000000002", some "00000000-0000-0000-0000-000000000001",
      Message.of "assistant" "yo"⟩]

/-- An information file. -/
def sampleInfoText (statistics : String) : String :=
  "\x7b\"id\": \"s\", \"created_at\": \"0001-01-01T00:00:00\", \"completion_config\": " ++
    SessionFileAdapter.sampleConfigText ++ ", \"statistics\": " ++ statistics ++
    ", \"message_context_strategy\": \x7b\"type\": \"dummy\", \"metadata\": \x7b\x7d, " ++
    "\"completion_config\": " ++ SessionFileAdapter.sampleConfigText ++ "\x7d\x7d"

/-- `sampleStats` in an information file. -/
def sampleStatsText : String :=
  "\x7b\"p\": \x7b\"m\": [\x7b\"prompt_tokens\": 1, \"completion_tokens\": 2\x7d, " ++
    "\x7b\"prompt_tokens\": 0.5, \"completion_tokens\": 2.0, \"total_tokens\": 2.5\x7d]\x7d\x7d"

/-- `sampleRecords` in a messages file. -/
def sampleRecordsText : String :=
  "\x7b\"records\": [\x7b\"id\": \"00000000-0000-0000-0000-000000000001\", \"prev_id\": null, " ++
    "\"message\": \x7b\"role\": \"user\", \"content\": \"hi\"\x7d\x7d, " ++
    "\x7b\"id\": \"00000000-0000-0000-0000-000000000002\", " ++
    "\"prev_id\": \"00000000-0000-0000-0000-000000000001\", " ++
    "\"message\": \x7b\"role\": \"assistant\", \"content\": \"yo\"\x7d\x7d]\x7d"

/-- The codec on the files of the session `s` before and after its first call. -/
@[reducible] def sampleCodec : SessionCodec where
  digest _ := 0
  loadSchema _ := .error (.valueError "Invalid JSON for output_config")
  dumpModel _ := .ok ()
  dumpInfo info := sampleInfoText (if info.statistics = none then "null" else sampleStatsText)
  loadInfo text :=
    if text = sampleInfoText "null" then .ok (sampleInfo none)
    else if text = sampleInfoText sampleStatsText then .ok (sampleInfo (some sampleStats))
    else .error (.valueError "Invalid JSON in session info file")
  dumpMessages messages :=
    if messages.records = [] then "\x7b\"records\": []\x7d" else sampleRecordsText
  loadMessages text :=
    if text = "\x7b\"records\": []\x7d" then .ok ⟨[]⟩
    else if text = sampleRecordsText then .ok ⟨sampleRecords⟩
    else .error (.valueError "Invalid JSON in session info file")

/-- The first call of the session `s`. -/
def sampleCall : List Session.Input :=
  [.acompletion "hi" true (.ofNat 1), .event (.textChunk "yo"), .next,
    .event (.completionDone ⟨"p", "m", ⟨1, 2⟩, .stop, 0⟩), .mainEnds (.ofNat 2) 0, .next]

/-- The session `s` as it is made. -/
def sampleSession : Session :=
  .init (.port "p") "s" ⟨0⟩ .sample (sample.modelBillingFactory.create "p" "m") ⟨0⟩ (.init none)
    (.dummy ⟨⟨.decorated (.port "p") ⟨0⟩ (sample.modelBillingFactory.create "p" "m"), .sample, []⟩⟩)

/-- The session `s` after its first call. -/
def sampleTold : Session :=
  { sampleSession with
    usageStats := ⟨⟨sampleStats⟩, ⟨sampleStats⟩⟩
    messageContextStrategy := .dummy
      ⟨⟨sampleSession.messageContextStrategy.llm, .sample,
        [⟨.ofNat 1, none, Message.of "user" "hi"⟩,
          ⟨.ofNat 2, some (.ofNat 1), Message.of "assistant" "yo"⟩]⟩⟩ }

/-- What is stored for the session `s` before and after its first call can be
decoded. -/
theorem roundTrips_sample {s : Session} (hid : s.id = "s") (hcreated : s.createdAt = ⟨0⟩)
    (hconfig : s.completionConfig = .sample) {records : List MessageRecord} {llm : LlmPort}
    (hstrategy : s.messageContextStrategy = .dummy ⟨⟨llm, .sample, records⟩⟩)
    (h : s.usageStats.lifecycleTotalData = ∅ ∧ records = [] ∨
      s.usageStats.lifecycleTotalData = sampleStats ∧
        records.map MessageRecordDto.ofRecord = sampleRecords) :
    @SessionFileAdapter.RoundTrips sampleCodec s := by
  have hserialized : @serializedConfig sampleCodec.toConfigCodec .sample = .sample := rfl
  have hinfo : ∀ hs, @SessionFileAdapter.infoOf sampleCodec s hs =
      sampleInfo s.usageStats.lifecycleTotalData.orNone := by
    intro hs
    simp only [SessionFileAdapter.infoOf, sampleInfo, hid, hcreated, hconfig, hstrategy,
      MessageContextStrategy.completionConfig, MessageContextStrategy.base, hserialized]
    rfl
  have hmessages : SessionFileAdapter.messagesOf s =
      ⟨records.map MessageRecordDto.ofRecord⟩ := by
    rw [SessionFileAdapter.messagesOf, hstrategy]
    rfl
  have hinfoText : sampleInfoText sampleStatsText ≠ sampleInfoText "null" := by decide +kernel
  have hrecordsText : sampleRecordsText ≠ "\x7b\"records\": []\x7d" := by decide +kernel
  refine @SessionFileAdapter.RoundTrips.mk sampleCodec s (fun hs ↦ ?_) ?_
  · rw [hinfo hs]
    rcases h with ⟨hstats, -⟩ | ⟨hstats, -⟩
    · rw [hstats]
      exact if_pos (congrArg sampleInfoText (if_pos rfl))
    · have hsome : sampleStats.orNone = some sampleStats := if_neg (by decide +kernel)
      rw [hstats, hsome]
      have hdump : sampleCodec.dumpInfo (sampleInfo (some sampleStats)) =
          sampleInfoText sampleStatsText :=
        congrArg sampleInfoText (if_neg (Option.some_ne_none sampleStats))
      rw [hdump]
      exact (if_neg hinfoText).trans (if_pos rfl)
  · rw [hmessages]
    rcases h with ⟨-, rfl⟩ | ⟨-, hrecords⟩
    · exact if_pos (if_pos rfl)
    · have hdump : sampleCodec.dumpMessages ⟨sampleRecords⟩ = sampleRecordsText :=
        if_neg (List.cons_ne_nil _ _)
      rw [hrecords, hdump]
      exact (if_neg hrecordsText).trans (if_pos rfl)

end App
