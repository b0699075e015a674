import ChatServer.Service.UseCases
import ChatServer.Storage.RawConfig

/-!
# Loading whatever is in the directory of a session

`SessionFileAdapter.get_session` and `GetSessionUseCase.execute` on files of any content:
what `json.load` has found is looked into and rewritten before pydantic sees it, and the
metadata of the strategy is converted after it.  `UseCases` has the same on files that hold
what the store writes.

For which contents nothing is raised but what `handle_storage_errors` contains is said by
`SessionFits`, and proved in `raisesOnly_execute`.  pydantic is a parameter that reports what
it does not accept as `ValidationError`, a `ValueError`.
-/

open FileTree

/-! ## The store -/

/-- What `get_session` hands to pydantic: the information file, with the two configurations
that were resolved in it. -/
structure RawInfo where
  raw : Json
  completionConfig : Option RawConfig
  strategyCompletionConfig : Option RawConfig

/-- pydantic, on the two files of a session.  What it fails with is the text of a
`ValidationError`. -/
class RawCodec extends SchemaCodec where
  validateInfo : RawInfo → Except String SessionInfoDto
  validateMessages : Json → Except String SessionMessagesDto

/-- `model_validate`. -/
def validated {α : Type} : Except String α → Except PyExc α
  | .ok a => .ok a
  | .error message => .error (.valueError message)

/-- What `get_session` makes of its two documents. -/
def SessionFileAdapter.stateOfDtos (id : String) (info : SessionInfoDto)
    (messages : SessionMessagesDto) : Except PyExc SessionState :=
  match info.messageContextStrategy with
  | none => .error (.valueError s!"Session {id} is missing message context strategy metadata")
  | some strategy => do
      let records ← messages.records.mapM MessageRecordDto.toRecord
      return { id := info.id, createdAt := info.createdAt,
               completionConfig := info.completionConfig, statistics := info.statistics,
               strategyType := strategy.type, strategyMetadata := strategy.metadata,
               strategyCompletionConfig := strategy.completionConfig,
               strategyRecords := records, id_ne := info.id_ne }

namespace Disk

section

variable [SchemaCodec]

/-- `json.load` of one of the two files, with the exceptions `get_session` raises for it. -/
def loadJson (disk : Disk) (path : List String) : Except PyExc Json :=
  match disk path with
  | .absent =>
      .error (.fileNotFoundError s!"File with part of session info not found: {pathText path}")
  | .denied => .error (.permissionError
      s!"Permission denied when reading session info file: {pathText path}")
  | .failed message => .error (.osError message)
  | .undecodable message => .error (.valueError message)
  | .text content =>
      match SchemaCodec.loads content with
      | .ok v => .ok v
      | .error (.decodeError _) =>
          .error (.valueError s!"Invalid JSON in session info file: {pathText path}")
      | .error (.other e) => .error e

/-- `if "completion_config" in v: v["completion_config"] = resolve_completion_config(...)`. -/
def resolveIn (disk : Disk) (v : Json) (baseDir : List String) :
    Except PyExc (Option RawConfig) := do
  let found ← v.contains "completion_config"
  if found then do
    let raw ← v.getItem "completion_config"
    (disk.resolveCompletionConfig raw baseDir).map some
  else .ok none

/-- What `get_session` does to the information file before it is validated. -/
def resolveInfo (disk : Disk) (raw : Json) (baseDir : List String) : Except PyExc RawInfo := do
  let completionConfig ← disk.resolveIn raw baseDir
  let strategy ← raw.get "message_context_strategy"
  match strategy.filter Json.truthy with
  | none => return ⟨raw, completionConfig, none⟩
  | some strategy => do
      let strategyCompletionConfig ← disk.resolveIn strategy baseDir
      return ⟨raw, completionConfig, strategyCompletionConfig⟩

end

/-- `get_session`. -/
def getSession [RawCodec] (disk : Disk) (a : SessionFileAdapter) (id : String) :
    Except PyExc SessionState := do
  let dir := a.sessionDir id
  let raw ← disk.loadJson (dir ++ [SessionFileAdapter.sessionInfo])
  let resolved ← disk.resolveInfo raw dir
  let info ← validated (RawCodec.validateInfo resolved)
  let rawMessages ← disk.loadJson (dir ++ [SessionFileAdapter.sessionMessages])
  let messages ← validated (RawCodec.validateMessages rawMessages)
  SessionFileAdapter.stateOfDtos id info messages

end Disk

/-- `UseCases` makes the same of two documents that have been decoded. -/
theorem SessionFileAdapter.getSession_eq [SessionCodec] (a : SessionFileAdapter) (t : FileTree)
    (id : String) : a.getSession t id = (do
      let raw ← readFile t (a.sessionDir id ++ [sessionInfo]) SessionCodec.loadInfo
        "File with part of session info not found: "
        "Permission denied when reading session info file: "
      let info ← SessionFileAdapter.resolveInfo t (a.sessionDir id) raw
      let messages ← readFile t (a.sessionDir id ++ [sessionMessages]) SessionCodec.loadMessages
        "File with part of session info not found: "
        "Permission denied when reading session info file: "
      stateOfDtos id info messages) := rfl

/-! ## The factory -/

/-- A strategy as the factory leaves it: the texts of a summary are not looked at. -/
inductive RawStrategy where
  | dummy
  | summary (windowSize : ℤ) (summarizationPrompt text : Json) (anchorId : Option UUID)
  | slidingWindow (windowSize : ℤ)

/-- `summarization_prompt is None or summarization_prompt == ""`. -/
def isBlank : Json → Bool
  | .null => true
  | .str s => s = ""
  | _ => false

namespace RawStrategy

/-- `SummaryStrategy.__init__`. -/
def initSummary (windowSize : ℤ) (summarizationPrompt text : Json) (anchorId : Option UUID) :
    Except PyExc RawStrategy :=
  if windowSize < 1 then
    .error (.valueError s!"SummaryStrategy. window_size must be >= 1, got {windowSize}")
  else if isBlank summarizationPrompt then
    .error (.valueError "SummaryStrategy. summarization_prompt must be not empty string")
  else .ok (.summary windowSize summarizationPrompt text anchorId)

/-- `SlidingWindowStrategy.__init__`. -/
def initSlidingWindow (windowSize : ℤ) : Except PyExc RawStrategy :=
  if windowSize < 1 then
    .error (.valueError s!"SlidingWindowStrategy. window_size must be >= 1, got {windowSize}")
  else .ok (.slidingWindow windowSize)

/-- `MessageContextStrategyFactory.build`, on metadata of any shape. -/
def build (strategyType : String) (metadata : OrderedDict String Json) :
    Except PyExc RawStrategy :=
  if strategyType = "dummy" then .ok .dummy
  else if strategyType = "summary" then do
    let windowSize ← ((metadata.get? "window_size").getD (.int 4)).toInt
    let summaryText := (metadata.get? "summary_text").getD (.str "")
    let parsedAnchor ← MessageContextStrategyFactory.parseAnchor metadata
    let summarizationPrompt := (metadata.get? "summarization_prompt").getD (.str "")
    initSummary windowSize summarizationPrompt summaryText parsedAnchor
  else if strategyType = "sliding_window" then do
    let windowSize ← ((metadata.get? "window_size").getD (.int 8)).toInt
    initSlidingWindow windowSize
  else .error (.valueError s!"Unknown strategy type: '{strategyType}'")

/-- The strategy of the domain that a strategy stands for, when its texts are texts; `None` is
as good as no summary. -/
inductive Is : RawStrategy → MessageContextStrategy → Prop where
  | dummy (s : DummyStrategy) : Is .dummy (.dummy s)
  | slidingWindow (s : SlidingWindowStrategy) : Is (.slidingWindow s.windowSize) (.slidingWindow s)
  | summary (s : SummaryStrategy) {text : Json}
      (htext : text = .str s.summary.text ∨ text = .null ∧ s.summary.text = "") :
      Is (.summary s.windowSize (.str s.summarizationPrompt) text s.summary.anchorId) (.summary s)

section

variable {llm : LlmPort} {completionConfig : CompletionConfig} {records : List MessageRecord}

theorem both_initSlidingWindow (windowSize : ℤ) :
    Py.Both Is (initSlidingWindow windowSize)
      ((SlidingWindowStrategy.init windowSize llm completionConfig records).map
        .slidingWindow) := by
  rw [initSlidingWindow, SlidingWindowStrategy.init]
  split
  · exact .error _
  · rename_i hpos
    have hcast : windowSize = (windowSize.toNat : ℤ) := by omega
    have his := Is.slidingWindow ⟨⟨llm, completionConfig, records⟩, _, Py.one_le_toNat hpos⟩
    rw [← hcast] at his
    exact .ok his

/-- A text, or `None`, where the domain expects a text. -/
theorem getText_eq_ok {metadata : OrderedDict String Json} {key : String} {o : Option String}
    (h : MessageContextStrategyFactory.getText metadata key = .ok o) :
    (metadata.get? key).getD (.str "") = (o.map Json.str).getD .null := by
  unfold MessageContextStrategyFactory.getText at h
  split at h
  · rename_i hget
    cases h
    rw [hget]
    rfl
  · rename_i hget
    cases h
    rw [hget]
    rfl
  · rename_i hget
    cases h
    rw [hget]
    rfl
  · cases h

theorem both_initSummary (windowSize : ℤ) (prompt text : Option String) (anchorId : Option UUID) :
    Py.Both Is
      (initSummary windowSize ((prompt.map Json.str).getD .null) ((text.map Json.str).getD .null)
        anchorId)
      ((SummaryStrategy.init windowSize prompt (some llm) completionConfig records
        (some ⟨text.getD "", anchorId⟩)).map .summary) := by
  simp only [initSummary, SummaryStrategy.init]
  split
  · exact .error _
  · rename_i hpos
    have hcast : windowSize = (windowSize.toNat : ℤ) := by omega
    cases prompt with
    | none => exact .error _
    | some prompt =>
        show Py.Both Is (if decide (prompt = "") then _ else _) _
        by_cases hprompt : prompt = ""
        · subst hprompt
          exact .error _
        · rw [if_neg (by simpa using hprompt), dif_neg (by simpa using hprompt)]
          have htext : (text.map Json.str).getD .null = .str (text.getD "") ∨
              (text.map Json.str).getD .null = .null ∧ text.getD "" = "" := by
            cases text with
            | none => exact Or.inr ⟨rfl, rfl⟩
            | some text => exact Or.inl rfl
          have his := Is.summary ⟨⟨llm, completionConfig, records⟩, windowSize.toNat, prompt,
            ⟨text.getD "", anchorId⟩, Py.one_le_toNat hpos, hprompt⟩ htext
          rw [← hcast] at his
          exact .ok his

/-- Where the texts of the metadata are texts, the factory is the one of the domain. -/
theorem both_build {strategyType : String} {metadata : OrderedDict String Json}
    {text prompt : Option String}
    (htext : MessageContextStrategyFactory.getText metadata "summary_text" = .ok text)
    (hprompt : MessageContextStrategyFactory.getText metadata "summarization_prompt" = .ok prompt) :
    Py.Both Is (build strategyType metadata)
      (MessageContextStrategyFactory.build strategyType metadata records llm completionConfig) := by
  rw [build, MessageContextStrategyFactory.build]
  split
  · exact .ok (.dummy _)
  · split
    · refine (Py.Both.refl _).bind ?_
      rintro windowSize _ rfl
      rw [htext, hprompt, getText_eq_ok htext, getText_eq_ok hprompt]
      refine (Py.Both.refl _).bind ?_
      rintro anchorId _ rfl
      have hinit := @both_initSummary llm completionConfig records windowSize prompt text anchorId
      simp only [bind, Except.bind, pure, Except.pure]
      cases hs : SummaryStrategy.init windowSize prompt (some llm) completionConfig records
        (some ⟨text.getD "", anchorId⟩) <;> rw [hs] at hinit <;> exact hinit
    · split
      · refine (Py.Both.refl _).bind ?_
        rintro windowSize _ rfl
        have hinit := @both_initSlidingWindow llm completionConfig records windowSize
        simp only [bind, Except.bind, pure, Except.pure]
        cases hs : SlidingWindowStrategy.init windowSize llm completionConfig records <;>
          rw [hs] at hinit <;> exact hinit
      · exact .error _

/-- What the domain builds a strategy of, the factory builds one of. -/
theorem exists_of_build {strategyType : String} {metadata : OrderedDict String Json}
    {s : MessageContextStrategy}
    (h : MessageContextStrategyFactory.build strategyType metadata records llm completionConfig =
      .ok s) : ∃ r, build strategyType metadata = .ok r ∧ r.Is s := by
  have hs := h
  rw [MessageContextStrategyFactory.build] at h
  split at h
  · rename_i hdummy
    cases h
    exact ⟨.dummy, if_pos hdummy, .dummy _⟩
  · split at h
    · obtain ⟨windowSize, -, h⟩ := Py.bind_eq_ok.mp h
      obtain ⟨text, htext, h⟩ := Py.bind_eq_ok.mp h
      obtain ⟨anchor, -, h⟩ := Py.bind_eq_ok.mp h
      obtain ⟨prompt, hprompt, -⟩ := Py.bind_eq_ok.mp h
      have hboth : Py.Both Is (build strategyType metadata)
          (MessageContextStrategyFactory.build strategyType metadata records llm
            completionConfig) := both_build htext hprompt
      rw [hs] at hboth
      cases hraw : build strategyType metadata with
      | ok r =>
          rw [hraw] at hboth
          cases hboth with
          | ok his => exact ⟨r, rfl, his⟩
      | error e =>
          rw [hraw] at hboth
          cases hboth
    · rename_i hdummy hsummary
      split at h
      · rename_i hsliding
        obtain ⟨windowSize, hwindow, h⟩ := Py.bind_eq_ok.mp h
        obtain ⟨t, ht, h⟩ := Py.bind_eq_ok.mp h
        cases h
        have hinit := @both_initSlidingWindow llm completionConfig records windowSize
        rw [ht] at hinit
        rw [build, if_neg hdummy, if_neg hsummary, if_pos hsliding, hwindow]
        cases hraw : initSlidingWindow windowSize with
        | ok r =>
            rw [hraw] at hinit
            cases hinit with
            | ok his => exact ⟨r, hraw, his⟩
        | error e =>
            rw [hraw] at hinit
            cases hinit
      · cases h

end

end RawStrategy

/-! ## The use cases -/

/-- What `CreateSessionUseCase.execute` builds a session of. -/
structure RawCreation where
  id : String
  createdAt : Datetime
  completionConfig : CompletionConfig
  strategyCompletionConfig : CompletionConfig
  llm : String
  strategyLlm : String
  billing : Option ModelBilling
  strategyBilling : Option ModelBilling
  strategy : RawStrategy

/-- `CreateSessionUseCase.execute` up to the store, on metadata of any shape. -/
def App.buildRaw [LlmPortFactory] (app : App) (sessionId : String) (now : Datetime) :
    Except PyExc RawCreation :=
  let completionConfig := app.defaultCompletionConfig.copy
  match app.strategyDefaults.get? app.defaultStrategyType with
  | none => .error (.valueError s!"Unknown default strategy type: '{app.defaultStrategyType}'")
  | some defaults => do
      let strategyCompletionConfig := defaults.completionConfig.copy
      let llm ← LlmPortFactory.create sessionId completionConfig
      let strategyLlm ← LlmPortFactory.create sessionId strategyCompletionConfig
      let billing :=
        app.modelBillingFactory.create completionConfig.provider completionConfig.model
      let strategyBilling := app.modelBillingFactory.create strategyCompletionConfig.provider
        strategyCompletionConfig.model
      let strategy ← RawStrategy.build app.defaultStrategyType defaults.metadata
      return { id := sessionId, createdAt := now, completionConfig, strategyCompletionConfig, llm,
               strategyLlm, billing, strategyBilling, strategy }

/-- What `App.buildSession` builds a session of, `App.buildRaw` does too. -/
theorem App.exists_of_buildSession [LlmPortFactory] {app : App} {sessionId : String}
    {now : Datetime} {ref : StatsRef} {s : Session}
    (h : app.buildSession sessionId now ref = .ok s) :
    ∃ raw, app.buildRaw sessionId now = .ok raw ∧ raw.strategy.Is s.messageContextStrategy ∧
      raw.id = s.id ∧ raw.completionConfig = s.completionConfig := by
  rw [buildSession] at h
  rw [buildRaw]
  cases hdefaults : app.strategyDefaults.get? app.defaultStrategyType with
  | none =>
      rw [hdefaults] at h
      cases h
  | some defaults =>
      rw [hdefaults] at h
      obtain ⟨llm, hllm, h⟩ := Py.bind_eq_ok.mp h
      obtain ⟨strategyLlm, hstrategyLlm, h⟩ := Py.bind_eq_ok.mp h
      obtain ⟨strategy, hbuild, h⟩ := Py.bind_eq_ok.mp h
      cases h
      obtain ⟨r, hr, his⟩ := RawStrategy.exists_of_build hbuild
      refine ⟨_, Py.bind_eq_ok.mpr ⟨llm, hllm, Py.bind_eq_ok.mpr ⟨strategyLlm, hstrategyLlm,
        Py.bind_eq_ok.mpr ⟨r, hr, rfl⟩⟩⟩, his, rfl, rfl⟩

/-- What `GetSessionUseCase.execute` builds a session of. -/
structure RawSession where
  state : SessionState
  llm : String
  strategyLlm : String
  billing : Option ModelBilling
  strategyBilling : Option ModelBilling
  usageStats : SessionUsageStats
  strategy : RawStrategy

/-- `GetSessionUseCase.execute`, from the state the store returned. -/
def App.hydrate [LlmPortFactory] (app : App) (sessionId : String) (state : SessionState) :
    Except PyExc RawSession := do
  let llm ← LlmPortFactory.create sessionId state.completionConfig
  let strategyLlm ← LlmPortFactory.create sessionId state.strategyCompletionConfig
  let billing := app.modelBillingFactory.create state.completionConfig.provider
    state.completionConfig.model
  let strategyBilling := app.modelBillingFactory.create state.strategyCompletionConfig.provider
    state.strategyCompletionConfig.model
  let strategy ← RawStrategy.build state.strategyType state.strategyMetadata
  return { state, llm, strategyLlm, billing, strategyBilling,
           usageStats := .init state.statistics, strategy }

/-- Where the texts of the metadata are texts, the session is the one `App.restoreSession`
builds. -/
theorem App.both_hydrate [LlmPortFactory] (app : App) {sessionId : String} {state : SessionState}
    {ref : StatsRef} {text prompt : Option String}
    (htext : MessageContextStrategyFactory.getText state.strategyMetadata "summary_text" =
      .ok text)
    (hprompt : MessageContextStrategyFactory.getText state.strategyMetadata
      "summarization_prompt" = .ok prompt) :
    Py.Both (fun raw session ↦ raw.strategy.Is session.messageContextStrategy)
      (app.hydrate sessionId state) (app.restoreSession sessionId state ref) := by
  refine (Py.Both.refl _).bind ?_
  rintro llm _ rfl
  refine (Py.Both.refl _).bind ?_
  rintro strategyLlm _ rfl
  have hbuild := @RawStrategy.both_build
    (.decorated (.port strategyLlm) ref (app.modelBillingFactory.create
      state.strategyCompletionConfig.provider state.strategyCompletionConfig.model))
    state.strategyCompletionConfig state.strategyRecords state.strategyType state.strategyMetadata
    text prompt htext hprompt
  exact hbuild.bind fun _ _ his ↦ .ok his

/-- `GetSessionUseCase.execute`. -/
def App.execute [RawCodec] [LlmPortFactory] (app : App) (disk : Disk) (sessionId : String) :
    Except PyExc RawSession := do
  let state ← disk.getSession app.repository sessionId
  app.hydrate sessionId state

/-! ## What it raises -/

/-- A file that `json.load` reads, or fails to read with what is contained. -/
def JsonFits [SchemaCodec] (disk : Disk) (path : List String) : Prop :=
  ∀ content e, disk path = .text content → SchemaCodec.loads content = .error (.other e) →
    e.Contained

/-- A strategy the resolution can look into, and whose configuration fits if it has one. -/
def StrategyFits [SchemaCodec] (disk : Disk) (baseDir : List String) : Json → Prop
  | .obj entries => ∀ v ∈ entries.lookup "completion_config", ConfigFits disk v baseDir
  | .arr items => ∀ item ∈ items, ¬ item.isText "completion_config"
  | .str s => ¬ "completion_config".toList <:+: s.toList
  | _ => False

/-- An information file the resolution can look into: an object, with a configuration that
fits and, once that is resolved, a strategy that fits. -/
def InfoFits [SchemaCodec] (disk : Disk) (baseDir : List String) (raw : Json) : Prop :=
  raw.ObjectWith fun entries ↦
    (∀ v ∈ entries.lookup "completion_config", ConfigFits disk v baseDir) ∧
      ((∃ c, disk.resolveIn raw baseDir = .ok c) →
        ∀ v ∈ (entries.lookup "message_context_strategy").filter Json.truthy,
          StrategyFits disk baseDir v)

/-- What `int` converts, or rejects with a `ValueError`. -/
def IntFits : Json → Prop
  | .null => False
  | .infinity _ => False
  | .arr _ => False
  | .obj _ => False
  | _ => True

/-- What `UUID` parses, or rejects with a `ValueError`. -/
def AnchorFits (metadata : OrderedDict String Json) : Prop :=
  ∀ v ∈ metadata.get? "summary_anchor_id", v.truthy → v.PathWith fun _ ↦ True

/-- Metadata the factory can convert. -/
structure MetadataFits (strategyType : String) (metadata : OrderedDict String Json) : Prop where
  summary : strategyType = "summary" → IntFits ((metadata.get? "window_size").getD (.int 4)) ∧
    ((∃ n, ((metadata.get? "window_size").getD (.int 4)).toInt = .ok n) → AnchorFits metadata)
  slidingWindow : strategyType = "sliding_window" →
    IntFits ((metadata.get? "window_size").getD (.int 8))

section

open Py PyExc

theorem raisesOnly_initSummary (windowSize : ℤ) (prompt text : Json) (anchorId : Option UUID) :
    RaisesOnly Contained (RawStrategy.initSummary windowSize prompt text anchorId) := by
  rw [RawStrategy.initSummary]
  split
  · exact raisesOnly_error.mpr trivial
  · split
    · exact raisesOnly_error.mpr trivial
    · exact raisesOnly_ok _

theorem raisesOnly_initSlidingWindow (windowSize : ℤ) :
    RaisesOnly Contained (RawStrategy.initSlidingWindow windowSize) := by
  rw [RawStrategy.initSlidingWindow]
  split
  · exact raisesOnly_error.mpr trivial
  · exact raisesOnly_ok _

theorem raisesOnly_toInt (v : Json) : RaisesOnly Contained v.toInt ↔ IntFits v := by
  cases v with
  | null => exact raisesOnly_error
  | bool b => exact iff_of_true (raisesOnly_ok _) trivial
  | int n => exact iff_of_true (raisesOnly_ok _) trivial
  | float q => exact iff_of_true (raisesOnly_ok _) trivial
  | infinity negative => exact raisesOnly_error
  | nan => exact raisesOnly_error
  | str s =>
      rw [Json.toInt]
      split
      · exact iff_of_true (raisesOnly_ok _) trivial
      · exact raisesOnly_error
  | arr items => exact raisesOnly_error
  | obj entries => exact raisesOnly_error

theorem raisesOnly_parseAnchor (metadata : OrderedDict String Json) :
    RaisesOnly Contained (MessageContextStrategyFactory.parseAnchor metadata) ↔
      AnchorFits metadata := by
  rw [MessageContextStrategyFactory.parseAnchor, AnchorFits]
  cases metadata.get? "summary_anchor_id" with
  | none => exact iff_of_true (raisesOnly_ok none) fun v hv ↦ absurd hv (Option.not_mem_none v)
  | some v =>
      simp only [Option.mem_def, Option.some.injEq, forall_eq']
      split
      · rename_i htruthy
        refine Iff.trans ?_ (forall_prop_of_true htruthy).symm
        cases v with
        | str s =>
            refine iff_of_true (raisesOnly_map.mpr ?_) trivial
            exact MessageContextStrategyFactory.raisesOnly_parse (fun _ ↦ trivial) s
        | _ => exact raisesOnly_error
      · rename_i htruthy
        exact iff_of_true (raisesOnly_ok none) fun h ↦ (htruthy h).elim

theorem raisesOnly_build (strategyType : String) (metadata : OrderedDict String Json) :
    RaisesOnly Contained (RawStrategy.build strategyType metadata) ↔
      MetadataFits strategyType metadata := by
  rw [RawStrategy.build]
  split
  · rename_i htype
    subst htype
    exact iff_of_true (raisesOnly_ok _)
      ⟨fun h ↦ absurd h (by decide), fun h ↦ absurd h (by decide)⟩
  · split
    · rename_i htype
      subst htype
      have hrest : ∀ n prompt text, RaisesOnly Contained (do
          let parsedAnchor ← MessageContextStrategyFactory.parseAnchor metadata
          RawStrategy.initSummary n prompt text parsedAnchor) ↔ AnchorFits metadata := by
        intro n prompt text
        refine Iff.trans raisesOnly_bind (Iff.trans ?_ (raisesOnly_parseAnchor metadata))
        exact and_iff_left fun anchor _ ↦ raisesOnly_initSummary _ _ _ _
      refine Iff.trans raisesOnly_bind ?_
      constructor
      · rintro ⟨hint, hanchor⟩
        refine ⟨fun _ ↦ ⟨(raisesOnly_toInt _).mp hint, ?_⟩, fun h ↦ absurd h (by decide)⟩
        rintro ⟨n, hn⟩
        exact (hrest n _ _).mp (hanchor n hn)
      · rintro ⟨hsummary, -⟩
        obtain ⟨hint, hanchor⟩ := hsummary rfl
        refine ⟨(raisesOnly_toInt _).mpr hint, ?_⟩
        intro n hn
        exact (hrest n _ _).mpr (hanchor ⟨n, hn⟩)
    · split
      · rename_i htype
        subst htype
        refine Iff.trans raisesOnly_bind ?_
        refine Iff.trans (and_iff_left fun n _ ↦ raisesOnly_initSlidingWindow n) ?_
        refine Iff.trans (raisesOnly_toInt _) ?_
        constructor
        · exact fun h ↦ ⟨fun h' ↦ absurd h' (by decide), fun _ ↦ h⟩
        · exact fun h ↦ h.slidingWindow rfl
      · rename_i hsummary hsliding
        refine iff_of_true (raisesOnly_error.mpr trivial) ⟨?_, ?_⟩
        · exact fun h ↦ (hsummary h).elim
        · exact fun h ↦ (hsliding h).elim

section

variable [SchemaCodec] (disk : Disk) (baseDir : List String)

theorem raisesOnly_loadJson (path : List String) :
    RaisesOnly Contained (disk.loadJson path) ↔ JsonFits disk path := by
  rw [Disk.loadJson, JsonFits]
  cases disk path with
  | text content =>
      simp only [FileRead.text.injEq]
      cases hloads : SchemaCodec.loads content with
      | ok v =>
          refine iff_of_true (raisesOnly_ok v) ?_
          rintro _ e rfl he
          cases hloads.symm.trans he
      | error e =>
          cases e with
          | decodeError message =>
              refine iff_of_true (raisesOnly_error.mpr trivial) ?_
              rintro _ e rfl he
              cases hloads.symm.trans he
          | other e =>
              refine Iff.trans raisesOnly_error ?_
              constructor
              · rintro h _ e' rfl he'
                cases hloads.symm.trans he'
                exact h
              · intro h
                exact h content e rfl hloads
  | absent => exact iff_of_true (raisesOnly_error.mpr trivial) nofun
  | denied => exact iff_of_true (raisesOnly_error.mpr trivial) nofun
  | failed message => exact iff_of_true (raisesOnly_error.mpr trivial) nofun
  | undecodable message => exact iff_of_true (raisesOnly_error.mpr trivial) nofun

theorem raisesOnly_resolveIn (v : Json) :
    RaisesOnly Contained (disk.resolveIn v baseDir) ↔ StrategyFits disk baseDir v := by
  cases v with
  | obj entries =>
      show RaisesOnly Contained (if (entries.lookup "completion_config").isSome then
          Json.getItem "completion_config" (.obj entries) >>= _ else .ok none) ↔
        ∀ v ∈ entries.lookup "completion_config", ConfigFits disk v baseDir
      rw [Json.getItem]
      cases entries.lookup "completion_config" with
      | none => exact iff_of_true (raisesOnly_ok none) nofun
      | some v =>
          simp only [Option.isSome_some, if_true, Option.mem_def, Option.some.injEq, forall_eq']
          exact raisesOnly_map.trans (raisesOnly_resolveCompletionConfig disk baseDir v)
  | arr items =>
      show RaisesOnly Contained (if items.any (Json.isText "completion_config") then
          Json.getItem "completion_config" (.arr items) >>= _ else .ok none) ↔
        ∀ item ∈ items, ¬ item.isText "completion_config"
      split
      · rename_i hany
        refine raisesOnly_error.trans (iff_of_false id ?_)
        obtain ⟨item, hitem, htext⟩ := List.any_eq_true.mp hany
        exact fun h ↦ h item hitem htext
      · rename_i hany
        refine iff_of_true (raisesOnly_ok none) ?_
        intro item hitem htext
        exact hany (List.any_eq_true.mpr ⟨item, hitem, htext⟩)
  | str s =>
      show RaisesOnly Contained (if decide ("completion_config".toList <:+: s.toList) then
          Json.getItem "completion_config" (.str s) >>= _ else .ok none) ↔
        ¬ "completion_config".toList <:+: s.toList
      split
      · rename_i hinfix
        refine raisesOnly_error.trans (iff_of_false id ?_)
        exact not_not_intro (of_decide_eq_true hinfix)
      · rename_i hinfix
        exact iff_of_true (raisesOnly_ok none) fun h ↦ hinfix (decide_eq_true h)
  | _ => exact raisesOnly_error

/-- What is no object either cannot be looked into, or has no `get`. -/
theorem resolveIn_of_not_obj {v : Json} (hv : ∀ entries, v ≠ .obj entries)
    (h : RaisesOnly Contained (disk.resolveIn v baseDir)) :
    disk.resolveIn v baseDir = .ok none := by
  rw [raisesOnly_resolveIn] at h
  cases v with
  | obj entries => exact absurd rfl (hv entries)
  | arr items =>
      show (if items.any (Json.isText "completion_config") then _ else _) = _
      rw [if_neg]
      intro hany
      obtain ⟨item, hitem, htext⟩ := List.any_eq_true.mp hany
      exact h item hitem htext
  | str s =>
      show (if decide ("completion_config".toList <:+: s.toList) then _ else _) = _
      rw [if_neg]
      exact fun hinfix ↦ h (of_decide_eq_true hinfix)
  | _ => exact h.elim

theorem raisesOnly_resolveInfo (raw : Json) :
    RaisesOnly Contained (disk.resolveInfo raw baseDir) ↔ InfoFits disk baseDir raw := by
  refine raisesOnly_bind.trans ?_
  cases hraw : raw with
  | obj entries =>
      rw [raisesOnly_resolveIn]
      refine and_congr Iff.rfl ?_
      have hrest : ∀ completionConfig : Option RawConfig, RaisesOnly Contained (
          match (entries.lookup "message_context_strategy").filter Json.truthy with
          | none => return ⟨.obj entries, completionConfig, none⟩
          | some strategy => do
              let strategyCompletionConfig ← disk.resolveIn strategy baseDir
              return (⟨.obj entries, completionConfig, strategyCompletionConfig⟩ : RawInfo)) ↔
          ∀ v ∈ (entries.lookup "message_context_strategy").filter Json.truthy,
            StrategyFits disk baseDir v := by
        intro completionConfig
        cases (entries.lookup "message_context_strategy").filter Json.truthy with
        | none => exact iff_of_true (raisesOnly_ok _) nofun
        | some strategy =>
            simp only [Option.mem_def, Option.some.injEq, forall_eq']
            refine Iff.trans raisesOnly_bind (Iff.trans ?_ (raisesOnly_resolveIn disk baseDir _))
            exact and_iff_left fun c _ ↦ raisesOnly_ok _
      constructor
      · rintro h ⟨c, hc⟩
        exact (hrest c).mp (h c hc)
      · intro h c hc
        exact (hrest c).mpr (h ⟨c, hc⟩)
  | _ =>
      refine iff_of_false ?_ id
      rintro ⟨hin, hget⟩
      exact raisesOnly_error.mp (hget none (resolveIn_of_not_obj disk baseDir nofun hin))

end

theorem raisesOnly_validated {α : Type} (x : Except String α) :
    RaisesOnly Contained (validated x) := by
  cases x with
  | ok a => exact raisesOnly_ok a
  | error message => exact raisesOnly_error.mpr trivial

/-- Identifiers that are none are reported as `ValueError`. -/
theorem raisesOnly_toRecord (d : MessageRecordDto) : RaisesOnly Contained d.toRecord := by
  have hparse : ∀ text, RaisesOnly Contained (UUID.parse text) :=
    MessageContextStrategyFactory.raisesOnly_parse fun _ ↦ trivial
  obtain ⟨id, prevId, message⟩ := d
  refine raisesOnly_bind.mpr ⟨hparse id, fun id _ ↦ ?_⟩
  cases prevId with
  | none => exact raisesOnly_ok _
  | some text =>
      refine raisesOnly_bind.mpr ⟨raisesOnly_map.mpr (hparse text), ?_⟩
      exact fun prevId _ ↦ raisesOnly_ok _

theorem raisesOnly_stateOfDtos (id : String) (info : SessionInfoDto)
    (messages : SessionMessagesDto) :
    RaisesOnly Contained (SessionFileAdapter.stateOfDtos id info messages) := by
  rw [SessionFileAdapter.stateOfDtos]
  split
  · exact raisesOnly_error.mpr trivial
  · refine raisesOnly_bind.mpr ⟨?_, fun records _ ↦ raisesOnly_ok _⟩
    refine (raisesOnly_mapM (Q := fun _ ↦ True) (fun d ↦ ?_) _).mpr ?_
    · exact iff_of_true (raisesOnly_toRecord d) trivial
    · induction messages.records with
      | nil => trivial
      | cons d records ih => exact ⟨trivial, fun _ ↦ ih⟩

end

/-! ## Which contents are handled -/

/-- The directory of a session holds a document that pydantic takes for its information. -/
def HoldsInfo [RawCodec] (disk : Disk) (dir : List String) (info : SessionInfoDto) : Prop :=
  ∃ raw resolved, disk.loadJson (dir ++ [SessionFileAdapter.sessionInfo]) = .ok raw ∧
    disk.resolveInfo raw dir = .ok resolved ∧ RawCodec.validateInfo resolved = .ok info

/-- It holds a document that pydantic takes for its messages. -/
def HoldsMessages [RawCodec] (disk : Disk) (dir : List String) (messages : SessionMessagesDto) :
    Prop :=
  ∃ raw, disk.loadJson (dir ++ [SessionFileAdapter.sessionMessages]) = .ok raw ∧
    RawCodec.validateMessages raw = .ok messages

/-- A session can be built: its LLMs can be made, and its metadata converted. -/
structure UseCaseFits [LlmPortFactory] (sessionId : String) (state : SessionState) : Prop where
  llm : Py.RaisesOnly PyExc.Contained (LlmPortFactory.create sessionId state.completionConfig)
  strategyLlm : (∃ llm, LlmPortFactory.create sessionId state.completionConfig = .ok llm) →
    Py.RaisesOnly PyExc.Contained (LlmPortFactory.create sessionId state.strategyCompletionConfig)
  metadata : (∃ llm, LlmPortFactory.create sessionId state.completionConfig = .ok llm) →
    (∃ llm, LlmPortFactory.create sessionId state.strategyCompletionConfig = .ok llm) →
      MetadataFits state.strategyType state.strategyMetadata

/-- The contents that are handled.  Whatever the two files are, `json.load` fails on them with
a `ValueError` at most; the information can be looked into, and its resources loaded; and if
both documents are accepted, a session can be built of them. -/
structure SessionFits [RawCodec] [LlmPortFactory] (disk : Disk) (dir : List String)
    (sessionId : String) : Prop where
  info : JsonFits disk (dir ++ [SessionFileAdapter.sessionInfo])
  shape : ∀ raw, disk.loadJson (dir ++ [SessionFileAdapter.sessionInfo]) = .ok raw →
    InfoFits disk dir raw
  messages : (∃ info, HoldsInfo disk dir info) →
    JsonFits disk (dir ++ [SessionFileAdapter.sessionMessages])
  useCase : ∀ info messages state, HoldsInfo disk dir info → HoldsMessages disk dir messages →
    SessionFileAdapter.stateOfDtos sessionId info messages = .ok state →
      UseCaseFits sessionId state

section

open Py PyExc

theorem raisesOnly_getSession [RawCodec] (disk : Disk) (a : SessionFileAdapter) (id : String) :
    RaisesOnly Contained (disk.getSession a id) ↔
      JsonFits disk (a.sessionDir id ++ [SessionFileAdapter.sessionInfo]) ∧
      (∀ raw, disk.loadJson (a.sessionDir id ++ [SessionFileAdapter.sessionInfo]) = .ok raw →
        InfoFits disk (a.sessionDir id) raw) ∧
      ((∃ info, HoldsInfo disk (a.sessionDir id) info) →
        JsonFits disk (a.sessionDir id ++ [SessionFileAdapter.sessionMessages])) := by
  have hmessages : ∀ info, RaisesOnly Contained (do
      let rawMessages ←
        disk.loadJson (a.sessionDir id ++ [SessionFileAdapter.sessionMessages])
      let messages ← validated (RawCodec.validateMessages rawMessages)
      SessionFileAdapter.stateOfDtos id info messages) ↔
        JsonFits disk (a.sessionDir id ++ [SessionFileAdapter.sessionMessages]) := by
    intro info
    refine Iff.trans raisesOnly_bind (Iff.trans ?_ (raisesOnly_loadJson disk _))
    refine and_iff_left fun rawMessages _ ↦ ?_
    refine raisesOnly_bind.mpr ⟨raisesOnly_validated _, fun messages _ ↦ ?_⟩
    exact raisesOnly_stateOfDtos id info messages
  refine Iff.trans raisesOnly_bind (and_congr (raisesOnly_loadJson disk _) ?_)
  constructor
  · intro h
    refine ⟨fun raw hraw ↦ ?_, ?_⟩
    · exact (raisesOnly_resolveInfo disk _ raw).mp (raisesOnly_bind.mp (h raw hraw)).1
    · rintro ⟨info, raw, resolved, hraw, hresolved, hinfo⟩
      have hvalidate := (raisesOnly_bind.mp (h raw hraw)).2 resolved hresolved
      refine (hmessages info).mp ((raisesOnly_bind.mp hvalidate).2 info ?_)
      rw [hinfo]
      rfl
  · rintro ⟨hshape, hjson⟩ raw hraw
    refine raisesOnly_bind.mpr ⟨(raisesOnly_resolveInfo disk _ raw).mpr (hshape raw hraw), ?_⟩
    intro resolved hresolved
    refine raisesOnly_bind.mpr ⟨raisesOnly_validated _, fun info hinfo ↦ ?_⟩
    refine (hmessages info).mpr (hjson ⟨info, raw, resolved, hraw, hresolved, ?_⟩)
    cases hvalidate : RawCodec.validateInfo resolved with
    | ok info' =>
        rw [hvalidate] at hinfo
        cases hinfo
        rfl
    | error message =>
        rw [hvalidate] at hinfo
        cases hinfo

theorem validated_eq_ok {α : Type} {x : Except String α} {b : α} :
    validated x = .ok b ↔ x = .ok b := by
  cases x with
  | ok a => exact ⟨fun h ↦ congrArg _ (Except.ok.inj h), fun h ↦ congrArg _ (Except.ok.inj h)⟩
  | error message => exact ⟨nofun, nofun⟩

/-- What is loaded is made of the two documents. -/
theorem getSession_eq_ok [RawCodec] {disk : Disk} {a : SessionFileAdapter} {id : String}
    {state : SessionState} : disk.getSession a id = .ok state ↔
      ∃ info messages, HoldsInfo disk (a.sessionDir id) info ∧
        HoldsMessages disk (a.sessionDir id) messages ∧
        SessionFileAdapter.stateOfDtos id info messages = .ok state := by
  constructor
  · intro h
    obtain ⟨raw, hraw, h⟩ := bind_eq_ok.mp h
    obtain ⟨resolved, hresolved, h⟩ := bind_eq_ok.mp h
    obtain ⟨info, hinfo, h⟩ := bind_eq_ok.mp h
    obtain ⟨rawMessages, hrawMessages, h⟩ := bind_eq_ok.mp h
    obtain ⟨messages, hmessages, h⟩ := bind_eq_ok.mp h
    exact ⟨info, messages, ⟨raw, resolved, hraw, hresolved, validated_eq_ok.mp hinfo⟩,
      ⟨rawMessages, hrawMessages, validated_eq_ok.mp hmessages⟩, h⟩
  · rintro ⟨info, messages, ⟨raw, resolved, hraw, hresolved, hinfo⟩, ⟨rawMessages, hrawMessages,
      hmessages⟩, h⟩
    refine bind_eq_ok.mpr ⟨raw, hraw, bind_eq_ok.mpr ⟨resolved, hresolved, ?_⟩⟩
    refine bind_eq_ok.mpr ⟨info, validated_eq_ok.mpr hinfo, ?_⟩
    refine bind_eq_ok.mpr ⟨rawMessages, hrawMessages, ?_⟩
    exact bind_eq_ok.mpr ⟨messages, validated_eq_ok.mpr hmessages, h⟩

theorem raisesOnly_hydrate [LlmPortFactory] (app : App) (sessionId : String)
    (state : SessionState) :
    RaisesOnly Contained (app.hydrate sessionId state) ↔ UseCaseFits sessionId state := by
  have hbuild : ∀ f : RawStrategy → RawSession, RaisesOnly Contained (do
      let strategy ← RawStrategy.build state.strategyType state.strategyMetadata
      return f strategy) ↔ MetadataFits state.strategyType state.strategyMetadata := by
    intro f
    refine Iff.trans raisesOnly_bind (Iff.trans ?_ (raisesOnly_build _ _))
    exact and_iff_left fun strategy _ ↦ raisesOnly_ok _
  refine Iff.trans raisesOnly_bind ?_
  constructor
  · rintro ⟨hllm, hrest⟩
    refine ⟨hllm, ?_, ?_⟩
    · rintro ⟨llm, h⟩
      exact (raisesOnly_bind.mp (hrest llm h)).1
    · rintro ⟨llm, h⟩ ⟨strategyLlm, h'⟩
      exact (hbuild _).mp ((raisesOnly_bind.mp (hrest llm h)).2 strategyLlm h')
  · rintro ⟨hllm, hstrategyLlm, hmetadata⟩
    refine ⟨hllm, fun llm h ↦ raisesOnly_bind.mpr ⟨hstrategyLlm ⟨llm, h⟩, ?_⟩⟩
    intro strategyLlm h'
    exact (hbuild _).mpr (hmetadata ⟨llm, h⟩ ⟨strategyLlm, h'⟩)

theorem raisesOnly_execute [RawCodec] [LlmPortFactory] (app : App) (disk : Disk)
    (sessionId : String) : RaisesOnly Contained (app.execute disk sessionId) ↔
      SessionFits disk (app.repository.sessionDir sessionId) sessionId := by
  refine Iff.trans raisesOnly_bind ?_
  rw [raisesOnly_getSession]
  constructor
  · rintro ⟨⟨hinfo, hshape, hmessages⟩, hrest⟩
    refine ⟨hinfo, hshape, hmessages, ?_⟩
    intro info messages state hholds hholds' h
    refine (raisesOnly_hydrate app sessionId state).mp (hrest state (getSession_eq_ok.mpr ?_))
    exact ⟨info, messages, hholds, hholds', h⟩
  · rintro ⟨hinfo, hshape, hmessages, huse⟩
    refine ⟨⟨hinfo, hshape, hmessages⟩, fun state h ↦ ?_⟩
    obtain ⟨info, messages, hholds, hholds', h⟩ := getSession_eq_ok.mp h
    exact (raisesOnly_hydrate app sessionId state).mpr (huse info messages state hholds hholds' h)

end
