import ChatServer.Domain.Llm
import ChatServer.Python.Format
import ChatServer.Python.Json
import ChatServer.Python.Uuid

/-!
# Message context strategies

The package `domain/model/context_strategy`: the base class with its record
list, the three strategies, and the factory that rebuilds them from metadata.

A strategy is immutable here and every method returns the strategy it leaves
behind.  The bounds the constructors check are fields of the structures.
`uuid4()` is an argument of the two operations that draw an identifier.

`SummaryStrategy.update_context` suspends while the summarisation LLM answers,
so it is cut at that point: `updateContextBegin` decides whether to call and
with what, `updateContextEnd` stores the answer.  `updateContext` runs the two
over a whole stream.
-/

/-! ## Records and the base class -/

/-- `MessageRecord`. -/
structure MessageRecord where
  id : UUID
  prevId : Option UUID
  message : Message
deriving DecidableEq

/-- What `MessageContextStrategy.__init__` stores. -/
structure StrategyBase where
  llm : LlmPort
  completionConfig : CompletionConfig
  records : List MessageRecord
deriving DecidableEq

namespace StrategyBase

/-- Append a record linked to the last one: the common body of `add_user_query`
and `add_model_response`. -/
def append (b : StrategyBase) (role content : String) (uuid4 : UUID) : StrategyBase :=
  { b with records := b.records ++
      [⟨uuid4, b.records.getLast?.map (·.id), Message.of role content⟩] }

/-- `add_user_query`. -/
def addUserQuery (b : StrategyBase) (content : String) (uuid4 : UUID) : StrategyBase :=
  b.append "user" content uuid4

/-- `add_model_response`. -/
def addModelResponse (b : StrategyBase) (content : String) (uuid4 : UUID) : StrategyBase :=
  b.append "assistant" content uuid4

end StrategyBase

/-! ## The strategies -/

/-- `DummyStrategy`. -/
structure DummyStrategy extends StrategyBase
deriving DecidableEq

/-- `SlidingWindowStrategy`. -/
@[ext]
structure SlidingWindowStrategy extends StrategyBase where
  windowSize : ℕ
  windowSize_pos : 1 ≤ windowSize

instance : DecidableEq SlidingWindowStrategy := fun _ _ ↦
  decidable_of_iff' _ SlidingWindowStrategy.ext_iff

/-- `Summary`. -/
structure Summary where
  text : String
  anchorId : Option UUID
deriving DecidableEq, Repr

/-- `SummaryStrategy`. -/
@[ext]
structure SummaryStrategy extends StrategyBase where
  windowSize : ℕ
  summarizationPrompt : String
  summary : Summary
  windowSize_pos : 1 ≤ windowSize
  summarizationPrompt_ne : summarizationPrompt ≠ ""

instance : DecidableEq SummaryStrategy := fun _ _ ↦ decidable_of_iff' _ SummaryStrategy.ext_iff

/-- What a call of `acompletion` answers when it is consumed to its end: its
events, and the exception that cut it short if there was one. -/
structure LlmStream where
  events : List CompletionEvent
  raises : Option PyExc := none
deriving DecidableEq, Repr

namespace LlmStream

/-- The text assembled from the chunks. -/
def text (s : LlmStream) : String := String.join (s.events.map (·.text))

end LlmStream

namespace DummyStrategy

/-- `get_context`. -/
def getContext (s : DummyStrategy) : List Message := s.records.map (·.message)

end DummyStrategy

namespace SlidingWindowStrategy

/-- `SlidingWindowStrategy.__init__`. -/
def init (windowSize : ℤ) (llm : LlmPort) (completionConfig : CompletionConfig)
    (records : List MessageRecord) : Except PyExc SlidingWindowStrategy :=
  if h : windowSize < 1 then
    .error (.valueError s!"SlidingWindowStrategy. window_size must be >= 1, got {windowSize}")
  else
    .ok { llm, completionConfig, records, windowSize := windowSize.toNat,
          windowSize_pos := Py.one_le_toNat h }

theorem base_init {windowSize : ℤ} {llm : LlmPort} {completionConfig : CompletionConfig}
    {records : List MessageRecord} {s : SlidingWindowStrategy}
    (h : init windowSize llm completionConfig records = .ok s) :
    s.toStrategyBase = ⟨llm, completionConfig, records⟩ := by
  unfold init at h
  split at h
  · cases h
  · cases h
    rfl

/-- `get_context`: `self._records[-self._window_size:]`. -/
def getContext (s : SlidingWindowStrategy) : List Message :=
  (s.records.drop (s.records.length - s.windowSize)).map (·.message)

end SlidingWindowStrategy

namespace SummaryStrategy

/-- `SummaryStrategy.__init__`. -/
def init (windowSize : ℤ) (summarizationPrompt : Option String) (llm : Option LlmPort)
    (completionConfig : CompletionConfig) (records : List MessageRecord)
    (summary : Option Summary) : Except PyExc SummaryStrategy :=
  if h : windowSize < 1 then
    .error (.valueError s!"SummaryStrategy. window_size must be >= 1, got {windowSize}")
  else
    match llm with
    | none => .error (.valueError "SummaryStrategy. LlmPort object is None")
    | some llm =>
        let prompt := summarizationPrompt.getD ""
        if hp : prompt = "" then
          .error (.valueError "SummaryStrategy. summarization_prompt must be not empty string")
        else
          .ok { llm, completionConfig, records, windowSize := windowSize.toNat,
                summarizationPrompt := prompt, summary := summary.getD ⟨"", none⟩,
                windowSize_pos := Py.one_le_toNat h, summarizationPrompt_ne := hp }

/-- A strategy with a window of `n + 1` records, to evaluate runs with. -/
def sampleOf (llm : LlmPort) (n : ℕ) : SummaryStrategy :=
  ⟨⟨llm, .sample, []⟩, n + 1, "Summarise %s", ⟨"", none⟩, Nat.succ_pos n, by decide⟩

theorem base_init {windowSize : ℤ} {prompt : Option String} {llm : LlmPort}
    {completionConfig : CompletionConfig} {records : List MessageRecord}
    {summary : Option Summary} {s : SummaryStrategy}
    (h : init windowSize prompt (some llm) completionConfig records summary = .ok s) :
    s.toStrategyBase = ⟨llm, completionConfig, records⟩ := by
  simp only [init] at h
  split at h
  · cases h
  · split at h
    · cases h
    · cases h
      rfl

/-- The records after the anchor: all of them when there is no anchor, or when it
is not the id of any record. -/
def recordsAfterAnchor (s : SummaryStrategy) : List MessageRecord :=
  match s.summary.anchorId with
  | none => s.records
  | some anchor =>
      match s.records.findIdx? fun r ↦ r.id = anchor with
      | some anchorIndex => s.records.drop (anchorIndex + 1)
      | none => s.records

/-- `input_for_summarization`: the previous summary, if it has any text, and the
messages since. -/
def inputForSummarization (s : SummaryStrategy) : List Message :=
  (if s.summary.text ≠ "" then [Message.of "user" s.summary.text] else []) ++
    s.recordsAfterAnchor.map (·.message)

/-- `llm_input`: the system prompt, if any, and one user message made by the `%`
operator from the summarisation prompt. -/
def llmInput [UnicodeData] (s : SummaryStrategy) : Except PyExc (List Message) := do
  let content ← Py.percent s.summarizationPrompt
    (Py.strMessages (s.inputForSummarization.map (·.entries)))
  let system :=
    match s.completionConfig.systemPrompt with
    | some p => if p ≠ "" then [Message.of "system" p] else []
    | none => []
  return system ++ [Message.of "user" content]

/-- `update_context` up to its LLM call: the request, if the window is full. -/
def updateContextBegin [UnicodeData] (s : SummaryStrategy) : Except PyExc (Option LlmRequest) :=
  if s.windowSize ≤ s.recordsAfterAnchor.length then do
    let llmInput ← s.llmInput
    return some ⟨llmInput, s.completionConfig, false⟩
  else .ok none

/-- `update_context` after its LLM call: the answer becomes the summary, anchored
at the last record. -/
def updateContextEnd (s : SummaryStrategy) (assistantText : String) :
    Except PyExc SummaryStrategy :=
  match s.records.getLast? with
  | some last => .ok { s with summary := ⟨assistantText, some last.id⟩ }
  | none => .error (.indexError "list index out of range")

/-- `update_context`, when the LLM answers with `stream`. -/
def updateContext [UnicodeData] (s : SummaryStrategy) (stream : LlmStream) :
    Except PyExc SummaryStrategy :=
  match s.updateContextBegin with
  | .error e => .error e
  | .ok none => .ok s
  | .ok (some _) =>
      match stream.raises with
      | some e => .error e
      | none => s.updateContextEnd stream.text

/-- `get_context`. -/
def getContext (s : SummaryStrategy) : List Message :=
  match s.summary.anchorId with
  | none => s.records.map (·.message)
  | some _ =>
      if s.summary.text ≠ "" then
        Message.of "user" s.summary.text :: s.recordsAfterAnchor.map (·.message)
      else s.recordsAfterAnchor.map (·.message)

/-- `get_metadata`. -/
def getMetadata (s : SummaryStrategy) : OrderedDict String Json :=
  (((((∅ : OrderedDict String Json).set "window_size" (.int s.windowSize)).set
    "summary_text" (.str s.summary.text)).set
    "summary_anchor_id"
      (match s.summary.anchorId with
        | some anchor => .str anchor.str
        | none => .null)).set
    "summarization_prompt" (.str s.summarizationPrompt))

end SummaryStrategy

/-! ## The sum of the strategies -/

/-- `MessageContextStrategy`: one of the three. -/
inductive MessageContextStrategy where
  | dummy (s : DummyStrategy)
  | slidingWindow (s : SlidingWindowStrategy)
  | summary (s : SummaryStrategy)
deriving DecidableEq

namespace MessageContextStrategy

/-- The part every strategy inherits. -/
def base : MessageContextStrategy → StrategyBase
  | dummy s => s.toStrategyBase
  | slidingWindow s => s.toStrategyBase
  | summary s => s.toStrategyBase

/-- The same strategy on another base. -/
def withBase (b : StrategyBase) : MessageContextStrategy → MessageContextStrategy
  | dummy s => dummy { s with toStrategyBase := b }
  | slidingWindow s => slidingWindow { s with toStrategyBase := b }
  | summary s => summary { s with toStrategyBase := b }

/-- `add_user_query`. -/
def addUserQuery (s : MessageContextStrategy) (content : String) (uuid4 : UUID) :
    MessageContextStrategy := s.withBase (s.base.addUserQuery content uuid4)

/-- `add_model_response`. -/
def addModelResponse (s : MessageContextStrategy) (content : String) (uuid4 : UUID) :
    MessageContextStrategy := s.withBase (s.base.addModelResponse content uuid4)

/-- `get_history`. -/
def getHistory (s : MessageContextStrategy) : List MessageRecord := s.base.records

/-- `llm`. -/
def llm (s : MessageContextStrategy) : LlmPort := s.base.llm

/-- `completion_config`. -/
def completionConfig (s : MessageContextStrategy) : CompletionConfig := s.base.completionConfig

/-- `strategy_type`. -/
def strategyType : MessageContextStrategy → String
  | dummy _ => "dummy"
  | slidingWindow _ => "sliding_window"
  | summary _ => "summary"

/-- `get_metadata`. -/
def getMetadata : MessageContextStrategy → OrderedDict String Json
  | dummy _ => ∅
  | slidingWindow s => (∅ : OrderedDict String Json).set "window_size" (.int s.windowSize)
  | summary s => s.getMetadata

/-- `get_context`. -/
def getContext : MessageContextStrategy → List Message
  | dummy s => s.getContext
  | slidingWindow s => s.getContext
  | summary s => s.getContext

/-- `update_context` up to its LLM call; only the summary strategy makes one. -/
def updateContextBegin [UnicodeData] :
    MessageContextStrategy → Except PyExc (Option LlmRequest)
  | dummy _ => .ok none
  | slidingWindow _ => .ok none
  | summary s => s.updateContextBegin

/-- `update_context` after its LLM call. -/
def updateContextEnd (assistantText : String) :
    MessageContextStrategy → Except PyExc MessageContextStrategy
  | dummy s => .ok (dummy s)
  | slidingWindow s => .ok (slidingWindow s)
  | summary s => (s.updateContextEnd assistantText).map summary

@[simp] theorem base_withBase (b : StrategyBase) (s : MessageContextStrategy) :
    (s.withBase b).base = b := by
  cases s <;> rfl

@[simp] theorem getHistory_addUserQuery (s : MessageContextStrategy) (content : String)
    (uuid4 : UUID) : (s.addUserQuery content uuid4).getHistory =
      s.getHistory ++
        [⟨uuid4, s.getHistory.getLast?.map (·.id), Message.of "user" content⟩] := by
  rw [getHistory, addUserQuery, base_withBase]
  rfl

@[simp] theorem getHistory_addModelResponse (s : MessageContextStrategy) (content : String)
    (uuid4 : UUID) : (s.addModelResponse content uuid4).getHistory =
      s.getHistory ++
        [⟨uuid4, s.getHistory.getLast?.map (·.id), Message.of "assistant" content⟩] := by
  rw [getHistory, addModelResponse, base_withBase]
  rfl

@[simp] theorem llm_addUserQuery (s : MessageContextStrategy) (content : String)
    (uuid4 : UUID) : (s.addUserQuery content uuid4).llm = s.llm := by
  rw [llm, addUserQuery, base_withBase]
  rfl

@[simp] theorem llm_addModelResponse (s : MessageContextStrategy) (content : String)
    (uuid4 : UUID) : (s.addModelResponse content uuid4).llm = s.llm := by
  rw [llm, addModelResponse, base_withBase]
  rfl

@[simp] theorem completionConfig_addUserQuery (s : MessageContextStrategy) (content : String)
    (uuid4 : UUID) : (s.addUserQuery content uuid4).completionConfig = s.completionConfig := by
  rw [completionConfig, addUserQuery, base_withBase]
  rfl

@[simp] theorem completionConfig_addModelResponse (s : MessageContextStrategy)
    (content : String) (uuid4 : UUID) :
    (s.addModelResponse content uuid4).completionConfig = s.completionConfig := by
  rw [completionConfig, addModelResponse, base_withBase]
  rfl

/-- Storing a summary touches nothing the strategies share. -/
theorem base_updateContextEnd {s s' : MessageContextStrategy} {text : String}
    (h : s.updateContextEnd text = .ok s') : s'.base = s.base := by
  cases s with
  | dummy s => cases h; rfl
  | slidingWindow s => cases h; rfl
  | summary s =>
      simp only [updateContextEnd, SummaryStrategy.updateContextEnd] at h
      cases hl : s.records.getLast? with
      | none => rw [hl] at h; cases h
      | some last => rw [hl] at h; cases h; rfl

end MessageContextStrategy

/-! ## The factory -/

namespace MessageContextStrategyFactory

/-- `metadata.get(key, "")` where the source expects a text.  It stores a value of
another type unchecked, as `RawStrategy.build` does; here such metadata is refused. -/
def getText (metadata : OrderedDict String Json) (key : String) :
    Except PyExc (Option String) :=
  match metadata.get? key with
  | none => .ok (some "")
  | some .null => .ok none
  | some (.str s) => .ok (some s)
  | some v => .error (.typeError s!"{key} is a {v.typeName}")

/-- `UUID(raw_anchor_id) if raw_anchor_id else None`. -/
def parseAnchor (metadata : OrderedDict String Json) : Except PyExc (Option UUID) :=
  match metadata.get? "summary_anchor_id" with
  | none => .ok none
  | some raw =>
      if raw.truthy then
        match raw with
        | .str s => (UUID.parse s).map some
        | v => .error (.attributeError s!"'{v.typeName}' object has no attribute 'replace'")
      else .ok none

/-- `MessageContextStrategyFactory.build`. -/
def build (strategyType : String) (metadata : OrderedDict String Json)
    (records : List MessageRecord) (llm : LlmPort) (completionConfig : CompletionConfig) :
    Except PyExc MessageContextStrategy :=
  if strategyType = "dummy" then .ok (.dummy { llm, completionConfig, records })
  else if strategyType = "summary" then do
    let windowSize ← ((metadata.get? "window_size").getD (.int 4)).toInt
    let summaryText ← getText metadata "summary_text"
    let parsedAnchor ← parseAnchor metadata
    let summarizationPrompt ← getText metadata "summarization_prompt"
    let s ← SummaryStrategy.init windowSize summarizationPrompt (some llm) completionConfig
      records (some ⟨summaryText.getD "", parsedAnchor⟩)
    return .summary s
  else if strategyType = "sliding_window" then do
    let windowSize ← ((metadata.get? "window_size").getD (.int 8)).toInt
    let s ← SlidingWindowStrategy.init windowSize llm completionConfig records
    return .slidingWindow s
  else .error (.valueError s!"Unknown strategy type: '{strategyType}'")

/-- Whatever the type and metadata, a strategy that is built holds exactly the
handle, configuration and records it was built from. -/
theorem base_build {strategyType : String} {metadata : OrderedDict String Json}
    {records : List MessageRecord} {llm : LlmPort} {completionConfig : CompletionConfig}
    {s : MessageContextStrategy}
    (h : build strategyType metadata records llm completionConfig = .ok s) :
    s.base = ⟨llm, completionConfig, records⟩ := by
  unfold build at h
  split at h
  · cases h
    rfl
  · split at h
    · obtain ⟨windowSize, -, h⟩ := Py.bind_eq_ok.mp h
      obtain ⟨summaryText, -, h⟩ := Py.bind_eq_ok.mp h
      obtain ⟨anchor, -, h⟩ := Py.bind_eq_ok.mp h
      obtain ⟨prompt, -, h⟩ := Py.bind_eq_ok.mp h
      obtain ⟨t, ht, h⟩ := Py.bind_eq_ok.mp h
      cases h
      exact SummaryStrategy.base_init ht
    · split at h
      · obtain ⟨windowSize, -, h⟩ := Py.bind_eq_ok.mp h
        obtain ⟨t, ht, h⟩ := Py.bind_eq_ok.mp h
        cases h
        exact SlidingWindowStrategy.base_init ht
      · cases h

/-! ### What it raises -/

section

variable {P : PyExc → Prop} {metadata : OrderedDict String Json} {records : List MessageRecord}
  {completionConfig : CompletionConfig}

theorem raisesOnly_toInt (hvalue : ∀ message, P (.valueError message))
    (htype : ∀ message, P (.typeError message)) (hother : ∀ cls message, P (.other cls message))
    (v : Json) : Py.RaisesOnly P v.toInt := by
  intro e he
  unfold Json.toInt at he
  split at he
  · cases he
  · cases he
  · cases he
  · cases he
    exact hother _ _
  · cases he
    exact hvalue _
  · split at he
    · cases he
    · cases he
      exact hvalue _
  · cases he
    exact htype _

theorem raisesOnly_getText (htype : ∀ message, P (.typeError message)) (key : String) :
    Py.RaisesOnly P (getText metadata key) := by
  intro e he
  unfold getText at he
  split at he
  · cases he
  · cases he
  · cases he
  · cases he
    exact htype _

theorem raisesOnly_parse (hvalue : ∀ message, P (.valueError message)) (text : String) :
    Py.RaisesOnly P (UUID.parse text) := by
  intro e he
  simp only [UUID.parse] at he
  split at he
  · split at he
    · cases he
      exact hvalue _
    · split at he
      · cases he
      · cases he
        exact hvalue _
  · cases he
    exact hvalue _

theorem raisesOnly_parseAnchor (hvalue : ∀ message, P (.valueError message))
    (hattribute : ∀ message, P (.attributeError message)) :
    Py.RaisesOnly P (parseAnchor metadata) := by
  intro e he
  unfold parseAnchor at he
  split at he
  · cases he
  · split at he
    · split at he
      · rename_i text _ _
        cases hparse : UUID.parse text with
        | ok u =>
            rw [hparse] at he
            cases he
        | error e' =>
            rw [hparse] at he
            cases he
            exact raisesOnly_parse hvalue text e hparse
      · cases he
        exact hattribute _
    · cases he

theorem raisesOnly_summary (hvalue : ∀ message, P (.valueError message)) (windowSize : ℤ)
    (prompt : Option String) (llm : LlmPort) (summary : Summary) :
    Py.RaisesOnly P (SummaryStrategy.init windowSize prompt (some llm) completionConfig records
      (some summary)) := by
  intro e he
  simp only [SummaryStrategy.init] at he
  split at he
  · cases he
    exact hvalue _
  · split at he
    · cases he
      exact hvalue _
    · cases he

theorem raisesOnly_slidingWindow (hvalue : ∀ message, P (.valueError message)) (windowSize : ℤ)
    (llm : LlmPort) :
    Py.RaisesOnly P (SlidingWindowStrategy.init windowSize llm completionConfig records) := by
  intro e he
  unfold SlidingWindowStrategy.init at he
  split at he
  · cases he
    exact hvalue _
  · cases he

/-- The factory raises `ValueError`, `TypeError`, `AttributeError` and, for an infinite window,
`OverflowError`. -/
theorem raisesOnly_build (hvalue : ∀ message, P (.valueError message))
    (htype : ∀ message, P (.typeError message))
    (hattribute : ∀ message, P (.attributeError message))
    (hother : ∀ cls message, P (.other cls message)) (strategyType : String) (llm : LlmPort) :
    Py.RaisesOnly P (build strategyType metadata records llm completionConfig) := by
  unfold build
  split
  · exact Py.raisesOnly_ok _
  · split
    · apply Py.raisesOnly_bind.mpr ⟨raisesOnly_toInt hvalue htype hother _, fun windowSize _ ↦ ?_⟩
      apply Py.raisesOnly_bind.mpr ⟨raisesOnly_getText htype _, fun summaryText _ ↦ ?_⟩
      apply Py.raisesOnly_bind.mpr ⟨raisesOnly_parseAnchor hvalue hattribute, fun anchor _ ↦ ?_⟩
      apply Py.raisesOnly_bind.mpr ⟨raisesOnly_getText htype _, fun prompt _ ↦ ?_⟩
      exact Py.raisesOnly_bind.mpr
        ⟨raisesOnly_summary hvalue _ _ _ _, fun s _ ↦ Py.raisesOnly_ok _⟩
    · split
      · apply Py.raisesOnly_bind.mpr ⟨raisesOnly_toInt hvalue htype hother _, fun windowSize _ ↦ ?_⟩
        exact Py.raisesOnly_bind.mpr
          ⟨raisesOnly_slidingWindow hvalue _ _, fun s _ ↦ Py.raisesOnly_ok _⟩
      · exact Py.raisesOnly_error.mpr (hvalue _)

end

/-! ### Rebuilding from one's own metadata -/

@[simp] theorem get?_windowSize (s : SummaryStrategy) :
    s.getMetadata.get? "window_size" = some (.int s.windowSize) := by
  simp [SummaryStrategy.getMetadata, OrderedDict.get?_set]

@[simp] theorem get?_summaryText (s : SummaryStrategy) :
    s.getMetadata.get? "summary_text" = some (.str s.summary.text) := by
  simp [SummaryStrategy.getMetadata, OrderedDict.get?_set]

@[simp] theorem get?_summarizationPrompt (s : SummaryStrategy) :
    s.getMetadata.get? "summarization_prompt" = some (.str s.summarizationPrompt) :=
  OrderedDict.get?_set_self _ _ _

/-- The stored anchor is read back. -/
theorem parseAnchor_getMetadata (s : SummaryStrategy) :
    parseAnchor s.getMetadata = .ok s.summary.anchorId := by
  have hget : s.getMetadata.get? "summary_anchor_id" = some (match s.summary.anchorId with
      | some anchor => .str anchor.str
      | none => .null) := by
    simp [SummaryStrategy.getMetadata, OrderedDict.get?_set]
  rw [parseAnchor, hget]
  cases s.summary.anchorId with
  | none => rfl
  | some anchor =>
      have hne : anchor.str ≠ "" := by
        intro h
        have hparse := anchor.parse_str
        rw [h] at hparse
        cases hparse
      simp [Json.truthy, hne, anchor.parse_str, Except.map]

theorem init_summary (s : SummaryStrategy) (llm : LlmPort) (completionConfig : CompletionConfig)
    (records : List MessageRecord) :
    SummaryStrategy.init s.windowSize (some s.summarizationPrompt) (some llm) completionConfig
        records (some ⟨s.summary.text, s.summary.anchorId⟩) =
      .ok { s with llm := llm, completionConfig := completionConfig, records := records } := by
  have hw : ¬ (s.windowSize : ℤ) < 1 := by
    have := s.windowSize_pos
    omega
  rw [SummaryStrategy.init, dif_neg hw]
  exact dif_neg s.summarizationPrompt_ne

theorem init_slidingWindow (s : SlidingWindowStrategy) (llm : LlmPort)
    (completionConfig : CompletionConfig) (records : List MessageRecord) :
    SlidingWindowStrategy.init s.windowSize llm completionConfig records =
      .ok { s with llm := llm, completionConfig := completionConfig, records := records } := by
  have hw : ¬ (s.windowSize : ℤ) < 1 := by
    have := s.windowSize_pos
    omega
  rw [SlidingWindowStrategy.init, dif_neg hw]
  rfl

/-- **Rebuilding.**  A strategy's type and metadata restore it, on whatever base. -/
theorem build_getMetadata (s : MessageContextStrategy) (llm : LlmPort)
    (completionConfig : CompletionConfig) (records : List MessageRecord) :
    build s.strategyType s.getMetadata records llm completionConfig =
      .ok (s.withBase ⟨llm, completionConfig, records⟩) := by
  cases s with
  | dummy s => rfl
  | slidingWindow s =>
      have hget : (MessageContextStrategy.slidingWindow s).getMetadata.get? "window_size" =
          some (.int s.windowSize) := OrderedDict.get?_set_self _ _ _
      simp only [build, MessageContextStrategy.strategyType, hget]
      simp [init_slidingWindow, bind, Except.bind, pure, Except.pure,
        MessageContextStrategy.withBase]
  | summary s =>
      simp only [build, MessageContextStrategy.strategyType, MessageContextStrategy.getMetadata,
        getText, get?_windowSize, get?_summaryText, get?_summarizationPrompt,
        parseAnchor_getMetadata]
      simp [init_summary, bind, Except.bind, pure, Except.pure, MessageContextStrategy.withBase]

end MessageContextStrategyFactory
