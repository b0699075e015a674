import ChatServer.Lib.Mealy
import ChatServer.Domain.ContextStrategy

/-!
# The session aggregate

`domain/model/session.py`.  `Session.acompletion` is an async generator: between
two suspension points it runs undisturbed, and at each of them it may be
resumed, abandoned by an exception of what it awaits, cancelled, or closed by
its consumer.  So it is a machine.  A `Phase` says where a call is suspended and
holds its local variables, an `Input` says how it is resumed, and one step is
the source between two suspensions, written as one definition for each
(`beginAcompletion`, `endStream`, `finish`).

The machine runs any number of calls one after another on one session.  Nothing
is assumed about the events: contracts on LLM streams, fresh identifiers and
completed calls are conditions on the inputs of a run, stated where they are
needed.
-/

/-- A naive `datetime`, as microseconds. -/
structure Datetime where
  micros : ℕ
deriving DecidableEq, Repr

/-- `SessionCompletionDoneEvent`. -/
structure SessionCompletionDoneEvent where
  stopReason : StopReason
  elapsedS : ℕ
  statistics : Option StatsData := none
deriving DecidableEq

/-- `SessionEvent`: what `acompletion` yields. -/
inductive SessionEvent where
  | textChunk (text : String)
  | completionDone (event : SessionCompletionDoneEvent)
deriving DecidableEq

/-- `Session`.  `usageStatsRef` is the identity of the statistics object whose
contents are `usageStats`. -/
structure Session where
  id : String
  createdAt : Datetime
  completionConfig : CompletionConfig
  usageStatsRef : StatsRef
  usageStats : SessionUsageStats
  llmStats : LlmPort
  messageContextStrategy : MessageContextStrategy
deriving DecidableEq

namespace Session

/-- `Session.__init__`: the main LLM is wrapped in a decorator of the session's
own statistics. -/
def init (llm : LlmPort) (id : String) (createdAt : Datetime)
    (completionConfig : CompletionConfig) (billing : Option ModelBilling)
    (usageStatsRef : StatsRef) (usageStats : SessionUsageStats)
    (messageContextStrategy : MessageContextStrategy) : Session :=
  { id, createdAt, completionConfig, usageStatsRef, usageStats,
    llmStats := .decorated llm usageStatsRef billing, messageContextStrategy }

/-- `messages`. -/
def messages (s : Session) : List MessageRecord := s.messageContextStrategy.getHistory

/-- `set_message_context_strategy`. -/
def setMessageContextStrategy (s : Session) (strategy : MessageContextStrategy) :
    Except PyExc Session := do
  let existingRecords := s.messageContextStrategy.getHistory
  let built ← MessageContextStrategyFactory.build strategy.strategyType strategy.getMetadata
    existingRecords strategy.llm strategy.completionConfig
  return { s with messageContextStrategy := built }

/-- `Session.create`.  `now` is `datetime.now()`, and `ref` the identity of the
statistics object it makes. -/
def create (llm : LlmPort) (id : String) (completionConfig : CompletionConfig)
    (billing : Option ModelBilling) (strategyType : String)
    (strategyMetadata : OrderedDict String Json) (strategyLlm : LlmPort)
    (strategyCompletionConfig : CompletionConfig) (strategyBilling : Option ModelBilling)
    (now : Datetime) (ref : StatsRef) : Except PyExc Session := do
  let usageStats := SessionUsageStats.init none
  let strategyLlmStats := LlmPort.decorated strategyLlm ref strategyBilling
  let strategy ← MessageContextStrategyFactory.build strategyType strategyMetadata []
    strategyLlmStats strategyCompletionConfig
  return init llm id now completionConfig billing ref usageStats strategy

/-! ## `acompletion` between its suspension points -/

/-- Where a call of `acompletion` is suspended. -/
inductive Phase where
  /-- Awaiting the next event of the main LLM. -/
  | main (assistantText : String) (stopReason : Option StopReason)
  /-- At the `yield` of a text chunk. -/
  | chunk (assistantText : String) (stopReason : Option StopReason)
  /-- Inside `update_context`, awaiting the next event of the summarisation LLM. -/
  | summary (stopReason : Option StopReason) (assistantText : String)
  /-- At the `yield` of the final event. -/
  | done
deriving DecidableEq, Repr

/-- Which of the two LLMs. -/
inductive Role where
  | main
  | summary
deriving DecidableEq, Repr

/-- What happens to a session from outside. -/
inductive Input where
  /-- `acompletion(prompt, is_stream_prefered)` is called and advanced for the first
  time; `uuid4` is the identifier the user record draws. -/
  | acompletion (prompt : String) (isStreamPrefered : Bool) (uuid4 : UUID)
  /-- The awaited LLM yields an event. -/
  | event (e : CompletionEvent)
  /-- The main LLM's stream ends; `uuid4` is for the answer's record. -/
  | mainEnds (uuid4 : UUID) (elapsedS : ℕ)
  /-- The summarisation LLM's stream ends. -/
  | summaryEnds (elapsedS : ℕ)
  /-- The awaited LLM raises. -/
  | raises (e : PyExc)
  /-- The task is cancelled while it awaits an LLM. -/
  | cancelled
  /-- The consumer asks for the next event. -/
  | next
  /-- The consumer closes the generator at a `yield`. -/
  | closed
  /-- `set_message_context_strategy(strategy)`, between calls. -/
  | setStrategy (strategy : MessageContextStrategy)
deriving DecidableEq

/-- What can be observed of a session. -/
inductive Obs where
  /-- A request is sent to an LLM. -/
  | called (role : Role) (request : LlmRequest)
  /-- An LLM, reached through a handle, yields an event. -/
  | received (role : Role) (llm : LlmPort) (event : CompletionEvent)
  /-- `acompletion` yields an event. -/
  | yielded (event : SessionEvent)
  /-- `acompletion` ends normally. -/
  | returned
  /-- `acompletion` ends by an exception. -/
  | raised (e : PyExc)
  /-- The generator is closed. -/
  | closed
deriving DecidableEq

/-- `acompletion` up to its call of the main LLM. -/
def beginAcompletion (s : Session) (prompt : String) (isStreamPrefered : Bool) (uuid4 : UUID) :
    Session × LlmRequest :=
  let s := { s with usageStats := s.usageStats.beginInvocation }
  let s := { s with
    messageContextStrategy := s.messageContextStrategy.addUserQuery prompt uuid4 }
  (s, ⟨s.messageContextStrategy.getContext, s.completionConfig, isStreamPrefered⟩)

/-- An event of an LLM passes through its handle. -/
def receive (s : Session) (llm : LlmPort) (e : CompletionEvent) : Session :=
  { s with usageStats := llm.receive s.usageStatsRef e s.usageStats }

/-- The final event of a call. -/
def doneEvent (s : Session) (stopReason : Option StopReason) (elapsedS : ℕ) :
    SessionCompletionDoneEvent where
  stopReason := stopReason.getD .stop
  elapsedS := elapsedS
  statistics := s.usageStats.currentInvocationData.orNone

/-- `add_model_response(assistant_text)`. -/
def answer (s : Session) (assistantText : String) (uuid4 : UUID) : Session :=
  { s with
    messageContextStrategy := s.messageContextStrategy.addModelResponse assistantText uuid4 }

/-- From the end of the main LLM's stream to the next suspension: record the
answer and start `update_context`. -/
def endStream [UnicodeData] (s : Session) (assistantText : String)
    (stopReason : Option StopReason) (uuid4 : UUID) (elapsedS : ℕ) :
    (Session × Option Phase) × List Obs :=
  let s := s.answer assistantText uuid4
  match s.messageContextStrategy.updateContextBegin with
  | .error e => ((s, none), [.raised e])
  | .ok none => ((s, some .done), [.yielded (.completionDone (s.doneEvent stopReason elapsedS))])
  | .ok (some request) => ((s, some (.summary stopReason "")), [.called .summary request])

/-- From the end of the summarisation stream to the final event. -/
def finish (s : Session) (assistantText : String) (stopReason : Option StopReason)
    (elapsedS : ℕ) : (Session × Option Phase) × List Obs :=
  match s.messageContextStrategy.updateContextEnd assistantText with
  | .error e => ((s, none), [.raised e])
  | .ok strategy =>
      let s := { s with messageContextStrategy := strategy }
      ((s, some .done), [.yielded (.completionDone (s.doneEvent stopReason elapsedS))])

/-- A step of the main phase on an event of the main LLM. -/
def onMainEvent (s : Session) (assistantText : String) (stopReason : Option StopReason)
    (e : CompletionEvent) : (Session × Option Phase) × List Obs :=
  let s' := s.receive s.llmStats e
  match e with
  | .textChunk text =>
      ((s', some (.chunk (assistantText ++ text) stopReason)),
        [.received .main s.llmStats e, .yielded (.textChunk text)])
  | .completionDone event =>
      ((s', some (.main assistantText (some event.stopReason))), [.received .main s.llmStats e])

/-- A step of the summary phase on an event of the summarisation LLM. -/
def onSummaryEvent (s : Session) (stopReason : Option StopReason) (assistantText : String)
    (e : CompletionEvent) : (Session × Option Phase) × List Obs :=
  let llm := s.messageContextStrategy.llm
  ((s.receive llm e, some (.summary stopReason (assistantText ++ e.text))),
    [.received .summary llm e])

/-- One step: `none` when the input does not fit the phase. -/
def step [UnicodeData] :
    Session × Option Phase → Input → Option ((Session × Option Phase) × List Obs)
  | (s, none), .acompletion prompt isStreamPrefered uuid4 =>
      let (s', request) := s.beginAcompletion prompt isStreamPrefered uuid4
      some ((s', some (.main "" none)), [.called .main request])
  | (s, none), .setStrategy strategy =>
      match s.setMessageContextStrategy strategy with
      | .error e => some ((s, none), [.raised e])
      | .ok s' => some ((s', none), [])
  | (s, some (.main text stop)), .event e => some (s.onMainEvent text stop e)
  | (s, some (.main text stop)), .mainEnds uuid4 elapsedS =>
      some (s.endStream text stop uuid4 elapsedS)
  | (s, some (.main _ _)), .raises e => some ((s, none), [.raised e])
  | (s, some (.main _ _)), .cancelled => some ((s, none), [.raised .cancelledError])
  | (s, some (.chunk text stop)), .next => some ((s, some (.main text stop)), [])
  | (s, some (.chunk _ _)), .closed => some ((s, none), [.closed])
  | (s, some (.summary stop text)), .event e => some (s.onSummaryEvent stop text e)
  | (s, some (.summary stop text)), .summaryEnds elapsedS =>
      some (s.finish text stop elapsedS)
  | (s, some (.summary _ _)), .raises e => some ((s, none), [.raised e])
  | (s, some (.summary _ _)), .cancelled => some ((s, none), [.raised .cancelledError])
  | (s, some .done), .next => some ((s, none), [.returned])
  | (s, some .done), .closed => some ((s, none), [.closed])
  | _, _ => none

/-- The machine of a session. -/
def machine [UnicodeData] : Mealy (Session × Option Phase) Input Obs := ⟨step⟩

end Session
