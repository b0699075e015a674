import ChatServer.Domain.Completion
import ChatServer.Domain.UsageStats

/-!
# LLM ports and the statistics decorator

`port/outbound/llm_port.py` and `domain/model/llm_stats_decorator.py`.

A port is asked for a completion and answers with a stream of events.  What a
particular provider answers is up to the environment, so a port is here only a
*handle*: either an opaque port, or an `LlmStatsDecorator` around another
handle.  The decorator forwards every event unchanged and, on the final one,
adds the usage to the `SessionUsageStats` object it was built with.  Objects
have identity, so that object is named by a `StatsRef`.

`LlmPort.receive` is the effect of one event on the statistics object of a given
session as the event passes through a handle.  `LlmPort.bills` says the same as
a list of contributions, one for each decorator on the way that feeds this
object; `receive_eq_addAll` connects the two.
-/

/-- `StopReason`. -/
inductive StopReason where
  | stop
  | length
  | toolCalls
  | contentFilter
deriving DecidableEq, Repr

/-- A message for an LLM: `dict[str, str]`. -/
abbrev Message := OrderedDict String String

/-- `{"role": role, "content": content}`. -/
def Message.of (role content : String) : Message :=
  ((∅ : Message).set "role" role).set "content" content

@[simp] theorem Message.get?_role_of (role content : String) :
    (Message.of role content).get? "role" = some role := by
  rw [Message.of, OrderedDict.get?_set_of_ne _ _ (by decide), OrderedDict.get?_set_self]

@[simp] theorem Message.get?_content_of (role content : String) :
    (Message.of role content).get? "content" = some content :=
  OrderedDict.get?_set_self _ _ _

/-- `CompletionDoneEvent`. -/
structure CompletionDoneEvent where
  provider : String
  model : String
  tokensUsage : TokensUsage
  stopReason : StopReason := .stop
  elapsedS : ℕ := 0
deriving DecidableEq, Repr

/-- `CompletionEvent`: what an LLM stream yields. -/
inductive CompletionEvent where
  | textChunk (text : String)
  | completionDone (event : CompletionDoneEvent)
deriving DecidableEq, Repr

namespace CompletionEvent

/-- The text an event adds to the answer. -/
def text : CompletionEvent → String
  | textChunk t => t
  | completionDone _ => ""

end CompletionEvent

/-- The arguments of one call of `ILlmPort.acompletion`. -/
structure LlmRequest where
  fullMessages : List Message
  completionConfig : CompletionConfig
  isStreamPrefered : Bool
deriving DecidableEq

/-- The identity of a `SessionUsageStats` object. -/
structure StatsRef where
  addr : ℕ
deriving DecidableEq, Repr

/-- A handle on something that satisfies `ILlmPort`. -/
inductive LlmPort where
  /-- A port that keeps no statistics. -/
  | port (name : String)
  /-- `LlmStatsDecorator(llm, usage_stats, billing)`. -/
  | decorated (llm : LlmPort) (usageStats : StatsRef) (billing : Option ModelBilling)
deriving DecidableEq

/-- The cost `LlmStatsDecorator` attaches to a final event. -/
def LlmStatsDecorator.cost (billing : Option ModelBilling) (event : CompletionDoneEvent) :
    Option TokensCost :=
  billing.map fun b ↦ b.estimate event.tokensUsage.promptTokens event.tokensUsage.completionTokens

namespace LlmPort

/-- `LlmStatsDecorator.acompletion` on a final event, for the statistics object
`own`: inner decorators act first. -/
def receiveDone (own : StatsRef) :
    LlmPort → CompletionDoneEvent → SessionUsageStats → SessionUsageStats
  | port _, _, stats => stats
  | decorated llm ref billing, event, stats =>
      let stats := llm.receiveDone own event stats
      if ref = own then
        stats.addStats event.provider event.model event.tokensUsage
          (LlmStatsDecorator.cost billing event)
      else stats

/-- The effect on the statistics object `own` of one event passing through the
handle: text chunks have none. -/
def receive (own : StatsRef) (llm : LlmPort) (event : CompletionEvent)
    (stats : SessionUsageStats) : SessionUsageStats :=
  match event with
  | .textChunk _ => stats
  | .completionDone done => llm.receiveDone own done stats

/-- What a final event is booked as, once for each decorator of `own`. -/
def billsDone (own : StatsRef) : LlmPort → CompletionDoneEvent → List Contribution
  | port _, _ => []
  | decorated llm ref billing, event =>
      llm.billsDone own event ++
        if ref = own then
          [⟨event.provider, event.model,
            ⟨event.tokensUsage, LlmStatsDecorator.cost billing event⟩⟩]
        else []

/-- What an event is booked as. -/
def bills (own : StatsRef) (llm : LlmPort) : CompletionEvent → List Contribution
  | .textChunk _ => []
  | .completionDone done => llm.billsDone own done

/-- How many decorators of `own` an event passes through. -/
def countOf (own : StatsRef) : LlmPort → ℕ
  | port _ => 0
  | decorated llm ref _ => llm.countOf own + if ref = own then 1 else 0

/-- The port at the core of a handle. -/
def underlying : LlmPort → String
  | port name => name
  | decorated llm _ _ => llm.underlying

end LlmPort

namespace SessionUsageStats

/-- Feed a list of contributions to both accumulators. -/
def addAll (s : SessionUsageStats) (cs : List Contribution) : SessionUsageStats where
  lifecycleTotal := s.lifecycleTotal.addAll cs
  currentInvocation := s.currentInvocation.addAll cs

@[simp] theorem addAll_nil (s : SessionUsageStats) : s.addAll [] = s := rfl

theorem addAll_append (s : SessionUsageStats) (cs ds : List Contribution) :
    s.addAll (cs ++ ds) = (s.addAll cs).addAll ds := by
  simp [addAll, UsageStatsAccumulator.addAll]

end SessionUsageStats

namespace LlmPort

theorem receiveDone_eq_addAll (own : StatsRef) (llm : LlmPort) (event : CompletionDoneEvent)
    (stats : SessionUsageStats) :
    llm.receiveDone own event stats = stats.addAll (llm.billsDone own event) := by
  induction llm with
  | port name => rfl
  | decorated llm ref billing ih =>
      rw [receiveDone, billsDone, SessionUsageStats.addAll_append, ih]
      by_cases h : ref = own
      · rw [if_pos h, if_pos h]
        rfl
      · rw [if_neg h, if_neg h, SessionUsageStats.addAll_nil]

/-- The effect of an event is to book its contributions, in both accumulators. -/
theorem receive_eq_addAll (own : StatsRef) (llm : LlmPort) (event : CompletionEvent)
    (stats : SessionUsageStats) :
    llm.receive own event stats = stats.addAll (llm.bills own event) := by
  cases event with
  | textChunk t => rfl
  | completionDone done => exact llm.receiveDone_eq_addAll own done stats

/-- A final event is booked under its own provider and model with its own usage,
as often as there are decorators of `own` on the handle. -/
theorem usage_billsDone (own : StatsRef) (llm : LlmPort) (event : CompletionDoneEvent) :
    (llm.billsDone own event).map (fun c ↦ (c.provider, c.model, c.stats.usage)) =
      List.replicate (llm.countOf own) (event.provider, event.model, event.tokensUsage) := by
  induction llm with
  | port name => rfl
  | decorated llm ref billing ih =>
      rw [billsDone, countOf, List.map_append, ih]
      by_cases h : ref = own
      · rw [if_pos h, if_pos h, List.replicate_succ']
        rfl
      · rw [if_neg h, if_neg h]
        simp

end LlmPort
