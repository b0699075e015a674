import ChatServer.Domain.ContextStrategy

/-!
# The adapter to the providers

`adapter/outbound/llm/llm_adapter.py`.  The SDK is a parameter: `AnyLLM` says what it
answers to a request, as a whole or as a stream of chunks.  What the adapter makes of
the answer is a stream of completion events, so one call of `acompletion` is an
`LlmStream`, as consumed to its end.

The last two sections compare the two paths.  `Delivers` says that a list of chunks is
one way of sending a given response, and `acompletion_stream` computes what the loop
over the chunks comes to.
-/

/-- A choice of a response or of a chunk: `finish_reason`, and the text of its
`message` or `delta`. -/
structure Choice where
  finishReason : Option String := none
  content : Option String := none
deriving DecidableEq, Repr

/-- `ChatCompletion`. -/
structure ChatCompletion where
  usage : Option TokensUsage
  choices : List Choice
deriving DecidableEq, Repr

/-- `ChatCompletionChunk`. -/
structure ChatCompletionChunk where
  usage : Option TokensUsage := none
  choices : List Choice := []
deriving DecidableEq, Repr

/-- The arguments of `AnyLLM.acompletion`. -/
structure LlmKwargs where
  model : String
  messages : List Message
  maxTokens : ℕ
  temperature : Option ℚ
  topK : Option ℕ
  topP : Option ℚ
  stop : Option (List String)
  responseFormat : Option OutputModel
  stream : Bool

/-- `AnyLLM`: what it answers, or raises, and how a stream ends. -/
structure AnyLLM where
  providerName : String
  complete : LlmKwargs → Except PyExc ChatCompletion
  stream : LlmKwargs → Except PyExc (List ChatCompletionChunk × Option PyExc)

namespace StopReason

/-- The value of the enumeration. -/
def value : StopReason → String
  | stop => "stop"
  | length => "length"
  | toolCalls => "tool_calls"
  | contentFilter => "content_filter"

/-- `StopReason(value)`. -/
def ofValue (value : String) : Except PyExc StopReason :=
  match [stop, length, toolCalls, contentFilter].find? fun r ↦ r.value = value with
  | some r => .ok r
  | none => .error (.valueError s!"'{value}' is not a valid StopReason")

@[simp] theorem ofValue_value (r : StopReason) : ofValue r.value = .ok r := by
  cases r <;> rfl

theorem value_ne (r : StopReason) : r.value ≠ "" := by
  cases r <;> decide

end StopReason

namespace LlmAdapter

/-- `_build_kwargs`. -/
def buildKwargs (config : CompletionConfig) (messages : List Message)
    (isStreamPrefered : Bool) : LlmKwargs where
  model := config.model
  messages := messages
  maxTokens := config.maxTokens
  temperature := config.temperature
  topK := config.topK
  topP := if config.temperature = none then config.topP else none
  stop := config.stopSequences
  responseFormat := config.outputConfig
  stream := isStreamPrefered && config.outputConfig.isNone

/-- The local variables of `acompletion`. -/
structure Progress where
  tokensUsage : TokensUsage := 0
  stopReason : Option String := some StopReason.stop.value
deriving DecidableEq, Repr

/-- What is yielded for the text of a choice. -/
def yieldText : Option String → List CompletionEvent
  | none => []
  | some text => if text = "" then [] else [.textChunk text]

/-- `if choice.finish_reason:` in the loop.  A natural end at the limit of tokens
counts as a cut. -/
def onFinishReason (config : CompletionConfig) (p : Progress) :
    Option String → Except PyExc Progress
  | none => .ok p
  | some reason =>
      if reason = "" then .ok p
      else
        match StopReason.ofValue reason with
        | .error e => .error e
        | .ok r =>
            if r = .stop ∧ config.maxTokens = p.tokensUsage.completionTokens then
              .ok { p with stopReason := some StopReason.length.value }
            else .ok { p with stopReason := some reason }

/-- One round of the loop over a stream. -/
def onChunk (config : CompletionConfig) (p : Progress) (chunk : ChatCompletionChunk) :
    Except PyExc (Progress × List CompletionEvent) :=
  let p := { p with tokensUsage := chunk.usage.getD p.tokensUsage }
  match chunk.choices with
  | [] => .ok (p, [])
  | choice :: _ =>
      match onFinishReason config p choice.finishReason with
      | .error e => .error e
      | .ok p => .ok (p, yieldText choice.content)

/-- The loop over a stream, which may end by an exception. -/
def onStream (config : CompletionConfig) :
    Progress → List ChatCompletionChunk → Option PyExc →
      List CompletionEvent × Except PyExc Progress
  | p, [], none => ([], .ok p)
  | _, [], some e => ([], .error e)
  | p, chunk :: chunks, raises =>
      match onChunk config p chunk with
      | .error e => ([], .error e)
      | .ok (p, o) =>
          let (o', result) := onStream config p chunks raises
          (o ++ o', result)

/-- The branch without a stream. -/
def onResponse (response : ChatCompletion) : List CompletionEvent × Except PyExc Progress :=
  match response.usage with
  | none => ([], .error (.attributeError "'NoneType' object has no attribute 'prompt_tokens'"))
  | some usage =>
      match response.choices with
      | [] => ([], .error (.indexError "list index out of range"))
      | choice :: _ =>
          ([.textChunk (choice.content.getD "")], .ok ⟨usage, choice.finishReason⟩)

/-- `StopReason(stop_reason) if stop_reason else StopReason.STOP`. -/
def finalStopReason : Option String → Except PyExc StopReason
  | none => .ok .stop
  | some reason => if reason = "" then .ok .stop else StopReason.ofValue reason

/-- The final event. -/
def doneEvent (llm : AnyLLM) (config : CompletionConfig) (p : Progress) (elapsedS : ℕ) :
    Except PyExc CompletionDoneEvent :=
  (finalStopReason p.stopReason).map fun stopReason ↦
    ⟨llm.providerName, config.model, p.tokensUsage, stopReason, elapsedS⟩

/-- The request, by either path. -/
def request (llm : AnyLLM) (config : CompletionConfig) (kwargs : LlmKwargs) :
    List CompletionEvent × Except PyExc Progress :=
  if kwargs.stream = false then
    match llm.complete kwargs with
    | .error e => ([], .error e)
    | .ok response => onResponse response
  else
    match llm.stream kwargs with
    | .error e => ([], .error e)
    | .ok (chunks, raises) => onStream config {} chunks raises

/-- `acompletion`, consumed to its end. -/
def acompletion (llm : AnyLLM) (fullMessages : List Message) (config : CompletionConfig)
    (isStreamPrefered : Bool) (elapsedS : ℕ) : LlmStream :=
  if config.provider ≠ llm.providerName then
    ⟨[], some (.valueError (s!"Provider mismatch: completion_config.provider='{config.provider}' " ++
      s!"does not match llm.PROVIDER_NAME='{llm.providerName}'"))⟩
  else
    let (events, result) :=
      request llm config (buildKwargs config fullMessages isStreamPrefered)
    match result.bind fun p ↦ doneEvent llm config p elapsedS with
    | .error e => ⟨events, some e⟩
    | .ok event => ⟨events ++ [.completionDone event], none⟩

/-! ## What a stream comes to -/

/-- The first choice of a chunk. -/
def finishOf (chunk : ChatCompletionChunk) : Option String :=
  (chunk.choices.head?.bind (·.finishReason)).filter (· ≠ "")

/-- The text of a chunk. -/
def textOf (chunk : ChatCompletionChunk) : String :=
  (chunk.choices.head?.bind (·.content)).getD ""

/-- The usage known after some chunks. -/
def usageAfter (usage : TokensUsage) (chunks : List ChatCompletionChunk) : TokensUsage :=
  chunks.foldl (fun u chunk ↦ chunk.usage.getD u) usage

/-- What is yielded for some chunks. -/
def textEvents (chunks : List ChatCompletionChunk) : List CompletionEvent :=
  chunks.flatMap fun chunk ↦ yieldText (chunk.choices.head?.bind (·.content))

theorem textEvents_cons (chunk : ChatCompletionChunk) (chunks : List ChatCompletionChunk) :
    textEvents (chunk :: chunks) =
      yieldText (chunk.choices.head?.bind (·.content)) ++ textEvents chunks := List.flatMap_cons

theorem textEvents_append (chunks chunks' : List ChatCompletionChunk) :
    textEvents (chunks ++ chunks') = textEvents chunks ++ textEvents chunks' :=
  List.flatMap_append

theorem text_yieldText (content : Option String) :
    String.join ((yieldText content).map (·.text)) = content.getD "" := by
  cases content with
  | none => rfl
  | some text =>
      rw [yieldText]
      split
      · rename_i h
        rw [h]
        rfl
      · rw [List.map_singleton, String.join_cons, String.join_nil, String.append_empty]
        rfl

/-- Leaving out empty texts loses nothing. -/
theorem text_textEvents (chunks : List ChatCompletionChunk) :
    String.join ((textEvents chunks).map (·.text)) = String.join (chunks.map textOf) := by
  induction chunks with
  | nil => rfl
  | cons chunk chunks ih =>
      rw [textEvents_cons, List.map_append, String.join_append, text_yieldText, ih,
        List.map_cons, String.join_cons]
      rfl

/-- The usage known is the last one that arrived. -/
theorem usageAfter_eq (usage : TokensUsage) (chunks : List ChatCompletionChunk) :
    usageAfter usage chunks = ((chunks.filterMap (·.usage)).getLast?).getD usage := by
  induction chunks generalizing usage with
  | nil => rfl
  | cons chunk chunks ih =>
      rw [usageAfter, List.foldl_cons]
      refine (ih (chunk.usage.getD usage)).trans ?_
      cases hchunk : chunk.usage with
      | none => rw [List.filterMap_cons_none hchunk, Option.getD_none]
      | some u =>
          rw [List.filterMap_cons_some hchunk, List.getLast?_cons, Option.getD_some,
            Option.getD_some]

theorem onFinishReason_of_falsy (config : CompletionConfig) (p : Progress) {reason : Option String}
    (h : reason.filter (· ≠ "") = none) : onFinishReason config p reason = .ok p := by
  cases reason with
  | none => rfl
  | some text =>
      rw [onFinishReason]
      split
      · rfl
      · rename_i hne
        simp [hne] at h

/-- A chunk that does not end the answer. -/
theorem onChunk_of_no_finish (config : CompletionConfig) (p : Progress)
    {chunk : ChatCompletionChunk} (h : finishOf chunk = none) :
    onChunk config p chunk =
      .ok ({ p with tokensUsage := chunk.usage.getD p.tokensUsage },
        yieldText (chunk.choices.head?.bind (·.content))) := by
  cases hchoices : chunk.choices with
  | nil =>
      rw [onChunk, hchoices]
      rfl
  | cons choice choices =>
      rw [finishOf, hchoices] at h
      have hreason := onFinishReason_of_falsy config
        { p with tokensUsage := chunk.usage.getD p.tokensUsage } h
      rw [List.head?_cons, Option.bind_some] at hreason
      simp only [onChunk, hchoices, hreason]
      rfl

/-- The loop over chunks that do not end the answer, and go on. -/
theorem onStream_of_no_finish (config : CompletionConfig) (p : Progress)
    {chunks : List ChatCompletionChunk} (rest : List ChatCompletionChunk)
    (h : ∀ chunk ∈ chunks, finishOf chunk = none) :
    onStream config p (chunks ++ rest) none =
      (textEvents chunks ++
          (onStream config { p with tokensUsage := usageAfter p.tokensUsage chunks } rest none).1,
        (onStream config { p with tokensUsage := usageAfter p.tokensUsage chunks } rest
          none).2) := by
  induction chunks generalizing p with
  | nil => rfl
  | cons chunk chunks ih =>
      rw [List.cons_append, onStream, onChunk_of_no_finish config p (h chunk List.mem_cons_self)]
      simp only
      rw [ih _ fun c hc ↦ h c (List.mem_cons_of_mem _ hc), textEvents_cons, List.append_assoc]
      rfl

/-- The reason a stream reports when it ends with `reason` and so many tokens are known. -/
def streamedReason (config : CompletionConfig) (usage : TokensUsage) (reason : StopReason) :
    StopReason :=
  if reason = .stop ∧ config.maxTokens = usage.completionTokens then .length else reason

theorem onFinishReason_value (config : CompletionConfig) (p : Progress) (reason : StopReason) :
    onFinishReason config p (some reason.value) =
      .ok { p with stopReason := some (streamedReason config p.tokensUsage reason).value } := by
  simp only [onFinishReason, if_neg reason.value_ne, StopReason.ofValue_value, streamedReason]
  split <;> rfl

/-- The chunk that ends the answer. -/
theorem onChunk_of_finish (config : CompletionConfig) (p : Progress)
    {chunk : ChatCompletionChunk} {reason : StopReason}
    (h : finishOf chunk = some reason.value) :
    onChunk config p chunk =
      .ok (⟨chunk.usage.getD p.tokensUsage,
          some (streamedReason config (chunk.usage.getD p.tokensUsage) reason).value⟩,
        yieldText (chunk.choices.head?.bind (·.content))) := by
  obtain ⟨hfinish, -⟩ := Option.filter_eq_some_iff.mp h
  obtain ⟨choice, hchoice, hreason⟩ := Option.bind_eq_some_iff.mp hfinish
  obtain ⟨choices, hchoices⟩ := List.head?_eq_some_iff.mp hchoice
  simp only [onChunk, hchoices, hreason, onFinishReason_value]
  rfl

/-! ## The two paths -/

/-- A complete response: a text, a reason to stop that is one of ours, and a usage. -/
structure Complete (response : ChatCompletion) (text : String) (reason : StopReason)
    (usage : TokensUsage) : Prop where
  usage : response.usage = some usage
  choice : ∃ choice others, response.choices = choice :: others ∧
    choice.finishReason = some reason.value ∧ choice.content.getD "" = text

/-- A way of delivering a response: its text is cut into chunks, one chunk brings the
usage and one the reason; any of them may come without choices. -/
structure Delivers (chunks : List ChatCompletionChunk) (text : String) (reason : StopReason)
    (usage : TokensUsage) : Prop where
  text : String.join (chunks.map textOf) = text
  reason : chunks.filterMap finishOf = [reason.value]
  usage : chunks.filterMap (·.usage) = [usage]

/-- A usage comes before the reason, or with it. -/
def usageInTime : List ChatCompletionChunk → Bool
  | [] => false
  | chunk :: chunks => chunk.usage.isSome || ((finishOf chunk).isNone && usageInTime chunks)

/-- What is yielded without a stream. -/
theorem onResponse_of_complete {response : ChatCompletion} {text : String} {reason : StopReason}
    {usage : TokensUsage} (h : Complete response text reason usage) :
    onResponse response = ([.textChunk text], .ok ⟨usage, some reason.value⟩) := by
  obtain ⟨choice, others, hchoices, hreason, htext⟩ := h.choice
  rw [onResponse, h.usage]
  simp only [hchoices, hreason, htext]

theorem usageInTime_eq {before after : List ChatCompletionChunk} {last : ChatCompletionChunk}
    (hbefore : ∀ chunk ∈ before, finishOf chunk = none) (hlast : finishOf last ≠ none) :
    usageInTime (before ++ last :: after) =
      !((before ++ [last]).filterMap (·.usage)).isEmpty := by
  induction before with
  | nil =>
      cases husage : last.usage with
      | none =>
          simp [usageInTime, husage, Option.isNone_iff_eq_none, hlast]
      | some usage =>
          simp [usageInTime, husage]
  | cons chunk before ih =>
      have hchunk := hbefore chunk List.mem_cons_self
      rw [List.cons_append, usageInTime, ih fun c hc ↦ hbefore c (List.mem_cons_of_mem _ hc),
        hchunk]
      cases husage : chunk.usage with
      | none => simp [husage]
      | some usage => simp [husage]

theorem usageAfter_concat (usage : TokensUsage) (chunks : List ChatCompletionChunk)
    (chunk : ChatCompletionChunk) :
    usageAfter usage (chunks ++ [chunk]) = chunk.usage.getD (usageAfter usage chunks) :=
  List.foldl_concat _ _ _ _

/-- What is yielded with a stream: the reason is judged by the usage known when it
comes. -/
theorem onStream_of_delivers (config : CompletionConfig) {chunks : List ChatCompletionChunk}
    {text : String} {reason : StopReason} {usage : TokensUsage}
    (h : Delivers chunks text reason usage) :
    onStream config {} chunks none = (textEvents chunks, .ok ⟨usage,
      some (streamedReason config (if usageInTime chunks then usage else 0) reason).value⟩) := by
  obtain ⟨before, last, after, rfl, hbefore, hlast, hafter⟩ :=
    List.filterMap_eq_cons_iff.mp h.reason
  have hafter := List.filterMap_eq_nil_iff.mp hafter
  have hfinish : finishOf last ≠ none := by
    rw [hlast]
    exact Option.some_ne_none _
  -- the usage is among the chunks up to the last one, or among those after it
  have husage := h.usage
  rw [List.append_cons, List.filterMap_append] at husage
  have hknown : last.usage.getD (usageAfter 0 before) =
      if usageInTime (before ++ last :: after) then usage else 0 := by
    rw [← usageAfter_concat, usageAfter_eq, usageInTime_eq hbefore hfinish]
    rcases List.append_eq_singleton_iff.mp husage with ⟨hnone, -⟩ | ⟨hsome, -⟩
    · rw [hnone]
      rfl
    · rw [hsome]
      rfl
  have htotal : usageAfter (last.usage.getD (usageAfter 0 before)) after = usage := by
    rw [← usageAfter_concat, usageAfter_eq, usageAfter_eq]
    rcases List.append_eq_singleton_iff.mp husage with ⟨-, hsome⟩ | ⟨hsome, hnone⟩
    · rw [hsome]
      rfl
    · rw [hsome, hnone]
      rfl
  have hrest := onStream_of_no_finish config
    ⟨last.usage.getD (usageAfter 0 before), some (streamedReason config
      (last.usage.getD (usageAfter 0 before)) reason).value⟩ [] hafter
  rw [List.append_nil, onStream, htotal, List.append_nil] at hrest
  rw [onStream_of_no_finish config {} (last :: after) hbefore, onStream,
    onChunk_of_finish config _ hlast]
  simp only [hrest, ← hknown, Prod.mk.injEq, and_true]
  exact (textEvents_append before (last :: after)).symm

/-- The final event of a stream of events, after the texts. -/
structure Answers (stream : LlmStream) (text : String) (event : CompletionDoneEvent) : Prop where
  completes : stream.raises = none
  text : stream.text = text
  event : ∃ texts, stream.events = texts ++ [.completionDone event]

theorem doneEvent_value (llm : AnyLLM) (config : CompletionConfig) (usage : TokensUsage)
    (reason : StopReason) (elapsedS : ℕ) :
    doneEvent llm config ⟨usage, some reason.value⟩ elapsedS =
      .ok ⟨llm.providerName, config.model, usage, reason, elapsedS⟩ := by
  rw [doneEvent, finalStopReason, if_neg reason.value_ne, StopReason.ofValue_value]
  rfl

/-- No call is limited to no tokens, so a usage that is not known yet changes nothing. -/
theorem streamedReason_known (config : CompletionConfig) (usage : TokensUsage)
    (reason : StopReason) (known : Bool) :
    streamedReason config (if known then usage else 0) reason =
      if reason = .stop ∧ usage.completionTokens = config.maxTokens ∧ known then .length
      else reason := by
  cases known with
  | true => simp [streamedReason, eq_comm]
  | false =>
      have hmax : config.maxTokens ≠ 0 := Nat.one_le_iff_ne_zero.mp config.maxTokens_pos
      simp [streamedReason, hmax]

/-- A complete response without an output schema, and any way of delivering it as a
stream: both paths yield the same text and a final event with the same provider, model
and usage.  The reasons are the same too, but for an answer that stopped by itself at
the limit of tokens: the stream reports the limit when it knows the usage in time. -/
theorem acompletion_agrees {llm : AnyLLM} {config : CompletionConfig} {messages : List Message}
    {response : ChatCompletion} {chunks : List ChatCompletionChunk} {text : String}
    {reason : StopReason} {usage : TokensUsage} (elapsedS elapsedS' : ℕ)
    (hprovider : config.provider = llm.providerName) (hconfig : config.outputConfig = none)
    (hresponse : Complete response text reason usage) (hchunks : Delivers chunks text reason usage)
    (hcomplete : llm.complete (buildKwargs config messages false) = .ok response)
    (hstream : llm.stream (buildKwargs config messages true) = .ok (chunks, none)) :
    Answers (acompletion llm messages config false elapsedS) text
        ⟨llm.providerName, config.model, usage, reason, elapsedS⟩ ∧
      Answers (acompletion llm messages config true elapsedS') text
        ⟨llm.providerName, config.model, usage,
          if reason = .stop ∧ usage.completionTokens = config.maxTokens ∧ usageInTime chunks then
            .length else reason, elapsedS'⟩ := by
  have hfalse : request llm config (buildKwargs config messages false) =
      ([.textChunk text], .ok ⟨usage, some reason.value⟩) := by
    have hflag : (buildKwargs config messages false).stream = false := rfl
    rw [request, if_pos hflag, hcomplete]
    exact onResponse_of_complete hresponse
  have htrue : request llm config (buildKwargs config messages true) = (textEvents chunks,
      .ok ⟨usage, some (if reason = .stop ∧ usage.completionTokens = config.maxTokens ∧
        usageInTime chunks then .length else reason : StopReason).value⟩) := by
    have hflag : (buildKwargs config messages true).stream ≠ false := by
      simp [buildKwargs, hconfig]
    rw [request, if_neg hflag, hstream]
    refine (onStream_of_delivers config hchunks).trans ?_
    rw [streamedReason_known]
  constructor
  · rw [acompletion, if_neg (not_not.mpr hprovider), hfalse]
    simp only [Except.bind, doneEvent_value]
    exact ⟨rfl, String.append_empty, [.textChunk text], rfl⟩
  · rw [acompletion, if_neg (not_not.mpr hprovider), htrue]
    simp only [Except.bind, doneEvent_value]
    refine ⟨rfl, ?_, textEvents chunks, rfl⟩
    rw [LlmStream.text, List.map_append, String.join_append, text_textEvents, hchunks.text]
    exact String.append_empty

/-! ## An SDK to evaluate calls on -/

/-- An SDK with one model, that answers everything with `response`, in `chunks`. -/
def sampleLlm (response : ChatCompletion) (chunks : List ChatCompletionChunk) : AnyLLM where
  providerName := "p"
  complete _ := .ok response
  stream _ := .ok (chunks, none)

/-- An answer of one token. -/
def sampleResponse : ChatCompletion := ⟨some ⟨5, 1⟩, [⟨some "stop", some "yo"⟩]⟩

/-- The same answer in four chunks, its usage before its end. -/
def sampleChunks : List ChatCompletionChunk :=
  [⟨none, [⟨none, some "y"⟩]⟩, ⟨none, [⟨none, some "o"⟩]⟩, ⟨some ⟨5, 1⟩, []⟩,
    ⟨none, [⟨some "stop", none⟩]⟩]

theorem complete_sampleResponse : Complete sampleResponse "yo" .stop ⟨5, 1⟩ :=
  ⟨rfl, _, _, rfl, rfl, rfl⟩

theorem delivers_sampleChunks : Delivers sampleChunks "yo" .stop ⟨5, 1⟩ :=
  ⟨by decide, by decide, by decide⟩

/-- Both paths on one answer. -/
theorem acompletion_agrees_sample :
    Answers (acompletion (sampleLlm sampleResponse sampleChunks) [] .sample false 0) "yo"
        ⟨"p", "m", ⟨5, 1⟩, .stop, 0⟩ ∧
      Answers (acompletion (sampleLlm sampleResponse sampleChunks) [] .sample true 0) "yo"
        ⟨"p", "m", ⟨5, 1⟩, .length, 0⟩ := by
  have hprovider : CompletionConfig.sample.provider =
      (sampleLlm sampleResponse sampleChunks).providerName := rfl
  exact acompletion_agrees 0 0 hprovider rfl complete_sampleResponse delivers_sampleChunks rfl rfl

/-- An answer that stops by itself at the limit of tokens has two reasons. -/
theorem stop_at_limit :
    Complete sampleResponse "yo" .stop ⟨5, 1⟩ ∧ Delivers sampleChunks "yo" .stop ⟨5, 1⟩ ∧
      (acompletion (sampleLlm sampleResponse sampleChunks) [] .sample false 0).events.getLast? =
        some (.completionDone ⟨"p", "m", ⟨5, 1⟩, .stop, 0⟩) ∧
      (acompletion (sampleLlm sampleResponse sampleChunks) [] .sample true 0).events.getLast? =
        some (.completionDone ⟨"p", "m", ⟨5, 1⟩, .length, 0⟩) :=
  ⟨complete_sampleResponse, delivers_sampleChunks, by decide, by decide⟩

end LlmAdapter
