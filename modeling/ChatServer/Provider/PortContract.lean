import ChatServer.Conversation.Turn
import ChatServer.Provider.LlmAdapter
import ChatServer.Service.UseCases

/-!
# The contract of the port

What `acompletion` makes of every reply of a provider.  A reply is a whole response or all
the chunks of a stream; what it carries (`Reply.texts`, `Reply.usage`) is said here without
the loop that reads it.  The contract of `ILlmPort` is the one a turn relies on
(`Session.Contract`): texts, and then one final event.

A reply gets its final event when it is `Reply.Handled`: its reasons are values of our
enumeration, and a whole response has a usage and a choice.
-/

namespace StopReason

/-- The texts that name a reason of ours. -/
def IsValue (value : String) : Prop := ∃ r : StopReason, r.value = value

/-- `finish_reason` in the chat completion types. -/
def chatFinishReasons : List String :=
  ["stop", "length", "tool_calls", "content_filter", "function_call"]

theorem isValue_value (r : StopReason) : IsValue r.value := ⟨r, rfl⟩

theorem ofValue_of_not_isValue {value : String} (h : ¬ IsValue value) :
    ofValue value = .error (.valueError s!"'{value}' is not a valid StopReason") := by
  have hfind : [stop, length, toolCalls, contentFilter].find? (fun r ↦ r.value = value) =
      none := by
    rw [List.find?_eq_none]
    intro r _ hr
    exact h ⟨r, of_decide_eq_true hr⟩
  rw [ofValue, hfind]

/-- Of the reasons of the chat completion types, one is not ours. -/
theorem isValue_iff_of_chat {reason : String} (h : reason ∈ chatFinishReasons) :
    IsValue reason ↔ reason ≠ "function_call" := by
  constructor
  · rintro ⟨r, rfl⟩
    cases r <;> decide
  · intro hne
    simp only [chatFinishReasons, List.mem_cons, List.not_mem_nil, or_false, hne] at h
    rcases h with rfl | rfl | rfl | rfl
    · exact isValue_value stop
    · exact isValue_value length
    · exact isValue_value toolCalls
    · exact isValue_value contentFilter

end StopReason

namespace LlmAdapter

/-! ## Replies -/

/-- A reply of the SDK, with a stream consumed to its end. -/
inductive Reply where
  | response (response : ChatCompletion)
  | chunks (chunks : List ChatCompletionChunk)
deriving DecidableEq, Repr

/-- The SDK answers a request with a reply, by the path that was asked for. -/
inductive Replies (llm : AnyLLM) (kwargs : LlmKwargs) : Reply → Prop where
  | response {response : ChatCompletion} (path : kwargs.stream = false)
      (answer : llm.complete kwargs = .ok response) : Replies llm kwargs (.response response)
  | chunks {chunks : List ChatCompletionChunk} (path : kwargs.stream = true)
      (answer : llm.stream kwargs = .ok (chunks, none)) : Replies llm kwargs (.chunks chunks)

namespace Reply

/-- The texts of a reply: of a response its one text, of a stream the pieces that are not
empty. -/
def texts : Reply → List String
  | response r => [(r.choices.head?.bind (·.content)).getD ""]
  | chunks cs => (cs.filterMap fun c ↦ c.choices.head?.bind (·.content)).filter (· ≠ "")

/-- The usage reported last. -/
def usage : Reply → TokensUsage
  | response r => r.usage.getD 0
  | chunks cs => (cs.filterMap (·.usage)).getLast?.getD 0

/-- The reasons a reply gives for its end. -/
def finishReasons : Reply → List String
  | response r => ((r.choices.head?.bind (·.finishReason)).filter (· ≠ "")).toList
  | chunks cs => cs.filterMap finishOf

/-- All choices of a reply. -/
def choices : Reply → List Choice
  | response r => r.choices
  | chunks cs => cs.flatMap (·.choices)

/-- A reply within the chat completion types. -/
def Typed (reply : Reply) : Prop :=
  ∀ choice ∈ reply.choices, ∀ reason ∈ choice.finishReason,
    reason ∈ StopReason.chatFinishReasons

/-- A response with a usage and a choice; a stream has nothing it must have. -/
def Whole : Reply → Prop
  | response r => r.usage ≠ none ∧ r.choices ≠ []
  | chunks _ => True

/-- A reply the adapter has a final event for. -/
structure Handled (reply : Reply) : Prop where
  reasons : ∀ reason ∈ reply.finishReasons, StopReason.IsValue reason
  whole : reply.Whole

end Reply

/-- A stream of events keeps the contract on a reply. -/
structure Keeps (stream : LlmStream) (reply : Reply) : Prop where
  completes : stream.raises = none
  events : ∃ done, Session.Contract stream.events reply.texts done ∧
    done.tokensUsage = reply.usage

/-! ## The loop over a stream -/

theorem textEvents_eq_map (chunks : List ChatCompletionChunk) :
    textEvents chunks = (Reply.chunks chunks).texts.map .textChunk := by
  induction chunks with
  | nil => rfl
  | cons chunk chunks ih =>
      rw [textEvents_cons, ih, Reply.texts, Reply.texts, List.filterMap_cons]
      cases chunk.choices.head?.bind (·.content) with
      | none => rfl
      | some text =>
          rw [yieldText]
          by_cases htext : text = ""
          · rw [if_pos htext, List.filter_cons_of_neg (by simpa using htext), List.nil_append]
          · rw [if_neg htext, List.filter_cons_of_pos (by simpa using htext), List.map_cons]
            rfl

/-- A chunk whose reason, if it has one, is ours. -/
theorem onChunk_of_isValue (config : CompletionConfig) (usage : TokensUsage) (r : StopReason)
    {chunk : ChatCompletionChunk} (h : ∀ reason ∈ finishOf chunk, StopReason.IsValue reason) :
    ∃ r' : StopReason, onChunk config ⟨usage, some r.value⟩ chunk =
      .ok (⟨chunk.usage.getD usage, some r'.value⟩,
        yieldText (chunk.choices.head?.bind (·.content))) := by
  cases hfinish : finishOf chunk with
  | none => exact ⟨r, onChunk_of_no_finish config _ hfinish⟩
  | some reason =>
      obtain ⟨r₁, rfl⟩ := h reason hfinish
      exact ⟨_, onChunk_of_finish config _ hfinish⟩

/-- A chunk with another reason ends the loop before its text is yielded. -/
theorem onChunk_of_not_isValue (config : CompletionConfig) (p : Progress)
    {chunk : ChatCompletionChunk} {reason : String} (h : finishOf chunk = some reason)
    (hreason : ¬ StopReason.IsValue reason) :
    onChunk config p chunk =
      .error (.valueError s!"'{reason}' is not a valid StopReason") := by
  obtain ⟨hfinish, hne⟩ := Option.filter_eq_some_iff.mp h
  obtain ⟨choice, hchoice, hchoiceReason⟩ := Option.bind_eq_some_iff.mp hfinish
  obtain ⟨choices, hchoices⟩ := List.head?_eq_some_iff.mp hchoice
  simp only [onChunk, hchoices, hchoiceReason, onFinishReason, if_neg (of_decide_eq_true hne),
    StopReason.ofValue_of_not_isValue hreason]

/-- A stream whose reasons are all ours is read to its end. -/
theorem onStream_of_isValue (config : CompletionConfig) {chunks : List ChatCompletionChunk}
    (h : ∀ reason ∈ chunks.filterMap finishOf, StopReason.IsValue reason) (usage : TokensUsage)
    (r : StopReason) :
    ∃ r' : StopReason, onStream config ⟨usage, some r.value⟩ chunks none =
      (textEvents chunks, .ok ⟨usageAfter usage chunks, some r'.value⟩) := by
  induction chunks generalizing usage r with
  | nil => exact ⟨r, rfl⟩
  | cons chunk chunks ih =>
      obtain ⟨r₁, hchunk⟩ := onChunk_of_isValue config usage r fun reason hreason ↦
        h reason (List.mem_filterMap.mpr ⟨chunk, List.mem_cons_self, hreason⟩)
      have hrest : ∀ reason ∈ chunks.filterMap finishOf, StopReason.IsValue reason := by
        intro reason hreason
        obtain ⟨chunk', hmem, hfinish⟩ := List.mem_filterMap.mp hreason
        exact h reason (List.mem_filterMap.mpr ⟨chunk', List.mem_cons_of_mem _ hmem, hfinish⟩)
      obtain ⟨r₂, hstream⟩ := ih hrest (chunk.usage.getD usage) r₁
      refine ⟨r₂, ?_⟩
      rw [onStream, hchunk]
      simp only [hstream]
      rw [textEvents_cons]
      rfl

/-- A reason that is not ours ends the loop by an exception, whatever came before. -/
theorem onStream_of_not_isValue (config : CompletionConfig) {chunks : List ChatCompletionChunk}
    {reason : String} (hmem : reason ∈ chunks.filterMap finishOf)
    (hreason : ¬ StopReason.IsValue reason) (p : Progress) (raises : Option PyExc) :
    ∃ e, (onStream config p chunks raises).2 = .error e := by
  induction chunks generalizing p with
  | nil => cases hmem
  | cons chunk chunks ih =>
      rw [onStream]
      cases hchunk : onChunk config p chunk with
      | error e => exact ⟨e, rfl⟩
      | ok r =>
          obtain ⟨chunk', hchunk', hfinish⟩ := List.mem_filterMap.mp hmem
          rcases List.mem_cons.mp hchunk' with rfl | hchunk'
          · rw [onChunk_of_not_isValue config p hfinish hreason] at hchunk
            cases hchunk
          · exact ih (List.mem_filterMap.mpr ⟨chunk', hchunk', hfinish⟩) r.1

/-! ## A whole response -/

/-- What is read from a response that is whole. -/
theorem onResponse_of_whole {response : ChatCompletion} (h : (Reply.response response).Whole) :
    ∃ p, onResponse response = ((Reply.response response).texts.map .textChunk, .ok p) ∧
      p.tokensUsage = (Reply.response response).usage ∧
      (p.stopReason.filter (· ≠ "")).toList = (Reply.response response).finishReasons := by
  obtain ⟨husage, hchoices⟩ := h
  obtain ⟨usage, husage⟩ := Option.ne_none_iff_exists'.mp husage
  obtain ⟨choice, choices, hchoices⟩ := List.exists_cons_of_ne_nil hchoices
  refine ⟨⟨usage, choice.finishReason⟩, ?_, ?_, ?_⟩
  · rw [onResponse, husage]
    simp only [Reply.texts, hchoices]
    rfl
  · rw [Reply.usage, husage]
    rfl
  · rw [Reply.finishReasons, hchoices]
    rfl

/-- Only of a whole response anything is read. -/
theorem whole_of_onResponse {response : ChatCompletion} {p : Progress}
    (h : (onResponse response).2 = .ok p) : (Reply.response response).Whole := by
  rw [onResponse] at h
  cases husage : response.usage with
  | none =>
      rw [husage] at h
      cases h
  | some usage =>
      rw [husage] at h
      refine ⟨by rw [husage]; exact Option.some_ne_none usage, fun hchoices ↦ ?_⟩
      simp only [hchoices] at h
      cases h

/-! ## The final event -/

theorem finalStopReason_of_isValue {reason : Option String}
    (h : ∀ value ∈ reason.filter (· ≠ ""), StopReason.IsValue value) :
    ∃ r, finalStopReason reason = .ok r := by
  cases reason with
  | none => exact ⟨.stop, rfl⟩
  | some value =>
      rw [finalStopReason]
      by_cases hvalue : value = ""
      · exact ⟨.stop, if_pos hvalue⟩
      · obtain ⟨r, rfl⟩ := h value
          (Option.filter_eq_some_iff.mpr ⟨rfl, by simpa using hvalue⟩)
        exact ⟨r, (if_neg hvalue).trans (StopReason.ofValue_value r)⟩

theorem isValue_of_finalStopReason {reason : Option String} {r : StopReason}
    (h : finalStopReason reason = .ok r) :
    ∀ value ∈ reason.filter (· ≠ ""), StopReason.IsValue value := by
  intro value hvalue
  obtain ⟨rfl, hne⟩ := Option.filter_eq_some_iff.mp hvalue
  by_contra hnot
  rw [finalStopReason, if_neg (of_decide_eq_true hne),
    StopReason.ofValue_of_not_isValue hnot] at h
  cases h

section

variable {llm : AnyLLM} {config : CompletionConfig} {messages : List Message}
variable {isStreamPrefered : Bool} {elapsedS : ℕ}

theorem acompletion_of_ok {events : List CompletionEvent} {p : Progress} {r : StopReason}
    (hprovider : config.provider = llm.providerName)
    (hrequest : request llm config (buildKwargs config messages isStreamPrefered) =
      (events, .ok p))
    (hstop : finalStopReason p.stopReason = .ok r) :
    acompletion llm messages config isStreamPrefered elapsedS =
      ⟨events ++ [.completionDone ⟨llm.providerName, config.model, p.tokensUsage, r, elapsedS⟩],
        none⟩ := by
  rw [acompletion, if_neg (not_not.mpr hprovider), hrequest]
  simp only [Except.bind, doneEvent, hstop, Except.map]

/-- A call that ends without an exception has read the reply to its end, and has a reason. -/
theorem ok_of_completes
    (h : (acompletion llm messages config isStreamPrefered elapsedS).raises = none) :
    ∃ p r, (request llm config (buildKwargs config messages isStreamPrefered)).2 = .ok p ∧
      finalStopReason p.stopReason = .ok r := by
  rw [acompletion] at h
  split at h
  · cases h
  · cases hrequest : request llm config (buildKwargs config messages isStreamPrefered) with
    | mk events result =>
        rw [hrequest] at h
        cases result with
        | error e => cases h
        | ok p =>
            cases hstop : finalStopReason p.stopReason with
            | error e =>
                simp only [Except.bind, doneEvent, hstop, Except.map] at h
                cases h
            | ok r => exact ⟨p, r, rfl, hstop⟩

/-! ## Every reply -/

theorem request_response {response : ChatCompletion}
    (path : (buildKwargs config messages isStreamPrefered).stream = false)
    (answer : llm.complete (buildKwargs config messages isStreamPrefered) = .ok response) :
    request llm config (buildKwargs config messages isStreamPrefered) = onResponse response := by
  rw [request, if_pos path, answer]

theorem request_chunks {chunks : List ChatCompletionChunk}
    (path : (buildKwargs config messages isStreamPrefered).stream = true)
    (answer : llm.stream (buildKwargs config messages isStreamPrefered) = .ok (chunks, none)) :
    request llm config (buildKwargs config messages isStreamPrefered) =
      onStream config {} chunks none := by
  rw [request, if_neg (by rw [path]; decide), answer]

theorem Keeps.of_texts {events : List CompletionEvent} {done : CompletionDoneEvent}
    {reply : Reply} (hevents : events = reply.texts.map .textChunk)
    (husage : done.tokensUsage = reply.usage) :
    Keeps ⟨events ++ [.completionDone done], none⟩ reply := by
  refine ⟨rfl, done, ?_, husage⟩
  rw [Session.Contract, hevents]

/-- A handled reply is answered as the contract says. -/
theorem keeps_of_handled {reply : Reply} (hprovider : config.provider = llm.providerName)
    (hreply : Replies llm (buildKwargs config messages isStreamPrefered) reply)
    (h : reply.Handled) :
    Keeps (acompletion llm messages config isStreamPrefered elapsedS) reply := by
  cases hreply with
  | response path answer =>
      obtain ⟨p, hread, husage, hreasons⟩ := onResponse_of_whole h.whole
      have hvalues := h.reasons
      rw [← hreasons] at hvalues
      obtain ⟨r, hr⟩ := finalStopReason_of_isValue fun value hvalue ↦
        hvalues value (Option.mem_toList.mpr hvalue)
      rw [acompletion_of_ok hprovider ((request_response path answer).trans hread) hr]
      exact Keeps.of_texts rfl husage
  | @chunks chunks path answer =>
      obtain ⟨r, hread⟩ := onStream_of_isValue config h.reasons 0 .stop
      have hr : finalStopReason (some r.value) = .ok r := by
        rw [finalStopReason, if_neg r.value_ne, StopReason.ofValue_value]
      rw [acompletion_of_ok hprovider ((request_chunks path answer).trans hread) hr]
      exact Keeps.of_texts (textEvents_eq_map chunks) (usageAfter_eq 0 chunks)

/-- A reply that is answered without an exception is handled. -/
theorem handled_of_completes {reply : Reply}
    (hreply : Replies llm (buildKwargs config messages isStreamPrefered) reply)
    (h : (acompletion llm messages config isStreamPrefered elapsedS).raises = none) :
    reply.Handled := by
  obtain ⟨p, r, hp, hr⟩ := ok_of_completes h
  cases hreply with
  | response path answer =>
      rw [request_response path answer] at hp
      have hwhole := whole_of_onResponse hp
      obtain ⟨p', hread, -, hreasons⟩ := onResponse_of_whole hwhole
      rw [hread] at hp
      cases hp
      refine ⟨fun value hvalue ↦ ?_, hwhole⟩
      rw [← hreasons] at hvalue
      exact isValue_of_finalStopReason hr value (Option.mem_toList.mp hvalue)
  | chunks path answer =>
      rw [request_chunks path answer] at hp
      refine ⟨fun reason hreason ↦ ?_, trivial⟩
      by_contra hnot
      obtain ⟨e, he⟩ := onStream_of_not_isValue config hreason hnot {} none
      rw [he] at hp
      cases hp

end

/-- The reasons of a typed reply are those of the chat completion types. -/
theorem Reply.Typed.finishReasons {reply : Reply} (h : reply.Typed) :
    ∀ reason ∈ reply.finishReasons, reason ∈ StopReason.chatFinishReasons := by
  have hfirst : ∀ (choices : List Choice) (reason : String),
      reason ∈ (choices.head?.bind (·.finishReason)).filter (· ≠ "") →
        ∃ choice ∈ choices, reason ∈ choice.finishReason := by
    intro choices reason hreason
    obtain ⟨choice, hchoice, hfinish⟩ :=
      Option.bind_eq_some_iff.mp (Option.filter_eq_some_iff.mp hreason).1
    exact ⟨choice, List.mem_of_mem_head? hchoice, hfinish⟩
  intro reason hreason
  cases reply with
  | response response =>
      obtain ⟨choice, hchoice, hfinish⟩ := hfirst _ reason (Option.mem_toList.mp hreason)
      exact h choice hchoice reason hfinish
  | chunks chunks =>
      obtain ⟨chunk, hchunk, hfinish⟩ := List.mem_filterMap.mp hreason
      obtain ⟨choice, hchoice, hfinish⟩ := hfirst _ reason hfinish
      exact h choice (List.mem_flatMap.mpr ⟨chunk, hchunk, hchoice⟩) reason hfinish

theorem Reply.Typed.handled_iff {reply : Reply} (h : reply.Typed) :
    reply.Handled ↔ "function_call" ∉ reply.finishReasons ∧ reply.Whole := by
  constructor
  · intro hhandled
    refine ⟨fun hmem ↦ ?_, hhandled.whole⟩
    exact (StopReason.isValue_iff_of_chat (h.finishReasons _ hmem)).mp
      (hhandled.reasons _ hmem) rfl
  · rintro ⟨hcall, hwhole⟩
    refine ⟨fun reason hreason ↦ ?_, hwhole⟩
    refine (StopReason.isValue_iff_of_chat (h.finishReasons reason hreason)).mpr ?_
    rintro rfl
    exact hcall hreason

/-- **The contract.**  Of the replies within the chat completion types, the adapter answers
those as the contract says that do not end with `function_call` and, when they come as a
whole, have a usage and a choice. -/
theorem keeps_iff {llm : AnyLLM} {config : CompletionConfig} {messages : List Message}
    {isStreamPrefered : Bool} {reply : Reply} (elapsedS : ℕ)
    (hprovider : config.provider = llm.providerName)
    (hreply : Replies llm (buildKwargs config messages isStreamPrefered) reply)
    (htyped : reply.Typed) :
    Keeps (acompletion llm messages config isStreamPrefered elapsedS) reply ↔
      "function_call" ∉ reply.finishReasons ∧ reply.Whole := by
  rw [← htyped.handled_iff]
  exact ⟨fun h ↦ handled_of_completes hreply h.completes, keeps_of_handled hprovider hreply⟩

theorem typed_sampleChunks : (Reply.chunks sampleChunks).Typed := by
  rw [Reply.Typed]
  decide

/-- The contract on a stream of four chunks. -/
theorem keeps_sampleChunks :
    Keeps (acompletion (sampleLlm sampleResponse sampleChunks) [] .sample true 0)
      (.chunks sampleChunks) := by
  have hreply : Replies (sampleLlm sampleResponse sampleChunks) (buildKwargs .sample [] true)
      (.chunks sampleChunks) := .chunks rfl rfl
  exact (keeps_iff 0 rfl hreply typed_sampleChunks).mpr ⟨by decide, trivial⟩

/-- A stream that ends with a call. -/
def callingChunks : List ChatCompletionChunk :=
  [⟨none, [⟨none, some "yo"⟩]⟩, ⟨some ⟨5, 1⟩, [⟨some "function_call", none⟩]⟩]

/-- A response that comes without a usage. -/
def unmeteredResponse : ChatCompletion := ⟨none, [⟨some "stop", some "yo"⟩]⟩

/-- A stream of the chat completion types whose text is passed on without a final event, and
such a response of which nothing is. -/
theorem not_keeps :
    (Replies (sampleLlm unmeteredResponse callingChunks) (buildKwargs .sample [] true)
        (.chunks callingChunks) ∧ (Reply.chunks callingChunks).Typed ∧
      acompletion (sampleLlm unmeteredResponse callingChunks) [] .sample true 0 =
        ⟨[.textChunk "yo"], some (.valueError "'function_call' is not a valid StopReason")⟩ ∧
      ¬ Keeps (acompletion (sampleLlm unmeteredResponse callingChunks) [] .sample true 0)
        (.chunks callingChunks)) ∧
    (Replies (sampleLlm unmeteredResponse callingChunks) (buildKwargs .sample [] false)
        (.response unmeteredResponse) ∧ (Reply.response unmeteredResponse).Typed ∧
      acompletion (sampleLlm unmeteredResponse callingChunks) [] .sample false 0 =
        ⟨[], some (.attributeError "'NoneType' object has no attribute 'prompt_tokens'")⟩ ∧
      ¬ Keeps (acompletion (sampleLlm unmeteredResponse callingChunks) [] .sample false 0)
        (.response unmeteredResponse)) := by
  refine ⟨⟨.chunks rfl rfl, ?_, by decide, fun h ↦ ?_⟩,
    ⟨.response rfl rfl, ?_, by decide, fun h ↦ ?_⟩⟩
  · rw [Reply.Typed]
    decide
  · exact absurd h.completes (by decide)
  · rw [Reply.Typed]
    decide
  · exact absurd h.completes (by decide)

/-! ## A turn asked of the adapter -/

/-- What a provider replies is what a turn tells and records: however the turn goes on, when
it completes and its main LLM is an adapter that was given a handled reply. -/
theorem told_of_reply [UnicodeData] {llm : AnyLLM} {config : CompletionConfig}
    {messages : List Message} {reply : Reply} {elapsedS : ℕ} {s s' : Session} {prompt : String}
    {stream : Bool} {uuid4 : UUID} {inputs : List Session.Input} {o : List Session.Obs}
    (hcall : ∀ i ∈ inputs, i.isCall = false)
    (h : Session.machine.run (s, none) (.acompletion prompt stream uuid4 :: inputs) =
      some ((s', none), o))
    (hcompleted : Session.Completed (.acompletion prompt stream uuid4 :: inputs) o)
    (hmain : Session.eventsOf .main o =
      (acompletion llm messages config stream elapsedS).events)
    (hprovider : config.provider = llm.providerName)
    (hreply : Replies llm (buildKwargs config messages stream) reply) (hhandled : reply.Handled) :
    (∃ event, Session.yields o = reply.texts.map .textChunk ++ [.completionDone event]) ∧
      Session.Answered s prompt uuid4 (String.join reply.texts) s' := by
  have hkeeps : Keeps (acompletion llm messages config stream elapsedS) reply :=
    keeps_of_handled hprovider hreply hhandled
  obtain ⟨done, hcontract, -⟩ := hkeeps.events
  rw [← hmain] at hcontract
  obtain ⟨⟨event, hyields, -⟩, hanswered⟩ :=
    (Session.concluded_of_turn hcall h hcompleted).of_contract hcontract
  exact ⟨⟨event, hyields⟩, hanswered⟩

/-- A turn whose main LLM is the sample SDK behind the adapter. -/
def sampleReplyTurn : List Session.Input :=
  [.event (.textChunk "y"), .next, .event (.textChunk "o"), .next,
    .event (.completionDone ⟨"p", "m", ⟨5, 1⟩, .length, 0⟩), .mainEnds (.ofNat 2) 0, .next]

/-- The four chunks of the SDK are two texts on the screen and one in the history. -/
theorem told_of_sampleChunks :
    ∃ s' o event, (@Session.machine .asciiOnly).run (App.sampleSession, none)
        (.acompletion "hi" true (.ofNat 1) :: sampleReplyTurn) = some ((s', none), o) ∧
      Session.yields o = [.textChunk "y", .textChunk "o", .completionDone event] ∧
      Session.Answered App.sampleSession "hi" (.ofNat 1) "yo" s' := by
  obtain ⟨⟨⟨s', p⟩, o⟩, hrun, heval⟩ := Option.map_eq_some_iff.mp
    (show ((@Session.machine .asciiOnly).run (App.sampleSession, none)
        (.acompletion "hi" true (.ofNat 1) :: sampleReplyTurn)).map (fun r ↦
          (r.1.2, Session.eventsOf .main r.2, r.2.all fun ob ↦ !ob.aborts)) =
      some (none, (acompletion (sampleLlm sampleResponse sampleChunks) [] .sample true 0).events,
        true) by decide)
  simp only [Prod.mk.injEq] at heval
  obtain ⟨rfl, hmain, hends⟩ := heval
  have hcompleted : Session.Completed (.acompletion "hi" true (.ofNat 1) :: sampleReplyTurn) o := by
    refine ⟨fun strategy hmem ↦ ?_, fun ob hmem ↦ ?_⟩
    · simp [sampleReplyTurn] at hmem
    · simpa using List.all_eq_true.mp hends ob hmem
  have hreply : Replies (sampleLlm sampleResponse sampleChunks) (buildKwargs .sample [] true)
      (.chunks sampleChunks) := .chunks rfl rfl
  have hhandled : (Reply.chunks sampleChunks).Handled := by
    refine ⟨fun reason hreason ↦ ?_, trivial⟩
    rw [List.mem_singleton.mp hreason]
    exact StopReason.isValue_value .stop
  obtain ⟨⟨event, hyields⟩, hanswered⟩ := @told_of_reply .asciiOnly _ .sample [] _ 0
    App.sampleSession s' "hi" true (.ofNat 1) sampleReplyTurn o
    (by simp [sampleReplyTurn, Session.Input.isCall]) hrun hcompleted hmain rfl hreply hhandled
  exact ⟨s', o, event, hrun, hyields, hanswered⟩

end LlmAdapter
