import ChatServer.Conversation.Cadence

/-!
# One turn, event by event

A turn has two streams behind it: the main LLM's, whose text it passes on, and the one of the
summarisation LLM, which it keeps to itself.  `Told` is how far a turn has come in terms of
the events that have arrived from the main LLM alone: what it has yielded, what it has
recorded, and the stop reason it will report.  The events of the summarisation LLM occur
nowhere in it.
-/

namespace Session

/-! ## Streams and what is yielded -/

/-- The events that arrived from one of the two LLMs. -/
def eventsOf (role : Role) (o : List Obs) : List CompletionEvent :=
  o.filterMap fun
    | .received role' _ e => if role' = role then some e else none
    | _ => none

/-- What `acompletion` yielded. -/
def yields (o : List Obs) : List SessionEvent :=
  o.filterMap fun
    | .yielded e => some e
    | _ => none

/-- The texts of a stream. -/
def textsOf (es : List CompletionEvent) : List String :=
  es.filterMap fun
    | .textChunk text => some text
    | .completionDone _ => none

/-- What one event makes of the stop reason so far. -/
def stopStep (stop : Option StopReason) : CompletionEvent → Option StopReason
  | .textChunk _ => stop
  | .completionDone event => some event.stopReason

/-- The stop reason of a stream: that of its last final event. -/
def stopOf (es : List CompletionEvent) : Option StopReason := es.foldl stopStep none

/-- The contract of `ILlmPort`: text chunks and then one final event. -/
def Contract (es : List CompletionEvent) (texts : List String) (done : CompletionDoneEvent) :
    Prop :=
  es = texts.map .textChunk ++ [.completionDone done]

@[simp] theorem eventsOf_append (role : Role) (o o' : List Obs) :
    eventsOf role (o ++ o') = eventsOf role o ++ eventsOf role o' := List.filterMap_append

@[simp] theorem yields_append (o o' : List Obs) : yields (o ++ o') = yields o ++ yields o' :=
  List.filterMap_append

theorem textsOf_concat_chunk (es : List CompletionEvent) (text : String) :
    textsOf (es ++ [.textChunk text]) = textsOf es ++ [text] := List.filterMap_append

theorem textsOf_concat_done (es : List CompletionEvent) (done : CompletionDoneEvent) :
    textsOf (es ++ [.completionDone done]) = textsOf es := by
  rw [textsOf, List.filterMap_append]
  exact List.append_nil _

theorem stopOf_concat (es : List CompletionEvent) (e : CompletionEvent) :
    stopOf (es ++ [e]) = stopStep (stopOf es) e := List.foldl_append

theorem textsOf_map (texts : List String) : textsOf (texts.map .textChunk) = texts := by
  induction texts with
  | nil => rfl
  | cons text texts ih => exact congrArg (text :: ·) ih

/-- A stream that keeps the contract. -/
theorem Contract.textsOf {es : List CompletionEvent} {texts : List String}
    {done : CompletionDoneEvent} (h : Contract es texts done) : textsOf es = texts := by
  rw [h, textsOf_concat_done, textsOf_map]

theorem Contract.stopOf {es : List CompletionEvent} {texts : List String}
    {done : CompletionDoneEvent} (h : Contract es texts done) :
    stopOf es = some done.stopReason := by
  rw [h, stopOf_concat]
  rfl

/-- The text of the chunks so far and one more. -/
theorem join_concat (texts : List String) (text : String) :
    String.join (texts ++ [text]) = String.join texts ++ text := by
  rw [String.join, String.join, List.foldl_append]
  rfl

/-! ## A turn -/

/-- The record of the prompt. -/
def question (s : Session) (prompt : String) (uuid4 : UUID) : MessageRecord :=
  ⟨uuid4, s.messages.getLast?.map (·.id), Message.of "user" prompt⟩

/-- The history of a session after a question and its answer. -/
def Answered (s : Session) (prompt : String) (uuid4 : UUID) (text : String) (s' : Session) :
    Prop :=
  ∃ uuid4', s'.messages =
    s.messages ++ [s.question prompt uuid4, ⟨uuid4', some uuid4, Message.of "assistant" text⟩]

/-- The main LLM is being listened to: `es` has arrived, and `ys` was yielded. -/
structure Asking (s : Session) (prompt : String) (uuid4 : UUID) (s' : Session)
    (es : List CompletionEvent) (ys : List SessionEvent) (text : String)
    (stop : Option StopReason) : Prop where
  messages : s'.messages = s.messages ++ [s.question prompt uuid4]
  yields : ys = (textsOf es).map .textChunk
  text : text = String.join (textsOf es)
  stop : stop = stopOf es

/-- The answer is recorded, and the summarisation LLM is being listened to. -/
structure Summarising (s : Session) (prompt : String) (uuid4 : UUID) (s' : Session)
    (es : List CompletionEvent) (ys : List SessionEvent) (stop : Option StopReason) : Prop where
  answered : Answered s prompt uuid4 (String.join (textsOf es)) s'
  yields : ys = (textsOf es).map .textChunk
  stop : stop = stopOf es

/-- The final event is yielded. -/
structure Concluded (s : Session) (prompt : String) (uuid4 : UUID) (s' : Session)
    (es : List CompletionEvent) (ys : List SessionEvent) : Prop where
  answered : Answered s prompt uuid4 (String.join (textsOf es)) s'
  yields : ∃ event, ys = (textsOf es).map .textChunk ++ [.completionDone event] ∧
    event.stopReason = (stopOf es).getD .stop

theorem Concluded.of_contract {s s' : Session} {prompt : String} {uuid4 : UUID}
    {es : List CompletionEvent} {ys : List SessionEvent} {texts : List String}
    {done : CompletionDoneEvent} (h : Concluded s prompt uuid4 s' es ys)
    (hmain : Contract es texts done) :
    (∃ event, ys = texts.map .textChunk ++ [.completionDone event] ∧
        event.stopReason = done.stopReason) ∧
      Answered s prompt uuid4 (String.join texts) s' := by
  obtain ⟨hanswered, event, hyields, hstop⟩ := h
  rw [hmain.textsOf] at hanswered hyields
  rw [hmain.stopOf] at hstop
  exact ⟨⟨event, hyields, hstop⟩, hanswered⟩

/-- How far a turn has come that started in `s`. -/
def Told (s : Session) (prompt : String) (uuid4 : UUID) (es : List CompletionEvent)
    (ys : List SessionEvent) : Session × Option Phase → Prop
  | (s', some (.main text stop)) => Asking s prompt uuid4 s' es ys text stop
  | (s', some (.chunk text stop)) => Asking s prompt uuid4 s' es ys text stop
  | (s', some (.summary stop _)) => Summarising s prompt uuid4 s' es ys stop
  | (s', some .done) => Concluded s prompt uuid4 s' es ys
  | (s', none) => Concluded s prompt uuid4 s' es ys

/-- The answer is recorded behind the question. -/
theorem answered_answer {s s' : Session} {prompt : String} {uuid4 : UUID} (text : String)
    (uuid4' : UUID) (hmessages : s'.messages = s.messages ++ [s.question prompt uuid4]) :
    Answered s prompt uuid4 text (s'.answer text uuid4') := by
  refine ⟨uuid4', ?_⟩
  have hhistory := MessageContextStrategy.getHistory_addModelResponse s'.messageContextStrategy
    text uuid4'
  rw [show s'.messageContextStrategy.getHistory = _ from hmessages, List.getLast?_concat,
    List.append_assoc] at hhistory
  exact hhistory

section

variable [UnicodeData]

/-- **One step** of a turn that completes. -/
theorem Told.step {s : Session} {prompt : String} {uuid4 : UUID} {es : List CompletionEvent}
    {ys : List SessionEvent} {c c' : Session × Option Phase} {i : Input} {o : List Obs}
    (hT : Told s prompt uuid4 es ys c) (h : Step c i c' o) (hcall : i.isCall = false)
    (hcompleting : Completing i o) :
    Told s prompt uuid4 (es ++ eventsOf .main o) (ys ++ yields o) c' := by
  obtain ⟨hset, hends⟩ := hcompleting
  cases h with
  | acompletion => cases hcall
  | setStrategyFails s strategy | setStrategy s s' strategy => exact absurd rfl (hset strategy)
  | mainText s₁ text stop t =>
      refine ⟨hT.messages, ?_, ?_, ?_⟩
      · show ys ++ [.textChunk t] = (textsOf (es ++ [.textChunk t])).map .textChunk
        rw [textsOf_concat_chunk, hT.yields, List.map_append]
        rfl
      · show text ++ t = String.join (textsOf (es ++ [.textChunk t]))
        rw [textsOf_concat_chunk, join_concat, hT.text]
      · show stop = stopOf (es ++ [.textChunk t])
        rw [stopOf_concat, hT.stop]
        rfl
  | mainDone s₁ text stop event =>
      refine ⟨hT.messages, ?_, ?_, ?_⟩
      · show ys ++ [] = (textsOf (es ++ [.completionDone event])).map .textChunk
        rw [textsOf_concat_done, List.append_nil, hT.yields]
      · show text = String.join (textsOf (es ++ [.completionDone event]))
        rw [textsOf_concat_done, hT.text]
      · show some event.stopReason = stopOf (es ++ [.completionDone event])
        rw [stopOf_concat]
        rfl
  | chunkNext s₁ text stop =>
      show Told s prompt uuid4 (es ++ []) (ys ++ []) _
      rw [List.append_nil, List.append_nil]
      exact hT
  | mainEndsFails | summaryEndsFails =>
      exact absurd (hends _ (List.mem_singleton_self _)) (by simp [Obs.aborts])
  | mainEnds s₁ text stop uuid4' elapsedS hbegin =>
      show Told s prompt uuid4 (es ++ []) (ys ++ [.completionDone _]) _
      rw [List.append_nil]
      refine ⟨?_, (s₁.answer text uuid4').doneEvent stop elapsedS, ?_, ?_⟩
      · rw [← hT.text]
        exact answered_answer text uuid4' hT.messages
      · rw [hT.yields]
      · rw [← hT.stop]
        rfl
  | mainEndsSummary s₁ text stop uuid4' elapsedS request hbegin =>
      show Told s prompt uuid4 (es ++ []) (ys ++ []) _
      rw [List.append_nil, List.append_nil]
      refine ⟨?_, hT.yields, hT.stop⟩
      rw [← hT.text]
      exact answered_answer text uuid4' hT.messages
  | summaryEvent s₁ stop text e =>
      show Told s prompt uuid4 (es ++ []) (ys ++ []) _
      rw [List.append_nil, List.append_nil]
      exact ⟨hT.answered, hT.yields, hT.stop⟩
  | summaryEnds s₁ stop text elapsedS strategy hend =>
      show Told s prompt uuid4 (es ++ []) (ys ++ [.completionDone _]) _
      rw [List.append_nil]
      obtain ⟨uuid4', hmessages⟩ := hT.answered
      have hbase := MessageContextStrategy.base_updateContextEnd hend
      refine ⟨⟨uuid4', ?_⟩,
        { s₁ with messageContextStrategy := strategy }.doneEvent stop elapsedS, ?_, ?_⟩
      · exact (congrArg StrategyBase.records hbase).trans hmessages
      · rw [hT.yields]
      · rw [← hT.stop]
        rfl
  | ends s₁ p i ob hends' =>
      cases hends' with
      | returned =>
          show Told s prompt uuid4 (es ++ []) (ys ++ []) _
          rw [List.append_nil, List.append_nil]
          exact hT
      | _ => exact absurd (hends _ (List.mem_singleton_self _)) (by simp [Obs.aborts])

/-- Where a turn that completes has come to. -/
theorem concluded_of_turn {s s' : Session} {prompt : String} {stream : Bool} {uuid4 : UUID}
    {inputs : List Input} {o : List Obs} (hcall : ∀ i ∈ inputs, i.isCall = false)
    (h : machine.run (s, none) (.acompletion prompt stream uuid4 :: inputs) =
      some ((s', none), o))
    (hcompleted : Completed (.acompletion prompt stream uuid4 :: inputs) o) :
    Concluded s prompt uuid4 s' (eventsOf .main o) (yields o) := by
  obtain ⟨c₁, o₁, o₂, hs, hrun, rfl⟩ := Mealy.exists_of_run_cons h
  cases hs
  have hbegun : Told s prompt uuid4 [] []
      ((s.beginAcompletion prompt stream uuid4).1, some (.main "" none)) :=
    ⟨MessageContextStrategy.getHistory_addUserQuery _ _ _, rfl, rfl, rfl⟩
  have htold : Told s prompt uuid4 (eventsOf .main o₂) (yields o₂) (s', none) := by
    have hcompleted₂ : Completed inputs o₂ :=
      ⟨fun strategy hmem ↦ hcompleted.set strategy (List.mem_cons_of_mem _ hmem),
        fun ob hmem ↦ hcompleted.ends ob (List.mem_append_right _ hmem)⟩
    refine Mealy.run_induction (P := fun inputs c o ↦ (∀ i ∈ inputs, i.isCall = false) →
      Completed inputs o → Told s prompt uuid4 (eventsOf .main o) (yields o) c)
      (fun _ _ ↦ hbegun) ?_ hrun hcall hcompleted₂
    intro inputs c o i c' o' ih hs hcall hcompleted
    obtain ⟨hcompleted, hcompleting⟩ := hcompleted.of_concat
    rw [eventsOf_append, yields_append]
    refine (ih (fun i hi ↦ hcall i (List.mem_append_left _ hi)) hcompleted).step (.of_step hs) ?_
      hcompleting
    exact hcall i (List.mem_append_right _ (List.mem_singleton_self _))
  -- the first step announces a request, which is neither an event nor yielded
  exact htold

/-- **One turn.**  However the events of the two LLMs interleave with the consumer, a turn
that completes yields the texts of the main LLM and then one final event with its stop
reason, and records the prompt and the text that was yielded. -/
theorem told_of_turn {s s' : Session} {prompt : String} {stream : Bool} {uuid4 : UUID}
    {inputs : List Input} {o : List Obs} {texts : List String} {done : CompletionDoneEvent}
    (hcall : ∀ i ∈ inputs, i.isCall = false)
    (h : machine.run (s, none) (.acompletion prompt stream uuid4 :: inputs) =
      some ((s', none), o))
    (hcompleted : Completed (.acompletion prompt stream uuid4 :: inputs) o)
    (hmain : Contract (eventsOf .main o) texts done) :
    (∃ event, yields o = texts.map .textChunk ++ [.completionDone event] ∧
        event.stopReason = done.stopReason) ∧
      Answered s prompt uuid4 (String.join texts) s' :=
  (concluded_of_turn hcall h hcompleted).of_contract hmain

end

/-- A session with a summary strategy whose window is full after every turn. -/
def sampleSummarised : Session :=
  init (.port "main") "s" ⟨0⟩ .sample none ⟨0⟩ (.init none)
    (.summary (.sampleOf (.decorated (.port "summariser") ⟨0⟩ none) 1))

/-- A turn that ends with a summarisation. -/
def summarisedTurn : List Input :=
  [.event (.textChunk "y"), .next, .event (.textChunk "o"), .next,
    .event (.completionDone ⟨"p", "m", ⟨1, 2⟩, .length, 0⟩), .mainEnds (.ofNat 2) 0,
    .event (.textChunk "S"), .event (.completionDone ⟨"p", "m", ⟨3, 1⟩, .stop, 0⟩),
    .summaryEnds 0, .next]

/-- The text of the summary is not told. -/
theorem told_of_summarisedTurn :
    ∃ s' o event, (@machine .asciiOnly).run (sampleSummarised, none)
        (.acompletion "hi" true (.ofNat 1) :: summarisedTurn) = some ((s', none), o) ∧
      eventsOf .summary o = [.textChunk "S", .completionDone ⟨"p", "m", ⟨3, 1⟩, .stop, 0⟩] ∧
      yields o = [.textChunk "y", .textChunk "o", .completionDone event] ∧
      event.stopReason = .length ∧ Answered sampleSummarised "hi" (.ofNat 1) "yo" s' := by
  obtain ⟨⟨⟨s', p⟩, o⟩, hrun, heval⟩ := Option.map_eq_some_iff.mp
    (show ((@machine .asciiOnly).run (sampleSummarised, none)
        (.acompletion "hi" true (.ofNat 1) :: summarisedTurn)).map (fun r ↦
          (r.1.2, eventsOf .main r.2, eventsOf .summary r.2, r.2.all fun ob ↦ !ob.aborts)) =
      some (none, [.textChunk "y", .textChunk "o", .completionDone ⟨"p", "m", ⟨1, 2⟩, .length, 0⟩],
        [.textChunk "S", .completionDone ⟨"p", "m", ⟨3, 1⟩, .stop, 0⟩], true) by decide)
  simp only [Prod.mk.injEq] at heval
  obtain ⟨rfl, hmain, hsummary, hends⟩ := heval
  obtain ⟨⟨event, hyields, hstop⟩, hanswered⟩ := @told_of_turn .asciiOnly sampleSummarised s'
    "hi" true (.ofNat 1) summarisedTurn o ["y", "o"] ⟨"p", "m", ⟨1, 2⟩, .length, 0⟩
    (by simp [summarisedTurn, Input.isCall]) hrun
    ⟨fun strategy hmem ↦ by simp [summarisedTurn] at hmem, fun ob hmem ↦ by
      simpa using List.all_eq_true.mp hends ob hmem⟩ hmain
  exact ⟨s', o, event, hrun, hsummary, hyields, hstop, hanswered⟩

end Session
