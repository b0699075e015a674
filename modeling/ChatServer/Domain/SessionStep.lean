import ChatServer.Domain.Session

/-!
# What a step of a session can do

`Session.Step` lists the transitions of the machine of
`ChatServer.Domain.Session`, one constructor for each, with the guard under
which it is taken.  `Step.of_step` is the inversion of the step function; every
invariant is a case analysis on `Step` and never unfolds the function.

The last section reads off what a step does to the parts of a session: its
identity and main handle never change, statistics change by the events that
arrive, and the history grows by the record the input draws, if any.
-/

namespace Session

/-! ## Vocabulary for a step -/

/-- What no step changes. -/
structure Frame (s s' : Session) : Prop where
  id : s'.id = s.id
  createdAt : s'.createdAt = s.createdAt
  completionConfig : s'.completionConfig = s.completionConfig
  usageStatsRef : s'.usageStatsRef = s.usageStatsRef
  llmStats : s'.llmStats = s.llmStats

/-- Whether an input starts a call. -/
def Input.isCall : Input → Bool
  | .acompletion _ _ _ => true
  | _ => false

/-- The record an input appends, by role and identifier. -/
def Input.draws : Input → List (String × UUID)
  | .acompletion _ _ uuid4 => [("user", uuid4)]
  | .mainEnds uuid4 _ => [("assistant", uuid4)]
  | _ => []

/-- An event that arrived from an LLM, and the handle it came through. -/
structure Receipt where
  role : Role
  llm : LlmPort
  event : CompletionEvent

/-- The receipts of a trace. -/
def receipts (o : List Obs) : List Receipt :=
  o.filterMap fun
    | .received role llm e => some ⟨role, llm, e⟩
    | _ => none

/-- What the events of a trace are booked as in the statistics object `own`. -/
def billed (own : StatsRef) (o : List Obs) : List Contribution :=
  (receipts o).flatMap fun r ↦ r.llm.bills own r.event

@[simp] theorem receipts_nil : receipts [] = [] := rfl

@[simp] theorem receipts_append (o o' : List Obs) :
    receipts (o ++ o') = receipts o ++ receipts o' := List.filterMap_append

@[simp] theorem billed_nil (own : StatsRef) : billed own [] = [] := rfl

@[simp] theorem billed_append (own : StatsRef) (o o' : List Obs) :
    billed own (o ++ o') = billed own o ++ billed own o' := by
  rw [billed, receipts_append, List.flatMap_append]
  rfl

/-- The LLM a session is waiting for, and the handle it waits at. -/
def awaiting : Session × Option Phase → Option (Role × LlmPort)
  | (s, some (.main _ _)) => some (.main, s.llmStats)
  | (s, some (.summary _ _)) => some (.summary, s.messageContextStrategy.llm)
  | _ => none

/-- The receipt an input brings to a session. -/
def arrival (c : Session × Option Phase) : Input → Option Receipt
  | .event e => (awaiting c).map fun a ↦ ⟨a.1, a.2, e⟩
  | _ => none

/-- A receipt comes from the LLM of the phase, through the handle of that LLM. -/
theorem of_arrival {c : Session × Option Phase} {i : Input} {r : Receipt}
    (h : arrival c i = some r) :
    (∃ text stop e, c.2 = some (.main text stop) ∧ i = .event e ∧
        r = ⟨.main, c.1.llmStats, e⟩) ∨
      ∃ stop text e, c.2 = some (.summary stop text) ∧ i = .event e ∧
        r = ⟨.summary, c.1.messageContextStrategy.llm, e⟩ := by
  obtain ⟨s, p⟩ := c
  cases i with
  | event e =>
      obtain ⟨⟨role, llm⟩, ha, rfl⟩ := Option.map_eq_some_iff.mp h
      match p, ha with
      | some (.main text stop), rfl => exact Or.inl ⟨text, stop, e, rfl, rfl, rfl⟩
      | some (.summary stop text), rfl => exact Or.inr ⟨stop, text, e, rfl, rfl, rfl⟩
  | _ => cases h

/-- Whether an observation is the request to the main LLM with which a call
starts. -/
def Obs.isCall : Obs → Bool
  | .called .main _ => true
  | _ => false

/-- Replacing the strategy keeps the records and takes everything else from the
new strategy. -/
theorem setMessageContextStrategy_ok {s s' : Session} {strategy : MessageContextStrategy}
    (h : s.setMessageContextStrategy strategy = .ok s') :
    ∃ built, s' = { s with messageContextStrategy := built } ∧
      built.base = ⟨strategy.llm, strategy.completionConfig, s.messages⟩ := by
  obtain ⟨built, hb, h⟩ := Py.bind_eq_ok.mp h
  cases h
  exact ⟨built, rfl, MessageContextStrategyFactory.base_build hb⟩

/-- A session starts without records. -/
theorem messages_create {llm : LlmPort} {id : String} {completionConfig : CompletionConfig}
    {billing : Option ModelBilling} {strategyType : String}
    {strategyMetadata : OrderedDict String Json} {strategyLlm : LlmPort}
    {strategyCompletionConfig : CompletionConfig} {strategyBilling : Option ModelBilling}
    {now : Datetime} {ref : StatsRef} {s : Session}
    (h : create llm id completionConfig billing strategyType strategyMetadata strategyLlm
      strategyCompletionConfig strategyBilling now ref = .ok s) : s.messages = [] := by
  obtain ⟨strategy, hb, h⟩ := Py.bind_eq_ok.mp h
  cases h
  exact congrArg StrategyBase.records (MessageContextStrategyFactory.base_build hb)

/-- The identifiers of the records. -/
def ids (s : Session) : List UUID := s.messages.map (·.id)

/-- The identifiers a list of inputs draws. -/
def drawn (inputs : List Input) : List UUID := inputs.flatMap fun i ↦ i.draws.map Prod.snd

theorem drawn_concat (inputs : List Input) (i : Input) :
    drawn (inputs ++ [i]) = drawn inputs ++ i.draws.map Prod.snd := by
  simp [drawn]

/-! ## The transitions -/

/-- The steps that end a call and leave the session as it is. -/
inductive Ends : Phase → Input → Obs → Prop where
  | mainRaises (text : String) (stop : Option StopReason) (e : PyExc) :
      Ends (.main text stop) (.raises e) (.raised e)
  | mainCancelled (text : String) (stop : Option StopReason) :
      Ends (.main text stop) .cancelled (.raised .cancelledError)
  | chunkClosed (text : String) (stop : Option StopReason) :
      Ends (.chunk text stop) .closed .closed
  | summaryRaises (stop : Option StopReason) (text : String) (e : PyExc) :
      Ends (.summary stop text) (.raises e) (.raised e)
  | summaryCancelled (stop : Option StopReason) (text : String) :
      Ends (.summary stop text) .cancelled (.raised .cancelledError)
  | returned : Ends .done .next .returned
  | doneClosed : Ends .done .closed .closed

variable [UnicodeData]

/-- The transitions of a session. -/
inductive Step : Session × Option Phase → Input → Session × Option Phase → List Obs → Prop where
  | acompletion (s : Session) (prompt : String) (stream : Bool) (uuid4 : UUID) :
      Step (s, none) (.acompletion prompt stream uuid4)
        ((s.beginAcompletion prompt stream uuid4).1, some (.main "" none))
        [.called .main (s.beginAcompletion prompt stream uuid4).2]
  | setStrategyFails (s : Session) (strategy : MessageContextStrategy) (e : PyExc)
      (h : s.setMessageContextStrategy strategy = .error e) :
      Step (s, none) (.setStrategy strategy) (s, none) [.raised e]
  | setStrategy (s s' : Session) (strategy : MessageContextStrategy)
      (h : s.setMessageContextStrategy strategy = .ok s') :
      Step (s, none) (.setStrategy strategy) (s', none) []
  | mainText (s : Session) (text : String) (stop : Option StopReason) (t : String) :
      Step (s, some (.main text stop)) (.event (.textChunk t))
        (s.receive s.llmStats (.textChunk t), some (.chunk (text ++ t) stop))
        [.received .main s.llmStats (.textChunk t), .yielded (.textChunk t)]
  | mainDone (s : Session) (text : String) (stop : Option StopReason)
      (event : CompletionDoneEvent) :
      Step (s, some (.main text stop)) (.event (.completionDone event))
        (s.receive s.llmStats (.completionDone event), some (.main text (some event.stopReason)))
        [.received .main s.llmStats (.completionDone event)]
  | chunkNext (s : Session) (text : String) (stop : Option StopReason) :
      Step (s, some (.chunk text stop)) .next (s, some (.main text stop)) []
  | mainEndsFails (s : Session) (text : String) (stop : Option StopReason) (uuid4 : UUID)
      (elapsedS : ℕ) (e : PyExc)
      (h : (s.answer text uuid4).messageContextStrategy.updateContextBegin = .error e) :
      Step (s, some (.main text stop)) (.mainEnds uuid4 elapsedS)
        (s.answer text uuid4, none) [.raised e]
  | mainEnds (s : Session) (text : String) (stop : Option StopReason) (uuid4 : UUID)
      (elapsedS : ℕ)
      (h : (s.answer text uuid4).messageContextStrategy.updateContextBegin = .ok none) :
      Step (s, some (.main text stop)) (.mainEnds uuid4 elapsedS)
        (s.answer text uuid4, some .done)
        [.yielded (.completionDone ((s.answer text uuid4).doneEvent stop elapsedS))]
  | mainEndsSummary (s : Session) (text : String) (stop : Option StopReason) (uuid4 : UUID)
      (elapsedS : ℕ) (request : LlmRequest)
      (h : (s.answer text uuid4).messageContextStrategy.updateContextBegin =
        .ok (some request)) :
      Step (s, some (.main text stop)) (.mainEnds uuid4 elapsedS)
        (s.answer text uuid4, some (.summary stop "")) [.called .summary request]
  | summaryEvent (s : Session) (stop : Option StopReason) (text : String)
      (e : CompletionEvent) :
      Step (s, some (.summary stop text)) (.event e)
        (s.receive s.messageContextStrategy.llm e, some (.summary stop (text ++ e.text)))
        [.received .summary s.messageContextStrategy.llm e]
  | summaryEndsFails (s : Session) (stop : Option StopReason) (text : String) (elapsedS : ℕ)
      (e : PyExc) (h : s.messageContextStrategy.updateContextEnd text = .error e) :
      Step (s, some (.summary stop text)) (.summaryEnds elapsedS) (s, none) [.raised e]
  | summaryEnds (s : Session) (stop : Option StopReason) (text : String) (elapsedS : ℕ)
      (strategy : MessageContextStrategy)
      (h : s.messageContextStrategy.updateContextEnd text = .ok strategy) :
      Step (s, some (.summary stop text)) (.summaryEnds elapsedS)
        ({ s with messageContextStrategy := strategy }, some .done)
        [.yielded (.completionDone
          ({ s with messageContextStrategy := strategy }.doneEvent stop elapsedS))]
  | ends (s : Session) (p : Phase) (i : Input) (ob : Obs) (h : Ends p i ob) :
      Step (s, some p) i (s, none) [ob]

/-- Inversion of the step function. -/
theorem Step.of_step {c c' : Session × Option Phase} {i : Input} {o : List Obs}
    (h : step c i = some (c', o)) : Step c i c' o := by
  fun_cases step c i
  case case1 s prompt stream uuid4 _ _ _ =>
      cases h
      exact .acompletion s prompt stream uuid4
  case case2 s strategy e he =>
      simp only [step, he] at h
      cases h
      exact .setStrategyFails s strategy e he
  case case3 s strategy s' he =>
      simp only [step, he] at h
      cases h
      exact .setStrategy s s' strategy he
  case case4 s text stop e =>
      cases e with
      | textChunk t => cases h; exact .mainText s text stop t
      | completionDone event => cases h; exact .mainDone s text stop event
  case case5 s text stop uuid4 elapsedS =>
      simp only [step, endStream, Option.some.injEq] at h
      split at h
      · rename_i e he
        cases h
        exact .mainEndsFails s text stop uuid4 elapsedS e he
      · rename_i he
        cases h
        exact .mainEnds s text stop uuid4 elapsedS he
      · rename_i request he
        cases h
        exact .mainEndsSummary s text stop uuid4 elapsedS request he
  case case6 s text stop e => cases h; exact .ends s _ _ _ (.mainRaises text stop e)
  case case7 s text stop => cases h; exact .ends s _ _ _ (.mainCancelled text stop)
  case case8 s text stop => cases h; exact .chunkNext s text stop
  case case9 s text stop => cases h; exact .ends s _ _ _ (.chunkClosed text stop)
  case case10 s stop text e => cases h; exact .summaryEvent s stop text e
  case case11 s stop text elapsedS =>
      simp only [step, finish, Option.some.injEq] at h
      split at h
      · rename_i e he
        cases h
        exact .summaryEndsFails s stop text elapsedS e he
      · rename_i strategy he
        cases h
        exact .summaryEnds s stop text elapsedS strategy he
  case case12 s stop text e => cases h; exact .ends s _ _ _ (.summaryRaises stop text e)
  case case13 s stop text => cases h; exact .ends s _ _ _ (.summaryCancelled stop text)
  case case14 s => cases h; exact .ends s _ _ _ .returned
  case case15 s => cases h; exact .ends s _ _ _ .doneClosed
  case case16 => simp_all [step]

/-! ## What a step does to the parts of a session -/

theorem Step.frame {c c' : Session × Option Phase} {i : Input} {o : List Obs}
    (h : Step c i c' o) : Frame c.1 c'.1 := by
  cases h with
  | setStrategy s s' strategy h =>
      obtain ⟨built, rfl, -⟩ := setMessageContextStrategy_ok h
      exact ⟨rfl, rfl, rfl, rfl, rfl⟩
  | _ => exact ⟨rfl, rfl, rfl, rfl, rfl⟩

/-- The main LLM is called exactly when a call starts. -/
theorem Step.called {c c' : Session × Option Phase} {i : Input} {o : List Obs}
    (h : Step c i c' o) :
    if i.isCall then ∃ request, o = [.called .main request] else ∀ ob ∈ o, ob.isCall = false := by
  cases h with
  | acompletion s prompt stream uuid4 => exact ⟨_, rfl⟩
  | ends s p i ob h => cases h <;> simp [Input.isCall, Obs.isCall]
  | _ => simp [Input.isCall, Obs.isCall]

/-- A step receives what its input brings. -/
theorem Step.receipts {c c' : Session × Option Phase} {i : Input} {o : List Obs}
    (h : Step c i c' o) : receipts o = (arrival c i).toList := by
  cases h with
  | ends s p i ob h => cases h <;> rfl
  | _ => rfl

/-- A step resets the current invocation if it starts a call, and then books what
passed through the handles. -/
theorem Step.usageStats {c c' : Session × Option Phase} {i : Input} {o : List Obs}
    (h : Step c i c' o) :
    c'.1.usageStats =
      (if i.isCall then c.1.usageStats.beginInvocation else c.1.usageStats).addAll
        (billed c.1.usageStatsRef o) := by
  cases h with
  | acompletion s prompt stream uuid4 => rfl
  | setStrategy s s' strategy h =>
      obtain ⟨built, rfl, -⟩ := setMessageContextStrategy_ok h
      rfl
  | mainText s text stop t => rfl
  | mainDone s text stop event =>
      simp [receive, LlmPort.receive_eq_addAll, billed, Session.receipts, Input.isCall]
  | summaryEvent s stop text e =>
      simp [receive, LlmPort.receive_eq_addAll, billed, Session.receipts, Input.isCall]
  | ends s p i ob h => cases h <;> rfl
  | _ => rfl

/-- A step that installs no strategy keeps the strategy's handle and
configuration. -/
theorem Step.strategy {c c' : Session × Option Phase} {i : Input} {o : List Obs}
    (h : Step c i c' o) (hi : ∀ strategy, i ≠ .setStrategy strategy) :
    c'.1.messageContextStrategy.llm = c.1.messageContextStrategy.llm ∧
      c'.1.messageContextStrategy.completionConfig =
        c.1.messageContextStrategy.completionConfig := by
  cases h with
  | setStrategy s s' strategy h => exact absurd rfl (hi strategy)
  | acompletion s prompt stream uuid4 =>
      exact ⟨MessageContextStrategy.llm_addUserQuery _ _ _,
        MessageContextStrategy.completionConfig_addUserQuery _ _ _⟩
  | mainEndsFails | mainEnds | mainEndsSummary =>
      exact ⟨MessageContextStrategy.llm_addModelResponse _ _ _,
        MessageContextStrategy.completionConfig_addModelResponse _ _ _⟩
  | summaryEnds s stop text elapsedS strategy h =>
      have hb := MessageContextStrategy.base_updateContextEnd h
      exact ⟨congrArg StrategyBase.llm hb, congrArg StrategyBase.completionConfig hb⟩
  | _ => exact ⟨rfl, rfl⟩

/-- A step appends to the history what its input draws, linked to the last
record, and leaves the records already there. -/
theorem Step.messages {c c' : Session × Option Phase} {i : Input} {o : List Obs}
    (h : Step c i c' o) :
    ∃ content, c'.1.messages = c.1.messages ++ i.draws.map fun d ↦
      ⟨d.2, c.1.messages.getLast?.map (·.id), Message.of d.1 content⟩ := by
  cases h with
  | acompletion s prompt stream uuid4 =>
      exact ⟨prompt, MessageContextStrategy.getHistory_addUserQuery _ _ _⟩
  | mainEndsFails s text | mainEnds s text | mainEndsSummary s text =>
      exact ⟨text, MessageContextStrategy.getHistory_addModelResponse _ _ _⟩
  | setStrategy s s' strategy h =>
      obtain ⟨built, rfl, hb⟩ := setMessageContextStrategy_ok h
      exact ⟨"", (congrArg StrategyBase.records hb).trans (List.append_nil _).symm⟩
  | summaryEnds s stop text elapsedS strategy h =>
      have hb := MessageContextStrategy.base_updateContextEnd h
      exact ⟨"", (congrArg StrategyBase.records hb).trans (List.append_nil _).symm⟩
  | ends s p i ob h => cases h <;> exact ⟨"", (List.append_nil _).symm⟩
  | _ => exact ⟨"", (List.append_nil _).symm⟩

theorem Step.ids {c c' : Session × Option Phase} {i : Input} {o : List Obs}
    (h : Step c i c' o) : c'.1.ids = c.1.ids ++ i.draws.map Prod.snd := by
  obtain ⟨content, hm⟩ := h.messages
  simp [Session.ids, hm]

/-- Induction on a run that installs no strategy. -/
theorem turns_induction {P : List Input → Session × Option Phase → List Obs → Prop}
    {c₀ c : Session × Option Phase} {inputs : List Input} {o : List Obs} (nil : P [] c₀ [])
    (snoc : ∀ inputs c o i c' o', P inputs c o → Step c i c' o' →
      (∀ strategy, i ≠ .setStrategy strategy) → P (inputs ++ [i]) c' (o ++ o'))
    (h : machine.run c₀ inputs = some (c, o))
    (hset : ∀ strategy, .setStrategy strategy ∉ inputs) : P inputs c o := by
  refine Mealy.run_induction_of_steps (P := P)
    (Q := fun _ i ↦ ∀ strategy, i ≠ .setStrategy strategy) nil ?_ h ?_
  · exact fun inputs c o i c' o' hP hi hs ↦ snoc inputs c o i c' o' hP (.of_step hs) hi
  · rintro before i _ _ hp _ strategy rfl
    exact hset strategy (Mealy.mem_of_concat_prefix hp)

theorem frame_of_run {s : Session} {p : Option Phase} {c : Session × Option Phase}
    {inputs : List Input} {o : List Obs} (h : machine.run (s, p) inputs = some (c, o)) :
    Frame s c.1 := by
  refine Mealy.run_invariant (P := fun c ↦ Frame s c.1) ?_ ⟨rfl, rfl, rfl, rfl, rfl⟩ h
  intro c i c' o' hc hs
  have hf := (Step.of_step hs).frame
  exact ⟨hf.id.trans hc.id, hf.createdAt.trans hc.createdAt,
    hf.completionConfig.trans hc.completionConfig, hf.usageStatsRef.trans hc.usageStatsRef,
    hf.llmStats.trans hc.llmStats⟩

/-- The records of a session have the identifiers that were drawn. -/
theorem ids_of_run {s : Session} {c : Session × Option Phase} {inputs : List Input}
    {o : List Obs} (h : machine.run (s, none) inputs = some (c, o)) :
    c.1.ids = s.ids ++ drawn inputs := by
  refine Mealy.run_induction (P := fun inputs c _ ↦ c.1.ids = s.ids ++ drawn inputs)
    (List.append_nil _).symm ?_ h
  intro inputs c _ i c' _ ih hs
  rw [(Step.of_step hs).ids, ih, drawn_concat, List.append_assoc]

end Session
