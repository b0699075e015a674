import ChatServer.Conversation.History

/-!
# The books of a session

What the statistics of a session amount to over a run, against the final events
the two LLMs yielded in it.

An event reaches the statistics through the decorators on the handle it came
by.  The main handle gets its decorator in `Session.__init__`; the handle of a
strategy is whatever its maker passed.  `Accounted` says that nothing was missed
and nothing counted twice, and `accounted_iff` says which steps keep it so.

For the strategy a session was made with the handles are known (`Wired`), and
the statistics are a function of the trace: `statistics_of_run`.
-/

namespace LlmPort

/-- A final event passes on its usage once for each decorator. -/
theorem usageFor_billsDone (own : StatsRef) (llm : LlmPort) (event : CompletionDoneEvent)
    (p m : String) :
    Contribution.usageFor (llm.billsDone own event) p m =
      llm.countOf own • if event.provider = p ∧ event.model = m then event.tokensUsage else 0 := by
  have hmap := congrArg
    (List.map fun t : String × String × TokensUsage ↦ if t.1 = p ∧ t.2.1 = m then t.2.2 else 0)
    (llm.usage_billsDone own event)
  rw [List.map_map, List.map_replicate] at hmap
  rw [Contribution.usageFor_eq_sum, ← List.sum_replicate, ← hmap]
  rfl

/-- Below a handle without decorators of `own` nothing is booked. -/
theorem billsDone_eq_nil {own : StatsRef} {llm : LlmPort} (h : llm.countOf own = 0)
    (event : CompletionDoneEvent) : llm.billsDone own event = [] := by
  have hmap := llm.usage_billsDone own event
  rw [h] at hmap
  exact List.map_eq_nil_iff.mp hmap

/-- Through a single decorator an event is booked once, at that decorator's
price. -/
theorem billsDone_decorated {own : StatsRef} {llm : LlmPort} (h : llm.countOf own = 0)
    (billing : Option ModelBilling) (event : CompletionDoneEvent) :
    (decorated llm own billing).billsDone own event =
      [⟨event.provider, event.model,
        ⟨event.tokensUsage, LlmStatsDecorator.cost billing event⟩⟩] := by
  rw [billsDone, billsDone_eq_nil h, if_pos rfl]
  rfl

end LlmPort

namespace Session

/-! ## The handles a session is made with -/

/-- Each of the two handles has one decorator of the session's own statistics, on
the outside, with the billing of its role. -/
structure Wired (billing : Role → Option ModelBilling) (s : Session) : Prop where
  main : ∃ llm : LlmPort, s.llmStats = .decorated llm s.usageStatsRef (billing .main) ∧
    llm.countOf s.usageStatsRef = 0
  summary : ∃ llm : LlmPort, s.messageContextStrategy.llm =
    .decorated llm s.usageStatsRef (billing .summary) ∧ llm.countOf s.usageStatsRef = 0

section

variable [UnicodeData]

/-- Installing no strategy keeps the handles. -/
theorem Wired.step {billing : Role → Option ModelBilling} {c c' : Session × Option Phase}
    {i : Input} {o : List Obs} (hw : Wired billing c.1) (h : Step c i c' o)
    (hi : ∀ strategy, i ≠ .setStrategy strategy) : Wired billing c'.1 := by
  obtain ⟨-, -, -, href, hstats⟩ := h.frame
  constructor
  · rw [hstats, href]
    exact hw.main
  · rw [(h.strategy hi).1, href]
    exact hw.summary

theorem Wired.run {billing : Role → Option ModelBilling} {s : Session}
    {c : Session × Option Phase} {inputs : List Input} {o : List Obs} (hw : Wired billing s)
    (h : machine.run (s, none) inputs = some (c, o))
    (hset : ∀ strategy, .setStrategy strategy ∉ inputs) : Wired billing c.1 := by
  refine turns_induction (P := fun _ c _ ↦ Wired billing c.1) hw ?_ h hset
  exact fun _ _ _ _ _ _ hw hs hi ↦ hw.step hs hi

end

/-! ## Every token once -/

/-- The tokens an event reports for one provider and model. -/
def reportedBy (p m : String) : CompletionEvent → TokensUsage
  | .textChunk _ => 0
  | .completionDone e => if e.provider = p ∧ e.model = m then e.tokensUsage else 0

/-- The tokens the LLMs of a trace reported for one provider and model. -/
def reported (o : List Obs) (p m : String) : TokensUsage :=
  ((receipts o).map fun r ↦ reportedBy p m r.event).sum

@[simp] theorem reported_append (o o' : List Obs) (p m : String) :
    reported (o ++ o') p m = reported o p m + reported o' p m := by
  simp [reported]

/-- The totals of `c` are those of `s` and what the LLMs reported since. -/
def Accounted (s : Session) (c : Session × Option Phase) (o : List Obs) : Prop :=
  ∀ p m, c.1.usageStats.lifecycleTotalData.usage p m =
    s.usageStats.lifecycleTotalData.usage p m + reported o p m

/-- If the next input is a final event of the summarisation LLM that reports any
tokens, the handle of the strategy has exactly one decorator of the session's own
statistics. -/
def Counted (c : Session × Option Phase) (i : Input) : Prop :=
  ∀ stop text event, c.2 = some (.summary stop text) → i = .event (.completionDone event) →
    event.tokensUsage = 0 ∨ c.1.messageContextStrategy.llm.countOf c.1.usageStatsRef = 1

/-- With its own handles every step of a session is `Counted`. -/
theorem Wired.counted {billing : Role → Option ModelBilling} {c : Session × Option Phase}
    (hw : Wired billing c.1) (i : Input) : Counted c i := by
  intro stop text event _ _
  obtain ⟨llm, hllm, hcount⟩ := hw.summary
  refine Or.inr ?_
  rw [hllm, LlmPort.countOf, hcount, if_pos rfl]

theorem usageFor_bills (own : StatsRef) (r : Receipt) (p m : String) :
    Contribution.usageFor (r.llm.bills own r.event) p m =
      r.llm.countOf own • reportedBy p m r.event := by
  obtain ⟨role, llm, event⟩ := r
  cases event with
  | textChunk t => exact (nsmul_zero _).symm
  | completionDone event => exact llm.usageFor_billsDone own event p m

/-- A multiple of some tokens is those tokens only once, or if there are none. -/
theorem nsmul_eq_self_iff {n : ℕ} {u : TokensUsage} : n • u = u ↔ u = 0 ∨ n = 1 := by
  have hp : (n • u).promptTokens = n * u.promptTokens ∧
      (n • u).completionTokens = n * u.completionTokens := by
    induction n with
    | zero => simp
    | succ n ih => simp [succ_nsmul, ih, Nat.succ_mul]
  constructor
  · intro h
    rw [h] at hp
    by_cases hn : n = 1
    · exact Or.inr hn
    · refine Or.inl (TokensUsage.ext ?_ ?_)
      · exact (Nat.eq_zero_or_pos _).resolve_right fun hpos ↦
          hn (Nat.eq_of_mul_eq_mul_right hpos (hp.1.symm.trans (Nat.one_mul _).symm))
      · exact (Nat.eq_zero_or_pos _).resolve_right fun hpos ↦
          hn (Nat.eq_of_mul_eq_mul_right hpos (hp.2.symm.trans (Nat.one_mul _).symm))
  · rintro (rfl | rfl)
    · exact nsmul_zero n
    · exact one_nsmul u

/-- A receipt books exactly what it reports if and only if its handle counts it
once, or it reports nothing. -/
theorem usageFor_bills_eq_iff (own : StatsRef) (r : Receipt) :
    (∀ p m, Contribution.usageFor (r.llm.bills own r.event) p m = reportedBy p m r.event) ↔
      ∀ event, r.event = .completionDone event →
        event.tokensUsage = 0 ∨ r.llm.countOf own = 1 := by
  constructor
  · intro h event he
    have hpm := h event.provider event.model
    rw [usageFor_bills, he, reportedBy, if_pos ⟨rfl, rfl⟩] at hpm
    exact nsmul_eq_self_iff.mp hpm
  · intro h p m
    rw [usageFor_bills]
    cases he : r.event with
    | textChunk t => exact nsmul_zero _
    | completionDone event =>
        rw [reportedBy]
        split
        · exact nsmul_eq_self_iff.mpr (h event he)
        · exact nsmul_zero _

section

variable [UnicodeData]

/-- A step adds to the totals what its receipt books. -/
theorem Step.usage {c c' : Session × Option Phase} {i : Input} {o : List Obs}
    (h : Step c i c' o) (p m : String) :
    c'.1.usageStats.lifecycleTotalData.usage p m =
      c.1.usageStats.lifecycleTotalData.usage p m +
        Contribution.usageFor (billed c.1.usageStatsRef o) p m := by
  rw [h.usageStats]
  split
  · exact UsageStatsAccumulator.usage_addAll _ _ p m
  · exact UsageStatsAccumulator.usage_addAll _ _ p m

/-- What has been paid stays paid. -/
theorem Step.cost {c c' : Session × Option Phase} {i : Input} {o : List Obs}
    (h : Step c i c' o) {p m : String} {cost : TokensCost}
    (hcost : c.1.usageStats.lifecycleTotalData.cost p m = some cost) :
    ∃ added, c'.1.usageStats.lifecycleTotalData.cost p m = some (cost + added) := by
  rw [h.usageStats]
  split
  · exact UsageStatsAccumulator.cost_addAll hcost _
  · exact UsageStatsAccumulator.cost_addAll hcost _

/-- A step books what it reports if and only if it is `Counted`. -/
theorem Step.usageFor_billed_eq_iff {c c' : Session × Option Phase} {i : Input} {o : List Obs}
    (h : Step c i c' o) (hmain : c.1.llmStats.countOf c.1.usageStatsRef = 1) :
    (∀ p m, Contribution.usageFor (billed c.1.usageStatsRef o) p m = reported o p m) ↔
      Counted c i := by
  simp only [billed, reported, h.receipts]
  cases ha : arrival c i with
  | none =>
      refine ⟨fun _ ↦ ?_, fun _ _ _ ↦ rfl⟩
      rintro stop text event hp rfl
      obtain ⟨s, p⟩ := c
      cases hp
      cases ha
  | some r =>
      simp only [Option.toList_some, List.flatMap_singleton, List.map_singleton,
        List.sum_singleton]
      rw [usageFor_bills_eq_iff]
      rcases of_arrival ha with ⟨text, stop, e, hc, rfl, rfl⟩ | ⟨stop, text, e, hc, rfl, rfl⟩
      · -- the main LLM: its decorator is always there
        refine ⟨fun _ _ _ _ hp ↦ ?_, fun _ _ _ ↦ Or.inr hmain⟩
        rw [hc] at hp
        cases hp
      · exact ⟨fun hall _ _ event _ he ↦ hall event (Input.event.inj he),
          fun hcount event he ↦ hcount stop text event hc (congrArg Input.event he)⟩

end

/-- A strategy around a handle that keeps no statistics. -/
def rawSummary : MessageContextStrategy :=
  .summary (.sampleOf (.port "summariser") 0)

/-- A call that ends with a summarisation; both LLMs report tokens. -/
def summarisedCall : List Input :=
  [.acompletion "hi" true (.ofNat 1),
    .event (.completionDone ⟨"p", "m", ⟨1, 1⟩, .stop, 0⟩), .mainEnds (.ofNat 2) 0,
    .event (.textChunk "They met."), .event (.completionDone ⟨"p", "m", ⟨5, 5⟩, .stop, 0⟩),
    .summaryEnds 0, .next]

/-- A strategy that is installed with its own handle spends tokens nobody books. -/
theorem summary_tokens_missed :
    ∃ c o, (@machine .asciiOnly).run (sampleDummy, none)
        (.setStrategy rawSummary :: summarisedCall) = some (c, o) ∧ c.2 = none ∧
      c.1.usageStats.lifecycleTotalData.usage "p" "m" = ⟨1, 1⟩ ∧ reported o "p" "m" = ⟨6, 6⟩ ∧
        ¬ Accounted sampleDummy c o := by
  obtain ⟨⟨c, o⟩, hrun, heval⟩ := Option.map_eq_some_iff.mp
    (show ((@machine .asciiOnly).run (sampleDummy, none)
      (.setStrategy rawSummary :: summarisedCall)).map (fun r ↦
        (r.1.2, r.1.1.usageStats.lifecycleTotalData.usage "p" "m", reported r.2 "p" "m")) =
          some (none, ⟨1, 1⟩, ⟨6, 6⟩) by decide)
  obtain ⟨hp, hu, hr⟩ : c.2 = none ∧ _ = _ ∧ _ = _ := by simpa using heval
  refine ⟨c, o, hrun, hp, hu, hr, fun hacc ↦ ?_⟩
  have hpm := hacc "p" "m"
  rw [hu, hr] at hpm
  exact absurd hpm (by decide)

/-- Over every run of a session, its totals account for every reported token
exactly once in every state if and only if every step is `Counted`. -/
theorem accounted_iff [UnicodeData] {llm : LlmPort} {id : String} {createdAt : Datetime}
    {completionConfig : CompletionConfig} {billing : Option ModelBilling} {ref : StatsRef}
    {usageStats : SessionUsageStats} {strategy : MessageContextStrategy} {s : Session}
    {c : Session × Option Phase} {inputs : List Input} {o : List Obs}
    (hs : s = init llm id createdAt completionConfig billing ref usageStats strategy)
    (hllm : llm.countOf ref = 0) (h : machine.run (s, none) inputs = some (c, o)) :
    (∀ before c₁ o₁, before <+: inputs → machine.run (s, none) before = some (c₁, o₁) →
        Accounted s c₁ o₁) ↔
      ∀ before i c₁ o₁, before ++ [i] <+: inputs →
        machine.run (s, none) before = some (c₁, o₁) → Counted c₁ i := by
  have hmain : s.llmStats.countOf s.usageStatsRef = 1 := by
    subst hs
    rw [init, LlmPort.countOf, hllm, if_pos rfl]
  refine Mealy.run_forall_prefix_iff
    (I := fun c ↦ c.1.llmStats.countOf c.1.usageStatsRef = 1) hmain
    (fun p m ↦ (add_zero _).symm) ?_ ?_ h
  · intro c i c' o hI hstep
    obtain ⟨-, -, -, href, hstats⟩ := (Step.of_step hstep).frame
    rw [href, hstats]
    exact hI
  · intro c o i c' o' hI hacc hstep
    have hs := Step.of_step hstep
    rw [← hs.usageFor_billed_eq_iff hI]
    constructor
    · intro hacc' p m
      have hp := hacc' p m
      rw [hs.usage, hacc p m, reported_append, add_assoc] at hp
      refine TokensUsage.ext ?_ ?_
      · exact Nat.add_left_cancel (Nat.add_left_cancel (congrArg TokensUsage.promptTokens hp))
      · exact Nat.add_left_cancel
          (Nat.add_left_cancel (congrArg TokensUsage.completionTokens hp))
    · intro heq p m
      rw [hs.usage, hacc p m, heq p m, reported_append, add_assoc]

/-- A summary session to evaluate runs with, as `Session.create` makes it. -/
def sampleSummary : Session :=
  init (.port "main") "s" ⟨0⟩ .sample none ⟨0⟩ (.init none)
    (.summary (.sampleOf (.decorated (.port "summariser") ⟨0⟩ none) 0))

theorem wired_sampleSummary : Wired (fun _ ↦ none) sampleSummary :=
  ⟨⟨.port "main", rfl, rfl⟩, ⟨.port "summariser", rfl, rfl⟩⟩

/-- With the strategy it was made with the same call is accounted for. -/
theorem accounted_summarisedCall :
    ∃ c o, (@machine .asciiOnly).run (sampleSummary, none) summarisedCall = some (c, o) ∧
      reported o "p" "m" = ⟨6, 6⟩ ∧ Accounted sampleSummary c o := by
  obtain ⟨⟨c, o⟩, hrun, heval⟩ := Option.map_eq_some_iff.mp
    (show ((@machine .asciiOnly).run (sampleSummary, none) summarisedCall).map (fun r ↦
      reported r.2 "p" "m") = some ⟨6, 6⟩ by decide)
  refine ⟨c, o, hrun, heval, ?_⟩
  have hiff := @accounted_iff .asciiOnly (.port "main") "s" ⟨0⟩ .sample none ⟨0⟩ _ _
    sampleSummary c summarisedCall o rfl rfl hrun
  refine hiff.mpr (fun before i c₁ o₁ hp hr ↦ ?_) summarisedCall c o List.prefix_rfl hrun
  refine (@Wired.run .asciiOnly _ _ _ _ _ wired_sampleSummary hr fun strategy hmem ↦ ?_).counted i
  have hsub := hp.subset (List.mem_append_left [i] hmem)
  simp [summarisedCall] at hsub

/-! ## The statistics as a function of the trace -/

/-- What an event contributes, at the billing of the LLM that yielded it. -/
def contribution (billing : Role → Option ModelBilling) (r : Receipt) : List Contribution :=
  match r.event with
  | .textChunk _ => []
  | .completionDone e =>
      [⟨e.provider, e.model, ⟨e.tokensUsage, LlmStatsDecorator.cost (billing r.role) e⟩⟩]

/-- What the events of a trace contribute. -/
def contributions (billing : Role → Option ModelBilling) (o : List Obs) : List Contribution :=
  (receipts o).flatMap (contribution billing)

@[simp] theorem contributions_append (billing : Role → Option ModelBilling) (o o' : List Obs) :
    contributions billing (o ++ o') = contributions billing o ++ contributions billing o' := by
  simp [contributions]

/-- What the latest call of a trace has observed since it called the main LLM. -/
def latestCall (o : List Obs) : List Obs := (o.reverse.takeWhile fun ob ↦ !ob.isCall).reverse

theorem latestCall_append {o o' : List Obs} (h : ∀ ob ∈ o', ob.isCall = false) :
    latestCall (o ++ o') = latestCall o ++ o' := by
  rw [latestCall, List.reverse_append, List.takeWhile_append_of_pos, List.reverse_append,
    List.reverse_reverse]
  · rfl
  · intro ob hob
    rw [h ob (List.mem_reverse.mp hob)]
    rfl

theorem latestCall_concat (o : List Obs) (request : LlmRequest) :
    latestCall (o ++ [.called .main request]) = [] := by
  simp [latestCall, Obs.isCall]

section

variable [UnicodeData]

/-- With its own handles a session books exactly the contributions. -/
theorem Wired.billed {billing : Role → Option ModelBilling} {c c' : Session × Option Phase}
    {i : Input} {o : List Obs} (hw : Wired billing c.1) (h : Step c i c' o) :
    billed c.1.usageStatsRef o = contributions billing o := by
  have hbills : ∀ (own : StatsRef) (role : Role) (llm inner : LlmPort) (e : CompletionEvent),
      llm = .decorated inner own (billing role) → inner.countOf own = 0 →
        llm.bills own e = contribution billing ⟨role, llm, e⟩ := by
    rintro own role _ inner e rfl hinner
    cases e with
    | textChunk t => rfl
    | completionDone event => exact LlmPort.billsDone_decorated hinner _ event
  rw [Session.billed, contributions, h.receipts]
  cases ha : arrival c i with
  | none => rfl
  | some r =>
      simp only [Option.toList_some, List.flatMap_singleton]
      rcases of_arrival ha with ⟨text, stop, e, hc, rfl, rfl⟩ | ⟨stop, text, e, hc, rfl, rfl⟩
      · obtain ⟨inner, hllm, hinner⟩ := hw.main
        exact hbills _ _ _ inner e hllm hinner
      · obtain ⟨inner, hllm, hinner⟩ := hw.summary
        exact hbills _ _ _ inner e hllm hinner

/-- The books after a run that started from `d0`. -/
structure Booked (billing : Role → Option ModelBilling) (d0 : StatsData)
    (c : Session × Option Phase) (o : List Obs) : Prop where
  wired : Wired billing c.1
  lifecycle : c.1.usageStats.lifecycleTotal =
    (UsageStatsAccumulator.mk d0).addAll (contributions billing o)
  current : c.1.usageStats.currentInvocation =
    UsageStatsAccumulator.addAll {} (contributions billing (latestCall o))
  /-- A call that has yielded its final event receives nothing any more. -/
  done : ∀ event, .yielded (.completionDone event) ∈ latestCall o →
    (c.2 = some .done ∨ c.2 = none) ∧
      event.statistics = c.1.usageStats.currentInvocationData.orNone

/-- A final event carries the statistics of the current invocation. -/
theorem Step.completionDone {c c' : Session × Option Phase} {i : Input} {o : List Obs}
    (h : Step c i c' o) {event : SessionCompletionDoneEvent}
    (he : .yielded (.completionDone event) ∈ o) :
    c'.2 = some .done ∧ event.statistics = c'.1.usageStats.currentInvocationData.orNone := by
  cases h with
  | mainEnds | summaryEnds =>
      obtain rfl := SessionEvent.completionDone.inj (Obs.yielded.inj (List.mem_singleton.mp he))
      exact ⟨rfl, rfl⟩
  | ends s p i ob h => cases h <;> simp at he
  | _ => simp at he

/-- Once the final event is out, or between calls, nothing is booked without a new
call. -/
theorem Step.idle {c c' : Session × Option Phase} {i : Input} {o : List Obs}
    (h : Step c i c' o) (hp : c.2 = some .done ∨ c.2 = none) (hi : i.isCall = false) :
    c'.2 = none ∧ c'.1.usageStats = c.1.usageStats := by
  have hu := h.usageStats
  cases h with
  | acompletion => cases hi
  | setStrategyFails | setStrategy => exact ⟨rfl, hu⟩
  | ends s p i ob h => exact ⟨rfl, rfl⟩
  | _ => simp at hp

theorem Booked.step {billing : Role → Option ModelBilling} {d0 : StatsData}
    {c c' : Session × Option Phase} {i : Input} {o o' : List Obs} (hb : Booked billing d0 c o)
    (h : Step c i c' o') (hi : ∀ strategy, i ≠ .setStrategy strategy) :
    Booked billing d0 c' (o ++ o') := by
  have hstats := h.usageStats
  rw [hb.wired.billed h] at hstats
  have hlife : c'.1.usageStats.lifecycleTotal =
      (UsageStatsAccumulator.mk d0).addAll (contributions billing (o ++ o')) := by
    have hcur : c'.1.usageStats.lifecycleTotal =
        c.1.usageStats.lifecycleTotal.addAll (contributions billing o') := by
      rw [hstats]
      split <;> rfl
    rw [hcur, hb.lifecycle, contributions_append]
    exact List.foldl_append.symm
  have hcalled := h.called
  cases hc : i.isCall with
  | true =>
      rw [hc, if_pos rfl] at hcalled hstats
      obtain ⟨request, rfl⟩ := hcalled
      refine ⟨hb.wired.step h hi, hlife, ?_, ?_⟩
      · rw [latestCall_concat, hstats]
        rfl
      · intro event he
        rw [latestCall_concat] at he
        exact absurd he List.not_mem_nil
  | false =>
      rw [hc, if_neg Bool.false_ne_true] at hcalled hstats
      refine ⟨hb.wired.step h hi, hlife, ?_, ?_⟩
      · rw [latestCall_append hcalled, contributions_append, hstats]
        refine (congrArg (UsageStatsAccumulator.addAll · _) hb.current).trans ?_
        exact List.foldl_append.symm
      · intro event he
        rw [latestCall_append hcalled] at he
        rcases List.mem_append.mp he with he | he
        · obtain ⟨hp, hevent⟩ := hb.done event he
          obtain ⟨hp', hu⟩ := h.idle hp hc
          exact ⟨Or.inr hp', by rw [hevent, hu]⟩
        · obtain ⟨hp, hevent⟩ := h.completionDone he
          exact ⟨Or.inl hp, hevent⟩

end

/-- Every final event of a call carries exactly what the two LLMs contributed in
that call, and the lifetime totals are those at the start and all contributions
since, of aborted calls too. -/
theorem statistics_of_run [UnicodeData] {llm strategyLlm : LlmPort} {id : String}
    {createdAt : Datetime} {completionConfig : CompletionConfig}
    {billing : Role → Option ModelBilling} {ref : StatsRef}
    {d0 : Option StatsData} {strategy : MessageContextStrategy} {s : Session}
    {c : Session × Option Phase} {inputs : List Input} {o : List Obs}
    (hs : s = init llm id createdAt completionConfig (billing .main) ref (.init d0) strategy)
    (hstrategy : strategy.llm = .decorated strategyLlm ref (billing .summary))
    (hllm : llm.countOf ref = 0) (hstrategyLlm : strategyLlm.countOf ref = 0)
    (hset : ∀ strategy, .setStrategy strategy ∉ inputs)
    (h : machine.run (s, none) inputs = some (c, o)) :
    (∀ event, .yielded (.completionDone event) ∈ latestCall o → ∀ p m,
        (event.statistics.getD ∅).entry p m =
          Contribution.total (contributions billing (latestCall o)) p m) ∧
      ∀ p m, c.1.usageStats.lifecycleTotalData.entry p m =
        Contribution.sumStats (((d0.getD ∅).entry p m).toList ++
          Contribution.statsFor (contributions billing o) p m) := by
  have hbooked : Booked billing (d0.getD ∅) c o := by
    refine turns_induction (P := fun _ c o ↦ Booked billing (d0.getD ∅) c o) ?_ ?_ h hset
    · subst hs
      exact ⟨⟨⟨llm, rfl, hllm⟩, ⟨strategyLlm, hstrategy, hstrategyLlm⟩⟩, rfl, rfl,
        fun event he ↦ absurd he List.not_mem_nil⟩
    · exact fun _ _ _ _ _ _ hbooked hs hi ↦ hbooked.step hs hi
  constructor
  · intro event he p m
    rw [(hbooked.done event he).2, StatsData.getD_orNone, SessionUsageStats.currentInvocationData,
      hbooked.current]
    exact UsageStatsAccumulator.entry_addAll_empty _ p m
  · intro p m
    rw [SessionUsageStats.lifecycleTotalData, hbooked.lifecycle]
    exact UsageStatsAccumulator.entry_addAll (UsageStatsAccumulator.sumStats_toList _).symm _

/-- The statistics of one pair. -/
def storedStats (usage : TokensUsage) : StatsData :=
  (∅ : StatsData).set "p" ((∅ : OrderedDict String ModelStats).set "m" ⟨usage, none⟩)

/-- `sampleSummary` with seven tokens on each side already in its books. -/
def restoredSummary : Session :=
  init (.port "main") "s" ⟨0⟩ .sample none ⟨0⟩ (.init (some (storedStats ⟨7, 7⟩)))
    sampleSummary.messageContextStrategy

/-- The final event of a summarised call has the tokens of both LLMs, and the
lifetime totals have them on top of what was there. -/
theorem statistics_of_summarisedCall :
    ∃ c o, (@machine .asciiOnly).run (restoredSummary, none) summarisedCall = some (c, o) ∧
      .yielded (.completionDone ⟨.stop, 0, some (storedStats ⟨6, 6⟩)⟩) ∈ latestCall o ∧
      (storedStats ⟨6, 6⟩).entry "p" "m" =
        Contribution.total (contributions (fun _ ↦ none) (latestCall o)) "p" "m" ∧
      c.1.usageStats.lifecycleTotalData.entry "p" "m" = Contribution.sumStats
        (⟨⟨7, 7⟩, none⟩ :: Contribution.statsFor (contributions (fun _ ↦ none) o) "p" "m") := by
  obtain ⟨⟨c, o⟩, hrun, heval⟩ := Option.map_eq_some_iff.mp
    (show ((@machine .asciiOnly).run (restoredSummary, none) summarisedCall).map (fun r ↦
      decide (.yielded (.completionDone ⟨.stop, 0, some (storedStats ⟨6, 6⟩)⟩) ∈
        latestCall r.2)) = some true by decide)
  have hmem := of_decide_eq_true heval
  obtain ⟨hcall, hlife⟩ := @statistics_of_run .asciiOnly (.port "main") (.port "summariser") "s"
    ⟨0⟩ .sample (fun _ ↦ none) ⟨0⟩ (some (storedStats ⟨7, 7⟩))
    sampleSummary.messageContextStrategy restoredSummary c summarisedCall o rfl rfl rfl rfl
    (fun strategy hmem ↦ by simp [summarisedCall] at hmem) hrun
  exact ⟨c, o, hrun, hmem, hcall _ hmem "p" "m", hlife "p" "m"⟩

end Session
