import ChatServer.Accounting.Pricing
import ChatServer.Conversation.Anchor
import ChatServer.Storage.ConfigCycle

/-!
# A reload cannot be noticed

`update_session` writes a session and `GetSessionUseCase` builds another from what
it wrote.  The two differ in the identity of their statistics, in what is left of
the last call and in the files their configurations know of; from then on they also
draw different identifiers.  `Same` is what they share, and every step keeps it:
`Same.step` is a lock-step simulation in both directions.

The one place where identifiers matter is the anchor of a summary.  There `Same`
compares positions (`SummaryStrategy.AnchoredAt`), which is where fresh
identifiers are needed.
-/

/-! ## Configurations -/

/-- Configurations with the same contents have the same prompt. -/
theorem CompletionConfig.systemPrompt_eq_of_copy {c c' : CompletionConfig}
    (h : c'.copy = c.copy) : c'.systemPrompt = c.systemPrompt := by
  rw [← copy_systemPrompt c', h, copy_systemPrompt]

/-- A request, but for the files its configuration was loaded from. -/
def LlmRequest.copy (request : LlmRequest) : LlmRequest :=
  { request with completionConfig := request.completionConfig.copy }

/-- Two steps ask their LLMs for nothing, or for the same. -/
def AskAlike (request request' : Option LlmRequest) : Prop :=
  request'.map LlmRequest.copy = request.map LlmRequest.copy

/-- Storing a configuration and resolving it again gives one with its contents. -/
def LoadsAs [ConfigCodec] (t : FileTree) (dir : List String) (c c' : CompletionConfig) : Prop :=
  resolveCompletionConfig t (serializedConfig c) dir = .ok c' ∧ c'.copy = c.copy

/-- After a store both configurations load as they were, given names that tell their prompts
apart, and line ends that reading keeps. -/
theorem SessionFileAdapter.loadsAs_of_written [SessionCodec] {a : SessionFileAdapter}
    {P : Set String} {t : FileTree} {s : Session} (hP : Set.InjOn promptFile P)
    (hmain : a.Kept s.id P s.completionConfig)
    (hstrategy : a.Kept s.id P s.messageContextStrategy.completionConfig) (h : a.Written t s)
    {c : CompletionConfig}
    (hc : c = s.completionConfig ∨ c = s.messageContextStrategy.completionConfig)
    (hreturn : ∀ p, c.systemPrompt = some p → '\r' ∉ p.toList) :
    LoadsAs t (a.sessionDir s.id) c c.reloaded := by
  have hnamed : c.Named P := by
    rcases hc with rfl | rfl
    · exact hmain.named hP
    · exact hstrategy.named hP
  refine ⟨resolve_of_read hnamed ?_, CompletionConfig.copy_reloaded_iff.mpr hreturn⟩
  intro p hp
  rw [FileTree.join_of_plainName (hnamed.plainName hp)]
  exact read_of_written hP (hmain.named hP) (hstrategy.named hP) h hc hp

/-! ## Strategies -/

theorem length_eq_of_map_eq {α β : Type} {f : α → β} {l l' : List α} (h : l'.map f = l.map f) :
    l'.length = l.length := by
  have hlength := congrArg List.length h
  rwa [List.length_map, List.length_map] at hlength

namespace SummaryStrategy

/-- Two summary strategies that differ in handles, identifiers and file names only. -/
structure Same (s s' : SummaryStrategy) : Prop where
  completionConfig : s'.completionConfig.copy = s.completionConfig.copy
  messages : s'.records.map (·.message) = s.records.map (·.message)
  windowSize : s'.windowSize = s.windowSize
  summarizationPrompt : s'.summarizationPrompt = s.summarizationPrompt
  text : s'.summary.text = s.summary.text
  anchored : s'.summary.anchorId.isSome = s.summary.anchorId.isSome
  pos : ∃ pos, s.AnchoredAt pos ∧ s'.AnchoredAt pos
  nodup : (ids s.records).Nodup
  nodup' : (ids s'.records).Nodup

theorem Same.symm {s s' : SummaryStrategy} (h : Same s s') : Same s' s := by
  obtain ⟨pos, hpos, hpos'⟩ := h.pos
  exact ⟨h.completionConfig.symm, h.messages.symm, h.windowSize.symm, h.summarizationPrompt.symm,
    h.text.symm, h.anchored.symm, ⟨pos, hpos', hpos⟩, h.nodup', h.nodup⟩

/-- They would summarise the same messages. -/
theorem Same.recordsAfterAnchor {s s' : SummaryStrategy} (h : Same s s') :
    s'.recordsAfterAnchor.map (·.message) = s.recordsAfterAnchor.map (·.message) := by
  obtain ⟨pos, hpos, hpos'⟩ := h.pos
  rw [recordsAfterAnchor_eq_drop hpos h.nodup, recordsAfterAnchor_eq_drop hpos' h.nodup',
    List.map_drop, List.map_drop, h.messages]

theorem Same.getContext {s s' : SummaryStrategy} (h : Same s s') :
    s'.getContext = s.getContext := by
  have hanchored := h.anchored
  rw [getContext_eq, getContext_eq, h.recordsAfterAnchor, h.messages, h.text]
  cases hs : s.summary.anchorId with
  | none =>
      rw [hs, Option.isSome_none, Option.isSome_eq_false_iff,
        Option.isNone_iff_eq_none] at hanchored
      rw [hanchored]
  | some anchor =>
      rw [hs, Option.isSome_some, Option.isSome_iff_exists] at hanchored
      obtain ⟨anchor', hs'⟩ := hanchored
      rw [hs']

/-- They ask for the same summary at the same time. -/
theorem Same.updateContextBegin [UnicodeData] {s s' : SummaryStrategy} (h : Same s s') :
    Py.Both AskAlike s.updateContextBegin s'.updateContextBegin := by
  have hlength : s'.recordsAfterAnchor.length = s.recordsAfterAnchor.length :=
    length_eq_of_map_eq h.recordsAfterAnchor
  have hinput : s'.inputForSummarization = s.inputForSummarization := by
    rw [inputForSummarization, inputForSummarization, h.text, h.recordsAfterAnchor]
  have hllm : s'.llmInput = s.llmInput := by
    rw [llmInput, llmInput, hinput, h.summarizationPrompt,
      CompletionConfig.systemPrompt_eq_of_copy h.completionConfig]
  rw [SummaryStrategy.updateContextBegin, SummaryStrategy.updateContextBegin, h.windowSize, hlength,
    hllm]
  split
  · refine (Py.Both.refl s.llmInput).bind ?_
    rintro messages _ rfl
    refine .ok ?_
    rw [AskAlike, Option.map_some, Option.map_some, LlmRequest.copy, LlmRequest.copy,
      h.completionConfig]
  · exact .ok rfl

/-- Appending the same message under fresh identifiers. -/
theorem Same.append {s s' t t' : SummaryStrategy} (h : Same s s') {r r' : MessageRecord}
    (ht : t = { s with records := s.records ++ [r] })
    (ht' : t' = { s' with records := s'.records ++ [r'] }) (hmessage : r'.message = r.message)
    (hr : r.id ∉ ids s.records ∧ s.summary.anchorId ≠ some r.id)
    (hr' : r'.id ∉ ids s'.records ∧ s'.summary.anchorId ≠ some r'.id) : Same t t' := by
  subst ht ht'
  obtain ⟨pos, hpos, hpos'⟩ := h.pos
  have hnodup : ∀ {l : List MessageRecord} {q : MessageRecord}, (ids l).Nodup → q.id ∉ ids l →
      (ids (l ++ [q])).Nodup := by
    intro l q hl hq
    rw [ids_append]
    exact List.nodup_append'.mpr ⟨hl, List.nodup_singleton _, List.disjoint_singleton.mpr hq⟩
  refine ⟨h.completionConfig, ?_, h.windowSize, h.summarizationPrompt, h.text, h.anchored,
    ⟨pos, hpos.append rfl rfl hr.2, hpos'.append rfl rfl hr'.2⟩, hnodup h.nodup hr.1,
    hnodup h.nodup' hr'.1⟩
  show (s'.records ++ [r']).map (·.message) = (s.records ++ [r]).map (·.message)
  rw [List.map_append, List.map_append, h.messages, List.map_singleton, List.map_singleton,
    hmessage]

/-- Storing the same summary succeeds in both or fails alike. -/
theorem Same.updateContextEnd {s s' : SummaryStrategy} (h : Same s s') (text : String) :
    Py.Both Same (s.updateContextEnd text) (s'.updateContextEnd text) := by
  have hlength : s'.records.length = s.records.length := length_eq_of_map_eq h.messages
  cases hl : s.records.getLast? with
  | none =>
      have hnil : s'.records = [] := by
        rw [List.getLast?_eq_none_iff.mp hl] at hlength
        exact List.length_eq_zero_iff.mp hlength
      rw [SummaryStrategy.updateContextEnd, SummaryStrategy.updateContextEnd, hl, hnil]
      exact .error _
  | some last =>
      have hne : s'.records ≠ [] := by
        intro hnil
        rw [hnil] at hlength
        rw [List.length_eq_zero_iff.mp hlength.symm] at hl
        cases hl
      have ht : s.updateContextEnd text = .ok { s with summary := ⟨text, some last.id⟩ } := by
        rw [SummaryStrategy.updateContextEnd, hl]
      have ht' : s'.updateContextEnd text =
          .ok { s' with summary := ⟨text, some (s'.records.getLast hne).id⟩ } := by
        rw [SummaryStrategy.updateContextEnd, List.getLast?_eq_some_getLast hne]
      rw [ht, ht']
      refine .ok ⟨h.completionConfig, h.messages, h.windowSize, h.summarizationPrompt, rfl, rfl,
        ⟨s.records.length, ?_, ?_⟩, h.nodup, h.nodup'⟩
      · exact AnchoredAt.of_updateContextEnd ht
      · rw [← hlength]
        exact AnchoredAt.of_updateContextEnd ht'

end SummaryStrategy

namespace MessageContextStrategy

/-- The anchor of a summary. -/
def anchorId : MessageContextStrategy → Option UUID
  | dummy _ => none
  | slidingWindow _ => none
  | summary s => s.summary.anchorId

/-- Two strategies that differ in handles, identifiers and file names only. -/
inductive Same : MessageContextStrategy → MessageContextStrategy → Prop where
  | dummy (s s' : DummyStrategy) (hconfig : s'.completionConfig.copy = s.completionConfig.copy)
      (hmessages : s'.records.map (·.message) = s.records.map (·.message)) :
      Same (.dummy s) (.dummy s')
  | slidingWindow (s s' : SlidingWindowStrategy)
      (hconfig : s'.completionConfig.copy = s.completionConfig.copy)
      (hmessages : s'.records.map (·.message) = s.records.map (·.message))
      (hwindow : s'.windowSize = s.windowSize) : Same (.slidingWindow s) (.slidingWindow s')
  | summary (s s' : SummaryStrategy) (h : s.Same s') : Same (.summary s) (.summary s')

theorem Same.symm {σ σ' : MessageContextStrategy} (h : Same σ σ') : Same σ' σ := by
  cases h with
  | dummy s s' hconfig hmessages => exact .dummy s' s hconfig.symm hmessages.symm
  | slidingWindow s s' hconfig hmessages hwindow =>
      exact .slidingWindow s' s hconfig.symm hmessages.symm hwindow.symm
  | summary s s' h => exact .summary s' s h.symm

/-- On another handle, with the same configuration from another file, a strategy is still
the same. -/
theorem same_withBase (σ : MessageContextStrategy) (llm : LlmPort) {c : CompletionConfig}
    (hc : c.copy = σ.completionConfig.copy) (hnodup : (SummaryStrategy.ids σ.getHistory).Nodup) :
    Same σ (σ.withBase ⟨llm, c, σ.getHistory⟩) := by
  cases σ with
  | dummy s => exact .dummy s _ hc rfl
  | slidingWindow s => exact .slidingWindow s _ hc rfl rfl
  | summary s =>
      obtain ⟨pos, hpos⟩ := s.exists_anchoredAt
      refine .summary s _ ⟨hc, rfl, rfl, rfl, rfl, rfl, ⟨pos, hpos, ?_⟩, hnodup, hnodup⟩
      cases hpos with
      | start h => exact .start h
      | after covered last rest hrecords hanchor => exact .after covered last rest hrecords hanchor

theorem Same.getContext {σ σ' : MessageContextStrategy} (h : Same σ σ') :
    σ'.getContext = σ.getContext := by
  cases h with
  | dummy s s' hconfig hmessages => exact hmessages
  | slidingWindow s s' hconfig hmessages hwindow =>
      have hlength : s'.records.length = s.records.length := length_eq_of_map_eq hmessages
      show s'.getContext = s.getContext
      rw [SlidingWindowStrategy.getContext, SlidingWindowStrategy.getContext, List.map_drop,
        List.map_drop, hmessages, hwindow, hlength]
  | summary s s' h => exact h.getContext

theorem Same.updateContextBegin [UnicodeData] {σ σ' : MessageContextStrategy} (h : Same σ σ') :
    Py.Both AskAlike σ.updateContextBegin σ'.updateContextBegin := by
  cases h with
  | dummy | slidingWindow => exact .ok rfl
  | summary s s' h => exact h.updateContextBegin

theorem Same.updateContextEnd {σ σ' : MessageContextStrategy} (h : Same σ σ') (text : String) :
    Py.Both Same (σ.updateContextEnd text) (σ'.updateContextEnd text) := by
  cases h with
  | dummy s s' hconfig hmessages => exact .ok (.dummy s s' hconfig hmessages)
  | slidingWindow s s' hconfig hmessages hwindow =>
      exact .ok (.slidingWindow s s' hconfig hmessages hwindow)
  | summary s s' h =>
      have hend := h.updateContextEnd text
      simp only [MessageContextStrategy.updateContextEnd]
      generalize s.updateContextEnd text = r, s'.updateContextEnd text = r' at hend
      cases hend with
      | ok h => exact .ok (.summary _ _ h)
      | error e => exact .error e

/-- Appending the same message under new identifiers. -/
theorem Same.append {σ σ' : MessageContextStrategy} (h : Same σ σ') (role content : String)
    {u u' : UUID} (hu : u ∉ SummaryStrategy.ids σ.getHistory ∧ σ.anchorId ≠ some u)
    (hu' : u' ∉ SummaryStrategy.ids σ'.getHistory ∧ σ'.anchorId ≠ some u') :
    Same (σ.withBase (σ.base.append role content u))
      (σ'.withBase (σ'.base.append role content u')) := by
  have hmap : ∀ {l l' : List MessageRecord} {r r' : MessageRecord},
      l'.map (·.message) = l.map (·.message) → r'.message = r.message →
        (l' ++ [r']).map (·.message) = (l ++ [r]).map (·.message) := by
    intro l l' r r' hl hr
    rw [List.map_append, List.map_append, hl, List.map_singleton, List.map_singleton, hr]
  cases h with
  | dummy s s' hconfig hmessages => exact .dummy _ _ hconfig (hmap hmessages rfl)
  | slidingWindow s s' hconfig hmessages hwindow =>
      exact .slidingWindow _ _ hconfig (hmap hmessages rfl) hwindow
  | summary s s' h => exact .summary _ _ (h.append rfl rfl rfl hu hu')

end MessageContextStrategy

namespace Session

/-! ## Sessions -/

/-- The same input, up to the identifier it draws and the time it took. -/
inductive Input.Same : Input → Input → Prop where
  | acompletion (prompt : String) (stream : Bool) (u u' : UUID) :
      Same (.acompletion prompt stream u) (.acompletion prompt stream u')
  | event (e : CompletionEvent) : Same (.event e) (.event e)
  | mainEnds (u u' : UUID) (n n' : ℕ) : Same (.mainEnds u n) (.mainEnds u' n')
  | summaryEnds (n n' : ℕ) : Same (.summaryEnds n) (.summaryEnds n')
  | raises (e : PyExc) : Same (.raises e) (.raises e)
  | cancelled : Same .cancelled .cancelled
  | next : Same .next .next
  | closed : Same .closed .closed

theorem Input.Same.symm {i i' : Input} (h : Input.Same i i') : Input.Same i' i := by
  cases h <;> constructor

theorem Input.Same.isCall {i i' : Input} (h : Input.Same i i') : i'.isCall = i.isCall := by
  cases h <;> rfl

theorem Input.Same.ne_setStrategy {i i' : Input} (h : Input.Same i i')
    (strategy : MessageContextStrategy) : i ≠ .setStrategy strategy := by
  rintro rfl
  cases h

/-- What can be seen of a session: what it sends to its LLMs, file names aside, and
what it yields, elapsed time aside, and how a call ends. -/
def Obs.visible : Obs → List Obs
  | .received _ _ _ => []
  | .called role request => [.called role request.copy]
  | .yielded (.completionDone event) =>
      [.yielded (.completionDone { event with elapsedS := 0 })]
  | ob => [ob]

/-- Two sessions that differ in identities and file names only, and between calls in
what is left of the last one. -/
structure Same (c c' : Session × Option Phase) : Prop where
  phase : c'.2 = c.2
  completionConfig : c'.1.completionConfig.copy = c.1.completionConfig.copy
  strategy : c.1.messageContextStrategy.Same c'.1.messageContextStrategy
  wired : ∃ billing, Wired billing c.1 ∧ Wired billing c'.1
  lifecycle : c'.1.usageStats.lifecycleTotal = c.1.usageStats.lifecycleTotal
  current : c.2 ≠ none →
    c'.1.usageStats.currentInvocation = c.1.usageStats.currentInvocation

theorem Same.symm {c c' : Session × Option Phase} (h : Same c c') : Same c' c := by
  obtain ⟨billing, hw, hw'⟩ := h.wired
  exact ⟨h.phase.symm, h.completionConfig.symm, h.strategy.symm, ⟨billing, hw', hw⟩,
    h.lifecycle.symm, fun hp ↦ (h.current (h.phase ▸ hp)).symm⟩

/-- Identifiers that a session does not know. -/
structure Unknown (s : Session) (us : List UUID) : Prop where
  nodup : us.Nodup
  ids : ∀ u ∈ us, u ∉ s.ids
  anchorId : ∀ u ∈ us, s.messageContextStrategy.anchorId ≠ some u

theorem Unknown.draws {s : Session} {us vs : List UUID} (hu : Unknown s (us ++ vs)) :
    Unknown s us :=
  ⟨(List.nodup_append'.mp hu.nodup).1, fun u h ↦ hu.ids u (List.mem_append_left _ h),
    fun u h ↦ hu.anchorId u (List.mem_append_left _ h)⟩

/-- The same message is recorded by both. -/
theorem Same.append {s s' : Session} {p p' : Option Phase} (h : Same (s, p) (s', p'))
    (role content : String) {u u' : UUID} (hu : Unknown s [u]) (hu' : Unknown s' [u']) :
    (s.messageContextStrategy.withBase (s.messageContextStrategy.base.append role content u)).Same
      (s'.messageContextStrategy.withBase
        (s'.messageContextStrategy.base.append role content u')) :=
  h.strategy.append role content
    ⟨hu.ids u (List.mem_singleton_self u), hu.anchorId u (List.mem_singleton_self u)⟩
    ⟨hu'.ids u' (List.mem_singleton_self u'), hu'.anchorId u' (List.mem_singleton_self u')⟩

section

variable [UnicodeData]

/-- Both record the answer, and both go on alike. -/
theorem Same.answer {s s' : Session} {p p' : Option Phase} (h : Same (s, p) (s', p'))
    (text : String) {u u' : UUID} (hu : Unknown s [u]) (hu' : Unknown s' [u']) :
    (s.answer text u).messageContextStrategy.Same (s'.answer text u').messageContextStrategy ∧
      Py.Both AskAlike (s.answer text u).messageContextStrategy.updateContextBegin
        (s'.answer text u').messageContextStrategy.updateContextBegin := by
  have hsame : (s.answer text u).messageContextStrategy.Same
    (s'.answer text u').messageContextStrategy := h.append "assistant" text hu hu'
  exact ⟨hsame, hsame.updateContextBegin⟩

/-- Between calls a session only reacts to a new call or a new strategy. -/
theorem Step.phase_ne_none {c c' : Session × Option Phase} {i : Input} {o : List Obs}
    (h : Step c i c' o) (hp : c'.2 ≠ none) (hi : i.isCall = false) : c.2 ≠ none := by
  intro hnone
  exact hp (h.idle (Or.inr hnone) hi).1

/-- Whatever one of the two does on an input the other does too. -/
theorem Same.move {c c₁ c' : Session × Option Phase} {i i' : Input} {o : List Obs}
    (h : Same c c') (hi : Input.Same i i') (hu : Unknown c.1 (i.draws.map Prod.snd))
    (hu' : Unknown c'.1 (i'.draws.map Prod.snd)) (hs : Step c i c₁ o) :
    ∃ c₁' o', step c' i' = some (c₁', o') ∧ o'.flatMap Obs.visible = o.flatMap Obs.visible ∧
      c₁'.2 = c₁.2 ∧ c₁.1.messageContextStrategy.Same c₁'.1.messageContextStrategy := by
  obtain ⟨s', p'⟩ := c'
  have hphase : p' = c.2 := h.phase
  have hdone : ∀ (t t' : Session) (stop : Option StopReason) (n n' : ℕ),
      t'.usageStats.currentInvocation = t.usageStats.currentInvocation →
        Obs.visible (.yielded (.completionDone (t'.doneEvent stop n'))) =
          Obs.visible (.yielded (.completionDone (t.doneEvent stop n))) := by
    intro t t' stop n n' hcurrent
    simp only [Obs.visible, doneEvent, SessionUsageStats.currentInvocationData, hcurrent]
  cases hs with
  | acompletion s prompt stream u =>
      subst hphase
      cases hi with
      | acompletion _ _ _ u' =>
          have hsame := h.append "user" prompt hu hu'
          refine ⟨_, _, rfl, ?_, rfl, hsame⟩
          have hcontext := hsame.getContext
          simp only [List.flatMap_singleton, Obs.visible, LlmRequest.copy, beginAcompletion,
            MessageContextStrategy.addUserQuery, StrategyBase.addUserQuery, hcontext,
            show s'.completionConfig.copy = s.completionConfig.copy from h.completionConfig]
  | setStrategyFails | setStrategy => cases hi
  | mainText s text stop t =>
      subst hphase
      cases hi
      exact ⟨_, _, rfl, rfl, rfl, h.strategy⟩
  | mainDone s text stop event =>
      subst hphase
      cases hi
      exact ⟨_, _, rfl, rfl, rfl, h.strategy⟩
  | chunkNext s text stop =>
      subst hphase
      cases hi
      exact ⟨_, _, rfl, rfl, rfl, h.strategy⟩
  | mainEndsFails s text stop u n e hbegin =>
      subst hphase
      cases hi with
      | mainEnds _ u' _ n' =>
          obtain ⟨hsame, hboth⟩ := h.answer text hu hu'
          rw [hbegin] at hboth
          have hbegin' := hboth.eq_error
          refine ⟨(s'.answer text u', none), [.raised e], ?_, rfl, rfl, hsame⟩
          show some (s'.endStream text stop u' n') = _
          simp only [endStream, hbegin']
  | mainEnds s text stop u n hbegin =>
      subst hphase
      cases hi with
      | mainEnds _ u' _ n' =>
          obtain ⟨hsame, hboth⟩ := h.answer text hu hu'
          rw [hbegin] at hboth
          obtain ⟨request', hbegin', hrequest⟩ := hboth.exists_eq_ok
          obtain rfl : request' = none := Option.map_eq_none_iff.mp hrequest
          refine ⟨(s'.answer text u', some .done),
            [.yielded (.completionDone ((s'.answer text u').doneEvent stop n'))], ?_, ?_, rfl,
            hsame⟩
          · show some (s'.endStream text stop u' n') = _
            simp only [endStream, hbegin']
          · rw [List.flatMap_singleton, List.flatMap_singleton]
            exact hdone _ _ stop n n' (h.current (Option.some_ne_none _))
  | mainEndsSummary s text stop u n request hbegin =>
      subst hphase
      cases hi with
      | mainEnds _ u' _ n' =>
          obtain ⟨hsame, hboth⟩ := h.answer text hu hu'
          rw [hbegin] at hboth
          obtain ⟨asked, hbegin', hrequest⟩ := hboth.exists_eq_ok
          obtain ⟨request', rfl, hcopy⟩ := Option.map_eq_some_iff.mp hrequest
          refine ⟨(s'.answer text u', some (.summary stop "")), [.called .summary request'], ?_, ?_,
            rfl, hsame⟩
          · show some (s'.endStream text stop u' n') = _
            simp only [endStream, hbegin']
          · rw [List.flatMap_singleton, List.flatMap_singleton, Obs.visible, Obs.visible, hcopy]
  | summaryEvent s stop text e =>
      subst hphase
      cases hi
      exact ⟨_, _, rfl, rfl, rfl, h.strategy⟩
  | summaryEndsFails s stop text n e hend =>
      subst hphase
      cases hi with
      | summaryEnds _ n' =>
          have hsame := h.strategy.updateContextEnd text
          rw [hend] at hsame
          have hend' := hsame.eq_error
          refine ⟨(s', none), [.raised e], ?_, rfl, rfl, h.strategy⟩
          show some (s'.finish text stop n') = _
          simp only [finish, hend']
  | summaryEnds s stop text n τ hend =>
      subst hphase
      cases hi with
      | summaryEnds _ n' =>
          have hsame := h.strategy.updateContextEnd text
          rw [hend] at hsame
          obtain ⟨τ', hend', hsame⟩ := hsame.exists_eq_ok
          refine ⟨({ s' with messageContextStrategy := τ' }, some .done),
            [.yielded (.completionDone
              ({ s' with messageContextStrategy := τ' }.doneEvent stop n'))], ?_, ?_, rfl, hsame⟩
          · show some (s'.finish text stop n') = _
            simp only [finish, hend']
          · rw [List.flatMap_singleton, List.flatMap_singleton]
            exact hdone _ _ stop n n' (h.current (Option.some_ne_none _))
  | ends s p i ob hend =>
      subst hphase
      cases hend <;> cases hi <;> exact ⟨_, _, rfl, rfl, rfl, h.strategy⟩

/-- Both book the same. -/
theorem Same.contributions {c c₁ c' c₁' : Session × Option Phase} {i i' : Input}
    {o o' : List Obs} (h : Same c c') (hi : Input.Same i i') (hs : Step c i c₁ o)
    (hs' : Step c' i' c₁' o') (billing : Role → Option ModelBilling) :
    contributions billing o' = contributions billing o := by
  have harrival : (arrival c' i').map (fun r ↦ (r.role, r.event)) =
      (arrival c i).map fun r ↦ (r.role, r.event) := by
    obtain ⟨s, p⟩ := c
    obtain ⟨s', p'⟩ := c'
    obtain rfl : p' = p := h.phase
    cases hi with
    | event e => rcases p' with _ | _ | _ | _ | _ <;> rfl
    | _ => rfl
  rw [Session.contributions, Session.contributions, hs.receipts, hs'.receipts]
  cases ha : arrival c i with
  | none =>
      rw [ha, Option.map_none, Option.map_eq_none_iff] at harrival
      rw [harrival]
  | some r =>
      rw [ha, Option.map_some, Option.map_eq_some_iff] at harrival
      obtain ⟨r', hr', heq⟩ := harrival
      obtain ⟨hrole, hevent⟩ := Prod.mk.inj heq
      rw [hr', Option.toList_some, Option.toList_some, List.flatMap_singleton,
        List.flatMap_singleton, contribution, contribution, hrole, hevent]

/-- The anchor stays where it is or moves to a record. -/
theorem Step.anchorId {c c' : Session × Option Phase} {i : Input} {o : List Obs}
    (h : Step c i c' o) (hi : ∀ strategy, i ≠ .setStrategy strategy) :
    c'.1.messageContextStrategy.anchorId = c.1.messageContextStrategy.anchorId ∨
      ∃ u ∈ c'.1.ids, c'.1.messageContextStrategy.anchorId = some u := by
  have hbase : ∀ (σ : MessageContextStrategy) (b : StrategyBase),
      (σ.withBase b).anchorId = σ.anchorId := by
    intro σ b
    cases σ <;> rfl
  cases h with
  | setStrategy s s' strategy => exact absurd rfl (hi strategy)
  | acompletion | mainEndsFails | mainEnds | mainEndsSummary => exact Or.inl (hbase _ _)
  | summaryEnds s stop text n τ hend =>
      cases hσ : s.messageContextStrategy with
      | dummy σ =>
          rw [hσ] at hend
          cases hend
          exact Or.inl rfl
      | slidingWindow σ =>
          rw [hσ] at hend
          cases hend
          exact Or.inl rfl
      | summary σ =>
          rw [hσ] at hend
          simp only [MessageContextStrategy.updateContextEnd] at hend
          cases ht : σ.updateContextEnd text with
          | error e =>
              rw [ht] at hend
              cases hend
          | ok t =>
              rw [ht] at hend
              cases hend
              obtain ⟨init, last, hrecords, rfl⟩ := SummaryStrategy.updateContextEnd_ok ht
              refine Or.inr ⟨last.id, ?_, rfl⟩
              show last.id ∈ σ.records.map (·.id)
              rw [hrecords]
              exact List.mem_map_of_mem (List.mem_append_right _ (List.mem_singleton_self _))
  | _ => exact Or.inl rfl

/-- What is drawn becomes known, the rest stays unknown. -/
theorem Unknown.step {c c' : Session × Option Phase} {i : Input} {o : List Obs}
    {us : List UUID} (hu : Unknown c.1 (i.draws.map Prod.snd ++ us)) (h : Step c i c' o)
    (hi : ∀ strategy, i ≠ .setStrategy strategy) : Unknown c'.1 us := by
  obtain ⟨-, hnodup, hdisjoint⟩ := List.nodup_append'.mp hu.nodup
  have hids : ∀ u ∈ us, u ∉ c'.1.ids := by
    intro u hmem
    rw [h.ids]
    intro hknown
    rcases List.mem_append.mp hknown with hknown | hdrawn
    · exact hu.ids u (List.mem_append_right _ hmem) hknown
    · exact hdisjoint hdrawn hmem
  refine ⟨hnodup, hids, fun u hmem hanchor ↦ ?_⟩
  rcases h.anchorId hi with hkeep | ⟨v, hv, hmove⟩
  · exact hu.anchorId u (List.mem_append_right _ hmem) (hkeep ▸ hanchor)
  · rw [hmove] at hanchor
    cases hanchor
    exact hids u hmem hv

/-- **Lock step.**  One step keeps two sessions the same. -/
theorem Same.step {c c₁ c' : Session × Option Phase} {i i' : Input} {o : List Obs}
    (h : Same c c') (hi : Input.Same i i') (hu : Unknown c.1 (i.draws.map Prod.snd))
    (hu' : Unknown c'.1 (i'.draws.map Prod.snd)) (hs : Step c i c₁ o) :
    ∃ c₁' o', step c' i' = some (c₁', o') ∧ o'.flatMap Obs.visible = o.flatMap Obs.visible ∧
      Same c₁ c₁' := by
  obtain ⟨c₁', o', hstep, hvisible, hphase, hstrategy⟩ := h.move hi hu hu' hs
  have hs' := Step.of_step hstep
  have hset := hi.ne_setStrategy
  obtain ⟨billing, hw, hw'⟩ := h.wired
  have hbilled : billed c'.1.usageStatsRef o' = billed c.1.usageStatsRef o := by
    rw [hw.billed hs, hw'.billed hs', h.contributions hi hs hs']
  have hstats := hs.usageStats
  have hstats' := hs'.usageStats
  rw [hbilled, hi.isCall] at hstats'
  refine ⟨c₁', o', hstep, hvisible, ⟨hphase, ?_, hstrategy, ⟨billing, hw.step hs hset,
    hw'.step hs' hi.symm.ne_setStrategy⟩, ?_, fun hp ↦ ?_⟩⟩
  · rw [hs'.frame.completionConfig, hs.frame.completionConfig, h.completionConfig]
  · rw [hstats, hstats']
    split <;> exact congrArg (UsageStatsAccumulator.addAll · _) h.lifecycle
  · rw [hstats, hstats']
    cases hcall : i.isCall with
    | true => rfl
    | false =>
        have hcurrent := h.current (hs.phase_ne_none hp hcall)
        simp only [Bool.false_eq_true, if_false]
        exact congrArg (UsageStatsAccumulator.addAll · (billed c.1.usageStatsRef o)) hcurrent

/-- Two sessions that are the same cannot be told apart by any inputs. -/
theorem Same.run {c c' c₁ : Session × Option Phase} {is is' : List Input} {o : List Obs}
    (h : Same c c') (his : List.Forall₂ Input.Same is is') (hu : Unknown c.1 (drawn is))
    (hu' : Unknown c'.1 (drawn is')) (hrun : machine.run c is = some (c₁, o)) :
    ∃ c₁' o', machine.run c' is' = some (c₁', o') ∧
      o.flatMap Obs.visible = o'.flatMap Obs.visible := by
  let R := fun (c : Session × Option Phase) (is : List Input) (c' : Session × Option Phase)
    (is' : List Input) ↦ Same c c' ∧ List.Forall₂ Input.Same is is' ∧
      Unknown c.1 (drawn is) ∧ Unknown c'.1 (drawn is')
  have hnil : ∀ c c' is', R c [] c' is' → is' = [] :=
    fun _ _ _ hR ↦ List.forall₂_nil_left_iff.mp hR.2.1
  have hcons : ∀ c i is c' is' c₁ o, R c (i :: is) c' is' → machine.step c i = some (c₁, o) →
      ∃ i' is'' c₁' o', is' = i' :: is'' ∧ machine.step c' i' = some (c₁', o') ∧
        o.flatMap Obs.visible = o'.flatMap Obs.visible ∧ R c₁ is c₁' is'' := by
    rintro c i is c' is' c₁ o ⟨hsame, his, hu, hu'⟩ hstep
    obtain ⟨i', is'', hi, his'', rfl⟩ := List.forall₂_cons_left_iff.mp his
    have hs := Step.of_step hstep
    obtain ⟨c₁', o', hstep', hvisible, hsame'⟩ := hsame.step hi hu.draws hu'.draws hs
    exact ⟨i', is'', c₁', o', rfl, hstep', hvisible.symm, hsame', his'',
      hu.step hs hi.ne_setStrategy, hu'.step (.of_step hstep') hi.symm.ne_setStrategy⟩
  obtain ⟨c₁', o', hrun', hvisible, -⟩ := Mealy.run_lockstep hnil hcons ⟨h, his, hu, hu'⟩ hrun
  exact ⟨c₁', o', hrun', hvisible⟩

/-- What can be seen of a run; `none` when the session does not take the inputs. -/
def seen (s : Session) (inputs : List Input) : Option (List Obs) :=
  (machine.run (s, none) inputs).map fun r ↦ r.2.flatMap Obs.visible

theorem Same.seen {s s' : Session} (h : Same (s, none) (s', none)) {is is' : List Input}
    (his : List.Forall₂ Input.Same is is') (hu : Unknown s (drawn is))
    (hu' : Unknown s' (drawn is')) : s'.seen is' = s.seen is := by
  cases hrun : machine.run (s, none) is with
  | some r =>
      obtain ⟨c₁', o', hrun', hvisible⟩ := h.run his hu hu' hrun
      rw [Session.seen, Session.seen, hrun, hrun', Option.map_some, Option.map_some, hvisible]
  | none =>
      cases hrun' : machine.run (s', none) is' with
      | none => rw [Session.seen, Session.seen, hrun, hrun']
      | some r' =>
          have his' : List.Forall₂ Input.Same is' is := his.flip.imp fun _ _ ↦ Input.Same.symm
          obtain ⟨c₁, o, hrun₁, -⟩ := h.symm.run his' hu' hu hrun'
          rw [hrun] at hrun₁
          cases hrun₁

end

end Session

namespace App

open Session FileTree

/-- Turns keep the rates of a session. -/
theorem Built.run [UnicodeData] [LlmPortFactory] {app : App} {sessionId : String} {s : Session}
    {c : Session × Option Phase} {inputs : List Session.Input} {o : List Session.Obs}
    (hb : app.Built sessionId s) (h : machine.run (s, none) inputs = some (c, o))
    (hset : ∀ strategy, .setStrategy strategy ∉ inputs) : app.Built sessionId c.1 := by
  refine turns_induction (P := fun _ c _ ↦ app.Built sessionId c.1) hb ?_ h hset
  exact fun _ _ _ _ _ _ hb hs hi ↦ hb.step hs hi

/-- A session as it is loaded from what it was stored as, with the configurations `c` and
`c'`, on new handles. -/
def reloaded (s : Session) (c c' : CompletionConfig) (llm strategyLlm : LlmPort) (ref : StatsRef) :
    Session :=
  { s with
    completionConfig := c
    usageStatsRef := ref
    usageStats := .init s.usageStats.lifecycleTotalData.orNone
    llmStats := llm
    messageContextStrategy := s.messageContextStrategy.withBase ⟨strategyLlm, c', s.messages⟩ }

theorem strategy_reloaded (s : Session) (c c' : CompletionConfig) (llm strategyLlm : LlmPort)
    (ref : StatsRef) :
    let s' := reloaded s c c' llm strategyLlm ref
    s'.messages = s.messages ∧
      s'.messageContextStrategy.strategyType = s.messageContextStrategy.strategyType ∧
      s'.messageContextStrategy.getMetadata = s.messageContextStrategy.getMetadata ∧
      s'.messageContextStrategy.anchorId = s.messageContextStrategy.anchorId := by
  constructor
  · rw [messages, MessageContextStrategy.getHistory, reloaded, MessageContextStrategy.base_withBase]
  · simp only [reloaded]
    cases s.messageContextStrategy <;> exact ⟨rfl, rfl, rfl⟩

/-- The factory does not look at the files of a configuration. -/
def PortsByContents [LlmPortFactory] : Prop :=
  ∀ (sessionId : String) (c c' : CompletionConfig), c'.copy = c.copy →
    LlmPortFactory.create sessionId c' = LlmPortFactory.create sessionId c

/-- Loading a session whose configurations came back with their contents. -/
theorem restoreSession_stateOf [LlmPortFactory] {app : App} {s : Session} {c c' : CompletionConfig}
    (hports : PortsByContents) (hc : c.copy = s.completionConfig.copy)
    (hc' : c'.copy = s.messageContextStrategy.completionConfig.copy) (hb : app.Built s.id s)
    (hid : s.id ≠ "") (ref : StatsRef) :
    ∃ llm strategyLlm, app.restoreSession s.id (SessionFileAdapter.stateOf s hid c c') ref =
      .ok (reloaded s c c' (.decorated (.port llm) ref (app.rates s .main))
        (.decorated (.port strategyLlm) ref (app.rates s .summary)) ref) := by
  obtain ⟨⟨llm, hllm, -⟩, ⟨strategyLlm, hstrategyLlm, -⟩⟩ := hb
  have hrates : ∀ {d d' : CompletionConfig}, d'.copy = d.copy →
      app.modelBillingFactory.create d'.provider d'.model =
        app.modelBillingFactory.create d.provider d.model := by
    intro d d' h
    rw [← CompletionConfig.copy_provider d', ← CompletionConfig.copy_model d', h,
      CompletionConfig.copy_provider, CompletionConfig.copy_model]
  refine ⟨llm, strategyLlm, ?_⟩
  rw [restoreSession]
  simp only [SessionFileAdapter.stateOf, hports _ _ _ hc, hports _ _ _ hc', hllm, hstrategyLlm,
    hrates hc, hrates hc', bind, Except.bind, MessageContextStrategyFactory.build_getMetadata]
  rfl

theorem same_reloaded [LlmPortFactory] {app : App} {s : Session} {c c' : CompletionConfig}
    (hc : c.copy = s.completionConfig.copy)
    (hc' : c'.copy = s.messageContextStrategy.completionConfig.copy) (hb : app.Built s.id s)
    (hnodup : s.ids.Nodup) (llm strategyLlm : String) (ref : StatsRef) :
    Same (s, none) (reloaded s c c' (.decorated (.port llm) ref (app.rates s .main))
        (.decorated (.port strategyLlm) ref (app.rates s .summary)) ref, none) := by
  refine ⟨rfl, hc, MessageContextStrategy.same_withBase _ _ hc' hnodup,
    ⟨app.rates s, hb.wired, ?_⟩, ?_, fun h ↦ absurd rfl h⟩
  · refine ⟨⟨.port llm, rfl, rfl⟩, ⟨.port strategyLlm, ?_, rfl⟩⟩
    rw [reloaded, MessageContextStrategy.llm, MessageContextStrategy.base_withBase]
  · rw [reloaded, SessionUsageStats.init, StatsData.getD_orNone]
    rfl

/-- A session that is saved between turns and loaded again has the same identity,
history, strategy and totals, and the same configurations but for the names of their
files; and whatever prompts and answers follow, nothing it sends or yields gives it
away. -/
theorem reload_unobservable [UnicodeData] [SessionCodec] [LlmPortFactory] {app : App}
    {t₀ t₁ t t' : FileTree} {sessionId : String} {now : Datetime} {ref ref' : StatsRef}
    {faults faults' : List (Option Fault)} {s₀ s : Session} {inputs : List Session.Input}
    {o : List Session.Obs} {c c' : CompletionConfig} (hports : PortsByContents)
    (hcreate : app.createSession t₀ sessionId now ref faults = (t₁, .ok s₀))
    (h : machine.run (s₀, none) inputs = some ((s, none), o))
    (hset : ∀ strategy, .setStrategy strategy ∉ inputs) (hfresh : (drawn inputs).Nodup)
    (hwrite : app.repository.updateSession t s faults' = (t', .ok ()))
    (hround : SessionFileAdapter.RoundTrips s)
    (hmain : LoadsAs t' (app.repository.sessionDir s.id) s.completionConfig c)
    (hstrategy : LoadsAs t' (app.repository.sessionDir s.id)
      s.messageContextStrategy.completionConfig c') :
    ∃ s', app.getSession t' sessionId ref' = .ok s' ∧ s'.id = s.id ∧ s'.createdAt = s.createdAt ∧
      s'.messages = s.messages ∧
      s'.messageContextStrategy.strategyType = s.messageContextStrategy.strategyType ∧
      s'.messageContextStrategy.getMetadata = s.messageContextStrategy.getMetadata ∧
      s'.usageStats.lifecycleTotalData = s.usageStats.lifecycleTotalData ∧
      s'.completionConfig.copy = s.completionConfig.copy ∧
      s'.messageContextStrategy.completionConfig.copy =
        s.messageContextStrategy.completionConfig.copy ∧
      ∀ further further', List.Forall₂ Input.Same further further' →
        Unknown s (drawn further) → Unknown s (drawn further') →
          s'.seen further' = s.seen further := by
  obtain ⟨hbuild, -⟩ := createSession_ok hcreate
  obtain ⟨hbuilt₀, hid₀, hempty, -⟩ := Built.of_buildSession hbuild
  obtain rfl : s.id = sessionId := (frame_of_run h).id.trans hid₀
  have hbuilt : app.Built s.id s := hbuilt₀.run h hset
  have hnodup : s.ids.Nodup := by
    have hids := ids_of_run h
    rw [show s₀.ids = [] from List.map_eq_nil_iff.mpr hempty, List.nil_append] at hids
    exact hids ▸ hfresh
  obtain ⟨hid, hget⟩ := SessionFileAdapter.getSession_of_written hround (.of_updateSession hwrite)
  obtain ⟨hmain, hc⟩ := hmain
  obtain ⟨hstrategy, hc'⟩ := hstrategy
  obtain ⟨llm, strategyLlm, hrestore⟩ := restoreSession_stateOf hports hc hc' hbuilt hid ref'
  have hsame := same_reloaded hc hc' hbuilt hnodup llm strategyLlm ref'
  obtain ⟨hmessages, htype, hmetadata, hanchor⟩ := strategy_reloaded s c c'
    (.decorated (.port llm) ref' (app.rates s .main))
    (.decorated (.port strategyLlm) ref' (app.rates s .summary)) ref'
  refine ⟨reloaded s c c' _ _ ref', ?_, rfl, rfl, hmessages, htype, hmetadata,
    StatsData.getD_orNone _, hc, ?_, fun further further' his hu hu' ↦ ?_⟩
  · rw [App.getSession, hget, hmain, hstrategy]
    exact hrestore
  · rw [reloaded, MessageContextStrategy.completionConfig, MessageContextStrategy.base_withBase]
    exact hc'
  · refine hsame.seen his hu ⟨hu'.nodup, ?_, ?_⟩
    · rw [ids, hmessages]
      exact hu'.ids
    · rw [hanchor]
      exact hu'.anchorId

/-! ## An app whose sessions have prompts -/

theorem sampleDummy_ne : "dummy" ≠ "" := by decide

/-- `sample` with a system prompt, and another for the strategy. -/
def samplePrompting : App :=
  { sample with
    defaultCompletionConfig := { CompletionConfig.sample with systemPrompt := some "a" }
    strategyDefaults := (∅ : OrderedDict _ _).set "dummy"
      ⟨"dummy", { CompletionConfig.sample with systemPrompt := some "b" }, ∅, sampleDummy_ne⟩ }

/-- `sampleSession` or `sampleTold` with these prompts. -/
def sampleWithPrompts (s : Session) : Session :=
  { s with
    completionConfig := { CompletionConfig.sample with systemPrompt := some "a" }
    messageContextStrategy := .dummy ⟨⟨s.messageContextStrategy.llm,
      { CompletionConfig.sample with systemPrompt := some "b" }, s.messages⟩⟩ }

section

open SessionFileAdapter

/-- The names of the two prompts. -/
def samplePromptFiles : String × String :=
  (@promptFile sampleHashes "a", @promptFile sampleHashes "b")

/-- The information file after the first call. -/
def samplePromptingText : String :=
  "\x7b\"id\": \"s\", \"created_at\": \"0001-01-01T00:00:00\", \"completion_config\": " ++
    samplePathText samplePromptFiles.1 ++ ", \"statistics\": " ++ sampleStatsText ++
    ", \"message_context_strategy\": \x7b\"type\": \"dummy\", \"metadata\": \x7b\x7d, " ++
    "\"completion_config\": " ++ samplePathText samplePromptFiles.2 ++ "\x7d\x7d"

/-- What is read from it. -/
def samplePromptingInfo : SessionInfoDto :=
  { samplePromptedInfo samplePromptFiles.1 samplePromptFiles.2 with statistics := some sampleStats }

/-- The codec on the files of the session before and after its first call. -/
@[reducible] def samplePromptingCodec : SessionCodec where
  toConfigCodec := sampleHashes
  dumpInfo info :=
    if info.statistics = none then samplePromptedText samplePromptFiles.1 samplePromptFiles.2
    else samplePromptingText
  loadInfo text :=
    if text = samplePromptingText then .ok samplePromptingInfo
    else if text = samplePromptedText samplePromptFiles.1 samplePromptFiles.2 then
      .ok (samplePromptedInfo samplePromptFiles.1 samplePromptFiles.2)
    else .error (.valueError "Invalid JSON in session info file")
  dumpMessages := sampleCodec.dumpMessages
  loadMessages := sampleCodec.loadMessages

/-- What is stored for the session before and after its first call can be decoded. -/
theorem roundTrips_samplePrompting {s : Session} (h : s = sampleSession ∨ s = sampleTold) :
    @RoundTrips samplePromptingCodec (sampleWithPrompts s) := by
  have hinfo : ∀ hid, @infoOf samplePromptingCodec (sampleWithPrompts s) hid =
      { samplePromptingInfo with statistics := s.usageStats.lifecycleTotalData.orNone } := by
    intro hid
    have hserialized : @infoOf samplePromptingCodec (sampleWithPrompts s) hid =
        { samplePromptingInfo with
          completionConfig := @serializedConfig sampleHashes
            { CompletionConfig.sample with systemPrompt := some "a" }
          statistics := s.usageStats.lifecycleTotalData.orNone
          messageContextStrategy := some ⟨"dummy", ∅, @serializedConfig sampleHashes
            { CompletionConfig.sample with systemPrompt := some "b" }⟩ } := by
      rcases h with rfl | rfl <;> rfl
    rw [hserialized, serializedConfig_sample (by decide), serializedConfig_sample (by decide)]
    rfl
  have htexts :
      samplePromptedText samplePromptFiles.1 samplePromptFiles.2 ≠ samplePromptingText := by
    decide +kernel
  have hround : @RoundTrips sampleCodec s := by
    rcases h with rfl | rfl
    · exact roundTrips_sample rfl rfl rfl rfl (Or.inl ⟨rfl, rfl⟩)
    · exact roundTrips_sample rfl rfl rfl rfl (Or.inr ⟨rfl, by decide +kernel⟩)
  obtain ⟨-, hmessages⟩ := hround
  refine @RoundTrips.mk samplePromptingCodec _ (fun hid ↦ ?_) ?_
  · rw [hinfo]
    rcases h with rfl | rfl
    · exact (if_neg htexts).trans (if_pos rfl)
    · have hsome : sampleTold.usageStats.lifecycleTotalData.orNone = some sampleStats :=
        if_neg (by decide +kernel)
      have hdump : samplePromptingCodec.dumpInfo
          { samplePromptingInfo with statistics := some sampleStats } = samplePromptingText :=
        if_neg (Option.some_ne_none sampleStats)
      rw [hsome, hdump]
      exact if_pos rfl
  · rcases h with rfl | rfl <;> exact hmessages

/-- Its two configurations load with their prompts. -/
theorem loadsAs_samplePrompting {t : FileTree}
    (h : @Written samplePromptingCodec sampleStore t (sampleWithPrompts sampleTold)) (p : String)
    (hp : p = "a" ∨ p = "b") :
    @LoadsAs sampleHashes t (sampleStore.sessionDir "s")
      { CompletionConfig.sample with systemPrompt := some p }
      (@CompletionConfig.reloaded sampleHashes
        { CompletionConfig.sample with systemPrompt := some p }) := by
  have hkept : ∀ q, q = "a" ∨ q = "b" → @Kept samplePromptingCodec sampleStore "s"
      {"a", "a\r\nb", "b"} { CompletionConfig.sample with systemPrompt := some q } := by
    intro q hq
    refine @Kept.fresh samplePromptingCodec sampleStore "s" _ _ rfl rfl rfl fun q' hq' ↦ ?_
    obtain rfl := Option.some.inj (truthyText_eq_some hq')
    rcases hq with rfl | rfl
    · exact .inl rfl
    · exact .inr (.inr rfl)
  refine @loadsAs_of_written samplePromptingCodec sampleStore _ t _ injOn_sample
    (hkept "a" (.inl rfl)) (hkept "b" (.inr rfl)) h _ ?_ ?_
  · rcases hp with rfl | rfl
    · exact .inl rfl
    · exact .inr rfl
  · intro q hq
    obtain rfl := Option.some.inj hq
    rcases hp with rfl | rfl <;> decide

end

/-- A second call, as the live session and as the loaded one take it. -/
def secondCall (u v : UUID) (elapsedS : ℕ) : List Session.Input :=
  [.acompletion "again" true u, .event (.textChunk "so"), .next, .mainEnds v elapsedS, .next]

/-- After its first call the session `s`, whose prompts are in files, is saved and loaded, and
goes on as if it had not been. -/
theorem reload_unobservable_sample :
    ∃ t' s', @App.getSession sampleFactory samplePromptingCodec samplePrompting t' "s" ⟨1⟩ =
        .ok s' ∧
      s'.messages = sampleTold.messages ∧
      s'.usageStats.lifecycleTotalData = sampleTold.usageStats.lifecycleTotalData ∧
      s'.completionConfig.copy = { CompletionConfig.sample with systemPrompt := some "a" } ∧
      @Session.seen .asciiOnly s' (secondCall (.ofNat 5) (.ofNat 6) 9) =
        @Session.seen .asciiOnly (sampleWithPrompts sampleTold)
          (secondCall (.ofNat 3) (.ofNat 4) 0) := by
  let t₁ := (@createSession sampleFactory samplePromptingCodec samplePrompting sampleTree "s" ⟨0⟩
    ⟨0⟩ []).1
  have hcreate : @createSession sampleFactory samplePromptingCodec samplePrompting sampleTree "s"
      ⟨0⟩ ⟨0⟩ [] = (t₁, .ok (sampleWithPrompts sampleSession)) :=
    Prod.snd_eq_iff.mp (by decide +kernel)
  obtain ⟨t', hwrite⟩ : ∃ t', @SessionFileAdapter.updateSession samplePromptingCodec
      samplePrompting.repository t₁ (sampleWithPrompts sampleTold) [] = (t', .ok ()) :=
    ⟨_, Prod.snd_eq_iff.mp (by decide +kernel)⟩
  obtain ⟨⟨c, o⟩, hrun, hc⟩ := Option.map_eq_some_iff.mp
    (show ((@machine .asciiOnly).run (sampleWithPrompts sampleSession, none) sampleCall).map
      (·.1) = some (sampleWithPrompts sampleTold, none) by decide +kernel)
  obtain rfl : c = (sampleWithPrompts sampleTold, none) := hc
  have hports : @PortsByContents sampleFactory := by
    intro _ c c' h
    show Except.ok c'.provider = Except.ok c.provider
    rw [← CompletionConfig.copy_provider c', h, CompletionConfig.copy_provider]
  have hset : ∀ strategy, .setStrategy strategy ∉ sampleCall := by simp [sampleCall]
  have hloads := loadsAs_samplePrompting
    (@SessionFileAdapter.Written.of_updateSession samplePromptingCodec _ _ _ _ _ hwrite)
  obtain ⟨s', hget, -, -, hmessages, -, -, hstats, hconfig, -, hseen⟩ := @reload_unobservable
    .asciiOnly samplePromptingCodec sampleFactory samplePrompting sampleTree t₁ t₁ t' "s" ⟨0⟩ ⟨0⟩
    ⟨1⟩ [] [] (sampleWithPrompts sampleSession) (sampleWithPrompts sampleTold) sampleCall o _ _
    hports hcreate hrun hset (by decide) hwrite (roundTrips_samplePrompting (.inr rfl))
    (hloads "a" (.inl rfl)) (hloads "b" (.inr rfl))
  refine ⟨t', s', hget, hmessages, hstats, hconfig, hseen _ _ ?_
    ⟨by decide, by decide, by decide⟩ ⟨by decide, by decide, by decide⟩⟩
  exact .cons (.acompletion _ _ _ _) (.cons (.event _) (.cons .next (.cons (.mainEnds _ _ _ _)
    (.cons .next .nil))))

end App
