import ChatServer.Conversation.Cadence
import ChatServer.Conversation.Reload

/-!
# What of the history an LLM is sent

Each strategy projects the records in its own way.  `Selects` says which records that is, in
terms of the history alone: all of them, the last ones, or those after the anchor.
`getContext_eq_lead_append` is that `get_context` of every strategy computes it, with the text of
the summary in front; since a question is recorded before the context is read, the projection
ends with it.

Where the projection begins is another matter.  In completed turns questions and answers
alternate, so it begins with a question exactly if it is cut at an even position.  A summary is
only ever stored between two turns, but a window is counted from the end, where a question has
just been added.
-/

namespace MessageContextStrategy

/-- The records a strategy selects from its history. -/
inductive Selects : MessageContextStrategy → List MessageRecord → Prop where
  | dummy (s : DummyStrategy) : Selects (.dummy s) s.records
  | slidingWindow (s : SlidingWindowStrategy) (before suffix : List MessageRecord)
      (hrecords : s.records = before ++ suffix)
      (hlength : suffix.length = min s.windowSize s.records.length) :
      Selects (.slidingWindow s) suffix
  | unanchored (s : SummaryStrategy) (hanchor : s.summary.anchorId = none) :
      Selects (.summary s) s.records
  | foreign (s : SummaryStrategy) (a : UUID) (hanchor : s.summary.anchorId = some a)
      (ha : a ∉ SummaryStrategy.ids s.records) : Selects (.summary s) s.records
  | anchored (s : SummaryStrategy) (covered : List MessageRecord) (last : MessageRecord)
      (rest : List MessageRecord) (hrecords : s.records = covered ++ last :: rest)
      (hanchor : s.summary.anchorId = some last.id) (hfirst : ∀ r ∈ covered, r.id ≠ last.id) :
      Selects (.summary s) rest

/-- What a strategy may put in front: nothing, or a summary that says something. -/
inductive Leads : MessageContextStrategy → List Message → Prop where
  | nothing (s : MessageContextStrategy) : Leads s []
  | summary (s : SummaryStrategy) (htext : s.summary.text ≠ "") :
      Leads (.summary s) [Message.of "user" s.summary.text]

/-- What is selected is the end of the history. -/
theorem Selects.suffix {σ : MessageContextStrategy} {suffix : List MessageRecord}
    (h : σ.Selects suffix) : suffix <:+ σ.getHistory := by
  cases h with
  | dummy s => exact List.suffix_rfl
  | slidingWindow s before suffix hrecords =>
      exact ⟨before, hrecords.symm⟩
  | unanchored s | foreign s => exact List.suffix_rfl
  | anchored s covered last rest hrecords =>
      refine ⟨covered ++ [last], ?_⟩
      rw [List.append_assoc]
      exact hrecords.symm

/-- It is not empty if the latest record is not the anchor. -/
theorem Selects.ne_nil {σ : MessageContextStrategy} {suffix before : List MessageRecord}
    {r : MessageRecord} (h : σ.Selects suffix) (hhistory : σ.getHistory = before ++ [r])
    (hr : σ.anchorId ≠ some r.id) : suffix ≠ [] := by
  have hne : σ.getHistory ≠ [] := by
    rw [hhistory]
    exact List.concat_ne_nil r before
  cases h with
  | dummy s => exact hne
  | slidingWindow s init suffix hrecords hlength =>
      have hpos : 0 < s.records.length := List.length_pos_iff.mpr hne
      have hwindow := s.windowSize_pos
      apply List.ne_nil_of_length_pos
      rw [hlength]
      omega
  | unanchored s | foreign s => exact hne
  | anchored s covered last rest hrecords hanchor =>
      rintro rfl
      have hlast : [last] = [r] :=
        (List.append_inj' (hrecords.symm.trans hhistory) rfl).2
      cases hlast
      exact hr hanchor

/-- **The projection.**  The context of a strategy is what it selects, behind a summary at
most. -/
theorem getContext_eq_lead_append (σ : MessageContextStrategy) :
    ∃ lead suffix, σ.getContext = lead ++ suffix.map (·.message) ∧ σ.Leads lead ∧
      σ.Selects suffix := by
  cases σ with
  | dummy s => exact ⟨[], s.records, rfl, .nothing _, .dummy s⟩
  | slidingWindow s =>
      refine ⟨[], s.records.drop (s.records.length - s.windowSize), rfl, .nothing _, ?_⟩
      refine .slidingWindow s (s.records.take (s.records.length - s.windowSize)) _
        (List.take_append_drop _ _).symm ?_
      rw [List.length_drop]
      omega
  | summary s =>
      have hlead :
          (MessageContextStrategy.summary s).Leads (SummaryStrategy.lead s.summary.text) := by
        rw [SummaryStrategy.lead]
        split
        · rename_i htext
          exact .summary s htext
        · exact .nothing _
      show ∃ lead suffix, s.getContext = _ ∧ _
      rw [s.getContext_eq]
      cases hanchor : s.summary.anchorId with
      | none => exact ⟨[], s.records, rfl, .nothing _, .unanchored s hanchor⟩
      | some a =>
          refine ⟨SummaryStrategy.lead s.summary.text, s.recordsAfterAnchor, rfl, hlead, ?_⟩
          by_cases ha : a ∈ SummaryStrategy.ids s.records
          · obtain ⟨covered, last, rest, hrecords, rfl, hfirst, hrest⟩ :=
              SummaryStrategy.exists_split_of_mem hanchor ha
            rw [hrest]
            exact .anchored s covered last rest hrecords hanchor hfirst
          · rw [SummaryStrategy.recordsAfterAnchor_eq_records]
            · exact .foreign s a hanchor ha
            · intro r hr he
              cases hanchor.symm.trans he
              exact ha (List.mem_map_of_mem hr)

/-- Another base changes nothing about the anchor. -/
theorem anchorId_withBase (b : StrategyBase) (σ : MessageContextStrategy) :
    (σ.withBase b).anchorId = σ.anchorId := by
  cases σ <;> rfl

theorem strategyType_withBase (b : StrategyBase) (σ : MessageContextStrategy) :
    (σ.withBase b).strategyType = σ.strategyType := by
  cases σ <;> rfl

theorem exists_summary_of_strategyType {σ : MessageContextStrategy}
    (h : σ.strategyType = "summary") : ∃ s, σ = .summary s := by
  cases σ with
  | dummy s => exact absurd h (by simp [strategyType])
  | slidingWindow s => exact absurd h (by simp [strategyType])
  | summary s => exact ⟨s, rfl⟩

theorem strategyType_updateContextEnd {σ σ' : MessageContextStrategy} {text : String}
    (h : σ.updateContextEnd text = .ok σ') : σ'.strategyType = σ.strategyType := by
  cases σ with
  | dummy s => cases h; rfl
  | slidingWindow s => cases h; rfl
  | summary s =>
      rw [updateContextEnd] at h
      cases hs : s.updateContextEnd text with
      | error e => rw [hs] at h; cases h
      | ok s' => rw [hs] at h; cases h; rfl

end MessageContextStrategy

namespace Session

/-- Whatever session it is, made, loaded or given another strategy, and whatever became of the
calls before: a call sends its main LLM an end of the history that is not empty, behind the
text of the summary at most, and the last message is the prompt. -/
theorem projection_of_call [UnicodeData] {s s' : Session} {inputs : List Input} {o : List Obs}
    {prompt : String} {stream : Bool} {uuid4 : UUID}
    (h : machine.run (s, none) inputs = some ((s', none), o))
    (hfresh : s'.messageContextStrategy.anchorId ≠ some uuid4) :
    ∃ s'' request, machine.run (s, none) (inputs ++ [.acompletion prompt stream uuid4]) =
        some ((s'', some (.main "" none)), o ++ [.called .main request]) ∧
      ∃ lead suffix, request.fullMessages = lead ++ suffix.map (·.message) ∧
        s''.messageContextStrategy.Leads lead ∧ s''.messageContextStrategy.Selects suffix ∧
        suffix <:+ s''.messages ∧ suffix ≠ [] ∧
        request.fullMessages.getLast? = some (Message.of "user" prompt) := by
  have hrun : machine.run (s, none) (inputs ++ [.acompletion prompt stream uuid4]) =
      some (((s'.beginAcompletion prompt stream uuid4).1, some (.main "" none)),
        o ++ [.called .main (s'.beginAcompletion prompt stream uuid4).2]) :=
    Mealy.run_concat h rfl
  refine ⟨_, _, hrun, ?_⟩
  let σ := s'.messageContextStrategy.addUserQuery prompt uuid4
  obtain ⟨lead, suffix, hcontext, hlead, hselects⟩ := σ.getContext_eq_lead_append
  have hhistory : σ.getHistory = s'.messages ++
      [⟨uuid4, s'.messages.getLast?.map (·.id), Message.of "user" prompt⟩] :=
    MessageContextStrategy.getHistory_addUserQuery _ _ _
  have hanchor : σ.anchorId = s'.messageContextStrategy.anchorId :=
    MessageContextStrategy.anchorId_withBase _ _
  have hne : suffix ≠ [] := hselects.ne_nil hhistory (by rw [hanchor]; exact hfresh)
  refine ⟨lead, suffix, hcontext, hlead, hselects, hselects.suffix, hne, ?_⟩
  obtain ⟨before, hbefore⟩ := hselects.suffix
  have hlast : suffix.getLast? = some
      ⟨uuid4, s'.messages.getLast?.map (·.id), Message.of "user" prompt⟩ := by
    rw [hhistory] at hbefore
    rw [← List.getLast?_append_of_ne_nil before hne, hbefore]
    exact List.getLast?_concat
  have hmap : suffix.map (·.message) ≠ [] := fun hnil ↦ hne (List.map_eq_nil_iff.mp hnil)
  show σ.getContext.getLast? = _
  rw [hcontext, List.getLast?_append_of_ne_nil _ hmap, List.getLast?_map, hlast]
  rfl

/-- A question that was cancelled is sent again with the next one. -/
theorem projection_after_cancelled :
    ∃ s' s'' o request, (@machine .asciiOnly).run (sampleDummy, none)
        [.acompletion "a" true (.ofNat 1), .cancelled] = some ((s', none), o) ∧
      (@machine .asciiOnly).run (sampleDummy, none)
        ([.acompletion "a" true (.ofNat 1), .cancelled] ++ [.acompletion "b" true (.ofNat 2)]) =
          some ((s'', some (.main "" none)), o ++ [.called .main request]) ∧
      request.fullMessages.getLast? = some (Message.of "user" "b") := by
  obtain ⟨s'', request, hrun, -, -, -, -, -, -, -, hlast⟩ := @projection_of_call .asciiOnly
    sampleDummy _ [.acompletion "a" true (.ofNat 1), .cancelled] _ "b" true (.ofNat 2) rfl
    (by rintro ⟨⟩)
  exact ⟨_, s'', _, request, rfl, hrun, hlast⟩

/-! ## Where it begins -/

/-- A list of messages begins with one of the user. -/
def OpensWithUser (messages : List Message) : Prop :=
  ∃ m rest, messages = m :: rest ∧ m.get? "role" = some "user"

/-- What is cut from the history begins with the record at the cut. -/
theorem opensWithUser_drop {records : List MessageRecord} {k : ℕ} (hk : k < records.length) :
    OpensWithUser ((records.drop k).map (·.message)) ↔
      (records.map (·.role))[k]? = some (some "user") := by
  have hrole : (records.map (·.role))[k]? = some records[k].role := by
    rw [List.getElem?_map, List.getElem?_eq_getElem hk]
    rfl
  rw [List.drop_eq_getElem_cons hk, List.map_cons, hrole]
  constructor
  · rintro ⟨m, rest, hm, huser⟩
    cases hm
    exact congrArg some huser
  · intro huser
    exact ⟨_, _, rfl, Option.some.inj huser⟩

/-- The text of a summary is a message of the user. -/
theorem opensWithUser_lead_append {text : String} {messages : List Message}
    (h : OpensWithUser messages) : OpensWithUser (SummaryStrategy.lead text ++ messages) := by
  rw [SummaryStrategy.lead]
  split
  · exact ⟨_, messages, rfl, Message.get?_role_of _ _⟩
  · exact h

/-- Questions stand at even positions, also when the last one awaits its answer. -/
theorem role_after_question {roles : List (Option String)} (h : Alternate roles) {i : ℕ}
    (hi : i < roles.length + 1) :
    (roles ++ [some "user"])[i]? = some (some "user") ↔ Even i := by
  obtain ⟨heven, hroles⟩ := h
  rcases Nat.lt_succ_iff_lt_or_eq.mp hi with hlt | rfl
  · rw [List.getElem?_append_left hlt, hroles i hlt]
    split
    · rename_i hi
      exact iff_of_true rfl hi
    · rename_i hi
      exact iff_of_false (by decide) hi
  · rw [List.getElem?_concat_length]
    exact iff_of_true rfl heven

/-- With a question just added, the messages from a position on begin with one of the user
exactly if the position is even. -/
theorem opensWithUser_cut {records : List MessageRecord} {roles : List (Option String)} {pos : ℕ}
    (halternate : Alternate roles) (hroles : records.map (·.role) = roles ++ [some "user"])
    (hpos : pos < records.length) :
    OpensWithUser ((records.drop pos).map (·.message)) ↔ Even pos := by
  have hlength := congrArg List.length hroles
  rw [List.length_map, List.length_append, List.length_singleton] at hlength
  rw [opensWithUser_drop hpos, hroles]
  exact role_after_question halternate (hpos.trans_eq hlength)

/-- The last `w` of an odd number of messages. -/
theorem opensWithUser_window {records : List MessageRecord} {roles : List (Option String)} {w : ℕ}
    (halternate : Alternate roles) (hroles : records.map (·.role) = roles ++ [some "user"])
    (hw : 1 ≤ w) :
    OpensWithUser ((records.drop (records.length - w)).map (·.message)) ↔
      Odd w ∨ records.length ≤ w := by
  have hlength := congrArg List.length hroles
  rw [List.length_map, List.length_append, List.length_singleton] at hlength
  rw [opensWithUser_cut halternate hroles (by omega), Nat.even_iff, Nat.odd_iff]
  have heven := Nat.even_iff.mp halternate.1
  omega

section

variable [UnicodeData]

/-- Only a new strategy can be of another type. -/
theorem Step.strategyType {c c' : Session × Option Phase} {i : Input} {o : List Obs}
    (h : Step c i c' o) (hi : ∀ strategy, i ≠ .setStrategy strategy) :
    c'.1.messageContextStrategy.strategyType = c.1.messageContextStrategy.strategyType := by
  cases h with
  | setStrategy s s' strategy => exact absurd rfl (hi strategy)
  | acompletion | mainEndsFails | mainEnds | mainEndsSummary =>
      exact MessageContextStrategy.strategyType_withBase _ _
  | summaryEnds s stop text n τ hend =>
      exact MessageContextStrategy.strategyType_updateContextEnd hend
  | _ => rfl

/-- What completed turns leave open: the answer of the call under way, if there is one. -/
structure AllAnswered (inputs : List Input) (c : Session × Option Phase) : Prop where
  waiting : AwaitsAnswer c.2 → ∃ calls, answered inputs = calls ++ [false] ∧ ∀ b ∈ calls, b = true
  settled : ¬ AwaitsAnswer c.2 → ∀ b ∈ answered inputs, b = true

theorem AllAnswered.step {inputs : List Input} {c c' : Session × Option Phase} {i : Input}
    {o : List Obs} (hc : AllAnswered inputs c) (h : Step c i c' o)
    (hcompleting : Completing i o) : AllAnswered (inputs ++ [i]) c' := by
  obtain ⟨hset, hends⟩ := hcompleting
  -- the answer of the open call is recorded, so the entry of the call changes
  have hanswer : ∀ {uuid4 elapsedS}, i = .mainEnds uuid4 elapsedS → AwaitsAnswer c.2 →
      ∀ b ∈ answered (inputs ++ [i]), b = true := by
    rintro uuid4 elapsedS rfl hawaits
    obtain ⟨calls, hcalls, hall⟩ := hc.waiting hawaits
    rw [answered_concat, answeredStep, hcalls, List.dropLast_concat]
    intro b hb
    rcases List.mem_append.mp hb with hb | hb
    · exact hall b hb
    · exact List.mem_singleton.mp hb
  cases h with
  | acompletion s prompt stream uuid4 =>
      refine ⟨fun _ ↦ ⟨answered inputs, ?_, hc.settled not_false⟩, fun h ↦ absurd trivial h⟩
      rw [answered_concat]
      rfl
  | setStrategyFails s strategy | setStrategy s s' strategy => exact absurd rfl (hset strategy)
  | mainText | mainDone | chunkNext =>
      refine ⟨fun _ ↦ ?_, fun h ↦ absurd trivial h⟩
      rw [answered_concat]
      exact hc.waiting trivial
  | mainEndsFails | mainEnds | mainEndsSummary =>
      exact ⟨False.elim, fun _ ↦ hanswer rfl trivial⟩
  | summaryEvent | summaryEndsFails | summaryEnds =>
      refine ⟨False.elim, fun _ ↦ ?_⟩
      rw [answered_concat]
      exact hc.settled not_false
  | ends s p i ob h =>
      cases h with
      | returned =>
          refine ⟨False.elim, fun _ ↦ ?_⟩
          rw [answered_concat]
          exact hc.settled not_false
      | _ => exact absurd (hends _ (List.mem_singleton_self _)) (by simp [Obs.aborts])

/-- In completed turns every call is answered. -/
theorem answered_of_completed {s : Session} {c : Session × Option Phase} {inputs : List Input}
    {o : List Obs} (h : machine.run (s, none) inputs = some (c, o))
    (hcompleted : Completed inputs o) : AllAnswered inputs c := by
  refine Mealy.run_induction (P := fun inputs c o ↦ Completed inputs o → AllAnswered inputs c)
    (fun _ ↦ ⟨False.elim, fun _ b hb ↦ absurd hb List.not_mem_nil⟩) ?_ h hcompleted
  intro inputs c o i c' o' ih hs hcompleted
  obtain ⟨hcompleted, hcompleting⟩ := hcompleted.of_concat
  exact (ih hcompleted).step (.of_step hs) hcompleting

/-- Between completed turns questions and answers alternate. -/
theorem alternate_of_completed {s s' : Session} {inputs : List Input} {o : List Obs}
    (hempty : s.messages = []) (hcompleted : Completed inputs o)
    (h : machine.run (s, none) inputs = some ((s', none), o)) : Alternate s'.roles := by
  rw [roles_of_run h, roles, hempty]
  exact (alternate_flatMap_iff _).mpr ((answered_of_completed h hcompleted).settled not_false)

omit [UnicodeData] in
/-- The roles of a history to which a question is added. -/
theorem roles_addUserQuery (s : Session) (prompt : String) (uuid4 : UUID) :
    (s.messageContextStrategy.addUserQuery prompt uuid4).getHistory.map (·.role) =
      s.roles ++ [some "user"] := by
  rw [MessageContextStrategy.getHistory_addUserQuery, List.map_append]
  exact congrArg (s.roles ++ [·]) (Message.get?_role_of _ _)

/-- The context of a summary session begins with a question or a summary: whatever is summed
up is a number of completed turns. -/
theorem opensWithUser_of_summary {s s' : Session} {σ₀ : SummaryStrategy} {inputs : List Input}
    {o : List Obs} {uuid4 : UUID} (prompt : String) (hempty : s.messages = [])
    (hσ : s.messageContextStrategy = .summary σ₀)
    (hfresh : Unknown s (drawn inputs ++ [uuid4])) (hcompleted : Completed inputs o)
    (h : machine.run (s, none) inputs = some ((s', none), o)) :
    OpensWithUser (s'.messageContextStrategy.addUserQuery prompt uuid4).getContext := by
  have hrecords : σ₀.records = [] := by
    rw [messages, hσ] at hempty
    exact hempty
  have hanchor₀ : ∀ u ∈ drawn inputs ++ [uuid4], σ₀.summary.anchorId ≠ some u := by
    intro u hu
    have hne := hfresh.anchorId u hu
    rw [hσ] at hne
    exact hne
  have hfresh₀ : (σ₀.summary.anchorId.toList ++ drawn inputs).Nodup := by
    apply List.nodup_append'.mpr
    refine ⟨by cases σ₀.summary.anchorId <;> simp, (List.nodup_append'.mp hfresh.nodup).1, ?_⟩
    intro u hu hdrawn
    exact hanchor₀ u (List.mem_append_left _ hdrawn) (Option.mem_toList.mp hu)
  rcases cadence_of_run hσ hrecords hfresh₀ hcompleted h with
    ⟨_, _, _, σ, n, k, -, hσ', hstanding, -⟩ | ⟨_, _, _, _, _, _, hp, _⟩
  swap
  · exact hp.elim
  have halternate := alternate_of_completed hempty hcompleted h
  have hroles := roles_addUserQuery s' prompt uuid4
  have hids : SummaryStrategy.ids σ.records = drawn inputs := by
    rw [← ids_of_summary hσ', ids_of_run h, ids, hempty]
    rfl
  -- the anchor stays where it was when the question is added
  have hnew : σ.summary.anchorId ≠ some uuid4 := by
    intro ha
    rcases List.mem_append.mp (hstanding.anchor uuid4 ha) with hmem | hmem
    · exact hanchor₀ uuid4 (by simp) (Option.mem_toList.mp hmem)
    · rw [hids] at hmem
      exact (List.nodup_append.mp hfresh.nodup).2.2 _ hmem _ (List.mem_singleton_self _) rfl
  rw [hσ'] at hroles ⊢
  let σ' : SummaryStrategy :=
    { σ with toStrategyBase := σ.toStrategyBase.addUserQuery prompt uuid4 }
  have hroles' : σ'.records.map (·.role) = s'.roles ++ [some "user"] := hroles
  have hlength : σ'.records.length = 2 * n + 1 := by
    show (σ.records ++ [_]).length = _
    rw [List.length_append, List.length_singleton, hstanding.length]
  have hanchored : σ'.AnchoredAt (2 * (period σ₀.windowSize * k)) :=
    hstanding.anchored.append rfl rfl hnew
  have hnodup : (SummaryStrategy.ids σ'.records).Nodup := by
    show (SummaryStrategy.ids (σ.records ++ [_])).Nodup
    rw [SummaryStrategy.ids_append, hids]
    exact hfresh.nodup
  show OpensWithUser σ'.getContext
  rw [σ'.getContext_eq]
  cases σ'.summary.anchorId with
  | none => exact (opensWithUser_cut halternate hroles' (by omega)).mpr Even.zero
  | some a =>
      apply opensWithUser_lead_append
      rw [SummaryStrategy.recordsAfterAnchor_eq_drop hanchored hnodup]
      have hle := hstanding.le
      exact (opensWithUser_cut halternate hroles' (by omega)).mpr (even_two_mul _)

end

/-- In completed turns a list of messages for the main LLM begins with one of the user when
the strategy is no window.  The last `w` messages do so exactly if `w` is odd or not less than
all of them. -/
theorem opening_of_call [UnicodeData] {llm : LlmPort} {id : String}
    {completionConfig : CompletionConfig} {billing : Option ModelBilling} {strategyType : String}
    {strategyMetadata : OrderedDict String Json} {strategyLlm : LlmPort}
    {strategyCompletionConfig : CompletionConfig} {strategyBilling : Option ModelBilling}
    {now : Datetime} {ref : StatsRef} {s s' : Session} {inputs : List Input} {o : List Obs}
    {prompt : String} {stream : Bool} {uuid4 : UUID}
    (hs : create llm id completionConfig billing strategyType strategyMetadata strategyLlm
      strategyCompletionConfig strategyBilling now ref = .ok s)
    (hfresh : Unknown s (drawn inputs ++ [uuid4])) (hcompleted : Completed inputs o)
    (h : machine.run (s, none) inputs = some ((s', none), o)) :
    ∃ s'' request, machine.run (s, none) (inputs ++ [.acompletion prompt stream uuid4]) =
        some ((s'', some (.main "" none)), o ++ [.called .main request]) ∧
      (∀ σ, s''.messageContextStrategy = .slidingWindow σ →
        (OpensWithUser request.fullMessages ↔
          Odd σ.windowSize ∨ s''.messages.length ≤ σ.windowSize)) ∧
      ((∀ σ, s''.messageContextStrategy ≠ .slidingWindow σ) →
        OpensWithUser request.fullMessages) := by
  have hempty : s.messages = [] := messages_create hs
  have halternate := alternate_of_completed hempty hcompleted h
  have hroles := roles_addUserQuery s' prompt uuid4
  refine ⟨(s'.beginAcompletion prompt stream uuid4).1, (s'.beginAcompletion prompt stream uuid4).2,
    Mealy.run_concat h rfl, ?_, ?_⟩
  · intro σ hσ
    have hτ : s'.messageContextStrategy.addUserQuery prompt uuid4 = .slidingWindow σ := hσ
    show OpensWithUser (s'.messageContextStrategy.addUserQuery prompt uuid4).getContext ↔
      _ ∨ (s'.messageContextStrategy.addUserQuery prompt uuid4).getHistory.length ≤ _
    rw [hτ] at hroles ⊢
    exact opensWithUser_window halternate hroles σ.windowSize_pos
  · intro hne
    show OpensWithUser (s'.messageContextStrategy.addUserQuery prompt uuid4).getContext
    have htype : s'.messageContextStrategy.strategyType =
        s.messageContextStrategy.strategyType := by
      refine turns_induction (P := fun _ c _ ↦ c.1.messageContextStrategy.strategyType =
        s.messageContextStrategy.strategyType) rfl ?_ h hcompleted.set
      exact fun inputs c o i c' o' ih hs hi ↦ (hs.strategyType hi).trans ih
    cases hσ' : s'.messageContextStrategy with
    | dummy σ =>
        rw [hσ'] at hroles
        refine (opensWithUser_cut halternate hroles ?_).mpr Even.zero
        exact List.length_pos_of_mem (List.mem_append_right _ (List.mem_singleton_self _))
    | slidingWindow σ =>
        refine absurd ?_
          (hne { σ with toStrategyBase := σ.toStrategyBase.addUserQuery prompt uuid4 })
        show s'.messageContextStrategy.addUserQuery prompt uuid4 = _
        rw [hσ']
        rfl
    | summary σ =>
        rw [hσ'] at htype
        obtain ⟨σ₀, hσ⟩ := MessageContextStrategy.exists_summary_of_strategyType htype.symm
        rw [← hσ']
        exact opensWithUser_of_summary prompt hempty hσ hfresh hcompleted h

/-- A session with a window of `n + 1` records, as `Session.create` makes it. -/
def windowOf (n : ℕ) : Session :=
  init (.port "main") "s" ⟨0⟩ .sample none ⟨0⟩ (.init none)
    (.slidingWindow
      ⟨⟨.decorated (.port "summariser") ⟨0⟩ none, .sample, []⟩, n + 1, Nat.succ_pos n⟩)

/-- A completed turn. -/
def oneTurn : List Input :=
  [.acompletion "a" true (.ofNat 1), .event (.textChunk "b"), .next, .mainEnds (.ofNat 2) 0, .next]

/-- With a window of one record only the question is sent. -/
theorem opening_windowOfOne :
    ∃ s' s'' o request, (@machine .asciiOnly).run (windowOf 0, none) oneTurn =
        some ((s', none), o) ∧
      (@machine .asciiOnly).run (windowOf 0, none) (oneTurn ++ [.acompletion "c" true (.ofNat 3)]) =
        some ((s'', some (.main "" none)), o ++ [.called .main request]) ∧
      OpensWithUser request.fullMessages := by
  obtain ⟨s'', request, hrun, hwindow, -⟩ := @opening_of_call .asciiOnly (.port "main") "s" .sample
    none "sliding_window" ((∅ : OrderedDict String Json).set "window_size" (.int 1))
    (.port "summariser") .sample none ⟨0⟩ ⟨0⟩ (windowOf 0) _ oneTurn _ "c" true (.ofNat 3) rfl
    ⟨by decide, by decide, by decide⟩ ⟨by simp [oneTurn], by decide⟩ rfl
  refine ⟨_, s'', _, request, rfl, hrun, ?_⟩
  cases hrun
  exact (hwindow _ rfl).mpr (Or.inl odd_one)

/-- With a window of two records the second question is sent behind the first answer, and the
first question is not. -/
theorem answer_without_question :
    create (.port "main") "s" .sample none "sliding_window"
        ((∅ : OrderedDict String Json).set "window_size" (.int 2)) (.port "summariser") .sample none
        ⟨0⟩ ⟨0⟩ = .ok (windowOf 1) ∧
      ∃ s' s'' o request, (@machine .asciiOnly).run (windowOf 1, none) oneTurn =
          some ((s', none), o) ∧
        Completed oneTurn o ∧
        (@machine .asciiOnly).run (windowOf 1, none)
            (oneTurn ++ [.acompletion "c" true (.ofNat 3)]) =
          some ((s'', some (.main "" none)), o ++ [.called .main request]) ∧
        request.fullMessages = [Message.of "assistant" "b", Message.of "user" "c"] ∧
        ¬ OpensWithUser request.fullMessages := by
  refine ⟨rfl, _, _, _, _, rfl, ⟨by simp [oneTurn], by decide⟩, rfl, rfl, ?_⟩
  rintro ⟨m, rest, hm, huser⟩
  cases hm
  exact absurd huser (by decide)

end Session
