import ChatServer.Conversation.Anchor
import ChatServer.Conversation.History

/-!
# When a session summarises, and what it sends

A completed turn of a session adds two records, and the summary strategy counts
records.  So with a window of `w` it summarises at the end of every
`period w`-th turn, odd windows rounded up, and in between it sends what has
piled up since the last summary.

`Cadence` is the state of the schedule: `k` summaries are behind, `n` turns, and
`n` lies in the `k`-th round.  It has a case for each stretch of a turn.
-/

namespace Session

/-- Every how many turns a window of `w` records is full. -/
def period (w : ℕ) : ℕ := (w + 1) / 2

theorem period_pos (σ : SummaryStrategy) : 0 < period σ.windowSize := by
  have hw := σ.windowSize_pos
  rw [period]
  omega

/-- The turns begun in a trace. -/
def turns (o : List Obs) : ℕ := o.countP Obs.isCall

/-- Whether an observation ends a call early. -/
def Obs.aborts : Obs → Bool
  | .raised _ => true
  | .closed => true
  | _ => false

/-- Which LLMs were called, in order. -/
def calledRoles (o : List Obs) : List Role :=
  o.filterMap fun
    | .called role _ => some role
    | _ => none

/-- What one observation adds to the texts of the summarisation LLM: a call starts a
text, and an event continues it. -/
def summaryTextsStep (texts : List String) : Obs → List String
  | .called .summary _ => texts ++ [""]
  | .received .summary _ e => texts.dropLast ++ [texts.getLast?.getD "" ++ e.text]
  | _ => texts

/-- The answers of the summarisation LLM, call by call. -/
def summaryTexts (o : List Obs) : List String := o.foldl summaryTextsStep []

/-- The calls of `n` turns when every `p`-th ends with a summarisation. -/
def expectedRoles (p n : ℕ) : List Role :=
  (List.range n).flatMap fun j ↦ .main :: if p ∣ j + 1 then [.summary] else []

@[simp] theorem calledRoles_append (o o' : List Obs) :
    calledRoles (o ++ o') = calledRoles o ++ calledRoles o' := List.filterMap_append

@[simp] theorem summaryTexts_append (o o' : List Obs) :
    summaryTexts (o ++ o') = o'.foldl summaryTextsStep (summaryTexts o) := List.foldl_append

theorem expectedRoles_succ (p n : ℕ) :
    expectedRoles p (n + 1) =
      expectedRoles p n ++ .main :: if p ∣ n + 1 then [.summary] else [] := by
  rw [expectedRoles, List.range_succ, List.flatMap_append, List.flatMap_singleton]
  rfl

theorem count_expectedRoles (p n : ℕ) : (expectedRoles p n).count .main = n := by
  induction n with
  | zero => rfl
  | succ n ih =>
      rw [expectedRoles_succ, List.count_append, ih]
      split <;> rfl

/-- Every turn calls the main LLM once. -/
theorem count_calledRoles (o : List Obs) : (calledRoles o).count .main = turns o := by
  induction o with
  | nil => rfl
  | cons ob o ih =>
      rw [turns, List.countP_cons, ← List.singleton_append, calledRoles_append, List.count_append,
        ih, turns, Nat.add_comm]
      congr 1
      cases ob with
      | called role request => cases role <;> rfl
      | _ => rfl

/-! ## The schedule -/

/-- A summary strategy that started as `σ₀`, after `n` turns and `k` summaries. -/
structure Standing (σ₀ σ : SummaryStrategy) (length n k : ℕ) (texts : List String) : Prop where
  windowSize : σ.windowSize = σ₀.windowSize
  length : σ.records.length = length
  anchored : σ.AnchoredAt (2 * (period σ₀.windowSize * k))
  anchor : ∀ a ∈ σ.summary.anchorId,
    a ∈ σ₀.summary.anchorId.toList ++ SummaryStrategy.ids σ.records
  le : period σ₀.windowSize * k ≤ n
  lt : n < period σ₀.windowSize * k + period σ₀.windowSize
  rounds : texts.length = k
  /-- Before the first summary the initial one is in force. -/
  start : texts = [] → σ.summary = σ₀.summary
  text : ∀ t ∈ texts.getLast?, σ.summary.text = t ∧ σ.summary.anchorId.isSome

/-- Where a session of completed turns stands. -/
inductive Cadence (σ₀ : SummaryStrategy) : Session × Option Phase → List Obs → Prop where
  /-- Between turns, or about to end one. -/
  | settled (s : Session) (p : Option Phase) (o : List Obs) (σ : SummaryStrategy) (n k : ℕ)
      (hp : p = none ∨ p = some .done) (hσ : s.messageContextStrategy = .summary σ)
      (hstanding : Standing σ₀ σ (2 * n) n k (summaryTexts o))
      (hroles : calledRoles o = expectedRoles (period σ₀.windowSize) n) : Cadence σ₀ (s, p) o
  /-- The prompt is recorded and its answer is not. -/
  | asking (s : Session) (p : Option Phase) (o : List Obs) (σ : SummaryStrategy) (n k : ℕ)
      (hp : AwaitsAnswer p) (hσ : s.messageContextStrategy = .summary σ)
      (hstanding : Standing σ₀ σ (2 * n + 1) n k (summaryTexts o))
      (hroles : calledRoles o = expectedRoles (period σ₀.windowSize) n ++ [.main]) :
      Cadence σ₀ (s, p) o
  /-- The last turn of a round awaits its summary. -/
  | summarising (s : Session) (stop : Option StopReason) (text : String) (o : List Obs)
      (σ : SummaryStrategy) (n k : ℕ) (texts : List String)
      (hσ : s.messageContextStrategy = .summary σ)
      (hstanding : Standing σ₀ σ (2 * n + 2) n k texts)
      (htexts : summaryTexts o = texts ++ [text])
      (hlast : n + 1 = period σ₀.windowSize * k + period σ₀.windowSize)
      (hroles : calledRoles o = expectedRoles (period σ₀.windowSize) n ++ [.main, .summary]) :
      Cadence σ₀ (s, some (.summary stop text)) o

/-- A record is added. -/
theorem Standing.append {σ₀ σ σ' : SummaryStrategy} {length n k : ℕ} {texts : List String}
    (h : Standing σ₀ σ length n k texts) {r : MessageRecord}
    (hσ' : σ' = { σ with records := σ.records ++ [r] })
    (hr : r.id ∉ σ₀.summary.anchorId.toList ++ SummaryStrategy.ids σ.records) :
    Standing σ₀ σ' (length + 1) n k texts := by
  subst hσ'
  refine ⟨h.windowSize, ?_, ?_, ?_, h.le, h.lt, h.rounds, h.start, h.text⟩
  · rw [List.length_append, h.length]
    rfl
  · exact h.anchored.append rfl rfl fun ha ↦ hr (h.anchor r.id ha)
  · intro a ha
    rw [SummaryStrategy.ids_append, ← List.append_assoc]
    exact List.mem_append_left _ (h.anchor a ha)

/-- A summary is stored at the end of a round. -/
theorem Standing.summarise {σ₀ σ σ' : SummaryStrategy} {n k : ℕ} {texts : List String}
    {text : String} (h : Standing σ₀ σ (2 * n + 2) n k texts)
    (hend : σ.updateContextEnd text = .ok σ')
    (hlast : n + 1 = period σ₀.windowSize * k + period σ₀.windowSize) :
    Standing σ₀ σ' (2 * (n + 1)) (n + 1) (k + 1) (texts ++ [text]) := by
  have hanchored := SummaryStrategy.AnchoredAt.of_updateContextEnd hend
  obtain ⟨init, last, hrecords, rfl⟩ := SummaryStrategy.updateContextEnd_ok hend
  have hpos := period_pos σ₀
  have hround : period σ₀.windowSize * (k + 1) = n + 1 := by
    rw [Nat.mul_succ, hlast]
  refine ⟨h.windowSize, ?_, ?_, ?_, Nat.le_of_eq hround, ?_, ?_, ?_, ?_⟩
  · exact h.length
  · rw [hround]
    have hlength : 2 * (n + 1) = σ.records.length := h.length.symm
    rw [hlength]
    exact hanchored
  · rintro a ⟨⟩
    refine List.mem_append_right _ ?_
    rw [SummaryStrategy.ids, hrecords]
    exact List.mem_map_of_mem (by simp)
  · omega
  · rw [List.length_append, h.rounds]
    rfl
  · intro hnil
    exact absurd hnil (by simp)
  · rw [List.getLast?_concat]
    rintro t ⟨⟩
    exact ⟨rfl, rfl⟩

/-- The records since the last summary, in number. -/
theorem Standing.length_recordsAfterAnchor {σ₀ σ : SummaryStrategy} {length n k : ℕ}
    {texts : List String} (h : Standing σ₀ σ length n k texts)
    (hnodup : (SummaryStrategy.ids σ.records).Nodup) :
    σ.recordsAfterAnchor.length = length - 2 * (period σ₀.windowSize * k) := by
  rw [SummaryStrategy.recordsAfterAnchor_eq_drop h.anchored hnodup, List.length_drop, h.length]

/-- After an answer the window is full exactly in the last turn of a round. -/
theorem Standing.full_iff {σ₀ σ : SummaryStrategy} {n k : ℕ} {texts : List String}
    (h : Standing σ₀ σ (2 * n + 2) n k texts) (hnodup : (SummaryStrategy.ids σ.records).Nodup) :
    σ.windowSize ≤ σ.recordsAfterAnchor.length ↔
      n + 1 = period σ₀.windowSize * k + period σ₀.windowSize := by
  have hlt := h.lt
  have hle := h.le
  have hperiod : 2 * period σ₀.windowSize = σ₀.windowSize ∨
      2 * period σ₀.windowSize = σ₀.windowSize + 1 := by
    rw [period]
    omega
  rw [h.length_recordsAfterAnchor hnodup, h.windowSize]
  constructor
  · intro hfull
    omega
  · intro hlast
    omega

/-- In any other turn of the round only the count goes on. -/
theorem Standing.advance {σ₀ σ : SummaryStrategy} {n k : ℕ} {texts : List String}
    (h : Standing σ₀ σ (2 * n + 2) n k texts)
    (hnot : n + 1 ≠ period σ₀.windowSize * k + period σ₀.windowSize) :
    Standing σ₀ σ (2 * (n + 1)) (n + 1) k texts :=
  ⟨h.windowSize, h.length, h.anchored, h.anchor, h.le.trans (Nat.le_succ n),
    lt_of_le_of_ne h.lt hnot, h.rounds, h.start, h.text⟩

theorem Standing.not_dvd {σ₀ σ : SummaryStrategy} {n k : ℕ} {texts : List String}
    (h : Standing σ₀ σ (2 * n + 2) n k texts)
    (hnot : n + 1 ≠ period σ₀.windowSize * k + period σ₀.windowSize) :
    ¬ period σ₀.windowSize ∣ n + 1 :=
  Nat.not_dvd_of_lt_of_lt_mul_succ (Nat.lt_succ_of_le h.le)
    (Nat.mul_succ _ _ ▸ lt_of_le_of_ne h.lt hnot)

theorem ids_of_summary {s : Session} {σ : SummaryStrategy}
    (hσ : s.messageContextStrategy = .summary σ) : s.ids = SummaryStrategy.ids σ.records := by
  rw [Session.ids, messages, hσ]
  rfl

/-- The answer of a turn is recorded. -/
theorem Standing.answer {σ₀ σ : SummaryStrategy} {s : Session} {n k : ℕ} {texts : List String}
    (h : Standing σ₀ σ (2 * n + 1) n k texts) (hσ : s.messageContextStrategy = .summary σ)
    (text : String) {uuid4 : UUID}
    (hu : uuid4 ∉ σ₀.summary.anchorId.toList ++ s.ids) :
    ∃ σ', (s.answer text uuid4).messageContextStrategy = .summary σ' ∧
      Standing σ₀ σ' (2 * n + 2) n k texts := by
  rw [ids_of_summary hσ] at hu
  refine ⟨{ σ with toStrategyBase := σ.toStrategyBase.addModelResponse text uuid4 }, ?_,
    h.append rfl hu⟩
  rw [Session.answer, hσ]
  rfl

/-! ## Turns keep to the schedule -/

section

variable [UnicodeData]

/-- An identifier a step draws is new. -/
def Fresh (σ₀ : SummaryStrategy) (c : Session × Option Phase) (i : Input) : Prop :=
  c.1.ids.Nodup ∧ ∀ d ∈ i.draws, d.2 ∉ σ₀.summary.anchorId.toList ++ c.1.ids

/-- A step belongs to a turn that completes. -/
def Completing (i : Input) (o : List Obs) : Prop :=
  (∀ strategy, i ≠ .setStrategy strategy) ∧ ∀ ob ∈ o, ob.aborts = false

theorem Cadence.step {σ₀ : SummaryStrategy} {c c' : Session × Option Phase} {i : Input}
    {o o' : List Obs} (hC : Cadence σ₀ c o) (h : Step c i c' o') (hfresh : Fresh σ₀ c i)
    (hcompleting : Completing i o') (hnodup' : c'.1.ids.Nodup) : Cadence σ₀ c' (o ++ o') := by
  obtain ⟨-, hfresh⟩ := hfresh
  obtain ⟨hset, hends⟩ := hcompleting
  cases h with
  | acompletion s prompt stream uuid4 =>
      rcases hC with ⟨_, _, _, σ, n, k, -, hσ, hstanding, hroles⟩ | ⟨_, _, _, _, _, _, hp, _⟩
      · have hu := hfresh ("user", uuid4) (List.mem_singleton_self _)
        rw [ids_of_summary hσ] at hu
        refine .asking _ _ _ { σ with toStrategyBase := σ.toStrategyBase.addUserQuery prompt uuid4 }
          n k trivial ?_ ?_ ?_
        · simp only [beginAcompletion, hσ]
          rfl
        · rw [summaryTexts_append]
          exact hstanding.append rfl hu
        · rw [calledRoles_append, hroles]
          rfl
      · exact hp.elim
  | setStrategyFails s strategy e h => exact absurd rfl (hset strategy)
  | setStrategy s s' strategy h => exact absurd rfl (hset strategy)
  | mainText s text stop t | mainDone s text stop event | chunkNext s text stop =>
      rcases hC with ⟨_, _, _, _, _, _, hp, _⟩ | ⟨_, _, _, σ, n, k, -, hσ, hstanding, hroles⟩
      · rcases hp with hp | hp <;> cases hp
      · refine .asking _ _ _ σ n k trivial hσ ?_ ?_
        · rw [summaryTexts_append]
          exact hstanding
        · rw [calledRoles_append, hroles]
          exact List.append_nil _
  | mainEndsFails s text stop uuid4 elapsedS e h =>
      exact absurd (hends _ (List.mem_singleton_self _)) (by simp [Obs.aborts])
  | mainEnds s text stop uuid4 elapsedS h =>
      rcases hC with ⟨_, _, _, _, _, _, hp, _⟩ | ⟨_, _, _, σ, n, k, -, hσ, hstanding, hroles⟩
      · rcases hp with hp | hp <;> cases hp
      obtain ⟨σ', hσ', hnext⟩ := hstanding.answer hσ text (hfresh _ (List.mem_singleton_self _))
      rw [hσ'] at h
      have hnot : n + 1 ≠ period σ₀.windowSize * k + period σ₀.windowSize :=
        mt (hnext.full_iff (ids_of_summary hσ' ▸ hnodup')).mpr
          (not_le.mpr (SummaryStrategy.lt_windowSize_of_skip h))
      refine .settled _ _ _ σ' (n + 1) k (Or.inr rfl) hσ' ?_ ?_
      · rw [summaryTexts_append]
        exact hnext.advance hnot
      · rw [calledRoles_append, hroles, expectedRoles_succ, if_neg (hnext.not_dvd hnot)]
        exact List.append_nil _
  | mainEndsSummary s text stop uuid4 elapsedS request h =>
      rcases hC with ⟨_, _, _, _, _, _, hp, _⟩ | ⟨_, _, _, σ, n, k, -, hσ, hstanding, hroles⟩
      · rcases hp with hp | hp <;> cases hp
      obtain ⟨σ', hσ', hnext⟩ := hstanding.answer hσ text (hfresh _ (List.mem_singleton_self _))
      rw [hσ'] at h
      refine .summarising _ _ _ _ σ' n k (summaryTexts o) hσ' hnext ?_ ?_ ?_
      · rw [summaryTexts_append]
        rfl
      · exact (hnext.full_iff (ids_of_summary hσ' ▸ hnodup')).mp
          (SummaryStrategy.windowSize_le_of_call h)
      · rw [calledRoles_append, hroles, List.append_assoc]
        rfl
  | summaryEvent s stop text e =>
      rcases hC with ⟨_, _, _, _, _, _, hp, _⟩ | ⟨_, _, _, _, _, _, hp, _⟩ |
        ⟨_, _, _, _, σ, n, k, texts, hσ, hstanding, htexts, hlast, hroles⟩
      · rcases hp with hp | hp <;> cases hp
      · exact hp.elim
      · refine .summarising _ _ _ _ σ n k texts hσ hstanding ?_ hlast ?_
        · rw [summaryTexts_append, htexts]
          simp [summaryTextsStep]
        · rw [calledRoles_append, hroles]
          exact List.append_nil _
  | summaryEndsFails s stop text elapsedS e h =>
      exact absurd (hends _ (List.mem_singleton_self _)) (by simp [Obs.aborts])
  | summaryEnds s stop text elapsedS strategy h =>
      rcases hC with ⟨_, _, _, _, _, _, hp, _⟩ | ⟨_, _, _, _, _, _, hp, _⟩ |
        ⟨_, _, _, _, σ, n, k, texts, hσ, hstanding, htexts, hlast, hroles⟩
      · rcases hp with hp | hp <;> cases hp
      · exact hp.elim
      rw [hσ] at h
      obtain ⟨σ', hend, rfl⟩ : ∃ σ', σ.updateContextEnd text = .ok σ' ∧ .summary σ' = strategy := by
        rw [MessageContextStrategy.updateContextEnd] at h
        cases hend : σ.updateContextEnd text with
        | error e => rw [hend] at h; cases h
        | ok σ' => rw [hend] at h; cases h; exact ⟨σ', rfl, rfl⟩
      refine .settled _ _ _ σ' (n + 1) (k + 1) (Or.inr rfl) rfl ?_ ?_
      · rw [summaryTexts_append, htexts]
        exact hstanding.summarise hend hlast
      · have hdvd : period σ₀.windowSize ∣ n + 1 := ⟨k + 1, by rw [hlast, Nat.mul_succ]⟩
        rw [calledRoles_append, hroles, expectedRoles_succ, if_pos hdvd]
        exact List.append_nil _
  | ends s p i ob h =>
      cases h with
      | returned =>
          rcases hC with ⟨_, _, _, σ, n, k, -, hσ, hstanding, hroles⟩ | ⟨_, _, _, _, _, _, hp, _⟩
          · refine .settled _ _ _ σ n k (Or.inl rfl) hσ ?_ ?_
            · rw [summaryTexts_append]
              exact hstanding
            · rw [calledRoles_append, hroles]
              exact List.append_nil _
          · exact hp.elim
      | _ => exact absurd (hends _ (List.mem_singleton_self _)) (by simp [Obs.aborts])

/-- A run of completed turns: no strategy is installed, nothing raises, and no
generator is closed. -/
structure Completed (inputs : List Input) (o : List Obs) : Prop where
  set : ∀ strategy, .setStrategy strategy ∉ inputs
  ends : ∀ ob ∈ o, ob.aborts = false

omit [UnicodeData] in
/-- The last step of a run of completed turns belongs to one that completes, and those before
it are completed. -/
theorem Completed.of_concat {inputs : List Input} {i : Input} {o o' : List Obs}
    (h : Completed (inputs ++ [i]) (o ++ o')) : Completed inputs o ∧ Completing i o' := by
  refine ⟨⟨fun strategy hmem ↦ h.set strategy (List.mem_append_left _ hmem),
    fun ob hmem ↦ h.ends ob (List.mem_append_left _ hmem)⟩, ?_, ?_⟩
  · rintro strategy rfl
    exact h.set strategy (List.mem_append_right _ (List.mem_singleton_self _))
  · exact fun ob hmem ↦ h.ends ob (List.mem_append_right _ hmem)

/-- Completed turns keep to the schedule. -/
theorem cadence_of_run {s : Session} {σ₀ : SummaryStrategy} {c : Session × Option Phase}
    {inputs : List Input} {o : List Obs} (hσ : s.messageContextStrategy = .summary σ₀)
    (hrecords : σ₀.records = [])
    (hfresh : (σ₀.summary.anchorId.toList ++ drawn inputs).Nodup) (hcompleted : Completed inputs o)
    (h : machine.run (s, none) inputs = some (c, o)) : Cadence σ₀ c o := by
  have hids : s.ids = [] := by
    rw [ids, messages, hσ]
    exact congrArg (List.map _) hrecords
  refine (Mealy.run_induction (P := fun inputs c o ↦ c.1.ids = drawn inputs ∧
    ((σ₀.summary.anchorId.toList ++ drawn inputs).Nodup → Completed inputs o → Cadence σ₀ c o))
    ⟨hids, fun _ _ ↦ ?_⟩ ?_ h).2 hfresh hcompleted
  · refine .settled s none [] σ₀ 0 0 (Or.inl rfl) hσ ?_ rfl
    refine ⟨rfl, congrArg List.length hrecords, .start ?_, ?_, Nat.le_refl _, ?_, rfl,
      fun _ ↦ rfl, ?_⟩
    · rw [hrecords]
      intro r hr
      exact absurd hr List.not_mem_nil
    · intro a ha
      exact List.mem_append_left _ (Option.mem_toList.mpr ha)
    · rw [Nat.mul_zero, Nat.zero_add]
      exact period_pos σ₀
    · rintro t ⟨⟩
  · rintro inputs c o i c' o' ⟨hids, ih⟩ hs
    have hstep := Step.of_step hs
    have hids' : c'.1.ids = drawn (inputs ++ [i]) := by
      rw [hstep.ids, hids, drawn_concat]
    refine ⟨hids', fun hnodup hcompleted ↦ ?_⟩
    have hnodup' := hnodup
    rw [drawn_concat, ← List.append_assoc] at hnodup
    obtain ⟨hbefore, -, hdisjoint⟩ := List.nodup_append.mp hnodup
    obtain ⟨hcompleted, hcompleting⟩ := hcompleted.of_concat
    refine (ih hbefore hcompleted).step hstep ⟨?_, ?_⟩ hcompleting ?_
    · rw [hids]
      exact (List.nodup_append.mp hbefore).2.1
    · intro d hd hmem
      rw [hids] at hmem
      exact hdisjoint _ hmem _ (List.mem_map_of_mem hd) rfl
    · rw [hids']
      exact (List.nodup_append.mp hnodup').2.1

end

/-! ## The closed form -/

/-- What stands in front of the records before the first summary: nothing, unless
the strategy was given an anchor and a text to start with. -/
def initialLead (σ₀ : SummaryStrategy) : List Message :=
  if σ₀.summary.anchorId.isSome then SummaryStrategy.lead σ₀.summary.text else []

/-- What stands in front of them after `k` summaries: the `k`-th one. -/
def leadAfter (σ₀ : SummaryStrategy) (texts : List String) (k : ℕ) : List Message :=
  if k = 0 then initialLead σ₀ else ((texts[k - 1]?).map (Message.of "user")).toList

/-- The context is the last summary and the records since. -/
theorem Standing.getContext_eq {σ₀ σ : SummaryStrategy} {length n k : ℕ} {texts : List String}
    (h : Standing σ₀ σ length n k texts) (hnodup : (SummaryStrategy.ids σ.records).Nodup)
    (htexts : ∀ t ∈ texts, t ≠ "") :
    σ.getContext = leadAfter σ₀ texts k ++
      (σ.records.drop (2 * (period σ₀.windowSize * k))).map (·.message) := by
  have hdrop := SummaryStrategy.recordsAfterAnchor_eq_drop h.anchored hnodup
  rw [SummaryStrategy.getContext_eq, leadAfter]
  by_cases hk : k = 0
  · have hsummary := h.start (List.length_eq_zero_iff.mp (h.rounds.trans hk))
    rw [if_pos hk, initialLead, ← hsummary]
    cases ha : σ.summary.anchorId with
    | none => rw [hk]; rfl
    | some a => rw [← hdrop]; rfl
  · obtain ⟨t, ht⟩ : ∃ t, texts.getLast? = some t := by
      refine ⟨_, List.getLast?_eq_some_getLast fun hnil ↦ hk ?_⟩
      rw [← h.rounds, hnil]
      rfl
    obtain ⟨htext, hanchor⟩ := h.text t ht
    obtain ⟨a, ha⟩ := Option.isSome_iff_exists.mp hanchor
    have hget : texts[k - 1]? = some t := by
      rw [← h.rounds, ← List.getLast?_eq_getElem?, ht]
    rw [if_neg hk, hget, ha, ← hdrop, SummaryStrategy.lead, htext,
      if_pos (htexts t (List.mem_of_getLast? ht))]
    rfl

theorem length_leadAfter_le (σ₀ : SummaryStrategy) (texts : List String) (k : ℕ) :
    (leadAfter σ₀ texts k).length ≤ 1 := by
  rw [leadAfter]
  split
  · rw [initialLead, SummaryStrategy.lead]
    split
    · split
      · exact Nat.le_refl 1
      · exact Nat.zero_le 1
    · exact Nat.zero_le 1
  · cases texts[k - 1]? with
    | none => exact Nat.zero_le 1
    | some text => exact Nat.le_refl 1

theorem Standing.div_eq {σ₀ σ : SummaryStrategy} {length n k : ℕ} {texts : List String}
    (h : Standing σ₀ σ length n k texts) : n / period σ₀.windowSize = k := by
  refine Nat.div_eq_of_lt_le ?_ ?_
  · rw [Nat.mul_comm]
    exact h.le
  · rw [Nat.succ_mul, Nat.mul_comm]
    exact h.lt

/-- The turn that comes next sends the last summary and the records since. -/
theorem Standing.next {σ₀ σ : SummaryStrategy} {s : Session} {n k : ℕ} {texts : List String}
    (h : Standing σ₀ σ (2 * n) n k texts) (hσ : s.messageContextStrategy = .summary σ)
    (prompt : String) (stream : Bool) {uuid4 : UUID}
    (hnodup : (σ₀.summary.anchorId.toList ++ SummaryStrategy.ids σ.records ++ [uuid4]).Nodup)
    (htexts : ∀ t ∈ texts, t ≠ "") :
    let turn := s.beginAcompletion prompt stream uuid4
    let since := turn.1.messages.drop (2 * (period σ₀.windowSize * k))
    turn.2.fullMessages = leadAfter σ₀ texts k ++ since.map (·.message) ∧
      since.length = 2 * (n % period σ₀.windowSize) + 1 := by
  obtain ⟨σ', hσ'⟩ : ∃ σ' : SummaryStrategy,
      σ' = { σ with toStrategyBase := σ.toStrategyBase.addUserQuery prompt uuid4 } := ⟨_, rfl⟩
  have hstrategy : (s.beginAcompletion prompt stream uuid4).1.messageContextStrategy =
      .summary σ' := by
    rw [hσ', beginAcompletion]
    simp only [hσ]
    rfl
  have hnext : Standing σ₀ σ' (2 * n + 1) n k texts := by
    refine h.append hσ' fun hmem ↦ ?_
    exact (List.nodup_append.mp hnodup).2.2 _ hmem _ (List.mem_singleton_self _) rfl
  have hids : SummaryStrategy.ids σ'.records = SummaryStrategy.ids σ.records ++ [uuid4] := by
    rw [hσ']
    exact SummaryStrategy.ids_append _ _
  have hnodup' : (SummaryStrategy.ids σ'.records).Nodup := by
    rw [hids]
    rw [List.append_assoc] at hnodup
    exact (List.nodup_append.mp hnodup).2.1
  have hmessages : (s.beginAcompletion prompt stream uuid4).1.messages = σ'.records := by
    rw [messages, hstrategy]
    rfl
  constructor
  · rw [hmessages, ← hnext.getContext_eq hnodup' htexts]
    exact congrArg MessageContextStrategy.getContext hstrategy
  · have hmod := Nat.mod_add_div n (period σ₀.windowSize)
    rw [h.div_eq] at hmod
    rw [hmessages, List.length_drop, hnext.length]
    omega

/-- Metadata with a summary in it. -/
def staleMetadata : OrderedDict String Json :=
  ((((∅ : OrderedDict String Json).set "window_size" (.int 2)).set "summary_text"
    (.str "old")).set "summary_anchor_id" (.str "00000000-0000-0000-0000-000000000009")).set
      "summarization_prompt" (.str "Summarise %s")

/-- A session whose metadata has an anchor and a text sends the text from the first
turn on. -/
theorem stale_summary_sent :
    ∃ s s' request, create (.port "main") "s" .sample none "summary" staleMetadata
        (.port "summariser") .sample none ⟨0⟩ ⟨0⟩ = .ok s ∧
      (@machine .asciiOnly).run (s, none) [.acompletion "hi" true (.ofNat 1)] =
        some ((s', some (.main "" none)), [.called .main request]) ∧
      s'.messages.map (·.message) = [Message.of "user" "hi"] ∧
      request.fullMessages = [Message.of "user" "old", Message.of "user" "hi"] := by
  obtain ⟨s, hs, heval⟩ := Option.map_eq_some_iff.mp
    (show (create (.port "main") "s" .sample none "summary" staleMetadata (.port "summariser")
        .sample none ⟨0⟩ ⟨0⟩).toOption.map (fun s ↦
          ((s.beginAcompletion "hi" true (.ofNat 1)).1.messages.map (·.message),
            (s.beginAcompletion "hi" true (.ofNat 1)).2.fullMessages)) =
        some ([Message.of "user" "hi"], [Message.of "user" "old", Message.of "user" "hi"]) by
      decide)
  obtain ⟨hmessages, hrequest⟩ := Prod.mk.inj heval
  refine ⟨s, _, _, ?_, rfl, hmessages, hrequest⟩
  cases hc : create (.port "main") "s" .sample none "summary" staleMetadata (.port "summariser")
      .sample none ⟨0⟩ ⟨0⟩ with
  | error e => rw [hc] at hs; cases hs
  | ok s₁ => rw [hc] at hs; cases hs; rfl

/-- **The cadence.**  In a summary session of completed turns the summarisation LLM
is called at the end of every `p`-th turn and in no other.  The next turn sends
the main LLM the last summary and the records since, `2 * (n % p) + 1` of them:
never more messages than the window and one. -/
theorem cadence [UnicodeData] {llm : LlmPort} {id : String} {completionConfig : CompletionConfig}
    {billing : Option ModelBilling} {strategyType : String}
    {strategyMetadata : OrderedDict String Json} {strategyLlm : LlmPort}
    {strategyCompletionConfig : CompletionConfig} {strategyBilling : Option ModelBilling}
    {now : Datetime} {ref : StatsRef} {s s' : Session} {σ₀ : SummaryStrategy}
    {inputs : List Input} {o : List Obs} {prompt : String} {stream : Bool} {uuid4 : UUID}
    (hs : create llm id completionConfig billing strategyType strategyMetadata strategyLlm
      strategyCompletionConfig strategyBilling now ref = .ok s)
    (hσ : s.messageContextStrategy = .summary σ₀)
    (hfresh : (σ₀.summary.anchorId.toList ++ (drawn inputs ++ [uuid4])).Nodup)
    (hcompleted : Completed inputs o) (htexts : ∀ t ∈ summaryTexts o, t ≠ "")
    (h : machine.run (s, none) inputs = some ((s', none), o)) :
    calledRoles o = expectedRoles (period σ₀.windowSize) (turns o) ∧
      (summaryTexts o).length = turns o / period σ₀.windowSize ∧
      ∃ s'' request, machine.run (s, none) (inputs ++ [.acompletion prompt stream uuid4]) =
          some ((s'', some (.main "" none)), o ++ [.called .main request]) ∧
        request.fullMessages =
          leadAfter σ₀ (summaryTexts o) (turns o / period σ₀.windowSize) ++
            (s''.messages.drop (2 * (period σ₀.windowSize *
              (turns o / period σ₀.windowSize)))).map (·.message) ∧
        (s''.messages.drop (2 * (period σ₀.windowSize *
          (turns o / period σ₀.windowSize)))).length =
            2 * (turns o % period σ₀.windowSize) + 1 ∧
        request.fullMessages.length ≤ 2 * period σ₀.windowSize ∧
        request.fullMessages.length ≤ σ₀.windowSize + 1 := by
  have hempty : s.messages = [] := messages_create hs
  have hrecords : σ₀.records = [] := by
    rw [messages, hσ] at hempty
    exact hempty
  rw [← List.append_assoc] at hfresh
  have hC := cadence_of_run hσ hrecords (List.nodup_append.mp hfresh).1 hcompleted h
  have hids : s'.ids = drawn inputs := by
    rw [ids_of_run h, ids, hempty]
    rfl
  rcases hC with ⟨_, _, _, σ, n, k, -, hσ', hstanding, hroles⟩ | ⟨_, _, _, _, _, _, hp, _⟩
  swap
  · exact hp.elim
  obtain rfl : n = turns o := by
    rw [← count_calledRoles, hroles, count_expectedRoles]
  obtain rfl := hstanding.div_eq
  rw [← hids, ids_of_summary hσ'] at hfresh
  obtain ⟨hfull, hsince⟩ := hstanding.next hσ' prompt stream hfresh htexts
  have hcount : (s'.beginAcompletion prompt stream uuid4).2.fullMessages.length ≤
      2 * period σ₀.windowSize := by
    have hlead := length_leadAfter_le σ₀ (summaryTexts o) (turns o / period σ₀.windowSize)
    have hlt := Nat.mod_lt (turns o) (period_pos σ₀)
    rw [hfull, List.length_append, List.length_map, hsince]
    omega
  refine ⟨hroles, hstanding.rounds, (s'.beginAcompletion prompt stream uuid4).1,
    (s'.beginAcompletion prompt stream uuid4).2, ?_, hfull, hsince, hcount, hcount.trans ?_⟩
  · exact Mealy.run_concat h rfl
  · rw [period]
    omega

/-- A summary strategy with a window of three, as `Session.create` makes it. -/
def windowOfThree : SummaryStrategy :=
  .sampleOf (.decorated (.port "summariser") ⟨0⟩ none) 2

/-- Two turns; the second ends a round. -/
def twoTurns : List Input :=
  [.acompletion "a" true (.ofNat 1), .event (.textChunk "b"), .next,
    .mainEnds (.ofNat 2) 0, .next,
    .acompletion "c" true (.ofNat 3), .event (.textChunk "d"), .next,
    .mainEnds (.ofNat 4) 0, .event (.textChunk "S"), .summaryEnds 0, .next]

/-- The third turn sends the summary and its own prompt. -/
theorem cadence_twoTurns :
    ∃ s s' s'' o request, create (.port "main") "s" .sample none "summary"
        (((∅ : OrderedDict String Json).set "window_size" (.int 3)).set "summarization_prompt"
          (.str "Summarise %s")) (.port "summariser") .sample none ⟨0⟩ ⟨0⟩ = .ok s ∧
      (@machine .asciiOnly).run (s, none) twoTurns = some ((s', none), o) ∧
      calledRoles o = [.main, .main, .summary] ∧
      (@machine .asciiOnly).run (s, none) (twoTurns ++ [.acompletion "e" true (.ofNat 5)]) =
        some ((s'', some (.main "" none)), o ++ [.called .main request]) ∧
      request.fullMessages =
        Message.of "user" "S" :: (s''.messages.drop 4).map (·.message) := by
  obtain ⟨s, hs⟩ : ∃ s, s = init (.port "main") "s" ⟨0⟩ .sample none ⟨0⟩ (.init none)
    (.summary windowOfThree) := ⟨_, rfl⟩
  obtain ⟨⟨⟨s', p⟩, o⟩, hrun, heval⟩ := Option.map_eq_some_iff.mp
    (show ((@machine .asciiOnly).run (init (.port "main") "s" ⟨0⟩ .sample none ⟨0⟩ (.init none)
        (.summary windowOfThree), none) twoTurns).map (fun r ↦
          (r.1.2, turns r.2, summaryTexts r.2, r.2.all fun ob ↦ !ob.aborts)) =
        some (none, 2, ["S"], true) by decide)
  rw [← hs] at hrun
  obtain ⟨rfl, hturns, htexts, hends⟩ : p = none ∧ turns o = 2 ∧ summaryTexts o = ["S"] ∧
    (o.all fun ob ↦ !ob.aborts) = true := by simpa using heval
  have hcreate : create (.port "main") "s" .sample none "summary"
      (((∅ : OrderedDict String Json).set "window_size" (.int 3)).set "summarization_prompt"
        (.str "Summarise %s")) (.port "summariser") .sample none ⟨0⟩ ⟨0⟩ = .ok s := by
    rw [hs]
    rfl
  obtain ⟨hroles, -, s'', request, hrun', hrequest, -⟩ := @cadence .asciiOnly (.port "main") "s"
    .sample none "summary" _ (.port "summariser") .sample none ⟨0⟩ ⟨0⟩ s s' windowOfThree twoTurns o
    "e" true (.ofNat 5) hcreate (by rw [hs]; rfl) (by decide)
    ⟨fun strategy hmem ↦ by simp [twoTurns] at hmem, fun ob hmem ↦ by
      simpa using List.all_eq_true.mp hends ob hmem⟩
    (by rw [htexts]; decide) hrun
  rw [hturns] at hroles hrequest
  rw [htexts] at hrequest
  exact ⟨s, s', s'', o, request, hcreate, hrun, hroles, hrun', hrequest⟩

end Session
