import ChatServer.Conversation.Anchor
import ChatServer.Lib.Cursor

/-!
# The rolling summary

A `SummaryStrategy` used on its own: records are appended, the context is read,
the strategy is rebuilt from its own metadata and history, and now and then
`update_context` runs, calls its LLM and awaits the answer event by event.  An
operation that calls the LLM spans several steps of `SummaryStrategy.machine`;
no other operation starts in between.

Seen from its records the strategy is a cursor in an append-only log
(`refines_cursor`): a summarisation that succeeds drains what is pending, and
everything else pushes or does nothing.  From the cursor comes which records
were summarised; the texts are followed separately (`Chained`).
-/

namespace SummaryStrategy

/-! ## The operations -/

/-- A call of the summarisation LLM: what it was called with, and the text so
far. -/
structure Summarisation where
  /-- The records the call is about. -/
  records : List MessageRecord
  /-- `input_for_summarization`. -/
  input : List Message
  request : LlmRequest
  /-- `assistant_text`. -/
  text : String

/-- An operation on a strategy, or the reply of the LLM one of them awaits. -/
inductive Op where
  | addUserQuery (content : String) (uuid4 : UUID)
  | addModelResponse (content : String) (uuid4 : UUID)
  | getContext
  /-- `MessageContextStrategyFactory.build` from the strategy's own metadata and
  history. -/
  | rebuild
  | updateContext
  | event (e : CompletionEvent)
  | ends
  | raises (e : PyExc)

/-- What can be observed of a strategy. -/
inductive OpObs where
  | context (messages : List Message)
  | called (request : LlmRequest)
  /-- A summarisation succeeds. -/
  | summarised (call : Summarisation)
  /-- `update_context` returns. -/
  | updated
  | raised (e : PyExc)

/-- The identifier an operation draws. -/
def Op.draws : Op → List UUID
  | addUserQuery _ uuid4 => [uuid4]
  | addModelResponse _ uuid4 => [uuid4]
  | _ => []

/-- Whether an operation is a reply of the LLM. -/
def Op.isReply : Op → Bool
  | event _ => true
  | ends => true
  | raises _ => true
  | _ => false

/-- The calls of a trace that succeeded. -/
def calls (o : List OpObs) : List Summarisation :=
  o.filterMap fun
    | .summarised call => some call
    | _ => none

@[simp] theorem calls_append (o o' : List OpObs) : calls (o ++ o') = calls o ++ calls o' :=
  List.filterMap_append

/-- Rebuilding. -/
def onRebuild (s : SummaryStrategy) : (SummaryStrategy × Option Summarisation) × List OpObs :=
  match MessageContextStrategyFactory.build "summary" s.getMetadata s.records s.llm
      s.completionConfig with
  | .ok (.summary s') => ((s', none), [])
  | .ok _ => ((s, none), [])
  | .error e => ((s, none), [.raised e])

/-- Rebuilding restores the strategy. -/
theorem onRebuild_eq (s : SummaryStrategy) : s.onRebuild = ((s, none), []) := by
  have hbuild := MessageContextStrategyFactory.build_getMetadata (.summary s) s.llm
    s.completionConfig s.records
  rw [onRebuild, show MessageContextStrategyFactory.build "summary" s.getMetadata s.records s.llm
    s.completionConfig = _ from hbuild]
  rfl

section

variable [UnicodeData]

/-- `update_context` up to its LLM call. -/
def onUpdateContext (s : SummaryStrategy) :
    (SummaryStrategy × Option Summarisation) × List OpObs :=
  match s.updateContextBegin with
  | .error e => ((s, none), [.raised e])
  | .ok none => ((s, none), [.updated])
  | .ok (some request) =>
      ((s, some ⟨s.recordsAfterAnchor, s.inputForSummarization, request, ""⟩), [.called request])

/-- `update_context` after its LLM call. -/
def onEnds (s : SummaryStrategy) (call : Summarisation) :
    (SummaryStrategy × Option Summarisation) × List OpObs :=
  match s.updateContextEnd call.text with
  | .error e => ((s, none), [.raised e])
  | .ok s' => ((s', none), [.summarised call, .updated])

/-- One step. -/
def step : SummaryStrategy × Option Summarisation → Op →
    Option ((SummaryStrategy × Option Summarisation) × List OpObs)
  | (s, none), .addUserQuery content uuid4 =>
      some (({ s with toStrategyBase := s.toStrategyBase.addUserQuery content uuid4 }, none), [])
  | (s, none), .addModelResponse content uuid4 =>
      some (({ s with toStrategyBase := s.toStrategyBase.addModelResponse content uuid4 }, none),
        [])
  | (s, none), .getContext => some ((s, none), [.context s.getContext])
  | (s, none), .rebuild => some s.onRebuild
  | (s, none), .updateContext => some s.onUpdateContext
  | (s, some call), .event e => some ((s, some { call with text := call.text ++ e.text }), [])
  | (s, some call), .ends => some (s.onEnds call)
  | (s, some _), .raises e => some ((s, none), [.raised e])
  | _, _ => none

/-- The machine of a strategy. -/
def machine : Mealy (SummaryStrategy × Option Summarisation) Op OpObs := ⟨step⟩

/-- The transitions of a strategy. -/
inductive Step : SummaryStrategy × Option Summarisation → Op →
    SummaryStrategy × Option Summarisation → List OpObs → Prop where
  | append (s s' : SummaryStrategy) (op : Op) (r : MessageRecord) (hop : op.draws = [r.id])
      (hs : s' = { s with records := s.records ++ [r] }) : Step (s, none) op (s', none) []
  | getContext (s : SummaryStrategy) :
      Step (s, none) .getContext (s, none) [.context s.getContext]
  | rebuild (s : SummaryStrategy) : Step (s, none) .rebuild (s, none) []
  | updateFails (s : SummaryStrategy) (e : PyExc) (h : s.updateContextBegin = .error e) :
      Step (s, none) .updateContext (s, none) [.raised e]
  | updateSkips (s : SummaryStrategy) (h : s.updateContextBegin = .ok none) :
      Step (s, none) .updateContext (s, none) [.updated]
  | updateCalls (s : SummaryStrategy) (request : LlmRequest)
      (h : s.updateContextBegin = .ok (some request)) :
      Step (s, none) .updateContext
        (s, some ⟨s.recordsAfterAnchor, s.inputForSummarization, request, ""⟩) [.called request]
  | event (s : SummaryStrategy) (call : Summarisation) (e : CompletionEvent) :
      Step (s, some call) (.event e) (s, some { call with text := call.text ++ e.text }) []
  | endsFails (s : SummaryStrategy) (call : Summarisation) (e : PyExc)
      (h : s.updateContextEnd call.text = .error e) :
      Step (s, some call) .ends (s, none) [.raised e]
  | ends (s s' : SummaryStrategy) (call : Summarisation)
      (h : s.updateContextEnd call.text = .ok s') :
      Step (s, some call) .ends (s', none) [.summarised call, .updated]
  | raises (s : SummaryStrategy) (call : Summarisation) (e : PyExc) :
      Step (s, some call) (.raises e) (s, none) [.raised e]

theorem Step.of_step {c c' : SummaryStrategy × Option Summarisation} {op : Op}
    {o : List OpObs} (h : step c op = some (c', o)) : Step c op c' o := by
  fun_cases step c op
  case case1 s content uuid4 => cases h; exact .append s _ _ _ rfl rfl
  case case2 s content uuid4 => cases h; exact .append s _ _ _ rfl rfl
  case case3 s => cases h; exact .getContext s
  case case4 s =>
      rw [step, onRebuild_eq] at h
      cases h
      exact .rebuild s
  case case5 s =>
      simp only [step, onUpdateContext, Option.some.injEq] at h
      split at h
      · rename_i e he
        cases h
        exact .updateFails s e he
      · rename_i he
        cases h
        exact .updateSkips s he
      · rename_i request he
        cases h
        exact .updateCalls s request he
  case case6 s call e => cases h; exact .event s call e
  case case7 s call =>
      simp only [step, onEnds, Option.some.injEq] at h
      split at h
      · rename_i e he
        cases h
        exact .endsFails s call e he
      · rename_i s' he
        cases h
        exact .ends s s' call he
  case case8 s call e => cases h; exact .raises s call e
  case case9 => simp_all [step]

/-! ## Identifiers -/

/-- No identifier an operation draws is in use. -/
def Fresh (c : SummaryStrategy × Option Summarisation) (op : Op) : Prop :=
  ∀ u ∈ op.draws, u ∉ ids c.1.records

theorem Step.ids {c c' : SummaryStrategy × Option Summarisation} {op : Op} {o : List OpObs}
    (h : Step c op c' o) :
    SummaryStrategy.ids c'.1.records = SummaryStrategy.ids c.1.records ++ op.draws := by
  cases h with
  | append s s' op r hop hs =>
      subst hs
      rw [ids_append, hop]
      rfl
  | ends s s' call h =>
      obtain ⟨init, last, -, rfl⟩ := updateContextEnd_ok h
      exact (List.append_nil _).symm
  | _ => exact (List.append_nil _).symm

/-- The records have the identifiers that were drawn. -/
theorem ids_of_run {s₀ : SummaryStrategy} {c : SummaryStrategy × Option Summarisation}
    {ops : List Op} {o : List OpObs} (h : machine.run (s₀, none) ops = some (c, o)) :
    ids c.1.records = ids s₀.records ++ ops.flatMap Op.draws := by
  refine Mealy.run_induction (P := fun ops c _ ↦
    ids c.1.records = ids s₀.records ++ ops.flatMap Op.draws) (List.append_nil _).symm ?_ h
  intro ops c _ op c' _ ih hs
  rw [(Step.of_step hs).ids, ih, List.flatMap_append, List.append_assoc, List.flatMap_singleton]

/-- Distinct draws are fresh at every step. -/
theorem fresh_of_nodup {s₀ : SummaryStrategy} {ops : List Op}
    (hnodup : (ids s₀.records ++ ops.flatMap Op.draws).Nodup) {js : List Op} {op : Op}
    {c : SummaryStrategy × Option Summarisation} {o : List OpObs} (hp : js ++ [op] <+: ops)
    (h : machine.run (s₀, none) js = some (c, o)) : Fresh c op := by
  obtain ⟨rest, rfl⟩ := hp
  intro u hu hmem
  rw [ids_of_run h] at hmem
  rw [List.flatMap_append, List.flatMap_append, List.flatMap_singleton, ← List.append_assoc,
    ← List.append_assoc] at hnodup
  exact List.disjoint_of_nodup_append (List.nodup_append.mp hnodup).1 hmem hu

end

/-! ## The cursor behind the anchor -/

/-- A strategy and the cursor of its records: the anchor stands at the position,
and a call under way is about what is pending. -/
structure Tracks (c : SummaryStrategy × Option Summarisation) (cur : Cursor MessageRecord) :
    Prop where
  log : cur.log = c.1.records
  pos : c.1.AnchoredAt cur.pos
  nodup : (SummaryStrategy.ids c.1.records).Nodup
  anchor : ∀ a ∈ c.1.summary.anchorId, a ∈ SummaryStrategy.ids c.1.records
  call : ∀ call ∈ c.2, call.records = cur.pending

/-- What the code takes for the records after the anchor is what is pending. -/
theorem Tracks.recordsAfterAnchor {c : SummaryStrategy × Option Summarisation}
    {cur : Cursor MessageRecord} (h : Tracks c cur) : c.1.recordsAfterAnchor = cur.pending := by
  rw [recordsAfterAnchor_eq_drop h.pos h.nodup, Cursor.pending, h.log]

/-- The records a successful call was about, if this is one. -/
def segment : OpObs → List (List MessageRecord)
  | .summarised call => [call.records]
  | _ => []

theorem flatMap_segment (o : List OpObs) : o.flatMap segment = (calls o).map (·.records) := by
  induction o with
  | nil => rfl
  | cons ob o ih =>
      rw [List.flatMap_cons, ih]
      cases ob <;> rfl

section

variable [UnicodeData]

/-- Every step of a strategy is a run of its cursor: an append pushes, a
summarisation that succeeds drains, everything else stands still. -/
theorem refines_cursor {c c' : SummaryStrategy × Option Summarisation}
    {cur : Cursor MessageRecord} {op : Op} {o : List OpObs} (hR : Tracks c cur)
    (hfresh : Fresh c op) (h : Step c op c' o) :
    ∃ as cur' segs, (Cursor.machine MessageRecord).run cur as = some (cur', segs) ∧
      o.flatMap segment = segs.flatMap (fun seg ↦ [seg]) ∧ Tracks c' cur' := by
  have hids := h.ids
  cases h with
  | append s s' op r hop hs =>
      have hr : r.id ∉ SummaryStrategy.ids s.records :=
        hfresh r.id (by rw [hop]; exact List.mem_singleton_self _)
      refine ⟨[.push r], cur.push r, [], rfl, rfl, ?_⟩
      subst hs
      constructor
      · exact congrArg (· ++ [r]) hR.log
      · exact hR.pos.append rfl rfl fun ha ↦ hr (hR.anchor r.id ha)
      · rw [hids, hop]
        exact List.nodup_append.mpr ⟨hR.nodup, List.nodup_singleton _, fun a ha b hb hab ↦
          hr (List.mem_singleton.mp hb ▸ hab ▸ ha)⟩
      · intro a ha
        rw [hids]
        exact List.mem_append_left _ (hR.anchor a ha)
      · rintro call ⟨⟩
  | ends s s' call h =>
      refine ⟨[.drain], cur.drain, [cur.pending], rfl, ?_, ?_⟩
      · show [call.records] = [cur.pending]
        rw [hR.call call rfl]
      · obtain ⟨init, last, hrecords, rfl⟩ := updateContextEnd_ok h
        have hpos := AnchoredAt.of_updateContextEnd h
        refine ⟨hR.log, ?_, hR.nodup, ?_, ?_⟩
        · have hlength : cur.drain.pos = s.records.length := congrArg List.length hR.log
          rw [hlength]
          exact hpos
        · rintro a ⟨⟩
          rw [SummaryStrategy.ids, hrecords]
          exact List.mem_map_of_mem (by simp)
        · rintro call ⟨⟩
  | updateCalls s request h =>
      refine ⟨[], cur, [], rfl, rfl, hR.log, hR.pos, hR.nodup, hR.anchor, ?_⟩
      rintro call ⟨⟩
      exact hR.recordsAfterAnchor
  | event s call e =>
      refine ⟨[], cur, [], rfl, rfl, hR.log, hR.pos, hR.nodup, hR.anchor, ?_⟩
      rintro call' ⟨⟩
      exact hR.call call rfl
  | _ =>
      refine ⟨[], cur, [], rfl, rfl, hR.log, hR.pos, hR.nodup, hR.anchor, ?_⟩
      rintro call ⟨⟩

/-- Over a run with fresh identifiers the strategy tracks a cursor that drained
exactly the records of the calls that succeeded. -/
theorem tracks_of_run {s₀ : SummaryStrategy} {c : SummaryStrategy × Option Summarisation}
    {ops : List Op} {o : List OpObs} (hrecords : s₀.records = [])
    (hsummary : s₀.summary = ⟨"", none⟩) (hnodup : (ops.flatMap Op.draws).Nodup)
    (h : machine.run (s₀, none) ops = some (c, o)) :
    ∃ cur, Tracks c cur ∧ ((calls o).map (·.records)).flatten = cur.consumed := by
  have hstart : Tracks (s₀, none) (Cursor.empty : Cursor MessageRecord) := by
    refine ⟨hrecords.symm, .start ?_, ?_, ?_, ?_⟩
    · intro r hr
      rw [hrecords] at hr
      exact absurd hr List.not_mem_nil
    · rw [hrecords]
      exact List.nodup_nil
    · rw [hsummary]
      rintro a ⟨⟩
    · rintro call ⟨⟩
  obtain ⟨as, cur, segs, hrun, hsegs, htracks⟩ := Mealy.run_refines (M := machine)
    (fun c cur op c' o hR hQ hs ↦ refines_cursor hR hQ (.of_step hs)) hstart h
    (fun js op c o hp hr ↦ fresh_of_nodup (by rwa [hrecords]) hp hr)
  refine ⟨cur, htracks, ?_⟩
  rw [flatMap_segment, List.flatMap_singleton'] at hsegs
  rw [hsegs, ← Cursor.run_flatten hrun]
  rfl

end

/-! ## The texts -/

/-- Each call receives the summary before it and then its records, and its answer
is the summary before the next. -/
def Chained : String → List Summarisation → Prop
  | _, [] => True
  | text, call :: calls =>
      call.input = lead text ++ call.records.map (·.message) ∧ Chained call.text calls

/-- The summary after some calls. -/
def textAfter (calls : List Summarisation) : String :=
  (calls.getLast?.map (·.text)).getD ""

theorem chained_concat {text : String} {cs : List Summarisation} {call : Summarisation} :
    Chained text (cs ++ [call]) ↔ Chained text cs ∧
      call.input = lead ((cs.getLast?.map (·.text)).getD text) ++ call.records.map (·.message) := by
  induction cs generalizing text with
  | nil => simp [Chained]
  | cons c cs ih =>
      rw [List.cons_append, Chained, Chained, ih, and_assoc]
      cases cs with
      | nil => rfl
      | cons d ds =>
          obtain ⟨last, hlast⟩ : ∃ last, (d :: ds).getLast? = some last :=
            ⟨_, List.getLast?_eq_some_getLast (List.cons_ne_nil d ds)⟩
          rw [List.getLast?_cons_cons, hlast]
          rfl

section

variable [UnicodeData]

/-- The summary in force is the answer of the last call that succeeded, anchored at
its last record. -/
structure Summarised (c : SummaryStrategy × Option Summarisation) (o : List OpObs) : Prop where
  chained : Chained "" (calls o)
  text : c.1.summary.text = textAfter (calls o)
  call : ∀ call ∈ c.2,
    call.input = lead c.1.summary.text ++ call.records.map (·.message)

theorem Summarised.step {c c' : SummaryStrategy × Option Summarisation} {op : Op}
    {o o' : List OpObs} (hS : Summarised c o) (h : Step c op c' o') :
    Summarised c' (o ++ o') := by
  obtain ⟨hchained, htext, hcall⟩ := hS
  cases h with
  | append s s' op r hop hs =>
      subst hs
      refine ⟨?_, ?_, ?_⟩
      · simpa using hchained
      · simpa using htext
      · rintro call ⟨⟩
  | ends s s' call h =>
      obtain ⟨init, last, -, rfl⟩ := updateContextEnd_ok h
      have hcalls : calls (o ++ [.summarised call, .updated]) = calls o ++ [call] :=
        calls_append _ _
      refine ⟨?_, ?_, ?_⟩
      · rw [hcalls, chained_concat]
        refine ⟨hchained, ?_⟩
        rw [hcall call rfl, show s.summary.text = _ from htext]
        rfl
      · rw [hcalls, textAfter, List.getLast?_concat]
        rfl
      · rintro call ⟨⟩
  | updateCalls s request h =>
      refine ⟨by simpa [calls] using hchained, by simpa [calls] using htext, ?_⟩
      rintro call ⟨⟩
      rfl
  | event s call e =>
      refine ⟨by simpa using hchained, by simpa using htext, ?_⟩
      rintro call' ⟨⟩
      exact hcall call rfl
  | _ =>
      refine ⟨by simpa [calls] using hchained, by simpa [calls] using htext, ?_⟩
      rintro call ⟨⟩

theorem summarised_of_run {s₀ : SummaryStrategy} {c : SummaryStrategy × Option Summarisation}
    {ops : List Op} {o : List OpObs} (hsummary : s₀.summary = ⟨"", none⟩)
    (h : machine.run (s₀, none) ops = some (c, o)) : Summarised c o := by
  refine Mealy.run_induction (P := fun _ c o ↦ Summarised c o) ⟨trivial, ?_, ?_⟩
    (fun _ c o op c' o' hS hs ↦ hS.step (.of_step hs)) h
  · rw [hsummary]
    rfl
  · rintro call ⟨⟩

end

/-! ## One whole update -/

section

variable [UnicodeData]

/-- A whole `update_context` takes `s` to `s'`, with whatever replies it awaited. -/
def Updates (s s' : SummaryStrategy) (o : List OpObs) : Prop :=
  ∃ replies, (∀ op ∈ replies, op.isReply = true) ∧
    machine.run (s, none) (.updateContext :: replies) = some ((s', none), o)

/-- Nothing but an operation moves a strategy on. -/
theorem run_replies_none {s : SummaryStrategy} {c : SummaryStrategy × Option Summarisation}
    {replies : List Op} {o : List OpObs} (hreplies : ∀ op ∈ replies, op.isReply = true)
    (h : machine.run (s, none) replies = some (c, o)) : c = (s, none) ∧ o = [] := by
  cases replies with
  | nil =>
      obtain ⟨rfl, rfl⟩ := Prod.mk.inj (Option.some.inj h)
      exact ⟨rfl, rfl⟩
  | cons op replies =>
      obtain ⟨c₁, o₁, o₂, hs, -, -⟩ := Mealy.exists_of_run_cons h
      have hop := hreplies op List.mem_cons_self
      cases op with
      | event | ends | raises => cases hs
      | _ => cases hop

/-- The replies to a call either end in an exception, which changes nothing, or
store the summary. -/
theorem run_replies {s s' : SummaryStrategy} {call : Summarisation} {replies : List Op}
    {o : List OpObs} (hreplies : ∀ op ∈ replies, op.isReply = true)
    (h : machine.run (s, some call) replies = some ((s', none), o)) :
    (s' = s ∧ ∃ e, o = [.raised e]) ∨
      ∃ call', s.updateContextEnd call'.text = .ok s' ∧ o = [.summarised call', .updated] := by
  induction replies generalizing call o with
  | nil => cases h
  | cons op replies ih =>
      obtain ⟨c₁, o₁, o₂, hs, hr, rfl⟩ := Mealy.exists_of_run_cons h
      have hrest : ∀ op ∈ replies, op.isReply = true :=
        fun op hop ↦ hreplies op (List.mem_cons_of_mem _ hop)
      cases Step.of_step hs with
      | event _ _ e => exact ih hrest hr
      | endsFails _ _ e he =>
          obtain ⟨hc, rfl⟩ := run_replies_none hrest hr
          exact Or.inl ⟨(Prod.mk.inj hc).1, e, rfl⟩
      | ends _ s₁ _ he =>
          obtain ⟨hc, rfl⟩ := run_replies_none hrest hr
          obtain ⟨rfl, -⟩ := Prod.mk.inj hc
          exact Or.inr ⟨call, he, rfl⟩
      | raises _ _ e =>
          obtain ⟨hc, rfl⟩ := run_replies_none hrest hr
          exact Or.inl ⟨(Prod.mk.inj hc).1, e, rfl⟩

/-- How an `update_context` can end. -/
theorem Updates.cases {s s' : SummaryStrategy} {o : List OpObs} (h : Updates s s' o) :
    (s' = s ∧ .updated ∉ o) ∨
      (s' = s ∧ o = [.updated] ∧ s.updateContextBegin = .ok none) ∨
      ((∀ e, .raised e ∉ o) ∧ ∃ text, s.updateContextEnd text = .ok s') := by
  obtain ⟨replies, hreplies, hrun⟩ := h
  obtain ⟨c₁, o₁, o₂, hs, hr, rfl⟩ := Mealy.exists_of_run_cons hrun
  have hstep : Step (s, none) .updateContext c₁ o₁ := .of_step hs
  cases hstep with
  | append _ _ _ r hop => cases hop
  | updateFails _ e he =>
      obtain ⟨hc, rfl⟩ := run_replies_none hreplies hr
      exact Or.inl ⟨(Prod.mk.inj hc).1, by simp⟩
  | updateSkips _ he =>
      obtain ⟨hc, rfl⟩ := run_replies_none hreplies hr
      exact Or.inr (Or.inl ⟨(Prod.mk.inj hc).1, rfl, he⟩)
  | updateCalls _ request he =>
      rcases run_replies hreplies hr with ⟨rfl, e, rfl⟩ | ⟨call, hend, rfl⟩
      · exact Or.inl ⟨rfl, by simp⟩
      · exact Or.inr (Or.inr ⟨by simp, call.text, hend⟩)

end

/-! ## What is summarised -/

/-- The records split where the anchor stands: `covered` ends with the record the
anchor names, and is empty without an anchor. -/
structure Split (s : SummaryStrategy) (covered rest : List MessageRecord) : Prop where
  records : s.records = covered ++ rest
  anchor : covered.getLast?.map (·.id) = s.summary.anchorId

theorem Tracks.split {c : SummaryStrategy × Option Summarisation}
    {cur : Cursor MessageRecord} (h : Tracks c cur) : Split c.1 cur.consumed cur.pending := by
  refine ⟨by rw [Cursor.consumed_append_pending, h.log], ?_⟩
  obtain ⟨log, pos, hle⟩ := cur
  obtain ⟨rfl, hpos, -, hanchor, -⟩ := h
  cases hpos with
  | start hstart =>
      cases ha : c.1.summary.anchorId with
      | none => rfl
      | some a =>
          obtain ⟨r, hr, rfl⟩ := List.mem_map.mp (hanchor a ha)
          exact absurd ha (hstart r hr)
  | after covered last rest hrecords ha =>
      have htake : (covered ++ last :: rest).take (covered.length + 1) = covered ++ [last] := by
        rw [List.take_length_add_append]
        rfl
      simp only [Cursor.consumed]
      rw [hrecords, htake, List.getLast?_concat, ha]
      rfl

/-- A call was made with the text of its input, formatted into the prompt. -/
def Sent [UnicodeData] (prompt : String) (call : Summarisation) : Prop :=
  ∃ content, Py.percent prompt (Py.strMessages (call.input.map (·.entries))) = .ok content ∧
    call.request.fullMessages.getLast? = some (Message.of "user" content)

section

variable [UnicodeData]

theorem sent_of_updateContextBegin {s : SummaryStrategy} {request : LlmRequest}
    (h : s.updateContextBegin = .ok (some request)) :
    Sent s.summarizationPrompt ⟨s.recordsAfterAnchor, s.inputForSummarization, request, ""⟩ := by
  unfold updateContextBegin at h
  split at h
  · obtain ⟨messages, hm, h⟩ := Py.bind_eq_ok.mp h
    cases h
    obtain ⟨content, hcontent, hm⟩ := Py.bind_eq_ok.mp hm
    cases hm
    exact ⟨content, hcontent, List.getLast?_concat⟩
  · cases h

/-- What the settings of a strategy, which nothing changes, entail. -/
structure Configured (s₀ : SummaryStrategy) (c : SummaryStrategy × Option Summarisation)
    (o : List OpObs) : Prop where
  windowSize : c.1.windowSize = s₀.windowSize
  prompt : c.1.summarizationPrompt = s₀.summarizationPrompt
  call : ∀ call ∈ c.2, Sent s₀.summarizationPrompt call
  calls : ∀ call ∈ calls o, Sent s₀.summarizationPrompt call

theorem Configured.step {s₀ : SummaryStrategy} {c c' : SummaryStrategy × Option Summarisation}
    {op : Op} {o o' : List OpObs} (hC : Configured s₀ c o) (h : Step c op c' o') :
    Configured s₀ c' (o ++ o') := by
  obtain ⟨hw, hp, hcall, hcalls⟩ := hC
  cases h with
  | append s s' op r hop hs =>
      subst hs
      refine ⟨hw, hp, ?_, by simpa using hcalls⟩
      rintro call ⟨⟩
  | ends s s' call h =>
      obtain ⟨init, last, -, rfl⟩ := updateContextEnd_ok h
      refine ⟨hw, hp, ?_, ?_⟩
      · rintro call ⟨⟩
      · intro call' hcall'
        rcases List.mem_append.mp (calls_append _ _ ▸ hcall') with hmem | hmem
        · exact hcalls call' hmem
        · obtain rfl := List.mem_singleton.mp hmem
          exact hcall call' rfl
  | updateCalls s request h =>
      refine ⟨hw, hp, ?_, by simpa [SummaryStrategy.calls] using hcalls⟩
      rintro call ⟨⟩
      rw [← hp]
      exact sent_of_updateContextBegin h
  | event s call e =>
      refine ⟨hw, hp, ?_, by simpa using hcalls⟩
      rintro call' ⟨⟩
      exact hcall call rfl
  | _ =>
      refine ⟨hw, hp, ?_, by simpa [SummaryStrategy.calls] using hcalls⟩
      rintro call ⟨⟩

theorem configured_of_run {s₀ : SummaryStrategy} {c : SummaryStrategy × Option Summarisation}
    {ops : List Op} {o : List OpObs} (h : machine.run (s₀, none) ops = some (c, o)) :
    Configured s₀ c o := by
  refine Mealy.run_induction (P := fun _ c o ↦ Configured s₀ c o) ⟨rfl, rfl, ?_, ?_⟩
    (fun _ c o op c' o' hC hs ↦ hC.step (.of_step hs)) h
  · rintro call ⟨⟩
  · intro call hcall
    exact absurd hcall List.not_mem_nil

/-- **The rolling summary.**  The records of the calls that succeeded, laid end to
end, are the records up to the anchor; each call gets the summary before it, and
is sent it.  An `update_context` that raises changes nothing, and after one that
returns fewer than a window of records follow the anchor. -/
theorem rolling_summary {s₀ s : SummaryStrategy} {call : Option Summarisation}
    {ops : List Op} {o : List OpObs} (hrecords : s₀.records = [])
    (hsummary : s₀.summary = ⟨"", none⟩) (hids : (ops.flatMap Op.draws).Nodup)
    (h : machine.run (s₀, none) ops = some ((s, call), o)) :
    (∃ rest, Split s ((calls o).map (·.records)).flatten rest) ∧
      (Chained "" (calls o) ∧ ∀ call ∈ calls o, Sent s₀.summarizationPrompt call) ∧
      ∀ s' o', call = none → Updates s s' o' →
        (∀ e, .raised e ∈ o' → s'.records = s.records ∧ s'.summary = s.summary) ∧
        (.updated ∈ o' →
          ∃ covered rest, Split s' covered rest ∧ rest.length < s₀.windowSize) := by
  obtain ⟨cur, htracks, hflatten⟩ := tracks_of_run hrecords hsummary hids h
  have hconf := configured_of_run h
  refine ⟨⟨cur.pending, ?_⟩, ⟨(summarised_of_run hsummary h).chained, hconf.calls⟩, ?_⟩
  · rw [hflatten]
    exact htracks.split
  intro s' o' hcall hupdates
  rcases hupdates.cases with ⟨rfl, hnot⟩ | ⟨rfl, rfl, hskip⟩ | ⟨hnot, text, hend⟩
  · exact ⟨fun _ _ ↦ ⟨rfl, rfl⟩, fun hmem ↦ absurd hmem hnot⟩
  · refine ⟨fun _ _ ↦ ⟨rfl, rfl⟩, fun _ ↦ ⟨cur.consumed, cur.pending, htracks.split, ?_⟩⟩
    have hlt := lt_windowSize_of_skip hskip
    rw [htracks.recordsAfterAnchor] at hlt
    exact hconf.windowSize ▸ hlt
  · refine ⟨fun e hmem ↦ absurd hmem (hnot e), fun _ ↦ ?_⟩
    obtain ⟨init, last, hrec, rfl⟩ := updateContextEnd_ok hend
    refine ⟨init ++ [last], [], ⟨by simpa using hrec, by simp⟩, ?_⟩
    exact s₀.windowSize_pos

end

/-- A strategy to evaluate runs with. -/
def sample : SummaryStrategy :=
  .sampleOf (.port "summariser") 1

/-- Two summarisations with a rebuild between them, and one that raises. -/
def sampleOps : List Op :=
  [.addUserQuery "a" (.ofNat 1), .addModelResponse "b" (.ofNat 2),
    .updateContext, .event (.textChunk "S"), .ends, .rebuild,
    .addUserQuery "c" (.ofNat 3), .getContext, .addModelResponse "d" (.ofNat 4),
    .updateContext, .event (.textChunk "T"), .raises (.anyLlmError "overloaded"),
    .updateContext, .event (.textChunk "U"), .ends, .addUserQuery "e" (.ofNat 5)]

theorem rolling_summary_sample :
    ∃ s call o, (@machine .asciiOnly).run (sample, none) sampleOps = some ((s, call), o) ∧
      (∃ rest, Split s ((calls o).map (·.records)).flatten rest) ∧ Chained "" (calls o) ∧
      (calls o).map (·.text) = ["S", "U"] ∧
      ((calls o).map (·.records)).flatten.map (fun r ↦ r.id.int) = [1, 2, 3, 4] := by
  obtain ⟨⟨⟨s, call⟩, o⟩, hrun, heval⟩ := Option.map_eq_some_iff.mp
    (show ((@machine .asciiOnly).run (sample, none) sampleOps).map (fun r ↦
      ((calls r.2).map (·.text), ((calls r.2).map (·.records)).flatten.map (fun r ↦ r.id.int))) =
        some (["S", "U"], [1, 2, 3, 4]) by decide)
  obtain ⟨htexts, hrecords⟩ := Prod.mk.inj heval
  obtain ⟨hsplit, ⟨hchained, -⟩, -⟩ :=
    @rolling_summary .asciiOnly sample s call sampleOps o rfl rfl (by decide) hrun
  exact ⟨s, call, o, hrun, hsplit, hchained, htexts, hrecords⟩

/-! ## What the context leaves out -/

/-- A record is in the context, or at or before the anchor while the context starts
with a summary that says something. -/
def Represented (s : SummaryStrategy) (i : ℕ) (r : MessageRecord) : Prop :=
  r.message ∈ s.getContext ∨
    ∃ j last text, i ≤ j ∧ s.records[j]? = some last ∧ s.summary.anchorId = some last.id ∧
      text ≠ "" ∧ s.getContext.head? = some (Message.of "user" text)

/-- No part of the conversation is lost silently. -/
def NothingLost (s : SummaryStrategy) : Prop :=
  ∀ i r, s.records[i]? = some r → s.Represented i r

section

variable [UnicodeData]

/-- The anchor is the last record of the last call that succeeded. -/
structure Anchored (c : SummaryStrategy × Option Summarisation) (o : List OpObs) : Prop where
  mem : ∀ a ∈ c.1.summary.anchorId, a ∈ SummaryStrategy.ids c.1.records
  last : ((calls o).getLast?.bind (·.records.getLast?)).map (·.id) = c.1.summary.anchorId
  call : ∀ call ∈ c.2, call.records.getLast? = c.1.records.getLast?

/-- A window that is full is not empty, so it ends with the last record. -/
theorem getLast?_recordsAfterAnchor {s : SummaryStrategy} {request : LlmRequest}
    (h : s.updateContextBegin = .ok (some request)) :
    s.recordsAfterAnchor.getLast? = s.records.getLast? := by
  have hlen : 1 ≤ s.recordsAfterAnchor.length :=
    s.windowSize_pos.trans (windowSize_le_of_call h)
  obtain ⟨front, hfront⟩ := s.recordsAfterAnchor_suffix
  have hne : s.recordsAfterAnchor ≠ [] := List.length_pos_iff.mp hlen
  rw [← hfront, List.getLast?_append_of_ne_nil _ hne]

theorem Anchored.step {c c' : SummaryStrategy × Option Summarisation} {op : Op}
    {o o' : List OpObs} (hA : Anchored c o) (h : Step c op c' o') : Anchored c' (o ++ o') := by
  obtain ⟨hmem, hlast, hcall⟩ := hA
  have hids := h.ids
  have hmem' : ∀ a ∈ c.1.summary.anchorId, a ∈ SummaryStrategy.ids c'.1.records := by
    intro a ha
    rw [hids]
    exact List.mem_append_left _ (hmem a ha)
  cases h with
  | append s s' op r hop hs =>
      subst hs
      refine ⟨hmem', by simpa using hlast, ?_⟩
      rintro call ⟨⟩
  | ends s s' call h =>
      obtain ⟨init, last, hrecords, rfl⟩ := updateContextEnd_ok h
      have hcalls : calls (o ++ [.summarised call, .updated]) = calls o ++ [call] :=
        calls_append _ _
      refine ⟨?_, ?_, ?_⟩
      · rintro a ⟨⟩
        rw [SummaryStrategy.ids, hrecords]
        exact List.mem_map_of_mem (by simp)
      · rw [hcalls, List.getLast?_concat, Option.bind_some, hcall call rfl, hrecords,
          List.getLast?_concat]
        rfl
      · rintro call ⟨⟩
  | updateCalls s request h =>
      refine ⟨hmem', by simpa [calls] using hlast, ?_⟩
      rintro call ⟨⟩
      exact getLast?_recordsAfterAnchor h
  | event s call e =>
      refine ⟨hmem', by simpa using hlast, ?_⟩
      rintro call' ⟨⟩
      exact hcall call rfl
  | _ =>
      refine ⟨hmem', by simpa [calls] using hlast, ?_⟩
      rintro call ⟨⟩

theorem anchored_of_run {s₀ : SummaryStrategy} {c : SummaryStrategy × Option Summarisation}
    {ops : List Op} {o : List OpObs} (hsummary : s₀.summary = ⟨"", none⟩)
    (h : machine.run (s₀, none) ops = some (c, o)) : Anchored c o := by
  refine Mealy.run_induction (P := fun _ c o ↦ Anchored c o) ⟨?_, ?_, ?_⟩
    (fun _ c o op c' o' hA hs ↦ hA.step (.of_step hs)) h
  · rw [hsummary]
    rintro a ⟨⟩
  · rw [hsummary]
    rfl
  · rintro call ⟨⟩

end

/-- An answer without text empties the context. -/
theorem context_emptied :
    ∃ s call o, (@machine .asciiOnly).run (sample, none)
        [.addUserQuery "a" (.ofNat 1), .addModelResponse "b" (.ofNat 2), .updateContext,
          .event (.textChunk ""), .ends] = some ((s, call), o) ∧
      s.records.length = 2 ∧ s.getContext = [] ∧ ¬ NothingLost s := by
  obtain ⟨⟨⟨s, call⟩, o⟩, hrun, heval⟩ := Option.map_eq_some_iff.mp
    (show ((@machine .asciiOnly).run (sample, none)
        [.addUserQuery "a" (.ofNat 1), .addModelResponse "b" (.ofNat 2), .updateContext,
          .event (.textChunk ""), .ends]).map (fun r ↦
            (r.1.1.records.length, r.1.1.getContext)) = some (2, []) by decide)
  obtain ⟨hlength, hcontext⟩ := Prod.mk.inj heval
  refine ⟨s, call, o, hrun, hlength, hcontext, fun hall ↦ ?_⟩
  have hlt : 0 < s.records.length := by
    rw [show s.records.length = 2 from hlength]
    decide
  rcases hall 0 s.records[0] (List.getElem?_eq_getElem hlt) with hmem | ⟨_, _, _, _, _, _, _, hhead⟩
  · rw [show s.getContext = [] from hcontext] at hmem
    exact absurd hmem List.not_mem_nil
  · rw [show s.getContext = [] from hcontext] at hhead
    cases hhead

/-- In every reachable state the context is the whole history, or the summary that
was made for the anchor, when it has any text, and every record after the anchor.
So nothing is lost silently unless the summary in force is empty. -/
theorem context_of_run [UnicodeData] {s₀ s : SummaryStrategy} {call : Option Summarisation}
    {ops : List Op} {o : List OpObs} (hsummary : s₀.summary = ⟨"", none⟩)
    (h : machine.run (s₀, none) ops = some ((s, call), o)) :
    (s.summary.anchorId = none → s.getContext = s.records.map (·.message)) ∧
      (∀ a, s.summary.anchorId = some a → ∃ covered last rest made,
        s.records = covered ++ last :: rest ∧ last.id = a ∧
        s.getContext = lead s.summary.text ++ rest.map (·.message) ∧
        (calls o).getLast? = some made ∧ made.text = s.summary.text ∧
        made.records.getLast?.map (·.id) = some a) ∧
      (s.summary.anchorId = none ∨ s.summary.text ≠ "" → NothingLost s) := by
  obtain ⟨hmem, hlast, -⟩ := anchored_of_run hsummary h
  have htext := (summarised_of_run hsummary h).text
  have hnone : s.summary.anchorId = none → s.getContext = s.records.map (·.message) := by
    intro ha
    rw [getContext_eq, ha]
  refine ⟨hnone, ?_, ?_⟩
  · intro a ha
    obtain ⟨covered, last, rest, hrecords, hid, -, hrest⟩ := exists_split_of_mem ha (hmem a ha)
    cases hcalls : (calls o).getLast? with
    | none =>
        rw [hcalls, show s.summary.anchorId = some a from ha] at hlast
        cases hlast
    | some made =>
        refine ⟨covered, last, rest, made, hrecords, hid, ?_, rfl, ?_, ?_⟩
        · rw [getContext_eq, ha, hrest]
        · rw [show s.summary.text = _ from htext, textAfter, hcalls]
          rfl
        · rw [hcalls, show s.summary.anchorId = some a from ha] at hlast
          exact hlast
  · intro hor i r hr
    cases ha : s.summary.anchorId with
    | none =>
        refine Or.inl ?_
        rw [hnone ha]
        exact List.mem_map_of_mem (List.mem_of_getElem? hr)
    | some a =>
        have htext : s.summary.text ≠ "" := hor.resolve_left (by rw [ha]; simp)
        obtain ⟨covered, last, rest, hrecords, rfl, -, hrest⟩ :=
          exists_split_of_mem ha (hmem a ha)
        have hcontext : s.getContext =
            Message.of "user" s.summary.text :: rest.map (·.message) := by
          rw [getContext_eq, ha, hrest, lead, if_pos htext]
          rfl
        by_cases hi : i ≤ covered.length
        · refine Or.inr ⟨covered.length, last, s.summary.text, hi, ?_, ha, htext, ?_⟩
          · rw [hrecords, List.getElem?_append_right (Nat.le_refl _), Nat.sub_self]
            rfl
          · rw [hcontext]
            rfl
        · refine Or.inl ?_
          have hrest : r ∈ rest := by
            rw [hrecords, List.getElem?_append_right (by omega)] at hr
            obtain ⟨k, hk⟩ : ∃ k, i - covered.length = k + 1 :=
              ⟨i - covered.length - 1, by omega⟩
            rw [hk, List.getElem?_cons_succ] at hr
            exact List.mem_of_getElem? hr
          rw [hcontext]
          exact List.mem_cons_of_mem _ (List.mem_map_of_mem hrest)

/-- With a summary that says something nothing is lost. -/
theorem context_of_sampleOps :
    ∃ s call o, (@machine .asciiOnly).run (sample, none) sampleOps = some ((s, call), o) ∧
      s.summary.text = "U" ∧ NothingLost s := by
  obtain ⟨⟨⟨s, call⟩, o⟩, hrun, heval⟩ := Option.map_eq_some_iff.mp
    (show ((@machine .asciiOnly).run (sample, none) sampleOps).map (fun r ↦
      r.1.1.summary.text) = some "U" by decide)
  have htext : s.summary.text = "U" := heval
  obtain ⟨-, -, hlost⟩ := @context_of_run .asciiOnly sample s call sampleOps o rfl hrun
  exact ⟨s, call, o, hrun, htext, hlost (Or.inr (by rw [htext]; decide))⟩

end SummaryStrategy
