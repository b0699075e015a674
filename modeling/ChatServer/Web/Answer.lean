import ChatServer.Web.Occupancy

/-!
# What the client hears of a turn

A client that has sent a message waits for a `DoneFrame` or an `ErrorFrame`.  `Heard`
says, for every suspension of a stream task, which frames it has sent of the texts the
session has yielded to it: their chunks while the turn goes on, and their chunks followed
by a terminal frame once it is over.

Not every step keeps this.  A step is `Loud` when it does not end the task behind the
back of the client: the exceptions `_stream_response` has an `except` clause for are
answered, every other one is not, and neither is a final event without statistics.
`StreamTask.verdict_step` says that these steps are exactly the ones that end a task in
silence; `WsHandler.ends_answered_iff` is the same over runs.

That `model_dump` of an output model raises neither an `AnyLLMError` nor a
`CancelledError` is the one assumption on a library.
-/

/-- `_stream_response` has an `except` clause for it. -/
def PyExc.Handled : PyExc → Prop
  | .authenticationError _ | .anyLlmError _ | .cancelledError => True
  | _ => False

theorem PyExc.IsDataError.not_handled {e : PyExc} (h : e.IsDataError) : ¬ e.Handled := by
  cases e <;> first | exact id | exact absurd h id

/-- A frame on which a client leaves its streaming state. -/
def ServerFrame.IsTerminal : ServerFrame → Prop
  | .done .. | .error .. => True
  | _ => False

/-- The text of a text event. -/
def Session.Obs.text? : Session.Obs → Option String
  | .yielded (.textChunk text) => some text
  | _ => none

/-- The generator awaits an LLM. -/
def Session.Phase.Awaits : Session.Phase → Prop
  | .main .. | .summary .. => True
  | _ => False

/-- The generator is at the `yield` of a text. -/
def Session.Phase.AtChunk : Session.Phase → Prop
  | .chunk .. => True
  | _ => False

/-- The first entry of the current statistics can be told in a `DoneFrame`. -/
def Session.Reports (s : Session) : Prop :=
  ∃ provider model stats rest, StreamTask.doneEntries (s.doneEvent none 0) =
    (provider, model, stats) :: rest ∧ provider ≠ "" ∧ model ≠ ""

/-- What `update_context` raises by itself has no `except` clause. -/
theorem MessageContextStrategy.not_handled_of_updateContextBegin [UnicodeData]
    {σ : MessageContextStrategy} {e : PyExc} (h : σ.updateContextBegin = .error e) :
    ¬ e.Handled := by
  cases σ with
  | dummy σ | slidingWindow σ => cases h
  | summary σ =>
      simp only [updateContextBegin, SummaryStrategy.updateContextBegin] at h
      split at h
      · simp only [SummaryStrategy.llmInput, bind, Except.bind] at h
        cases hpercent : Py.percent σ.summarizationPrompt
          (Py.strMessages (σ.inputForSummarization.map (·.entries))) with
        | error e' =>
            rw [hpercent] at h
            cases h
            exact (Py.isDataError_of_percent hpercent).not_handled
        | ok content =>
            rw [hpercent] at h
            cases h
      · cases h

theorem MessageContextStrategy.not_handled_of_updateContextEnd {σ : MessageContextStrategy}
    {text : String} {e : PyExc} (h : σ.updateContextEnd text = .error e) : ¬ e.Handled := by
  cases σ with
  | dummy σ | slidingWindow σ => cases h
  | summary σ =>
      simp only [updateContextEnd, SummaryStrategy.updateContextEnd] at h
      cases hlast : σ.records.getLast? with
      | none =>
          rw [hlast] at h
          cases h
          exact id
      | some last =>
          rw [hlast] at h
          cases h

theorem PyExc.not_handled_ofErrno (message : String) (e : Errno) :
    ¬ (PyExc.ofErrno message e).Handled := by
  cases e <;> exact id

/-- What `update_session` raises by itself has no `except` clause either. -/
theorem SessionFileAdapter.not_handled_of_updateSession [SessionCodec]
    (hdump : ∀ (m : OutputModel) (e : PyExc), ConfigCodec.dumpModel m = .error e → ¬ e.Handled)
    {a : SessionFileAdapter} {t t' : FileTree} {s : Session}
    {faults : List (Option FileTree.Fault)} {e : PyExc}
    (h : a.updateSession t s faults = (t', .error e)) : ¬ e.Handled := by
  have hmodels : ∀ {e}, dumpModels s = .error e → ¬ e.Handled := by
    intro e he
    obtain ⟨model, hmodel⟩ := exists_of_dumpModels he
    exact hdump model e hmodel
  simp only [updateSession, writeSessionFiles] at h
  split at h
  · split at h
    · cases h
      exact id
    · split at h
      · rename_i e' he'
        cases h
        exact hmodels he'
      · split at h
        · cases h
          exact PyExc.not_handled_ofErrno _ _
        · split at h <;> cases h <;> exact id
  · cases h
    exact id

namespace StreamTask

/-- The frames a task sent. -/
def frames (o : List StreamObs) : List ServerFrame :=
  o.filterMap fun
    | .sends frame => some frame
    | _ => none

/-- The texts the session yielded to it. -/
def texts (o : List StreamObs) : List String :=
  o.flatMap fun
    | .advanced o => o.filterMap Session.Obs.text?
    | _ => []

@[simp] theorem frames_append (o o' : List StreamObs) :
    frames (o ++ o') = frames o ++ frames o' := List.filterMap_append

@[simp] theorem texts_append (o o' : List StreamObs) : texts (o ++ o') = texts o ++ texts o' :=
  List.flatMap_append

/-- The frames are the chunks of the texts, and at least one terminal frame. -/
def Answered (fs : List ServerFrame) (ts : List String) : Prop :=
  ∃ last, fs = ts.map .chunk ++ last ∧ last ≠ [] ∧ ∀ f ∈ last, f.IsTerminal

/-- What the client has heard from a task that is suspended in a phase, or has ended. -/
def Heard : StreamPhase → List ServerFrame → List String → Prop
  | .created, fs, ts => fs = ts.map .chunk
  | .awaiting phase, fs, ts => phase.Awaits ∧ fs = ts.map .chunk
  | .sendingChunk phase, fs, ts => phase.AtChunk ∧ fs = ts.map .chunk
  | .sendingDone _ _, fs, ts | .sendingError, fs, ts => Answered fs ts
  | .finished result, fs, ts => result = some .cancelledError ∨ Answered fs ts

/-- A step that does not end a task without a word to its client: the LLM raises only
what is handled, `update_context` does not raise by itself, and there is something to
report of the turn when its final event is made. -/
def Loud [UnicodeData] (s : Session) : StreamPhase → StreamInput → Prop
  | .awaiting _, .resumes (.raises e) => e.Handled
  | .awaiting (.main text _), .resumes (.mainEnds uuid4 _) =>
      let s := s.answer text uuid4
      (∃ request, s.messageContextStrategy.updateContextBegin = .ok (some request)) ∨
        s.messageContextStrategy.updateContextBegin = .ok none ∧ s.Reports
  | .awaiting (.summary _ text), .resumes (.summaryEnds _) =>
      (∃ strategy, s.messageContextStrategy.updateContextEnd text = .ok strategy) ∧ s.Reports
  | _, _ => True

/-- After a step either it was loud and the client has heard what is due, or it was not and
the task has ended in silence. -/
inductive Verdict (loud : Prop) (phase : StreamPhase) (fs : List ServerFrame)
    (ts : List String) : Prop
  | heard (hloud : loud) (told : Heard phase fs ts)
  | silent (hquiet : ¬ loud) (result : Option PyExc) (ended : phase = .finished result)
      (uncancelled : result ≠ some .cancelledError) (told : fs = ts.map .chunk)

theorem not_answered {ts : List String} : ¬ Answered (ts.map .chunk) ts := by
  rintro ⟨last, heq, hne, -⟩
  exact hne (List.append_right_eq_self.mp heq.symm)

theorem Answered.concat {fs : List ServerFrame} {ts : List String} {f : ServerFrame}
    (h : Answered fs ts) (hf : f.IsTerminal) : Answered (fs ++ [f]) ts := by
  obtain ⟨last, rfl, -, hlast⟩ := h
  refine ⟨last ++ [f], List.append_assoc _ _ _, List.concat_ne_nil _ _, fun g hg ↦ ?_⟩
  rcases List.mem_append.mp hg with hg | hg
  · exact hlast g hg
  · rw [List.mem_singleton.mp hg]
    exact hf

theorem Answered.of_chunks {fs : List ServerFrame} {ts : List String} {f : ServerFrame}
    (h : fs = ts.map .chunk) (hf : f.IsTerminal) : Answered (fs ++ [f]) ts := by
  refine ⟨[f], by rw [h], List.cons_ne_nil _ _, fun g hg ↦ ?_⟩
  rw [List.mem_singleton.mp hg]
  exact hf

theorem Verdict.iff {loud : Prop} {phase : StreamPhase} {fs : List ServerFrame}
    {ts : List String} (h : Verdict loud phase fs ts) : Heard phase fs ts ↔ loud := by
  cases h with
  | heard hloud told => exact iff_of_true told hloud
  | silent hquiet result ended uncancelled told =>
      subst ended told
      refine iff_of_false ?_ hquiet
      rintro (hcancelled | hanswered)
      · exact uncancelled hcancelled
      · exact not_answered hanswered

/-! ## The parts of a step -/

section

variable {fs : List ServerFrame} {ts : List String}

theorem verdict_onException (h : fs = ts.map .chunk) (e : PyExc) :
    Verdict e.Handled (onException e).1 (fs ++ frames (onException e).2) ts := by
  cases e with
  | authenticationError message => exact .heard trivial (.of_chunks h trivial)
  | anyLlmError message => exact .heard trivial (.of_chunks h trivial)
  | cancelledError => exact .heard trivial (Or.inl rfl)
  | _ =>
      refine .silent id _ rfl (by simp) ?_
      exact (List.append_nil fs).trans h

theorem heard_onException (h : Answered fs ts) (e : PyExc) :
    Heard (onException e).1 (fs ++ frames (onException e).2) ts := by
  cases e with
  | authenticationError message | anyLlmError message => exact h.concat trivial
  | cancelledError => exact Or.inl rfl
  | _ => exact Or.inr ((List.append_nil fs).symm ▸ h)

section

variable [SessionCodec] {a : SessionFileAdapter} {t : FileTree} {s : Session}
  {faults : List (Option FileTree.Fault)}

theorem texts_onReturn : texts (onReturn a t s faults).2.2 = [] := by
  rw [onReturn]
  split
  · rfl
  · rename_i e _
    cases e <;> rfl

theorem heard_onReturn (h : Answered fs ts) :
    Heard (onReturn a t s faults).2.1 (fs ++ frames (onReturn a t s faults).2.2) ts := by
  rw [onReturn]
  split
  · exact Or.inr ((List.append_nil fs).symm ▸ h)
  · rename_i t' e _
    exact heard_onException h e

/-- A turn that returns with nothing sent ends in silence. -/
theorem silent_onReturn
    (hdump : ∀ (m : OutputModel) (e : PyExc), ConfigCodec.dumpModel m = .error e → ¬ e.Handled)
    (h : fs = ts.map .chunk) : ∃ result, (onReturn a t s faults).2.1 = .finished result ∧
      result ≠ some .cancelledError ∧ fs ++ frames (onReturn a t s faults).2.2 = ts.map .chunk := by
  rw [onReturn]
  split
  · exact ⟨none, rfl, nofun, (List.append_nil fs).trans h⟩
  · rename_i t' e hupdate
    have hverdict := verdict_onException h e
    cases hverdict with
    | heard hloud told =>
        exact absurd hloud (SessionFileAdapter.not_handled_of_updateSession hdump hupdate)
    | silent hquiet result ended uncancelled told => exact ⟨result, ended, uncancelled, told⟩

theorem texts_sendDone {event : SessionCompletionDoneEvent}
    {rest : List (String × String × ModelStats)} :
    texts (sendDone a t s faults event rest).2.2 = [] := by
  cases rest with
  | nil => exact texts_onReturn
  | cons entry rest =>
      rw [sendDone]
      split
      · rfl
      · rename_i e _
        cases e <;> rfl

theorem heard_sendDone (h : Answered fs ts) (event : SessionCompletionDoneEvent)
    (rest : List (String × String × ModelStats)) :
    Heard (sendDone a t s faults event rest).2.1
      (fs ++ frames (sendDone a t s faults event rest).2.2) ts := by
  cases rest with
  | nil => exact heard_onReturn h
  | cons entry rest =>
      rw [sendDone]
      split
      · rename_i frame hframe
        unfold ServerFrame.doneFrame at hframe
        split at hframe
        · cases hframe
        · cases hframe
          exact h.concat trivial
      · rename_i e _
        exact heard_onException h e

/-- The entries of the final event are told if there is one, and the first has a
name. -/
theorem verdict_sendDone
    (hdump : ∀ (m : OutputModel) (e : PyExc), ConfigCodec.dumpModel m = .error e → ¬ e.Handled)
    (h : fs = ts.map .chunk) (event : SessionCompletionDoneEvent)
    (entries : List (String × String × ModelStats)) :
    Verdict (∃ provider model stats rest, entries = (provider, model, stats) :: rest ∧
        provider ≠ "" ∧ model ≠ "") (sendDone a t s faults event entries).2.1
      (fs ++ frames (sendDone a t s faults event entries).2.2) ts := by
  cases entries with
  | nil =>
      obtain ⟨result, ended, uncancelled, told⟩ := @silent_onReturn fs ts _ a t s faults
        hdump h
      refine .silent ?_ result ended uncancelled told
      rintro ⟨provider, model, stats, rest, heq, -⟩
      cases heq
  | cons entry rest =>
      obtain ⟨provider, model, stats⟩ := entry
      rw [sendDone, ServerFrame.doneFrame]
      by_cases hname : provider = "" ∨ model = ""
      · rw [if_pos hname]
        refine .silent ?_ _ rfl (by simp) ?_
        · rintro ⟨provider', model', stats', rest', heq, hprovider, hmodel⟩
          cases heq
          exact hname.elim hprovider hmodel
        · exact (List.append_nil fs).trans h
      · rw [if_neg hname]
        obtain ⟨hprovider, hmodel⟩ := not_or.mp hname
        exact .heard ⟨provider, model, stats, rest, rfl, hprovider, hmodel⟩ (.of_chunks h trivial)

end

end

/-! ## One step -/

section

variable {fs : List ServerFrame} {ts : List String}

theorem chunks_append {o : List StreamObs} (h : fs = ts.map .chunk)
    (ho : frames o = (texts o).map .chunk) : fs ++ frames o = (ts ++ texts o).map .chunk := by
  rw [h, List.map_append, ho]

/-- What the generator did first is neither a text nor a frame. -/
theorem Verdict.advanced {loud loud' : Prop} {phase : StreamPhase} {o : List StreamObs}
    (h : Verdict loud phase (fs ++ frames o) ts) (hiff : loud' ↔ loud) (htexts : texts o = [])
    {o' : List Session.Obs} (ho' : o'.filterMap Session.Obs.text? = []) :
    Verdict loud' phase (fs ++ frames (.advanced o' :: o)) (ts ++ texts (.advanced o' :: o)) := by
  have hall : texts (.advanced o' :: o) = [] := by
    show o'.filterMap Session.Obs.text? ++ texts o = []
    rw [ho', htexts, List.append_nil]
  rw [hall, List.append_nil]
  cases h with
  | heard hloud told => exact .heard (hiff.mpr hloud) told
  | silent hquiet result ended uncancelled told =>
      exact .silent (fun hloud ↦ hquiet (hiff.mp hloud)) result ended uncancelled told

theorem texts_onException (e : PyExc) : texts (onException e).2 = [] := by
  cases e <;> rfl

variable [UnicodeData] [SessionCodec] {a : SessionFileAdapter} {t t' : FileTree}
  {s s' : Session} {faults : List (Option FileTree.Fault)}

/-- The step of a generator that awaits an LLM. -/
theorem verdict_awaiting
    (hdump : ∀ (m : OutputModel) (e : PyExc), ConfigCodec.dumpModel m = .error e → ¬ e.Handled)
    {phase : Session.Phase} {i : Session.Input} {phase' : StreamPhase} {o : List StreamObs}
    (hphase : phase.Awaits) (h : fs = ts.map .chunk)
    (hs : advance a t s faults (some phase) i = some ((t', s', phase'), o)) :
    Verdict (Loud s (.awaiting phase) (.resumes i)) phase' (fs ++ frames o) (ts ++ texts o) := by
  -- what the generator raises goes to the `except` clauses
  have hraised : ∀ {loud : Prop} (e : PyExc), (loud ↔ e.Handled) →
      Verdict loud (onException e).1 (fs ++ frames (.advanced [.raised e] :: (onException e).2))
        (ts ++ texts (.advanced [.raised e] :: (onException e).2)) :=
    fun e hiff ↦ (verdict_onException h e).advanced hiff (texts_onException e) rfl
  cases phase with
  | chunk text stop => exact absurd hphase id
  | done => exact absurd hphase id
  | main text stop =>
      cases i with
      | event e =>
          cases e with
          | textChunk chunk =>
              cases hs
              exact .heard trivial ⟨trivial, chunks_append h rfl⟩
          | completionDone event =>
              cases hs
              exact .heard trivial ⟨trivial, chunks_append h rfl⟩
      | mainEnds uuid4 elapsedS =>
          simp only [advance, Session.step, Session.endStream] at hs
          split at hs
          · rename_i e he
            cases hs
            have hquiet := MessageContextStrategy.not_handled_of_updateContextBegin he
            refine hraised e (iff_of_false ?_ hquiet)
            rintro (⟨request, hrequest⟩ | ⟨hnone, -⟩)
            · cases he.symm.trans hrequest
            · cases he.symm.trans hnone
          · rename_i he
            cases hs
            refine Verdict.advanced (verdict_sendDone hdump h _ _) ?_ texts_sendDone rfl
            constructor
            · rintro (⟨request, hrequest⟩ | ⟨-, hreports⟩)
              · cases he.symm.trans hrequest
              · exact hreports
            · exact fun hreports ↦ Or.inr ⟨he, hreports⟩
          · rename_i request he
            cases hs
            exact .heard (Or.inl ⟨request, he⟩) ⟨trivial, chunks_append h rfl⟩
      | raises e =>
          cases hs
          exact hraised e Iff.rfl
      | cancelled =>
          cases hs
          exact .heard trivial (Or.inl rfl)
      | _ => cases hs
  | summary stop text =>
      cases i with
      | event e =>
          cases hs
          exact .heard trivial ⟨trivial, chunks_append h rfl⟩
      | summaryEnds elapsedS =>
          simp only [advance, Session.step, Session.finish] at hs
          split at hs
          · rename_i e he
            cases hs
            have hquiet := MessageContextStrategy.not_handled_of_updateContextEnd he
            refine hraised e (iff_of_false ?_ hquiet)
            rintro ⟨⟨strategy, hstrategy⟩, -⟩
            cases he.symm.trans hstrategy
          · rename_i strategy he
            cases hs
            refine Verdict.advanced (verdict_sendDone hdump h _ _) ?_ texts_sendDone rfl
            constructor
            · exact fun hloud ↦ hloud.2
            · exact fun hreports ↦ ⟨⟨strategy, he⟩, hreports⟩
      | raises e =>
          cases hs
          exact hraised e Iff.rfl
      | cancelled =>
          cases hs
          exact .heard trivial (Or.inl rfl)
      | _ => cases hs

/-- The step of a task that is not being cancelled. -/
theorem verdict_stepPhase
    (hdump : ∀ (m : OutputModel) (e : PyExc), ConfigCodec.dumpModel m = .error e → ¬ e.Handled)
    {content : String} {phase phase' : StreamPhase} {i : StreamInput} {o : List StreamObs}
    (hopen : ∀ e, i ≠ .sendFails e) (h : Heard phase fs ts)
    (hs : stepPhase a t s faults content phase i = some ((t', s', phase'), o)) :
    Verdict (Loud s phase i) phase' (fs ++ frames o) (ts ++ texts o) := by
  cases phase with
  | created =>
      cases i with
      | runs uuid4 =>
          cases hs
          exact .heard trivial ⟨trivial, chunks_append h rfl⟩
      | _ => cases hs
  | awaiting phase =>
      cases i with
      | resumes i => exact verdict_awaiting hdump h.1 h.2 hs
      | _ => cases hs
  | sendingChunk phase =>
      cases i with
      | sent =>
          cases phase with
          | chunk text stop =>
              cases hs
              exact .heard trivial ⟨trivial, chunks_append h.2 rfl⟩
          | _ => exact absurd h.1 id
      | sendFails e => exact absurd rfl (hopen e)
      | _ => cases hs
  | sendingDone event rest =>
      cases i with
      | sent =>
          cases hs
          refine .heard trivial ?_
          show Heard (sendDone a t s faults event rest).2.1
            (fs ++ frames (sendDone a t s faults event rest).2.2)
            (ts ++ texts (sendDone a t s faults event rest).2.2)
          rw [texts_sendDone, List.append_nil]
          exact heard_sendDone h event rest
      | sendFails e => exact absurd rfl (hopen e)
      | _ => cases hs
  | sendingError =>
      cases i with
      | sent =>
          cases hs
          refine .heard trivial (Or.inr ?_)
          show Answered (fs ++ []) (ts ++ [])
          rw [List.append_nil, List.append_nil]
          exact h
      | sendFails e => exact absurd rfl (hopen e)
      | _ => cases hs
  | finished result => cases i <;> cases hs

/-- A cancellation that is delivered is the end of the task, or goes to the generator. -/
theorem heard_stepCancelled
    (hdump : ∀ (m : OutputModel) (e : PyExc), ConfigCodec.dumpModel m = .error e → ¬ e.Handled)
    {phase phase' : StreamPhase} {o : List StreamObs} (h : Heard phase fs ts)
    (hs : stepCancelled a t s faults phase = some ((t', s', phase'), o)) :
    Heard phase' (fs ++ frames o) (ts ++ texts o) := by
  cases phase with
  | awaiting phase =>
      refine (verdict_awaiting hdump h.1 h.2 hs).iff.mpr ?_
      cases phase <;> trivial
  | finished result => cases hs
  | _ =>
      cases hs
      exact Or.inl rfl

/-- **One step** of a task whose socket is open ends it in silence exactly if it is not
loud. -/
theorem verdict_step
    (hdump : ∀ (m : OutputModel) (e : PyExc), ConfigCodec.dumpModel m = .error e → ¬ e.Handled)
    {task task' : StreamTask} {i : StreamInput} {o : List StreamObs}
    (hopen : ∀ e, i ≠ .sendFails e) (h : Heard task.phase fs ts)
    (hs : task.step a t s faults i = some ((t', s', task'), o)) :
    Verdict (task.cancelRequested = false → Loud s task.phase i) task'.phase (fs ++ frames o)
      (ts ++ texts o) := by
  obtain ⟨⟨⟨t₁, s₁, phase'⟩, o₁⟩, hnext, heq⟩ := Option.map_eq_some_iff.mp hs
  cases heq
  obtain ⟨ws, content, phase, cancelRequested⟩ := task
  cases cancelRequested with
  | true =>
      simp only [if_true] at hnext
      split at hnext
      · exact .heard nofun (heard_stepCancelled hdump h hnext)
      · cases hnext
  | false =>
      cases verdict_stepPhase hdump hopen h hnext with
      | heard hloud told => exact .heard (fun _ ↦ hloud) told
      | silent hquiet result ended uncancelled told =>
          exact .silent (fun hloud ↦ hquiet (hloud rfl)) result ended uncancelled told

end

end StreamTask

/-! ## Every run -/

namespace WsHandler

open StreamTask

/-- What a trace tells of one task. -/
def taskObs (n : ℕ) (o : List Obs) : List StreamObs :=
  o.filterMap fun
    | .stream m o => if m = n then some o else none
    | _ => none

@[simp] theorem taskObs_append (n : ℕ) (o o' : List Obs) :
    taskObs n (o ++ o') = taskObs n o ++ taskObs n o' := List.filterMap_append

theorem taskObs_stream_self (n : ℕ) (o : List StreamObs) : taskObs n (o.map (.stream n)) = o := by
  rw [taskObs, List.filterMap_map]
  refine (List.filterMap_congr fun ob _ ↦ ?_).trans List.filterMap_some
  exact if_pos rfl

theorem taskObs_stream_of_ne {m n : ℕ} (h : m ≠ n) (o : List StreamObs) :
    taskObs n (o.map (.stream m)) = [] := by
  rw [taskObs, List.filterMap_map]
  refine (List.filterMap_congr fun ob _ ↦ ?_).trans (List.filterMap_none o)
  exact if_neg h

/-- The phase of a task. -/
def State.phase? (w : State) (n : ℕ) : Option StreamPhase := w.tasks[n]?.map (·.phase)

theorem State.phase?_congr {w w' : State} {n : ℕ} (h : w'.tasks[n]? = w.tasks[n]?) :
    w'.phase? n = w.phase? n := by
  rw [State.phase?, State.phase?, h]

theorem State.phase?_cancelTask (w : State) (m n : ℕ) : (w.cancelTask m).phase? n = w.phase? n := by
  rw [State.phase?, State.phase?, State.cancelTask, List.getElem?_modify]
  cases htask : w.tasks[n]? with
  | none => rfl
  | some task =>
      refine congrArg some ?_
      show (if m = n then task.cancel else task).phase = task.phase
      split
      · unfold StreamTask.cancel
        split <;> rfl
      · rfl

/-- A step is about another task, or makes this one, or is one of its own. -/
theorem Step.task_cases [UnicodeData] [SessionCodec] {a : SessionFileAdapter} {w w' : State}
    {i : Input} {o : List Obs} (hs : Step a w i w' o) (n : ℕ) :
    ((∀ i' faults, i ≠ .stream n i' faults) ∧ taskObs n o = [] ∧
        (w'.phase? n = w.phase? n ∨ w.phase? n = none ∧ w'.phase? n = some .created)) ∨
      ∃ i' faults task task' o', i = .stream n i' faults ∧ w.tasks[n]? = some task ∧
        task.step a w.tree w.sc.session faults i' = some ((w'.tree, w'.sc.session, task'), o') ∧
        w'.phase? n = some task'.phase ∧ taskObs n o = o' := by
  have hhandler : ∀ h j i' faults, Input.handler h j ≠ .stream n i' faults := by
    intro h j i' faults heq
    cases heq
  cases hs with
  | connects free | connectsTaken h taken =>
      refine Or.inl ⟨fun i' faults heq ↦ ?_, rfl, Or.inl (State.phase?_congr rfl)⟩
      cases heq
  | stream m i faults task task' tree session o htask hstep =>
      by_cases heq : m = n
      · subst heq
        refine Or.inr ⟨i, faults, task, task', o, rfl, htask, hstep, ?_, taskObs_stream_self m o⟩
        obtain ⟨hlt, -⟩ := List.getElem?_eq_some_iff.mp htask
        rw [State.phase?, List.getElem?_set_self hlt]
        rfl
      · refine Or.inl ⟨?_, taskObs_stream_of_ne heq o, Or.inl ?_⟩
        · rintro i' faults' ⟨⟩
          exact heq rfl
        · rw [State.phase?, List.getElem?_set_ne heq]
          rfl
  | sendMessage h content hh idle =>
      refine Or.inl ⟨hhandler _ _, rfl, ?_⟩
      rcases lt_trichotomy n w.tasks.length with hlt | heq | hgt
      · refine Or.inl (State.phase?_congr ?_)
        exact List.getElem?_append_left hlt
      · refine Or.inr ⟨?_, ?_⟩
        · rw [State.phase?, List.getElem?_eq_none heq.ge]
          rfl
        · rw [State.phase?, State.addTask, heq, List.getElem?_concat_length]
          rfl
      · refine Or.inl (State.phase?_congr ?_)
        rw [List.getElem?_eq_none hgt.le, List.getElem?_eq_none]
        rw [State.addTask, List.length_append, List.length_singleton]
        exact hgt
  | cancel h m hh busy => exact Or.inl ⟨hhandler _ _, rfl, Or.inl (w.phase?_cancelTask m n)⟩
  | leaves h m phase hh hphase busy =>
      exact Or.inl ⟨hhandler _ _, rfl, Or.inl (w.phase?_cancelTask m n)⟩
  | _ => exact Or.inl ⟨hhandler _ _, rfl, Or.inl (State.phase?_congr rfl)⟩

/-- What the client has heard of a task in a run, if it was made. -/
def HeardFrom (n : ℕ) (w : State) (o : List Obs) : Prop :=
  match w.phase? n with
  | none => taskObs n o = []
  | some phase => Heard phase (frames (taskObs n o)) (texts (taskObs n o))

/-- A task that has ended, and not by a cancellation, has sent the chunks of all texts the
session yielded, in order, and at least one terminal frame. -/
def EndsAnswered (n : ℕ) (w : State) (o : List Obs) : Prop :=
  ∀ result, w.phase? n = some (.finished result) → result ≠ some .cancelledError →
    Answered (frames (taskObs n o)) (texts (taskObs n o))

/-- A step of the task, if it is one, is loud. -/
def LoudStep [UnicodeData] (n : ℕ) (w : State) (i : Input) : Prop :=
  ∀ i' faults task, i = .stream n i' faults → w.tasks[n]? = some task →
    task.cancelRequested = false → Loud w.sc.session task.phase i'

/-- While a task runs its client has heard what is due. -/
def HeardWhileRunning (n : ℕ) (w : State) (o : List Obs) : Prop :=
  (∀ result, w.phase? n ≠ some (.finished result)) → HeardFrom n w o

theorem heardFrom_iff {n : ℕ} {w : State} {o : List Obs} :
    HeardFrom n w o ↔ HeardWhileRunning n w o ∧ EndsAnswered n w o := by
  constructor
  · intro h
    refine ⟨fun _ ↦ h, fun result hphase hresult ↦ ?_⟩
    rw [HeardFrom, hphase] at h
    exact h.resolve_left hresult
  · rintro ⟨hrunning, hended⟩
    by_cases hphase : ∃ result, w.phase? n = some (.finished result)
    · obtain ⟨result, hphase⟩ := hphase
      rw [HeardFrom, hphase]
      by_cases hresult : result = some .cancelledError
      · exact Or.inl hresult
      · exact Or.inr (hended result hphase hresult)
    · exact hrunning fun result heq ↦ hphase ⟨result, heq⟩

section

variable [UnicodeData] [SessionCodec] {a : SessionFileAdapter} {w w' : State} {i : Input}
  {o o' : List Obs} {n : ℕ}

/-- A task that has ended stays so. -/
theorem Step.phase?_of_finished (hs : Step a w i w' o') {result : Option PyExc}
    (hphase : w.phase? n = some (.finished result)) :
    w'.phase? n = some (.finished result) := by
  rcases hs.task_cases n with ⟨-, -, heq | ⟨hnone, -⟩⟩ |
    ⟨i', faults, task, task', o₁, rfl, htask, hstep, -, -⟩
  · exact heq.trans hphase
  · cases hnone.symm.trans hphase
  · rw [State.phase?, htask] at hphase
    have hdone : task.isDone = true := by
      rw [StreamTask.isDone, show task.phase = .finished result from Option.some.inj hphase]
    rw [StreamTask.step_of_isDone hdone] at hstep
    cases hstep

/-- **One step** leaves the client with what is due exactly if it is loud, and else ends
the task. -/
theorem Step.heardFrom
    (hdump : ∀ (m : OutputModel) (e : PyExc), ConfigCodec.dumpModel m = .error e → ¬ e.Handled)
    (hs : Step a w i w' o') (hopen : ∀ e faults, i ≠ .stream n (.sendFails e) faults)
    (h : HeardFrom n w o) :
    (HeardFrom n w' (o ++ o') ↔ LoudStep n w i) ∧ HeardWhileRunning n w' (o ++ o') := by
  rcases hs.task_cases n with ⟨hother, hnothing, hphase⟩ |
    ⟨i', faults, task, task', o₁, rfl, htask, hstep, hphase', hobs⟩
  · have hheard : HeardFrom n w' (o ++ o') := by
      rw [HeardFrom, taskObs_append, hnothing, List.append_nil]
      rcases hphase with heq | ⟨hnone, hcreated⟩
      · rw [heq]
        exact h
      · rw [HeardFrom, hnone] at h
        rw [hcreated, h]
        rfl
    refine ⟨iff_of_true hheard ?_, fun _ ↦ hheard⟩
    exact fun i' faults task heq ↦ absurd heq (hother i' faults)
  · have htaskHeard : Heard task.phase (frames (taskObs n o)) (texts (taskObs n o)) := by
      rw [HeardFrom, State.phase?, htask] at h
      exact h
    have hverdict := verdict_step hdump (fun e heq ↦ hopen e faults (heq ▸ rfl)) htaskHeard hstep
    have hloud : LoudStep n w (.stream n i' faults) ↔
        (task.cancelRequested = false → Loud w.sc.session task.phase i') := by
      constructor
      · exact fun hall ↦ hall i' faults task rfl htask
      · rintro hone _ _ _ ⟨⟩ htask'
        cases htask.symm.trans htask'
        exact hone
    have hiff : HeardFrom n w' (o ++ o') ↔ Heard task'.phase
        (frames (taskObs n o) ++ frames o₁) (texts (taskObs n o) ++ texts o₁) := by
      rw [HeardFrom, hphase', taskObs_append, hobs, frames_append, texts_append]
    refine ⟨hiff.trans (hverdict.iff.trans hloud.symm), fun hrunning ↦ hiff.mpr ?_⟩
    cases hverdict with
    | heard _ told => exact told
    | silent _ result ended _ _ =>
        exact absurd (hphase'.trans (congrArg some ended)) (hrunning result)

/-- In every run in which the socket of a task stays open, the task does not end but by a
cancellation or with the chunks of all texts sent and a terminal frame after them, exactly
if all its steps are loud. -/
theorem ends_answered_iff {t : FileTree} {s : Session} {is : List Input}
    (hdump : ∀ (m : OutputModel) (e : PyExc), ConfigCodec.dumpModel m = .error e → ¬ e.Handled)
    (h : (machine a).run (.init t s) is = some (w, o))
    (hopen : ∀ e faults, .stream n (.sendFails e) faults ∉ is) :
    (∀ js w₁ o₁, js <+: is → (machine a).run (.init t s) js = some (w₁, o₁) →
        EndsAnswered n w₁ o₁) ↔ (machine a).StepsMeet (LoudStep n) (.init t s) is := by
  have hstart : HeardFrom n (.init t s) [] := rfl
  refine Mealy.forall_prefix_iff_stepsMeet (I := HeardWhileRunning n)
    (A := fun i ↦ ∀ e faults, i ≠ .stream n (.sendFails e) faults)
    (heardFrom_iff.mp hstart).1 (heardFrom_iff.mp hstart).2 ?_ ?_ h ?_
  · intro w o i w' o' hi hrunning hs hrunning'
    refine (Step.heardFrom hdump (.of_step hs) hi (hrunning fun result hphase ↦ ?_)).2 hrunning'
    exact hrunning' result ((Step.of_step hs).phase?_of_finished hphase)
  · intro w o i w' o' hi hrunning hended hs
    have hstep := Step.heardFrom hdump (.of_step hs) hi (heardFrom_iff.mpr ⟨hrunning, hended⟩)
    rw [← hstep.1, heardFrom_iff]
    exact ⟨fun h' ↦ ⟨hstep.2, h'⟩, fun h' ↦ h'.2⟩
  · rintro i hi e faults rfl
    exact hopen e faults hi

end

/-! ## Runs to evaluate -/

/-- A client that sends a message, and the first thing the LLM does. -/
def sampleTurn (i : Session.Input) : List Input :=
  [.connects, .handler 0 .accepted, .handler 0 (.receives (some (.sendMessage "hi"))),
    .stream 0 (.runs (.ofNat 1)) [], .stream 0 (.resumes i) []]

/-- The LLM raises what is handled, and its client hears of it. -/
def sampleApiError : List Input :=
  sampleTurn (.raises (.anyLlmError "overloaded")) ++ [.stream 0 .sent []]

theorem loudStep_sampleApiError :
    sampleMachine.StepsMeet (@LoudStep .asciiOnly 0) sampleStart sampleApiError := by
  have hother : ∀ (w : State) (i : Input), (∀ i' faults, i ≠ .stream 0 i' faults) →
      @LoudStep .asciiOnly 0 w i := fun w i hi i' faults task heq ↦ absurd heq (hi i' faults)
  have hhandler : ∀ w h j, @LoudStep .asciiOnly 0 w (.handler h j) := by
    intro w h j
    refine hother w _ fun i' faults heq ↦ ?_
    cases heq
  refine .cons rfl ?_ ?_
  · refine hother _ _ fun i' faults heq ↦ ?_
    cases heq
  refine .cons rfl (hhandler _ _ _) ?_
  refine .cons rfl (hhandler _ _ _) ?_
  refine .cons rfl ?_ ?_
  · rintro i' faults task ⟨⟩ ⟨⟩ -
    trivial
  refine .cons rfl ?_ ?_
  · rintro i' faults task ⟨⟩ ⟨⟩ -
    trivial
  refine .cons rfl ?_ .nil
  rintro i' faults task ⟨⟩ ⟨⟩ -
  trivial

/-- The task has ended, and the client has its `ErrorFrame`. -/
theorem ends_answered_sampleApiError : ∃ w o,
    sampleMachine.run sampleStart sampleApiError = some (w, o) ∧
      w.phase? 0 = some (.finished none) ∧ EndsAnswered 0 w o := by
  obtain ⟨⟨w, o⟩, hrun, heval⟩ := Option.map_eq_some_iff.mp
    (show (sampleMachine.run sampleStart sampleApiError).map (fun r ↦ r.1.phase? 0) =
      some (some (.finished none)) from rfl)
  refine ⟨w, o, hrun, heval, ?_⟩
  refine (@ends_answered_iff .asciiOnly App.sampleCodec .sampleStore w o 0 App.sampleTree
    App.sampleSession sampleApiError ?_ hrun ?_).mpr loudStep_sampleApiError sampleApiError w o
    List.prefix_rfl hrun
  · intro m e he
    cases he
  · intro e faults hmem
    simp [sampleApiError, sampleTurn] at hmem

/-- The LLM raises what is not handled: the task ends, and its client hears nothing. -/
theorem ends_unanswered : ∃ w o,
    sampleMachine.run sampleStart (sampleTurn (.raises (.valueError "no such stop reason"))) =
      some (w, o) ∧ ¬ EndsAnswered 0 w o := by
  refine ⟨_, _, rfl, fun hended ↦ ?_⟩
  refine @StreamTask.not_answered [] ?_
  exact hended (some (.valueError "no such stop reason")) rfl nofun

end WsHandler
