import ChatServer.Domain.SessionStep
import ChatServer.Service.UseCases
import ChatServer.Web.Handler

/-!
# The live session and the stored one

A turn changes the live session step by step; the store hears of it once, when the
turn has run to its end.  What the store holds in between is told by a `Journal`,
which is kept of the trace alone: the session that was last saved, and whether the
live one has moved on since or a later save has failed half-way.

`Journal.Kept` connects the journal to the tree and the live session.  One step of
any stream task keeps it (`StreamTask.kept_step`), whatever suspends, raises or is
cancelled, and so does every run (`WsHandler.kept_of_run`).
-/

open FileTree

namespace SessionFileAdapter

/-- `get_session` gives the history, the strategy metadata and the lifecycle statistics
of a session.  It gives anything at all when the stored configurations resolve, as they
do if they need no file but that of their own prompt. -/
structure Agrees [SessionCodec] (a : SessionFileAdapter) (t : FileTree) (s : Session) : Prop where
  loads : (∃ c, resolveCompletionConfig t (serializedConfig s.completionConfig)
      (a.sessionDir s.id) = .ok c) →
    (∃ c, resolveCompletionConfig t (serializedConfig s.messageContextStrategy.completionConfig)
      (a.sessionDir s.id) = .ok c) → ∃ state, a.getSession t s.id = .ok state
  selfContained : s.completionConfig.SelfContained →
    s.messageContextStrategy.completionConfig.SelfContained →
      ∃ state, a.getSession t s.id = .ok state
  shows : ∀ state, a.getSession t s.id = .ok state →
    state.strategyRecords = s.messages ∧
      state.strategyMetadata = s.messageContextStrategy.getMetadata ∧
      state.statistics.getD ∅ = s.usageStats.lifecycleTotalData

/-- A session agrees with what a successful write of it left. -/
theorem Agrees.of_written [SessionCodec] {a : SessionFileAdapter} {t : FileTree} {s : Session}
    (hround : RoundTrips s) (h : a.Written t s) : a.Agrees t s := by
  obtain ⟨hid, hget⟩ := getSession_of_written hround h
  have hloads : (∃ c, resolveCompletionConfig t (serializedConfig s.completionConfig)
      (a.sessionDir s.id) = .ok c) →
    (∃ c, resolveCompletionConfig t (serializedConfig s.messageContextStrategy.completionConfig)
      (a.sessionDir s.id) = .ok c) → ∃ state, a.getSession t s.id = .ok state := by
    rintro ⟨c, hc⟩ ⟨c', hc'⟩
    refine ⟨stateOf s hid c c', ?_⟩
    rw [hget, hc, hc']
    rfl
  refine ⟨hloads, fun hmain hstrategy ↦ ?_, ?_⟩
  · obtain ⟨hc, hc'⟩ := restorable_of_no_output hmain hstrategy t h
    exact hloads hc hc'
  · intro state hstate
    rw [hget] at hstate
    obtain ⟨c, -, hstate⟩ := Py.bind_eq_ok.mp hstate
    obtain ⟨c', -, hstate⟩ := Py.bind_eq_ok.mp hstate
    cases hstate
    exact ⟨rfl, rfl, StatsData.getD_orNone _⟩

end SessionFileAdapter

namespace App

/-- How a session comes to be held in memory over a tree: it has just been created, or
loaded from a directory of its own whose metadata a strategy wrote. -/
inductive Opens [SessionCodec] [LlmPortFactory] (app : App) (t : FileTree) (s : Session) : Prop
  | created {t₀ : FileTree} {sessionId : String} {now : Datetime} {ref : StatsRef}
      {faults : List (Option Fault)}
      (create : app.createSession t₀ sessionId now ref faults = (t, .ok s))
      (round : SessionFileAdapter.RoundTrips s)
  | loaded {state : SessionState} {σ : MessageContextStrategy} {ref : StatsRef}
      (get : app.repository.getSession t state.id = .ok state)
      (type : state.strategyType = σ.strategyType)
      (metadata : state.strategyMetadata = σ.getMetadata)
      (restore : app.restoreSession state.id state ref = .ok s)

theorem getMetadata_withBase (σ : MessageContextStrategy) (b : StrategyBase) :
    (σ.withBase b).getMetadata = σ.getMetadata := by
  cases σ <;> rfl

/-- A loaded session shows what was stored. -/
theorem restoreSession_shows [LlmPortFactory] {app : App} {sessionId : String}
    {state : SessionState} {σ : MessageContextStrategy} {ref : StatsRef} {s : Session}
    (htype : state.strategyType = σ.strategyType)
    (hmetadata : state.strategyMetadata = σ.getMetadata)
    (h : app.restoreSession sessionId state ref = .ok s) :
    s.id = state.id ∧ state.strategyRecords = s.messages ∧
      state.strategyMetadata = s.messageContextStrategy.getMetadata ∧
      state.statistics.getD ∅ = s.usageStats.lifecycleTotalData := by
  obtain ⟨llm, -, h⟩ := Py.bind_eq_ok.mp h
  obtain ⟨strategyLlm, -, h⟩ := Py.bind_eq_ok.mp h
  obtain ⟨strategy, hbuild, h⟩ := Py.bind_eq_ok.mp h
  rw [htype, hmetadata, MessageContextStrategyFactory.build_getMetadata] at hbuild
  cases hbuild
  cases h
  refine ⟨rfl, ?_, ?_, rfl⟩
  · exact (congrArg StrategyBase.records
      (MessageContextStrategy.base_withBase ⟨_, _, state.strategyRecords⟩ σ)).symm
  · exact hmetadata.trans (getMetadata_withBase σ _).symm

theorem Opens.agrees [SessionCodec] [LlmPortFactory] {app : App} {t : FileTree} {s : Session}
    (h : app.Opens t s) : app.repository.Agrees t s := by
  cases h with
  | created create round => exact .of_written round (createSession_ok create).2
  | @loaded state σ ref get type metadata restore =>
      obtain ⟨hid, hshows⟩ := restoreSession_shows type metadata restore
      rw [← hid] at get
      refine ⟨fun _ _ ↦ ⟨state, get⟩, fun _ _ ↦ ⟨state, get⟩, fun state' hstate' ↦ ?_⟩
      obtain rfl : state = state' := Except.ok.inj (get.symm.trans hstate')
      exact hshows

end App

/-! ## The journal -/

/-- What the store holds, as far as the trace tells. -/
inductive Journal.Status where
  /-- The live session, as it was last saved. -/
  | current
  /-- What was last saved; a turn has advanced since. -/
  | behind
  /-- A save has failed since, perhaps half-way. -/
  | torn
deriving DecidableEq, Repr

/-- The session last saved and what happened since. -/
structure Journal where
  stored : Session
  status : Journal.Status := .current

namespace Journal

/-- Note an observation of a stream task. -/
def note (j : Journal) : StreamObs → Journal
  | .advanced _ => { j with status := if j.status = .torn then .torn else .behind }
  | .sends _ => j
  | .saved s => { stored := s }
  | .saveFailed _ => { j with status := .torn }

/-- The journal is right about a tree and a live session. -/
structure Kept [SessionCodec] (a : SessionFileAdapter) (j : Journal) (t : FileTree)
    (s : Session) : Prop where
  current : j.status = .current → s = j.stored
  agrees : j.status ≠ .torn → a.Agrees t j.stored
  messages : j.stored.messages <+: s.messages

section

variable [SessionCodec] {a : SessionFileAdapter} {j : Journal} {t : FileTree} {s : Session}

theorem Kept.advanced {s' : Session} (h : j.Kept a t s) (hm : s.messages <+: s'.messages)
    (o : List Session.Obs) : (j.note (.advanced o)).Kept a t s' := by
  refine ⟨?_, ?_, h.messages.trans hm⟩
  · intro hstatus
    simp only [note] at hstatus
    split at hstatus <;> cases hstatus
  · intro hstatus
    apply h.agrees
    intro htorn
    rw [note, if_pos htorn] at hstatus
    exact hstatus rfl

theorem Kept.saved (h : a.Agrees t s) : (j.note (.saved s)).Kept a t s :=
  ⟨fun _ ↦ rfl, fun _ ↦ h, List.prefix_rfl⟩

theorem Kept.saveFailed (h : j.Kept a t s) (t' : FileTree) (e : PyExc) :
    (j.note (.saveFailed e)).Kept a t' s :=
  ⟨nofun, fun hstatus ↦ absurd rfl hstatus, h.messages⟩

end

end Journal

/-! ## One step of a stream task -/

namespace StreamTask

open Journal

theorem note_onException (j : Journal) (e : PyExc) : (onException e).2.foldl note j = j := by
  cases e <;> rfl

section

variable [SessionCodec] {a : SessionFileAdapter} {j : Journal} {t t' : FileTree} {s s' : Session}
  {faults : List (Option Fault)}

theorem kept_onReturn (h : j.Kept a t s)
    (hround : .saved s ∈ (onReturn a t s faults).2.2 → SessionFileAdapter.RoundTrips s) :
    ((onReturn a t s faults).2.2.foldl note j).Kept a (onReturn a t s faults).1 s := by
  rw [onReturn] at hround ⊢
  cases hupdate : a.updateSession t s faults with
  | mk t' result =>
      cases result with
      | ok =>
          simp only [hupdate] at hround ⊢
          have hsaved := hround (List.mem_singleton_self _)
          exact Kept.saved (j := j) (.of_written hsaved (.of_updateSession hupdate))
      | error e =>
          simp only [List.foldl_cons, note_onException]
          exact h.saveFailed t' e

theorem kept_sendDone {event : SessionCompletionDoneEvent}
    {rest : List (String × String × ModelStats)} (h : j.Kept a t s)
    (hround : .saved s ∈ (sendDone a t s faults event rest).2.2 →
      SessionFileAdapter.RoundTrips s) :
    ((sendDone a t s faults event rest).2.2.foldl note j).Kept a
      (sendDone a t s faults event rest).1 s := by
  cases rest with
  | nil =>
      exact kept_onReturn (h.advanced List.prefix_rfl _) fun hmem ↦
        hround (List.mem_cons_of_mem _ hmem)
  | cons entry rest =>
      rw [sendDone]
      split
      · exact h
      · rw [note_onException]
        exact h

theorem kept_consume {phase : Option Session.Phase} {ob : Option Session.Obs} (h : j.Kept a t s)
    (hround : .saved s ∈ (consume a t s faults phase ob).2.2 → SessionFileAdapter.RoundTrips s) :
    ((consume a t s faults phase ob).2.2.foldl note j).Kept a (consume a t s faults phase ob).1
      s := by
  cases phase with
  | none =>
      cases ob with
      | none => exact kept_onReturn h hround
      | some ob =>
          cases ob with
          | raised e => exact (note_onException j e).symm ▸ h
          | _ => exact kept_onReturn h hround
  | some phase =>
      cases ob with
      | none => exact h
      | some ob =>
          cases ob with
          | yielded event =>
              cases event with
              | textChunk text => exact h
              | completionDone event => exact kept_sendDone h hround
          | _ => exact h

variable [UnicodeData]

theorem kept_advance {phase : Option Session.Phase} {i : Session.Input} {phase' : StreamPhase}
    {o : List StreamObs} (h : j.Kept a t s)
    (hs : advance a t s faults phase i = some ((t', s', phase'), o))
    (hround : .saved s' ∈ o → SessionFileAdapter.RoundTrips s') :
    (o.foldl note j).Kept a t' s' := by
  obtain ⟨⟨⟨s₁, p₁⟩, o₁⟩, hstep, heq⟩ := Option.map_eq_some_iff.mp hs
  obtain ⟨content, hmessages⟩ := (Session.Step.of_step hstep).messages
  have hadvanced := h.advanced (hmessages ▸ List.prefix_append _ _) o₁
  cases heq
  exact kept_consume hadvanced fun hmem ↦ hround (List.mem_cons_of_mem _ hmem)

theorem kept_stepPhase {content : String} {phase phase' : StreamPhase} {i : StreamInput}
    {o : List StreamObs} (h : j.Kept a t s)
    (hs : stepPhase a t s faults content phase i = some ((t', s', phase'), o))
    (hround : .saved s' ∈ o → SessionFileAdapter.RoundTrips s') :
    (o.foldl note j).Kept a t' s' := by
  have hexcept : ∀ e, ((onException e).2.foldl note j).Kept a t s := by
    intro e
    rw [note_onException]
    exact h
  cases phase with
  | created =>
      cases i with
      | runs uuid4 => exact kept_advance h hs hround
      | _ => cases hs
  | awaiting phase =>
      cases i with
      | resumes i => exact kept_advance h hs hround
      | _ => cases hs
  | sendingChunk phase =>
      cases i with
      | sent => exact kept_advance h hs hround
      | sendFails e =>
          cases hs
          exact hexcept e
      | _ => cases hs
  | sendingDone event rest =>
      cases i with
      | sent =>
          cases hs
          exact kept_sendDone h hround
      | sendFails e =>
          cases hs
          exact hexcept e
      | _ => cases hs
  | sendingError =>
      cases i with
      | sent | sendFails e =>
          cases hs
          exact h
      | _ => cases hs
  | finished result => cases i <;> cases hs

theorem kept_stepCancelled {phase phase' : StreamPhase} {o : List StreamObs} (h : j.Kept a t s)
    (hs : stepCancelled a t s faults phase = some ((t', s', phase'), o))
    (hround : .saved s' ∈ o → SessionFileAdapter.RoundTrips s') :
    (o.foldl note j).Kept a t' s' := by
  cases phase with
  | awaiting phase => exact kept_advance h hs hround
  | finished result => cases hs
  | _ =>
      cases hs
      exact h

/-- **One step** of a stream task keeps the journal. -/
theorem kept_step {task task' : StreamTask} {i : StreamInput} {o : List StreamObs}
    (h : j.Kept a t s) (hs : step a t s faults task i = some ((t', s', task'), o))
    (hround : .saved s' ∈ o → SessionFileAdapter.RoundTrips s') :
    (o.foldl note j).Kept a t' s' := by
  obtain ⟨⟨⟨t₁, s₁, phase⟩, o₁⟩, hnext, heq⟩ := Option.map_eq_some_iff.mp hs
  cases heq
  split at hnext
  · split at hnext
    · exact kept_stepCancelled h hnext hround
    · cases hnext
  · exact kept_stepPhase h hnext hround

end

end StreamTask

/-! ## Every run -/

namespace WsHandler

/-- The journal of a trace on a session that was held with the store in agreement. -/
def journal (s : Session) (o : List Obs) : Journal :=
  (o.filterMap Obs.stream?).foldl Journal.note { stored := s }

/-- Every run keeps the journal. -/
theorem kept_of_run [UnicodeData] [SessionCodec] {a : SessionFileAdapter} {t : FileTree}
    {s : Session} {is : List Input} {w : State} {o : List Obs} (hstart : a.Agrees t s)
    (h : (machine a).run (.init t s) is = some (w, o))
    (hround : ∀ n s', .stream n (.saved s') ∈ o → SessionFileAdapter.RoundTrips s') :
    (journal s o).Kept a w.tree w.sc.session := by
  revert hround
  refine Mealy.run_induction (P := fun _ w o ↦
    (∀ n s', .stream n (.saved s') ∈ o → SessionFileAdapter.RoundTrips s') →
      (journal s o).Kept a w.tree w.sc.session) ?_ ?_ h
  · exact fun _ ↦ ⟨fun _ ↦ rfl, fun _ ↦ hstart, List.prefix_rfl⟩
  · intro is w o i w' o' ih hs hround
    have hbefore := ih fun n s' hmem ↦ hround n s' (List.mem_append_left _ hmem)
    rw [journal, List.filterMap_append, List.foldl_append]
    rcases step_cases hs with hframe | ⟨n, i', faults, task, task', o', -, -, hstep, -, rfl⟩
    · rw [hframe.silent, hframe.tree, hframe.session]
      exact hbefore
    · rw [filterMap_stream?_map]
      exact StreamTask.kept_step hbefore hstep fun hmem ↦
        hround n _ (List.mem_append_right _ (List.mem_map_of_mem hmem))

end WsHandler

namespace App

open WsHandler

/-- In every state the server can reach on a session held in the registry, whatever
its clients, the LLMs and the storage do: when no turn has advanced since the last
successful `update_session`, the store and the live session agree; else, unless an
`update_session` has failed since, the store still agrees with the session as it was
last saved, whose history is a prefix of the live one. -/
theorem store_of_run [UnicodeData] [SessionCodec] [LlmPortFactory] {app : App} {t : FileTree}
    {s : Session} {is : List WsHandler.Input} {w : State} {o : List WsHandler.Obs}
    (hopen : app.Opens t s) (h : (machine app.repository).run (.init t s) is = some (w, o))
    (hround : ∀ n s', .stream n (.saved s') ∈ o → SessionFileAdapter.RoundTrips s') :
    ((journal s o).status = .current → app.repository.Agrees w.tree w.sc.session) ∧
      ((journal s o).status ≠ .torn → app.repository.Agrees w.tree (journal s o).stored) ∧
      (journal s o).stored.messages <+: w.sc.session.messages := by
  have hkept := kept_of_run hopen.agrees h hround
  refine ⟨fun hstatus ↦ ?_, hkept.agrees, hkept.messages⟩
  rw [hkept.current hstatus]
  exact hkept.agrees fun htorn ↦ by cases hstatus.symm.trans htorn

/-- The server holds the session `s`, just created. -/
def sampleState : State :=
  .init (@createSession sampleFactory sampleCodec sample sampleTree "s" ⟨0⟩ ⟨0⟩ []).1 sampleSession

theorem opens_sample : @Opens sampleCodec sampleFactory sample sampleState.tree sampleSession :=
  @Opens.created sampleCodec sampleFactory sample _ _ sampleTree "s" ⟨0⟩ ⟨0⟩ []
    (Prod.snd_eq_iff.mp (by decide +kernel)) (roundTrips_sample rfl rfl rfl rfl (Or.inl ⟨rfl, rfl⟩))

/-- A client connects and sends its first message. -/
def sampleFrames : List WsHandler.Input :=
  [.connects, .handler 0 .accepted, .handler 0 (.receives (some (.sendMessage "hi"))),
    .stream 0 (.runs (.ofNat 1)) []]

/-- The LLM answers, and all frames are sent. -/
def sampleAnswer : List WsHandler.Input :=
  [.stream 0 (.resumes (.event (.textChunk "yo"))) [], .stream 0 .sent [],
    .stream 0 (.resumes (.event (.completionDone ⟨"p", "m", ⟨1, 2⟩, .stop, 0⟩))) [],
    .stream 0 (.resumes (.mainEnds (.ofNat 2) 0)) [], .stream 0 .sent []]

/-- The sessions a trace saves. -/
def savedIn (o : List WsHandler.Obs) : List Session :=
  o.filterMap fun ob ↦
    match ob with
    | .stream _ (.saved s) => some s
    | _ => none

theorem mem_savedIn {o : List WsHandler.Obs} {n : ℕ} {s : Session}
    (h : .stream n (.saved s) ∈ o) : s ∈ savedIn o :=
  List.mem_filterMap.mpr ⟨_, h, rfl⟩

/-- After the first turn the store agrees with the live session. -/
theorem store_of_sampleAnswer : ∃ w o,
    (@machine .asciiOnly sampleCodec sample.repository).run sampleState
      (sampleFrames ++ sampleAnswer) = some (w, o) ∧ w.Idle ∧ w.sc.session = sampleTold ∧
      @SessionFileAdapter.Agrees sampleCodec sample.repository w.tree w.sc.session := by
  obtain ⟨⟨w, o⟩, hrun, heval⟩ := Option.map_eq_some_iff.mp
    (show ((@machine .asciiOnly sampleCodec sample.repository).run sampleState
        (sampleFrames ++ sampleAnswer)).map (fun r ↦ (r.1.sc.session, r.1.tasks, savedIn r.2,
          (journal sampleSession r.2).status)) =
      some (sampleTold, [⟨0, "hi", .finished none, false⟩], [sampleTold], .current) by
        decide +kernel)
  simp only [Prod.mk.injEq] at heval
  obtain ⟨hsession, htasks, hsaved, hstatus⟩ := heval
  have hround : @SessionFileAdapter.RoundTrips sampleCodec sampleTold :=
    roundTrips_sample rfl rfl rfl rfl (Or.inr ⟨rfl, by decide +kernel⟩)
  have hrounds : ∀ n s', .stream n (.saved s') ∈ o →
      @SessionFileAdapter.RoundTrips sampleCodec s' := by
    intro n s' hmem
    have hmem' := mem_savedIn hmem
    rw [hsaved, List.mem_singleton] at hmem'
    exact hmem' ▸ hround
  obtain ⟨hagrees, -, -⟩ := @store_of_run .asciiOnly sampleCodec sampleFactory sample _
    sampleSession (sampleFrames ++ sampleAnswer) w o opens_sample hrun hrounds
  refine ⟨w, o, hrun, ?_, hsession, hagrees hstatus⟩
  rw [State.Idle, htasks]
  decide

/-- When the LLM fails, no task is left, and the question is in the live history only. -/
theorem question_not_stored : ∃ w o state,
    (@machine .asciiOnly sampleCodec sample.repository).run sampleState (sampleFrames ++
      [.stream 0 (.resumes (.raises (.anyLlmError "overloaded"))) [], .stream 0 .sent []]) =
        some (w, o) ∧ w.Idle ∧
      @SessionFileAdapter.getSession sampleCodec sample.repository w.tree w.sc.session.id =
        .ok state ∧ state.strategyRecords ≠ w.sc.session.messages := by
  obtain ⟨⟨w, o⟩, hrun, heval⟩ := Option.map_eq_some_iff.mp
    (show ((@machine .asciiOnly sampleCodec sample.repository).run sampleState (sampleFrames ++
        [.stream 0 (.resumes (.raises (.anyLlmError "overloaded"))) [], .stream 0 .sent []])).map
          (fun r ↦ (r.1.tasks, r.1.sc.session.messages.length,
            ((@SessionFileAdapter.getSession sampleCodec sample.repository r.1.tree
              r.1.sc.session.id).toOption.map fun state ↦ state.strategyRecords.length))) =
      some ([⟨0, "hi", .finished none, false⟩], 1, some 0) by decide +kernel)
  simp only [Prod.mk.injEq] at heval
  obtain ⟨htasks, hlive, hstored⟩ := heval
  obtain ⟨state, hstate, hlength⟩ := Option.map_eq_some_iff.mp hstored
  refine ⟨w, o, state, hrun, ?_, ?_, fun heq ↦ ?_⟩
  · rw [State.Idle, htasks]
    decide
  · exact Py.ok_of_toOption hstate
  · rw [heq, hlive] at hlength
    cases hlength

end App
