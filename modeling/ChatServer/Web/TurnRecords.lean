import ChatServer.Domain.SessionStep
import ChatServer.Web.Client

/-!
# The turns of a chat

What one step of a chat of `ChatServer.Web.Client` does, as far as its turns are concerned, in
a run in which no message is taken too early.  A message is asked, a task is made for it, the
task goes on and sends a frame, and the client hears it (`Chat.Move`); everything else leaves the
turns alone (`Chat.Quiet`).

A turn records its message when it first runs, and its answer when the stream of the main LLM
has ended.  The answer is the text of the chunks it has sent by then, and it sends none after it
(`StreamTask.recorded_step`).  Only the last task has anything left to send or to record, so
the history of the session is put together turn by turn (`Chat.Records`).
-/

open StreamTask

/-! ## What a task says in one step -/

/-- The text a frame adds to an answer. -/
def ServerFrame.delta : ServerFrame → String
  | .chunk delta => delta
  | _ => ""

/-- An answer after the frames. -/
def hear (text : String) (fs : List ServerFrame) : String :=
  fs.foldl (fun text f ↦ text ++ f.delta) text

@[simp] theorem hear_nil (text : String) : hear text [] = text := rfl

@[simp] theorem hear_append (text : String) (fs gs : List ServerFrame) :
    hear text (fs ++ gs) = hear (hear text fs) gs := List.foldl_append

theorem hear_concat (text : String) (fs : List ServerFrame) (f : ServerFrame) :
    hear text (fs ++ [f]) = hear text fs ++ f.delta := hear_append text fs [f]

theorem ServerFrame.eq_of_doneFrame {event : SessionCompletionDoneEvent} {provider model : String}
    {stats : ModelStats} {frame : ServerFrame}
    (h : doneFrame event provider model stats = .ok frame) :
    frame = .done provider model stats.usage event.stopReason event.elapsedS stats.cost := by
  rw [doneFrame] at h
  split at h
  · cases h
  · exact (Except.ok.inj h).symm

namespace StreamTask

/-- There is at most one frame, and it is not the answer to a ping. -/
def Single (fs : List ServerFrame) : Prop := fs = [] ∨ ∃ f, f ≠ .pong ∧ fs = [f]

/-- What a turn has recorded of its message, and of the text it has told, by its phase. -/
def Recorded (content text : String) : StreamPhase → List Message → Prop
  | .created, ms => ms = [] ∧ text = ""
  | .awaiting (.main t _), ms | .sendingChunk (.chunk t _), ms =>
      ms = [Message.of "user" content] ∧ t = text
  | .awaiting (.summary ..), ms | .sendingDone .., ms | .sendingError, ms | .finished _, ms =>
      ms <+: [Message.of "user" content, Message.of "assistant" text]
  | .awaiting _, _ | .sendingChunk _, _ => False

/-- In whatever phase, it has recorded the message, or the message and the text, or
nothing. -/
theorem Recorded.isPrefix {content text : String} {phase : StreamPhase} {ms : List Message}
    (h : Recorded content text phase ms) :
    ms <+: [Message.of "user" content, Message.of "assistant" text] := by
  cases phase with
  | created =>
      rw [h.1]
      exact List.nil_prefix
  | awaiting phase =>
      cases phase with
      | main t stop =>
          rw [h.1]
          exact List.prefix_append [Message.of "user" content] _
      | summary stop t => exact h
      | chunk t stop | done => cases h
  | sendingChunk phase =>
      cases phase with
      | chunk t stop =>
          rw [h.1]
          exact List.prefix_append [Message.of "user" content] _
      | main t stop | summary stop t | done => cases h
  | sendingDone event rest => exact h
  | sendingError => exact h
  | finished result => exact h

section

variable {content text : String} {ms : List Message}

theorem single_onException (e : PyExc) : Single (frames (onException e).2) := by
  cases e with
  | authenticationError message | anyLlmError message =>
      refine Or.inr ⟨_, ?_, rfl⟩
      exact nofun
  | _ => exact Or.inl rfl

theorem frames_onException {e : PyExc} (h : e.Handled → e = .cancelledError) :
    frames (onException e).2 = [] := by
  cases e with
  | authenticationError message | anyLlmError message => cases h trivial
  | _ => rfl

theorem recorded_onException (e : PyExc)
    (h : ms <+: [Message.of "user" content, Message.of "assistant" text]) :
    Recorded content (hear text (frames (onException e).2)) (onException e).1 ms := by
  cases e with
  | authenticationError message | anyLlmError message =>
      have htext : text ++ "" = text := String.append_empty
      show ms <+: [Message.of "user" content, Message.of "assistant" (text ++ "")]
      rwa [htext]
  | _ => exact h

variable [SessionCodec] {a : SessionFileAdapter} {t t' : FileTree} {s s' : Session}
  {faults : List (Option FileTree.Fault)}

theorem single_onReturn : Single (frames (onReturn a t s faults).2.2) := by
  rw [onReturn]
  split
  · exact Or.inl rfl
  · exact single_onException _

theorem frames_onReturn
    (hdump : ∀ (m : OutputModel) (e : PyExc), ConfigCodec.dumpModel m = .error e → ¬ e.Handled) :
    frames (onReturn a t s faults).2.2 = [] := by
  rw [onReturn]
  split
  · rfl
  · rename_i t' e hupdate
    apply frames_onException
    intro hhandled
    exact absurd hhandled (SessionFileAdapter.not_handled_of_updateSession hdump hupdate)

theorem recorded_onReturn
    (h : ms <+: [Message.of "user" content, Message.of "assistant" text]) :
    Recorded content (hear text (frames (onReturn a t s faults).2.2))
      (onReturn a t s faults).2.1 ms := by
  rw [onReturn]
  split
  · exact h
  · exact recorded_onException _ h

theorem single_sendDone (event : SessionCompletionDoneEvent)
    (rest : List (String × String × ModelStats)) :
    Single (frames (sendDone a t s faults event rest).2.2) := by
  cases rest with
  | nil => exact single_onReturn
  | cons entry rest =>
      rw [sendDone]
      split
      · rename_i frame hframe
        cases ServerFrame.eq_of_doneFrame hframe
        refine Or.inr ⟨_, ?_, rfl⟩
        intro h
        cases h
      · exact single_onException _

theorem recorded_sendDone (event : SessionCompletionDoneEvent)
    (rest : List (String × String × ModelStats))
    (h : ms <+: [Message.of "user" content, Message.of "assistant" text]) :
    Recorded content (hear text (frames (sendDone a t s faults event rest).2.2))
      (sendDone a t s faults event rest).2.1 ms := by
  cases rest with
  | nil => exact recorded_onReturn h
  | cons entry rest =>
      rw [sendDone]
      split
      · rename_i frame hframe
        cases ServerFrame.eq_of_doneFrame hframe
        have htext : text ++ "" = text := String.append_empty
        show ms <+: [Message.of "user" content, Message.of "assistant" (text ++ "")]
        rwa [htext]
      · exact recorded_onException _ h

theorem single_consume (phase : Option Session.Phase) (ob : Option Session.Obs) :
    Single (frames (consume a t s faults phase ob).2.2) := by
  cases phase with
  | none =>
      cases ob with
      | none => exact single_onReturn
      | some ob =>
          cases ob with
          | raised e => exact single_onException e
          | _ => exact single_onReturn
  | some phase =>
      cases ob with
      | none => exact Or.inl rfl
      | some ob =>
          cases ob with
          | yielded event =>
              cases event with
              | textChunk text => exact Or.inr ⟨.chunk text, nofun, rfl⟩
              | completionDone event => exact single_sendDone event _
          | _ => exact Or.inl rfl

variable [UnicodeData] {o : List StreamObs}

theorem single_advance {phase : Option Session.Phase} {i : Session.Input} {phase' : StreamPhase}
    (hs : advance a t s faults phase i = some ((t', s', phase'), o)) : Single (frames o) := by
  obtain ⟨⟨⟨s₁, p₁⟩, o₁⟩, -, heq⟩ := Option.map_eq_some_iff.mp hs
  cases heq
  exact single_consume p₁ o₁.getLast?

/-- **One step** of a task that owes its client an end sends at most one frame, and a task
that owes nothing sends none. -/
theorem frames_step
    (hdump : ∀ (m : OutputModel) (e : PyExc), ConfigCodec.dumpModel m = .error e → ¬ e.Handled)
    {task task' : StreamTask} {i : StreamInput}
    (hs : task.step a t s faults i = some ((t', s', task'), o)) (honce : task.phase.EndsOnce i) :
    Single (frames o) ∧ (frames o ≠ [] → task.phase.owed = 1) := by
  obtain ⟨⟨⟨t₁, s₁, phase'⟩, o₁⟩, hnext, heq⟩ := Option.map_eq_some_iff.mp hs
  cases heq
  generalize task.phase = phase at hnext honce ⊢
  have hnone : ∀ {fs : List ServerFrame}, fs = [] → Single fs ∧ (fs ≠ [] → phase.owed = 1) :=
    fun hfs ↦ ⟨Or.inl hfs, fun hne ↦ absurd hfs hne⟩
  split at hnext
  · split at hnext
    · cases phase with
      | awaiting phase => exact ⟨single_advance hnext, fun _ ↦ rfl⟩
      | finished result => cases hnext
      | _ =>
          cases hnext
          exact hnone rfl
    · cases hnext
  · cases phase with
    | created =>
        cases i with
        | runs uuid4 => exact ⟨single_advance hnext, fun _ ↦ rfl⟩
        | _ => cases hnext
    | awaiting phase =>
        cases i with
        | resumes i => exact ⟨single_advance hnext, fun _ ↦ rfl⟩
        | _ => cases hnext
    | sendingChunk phase =>
        cases i with
        | sent => exact ⟨single_advance hnext, fun _ ↦ rfl⟩
        | sendFails e =>
            cases hnext
            exact ⟨single_onException e, fun _ ↦ rfl⟩
        | _ => cases hnext
    | sendingDone event rest =>
        cases i with
        | sent =>
            rw [show rest = [] from honce] at hnext
            cases hnext
            exact hnone (frames_onReturn hdump)
        | sendFails e =>
            cases hnext
            exact hnone (frames_onException honce)
        | _ => cases hnext
    | sendingError =>
        cases i with
        | sent | sendFails e =>
            cases hnext
            exact hnone rfl
        | _ => cases hnext
    | finished result => cases i <;> cases hnext

theorem content_step {task task' : StreamTask} {i : StreamInput}
    (hs : task.step a t s faults i = some ((t', s', task'), o)) :
    task'.content = task.content := by
  obtain ⟨r, -, heq⟩ := Option.map_eq_some_iff.mp hs
  cases heq
  rfl

/-- While the main LLM answers, the text told is the text of the phase, so the answer that is
recorded in the end is the text told. -/
theorem recorded_main (content : String) {stop : Option StopReason} {i : Session.Input}
    {phase' : StreamPhase}
    (hs : advance a t s faults (some (.main text stop)) i = some ((t', s', phase'), o)) :
    ∃ rs, s'.messages = s.messages ++ rs ∧ Recorded content (hear text (frames o)) phase'
      (Message.of "user" content :: rs.map (·.message)) := by
  obtain ⟨⟨⟨s₁, p₁⟩, o₁⟩, hstep, heq⟩ := Option.map_eq_some_iff.mp hs
  have hquestion : [Message.of "user" content] <+:
      [Message.of "user" content, Message.of "assistant" text] := List.prefix_append [_] _
  have hanswer : ∀ uuid4, (s.answer text uuid4).messages = s.messages ++
      [⟨uuid4, s.messages.getLast?.map (·.id), Message.of "assistant" text⟩] :=
    fun uuid4 ↦ MessageContextStrategy.getHistory_addModelResponse _ _ _
  cases Session.Step.of_step hstep with
  | mainText _ _ _ d =>
      cases heq
      exact ⟨[], (List.append_nil _).symm, rfl, rfl⟩
  | mainDone _ _ _ event =>
      cases heq
      exact ⟨[], (List.append_nil _).symm, rfl, rfl⟩
  | mainEndsFails _ _ _ uuid4 elapsedS e h =>
      cases heq
      exact ⟨_, hanswer uuid4, recorded_onException e (List.prefix_refl _)⟩
  | mainEnds _ _ _ uuid4 elapsedS h =>
      cases heq
      exact ⟨_, hanswer uuid4, recorded_sendDone _ _ (List.prefix_refl _)⟩
  | mainEndsSummary _ _ _ uuid4 elapsedS request h =>
      cases heq
      exact ⟨_, hanswer uuid4, List.prefix_refl _⟩
  | ends _ _ _ ob h =>
      cases h with
      | mainRaises _ _ e =>
          cases heq
          exact ⟨[], (List.append_nil _).symm, recorded_onException e hquestion⟩
      | mainCancelled =>
          cases heq
          exact ⟨[], (List.append_nil _).symm, hquestion⟩

/-- While the context is summarised nothing is recorded. -/
theorem recorded_summary {stop : Option StopReason} {summary : String} {i : Session.Input}
    {phase' : StreamPhase}
    (hs : advance a t s faults (some (.summary stop summary)) i = some ((t', s', phase'), o))
    (h : ms <+: [Message.of "user" content, Message.of "assistant" text]) :
    s'.messages = s.messages ∧ Recorded content (hear text (frames o)) phase' ms := by
  obtain ⟨⟨⟨s₁, p₁⟩, o₁⟩, hstep, heq⟩ := Option.map_eq_some_iff.mp hs
  cases Session.Step.of_step hstep with
  | summaryEvent =>
      cases heq
      exact ⟨rfl, h⟩
  | summaryEndsFails _ _ _ elapsedS e hend =>
      cases heq
      exact ⟨rfl, recorded_onException e h⟩
  | summaryEnds _ _ _ elapsedS strategy hend =>
      cases heq
      refine ⟨?_, recorded_sendDone _ _ h⟩
      exact congrArg StrategyBase.records (MessageContextStrategy.base_updateContextEnd hend)
  | ends _ _ _ ob hends =>
      cases hends with
      | summaryRaises _ _ e =>
          cases heq
          exact ⟨rfl, recorded_onException e h⟩
      | summaryCancelled =>
          cases heq
          exact ⟨rfl, h⟩

/-- **One step** of a task appends to the history what it records of its turn, and appends
nothing when it owes its client nothing any more. -/
theorem recorded_step {task task' : StreamTask} {i : StreamInput}
    (hs : task.step a t s faults i = some ((t', s', task'), o))
    (h : Recorded task.content text task.phase ms) :
    ∃ rs, s'.messages = s.messages ++ rs ∧
      Recorded task.content (hear text (frames o)) task'.phase (ms ++ rs.map (·.message)) ∧
        (rs ≠ [] → task.phase.owed = 1) := by
  obtain ⟨⟨⟨t₁, s₁, phase'⟩, o₁⟩, hnext, heq⟩ := Option.map_eq_some_iff.mp hs
  cases heq
  generalize task.phase = phase at hnext h ⊢
  have hprefix := h.isPrefix
  -- a step that leaves the session as it is
  have hkept : Recorded task.content (hear text (frames o)) phase' ms → s'.messages = s.messages →
      ∃ rs, s'.messages = s.messages ++ rs ∧
        Recorded task.content (hear text (frames o)) phase' (ms ++ rs.map (·.message)) ∧
          (rs ≠ [] → phase.owed = 1) := by
    intro hrecorded hmessages
    refine ⟨[], ?_, ?_, fun hne ↦ absurd rfl hne⟩
    · rw [hmessages, List.append_nil]
    · rw [List.map_nil, List.append_nil]
      exact hrecorded
  -- a step of the generator
  have hadvance : ∀ {p i}, phase = .awaiting p →
      advance a t s faults (some p) i = some ((t', s', phase'), o) →
      ∃ rs, s'.messages = s.messages ++ rs ∧
        Recorded task.content (hear text (frames o)) phase' (ms ++ rs.map (·.message)) ∧
          (rs ≠ [] → phase.owed = 1) := by
    rintro p i rfl hs
    cases p with
    | main t₀ stop =>
        obtain ⟨rfl, rfl⟩ := h
        obtain ⟨rs, hmessages, hrecorded⟩ := recorded_main task.content hs
        exact ⟨rs, hmessages, hrecorded, fun _ ↦ rfl⟩
    | summary stop t₀ =>
        obtain ⟨hmessages, hrecorded⟩ := recorded_summary hs h
        exact hkept hrecorded hmessages
    | chunk t₀ stop | done => cases h
  split at hnext
  · split at hnext
    · cases phase with
      | awaiting p => exact hadvance rfl hnext
      | finished result => cases hnext
      | _ =>
          cases hnext
          exact hkept hprefix rfl
    · cases hnext
  · cases phase with
    | created =>
        cases i with
        | runs uuid4 =>
            obtain ⟨rfl, rfl⟩ := h
            cases hnext
            refine ⟨_, MessageContextStrategy.getHistory_addUserQuery _ _ _, ⟨rfl, rfl⟩, ?_⟩
            exact fun _ ↦ rfl
        | _ => cases hnext
    | awaiting p =>
        cases i with
        | resumes i => exact hadvance rfl hnext
        | _ => cases hnext
    | sendingChunk p =>
        cases i with
        | sent =>
            cases p with
            | chunk t₀ stop =>
                cases hnext
                exact hkept h rfl
            | main t₀ stop | summary stop t₀ | done => cases h
        | sendFails e =>
            cases hnext
            exact hkept (recorded_onException e hprefix) rfl
        | _ => cases hnext
    | sendingDone event rest =>
        cases i with
        | sent =>
            cases hnext
            exact hkept (recorded_sendDone event rest hprefix) rfl
        | sendFails e =>
            cases hnext
            exact hkept (recorded_onException e hprefix) rfl
        | _ => cases hnext
    | sendingError =>
        cases i with
        | sent | sendFails e =>
            cases hnext
            exact hkept hprefix rfl
        | _ => cases hnext
    | finished result => cases i <;> cases hnext

end

end StreamTask

/-! ## The turns of a chat -/

namespace Chat

/-- What the handler and the tasks did. -/
def serverObs (o : List Obs) : List WsHandler.Obs :=
  o.filterMap fun
    | .server ob => some ob
    | .took _ => none

@[simp] theorem serverObs_append (o o' : List Obs) :
    serverObs (o ++ o') = serverObs o ++ serverObs o' := List.filterMap_append

@[simp] theorem serverObs_map (o : List WsHandler.Obs) : serverObs (o.map .server) = o := by
  rw [serverObs, List.filterMap_map]
  exact List.filterMap_some

/-- The frames the turn for the `n`th message sent. -/
def turnFrames (n : ℕ) (o : List Obs) : List ServerFrame :=
  frames (WsHandler.taskObs n (serverObs o))

@[simp] theorem turnFrames_append (n : ℕ) (o o' : List Obs) :
    turnFrames n (o ++ o') = turnFrames n o ++ turnFrames n o' := by
  rw [turnFrames, serverObs_append, WsHandler.taskObs_append, frames_append]
  rfl

theorem turnFrames_stream_self (n : ℕ) (o : List StreamObs) :
    turnFrames n ((o.map (WsHandler.Obs.stream n)).map .server) = frames o := by
  rw [turnFrames, serverObs_map, WsHandler.taskObs_stream_self]

theorem turnFrames_stream_of_ne {m n : ℕ} (h : m ≠ n) (o : List StreamObs) :
    turnFrames n ((o.map (WsHandler.Obs.stream m)).map .server) = [] := by
  rw [turnFrames, serverObs_map, WsHandler.taskObs_stream_of_ne h]
  rfl

/-- The phases of the tasks. -/
def phases (c : Chat) : List StreamPhase := c.server.tasks.map (·.phase)

/-- Their messages. -/
def contents (c : Chat) : List String := c.server.tasks.map (·.content)

theorem length_phases (c : Chat) : c.phases.length = c.server.tasks.length := List.length_map ..

theorem length_contents (c : Chat) : c.contents.length = c.server.tasks.length := List.length_map ..

theorem phases_of_task {c : Chat} {n : ℕ} {task : StreamTask}
    (h : c.server.tasks[n]? = some task) : c.phases[n]? = some task.phase := by
  rw [phases, List.getElem?_map, h]
  rfl

/-- The messages on their way. -/
def waiting (c : Chat) : List String :=
  c.toServer.filterMap fun
    | .sendMessage content => some content
    | _ => none

/-- The messages the client sent, in order: the loop has taken the first of them. -/
def questions (c : Chat) : List String := c.contents ++ c.waiting

/-- The frames of turns on their way back. -/
def pending (c : Chat) : List ServerFrame := c.toClient.filter (· ≠ .pong)

theorem length_filterMap_message (fs : List ClientFrame) :
    (fs.filterMap fun
      | .sendMessage content => some content
      | _ => none : List String).length = asked fs := by
  induction fs with
  | nil => rfl
  | cons f fs ih =>
      rw [asked_cons, ← ih]
      cases f <;> rfl

theorem length_waiting (c : Chat) : c.waiting.length = asked c.toServer :=
  length_filterMap_message c.toServer

/-- A frame on its way from a turn that tells of its end is one the client will count. -/
theorem mem_pending_terminal {c : Chat} (h : terminals c.toClient = 0) :
    ∀ f ∈ c.pending, ¬ f.IsTerminal := by
  intro f hf hterminal
  have hmem := (List.mem_filter.mp hf).1
  have hpos : 0 < terminals c.toClient :=
    List.countP_pos_iff.mpr ⟨f, hmem, decide_eq_true hterminal⟩
  omega

/-- The loop has made a task for a message. -/
def begun (c : Chat) (content : String) (rest : List ClientFrame) : Chat :=
  { c with server := c.server.addTask 0 content, toServer := rest }

/-- A task has gone on, and the frames it sent are under way. -/
def turned (c : Chat) (n : ℕ) (tree : FileTree) (session : Session) (task : StreamTask)
    (fs : List ServerFrame) : Chat :=
  { c with
    server := { c.server with
      tree
      sc := { c.server.sc with session }
      tasks := c.server.tasks.set n task }
    toClient := c.toClient ++ fs }

theorem phases_begun (c : Chat) (content : String) (rest : List ClientFrame) :
    (c.begun content rest).phases = c.phases ++ [.created] := List.map_append

theorem contents_begun (c : Chat) (content : String) (rest : List ClientFrame) :
    (c.begun content rest).contents = c.contents ++ [content] := List.map_append

theorem phases_turned (c : Chat) (n : ℕ) (tree : FileTree) (session : Session)
    (task : StreamTask) (fs : List ServerFrame) :
    (c.turned n tree session task fs).phases = c.phases.set n task.phase := List.map_set ..

theorem contents_turned {c : Chat} {n : ℕ} {tree : FileTree} {session : Session}
    {task task' : StreamTask} {fs : List ServerFrame} (htask : c.server.tasks[n]? = some task)
    (hkept : task'.content = task.content) :
    (c.turned n tree session task' fs).contents = c.contents := by
  have hcontent : c.contents[n]? = some task.content := by
    rw [contents, List.getElem?_map, htask]
    rfl
  obtain ⟨hlt, heq⟩ := List.getElem?_eq_some_iff.mp hcontent
  have hset : (c.turned n tree session task' fs).contents = c.contents.set n task'.content :=
    List.map_set ..
  rw [hset, hkept, ← heq]
  exact List.set_getElem_self hlt

theorem pending_turned (c : Chat) (n : ℕ) (tree : FileTree) (session : Session)
    (task : StreamTask) {fs : List ServerFrame} (hfs : Single fs) :
    (c.turned n tree session task fs).pending = c.pending ++ fs := by
  have happend : (c.turned n tree session task fs).pending =
      c.pending ++ fs.filter (· ≠ .pong) := List.filter_append ..
  rw [happend]
  rcases hfs with rfl | ⟨f, hf, rfl⟩
  · rfl
  · exact congrArg (c.pending ++ ·) (List.filter_cons_of_pos (decide_eq_true hf))

/-- Only the last task owes its client an end. -/
def LastOwes (c : Chat) : Prop :=
  ∀ n phase, c.phases[n]? = some phase → 0 < phase.owed → n + 1 = c.phases.length

/-- A step that no turn takes part in. -/
structure Quiet (c c' : Chat) (o : List Obs) : Prop where
  phases : c'.phases = c.phases
  contents : c'.contents = c.contents
  waiting : c'.waiting = c.waiting
  pending : c'.pending = c.pending
  streaming : c'.streaming = c.streaming
  session : c'.server.sc.session = c.server.sc.session
  silent : ∀ n, turnFrames n o = []

theorem phases_cancelTask (w : WsHandler.State) (n : ℕ) :
    (w.cancelTask n).tasks.map (·.phase) = w.tasks.map (·.phase) := by
  refine List.ext_getElem? fun m ↦ ?_
  rw [List.getElem?_map, List.getElem?_map]
  exact w.phase?_cancelTask n m

/-- A step of the handler that makes no task. -/
theorem Quiet.of_server {c : Chat} {w : WsHandler.State} {o : List WsHandler.Obs}
    {rest : List ClientFrame}
    (hphases : w.tasks.map (·.phase) = c.server.tasks.map (·.phase))
    (hcontents : w.tasks.map (·.content) = c.server.tasks.map (·.content))
    (hsession : w.sc.session = c.server.sc.session)
    (hwaiting : ({ c with toServer := rest } : Chat).waiting = c.waiting)
    (hpong : (o.filterMap sent?).filter (· ≠ .pong) = [])
    (hsilent : ∀ n, WsHandler.taskObs n o = []) :
    c.Quiet { c with
      server := w
      toServer := rest
      toClient := c.toClient ++ o.filterMap sent? } (o.map .server) where
  phases := hphases
  contents := hcontents
  waiting := hwaiting
  pending := by
    show (c.toClient ++ o.filterMap sent?).filter (· ≠ .pong) = _
    rw [List.filter_append, hpong, List.append_nil]
    rfl
  streaming := rfl
  session := hsession
  silent := by
    intro n
    rw [turnFrames, serverObs_map, hsilent n]
    rfl

/-- What a task owes is the one thing the client waits for. -/
theorem Balanced.owing {c : Chat} (h : c.Balanced) {n : ℕ} {phase : StreamPhase}
    (hn : c.phases[n]? = some phase) (howed : 0 < phase.owed) :
    asked c.toServer = 0 ∧ terminals c.toClient = 0 ∧ c.streaming = true := by
  have hdebt : asked c.toServer + owedBy c.server + terminals c.toClient ≤ c.streaming.toNat := h
  have hle : phase.owed ≤ owedBy c.server := by
    have hphase : (c.server.tasks.map (·.phase.owed))[n]? = some phase.owed := by
      rw [phases, List.getElem?_map] at hn
      rw [List.getElem?_map]
      obtain ⟨task, htask, rfl⟩ := Option.map_eq_some_iff.mp hn
      rw [htask]
      rfl
    exact (Nat.le_add_left _ _).trans (sum_set_add_le hphase (Nat.zero_add _).le)
  cases hstreaming : c.streaming with
  | false =>
      rw [hstreaming, Bool.toNat_false] at hdebt
      omega
  | true =>
      rw [hstreaming, Bool.toNat_true] at hdebt
      exact ⟨by omega, by omega, rfl⟩

/-- The history of the session since the chat began, turn by turn. -/
structure Records (before : List MessageRecord) (c : Chat) (o : List Obs)
    (recorded : ℕ → List MessageRecord) : Prop where
  history : c.server.sc.session.messages =
    before ++ (List.range c.phases.length).flatMap recorded
  turns : ∀ n phase content, c.phases[n]? = some phase → c.contents[n]? = some content →
    Recorded content (hear "" (turnFrames n o)) phase ((recorded n).map (·.message))
  fresh : ∀ n, c.phases.length ≤ n → recorded n = [] ∧ turnFrames n o = []

/-- The last of the turns has recorded more. -/
theorem flatMap_range_update {n m : ℕ} (f : ℕ → List MessageRecord) (rs : List MessageRecord)
    (h : n + 1 = m) : (List.range m).flatMap (Function.update f n (f n ++ rs)) =
      (List.range m).flatMap f ++ rs := by
  subst h
  rw [List.range_succ, List.flatMap_append, List.flatMap_append, List.append_assoc]
  refine congr (congrArg (· ++ ·) (List.flatMap_congr fun k hk ↦ ?_)) ?_
  · exact Function.update_of_ne (List.mem_range.mp hk).ne _ _
  · rw [List.flatMap_singleton, List.flatMap_singleton, Function.update_self]

section

variable [UnicodeData] [SessionCodec]

/-- What a step does to the turns, in a chat in which no message is refused. -/
inductive Move (a : SessionFileAdapter) (c : Chat) : Input → Chat → List Obs → Prop where
  | quiet (i : Input) (c' : Chat) (o : List Obs) (hquiet : c.Quiet c' o)
      (hsends : ∀ content, i ≠ .sends (.sendMessage content))
      (hreceives : i = .receives → ∃ rest, c.toClient = .pong :: rest) : Move a c i c' o
  | asks (content : String) (idle : c.streaming = false) :
      Move a c (.sends (.sendMessage content))
        { c with streaming := true, toServer := c.toServer ++ [.sendMessage content] } []
  | hears (frame : ServerFrame) (rest : List ServerFrame) (hturn : frame ≠ .pong)
      (hqueue : c.toClient = frame :: rest) :
      Move a c .receives
        { c with
          streaming := if frame.IsTerminal then false else c.streaming
          toClient := rest } []
  | begins (content : String) (rest : List ClientFrame)
      (hqueue : c.toServer = .sendMessage content :: rest) :
      Move a c .takes (c.begun content rest) [.took (.sendMessage content)]
  | turn (n : ℕ) (i : StreamInput) (faults : List (Option FileTree.Fault))
      (task task' : StreamTask) (tree : FileTree) (session : Session) (o : List StreamObs)
      (htask : c.server.tasks[n]? = some task)
      (hstep : task.step a c.server.tree c.server.sc.session faults i =
        some ((tree, session, task'), o)) :
      Move a c (.server (.stream n i faults)) (c.turned n tree session task' (frames o))
        ((o.map (WsHandler.Obs.stream n)).map .server)

variable {a : SessionFileAdapter} {c c' : Chat} {i : Input} {o : List Obs}

/-- What the loop does with the next frame. -/
theorem Move.of_takes {frame : ClientFrame} {rest : List ClientFrame} {w : WsHandler.State}
    {o : List WsHandler.Obs}
    (hs : WsHandler.Step a c.server (.handler 0 (.receives (some frame))) w o)
    (hbalanced : c.Balanced) (hqueue : c.toServer = frame :: rest)
    (hafter : c.AfterTheEnd .takes) :
    Move a c .takes { c with
      server := w
      toServer := rest
      toClient := c.toClient ++ o.filterMap sent? } (.took frame :: o.map .server) := by
  have hquiet : ∀ {c'}, c.Quiet c' (o.map .server) →
      Move a c .takes c' (.took frame :: o.map .server) := by
    intro c' h
    refine .quiet _ _ _ ?_ (fun _ heq ↦ ?_) (fun heq ↦ ?_)
    · exact ⟨h.phases, h.contents, h.waiting, h.pending, h.streaming, h.session, h.silent⟩
    · cases heq
    · cases heq
  cases hs with
  | ping h hh =>
      refine hquiet (.of_server rfl rfl rfl ?_ rfl fun n ↦ rfl)
      rw [waiting, waiting, hqueue]
      rfl
  | cancel h n hh busy =>
      refine hquiet (.of_server (phases_cancelTask _ n) (contents_cancelTask _ n) rfl ?_ rfl
        fun n ↦ rfl)
      rw [waiting, waiting, hqueue]
      rfl
  | cancelNothing h hh idle =>
      refine hquiet (.of_server rfl rfl rfl ?_ rfl fun n ↦ rfl)
      rw [waiting, waiting, hqueue]
      rfl
  | refuseMessage h n content hh busy =>
      -- the message itself is what the client is streaming for, so nothing else is owed
      have hdebt : asked c.toServer + owedBy c.server + terminals c.toClient ≤ 1 :=
        hbalanced.trans (Bool.toNat_le _)
      have hmessage : (ClientFrame.sendMessage content).IsMessage := trivial
      rw [hqueue, asked_cons, if_pos hmessage] at hdebt
      have hidle := busy?_eq_none (by omega) (hafter content rest hqueue)
      cases hidle.symm.trans busy
  | sendMessage h content hh idle =>
      have hmove := Move.begins (a := a) content rest hqueue
      rwa [begun, ← List.append_nil c.toClient] at hmove

/-- Inversion of the step function, in a chat in balance. -/
theorem Move.of_step (hs : step a c i = some (c', o)) (hbalanced : c.Balanced)
    (hafter : c.AfterTheEnd i) : Move a c i c' o := by
  cases i with
  | sends frame =>
      cases frame with
      | sendMessage content =>
          simp only [step] at hs
          split at hs
          · split at hs
            · cases hs
            · rename_i hstreaming
              cases hs
              exact .asks content (Bool.eq_false_of_not_eq_true hstreaming)
          · rename_i hmessage
            exact absurd trivial hmessage
      | cancel | ping =>
          cases hs
          refine .quiet _ _ _ ?_ (fun _ heq ↦ ?_) (fun heq ↦ ?_)
          · refine ⟨rfl, rfl, ?_, rfl, rfl, rfl, fun n ↦ rfl⟩
            rw [waiting, waiting, List.filterMap_append]
            exact List.append_nil _
          · cases heq
          · cases heq
  | receives =>
      simp only [step] at hs
      split at hs
      · cases hs
      · rename_i frame rest hqueue
        cases hs
        by_cases hpong : frame = .pong
        · subst hpong
          refine .quiet _ _ _ ?_ (fun _ heq ↦ ?_) (fun _ ↦ ⟨rest, hqueue⟩)
          · refine ⟨rfl, rfl, rfl, ?_, rfl, rfl, fun n ↦ rfl⟩
            rw [pending, pending, hqueue]
            rfl
          · cases heq
        · exact .hears frame rest hpong hqueue
  | takes =>
      simp only [step] at hs
      split at hs
      · cases hs
      · rename_i frame rest hqueue
        obtain ⟨⟨w', o'⟩, hstep, heq⟩ := Option.map_eq_some_iff.mp hs
        cases heq
        exact .of_takes (.of_step hstep) hbalanced hqueue hafter
  | server i =>
      simp only [step] at hs
      split at hs
      · rename_i hi
        obtain ⟨⟨w', o'⟩, hstep, heq⟩ := Option.map_eq_some_iff.mp hs
        cases heq
        have hquiet : c.Quiet (c.push (w', o')).1 (c.push (w', o')).2 →
            Move a c (.server i) (c.push (w', o')).1 (c.push (w', o')).2 := by
          refine fun h ↦ .quiet _ _ _ h (fun _ heq ↦ ?_) (fun heq ↦ ?_)
          · cases heq
          · cases heq
        cases WsHandler.Step.of_step hstep with
        | connects | connectsTaken | malformed | ping | cancel | cancelNothing | refuseMessage
        | sendMessage => exact absurd hi id
        | leaves h n phase hh hphase busy =>
            exact hquiet (.of_server (phases_cancelTask _ n) (contents_cancelTask _ n) rfl rfl rfl
              fun n ↦ rfl)
        | stream n i faults task task' tree session o htask hrun =>
            have hmove := Move.turn n i faults task task' tree session o htask hrun
            rwa [turned, ← filterMap_sent?_stream n o] at hmove
        | _ => exact hquiet (.of_server rfl rfl rfl rfl rfl fun n ↦ rfl)
      · cases hs

/-- **Each step** leaves only the last task owing its client an end. -/
theorem LastOwes.move
    (hdump : ∀ (m : OutputModel) (e : PyExc), ConfigCodec.dumpModel m = .error e → ¬ e.Handled)
    (h : c.LastOwes) (hm : Move a c i c' o) (hbalanced : c.Balanced) (hafter : c.AfterTheEnd i) :
    c'.LastOwes := by
  cases hm with
  | quiet i c' o hquiet hsends hreceives =>
      intro n phase hn howed
      rw [hquiet.phases] at hn ⊢
      exact h n phase hn howed
  | asks content idle => exact h
  | hears frame rest hturn hqueue => exact h
  | begins content rest hqueue =>
      intro n phase hn howed
      rw [phases_begun] at hn ⊢
      rcases List.getElem?_concat_iff.mp hn with hn | ⟨rfl, rfl⟩
      · -- the message was on its way, so no task owed anything
        obtain ⟨hasked, -, -⟩ := hbalanced.owing hn howed
        rw [hqueue, asked_cons, if_pos (show (ClientFrame.sendMessage content).IsMessage from
          trivial)] at hasked
        omega
      · rw [List.length_append]
        rfl
  | turn n i faults task task' tree session o htask hstep =>
      intro m phase hm howed
      rw [phases_turned] at hm ⊢
      rw [List.length_set]
      rcases (List.getElem?_set_iff (phases_of_task htask)).mp hm with ⟨rfl, rfl⟩ | ⟨-, hm⟩
      · have hle := owed_step hdump hstep (hafter task htask)
        exact h m _ (phases_of_task htask) (by omega)
      · exact h m phase hm howed

/-- **Each step** appends to the history what the turn it belongs to records. -/
theorem Records.move {before : List MessageRecord} {o₁ : List Obs}
    {recorded : ℕ → List MessageRecord} (h : c.Records before o₁ recorded)
    (hm : Move a c i c' o) (hlast : c.LastOwes) :
    ∃ recorded', c'.Records before (o₁ ++ o) recorded' := by
  cases hm with
  | quiet i c' o hquiet hsends hreceives =>
      refine ⟨recorded, ?_, ?_, ?_⟩
      · rw [hquiet.session, hquiet.phases]
        exact h.history
      · intro n phase content hn hcontent
        rw [turnFrames_append, hquiet.silent, List.append_nil]
        rw [hquiet.phases] at hn
        rw [hquiet.contents] at hcontent
        exact h.turns n phase content hn hcontent
      · intro n hn
        rw [turnFrames_append, hquiet.silent, List.append_nil]
        rw [hquiet.phases] at hn
        exact h.fresh n hn
  | asks content idle =>
      rw [List.append_nil]
      exact ⟨recorded, h.history, h.turns, h.fresh⟩
  | hears frame rest hturn hqueue =>
      rw [List.append_nil]
      exact ⟨recorded, h.history, h.turns, h.fresh⟩
  | begins content rest hqueue =>
      have hsilent : ∀ n, turnFrames n (o₁ ++ [.took (.sendMessage content)]) =
          turnFrames n o₁ := by
        intro n
        rw [turnFrames_append]
        exact List.append_nil _
      obtain ⟨hnone, hquiet⟩ := h.fresh c.phases.length le_rfl
      refine ⟨recorded, ?_, ?_, ?_⟩
      · rw [phases_begun, List.length_append, List.length_singleton, List.range_succ,
          List.flatMap_append, List.flatMap_singleton, hnone, List.append_nil]
        exact h.history
      · intro n phase content' hn hcontent
        rw [hsilent]
        rw [phases_begun] at hn
        rw [contents_begun] at hcontent
        have hlength : c.phases.length = c.contents.length := by
          rw [length_phases, length_contents]
        rcases List.getElem?_concat_iff.mp hn with hn | ⟨rfl, rfl⟩
        · rcases List.getElem?_concat_iff.mp hcontent with hcontent | ⟨rfl, rfl⟩
          · exact h.turns n phase content' hn hcontent
          · exact absurd (List.getElem?_eq_some_iff.mp hn).1 (by omega)
        · rw [hnone, hquiet]
          exact ⟨rfl, rfl⟩
      · intro n hn
        rw [hsilent]
        rw [phases_begun, List.length_append] at hn
        exact h.fresh n (by omega)
  | turn n i faults task task' tree session o htask hstep =>
      have hn := phases_of_task htask
      have hcontent : c.contents[n]? = some task.content := by
        rw [contents, List.getElem?_map, htask]
        rfl
      obtain ⟨rs, hmessages, hrecorded, howed⟩ :=
        recorded_step hstep (h.turns n _ _ hn hcontent)
      refine ⟨Function.update recorded n (recorded n ++ rs), ?_, ?_, ?_⟩
      · show session.messages = before ++ _
        rw [hmessages, h.history, phases_turned, List.length_set, List.append_assoc]
        refine congrArg (before ++ ·) ?_
        by_cases hnil : rs = []
        · rw [hnil, List.append_nil, List.append_nil, Function.update_eq_self]
        · have hpos : 0 < task.phase.owed := by
            rw [howed hnil]
            exact one_pos
          exact (flatMap_range_update recorded rs (hlast n _ hn hpos)).symm
      · intro m phase content' hm hcontent'
        rw [phases_turned] at hm
        rw [contents_turned htask (content_step hstep)] at hcontent'
        rw [turnFrames_append]
        rcases (List.getElem?_set_iff hn).mp hm with ⟨rfl, rfl⟩ | ⟨hne, hm⟩
        · cases hcontent.symm.trans hcontent'
          rw [turnFrames_stream_self, hear_append, Function.update_self, List.map_append]
          exact hrecorded
        · rw [turnFrames_stream_of_ne hne.symm, List.append_nil, Function.update_of_ne hne]
          exact h.turns m phase content' hm hcontent'
      · intro m hm
        rw [phases_turned, List.length_set] at hm
        have hlt := (List.getElem?_eq_some_iff.mp hn).1
        have hne : n ≠ m := by omega
        rw [turnFrames_append, turnFrames_stream_of_ne hne, List.append_nil,
          Function.update_of_ne hne.symm]
        exact h.fresh m hm

end

end Chat
