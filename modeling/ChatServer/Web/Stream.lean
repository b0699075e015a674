import ChatServer.Storage.ReadBack

/-!
# The stream task of a turn

`_stream_response` of `ws_handler.py` over `SendMessageUseCase.execute`, with the
frames of `ws_protocol.py`.

The task drives the generator of the session: it awaits either what the generator
awaits, the next event of an LLM, or one of its own `ws.send_text`, and then the
generator is suspended at a `yield`.  A `StreamPhase` says which, a `StreamInput`
how the task is resumed.  When the generator is exhausted `update_session` runs,
once and without a suspension.  A generator whose consumer ends before it does is
closed where it stands, which has no effect on the session.
-/

/-- `ClientFrame`. -/
inductive ClientFrame where
  | sendMessage (content : String)
  | cancel
  | ping
deriving DecidableEq, Repr

/-- `ServerFrame`. -/
inductive ServerFrame where
  | chunk (delta : String)
  | done (provider model : String) (tokensUsage : TokensUsage) (stopReason : StopReason)
      (elapsedS : ℕ) (tokensCost : Option TokensCost)
  | error (code message : String)
  | pong
deriving DecidableEq

namespace ServerFrame

/-- `DoneFrame(...)`. -/
def doneFrame (event : SessionCompletionDoneEvent) (provider model : String)
    (stats : ModelStats) : Except PyExc ServerFrame :=
  if provider = "" ∨ model = "" then
    .error (.valueError "String should have at least 1 character")
  else
    .ok (.done provider model stats.usage event.stopReason event.elapsedS stats.cost)

end ServerFrame

/-- Where a stream task is suspended. -/
inductive StreamPhase where
  /-- Not yet run. -/
  | created
  /-- The generator awaits an LLM. -/
  | awaiting (phase : Session.Phase)
  /-- Sending a `ChunkFrame`, with the generator at the `yield` of its text. -/
  | sendingChunk (phase : Session.Phase)
  /-- Sending a `DoneFrame`, with the entries the event still has. -/
  | sendingDone (event : SessionCompletionDoneEvent) (rest : List (String × String × ModelStats))
  /-- Sending an `ErrorFrame`, in an `except` clause. -/
  | sendingError
  /-- `done()`, and by which exception if any. -/
  | finished (result : Option PyExc)
deriving DecidableEq

/-- How a stream task is resumed. -/
inductive StreamInput where
  /-- It runs for the first time; the user record draws `uuid4`. -/
  | runs (uuid4 : UUID)
  /-- What the generator awaits answers. -/
  | resumes (i : Session.Input)
  /-- `ws.send_text` returns. -/
  | sent
  /-- `ws.send_text` raises. -/
  | sendFails (e : PyExc)
  /-- The cancellation requested before is delivered. -/
  | cancelled
deriving DecidableEq

/-- What can be observed of a stream task. -/
inductive StreamObs where
  /-- The generator of the session ran up to its next suspension. -/
  | advanced (o : List Session.Obs)
  /-- `ws.send_text` is called. -/
  | sends (frame : ServerFrame)
  /-- `update_session` returned. -/
  | saved (s : Session)
  /-- `update_session` raised. -/
  | saveFailed (e : PyExc)
deriving DecidableEq

/-- A task made by `create_task(_stream_response(sc, ws, content, …))`; sockets are
named by the handler they belong to. -/
structure StreamTask where
  ws : ℕ
  content : String
  phase : StreamPhase := .created
  cancelRequested : Bool := false
deriving DecidableEq

namespace StreamTask

/-- `done()`. -/
def isDone (task : StreamTask) : Bool :=
  match task.phase with
  | .finished _ => true
  | _ => false

/-- `cancel()`: the next step of the task will raise `CancelledError`. -/
def cancel (task : StreamTask) : StreamTask :=
  if task.isDone then task else { task with cancelRequested := true }

/-- The `except` clauses. -/
def onException : PyExc → StreamPhase × List StreamObs
  | .authenticationError _ => (.sendingError,
      [.sends (.error "auth_error" "Authentication failed. Check ANTHROPIC_API_KEY.")])
  | .anyLlmError message => (.sendingError, [.sends (.error "api_error" message)])
  | e => (.finished (some e), [])

/-- The entries of the final event, one `DoneFrame` for each. -/
def doneEntries (event : SessionCompletionDoneEvent) : List (String × String × ModelStats) :=
  (event.statistics.getD ∅).entries.flatMap fun provider ↦
    provider.2.entries.map fun model ↦ (provider.1, model.1, model.2)

section

variable [SessionCodec]

/-- `SendMessageUseCase.execute` once `acompletion` is exhausted, and what becomes of
the task. -/
def onReturn (a : SessionFileAdapter) (t : FileTree) (s : Session)
    (faults : List (Option FileTree.Fault)) : FileTree × StreamPhase × List StreamObs :=
  match a.updateSession t s faults with
  | (t, .ok ()) => (t, .finished none, [.saved s])
  | (t, .error e) =>
      let (phase, o) := onException e
      (t, phase, .saveFailed e :: o)

/-- The loop over the entries of the final event; after it the generator is resumed,
and returns. -/
def sendDone (a : SessionFileAdapter) (t : FileTree) (s : Session)
    (faults : List (Option FileTree.Fault)) (event : SessionCompletionDoneEvent) :
    List (String × String × ModelStats) → FileTree × StreamPhase × List StreamObs
  | (provider, model, stats) :: rest =>
      match ServerFrame.doneFrame event provider model stats with
      | .ok frame => (t, .sendingDone event rest, [.sends frame])
      | .error e => (t, onException e)
  | [] =>
      let (t, phase, o) := onReturn a t s faults
      (t, phase, .advanced [.returned] :: o)

/-- What the task does when the generator is suspended in a phase, or has ended, after
emitting a last observation. -/
def consume (a : SessionFileAdapter) (t : FileTree) (s : Session)
    (faults : List (Option FileTree.Fault)) :
    Option Session.Phase → Option Session.Obs → FileTree × StreamPhase × List StreamObs
  | some phase, some (.yielded (.textChunk text)) =>
      (t, .sendingChunk phase, [.sends (.chunk text)])
  | some _, some (.yielded (.completionDone event)) =>
      sendDone a t s faults event (doneEntries event)
  | some phase, _ => (t, .awaiting phase, [])
  | none, some (.raised e) => (t, onException e)
  | none, _ => onReturn a t s faults

variable [UnicodeData]

/-- Resume the generator. -/
def advance (a : SessionFileAdapter) (t : FileTree) (s : Session)
    (faults : List (Option FileTree.Fault)) (phase : Option Session.Phase) (i : Session.Input) :
    Option ((FileTree × Session × StreamPhase) × List StreamObs) :=
  (Session.step (s, phase) i).map fun ((s, phase), o) ↦
    let (t, phase, o') := consume a t s faults phase o.getLast?
    ((t, s, phase), .advanced o :: o')

/-- One step of a task that is not being cancelled. -/
def stepPhase (a : SessionFileAdapter) (t : FileTree) (s : Session)
    (faults : List (Option FileTree.Fault)) (content : String) :
    StreamPhase → StreamInput → Option ((FileTree × Session × StreamPhase) × List StreamObs)
  | .created, .runs uuid4 => advance a t s faults none (.acompletion content true uuid4)
  | .awaiting phase, .resumes i => advance a t s faults (some phase) i
  | .sendingChunk phase, .sent => advance a t s faults (some phase) .next
  | .sendingDone event rest, .sent =>
      let (t, phase, o) := sendDone a t s faults event rest
      some ((t, s, phase), o)
  | .sendingError, .sent => some ((t, s, .finished none), [])
  | .sendingChunk _, .sendFails e | .sendingDone _ _, .sendFails e =>
      let (phase, o) := onException e
      some ((t, s, phase), o)
  -- `contextlib.suppress(Exception)`
  | .sendingError, .sendFails e =>
      some ((t, s, .finished (if e.isException then none else some e)), [])
  | _, _ => none

/-- `CancelledError` at the suspension of a task. -/
def stepCancelled (a : SessionFileAdapter) (t : FileTree) (s : Session)
    (faults : List (Option FileTree.Fault)) :
    StreamPhase → Option ((FileTree × Session × StreamPhase) × List StreamObs)
  | .awaiting phase => advance a t s faults (some phase) .cancelled
  | .created | .sendingChunk _ | .sendingDone _ _ | .sendingError =>
      some ((t, s, .finished (some .cancelledError)), [])
  | .finished _ => none

/-- One step: `none` when the task does not accept the input. -/
def step (a : SessionFileAdapter) (t : FileTree) (s : Session)
    (faults : List (Option FileTree.Fault)) (task : StreamTask) (i : StreamInput) :
    Option ((FileTree × Session × StreamTask) × List StreamObs) :=
  let next :=
    if task.cancelRequested then
      if i = .cancelled then stepCancelled a t s faults task.phase else none
    else stepPhase a t s faults task.content task.phase i
  next.map fun ((t, s, phase), o) ↦ ((t, s, { task with phase }), o)

end

end StreamTask
