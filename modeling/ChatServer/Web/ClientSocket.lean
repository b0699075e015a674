import ChatServer.Web.ErrorHandling
import ChatServer.Web.ShownHistory

/-!
# The socket a client sends on

`ChatApp` of `client.py` keeps the connection it sends on in one field, `self._ws`.  The field
is written by the handlers that select and delete a session and by every worker of
`_connect_ws`, at its start and in its `finally`.

A handler runs to its next `await`, and no other handler of the app runs before it has
returned; the workers run in between.  `_connect_ws` is an exclusive worker: when one starts
all before it are cancelled, and nobody waits for them.  A cancellation is delivered where the
worker is suspended, and inside `async with` the closing handshake comes before `finally`.

The app starts here when `on_mount` has returned.  What its widgets show is left out, except for
whether the input row and the delete button are enabled.
-/

/-- What a worker raises. -/
inductive WsExc where
  | connectionClosedError (e : String)
  | osError (e : String)
  | exception (e : String)
  | cancelledError
deriving DecidableEq

/-- Where a worker of `_connect_ws` is suspended. -/
inductive WsPhase where
  /-- Not yet run. -/
  | created
  /-- In `websockets.connect`. -/
  | connecting
  /-- In the loop, with its connection open. -/
  | connected
  /-- In the loop, with its connection closed by the server or the network. -/
  | lost
  /-- In the closing handshake, having left the loop by an exception or without. -/
  | closing (e : Option WsExc)
  | ended
deriving DecidableEq

/-- A worker of `_connect_ws(session_id)`. -/
structure WsWorker where
  sessionId : String
  phase : WsPhase := .created
  cancelled : Bool := false
deriving DecidableEq

/-- How a worker is resumed, or what happens to its connection. -/
inductive WsInput where
  | starts
  /-- The connection is made. -/
  | opens
  /-- A text arrives; `validate_json` takes it for a frame or raises `ValidationError`. -/
  | receives (frame : Option ServerFrame)
  /-- The connection is closed from outside. -/
  | drops
  /-- The loop ends, or raises. -/
  | leaves (e : Option WsExc)
  /-- The closing handshake is over. -/
  | closes
  /-- What it awaits outside the loop raises. -/
  | fails (e : WsExc)
deriving DecidableEq

/-- A message posted to the app. -/
inductive AppMessage where
  | streamChunk (sessionId delta : String)
  | streamDone (sessionId : String)
  | streamError (sessionId code message : String)
  | wsConnected (sessionId : String)
  | wsDisconnected (sessionId : String)
  | showSystemMessage (text : String)
deriving DecidableEq

/-- Where the handler of the app that runs is suspended. -/
inductive AppHandler where
  | idle
  /-- `_create_session`, in the request and then in `list_view.append`. -/
  | creating (sessionId : String)
  | appending (sessionId : String)
  /-- `_delete_session`, in the request and then in `item.remove`. -/
  | deleting (sessionId : String)
  | removing
  /-- `_select_session`, in the request and then in `history.mount`, with the bubbles still to
  be mounted and what the loop raises after them. -/
  | selecting (sessionId : String)
  | mounting (sessionId : String) (left : List Bubble) (e : Option PyExc)
  /-- `_send_message`, in its two `history.mount` and then in `self._ws.send`. -/
  | mountingQuestion (content : String)
  | mountingAnswer (content : String)
  | sending
  /-- A handler that returns once it has mounted a text. -/
  | displaying
  /-- It raised, and the app exits. -/
  | raised (e : PyExc)

/-- `ChatApp`.  A connection is named by the position of its worker. -/
structure ChatApp where
  ws : Option ℕ := none
  activeSessionId : Option String := none
  streaming : Bool := false
  currentAssistantText : String := ""
  inputEnabled : Bool := false
  deleteEnabled : Bool := false
  /-- All workers so far, the newest last. -/
  workers : List WsWorker := []
  /-- The messages the app has not yet come to. -/
  posted : List AppMessage := []
  handler : AppHandler := .idle

namespace ChatApp

/-- What happens next. -/
inductive Input where
  /-- `on_list_view_selected`. -/
  | select (sessionId : String)
  /-- The buttons; a new session draws `uuid4`. -/
  | pressNew (uuid4 : String)
  | pressDelete
  /-- `btn-send`, or Enter in the input field. -/
  | submit (value : String)
  /-- The server answers the request of the handler, or `except Exception` is reached. -/
  | responds (r : Except PyExc Json)
  /-- What the handler awaits returns. -/
  | resumes
  /-- `self._ws.send` raises. -/
  | sendFails (e : PyExc)
  /-- The app comes to the next posted message. -/
  | message
  | worker (k : ℕ) (i : WsInput)

/-- What leaves the app. -/
inductive Obs where
  /-- `SendMessageFrame(content)` is sent on a connection. -/
  | sends (ws : ℕ) (content : String)
deriving DecidableEq

/-! ## The handlers -/

/-- `_notify_system`, after which the handler returns. -/
def notifySystem (s : ChatApp) (text : String) : ChatApp :=
  { s with posted := s.posted ++ [.showSystemMessage text], handler := .idle }

/-- `_connect_ws`: a new worker, and the others of its group cancelled. -/
def connectWs (s : ChatApp) (sessionId : String) : ChatApp :=
  { s with workers := s.workers.map (fun w ↦ { w with cancelled := true }) ++ [{ sessionId }] }

/-- `_select_session`, up to its request. -/
def selectSession (s : ChatApp) (sessionId : String) : ChatApp :=
  { s with ws := none, streaming := false, currentAssistantText := "",
           activeSessionId := some sessionId, handler := .selecting sessionId }

/-- `_select_session`, in the loop over the history. -/
def mountNext (s : ChatApp) (sessionId : String) : List Bubble → Option PyExc → ChatApp
  | _ :: left, e => { s with handler := .mounting sessionId left e }
  | [], some e => { s with handler := .raised e }
  | [], none => { s with deleteEnabled := true, handler := .idle }.connectWs sessionId

/-- `_send_message`, up to its first suspension. -/
def sendMessage (s : ChatApp) (value : String) : ChatApp :=
  if s.streaming then s
  else
    let content := String.ofList (Py.strip Py.isSpace value.toList)
    if content = "" then s
    else if s.ws = none then s.notifySystem "Not connected to session."
    else { s with streaming := true, currentAssistantText := "", inputEnabled := false,
                  handler := .mountingQuestion content }

/-- `on_ws_connected`, `on_ws_disconnected`, `on_stream_chunk`, `on_stream_done`,
`on_stream_error` and `on_show_system_message`. -/
def onMessage (s : ChatApp) : AppMessage → ChatApp
  | .wsConnected sessionId =>
      if some sessionId = s.activeSessionId then { s with inputEnabled := true } else s
  | .wsDisconnected sessionId =>
      if some sessionId = s.activeSessionId then
        { s with inputEnabled := false, streaming := false }
      else s
  | .streamChunk sessionId delta =>
      if some sessionId = s.activeSessionId then
        { s with currentAssistantText := s.currentAssistantText ++ delta }
      else s
  | .streamDone sessionId =>
      if some sessionId = s.activeSessionId then
        { s with streaming := false, currentAssistantText := "", inputEnabled := true }
      else s
  | .streamError sessionId _ _ =>
      if some sessionId = s.activeSessionId then
        { s with streaming := false, currentAssistantText := "", inputEnabled := true,
                 handler := .displaying }
      else s
  | .showSystemMessage _ => { s with handler := .displaying }

/-- A step of the handlers. -/
def stepHandler (s : ChatApp) (i : Input) : Option (ChatApp × List Obs) :=
  match s.handler, i with
  | .idle, .select sessionId =>
      if some sessionId = s.activeSessionId then some (s, [])
      else some (s.selectSession sessionId, [])
  | .idle, .pressNew uuid4 => some ({ s with handler := .creating uuid4 }, [])
  | .idle, .pressDelete =>
      match s.activeSessionId with
      | none => some (s, [])
      | some sessionId => some ({ s with handler := .deleting sessionId }, [])
  | .idle, .submit value => some (s.sendMessage value, [])
  | .idle, .message =>
      match s.posted with
      | [] => none
      | m :: posted => some ({ s with posted }.onMessage m, [])
  | .creating _, .responds (.error e) =>
      some (s.notifySystem s!"Could not create session: {e.str}", [])
  | .creating sessionId, .responds (.ok _) => some ({ s with handler := .appending sessionId }, [])
  | .appending sessionId, .resumes => some (s.selectSession sessionId, [])
  | .deleting _, .responds (.error e) =>
      some (s.notifySystem s!"Could not delete session: {e.str}", [])
  | .deleting _, .responds (.ok _) =>
      some ({ s with ws := none, streaming := false, activeSessionId := none,
                     handler := .removing }, [])
  | .removing, .resumes =>
      some ({ s with inputEnabled := false, deleteEnabled := false, handler := .idle }, [])
  | .selecting _, .responds (.error e) =>
      some (s.notifySystem s!"Could not load session history: {e.str}", [])
  | .selecting sessionId, .responds (.ok data) =>
      let (bubbles, e) := showHistory data
      some (s.mountNext sessionId bubbles e, [])
  | .mounting sessionId left e, .resumes => some (s.mountNext sessionId left e, [])
  | .mountingQuestion content, .resumes =>
      some ({ s with handler := .mountingAnswer content }, [])
  | .mountingAnswer content, .resumes =>
      match s.ws with
      | some ws => some ({ s with handler := .sending }, [.sends ws content])
      | none =>
          let e := .attributeError "'NoneType' object has no attribute 'send'"
          some ({ s with handler := .raised e }, [])
  | .sending, .resumes | .displaying, .resumes => some ({ s with handler := .idle }, [])
  | .sending, .sendFails e => some ({ s with handler := .raised e }, [])
  | _, _ => none

/-! ## The workers -/

/-- The worker at a position moves on. -/
def setPhase (s : ChatApp) (k : ℕ) (phase : WsPhase) : ChatApp :=
  { s with workers := s.workers.modify k fun w ↦ { w with phase } }

/-- What the `except` clauses post. -/
def errorMessages (sessionId : String) : Option WsExc → List AppMessage
  | some (.connectionClosedError e) => [.streamError sessionId "connection_closed" e]
  | some (.osError e) =>
      [.streamError sessionId "connection_failed" s!"Cannot connect to server: {e}"]
  | some (.exception e) => [.streamError sessionId "error" e]
  | some .cancelledError | none => []

/-- What the loop posts for a text. -/
def frameMessages (sessionId : String) : Option ServerFrame → List AppMessage
  | some (.chunk delta) => [.streamChunk sessionId delta]
  | some (.done ..) => [.streamDone sessionId]
  | some (.error code message) => [.streamError sessionId code message]
  | some .pong | none => []

/-- The `except` clauses and `finally`. -/
def finish (s : ChatApp) (k : ℕ) (w : WsWorker) (e : Option WsExc) : ChatApp :=
  { s.setPhase k .ended with
    ws := none
    posted := s.posted ++ errorMessages w.sessionId e ++ [.wsDisconnected w.sessionId] }

/-- A step of the worker at a position.  Once it is cancelled, the next time it is resumed in
`connect` or in the loop `CancelledError` is raised there. -/
def stepWorker (s : ChatApp) (k : ℕ) (w : WsWorker) (i : WsInput) : Option ChatApp :=
  match w.phase, i with
  | .created, .starts => if w.cancelled then none else some (s.setPhase k .connecting)
  -- the body has not been entered
  | .created, .fails e =>
      if w.cancelled ∧ e = .cancelledError then some (s.setPhase k .ended) else none
  | .connecting, .opens =>
      if w.cancelled then none
      else some { s.setPhase k .connected with
        ws := some k, posted := s.posted ++ [.wsConnected w.sessionId] }
  | .connecting, .fails e =>
      if e = .cancelledError ↔ w.cancelled then some (s.finish k w (some e)) else none
  | .connected, .receives frame | .lost, .receives frame =>
      if w.cancelled then none
      else some { s with posted := s.posted ++ frameMessages w.sessionId frame }
  | .connected, .drops => some (s.setPhase k .lost)
  | .connected, .leaves e | .lost, .leaves e =>
      if e = some .cancelledError ↔ w.cancelled then some (s.setPhase k (.closing e)) else none
  | .closing e, .closes => some (s.finish k w e)
  | .closing _, .fails e =>
      if e = .cancelledError → w.cancelled then some (s.finish k w (some e)) else none
  | _, _ => none

/-- One step. -/
def step (s : ChatApp) : Input → Option (ChatApp × List Obs)
  | .worker k i =>
      match s.workers[k]? with
      | none => none
      | some w => (s.stepWorker k w i).map (·, [])
  | i => s.stepHandler i

/-- The client as a machine. -/
@[reducible] def machine : Mealy ChatApp Input Obs := ⟨step⟩

/-! ## The connection of the active session -/

/-- The session the newest worker has an open connection to. -/
def connectedTo (s : ChatApp) : Option String :=
  match s.workers.getLast? with
  | some w => if w.phase = .connected then some w.sessionId else none
  | none => none

/-- The open connection of the worker of the active session. -/
def openWs (s : ChatApp) : Option ℕ :=
  if s.connectedTo ≠ none ∧ s.connectedTo = s.activeSessionId then some (s.workers.length - 1)
  else none

/-- The session an input makes the handler select. -/
def selects (s : ChatApp) (i : Input) : Option String :=
  match s.handler, i with
  | .idle, .select sessionId =>
      if some sessionId = s.activeSessionId then none else some sessionId
  | .appending sessionId, .resumes => some sessionId
  | _, _ => none

/-- An input brings a worker to its `finally`. -/
def finishes (s : ChatApp) : Input → Bool
  | .worker k .closes | .worker k (.fails _) => s.workers[k]?.any (·.phase ≠ .created)
  | _ => false

/-- What is asked of a run: the app sends on the open connection of the active session, and
the end of another worker does not change that. -/
structure Tracks (s₀ : ChatApp) (is : List Input) : Prop where
  ws_eq : ∀ js s o ws, js <+: is → machine.run s₀ js = some (s, o) → s.openWs = some ws →
    s.ws = some ws
  kept : ∀ js i s o s' o' ws, js ++ [i] <+: is → machine.run s₀ js = some (s, o) →
    machine.step s i = some (s', o') → s.finishes i → s.openWs = some ws → s'.ws = s.ws

/-- No session is selected that the newest worker still has an open connection to, and no
worker comes to its `finally` while the one of the active session has one. -/
structure Undisturbed (s : ChatApp) (i : Input) : Prop where
  selects : s.selects i = none ∨ s.selects i ≠ s.connectedTo
  finishes : s.finishes i → s.openWs = none

instance (s : ChatApp) (i : Input) : Decidable (s.Undisturbed i) :=
  decidable_of_iff ((s.selects i = none ∨ s.selects i ≠ s.connectedTo) ∧
    (s.finishes i → s.openWs = none)) ⟨fun h ↦ ⟨h.1, h.2⟩, fun h ↦ ⟨h.1, h.2⟩⟩

/-- Every worker but the newest is cancelled. -/
def Exclusive (s : ChatApp) : Prop :=
  ∀ k w, s.workers[k]? = some w → k + 1 < s.workers.length → w.cancelled

/-! ### What a step does to the field, the active session and the workers -/

/-- The three parts the connection of the active session depends on. -/
structure SameWiring (s s' : ChatApp) : Prop where
  ws : s'.ws = s.ws
  activeSessionId : s'.activeSessionId = s.activeSessionId
  workers : s'.workers = s.workers

/-- What a step of the handlers does. -/
inductive Wires (s : ChatApp) (i : Input) (s' : ChatApp) : Prop where
  | same (h : SameWiring s s') (hi : s.selects i = none)
  | selects (sessionId : String) (hi : s.selects i = some sessionId) (ws : s'.ws = none)
      (activeSessionId : s'.activeSessionId = some sessionId) (workers : s'.workers = s.workers)
  | deletes (hi : s.selects i = none) (activeSessionId : s'.activeSessionId = none)
      (workers : s'.workers = s.workers)
  | connects (hi : s.selects i = none) (sessionId : String)
      (workers : s'.workers = (s.connectWs sessionId).workers)

theorem sameWiring_onMessage (s : ChatApp) (m : AppMessage) : SameWiring s (s.onMessage m) := by
  cases m with
  | showSystemMessage text => exact ⟨rfl, rfl, rfl⟩
  | _ =>
      rw [onMessage]
      split <;> exact ⟨rfl, rfl, rfl⟩

theorem sameWiring_sendMessage (s : ChatApp) (value : String) :
    SameWiring s (s.sendMessage value) := by
  rw [sendMessage]
  split
  · exact ⟨rfl, rfl, rfl⟩
  · dsimp only
    split
    · exact ⟨rfl, rfl, rfl⟩
    · split <;> exact ⟨rfl, rfl, rfl⟩

theorem wires_mountNext {s : ChatApp} {i : Input} (hi : s.selects i = none) (sessionId : String)
    (left : List Bubble) (e : Option PyExc) : Wires s i (s.mountNext sessionId left e) := by
  cases left with
  | cons b left => exact .same ⟨rfl, rfl, rfl⟩ hi
  | nil =>
      cases e with
      | some e => exact .same ⟨rfl, rfl, rfl⟩ hi
      | none => exact .connects hi sessionId rfl

/-- **One step of the handlers.** -/
theorem wires_stepHandler {s s' : ChatApp} {i : Input} {o : List Obs}
    (h : s.stepHandler i = some (s', o)) : Wires s i s' := by
  obtain ⟨ws, activeSessionId, streaming, text, inputEnabled, deleteEnabled, workers, posted,
    handler⟩ := s
  cases handler with
  | idle =>
      cases i with
      | select sessionId =>
          by_cases hactive : some sessionId = activeSessionId
          · cases (if_pos hactive).symm.trans h
            exact .same ⟨rfl, rfl, rfl⟩ (if_pos hactive)
          · cases (if_neg hactive).symm.trans h
            exact .selects sessionId (if_neg hactive) rfl rfl rfl
      | pressDelete =>
          cases activeSessionId with
          | none | some sessionId =>
              cases h
              exact .same ⟨rfl, rfl, rfl⟩ rfl
      | submit value =>
          cases h
          exact .same (sameWiring_sendMessage _ value) rfl
      | message =>
          cases posted with
          | nil => cases h
          | cons m posted =>
              cases h
              have hsame := sameWiring_onMessage ⟨ws, activeSessionId, streaming, text,
                inputEnabled, deleteEnabled, workers, posted, .idle⟩ m
              exact .same ⟨hsame.ws, hsame.activeSessionId, hsame.workers⟩ rfl
      | pressNew uuid4 =>
          cases h
          exact .same ⟨rfl, rfl, rfl⟩ rfl
      | _ => cases h
  | appending sessionId =>
      cases i with
      | resumes =>
          cases h
          exact .selects sessionId rfl rfl rfl rfl
      | _ => cases h
  | selecting sessionId =>
      cases i with
      | responds r =>
          cases r with
          | error e =>
              cases h
              exact .same ⟨rfl, rfl, rfl⟩ rfl
          | ok data =>
              cases h
              exact wires_mountNext rfl sessionId _ _
      | _ => cases h
  | mounting sessionId left e =>
      cases i with
      | resumes =>
          cases h
          exact wires_mountNext rfl sessionId left e
      | _ => cases h
  | deleting sessionId =>
      cases i with
      | responds r =>
          cases r with
          | error e =>
              cases h
              exact .same ⟨rfl, rfl, rfl⟩ rfl
          | ok data =>
              cases h
              exact .deletes rfl rfl rfl
      | _ => cases h
  | creating sessionId =>
      cases i with
      | responds r =>
          cases r with
          | error e | ok data =>
              cases h
              exact .same ⟨rfl, rfl, rfl⟩ rfl
      | _ => cases h
  | mountingAnswer content =>
      cases i with
      | resumes =>
          cases ws with
          | none | some ws =>
              cases h
              exact .same ⟨rfl, rfl, rfl⟩ rfl
      | _ => cases h
  | sending =>
      cases i with
      | resumes | sendFails e =>
          cases h
          exact .same ⟨rfl, rfl, rfl⟩ rfl
      | _ => cases h
  | removing | mountingQuestion content | displaying =>
      cases i with
      | resumes =>
          cases h
          exact .same ⟨rfl, rfl, rfl⟩ rfl
      | _ => cases h
  | raised e => cases i <;> cases h

/-- What a step of a worker does: it stays where it is, it moves on, it opens its connection, or
it comes to its end. -/
inductive Runs (s : ChatApp) (k : ℕ) (w : WsWorker) (i : WsInput) (s' : ChatApp) : Prop where
  | stays (hi : s.finishes (.worker k i) = false) (ws : s'.ws = s.ws)
      (workers : s'.workers = s.workers)
  | moves (hi : s.finishes (.worker k i) = false) (ws : s'.ws = s.ws)
      (phase : WsPhase) (hphase : phase ≠ .connected)
      (workers : s'.workers = (s.setPhase k phase).workers)
  | opens (hi : s.finishes (.worker k i) = false) (hw : w.cancelled = false) (ws : s'.ws = some k)
      (workers : s'.workers = (s.setPhase k .connected).workers)
  | finishes (hi : s.finishes (.worker k i)) (hw : w.phase ≠ .connected) (ws : s'.ws = none)
      (workers : s'.workers = (s.setPhase k .ended).workers)

/-- An `if` around a step. -/
theorem of_ite_eq_some {P : Prop} [Decidable P] {x : Option ChatApp} {s' : ChatApp}
    (h : (if P then x else none) = some s') : P ∧ x = some s' := by
  by_cases hP : P
  · rw [if_pos hP] at h
    exact ⟨hP, h⟩
  · rw [if_neg hP] at h
    cases h

theorem of_ite_none_eq_some {b : Bool} {x : Option ChatApp} {s' : ChatApp}
    (h : (if b then none else x) = some s') : b = false ∧ x = some s' := by
  cases b with
  | true => cases h
  | false => exact ⟨rfl, h⟩

/-- **One step of a worker.** -/
theorem runs_stepWorker {s s' : ChatApp} {k : ℕ} {w : WsWorker} {i : WsInput}
    (hw : s.workers[k]? = some w) (h : s.stepWorker k w i = some s') :
    s'.activeSessionId = s.activeSessionId ∧ Runs s k w i s' := by
  have hfinishes : ∀ j, j = .closes ∨ (∃ e, j = .fails e) →
      s.finishes (.worker k j) = decide (w.phase ≠ .created) := by
    rintro j (rfl | ⟨e, rfl⟩)
    · rw [finishes, hw, Option.any_some]
    · rw [finishes, hw, Option.any_some]
  obtain ⟨sessionId, phase, cancelled⟩ := w
  cases phase with
  | created =>
      cases i with
      | starts =>
          obtain ⟨-, h⟩ := of_ite_none_eq_some h
          cases h
          exact ⟨rfl, .moves rfl rfl .connecting (fun h ↦ by cases h) rfl⟩
      | fails e =>
          obtain ⟨-, h⟩ := of_ite_eq_some h
          cases h
          exact ⟨rfl, .moves (hfinishes _ (.inr ⟨e, rfl⟩)) rfl .ended (fun h ↦ by cases h) rfl⟩
      | _ => cases h
  | connecting =>
      cases i with
      | opens =>
          obtain ⟨hcancelled, h⟩ := of_ite_none_eq_some h
          cases h
          exact ⟨rfl, .opens rfl hcancelled rfl rfl⟩
      | fails e =>
          obtain ⟨-, h⟩ := of_ite_eq_some h
          cases h
          exact ⟨rfl, .finishes (hfinishes _ (.inr ⟨e, rfl⟩)) (fun h ↦ by cases h) rfl rfl⟩
      | _ => cases h
  | connected =>
      cases i with
      | receives frame =>
          obtain ⟨-, h⟩ := of_ite_none_eq_some h
          cases h
          exact ⟨rfl, .stays rfl rfl rfl⟩
      | drops =>
          cases h
          exact ⟨rfl, .moves rfl rfl .lost (fun h ↦ by cases h) rfl⟩
      | leaves e =>
          obtain ⟨-, h⟩ := of_ite_eq_some h
          cases h
          exact ⟨rfl, .moves rfl rfl (.closing e) (fun h ↦ by cases h) rfl⟩
      | _ => cases h
  | lost =>
      cases i with
      | receives frame =>
          obtain ⟨-, h⟩ := of_ite_none_eq_some h
          cases h
          exact ⟨rfl, .stays rfl rfl rfl⟩
      | leaves e =>
          obtain ⟨-, h⟩ := of_ite_eq_some h
          cases h
          exact ⟨rfl, .moves rfl rfl (.closing e) (fun h ↦ by cases h) rfl⟩
      | _ => cases h
  | closing e =>
      cases i with
      | closes =>
          cases h
          exact ⟨rfl, .finishes (hfinishes _ (.inl rfl)) (fun h ↦ by cases h) rfl rfl⟩
      | fails e' =>
          obtain ⟨-, h⟩ := of_ite_eq_some h
          cases h
          exact ⟨rfl, .finishes (hfinishes _ (.inr ⟨e', rfl⟩)) (fun h ↦ by cases h) rfl rfl⟩
      | _ => cases h
  | ended => cases i <;> cases h

/-! ### The newest worker -/

theorem getLast?_setPhase (s : ChatApp) (k : ℕ) (phase : WsPhase) :
    (s.setPhase k phase).workers.getLast? =
      if k + 1 = s.workers.length then s.workers.getLast?.map ({ · with phase })
      else s.workers.getLast? := by
  rw [setPhase, List.getLast?_eq_getElem?, List.getLast?_eq_getElem?, List.length_modify,
    List.getElem?_modify]
  by_cases hk : k + 1 = s.workers.length
  · have hlast : k = s.workers.length - 1 := by omega
    simp only [if_pos hk, if_pos hlast, Option.map_eq_map]
  · rw [if_neg hk]
    cases hlast : s.workers[s.workers.length - 1]? with
    | none => rfl
    | some w =>
        obtain ⟨hlt, -⟩ := List.getElem?_eq_some_iff.mp hlast
        have hne : ¬ k = s.workers.length - 1 := by omega
        simp only [if_neg hne, Option.map_eq_map, Option.map_some]

theorem connectedTo_congr {s s' : ChatApp} (h : s'.workers = s.workers) :
    s'.connectedTo = s.connectedTo := by
  rw [connectedTo, connectedTo, h]

/-- A worker that is not the newest says nothing about the newest. -/
theorem connectedTo_setPhase_of_ne {s : ChatApp} {k : ℕ} (hk : k + 1 ≠ s.workers.length)
    (phase : WsPhase) : (s.setPhase k phase).connectedTo = s.connectedTo := by
  rw [connectedTo, connectedTo, getLast?_setPhase, if_neg hk]

/-- The newest worker has no open connection in another phase. -/
theorem connectedTo_setPhase_eq_none {s : ChatApp} {k : ℕ} {phase : WsPhase}
    (hk : k + 1 = s.workers.length) (hphase : phase ≠ .connected) :
    (s.setPhase k phase).connectedTo = none := by
  rw [connectedTo, getLast?_setPhase, if_pos hk]
  cases s.workers.getLast? with
  | none => rfl
  | some w => exact if_neg hphase

/-- A worker without an open connection that comes to its end changes nothing. -/
theorem connectedTo_setPhase_ended {s : ChatApp} {k : ℕ} {w : WsWorker}
    (hw : s.workers[k]? = some w) (hphase : w.phase ≠ .connected) :
    (s.setPhase k .ended).connectedTo = s.connectedTo := by
  by_cases hk : k + 1 = s.workers.length
  · have hlast : s.workers.getLast? = some w := by
      rw [List.getLast?_eq_getElem?, ← hk, Nat.add_sub_cancel, hw]
    have hended : WsPhase.ended ≠ .connected := by decide
    rw [connectedTo_setPhase_eq_none hk hended, connectedTo, hlast]
    exact (if_neg hphase).symm
  · exact connectedTo_setPhase_of_ne hk .ended

theorem connectedTo_connectWs (s : ChatApp) (sessionId : String) :
    (s.connectWs sessionId).connectedTo = none := by
  rw [connectedTo, connectWs, List.getLast?_concat]
  rfl

/-- The open connection depends on the workers and the active session alone. -/
theorem openWs_congr {s s' : ChatApp} (hactive : s'.activeSessionId = s.activeSessionId)
    (hconnected : s'.connectedTo = s.connectedTo)
    (hlength : s'.workers.length = s.workers.length) : s'.openWs = s.openWs := by
  rw [openWs, openWs, hactive, hconnected, hlength]

theorem openWs_eq_some {s : ChatApp} {ws : ℕ} :
    s.openWs = some ws ↔ s.connectedTo ≠ none ∧ s.connectedTo = s.activeSessionId ∧
      s.workers.length - 1 = ws := by
  rw [openWs]
  split
  · rename_i h
    rw [Option.some_inj]
    exact ⟨fun hws ↦ ⟨h.1, h.2, hws⟩, fun hws ↦ hws.2.2⟩
  · rename_i h
    constructor
    · intro hws
      cases hws
    · rintro ⟨hne, hactive, -⟩
      exact absurd ⟨hne, hactive⟩ h

@[simp] theorem length_setPhase (s : ChatApp) (k : ℕ) (phase : WsPhase) :
    (s.setPhase k phase).workers.length = s.workers.length := List.length_modify ..

theorem openWs_of_ended {s s' : ChatApp} {k : ℕ} {w : WsWorker} (hw : s.workers[k]? = some w)
    (hphase : w.phase ≠ .connected) (hactive : s'.activeSessionId = s.activeSessionId)
    (hworkers : s'.workers = (s.setPhase k .ended).workers) : s'.openWs = s.openWs := by
  apply openWs_congr hactive
  · exact (connectedTo_congr hworkers).trans (connectedTo_setPhase_ended hw hphase)
  · rw [hworkers, length_setPhase]

/-! ### The step -/

/-- The field names the open connection of the active session. -/
def WsIsOpen (s : ChatApp) : Prop := ∀ ws, s.openWs = some ws → s.ws = some ws

/-- After a step that clears the field it names the open connection only if there is none. -/
theorem wsIsOpen_iff_of_ws_eq_none {s : ChatApp} (h : s.ws = none) :
    s.WsIsOpen ↔ s.openWs = none := by
  constructor
  · intro hopen
    cases hws : s.openWs with
    | none => rfl
    | some ws => cases h.symm.trans (hopen ws hws)
  · intro hnone ws hws
    cases hnone.symm.trans hws

theorem undisturbed_of_not {s : ChatApp} {i : Input} (hi : s.selects i = none)
    (hfinishes : s.finishes i = false) : s.Undisturbed i where
  selects := .inl hi
  finishes h := by cases hfinishes.symm.trans h

/-- A step of the handlers. -/
theorem wsIsOpen_iff_of_wires {s s' : ChatApp} {i : Input} (hopen : s.WsIsOpen)
    (h : s.Wires i s') (hfinishes : s.finishes i = false) : s'.WsIsOpen ↔ s.Undisturbed i := by
  cases h with
  | same h hi =>
      have hws := openWs_congr h.activeSessionId (connectedTo_congr h.workers)
        (congrArg List.length h.workers)
      refine iff_of_true ?_ (undisturbed_of_not hi hfinishes)
      intro ws hsome
      rw [h.ws]
      exact hopen ws (hws.symm.trans hsome)
  | selects sessionId hi ws activeSessionId workers =>
      have hconnected := connectedTo_congr workers
      rw [wsIsOpen_iff_of_ws_eq_none ws]
      constructor
      · intro hnone
        refine ⟨.inr fun hconnectedTo ↦ ?_, fun h ↦ by cases hfinishes.symm.trans h⟩
        rw [hi] at hconnectedTo
        have hsome : s'.openWs = some (s'.workers.length - 1) := by
          refine openWs_eq_some.mpr ⟨?_, ?_, rfl⟩
          · rw [hconnected, ← hconnectedTo]
            exact Option.some_ne_none _
          · rw [hconnected, ← hconnectedTo, activeSessionId]
        cases hnone.symm.trans hsome
      · intro hundisturbed
        cases hws : s'.openWs with
        | none => rfl
        | some ws =>
            obtain ⟨-, hactive, -⟩ := openWs_eq_some.mp hws
            rw [hconnected, activeSessionId, ← hi] at hactive
            rcases hundisturbed.selects with hnone | hne
            · cases hnone.symm.trans hi
            · exact absurd hactive.symm hne
  | deletes hi activeSessionId workers =>
      refine iff_of_true ?_ (undisturbed_of_not hi hfinishes)
      intro ws hsome
      obtain ⟨hne, hactive, -⟩ := openWs_eq_some.mp hsome
      rw [activeSessionId] at hactive
      exact absurd hactive hne
  | connects hi sessionId workers =>
      refine iff_of_true ?_ (undisturbed_of_not hi hfinishes)
      intro ws hsome
      obtain ⟨hne, -, -⟩ := openWs_eq_some.mp hsome
      rw [connectedTo, workers] at hne
      exact absurd (connectedTo_connectWs s sessionId) hne

theorem selects_worker (s : ChatApp) (k : ℕ) (i : WsInput) :
    s.selects (.worker k i) = none := by
  obtain ⟨ws, activeSessionId, streaming, text, inputEnabled, deleteEnabled, workers, posted,
    handler⟩ := s
  cases handler <;> rfl

/-- A step of a worker. -/
theorem wsIsOpen_iff_of_runs {s s' : ChatApp} {k : ℕ} {w : WsWorker} {i : WsInput}
    (hexclusive : s.Exclusive) (hopen : s.WsIsOpen) (hw : s.workers[k]? = some w)
    (hactive : s'.activeSessionId = s.activeSessionId) (h : s.Runs k w i s') :
    s'.WsIsOpen ↔ s.Undisturbed (.worker k i) := by
  have hselects := selects_worker s k i
  have hlt : k < s.workers.length := (List.getElem?_eq_some_iff.mp hw).1
  cases h with
  | stays hi ws workers =>
      have hws := openWs_congr hactive (connectedTo_congr workers) (congrArg List.length workers)
      refine iff_of_true ?_ (undisturbed_of_not hselects hi)
      intro c hsome
      rw [ws]
      exact hopen c (hws.symm.trans hsome)
  | moves hi ws phase hphase workers =>
      have hconnected : s'.connectedTo = (s.setPhase k phase).connectedTo :=
        connectedTo_congr workers
      have hlength : s'.workers.length = s.workers.length := by
        rw [workers, length_setPhase]
      refine iff_of_true ?_ (undisturbed_of_not hselects hi)
      intro c hsome
      rw [ws]
      by_cases hk : k + 1 = s.workers.length
      · obtain ⟨hne, -, -⟩ := openWs_eq_some.mp hsome
        rw [hconnected, connectedTo_setPhase_eq_none hk hphase] at hne
        exact absurd rfl hne
      · rw [connectedTo_setPhase_of_ne hk phase] at hconnected
        exact hopen c ((openWs_congr hactive hconnected hlength).symm.trans hsome)
  | opens hi hcancelled ws workers =>
      -- a worker that is not cancelled is the newest
      have hk : k + 1 = s.workers.length := by
        by_contra hne
        have hcancelled' := hexclusive k w hw (by omega)
        rw [hcancelled] at hcancelled'
        cases hcancelled'
      refine iff_of_true ?_ (undisturbed_of_not hselects hi)
      intro c hsome
      obtain ⟨-, -, hc⟩ := openWs_eq_some.mp hsome
      rw [workers, length_setPhase, ← hk, Nat.add_sub_cancel] at hc
      rw [ws, hc]
  | finishes hi hphase ws workers =>
      rw [wsIsOpen_iff_of_ws_eq_none ws, openWs_of_ended hw hphase hactive workers]
      constructor
      · intro hnone
        exact ⟨.inl hselects, fun _ ↦ hnone⟩
      · intro hundisturbed
        exact hundisturbed.finishes hi

theorem step_worker {s s' : ChatApp} {k : ℕ} {i : WsInput} {o : List Obs}
    (h : s.step (.worker k i) = some (s', o)) :
    ∃ w, s.workers[k]? = some w ∧ s'.activeSessionId = s.activeSessionId ∧ Runs s k w i s' := by
  simp only [step] at h
  cases hw : s.workers[k]? with
  | none =>
      rw [hw] at h
      cases h
  | some w =>
      rw [hw] at h
      obtain ⟨s₁, hs, heq⟩ := Option.map_eq_some_iff.mp h
      cases heq
      exact ⟨w, rfl, runs_stepWorker hw hs⟩

/-- **One step.**  The field still names the open connection of the active session after it
exactly if nothing disturbs it. -/
theorem wsIsOpen_step {s s' : ChatApp} {i : Input} {o : List Obs} (hexclusive : s.Exclusive)
    (hopen : s.WsIsOpen) (h : s.step i = some (s', o)) : s'.WsIsOpen ↔ s.Undisturbed i := by
  cases i with
  | worker k i =>
      obtain ⟨w, hw, hactive, hruns⟩ := step_worker h
      exact wsIsOpen_iff_of_runs hexclusive hopen hw hactive hruns
  | _ => exact wsIsOpen_iff_of_wires hopen (wires_stepHandler h) rfl

/-- A worker that comes to its end had no open connection. -/
theorem openWs_finishes {s s' : ChatApp} {i : Input} {o : List Obs}
    (h : s.step i = some (s', o)) (hi : s.finishes i) : s'.openWs = s.openWs := by
  cases i with
  | worker k i =>
      obtain ⟨w, hw, hactive, hruns⟩ := step_worker h
      cases hruns with
      | stays hi' | moves hi' | opens hi' => cases hi'.symm.trans hi
      | finishes hi' hphase ws workers =>
          exact openWs_of_ended hw hphase hactive workers
  | _ => cases hi

theorem exclusive_congr {s s' : ChatApp} (h : s'.workers = s.workers) (hs : s.Exclusive) :
    s'.Exclusive := by
  rw [Exclusive, h]
  exact hs

theorem exclusive_setPhase {s : ChatApp} (hs : s.Exclusive) (k : ℕ) (phase : WsPhase) :
    (s.setPhase k phase).Exclusive := by
  intro j w hw hj
  rw [length_setPhase] at hj
  rw [setPhase, List.getElem?_modify] at hw
  obtain ⟨w₀, hw₀, rfl⟩ := Option.map_eq_some_iff.mp hw
  have hcancelled := hs j w₀ hw₀ hj
  by_cases hk : k = j
  · simp only [if_pos hk, hcancelled]
  · simp only [if_neg hk, hcancelled]

theorem exclusive_connectWs (s : ChatApp) (sessionId : String) :
    (s.connectWs sessionId).Exclusive := by
  intro k w hw hk
  rw [connectWs, List.length_append, List.length_singleton] at hk
  rw [connectWs, List.getElem?_append_left (by omega), List.getElem?_map] at hw
  obtain ⟨w₀, -, rfl⟩ := Option.map_eq_some_iff.mp hw
  rfl

/-- One step keeps all workers but the newest cancelled. -/
theorem exclusive_step {s s' : ChatApp} {i : Input} {o : List Obs} (hexclusive : s.Exclusive)
    (h : s.step i = some (s', o)) : s'.Exclusive := by
  cases i with
  | worker k i =>
      obtain ⟨w, hw, hactive, hruns⟩ := step_worker h
      cases hruns with
      | stays hi ws workers => exact exclusive_congr workers hexclusive
      | moves hi ws phase hphase workers =>
          exact exclusive_congr workers (exclusive_setPhase hexclusive k phase)
      | opens hi hcancelled ws workers | finishes hi hphase ws workers =>
          exact exclusive_congr workers (exclusive_setPhase hexclusive k _)
  | _ =>
      cases wires_stepHandler h with
      | same h hi => exact exclusive_congr h.workers hexclusive
      | selects sessionId hi ws activeSessionId workers => exact exclusive_congr workers hexclusive
      | deletes hi activeSessionId workers => exact exclusive_congr workers hexclusive
      | connects hi sessionId workers =>
          exact exclusive_congr workers (exclusive_connectWs s sessionId)

/-! ### The run -/

/-- When the field names the open connection at every point of a run, the ends of other
workers do not change it. -/
theorem tracks_iff {s₀ : ChatApp} {is : List Input} :
    Tracks s₀ is ↔
      ∀ js s₁ o₁, js <+: is → machine.run s₀ js = some (s₁, o₁) → s₁.WsIsOpen := by
  constructor
  · intro htracks js s₁ o₁ hp hr ws hws
    exact htracks.ws_eq js s₁ o₁ ws hp hr hws
  · intro hall
    refine ⟨fun js s₁ o₁ ws hp hr hws ↦ hall js s₁ o₁ hp hr ws hws, ?_⟩
    intro js i s₁ o₁ s₂ o₂ ws hp hr hs hfinishes hws
    have hbefore := hall js s₁ o₁ ((List.prefix_append js [i]).trans hp) hr ws hws
    have hr' : machine.run s₀ (js ++ [i]) = some (s₂, o₁ ++ o₂) :=
      Mealy.run_concat hr hs
    have hafter := hall (js ++ [i]) s₂ _ hp hr' ws ((openWs_finishes hs hfinishes).trans hws)
    exact hafter.trans hbefore.symm

/-- **The field names the open connection exactly while nothing disturbs it.** -/
theorem tracks_iff_undisturbed {s : ChatApp} {is : List Input} {o : List Obs}
    (h : machine.run {} is = some (s, o)) :
    Tracks {} is ↔ machine.StepsMeet Undisturbed {} is := by
  rw [tracks_iff]
  refine Mealy.run_forall_prefix_iff (I := Exclusive) (P := fun s _ ↦ s.WsIsOpen) ?_ ?_ ?_ ?_ h
  · intro k w hw
    cases hw
  · intro ws hws
    cases hws
  · intro s i s' o hs hstep
    exact exclusive_step hs hstep
  · intro s o i s' o' hs hopen hstep
    exact wsIsOpen_step hs hopen hstep

/-! ### Two sessions -/

/-- A session without messages is selected, its history arrives, and its worker connects. -/
def connects (sessionId : String) (k : ℕ) : List Input :=
  [.select sessionId, .responds (.ok (.obj [("messages", .arr [])])), .worker k .starts,
    .worker k .opens, .message]

/-- The worker of the first session has ended before the one of the second runs. -/
def inTurn : List Input :=
  connects "a" 0 ++ [.select "b", .responds (.ok (.obj [("messages", .arr [])])),
    .worker 0 (.leaves (some .cancelledError)), .worker 0 .closes, .worker 1 .starts,
    .worker 1 .opens]

theorem tracks_inTurn :
    ∃ s o, machine.run {} inTurn = some (s, o) ∧ s.openWs = some 1 ∧ Tracks {} inTurn := by
  have hmeets : machine.StepsMeet Undisturbed {} inTurn := .of_checks (by decide)
  exact ⟨_, _, rfl, rfl, (tracks_iff_undisturbed rfl).mpr hmeets⟩

/-- The worker of the first session comes to its end when the one of the second is connected:
the user can write, and is told that there is no connection. -/
theorem not_tracks :
    ∃ s o, machine.run {} (connects "a" 0 ++ connects "b" 1 ++
        [.worker 0 (.leaves (some .cancelledError)), .worker 0 .closes]) = some (s, o) ∧
      s.openWs = some 1 ∧ s.ws = none ∧ s.inputEnabled ∧
      (s.sendMessage "hi").posted =
        s.posted ++ [.showSystemMessage "Not connected to session."] ∧
      ¬ Tracks {} (connects "a" 0 ++ connects "b" 1 ++
        [.worker 0 (.leaves (some .cancelledError)), .worker 0 .closes]) := by
  refine ⟨_, _, rfl, rfl, rfl, rfl, rfl, ?_⟩
  intro htracks
  cases htracks.ws_eq _ _ _ 1 List.prefix_rfl rfl rfl

end ChatApp
