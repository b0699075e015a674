import ChatServer.Lib.Mealy
import ChatServer.Web.Stream

/-!
# The WebSocket handlers of a session

`handle_ws` and `_ws_loop` of `ws_handler.py`, for one `SessionConnections` object:
any number of handlers and stream tasks run on it, and between two suspensions of
one of them any other may run.  A handler is named by its position in the list of
handlers, as is the socket it serves, and a task by its position in the list of
tasks.

Only the waits that can suspend are inputs of the machine: `accept`, `close`,
`receive_text`, `send_text`, and in the `finally` block the wait for the cancelled
task.  A handler is not itself cancelled from outside.
-/

/-- Where a call of `handle_ws` is suspended. -/
inductive HandlerPhase where
  /-- In `accept()`, having found `sc.ws` to be `None`. -/
  | accepting
  /-- In `accept()`, having found it taken. -/
  | refusing
  /-- In `close(code=4409)`. -/
  | closing
  /-- In `_ws_loop`, awaiting a frame. -/
  | receiving
  /-- In `_ws_loop`, sending an answer. -/
  | replying
  /-- In the `finally` block, awaiting the task it cancelled. -/
  | joining (task : ℕ)
  | ended
deriving DecidableEq, Repr

/-- `SessionConnections`. -/
structure SessionConnections where
  session : Session
  ws : Option ℕ := none
  streamTask : Option ℕ := none
deriving DecidableEq

namespace WsHandler

/-- A `SessionConnections` object with all handlers and tasks that were started on it,
and the file tree. -/
structure State where
  tree : FileTree
  sc : SessionConnections
  handlers : List HandlerPhase := []
  tasks : List StreamTask := []

/-- What a handler waits for. -/
inductive HandlerInput where
  /-- `accept()` returns. -/
  | accepted
  /-- `accept()` raises. -/
  | acceptFails
  /-- `close` returns or raises. -/
  | closed
  /-- `receive_text` returns a text; `none` when it is not a frame. -/
  | receives (frame : Option ClientFrame)
  /-- The answer is sent. -/
  | replied
  /-- `receive_text` or the sending of an answer raises: the client is gone. -/
  | disconnects
  /-- The task awaited in the `finally` block is done. -/
  | joined
deriving DecidableEq, Repr

/-- What happens on the sockets, to the tasks and in the store. -/
inductive Input where
  /-- `handle_ws` is called for a new socket. -/
  | connects
  | handler (h : ℕ) (i : HandlerInput)
  /-- The loop gives a task its turn; `faults` strike `update_session` if it runs. -/
  | stream (n : ℕ) (i : StreamInput) (faults : List (Option FileTree.Fault))

/-- What can be observed. -/
inductive Obs where
  | stream (n : ℕ) (o : StreamObs)
  /-- `ws.send_text` is called in `_ws_loop`. -/
  | replies (h : ℕ) (frame : ServerFrame)
  /-- `close` is called. -/
  | closes (h : ℕ) (code : ℕ)
deriving DecidableEq

/-- The part of a trace that is about stream tasks. -/
def Obs.stream? : Obs → Option StreamObs
  | stream _ o => some o
  | replies .. | closes .. => none

theorem filterMap_stream?_map (n : ℕ) (o : List StreamObs) :
    (o.map (.stream n)).filterMap Obs.stream? = o := by
  rw [List.filterMap_map]
  exact List.filterMap_some

namespace State

/-- A session held in the registry without connection. -/
def init (t : FileTree) (s : Session) : State := { tree := t, sc := { session := s } }

/-- A handler goes on to a phase. -/
def setHandler (w : State) (h : ℕ) (phase : HandlerPhase) : State :=
  { w with handlers := w.handlers.set h phase }

/-- `sc.stream_task and not sc.stream_task.done()`: the task, if so. -/
def busy? (w : State) : Option ℕ :=
  match w.sc.streamTask with
  | none => none
  | some n =>
      match w.tasks[n]? with
      | none => none
      | some task => if task.isDone then none else some n

/-- `cancel()` on a task. -/
def cancelTask (w : State) (n : ℕ) : State :=
  { w with tasks := w.tasks.modify n .cancel }

/-- Answer a frame. -/
def reply (w : State) (h : ℕ) (frame : ServerFrame) : State × List Obs :=
  (w.setHandler h .replying, [.replies h frame])

/-- The end of the `finally` block. -/
def release (w : State) (h : ℕ) : State :=
  { w.setHandler h .ended with sc := { w.sc with ws := none, streamTask := none } }

/-- The `finally` block. -/
def cleanup (w : State) (h : ℕ) : State :=
  match w.busy? with
  | some n => (w.cancelTask n).setHandler h (.joining n)
  | none => w.release h

/-- `_ws_loop` on a frame. -/
def onFrame (w : State) (h : ℕ) : Option ClientFrame → State × List Obs
  | none => w.reply h (.error "invalid_frame" "Could not parse client frame.")
  | some .ping => w.reply h .pong
  | some .cancel =>
      match w.busy? with
      | some n => (w.cancelTask n, [])
      | none => (w, [])
  | some (.sendMessage content) =>
      match w.busy? with
      | some _ => w.reply h (.error "stream_in_progress" "A stream is already in progress.")
      | none =>
          ({ w with
              sc := { w.sc with streamTask := some w.tasks.length }
              tasks := w.tasks ++ [{ ws := h, content }] }, [])

/-- `handle_ws` up to its first suspension. -/
def connect (w : State) : State :=
  match w.sc.ws with
  | some _ => { w with handlers := w.handlers ++ [.refusing] }
  | none => { w with handlers := w.handlers ++ [.accepting] }

/-- No stream task is running. -/
def Idle (w : State) : Prop := ∀ task ∈ w.tasks, task.isDone = true

instance (w : State) : Decidable w.Idle := inferInstanceAs (Decidable (∀ _ ∈ _, _))

end State

/-- A step of a handler in a phase. -/
def stepHandler (w : State) (h : ℕ) : HandlerPhase → HandlerInput → Option (State × List Obs)
  | .accepting, .accepted =>
      some ({ w.setHandler h .receiving with sc := { w.sc with ws := some h } }, [])
  | .refusing, .accepted => some (w.setHandler h .closing, [.closes h 4409])
  | .accepting, .acceptFails | .refusing, .acceptFails => some (w.setHandler h .ended, [])
  | .closing, .closed => some (w.setHandler h .ended, [])
  | .receiving, .receives frame => some (w.onFrame h frame)
  | .replying, .replied => some (w.setHandler h .receiving, [])
  | .receiving, .disconnects | .replying, .disconnects => some (w.cleanup h, [])
  | .joining n, .joined =>
      match w.tasks[n]? with
      | some task => if task.isDone then some (w.release h, []) else none
      | none => none
  | _, _ => none

/-! ## What a handler leaves alone -/

/-- A step that touches neither the session nor the store, and says nothing about
stream tasks. -/
structure Frame (w w' : State) (o : List Obs) : Prop where
  tree : w'.tree = w.tree
  session : w'.sc.session = w.sc.session
  silent : o.filterMap Obs.stream? = []

theorem frame_connect (w : State) : Frame w w.connect [] := by
  unfold State.connect
  split <;> exact ⟨rfl, rfl, rfl⟩

theorem frame_cleanup (w : State) (h : ℕ) : Frame w (w.cleanup h) [] := by
  unfold State.cleanup
  split <;> exact ⟨rfl, rfl, rfl⟩

theorem frame_onFrame {w w' : State} {h : ℕ} {frame : Option ClientFrame} {o : List Obs}
    (hs : w.onFrame h frame = (w', o)) : Frame w w' o := by
  unfold State.onFrame at hs
  split at hs
  · cases hs
    exact ⟨rfl, rfl, rfl⟩
  · cases hs
    exact ⟨rfl, rfl, rfl⟩
  · split at hs <;>
      · cases hs
        exact ⟨rfl, rfl, rfl⟩
  · split at hs <;>
      · cases hs
        exact ⟨rfl, rfl, rfl⟩

theorem frame_stepHandler {w w' : State} {h : ℕ} {phase : HandlerPhase} {i : HandlerInput}
    {o : List Obs} (hs : stepHandler w h phase i = some (w', o)) : Frame w w' o := by
  cases phase with
  | accepting | refusing | closing =>
      cases i <;> cases hs
      all_goals exact ⟨rfl, rfl, rfl⟩
  | receiving =>
      cases i with
      | receives frame => exact frame_onFrame (Option.some.inj hs)
      | disconnects =>
          cases hs
          exact frame_cleanup w h
      | _ => cases hs
  | replying =>
      cases i with
      | replied =>
          cases hs
          exact ⟨rfl, rfl, rfl⟩
      | disconnects =>
          cases hs
          exact frame_cleanup w h
      | _ => cases hs
  | joining n =>
      cases i with
      | joined =>
          simp only [stepHandler] at hs
          split at hs
          · split at hs
            · cases hs
              exact ⟨rfl, rfl, rfl⟩
            · cases hs
          · cases hs
      | _ => cases hs
  | ended => cases i <;> cases hs

section

variable [UnicodeData] [SessionCodec]

/-- A step of a stream task. -/
def stepStream (a : SessionFileAdapter) (w : State) (n : ℕ) (i : StreamInput)
    (faults : List (Option FileTree.Fault)) : Option (State × List Obs) :=
  match w.tasks[n]? with
  | none => none
  | some task =>
      (task.step a w.tree w.sc.session faults i).map fun ((tree, session, task), o) ↦
        ({ w with tree, sc := { w.sc with session }, tasks := w.tasks.set n task },
          o.map (.stream n))

/-- One step: `none` when nobody waits for the input. -/
def step (a : SessionFileAdapter) (w : State) : Input → Option (State × List Obs)
  | .connects => some (w.connect, [])
  | .handler h i =>
      match w.handlers[h]? with
      | none => none
      | some phase => stepHandler w h phase i
  | .stream n i faults => stepStream a w n i faults

/-- A step is framed, or is the step of a task. -/
theorem step_cases {a : SessionFileAdapter} {w w' : State} {i : Input} {o : List Obs}
    (hs : step a w i = some (w', o)) :
    Frame w w' o ∨ ∃ n i' faults task task' o', i = .stream n i' faults ∧
      w.tasks[n]? = some task ∧
      task.step a w.tree w.sc.session faults i' = some ((w'.tree, w'.sc.session, task'), o') ∧
      w'.tasks = w.tasks.set n task' ∧ o = o'.map (.stream n) := by
  cases i with
  | connects =>
      cases hs
      exact Or.inl (frame_connect w)
  | handler h i =>
      simp only [step] at hs
      split at hs
      · cases hs
      · exact Or.inl (frame_stepHandler hs)
  | stream n i faults =>
      simp only [step, stepStream] at hs
      split at hs
      · cases hs
      · rename_i task htask
        obtain ⟨⟨⟨tree, session, task'⟩, o'⟩, hstep, heq⟩ := Option.map_eq_some_iff.mp hs
        cases heq
        exact Or.inr ⟨n, i, faults, task, task', o', rfl, htask, hstep, rfl, rfl⟩

/-- The machine of the handlers and tasks of one `SessionConnections` object. -/
def machine (a : SessionFileAdapter) : Mealy State Input Obs := ⟨step a⟩

end

end WsHandler
