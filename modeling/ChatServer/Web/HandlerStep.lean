import ChatServer.Web.Handler

/-!
# What a step of the handlers can do

`WsHandler.Step` lists the transitions of the machine of `ChatServer.Web.Handler`, one
constructor for each, with the guard under which it is taken.  `Step.of_step` is the
inversion of the step function; the invariants of the modules that follow are case
analyses on `Step` and never unfold the function.
-/

/-! ## Lists of parties -/

section

variable {α : Type} {l : List α} {i j : ℕ} {old new x : α}

/-- What is where after one entry has been replaced. -/
theorem List.getElem?_set_iff (h : l[i]? = some old) :
    (l.set i new)[j]? = some x ↔ j = i ∧ x = new ∨ j ≠ i ∧ l[j]? = some x := by
  obtain ⟨hlt, -⟩ := List.getElem?_eq_some_iff.mp h
  rw [List.getElem?_set]
  by_cases heq : i = j
  · subst heq
    rw [if_pos rfl, if_pos hlt]
    constructor
    · intro hx
      exact Or.inl ⟨rfl, (Option.some.inj hx).symm⟩
    · rintro (⟨-, rfl⟩ | ⟨hne, -⟩)
      · rfl
      · exact absurd rfl hne
  · rw [if_neg heq]
    constructor
    · intro hx
      exact Or.inr ⟨fun h' ↦ heq h'.symm, hx⟩
    · rintro (⟨rfl, -⟩ | ⟨-, hx⟩)
      · exact absurd rfl heq
      · exact hx

/-- What is where after one entry has been added. -/
theorem List.getElem?_concat_iff :
    (l ++ [new])[j]? = some x ↔ l[j]? = some x ∨ j = l.length ∧ x = new := by
  rw [List.getElem?_append]
  split
  · rename_i hlt
    constructor
    · exact Or.inl
    · rintro (hx | ⟨rfl, -⟩)
      · exact hx
      · exact absurd hlt (lt_irrefl _)
  · rename_i hle
    rw [List.getElem?_eq_none (not_lt.mp hle)]
    constructor
    · intro hx
      obtain ⟨hone, rfl⟩ := List.getElem?_eq_some_iff.mp hx
      rw [List.length_singleton] at hone
      exact Or.inr ⟨by omega, List.getElem_singleton ..⟩
    · rintro (hx | ⟨rfl, rfl⟩)
      · cases hx
      · rw [Nat.sub_self]
        rfl

end

namespace HandlerPhase

/-- `_ws_loop` runs. -/
def InLoop : HandlerPhase → Prop
  | receiving | replying => True
  | _ => False

/-- The handler has set `sc.ws`, and has not yet cleared it. -/
def Holds : HandlerPhase → Prop
  | receiving | replying | joining _ => True
  | _ => False

/-- The handler found the object taken, or is over. -/
def TurnedAway : HandlerPhase → Prop
  | refusing | closing | ended => True
  | _ => False

theorem InLoop.holds {phase : HandlerPhase} (h : phase.InLoop) : phase.Holds := by
  cases phase <;> trivial

end HandlerPhase

namespace WsHandler

namespace State

/-- A handler is suspended in a phase. -/
def At (w : State) (h : ℕ) (phase : HandlerPhase) : Prop := w.handlers[h]? = some phase

theorem At.unique {w : State} {h : ℕ} {phase phase' : HandlerPhase} (hp : w.At h phase)
    (hp' : w.At h phase') : phase = phase' :=
  Option.some.inj (hp.symm.trans hp')

/-- Who is where after one handler has gone on. -/
theorem at_setHandler {w : State} {h h' : ℕ} {old new phase : HandlerPhase} (hh : w.At h old) :
    (w.setHandler h new).At h' phase ↔ h' = h ∧ phase = new ∨ h' ≠ h ∧ w.At h' phase :=
  List.getElem?_set_iff hh

/-- A new handler has been called. -/
def addHandler (w : State) (phase : HandlerPhase) : State :=
  { w with handlers := w.handlers ++ [phase] }

/-- Who is where after a new handler has been called. -/
theorem at_addHandler {w : State} {h : ℕ} {new phase : HandlerPhase} :
    (w.addHandler new).At h phase ↔ w.At h phase ∨ h = w.handlers.length ∧ phase = new :=
  List.getElem?_concat_iff

/-- The state after a new task has been made for a message. -/
def addTask (w : State) (h : ℕ) (content : String) : State :=
  { w with
    sc := { w.sc with streamTask := some w.tasks.length }
    tasks := w.tasks ++ [{ ws := h, content }] }

/-- `sc.ws = websocket`. -/
def enter (w : State) (h : ℕ) : State :=
  { w.setHandler h .receiving with sc := { w.sc with ws := some h } }

end State

/-- The transitions of the handlers and tasks of one object. -/
inductive Step [UnicodeData] [SessionCodec] (a : SessionFileAdapter) (w : State) :
    Input → State → List Obs → Prop where
  | connects (free : w.sc.ws = none) : Step a w .connects (w.addHandler .accepting) []
  | connectsTaken (h : ℕ) (taken : w.sc.ws = some h) :
      Step a w .connects (w.addHandler .refusing) []
  | enters (h : ℕ) (hh : w.At h .accepting) : Step a w (.handler h .accepted) (w.enter h) []
  | refuses (h : ℕ) (hh : w.At h .refusing) :
      Step a w (.handler h .accepted) (w.setHandler h .closing) [.closes h 4409]
  | acceptFails (h : ℕ) (phase : HandlerPhase) (hh : w.At h phase)
      (hphase : phase = .accepting ∨ phase = .refusing) :
      Step a w (.handler h .acceptFails) (w.setHandler h .ended) []
  | closed (h : ℕ) (hh : w.At h .closing) :
      Step a w (.handler h .closed) (w.setHandler h .ended) []
  | malformed (h : ℕ) (hh : w.At h .receiving) :
      Step a w (.handler h (.receives none)) (w.setHandler h .replying)
        [.replies h (.error "invalid_frame" "Could not parse client frame.")]
  | ping (h : ℕ) (hh : w.At h .receiving) :
      Step a w (.handler h (.receives (some .ping))) (w.setHandler h .replying)
        [.replies h .pong]
  | cancel (h n : ℕ) (hh : w.At h .receiving) (busy : w.busy? = some n) :
      Step a w (.handler h (.receives (some .cancel))) (w.cancelTask n) []
  | cancelNothing (h : ℕ) (hh : w.At h .receiving) (idle : w.busy? = none) :
      Step a w (.handler h (.receives (some .cancel))) w []
  | refuseMessage (h n : ℕ) (content : String) (hh : w.At h .receiving)
      (busy : w.busy? = some n) :
      Step a w (.handler h (.receives (some (.sendMessage content)))) (w.setHandler h .replying)
        [.replies h (.error "stream_in_progress" "A stream is already in progress.")]
  | sendMessage (h : ℕ) (content : String) (hh : w.At h .receiving) (idle : w.busy? = none) :
      Step a w (.handler h (.receives (some (.sendMessage content)))) (w.addTask h content) []
  | replied (h : ℕ) (hh : w.At h .replying) :
      Step a w (.handler h .replied) (w.setHandler h .receiving) []
  | leaves (h n : ℕ) (phase : HandlerPhase) (hh : w.At h phase) (hphase : phase.InLoop)
      (busy : w.busy? = some n) :
      Step a w (.handler h .disconnects) ((w.cancelTask n).setHandler h (.joining n)) []
  | leavesIdle (h : ℕ) (phase : HandlerPhase) (hh : w.At h phase) (hphase : phase.InLoop)
      (idle : w.busy? = none) : Step a w (.handler h .disconnects) (w.release h) []
  | joined (h n : ℕ) (task : StreamTask) (hh : w.At h (.joining n))
      (htask : w.tasks[n]? = some task) (hdone : task.isDone = true) :
      Step a w (.handler h .joined) (w.release h) []
  | stream (n : ℕ) (i : StreamInput) (faults : List (Option FileTree.Fault))
      (task task' : StreamTask) (tree : FileTree) (session : Session) (o : List StreamObs)
      (htask : w.tasks[n]? = some task)
      (hstep : task.step a w.tree w.sc.session faults i = some ((tree, session, task'), o)) :
      Step a w (.stream n i faults)
        { w with tree, sc := { w.sc with session }, tasks := w.tasks.set n task' }
        (o.map (.stream n))

section

variable [UnicodeData] [SessionCodec] {a : SessionFileAdapter} {w w' : State} {o : List Obs}

theorem Step.of_cleanup {h : ℕ} {phase : HandlerPhase} (hh : w.At h phase)
    (hphase : phase.InLoop) : Step a w (.handler h .disconnects) (w.cleanup h) [] := by
  unfold State.cleanup
  split
  · rename_i n hbusy
    exact .leaves h n phase hh hphase hbusy
  · rename_i hidle
    exact .leavesIdle h phase hh hphase hidle

theorem Step.of_onFrame {h : ℕ} {frame : Option ClientFrame} (hh : w.At h .receiving)
    (hs : w.onFrame h frame = (w', o)) : Step a w (.handler h (.receives frame)) w' o := by
  cases frame with
  | none =>
      cases hs
      exact .malformed h hh
  | some frame =>
      cases frame with
      | ping =>
          cases hs
          exact .ping h hh
      | cancel =>
          simp only [State.onFrame] at hs
          split at hs
          · rename_i n hbusy
            cases hs
            exact .cancel h n hh hbusy
          · rename_i hidle
            cases hs
            exact .cancelNothing h hh hidle
      | sendMessage content =>
          simp only [State.onFrame] at hs
          split at hs
          · rename_i n hbusy
            cases hs
            exact .refuseMessage h n content hh hbusy
          · rename_i hidle
            cases hs
            exact .sendMessage h content hh hidle

theorem Step.of_stepHandler {h : ℕ} {phase : HandlerPhase} {i : HandlerInput}
    (hh : w.At h phase) (hs : stepHandler w h phase i = some (w', o)) :
    Step a w (.handler h i) w' o := by
  cases phase with
  | accepting =>
      cases i <;> cases hs
      · exact .enters h hh
      · exact .acceptFails h _ hh (Or.inl rfl)
  | refusing =>
      cases i <;> cases hs
      · exact .refuses h hh
      · exact .acceptFails h _ hh (Or.inr rfl)
  | closing =>
      cases i <;> cases hs
      exact .closed h hh
  | receiving =>
      cases i with
      | receives frame => exact .of_onFrame hh (Option.some.inj hs)
      | disconnects =>
          cases hs
          exact .of_cleanup hh trivial
      | _ => cases hs
  | replying =>
      cases i with
      | replied =>
          cases hs
          exact .replied h hh
      | disconnects =>
          cases hs
          exact .of_cleanup hh trivial
      | _ => cases hs
  | joining n =>
      cases i with
      | joined =>
          simp only [stepHandler] at hs
          split at hs
          · rename_i task htask
            split at hs
            · rename_i hdone
              cases hs
              exact .joined h n task hh htask hdone
            · cases hs
          · cases hs
      | _ => cases hs
  | ended => cases i <;> cases hs

/-- Inversion of the step function. -/
theorem Step.of_step {i : Input} (hs : step a w i = some (w', o)) : Step a w i w' o := by
  cases i with
  | connects =>
      simp only [step, State.connect, Option.some.injEq, Prod.mk.injEq] at hs
      obtain ⟨rfl, rfl⟩ := hs
      split
      · rename_i h hws
        exact .connectsTaken h hws
      · rename_i hws
        exact .connects hws
  | handler h i =>
      simp only [step] at hs
      split at hs
      · cases hs
      · rename_i phase hphase
        exact .of_stepHandler hphase hs
  | stream n i faults =>
      simp only [step, stepStream] at hs
      split at hs
      · cases hs
      · rename_i task htask
        obtain ⟨⟨⟨tree, session, task'⟩, o'⟩, hstep, heq⟩ := Option.map_eq_some_iff.mp hs
        cases heq
        exact .stream n i faults task task' tree session o' htask hstep

end

end WsHandler
