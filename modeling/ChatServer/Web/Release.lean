import ChatServer.Web.Sockets
import ChatServer.Web.TurnRecords

/-!
# A session comes free again

While a handler holds a session, every other client that connects to it is turned away.  The
session comes free in the `finally` block of `handle_ws`, and before this the block waits for a
task that may itself wait, for an LLM or for its socket.  The wait ends since the task has been
cancelled: wherever it stands there is a suspension at which `CancelledError` is raised
(`StreamTask.Sound`), and none of its `except` clauses catches it.

So from every reachable state three steps of the handler that holds the session and of its
task are enough, and the next client is let in (`Server.readmits_of_run`).
-/

open FileTree

namespace StreamTask

/-- The generator is suspended where the phase of the task says. -/
def Sound (task : StreamTask) : Prop := ∃ text ms, Recorded task.content text task.phase ms

theorem sound_created (h : ℕ) (content : String) : Sound { ws := h, content } :=
  ⟨"", [], rfl, rfl⟩

theorem Sound.cancel {task : StreamTask} (h : task.Sound) : task.cancel.Sound := by
  unfold StreamTask.cancel
  split <;> exact h

/-- The task once `CancelledError` has left it. -/
def cancelled (task : StreamTask) : StreamTask :=
  { task with phase := .finished (some .cancelledError) }

section

variable [UnicodeData] [SessionCodec] {a : SessionFileAdapter} {t t' : FileTree}
  {s s' : Session} {faults : List (Option Fault)} {task task' : StreamTask}

theorem Sound.step {i : StreamInput} {o : List StreamObs} (h : task.Sound)
    (hs : task.step a t s faults i = some ((t', s', task'), o)) : task'.Sound := by
  obtain ⟨text, ms, hrecorded⟩ := h
  obtain ⟨rs, -, hrecorded', -⟩ := recorded_step hs hrecorded
  rw [← content_step hs] at hrecorded'
  exact ⟨_, _, hrecorded'⟩

/-- A cancellation that was requested can be delivered wherever the task stands; it ends the
task, and changes neither the session nor the store. -/
theorem Sound.step_cancelled (h : task.Sound) (hrequested : task.cancelRequested = true)
    (hdone : task.isDone = false) :
    ∃ o, task.step a t s faults .cancelled = some ((t, s, task.cancelled), o) := by
  obtain ⟨ws, content, phase, cancelRequested⟩ := task
  cases hrequested
  cases phase with
  | awaiting phase =>
      cases phase with
      | main text stop => exact ⟨_, rfl⟩
      | summary stop text => exact ⟨_, rfl⟩
      | chunk text stop | done =>
          obtain ⟨text, ms, hrecorded⟩ := h
          cases hrecorded
  | finished result => cases hdone
  | created => exact ⟨_, rfl⟩
  | sendingChunk phase => exact ⟨_, rfl⟩
  | sendingDone event rest => exact ⟨_, rfl⟩
  | sendingError => exact ⟨_, rfl⟩

theorem cancelRequested_step {i : StreamInput} {o : List StreamObs}
    (hs : task.step a t s faults i = some ((t', s', task'), o)) :
    task'.cancelRequested = task.cancelRequested := by
  obtain ⟨r, -, heq⟩ := Option.map_eq_some_iff.mp hs
  cases heq
  rfl

end

/-- The task is done, or will be at its next step. -/
def Ending (task : StreamTask) : Prop := task.isDone = true ∨ task.cancelRequested = true

theorem ending_cancel (task : StreamTask) : task.cancel.Ending := by
  unfold StreamTask.cancel
  split
  · rename_i hdone
    exact Or.inl hdone
  · exact Or.inr rfl

end StreamTask

namespace WsHandler

namespace State

/-- Whoever holds the object can leave it: its tasks are sound, the task a handler waits for
is ending, and the handler that the object names is there. -/
structure Leavable (w : State) : Prop where
  sound : ∀ (n : ℕ) (task : StreamTask), w.tasks[n]? = some task → task.Sound
  ending : ∀ h n, w.At h (.joining n) → ∃ task : StreamTask, w.tasks[n]? = some task ∧ task.Ending
  holder : ∀ h, w.sc.ws = some h → ∃ phase, w.At h phase ∧ phase.Holds

theorem leavable_init (t : FileTree) (s : Session) : (init t s).Leavable :=
  ⟨nofun, nofun, nofun⟩

/-- A handler may go on as long as it keeps the object if it held it, and waits for a task that
is ending if it does. -/
theorem Leavable.setHandler {w : State} (hw : w.Leavable) {h : ℕ} {old new : HandlerPhase}
    (hh : w.At h old) (hholds : old.Holds → new.Holds)
    (hnew : ∀ n, new = .joining n → ∃ task : StreamTask, w.tasks[n]? = some task ∧ task.Ending) :
    (w.setHandler h new).Leavable := by
  constructor
  · exact hw.sound
  · intro h' n hh'
    rcases (at_setHandler hh).mp hh' with ⟨-, heq⟩ | ⟨-, hh'⟩
    · exact hnew n heq.symm
    · exact hw.ending h' n hh'
  · intro h' hws
    obtain ⟨phase, hh', hphase⟩ := hw.holder h' hws
    by_cases heq : h' = h
    · subst heq
      cases hh'.unique hh
      exact ⟨new, (at_setHandler hh).mpr (Or.inl ⟨rfl, rfl⟩), hholds hphase⟩
    · exact ⟨phase, (at_setHandler hh).mpr (Or.inr ⟨heq, hh'⟩), hphase⟩

theorem Leavable.addHandler {w : State} (hw : w.Leavable) {new : HandlerPhase}
    (hnew : ¬ new.Holds) : (w.addHandler new).Leavable := by
  constructor
  · exact hw.sound
  · intro h n hh
    rcases at_addHandler.mp hh with hh | ⟨-, rfl⟩
    · exact hw.ending h n hh
    · exact absurd trivial hnew
  · intro h hws
    obtain ⟨phase, hh, hphase⟩ := hw.holder h hws
    exact ⟨phase, at_addHandler.mpr (Or.inl hh), hphase⟩

/-- Tasks may be added, and replaced by tasks that are not less ending. -/
theorem Leavable.congr {w w' : State} (hw : w.Leavable) (hhandlers : w'.handlers = w.handlers)
    (hws : w'.sc.ws = w.sc.ws)
    (hsound : ∀ (n : ℕ) (task : StreamTask), w'.tasks[n]? = some task → task.Sound)
    (hending : ∀ (n : ℕ) (task : StreamTask), w.tasks[n]? = some task → task.Ending →
      ∃ task' : StreamTask, w'.tasks[n]? = some task' ∧ task'.Ending) : w'.Leavable := by
  refine ⟨hsound, fun h n hh ↦ ?_, fun h hh ↦ ?_⟩
  · rw [At, hhandlers] at hh
    obtain ⟨task, htask, hend⟩ := hw.ending h n hh
    exact hending n task htask hend
  · rw [hws] at hh
    obtain ⟨phase, hat, hphase⟩ := hw.holder h hh
    refine ⟨phase, ?_, hphase⟩
    rw [At, hhandlers]
    exact hat

/-- After `cancel()` a task is ending, and the others are as they were. -/
theorem getElem?_cancelTask {w : State} {n m : ℕ} {task : StreamTask}
    (hm : w.tasks[m]? = some task) :
    ∃ task' : StreamTask, (w.cancelTask n).tasks[m]? = some task' ∧ (m = n → task'.Ending) ∧
      (task' = task ∨ task' = task.cancel) := by
  rw [State.cancelTask, List.getElem?_modify, hm]
  by_cases heq : n = m
  · exact ⟨task.cancel, by simp [heq], fun _ ↦ task.ending_cancel, Or.inr rfl⟩
  · exact ⟨task, by simp [heq], fun h ↦ absurd h.symm heq, Or.inl rfl⟩

theorem Leavable.cancelTask {w : State} (hw : w.Leavable) (n : ℕ) :
    (w.cancelTask n).Leavable := by
  refine hw.congr rfl rfl (fun m task' hm' ↦ ?_) fun m task hm hend ↦ ?_
  · rw [State.cancelTask, List.getElem?_modify] at hm'
    obtain ⟨task, hm, rfl⟩ := Option.map_eq_some_iff.mp hm'
    split
    · exact (hw.sound m task hm).cancel
    · exact hw.sound m task hm
  · obtain ⟨task', hm', -, hsame⟩ := getElem?_cancelTask (n := n) hm
    refine ⟨task', hm', ?_⟩
    rcases hsame with rfl | rfl
    · exact hend
    · exact task.ending_cancel

theorem Leavable.addTask {w : State} (hw : w.Leavable) (h : ℕ) (content : String) :
    (w.addTask h content).Leavable := by
  refine hw.congr rfl rfl (fun n task hn ↦ ?_) fun n task hn hend ↦ ?_
  · rcases List.getElem?_concat_iff.mp hn with hn | ⟨-, rfl⟩
    · exact hw.sound n task hn
    · exact StreamTask.sound_created h content
  · exact ⟨task, List.getElem?_concat_iff.mpr (Or.inl hn), hend⟩

/-- The handler that enters is the one the object names from now on. -/
theorem Leavable.enter {w : State} (hw : w.Leavable) {h : ℕ} (hh : w.At h .accepting) :
    (w.enter h).Leavable := by
  have hset : (w.setHandler h .receiving).Leavable := hw.setHandler hh (fun _ ↦ trivial) nofun
  refine ⟨hset.sound, hset.ending, ?_⟩
  intro h' hws
  cases hws
  exact ⟨.receiving, (at_setHandler hh).mpr (Or.inl ⟨rfl, rfl⟩), trivial⟩

theorem Leavable.release {w : State} (hw : w.Leavable) {h : ℕ} {old : HandlerPhase}
    (hh : w.At h old) : (w.release h).Leavable := by
  refine ⟨hw.sound, fun h' n hh' ↦ ?_, nofun⟩
  rcases (at_setHandler hh).mp hh' with ⟨-, heq⟩ | ⟨-, hh'⟩
  · cases heq
  · exact hw.ending h' n hh'

section

variable [UnicodeData] [SessionCodec] {a : SessionFileAdapter} {w w' : State} {i : Input}
  {o : List Obs}

/-- **One step** keeps the object leavable. -/
theorem Leavable.step (hw : w.Leavable) (hs : Step a w i w' o) : w'.Leavable := by
  cases hs with
  | connects free | connectsTaken h taken => exact hw.addHandler id
  | enters h hh => exact hw.enter hh
  | refuses h hh | closed h hh => exact hw.setHandler hh False.elim nofun
  | acceptFails h phase hh hphase =>
      refine hw.setHandler hh ?_ nofun
      rcases hphase with rfl | rfl <;> exact False.elim
  | malformed h hh | ping h hh | replied h hh => exact hw.setHandler hh (fun _ ↦ trivial) nofun
  | refuseMessage h n content hh busy => exact hw.setHandler hh (fun _ ↦ trivial) nofun
  | cancel h n hh busy => exact hw.cancelTask n
  | cancelNothing h hh idle => exact hw
  | sendMessage h content hh idle => exact hw.addTask h content
  | leaves h n phase hh hphase busy =>
      refine (hw.cancelTask n).setHandler hh (fun _ ↦ trivial) fun m hm ↦ ?_
      obtain rfl : n = m := HandlerPhase.joining.inj hm
      obtain ⟨-, task, htask, -⟩ := busy?_eq_some.mp busy
      obtain ⟨task', htask', hend, -⟩ := getElem?_cancelTask (n := n) htask
      exact ⟨task', htask', hend rfl⟩
  | leavesIdle h phase hh hphase idle => exact hw.release hh
  | joined h n task hh htask hdone => exact hw.release hh
  | stream n i faults task task' tree session o htask hstep =>
      refine hw.congr rfl rfl (fun m task₁ hm ↦ ?_) fun m task₁ hm hend ↦ ?_
      · rcases (List.getElem?_set_iff htask).mp hm with ⟨rfl, rfl⟩ | ⟨-, hm⟩
        · exact (hw.sound m task htask).step hstep
        · exact hw.sound m task₁ hm
      · by_cases heq : m = n
        · subst heq
          cases hm.symm.trans htask
          refine ⟨task', (List.getElem?_set_iff htask).mpr (Or.inl ⟨rfl, rfl⟩), Or.inr ?_⟩
          rw [StreamTask.cancelRequested_step hstep]
          rcases hend with hdone | hrequested
          · rw [not_isDone_of_step hstep] at hdone
            cases hdone
          · exact hrequested
        · exact ⟨task₁, (List.getElem?_set_iff htask).mpr (Or.inr ⟨heq, hm⟩), hend⟩

end

end State

/-! ## How a handler leaves -/

/-- What happens to a handler whose client is gone, and to the task its object names. -/
def Input.Leaves (h : ℕ) (streamTask : Option ℕ) : Input → Prop
  | .connects => False
  | .handler h' i => h' = h ∧ (i = .disconnects ∨ i = .joined)
  | .stream n i _ => streamTask = some n ∧ i = .cancelled

theorem Input.Leaves.ne_connects {h : ℕ} {streamTask : Option ℕ} {i : Input}
    (hi : i.Leaves h streamTask) : i ≠ .connects := by
  rintro rfl
  exact hi

namespace State

/-- What is left when a handler has left: the store and the session as they were, the object
free, and no task running. -/
structure Freed (w : State) (h : ℕ) (w' : State) : Prop where
  tree : w'.tree = w.tree
  sc : w'.sc = { session := w.sc.session }
  ended : w'.At h .ended
  length : w'.handlers.length = w.handlers.length
  idle : w'.Idle

theorem freed_release {w : State} {h : ℕ} {old : HandlerPhase} (hh : w.At h old)
    (hidle : w.Idle) : Freed w h (w.release h) :=
  ⟨rfl, rfl, (at_setHandler hh).mpr (Or.inl ⟨rfl, rfl⟩), List.length_set .., hidle⟩

theorem connect_of_free {w : State} (hfree : w.sc.ws = none) :
    w.connect = w.addHandler .accepting := by
  rw [connect, hfree]
  rfl

/-- The cancellation of a task has been delivered. -/
def endTask (w : State) (n : ℕ) (task : StreamTask) : State :=
  { w with tasks := w.tasks.set n task.cancelled }

section

variable [UnicodeData] [SessionCodec] {a : SessionFileAdapter} {w : State} {h n : ℕ}

theorem step_joined {task : StreamTask} (hh : w.At h (.joining n))
    (hn : w.tasks[n]? = some task) (hdone : task.isDone = true) :
    step a w (.handler h .joined) = some (w.release h, []) := by
  have hh' : w.handlers[h]? = some (.joining n) := hh
  simp only [step, hh', stepHandler, hn, hdone, if_true]

theorem step_accepted (hh : w.At h .accepting) :
    step a w (.handler h .accepted) = some (w.enter h, []) := by
  have hh' : w.handlers[h]? = some .accepting := hh
  simp only [step, hh']
  rfl

theorem step_disconnects {phase : HandlerPhase} (hh : w.At h phase) (hphase : phase.InLoop) :
    step a w (.handler h .disconnects) = some (w.cleanup h, []) := by
  have hh' : w.handlers[h]? = some phase := hh
  simp only [step, hh']
  cases phase with
  | receiving | replying => rfl
  | _ => exact absurd hphase id

/-- The task is cancelled at its suspension, unless it is done, and then the wait is over. -/
theorem frees_of_joining (hw : w.Leavable) (hexclusive : w.Exclusive) (htracked : w.Tracked)
    (hh : w.At h (.joining n)) :
    ∃ is w' o, (machine a).run w is = some (w', o) ∧ (∀ i ∈ is, i.Leaves h w.sc.streamTask) ∧
      is.length ≤ 2 ∧ Freed w h w' := by
  obtain ⟨task, hn, hend⟩ := hw.ending h n hh
  cases hdone : task.isDone with
  | true =>
      have hs : step a w (.handler h .joined) = some (w.release h, []) := step_joined hh hn hdone
      refine ⟨[.handler h .joined], _, _, Mealy.run_cons hs (Mealy.run_nil _ _), ?_, by simp, ?_⟩
      · intro i hi
        cases List.mem_singleton.mp hi
        exact ⟨rfl, Or.inr rfl⟩
      · exact freed_release hh (htracked.idle_of_joining hexclusive hh hn hdone)
  | false =>
      have hrequested : task.cancelRequested = true := by
        rcases hend with hdone' | hrequested
        · rw [hdone] at hdone'
          cases hdone'
        · exact hrequested
      have hcancelled : ∃ o, task.step a w.tree w.sc.session [] .cancelled =
          some ((w.tree, w.sc.session, task.cancelled), o) :=
        (hw.sound n task hn).step_cancelled hrequested hdone
      obtain ⟨o, hstep⟩ := hcancelled
      have hs : step a w (.stream n .cancelled []) =
          some (w.endTask n task, o.map (.stream n)) := by
        simp only [step, stepStream, hn, hstep, Option.map_some]
        rfl
      have hn' : (w.endTask n task).tasks[n]? = some task.cancelled :=
        (List.getElem?_set_iff hn).mpr (Or.inl ⟨rfl, rfl⟩)
      have hexclusive' : (w.endTask n task).Exclusive := by
        apply hexclusive.step (.of_step hs)
        intro h heq
        cases heq
      have htracked' := htracked.step hexclusive (.of_step hs)
      have hh' : (w.endTask n task).At h (.joining n) := hh
      have hjoined : step a (w.endTask n task) (.handler h .joined) =
          some ((w.endTask n task).release h, []) := step_joined hh' hn' rfl
      refine ⟨[.stream n .cancelled [], .handler h .joined], _, _,
        Mealy.run_cons hs (Mealy.run_cons hjoined (Mealy.run_nil _ _)), ?_, le_rfl, ?_⟩
      · intro i hi
        rcases List.mem_cons.mp hi with rfl | hi
        · exact ⟨(htracked n task hn hdone).1, rfl⟩
        · cases List.mem_singleton.mp hi
          exact ⟨rfl, Or.inr rfl⟩
      · have hfreed := freed_release hh' (htracked'.idle_of_joining hexclusive' hh' hn' rfl)
        exact ⟨hfreed.tree, hfreed.sc, hfreed.ended, hfreed.length, hfreed.idle⟩

/-- A client leaves; there may be no task to wait for. -/
theorem frees_of_inLoop (hw : w.Leavable) (hexclusive : w.Exclusive) (htracked : w.Tracked)
    {phase : HandlerPhase} (hh : w.At h phase) (hphase : phase.InLoop) :
    ∃ is w' o, (machine a).run w is = some (w', o) ∧ (∀ i ∈ is, i.Leaves h w.sc.streamTask) ∧
      is.length ≤ 3 ∧ Freed w h w' := by
  have hs : step a w (.handler h .disconnects) = some (w.cleanup h, []) :=
    step_disconnects hh hphase
  have hleaves : Input.Leaves h w.sc.streamTask (.handler h .disconnects) := ⟨rfl, Or.inl rfl⟩
  cases hbusy : w.busy? with
  | none =>
      have hcleanup : w.cleanup h = w.release h := by rw [cleanup, hbusy]
      rw [hcleanup] at hs
      refine ⟨[.handler h .disconnects], _, _, Mealy.run_cons hs (Mealy.run_nil _ _), ?_, by simp,
        freed_release hh (htracked.idle hbusy)⟩
      intro i hi
      cases List.mem_singleton.mp hi
      exact hleaves
  | some n =>
      have hcleanup : w.cleanup h = (w.cancelTask n).setHandler h (.joining n) := by
        rw [cleanup, hbusy]
      rw [hcleanup] at hs
      have hstep := Step.of_step hs
      have hexclusive' : ((w.cancelTask n).setHandler h (.joining n)).Exclusive := by
        apply hexclusive.step hstep
        intro h heq
        cases heq
      have hh' : ((w.cancelTask n).setHandler h (.joining n)).At h (.joining n) :=
        (at_setHandler (w := w.cancelTask n) hh).mpr (Or.inl ⟨rfl, rfl⟩)
      obtain ⟨is, w', o, hrun, his, hlength, hfreed⟩ := frees_of_joining (a := a)
        (hw.step hstep) hexclusive' (htracked.step hexclusive hstep) hh'
      refine ⟨.handler h .disconnects :: is, w', _, Mealy.run_cons hs hrun, ?_,
        Nat.succ_le_succ hlength, ?_⟩
      · intro i hi
        rcases List.mem_cons.mp hi with rfl | hi
        · exact hleaves
        · exact his i hi
      · refine ⟨hfreed.tree, hfreed.sc, hfreed.ended, hfreed.length.trans ?_, hfreed.idle⟩
        exact List.length_set ..

/-- Whoever holds the object leaves it by three steps at most. -/
theorem frees (hw : w.Leavable) (hexclusive : w.Exclusive) (htracked : w.Tracked)
    (hws : w.sc.ws = some h) :
    ∃ is w' o, (machine a).run w is = some (w', o) ∧ (∀ i ∈ is, i.Leaves h w.sc.streamTask) ∧
      is.length ≤ 3 ∧ Freed w h w' := by
  obtain ⟨phase, hh, hholds⟩ := hw.holder h hws
  cases phase with
  | receiving | replying => exact frees_of_inLoop hw hexclusive htracked hh trivial
  | joining n =>
      obtain ⟨is, w', o, hrun, his, hlength, hfreed⟩ :=
        frees_of_joining (a := a) hw hexclusive htracked hh
      exact ⟨is, w', o, hrun, his, hlength.trans (Nat.le_succ 2), hfreed⟩
  | _ => exact absurd hholds id

end

end State

end WsHandler

/-- The object once a client that found it free has been let in. -/
def Held.letIn (obj : Held) : Held :=
  { obj with
    sc := { obj.sc with ws := some obj.handlers.length }
    handlers := obj.handlers ++ [.receiving] }

namespace Server

/-- A client connects to a session, and the handler that is called for it is accepted. -/
def admission (id : String) (k h : ℕ) : List Input :=
  [.connect id, .object k (.handler h .accepted)]

/-- What happens to a handler of an object whose client is gone, and to the task the object
names. -/
def Input.Leaves (k h : ℕ) (streamTask : Option ℕ) : Input → Prop
  | .object k' i => k' = k ∧ i.Leaves h streamTask
  | _ => False

/-- Whoever holds an object can leave it. -/
def Leavable (w : Server) : Prop :=
  ∀ (k : ℕ) (obj : Held), w.objects[k]? = some obj → (obj.onTree w.tree).Leavable

/-- No handler is in an `accept()` before which it found its object free. -/
def NoneAccepting (w : Server) : Prop := ∀ k h, ¬ w.Accepting k h

theorem NoneAccepting.atomicAccept {w : Server} (hw : w.NoneAccepting) (i : Input) :
    w.AtomicAccept i :=
  fun k h haccepting ↦ absurd haccepting (hw k h)

theorem setObject_self {w : Server} {k : ℕ} {obj : Held} (hobj : w.objects[k]? = some obj) :
    w.setObject k (obj.onTree w.tree) = w := by
  obtain ⟨hlt, hget⟩ := List.getElem?_eq_some_iff.mp hobj
  have hset : w.objects.set k obj = w.objects := by
    rw [← hget]
    exact List.set_getElem_self hlt
  show { w with objects := w.objects.set k obj } = w
  rw [hset]

theorem setObject_setObject (w : Server) (k : ℕ) (c c' : WsHandler.State) :
    (w.setObject k c).setObject k c' = w.setObject k c' := by
  show { w with tree := c'.tree, objects := (w.objects.set k (.of c)).set k (.of c') } = _
  rw [List.set_set]
  rfl

section

variable [UnicodeData] [SessionCodec] [LlmPortFactory] {app : App} {w w' : Server} {o : List Obs}
  {k : ℕ} {obj : Held}

theorem Leavable.step {i : Input} (hw : w.Leavable) (hs : Step app w i w' o) : w'.Leavable := by
  intro k obj' hobj'
  cases hs.objects with
  | same h =>
      rw [h] at hobj'
      obtain ⟨hsound, hending, hholder⟩ := hw k obj' hobj'
      exact ⟨hsound, hending, hholder⟩
  | fresh session h =>
      rw [h] at hobj'
      rcases List.getElem?_concat_iff.mp hobj' with hobj' | ⟨-, rfl⟩
      · obtain ⟨hsound, hending, hholder⟩ := hw k obj' hobj'
        exact ⟨hsound, hending, hholder⟩
      · exact WsHandler.State.leavable_init w'.tree session
  | moved k₁ obj j c o hobj hstep h hj =>
      rw [h] at hobj'
      rcases (List.getElem?_set_iff hobj).mp hobj' with ⟨-, rfl⟩ | ⟨-, hobj'⟩
      · obtain ⟨hsound, hending, hholder⟩ := (hw k₁ obj hobj).step hstep
        exact ⟨hsound, hending, hholder⟩
      · obtain ⟨hsound, hending, hholder⟩ := hw k obj' hobj'
        exact ⟨hsound, hending, hholder⟩

theorem leavable_of_run {t : FileTree} {is : List Input}
    (h : (machine app).run (.start t) is = some (w, o)) : w.Leavable := by
  refine Mealy.run_induction (P := fun _ w _ ↦ w.Leavable) ?_ ?_ h
  · intro k obj hobj
    cases hobj
  · intro _ w _ i w' o' hw hs
    exact hw.step (.of_step hs)

/-- The steps of one object are steps of the server. -/
theorem step_object {i : WsHandler.Input} {c : WsHandler.State} {o : List WsHandler.Obs}
    (hobj : w.objects[k]? = some obj) (hi : i ≠ .connects)
    (hs : WsHandler.step app.repository (obj.onTree w.tree) i = some (c, o)) :
    step app w (.object k i) = some (w.setObject k c, o.map (.object k)) := by
  cases i with
  | connects => exact absurd rfl hi
  | handler h i => simp only [step, hobj, hs, Option.map_some]
  | stream n i faults => simp only [step, hobj, hs, Option.map_some]

theorem run_object {is : List WsHandler.Input} {c : WsHandler.State} {o : List WsHandler.Obs}
    (hobj : w.objects[k]? = some obj) (his : ∀ i ∈ is, i ≠ .connects)
    (hrun : (WsHandler.machine app.repository).run (obj.onTree w.tree) is = some (c, o)) :
    (machine app).run w (is.map (.object k)) =
      some (w.setObject k c, o.map (.object k)) := by
  induction is generalizing w obj o with
  | nil =>
      cases hrun
      rw [setObject_self hobj]
      rfl
  | cons i is ih =>
      obtain ⟨c₁, o₁, o₂, hs, htail, rfl⟩ := Mealy.exists_of_run_cons hrun
      have hobj₁ : (w.setObject k c₁).objects[k]? = some (.of c₁) :=
        (List.getElem?_set_iff hobj).mpr (Or.inl ⟨rfl, rfl⟩)
      have hrest := ih hobj₁ (fun j hj ↦ his j (List.mem_cons_of_mem i hj)) htail
      rw [setObject_setObject] at hrest
      rw [List.map_append]
      exact Mealy.run_cons (step_object hobj (his i List.mem_cons_self) hs) hrest

/-- A step of an object calls no new handler. -/
theorem NoneAccepting.step {i : WsHandler.Input} (hw : w.NoneAccepting)
    (hs : Step app w (.object k i) w' o) : w'.NoneAccepting := by
  cases hs with
  | object k i obj c o hi hobj hstep =>
      rintro k' h ⟨obj', hobj', hh⟩
      rcases (List.getElem?_set_iff hobj).mp hobj' with ⟨rfl, rfl⟩ | ⟨-, hobj'⟩
      · rcases hstep.at_accepting hh with hbefore | ⟨heq, -⟩
        · exact hw k' h ⟨obj, hobj, hbefore⟩
        · exact hi heq
      · exact hw k' h ⟨obj', hobj', hh⟩

theorem NoneAccepting.stepsMeet {is : List WsHandler.Input} {js : List Input}
    (hw : w.NoneAccepting) (hrun : (machine app).run w (is.map (.object k)) = some (w', o))
    (hjs : w'.NoneAccepting → (machine app).StepsMeet AtomicAccept w' js) :
    (machine app).StepsMeet AtomicAccept w (is.map (.object k) ++ js) := by
  induction is generalizing w o with
  | nil =>
      cases hrun
      exact hjs hw
  | cons i is ih =>
      obtain ⟨w₁, o₁, o₂, hs, htail, rfl⟩ := Mealy.exists_of_run_cons hrun
      exact .cons hs (hw.atomicAccept _) (ih (hw.step (.of_step hs)) htail)

/-! ## The next client -/

/-- A client that connects to a free object is let in. -/
theorem admits {id : String} (hheld : w.sessions.get? id = some k)
    (hobj : w.objects[k]? = some obj) (hfree : obj.sc.ws = none) :
    ∃ w' o', (machine app).run w (admission id k obj.handlers.length) = some (w', o') ∧
      w'.tree = w.tree ∧ w'.objects[k]? = some obj.letIn ∧
      (w.NoneAccepting →
        (machine app).StepsMeet AtomicAccept w (admission id k obj.handlers.length)) := by
  have hs : step app w (.connect id) =
      some (w.setObject k ((obj.onTree w.tree).addHandler .accepting), []) := by
    simp only [step, onConnect, hheld, connectTo, hobj, Option.map_some,
      WsHandler.State.connect_of_free (w := obj.onTree w.tree) hfree]
  have hobj' : (w.setObject k ((obj.onTree w.tree).addHandler .accepting)).objects[k]? =
      some (.of ((obj.onTree w.tree).addHandler .accepting)) :=
    (List.getElem?_set_iff hobj).mpr (Or.inl ⟨rfl, rfl⟩)
  have hh : ((obj.onTree w.tree).addHandler .accepting).At obj.handlers.length .accepting :=
    WsHandler.State.at_addHandler.mpr (Or.inr ⟨rfl, rfl⟩)
  have hi : WsHandler.Input.handler obj.handlers.length .accepted ≠ .connects := by
    intro heq
    cases heq
  have hs' := step_object hobj' hi (WsHandler.State.step_accepted (a := app.repository) hh)
  rw [setObject_setObject] at hs'
  refine ⟨_, _, Mealy.run_cons hs (Mealy.run_cons hs' (Mealy.run_nil _ _)), rfl, ?_, ?_⟩
  · refine (List.getElem?_set_iff hobj).mpr (Or.inl ⟨rfl, ?_⟩)
    have hset : (obj.handlers ++ [HandlerPhase.accepting]).set obj.handlers.length .receiving =
        obj.handlers ++ [.receiving] := by
      rw [List.set_append_right _ _ le_rfl, Nat.sub_self]
      rfl
    rw [Held.letIn, ← hset]
    rfl
  · intro hw
    refine .cons hs (hw.atomicAccept _) (.cons hs' ?_ .nil)
    -- the handler that was called is the only one that is accepting
    rintro k' h ⟨obj₁, hobj₁, hat⟩
    left
    rcases (List.getElem?_set_iff hobj).mp hobj₁ with ⟨rfl, rfl⟩ | ⟨-, hobj₁⟩
    · rcases WsHandler.State.at_addHandler.mp hat with hat | ⟨rfl, -⟩
      · exact absurd ⟨obj, hobj, hat⟩ (hw k' h)
      · rfl
    · exact absurd ⟨obj₁, hobj₁, hat⟩ (hw k' h)

/-- **No session is held for good.**  In every reachable state, by at most three steps of the
handler that holds the object of a session and of its stream, and whatever all others are
suspended in, the object comes free, with no stream running and the session and the store as
they were; the next client that connects to the session is let in. -/
theorem readmits_of_run {t : FileTree} {is : List Input} {id : String} {h : ℕ}
    (hrun : (machine app).run (.start t) is = some (w, o))
    (hatomic : (machine app).StepsMeet AtomicAccept (.start t) is)
    (hheld : w.sessions.get? id = some k) (hobj : w.objects[k]? = some obj)
    (htaken : obj.sc.ws = some h) :
    ∃ js w' o' obj', (∀ j ∈ js, j.Leaves k h obj.sc.streamTask) ∧ js.length ≤ 3 ∧
      (machine app).run w (js ++ admission id k obj.handlers.length) = some (w', o') ∧
      (w.NoneAccepting →
        (machine app).StepsMeet AtomicAccept w (js ++ admission id k obj.handlers.length)) ∧
      w'.tree = w.tree ∧ w'.objects[k]? = some obj' ∧
      obj'.sc = { session := obj.sc.session, ws := some obj.handlers.length } ∧
      (∀ task ∈ obj'.tasks, task.isDone = true) ∧
      obj'.handlers[h]? = some .ended ∧
      obj'.handlers[obj.handlers.length]? = some .receiving := by
  obtain ⟨hexclusive, htracked⟩ := (orderly_of_run hrun hatomic).objects k obj hobj
  obtain ⟨js, c, o₁, hleave, hjs, hlength, hfreed⟩ := WsHandler.State.frees (a := app.repository)
    (leavable_of_run hrun k obj hobj) hexclusive htracked htaken
  have hrun₁ := run_object hobj (fun j hj ↦ (hjs j hj).ne_connects) hleave
  have hobj₁ : (w.setObject k c).objects[k]? = some (.of c) :=
    (List.getElem?_set_iff hobj).mpr (Or.inl ⟨rfl, rfl⟩)
  have hfree : (Held.of c).sc.ws = none := by
    show c.sc.ws = none
    rw [hfreed.sc]
  have hheld₁ : (w.setObject k c).sessions.get? id = some k := hheld
  have hcount : (Held.of c).handlers.length = obj.handlers.length := hfreed.length
  obtain ⟨w', o₂, hrun₂, htree, hobj₂, hmeets⟩ :=
    @admits _ _ _ app (w.setObject k c) k (.of c) id hheld₁ hobj₁ hfree
  rw [hcount] at hrun₂ hmeets
  refine ⟨js.map (.object k), w', _, _, ?_, ?_, Mealy.run_append hrun₁ hrun₂, ?_,
    htree.trans hfreed.tree, hobj₂, ?_, hfreed.idle, ?_, ?_⟩
  · intro j hj
    obtain ⟨i, hi, rfl⟩ := List.mem_map.mp hj
    exact ⟨rfl, hjs i hi⟩
  · rwa [List.length_map]
  · exact fun hw ↦ hw.stepsMeet hrun₁ hmeets
  · show { c.sc with ws := some (Held.of c).handlers.length } = _
    rw [hfreed.sc, hcount]
    rfl
  · exact List.getElem?_concat_iff.mpr (Or.inl hfreed.ended)
  · exact List.getElem?_concat_iff.mpr (Or.inr ⟨hcount.symm, rfl⟩)

end

/-! ## A run to evaluate -/

/-- The client whose message is being answered leaves, and another one is let in. -/
theorem readmits_sampleFirstMessage : ∃ w o obj,
    sampleMachine.run sampleStart sampleFirstMessage = some (w, o) ∧ w.objects[0]? = some obj ∧
      obj.tasks.map (·.isDone) = [false] ∧
      ∃ js w' o' obj', (∀ j ∈ js, j.Leaves 0 0 (some 0)) ∧ js.length ≤ 3 ∧
        sampleMachine.run w (js ++ admission "s" 0 1) = some (w', o') ∧
        w'.objects[0]? = some obj' ∧ obj'.sc = { session := obj.sc.session, ws := some 1 } ∧
        (∀ task ∈ obj'.tasks, task.isDone = true) := by
  obtain ⟨⟨w, o⟩, hrun, heval⟩ := Option.map_eq_some_iff.mp
    (show (sampleMachine.run sampleStart sampleFirstMessage).map
      (fun r ↦ (r.1.sessions.get? "s", r.1.objects[0]?.map fun obj ↦
        (obj.tasks.map (·.isDone), obj.sc.ws, obj.sc.streamTask, obj.handlers.length))) =
          some (some 0, some ([false], some 0, some 0, 1)) from rfl)
  obtain ⟨hheld, heval⟩ := Prod.mk.inj heval
  obtain ⟨obj, hobj, heval⟩ := Option.map_eq_some_iff.mp heval
  obtain ⟨htasks, heval⟩ := Prod.mk.inj heval
  obtain ⟨htaken, heval⟩ := Prod.mk.inj heval
  obtain ⟨htask, hcount⟩ := Prod.mk.inj heval
  obtain ⟨js, w', o', obj', hjs, hlength, hrun', -, -, hobj', hsc, hidle, -, -⟩ :=
    @readmits_of_run .asciiOnly App.sampleCodec App.sampleFactory App.sample w o 0 obj
      App.sampleTree sampleFirstMessage "s" 0 hrun atomicAccept_sampleFirstMessage hheld hobj
      htaken
  rw [htask] at hjs
  rw [hcount] at hrun' hsc
  exact ⟨w, o, obj, hrun, hobj, htasks, js, w', o', obj', hjs, hlength, hrun', hobj', hsc, hidle⟩

end Server
