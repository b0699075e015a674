import ChatServer.Service.UseCases
import ChatServer.Web.HandlerStep

/-!
# Who holds a session

`sc.ws` is meant to say which socket a `SessionConnections` object serves.
`State.Exclusive` is the law behind it: a handler that has set `sc.ws` has it to itself,
and every other one has been turned away or is over.  It is kept by every step but one,
the return of an `accept()` while another handler, which also found the object free, is
still in its own (`Exclusive.step`).

Under this law the tracked stream task is the only one that can be unfinished
(`Tracked.step`).
-/

theorem StreamTask.isDone_cancel (task : StreamTask) : task.cancel.isDone = task.isDone := by
  unfold StreamTask.cancel
  split <;> rfl

/-- A task that is done makes no step. -/
theorem StreamTask.step_of_isDone [UnicodeData] [SessionCodec] {a : SessionFileAdapter}
    {t : FileTree} {s : Session} {faults : List (Option FileTree.Fault)} {task : StreamTask}
    (hdone : task.isDone = true) (i : StreamInput) : task.step a t s faults i = none := by
  obtain ⟨ws, content, phase, cancelRequested⟩ := task
  cases phase with
  | finished result =>
      rw [StreamTask.step, Option.map_eq_none_iff]
      cases cancelRequested with
      | true =>
          simp only [if_true]
          split <;> rfl
      | false => rfl
  | _ => cases hdone

namespace WsHandler

namespace State

/-- A handler that holds the object is the one it names, and the others are turned
away. -/
def Exclusive (w : State) : Prop :=
  ∀ h phase, w.At h phase → phase.Holds → w.sc.ws = some h ∧
    ∀ h' phase', w.At h' phase' → h' ≠ h → phase'.TurnedAway

/-- An unfinished task is the one the object names, and some handler is in the loop, or
waits for this very task. -/
def Tracked (w : State) : Prop :=
  ∀ n task, w.tasks[n]? = some task → task.isDone = false → w.sc.streamTask = some n ∧
    ∃ h phase, w.At h phase ∧ (phase.InLoop ∨ phase = .joining n)

/-- No handler but `h` is in an `accept()` before which it found the object free. -/
def AloneAccepting (w : State) (h : ℕ) : Prop := ∀ h', w.At h' .accepting → h' = h

theorem exclusive_init (t : FileTree) (s : Session) : (init t s).Exclusive := nofun

theorem tracked_init (t : FileTree) (s : Session) : (init t s).Tracked := nofun

theorem Exclusive.congr {w w' : State} (hw : w.Exclusive) (hhandlers : w'.handlers = w.handlers)
    (hws : w'.sc.ws = w.sc.ws) : w'.Exclusive := by
  intro h phase hh hholds
  rw [At, hhandlers] at hh
  obtain ⟨hown, hothers⟩ := hw h phase hh hholds
  refine ⟨hws.trans hown, fun h' phase' hh' ↦ ?_⟩
  rw [At, hhandlers] at hh'
  exact hothers h' phase' hh'

/-- A handler may go on as long as it takes nothing that it did not hold, and does not
come back after it was turned away. -/
theorem Exclusive.setHandler {w : State} (hw : w.Exclusive) {h : ℕ} {old new : HandlerPhase}
    (hh : w.At h old) (hholds : new.Holds → old.Holds) (haway : old.TurnedAway → new.TurnedAway) :
    (w.setHandler h new).Exclusive := by
  intro h₁ phase₁ hh₁ hholds₁
  rcases (at_setHandler hh).mp hh₁ with ⟨rfl, rfl⟩ | ⟨hne, hh₁⟩
  · obtain ⟨hown, hothers⟩ := hw h₁ old hh (hholds hholds₁)
    refine ⟨hown, fun h' phase' hh' hne ↦ ?_⟩
    rcases (at_setHandler hh).mp hh' with ⟨rfl, -⟩ | ⟨-, hh'⟩
    · exact absurd rfl hne
    · exact hothers h' phase' hh' hne
  · obtain ⟨hown, hothers⟩ := hw h₁ phase₁ hh₁ hholds₁
    refine ⟨hown, fun h' phase' hh' hne' ↦ ?_⟩
    rcases (at_setHandler hh).mp hh' with ⟨rfl, rfl⟩ | ⟨-, hh'⟩
    · exact haway (hothers h' old hh fun heq ↦ hne' heq)
    · exact hothers h' phase' hh' hne'

theorem Exclusive.addHandler {w : State} (hw : w.Exclusive) {new : HandlerPhase}
    (hholds : ¬ new.Holds) (haway : w.sc.ws ≠ none → new.TurnedAway) :
    (w.addHandler new).Exclusive := by
  intro h phase hh hphase
  rcases at_addHandler.mp hh with hh | ⟨-, rfl⟩
  · obtain ⟨hown, hothers⟩ := hw h phase hh hphase
    refine ⟨hown, fun h' phase' hh' hne ↦ ?_⟩
    rcases at_addHandler.mp hh' with hh' | ⟨-, rfl⟩
    · exact hothers h' phase' hh' hne
    · apply haway
      rw [hown]
      exact Option.some_ne_none h
  · exact absurd hphase hholds

/-- The handler that lets go was the only one to hold the object. -/
theorem Exclusive.release {w : State} (hw : w.Exclusive) {h : ℕ} {old : HandlerPhase}
    (hh : w.At h old) (hholds : old.Holds) : (w.release h).Exclusive := by
  intro h₁ phase₁ hh₁ hholds₁
  rcases (at_setHandler hh).mp hh₁ with ⟨-, rfl⟩ | ⟨hne, hh₁⟩
  · exact absurd hholds₁ id
  · have haway := (hw h old hh hholds).2 h₁ phase₁ hh₁ hne
    cases phase₁ <;> first | exact absurd hholds₁ id | exact absurd haway id

/-- A handler that enters when no other may takes the object for itself. -/
theorem Exclusive.enter {w : State} (hw : w.Exclusive) {h : ℕ} (hh : w.At h .accepting)
    (halone : w.AloneAccepting h) : (w.enter h).Exclusive := by
  -- nobody holds the object: everybody else would be turned away, but `h` is accepting
  have hfree : ∀ h' phase', w.At h' phase' → ¬ phase'.Holds := by
    intro h' phase' hh' hholds
    by_cases heq : h' = h
    · subst heq
      cases hh'.unique hh
      exact hholds
    · exact (hw h' phase' hh' hholds).2 h .accepting hh fun heq' ↦ heq heq'.symm
  have haway : ∀ h' phase', w.At h' phase' → h' ≠ h → phase'.TurnedAway := by
    intro h' phase' hh' hne
    cases phase' with
    | accepting => exact absurd (halone h' hh') hne
    | receiving | replying | joining n => exact absurd trivial (hfree h' _ hh')
    | refusing | closing | ended => trivial
  intro h₁ phase₁ hh₁ hholds₁
  rcases (at_setHandler hh).mp hh₁ with ⟨rfl, -⟩ | ⟨hne, hh₁⟩
  · refine ⟨rfl, fun h' phase' hh' hne ↦ ?_⟩
    rcases (at_setHandler hh).mp hh' with ⟨rfl, -⟩ | ⟨-, hh'⟩
    · exact absurd rfl hne
    · exact haway h' phase' hh' hne
  · exact absurd hholds₁ (hfree h₁ phase₁ hh₁)

/-! ## The tracked task -/

theorem busy?_eq_some {w : State} {n : ℕ} :
    w.busy? = some n ↔ w.sc.streamTask = some n ∧
      ∃ task, w.tasks[n]? = some task ∧ task.isDone = false := by
  unfold busy?
  constructor
  · intro h
    split at h
    · cases h
    · rename_i m hm
      split at h
      · cases h
      · rename_i task htask
        split at h
        · cases h
        · rename_i hdone
          cases h
          exact ⟨hm, task, htask, Bool.eq_false_iff.mpr hdone⟩
  · rintro ⟨hn, task, htask, hdone⟩
    simp only [hn, htask, hdone, Bool.false_eq_true, if_false]

/-- When the tracked task is done, so are all. -/
theorem Tracked.idle {w : State} (hw : w.Tracked) (hidle : w.busy? = none) : w.Idle := by
  intro task htask
  obtain ⟨n, hn⟩ := List.mem_iff_getElem?.mp htask
  by_contra hdone
  have hdone := Bool.eq_false_iff.mpr hdone
  have hbusy := busy?_eq_some.mpr ⟨(hw n task hn hdone).1, task, hn, hdone⟩
  rw [hidle] at hbusy
  cases hbusy

/-- At most one task is unfinished. -/
theorem Tracked.atMostOne {w : State} (hw : w.Tracked) {n n' : ℕ} {task task' : StreamTask}
    (hn : w.tasks[n]? = some task) (hdone : task.isDone = false)
    (hn' : w.tasks[n']? = some task') (hdone' : task'.isDone = false) : n = n' := by
  have htracked := (hw n task hn hdone).1.symm.trans (hw n' task' hn' hdone').1
  exact Option.some.inj htracked

theorem tracked_of_idle {w : State} (hw : w.Idle) : w.Tracked := by
  intro n task hn hdone
  rw [hw task (List.mem_of_getElem? hn)] at hdone
  cases hdone

/-- A handler may go on as long as it stays in the loop if it was there, and keeps
waiting for its task if it does. -/
theorem Tracked.setHandler {w : State} (hw : w.Tracked) {h : ℕ} {old new : HandlerPhase}
    (hh : w.At h old) (hkeep : ∀ n, (old.InLoop ∨ old = .joining n) →
      w.sc.streamTask = some n → new.InLoop ∨ new = .joining n) :
    (w.setHandler h new).Tracked := by
  intro n task hn hdone
  obtain ⟨htracked, h₁, phase₁, hh₁, hphase₁⟩ := hw n task hn hdone
  refine ⟨htracked, ?_⟩
  by_cases heq : h₁ = h
  · subst heq
    cases hh₁.unique hh
    exact ⟨h₁, new, (at_setHandler hh).mpr (Or.inl ⟨rfl, rfl⟩), hkeep n hphase₁ htracked⟩
  · exact ⟨h₁, phase₁, (at_setHandler hh).mpr (Or.inr ⟨heq, hh₁⟩), hphase₁⟩

/-- A handler that does not hold the object may do anything. -/
theorem Tracked.setHandler_of_not_holds {w : State} (hw : w.Tracked) {h : ℕ}
    {old : HandlerPhase} (hh : w.At h old) (hold : ¬ old.Holds) (new : HandlerPhase) :
    (w.setHandler h new).Tracked := by
  refine hw.setHandler hh fun n hphase _ ↦ ?_
  rcases hphase with hphase | rfl
  · exact absurd hphase.holds hold
  · exact absurd trivial hold

theorem Tracked.addHandler {w : State} (hw : w.Tracked) (new : HandlerPhase) :
    (w.addHandler new).Tracked := by
  intro n task hn hdone
  obtain ⟨htracked, h, phase, hh, hphase⟩ := hw n task hn hdone
  exact ⟨htracked, h, phase, at_addHandler.mpr (Or.inl hh), hphase⟩

/-- Tasks may be replaced by tasks that are not less done. -/
theorem Tracked.congr {w w' : State} (hw : w.Tracked) (hhandlers : w'.handlers = w.handlers)
    (htracked : w'.sc.streamTask = w.sc.streamTask)
    (htasks : ∀ (n : ℕ) (task' : StreamTask), w'.tasks[n]? = some task' → task'.isDone = false →
      ∃ task : StreamTask, w.tasks[n]? = some task ∧ task.isDone = false) : w'.Tracked := by
  intro n task' hn' hdone'
  obtain ⟨task, hn, hdone⟩ := htasks n task' hn' hdone'
  obtain ⟨htask, h, phase, hh, hphase⟩ := hw n task hn hdone
  refine ⟨htracked.trans htask, h, phase, ?_, hphase⟩
  rw [At, hhandlers]
  exact hh

theorem Tracked.cancelTask {w : State} (hw : w.Tracked) (n : ℕ) : (w.cancelTask n).Tracked := by
  refine Tracked.congr hw rfl rfl fun m task' hm' hdone' ↦ ?_
  rw [State.cancelTask, List.getElem?_modify] at hm'
  obtain ⟨task, hm, rfl⟩ := Option.map_eq_some_iff.mp hm'
  refine ⟨task, hm, ?_⟩
  split at hdone'
  · rwa [StreamTask.isDone_cancel] at hdone'
  · exact hdone'

/-- A new task, made when all others are done. -/
theorem Tracked.addTask {w : State} (hw : w.Idle) {h : ℕ} {phase : HandlerPhase}
    (hh : w.At h phase) (hphase : phase.InLoop) (content : String) :
    (w.addTask h content).Tracked := by
  intro n task hn hdone
  rcases List.getElem?_concat_iff.mp hn with hn | ⟨rfl, -⟩
  · rw [hw task (List.mem_of_getElem? hn)] at hdone
    cases hdone
  · exact ⟨rfl, h, phase, hh, Or.inl hphase⟩

/-- When the task a handler waited for is done, all are. -/
theorem Tracked.idle_of_joining {w : State} (hw : w.Tracked) (hexclusive : w.Exclusive)
    {h n : ℕ} {task : StreamTask} (hh : w.At h (.joining n)) (hn : w.tasks[n]? = some task)
    (hdone : task.isDone = true) : w.Idle := by
  intro task' htask'
  obtain ⟨m, hm⟩ := List.mem_iff_getElem?.mp htask'
  by_contra hundone
  obtain ⟨-, h', phase', hh', hphase'⟩ := hw m task' hm (Bool.eq_false_iff.mpr hundone)
  have hholds : ¬ phase'.TurnedAway := by
    rcases hphase' with hloop | rfl
    · cases phase' <;> first | exact id | exact absurd hloop id
    · exact id
  by_cases heq : h' = h
  · -- then it waits for this very task
    subst heq
    cases hh'.unique hh
    rcases hphase' with hloop | hjoin
    · exact hloop
    · cases hjoin
      cases hm.symm.trans hn
      exact hundone hdone
  · exact hholds ((hexclusive h _ hh trivial).2 h' phase' hh' heq)

theorem Tracked.release {w : State} (hidle : w.Idle) (h : ℕ) : (w.release h).Tracked :=
  tracked_of_idle hidle

/-! ## One step -/

section

variable [UnicodeData] [SessionCodec] {a : SessionFileAdapter} {w w' : State} {i : Input}
  {o : List Obs}

/-- **One step** keeps the object to one handler, unless it lets one enter while another
may. -/
theorem Exclusive.step (hw : w.Exclusive) (hs : Step a w i w' o)
    (halone : ∀ h, i = .handler h .accepted → w.At h .accepting → w.AloneAccepting h) :
    w'.Exclusive := by
  cases hs with
  | connects free => exact hw.addHandler id fun htaken ↦ absurd free htaken
  | connectsTaken h taken => exact hw.addHandler id fun _ ↦ trivial
  | enters h hh => exact hw.enter hh (halone h rfl hh)
  | refuses h hh => exact hw.setHandler hh id fun _ ↦ trivial
  | acceptFails h phase hh hphase => exact hw.setHandler hh False.elim fun _ ↦ trivial
  | closed h hh => exact hw.setHandler hh False.elim fun _ ↦ trivial
  | malformed h hh | ping h hh | replied h hh => exact hw.setHandler hh (fun _ ↦ trivial) id
  | refuseMessage h n content hh busy => exact hw.setHandler hh (fun _ ↦ trivial) id
  | cancel h n hh busy => exact hw.congr rfl rfl
  | cancelNothing h hh idle => exact hw
  | sendMessage h content hh idle => exact hw.congr rfl rfl
  | leaves h n phase hh hphase busy =>
      have hcancelled : (w.cancelTask n).Exclusive := hw.congr rfl rfl
      refine hcancelled.setHandler hh (fun _ ↦ hphase.holds) fun haway ↦ ?_
      cases phase <;> first | exact absurd hphase id | exact absurd haway id
  | leavesIdle h phase hh hphase idle => exact hw.release hh hphase.holds
  | joined h n task hh htask hdone => exact hw.release hh trivial
  | stream n i faults task task' tree session o htask hstep => exact hw.congr rfl rfl

/-- **One step** keeps the unfinished task tracked. -/
theorem Tracked.step (hw : w.Tracked) (hexclusive : w.Exclusive) (hs : Step a w i w' o) :
    w'.Tracked := by
  cases hs with
  | connects free => exact hw.addHandler _
  | connectsTaken h taken => exact hw.addHandler _
  | enters h hh => exact hw.setHandler_of_not_holds hh id .receiving
  | refuses h hh => exact hw.setHandler_of_not_holds hh id _
  | acceptFails h phase hh hphase =>
      refine hw.setHandler_of_not_holds hh ?_ _
      rcases hphase with rfl | rfl <;> exact id
  | closed h hh => exact hw.setHandler_of_not_holds hh id _
  | malformed h hh | ping h hh | replied h hh =>
      exact hw.setHandler hh fun _ _ _ ↦ Or.inl trivial
  | refuseMessage h n content hh busy => exact hw.setHandler hh fun _ _ _ ↦ Or.inl trivial
  | cancel h n hh busy => exact hw.cancelTask n
  | cancelNothing h hh idle => exact hw
  | sendMessage h content hh idle => exact Tracked.addTask (hw.idle idle) hh trivial content
  | leaves h n phase hh hphase busy =>
      refine (hw.cancelTask n).setHandler hh fun m _ hm ↦ Or.inr ?_
      obtain ⟨hn, -⟩ := busy?_eq_some.mp busy
      rw [Option.some.inj (hn.symm.trans hm)]
  | leavesIdle h phase hh hphase idle => exact Tracked.release (hw.idle idle) h
  | joined h n task hh htask hdone =>
      exact Tracked.release (hw.idle_of_joining hexclusive hh htask hdone) h
  | stream n i faults task task' tree session o htask hstep =>
      refine Tracked.congr hw rfl rfl fun m task₁ hm hdone ↦ ?_
      rcases (List.getElem?_set_iff htask).mp hm with ⟨rfl, rfl⟩ | ⟨-, hm⟩
      · refine ⟨task, htask, ?_⟩
        by_contra htaskDone
        rw [StreamTask.step_of_isDone (Bool.eq_true_of_not_eq_false htaskDone)] at hstep
        cases hstep
      · exact ⟨task₁, hm, hdone⟩

end

end State

/-! ## Every run -/

/-- What became of a handler in a run: one that was turned away is closed with 4409
as soon as its `accept()` returns, and one that is over ended by this, or its `accept()`
raised, or it was in the loop and its client left. -/
def Known (is : List Input) (o : List Obs) (h : ℕ) : HandlerPhase → Prop
  | .accepting | .refusing | .receiving | .replying => True
  | .closing => .closes h 4409 ∈ o
  | .joining _ => .handler h .disconnects ∈ is
  | .ended => .closes h 4409 ∈ o ∨ .handler h .acceptFails ∈ is ∨ .handler h .disconnects ∈ is

theorem Known.append {is js : List Input} {o o' : List Obs} {h : ℕ} {phase : HandlerPhase}
    (hknown : Known is o h phase) : Known (is ++ js) (o ++ o') h phase := by
  cases phase with
  | accepting | refusing | receiving | replying => trivial
  | closing => exact List.mem_append_left _ hknown
  | joining n => exact List.mem_append_left _ hknown
  | ended =>
      rcases hknown with hclosed | hfailed | hleft
      · exact Or.inl (List.mem_append_left _ hclosed)
      · exact Or.inr (Or.inl (List.mem_append_left _ hfailed))
      · exact Or.inr (Or.inr (List.mem_append_left _ hleft))

/-- A handler in the loop serves the object alone: it is the one `sc.ws` names, and every
other attempt is being closed with 4409, or over. -/
def Serves (is : List Input) (w : State) (o : List Obs) : Prop :=
  ∀ h phase, w.At h phase → phase.InLoop → w.sc.ws = some h ∧
    ∀ h' phase', w.At h' phase' → h' ≠ h → phase'.TurnedAway ∧ Known is o h' phase'

/-- If the step is the return of an `accept()` before which the object was free, no other
such `accept()` is pending. -/
def EntersAlone (w : State) (i : Input) : Prop :=
  ∀ h, i = .handler h .accepted → w.At h .accepting → w.AloneAccepting h

section

variable [UnicodeData] [SessionCodec] {a : SessionFileAdapter} {t : FileTree} {s : Session}
  {w w' : State} {i : Input} {is : List Input} {o o' : List Obs}

/-- A handler that a step moves is known after it. -/
theorem Step.known (hs : Step a w i w' o')
    (hknown : ∀ h phase, w.At h phase → Known is o h phase) {h : ℕ} {phase : HandlerPhase}
    (hh : w'.At h phase) : Known (is ++ [i]) (o ++ o') h phase := by
  have hmoved : ∀ {h₁ : ℕ} {old : HandlerPhase} (new : HandlerPhase), w.At h₁ old →
      Known (is ++ [i]) (o ++ o') h₁ new → (w.setHandler h₁ new).At h phase →
        Known (is ++ [i]) (o ++ o') h phase := by
    intro h₁ old new hold hnew hset
    rcases (State.at_setHandler hold).mp hset with ⟨rfl, rfl⟩ | ⟨-, hsame⟩
    · exact hnew
    · exact (hknown h phase hsame).append
  have hlast : ∀ j : Input, j ∈ is ++ [j] := fun j ↦ List.mem_concat_self
  have hclosed : ∀ ob : Obs, ob ∈ o ++ [ob] := fun ob ↦ List.mem_concat_self
  cases hs with
  | connects free | connectsTaken h₁ taken =>
      rcases State.at_addHandler.mp hh with hsame | ⟨-, rfl⟩
      · exact (hknown h phase hsame).append
      · trivial
  | enters h₁ hold => exact hmoved .receiving hold trivial hh
  | refuses h₁ hold => exact hmoved .closing hold (hclosed _) hh
  | acceptFails h₁ phase₁ hold hphase => exact hmoved .ended hold (Or.inr (Or.inl (hlast _))) hh
  | closed h₁ hold =>
      refine hmoved .ended hold (Or.inl ?_) hh
      exact List.mem_append_left _ (hknown h₁ .closing hold)
  | malformed h₁ hold | ping h₁ hold => exact hmoved .replying hold trivial hh
  | refuseMessage h₁ n content hold busy => exact hmoved .replying hold trivial hh
  | replied h₁ hold => exact hmoved .receiving hold trivial hh
  | cancel h₁ n hold busy => exact (hknown h phase hh).append
  | cancelNothing h₁ hold idle => exact (hknown h phase hh).append
  | sendMessage h₁ content hold idle => exact (hknown h phase hh).append
  | leaves h₁ n phase₁ hold hphase busy =>
      exact hmoved (.joining n) hold (hlast _) hh
  | leavesIdle h₁ phase₁ hold hphase idle =>
      exact hmoved .ended hold (Or.inr (Or.inr (hlast _))) hh
  | joined h₁ n task hold htask hdone =>
      refine hmoved .ended hold (Or.inr (Or.inr ?_)) hh
      exact List.mem_append_left _ (hknown h₁ (.joining n) hold)
  | stream n i faults task task' tree session o htask hstep => exact (hknown h phase hh).append

theorem known_of_run (h : (machine a).run (.init t s) is = some (w, o)) :
    ∀ h phase, w.At h phase → Known is o h phase := by
  refine Mealy.run_induction (P := fun is w o ↦ ∀ h phase, w.At h phase → Known is o h phase)
    nofun ?_ h
  intro is w o i w' o' ih hs h phase hh
  exact (Step.of_step hs).known ih hh

theorem exclusive_of_run (h : (machine a).run (.init t s) is = some (w, o))
    (halone : (machine a).StepsMeet EntersAlone (.init t s) is) : w.Exclusive := by
  refine Mealy.run_induction_of_steps (P := fun _ w _ ↦ w.Exclusive) (Q := EntersAlone)
    (State.exclusive_init t s) ?_ h halone
  exact fun _ w _ i w' o' hw hQ hs ↦ hw.step (.of_step hs) hQ

/-- In a run of any number of connection attempts the handlers in the loop serve the
object one at a time, the others being closed with 4409, exactly if no `accept()` of a
socket that found it free returns while another such `accept()` is pending. -/
theorem serves_iff (h : (machine a).run (.init t s) is = some (w, o)) :
    (∀ js w₁ o₁, js <+: is → (machine a).run (.init t s) js = some (w₁, o₁) → Serves js w₁ o₁) ↔
      (machine a).StepsMeet EntersAlone (.init t s) is := by
  constructor
  · rintro hserves js _ w₁ o₁ hp hr h₁ rfl haccepting h' haccepting'
    -- the handler that enters is in the loop after the step, so `h'` would be turned away
    obtain ⟨w₂, o₂, hr₂⟩ := Mealy.run_prefix h hp
    obtain ⟨w₁', o₁', o', hr', hs, rfl⟩ := Mealy.exists_of_run_concat hr₂
    obtain ⟨rfl, rfl⟩ := Prod.mk.inj (Option.some.inj (hr'.symm.trans hr))
    by_contra hne
    have henter : w₂ = w₁'.enter h₁ := by
      have hstep : Step a w₁' (.handler h₁ .accepted) w₂ o' := .of_step hs
      cases hstep with
      | enters _ _ => rfl
      | refuses _ hrefusing => cases haccepting.unique hrefusing
    subst henter
    have hloop : (w₁'.enter h₁).At h₁ .receiving :=
      (State.at_setHandler haccepting).mpr (Or.inl ⟨rfl, rfl⟩)
    have haway := (hserves _ _ _ hp hr₂ h₁ _ hloop trivial).2 h' .accepting
      ((State.at_setHandler haccepting).mpr (Or.inr ⟨hne, haccepting'⟩)) hne
    exact haway.1
  · intro halone js w₁ o₁ hp hr h₁ phase hh hloop
    have hexclusive := exclusive_of_run hr (halone.restrict hp)
    obtain ⟨hown, hothers⟩ := hexclusive h₁ phase hh hloop.holds
    refine ⟨hown, fun h' phase' hh' hne ↦ ?_⟩
    exact ⟨hothers h' phase' hh' hne, known_of_run hr h' phase' hh'⟩

end

/-! ## Runs to evaluate -/

/-- The machine over the sample store. -/
def sampleMachine : Mealy State Input Obs := @machine .asciiOnly App.sampleCodec .sampleStore

/-- A session held in the registry without connection. -/
def sampleStart : State := .init App.sampleTree App.sampleSession

/-- A second client connects while a first one is served. -/
def sampleAttempts : List Input :=
  [.connects, .handler 0 .accepted, .connects, .handler 1 .accepted]

theorem entersAlone_sampleAttempts :
    sampleMachine.StepsMeet EntersAlone sampleStart sampleAttempts := by
  have hother : ∀ (w : State) (i : Input), (∀ h, i ≠ .handler h .accepted) → EntersAlone w i :=
    fun w i hi h heq ↦ absurd heq (hi h)
  refine .cons rfl (hother _ _ nofun) ?_
  refine .cons rfl ?_ ?_
  · rintro h hi - h' haccepting'
    cases hi
    cases h' with
    | zero => rfl
    | succ h' => cases haccepting'
  refine .cons rfl (hother _ _ nofun) ?_
  refine .cons rfl ?_ .nil
  rintro h hi haccepting
  cases hi
  cases haccepting

/-- The second client is closed with 4409. -/
theorem serves_sampleAttempts : ∃ w o, sampleMachine.run sampleStart sampleAttempts = some (w, o) ∧
    Serves sampleAttempts w o ∧ w.At 0 .receiving ∧ .closes 1 4409 ∈ o := by
  obtain ⟨⟨w, o⟩, hrun, heval⟩ := Option.map_eq_some_iff.mp
    (show (sampleMachine.run sampleStart sampleAttempts).map (fun r ↦ (r.1.handlers, r.2)) =
      some ([.receiving, .closing], [.closes 1 4409]) from rfl)
  obtain ⟨hhandlers, rfl⟩ := Prod.mk.inj heval
  have hserves := (@serves_iff .asciiOnly App.sampleCodec .sampleStore App.sampleTree
    App.sampleSession w sampleAttempts _ hrun).mpr entersAlone_sampleAttempts
  refine ⟨w, _, hrun, hserves sampleAttempts w _ List.prefix_rfl hrun, ?_,
    List.mem_singleton_self _⟩
  rw [State.At, hhandlers]
  rfl

/-- Two clients whose `accept()` overlaps are both served. -/
theorem two_in_loop : ∃ w, sampleMachine.run sampleStart
    [.connects, .connects, .handler 0 .accepted, .handler 1 .accepted] = some (w, []) ∧
      w.At 0 .receiving ∧ w.At 1 .receiving ∧ w.sc.ws = some 1 :=
  ⟨_, rfl, rfl, rfl, rfl⟩

end WsHandler
