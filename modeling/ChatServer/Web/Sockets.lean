import ChatServer.Web.SingleStream

/-!
# What is sent on a socket

`_ws_loop` answers the frames it receives, and a stream task sends on the socket its message
came from, while the loop goes on.  When the client leaves, the `finally` block cancels the
task and waits until it is done; so an unfinished task always has the handler of its socket in
the loop, or waiting for it (`State.Served`), and nothing is sent on a socket whose handler is
over (`Server.silent_of_run`).

`Answered` says what a socket gets for the frames it brings: each of them is answered in its
turn, or starts a stream, or asks for nothing (`answered_of_run`).
-/

open FileTree

namespace WsHandler

/-- An unfinished task sends on the socket of a handler that is in the loop, or waits for this
very task. -/
def State.Served (w : State) : Prop :=
  ∀ n task, w.tasks[n]? = some task → task.isDone = false →
    ∃ phase, w.At task.ws phase ∧ (phase.InLoop ∨ phase = .joining n)

theorem State.served_of_idle {w : State} (hw : w.Idle) : w.Served := by
  intro n task hn hdone
  rw [hw task (List.mem_of_getElem? hn)] at hdone
  cases hdone

theorem State.Served.congr {w w' : State} (hw : w.Served) (hhandlers : w'.handlers = w.handlers)
    (htasks : w'.tasks = w.tasks) : w'.Served := by
  intro n task hn hdone
  rw [htasks] at hn
  obtain ⟨phase, hat, hphase⟩ := hw n task hn hdone
  refine ⟨phase, ?_, hphase⟩
  rw [State.At, hhandlers]
  exact hat

/-- A handler goes on: those that were served by it still are. -/
theorem State.Served.setHandler {w : State} (hw : w.Served) {h : ℕ} {old new : HandlerPhase}
    (hh : w.At h old)
    (hnew : ∀ n task, w.tasks[n]? = some task → task.isDone = false →
      old.InLoop ∨ old = .joining n → new.InLoop ∨ new = .joining n) :
    (w.setHandler h new).Served := by
  intro n task hn hdone
  obtain ⟨phase, hat, hphase⟩ := hw n task hn hdone
  by_cases heq : task.ws = h
  · subst heq
    obtain rfl := hat.unique hh
    exact ⟨new, (State.at_setHandler hh).mpr (Or.inl ⟨rfl, rfl⟩), hnew n task hn hdone hphase⟩
  · exact ⟨phase, (State.at_setHandler hh).mpr (Or.inr ⟨heq, hat⟩), hphase⟩

theorem State.Served.addHandler {w : State} (hw : w.Served) (new : HandlerPhase) :
    (w.addHandler new).Served := by
  intro n task hn hdone
  obtain ⟨phase, hat, hphase⟩ := hw n task hn hdone
  exact ⟨phase, State.at_addHandler.mpr (Or.inl hat), hphase⟩

theorem ws_cancel (task : StreamTask) : task.cancel.ws = task.ws := by
  unfold StreamTask.cancel
  split <;> rfl

theorem content_cancel (task : StreamTask) : task.cancel.content = task.content := by
  unfold StreamTask.cancel
  split <;> rfl

theorem State.Served.cancelTask {w : State} (hw : w.Served) (n : ℕ) : (w.cancelTask n).Served := by
  intro m task hm hdone
  rw [State.cancelTask, List.getElem?_modify] at hm
  obtain ⟨task₁, hm₁, rfl⟩ := Option.map_eq_some_iff.mp hm
  have hsame : (if n = m then task₁.cancel else task₁).isDone = task₁.isDone ∧
      (if n = m then task₁.cancel else task₁).ws = task₁.ws := by
    split
    · exact ⟨StreamTask.isDone_cancel task₁, ws_cancel task₁⟩
    · exact ⟨rfl, rfl⟩
  rw [hsame.2]
  exact hw m task₁ hm₁ (hsame.1.symm.trans hdone)

section

variable [UnicodeData] [SessionCodec] {a : SessionFileAdapter} {w w' : State} {i : Input}
  {o : List Obs} {h n : ℕ}

/-- A step of a task leaves it the task of its message. -/
theorem ws_step {t t' : FileTree} {s s' : Session} {faults : List (Option Fault)}
    {task task' : StreamTask} {j : StreamInput} {o : List StreamObs}
    (hs : task.step a t s faults j = some ((t', s', task'), o)) :
    task'.ws = task.ws ∧ task'.content = task.content := by
  obtain ⟨⟨⟨t₁, s₁, phase⟩, o₁⟩, -, heq⟩ := Option.map_eq_some_iff.mp hs
  cases heq
  exact ⟨rfl, rfl⟩

theorem not_isDone_of_step {t t' : FileTree} {s s' : Session} {faults : List (Option Fault)}
    {task task' : StreamTask} {j : StreamInput} {o : List StreamObs}
    (hs : task.step a t s faults j = some ((t', s', task'), o)) : task.isDone = false := by
  by_contra hdone
  rw [StreamTask.step_of_isDone (Bool.eq_true_of_not_eq_false hdone)] at hs
  cases hs

/-- **One step** keeps the unfinished task served. -/
theorem State.Served.step (hw : w.Served) (hexclusive : w.Exclusive) (htracked : w.Tracked)
    (hs : Step a w i w' o) : w'.Served := by
  have hreceiving : ∀ {h : ℕ} {new : HandlerPhase}, w.At h .receiving → new.InLoop →
      (w.setHandler h new).Served :=
    fun hh hnew ↦ hw.setHandler hh fun _ _ _ _ _ ↦ Or.inl hnew
  have hunserving : ∀ {h : ℕ} {old new : HandlerPhase}, w.At h old →
      (∀ n, ¬ (old.InLoop ∨ old = .joining n)) → (w.setHandler h new).Served :=
    fun hh hold ↦ hw.setHandler hh fun n _ _ _ hserves ↦ absurd hserves (hold n)
  cases hs with
  | connects free | connectsTaken h taken => exact hw.addHandler _
  | enters h hh =>
      have hset : (w.setHandler h .receiving).Served :=
        hunserving hh (by simp [HandlerPhase.InLoop])
      exact hset.congr rfl rfl
  | refuses h hh => exact hunserving hh (by simp [HandlerPhase.InLoop])
  | closed h hh => exact hunserving hh (by simp [HandlerPhase.InLoop])
  | acceptFails h phase hh hphase =>
      rcases hphase with rfl | rfl <;> exact hunserving hh (by simp [HandlerPhase.InLoop])
  | malformed h hh | ping h hh => exact hreceiving hh trivial
  | refuseMessage h n content hh busy => exact hreceiving hh trivial
  | replied h hh => exact hw.setHandler hh fun _ _ _ _ _ ↦ Or.inl trivial
  | cancel h n hh busy => exact hw.cancelTask n
  | cancelNothing h hh idle => exact hw
  | sendMessage h content hh idle =>
      intro n task hn hdone
      rcases List.getElem?_concat_iff.mp hn with hn | ⟨-, rfl⟩
      · rw [htracked.idle idle task (List.mem_of_getElem? hn)] at hdone
        cases hdone
      · exact ⟨.receiving, hh, Or.inl trivial⟩
  | leaves h n phase hh hphase busy =>
      -- the unfinished task is the one that is cancelled, and it is waited for
      refine (hw.cancelTask n).setHandler hh fun m task hm hdone _ ↦ Or.inr ?_
      obtain ⟨hn, -⟩ := State.busy?_eq_some.mp busy
      obtain ⟨hm', -⟩ := htracked.cancelTask n m task hm hdone
      rw [Option.some.inj (hn.symm.trans hm')]
  | leavesIdle h phase hh hphase idle =>
      have hidle : (w.release h).Idle := htracked.idle idle
      exact State.served_of_idle hidle
  | joined h n task hh htask hdone =>
      have hidle : (w.release h).Idle := htracked.idle_of_joining hexclusive hh htask hdone
      exact State.served_of_idle hidle
  | stream n j faults task task' tree session o htask hstep =>
      intro m task₁ hm hdone
      rcases (List.getElem?_set_iff htask).mp hm with ⟨rfl, rfl⟩ | ⟨-, hm⟩
      · rw [(ws_step hstep).1]
        exact hw m task htask (not_isDone_of_step hstep)
      · exact hw m task₁ hm hdone

/-- A handler that has been turned away, or is over, does not come back. -/
theorem Step.turnedAway (hs : Step a w i w' o) {phase : HandlerPhase} (hh : w.At h phase)
    (haway : phase.TurnedAway) : ∃ phase', w'.At h phase' ∧ phase'.TurnedAway := by
  have hset : ∀ {h' : ℕ} {old new : HandlerPhase}, w.At h' old →
      (old.TurnedAway → new.TurnedAway) →
        ∃ phase', (w.setHandler h' new).At h phase' ∧ phase'.TurnedAway := by
    intro h' old new hold hnew
    by_cases heq : h = h'
    · subst heq
      obtain rfl := hh.unique hold
      exact ⟨new, (State.at_setHandler hold).mpr (Or.inl ⟨rfl, rfl⟩), hnew haway⟩
    · exact ⟨phase, (State.at_setHandler hold).mpr (Or.inr ⟨heq, hh⟩), haway⟩
  cases hs with
  | connects free | connectsTaken h' taken =>
      exact ⟨phase, State.at_addHandler.mpr (Or.inl hh), haway⟩
  | enters h' hold => exact hset hold False.elim
  | refuses h' hold => exact hset hold fun _ ↦ trivial
  | acceptFails h' old hold hphase => exact hset hold fun _ ↦ trivial
  | closed h' hold => exact hset hold fun _ ↦ trivial
  | malformed h' hold | ping h' hold | replied h' hold => exact hset hold False.elim
  | refuseMessage h' n content hold busy => exact hset hold False.elim
  | leaves h' n old hold hphase busy =>
      refine hset hold fun haway' ↦ ?_
      cases old <;> first | exact absurd hphase id | exact absurd haway' id
  | leavesIdle h' old hold hphase idle => exact hset hold fun _ ↦ trivial
  | joined h' n task hold htask hdone => exact hset hold fun _ ↦ trivial
  | _ => exact ⟨phase, hh, haway⟩

/-- A task stays the task of its message. -/
theorem Step.task_ws (hs : Step a w i w' o) {task : StreamTask} (hn : w.tasks[n]? = some task) :
    ∃ task', w'.tasks[n]? = some task' ∧ task'.ws = task.ws := by
  cases hs with
  | cancel h m hh busy | leaves h m phase hh hphase busy =>
      refine ⟨if m = n then task.cancel else task, ?_, ?_⟩
      · show (w.tasks.modify m .cancel)[n]? = _
        rw [List.getElem?_modify, hn]
        rfl
      · split
        · exact ws_cancel task
        · rfl
  | sendMessage h content hh idle => exact ⟨task, List.getElem?_concat_iff.mpr (Or.inl hn), rfl⟩
  | stream m j faults task₁ task' tree session o htask hstep =>
      by_cases heq : n = m
      · subst heq
        obtain rfl := Option.some.inj (hn.symm.trans htask)
        exact ⟨task', (List.getElem?_set_iff htask).mpr (Or.inl ⟨rfl, rfl⟩), (ws_step hstep).1⟩
      · exact ⟨task, (List.getElem?_set_iff htask).mpr (Or.inr ⟨heq, hn⟩), rfl⟩
  | _ => exact ⟨task, hn, rfl⟩

/-- The observation is not a frame for the socket `h`. -/
def Obs.Elsewhere (tasks : List StreamTask) (h : ℕ) : Obs → Prop
  | .replies h' _ => h' ≠ h
  | .stream n (.sends _) => ∃ task, tasks[n]? = some task ∧ task.ws ≠ h
  | _ => True

omit [UnicodeData] [SessionCodec] in
theorem Obs.Elsewhere.mono {tasks tasks' : List StreamTask} {ob : Obs} (hob : ob.Elsewhere tasks h)
    (htasks : ∀ (n : ℕ) (task : StreamTask), tasks[n]? = some task →
      ∃ task', tasks'[n]? = some task' ∧ task'.ws = task.ws) : ob.Elsewhere tasks' h := by
  cases ob with
  | stream n ob =>
      cases ob with
      | sends frame =>
          obtain ⟨task, hn, hws⟩ := hob
          obtain ⟨task', hn', heq⟩ := htasks n task hn
          exact ⟨task', hn', heq.symm ▸ hws⟩
      | _ => trivial
  | replies h' frame => exact hob
  | closes h' code => trivial

/-- A step sends nothing on the socket of a handler that has been turned away or is over. -/
theorem Step.elsewhere (hs : Step a w i w' o) (hw : w.Served) {phase : HandlerPhase}
    (hh : w.At h phase) (haway : phase.TurnedAway) {ob : Obs} (hob : ob ∈ o) :
    ob.Elsewhere w'.tasks h := by
  have hreplies : ∀ {h' : ℕ} {frame : ServerFrame}, w.At h' .receiving →
      ob ∈ [.replies h' frame] → ob.Elsewhere w'.tasks h := by
    intro h' frame hh' hmem
    rw [List.mem_singleton.mp hmem]
    rintro rfl
    cases hh.unique hh'
    exact haway
  cases hs with
  | refuses h' hh' =>
      rw [List.mem_singleton.mp hob]
      trivial
  | malformed h' hh' | ping h' hh' => exact hreplies hh' hob
  | refuseMessage h' n content hh' busy => exact hreplies hh' hob
  | stream n j faults task task' tree session o htask hstep =>
      obtain ⟨ob', -, rfl⟩ := List.mem_map.mp hob
      cases ob' with
      | sends frame =>
          refine ⟨task', (List.getElem?_set_iff htask).mpr (Or.inl ⟨rfl, rfl⟩), ?_⟩
          rw [(ws_step hstep).1]
          rintro rfl
          obtain ⟨phase', hat, hphase⟩ := hw n task htask (not_isDone_of_step hstep)
          obtain rfl := hat.unique hh
          rcases hphase with hloop | rfl
          · cases phase' <;> first | exact hloop | exact haway
          · exact haway
      | _ => trivial
  | _ => cases hob

end

end WsHandler

namespace Server

/-- The unfinished tasks of every object are served. -/
def Served (w : Server) : Prop :=
  ∀ (k : ℕ) (obj : Held), w.objects[k]? = some obj → (obj.onTree w.tree).Served

/-- The observation is not a frame for the socket `h` of the object `k`. -/
def Obs.Elsewhere (w : Server) (k h : ℕ) : Obs → Prop
  | .object k' ob => k' = k → ∃ obj, w.objects[k]? = some obj ∧ ob.Elsewhere obj.tasks h
  | _ => True

/-- The handler `h` of the object `k` was turned away or is over. -/
def TurnedAway (w : Server) (k h : ℕ) : Prop :=
  ∃ obj phase, w.objects[k]? = some obj ∧ (obj.onTree w.tree).At h phase ∧ phase.TurnedAway

section

variable [UnicodeData] [SessionCodec] [LlmPortFactory] {app : App} {w w' : Server} {i : Input}
  {o : List Obs} {k h : ℕ}

/-- **One step** of the server keeps the unfinished tasks served. -/
theorem Served.step (hw : w.Served) (horderly : w.Orderly) (hs : Step app w i w' o) :
    w'.Served := by
  intro k obj' hobj'
  cases hs.objects with
  | same hsame =>
      rw [hsame] at hobj'
      exact (hw k obj' hobj').congr rfl rfl
  | fresh session hfresh =>
      rw [hfresh] at hobj'
      rcases List.getElem?_concat_iff.mp hobj' with hobj | ⟨-, rfl⟩
      · exact (hw k obj' hobj).congr rfl rfl
      · exact WsHandler.State.served_of_idle (List.forall_mem_nil _)
  | moved k' obj j c o hobj hstep hset hj =>
      rw [hset] at hobj'
      rcases (List.getElem?_set_iff hobj).mp hobj' with ⟨rfl, rfl⟩ | ⟨-, hobj'⟩
      · obtain ⟨hexclusive, htracked⟩ := horderly.objects k obj hobj
        have hc : c.Served := (hw k obj hobj).step hexclusive htracked hstep
        exact hc.congr rfl rfl
      · exact (hw k obj' hobj').congr rfl rfl

/-- What is observed of an object is observed in a step of its own. -/
theorem Step.eq_object (hs : Step app w i w' o) {ob : WsHandler.Obs} (hmem : .object k ob ∈ o) :
    ∃ j, i = .object k j := by
  cases hs with
  | object k' j obj c o' hj hobj hstep =>
      obtain ⟨ob', -, heq⟩ := List.mem_map.mp hmem
      cases heq
      exact ⟨j, rfl⟩
  | delete id fault | closedDelete r id fault hr =>
      unfold deleteReply at hmem
      split at hmem <;> cases List.mem_singleton.mp hmem
  | creates r id now ref faults tree session o hr hcreate ho =>
      rw [ho] at hmem
      cases List.mem_singleton.mp (List.mem_ite_nil_right.mp hmem).2
  | createsFails r id now ref faults tree e o ob' hr hcreate ho hob =>
      rcases List.mem_append.mp hmem with hmem | hmem
      · rw [ho] at hmem
        cases List.mem_singleton.mp (List.mem_ite_nil_right.mp hmem).2
      · rcases hob with ⟨message, -, rfl⟩ | rfl | rfl <;> cases List.mem_singleton.mp hmem
  | loadFails r id loader ref e hr hget =>
      cases e with
      | storageError message original =>
          cases loader with
          | get route => cases List.mem_singleton.mp hmem
          | connect => cases hmem
      | raised e =>
          cases e <;> cases loader
          all_goals first
            | cases List.mem_singleton.mp hmem
            | cases hmem
  | postInvalid | postTaken id k taken | getHeld id route obj | list ids | listFails e
  | deleteConnected id fault | resumesCreated r id k obj hr | resumesGet r id route k obj hr
  | accepted r code hr => cases List.mem_singleton.mp hmem
  | _ => cases hmem

theorem Step.object_obs (hs : Step app w i w' o) {ob : WsHandler.Obs} (hmem : .object k ob ∈ o) :
    ∃ j obj c o', w.objects[k]? = some obj ∧
      WsHandler.Step app.repository (obj.onTree w.tree) j c o' ∧
        w'.objects[k]? = some (.of c) ∧ ob ∈ o' := by
  obtain ⟨j, rfl⟩ := hs.eq_object hmem
  cases hs with
  | object k j obj c o' hj hobj hstep =>
      obtain ⟨ob', hob', heq⟩ := List.mem_map.mp hmem
      cases heq
      exact ⟨j, obj, c, o', hobj, hstep, (List.getElem?_set_iff hobj).mpr (Or.inl ⟨rfl, rfl⟩), hob'⟩

theorem TurnedAway.step (hw : w.TurnedAway k h) (hs : Step app w i w' o) : w'.TurnedAway k h := by
  obtain ⟨obj, phase, hobj, hh, haway⟩ := hw
  obtain ⟨obj', hobj', rfl | ⟨j, c, o', hstep, rfl⟩⟩ := hs.object_moves hobj
  · exact ⟨obj', phase, hobj', hh, haway⟩
  · obtain ⟨phase', hh', haway'⟩ := hstep.turnedAway hh haway
    exact ⟨.of c, phase', hobj', hh', haway'⟩

theorem Obs.Elsewhere.step {ob : Obs} (hob : ob.Elsewhere w k h) (hs : Step app w i w' o) :
    ob.Elsewhere w' k h := by
  cases ob with
  | object k' ob =>
      intro heq
      obtain ⟨obj, hobj, hob⟩ := hob heq
      obtain ⟨obj', hobj', rfl | ⟨j, c, o', hstep, rfl⟩⟩ := hs.object_moves hobj
      · exact ⟨obj', hobj', hob⟩
      · exact ⟨.of c, hobj', hob.mono fun n task hn ↦ hstep.task_ws hn⟩
  | _ => trivial

/-- A step sends nothing on the socket of a handler that was turned away or is over. -/
theorem Served.elsewhere (hw : w.Served) (haway : w.TurnedAway k h) (hs : Step app w i w' o)
    {ob : Obs} (hob : ob ∈ o) : ob.Elsewhere w' k h := by
  cases ob with
  | object k' ob =>
      rintro rfl
      obtain ⟨j, obj, c, o', hobj, hstep, hobj', hob'⟩ := hs.object_obs hob
      obtain ⟨obj₁, phase, hobj₁, hh, hphase⟩ := haway
      obtain rfl := Option.some.inj (hobj.symm.trans hobj₁)
      exact ⟨.of c, hobj', hstep.elsewhere (hw k' obj hobj) hh hphase hob'⟩
  | _ => trivial

/-- Where `accept()` does not suspend, nothing more is sent on a socket once its handler was
turned away or is over, neither by a loop nor by a stream that was started from it. -/
theorem silent_of_run {t : FileTree} {is js : List Input} {w₁ : Server} {o₁ : List Obs}
    (h₁ : (machine app).run (.start t) is = some (w₁, o₁))
    (hrun : (machine app).run w₁ js = some (w, o))
    (hatomic : (machine app).StepsMeet AtomicAccept (.start t) (is ++ js))
    (haway : w₁.TurnedAway k h) : ∀ ob ∈ o, ob.Elsewhere w k h := by
  have hstart : w₁.Orderly ∧ w₁.Served := by
    refine Mealy.run_induction_of_steps (P := fun _ w _ ↦ w.Orderly ∧ w.Served)
      (Q := AtomicAccept) ⟨orderly_start t, ?_⟩ ?_ h₁ (hatomic.restrict (List.prefix_append is js))
    · intro k obj hobj
      cases hobj
    · rintro _ w _ i w' o' ⟨horderly, hserved⟩ hi hs
      exact ⟨horderly.step (.of_step hs) hi, hserved.step horderly (.of_step hs)⟩
  have hall : w.Orderly ∧ w.Served ∧ w.TurnedAway k h ∧ ∀ ob ∈ o, ob.Elsewhere w k h := by
    refine Mealy.run_induction_of_steps (P := fun _ w o ↦ w.Orderly ∧ w.Served ∧
      w.TurnedAway k h ∧ ∀ ob ∈ o, ob.Elsewhere w k h) (Q := AtomicAccept) ?_ ?_ hrun
      (hatomic.drop h₁)
    · exact ⟨hstart.1, hstart.2, haway, List.forall_mem_nil _⟩
    · rintro _ w o i w' o' ⟨horderly, hserved, haway, hsilent⟩ hi hs
      have hstep := Step.of_step hs
      refine ⟨horderly.step hstep hi, hserved.step horderly hstep, haway.step hstep, ?_⟩
      intro ob hob
      rcases List.mem_append.mp hob with hob | hob
      · exact (hsilent ob hob).step hstep
      · exact hserved.elsewhere haway hstep hob
  exact hall.2.2.2

end

end Server

/-! ## What the frames of a socket are answered with -/

namespace WsHandler

/-- The frames a handler has received. -/
def received (h : ℕ) (is : List Input) : List (Option ClientFrame) :=
  is.filterMap fun
    | .handler h' (.receives frame) => if h' = h then some frame else none
    | _ => none

/-- The frames a handler has answered with. -/
def replies (h : ℕ) (o : List Obs) : List ServerFrame :=
  o.filterMap fun
    | .replies h' frame => if h' = h then some frame else none
    | _ => none

/-- The messages from a socket for which there is a task. -/
def begun (h : ℕ) (w : State) : List String :=
  (w.tasks.filter (·.ws = h)).map (·.content)

/-- The frames of a socket, what they are answered with, and the messages among them that have
started a stream. -/
inductive Answered : List (Option ClientFrame) → List ServerFrame → List String → Prop where
  | nil : Answered [] [] []
  | malformed {fs rs cs} (h : Answered fs rs cs) : Answered (fs ++ [none])
      (rs ++ [.error "invalid_frame" "Could not parse client frame."]) cs
  | ping {fs rs cs} (h : Answered fs rs cs) : Answered (fs ++ [some .ping]) (rs ++ [.pong]) cs
  | cancel {fs rs cs} (h : Answered fs rs cs) : Answered (fs ++ [some .cancel]) rs cs
  | refused {fs rs cs} (content : String) (h : Answered fs rs cs) :
      Answered (fs ++ [some (.sendMessage content)])
        (rs ++ [.error "stream_in_progress" "A stream is already in progress."]) cs
  | started {fs rs cs} (content : String) (h : Answered fs rs cs) :
      Answered (fs ++ [some (.sendMessage content)]) rs (cs ++ [content])

@[simp] theorem received_self (h : ℕ) (frame : Option ClientFrame) :
    received h [.handler h (.receives frame)] = [frame] := by
  simp [received]

theorem received_of_ne {h h' : ℕ} (hne : h' ≠ h) (frame : Option ClientFrame) :
    received h [.handler h' (.receives frame)] = [] := by
  simp [received, hne]

@[simp] theorem replies_self (h : ℕ) (frame : ServerFrame) :
    replies h [.replies h frame] = [frame] := by
  simp [replies]

theorem replies_of_ne {h h' : ℕ} (hne : h' ≠ h) (frame : ServerFrame) :
    replies h [.replies h' frame] = [] := by
  simp [replies, hne]

theorem begun_congr {w w' : State} {h : ℕ}
    (hsame : w'.tasks.map (fun task ↦ (task.ws, task.content)) =
      w.tasks.map fun task ↦ (task.ws, task.content)) : begun h w' = begun h w := by
  have hmap : ∀ w : State, begun h w =
      ((w.tasks.map fun task ↦ (task.ws, task.content)).filter (·.1 = h)).map (·.2) := by
    intro w
    rw [begun, List.filter_map, List.map_map]
    rfl
  rw [hmap, hmap, hsame]

section

variable [UnicodeData] [SessionCodec] {a : SessionFileAdapter} {w w' : State} {i : Input}
  {o : List Obs}

/-- **One step**: a handler that receives a frame answers it or starts a stream, and no other
step answers or starts anything. -/
theorem Answered.step {h : ℕ} {is : List Input} {o₁ : List Obs}
    (hw : Answered (received h is) (replies h o₁) (begun h w)) (hs : Step a w i w' o) :
    Answered (received h (is ++ [i])) (replies h (o₁ ++ o)) (begun h w') := by
  have hreceived : received h (is ++ [i]) = received h is ++ received h [i] :=
    List.filterMap_append
  have hreplies : replies h (o₁ ++ o) = replies h o₁ ++ replies h o := List.filterMap_append
  rw [hreceived, hreplies]
  -- a step that is not about frames
  have hother : received h [i] = [] → replies h o = [] →
      w'.tasks.map (fun task ↦ (task.ws, task.content)) =
        w.tasks.map (fun task ↦ (task.ws, task.content)) →
          Answered (received h is ++ received h [i]) (replies h o₁ ++ replies h o)
            (begun h w') := by
    intro hfs hrs htasks
    rw [hfs, hrs, List.append_nil, List.append_nil, begun_congr htasks]
    exact hw
  have hcancel : ∀ n, (w.cancelTask n).tasks.map (fun task ↦ (task.ws, task.content)) =
      w.tasks.map fun task ↦ (task.ws, task.content) := by
    intro n
    refine List.ext_getElem? fun m ↦ ?_
    rw [List.getElem?_map, List.getElem?_map, State.cancelTask, List.getElem?_modify]
    cases w.tasks[m]? with
    | none => rfl
    | some task =>
        simp only [Option.map_some, Option.map_eq_map]
        split
        · rw [ws_cancel, content_cancel]
        · rfl
  cases hs with
  | connects free | connectsTaken h' taken => exact hother rfl rfl rfl
  | enters h' hh => exact hother rfl rfl rfl
  | refuses h' hh => exact hother rfl rfl rfl
  | acceptFails h' phase hh hphase => exact hother rfl rfl rfl
  | closed h' hh | replied h' hh => exact hother rfl rfl rfl
  | leaves h' n phase hh hphase busy => exact hother rfl rfl (hcancel n)
  | leavesIdle h' phase hh hphase idle => exact hother rfl rfl rfl
  | joined h' n task hh htask hdone => exact hother rfl rfl rfl
  | malformed h' hh =>
      by_cases heq : h' = h
      · subst heq
        rw [received_self, replies_self]
        exact hw.malformed
      · exact hother (received_of_ne heq _) (replies_of_ne heq _) rfl
  | ping h' hh =>
      by_cases heq : h' = h
      · subst heq
        rw [received_self, replies_self]
        exact hw.ping
      · exact hother (received_of_ne heq _) (replies_of_ne heq _) rfl
  | cancel h' n hh busy =>
      by_cases heq : h' = h
      · subst heq
        rw [received_self, begun_congr (hcancel n), show replies h' [] = [] from rfl,
          List.append_nil]
        exact hw.cancel
      · exact hother (received_of_ne heq _) rfl (hcancel n)
  | cancelNothing h' hh idle =>
      by_cases heq : h' = h
      · subst heq
        rw [received_self, show replies h' [] = [] from rfl, List.append_nil]
        exact hw.cancel
      · exact hother (received_of_ne heq _) rfl rfl
  | refuseMessage h' n content hh busy =>
      by_cases heq : h' = h
      · subst heq
        rw [received_self, replies_self]
        exact hw.refused content
      · exact hother (received_of_ne heq _) (replies_of_ne heq _) rfl
  | sendMessage h' content hh idle =>
      rw [show replies h [] = [] from rfl, List.append_nil]
      by_cases heq : h' = h
      · subst heq
        have hbegun : begun h' (w.addTask h' content) = begun h' w ++ [content] := by
          simp [begun, State.addTask]
        rw [received_self, hbegun]
        exact hw.started content
      · have hbegun : begun h (w.addTask h' content) = begun h w := by
          simp [begun, State.addTask, heq]
        rw [received_of_ne heq, hbegun, List.append_nil]
        exact hw
  | stream n j faults task task' tree session o htask hstep =>
      refine hother rfl ?_ ?_
      · rw [replies, List.filterMap_map]
        exact List.filterMap_eq_nil_iff.mpr fun _ _ ↦ rfl
      · obtain ⟨hws, hcontent⟩ := ws_step hstep
        refine List.ext_getElem? fun m ↦ ?_
        rw [List.getElem?_map, List.getElem?_map, List.getElem?_set]
        split
        · rename_i heq
          subst heq
          rw [htask, if_pos (List.getElem?_eq_some_iff.mp htask).1]
          simp only [Option.map_some, hws, hcontent]
        · rfl

/-- Whatever happens on an object, each of its sockets is answered frame by frame, in order:
every frame it has sent is answered, or has started a stream, or was a cancellation. -/
theorem answered_of_run {t : FileTree} {s : Session} {is : List Input}
    (hrun : (machine a).run (.init t s) is = some (w, o)) (h : ℕ) :
    Answered (received h is) (replies h o) (begun h w) := by
  refine Mealy.run_induction
    (P := fun is w o ↦ Answered (received h is) (replies h o) (begun h w)) ?_ ?_ hrun
  · exact .nil
  · exact fun _ _ _ _ _ _ hw hs ↦ hw.step (.of_step hs)

end

/-- A socket brings a text that is no frame, a ping, a message, and another one too early. -/
def sampleConversation : List Input :=
  [.connects, .handler 0 .accepted, .handler 0 (.receives none), .handler 0 .replied,
    .handler 0 (.receives (some .ping)), .handler 0 .replied,
    .handler 0 (.receives (some (.sendMessage "hi"))),
    .handler 0 (.receives (some (.sendMessage "more")))]

theorem answered_sampleConversation : ∃ w o,
    sampleMachine.run sampleStart sampleConversation = some (w, o) ∧
      Answered [none, some .ping, some (.sendMessage "hi"), some (.sendMessage "more")]
        [.error "invalid_frame" "Could not parse client frame.", .pong,
          .error "stream_in_progress" "A stream is already in progress."] ["hi"] := by
  obtain ⟨⟨w, o⟩, hrun, heval⟩ := Option.map_eq_some_iff.mp
    (show (sampleMachine.run sampleStart sampleConversation).map (fun r ↦
        (replies 0 r.2, begun 0 r.1)) =
      some ([.error "invalid_frame" "Could not parse client frame.", .pong,
        .error "stream_in_progress" "A stream is already in progress."], ["hi"]) from rfl)
  obtain ⟨hreplies, hbegun⟩ := Prod.mk.inj heval
  refine ⟨w, o, hrun, ?_⟩
  rw [← hreplies, ← hbegun]
  exact @answered_of_run .asciiOnly App.sampleCodec .sampleStore w o App.sampleTree
    App.sampleSession sampleConversation hrun 0

end WsHandler

/-! ## A run to evaluate -/

namespace Server

/-- The `accept()` an input ends. -/
def Input.acceptance : Input → Option (ℕ × ℕ)
  | .object k (.handler h .accepted) | .object k (.handler h .acceptFails) => some (k, h)
  | _ => none

theorem Input.acceptance_eq_some {i : Input} {k h : ℕ} : i.acceptance = some (k, h) ↔
    i = .object k (.handler h .accepted) ∨ i = .object k (.handler h .acceptFails) := by
  constructor
  · unfold Input.acceptance
    split
    · intro heq
      cases heq
      exact Or.inl rfl
    · intro heq
      cases heq
      exact Or.inr rfl
    · intro heq
      cases heq
  · rintro (rfl | rfl) <;> rfl

instance (w : Server) (i : Input) : Decidable (w.AtomicAccept i) :=
  decidable_of_iff (∀ k < w.objects.length, ∀ obj ∈ w.objects[k]?, ∀ h < obj.handlers.length,
    obj.handlers[h]? = some .accepting → i.acceptance = some (k, h)) <| by
      constructor
      · rintro hall k h ⟨obj, hobj, hh⟩
        exact Input.acceptance_eq_some.mp (hall k (List.getElem?_eq_some_iff.mp hobj).1 obj hobj h
          (List.getElem?_eq_some_iff.mp hh).1 hh)
      · intro hatomic k _ obj hobj h _ hh
        exact Input.acceptance_eq_some.mpr (hatomic k h ⟨obj, hobj, hh⟩)

/-- A client leaves in the middle of its stream. -/
def sampleLeft : List Input :=
  sampleFirstMessage ++ [.object 0 (.stream 0 (.runs (.ofNat 1)) []),
    .object 0 (.handler 0 .disconnects), .object 0 (.stream 0 .cancelled []),
    .object 0 (.handler 0 .joined)]

/-- It comes back, and is answered. -/
def sampleBack : List Input :=
  [.connect "s", .object 0 (.handler 1 .accepted),
    .object 0 (.handler 1 (.receives (some (.sendMessage "again")))),
    .object 0 (.stream 1 (.runs (.ofNat 2)) []),
    .object 0 (.stream 1 (.resumes (.event (.textChunk "yo"))) [])]

theorem atomicAccept_sampleBack :
    sampleMachine.StepsMeet AtomicAccept sampleStart (sampleLeft ++ sampleBack) :=
  .of_checks rfl

/-- The chunk of the second stream is not sent on the first socket. -/
theorem silent_sampleBack : ∃ w₁ o₁ w o, sampleMachine.run sampleStart sampleLeft = some (w₁, o₁) ∧
    sampleMachine.run w₁ sampleBack = some (w, o) ∧
    .object 0 (.stream 1 (.sends (.chunk "yo"))) ∈ o ∧ ∀ ob ∈ o, ob.Elsewhere w 0 0 := by
  obtain ⟨⟨w₁, o₁⟩, hrun₁, heval⟩ := Option.map_eq_some_iff.mp
    (show (sampleMachine.run sampleStart sampleLeft).map (fun r ↦
        (r.1.objects[0]?.map (·.handlers[0]?),
          (sampleMachine.run r.1 sampleBack).map (·.2.getLast?))) =
      some (some (some .ended), some (some (.object 0 (.stream 1 (.sends (.chunk "yo"))))))
      from rfl)
  obtain ⟨hended, hback⟩ := Prod.mk.inj heval
  obtain ⟨obj, hobj, hh⟩ := Option.map_eq_some_iff.mp hended
  obtain ⟨⟨w, o⟩, hrun, hlast⟩ := Option.map_eq_some_iff.mp hback
  refine ⟨w₁, o₁, w, o, hrun₁, hrun, List.mem_of_getLast? hlast, ?_⟩
  exact @silent_of_run .asciiOnly App.sampleCodec App.sampleFactory App.sample w o 0 0
    App.sampleTree sampleLeft sampleBack w₁ o₁ hrun₁ hrun atomicAccept_sampleBack
    ⟨obj, .ended, hobj, hh, trivial⟩

end Server
