import ChatServer.Accounting.Ledger
import ChatServer.Web.Release

/-!
# The session behind an object

What is proved of `Session.acompletion` is proved of a machine that takes one call after another
(`ChatServer.Domain.Session`).  In the server a session belongs to an object, any number of
handlers and stream tasks run on it, and each task drives a generator of its own.  Here the two
are joined.  As one task at a time is unfinished (`WsHandler.State.Tracked`), at most one
generator is suspended, and whatever happens to an object is a run of the machine of its session
(`Server.calls_of_run`).  A generator that a task leaves behind is closed where it stands.
-/

open FileTree

namespace Session

section

variable [UnicodeData]

/-- Calls, made one after another, take a session from one state to another; the closing of a
generator is not observed. -/
def Calls (c c' : Session × Option Phase) (o : List Obs) : Prop :=
  ∃ inputs o', machine.run c inputs = some (c', o') ∧
    (∀ strategy, .setStrategy strategy ∉ inputs) ∧ o'.filter (· ≠ .closed) = o

variable {c c' c'' : Session × Option Phase} {o o' : List Obs}

theorem Calls.refl (c : Session × Option Phase) : Calls c c [] :=
  ⟨[], [], rfl, fun _ ↦ List.not_mem_nil, rfl⟩

theorem Calls.trans (h : Calls c c' o) (h' : Calls c' c'' o') : Calls c c'' (o ++ o') := by
  obtain ⟨inputs, o₁, hrun, hset, rfl⟩ := h
  obtain ⟨inputs', o₂, hrun', hset', rfl⟩ := h'
  refine ⟨inputs ++ inputs', o₁ ++ o₂, Mealy.run_append hrun hrun', ?_, List.filter_append ..⟩
  intro strategy hmem
  rcases List.mem_append.mp hmem with hmem | hmem
  · exact hset strategy hmem
  · exact hset' strategy hmem

theorem Calls.of_step {i : Input} (hs : step c i = some (c', o'))
    (hi : ∀ strategy, i ≠ .setStrategy strategy) (ho : o'.filter (· ≠ .closed) = o) :
    Calls c c' o := by
  refine ⟨[i], o' ++ [], Mealy.run_cons hs (Mealy.run_nil _ _), ?_, by rwa [List.append_nil]⟩
  intro strategy hmem
  exact hi strategy (List.mem_singleton.mp hmem).symm

/-- A generator that waits at a `yield` may be closed there. -/
theorem Calls.closed {s : Session} {p : Phase} (hs : step (s, some p) .closed =
    some ((s, none), [.closed])) : Calls (s, some p) (s, none) [] :=
  .of_step hs (fun _ h ↦ by cases h) rfl

/-- One that has yielded its final event may be resumed, and returns. -/
theorem Calls.returned (s : Session) : Calls (s, some .done) (s, none) [.returned] := by
  have hs : step (s, some .done) .next = some ((s, none), [.returned]) := rfl
  exact .of_step hs (fun _ h ↦ by cases h) rfl

/-- Only `close()` closes a generator. -/
theorem Step.filter_closed {i : Input} (h : Step c i c' o) (hi : i ≠ .closed) :
    o.filter (· ≠ .closed) = o := by
  rw [List.filter_eq_self]
  intro ob hmem
  cases h with
  | ends s p i ob' h =>
      cases List.mem_singleton.mp hmem
      cases h with
      | chunkClosed | doneClosed => exact absurd rfl hi
      | _ => rfl
  | acompletion | setStrategyFails | mainDone | mainEndsFails | mainEnds | mainEndsSummary
  | summaryEvent | summaryEndsFails | summaryEnds =>
      cases List.mem_singleton.mp hmem
      rfl
  | mainText =>
      rcases List.mem_cons.mp hmem with rfl | hmem
      · rfl
      · cases List.mem_singleton.mp hmem
        rfl
  | setStrategy | chunkNext => cases hmem

end

end Session

open Session (Calls)

/-! ## What a step of a task can do -/

namespace StreamTask

/-- The step function of a task as a relation on its phase: it resumes its generator, passes on
the final event, meets an exception, or ends. -/
inductive Step [UnicodeData] [SessionCodec] (a : SessionFileAdapter) (t : FileTree) (s : Session)
    (faults : List (Option Fault)) (content : String) :
    StreamPhase → FileTree × Session × StreamPhase → List StreamObs → Prop where
  | runs {r : FileTree × Session × StreamPhase} {o : List StreamObs} (uuid4 : UUID)
      (hs : advance a t s faults none (.acompletion content true uuid4) = some (r, o)) :
      Step a t s faults content .created r o
  | resumes {r : FileTree × Session × StreamPhase} {o : List StreamObs} (p : Session.Phase)
      (i : Session.Input) (hs : advance a t s faults (some p) i = some (r, o)) :
      Step a t s faults content (.awaiting p) r o
  | chunkSent {r : FileTree × Session × StreamPhase} {o : List StreamObs} (p : Session.Phase)
      (hs : advance a t s faults (some p) .next = some (r, o)) :
      Step a t s faults content (.sendingChunk p) r o
  | doneSent (event : SessionCompletionDoneEvent) (rest : List (String × String × ModelStats)) :
      Step a t s faults content (.sendingDone event rest)
        ((sendDone a t s faults event rest).1, s, (sendDone a t s faults event rest).2.1)
        (sendDone a t s faults event rest).2.2
  | chunkFails (p : Session.Phase) (e : PyExc) :
      Step a t s faults content (.sendingChunk p) (t, s, (onException e).1) (onException e).2
  | doneFails (event : SessionCompletionDoneEvent) (rest : List (String × String × ModelStats))
      (e : PyExc) :
      Step a t s faults content (.sendingDone event rest) (t, s, (onException e).1)
        (onException e).2
  /-- Its cancellation is delivered, or it has sent what became of it. -/
  | ends (phase : StreamPhase) (result : Option PyExc) (hphase : ∀ p, phase ≠ .awaiting p)
      (hundone : ∀ result', phase ≠ .finished result') :
      Step a t s faults content phase (t, s, .finished result) []

/-- Inversion of the step function. -/
theorem Step.of_step [UnicodeData] [SessionCodec] {a : SessionFileAdapter} {t t' : FileTree}
    {s s' : Session} {faults : List (Option Fault)} {task task' : StreamTask} {i : StreamInput}
    {o : List StreamObs} (hs : task.step a t s faults i = some ((t', s', task'), o)) :
    Step a t s faults task.content task.phase (t', s', task'.phase) o := by
  obtain ⟨⟨⟨t₁, s₁, phase'⟩, o₁⟩, hnext, heq⟩ := Option.map_eq_some_iff.mp hs
  cases heq
  show Step a t s faults task.content task.phase (t', s', phase') o
  generalize task.phase = phase at hnext ⊢
  split at hnext
  · split at hnext
    · cases phase with
      | awaiting p => exact .resumes p _ hnext
      | finished result => cases hnext
      | created | sendingChunk p | sendingDone event rest | sendingError =>
          cases hnext
          exact .ends _ _ (fun p h ↦ by cases h) fun result h ↦ by cases h
    · cases hnext
  · cases phase with
    | created =>
        cases i with
        | runs uuid4 => exact .runs uuid4 hnext
        | _ => cases hnext
    | awaiting p =>
        cases i with
        | resumes i => exact .resumes p i hnext
        | _ => cases hnext
    | sendingChunk p =>
        cases i with
        | sent => exact .chunkSent p hnext
        | sendFails e =>
            cases hnext
            exact .chunkFails p e
        | _ => cases hnext
    | sendingDone event rest =>
        cases i with
        | sent =>
            cases hnext
            exact .doneSent event rest
        | sendFails e =>
            cases hnext
            exact .doneFails event rest e
        | _ => cases hnext
    | sendingError =>
        cases i with
        | sent | sendFails e =>
            cases hnext
            exact .ends _ _ (fun p h ↦ by cases h) fun result h ↦ by cases h
        | _ => cases hnext
    | finished result => cases i <;> cases hnext

end StreamTask

/-! ## The calls of a task -/

/-- Where the generator that a task drives is suspended. -/
def StreamPhase.generator : StreamPhase → Option Session.Phase
  | .awaiting phase | .sendingChunk phase => some phase
  | .sendingDone .. => some .done
  | .created | .sendingError | .finished _ => none

/-- What its generator did. -/
def StreamObs.generated : StreamObs → List Session.Obs
  | .advanced o => o
  | _ => []

namespace StreamTask

theorem generator_of_isDone {task : StreamTask} (h : task.isDone = true) :
    task.phase.generator = none := by
  obtain ⟨ws, content, phase, cancelRequested⟩ := task
  cases phase with
  | finished result => rfl
  | _ => cases h

theorem generator_onException (e : PyExc) : (onException e).1.generator = none := by
  cases e with
  | _ => rfl

theorem generated_onException (e : PyExc) : (onException e).2.flatMap (·.generated) = [] := by
  cases e with
  | _ => rfl

/-- An exception of the task leaves its generator behind at a `yield`. -/
theorem calls_onException [UnicodeData] {s : Session} {p : Session.Phase} (e : PyExc)
    (hs : Session.step (s, some p) .closed = some ((s, none), [.closed])) :
    Calls (s, some p) (s, (onException e).1.generator)
      ((onException e).2.flatMap (·.generated)) := by
  rw [generator_onException, generated_onException]
  exact .closed hs

section

variable [SessionCodec] {a : SessionFileAdapter} {t t' : FileTree} {s s' : Session}
  {faults : List (Option Fault)}

theorem generator_onReturn : (onReturn a t s faults).2.1.generator = none := by
  rw [onReturn]
  split
  · rfl
  · exact generator_onException _

theorem generated_onReturn : (onReturn a t s faults).2.2.flatMap (·.generated) = [] := by
  rw [onReturn]
  split
  · rfl
  · exact generated_onException _

variable [UnicodeData]

/-- While the final event is passed on the generator waits at its `yield`; then it returns, or
is left behind. -/
theorem calls_sendDone (event : SessionCompletionDoneEvent)
    (rest : List (String × String × ModelStats)) :
    Calls (s, some .done) (s, (sendDone a t s faults event rest).2.1.generator)
      ((sendDone a t s faults event rest).2.2.flatMap (·.generated)) := by
  cases rest with
  | nil =>
      show Calls (s, some .done) (s, (onReturn a t s faults).2.1.generator)
        (.returned :: (onReturn a t s faults).2.2.flatMap (·.generated))
      rw [generator_onReturn, generated_onReturn]
      exact .returned s
  | cons entry rest =>
      rw [sendDone]
      split
      · exact .refl _
      · exact calls_onException _ rfl

/-- What the task does with what its generator yields. -/
theorem calls_consume {phase : Option Session.Phase} {ob : Option Session.Obs}
    (hdone : ∀ event, ob = some (.yielded (.completionDone event)) → phase = some .done) :
    Calls (s, phase) (s, (consume a t s faults phase ob).2.1.generator)
      ((consume a t s faults phase ob).2.2.flatMap (·.generated)) := by
  cases phase with
  | none =>
      cases ob with
      | none =>
          show Calls (s, none) (s, (onReturn a t s faults).2.1.generator)
            ((onReturn a t s faults).2.2.flatMap (·.generated))
          rw [generator_onReturn, generated_onReturn]
          exact .refl _
      | some ob =>
          cases ob with
          | raised e =>
              show Calls (s, none) (s, (onException e).1.generator)
                ((onException e).2.flatMap (·.generated))
              rw [generator_onException, generated_onException]
              exact .refl _
          | _ =>
              show Calls (s, none) (s, (onReturn a t s faults).2.1.generator)
                ((onReturn a t s faults).2.2.flatMap (·.generated))
              rw [generator_onReturn, generated_onReturn]
              exact .refl _
  | some phase =>
      cases ob with
      | none => exact .refl _
      | some ob =>
          cases ob with
          | yielded event =>
              cases event with
              | textChunk text => exact .refl _
              | completionDone event =>
                  cases hdone event rfl
                  exact calls_sendDone event (doneEntries event)
          | _ => exact .refl _

/-- The generator is resumed. -/
theorem calls_advance {phase : Option Session.Phase} {i : Session.Input} {phase' : StreamPhase}
    {o : List StreamObs} (hi : ∀ strategy, i ≠ .setStrategy strategy) (hclosed : i ≠ .closed)
    (hs : advance a t s faults phase i = some ((t', s', phase'), o)) :
    Calls (s, phase) (s', phase'.generator) (o.flatMap (·.generated)) := by
  obtain ⟨⟨⟨s₁, p₁⟩, o₁⟩, hstep, heq⟩ := Option.map_eq_some_iff.mp hs
  cases heq
  have hone := Session.Step.of_step hstep
  have hcall : Calls (s, phase) (s', p₁) o₁ := .of_step hstep hi (hone.filter_closed hclosed)
  refine hcall.trans (calls_consume fun event hlast ↦ ?_)
  exact (hone.completionDone (List.mem_of_getLast? hlast)).1

/-- **One step** of a task is a run of its session, with at most the closing of the generator
beside what the generator does. -/
theorem Sound.calls {task task' : StreamTask} {i : StreamInput} {o : List StreamObs}
    (h : task.Sound) (hs : task.step a t s faults i = some ((t', s', task'), o)) :
    Calls (s, task.phase.generator) (s', task'.phase.generator)
      (o.flatMap (·.generated)) := by
  have hone := Step.of_step hs
  obtain ⟨text, ms, hrecorded⟩ := h
  generalize task.phase = phase at hone hrecorded
  generalize task'.phase = phase' at hone
  cases hone with
  | runs uuid4 hs => exact calls_advance (fun _ h ↦ by cases h) (fun h ↦ by cases h) hs
  | resumes p i hs =>
      -- it awaits an LLM, and neither another strategy nor `close()` comes in its way
      refine calls_advance ?_ ?_ hs
      · rintro strategy rfl
        cases p <;> cases hs
      · rintro rfl
        cases p with
        | main text stop | summary stop text => cases hs
        | chunk text stop | done => cases hrecorded
  | chunkSent p hs => exact calls_advance (fun _ h ↦ by cases h) (fun h ↦ by cases h) hs
  | doneSent event rest => exact calls_sendDone event rest
  | chunkFails p e =>
      cases p with
      | chunk text stop => exact calls_onException e rfl
      | main text stop | summary stop text | done => cases hrecorded
  | doneFails event rest e => exact calls_onException e rfl
  | ends phase result hphase hundone =>
      cases phase with
      | created | sendingError => exact .refl _
      | sendingChunk p =>
          cases p with
          | chunk text stop => exact .closed rfl
          | main text stop | summary stop text | done => cases hrecorded
      | sendingDone event rest => exact .closed rfl
      | awaiting p => exact absurd rfl (hphase p)
      | finished result' => exact absurd rfl (hundone result')

end

end StreamTask

/-! ## The calls of an object -/

namespace WsHandler

/-- What the generator of a task did. -/
def Obs.generated : Obs → List Session.Obs
  | .stream _ o => o.generated
  | .replies .. | .closes .. => []

theorem generated_map (n : ℕ) (o : List StreamObs) :
    (o.map (Obs.stream n)).flatMap (·.generated) = o.flatMap (·.generated) :=
  List.flatMap_map ..

namespace State

/-- Where the generator of the object is suspended, if one is. -/
def generator (w : State) : Option Session.Phase := w.tasks.findSome? (·.phase.generator)

/-- The session of the object, with its generator. -/
def call (w : State) : Session × Option Session.Phase := (w.sc.session, w.generator)

/-- The generator of an object is that of its only unfinished task. -/
theorem generator_of_task {w : State} {n : ℕ} {task : StreamTask} (hn : w.tasks[n]? = some task)
    (hothers : ∀ (m : ℕ) (task' : StreamTask), w.tasks[m]? = some task' → m ≠ n →
      task'.isDone = true) : w.generator = task.phase.generator := by
  rw [generator]
  cases hg : task.phase.generator with
  | none =>
      rw [List.findSome?_eq_none_iff]
      intro task' hmem
      obtain ⟨m, hm⟩ := List.mem_iff_getElem?.mp hmem
      by_cases heq : m = n
      · subst heq
        cases hm.symm.trans hn
        exact hg
      · exact StreamTask.generator_of_isDone (hothers m task' hm heq)
  | some phase =>
      cases hfind : w.tasks.findSome? (·.phase.generator) with
      | none =>
          have hnone := List.findSome?_eq_none_iff.mp hfind task (List.mem_of_getElem? hn)
          cases hnone.symm.trans hg
      | some phase' =>
          obtain ⟨task', hmem, hphase'⟩ := List.exists_of_findSome?_eq_some hfind
          obtain ⟨m, hm⟩ := List.mem_iff_getElem?.mp hmem
          by_cases heq : m = n
          · subst heq
            cases hm.symm.trans hn
            exact hphase'.symm.trans hg
          · rw [StreamTask.generator_of_isDone (hothers m task' hm heq)] at hphase'
            cases hphase'

theorem generator_cancelTask (w : State) (n : ℕ) : (w.cancelTask n).generator = w.generator := by
  show (w.tasks.modify n .cancel).findSome? (StreamPhase.generator ∘ (·.phase)) =
    w.tasks.findSome? (StreamPhase.generator ∘ (·.phase))
  have hphases : (w.tasks.modify n .cancel).map (·.phase) = w.tasks.map (·.phase) :=
    Chat.phases_cancelTask w n
  rw [← List.findSome?_map, hphases, List.findSome?_map]

theorem generator_addTask (w : State) (h : ℕ) (content : String) :
    (w.addTask h content).generator = w.generator := by
  show (w.tasks ++ [_]).findSome? _ = w.tasks.findSome? _
  rw [List.findSome?_append]
  cases w.tasks.findSome? (·.phase.generator) with
  | none => rfl
  | some phase => rfl

end State

section

variable [UnicodeData] [SessionCodec] {a : SessionFileAdapter} {w w' : State} {i : Input}
  {o : List Obs}

/-- **One step** of an object is a run of its session. -/
theorem Step.calls (hs : Step a w i w' o) (htracked : w.Tracked) (hw : w.Leavable) :
    Calls w.call w'.call (o.flatMap (·.generated)) := by
  have hsame : ∀ {c : Session × Option Session.Phase}, c = w.call → Calls w.call c [] := by
    rintro c rfl
    exact .refl _
  cases hs with
  | cancel h n hh busy => exact hsame (congrArg (w.sc.session, ·) (w.generator_cancelTask n))
  | leaves h n phase hh hphase busy =>
      exact hsame (congrArg (w.sc.session, ·) (w.generator_cancelTask n))
  | sendMessage h content hh idle =>
      exact hsame (congrArg (w.sc.session, ·) (w.generator_addTask h content))
  | stream n i faults task task' tree session o htask hstep =>
      have hdone := not_isDone_of_step hstep
      have hothers : ∀ (m : ℕ) (task₁ : StreamTask), w.tasks[m]? = some task₁ → m ≠ n →
          task₁.isDone = true := by
        intro m task₁ hm hne
        by_contra hundone
        exact hne (htracked.atMostOne hm (Bool.eq_false_iff.mpr hundone) htask hdone)
      have hcall : w.call = (w.sc.session, task.phase.generator) :=
        congrArg (w.sc.session, ·) (State.generator_of_task htask hothers)
      have hcall' : State.call { w with
          tree, sc := { w.sc with session }, tasks := w.tasks.set n task' } =
            (session, task'.phase.generator) := by
        refine congrArg (session, ·) (State.generator_of_task
          ((List.getElem?_set_iff htask).mpr (Or.inl ⟨rfl, rfl⟩)) fun m task₁ hm hne ↦ ?_)
        rcases (List.getElem?_set_iff htask).mp hm with ⟨heq, -⟩ | ⟨-, hm⟩
        · exact absurd heq hne
        · exact hothers m task₁ hm hne
      rw [hcall, hcall', generated_map]
      exact (hw.sound n task htask).calls hstep
  | _ => exact .refl _

end

end WsHandler

/-! ## The calls of the server -/

/-- The session of an object, with its generator. -/
def Held.call (obj : Held) : Session × Option Session.Phase :=
  (obj.sc.session, obj.tasks.findSome? (·.phase.generator))

/-- A session was made by one of the two use cases that make one. -/
def App.Makes [SessionCodec] [LlmPortFactory] (app : App) (s : Session) : Prop :=
  (∃ t id now ref faults t', app.createSession t id now ref faults = (t', .ok s)) ∨
    ∃ t id ref, app.getSession t id ref = .ok s

namespace Server

/-- What the generators of an object did. -/
def Obs.generated (k : ℕ) : Obs → List Session.Obs
  | .object k' o => if k' = k then o.generated else []
  | _ => []

theorem generated_object (k : ℕ) (o : List WsHandler.Obs) :
    (o.map (Obs.object k)).flatMap (·.generated k) = o.flatMap (·.generated) := by
  rw [List.flatMap_map]
  exact List.flatMap_congr fun ob _ ↦ if_pos rfl

section

variable [UnicodeData] [SessionCodec] [LlmPortFactory] {app : App} {w w' : Server} {i : Input}
  {o : List Obs} {k : ℕ} {obj : Held}

theorem Step.generated_eq_nil (hs : Step app w i w' o) (hi : ∀ j, i ≠ .object k j) :
    o.flatMap (·.generated k) = [] := by
  rw [List.flatMap_eq_nil_iff]
  intro ob hmem
  cases ob with
  | object k' ob' =>
      refine if_neg ?_
      rintro rfl
      obtain ⟨j, rfl⟩ := hs.eq_object hmem
      exact hi j rfl
  | _ => rfl

/-- **One step** of the server is a run of the session of each of its objects. -/
theorem Step.calls (hs : Step app w i w' o) (horderly : w.Orderly) (hleavable : w.Leavable)
    (hobj : w.objects[k]? = some obj) :
    ∃ obj', w'.objects[k]? = some obj' ∧
      Calls obj.call obj'.call (o.flatMap (·.generated k)) := by
  by_cases hi : ∃ j, i = .object k j
  · obtain ⟨j, rfl⟩ := hi
    cases hs with
    | object k j obj₁ c o hj hobj₁ hstep =>
        obtain rfl := Option.some.inj (hobj.symm.trans hobj₁)
        refine ⟨.of c, (List.getElem?_set_iff hobj).mpr (Or.inl ⟨rfl, rfl⟩), ?_⟩
        rw [generated_object]
        exact hstep.calls (horderly.objects k obj hobj).2 (hleavable k obj hobj)
  · have hi' : ∀ j, i ≠ .object k j := fun j heq ↦ hi ⟨j, heq⟩
    rw [hs.generated_eq_nil hi']
    cases hs.objects with
    | same h =>
        rw [h]
        exact ⟨obj, hobj, .refl _⟩
    | fresh session h =>
        rw [h]
        exact ⟨obj, List.getElem?_concat_iff.mpr (Or.inl hobj), .refl _⟩
    | moved k' obj₁ j c o' hobj₁ hstep h hj =>
        rw [h]
        by_cases heq : k = k'
        · subst heq
          obtain rfl := Option.some.inj (hobj.symm.trans hobj₁)
          refine ⟨.of c, (List.getElem?_set_iff hobj).mpr (Or.inl ⟨rfl, rfl⟩), ?_⟩
          rcases hj with ⟨rfl, -⟩ | ⟨-, rfl⟩
          · cases hstep with
            | connects | connectsTaken => exact .refl _
          · exact absurd rfl (hi' j)
        · exact ⟨obj, (List.getElem?_set_iff hobj₁).mpr (Or.inr ⟨heq, hobj⟩), .refl _⟩

/-- A new object has a session that was just made. -/
theorem Step.made (hs : Step app w i w' o) (hobj : w'.objects[k]? = some obj)
    (hnone : w.objects[k]? = none) : ∃ s, app.Makes s ∧ obj = .fresh s := by
  have hnew : ∀ {s : Session}, app.Makes s → w'.objects = w.objects ++ [.fresh s] →
      ∃ s, app.Makes s ∧ obj = .fresh s := by
    intro s hs h
    rw [h] at hobj
    rcases List.getElem?_concat_iff.mp hobj with hobj | ⟨-, rfl⟩
    · cases hnone.symm.trans hobj
    · exact ⟨s, hs, rfl⟩
  have hset : ∀ {k' : ℕ} {obj₁ obj₂ : Held}, w.objects[k']? = some obj₁ →
      w'.objects = w.objects.set k' obj₂ → ∃ s, app.Makes s ∧ obj = .fresh s := by
    intro k' obj₁ obj₂ hobj₁ h
    rw [h] at hobj
    rcases (List.getElem?_set_iff hobj₁).mp hobj with ⟨rfl, -⟩ | ⟨-, hobj⟩
    · cases hnone.symm.trans hobj₁
    · cases hnone.symm.trans hobj
  cases hs with
  | creates r id now ref faults tree session o hr hcreate ho =>
      exact hnew (Or.inl ⟨_, _, _, _, _, _, hcreate⟩) rfl
  | loads r id loader ref session hr hget => exact hnew (Or.inr ⟨_, _, _, hget⟩) rfl
  | loadFails r id loader ref e hr hget =>
      rw [objects_onLoadFails] at hobj
      cases hnone.symm.trans hobj
  | connectHeld id k' obj₁ held hobj₁ => exact hset hobj₁ rfl
  | resumesConnect r id k' obj₁ hr hobj₁ => exact hset hobj₁ rfl
  | object k' j obj₁ c o hj hobj₁ hstep => exact hset hobj₁ rfl
  | _ => cases hnone.symm.trans hobj

/-- In a run from the start the object `k` was made, and its session was `s` then. -/
def MadeWith (app : App) (t : FileTree) (is : List Input) (k : ℕ) (s : Session) : Prop :=
  app.Makes s ∧ ∃ js w o, js <+: is ∧ (machine app).run (.start t) js = some (w, o) ∧
    w.objects[k]? = some (.fresh s)

/-- What was made in a run was made in every longer one. -/
theorem MadeWith.append {t : FileTree} {is js : List Input} {s : Session}
    (h : MadeWith app t is k s) : MadeWith app t (is ++ js) k s := by
  obtain ⟨hmakes, is', w, o, hprefix, hrun, hobj⟩ := h
  exact ⟨hmakes, is', w, o, hprefix.trans (List.prefix_append is js), hrun, hobj⟩

/-- Where an object is, its session has come by calls from the one it was made with; where none
is, nothing was observed. -/
def Called (app : App) (t : FileTree) (is : List Input) (w : Server) (o : List Obs) : Prop :=
  ∀ k, (∀ obj, w.objects[k]? = some obj →
      ∃ s, MadeWith app t is k s ∧ Calls (s, none) obj.call (o.flatMap (·.generated k))) ∧
    (w.objects[k]? = none → o.flatMap (·.generated k) = [])

theorem Called.step {t : FileTree} {is : List Input} {o₁ : List Obs} (h : Called app t is w o₁)
    (hrun : (machine app).run (.start t) is = some (w, o₁)) (hs : step app w i = some (w', o))
    (horderly : w.Orderly) (hleavable : w.Leavable) :
    Called app t (is ++ [i]) w' (o₁ ++ o) := by
  have hone := Step.of_step hs
  intro k
  obtain ⟨hcalled, hnone⟩ := h k
  rw [List.flatMap_append]
  cases hobj : w.objects[k]? with
  | some obj =>
      obtain ⟨obj', hobj', hcalls⟩ := hone.calls horderly hleavable hobj
      obtain ⟨s, hmade, hcalls₀⟩ := hcalled obj hobj
      constructor
      · intro obj₂ hobj₂
        obtain rfl := Option.some.inj (hobj'.symm.trans hobj₂)
        exact ⟨s, hmade.append, hcalls₀.trans hcalls⟩
      · intro hnone'
        cases hnone'.symm.trans hobj'
  | none =>
      have hquiet : o.flatMap (·.generated k) = [] := by
        refine hone.generated_eq_nil ?_
        rintro j rfl
        cases hone with
        | object k j obj c o hj hobj₁ hstep => cases hobj.symm.trans hobj₁
      rw [hnone hobj, hquiet]
      constructor
      · intro obj hobj'
        obtain ⟨s, hmakes, rfl⟩ := hone.made hobj' hobj
        refine ⟨s, ⟨hmakes, is ++ [i], w', o₁ ++ o, List.prefix_rfl, ?_, hobj'⟩, .refl _⟩
        exact Mealy.run_concat hrun hs
      · exact fun _ ↦ rfl

/-- **The server runs its sessions.**  In every run of the server in which `accept()` does not
suspend, whatever its clients and requests do and however the steps of all handlers and tasks
are interleaved, what has happened to an object since it was made is a run of calls, one after
another, of the session it was made with. -/
theorem calls_of_run {t : FileTree} {is : List Input}
    (h : (machine app).run (.start t) is = some (w, o))
    (hatomic : (machine app).StepsMeet AtomicAccept (.start t) is)
    (hobj : w.objects[k]? = some obj) :
    ∃ s, MadeWith app t is k s ∧ Calls (s, none) obj.call (o.flatMap (·.generated k)) := by
  have hall : (machine app).run (.start t) is = some (w, o) ∧ w.Orderly ∧
      Called app t is w o := by
    refine Mealy.run_induction_of_steps (P := fun is w o ↦
      (machine app).run (.start t) is = some (w, o) ∧ w.Orderly ∧ Called app t is w o)
      (Q := AtomicAccept) ⟨rfl, orderly_start t, ?_⟩ ?_ h hatomic
    · intro k
      refine ⟨fun obj hobj ↦ ?_, fun _ ↦ rfl⟩
      cases hobj
    · rintro is w o i w' o' ⟨hrun, horderly, hcalled⟩ hi hs
      exact ⟨Mealy.run_concat hrun hs, horderly.step (.of_step hs) hi,
        hcalled.step hrun hs horderly (leavable_of_run hrun)⟩
  obtain ⟨-, -, hcalled⟩ := hall
  exact (hcalled k).1 obj hobj

end

/-- A client left in the middle of its stream, and the next one is being answered: the generator
of its stream waits at a chunk, and the session has come there by calls. -/
theorem calls_sampleBack : ∃ w o obj s,
    sampleMachine.run sampleStart (sampleLeft ++ sampleBack) = some (w, o) ∧
    w.objects[0]? = some obj ∧ obj.call.2 = some (.chunk "yo" none) ∧
    @MadeWith .asciiOnly App.sampleCodec App.sampleFactory App.sample App.sampleTree
      (sampleLeft ++ sampleBack) 0 s ∧
    @Calls .asciiOnly (s, none) obj.call (o.flatMap (·.generated 0)) := by
  obtain ⟨⟨w, o⟩, hrun, heval⟩ := Option.map_eq_some_iff.mp
    (show (sampleMachine.run sampleStart (sampleLeft ++ sampleBack)).map
      (fun r ↦ r.1.objects[0]?.map (·.call.2)) = some (some (some (.chunk "yo" none))) from rfl)
  obtain ⟨obj, hobj, hcall⟩ := Option.map_eq_some_iff.mp heval
  obtain ⟨s, hmade, hcalls⟩ := @calls_of_run .asciiOnly App.sampleCodec App.sampleFactory
    App.sample w o 0 obj App.sampleTree (sampleLeft ++ sampleBack) hrun atomicAccept_sampleBack hobj
  exact ⟨w, o, obj, s, hrun, hobj, hcall, hmade, hcalls⟩

end Server
