import ChatServer.Domain.SessionStep
import ChatServer.Storage.Presence
import ChatServer.Web.ServerStep

/-!
# Where a stream task writes

A stream task touches the store in one place, `update_session` at the end of its turn, and
not when it is being cancelled.  What follows is the same for a step of the task, of the
handlers of its object, and of the server.
-/

open FileTree

namespace StreamTask

section

variable [SessionCodec] {a : SessionFileAdapter} {t t' : FileTree} {s s' : Session}
  {faults : List (Option Fault)}

theorem tree_onReturn : (onReturn a t s faults).1 = (a.updateSession t s faults).1 := by
  rw [onReturn]
  split
  · rename_i hupdate
    rw [hupdate]
  · rename_i hupdate
    rw [hupdate]

theorem tree_sendDone (event : SessionCompletionDoneEvent)
    (rest : List (String × String × ModelStats)) :
    (sendDone a t s faults event rest).1 = t ∨
      (sendDone a t s faults event rest).1 = (a.updateSession t s faults).1 := by
  cases rest with
  | nil => exact Or.inr tree_onReturn
  | cons entry rest =>
      rw [sendDone]
      split
      · exact Or.inl rfl
      · exact Or.inl rfl

theorem tree_consume (phase : Option Session.Phase) (ob : Option Session.Obs) :
    (consume a t s faults phase ob).1 = t ∨
      (consume a t s faults phase ob).1 = (a.updateSession t s faults).1 := by
  unfold consume
  split
  · exact Or.inl rfl
  · exact tree_sendDone _ _
  · exact Or.inl rfl
  · exact Or.inl rfl
  · exact Or.inr tree_onReturn

variable [UnicodeData]

theorem tree_advance {phase : Option Session.Phase} {i : Session.Input} {phase' : StreamPhase}
    {o : List StreamObs} (hs : advance a t s faults phase i = some ((t', s', phase'), o)) :
    s'.id = s.id ∧ (t' = t ∨ t' = (a.updateSession t s' faults).1) := by
  obtain ⟨⟨⟨s₁, p₁⟩, o₁⟩, hstep, heq⟩ := Option.map_eq_some_iff.mp hs
  cases heq
  exact ⟨(Session.Step.of_step hstep).frame.id, tree_consume p₁ o₁.getLast?⟩

theorem tree_stepPhase {content : String} {phase phase' : StreamPhase} {i : StreamInput}
    {o : List StreamObs}
    (hs : stepPhase a t s faults content phase i = some ((t', s', phase'), o)) :
    s'.id = s.id ∧ (t' = t ∨ t' = (a.updateSession t s' faults).1) := by
  cases phase with
  | created =>
      cases i with
      | runs uuid4 => exact tree_advance hs
      | _ => cases hs
  | awaiting phase =>
      cases i with
      | resumes i => exact tree_advance hs
      | _ => cases hs
  | sendingChunk phase =>
      cases i with
      | sent => exact tree_advance hs
      | sendFails e =>
          cases hs
          exact ⟨rfl, Or.inl rfl⟩
      | _ => cases hs
  | sendingDone event rest =>
      cases i with
      | sent =>
          cases hs
          exact ⟨rfl, tree_sendDone event rest⟩
      | sendFails e =>
          cases hs
          exact ⟨rfl, Or.inl rfl⟩
      | _ => cases hs
  | sendingError =>
      cases i with
      | sent | sendFails e =>
          cases hs
          exact ⟨rfl, Or.inl rfl⟩
      | _ => cases hs
  | finished result => cases i <;> cases hs

/-- Cancellation ends the generator where it stands. -/
theorem tree_stepCancelled {phase phase' : StreamPhase} {o : List StreamObs}
    (hs : stepCancelled a t s faults phase = some ((t', s', phase'), o)) :
    s'.id = s.id ∧ t' = t := by
  cases phase with
  | awaiting phase =>
      cases phase with
      | main text stop | summary stop text =>
          cases hs
          exact ⟨rfl, rfl⟩
      | _ => cases hs
  | finished result => cases hs
  | _ =>
      cases hs
      exact ⟨rfl, rfl⟩

/-- A step of a task leaves the store alone, or it is the `update_session` of a task that
is not being cancelled. -/
theorem tree_step {task task' : StreamTask} {i : StreamInput} {o : List StreamObs}
    (hs : step a t s faults task i = some ((t', s', task'), o)) :
    s'.id = s.id ∧ (t' = t ∨ task.isDone = false ∧ task.cancelRequested = false ∧
      t' = (a.updateSession t s' faults).1) := by
  obtain ⟨⟨⟨t₁, s₁, phase⟩, o₁⟩, hnext, heq⟩ := Option.map_eq_some_iff.mp hs
  cases heq
  split at hnext
  · split at hnext
    · obtain ⟨hid, htree⟩ := tree_stepCancelled hnext
      exact ⟨hid, Or.inl htree⟩
    · cases hnext
  · rename_i hcancel
    obtain ⟨hid, htree⟩ := tree_stepPhase hnext
    refine ⟨hid, htree.imp_right fun hupdate ↦ ⟨?_, eq_false_of_ne_true hcancel, hupdate⟩⟩
    unfold isDone
    split
    · rename_i hphase
      rw [hphase] at hnext
      cases i <;> cases hnext
    · rfl

end

end StreamTask

namespace WsHandler

variable [UnicodeData] [SessionCodec] {a : SessionFileAdapter} {w w' : State} {i : Input}
  {o : List Obs}

/-- The identifier of the session stays what it is. -/
theorem Step.session_id (hs : Step a w i w' o) : w'.sc.session.id = w.sc.session.id := by
  cases hs with
  | stream n i faults task task' tree session o htask hstep => exact (StreamTask.tree_step hstep).1
  | _ => rfl

/-- A step of the handlers and tasks of an object leaves the store alone, or it is the
`update_session` of a task that is not being cancelled. -/
theorem Step.tree (hs : Step a w i w' o) : w'.tree = w.tree ∨
    ∃ n i' faults task, i = .stream n i' faults ∧ w.tasks[n]? = some task ∧
      task.isDone = false ∧ task.cancelRequested = false ∧
      w'.tree = (a.updateSession w.tree w'.sc.session faults).1 := by
  cases hs with
  | stream n i faults task task' tree session o htask hstep =>
      rcases (StreamTask.tree_step hstep).2 with hsame | ⟨hdone, hcancel, hupdate⟩
      · exact Or.inl hsame
      · exact Or.inr ⟨n, i, faults, task, rfl, htask, hdone, hcancel, hupdate⟩
  | _ => exact Or.inl rfl

/-- Without the directory of its session an object writes nothing. -/
theorem Step.tree_of_not_exists (hs : Step a w i w' o)
    (hexists : w.tree.pathExists (a.sessionDir w.sc.session.id) = false) : w'.tree = w.tree := by
  rcases hs.tree with hsame | ⟨n, i', faults, task, -, -, -, -, hupdate⟩
  · exact hsame
  · rw [hupdate]
    apply SessionFileAdapter.updateSession_of_not_exists
    rw [hs.session_id]
    exact hexists

end WsHandler
