import ChatServer.Web.ServerStep

/-!
# One stream at a time

The server makes, registers and drops objects, and moves their handlers and tasks one step
at a time.  Whatever it does, every object is either left alone, or new, or moved by a
step of its own (`Step.objects`), so the laws of `ChatServer.Web.Occupancy` hold of every
object of every reachable state once they are kept by one step of it.

They are if `accept()` does not suspend, that is if the handler that is in it goes on
before anything else happens (`AtomicAccept`).
-/

open FileTree

namespace WsHandler

/-- A handler in an `accept()` before which it found the object free was there before, or
has just been called. -/
theorem Step.at_accepting [UnicodeData] [SessionCodec] {a : SessionFileAdapter} {w w' : State}
    {i : Input} {o : List Obs} (hs : Step a w i w' o) {h : ℕ} (hh : w'.At h .accepting) :
    w.At h .accepting ∨ i = .connects ∧ h = w.handlers.length := by
  have hmoved : ∀ {h₁ : ℕ} {old : HandlerPhase} (new : HandlerPhase), w.At h₁ old →
      new ≠ .accepting → (w.setHandler h₁ new).At h .accepting → w.At h .accepting := by
    intro h₁ old new hold hnew hset
    rcases (State.at_setHandler hold).mp hset with ⟨-, heq⟩ | ⟨-, hsame⟩
    · exact absurd heq.symm hnew
    · exact hsame
  cases hs with
  | connects free | connectsTaken h₁ taken =>
      rcases State.at_addHandler.mp hh with hsame | ⟨rfl, -⟩
      · exact Or.inl hsame
      · exact Or.inr ⟨rfl, rfl⟩
  | enters h₁ hold => exact Or.inl (hmoved .receiving hold nofun hh)
  | refuses h₁ hold => exact Or.inl (hmoved .closing hold nofun hh)
  | closed h₁ hold => exact Or.inl (hmoved .ended hold nofun hh)
  | acceptFails h₁ phase hold hphase => exact Or.inl (hmoved .ended hold nofun hh)
  | malformed h₁ hold | ping h₁ hold => exact Or.inl (hmoved .replying hold nofun hh)
  | refuseMessage h₁ n content hold busy => exact Or.inl (hmoved .replying hold nofun hh)
  | replied h₁ hold => exact Or.inl (hmoved .receiving hold nofun hh)
  | leaves h₁ n phase hold hphase busy => exact Or.inl (hmoved (.joining n) hold nofun hh)
  | leavesIdle h₁ phase hold hphase idle => exact Or.inl (hmoved .ended hold nofun hh)
  | joined h₁ n task hold htask hdone => exact Or.inl (hmoved .ended hold nofun hh)
  | _ => exact Or.inl hh

end WsHandler

namespace Server

/-! ## What becomes of the objects -/

/-- The objects are left alone, or there is a new one, or one of them has made a step of
its own. -/
inductive Moves [UnicodeData] [SessionCodec] (app : App) (w : Server) (i : Input) (w' : Server) :
    Prop where
  | same (h : w'.objects = w.objects)
  | fresh (session : Session) (h : w'.objects = w.objects ++ [.fresh session])
  | moved (k : ℕ) (obj : Held) (j : WsHandler.Input) (c : WsHandler.State)
      (o : List WsHandler.Obs) (hobj : w.objects[k]? = some obj)
      (hstep : WsHandler.Step app.repository (obj.onTree w.tree) j c o)
      (h : w'.objects = w.objects.set k (.of c))
      (hj : j = .connects ∧ (∀ k j, i ≠ .object k j) ∨ j ≠ .connects ∧ i = .object k j)

/-- A handler of an object is in an `accept()` before which it found the object free. -/
def Accepting (w : Server) (k h : ℕ) : Prop :=
  ∃ obj, w.objects[k]? = some obj ∧ (obj.onTree w.tree).At h .accepting

/-- A handler that is in such an `accept()` goes on before anything else happens. -/
def AtomicAccept (w : Server) (i : Input) : Prop :=
  ∀ k h, w.Accepting k h → i = .object k (.handler h .accepted) ∨
    i = .object k (.handler h .acceptFails)

/-- The laws of occupancy hold of every object, and there is at most one handler in an
`accept()` before which it found its object free. -/
structure Orderly (w : Server) : Prop where
  objects : ∀ (k : ℕ) (obj : Held), w.objects[k]? = some obj →
    (obj.onTree w.tree).Exclusive ∧ (obj.onTree w.tree).Tracked
  accepting : ∀ k h k' h', w.Accepting k h → w.Accepting k' h' → k = k' ∧ h = h'

theorem orderly_start (t : FileTree) : (start t).Orderly := by
  constructor
  · intro k obj hobj
    cases hobj
  · rintro k h k' h' ⟨obj, hobj, -⟩
    cases hobj

theorem connect_step [UnicodeData] [SessionCodec] {app : App} (obj : Held) (t : FileTree) :
    WsHandler.Step app.repository (obj.onTree t) .connects (obj.onTree t).connect [] :=
  .of_step rfl

theorem objects_onLoadFails (w : Server) (r : ℕ) (e : WebExc) (loader : Loader) :
    (w.onLoadFails r e loader).1.objects = w.objects := by
  cases e with
  | storageError message original => cases loader <;> rfl
  | raised e => cases e <;> cases loader <;> rfl

theorem Accepting.of_objects {w w' : Server} {k h : ℕ} (hobjects : w'.objects = w.objects)
    (haccepting : w'.Accepting k h) : w.Accepting k h := by
  obtain ⟨obj, hobj, hh⟩ := haccepting
  rw [hobjects] at hobj
  exact ⟨obj, hobj, hh⟩

/-- A new object has no handlers and no tasks. -/
theorem Orderly.fresh {w w' : Server} {session : Session} (hw : w.Orderly)
    (h : w'.objects = w.objects ++ [.fresh session]) : w'.Orderly := by
  have hold : ∀ {k : ℕ} {obj : Held}, w'.objects[k]? = some obj →
      w.objects[k]? = some obj ∨ obj = .fresh session := by
    intro k obj hobj
    rw [h] at hobj
    exact (List.getElem?_concat_iff.mp hobj).imp_right And.right
  have haccepting : ∀ {k h : ℕ}, w'.Accepting k h → w.Accepting k h := by
    rintro k h ⟨obj, hobj, hh⟩
    rcases hold hobj with hobj | rfl
    · exact ⟨obj, hobj, hh⟩
    · cases hh
  constructor
  · intro k obj hobj
    rcases hold hobj with hobj | rfl
    · exact hw.objects k obj hobj
    · exact ⟨WsHandler.State.exclusive_init w'.tree session,
        WsHandler.State.tracked_init w'.tree session⟩
  · intro k₁ h₁ k₂ h₂ haccepting₁ haccepting₂
    exact hw.accepting k₁ h₁ k₂ h₂ (haccepting haccepting₁) (haccepting haccepting₂)

/-- An object that moves keeps its own laws, as at most one of its handlers is accepting. -/
theorem Orderly.moves [UnicodeData] [SessionCodec] {app : App} {w : Server} {k : ℕ} {obj : Held}
    {j : WsHandler.Input} {c : WsHandler.State} {o : List WsHandler.Obs} (hw : w.Orderly)
    (hobj : w.objects[k]? = some obj)
    (hstep : WsHandler.Step app.repository (obj.onTree w.tree) j c o) :
    c.Exclusive ∧ c.Tracked := by
  obtain ⟨hexclusive, htracked⟩ := hw.objects k obj hobj
  have halone : ∀ h, j = .handler h .accepted → (obj.onTree w.tree).At h .accepting →
      (obj.onTree w.tree).AloneAccepting h := by
    intro h₁ _ hh₁ h₂ hh₂
    exact (hw.accepting k h₂ k h₁ ⟨obj, hobj, hh₂⟩ ⟨obj, hobj, hh₁⟩).2
  exact ⟨hexclusive.step hstep halone, htracked.step hexclusive hstep⟩

section

variable [UnicodeData] [SessionCodec] [LlmPortFactory] {app : App} {w w' : Server} {i : Input}
  {o : List Obs}

/-- What a step of the server does to the objects. -/
theorem Step.objects (hs : Step app w i w' o) : Moves app w i w' := by
  cases hs with
  | connectHeld id k obj held hobj =>
      refine .moved k obj .connects _ [] hobj (connect_step obj w.tree) rfl (Or.inl ⟨rfl, ?_⟩)
      intro k j heq
      cases heq
  | resumesConnect r id k obj hr hobj =>
      refine .moved k obj .connects _ [] hobj (connect_step obj w.tree) rfl (Or.inl ⟨rfl, ?_⟩)
      intro k j heq
      cases heq
  | creates r id now ref faults tree session o hr hcreate ho => exact .fresh session rfl
  | loads r id loader ref session hr hget => exact .fresh session rfl
  | loadFails r id loader ref e hr hget => exact .same (objects_onLoadFails w r e loader)
  | object k i obj c o hi hobj hstep => exact .moved k obj i c o hobj hstep rfl (Or.inr ⟨hi, rfl⟩)
  | _ => exact .same rfl

/-- An object stays, and is left alone or makes a step of its own. -/
theorem Step.object_moves {k : ℕ} {obj : Held} (hs : Step app w i w' o)
    (hobj : w.objects[k]? = some obj) : ∃ obj', w'.objects[k]? = some obj' ∧ (obj' = obj ∨
      ∃ j c o', WsHandler.Step app.repository (obj.onTree w.tree) j c o' ∧ obj' = .of c) := by
  cases hs.objects with
  | same h =>
      rw [h]
      exact ⟨obj, hobj, Or.inl rfl⟩
  | fresh session h =>
      rw [h]
      exact ⟨obj, List.getElem?_concat_iff.mpr (Or.inl hobj), Or.inl rfl⟩
  | moved k' obj₁ j c o hobj₁ hstep h hj =>
      rw [h]
      by_cases heq : k = k'
      · subst heq
        obtain rfl := Option.some.inj (hobj.symm.trans hobj₁)
        exact ⟨.of c, (List.getElem?_set_iff hobj).mpr (Or.inl ⟨rfl, rfl⟩),
          Or.inr ⟨j, c, o, hstep, rfl⟩⟩
      · exact ⟨obj, (List.getElem?_set_iff hobj₁).mpr (Or.inr ⟨heq, hobj⟩), Or.inl rfl⟩

/-- **One step** of the server keeps it in order, if `accept()` does not suspend. -/
theorem Orderly.step (hw : w.Orderly) (hs : Step app w i w' o) (hatomic : w.AtomicAccept i) :
    w'.Orderly := by
  cases hs.objects with
  | same h =>
      constructor
      · intro k obj hobj
        rw [h] at hobj
        exact hw.objects k obj hobj
      · intro k₁ h₁ k₂ h₂ haccepting₁ haccepting₂
        exact hw.accepting k₁ h₁ k₂ h₂ (.of_objects h haccepting₁) (.of_objects h haccepting₂)
  | fresh session h => exact hw.fresh h
  | moved k obj j c o hobj hstep h hj =>
      have hc : c.Exclusive ∧ c.Tracked := hw.moves hobj hstep
      have hset : ∀ {k' : ℕ} {obj' : Held}, w'.objects[k']? = some obj' →
          k' = k ∧ obj' = .of c ∨ w.objects[k']? = some obj' := by
        intro k' obj' hobj'
        rw [h] at hobj'
        exact ((List.getElem?_set_iff hobj).mp hobj').imp_right And.right
      -- who is accepting was so before, or has just found the object free
      have haccepting : ∀ {k' h' : ℕ}, w'.Accepting k' h' →
          w.Accepting k' h' ∨ (∀ k j, i ≠ .object k j) ∧ k' = k ∧ h' = obj.handlers.length := by
        rintro k' h' ⟨obj', hobj', hh'⟩
        rcases hset hobj' with ⟨rfl, rfl⟩ | hobj'
        · rcases hstep.at_accepting hh' with hbefore | ⟨rfl, rfl⟩
          · exact Or.inl ⟨obj, hobj, hbefore⟩
          · rcases hj with ⟨-, hi⟩ | ⟨hne, -⟩
            · exact Or.inr ⟨hi, rfl, rfl⟩
            · exact absurd rfl hne
        · exact Or.inl ⟨obj', hobj', hh'⟩
      have hnone : (∀ k j, i ≠ .object k j) → ∀ k h, ¬ w.Accepting k h := by
        intro hi k h hbefore
        rcases hatomic k h hbefore with heq | heq
        · exact hi _ _ heq
        · exact hi _ _ heq
      constructor
      · intro k' obj' hobj'
        rcases hset hobj' with ⟨rfl, rfl⟩ | hobj'
        · exact hc
        · exact hw.objects k' obj' hobj'
      · intro k₁ h₁ k₂ h₂ haccepting₁ haccepting₂
        rcases haccepting haccepting₁ with hbefore₁ | ⟨hi, rfl, rfl⟩
        · rcases haccepting haccepting₂ with hbefore₂ | ⟨hi, -, -⟩
          · exact hw.accepting k₁ h₁ k₂ h₂ hbefore₁ hbefore₂
          · exact absurd hbefore₁ (hnone hi k₁ h₁)
        · rcases haccepting haccepting₂ with hbefore₂ | ⟨-, rfl, rfl⟩
          · exact absurd hbefore₂ (hnone hi k₂ h₂)
          · exact ⟨rfl, rfl⟩

theorem orderly_of_run {t : FileTree} {is : List Input}
    (h : (machine app).run (.start t) is = some (w, o))
    (hatomic : (machine app).StepsMeet AtomicAccept (.start t) is) : w.Orderly := by
  refine Mealy.run_induction_of_steps (P := fun _ w _ ↦ w.Orderly) (Q := AtomicAccept)
    (orderly_start t) ?_ h hatomic
  exact fun _ w _ i w' o' hw hi hs ↦ hw.step (.of_step hs) hi

/-- In every run in which `accept()` does not suspend, whatever the clients, the requests,
the LLMs and the storage do, every object has at most one unfinished stream task in every
state reached. -/
theorem one_stream_of_run {t : FileTree} {is : List Input}
    (h : (machine app).run (.start t) is = some (w, o))
    (hatomic : (machine app).StepsMeet AtomicAccept (.start t) is) :
    ∀ (k : ℕ) (obj : Held), w.objects[k]? = some obj → ∀ (n n' : ℕ) (task task' : StreamTask),
      obj.tasks[n]? = some task → task.isDone = false →
        obj.tasks[n']? = some task' → task'.isDone = false → n = n' := by
  intro k obj hobj n n' task task' hn hdone hn' hdone'
  exact ((orderly_of_run h hatomic).objects k obj hobj).2.atMostOne hn hdone hn' hdone'

end

/-! ## A run to evaluate -/

/-- A client is accepted and sends a message. -/
def sampleFirstMessage : List Input :=
  sampleOpen ++ [.object 0 (.handler 0 .accepted),
    .object 0 (.handler 0 (.receives (some (.sendMessage "hi"))))]

theorem atomicAccept_of_free {w : Server}
    (h : w.objects.all (fun obj ↦ obj.handlers.all (· ≠ .accepting)) = true) (i : Input) :
    w.AtomicAccept i := by
  rintro k h' ⟨obj, hobj, hh⟩
  have hfree := List.all_eq_true.mp (List.all_eq_true.mp h obj (List.mem_of_getElem? hobj))
    .accepting (List.mem_of_getElem? hh)
  exact absurd rfl (of_decide_eq_true hfree)

theorem atomicAccept_sampleFirstMessage :
    sampleMachine.StepsMeet AtomicAccept sampleStart sampleFirstMessage := by
  refine .cons rfl (atomicAccept_of_free rfl _) ?_
  refine .cons rfl (atomicAccept_of_free rfl _) ?_
  refine .cons rfl (atomicAccept_of_free rfl _) ?_
  refine .cons rfl (atomicAccept_of_free rfl _) ?_
  refine .cons rfl ?_ ?_
  · rintro k h ⟨obj, hobj, hh⟩
    cases k with
    | succ k => cases hobj
    | zero =>
        cases hobj
        cases h with
        | zero => exact Or.inl rfl
        | succ h => cases hh
  exact .cons rfl (atomicAccept_of_free rfl _) .nil

/-- The message has started the one task there is. -/
theorem one_stream_sampleFirstMessage : ∃ w o obj,
    sampleMachine.run sampleStart sampleFirstMessage = some (w, o) ∧ w.objects[0]? = some obj ∧
      obj.tasks.map (·.isDone) = [false] ∧ ∀ (n n' : ℕ) (task task' : StreamTask),
        obj.tasks[n]? = some task → task.isDone = false →
          obj.tasks[n']? = some task' → task'.isDone = false → n = n' := by
  obtain ⟨⟨w, o⟩, hrun, heval⟩ := Option.map_eq_some_iff.mp
    (show (sampleMachine.run sampleStart sampleFirstMessage).map
      (fun r ↦ r.1.objects[0]?.map fun obj ↦ obj.tasks.map (·.isDone)) = some (some [false])
      from rfl)
  obtain ⟨obj, hobj, htasks⟩ := Option.map_eq_some_iff.mp heval
  exact ⟨w, o, obj, hrun, hobj, htasks, @one_stream_of_run .asciiOnly App.sampleCodec
    App.sampleFactory App.sample w o App.sampleTree sampleFirstMessage hrun
    atomicAccept_sampleFirstMessage 0 obj hobj⟩

end Server
